import YamlDefs.Arguments
import YamlDefs.Arguments.Reader
import YamlDefs.Binary64.Arithmetic
import YamlDefs.Binary64.Basic
import YamlDefs.Binary64.Nearest
import YamlDefs.Binary64.Shortest
import YamlDefs.Binary64.Text
import YamlDefs.Compile
import YamlDefs.Counting
import YamlDefs.Declare
import YamlDefs.Environment.DotEnv
import YamlDefs.Environment.Variables
import YamlDefs.Files
import YamlDefs.Identifier
import YamlDefs.Logging
import YamlDefs.Main
import YamlDefs.Node
import YamlDefs.Number
import YamlDefs.Output
import YamlDefs.Program
import YamlDefs.Program.Own
import YamlDefs.Rejection
import YamlDefs.Session
import YamlDefs.Settings
import YamlDefs.Settings.Ini
import YamlDefs.Settings.Json.Document
import YamlDefs.Settings.Json.Number
import YamlDefs.Settings.Load
import YamlDefs.Settings.Path
import YamlDefs.Settings.Reader
import YamlDefs.Settings.Setting
import YamlDefs.Settings.Toml.Document
import YamlDefs.Settings.Toml.Moment
import YamlDefs.Settings.Toml.Table
import YamlDefs.Settings.Toml.Text
import YamlDefs.Settings.Toml.Word
import YamlDefs.Settings.Yaml.Datum
import YamlDefs.Settings.Yaml.Document
import YamlDefs.Settings.Yaml.Glyph
import YamlDefs.Settings.Yaml.Grammar
import YamlDefs.Settings.Yaml.Lexer
import YamlDefs.Settings.Yaml.Property
import YamlDefs.Settings.Yaml.Scalar
import YamlDefs.Tag.Carried
import YamlDefs.Tag.Core
import YamlDefs.Tag.Cursor
import YamlDefs.Tag.Scan
import YamlDefs.Text.Alphanumeric
import YamlDefs.Text.Blank
import YamlDefs.Text.Digits
import YamlDefs.Text.Join
import YamlDefs.Text.Lines
import YamlDefs.Text.Reader
import YamlDefs.Text.Unsigned
import YamlDefs.Text.Utf8
import YamlDefs.Validation
import YamlDefs.Yaml.Glyph
import YamlDefs.Yaml.Lexer
import YamlDefs.Yaml.Property
import YamlDefs.Yaml.Read
import YamlDefs.Yaml.Scalar
import YamlDefs.Yaml.Schema
import YamlDefs.Yaml.Token
import YamlDefs.Yaml.Tree
import YamlDefs.Yaml.Value
import YamlDefs.Proofs.Node
import YamlDefs.Proofs.Walk
import YamlDefs.Proofs.FirstFault
import YamlDefs.Proofs.Acceptance
import YamlDefs.Proofs.Decoding
import YamlDefs.Proofs.Tag.Block
import YamlDefs.Proofs.Tag.Lines
import YamlDefs.Proofs.Tag.BlockScan
import YamlDefs.Proofs.Tag.Blanks
import YamlDefs.Proofs.Tag.Layout
import YamlDefs.Proofs.Tag.TopLevel
import YamlDefs.Proofs.Tag.Opaque
import YamlDefs.Proofs.Tag.PlainText
import YamlDefs.Proofs.Tag.Compact
import YamlDefs.Proofs.Tag.Flow
import YamlDefs.Proofs.Tag.FlowScan
import YamlDefs.Proofs.Tag.Adjacent
import YamlDefs.Proofs.Tag.Apart
import YamlDefs.Proofs.Tag.ByteOrderMark
import YamlDefs.Proofs.Tag.Continuation
import YamlDefs.Proofs.Session
import YamlDefs.Proofs.Limit
import YamlDefs.Proofs.Keys
import YamlDefs.Proofs.Files
import YamlDefs.Proofs.Tag.Finding
import YamlDefs.Proofs.Shift
import YamlDefs.Proofs.Constant
import YamlDefs.Proofs.Place
import YamlDefs.Proofs.Rendering
import YamlDefs.Proofs.Tag.Modes
import YamlDefs.Proofs.Binary64.Interval
import YamlDefs.Proofs.Binary64.Notation
import YamlDefs.Proofs.CanonicalText
import YamlDefs.Proofs.Counting
import YamlDefs.Proofs.Tag.Cursor
import YamlDefs.Proofs.Delivery
import YamlDefs.Proofs.ArgumentForms
import YamlDefs.Proofs.SettingsFile
import YamlDefs.Proofs.Spelling
import YamlDefs.Proofs.Configuration

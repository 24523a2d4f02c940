import YamlDefs.Arguments
import YamlDefs.Text.Join

/-!
# A reader of arguments

A value stands after its option or is attached to it: `-i X`, `-iX`, `-i=X`, `--input X`,
`--input=X`. There are no arguments but options and their values.

A value that stands after its option is examined only when the next option comes or the arguments
end, so that an unknown argument is reported before a fault of a value in front of it.

* `Form.of`: what an argument is by its form.
* `readFrom`: what arguments give to options, after others that have been read.
* `ArgumentReader.own`: the reader, with the texts that it prints.
-/

namespace YamlDefs

namespace ArgumentReader

/-! ## Reading -/

/-- What a name of an option asks for. -/
inductive Asked where
  | value (option : OptionSpec)
  | halt (reason : Halt)
deriving Repr

/-- The option with a long name. -/
def Asked.ofLong? (c : Command) (name : List Char) : Option Asked :=
  if name = "help".toList then some (.halt .help)
  else if name = "version".toList then some (.halt .version)
  else (c.options.find? fun o => o.name.toList = name).map .value

/-- The option with a name of one letter. -/
def Asked.ofShort? (c : Command) (letter : Char) : Option Asked :=
  if letter = 'h' then some (.halt .help)
  else if letter = 'V' then some (.halt .version)
  else (c.options.find? fun o => o.letter = some letter).map .value

/-- What is wrong with a value that is none of a kind. -/
def misuse : ValueKind → Misuse
  | .path => .missingValue
  | .word => .malformedNumber

/-- Gives an option its value, unless it has one. -/
def give (m : Matches) (o : OptionSpec) (value : List Char) : Except Halt Matches :=
  if (m o).isSome then .error (.misuse .repeatedOption)
  else
    match o.kind.read? (String.ofList value) with
    | some value => .ok (m.set o value)
    | none => .error (.misuse (misuse o.kind))

/-- An option whose value stands after it, and that value once it is met. -/
structure Waiting where
  option : OptionSpec
  value : Option (List Char)
deriving DecidableEq, Repr

/-- Gives the option that is waiting its value, if one is. -/
def settle (m : Matches) : Option Waiting → Except Halt Matches
  | none => .ok m
  | some ⟨_, none⟩ => .error (.misuse .missingValue)
  | some ⟨option, some value⟩ => give m option value

/-- What the text after a letter option attaches to it: nothing if it is empty, and otherwise what
comes after an equals sign or else all of it. -/
def attachedToShort (cs : List Char) : Option (List Char) :=
  match cs with
  | [] => none
  | '=' :: value => some value
  | value => some value

/-- The name of a long option, and the value that an equals sign attaches to it. -/
def splitLong (cs : List Char) : List Char × Option (List Char) :=
  match cs.dropWhile (· ≠ '=') with
  | [] => (cs, none)
  | _ :: value => (cs.takeWhile (· ≠ '='), some value)

/-- What an argument is by its form. -/
inductive Form where
  /-- A value, or an argument that has no place. -/
  | bare
  /-- The end of the options. -/
  | finish
  /-- An option with what is attached to it; the name may be unknown. -/
  | option (name : Option Asked) (long : Bool) (attached : Option (List Char))
deriving Repr

/-- The form of an argument. A single dash has none of its own. -/
def Form.of (c : Command) (arg : List Char) : Form :=
  match arg with
  | ['-', '-'] => .finish
  | '-' :: '-' :: cs =>
    let (name, attached) := splitLong cs
    .option (Asked.ofLong? c name) true attached
  | '-' :: letter :: cs => .option (Asked.ofShort? c letter) false (attachedToShort cs)
  | _ => .bare

/-- Reads arguments after those that have given `m`, with an option that may be waiting for its
value. -/
def readFrom (c : Command) (m : Matches) (waiting : Option Waiting) :
    List (List Char) → Except Halt Matches
  | [] => settle m waiting
  | arg :: rest =>
    match Form.of c arg with
    | .finish => if rest.isEmpty then settle m waiting else .error (.misuse .unknownArgument)
    | .bare =>
      match waiting with
      | some ⟨option, none⟩ => readFrom c m (some ⟨option, some arg⟩) rest
      | _ => .error (.misuse .unknownArgument)
    | .option none _ _ => .error (.misuse .unknownArgument)
    | .option (some (.halt reason)) long attached =>
      if long && attached.isSome then .error (.misuse .unwantedValue)
      else
        match settle m waiting with
        | .ok _ => .error reason
        | .error halt => .error halt
    | .option (some (.value option)) _ attached =>
      match settle m waiting, attached with
      | .ok m, none => readFrom c m (some ⟨option, none⟩) rest
      | .ok m, some value =>
        match give m option value with
        | .ok m => readFrom c m none rest
        | .error halt => .error halt
      | .error halt, _ => .error halt

/-! ## Texts -/

/-- The text by which a misuse is reported. -/
def misuseText : Misuse → String
  | .unknownArgument => "error: unexpected argument found\n"
  | .missingValue => "error: a value is required for an option\n"
  | .malformedNumber => "error: invalid value for an option\n"
  | .repeatedOption => "error: an option cannot be used multiple times\n"
  | .unwantedValue => "error: unexpected value for an option found\n"

/-- How an option is written, and what it is for. -/
def explained (o : OptionSpec) : String × String :=
  let letter := match o.letter with
    | some l => String.ofList ['-', l, ',', ' ']
    | none => "    "
  (letter ++ "--" ++ o.name ++ " <" ++ o.valueName ++ ">", o.about)

/-- The text that explains the arguments of a program. -/
def helpText (c : Command) : String :=
  let lines := c.options.map explained ++
    [("-h, --help", "Print help"), ("-V, --version", "Print version")]
  let width := lines.foldl (fun width line => max width line.1.length) 0
  let line (written about : String) : String :=
    let gap := String.ofList (List.replicate (width - written.length + 2) ' ')
    "  " ++ written ++ gap ++ about
  Text.join "\n"
    ([c.about, "", "Usage: " ++ c.name ++ " [OPTIONS]", "", "Options:"] ++
      lines.map (fun l => line l.1 l.2) ++ [""])

/-- The reader, with the texts that it prints. -/
def own : ArgumentReader where
  read c args := readFrom c .empty none (args.map String.toList)
  text c _ halt :=
    match halt with
    | .help => helpText c
    | .version => c.name ++ " " ++ c.version ++ "\n"
    | .misuse fault => misuseText fault

end ArgumentReader

end YamlDefs

import Mathlib.Data.Nat.PSub
import YamlDefs.Tag.Scan

/-!
# Scanning by index

A line can also be scanned by an index into it. Then characters are read and parts cut out at
indices, the character before a `#` among them, and a flow collection that closes takes one from
their number. Here each of these is partial: it gives nothing where it reaches out of the line or
below zero.

* `slice?`, `tokenEnd?`: a part of a line, and the index behind a token.
* `Cursor`, `Cursor.advance?`: the state of a scan by index, and one move.
* `Cursor.scan?`: a number of moves, as many as are needed until the line ends.
-/

namespace YamlDefs.Tag

open YamlDefs.Text

/-! ## Reading and cutting by index -/

/-- The part of a line between two indices, which must stand in order inside it. -/
def slice? (chars : List Char) (start stop : Nat) : Option (List Char) :=
  if start ≤ stop ∧ stop ≤ chars.length then some ((chars.take stop).drop start) else none

/-- Whether an index is the first or the character before it is blank. -/
def afterBlank? (chars : List Char) (i : Nat) : Option Bool :=
  if i = 0 then some true else do
    let c ← chars[← i.ppred]?
    return isBlank c

/-- Whether a character at an index begins a comment. -/
def opensComment? (chars : List Char) (c : Char) (i : Nat) : Option Bool :=
  if c = '#' then afterBlank? chars i else some false

/-- Whether a character at an index begins the header of a block scalar. -/
def opensBlock? (chars : List Char) (c : Char) (i : Nat) : Option Bool :=
  if c = '|' ∨ c = '>' then (slice? chars (i + 1) chars.length).map isBlockHeader else some false

/-- The index behind the characters of a token that stand from an index on. -/
def nameEnd? (inFlow : Bool) (chars : List Char) (i : Nat) : Option Nat :=
  if i < chars.length then do
    let c ← chars[i]?
    if isTokenChar inFlow c then nameEnd? inFlow chars (i + 1) else some i
  else some i
termination_by chars.length - i

/-- The index behind the token whose `!` or `&` stands at an index. -/
def tokenEnd? (inFlow : Bool) (chars : List Char) (start : Nat) : Option Nat :=
  if chars[start + 1]? = some '<' then do
    let rest ← slice? chars start chars.length
    return (rest.findIdx? (· = '>')).elim chars.length (start + · + 1)
  else nameEnd? inFlow chars (start + 1)

/-! ## Moves -/

/-- The state of a scan by index inside a line. -/
structure Cursor where
  index : Nat
  /-- The quote character of the quoted scalar that the scan is in. -/
  quote : Option Char
  /-- How many flow collections are open. -/
  flowDepth : Nat
  /-- Whether a node may begin here. -/
  expectNode : Bool
  /-- Whether a plain scalar of a block context is under way. -/
  inPlain : Bool
deriving DecidableEq, Repr

/-- What one move by index comes to. -/
inductive Advance where
  /-- The scan goes on at a cursor. -/
  | on (next : Cursor)
  /-- A comment takes the rest of the line. -/
  | comment (last : Cursor)
  /-- The header of a block scalar takes the rest of the line. -/
  | block
  /-- A tag outside the core schema stands here. -/
  | found (tag : List Char)
deriving DecidableEq, Repr

namespace Cursor

/-- The cursor at the beginning of a line. -/
def start (c : Carry) : Cursor := ⟨0, c.quote, c.flowDepth, c.quote.isNone, false⟩

/-- One move inside a quoted scalar. -/
def quotedAdvance (chars : List Char) (cur : Cursor) (quote c : Char) : Cursor :=
  if quote = '"' ∧ c = '\\' ∨ quote = '\'' ∧ c = '\'' ∧ chars[cur.index + 1]? = some '\'' then
    { cur with index := cur.index + 2 }
  else if c = quote then
    { cur with index := cur.index + 1, quote := none, expectNode := false }
  else
    { cur with index := cur.index + 1 }

/-- One move over a character that begins no tag, anchor, quote, block scalar or flow collection. -/
def plainAdvance? (chars : List Char) (cur : Cursor) (c : Char) : Option Cursor :=
  if (c = ']' ∨ c = '}') ∧ 0 < cur.flowDepth then do
    let depth ← cur.flowDepth.ppred
    return { cur with index := cur.index + 1, flowDepth := depth, expectNode := false }
  else if c = ',' ∧ 0 < cur.flowDepth then
    some { cur with index := cur.index + 1, expectNode := true }
  else if (c = ':' ∨ c = '-' ∨ c = '?') ∧ chars[cur.index + 1]?.all isBlank then
    some { cur with index := cur.index + 1, expectNode := true, inPlain := false }
  else
    some { cur with index := cur.index + 1, expectNode := false }

/-- One move over a character with which a node may begin. -/
def nodeAdvance? (chars : List Char) (cur : Cursor) (c : Char) : Option Advance :=
  if c = '!' then do
    let stop ← tokenEnd? (0 < cur.flowDepth) chars cur.index
    let tag ← slice? chars cur.index stop
    return if isCore tag then .on { cur with index := stop } else .found tag
  else if c = '&' then do
    let stop ← tokenEnd? (0 < cur.flowDepth) chars cur.index
    return .on { cur with index := stop }
  else if c = '"' ∨ c = '\'' then
    some (.on { cur with index := cur.index + 1, quote := some c, inPlain := false })
  else do
    if ← opensBlock? chars c cur.index then return .block
    else if c = '[' ∨ c = '{' then
      some (.on { cur with index := cur.index + 1, flowDepth := cur.flowDepth + 1 })
    else
      (plainAdvance? chars { cur with inPlain := cur.flowDepth = 0 } c).map .on

/-- One move at a cursor. -/
def advance? (chars : List Char) (cur : Cursor) : Option Advance := do
  let c ← chars[cur.index]?
  match cur.quote with
  | some quote => return .on (cur.quotedAdvance chars quote c)
  | none =>
    if isBlank c then return .on { cur with index := cur.index + 1 }
    else
      if ← opensComment? chars c cur.index then return .comment { cur with inPlain := false }
      else if cur.expectNode then cur.nodeAdvance? chars c
      else (cur.plainAdvance? chars c).map .on

/-- What is carried on behind a line whose scan ends at a cursor. -/
def carry (chars : List Char) (cur : Cursor) : Carry where
  quote := cur.quote
  flowDepth := cur.flowDepth
  blockIndent := none
  plainIndent :=
    if cur.inPlain ∧ cur.quote = none ∧ cur.flowDepth = 0 then some (indentation chars) else none

/-- At most the given number of moves: the tag that they find, or what is carried on where the line
ends; none if they do not come to its end. -/
def scan? (chars : List Char) : Nat → Cursor → Option (Except (List Char) Carry)
  | 0, cur => if cur.index < chars.length then none else some (.ok (cur.carry chars))
  | moves + 1, cur =>
    if cur.index < chars.length then do
      match ← cur.advance? chars with
      | .on next => next.scan? chars moves
      | .comment last => return .ok (last.carry chars)
      | .block => return .ok ⟨none, cur.flowDepth, some (indentation chars), none⟩
      | .found tag => return .error tag
    else some (.ok (cur.carry chars))

end Cursor

end YamlDefs.Tag

import YamlDefs.Settings.Yaml.Datum

/-!
# Grammar of settings

The grammar of documents over tokens. A node is built as soon as it is read: an alias stands for the
node that was last anchored under its name, and is malformed inside that node itself.

* `Grammar.node`: a node with its properties, in one of three contexts.
* `document?`: the datum of a token list, which is none if there is no document; no result if the
  tokens form no document, or more than one.
-/

namespace YamlDefs.Settings.Yaml

open YamlDefs.Yaml (Token TagText)

/-- What is kept while a document is read. -/
structure Reading where
  tokens : List Token
  /-- The meanings of tag handles. -/
  handles : List (List Char × TagText)
  /-- The anchored names with the numbers of their anchors, the latest first. -/
  names : List (List Char × Nat)
  /-- The anchored nodes that are complete, by the number of their anchor. -/
  nodes : List (Nat × Datum)
deriving Repr

/-- Steps over tokens that may fail. -/
abbrev Grammar := StateT Reading Option

namespace Grammar

/-- The next token, if there is one. -/
def peek : Grammar (Option Token) := do return (← get).tokens.head?

/-- Goes on behind the next token. -/
def advance : Grammar Unit := modify fun r => { r with tokens := r.tokens.drop 1 }

/-- Whether the next token is the given one, which is then left behind. -/
def accept (token : Token) : Grammar Bool := do
  if (← peek) = some token then
    advance
    return true
  else return false

/-- Whether the next token is one of the given ones. -/
def atOneOf (tokens : List Token) : Grammar Bool := do
  return (← peek).any tokens.contains

/-- A tag with the meaning of its handle. One that is closed by `!` must have a meaning. -/
def resolveTag (handle : List Char) (suffix : TagText) : Grammar (TagText × TagText) := do
  match (← get).handles.lookup handle with
  | some meaning => return (meaning, suffix)
  | none =>
    if handle = ['!', '!'] then return (Datum.coreStart, suffix)
    else if 2 ≤ handle.length && handle.getLast? = some '!' then failure
    else return (handle.flatMap String.utf8EncodeChar, suffix)

/-- Numbers an anchor. -/
def anchor (name : List Char) : Grammar Nat := do
  let r ← get
  let number := r.names.length
  set { r with names := (name, number) :: r.names }
  return number

/-- The anchor and the tag before a node, each at most once and in either order. -/
def properties : Grammar (Option Nat × Option (TagText × TagText)) := do
  match ← peek with
  | some (.anchor name) =>
    advance
    let number ← anchor name
    match ← peek with
    | some (.tag handle suffix) =>
      advance
      return (some number, some (← resolveTag handle suffix))
    | _ => return (some number, none)
  | some (.tag handle suffix) =>
    advance
    let tag ← resolveTag handle suffix
    match ← peek with
    | some (.anchor name) =>
      advance
      return (some (← anchor name), some tag)
    | _ => return (none, some tag)
  | _ => return (none, none)

/-- The node that an alias stands for. -/
def reference (name : List Char) : Grammar Datum := do
  let r ← get
  match r.names.lookup name with
  | some number => return (r.nodes.lookup number).getD .malformed
  | none => failure

/-- The comma before an entry of a flow collection, unless that is the first. -/
def separator (first : Bool) : Grammar Unit :=
  if first then pure () else do unless ← accept .flowEntry do failure

/-- The datum of a mapping; no two of its keys are equal. -/
def mapping (entries : List (Datum × Datum)) : Grammar Datum :=
  match Datum.mapping? entries with
  | some datum => pure datum
  | none => failure

/-- The contexts of a node: inside a flow collection, in a block, and in a block where the items of
a sequence may stand without a column of their own. -/
inductive Context where
  | flow
  | block
  | value
deriving DecidableEq, Repr

mutual

/-- Reads a node with its properties. -/
def node (context : Context) : Nat → Grammar Datum
  | 0 => failure
  | fuel + 1 => do
    if let some (.reference name) := ← peek then
      advance
      return ← reference name
    let (number, tag) ← properties
    let datum ← content context (number.isSome || tag.isSome) tag fuel
    if let some number := number then
      modify fun r => { r with nodes := (number, datum) :: r.nodes }
    return datum

/-- Reads what follows the properties of a node; if there are any, it may be left out, and is then
an empty scalar. -/
def content (context : Context) (described : Bool) (tag : Option (TagText × TagText)) :
    Nat → Grammar Datum
  | 0 => failure
  | fuel + 1 => do
    match ← peek, context with
    | some .blockEntry, .value => return .list (← looseItems fuel)
    | some (.scalar plain text), _ =>
      advance
      return .scalar tag plain text
    | some .flowSequenceStart, _ =>
      advance
      return .list (← flowItems true fuel)
    | some .flowMappingStart, _ =>
      advance
      mapping (← flowEntries true fuel)
    | some .blockSequenceStart, .block | some .blockSequenceStart, .value =>
      advance
      return .list (← blockItems fuel)
    | some .blockMappingStart, .block | some .blockMappingStart, .value =>
      advance
      mapping (← blockEntries fuel)
    | _, _ => if described then return .scalar tag true [] else failure

/-- Reads the items of a block sequence to its end. -/
def blockItems : Nat → Grammar (List Datum)
  | 0 => failure
  | fuel + 1 => do
    if ← accept .blockEnd then return []
    else if ← accept .blockEntry then
      let item ← if ← atOneOf [.blockEntry, .blockEnd] then pure .null else node .block fuel
      return item :: (← blockItems fuel)
    else failure

/-- Reads the items of a sequence that stands at the column of its mapping. -/
def looseItems : Nat → Grammar (List Datum)
  | 0 => failure
  | fuel + 1 => do
    if ← accept .blockEntry then
      let item ←
        if ← atOneOf [.blockEntry, .key, .value, .blockEnd] then pure .null else node .block fuel
      return item :: (← looseItems fuel)
    else return []

/-- Reads the entries of a block mapping to its end. A key may be left out. -/
def blockEntries : Nat → Grammar (List (Datum × Datum))
  | 0 => failure
  | fuel + 1 => do
    if ← accept .blockEnd then return []
    else
      let key ←
        if ← accept .key then blockPart fuel
        else if ← atOneOf [.value] then pure .null
        else failure
      let value ← if ← accept .value then blockPart fuel else pure .null
      return (key, value) :: (← blockEntries fuel)

/-- Reads a key or a value of a block mapping, which may be left out. -/
def blockPart : Nat → Grammar Datum
  | 0 => failure
  | fuel + 1 => do
    if ← atOneOf [.key, .value, .blockEnd] then pure .null else node .value fuel

/-- Reads the items of a flow sequence to its end; a comma stands between each two. -/
def flowItems (first : Bool) : Nat → Grammar (List Datum)
  | 0 => failure
  | fuel + 1 => do
    if ← accept .flowSequenceEnd then return []
    else
      separator first
      if ← accept .flowSequenceEnd then return []
      else
        let item ← if ← accept .key then mapping [← flowPair fuel] else node .flow fuel
        return item :: (← flowItems false fuel)

/-- Reads an item of a flow sequence that is a mapping with one entry. If its key is left out, the
token after it is left behind. -/
def flowPair : Nat → Grammar (Datum × Datum)
  | 0 => failure
  | fuel + 1 => do
    let key ←
      if ← atOneOf [.value, .flowEntry, .flowSequenceEnd] then
        advance
        pure .null
      else node .flow fuel
    if ← accept .value then
      let value ← if ← atOneOf [.flowEntry, .flowSequenceEnd] then pure .null else node .flow fuel
      return (key, value)
    else return (key, .null)

/-- Reads the entries of a flow mapping to its end; a comma stands between each two, and a key, a
value or both may be left out. -/
def flowEntries (first : Bool) : Nat → Grammar (List (Datum × Datum))
  | 0 => failure
  | fuel + 1 => do
    if ← accept .flowMappingEnd then return []
    else
      separator first
      if ← accept .flowMappingEnd then return []
      else
        let marked ← accept .key
        if marked || (← atOneOf [.value]) then
          let key ←
            if ← atOneOf [.value, .flowEntry, .flowMappingEnd] then pure .null else node .flow fuel
          let value ←
            if ← accept .value then
              if ← atOneOf [.flowEntry, .flowMappingEnd] then pure .null else node .flow fuel
            else pure .null
          return (key, value) :: (← flowEntries false fuel)
        else
          let key ← node .flow fuel
          return (key, .null) :: (← flowEntries false fuel)

end

/-- Reads the directives before a document: at most one version, and of the meanings of handles the
one in the last directive. Answers whether there were any. -/
def directives (found versioned : Bool) (handles : List (List Char × TagText)) : List Token →
    Option (Bool × List (List Char × TagText) × List Token)
  | .version _ _ :: rest => if versioned then none else directives true true [] rest
  | .handle name meaning :: rest => directives true versioned [(name, meaning)] rest
  | rest => some (found, handles, rest)

/-- Whether a token begins a document or the directives before one. -/
def beginsDocument : Token → Bool
  | .version _ _ | .handle _ _ | .documentStart => true
  | _ => false

/-- Reads the root of a document and the end marks after it. -/
def root (explicit : Bool) (fuel : Nat) : Grammar Datum := do
  let next ← peek
  let datum ←
    if explicit && next.all (fun t => beginsDocument t || t = .documentEnd) then pure .null
    else node .block fuel
  modify fun r => { r with tokens := r.tokens.dropWhile (· = .documentEnd) }
  if (← peek).isNone then return datum else failure

end Grammar

/-- The datum of the document that tokens form, if there is one. End marks before it do not matter,
and one with directives must begin with its mark. -/
def document? (tokens : List Token) : Option (Option Datum) := do
  let tokens := tokens.dropWhile (· = .documentEnd)
  if tokens.isEmpty then return none
  let (directed, handles, rest) ← Grammar.directives false false [] tokens
  let start := rest.head? = some .documentStart
  if directed && !start then failure
  let body := if start then rest.drop 1 else rest
  let (datum, _) ← (Grammar.root start (4 * body.length + 4)).run ⟨body, handles, [], []⟩
  return some datum

end YamlDefs.Settings.Yaml

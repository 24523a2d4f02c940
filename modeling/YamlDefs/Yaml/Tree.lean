import YamlDefs.Yaml.Token

/-!
# Trees

The grammar of documents over tokens. A tree still has its scalars as text, its tags in full and
its aliases as references.

A reference is a slot: an anchor takes the slot numbered by how many different names were anchored
before it, and a slot belongs to the last anchor that took it. So an alias means the node last
anchored under its name, and a name that is anchored anew shares its new slot with the next name.

* `Tree`: the trees; `Document`: a tree with the nodes that its aliases mean.
* `document?`: the tree of a token list; none if the tokens form no document, or more than one.
-/

namespace YamlDefs.Yaml

/-- A node of a document before its scalars are resolved. -/
inductive Tree where
  /-- A reference to an anchored node. -/
  | reference (slot : Nat)
  | scalar (tag : Option TagText) (plain : Bool) (text : List Char)
  | sequence (tag : Option TagText) (items : List Tree)
  | mapping (tag : Option TagText) (entries : List (Tree × Tree))
deriving Repr

namespace Tree

/-- The tag of a node; an alias has none. -/
def tag : Tree → Option TagText
  | reference _ => none
  | scalar tag _ _ | sequence tag _ | mapping tag _ => tag

end Tree

/-- The node that is written by leaving it out. -/
def Tree.absent : Tree := .scalar none true []

/-- A document: its root, the nodes that its slots mean, and how many events it has, which are two
for a collection and one for any other node. -/
structure Document where
  root : Tree
  anchored : List (Nat × Tree)
  events : Nat
deriving Repr

/-- What is kept while a document is read. -/
structure Builder where
  tokens : List Token
  /-- The meanings of tag handles. -/
  handles : List (List Char × TagText)
  /-- The slot of each anchored name; a name occurs once. -/
  names : List (List Char × Nat)
  /-- For each anchor its slot and its number, the latest first. -/
  slots : List (Nat × Nat)
  /-- The anchored nodes that are complete, by the number of their anchor. -/
  nodes : List (Nat × Tree)
  events : Nat
deriving Repr

/-- Steps over tokens that may fail. -/
abbrev Build := StateT Builder Option

namespace Build

/-- The next token, if there is one. -/
def peek : Build (Option Token) := do return (← get).tokens.head?

/-- Goes on behind the next token. -/
def advance : Build Unit := modify fun b => { b with tokens := b.tokens.drop 1 }

/-- Whether the next token is the given one, which is then left behind. -/
def accept (token : Token) : Build Bool := do
  if (← peek) = some token then
    advance
    return true
  else return false

/-- Whether the next token is one of the given ones. -/
def atOneOf (tokens : List Token) : Build Bool := do
  return (← peek).any tokens.contains

/-- Counts events. -/
def count (events : Nat) : Build Unit := modify fun b => { b with events := b.events + events }

/-- The full text of a tag: the meaning of its handle before its suffix. -/
def resolveTag (handle : List Char) (suffix : TagText) : Build TagText := do
  if handle.isEmpty then return suffix
  else
    match (← get).handles.lookup handle with
    | some meaning => return meaning ++ suffix
    | none => failure

/-- Gives an anchor its slot; answers its number. -/
def anchor (name : List Char) : Build Nat := do
  let b ← get
  let slot := b.names.length
  let number := b.slots.length
  set { b with names := (name, slot) :: b.names.filter (·.1 ≠ name)
               slots := (slot, number) :: b.slots }
  return number

/-- The anchor and the tag before a node, each at most once and in either order. -/
def properties : Build (Option (List Char) × Option TagText) := do
  match ← peek with
  | some (.anchor name) =>
    advance
    match ← peek with
    | some (.tag handle suffix) =>
      advance
      return (some name, some (← resolveTag handle suffix))
    | _ => return (some name, none)
  | some (.tag handle suffix) =>
    advance
    let tag ← resolveTag handle suffix
    match ← peek with
    | some (.anchor name) =>
      advance
      return (some name, some tag)
    | _ => return (none, some tag)
  | _ => return (none, none)

/-- Reads an alias. -/
def reference (name : List Char) : Build Tree := do
  count 1
  match (← get).names.lookup name with
  | some slot => return .reference slot
  | none => failure

/-- The comma before an entry of a flow collection, unless that is the first. -/
def separator (first : Bool) : Build Unit :=
  if first then pure () else do unless ← accept .flowEntry do failure

/-- A node that is left out. -/
def absent : Build Tree := do
  count 1
  return .absent

/-- The contexts of a node: inside a flow collection, in a block, and in a block where the items of
a sequence may stand without a column of their own. -/
inductive Context where
  | flow
  | block
  | value
deriving DecidableEq, Repr

mutual

/-- Reads a node with its properties. -/
def node (context : Context) : Nat → Build Tree
  | 0 => failure
  | fuel + 1 => do
    if let some (.reference name) := ← peek then
      advance
      return ← reference name
    let (name, tag) ← properties
    let number ← name.mapM anchor
    let tree ← content context name tag fuel
    if let some number := number then
      modify fun b => { b with nodes := (number, tree) :: b.nodes }
    return tree

/-- Reads what follows the properties of a node; if there are any, it may be left out. -/
def content (context : Context) (name : Option (List Char)) (tag : Option TagText) :
    Nat → Build Tree
  | 0 => failure
  | fuel + 1 => do
    match ← peek, context with
    | some .blockEntry, .value =>
      count 2
      return .sequence tag (← looseItems fuel)
    | some (.scalar plain text), _ =>
      advance
      count 1
      return .scalar tag plain text
    | some .flowSequenceStart, _ =>
      advance
      count 2
      return .sequence tag (← flowItems true fuel)
    | some .flowMappingStart, _ =>
      advance
      count 2
      return .mapping tag (← flowEntries true fuel)
    | some .blockSequenceStart, .block | some .blockSequenceStart, .value =>
      advance
      count 2
      return .sequence tag (← blockItems fuel)
    | some .blockMappingStart, .block | some .blockMappingStart, .value =>
      advance
      count 2
      return .mapping tag (← blockEntries fuel)
    | _, _ =>
      if name.isSome || tag.isSome then
        count 1
        return .scalar tag true []
      else failure

/-- Reads the items of a block sequence to its end. -/
def blockItems : Nat → Build (List Tree)
  | 0 => failure
  | fuel + 1 => do
    if ← accept .blockEnd then return []
    else if ← accept .blockEntry then
      let item ← if ← atOneOf [.blockEntry, .blockEnd] then absent else node .block fuel
      return item :: (← blockItems fuel)
    else failure

/-- Reads the items of a sequence that stands at the column of its mapping. -/
def looseItems : Nat → Build (List Tree)
  | 0 => failure
  | fuel + 1 => do
    if ← accept .blockEntry then
      let item ←
        if ← atOneOf [.blockEntry, .key, .value, .blockEnd] then absent else node .block fuel
      return item :: (← looseItems fuel)
    else return []

/-- Reads the entries of a block mapping to its end. -/
def blockEntries : Nat → Build (List (Tree × Tree))
  | 0 => failure
  | fuel + 1 => do
    if ← accept .blockEnd then return []
    else if ← accept .key then
      let key ← blockPart fuel
      let value ← if ← accept .value then blockPart fuel else absent
      return (key, value) :: (← blockEntries fuel)
    else failure

/-- Reads a key or a value of a block mapping, which may be left out. -/
def blockPart : Nat → Build Tree
  | 0 => failure
  | fuel + 1 => do
    if ← atOneOf [.key, .value, .blockEnd] then absent else node .value fuel

/-- Reads the items of a flow sequence to its end; a comma stands between each two. -/
def flowItems (first : Bool) : Nat → Build (List Tree)
  | 0 => failure
  | fuel + 1 => do
    if ← accept .flowSequenceEnd then return []
    else
      separator first
      if ← accept .flowSequenceEnd then return []
      else if ← accept .key then
        count 2
        let pair ← flowPair fuel
        return .mapping none [pair] :: (← flowItems false fuel)
      else
        let item ← node .flow fuel
        return item :: (← flowItems false fuel)

/-- Reads an item of a flow sequence that is a mapping with one entry. If its key is left out, the
token after it is left behind. -/
def flowPair : Nat → Build (Tree × Tree)
  | 0 => failure
  | fuel + 1 => do
    let key ←
      if ← atOneOf [.value, .flowEntry, .flowSequenceEnd] then
        advance
        absent
      else node .flow fuel
    if ← accept .value then
      let value ← if ← atOneOf [.flowEntry, .flowSequenceEnd] then absent else node .flow fuel
      return (key, value)
    else return (key, ← absent)

/-- Reads the entries of a flow mapping to its end; a comma stands between each two, and a value or
both parts may be left out. -/
def flowEntries (first : Bool) : Nat → Build (List (Tree × Tree))
  | 0 => failure
  | fuel + 1 => do
    if ← accept .flowMappingEnd then return []
    else
      separator first
      if ← accept .flowMappingEnd then return []
      else if ← accept .key then
        let key ←
          if ← atOneOf [.value, .flowEntry, .flowMappingEnd] then absent else node .flow fuel
        let value ←
          if ← accept .value then
            if ← atOneOf [.flowEntry, .flowMappingEnd] then absent else node .flow fuel
          else absent
        return (key, value) :: (← flowEntries false fuel)
      else
        let key ← node .flow fuel
        let value ← absent
        return (key, value) :: (← flowEntries false fuel)

end

/-- Reads the directives before a document: at most one version, which must be 1.1 or 1.2, and at
most one meaning for each handle. Answers whether there were any. -/
def directives (versioned : Bool) (handles : List (List Char × TagText)) : List Token →
    Option (Bool × List (List Char × TagText) × List Token)
  | .version major minor :: rest =>
    if versioned || major ≠ 1 || (minor ≠ 1 && minor ≠ 2) then none
    else directives true handles rest
  | .handle name meaning :: rest =>
    if (handles.lookup name).isSome then none
    else directives versioned ((name, meaning) :: handles) rest
  | rest => some (versioned || !handles.isEmpty, handles, rest)

/-- The meanings that handles have without a directive. -/
def defaultHandles : List (List Char × TagText) :=
  [(['!'], [0x21]), (['!', '!'], "tag:yaml.org,2002:".toUTF8.data.toList)]

/-- Reads the root of a document and the end marks after it. -/
def root (explicit : Bool) (fuel : Nat) : Build Tree := do
  let tree ←
    if explicit && ((← peek).isNone || (← atOneOf [.documentStart, .documentEnd])) then absent
    else node .block fuel
  modify fun b => { b with tokens := b.tokens.dropWhile (· = .documentEnd) }
  if (← peek).isNone then return tree else failure

end Build

/-- The document that tokens form. No tokens form an empty document, and one with directives must
begin with its mark. -/
def document? (tokens : List Token) : Option Document := do
  let (directed, handles, rest) ← Build.directives false [] tokens
  let start := rest.head? = some .documentStart
  if directed && !start then failure
  if rest.isEmpty then return ⟨.absent, [], 0⟩
  let body := if start then rest.drop 1 else rest
  let builder : Builder :=
    { tokens := body, handles := handles ++ Build.defaultHandles, names := [], slots := [],
      nodes := [], events := 0 }
  let (tree, b) ← (Build.root start (4 * body.length + 4)).run builder
  let meanings := b.slots.filterMap fun (slot, number) => (b.nodes.lookup number).map (slot, ·)
  return ⟨tree, meanings, b.events⟩

end YamlDefs.Yaml

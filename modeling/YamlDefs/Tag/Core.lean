/-!
# Core schema tags

An explicit tag stands in one of three spellings: `!!name`, the verbatim `!<uri>`, and the local
`!name`. The core schema gives a native reading to seven names; each of them can be written
`!!name` or `!<tag:yaml.org,2002:name>`.

* `isCore`: whether a tag is allowed in a source, that is, whether it is local or one of the seven.
-/

namespace YamlDefs.Tag

/-- The names of the core schema. -/
def coreNames : List (List Char) :=
  ["str", "int", "float", "bool", "null", "seq", "map"].map String.toList

/-- What the full name of a core schema tag begins with. -/
def coreAuthority : List Char := "tag:yaml.org,2002:".toList

/-- Whether a full tag name belongs to the core schema. -/
def isCoreUri (uri : List Char) : Bool :=
  coreAuthority.isPrefixOf uri && coreNames.contains (uri.drop coreAuthority.length)

/-- The URI of a verbatim tag, from what follows its `!<`; none if no `>` ends it. -/
def verbatimUri? (cs : List Char) : Option (List Char) :=
  if cs.getLast? = some '>' then some cs.dropLast else none

/-- Whether a tag, as written, resolves to a native value or is local. -/
def isCore : List Char → Bool
  | '!' :: '<' :: cs => (verbatimUri? cs).all isCoreUri
  | '!' :: '!' :: name => coreNames.contains name
  | _ => true

/-- A tag that is not core is written with `!!`, or with `!<` and a final `>`. -/
theorem of_not_isCore {tag : List Char} (h : isCore tag = false) :
    (∃ name, tag = '!' :: '!' :: name) ∨ ∃ uri, tag = '!' :: '<' :: (uri ++ ['>']) := by
  unfold isCore at h
  split at h
  · next cs =>
    unfold verbatimUri? at h
    split at h
    · next hl =>
      have hne : cs ≠ [] := by rintro rfl; simp at hl
      refine .inr ⟨cs.dropLast, ?_⟩
      rw [List.getLast?_eq_some_getLast hne, Option.some.injEq] at hl
      rw [← hl, List.dropLast_concat_getLast]
    · simp at h
  · next name => exact .inl ⟨name, rfl⟩
  · simp at h

end YamlDefs.Tag

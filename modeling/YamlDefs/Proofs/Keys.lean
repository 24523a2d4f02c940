import YamlDefs.Proofs.Acceptance
import YamlDefs.Proofs.NumberText
import YamlDefs.Yaml.Value

/-!
# Keys that become names

A key that is no string is named by its display, and no such display is a name. So a value whose
node is declared has string keys only, and the names that are declared for a mapping are its keys.

* `Value.Within`: a value stands somewhere in another one, be it in a key or under a tag.
* `Value.exists_string_of_isName`: the display of a value is a name only if it is a string.
* `Value.Within.declarable`: whatever stands in a value that can be declared can be declared.
* `namesAt`: the names of nodes at a depth. `namedEntries_infix`: the named nodes of a mapping
  stand together in those of the document.
* `compileNode_toNode_keys`: the keys and the declared names of an accepted document.
-/

namespace YamlDefs

/-! ## Displays that are no names -/

theorem IsName.head {name : String} {c : Char} {cs : List Char} (h : IsName name)
    (hc : name.toList = c :: cs) : c = '_' ∨ 'A' ≤ c ∧ c ≤ 'Z' := by
  obtain ⟨c', cs', h', hstart, -⟩ := h
  cases hc.symm.trans h'
  exact hstart

theorem IsName.ne_space {name : String} {c : Char} (h : IsName name) (hc : c ∈ name.toList) :
    c ≠ ' ' := by
  obtain ⟨c', cs, h', hstart, hall⟩ := h
  rw [h'] at hc
  rintro rfl
  rcases List.mem_cons.mp hc with rfl | hc
  · exact absurd hstart (by decide)
  · exact absurd (hall _ hc) (by decide)

theorem not_start_of_isNumberChar {c : Char} (h : isNumberChar c = true) :
    ¬ (c = '_' ∨ 'A' ≤ c ∧ c ≤ 'Z') := by
  rw [isNumberChar, Bool.or_eq_true, Text.isDigit_iff] at h
  rintro (rfl | ⟨hA, hZ⟩)
  · exact absurd h (by decide)
  · rcases h with ⟨-, h9⟩ | h
    · exact absurd (Char.le_trans hA h9) (by decide)
    · simp only [List.contains_eq_mem, List.mem_cons, List.not_mem_nil, or_false,
        decide_eq_true_eq] at h
      rcases h with rfl | rfl | rfl | rfl | rfl | rfl | rfl <;> revert hA hZ <;> decide

namespace Yaml.Value

/-- The display of a value is a name only if the value is a string. -/
theorem exists_string_of_isName {v : Value} (h : IsName v.text) : ∃ s, v = .string s := by
  cases v with
  | string s => exact ⟨s, rfl⟩
  | null => exact absurd (h.head rfl) (by decide)
  | bool b => cases b <;> exact absurd (h.head rfl) (by decide)
  | number value =>
    obtain ⟨c, cs, hc⟩ := List.exists_cons_of_ne_nil value.toNumber.toList_text_ne_nil
    refine absurd (h.head hc) (not_start_of_isNumberChar ?_)
    exact value.toNumber.isNumberChar_of_mem_text (by simp [hc])
  | sequence items =>
    have hopen : (text (.sequence items)).toList.head? = some '[' := by simp [text, Node.text]
    obtain ⟨cs, hcs⟩ := List.head?_eq_some_iff.mp hopen
    exact absurd (h.head hcs) (by decide)
  | mapping entries =>
    have hopen : (text (.mapping entries)).toList.head? = some '\x7b' := by
      simp [text, Node.text]
    obtain ⟨cs, hcs⟩ := List.head?_eq_some_iff.mp hopen
    exact absurd (h.head hcs) (by decide)
  | tagged tag value =>
    have hspace : ' ' ∈ (text (.tagged tag value)).toList := by
      simp [text, String.toList_append]
    exact absurd rfl (h.ne_space hspace)

end Yaml.Value

open Yaml

variable {limit depth : Nat}

/-! ## Nodes of values -/

/-- What can stand in a sequence can be declared. -/
theorem Storable.declarable {node : Node} (h : Storable limit depth node) :
    Declarable limit depth node := by
  cases node with
  | mapping entries => exact absurd h (not_storable_mapping entries)
  | unsupported text => exact absurd h (not_storable_unsupported text)
  | sequence items => exact declarable_sequence.mpr h
  | number value | string value =>
    exact (declarable_leaf (by simp) (by simp) (by simp)).mpr
      ((storable_leaf (by simp) (by simp) (by simp)).mp h)

/-- The items of a sequence that can be declared can stand in a sequence. -/
theorem Declarable.item {items : List Value}
    (h : Declarable limit depth (Value.sequence items).toNode) {item : Value} (hi : item ∈ items) :
    Storable limit (depth + 1) item.toNode := by
  rw [Value.toNode, declarable_sequence, storable_sequence, Value.itemNodes_eq_map] at h
  exact h.2 _ (List.mem_map_of_mem hi)

/-- The keys of a mapping that can be declared are strings. -/
theorem Declarable.key {entries : List (Value × Value)}
    (h : Declarable limit depth (Value.mapping entries).toNode) {e : Value × Value}
    (he : e ∈ entries) : ∃ s, e.1 = .string s := by
  rw [Value.toNode, declarable_mapping, Value.entryNodes_eq_map] at h
  have hname := (h.2 _ (List.mem_map_of_mem he)).1
  rw [Value.keyText_eq_text] at hname
  exact Value.exists_string_of_isName hname

theorem Declarable.value {entries : List (Value × Value)}
    (h : Declarable limit depth (Value.mapping entries).toNode) {e : Value × Value}
    (he : e ∈ entries) : Declarable limit (depth + 1) e.2.toNode := by
  rw [Value.toNode, declarable_mapping, Value.entryNodes_eq_map] at h
  exact (h.2 _ (List.mem_map_of_mem he)).2

namespace Yaml.Value

/-! ## Values in values -/

/-- A value is another one or stands somewhere in it: in an item, in a key or a value of an entry,
or under a tag. -/
inductive Within (u : Value) : Value → Prop
  | self : Within u u
  | item {items : List Value} {item : Value} (hmem : item ∈ items) (h : Within u item) :
    Within u (.sequence items)
  | key {entries : List (Value × Value)} {e : Value × Value} (hmem : e ∈ entries)
    (h : Within u e.1) : Within u (.mapping entries)
  | value {entries : List (Value × Value)} {e : Value × Value} (hmem : e ∈ entries)
    (h : Within u e.2) : Within u (.mapping entries)
  | tagged {tag : String} {value : Value} (h : Within u value) : Within u (.tagged tag value)

variable {u v : Value}

theorem Within.eq_of_string {s : String} (h : Within u (.string s)) : u = .string s := by
  cases h
  rfl

/-- Whatever stands in a value that can be declared can be declared. -/
theorem Within.declarable (hw : Within u v) (h : Declarable limit depth v.toNode) :
    ∃ depth, Declarable limit depth u.toNode := by
  induction hw generalizing depth with
  | self => exact ⟨depth, h⟩
  | item hmem _ ih => exact ih (h.item hmem).declarable
  | key hmem hw _ =>
    obtain ⟨s, hs⟩ := h.key hmem
    rw [hs] at hw
    rw [hw.eq_of_string]
    exact ⟨depth, (declarable_leaf (by simp [toNode]) (by simp [toNode]) (by simp [toNode])).mpr
      (h.depth 0 _ rfl)⟩
  | value hmem _ ih => exact ih (h.value hmem)
  | tagged => exact absurd h (by rw [toNode]; exact not_declarable_unsupported _)

/-- No mapping stands in a value that can stand in a sequence. -/
theorem Within.not_storable {entries : List (Value × Value)}
    (hw : Within (.mapping entries) v) : ¬ Storable limit depth v.toNode := by
  intro h
  generalize hu : Value.mapping entries = u at hw
  induction hw generalizing depth with
  | self =>
    rw [← hu, toNode] at h
    exact not_storable_mapping _ h
  | item hmem _ ih => exact ih (h.declarable.item hmem)
  | key | value =>
    rw [toNode] at h
    exact not_storable_mapping _ h
  | tagged =>
    rw [toNode] at h
    exact not_storable_unsupported _ h

end Yaml.Value

/-! ## Names that are declared -/

/-- The names of those named nodes that stand at a depth. -/
def namesAt (depth : Nat) (nodes : List Named) : List String :=
  (nodes.filter (·.depth = depth)).map Named.name

theorem namesAt_append (depth : Nat) (xs ys : List Named) :
    namesAt depth (xs ++ ys) = namesAt depth xs ++ namesAt depth ys := by
  simp [namesAt]

/-- The named nodes below a node that stands at a depth. -/
def Node.namedBelow (depth : Nat) : Node → List Named
  | .mapping entries => namedEntries (depth + 1) entries
  | _ => []

theorem Node.named_eq_cons (depth : Nat) (name : String) (node : Node) :
    node.named depth name = ⟨depth, name, node⟩ :: node.namedBelow depth := by
  cases node <;> simp [named, namedBelow]

theorem lt_depth_of_mem_namedBelow {node : Node} {n : Named} (h : n ∈ node.namedBelow depth) :
    depth < n.depth := by
  induction node generalizing depth with
  | mapping entries ih =>
    rw [Node.namedBelow, namedEntries_eq_flatMap] at h
    obtain ⟨e, he, h⟩ := List.mem_flatMap.mp h
    rw [Node.named_eq_cons, List.mem_cons] at h
    rcases h with rfl | h
    · exact Nat.lt_succ_self depth
    · exact Nat.lt_of_succ_lt (ih e he h)
  | sequence _ | number _ | string _ | unsupported _ => simp [Node.namedBelow] at h

/-- The names at the depth of the entries of a mapping are their keys. -/
theorem namesAt_namedEntries (depth : Nat) (entries : List (String × Node)) :
    namesAt depth (namedEntries depth entries) = entries.map Prod.fst := by
  induction entries with
  | nil => rfl
  | cons e rest ih =>
    have hbelow : namesAt depth (e.2.namedBelow depth) = [] := by
      rw [namesAt, List.map_eq_nil_iff, List.filter_eq_nil_iff]
      intro n hn
      have hlt := lt_depth_of_mem_namedBelow hn
      simp
      omega
    rw [namedEntries, namesAt_append, Node.named_eq_cons, ih, ← List.singleton_append,
      namesAt_append, hbelow]
    simp [namesAt]

namespace Yaml.Value

/-- The named nodes of the entries of a mapping stand together in those of the document. -/
theorem Within.namedEntries_infix {entries : List (Value × Value)}
    (hw : Within (.mapping entries) v) (h : Declarable limit depth v.toNode) :
    ∃ d, namedEntries d (entryNodes entries) <:+: v.toNode.namedBelow depth := by
  generalize hu : Value.mapping entries = u at hw
  induction hw generalizing depth with
  | self =>
    rw [← hu, toNode]
    exact ⟨depth + 1, List.infix_rfl⟩
  | item hmem hw _ =>
    rw [← hu] at hw
    exact absurd (h.item hmem) hw.not_storable
  | key hmem hw _ =>
    obtain ⟨s, hs⟩ := h.key hmem
    rw [hs, ← hu] at hw
    cases hw
  | @value es e hmem _ ih =>
    obtain ⟨d, hd⟩ := ih (h.value hmem)
    have hbelow : e.2.toNode.namedBelow (depth + 1) <:+:
        e.2.toNode.named (depth + 1) e.1.keyText := by
      rw [Node.named_eq_cons]
      exact (List.suffix_cons _ _).isInfix
    rw [toNode, Node.namedBelow, namedEntries_eq_flatMap, entryNodes_eq_map es, List.flatMap_map]
    refine ⟨d, hd.trans (hbelow.trans (List.infix_of_mem_flatten ?_))⟩
    exact List.mem_map.mpr ⟨e, hmem, rfl⟩
  | tagged => exact absurd h (by rw [toNode]; exact not_declarable_unsupported _)

/-- The keys of each mapping in a value are pairwise different, as the reading of a document makes
sure. -/
def Distinct (v : Value) : Prop :=
  ∀ entries, Within (.mapping entries) v → entries.Pairwise fun a b => a.1.same b.1 = false

/-- The keys of a mapping that can be declared, as strings. -/
theorem Within.exists_names {entries : List (Value × Value)} (hd : v.Distinct)
    (hw : Within (.mapping entries) v) (h : Declarable limit depth v.toNode) :
    ∃ names : List String, entries.map Prod.fst = names.map .string ∧ names.Nodup ∧
      (entryNodes entries).map Prod.fst = names := by
  obtain ⟨d, hdecl⟩ := hw.declarable h
  have hkeys : entries.map Prod.fst = (entries.map fun e => e.1.keyText).map .string := by
    rw [List.map_map]
    refine List.map_congr_left fun e he => ?_
    obtain ⟨s, hs⟩ := hdecl.key he
    rw [hs]
    simp [hs, keyText]
  refine ⟨entries.map fun e => e.1.keyText, hkeys, ?_, by simp [entryNodes_eq_map]⟩
  have hpair : (entries.map Prod.fst).Pairwise fun a b => a.same b = false :=
    List.pairwise_map.mpr (hd entries hw)
  rw [hkeys, List.pairwise_map] at hpair
  refine hpair.imp fun hne => ?_
  rintro rfl
  simp [same] at hne

/-- If the node of a value with pairwise different keys in each mapping has a text, then neither a
null, a boolean nor a tagged value stands in the value, every key of a mapping in it is a string,
and the names declared for a mapping are its keys in order, pairwise different. The tags may have
any text. -/
theorem compileNode_toNode_keys {text : String} (hd : v.Distinct)
    (h : compileNode limit v.toNode = .ok text) :
    (∀ u, Within u v → u ≠ .null ∧ (∀ b, u ≠ .bool b) ∧ ∀ tag x, u ≠ .tagged tag x) ∧
    ∃ nodes, text = Text.join "\n" (nodes.map Named.text) ∧
      ∀ entries, Within (.mapping entries) v →
        ∃ names : List String, entries.map Prod.fst = names.map .string ∧ names.Nodup ∧
          ∃ d, namedEntries d (entryNodes entries) <:+: nodes ∧
            namesAt d (namedEntries d (entryNodes entries)) = names := by
  obtain ⟨es, hroot, hdecl, htext⟩ := (compileNode_ok_iff limit v.toNode text).mp h
  refine ⟨fun u hu => ?_, _, htext, fun entries hw => ?_⟩
  · obtain ⟨d, hu⟩ := hu.declarable hdecl
    refine ⟨?_, fun b => ?_, fun tag x => ?_⟩ <;>
    · rintro rfl
      rw [toNode] at hu
      exact not_declarable_unsupported _ hu
  · obtain ⟨names, hkeys, hnodup, hnames⟩ := hw.exists_names hd hdecl
    obtain ⟨d, hinfix⟩ := hw.namedEntries_infix hdecl
    rw [hroot] at hinfix
    exact ⟨names, hkeys, hnodup, d, hinfix, (namesAt_namedEntries d _).trans hnames⟩

theorem distinct_string (s : String) : (string s).Distinct := by
  intro entries hw
  cases hw

theorem distinct_sequence {items : List Value} (h : ∀ item ∈ items, item.Distinct) :
    (sequence items).Distinct := by
  intro entries hw
  cases hw with
  | item hmem hw => exact h _ hmem entries hw

theorem distinct_mapping {entries : List (Value × Value)}
    (hpair : entries.Pairwise fun a b => a.1.same b.1 = false)
    (h : ∀ e ∈ entries, e.1.Distinct ∧ e.2.Distinct) : (mapping entries).Distinct := by
  intro es hw
  cases hw with
  | self => exact hpair
  | key hmem hw => exact (h _ hmem).1 es hw
  | value hmem hw => exact (h _ hmem).2 es hw

/-- The names of a nested mapping, with strings that look like other values beside them. -/
theorem compileNode_toNode_keys_nested :
    let inner := [(string "Port", string "80"), (string "On", sequence [string "true"])]
    let v := mapping [(string "Net", mapping inner), (string "_x", string "null")]
    let text := Text.join "\n" ["%\x7b\nЭто структура Net\n%\x7d", "def Port := \"80\"",
      "def On := [ \"true\" ]", "def _x := \"null\""]
    v.Distinct ∧ compileNode 3 v.toNode = .ok text ∧
      (∀ u, Within u v → u ≠ .null ∧ (∀ b, u ≠ .bool b) ∧ ∀ tag x, u ≠ .tagged tag x) ∧
      ∃ nodes, text = Text.join "\n" (nodes.map Named.text) ∧
        ∃ d, namedEntries d (entryNodes inner) <:+: nodes ∧
          namesAt d (namedEntries d (entryNodes inner)) = ["Port", "On"] := by
  intro inner v text
  have hd : v.Distinct := by
    refine distinct_mapping (by decide) ?_
    simp [inner, distinct_string, distinct_mapping, distinct_sequence, same]
  have hok : compileNode 3 v.toNode = .ok text := rfl
  obtain ⟨hforms, nodes, htext, hnames⟩ := compileNode_toNode_keys hd hok
  refine ⟨hd, hok, hforms, nodes, htext, ?_⟩
  obtain ⟨names, hkeys, -, d, hinfix, hat⟩ := hnames inner (.value (List.mem_cons_self ..) .self)
  refine ⟨d, hinfix, hat.trans ?_⟩
  have hmap : names.map string = ["Port", "On"].map string := hkeys.symm
  exact (List.map_inj_right fun _ _ h => string.inj h).mp hmap

end Yaml.Value

end YamlDefs

import YamlDefs.Proofs.FirstFault
import YamlDefs.Text.Ascii

/-!
# Accepted documents and their text

Which trees are declared under a limit, said without the checks that decide it, and the text that
an accepted tree comes to.

* `IsName`: the grammar of names, character by character.
* `Storable`: nothing at or below an item of a sequence is a mapping or unsupported, or beyond the
  limit. `firstFault?_valueChecks_eq_none_iff`: the checks of a value decide that.
* `Declarable`: a node stands under a key, with all that is below it, as declarations can say it.
  `named_passed_iff`: the checks of a named node and those below it decide that.
* `Named.text`: the block of a mapping, and the line of any other value.
* `compileNode_ok_iff`: a document has a text iff its root is a mapping that is declarable, and
  the text has one unit for each named node, in document order.
-/

namespace YamlDefs

variable {limit depth : Nat}

/-! ## Names -/

/-- A name: an underscore or a capital letter, then underscores, letters and digits. -/
def IsName (name : String) : Prop :=
  ∃ c cs, name.toList = c :: cs ∧ (c = '_' ∨ 'A' ≤ c ∧ c ≤ 'Z') ∧
    ∀ d ∈ cs, d = '_' ∨ 'A' ≤ d ∧ d ≤ 'Z' ∨ 'a' ≤ d ∧ d ≤ 'z' ∨ '0' ≤ d ∧ d ≤ '9'

theorem isNameStart_iff {c : Char} : isNameStart c = true ↔ c = '_' ∨ 'A' ≤ c ∧ c ≤ 'Z' := by
  rw [isNameStart, Bool.or_eq_true, decide_eq_true_iff, Text.isUpper_iff]

theorem isNameChar_iff {c : Char} : isNameChar c = true ↔
    c = '_' ∨ 'A' ≤ c ∧ c ≤ 'Z' ∨ 'a' ≤ c ∧ c ≤ 'z' ∨ '0' ≤ c ∧ c ≤ '9' := by
  rw [isNameChar, Bool.or_eq_true, decide_eq_true_iff, Text.isAlphanum_iff]

theorem isIdentifier_iff {name : String} : isIdentifier name.toList = true ↔ IsName name := by
  unfold isIdentifier IsName
  split
  · next h => simp [h]
  · next c cs h =>
    simp only [Bool.and_eq_true, List.all_eq_true, isNameStart_iff, isNameChar_iff]
    constructor
    · rintro ⟨hc, hcs⟩
      exact ⟨c, cs, h, hc, hcs⟩
    · rintro ⟨c', cs', h', hc, hcs⟩
      rw [h] at h'
      cases h'
      exact ⟨hc, hcs⟩

theorem fault?_name_eq_none_iff {name : String} :
    (Check.name name).fault? limit = none ↔ IsName name := by
  rw [← isIdentifier_iff]
  simp [Check.fault?]

theorem fault?_depth_eq_none_iff : (Check.depth depth).fault? limit = none ↔ depth ≤ limit := by
  simp [Check.fault?]

/-! ## Values -/

/-- A node at a depth can stand in a sequence: it and what is below it are numbers, strings and
sequences within the limit. -/
def Storable (limit depth : Nat) (node : Node) : Prop :=
  ∀ n b, Steps Child n node b →
    depth + n ≤ limit ∧ (∀ entries, b ≠ .mapping entries) ∧ ∀ text, b ≠ .unsupported text

theorem not_storable_mapping (entries : List (String × Node)) :
    ¬ Storable limit depth (.mapping entries) := fun h => (h 0 _ rfl).2.1 entries rfl

theorem not_storable_unsupported (text : String) :
    ¬ Storable limit depth (.unsupported text) := fun h => (h 0 _ rfl).2.2 text rfl

theorem storable_leaf {a : Node} (hm : ∀ entries, a ≠ .mapping entries)
    (hs : ∀ items, a ≠ .sequence items) (hu : ∀ text, a ≠ .unsupported text) :
    Storable limit depth a ↔ depth ≤ limit := by
  constructor
  · exact fun h => (h 0 _ rfl).1
  · rintro h n b hb
    obtain ⟨rfl, rfl⟩ := (steps_leaf hm hs).mp hb
    exact ⟨h, hm, hu⟩

theorem storable_sequence {items : List Node} :
    Storable limit depth (.sequence items) ↔
      depth ≤ limit ∧ ∀ item ∈ items, Storable limit (depth + 1) item := by
  constructor
  · refine fun h => ⟨(h 0 _ rfl).1, fun item hi n b hb => ?_⟩
    obtain ⟨hd, hs⟩ := h (n + 1) b (steps_succ_sequence.mpr ⟨item, hi, hb⟩)
    exact ⟨by omega, hs⟩
  · rintro ⟨hd, hi⟩ n b hb
    cases n with
    | zero =>
      cases hb
      exact ⟨hd, by simp⟩
    | succ n =>
      obtain ⟨item, hmem, hb⟩ := steps_succ_sequence.mp hb
      obtain ⟨hd, hs⟩ := hi item hmem n b hb
      exact ⟨by omega, hs⟩

theorem firstFault?_cons_eq_none_iff {check : Check} {rest : List Check} :
    firstFault? limit (check :: rest) = none ↔
      check.fault? limit = none ∧ firstFault? limit rest = none := by
  rw [firstFault?_cons, Option.or_eq_none_iff]

theorem firstFault?_itemChecks_eq_none_iff {items : List Node} :
    firstFault? limit (itemChecks depth items) = none ↔
      ∀ item ∈ items, firstFault? limit (valueChecks depth item) = none := by
  simp only [itemChecks_eq_flatMap, firstFault?_eq_none_iff, List.mem_flatMap]
  constructor
  · exact fun h item hi c hc => h c ⟨item, hi, hc⟩
  · rintro h c ⟨item, hi, hc⟩
    exact h item hi c hc

/-- A value passes its checks iff it can stand in a sequence at its depth. -/
theorem firstFault?_valueChecks_eq_none_iff {value : Node} :
    firstFault? limit (valueChecks depth value) = none ↔ Storable limit depth value := by
  induction value generalizing depth with
  | mapping entries =>
    refine iff_of_false ?_ (not_storable_mapping entries)
    simp [valueChecks, Check.fault?]
  | unsupported text =>
    refine iff_of_false ?_ (not_storable_unsupported text)
    simp [valueChecks, Check.fault?]
  | number _ | string _ =>
    rw [storable_leaf (by simp) (by simp) (by simp), ← fault?_depth_eq_none_iff]
    simp [valueChecks, Check.fault?]
  | sequence items ih =>
    rw [valueChecks, firstFault?_cons_eq_none_iff, firstFault?_cons_eq_none_iff,
      fault?_depth_eq_none_iff, firstFault?_itemChecks_eq_none_iff, storable_sequence]
    constructor
    · rintro ⟨hd, -, hi⟩
      exact ⟨hd, fun item h => (ih item h).mp (hi item h)⟩
    · rintro ⟨hd, hi⟩
      exact ⟨hd, rfl, fun item h => (ih item h).mpr (hi item h)⟩

/-! ## Named nodes -/

/-- A node at a depth can be declared under a key with all that is below it. -/
structure Declarable (limit depth : Nat) (node : Node) : Prop where
  /-- The keys of every mapping that mappings alone lead to are names. -/
  names : ∀ n entries, Steps Entry n node (.mapping entries) → ∀ e ∈ entries, IsName e.1
  /-- Nothing is unsupported. -/
  supported : ∀ n text, ¬ Steps Child n node (.unsupported text)
  /-- No mapping stands below a sequence. -/
  flat : ∀ n k items entries, Steps Child n node (.sequence items) →
    ¬ Steps Child (k + 1) (.sequence items) (.mapping entries)
  /-- Every node is within the limit. -/
  depth : ∀ n b, Steps Child n node b → depth + n ≤ limit

/-- Without mappings on the way no mapping is reached by entries but the node itself. -/
theorem steps_entry_of_not_mapping {n : Nat} {a b : Node} (hm : ∀ entries, a ≠ .mapping entries)
    (h : Steps Entry n a b) : a = b := by
  cases n with
  | zero => exact h
  | succ n =>
    obtain ⟨c, ⟨entries, key, rfl, -⟩, -⟩ := h
    exact absurd rfl (hm entries)

theorem declarable_leaf {a : Node} (hm : ∀ entries, a ≠ .mapping entries)
    (hs : ∀ items, a ≠ .sequence items) (hu : ∀ text, a ≠ .unsupported text) :
    Declarable limit depth a ↔ depth ≤ limit := by
  constructor
  · exact fun h => h.depth 0 _ rfl
  · refine fun h => ⟨fun n entries hn => ?_, fun n text hn => ?_, fun n k items entries hn => ?_,
      fun n b hn => ?_⟩
    · exact absurd (steps_entry_of_not_mapping hm hn) (hm entries)
    · exact absurd ((steps_leaf hm hs).mp hn).2 (hu text)
    · exact absurd ((steps_leaf hm hs).mp hn).2 (hs items)
    · obtain ⟨rfl, -⟩ := (steps_leaf hm hs).mp hn
      exact h

/-- What can be declared and is no mapping can stand in a sequence. -/
theorem Declarable.storable {node : Node} (h : Declarable limit depth node)
    (hm : ∀ entries, node ≠ .mapping entries) : Storable limit depth node := by
  refine fun n b hb => ⟨h.depth n b hb, ?_, ?_⟩
  · rintro entries rfl
    cases n with
    | zero => exact hm entries hb
    | succ n =>
      obtain ⟨c, ⟨es, key, rfl, -⟩ | ⟨items, rfl, hc⟩, hn⟩ := hb
      · exact hm es rfl
      · exact h.flat 0 n items entries rfl ⟨c, .inr ⟨items, rfl, hc⟩, hn⟩
  · rintro text rfl
    exact h.supported n text hb

/-- A sequence can be declared iff it can stand in another one. -/
theorem declarable_sequence {items : List Node} :
    Declarable limit depth (.sequence items) ↔ Storable limit depth (.sequence items) := by
  constructor
  · exact fun h => h.storable (by simp)
  · refine fun h => ⟨fun n entries hn => ?_, fun n text hn => (h n _ hn).2.2 text rfl, ?_,
      fun n b hn => (h n b hn).1⟩
    · exact absurd (steps_entry_of_not_mapping (by simp) hn) (by simp)
    · intro n k inner entries hn hk
      exact (h _ _ (hn.trans hk)).2.1 entries rfl

theorem not_declarable_unsupported (text : String) :
    ¬ Declarable limit depth (.unsupported text) := fun h => h.supported 0 text rfl

/-- A mapping can be declared iff it is within the limit, and each entry has a name and a value
that can be declared one level deeper. -/
theorem declarable_mapping {entries : List (String × Node)} :
    Declarable limit depth (.mapping entries) ↔
      depth ≤ limit ∧ ∀ e ∈ entries, IsName e.1 ∧ Declarable limit (depth + 1) e.2 := by
  constructor
  · intro h
    refine ⟨h.depth 0 _ rfl, fun e he => ⟨h.names 0 entries rfl e he, ?_⟩⟩
    have down {n : Nat} {b : Node} (hb : Steps Child n e.2 b) :
        Steps Child (n + 1) (.mapping entries) b := steps_succ_mapping.mpr ⟨e, he, hb⟩
    refine ⟨fun n es hn => ?_, fun n text hn => h.supported _ text (down hn),
      fun n k items es hn => h.flat _ k items es (down hn), fun n b hn => ?_⟩
    · exact h.names (n + 1) es ⟨e.2, ⟨entries, e.1, rfl, he⟩, hn⟩
    · have := h.depth _ b (down hn)
      omega
  · rintro ⟨hd, he⟩
    refine ⟨fun n es hn => ?_, fun n text hn => ?_, fun n k items es hn => ?_, fun n b hn => ?_⟩
    · cases n with
      | zero =>
        cases hn
        exact fun e hmem => (he e hmem).1
      | succ n =>
        obtain ⟨_, ⟨_, key, hes, hmem⟩, hn⟩ := hn
        cases hes
        exact (he _ hmem).2.names n es hn
    · cases n with
      | zero => cases hn
      | succ n =>
        obtain ⟨e, hmem, hn⟩ := steps_succ_mapping.mp hn
        exact (he e hmem).2.supported n text hn
    · cases n with
      | zero => cases hn
      | succ n =>
        obtain ⟨e, hmem, hn⟩ := steps_succ_mapping.mp hn
        exact (he e hmem).2.flat n k items es hn
    · cases n with
      | zero => exact hd
      | succ n =>
        obtain ⟨e, hmem, hn⟩ := steps_succ_mapping.mp hn
        have := (he e hmem).2.depth n b hn
        omega

theorem fault?_eq_none_iff {n : Named} :
    n.fault? limit = none ↔
      IsName n.name ∧ n.depth ≤ limit ∧ firstFault? limit n.formChecks = none := by
  rw [Named.fault?, Named.checks, firstFault?_cons_eq_none_iff, firstFault?_cons_eq_none_iff,
    fault?_name_eq_none_iff, fault?_depth_eq_none_iff]

theorem namedEntries_passed_iff {entries : List (String × Node)} :
    (∀ m ∈ namedEntries depth entries, m.fault? limit = none) ↔
      ∀ e ∈ entries, ∀ m ∈ e.2.named depth e.1, m.fault? limit = none := by
  simp only [namedEntries_eq_flatMap, List.mem_flatMap]
  constructor
  · exact fun h e he m hm => h m ⟨e, he, hm⟩
  · rintro h m ⟨e, he, hm⟩
    exact h e he m hm

/-- A named node and all named nodes below it pass their checks iff its key is a name and it can be
declared. -/
theorem named_passed_iff {name : String} {node : Node} :
    (∀ m ∈ node.named depth name, m.fault? limit = none) ↔
      IsName name ∧ Declarable limit depth node := by
  induction node generalizing depth name with
  | mapping entries ih =>
    rw [Node.named, List.forall_mem_cons, fault?_eq_none_iff, namedEntries_passed_iff,
      declarable_mapping]
    constructor
    · rintro ⟨⟨hn, hd, -⟩, he⟩
      exact ⟨hn, hd, fun e h => (ih e h).mp (he e h)⟩
    · rintro ⟨hn, hd, he⟩
      exact ⟨⟨hn, hd, rfl⟩, fun e h => (ih e h).mpr (he e h)⟩
  | sequence items =>
    rw [Node.named, List.forall_mem_singleton, fault?_eq_none_iff, declarable_sequence,
      storable_sequence]
    · simp only [Named.formChecks, firstFault?_itemChecks_eq_none_iff,
        firstFault?_valueChecks_eq_none_iff]
    · simp
  | number _ | string _ =>
    rw [Node.named, List.forall_mem_singleton, fault?_eq_none_iff,
      declarable_leaf (by simp) (by simp) (by simp)]
    · simp [Named.formChecks]
    all_goals simp
  | unsupported text =>
    rw [Node.named, List.forall_mem_singleton, fault?_eq_none_iff]
    · refine iff_of_false ?_ fun h => not_declarable_unsupported text h.2
      simp [Named.formChecks, Check.fault?]
    all_goals simp

/-! ## Documents -/

/-- How a named node is written: a mapping as a block of three lines, and any other value as the
line that defines it. -/
def Named.text (n : Named) : String :=
  match n.node with
  | .mapping _ => "%\x7b\nЭто структура " ++ n.name ++ "\n%\x7d"
  | value => "def " ++ n.name ++ " := " ++ value.literal

theorem Named.text_unit (n : Named) : n.unit.text = n.text := by
  obtain ⟨depth, name, node⟩ := n
  cases node <;> rfl

theorem text_append_empty (nodes : List Named) :
    (Output.empty.append (nodes.map Named.unit)).text =
      Text.join "\n" (nodes.map Named.text) := by
  have hunits : Declaration.text ∘ Named.unit = Named.text := funext Named.text_unit
  rw [Output.text, Output.toList_units_append, Output.toList_units_empty, List.nil_append,
    List.map_map, hunits]

theorem compileNode_mapping_ok_iff {entries : List (String × Node)} {text : String} :
    compileNode limit (.mapping entries) = .ok text ↔
      Declarable limit 0 (.mapping entries) ∧
      text = Text.join "\n" ((namedEntries 1 entries).map Named.text) := by
  have hpassed : Declarable limit 0 (.mapping entries) ↔
      ∀ m ∈ namedEntries 1 entries, m.fault? limit = none := by
    rw [declarable_mapping, namedEntries_passed_iff]
    simp only [named_passed_iff, Nat.zero_le, true_and, Nat.zero_add]
  rw [compileNode_mapping, hpassed]
  constructor
  · intro h
    split at h
    · next after hw =>
      obtain ⟨hp, rfl⟩ := walk_ok_iff.mp hw
      cases h
      exact ⟨hp, text_append_empty _⟩
    · cases h
  · rintro ⟨hp, rfl⟩
    rw [walk_of_passed hp]
    exact congrArg _ (text_append_empty _)

theorem exists_entries_of_compileNode {root : Node} {text : String}
    (h : compileNode limit root = .ok text) : ∃ entries, root = .mapping entries := by
  by_cases hroot : ∃ entries, root = .mapping entries
  · exact hroot
  · rw [compileNode_of_not_mapping fun entries he => hroot ⟨entries, he⟩] at h
    cases h

/-- A document has a text iff its root is a mapping that can be declared from depth zero on. The
text has one unit for each named node, in document order, with a line feed between each two. -/
theorem compileNode_ok_iff (limit : Nat) (root : Node) (text : String) :
    compileNode limit root = .ok text ↔ ∃ entries, root = .mapping entries ∧
      Declarable limit 0 root ∧
      text = Text.join "\n" ((namedEntries 1 entries).map Named.text) := by
  constructor
  · intro h
    obtain ⟨entries, rfl⟩ := exists_entries_of_compileNode h
    exact ⟨entries, rfl, compileNode_mapping_ok_iff.mp h⟩
  · rintro ⟨entries, rfl, h⟩
    exact compileNode_mapping_ok_iff.mpr h

end YamlDefs

import YamlDefs.Node

/-!
# Induction over nodes, and the nodes below a node

A node holds lists of nodes, so the recursor that comes with the type has a motive for each kind
of list. `Node.ind` has one motive, and its hypotheses speak of the members of the lists.

* `Entry`, `Item`, `Child`: a node stands directly below another one, as the value of an entry of
  a mapping, as an item of a sequence, or as either.
* `Steps`: a node stands a number of steps below another one, each step in the same relation.
-/

namespace YamlDefs

@[elab_as_elim, induction_eliminator]
theorem Node.ind {motive : Node → Prop}
    (mapping : ∀ entries, (∀ e ∈ entries, motive e.2) → motive (.mapping entries))
    (sequence : ∀ items, (∀ item ∈ items, motive item) → motive (.sequence items))
    (number : ∀ value, motive (.number value)) (string : ∀ value, motive (.string value))
    (unsupported : ∀ text, motive (.unsupported text)) (node : Node) : motive node :=
  @Node.rec motive (fun entries => ∀ e ∈ entries, motive e.2)
    (fun items => ∀ item ∈ items, motive item) (fun e => motive e.2)
    mapping sequence number string unsupported
    (fun _ h => nomatch h) (fun _ _ head tail => List.forall_mem_cons.mpr ⟨head, tail⟩)
    (fun _ h => nomatch h) (fun _ _ head tail => List.forall_mem_cons.mpr ⟨head, tail⟩)
    (fun _ _ h => h) node

/-- A node is the value of an entry of a mapping. -/
def Entry (a b : Node) : Prop := ∃ entries key, a = .mapping entries ∧ (key, b) ∈ entries

/-- A node is an item of a sequence. -/
def Item (a b : Node) : Prop := ∃ items, a = .sequence items ∧ b ∈ items

/-- A node stands directly below another one. -/
def Child (a b : Node) : Prop := Entry a b ∨ Item a b

/-- A number of steps of one relation lead from a node to another. -/
def Steps (r : Node → Node → Prop) : Nat → Node → Node → Prop
  | 0, a, b => a = b
  | n + 1, a, b => ∃ c, r a c ∧ Steps r n c b

variable {r : Node → Node → Prop} {m n : Nat} {a b c : Node}

theorem Steps.trans (h : Steps r m a b) (h' : Steps r n b c) : Steps r (m + n) a c := by
  induction m generalizing a with
  | zero =>
    cases h
    rwa [Nat.zero_add]
  | succ m ih =>
    obtain ⟨d, hd, hb⟩ := h
    rw [Nat.succ_add]
    exact ⟨d, hd, ih hb⟩

theorem child_mapping {entries : List (String × Node)} :
    Child (.mapping entries) b ↔ ∃ e ∈ entries, e.2 = b := by
  constructor
  · rintro (⟨es, key, he, hb⟩ | ⟨items, he, -⟩) <;> cases he
    exact ⟨(key, b), hb, rfl⟩
  · rintro ⟨⟨key, _⟩, he, rfl⟩
    exact .inl ⟨entries, key, rfl, he⟩

theorem child_sequence {items : List Node} : Child (.sequence items) b ↔ b ∈ items := by
  constructor
  · rintro (⟨es, key, he, -⟩ | ⟨is, he, hb⟩) <;> cases he
    exact hb
  · exact fun hb => .inr ⟨items, rfl, hb⟩

/-- Numbers, strings and unsupported values have nothing below them. -/
theorem not_child_of_leaf (hm : ∀ entries, a ≠ .mapping entries)
    (hs : ∀ items, a ≠ .sequence items) : ¬ Child a b := by
  rintro (⟨es, key, he, -⟩ | ⟨is, he, -⟩)
  · exact hm _ he
  · exact hs _ he

theorem steps_leaf (hm : ∀ entries, a ≠ .mapping entries)
    (hs : ∀ items, a ≠ .sequence items) : Steps Child n a b ↔ n = 0 ∧ a = b := by
  cases n with
  | zero => simp [Steps]
  | succ n =>
    refine iff_of_false ?_ (by simp)
    rintro ⟨c, hc, -⟩
    exact not_child_of_leaf hm hs hc

theorem steps_succ_mapping {entries : List (String × Node)} :
    Steps Child (n + 1) (.mapping entries) b ↔ ∃ e ∈ entries, Steps Child n e.2 b := by
  simp only [Steps, child_mapping]
  constructor
  · rintro ⟨_, ⟨e, he, rfl⟩, hb⟩; exact ⟨e, he, hb⟩
  · rintro ⟨e, he, hb⟩; exact ⟨_, ⟨e, he, rfl⟩, hb⟩

theorem steps_succ_sequence {items : List Node} :
    Steps Child (n + 1) (.sequence items) b ↔ ∃ item ∈ items, Steps Child n item b := by
  simp only [Steps, child_sequence]

end YamlDefs

import YamlDefs.Proofs.Walk

/-!
# The first fault

The checks of a walk stand in one list: those of each named node, in document order. The first
of them that fails decides the rejection and how much stays written.

* `FirstFault`: a check in that list fails, all checks before it pass, and the named nodes whose
  checks all stand before it are given.
* `rejected_iff_firstFault`: a named node, and likewise a document, is rejected for its first fault;
  what stays written are the units of those named nodes.
-/

namespace YamlDefs

variable {limit : Nat} {checks : List Check} {cause : Rejection}

/-- The first check that fails among those of named nodes comes to a rejection. The named nodes
`before` are those whose checks all stand before it; of the checks of its own node, it comes after
those that have `passed`. -/
def FirstFault (limit : Nat) (nodes before : List Named) (cause : Rejection) : Prop :=
  ∃ n rest passed check left, nodes = before ++ n :: rest ∧ n.checks = passed ++ check :: left ∧
    (∀ c ∈ before.flatMap Named.checks ++ passed, c.fault? limit = none) ∧
    check.fault? limit = some cause

theorem firstFault?_eq_none_iff :
    firstFault? limit checks = none ↔ ∀ c ∈ checks, c.fault? limit = none :=
  List.findSome?_eq_none_iff

theorem firstFault?_eq_some_iff :
    firstFault? limit checks = some cause ↔ ∃ passed check left, checks = passed ++ check :: left ∧
      check.fault? limit = some cause ∧ ∀ c ∈ passed, c.fault? limit = none :=
  List.findSome?_eq_some_iff

/-- The first fault by named nodes: the first of them that has one. -/
theorem firstFault_iff {nodes before : List Named} :
    FirstFault limit nodes before cause ↔ ∃ n rest, nodes = before ++ n :: rest ∧
      (∀ m ∈ before, m.fault? limit = none) ∧ n.fault? limit = some cause := by
  constructor
  · rintro ⟨n, rest, passed, check, left, hnodes, hn, hpassed, hcheck⟩
    refine ⟨n, rest, hnodes, fun m hm => ?_, ?_⟩
    · refine firstFault?_eq_none_iff.mpr fun c hc => hpassed c (List.mem_append_left _ ?_)
      exact List.mem_flatMap_of_mem hm hc
    · refine firstFault?_eq_some_iff.mpr ⟨passed, check, left, hn, hcheck, fun c hc => ?_⟩
      exact hpassed c (List.mem_append_right _ hc)
  · rintro ⟨n, rest, hnodes, hbefore, hn⟩
    obtain ⟨passed, check, left, hchecks, hcheck, hpassed⟩ := firstFault?_eq_some_iff.mp hn
    refine ⟨n, rest, passed, check, left, hnodes, hchecks, fun c hc => ?_, hcheck⟩
    rcases List.mem_append.mp hc with hc | hc
    · obtain ⟨m, hm, hcm⟩ := List.mem_flatMap.mp hc
      exact firstFault?_eq_none_iff.mp (hbefore m hm) c hcm
    · exact hpassed c hc

/-- A walk is rejected for its first fault, and leaves the units of the named nodes before it. -/
theorem walk_error_iff_firstFault {nodes : List Named} {out after : Output} :
    walk limit nodes out = .error cause after ↔
      ∃ before, FirstFault limit nodes before cause ∧
        after = out.append (before.map Named.unit) := by
  rw [walk_error_iff]
  constructor
  · rintro ⟨before, n, rest, hnodes, hb, hn, rfl⟩
    exact ⟨before, firstFault_iff.mpr ⟨n, rest, hnodes, hb, hn⟩, rfl⟩
  · rintro ⟨before, hf, rfl⟩
    obtain ⟨n, rest, hnodes, hb, hn⟩ := firstFault_iff.mp hf
    exact ⟨before, n, rest, hnodes, hb, hn, rfl⟩

theorem compileNode_mapping_error_iff {entries : List (String × Node)} :
    compileNode limit (.mapping entries) = .error cause ↔
      ∃ before, FirstFault limit (namedEntries 1 entries) before cause := by
  rw [compileNode_mapping]
  constructor
  · intro h
    split at h
    · cases h
    · next after hw =>
      cases h
      obtain ⟨before, hf, -⟩ := walk_error_iff_firstFault.mp hw
      exact ⟨before, hf⟩
  · rintro ⟨before, hf⟩
    rw [walk_error_iff_firstFault.mpr ⟨before, hf, rfl⟩]

/-- A named node at a depth is rejected for the first fault in document order, and what stays
written after the output it began with are the units of the named nodes whose checks all stand
before that fault. A document is rejected if its root is no mapping, and else for the first fault
among its entries. -/
theorem rejected_iff_firstFault (limit depth : Nat) (name : String) (node root : Node)
    (out after : Output) (cause : Rejection) :
    (declareNode limit depth name node out = .error cause after ↔
      ∃ before, FirstFault limit (node.named depth name) before cause ∧
        after = out.append (before.map Named.unit)) ∧
    (compileNode limit root = .error cause ↔
      ((∀ entries, root ≠ .mapping entries) ∧ cause = .rootNotMapping) ∨
      ∃ entries before, root = .mapping entries ∧
        FirstFault limit (namedEntries 1 entries) before cause) := by
  refine ⟨by rw [declareNode_eq_walk]; exact walk_error_iff_firstFault, ?_⟩
  by_cases hroot : ∃ entries, root = .mapping entries
  · obtain ⟨entries, rfl⟩ := hroot
    rw [compileNode_mapping_error_iff]
    constructor
    · rintro ⟨before, hf⟩
      exact .inr ⟨entries, before, rfl, hf⟩
    · rintro (⟨hne, -⟩ | ⟨_, before, he, hf⟩)
      · exact absurd rfl (hne entries)
      · cases he
        exact ⟨before, hf⟩
  · have hne : ∀ entries, root ≠ .mapping entries := fun entries he => hroot ⟨entries, he⟩
    rw [compileNode_of_not_mapping hne]
    constructor
    · intro h
      cases h
      exact .inl ⟨hne, rfl⟩
    · rintro (⟨-, rfl⟩ | ⟨entries, _, he, -⟩)
      · rfl
      · exact absurd he (hne entries)

end YamlDefs

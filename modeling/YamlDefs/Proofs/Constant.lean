import YamlDefs.Proofs.Session

/-!
# Nodes that become constants

A node that is no mapping becomes a constant, whether it is declared as a node or as a constant at
once. The first way checks name and depth before it comes to the second, and refuses an unsupported
value itself; the second checks the value as a whole. None of this shows.

* `declareConstant_eq_ok_iff`, `declareConstant_eq_error_iff`: what a constant comes to, by the
  checks of its name and its value.
* `declareNode_eq_visit_of_not_mapping`, `declareConstant_eq_visit_of_not_mapping`: both ways are
  visiting the named node.
* `declareNode_eq_declareConstant`: so they are the same.
-/

namespace YamlDefs

open Writing

variable {limit depth : Nat} {name : String} {value node : Node} {out after : Output}
  {cause : Rejection}

/-! ## What a constant comes to -/

theorem declareConstant_eq_ok_iff :
    declareConstant limit depth name value out = .ok () after ↔
      checkName name = .ok () ∧ checkValue limit depth value = .ok () ∧
        after = out.push (.constant name value) := by
  simp only [declareConstant, bind, EStateM.bind, require, push]
  cases checkName name with
  | error cause => simp
  | ok _ => cases checkValue limit depth value <;> simp [eq_comm]

theorem declareConstant_eq_error_iff :
    declareConstant limit depth name value out = .error cause after ↔
      (checkName name = .error cause ∨
        checkName name = .ok () ∧ checkValue limit depth value = .error cause) ∧ after = out := by
  simp only [declareConstant, bind, EStateM.bind, require, push]
  cases checkName name with
  | error cause => simp [eq_comm]
  | ok _ => cases checkValue limit depth value <;> simp [eq_comm]

/-! ## Both ways -/

theorem Node.named_of_not_mapping (depth : Nat) (name : String)
    (hm : ∀ entries, node ≠ .mapping entries) : node.named depth name = [⟨depth, name, node⟩] := by
  cases node with
  | mapping entries => exact absurd rfl (hm entries)
  | _ => rw [named]; simp

theorem declareNode_eq_visit_of_not_mapping (hm : ∀ entries, node ≠ .mapping entries) :
    declareNode limit depth name node = visit limit ⟨depth, name, node⟩ := by
  rw [declareNode_eq_walk, node.named_of_not_mapping depth name hm, walk_singleton]

theorem declareConstant_eq_visit_of_not_mapping (hm : ∀ entries, node ≠ .mapping entries) :
    declareConstant limit depth name node = visit limit ⟨depth, name, node⟩ := by
  rw [declareConstant, checkName_eq limit, checkValue_eq, require_require,
    firstFault?_valueChecks limit depth name hm, visit_eq, Named.unit_of_not_mapping depth name hm]

/-- Declaring a node that is no mapping is declaring a constant, on any output. Either way it is
rejected just if the check of its name fails, or else that of its value, for the cause that the
check gives, and the output is left as it is; if none fails, the constant is added. -/
theorem declareNode_eq_declareConstant (h : node.kind ≠ .mapping) (limit depth : Nat)
    (name : String) (out : Output) :
    declareNode limit depth name node out = declareConstant limit depth name node out ∧
    (∀ cause after, declareNode limit depth name node out = .error cause after ↔
      (checkName name = .error cause ∨
        checkName name = .ok () ∧ checkValue limit depth node = .error cause) ∧ after = out) ∧
    (∀ cause after, declareConstant limit depth name node out = .error cause after ↔
      (checkName name = .error cause ∨
        checkName name = .ok () ∧ checkValue limit depth node = .error cause) ∧ after = out) ∧
    ∀ after, declareNode limit depth name node out = .ok () after ↔
      checkName name = .ok () ∧ checkValue limit depth node = .ok () ∧
        after = out.push (.constant name node) := by
  have hm : ∀ entries, node ≠ .mapping entries := by
    rintro entries rfl
    exact h rfl
  have hsame : declareNode limit depth name node = declareConstant limit depth name node :=
    (declareNode_eq_visit_of_not_mapping hm).trans
      (declareConstant_eq_visit_of_not_mapping hm).symm
  rw [hsame]
  exact ⟨rfl, fun _ _ => declareConstant_eq_error_iff, fun _ _ => declareConstant_eq_error_iff,
    fun _ => declareConstant_eq_ok_iff⟩

/-- A sequence with a mapping deep inside it, behind a unit that is written already. -/
theorem declareNode_eq_declareConstant_nested :
    let node : Node := .sequence [.number (.int 1), .sequence [.mapping [("k", .unsupported "~")]]]
    let out : Output := ⟨#[.line "x"]⟩
    node.kind ≠ .mapping ∧
      declareNode 3 1 "A" node out = declareConstant 3 1 "A" node out ∧
      declareNode 3 1 "A" node out = .error (.invalidValue "\x7bk: ~\x7d") out := by
  intro node out
  have hkind : node.kind ≠ .mapping := by decide
  obtain ⟨hsame, herror, -⟩ := declareNode_eq_declareConstant hkind 3 1 "A" out
  exact ⟨hkind, hsame, (herror _ _).mpr ⟨.inr ⟨rfl, rfl⟩, rfl⟩⟩

end YamlDefs

import YamlDefs.Declare
import YamlDefs.Proofs.Node

/-!
# Depths and limits that shift together

A depth is only ever compared with the limit and passed on one level deeper. So where both are
greater by the same number, everything goes the same way, and only the depth that a rejection
reports is greater by that number too.

* `Rejection.deeper`: a rejection that reports a greater depth.
* `Writing.mapRejection`: writing that reports its rejections in another way. It goes through the
  parts of a declaration (`mapRejection_bind`, `mapRejection_require`), which carries the shift
  from the checks to whatever is built from them.
* `checkValue_add`, `declareConstant_add`, `declareNode_add`: the two runs side by side.
* `declareNode_shift`: these, and a node at any level as a node of the first level.
-/

namespace YamlDefs

open Writing

variable {limit depth k : Nat} {f : Rejection → Rejection} {name : String} {value node : Node}

/-! ## Rejections that report a greater depth -/

/-- A rejection that reports a depth greater by a number; any other one is left as it is. -/
def Rejection.deeper (k : Nat) : Rejection → Rejection
  | tooDeep depth => tooDeep (depth + k)
  | cause => cause

theorem mapError_bind (check : Except Rejection Unit) (next : Except Rejection Unit) :
    (do check; next : Except Rejection Unit).mapError f =
      (do check.mapError f; next.mapError f) := by
  cases check <;> rfl

namespace Writing

/-- Writing that reports its rejections in another way. -/
def mapRejection (f : Rejection → Rejection) (writing : Writing Unit) : Writing Unit := fun out =>
  match writing out with
  | .ok () after => .ok () after
  | .error cause after => .error (f cause) after

@[simp] theorem mapRejection_push (unit : Declaration) :
    mapRejection f (push unit) = push unit := rfl

@[simp] theorem mapRejection_throw (cause : Rejection) :
    mapRejection f (throw cause) = throw (f cause) := rfl

@[simp] theorem mapRejection_require (check : Except Rejection Unit) :
    mapRejection f (require check) = require (check.mapError f) := by
  funext out
  cases check <;> rfl

@[simp] theorem mapRejection_bind (first second : Writing Unit) :
    mapRejection f (do first; second) = (do mapRejection f first; mapRejection f second) := by
  funext out
  simp only [mapRejection, bind, EStateM.bind]
  cases first out <;> rfl

end Writing

/-! ## Checks -/

@[simp] theorem mapError_checkName (k : Nat) (name : String) :
    (checkName name).mapError (.deeper k) = checkName name := by
  unfold checkName
  split <;> rfl

theorem checkDepth_add (limit depth k : Nat) :
    checkDepth (limit + k) (depth + k) = (checkDepth limit depth).mapError (.deeper k) := by
  by_cases h : limit < depth
  · have hk : limit + k < depth + k := by omega
    rw [checkDepth, checkDepth, if_pos h, if_pos hk]
    rfl
  · have hk : ¬ limit + k < depth + k := by omega
    rw [checkDepth, checkDepth, if_neg h, if_neg hk]
    rfl

theorem checkItems_add {items : List Node}
    (h : ∀ item ∈ items,
      checkValue (limit + k) (depth + k) item =
        (checkValue limit depth item).mapError (.deeper k)) :
    checkItems (limit + k) (depth + k) items =
      (checkItems limit depth items).mapError (.deeper k) := by
  induction items with
  | nil => rfl
  | cons item rest ih =>
    obtain ⟨hitem, hrest⟩ := List.forall_mem_cons.mp h
    rw [checkItems, checkItems, mapError_bind, hitem, ih hrest]

theorem checkValue_add (limit depth k : Nat) (value : Node) :
    checkValue (limit + k) (depth + k) value =
      (checkValue limit depth value).mapError (.deeper k) := by
  induction value generalizing depth with
  | sequence items ih =>
    have hitems : checkItems (limit + k) (depth + 1 + k) items =
        (checkItems limit (depth + 1) items).mapError (.deeper k) :=
      checkItems_add fun item hi => ih item hi (depth + 1)
    rw [checkValue, checkValue, mapError_bind, checkDepth_add, ← hitems, Nat.add_right_comm]
  | mapping entries | number value | string value | unsupported text =>
    rw [checkValue, checkValue, mapError_bind, checkDepth_add]
    rfl

/-! ## Declarations -/

theorem declareConstant_add (limit depth k : Nat) (name : String) (value : Node) :
    declareConstant (limit + k) (depth + k) name value =
      mapRejection (.deeper k) (declareConstant limit depth name value) := by
  simp [declareConstant, checkValue_add]

theorem declareEntries_add {entries : List (String × Node)}
    (h : ∀ e ∈ entries, declareNode (limit + k) (depth + k) e.1 e.2 =
      mapRejection (.deeper k) (declareNode limit depth e.1 e.2)) :
    declareEntries (limit + k) (depth + k) entries =
      mapRejection (.deeper k) (declareEntries limit depth entries) := by
  induction entries with
  | nil => rfl
  | cons e rest ih =>
    obtain ⟨he, hrest⟩ := List.forall_mem_cons.mp h
    rw [declareEntries, declareEntries, mapRejection_bind, he, ih hrest]

theorem declareNode_add (limit depth k : Nat) (name : String) (node : Node) :
    declareNode (limit + k) (depth + k) name node =
      mapRejection (.deeper k) (declareNode limit depth name node) := by
  induction node generalizing depth name with
  | mapping entries ih =>
    have hentries : declareEntries (limit + k) (depth + 1 + k) entries =
        mapRejection (.deeper k) (declareEntries limit (depth + 1) entries) :=
      declareEntries_add fun e he => ih e he (depth + 1) e.1
    rw [declareNode, declareNode]
    simp [checkDepth_add, ← hentries, Nat.add_right_comm]
  | sequence items | number value | string value =>
    rw [declareNode, declareNode]
    simp [checkDepth_add, declareConstant_add]
  | unsupported text =>
    rw [declareNode, declareNode]
    simp [checkDepth_add, Rejection.deeper]

/-- Only the distance between depth and limit matters. Where both are greater by `k`, a value is
checked, a constant declared and a node declared with the same outcome, and they add the same units
to any output; only a rejection for depth reports a depth greater by `k`. So at a level whose
distance from the first is within the limit, all goes as at the first level under a limit that is
lower by that distance. -/
theorem declareNode_shift (limit depth k : Nat) (name : String) (node : Node) :
    (checkValue (limit + k) (depth + k) node =
        (checkValue limit depth node).mapError (.deeper k) ∧
      declareConstant (limit + k) (depth + k) name node =
        mapRejection (.deeper k) (declareConstant limit depth name node) ∧
      declareNode (limit + k) (depth + k) name node =
        mapRejection (.deeper k) (declareNode limit depth name node)) ∧
    ∀ level, 1 ≤ level → level - 1 ≤ limit →
      checkValue limit level node =
        (checkValue (limit - (level - 1)) 1 node).mapError (.deeper (level - 1)) ∧
      declareConstant limit level name node =
        mapRejection (.deeper (level - 1)) (declareConstant (limit - (level - 1)) 1 name node) ∧
      declareNode limit level name node =
        mapRejection (.deeper (level - 1)) (declareNode (limit - (level - 1)) 1 name node) := by
  have hshift (limit depth k : Nat) :=
    And.intro (checkValue_add limit depth k node) (And.intro
      (declareConstant_add limit depth k name node) (declareNode_add limit depth k name node))
  refine ⟨hshift limit depth k, fun level hlevel hlimit => ?_⟩
  have hlow := hshift (limit - (level - 1)) 1 (level - 1)
  rwa [Nat.sub_add_cancel hlimit, Nat.add_sub_cancel' hlevel] at hlow

/-- A mapping at the third level under limit four, and the same mapping at the first level under
limit two: a sequence in it is too deep both times, and what comes before it is written. -/
theorem declareNode_shift_cut :
    let node : Node := .mapping [("B", .string "x"), ("C", .sequence [.sequence [.string "y"]])]
    let written : Output := ⟨#[.structureNamed "A", .constant "B" (.string "x")]⟩
    1 ≤ 3 ∧ 3 - 1 ≤ 4 ∧
      declareNode 4 3 "A" node = mapRejection (.deeper 2) (declareNode 2 1 "A" node) ∧
      declareNode 2 1 "A" node .empty = .error (.tooDeep 3) written ∧
      declareNode 4 3 "A" node .empty = .error (.tooDeep 5) written := by
  intro node written
  have hlevel : 1 ≤ 3 := by decide
  have hlimit : 3 - 1 ≤ 4 := by decide
  have hsame := ((declareNode_shift 4 3 0 "A" node).2 3 hlevel hlimit).2.2
  have htop : declareNode 2 1 "A" node .empty = .error (.tooDeep 3) written := rfl
  refine ⟨hlevel, hlimit, hsame, htop, ?_⟩
  rw [hsame, mapRejection, htop]
  rfl

end YamlDefs

import YamlDefs.Declare
import YamlDefs.Proofs.Node

/-!
# The walk over named nodes

A tree is declared by one walk over its named nodes in document order: the nodes that stand under
a key which mappings alone lead to. Each of them has checks of its own and one unit, which is
written once its checks have passed.

* `Check`: a single check of a name, a depth or a shape, and the rejection it comes to.
* `Named`: a named node with its depth; `Node.named` lists them, each before those below it.
* `declareNode_eq_walk`: declaring a tree is walking over its named nodes. The checks that the
  parts of a declaration repeat do not show.
* `walk_ok_iff`, `walk_error_iff`: what a walk comes to, by the first named node with a fault.
-/

namespace YamlDefs

open Writing

/-! ## Checks -/

/-- A check that a node may fail. -/
inductive Check where
  /-- The name of a node is an identifier. -/
  | name (name : String)
  /-- A node stands within the limit. -/
  | depth (depth : Nat)
  /-- A node is a number, a string or a sequence. -/
  | shape (node : Node)

/-- The rejection that a check comes to under a limit, if it fails. -/
def Check.fault? (limit : Nat) : Check → Option Rejection
  | .name key => if isIdentifier key.toList then none else some (.invalidName key)
  | .depth level => if limit < level then some (.tooDeep level) else none
  | .shape (.mapping entries) => some (.invalidValue (Node.mapping entries).text)
  | .shape (.unsupported text) => some (.invalidValue text)
  | .shape _ => none

/-- The rejection of the first check that fails. -/
def firstFault? (limit : Nat) (checks : List Check) : Option Rejection :=
  checks.findSome? (Check.fault? limit)

mutual

/-- The checks of a value at a depth: its depth, its shape, and those of its items in order. -/
def valueChecks (depth : Nat) : Node → List Check
  | .sequence items => .depth depth :: .shape (.sequence items) :: itemChecks (depth + 1) items
  | value => [.depth depth, .shape value]

/-- The checks of the items of a sequence that stand at a depth. -/
def itemChecks (depth : Nat) : List Node → List Check
  | [] => []
  | item :: rest => valueChecks depth item ++ itemChecks depth rest

end

theorem itemChecks_eq_flatMap (depth : Nat) (items : List Node) :
    itemChecks depth items = items.flatMap (valueChecks depth) := by
  induction items with
  | nil => rfl
  | cons item rest ih => rw [itemChecks, ih, List.flatMap_cons]

@[simp] theorem firstFault?_nil (limit : Nat) : firstFault? limit [] = none := rfl

@[simp] theorem firstFault?_cons (limit : Nat) (check : Check) (rest : List Check) :
    firstFault? limit (check :: rest) = (check.fault? limit).or (firstFault? limit rest) := by
  unfold firstFault?
  rw [List.findSome?_cons]
  cases check.fault? limit <;> rfl

@[simp] theorem firstFault?_append (limit : Nat) (xs ys : List Check) :
    firstFault? limit (xs ++ ys) = (firstFault? limit xs).or (firstFault? limit ys) :=
  List.findSome?_append

/-- The first fault of lists of checks one behind the other is that of the first of them that has
one. -/
theorem firstFault?_flatMap {α : Type} (limit : Nat) (checks : α → List Check) (xs : List α) :
    firstFault? limit (xs.flatMap checks) = xs.findSome? fun x => firstFault? limit (checks x) := by
  induction xs with
  | nil => rfl
  | cons x xs ih =>
    rw [List.flatMap_cons, firstFault?_append, ih, List.findSome?_cons]
    cases firstFault? limit (checks x) <;> rfl

/-- What a check comes to, from the rejection of its first fault. -/
def verdict : Option Rejection → Except Rejection Unit
  | none => .ok ()
  | some cause => .error cause

theorem verdict_or (a b : Option Rejection) :
    verdict (a.or b) = (do verdict a; verdict b) := by
  cases a <;> rfl

theorem checkName_eq (limit : Nat) (name : String) :
    checkName name = verdict ((Check.name name).fault? limit) := by
  by_cases h : isIdentifier name.toList = true
  · have hsome : Identifier.ofString? name = some ⟨name, h⟩ :=
      Identifier.ofString?_eq_some_iff.mpr ⟨h, rfl⟩
    simp [checkName, hsome, Check.fault?, verdict, h]
  · have hnone : Identifier.ofString? name = none :=
      Option.eq_none_iff_forall_ne_some.mpr fun i hi =>
        h (Identifier.ofString?_eq_some_iff.mp hi).1
    simp [checkName, hnone, Check.fault?, verdict, h]

theorem checkDepth_eq (limit depth : Nat) :
    checkDepth limit depth = verdict ((Check.depth depth).fault? limit) := by
  by_cases h : limit < depth <;> simp [checkDepth, Check.fault?, verdict, h]

theorem checkItems_eq (limit depth : Nat) (items : List Node)
    (h : ∀ item ∈ items,
      checkValue limit depth item = verdict (firstFault? limit (valueChecks depth item))) :
    checkItems limit depth items = verdict (firstFault? limit (itemChecks depth items)) := by
  induction items with
  | nil => rfl
  | cons item rest ih =>
    obtain ⟨hi, hr⟩ := List.forall_mem_cons.mp h
    rw [checkItems, itemChecks, firstFault?_append, verdict_or, ih hr, hi]

/-- A value is rejected for the first fault among its checks. -/
theorem checkValue_eq (limit depth : Nat) (value : Node) :
    checkValue limit depth value = verdict (firstFault? limit (valueChecks depth value)) := by
  induction value generalizing depth with
  | mapping entries | number value | string value | unsupported text =>
    rw [checkValue, checkDepth_eq, valueChecks, firstFault?_cons, verdict_or]
    · rfl
    all_goals simp
  | sequence items ih =>
    rw [checkValue, checkDepth_eq, valueChecks, firstFault?_cons, verdict_or, firstFault?_cons,
      checkItems_eq limit _ items fun item h => ih item h (depth + 1)]
    rfl

/-! ## Named nodes -/

/-- A node under a key, with its key and the depth at which it stands. -/
structure Named where
  depth : Nat
  name : String
  node : Node

namespace Named

/-- What the form of a named node leaves to check: the items of a sequence, and the shape of an
unsupported value. -/
def formChecks (n : Named) : List Check :=
  match n.node with
  | .sequence items => itemChecks (n.depth + 1) items
  | .unsupported text => [.shape (.unsupported text)]
  | _ => []

/-- The checks of a named node alone: its name, then its depth, then those of its form. -/
def checks (n : Named) : List Check := .name n.name :: .depth n.depth :: n.formChecks

/-- The rejection of the first check of a named node that fails. -/
def fault? (limit : Nat) (n : Named) : Option Rejection := firstFault? limit n.checks

/-- The unit of a named node: the comment of a mapping, and a constant for any other value. -/
def unit (n : Named) : Declaration :=
  match n.node with
  | .mapping _ => .structureNamed n.name
  | value => .constant n.name value

end Named

mutual

/-- A named node at a depth and the named nodes below it, in document order. -/
def Node.named (depth : Nat) (name : String) : Node → List Named
  | .mapping entries => ⟨depth, name, .mapping entries⟩ :: namedEntries (depth + 1) entries
  | value => [⟨depth, name, value⟩]

/-- The named nodes of entries that stand at a depth. -/
def namedEntries (depth : Nat) : List (String × Node) → List Named
  | [] => []
  | (name, node) :: rest => node.named depth name ++ namedEntries depth rest

end

theorem namedEntries_eq_flatMap (depth : Nat) (entries : List (String × Node)) :
    namedEntries depth entries = entries.flatMap fun e => e.2.named depth e.1 := by
  induction entries with
  | nil => rfl
  | cons e rest ih => rw [namedEntries, ih, List.flatMap_cons]

/-! ## The walk -/

/-- Writes the unit of a named node if none of its checks fails. -/
def visit (limit : Nat) (n : Named) : Writing Unit := do
  require (verdict (n.fault? limit))
  push n.unit

/-- Visits named nodes in order, up to the first that is rejected. -/
def walk (limit : Nat) (nodes : List Named) : Writing Unit := forM nodes (visit limit)

theorem walk_append (limit : Nat) (xs ys : List Named) :
    walk limit (xs ++ ys) = (do walk limit xs; walk limit ys) :=
  List.forM_append

/-- Checks that have passed may be made again. -/
theorem require_again (a b c : Option Rejection) (k : Writing Unit) :
    (do require (verdict a); require (verdict b); require (verdict a)
        require (verdict (b.or c)); k) = (do require (verdict (a.or (b.or c))); k) := by
  funext out
  cases a <;> cases b <;> rfl

theorem visit_eq (limit : Nat) (n : Named) :
    visit limit n = (do
      require (verdict (((Check.name n.name).fault? limit).or
        (((Check.depth n.depth).fault? limit).or (firstFault? limit n.formChecks))))
      push n.unit) := by
  rw [visit, Named.fault?, Named.checks, firstFault?_cons, firstFault?_cons]

/-- The unit of a node that is no mapping is a constant. -/
theorem Named.unit_of_not_mapping (depth : Nat) (name : String) {value : Node}
    (hm : ∀ entries, value ≠ .mapping entries) :
    Named.unit ⟨depth, name, value⟩ = .constant name value := by
  cases value with
  | mapping entries => exact absurd rfl (hm entries)
  | _ => rfl

/-- A node that is no mapping is checked as a value for its depth and then for its form. -/
theorem firstFault?_valueChecks (limit depth : Nat) (name : String) {value : Node}
    (hm : ∀ entries, value ≠ .mapping entries) :
    firstFault? limit (valueChecks depth value) =
      ((Check.depth depth).fault? limit).or
        (firstFault? limit (Named.formChecks ⟨depth, name, value⟩)) := by
  cases value with
  | mapping entries => exact absurd rfl (hm entries)
  | sequence items =>
    rw [valueChecks, firstFault?_cons, firstFault?_cons]
    rfl
  | number _ | string _ | unsupported _ =>
    rw [valueChecks, firstFault?_cons]
    · rfl
    all_goals simp

/-- Declaring a node that is no mapping after the checks of its name and depth is visiting it: a
declaration repeats both checks. -/
theorem declareConstant_eq_visit (limit depth : Nat) (name : String) {value : Node}
    (hm : ∀ entries, value ≠ .mapping entries) :
    (do require (checkName name); require (checkDepth limit depth)
        declareConstant limit depth name value) = visit limit ⟨depth, name, value⟩ := by
  rw [declareConstant, checkName_eq limit, checkDepth_eq, checkValue_eq,
    firstFault?_valueChecks limit depth name hm, require_again, visit_eq,
    Named.unit_of_not_mapping depth name hm]

theorem declareEntries_eq_walk (limit depth : Nat) (entries : List (String × Node))
    (h : ∀ e ∈ entries,
      declareNode limit depth e.1 e.2 = walk limit (e.2.named depth e.1)) :
    declareEntries limit depth entries = walk limit (namedEntries depth entries) := by
  induction entries with
  | nil => rfl
  | cons e rest ih =>
    obtain ⟨he, hr⟩ := List.forall_mem_cons.mp h
    rw [declareEntries, namedEntries, walk_append, ih hr, he]

theorem walk_singleton (limit : Nat) (n : Named) : walk limit [n] = visit limit n := by
  funext out
  simp [walk]

/-- Declaring a named node is walking over it and the named nodes below it. -/
theorem declareNode_eq_walk (limit depth : Nat) (name : String) (node : Node) :
    declareNode limit depth name node = walk limit (node.named depth name) := by
  induction node generalizing depth name with
  | mapping entries ih =>
    rw [declareNode, Node.named, walk, List.forM_cons, ← walk, checkName_eq limit, checkDepth_eq,
      declareEntries_eq_walk limit _ entries fun e he => ih e he (depth + 1) e.1, visit_eq]
    funext out
    cases (Check.name name).fault? limit <;> cases (Check.depth depth).fault? limit <;> rfl
  | unsupported text =>
    rw [declareNode, Node.named, walk_singleton, checkName_eq limit, checkDepth_eq, visit_eq]
    · funext out
      cases (Check.name name).fault? limit <;> cases (Check.depth depth).fault? limit <;> rfl
    · simp
  | sequence _ | number _ | string _ =>
    rw [declareNode, Node.named, walk_singleton]
    · exact declareConstant_eq_visit limit depth name (by simp)
    all_goals simp

/-! ## What a walk comes to -/

/-- An output with further units at its end. -/
def Output.append (out : Output) (units : List Declaration) : Output := ⟨out.units ++ units⟩

@[simp] theorem Output.toList_units_append (out : Output) (units : List Declaration) :
    (out.append units).units.toList = out.units.toList ++ units := by
  simp [append]

@[simp] theorem Output.append_nil (out : Output) : out.append [] = out := by
  simp [append]

@[simp] theorem Output.append_push (out : Output) (unit : Declaration) (units : List Declaration) :
    (out.push unit).append units = out.append (unit :: units) := by
  simp [append, push]

variable {limit : Nat} {nodes : List Named} {out after : Output} {cause : Rejection}

theorem walk_cons (n : Named) (rest : List Named) :
    walk limit (n :: rest) out = match n.fault? limit with
      | none => walk limit rest (out.push n.unit)
      | some cause => .error cause out := by
  simp only [walk, List.forM_cons, visit]
  cases n.fault? limit <;> rfl

/-- Named nodes without a fault are written, one unit each. -/
theorem walk_append_of_passed (h : ∀ n ∈ nodes, n.fault? limit = none) (rest : List Named) :
    walk limit (nodes ++ rest) out = walk limit rest (out.append (nodes.map Named.unit)) := by
  induction nodes generalizing out with
  | nil => simp
  | cons n nodes ih =>
    obtain ⟨hn, hr⟩ := List.forall_mem_cons.mp h
    rw [List.cons_append, walk_cons, hn]
    simp only [ih hr, Output.append_push, List.map_cons]

theorem walk_of_passed (h : ∀ n ∈ nodes, n.fault? limit = none) :
    walk limit nodes out = .ok () (out.append (nodes.map Named.unit)) := by
  have hw : walk limit (nodes ++ []) out = _ := walk_append_of_passed h []
  rwa [List.append_nil] at hw

/-- The first named node with a fault ends a walk, and those before it stay written. -/
theorem walk_of_fault {before rest : List Named} {n : Named}
    (h : ∀ m ∈ before, m.fault? limit = none) (hn : n.fault? limit = some cause) :
    walk limit (before ++ n :: rest) out = .error cause (out.append (before.map Named.unit)) := by
  rw [walk_append_of_passed h, walk_cons, hn]

/-- Either no named node has a fault or there is a first one that has. -/
theorem passed_or_fault (limit : Nat) (nodes : List Named) :
    (∀ n ∈ nodes, n.fault? limit = none) ∨ ∃ before n rest cause, nodes = before ++ n :: rest ∧
      (∀ m ∈ before, m.fault? limit = none) ∧ n.fault? limit = some cause := by
  cases h : nodes.findSome? (Named.fault? limit) with
  | none => exact .inl (List.findSome?_eq_none_iff.mp h)
  | some cause =>
    obtain ⟨before, n, rest, hnodes, hn, hb⟩ := List.findSome?_eq_some_iff.mp h
    exact .inr ⟨before, n, rest, cause, hnodes, hb, hn⟩

theorem walk_ok_iff :
    walk limit nodes out = .ok () after ↔
      (∀ n ∈ nodes, n.fault? limit = none) ∧ after = out.append (nodes.map Named.unit) := by
  constructor
  · intro h
    rcases passed_or_fault limit nodes with hp | ⟨before, n, rest, cause, rfl, hb, hn⟩
    · rw [walk_of_passed hp] at h
      cases h
      exact ⟨hp, rfl⟩
    · rw [walk_of_fault hb hn] at h
      cases h
  · rintro ⟨hp, rfl⟩
    exact walk_of_passed hp

theorem walk_error_iff :
    walk limit nodes out = .error cause after ↔
      ∃ before n rest, nodes = before ++ n :: rest ∧ (∀ m ∈ before, m.fault? limit = none) ∧
        n.fault? limit = some cause ∧ after = out.append (before.map Named.unit) := by
  constructor
  · intro h
    rcases passed_or_fault limit nodes with hp | ⟨before, n, rest, cause, rfl, hb, hn⟩
    · rw [walk_of_passed hp] at h
      cases h
    · rw [walk_of_fault hb hn] at h
      cases h
      exact ⟨before, n, rest, rfl, hb, hn, rfl⟩
  · rintro ⟨before, n, rest, rfl, hb, hn, rfl⟩
    exact walk_of_fault hb hn

/-- The text of a document whose root is a mapping comes from the walk over its named nodes. -/
theorem compileNode_mapping (limit : Nat) (entries : List (String × Node)) :
    compileNode limit (.mapping entries) =
      match walk limit (namedEntries 1 entries) .empty with
      | .ok () out => .ok out.text
      | .error cause _ => .error cause := by
  have hwalk := declareEntries_eq_walk limit 1 entries fun e _ =>
    declareNode_eq_walk limit 1 e.1 e.2
  rw [← hwalk]
  rfl

theorem compileNode_of_not_mapping {root : Node} (h : ∀ entries, root ≠ .mapping entries) :
    compileNode limit root = .error .rootNotMapping := by
  cases root with
  | mapping entries => exact absurd rfl (h entries)
  | _ => rfl

end YamlDefs

import YamlDefs.Proofs.Limit

/-!
# Places in a tree

A place is the list of indices that lead from the top of a tree to a node in it. Places are compared
as lists of numbers, and this is document order: a node comes before those below it, and whatever is
below it before the next node beside it.

* `Standing`: how a node stands in a tree; `Standing.fault?`: the rejection for it alone.
* `Node.at?`: the node at a place; `Node.faultAt?`: the rejection for it alone.
* `FirstAt`, `First`: what comes first of all that is given at places; `first_below`: in several
  trees side by side.
* `Node.FirstFaultAt`: the first place with a rejection; `first_faultAt?`: the rejection for a node
  with all nodes below it stands there.
* `checkValue_error_iff`, `declareNode_error_iff`, `compileNode_error_iff_firstFaultAt`: a value, a
  named node and a document are rejected for the node at the first such place.
-/

namespace YamlDefs

/-- How a node stands in a tree. -/
inductive Standing where
  /-- As the root of a document. -/
  | root
  /-- As the value of an entry of a mapping, under a key. -/
  | entry (key : String)
  /-- As an item of a sequence. So does a value that is to become a constant. -/
  | item

/-- The rejection for a node alone, as it stands at a depth: a root has to be a mapping, the name
before an entry is checked before its depth, and an item has to be something else than a mapping. -/
def Standing.fault? (limit depth : Nat) (node : Node) : Standing → Option Rejection
  | root => if node.kind = .mapping then none else some .rootNotMapping
  | entry key => firstFault? limit
      ([.name key, .depth depth] ++ if node.kind = .unsupported then [.shape node] else [])
  | item => firstFault? limit [.depth depth, .shape node]

namespace Node

/-- The nodes directly below a node, as they stand there. -/
def children : Node → List (Standing × Node)
  | mapping entries => entries.map fun e => (.entry e.1, e.2)
  | sequence items => items.map fun item => (.item, item)
  | _ => []

/-- The node at a place, as it stands there, in a tree whose top stands in a given way. -/
def at? (standing : Standing) (node : Node) : List Nat → Option (Standing × Node)
  | [] => some (standing, node)
  | i :: place => node.children[i]?.bind fun c => c.2.at? c.1 place

/-- The rejection for the node at a place alone, in a tree whose top stands at a depth. -/
def faultAt? (limit depth : Nat) (standing : Standing) (node : Node) (place : List Nat) :
    Option Rejection :=
  (node.at? standing place).bind fun c => c.1.fault? limit (depth + place.length) c.2

theorem faultAt?_cons (limit depth : Nat) (standing : Standing) (node : Node) (i : Nat)
    (place : List Nat) :
    node.faultAt? limit depth standing (i :: place) =
      node.children[i]?.bind fun c => c.2.faultAt? limit (depth + 1) c.1 place := by
  have hdepth : depth + (i :: place).length = depth + 1 + place.length := by
    rw [List.length_cons]
    omega
  rw [faultAt?, at?, Option.bind_assoc, hdepth]
  rfl

end Node

/-- Only the check of a shape reports an invalid value. -/
theorem mem_of_firstFault?_eq_invalidValue {limit : Nat} {checks : List Check} {text : String}
    (h : firstFault? limit checks = some (.invalidValue text)) : ∃ node, .shape node ∈ checks ∧
      text = node.text ∧ (node.kind = .unsupported ∨ node.kind = .mapping) := by
  obtain ⟨passed, check, left, rfl, hcheck, -⟩ := firstFault?_eq_some_iff.mp h
  cases check with
  | name key => by_cases hkey : isIdentifier key.toList <;> simp [Check.fault?, hkey] at hcheck
  | depth level => by_cases hlevel : limit < level <;> simp [Check.fault?, hlevel] at hcheck
  | shape node =>
    refine ⟨node, by simp, ?_⟩
    cases node with
    | mapping entries =>
      cases hcheck
      exact ⟨rfl, .inr rfl⟩
    | unsupported text =>
      cases hcheck
      exact ⟨by rw [Node.text], .inl rfl⟩
    | sequence items | number value | string value => cases hcheck

/-- An invalid value is reported by its display, and it is unsupported or a mapping where an item
stands. -/
theorem Standing.of_fault?_eq_invalidValue {limit depth : Nat} {standing : Standing} {node : Node}
    {text : String} (h : standing.fault? limit depth node = some (.invalidValue text)) :
    text = node.text ∧ (node.kind = .unsupported ∨ node.kind = .mapping ∧ standing = .item) := by
  cases standing with
  | root => by_cases hkind : node.kind = .mapping <;> simp [fault?, hkind] at h
  | entry key =>
    obtain ⟨value, hmem, htext, -⟩ := mem_of_firstFault?_eq_invalidValue h
    by_cases hkind : node.kind = .unsupported
    · obtain rfl : value = node := by simpa [hkind] using hmem
      exact ⟨htext, .inl hkind⟩
    · simp [hkind] at hmem
  | item =>
    obtain ⟨value, hmem, htext, hkind⟩ := mem_of_firstFault?_eq_invalidValue h
    obtain rfl : value = node := by simpa using hmem
    exact ⟨htext, hkind.imp_right fun hmapping => ⟨hmapping, rfl⟩⟩

/-! ## What comes first -/

/-- Of all that is given at places, this comes first. -/
def FirstAt (f : List Nat → Option Rejection) (place : List Nat) (cause : Rejection) : Prop :=
  f place = some cause ∧ ∀ earlier < place, f earlier = none

/-- What comes first of all that is given at places, if anything is given at all. -/
def First (f : List Nat → Option Rejection) : Option Rejection → Prop
  | none => ∀ place, f place = none
  | some cause => ∃ place, FirstAt f place cause

variable {f : List Nat → Option Rejection} {r : Option Rejection} {place place' : List Nat}
  {cause cause' : Rejection}

theorem FirstAt.eq (h : FirstAt f place cause) (h' : FirstAt f place' cause') : cause = cause' := by
  rcases Std.lt_trichotomy place place' with hlt | rfl | hlt
  · have hnone := h'.2 place hlt
    rw [h.1] at hnone
    cases hnone
  · exact Option.some.inj (h.1.symm.trans h'.1)
  · have hnone := h.2 place' hlt
    rw [h'.1] at hnone
    cases hnone

theorem First.eq_some_iff (h : First f r) : r = some cause ↔ ∃ place, FirstAt f place cause := by
  constructor
  · rintro rfl
    exact h
  · rintro ⟨place, hfirst⟩
    cases r with
    | none =>
      have hnone : f place = none := h place
      rw [hfirst.1] at hnone
      cases hnone
    | some cause' =>
      obtain ⟨place', hfirst'⟩ := h
      rw [hfirst'.eq hfirst]

/-- What is given at the top comes before all else. -/
theorem first_of_top (h : f [] = some cause) : First f (some cause) :=
  ⟨[], h, fun _ hlt => absurd hlt (List.not_lt_nil _)⟩

section Below

variable {α : Type} {g : α → List Nat → Option Rejection} {part : α} {rest : List α} {i : Nat}

/-- What is given in several parts below a top for which nothing is given. -/
def below (g : α → List Nat → Option Rejection) (parts : List α) : List Nat → Option Rejection
  | [] => none
  | i :: place => parts[i]?.bind fun part => g part place

theorem firstAt_below_head (h : FirstAt (g part) place cause) :
    FirstAt (below g (part :: rest)) (0 :: place) cause := by
  refine ⟨h.1, ?_⟩
  rintro (_ | ⟨i, earlier⟩) hlt
  · rfl
  · rcases List.cons_lt_cons_iff.mp hlt with hi | ⟨rfl, hinside⟩
    · omega
    · exact h.2 earlier hinside

theorem firstAt_below_tail (hpart : ∀ place, g part place = none)
    (h : FirstAt (below g rest) (i :: place) cause) :
    FirstAt (below g (part :: rest)) ((i + 1) :: place) cause := by
  refine ⟨h.1, ?_⟩
  rintro (_ | ⟨_ | j, earlier⟩) hlt
  · rfl
  · exact hpart earlier
  · refine h.2 (j :: earlier) (List.cons_lt_cons_iff.mpr ?_)
    rcases List.cons_lt_cons_iff.mp hlt with hj | ⟨hj, hinside⟩
    · exact .inl (by omega)
    · exact .inr ⟨by omega, hinside⟩

/-- The first of all that is given below comes from the first part that gives anything. -/
theorem first_below {result : α → Option Rejection} {parts : List α}
    (h : ∀ part ∈ parts, First (g part) (result part)) :
    First (below g parts) (parts.findSome? result) := by
  induction parts with
  | nil => rintro (_ | ⟨i, place⟩) <;> rfl
  | cons part rest ih =>
    obtain ⟨hpart, hrest⟩ := List.forall_mem_cons.mp h
    have hbelow := ih hrest
    rw [List.findSome?_cons]
    cases hresult : result part with
    | some cause =>
      rw [hresult] at hpart
      obtain ⟨place, hplace⟩ := hpart
      exact ⟨0 :: place, firstAt_below_head hplace⟩
    | none =>
      rw [hresult] at hpart
      cases hfound : rest.findSome? result with
      | none =>
        rw [hfound] at hbelow
        rintro (_ | ⟨_ | i, place⟩)
        · rfl
        · exact hpart place
        · exact hbelow (i :: place)
      | some cause =>
        rw [hfound] at hbelow
        obtain ⟨_ | ⟨i, place⟩, hplace⟩ := hbelow
        · cases hplace.1
        · exact ⟨(i + 1) :: place, firstAt_below_tail hpart hplace⟩

end Below

/-! ## The first fault by its place -/

/-- The first place in a tree with a rejection for the node there, and this rejection. -/
def Node.FirstFaultAt (limit depth : Nat) (standing : Standing) (node : Node) :
    List Nat → Rejection → Prop :=
  FirstAt (node.faultAt? limit depth standing)

/-- The rejection for a node as it stands, with all nodes below it. -/
def Standing.total? (limit depth : Nat) (node : Node) : Standing → Option Rejection
  | root =>
    match node with
    | .mapping entries => firstFault? limit ((namedEntries (depth + 1) entries).flatMap Named.checks)
    | _ => some .rootNotMapping
  | entry key => firstFault? limit ((node.named depth key).flatMap Named.checks)
  | item => firstFault? limit (valueChecks depth node)

variable {limit depth : Nat}

theorem total?_entries (entries : List (String × Node)) :
    (Node.children (.mapping entries)).findSome? (fun c => c.1.total? limit depth c.2) =
      firstFault? limit ((namedEntries depth entries).flatMap Named.checks) := by
  rw [namedEntries_eq_flatMap, List.flatMap_assoc, firstFault?_flatMap, Node.children,
    List.findSome?_map]
  rfl

theorem total?_items (items : List Node) :
    (Node.children (.sequence items)).findSome? (fun c => c.1.total? limit depth c.2) =
      firstFault? limit (itemChecks depth items) := by
  rw [itemChecks_eq_flatMap, firstFault?_flatMap, Node.children, List.findSome?_map]
  rfl

/-- A node is rejected for itself first, and then for the first node directly below it that is. -/
theorem total?_eq (limit depth : Nat) (standing : Standing) (node : Node) :
    standing.total? limit depth node = (standing.fault? limit depth node).or
      (node.children.findSome? fun c => c.1.total? limit (depth + 1) c.2) := by
  cases node with
  | mapping entries =>
    rw [total?_entries]
    cases standing with
    | root => simp [Standing.total?, Standing.fault?, Node.kind]
    | entry key =>
      simp [Standing.total?, Standing.fault?, Node.kind, Node.named, Named.checks,
        Named.formChecks, Option.or_assoc]
    | item => simp [Standing.total?, Standing.fault?, valueChecks, Check.fault?]
  | sequence items =>
    rw [total?_items]
    cases standing with
    | root => simp [Standing.total?, Standing.fault?, Node.kind]
    | entry key =>
      simp [Standing.total?, Standing.fault?, Node.kind, Node.named, Named.checks,
        Named.formChecks, Option.or_assoc]
    | item => simp [Standing.total?, Standing.fault?, valueChecks, Option.or_assoc]
  | number value | string value | unsupported text =>
    cases standing <;> simp [Standing.total?, Standing.fault?, Node.kind, Node.named, Named.checks,
      Named.formChecks, valueChecks, Node.children]

/-- What comes first in a tree is what comes first in the trees below its top, unless the top itself
is rejected. -/
theorem first_faultAt?_of_children {standing : Standing} {node : Node}
    (h : ∀ c ∈ node.children,
      First (c.2.faultAt? limit (depth + 1) c.1) (c.1.total? limit (depth + 1) c.2)) :
    First (node.faultAt? limit depth standing) (standing.total? limit depth node) := by
  rw [total?_eq]
  cases htop : standing.fault? limit depth node with
  | some cause =>
    rw [Option.some_or]
    exact first_of_top htop
  | none =>
    have hbelow : node.faultAt? limit depth standing =
        below (fun c => c.2.faultAt? limit (depth + 1) c.1) node.children := by
      funext place
      cases place with
      | nil => exact htop
      | cons i place => exact node.faultAt?_cons limit depth standing i place
    rw [Option.none_or, hbelow]
    exact first_below h

/-- The rejection for a node with all nodes below it stands at the first place that has one. -/
theorem first_faultAt? (limit depth : Nat) (standing : Standing) (node : Node) :
    First (node.faultAt? limit depth standing) (standing.total? limit depth node) := by
  induction node generalizing depth standing with
  | mapping entries ih =>
    refine first_faultAt?_of_children fun c hc => ?_
    obtain ⟨e, he, rfl⟩ := List.mem_map.mp hc
    exact ih e he (depth + 1) (.entry e.1)
  | sequence items ih =>
    refine first_faultAt?_of_children fun c hc => ?_
    obtain ⟨item, hi, rfl⟩ := List.mem_map.mp hc
    exact ih item hi (depth + 1) .item
  | number value | string value | unsupported text =>
    exact first_faultAt?_of_children fun c hc => absurd hc List.not_mem_nil

theorem total?_eq_some_iff {standing : Standing} {node : Node} :
    standing.total? limit depth node = some cause ↔
      ∃ place, node.FirstFaultAt limit depth standing place cause :=
  (first_faultAt? limit depth standing node).eq_some_iff

/-! ## What is rejected, and where -/

theorem verdict_eq_error_iff : verdict r = .error cause ↔ r = some cause := by
  cases r <;> simp [verdict]

/-- A value is rejected for the node at the first place in it with a fault. -/
theorem checkValue_error_iff {value : Node} :
    checkValue limit depth value = .error cause ↔
      ∃ place, value.FirstFaultAt limit depth .item place cause := by
  rw [checkValue_eq, verdict_eq_error_iff, ← total?_eq_some_iff]
  rfl

/-- So is a named node, whatever has been written before. -/
theorem declareNode_error_iff {name : String} {node : Node} {out : Output} :
    (∃ after, declareNode limit depth name node out = .error cause after) ↔
      ∃ place, node.FirstFaultAt limit depth (.entry name) place cause := by
  rw [declareNode_eq_walk, walk_eq_adding, ← total?_eq_some_iff, Standing.total?]
  cases firstFault? limit ((node.named depth name).flatMap Named.checks) <;>
    simp [Writing.adding]

/-- So is a document. -/
theorem compileNode_error_iff_firstFaultAt {root : Node} :
    compileNode limit root = .error cause ↔
      ∃ place, root.FirstFaultAt limit 0 .root place cause := by
  rw [← total?_eq_some_iff]
  cases root with
  | mapping entries => exact compileNode_error_iff
  | sequence items | number value | string value | unsupported text =>
    rw [compileNode_of_not_mapping (by simp)]
    simp [Standing.total?]

end YamlDefs

import YamlDefs.Proofs.Session

/-!
# The limit on depth

Of all checks only those of depths look at the limit, and a node is reached only through nodes
whose depth has passed. So a limit only ever cuts off: what it does not reject stays as it is under
every higher limit, and what it rejects stands exactly one level below it.

* `firstFault?_of_le`: the first fault stays under a higher limit, unless it is one of depth.
* `eq_of_named_tooDeep`: a fault of depth is found one level below the limit.
* `unitsBeforeFault_of_le`: a higher limit leaves at least the units that a lower one leaves.
* `Node.height`: the level of the deepest node; no limit from there on makes a difference.
* `compileNode_limit`: these facts for documents.
-/

namespace YamlDefs

variable {low high limit depth d : Nat}

/-! ## Two limits -/

theorem Check.fault?_of_le (h : low ≤ high) (check : Check)
    (hne : ∀ d, check.fault? low ≠ some (.tooDeep d)) : check.fault? high = check.fault? low := by
  cases check with
  | name key => rfl
  | shape node => cases node <;> rfl
  | depth level =>
    have hlow : ¬ low < level := fun hlt => hne level (by simp [fault?, hlt])
    have hhigh : ¬ high < level := by omega
    simp [fault?, hlow, hhigh]

/-- Unless it is one of depth, the first fault stays under a higher limit. -/
theorem firstFault?_of_le (h : low ≤ high) (checks : List Check)
    (hne : ∀ d, firstFault? low checks ≠ some (.tooDeep d)) :
    firstFault? high checks = firstFault? low checks := by
  induction checks with
  | nil => rfl
  | cons check rest ih =>
    rw [firstFault?_cons] at hne
    have hcheck : ∀ d, check.fault? low ≠ some (.tooDeep d) := fun d hd =>
      hne d (by rw [hd, Option.some_or])
    rw [firstFault?_cons, firstFault?_cons, check.fault?_of_le h hcheck]
    cases hc : check.fault? low with
    | none => simpa [hc] using ih fun d hd => hne d (by rw [hc, Option.none_or, hd])
    | some cause => rfl

/-- Whoever passes all checks passes them under a higher limit. -/
theorem fault?_of_le (h : low ≤ high) {n : Named} (hn : n.fault? low = none) :
    n.fault? high = none := by
  rw [Named.fault?] at hn ⊢
  rw [firstFault?_of_le h _ (by simp [hn]), hn]

theorem takeWhile_prefix_of_imp {α : Type} {p q : α → Bool} (h : ∀ a, p a = true → q a = true)
    (l : List α) : l.takeWhile p <+: l.takeWhile q := by
  induction l with
  | nil => exact List.prefix_rfl
  | cons a l ih =>
    by_cases hp : p a = true
    · rw [List.takeWhile_cons_of_pos hp, List.takeWhile_cons_of_pos (h a hp)]
      exact (List.prefix_cons_inj a).mpr ih
    · rw [List.takeWhile_cons_of_neg hp]
      exact List.nil_prefix

/-- A higher limit leaves the units that a lower one leaves, and then perhaps more. -/
theorem unitsBeforeFault_of_le (h : low ≤ high) (nodes : List Named) :
    unitsBeforeFault low nodes <+: unitsBeforeFault high nodes := by
  refine (takeWhile_prefix_of_imp (fun n hn => ?_) nodes).map Named.unit
  rw [Option.isNone_iff_eq_none] at hn ⊢
  exact fault?_of_le h hn

/-! ## Faults of depth -/

theorem fault?_depth_eq_some_iff {level : Nat} {cause : Rejection} :
    (Check.depth level).fault? limit = some cause ↔ limit < level ∧ cause = .tooDeep level := by
  unfold Check.fault?
  split <;> simp_all [eq_comm]

theorem fault?_name_ne_tooDeep (name : String) :
    (Check.name name).fault? limit ≠ some (.tooDeep d) := by
  by_cases h : isIdentifier name.toList <;> simp [Check.fault?, h]

theorem fault?_shape_ne_tooDeep (node : Node) :
    (Check.shape node).fault? limit ≠ some (.tooDeep d) := by
  cases node <;> simp [Check.fault?]

/-- A fault of depth is that of a check of this depth, which is beyond the limit. -/
theorem mem_of_tooDeep {checks : List Check} (h : firstFault? limit checks = some (.tooDeep d)) :
    .depth d ∈ checks ∧ limit < d := by
  obtain ⟨passed, check, left, rfl, hc, -⟩ := firstFault?_eq_some_iff.mp h
  cases check with
  | name name => exact absurd hc (fault?_name_ne_tooDeep name)
  | shape node => exact absurd hc (fault?_shape_ne_tooDeep node)
  | depth level =>
    obtain ⟨hlt, he⟩ := fault?_depth_eq_some_iff.mp hc
    cases he
    exact ⟨by simp, hlt⟩

/-- Where a node stands at most one level below the limit, a fault of depth is found one level below
the limit, or behind the check of the node's depth, which has passed. -/
theorem eq_or_tooDeep_behind {checks : List Check} (hd : depth ≤ limit + 1)
    (h : firstFault? limit (.depth depth :: checks) = some (.tooDeep d)) :
    d = limit + 1 ∨ depth ≤ limit ∧ firstFault? limit checks = some (.tooDeep d) := by
  rw [firstFault?_cons, Option.or_eq_some_iff] at h
  rcases h with h | ⟨hpass, h⟩
  · obtain ⟨hlt, he⟩ := fault?_depth_eq_some_iff.mp h
    cases he
    exact .inl (by omega)
  · have hle : ¬ limit < depth := fun hlt => by simp [Check.fault?, hlt] at hpass
    exact .inr ⟨by omega, h⟩

/-- The first fault of lists of checks one behind the other is the first fault of one of them. -/
theorem exists_firstFault?_of_flatMap {α : Type} {xs : List α} {checks : α → List Check}
    {cause : Rejection} (h : firstFault? limit (xs.flatMap checks) = some cause) :
    ∃ x ∈ xs, firstFault? limit (checks x) = some cause := by
  rw [firstFault?_flatMap] at h
  exact List.exists_of_findSome?_eq_some h

/-- A fault of depth in a value that stands at most one level below the limit. -/
theorem eq_of_value_tooDeep {value : Node} (hd : depth ≤ limit + 1)
    (h : firstFault? limit (valueChecks depth value) = some (.tooDeep d)) : d = limit + 1 := by
  induction value generalizing depth with
  | sequence items ih =>
    rw [valueChecks] at h
    rcases eq_or_tooDeep_behind hd h with h | ⟨hle, h⟩
    · exact h
    · rw [firstFault?_cons, itemChecks_eq_flatMap] at h
      obtain ⟨item, hi, h⟩ := exists_firstFault?_of_flatMap h
      exact ih item hi (by omega) h
  | mapping entries | number value | string value | unsupported text =>
    rw [valueChecks] at h
    · rcases eq_or_tooDeep_behind hd h with h | ⟨-, h⟩
      · exact h
      · rw [firstFault?_cons, firstFault?_nil, Option.or_none] at h
        exact absurd h (fault?_shape_ne_tooDeep _)
    all_goals simp

theorem tooDeep_behind_name {name : String} {checks : List Check}
    (h : firstFault? limit (.name name :: checks) = some (.tooDeep d)) :
    firstFault? limit checks = some (.tooDeep d) := by
  rw [firstFault?_cons, Option.or_eq_some_iff] at h
  exact h.elim (fun h => absurd h (fault?_name_ne_tooDeep name)) And.right

/-- A fault of depth below a named node that stands at most one level below the limit. -/
theorem eq_of_named_tooDeep {name : String} {node : Node} (hd : depth ≤ limit + 1)
    (h : firstFault? limit ((node.named depth name).flatMap Named.checks) = some (.tooDeep d)) :
    d = limit + 1 := by
  induction node generalizing depth name with
  | mapping entries ih =>
    rw [Node.named, List.flatMap_cons, namedEntries_eq_flatMap, List.flatMap_assoc] at h
    rcases eq_or_tooDeep_behind hd (tooDeep_behind_name h) with h | ⟨hle, h⟩
    · exact h
    · obtain ⟨e, he, h⟩ := exists_firstFault?_of_flatMap h
      exact ih e he (by omega) h
  | sequence items =>
    rw [Node.named, List.flatMap_singleton] at h
    · rcases eq_or_tooDeep_behind hd (tooDeep_behind_name h) with h | ⟨hle, h⟩
      · exact h
      · simp only [Named.formChecks, itemChecks_eq_flatMap] at h
        obtain ⟨item, -, h⟩ := exists_firstFault?_of_flatMap h
        exact eq_of_value_tooDeep (by omega) h
    · simp
  | number value | string value | unsupported text =>
    rw [Node.named, List.flatMap_singleton] at h
    · rcases eq_or_tooDeep_behind hd (tooDeep_behind_name h) with h | ⟨-, h⟩
      · exact h
      · exact absurd (mem_of_tooDeep h).1 (by simp [Named.formChecks])
    all_goals simp

/-! ## The deepest level -/

mutual

/-- The number of steps to the deepest node below a node. -/
def Node.height : Node → Nat
  | .mapping entries => entriesHeight entries
  | .sequence items => itemsHeight items
  | _ => 0

/-- The height of a mapping with the given entries. -/
def entriesHeight : List (String × Node) → Nat
  | [] => 0
  | (_, node) :: rest => max (node.height + 1) (entriesHeight rest)

/-- The height of a sequence of the given items. -/
def itemsHeight : List Node → Nat
  | [] => 0
  | item :: rest => max (item.height + 1) (itemsHeight rest)

end

theorem entriesHeight_le_iff {entries : List (String × Node)} {k : Nat} :
    entriesHeight entries ≤ k ↔ ∀ e ∈ entries, e.2.height < k := by
  induction entries with
  | nil => simp [entriesHeight]
  | cons e rest ih =>
    rw [entriesHeight, Nat.max_le, ih, List.forall_mem_cons, Nat.succ_le_iff]

theorem itemsHeight_le_iff {items : List Node} {k : Nat} :
    itemsHeight items ≤ k ↔ ∀ item ∈ items, item.height < k := by
  induction items with
  | nil => simp [itemsHeight]
  | cons item rest ih =>
    rw [itemsHeight, Nat.max_le, ih, List.forall_mem_cons, Nat.succ_le_iff]

/-- The height is the least number above the heights of the nodes directly below. -/
theorem Node.height_le_iff {a : Node} {k : Nat} :
    a.height ≤ k ↔ ∀ b, Child a b → b.height < k := by
  cases a with
  | mapping entries =>
    rw [height, entriesHeight_le_iff]
    simp only [child_mapping]
    constructor
    · rintro h _ ⟨e, he, rfl⟩
      exact h e he
    · exact fun h e he => h _ ⟨e, he, rfl⟩
  | sequence items =>
    rw [height, itemsHeight_le_iff]
    simp only [child_sequence]
  | number value | string value | unsupported text =>
    rw [height]
    · refine iff_of_true (Nat.zero_le k) fun b hb => ?_
      exact absurd hb (not_child_of_leaf (by simp) (by simp))
    all_goals simp

theorem Node.height_lt_of_child {a b : Node} (h : Child a b) : b.height < a.height :=
  height_le_iff.mp (Nat.le_refl _) b h

theorem Steps.le_height {n : Nat} {a b : Node} (h : Steps Child n a b) : n ≤ a.height := by
  induction n generalizing a with
  | zero => exact Nat.zero_le _
  | succ n ih =>
    obtain ⟨c, hc, hb⟩ := h
    exact Nat.lt_of_le_of_lt (ih hb) (Node.height_lt_of_child hc)

theorem Node.exists_steps_height (a : Node) : ∃ b, Steps Child a.height a b := by
  generalize hk : a.height = k
  induction k generalizing a with
  | zero => exact ⟨a, rfl⟩
  | succ k ih =>
    -- Were all nodes directly below lower than `k`, so would be `a` than `k + 1`.
    have hdeep : ¬ a.height ≤ k := by omega
    simp only [height_le_iff, Classical.not_forall, Nat.not_lt, exists_prop] at hdeep
    obtain ⟨c, hc, hle⟩ := hdeep
    have hlt := height_lt_of_child hc
    obtain ⟨b, hb⟩ := ih c (by omega)
    exact ⟨b, c, hc, hb⟩

/-- The depths that are checked for a value are those of nodes at and below it. -/
theorem le_of_mem_valueChecks {value : Node} (h : .depth d ∈ valueChecks depth value) :
    d ≤ depth + value.height := by
  induction value generalizing depth with
  | sequence items ih =>
    rw [valueChecks, itemChecks_eq_flatMap] at h
    simp only [List.mem_cons, Check.depth.injEq, reduceCtorEq, false_or, List.mem_flatMap] at h
    rcases h with rfl | ⟨item, hi, h⟩
    · omega
    · have hle := ih item hi h
      have hlt := Node.height_lt_of_child (child_sequence.mpr hi)
      omega
  | mapping entries | number value | string value | unsupported text =>
    rw [valueChecks] at h
    · simp only [List.mem_cons, Check.depth.injEq, reduceCtorEq, List.not_mem_nil, or_false] at h
      omega
    all_goals simp

/-- The depths that are checked for a named node and those below it are those of nodes at and below
it. -/
theorem le_of_mem_named {name : String} {node : Node}
    (h : .depth d ∈ (node.named depth name).flatMap Named.checks) : d ≤ depth + node.height := by
  induction node generalizing depth name with
  | mapping entries ih =>
    rw [Node.named, List.flatMap_cons, namedEntries_eq_flatMap, List.flatMap_assoc] at h
    simp only [Named.checks, Named.formChecks, List.mem_append, List.mem_cons, reduceCtorEq,
      Check.depth.injEq, List.not_mem_nil, or_false, false_or] at h
    rcases h with rfl | h
    · omega
    · obtain ⟨e, he, h⟩ := List.mem_flatMap.mp h
      have hle := ih e he h
      have hlt := Node.height_lt_of_child (child_mapping.mpr ⟨e, he, rfl⟩)
      omega
  | sequence items =>
    rw [Node.named, List.flatMap_singleton] at h
    · simp only [Named.checks, Named.formChecks, List.mem_cons, reduceCtorEq, false_or] at h
      have hmem : .depth d ∈ valueChecks depth (.sequence items) := by simpa [valueChecks] using h
      exact le_of_mem_valueChecks hmem
    · simp
  | number value | string value | unsupported text =>
    rw [Node.named, List.flatMap_singleton] at h
    · simp only [Named.checks, Named.formChecks, List.mem_cons, reduceCtorEq, Check.depth.injEq,
        List.not_mem_nil, or_false, false_or] at h
      omega
    all_goals simp

/-! ## Documents -/

variable {entries : List (String × Node)}

theorem compileNode_error_iff {cause : Rejection} :
    compileNode limit (.mapping entries) = .error cause ↔
      firstFault? limit ((namedEntries 1 entries).flatMap Named.checks) = some cause := by
  rw [compileNode_mapping_eq_result, runUntilRejected_entrySteps]
  cases firstFault? limit ((namedEntries 1 entries).flatMap Named.checks) <;> simp [Report.result]

theorem compileNode_of_passed
    (h : firstFault? limit ((namedEntries 1 entries).flatMap Named.checks) = none) :
    compileNode limit (.mapping entries) =
      .ok (Output.empty.append ((namedEntries 1 entries).map Named.unit)).text := by
  obtain ⟨left, hunits, hleft⟩ := exists_unitsBeforeFault_append limit (namedEntries 1 entries)
  rw [hleft.mpr h, List.append_nil] at hunits
  rw [compileNode_mapping_eq_result, runUntilRejected_entrySteps, h, hunits]
  rfl

/-- Unless it is a fault of depth, the outcome stays under a higher limit. -/
theorem compileNode_of_le (h : low ≤ high)
    (hne : ∀ d, compileNode low (.mapping entries) ≠ .error (.tooDeep d)) :
    compileNode high (.mapping entries) = compileNode low (.mapping entries) := by
  have hfault := firstFault?_of_le h _ fun d hd => hne d (compileNode_error_iff.mpr hd)
  cases hlow : firstFault? low ((namedEntries 1 entries).flatMap Named.checks) with
  | none => rw [compileNode_of_passed hlow, compileNode_of_passed (hfault.trans hlow)]
  | some cause =>
    rw [compileNode_error_iff.mpr hlow, compileNode_error_iff.mpr (hfault.trans hlow)]

theorem eq_of_entries_tooDeep
    (h : compileNode limit (.mapping entries) = .error (.tooDeep d)) : d = limit + 1 := by
  rw [compileNode_error_iff, namedEntries_eq_flatMap, List.flatMap_assoc] at h
  obtain ⟨e, -, h⟩ := exists_firstFault?_of_flatMap h
  exact eq_of_named_tooDeep (by omega) h

/-- Under a limit that the deepest node is within there are no faults of depth. -/
theorem compileNode_ne_tooDeep (h : (Node.mapping entries).height ≤ limit) (d : Nat) :
    compileNode limit (.mapping entries) ≠ .error (.tooDeep d) := by
  intro hd
  rw [compileNode_error_iff, namedEntries_eq_flatMap, List.flatMap_assoc] at hd
  obtain ⟨e, he, hd⟩ := exists_firstFault?_of_flatMap hd
  obtain ⟨hmem, hlt⟩ := mem_of_tooDeep hd
  have hle := le_of_mem_named hmem
  have hheight := Node.height_lt_of_child (child_mapping.mpr ⟨e, he, rfl⟩)
  omega

/-- The limit only ever cuts off. What is not rejected for its depth comes to the same under every
higher limit; a rejection for depth is for the level right below the limit; and the units that the
entries leave up to the first rejection are at the head of those under a higher limit. From the
level of the deepest node on the limit makes no difference. -/
theorem compileNode_limit (entries : List (String × Node)) :
    (∀ low high, low ≤ high →
      ((∀ d, compileNode low (.mapping entries) ≠ .error (.tooDeep d)) →
        compileNode high (.mapping entries) = compileNode low (.mapping entries)) ∧
      (∀ d, compileNode low (.mapping entries) = .error (.tooDeep d) → d = low + 1) ∧
      (runUntilRejected low .empty (entrySteps entries)).output.units.toList <+:
        (runUntilRejected high .empty (entrySteps entries)).output.units.toList) ∧
    ∃ level, (∃ b, Steps Child level (.mapping entries) b) ∧
      (∀ n b, Steps Child n (.mapping entries) b → n ≤ level) ∧
      ∀ limit, level ≤ limit →
        compileNode limit (.mapping entries) = compileNode level (.mapping entries) := by
  constructor
  · intro low high h
    refine ⟨compileNode_of_le h, fun d => eq_of_entries_tooDeep, ?_⟩
    simp only [runUntilRejected_entrySteps, Output.toList_units_append]
    exact (List.prefix_append_right_inj _).mpr (unitsBeforeFault_of_le h _)
  · refine ⟨(Node.mapping entries).height, Node.exists_steps_height _, fun n b hb => hb.le_height,
      fun limit hl => compileNode_of_le hl fun d => compileNode_ne_tooDeep (Nat.le_refl _) d⟩

/-- A document that is cut off under limit one, before a bad name that is met under limit two, the
level of its deepest node. -/
theorem compileNode_limit_cut :
    let entries : List (String × Node) :=
      [("A", .mapping [("B", .string "x")]), ("c", .string "y")]
    compileNode 1 (.mapping entries) = .error (.tooDeep 2) ∧ 2 = 1 + 1 ∧
      compileNode 2 (.mapping entries) = .error (.invalidName "c") ∧
      compileNode 9 (.mapping entries) = compileNode 2 (.mapping entries) ∧
      (runUntilRejected 1 .empty (entrySteps entries)).output.units.toList <+:
        (runUntilRejected 2 .empty (entrySteps entries)).output.units.toList ∧
      ∃ level, level = 2 ∧
        compileNode 3 (.mapping entries) = compileNode level (.mapping entries) := by
  intro entries
  have hone : compileNode 1 (.mapping entries) = .error (.tooDeep 2) := rfl
  have htwo : compileNode 2 (.mapping entries) = .error (.invalidName "c") := rfl
  obtain ⟨level, ⟨b, hb⟩, hmax, hlast⟩ := (compileNode_limit entries).2
  have hdeep : Steps Child 2 (.mapping entries) (.string "x") :=
    ⟨.mapping [("B", .string "x")], child_mapping.mpr ⟨_, List.mem_cons_self .., rfl⟩,
      .string "x", child_mapping.mpr ⟨_, List.mem_cons_self .., rfl⟩, rfl⟩
  have hlevel : level = 2 := Nat.le_antisymm hb.le_height (hmax 2 _ hdeep)
  have hcut := (compileNode_limit entries).1 1 2 (by decide)
  refine ⟨hone, hcut.2.1 2 hone, htwo, ?_, hcut.2.2, level, hlevel, hlast 3 (by omega)⟩
  exact ((compileNode_limit entries).1 2 9 (by decide)).1 (by simp [htwo])

end YamlDefs

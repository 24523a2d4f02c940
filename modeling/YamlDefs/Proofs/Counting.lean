import YamlDefs.Counting
import YamlDefs.Proofs.Limit

/-!
# Levels in words of 64 bits

The level below the greatest word does not exist. It is never asked for below the greatest limit,
since a level is counted on only after it has passed the limit; and under any limit it is never
asked for in a tree that ends before the greatest word.

* `Counting.Agrees`: counting so comes to the same as natural numbers, and nothing breaks off.
* `Counting.agrees_of_sound`: it does if the counting is right at the levels that a tree reaches
  within the limit, whatever it does at other levels.
* `Node.size`: the number of nodes of a tree; a tree is lower than that.
* `declareNode_counted`: the limits, levels and trees for which all three ways agree.
-/

namespace YamlDefs

open Writing

variable {limit depth : UInt64} {bound : Nat}

/-! ## Counting that is right where it matters -/

/-- A way of counting gives the next number at every level within the limit and below a bound. -/
def Counting.Sound (count : Counting) (limit : UInt64) (bound : Nat) : Prop :=
  ∀ depth ≤ limit, depth.toNat < bound →
    ∃ below, count.next depth = some below ∧ below.toNat = depth.toNat + 1

/-- Counting in words comes to the same as natural numbers for a value, a constant and a named node,
and does not break off. -/
structure Counting.Agrees (count : Counting) (limit depth : UInt64) (name : String)
    (node : Node) : Prop where
  value : count.checkValue limit depth node =
    liftM (require (YamlDefs.checkValue limit.toNat depth.toNat node))
  constant : count.declareConstant limit depth name node =
    liftM (YamlDefs.declareConstant limit.toNat depth.toNat name node)
  named : count.declareNode limit depth name node =
    liftM (YamlDefs.declareNode limit.toNat depth.toNat name node)

theorem checkLevel_eq (limit depth : UInt64) :
    checkLevel limit depth = checkDepth limit.toNat depth.toNat := by
  simp only [checkLevel, checkDepth, UInt64.lt_iff_toNat_lt]

/-- What follows the check of a level matters only at levels within the limit. -/
theorem checkLevel_bind_congr {first second : Counted Unit} (h : depth ≤ limit → first = second) :
    (do require (checkLevel limit depth); first) =
      (do require (checkDepth limit.toNat depth.toNat); second : Counted Unit) := by
  rw [← checkLevel_eq]
  by_cases hd : limit < depth
  · rw [checkLevel, if_pos hd]
    rfl
  · rw [h (UInt64.not_lt.mp hd)]

theorem require_bind (check next : Except Rejection Unit) :
    require (do check; next) = (do require check; require next) := by
  cases check <;> rfl

theorem Counting.below_eq_pure {count : Counting} {below : UInt64}
    (h : count.next depth = some below) : count.below depth = pure below := by
  rw [Counting.below, h]
  rfl

namespace Counting

variable {count : Counting} {name : String} {root node : Node}

theorem checkItems_eq {items : List Node}
    (h : ∀ item ∈ items, ∃ below, count.next depth = some below ∧
      count.checkValue limit below item =
        liftM (require (YamlDefs.checkValue limit.toNat (depth.toNat + 1) item))) :
    count.checkItems limit depth items =
      liftM (require (YamlDefs.checkItems limit.toNat (depth.toNat + 1) items)) := by
  induction items with
  | nil => rfl
  | cons item rest ih =>
    obtain ⟨⟨below, hnext, hitem⟩, hrest⟩ := List.forall_mem_cons.mp h
    rw [checkItems, YamlDefs.checkItems, below_eq_pure hnext, pure_bind, hitem, ih hrest,
      require_bind, liftM_bind]

/-- A value is checked by levels within the limit and above its deepest item only. -/
theorem checkValue_eq (hcount : count.Sound limit bound) (value : Node)
    (hb : depth.toNat + value.height ≤ bound) :
    count.checkValue limit depth value =
      liftM (require (YamlDefs.checkValue limit.toNat depth.toNat value)) := by
  induction value generalizing depth with
  | sequence items ih =>
    rw [checkValue, YamlDefs.checkValue, require_bind, liftM_bind]
    refine checkLevel_bind_congr fun hd => checkItems_eq fun item hi => ?_
    have hlower := Node.height_lt_of_child (child_sequence.mpr hi)
    obtain ⟨below, hnext, hbelow⟩ := hcount depth hd (by omega)
    refine ⟨below, hnext, ?_⟩
    rw [← hbelow]
    exact ih item hi (by omega)
  | mapping entries | number value | string value | unsupported text =>
    rw [checkValue, YamlDefs.checkValue, require_bind, liftM_bind]
    exact checkLevel_bind_congr fun _ => rfl

theorem declareConstant_eq (hcount : count.Sound limit bound) (name : String) (value : Node)
    (hb : depth.toNat + value.height ≤ bound) :
    count.declareConstant limit depth name value =
      liftM (YamlDefs.declareConstant limit.toNat depth.toNat name value) := by
  rw [declareConstant, YamlDefs.declareConstant, checkValue_eq hcount value hb, liftM_bind]
  simp only [liftM_bind]

theorem declareEntries_eq {entries : List (String × Node)}
    (h : ∀ e ∈ entries, ∃ below, count.next depth = some below ∧
      count.declareNode limit below e.1 e.2 =
        liftM (YamlDefs.declareNode limit.toNat (depth.toNat + 1) e.1 e.2)) :
    count.declareEntries limit depth entries =
      liftM (YamlDefs.declareEntries limit.toNat (depth.toNat + 1) entries) := by
  induction entries with
  | nil => rfl
  | cons e rest ih =>
    obtain ⟨⟨below, hnext, he⟩, hrest⟩ := List.forall_mem_cons.mp h
    rw [declareEntries, YamlDefs.declareEntries, below_eq_pure hnext, pure_bind, he, ih hrest,
      liftM_bind]

/-- A named node is declared by levels within the limit and above the deepest node below it only. -/
theorem declareNode_eq (hcount : count.Sound limit bound) (name : String) (node : Node)
    (hb : depth.toNat + node.height ≤ bound) :
    count.declareNode limit depth name node =
      liftM (YamlDefs.declareNode limit.toNat depth.toNat name node) := by
  induction node generalizing depth name with
  | mapping entries ih =>
    rw [declareNode, YamlDefs.declareNode]
    simp only [liftM_bind]
    refine bind_congr fun _ => checkLevel_bind_congr fun hd => bind_congr fun _ => ?_
    refine declareEntries_eq fun e he => ?_
    have hlower := Node.height_lt_of_child (child_mapping.mpr ⟨e, he, rfl⟩)
    obtain ⟨below, hnext, hbelow⟩ := hcount depth hd (by omega)
    refine ⟨below, hnext, ?_⟩
    rw [← hbelow]
    exact ih e he e.1 (by omega)
  | sequence items | number value | string value =>
    rw [declareNode, YamlDefs.declareNode, declareConstant_eq hcount _ _ hb]
    simp only [liftM_bind]
    exact bind_congr fun _ => checkLevel_bind_congr fun _ => rfl
  | unsupported text =>
    rw [declareNode, YamlDefs.declareNode]
    simp only [liftM_bind]
    exact bind_congr fun _ => checkLevel_bind_congr fun _ => rfl

/-- Counting that is right at the levels that a tree reaches within the limit comes to the same as
natural numbers. -/
theorem agrees_of_sound (hcount : count.Sound limit bound)
    (hb : depth.toNat + node.height ≤ bound) : count.Agrees limit depth name node where
  value := checkValue_eq hcount node hb
  constant := declareConstant_eq hcount name node hb
  named := declareNode_eq hcount name node hb

/-- The entries of a document stand at the first level, and no level is counted for them. -/
theorem declareDocument_eq (h : ∀ name node, Child root node → count.Agrees limit 1 name node) :
    count.declareDocument limit root = liftM (YamlDefs.declareDocument limit.toNat root) := by
  cases root with
  | mapping entries =>
    rw [declareDocument, YamlDefs.declareDocument]
    replace h : ∀ e ∈ entries, count.declareNode limit 1 e.1 e.2 =
        liftM (YamlDefs.declareNode limit.toNat 1 e.1 e.2) := fun e he =>
      (h e.1 e.2 (child_mapping.mpr ⟨e, he, rfl⟩)).named
    induction entries with
    | nil => rfl
    | cons e rest ih =>
      obtain ⟨he, hrest⟩ := List.forall_mem_cons.mp h
      rw [List.forM_cons, he, ih hrest, YamlDefs.declareEntries, liftM_bind]
  | sequence _ | number _ | string _ | unsupported _ => rfl

end Counting

/-! ## The three ways -/

mutual

/-- The number of nodes of a tree. -/
def Node.size : Node → Nat
  | .mapping entries => entriesSize entries + 1
  | .sequence items => itemsSize items + 1
  | _ => 1

/-- The number of nodes in the values of entries. -/
def entriesSize : List (String × Node) → Nat
  | [] => 0
  | (_, node) :: rest => node.size + entriesSize rest

/-- The number of nodes in items. -/
def itemsSize : List Node → Nat
  | [] => 0
  | item :: rest => item.size + itemsSize rest

end

theorem size_le_entriesSize {entries : List (String × Node)} {e : String × Node}
    (h : e ∈ entries) : e.2.size ≤ entriesSize entries := by
  induction entries with
  | nil => cases h
  | cons first rest ih =>
    rw [entriesSize]
    rcases List.mem_cons.mp h with rfl | h
    · exact Nat.le_add_right ..
    · exact Nat.le_add_left_of_le (ih h)

theorem size_le_itemsSize {items : List Node} {item : Node} (h : item ∈ items) :
    item.size ≤ itemsSize items := by
  induction items with
  | nil => cases h
  | cons first rest ih =>
    rw [itemsSize]
    rcases List.mem_cons.mp h with rfl | h
    · exact Nat.le_add_right ..
    · exact Nat.le_add_left_of_le (ih h)

theorem Node.size_lt_of_child {a b : Node} (h : Child a b) : b.size < a.size := by
  cases a with
  | mapping entries =>
    obtain ⟨e, he, rfl⟩ := child_mapping.mp h
    rw [size]
    exact Nat.lt_succ_of_le (size_le_entriesSize he)
  | sequence items =>
    rw [size]
    exact Nat.lt_succ_of_le (size_le_itemsSize (child_sequence.mp h))
  | number _ | string _ | unsupported _ => exact absurd h (not_child_of_leaf (by simp) (by simp))

theorem Node.size_pos (node : Node) : 0 < node.size := by
  cases node <;> simp [size]

/-- Each level of a tree has a node of its own. -/
theorem Steps.lt_size {n : Nat} {a b : Node} (h : Steps Child n a b) : n < a.size := by
  induction n generalizing a with
  | zero => exact a.size_pos
  | succ n ih =>
    obtain ⟨c, hc, hb⟩ := h
    exact Nat.lt_of_le_of_lt (ih hb) (Node.size_lt_of_child hc)

theorem Node.height_lt_size (node : Node) : node.height < node.size := by
  obtain ⟨b, hb⟩ := node.exists_steps_height
  exact hb.lt_size

namespace Counting

variable {count : Counting} {name : String} {root node : Node}

/-- The three ways of counting are right wherever words have a next one. -/
theorem sound_of_lt_size (hcount : count ∈ [wrapping, checked, upTo limit])
    (h : ∀ depth ≤ limit, depth.toNat < bound → depth.toNat + 1 < UInt64.size) :
    count.Sound limit bound := by
  intro depth hd hb
  have hlt := h depth hd hb
  refine ⟨depth + 1, ?_, ?_⟩
  · have hchecked : checked.next depth = some (depth + 1) := if_pos hlt
    simp only [List.mem_cons, List.not_mem_nil, or_false] at hcount
    rcases hcount with rfl | rfl | rfl
    · rfl
    · exact hchecked
    · exact (if_pos hd).trans hchecked
  · rw [UInt64.toNat_add]
    exact Nat.mod_eq_of_lt hlt

/-- Below the greatest limit every level within the limit has a next one. -/
theorem agrees_of_limit (hcount : count ∈ [wrapping, checked, upTo limit])
    (h : limit.toNat + 1 < UInt64.size) (depth : UInt64) (name : String) (node : Node) :
    count.Agrees limit depth name node := by
  refine agrees_of_sound (sound_of_lt_size hcount fun d hd _ => ?_) (Nat.le_refl _)
  have hle := UInt64.le_iff_toNat_le.mp hd
  omega

/-- A tree that ends before the greatest word has no level without a next one above its deepest. -/
theorem agrees_of_height (hcount : count ∈ [wrapping, checked, upTo limit])
    (h : depth.toNat + node.height < UInt64.size) (name : String) :
    count.Agrees limit depth name node :=
  agrees_of_sound (sound_of_lt_size hcount fun d _ hd => by omega) (Nat.le_refl _)

theorem agrees_of_size (hcount : count ∈ [wrapping, checked, upTo limit])
    (h : limit.toNat + 1 < UInt64.size ∨ node.size < UInt64.size) (name : String) :
    count.Agrees limit 1 name node := by
  rcases h with h | h
  · exact agrees_of_limit hcount h 1 name node
  · have hlt := node.height_lt_size
    have hone : (1 : UInt64).toNat = 1 := rfl
    exact agrees_of_height hcount (by omega) name

end Counting

/-- Levels that are counted in words come to the same as natural numbers, whether the counting goes
on with zero behind the greatest word, breaks off there, or breaks off at levels above the limit as
well: it is never asked for the level below one of these.

This holds at every level under every limit but the greatest word; under every limit where the level
and the height of the tree together are a word; and so from the first level on for every tree that
has fewer nodes than there are words, as each tree has whose nodes have addresses of their own. -/
theorem declareNode_counted (limit depth : UInt64) (name : String) (node : Node) :
    ∀ count ∈ [Counting.wrapping, .checked, .upTo limit],
      (limit.toNat + 1 < UInt64.size ∨ depth.toNat + node.height < UInt64.size →
        count.Agrees limit depth name node) ∧
      (limit.toNat + 1 < UInt64.size ∨ node.size < UInt64.size →
        count.Agrees limit 1 name node ∧
        count.declareDocument limit node = liftM (declareDocument limit.toNat node)) := by
  intro count hcount
  refine ⟨?_, fun h => ⟨Counting.agrees_of_size hcount h name, ?_⟩⟩
  · rintro (h | h)
    · exact Counting.agrees_of_limit hcount h depth name node
    · exact Counting.agrees_of_height hcount h name
  · refine Counting.declareDocument_eq fun key child hchild => ?_
    have hlt := Node.size_lt_of_child hchild
    exact Counting.agrees_of_size hcount (h.imp_right (by omega)) key

/-- Under the limit right below the greatest word, a level that is the greatest word is rejected;
under the greatest limit a tree may end with that level; and a document is declared as a whole. -/
theorem declareNode_counted_greatest :
    let last : UInt64 := 18446744073709551615
    let node : Node := .mapping [("B", .sequence [.string "x"])]
    let written : Output := ⟨#[.structureNamed "A"]⟩
    ((last - 1).toNat + 1 < UInt64.size ∧
      (Counting.wrapping.declareNode (last - 1) (last - 1) "A" node).run .empty =
        .error (.tooDeep 18446744073709551615) written) ∧
    ((last - 2).toNat + node.height < UInt64.size ∧
      Counting.checked.Agrees last (last - 2) "A" node) ∧
    (node.size < UInt64.size ∧
      (Counting.upTo last).declareDocument last node =
        liftM (declareDocument 18446744073709551615 node)) := by
  intro last node written
  have hlimit : (last - 1).toNat + 1 < UInt64.size := by decide
  have hheight : (last - 2).toNat + node.height < UInt64.size := by decide
  have hsize : node.size < UInt64.size := by decide
  have hwrapping := (declareNode_counted (last - 1) (last - 1) "A" node .wrapping (by simp)).1
  have hchecked := (declareNode_counted last (last - 2) "A" node .checked (by simp)).1
  have hdocument := (declareNode_counted last 1 "A" node (.upTo last) (by simp)).2
  refine ⟨⟨hlimit, ?_⟩, ⟨hheight, hchecked (.inr hheight)⟩, hsize, (hdocument (.inr hsize)).2⟩
  have hlevel : (last - 1).toNat = 18446744073709551614 := by decide
  rw [(hwrapping (.inl hlimit)).named, hlevel]
  rfl

/-- Under the greatest limit, an item below the greatest level is at level zero for a counting that
goes on there, and the value passes; the other counting breaks off. -/
example :
    let last : UInt64 := 18446744073709551615
    let value : Node := .sequence [.string "x"]
    (Counting.wrapping.checkValue last last value).run .empty = .ok (some ()) .empty ∧
      (Counting.checked.checkValue last last value).run .empty = .ok none .empty ∧
      checkValue last.toNat last.toNat value = .error (.tooDeep 18446744073709551616) :=
  ⟨rfl, rfl, rfl⟩

end YamlDefs

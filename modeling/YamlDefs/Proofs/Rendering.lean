import YamlDefs.Yaml.Value
import YamlDefs.Proofs.Place

/-!
# The text of a value

A value is displayed in three ways: by itself, as a key, and through its node. Collections are
displayed by way of their nodes, and tagged values are displayed before they become nodes, so that
the three go through each other. All of them come to one text, by plain recursion on the value.

* `Value.rendering`: that text. `Value.ind`: induction over values.
* `text_eq_rendering`, `text_toNode_eq_rendering`: the display of a value, and of its node.
* `Value.at?`: the value at a place; `at?_toNode`: the node there is the node of that value.
* `Value.ReportedAt`: the text of the value at the first place with a fault.
* `text_eq_keyText_eq_rendering`: the three displays, and the text by which a value is rejected that
  is unsupported or misplaced.
-/

namespace YamlDefs.Yaml.Value

/-! ## One text for each value -/

mutual

/-- The text of a value, from those of the values directly in it. -/
def rendering : Value → String
  | null => "null"
  | bool value => boolText value
  | number value => value.toNumber.text
  | string value => value
  | sequence items => "[" ++ Text.join ", " (itemRenderings items) ++ "]"
  | mapping entries => "\x7b" ++ Text.join ", " (entryRenderings entries) ++ "\x7d"
  | tagged tag value => tag ++ " " ++ value.rendering

/-- The text of each item of a sequence. -/
def itemRenderings : List Value → List String
  | [] => []
  | item :: rest => item.rendering :: itemRenderings rest

/-- The text of each entry of a mapping, whatever value its key is. -/
def entryRenderings : List (Value × Value) → List String
  | [] => []
  | (key, value) :: rest =>
    (key.rendering ++ ": " ++ value.rendering) :: entryRenderings rest

end

@[elab_as_elim, induction_eliminator]
theorem ind {motive : Value → Prop} (null : motive .null) (bool : ∀ value, motive (.bool value))
    (number : ∀ value, motive (.number value)) (string : ∀ value, motive (.string value))
    (sequence : ∀ items, (∀ item ∈ items, motive item) → motive (.sequence items))
    (mapping : ∀ entries, (∀ e ∈ entries, motive e.1 ∧ motive e.2) → motive (.mapping entries))
    (tagged : ∀ tag value, motive value → motive (.tagged tag value)) (v : Value) : motive v :=
  @Value.rec motive (fun items => ∀ item ∈ items, motive item)
    (fun entries => ∀ e ∈ entries, motive e.1 ∧ motive e.2) (fun e => motive e.1 ∧ motive e.2)
    null bool number string sequence mapping tagged
    (fun _ h => nomatch h) (fun _ _ head tail => List.forall_mem_cons.mpr ⟨head, tail⟩)
    (fun _ h => nomatch h) (fun _ _ head tail => List.forall_mem_cons.mpr ⟨head, tail⟩)
    (fun _ _ key value => ⟨key, value⟩) v

theorem itemRenderings_eq_map (items : List Value) :
    itemRenderings items = items.map rendering := by
  induction items with
  | nil => rfl
  | cons item rest ih => rw [itemRenderings, ih, List.map_cons]

theorem entryRenderings_eq_map (entries : List (Value × Value)) :
    entryRenderings entries = entries.map fun e => e.1.rendering ++ ": " ++ e.2.rendering := by
  induction entries with
  | nil => rfl
  | cons e rest ih => rw [entryRenderings, ih, List.map_cons]

theorem itemTexts_itemNodes {items : List Value}
    (h : ∀ item ∈ items, item.toNode.text = item.rendering) :
    Node.itemTexts (itemNodes items) = itemRenderings items := by
  rw [Node.itemTexts_eq_map, itemNodes_eq_map, List.map_map, itemRenderings_eq_map]
  exact List.map_congr_left h

theorem entryTexts_entryNodes {entries : List (Value × Value)}
    (h : ∀ e ∈ entries, e.1.keyText = e.1.rendering ∧ e.2.toNode.text = e.2.rendering) :
    Node.entryTexts (entryNodes entries) = entryRenderings entries := by
  rw [Node.entryTexts_eq_map, entryNodes_eq_map, List.map_map, entryRenderings_eq_map]
  refine List.map_congr_left fun e he => ?_
  obtain ⟨hkey, hvalue⟩ := h e he
  show e.1.keyText ++ ": " ++ e.2.toNode.text = _
  rw [hkey, hvalue]

/-- The display of a value and that of its node are its text. -/
theorem text_eq_rendering (v : Value) : v.text = v.rendering ∧ v.toNode.text = v.rendering := by
  induction v with
  | null | bool value | number value | string value =>
    rw [text, toNode, rendering, Node.text]
    exact ⟨rfl, rfl⟩
  | sequence items ih =>
    have hitems := itemTexts_itemNodes fun item hi => (ih item hi).2
    rw [text, toNode, rendering, Node.text, hitems]
    exact ⟨rfl, rfl⟩
  | mapping entries ih =>
    have hentries := entryTexts_entryNodes fun e he =>
      ⟨(keyText_eq_text e.1).trans (ih e he).1.1, (ih e he).2.2⟩
    rw [text, toNode, rendering, Node.text, hentries]
    exact ⟨rfl, rfl⟩
  | tagged tag value ih =>
    rw [text, toNode, rendering, Node.text, ih.1]
    exact ⟨rfl, rfl⟩

/-- A tagged mapping in a key of a mapping in a tagged sequence. -/
example :
    (tagged "!T" (sequence [mapping [(tagged "!U" (mapping [(null, bool true)]), string "x")],
      sequence []])).rendering = "!T [\x7b!U \x7bnull: true\x7d: x\x7d, []]" := rfl

/-! ## Values at places -/

/-- The values directly in a value that have a node of their own in its node. -/
def children : Value → List Value
  | sequence items => items
  | mapping entries => entries.map Prod.snd
  | _ => []

/-- The value at a place. -/
def at? (v : Value) : List Nat → Option Value
  | [] => some v
  | i :: place => v.children[i]?.bind fun u => u.at? place

theorem map_snd_children_toNode (v : Value) :
    v.toNode.children.map Prod.snd = v.children.map toNode := by
  cases v with
  | sequence items => simp [toNode, Node.children, children, itemNodes_eq_map]
  | mapping entries => simp [toNode, Node.children, children, entryNodes_eq_map]
  | null | bool value | number value | string value | tagged tag value =>
    simp [toNode, Node.children, children]

/-- At the same place there are a value in a value and its node in the node. -/
theorem at?_toNode (v : Value) (standing : Standing) (place : List Nat) :
    (v.toNode.at? standing place).map Prod.snd = (v.at? place).map toNode := by
  induction place generalizing v standing with
  | nil => rfl
  | cons i place ih =>
    have hchild : v.toNode.children[i]?.map Prod.snd = v.children[i]?.map toNode := by
      rw [← List.getElem?_map, map_snd_children_toNode, List.getElem?_map]
    rw [Node.at?, at?]
    cases hnode : v.toNode.children[i]? with
    | none =>
      cases hvalue : v.children[i]? with
      | none => rfl
      | some u => simp [hnode, hvalue] at hchild
    | some c =>
      cases hvalue : v.children[i]? with
      | none => simp [hnode, hvalue] at hchild
      | some u =>
        have hc : c.2 = u.toNode := by simpa [hnode, hvalue] using hchild
        rw [Option.bind_some, Option.bind_some, hc]
        exact ih u c.1

/-- A value is rejected by a text in a value whose node stands at a depth: at the first place with a
fault there is a value that is unsupported or a mapping where an item stands, and the text is its
own. -/
def ReportedAt (limit depth : Nat) (standing : Standing) (v : Value) (place : List Nat)
    (text : String) : Prop :=
  v.toNode.FirstFaultAt limit depth standing place (.invalidValue text) ∧
    ∃ u s, v.at? place = some u ∧ v.toNode.at? standing place = some (s, u.toNode) ∧
      (u.toNode.kind = .unsupported ∨ u.toNode.kind = .mapping ∧ s = .item) ∧ text = u.rendering

/-- Whatever is rejected as an invalid value is so by the text of the value there. -/
theorem reportedAt_iff {limit depth : Nat} {standing : Standing} {v : Value} {place : List Nat}
    {text : String} :
    v.ReportedAt limit depth standing place text ↔
      v.toNode.FirstFaultAt limit depth standing place (.invalidValue text) := by
  refine ⟨And.left, fun h => ⟨h, ?_⟩⟩
  obtain ⟨⟨s, node⟩, hnode, hfault⟩ := Option.bind_eq_some_iff.mp h.1
  obtain ⟨htext, hkind⟩ := s.of_fault?_eq_invalidValue hfault
  have hplace := v.at?_toNode standing place
  rw [hnode, Option.map_some, eq_comm, Option.map_eq_some_iff] at hplace
  obtain ⟨u, hu, rfl⟩ := hplace
  exact ⟨u, s, hu, hnode, hkind, htext.trans u.text_eq_rendering.2⟩

/-- A value has one text however it is displayed: by itself, as a key or through its node, it is the
text that plain recursion on the value gives. So whatever is rejected as an invalid value, be it in
a value that is checked, in a node that is declared or in a document, is rejected by the text of the
value at the place of the fault. -/
theorem text_eq_keyText_eq_rendering (v : Value) :
    v.text = v.rendering ∧ v.keyText = v.rendering ∧ v.toNode.text = v.rendering ∧
    (∀ limit depth text, checkValue limit depth v.toNode = .error (.invalidValue text) ↔
      ∃ place, v.ReportedAt limit depth .item place text) ∧
    (∀ limit depth name out text,
      (∃ after, declareNode limit depth name v.toNode out = .error (.invalidValue text) after) ↔
        ∃ place, v.ReportedAt limit depth (.entry name) place text) ∧
    ∀ limit text, compileNode limit v.toNode = .error (.invalidValue text) ↔
      ∃ place, v.ReportedAt limit 0 .root place text := by
  simp only [reportedAt_iff]
  exact ⟨v.text_eq_rendering.1, (keyText_eq_text v).trans v.text_eq_rendering.1,
    v.text_eq_rendering.2, fun _ _ _ => checkValue_error_iff, fun _ _ _ _ _ => declareNode_error_iff,
    fun _ _ => compileNode_error_iff_firstFaultAt⟩

end YamlDefs.Yaml.Value

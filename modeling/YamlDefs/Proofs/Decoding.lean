import YamlDefs.Proofs.Acceptance
import YamlDefs.Proofs.NumberText

/-!
# What a text tells about its document

Strings are written as they are, so a text can be decoded only where no string holds the quote that
ends it. Then every part of a text ends where its own characters say: a name and a number at the
first character that is none of theirs, a string at the second quote, a sequence at its bracket.

* `Written`, `Event`: what a value and a named node come to, with numbers by their canonical text.
* `append_inj_of_all`: two texts that begin with runs of one class divide at the same place.
* `literal_append_inj`: two values are the same, and so is what follows them, if the texts are.
* `compileNode_text_eq_iff`: two documents have the same text iff they have the same events.
-/

namespace YamlDefs

open YamlDefs.Text

/-! ## Events -/

/-- A value as its text tells it. -/
inductive Written where
  /-- A number, by its canonical text. -/
  | number (text : String)
  | string (text : String)
  | sequence (items : List Written)
  /-- What no declaration can hold, by its display. -/
  | other (text : String)

mutual

/-- What a text tells about a value. -/
def Node.written : Node → Written
  | .number value => .number value.text
  | .string value => .string value
  | .sequence items => .sequence (itemsWritten items)
  | .mapping entries => .other (Node.mapping entries).text
  | .unsupported text => .other text

/-- What a text tells about each item of a sequence. -/
def itemsWritten : List Node → List Written
  | [] => []
  | item :: rest => item.written :: itemsWritten rest

end

theorem itemsWritten_eq_map (items : List Node) : itemsWritten items = items.map Node.written := by
  induction items with
  | nil => rfl
  | cons item rest ih => rw [itemsWritten, ih, List.map_cons]

mutual

/-- The text of a value, from what it tells. -/
def Written.literal : Written → String
  | .number text => text
  | .string text => "\"" ++ text ++ "\""
  | .sequence items => "[ " ++ join " " (writtenLiterals items) ++ " ]"
  | .other text => text

/-- The text of each item of a sequence. -/
def writtenLiterals : List Written → List String
  | [] => []
  | item :: rest => item.literal :: writtenLiterals rest

end

theorem writtenLiterals_eq_map (items : List Written) :
    writtenLiterals items = items.map Written.literal := by
  induction items with
  | nil => rfl
  | cons item rest ih => rw [writtenLiterals, ih, List.map_cons]

theorem literal_written (v : Node) : v.written.literal = v.literal := by
  induction v with
  | sequence items ih =>
    have hitems : items.map (Written.literal ∘ Node.written) = items.map Node.literal :=
      List.map_congr_left ih
    rw [Node.written, Written.literal, itemsWritten_eq_map, writtenLiterals_eq_map, List.map_map,
      Node.literal, Node.itemLiterals_eq_map, hitems]
  | _ => rfl

/-- What a document declares at a named node. -/
inductive Event where
  /-- A structure begins: the node is a mapping. -/
  | structureNamed (name : String)
  /-- A constant is defined: the node is any other value. -/
  | constant (name : String) (value : Written)

/-- The unit of an event. -/
def Event.text : Event → String
  | .structureNamed name => "%\x7b\nЭто структура " ++ name ++ "\n%\x7d"
  | .constant name value => "def " ++ name ++ " := " ++ value.literal

/-- The event of a named node. -/
def Named.event (n : Named) : Event :=
  match n.node with
  | .mapping _ => .structureNamed n.name
  | value => .constant n.name value.written

theorem Named.text_event (n : Named) : n.event.text = n.text := by
  obtain ⟨depth, name, node⟩ := n
  cases node with
  | mapping entries => rfl
  | _ => exact congrArg ("def " ++ name ++ " := " ++ ·) (literal_written _)

/-- The events of a document, in document order. -/
def Node.events : Node → List Event
  | .mapping entries => (namedEntries 1 entries).map Named.event
  | _ => []

/-- No string at or below a node holds a double quote. -/
def QuoteFree (node : Node) : Prop :=
  ∀ n value, Steps Child n node (.string value) → '"' ∉ value.toList

/-- A value can be told from its text: all at or below it are numbers, sequences and strings
without double quotes. -/
def Legible (node : Node) : Prop :=
  ∀ n b, Steps Child n node b → (∀ entries, b ≠ .mapping entries) ∧
    (∀ text, b ≠ .unsupported text) ∧ ∀ value, b = .string value → '"' ∉ value.toList

theorem Storable.legible {limit depth : Nat} {node : Node} (hs : Storable limit depth node)
    (hq : QuoteFree node) : Legible node := by
  intro n b hb
  obtain ⟨-, hm, hu⟩ := hs n b hb
  refine ⟨hm, hu, ?_⟩
  rintro value rfl
  exact hq n value hb

theorem Legible.item {items : List Node} (h : Legible (.sequence items)) {item : Node}
    (hi : item ∈ items) : Legible item :=
  fun n b hb => h (n + 1) b (steps_succ_sequence.mpr ⟨item, hi, hb⟩)

/-! ## Dividing texts -/

/-- Two texts that begin with runs of one class, each ended by a character outside it or by the end
of the text, divide at the same place. -/
theorem append_inj_of_all {p : Char → Bool} {a b r s : List Char} (ha : ∀ c ∈ a, p c = true)
    (hb : ∀ c ∈ b, p c = true) (hr : ∀ c ∈ r.head?, p c = false) (hs : ∀ c ∈ s.head?, p c = false)
    (h : a ++ r = b ++ s) : a = b ∧ r = s := by
  have stop {t : List Char} (ht : ∀ c ∈ t.head?, p c = false) : t.takeWhile p = [] := by
    cases t with
    | nil => rfl
    | cons c t => exact List.takeWhile_cons_of_neg (by simp [ht c (by simp)])
  have hab : a = b := by
    calc a = (a ++ r).takeWhile p := by
          rw [List.takeWhile_append_of_pos ha, stop hr, List.append_nil]
      _ = (b ++ s).takeWhile p := by rw [h]
      _ = b := by rw [List.takeWhile_append_of_pos hb, stop hs, List.append_nil]
  subst hab
  exact ⟨rfl, List.append_cancel_left h⟩

/-- The value of a constant or an item ends here: the text ends, or a blank or a line feed
follows. -/
def Ended (cs : List Char) : Prop := ∀ c ∈ cs.head?, c = ' ' ∨ c = '\n'

theorem Ended.not_number {cs : List Char} (h : Ended cs) :
    ∀ c ∈ cs.head?, isNumberChar c = false := by
  intro c hc
  rcases h c hc with rfl | rfl <;> rfl

/-- Joined texts with the separator in front of each. -/
theorem toList_join_cons (separator s : String) (rest : List String) :
    separator.toList ++ (join separator (s :: rest)).toList =
      (s :: rest).flatMap fun t => separator.toList ++ t.toList := by
  induction rest generalizing s with
  | nil => simp
  | cons t rest ih =>
    rw [join_cons_cons, List.flatMap_cons, ← ih t]
    simp

/-! ## Values -/

/-- The items of a sequence from the blank before the first of them on. -/
def itemChars (items : List Node) : List Char :=
  items.flatMap (fun item => ' ' :: item.literal.toList) ++ [' ', ']']

theorem toList_literal_sequence_nil :
    (Node.sequence []).literal.toList = ['[', ' ', ' ', ']'] := rfl

theorem toList_literal_sequence_cons (item : Node) (rest : List Node) :
    (Node.sequence (item :: rest)).literal.toList = '[' :: itemChars (item :: rest) := by
  have h := toList_join_cons " " item.literal (rest.map Node.literal)
  rw [← List.map_cons, List.flatMap_map] at h
  calc (Node.sequence (item :: rest)).literal.toList
      = '[' :: (" ".toList ++ (join " " ((item :: rest).map Node.literal)).toList) ++
          " ]".toList := by
        rw [Node.literal, Node.itemLiterals_eq_map, String.toList_append, String.toList_append]
        rfl
    _ = '[' :: itemChars (item :: rest) := by rw [h]; rfl

theorem toList_literal_string (value : String) :
    (Node.string value).literal.toList = '"' :: (value.toList ++ ['"']) := by
  simp [Node.literal]

/-- The characters with which the text of a value of each form begins. -/
def Kind.opensWith (kind : Kind) (c : Char) : Bool :=
  match kind with
  | .string => c = '"'
  | .sequence => c = '['
  | _ => isNumberChar c

theorem Kind.eq_of_opensWith {k l : Kind} {c : Char} (hk : k.opensWith c = true)
    (hl : l.opensWith c = true) (hkm : k ≠ .mapping ∧ k ≠ .unsupported)
    (hlm : l ≠ .mapping ∧ l ≠ .unsupported) : k = l := by
  cases k <;> cases l <;> simp_all [opensWith] <;> simp [isNumberChar, Char.isDigit] at *

theorem Legible.kind {v : Node} (hv : Legible v) : v.kind ≠ .mapping ∧ v.kind ≠ .unsupported := by
  obtain ⟨hm, hu, -⟩ := hv 0 v rfl
  cases v with
  | mapping entries => exact absurd rfl (hm entries)
  | unsupported text => exact absurd rfl (hu text)
  | _ => simp [Node.kind]

/-- The first character of a value tells its form. -/
theorem exists_literal_eq_cons {v : Node} (hv : Legible v) :
    ∃ c cs, v.literal.toList = c :: cs ∧ v.kind.opensWith c = true := by
  cases v with
  | mapping entries => exact absurd rfl hv.kind.1
  | unsupported text => exact absurd rfl hv.kind.2
  | sequence items =>
    cases items with
    | nil => exact ⟨_, _, toList_literal_sequence_nil, rfl⟩
    | cons item rest => exact ⟨_, _, toList_literal_sequence_cons item rest, rfl⟩
  | string value => exact ⟨_, _, toList_literal_string value, rfl⟩
  | number value =>
    obtain ⟨c, cs, h⟩ := List.exists_cons_of_ne_nil value.toList_text_ne_nil
    refine ⟨c, cs, h, value.isNumberChar_of_mem_text ?_⟩
    rw [h]
    exact List.mem_cons_self

theorem kind_eq_of_literal_append {v w : Node} (hv : Legible v) (hw : Legible w) {r s : List Char}
    (h : v.literal.toList ++ r = w.literal.toList ++ s) : v.kind = w.kind := by
  obtain ⟨c, cs, hc, hcv⟩ := exists_literal_eq_cons hv
  obtain ⟨d, ds, hd, hdw⟩ := exists_literal_eq_cons hw
  rw [hc, hd, List.cons_append, List.cons_append, List.cons.injEq] at h
  rw [← h.1] at hdw
  exact Kind.eq_of_opensWith hcv hdw hv.kind hw.kind

theorem itemChars_nil_append (r : List Char) : itemChars [] ++ r = ' ' :: ']' :: r := rfl

theorem itemChars_cons_append (item : Node) (rest : List Node) (r : List Char) :
    itemChars (item :: rest) ++ r = ' ' :: (item.literal.toList ++ (itemChars rest ++ r)) := by
  simp [itemChars]

theorem ended_itemChars_append (items : List Node) (r : List Char) :
    Ended (itemChars items ++ r) := by
  cases items with
  | nil => simp [itemChars_nil_append, Ended]
  | cons item rest => simp [itemChars_cons_append, Ended]

/-- No value begins with a blank or a closing bracket. -/
theorem literal_append_ne {v : Node} (hv : Legible v) {c : Char} (hc : c = ' ' ∨ c = ']')
    (r s : List Char) : c :: r ≠ v.literal.toList ++ s := by
  obtain ⟨d, ds, hd, hdv⟩ := exists_literal_eq_cons hv
  intro h
  rw [hd, List.cons_append, List.cons.injEq] at h
  rw [← h.1] at hdv
  rcases hc with rfl | rfl <;> cases v <;> simp [Node.kind, Kind.opensWith, isNumberChar] at hdv

/-- The items of two sequences are the same, and so is what follows the sequences, if their texts
are; `h` says so of each item and any other value. -/
theorem itemChars_append_inj {xs ys : List Node} {r s : List Char}
    (h : ∀ x ∈ xs, ∀ y, Legible y → ∀ {r s : List Char}, Ended r → Ended s →
      x.literal.toList ++ r = y.literal.toList ++ s → x.written = y.written ∧ r = s)
    (hx : ∀ x ∈ xs, Legible x) (hy : ∀ y ∈ ys, Legible y)
    (he : itemChars xs ++ r = itemChars ys ++ s) :
    xs.map Node.written = ys.map Node.written ∧ r = s := by
  induction xs generalizing ys with
  | nil =>
    cases ys with
    | nil =>
      simp only [itemChars_nil_append, List.cons.injEq, true_and] at he
      exact ⟨rfl, he⟩
    | cons y ys =>
      rw [itemChars_nil_append, itemChars_cons_append, List.cons.injEq] at he
      exact absurd he.2 (literal_append_ne (hy y List.mem_cons_self) (.inr rfl) _ _)
  | cons x xs ih =>
    cases ys with
    | nil =>
      rw [itemChars_nil_append, itemChars_cons_append, List.cons.injEq] at he
      exact absurd he.2.symm (literal_append_ne (hx x List.mem_cons_self) (.inr rfl) _ _)
    | cons y ys =>
      rw [itemChars_cons_append, itemChars_cons_append, List.cons.injEq] at he
      obtain ⟨hxy, hrest⟩ := h x List.mem_cons_self y (hy y List.mem_cons_self)
        (ended_itemChars_append xs r) (ended_itemChars_append ys s) he.2
      obtain ⟨hmap, hrs⟩ := ih (fun x hm => h x (List.mem_cons_of_mem _ hm))
        (fun x hm => hx x (List.mem_cons_of_mem _ hm))
        (fun y hm => hy y (List.mem_cons_of_mem _ hm)) hrest
      exact ⟨by rw [List.map_cons, List.map_cons, hxy, hmap], hrs⟩

theorem sequence_append_inj {xs ys : List Node} {r s : List Char}
    (h : ∀ x ∈ xs, ∀ y, Legible y → ∀ {r s : List Char}, Ended r → Ended s →
      x.literal.toList ++ r = y.literal.toList ++ s → x.written = y.written ∧ r = s)
    (hx : ∀ x ∈ xs, Legible x) (hy : ∀ y ∈ ys, Legible y)
    (he : (Node.sequence xs).literal.toList ++ r = (Node.sequence ys).literal.toList ++ s) :
    xs.map Node.written = ys.map Node.written ∧ r = s := by
  -- The empty sequence has a blank where any other has its first item.
  cases xs with
  | nil =>
    cases ys with
    | nil => exact ⟨rfl, List.append_cancel_left he⟩
    | cons y ys =>
      rw [toList_literal_sequence_nil, toList_literal_sequence_cons] at he
      simp only [List.cons_append, itemChars_cons_append, List.cons.injEq, true_and] at he
      exact absurd he (literal_append_ne (hy y List.mem_cons_self) (.inl rfl) _ _)
  | cons x xs =>
    cases ys with
    | nil =>
      rw [toList_literal_sequence_nil, toList_literal_sequence_cons] at he
      simp only [List.cons_append, itemChars_cons_append, List.cons.injEq, true_and] at he
      exact absurd he.symm (literal_append_ne (hx x List.mem_cons_self) (.inl rfl) _ _)
    | cons y ys =>
      rw [toList_literal_sequence_cons, toList_literal_sequence_cons, List.cons_append,
        List.cons_append, List.cons.injEq] at he
      exact itemChars_append_inj h hx hy he.2

/-- Two values are the same, and so is what follows them, if their texts are. -/
theorem literal_append_inj {v w : Node} (hv : Legible v) (hw : Legible w) {r s : List Char}
    (hr : Ended r) (hs : Ended s) (h : v.literal.toList ++ r = w.literal.toList ++ s) :
    v.written = w.written ∧ r = s := by
  have hk := kind_eq_of_literal_append hv hw h
  induction v generalizing w r s with
  | mapping entries => exact absurd rfl hv.kind.1
  | unsupported text => exact absurd rfl hv.kind.2
  | number n =>
    cases w with
    | number m =>
      obtain ⟨ht, hrs⟩ := append_inj_of_all (fun _ => n.isNumberChar_of_mem_text)
        (fun _ => m.isNumberChar_of_mem_text) hr.not_number hs.not_number h
      exact ⟨congrArg Written.number (String.toList_inj.mp ht), hrs⟩
    | _ => cases hk
  | string a =>
    cases w with
    | string b =>
      rw [toList_literal_string, toList_literal_string, List.cons_append, List.cons_append,
        List.cons.injEq, List.append_assoc, List.append_assoc] at h
      have quoteless {value : String} (hv : Legible (.string value)) :
          ∀ c ∈ value.toList, decide (c ≠ '"') = true := by
        rintro c hc
        refine decide_eq_true fun he => (hv 0 _ rfl).2.2 value rfl ?_
        rwa [← he]
      obtain ⟨ht, hrs⟩ := append_inj_of_all (quoteless hv) (quoteless hw) (by simp) (by simp) h.2
      exact ⟨congrArg Written.string (String.toList_inj.mp ht), List.append_cancel_left hrs⟩
    | _ => cases hk
  | sequence xs ih =>
    cases w with
    | sequence ys =>
      have hitem {items : List Node} (hl : Legible (.sequence items)) :
          ∀ x ∈ items, Legible x := fun _ => hl.item
      obtain ⟨hmap, hrs⟩ := sequence_append_inj
        (fun x hx y hy _ _ hr hs he =>
          ih x hx (hitem hv x hx) hy hr hs he (kind_eq_of_literal_append (hitem hv x hx) hy he))
        (hitem hv) (hitem hw) h
      refine ⟨?_, hrs⟩
      rw [Node.written, Node.written, itemsWritten_eq_map, itemsWritten_eq_map, hmap]
    | _ => cases hk

/-! ## Units -/

/-- A named node whose text tells its event. -/
def Named.Legible (n : Named) : Prop :=
  IsName n.name ∧ ((∃ entries, n.node = .mapping entries) ∨ YamlDefs.Legible n.node)

theorem isNameChar_of_isName {name : String} (h : IsName name) :
    ∀ c ∈ name.toList, isNameChar c = true := by
  obtain ⟨c, cs, hname, hc, hcs⟩ := h
  intro d hd
  rw [hname] at hd
  rw [isNameChar_iff]
  rcases List.mem_cons.mp hd with rfl | hd
  · exact hc.imp_right .inl
  · exact hcs d hd

/-- The text of a mapping is its name between a fixed beginning and a fixed end. -/
theorem Named.toList_text_mapping (depth : Nat) (name : String) (entries : List (String × Node))
    (r : List Char) :
    (Named.text ⟨depth, name, .mapping entries⟩).toList ++ r =
      "%\x7b\nЭто структура ".toList ++ (name.toList ++ ("\n%\x7d".toList ++ r)) := by
  simp only [text, String.toList_append, List.append_assoc]

theorem Named.toList_text_constant (depth : Nat) (name : String) {value : Node}
    (hv : YamlDefs.Legible value) (r : List Char) :
    (Named.text ⟨depth, name, value⟩).toList ++ r =
      "def ".toList ++ (name.toList ++ (" := ".toList ++ (value.literal.toList ++ r))) := by
  cases value with
  | mapping entries => exact absurd rfl hv.kind.1
  | _ => simp only [text, String.toList_append, List.append_assoc]

theorem Named.event_constant (depth : Nat) (name : String) {value : Node}
    (hv : YamlDefs.Legible value) :
    Named.event ⟨depth, name, value⟩ = .constant name value.written := by
  cases value with
  | mapping entries => exact absurd rfl hv.kind.1
  | _ => rfl

/-- Two named nodes have the same event, and what follows them is the same, if their texts are and
each is the last or ends its line. -/
theorem Named.text_append_inj {n m : Named} (hn : n.Legible) (hm : m.Legible) {r s : List Char}
    (hr : ∀ c ∈ r.head?, c = '\n') (hs : ∀ c ∈ s.head?, c = '\n')
    (h : n.text.toList ++ r = m.text.toList ++ s) : n.event = m.event ∧ r = s := by
  obtain ⟨i, a, v⟩ := n
  obtain ⟨j, b, w⟩ := m
  have ha := isNameChar_of_isName hn.1
  have hb := isNameChar_of_isName hm.1
  rcases hn.2 with ⟨entries, rfl⟩ | hv <;> rcases hm.2 with ⟨entries', rfl⟩ | hw
  · rw [toList_text_mapping, toList_text_mapping] at h
    obtain ⟨hab, hrs⟩ := append_inj_of_all ha hb (by rintro c ⟨⟩; rfl) (by rintro c ⟨⟩; rfl)
      (List.append_cancel_left h)
    exact ⟨congrArg Event.structureNamed (String.toList_inj.mp hab), List.append_cancel_left hrs⟩
  · rw [toList_text_mapping, toList_text_constant j b hw] at h
    cases congrArg List.head? h
  · rw [toList_text_mapping, toList_text_constant i a hv] at h
    cases congrArg List.head? h
  · rw [toList_text_constant i a hv, toList_text_constant j b hw] at h
    obtain ⟨hab, hrest⟩ := append_inj_of_all ha hb (by rintro c ⟨⟩; rfl) (by rintro c ⟨⟩; rfl)
      (List.append_cancel_left h)
    obtain ⟨hvw, hrs⟩ := literal_append_inj hv hw (fun c hc => .inr (hr c hc))
      (fun c hc => .inr (hs c hc)) (List.append_cancel_left hrest)
    obtain rfl : a = b := String.toList_inj.mp hab
    rw [event_constant i a hv, event_constant j a hw]
    exact ⟨congrArg (Event.constant a) hvw, hrs⟩

/-- Units with a line feed in front of each. -/
def unitChars (nodes : List Named) : List Char := nodes.flatMap fun n => '\n' :: n.text.toList

theorem unitChars_cons (n : Named) (rest : List Named) :
    unitChars (n :: rest) = '\n' :: (n.text.toList ++ unitChars rest) := rfl

theorem head?_unitChars (nodes : List Named) : ∀ c ∈ (unitChars nodes).head?, c = '\n' := by
  cases nodes with
  | nil => simp [unitChars]
  | cons n rest => simp [unitChars_cons]

theorem unitChars_inj {xs ys : List Named} (hx : ∀ n ∈ xs, n.Legible) (hy : ∀ n ∈ ys, n.Legible)
    (h : unitChars xs = unitChars ys) : xs.map Named.event = ys.map Named.event := by
  induction xs generalizing ys with
  | nil =>
    cases ys with
    | nil => rfl
    | cons y ys => cases h
  | cons x xs ih =>
    cases ys with
    | nil => cases h
    | cons y ys =>
      obtain ⟨hxn, hxr⟩ := List.forall_mem_cons.mp hx
      obtain ⟨hyn, hyr⟩ := List.forall_mem_cons.mp hy
      rw [unitChars_cons, unitChars_cons, List.cons.injEq] at h
      obtain ⟨hev, hrest⟩ :=
        Named.text_append_inj hxn hyn (head?_unitChars xs) (head?_unitChars ys) h.2
      rw [List.map_cons, List.map_cons, hev, ih hxr hyr hrest]

theorem toList_join_text_cons (n : Named) (rest : List Named) :
    '\n' :: (join "\n" ((n :: rest).map Named.text)).toList = unitChars (n :: rest) := by
  have h := toList_join_cons "\n" n.text (rest.map Named.text)
  rw [← List.map_cons, List.flatMap_map] at h
  exact h

theorem Named.toList_text_ne_nil (n : Named) : n.text.toList ≠ [] := by
  obtain ⟨depth, name, node⟩ := n
  cases node <;> simp [text]

theorem join_text_cons_ne (n : Named) (rest : List Named) :
    join "\n" ((n :: rest).map Named.text) ≠ "" := by
  intro h
  have hj := toList_join_text_cons n rest
  rw [h, unitChars_cons, List.cons.injEq] at hj
  exact n.toList_text_ne_nil (List.append_eq_nil_iff.mp hj.2.symm).1

/-- The text of legible named nodes tells their events. -/
theorem join_text_inj {xs ys : List Named} (hx : ∀ n ∈ xs, n.Legible) (hy : ∀ n ∈ ys, n.Legible)
    (h : join "\n" (xs.map Named.text) = join "\n" (ys.map Named.text)) :
    xs.map Named.event = ys.map Named.event := by
  cases xs with
  | nil =>
    cases ys with
    | nil => rfl
    | cons y ys => exact absurd h.symm (join_text_cons_ne y ys)
  | cons x xs =>
    cases ys with
    | nil => exact absurd h (join_text_cons_ne x xs)
    | cons y ys =>
      refine unitChars_inj hx hy ?_
      rw [← toList_join_text_cons, ← toList_join_text_cons, h]

/-! ## Documents -/

theorem quoteFree_mapping {entries : List (String × Node)} :
    QuoteFree (.mapping entries) ↔ ∀ e ∈ entries, QuoteFree e.2 := by
  constructor
  · exact fun h e he n value hn => h (n + 1) value (steps_succ_mapping.mpr ⟨e, he, hn⟩)
  · rintro h (_ | n) value hn
    · cases hn
    · obtain ⟨e, he, hn⟩ := steps_succ_mapping.mp hn
      exact h e he n value hn

theorem quoteFree_string {value : String} :
    QuoteFree (.string value) ↔ '"' ∉ value.toList := by
  constructor
  · exact fun h => h 0 value rfl
  · intro h n other hn
    obtain ⟨-, ho⟩ := (steps_leaf (by simp) (by simp)).mp hn
    cases ho
    exact h

theorem legible_of_mem_named {limit depth : Nat} {name : String} {node : Node} (hn : IsName name)
    (hd : Declarable limit depth node) (hq : QuoteFree node) :
    ∀ m ∈ node.named depth name, m.Legible := by
  induction node generalizing depth name with
  | mapping entries ih =>
    rw [Node.named, List.forall_mem_cons, namedEntries_eq_flatMap]
    refine ⟨⟨hn, .inl ⟨entries, rfl⟩⟩, fun m hm => ?_⟩
    obtain ⟨e, he, hm⟩ := List.mem_flatMap.mp hm
    obtain ⟨hname, hvalue⟩ := (declarable_mapping.mp hd).2 e he
    exact ih e he hname hvalue (quoteFree_mapping.mp hq e he) m hm
  | unsupported text => exact absurd hd (not_declarable_unsupported text)
  | sequence _ | number _ | string _ =>
    have hs := hd.storable (by simp)
    rw [Node.named, List.forall_mem_singleton]
    · exact ⟨hn, .inr (hs.legible hq)⟩
    all_goals simp

theorem legible_of_mem_namedEntries {limit : Nat} {entries : List (String × Node)}
    (hd : Declarable limit 0 (.mapping entries)) (hq : QuoteFree (.mapping entries)) :
    ∀ n ∈ namedEntries 1 entries, n.Legible := by
  intro n hn
  rw [namedEntries_eq_flatMap] at hn
  obtain ⟨e, he, hn⟩ := List.mem_flatMap.mp hn
  obtain ⟨hname, hvalue⟩ := (declarable_mapping.mp hd).2 e he
  exact legible_of_mem_named hname hvalue (quoteFree_mapping.mp hq e he) n hn

/-- The text of named nodes, from their events. -/
theorem map_text_eq (nodes : List Named) :
    nodes.map Named.text = (nodes.map Named.event).map Event.text := by
  rw [List.map_map]
  exact List.map_congr_left fun n _ => n.text_event.symm

/-- Two documents without double quotes in their strings have the same text iff they have the same
events. -/
theorem compileNode_text_eq_iff {limit limit' : Nat} {root root' : Node} {text text' : String}
    (h : compileNode limit root = .ok text) (h' : compileNode limit' root' = .ok text')
    (hq : QuoteFree root) (hq' : QuoteFree root') :
    text = text' ↔ root.events = root'.events := by
  obtain ⟨entries, rfl⟩ := exists_entries_of_compileNode h
  obtain ⟨entries', rfl⟩ := exists_entries_of_compileNode h'
  obtain ⟨hd, rfl⟩ := compileNode_mapping_ok_iff.mp h
  obtain ⟨hd', rfl⟩ := compileNode_mapping_ok_iff.mp h'
  constructor
  · exact join_text_inj (legible_of_mem_namedEntries hd hq) (legible_of_mem_namedEntries hd' hq')
  · intro he
    rw [map_text_eq, map_text_eq]
    exact congrArg (fun events : List Event => join "\n" (events.map Event.text)) he

/-- A string that goes on with what looks like a structure is told from a string and a structure. -/
theorem compileNode_text_eq_iff_imitation :
    let imitating : Node := .mapping [("A", .string "x\n%\x7b\nЭто структура S\n%\x7d")]
    let declaring : Node := .mapping [("A", .string "x"), ("S", .mapping [("B", .string "")])]
    let text := "def A := \"x\n%\x7b\nЭто структура S\n%\x7d\""
    let text' := "def A := \"x\"\n%\x7b\nЭто структура S\n%\x7d\ndef B := \"\""
    compileNode 1 imitating = .ok text ∧ compileNode 128 declaring = .ok text' ∧
      QuoteFree imitating ∧ QuoteFree declaring ∧
      (text = text' ↔ imitating.events = declaring.events) := by
  intro imitating declaring text text'
  have h : compileNode 1 imitating = .ok text := rfl
  have h' : compileNode 128 declaring = .ok text' := rfl
  have hq : QuoteFree imitating := by
    simp [imitating, quoteFree_mapping, quoteFree_string]
  have hq' : QuoteFree declaring := by
    simp [declaring, quoteFree_mapping, quoteFree_string]
  exact ⟨h, h', hq, hq', compileNode_text_eq_iff h h' hq hq'⟩

end YamlDefs

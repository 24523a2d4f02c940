import YamlDefs.Proofs.Binary64.Notation
import YamlDefs.Yaml.Value

/-!
# The text of a number tells the number

Numbers that are written alike are the same number of the same kind. An integer has no point, no
exponent and no word in its text, and a double has one of them; an integer without a sign is
unsigned only where no signed one could be written like it.

* `decimalInt_inj`: integers; `Binary64.canonicalText_eq_iff`: doubles.
* `Number.Canonical`: a number that is unsigned only beyond the signed ones.
* `Number.Same`: the same kind and value, all NaNs being one.
* `Number.text_eq_iff_same`: among canonical numbers, which are all that are ever made, the text
  tells the number.
-/

namespace YamlDefs

open YamlDefs.Text

namespace Text

/-! ## Integers -/

theorem decimal_ne_cons_minus (n : Nat) (cs : List Char) : decimal n ≠ '-' :: cs := fun h => by
  have : '-'.isDigit = true := isDigit_of_mem_decimal (h ▸ List.mem_cons_self)
  cases this

theorem decimalInt_inj {m n : Int} : decimalInt m = decimalInt n ↔ m = n := by
  refine ⟨fun h => ?_, congrArg decimalInt⟩
  unfold decimalInt at h
  split at h <;> split at h
  · have := decimal_inj.mp (List.cons.inj h).2
    omega
  · exact absurd h.symm (decimal_ne_cons_minus _ _)
  · exact absurd h (decimal_ne_cons_minus _ _)
  · have := decimal_inj.mp h
    omega

/-- A character of the text of an integer. -/
def isIntegerChar (c : Char) : Bool := c.isDigit || c = '-'

theorem isIntegerChar_of_mem_decimal {n : Nat} {c : Char} (h : c ∈ decimal n) :
    isIntegerChar c = true := by
  simp [isIntegerChar, isDigit_of_mem_decimal h]

theorem isIntegerChar_of_mem_decimalInt {n : Int} {c : Char} (h : c ∈ decimalInt n) :
    isIntegerChar c = true := by
  unfold decimalInt at h
  split at h
  · rcases List.mem_cons.mp h with rfl | h
    · rfl
    · exact isIntegerChar_of_mem_decimal h
  · exact isIntegerChar_of_mem_decimal h

end Text

namespace Binary64

variable {x y : Binary64}

/-! ## Doubles -/

/-- The text of a double without its sign. -/
def unsignedText (x : Binary64) : List Char :=
  if x.isInfinite then "inf".toList else x.magnitudeText

theorem canonicalText_of_isNaN (h : x.isNaN = true) : x.canonicalText = "nan".toList := if_pos h

theorem canonicalText_of_not_isNaN (h : x.isNaN = false) :
    x.canonicalText = if x.isNegative then '-' :: x.unsignedText else x.unsignedText :=
  if_neg (Bool.eq_false_iff.mp h)

/-- In positional notation a digit comes first. -/
theorem exists_positional_eq_cons {d : Digits} (hd : ∀ c ∈ d.digits, c.isDigit = true) :
    ∃ c cs, d.positional.1 = c :: cs ∧ c.isDigit = true := by
  have hne : d.positional.1 ≠ [] := fun h => by
    have hlen := congrArg List.length h
    unfold Digits.positional at hlen
    dsimp only at hlen
    split at hlen
    · cases hlen
    · rw [List.length_append, List.length_take, List.length_replicate, List.length_nil] at hlen
      omega
  obtain ⟨c, cs, htext⟩ := List.exists_cons_of_ne_nil hne
  exact ⟨c, cs, htext, (isDigit_of_mem_positional hd).1 c (htext ▸ List.mem_cons_self)⟩

/-- The text of a magnitude begins with a digit, and has a point or an exponent. -/
theorem magnitudeText_shape (x : Binary64) :
    (∃ c cs, x.magnitudeText = c :: cs ∧ c.isDigit = true) ∧
      ('.' ∈ x.magnitudeText ∨ 'e' ∈ x.magnitudeText) := by
  have hd : ∀ c ∈ x.digits.digits, c.isDigit = true := fun c => isDigit_of_mem_digits
  unfold magnitudeText
  dsimp only
  split
  · obtain ⟨c, cs, htext, hc⟩ := exists_positional_eq_cons hd
    rw [htext]
    exact ⟨⟨c, _, rfl, hc⟩, .inl (by simp)⟩
  · unfold Digits.scientific
    dsimp only
    split
    · exact ⟨⟨'0', _, rfl, rfl⟩, .inr (by simp)⟩
    · next c h => exact ⟨⟨c, _, rfl, hd c (h ▸ List.mem_cons_self)⟩, .inr (by simp)⟩
    · next c cs _ h => exact ⟨⟨c, _, rfl, hd c (h ▸ List.mem_cons_self)⟩, .inr (by simp)⟩

/-- The text of an unsigned double begins with a digit or as the word for infinity. -/
theorem exists_unsignedText_eq_cons (x : Binary64) :
    ∃ c cs, x.unsignedText = c :: cs ∧ (c.isDigit = true ∨ c = 'i') ∧
      (x.isInfinite = true ↔ c = 'i') := by
  unfold unsignedText
  split
  · next h => exact ⟨'i', ['n', 'f'], rfl, .inr rfl, by simp [h]⟩
  · next h =>
    obtain ⟨⟨c, cs, htext, hc⟩, -⟩ := x.magnitudeText_shape
    refine ⟨c, cs, htext, .inl hc, ?_⟩
    have hne : c ≠ 'i' := by
      rintro rfl
      cases hc
    simp [h, hne]

theorem magnitude_eq_of_unsignedText (h : x.unsignedText = y.unsignedText) :
    x.magnitude = y.magnitude := by
  obtain ⟨c, cs, hx, -, hxi⟩ := x.exists_unsignedText_eq_cons
  obtain ⟨d, ds, hy, -, hyi⟩ := y.exists_unsignedText_eq_cons
  obtain ⟨rfl, rfl⟩ := List.cons.inj (hx.symm.trans (h.trans hy))
  by_cases hi : c = 'i'
  · have hxm : x.magnitude = infinityBits := of_decide_eq_true (hxi.mpr hi)
    have hym : y.magnitude = infinityBits := of_decide_eq_true (hyi.mpr hi)
    rw [hxm, hym]
  · unfold unsignedText at h
    rw [if_neg (hi ∘ hxi.mp), if_neg (hi ∘ hyi.mp)] at h
    exact magnitude_eq_of_magnitudeText h

/-- The sign of a double stands in front of all else. -/
theorem unsignedText_ne_cons_minus (x : Binary64) (cs : List Char) :
    x.unsignedText ≠ '-' :: cs := by
  obtain ⟨c, ds, hx, hc, -⟩ := x.exists_unsignedText_eq_cons
  rw [hx]
  rintro h
  obtain ⟨rfl, -⟩ := List.cons.inj h
  rcases hc with hc | hc <;> cases hc

theorem canonicalText_ne_nan (h : x.isNaN = false) : x.canonicalText ≠ "nan".toList := by
  have hword : "nan".toList = 'n' :: ['a', 'n'] := rfl
  obtain ⟨c, ds, hx, hc, -⟩ := x.exists_unsignedText_eq_cons
  rw [canonicalText_of_not_isNaN h, hword, hx]
  split
  · rintro ⟨⟩
  · rintro ⟨⟩
    rcases hc with hc | hc <;> cases hc

theorem eq_of_canonicalText (hx : x.isNaN = false) (hy : y.isNaN = false)
    (h : x.canonicalText = y.canonicalText) : x = y := by
  rw [canonicalText_of_not_isNaN hx, canonicalText_of_not_isNaN hy] at h
  cases hxs : x.isNegative <;> cases hys : y.isNegative <;> rw [hxs, hys] at h
  · exact eq_of_sign_of_magnitude (hxs.trans hys.symm) (magnitude_eq_of_unsignedText h)
  · exact absurd h (x.unsignedText_ne_cons_minus _)
  · exact absurd h.symm (y.unsignedText_ne_cons_minus _)
  · exact eq_of_sign_of_magnitude (hxs.trans hys.symm)
      (magnitude_eq_of_unsignedText (List.cons.inj h).2)

/-- The text of a double tells it from every other, but not one NaN from another. -/
theorem canonicalText_eq_iff :
    x.canonicalText = y.canonicalText ↔ x.isNaN = true ∧ y.isNaN = true ∨ x = y := by
  constructor
  · intro h
    cases hx : x.isNaN <;> cases hy : y.isNaN
    · exact .inr (eq_of_canonicalText hx hy h)
    · exact absurd (h.trans (canonicalText_of_isNaN hy)) (canonicalText_ne_nan hx)
    · exact absurd (h.symm.trans (canonicalText_of_isNaN hx)) (canonicalText_ne_nan hy)
    · exact .inl ⟨rfl, rfl⟩
  · rintro (⟨hx, hy⟩ | rfl)
    · rw [canonicalText_of_isNaN hx, canonicalText_of_isNaN hy]
    · rfl

/-- The text of a double has a character that no integer has. -/
theorem exists_mem_canonicalText (x : Binary64) :
    ∃ c ∈ x.canonicalText, isIntegerChar c = false := by
  cases hx : x.isNaN with
  | true => exact ⟨'n', by rw [canonicalText_of_isNaN hx]; decide, rfl⟩
  | false =>
    have h : ∃ c ∈ x.unsignedText, isIntegerChar c = false := by
      unfold unsignedText
      split
      · exact ⟨'n', by decide, rfl⟩
      · rcases x.magnitudeText_shape.2 with h | h
        · exact ⟨'.', h, rfl⟩
        · exact ⟨'e', h, rfl⟩
    obtain ⟨c, hc, hne⟩ := h
    rw [canonicalText_of_not_isNaN hx]
    split
    · exact ⟨c, List.mem_cons_of_mem _ hc, hne⟩
    · exact ⟨c, hc, hne⟩

end Binary64

/-! ## Numbers -/

namespace Number

/-- A number is unsigned only if it is greater than all signed ones. -/
def Canonical : Number → Prop
  | int _ | float _ => True
  | uint value => Int64.maxValue.toInt < value.toNat

/-- The same kind of number with the same value: all NaNs are one, and the two zeros are two. -/
def Same : Number → Number → Prop
  | int a, int b => a = b
  | uint a, uint b => a = b
  | float x, float y => x.isNaN = true ∧ y.isNaN = true ∨ x = y
  | _, _ => False

theorem canonical_ofUInt64 (value : UInt64) : (ofUInt64 value).Canonical := by
  unfold ofUInt64
  split
  · trivial
  · next h =>
    have hmax : Int64.maxValue.toInt = 9223372036854775807 := by decide
    have hpow : Nat.pow 2 63 = 9223372036854775808 := by decide
    unfold Canonical
    omega

theorem canonical_toNumber (n : Yaml.Numeral) : n.toNumber.Canonical := by
  cases n with
  | natural value => exact canonical_ofUInt64 value
  | negative value => trivial
  | float value => trivial

/-- Numbers that are unsigned are not written like signed ones. -/
theorem text_int_ne_text_uint {a : Int64} {b : UInt64} (hb : (uint b).Canonical) :
    (int a).text ≠ (uint b).text := by
  intro h
  have htext : decimalInt a.toInt = decimalInt b.toNat := by
    have : decimalInt (b.toNat : Int) = decimal b.toNat := by simp [decimalInt]
    rw [this]
    exact String.ofList_inj.mp h
  have heq := decimalInt_inj.mp htext
  have hle := a.toInt_le
  unfold Canonical at hb
  omega

/-- No integer is written like a double. -/
theorem text_ne_text_float {n : Number} {x : Binary64} (hn : ∀ y, n ≠ float y) :
    n.text ≠ (float x).text := by
  intro h
  obtain ⟨c, hc, hne⟩ := x.exists_mem_canonicalText
  cases n with
  | int a =>
    rw [← String.ofList_inj.mp h] at hc
    rw [isIntegerChar_of_mem_decimalInt hc] at hne
    cases hne
  | uint b =>
    rw [← String.ofList_inj.mp h] at hc
    rw [isIntegerChar_of_mem_decimal hc] at hne
    cases hne
  | float y => exact hn y rfl

/-- All numbers that are made, for a number of a document, an integer or a double, are canonical,
and canonical numbers have the same text just if they are the same. -/
theorem text_eq_iff_same :
    ((∀ n : Yaml.Numeral, n.toNumber.Canonical) ∧ (∀ a : Int64, (int a).Canonical) ∧
      (∀ b : UInt64, (ofUInt64 b).Canonical) ∧ ∀ x : Binary64, (float x).Canonical) ∧
    ∀ m n : Number, m.Canonical → n.Canonical → (m.text = n.text ↔ m.Same n) := by
  refine ⟨⟨canonical_toNumber, fun _ => trivial, canonical_ofUInt64, fun _ => trivial⟩,
    fun m n hm hn => ?_⟩
  cases m with
  | int a =>
    cases n with
    | int b =>
      rw [text, text, String.ofList_inj, decimalInt_inj]
      exact Int64.toInt_inj
    | uint b => exact iff_of_false (text_int_ne_text_uint hn) id
    | float y => exact iff_of_false (text_ne_text_float (by simp)) id
  | uint a =>
    cases n with
    | int b => exact iff_of_false (text_int_ne_text_uint hm).symm id
    | uint b =>
      rw [text, text, String.ofList_inj, decimal_inj]
      exact UInt64.toNat_inj
    | float y => exact iff_of_false (text_ne_text_float (by simp)) id
  | float x =>
    cases n with
    | int b => exact iff_of_false (text_ne_text_float (by simp)).symm id
    | uint b => exact iff_of_false (text_ne_text_float (by simp)).symm id
    | float y =>
      rw [text, text, String.ofList_inj]
      exact Binary64.canonicalText_eq_iff

/-- The first unsigned number, the double and the signed number nearest to it, two NaNs and both
zeros. -/
theorem text_eq_iff_same_edges :
    let first := uint 9223372036854775808
    let double := float ⟨0x43E0000000000000⟩
    let last := int 9223372036854775807
    first.Canonical ∧ double.Canonical ∧ last.Canonical ∧ first.text ≠ double.text ∧
      first.text ≠ last.text ∧
      (float ⟨0x7FF8000000000000⟩).text = (float ⟨0xFFF0000000000001⟩).text ∧
      (float ⟨0⟩).text ≠ (float ⟨0x8000000000000000⟩).text := by
  intro first double last
  have hfirst : first.Canonical := by
    unfold first Canonical
    decide
  have hiff := text_eq_iff_same.2
  refine ⟨hfirst, trivial, trivial, fun h => ?_, fun h => ?_,
    (hiff (float ⟨0x7FF8000000000000⟩) (float ⟨0xFFF0000000000001⟩) trivial trivial).mpr
      (.inl (by decide +kernel)), fun h => ?_⟩
  · exact (hiff first double hfirst trivial).mp h
  · exact (hiff first last hfirst trivial).mp h
  · have hsame := (hiff (float ⟨0⟩) (float ⟨0x8000000000000000⟩) trivial trivial).mp h
    simp only [Same] at hsame
    revert hsame
    decide +kernel

end Number

end YamlDefs

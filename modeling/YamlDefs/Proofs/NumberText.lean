import YamlDefs.Number

/-!
# The characters of numbers

The text of a number has a character, and all its characters are digits, signs, points and the
letters of `e`, `inf` and `nan`. So no blank, quote or bracket stands in it.

* `isNumberChar`: that class.
* `Number.isNumberChar_of_mem_text`, `Number.toList_text_ne_nil`: the text of a number lies in that
  class and is not empty.
-/

namespace YamlDefs

open YamlDefs.Text

/-- A character of the text of a number. -/
def isNumberChar (c : Char) : Bool :=
  c.isDigit || ['-', '.', 'e', 'i', 'n', 'f', 'a'].contains c

theorem isNumberChar_of_isDigit {c : Char} (h : c.isDigit = true) : isNumberChar c = true := by
  simp [isNumberChar, h]

namespace Text

theorem isDigit_digitOf {d : Nat} (h : d < 10) : (digitOf d).isDigit = true := by
  match d, h with
  | 0, _ | 1, _ | 2, _ | 3, _ | 4, _ | 5, _ | 6, _ | 7, _ | 8, _ | 9, _ => rfl

theorem isDigit_of_mem_decimal {n : Nat} {c : Char} (h : c ∈ decimal n) : c.isDigit = true := by
  induction n using Nat.strongRecOn with
  | ind n ih =>
    rw [decimal] at h
    split at h
    · next hn =>
      cases List.mem_singleton.mp h
      exact isDigit_digitOf hn
    · rcases List.mem_append.mp h with h | h
      · exact ih (n / 10) (Nat.div_lt_self (by omega) (by decide)) h
      · cases List.mem_singleton.mp h
        exact isDigit_digitOf (Nat.mod_lt n (by decide))

theorem all_isNumberChar_of_isDigit {cs : List Char} (h : ∀ c ∈ cs, c.isDigit = true) :
    cs.all isNumberChar = true :=
  List.all_eq_true.mpr fun c hc => isNumberChar_of_isDigit (h c hc)

theorem all_isNumberChar_decimal (n : Nat) : (decimal n).all isNumberChar = true :=
  all_isNumberChar_of_isDigit fun _ => isDigit_of_mem_decimal

theorem all_isNumberChar_decimalInt (n : Int) : (decimalInt n).all isNumberChar = true := by
  unfold decimalInt
  split
  · rw [List.all_cons, all_isNumberChar_decimal]
    rfl
  · exact all_isNumberChar_decimal _

theorem decimalInt_ne_nil (n : Int) : decimalInt n ≠ [] := by
  unfold decimalInt
  split
  · simp
  · exact decimal_ne_nil _

end Text

namespace Binary64

theorem isDigit_of_mem_digits {x : Binary64} {c : Char} (h : c ∈ x.digits.digits) :
    c.isDigit = true := by
  unfold digits at h
  split at h
  · cases h
  · have hs : c ∈ decimal x.shortest.coefficient := by
      have := (List.dropWhile_sublist _).mem (List.mem_reverse.mp h)
      exact List.mem_reverse.mp this
    exact isDigit_of_mem_decimal hs

variable {d : Digits}

/-- Both parts of positional notation have digits only. -/
theorem all_isNumberChar_positional (hd : ∀ c ∈ d.digits, c.isDigit = true) :
    d.positional.1.all isNumberChar = true ∧ d.positional.2.all isNumberChar = true := by
  have hzeros (n : Nat) : (List.replicate n '0').all isNumberChar = true :=
    all_isNumberChar_of_isDigit fun c hc => by rw [List.eq_of_mem_replicate hc]; rfl
  have htake (n : Nat) : (d.digits.take n).all isNumberChar = true :=
    all_isNumberChar_of_isDigit fun c hc => hd c (List.mem_of_mem_take hc)
  have hdrop (n : Nat) : (d.digits.drop n).all isNumberChar = true :=
    all_isNumberChar_of_isDigit fun c hc => hd c (List.mem_of_mem_drop hc)
  unfold Digits.positional
  dsimp only
  split
  · exact ⟨rfl, by rw [List.all_append, hzeros, all_isNumberChar_of_isDigit hd]; rfl⟩
  · exact ⟨by rw [List.all_append, htake, hzeros]; rfl, hdrop _⟩

theorem all_isNumberChar_scientific (hd : ∀ c ∈ d.digits, c.isDigit = true) :
    d.scientific.all isNumberChar = true := by
  have hexp := all_isNumberChar_decimalInt (d.point - 1)
  have hmark : isNumberChar 'e' = true ∧ isNumberChar '.' = true ∧ isNumberChar '0' = true := by
    decide
  have hall := all_isNumberChar_of_isDigit hd
  unfold Digits.scientific
  dsimp only
  split
  · simp [hexp, hmark]
  · next c hl => simp_all
  · next c cs _ hl => simp_all

theorem all_isNumberChar_magnitudeText (x : Binary64) :
    x.magnitudeText.all isNumberChar = true := by
  have hd : ∀ c ∈ x.digits.digits, c.isDigit = true := fun c => isDigit_of_mem_digits
  obtain ⟨hwhole, hfraction⟩ := all_isNumberChar_positional hd
  have hmark : isNumberChar '.' = true ∧ isNumberChar '0' = true := by decide
  unfold magnitudeText
  dsimp only
  split
  · rw [List.all_append, List.all_cons, hwhole]
    split <;> simp [hfraction, hmark]
  · exact all_isNumberChar_scientific hd

theorem magnitudeText_ne_nil (x : Binary64) : x.magnitudeText ≠ [] := by
  unfold magnitudeText
  dsimp only
  split
  · simp
  · unfold Digits.scientific
    dsimp only
    split <;> simp

theorem all_isNumberChar_canonicalText (x : Binary64) :
    x.canonicalText.all isNumberChar = true := by
  have hwords : "nan".toList.all isNumberChar = true ∧ "inf".toList.all isNumberChar = true ∧
      isNumberChar '-' = true := by decide
  have hm := all_isNumberChar_magnitudeText x
  unfold canonicalText
  dsimp only
  split
  · exact hwords.1
  · split <;> split <;> simp only [List.all_cons, hwords, hm, Bool.and_self]

theorem canonicalText_ne_nil (x : Binary64) : x.canonicalText ≠ [] := by
  unfold canonicalText
  dsimp only
  split
  · decide
  · split
    · simp
    · split
      · decide
      · exact magnitudeText_ne_nil x

end Binary64

namespace Number

theorem isNumberChar_of_mem_text {n : Number} {c : Char} (h : c ∈ n.text.toList) :
    isNumberChar c = true := by
  have hall : n.text.toList.all isNumberChar = true := by
    cases n with
    | int value => simpa [text] using all_isNumberChar_decimalInt value.toInt
    | uint value => simpa [text] using all_isNumberChar_decimal value.toNat
    | float value => simpa [text] using value.all_isNumberChar_canonicalText
  exact List.all_eq_true.mp hall c h

theorem toList_text_ne_nil (n : Number) : n.text.toList ≠ [] := by
  cases n with
  | int value => simpa [text] using decimalInt_ne_nil value.toInt
  | uint value => simpa [text] using decimal_ne_nil value.toNat
  | float value => simpa [text] using value.canonicalText_ne_nil

end Number

end YamlDefs

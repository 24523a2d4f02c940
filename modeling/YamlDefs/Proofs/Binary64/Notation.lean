import Mathlib.Data.List.TakeWhile
import Mathlib.Tactic.Ring
import YamlDefs.Proofs.Binary64.Interval
import YamlDefs.Proofs.NumberText

/-!
# The number that a text of digits stands for

In either form the text of a magnitude stands for a number: its digits, moved by the exponent and
the places behind the point. For the text of a double that is a number from which the double reads
back, so that the text tells its magnitude.

* `digitsValue`: the number that digits stand for; `notationFine`: the number of fine units that a
  text with a point or an exponent stands for.
* `notationFine_scientific`, `notationFine_positional`: what both forms stand for.
* `readsBack_notationFine`: the text of a magnitude reads back as the double.
* `magnitude_eq_of_magnitudeText`: different magnitudes have different texts.
-/

namespace YamlDefs

namespace Text

/-! ## Digits -/

/-- The number that decimal digits stand for. -/
def digitsValue (ds : List Char) : Nat := ds.foldl (fun v c => v * 10 + (c.toNat - '0'.toNat)) 0

theorem digitsValue_append (cs ds : List Char) :
    digitsValue (cs ++ ds) = digitsValue cs * 10 ^ ds.length + digitsValue ds := by
  have h (v : Nat) : ds.foldl (fun v c => v * 10 + (c.toNat - '0'.toNat)) v =
      v * 10 ^ ds.length + digitsValue ds := by
    unfold digitsValue
    induction ds generalizing v with
    | nil => simp
    | cons d ds ih =>
      rw [List.foldl_cons, List.foldl_cons, ih, ih (0 * 10 + (d.toNat - '0'.toNat)),
        List.length_cons]
      ring
  rw [digitsValue, List.foldl_append, h]
  rfl

theorem digitsValue_zeros (n : Nat) : digitsValue (List.replicate n '0') = 0 := by
  induction n with
  | zero => rfl
  | succ n ih => exact ih

/-- Digits stand for the number whose digits they are. -/
theorem digitsValue_decimal (n : Nat) : digitsValue (decimal n) = n := by
  have hdigit {d : Nat} (h : d < 10) : digitsValue [digitOf d] = d := by
    match d, h with
    | 0, _ | 1, _ | 2, _ | 3, _ | 4, _ | 5, _ | 6, _ | 7, _ | 8, _ | 9, _ => rfl
  induction n using Nat.strongRecOn with
  | ind n ih =>
    rw [decimal]
    split
    · next h => exact hdigit h
    · rw [digitsValue_append, ih (n / 10) (Nat.div_lt_self (by omega) (by decide)),
        hdigit (Nat.mod_lt n (by decide)), List.length_singleton]
      omega

/-- The exponent that a text begins with, or else zero. -/
def exponentValue : List Char → Int
  | 'e' :: '-' :: ds => -(digitsValue ds : Int)
  | 'e' :: ds => digitsValue ds
  | _ => 0

theorem exponentValue_decimalInt (n : Int) : exponentValue ('e' :: decimalInt n) = n := by
  unfold decimalInt
  split
  · simp only [exponentValue, digitsValue_decimal]
    omega
  · obtain ⟨d, ds, hd⟩ := List.exists_cons_of_ne_nil (decimal_ne_nil n.natAbs)
    have hne : d ≠ '-' := by
      rintro rfl
      have := isDigit_of_mem_decimal (n := n.natAbs) (hd ▸ List.mem_cons_self)
      cases this
    have hvalue : exponentValue ('e' :: d :: ds) = digitsValue (d :: ds) := by
      unfold exponentValue
      split <;> simp_all
    rw [hd, hvalue, ← hd, digitsValue_decimal]
    omega

end Text

namespace Binary64

open YamlDefs.Text

/-! ## Texts with a point or an exponent -/

/-- How many fine units a text stands for that has digits, perhaps a point and digits behind it, and
perhaps an exponent. -/
def notationFine (cs : List Char) : Nat :=
  let whole := cs.takeWhile Char.isDigit
  let behind := cs.dropWhile Char.isDigit
  let (fraction, tail) : List Char × List Char :=
    match behind with
    | '.' :: ds => (ds.takeWhile Char.isDigit, ds.dropWhile Char.isDigit)
    | ds => ([], ds)
  digitsValue (whole ++ fraction) *
    10 ^ (exponentValue tail - fraction.length + finePlaces).toNat

variable {whole fraction tail : List Char} {d : Digits} {k : Nat} {x y : Binary64}

/-- Digits end where no digit follows. -/
theorem span_digits (hw : ∀ c ∈ whole, c.isDigit = true)
    (ht : ∀ c ∈ tail.head?, c.isDigit = false) :
    (whole ++ tail).takeWhile Char.isDigit = whole ∧
      (whole ++ tail).dropWhile Char.isDigit = tail := by
  rw [List.takeWhile_append_of_pos hw, List.dropWhile_append_of_pos hw]
  cases tail with
  | nil => simp
  | cons c cs => simp [ht c rfl]

theorem notationFine_point (hw : ∀ c ∈ whole, c.isDigit = true)
    (hf : ∀ c ∈ fraction, c.isDigit = true) (ht : ∀ c ∈ tail.head?, c.isDigit = false) :
    notationFine (whole ++ '.' :: (fraction ++ tail)) = digitsValue (whole ++ fraction) *
      10 ^ (exponentValue tail - fraction.length + finePlaces).toNat := by
  have hpoint : ∀ c ∈ ('.' :: (fraction ++ tail)).head?, c.isDigit = false := by
    rintro c ⟨⟩
    rfl
  obtain ⟨hwhole, hbehind⟩ := span_digits hw hpoint
  obtain ⟨hfraction, htail⟩ := span_digits hf ht
  simp only [notationFine, hwhole, hbehind, hfraction, htail]

theorem notationFine_exponent (hw : ∀ c ∈ whole, c.isDigit = true) (exponent : List Char) :
    notationFine (whole ++ 'e' :: exponent) = digitsValue whole *
      10 ^ (exponentValue ('e' :: exponent) + finePlaces).toNat := by
  have hmark : ∀ c ∈ ('e' :: exponent).head?, c.isDigit = false := by
    rintro c ⟨⟩
    rfl
  obtain ⟨hwhole, hbehind⟩ := span_digits hw hmark
  simp only [notationFine, hwhole, hbehind]
  simp

/-! ## The two forms -/

/-- Scientific notation stands for its digits, moved to the point. -/
theorem notationFine_scientific (hd : ∀ c ∈ d.digits, c.isDigit = true)
    (hk : d.point - d.digits.length + finePlaces = k) :
    notationFine d.scientific = digitsValue d.digits * 10 ^ k := by
  unfold Digits.scientific
  dsimp only
  split
  · next hnil =>
    rw [hnil]
    have hzero : ∀ c ∈ ['0'], c.isDigit = true := List.forall_mem_singleton.mpr rfl
    simpa [digitsValue] using notationFine_exponent hzero (decimalInt (d.point - 1))
  · next c hone =>
    rw [hone] at hd hk ⊢
    have htext := notationFine_exponent hd (decimalInt (d.point - 1))
    rw [exponentValue_decimalInt, List.singleton_append] at htext
    rw [htext]
    congr 2
    simp only [List.length_singleton] at hk
    omega
  · next c cs _ hcons =>
    rw [hcons] at hd hk ⊢
    have hc : ∀ b ∈ [c], b.isDigit = true :=
      List.forall_mem_singleton.mpr (hd c List.mem_cons_self)
    have hcs : ∀ b ∈ cs, b.isDigit = true := fun b hb => hd b (List.mem_cons_of_mem _ hb)
    have hmark : ∀ b ∈ ('e' :: decimalInt (d.point - 1)).head?, b.isDigit = false := by
      rintro b ⟨⟩
      rfl
    have htext := notationFine_point hc hcs hmark
    rw [exponentValue_decimalInt, List.singleton_append, List.singleton_append] at htext
    rw [List.cons_append, List.cons_append, htext]
    congr 2
    rw [List.length_cons] at hk
    omega

theorem notationFine_places (hw : ∀ c ∈ whole, c.isDigit = true)
    (hf : ∀ c ∈ fraction, c.isDigit = true) : notationFine (whole ++ '.' :: fraction) =
      digitsValue (whole ++ fraction) * 10 ^ (finePlaces - fraction.length : Int).toNat := by
  have hnil : ∀ c ∈ ([] : List Char).head?, c.isDigit = false := by
    rintro c ⟨⟩
  have htext := notationFine_point hw hf hnil
  rw [List.append_nil] at htext
  rw [htext]
  congr 2
  simp only [exponentValue]
  omega

/-- A zero for an empty fraction adds nothing. -/
theorem notationFine_padded (hw : ∀ c ∈ whole, c.isDigit = true)
    (hf : ∀ c ∈ fraction, c.isDigit = true) :
    notationFine (whole ++ '.' :: (if fraction.isEmpty then ['0'] else fraction)) =
      digitsValue (whole ++ fraction) * 10 ^ (finePlaces - fraction.length : Int).toNat := by
  split
  · next hempty =>
    have hnil : fraction = [] := List.isEmpty_iff.mp hempty
    have hzero : digitsValue ['0'] = 0 := rfl
    have hplaces : (finePlaces - (['0'] : List Char).length : Int).toNat = finePlaces - 1 := rfl
    have hall : (finePlaces - ([] : List Char).length : Int).toNat = finePlaces - 1 + 1 := rfl
    rw [notationFine_places hw (List.forall_mem_singleton.mpr rfl), hnil, List.append_nil,
      digitsValue_append, hzero, hplaces, hall, List.length_singleton]
    ring
  · exact notationFine_places hw hf

theorem isDigit_of_mem_positional (hd : ∀ c ∈ d.digits, c.isDigit = true) :
    (∀ c ∈ d.positional.1, c.isDigit = true) ∧ ∀ c ∈ d.positional.2, c.isDigit = true := by
  have hzeros (n : Nat) : ∀ c ∈ List.replicate n '0', c.isDigit = true := fun c hc => by
    rw [List.eq_of_mem_replicate hc]
    rfl
  unfold Digits.positional
  dsimp only
  split
  · exact ⟨hzeros 1, List.forall_mem_append.mpr ⟨hzeros _, hd⟩⟩
  · exact ⟨List.forall_mem_append.mpr ⟨fun c hc => hd c (List.mem_of_mem_take hc), hzeros _⟩,
      fun c hc => hd c (List.mem_of_mem_drop hc)⟩

/-- Whole part and fraction together are the digits, but for zeros that the point asks for. -/
theorem digitsValue_positional (hk : d.point - d.digits.length + finePlaces = k) :
    digitsValue (d.positional.1 ++ d.positional.2) *
        10 ^ (finePlaces - d.positional.2.length : Int).toNat = digitsValue d.digits * 10 ^ k := by
  unfold Digits.positional
  dsimp only
  split
  · -- the point stands in front of all digits
    next hp =>
    have hvalue : digitsValue (['0'] ++ (List.replicate (-d.point).toNat '0' ++ d.digits)) =
        digitsValue d.digits := by
      rw [digitsValue_append, digitsValue_append, digitsValue_zeros]
      simp [digitsValue]
    rw [hvalue, List.length_append, List.length_replicate]
    congr 2
    omega
  · next hp =>
    rcases Nat.le_total d.digits.length d.point.toNat with hlen | hlen
    · -- the point stands behind all digits
      have hexp : k = d.point.toNat - d.digits.length + finePlaces := by omega
      have hall : (finePlaces - ([] : List Char).length : Int).toNat = finePlaces := rfl
      rw [List.take_of_length_le hlen, List.drop_of_length_le hlen, List.append_nil,
        digitsValue_append, digitsValue_zeros, List.length_replicate, Nat.add_zero, hall, hexp,
        pow_add, Nat.mul_assoc]
    · -- the point stands among the digits
      rw [Nat.sub_eq_zero_of_le hlen, List.replicate_zero, List.append_nil,
        List.take_append_drop, List.length_drop]
      congr 2
      omega

/-- Positional notation, with a zero for an empty fraction, stands for its digits, moved to the
point. -/
theorem notationFine_positional (hd : ∀ c ∈ d.digits, c.isDigit = true)
    (hk : d.point - d.digits.length + finePlaces = k) :
    notationFine (d.positional.1 ++
        '.' :: (if d.positional.2.isEmpty then ['0'] else d.positional.2)) =
      digitsValue d.digits * 10 ^ k := by
  obtain ⟨hw, hf⟩ := isDigit_of_mem_positional hd
  rw [notationFine_padded hw hf, digitsValue_positional hk]

/-! ## Doubles -/

/-- The digits of a decimal, moved to the point, make up its value. -/
theorem exists_digits_value (d : Decimal) : ∃ k : Nat,
    d.digits.point - d.digits.digits.length + finePlaces = k ∧
      digitsValue d.digits.digits * 10 ^ k = d.fine := by
  have hzeros : ((decimal d.coefficient).reverse.takeWhile (· = '0')).reverse =
      List.replicate ((decimal d.coefficient).reverse.takeWhile (· = '0')).length '0' := by
    rw [List.eq_replicate_iff]
    refine ⟨List.length_reverse, fun c hc => ?_⟩
    simpa using List.mem_takeWhile_imp (List.mem_reverse.mp hc)
  have hall : decimal d.coefficient = d.digits.digits ++
      ((decimal d.coefficient).reverse.takeWhile (· = '0')).reverse := by
    have := congrArg List.reverse (List.takeWhile_append_dropWhile
      (p := (· = '0')) (l := (decimal d.coefficient).reverse))
    rw [List.reverse_append, List.reverse_reverse] at this
    exact this.symm
  generalize ((decimal d.coefficient).reverse.takeWhile (· = '0')).length = z at hzeros
  rw [hzeros] at hall
  have hpoint : d.digits.point = (decimal d.coefficient).length + d.place - finePlaces := rfl
  refine ⟨z + d.place, ?_, ?_⟩
  · rw [hpoint, hall, List.length_append, List.length_replicate]
    omega
  · have hvalue : d.coefficient = digitsValue d.digits.digits * 10 ^ z := by
      rw [← digitsValue_decimal d.coefficient, hall, digitsValue_append, digitsValue_zeros,
        List.length_replicate, Nat.add_zero]
    rw [Decimal.fine, hvalue, Nat.pow_eq, pow_add, Nat.mul_assoc]

/-- The text of a magnitude reads back as the double. -/
theorem readsBack_notationFine (x : Binary64) :
    x.readsBack (notationFine x.magnitudeText) = true := by
  have hd : ∀ c ∈ x.digits.digits, c.isDigit = true := fun c => isDigit_of_mem_digits
  obtain ⟨k, hk, hback⟩ : ∃ k : Nat, x.digits.point - x.digits.digits.length + finePlaces = k ∧
      x.readsBack (digitsValue x.digits.digits * 10 ^ k) = true := by
    by_cases hz : x.isZero = true
    · have hdigits : x.digits = ⟨[], 0⟩ := if_pos hz
      have hfine : x.fine = 0 := by
        have hm : x.magnitude = 0 := of_decide_eq_true hz
        rw [fine, units_eq, hm]
        exact Nat.zero_mul _
      refine ⟨finePlaces, by rw [hdigits]; rfl, ?_⟩
      have := x.readsBack_fine
      rw [hfine] at this
      simpa [hdigits, digitsValue] using this
    · have hdigits : x.digits = x.shortest.digits := if_neg hz
      obtain ⟨k, hk, hvalue⟩ := exists_digits_value x.shortest
      rw [hdigits]
      exact ⟨k, hk, hvalue ▸ x.readsBack_shortest⟩
  unfold magnitudeText
  dsimp only
  split
  · rwa [notationFine_positional hd hk]
  · rwa [notationFine_scientific hd hk]

/-- Different magnitudes have different texts. -/
theorem magnitude_eq_of_magnitudeText (h : x.magnitudeText = y.magnitudeText) :
    x.magnitude = y.magnitude := by
  have hx := x.readsBack_notationFine
  rw [h] at hx
  exact magnitude_eq_of_readsBack hx y.readsBack_notationFine

end Binary64

end YamlDefs

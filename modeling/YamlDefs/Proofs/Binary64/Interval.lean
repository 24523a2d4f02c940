import Mathlib.Order.Monotone.Basic
import Mathlib.Tactic.Ring
import YamlDefs.Binary64.Shortest

/-!
# Intervals of rounding

The numbers that round to a double form an interval around it, up to the middle between it and its
neighbours. The intervals of two magnitudes meet at most in such a middle, and that belongs to the
even one of them, so that no number rounds to both.

* `unitsAt`, `ulpAt`: units and distances by magnitude; `unitsAt_succ`: the next magnitude is one
  `ulp` away.
* `middle`: the upper end of an interval; `lowerEnd_succ`: the lower end of the next one.
* `magnitude_eq_of_readsBack`: a number reads back as one magnitude only.
-/

namespace YamlDefs.Binary64

variable {x y : Binary64} {m n v : Nat}

/-! ## Neighbours -/

/-- The power of two, in units, that separates a magnitude from the next. -/
def scaleAt (m : Nat) : Nat := m / 2 ^ 52 - 1

/-- The distance, in units, from a magnitude to the next. -/
def ulpAt (m : Nat) : Nat := 2 ^ scaleAt m

/-- A magnitude in units. -/
def unitsAt (m : Nat) : Nat := (m - scaleAt m * 2 ^ 52) * ulpAt m

/-- How far the interval of a magnitude reaches down, in quarters of a unit: half an `ulp`, or half
the distance to the magnitude below where that is smaller. -/
def reachBelow (m : Nat) : Nat :=
  if m - scaleAt m * 2 ^ 52 = 2 ^ 52 ∧ 0 < scaleAt m then ulpAt m else 2 * ulpAt m

theorem units_eq (x : Binary64) : x.units = unitsAt x.magnitude := rfl

theorem ulp_eq (x : Binary64) : x.ulp = ulpAt x.magnitude := rfl

theorem ulpAt_pos (m : Nat) : 0 < ulpAt m := Nat.two_pow_pos _

/-- With the magnitude either the significand goes up, or the scale does from the largest
significand to the smallest. -/
theorem succ_cases (m : Nat) :
    (scaleAt (m + 1) = scaleAt m ∧ ¬ (m + 1 - scaleAt m * 2 ^ 52 = 2 ^ 52 ∧ 0 < scaleAt m) ∧
        scaleAt m * 2 ^ 52 ≤ m) ∨
      scaleAt (m + 1) = scaleAt m + 1 ∧ m - scaleAt m * 2 ^ 52 = 2 ^ 53 - 1 ∧
        m + 1 - (scaleAt m + 1) * 2 ^ 52 = 2 ^ 52 := by
  unfold scaleAt
  omega

theorem unitsAt_succ (m : Nat) : unitsAt (m + 1) = unitsAt m + ulpAt m := by
  unfold unitsAt ulpAt
  rcases succ_cases m with ⟨hs, -, hle⟩ | ⟨hs, hlast, hnext⟩
  · rw [hs, Nat.sub_add_comm hle]
    ring
  · rw [hs, hnext, hlast, pow_succ 2 (scaleAt m)]
    ring

/-- Halfway to the magnitude above, in quarters of a unit. -/
def middle (m : Nat) : Nat := 4 * unitsAt m + 2 * ulpAt m

/-- An interval begins where the one below it ends. -/
theorem lowerEnd_succ (m : Nat) : 4 * unitsAt (m + 1) - reachBelow (m + 1) = middle m := by
  have hreach : reachBelow (m + 1) = 2 * ulpAt m := by
    unfold reachBelow ulpAt
    rcases succ_cases m with ⟨hs, hm, -⟩ | ⟨hs, -, hnext⟩
    · rw [hs, if_neg hm]
    · rw [hs, hnext, if_pos ⟨rfl, Nat.succ_pos _⟩, pow_succ 2 (scaleAt m), Nat.mul_comm]
  rw [hreach, unitsAt_succ, middle]
  omega

theorem middle_strictMono : StrictMono middle := by
  refine strictMono_nat_of_lt_succ fun m => ?_
  have hpos := ulpAt_pos (m + 1)
  unfold middle
  rw [unitsAt_succ]
  have := ulpAt_pos m
  omega

/-! ## Intervals -/

theorem significand_mod_two (x : Binary64) : x.significand % 2 = x.magnitude % 2 := by
  have h : x.significand = x.magnitude - (x.magnitude / 2 ^ 52 - 1) * 2 ^ 52 := rfl
  omega

/-- The ends of an interval in quarters of a fine unit. -/
theorem readsBack_iff : x.readsBack v = true ↔
    if x.magnitude % 2 = 0 then
      (4 * unitsAt x.magnitude - reachBelow x.magnitude) * finePerUnit ≤ 4 * v ∧
        4 * v ≤ middle x.magnitude * finePerUnit
    else
      (4 * unitsAt x.magnitude - reachBelow x.magnitude) * finePerUnit < 4 * v ∧
        4 * v < middle x.magnitude * finePerUnit := by
  have hlow : 4 * x.fine - (if x.narrowBelow then x.fineUlp else 2 * x.fineUlp) =
      (4 * unitsAt x.magnitude - reachBelow x.magnitude) * finePerUnit := by
    have hnarrow : x.narrowBelow = true ↔
        x.magnitude - scaleAt x.magnitude * 2 ^ 52 = 2 ^ 52 ∧ 0 < scaleAt x.magnitude := by
      rw [narrowBelow, Bool.and_eq_true, decide_eq_true_eq, decide_eq_true_eq]
      rfl
    rw [Nat.sub_mul, reachBelow, fine, fineUlp, units_eq, ulp_eq]
    by_cases h : x.narrowBelow = true
    · rw [if_pos h, if_pos (hnarrow.mp h), Nat.mul_assoc]
    · rw [if_neg h, if_neg fun hn => h (hnarrow.mpr hn), Nat.mul_assoc, Nat.mul_assoc]
  have hhigh : 4 * x.fine + 2 * x.fineUlp = middle x.magnitude * finePerUnit := by
    rw [middle, fine, fineUlp, units_eq, ulp_eq]
    ring
  unfold readsBack
  rw [hlow, hhigh, significand_mod_two]
  split <;> simp

/-- No number rounds to a magnitude and to a larger one. -/
theorem not_readsBack_of_lt (h : x.magnitude < y.magnitude) (hx : x.readsBack v = true) :
    y.readsBack v = false := by
  obtain ⟨n, hn⟩ : ∃ n, y.magnitude = n + 1 := ⟨y.magnitude - 1, by omega⟩
  rw [Bool.eq_false_iff]
  intro hy
  rw [readsBack_iff] at hx hy
  rw [hn, lowerEnd_succ] at hy
  have hpos := finePerUnit_pos
  have hhigh : 4 * v ≤ middle x.magnitude * finePerUnit := by
    split at hx
    · exact hx.2
    · exact hx.2.le
  have hlow : middle n * finePerUnit ≤ 4 * v := by
    split at hy
    · exact hy.1
    · exact hy.1.le
  have hmid : middle n ≤ middle x.magnitude :=
    Nat.le_of_mul_le_mul_right (hlow.trans hhigh) hpos
  -- so the two are neighbours, and the number is the middle between them
  obtain rfl : n = x.magnitude :=
    Nat.le_antisymm (middle_strictMono.le_iff_le.mp hmid) (by omega)
  rcases Nat.mod_two_eq_zero_or_one x.magnitude with heven | hodd
  · rw [if_neg (by omega)] at hy
    omega
  · rw [if_neg (by omega)] at hx
    omega

/-- A number reads back as one magnitude only. -/
theorem magnitude_eq_of_readsBack (hx : x.readsBack v = true) (hy : y.readsBack v = true) :
    x.magnitude = y.magnitude := by
  rcases Nat.lt_trichotomy x.magnitude y.magnitude with h | h | h
  · rw [not_readsBack_of_lt h hx] at hy
    cases hy
  · exact h
  · rw [not_readsBack_of_lt h hy] at hx
    cases hx

/-! ## Sign and magnitude -/

/-- A double is given by its sign and its magnitude. -/
theorem eq_of_sign_of_magnitude (hs : x.isNegative = y.isNegative)
    (hm : x.magnitude = y.magnitude) : x = y := by
  have hx := x.bits.toNat_lt
  have hy := y.bits.toNat_lt
  have hbits : x.bits.toNat = y.bits.toNat := by
    simp only [isNegative, magnitude, decide_eq_decide, Nat.pow_eq] at hs hm
    omega
  cases x
  cases y
  exact congrArg mk (UInt64.toNat_inj.mp hbits)

end YamlDefs.Binary64

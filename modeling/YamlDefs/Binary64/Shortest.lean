import YamlDefs.Text.Digits
import YamlDefs.Binary64.Basic

/-!
# Shortest decimals

The decimal with the fewest digits that reads back as a given double, the nearest to it of those.

A unit of `2^-1074` is `5^1074` times `10^-1074`, so in the fine unit `10^-1074` both the double
and the decimals are whole numbers, and reading back is a comparison of natural numbers.

* `readsBack`: whether a number of fine units lies in the interval that rounds to the double; its
  ends belong to it iff the significand is even, for a tie goes to the even neighbour.
* `shortest`: the first decimal grid, from the coarsest, on which one of the double's two
  neighbours reads back. Of two such neighbours it is the nearer one, the upper one of a tie.
* `readsBack_shortest`: what it gives reads back.
-/

namespace YamlDefs.Binary64

/-- The fine unit is `10^-finePlaces`. -/
def finePlaces : Nat := 1074

/-- How many fine units make a unit of `2^-1074`. -/
@[irreducible] def finePerUnit : Nat := Nat.pow 5 finePlaces

theorem finePerUnit_pos : 0 < finePerUnit := by
  unfold finePerUnit
  rw [Nat.pow_eq]
  exact Nat.pow_pos (by decide)

/-- The magnitude of a finite double in fine units. -/
def fine (x : Binary64) : Nat := x.units * finePerUnit

/-- The distance to the next larger magnitude in fine units. -/
def fineUlp (x : Binary64) : Nat := x.ulp * finePerUnit

/-- Whether the next smaller magnitude is only half an `ulp` away: the double is a power of two
above the smallest ones. -/
def narrowBelow (x : Binary64) : Bool := x.significand = Nat.pow 2 52 && 0 < x.scale

/-- Whether a number of fine units rounds to the double, ties going to the even significand. -/
def readsBack (x : Binary64) (v : Nat) : Bool :=
  let low := 4 * x.fine - (if x.narrowBelow then x.fineUlp else 2 * x.fineUlp)
  let high := 4 * x.fine + 2 * x.fineUlp
  if x.significand % 2 = 0 then low ≤ 4 * v && 4 * v ≤ high else low < 4 * v && 4 * v < high

/-- A decimal: `coefficient` times ten to the power `place - finePlaces`. -/
structure Decimal where
  coefficient : Nat
  place : Nat
deriving DecidableEq, Repr

/-- The value of a decimal in fine units. -/
def Decimal.fine (d : Decimal) : Nat := d.coefficient * Nat.pow 10 d.place

/-- The neighbour of the double on the grid of multiples of `10^place` fine units that reads back:
the nearer one if both do, and the upper one of a tie. -/
def neighbour? (x : Binary64) (place : Nat) : Option Decimal :=
  let below : Decimal := ⟨x.fine / Nat.pow 10 place, place⟩
  let above : Decimal := ⟨x.fine / Nat.pow 10 place + 1, place⟩
  let pick (d : Decimal) := if x.readsBack d.fine then some d else none
  if x.fine - below.fine < above.fine - x.fine then pick below <|> pick above
  else pick above <|> pick below

/-- The shortest decimal that reads back: of at most seventeen digits, or else the double's own. -/
def shortest (x : Binary64) : Decimal :=
  let digits := Text.digitCount x.fine
  ((List.range 17).findSome? fun n => x.neighbour? (digits - 1 - n)).getD ⟨x.fine, 0⟩

theorem fineUlp_pos (x : Binary64) : 0 < x.fineUlp := by
  unfold fineUlp ulp
  exact Nat.mul_pos (Nat.pow_pos (by decide)) finePerUnit_pos

/-- An odd significand makes the double at least one `ulp` large. -/
theorem fineUlp_le_fine {x : Binary64} (h : x.significand % 2 ≠ 0) : x.fineUlp ≤ x.fine := by
  unfold fineUlp fine units
  exact Nat.mul_le_mul_right _ (Nat.le_mul_of_pos_left _ (by omega))

/-- A double lies in its own interval. -/
theorem readsBack_fine (x : Binary64) : x.readsBack x.fine = true := by
  have hu := fineUlp_pos x
  have hf := fineUlp_le_fine (x := x)
  unfold readsBack
  generalize x.fine = v at *
  generalize x.fineUlp = u at *
  dsimp only
  split <;> split <;> simp only [Bool.and_eq_true, decide_eq_true_eq] <;> omega

theorem readsBack_neighbour? {x : Binary64} {place : Nat} {d : Decimal}
    (h : x.neighbour? place = some d) : x.readsBack d.fine = true := by
  unfold neighbour? at h
  dsimp only at h
  generalize Decimal.mk (x.fine / Nat.pow 10 place) place = below at h
  generalize Decimal.mk (x.fine / Nat.pow 10 place + 1) place = above at h
  by_cases hb : x.readsBack below.fine <;> by_cases ha : x.readsBack above.fine <;> simp_all
  split at h <;> simp_all

/-- The shortest decimal of a double reads back as the double. -/
theorem readsBack_shortest (x : Binary64) : x.readsBack x.shortest.fine = true := by
  unfold shortest
  dsimp only
  cases h : (List.range 17).findSome? _ with
  | none => simpa [Decimal.fine] using readsBack_fine x
  | some d =>
    obtain ⟨n, -, hn⟩ := List.exists_of_findSome?_eq_some h
    exact readsBack_neighbour? hn

end YamlDefs.Binary64

/-!
# Digits

Natural numbers written and read as digits, without a sign.

* `decimal`: the decimal digits of a number.
* `readNat?`: the number that a nonempty run of digits of a base stands for.
* `readNat?_decimal`: reading the decimal digits of a number gives it back.
-/

namespace YamlDefs.Text

/-- The digit for a value below ten. -/
def digitOf (d : Nat) : Char := Char.ofNat ('0'.toNat + d)

/-- The decimal digits of a number, with no leading zero except for zero itself. -/
def decimal (n : Nat) : List Char :=
  if n < 10 then [digitOf n] else decimal (n / 10) ++ [digitOf (n % 10)]

/-- The number of decimal digits of a number. -/
def digitCount (n : Nat) : Nat :=
  if n < 10 then 1 else digitCount (n / 10) + 1

/-- The decimal text of an integer, with a minus sign if it is negative. -/
def decimalInt (n : Int) : List Char :=
  if n < 0 then '-' :: decimal n.natAbs else decimal n.natAbs

/-- The value of a digit of a base; letters of either case follow nine. -/
def digitValue? (base : Nat) (c : Char) : Option Nat :=
  let value :=
    if '0' ≤ c ∧ c ≤ '9' then c.toNat - '0'.toNat
    else if 'a' ≤ c ∧ c ≤ 'z' then c.toNat - 'a'.toNat + 10
    else if 'A' ≤ c ∧ c ≤ 'Z' then c.toNat - 'A'.toNat + 10
    else base
  if value < base then some value else none

/-- The number that digits of a base go on to from the value of the digits before them. -/
def readDigits? (base : Nat) (value : Nat) : List Char → Option Nat
  | [] => some value
  | c :: cs =>
    match digitValue? base c with
    | some d => readDigits? base (value * base + d) cs
    | none => none

/-- The number that a nonempty run of digits of a base stands for. -/
def readNat? (base : Nat) : List Char → Option Nat
  | [] => none
  | cs => readDigits? base 0 cs

theorem digitValue?_digitOf {d : Nat} (h : d < 10) : digitValue? 10 (digitOf d) = some d := by
  match d, h with
  | 0, _ | 1, _ | 2, _ | 3, _ | 4, _ | 5, _ | 6, _ | 7, _ | 8, _ | 9, _ => rfl

theorem decimal_ne_nil (n : Nat) : decimal n ≠ [] := by
  rw [decimal]
  split <;> simp

theorem readDigits?_append (base value : Nat) (cs ds : List Char) :
    readDigits? base value (cs ++ ds) =
      (readDigits? base value cs).bind (readDigits? base · ds) := by
  induction cs generalizing value with
  | nil => rfl
  | cons c cs ih =>
    simp only [List.cons_append, readDigits?]
    split
    · exact ih _
    · rfl

theorem readDigits?_decimal (n : Nat) : readDigits? 10 0 (decimal n) = some n := by
  induction n using Nat.strongRecOn with
  | ind n ih =>
    rw [decimal]
    split
    · next h => simp [readDigits?, digitValue?_digitOf h]
    · next h =>
      rw [readDigits?_append, ih (n / 10) (Nat.div_lt_self (by omega) (by decide))]
      simp only [Option.bind_some, readDigits?, digitValue?_digitOf (Nat.mod_lt n (by decide))]
      congr 1
      omega

/-- Reading the decimal digits of a number gives it back. -/
theorem readNat?_decimal (n : Nat) : readNat? 10 (decimal n) = some n := by
  have h := readDigits?_decimal n
  have hne := decimal_ne_nil n
  unfold readNat?
  split
  · contradiction
  · exact h

/-- Different numbers have different decimal digits. -/
theorem decimal_inj {m n : Nat} : decimal m = decimal n ↔ m = n := by
  refine ⟨fun h => ?_, congrArg decimal⟩
  have := readNat?_decimal m
  rw [h, readNat?_decimal, Option.some.injEq] at this
  exact this.symm

end YamlDefs.Text

import YamlDefs.Text.Digits

/-!
# Dates and times in TOML

* `Moment.read?`: the date, the time of day or both that a word stands for, with an offset from
  universal time if it has both. Only days and times that there are can be read.
* `Moment.text`: the one way in which they are written.
-/

namespace YamlDefs.Settings.Toml

open YamlDefs.Text

/-- A day of the calendar. -/
structure Date where
  year : Nat
  month : Nat
  day : Nat
deriving DecidableEq, Repr

/-- A time of day; the last second of a day may be doubled. -/
structure Time where
  hour : Nat
  minute : Nat
  second : Nat
  nanosecond : Nat
deriving DecidableEq, Repr

/-- An offset from universal time. -/
inductive Offset where
  /-- Universal time itself. -/
  | universal
  | minutes (count : Int)
deriving DecidableEq, Repr

/-- A date, a time of day or both; only both together have an offset. -/
inductive Moment where
  | day (date : Date)
  | clock (time : Time)
  | both (date : Date) (time : Time) (offset : Option Offset)
deriving DecidableEq, Repr

/-- Whether a text has the given shape, in which `0` stands for any digit. -/
def hasShape (shape : String) (cs : List Char) : Bool :=
  shape.length = cs.length &&
    (shape.toList.zip cs).all fun (s, c) => if s = '0' then c.isDigit else s = c

/-- The number that some digits of a text stand for, from a place on. -/
def numberAt (cs : List Char) (start count : Nat) : Nat :=
  (readNat? 10 ((cs.drop start).take count)).getD 0

/-- How many days a month has. -/
def daysOfMonth (year month : Nat) : Nat :=
  if month = 2 then if year % 4 = 0 ∧ (year % 100 ≠ 0 ∨ year % 400 = 0) then 29 else 28
  else if month = 4 ∨ month = 6 ∨ month = 9 ∨ month = 11 then 30
  else 31

/-- The date that a text stands for. -/
def Date.read? (cs : List Char) : Option Date :=
  let date : Date := ⟨numberAt cs 0 4, numberAt cs 5 2, numberAt cs 8 2⟩
  if hasShape "0000-00-00" cs ∧ 1 ≤ date.month ∧ date.month ≤ 12 ∧ 1 ≤ date.day ∧
      date.day ≤ daysOfMonth date.year date.month then
    some date
  else none

/-- The nanoseconds that the digits of a fraction stand for; those after the ninth do not count. -/
def nanoseconds (digits : List Char) : Nat :=
  numberAt (digits ++ List.replicate 9 '0') 0 9

/-- The fraction of a second that follows a time, if any. -/
def fraction? (cs : List Char) : Option Nat :=
  match cs with
  | [] => some 0
  | '.' :: digits =>
    if !digits.isEmpty && digits.all Char.isDigit then some (nanoseconds digits) else none
  | _ => none

/-- The time of day that a text stands for. -/
def Time.read? (cs : List Char) : Option Time :=
  match fraction? (cs.drop 8) with
  | none => none
  | some nanosecond =>
    let time : Time := ⟨numberAt cs 0 2, numberAt cs 3 2, numberAt cs 6 2, nanosecond⟩
    if hasShape "00:00:00" (cs.take 8) ∧ time.hour < 24 ∧ time.minute < 60 ∧ time.second ≤ 60 then
      some time
    else none

/-- The offset that a text stands for. -/
def Offset.read? (cs : List Char) : Option Offset :=
  let hours := numberAt cs 1 2
  let minutes := numberAt cs 4 2
  let count : Int := hours * 60 + minutes
  if cs = ['Z'] ∨ cs = ['z'] then some .universal
  else if hours < 24 ∧ minutes < 60 then
    if hasShape "+00:00" cs then some (.minutes count)
    else if hasShape "-00:00" cs then some (.minutes (-count))
    else none
  else none

/-- A time and the offset at its end, if one stands there. -/
def splitOffset (cs : List Char) : List Char × List Char :=
  let isOffsetStart (c : Char) := c = 'Z' || c = 'z' || c = '+' || c = '-'
  (cs.takeWhile (!isOffsetStart ·), cs.dropWhile (!isOffsetStart ·))

namespace Moment

/-- What the word for a date, a time or both stands for. -/
def read? (cs : List Char) : Option Moment :=
  match Time.read? cs, Date.read? (cs.take 10), cs.drop 10 with
  | some time, _, _ => some (.clock time)
  | none, some date, [] => some (.day date)
  | none, some date, c :: rest =>
    if c = 'T' ∨ c = 't' ∨ c = ' ' then
      let (time, offset) := splitOffset rest
      match Time.read? time, offset, Offset.read? offset with
      | some time, [], _ => some (.both date time none)
      | some time, _, some offset => some (.both date time (some offset))
      | _, _, _ => none
    else none
  | none, none, _ => none

end Moment

/-- The decimal digits of a number, with zeros in front up to a width. -/
def padded (width n : Nat) : List Char :=
  List.replicate (width - digitCount n) '0' ++ decimal n

/-- The text of a date. -/
def Date.text (date : Date) : List Char :=
  padded 4 date.year ++ '-' :: padded 2 date.month ++ '-' :: padded 2 date.day

/-- The text of a time; the fraction has no zeros at its end. -/
def Time.text (time : Time) : List Char :=
  let digits := ((padded 9 time.nanosecond).reverse.dropWhile (· = '0')).reverse
  padded 2 time.hour ++ ':' :: padded 2 time.minute ++ ':' :: padded 2 time.second ++
    (if digits.isEmpty then [] else '.' :: digits)

/-- The text of an offset. -/
def Offset.text : Offset → List Char
  | universal => ['Z']
  | minutes count =>
    (if count < 0 then '-' else '+') :: padded 2 (count.natAbs / 60) ++
      ':' :: padded 2 (count.natAbs % 60)

/-- The text of a date, a time or both. -/
def Moment.text : Moment → List Char
  | day date => date.text
  | clock time => time.text
  | both date time offset =>
    date.text ++ 'T' :: time.text ++ ((offset.map Offset.text).getD [])

end YamlDefs.Settings.Toml

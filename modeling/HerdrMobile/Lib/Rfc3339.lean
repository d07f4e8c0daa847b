import Mathlib.Algebra.Order.Floor.Ring
import Mathlib.Data.Rat.Floor
import Mathlib.Tactic.Ring
import HerdrMobile.Lib.Strings

/-!
# Times of RFC 3339

The texts of the form of a time, and the instant that each names, with any number of digits in its
fraction. A clock of less precision names the floor of it.
-/
namespace HerdrMobile.Lib.Rfc3339

open HerdrMobile.Lib.Strings

set_option autoImplicit false

/-- The offset of a time from UTC is `offsetHour` and `offsetMinute`, to the west or to the
east. -/
structure Stamp where
  year : Nat
  month : Nat
  day : Nat
  separator : Char
  hour : Nat
  minute : Nat
  second : Nat
  fraction : List (Fin 10)
  west : Bool
  offsetHour : Nat
  offsetMinute : Nat
deriving DecidableEq

def digitOf (c : Char) : Fin 10 := Fin.ofNat 10 (c.toNat - 48)

/-- So many digits, after those that make `value`. -/
def number : Nat → Nat → Text → Option (Nat × Text)
  | 0, value, t => some (value, t)
  | _ + 1, _, [] => none
  | n + 1, value, c :: t => if c.isDigit then number n (10 * value + digitOf c) t else none

def one (allowed : Text) : Text → Option (Char × Text)
  | [] => none
  | c :: t => if c ∈ allowed then some (c, t) else none

def fractionOf (t : Text) : Option (List (Fin 10) × Text) :=
  match one ['.'] t with
  | none => some ([], t)
  | some (_, t) =>
    if (t.takeWhile Char.isDigit).isEmpty then none
    else some ((t.takeWhile Char.isDigit).map digitOf, t.dropWhile Char.isDigit)

/-- `Z`, or the sign, the hours and the minutes of the offset. -/
def offsetOf (t : Text) : Option (Bool × Nat × Nat) :=
  if t = ['Z'] ∨ t = ['z'] then some (false, 0, 0)
  else do
    let (sign, t) ← one ['+', '-'] t
    let (hour, t) ← number 2 0 t
    let (_, t) ← one [':'] t
    let (minute, t) ← number 2 0 t
    if t.isEmpty then some (decide (sign = '-'), hour, minute) else none

/-- The form of the text alone: the numbers are not checked. -/
def read (t : Text) : Option Stamp := do
  let (year, t) ← number 4 0 t
  let (_, t) ← one ['-'] t
  let (month, t) ← number 2 0 t
  let (_, t) ← one ['-'] t
  let (day, t) ← number 2 0 t
  let (separator, t) ← one ['T', 't', ' '] t
  let (hour, t) ← number 2 0 t
  let (_, t) ← one [':'] t
  let (minute, t) ← number 2 0 t
  let (_, t) ← one [':'] t
  let (second, t) ← number 2 0 t
  let (fraction, t) ← fractionOf t
  let (west, offsetHour, offsetMinute) ← offsetOf t
  return ⟨year, month, day, separator, hour, minute, second, fraction, west, offsetHour,
    offsetMinute⟩

def isLeap (year : Nat) : Bool := year % 4 = 0 && (year % 100 ≠ 0 || year % 400 = 0)

def daysIn (year month : Nat) : Nat :=
  if month = 2 then if isLeap year then 29 else 28
  else if month ∈ [4, 6, 9, 11] then 30
  else 31

namespace Stamp

variable (s : Stamp)

/-- The 60th second is a leap second. -/
def valid : Bool :=
  1 ≤ s.month && s.month ≤ 12 && 1 ≤ s.day && s.day ≤ daysIn s.year s.month &&
    s.hour ≤ 23 && s.minute ≤ 59 && s.second ≤ 60 && s.offsetHour ≤ 23 && s.offsetMinute ≤ 59

/-- The days since 1970, with the years counted from March. A month that is none runs over. -/
def days : Int :=
  let months : Int := 12 * s.year + s.month - 1
  let years := (months - 2) / 12
  365 * years + years / 4 - years / 100 + years / 400 + (153 * ((months - 2) % 12) + 2) / 5 +
    s.day - 1 - 719468

/-- The seconds since 1970. A leap second is counted as the one after it. -/
def seconds : Int :=
  let offset : Int := 60 * s.offsetHour + s.offsetMinute
  86400 * s.days + 3600 * s.hour + 60 * (s.minute - if s.west then -offset else offset) + s.second

end Stamp

/-- The value of the digits behind the point. -/
def value : List (Fin 10) → ℚ
  | [] => 0
  | digit :: rest => (digit.val + value rest) / 10

/-- The first `k` digits behind the point as a number. -/
def leading : Nat → List (Fin 10) → Nat
  | 0, _ => 0
  | _ + 1, [] => 0
  | k + 1, digit :: rest => digit.val * 10 ^ k + leading k rest

def Stamp.instant (s : Stamp) : ℚ := s.seconds + value s.fraction

/-- The instant of a valid text. -/
def instantOf (t : Text) : Option ℚ :=
  match read t with
  | none => none
  | some s => if s.valid then some s.instant else none

example : (instantOf "1970-01-01T00:00:00Z".toList) = some 0 := by decide +kernel

example : (instantOf "2000-02-29T23:59:60.25+01:00".toList) = some 951865200.25 := by
  decide +kernel

theorem value_mem (l : List (Fin 10)) : 0 ≤ value l ∧ value l < 1 := by
  induction l with
  | nil => exact ⟨le_rfl, zero_lt_one⟩
  | cons digit rest ih =>
    obtain ⟨hnonneg, hlt⟩ := ih
    have hdigit : (digit.val : ℚ) ≤ 9 := by exact_mod_cast Nat.le_of_lt_succ digit.isLt
    have hpos : (0 : ℚ) ≤ digit.val := Nat.cast_nonneg _
    rw [value]
    exact ⟨by positivity, by linarith⟩

theorem floor_value (k : Nat) (l : List (Fin 10)) : ⌊value l * 10 ^ k⌋ = (leading k l : Int) := by
  induction k generalizing l with
  | zero =>
    obtain ⟨hnonneg, hlt⟩ := value_mem l
    rw [pow_zero, mul_one, leading]
    exact Int.floor_eq_zero_iff.mpr ⟨hnonneg, hlt⟩
  | succ k ih =>
    cases l with
    | nil => simp [value, leading]
    | cons digit rest =>
      have hsplit : value (digit :: rest) * 10 ^ (k + 1) =
          ((digit.val * 10 ^ k : Nat) : ℚ) + value rest * 10 ^ k := by
        rw [value]
        push_cast
        ring
      rw [hsplit, Int.floor_natCast_add, ih, leading, Nat.cast_add]

/-- What a clock shows that counts the seconds in `10 ^ k` parts. -/
theorem floor_instant (k : Nat) (s : Stamp) :
    ⌊s.instant * 10 ^ k⌋ = s.seconds * 10 ^ k + leading k s.fraction := by
  have hsplit : s.instant * 10 ^ k =
      ((s.seconds * 10 ^ k : Int) : ℚ) + value s.fraction * 10 ^ k := by
    rw [Stamp.instant]
    push_cast
    ring
  rw [hsplit, Int.floor_intCast_add, floor_value]

/-- The order of the instants is kept, however few digits a clock keeps. -/
theorem leading_mono (k : Nat) {s t : Stamp} (h : s.instant ≤ t.instant) :
    s.seconds * 10 ^ k + leading k s.fraction ≤ t.seconds * 10 ^ k + leading k t.fraction := by
  rw [← floor_instant, ← floor_instant]
  exact Int.floor_le_floor (mul_le_mul_of_nonneg_right h (by positivity))

end HerdrMobile.Lib.Rfc3339

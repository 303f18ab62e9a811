import Mathlib.Data.Nat.Notation
import Mathlib.Data.List.Basic
import Mathlib.Algebra.Ring.Nat

/-! The proleptic Gregorian calendar from the first day of year 1, counted in days. Different days have different dates.
No program is named here. -/
namespace WppGateway.Calendar

@[ext]
structure Date where
  year : Nat
  month : Nat
  day : Nat
  deriving DecidableEq, Repr

def isLeap (year : Nat) : Bool := decide (year % 4 = 0 ∧ (year % 100 ≠ 0 ∨ year % 400 = 0))

/- The year and the day in it, from zero: cycles of 400, of 100, of 4 and of single years, where the last of four
centuries and the last of four years are a day longer. -/
def yearDay (days : Nat) : Nat × Nat :=
  let n400 := days / 146097
  let d400 := days % 146097
  let n100 := min 3 (d400 / 36524)
  let d100 := d400 - 36524 * n100
  let n4 := d100 / 1461
  let d4 := d100 % 1461
  let n1 := min 3 (d4 / 365)
  (400 * n400 + 100 * n100 + 4 * n4 + n1 + 1,d4 - 365 * n1)

def monthLengths (leap : Bool) : List Nat := [31,if leap then 29 else 28,31,30,31,30,31,31,30,31,30,31]

def place : List Nat → Nat → Nat × Nat
  | [],d => (0,d)
  | span::rest,d => if d < span then (0,d) else ((place rest (d - span)).1 + 1,(place rest (d - span)).2)

def date (days : Nat) : Date :=
  let year := (yearDay days).1
  let inYear := place (monthLengths (isLeap year)) (yearDay days).2
  ⟨year,inYear.1 + 1,inYear.2 + 1⟩

def daysBefore (year : Nat) : Nat := 365 * (year - 1) + (year - 1) / 4 - (year - 1) / 100 + (year - 1) / 400

theorem passedYears {a b c e : Nat} (centuries : b ≤ 3) (fours : c ≤ 24) (years : e ≤ 3) :
    daysBefore (400 * a + 100 * b + 4 * c + e + 1) = 146097 * a + 36524 * b + 1461 * c + 365 * e := by
  have fourth : (400 * a + 100 * b + 4 * c + e) / 4 = 100 * a + 25 * b + c := by omega
  have hundredth : (400 * a + 100 * b + 4 * c + e) / 100 = 4 * a + b := by omega
  have fourHundredth : (400 * a + 100 * b + 4 * c + e) / 400 = a := by omega
  simp only [daysBefore,Nat.add_sub_cancel,fourth,hundredth,fourHundredth]
  omega

theorem lastLonger (most span d : Nat) : min most (d / span) ≤ most ∧ span * min most (d / span) ≤ d :=
  ⟨Nat.min_le_left _ _,Nat.le_trans (Nat.mul_le_mul_left span (Nat.min_le_right _ _)) (Nat.mul_div_le d span)⟩

theorem yearDayTotal (days : Nat) : daysBefore (yearDay days).1 + (yearDay days).2 = days := by
  have whole := Nat.div_add_mod days 146097
  have inCycle : days % 146097 < 146097 := Nat.mod_lt _ (by decide)
  simp only [yearDay]
  generalize days % 146097 = d400 at *
  obtain ⟨centuries,inCentury⟩ := lastLonger 3 36524 d400
  have shortCentury : d400 - 36524 * min 3 (d400 / 36524) < 36525 := by omega
  generalize min 3 (d400 / 36524) = n100 at *
  have fourth := Nat.div_add_mod (d400 - 36524 * n100) 1461
  have fours : (d400 - 36524 * n100) / 1461 ≤ 24 := by omega
  generalize (d400 - 36524 * n100) % 1461 = d4 at *
  obtain ⟨years,inYears⟩ := lastLonger 3 365 d4
  rw [passedYears centuries fours years]
  omega

theorem placeTotal (spans : List Nat) (d : Nat) : (spans.take (place spans d).1).sum + (place spans d).2 = d := by
  induction spans generalizing d with
  | nil => simp [place]
  | cons span rest ih =>
    simp only [place]
    split
    · simp
    · next beyond =>
      have later := ih (d - span)
      simp only [List.take_succ_cons,List.sum_cons]
      omega

theorem dateInjective {first second : Nat} (same : date first = date second) : first = second := by
  simp only [date,Date.mk.injEq,Nat.add_right_cancel_iff] at same
  obtain ⟨year,month,day⟩ := same
  have inYear : (yearDay first).2 = (yearDay second).2 := by
    have left := placeTotal (monthLengths (isLeap (yearDay first).1)) (yearDay first).2
    have right := placeTotal (monthLengths (isLeap (yearDay second).1)) (yearDay second).2
    rw [← right,← left,month,day,year]
  rw [← yearDayTotal first,← yearDayTotal second,year,inYear]

example : [date 0,date 719162,date 738944,date 738945] = [⟨1,1,1⟩,⟨1970,1,1⟩,⟨2024,2,29⟩,⟨2024,3,1⟩] := by decide

end WppGateway.Calendar

import Mathlib.Tactic.IntervalCases
import GuildSandbox.Time.Calendar

set_option autoImplicit false
set_option relaxedAutoImplicit false

namespace GuildSandbox.Time

def yearStart (y : Int) : Int := 365 * y + y / 4 - y / 100

def monthStart (m : Int) : Int := (153 * m + 2) / 5

def EndsWithLeapDay (y : Int) : Prop :=
  (y + 1) % 4 = 0 ∧ ((y + 1) % 100 = 0 → (y + 1) % 400 = 0)

private theorem yearOfCycle_bounds {d y : Int} (first : 0 ≤ d) (last : d < 146097)
    (year : y = (d - d / 1460 + d / 36524 - d / 146096) / 365) :
    (0 ≤ y ∧ y ≤ 399) ∧ yearStart y ≤ d ∧ d ≤ yearStart y + 365 ∧
      (d = yearStart y + 365 → EndsWithLeapDay y) := by
  unfold yearStart EndsWithLeapDay
  obtain ⟨c, century⟩ : ∃ c, c = d / 36524 := ⟨_, rfl⟩
  obtain ⟨q, four⟩ : ∃ q, q = d / 1460 := ⟨_, rfl⟩
  have low : 0 ≤ c := by omega
  have high : c ≤ 4 := by omega
  have whole : d / 146096 = c / 4 := by omega
  rw [← century, whole, ← four] at year
  obtain ⟨k, split⟩ : ∃ k, y = 4 * q + k := ⟨y - 4 * q, by omega⟩
  rcases Int.lt_or_eq_of_le high with high | rfl
  · have hundred : y / 100 = c := by interval_cases c <;> omega
    have within : k = -1 ∨ k = 0 ∨ k = 1 ∨ k = 2 ∨ k = 3 := by interval_cases c <;> omega
    rw [hundred]
    clear whole
    interval_cases c <;> rcases within with rfl | rfl | rfl | rfl | rfl <;> omega
  · -- The leap day that ends the cycle belongs to no century of its own.
    obtain rfl : d = 146096 := by omega
    omega

/-- The day of a number is day `d` of month `m` of year `y` of a cycle; months and years begin in
March. -/
private structure IsDay (n cycle y m d : Int) : Prop where
  sum : n + 719468 = cycle * 146097 + yearStart y + monthStart m + d - 1
  year : 0 ≤ y ∧ y ≤ 399
  month : 0 ≤ m ∧ m ≤ 11
  day : 1 ≤ d ∧ d ≤ 31
  short : m = 1 ∨ m = 3 ∨ m = 6 ∨ m = 8 → d ≤ 30
  february : m = 11 → d ≤ 28 ∨ d = 29 ∧ EndsWithLeapDay y
  date : Date.ofDayNumber n =
    { year := if m < 10 then y + cycle * 400 else y + cycle * 400 + 1
      month := (if m < 10 then m + 3 else m - 9).toNat
      day := d.toNat }

private theorem exists_isDay (n : Int) : ∃ cycle y m d, IsDay n cycle y m d := by
  obtain ⟨cycle, hcycle⟩ : ∃ c, c = (n + 719468).fdiv 146097 := ⟨_, rfl⟩
  obtain ⟨dc, hdc⟩ : ∃ d, d = n + 719468 - cycle * 146097 := ⟨_, rfl⟩
  obtain ⟨y, hy⟩ : ∃ y, y = (dc - dc / 1460 + dc / 36524 - dc / 146096) / 365 := ⟨_, rfl⟩
  obtain ⟨dy, hdy⟩ : ∃ d, d = dc - yearStart y := ⟨_, rfl⟩
  obtain ⟨m, hm⟩ : ∃ m, m = (5 * dy + 2) / 153 := ⟨_, rfl⟩
  have inCycle : 0 ≤ dc ∧ dc < 146097 := by
    rw [Int.fdiv_eq_ediv_of_nonneg _ (by decide)] at hcycle
    omega
  obtain ⟨year, low, high, leap⟩ := yearOfCycle_bounds inCycle.1 inCycle.2 hy
  have within : 0 ≤ dy ∧ dy ≤ 365 := by omega
  have month : 0 ≤ m ∧ m ≤ 11 := by omega
  have day : 1 ≤ dy - monthStart m + 1 ∧ dy - monthStart m + 1 ≤ 31 := by
    unfold monthStart
    omega
  refine ⟨cycle, y, m, dy - monthStart m + 1, by omega, year, month, day, ?_, ?_, ?_⟩
  · unfold monthStart
    omega
  · intro february
    unfold monthStart
    by_cases final : dy = 365
    · exact .inr ⟨by omega, leap (by omega)⟩
    · exact .inl (by omega)
  · have inYear : dc - (365 * y + y / 4 - y / 100) = dy := hdy.symm
    have third : (if m < 10 then m + 3 else m - 9).toNat ≤ 2 ↔ ¬ m < 10 := by
      split <;> omega
    simp only [Date.ofDayNumber, ← hcycle, ← hdc, ← hy, inYear, ← hm, third, ite_not]
    rfl

theorem dayNumber_ofDayNumber (n : Int) : (Date.ofDayNumber n).dayNumber = n := by
  obtain ⟨cycle, y, m, d, sum, year, month, day, -, -, date⟩ := exists_isDay n
  have number : (((if m < 10 then m + 3 else m - 9).toNat : Int) + 9) % 12 = m := by
    split <;> omega
  have marchYear : (if (if m < 10 then m + 3 else m - 9).toNat ≤ 2
      then (if m < 10 then y + cycle * 400 else y + cycle * 400 + 1) - 1
      else (if m < 10 then y + cycle * 400 else y + cycle * 400 + 1)) = y + cycle * 400 := by
    split <;> split <;> omega
  have whole : (y + cycle * 400).fdiv 400 = cycle := by
    rw [Int.fdiv_eq_ediv_of_nonneg _ (by decide)]
    omega
  have exact : (d.toNat : Int) = d := by omega
  unfold yearStart monthStart at sum
  simp only [date, Date.dayNumber, marchYear, number, whole, exact]
  omega

theorem valid_ofDayNumber (n : Int) : (Date.ofDayNumber n).Valid := by
  obtain ⟨cycle, y, m, d, -, year, month, day, short, february, date⟩ := exists_isDay n
  rw [date]
  unfold EndsWithLeapDay at february
  obtain ⟨low, high⟩ := month
  simp only [Date.Valid, daysInMonth, isLeapYear]
  interval_cases m <;> simp at short february ⊢ <;> omega

end GuildSandbox.Time

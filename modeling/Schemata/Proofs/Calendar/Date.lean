import Schemata.Calendar.Date

/-! Counting days. Within a month the day grows with the count; behind its last day the count goes
on with the first of another month. -/

namespace Schemata.Calendar

theorem daysInMonth_le (year : Int) (month : Nat) : daysInMonth year month ≤ 31 := by
  unfold daysInMonth
  repeat' split
  all_goals decide

theorem daysInMonth_two_le (year : Int) : daysInMonth year 2 ≤ 29 := by
  rw [daysInMonth, if_pos rfl]
  split <;> decide

theorem IsDate.in_year_zero {year : Int} {month day : Nat} (h : IsDate year month day) :
    IsDate 0 month day := by
  obtain ⟨first, last, low, high⟩ := h
  refine ⟨first, last, low, Nat.le_trans high ?_⟩
  by_cases february : month = 2
  · rw [february]
    exact daysInMonth_two_le year
  · exact Nat.le_of_eq (by rw [daysInMonth, daysInMonth, if_neg february, if_neg february])

namespace Date

variable {year : Int} {month day k : Nat} {d : Date}

theorem exists_of? (isDate : IsDate year month day) :
    ∃ d, of? year month day = some d ∧ d.year = year ∧ d.month = month ∧ d.day = day :=
  ⟨⟨year, month, day, isDate⟩, dif_pos isDate, rfl, rfl, rfl⟩

theorem addDays_add (d : Date) (j k : Nat) : d.addDays (j + k) = (d.addDays j).addDays k := by
  induction k with
  | zero => rfl
  | succ k ih => exact congrArg next ih

theorem next_of_lt (h : d.day < daysInMonth d.year d.month) :
    d.next.year = d.year ∧ d.next.month = d.month ∧ d.next.day = d.day + 1 := by
  rw [next, dif_pos h]
  exact ⟨rfl, rfl, rfl⟩

theorem day_next_of_last (h : d.day = daysInMonth d.year d.month) : d.next.day = 1 := by
  rw [next, dif_neg (Nat.not_lt.mpr (Nat.le_of_eq h.symm))]
  split <;> rfl

theorem addDays_within (h : d.day + k ≤ daysInMonth d.year d.month) :
    (d.addDays k).year = d.year ∧ (d.addDays k).month = d.month ∧ (d.addDays k).day = d.day + k := by
  induction k with
  | zero => exact ⟨rfl, rfl, rfl⟩
  | succ k ih =>
    obtain ⟨year, month, day⟩ := ih (Nat.le_of_succ_le h)
    have inside : (d.addDays k).day < daysInMonth (d.addDays k).year (d.addDays k).month := by
      rw [year, month, day]
      exact h
    obtain ⟨year', month', day'⟩ := next_of_lt inside
    exact ⟨year'.trans year, month'.trans month, by rw [addDays, day', day, Nat.add_assoc]⟩

theorem day_addDays_beyond (first : d.day = 1) (beyond : daysInMonth d.year d.month ≤ k)
    (soon : k < daysInMonth d.year d.month + 28) :
    (d.addDays k).day = k + 1 - daysInMonth d.year d.month := by
  have long : 28 ≤ daysInMonth d.year d.month := le_daysInMonth ⟨d.isDate.1, d.isDate.2.1⟩
  obtain ⟨j, rfl⟩ := Nat.exists_eq_add_of_le beyond
  generalize length : daysInMonth d.year d.month = n at *
  -- The last day of the month, the first day behind it, and as many days more as are left.
  have last := addDays_within (d := d) (k := n - 1) (by omega)
  have turn : ((d.addDays (n - 1)).next).day = 1 := by
    refine day_next_of_last ?_
    rw [last.1, last.2.1, last.2.2, first, length]
    omega
  have steps : d.addDays (n + j) = ((d.addDays (n - 1)).next).addDays j := by
    have count : n + j = n - 1 + 1 + j := by omega
    rw [count, addDays_add]
    rfl
  have rest : daysInMonth ((d.addDays (n - 1)).next).year ((d.addDays (n - 1)).next).month ≥ 28 :=
    le_daysInMonth ⟨(d.addDays (n - 1)).next.isDate.1, (d.addDays (n - 1)).next.isDate.2.1⟩
  have after := addDays_within (d := (d.addDays (n - 1)).next) (k := j) (by omega)
  rw [steps, after.2.2, turn]
  omega

theorem day_addDays_eq_iff (first : d.day = 1) (low : 1 ≤ day) (high : day ≤ 31) :
    (d.addDays (day - 1)).day = day ↔ day ≤ daysInMonth d.year d.month := by
  have long : 28 ≤ daysInMonth d.year d.month := le_daysInMonth ⟨d.isDate.1, d.isDate.2.1⟩
  constructor
  · intro same
    refine Nat.le_of_not_lt fun beyond => ?_
    have turned := day_addDays_beyond (d := d) (k := day - 1) first (by omega) (by omega)
    omega
  · intro le
    have within := addDays_within (d := d) (k := day - 1) (by omega)
    rw [within.2.2, first]
    omega

end Date

end Schemata.Calendar

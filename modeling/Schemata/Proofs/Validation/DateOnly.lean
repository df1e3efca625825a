import Schemata.Proofs.Validation.DateNative

/-! `date-only`: the texts of eight ASCII digits in their places that name a calendar day, and in
fast mode those that overrun a shorter month as well. -/

namespace Schemata

namespace Calendar

/-- A day after the end of a month that a longer month has. -/
def Overruns (year : Int) (month day : Nat) : Prop :=
  (1 ≤ month ∧ month ≤ 12) ∧ daysInMonth year month < day ∧ day ≤ 31 ∧ (month = 2 → day ≤ 29)

end Calendar

namespace DateFields

open Calendar (IsDate Overruns)

def ofDay (year month day : Nat) : DateFields := { epoch with year := year, month := month, day := day }

variable {year month day : Nat} {s : List Char} {fast : Bool}

theorem dateOnly?_eq_some_iff {f : DateFields} : dateOnly? s = some f ↔
    ∃ year month day, IsDayText s year month day ∧ f = ofDay year month day := by
  unfold dateOnly?
  rw [Option.bind_eq_some_iff]
  constructor
  · rintro ⟨⟨g, rest⟩, date, whole⟩
    obtain ⟨rfl, rfl⟩ := whole?_eq_some_iff.mp whole
    obtain ⟨text, year, month, day, isDay, rfl, rfl⟩ := date?_eq_some_iff.mp date
    rw [List.append_nil]
    exact ⟨year, month, day, isDay, rfl⟩
  · rintro ⟨year, month, day, isDay, rfl⟩
    have date : date? epoch s = some (ofDay year month day, []) :=
      date?_eq_some_iff.mpr ⟨s, year, month, day, isDay, (List.append_nil s).symm, rfl⟩
    exact ⟨_, date, whole?_eq_some_iff.mpr ⟨rfl, rfl⟩⟩

theorem IsDayText.unique {year' month' day' : Nat} (h : IsDayText s year month day)
    (h' : IsDayText s year' month' day') : year = year' ∧ month = month' ∧ day = day' := by
  have read := dateOnly?_eq_some_iff.mpr ⟨year, month, day, h, rfl⟩
  have read' := dateOnly?_eq_some_iff.mpr ⟨year', month', day', h', rfl⟩
  have same := Option.some.inj (read.symm.trans read')
  exact ⟨Int.ofNat.inj (congrArg DateFields.year same), congrArg DateFields.month same,
    congrArg DateFields.day same⟩

theorem inRange_ofDay_iff :
    (ofDay year month day).InRange ↔ IsDate year month day ∨ Overruns year month day := by
  constructor
  · intro inRange
    by_cases within : day ≤ Calendar.daysInMonth year month
    · exact .inl ⟨inRange.month.1, inRange.month.2, inRange.day.1, within⟩
    · exact .inr ⟨inRange.month, Nat.lt_of_not_le within, inRange.day.2, inRange.february⟩
  · intro h
    have none (offset : List Char) (h : (ofDay year month day).offset = some offset) :
        (offsetSeconds? offset).isSome = true := nomatch h
    rcases h with ⟨first, last, low, high⟩ | ⟨months, beyond, high, february⟩
    · refine ⟨⟨first, last⟩, ⟨low, ?_⟩, ?_, Nat.zero_le _, Nat.zero_le _, Nat.zero_le _, none⟩
      · exact Nat.le_trans high (Calendar.daysInMonth_le _ _)
      · rintro (rfl : month = 2)
        exact Nat.le_trans high (Calendar.daysInMonth_two_le _)
    · have low : 1 ≤ day := Nat.lt_of_le_of_lt (Nat.zero_le _) beyond
      exact ⟨months, ⟨low, high⟩, february, Nat.zero_le _, Nat.zero_le _, Nat.zero_le _, none⟩

end DateFields

namespace DateForm

open Calendar (IsDate Overruns)
open DateFields

variable {s : List Char} {fast : Bool}

theorem reads_dateOnly_iff : (∃ f, dateOnly.read fast s = .ok f) ↔
    ∃ year month day, IsDayText s year month day ∧
      (IsDate year month day ∨ fast = true ∧ Overruns year month day) := by
  simp only [read_eq_ok_iff, fields?, dateOnly?_eq_some_iff]
  constructor
  · rintro ⟨_, ⟨year, month, day, isDay, rfl⟩, inRange, asked⟩
    refine ⟨year, month, day, isDay, ?_⟩
    rcases Bool.or_eq_true_iff.mp asked with rfl | onCalendar
    · exact (inRange_ofDay_iff.mp inRange).imp id (And.intro rfl)
    · exact .inl ((onCalendar_iff inRange).mp onCalendar)
  · rintro ⟨year, month, day, isDay, h⟩
    have inRange := inRange_ofDay_iff.mpr (h.imp id And.right)
    refine ⟨_, ⟨year, month, day, isDay, rfl⟩, inRange, Bool.or_eq_true_iff.mpr ?_⟩
    exact h.symm.imp And.left (onCalendar_iff inRange).mpr

end DateForm

namespace Validator

open Calendar (IsDate Overruns)
open DateFields

variable {v : Validator} {f : DateFacets} {steps : Nat} {s : String}

def withFast (v : Validator) (fast : Bool) : Validator :=
  { v with options := { v.options with fastDateValidation := fast } }

theorem accepts_dateOnly_iff (type : v.node.OfDates f) (base : v.node.base = .dateOnly)
    (passes : Check.passes v.node (.string s) = true) :
    (∃ w, v.validate? (steps + 1) (.string s) = some (.ok w)) ↔
      ∃ fields, DateForm.dateOnly.read v.options.fastDateValidation s.toList = .ok fields := by
  have form : v.node.dateForm = .dateOnly := congrArg DateForm.ofBase base
  rw [accepts_text_iff type, form]
  constructor
  · rintro ⟨-, fields, read, -⟩
    exact ⟨fields, read⟩
  · rintro ⟨fields, read⟩
    refine ⟨passes, fields, read, fun _ => ?_⟩
    obtain ⟨_, _, _, -, rfl⟩ := dateOnly?_eq_some_iff.mp (DateForm.read_eq_ok_iff.mp read).1
    exact (isSome_toNative?_iff (DateForm.readable_of_read read)).mpr fun _ hc => nomatch hc

theorem rejects_dateOnly_iff (type : v.node.OfDates f) (base : v.node.base = .dateOnly)
    (passes : Check.passes v.node (.string s) = true) (r : DateRejection) :
    v.validate? (steps + 1) (.string s) =
        some (.error [⟨[], .badFormat (.string s) (r.expected .dateOnly)⟩]) ↔
      DateForm.dateOnly.read v.options.fastDateValidation s.toList = .error r := by
  have form : v.node.dateForm = .dateOnly := congrArg DateForm.ofBase base
  have stops {r : DateRejection}
      (stopped : DateForm.dateOnly.read v.options.fastDateValidation s.toList = .error r) :
      v.validate? (steps + 1) (.string s) =
        some (.error [⟨[], .badFormat (.string s) (r.expected .dateOnly)⟩]) := by
    have rejected := validate?_of_unread type steps passes (form ▸ stopped)
    rwa [form] at rejected
  refine ⟨fun rejected => ?_, stops⟩
  rcases read : DateForm.dateOnly.read v.options.fastDateValidation s.toList with r' | fields
  · have same := (stops read).symm.trans rejected
    simp only [Option.some_inj, Except.error.injEq, List.cons.injEq, ValidationError.mk.injEq,
      Fault.badFormat.injEq, true_and, and_true] at same
    rw [DateRejection.expected_injective .dateOnly same]
  · obtain ⟨w, accepted⟩ := (accepts_dateOnly_iff type base passes).mpr ⟨fields, read⟩
    cases accepted.symm.trans rejected

/-- `date-only` accepts exactly the texts `dddd-dd-dd` of ASCII digits that name a calendar day, and
in fast mode those that overrun a month as well. Other texts are format errors, labelled by the
calendar exactly if fast mode accepts them. -/
theorem validate?_dateOnly (type : v.node.OfDates f) (base : v.node.base = .dateOnly) (steps : Nat)
    (passes : Check.passes v.node (.string s) = true) :
    ((∃ w, (v.withFast false).validate? (steps + 1) (.string s) = some (.ok w)) ↔
        ∃ year month day, IsDayText s.toList year month day ∧ IsDate year month day) ∧
      ((∃ w, (v.withFast true).validate? (steps + 1) (.string s) = some (.ok w)) ↔
        ∃ year month day, IsDayText s.toList year month day ∧
          (IsDate year month day ∨ Overruns year month day)) ∧
      (∀ fast, (v.withFast fast).validate? (steps + 1) (.string s) =
          some (.error [⟨[], .badFormat (.string s) "date-only (YYYY-MM-DD)"⟩]) ↔
        ¬∃ w, (v.withFast true).validate? (steps + 1) (.string s) = some (.ok w)) ∧
      (∀ fast, (v.withFast fast).validate? (steps + 1) (.string s) =
          some (.error [⟨[], .badFormat (.string s) "a calendar date"⟩]) ↔
        fast = false ∧ (∃ w, (v.withFast true).validate? (steps + 1) (.string s) = some (.ok w)) ∧
          ¬∃ w, (v.withFast false).validate? (steps + 1) (.string s) = some (.ok w)) := by
  have accepts (fast : Bool) :
      (∃ w, (v.withFast fast).validate? (steps + 1) (.string s) = some (.ok w)) ↔
        ∃ fields, DateForm.dateOnly.read fast s.toList = .ok fields :=
    accepts_dateOnly_iff (v := v.withFast fast) type base passes
  have rejects (fast : Bool) (r : DateRejection) :
      (v.withFast fast).validate? (steps + 1) (.string s) =
          some (.error [⟨[], .badFormat (.string s) (r.expected .dateOnly)⟩]) ↔
        DateForm.dateOnly.read fast s.toList = .error r :=
    rejects_dateOnly_iff (v := v.withFast fast) type base passes r
  have strictly := @DateForm.reads_dateOnly_iff s.toList false
  have loosely := @DateForm.reads_dateOnly_iff s.toList true
  simp only [Bool.false_eq_true, false_and, or_false] at strictly
  simp only [true_and] at loosely
  simp only [accepts]
  refine ⟨strictly, loosely, fun fast => ?_, fun fast => ?_⟩
  · exact (rejects fast .form).trans DateForm.read_eq_form_iff
  · exact (rejects fast .calendar).trans DateForm.read_eq_calendar_iff

theorem validate?_dateOnly_of_leapDay :
    (Node.ofBase .dateOnly).OfDates ⟨none⟩ ∧
      (∃ w, ((ofBase .dateOnly .standard).withFast false).validate? 1 (.string "0000-02-29") =
        some (.ok w)) ∧
      ((ofBase .dateOnly .standard).withFast false).validate? 1 (.string "2021-02-29") =
        some (.error [⟨[], .badFormat (.string "2021-02-29") "a calendar date"⟩]) := by
  have type : (ofBase .dateOnly .standard).node.OfDates ⟨none⟩ := Node.ofDates_ofBase rfl
  have leapDay : IsDayText "0000-02-29".toList 0 2 29 :=
    IsDayText.mk (y := ['0', '0', '0', '0']) (m := ['0', '2']) (d := ['2', '9'])
      ⟨rfl, List.all_eq_true.mp rfl, rfl⟩ ⟨rfl, List.all_eq_true.mp rfl, rfl⟩
      ⟨rfl, List.all_eq_true.mp rfl, rfl⟩
  have noDay : IsDayText "2021-02-29".toList 2021 2 29 :=
    IsDayText.mk (y := ['2', '0', '2', '1']) (m := ['0', '2']) (d := ['2', '9'])
      ⟨rfl, List.all_eq_true.mp rfl, rfl⟩ ⟨rfl, List.all_eq_true.mp rfl, rfl⟩
      ⟨rfl, List.all_eq_true.mp rfl, rfl⟩
  have first := validate?_dateOnly (s := "0000-02-29") type rfl 0 rfl
  have second := validate?_dateOnly (s := "2021-02-29") type rfl 0 rfl
  refine ⟨type, first.1.mpr ⟨0, 2, 29, leapDay, by decide⟩, (second.2.2.2 false).mpr ⟨rfl, ?_, ?_⟩⟩
  · exact second.2.1.mpr ⟨2021, 2, 29, noDay, .inr ⟨by decide, by decide, by decide, by decide⟩⟩
  · intro accepted
    obtain ⟨_, _, _, isDay, isDate⟩ := second.1.mp accepted
    obtain ⟨rfl, rfl, rfl⟩ := noDay.unique isDay
    exact absurd isDate (by decide)

end Validator

end Schemata

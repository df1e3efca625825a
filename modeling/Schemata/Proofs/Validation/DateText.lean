import Mathlib.Logic.Relation
import Schemata.Proofs.Calendar.Date
import Schemata.Proofs.Validation.DateReading

/-! The canonical texts of dates and times. What is read of a text, and what a native date-time
shows, has a canonical text in each form, and reading that text gives the same one again. -/

namespace Schemata

namespace DateFields

variable {f g : DateFields} {s : List Char}

/-! The forms, put together of their parts. -/

namespace Fits

theorem dateOnly? (fits : f.Fits) : DateFields.dateOnly? f.dateChars = some (epoch.onDate f) := by
  have date := fits.date? epoch []
  rw [List.append_nil] at date
  rw [DateFields.dateOnly?, date]
  rfl

theorem seconds?_end (fits : f.Fits) (fresh : g.fraction = none) :
    DateFields.seconds? (g.atMinute f) f.secondChars = some (g.atTime f, []) := by
  have seconds := fits.seconds? fresh ends_nil
  rwa [List.append_nil] at seconds

theorem timeOnly? (fits : f.Fits) : DateFields.timeOnly? f.timeChars = some (epoch.atTime f) := by
  have seconds := fits.seconds?_end (g := epoch) rfl
  simp only [DateFields.timeOnly?, timeChars, fits.minutes?, seconds, Option.bind_eq_bind,
    Option.bind_some]
  rfl

theorem dateTimeOnly? (fits : f.Fits) :
    DateFields.dateTimeOnly? (f.dateChars ++ 'T' :: f.timeChars) =
      some ((epoch.onDate f).atTime f) := by
  have seconds := fits.seconds?_end (g := epoch.onDate f) rfl
  simp only [DateFields.dateTimeOnly?, timeChars, fits.date?, mark?_cons, fits.minutes?, seconds,
    Option.bind_eq_bind, Option.bind_some]
  rfl

theorem dateTime? (fits : f.Fits) (offset : IsOffset s) :
    DateFields.dateTime? (f.dateChars ++ 'T' :: (f.timeChars ++ s)) =
      some { (epoch.onDate f).atTime f with offset := some s } := by
  have seconds := fits.seconds? (g := epoch.onDate f) rfl offset.ends
  have zone (g : DateFields) := offset?_of_isOffset offset false g []
  simp only [List.append_nil] at zone
  simp only [DateFields.dateTime?, timeChars, List.append_assoc, fits.date?, mark?_cons, Option.some_or,
    fits.minutes?, seconds, zone, Option.bind_eq_bind, Option.bind_some]
  rfl

theorem date_dateChars (fits : f.Fits) : DateFields.date f.dateChars = some (epoch.onDate f) := by
  have date := fits.date? epoch []
  rw [List.append_nil] at date
  rw [DateFields.date, date]
  rfl

theorem date_local (fits : f.Fits) :
    DateFields.date (f.dateChars ++ 'T' :: f.timeChars) = some ((epoch.onDate f).atTime f) := by
  have seconds := fits.seconds?_end (g := epoch.onDate f) rfl
  rw [secondChars] at seconds
  simp only [DateFields.date, timeChars, secondChars, fits.date?, fits.minutes?, seconds, true_or,
    if_true, Option.bind_eq_bind, Option.bind_some]
  rfl

theorem date_zoned (fits : f.Fits) (offset : IsOffset s) :
    DateFields.date (f.dateChars ++ 'T' :: (f.timeChars ++ s)) =
      some { (epoch.onDate f).atTime f with offset := some s } := by
  have seconds := fits.seconds? (g := epoch.onDate f) rfl offset.ends
  have zone (g : DateFields) := offset?_of_isOffset offset true g []
  rw [secondChars, List.cons_append] at seconds
  simp only [List.append_nil] at zone
  simp only [DateFields.date, timeChars, secondChars, List.append_assoc, List.cons_append, fits.date?,
    fits.minutes?, true_or, if_true, Option.bind_eq_bind, Option.bind_some]
  rw [← List.append_assoc, seconds, Option.bind_some]
  dsimp only
  split
  · cases offset
  · rw [zone]
    rfl

end Fits

/-! What the forms accept. -/

structure InRange (f : DateFields) : Prop where
  month : 1 ≤ f.month ∧ f.month ≤ 12
  day : 1 ≤ f.day ∧ f.day ≤ 31
  february : f.month = 2 → f.day ≤ 29
  hour : f.hour ≤ 23
  minute : f.minute ≤ 59
  second : f.second ≤ 59
  offset : ∀ text, f.offset = some text → (offsetSeconds? text).isSome = true

theorem inRange_iff : f.inRange = true ↔ f.InRange := by
  have february : (!(f.month == 2 && decide (29 < f.day))) = true ↔ (f.month = 2 → f.day ≤ 29) := by
    rw [Bool.not_eq_true', Bool.and_eq_false_imp, beq_iff_eq, decide_eq_false_iff_not, Nat.not_lt]
  unfold inRange
  simp only [Bool.and_eq_true, decide_eq_true_eq, february, Option.all_eq_true]
  constructor
  · rintro ⟨⟨⟨⟨⟨⟨month, day⟩, february⟩, hour⟩, minute⟩, second⟩, offset⟩
    exact ⟨month, day, february, hour, minute, second, offset⟩
  · rintro ⟨month, day, february, hour, minute, second, offset⟩
    exact ⟨⟨⟨⟨⟨⟨month, day⟩, february⟩, hour⟩, minute⟩, second⟩, offset⟩

theorem InRange.exists_first (inRange : f.InRange) : ∃ first,
    Calendar.Date.of? f.year f.month 1 = some first ∧ first.year = f.year ∧ first.month = f.month ∧
      first.day = 1 := by
  obtain ⟨low, high⟩ := inRange.month
  have some_days : 1 ≤ Calendar.daysInMonth f.year f.month :=
    Nat.le_trans (by decide) (Calendar.le_daysInMonth ⟨low, high⟩)
  exact Calendar.Date.exists_of? ⟨low, high, Nat.le_refl 1, some_days⟩

theorem onCalendar_iff (inRange : f.InRange) :
    f.onCalendar = true ↔ Calendar.IsDate f.year f.month f.day := by
  obtain ⟨first, found, year, month, day⟩ := inRange.exists_first
  have counted := Calendar.Date.day_addDays_eq_iff day inRange.day.1 inRange.day.2
  rw [year, month] at counted
  rw [onCalendar, calendarDate?, found, Option.map_some, Option.any_some, beq_iff_eq, counted]
  exact ⟨fun le => ⟨inRange.month.1, inRange.month.2, inRange.day.1, le⟩, fun isDate => isDate.2.2.2⟩

structure Readable (fast : Bool) (f : DateFields) : Prop where
  written : f.Written
  inRange : f.InRange
  onCalendar : (fast || f.onCalendar) = true

variable {fast : Bool}

theorem Readable.fits (h : f.Readable fast) : f.Fits where
  written := h.written
  month := Nat.lt_of_le_of_lt h.inRange.month.2 (by decide)
  day := Nat.lt_of_le_of_lt h.inRange.day.2 (by decide)
  hour := Nat.lt_of_le_of_lt h.inRange.hour (by decide)
  minute := Nat.lt_of_le_of_lt h.inRange.minute (by decide)
  second := Nat.lt_of_le_of_lt h.inRange.second (by decide)

end DateFields

namespace DateForm

open DateFields
open Relation (ReflTransGen)

variable {form : DateForm} {fast : Bool} {s : List Char} {f : DateFields}

/-- A text as read by a form, one constructor for each form. -/
inductive Reading : DateForm → List Char → DateFields → Prop
  | dateOnly {s : List Char} {f : DateFields} (date : date? epoch s = some (f, [])) :
      Reading .dateOnly s f
  | timeOnly {s rest : List Char} {f g : DateFields} (minutes : minutes? epoch s = some (g, rest))
      (seconds : seconds? g rest = some (f, [])) : Reading .timeOnly s f
  | dateTimeOnly {s rest rest' : List Char} {f d g : DateFields}
      (date : date? epoch s = some (d, 'T' :: rest)) (minutes : minutes? d rest = some (g, rest'))
      (seconds : seconds? g rest' = some (f, [])) : Reading .dateTimeOnly s f
  | dateTime {s rest rest' zone : List Char} {c : Char} {f d g k : DateFields} (mark : c = 'T' ∨ c = 't')
      (date : date? epoch s = some (d, c :: rest)) (minutes : minutes? d rest = some (g, rest'))
      (seconds : seconds? g rest' = some (k, zone)) (offset : offset? false k zone = some (f, [])) :
      Reading .dateTime s f
  | day {s : List Char} {f : DateFields} (date : date? epoch s = some (f, [])) : Reading .date s f
  | time {s rest rest' zone : List Char} {c : Char} {f d g k : DateFields}
      (mark : c = 'T' ∨ c = 't' ∨ c = ' ') (date : date? epoch s = some (d, c :: rest))
      (minutes : minutes? d rest = some (g, rest'))
      (seconds : k = g ∧ zone = rest' ∨ seconds? g rest' = some (k, zone))
      (offset : f = k ∧ zone = [] ∨ offset? true k zone = some (f, [])) : Reading .date s f

theorem zone_cases {g : DateFields}
    (h : (match s with
      | [] => some g
      | s => (offset? true g s).bind whole?) = some f) :
    f = g ∧ s = [] ∨ offset? true g s = some (f, []) := by
  split at h
  · exact .inl ⟨(Option.some.inj h).symm, rfl⟩
  · obtain ⟨⟨k, rest⟩, offset, h⟩ := Option.bind_eq_some_iff.mp h
    obtain ⟨rfl, rfl⟩ := whole?_eq_some_iff.mp h
    exact .inr offset

theorem reading_of_fields? (h : form.fields? s = some f) : Reading form s f := by
  cases form with
  | dateOnly =>
    obtain ⟨⟨g, rest⟩, date, h⟩ := Option.bind_eq_some_iff.mp h
    obtain ⟨rfl, rfl⟩ := whole?_eq_some_iff.mp h
    exact .dateOnly date
  | timeOnly =>
    obtain ⟨⟨g, rest⟩, minutes, h⟩ := Option.bind_eq_some_iff.mp h
    obtain ⟨⟨g', rest'⟩, seconds, h⟩ := Option.bind_eq_some_iff.mp h
    obtain ⟨rfl, rfl⟩ := whole?_eq_some_iff.mp h
    exact .timeOnly minutes seconds
  | dateTimeOnly =>
    obtain ⟨⟨g, rest⟩, date, h⟩ := Option.bind_eq_some_iff.mp h
    obtain ⟨rest', mark, h⟩ := Option.bind_eq_some_iff.mp h
    obtain ⟨⟨g', _⟩, minutes, h⟩ := Option.bind_eq_some_iff.mp h
    obtain ⟨⟨g'', _⟩, seconds, h⟩ := Option.bind_eq_some_iff.mp h
    obtain ⟨rfl, rfl⟩ := whole?_eq_some_iff.mp h
    obtain rfl := mark?_eq_some_iff.mp mark
    exact .dateTimeOnly date minutes seconds
  | dateTime =>
    obtain ⟨⟨g, rest⟩, date, h⟩ := Option.bind_eq_some_iff.mp h
    obtain ⟨rest', mark, h⟩ := Option.bind_eq_some_iff.mp h
    obtain ⟨⟨g', _⟩, minutes, h⟩ := Option.bind_eq_some_iff.mp h
    obtain ⟨⟨g'', _⟩, seconds, h⟩ := Option.bind_eq_some_iff.mp h
    obtain ⟨⟨k, _⟩, offset, h⟩ := Option.bind_eq_some_iff.mp h
    obtain ⟨rfl, rfl⟩ := whole?_eq_some_iff.mp h
    rw [Option.or_eq_some_iff] at mark
    rcases mark with mark | ⟨-, mark⟩
    · obtain rfl := mark?_eq_some_iff.mp mark
      exact .dateTime (.inl rfl) date minutes seconds offset
    · obtain rfl := mark?_eq_some_iff.mp mark
      exact .dateTime (.inr rfl) date minutes seconds offset
  | date =>
    obtain ⟨⟨g, rest⟩, date, h⟩ := Option.bind_eq_some_iff.mp h
    dsimp only at h
    split at h
    · obtain rfl := Option.some.inj h
      exact .day date
    · split at h
      · rename_i mark
        obtain ⟨⟨g', rest'⟩, minutes, h⟩ := Option.bind_eq_some_iff.mp h
        dsimp only at h
        split at h
        · obtain ⟨⟨g'', rest''⟩, seconds, h⟩ := Option.bind_eq_some_iff.mp h
          exact .time mark date minutes (.inr seconds) (zone_cases h)
        · exact .time mark date minutes (.inl ⟨rfl, rfl⟩) (zone_cases h)
      · cases h

/-! What every step of reading keeps. -/

theorem fresh_of_date? {g : DateFields} {rest : List Char} (date : date? epoch s = some (g, rest)) :
    g.fraction = none := by
  obtain ⟨_, _, _, _, -, -, rfl⟩ := date?_eq_some_iff.mp date
  rfl

theorem fresh_of_minutes? {g : DateFields} {rest : List Char} (fresh : f.fraction = none)
    (minutes : minutes? f s = some (g, rest)) : g.fraction = none := by
  obtain ⟨_, _, _, -, -, rfl⟩ := minutes?_eq_some_iff.mp minutes
  exact fresh

/-- A form reads a text step by step, to its end. -/
theorem Reading.steps (h : Reading form s f) : ReflTransGen Step (epoch, s) (f, []) := by
  cases h with
  | dateOnly date => exact .single (.date date)
  | timeOnly minutes seconds =>
    exact .head (.minutes minutes) (.single (.seconds (fresh_of_minutes? rfl minutes) seconds))
  | dateTimeOnly date minutes seconds =>
    have fresh := fresh_of_minutes? (fresh_of_date? date) minutes
    exact .head (.date date) (.head (.mark (.inl rfl))
      (.head (.minutes minutes) (.single (.seconds fresh seconds))))
  | dateTime mark date minutes seconds offset =>
    have fresh := fresh_of_minutes? (fresh_of_date? date) minutes
    exact .head (.date date) (.head (.mark (mark.imp id .inl))
      (.head (.minutes minutes) (.head (.seconds fresh seconds) (.single (.offset offset)))))
  | day date => exact .single (.date date)
  | time mark date minutes seconds offset =>
    have fresh := fresh_of_minutes? (fresh_of_date? date) minutes
    refine .head (.date date) (.head (.mark mark) (.head (.minutes minutes) ?_))
    rcases seconds with ⟨rfl, rfl⟩ | seconds
    · rcases offset with ⟨rfl, rfl⟩ | offset
      · exact .refl
      · exact .single (.offset offset)
    · rcases offset with ⟨rfl, rfl⟩ | offset
      · exact .single (.seconds fresh seconds)
      · exact .head (.seconds fresh seconds) (.single (.offset offset))

theorem written_of_fields? (h : form.fields? s = some f) : f.Written := by
  have kept {a b : DateFields × List Char} (steps : ReflTransGen Step a b) :
      a.1.Written → b.1.Written := by
    induction steps with
    | refl => exact id
    | tail _ step ih => exact fun written => step.written (ih written)
  exact kept (reading_of_fields? h).steps written_epoch

theorem isAscii_iff_of_fields? (h : form.fields? s = some f) :
    Text.IsAscii s ↔ Text.IsAscii f.fractionText := by
  have kept {a b : DateFields × List Char} (steps : ReflTransGen Step a b) : Plain a ↔ Plain b := by
    induction steps with
    | refl => exact Iff.rfl
    | tail _ step ih => exact ih.trans step.plain_iff
  have nothing : Text.IsAscii [] := fun _ h => nomatch h
  have plain := kept (reading_of_fields? h).steps
  exact (and_iff_left nothing).symm.trans (plain.trans (and_iff_right nothing))

theorem read_eq_ok_iff : form.read fast s = .ok f ↔
    form.fields? s = some f ∧ f.InRange ∧ (fast || f.onCalendar) = true := by
  unfold read
  rcases form.fields? s with _ | g
  · exact ⟨fun h => (nomatch h), fun h => nomatch h.1⟩
  · dsimp only
    rw [Option.some_inj]
    constructor
    · intro h
      split at h
      · cases h
      · rename_i inRange
        rw [Bool.not_eq_true', Bool.not_eq_false] at inRange
        split at h
        · rename_i onCalendar
          obtain rfl := Except.ok.inj h
          exact ⟨rfl, inRange_iff.mp inRange, onCalendar⟩
        · cases h
    · rintro ⟨rfl, inRange, onCalendar⟩
      rw [inRange_iff.mpr inRange, if_pos onCalendar]
      rfl

/-- The form is to blame for the texts that cannot be read without a look at the calendar. -/
theorem read_eq_form_iff : form.read fast s = .error .form ↔ ¬∃ f, form.read true s = .ok f := by
  simp only [read_eq_ok_iff, Bool.true_or, and_true, not_exists, not_and]
  unfold read
  rcases form.fields? s with _ | g
  · exact iff_of_true rfl fun _ h => nomatch h
  · simp only [Option.some_inj, forall_eq', ← inRange_iff, Bool.not_eq_true, Bool.not_eq_true']
    split
    · rename_i outside
      exact iff_of_true rfl outside
    · rename_i inRange
      refine iff_of_false (fun h => ?_) inRange
      split at h <;> cases h

/-- The calendar is to blame for the texts that can be read without a look at it, but not with one. -/
theorem read_eq_calendar_iff : form.read fast s = .error .calendar ↔
    fast = false ∧ (∃ f, form.read true s = .ok f) ∧ ¬∃ f, form.read false s = .ok f := by
  constructor
  · intro h
    have unread : ¬form.read fast s = .error .form := fun same => nomatch same.symm.trans h
    have loosely : ∃ f, form.read true s = .ok f := not_not.mp (unread ∘ read_eq_form_iff.mpr)
    cases fast with
    | false => exact ⟨rfl, loosely, fun ⟨_, read⟩ => nomatch read.symm.trans h⟩
    | true =>
      obtain ⟨_, read⟩ := loosely
      cases read.symm.trans h
  · rintro ⟨rfl, loosely, strictly⟩
    rcases stopped : form.read false s with (_ | _) | f
    · exact absurd loosely (read_eq_form_iff.mp stopped)
    · rfl
    · exact absurd ⟨f, stopped⟩ strictly

theorem readable_of_read (h : form.read fast s = .ok f) : f.Readable fast := by
  obtain ⟨found, inRange, onCalendar⟩ := read_eq_ok_iff.mp h
  exact ⟨written_of_fields? found, inRange, onCalendar⟩

def shown : DateForm → DateFields → DateFields
  | date, f =>
    if f.hasTime then { (epoch.onDate f).atTime f with offset := f.offset } else epoch.onDate f
  | dateOnly, f => epoch.onDate f
  | timeOnly, f => epoch.atTime f
  | dateTimeOnly, f => (epoch.onDate f).atTime f
  | dateTime, f => { (epoch.onDate f).atTime f with offset := some (f.offset.getD ['Z']) }

theorem isOffset_getD (written : f.Written) : IsOffset (f.offset.getD ['Z']) := by
  rcases ho : f.offset with _ | text
  · exact .universal
  · exact written.offset text ho

def chars : DateForm → DateFields → List Char
  | date, f =>
    if f.hasTime then
      match f.offset with
      | some text => f.dateChars ++ 'T' :: (f.timeChars ++ text)
      | none => f.dateChars ++ 'T' :: f.timeChars
    else f.dateChars
  | dateOnly, f => f.dateChars
  | timeOnly, f => f.timeChars
  | dateTimeOnly, f => f.dateChars ++ 'T' :: f.timeChars
  | dateTime, f => f.dateChars ++ 'T' :: (f.timeChars ++ f.offset.getD ['Z'])

theorem asWritten?_eq (fits : f.Fits) : f.asWritten? = some (date.chars f) := by
  rcases timed : f.hasTime with _ | _
  · simp only [asWritten?, chars, timed, fits.datePart?_eq]
    rfl
  · rcases ho : f.offset with _ | text
    · simp only [asWritten?, chars, timed, ho, fits.localPart?_eq]
      rfl
    · simp only [asWritten?, chars, timed, ho, iso_eq]
      rfl

theorem piece?_eq (fits : f.Fits) (form : DateForm) : form.piece? f = some (form.chars f) := by
  cases form with
  | date => exact asWritten?_eq fits
  | dateOnly => exact fits.datePart?_eq
  | timeOnly => exact fits.timePart?_eq
  | dateTimeOnly => exact fits.localPart?_eq
  | dateTime => exact congrArg some f.iso_eq

theorem canonical_eq (fits : f.Fits) (form : DateForm) : form.canonical f = form.chars f := by
  rw [canonical, piece?_eq fits, Option.getD_some]

theorem fields?_canonical (fits : f.Fits) (form : DateForm) :
    form.fields? (form.canonical f) = some (form.shown f) := by
  rw [canonical_eq fits]
  cases form with
  | dateOnly => exact fits.dateOnly?
  | timeOnly => exact fits.timeOnly?
  | dateTimeOnly => exact fits.dateTimeOnly?
  | dateTime => exact fits.dateTime? (isOffset_getD fits.written)
  | date =>
    simp only [fields?, chars, shown]
    cases f.hasTime
    · exact fits.date_dateChars
    · rcases ho : f.offset with _ | text
      · exact fits.date_local
      · exact fits.date_zoned (fits.written.offset text ho)

theorem chars_shown (form : DateForm) (f : DateFields) : form.chars (form.shown f) = form.chars f := by
  cases form with
  | date =>
    rcases timed : f.hasTime with _ | _
    · simp only [shown, chars, timed]
      rfl
    · simp only [shown, chars, timed]
      rfl
  | _ => rfl

theorem canonical_shown (fits : f.Fits) (fits' : (form.shown f).Fits) :
    form.canonical (form.shown f) = form.canonical f := by
  rw [canonical_eq fits', canonical_eq fits, chars_shown]

theorem inRange_onDate (inRange : f.InRange) : (epoch.onDate f).InRange :=
  ⟨inRange.month, inRange.day, inRange.february, Nat.zero_le _, Nat.zero_le _, Nat.zero_le _,
    fun _ h => nomatch h⟩

theorem inRange_atTime {g : DateFields} (date : g.InRange) (inRange : f.InRange) :
    (g.atTime f).InRange :=
  ⟨date.month, date.day, date.february, inRange.hour, inRange.minute, inRange.second, date.offset⟩

theorem readable_shown (h : f.Readable fast) (form : DateForm) : (form.shown f).Readable fast := by
  have written := h.written
  have onDate := inRange_onDate h.inRange
  have onTime := inRange_atTime onDate h.inRange
  have zoned {g : DateFields} (inRange : g.InRange) (offset : Option (List Char))
      (known : ∀ text, offset = some text → (offsetSeconds? text).isSome = true) :
      { g with offset := offset }.InRange :=
    { inRange with offset := known }
  cases form with
  | dateOnly =>
    exact ⟨⟨written.year, fun _ h => (nomatch h), fun _ h => nomatch h⟩, onDate, h.onCalendar⟩
  | timeOnly =>
    refine ⟨⟨written_epoch.year, written.fraction, fun _ h => nomatch h⟩, ?_, Bool.or_eq_true_iff.mpr (.inr rfl)⟩
    exact inRange_atTime (inRange_iff.mp rfl) h.inRange
  | dateTimeOnly =>
    exact ⟨⟨written.year, written.fraction, fun _ h => nomatch h⟩, onTime, h.onCalendar⟩
  | dateTime =>
    refine ⟨⟨written.year, written.fraction, ?_⟩, zoned onTime _ ?_, h.onCalendar⟩
    · rintro _ ⟨⟩
      exact isOffset_getD written
    · rintro _ ⟨⟩
      rcases ho : f.offset with _ | text
      · rfl
      · exact h.inRange.offset text ho
  | date =>
    rw [shown]
    split
    · exact ⟨⟨written.year, written.fraction, written.offset⟩,
        zoned onTime _ h.inRange.offset, h.onCalendar⟩
    · exact ⟨⟨written.year, fun _ h => (nomatch h), fun _ h => nomatch h⟩, onDate, h.onCalendar⟩

theorem read_canonical (h : f.Readable fast) (form : DateForm) :
    form.read fast (form.canonical f) = .ok (form.shown f) := by
  have readable := readable_shown h form
  exact read_eq_ok_iff.mpr ⟨fields?_canonical h.fits form, readable.inRange, readable.onCalendar⟩

theorem exists_read_canonicalText (h : f.Readable fast) (form : DateForm) :
    ∃ g, form.read fast (form.canonicalText f).toList = .ok g ∧
      form.canonicalText g = form.canonicalText f := by
  refine ⟨form.shown f, ?_, ?_⟩
  · rw [canonicalText, String.toList_ofList]
    exact read_canonical h form
  · exact congrArg String.ofList (canonical_shown h.fits (readable_shown h form).fits)

end DateForm

/-! Native date-times. -/

namespace DateFields

theorem trimZeros_sublist (digits : List Char) : (trimZeros digits).Sublist digits := by
  have dropped := (List.dropWhile_sublist (· == '0') (l := digits.reverse)).reverse
  rwa [List.reverse_reverse] at dropped

theorem numeralValue_of_trimZeros {digits : List Char} (h : trimZeros digits = []) :
    Text.numeralValue digits = 0 := by
  obtain ⟨k, split⟩ := Text.exists_zeros_append digits
  change digits = trimZeros digits ++ _ at split
  rw [split, h, Text.numeralValue_append_zeros]
  rfl

theorem isOffset_nativeOffset {seconds : Int} (bound : seconds.natAbs < 86400) :
    IsOffset (nativeOffset seconds) := by
  unfold nativeOffset
  split
  · exact .universal
  · apply IsOffset.local
    · split
      · exact .inr rfl
      · exact .inl rfl
    · omega
    · omega

theorem offsetSeconds?_local {c : Char} {hours minutes : Nat} (sign : c = '+' ∨ c = '-')
    (hours_lt : hours < 100) (minutes_lt : minutes < 100) :
    offsetSeconds? (c :: Text.paddedNumeral 2 hours ++ ':' :: Text.paddedNumeral 2 minutes) =
      if 23 < hours ∨ 59 < minutes then none
      else some (if c = '-' then -(hours * 3600 + minutes * 60 : Int) else hours * 3600 + minutes * 60) := by
  have read (rest : List Char) := digits?_paddedNumeral 2 (by decide) hours_lt rest
  have read' := digits?_paddedNumeral 2 (by decide) minutes_lt []
  rw [List.append_nil] at read'
  rw [List.cons_append, offsetSeconds?]
  · simp only [read, mark?_cons, read', Option.bind_eq_bind, Option.bind_some]
  · rintro rfl
    exact absurd sign (by decide)

theorem offsetSeconds?_nativeOffset {seconds : Int} (bound : seconds.natAbs < 86400) :
    (offsetSeconds? (nativeOffset seconds)).isSome = true := by
  unfold nativeOffset
  split
  · rfl
  · have sign : (if seconds < 0 then '-' else '+') = '+' ∨ (if seconds < 0 then '-' else '+') = '-' := by
      split
      · exact .inr rfl
      · exact .inl rfl
    have hours : seconds.natAbs / 3600 < 100 := by omega
    have minutes : seconds.natAbs % 3600 / 60 < 100 := by omega
    have read := offsetSeconds?_local sign hours minutes
    have within : ¬(23 < seconds.natAbs / 3600 ∨ 59 < seconds.natAbs % 3600 / 60) := by omega
    exact Option.isSome_of_eq_some (read.trans (if_neg within))

theorem written_ofNative {d : Calendar.DateTime} (year : 0 ≤ d.date.year ∧ d.date.year ≤ 9999) :
    (ofNative d).Written := by
  refine ⟨year, ?_, ?_⟩
  · intro digits h
    have bound : d.time.fraction < 10 ^ 9 := Nat.mod_lt _ (by decide)
    have length := Text.length_paddedNumeral 9 (by decide) bound
    have h : (if d.time.fraction = 0 then none
      else some (trimZeros (Text.paddedNumeral 9 d.time.fraction))) = some digits := h
    split at h
    · cases h
    · rename_i nonzero
      obtain rfl := Option.some.inj h
      have trimmed := trimZeros_sublist (Text.paddedNumeral 9 d.time.fraction)
      have short := trimmed.length_le
      rw [length] at short
      refine ⟨fun none => nonzero ?_, short, fun c hc => ?_⟩
      · rw [← Text.numeralValue_paddedNumeral 9 d.time.fraction]
        exact numeralValue_of_trimZeros none
      · exact Bool.or_eq_true_iff.mpr (.inl (Text.isDigit_of_mem_paddedNumeral (trimmed.subset hc)))
  · rintro _ ⟨⟩
    exact isOffset_nativeOffset d.offset_lt

theorem inRange_ofNative (d : Calendar.DateTime) : (ofNative d).InRange := by
  obtain ⟨first, last, low, high⟩ := d.date.isDate
  obtain ⟨hour, minute, second, -⟩ := d.time.inRange
  refine ⟨⟨first, last⟩, ⟨low, ?_⟩, ?_, Nat.le_of_lt_succ hour, Nat.le_of_lt_succ minute,
    Nat.le_of_lt_succ second, ?_⟩
  · exact Nat.le_trans high (Calendar.daysInMonth_le _ _)
  · intro february
    have february : d.date.month = 2 := february
    rw [february] at high
    exact Nat.le_trans high (Calendar.daysInMonth_two_le _)
  · rintro _ ⟨⟩
    exact offsetSeconds?_nativeOffset d.offset_lt

theorem readable_ofNative (fast : Bool) {d : Calendar.DateTime}
    (year : 0 ≤ d.date.year ∧ d.date.year ≤ 9999) : (ofNative d).Readable fast :=
  ⟨written_ofNative year, inRange_ofNative d,
    Bool.or_eq_true_iff.mpr (.inr ((onCalendar_iff (inRange_ofNative d)).mpr d.date.isDate))⟩

end DateFields

end Schemata

import Mathlib.Data.List.DropRight
import Schemata.Proofs.Validation.DateNative

/-! From text to native date-time and back. Trailing zeros of the fraction and the sign of a zero
offset are lost; everything else is kept. -/

namespace Schemata

namespace DateFields

variable {f : DateFields} {d : Calendar.DateTime} {digits text : List Char} {nanos : Nat} {seconds : Int}

def conciseOffset (text : List Char) : List Char :=
  if text = "+00:00".toList ∨ text = "-00:00".toList then ['Z'] else text

/-- The same fields without the zeros at the end of the fraction, and with `Z` for an offset of nothing. A
fraction of zeros is none. -/
def concise (f : DateFields) : DateFields :=
  { f with
    fraction := (f.fraction.map (List.rdropWhile (· == '0'))).filter (!·.isEmpty)
    offset := f.offset.map conciseOffset }

/-- The parts of a native date-time, and the fields that they are of. -/
structure Gives (f : DateFields) (nanos : Nat) (d : Calendar.DateTime) : Prop where
  date : f.calendarDate? = some d.date
  fraction : nanos? f.fraction = some nanos
  hour : d.time.hour = f.hour
  minute : d.time.minute = f.minute
  second : d.time.second = f.second
  nano : d.time.nano = nanos
  offset : offsetSeconds? (f.offset.getD ['Z']) = some d.offset

theorem exists_gives (known : f.toNative? = some d) : ∃ nanos, f.Gives nanos d := by
  unfold toNative? at known
  simp only [Option.bind_eq_bind, Option.bind_eq_some_iff] at known
  obtain ⟨date, counted, nanos, fraction, time, clock, seconds, zone, instant⟩ := known
  unfold Calendar.TimeOfDay.of? at clock
  unfold Calendar.DateTime.of? at instant
  split at clock
  · obtain rfl := Option.some.inj clock
    split at instant
    · obtain rfl := Option.some.inj instant
      exact ⟨nanos, counted, fraction, rfl, rfl, rfl, rfl, zone⟩
    · cases instant
  · cases clock

theorem date_of_calendarDate? (readable : f.Readable false) {date : Calendar.Date}
    (counted : f.calendarDate? = some date) :
    date.year = f.year ∧ date.month = f.month ∧ date.day = f.day := by
  obtain ⟨-, -, low, high⟩ := (onCalendar_iff readable.inRange).mp readable.onCalendar
  obtain ⟨first, found, year, month, day⟩ := readable.inRange.exists_first
  rw [calendarDate?, found, Option.map_some] at counted
  obtain rfl := Option.some.inj counted
  have within : first.day + (f.day - 1) ≤ Calendar.daysInMonth first.year first.month := by
    rw [year, month, day]
    omega
  obtain ⟨year', month', day'⟩ := Calendar.Date.addDays_within within
  exact ⟨year'.trans year, month'.trans month, by omega⟩

/-! The fraction. -/

theorem trimZeros_append_zeros (digits : List Char) (k : Nat) :
    trimZeros (digits ++ List.replicate k '0') = trimZeros digits := by
  have zero : ∀ c ∈ List.replicate k '0', (c == '0') = true :=
    fun c hc => beq_iff_eq.mpr (List.eq_of_mem_replicate hc)
  rw [trimZeros, List.reverse_append, List.reverse_replicate, List.dropWhile_append_of_pos zero]
  rfl

theorem paddedNumeral_of_nanos? (written : f.Written) (has : f.fraction = some digits)
    (h : nanos? f.fraction = some nanos) :
    Text.paddedNumeral 9 nanos = digits ++ List.replicate (9 - digits.length) '0' := by
  obtain ⟨some_digits, short, -⟩ := written.fraction digits has
  rw [has, nanos?, Text.numeral?] at h
  split at h
  · rename_i numeral
    obtain rfl := Option.some.inj h
    have isDigit := List.all_eq_true.mp (Bool.and_eq_true_iff.mp numeral).2
    have some_text : digits ++ List.replicate (9 - digits.length) '0' ≠ [] :=
      fun none => some_digits (List.append_eq_nil_iff.mp none).1
    have padded := Text.paddedNumeral_numeralValue some_text isDigit
    rwa [List.length_append, List.length_replicate, Nat.add_sub_cancel' short] at padded
  · cases h

theorem trimZeros_eq_nil_iff (written : f.Written) (has : f.fraction = some digits)
    (h : nanos? f.fraction = some nanos) : trimZeros digits = [] ↔ nanos = 0 := by
  have padded := paddedNumeral_of_nanos? written has h
  constructor
  · intro trimmed
    rw [← Text.numeralValue_paddedNumeral 9 nanos, padded]
    refine numeralValue_of_trimZeros ?_
    rw [trimZeros_append_zeros, trimmed]
  · rintro rfl
    rw [← trimZeros_append_zeros digits (9 - digits.length), ← padded]
    decide

theorem fraction_ofNative (written : f.Written) (gives : f.Gives nanos d) :
    (ofNative d).fraction = f.concise.fraction := by
  have read := gives.fraction
  have shown : (ofNative d).fraction = if nanos % 1000000000 = 0 then none
      else some (trimZeros (Text.paddedNumeral 9 (nanos % 1000000000))) := by
    rw [← gives.nano]
    rfl
  rw [shown, concise]
  rcases has : f.fraction with _ | digits
  · rw [has] at read
    obtain rfl := Option.some.inj read
    rfl
  · have padded := paddedNumeral_of_nanos? written has read
    have small : nanos % 1000000000 = nanos := Nat.mod_eq_of_lt (by
      obtain ⟨nanos', read', bound⟩ := exists_nanos? written (isAscii_of_nanos? read)
      rwa [Option.some.inj (read.symm.trans read')])
    have trimmed : digits.rdropWhile (· == '0') = trimZeros digits := rfl
    rw [small, padded, trimZeros_append_zeros, Option.map_some, trimmed, Option.filter_some]
    simp only [Bool.not_eq_true', List.isEmpty_eq_false_iff, ne_eq, trimZeros_eq_nil_iff written has read,
      ite_not]

/-! The offset. -/

theorem conciseOffset_of_ne_zero (h : offsetSeconds? text = some seconds) (nonzero : seconds ≠ 0) :
    conciseOffset text = text := by
  refine if_neg fun zero => nonzero ?_
  rcases zero with rfl | rfl
  · exact Option.some.inj (h.symm.trans (by decide))
  · exact Option.some.inj (h.symm.trans (by decide))

theorem nativeOffset_of_offsetSeconds? (offset : IsOffset text) (h : offsetSeconds? text = some seconds) :
    nativeOffset seconds = conciseOffset text := by
  cases offset with
  | universal =>
    obtain rfl := Option.some.inj h
    rfl
  | @«local» c hours minutes sign hours_lt minutes_lt =>
    have read := h
    rw [offsetSeconds?_local sign hours_lt minutes_lt] at h
    split at h
    · cases h
    · rename_i within
      have seconds_eq := Option.some.inj h
      by_cases zero : seconds = 0
      · have none : hours = 0 ∧ minutes = 0 := by
          split at seconds_eq <;> omega
        obtain ⟨rfl, rfl⟩ := none
        rw [zero]
        rcases sign with rfl | rfl <;> decide
      · rw [conciseOffset_of_ne_zero read zero, nativeOffset, if_neg zero]
        have size : seconds.natAbs = hours * 3600 + minutes * 60 := by
          split at seconds_eq <;> omega
        have whole : seconds.natAbs / 3600 = hours := by omega
        have rest : seconds.natAbs % 3600 / 60 = minutes := by omega
        have mark : (if seconds < 0 then '-' else '+') = c := by
          rcases sign with rfl | rfl
          · rw [if_neg (by decide)] at seconds_eq
            exact if_neg (by omega)
          · rw [if_pos rfl] at seconds_eq
            exact if_pos (by omega)
        rw [whole, rest, mark]
        rfl

theorem ofNative_eq (readable : f.Readable false) (known : f.toNative? = some d) :
    ofNative d = { f.concise with offset := some (f.concise.offset.getD ['Z']), hasTime := true } := by
  obtain ⟨nanos, gives⟩ := exists_gives known
  obtain ⟨year, month, day⟩ := date_of_calendarDate? readable gives.date
  have fraction := fraction_ofNative readable.written gives
  have offset : nativeOffset d.offset = f.concise.offset.getD ['Z'] := by
    have isOffset := DateForm.isOffset_getD readable.written
    rw [nativeOffset_of_offsetSeconds? isOffset gives.offset, concise]
    rcases f.offset with _ | text <;> rfl
  have shown : ofNative d = ⟨d.date.year, d.date.month, d.date.day, d.time.hour, d.time.minute,
      d.time.second, (ofNative d).fraction, some (nativeOffset d.offset), true⟩ := rfl
  rw [shown, year, month, day, gives.hour, gives.minute, gives.second, fraction, offset]
  rfl

theorem isOffset_conciseOffset (offset : IsOffset text) : IsOffset (conciseOffset text) := by
  unfold conciseOffset
  split
  · exact .universal
  · exact offset

theorem Written.concise (written : f.Written) : f.concise.Written := by
  refine ⟨written.year, fun digits h => ?_, fun text h => ?_⟩
  · obtain ⟨kept, some_digit⟩ := Option.filter_eq_some_iff.mp h
    obtain ⟨all, has, rfl⟩ := Option.map_eq_some_iff.mp kept
    obtain ⟨-, short, decimal⟩ := written.fraction all has
    have front : all.rdropWhile (· == '0') <+: all := List.rdropWhile_prefix _ _
    refine ⟨?_, Nat.le_trans front.length_le short, fun c hc => decimal c (front.subset hc)⟩
    exact List.isEmpty_eq_false_iff.mp (Bool.not_eq_true' _ ▸ some_digit)
  · obtain ⟨text, has, rfl⟩ := Option.map_eq_some_iff.mp h
    exact isOffset_conciseOffset (written.offset text has)

theorem Fits.concise (fits : f.Fits) : f.concise.Fits :=
  ⟨fits.written.concise, fits.month, fits.day, fits.hour, fits.minute, fits.second⟩

end DateFields

namespace DateForm

open DateFields

variable {form : DateForm} {f : DateFields} {d : Calendar.DateTime}

/-- The canonical text of a native date-time is that of the text it was read from, up to trailing
zeros of the fraction and the sign of a zero offset. -/
theorem canonicalText_ofNative (fixed : form ≠ .date) {text : String}
    (h : form.read false text.toList = .ok f) (known : f.toNative? = some d) :
    form.canonicalText (.ofNative d) = form.canonicalText f.concise := by
  have readable := readable_of_read h
  have shown := ofNative_eq readable known
  have year : 0 ≤ d.date.year ∧ d.date.year ≤ 9999 := by
    have same : d.date.year = f.year := congrArg DateFields.year shown
    rw [same]
    exact readable.written.year
  rw [canonicalText, canonicalText, canonical_eq (readable_ofNative false year).fits,
    canonical_eq readable.fits.concise, shown]
  cases form with
  | date => exact absurd rfl fixed
  | _ => rfl

theorem canonicalText_ofNative_of_zeros :
    dateTime.read false "2020-02-29T10:00:00.500-00:00".toList =
        .ok ⟨2020, 2, 29, 10, 0, 0, some ['5', '0', '0'], some "-00:00".toList, true⟩ ∧
      ∃ d, toNative? ⟨2020, 2, 29, 10, 0, 0, some ['5', '0', '0'], some "-00:00".toList, true⟩ = some d ∧
        dateTime.canonicalText (.ofNative d) = "2020-02-29T10:00:00.5Z" := by
  have read : dateTime.read false "2020-02-29T10:00:00.500-00:00".toList =
      .ok ⟨2020, 2, 29, 10, 0, 0, some ['5', '0', '0'], some "-00:00".toList, true⟩ := by
    decide +kernel
  have some := (isSome_toNative?_iff (readable_of_read read)).mpr (by decide)
  obtain ⟨d, known⟩ := Option.isSome_iff_exists.mp some
  exact ⟨read, d, known, (canonicalText_ofNative (by decide) read known).trans (by decide)⟩

end DateForm

end Schemata

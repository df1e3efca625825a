import Schemata.Proofs.Validation.DateTypes

/-! The texts of native date-times, validated again. ISO text is cut, and read, at places that
assume a year of four digits, so other years do not come out as they went in; a time alone also fits
negative years of three digits. -/

namespace Schemata

namespace DateFields

variable {f g : DateFields} {s rest : List Char}

theorem lt_length_yearText {year : Int} (wide : ¬(-999 ≤ year ∧ year ≤ 9999)) :
    4 < (yearText year).length := by
  unfold yearText
  split
  · exact Nat.succ_lt_succ (Text.lt_length_paddedNumeral (by decide) (by omega))
  · exact Text.lt_length_paddedNumeral (by decide) (by omega)

/-! Texts with the date, which start with the year. -/

theorem date?_append (h : date? f s = some (g, rest)) (more : List Char) :
    date? f (s ++ more) = some (g, rest ++ more) := by
  obtain ⟨text, year, month, day, isDay, rfl, rfl⟩ := date?_eq_some_iff.mp h
  exact date?_eq_some_iff.mpr ⟨text, year, month, day, isDay, List.append_assoc .., rfl⟩

theorem digits_unique {a b : List Char} (digits : ∀ c ∈ a, c.isDigit = true)
    (digits' : ∀ c ∈ b, c.isDigit = true) (same : a ++ '-' :: s = b ++ '-' :: rest) : a = b := by
  have ends (more : List Char) : ∀ c ∈ ('-' :: more).head?, c.isDigit = false := by
    rintro _ ⟨⟩
    rfl
  rw [← (Text.span_append digits (ends s)).1, same, (Text.span_append digits' (ends rest)).1]

theorem year_of_date? {k : DateFields} (h : date? g f.iso = some (k, rest)) :
    0 ≤ f.year ∧ f.year ≤ 9999 := by
  obtain ⟨_, _, _, _, ⟨years, -, -⟩, split, -⟩ := date?_eq_some_iff.mp h
  rw [iso_eq, dateChars] at split
  simp only [List.append_assoc, List.cons_append] at split
  unfold yearText at split
  split at split
  · have digits := digits_unique (List.forall_mem_nil _) years.digit split
    rw [← digits] at years
    cases years.length
  · rename_i nonnegative
    have digits := digits_unique (fun _ => Text.isDigit_of_mem_paddedNumeral) years.digit split
    refine ⟨Int.not_lt.mp nonnegative, ?_⟩
    by_contra wide
    have long : 4 < (Text.paddedNumeral 4 f.year.natAbs).length :=
      Text.lt_length_paddedNumeral (by decide) (by omega)
    rw [digits, years.length] at long
    exact absurd long (by decide)

/-! Texts of a time alone, which start behind the place where a year of four places would end. -/

theorem colon_of_minutes? (h : minutes? f s = some (g, rest)) : s[2]? = some ':' := by
  obtain ⟨_, _, _, ⟨hours, -⟩, rfl, -⟩ := minutes?_eq_some_iff.mp h
  rw [List.append_assoc, List.getElem?_append_right (Nat.le_of_eq hours.length), hours.length]
  rfl

def untilHour (f : DateFields) : List Char := f.dateChars ++ 'T' :: Text.paddedNumeral 2 f.hour

theorem iso_eq_untilHour (f : DateFields) : ∃ more, f.iso = f.untilHour ++ ':' :: more := by
  refine ⟨Text.paddedNumeral 2 f.minute ++ (f.secondChars ++ f.offset.getD ['Z']), ?_⟩
  simp only [iso_eq, untilHour, timeChars, minuteChars, List.append_assoc, List.cons_append]

theorem isAscii_untilHour (f : DateFields) : Text.IsAscii f.untilHour :=
  Text.isAscii_append.mpr ⟨isAscii_dateChars f,
    Text.isAscii_cons.mpr ⟨by decide, Text.isAscii_paddedNumeral _ _⟩⟩

theorem colon_not_mem_untilHour (f : DateFields) : ':' ∉ f.untilHour := by
  have numeral (width n : Nat) : ':' ∉ Text.paddedNumeral width n :=
    fun h => nomatch Text.isDigit_of_mem_paddedNumeral h
  have year : ':' ∉ yearText f.year := by
    unfold yearText
    split
    · exact List.not_mem_cons_of_ne_of_not_mem (by decide) (numeral _ _)
    · exact numeral _ _
  simp only [untilHour, dateChars, List.mem_append, List.mem_cons, year, numeral, false_or, or_false,
    not_or]
  decide

theorem lt_length_untilHour (wide : ¬(-999 ≤ f.year ∧ f.year ≤ 9999)) : 13 < f.untilHour.length := by
  have year := lt_length_yearText wide
  have month := Text.le_length_paddedNumeral 2 f.month
  have day := Text.le_length_paddedNumeral 2 f.day
  have hour := Text.le_length_paddedNumeral 2 f.hour
  simp only [untilHour, dateChars, List.length_append, List.length_cons]
  omega

theorem no_colon (wide : ¬(-999 ≤ f.year ∧ f.year ≤ 9999)) {place : Nat} (early : place ≤ 13) :
    f.iso[place]? ≠ some ':' := by
  intro colon
  obtain ⟨more, split⟩ := iso_eq_untilHour f
  have long := lt_length_untilHour wide
  rw [split, List.getElem?_append_left (Nat.lt_of_le_of_lt early long)] at colon
  exact colon_not_mem_untilHour f (List.mem_of_getElem? colon)

theorem length_eq_of_byteCount {front back : List Char} (wide : ¬(-999 ≤ f.year ∧ f.year ≤ 9999))
    (split : f.iso = front ++ back) (count : Text.byteCount front = 11) : front.length = 11 := by
  obtain ⟨more, split'⟩ := iso_eq_untilHour f
  have short : front.length ≤ f.untilHour.length := by
    have long := lt_length_untilHour wide
    have bytes := Text.length_le_byteCount front
    omega
  have both : front <+: f.iso ∧ f.untilHour <+: f.iso :=
    ⟨split ▸ List.prefix_append front back, split' ▸ List.prefix_append _ _⟩
  have starts : front <+: f.untilHour := List.prefix_of_prefix_length_le both.1 both.2 short
  have ascii : Text.IsAscii front := fun c hc => isAscii_untilHour f c (starts.subset hc)
  rw [← Text.byteCount_of_isAscii ascii, count]

end DateFields

namespace DateForm

open DateFields

variable {form : DateForm} {f : DateFields}

/-- The years whose ISO text the form can cut at its fixed places. -/
def FitsYear : DateForm → Int → Prop
  | timeOnly, year => -999 ≤ year ∧ year ≤ 9999
  | _, year => 0 ≤ year ∧ year ≤ 9999

theorem canonical_prefix (dated : form ≠ .timeOnly) (f : DateFields) : form.canonical f <+: f.iso := by
  have front {size : Nat} : (Text.slice? 0 size f.iso).getD f.iso <+: f.iso := by
    rcases cut : Text.slice? 0 size f.iso with _ | piece
    · exact List.prefix_refl _
    · exact Text.prefix_of_slice? cut
  cases form with
  | timeOnly => exact absurd rfl dated
  | date =>
    rw [canonical, piece?, asWritten?]
    split
    · exact front
    · split
      · exact List.prefix_refl _
      · exact front
  | dateOnly => exact front
  | dateTimeOnly => exact front
  | dateTime => exact List.prefix_refl _

theorem date?_of_fields? (dated : form ≠ .timeOnly) {s : List Char} (h : form.fields? s = some f) :
    ∃ g rest, date? epoch s = some (g, rest) := by
  cases reading_of_fields? h with
  | timeOnly => exact absurd rfl dated
  | dateOnly date => exact ⟨_, _, date⟩
  | dateTimeOnly date => exact ⟨_, _, date⟩
  | dateTime _ date => exact ⟨_, _, date⟩
  | day date => exact ⟨_, _, date⟩
  | time _ date => exact ⟨_, _, date⟩

theorem fields?_of_year (unfit : ¬form.FitsYear f.year) : form.fields? (form.canonical f) = none := by
  by_contra read
  obtain ⟨g, read⟩ := Option.ne_none_iff_exists'.mp read
  by_cases timed : form = .timeOnly
  · subst timed
    have unfit : ¬(-999 ≤ f.year ∧ f.year ≤ 9999) := unfit
    cases reading_of_fields? read with
    | timeOnly minutes =>
      have colon := colon_of_minutes? minutes
      rw [canonical, piece?, timePart?] at colon
      rcases cut : Text.slice? 11 (19 + f.fractionSize) f.iso with _ | piece
      · rw [cut] at colon
        exact no_colon unfit (by decide) colon
      · obtain ⟨front, back, split, count, -⟩ := Text.slice?_eq_some_iff.mp cut
        have length := length_eq_of_byteCount unfit split count
        rw [cut, Option.getD_some] at colon
        obtain ⟨within, -⟩ := List.getElem?_eq_some_iff.mp colon
        have place : (front ++ (piece ++ back))[13]? = piece[2]? := by
          rw [List.getElem?_append_right (by omega), length, List.getElem?_append_left within]
        rw [← place, ← split] at colon
        exact no_colon unfit (by decide) colon
  · obtain ⟨g, rest, date⟩ := date?_of_fields? timed read
    obtain ⟨more, split⟩ := canonical_prefix timed f
    have year := year_of_date? (split ▸ date?_append date more)
    cases form with
    | timeOnly => exact timed rfl
    | _ => exact unfit year

theorem exists_readable_ofNative (fast : Bool) (d : Calendar.DateTime)
    (fits : form.FitsYear d.date.year) :
    ∃ f, f.Readable fast ∧ form.canonical f = form.canonical (ofNative d) := by
  by_cases year : 0 ≤ d.date.year ∧ d.date.year ≤ 9999
  · exact ⟨ofNative d, readable_ofNative fast year, rfl⟩
  · cases form with
    | timeOnly =>
      obtain ⟨low, high⟩ : -999 ≤ d.date.year ∧ d.date.year ≤ 9999 := fits
      -- The same month and day in the year zero.
      let zeroth : Calendar.DateTime :=
        { d with date := ⟨0, d.date.month, d.date.day, d.date.isDate.in_year_zero⟩ }
      have four : 0 ≤ (0 : Int) ∧ (0 : Int) ≤ 9999 := by decide
      have readable : (ofNative zeroth).Readable fast := readable_ofNative fast four
      have length : (ofNative d).dateChars.length = 10 :=
        length_dateChars low high readable.fits.month readable.fits.day
      have cut : (ofNative d).timePart? = some (ofNative d).timeChars :=
        timePart?_of_length length readable.fits.byteCount_timeChars
      refine ⟨_, readable, ?_⟩
      rw [canonical_eq readable.fits, canonical, piece?, cut, Option.getD_some]
      rfl
    | _ => exact absurd fits year

end DateForm

namespace Validator

variable {v : Validator} {f : DateFacets}

theorem validate?_native (type : v.node.OfDates f) (coerces : v.options.coerceTypes = true)
    (texts : v.options.coerceNativeTypes = false) (steps : Nat) {d : Calendar.DateTime}
    (passes : Check.passes v.node (.dateTime d) = true) :
    v.validate? (steps + 1) (.dateTime d) =
      some (.ok (.string (v.node.dateForm.canonicalText (.ofNative d)))) := by
  have out : Check.nativeDate v.node.dateForm (Check.isMail v.node.base f) v.options d =
      .string (v.node.dateForm.canonicalText (.ofNative d)) := by
    rw [Check.nativeDate, texts, coerces, type.written]
    rfl
  rw [← out]
  exact (validate?_ofDates_iff type ⟨rfl, passes⟩).mpr (.native d)

/-- The text of a coerced native date-time is returned unchanged by the same validator exactly when
its year fits the form, and is a format error otherwise. -/
theorem validate?_native_again (type : v.node.OfDates f) (coerces : v.options.coerceTypes = true)
    (texts : v.options.coerceNativeTypes = false) (steps : Nat) (d : Calendar.DateTime)
    (passes : ∀ value, Check.passes v.node value = true) :
    ∃ text, v.validate? (steps + 1) (.dateTime d) = some (.ok (.string text)) ∧
      (v.validate? (steps + 1) (.string text) = some (.ok (.string text)) ↔
        v.node.dateForm.FitsYear d.date.year) ∧
      (¬v.node.dateForm.FitsYear d.date.year → v.validate? (steps + 1) (.string text) =
        some (.error [⟨[], .badFormat (.string text) v.node.dateForm.label⟩])) := by
  have unfit (unfit : ¬v.node.dateForm.FitsYear d.date.year) :
      v.validate? (steps + 1) (.string (v.node.dateForm.canonicalText (.ofNative d))) =
        some (.error [⟨[], .badFormat (.string (v.node.dateForm.canonicalText (.ofNative d)))
          v.node.dateForm.label⟩]) := by
    have unread : v.node.dateForm.read v.options.fastDateValidation
        (v.node.dateForm.canonicalText (.ofNative d)).toList = .error .form := by
      rw [DateForm.canonicalText, String.toList_ofList, DateForm.read, DateForm.fields?_of_year unfit]
    exact validate?_of_unread type steps (passes _) unread
  refine ⟨_, validate?_native type coerces texts steps (passes _), ⟨fun accepted => ?_, fun fits => ?_⟩, unfit⟩
  · by_contra other
    cases accepted.symm.trans (unfit other)
  · obtain ⟨fields, readable, same⟩ :=
      DateForm.exists_readable_ofNative v.options.fastDateValidation d fits
    obtain ⟨g, read, again⟩ := DateForm.exists_read_canonicalText readable v.node.dateForm
    have text : v.node.dateForm.canonicalText fields = v.node.dateForm.canonicalText (.ofNative d) :=
      congrArg String.ofList same
    rw [text] at read again
    have accepted := validate?_of_read type steps (passes _) texts read
    rwa [if_pos coerces, again] at accepted

def leapSecond : Calendar.DateTime :=
  ⟨⟨2016, 12, 31, by decide⟩, ⟨23, 59, 59, 1500000000, by decide⟩, 0, by decide⟩

theorem validate?_native_again_of_leapSecond :
    (Node.ofBase .dateTime).OfDates ⟨none⟩ ∧ DateForm.dateTime.FitsYear 2016 ∧
      ∃ text, (ofBase .dateTime .coercing).validate? 1 (.dateTime leapSecond) =
          some (.ok (.string text)) ∧
        (ofBase .dateTime .coercing).validate? 1 (.string text) = some (.ok (.string text)) := by
  have type : (ofBase .dateTime .coercing).node.OfDates ⟨none⟩ := Node.ofDates_ofBase rfl
  have fits : DateForm.dateTime.FitsYear 2016 := ⟨by decide, by decide⟩
  have passes : ∀ value, Check.passes (ofBase .dateTime .coercing).node value = true :=
    Check.passes_of_none rfl
  obtain ⟨text, out, again, -⟩ := validate?_native_again type rfl rfl 0 leapSecond passes
  exact ⟨type, fits, text, out, again.mpr fits⟩

def farMorning : Calendar.DateTime :=
  ⟨⟨12345, 1, 2, by decide⟩, ⟨10, 0, 0, 0, by decide⟩, 0, by decide⟩

/-- Year 12345 gives the time `T10:00:0`, which is rejected. -/
theorem native_text_rejected :
    (ofBase .timeOnly .coercing).validate? 1 (.dateTime farMorning) = some (.ok (.string "T10:00:0")) ∧
      (ofBase .timeOnly .coercing).validate? 1 (.string "T10:00:0") =
        some (.error [⟨[], .badFormat (.string "T10:00:0") "time-only (hh:mm:ss[.ff])"⟩]) := by
  have type : (ofBase .timeOnly .coercing).node.OfDates ⟨none⟩ := Node.ofDates_ofBase rfl
  have text : (ofBase .timeOnly .coercing).node.dateForm.canonicalText (.ofNative farMorning) =
      "T10:00:0" := rfl
  have out := validate?_native (d := farMorning) type rfl rfl 0 rfl
  rw [text] at out
  have unread : DateForm.timeOnly.read false "T10:00:0".toList = .error .form := by
    decide +kernel
  exact ⟨out, validate?_of_unread type 0 rfl unread⟩

end Validator

end Schemata

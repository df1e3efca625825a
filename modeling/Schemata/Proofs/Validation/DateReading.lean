import Schemata.Proofs.Text.Numeral
import Schemata.Validation.DateText

/-! The parts of date texts. A reader takes a part as it is written off the front of a text, and
what it reads of any text can be written. -/

namespace Schemata

namespace DateFields

variable {f g : DateFields} {s rest : List Char} {width n : Nat}

/-! Numerals and marks. -/

theorem digits?_paddedNumeral (width : Nat) (positive : 0 < width) (fits : n < 10 ^ width)
    (rest : List Char) :
    digits? width (Text.paddedNumeral width n ++ rest) = some (n, rest) := by
  have length := Text.length_paddedNumeral width positive fits
  have front : (Text.paddedNumeral width n ++ rest).take width = Text.paddedNumeral width n :=
    List.take_left' length
  have digits : (Text.paddedNumeral width n).all Char.isDigit = true :=
    List.all_eq_true.mpr fun c hc => Text.isDigit_of_mem_paddedNumeral hc
  unfold digits?
  dsimp only
  rw [front, if_pos ⟨length, digits⟩, Text.numeralValue_paddedNumeral, List.drop_left' length]

structure Spells (width : Nat) (digits : List Char) (n : Nat) : Prop where
  length : digits.length = width
  digit : ∀ c ∈ digits, c.isDigit = true
  value : Text.numeralValue digits = n

theorem Spells.lt {digits : List Char} (h : Spells width digits n) : n < 10 ^ width := by
  have bound := Text.numeralValue_lt h.digit
  rwa [h.length, h.value] at bound

theorem Spells.isAscii {digits : List Char} (h : Spells width digits n) : Text.IsAscii digits :=
  fun c hc => Text.toNat_lt_of_isDigit (h.digit c hc)

theorem digits?_eq_some_iff : digits? width s = some (n, rest) ↔
    ∃ digits, Spells width digits n ∧ s = digits ++ rest := by
  unfold digits?
  dsimp only
  constructor
  · intro h
    split at h
    · rename_i front
      obtain ⟨value, rfl⟩ := Prod.mk.inj (Option.some.inj h)
      have digit := List.all_eq_true.mp front.2
      exact ⟨s.take width, ⟨front.1, digit, value⟩, (List.take_append_drop width s).symm⟩
    · cases h
  · rintro ⟨digits, spells, rfl⟩
    have front : (digits ++ rest).take width = digits := List.take_left' spells.length
    have all : digits.all Char.isDigit = true := List.all_eq_true.mpr spells.digit
    rw [front, if_pos ⟨spells.length, all⟩, spells.value, List.drop_left' spells.length]

theorem mark?_cons (c : Char) (rest : List Char) : mark? c (c :: rest) = some rest := if_pos rfl

theorem mark?_eq_some_iff {c : Char} : mark? c s = some rest ↔ s = c :: rest := by
  constructor
  · intro h
    cases s with
    | nil => cases h
    | cons d s =>
      unfold mark? at h
      dsimp only at h
      split at h
      · rename_i same
        rw [same, Option.some.inj h]
      · cases h
  · rintro rfl
    exact mark?_cons c rest

inductive IsDayText : List Char → Nat → Nat → Nat → Prop
  | mk {y m d : List Char} {year month day : Nat} (years : Spells 4 y year)
      (months : Spells 2 m month) (days : Spells 2 d day) :
      IsDayText (y ++ '-' :: (m ++ '-' :: d)) year month day

inductive IsMinuteText : List Char → Nat → Nat → Prop
  | mk {h m : List Char} {hour minute : Nat} (hours : Spells 2 h hour)
      (minutes : Spells 2 m minute) : IsMinuteText (h ++ ':' :: m) hour minute

theorem date?_eq_some_iff : date? f s = some (g, rest) ↔
    ∃ text year month day, IsDayText text year month day ∧ s = text ++ rest ∧
      g = { f with year := year, month := month, day := day } := by
  unfold date?
  simp only [Option.bind_eq_bind, Option.bind_eq_some_iff, digits?_eq_some_iff, mark?_eq_some_iff,
    Prod.exists, pure, Option.some.injEq, Prod.mk.injEq]
  constructor
  · rintro ⟨year, _, ⟨y, hy, rfl⟩, _, rfl, month, _, ⟨m, hm, rfl⟩, _, rfl, day, _, ⟨d, hd, rfl⟩, rfl, rfl⟩
    refine ⟨_, year, month, day, ⟨hy, hm, hd⟩, ?_, rfl⟩
    simp only [List.append_assoc, List.cons_append]
  · rintro ⟨_, year, month, day, ⟨hy, hm, hd⟩, rfl, rfl⟩
    simp only [List.append_assoc, List.cons_append]
    exact ⟨year, _, ⟨_, hy, rfl⟩, _, rfl, month, _, ⟨_, hm, rfl⟩, _, rfl, day, _, ⟨_, hd, rfl⟩, rfl, rfl⟩

theorem minutes?_eq_some_iff : minutes? f s = some (g, rest) ↔
    ∃ text hour minute, IsMinuteText text hour minute ∧ s = text ++ rest ∧
      g = { f with hour := hour, minute := minute, hasTime := true } := by
  unfold minutes?
  simp only [Option.bind_eq_bind, Option.bind_eq_some_iff, digits?_eq_some_iff, mark?_eq_some_iff,
    Prod.exists, pure, Option.some.injEq, Prod.mk.injEq]
  constructor
  · rintro ⟨hour, _, ⟨h, hh, rfl⟩, _, rfl, minute, _, ⟨m, hm, rfl⟩, rfl, rfl⟩
    refine ⟨_, hour, minute, ⟨hh, hm⟩, ?_, rfl⟩
    simp only [List.append_assoc, List.cons_append]
  · rintro ⟨_, hour, minute, ⟨hh, hm⟩, rfl, rfl⟩
    simp only [List.append_assoc, List.cons_append]
    exact ⟨hour, _, ⟨_, hh, rfl⟩, _, rfl, minute, _, ⟨_, hm, rfl⟩, rfl, rfl⟩

/-! What a text of the forms can hold. -/

inductive IsOffset : List Char → Prop
  | universal : IsOffset ['Z']
  | local {c : Char} {hours minutes : Nat} (sign : c = '+' ∨ c = '-') (hours_lt : hours < 100)
      (minutes_lt : minutes < 100) :
      IsOffset (c :: Text.paddedNumeral 2 hours ++ ':' :: Text.paddedNumeral 2 minutes)

structure Written (f : DateFields) : Prop where
  year : 0 ≤ f.year ∧ f.year ≤ 9999
  fraction : ∀ digits, f.fraction = some digits →
    digits ≠ [] ∧ digits.length ≤ 9 ∧ ∀ c ∈ digits, Text.isDecimalDigit c = true
  offset : ∀ text, f.offset = some text → IsOffset text

theorem written_epoch : epoch.Written :=
  ⟨by decide, fun _ h => (nomatch h), fun _ h => nomatch h⟩

inductive ReadsSeconds (f : DateFields) : List Char → DateFields → List Char → Prop
  | whole {digits rest : List Char} {second : Nat} (seconds : Spells 2 digits second) :
      ReadsSeconds f (':' :: (digits ++ rest)) { f with second := second } rest
  | part {digits fraction rest : List Char} {second : Nat} (seconds : Spells 2 digits second)
      (some_digit : fraction ≠ []) (short : fraction.length ≤ 9)
      (decimal : ∀ c ∈ fraction, Text.isDecimalDigit c = true) :
      ReadsSeconds f (':' :: (digits ++ '.' :: (fraction ++ rest)))
        { f with second := second, fraction := some fraction } rest

theorem readsSeconds_of_seconds? (h : seconds? f s = some (g, rest)) : ReadsSeconds f s g rest := by
  unfold DateFields.seconds? at h
  simp only [Option.bind_eq_bind, Option.bind_eq_some_iff, mark?_eq_some_iff, digits?_eq_some_iff,
    Prod.exists] at h
  obtain ⟨_, rfl, second, s, ⟨digits, spells, rfl⟩, h⟩ := h
  split at h
  · rename_i tail
    have front : (tail.take 9).takeWhile Text.isDecimalDigit <+: tail :=
      (List.takeWhile_prefix _).trans (List.take_prefix 9 tail)
    have short : ((tail.take 9).takeWhile Text.isDecimalDigit).length ≤ 9 :=
      Nat.le_trans (List.takeWhile_sublist _).length_le (List.length_take_le _ _)
    have decimal := List.all_eq_true.mp (List.all_takeWhile (p := Text.isDecimalDigit) (l := tail.take 9))
    have split := List.prefix_iff_eq_append.mp front
    generalize (tail.take 9).takeWhile Text.isDecimalDigit = fraction at h short decimal split
    split at h
    · cases h
    · rename_i some_digit
      obtain ⟨rfl, rfl⟩ := Prod.mk.inj (Option.some.inj h)
      have read : ReadsSeconds f (':' :: (digits ++ '.' :: (fraction ++ tail.drop fraction.length)))
          { f with second := second, fraction := some fraction } (tail.drop fraction.length) :=
        .part spells (fun none => some_digit (List.isEmpty_iff.mpr none)) short decimal
      rwa [split] at read
  · obtain ⟨rfl, rfl⟩ := Prod.mk.inj (Option.some.inj h)
    exact .whole spells

structure ReadsOffset (f : DateFields) (s : List Char) (g : DateFields) (rest : List Char) : Prop where
  ascii : ∃ front, Text.IsAscii front ∧ s = front ++ rest
  offset : ∃ text, IsOffset text ∧ g = { f with offset := some text }

theorem readsOffset_of_minutes {front : List Char} {c : Char} {hours : Nat} (sign : c = '+' ∨ c = '-')
    (hours_lt : hours < 100) (ascii : Text.IsAscii front)
    (h : ((digits? 2 s).bind fun x => some ({ f with
      offset := some (c :: Text.paddedNumeral 2 hours ++ ':' :: Text.paddedNumeral 2 x.1) }, x.2)) =
        some (g, rest)) : ReadsOffset f (front ++ s) g rest := by
  obtain ⟨⟨minutes, _⟩, read, h⟩ := Option.bind_eq_some_iff.mp h
  obtain ⟨rfl, rfl⟩ := Prod.mk.inj (Option.some.inj h)
  obtain ⟨digits, spells, rfl⟩ := digits?_eq_some_iff.mp read
  refine ⟨⟨front ++ digits, Text.isAscii_append.mpr ⟨ascii, spells.isAscii⟩, ?_⟩, _, ?_, rfl⟩
  · rw [List.append_assoc]
  · exact .local sign hours_lt spells.lt

theorem readsOffset_of_offset? {bare : Bool} (h : offset? bare f s = some (g, rest)) :
    ReadsOffset f s g rest := by
  rw [offset?.eq_def] at h
  split at h
  · cases h
  · rename_i c s
    split at h
    · rename_i universal
      obtain ⟨rfl, rfl⟩ := Prod.mk.inj (Option.some.inj h)
      have ascii : Text.IsAscii [c] := by
        rcases universal with rfl | rfl <;> decide
      exact ⟨⟨[c], ascii, rfl⟩, _, .universal, rfl⟩
    · split at h
      · rename_i sign
        have low : c.toNat < 128 := by
          rcases sign with rfl | rfl <;> decide
        simp only [Option.bind_eq_bind, Option.bind_some, Option.bind_none] at h
        obtain ⟨⟨hours, s⟩, read, behind⟩ := Option.bind_eq_some_iff.mp h
        obtain ⟨digits, spells, rfl⟩ := digits?_eq_some_iff.mp read
        have ascii : Text.IsAscii (c :: digits) := Text.isAscii_cons.mpr ⟨low, spells.isAscii⟩
        dsimp only at behind
        split at behind
        · have colon : Text.IsAscii (c :: digits ++ [':']) :=
            Text.isAscii_append.mpr ⟨ascii, by decide⟩
          have minutes := readsOffset_of_minutes sign spells.lt colon behind
          rwa [List.append_assoc] at minutes
        · split at behind
          · exact readsOffset_of_minutes sign spells.lt ascii behind
          · cases behind
      · cases h

/-! Reading step by step. -/

/-- One step of reading: the fields so far and what is left of the text, before and after it. -/
inductive Step : DateFields × List Char → DateFields × List Char → Prop
  | date {f g : DateFields} {s rest : List Char} (h : date? f s = some (g, rest)) :
      Step (f, s) (g, rest)
  | mark {f : DateFields} {c : Char} {rest : List Char} (h : c = 'T' ∨ c = 't' ∨ c = ' ') :
      Step (f, c :: rest) (f, rest)
  | minutes {f g : DateFields} {s rest : List Char} (h : minutes? f s = some (g, rest)) :
      Step (f, s) (g, rest)
  | seconds {f g : DateFields} {s rest : List Char} (fresh : f.fraction = none)
      (h : seconds? f s = some (g, rest)) : Step (f, s) (g, rest)
  | offset {f g : DateFields} {s rest : List Char} {bare : Bool}
      (h : offset? bare f s = some (g, rest)) : Step (f, s) (g, rest)

variable {a b : DateFields × List Char}

theorem Step.written (step : Step a b) (written : a.1.Written) : b.1.Written := by
  cases step with
  | date h =>
    obtain ⟨_, year, month, day, ⟨years, -, -⟩, -, rfl⟩ := date?_eq_some_iff.mp h
    have bound : year < 10 ^ 4 := years.lt
    exact ⟨by dsimp only; omega, written.fraction, written.offset⟩
  | mark h => exact written
  | minutes h =>
    obtain ⟨_, hour, minute, -, -, rfl⟩ := minutes?_eq_some_iff.mp h
    exact ⟨written.year, written.fraction, written.offset⟩
  | seconds fresh h =>
    cases readsSeconds_of_seconds? h with
    | whole => exact ⟨written.year, written.fraction, written.offset⟩
    | part _ some_digit short decimal =>
      refine ⟨written.year, ?_, written.offset⟩
      rintro _ ⟨⟩
      exact ⟨some_digit, short, decimal⟩
  | offset h =>
    obtain ⟨-, text, offset, rfl⟩ := readsOffset_of_offset? h
    refine ⟨written.year, written.fraction, ?_⟩
    rintro _ ⟨⟩
    exact offset

/-- No digits but ASCII ones, in what was read and in what is left. -/
def Plain (a : DateFields × List Char) : Prop := Text.IsAscii a.2 ∧ Text.IsAscii a.1.fractionText

theorem plain_append {front : List Char} (ascii : Text.IsAscii front)
    (same : g.fractionText = f.fractionText) : Plain (f, front ++ rest) ↔ Plain (g, rest) := by
  simp only [Plain, Text.isAscii_append, ascii, same, true_and]

theorem Step.plain_iff (step : Step a b) : Plain a ↔ Plain b := by
  cases step with
  | date h =>
    obtain ⟨_, year, month, day, ⟨years, months, days⟩, rfl, rfl⟩ := date?_eq_some_iff.mp h
    refine plain_append ?_ rfl
    have dash : '-'.toNat < 128 := by decide
    simp only [Text.isAscii_append, Text.isAscii_cons, years.isAscii, months.isAscii, days.isAscii, dash,
      and_self]
  | @mark f c rest h =>
    have low : Text.IsAscii [c] := by
      rcases h with rfl | rfl | rfl <;> decide
    exact plain_append low rfl
  | minutes h =>
    obtain ⟨_, hour, minute, ⟨hours, minutes⟩, rfl, rfl⟩ := minutes?_eq_some_iff.mp h
    refine plain_append ?_ rfl
    have colon : ':'.toNat < 128 := by decide
    simp only [Text.isAscii_append, Text.isAscii_cons, hours.isAscii, minutes.isAscii, colon, and_self]
  | seconds fresh h =>
    have colon : ':'.toNat < 128 := by decide
    have dot : '.'.toNat < 128 := by decide
    cases readsSeconds_of_seconds? h with
    | whole seconds =>
      simp only [Plain, fractionText, Text.isAscii_append, Text.isAscii_cons, seconds.isAscii, colon,
        true_and]
    -- The fraction is read off the text, and then it is among what was read.
    | part seconds =>
      have nothing : Text.IsAscii [] := fun _ h => nomatch h
      simp only [Plain, fractionText, fresh, Text.isAscii_append, Text.isAscii_cons, seconds.isAscii,
        colon, dot, nothing, true_and, and_true]
      exact and_comm
  | offset h =>
    obtain ⟨⟨front, ascii, rfl⟩, text, -, rfl⟩ := readsOffset_of_offset? h
    exact plain_append ascii rfl

theorem whole?_eq_some_iff : whole? (f, s) = some g ↔ s = [] ∧ f = g := by
  cases s with
  | nil => exact Option.some_inj.trans (and_iff_right rfl).symm
  | cons => exact ⟨fun h => (nomatch h), fun h => nomatch h.1⟩

/-! Reading what is written. -/

def onDate (f g : DateFields) : DateFields := { f with year := g.year, month := g.month, day := g.day }

def atMinute (f g : DateFields) : DateFields :=
  { f with hour := g.hour, minute := g.minute, hasTime := true }

def atTime (f g : DateFields) : DateFields :=
  { f.atMinute g with second := g.second, fraction := g.fraction }

def dateChars (f : DateFields) : List Char :=
  yearText f.year ++ '-' :: Text.paddedNumeral 2 f.month ++ '-' :: Text.paddedNumeral 2 f.day

def minuteChars (f : DateFields) : List Char :=
  Text.paddedNumeral 2 f.hour ++ ':' :: Text.paddedNumeral 2 f.minute

def secondChars (f : DateFields) : List Char :=
  ':' :: (Text.paddedNumeral 2 f.second ++ f.fractionText)

def timeChars (f : DateFields) : List Char := f.minuteChars ++ f.secondChars

theorem iso_eq (f : DateFields) :
    f.iso = f.dateChars ++ 'T' :: (f.timeChars ++ f.offset.getD ['Z']) := by
  simp only [iso, dateChars, timeChars, minuteChars, secondChars, List.append_assoc,
    List.cons_append]

structure Fits (f : DateFields) : Prop where
  written : f.Written
  month : f.month < 100
  day : f.day < 100
  hour : f.hour < 100
  minute : f.minute < 100
  second : f.second < 100

theorem yearText_eq (year : 0 ≤ f.year) : yearText f.year = Text.paddedNumeral 4 f.year.natAbs :=
  if_neg (Int.not_lt.mpr year)

theorem length_yearText {year : Int} (low : -999 ≤ year) (high : year ≤ 9999) :
    (yearText year).length = 4 := by
  unfold yearText
  split
  · rw [List.length_cons, Text.length_paddedNumeral 3 (by decide) (by omega)]
  · exact Text.length_paddedNumeral 4 (by decide) (by omega)

theorem length_dateChars (low : -999 ≤ f.year) (high : f.year ≤ 9999) (month : f.month < 100)
    (day : f.day < 100) : f.dateChars.length = 10 := by
  have months := Text.length_paddedNumeral 2 (by decide) month
  have days := Text.length_paddedNumeral 2 (by decide) day
  simp only [dateChars, List.length_append, List.length_cons, length_yearText low high, months, days]

theorem isAscii_yearText (year : Int) : Text.IsAscii (yearText year) := by
  unfold yearText
  split
  · exact Text.isAscii_cons.mpr ⟨by decide, Text.isAscii_paddedNumeral _ _⟩
  · exact Text.isAscii_paddedNumeral _ _

theorem isAscii_dateChars (f : DateFields) : Text.IsAscii f.dateChars := by
  have dash : '-'.toNat < 128 := by decide
  have numeral := Text.isAscii_paddedNumeral
  simp only [dateChars, Text.isAscii_append, Text.isAscii_cons, isAscii_yearText, numeral, dash,
    and_self]

theorem timePart?_of_length (date : f.dateChars.length = 10)
    (time : Text.byteCount f.timeChars = 8 + f.fractionSize) : f.timePart? = some f.timeChars := by
  have front : Text.byteCount (f.dateChars ++ ['T']) = 11 := by
    rw [Text.byteCount_append, Text.byteCount_of_isAscii (isAscii_dateChars f), date]
    rfl
  have places : 19 + f.fractionSize = 11 + Text.byteCount f.timeChars := by omega
  have cut := Text.slice?_append (f.dateChars ++ ['T']) f.timeChars (f.offset.getD ['Z'])
  rw [timePart?, iso_eq, List.append_cons, places]
  rwa [front] at cut

namespace Fits

theorem length_dateChars (fits : f.Fits) : f.dateChars.length = 10 := by
  obtain ⟨low, high⟩ := fits.written.year
  exact DateFields.length_dateChars (by omega) high fits.month fits.day

theorem byteCount_timeChars (fits : f.Fits) :
    Text.byteCount f.timeChars = 8 + f.fractionSize := by
  have hour := Text.length_paddedNumeral 2 (by decide) fits.hour
  have minute := Text.length_paddedNumeral 2 (by decide) fits.minute
  have second := Text.length_paddedNumeral 2 (by decide) fits.second
  have bytes (n : Nat) := Text.byteCount_of_isAscii (Text.isAscii_paddedNumeral 2 n)
  have colon : ':'.utf8Size = 1 := rfl
  simp only [timeChars, minuteChars, secondChars, fractionSize, Text.byteCount_append,
    Text.byteCount_cons, bytes, hour, minute, second, colon]
  omega

theorem datePart?_eq (fits : f.Fits) : f.datePart? = some f.dateChars := by
  have bytes := Text.byteCount_of_isAscii (isAscii_dateChars f)
  have cut := Text.slice?_append [] f.dateChars ('T' :: (f.timeChars ++ f.offset.getD ['Z']))
  rw [datePart?, iso_eq]
  rwa [bytes, fits.length_dateChars] at cut

theorem timePart?_eq (fits : f.Fits) : f.timePart? = some f.timeChars :=
  timePart?_of_length fits.length_dateChars fits.byteCount_timeChars

theorem localPart?_eq (fits : f.Fits) : f.localPart? = some (f.dateChars ++ 'T' :: f.timeChars) := by
  have date := Text.byteCount_of_isAscii (isAscii_dateChars f)
  have piece : Text.byteCount (f.dateChars ++ 'T' :: f.timeChars) = 19 + f.fractionSize := by
    have mark : 'T'.utf8Size = 1 := rfl
    rw [Text.byteCount_append, Text.byteCount_cons, date, fits.length_dateChars,
      fits.byteCount_timeChars, mark]
    omega
  have cut := Text.slice?_append [] (f.dateChars ++ 'T' :: f.timeChars) (f.offset.getD ['Z'])
  rw [piece, List.append_assoc, List.cons_append] at cut
  rw [localPart?, iso_eq]
  rwa [Text.byteCount_nil, Nat.zero_add] at cut

theorem date? (fits : f.Fits) (g : DateFields) (rest : List Char) :
    DateFields.date? g (f.dateChars ++ rest) = some (g.onDate f, rest) := by
  obtain ⟨low, high⟩ := fits.written.year
  have natAbs : (f.year.natAbs : Int) = f.year := Int.natAbs_of_nonneg low
  have year (rest : List Char) := digits?_paddedNumeral (n := f.year.natAbs) 4 (by decide)
    (by omega) rest
  have month (rest : List Char) := digits?_paddedNumeral 2 (by decide) fits.month rest
  have day (rest : List Char) := digits?_paddedNumeral 2 (by decide) fits.day rest
  simp only [DateFields.date?, dateChars, yearText_eq low, List.append_assoc, List.cons_append, year,
    month, day, mark?_cons, Option.bind_eq_bind, Option.bind_some, natAbs, onDate, pure]

theorem minutes? (fits : f.Fits) (g : DateFields) (rest : List Char) :
    DateFields.minutes? g (f.minuteChars ++ rest) = some (g.atMinute f, rest) := by
  have hour (rest : List Char) := digits?_paddedNumeral 2 (by decide) fits.hour rest
  have minute (rest : List Char) := digits?_paddedNumeral 2 (by decide) fits.minute rest
  simp only [DateFields.minutes?, minuteChars, List.append_assoc, List.cons_append, hour, minute,
    mark?_cons, Option.bind_eq_bind, Option.bind_some, atMinute, pure]

end Fits

def Ends (rest : List Char) : Prop := ∀ c ∈ rest.head?, Text.isDecimalDigit c = false ∧ c ≠ '.'

theorem ends_nil : Ends [] := fun _ h => nomatch h

theorem IsOffset.ends (offset : IsOffset s) : Ends s := by
  cases offset with
  | universal =>
    rintro _ ⟨⟩
    exact ⟨rfl, by decide⟩
  | «local» sign =>
    rintro _ ⟨⟩
    rcases sign with rfl | rfl
    · exact ⟨rfl, by decide⟩
    · exact ⟨rfl, by decide⟩

theorem takeWhile_fraction {digits : List Char} (short : digits.length ≤ 9)
    (decimal : ∀ c ∈ digits, Text.isDecimalDigit c = true) (ends : Ends rest) :
    ((digits ++ rest).take 9).takeWhile Text.isDecimalDigit = digits := by
  rw [List.take_append, List.take_of_length_le short, List.takeWhile_append_of_pos decimal]
  have stop : (rest.take (9 - digits.length)).takeWhile Text.isDecimalDigit = [] := by
    cases rest with
    | nil => rw [List.take_nil, List.takeWhile_nil]
    | cons c rest =>
      rcases 9 - digits.length with _ | k
      · rfl
      · have no : ¬Text.isDecimalDigit c = true := by
          rw [(ends c rfl).1]
          exact Bool.false_ne_true
        rw [List.take_succ_cons, List.takeWhile_cons_of_neg no]
  rw [stop, List.append_nil]

namespace Fits

theorem seconds? (fits : f.Fits) (fresh : g.fraction = none) (ends : Ends rest) :
    DateFields.seconds? (g.atMinute f) (f.secondChars ++ rest) = some (g.atTime f, rest) := by
  have second (rest : List Char) := digits?_paddedNumeral 2 (by decide) fits.second rest
  unfold DateFields.seconds? secondChars fractionText
  simp only [List.cons_append, List.append_assoc, mark?_cons, second, Option.bind_eq_bind, Option.bind_some]
  rcases hf : f.fraction with _ | digits
  -- Without a fraction the text goes on with something that is no dot.
  · rw [List.nil_append]
    split
    · exact absurd rfl (ends '.' rfl).2
    · rw [atTime, atMinute, hf, fresh]
  · obtain ⟨some_digits, short, decimal⟩ := fits.written.fraction digits hf
    rw [List.cons_append]
    simp only
    rw [takeWhile_fraction short decimal ends, List.drop_left, List.isEmpty_eq_false_iff.mpr some_digits,
      atTime, hf]
    rfl

end Fits

theorem offset?_of_isOffset (offset : IsOffset s) (bare : Bool) (f : DateFields) (rest : List Char) :
    offset? bare f (s ++ rest) = some ({ f with offset := some s }, rest) := by
  cases offset with
  | universal => rfl
  | @«local» c hours minutes sign hours_lt minutes_lt =>
    have read (rest : List Char) := digits?_paddedNumeral 2 (by decide) hours_lt rest
    have read' (rest : List Char) := digits?_paddedNumeral 2 (by decide) minutes_lt rest
    have other : ¬(c = 'Z' ∨ c = 'z') := by
      rcases sign with rfl | rfl <;> decide
    simp only [offset?, List.cons_append, List.append_assoc, if_neg other, if_pos sign, read, read',
      Option.bind_eq_bind, Option.bind_some, pure]

end DateFields

end Schemata

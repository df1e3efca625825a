import Schemata.Base
import Schemata.Calendar.DateTime
import Schemata.Text.Category
import Schemata.Text.Slice

/-!
The written forms of dates and times, one for each date type: reading a text into fields, checking
the fields, and writing them in the canonical form. Main statement about use: a text is rejected
for its form before it is rejected for the calendar.
-/

namespace Schemata

/-- What a date text says. Fields that the form does not have are those of the start of 1970; the
fraction keeps its digits as written. -/
structure DateFields where
  year : Int
  month : Nat
  day : Nat
  hour : Nat
  minute : Nat
  second : Nat
  fraction : Option (List Char)
  offset : Option (List Char)
  hasTime : Bool
deriving DecidableEq

inductive DateRejection where
  | form
  | calendar
deriving DecidableEq

namespace DateFields

def epoch : DateFields := ⟨1970, 1, 1, 0, 0, 0, none, none, false⟩

/-! Reading. A step gives what it read and what is left. -/

def digits? (width : Nat) (s : List Char) : Option (Nat × List Char) :=
  let front := s.take width
  if front.length = width ∧ front.all Char.isDigit then
    some (Text.numeralValue front, s.drop width)
  else none

def mark? (c : Char) : List Char → Option (List Char)
  | d :: rest => if d = c then some rest else none
  | [] => none

def date? (f : DateFields) (s : List Char) : Option (DateFields × List Char) := do
  let (year, s) ← digits? 4 s
  let s ← mark? '-' s
  let (month, s) ← digits? 2 s
  let s ← mark? '-' s
  let (day, s) ← digits? 2 s
  return ({ f with year := year, month := month, day := day }, s)

def minutes? (f : DateFields) (s : List Char) : Option (DateFields × List Char) := do
  let (hour, s) ← digits? 2 s
  let s ← mark? ':' s
  let (minute, s) ← digits? 2 s
  return ({ f with hour := hour, minute := minute, hasTime := true }, s)

def seconds? (f : DateFields) (s : List Char) : Option (DateFields × List Char) := do
  let s ← mark? ':' s
  let (second, s) ← digits? 2 s
  let f := { f with second := second }
  match s with
  | '.' :: rest =>
    let fraction := (rest.take 9).takeWhile Text.isDecimalDigit
    if fraction.isEmpty then none
    else some ({ f with fraction := some fraction }, rest.drop fraction.length)
  | s => some (f, s)

def offset? (bare : Bool) (f : DateFields) (s : List Char) : Option (DateFields × List Char) :=
  match s with
  | [] => none
  | c :: s =>
    if c = 'Z' ∨ c = 'z' then some ({ f with offset := some ['Z'] }, s)
    else if c = '+' ∨ c = '-' then do
      let (hours, s) ← digits? 2 s
      let s ← match s with
        | ':' :: s => some s
        | s => if bare then some s else none
      let (minutes, s) ← digits? 2 s
      let offset := c :: Text.paddedNumeral 2 hours ++ ':' :: Text.paddedNumeral 2 minutes
      return ({ f with offset := some offset }, s)
    else none

def whole? : DateFields × List Char → Option DateFields
  | (f, []) => some f
  | _ => none

def dateOnly? (s : List Char) : Option DateFields := (date? epoch s).bind whole?

def timeOnly? (s : List Char) : Option DateFields := do
  let (f, s) ← minutes? epoch s
  let (f, s) ← seconds? f s
  whole? (f, s)

def dateTimeOnly? (s : List Char) : Option DateFields := do
  let (f, s) ← date? epoch s
  let s ← mark? 'T' s
  let (f, s) ← minutes? f s
  let (f, s) ← seconds? f s
  whole? (f, s)

def dateTime? (s : List Char) : Option DateFields := do
  let (f, s) ← date? epoch s
  let s ← (mark? 'T' s).or (mark? 't' s)
  let (f, s) ← minutes? f s
  let (f, s) ← seconds? f s
  let (f, s) ← offset? false f s
  whole? (f, s)

def date (s : List Char) : Option DateFields := do
  let (f, s) ← date? epoch s
  match s with
  | [] => return f
  | c :: s =>
    if c = 'T' ∨ c = 't' ∨ c = ' ' then do
      let (f, s) ← minutes? f s
      let (f, s) ← match s with
        | ':' :: _ => seconds? f s
        | s => some (f, s)
      match s with
      | [] => return f
      | s => (offset? true f s).bind whole?
    else none

/-! Checking. -/

def offsetSeconds? : List Char → Option Int
  | ['Z'] => some 0
  | c :: rest => do
    let (hours, s) ← digits? 2 rest
    let s ← mark? ':' s
    let (minutes, _) ← digits? 2 s
    if 23 < hours ∨ 59 < minutes then none
    else
      let seconds : Int := hours * 3600 + minutes * 60
      some (if c = '-' then -seconds else seconds)
  | [] => none

/-- The ranges of the fields. February may have 29 days and every other month 31; the calendar is
asked later. -/
def inRange (f : DateFields) : Bool :=
  decide (1 ≤ f.month ∧ f.month ≤ 12) && decide (1 ≤ f.day ∧ f.day ≤ 31) &&
    !(f.month == 2 && decide (29 < f.day)) && decide (f.hour ≤ 23) && decide (f.minute ≤ 59) &&
    decide (f.second ≤ 59) && f.offset.all fun o => (offsetSeconds? o).isSome

/-- The date so many days from the first of the month, which may overrun the month. -/
def calendarDate? (f : DateFields) : Option Calendar.Date :=
  (Calendar.Date.of? f.year f.month 1).map fun first => first.addDays (f.day - 1)

def onCalendar (f : DateFields) : Bool := f.calendarDate?.any fun date => date.day == f.day

/-! Writing. -/

def yearText (year : Int) : List Char :=
  if year < 0 then '-' :: Text.paddedNumeral 3 year.natAbs else Text.paddedNumeral 4 year.natAbs

def fractionText (f : DateFields) : List Char :=
  match f.fraction with
  | some digits => '.' :: digits
  | none => []

def iso (f : DateFields) : List Char :=
  yearText f.year ++ '-' :: Text.paddedNumeral 2 f.month ++ '-' :: Text.paddedNumeral 2 f.day ++
    'T' :: Text.paddedNumeral 2 f.hour ++ ':' :: Text.paddedNumeral 2 f.minute ++
    ':' :: Text.paddedNumeral 2 f.second ++ f.fractionText ++ f.offset.getD ['Z']

/-! Each form shows a piece of that, between places that are counted in bytes as if the year took
four. -/

def fractionSize (f : DateFields) : Nat := Text.byteCount f.fractionText

def datePart? (f : DateFields) : Option (List Char) := Text.slice? 0 10 f.iso

def timePart? (f : DateFields) : Option (List Char) := Text.slice? 11 (19 + f.fractionSize) f.iso

def localPart? (f : DateFields) : Option (List Char) := Text.slice? 0 (19 + f.fractionSize) f.iso

def asWritten? (f : DateFields) : Option (List Char) :=
  if !f.hasTime then f.datePart? else if f.offset.isSome then some f.iso else f.localPart?

/-! Native date-times. -/

def trimZeros (digits : List Char) : List Char := (digits.reverse.dropWhile (· == '0')).reverse

def nativeOffset (seconds : Int) : List Char :=
  if seconds = 0 then ['Z']
  else
    (if seconds < 0 then '-' else '+') ::
      (Text.paddedNumeral 2 (seconds.natAbs / 3600) ++
        ':' :: Text.paddedNumeral 2 (seconds.natAbs % 3600 / 60))

def ofNative (d : Calendar.DateTime) : DateFields :=
  let nanos := d.time.fraction
  { year := d.date.year
    month := d.date.month
    day := d.date.day
    hour := d.time.hour
    minute := d.time.minute
    second := d.time.second
    fraction := if nanos = 0 then none else some (trimZeros (Text.paddedNumeral 9 nanos))
    offset := some (nativeOffset d.offset)
    hasTime := true }

def nanos? : Option (List Char) → Option Nat
  | none => some 0
  | some digits => Text.numeral? (digits ++ List.replicate (9 - digits.length) '0')

def toNative? (f : DateFields) : Option Calendar.DateTime := do
  let date ← f.calendarDate?
  let nanos ← nanos? f.fraction
  let time ← Calendar.TimeOfDay.of? f.hour f.minute f.second nanos
  let offset ← offsetSeconds? (f.offset.getD ['Z'])
  Calendar.DateTime.of? date time offset

end DateFields

inductive DateForm where
  | date
  | dateOnly
  | timeOnly
  | dateTimeOnly
  | dateTime
deriving DecidableEq

namespace DateForm

def ofBase : BaseType → DateForm
  | .dateOnly => dateOnly
  | .timeOnly => timeOnly
  | .dateTimeOnly => dateTimeOnly
  | .dateTime => dateTime
  | _ => date

def label : DateForm → String
  | date => "date"
  | dateOnly => "date-only (YYYY-MM-DD)"
  | timeOnly => "time-only (hh:mm:ss[.ff])"
  | dateTimeOnly => "datetime-only (YYYY-MM-DDThh:mm:ss[.ff])"
  | dateTime => "datetime (RFC 3339)"

def fields? : DateForm → List Char → Option DateFields
  | date => DateFields.date
  | dateOnly => DateFields.dateOnly?
  | timeOnly => DateFields.timeOnly?
  | dateTimeOnly => DateFields.dateTimeOnly?
  | dateTime => DateFields.dateTime?

def read (form : DateForm) (fast : Bool) (s : List Char) : Except DateRejection DateFields :=
  match form.fields? s with
  | none => .error .form
  | some f =>
    if !f.inRange then .error .form
    else if fast || f.onCalendar then .ok f
    else .error .calendar

def piece? : DateForm → DateFields → Option (List Char)
  | date => DateFields.asWritten?
  | dateOnly => DateFields.datePart?
  | timeOnly => DateFields.timePart?
  | dateTimeOnly => DateFields.localPart?
  | dateTime => fun f => some f.iso

def canonical (form : DateForm) (f : DateFields) : List Char := (form.piece? f).getD f.iso

def canonicalText (form : DateForm) (f : DateFields) : String := String.ofList (form.canonical f)

end DateForm
end Schemata

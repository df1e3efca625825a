import Schemata.Calendar.Date
import Schemata.Text.Numeral

/-!
Date-times with an offset from universal time. Two are the same instant when they agree after the
offset is taken off; a leap second is a second that is longer than the others. The text is that of
internet date-times, with a sign on years of more or less than four digits.
-/

namespace Schemata.Calendar

structure TimeOfDay where
  hour : Nat
  minute : Nat
  second : Nat
  nano : Nat
  inRange :
    hour < 24 ∧ minute < 60 ∧ second < 60 ∧ nano < 2000000000 ∧ (1000000000 ≤ nano → second = 59)
deriving DecidableEq

namespace TimeOfDay

def of? (hour minute second nano : Nat) : Option TimeOfDay :=
  if h : hour < 24 ∧ minute < 60 ∧ second < 60 ∧ nano < 2000000000 ∧ (1000000000 ≤ nano → second = 59)
  then some ⟨hour, minute, second, nano, h⟩
  else none

def seconds (t : TimeOfDay) : Nat := t.hour * 3600 + t.minute * 60 + t.second

def fraction (t : TimeOfDay) : Nat := t.nano % 1000000000

def writtenSecond (t : TimeOfDay) : Nat := t.second + t.nano / 1000000000

end TimeOfDay

structure DateTime where
  date : Date
  time : TimeOfDay
  offset : Int
  offset_lt : offset.natAbs < 86400
deriving DecidableEq

namespace DateTime

def of? (date : Date) (time : TimeOfDay) (offset : Int) : Option DateTime :=
  if h : offset.natAbs < 86400 then some ⟨date, time, offset, h⟩ else none

/-- The instant: seconds of universal time, and the nanoseconds within the second. -/
def instant (d : DateTime) : Int × Nat :=
  (d.date.dayNumber * 86400 + d.time.seconds - d.offset, d.time.nano)

def sameInstant (a b : DateTime) : Bool := a.instant == b.instant

def universal (d : DateTime) : Date × Nat :=
  let s : Int := d.time.seconds - d.offset
  if s < 0 then (d.date.previous, (s + 86400).toNat)
  else if 86400 ≤ s then (d.date.next, (s - 86400).toNat)
  else (d.date, s.toNat)

def yearText (year : Int) : List Char :=
  if 0 ≤ year ∧ year ≤ 9999 then Text.paddedNumeral 4 year.natAbs
  else (if year < 0 then '-' else '+') :: Text.paddedNumeral 4 year.natAbs

def fractionText (nanos : Nat) : List Char :=
  if nanos = 0 then []
  else if nanos % 1000000 = 0 then '.' :: Text.paddedNumeral 3 (nanos / 1000000)
  else if nanos % 1000 = 0 then '.' :: Text.paddedNumeral 6 (nanos / 1000)
  else '.' :: Text.paddedNumeral 9 nanos

def offsetText (offset : Int) : List Char :=
  if offset = 0 then ['Z']
  else
    let minutes := (offset.natAbs + 30) / 60
    (if offset < 0 then '-' else '+') ::
      (Text.paddedNumeral 2 (minutes / 60) ++ ':' :: Text.paddedNumeral 2 (minutes % 60))

def toChars (d : DateTime) : List Char :=
  yearText d.date.year ++ '-' :: Text.paddedNumeral 2 d.date.month ++
    '-' :: Text.paddedNumeral 2 d.date.day ++
    'T' :: Text.paddedNumeral 2 d.time.hour ++ ':' :: Text.paddedNumeral 2 d.time.minute ++
    ':' :: Text.paddedNumeral 2 d.time.writtenSecond ++ fractionText d.time.fraction ++
    offsetText d.offset

def text (d : DateTime) : String := String.ofList d.toChars

end DateTime
end Schemata.Calendar

import Schemata.Calendar.DateTime
import Schemata.Text.Blank

/-!
Date-times as mail headers write them, in the older and the newer forms, and the one form of them
that web headers use.
-/

namespace Schemata.Calendar.Mail

def leastYear : Int := -262143

def greatestYear : Int := 262142

def digits? (least most : Nat) (s : List Char) : Option (Nat × Nat × List Char) :=
  let front := (s.take most).takeWhile Char.isDigit
  if least ≤ front.length then
    some (Text.numeralValue front, front.length, s.drop front.length)
  else none

def space? (s : List Char) : Option (List Char) :=
  match s with
  | c :: rest => if Text.isBlank c then some (Text.trimLeft rest) else none
  | [] => none

def colon? (s : List Char) : Option (List Char) :=
  match Text.trimLeft s with
  | ':' :: rest => some rest
  | _ => none

def name? (names : List String) (s : List Char) : Option (Nat × List Char) :=
  let word := String.ofList ((s.take 3).map Char.toLower)
  (names.findIdx? fun n => String.ofList (n.toList.map Char.toLower) == word).map fun i =>
    (i, s.drop 3)

def weekday? (s : List Char) : Option (Option Nat × List Char) :=
  match name? weekdayNames s with
  | some (i, ',' :: rest) => some (some i, rest)
  | some _ => none
  | none => some (none, s)

def fullYear (value count : Nat) : Int :=
  if count = 2 then (if value < 50 then 2000 + value else 1900 + value)
  else if count = 3 then 1900 + value
  else value

def second? (s : List Char) : Option (Nat × List Char) :=
  match colon? s with
  | none => some (0, s)
  | some rest =>
    match digits? 2 2 rest with
    | some (value, _, s) => if value ≤ 60 then some (value, s) else none
    | none => none

def zoneByName? (name : String) : Option Int :=
  let hours (h : Int) : Option Int := some (h * 3600)
  if name = "gmt" || name = "ut" || name = "z" then hours 0
  else if name = "edt" then hours (-4)
  else if name = "est" || name = "cdt" then hours (-5)
  else if name = "cst" || name = "mdt" then hours (-6)
  else if name = "mst" || name = "pdt" then hours (-7)
  else if name = "pst" then hours (-8)
  else if name.length = 1 && name != "j" then hours 0
  else none

def zone? (s : List Char) : Option (Int × List Char) :=
  let word := s.takeWhile Char.isAlpha
  if !word.isEmpty then
    (zoneByName? (String.ofList (word.map Char.toLower))).map (·, s.drop word.length)
  else
    match s with
    | sign :: rest =>
      if sign = '+' ∨ sign = '-' then do
        let (hours, _, rest) ← digits? 2 2 rest
        let (minutes, _, rest) ← digits? 2 2 rest
        if 59 < minutes then none
        else
          let seconds : Int := hours * 3600 + minutes * 60
          some (if sign = '-' then -seconds else seconds, rest)
      else none
    | [] => none

def skipComment : Nat → List Char → Option (List Char)
  | _, [] => none
  | depth, '\\' :: _ :: rest => skipComment depth rest
  | depth, '(' :: rest => skipComment (depth + 1) rest
  | depth, ')' :: rest => if depth ≤ 1 then some rest else skipComment (depth - 1) rest
  | depth, _ :: rest => skipComment depth rest

def onlyComments : Nat → List Char → Bool
  | 0, s => s.isEmpty
  | fuel + 1, s =>
    if s.isEmpty then true
    else
      match Text.trimLeft s with
      | '(' :: rest =>
        match skipComment 1 rest with
        | some rest => onlyComments fuel rest
        | none => false
      | _ => false

structure Fields where
  weekday : Option Nat
  day : Nat
  month : Nat
  year : Int
  hour : Nat
  minute : Nat
  second : Nat
  offset : Int

def fields? (s : List Char) : Option Fields := do
  let (weekday, s) ← weekday? (Text.trimLeft s)
  let s := Text.trimLeft s
  let (day, _, s) ← digits? 1 2 s
  let s ← space? s
  let (month, s) ← name? monthNames s
  let s ← space? s
  let (value, count, s) ← digits? 2 s.length s
  let s ← space? s
  let (hour, _, s) ← digits? 2 2 s
  let s ← colon? s
  let (minute, _, s) ← digits? 2 2 (Text.trimLeft s)
  let (second, s) ← second? s
  let s ← space? s
  let (offset, s) ← zone? s
  if onlyComments s.length s then
    some ⟨weekday, day, month + 1, fullYear value count, hour, minute, second, offset⟩
  else none

def withinYears (d : Date) : Bool := decide (leastYear ≤ d.year ∧ d.year ≤ greatestYear)

def Fields.toDateTime? (f : Fields) : Option DateTime := do
  let date ← Date.of? f.year f.month f.day
  let time ←
    if f.second = 60 then TimeOfDay.of? f.hour f.minute 59 1000000000
    else TimeOfDay.of? f.hour f.minute f.second 0
  let d ← DateTime.of? date time f.offset
  if f.weekday.all (· == date.weekday) && withinYears date && withinYears d.universal.1 then some d
  else none

def read? (s : List Char) : Option DateTime := (fields? s).bind Fields.toDateTime?

def httpChars (d : DateTime) : List Char :=
  let (date, second) := d.universal
  let two (n : Nat) : List Char := Text.paddedNumeral 2 n
  ((weekdayNames[date.weekday]?).getD "").toList ++ ',' :: ' ' :: two date.day ++
    ' ' :: ((monthNames[date.month - 1]?).getD "").toList ++ ' ' :: DateTime.yearText date.year ++
    ' ' :: two (second / 3600) ++ ':' :: two (second % 3600 / 60) ++
    ':' :: two (second % 60 + d.time.nano / 1000000000) ++ [' ', 'G', 'M', 'T']

def httpText (d : DateTime) : String := String.ofList (httpChars d)

end Schemata.Calendar.Mail

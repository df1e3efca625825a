import Schemata.Number.Basic

/-!
Numbers in JSON text. An integer that fits a word is read exactly; every other number is read as
floating point from as many leading digits as a word holds and one power of ten, which is near the
written number but not always the nearest. Numbers too large to be finite are refused. Written
numbers show the fewest digits that read back.
-/

namespace Schemata.Json.Numeral

structure Parts where
  negative : Bool
  whole : List Char
  fraction : List Char
  power : Option (Bool × List Char)
deriving DecidableEq

def digits? (s : List Char) : Option (List Char × List Char) :=
  let front := s.takeWhile Char.isDigit
  if front.isEmpty then none else some (front, s.dropWhile Char.isDigit)

def whole? : List Char → Option (List Char × List Char)
  | '0' :: rest => if (rest.head?.any Char.isDigit) then none else some (['0'], rest)
  | s => digits? s

def fraction? : List Char → Option (List Char × List Char)
  | '.' :: rest => digits? rest
  | s => some ([], s)

def power? : List Char → Option (Option (Bool × List Char) × List Char)
  | [] => some (none, [])
  | c :: rest =>
    if c = 'e' || c = 'E' then
      let (negative, rest) := Text.splitSign rest
      (digits? rest).map fun (digits, rest) => (some (negative, digits), rest)
    else some (none, c :: rest)

def parts? (s : List Char) : Option (Parts × List Char) := do
  let (negative, s) := match s with
    | '-' :: s => (true, s)
    | s => (false, s)
  let (whole, s) ← whole? s
  let (fraction, s) ← fraction? s
  let (power, s) ← power? s
  return (⟨negative, whole, fraction, power⟩, s)

def accumulate (significand : Nat) : List Char → Nat × Nat
  | [] => (significand, 0)
  | c :: rest =>
    let next := significand * 10 + (c.toNat - 48)
    if next < Nat.pow 2 64 then
      let (result, taken) := accumulate next rest
      (result, taken + 1)
    else (significand, 0)

def powerOfTen (k : Nat) : Double := .ofDecimal false 1 k

/-- A significand times a power of ten, multiplied or divided in steps that floating point allows.
None when it is too large. -/
def scale? (f : Double) (exponent : Int) : Option Double :=
  if exponent.natAbs ≤ 308 then
    if 0 ≤ exponent then
      let product := f.mul (powerOfTen exponent.natAbs)
      if product.isFinite then some product else none
    else some (f.div (powerOfTen exponent.natAbs))
  else if f = .zero false then some f
  else if 0 ≤ exponent then none
  else scale? (f.div (powerOfTen 308)) (exponent + 308)
termination_by exponent.natAbs
decreasing_by omega

def greatestPower : Nat := Nat.pow 2 31 - 1

def float? (negative : Bool) (significand : Nat) (exponent : Int) :
    Option (Bool × List Char) → Option Double
  | none => (scale? (.ofInt significand) exponent).map (signed negative)
  | some (down, digits) =>
    let power := Text.numeralValue digits
    if greatestPower < power then
      if significand ≠ 0 && !down then none else some (signed negative (.zero false))
    else
      let exponent := if down then exponent - power else exponent + power
      (scale? (.ofInt significand) exponent).map (signed negative)
where
  signed (negative : Bool) (f : Double) : Double := if negative then f.neg else f

def Parts.value? (p : Parts) : Option Number :=
  let (significand, taken) := accumulate 0 p.whole
  let skipped := p.whole.length - taken
  if p.fraction.isEmpty && p.power.isNone && skipped == 0 then
    if p.negative then
      if 0 < significand ∧ significand ≤ Nat.pow 2 63 then
        some (.int (Int64.ofInt (-(significand : Int))))
      else some (.float (Double.ofInt significand).neg)
    else some (.uint (UInt64.ofNat significand))
  else
    let (significand, taken) := accumulate significand p.fraction
    (float? p.negative significand (skipped - taken) p.power).map .float

def decode (s : List Char) : Option (Number × List Char) := do
  let (parts, rest) ← parts? s
  let n ← parts.value?
  return (n, rest)

/-- Numbers from `0.00001` up to sixteen places are written without an exponent, and a whole one
ends in `.0`. -/
def layout : FloatLayout := ⟨.toEven, fun e => -5 ≤ e && e < 16, ['.', '0']⟩

def FitsInt128 (i : Int) : Prop := -Int.pow 2 127 ≤ i ∧ i < Int.pow 2 127

instance (i : Int) : Decidable (FitsInt128 i) := inferInstanceAs (Decidable (_ ∧ _))

/-- A number as JSON text. Infinities have none and are null; integers beyond 128 bits are strings
of their digits. -/
def encode : Number → List Char
  | .int v => Text.signedNumeral v.toInt
  | .uint v => Text.numeral v.toNat
  | .float v => (layout.write? v).getD ['n', 'u', 'l', 'l']
  | .big v =>
    if FitsInt128 v then Text.signedNumeral v else '"' :: Text.signedNumeral v ++ ['"']

end Schemata.Json.Numeral

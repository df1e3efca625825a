import Schemata.Number.Decimal

/-!
Numbers in the four forms that documents and native values bring: signed and unsigned words,
floating-point numbers and integers of any size. Equality and order are numeric and cross the
forms; an integer is never rounded when the other side is one too.
-/

namespace Schemata

inductive Number where
  | int (v : Int64)
  | uint (v : UInt64)
  | float (v : Double)
  | big (v : Int)
deriving DecidableEq

namespace Number

def FitsInt64 (i : Int) : Prop := -Int.pow 2 63 ≤ i ∧ i < Int.pow 2 63

def FitsUInt64 (i : Int) : Prop := 0 ≤ i ∧ i < Int.pow 2 64

instance (i : Int) : Decidable (FitsInt64 i) := inferInstanceAs (Decidable (_ ∧ _))
instance (i : Int) : Decidable (FitsUInt64 i) := inferInstanceAs (Decidable (_ ∧ _))

/-- An integer in its smallest form: zero and what is below it signed, what is above it unsigned,
of any size where a word does not hold it. -/
def ofInt (i : Int) : Number :=
  if i ≤ 0 then
    if FitsInt64 i then .int (Int64.ofInt i) else .big i
  else if FitsUInt64 i then .uint (UInt64.ofNat i.toNat)
  else .big i

def ofNumeral (i : Int) : Number :=
  if FitsInt64 i then .int (Int64.ofInt i) else ofInt i

def ofCount (n : Nat) : Number := if n < Nat.pow 2 64 then .uint (UInt64.ofNat n) else .big n

def signedWord? (s : List Char) : Option Int64 :=
  let (negative, digits) := Text.splitSign s
  if digits.isEmpty then none
  else (Text.sumWithin? (fun i => decide (FitsInt64 i)) negative 0 digits).map Int64.ofInt

def unsignedWord? (s : List Char) : Option UInt64 :=
  let digits := match s with
    | '+' :: rest => rest
    | s => s
  if digits.isEmpty then none
  else (Text.sumWithin? (fun i => decide (FitsUInt64 i)) false 0 digits).map fun i =>
    UInt64.ofNat i.toNat

/-- The number that a text denotes, white space at its ends aside. It is tried as a numeral of each
word, as one of any size, and then as any other decimal literal, which must be finite. -/
def ofChars? (s : List Char) : Option Number :=
  let s := Text.trim s
  if s.isEmpty then none
  else
    match signedWord? s with
    | some v => some (.int v)
    | none =>
      match unsignedWord? s with
      | some v => some (.uint v)
      | none =>
        match Text.signedNumeral? s with
        | some i => some (ofInt i)
        | none =>
          -- Infinities and what is not a number go by names, in which there are no digits.
          if s.any Char.isDigit then
            match Double.ofChars? s with
            | some x => if x.isFinite then some (.float x) else none
            | none => none
          else none

def ofText? (s : String) : Option Number := ofChars? s.toList

def toDouble : Number → Double
  | .int v => .ofInt v.toInt
  | .uint v => .ofInt v.toNat
  | .float v => v
  | .big v => .ofInt v

def toInt? : Number → Option Int
  | .int v => some v.toInt
  | .uint v => some v.toNat
  | .float v => v.toInt?
  | .big v => some v

def isInteger (n : Number) : Bool := n.toInt?.isSome

/-- The integer as a signed word. Floating-point numbers beyond `2 ^ 53`, where the format skips
integers, and integers held in the form of any size have none. -/
def toInt64? : Number → Option Int64
  | .int v => some v
  | .uint v => if FitsInt64 v.toNat then some (Int64.ofNat v.toNat) else none
  | .float v =>
    match v.toInt? with
    | some i => if i.natAbs ≤ Nat.pow 2 53 then some (Int64.ofInt i) else none
    | none => none
  | .big _ => none

/-- Exact for two integers, after rounding to doubles otherwise; none for NaN. -/
def compare? (a b : Number) : Option Ordering :=
  match a, b with
  | .float x, .float y => x.compare? y
  | a, b =>
    match a.toInt?, b.toInt? with
    | some i, some j => some (compare i j)
    | _, _ => a.toDouble.compare? b.toDouble

def equal (a b : Number) : Bool := a.compare? b == some .eq

def le (a b : Number) : Bool :=
  match a.compare? b with
  | some .lt | some .eq => true
  | _ => false

/-- Whether `a` is a multiple of `b`. The remainder is that of the exact integers when `exact` is
asked for and both have one, and of floating-point numbers otherwise. -/
def isMultipleOf (a b : Number) (exact : Bool) : Bool :=
  let inexact := a.toDouble.isMultipleOf b.toDouble
  if exact then
    match a.toInt?, b.toInt? with
    | some i, some j => j != 0 && i % j == 0
    | _, _ => inexact
  else inexact

def text : Number → String
  | .int v => String.ofList (Text.signedNumeral v.toInt)
  | .uint v => String.ofList (Text.numeral v.toNat)
  | .float v => v.text
  | .big v => String.ofList (Text.signedNumeral v)

end Number
end Schemata

import Schemata.Number.Double
import Schemata.Text.Numeral

/-!
Decimal forms of binary floating-point numbers: reading a decimal literal, the fewest digits that
read back, and the layout of those digits as text.
-/

namespace Schemata

/-- A decimal literal: whether it has a minus sign, its digits as one number, and the power of ten
of the last digit. Either side of the point may be empty, but not both. -/
structure DecimalLiteral where
  negative : Bool
  digits : Nat
  exponent : Int
deriving DecidableEq

namespace DecimalLiteral

def exponentPart? : List Char → Option Int
  | [] => some 0
  | c :: rest => if c = 'e' || c = 'E' then Text.signedNumeral? rest else none

def ofChars? (s : List Char) : Option DecimalLiteral :=
  let (negative, s) := Text.splitSign s
  let whole := s.takeWhile Char.isDigit
  let rest := s.dropWhile Char.isDigit
  let (fraction, rest) := match rest with
    | '.' :: rest => (rest.takeWhile Char.isDigit, rest.dropWhile Char.isDigit)
    | rest => ([], rest)
  if whole.isEmpty && fraction.isEmpty then none
  else (exponentPart? rest).map fun e =>
    ⟨negative, Text.numeralValue (whole ++ fraction), e - fraction.length⟩

def toDouble (l : DecimalLiteral) : Double := .ofDecimal l.negative l.digits l.exponent

end DecimalLiteral

inductive Tie where
  | toEven
  | up
deriving DecidableEq

/-- The positive decimal number `digits · 10 ^ exponent`. -/
structure Decimal where
  digits : Nat
  exponent : Int
deriving DecidableEq

namespace Decimal

def leadingExponent (n d : Nat) : Int :=
  if d ≤ n then (Text.numeral (n / d)).length - 1
  else -(Text.numeral ((n + d - 1) / n - 1)).length

/-- The candidate of the grid of multiples of `10 ^ step` for `m · 2 ^ q`: the nearer of the two
neighbours among those that round to it. The numbers that round to it reach half way to the next
significand on both sides, half as far down where the exponent changes; the ends belong to them
when the significand is even. -/
def onGrid (tie : Tie) (m : Nat) (q step : Int) : Option Nat :=
  let unit := Nat.pow 10 step.toNat * Nat.pow 2 (2 - q).toNat
  let scale := Nat.pow 10 (-step).toNat * Nat.pow 2 (q - 2).toNat
  let value := 4 * m * scale
  let low := (if m = Nat.pow 2 52 ∧ -1074 < q then 4 * m - 1 else 4 * m - 2) * scale
  let high := (4 * m + 2) * scale
  let readsBack (x : Nat) : Bool :=
    if m % 2 = 0 then low ≤ x * unit && x * unit ≤ high else low < x * unit && x * unit < high
  let below := value / unit
  let above := below + 1
  if readsBack below then
    if readsBack above then
      let down := value - below * unit
      let up := above * unit - value
      if down < up then some below
      else if up < down then some above
      else match tie with
        | .up => some above
        | .toEven => if below % 2 = 0 then some below else some above
    else some below
  else if readsBack above then some above
  else none

/-- The decimal with the fewest digits that reads back as `m · 2 ^ q`, the nearest of those.
Seventeen digits always do. -/
def shortest (tie : Tie) (m : Nat) (q : Int) : Decimal :=
  let first := leadingExponent (m * Nat.pow 2 q.toNat) (Nat.pow 2 (-q).toNat)
  let found := (List.range 17).findSome? fun (k : Nat) =>
    (onGrid tie m q (first - k)).map fun x => (⟨x, first - k⟩ : Decimal)
  found.getD ⟨m, q⟩

def significant (x : Decimal) : List Char × Int :=
  let digits := Text.numeral x.digits
  (((digits.reverse.dropWhile (· == '0')).reverse), x.exponent + digits.length - 1)

def positional (wholeTail : List Char) (digits : List Char) (first : Int) : List Char :=
  if first < 0 then
    ['0', '.'] ++ List.replicate (-first - 1).toNat '0' ++ digits
  else
    let places := first.toNat + 1
    if digits.length ≤ places then
      digits ++ List.replicate (places - digits.length) '0' ++ wholeTail
    else digits.take places ++ '.' :: digits.drop places

def scientific (digits : List Char) (first : Int) : List Char :=
  let mantissa := match digits with
    | d :: rest => if rest.isEmpty then [d] else d :: '.' :: rest
    | [] => []
  mantissa ++ 'e' :: (if first < 0 then '-' else '+') :: Text.numeral first.natAbs

end Decimal

structure FloatLayout where
  tie : Tie
  /-- Whether a number whose first digit has this power of ten is written without an exponent. -/
  isPositional : Int → Bool
  wholeTail : List Char

namespace FloatLayout

def magnitude (layout : FloatLayout) (m : Nat) (q : Int) : List Char :=
  if m = 0 then '0' :: layout.wholeTail
  else
    let (digits, first) := (Decimal.shortest layout.tie m q).significant
    if layout.isPositional first then Decimal.positional layout.wholeTail digits first
    else Decimal.scientific digits first

def write? (layout : FloatLayout) : Double → Option (List Char)
  | .finite negative m q _ =>
    some ((if negative then ['-'] else []) ++ layout.magnitude m q)
  | _ => none

end FloatLayout

namespace Double

/-- The number a text denotes: a decimal literal, or an infinity or not-a-number by name in
either case of letters. -/
def ofChars? (s : List Char) : Option Double :=
  match DecimalLiteral.ofChars? s with
  | some l => some l.toDouble
  | none =>
    let (negative, name) := Text.splitSign s
    let name := String.ofList (name.map Char.toLower)
    if name = "inf" || name = "infinity" then some (.infinity negative)
    else if name = "nan" then some .nan
    else none

def plainLayout : FloatLayout := ⟨.up, fun _ => true, []⟩

def text (x : Double) : String :=
  match x with
  | .nan => "NaN"
  | .infinity negative => if negative then "-inf" else "inf"
  | x => String.ofList ((plainLayout.write? x).getD [])

end Double
end Schemata

import Schemata.Number.Rounding

/-!
Binary floating-point numbers of 64 bits. A finite one is `m · 2 ^ q` with the one pair of
significand and exponent that the format gives it, so equal data mean equal bits. Every finite
number is a whole multiple of `2 ^ (-1074)`; order and remainder are those of the multiples.
-/

namespace Schemata

/-- The pairs of significand and exponent of the format: 53 bits, the exponent as small as it can
be but not below that of the least positive number. -/
def Double.Canonical (m : Nat) (q : Int) : Prop :=
  m < Nat.pow 2 53 ∧ -1074 ≤ q ∧ q ≤ 971 ∧ (q = -1074 ∨ Nat.pow 2 52 ≤ m)

instance (m : Nat) (q : Int) : Decidable (Double.Canonical m q) :=
  inferInstanceAs (Decidable (_ ∧ _ ∧ _ ∧ (_ ∨ _)))

/-- A number of the format; those that are not numbers are all one. -/
inductive Double where
  | nan
  | infinity (negative : Bool)
  | finite (negative : Bool) (m : Nat) (q : Int) (canonical : Double.Canonical m q)
deriving DecidableEq

namespace Double

def zero (negative : Bool) : Double := .finite negative 0 (-1074) (by decide)

def ofParts (negative : Bool) (m : Nat) (q : Int) : Double :=
  if h : Canonical m q then .finite negative m q h else .infinity negative

/-- The exponent of the last of 53 places of `n / d`, for a positive quotient: the quotient is at
least `2 ^ 52` and below `2 ^ 53` of its units. -/
def lastPlace (n d : Nat) : Int :=
  let e : Int := n.log2 - d.log2
  if d * Nat.pow 2 e.toNat ≤ n * Nat.pow 2 (-e).toNat then e - 52 else e - 53

/-- The number nearest to `n / d`, a half going to the even significand; beyond the largest
finite number by half a unit it is the infinity. -/
def ofRatio (negative : Bool) (n d : Nat) : Double :=
  if n = 0 then zero negative
  else
    let q := max (lastPlace n d) (-1074)
    let m := roundHalfEven (n * Nat.pow 2 (-q).toNat) (d * Nat.pow 2 q.toNat)
    if m = Nat.pow 2 53 then ofParts negative (Nat.pow 2 52) (q + 1) else ofParts negative m q

def ofInt (i : Int) : Double := ofRatio (decide (i < 0)) i.natAbs 1

/-- The number nearest to `digits · 10 ^ exponent`. Exponents far outside the format are cut
short: the result is zero or infinite whatever the digits are. -/
def ofDecimal (negative : Bool) (digits : Nat) (exponent : Int) : Double :=
  if digits = 0 then zero negative
  else
    let size : Int := (digits.log2 : Int) * 30103 / 100000 + exponent
    if 400 < size then .infinity negative
    else if size < -400 then zero negative
    else ofRatio negative (digits * Nat.pow 10 exponent.toNat) (Nat.pow 10 (-exponent).toNat)

def isFinite : Double → Bool
  | .finite .. => true
  | _ => false

def magnitudeUnits (m : Nat) (q : Int) : Nat := m * Nat.pow 2 (q + 1074).toNat

def signedUnits (negative : Bool) (m : Nat) (q : Int) : Int :=
  if negative then -(magnitudeUnits m q : Int) else magnitudeUnits m q

/-- None for NaN; both zeros are equal. -/
def compare? : Double → Double → Option Ordering
  | .nan, _ => none
  | _, .nan => none
  | .infinity a, .infinity b => some (if a == b then .eq else if a then .lt else .gt)
  | .infinity a, .finite .. => some (if a then .lt else .gt)
  | .finite .., .infinity b => some (if b then .gt else .lt)
  | .finite s m q _, .finite s' m' q' _ => some (compare (signedUnits s m q) (signedUnits s' m' q'))

def toInt? : Double → Option Int
  | .finite negative m q _ =>
    let size : Option Nat :=
      if 0 ≤ q then some (m * Nat.pow 2 q.toNat)
      else if m % Nat.pow 2 (-q).toNat = 0 then some (m / Nat.pow 2 (-q).toNat)
      else none
    size.map fun k => if negative then -(k : Int) else k
  | _ => none

/-- Whether division by `d` leaves no remainder. Nothing is a multiple of zero, and zero alone is a
multiple of an infinity. -/
def isMultipleOf : Double → Double → Bool
  | .finite _ m q _, .finite _ m' q' _ =>
    m' != 0 && magnitudeUnits m q % magnitudeUnits m' q' == 0
  | .finite _ m _ _, .infinity _ => m == 0
  | _, _ => false

def mul : Double → Double → Double
  | .finite s m q _, .finite s' m' q' _ =>
    let e := q + q'
    ofRatio (s != s') (m * m' * Nat.pow 2 e.toNat) (Nat.pow 2 (-e).toNat)
  | .nan, _ => .nan
  | _, .nan => .nan
  | .infinity s, .infinity s' => .infinity (s != s')
  | .infinity s, .finite s' m _ _ => if m = 0 then .nan else .infinity (s != s')
  | .finite s m _ _, .infinity s' => if m = 0 then .nan else .infinity (s != s')

def div : Double → Double → Double
  | .finite s m q _, .finite s' m' q' _ =>
    if m' = 0 then (if m = 0 then .nan else .infinity (s != s'))
    else
      let e := q - q'
      ofRatio (s != s') (m * Nat.pow 2 e.toNat) (m' * Nat.pow 2 (-e).toNat)
  | .nan, _ => .nan
  | _, .nan => .nan
  | .infinity _, .infinity _ => .nan
  | .infinity s, .finite s' _ _ _ => .infinity (s != s')
  | .finite s _ _ _, .infinity s' => zero (s != s')

def neg : Double → Double
  | .nan => .nan
  | .infinity s => .infinity (!s)
  | .finite s m q h => .finite (!s) m q h

def toBits : Double → Nat
  | .nan => 0x7FF8000000000000
  | .infinity s => (if s then Nat.pow 2 63 else 0) + 0x7FF0000000000000
  | .finite s m q _ =>
    (if s then Nat.pow 2 63 else 0) +
      (if m < Nat.pow 2 52 then m else (q + 1075).toNat * Nat.pow 2 52 + (m - Nat.pow 2 52))

def greatestSingle : Double := .finite false (0xFFFFFF * Nat.pow 2 29) 75 (by decide)

end Double
end Schemata

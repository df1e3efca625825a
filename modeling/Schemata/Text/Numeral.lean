import Schemata.Text.Blank

/-!
Decimal numerals of ASCII digits: what counts as one, its value, and the numeral of a number;
hexadecimal digits. Reading a written numeral gives the number back.
-/

namespace Schemata.Text

def isNumeral (s : List Char) : Bool := !s.isEmpty && s.all Char.isDigit

def numeralValue (s : List Char) : Nat := Nat.ofDigitChars 10 s 0

def numeral? (s : List Char) : Option Nat := if isNumeral s then some (numeralValue s) else none

def numeral (n : Nat) : List Char := Nat.toDigits 10 n

def signedNumeral (i : Int) : List Char :=
  if i < 0 then '-' :: numeral i.natAbs else numeral i.natAbs

def splitSign : List Char → Bool × List Char
  | '-' :: rest => (true, rest)
  | '+' :: rest => (false, rest)
  | rest => (false, rest)

def signedNumeral? (s : List Char) : Option Int :=
  let (negative, digits) := splitSign s
  (numeral? digits).map fun n => if negative then -(n : Int) else n

/-- What digits come to when each is added to ten times the sum, or taken away from it; none where a
character is no digit or a sum on the way is out of range. -/
def sumWithin? (fits : Int → Bool) (negative : Bool) (sum : Int) : List Char → Option Int
  | [] => some sum
  | c :: rest =>
    if c.isDigit then
      let tens := sum * 10
      let digit : Int := (c.toNat - '0'.toNat : Nat)
      let next := if negative then tens - digit else tens + digit
      if fits tens && fits next then sumWithin? fits negative next rest else none
    else none

def paddedNumeral (width n : Nat) : List Char :=
  let digits := numeral n
  List.replicate (width - digits.length) '0' ++ digits

def hexValue? (c : Char) : Option Nat :=
  if '0' ≤ c ∧ c ≤ '9' then some (c.toNat - 48)
  else if 'a' ≤ c ∧ c ≤ 'f' then some (c.toNat - 87)
  else if 'A' ≤ c ∧ c ≤ 'F' then some (c.toNat - 55)
  else none

def hexDigit (n : Nat) : Char := if n < 10 then Char.ofNat (48 + n) else Char.ofNat (87 + n)

theorem isNumeral_numeral (n : Nat) : isNumeral (numeral n) = true := by
  have hne : numeral n ≠ [] := Nat.toDigits_ne_nil
  have hall : (numeral n).all Char.isDigit = true :=
    List.all_eq_true.2 fun c hc => Nat.isDigit_of_mem_toDigits (by decide) (by decide) hc
  simp [isNumeral, hne, hall]

@[simp] theorem numeralValue_numeral (n : Nat) : numeralValue (numeral n) = n :=
  Nat.ofDigitChars_toDigits (by decide) (by decide)

@[simp] theorem numeral?_numeral (n : Nat) : numeral? (numeral n) = some n := by
  simp [numeral?, isNumeral_numeral]

end Schemata.Text

import Schemata.Text.CharSet

/-!
Tables that give every character a tag, written as runs: a tag of one capital and the small letters
after it, then how many characters in a row have it, where that is more than one.
-/

namespace Schemata.Text

structure Run where
  tag : String
  length : Nat
deriving DecidableEq, Inhabited

namespace Run

def decode : Nat → List Char → List Run
  | 0, _ => []
  | fuel + 1, s =>
    match s with
    | [] => []
    | c :: rest =>
      let small := rest.takeWhile Char.isLower
      let rest := rest.dropWhile Char.isLower
      let count := rest.takeWhile Char.isDigit
      let length := if count.isEmpty then 1 else Nat.ofDigitChars 10 count 0
      ⟨String.ofList (c :: small), length⟩ :: decode fuel (rest.dropWhile Char.isDigit)

def ofPieces (pieces : List String) : List Run :=
  let s := pieces.flatMap String.toList
  decode s.length s

/-- The changes of the set of those whose tag is wanted, from a number on, given whether the number
before is inside. -/
def changesOf (wanted : String → Bool) : Nat → Bool → List Run → List Nat
  | n, inside, [] => CharSet.changeAt n inside false []
  | n, inside, run :: rest =>
    CharSet.changeAt n inside (wanted run.tag)
      (changesOf wanted (n + run.length) (wanted run.tag) rest)

def setOf (wanted : String → Bool) (runs : List Run) : CharSet := ⟨changesOf wanted 0 false runs⟩

end Run
end Schemata.Text

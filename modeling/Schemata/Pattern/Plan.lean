import Schemata.Pattern.Regex

/-!
The simplified form of an expression, which decides how large a pattern is: neighbouring characters
are one text, nested sequences and branches are one level, branches of characters or sets are one
set, and what all branches begin with stands in front of them.
-/

namespace Schemata

open Text (CharSet)

inductive Plan where
  | empty
  | text (s : List Char)
  | set (k : CharSet)
  | look (l : Look)
  | rep (min : Nat) (max : Option Nat) (lazily : Bool) (s : Plan)
  | group (s : Plan)
  | seq (parts : List Plan)
  | alt (branches : List Plan)

namespace Plan

mutual

def same : Plan → Plan → Bool
  | empty, empty => true
  | text s, text t => s == t
  | set j, set k => j == k
  | look l, look m => l == m
  | rep min max lazily s, rep min' max' lazily' t =>
    min == min' && max == max' && lazily == lazily' && same s t
  | seq ss, seq ts => sameAll ss ts
  | alt ss, alt ts => sameAll ss ts
  | _, _ => false

def sameAll : List Plan → List Plan → Bool
  | [], [] => true
  | s :: ss, t :: ts => same s t && sameAll ss ts
  | _, _ => false

end

mutual

def isZeroWidth : Plan → Bool
  | empty | look _ => true
  | text _ | set _ => false
  | rep _ max _ s => max.isSome && isZeroWidth s
  | group s => isZeroWidth s
  | seq parts | alt parts => areZeroWidth parts

def areZeroWidth : List Plan → Bool
  | [] => true
  | s :: rest => isZeroWidth s && areZeroWidth rest

end

mutual

def leastWidth : Plan → Option Nat
  | empty | look _ => some 0
  | text s => some s.length
  | set k => if k.isEmpty then none else some 1
  | rep min _ _ s => (leastWidth s).map (min * ·)
  | group s => leastWidth s
  | seq parts => sumWidth parts
  | alt branches => minWidth branches

def sumWidth : List Plan → Option Nat
  | [] => some 0
  | s :: rest =>
    match leastWidth s, sumWidth rest with
    | some a, some b => some (a + b)
    | _, _ => none

def minWidth : List Plan → Option Nat
  | [] => none
  | [s] => leastWidth s
  | s :: rest =>
    match leastWidth s, minWidth rest with
    | some a, some b => some (min a b)
    | _, _ => none

end

def takesCharacter (s : Plan) : Bool := s.leastWidth.any (0 < ·)

mutual

def isAtStart : Plan → Bool
  | look l => l == .textStart
  | rep min _ _ s => 0 < min && isAtStart s
  | group s => isAtStart s
  | seq parts => beginAtStart parts
  | alt branches => areAtStart branches
  | _ => false

def beginAtStart : List Plan → Bool
  | [] => false
  | s :: rest => isAtStart s || (isZeroWidth s && beginAtStart rest)

def areAtStart : List Plan → Bool
  | [] => true
  | s :: rest => isAtStart s && areAtStart rest

end

mutual

def isAtEnd : Plan → Bool
  | look l => l == .textEnd
  | rep min _ _ s => 0 < min && isAtEnd s
  | group s => isAtEnd s
  | seq parts => endAtEnd parts
  | alt branches => areAtEnd branches
  | _ => false

def endAtEnd : List Plan → Bool
  | [] => false
  | s :: rest => (isAtEnd s && areZeroWidth rest) || endAtEnd rest

def areAtEnd : List Plan → Bool
  | [] => true
  | s :: rest => isAtEnd s && areAtEnd rest

end

/-! Building. -/

def ofSet (k : CharSet) : Plan :=
  match k.single? with
  | some n => text [Char.ofNat n]
  | none => set k

def char (c : Char) : Plan := text [c]

def attach : Plan → List Plan → List Plan
  | text s, text t :: rest => text (s ++ t) :: rest
  | s, rest => s :: rest

def parts : Plan → List Plan
  | empty => []
  | seq parts => parts
  | s => [s]

def sequence (plans : List Plan) : Plan :=
  match (plans.flatMap parts).foldr attach [] with
  | [] => empty
  | [s] => s
  | parts => seq parts

def branches : Plan → List Plan
  | alt branches => branches
  | s => [s]

def char? : Plan → Option Char
  | text [c] => some c
  | _ => none

def set? : Plan → Option CharSet
  | set k => some k
  | _ => none

def choiceOf (plans : List Plan) : Plan :=
  match plans.flatMap branches with
  | [s] => s
  | branches =>
    match branches.mapM char?, branches.mapM set? with
    | some chars, _ => ofSet (chars.foldl (fun k c => k ∪ .single c) .empty)
    | _, some sets => ofSet (sets.foldl (· ∪ ·) .empty)
    | _, _ => alt branches

def seq? : Plan → Option (List Plan)
  | seq parts => some parts
  | _ => none

def sharedFront : List Plan → List Plan → List Plan
  | s :: ss, t :: ts => if same s t then s :: sharedFront ss ts else []
  | _, _ => []

def choice (plans : List Plan) : Plan :=
  match (plans.flatMap branches).mapM seq? with
  | some (first :: second :: more) =>
    let front := (second :: more).foldl sharedFront first
    if front.isEmpty then choiceOf plans
    else
      let rests := (first :: second :: more).map fun parts => sequence (parts.drop front.length)
      sequence (front ++ [choiceOf rests])
  | _ => choiceOf plans

/-- A repetition. One of something without width is made at most once, none at all is empty, and
exactly once is no repetition. -/
def repeated (min : Nat) (max : Option Nat) (lazily : Bool) (s : Plan) : Plan :=
  let least := if s.isZeroWidth then Nat.min min 1 else min
  let most := if s.isZeroWidth then some ((max.map (Nat.min 1)).getD 1) else max
  if most = some 0 then empty
  else if least = 1 ∧ most = some 1 then s
  else rep least most lazily s

end Plan
end Schemata

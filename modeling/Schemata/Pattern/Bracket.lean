import Schemata.Pattern.Escape

/-!
Classes in brackets: characters, ranges, classes with a name and brackets within brackets, joined by
intersection, difference and symmetric difference.
-/

namespace Schemata.Pattern

open Text (CharSet)

def posixClasses : List (String × CharSet) := [
  ("alnum", .ofPieces ["30-39 41-5A 61-7A"]), ("alpha", .ofPieces ["41-5A 61-7A"]),
  ("ascii", .ofPieces ["0-7F"]), ("blank", .ofPieces ["9 20"]), ("cntrl", .ofPieces ["0-1F 7F"]),
  ("digit", asciiDigits), ("graph", .ofPieces ["21-7E"]), ("lower", .ofPieces ["61-7A"]),
  ("print", .ofPieces ["20-7E"]), ("punct", .ofPieces ["21-2F 3A-40 5B-60 7B-7E"]),
  ("space", asciiSpaces), ("upper", .ofPieces ["41-5A"]), ("word", asciiWord),
  ("xdigit", .ofPieces ["30-39 41-46 61-66"])]

def posix : Step (Bool × CharSet) := fun s =>
  match s with
  | ':' :: rest =>
    let (negated, rest) := match rest with
      | '^' :: rest => (true, rest)
      | rest => (false, rest)
    let name := rest.takeWhile (· != ':')
    match rest.dropWhile (· != ':') with
    | ':' :: ']' :: rest =>
      (posixClasses.lookup (String.ofList name)).map fun k => ((negated, k), rest)
    | _ => none
  | _ => none

def classItem (flags : Flags) : Step (Char ⊕ CharSet) := fun s =>
  match s with
  | [] => none
  | '\\' :: rest =>
    match escape flags rest with
    | some (.char c _, s) => some (.inl c, s)
    | some (.set k, s) => some (.inr k, s)
    | _ => none
  | c :: rest => some (.inl c, rest)

def range? (flags : Flags) (lo hi : Char) : Option CharSet :=
  if lo ≤ hi ∧ (flags.unicode ∨ hi.toNat < 128) then some (.range lo.toNat hi.toNat) else none

/-- The character that tells what a hyphen means. In the spaced form blanks are passed over, and
the first mark of a comment, but not the comment. -/
def afterHyphen? (flags : Flags) (s : List Char) : Option Char :=
  if flags.spaced then
    match Text.trimLeft s with
    | '#' :: rest => (Text.trimLeft rest).head?
    | s => s.head?
  else s.head?

def classRange (flags : Flags) : Step CharSet := fun s =>
  match classItem flags s with
  | none => none
  | some (first, s) =>
    let alone? : Option CharSet := match first with
      | .inl c => range? flags c c
      | .inr k => some k
    match skip flags s with
    | [] => none
    | '-' :: rest =>
      let next := afterHyphen? flags rest
      if next = some ']' ∨ next = some '-' then alone?.map (·, '-' :: rest)
      else
        match first, classItem flags (skip flags rest) with
        | .inl lo, some (.inl hi, s) => (range? flags lo hi).map (·, s)
        | _, _ => none
    | s => alone?.map (·, s)

inductive SetOp where
  | inter
  | diff
  | symmDiff

def SetOp.apply : SetOp → CharSet → CharSet → CharSet
  | inter => .inter
  | diff => .diff
  | symmDiff => .symmDiff

structure Operand where
  set : CharSet
  depth : Nat
  op : SetOp

/-- A class under construction: what stands left of an operation, and the items since, their number
and how deep they are nested. -/
structure ClassState where
  left : Option Operand
  items : CharSet
  count : Nat
  depth : Nat

namespace ClassState

def start : ClassState := ⟨none, .empty, 0, 0⟩

def add (st : ClassState) (k : CharSet) (depth : Nat) : ClassState :=
  { st with items := st.items ∪ k, count := st.count + 1, depth := max st.depth depth }

def total (flags : Flags) (st : ClassState) : CharSet :=
  match st.left with
  | none => st.items
  | some left => left.op.apply (flags.closed left.set) (flags.closed st.items)

def totalDepth (st : ClassState) : Nat :=
  let listed := st.depth + (if 1 < st.count then 1 else 0)
  match st.left with
  | none => listed
  | some left => max left.depth listed + 1

def operate (flags : Flags) (st : ClassState) (op : SetOp) : ClassState :=
  { start with left := some ⟨st.total flags, st.totalDepth, op⟩ }

end ClassState

def leadingHyphens (flags : Flags) : Nat → ClassState → List Char → ClassState × List Char
  | 0, st, s => (st, s)
  | fuel + 1, st, s =>
    match s with
    | '-' :: rest => leadingHyphens flags fuel (st.add (.single '-') 0) (skip flags rest)
    | s => (st, s)

def classOpening (flags : Flags) (s : List Char) : ClassState × List Char :=
  match s with
  | ']' :: rest => (ClassState.start.add (.single ']') 0, skip flags rest)
  | s => leadingHyphens flags (s.length + 1) .start s

mutual

def bracket (flags : Flags) : Nat → Step (CharSet × Nat)
  | 0, _ => none
  | fuel + 1, s =>
    let s := skip flags s
    let (negated, s) := match s with
      | '^' :: s => (true, skip flags s)
      | s => (false, s)
    let (st, s) := classOpening flags s
    match bracketItems flags fuel st s with
    | none => none
    | some (st, s) =>
      (flags.finished? negated (st.total flags)).map fun k => ((k, st.totalDepth + 1), s)

def bracketItems (flags : Flags) : Nat → ClassState → Step ClassState
  | 0, _, _ => none
  | fuel + 1, st, s =>
    match skip flags s with
    | [] => none
    | ']' :: s => some (st, s)
    | '&' :: '&' :: s => bracketItems flags fuel (st.operate flags .inter) s
    | '-' :: '-' :: s => bracketItems flags fuel (st.operate flags .diff) s
    | '~' :: '~' :: s => bracketItems flags fuel (st.operate flags .symmDiff) s
    | '[' :: s =>
      match posix s with
      | some ((negated, k), s) =>
        match flags.finished? negated k with
        | some k => bracketItems flags fuel (st.add k 0) s
        | none => none
      | none =>
        match bracket flags fuel s with
        | some ((k, depth), s) => bracketItems flags fuel (st.add k depth) s
        | none => none
    | s =>
      match classRange flags s with
      | some (k, s) => bracketItems flags fuel (st.add k 0) s
      | none => none

end

end Schemata.Pattern

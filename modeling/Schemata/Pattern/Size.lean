import Schemata.Pattern.Plan
import Schemata.Text.Utf8

/-!
The size of the automaton that a pattern stands for. States are counted in the order in which they
are made, bytes of a character one by one; a repetition makes its states anew for every time that is
counted. Equal states of one set are shared as far as a memo with a slot for each hash remembers
them, so the number of states made before has a part in which are.
-/

namespace Schemata.Pattern

open Text (CharSet)
open Text.Utf8 (ByteRun Row)

structure Meter where
  states : Nat
  extra : Nat

namespace Meter

def stateBytes : Nat := 32

def limit : Nat := 10 * Nat.pow 2 20

def total (m : Meter) : Nat := m.states * stateBytes + m.extra

def isOver (m : Meter) : Bool := limit < m.total

def zero : Meter := ⟨0, 0⟩

def make (m : Meter) (states extra : Nat) : Meter :=
  ⟨m.states + states, m.extra + extra⟩

end Meter

def runBytes : Nat := 8

def wayBytes : Nat := 4

/-! Memos. -/

structure Memo (α : Type) where
  slots : Array (Option (α × Nat))

namespace Memo

variable {α : Type} [BEq α]

def ofSize (size : Nat) : Memo α := ⟨Array.replicate size none⟩

def find? (m : Memo α) (hash : UInt64) (key : α) : Option Nat :=
  match m.slots[hash.toNat % m.slots.size]? with
  | some (some (k, n)) => if k == key then some n else none
  | _ => none

def keep (m : Memo α) (hash : UInt64) (key : α) (n : Nat) : Memo α :=
  ⟨m.slots.setIfInBounds (hash.toNat % m.slots.size) (some (key, n))⟩

end Memo

def hashOf (numbers : List Nat) : UInt64 :=
  numbers.foldl (fun h n => (h ^^^ UInt64.ofNat n) * 1099511628211) 14695981039346656037

/-! Sets read forwards: the rows of a set as a tree, made from the leaves to the root. -/

abbrev Edge := ByteRun × Nat

structure Making where
  meter : Meter
  memo : Memo (List Edge)

def Making.node (m : Making) (edges : List Edge) : Nat × Making :=
  let hash := hashOf (edges.flatMap fun ((lo, hi), next) => [lo, hi, next])
  match m.memo.find? hash edges with
  | some n => (n, m)
  | none =>
    let n := m.meter.states
    (n, ⟨m.meter.make 1 (runBytes * edges.length), m.memo.keep hash edges n⟩)

def makeRows (last : Nat) : Nat → List Row → Making → Nat × Making
  | 0, _, m => (last, m)
  | depth + 1, rows, m =>
    let groups := rows.splitBy fun a b => a.head? == b.head?
    let (edges, m) := groups.foldl (fun (edges, m) group =>
      let tails := (group.map List.tail).filter fun row => !row.isEmpty
      let (next, m) := if tails.isEmpty then (last, m) else makeRows last depth tails m
      match group with
      | (run :: _) :: _ => ((run, next) :: edges, m)
      | _ => (edges, m)) ([], m)
    m.node edges.reverse

def forwardSlots : Nat := 10000

def setForward (rows : List Row) (m : Meter) : Meter :=
  (makeRows m.states 4 rows ⟨m.make 1 0, .ofSize forwardSlots⟩).2.meter

/-! Sets read backwards: a way for each row, of which rows that begin alike share the states. -/

structure BackEdge where
  next : Nat
  run : ByteRun
deriving BEq

def backwardSlots : Nat := 1000

def makeBack : Row → Nat → Meter × Memo BackEdge → Meter × Memo BackEdge
  | [], _, m => m
  | (lo, hi) :: rest, next, (meter, memo) =>
    let hash := hashOf [next, lo, hi]
    match memo.find? hash ⟨next, lo, hi⟩ with
    | some n => makeBack rest n (meter, memo)
    | none =>
      makeBack rest meter.states (meter.make 1 0, memo.keep hash ⟨next, lo, hi⟩ meter.states)

def setBackward (rows : List Row) (m : Meter) : Meter :=
  (rows.foldl (fun (meter, memo) row =>
    let (meter, memo) := makeBack row (m.states + 1) (meter, memo)
    (meter.make 0 wayBytes, memo)) (m.make 2 0, .ofSize backwardSlots)).1

/-! Branches that are all texts: a tree of their bytes. -/

inductive TextTree where
  | node (closed : List (List (Nat × TextTree))) (ways : List (Nat × TextTree))

namespace TextTree

def leaf : TextTree := node [] []

def setWay (byte : Nat) (tree : TextTree) : List (Nat × TextTree) → List (Nat × TextTree)
  | [] => [(byte, tree)]
  | (b, t) :: rest => if b = byte then (b, tree) :: rest else (b, t) :: setWay byte tree rest

def insert : List Nat → TextTree → TextTree
  | [], node closed ways =>
    if ways.isEmpty && !closed.isEmpty && closed.all List.isEmpty then node closed ways
    else node (closed ++ [ways]) []
  | b :: rest, node closed ways =>
    node closed (setWay b (insert rest ((ways.lookup b).getD leaf)) ways)

mutual

def cost : TextTree → Meter → Meter
  | node closed ways, m =>
    costClosed closed (costWays ways (costSet ways (m.make 1 (wayBytes * closed.length))))

def costClosed : List (List (Nat × TextTree)) → Meter → Meter
  | [], m => m
  | ways :: rest, m => costClosed rest (costWays ways (costSet ways m))

def costWays : List (Nat × TextTree) → Meter → Meter
  | [], m => m
  | (_, node closed ways) :: rest, m =>
    if ways.isEmpty && closed.all List.isEmpty then costWays rest m
    else costWays rest (cost (node closed ways) m)

def costSet : List (Nat × TextTree) → Meter → Meter
  | [], m => m
  | [_], m => m.make 1 wayBytes
  | ways, m => m.make 1 (runBytes * ways.length + wayBytes)

end

end TextTree

/-! Plans. -/

structure Toll where
  pay : Meter → Meter

namespace Toll

def states (n : Nat) : Toll := ⟨fun m => m.make n 0⟩

def statesWith (n extra : Nat) : Toll := ⟨fun m => m.make n extra⟩

def andThen (a b : Toll) : Toll := ⟨fun m => b.pay (a.pay m)⟩

def payTimes (t : Toll) : Nat → Meter → Meter
  | 0, m => m
  | n + 1, m => if m.isOver then m else payTimes t n (t.pay m)

def times (n : Nat) (t : Toll) : Toll := ⟨fun m => t.payTimes n m⟩

def exactly (n : Nat) (t : Toll) : Toll := if n = 0 then states 1 else times n t

end Toll

def tollOfSet (backward : Bool) (k : CharSet) : Toll :=
  if k.isBelow 128 then .statesWith 2 (runBytes * k.runs.length)
  else
    let rows := k.rows
    ⟨fun m => if backward then setBackward rows m else setForward rows m⟩

def textBytes (s : List Char) : List Nat := s.flatMap fun c => Text.Utf8.encode c.toNat

def texts? (branches : List Plan) : Option (List (List Nat)) :=
  branches.mapM fun
    | .text s => some (textBytes s)
    | _ => none

def tollOfTexts (backward : Bool) (texts : List (List Nat)) : Toll :=
  let tree := texts.foldl
    (fun tree bytes => tree.insert (if backward then bytes.reverse else bytes)) TextTree.leaf
  ⟨fun m => tree.cost (m.make 1 0)⟩

def tollOfRep (min : Nat) (max : Option Nat) (takesCharacter : Bool) (t : Toll) : Toll :=
  match max with
  | none =>
    if min = 0 then
      if takesCharacter then (Toll.states 1).andThen (t.andThen (.statesWith 0 (2 * wayBytes)))
      else t.andThen (.statesWith 3 (4 * wayBytes))
    else (t.times min).andThen (.statesWith 1 (2 * wayBytes))
  | some max =>
    let once := (Toll.statesWith 1 (2 * wayBytes)).andThen t
    if min = max then t.exactly min
    else if min = 0 ∧ max = 1 then once.andThen (.states 1)
    else (t.exactly min).andThen ((Toll.states 1).andThen (once.times (max - min)))

mutual

def toll (backward : Bool) : Plan → Toll
  | .empty | .look _ => .states 1
  | .text s => .states (textBytes s).length
  | .set k => tollOfSet backward k
  | .group s =>
    if backward then toll backward s
    else (Toll.states 1).andThen ((toll backward s).andThen (.states 1))
  | .rep min max _ s => tollOfRep min max s.takesCharacter (toll backward s)
  | .seq parts => tollOfParts backward parts
  | .alt branches =>
    match texts? branches with
    | some texts => tollOfTexts backward texts
    | none => tollOfBranches backward 0 branches

def tollOfParts (backward : Bool) : List Plan → Toll
  | [] => .states 0
  | s :: rest =>
    if backward then (tollOfParts backward rest).andThen (toll backward s)
    else (toll backward s).andThen (tollOfParts backward rest)

def tollOfBranches (backward : Bool) (before : Nat) : List Plan → Toll
  | [] => .states 0
  | s :: rest =>
    (toll backward s).andThen
      ((Toll.statesWith (if before = 1 then 2 else 0) wayBytes).andThen
        (tollOfBranches backward (before + 1) rest))

end

def tollOfStart (anchored : Bool) : Toll :=
  if anchored then .states 1 else .statesWith 3 (runBytes + 2 * wayBytes)

def forwardSize (s : Plan) : Meter :=
  ((tollOfStart s.isAtStart).andThen ((toll false (.group s)).andThen (.states 1))).pay .zero

def backwardSize (s : Plan) : Meter :=
  ((tollOfStart s.isAtEnd).andThen ((toll true s).andThen (.states 1))).pay .zero

def manyTexts : Nat := 3000

def isManyTexts : Plan → Bool
  | .alt branches => manyTexts ≤ branches.length && (texts? branches).isSome
  | _ => false

def fits (s : Plan) : Bool :=
  isManyTexts s || (!(forwardSize s).isOver && !(backwardSize s).isOver)

end Schemata.Pattern

import Schemata.Pattern.Bracket

/-!
The written form of patterns: groups, classes, assertions, repetitions and flags. Conditions on what
lies ahead or behind are not part of the notation. A pattern that is nested too deep or whose
automata are too large is none.
-/

namespace Schemata.Pattern

open Text (CharSet)

/-! Repetitions. -/

def digits (flags : Flags) : Nat → List Char → List Char × List Char
  | 0, s => ([], s)
  | fuel + 1, s =>
    match s with
    | [] => ([], [])
    | c :: rest =>
      if c.isDigit then
        let (more, rest) := digits flags fuel (skip flags rest)
        (c :: more, rest)
      else ([], s)

def count? (flags : Flags) : Step Nat := fun s =>
  let s := Text.trimLeft s
  let (digits, rest) := digits flags (s.length + 1) s
  if digits.isEmpty then none
  else
    let n := Text.numeralValue digits
    if n < Nat.pow 2 32 then some (n, Text.trimLeft rest) else none

def bounds? (flags : Flags) : Step (Nat × Option Nat) := fun s =>
  match count? flags (skip flags s) with
  | none => none
  | some (least, s) =>
    match s with
    | '\x7d' :: s => some ((least, some least), s)
    | ',' :: s =>
      match skip flags s with
      | '\x7d' :: s => some ((least, none), s)
      | s =>
        match count? flags s with
        | some (most, '\x7d' :: s) =>
          if least ≤ most then some ((least, some most), s) else none
        | _ => none
    | _ => none

def preference (s : List Char) : Bool × List Char :=
  match s with
  | '?' :: s => (true, s)
  | s => (false, s)

/-! Groups. -/

def Flags.set? (flags : Flags) (letter : Char) (on : Bool) : Option Flags :=
  match letter with
  | 'i' => some { flags with anyCase := on }
  | 'm' => some { flags with manyLines := on }
  | 's' => some { flags with dotLineFeed := on }
  | 'u' => some { flags with unicode := on }
  | 'x' => some { flags with spaced := on }
  | 'R' => some { flags with returns := on }
  | 'U' => some { flags with lazily := on }
  | _ => none

/-- Flags between a question mark and a colon or the end of a group: the new flags, and whether
they hold for the group alone. -/
def flagItems (flags : Flags) (seen : List Char) (off : Bool) (dangling : Bool) :
    List Char → Option (Flags × Bool × List Char)
  | [] => none
  | c :: rest =>
    if c = ')' || c = ':' then
      if dangling || (c = ')' && seen.isEmpty) then none
      else some (flags, c = ':', rest)
    else if seen.contains c then none
    else if c = '-' then flagItems flags ('-' :: seen) true true rest
    else
      match flags.set? c (!off) with
      | some flags => flagItems flags (c :: seen) off false rest
      | none => none

def isNameStart (c : Char) : Bool := c == '_' || Text.Property.alphabetic.has c

def isNamePart (c : Char) : Bool :=
  isNameStart c || c == '.' || c == '[' || c == ']' || (Text.ofCategory "N").has c

def groupName? : Step String := fun s =>
  match s.takeWhile (· != '>'), s.dropWhile (· != '>') with
  | first :: others, _ :: rest =>
    if isNameStart first && others.all isNamePart then some (String.ofList (first :: others), rest)
    else none
  | _, _ => none

inductive Opening where
  | group (flags : Flags) (noted : Bool) (name : Option String)
  | setFlags (flags : Flags)

def opening (flags : Flags) : Step Opening := fun s =>
  match skip flags s with
  | '?' :: '=' :: _ => none
  | '?' :: '!' :: _ => none
  | '?' :: '<' :: '=' :: _ => none
  | '?' :: '<' :: '!' :: _ => none
  | '?' :: 'P' :: '<' :: s =>
    (groupName? s).map fun (name, s) => (.group flags true (some name), s)
  | '?' :: '<' :: s => (groupName? s).map fun (name, s) => (.group flags true (some name), s)
  | '?' :: s =>
    match flagItems flags [] false false s with
    | none => none
    | some (inner, true, s) => some (.group inner false none, s)
    | some (outer, false, s) => some (.setFlags outer, s)
  | s => some (.group flags true none, s)

/-- The expressions of a group read so far: the branches before the last bar, the parts since, the
last first, with none for a change of flags, and the names of groups in use. -/
structure GroupState where
  flags : Flags
  branches : List Part
  places : List (Option Part)
  names : List String

namespace GroupState

def start (flags : Flags) (names : List String) : GroupState := ⟨flags, [], [], names⟩

def push (st : GroupState) (p : Part) : GroupState := { st with places := some p :: st.places }

def setFlags (st : GroupState) (flags : Flags) : GroupState :=
  { st with flags := flags, places := none :: st.places }

def branch (st : GroupState) : Part := .sequence st.places.reverse

def bar (st : GroupState) : GroupState :=
  { st with branches := st.branch :: st.branches, places := [] }

def result (st : GroupState) : Part :=
  match (st.branch :: st.branches).reverse with
  | [] => .empty
  | first :: rest => .choice first rest

def repeatLast (st : GroupState) (least : Nat) (most : Option Nat) (turned : Bool) :
    Option GroupState :=
  match st.places with
  | some p :: rest =>
    some { st with places := some (p.repeated least most (turned != st.flags.lazily)) :: rest }
  | _ => none

end GroupState

def literal? (flags : Flags) (c : Char) (isByte : Bool) : Option Part :=
  if isByte && !flags.unicode && 128 ≤ c.toNat then none
  else if flags.anyCase && Text.caseMates.has c then
    some (.ofSet (flags.closed (.single c)))
  else some (.ofSet (.single c))

def dot? (flags : Flags) : Option Part :=
  if !flags.unicode then none
  else if flags.dotLineFeed then some (.ofSet .all)
  else if flags.returns then some (.ofSet (CharSet.ofPieces ["A D"]).compl)
  else some (.ofSet (CharSet.single '\n').compl)

def lineStart (flags : Flags) : Look :=
  if !flags.manyLines then .textStart else if flags.returns then .lineStartReturn else .lineStart

def lineEnd (flags : Flags) : Look :=
  if !flags.manyLines then .textEnd else if flags.returns then .lineEndReturn else .lineEnd

def atom (flags : Flags) : Step Part := fun s =>
  match s with
  | [] => none
  | '[' :: rest =>
    (bracket flags (rest.length + 2) rest).map fun ((k, depth), s) => (⟨.one k, .ofSet k, depth⟩, s)
  | '\\' :: rest =>
    match escape flags rest with
    | none => none
    | some (.char c isByte, s) => (literal? flags c isByte).map (·, s)
    | some (.set k, s) => some (.ofSet k, s)
    | some (.look l, s) => some (.ofLook l, s)
  | '.' :: rest => (dot? flags).map (·, rest)
  | '^' :: rest => some (.ofLook (lineStart flags), rest)
  | '$' :: rest => some (.ofLook (lineEnd flags), rest)
  | c :: rest => (literal? flags c false).map (·, rest)

def repetition? (flags : Flags) : Step (Nat × Option Nat × Bool) := fun s =>
  let counted (least : Nat) (most : Option Nat) (rest : List Char) :
      Option ((Nat × Option Nat × Bool) × List Char) :=
    let (turned, rest) := preference rest
    some ((least, most, turned), rest)
  match s with
  | '*' :: rest => counted 0 none rest
  | '+' :: rest => counted 1 none rest
  | '?' :: rest => counted 0 (some 1) rest
  | '\x7b' :: rest =>
    match bounds? flags rest with
    | some ((least, most), s) => counted least most (skip flags s)
    | none => none
  | _ => none

def isRepetition (c : Char) : Bool := c == '*' || c == '+' || c == '?' || c == '\x7b'

def groupBody : Nat → GroupState → Step GroupState
  | 0, _, _ => none
  | fuel + 1, st, s =>
    match skip st.flags s with
    | [] => some (st, [])
    | c :: rest =>
      if c = ')' then some (st, c :: rest)
      else if c = '|' then groupBody fuel st.bar rest
      else if c = '(' then
        match opening st.flags rest with
        | none => none
        | some (.setFlags flags, s) => groupBody fuel (st.setFlags flags) s
        | some (.group inner noted name, s) =>
          if name.any st.names.contains then none
          else
            match groupBody fuel (.start inner (name.toList ++ st.names)) s with
            | some (sub, ')' :: s) =>
              groupBody fuel ({ st with names := sub.names }.push (sub.result.group noted)) s
            | _ => none
      else if isRepetition c then
        match repetition? st.flags (c :: rest) with
        | none => none
        | some ((least, most, turned), s) =>
          match st.repeatLast least most turned with
          | none => none
          | some st => groupBody fuel st s
      else
        match atom st.flags (c :: rest) with
        | none => none
        | some (p, s) => groupBody fuel (st.push p) s

def depthLimit : Nat := 250

def regex? (source : List Char) : Option Regex :=
  match groupBody (source.length + 1) (.start .standard []) source with
  | some (st, []) =>
    let result := st.result
    if result.depth ≤ depthLimit ∧ fits result.plan then some result.regex else none
  | _ => none

end Schemata.Pattern

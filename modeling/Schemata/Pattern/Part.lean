import Schemata.Pattern.Size

/-!
Parts of a pattern while it is read: the flags in force, and for each part the expression, its
simplified plan and how deep it is nested.
-/

namespace Schemata.Pattern

open Text (CharSet)

structure Flags where
  anyCase : Bool
  manyLines : Bool
  dotLineFeed : Bool
  unicode : Bool
  spaced : Bool
  returns : Bool
  lazily : Bool

namespace Flags

def standard : Flags := ⟨false, false, false, true, false, false, false⟩

def closed (flags : Flags) (k : CharSet) : CharSet :=
  if !flags.anyCase then k else if flags.unicode then k.anyCase else k.anyLetterCase

def outside? (flags : Flags) (k : CharSet) : Option CharSet :=
  if flags.unicode then some k.compl else none

def finished? (flags : Flags) (negated : Bool) (k : CharSet) : Option CharSet :=
  if negated then flags.outside? (flags.closed k) else some (flags.closed k)

end Flags

abbrev Step (α : Type) := List Char → Option (α × List Char)

def skipNotes : Nat → List Char → List Char
  | 0, s => s
  | fuel + 1, s =>
    match s with
    | [] => []
    | c :: rest =>
      if Text.isBlank c then skipNotes fuel rest
      else if c = '#' then skipNotes fuel (rest.dropWhile (· != '\n'))
      else s

def skip (flags : Flags) (s : List Char) : List Char :=
  if flags.spaced then skipNotes (s.length + 1) s else s

def upTo (flags : Flags) (mark : Char) : Nat → Step (List Char)
  | 0, _ => none
  | fuel + 1, s =>
    match skip flags s with
    | [] => none
    | c :: rest =>
      if c = mark then some ([], rest)
      else (upTo flags mark fuel rest).map fun (text, rest) => (c :: text, rest)

/-- An expression, its plan, and how deep groups, repetitions and the like are nested in it. -/
structure Part where
  regex : Regex
  plan : Plan
  depth : Nat

namespace Part

def empty : Part := ⟨.empty, .empty, 0⟩

def ofSet (k : CharSet) : Part := ⟨.one k, .ofSet k, 0⟩

def ofLook (l : Look) : Part := ⟨.look l, .look l, 0⟩

def sequence : List (Option Part) → Part
  | [] => empty
  | [p] => p.getD empty
  | places =>
    let parts := places.filterMap id
    ⟨parts.foldr (fun p rest => p.regex.followedBy rest) .empty,
      .sequence (parts.map Part.plan), (parts.map Part.depth).foldl max 0 + 1⟩

def choice (first : Part) : List Part → Part
  | [] => first
  | rest =>
    ⟨rest.foldl (fun r p => .alt r p.regex) first.regex,
      .choice ((first :: rest).map Part.plan), (rest.map Part.depth).foldl max first.depth + 1⟩

def group (noted : Bool) (p : Part) : Part :=
  { p with plan := if noted then .group p.plan else p.plan, depth := p.depth + 1 }

def repeated (least : Nat) (most : Option Nat) (lazily : Bool) (p : Part) : Part :=
  ⟨.rep least most p.regex, .repeated least most lazily p.plan, p.depth + 1⟩

end Part
end Schemata.Pattern

import Schemata.Facet.Basic

/-!
Merging of facets. Supertypes are inherited: they fill gaps. A type's own facets refine: they
replace single facets, and bounds only give way to wider ones. Lists grow at their end. Main
statement: a merge keeps the kind of the target's shape.
-/

namespace Schemata

/-- How a merge treats facets that both sides set. -/
inductive MergeMode where
  /-- Fill gaps, keep what the target has. -/
  | inherit
  /-- Replace single facets, combine bounds. -/
  | refine
  /-- Replace every facet that the source defines. -/
  | overwrite
deriving DecidableEq

namespace Merge

def singular {α : Type} (mode : MergeMode) (target source : Option α) : Option α :=
  match mode with
  | .inherit => target.or source
  | _ => source.or target

def bound {α : Type} (keeps : α → α → Bool) (mode : MergeMode) (target source : Option α) :
    Option α :=
  match source, target with
  | none, target => target
  | some s, none => some s
  | some s, some t => if mode != .overwrite && keeps t s then some t else some s

def lowerCount : MergeMode → Option Nat → Option Nat → Option Nat := bound fun t s => decide (t ≤ s)

def upperCount : MergeMode → Option Nat → Option Nat → Option Nat := bound fun t s => decide (s ≤ t)

def lowerNumber : MergeMode → Option Number → Option Number → Option Number :=
  bound fun t s => t.le s

def upperNumber : MergeMode → Option Number → Option Number → Option Number :=
  bound fun t s => s.le t

def append {α : Type} (same : α → α → Bool) (target source : List α) : List α :=
  source.foldl (fun acc x => if acc.any (same · x) then acc else acc ++ [x]) target

def entries {α : Type} (mode : MergeMode) (target source : Keyed α) : Keyed α :=
  source.foldl (fun acc e =>
    if mode == .inherit && Keyed.hasKey acc e.1 then acc else Keyed.insert acc e.1 e.2) target

end Merge

open Merge

def Header.merge (mode : MergeMode) (target source : Header) : Header :=
  { description := singular mode target.description source.description
    required := singular mode target.required source.required
    default? := singular mode target.default? source.default?
    annotations := entries mode target.annotations source.annotations
    typeOf := singular mode target.typeOf source.typeOf }

def StringFacets.merge (mode : MergeMode) (target source : StringFacets) : StringFacets :=
  { allowed := append Value.equal target.allowed source.allowed
    patterns := append Pattern.same target.patterns source.patterns
    minLength := lowerCount mode target.minLength source.minLength
    maxLength := upperCount mode target.maxLength source.maxLength }

def NumberFacets.merge (mode : MergeMode) (target source : NumberFacets) : NumberFacets :=
  { allowed := append Value.equal target.allowed source.allowed
    format := singular mode target.format source.format
    minimum := lowerNumber mode target.minimum source.minimum
    maximum := upperNumber mode target.maximum source.maximum
    multipleOf := singular mode target.multipleOf source.multipleOf }

def DateFacets.merge (mode : MergeMode) (target source : DateFacets) : DateFacets :=
  ⟨singular mode target.format source.format⟩

section

variable {μ ρ : Type}

def ArrayFacets.merge (mode : MergeMode) (target source : ArrayFacets ρ) : ArrayFacets ρ :=
  { items := singular mode target.items source.items
    uniqueItems := singular mode target.uniqueItems source.uniqueItems
    minItems := lowerCount mode target.minItems source.minItems
    maxItems := upperCount mode target.maxItems source.maxItems }

def Property.taken (mode : MergeMode) (p : Property ρ) : Property ρ :=
  if mode = .inherit then { p with inherited := true } else p

def ObjectFacets.merge (mode : MergeMode) (target source : ObjectFacets ρ) : ObjectFacets ρ :=
  { properties :=
      entries mode target.properties (source.properties.map fun (k, p) => (k, p.taken mode))
    additionalProperties := singular mode target.additionalProperties source.additionalProperties
    discriminator := singular mode target.discriminator source.discriminator
    discriminatorValue := singular mode target.discriminatorValue source.discriminatorValue
    minProperties := lowerCount mode target.minProperties source.minProperties
    maxProperties := upperCount mode target.maxProperties source.maxProperties }

/-- A non-empty member list of the source replaces the target's, except under `inherit`. -/
def Merge.members (mode : MergeMode) (target source : List μ) : List μ :=
  if source.isEmpty then target
  else if mode != .inherit || target.isEmpty then source
  else target

/-- Shapes of another kind leave the target unchanged. -/
def Shape.merge (mode : MergeMode) : Shape μ ρ → Shape μ ρ → Shape μ ρ
  | .string t, .string s => .string (t.merge mode s)
  | .number t, .number s => .number (t.merge mode s)
  | .date t, .date s => .date (t.merge mode s)
  | .array t, .array s => .array (t.merge mode s)
  | .object t, .object s => .object (t.merge mode s)
  | .union t, .union s => .union (Merge.members mode t s)
  | t, _ => t

@[simp] theorem Shape.kind_merge (mode : MergeMode) (t s : Shape μ ρ) :
    (t.merge mode s).kind = t.kind := by
  cases t <;> cases s <;> rfl

end

end Schemata

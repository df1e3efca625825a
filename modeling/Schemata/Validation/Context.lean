import Schemata.Validation.Validator

/-!
Validation as it goes through a value with one context: where it is, and the problems so far. A check
reports to the context and gives an output or none. An alternative of a union is tried in a fork, a
context at the same place without problems. Nothing is reported once a run for the first problem
alone has one.
-/

namespace Schemata

/-- The current path, the errors so far, and whether only the first is wanted. -/
structure Context where
  location : Location
  errors : List ValidationError
  firstOnly : Bool

namespace Context

def start (firstOnly : Bool) : Context := ⟨[], [], firstOnly⟩

def aborted (c : Context) : Bool := c.firstOnly && !c.errors.isEmpty

def report (c : Context) (e : ValidationError) : Context :=
  if c.aborted then c else { c with errors := c.errors ++ [e] }

def extend (c : Context) (more : List ValidationError) : Context := more.foldl report c

def fork (c : Context) : Context := { c with errors := [] }

def push (c : Context) (s : Segment) : Context := { c with location := s :: c.location }

def pop (c : Context) : Context := { c with location := c.location.tail }

end Context

abbrev Tracked := StateT Context Option

namespace Tracked

variable {α : Type}

def within (s : Segment) (step : Tracked α) : Tracked α := do
  modify fun c => c.push s
  let a ← step
  modify Context.pop
  return a

def forked (step : Tracked α) : Tracked (α × List ValidationError) := do
  let c ← get
  let (a, trial) ← (step.run c.fork : Option (α × Context))
  return (a, trial.errors)

def fault (f : Fault) : Tracked Unit := modify fun c => c.report ⟨c.location, f⟩

def reject (f : Fault) : Tracked (Option Value) := do
  fault f
  return none

end Tracked

namespace Check

/-- A check on a context, which returns an output or `none`. -/
abbrev Walk := Value → Tracked (Option Value)

namespace Walk

open Tracked

def scalar (check : Location → Value → Report) : Walk := fun v => do
  let c ← get
  let r := check c.location v
  modify fun c => c.extend r.errors
  return r.output

/-! Arrays. -/

/-- The loop state of an array check on a context: outputs, JSON texts seen, and failures. -/
structure ItemTally where
  output : List Value
  seen : List (List Char)
  failures : Nat

def ItemTally.start : ItemTally := ⟨[], [], 0⟩

def items (rules : ItemRules) (walk : Walk) : Nat → ItemTally → List Value → Tracked ItemTally
  | _, tally, [] => return tally
  | i, tally, v :: rest => do
    let c ← get
    if rules.limit ≤ tally.failures || c.aborted then return tally
    let failed := { tally with failures := tally.failures + 1 }
    match ← within (.index i) (walk v) with
    | none => items rules walk (i + 1) failed rest
    | some w =>
      if rules.unique && tally.seen.contains w.json then
        if rules.dropsDuplicates then items rules walk (i + 1) tally rest
        else
          within (.index i) (fault (.duplicateItem w))
          items rules walk (i + 1) failed rest
      else
        let seen := if rules.unique then w.json :: tally.seen else tally.seen
        items rules walk (i + 1) ⟨tally.output ++ [w], seen, tally.failures⟩ rest

def finishArray {ρ : Type} (f : ArrayFacets ρ) (tally : ItemTally) : Tracked (Option Value) :=
  let count := tally.output.length
  if 0 < tally.failures then return none
  else if outside count f.minItems f.maxItems then
    reject (.outOfRange .items (.ofCount count) (f.minItems.map Value.ofCount)
      (f.maxItems.map Value.ofCount))
  else return some (.array tally.output)

def array {ρ : Type} (f : ArrayFacets ρ) (o : ValidationOptions) (walk : Walk) : Walk := fun v =>
  match itemsOf? o v with
  | none => reject (.invalidType "array" v)
  | some list => do
    let c ← get
    let rules : ItemRules :=
      ⟨c.firstOnly, max o.maxErrorsPerArray 1, f.uniqueItems.getD false, o.coerceTypes⟩
    let tally ← items rules walk 0 .start list
    finishArray f tally

/-! Objects. -/

structure KeyTally where
  output : Keyed Value
  failures : Nat

def KeyTally.start : KeyTally := ⟨[], 0⟩

def KeyTally.take (tally : KeyTally) (key : String) : Option Value → KeyTally
  | none => { tally with failures := tally.failures + 1 }
  | some w => { tally with
      output := if w.isUndefined then tally.output else Keyed.insert tally.output key w }

structure Field where
  walk : Walk
  required : Bool
  ignored : Bool
  hasDefault : Bool

def field (o : ValidationOptions) (run : Node → Walk) (name : String) (type : Node) : Field :=
  let ignored := o.ignoreRequired.covers name
  ⟨run type, type.isRequired && !ignored, ignored, type.header.default?.isSome⟩

structure FieldRules where
  limit : Nat
  fields : Keyed Field
  drops : Bool
  additional : Bool

def givenField (p : Field) (key : String) : Walk := fun v =>
  if p.ignored && v.isMissing && !p.hasDefault then return some v
  else within (.key key) (p.walk v)

def givenKeys (rules : FieldRules) : KeyTally → List (String × Value) → Tracked KeyTally
  | tally, [] => return tally
  | tally, (key, v) :: rest => do
    let c ← get
    if rules.limit ≤ tally.failures || c.aborted then return tally
    match Keyed.get? rules.fields key with
    | some p =>
      let w ← givenField p key v
      givenKeys rules (tally.take key w) rest
    | none =>
      if rules.drops then givenKeys rules tally rest
      else if rules.additional then
        givenKeys rules { tally with output := Keyed.insert tally.output key v } rest
      else
        let w ← reject (.additionalProperty key)
        givenKeys rules (tally.take key w) rest

def absentKeys (rules : FieldRules) (given : Keyed Value) :
    KeyTally → List (String × Field) → Tracked KeyTally
  | tally, [] => return tally
  | tally, (key, p) :: rest => do
    let c ← get
    if rules.limit ≤ tally.failures || c.aborted then return tally
    if Keyed.hasKey given key || !(p.required || p.hasDefault) then
      absentKeys rules given tally rest
    else
      let w ← within (.key key) (p.walk .undefined)
      absentKeys rules given (tally.take key w) rest

def mismatch? {ρ : Type} (f : ObjectFacets ρ) (name : Option String) (given : Keyed Value) :
    Option Fault :=
  match discriminator? f name with
  | none => none
  | some (key, expected) =>
    let actual := (Keyed.get? given key).getD .undefined
    if actual.scalarText? == some expected then none
    else some (.discriminatorMismatch key expected actual)

def finishObject {ρ : Type} (f : ObjectFacets ρ) (given : Keyed Value) (tally : KeyTally) :
    Tracked (Option Value) :=
  let count := given.length
  if 0 < tally.failures then return none
  else if outside count f.minProperties f.maxProperties then
    reject (.outOfRange .properties (.ofCount count) (f.minProperties.map Value.ofCount)
      (f.maxProperties.map Value.ofCount))
  else return some (.object tally.output)

def keys {ρ : Type} (f : ObjectFacets ρ) (rules : FieldRules) (given : Keyed Value) :
    Tracked (Option Value) := do
  let tally ← givenKeys rules .start given
  let tally ← absentKeys rules given tally rules.fields
  finishObject f given tally

def object {ρ : Type} (f : ObjectFacets ρ) (name : Option String) (o : ValidationOptions)
    (fields : Keyed Field) : Walk := fun v =>
  match v with
  | .object given =>
    match mismatch? f name given with
    | some fault => reject fault
    | none =>
      let additional := f.additionalProperties.getD true
      keys f ⟨max o.maxErrorsPerObject 1, fields, o.dropsAdditional additional, additional⟩ given
  | v => reject (.invalidType "object" v)

/-! Unions. -/

structure Choice where
  precheck : Option Walk
  walk : Walk

def Choice.trial (choice : Choice) (v : Value) : Tracked (List ValidationError) := do
  match choice.precheck with
  | some walk =>
    let (_, problems) ← forked (walk v)
    return problems
  | none => return []

/-- The output of the first choice that succeeds, or else the errors of the last one. -/
def firstMatch (v : Value) : List ValidationError → List Choice → Tracked (Option Value)
  | last, [] =>
    if last.isEmpty then reject (.noUnionMember v)
    else do
      modify fun c => c.extend last
      return none
  | _, choice :: rest => do
    let tried ← choice.trial v
    if tried.isEmpty then
      let (output, problems) ← forked (choice.walk v)
      if problems.isEmpty then return output
      else firstMatch v problems rest
    else firstMatch v tried rest

def union (choices : List Choice) : Walk := fun v => firstMatch v [] choices

/-! Types. -/

def guarded (n : Node) (acceptsNil : Bool) (o : ValidationOptions) (walk : Walk) : Walk := fun v =>
  if v.isMissing then
    match n.header.default? with
    | some d => return some d
    | none =>
      if acceptsNil then return some .null
      else if n.isRequired && !o.ignoresType n.name then reject .valueRequired
      else return some v
  else if (n.shape.isObject || n.ownShape.isObject) && !v.isObject then walk v
  else
    match n.header.typeOf with
    | some p => if p v then walk v else reject (.invalidType n.displayName v)
    | none => walk v

def shape (g : Graph) (o : ValidationOptions) (run : Node → Walk) (n : Node) : Walk :=
  match n.shape with
  | .any => fun v => return some v
  | .string f => scalar (Check.string f o)
  | .number f => scalar (Check.number f (n.base == .integer) o)
  | .boolean => scalar (Check.boolean o)
  | .nil => fun v => reject (.invalidType "nil" v)
  | .date f => scalar (Check.date n.base f o)
  | .array f =>
    let walk : Walk := match f.items with
      | some r => run (g.resolve r)
      | none => fun v => return some v
    array f o walk
  | .object f =>
    let fields := f.properties.map fun (name, p) => (name, field o run name (g.resolve p.type))
    object f n.name o fields
  | .union _ => union []

/-- Validation on a context, within a number of steps from type to type. -/
def run (g : Graph) : Nat → ValidationOptions → Node → Walk
  | 0, _, _ => fun _ _ => none
  | fuel + 1, o, n =>
    match n.alternatives? with
    | none => guarded n false o (shape g o (run g fuel o) n)
    | some alternatives =>
      let acceptsNil := alternatives.any fun alt => alt.base == .nil
      match alternatives with
      | [only] => guarded n acceptsNil o (run g fuel o only)
      | alternatives =>
        guarded n acceptsNil o (union (alternatives.map fun alt =>
          ⟨if needsTrial alt then some (run g fuel o.precheck alt) else none, run g fuel o alt⟩))

end Walk
end Check
end Schemata

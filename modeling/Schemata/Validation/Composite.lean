import Schemata.Validation.Scalar

/-!
Checks of arrays, objects and unions, given the checks of their parts. A check of a part may be
undecided, and then so is the whole.
-/

namespace Schemata.Check

/-- The check of a part: undecided, or a report. -/
abbrev Part := Location → Value → Option Report

/-- The error limit is reached, or the first error was all that was wanted. -/
def stops (firstOnly : Bool) (limit failures : Nat) (errors : List ValidationError) : Bool :=
  limit ≤ failures || Reports.isOver firstOnly errors

/-! Arrays. -/

/-- The options of an array check: first error only, error limit, `uniqueItems`, and whether
duplicates are dropped. -/
structure ItemRules where
  firstOnly : Bool
  limit : Nat
  unique : Bool
  dropsDuplicates : Bool

/-- The loop state of an array check: outputs, JSON texts seen, failures and errors. -/
structure ItemState where
  output : List Value
  seen : List (List Char)
  failures : Nat
  errors : List ValidationError

def ItemState.start : ItemState := ⟨[], [], 0, []⟩

def ItemState.fail (st : ItemState) (firstOnly : Bool) (errors : List ValidationError) :
    ItemState :=
  { st with failures := st.failures + 1, errors := Reports.addAll firstOnly st.errors errors }

/-- Items are duplicates if the JSON texts of their outputs are equal. -/
def ItemState.take (st : ItemState) (rules : ItemRules) (l : Location) (r : Report) : ItemState :=
  match r.output with
  | none => st.fail rules.firstOnly r.errors
  | some v =>
    let st := { st with errors := Reports.addAll rules.firstOnly st.errors r.errors }
    if rules.unique && st.seen.contains v.json then
      if rules.dropsDuplicates then st else st.fail rules.firstOnly [⟨l, .duplicateItem v⟩]
    else
      let seen := if rules.unique then v.json :: st.seen else st.seen
      { st with output := st.output ++ [v], seen := seen }

def items (rules : ItemRules) (part : Part) (l : Location) :
    Nat → ItemState → List Value → Option ItemState
  | _, st, [] => some st
  | i, st, v :: rest =>
    if stops rules.firstOnly rules.limit st.failures st.errors then some st
    else
      match part (l.atIndex i) v with
      | none => none
      | some r => items rules part l (i + 1) (st.take rules (l.atIndex i) r) rest

/-- Outside of `strictTypes`, or under `coerceTypes`, a non-array is wrapped as the only item. -/
def itemsOf? (o : ValidationOptions) : Value → Option (List Value)
  | .array items => some items
  | v => if o.coerceTypes || !o.strictTypes then some [v] else none

def finishArray {ρ : Type} (f : ArrayFacets ρ) (l : Location) (st : ItemState) : Report :=
  if 0 < st.failures then ⟨none, st.errors⟩
  else if outside st.output.length f.minItems f.maxItems then
    wrongCount l .items st.output.length f.minItems f.maxItems
  else ⟨some (.array st.output), st.errors⟩

def array {ρ : Type} (f : ArrayFacets ρ) (o : ValidationOptions) (firstOnly : Bool) (part : Part)
    (l : Location) (v : Value) : Option Report :=
  match itemsOf? o v with
  | none => some (wrongType l "array" v)
  | some list =>
    let rules : ItemRules :=
      ⟨firstOnly, max o.maxErrorsPerArray 1, f.uniqueItems.getD false, o.coerceTypes⟩
    (items rules part l 0 .start list).map (finishArray f l)

/-! Objects. -/

structure PropertyRule where
  part : Part
  required : Bool
  ignored : Bool
  hasDefault : Bool

structure KeyRules where
  firstOnly : Bool
  limit : Nat
  properties : Keyed PropertyRule
  drops : Bool
  additional : Bool

structure KeyState where
  output : Keyed Value
  failures : Nat
  errors : List ValidationError

def KeyState.start : KeyState := ⟨[], 0, []⟩

def KeyState.take (st : KeyState) (firstOnly : Bool) (key : String) (r : Report) : KeyState :=
  let errors := Reports.addAll firstOnly st.errors r.errors
  match r.output with
  | none => { st with failures := st.failures + 1, errors := errors }
  | some v =>
    let output := if v.isUndefined then st.output else Keyed.insert st.output key v
    { st with output := output, errors := errors }

/-- A missing value covered by `ignoreRequired` is kept if there is no default. -/
def givenProperty (p : PropertyRule) (l : Location) (v : Value) : Option Report :=
  if p.ignored && v.isMissing && !p.hasDefault then some (.accept v) else p.part l v

def KeyState.undeclared (st : KeyState) (rules : KeyRules) (l : Location) (key : String)
    (v : Value) : KeyState :=
  if rules.drops then st
  else if rules.additional then { st with output := Keyed.insert st.output key v }
  else st.take rules.firstOnly key (.reject l (.additionalProperty key))

def givenKeys (rules : KeyRules) (l : Location) :
    KeyState → List (String × Value) → Option KeyState
  | st, [] => some st
  | st, (key, v) :: rest =>
    if stops rules.firstOnly rules.limit st.failures st.errors then some st
    else
      match Keyed.get? rules.properties key with
      | none => givenKeys rules l (st.undeclared rules l key v) rest
      | some p =>
        match givenProperty p (l.atKey key) v with
        | none => none
        | some r => givenKeys rules l (st.take rules.firstOnly key r) rest

def absentKeys (rules : KeyRules) (l : Location) (given : Keyed Value) :
    KeyState → List (String × PropertyRule) → Option KeyState
  | st, [] => some st
  | st, (key, p) :: rest =>
    if stops rules.firstOnly rules.limit st.failures st.errors then some st
    else if Keyed.hasKey given key || !(p.required || p.hasDefault) then
      absentKeys rules l given st rest
    else
      match p.part (l.atKey key) .undefined with
      | none => none
      | some r => absentKeys rules l given (st.take rules.firstOnly key r) rest

/-- The discriminator key and value. -/
def discriminator? {ρ : Type} (f : ObjectFacets ρ) (name : Option String) :
    Option (String × String) :=
  f.discriminator.map fun key => (key, (f.discriminatorValue.or name).getD "")

def finishObject {ρ : Type} (f : ObjectFacets ρ) (l : Location) (given : Keyed Value)
    (st : KeyState) : Report :=
  if 0 < st.failures then ⟨none, st.errors⟩
  else if outside given.length f.minProperties f.maxProperties then
    wrongCount l .properties given.length f.minProperties f.maxProperties
  else ⟨some (.object st.output), st.errors⟩

def object {ρ : Type} (f : ObjectFacets ρ) (name : Option String) (o : ValidationOptions)
    (firstOnly : Bool) (properties : Keyed PropertyRule) (l : Location) (v : Value) :
    Option Report :=
  match v with
  | .object given =>
    let additional := f.additionalProperties.getD true
    let rules : KeyRules :=
      ⟨firstOnly, max o.maxErrorsPerObject 1, properties, o.dropsAdditional additional, additional⟩
    let keys : Option Report := do
      let st ← givenKeys rules l .start given
      let st ← absentKeys rules l given st properties
      return finishObject f l given st
    match discriminator? f name with
    | none => keys
    | some (key, expected) =>
      let actual := (Keyed.get? given key).getD .undefined
      if actual.scalarText? == some expected then keys
      else some (.reject l (.discriminatorMismatch key expected actual))
  | v => some (wrongType l "object" v)

/-! Unions. -/

/-- An alternative of a union: its pre-check, if any, and its check. -/
structure Candidate where
  precheck : Option Part
  part : Part

def candidate (c : Candidate) (l : Location) (v : Value) :
    Option (Except (List ValidationError) (Option Value)) := do
  let trial ← match c.precheck with
    | some part => part l v
    | none => some (.accept v)
  if !trial.errors.isEmpty then return .error trial.errors
  let r ← c.part l v
  return if r.errors.isEmpty then .ok r.output else .error r.errors

/-- The output of the first alternative that succeeds, or else the errors of the last one. -/
def firstMatch (firstOnly : Bool) (l : Location) (v : Value) :
    List ValidationError → List Candidate → Option Report
  | last, [] =>
    some (if last.isEmpty then .reject l (.noUnionMember v)
      else ⟨none, Reports.addAll firstOnly [] last⟩)
  | _, c :: rest =>
    match candidate c l v with
    | none => none
    | some (.ok output) => some ⟨output, []⟩
    | some (.error errors) => firstMatch firstOnly l v errors rest

def union (firstOnly : Bool) (candidates : List Candidate) (l : Location) (v : Value) :
    Option Report :=
  firstMatch firstOnly l v [] candidates

end Schemata.Check

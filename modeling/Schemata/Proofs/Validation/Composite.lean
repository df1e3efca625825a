import Mathlib.Tactic.SplitIfs
import Schemata.Proofs.Facet.Likeness
import Schemata.Validation.Validator

/-! Equations for arrays, objects, unions and types in terms of the checks of their parts. Every
proof about runs goes through them. -/

namespace Schemata.Check

def itemRules {ρ : Type} (f : ArrayFacets ρ) (o : ValidationOptions) (firstOnly : Bool) : ItemRules :=
  ⟨firstOnly, max o.maxErrorsPerArray 1, f.uniqueItems.getD false, o.coerceTypes⟩

theorem array_eq {ρ : Type} (f : ArrayFacets ρ) (o : ValidationOptions) (firstOnly : Bool)
    (part : Part) (l : Location) (v : Value) :
    array f o firstOnly part l v =
      match itemsOf? o v with
      | none => some (wrongType l "array" v)
      | some list => (items (itemRules f o firstOnly) part l 0 .start list).map (finishArray f l) := rfl

def keyRules {ρ : Type} (f : ObjectFacets ρ) (o : ValidationOptions) (firstOnly : Bool)
    (properties : Keyed PropertyRule) : KeyRules :=
  ⟨firstOnly, max o.maxErrorsPerObject 1, properties,
    o.dropsAdditional (f.additionalProperties.getD true), f.additionalProperties.getD true⟩

/-- The check of the keys of an object: first those that are there, then the others. -/
def keys {ρ : Type} (f : ObjectFacets ρ) (rules : KeyRules) (l : Location) (given : Keyed Value) :
    Option Report :=
  (givenKeys rules l .start given).bind fun st =>
    (absentKeys rules l given st rules.properties).map (finishObject f l given)

/-- Whether an object has the text that its discriminator asks for; else the report on it. -/
def discriminated {ρ : Type} (f : ObjectFacets ρ) (name : Option String) (l : Location)
    (given : Keyed Value) : Option Report :=
  match discriminator? f name with
  | none => none
  | some (key, expected) =>
    let actual := (Keyed.get? given key).getD .undefined
    if actual.scalarText? == some expected then none
    else some (.reject l (.discriminatorMismatch key expected actual))

theorem object_eq {ρ : Type} (f : ObjectFacets ρ) (name : Option String) (o : ValidationOptions)
    (firstOnly : Bool) (properties : Keyed PropertyRule) (l : Location) (v : Value) :
    object f name o firstOnly properties l v =
      match v with
      | .object given => (discriminated f name l given).elim
          (keys f (keyRules f o firstOnly properties) l given) some
      | v => some (wrongType l "object" v) := by
  cases v with
  | object given =>
    have same : (do
        let st ← givenKeys (keyRules f o firstOnly properties) l .start given
        let st ← absentKeys (keyRules f o firstOnly properties) l given st properties
        return finishObject f l given st) = keys f (keyRules f o firstOnly properties) l given := by
      refine Option.bind_congr fun st _ => ?_
      exact Option.map_eq_bind.symm
    unfold object discriminated
    dsimp only
    rcases discriminator? f name with _ | ⟨key, expected⟩
    · exact same
    · dsimp only
      split
      · exact same
      · rfl
  | _ => rfl

def Candidate.trial (c : Candidate) (l : Location) (v : Value) : Option Report :=
  c.precheck.elim (some (.accept v)) fun part => part l v

def verdict (r : Report) : Except (List ValidationError) (Option Value) :=
  if r.errors.isEmpty then .ok r.output else .error r.errors

theorem candidate_eq (c : Candidate) (l : Location) (v : Value) :
    candidate c l v = (c.trial l v).bind fun trial =>
      if trial.errors.isEmpty then (c.part l v).map verdict else some (.error trial.errors) := by
  obtain ⟨precheck, part⟩ := c
  have after (trial : Report) : (do
      if !trial.errors.isEmpty then return .error trial.errors
      let r ← part l v
      return if r.errors.isEmpty then .ok r.output else .error r.errors) =
      if trial.errors.isEmpty then (part l v).map verdict else some (.error trial.errors) := by
    cases trial.errors.isEmpty
    · rfl
    · exact Option.map_eq_bind.symm
  rcases precheck with _ | first
  · exact after (.accept v)
  · exact Option.bind_congr fun trial _ => after trial

def missing (n : Node) (acceptsNil : Bool) (o : ValidationOptions) (l : Location) (v : Value) :
    Report :=
  match n.header.default? with
  | some d => .accept d
  | none =>
    if acceptsNil then .accept .null
    else if n.isRequired && !o.ignoresType n.name then .reject l .valueRequired
    else .accept v

/-- Whether the `typeOf` predicate of a type, if any, accepts a value that is not missing. -/
def passes (n : Node) (v : Value) : Bool :=
  (n.shape.isObject || n.ownShape.isObject) && !v.isObject || n.header.typeOf.all fun p => p v

theorem passes_of_none {n : Node} (h : n.header.typeOf = none) (v : Value) : passes n v = true := by
  rw [passes, h]
  exact Bool.or_true _

theorem guarded_eq (n : Node) (acceptsNil : Bool) (o : ValidationOptions) (part : Part)
    (l : Location) (v : Value) :
    guarded n acceptsNil o part l v =
      if v.isMissing then some (missing n acceptsNil o l v)
      else if passes n v then part l v
      else some (wrongType l n.displayName v) := by
  unfold guarded missing passes
  split
  · rcases n.header.default? with _ | d
    · dsimp only
      split_ifs <;> rfl
    · rfl
  · rcases (n.shape.isObject || n.ownShape.isObject) && !v.isObject with _ | _
    · rcases n.header.typeOf with _ | p
      · rfl
      · cases p v <;> rfl
    · rfl

def asCandidate (g : Graph) (firstOnly : Bool) (fuel : Nat) (o : ValidationOptions) (alt : Node) :
    Candidate :=
  ⟨if needsTrial alt then some (run g firstOnly fuel o.precheck alt) else none,
    run g firstOnly fuel o alt⟩

def propertyRules (g : Graph) (run : Node → Part) (o : ValidationOptions)
    (properties : List (String × Property Ref)) : Keyed PropertyRule :=
  properties.map fun (name, p) => (name, propertyRule o run name (g.resolve p.type))

theorem run_succ (g : Graph) (firstOnly : Bool) (fuel : Nat) (o : ValidationOptions) (n : Node) :
    run g firstOnly (fuel + 1) o n =
      match n.alternatives? with
      | none => guarded n false o (shape g firstOnly o (run g firstOnly fuel o) n)
      | some [only] => guarded n (only.base == .nil) o (run g firstOnly fuel o only)
      | some alternatives =>
        guarded n (alternatives.any fun alt => alt.base == .nil) o
          (union firstOnly (alternatives.map (asCandidate g firstOnly fuel o))) := by
  rw [run]
  rcases n.alternatives? with _ | (_ | ⟨only, _ | _⟩)
  · rfl
  · rfl
  · simp
  · rfl

theorem forall_asCandidate {g : Graph} {firstOnly : Bool} {fuel : Nat} {o : ValidationOptions}
    {P Q : Part → Prop} (trial : ∀ alt, P (run g firstOnly fuel o.precheck alt))
    (part : ∀ alt, Q (run g firstOnly fuel o alt)) (alternatives : List Node) :
    ∀ c ∈ alternatives.map (asCandidate g firstOnly fuel o),
      (∀ part, c.precheck = some part → P part) ∧ Q c.part := by
  intro c hc
  obtain ⟨alt, -, rfl⟩ := List.mem_map.mp hc
  refine ⟨fun first hp => ?_, part alt⟩
  unfold asCandidate at hp
  dsimp only at hp
  split at hp
  · obtain rfl := Option.some.inj hp
    exact trial alt
  · cases hp

/-- Induction over runs: a property of checks that holds of the undecided one and is kept by shapes,
unions and guards. -/
theorem run_induction {g : Graph} {firstOnly : Bool} {P : ValidationOptions → Part → Prop}
    (undecided : ∀ o, P o fun _ _ => none)
    (shapes : ∀ fuel o n, (∀ n, P o (run g firstOnly fuel o n)) →
      P o (shape g firstOnly o (run g firstOnly fuel o) n))
    (unions : ∀ o cs, (∀ c ∈ cs, (∀ part, c.precheck = some part → P o.precheck part) ∧ P o c.part) →
      P o (union firstOnly cs))
    (guards : ∀ o n acceptsNil part, P o part → P o (guarded n acceptsNil o part)) (fuel : Nat) :
    ∀ o n, P o (run g firstOnly fuel o n) := by
  induction fuel with
  | zero =>
    intro o n
    exact undecided o
  | succ fuel ih =>
    intro o n
    rw [run_succ]
    split
    · exact guards _ _ _ _ (shapes fuel o n (ih o))
    · exact guards _ _ _ _ (ih o _)
    · exact guards _ _ _ _ (unions _ _ (forall_asCandidate (ih o.precheck) (ih o) _))

/-! Two checks side by side. -/

structure PropertyRule.Alike (R : Part → Part → Prop) (a b : PropertyRule) : Prop where
  part : R a.part b.part
  required : a.required = b.required
  ignored : a.ignored = b.ignored
  hasDefault : a.hasDefault = b.hasDefault

structure Candidate.Alike (R : Part → Part → Prop) (a b : Candidate) : Prop where
  precheck : Option.Rel R a.precheck b.precheck
  part : R a.part b.part

variable {R : Part → Part → Prop} {g : Graph} {firstOnly firstOnly' : Bool} {fuel fuel' : Nat}
  {o o' : ValidationOptions}

theorem propertyRules_alike (ignore : o.ignoreRequired = o'.ignoreRequired)
    {run run' : Node → Part} (h : ∀ n, R (run n) (run' n)) (properties : List (String × Property Ref)) :
    Keyed.Alike (PropertyRule.Alike R) (propertyRules g run o properties)
      (propertyRules g run' o' properties) := by
  rw [Keyed.Alike, propertyRules, propertyRules, List.forall₂_map_left_iff,
    List.forall₂_map_right_iff]
  refine List.forall₂_same.mpr fun e _ => ⟨rfl, h _, ?_, ?_, rfl⟩
  · simp only [propertyRule, ignore]
  · simp only [propertyRule, ignore]

theorem asCandidate_alike {alt : Node}
    (part : R (run g firstOnly fuel o alt) (run g firstOnly' fuel' o' alt))
    (trial : R (run g firstOnly fuel o.precheck alt) (run g firstOnly' fuel' o'.precheck alt)) :
    Candidate.Alike R (asCandidate g firstOnly fuel o alt)
      (asCandidate g firstOnly' fuel' o' alt) := by
  refine ⟨?_, part⟩
  unfold asCandidate
  dsimp only
  split
  · exact .some trial
  · exact .none

theorem candidates_alike (part : ∀ n, R (run g firstOnly fuel o n) (run g firstOnly' fuel' o' n))
    (trial : ∀ n, R (run g firstOnly fuel o.precheck n) (run g firstOnly' fuel' o'.precheck n))
    (alternatives : List Node) :
    List.Forall₂ (Candidate.Alike R) (alternatives.map (asCandidate g firstOnly fuel o))
      (alternatives.map (asCandidate g firstOnly' fuel' o')) := by
  rw [List.forall₂_map_left_iff, List.forall₂_map_right_iff]
  exact List.forall₂_same.mpr fun alt _ => asCandidate_alike (part alt) (trial alt)

end Schemata.Check

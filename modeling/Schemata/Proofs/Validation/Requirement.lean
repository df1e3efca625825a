import Schemata.Proofs.Validation.Acceptance
import Schemata.Proofs.Validation.Origin

/-! `ignoreRequired`. The guard reports `valueRequired` unless the name of the type is covered, and
an object does not validate a missing property whose key is covered; so no such error is at a
covered key. -/

namespace Schemata

namespace Check

/-- A `valueRequired` error is at the place itself, or its last step is not a key in
`ignoreRequired`; under `all` there is none. -/
def Enforced (ignore : IgnoreRequired) (l : Location) (v : Value) (e : ValidationError) : Prop :=
  e.fault = .valueRequired → ignore ≠ .all ∧
    (e.location = l ∧ v.isMissing = true ∨
      ∀ key outer, e.location = .key key :: outer → ignore.covers key = false)

def Part.Enforced (ignore : IgnoreRequired) (part : Part) : Prop :=
  ∀ l v r, part l v = some r → ∀ e ∈ r.errors, Check.Enforced ignore l v e

variable {g : Graph} {firstOnly : Bool} {o : ValidationOptions} {ignore : IgnoreRequired} {n : Node}
  {l : Location} {u v : Value} {part : Part} {e : ValidationError}

theorem enforced_of_other {place : Location} {f : Fault} (same : e = ⟨place, f⟩)
    (other : f ≠ .valueRequired) : Enforced ignore l v e := by
  intro required
  rw [same] at required
  exact absurd required other

theorem enforced_reject {f : Fault} (other : f ≠ .valueRequired) :
    ∀ e ∈ (Report.reject l f).errors, Enforced ignore l v e :=
  fun _ he => enforced_of_other (List.mem_singleton.mp he) other

theorem enforced_accept (w : Value) : ∀ e ∈ (Report.accept w).errors, Enforced ignore l v e :=
  fun _ he => nomatch he

theorem Enforced.of_item {i : Nat} (h : Enforced ignore (l.atIndex i) u e) : Enforced ignore l v e := by
  intro required
  obtain ⟨some, ⟨place, -⟩ | elsewhere⟩ := h required
  · refine ⟨some, .inr fun key outer there => ?_⟩
    cases place.symm.trans there
  · exact ⟨some, .inr elsewhere⟩

theorem Enforced.of_key {key : String} (h : Enforced ignore (l.atKey key) u e)
    (asked : u.isMissing = true → ignore.covers key = false) : Enforced ignore l v e := by
  intro required
  obtain ⟨some, ⟨place, missing⟩ | elsewhere⟩ := h required
  · refine ⟨some, .inr fun key' outer there => ?_⟩
    have same : Segment.key key = .key key' := (List.cons.inj (place.symm.trans there)).1
    rw [← Segment.key.inj same]
    exact asked missing
  · exact ⟨some, .inr elsewhere⟩

theorem array_enforced {ρ : Type} {f : ArrayFacets ρ} (hp : part.Enforced ignore) :
    Part.Enforced ignore (array f o firstOnly part) := by
  intro l v r decided e he
  cases array_origin decided he with
  | other same => exact enforced_of_other same Fault.noConfusion
  | count _ _ _ same => exact enforced_of_other same Fault.noConfusion
  | item _ origin =>
    cases origin with
    | told _ decided member =>
      have told := hp _ _ _ decided e member
      exact Enforced.of_item told
    | repeated _ same => exact enforced_of_other same Fault.noConfusion

/-- A property rule respects `ignoreRequired`, and a missing value with a default is no error. -/
structure PropertyRule.Follows (p : PropertyRule) (ignore : IgnoreRequired) (key : String) : Prop where
  ignored : p.ignored = ignore.covers key
  required : p.required = true → p.ignored = false
  filled : p.hasDefault = true → ∀ l v r, v.isMissing = true → p.part l v = some r → r.errors = []
  part : p.part.Enforced ignore

theorem propertyRules_follow {fuel : Nat} (hp : ∀ n, (run g firstOnly fuel o n).Enforced o.ignoreRequired)
    (properties : List (String × Property Ref)) :
    ∀ e ∈ propertyRules g (run g firstOnly fuel o) o properties,
      e.2.Follows o.ignoreRequired e.1 := by
  intro e he
  obtain ⟨⟨key, p⟩, -, rfl⟩ := List.mem_map.mp he
  refine ⟨rfl, fun required => ?_, fun default l v r missing decided => ?_, hp _⟩
  · have due : ((g.resolve p.type).isRequired && !o.ignoreRequired.covers key) = true := required
    rw [Bool.and_eq_true, Bool.not_eq_true'] at due
    exact due.2
  · obtain ⟨d, found⟩ := Option.isSome_iff_exists.mp default
    cases fuel with
    | zero => cases decided
    | succ fuel =>
      have filled : run g firstOnly (fuel + 1) o (g.resolve p.type) l v = some r := decided
      rw [run_of_default found missing] at filled
      obtain rfl := Option.some.inj filled
      rfl

theorem PropertyRule.Follows.uncovered {p : PropertyRule} {key : String} {r : Report}
    (follows : p.Follows ignore key) (missing : u.isMissing = true) (decided : p.part l u = some r)
    (told : e ∈ r.errors) (asked : p.hasDefault = false → p.ignored = false) :
    ignore.covers key = false := by
  rw [← follows.ignored]
  apply asked
  by_contra default
  rw [follows.filled (Bool.not_eq_false _ ▸ default) _ _ _ missing decided] at told
  cases told

theorem object_enforced {ρ : Type} {f : ObjectFacets ρ} {name : Option String}
    {properties : Keyed PropertyRule} (hp : ∀ e ∈ properties, e.2.Follows ignore e.1) :
    Part.Enforced ignore (object f name o firstOnly properties) := by
  intro l v r decided e he
  cases object_origin decided he with
  | other same => exact enforced_of_other same Fault.noConfusion
  | mismatch _ same => exact enforced_of_other same Fault.noConfusion
  | count _ same => exact enforced_of_other same Fault.noConfusion
  | key _ origin =>
    cases origin with
    | @told key _ p _ _ found decided told asked =>
      have follows : p.Follows ignore key := hp _ (Keyed.mem_of_get? found)
      have inner := follows.part _ _ _ decided e told
      apply Enforced.of_key inner
      intro missing
      apply follows.uncovered missing decided told
      intro default
      simpa [missing, default] using asked
    | undeclared _ same => exact enforced_of_other same Fault.noConfusion
    | @absent key p _ _ member decided told wanted =>
      have follows : p.Follows ignore key := hp _ member
      have inner := follows.part _ _ _ decided e told
      apply Enforced.of_key inner
      intro missing
      apply follows.uncovered missing decided told
      intro default
      apply follows.required
      simpa [default] using wanted

theorem union_enforced {cs : List Candidate}
    (hc : ∀ c ∈ cs, (∀ part, c.precheck = some part → part.Enforced ignore) ∧ c.part.Enforced ignore) :
    Part.Enforced ignore (union firstOnly cs) := by
  intro l v r decided e he
  cases union_origin decided he with
  | unmatched same => exact enforced_of_other same Fault.noConfusion
  | trial member needs decided told => exact (hc _ member).1 _ needs _ _ _ decided e told
  | told member decided told => exact (hc _ member).2 _ _ _ decided e told

theorem ignoreRequired_ne_all {name : Option String} (asked : o.ignoresType name = false) :
    o.ignoreRequired ≠ .all := by
  intro all
  unfold ValidationOptions.ignoresType at asked
  rw [all] at asked
  cases name with
  | none => exact absurd asked (by decide)
  | some name => cases asked

theorem guarded_enforced {acceptsNil : Bool} (hp : part.Enforced o.ignoreRequired) :
    Part.Enforced o.ignoreRequired (guarded n acceptsNil o part) := by
  intro l v r decided e he
  cases guarded_origin decided he with
  | missing absent same asked =>
    intro required
    exact ⟨ignoreRequired_ne_all asked, .inl ⟨congrArg ValidationError.location same, absent⟩⟩
  | stopped same => exact enforced_of_other same Fault.noConfusion
  | behind _ decided told => exact hp _ _ _ decided e told

theorem string_enforced (f : StringFacets) (o : ValidationOptions) :
    ∀ e ∈ (string f o l v).errors, Enforced ignore l v e := by
  unfold string
  repeat' split
  all_goals first | exact enforced_accept _ | exact enforced_reject Fault.noConfusion

theorem number_enforced (f : NumberFacets) (integer : Bool) (o : ValidationOptions) :
    ∀ e ∈ (number f integer o l v).errors, Enforced ignore l v e := by
  unfold number
  dsimp only
  repeat' split
  all_goals first | exact enforced_accept _ | exact enforced_reject Fault.noConfusion

theorem boolean_enforced (o : ValidationOptions) :
    ∀ e ∈ (boolean o l v).errors, Enforced ignore l v e := by
  unfold boolean
  split
  · exact enforced_reject Fault.noConfusion
  · exact enforced_accept _

theorem date_enforced (base : BaseType) (f : DateFacets) (o : ValidationOptions) :
    ∀ e ∈ (date base f o l v).errors, Enforced ignore l v e := by
  unfold date mailDate writtenDate
  dsimp only
  repeat' split
  all_goals first | exact enforced_accept _ | exact enforced_reject Fault.noConfusion

theorem shape_enforced {fuel : Nat} (h : ∀ n, (run g firstOnly fuel o n).Enforced o.ignoreRequired)
    (n : Node) : Part.Enforced o.ignoreRequired (shape g firstOnly o (run g firstOnly fuel o) n) := by
  intro l v r decided
  rcases hs : n.shape with _ | f | f | _ | _ | f | f | f | _
  case array =>
    rw [shape_itemPart hs] at decided
    refine array_enforced ?_ _ _ _ decided
    rcases f.items with _ | item
    · rintro l w _ ⟨⟩
      exact enforced_accept w
    · exact h (g.resolve item)
  case object =>
    rw [shape_object hs] at decided
    exact object_enforced (propertyRules_follow h f.properties) _ _ _ decided
  all_goals unfold shape at decided; rw [hs] at decided
  case union => exact union_enforced (fun c hc => by cases hc) _ _ _ decided
  all_goals obtain rfl := Option.some.inj decided
  case any => exact enforced_accept v
  case string => exact string_enforced f o
  case number => exact number_enforced f _ o
  case boolean => exact boolean_enforced o
  case nil => exact enforced_reject Fault.noConfusion
  case date => exact date_enforced n.base f o

theorem run_enforced (g : Graph) (firstOnly : Bool) (fuel : Nat) : ∀ (o : ValidationOptions) n,
    (run g firstOnly fuel o n).Enforced o.ignoreRequired := by
  refine run_induction ?_ (fun _ _ n h => shape_enforced h n) (fun _ _ h => union_enforced h)
    (fun _ _ _ _ h => guarded_enforced h) fuel
  rintro o l v r ⟨⟩

end Check

namespace Validator

def Reports (v : Validator) (steps : Nat) (value : Value) (e : ValidationError) : Prop :=
  (∃ errors, v.validate? steps value = some (.error errors) ∧ e ∈ errors) ∨
    v.validateOrRaise? steps value = some (.error e)

theorem Reports.exists_run {g : Graph} {n : Node} {o : ValidationOptions} {steps : Nat} {value : Value}
    {e : ValidationError} (h : Reports ⟨g, n, o⟩ steps value e) :
    ∃ firstOnly r, Check.run g firstOnly steps o n [] value = some r ∧ e ∈ r.errors := by
  rcases h with ⟨errors, h, he⟩ | h
  · obtain ⟨r, decided, told⟩ := Option.map_eq_some_iff.mp h
    split at told
    · cases told
    · obtain rfl := Except.error.inj told
      exact ⟨_, r, decided, he⟩
  · obtain ⟨r, decided, told⟩ := Option.map_eq_some_iff.mp h
    rcases hr : r.errors with _ | ⟨first, rest⟩ <;> rw [hr] at told
    · cases told
    · obtain rfl := Except.error.inj told
      exact ⟨true, r, decided, hr ▸ List.mem_cons_self⟩

/-- Under `ignoreRequired = names S` no `valueRequired` error is at a place whose last step is a key
in `S`, and under `all` there is none at all. -/
theorem validate?_ignoreRequired {g : Graph} {n : Node} {o : ValidationOptions} {steps : Nat}
    {value : Value} {e : ValidationError} (reports : Reports ⟨g, n, o⟩ steps value e) :
    (o.ignoreRequired = .all → e.fault ≠ .valueRequired) ∧
      ∀ names, o.ignoreRequired = .names names → ∀ key outer, e.location = .key key :: outer →
        key ∈ names → e.fault ≠ .valueRequired := by
  obtain ⟨firstOnly, r, decided, he⟩ := reports.exists_run
  have enforced := Check.run_enforced g firstOnly steps o n _ _ _ decided e he
  refine ⟨fun all required => (enforced required).1 all, fun names same key outer there named required => ?_⟩
  obtain ⟨-, ⟨place, -⟩ | elsewhere⟩ := enforced required
  · cases place.symm.trans there
  · have uncovered := elsewhere key outer there
    rw [same] at uncovered
    have covered : names.contains key = true := List.contains_iff_mem.mpr named
    exact Bool.false_ne_true (uncovered.symm.trans covered)

theorem validate?_ignoreRequired_of_record :
    let text : Node := { Node.ofBase .string with header := { Header.empty with required := some true } }
    let record : Node := { Node.ofBase .object with
      shape := .object ⟨[("id", ⟨.node text, false⟩), ("tag", ⟨.node text, false⟩)], none, none, none,
        none, none⟩ }
    let o := { ValidationOptions.strict with ignoreRequired := .names ["id"], maxErrorsPerObject := 3 }
    let v : Validator := ⟨.initial, record, o⟩
    let value := Value.object [("id", .null)]
    let e : ValidationError := ⟨[.key "tag"], .valueRequired⟩
    Reports v 3 value e ∧ "tag" ∉ ["id"] ∧ o.ignoreRequired ≠ .all ∧
      ∀ e, Reports v 3 value e → e.location = [.key "id"] → e.fault ≠ .valueRequired := by
  intro text record o v value e
  have told : v.validate? 3 value = some (.error [e]) := rfl
  have reports : Reports v 3 value e := .inl ⟨[e], told, List.mem_cons_self⟩
  obtain ⟨all, named⟩ := validate?_ignoreRequired reports
  refine ⟨reports, fun mem => named _ rfl "tag" [] rfl mem rfl, fun same => all same rfl, ?_⟩
  intro e reports place
  exact (validate?_ignoreRequired reports).2 _ rfl "id" [] place List.mem_cons_self

end Validator
end Schemata

import Schemata.Proofs.Validation.Acceptance
import Schemata.Proofs.Validation.Context
import Schemata.Proofs.Validation.Origin

/-! The contract of a check: an output or an error, and errors at or below its place. On a context:
the path is restored, and earlier errors stay in front. A union with alternatives reports the errors
of the last one, and only one without any `noUnionMemberMatched`. -/

namespace Schemata

namespace Check

def Below (l : Location) (errors : List ValidationError) : Prop := ∀ e ∈ errors, l <:+ e.location

def Part.Below (part : Part) : Prop := ∀ l v r, part l v = some r → Check.Below l r.errors

variable {g : Graph} {firstOnly : Bool} {fuel : Nat} {o : ValidationOptions} {n : Node}
  {l : Location} {v : Value} {r : Report} {part : Part} {errors more : List ValidationError}

theorem below_nil (l : Location) : Below l [] := fun _ h => nomatch h

theorem below_singleton (l : Location) (f : Fault) : Below l [⟨l, f⟩] := by
  intro e he
  obtain rfl := List.mem_singleton.mp he
  exact List.suffix_refl l

theorem Below.of_child {s : Segment} (h : Below (s :: l) errors) : Below l errors :=
  fun e he => (List.suffix_cons s l).trans (h e he)

theorem array_below {ρ : Type} {f : ArrayFacets ρ} (hp : part.Below) :
    Part.Below (array f o firstOnly part) := by
  intro l v r decided e he
  cases array_origin decided he with
  | other same => exact same ▸ List.suffix_refl l
  | count _ _ _ same => exact same ▸ List.suffix_refl l
  | item _ origin =>
    cases origin with
    | told _ decided member => exact (hp _ _ _ decided).of_child e member
    | repeated _ same => exact same ▸ List.suffix_cons _ l

theorem object_below {ρ : Type} {f : ObjectFacets ρ} {name : Option String}
    {properties : Keyed PropertyRule} (hp : ∀ e ∈ properties, e.2.part.Below) :
    Part.Below (object f name o firstOnly properties) := by
  intro l v r decided e he
  cases object_origin decided he with
  | other same => exact same ▸ List.suffix_refl l
  | mismatch _ same => exact same ▸ List.suffix_refl l
  | count _ same => exact same ▸ List.suffix_refl l
  | key _ origin =>
    cases origin with
    | told _ found decided told =>
      exact (hp _ (Keyed.mem_of_get? found) _ _ _ decided).of_child e told
    | undeclared _ same => exact same ▸ List.suffix_refl l
    | absent _ member decided told => exact (hp _ member _ _ _ decided).of_child e told

theorem union_below {cs : List Candidate}
    (hc : ∀ c ∈ cs, (∀ part, c.precheck = some part → part.Below) ∧ c.part.Below) :
    Part.Below (union firstOnly cs) := by
  intro l v r decided e he
  cases union_origin decided he with
  | unmatched same => exact same ▸ List.suffix_refl l
  | trial member needs decided told => exact (hc _ member).1 _ needs _ _ _ decided e told
  | told member decided told => exact (hc _ member).2 _ _ _ decided e told

theorem guarded_below {acceptsNil : Bool} (hp : part.Below) :
    Part.Below (guarded n acceptsNil o part) := by
  intro l v r decided e he
  cases guarded_origin decided he with
  | missing _ same => exact same ▸ List.suffix_refl l
  | stopped same => exact same ▸ List.suffix_refl l
  | behind _ decided told => exact hp _ _ _ decided e told

theorem string_below (f : StringFacets) (o : ValidationOptions) (l : Location) (v : Value) :
    Below l (string f o l v).errors := by
  unfold string
  repeat' split
  all_goals first | exact below_nil l | exact below_singleton l _

theorem number_below (f : NumberFacets) (integer : Bool) (o : ValidationOptions) (l : Location)
    (v : Value) : Below l (number f integer o l v).errors := by
  unfold number
  dsimp only
  repeat' split
  all_goals first | exact below_nil l | exact below_singleton l _

theorem boolean_below (o : ValidationOptions) (l : Location) (v : Value) :
    Below l (boolean o l v).errors := by
  unfold boolean
  split
  · exact below_singleton l _
  · exact below_nil l

theorem date_below (base : BaseType) (f : DateFacets) (o : ValidationOptions) (l : Location)
    (v : Value) : Below l (date base f o l v).errors := by
  unfold date mailDate writtenDate
  dsimp only
  repeat' split
  all_goals first | exact below_nil l | exact below_singleton l _

theorem shape_below {run : Node → Part} (h : ∀ n, (run n).Below) (n : Node) :
    Part.Below (shape g firstOnly o run n) := by
  intro l v r decided
  unfold shape at decided
  rcases hs : n.shape with _ | f | f | _ | _ | f | f | f | _ <;> rw [hs] at decided
  case array =>
    refine array_below ?_ _ _ _ decided
    rcases f.items with _ | item
    · rintro l w _ ⟨⟩
      exact below_nil l
    · exact h (g.resolve item)
  case object =>
    refine object_below (fun e he => ?_) _ _ _ decided
    obtain ⟨p, -, rfl⟩ := List.mem_map.mp he
    exact h _
  case union => exact union_below (fun c hc => by cases hc) _ _ _ decided
  all_goals obtain rfl := Option.some.inj decided
  case any => exact below_nil l
  case string => exact string_below f o l v
  case number => exact number_below f _ o l v
  case boolean => exact boolean_below o l v
  case nil => exact below_singleton l _
  case date => exact date_below n.base f o l v

theorem run_below (fuel : Nat) : ∀ (o : ValidationOptions) n,
    Part.Below (run g firstOnly fuel o n) := by
  refine run_induction ?_ (fun _ _ n h => shape_below h n) (fun _ _ h => union_below h)
    (fun _ _ _ _ h => guarded_below h) fuel
  rintro o l v r ⟨⟩

theorem exists_of_firstMatch_rejects {before : List Candidate} {c : Candidate}
    (hc : ∀ d ∈ before ++ [c], d.Settled (firstOnly = true))
    (run : firstMatch firstOnly l v more (before ++ [c]) = some r) (rejects : r.output = none) :
    ∃ errors, candidate c l v = some (.error errors) ∧ r.errors = errors := by
  induction before generalizing more with
  | nil =>
    rw [List.nil_append, firstMatch_cons] at run
    obtain ⟨out, told, run⟩ := Option.bind_eq_some_iff.mp run
    obtain ⟨w, rfl⟩ | ⟨errors, rfl, some, few⟩ := verdict_cases (hc c List.mem_cons_self) told
    · obtain rfl := Option.some.inj run
      cases rejects
    · have told' : ¬errors.isEmpty = true := fun h => some (List.isEmpty_iff.mp h)
      have goes : Reports.isOver firstOnly [] = false := Bool.and_false firstOnly
      change firstMatch firstOnly l v errors [] = _ at run
      rw [firstMatch, if_neg told', Reports.addAll_eq_append goes few, List.nil_append] at run
      obtain rfl := Option.some.inj run
      exact ⟨errors, told, rfl⟩
  | cons d before ih =>
    rw [List.cons_append, firstMatch_cons] at run
    obtain ⟨out, told, run⟩ := Option.bind_eq_some_iff.mp run
    obtain ⟨w, rfl⟩ | ⟨errors, rfl, -⟩ := verdict_cases (hc d List.mem_cons_self) told
    · obtain rfl := Option.some.inj run
      cases rejects
    · exact ih (fun e he => hc e (List.mem_cons_of_mem _ he)) run

theorem exists_of_candidate_rejects {alt : Node} {errors : List ValidationError}
    (h : candidate (asCandidate g firstOnly fuel o alt) l v = some (.error errors)) :
    ∃ o', (o' = o ∨ o' = o.precheck) ∧
      ∃ r, run g firstOnly fuel o' alt l v = some r ∧ r.errors = errors := by
  rw [candidate_eq] at h
  obtain ⟨trial, tried, h⟩ := Option.bind_eq_some_iff.mp h
  split at h
  · obtain ⟨r, decided, told⟩ := Option.map_eq_some_iff.mp h
    unfold verdict at told
    split at told
    · cases told
    · exact ⟨o, .inl rfl, r, decided, Except.error.inj told⟩
  · rename_i failed
    refine ⟨o.precheck, .inr rfl, trial, ?_, Except.error.inj (Option.some.inj h)⟩
    unfold Candidate.trial asCandidate at tried
    dsimp only at tried
    split at tried
    · exact tried
    · obtain rfl := Option.some.inj tried
      exact absurd rfl failed

theorem exists_of_run_rejects {before : List Node} {last : Node} (enters : Enters n v)
    (found : n.alternatives? = some (before ++ [last]))
    (decided : run g firstOnly (fuel + 1) o n l v = some r) (rejects : r.output = none) :
    ∃ o', (o' = o ∨ o' = o.precheck) ∧
      ∃ r', run g firstOnly fuel o' last l v = some r' ∧ r'.errors = r.errors := by
  rcases before with _ | ⟨first, before⟩
  · rw [run_only found, guarded_of_enters enters] at decided
    exact ⟨o, .inl rfl, r, decided, rfl⟩
  · have several : Several n (first :: before ++ [last]) := by
      refine ⟨found, fun alt h => ?_⟩
      have := congrArg List.length h
      simp at this
    rw [run_several several, guarded_of_enters enters, List.map_append] at decided
    have settled := candidates_settled (g := g) (o := o) .inl
      (fun o n => run_settled g firstOnly fuel o n) (first :: before ++ [last])
    rw [List.map_append] at settled
    obtain ⟨errors, told, same⟩ := exists_of_firstMatch_rejects settled decided rejects
    obtain ⟨o', ho, r', decided', same'⟩ := exists_of_candidate_rejects told
    exact ⟨o', ho, r', decided', same'.trans same.symm⟩

/-- A type without alternatives, which matches nothing: a union without members, or one whose
members or supertypes leave no combination. -/
def Unmatched (n : Node) : Prop :=
  n.alternatives? = some [] ∨ n.alternatives? = none ∧ n.shape.kind = .union

theorem run_of_unmatched (enters : Enters n v) (h : Unmatched n) :
    run g firstOnly (fuel + 1) o n l v = some (.reject l (.noUnionMember v)) := by
  rcases h with found | ⟨single, union⟩
  · have several : Several n [] := ⟨found, fun alt => (List.cons_ne_nil alt []).symm⟩
    rw [run_several several, guarded_of_enters enters]
    rfl
  · rw [run_single single, guarded_of_enters enters]
    unfold shape
    rcases hs : n.shape with _ | _ | _ | _ | _ | _ | _ | _ | members <;> rw [hs] at union
    case union => rfl
    all_goals cases union

theorem run_start (firstOnly : Bool) : (Walk.run g fuel o n v).run (.start firstOnly) =
    (run g firstOnly fuel o n [] v).map fun r => (r.output, ⟨[], r.errors, firstOnly⟩) := by
  have fresh : (Context.start firstOnly).aborted = false := Bool.and_false firstOnly
  exact (run_follows fuel o n).run (.start firstOnly) rfl fresh v

theorem validate?_eq_walk (g : Graph) (n : Node) (o : ValidationOptions) (fuel : Nat) (v : Value) :
    Validator.validate? ⟨g, n, o⟩ fuel v =
      ((Walk.run g fuel o n v).run (.start o.throwOnFirstError)).map fun (output, c) =>
        output.elim (.error c.errors) .ok := by
  rw [run_start, Option.map_map]
  refine Option.map_congr fun r decided => ?_
  have settled := settled_run _ _ _ _ _ _ _ _ decided
  rcases he : r.errors with _ | ⟨e, rest⟩
  · obtain ⟨w, found⟩ := Option.isSome_iff_exists.mp (settled.decided.mp he)
    simp [he, found]
  · have none : r.output = none := by
      rw [← Option.not_isSome_iff_eq_none, ← settled.decided, he]
      exact List.cons_ne_nil e rest
    simp [he, none]

theorem validateOrRaise?_eq_ok_iff {w : Value} :
    Validator.validateOrRaise? ⟨g, n, o⟩ fuel v = some (.ok w) ↔
      run g true fuel o n [] v = some (.accept w) := by
  unfold Validator.validateOrRaise?
  rw [Option.map_eq_some_iff]
  constructor
  · rintro ⟨r, decided, h⟩
    rcases he : r.errors with _ | ⟨e, rest⟩ <;> rw [he] at h
    · obtain ⟨w', rfl⟩ := (settled_run _ _ _ _ _ _ _ _ decided).eq_accept he
      obtain rfl : w' = w := Except.ok.inj h
      exact decided
    · cases h
  · intro decided
    exact ⟨.accept w, decided, rfl⟩

/-- In a context that is not aborted, a check returns `none` exactly when it adds an error. It
restores the path, keeps the earlier errors in front, and adds errors at or below the current path.
Success never turns the output into `undefined`. A union without alternatives reports
`noUnionMemberMatched`; any other type that rejects a value behind its guard reports the errors of
its last alternative. -/
theorem run_contract {c c' : Context} {output : Option Value} (fresh : c.aborted = false)
    (returns : (Walk.run g fuel o n v).run c = some (output, c')) :
    (∃ added, c' = { c with errors := c.errors ++ added } ∧ (output = none ↔ added ≠ []) ∧
      (∀ e ∈ added, ∃ inner, e.location = inner ++ c.location ∧
        e.path = Location.path (inner ++ c.location)) ∧
      (Enters n v → Unmatched n → output = none ∧ added = [⟨c.location, .noUnionMember v⟩]) ∧
      (Enters n v → output = none → ∀ before last, n.alternatives? = some (before ++ [last]) →
        ∃ o', (o' = o ∨ o' = o.precheck) ∧ ∃ steps trial,
          (Walk.run g steps o' last v).run c.fork = some (none, trial) ∧ trial.errors = added)) ∧
    (Validator.validate? ⟨g, n, o⟩ fuel v =
      ((Walk.run g fuel o n v).run (.start o.throwOnFirstError)).map fun (output, c) =>
        output.elim (.error c.errors) .ok) ∧
    ∀ w, Validator.validateOrRaise? ⟨g, n, o⟩ fuel v = some (.ok w) ↔
      (Walk.run g fuel o n v).run (.start true) = some (some w, .start true) := by
  have both : Follows c.firstOnly (Walk.run g fuel o n) (run g c.firstOnly fuel o n) :=
    run_follows fuel o n
  obtain ⟨settled, follows⟩ := both
  rw [follows c rfl fresh v] at returns
  obtain ⟨r, decided, same⟩ := Option.map_eq_some_iff.mp returns
  obtain ⟨rfl, rfl⟩ := Prod.mk.inj same
  have none_iff : r.output = none ↔ r.errors ≠ [] := by
    rw [← Option.not_isSome_iff_eq_none, ← (settled _ _ _ decided).decided]
  refine ⟨⟨r.errors, rfl, none_iff, fun e he => ?_, fun enters h => ?_, ?_⟩, ?_, fun w => ?_⟩
  · obtain ⟨inner, place⟩ := run_below fuel o n _ _ _ decided e he
    exact ⟨inner, place.symm, congrArg Location.path place.symm⟩
  · cases fuel with
    | zero => cases decided
    | succ fuel =>
      rw [run_of_unmatched enters h] at decided
      obtain rfl := Option.some.inj decided
      exact ⟨rfl, rfl⟩
  · intro enters rejects before last found
    cases fuel with
    | zero => cases decided
    | succ fuel =>
      obtain ⟨o', ho, r', decided', told⟩ := exists_of_run_rejects enters found decided rejects
      have fresh' : c.fork.aborted = false := Bool.and_false c.firstOnly
      have none' : r'.output = none := by
        rw [← Option.not_isSome_iff_eq_none, ← (settled_run _ _ _ _ _ _ _ _ decided').decided, told]
        exact none_iff.mp rejects
      refine ⟨o', ho, fuel, c.fork.adding r'.errors, ?_, told⟩
      rw [(run_follows fuel o' last).run c.fork rfl fresh' v, ← none']
      exact Option.map_eq_some_iff.mpr ⟨r', decided', rfl⟩
  · exact validate?_eq_walk g n o fuel v
  · rw [validateOrRaise?_eq_ok_iff, run_start, Option.map_eq_some_iff]
    constructor
    · intro accepted
      exact ⟨.accept w, accepted, rfl⟩
    · rintro ⟨⟨output, errors⟩, decided, same⟩
      obtain ⟨rfl, same⟩ := Prod.mk.inj same
      obtain rfl : errors = [] := congrArg Context.errors same
      exact decided

theorem run_contract_of_text_or_number :
    let either : Node := .anyOf 14 [.ofBase .string, .ofBase .number]
    let c : Context := ⟨[.index 2, .key "a"], [⟨[], .valueRequired⟩], false⟩
    ∃ c', c.aborted = false ∧
      (Walk.run .initial 2 .strict either (.bool true)).run c = some (none, c') ∧
      c'.location = c.location ∧ ∃ e, c'.errors = c.errors ++ [e] ∧ e.path = "a[2]" ∧
      ∃ o' steps trial, (Walk.run .initial steps o' (.ofBase .number) (.bool true)).run c.fork =
        some (none, trial) ∧ trial.errors = [e] := by
  intro either c
  let e : ValidationError := ⟨c.location, .invalidType "number" (.bool true)⟩
  have returns : (Walk.run .initial 2 .strict either (.bool true)).run c =
      some (none, { c with errors := c.errors ++ [e] }) := rfl
  obtain ⟨⟨added, same, -, -, -, last⟩, -, -⟩ := run_contract rfl returns
  obtain rfl : added = [e] := (List.append_cancel_left (congrArg Context.errors same)).symm
  obtain ⟨o', -, steps, trial, told, errors⟩ := last ⟨rfl, rfl⟩ rfl [.ofBase .string] (.ofBase .number) rfl
  exact ⟨_, rfl, returns, rfl, e, rfl, rfl, o', steps, trial, told, errors⟩

end Check
end Schemata

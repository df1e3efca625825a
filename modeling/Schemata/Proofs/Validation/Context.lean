import Schemata.Proofs.Validation.Calls
import Schemata.Proofs.Validation.Verdict
import Schemata.Validation.Context

/-! Validation on a context simulates `Check.run`: in a context that is not aborted a check returns
the output of the report, adds its errors, and restores the path. -/

namespace Schemata

namespace Reports

theorem addAll_eq_append {firstOnly : Bool} {errors more : List ValidationError}
    (goes : isOver firstOnly errors = false) (few : firstOnly = true → more.length ≤ 1) :
    addAll firstOnly errors more = errors ++ more := by
  cases firstOnly with
  | false => exact addAll_false errors more
  | true =>
    have none : errors = [] := by
      simpa only [isOver, Bool.true_and, Bool.not_eq_false', List.isEmpty_iff] using goes
    rw [addAll_true, none, List.isEmpty_nil, if_pos rfl, List.nil_append]
    exact List.take_of_length_le (few rfl)

end Reports

namespace Context

def adding (c : Context) (more : List ValidationError) : Context :=
  { c with errors := c.errors ++ more }

variable {c : Context} {more : List ValidationError}

@[simp] theorem adding_nil (c : Context) : c.adding [] = c := by
  rw [adding, List.append_nil]

@[simp] theorem adding_adding (c : Context) (some more : List ValidationError) :
    (c.adding some).adding more = c.adding (some ++ more) := by
  simp only [adding, List.append_assoc]

theorem aborted_adding {firstOnly : Bool} (first : c.firstOnly = firstOnly) (fresh : c.aborted = false)
    (more : List ValidationError) : (c.adding more).aborted = Reports.isOver firstOnly more := by
  obtain ⟨location, errors, firstOnly⟩ := c
  subst first
  cases firstOnly with
  | false => rfl
  | true =>
    have none : errors = [] := by
      simpa only [aborted, Bool.true_and, Bool.not_eq_false', List.isEmpty_iff] using fresh
    rw [none]
    rfl

theorem extend_eq (fresh : c.aborted = false) (few : c.firstOnly = true → more.length ≤ 1) :
    c.extend more = c.adding more := by
  have same (errors : List ValidationError) : extend { c with errors := errors } more =
      { c with errors := Reports.addAll c.firstOnly errors more } := by
    induction more generalizing errors with
    | nil => rfl
    | cons e rest ih =>
      have few : c.firstOnly = true → rest.length ≤ 1 := fun first =>
        Nat.le_of_succ_le (few first)
      have step : report { c with errors := errors } e =
          { c with errors := Reports.add c.firstOnly errors e } :=
        (apply_ite (Context.mk c.location · c.firstOnly) (Reports.isOver c.firstOnly errors = true)
          errors (errors ++ [e])).symm
      change extend (report { c with errors := errors } e) rest = _
      rw [step, ih few]
      rfl
  rw [same c.errors, Reports.addAll_eq_append fresh few, adding]

end Context

namespace Tracked

variable {α : Type} {step : Tracked α} {c : Context}

theorem run_within (s : Segment) (step : Tracked α) (c : Context) :
    (within s step).run c = (step.run (c.push s)).map fun (a, c') => (a, c'.pop) := by
  change (step.run (c.push s)).bind _ = _
  rcases step.run (c.push s) with _ | ⟨a, c'⟩ <;> rfl

theorem run_forked (step : Tracked α) (c : Context) :
    (forked step).run c = (step.run c.fork).map fun (a, trial) => ((a, trial.errors), c) := by
  rcases tried : step.run c.fork with _ | ⟨a, trial⟩ <;>
    simp [forked, tried]

theorem run_fault (fresh : c.aborted = false) (f : Fault) :
    (fault f).run c = some ((), c.adding [⟨c.location, f⟩]) := by
  have reported : c.report ⟨c.location, f⟩ = c.adding [⟨c.location, f⟩] := by
    rw [Context.report, fresh, if_neg Bool.false_ne_true]
    rfl
  exact congrArg (fun c' => some ((), c')) reported

theorem run_reject (fresh : c.aborted = false) (f : Fault) :
    (reject f).run c = some (none, c.adding [⟨c.location, f⟩]) := by
  rw [reject, StateT.run_bind, run_fault fresh]
  rfl

theorem run_accept (c : Context) (output : Option Value) :
    (pure output : Tracked (Option Value)).run c = some (output, c.adding []) := by
  rw [Context.adding_nil]
  rfl

end Tracked

namespace Check

/-- The walk on a context simulates the check. -/
structure Follows (firstOnly : Bool) (walk : Walk) (part : Part) : Prop where
  settled : part.Settled (firstOnly = true)
  run : ∀ c : Context, c.firstOnly = firstOnly → c.aborted = false → ∀ v,
    (walk v).run c = (part c.location v).map fun r => (r.output, c.adding r.errors)

variable {firstOnly : Bool} {walk : Walk} {part : Part} {c : Context} {v : Value}

theorem Follows.settles (follows : Follows firstOnly walk part) {single : Prop}
    (weaker : single → firstOnly = true) : part.Settled single :=
  fun l v r h => ⟨(follows.settled l v r h).decided, fun hs =>
    (follows.settled l v r h).single (weaker hs)⟩

theorem follows_reject (firstOnly : Bool) (f : Value → Fault) :
    Follows firstOnly (fun v => Tracked.reject (f v)) fun l v => some (.reject l (f v)) := by
  refine ⟨?_, fun c _ fresh v => Tracked.run_reject fresh (f v)⟩
  rintro l v r ⟨⟩
  exact Report.settled_reject _ l (f v)

theorem follows_accept (firstOnly : Bool) (f : Value → Value) :
    Follows firstOnly (fun v => pure (some (f v))) fun _ v => some (.accept (f v)) := by
  refine ⟨?_, fun c _ _ v => ?_⟩
  · rintro l v r ⟨⟩
    exact Report.settled_accept _ (f v)
  · exact Tracked.run_accept c (some (f v))

theorem follows_scalar {check : Location → Value → Report}
    (settled : ∀ single l v, (check l v).Settled single) :
    Follows firstOnly (Walk.scalar check) fun l v => some (check l v) := by
  refine ⟨?_, fun c first fresh v => ?_⟩
  · rintro l v r ⟨⟩
    exact settled _ l v
  · have few := (settled True c.location v).single trivial
    change some ((check c.location v).output, c.extend (check c.location v).errors) = _
    rw [Context.extend_eq fresh fun _ => few]
    rfl

theorem Follows.run_within (follows : Follows firstOnly walk part) (first : c.firstOnly = firstOnly)
    (fresh : c.aborted = false) (s : Segment) (v : Value) :
    (Tracked.within s (walk v)).run c =
      (part (s :: c.location) v).map fun r => (r.output, c.adding r.errors) := by
  rw [Tracked.run_within, follows.run (c.push s) first fresh, Option.map_map]
  rfl

theorem goes_of_not_stops {limit failures : Nat} {errors : List ValidationError}
    (h : ¬stops firstOnly limit failures errors = true) : Reports.isOver firstOnly errors = false := by
  rw [stops, Bool.or_eq_true, not_or] at h
  exact Bool.eq_false_iff.mpr h.2

/-! Arrays. -/

section Items

abbrev ItemState.tally (st : ItemState) : Walk.ItemTally := ⟨st.output, st.seen, st.failures⟩

theorem items_run (rules : ItemRules) (follows : Follows rules.firstOnly walk part)
    (first : c.firstOnly = rules.firstOnly) (fresh : c.aborted = false) (list : List Value) (i : Nat) (st : ItemState) :
    (Walk.items rules walk i st.tally list).run (c.adding st.errors) =
      (items rules part c.location i st list).map fun out => (out.tally, c.adding out.errors) := by
  induction list generalizing i st with
  | nil => rfl
  | cons v rest ih =>
    have aborted := Context.aborted_adding first fresh st.errors
    simp only [Walk.items, items, StateT.run_bind, StateT.run_get, Option.pure_def,
      Option.bind_eq_bind, Option.bind_some, aborted]
    change StateT.run (if stops rules.firstOnly rules.limit st.failures st.errors = true
      then _ else _) _ = _
    split
    · rfl
    · rename_i goes
      have goes := goes_of_not_stops goes
      have here : (c.adding st.errors).aborted = false := aborted.trans goes
      rw [StateT.run_bind, follows.run_within (c := c.adding st.errors) first here]
      change (Option.map _ (part (c.location.atIndex i) v)).bind _ = _
      rcases hr : part (c.location.atIndex i) v with _ | r
      · rfl
      · have settled := follows.settled _ _ _ hr
        rw [Option.map_some, Option.bind_some, Context.adding_adding]
        dsimp only
        rw [← ih, ItemState.take]
        rcases ho : r.output with _ | w
        · rw [← Reports.addAll_eq_append goes settled.single]
          rfl
        · have clean : r.errors = [] := settled.decided.mpr (by rw [ho]; rfl)
          rw [clean, List.append_nil]
          dsimp only
          by_cases repeated : (rules.unique && st.seen.contains w.json) = true
          · rw [if_pos repeated, if_pos repeated]
            by_cases drops : rules.dropsDuplicates = true
            · rw [if_pos drops, if_pos drops]
              rfl
            · have told : Reports.addAll rules.firstOnly st.errors
                  [⟨c.location.atIndex i, .duplicateItem w⟩] = _ :=
                Reports.addAll_eq_append goes fun _ => Nat.le_refl 1
              rw [if_neg drops, if_neg drops, StateT.run_bind, Tracked.run_within,
                Tracked.run_fault (c := (c.adding st.errors).push (.index i)) here, ItemState.fail,
                Reports.addAll_nil, told, ← Context.adding_adding]
              rfl
          · rw [if_neg repeated, if_neg repeated]
            rfl

theorem run_finishArray {ρ : Type} (f : ArrayFacets ρ) (fresh : c.aborted = false) {out : ItemState}
    (counted : Counted False out.failures out.errors) :
    (Walk.finishArray f out.tally).run (c.adding out.errors) =
      some ((finishArray f c.location out).output, c.adding (finishArray f c.location out).errors) := by
  unfold Walk.finishArray finishArray
  by_cases failed : 0 < out.failures
  · rw [if_pos failed, if_pos failed]
    rfl
  · have clean : out.errors = [] := counted.decided.mpr (Nat.eq_zero_of_not_pos failed)
    rw [if_neg failed, if_neg failed, clean, Context.adding_nil]
    by_cases beyond : outside out.output.length f.minItems f.maxItems = true
    · rw [if_pos beyond, if_pos beyond]
      exact Tracked.run_reject fresh _
    · rw [if_neg beyond, if_neg beyond, Context.adding_nil]
      rfl

theorem array_follows {ρ : Type} {f : ArrayFacets ρ} {o : ValidationOptions}
    (follows : Follows firstOnly walk part) :
    Follows firstOnly (Walk.array f o walk) (array f o firstOnly part) := by
  refine ⟨array_settled .inl follows.settled, fun c first fresh v => ?_⟩
  subst first
  rw [array_eq]
  unfold Walk.array
  rcases itemsOf? o v with _ | list
  · exact Tracked.run_reject fresh _
  · have run := items_run (itemRules f o c.firstOnly) follows rfl fresh list 0 .start
    change StateT.run (Walk.items (itemRules f o c.firstOnly) walk 0 .start list) (c.adding []) = _ at run
    rw [Context.adding_nil] at run
    change ((Walk.items (itemRules f o c.firstOnly) walk 0 .start list).run c).bind _ = _
    rw [run, Option.map_map]
    rcases hr : items (itemRules f o c.firstOnly) part c.location 0 .start list with _ | out
    · rfl
    · exact run_finishArray f fresh (items_counted False.elim (follows.settles False.elim) .start hr)

end Items

/-! Objects. -/

section Keys

structure FollowsField (firstOnly : Bool) (p : Walk.Field) (q : PropertyRule) : Prop where
  follows : Follows firstOnly p.walk q.part
  required : p.required = q.required
  ignored : p.ignored = q.ignored
  hasDefault : p.hasDefault = q.hasDefault

def FollowsFields (firstOnly : Bool) (fields : Keyed Walk.Field) (properties : Keyed PropertyRule) :
    Prop :=
  List.Forall₂ (fun e f => e.1 = f.1 ∧ FollowsField firstOnly e.2 f.2) fields properties

abbrev KeyState.tally (st : KeyState) : Walk.KeyTally := ⟨st.output, st.failures⟩

theorem FollowsFields.get? {fields : Keyed Walk.Field} {properties : Keyed PropertyRule}
    (h : FollowsFields firstOnly fields properties) (key : String) :
    Option.Rel (FollowsField firstOnly) (Keyed.get? fields key) (Keyed.get? properties key) := by
  induction h with
  | nil => exact .none
  | @cons e f _ _ he _ ih =>
    rw [Keyed.get?, Keyed.get?, ← he.1]
    split
    · exact .some he.2
    · exact ih

theorem givenField_follows {p : Walk.Field} {q : PropertyRule} (h : FollowsField firstOnly p q)
    (first : c.firstOnly = firstOnly) (fresh : c.aborted = false) (key : String) (v : Value) :
    (Walk.givenField p key v).run c = (givenProperty q (c.location.atKey key) v).map fun r =>
      (r.output, c.adding r.errors) := by
  unfold Walk.givenField givenProperty
  rw [h.ignored, h.hasDefault]
  split
  · exact Tracked.run_accept c (some v)
  · exact h.follows.run_within first fresh _ v

theorem KeyState.take_eq {st : KeyState} {r : Report} (key : String)
    (goes : Reports.isOver firstOnly st.errors = false) (settled : r.Settled (firstOnly = true)) :
    (st.take firstOnly key r).tally = st.tally.take key r.output ∧
      (st.take firstOnly key r).errors = st.errors ++ r.errors := by
  rw [← Reports.addAll_eq_append goes settled.single]
  unfold take
  rcases r.output with _ | w
  · exact ⟨rfl, rfl⟩
  · exact ⟨rfl, rfl⟩

variable {rules : KeyRules} {fields : Walk.FieldRules}

theorem givenKeys_run (limit : fields.limit = rules.limit) (drops : fields.drops = rules.drops)
    (additional : fields.additional = rules.additional)
    (h : FollowsFields rules.firstOnly fields.fields rules.properties)
    (first : c.firstOnly = rules.firstOnly) (fresh : c.aborted = false)
    (list : List (String × Value)) (st : KeyState) :
    (Walk.givenKeys fields st.tally list).run (c.adding st.errors) =
      (givenKeys rules c.location st list).map fun out => (out.tally, c.adding out.errors) := by
  induction list generalizing st with
  | nil => rfl
  | cons e rest ih =>
    obtain ⟨key, v⟩ := e
    have aborted := Context.aborted_adding first fresh st.errors
    simp only [Walk.givenKeys, givenKeys, StateT.run_bind, StateT.run_get, Option.pure_def,
      Option.bind_eq_bind, Option.bind_some, aborted, limit]
    change StateT.run (if stops rules.firstOnly rules.limit st.failures st.errors = true
      then _ else _) _ = _
    split
    · rfl
    · rename_i goes
      have goes := goes_of_not_stops goes
      have here : (c.adding st.errors).aborted = false := aborted.trans goes
      have found := h.get? key
      generalize Keyed.get? fields.fields key = p, Keyed.get? rules.properties key = q at found ⊢
      cases found with
      | none =>
        dsimp only
        unfold KeyState.undeclared
        rw [drops, additional]
        by_cases dropped : rules.drops = true
        · rw [if_pos dropped, if_pos dropped]
          exact ih st
        · rw [if_neg dropped, if_neg dropped]
          by_cases more : rules.additional = true
          · rw [if_pos more, if_pos more]
            exact ih { st with output := Keyed.insert st.output key v }
          · have settled := Report.settled_reject (rules.firstOnly = true) c.location
              (.additionalProperty key)
            obtain ⟨tally, errors⟩ := KeyState.take_eq key goes settled
            rw [if_neg more, if_neg more, StateT.run_bind, Tracked.run_reject here, ← ih, tally, errors,
              ← Context.adding_adding]
            rfl
      | @some p q found =>
        dsimp only
        rw [StateT.run_bind, givenField_follows found (c := c.adding st.errors) first here]
        change (Option.map _ (givenProperty q (c.location.atKey key) v)).bind _ = _
        rcases hr : givenProperty q (c.location.atKey key) v with _ | r
        · rfl
        · obtain ⟨tally, errors⟩ := KeyState.take_eq key goes
            (givenProperty_settled found.follows.settled _ _ _ hr)
          rw [Option.map_some, Option.bind_some, ← ih, tally, errors, ← Context.adding_adding]

theorem absentKeys_run (limit : fields.limit = rules.limit) (first : c.firstOnly = rules.firstOnly)
    (fresh : c.aborted = false) (given : Keyed Value) {list : Keyed Walk.Field}
    {properties : Keyed PropertyRule} (h : FollowsFields rules.firstOnly list properties)
    (st : KeyState) :
    (Walk.absentKeys fields given st.tally list).run (c.adding st.errors) =
      (absentKeys rules c.location given st properties).map fun out =>
        (out.tally, c.adding out.errors) := by
  induction h generalizing st with
  | nil => rfl
  | @cons e f _ _ he _ ih =>
    obtain ⟨key, p⟩ := e
    obtain ⟨key', q⟩ := f
    obtain ⟨rfl, he⟩ : key = key' ∧ FollowsField rules.firstOnly p q := he
    have aborted := Context.aborted_adding first fresh st.errors
    simp only [Walk.absentKeys, absentKeys, StateT.run_bind, StateT.run_get, Option.pure_def,
      Option.bind_eq_bind, Option.bind_some, aborted, limit, he.required, he.hasDefault]
    change StateT.run (if stops rules.firstOnly rules.limit st.failures st.errors = true
      then _ else _) _ = _
    split
    · rfl
    · rename_i goes
      have goes := goes_of_not_stops goes
      have here : (c.adding st.errors).aborted = false := aborted.trans goes
      split
      · exact ih st
      · rw [StateT.run_bind, he.follows.run_within (c := c.adding st.errors) first here]
        change (Option.map _ (q.part (c.location.atKey key) .undefined)).bind _ = _
        rcases hr : q.part (c.location.atKey key) .undefined with _ | r
        · rfl
        · obtain ⟨tally, errors⟩ := KeyState.take_eq key goes (he.follows.settled _ _ _ hr)
          rw [Option.map_some, Option.bind_some, ← ih, tally, errors, ← Context.adding_adding]

theorem run_finishObject {ρ : Type} (f : ObjectFacets ρ) (given : Keyed Value)
    (fresh : c.aborted = false) {out : KeyState} (counted : Counted False out.failures out.errors) :
    (Walk.finishObject f given out.tally).run (c.adding out.errors) =
      some ((finishObject f c.location given out).output,
        c.adding (finishObject f c.location given out).errors) := by
  unfold Walk.finishObject finishObject
  by_cases failed : 0 < out.failures
  · rw [if_pos failed, if_pos failed]
    rfl
  · have clean : out.errors = [] := counted.decided.mpr (Nat.eq_zero_of_not_pos failed)
    rw [if_neg failed, if_neg failed, clean, Context.adding_nil]
    by_cases beyond : outside given.length f.minProperties f.maxProperties = true
    · rw [if_pos beyond, if_pos beyond]
      exact Tracked.run_reject fresh _
    · rw [if_neg beyond, if_neg beyond, Context.adding_nil]
      rfl

theorem discriminated_eq {ρ : Type} (f : ObjectFacets ρ) (name : Option String) (l : Location)
    (given : Keyed Value) :
    discriminated f name l given = (Walk.mismatch? f name given).map (.reject l) := by
  unfold discriminated Walk.mismatch?
  rcases discriminator? f name with _ | ⟨key, expected⟩
  · rfl
  · dsimp only
    split <;> rfl

theorem keys_run {ρ : Type} (f : ObjectFacets ρ) (fields : Walk.FieldRules) (rules : KeyRules)
    (limit : fields.limit = rules.limit)
    (drops : fields.drops = rules.drops) (additional : fields.additional = rules.additional)
    (h : FollowsFields rules.firstOnly fields.fields rules.properties)
    (settled : ∀ e ∈ rules.properties, e.2.part.Settled False) (first : c.firstOnly = rules.firstOnly)
    (fresh : c.aborted = false) (given : Keyed Value) :
    (Walk.keys f fields given).run c = (keys f rules c.location given).map fun r =>
      (r.output, c.adding r.errors) := by
  have start := givenKeys_run limit drops additional h first fresh given .start
  change StateT.run (Walk.givenKeys fields .start given) (c.adding []) = _ at start
  rw [Context.adding_nil] at start
  rw [Walk.keys, StateT.run_bind, start, keys]
  rcases hg : givenKeys rules c.location .start given with _ | st
  · rfl
  · have counted := givenKeys_counted False.elim
      (fun key p hk => settled _ (Keyed.mem_of_get? hk)) .start hg
    rw [Option.map_some, Option.bind_some]
    change StateT.run (Walk.absentKeys fields given st.tally fields.fields >>= _) _ = _
    rw [StateT.run_bind, absentKeys_run limit first fresh given h st]
    rcases ha : absentKeys rules c.location given st rules.properties with _ | out
    · rfl
    · exact run_finishObject f given fresh (absentKeys_counted False.elim settled counted ha)

theorem object_follows {ρ : Type} {f : ObjectFacets ρ} {name : Option String} {o : ValidationOptions}
    {fields : Keyed Walk.Field} {properties : Keyed PropertyRule}
    (h : FollowsFields firstOnly fields properties) :
    Follows firstOnly (Walk.object f name o fields) (object f name o firstOnly properties) := by
  have settled {single : Prop} (weaker : single → firstOnly = true) :
      ∀ e ∈ properties, e.2.part.Settled single := by
    intro e' he'
    obtain ⟨e, -, he⟩ := exists_of_forall₂_of_mem (List.Forall₂.flip h) he'
    exact he.2.follows.settles weaker
  refine ⟨object_settled .inl (settled id), fun c first fresh v => ?_⟩
  subst first
  rw [object_eq]
  cases v with
  | object given =>
    unfold Walk.object
    dsimp only
    rw [discriminated_eq]
    rcases Walk.mismatch? f name given with _ | fault
    · exact keys_run f ⟨_, fields, _, _⟩ (keyRules f o c.firstOnly properties) rfl rfl rfl h
        (settled False.elim) rfl fresh given
    · exact Tracked.run_reject fresh fault
  | _ => exact Tracked.run_reject fresh _

end Keys

/-! Unions. -/

section Unions

structure FollowsChoice (firstOnly : Bool) (a : Walk.Choice) (b : Candidate) : Prop where
  precheck : Option.Rel (Follows firstOnly) a.precheck b.precheck
  walk : Follows firstOnly a.walk b.part

theorem Follows.run_forked (follows : Follows firstOnly walk part) (first : c.firstOnly = firstOnly)
    (v : Value) : (Tracked.forked (walk v)).run c = (part c.location v).map fun r =>
      ((r.output, r.errors), c) := by
  have fresh : c.fork.aborted = false := Bool.and_false c.firstOnly
  rw [Tracked.run_forked, follows.run c.fork first fresh, Option.map_map]
  rfl

theorem trial_run {a : Walk.Choice} {b : Candidate} (h : FollowsChoice firstOnly a b)
    (first : c.firstOnly = firstOnly) (v : Value) :
    (a.trial v).run c = (b.trial c.location v).map fun r => (r.errors, c) := by
  have h := h.precheck
  unfold Walk.Choice.trial Candidate.trial
  generalize a.precheck = before, b.precheck = after at h ⊢
  cases h with
  | none => rfl
  | @some walk part h =>
    dsimp only
    rw [StateT.run_bind, h.run_forked first, Option.elim_some]
    rcases part c.location v with _ | r <;> rfl

theorem trial_settled {a : Walk.Choice} {b : Candidate} (h : FollowsChoice firstOnly a b) :
    Part.Settled (firstOnly = true) b.trial := by
  intro l v r tried
  have h := h.precheck
  unfold Candidate.trial at tried
  generalize a.precheck = before, b.precheck = after at h tried
  cases h with
  | none =>
    obtain rfl := Option.some.inj tried
    exact Report.settled_accept _ v
  | some h => exact h.settled _ _ _ tried

theorem firstMatch_run {choices : List Walk.Choice} {candidates : List Candidate}
    (h : List.Forall₂ (FollowsChoice firstOnly) choices candidates) (first : c.firstOnly = firstOnly)
    (fresh : c.aborted = false) (v : Value) {last : List ValidationError}
    (few : firstOnly = true → last.length ≤ 1) :
    (Walk.firstMatch v last choices).run c =
      (firstMatch firstOnly c.location v last candidates).map fun r =>
        (r.output, c.adding r.errors) := by
  induction h generalizing last with
  | nil =>
    unfold Walk.firstMatch firstMatch
    split
    · exact Tracked.run_reject fresh _
    · have few : c.firstOnly = true → last.length ≤ 1 := fun hs => few (first.symm.trans hs)
      change some (none, c.extend last) = some (none, c.adding (Reports.addAll firstOnly [] last))
      have goes : Reports.isOver firstOnly [] = false := Bool.and_false firstOnly
      rw [Context.extend_eq fresh few, Reports.addAll_eq_append goes fun hs => few (first.trans hs),
        List.nil_append]
  | @cons a b choices candidates hab _ ih =>
    rw [firstMatch_cons, candidate_eq, Walk.firstMatch, StateT.run_bind, trial_run hab first]
    rcases ht : b.trial c.location v with _ | trial
    · rfl
    · rw [Option.map_some, Option.bind_some]
      change StateT.run (if trial.errors.isEmpty = true then _ else _) c = _
      by_cases passed : trial.errors.isEmpty = true
      · rw [if_pos passed, if_pos passed, StateT.run_bind, hab.walk.run_forked first]
        rcases hr : b.part c.location v with _ | r
        · rfl
        · rw [Option.map_some, Option.map_some, Option.bind_some, verdict]
          change StateT.run (if r.errors.isEmpty = true then _ else _) c = _
          by_cases accepts : r.errors.isEmpty = true
          · rw [if_pos accepts, if_pos accepts]
            exact Tracked.run_accept c r.output
          · rw [if_neg accepts, if_neg accepts]
            exact ih (hab.walk.settled _ _ _ hr).single
      · rw [if_neg passed, if_neg passed]
        exact ih (trial_settled hab _ _ _ ht).single

theorem union_follows {choices : List Walk.Choice} {candidates : List Candidate}
    (h : List.Forall₂ (FollowsChoice firstOnly) choices candidates)
    (settled : ∀ d ∈ candidates, d.Settled (firstOnly = true)) :
    Follows firstOnly (Walk.union choices) (union firstOnly candidates) := by
  refine ⟨union_settled settled, fun c first fresh v => ?_⟩
  exact firstMatch_run h first fresh v fun _ => Nat.zero_le 1

end Unions

/-! Types. -/

variable {g : Graph} {o : ValidationOptions} {n : Node}

theorem guarded_follows (acceptsNil : Bool) (follows : Follows firstOnly walk part) :
    Follows firstOnly (Walk.guarded n acceptsNil o walk) (guarded n acceptsNil o part) := by
  refine ⟨guarded_settled follows.settled, fun c first fresh v => ?_⟩
  unfold Walk.guarded guarded
  by_cases absent : v.isMissing = true
  · rw [if_pos absent, if_pos absent]
    rcases n.header.default? with _ | d
    · dsimp only
      split_ifs
      · exact Tracked.run_accept c (some .null)
      · exact Tracked.run_reject fresh _
      · exact Tracked.run_accept c (some v)
    · exact Tracked.run_accept c (some d)
  · rw [if_neg absent, if_neg absent]
    have passed := follows.run c first fresh v
    rcases n.header.typeOf with _ | p
    · dsimp only
      split_ifs <;> exact passed
    · dsimp only
      split_ifs
      · exact passed
      · exact passed
      · exact Tracked.run_reject fresh _

theorem fields_follow {run : Node → Walk} {run' : Node → Part}
    (h : ∀ n, Follows firstOnly (run n) (run' n)) (properties : List (String × Property Ref)) :
    FollowsFields firstOnly
      (properties.map fun (name, p) => (name, Walk.field o run name (g.resolve p.type)))
      (propertyRules g run' o properties) := by
  rw [FollowsFields, propertyRules, List.forall₂_map_left_iff, List.forall₂_map_right_iff]
  exact List.forall₂_same.mpr fun e _ => ⟨rfl, h _, rfl, rfl, rfl⟩

theorem shape_follows {run : Node → Walk} {run' : Node → Part}
    (h : ∀ n, Follows firstOnly (run n) (run' n)) (n : Node) :
    Follows firstOnly (Walk.shape g o run n) (shape g firstOnly o run' n) := by
  unfold Walk.shape shape
  rcases n.shape with _ | f | f | _ | _ | f | f | f | members
  · exact follows_accept firstOnly id
  · exact follows_scalar fun single l v => string_settled single f o l v
  · exact follows_scalar fun single l v => number_settled single f _ o l v
  · exact follows_scalar fun single l v => boolean_settled single o l v
  · exact follows_reject firstOnly fun v => .invalidType "nil" v
  · exact follows_scalar fun single l v => date_settled single n.base f o l v
  · apply array_follows
    rcases f.items with _ | r
    · exact follows_accept firstOnly id
    · exact h (g.resolve r)
  · exact object_follows (fields_follow h f.properties)
  · exact union_follows .nil fun _ h => nomatch h

/-- Validation on a context, with forks and aborts, simulates `Check.run` step by step. -/
theorem run_follows (fuel : Nat) : ∀ (o : ValidationOptions) (n : Node),
    Follows firstOnly (Walk.run g fuel o n) (run g firstOnly fuel o n) := by
  induction fuel with
  | zero =>
    intro o n
    refine ⟨?_, fun _ _ _ _ => rfl⟩
    rintro l v r ⟨⟩
  | succ fuel ih =>
    intro o n
    have several (alternatives : List Node) : Follows firstOnly
        (Walk.union (alternatives.map fun alt =>
          ⟨if needsTrial alt then some (Walk.run g fuel o.precheck alt) else none,
            Walk.run g fuel o alt⟩))
        (union firstOnly (alternatives.map (asCandidate g firstOnly fuel o))) := by
      apply union_follows
      · rw [List.forall₂_map_left_iff, List.forall₂_map_right_iff]
        refine List.forall₂_same.mpr fun alt _ => ⟨?_, ih o alt⟩
        unfold asCandidate
        dsimp only
        split
        · exact .some (ih o.precheck alt)
        · exact .none
      · exact candidates_settled .inl (fun o n => run_settled g firstOnly fuel o n) alternatives
    rw [run_succ, Walk.run]
    rcases n.alternatives? with _ | (_ | ⟨only, _ | ⟨second, rest⟩⟩)
    · exact guarded_follows false (shape_follows (ih o) n)
    · exact guarded_follows _ (several [])
    · dsimp only
      rw [List.any_cons, List.any_nil, Bool.or_false]
      exact guarded_follows _ (ih o only)
    · exact guarded_follows _ (several (only :: second :: rest))

end Check
end Schemata

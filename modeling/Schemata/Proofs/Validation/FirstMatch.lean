import Schemata.Proofs.Validation.Context

/-! First match in a union: each alternative runs alone in a fork. On success the context is
unchanged; if none succeeds, the errors of the last one are added, as far as the context takes them.
-/

namespace Schemata

namespace Context

/-- The errors that a context still takes: all of them, or one. -/
def taken (c : Context) (more : List ValidationError) : List ValidationError :=
  if c.firstOnly then more.take (1 - c.errors.length) else more

theorem extend_eq_adding_taken (c : Context) (more : List ValidationError) :
    c.extend more = c.adding (c.taken more) := by
  induction more generalizing c with
  | nil =>
    have nothing : c.taken [] = [] := by simp [taken]
    rw [nothing, adding_nil]
    rfl
  | cons e rest ih =>
    change (c.report e).extend rest = _
    rw [ih]
    obtain ⟨location, errors, firstOnly⟩ := c
    cases firstOnly with
    | false => simp [report, aborted, taken, adding]
    | true => cases errors <;> simp [report, aborted, taken, adding]

end Context

theorem Tracked.run_reject_taken (f : Fault) (c : Context) :
    (reject f).run c = some (none, c.adding (c.taken [⟨c.location, f⟩])) := by
  rw [← Context.extend_eq_adding_taken]
  rfl

def Node.Undiscriminated (n : Node) : Prop := ∃ f, n.shape = .object f ∧ f.discriminator = none

namespace Check

theorem needsTrial_iff {n : Node} : needsTrial n = true ↔ n.Undiscriminated := by
  unfold needsTrial Node.Undiscriminated
  cases n.shape <;> simp

/-- An alternative of a type as it is tried, with a trial before where it needs one. -/
def Walk.choice (g : Graph) (fuel : Nat) (o : ValidationOptions) (alt : Node) : Walk.Choice :=
  ⟨if needsTrial alt then some (Walk.run g fuel o.precheck alt) else none, Walk.run g fuel o alt⟩

variable {g : Graph} {fuel : Nat} {o : ValidationOptions} {c : Context} {v : Value}
  {alt : Node} {alternatives : List Node} {output : Option Value}

section Alone

variable (g fuel o c v alt)

def PassesTrial : Prop :=
  alt.Undiscriminated →
    ∃ w trial, (Walk.run g fuel o.precheck alt v).run c.fork = some (some w, trial)

/-- The outcome of an alternative run alone on fresh errors: those of its pre-check, those of its
check, or an output. -/
inductive Alone : Except (List ValidationError) Value → Prop
  | failed {trial : Context} (needs : alt.Undiscriminated)
      (fails : (Walk.run g fuel o.precheck alt v).run c.fork = some (none, trial)) :
      Alone (.error trial.errors)
  | rejected {out : Context} (passes : PassesTrial g fuel o c v alt)
      (rejects : (Walk.run g fuel o alt v).run c.fork = some (none, out)) : Alone (.error out.errors)
  | accepted {w : Value} {out : Context} (passes : PassesTrial g fuel o c v alt)
      (accepts : (Walk.run g fuel o alt v).run c.fork = some (some w, out)) : Alone (.ok w)

end Alone

theorem fork_decided {n : Node} {out : Context}
    (ran : (Walk.run g fuel o n v).run c.fork = some (output, out)) :
    out.errors = [] ↔ output.isSome = true := by
  have follows : Follows c.firstOnly (Walk.run g fuel o n) (run g c.firstOnly fuel o n) :=
    run_follows fuel o n
  have fresh : c.fork.aborted = false := Bool.and_false c.firstOnly
  rw [follows.run c.fork rfl fresh] at ran
  obtain ⟨r, decided, same⟩ := Option.map_eq_some_iff.mp ran
  obtain ⟨rfl, rfl⟩ := Prod.mk.inj same
  exact (follows.settled _ _ _ decided).decided

theorem fork_clean {n : Node} {out : Context} {w : Value}
    (ran : (Walk.run g fuel o n v).run c.fork = some (some w, out)) : out.errors = [] :=
  (fork_decided ran).mpr rfl

theorem fork_problems {n : Node} {out : Context}
    (ran : (Walk.run g fuel o n v).run c.fork = some (none, out)) : out.errors ≠ [] :=
  fun clean => Bool.false_ne_true ((fork_decided ran).mp clean)

theorem Alone.errors_ne_nil {errors : List ValidationError}
    (alone : Alone g fuel o c v alt (.error errors)) : errors ≠ [] := by
  cases alone with
  | failed _ fails => exact fork_problems fails
  | rejected _ rejects => exact fork_problems rejects

theorem trial_run_iff {x : List ValidationError × Context} :
    ((Walk.choice g fuel o alt).trial v).run c = some x ↔
      ¬alt.Undiscriminated ∧ x = ([], c) ∨
      alt.Undiscriminated ∧ ∃ output trial,
        (Walk.run g fuel o.precheck alt v).run c.fork = some (output, trial) ∧
          x = (trial.errors, c) := by
  by_cases needs : alt.Undiscriminated
  · have tried : ((Walk.choice g fuel o alt).trial v).run c =
        ((Walk.run g fuel o.precheck alt v).run c.fork).map fun ran => (ran.2.errors, c) := by
      rw [Walk.Choice.trial, Walk.choice, if_pos (needsTrial_iff.mpr needs)]
      dsimp only
      rw [StateT.run_bind, Tracked.run_forked]
      rcases (Walk.run g fuel o.precheck alt v).run c.fork with _ | ⟨output, trial⟩ <;> rfl
    rw [tried, Option.map_eq_some_iff]
    simp [needs, eq_comm]
  · have tried : ((Walk.choice g fuel o alt).trial v).run c = some ([], c) := by
      rw [Walk.Choice.trial, Walk.choice, if_neg (mt needsTrial_iff.mp needs)]
      rfl
    rw [tried, Option.some.injEq]
    simp [needs, eq_comm]

theorem trial_run_nil_iff :
    ((Walk.choice g fuel o alt).trial v).run c = some ([], c) ↔ PassesTrial g fuel o c v alt := by
  rw [trial_run_iff]
  constructor
  · rintro (⟨needless, -⟩ | ⟨-, output, trial, ran, same⟩) needs
    · exact absurd needs needless
    · have clean : trial.errors = [] := (congrArg Prod.fst same).symm
      rcases output with _ | w
      · exact absurd clean (fork_problems ran)
      · exact ⟨w, trial, ran⟩
  · intro passes
    by_cases needs : alt.Undiscriminated
    · obtain ⟨w, trial, ran⟩ := passes needs
      exact .inr ⟨needs, some w, trial, ran, by rw [fork_clean ran]⟩
    · exact .inl ⟨needs, rfl⟩

def Walk.Choice.attempt (choice : Walk.Choice) (v : Value) :
    Tracked (Except (List ValidationError) (Option Value)) := do
  let tried ← choice.trial v
  if tried.isEmpty then
    let (output, problems) ← Tracked.forked (choice.walk v)
    if problems.isEmpty then return .ok output else return .error problems
  else return .error tried

theorem walk_firstMatch_cons (v : Value) (last : List ValidationError) (choice : Walk.Choice)
    (rest : List Walk.Choice) :
    Walk.firstMatch v last (choice :: rest) = choice.attempt v >>= fun
      | .ok output => return output
      | .error errors => Walk.firstMatch v errors rest := by
  rw [Walk.firstMatch, Walk.Choice.attempt, bind_assoc]
  apply bind_congr
  intro tried
  split
  · rw [bind_assoc]
    apply bind_congr
    rintro ⟨output, problems⟩
    dsimp only
    split <;> rw [pure_bind]
  · rw [pure_bind]

theorem attempt_of_passes (passes : PassesTrial g fuel o c v alt) :
    ((Walk.choice g fuel o alt).attempt v).run c =
      ((Walk.run g fuel o alt v).run c.fork).map fun (output, out) =>
        (if out.errors.isEmpty then .ok output else .error out.errors, c) := by
  rw [Walk.Choice.attempt, StateT.run_bind, trial_run_nil_iff.mpr passes]
  dsimp only [Option.bind_eq_bind, Option.bind_some]
  rw [List.isEmpty_nil, if_pos rfl, StateT.run_bind, Tracked.run_forked]
  change (Option.map _ ((Walk.run g fuel o alt v).run c.fork)).bind _ = _
  rcases (Walk.run g fuel o alt v).run c.fork with _ | ⟨output, out⟩
  · rfl
  · dsimp only [Option.map_some, Option.bind_some]
    split <;> rfl

theorem attempt_of_fails {trial : Context} (needs : alt.Undiscriminated)
    (fails : (Walk.run g fuel o.precheck alt v).run c.fork = some (none, trial)) :
    ((Walk.choice g fuel o alt).attempt v).run c = some (.error trial.errors, c) := by
  have tried := trial_run_iff.mpr (.inr ⟨needs, none, trial, fails, rfl⟩)
  rw [Walk.Choice.attempt, StateT.run_bind, tried]
  dsimp only [Option.bind_eq_bind, Option.bind_some]
  rw [if_neg (mt List.isEmpty_iff.mp (fork_problems fails))]
  rfl

theorem attempt_of_alone {out : Except (List ValidationError) Value}
    (alone : Alone g fuel o c v alt out) :
    ((Walk.choice g fuel o alt).attempt v).run c = some (out.map some, c) := by
  cases alone with
  | failed needs fails => exact attempt_of_fails needs fails
  | rejected passes rejects =>
    rw [attempt_of_passes passes, rejects]
    simp [fork_problems rejects, Except.map]
  | accepted passes accepts =>
    rw [attempt_of_passes passes, accepts]
    simp [fork_clean accepts, Except.map]

theorem exists_alone_of_attempt {x : Except (List ValidationError) (Option Value) × Context}
    (h : ((Walk.choice g fuel o alt).attempt v).run c = some x) :
    ∃ out, Alone g fuel o c v alt out := by
  by_cases passes : PassesTrial g fuel o c v alt
  · rw [attempt_of_passes passes] at h
    obtain ⟨⟨_ | w, out⟩, ran, -⟩ := Option.map_eq_some_iff.mp h
    · exact ⟨.error out.errors, .rejected passes ran⟩
    · exact ⟨.ok w, .accepted passes ran⟩
  · rw [Walk.Choice.attempt, StateT.run_bind] at h
    obtain ⟨_, tried, -⟩ := Option.bind_eq_some_iff.mp h
    obtain ⟨needless, -⟩ | ⟨needs, _ | w, trial, ran, -⟩ := trial_run_iff.mp tried
    · exact absurd (fun needs => absurd needs needless) passes
    · exact ⟨.error trial.errors, .failed needs ran⟩
    · exact absurd (fun _ => ⟨w, trial, ran⟩) passes

theorem attempt_run_iff {x : Except (List ValidationError) (Option Value) × Context} :
    ((Walk.choice g fuel o alt).attempt v).run c = some x ↔
      ∃ out, Alone g fuel o c v alt out ∧ x = (out.map some, c) := by
  constructor
  · intro h
    obtain ⟨out, alone⟩ := exists_alone_of_attempt h
    exact ⟨out, alone, Option.some.inj (h.symm.trans (attempt_of_alone alone))⟩
  · rintro ⟨out, alone, rfl⟩
    exact attempt_of_alone alone

/-- An alternative that does not accept the value alone. -/
def Refuses (g : Graph) (fuel : Nat) (o : ValidationOptions) (c : Context) (v : Value) (alt : Node) :
    Prop := ∃ errors, Alone g fuel o c v alt (.error errors)

theorem firstMatch_cons_run_iff {last : List ValidationError} {x : Option Value × Context} :
    (Walk.firstMatch v last ((alt :: alternatives).map (Walk.choice g fuel o))).run c = some x ↔
      (∃ w, Alone g fuel o c v alt (.ok w) ∧ x = (some w, c)) ∨
      ∃ errors, Alone g fuel o c v alt (.error errors) ∧
        (Walk.firstMatch v errors (alternatives.map (Walk.choice g fuel o))).run c = some x := by
  rw [List.map_cons, walk_firstMatch_cons, StateT.run_bind, Option.bind_eq_bind,
    Option.bind_eq_some_iff]
  constructor
  · rintro ⟨_, attempted, h⟩
    obtain ⟨out, alone, rfl⟩ := attempt_run_iff.mp attempted
    cases out with
    | ok w => exact .inl ⟨w, alone, (Option.some.inj h).symm⟩
    | error errors => exact .inr ⟨errors, alone, h⟩
  · rintro (⟨w, alone, rfl⟩ | ⟨errors, alone, h⟩)
    · exact ⟨_, attempt_run_iff.mpr ⟨.ok w, alone, rfl⟩, rfl⟩
    · exact ⟨_, attempt_run_iff.mpr ⟨.error errors, alone, rfl⟩, h⟩

theorem firstMatch_run_iff {last : List ValidationError} {x : Option Value × Context} :
    (Walk.firstMatch v last (alternatives.map (Walk.choice g fuel o))).run c = some x ↔
      (∃ before alt after w, alternatives = before ++ alt :: after ∧
        (∀ a ∈ before, Refuses g fuel o c v a) ∧ Alone g fuel o c v alt (.ok w) ∧
        x = (some w, c)) ∨
      (∀ a ∈ alternatives, Refuses g fuel o c v a) ∧
        (alternatives = [] ∧ (Walk.firstMatch v last []).run c = some x ∨
        ∃ before final errors, alternatives = before ++ [final] ∧
          Alone g fuel o c v final (.error errors) ∧
          (Walk.firstMatch v errors []).run c = some x) := by
  induction alternatives generalizing last with
  | nil => simp
  | cons alt rest ih =>
    rw [firstMatch_cons_run_iff]
    simp only [ih]
    constructor
    · rintro (⟨w, accepts, same⟩ | ⟨errors, alone, h⟩)
      · exact .inl ⟨[], alt, rest, w, rfl, List.forall_mem_nil _, accepts, same⟩
      · have refuses : Refuses g fuel o c v alt := ⟨errors, alone⟩
        rcases h with ⟨before, a, after, w, rfl, each, accepts, same⟩ | ⟨each, h⟩
        · exact .inl ⟨alt :: before, a, after, w, rfl, List.forall_mem_cons.mpr ⟨refuses, each⟩,
            accepts, same⟩
        · refine .inr ⟨List.forall_mem_cons.mpr ⟨refuses, each⟩, .inr ?_⟩
          rcases h with ⟨rfl, h⟩ | ⟨before, final, problems, rfl, told, h⟩
          · exact ⟨[], alt, errors, rfl, alone, h⟩
          · exact ⟨alt :: before, final, problems, rfl, told, h⟩
    · rintro (⟨before, a, after, w, split, each, accepts, same⟩ | ⟨each, h⟩)
      · rcases before with _ | ⟨b, before⟩
        · obtain ⟨rfl, rfl⟩ := List.cons.inj split
          exact .inl ⟨w, accepts, same⟩
        · obtain ⟨rfl, rfl⟩ := List.cons.inj split
          obtain ⟨⟨errors, alone⟩, each⟩ := List.forall_mem_cons.mp each
          exact .inr ⟨errors, alone, .inl ⟨before, a, after, w, rfl, each, accepts, same⟩⟩
      · obtain ⟨⟨errors, alone⟩, each⟩ := List.forall_mem_cons.mp each
        rcases h with ⟨empty, -⟩ | ⟨before, final, problems, split, told, h⟩
        · cases empty
        · rcases before with _ | ⟨b, before⟩
          · obtain ⟨rfl, rfl⟩ := List.cons.inj split
            exact .inr ⟨problems, told, .inr ⟨each, .inl ⟨rfl, h⟩⟩⟩
          · obtain ⟨rfl, rfl⟩ := List.cons.inj split
            exact .inr ⟨errors, alone, .inr ⟨each, .inr ⟨before, final, problems, rfl, told, h⟩⟩⟩

theorem run_firstMatch_nil (c : Context) (v : Value) (last : List ValidationError) :
    (Walk.firstMatch v last []).run c = some (none, c.adding (c.taken
      (if last.isEmpty then [⟨c.location, .noUnionMember v⟩] else last))) := by
  unfold Walk.firstMatch
  split
  · exact Tracked.run_reject_taken (.noUnionMember v) c
  · rw [← Context.extend_eq_adding_taken]
    rfl

theorem exists_firstMatch_run (each : ∀ alt ∈ alternatives, ∃ out, Alone g fuel o c v alt out)
    (last : List ValidationError) :
    ∃ x, (Walk.firstMatch v last (alternatives.map (Walk.choice g fuel o))).run c = some x := by
  induction alternatives generalizing last with
  | nil => exact ⟨_, run_firstMatch_nil c v last⟩
  | cons alt rest ih =>
    obtain ⟨⟨out, alone⟩, each⟩ := List.forall_mem_cons.mp each
    cases out with
    | ok w => exact ⟨_, firstMatch_cons_run_iff.mpr (.inl ⟨w, alone, rfl⟩)⟩
    | error errors =>
      obtain ⟨x, h⟩ := ih each errors
      exact ⟨x, firstMatch_cons_run_iff.mpr (.inr ⟨errors, alone, h⟩)⟩

theorem walk_guarded_of_enters {n : Node} (enters : Enters n v) (acceptsNil : Bool) (walk : Walk) :
    Walk.guarded n acceptsNil o walk v = walk v := by
  have passes := enters.passes
  unfold Check.passes at passes
  unfold Walk.guarded
  rw [if_neg (Bool.eq_false_iff.mp enters.present)]
  split
  · rfl
  · rename_i other
    rw [Bool.eq_false_iff.mpr other, Bool.false_or] at passes
    rcases guard : n.header.typeOf with _ | p
    · rfl
    · rw [guard] at passes
      exact if_pos passes

theorem walk_run_several {n : Node} (several : Several n alternatives) (enters : Enters n v) :
    Walk.run g (fuel + 1) o n v = Walk.union (alternatives.map (Walk.choice g fuel o)) v := by
  rw [Walk.run, several.found]
  rcases alternatives with _ | ⟨a, _ | _⟩
  · exact walk_guarded_of_enters enters _ _
  · exact absurd rfl (several.other a)
  · exact walk_guarded_of_enters enters _ _

/-- A union returns the output of the first alternative whose pre-check (for objects without a
discriminator) and check succeed in a fork, with the caller's errors unchanged. If none does, it
returns `none` and adds the errors of the last alternative run alone, as far as the context takes
them; `noUnionMemberMatched` is added only for an empty list. -/
theorem union_takes_first (g : Graph) (fuel : Nat) (o : ValidationOptions) (alternatives : List Node)
    (c : Context) (v : Value) :
    let union := (Walk.union (alternatives.map (Walk.choice g fuel o)) v).run c
    (∀ output c', union = some (output, c') ↔
      (∃ before alt after w, alternatives = before ++ alt :: after ∧
        (∀ a ∈ before, Refuses g fuel o c v a) ∧ Alone g fuel o c v alt (.ok w) ∧
        output = some w ∧ c' = c) ∨
      output = none ∧ (∀ a ∈ alternatives, Refuses g fuel o c v a) ∧
        (alternatives = [] ∧ c' = c.adding (c.taken [⟨c.location, .noUnionMember v⟩]) ∨
        ∃ before last errors, alternatives = before ++ [last] ∧
          Alone g fuel o c v last (.error errors) ∧ errors ≠ [] ∧
          c' = c.adding (c.taken errors))) ∧
    ((∀ alt ∈ alternatives, ∃ out, Alone g fuel o c v alt out) → ∃ x, union = some x) ∧
    ∀ n, Several n alternatives → Enters n v → (Walk.run g (fuel + 1) o n v).run c = union := by
  intro union
  refine ⟨fun output c' => ?_, fun each => exists_firstMatch_run each [], fun n several enters => ?_⟩
  · change (Walk.firstMatch v [] (alternatives.map (Walk.choice g fuel o))).run c = _ ↔ _
    rw [firstMatch_run_iff]
    simp only [run_firstMatch_nil, List.isEmpty_nil, if_true, Option.some.injEq, Prod.mk.injEq]
    refine or_congr Iff.rfl ⟨?_, ?_⟩
    · rintro ⟨each, ⟨empty, rfl, rfl⟩ | ⟨before, last, errors, split, told, rfl, rfl⟩⟩
      · exact ⟨rfl, each, .inl ⟨empty, rfl⟩⟩
      · have some := told.errors_ne_nil
        refine ⟨rfl, each, .inr ⟨before, last, errors, split, told, some, ?_⟩⟩
        rw [if_neg (mt List.isEmpty_iff.mp some)]
    · rintro ⟨rfl, each, ⟨empty, rfl⟩ | ⟨before, last, errors, split, told, some, rfl⟩⟩
      · exact ⟨each, .inl ⟨empty, rfl, rfl⟩⟩
      · refine ⟨each, .inr ⟨before, last, errors, split, told, rfl, ?_⟩⟩
        rw [if_neg (mt List.isEmpty_iff.mp some)]
  · rw [walk_run_several several enters]

theorem union_takes_first_of_record :
    let number : Node := .ofBase .number
    let text : Property Ref := ⟨.node (.ofBase .string), false⟩
    let record : Node := { Node.ofBase .object with
      shape := .object ⟨[("name", text)], none, none, none, none, none⟩ }
    let either : Node := .anyOf 14 [number, record]
    let c : Context := ⟨[.key "a"], [⟨[], .valueRequired⟩], false⟩
    let named : Value := .object [("name", .string "x")]
    (Walk.run .initial 3 .strict either named).run c = some (some named, c) ∧
      (Walk.run .initial 3 .strict either (.bool true)).run c =
        some (none, c.adding [⟨[.key "a"], .invalidType "object" (.bool true)⟩]) := by
  intro number text record either c named
  have several : Several either [number, record] := ⟨rfl, fun alt h => by cases h⟩
  have needs : record.Undiscriminated := ⟨_, rfl, rfl⟩
  have refuses (v : Value) (other : v = named ∨ v = .bool true) :
      Refuses .initial 2 .strict c v number := by
    have needless : ¬number.Undiscriminated := by rintro ⟨_, ⟨⟩, -⟩
    have passes : PassesTrial .initial 2 .strict c v number := fun needs => absurd needs needless
    rcases other with rfl | rfl <;> exact ⟨_, .rejected passes rfl⟩
  constructor
  · have union := union_takes_first .initial 2 .strict [number, record] c named
    have accepts : Alone .initial 2 .strict c named record (.ok named) :=
      .accepted (fun _ => ⟨_, _, rfl⟩) rfl
    rw [union.2.2 either several ⟨rfl, rfl⟩]
    apply (union.1 _ _).mpr
    exact .inl ⟨[number], record, [], named, rfl, List.forall_mem_singleton.mpr (refuses named (.inl rfl)),
      accepts, rfl, rfl⟩
  · have union := union_takes_first .initial 2 .strict [number, record] c (.bool true)
    let e : ValidationError := ⟨[.key "a"], .invalidType "object" (.bool true)⟩
    have tried : (Walk.run .initial 2 ValidationOptions.strict.precheck record (.bool true)).run c.fork =
        some (none, c.fork.adding [e]) := rfl
    have fails : Alone .initial 2 .strict c (.bool true) record (.error [e]) := .failed needs tried
    rw [union.2.2 either several ⟨rfl, rfl⟩]
    apply (union.1 _ _).mpr
    have each : ∀ a ∈ [number, record], Refuses .initial 2 .strict c (.bool true) a :=
      List.forall_mem_cons.mpr ⟨refuses _ (.inr rfl), List.forall_mem_singleton.mpr ⟨_, fails⟩⟩
    refine .inr ⟨rfl, each, .inr ?_⟩
    exact ⟨[number], record, _, rfl, fails, List.cons_ne_nil _ _, rfl⟩

end Check
end Schemata

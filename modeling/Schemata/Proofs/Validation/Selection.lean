import Schemata.Proofs.Validation.Disjunction
import Schemata.Proofs.Validation.Relaxation

/-! Which alternative accepts a value. Object alternatives without a discriminator go through a
pre-check under strict options, and what passes it passes the check under any options; so the
pre-check selects, and of the options it sees only `ignoreRequired` and those of dates. -/

namespace Schemata

namespace ValidationOptions

variable {o o' : ValidationOptions}

theorem precheck_congr (ignore : o.ignoreRequired = o'.ignoreRequired)
    (fast : o.fastDateValidation = o'.fastDateValidation) : o.precheck = o'.precheck := by
  simp only [precheck, ignore, fast]

theorem precheck_relaxed (native : o.coerceNativeTypes = false) : o.precheck.Relaxed o where
  strict _ := rfl
  coerce coerces := nomatch coerces
  native := native.symm
  removal := .inl rfl
  ignore := .refl o.ignoreRequired
  fast := id

end ValidationOptions

theorem Graph.every_repeatable_iff {g : Graph} {n : Node} : g.Every Node.Repeatable n ↔
    g.Every (Node.Has (fun _ => True) (fun _ => True) Shape.Repeatable) n := by
  constructor
  · intro every
    exact every.imp fun m h => ⟨trivial, trivial, trivial, h.shape, h.ownShape⟩
  · intro every
    exact every.imp fun m h => ⟨h.shape, h.ownShape⟩

namespace Check

variable {g : Graph} {firstOnly firstOnly' : Bool} {fuel fuel' : Nat} {o o' : ValidationOptions}
  {alt : Node} {l : Location} {v w : Value} {cs ds : List Candidate} {r r' : Report}

def Candidate.takes (c : Candidate) (l : Location) (v : Value) : Bool :=
  (candidate c l v).any Except.isOk

def place? (l : Location) (v : Value) (cs : List Candidate) : Option Nat :=
  cs.findIdx? fun c => c.takes l v

/-! One alternative. -/

def Passes (g : Graph) (p : ValidationOptions) (l : Location) (v : Value) (alt : Node) : Prop :=
  ∃ firstOnly fuel w, run g firstOnly fuel p alt l v = some (.accept w)

theorem Passes.eq_accept {p : ValidationOptions} (passes : Passes g p l v alt)
    (repeatable : g.Every Node.Repeatable alt) (relaxed : p.Relaxed o)
    (decided : run g firstOnly fuel o alt l v = some r) : ∃ w, r = .accept w := by
  obtain ⟨firstOnly', fuel', w, accepted⟩ := passes
  have every := Graph.every_repeatable_iff.mp repeatable
  have accepted := run_mono (Nat.le_max_left fuel' fuel) _ _ _ _ _ accepted
  have decided := run_mono (Nat.le_max_right fuel' fuel) _ _ _ _ _ decided
  exact run_eases _ relaxed every l v ⟨w, accepted⟩ r decided

theorem takes_iff_passes (trial : needsTrial alt = true) (repeatable : g.Every Node.Repeatable alt)
    (native : o.coerceNativeTypes = false) {out : Except (List ValidationError) (Option Value)}
    (decided : candidate (asCandidate g firstOnly fuel o alt) l v = some out) :
    (asCandidate g firstOnly fuel o alt).takes l v = true ↔ Passes g o.precheck l v alt := by
  have takes : (asCandidate g firstOnly fuel o alt).takes l v = out.isOk := by
    rw [Candidate.takes, decided, Option.any_some]
  have tries : (asCandidate g firstOnly fuel o alt).trial l v =
      run g firstOnly fuel o.precheck alt l v := by
    simp only [Candidate.trial, asCandidate, if_pos trial, Option.elim_some]
  rw [takes]
  rw [candidate_eq, tries] at decided
  obtain ⟨first, tried, decided⟩ := Option.bind_eq_some_iff.mp decided
  constructor
  · intro taken
    have clean : first.errors.isEmpty = true := by
      by_contra unclean
      rw [if_neg unclean] at decided
      obtain rfl := Option.some.inj decided
      cases taken
    have settled := settled_run g firstOnly fuel o.precheck alt l v first tried
    obtain ⟨w, rfl⟩ := settled.eq_accept (List.isEmpty_iff.mp clean)
    exact ⟨firstOnly, fuel, w, tried⟩
  · intro passes
    obtain ⟨w, rfl⟩ := passes.eq_accept repeatable (.refl _) tried
    obtain ⟨r, checked, rfl⟩ := Option.map_eq_some_iff.mp decided
    obtain ⟨w', rfl⟩ := passes.eq_accept repeatable (ValidationOptions.precheck_relaxed native) checked
    rfl

/-! Several alternatives. -/

def Candidate.Agrees (l : Location) (v : Value) (c d : Candidate) : Prop :=
  (candidate c l v).isSome = true → (candidate d l v).isSome = true → c.takes l v = d.takes l v

theorem place?_cons (c : Candidate) : place? l v (c :: cs) =
    if c.takes l v then some 0 else (place? l v cs).map (· + 1) := by
  rw [place?, List.findIdx?_cons]
  rfl

theorem firstMatch_place? (settled : ∀ c ∈ cs, c.part.Settled False) {last : List ValidationError}
    (decided : firstMatch firstOnly l v last cs = some r) :
    (∃ i c w, place? l v cs = some i ∧ cs[i]? = some c ∧ c.part l v = some (.accept w) ∧
        r = .accept w) ∨
      place? l v cs = none ∧ r.errors ≠ [] := by
  induction cs generalizing last with
  | nil =>
    right
    refine ⟨rfl, ?_⟩
    obtain rfl := Option.some.inj decided
    cases last with
    | nil => exact List.cons_ne_nil _ _
    | cons e rest =>
      intro none
      cases (Reports.addAll_eq_nil.mp none).2
  | cons c cs ih =>
    rw [firstMatch_cons] at decided
    obtain ⟨out, tried, decided⟩ := Option.bind_eq_some_iff.mp decided
    have takes : c.takes l v = out.isOk := by
      rw [Candidate.takes, tried, Option.any_some]
    rw [place?_cons, takes]
    rcases out with errors | output
    · have rest := ih (fun d hd => settled d (List.mem_cons_of_mem _ hd)) decided
      rcases rest with ⟨i, d, w, place, found, accepted, rfl⟩ | ⟨place, rejected⟩
      · left
        have next : (place? l v cs).map (· + 1) = some (i + 1) := by rw [place, Option.map_some]
        exact ⟨i + 1, d, w, next, found, accepted, rfl⟩
      · right
        have none : (place? l v cs).map (· + 1) = none := by rw [place, Option.map_none]
        exact ⟨none, rejected⟩
    · left
      have first := settled c List.mem_cons_self
      obtain ⟨w, rfl⟩ := eq_accept_of_candidate first tried
      obtain rfl := Option.some.inj decided
      exact ⟨0, c, w, rfl, rfl, ((candidate_eq_ok_iff first).mp tried).2, rfl⟩

theorem place?_eq (agree : List.Forall₂ (Candidate.Agrees l v) cs ds)
    {last last' : List ValidationError} (decided : firstMatch firstOnly l v last cs = some r)
    (decided' : firstMatch firstOnly' l v last' ds = some r') : place? l v cs = place? l v ds := by
  induction agree generalizing last last' with
  | nil => rfl
  | @cons c d cs ds first _ ih =>
    rw [firstMatch_cons] at decided decided'
    obtain ⟨out, tried, decided⟩ := Option.bind_eq_some_iff.mp decided
    obtain ⟨out', tried', decided'⟩ := Option.bind_eq_some_iff.mp decided'
    have same : c.takes l v = d.takes l v := by
      apply first
      · rw [tried, Option.isSome_some]
      · rw [tried', Option.isSome_some]
    rw [place?_cons, place?_cons, ← same]
    by_cases taken : c.takes l v = true
    · rw [if_pos taken, if_pos taken]
    · have taken' : ¬d.takes l v = true := same ▸ taken
      rw [Candidate.takes, tried, Option.any_some] at taken
      rw [Candidate.takes, tried', Option.any_some] at taken'
      rcases out with errors | output
      · rcases out' with errors' | output'
        · rw [ih decided decided']
        · exact absurd rfl taken'
      · exact absurd rfl taken

theorem asCandidate_agrees (trial : needsTrial alt = true) (repeatable : g.Every Node.Repeatable alt)
    (native : o.coerceNativeTypes = false) (native' : o'.coerceNativeTypes = false)
    (same : o.precheck = o'.precheck) :
    Candidate.Agrees l v (asCandidate g firstOnly fuel o alt)
      (asCandidate g firstOnly' fuel' o' alt) := by
  intro decided decided'
  obtain ⟨out, decided⟩ := Option.isSome_iff_exists.mp decided
  obtain ⟨out', decided'⟩ := Option.isSome_iff_exists.mp decided'
  have taken := takes_iff_passes trial repeatable native decided
  have taken' := takes_iff_passes trial repeatable native' decided'
  rw [← same] at taken'
  exact Bool.eq_iff_iff.mpr (taken.trans taken'.symm)

end Check

namespace Validator

variable {g : Graph} {n : Node} {o o' : ValidationOptions} {steps steps' : Nat} {v : Value}
  {x x' : Except (List ValidationError) Value}

/-- The index of the first alternative that accepts a value, for a type of several alternatives. -/
def selected? (v : Validator) (steps : Nat) (value : Value) : Option Nat :=
  Check.place? [] value (v.node.alternatives.map
    (Check.asCandidate v.graph v.options.throwOnFirstError (steps - 1) v.options))

variable (several : Check.Several n n.alternatives)

include several

theorem exists_firstMatch (enters : Check.Enters n v) (h : validate? ⟨g, n, o⟩ steps v = some x) :
    ∃ r, Check.firstMatch o.throwOnFirstError [] v []
        (n.alternatives.map (Check.asCandidate g o.throwOnFirstError (steps - 1) o)) = some r ∧
      x = if r.errors.isEmpty then .ok (r.output.getD .undefined) else .error r.errors := by
  obtain ⟨r, decided, rfl⟩ := Option.map_eq_some_iff.mp h
  change Check.run g o.throwOnFirstError steps o n [] v = some r at decided
  cases steps with
  | zero => cases decided
  | succ fuel =>
    rw [Check.run_several several, Check.guarded_of_enters enters] at decided
    exact ⟨r, decided, rfl⟩

theorem rejected_of_not_passes (present : v.isMissing = false) (fails : ¬Check.passes n v = true)
    (h : validate? ⟨g, n, o⟩ steps v = some x) : ∃ errors, x = .error errors := by
  obtain ⟨r, decided, rfl⟩ := Option.map_eq_some_iff.mp h
  change Check.run g o.throwOnFirstError steps o n [] v = some r at decided
  cases steps with
  | zero => cases decided
  | succ fuel =>
    have there : ¬v.isMissing = true := by simp [present]
    rw [Check.run_several several, Check.guarded_eq, if_neg there, if_neg fails] at decided
    obtain rfl := Option.some.inj decided
    exact ⟨_, rfl⟩

theorem selected?_cases (enters : Check.Enters n v) (h : validate? ⟨g, n, o⟩ steps v = some x) :
    (∃ i alt w, selected? ⟨g, n, o⟩ steps v = some i ∧ n.alternatives[i]? = some alt ∧
        validate? ⟨g, alt, o⟩ steps v = some (.ok w) ∧ x = .ok w) ∨
      selected? ⟨g, n, o⟩ steps v = none ∧ ∃ errors, x = .error errors := by
  obtain ⟨r, decided, rfl⟩ := exists_firstMatch several enters h
  have settled : ∀ c ∈ n.alternatives.map (Check.asCandidate g o.throwOnFirstError (steps - 1) o),
      c.part.Settled False := by
    intro c hc
    obtain ⟨alt, -, rfl⟩ := List.mem_map.mp hc
    exact Check.settled_run _ _ _ _ _
  rcases Check.firstMatch_place? settled decided with
    ⟨i, c, w, place, found, accepted, rfl⟩ | ⟨place, rejected⟩
  · left
    rw [List.getElem?_map] at found
    obtain ⟨alt, stands, rfl⟩ := Option.map_eq_some_iff.mp found
    have accepted := Check.run_mono (Nat.sub_le steps 1) _ _ _ _ _ accepted
    exact ⟨i, alt, w, place, stands, validate?_eq_ok_iff.mpr accepted, rfl⟩
  · right
    have unclean : ¬r.errors.isEmpty = true := fun empty => rejected (List.isEmpty_iff.mp empty)
    exact ⟨place, r.errors, if_neg unclean⟩

theorem selected?_eq (enters : Check.Enters n v)
    (trial : ∀ alt ∈ n.alternatives, Check.needsTrial alt = true)
    (repeatable : g.Every Node.Repeatable n) (native : o.coerceNativeTypes = false)
    (native' : o'.coerceNativeTypes = false) (same : o.precheck = o'.precheck)
    (h : validate? ⟨g, n, o⟩ steps v = some x) (h' : validate? ⟨g, n, o'⟩ steps' v = some x') :
    selected? ⟨g, n, o⟩ steps v = selected? ⟨g, n, o'⟩ steps' v := by
  obtain ⟨r, decided, -⟩ := exists_firstMatch several enters h
  obtain ⟨r', decided', -⟩ := exists_firstMatch several enters h'
  apply Check.place?_eq _ decided decided'
  rw [List.forall₂_map_left_iff, List.forall₂_map_right_iff, List.forall₂_same]
  intro alt ha
  have below : g.Every Node.Repeatable alt := by
    rw [Graph.every_repeatable_iff] at repeatable ⊢
    exact Graph.every_alternative repeatable_heritable repeatable alt ha
  exact Check.asCandidate_agrees (trial alt ha) below native native' same

omit several

/-- Among object alternatives without discriminators, options that differ in coercion, removal of
additional keys or error limits accept the same values by the same alternative, whose output they
return. -/
theorem validate?_selects (several : 2 ≤ n.alternatives.length)
    (objects : ∀ alt ∈ n.alternatives, ∃ f, alt.shape = .object f ∧ f.discriminator = none)
    (repeatable : g.Every Node.Repeatable n) (ignore : o.ignoreRequired = o'.ignoreRequired)
    (fast : o.fastDateValidation = o'.fastDateValidation) (native : o.coerceNativeTypes = false)
    (native' : o'.coerceNativeTypes = false) (present : v.isMissing = false)
    (h : validate? ⟨g, n, o⟩ steps v = some x) (h' : validate? ⟨g, n, o'⟩ steps' v = some x') :
    (∃ i alt w w', x = .ok w ∧ x' = .ok w' ∧ selected? ⟨g, n, o⟩ steps v = some i ∧
        selected? ⟨g, n, o'⟩ steps' v = some i ∧ n.alternatives[i]? = some alt ∧
        validate? ⟨g, alt, o⟩ steps v = some (.ok w) ∧
        validate? ⟨g, alt, o'⟩ steps' v = some (.ok w')) ∨
      ∃ errors errors', x = .error errors ∧ x' = .error errors' := by
  have several : Check.Several n n.alternatives := by
    rcases found : n.alternatives? with _ | list
    · rw [Node.alternatives_of_none found] at several
      simp at several
    · rw [Node.alternatives_of_some found] at several ⊢
      refine ⟨found, fun alt only => ?_⟩
      simp [only] at several
  have trial : ∀ alt ∈ n.alternatives, Check.needsTrial alt = true := by
    intro alt ha
    obtain ⟨f, shape, plain⟩ := objects alt ha
    simp [Check.needsTrial, shape, plain]
  have same : o.precheck = o'.precheck := ValidationOptions.precheck_congr ignore fast
  by_cases passes : Check.passes n v = true
  · have enters : Check.Enters n v := ⟨present, passes⟩
    have place := selected?_eq several enters trial repeatable native native' same h h'
    have here := selected?_cases several enters h
    have there := selected?_cases several enters h'
    rw [← place] at there
    rcases here with ⟨i, alt, w, selects, ha, accepted, rfl⟩ | ⟨none, errors, rfl⟩
    · rcases there with ⟨j, alt', w', selects', ha', accepted', rfl⟩ | ⟨none, -⟩
      · obtain rfl : i = j := Option.some.inj (selects.symm.trans selects')
        obtain rfl : alt = alt' := Option.some.inj (ha.symm.trans ha')
        left
        exact ⟨i, alt, w, w', rfl, rfl, selects, place ▸ selects, ha, accepted, accepted'⟩
      · rw [selects] at none
        cases none
    · rcases there with ⟨j, alt', w', selects', -⟩ | ⟨-, errors', rfl⟩
      · rw [none] at selects'
        cases selects'
      · right
        exact ⟨errors, errors', rfl, rfl⟩
  · obtain ⟨errors, rfl⟩ := rejected_of_not_passes several present passes h
    obtain ⟨errors', rfl⟩ := rejected_of_not_passes several present passes h'
    right
    exact ⟨errors, errors', rfl, rfl⟩

def recordOf (type : BaseType) : Node :=
  .extend none none .object [.ofBase .object] Header.empty
    (.object ⟨[("n", ⟨.node (.ofBase type), false⟩)], none, none, none, none, none⟩)

def countOrLabel : Node :=
  { Node.ofBase .union with
    shape := .union [recordOf .integer, recordOf .string]
    ownShape := .union [recordOf .integer, recordOf .string] }

theorem repeatable_ofBase (b : BaseType) : Graph.initial.Every Node.Repeatable (.ofBase b) := by
  have empty : (b.emptyShape : Shape Node Ref).Repeatable := repeatable_heritable.emptyShape b
  exact Graph.every_ofBase ⟨empty, empty⟩

theorem repeatable_recordOf (b : BaseType) : Graph.initial.Every Node.Repeatable (recordOf b) := by
  refine Graph.every_of_step ⟨nofun, nofun⟩ ?_
  rintro m (part | link)
  · have supertype : m = .ofBase .object := List.mem_singleton.mp part
    rw [supertype]
    exact repeatable_ofBase .object
  · rename_i x
    have type : x = .node (.ofBase b) := (List.mem_pair.mp link).elim id id
    rw [type]
    exact repeatable_ofBase b

theorem repeatable_countOrLabel : Graph.initial.Every Node.Repeatable countOrLabel := by
  refine Graph.every_of_step ⟨nofun, nofun⟩ ?_
  rintro m (part | link)
  · have member : m ∈ [recordOf .integer, recordOf .string] := (List.mem_append.mp part).elim id id
    rcases List.mem_pair.mp member with rfl | rfl
    · exact repeatable_recordOf .integer
    · exact repeatable_recordOf .string
  · cases link

theorem validate?_selects_label :
    let value : Value := .object [("n", .string "5")]
    validate? ⟨.initial, countOrLabel, .standard⟩ 4 value = some (.ok value) ∧
      validate? ⟨.initial, countOrLabel, .coercing⟩ 4 value = some (.ok value) ∧
      selected? ⟨.initial, countOrLabel, .standard⟩ 4 value = some 1 ∧
      selected? ⟨.initial, countOrLabel, .coercing⟩ 4 value = some 1 := by
  intro value
  have plain : validate? ⟨.initial, countOrLabel, .standard⟩ 4 value = some (.ok value) := by cbv
  have coerced : validate? ⟨.initial, countOrLabel, .coercing⟩ 4 value = some (.ok value) := by cbv
  have second : selected? ⟨.initial, countOrLabel, .standard⟩ 4 value = some 1 := by cbv
  have objects : ∀ alt ∈ countOrLabel.alternatives,
      ∃ f, alt.shape = .object f ∧ f.discriminator = none := by
    intro alt ha
    have list : countOrLabel.alternatives = [recordOf .integer, recordOf .string] := rfl
    rw [list] at ha
    rcases List.mem_pair.mp ha with rfl | rfl
    · exact ⟨_, rfl, rfl⟩
    · exact ⟨_, rfl, rfl⟩
  have ignore : ValidationOptions.standard.ignoreRequired = ValidationOptions.coercing.ignoreRequired := rfl
  rcases validate?_selects (by decide) objects repeatable_countOrLabel ignore rfl rfl rfl rfl plain coerced
    with ⟨i, alt, w, w', -, -, here, there, -⟩ | ⟨errors, errors', fails, -⟩
  · obtain rfl : i = 1 := Option.some.inj (here.symm.trans second)
    exact ⟨plain, coerced, here, there⟩
  · cases fails

end Validator
end Schemata

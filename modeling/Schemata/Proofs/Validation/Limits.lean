import Schemata.Proofs.Validation.Steps
import Schemata.Proofs.Validation.Tandem

/-! Error limits do not change the verdict. A run that differs only in giving up sooner accepts the
same values with the same output; on rejection it reports a sublist of the errors with the same
head. -/

namespace Schemata

def ValidationOptions.givingUp (o : ValidationOptions) (first : Bool) (perObject perArray : Nat) :
    ValidationOptions :=
  { o with
    throwOnFirstError := first
    maxErrorsPerObject := perObject
    maxErrorsPerArray := perArray }

namespace Check

variable {firstOnly firstOnly' : Bool}

theorem leads_of_settled {r r' : Report} (hr : r.Settled False) (run : some r = some r') :
    r'.Settled False ∧ ∃ r'', some r = some r'' ∧ r''.Cut r' := by
  obtain rfl := Option.some.inj run
  exact ⟨hr, r, rfl, .refl r⟩

/-- Options that differ only in giving up earlier. -/
structure Sooner (firstOnly : Bool) (o : ValidationOptions) (firstOnly' : Bool)
    (o' : ValidationOptions) : Prop where
  same : o.givingUp false 0 0 = o'.givingUp false 0 0
  sooner : firstOnly = true ∨ firstOnly' = false ∧ o.maxErrorsPerObject ≤ o'.maxErrorsPerObject ∧
    o.maxErrorsPerArray ≤ o'.maxErrorsPerArray

namespace Sooner

variable {o o' : ValidationOptions}

theorem first (h : Sooner firstOnly o firstOnly' o') : firstOnly = true ∨ firstOnly' = false :=
  h.sooner.imp id And.left

theorem congr (h : Sooner firstOnly o firstOnly' o') {α : Type} (f : ValidationOptions → α)
    (hf : ∀ o : ValidationOptions, f o = f (o.givingUp false 0 0)) : f o = f o' := by
  rw [hf o, h.same, ← hf o']

theorem precheck (h : Sooner firstOnly o firstOnly' o') :
    Sooner firstOnly o.precheck firstOnly' o'.precheck := by
  rw [h.congr ValidationOptions.precheck fun _ => rfl]
  exact ⟨rfl, h.sooner.imp id fun h => ⟨h.1, Nat.le_refl _, Nat.le_refl _⟩⟩

theorem itemRules (h : Sooner firstOnly o firstOnly' o') {ρ : Type} (f : ArrayFacets ρ) :
    (itemRules f o firstOnly).Sooner (Check.itemRules f o' firstOnly') where
  sooner := h.sooner.imp id fun h => ⟨h.1, by simp only [Check.itemRules]; omega⟩
  positive := by simp only [Check.itemRules]; omega
  positive' := by simp only [Check.itemRules]; omega
  unique := rfl
  dropsDuplicates := h.congr (·.coerceTypes) fun _ => rfl

theorem keyRules (h : Sooner firstOnly o firstOnly' o') {ρ : Type} (f : ObjectFacets ρ)
    {properties properties' : Keyed PropertyRule}
    (hp : Keyed.Alike (PropertyRule.Alike Part.Leads) properties properties') :
    (keyRules f o firstOnly properties).Sooner (Check.keyRules f o' firstOnly' properties') where
  sooner := h.sooner.imp id fun h => ⟨h.1, by simp only [Check.keyRules]; omega⟩
  positive := by simp only [Check.keyRules]; omega
  positive' := by simp only [Check.keyRules]; omega
  properties := hp
  drops := h.congr (·.dropsAdditional (f.additionalProperties.getD true)) fun _ => rfl
  additional := rfl

end Sooner

variable {g : Graph} {o o' : ValidationOptions}

theorem guarded_leads (hs : Sooner firstOnly o firstOnly' o') {n : Node} {acceptsNil : Bool}
    {a b : Part} (h : a.Leads b) : (guarded n acceptsNil o a).Leads (guarded n acceptsNil o' b) := by
  intro l v r' run
  rw [guarded_eq] at run ⊢
  rw [hs.congr (missing n acceptsNil · l v) fun _ => rfl]
  split_ifs at run ⊢
  · exact leads_of_settled (missing_settled _ _ _ _ _ _) run
  · exact h _ _ _ run
  · exact leads_of_settled (Report.settled_reject _ _ _) run

theorem array_leads (hs : Sooner firstOnly o firstOnly' o') {ρ : Type} {f : ArrayFacets ρ}
    {a b : Part} (hp : a.Leads b) : Part.Leads (array f o firstOnly a) (array f o' firstOnly' b) := by
  intro l v r' run
  refine ⟨array_settled False.elim hp.settled _ _ _ run, ?_⟩
  rw [array_eq] at run ⊢
  rw [hs.congr (itemsOf? · v) fun _ => rfl]
  rcases hi : itemsOf? o' v with _ | list <;> rw [hi] at run
  · exact ⟨r', run, .refl _⟩
  · obtain ⟨out', run', rfl⟩ := Option.map_eq_some_iff.mp run
    have start : ItemState.Tandem (itemRules f o firstOnly) .start .start :=
      .abreast .start rfl rfl
    obtain ⟨out, run, h⟩ := items_lead (hs.itemRules f) hp start run'
    exact ⟨_, Option.map_eq_some_iff.mpr ⟨out, run, rfl⟩, finishArray_cut f h⟩

theorem object_leads (hs : Sooner firstOnly o firstOnly' o') {ρ : Type} {f : ObjectFacets ρ}
    {name : Option String} {properties properties' : Keyed PropertyRule}
    (hp : Keyed.Alike (PropertyRule.Alike Part.Leads) properties properties') :
    Part.Leads (object f name o firstOnly properties) (object f name o' firstOnly' properties') := by
  intro l v r' run
  have settled : ∀ e ∈ properties', e.2.part.Settled False := by
    intro e' he'
    obtain ⟨e, -, he⟩ := exists_of_forall₂_of_mem (List.Forall₂.flip hp) he'
    exact he.2.part.settled
  refine ⟨object_settled False.elim settled _ _ _ run, ?_⟩
  rw [object_eq] at run ⊢
  cases v with
  | object given =>
    dsimp only at run ⊢
    rcases hd : discriminated f name l given with _ | report <;> rw [hd] at run
    · exact keys_cut f (hs.keyRules f hp) run
    · exact ⟨r', run, .refl _⟩
  | _ => exact ⟨r', run, .refl _⟩

theorem union_leads (hs : Sooner firstOnly o firstOnly' o') {cs ds : List Candidate}
    (hc : ∀ d ∈ ds, d.Settled False) (h : List.Forall₂ (Candidate.Alike Part.Leads) cs ds) :
    Part.Leads (union firstOnly cs) (union firstOnly' ds) :=
  fun _ _ _ run => ⟨union_settled hc _ _ _ run, firstMatch_cut hs.first h (.refl []) run⟩

theorem shape_leads (hs : Sooner firstOnly o firstOnly' o') {run run' : Node → Part}
    (h : ∀ n, (run n).Leads (run' n)) (n : Node) :
    (shape g firstOnly o run n).Leads (shape g firstOnly' o' run' n) := by
  intro l v r' decided
  unfold shape at decided ⊢
  rcases hn : n.shape with _ | f | f | _ | _ | f | f | f | _ <;> rw [hn] at decided
  case array =>
    refine array_leads hs ?_ _ _ _ decided
    rcases f.items with _ | item
    · exact fun l v r' run => leads_of_settled (Report.settled_accept _ _) run
    · exact h _
  case object =>
    have ignore := hs.congr (·.ignoreRequired) fun _ => rfl
    exact object_leads hs (propertyRules_alike ignore h f.properties) _ _ _ decided
  case union => exact union_leads hs (fun _ h => by cases h) .nil _ _ _ decided
  case any => exact leads_of_settled (Report.settled_accept _ _) decided
  case string =>
    dsimp only
    rw [hs.congr (string f · l v) fun _ => rfl]
    exact leads_of_settled (string_settled _ _ _ _ _) decided
  case number =>
    dsimp only
    rw [hs.congr (number f (n.base == .integer) · l v) fun _ => rfl]
    exact leads_of_settled (number_settled _ _ _ _ _ _) decided
  case boolean =>
    dsimp only
    rw [hs.congr (boolean · l v) fun _ => rfl]
    exact leads_of_settled (boolean_settled _ _ _ _) decided
  case nil => exact leads_of_settled (Report.settled_reject _ _ _) decided
  case date =>
    dsimp only
    rw [hs.congr (date n.base f · l v) fun _ => rfl]
    exact leads_of_settled (date_settled _ _ _ _ _ _) decided

/-- A run that gives up earlier is decided, with the same output and a sublist of the errors with
the same head. -/
theorem run_leads (fuel : Nat) : ∀ {o o' : ValidationOptions}, Sooner firstOnly o firstOnly' o' →
    ∀ n, (run g firstOnly fuel o n).Leads (run g firstOnly' fuel o' n) := by
  induction fuel with
  | zero =>
    intro o o' _ n l v r' h
    cases h
  | succ fuel ih =>
    intro o o' hs n
    rw [run_succ, run_succ]
    split
    · exact guarded_leads hs (shape_leads hs (ih hs) n)
    · exact guarded_leads hs (ih hs _)
    · refine guarded_leads hs (union_leads hs ?_ (candidates_alike (ih hs) (ih hs.precheck) _))
      exact candidates_settled False.elim (fun o n => run_settled g firstOnly' fuel o n) _

theorem cut_of_run {fuel fuel' : Nat} (hs : Sooner firstOnly o firstOnly' o') {n : Node}
    {l : Location} {v : Value} {r r' : Report} (h : run g firstOnly fuel o n l v = some r)
    (h' : run g firstOnly' fuel' o' n l v = some r') : r.Cut r' := by
  obtain ⟨-, r₀, h₀, cut⟩ := run_leads fuel' hs n l v r' h'
  exact run_unique h h₀ ▸ cut

end Check

namespace Validator

open Check

theorem sooner_true (o : ValidationOptions) (firstOnly t t' : Bool) (p a p' a' : Nat) :
    Sooner true (o.givingUp t p a) firstOnly (o.givingUp t' p' a') := ⟨rfl, .inl rfl⟩

def raised (r : Report) : Except ValidationError Value :=
  match r.errors with
  | e :: _ => .error e
  | [] => .ok (r.output.getD .undefined)

theorem raised_eq_of_cut {r r' : Report} (h : r.Cut r') : raised r = raised r' := by
  have first := h.errors.first
  unfold raised
  rw [h.output]
  generalize r.errors = errors, r'.errors = errors' at first
  rcases errors with _ | ⟨e, es⟩ <;> rcases errors' with _ | ⟨e', es'⟩
  · rfl
  · cases first
  · cases first
  · obtain rfl := Option.some.inj first
    rfl

theorem eq_cons_of_cut {r r' : Report} (h : r.Cut r') {e : ValidationError}
    {es : List ValidationError} (he : r.errors = e :: es) : r'.errors = e :: r'.errors.tail := by
  have first := h.errors.first
  rw [he] at first
  exact (List.cons_head?_tail first.symm).symm

/-- Error limits affect neither the verdict nor the output: lower limits report a sublist of the
errors with the same first error, which `validateOrRaise?` raises in no more steps, and which is the
only one with both limits at most 1. -/
theorem validate?_givingUp {g : Graph} {n : Node} {o : ValidationOptions} {t t' : Bool}
    {p a p' a' steps steps' : Nat} {value : Value} {x x' : Except (List ValidationError) Value}
    (h : validate? ⟨g, n, o.givingUp t p a⟩ steps value = some x)
    (h' : validate? ⟨g, n, o.givingUp t' p' a'⟩ steps' value = some x') :
    (∃ w, x = .ok w ∧ x' = .ok w ∧ ∀ t'' p'' a'',
        validateOrRaise? ⟨g, n, o.givingUp t'' p'' a''⟩ steps value = some (.ok w)) ∨
      ∃ e es es', x = .error (e :: es) ∧ x' = .error (e :: es') ∧
        (∀ t'' p'' a'',
          validateOrRaise? ⟨g, n, o.givingUp t'' p'' a''⟩ steps value = some (.error e)) ∧
        (t = false → t' = false → p ≤ p' → a ≤ a' → (e :: es).Sublist (e :: es')) ∧
        (t = true → es = []) ∧ (p ≤ 1 → a ≤ 1 → es = []) := by
  obtain ⟨r, hr, rfl⟩ := Option.map_eq_some_iff.mp h
  obtain ⟨r', hr', rfl⟩ := Option.map_eq_some_iff.mp h'
  obtain ⟨-, r₀, h₀, cut⟩ := run_leads _ (sooner_true o _ t t p a p a) _ _ _ _ hr
  have cut' := cut_of_run (sooner_true o _ _ _ _ _ _ _) h₀ hr'
  -- Every run for the first problem alone ends like the one under the first option set.
  have raise (t'' : Bool) (p'' a'' : Nat) :
      validateOrRaise? ⟨g, n, o.givingUp t'' p'' a''⟩ steps value = some (raised r₀) := by
    obtain ⟨-, r₁, h₁, cut₁⟩ := run_leads _ (sooner_true o _ t'' t p'' a'' p a) _ _ _ _ h₀
    exact Option.map_eq_some_iff.mpr ⟨r₁, h₁, raised_eq_of_cut cut₁⟩
  rcases he : r₀.errors with _ | ⟨e, rest⟩
  · have clean : r.errors = [] := cut.eq_nil_iff.mp he
    have clean' : r'.errors = [] := cut'.eq_nil_iff.mp he
    refine .inl ⟨r₀.output.getD .undefined, ?_, ?_, fun t'' p'' a'' => ?_⟩
    · rw [clean, cut.output]
      rfl
    · rw [clean', cut'.output]
      rfl
    · rw [raise, raised, he]
  · have found := eq_cons_of_cut cut he
    have found' := eq_cons_of_cut cut' he
    refine .inr ⟨e, r.errors.tail, r'.errors.tail, ?_, ?_, fun t'' p'' a'' => ?_, ?_, ?_, ?_⟩
    · rw [if_neg (by rw [found]; exact Bool.false_ne_true), ← found]
    · rw [if_neg (by rw [found']; exact Bool.false_ne_true), ← found']
    · rw [raise, raised, he]
    · intro ht ht' hp ha
      rw [← found, ← found']
      have hs : Sooner t (o.givingUp t p a) t' (o.givingUp t' p' a') :=
        ⟨rfl, .inr ⟨ht', hp, ha⟩⟩
      exact (cut_of_run hs hr hr').errors.part
    · intro ht
      have few := (run_settled _ _ _ _ _ _ _ _ hr).single (.inl ht)
      rw [found] at few
      exact List.length_eq_zero_iff.mp (Nat.le_zero.mp (Nat.le_of_succ_le_succ few))
    · intro hp ha
      have few := (run_settled _ _ _ _ _ _ _ _ hr).single (.inr ⟨hp, ha⟩)
      rw [found] at few
      exact List.length_eq_zero_iff.mp (Nat.le_zero.mp (Nat.le_of_succ_le_succ few))

theorem validate?_givingUp_of_two_failing_items :
    let texts : Node := { Node.ofBase .array with
      shape := .array ⟨some (.node (Node.ofBase .string)), none, none, none⟩ }
    let o := ValidationOptions.strict
    let e (i : Nat) (b : Bool) : ValidationError := ⟨Location.atIndex [] i, .invalidType "string" (.bool b)⟩
    let value := Value.array [.bool true, .bool false]
    validate? ⟨.initial, texts, o.givingUp false 1 1⟩ 3 value = some (.error [e 0 true]) ∧
      validate? ⟨.initial, texts, o.givingUp false 1 2⟩ 3 value =
        some (.error [e 0 true, e 1 false]) ∧
      validateOrRaise? ⟨.initial, texts, o.givingUp true 0 7⟩ 3 value = some (.error (e 0 true)) := by
  intro texts o e value
  have low : validate? ⟨.initial, texts, o.givingUp false 1 1⟩ 3 value = some (.error [e 0 true]) := rfl
  have high : validate? ⟨.initial, texts, o.givingUp false 1 2⟩ 3 value =
      some (.error [e 0 true, e 1 false]) := rfl
  refine ⟨low, high, ?_⟩
  obtain ⟨w, hw, -⟩ | ⟨e', es, es', he, -, raise, -⟩ := validate?_givingUp low high
  · cases hw
  · obtain ⟨rfl, rfl⟩ := List.cons.inj (Except.error.inj he)
    exact raise true 0 7

end Validator
end Schemata

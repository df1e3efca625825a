import Schemata.Proofs.Validation.Composite

/-! A report has an output exactly when it has no errors, and at most one error if only the first is
wanted or both limits are at most one. -/

namespace Schemata

namespace Reports

theorem addAll_true (errors more : List ValidationError) :
    addAll true errors more = if errors.isEmpty then more.take 1 else errors := by
  induction more generalizing errors with
  | nil => cases errors <;> rfl
  | cons e rest ih =>
    change addAll true (add true errors e) rest = _
    rw [ih]
    cases errors <;> rfl

theorem addAll_eq_nil {firstOnly : Bool} {errors more : List ValidationError} :
    addAll firstOnly errors more = [] ↔ errors = [] ∧ more = [] := by
  cases firstOnly
  · rw [addAll_false, List.append_eq_nil_iff]
  · rw [addAll_true]
    cases errors <;> cases more <;> simp

theorem addAll_nil (firstOnly : Bool) (errors : List ValidationError) :
    addAll firstOnly errors [] = errors := rfl

theorem length_addAll_nil_le (firstOnly : Bool) (more : List ValidationError) :
    (addAll firstOnly [] more).length ≤ more.length := by
  cases firstOnly
  · simp
  · rw [addAll_true]
    exact List.length_take_le' 1 more

end Reports

structure Report.Settled (single : Prop) (r : Report) : Prop where
  decided : r.errors = [] ↔ r.output.isSome = true
  single : single → r.errors.length ≤ 1

namespace Report

theorem settled_accept (single : Prop) (v : Value) : (accept v).Settled single :=
  ⟨by simp [accept], fun _ => Nat.zero_le 1⟩

theorem settled_reject (single : Prop) (l : Location) (f : Fault) : (reject l f).Settled single :=
  ⟨by simp [reject], fun _ => Nat.le_refl 1⟩

end Report

namespace Check

def Part.Settled (single : Prop) (part : Part) : Prop :=
  ∀ l v r, part l v = some r → r.Settled single

structure Counted (single : Prop) (failures : Nat) (errors : List ValidationError) : Prop where
  decided : errors = [] ↔ failures = 0
  single : single → errors.length ≤ 1

variable {single : Prop} {firstOnly : Bool} {limit failures : Nat} {errors more : List ValidationError}
  {l : Location} {v : Value} {r : Report} {part : Part}

theorem Counted.eq_nil_of_not_stops (h : Counted single failures errors)
    (wanted : single → firstOnly = true ∨ limit ≤ 1)
    (goes : ¬stops firstOnly limit failures errors = true) (hs : single) : errors = [] := by
  simp only [stops, Reports.isOver, Bool.or_eq_true, decide_eq_true_eq, Bool.and_eq_true,
    not_or, not_and] at goes
  rcases wanted hs with hf | hl
  · simpa using goes.2 hf
  · exact h.decided.mpr (by omega)

theorem Counted.start : Counted single 0 [] := ⟨by simp, fun _ => Nat.zero_le 1⟩

theorem Counted.fail (goes : single → errors = []) (ne : more ≠ [])
    (few : single → more.length ≤ 1) :
    Counted single (failures + 1) (Reports.addAll firstOnly errors more) := by
  refine ⟨?_, fun hs => ?_⟩
  · rw [Reports.addAll_eq_nil]
    simp [ne]
  · rw [goes hs]
    exact Nat.le_trans (Reports.length_addAll_nil_le firstOnly more) (few hs)

section Items

variable {rules : ItemRules}

theorem ItemState.take_counted {st : ItemState} (h : Counted single st.failures st.errors)
    (goes : single → st.errors = []) (hr : r.Settled single) :
    Counted single (st.take rules l r).failures (st.take rules l r).errors := by
  unfold ItemState.take
  rcases ho : r.output with _ | v
  · refine .fail goes (fun hn => ?_) hr.single
    simpa [ho] using hr.decided.mp hn
  · have clean : r.errors = [] := hr.decided.mpr (by simp [ho])
    simp only [clean, Reports.addAll_nil]
    split
    · split
      · exact h
      · exact .fail goes (List.cons_ne_nil _ _) fun _ => Nat.le_refl 1
    · exact h

theorem items_counted (wanted : single → rules.firstOnly = true ∨ rules.limit ≤ 1)
    (hp : part.Settled single) {list : List Value} {i : Nat} {st out : ItemState}
    (h : Counted single st.failures st.errors) (run : items rules part l i st list = some out) :
    Counted single out.failures out.errors := by
  induction list generalizing i st with
  | nil =>
    obtain rfl := Option.some.inj run
    exact h
  | cons v rest ih =>
    rw [items] at run
    split at run
    · obtain rfl := Option.some.inj run
      exact h
    · rename_i goes
      rcases hr : part (l.atIndex i) v with _ | r <;> simp only [hr] at run
      · cases run
      · exact ih (ItemState.take_counted h (h.eq_nil_of_not_stops wanted goes) (hp _ _ _ hr)) run

theorem finishArray_settled {ρ : Type} (f : ArrayFacets ρ) {st : ItemState}
    (h : Counted single st.failures st.errors) : (finishArray f l st).Settled single := by
  unfold finishArray
  split
  · rename_i failed
    refine ⟨?_, h.single⟩
    simp only [h.decided, Option.isSome_none, Bool.false_eq_true, iff_false]
    omega
  · split
    · exact Report.settled_reject _ _ _
    · have clean : st.errors = [] := h.decided.mpr (by omega)
      exact ⟨by simp [clean], h.single⟩

theorem array_settled {ρ : Type} {f : ArrayFacets ρ} {o : ValidationOptions}
    (wanted : single → firstOnly = true ∨ o.maxErrorsPerArray ≤ 1) (hp : part.Settled single) :
    Part.Settled single (array f o firstOnly part) := by
  intro l v r run
  rw [array_eq] at run
  rcases hi : itemsOf? o v with _ | list <;> rw [hi] at run
  · obtain rfl := Option.some.inj run
    exact Report.settled_reject _ _ _
  · obtain ⟨st, hst, rfl⟩ := Option.map_eq_some_iff.mp run
    have wanted : single → firstOnly = true ∨ max o.maxErrorsPerArray 1 ≤ 1 := fun hs =>
      (wanted hs).imp id fun hl => by omega
    exact finishArray_settled f (items_counted wanted hp .start hst)

end Items

section Keys

variable {rules : KeyRules} {key : String}

theorem KeyState.take_counted {st : KeyState} (h : Counted single st.failures st.errors)
    (goes : single → st.errors = []) (hr : r.Settled single) :
    Counted single (st.take firstOnly key r).failures (st.take firstOnly key r).errors := by
  unfold KeyState.take
  rcases ho : r.output with _ | v
  · refine .fail goes (fun hn => ?_) hr.single
    simpa [ho] using hr.decided.mp hn
  · have clean : r.errors = [] := hr.decided.mpr (by simp [ho])
    simp only [clean, Reports.addAll_nil]
    exact h

theorem KeyState.undeclared_counted {st : KeyState} (h : Counted single st.failures st.errors)
    (goes : single → st.errors = []) :
    Counted single (st.undeclared rules l key v).failures (st.undeclared rules l key v).errors := by
  unfold KeyState.undeclared
  split
  · exact h
  · split
    · exact h
    · exact take_counted h goes (Report.settled_reject _ _ _)

theorem givenProperty_settled {p : PropertyRule} (hp : p.part.Settled single) :
    Part.Settled single (givenProperty p) := by
  intro l v r run
  unfold givenProperty at run
  split at run
  · obtain rfl := Option.some.inj run
    exact Report.settled_accept _ _
  · exact hp _ _ _ run

theorem givenKeys_counted (wanted : single → rules.firstOnly = true ∨ rules.limit ≤ 1)
    (hp : ∀ key p, Keyed.get? rules.properties key = some p → p.part.Settled single)
    {fields : List (String × Value)} {st out : KeyState}
    (h : Counted single st.failures st.errors) (run : givenKeys rules l st fields = some out) :
    Counted single out.failures out.errors := by
  induction fields generalizing st with
  | nil =>
    obtain rfl := Option.some.inj run
    exact h
  | cons e rest ih =>
    obtain ⟨key, v⟩ := e
    rw [givenKeys] at run
    split at run
    · obtain rfl := Option.some.inj run
      exact h
    · rename_i goes
      have goes := h.eq_nil_of_not_stops wanted goes
      rcases hk : Keyed.get? rules.properties key with _ | p <;> simp only [hk] at run
      · exact ih (KeyState.undeclared_counted h goes) run
      · rcases hr : givenProperty p (l.atKey key) v with _ | r <;> simp only [hr] at run
        · cases run
        · have hr := givenProperty_settled (hp key p hk) _ _ _ hr
          exact ih (KeyState.take_counted h goes hr) run

theorem absentKeys_counted (wanted : single → rules.firstOnly = true ∨ rules.limit ≤ 1)
    {given : Keyed Value} {properties : Keyed PropertyRule}
    (hp : ∀ e ∈ properties, e.2.part.Settled single) {st out : KeyState}
    (h : Counted single st.failures st.errors)
    (run : absentKeys rules l given st properties = some out) :
    Counted single out.failures out.errors := by
  induction properties generalizing st with
  | nil =>
    obtain rfl := Option.some.inj run
    exact h
  | cons e rest ih =>
    obtain ⟨key, p⟩ := e
    have ih {st : KeyState} := @ih (fun e he => hp e (List.mem_cons_of_mem _ he)) st
    rw [absentKeys] at run
    split at run
    · obtain rfl := Option.some.inj run
      exact h
    · rename_i goes
      have goes := h.eq_nil_of_not_stops wanted goes
      split at run
      · exact ih h run
      · rcases hr : p.part (l.atKey key) .undefined with _ | r <;> simp only [hr] at run
        · cases run
        · have hr := hp _ List.mem_cons_self _ _ _ hr
          exact ih (KeyState.take_counted h goes hr) run

theorem finishObject_settled {ρ : Type} (f : ObjectFacets ρ) {given : Keyed Value} {st : KeyState}
    (h : Counted single st.failures st.errors) : (finishObject f l given st).Settled single := by
  unfold finishObject
  split
  · rename_i failed
    refine ⟨?_, h.single⟩
    simp only [h.decided, Option.isSome_none, Bool.false_eq_true, iff_false]
    omega
  · split
    · exact Report.settled_reject _ _ _
    · have clean : st.errors = [] := h.decided.mpr (by omega)
      exact ⟨by simp [clean], h.single⟩

theorem object_settled {ρ : Type} {f : ObjectFacets ρ} {name : Option String} {o : ValidationOptions}
    (wanted : single → firstOnly = true ∨ o.maxErrorsPerObject ≤ 1) {properties : Keyed PropertyRule}
    (hp : ∀ e ∈ properties, e.2.part.Settled single) :
    Part.Settled single (object f name o firstOnly properties) := by
  intro l v r run
  rw [object_eq] at run
  cases v with
  | object given =>
    dsimp only at run
    unfold discriminated at run
    have settled (run : keys f (keyRules f o firstOnly properties) l given = some r) :
        r.Settled single := by
      obtain ⟨st, first, run⟩ := Option.bind_eq_some_iff.mp run
      obtain ⟨st', second, rfl⟩ := Option.map_eq_some_iff.mp run
      have wanted : single → firstOnly = true ∨ max o.maxErrorsPerObject 1 ≤ 1 := fun hs =>
        (wanted hs).imp id fun hl => by omega
      have first := givenKeys_counted wanted (fun key p hk => hp _ (Keyed.mem_of_get? hk)) .start first
      exact finishObject_settled f (absentKeys_counted wanted hp first second)
    split at run
    · exact settled run
    · dsimp only at run
      split at run
      · exact settled run
      · obtain rfl := Option.some.inj run
        exact Report.settled_reject _ _ _
  | _ =>
    obtain rfl := Option.some.inj run
    exact Report.settled_reject _ _ _

end Keys

section Unions

structure Candidate.Settled (single : Prop) (c : Candidate) : Prop where
  precheck : ∀ part, c.precheck = some part → part.Settled True
  part : c.part.Settled single

theorem verdict_cases {c : Candidate} (hc : c.Settled single)
    {out : Except (List ValidationError) (Option Value)} (run : candidate c l v = some out) :
    (∃ w, out = .ok (some w)) ∨
      ∃ errors, out = .error errors ∧ errors ≠ [] ∧ (single → errors.length ≤ 1) := by
  rw [candidate_eq] at run
  obtain ⟨trial, first, run⟩ := Option.bind_eq_some_iff.mp run
  split at run
  · obtain ⟨r, hr, rfl⟩ := Option.map_eq_some_iff.mp run
    have hr := hc.part _ _ _ hr
    unfold verdict
    split
    · obtain ⟨w, hw⟩ := Option.isSome_iff_exists.mp (hr.decided.mp (List.isEmpty_iff.mp ‹_›))
      exact .inl ⟨w, by rw [hw]⟩
    · rename_i ne
      exact .inr ⟨_, rfl, fun h => ne (List.isEmpty_iff.mpr h), hr.single⟩
  · rename_i ne
    obtain rfl := Option.some.inj run
    refine .inr ⟨_, rfl, fun h => ne (List.isEmpty_iff.mpr h), fun _ => ?_⟩
    unfold Candidate.trial at first
    rcases hp : c.precheck with _ | part <;> rw [hp] at first
    · obtain rfl := Option.some.inj first
      exact Nat.zero_le 1
    · exact (hc.precheck part hp _ _ _ first).single trivial

theorem firstMatch_settled {cs : List Candidate} (hc : ∀ c ∈ cs, c.Settled single)
    {last : List ValidationError} (few : single → last.length ≤ 1)
    (run : firstMatch firstOnly l v last cs = some r) : r.Settled single := by
  induction cs generalizing last with
  | nil =>
    obtain rfl := Option.some.inj run
    split
    · exact Report.settled_reject _ _ _
    · rename_i ne
      refine ⟨?_, fun hs => Nat.le_trans (Reports.length_addAll_nil_le firstOnly last) (few hs)⟩
      rw [Reports.addAll_eq_nil]
      simpa using ne
  | cons c rest ih =>
    rw [firstMatch] at run
    rcases hr : candidate c l v with _ | out <;> simp only [hr] at run
    · cases run
    · obtain ⟨w, rfl⟩ | ⟨errors, rfl, _, few⟩ := verdict_cases (hc c List.mem_cons_self) hr
      · obtain rfl := Option.some.inj run
        exact ⟨by simp, fun _ => Nat.zero_le 1⟩
      · exact ih (fun d hd => hc d (List.mem_cons_of_mem _ hd)) few run

theorem union_settled {cs : List Candidate} (hc : ∀ c ∈ cs, c.Settled single) :
    Part.Settled single (union firstOnly cs) := by
  intro l v r run
  have few : single → ([] : List ValidationError).length ≤ 1 := fun _ => Nat.zero_le 1
  exact firstMatch_settled hc few run

end Unions

/-! Types. -/

theorem string_settled (single : Prop) (f : StringFacets) (o : ValidationOptions) (l : Location)
    (v : Value) : (string f o l v).Settled single := by
  unfold string
  repeat' split
  all_goals first | exact Report.settled_accept _ _ | exact Report.settled_reject _ _ _

theorem number_settled (single : Prop) (f : NumberFacets) (integer : Bool) (o : ValidationOptions)
    (l : Location) (v : Value) : (number f integer o l v).Settled single := by
  unfold number
  dsimp only
  repeat' split
  all_goals first | exact Report.settled_accept _ _ | exact Report.settled_reject _ _ _

theorem boolean_settled (single : Prop) (o : ValidationOptions) (l : Location) (v : Value) :
    (boolean o l v).Settled single := by
  unfold boolean
  split
  · exact Report.settled_reject _ _ _
  · exact Report.settled_accept _ _

theorem date_settled (single : Prop) (base : BaseType) (f : DateFacets) (o : ValidationOptions)
    (l : Location) (v : Value) : (date base f o l v).Settled single := by
  unfold date mailDate writtenDate
  dsimp only
  repeat' split
  all_goals first | exact Report.settled_accept _ _ | exact Report.settled_reject _ _ _

theorem missing_settled (single : Prop) (n : Node) (acceptsNil : Bool) (o : ValidationOptions)
    (l : Location) (v : Value) : (missing n acceptsNil o l v).Settled single := by
  unfold missing
  repeat' split
  all_goals first | exact Report.settled_accept _ _ | exact Report.settled_reject _ _ _

theorem guarded_settled {n : Node} {acceptsNil : Bool} {o : ValidationOptions}
    (hp : part.Settled single) : Part.Settled single (guarded n acceptsNil o part) := by
  intro l v r run
  rw [guarded_eq] at run
  split_ifs at run
  · obtain rfl := Option.some.inj run
    exact missing_settled _ _ _ _ _ _
  · exact hp _ _ _ run
  · obtain rfl := Option.some.inj run
    exact Report.settled_reject _ _ _

def wantsOne (firstOnly : Bool) (o : ValidationOptions) : Prop :=
  firstOnly = true ∨ o.maxErrorsPerObject ≤ 1 ∧ o.maxErrorsPerArray ≤ 1

theorem shape_settled {g : Graph} {o : ValidationOptions} {run : Node → Part}
    (h : ∀ n, (run n).Settled (wantsOne firstOnly o)) (n : Node) :
    Part.Settled (wantsOne firstOnly o) (shape g firstOnly o run n) := by
  intro l v r decided
  unfold shape at decided
  rcases hs : n.shape with _ | f | f | _ | _ | f | f | f | _ <;> rw [hs] at decided
  case array =>
    refine array_settled (fun hw => hw.imp id And.right) ?_ _ _ _ decided
    rcases f.items with _ | item
    · rintro _ w _ ⟨⟩
      exact Report.settled_accept _ w
    · exact h _
  case object =>
    refine object_settled (fun hw => hw.imp id And.left) (fun e he => ?_) _ _ _ decided
    obtain ⟨p, -, rfl⟩ := List.mem_map.mp he
    exact h _
  case union => exact union_settled (fun _ h => by cases h) _ _ _ decided
  all_goals obtain rfl := Option.some.inj decided
  case any => exact Report.settled_accept _ _
  case string => exact string_settled _ _ _ _ _
  case number => exact number_settled _ _ _ _ _ _
  case boolean => exact boolean_settled _ _ _ _
  case nil => exact Report.settled_reject _ _ _
  case date => exact date_settled _ _ _ _ _ _

theorem settled_of_trial {o : ValidationOptions} (h : part.Settled (wantsOne firstOnly o.precheck)) :
    part.Settled True := fun l v r run =>
  ⟨(h l v r run).decided, fun _ => (h l v r run).single (.inr ⟨Nat.le_refl 1, Nat.le_refl 1⟩)⟩

theorem candidates_settled {g : Graph} {fuel : Nat} {o : ValidationOptions}
    (wanted : single → wantsOne firstOnly o)
    (h : ∀ (o : ValidationOptions) n, Part.Settled (wantsOne firstOnly o) (run g firstOnly fuel o n))
    (alternatives : List Node) :
    ∀ c ∈ alternatives.map (asCandidate g firstOnly fuel o), c.Settled single := by
  intro c hc
  obtain ⟨trial, part⟩ := forall_asCandidate (h o.precheck) (h o) alternatives c hc
  exact ⟨fun first hp => settled_of_trial (trial first hp), fun l v r run =>
    ⟨(part l v r run).decided, fun hs => (part l v r run).single (wanted hs)⟩⟩

/-- Every decided run has an output or errors, not both, and at most one error if only the first is
wanted. -/
theorem run_settled (g : Graph) (firstOnly : Bool) (fuel : Nat) : ∀ (o : ValidationOptions) n,
    Part.Settled (wantsOne firstOnly o) (run g firstOnly fuel o n) := by
  refine run_induction ?_ (fun _ _ n h => shape_settled h n) ?_ (fun _ _ _ _ h => guarded_settled h) fuel
  · rintro o l v r ⟨⟩
  · intro o cs h
    exact union_settled fun c hc =>
      ⟨fun first hp => settled_of_trial ((h c hc).1 first hp), (h c hc).2⟩

end Check

end Schemata

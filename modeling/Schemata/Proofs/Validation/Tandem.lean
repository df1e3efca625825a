import Schemata.Proofs.Validation.Composite
import Schemata.Proofs.Validation.Verdict

/-! Two loops side by side, of which the first gives up no later. They agree until the first one
stops; by then it has failed, the second one will fail, and the errors of the first are a sublist.
-/

namespace Schemata

structure Reports.Cut (errors errors' : List ValidationError) : Prop where
  first : errors.head? = errors'.head?
  part : errors.Sublist errors'

namespace Reports.Cut

variable {errors errors' more more' : List ValidationError}

theorem refl (errors : List ValidationError) : Cut errors errors := ⟨rfl, .refl _⟩

theorem eq_nil_iff (h : Cut errors errors') : errors = [] ↔ errors' = [] := by
  rw [← List.head?_eq_none_iff, h.first, List.head?_eq_none_iff]

theorem isEmpty_eq (h : Cut errors errors') : errors.isEmpty = errors'.isEmpty := by
  rw [Bool.eq_iff_iff, List.isEmpty_iff, List.isEmpty_iff, h.eq_nil_iff]

theorem append_right (h : Cut errors errors') (ne : errors' ≠ []) (more : List ValidationError) :
    Cut errors (errors' ++ more) := by
  refine ⟨?_, h.part.trans (List.sublist_append_left _ _)⟩
  rw [h.first]
  exact (List.head?_append_of_ne_nil _ ne).symm

theorem append (h : Cut errors errors') (hm : Cut more more') :
    Cut (errors ++ more) (errors' ++ more') :=
  ⟨by rw [List.head?_append, List.head?_append, h.first, hm.first], h.part.append hm.part⟩

theorem take_one (h : Cut errors errors') : Cut (errors.take 1) errors' := by
  refine ⟨?_, (List.take_sublist _ _).trans h.part⟩
  rw [← h.first]
  cases errors <;> rfl

theorem take_one_eq (h : Cut errors errors') : errors.take 1 = errors'.take 1 := by
  rw [List.take_one, List.take_one, h.first]

theorem addAll {firstOnly firstOnly' : Bool} (sooner : firstOnly = true ∨ firstOnly' = false)
    (h : Cut errors errors') (hm : Cut more more') :
    Cut (Reports.addAll firstOnly errors more) (Reports.addAll firstOnly' errors' more') := by
  cases firstOnly with
  | false =>
    obtain rfl : firstOnly' = false := by simpa using sooner
    rw [addAll_false, addAll_false]
    exact h.append hm
  | true =>
    cases firstOnly' with
    | true =>
      rw [addAll_true, addAll_true, h.isEmpty_eq, hm.take_one_eq]
      split
      · exact refl _
      · exact h
    | false =>
      rw [addAll_true, addAll_false, h.isEmpty_eq]
      split
      · obtain rfl := List.isEmpty_iff.mp ‹_›
        exact hm.take_one
      · exact h.append_right (fun he => by simp_all) more'

end Reports.Cut

/-- A report with the same output and a part of the problems. -/
structure Report.Cut (r r' : Report) : Prop where
  output : r.output = r'.output
  errors : Reports.Cut r.errors r'.errors

theorem Report.Cut.refl (r : Report) : r.Cut r := ⟨rfl, .refl _⟩

theorem Report.Cut.eq_nil_iff {r r' : Report} (h : r.Cut r') : r.errors = [] ↔ r'.errors = [] :=
  h.errors.eq_nil_iff

namespace Check

/-- The first check decides whenever the second does, up to errors that it leaves out. -/
def Part.Leads (a b : Part) : Prop :=
  ∀ l v r', b l v = some r' → r'.Settled False ∧ ∃ r, a l v = some r ∧ r.Cut r'

theorem Part.Leads.settled {a b : Part} (h : a.Leads b) : b.Settled False :=
  fun l v r' run => (h l v r' run).1

/-! Two loops, of which the first gives up no later. -/

structure Abreast (failures : Nat) (errors : List ValidationError) (failures' : Nat)
    (errors' : List ValidationError) : Prop where
  same : failures = failures'
  cut : Reports.Cut errors errors'
  counted : Counted False failures' errors'

structure Past (failures : Nat) (errors : List ValidationError) (failures' : Nat)
    (errors' : List ValidationError) : Prop where
  failed : 0 < failures
  failed' : 0 < failures'
  found : errors' ≠ []
  cut : Reports.Cut errors errors'

variable {firstOnly firstOnly' : Bool} {limit limit' failures failures' : Nat}
  {errors errors' more more' : List ValidationError}

theorem Abreast.start : Abreast 0 [] 0 [] := ⟨rfl, .refl _, .start⟩

theorem Abreast.fail (h : Abreast failures errors failures' errors')
    (sooner : firstOnly = true ∨ firstOnly' = false) (hm : Reports.Cut more more')
    (ne : more' ≠ []) :
    Abreast (failures + 1) (Reports.addAll firstOnly errors more) (failures' + 1)
      (Reports.addAll firstOnly' errors' more') :=
  ⟨congrArg (· + 1) h.same, h.cut.addAll sooner hm, .fail False.elim ne False.elim⟩

theorem Abreast.past (h : Abreast failures errors failures' errors') (positive : 0 < limit)
    (stopped : stops firstOnly limit failures errors = true) :
    Past failures errors failures' errors' := by
  have failed' : failures' ≠ 0 := by
    simp only [stops, Reports.isOver, Bool.or_eq_true, decide_eq_true_eq, Bool.and_eq_true] at stopped
    rcases stopped with hl | ⟨-, he⟩
    · have := h.same
      omega
    · intro h0
      have := h.cut.eq_nil_iff.mpr (h.counted.decided.mpr h0)
      simp [this] at he
  have found : errors' ≠ [] := fun he => failed' (h.counted.decided.mp he)
  exact ⟨h.same ▸ Nat.pos_of_ne_zero failed', Nat.pos_of_ne_zero failed', found, h.cut⟩

theorem stops_iff : stops firstOnly limit failures errors = true ↔
    limit ≤ failures ∨ firstOnly = true ∧ errors ≠ [] := by
  cases errors <;> simp [stops, Reports.isOver]

theorem Abreast.stops_of_stops (h : Abreast failures errors failures' errors')
    (sooner : firstOnly = true ∨ firstOnly' = false ∧ limit ≤ limit') (positive' : 0 < limit')
    (stopped : stops firstOnly' limit' failures' errors' = true) :
    stops firstOnly limit failures errors = true := by
  rw [stops_iff] at stopped ⊢
  rcases sooner with hf | ⟨hf, le⟩
  · refine .inr ⟨hf, ?_⟩
    rw [Ne, h.cut.eq_nil_iff]
    rcases stopped with hl | ⟨-, ne⟩
    · rw [h.counted.decided]
      omega
    · exact ne
  · rcases stopped with hl | ⟨hf', -⟩
    · exact .inl (h.same ▸ Nat.le_trans le hl)
    · rw [hf] at hf'
      cases hf'

structure Grown (failures : Nat) (errors : List ValidationError) (failures' : Nat)
    (errors' : List ValidationError) : Prop where
  failures : failures ≤ failures'
  errors : errors <+: errors'

theorem Grown.refl : Grown failures errors failures errors := ⟨Nat.le_refl _, List.prefix_rfl⟩

theorem Grown.trans {failures'' : Nat} {errors'' : List ValidationError}
    (h : Grown failures errors failures' errors') (h' : Grown failures' errors' failures'' errors'') :
    Grown failures errors failures'' errors'' :=
  ⟨Nat.le_trans h.failures h'.failures, h.errors.trans h'.errors⟩

theorem prefix_addAll (firstOnly : Bool) (errors more : List ValidationError) :
    errors <+: Reports.addAll firstOnly errors more := by
  cases firstOnly
  · rw [Reports.addAll_false]
    exact List.prefix_append _ _
  · rw [Reports.addAll_true]
    cases errors
    · exact List.nil_prefix
    · exact List.prefix_rfl

theorem Grown.add (firstOnly : Bool) (errors more : List ValidationError) :
    Grown failures errors failures (Reports.addAll firstOnly errors more) :=
  ⟨Nat.le_refl _, prefix_addAll firstOnly errors more⟩

theorem Grown.fail (firstOnly : Bool) (errors more : List ValidationError) :
    Grown failures errors (failures + 1) (Reports.addAll firstOnly errors more) :=
  ⟨Nat.le_succ _, prefix_addAll firstOnly errors more⟩

theorem Past.grown {failures'' : Nat} {errors'' : List ValidationError}
    (h : Past failures errors failures' errors') (grown : Grown failures' errors' failures'' errors'') :
    Past failures errors failures'' errors'' := by
  obtain ⟨more, rfl⟩ := grown.errors
  refine ⟨h.failed, Nat.lt_of_lt_of_le h.failed' grown.failures, ?_, h.cut.append_right h.found more⟩
  simp [h.found]

section Items

variable {a b : Part} {l : Location} {r r' : Report} {rules rules' : ItemRules}

theorem ItemState.take_grown (st : ItemState) (rules : ItemRules) (l : Location) (r : Report) :
    Grown st.failures st.errors (st.take rules l r).failures (st.take rules l r).errors := by
  unfold ItemState.take
  split
  · exact .fail _ _ _
  · dsimp only
    split
    · split
      · exact .add _ _ _
      · exact (Grown.add _ _ _).trans (.fail _ _ _)
    · exact .add _ _ _

theorem items_grown {list : List Value} {i : Nat} {st out : ItemState}
    (run : items rules a l i st list = some out) :
    Grown st.failures st.errors out.failures out.errors := by
  induction list generalizing i st with
  | nil =>
    obtain rfl := Option.some.inj run
    exact .refl
  | cons v rest ih =>
    rw [items] at run
    split at run
    · obtain rfl := Option.some.inj run
      exact .refl
    · rcases hr : a (l.atIndex i) v with _ | r <;> simp only [hr] at run
      · cases run
      · exact (st.take_grown _ _ _).trans (ih run)

structure ItemRules.Sooner (rules rules' : ItemRules) : Prop where
  sooner : rules.firstOnly = true ∨ rules'.firstOnly = false ∧ rules.limit ≤ rules'.limit
  positive : 0 < rules.limit
  positive' : 0 < rules'.limit
  unique : rules.unique = rules'.unique
  dropsDuplicates : rules.dropsDuplicates = rules'.dropsDuplicates

inductive ItemState.Tandem (rules : ItemRules) (st st' : ItemState) : Prop
  | abreast (h : Abreast st.failures st.errors st'.failures st'.errors)
      (output : st.output = st'.output) (seen : st.seen = st'.seen) : ItemState.Tandem rules st st'
  | past (stopped : stops rules.firstOnly rules.limit st.failures st.errors = true)
      (h : Past st.failures st.errors st'.failures st'.errors) : ItemState.Tandem rules st st'

theorem ItemState.take_abreast (hs : rules.Sooner rules') {st st' : ItemState}
    (h : Abreast st.failures st.errors st'.failures st'.errors) (output : st.output = st'.output)
    (seen : st.seen = st'.seen) (cut : r.Cut r') (settled : r'.Settled False) :
    ItemState.Tandem rules (st.take rules l r) (st'.take rules' l r') := by
  have sooner : rules.firstOnly = true ∨ rules'.firstOnly = false := hs.sooner.imp id And.left
  obtain ⟨kept, texts, failures, errors⟩ := st
  obtain ⟨kept', texts', failures', errors'⟩ := st'
  obtain rfl : kept = kept' := output
  obtain rfl : texts = texts' := seen
  unfold ItemState.take
  rw [cut.output]
  rcases ho : r'.output with _ | v
  · have ne : r'.errors ≠ [] := fun he => by simpa [ho] using settled.decided.mp he
    exact .abreast (h.fail sooner cut.errors ne) rfl rfl
  -- With an output there are no problems in either report, so both loops do the same.
  · have clean' : r'.errors = [] := settled.decided.mpr (by simp [ho])
    have clean : r.errors = [] := cut.errors.eq_nil_iff.mpr clean'
    simp only [clean, clean', Reports.addAll_nil, hs.unique, hs.dropsDuplicates]
    split
    · split
      · exact .abreast h rfl rfl
      · exact .abreast (h.fail sooner (.refl _) (List.cons_ne_nil _ _)) rfl rfl
    · exact .abreast h rfl rfl

theorem items_lead (hs : rules.Sooner rules') (hp : a.Leads b) {list : List Value} {i : Nat}
    {st st' out' : ItemState} (h : ItemState.Tandem rules st st')
    (run : items rules' b l i st' list = some out') :
    ∃ out, items rules a l i st list = some out ∧ ItemState.Tandem rules out out' := by
  induction list generalizing i st st' with
  | nil =>
    obtain rfl := Option.some.inj run
    exact ⟨st, rfl, h⟩
  | cons v rest ih =>
    -- Where the first loop stops, it leaves the second one to report more of the same.
    have stay (stopped : stops rules.firstOnly rules.limit st.failures st.errors = true)
        (past : Past st.failures st.errors st'.failures st'.errors) :
        ∃ out, items rules a l i st (v :: rest) = some out ∧ ItemState.Tandem rules out out' :=
      ⟨st, by rw [items, if_pos stopped], .past stopped (past.grown (items_grown run))⟩
    cases h with
    | past stopped past => exact stay stopped past
    | abreast h output seen =>
      by_cases stopped : stops rules.firstOnly rules.limit st.failures st.errors = true
      · exact stay stopped (h.past hs.positive stopped)
      · have goes : ¬stops rules'.firstOnly rules'.limit st'.failures st'.errors = true :=
          fun stopped' => stopped (h.stops_of_stops hs.sooner hs.positive' stopped')
        rw [items, if_neg goes] at run
        rw [items, if_neg stopped]
        rcases hr : b (l.atIndex i) v with _ | r' <;> simp only [hr] at run
        · cases run
        · obtain ⟨settled, r, hr, cut⟩ := hp _ _ _ hr
          simp only [hr]
          exact ih (ItemState.take_abreast hs h output seen cut settled) run

theorem finishArray_cut {ρ : Type} (f : ArrayFacets ρ) {st st' : ItemState}
    (h : ItemState.Tandem rules st st') : (finishArray f l st).Cut (finishArray f l st') := by
  cases h with
  | past _ h =>
    rw [finishArray, finishArray, if_pos h.failed, if_pos h.failed']
    exact ⟨rfl, h.cut⟩
  | abreast h output _ =>
    rw [finishArray, finishArray, h.same, output]
    split
    · exact ⟨rfl, h.cut⟩
    · split
      · exact .refl _
      · exact ⟨rfl, h.cut⟩

end Items

section Keys

variable {l : Location} {r r' : Report} {rules rules' : KeyRules} {key : String}

theorem KeyState.take_grown (st : KeyState) (firstOnly : Bool) (key : String) (r : Report) :
    Grown st.failures st.errors (st.take firstOnly key r).failures (st.take firstOnly key r).errors := by
  unfold KeyState.take
  split
  · exact .fail _ _ _
  · exact .add _ _ _

theorem KeyState.undeclared_grown (st : KeyState) (rules : KeyRules) (l : Location) (key : String)
    (v : Value) :
    Grown st.failures st.errors (st.undeclared rules l key v).failures
      (st.undeclared rules l key v).errors := by
  unfold KeyState.undeclared
  split
  · exact .refl
  · split
    · exact .refl
    · exact st.take_grown _ _ _

theorem givenKeys_grown {fields : List (String × Value)} {st out : KeyState}
    (run : givenKeys rules l st fields = some out) :
    Grown st.failures st.errors out.failures out.errors := by
  induction fields generalizing st with
  | nil =>
    obtain rfl := Option.some.inj run
    exact .refl
  | cons e rest ih =>
    obtain ⟨key, v⟩ := e
    rw [givenKeys] at run
    split at run
    · obtain rfl := Option.some.inj run
      exact .refl
    · rcases hk : Keyed.get? rules.properties key with _ | p <;> simp only [hk] at run
      · exact (st.undeclared_grown _ _ _ _).trans (ih run)
      · rcases hr : givenProperty p (l.atKey key) v with _ | r <;> simp only [hr] at run
        · cases run
        · exact (st.take_grown _ _ _).trans (ih run)

theorem absentKeys_grown {given : Keyed Value} {properties : Keyed PropertyRule} {st out : KeyState}
    (run : absentKeys rules l given st properties = some out) :
    Grown st.failures st.errors out.failures out.errors := by
  induction properties generalizing st with
  | nil =>
    obtain rfl := Option.some.inj run
    exact .refl
  | cons e rest ih =>
    obtain ⟨key, p⟩ := e
    rw [absentKeys] at run
    split at run
    · obtain rfl := Option.some.inj run
      exact .refl
    · split at run
      · exact ih run
      · rcases hr : p.part (l.atKey key) .undefined with _ | r <;> simp only [hr] at run
        · cases run
        · exact (st.take_grown _ _ _).trans (ih run)

structure KeyRules.Sooner (rules rules' : KeyRules) : Prop where
  sooner : rules.firstOnly = true ∨ rules'.firstOnly = false ∧ rules.limit ≤ rules'.limit
  positive : 0 < rules.limit
  positive' : 0 < rules'.limit
  properties : Keyed.Alike (PropertyRule.Alike Part.Leads) rules.properties rules'.properties
  drops : rules.drops = rules'.drops
  additional : rules.additional = rules'.additional

theorem KeyRules.Sooner.first (hs : rules.Sooner rules') :
    rules.firstOnly = true ∨ rules'.firstOnly = false := hs.sooner.imp id And.left

inductive KeyState.Tandem (rules : KeyRules) (st st' : KeyState) : Prop
  | abreast (h : Abreast st.failures st.errors st'.failures st'.errors)
      (output : st.output = st'.output) : KeyState.Tandem rules st st'
  | past (stopped : stops rules.firstOnly rules.limit st.failures st.errors = true)
      (h : Past st.failures st.errors st'.failures st'.errors) : KeyState.Tandem rules st st'

theorem KeyState.take_abreast (hs : rules.Sooner rules') {st st' : KeyState}
    (h : Abreast st.failures st.errors st'.failures st'.errors) (output : st.output = st'.output)
    (cut : r.Cut r') (settled : r'.Settled False) :
    KeyState.Tandem rules (st.take rules.firstOnly key r) (st'.take rules'.firstOnly key r') := by
  unfold KeyState.take
  rw [cut.output, output]
  rcases ho : r'.output with _ | v
  · have ne : r'.errors ≠ [] := fun he => by simpa [ho] using settled.decided.mp he
    exact .abreast (h.fail hs.first cut.errors ne) rfl
  · have clean' : r'.errors = [] := settled.decided.mpr (by simp [ho])
    have clean : r.errors = [] := cut.errors.eq_nil_iff.mpr clean'
    simp only [clean, clean', Reports.addAll_nil]
    exact .abreast h rfl

theorem KeyState.undeclared_abreast (hs : rules.Sooner rules') {st st' : KeyState}
    (h : Abreast st.failures st.errors st'.failures st'.errors) (output : st.output = st'.output)
    (v : Value) :
    KeyState.Tandem rules (st.undeclared rules l key v) (st'.undeclared rules' l key v) := by
  unfold KeyState.undeclared
  rw [hs.drops, hs.additional, output]
  split
  · exact .abreast h output
  · split
    · exact .abreast h rfl
    · exact take_abreast hs h output (.refl _) (Report.settled_reject _ _ _)

theorem givenProperty_leads {p q : PropertyRule} (h : PropertyRule.Alike Part.Leads p q) :
    Part.Leads (givenProperty p) (givenProperty q) := by
  intro l v r' run
  unfold givenProperty at run ⊢
  rw [h.ignored, h.hasDefault]
  split at run
  · obtain rfl := Option.some.inj run
    exact ⟨Report.settled_accept _ _, _, if_pos ‹_›, .refl _⟩
  · rw [if_neg ‹_›]
    exact h.part _ _ _ run

theorem givenKeys_lead (hs : rules.Sooner rules') {fields : List (String × Value)}
    {st st' out' : KeyState} (h : KeyState.Tandem rules st st')
    (run : givenKeys rules' l st' fields = some out') :
    ∃ out, givenKeys rules l st fields = some out ∧ KeyState.Tandem rules out out' := by
  induction fields generalizing st st' with
  | nil =>
    obtain rfl := Option.some.inj run
    exact ⟨st, rfl, h⟩
  | cons e rest ih =>
    obtain ⟨key, v⟩ := e
    have stay (stopped : stops rules.firstOnly rules.limit st.failures st.errors = true)
        (past : Past st.failures st.errors st'.failures st'.errors) :
        ∃ out, givenKeys rules l st ((key, v) :: rest) = some out ∧
          KeyState.Tandem rules out out' :=
      ⟨st, by rw [givenKeys, if_pos stopped], .past stopped (past.grown (givenKeys_grown run))⟩
    cases h with
    | past stopped past => exact stay stopped past
    | abreast h output =>
      by_cases stopped : stops rules.firstOnly rules.limit st.failures st.errors = true
      · exact stay stopped (h.past hs.positive stopped)
      · have goes : ¬stops rules'.firstOnly rules'.limit st'.failures st'.errors = true :=
          fun stopped' => stopped (h.stops_of_stops hs.sooner hs.positive' stopped')
        rw [givenKeys, if_neg goes] at run
        rw [givenKeys, if_neg stopped]
        have found := hs.properties.get? key
        generalize Keyed.get? rules.properties key = p, Keyed.get? rules'.properties key = q
          at found run ⊢
        cases found with
        | none => exact ih (KeyState.undeclared_abreast hs h output v) run
        | @some p q found =>
          dsimp only at run ⊢
          rcases hr : givenProperty q (l.atKey key) v with _ | r' <;> simp only [hr] at run
          · cases run
          · obtain ⟨settled, r, hr, cut⟩ := givenProperty_leads found _ _ _ hr
            simp only [hr]
            exact ih (KeyState.take_abreast hs h output cut settled) run

theorem absentKeys_lead (hs : rules.Sooner rules') {given : Keyed Value}
    {properties properties' : Keyed PropertyRule}
    (hp : Keyed.Alike (PropertyRule.Alike Part.Leads) properties properties')
    {st st' out' : KeyState} (h : KeyState.Tandem rules st st')
    (run : absentKeys rules' l given st' properties' = some out') :
    ∃ out, absentKeys rules l given st properties = some out ∧ KeyState.Tandem rules out out' := by
  induction hp generalizing st st' with
  | nil =>
    obtain rfl := Option.some.inj run
    exact ⟨st, rfl, h⟩
  | @cons e e' rest rest' he _ ih =>
    obtain ⟨key, p⟩ := e
    obtain ⟨key', q⟩ := e'
    obtain ⟨rfl, he⟩ : key = key' ∧ PropertyRule.Alike Part.Leads p q := he
    have stay (stopped : stops rules.firstOnly rules.limit st.failures st.errors = true)
        (past : Past st.failures st.errors st'.failures st'.errors) :
        ∃ out, absentKeys rules l given st ((key, p) :: rest) = some out ∧
          KeyState.Tandem rules out out' :=
      ⟨st, by rw [absentKeys, if_pos stopped], .past stopped (past.grown (absentKeys_grown run))⟩
    cases h with
    | past stopped past => exact stay stopped past
    | abreast h output =>
      by_cases stopped : stops rules.firstOnly rules.limit st.failures st.errors = true
      · exact stay stopped (h.past hs.positive stopped)
      · have goes : ¬stops rules'.firstOnly rules'.limit st'.failures st'.errors = true :=
          fun stopped' => stopped (h.stops_of_stops hs.sooner hs.positive' stopped')
        rw [absentKeys, if_neg goes, ← he.required, ← he.hasDefault] at run
        rw [absentKeys, if_neg stopped]
        split at run
        · rw [if_pos ‹_›]
          exact ih (.abreast h output) run
        · rw [if_neg ‹_›]
          rcases hr : q.part (l.atKey key) .undefined with _ | r' <;> simp only [hr] at run
          · cases run
          · obtain ⟨settled, r, hr, cut⟩ := he.part _ _ _ hr
            simp only [hr]
            exact ih (KeyState.take_abreast hs h output cut settled) run

theorem finishObject_cut {ρ : Type} (f : ObjectFacets ρ) {given : Keyed Value} {st st' : KeyState}
    (h : KeyState.Tandem rules st st') :
    (finishObject f l given st).Cut (finishObject f l given st') := by
  cases h with
  | past _ h =>
    rw [finishObject, finishObject, if_pos h.failed, if_pos h.failed']
    exact ⟨rfl, h.cut⟩
  | abreast h output =>
    rw [finishObject, finishObject, h.same, output]
    split
    · exact ⟨rfl, h.cut⟩
    · split
      · exact .refl _
      · exact ⟨rfl, h.cut⟩

theorem keys_cut {ρ : Type} (f : ObjectFacets ρ) (hs : rules.Sooner rules') {given : Keyed Value}
    (run : keys f rules' l given = some r') : ∃ r, keys f rules l given = some r ∧ r.Cut r' := by
  obtain ⟨st', first', run⟩ := Option.bind_eq_some_iff.mp run
  obtain ⟨out', second', rfl⟩ := Option.map_eq_some_iff.mp run
  obtain ⟨st, first, h⟩ := givenKeys_lead hs (.abreast .start rfl) first'
  obtain ⟨out, second, h⟩ := absentKeys_lead hs hs.properties h second'
  refine ⟨_, ?_, finishObject_cut f h⟩
  exact Option.bind_eq_some_iff.mpr ⟨st, first, Option.map_eq_some_iff.mpr ⟨out, second, rfl⟩⟩

end Keys

section Unions

variable {l : Location} {v : Value} {r' : Report}

theorem candidate_lead {c d : Candidate} (h : Candidate.Alike Part.Leads c d)
    {out' : Except (List ValidationError) (Option Value)} (run : candidate d l v = some out') :
    (∃ w, candidate c l v = some (.ok w) ∧ out' = .ok w) ∨
      ∃ errors errors', candidate c l v = some (.error errors) ∧ out' = .error errors' ∧
        Reports.Cut errors errors' := by
  rw [candidate_eq] at run ⊢
  obtain ⟨trial', first', run⟩ := Option.bind_eq_some_iff.mp run
  obtain ⟨trial, first, cut⟩ : ∃ trial, c.trial l v = some trial ∧ trial.Cut trial' := by
    have h := h.precheck
    unfold Candidate.trial at first' ⊢
    generalize c.precheck = before, d.precheck = after at h first' ⊢
    cases h with
    | none => exact ⟨trial', first', .refl _⟩
    | some h => exact (h _ _ _ first').2
  rw [first, Option.bind_some, cut.errors.isEmpty_eq]
  split at run
  · rw [if_pos ‹_›]
    obtain ⟨r', hr', rfl⟩ := Option.map_eq_some_iff.mp run
    obtain ⟨-, r, hr, cut⟩ := h.part _ _ _ hr'
    rw [hr, Option.map_some, verdict, verdict, cut.errors.isEmpty_eq, cut.output]
    split
    · exact .inl ⟨_, rfl, rfl⟩
    · exact .inr ⟨_, _, rfl, rfl, cut.errors⟩
  · rw [if_neg ‹_›]
    obtain rfl := Option.some.inj run
    exact .inr ⟨_, _, rfl, rfl, cut.errors⟩

theorem firstMatch_cut (sooner : firstOnly = true ∨ firstOnly' = false) {cs ds : List Candidate}
    (h : List.Forall₂ (Candidate.Alike Part.Leads) cs ds) {last last' : List ValidationError}
    (cut : Reports.Cut last last') (run : firstMatch firstOnly' l v last' ds = some r') :
    ∃ r, firstMatch firstOnly l v last cs = some r ∧ r.Cut r' := by
  induction h generalizing last last' with
  | nil =>
    obtain rfl := Option.some.inj run
    refine ⟨_, rfl, ?_⟩
    rw [cut.isEmpty_eq]
    split
    · exact .refl _
    · exact ⟨rfl, (Reports.Cut.refl []).addAll sooner cut⟩
  | @cons c d _ _ hcd _ ih =>
    rw [firstMatch] at run ⊢
    rcases hd : candidate d l v with _ | out' <;> simp only [hd] at run
    · cases run
    · obtain ⟨w, hc, rfl⟩ | ⟨errors, errors', hc, rfl, cut⟩ := candidate_lead hcd hd
      · obtain rfl := Option.some.inj run
        exact ⟨_, by simp only [hc], .refl _⟩
      · simp only [hc]
        exact ih cut run

end Unions

end Check

end Schemata

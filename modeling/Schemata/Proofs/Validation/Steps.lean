import Schemata.Proofs.Validation.Composite

/-! Runs are monotone in the number of steps, since every combination of checks is monotone in the
checks of the parts. -/

namespace Schemata.Check

def Part.KeptBy (a b : Part) : Prop := ∀ l v r, a l v = some r → b l v = some r

section Combinations

variable {a b : Part} {l : Location} {v : Value} {r : Report}

theorem items_kept (h : a.KeptBy b) {rules : ItemRules} {list : List Value} {i : Nat}
    {st out : ItemState} (run : items rules a l i st list = some out) :
    items rules b l i st list = some out := by
  induction list generalizing i st with
  | nil => exact run
  | cons v rest ih =>
    rw [items] at run ⊢
    split at run
    · rwa [if_pos ‹_›]
    · rw [if_neg ‹_›]
      rcases hr : a (l.atIndex i) v with _ | r
      · simp only [hr] at run
        cases run
      · simp only [hr] at run
        simp only [h _ _ _ hr]
        exact ih run

theorem array_kept (h : a.KeptBy b) {ρ : Type} {f : ArrayFacets ρ} {o : ValidationOptions}
    {firstOnly : Bool} (run : array f o firstOnly a l v = some r) :
    array f o firstOnly b l v = some r := by
  rw [array_eq] at run ⊢
  rcases hi : itemsOf? o v with _ | list <;> rw [hi] at run
  · exact run
  · obtain ⟨st, hst, rfl⟩ := Option.map_eq_some_iff.mp run
    exact Option.map_eq_some_iff.mpr ⟨st, items_kept h hst, rfl⟩

theorem givenProperty_kept {p q : PropertyRule} (h : PropertyRule.Alike Part.KeptBy p q)
    (run : givenProperty p l v = some r) : givenProperty q l v = some r := by
  unfold givenProperty at run ⊢
  rw [← h.ignored, ← h.hasDefault]
  split at run
  · rwa [if_pos ‹_›]
  · rw [if_neg ‹_›]
    exact h.part _ _ _ run

variable {rules rules' : KeyRules}

theorem givenKeys_kept {fields : List (String × Value)} {st out : KeyState}
    (run : givenKeys rules l st fields = some out)
    (properties : Keyed.Alike (PropertyRule.Alike Part.KeptBy) rules.properties rules'.properties)
    (firstOnly : rules.firstOnly = rules'.firstOnly) (limit : rules.limit = rules'.limit)
    (drops : rules.drops = rules'.drops) (additional : rules.additional = rules'.additional) :
    givenKeys rules' l st fields = some out := by
  induction fields generalizing st with
  | nil => exact run
  | cons e rest ih =>
    obtain ⟨key, v⟩ := e
    rw [givenKeys] at run ⊢
    rw [← firstOnly, ← limit]
    split at run
    · rwa [if_pos ‹_›]
    · rw [if_neg ‹_›]
      have found := properties.get? key
      generalize Keyed.get? rules.properties key = p, Keyed.get? rules'.properties key = q
        at found run ⊢
      cases found with
      | none =>
        have undeclared : st.undeclared rules' l key v = st.undeclared rules l key v := by
          simp only [KeyState.undeclared, firstOnly, drops, additional]
        dsimp only at run ⊢
        rw [undeclared]
        exact ih run
      | @some p q found =>
        dsimp only at run ⊢
        rcases hr : givenProperty p (l.atKey key) v with _ | r
        · simp only [hr] at run
          cases run
        · simp only [hr] at run
          simp only [givenProperty_kept found hr]
          exact ih run

theorem absentKeys_kept {given : Keyed Value} {properties properties' : Keyed PropertyRule}
    {st out : KeyState} (run : absentKeys rules l given st properties = some out)
    (h : Keyed.Alike (PropertyRule.Alike Part.KeptBy) properties properties')
    (firstOnly : rules.firstOnly = rules'.firstOnly) (limit : rules.limit = rules'.limit) :
    absentKeys rules' l given st properties' = some out := by
  induction h generalizing st with
  | nil => exact run
  | @cons e e' _ _ he _ ih =>
    obtain ⟨key, p⟩ := e
    obtain ⟨key', q⟩ := e'
    obtain ⟨rfl, he⟩ : key = key' ∧ PropertyRule.Alike Part.KeptBy p q := he
    rw [absentKeys] at run ⊢
    rw [← firstOnly, ← limit, ← he.required, ← he.hasDefault]
    split at run
    · rwa [if_pos ‹_›]
    · rw [if_neg ‹_›]
      split at run
      · rw [if_pos ‹_›]
        exact ih run
      · rw [if_neg ‹_›]
        rcases hr : p.part (l.atKey key) .undefined with _ | r
        · simp only [hr] at run
          cases run
        · simp only [hr] at run
          simp only [he.part _ _ _ hr]
          exact ih run

theorem object_kept {ρ : Type} {f : ObjectFacets ρ} {name : Option String} {o : ValidationOptions}
    {firstOnly : Bool} {properties properties' : Keyed PropertyRule}
    (h : Keyed.Alike (PropertyRule.Alike Part.KeptBy) properties properties')
    (run : object f name o firstOnly properties l v = some r) :
    object f name o firstOnly properties' l v = some r := by
  rw [object_eq] at run ⊢
  cases v with
  | object given =>
    dsimp only at run ⊢
    rcases hd : discriminated f name l given with _ | report <;> rw [hd] at run
    · obtain ⟨st, first, run⟩ := Option.bind_eq_some_iff.mp run
      obtain ⟨st', second, rfl⟩ := Option.map_eq_some_iff.mp run
      have first : givenKeys (keyRules f o firstOnly properties') l .start given = some st :=
        givenKeys_kept first h rfl rfl rfl rfl
      have second : absentKeys (keyRules f o firstOnly properties') l given st properties' =
          some st' := absentKeys_kept second h rfl rfl
      exact Option.bind_eq_some_iff.mpr ⟨st, first, Option.map_eq_some_iff.mpr ⟨st', second, rfl⟩⟩
    · exact run
  | _ => exact run

theorem trial_kept {c d : Candidate} (h : Candidate.Alike Part.KeptBy c d)
    (run : c.trial l v = some r) : d.trial l v = some r := by
  have h := h.precheck
  unfold Candidate.trial at run ⊢
  generalize c.precheck = before, d.precheck = after at h run ⊢
  cases h with
  | none => exact run
  | some h => exact h _ _ _ run

theorem candidate_kept {c d : Candidate} (h : Candidate.Alike Part.KeptBy c d)
    {out : Except (List ValidationError) (Option Value)} (run : candidate c l v = some out) :
    candidate d l v = some out := by
  rw [candidate_eq] at run ⊢
  obtain ⟨trial, first, run⟩ := Option.bind_eq_some_iff.mp run
  refine Option.bind_eq_some_iff.mpr ⟨trial, trial_kept h first, ?_⟩
  split at run
  · rw [if_pos ‹_›]
    obtain ⟨r, hr, rfl⟩ := Option.map_eq_some_iff.mp run
    exact Option.map_eq_some_iff.mpr ⟨r, h.part _ _ _ hr, rfl⟩
  · rwa [if_neg ‹_›]

theorem firstMatch_kept {firstOnly : Bool} {cs ds : List Candidate}
    (h : List.Forall₂ (Candidate.Alike Part.KeptBy) cs ds) {last : List ValidationError}
    (run : firstMatch firstOnly l v last cs = some r) : firstMatch firstOnly l v last ds = some r := by
  induction h generalizing last with
  | nil => exact run
  | @cons c d _ _ hcd _ ih =>
    rw [firstMatch] at run ⊢
    rcases hc : candidate c l v with _ | (errors | output)
    · simp only [hc] at run
      cases run
    · simp only [hc] at run
      simp only [candidate_kept hcd hc]
      exact ih run
    · simp only [hc] at run
      simp only [candidate_kept hcd hc]
      exact run

end Combinations

variable {g : Graph} {firstOnly : Bool} {o : ValidationOptions} {n : Node}

theorem guarded_kept {a b : Part} (h : a.KeptBy b) (acceptsNil : Bool) :
    (guarded n acceptsNil o a).KeptBy (guarded n acceptsNil o b) := by
  intro l v r run
  rw [guarded_eq] at run ⊢
  split_ifs at run ⊢
  · exact run
  · exact h _ _ _ run
  · exact run

theorem shape_kept {run run' : Node → Part} (h : ∀ n, (run n).KeptBy (run' n)) :
    (shape g firstOnly o run n).KeptBy (shape g firstOnly o run' n) := by
  intro l v r decided
  unfold shape at decided ⊢
  rcases hs : n.shape with _ | _ | _ | _ | _ | _ | f | f | _ <;> rw [hs] at decided
  case array =>
    refine array_kept ?_ decided
    rcases f.items with _ | item
    · exact fun _ _ _ h => h
    · exact h _
  case object => exact object_kept (propertyRules_alike rfl h f.properties) decided
  all_goals exact decided

theorem run_kept_succ (fuel : Nat) : ∀ (o : ValidationOptions) n,
    (run g firstOnly fuel o n).KeptBy (run g firstOnly (fuel + 1) o n) := by
  induction fuel with
  | zero =>
    intro o n l v r h
    cases h
  | succ fuel ih =>
    intro o n
    rw [run_succ, run_succ]
    split
    · exact guarded_kept (shape_kept (ih o)) _
    · exact guarded_kept (ih o _) _
    · exact guarded_kept (fun l v r h =>
        firstMatch_kept (candidates_alike (ih o) (ih o.precheck) _) h) _

/-- A report is kept with more steps. -/
theorem run_mono {fuel fuel' : Nat} (le : fuel ≤ fuel') (o : ValidationOptions) (n : Node) :
    (run g firstOnly fuel o n).KeptBy (run g firstOnly fuel' o n) := by
  induction le with
  | refl => exact fun _ _ _ h => h
  | step _ ih => exact fun l v r h => run_kept_succ _ o n l v r (ih l v r h)

theorem unique_of_kept {α : Type} (decision : Nat → Option α)
    (kept : ∀ {i j a}, i ≤ j → decision i = some a → decision j = some a) {i j : Nat} {a b : α}
    (ha : decision i = some a) (hb : decision j = some b) : a = b := by
  rcases Nat.le_total i j with le | le
  · exact Option.some.inj ((kept le ha).symm.trans hb)
  · exact Option.some.inj (ha.symm.trans (kept le hb))

theorem run_unique {fuel fuel' : Nat} {l : Location} {v : Value} {r r' : Report}
    (h : run g firstOnly fuel o n l v = some r) (h' : run g firstOnly fuel' o n l v = some r') :
    r = r' :=
  unique_of_kept (fun fuel => run g firstOnly fuel o n l v) (fun le => run_mono le o n l v _) h h'

end Schemata.Check

import Schemata.Proofs.Keyed
import Schemata.Proofs.Validation.Calls
import Schemata.Proofs.Validation.Tandem

/-! Accepting runs. A loop without errors has accepted each part seen so far, so an accepting run is
inverted into accepting runs of the parts, and assembled from them. -/

namespace Schemata

theorem Report.Settled.eq_accept {single : Prop} {r : Report} (h : r.Settled single)
    (clean : r.errors = []) : ∃ w, r = .accept w := by
  obtain ⟨output, errors⟩ := r
  obtain ⟨w, found⟩ := Option.isSome_iff_exists.mp (h.decided.mp clean)
  obtain rfl : errors = [] := clean
  obtain rfl : output = some w := found
  exact ⟨w, rfl⟩

theorem Report.accept_inj {v w : Value} : accept v = accept w ↔ v = w := by
  simp only [accept, mk.injEq, Option.some.injEq, and_true]

theorem Report.reject_ne_accept {l : Location} {f : Fault} {w : Value} : reject l f ≠ accept w := by
  intro h
  cases congrArg Report.output h

def Value.present? (v : Value) : Option Value := if v.isUndefined then none else some v

namespace Check

variable {g : Graph} {firstOnly : Bool} {fuel : Nat} {o : ValidationOptions} {n : Node}
  {l : Location} {v w : Value} {part : Part}

theorem wrongType_ne_accept {expected : String} : wrongType l expected v ≠ .accept w :=
  Report.reject_ne_accept

theorem wrongCount_ne_accept {subject : RangeSubject} {count : Nat} {min max : Option Nat} :
    wrongCount l subject count min max ≠ .accept w :=
  Report.reject_ne_accept

def Clean (failures : Nat) (errors : List ValidationError) : Prop := failures = 0 ∧ errors = []

theorem Clean.goes {failures limit : Nat} {errors : List ValidationError}
    (clean : Clean failures errors) (positive : 0 < limit) :
    stops firstOnly limit failures errors = false := by
  obtain ⟨rfl, rfl⟩ := clean
  have room : ¬limit ≤ 0 := Nat.not_le.mpr positive
  simp only [stops, Reports.isOver, decide_eq_false room, List.isEmpty_nil, Bool.not_true,
    Bool.and_false, Bool.or_self]

theorem Grown.clean {failures failures' : Nat} {errors errors' : List ValidationError}
    (grown : Grown failures errors failures' errors') (clean : Clean failures' errors') :
    Clean failures errors := by
  obtain ⟨rfl, rfl⟩ := clean
  exact ⟨Nat.le_zero.mp grown.failures, List.prefix_nil.mp grown.errors⟩

/-! Items. -/

section Items

variable {rules : ItemRules} {st out : ItemState} {i : Nat} {rest : List Value}

def ItemState.Clean (st : ItemState) : Prop := Check.Clean st.failures st.errors

def ItemState.push (st : ItemState) (rules : ItemRules) (w : Value) : ItemState :=
  { st with
    output := st.output ++ [w]
    seen := if rules.unique then w.json :: st.seen else st.seen }

def ItemState.keep (st : ItemState) (rules : ItemRules) (w : Value) : ItemState :=
  if rules.unique && st.seen.contains w.json then st else st.push rules w

theorem ItemState.take_accept (st : ItemState) (rules : ItemRules) (l : Location) (w : Value) :
    st.take rules l (.accept w) =
      if rules.unique && st.seen.contains w.json && !rules.dropsDuplicates then
        st.fail rules.firstOnly [⟨l, .duplicateItem w⟩]
      else st.keep rules w := by
  unfold ItemState.take ItemState.keep ItemState.push Report.accept
  simp only [Reports.addAll_nil]
  cases rules.unique && st.seen.contains w.json <;> cases rules.dropsDuplicates <;> rfl

theorem ItemState.Clean.keep (clean : st.Clean) (rules : ItemRules) (w : Value) :
    (st.keep rules w).Clean := by
  unfold ItemState.keep
  split
  · exact clean
  · exact clean

def ItemState.Admits (st : ItemState) (rules : ItemRules) (w : Value) : Prop :=
  (rules.unique && st.seen.contains w.json && !rules.dropsDuplicates) = false

theorem items_cons_accept (clean : st.Clean) (positive : 0 < rules.limit)
    (accepted : part (l.atIndex i) v = some (.accept w)) (admits : st.Admits rules w)
    (rest : List Value) : items rules part l i st (v :: rest) =
      items rules part l (i + 1) (st.keep rules w) rest := by
  rw [items_cons (clean.goes positive), accepted, Option.bind_some, ItemState.take_accept,
    if_neg (Bool.eq_false_iff.mp admits)]

theorem exists_of_items_cons (settled : part.Settled False) (positive : 0 < rules.limit)
    (run : items rules part l i st (v :: rest) = some out) (clean : out.Clean) :
    ∃ w, part (l.atIndex i) v = some (.accept w) ∧ st.Admits rules w ∧
      items rules part l (i + 1) (st.keep rules w) rest = some out := by
  have before : st.Clean := (items_grown run).clean clean
  rw [items_cons (before.goes positive)] at run
  obtain ⟨r, decided, run⟩ := Option.bind_eq_some_iff.mp run
  -- Failures and problems only grow, so the end without any means that there was none here.
  have taken : (st.take rules (l.atIndex i) r).Clean := (items_grown run).clean clean
  have accepts : r.errors = [] := by
    rcases ho : r.output with _ | w
    · unfold ItemState.take at taken
      rw [ho] at taken
      exact absurd taken.1 (Nat.succ_ne_zero _)
    · exact (settled _ _ _ decided).decided.mpr (by rw [ho]; rfl)
  obtain ⟨w, rfl⟩ := (settled _ _ _ decided).eq_accept accepts
  rw [ItemState.take_accept] at taken run
  split at run
  · rename_i repeated
    rw [if_pos repeated] at taken
    exact absurd taken.1 (Nat.succ_ne_zero _)
  · rename_i admits
    exact ⟨w, decided, Bool.eq_false_iff.mpr admits, run⟩

theorem finishArray_eq_accept_iff {ρ : Type} {f : ArrayFacets ρ} {st : ItemState} :
    finishArray f l st = .accept w ↔ st.Clean ∧
      outside st.output.length f.minItems f.maxItems = false ∧ w = .array st.output := by
  unfold finishArray ItemState.Clean Clean
  split
  · rename_i failed
    refine ⟨fun h => ?_, fun h => absurd h.1.1 (Nat.pos_iff_ne_zero.mp failed)⟩
    cases congrArg Report.output h
  · rename_i unfailed
    split
    · rename_i beyond
      refine ⟨fun h => absurd h wrongCount_ne_accept, fun h => ?_⟩
      rw [h.2.1] at beyond
      cases beyond
    · rename_i within
      constructor
      · intro h
        have output := Option.some.inj (congrArg Report.output h)
        have errors : st.errors = [] := congrArg Report.errors h
        exact ⟨⟨Nat.eq_zero_of_not_pos unfailed, errors⟩, Bool.eq_false_iff.mpr within, output.symm⟩
      · rintro ⟨⟨-, errors⟩, -, rfl⟩
        rw [errors]
        rfl

theorem array_eq_accept_iff {ρ : Type} {f : ArrayFacets ρ} :
    array f o firstOnly part l v = some (.accept w) ↔
      ∃ list st, itemsOf? o v = some list ∧
        items (itemRules f o firstOnly) part l 0 .start list = some st ∧ st.Clean ∧
        outside st.output.length f.minItems f.maxItems = false ∧ w = .array st.output := by
  rw [array_eq]
  constructor
  · intro h
    rcases hi : itemsOf? o v with _ | list <;> rw [hi] at h
    · exact absurd (Option.some.inj h) wrongType_ne_accept
    · obtain ⟨st, run, finished⟩ := Option.map_eq_some_iff.mp h
      exact ⟨list, st, rfl, run, finishArray_eq_accept_iff.mp finished⟩
  · rintro ⟨list, st, hi, run, finished⟩
    rw [hi]
    exact Option.map_eq_some_iff.mpr ⟨st, run, finishArray_eq_accept_iff.mpr finished⟩

theorem positive_itemRules {ρ : Type} (f : ArrayFacets ρ) (o : ValidationOptions)
    (firstOnly : Bool) : 0 < (itemRules f o firstOnly).limit :=
  Nat.lt_of_lt_of_le Nat.zero_lt_one (Nat.le_max_right _ _)

end Items

/-! Keys. -/

section Keys

variable {rules : KeyRules} {st out : KeyState} {key : String} {rest : List (String × Value)}
  {p : PropertyRule}

def KeyState.Clean (st : KeyState) : Prop := Check.Clean st.failures st.errors

def KeyState.put (st : KeyState) (key : String) (value : Option Value) : KeyState :=
  { st with output := value.elim st.output (Keyed.insert st.output key) }

theorem KeyState.take_accept (st : KeyState) (firstOnly : Bool) (key : String) (w : Value) :
    st.take firstOnly key (.accept w) = st.put key w.present? := by
  unfold KeyState.take KeyState.put Value.present?
  cases hw : w.isUndefined
  · simp only [Report.accept, hw]
    rfl
  · simp only [Report.accept, hw]
    rfl

theorem KeyState.Clean.put (clean : st.Clean) (key : String) (value : Option Value) :
    (st.put key value).Clean := clean

theorem KeyState.output_put (differ : Keyed.Distinct (st.output ++ (key, v) :: rest)) :
    (st.put key (some v)).output = st.output ++ [(key, v)] := by
  apply Keyed.insert_of_not_mem
  rw [Keyed.Distinct, Keyed.keys_append, List.nodup_append] at differ
  exact fun there => differ.2.2 key there key List.mem_cons_self rfl

theorem KeyState.eq_accept_of_take {r : Report} (settled : r.Settled False)
    (clean : (st.take firstOnly key r).Clean) : ∃ w, r = .accept w := by
  apply settled.eq_accept
  rcases ho : r.output with _ | w
  · unfold KeyState.take at clean
    rw [ho] at clean
    exact absurd clean.1 (Nat.succ_ne_zero _)
  · exact settled.decided.mpr (by rw [ho]; rfl)

/-- What becomes of a key that is there: it is dropped, it stays as it is, or its property accepts
the value. -/
inductive Treats (rules : KeyRules) (l : Location) (key : String) (v : Value) : Option Value → Prop
  | dropped (undeclared : Keyed.get? rules.properties key = none) (drops : rules.drops = true) :
      Treats rules l key v none
  | kept (undeclared : Keyed.get? rules.properties key = none) (stays : rules.drops = false)
      (additional : rules.additional = true) : Treats rules l key v (some v)
  | declared {p : PropertyRule} {w : Value} (found : Keyed.get? rules.properties key = some p)
      (accepted : givenProperty p (l.atKey key) v = some (.accept w)) :
      Treats rules l key v w.present?

theorem givenKeys_cons_accept (clean : st.Clean) (positive : 0 < rules.limit) {value : Option Value}
    (treats : Treats rules l key v value) (rest : List (String × Value)) :
    givenKeys rules l st ((key, v) :: rest) = givenKeys rules l (st.put key value) rest := by
  have goes : stops rules.firstOnly rules.limit st.failures st.errors = false :=
    clean.goes positive
  cases treats with
  | dropped undeclared drops =>
    rw [givenKeys, goes, if_neg Bool.false_ne_true, undeclared]
    dsimp only
    rw [KeyState.undeclared, if_pos drops]
    rfl
  | kept undeclared stays additional =>
    rw [givenKeys, goes, if_neg Bool.false_ne_true, undeclared]
    dsimp only
    rw [KeyState.undeclared, if_neg (Bool.eq_false_iff.mp stays), if_pos additional]
    rfl
  | declared found accepted =>
    rw [givenKeys_cons goes found, accepted, Option.bind_some, KeyState.take_accept]

theorem exists_of_givenKeys_cons
    (settled : ∀ key p, Keyed.get? rules.properties key = some p → p.part.Settled False)
    (positive : 0 < rules.limit) (run : givenKeys rules l st ((key, v) :: rest) = some out)
    (clean : out.Clean) :
    ∃ value, Treats rules l key v value ∧ givenKeys rules l (st.put key value) rest = some out := by
  have before : st.Clean := (givenKeys_grown run).clean clean
  rcases found : Keyed.get? rules.properties key with _ | p
  · rw [givenKeys, before.goes positive, if_neg Bool.false_ne_true, found] at run
    dsimp only at run
    rcases drops : rules.drops with _ | _
    · rcases additional : rules.additional with _ | _
      · have taken : (st.undeclared rules l key v).Clean := (givenKeys_grown run).clean clean
        rw [KeyState.undeclared, if_neg (Bool.eq_false_iff.mp drops),
          if_neg (Bool.eq_false_iff.mp additional)] at taken
        exact absurd taken.1 (Nat.succ_ne_zero _)
      · refine ⟨some v, .kept found drops additional, ?_⟩
        rw [KeyState.undeclared, if_neg (Bool.eq_false_iff.mp drops), if_pos additional] at run
        exact run
    · refine ⟨none, .dropped found drops, ?_⟩
      rw [KeyState.undeclared, if_pos drops] at run
      exact run
  · rw [givenKeys_cons (before.goes positive) found] at run
    obtain ⟨r, decided, run⟩ := Option.bind_eq_some_iff.mp run
    have taken : (st.take rules.firstOnly key r).Clean := (givenKeys_grown run).clean clean
    have settled := givenProperty_settled (settled key p found) _ _ _ decided
    obtain ⟨w, rfl⟩ := KeyState.eq_accept_of_take settled taken
    rw [KeyState.take_accept] at run
    exact ⟨w.present?, .declared found decided, run⟩

def PropertyRule.due (p : PropertyRule) (given : Keyed Value) (key : String) : Bool :=
  !(Keyed.hasKey given key || !(p.required || p.hasDefault))

variable {given : Keyed Value} {properties : Keyed PropertyRule}

theorem absentKeys_cons_of_not_due (clean : st.Clean) (positive : 0 < rules.limit)
    (idle : p.due given key = false) (properties : Keyed PropertyRule) :
    absentKeys rules l given st ((key, p) :: properties) =
      absentKeys rules l given st properties := by
  have skipped : (Keyed.hasKey given key || !(p.required || p.hasDefault)) = true := by
    simpa only [PropertyRule.due, Bool.not_eq_false'] using idle
  rw [absentKeys, clean.goes positive, if_neg Bool.false_ne_true, if_pos skipped]

theorem absentKeys_cons_of_due (clean : st.Clean) (positive : 0 < rules.limit)
    (due : p.due given key = true) (properties : Keyed PropertyRule) :
    absentKeys rules l given st ((key, p) :: properties) =
      (p.part (l.atKey key) .undefined).bind fun r =>
        absentKeys rules l given (st.take rules.firstOnly key r) properties := by
  have looked : (Keyed.hasKey given key || !(p.required || p.hasDefault)) = false := by
    simpa only [PropertyRule.due, Bool.not_eq_true'] using due
  rw [absentKeys, clean.goes positive, if_neg Bool.false_ne_true, looked, if_neg Bool.false_ne_true]
  rcases p.part (l.atKey key) .undefined with _ | r <;> rfl

theorem exists_of_absentKeys_cons (settled : p.part.Settled False) (positive : 0 < rules.limit)
    (run : absentKeys rules l given st ((key, p) :: properties) = some out) (clean : out.Clean)
    (due : p.due given key = true) :
    ∃ w, p.part (l.atKey key) .undefined = some (.accept w) ∧
      absentKeys rules l given (st.put key w.present?) properties = some out := by
  have before : st.Clean := (absentKeys_grown run).clean clean
  rw [absentKeys_cons_of_due before positive due] at run
  obtain ⟨r, decided, run⟩ := Option.bind_eq_some_iff.mp run
  have taken : (st.take rules.firstOnly key r).Clean := (absentKeys_grown run).clean clean
  obtain ⟨w, rfl⟩ := KeyState.eq_accept_of_take (settled _ _ _ decided) taken
  rw [KeyState.take_accept] at run
  exact ⟨w, decided, run⟩

theorem finishObject_eq_accept_iff {ρ : Type} {f : ObjectFacets ρ} {st : KeyState} :
    finishObject f l given st = .accept w ↔ st.Clean ∧
      outside given.length f.minProperties f.maxProperties = false ∧ w = .object st.output := by
  unfold finishObject KeyState.Clean Clean
  split
  · rename_i failed
    refine ⟨fun h => ?_, fun h => absurd h.1.1 (Nat.pos_iff_ne_zero.mp failed)⟩
    cases congrArg Report.output h
  · rename_i unfailed
    split
    · rename_i beyond
      refine ⟨fun h => absurd h wrongCount_ne_accept, fun h => ?_⟩
      rw [h.2.1] at beyond
      cases beyond
    · rename_i within
      constructor
      · intro h
        have output := Option.some.inj (congrArg Report.output h)
        have errors : st.errors = [] := congrArg Report.errors h
        exact ⟨⟨Nat.eq_zero_of_not_pos unfailed, errors⟩, Bool.eq_false_iff.mpr within, output.symm⟩
      · rintro ⟨⟨-, errors⟩, -, rfl⟩
        rw [errors]
        rfl

theorem object_eq_accept_iff {ρ : Type} {f : ObjectFacets ρ} {name : Option String} :
    object f name o firstOnly properties l v = some (.accept w) ↔
      ∃ given st st', v = .object given ∧ discriminated f name l given = none ∧
        givenKeys (keyRules f o firstOnly properties) l .start given = some st ∧
        absentKeys (keyRules f o firstOnly properties) l given st properties = some st' ∧
        st'.Clean ∧ outside given.length f.minProperties f.maxProperties = false ∧
        w = .object st'.output := by
  rw [object_eq]
  constructor
  · intro h
    cases v with
    | object given =>
      dsimp only at h
      rcases told : discriminated f name l given with _ | r <;> rw [told] at h
      · obtain ⟨st, first, h⟩ := Option.bind_eq_some_iff.mp h
        obtain ⟨st', second, finished⟩ := Option.map_eq_some_iff.mp h
        exact ⟨given, st, st', rfl, told, first, second, finishObject_eq_accept_iff.mp finished⟩
      · unfold discriminated at told
        have accepted : r = .accept w := Option.some.inj h
        split at told
        · cases told
        · dsimp only at told
          split at told
          · cases told
          · exact absurd ((Option.some.inj told).trans accepted) Report.reject_ne_accept
    | _ => exact absurd (Option.some.inj h) wrongType_ne_accept
  · rintro ⟨given, st, st', rfl, told, first, second, finished⟩
    dsimp only
    rw [told, Option.elim_none]
    refine Option.bind_eq_some_iff.mpr ⟨st, first, Option.map_eq_some_iff.mpr ⟨st', second, ?_⟩⟩
    exact finishObject_eq_accept_iff.mpr finished

theorem positive_keyRules {ρ : Type} (f : ObjectFacets ρ) (o : ValidationOptions)
    (firstOnly : Bool) (properties : Keyed PropertyRule) :
    0 < (keyRules f o firstOnly properties).limit :=
  Nat.lt_of_lt_of_le Nat.zero_lt_one (Nat.le_max_right _ _)

end Keys

/-! Types. -/

theorem guarded_eq_accept_iff {acceptsNil : Bool} :
    guarded n acceptsNil o part l v = some (.accept w) ↔
      (v.isMissing = true ∧ missing n acceptsNil o l v = .accept w) ∨
        (Enters n v ∧ part l v = some (.accept w)) := by
  by_cases enters : Enters n v
  · rw [guarded_of_enters enters]
    have present : ¬v.isMissing = true := Bool.eq_false_iff.mp enters.present
    exact ⟨fun h => .inr ⟨enters, h⟩, fun h => (h.resolve_left fun h => present h.1).2⟩
  · rw [guarded_eq]
    split
    · rename_i missing
      exact ⟨fun h => .inl ⟨missing, Option.some.inj h⟩,
        fun h => congrArg some (h.resolve_right fun h => enters h.1).2⟩
    · rename_i present
      rw [if_neg fun passes => enters ⟨Bool.eq_false_iff.mpr present, passes⟩]
      refine ⟨fun h => absurd (Option.some.inj h) wrongType_ne_accept, fun h => ?_⟩
      exact h.elim (fun h => absurd h.1 present) fun h => absurd h.1 enters

theorem candidate_eq_ok_iff {c : Candidate} (settled : c.part.Settled False) :
    candidate c l v = some (.ok (some w)) ↔
      (∃ trial, c.trial l v = some trial ∧ trial.errors = []) ∧ c.part l v = some (.accept w) := by
  rw [candidate_eq]
  constructor
  · intro h
    obtain ⟨trial, tried, h⟩ := Option.bind_eq_some_iff.mp h
    split at h
    · rename_i passed
      obtain ⟨r, decided, h⟩ := Option.map_eq_some_iff.mp h
      unfold verdict at h
      split at h
      · rename_i clean
        obtain ⟨w', rfl⟩ := (settled _ _ _ decided).eq_accept (List.isEmpty_iff.mp clean)
        obtain rfl : w' = w := Option.some.inj (Except.ok.inj h)
        exact ⟨⟨trial, tried, List.isEmpty_iff.mp passed⟩, decided⟩
      · cases h
    · cases h
  · rintro ⟨⟨trial, tried, passed⟩, decided⟩
    rw [tried, Option.bind_some, passed, decided]
    rfl

theorem exists_of_firstMatch {cs : List Candidate} (settled : ∀ c ∈ cs, c.part.Settled False)
    {last : List ValidationError} (h : firstMatch firstOnly l v last cs = some (.accept w)) :
    ∃ c ∈ cs, c.part l v = some (.accept w) := by
  induction cs generalizing last with
  | nil =>
    have h : _ = Report.accept w := Option.some.inj h
    split at h
    · exact absurd h Report.reject_ne_accept
    · cases congrArg Report.output h
  | cons c cs ih =>
    rw [firstMatch_cons] at h
    obtain ⟨out, tried, h⟩ := Option.bind_eq_some_iff.mp h
    rcases out with errors | output
    · obtain ⟨d, hd, accepted⟩ := ih (fun d hd => settled d (List.mem_cons_of_mem _ hd)) h
      exact ⟨d, List.mem_cons_of_mem _ hd, accepted⟩
    · obtain rfl : output = some w := congrArg Report.output (Option.some.inj h)
      have accepted := ((candidate_eq_ok_iff (settled c List.mem_cons_self)).mp tried).2
      exact ⟨c, List.mem_cons_self, accepted⟩

theorem settled_run (g : Graph) (firstOnly : Bool) (fuel : Nat) (o : ValidationOptions) (n : Node) :
    (run g firstOnly fuel o n).Settled False := fun l v r h =>
  ⟨(run_settled g firstOnly fuel o n l v r h).decided, False.elim⟩

/-- The check of the items of an array: that of their type, where they have one. -/
def itemPart (g : Graph) (run : Node → Part) : Option Ref → Part
  | some r => run (g.resolve r)
  | none => fun _ v => some (.accept v)

theorem itemPart_settled {run : Node → Part} (settled : ∀ n, (run n).Settled False)
    (items : Option Ref) : (itemPart g run items).Settled False := by
  rcases items with _ | r
  · rintro _ v _ ⟨⟩
    exact Report.settled_accept _ v
  · exact settled _

theorem shape_itemPart {f : ArrayFacets Ref} (hs : n.shape = .array f) (run : Node → Part) :
    shape g firstOnly o run n l v = array f o firstOnly (itemPart g run f.items) l v := by
  unfold shape
  rw [hs]
  dsimp only
  cases f.items <;> rfl

def takesNull (n : Node) : Bool := (n.alternatives?.getD []).any fun alt => alt.base == .nil

/-- Inversion of an accepting run: the value is missing, or it passes the guard and is accepted by
the shape or by an alternative. -/
theorem accept_cases (h : run g firstOnly (fuel + 1) o n l v = some (.accept w)) :
    (v.isMissing = true ∧ missing n (takesNull n) o l v = .accept w) ∨
      Enters n v ∧ (
        n.alternatives? = none ∧
          shape g firstOnly o (run g firstOnly fuel o) n l v = some (.accept w) ∨
        ∃ alternatives, n.alternatives? = some alternatives ∧
          ∃ alt ∈ alternatives, run g firstOnly fuel o alt l v = some (.accept w)) := by
  rcases found : n.alternatives? with _ | alternatives
  · rw [run_single found] at h
    have idle : takesNull n = false := by rw [takesNull, found]; rfl
    rw [idle]
    exact (guarded_eq_accept_iff.mp h).imp id fun h => ⟨h.1, .inl ⟨rfl, h.2⟩⟩
  · have nulls : takesNull n = alternatives.any fun alt => alt.base == .nil := by
      rw [takesNull, found]
      rfl
    rw [nulls]
    by_cases single : ∃ alt, alternatives = [alt]
    · obtain ⟨alt, rfl⟩ := single
      rw [run_only found] at h
      rw [List.any_cons, List.any_nil, Bool.or_false]
      exact (guarded_eq_accept_iff.mp h).imp id fun h =>
        ⟨h.1, .inr ⟨[alt], rfl, alt, List.mem_cons_self, h.2⟩⟩
    · have several : Several n alternatives := ⟨found, fun alt h => single ⟨alt, h⟩⟩
      rw [run_several several] at h
      refine (guarded_eq_accept_iff.mp h).imp id fun h => ⟨h.1, .inr ⟨alternatives, rfl, ?_⟩⟩
      have settled : ∀ c ∈ alternatives.map (asCandidate g firstOnly fuel o),
          c.part.Settled False := by
        intro c hc
        obtain ⟨alt, -, rfl⟩ := List.mem_map.mp hc
        exact settled_run _ _ _ _ _
      obtain ⟨c, hc, accepted⟩ := exists_of_firstMatch settled h.2
      obtain ⟨alt, ha, rfl⟩ := List.mem_map.mp hc
      exact ⟨alt, ha, accepted⟩

theorem accept_cases_of_present (present : v.isMissing = false)
    (h : run g firstOnly fuel o n l v = some (.accept w)) : Enters n v ∧ ∃ before, fuel = before + 1 ∧ (
      n.alternatives? = none ∧ shape g firstOnly o (run g firstOnly before o) n l v = some (.accept w) ∨
      ∃ alternatives, n.alternatives? = some alternatives ∧
        ∃ alt ∈ alternatives, run g firstOnly before o alt l v = some (.accept w)) := by
  cases fuel with
  | zero => cases h
  | succ before =>
    rcases accept_cases h with ⟨absent, -⟩ | ⟨enters, h⟩
    · rw [present] at absent
      cases absent
    · exact ⟨enters, before, rfl, h⟩

end Check

namespace Validator

theorem validate?_eq_ok_iff {v : Validator} {steps : Nat} {value w : Value} :
    v.validate? steps value = some (.ok w) ↔
      v.report? steps v.options.throwOnFirstError value = some (.accept w) := by
  unfold validate?
  rw [Option.map_eq_some_iff]
  constructor
  · rintro ⟨r, decided, h⟩
    split at h
    · rename_i clean
      have settled := Check.settled_run _ _ _ _ _ _ _ _ decided
      obtain ⟨w', rfl⟩ := settled.eq_accept (List.isEmpty_iff.mp clean)
      obtain rfl : w' = w := Except.ok.inj h
      exact decided
    · cases h
  · intro decided
    exact ⟨.accept w, decided, rfl⟩

end Validator
end Schemata

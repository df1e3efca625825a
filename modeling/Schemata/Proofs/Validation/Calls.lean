import Mathlib.Data.List.Induction
import Schemata.Proofs.Validation.Steps

/-! The call graph of validation. A call asks for another one behind its guard, once everything
before that other one is decided; it terminates exactly when those that it asks for do. -/

namespace Schemata.Check

structure Call where
  options : ValidationOptions
  node : Node
  location : Location
  value : Value

def Call.report? (g : Graph) (firstOnly : Bool) (fuel : Nat) (c : Call) : Option Report :=
  run g firstOnly fuel c.options c.node c.location c.value

def Call.Ends (g : Graph) (firstOnly : Bool) (c : Call) : Prop :=
  ∃ fuel r, c.report? g firstOnly fuel = some r

structure Enters (n : Node) (v : Value) : Prop where
  present : v.isMissing = false
  passes : passes n v = true

structure Several (n : Node) (alternatives : List Node) : Prop where
  found : n.alternatives? = some alternatives
  other : ∀ alt, alternatives ≠ [alt]

def Rejects (g : Graph) (firstOnly : Bool) (o : ValidationOptions) (l : Location) (v : Value)
    (alt : Node) : Prop :=
  ∃ fuel errors, candidate (asCandidate g firstOnly fuel o alt) l v = some (.error errors)

def rulesOf (g : Graph) (firstOnly : Bool) (o : ValidationOptions) (f : ObjectFacets Ref)
    (fuel : Nat) : KeyRules :=
  keyRules f o firstOnly (propertyRules g (run g firstOnly fuel o) o f.properties)

/-- The calls that a call depends on: its only alternative; one of several, after those before it
and after its pre-check; an item after the items before it; a property after the keys before it. -/
inductive Asks (g : Graph) (firstOnly : Bool) : Call → Call → Prop
  | only {o : ValidationOptions} {n alt : Node} {l : Location} {v : Value} (enters : Enters n v)
      (found : n.alternatives? = some [alt]) : Asks g firstOnly ⟨o, n, l, v⟩ ⟨o, alt, l, v⟩
  | trial {o : ValidationOptions} {n alt : Node} {before rest : List Node} {l : Location} {v : Value}
      (enters : Enters n v) (several : Several n (before ++ alt :: rest))
      (rejected : ∀ a ∈ before, Rejects g firstOnly o l v a) (needs : needsTrial alt = true) :
      Asks g firstOnly ⟨o, n, l, v⟩ ⟨o.precheck, alt, l, v⟩
  | part {o : ValidationOptions} {n alt : Node} {before rest : List Node} {l : Location} {v : Value}
      {fuel : Nat} {r : Report} (enters : Enters n v) (several : Several n (before ++ alt :: rest))
      (rejected : ∀ a ∈ before, Rejects g firstOnly o l v a)
      (tried : (asCandidate g firstOnly fuel o alt).trial l v = some r) (passed : r.errors = []) :
      Asks g firstOnly ⟨o, n, l, v⟩ ⟨o, alt, l, v⟩
  | item {o : ValidationOptions} {n : Node} {f : ArrayFacets Ref} {r : Ref} {l : Location}
      {v x : Value} {before rest : List Value} {fuel : Nat} {st : ItemState} (enters : Enters n v)
      (single : n.alternatives? = none) (shape : n.shape = .array f) (typed : f.items = some r)
      (list : itemsOf? o v = some (before ++ x :: rest))
      (done : items (itemRules f o firstOnly) (run g firstOnly fuel o (g.resolve r)) l 0 .start
        before = some st)
      (goes : stops firstOnly (itemRules f o firstOnly).limit st.failures st.errors = false) :
      Asks g firstOnly ⟨o, n, l, v⟩ ⟨o, g.resolve r, l.atIndex before.length, x⟩
  | property {o : ValidationOptions} {n : Node} {f : ObjectFacets Ref} {l : Location}
      {given before rest : List (String × Value)} {key : String} {x : Value} {p : Property Ref}
      {fuel : Nat} {st : KeyState} (enters : Enters n (.object given))
      (single : n.alternatives? = none) (shape : n.shape = .object f)
      (told : discriminated f n.name l given = none) (list : given = before ++ (key, x) :: rest)
      (declared : Keyed.get? f.properties key = some p)
      (due : (o.ignoreRequired.covers key && x.isMissing &&
        !(g.resolve p.type).header.default?.isSome) = false)
      (done : givenKeys (rulesOf g firstOnly o f fuel) l .start before = some st)
      (goes : stops firstOnly (max o.maxErrorsPerObject 1) st.failures st.errors = false) :
      Asks g firstOnly ⟨o, n, l, .object given⟩ ⟨o, g.resolve p.type, l.atKey key, x⟩

variable {g : Graph} {firstOnly : Bool} {fuel : Nat} {o : ValidationOptions} {n : Node}
  {l : Location} {v : Value}

theorem Asks.first {f : ArrayFacets Ref} {r : Ref} {x : Value} {rest : List Value}
    (enters : Enters n v) (single : n.alternatives? = none) (shape : n.shape = .array f)
    (typed : f.items = some r) (list : itemsOf? o v = some (x :: rest)) :
    Asks g firstOnly ⟨o, n, l, v⟩ ⟨o, g.resolve r, l.atIndex 0, x⟩ := by
  have goes : stops firstOnly (itemRules f o firstOnly).limit 0 [] = false := by
    have positive : ¬max o.maxErrorsPerArray 1 ≤ 0 := by omega
    simp [stops, Reports.isOver, itemRules, positive]
  have done : items (itemRules f o firstOnly) (run g firstOnly 0 o (g.resolve r)) l 0 .start [] =
      some .start := rfl
  have list : itemsOf? o v = some ([] ++ x :: rest) := list
  exact .item enters single shape typed list done goes

theorem guarded_of_enters (h : Enters n v) (acceptsNil : Bool) (part : Part) :
    guarded n acceptsNil o part l v = part l v := by
  rw [guarded_eq, if_neg (by rw [h.present]; decide), if_pos h.passes]

theorem guarded_of_not_enters (h : ¬Enters n v) (acceptsNil : Bool) (part : Part) :
    ∃ r, guarded n acceptsNil o part l v = some r := by
  rw [guarded_eq]
  by_cases missing : v.isMissing = true
  · exact ⟨_, if_pos missing⟩
  · have fails : ¬passes n v = true := fun passes => h ⟨Bool.eq_false_iff.mpr missing, passes⟩
    exact ⟨_, (if_neg missing).trans (if_neg fails)⟩

theorem run_single (single : n.alternatives? = none) :
    run g firstOnly (fuel + 1) o n =
      guarded n false o (shape g firstOnly o (run g firstOnly fuel o) n) := by
  rw [run_succ, single]

theorem run_only {alt : Node} (alternatives : n.alternatives? = some [alt]) :
    run g firstOnly (fuel + 1) o n =
      guarded n (alt.base == .nil) o (run g firstOnly fuel o alt) := by
  rw [run_succ, alternatives]

theorem run_several {alternatives : List Node} (several : Several n alternatives) :
    run g firstOnly (fuel + 1) o n =
      guarded n (alternatives.any fun alt => alt.base == .nil) o
        (union firstOnly (alternatives.map (asCandidate g firstOnly fuel o))) := by
  rw [run_succ, several.found]
  rcases alternatives with _ | ⟨a, _ | _⟩
  · rfl
  · exact absurd rfl (several.other a)
  · rfl

theorem run_of_not_enters (h : ¬Enters n v) : ∃ r, run g firstOnly (fuel + 1) o n l v = some r := by
  rw [run_succ]
  rcases n.alternatives? with _ | (_ | ⟨only, _ | _⟩) <;> exact guarded_of_not_enters h _ _

theorem run_of_default {d : Value} (default : n.header.default? = some d) (absent : v.isMissing = true) :
    run g firstOnly (fuel + 1) o n l v = some (.accept d) := by
  have accepts (acceptsNil : Bool) (part : Part) :
      guarded n acceptsNil o part l v = some (.accept d) := by
    rw [guarded_eq, if_pos absent, missing, default]
  rw [run_succ]
  rcases n.alternatives? with _ | (_ | ⟨only, _ | _⟩) <;> exact accepts _ _

theorem shape_array {f : ArrayFacets Ref} {r : Ref} (hs : n.shape = .array f)
    (typed : f.items = some r) (part : Node → Part) :
    shape g firstOnly o part n l v = array f o firstOnly (part (g.resolve r)) l v := by
  unfold shape
  rw [hs]
  dsimp only
  rw [typed]

theorem shape_object {f : ObjectFacets Ref} (hs : n.shape = .object f) (part : Node → Part) :
    shape g firstOnly o part n l v =
      object f n.name o firstOnly (propertyRules g part o f.properties) l v := by
  unfold shape
  rw [hs]
  rfl

/-! Loops over some of the items or keys, and then over the rest. -/

theorem items_append (rules : ItemRules) (part : Part) (l : Location) (before rest : List Value)
    (i : Nat) (st : ItemState) : items rules part l i st (before ++ rest) =
      (items rules part l i st before).bind fun st =>
        items rules part l (i + before.length) st rest := by
  induction before generalizing i st with
  | nil => rfl
  | cons x before ih =>
    rw [List.cons_append, items, items]
    split
    · rename_i stop
      cases rest with
      | nil => rfl
      | cons y rest => rw [Option.bind_some, items, if_pos stop]
    · rcases part (l.atIndex i) x with _ | r
      · rfl
      · dsimp only
        rw [ih, List.length_cons, Nat.add_assoc, Nat.add_comm 1]

theorem givenKeys_append (rules : KeyRules) (l : Location) (before rest : List (String × Value))
    (st : KeyState) : givenKeys rules l st (before ++ rest) =
      (givenKeys rules l st before).bind fun st => givenKeys rules l st rest := by
  induction before generalizing st with
  | nil => rfl
  | cons e before ih =>
    obtain ⟨key, x⟩ := e
    rw [List.cons_append, givenKeys, givenKeys]
    split
    · rename_i stop
      cases rest with
      | nil => rfl
      | cons e rest => rw [Option.bind_some, givenKeys, if_pos stop]
    · rcases Keyed.get? rules.properties key with _ | p
      · exact ih _
      · dsimp only
        rcases givenProperty p (l.atKey key) x with _ | r
        · rfl
        · exact ih _

theorem itemsOf?_cases {o : ValidationOptions} {v : Value} {list : List Value}
    (h : itemsOf? o v = some list) :
    v = .array list ∨ list = [v] ∧ (o.coerceTypes || !o.strictTypes) = true := by
  cases v with
  | array items => exact .inl (congrArg Value.array (Option.some.inj h))
  | _ =>
    change (if (o.coerceTypes || !o.strictTypes) = true then some [_] else none) = _ at h
    split at h
    · exact .inr ⟨(Option.some.inj h).symm, ‹_›⟩
    · cases h

theorem items_cons {rules : ItemRules} {st : ItemState}
    (goes : stops rules.firstOnly rules.limit st.failures st.errors = false) (part : Part)
    (l : Location) (i : Nat) (x : Value) (rest : List Value) :
    items rules part l i st (x :: rest) = (part (l.atIndex i) x).bind fun r =>
      items rules part l (i + 1) (st.take rules (l.atIndex i) r) rest := by
  rw [items, goes, if_neg Bool.false_ne_true]
  rcases part (l.atIndex i) x with _ | r <;> rfl

theorem givenKeys_cons {rules : KeyRules} {st : KeyState}
    (goes : stops rules.firstOnly rules.limit st.failures st.errors = false) {key : String}
    {p : PropertyRule} (found : Keyed.get? rules.properties key = some p) (l : Location) (x : Value)
    (rest : List (String × Value)) :
    givenKeys rules l st ((key, x) :: rest) = (givenProperty p (l.atKey key) x).bind fun r =>
      givenKeys rules l (st.take rules.firstOnly key r) rest := by
  rw [givenKeys, goes, if_neg Bool.false_ne_true, found]
  dsimp only
  rcases givenProperty p (l.atKey key) x with _ | r <;> rfl

theorem firstMatch_cons (last : List ValidationError) (c : Candidate) (cs : List Candidate)
    (l : Location) (v : Value) :
    firstMatch firstOnly l v last (c :: cs) = (candidate c l v).bind fun
      | .ok output => some ⟨output, []⟩
      | .error errors => firstMatch firstOnly l v errors cs := by
  rw [firstMatch]
  rcases candidate c l v with _ | (errors | output) <;> rfl

theorem get?_propertyRules (part : Node → Part) (properties : List (String × Property Ref))
    (key : String) : Keyed.get? (propertyRules g part o properties) key =
      (Keyed.get? properties key).map fun p => propertyRule o part key (g.resolve p.type) := by
  induction properties with
  | nil => rfl
  | cons e rest ih =>
    rw [propertyRules, List.map_cons, Keyed.get?, Keyed.get?]
    dsimp only
    split
    · rename_i same
      rw [same, Option.map_some]
    · exact ih

/-! With more steps, all that precedes a call stays decided in the same way. -/

section Unique

variable {fuel' : Nat}

theorem asCandidate_kept (le : fuel ≤ fuel') (alt : Node) : Candidate.Alike Part.KeptBy
    (asCandidate g firstOnly fuel o alt) (asCandidate g firstOnly fuel' o alt) :=
  asCandidate_alike (run_mono le o alt) (run_mono le o.precheck alt)

theorem givenKeys_rulesOf_kept {f : ObjectFacets Ref} {fields : List (String × Value)}
    {st out : KeyState} (le : fuel ≤ fuel')
    (h : givenKeys (rulesOf g firstOnly o f fuel) l st fields = some out) :
    givenKeys (rulesOf g firstOnly o f fuel') l st fields = some out :=
  givenKeys_kept h (propertyRules_alike rfl (run_mono le o) f.properties) rfl rfl rfl rfl

theorem Rejects.eq_error {alt : Node} {out : Except (List ValidationError) (Option Value)}
    (h : Rejects g firstOnly o l v alt)
    (run : candidate (asCandidate g firstOnly fuel o alt) l v = some out) :
    ∃ errors, out = .error errors := by
  obtain ⟨fuel', errors, h⟩ := h
  refine ⟨errors, unique_of_kept (fun fuel => candidate (asCandidate g firstOnly fuel o alt) l v) ?_
    run h⟩
  exact fun le => candidate_kept (asCandidate_kept le alt)

theorem candidate_of_rejects {before rest : List Node} {alt : Node} {r : Report}
    (rejected : ∀ a ∈ before, Rejects g firstOnly o l v a) {last : List ValidationError}
    (run : firstMatch firstOnly l v last
      ((before ++ alt :: rest).map (asCandidate g firstOnly fuel o)) = some r) :
    ∃ out, candidate (asCandidate g firstOnly fuel o alt) l v = some out := by
  induction before generalizing last with
  | nil =>
    rw [List.nil_append, List.map_cons, firstMatch_cons] at run
    obtain ⟨out, h, -⟩ := Option.bind_eq_some_iff.mp run
    exact ⟨out, h⟩
  | cons a before ih =>
    rw [List.cons_append, List.map_cons, firstMatch_cons] at run
    obtain ⟨out, h, run⟩ := Option.bind_eq_some_iff.mp run
    obtain ⟨errors, rfl⟩ := (rejected a List.mem_cons_self).eq_error h
    exact ih (fun b hb => rejected b (List.mem_cons_of_mem _ hb)) run

end Unique

/-- A decided call has decided all calls it depends on, with one step less. -/
theorem Asks.report {c c' : Call} (asks : Asks g firstOnly c c') {r : Report}
    (h : c.report? g firstOnly (fuel + 1) = some r) :
    ∃ r', c'.report? g firstOnly fuel = some r' := by
  unfold Call.report? at h ⊢
  cases asks with
  | only enters found =>
    rw [run_only found, guarded_of_enters enters] at h
    exact ⟨r, h⟩
  | trial enters several rejected needs =>
    rw [run_several several, guarded_of_enters enters] at h
    obtain ⟨out, h⟩ := candidate_of_rejects rejected h
    rw [candidate_eq] at h
    obtain ⟨t, h, -⟩ := Option.bind_eq_some_iff.mp h
    rw [Candidate.trial, asCandidate, if_pos needs] at h
    exact ⟨t, h⟩
  | @part o n alt _ _ l v _ t enters several rejected tried passed =>
    rw [run_several several, guarded_of_enters enters] at h
    obtain ⟨out, h⟩ := candidate_of_rejects rejected h
    rw [candidate_eq] at h
    obtain ⟨t', tried', h⟩ := Option.bind_eq_some_iff.mp h
    obtain rfl : t = t' := unique_of_kept
      (fun fuel => (asCandidate g firstOnly fuel o alt).trial l v)
      (fun le => trial_kept (asCandidate_kept le alt)) tried tried'
    rw [passed, List.isEmpty_nil, if_pos rfl] at h
    obtain ⟨r', h, -⟩ := Option.map_eq_some_iff.mp h
    exact ⟨r', h⟩
  | @item o n f ref l v x before rest _ st enters single hs typed list done goes =>
    rw [run_single single, guarded_of_enters enters, shape_array hs typed, array_eq, list] at h
    obtain ⟨out, h, -⟩ := Option.map_eq_some_iff.mp h
    rw [items_append] at h
    obtain ⟨st', done', h⟩ := Option.bind_eq_some_iff.mp h
    -- The items before it were decided with some number of steps, which need not be this one.
    obtain rfl : st = st' := unique_of_kept (fun fuel => items (itemRules f o firstOnly)
      (run g firstOnly fuel o (g.resolve ref)) l 0 .start before)
      (fun le => items_kept (run_mono le o _)) done done'
    rw [items_cons goes, Nat.zero_add] at h
    obtain ⟨r', h, -⟩ := Option.bind_eq_some_iff.mp h
    exact ⟨r', h⟩
  | @property o n f l given before rest key x p _ st enters single hs told list declared due
      done goes =>
    rw [run_single single, guarded_of_enters enters, shape_object hs, object_eq] at h
    dsimp only at h
    rw [told, Option.elim_none] at h
    obtain ⟨out, h, -⟩ := Option.bind_eq_some_iff.mp h
    rw [list, givenKeys_append] at h
    obtain ⟨st', done', h⟩ := Option.bind_eq_some_iff.mp h
    obtain rfl : st = st' := unique_of_kept
      (fun fuel => givenKeys (rulesOf g firstOnly o f fuel) l .start before)
      givenKeys_rulesOf_kept done done'
    have found : Keyed.get? (rulesOf g firstOnly o f fuel).properties key =
        some (propertyRule o (run g firstOnly fuel o) key (g.resolve p.type)) := by
      rw [rulesOf, keyRules, get?_propertyRules, declared, Option.map_some]
    have h : givenKeys (rulesOf g firstOnly o f fuel) l st ((key, x) :: rest) = some out := h
    rw [givenKeys_cons goes found] at h
    obtain ⟨r', h, -⟩ := Option.bind_eq_some_iff.mp h
    have asked : (o.ignoreRequired.covers key && x.isMissing &&
        !(g.resolve p.type).header.default?.isSome) = true → False := by
      rw [due]
      exact Bool.false_ne_true
    rw [givenProperty, propertyRule, if_neg asked] at h
    exact ⟨r', h⟩

/-! A call whose calls come to an end does so too: the loops are decided from the front, each with
the larger of two numbers of steps. -/

theorem exists_items {rules : ItemRules} (parts : Nat → Part)
    (kept : ∀ {i j}, i ≤ j → (parts i).KeptBy (parts j)) {list : List Value}
    (asked : ∀ before x rest fuel st, list = before ++ x :: rest →
      items rules (parts fuel) l 0 .start before = some st →
      stops rules.firstOnly rules.limit st.failures st.errors = false →
      ∃ fuel r, parts fuel (l.atIndex before.length) x = some r) :
    ∃ fuel st, items rules (parts fuel) l 0 .start list = some st := by
  induction list using List.reverseRecOn with
  | nil => exact ⟨0, .start, rfl⟩
  | append_singleton before x ih =>
    obtain ⟨fuel, st, done⟩ := ih fun before' y rest fuel st same =>
      asked before' y (rest ++ [x]) fuel st (by rw [same, List.append_assoc, List.cons_append])
    rcases goes : stops rules.firstOnly rules.limit st.failures st.errors with _ | _
    · obtain ⟨fuel', r, h⟩ := asked before x [] fuel st rfl done goes
      refine ⟨max fuel fuel', st.take rules (l.atIndex before.length) r, ?_⟩
      rw [items_append, items_kept (kept (Nat.le_max_left _ _)) done, Option.bind_some,
        items_cons goes, Nat.zero_add, kept (Nat.le_max_right _ _) _ _ _ h]
      rfl
    · refine ⟨fuel, st, ?_⟩
      rw [items_append, done, Option.bind_some, items, goes]
      rfl

theorem exists_givenProperty {key : String} {p : Property Ref} {x : Value}
    (asked : (o.ignoreRequired.covers key && x.isMissing &&
        !(g.resolve p.type).header.default?.isSome) = false →
      Call.Ends g firstOnly ⟨o, g.resolve p.type, l.atKey key, x⟩) :
    ∃ fuel r, ∀ more, fuel ≤ more → givenProperty
      (propertyRule o (run g firstOnly more o) key (g.resolve p.type)) (l.atKey key) x = some r := by
  rcases due : o.ignoreRequired.covers key && x.isMissing &&
    !(g.resolve p.type).header.default?.isSome with _ | _
  · obtain ⟨fuel, r, h⟩ := asked due
    refine ⟨fuel, r, fun more le => ?_⟩
    exact (if_neg (Bool.eq_false_iff.mp due)).trans (run_mono le _ _ _ _ _ h)
  · exact ⟨0, .accept x, fun _ _ => if_pos due⟩

theorem exists_givenKeys {f : ObjectFacets Ref} {given : List (String × Value)}
    (asked : ∀ before key x rest p fuel st, given = before ++ (key, x) :: rest →
      Keyed.get? f.properties key = some p →
      (o.ignoreRequired.covers key && x.isMissing &&
        !(g.resolve p.type).header.default?.isSome) = false →
      givenKeys (rulesOf g firstOnly o f fuel) l .start before = some st →
      stops firstOnly (max o.maxErrorsPerObject 1) st.failures st.errors = false →
      Call.Ends g firstOnly ⟨o, g.resolve p.type, l.atKey key, x⟩) :
    ∃ fuel st, givenKeys (rulesOf g firstOnly o f fuel) l .start given = some st := by
  induction given using List.reverseRecOn with
  | nil => exact ⟨0, .start, rfl⟩
  | append_singleton before e ih =>
    obtain ⟨key, x⟩ := e
    obtain ⟨fuel, st, done⟩ := ih fun before' key' y rest p fuel st same =>
      asked before' key' y (rest ++ [(key, x)]) p fuel st
        (by rw [same, List.append_assoc, List.cons_append])
    rcases goes : stops firstOnly (max o.maxErrorsPerObject 1) st.failures st.errors with _ | _
    · have found (fuel : Nat) : Keyed.get? (rulesOf g firstOnly o f fuel).properties key =
          (Keyed.get? f.properties key).map fun p =>
            propertyRule o (run g firstOnly fuel o) key (g.resolve p.type) :=
        get?_propertyRules _ _ _
      rcases declared : Keyed.get? f.properties key with _ | p
      · refine ⟨fuel, st.undeclared (rulesOf g firstOnly o f fuel) l key x, ?_⟩
        rw [givenKeys_append, done, Option.bind_some, givenKeys, found, declared]
        exact if_neg (Bool.eq_false_iff.mp goes)
      · obtain ⟨fuel', r, h⟩ := exists_givenProperty fun due =>
          asked before key x [] p fuel st rfl declared due done goes
        have found := (found (max fuel fuel')).trans (congrArg _ declared)
        refine ⟨max fuel fuel', st.take firstOnly key r, ?_⟩
        rw [givenKeys_append, givenKeys_rulesOf_kept (Nat.le_max_left _ _) done, Option.bind_some,
          givenKeys_cons goes found, h _ (Nat.le_max_right _ _)]
        rfl
    · refine ⟨fuel, st, ?_⟩
      rw [givenKeys_append, done, Option.bind_some, givenKeys]
      exact if_pos goes

theorem exists_absentKeys {rules : KeyRules} {given : Keyed Value}
    {properties : Keyed PropertyRule}
    (decided : ∀ e ∈ properties, ∀ l, ∃ r, e.2.part l .undefined = some r) (st : KeyState) :
    ∃ out, absentKeys rules l given st properties = some out := by
  induction properties generalizing st with
  | nil => exact ⟨st, rfl⟩
  | cons e rest ih =>
    obtain ⟨key, p⟩ := e
    have ih := ih fun e he => decided e (List.mem_cons_of_mem _ he)
    obtain ⟨r, h⟩ := decided (key, p) List.mem_cons_self (l.atKey key)
    rw [absentKeys]
    split
    · exact ⟨st, rfl⟩
    · split
      · exact ih st
      · dsimp only at h
        rw [h]
        exact ih _

theorem exists_candidate {alt : Node}
    (trial : needsTrial alt = true → Call.Ends g firstOnly ⟨o.precheck, alt, l, v⟩)
    (part : ∀ fuel r, (asCandidate g firstOnly fuel o alt).trial l v = some r → r.errors = [] →
      Call.Ends g firstOnly ⟨o, alt, l, v⟩) :
    ∃ fuel out, candidate (asCandidate g firstOnly fuel o alt) l v = some out := by
  have tried : ∃ fuel r, (asCandidate g firstOnly fuel o alt).trial l v = some r := by
    by_cases needs : needsTrial alt = true
    · obtain ⟨fuel, r, h⟩ := trial needs
      refine ⟨fuel, r, ?_⟩
      rw [Candidate.trial, asCandidate, if_pos needs]
      exact h
    · refine ⟨0, .accept v, ?_⟩
      rw [Candidate.trial, asCandidate, if_neg needs]
      rfl
  obtain ⟨fuel, r, h⟩ := tried
  by_cases passed : r.errors = []
  · obtain ⟨fuel', r', h'⟩ := part fuel r h passed
    refine ⟨max fuel fuel', verdict r', ?_⟩
    rw [candidate_eq, trial_kept (asCandidate_kept (Nat.le_max_left _ _) alt) h, Option.bind_some,
      passed, List.isEmpty_nil, if_pos rfl]
    exact congrArg (Option.map verdict) (run_mono (Nat.le_max_right _ _) _ _ _ _ _ h')
  · refine ⟨fuel, .error r.errors, ?_⟩
    rw [candidate_eq, h, Option.bind_some, if_neg (mt List.isEmpty_iff.mp passed)]

theorem exists_firstMatch {alternatives : List Node}
    (asked : ∀ before alt rest, alternatives = before ++ alt :: rest →
      (∀ a ∈ before, Rejects g firstOnly o l v a) →
      ∃ fuel out, candidate (asCandidate g firstOnly fuel o alt) l v = some out)
    {before rest : List Node} (split : alternatives = before ++ rest)
    (rejected : ∀ a ∈ before, Rejects g firstOnly o l v a) (last : List ValidationError) :
    ∃ fuel r, firstMatch firstOnly l v last (rest.map (asCandidate g firstOnly fuel o)) =
      some r := by
  induction rest generalizing before last with
  | nil => exact ⟨0, _, rfl⟩
  | cons alt rest ih =>
    obtain ⟨fuel, out, h⟩ := asked before alt rest split rejected
    rcases out with errors | output
    · have rejected : ∀ a ∈ before ++ [alt], Rejects g firstOnly o l v a := by
        intro a ha
        rcases List.mem_append.mp ha with ha | ha
        · exact rejected a ha
        · obtain rfl := List.mem_singleton.mp ha
          exact ⟨fuel, errors, h⟩
      obtain ⟨fuel', r, more⟩ := ih (by rw [split, List.append_assoc]; rfl) rejected errors
      refine ⟨max fuel fuel', r, ?_⟩
      rw [List.map_cons, firstMatch_cons,
        candidate_kept (asCandidate_kept (Nat.le_max_left _ _) alt) h, Option.bind_some]
      refine firstMatch_kept ?_ more
      rw [List.forall₂_map_left_iff, List.forall₂_map_right_iff]
      exact List.forall₂_same.mpr fun a _ => asCandidate_kept (Nat.le_max_right _ _) a
    · refine ⟨fuel, ⟨output, []⟩, ?_⟩
      rw [List.map_cons, firstMatch_cons, h, Option.bind_some]

theorem exists_array {f : ArrayFacets Ref} (parts : Nat → Part)
    (h : ∀ list, itemsOf? o v = some list →
      ∃ fuel st, items (itemRules f o firstOnly) (parts fuel) l 0 .start list = some st) :
    ∃ fuel r, array f o firstOnly (parts fuel) l v = some r := by
  simp only [array_eq]
  rcases list : itemsOf? o v with _ | found
  · exact ⟨0, _, rfl⟩
  · obtain ⟨fuel, st, h⟩ := h found list
    exact ⟨fuel, _, congrArg (Option.map _) h⟩

theorem exists_keys {f : ObjectFacets Ref} {given : List (String × Value)}
    (h : ∃ fuel st, givenKeys (rulesOf g firstOnly o f fuel) l .start given = some st) :
    ∃ fuel r, keys f (rulesOf g firstOnly o f fuel) l given = some r := by
  obtain ⟨fuel, st, h⟩ := h
  have h := givenKeys_rulesOf_kept (Nat.le_succ fuel) h
  -- What is not there is a missing value, which no type sends any further.
  have absent : ∀ e ∈ (rulesOf g firstOnly o f (fuel + 1)).properties, ∀ l,
      ∃ r, e.2.part l .undefined = some r := by
    intro e he l
    obtain ⟨p, -, rfl⟩ := List.mem_map.mp he
    exact run_of_not_enters fun enters => nomatch enters.present
  obtain ⟨st', h'⟩ := exists_absentKeys absent st
  refine ⟨fuel + 1, finishObject f l given st', ?_⟩
  rw [keys, h, Option.bind_some, h', Option.map_some]

theorem exists_shape (enters : Enters n v) (single : n.alternatives? = none)
    (asked : ∀ c', Asks g firstOnly ⟨o, n, l, v⟩ c' → c'.Ends g firstOnly) :
    ∃ fuel r, shape g firstOnly o (run g firstOnly fuel o) n l v = some r := by
  rcases hs : n.shape with _ | _ | _ | _ | _ | _ | f | f | _
  case array =>
    rcases typed : f.items with _ | ref
    · let parts (_ : Nat) : Part := fun _ x => some (.accept x)
      obtain ⟨fuel, r, h⟩ := exists_array (f := f) parts fun list _ =>
        exists_items parts (fun _ _ _ _ h => h) fun _ x _ _ _ _ _ _ => ⟨0, .accept x, rfl⟩
      refine ⟨fuel, r, ?_⟩
      unfold shape
      rw [hs]
      dsimp only
      rw [typed]
      exact h
    · obtain ⟨fuel, r, h⟩ := exists_array (fun fuel => run g firstOnly fuel o (g.resolve ref))
        fun list found => exists_items _ (fun le => run_mono le o _)
          fun before x rest fuel st split done goes =>
            asked _ (.item enters single hs typed (split ▸ found) done goes)
      exact ⟨fuel, r, (shape_array hs typed _).trans h⟩
  case object =>
    simp only [shape_object hs, object_eq]
    cases v with
    | object given =>
      rcases told : discriminated f n.name l given with _ | report
      · dsimp only
        rw [told]
        exact exists_keys (exists_givenKeys
          fun before key x rest p fuel st split declared due done goes =>
            asked _ (.property enters single hs told split declared due done goes))
      · refine ⟨0, report, ?_⟩
        dsimp only
        rw [told]
        rfl
    | _ => exact ⟨0, _, rfl⟩
  all_goals
    refine ⟨0, ?_⟩
    unfold shape
    rw [hs]
    exact ⟨_, rfl⟩

theorem ends_of_asks {c : Call} (asked : ∀ c', Asks g firstOnly c c' → c'.Ends g firstOnly) :
    c.Ends g firstOnly := by
  obtain ⟨o, n, l, v⟩ := c
  by_cases enters : Enters n v
  · rcases found : n.alternatives? with _ | alternatives
    · obtain ⟨fuel, r, h⟩ := exists_shape enters found asked
      refine ⟨fuel + 1, r, ?_⟩
      rw [Call.report?, run_single found, guarded_of_enters enters, h]
    · by_cases only : ∃ alt, alternatives = [alt]
      · obtain ⟨alt, rfl⟩ := only
        obtain ⟨fuel, r, h⟩ := asked _ (.only enters found)
        refine ⟨fuel + 1, r, ?_⟩
        rw [Call.report?, run_only found, guarded_of_enters enters]
        exact h
      · have several : Several n alternatives := ⟨found, fun alt same => only ⟨alt, same⟩⟩
        obtain ⟨fuel, r, h⟩ := exists_firstMatch (o := o) (l := l) (v := v)
          (fun before alt rest split rejected => by
            subst split
            refine exists_candidate (fun needs => ?_) fun fuel r tried passed => ?_
            · exact asked _ (.trial enters several rejected needs)
            · exact asked _ (.part enters several rejected tried passed))
          (List.nil_append alternatives).symm (fun _ h => nomatch h) []
        refine ⟨fuel + 1, r, ?_⟩
        rw [Call.report?, run_several several, guarded_of_enters enters]
        exact h
  · obtain ⟨r, h⟩ := run_of_not_enters (l := l) enters
    exact ⟨1, r, h⟩

end Schemata.Check

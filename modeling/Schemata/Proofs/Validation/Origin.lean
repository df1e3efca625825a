import Schemata.Proofs.Validation.Calls
import Schemata.Proofs.Validation.Verdict

/-! The origin of each error in a report: the check of a part, or the check itself. Each loop is
unfolded once for this. -/

namespace Schemata

theorem Reports.mem_addAll {firstOnly : Bool} {errors more : List ValidationError}
    {e : ValidationError} (h : e ∈ addAll firstOnly errors more) : e ∈ errors ∨ e ∈ more := by
  cases firstOnly with
  | false =>
    rw [addAll_false] at h
    exact List.mem_append.mp h
  | true =>
    rw [addAll_true] at h
    split at h
    · exact .inr (List.mem_of_mem_take h)
    · exact .inl h

namespace Check

variable {firstOnly : Bool} {o : ValidationOptions} {n : Node} {l : Location} {v : Value}
  {r : Report} {part : Part} {e : ValidationError} {more : List ValidationError}

/-! Items. -/

section Items

variable {rules : ItemRules} {st out : ItemState} {all : List Value}

inductive OfItem (part : Part) (l : Location) (all : List Value) (e : ValidationError) : Prop
  | told {i : Nat} {u : Value} {r : Report} (here : all[i]? = some u)
      (decided : part (l.atIndex i) u = some r) (member : e ∈ r.errors)
  | repeated {i : Nat} {u w : Value} (here : all[i]? = some u)
      (same : e = ⟨l.atIndex i, .duplicateItem w⟩)

theorem ItemState.take_origin {i : Nat} {u : Value} (here : all[i]? = some u)
    (decided : part (l.atIndex i) u = some r)
    (h : e ∈ (st.take rules (l.atIndex i) r).errors) : e ∈ st.errors ∨ OfItem part l all e := by
  have told {errors : List ValidationError}
      (h : e ∈ Reports.addAll rules.firstOnly errors r.errors) : e ∈ errors ∨ OfItem part l all e :=
    (Reports.mem_addAll h).imp id (.told here decided)
  unfold ItemState.take at h
  rcases ho : r.output with _ | w <;> rw [ho] at h
  · exact told h
  · dsimp only at h
    split at h
    · split at h
      · exact told h
      · rcases Reports.mem_addAll h with h | h
        · exact told h
        · exact .inr (.repeated here (List.mem_singleton.mp h))
    · exact told h

theorem items_origin {list : List Value} {i : Nat} (left : list = all.drop i)
    (run : items rules part l i st list = some out) (h : e ∈ out.errors) :
    e ∈ st.errors ∨ OfItem part l all e := by
  induction list generalizing i st with
  | nil =>
    obtain rfl := Option.some.inj run
    exact .inl h
  | cons u rest ih =>
    have here : all[i]? = some u := by
      rw [← List.head?_drop, ← left]
      rfl
    have left : rest = all.drop (i + 1) := by
      rw [← List.tail_drop, ← left]
      rfl
    rw [items] at run
    split at run
    · obtain rfl := Option.some.inj run
      exact .inl h
    · rcases decided : part (l.atIndex i) u with _ | r <;> simp only [decided] at run
      · cases run
      · exact (ih left run).elim (ItemState.take_origin here decided) .inr

/-- The errors of an array: not an array, item count, or an error of an item. -/
inductive OfArray {ρ : Type} (f : ArrayFacets ρ) (o : ValidationOptions) (firstOnly : Bool)
    (part : Part) (l : Location) (v : Value) (e : ValidationError) : Prop
  | other (same : e = ⟨l, .invalidType "array" v⟩)
  | count {list : List Value} {st : ItemState} {min max : Option Value}
      (read : itemsOf? o v = some list)
      (run : items (itemRules f o firstOnly) part l 0 .start list = some st)
      (unfailed : st.failures = 0)
      (same : e = ⟨l, .outOfRange .items (.ofCount st.output.length) min max⟩)
  | item {list : List Value} (read : itemsOf? o v = some list) (origin : OfItem part l list e)

theorem array_origin {ρ : Type} {f : ArrayFacets ρ}
    (decided : array f o firstOnly part l v = some r) (h : e ∈ r.errors) :
    OfArray f o firstOnly part l v e := by
  rw [array_eq] at decided
  rcases read : itemsOf? o v with _ | list <;> rw [read] at decided
  · obtain rfl := Option.some.inj decided
    exact .other (List.mem_singleton.mp h)
  · obtain ⟨st, run, rfl⟩ := Option.map_eq_some_iff.mp decided
    have origin (h : e ∈ st.errors) : OfItem part l list e :=
      (items_origin List.drop_zero.symm run h).resolve_left List.not_mem_nil
    unfold finishArray at h
    split_ifs at h with failed beyond
    · exact .item read (origin h)
    · exact .count read run (Nat.eq_zero_of_not_pos failed) (List.mem_singleton.mp h)
    · exact .item read (origin h)

end Items

/-! Keys. -/

section Keys

variable {rules : KeyRules} {st out : KeyState} {given : Keyed Value}

/-- The errors of a key: from the check of its property, or an undeclared key. -/
inductive OfKey (rules : KeyRules) (l : Location) (given : Keyed Value) (e : ValidationError) : Prop
  | told {key : String} {u : Value} {p : PropertyRule} {r : Report} (member : (key, u) ∈ given)
      (found : Keyed.get? rules.properties key = some p)
      (decided : p.part (l.atKey key) u = some r) (told : e ∈ r.errors)
      (asked : (p.ignored && u.isMissing && !p.hasDefault) = false)
  | undeclared {key : String} {u : Value} (member : (key, u) ∈ given)
      (same : e = ⟨l, .additionalProperty key⟩)
  | absent {key : String} {p : PropertyRule} {r : Report}
      (lacks : Keyed.hasKey given key = false) (member : (key, p) ∈ rules.properties)
      (decided : p.part (l.atKey key) .undefined = some r) (told : e ∈ r.errors)
      (wanted : (p.required || p.hasDefault) = true)

theorem KeyState.take_origin {key : String} (h : e ∈ (st.take firstOnly key r).errors) :
    e ∈ st.errors ∨ e ∈ r.errors := by
  unfold KeyState.take at h
  rcases ho : r.output with _ | w <;> rw [ho] at h
  · exact Reports.mem_addAll h
  · exact Reports.mem_addAll h

theorem KeyState.undeclared_origin {key : String} {u : Value}
    (h : e ∈ (st.undeclared rules l key u).errors) :
    e ∈ st.errors ∨ e = ⟨l, .additionalProperty key⟩ := by
  unfold KeyState.undeclared at h
  split_ifs at h
  · exact .inl h
  · exact .inl h
  · exact (KeyState.take_origin h).imp id List.mem_singleton.mp

theorem givenProperty_origin {p : PropertyRule} (decided : givenProperty p l v = some r)
    (h : e ∈ r.errors) :
    p.part l v = some r ∧ (p.ignored && v.isMissing && !p.hasDefault) = false := by
  unfold givenProperty at decided
  split at decided
  · obtain rfl := Option.some.inj decided
    cases h
  · rename_i asked
    exact ⟨decided, Bool.eq_false_iff.mpr asked⟩

theorem givenKeys_origin {fields : List (String × Value)} (among : ∀ e ∈ fields, e ∈ given)
    (run : givenKeys rules l st fields = some out) (h : e ∈ out.errors) :
    e ∈ st.errors ∨ OfKey rules l given e := by
  induction fields generalizing st with
  | nil =>
    obtain rfl := Option.some.inj run
    exact .inl h
  | cons field rest ih =>
    obtain ⟨key, u⟩ := field
    have here : (key, u) ∈ given := among _ List.mem_cons_self
    have ih {st : KeyState} := @ih st fun e he => among e (List.mem_cons_of_mem _ he)
    rw [givenKeys] at run
    split at run
    · obtain rfl := Option.some.inj run
      exact .inl h
    · rcases found : Keyed.get? rules.properties key with _ | p <;> simp only [found] at run
      · refine (ih run).elim (fun h => ?_) .inr
        exact (KeyState.undeclared_origin h).imp id (.undeclared here)
      · rcases decided : givenProperty p (l.atKey key) u with _ | r <;> simp only [decided] at run
        · cases run
        · refine (ih run).elim (fun h => (KeyState.take_origin h).imp id fun h => ?_) .inr
          obtain ⟨checked, asked⟩ := givenProperty_origin decided h
          exact .told here found checked h asked

theorem absentKeys_origin {properties : List (String × PropertyRule)}
    (among : ∀ e ∈ properties, e ∈ rules.properties)
    (run : absentKeys rules l given st properties = some out) (h : e ∈ out.errors) :
    e ∈ st.errors ∨ OfKey rules l given e := by
  induction properties generalizing st with
  | nil =>
    obtain rfl := Option.some.inj run
    exact .inl h
  | cons property rest ih =>
    obtain ⟨key, p⟩ := property
    have here : (key, p) ∈ rules.properties := among _ List.mem_cons_self
    have ih {st : KeyState} := @ih st fun e he => among e (List.mem_cons_of_mem _ he)
    rw [absentKeys] at run
    split at run
    · obtain rfl := Option.some.inj run
      exact .inl h
    · split at run
      · exact ih run
      · rename_i looked
        rcases decided : p.part (l.atKey key) .undefined with _ | r <;> simp only [decided] at run
        · cases run
        · refine (ih run).elim (fun h => (KeyState.take_origin h).imp id fun h => ?_) .inr
          simp only [Bool.not_eq_true, Bool.or_eq_false_iff, Bool.not_eq_false'] at looked
          exact .absent looked.1 here decided h looked.2

/-- The errors of an object: not an object, discriminator mismatch, property count, or an error of a
key. -/
inductive OfObject (rules : KeyRules) (l : Location) (v : Value) (e : ValidationError) : Prop
  | other (same : e = ⟨l, .invalidType "object" v⟩)
  | mismatch {given : Keyed Value} {key expected : String} (read : v = .object given)
      (same : e = ⟨l, .discriminatorMismatch key expected ((Keyed.get? given key).getD .undefined)⟩)
  | count {given : Keyed Value} {min max : Option Value} (read : v = .object given)
      (same : e = ⟨l, .outOfRange .properties (.ofCount given.length) min max⟩)
  | key {given : Keyed Value} (read : v = .object given) (origin : OfKey rules l given e)

theorem keys_origin {ρ : Type} {f : ObjectFacets ρ}
    (decided : keys f rules l given = some r) (h : e ∈ r.errors) :
    OfObject rules l (.object given) e := by
  obtain ⟨st, first, decided⟩ := Option.bind_eq_some_iff.mp decided
  obtain ⟨out, second, same⟩ := Option.map_eq_some_iff.mp decided
  have origin (h : e ∈ out.errors) : OfKey rules l given e := by
    rcases absentKeys_origin (fun _ he => he) second h with h | origin
    · exact (givenKeys_origin (fun _ he => he) first h).resolve_left List.not_mem_nil
    · exact origin
  subst same
  unfold finishObject at h
  split_ifs at h
  · exact .key rfl (origin h)
  · exact .count rfl (List.mem_singleton.mp h)
  · exact .key rfl (origin h)

theorem object_origin {ρ : Type} {f : ObjectFacets ρ} {name : Option String}
    {properties : Keyed PropertyRule} (decided : object f name o firstOnly properties l v = some r)
    (h : e ∈ r.errors) : OfObject (keyRules f o firstOnly properties) l v e := by
  rw [object_eq] at decided
  cases v with
  | object given =>
    unfold discriminated at decided
    rcases hd : discriminator? f name with _ | ⟨key, expected⟩ <;> rw [hd] at decided
    · exact keys_origin decided h
    · dsimp only at decided
      split at decided
      · exact keys_origin decided h
      · obtain rfl := Option.some.inj decided
        exact .mismatch rfl (List.mem_singleton.mp h)
  | _ =>
    obtain rfl := Option.some.inj decided
    exact .other (List.mem_singleton.mp h)

end Keys

/-! Unions and guards. -/

inductive OfMatch (cs : List Candidate) (l : Location) (v : Value) (e : ValidationError) : Prop
  | unmatched (same : e = ⟨l, .noUnionMember v⟩)
  | trial {c : Candidate} {part : Part} {r : Report} (member : c ∈ cs) (needs : c.precheck = some part)
      (decided : part l v = some r) (told : e ∈ r.errors)
  | told {c : Candidate} {r : Report} (member : c ∈ cs) (decided : c.part l v = some r)
      (told : e ∈ r.errors)

theorem OfMatch.cons {cs : List Candidate} (c : Candidate) (h : OfMatch cs l v e) :
    OfMatch (c :: cs) l v e := by
  cases h with
  | unmatched same => exact .unmatched same
  | trial member needs decided told => exact .trial (List.mem_cons_of_mem c member) needs decided told
  | told member decided told => exact .told (List.mem_cons_of_mem c member) decided told

theorem candidate_origin {cs : List Candidate} {c : Candidate} {errors : List ValidationError}
    (member : c ∈ cs) (decided : candidate c l v = some (.error errors)) (h : e ∈ errors) :
    OfMatch cs l v e := by
  rw [candidate_eq] at decided
  obtain ⟨trial, tried, decided⟩ := Option.bind_eq_some_iff.mp decided
  split at decided
  · obtain ⟨r, checked, same⟩ := Option.map_eq_some_iff.mp decided
    unfold verdict at same
    split at same
    · cases same
    · obtain rfl := Except.error.inj same
      exact .told member checked h
  · obtain rfl := Except.error.inj (Option.some.inj decided)
    unfold Candidate.trial at tried
    rcases needs : c.precheck with _ | part <;> rw [needs] at tried
    · obtain rfl := Option.some.inj tried
      cases h
    · exact .trial member needs tried h

theorem firstMatch_origin {cs : List Candidate} (run : firstMatch firstOnly l v more cs = some r)
    (h : e ∈ r.errors) : e ∈ more ∨ OfMatch cs l v e := by
  induction cs generalizing more with
  | nil =>
    obtain rfl := Option.some.inj run
    split at h
    · exact .inr (.unmatched (List.mem_singleton.mp h))
    · exact .inl ((Reports.mem_addAll h).resolve_left List.not_mem_nil)
  | cons c rest ih =>
    rw [firstMatch_cons] at run
    obtain ⟨out, decided, run⟩ := Option.bind_eq_some_iff.mp run
    rcases out with errors | output
    · rcases ih run with h | origin
      · exact .inr (candidate_origin List.mem_cons_self decided h)
      · exact .inr (origin.cons c)
    · obtain rfl := Option.some.inj run
      cases h

theorem union_origin {cs : List Candidate} (run : union firstOnly cs l v = some r)
    (h : e ∈ r.errors) : OfMatch cs l v e :=
  (firstMatch_origin run h).resolve_left List.not_mem_nil

inductive OfGuard (o : ValidationOptions) (n : Node) (part : Part) (l : Location) (v : Value)
    (e : ValidationError) : Prop
  | missing (absent : v.isMissing = true) (same : e = ⟨l, .valueRequired⟩)
      (asked : o.ignoresType n.name = false)
  | stopped (same : e = ⟨l, .invalidType n.displayName v⟩)
  | behind {r : Report} (enters : Enters n v) (decided : part l v = some r) (told : e ∈ r.errors)

theorem guarded_origin {acceptsNil : Bool} (run : guarded n acceptsNil o part l v = some r)
    (h : e ∈ r.errors) : OfGuard o n part l v e := by
  rw [guarded_eq] at run
  split_ifs at run with absent passes
  · obtain rfl := Option.some.inj run
    unfold Check.missing at h
    split at h
    · cases h
    · split_ifs at h with _ required
      · cases h
      · rw [Bool.and_eq_true, Bool.not_eq_true'] at required
        exact .missing absent (List.mem_singleton.mp h) required.2
      · cases h
  · exact .behind ⟨Bool.eq_false_iff.mpr absent, passes⟩ run h
  · obtain rfl := Option.some.inj run
    exact .stopped (List.mem_singleton.mp h)

end Check
end Schemata

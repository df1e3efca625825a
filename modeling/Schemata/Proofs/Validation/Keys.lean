import Schemata.Proofs.Validation.Acceptance

/-! The keys of an accepted object: the input keys that are kept, in input order, and behind them
the declared properties filled in, in declaration order. No key is lost, repeated or moved. -/

namespace Schemata

def ObjectFacets.KeepsUndeclared {ρ : Type} (f : ObjectFacets ρ) (o : ValidationOptions) : Prop :=
  f.additionalProperties ≠ some false ∧ o.removeAdditional ≠ .all

def ObjectFacets.RefusesUndeclared {ρ : Type} (f : ObjectFacets ρ) (o : ValidationOptions) : Prop :=
  f.additionalProperties = some false ∧ o.removeAdditional = .no

instance {ρ : Type} (f : ObjectFacets ρ) (o : ValidationOptions) : Decidable (f.KeepsUndeclared o) :=
  inferInstanceAs (Decidable (_ ∧ _))

namespace Check

variable {g : Graph} {firstOnly : Bool} {steps : Nat} {o : ValidationOptions} {n : Node} {l : Location}
  {v w : Value} {given : Keyed Value}

theorem bind_output_eq_some_iff {part : Part} (settled : part.Settled False) :
    (part l v).bind Report.output = some w ↔ part l v = some (.accept w) := by
  constructor
  · intro h
    obtain ⟨r, decided, output⟩ := Option.bind_eq_some_iff.mp h
    have clean : r.errors = [] := (settled _ _ _ decided).decided.mpr (by rw [output]; rfl)
    obtain ⟨w', rfl⟩ := (settled _ _ _ decided).eq_accept clean
    rw [decided, ← Option.some.inj output]
  · intro h
    rw [h]
    rfl

theorem isSome_bind_output_iff {part : Part} (settled : part.Settled False) :
    ((part l v).bind Report.output).isSome = true ↔ ∃ w, part l v = some (.accept w) := by
  rw [Option.isSome_iff_exists]
  exact exists_congr fun w => bind_output_eq_some_iff settled

section Loops

variable {rules : KeyRules} {st out : KeyState} {key : String} {rest : List (String × Value)}
  {p : PropertyRule} {value : Option Value}

def KeyRules.Admits (rules : KeyRules) (l : Location) (e : String × Value) : Prop :=
  match Keyed.get? rules.properties e.1 with
  | some p => ∃ w, givenProperty p (l.atKey e.1) e.2 = some (.accept w)
  | none => rules.drops = true ∨ rules.additional = true

def KeyRules.given? (rules : KeyRules) (l : Location) (e : String × Value) :
    Option (String × Value) :=
  match Keyed.get? rules.properties e.1 with
  | some p =>
    (((givenProperty p (l.atKey e.1) e.2).bind Report.output).bind Value.present?).map (e.1, ·)
  | none => if rules.drops = false ∧ rules.additional = true then some e else none

def absent? (l : Location) (given : Keyed Value) (e : String × PropertyRule) :
    Option (String × Value) :=
  if e.2.due given e.1 then
    (((e.2.part (l.atKey e.1) .undefined).bind Report.output).bind Value.present?).map (e.1, ·)
  else none

theorem filterMap_cons_toList {α β : Type} (f : α → Option β) (a : α) (rest : List α) :
    (a :: rest).filterMap f = (f a).toList ++ rest.filterMap f := by
  rw [List.filterMap_cons]
  rcases f a with _ | b <;> rfl

theorem Treats.admits (treats : Treats rules l key v value) : rules.Admits l (key, v) := by
  unfold KeyRules.Admits
  cases treats with
  | dropped undeclared drops => rw [undeclared]; exact .inl drops
  | kept undeclared _ additional => rw [undeclared]; exact .inr additional
  | declared found accepted => rw [found]; exact ⟨_, accepted⟩

theorem Treats.given? (treats : Treats rules l key v value) :
    rules.given? l (key, v) = value.map (key, ·) := by
  unfold KeyRules.given?
  cases treats with
  | dropped undeclared drops =>
    rw [undeclared]
    exact if_neg fun stays => Bool.false_ne_true (stays.1.symm.trans drops)
  | kept undeclared stays additional => rw [undeclared]; exact if_pos ⟨stays, additional⟩
  | declared found accepted =>
    rw [found]
    dsimp only
    rw [accepted]
    rfl

theorem exists_treats (admits : rules.Admits l (key, v)) : ∃ value, Treats rules l key v value := by
  unfold KeyRules.Admits at admits
  rcases found : Keyed.get? rules.properties key with _ | p <;> rw [found] at admits
  · rcases drops : rules.drops with _ | _
    · rw [drops] at admits
      exact ⟨_, .kept found drops (admits.resolve_left Bool.false_ne_true)⟩
    · exact ⟨_, .dropped found drops⟩
  · obtain ⟨w, accepted⟩ := admits
    exact ⟨_, .declared found accepted⟩

theorem absent?_of_not_due (idle : p.due given key = false) : absent? l given (key, p) = none :=
  if_neg (Bool.eq_false_iff.mp idle)

theorem absent?_of_due (due : p.due given key = true)
    (accepted : p.part (l.atKey key) .undefined = some (.accept w)) :
    absent? l given (key, p) = w.present?.map (key, ·) := by
  rw [absent?, if_pos due, accepted]
  rfl

theorem hasKey_of_due (due : p.due given key = true) : Keyed.hasKey given key = false := by
  rw [PropertyRule.due, Bool.not_eq_true'] at due
  exact (Bool.or_eq_false_iff.mp due).1

theorem KeyState.put_of_not_mem (new : key ∉ Keyed.keys st.output) (value : Option Value) :
    st.put key value = { st with output := st.output ++ (value.map (key, ·)).toList } := by
  cases value with
  | none => rw [Option.map_none, Option.toList_none, List.append_nil]; rfl
  | some v => rw [KeyState.put, Option.elim_some, Keyed.insert_of_not_mem new]; rfl

theorem mem_keys_of_put {other : String} (new : key ∉ Keyed.keys st.output)
    (there : other ∈ Keyed.keys (st.put key value).output) :
    other ∈ Keyed.keys st.output ∨ other = key := by
  rw [KeyState.put_of_not_mem new, Keyed.keys_append, List.mem_append] at there
  refine there.imp id fun there => ?_
  obtain ⟨e, he, rfl⟩ := List.mem_map.mp there
  obtain ⟨v, -, rfl⟩ := Option.map_eq_some_iff.mp (Option.mem_toList.mp he)
  rfl

theorem distinct_put (differ : Keyed.Distinct (st.output ++ (key, v) :: rest)) (value : Option Value) :
    key ∉ Keyed.keys st.output ∧ Keyed.Distinct ((st.put key value).output ++ rest) := by
  rw [Keyed.Distinct, Keyed.keys_append] at differ
  have new : key ∉ Keyed.keys st.output := fun there =>
    (List.nodup_append.mp differ).2.2 key there key List.mem_cons_self rfl
  refine ⟨new, ?_⟩
  rw [KeyState.put_of_not_mem new, List.append_assoc, Keyed.Distinct, Keyed.keys_append]
  have fewer : (Keyed.keys ((value.map (key, ·)).toList ++ rest)).Sublist
      (Keyed.keys ((key, v) :: rest)) := by
    cases value with
    | none => exact List.sublist_cons_self _ _
    | some w => exact List.Sublist.refl _
  exact (fewer.append_left _).nodup differ

theorem givenKeys_clean_iff
    (settled : ∀ key p, Keyed.get? rules.properties key = some p → p.part.Settled False)
    (positive : 0 < rules.limit) {fields : List (String × Value)}
    (differ : Keyed.Distinct (st.output ++ fields)) :
    givenKeys rules l st fields = some out ∧ out.Clean ↔
      st.Clean ∧ (∀ e ∈ fields, rules.Admits l e) ∧
        out = { st with output := st.output ++ fields.filterMap (rules.given? l) } := by
  induction fields generalizing st with
  | nil =>
    rw [givenKeys, Option.some.injEq, List.filterMap_nil, List.append_nil]
    constructor
    · rintro ⟨rfl, clean⟩
      exact ⟨clean, List.forall_mem_nil _, rfl⟩
    · rintro ⟨clean, -, rfl⟩
      exact ⟨rfl, clean⟩
  | cons e rest ih =>
    obtain ⟨key, v⟩ := e
    -- Behind the first key the loop is in the state into which its value was put.
    have step {value : Option Value} (treats : Treats rules l key v value) :
        givenKeys rules l (st.put key value) rest = some out ∧ out.Clean ↔
          st.Clean ∧ (∀ e ∈ rest, rules.Admits l e) ∧
            out = { st with output := st.output ++ ((key, v) :: rest).filterMap (rules.given? l) } := by
      obtain ⟨new, differ⟩ := distinct_put differ value
      rw [ih differ, KeyState.put_of_not_mem new, filterMap_cons_toList, treats.given?,
        List.append_assoc]
      rfl
    rw [List.forall_mem_cons]
    constructor
    · rintro ⟨run, clean⟩
      obtain ⟨value, treats, run⟩ := exists_of_givenKeys_cons settled positive run clean
      obtain ⟨before, admits, output⟩ := (step treats).mp ⟨run, clean⟩
      exact ⟨before, ⟨treats.admits, admits⟩, output⟩
    · rintro ⟨before, ⟨first, admits⟩, output⟩
      obtain ⟨value, treats⟩ := exists_treats first
      rw [givenKeys_cons_accept before positive treats]
      exact (step treats).mpr ⟨before, admits, output⟩

theorem absentKeys_clean_iff (positive : 0 < rules.limit) {properties : Keyed PropertyRule}
    (settled : ∀ e ∈ properties, e.2.part.Settled False) (declared : properties.Distinct)
    (apart : ∀ e ∈ properties, Keyed.hasKey given e.1 = false → e.1 ∉ Keyed.keys st.output) :
    absentKeys rules l given st properties = some out ∧ out.Clean ↔
      st.Clean ∧ (∀ e ∈ properties, e.2.due given e.1 = true →
        ∃ w, e.2.part (l.atKey e.1) .undefined = some (.accept w)) ∧
        out = { st with output := st.output ++ properties.filterMap (absent? l given) } := by
  induction properties generalizing st with
  | nil =>
    rw [absentKeys, Option.some.injEq, List.filterMap_nil, List.append_nil]
    constructor
    · rintro ⟨rfl, clean⟩
      exact ⟨clean, List.forall_mem_nil _, rfl⟩
    · rintro ⟨clean, -, rfl⟩
      exact ⟨rfl, clean⟩
  | cons e rest ih =>
    obtain ⟨key, p⟩ := e
    obtain ⟨different, declared⟩ := List.nodup_cons.mp declared
    have ih {st : KeyState} := @ih st (fun e he => settled e (List.mem_cons_of_mem _ he)) declared
    rw [List.forall_mem_cons, filterMap_cons_toList]
    rcases due : p.due given key with _ | _
    · have later := ih fun e he => apart e (List.mem_cons_of_mem _ he)
      rw [absent?_of_not_due due, Option.toList_none, List.nil_append]
      constructor
      · rintro ⟨run, clean⟩
        have before := (absentKeys_grown run).clean clean
        rw [absentKeys_cons_of_not_due before positive due] at run
        obtain ⟨-, each, output⟩ := later.mp ⟨run, clean⟩
        exact ⟨before, ⟨fun idle => absurd idle Bool.false_ne_true, each⟩, output⟩
      · rintro ⟨before, ⟨-, each⟩, output⟩
        rw [absentKeys_cons_of_not_due before positive due]
        exact later.mpr ⟨before, each, output⟩
    · have new : key ∉ Keyed.keys st.output := apart _ List.mem_cons_self (hasKey_of_due due)
      -- The property goes behind what is there, and no other one has its key.
      have step {w : Value} (accepted : p.part (l.atKey key) .undefined = some (.accept w)) :
          absentKeys rules l given (st.put key w.present?) rest = some out ∧ out.Clean ↔
            st.Clean ∧ (∀ e ∈ rest, e.2.due given e.1 = true →
              ∃ w, e.2.part (l.atKey e.1) .undefined = some (.accept w)) ∧
              out = { st with output := st.output ++ ((absent? l given (key, p)).toList ++
                rest.filterMap (absent? l given)) } := by
        rw [ih, KeyState.put_of_not_mem new, List.append_assoc, absent?_of_due due accepted]
        · rfl
        · intro e he missing there
          rcases mem_keys_of_put new there with there | same
          · exact apart e (List.mem_cons_of_mem _ he) missing there
          · exact different (List.mem_map.mpr ⟨e, he, same⟩)
      constructor
      · rintro ⟨run, clean⟩
        obtain ⟨w, accepted, run⟩ := exists_of_absentKeys_cons (settled _ List.mem_cons_self) positive
          run clean due
        obtain ⟨before, each, output⟩ := (step accepted).mp ⟨run, clean⟩
        exact ⟨before, ⟨fun _ => ⟨w, accepted⟩, each⟩, output⟩
      · rintro ⟨before, ⟨first, each⟩, output⟩
        obtain ⟨w, accepted⟩ := first rfl
        rw [absentKeys_cons_of_due before positive due, accepted, Option.bind_some,
          KeyState.take_accept]
        exact (step accepted).mpr ⟨before, each, output⟩

end Loops

/-! What the declaration of an object and the options say about its keys. -/

/-- The output for a declared property that is present; a missing value covered by `ignoreRequired`
is kept if there is no default. -/
def givenValue? (o : ValidationOptions) (key : String) (type : Node) (check : Part) (l : Location)
    (v : Value) : Option Value :=
  if o.ignoreRequired.covers key && v.isMissing && type.header.default?.isNone then some v
  else (check l v).bind Report.output

def FillsIn (o : ValidationOptions) (key : String) (type : Node) : Prop :=
  type.header.default?.isSome = true ∨ type.isRequired = true ∧ o.ignoreRequired.covers key = false

instance (o : ValidationOptions) (key : String) (type : Node) : Decidable (FillsIn o key type) :=
  inferInstanceAs (Decidable (_ ∨ _))

variable {check : Node → Part} {f : ObjectFacets Ref}

/-- The output entry for an input key: the property's output unless absent, or an undeclared key
that is kept. -/
def keptField? (g : Graph) (o : ValidationOptions) (check : Node → Part) (f : ObjectFacets Ref)
    (l : Location) (e : String × Value) : Option (String × Value) :=
  match Keyed.get? f.properties e.1 with
  | some p =>
    let type := g.resolve p.type
    ((givenValue? o e.1 type (check type) (l.atKey e.1) e.2).bind Value.present?).map (e.1, ·)
  | none => if f.KeepsUndeclared o then some e else none

def filledField? (g : Graph) (o : ValidationOptions) (check : Node → Part) (given : Keyed Value)
    (l : Location) (e : String × Property Ref) : Option (String × Value) :=
  let type := g.resolve e.2.type
  if Keyed.hasKey given e.1 = false ∧ FillsIn o e.1 type then
    (((check type (l.atKey e.1) .undefined).bind Report.output).bind Value.present?).map (e.1, ·)
  else none

structure AcceptsObject (g : Graph) (o : ValidationOptions) (check : Node → Part)
    (f : ObjectFacets Ref) (name : Option String) (l : Location) (given : Keyed Value) : Prop where
  discriminated : ∀ key expected, discriminator? f name = some (key, expected) →
    ((Keyed.get? given key).getD .undefined).scalarText? = some expected
  counted : outside given.length f.minProperties f.maxProperties = false
  declared : ∀ key v, (key, v) ∈ given → ∀ p, Keyed.get? f.properties key = some p →
    (givenValue? o key (g.resolve p.type) (check (g.resolve p.type)) (l.atKey key) v).isSome = true
  undeclared : f.RefusesUndeclared o → ∀ key v, (key, v) ∈ given →
    Keyed.hasKey f.properties key = true
  filled : ∀ key p, (key, p) ∈ f.properties → Keyed.hasKey given key = false →
    FillsIn o key (g.resolve p.type) →
      ((check (g.resolve p.type) (l.atKey key) .undefined).bind Report.output).isSome = true

theorem discriminated_eq_none_iff {ρ : Type} {f : ObjectFacets ρ} {name : Option String} :
    discriminated f name l given = none ↔
      ∀ key expected, discriminator? f name = some (key, expected) →
        ((Keyed.get? given key).getD .undefined).scalarText? = some expected := by
  unfold discriminated
  rcases discriminator? f name with _ | ⟨key, expected⟩
  · exact iff_of_true rfl fun _ _ h => nomatch h
  · dsimp only
    split
    · rename_i told
      refine iff_of_true rfl fun key expected same => ?_
      obtain ⟨rfl, rfl⟩ := Prod.mk.inj (Option.some.inj same)
      exact beq_iff_eq.mp told
    · rename_i untold
      exact iff_of_false (fun h => nomatch h) fun h => untold (beq_iff_eq.mpr (h key expected rfl))

section Rules

variable (key : String) (type : Node)

theorem givenProperty_rule (l : Location) (v : Value) :
    (givenProperty (propertyRule o check key type) l v).bind Report.output =
      givenValue? o key type (check type) l v := by
  have same : (!type.header.default?.isSome) = type.header.default?.isNone := Option.not_isSome _
  unfold givenProperty givenValue? propertyRule
  dsimp only
  rw [same]
  split <;> rfl

theorem due_rule (given : Keyed Value) : (propertyRule o check key type).due given key = true ↔
    Keyed.hasKey given key = false ∧ FillsIn o key type := by
  unfold PropertyRule.due propertyRule FillsIn
  simp only [Bool.not_eq_true', Bool.or_eq_false_iff, Bool.not_eq_false', Bool.or_eq_true,
    Bool.and_eq_true, Bool.not_eq_true']
  exact and_congr_right fun _ => or_comm

end Rules

theorem keepsUndeclared_iff : o.dropsAdditional (f.additionalProperties.getD true) = false ∧
    f.additionalProperties.getD true = true ↔ f.KeepsUndeclared o := by
  unfold ValidationOptions.dropsAdditional ObjectFacets.KeepsUndeclared
  rcases f.additionalProperties with _ | _ | _ <;> cases o.removeAdditional <;> simp

theorem not_refusesUndeclared_iff : o.dropsAdditional (f.additionalProperties.getD true) = true ∨
    f.additionalProperties.getD true = true ↔ ¬f.RefusesUndeclared o := by
  unfold ValidationOptions.dropsAdditional ObjectFacets.RefusesUndeclared
  rcases f.additionalProperties with _ | _ | _ <;> cases o.removeAdditional <;> simp

variable (g o check f) in
def objectRules (firstOnly : Bool) : KeyRules :=
  keyRules f o firstOnly (propertyRules g check o f.properties)

theorem given?_objectRules (e : String × Value) :
    (objectRules g o check f firstOnly).given? l e = keptField? g o check f l e := by
  unfold KeyRules.given? keptField? objectRules keyRules
  dsimp only
  rw [get?_propertyRules]
  rcases Keyed.get? f.properties e.1 with _ | p
  · exact if_congr keepsUndeclared_iff rfl rfl
  · exact congrArg (fun out => (out.bind Value.present?).map (e.1, ·)) (givenProperty_rule _ _ _ _)

theorem admits_objectRules (settled : ∀ n, (check n).Settled False) (key : String) (v : Value) :
    (objectRules g o check f firstOnly).Admits l (key, v) ↔
      (∀ p, Keyed.get? f.properties key = some p → (givenValue? o key (g.resolve p.type)
        (check (g.resolve p.type)) (l.atKey key) v).isSome = true) ∧
      (f.RefusesUndeclared o → Keyed.hasKey f.properties key = true) := by
  unfold KeyRules.Admits objectRules keyRules Keyed.hasKey
  dsimp only
  rw [get?_propertyRules]
  rcases Keyed.get? f.properties key with _ | p
  · refine not_refusesUndeclared_iff.trans ⟨fun stays => ⟨?_, fun h => absurd h stays⟩, ?_⟩
    · exact fun _ h => nomatch h
    · exact fun h refuses => Bool.false_ne_true (h.2 refuses)
  · have rule : Part.Settled False (givenProperty (propertyRule o check key (g.resolve p.type))) :=
      givenProperty_settled (settled _)
    have accepts := isSome_bind_output_iff (l := l.atKey key) (v := v) rule
    rw [givenProperty_rule] at accepts
    refine accepts.symm.trans ⟨fun h => ⟨?_, fun _ => rfl⟩, fun h => h.1 p rfl⟩
    rintro _ ⟨⟩
    exact h

theorem forall_admits_iff (settled : ∀ n, (check n).Settled False) :
    (∀ e ∈ given, (objectRules g o check f firstOnly).Admits l e) ↔
      (∀ key v, (key, v) ∈ given → ∀ p, Keyed.get? f.properties key = some p → (givenValue? o key
        (g.resolve p.type) (check (g.resolve p.type)) (l.atKey key) v).isSome = true) ∧
      (f.RefusesUndeclared o → ∀ key v, (key, v) ∈ given → Keyed.hasKey f.properties key = true) := by
  constructor
  · intro h
    have each := fun key v he => (admits_objectRules settled key v).mp (h (key, v) he)
    exact ⟨fun key v he => (each key v he).1, fun refuses key v he => (each key v he).2 refuses⟩
  · intro h e he
    exact (admits_objectRules settled e.1 e.2).mpr
      ⟨h.1 e.1 e.2 he, fun refuses => h.2 refuses e.1 e.2 he⟩

theorem absent?_rule (e : String × Property Ref) :
    absent? l given (e.1, propertyRule o check e.1 (g.resolve e.2.type)) =
      filledField? g o check given l e := by
  unfold absent? filledField?
  exact if_congr (due_rule _ _ _) rfl rfl

theorem filterMap_propertyRules (properties : List (String × Property Ref)) :
    (propertyRules g check o properties).filterMap (absent? l given) =
      properties.filterMap (filledField? g o check given l) := by
  rw [propertyRules, List.filterMap_map]
  exact List.filterMap_congr fun e _ => absent?_rule e

theorem forall_due_iff (settled : ∀ n, (check n).Settled False)
    (properties : List (String × Property Ref)) :
    (∀ e ∈ propertyRules g check o properties, e.2.due given e.1 = true →
      ∃ w, e.2.part (l.atKey e.1) .undefined = some (.accept w)) ↔
      ∀ key p, (key, p) ∈ properties → Keyed.hasKey given key = false →
        FillsIn o key (g.resolve p.type) →
          ((check (g.resolve p.type) (l.atKey key) .undefined).bind Report.output).isSome = true := by
  rw [propertyRules, List.forall_mem_map]
  constructor
  · intro h key p he missing fills
    exact (isSome_bind_output_iff (settled _)).mpr (h _ he ((due_rule _ _ _).mpr ⟨missing, fills⟩))
  · intro h e he due
    obtain ⟨missing, fills⟩ := (due_rule _ _ _).mp due
    exact (isSome_bind_output_iff (settled _)).mp (h e.1 e.2 he missing fills)

theorem settled_propertyRules (settled : ∀ n, (check n).Settled False)
    (properties : List (String × Property Ref)) :
    ∀ e ∈ propertyRules g check o properties, e.2.part.Settled False := by
  intro e he
  obtain ⟨p, -, rfl⟩ := List.mem_map.mp he
  exact settled _

theorem keys_propertyRules (properties : List (String × Property Ref)) :
    Keyed.keys (propertyRules g check o properties) = Keyed.keys properties := by
  rw [propertyRules, Keyed.keys, Keyed.keys, List.map_map]
  rfl

theorem keys_filterMap_sublist {α β : Type} {f : String × α → Option (String × β)}
    (same : ∀ e e', f e = some e' → e'.1 = e.1) (entries : Keyed α) :
    (Keyed.keys (entries.filterMap f)).Sublist entries.keys := by
  induction entries with
  | nil => exact .refl _
  | cons e rest ih =>
    rw [filterMap_cons_toList, Keyed.keys_append]
    rcases found : f e with _ | e'
    · exact ih.cons _
    · rw [Option.toList_some, Keyed.keys, List.map_singleton, same e e' found]
      exact ih.cons_cons _

theorem fst_keptField? (e e' : String × Value) (h : keptField? g o check f l e = some e') :
    e'.1 = e.1 := by
  unfold keptField? at h
  split at h
  · obtain ⟨w, -, rfl⟩ := Option.map_eq_some_iff.mp h
    rfl
  · split at h
    · rw [Option.some.inj h]
    · cases h

theorem fst_filledField? (e : String × Property Ref) (e' : String × Value)
    (h : filledField? g o check given l e = some e') :
    e'.1 = e.1 ∧ Keyed.hasKey given e.1 = false := by
  unfold filledField? at h
  dsimp only at h
  split at h
  · rename_i due
    obtain ⟨w, -, rfl⟩ := Option.map_eq_some_iff.mp h
    exact ⟨rfl, due.1⟩
  · cases h

theorem mem_keys_kept {key : String}
    (there : key ∈ Keyed.keys (given.filterMap (keptField? g o check f l))) :
    Keyed.hasKey given key = true :=
  Keyed.hasKey_iff_mem_keys.mpr ((keys_filterMap_sublist fst_keptField? given).subset there)

theorem distinct_entries (declared : Keyed.Distinct f.properties) (differ : given.Distinct) :
    Keyed.Distinct (given.filterMap (keptField? g o check f l) ++
      f.properties.filterMap (filledField? g o check given l)) := by
  rw [Keyed.Distinct, Keyed.keys_append, List.nodup_append]
  refine ⟨(keys_filterMap_sublist fst_keptField? given).nodup differ,
    (keys_filterMap_sublist (fun e e' h => (fst_filledField? e e' h).1) _).nodup declared, ?_⟩
  rintro key there _ filled rfl
  obtain ⟨e', he', rfl⟩ := List.mem_map.mp filled
  obtain ⟨e, -, made⟩ := List.mem_filterMap.mp he'
  obtain ⟨same, missing⟩ := fst_filledField? e e' made
  rw [← same, mem_keys_kept there] at missing
  cases missing

theorem object_output_iff (settled : ∀ n, (check n).Settled False)
    (declared : Keyed.Distinct f.properties) (differ : given.Distinct) (name : Option String) :
    (object f name o firstOnly (propertyRules g check o f.properties) l (.object given)).bind
        Report.output = some w ↔
      AcceptsObject g o check f name l given ∧
        w = .object (given.filterMap (keptField? g o check f l) ++
          f.properties.filterMap (filledField? g o check given l)) := by
  have rules := settled_propertyRules (g := g) (o := o) settled f.properties
  have positive := positive_keyRules f o firstOnly (propertyRules g check o f.properties)
  have distinct : Keyed.Distinct (propertyRules g check o f.properties) := by
    rw [Keyed.Distinct, keys_propertyRules]
    exact declared
  -- Between the two loops every key is one of the input.
  let middle : KeyState := ⟨given.filterMap (keptField? g o check f l), 0, []⟩
  have first (out : KeyState) :
      givenKeys (objectRules g o check f firstOnly) l .start given = some out ∧ out.Clean ↔
        KeyState.start.Clean ∧ (∀ e ∈ given, (objectRules g o check f firstOnly).Admits l e) ∧
          out = middle := by
    have kept : middle = ⟨given.filterMap ((objectRules g o check f firstOnly).given? l), 0, []⟩ :=
      congrArg (KeyState.mk · 0 []) (List.filterMap_congr fun e _ => (given?_objectRules e).symm)
    rw [kept]
    exact givenKeys_clean_iff (fun key p found => rules _ (Keyed.mem_of_get? found)) positive differ
  have second (out : KeyState) :
      absentKeys (objectRules g o check f firstOnly) l given middle
          (propertyRules g check o f.properties) = some out ∧ out.Clean ↔
        middle.Clean ∧ (∀ e ∈ propertyRules g check o f.properties, e.2.due given e.1 = true →
          ∃ w, e.2.part (l.atKey e.1) .undefined = some (.accept w)) ∧
          out = { middle with output := middle.output ++
            f.properties.filterMap (filledField? g o check given l) } := by
    rw [← filterMap_propertyRules]
    refine absentKeys_clean_iff positive rules distinct fun e _ missing there => ?_
    rw [mem_keys_kept there] at missing
    cases missing
  rw [bind_output_eq_some_iff (object_settled False.elim rules), object_eq_accept_iff]
  constructor
  · rintro ⟨_, st, out, ⟨⟩, told, run, run', clean, within, rfl⟩
    obtain ⟨-, admits, rfl⟩ := (first st).mp ⟨run, (absentKeys_grown run').clean clean⟩
    obtain ⟨-, fills, rfl⟩ := (second out).mp ⟨run', clean⟩
    obtain ⟨declared, undeclared⟩ := (forall_admits_iff settled).mp admits
    exact ⟨⟨discriminated_eq_none_iff.mp told, within, declared, undeclared,
      (forall_due_iff settled _).mp fills⟩, rfl⟩
  · rintro ⟨⟨told, within, declared, undeclared, fills⟩, rfl⟩
    obtain ⟨run, -⟩ := (first _).mpr
      ⟨⟨rfl, rfl⟩, (forall_admits_iff settled).mpr ⟨declared, undeclared⟩, rfl⟩
    obtain ⟨run', clean⟩ := (second _).mpr ⟨⟨rfl, rfl⟩, (forall_due_iff settled _).mpr fills, rfl⟩
    exact ⟨_, _, _, rfl, discriminated_eq_none_iff.mpr told, run, run', clean, within, rfl⟩

/-- The output keys are the input keys that are declared and not absent, or undeclared and kept, in
input order; then the declared properties filled in, in declaration order. An undeclared key fails
the object exactly when additional properties are refused. -/
theorem keys_in_order (shaped : n.shape = .object f) (declared : Keyed.Distinct f.properties)
    (differ : given.Distinct) (g : Graph) (firstOnly : Bool) (o : ValidationOptions) (steps : Nat)
    (l : Location) :
    let check := run g firstOnly steps o
    let kept := given.filterMap (keptField? g o check f l)
    let filled := f.properties.filterMap (filledField? g o check given l)
    Keyed.Distinct (kept ++ filled) ∧ ∀ w,
      (shape g firstOnly o check n l (.object given)).bind Report.output = some w ↔
        AcceptsObject g o check f n.name l given ∧ w = .object (kept ++ filled) := by
  refine ⟨distinct_entries declared differ, fun w => ?_⟩
  rw [shape_object shaped]
  exact object_output_iff (settled_run g firstOnly steps o) declared differ n.name

def labelFields : ObjectFacets Ref :=
  let five := { Header.empty with default? := some (.number (.uint 5)) }
  ⟨[("size", ⟨.node { Node.ofBase .integer with header := five }, false⟩),
    ("label", ⟨.node (.ofBase .string), false⟩)], none, none, none, none, none⟩

theorem keys_in_order_of_label :
    let n := { Node.ofBase .object with shape := .object labelFields }
    let given : Keyed Value := [("other", .null), ("label", .string "a")]
    n.shape = .object labelFields ∧ Keyed.Distinct labelFields.properties ∧ given.Distinct ∧
      (shape .initial true .strict (run .initial true 1 .strict) n [] (.object given)).bind
        Report.output =
          some (.object [("other", .null), ("label", .string "a"), ("size", .number (.uint 5))]) ∧
      AcceptsObject .initial .strict (run .initial true 1 .strict) labelFields n.name [] given := by
  intro n given
  have declared : ["size", "label"].Nodup := by decide
  have differ : given.Distinct := by
    change ["other", "label"].Nodup
    decide
  have ordered := keys_in_order (n := n) rfl declared differ .initial true .strict 1 []
  have accepted :
      (shape .initial true .strict (run .initial true 1 .strict) n [] (.object given)).bind
        Report.output =
          some (.object [("other", .null), ("label", .string "a"), ("size", .number (.uint 5))]) :=
    rfl
  exact ⟨rfl, declared, differ, accepted, ((ordered.2 _).mp accepted).1⟩

end Check
end Schemata

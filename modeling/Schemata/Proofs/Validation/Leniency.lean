import Schemata.Proofs.Validation.Scalars

/-! Option sets ordered by leniency, and what that means for scalars. -/

namespace Schemata

inductive IgnoreRequired.Within : IgnoreRequired → IgnoreRequired → Prop
  | none (b : IgnoreRequired) : Within .none b
  | names {list list' : List String} (h : list ⊆ list') : Within (.names list) (.names list')
  | all (a : IgnoreRequired) : Within a .all

def RemoveAdditional.Within (a b : RemoveAdditional) : Prop := a = .no ∨ a = b ∨ b = .all

/-- Options that are at least as lenient; error limits are free. -/
structure ValidationOptions.Relaxed (o o' : ValidationOptions) : Prop where
  strict : o'.strictTypes = true → o.strictTypes = true
  coerce : o.coerceTypes = true → o'.coerceTypes = true
  native : o.coerceNativeTypes = o'.coerceNativeTypes
  removal : o.removeAdditional.Within o'.removeAdditional
  ignore : o.ignoreRequired.Within o'.ignoreRequired
  fast : o.fastDateValidation = true → o'.fastDateValidation = true

namespace IgnoreRequired.Within

variable {a b : IgnoreRequired}

theorem refl (a : IgnoreRequired) : a.Within a := by
  cases a with
  | none => exact .none _
  | all => exact .all _
  | names list => exact .names (List.Subset.refl list)

theorem covers (h : a.Within b) {name : String} (covered : a.covers name = true) :
    b.covers name = true := by
  cases h with
  | none => cases covered
  | names h => exact List.contains_iff_mem.mpr (h (List.contains_iff_mem.mp covered))
  | all => rfl

theorem eq_all (h : a.Within b) (every : a = .all) : b = .all := by
  subst every
  cases h
  rfl

end IgnoreRequired.Within

namespace ValidationOptions.Relaxed

variable {o o' : ValidationOptions}

theorem refl (o : ValidationOptions) : o.Relaxed o where
  strict := id
  coerce := id
  native := rfl
  removal := .inr (.inl rfl)
  ignore := .refl o.ignoreRequired
  fast := id

theorem precheck (h : o.Relaxed o') : o.precheck.Relaxed o'.precheck :=
  ⟨fun _ => rfl, id, rfl, .inr (.inl rfl), h.ignore, h.fast⟩

theorem ignoresType (h : o.Relaxed o') {name : Option String}
    (ignored : o.ignoresType name = true) : o'.ignoresType name = true := by
  cases name with
  | none => exact beq_iff_eq.mpr (h.ignore.eq_all (beq_iff_eq.mp ignored))
  | some name => exact h.ignore.covers ignored

theorem dropsAdditional (h : o.Relaxed o') {allowed : Bool}
    (drops : o.dropsAdditional allowed = true) : o'.dropsAdditional allowed = true := by
  unfold ValidationOptions.dropsAdditional at drops ⊢
  rcases h.removal with no | same | all
  · rw [no] at drops
    cases drops
  · rwa [← same]
  · rw [all]

theorem wraps (h : o.Relaxed o') (wraps : (o.coerceTypes || !o.strictTypes) = true) :
    (o'.coerceTypes || !o'.strictTypes) = true := by
  rw [Bool.or_eq_true, Bool.not_eq_true'] at wraps ⊢
  refine wraps.imp h.coerce fun lenient => ?_
  exact Bool.eq_false_iff.mpr fun strict' => Bool.eq_false_iff.mp lenient (h.strict strict')

end ValidationOptions.Relaxed

namespace Check

variable {l : Location} {v w : Value} {o o' : ValidationOptions}

/-! Scalars. -/

section Scalars

variable {strict strict' : Bool} {α : Type} {x : α}

theorem reads_relaxed {read : Bool → Value → Option α}
    (strictly : read true v = some x → read false v = some x) (h : strict' = true → strict = true)
    (found : read strict v = some x) : read strict' v = some x := by
  cases strict' with
  | true => exact h rfl ▸ found
  | false =>
    cases strict with
    | false => exact found
    | true => exact strictly found

theorem textOf?_of_strict {text : String} (read : textOf? true v = some text) :
    textOf? false v = some text := by
  cases v with
  | string s => exact read
  | _ => cases read

theorem numberOf?_of_strict {x : Number} (read : numberOf? true v = some x) :
    numberOf? false v = some x := by
  cases v with
  | number x => exact read
  | _ => cases read

theorem boolOf?_of_strict {b : Bool} (read : boolOf? true v = some b) :
    boolOf? false v = some b := by
  cases v with
  | bool b => exact read
  | _ => cases read

theorem string_relaxed (h : o.Relaxed o') {f : StringFacets} (accepted : string f o l v = .accept w) :
    ∃ w', string f o' l v = .accept w' := by
  obtain ⟨text, read, fits, -⟩ := string_eq_accept_iff.mp accepted
  exact ⟨_, string_eq_accept_iff.mpr ⟨text, reads_relaxed textOf?_of_strict h.strict read, fits, rfl⟩⟩

theorem number_relaxed (h : o.Relaxed o') {f : NumberFacets} {integer : Bool}
    (accepted : number f integer o l v = .accept w) :
    ∃ w', number f integer o' l v = .accept w' := by
  obtain ⟨x, read, fits, -⟩ := number_eq_accept_iff.mp accepted
  exact ⟨_, number_eq_accept_iff.mpr ⟨x, reads_relaxed numberOf?_of_strict h.strict read, fits, rfl⟩⟩

theorem boolean_relaxed (h : o.Relaxed o') (accepted : boolean o l v = .accept w) :
    ∃ w', boolean o' l v = .accept w' := by
  obtain ⟨b, read, -⟩ := boolean_eq_accept_iff.mp accepted
  exact ⟨_, boolean_eq_accept_iff.mpr ⟨b, reads_relaxed boolOf?_of_strict h.strict read, rfl⟩⟩

theorem read_relaxed {form : DateForm} {fast fast' : Bool} (h : fast = true → fast' = true)
    {s : List Char} {f : DateFields} (read : form.read fast s = .ok f) :
    form.read fast' s = .ok f := by
  unfold DateForm.read at read ⊢
  rcases hf : form.fields? s with _ | f' <;> rw [hf] at read
  · cases read
  · dsimp only at read ⊢
    split at read
    · cases read
    · rename_i inRange
      rw [if_neg inRange]
      split at read
      · rename_i known
        rw [Bool.or_eq_true] at known
        rw [if_pos (Bool.or_eq_true _ _ ▸ known.imp h id)]
        exact read
      · cases read

theorem date_relaxed (h : o.Relaxed o') {base : BaseType} {f : DateFacets}
    (accepted : date base f o l v = .accept w) : ∃ w', date base f o' l v = .accept w' := by
  simp only [date_eq_accept_iff] at accepted ⊢
  cases accepted with
  | native d => exact ⟨_, .native d⟩
  | mail mail read => exact ⟨_, .mail mail read⟩
  | instant written read foreign known =>
    exact ⟨_, .instant written (read_relaxed h.fast read) (h.native ▸ foreign) known⟩
  | written written read foreign =>
    exact ⟨_, .written written (read_relaxed h.fast read) (h.native ▸ foreign)⟩

end Scalars

theorem itemsOf?_relaxed (h : o.Relaxed o') {list : List Value}
    (read : itemsOf? o v = some list) : itemsOf? o' v = some list := by
  unfold itemsOf? at read ⊢
  split at read
  · exact read
  · split at read
    · rename_i wraps
      rw [if_pos (h.wraps wraps)]
      exact read
    · cases read

theorem missing_relaxed (h : o.Relaxed o') {n : Node} {acceptsNil : Bool}
    (accepted : missing n acceptsNil o l v = .accept w) :
    ∃ w', missing n acceptsNil o' l v = .accept w' := by
  unfold missing at accepted ⊢
  rcases hd : n.header.default? with _ | d <;> rw [hd] at accepted
  · dsimp only at accepted ⊢
    split
    · exact ⟨_, rfl⟩
    · rename_i nulls
      rw [if_neg nulls] at accepted
      split
      · rename_i due'
        rw [Bool.and_eq_true, Bool.not_eq_true'] at due'
        have due : (n.isRequired && !o.ignoresType n.name) = true := by
          rw [Bool.and_eq_true, Bool.not_eq_true', Bool.eq_false_iff]
          exact ⟨due'.1, fun ignored => Bool.eq_false_iff.mp due'.2 (h.ignoresType ignored)⟩
        rw [if_pos due] at accepted
        exact absurd accepted Report.reject_ne_accept
      · exact ⟨_, rfl⟩
  · exact ⟨_, rfl⟩

end Check

end Schemata

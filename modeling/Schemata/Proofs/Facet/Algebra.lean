import Schemata.Proofs.Facet.Merging
import Schemata.Proofs.Value.Equality

/-! Algebraic laws of merging: idempotence for each mode, associativity of `inherit`, and the lists
of the target as prefixes of the result's. -/

namespace Schemata

namespace Keyed

variable {α : Type} {entries : Keyed α} {key other : String}

theorem insert_insert_self (entries : Keyed α) (key : String) (v w : α) :
    (entries.insert key v).insert key w = entries.insert key w := by
  induction entries with
  | nil => exact if_pos rfl
  | cons e rest ih =>
    rw [insert, insert]
    split
    · rename_i same
      exact if_pos same
    · rename_i apart
      rw [insert, if_neg apart, ih]

theorem insert_comm (there : key ∈ entries.keys) (apart : key ≠ other) (v w : α) :
    (entries.insert other w).insert key v = (entries.insert key v).insert other w := by
  induction entries with
  | nil => cases there
  | cons e rest ih =>
    rw [insert, insert]
    by_cases here : e.1 = key
    · have away : e.1 ≠ other := here ▸ apart
      rw [if_pos here, if_neg away, insert, insert, if_pos here, if_neg away]
    · have there : key ∈ keys rest := (List.mem_cons.mp there).resolve_left (Ne.symm here)
      rw [if_neg here]
      split
      · rename_i same
        rw [insert, insert, if_neg here, if_pos same]
      · rename_i away
        rw [insert, insert, if_neg here, if_neg away, ih there]

theorem insert_foldl_insert {more : Keyed α} (known : ∀ e ∈ more, e.1 ∈ entries.keys) (key : String)
    (v : α) :
    insert (more.foldl (fun acc e => acc.insert e.1 e.2) (entries.insert key v)) key v =
      insert (more.foldl (fun acc e => acc.insert e.1 e.2) entries) key v := by
  induction more generalizing entries with
  | nil => exact insert_insert_self entries key v v
  | cons e rest ih =>
    rw [List.foldl_cons, List.foldl_cons]
    have there := known e List.mem_cons_self
    have known (e') (h : e' ∈ rest) : e'.1 ∈ (entries.insert e.1 e.2).keys := by
      rw [keys_insert, if_pos there]
      exact known e' (List.mem_cons_of_mem _ h)
    by_cases same : e.1 = key
    · rw [← same, insert_insert_self]
    · rw [insert_comm there same]
      exact ih known

end Keyed

namespace Merge

variable {α : Type}

/-! Single facets. -/

theorem singular_again (mode : MergeMode) (t s : Option α) :
    singular mode (singular mode t s) s = singular mode t s := by
  cases mode <;> cases t <;> cases s <;> rfl

theorem singular_assoc (a b c : Option α) :
    singular .inherit (singular .inherit a b) c = singular .inherit a (singular .inherit b c) :=
  Option.or_assoc

/-! Bounds. -/

theorem bound_inherit (keeps : α → α → Bool) (t s : α) :
    bound keeps .inherit (some t) (some s) = some (if keeps t s then t else s) := by
  rw [bound]
  exact (apply_ite some _ _ _).symm

theorem bound_again (keeps : α → α → Bool) (mode : MergeMode) (t s : Option α) :
    bound keeps mode (bound keeps mode t s) s = bound keeps mode t s := by
  rcases s with _ | s
  · rfl
  · have replaced : bound keeps mode (some s) (some s) = some s := by
      rw [bound, ite_self]
    rcases t with _ | t
    · exact replaced
    · by_cases kept : (mode != .overwrite && keeps t s) = true
      · have stays : bound keeps mode (some t) (some s) = some t := if_pos kept
        rw [stays, stays]
      · have gives : bound keeps mode (some t) (some s) = some s := if_neg kept
        rw [gives, replaced]

theorem bound_assoc {keeps : α → α → Bool} {sound : α → Bool} (ranks : Ranks keeps sound)
    {a b c : Option α} (ha : ∀ x ∈ a, sound x = true) (hb : ∀ y ∈ b, sound y = true)
    (hc : ∀ z ∈ c, sound z = true)
    (trans : ∀ x ∈ a, ∀ y ∈ b, ∀ z ∈ c, keeps x y = true → keeps y z = true → keeps x z = true) :
    bound keeps .inherit (bound keeps .inherit a b) c =
      bound keeps .inherit a (bound keeps .inherit b c) := by
  rcases c with _ | z
  · rfl
  rcases b with _ | y
  · rfl
  rcases a with _ | x
  · rw [none_bound, none_bound]
  rw [bound_inherit, bound_inherit, bound_inherit, bound_inherit]
  rcases hxy : keeps x y with _ | _ <;> rcases hyz : keeps y z with _ | _
  · have apart : keeps x z = false := Bool.eq_false_iff.mpr fun hxz => by
      have wide := ranks.wider (ha x rfl) (hb y rfl) (hc z rfl) hxy hxz
      exact Bool.false_ne_true (hyz.symm.trans wide)
    simp only [hyz, apart, Bool.false_eq_true, if_false]
  · simp only [hxy, hyz, Bool.false_eq_true, if_false, if_true]
  · simp only [Bool.false_eq_true, if_false, if_true]
  · simp only [hxy, trans x rfl y rfl z rfl hxy hyz, if_true]

theorem lowerCount_assoc (a b c : Option Nat) :
    lowerCount .inherit (lowerCount .inherit a b) c =
      lowerCount .inherit a (lowerCount .inherit b c) :=
  bound_assoc ranks_lowerCount (fun _ _ => rfl) (fun _ _ => rfl) (fun _ _ => rfl)
    fun x _ y _ z _ hxy hyz => by
      rw [decide_eq_true_eq] at hxy hyz ⊢
      exact hxy.trans hyz

theorem upperCount_assoc (a b c : Option Nat) :
    upperCount .inherit (upperCount .inherit a b) c =
      upperCount .inherit a (upperCount .inherit b c) :=
  bound_assoc ranks_upperCount (fun _ _ => rfl) (fun _ _ => rfl) (fun _ _ => rfl)
    fun x _ y _ z _ hxy hyz => by
      rw [decide_eq_true_eq] at hxy hyz ⊢
      exact hyz.trans hxy

section

variable {a b c : Option Number}

theorem lowerNumber_assoc (ha : ∀ n ∈ a, n.IsFinite) (hb : ∀ n ∈ b, n.IsFinite)
    (hc : ∀ n ∈ c, n.IsFinite) :
    lowerNumber .inherit (lowerNumber .inherit a b) c =
      lowerNumber .inherit a (lowerNumber .inherit b c) :=
  bound_assoc ranks_lowerNumber (fun n h => (ha n h).not_isNaN) (fun n h => (hb n h).not_isNaN)
    (fun n h => (hc n h).not_isNaN) fun x hx y hy z hz =>
      Number.le_trans_of_finite (ha x hx) (hb y hy) (hc z hz)

theorem upperNumber_assoc (ha : ∀ n ∈ a, n.IsFinite) (hb : ∀ n ∈ b, n.IsFinite)
    (hc : ∀ n ∈ c, n.IsFinite) :
    upperNumber .inherit (upperNumber .inherit a b) c =
      upperNumber .inherit a (upperNumber .inherit b c) :=
  bound_assoc ranks_upperNumber (fun n h => (ha n h).not_isNaN) (fun n h => (hb n h).not_isNaN)
    (fun n h => (hc n h).not_isNaN) fun x hx y hy z hz hxy hyz =>
      Number.le_trans_of_finite (hc z hz) (hb y hy) (ha x hx) hyz hxy

end

/-! Lists. -/

section

variable {same : α → α → Bool} {target source a b c : List α} {x : α}

theorem append_concat (same : α → α → Bool) (target source : List α) (x : α) :
    append same target (source ++ [x]) =
      if (append same target source).any (same · x) then append same target source
      else append same target source ++ [x] := by
  rw [append, List.foldl_append]
  rfl

theorem prefix_append (same : α → α → Bool) (target source : List α) :
    target <+: append same target source := by
  induction source using List.reverseRecOn with
  | nil => exact List.prefix_rfl
  | append_singleton source x ih =>
    rw [append_concat]
    split
    · exact ih
    · exact ih.trans (List.prefix_append _ _)

theorem exists_of_mem_source (member : x ∈ source) :
    ∃ y ∈ append same target source, y = x ∨ same y x = true := by
  induction source using List.reverseRecOn with
  | nil => cases member
  | append_singleton source z ih =>
    rw [append_concat]
    rcases List.mem_append.mp member with member | member
    · obtain ⟨y, there, either⟩ := ih member
      split
      · exact ⟨y, there, either⟩
      · exact ⟨y, List.mem_append_left _ there, either⟩
    · obtain rfl := List.mem_singleton.mp member
      split
      · rename_i found
        obtain ⟨y, there, alike⟩ := List.any_eq_true.mp found
        exact ⟨y, there, .inr alike⟩
      · exact ⟨x, List.mem_append_right _ member, .inl rfl⟩

theorem append_eq_self (h : ∀ x ∈ source, target.any (same · x) = true) :
    append same target source = target := by
  induction source with
  | nil => rfl
  | cons x rest ih =>
    rw [append, List.foldl_cons, h x List.mem_cons_self, if_pos rfl]
    exact ih fun y member => h y (List.mem_cons_of_mem _ member)

theorem append_again (self : ∀ x ∈ source, same x x = true) (target : List α) :
    append same (append same target source) source = append same target source := by
  refine append_eq_self fun x member => ?_
  obtain ⟨y, there, rfl | alike⟩ := exists_of_mem_source member
  · exact List.any_eq_true.mpr ⟨y, there, self y member⟩
  · exact List.any_eq_true.mpr ⟨y, there, alike⟩

theorem mem_append {x : α} (h : x ∈ append same target source) : x ∈ target ∨ x ∈ source := by
  induction source using List.reverseRecOn with
  | nil => exact .inl h
  | append_singleton source y ih =>
    rw [append_concat] at h
    split at h
    · exact (ih h).imp_right (List.mem_append_left _)
    · rcases List.mem_append.mp h with h | h
      · exact (ih h).imp_right (List.mem_append_left _)
      · exact .inr (List.mem_append_right _ h)

theorem append_assoc {P : α → Prop} (trans : ∀ x y z, P x → P y → P z → same x y = true →
    same y z = true → same x z = true) (ha : ∀ x ∈ a, P x) (hb : ∀ x ∈ b, P x) (hc : ∀ x ∈ c, P x) :
    append same (append same a b) c = append same a (append same b c) := by
  induction c using List.reverseRecOn with
  | nil => rfl
  | append_singleton c z ih =>
    have hz := hc z (List.mem_append_right _ List.mem_cons_self)
    have hc (x) (h : x ∈ c) : P x := hc x (List.mem_append_left _ h)
    have later (x) (h : x ∈ append same b c) : P x := (mem_append h).elim (hb x) (hc x)
    rw [append_concat, ih hc, append_concat]
    -- What keeps `z` out of the later two lists has something that is the same in all three.
    by_cases known : (append same b c).any (same · z) = true
    · obtain ⟨y, there, alike⟩ := List.any_eq_true.mp known
      have found : (append same a (append same b c)).any (same · z) = true := by
        have kept : ∃ x ∈ append same a (append same b c), x = y ∨ same x y = true :=
          exists_of_mem_source there
        obtain ⟨x, first, rfl | alike'⟩ := kept
        · exact List.any_eq_true.mpr ⟨x, first, alike⟩
        · have hx := (mem_append first).elim (ha x) (later x)
          exact List.any_eq_true.mpr ⟨x, first, trans x y z hx (later y there) hz alike' alike⟩
      rw [if_pos found, if_pos known]
    · rw [if_neg known, append_concat]

theorem append_assoc_of_trans
    (trans : ∀ x y z, same x y = true → same y z = true → same x z = true) (a b c : List α) :
    append same (append same a b) c = append same a (append same b c) :=
  append_assoc (P := fun _ => True) (fun x y z _ _ _ => trans x y z) (fun _ _ => trivial)
    (fun _ _ => trivial) fun _ _ => trivial

end

/-! Entries by key. -/

section

variable {target source a b c : Keyed α}

theorem entries_inherit (target source : Keyed α) :
    entries .inherit target source = append (fun e e' => e.1 == e'.1) target source := by
  induction source generalizing target with
  | nil => rfl
  | cons e rest ih =>
    have step : entries .inherit target (e :: rest) = entries .inherit
      (if Keyed.hasKey target e.1 then target else Keyed.insert target e.1 e.2) rest := rfl
    have step' : append (fun e e' => e.1 == e'.1) target (e :: rest) =
      append (fun e e' => e.1 == e'.1)
        (if target.any (·.1 == e.1) then target else target ++ [e]) rest := rfl
    have known : target.any (·.1 == e.1) = Keyed.hasKey target e.1 := by
      rw [Bool.eq_iff_iff, Keyed.hasKey_iff_mem_keys, List.any_eq_true, Keyed.keys, List.mem_map]
      simp only [beq_iff_eq]
    rw [step, ih, step', known]
    congr 1
    split
    · rfl
    · rename_i new
      rw [Keyed.insert_of_not_mem (mt Keyed.hasKey_iff_mem_keys.mpr new)]

theorem keys_prefix_entries (mode : MergeMode) (target source : Keyed α) :
    target.keys <+: (entries mode target source).keys := by
  rw [keys_entries]
  exact prefix_append _ _ _

theorem mem_keys_entries (mode : MergeMode) {e : String × α} (h : e ∈ source) :
    e.1 ∈ (entries mode target source).keys := by
  rw [keys_entries]
  have kept : ∃ key ∈ append (· == ·) target.keys source.keys, key = e.1 ∨ (key == e.1) = true :=
    exists_of_mem_source (List.mem_map_of_mem h)
  obtain ⟨key, there, rfl | same⟩ := kept
  · exact there
  · exact beq_iff_eq.mp same ▸ there

theorem overlay_again (target source : Keyed α) :
    entries .refine (entries .refine target source) source = entries .refine target source := by
  induction source using List.reverseRecOn with
  | nil => rfl
  | append_singleton source e ih =>
    have concat (t : Keyed α) :
        entries .refine t (source ++ [e]) = (entries .refine t source).insert e.1 e.2 :=
      List.foldl_append
    rw [concat, concat]
    refine (Keyed.insert_foldl_insert (fun e' h => mem_keys_entries .refine h) e.1 e.2).trans ?_
    exact congrArg (Keyed.insert · e.1 e.2) ih

theorem entries_again (mode : MergeMode) (target source : Keyed α) :
    entries mode (entries mode target source) source = entries mode target source := by
  cases mode with
  | inherit =>
    rw [entries_inherit, entries_inherit]
    exact append_again (fun e _ => beq_self_eq_true e.1) target
  | refine => exact overlay_again target source
  | overwrite => exact overlay_again target source

theorem entries_assoc (a b c : Keyed α) :
    entries .inherit (entries .inherit a b) c = entries .inherit a (entries .inherit b c) := by
  rw [entries_inherit, entries_inherit, entries_inherit, entries_inherit]
  refine append_assoc_of_trans (fun x y z hxy hyz => ?_) a b c
  rw [beq_iff_eq] at hxy hyz ⊢
  exact hxy.trans hyz

theorem map_entries_inherit {β : Type} (f : α → β) (target source : Keyed α) :
    (entries .inherit target source).map (fun (k, v) => (k, f v)) =
      entries .inherit (target.map fun (k, v) => (k, f v)) (source.map fun (k, v) => (k, f v)) := by
  induction source generalizing target with
  | nil => rfl
  | cons e rest ih =>
    have step {γ : Type} (t : Keyed γ) (e : String × γ) (rest : Keyed γ) :
        entries .inherit t (e :: rest) = entries .inherit
          (if t.hasKey e.1 then t else t.insert e.1 e.2) rest := rfl
    rw [step, ih, List.map_cons, step]
    have known : Keyed.hasKey (target.map fun (k, v) => (k, f v)) e.1 = target.hasKey e.1 := by
      rw [Keyed.hasKey, Keyed.get?_map, Option.isSome_map, Keyed.hasKey]
    congr 1
    rw [known]
    split
    · rfl
    · rename_i new
      have absent := mt Keyed.hasKey_iff_mem_keys.mpr new
      have absent' := mt Keyed.hasKey_iff_mem_keys.mpr (known ▸ new)
      rw [Keyed.insert_of_not_mem absent, Keyed.insert_of_not_mem absent', List.map_append]
      rfl

theorem map_entries_inherit_again (f : α → α) (again : ∀ v, f (f v) = f v)
    (target source : Keyed α) :
    (entries .inherit target (source.map fun (k, v) => (k, f v))).map (fun (k, v) => (k, f v)) =
      entries .inherit (target.map fun (k, v) => (k, f v))
        (source.map fun (k, v) => (k, f v)) := by
  rw [map_entries_inherit, List.map_map]
  simp only [Function.comp_def, again]

end

/-! Members of unions. -/

theorem members_again (mode : MergeMode) (target source : List α) :
    members mode (members mode target source) source = members mode target source := by
  cases mode <;> cases target <;> cases source <;> rfl

theorem members_assoc (a b c : List α) :
    members .inherit (members .inherit a b) c = members .inherit a (members .inherit b c) := by
  cases a <;> cases b <;> cases c <;> rfl

end Merge

open Merge

theorem Header.merge_idem (mode : MergeMode) (t s : Header) :
    (t.merge mode s).merge mode s = t.merge mode s := by
  simp only [Header.merge, singular_again, entries_again]

theorem Header.merge_assoc (a b c : Header) :
    (a.merge .inherit b).merge .inherit c = a.merge .inherit (b.merge .inherit c) := by
  simp only [Header.merge, singular_assoc, entries_assoc]

theorem Header.keys_prefix_merge (mode : MergeMode) (t s : Header) :
    t.annotations.keys <+: (t.merge mode s).annotations.keys :=
  keys_prefix_entries mode t.annotations s.annotations

theorem Pattern.same_self (p : Pattern) : p.same p = true := beq_self_eq_true p.source

theorem Pattern.same_trans (p q r : Pattern) (hpq : p.same q = true) (hqr : q.same r = true) :
    p.same r = true :=
  beq_iff_eq.mpr ((beq_iff_eq.mp hpq).trans (beq_iff_eq.mp hqr))

def StringFacets.Ordinary (f : StringFacets) : Prop := ∀ v ∈ f.allowed, v.Every Value.Ordinary

structure NumberFacets.Ordinary (f : NumberFacets) : Prop where
  allowed : ∀ v ∈ f.allowed, v.Every Value.Ordinary
  minimum : ∀ n ∈ f.minimum, n.IsFinite
  maximum : ∀ n ∈ f.maximum, n.IsFinite

theorem StringFacets.merge_idem (mode : MergeMode) (t : StringFacets) {s : StringFacets}
    (hs : s.Ordinary) : (t.merge mode s).merge mode s = t.merge mode s := by
  have values := append_again (fun v h => Value.equal_self (hs v h)) t.allowed
  have patterns := append_again (fun p (_ : p ∈ s.patterns) => Pattern.same_self p) t.patterns
  simp only [StringFacets.merge, values, patterns, lowerCount, upperCount, bound_again]

theorem StringFacets.merge_assoc {a b c : StringFacets} (ha : a.Ordinary) (hb : b.Ordinary)
    (hc : c.Ordinary) :
    (a.merge .inherit b).merge .inherit c = a.merge .inherit (b.merge .inherit c) := by
  have values := append_assoc (fun _ _ _ => Value.equal_trans) ha hb hc
  simp only [StringFacets.merge, values, append_assoc_of_trans Pattern.same_trans, lowerCount_assoc,
    upperCount_assoc]

theorem NumberFacets.merge_idem (mode : MergeMode) (t : NumberFacets) {s : NumberFacets}
    (hs : s.Ordinary) : (t.merge mode s).merge mode s = t.merge mode s := by
  have values := append_again (fun v h => Value.equal_self (hs.allowed v h)) t.allowed
  simp only [NumberFacets.merge, values, lowerNumber, upperNumber, bound_again, singular_again]

theorem NumberFacets.merge_assoc {a b c : NumberFacets} (ha : a.Ordinary) (hb : b.Ordinary)
    (hc : c.Ordinary) :
    (a.merge .inherit b).merge .inherit c = a.merge .inherit (b.merge .inherit c) := by
  have values := append_assoc (fun _ _ _ => Value.equal_trans) ha.allowed hb.allowed hc.allowed
  simp only [NumberFacets.merge, values, singular_assoc,
    lowerNumber_assoc ha.minimum hb.minimum hc.minimum,
    upperNumber_assoc ha.maximum hb.maximum hc.maximum]

section

variable {μ ρ : Type}

theorem ArrayFacets.merge_idem (mode : MergeMode) (t s : ArrayFacets ρ) :
    (t.merge mode s).merge mode s = t.merge mode s := by
  simp only [ArrayFacets.merge, lowerCount, upperCount, bound_again, singular_again]

theorem ArrayFacets.merge_assoc (a b c : ArrayFacets ρ) :
    (a.merge .inherit b).merge .inherit c = a.merge .inherit (b.merge .inherit c) := by
  simp only [ArrayFacets.merge, lowerCount_assoc, upperCount_assoc, singular_assoc]

theorem ObjectFacets.merge_idem (mode : MergeMode) (t s : ObjectFacets ρ) :
    (t.merge mode s).merge mode s = t.merge mode s := by
  simp only [ObjectFacets.merge, lowerCount, upperCount, bound_again, singular_again, entries_again]

theorem ObjectFacets.merge_assoc (a b c : ObjectFacets ρ) :
    (a.merge .inherit b).merge .inherit c = a.merge .inherit (b.merge .inherit c) := by
  have properties := map_entries_inherit_again (Property.taken .inherit) (fun _ => rfl) b.properties
    c.properties
  simp only [ObjectFacets.merge, lowerCount_assoc, upperCount_assoc, singular_assoc, properties,
    entries_assoc]

namespace Shape

/-- No bound and no number in an enum value is infinite or NaN, and no object in an enum value
repeats a key. -/
def Ordinary : Shape μ ρ → Prop
  | string f => f.Ordinary
  | number f => f.Ordinary
  | _ => True

def values : Shape μ ρ → List Value
  | string f => f.allowed
  | number f => f.allowed
  | _ => []

def patterns : Shape μ ρ → List Pattern
  | string f => f.patterns
  | _ => []

def names : Shape μ ρ → List String
  | object f => Keyed.keys f.properties
  | _ => []

structure Extends (t s : Shape μ ρ) : Prop where
  values : t.values <+: s.values
  patterns : t.patterns <+: s.patterns
  names : t.names <+: s.names

variable {a b c s : Shape μ ρ}

theorem merge_idem (mode : MergeMode) (t : Shape μ ρ) (hs : s.Ordinary) :
    (t.merge mode s).merge mode s = t.merge mode s := by
  cases t with
  | string t =>
    cases s with
    | string s => exact congrArg string (t.merge_idem mode hs)
    | _ => rfl
  | number t =>
    cases s with
    | number s => exact congrArg number (t.merge_idem mode hs)
    | _ => rfl
  | date t =>
    cases s with
    | date s => exact congrArg (date ⟨·⟩) (singular_again mode t.format s.format)
    | _ => rfl
  | array t =>
    cases s with
    | array s => exact congrArg array (t.merge_idem mode s)
    | _ => rfl
  | object t =>
    cases s with
    | object s => exact congrArg object (t.merge_idem mode s)
    | _ => rfl
  | union t =>
    cases s with
    | union s => exact congrArg union (members_again mode t s)
    | _ => rfl
  | _ => rfl

theorem merge_assoc (same : b.kind = c.kind) (ha : a.Ordinary) (hb : b.Ordinary) (hc : c.Ordinary) :
    (a.merge .inherit b).merge .inherit c = a.merge .inherit (b.merge .inherit c) := by
  cases b with
  | string b =>
    cases c with
    | string c =>
      cases a with
      | string a => exact congrArg string (StringFacets.merge_assoc ha hb hc)
      | _ => rfl
    | _ => cases same
  | number b =>
    cases c with
    | number c =>
      cases a with
      | number a => exact congrArg number (NumberFacets.merge_assoc ha hb hc)
      | _ => rfl
    | _ => cases same
  | date b =>
    cases c with
    | date c =>
      cases a with
      | date a => exact congrArg (date ⟨·⟩) (singular_assoc a.format b.format c.format)
      | _ => rfl
    | _ => cases same
  | array b =>
    cases c with
    | array c =>
      cases a with
      | array a => exact congrArg array (a.merge_assoc b c)
      | _ => rfl
    | _ => cases same
  | object b =>
    cases c with
    | object c =>
      cases a with
      | object a => exact congrArg object (a.merge_assoc b c)
      | _ => rfl
    | _ => cases same
  | union b =>
    cases c with
    | union c =>
      cases a with
      | union a => exact congrArg union (members_assoc a b c)
      | _ => rfl
    | _ => cases same
  | any =>
    cases c with
    | any => cases a <;> rfl
    | _ => cases same
  | boolean =>
    cases c with
    | boolean => cases a <;> rfl
    | _ => cases same
  | nil =>
    cases c with
    | nil => cases a <;> rfl
    | _ => cases same

theorem extends_merge (mode : MergeMode) (t s : Shape μ ρ) : t.Extends (t.merge mode s) := by
  have self : t.Extends t := ⟨List.prefix_rfl, List.prefix_rfl, List.prefix_rfl⟩
  cases t with
  | string t =>
    cases s with
    | string s => exact ⟨prefix_append _ _ _, prefix_append _ _ _, List.prefix_rfl⟩
    | _ => exact self
  | number t =>
    cases s with
    | number s => exact ⟨prefix_append _ _ _, List.prefix_rfl, List.prefix_rfl⟩
    | _ => exact self
  | object t =>
    cases s with
    | object s => exact ⟨List.prefix_rfl, List.prefix_rfl, keys_prefix_entries _ _ _⟩
    | _ => exact self
  | date t => cases s <;> exact ⟨List.prefix_rfl, List.prefix_rfl, List.prefix_rfl⟩
  | array t => cases s <;> exact ⟨List.prefix_rfl, List.prefix_rfl, List.prefix_rfl⟩
  | union t => cases s <;> exact ⟨List.prefix_rfl, List.prefix_rfl, List.prefix_rfl⟩
  | _ => exact self

/-- Merging the same source twice is merging it once, `inherit` is associative, and the lists of the
target (enum values, patterns, annotation keys, property names) stay a prefix of the result's: for
all headers, and for shapes of one kind without infinities and NaN. -/
theorem merge_idem_assoc_extends (same : b.kind = c.kind) (ha : a.Ordinary) (hb : b.Ordinary) (hc : c.Ordinary)
    (x y z : Header) :
    (∀ mode, (x.merge mode y).merge mode y = x.merge mode y ∧
      (a.merge mode b).merge mode b = a.merge mode b) ∧
    ((x.merge .inherit y).merge .inherit z = x.merge .inherit (y.merge .inherit z) ∧
      (a.merge .inherit b).merge .inherit c = a.merge .inherit (b.merge .inherit c)) ∧
    ∀ mode, x.annotations.keys <+: (x.merge mode y).annotations.keys ∧
      a.Extends (a.merge mode b) :=
  ⟨fun mode => ⟨x.merge_idem mode y, merge_idem mode a hb⟩,
    ⟨x.merge_assoc y z, merge_assoc same ha hb hc⟩,
    fun mode => ⟨x.keys_prefix_merge mode y, extends_merge mode a b⟩⟩

theorem merge_idem_assoc_extends_of_numbers : ∃ a b c : Shape Unit Unit,
    a = number ⟨[.number (.int 1)], none, some (.int 3), none, none⟩ ∧
    b = number ⟨[.number (.uint 1), .number (.float (.zero true))], none, some (.uint 3),
      some (.int 9), none⟩ ∧
    c = number ⟨[.number (.int 0)], none, some (.big 2), some (.big 10), none⟩ ∧
    (a.merge .inherit b).merge .inherit c = a.merge .inherit (b.merge .inherit c) ∧
    ∀ mode, (a.merge mode b).merge mode b = a.merge mode b ∧ a.Extends (a.merge mode b) := by
  have finite (n : Number) (h : n ∈ [.int 1, .int 3, .uint 1, .float (.zero true), .uint 3, .int 9,
      .int 0, .big 2, .big 10]) : n.IsFinite := by
    rintro x rfl
    obtain rfl : x = .zero true := by simpa using h
    rfl
  have value (n : Number) (h) : (Value.number n).Every Value.Ordinary :=
    Value.every_number (finite n h)
  have ha : NumberFacets.Ordinary ⟨[.number (.int 1)], none, some (.int 3), none, none⟩ :=
    ⟨by simp [value], by simp [finite], by simp⟩
  have hb : NumberFacets.Ordinary ⟨[.number (.uint 1), .number (.float (.zero true))], none,
      some (.uint 3), some (.int 9), none⟩ :=
    ⟨by simp [value], by simp [finite], by simp [finite]⟩
  have hc : NumberFacets.Ordinary ⟨[.number (.int 0)], none, some (.big 2), some (.big 10), none⟩ :=
    ⟨by simp [value], by simp [finite], by simp [finite]⟩
  obtain ⟨again, assoc, extends'⟩ := merge_idem_assoc_extends (μ := Unit) (ρ := Unit) (a := number _)
    (b := number _) (c := number _) (by rfl) ha hb hc .empty .empty .empty
  exact ⟨_, _, _, rfl, rfl, rfl, assoc.2, fun mode => ⟨(again mode).2, (extends' mode).2⟩⟩

end Shape

end

end Schemata

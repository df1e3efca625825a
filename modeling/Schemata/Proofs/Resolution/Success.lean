import Schemata.Proofs.Resolution.Invariant
import Schemata.Proofs.Resolution.Twins

/-! When building succeeds. A declaration that was built in another run is built again once all the
names it needs at once can be looked up: they denote similar nodes, so the family and base checks
have the same outcome. -/

namespace Schemata

variable {α β : Type}

namespace Building

def Ends (x : Building α) (p : Progress) : Prop := ∃ a q, x p = .ok (a, q)

theorem ends_pure (a : α) (p : Progress) : Ends (pure a : Building α) p := ⟨a, p, rfl⟩

theorem ends_fresh (p : Progress) : Ends fresh p := ⟨_, _, rfl⟩

theorem ends_forward (id : NodeId) (name : String) (p : Progress) : Ends (forward id name) p :=
  ⟨_, _, rfl⟩

theorem ends_lift {e : Except TypeError α} {a : α} (h : e = .ok a) (p : Progress) :
    Ends (liftM e : Building α) p := by
  subst h
  exact ⟨a, p, rfl⟩

theorem Ends.bind {x : Building α} {f : α → Building β} {p : Progress} (hx : Ends x p)
    (hf : ∀ a q, x p = .ok (a, q) → Ends (f a) q) : Ends (x >>= f) p := by
  obtain ⟨a, q, run⟩ := hx
  obtain ⟨b, q', run'⟩ := hf a q run
  exact ⟨b, q', bind_eq_ok.mpr ⟨a, q, run, run'⟩⟩

theorem ends_compose {id id' : NodeId} {name : Option String} {header : Header}
    {shape shape' : Shape Node Ref} {nodes nodes' : List Node} {n : Node}
    (made : compose id name nodes header shape = pure n)
    (same : List.Forall₂ (fun m m' => m.family = m'.family) nodes nodes') (p : Progress) :
    Ends (compose id' name nodes' header shape') p := by
  obtain ⟨first, rest, rfl, compatible, -⟩ := compose_eq_pure made
  cases same with
  | @cons _ first' _ rest' same each =>
    have compatible' : (rest'.find? fun s => !first'.family.isCompatible s.family) = none := by
      refine List.find?_eq_none.mpr fun s' hs' => ?_
      obtain ⟨s, hs, family⟩ := exists_of_forall₂_of_mem each.flip hs'
      have h := List.find?_eq_none.mp compatible s hs
      rwa [← same, ← family]
    rw [compose, compatible']
    exact ends_pure _ p

end Building

open Building

def Succeeds (g : Regime) (x : Building α) : Prop := ∀ p, g.holds p → Ends x p

namespace Succeeds

variable {g : Regime}

theorem bind {x : Building α} {f : α → Building β} {Q : Known → α → Prop} (hx : Succeeds g x)
    (yields : Yields g x Q) (hf : ∀ a p, g.holds p → Q (g.known p) a → Ends (f a) p) :
    Succeeds g (x >>= f) := by
  intro p hp
  refine (hx p hp).bind fun a q run => ?_
  obtain ⟨hq, -, ha⟩ := yields p a q hp run
  exact hf a q hq ha

theorem mapM {f : α → Building β} {Q : α → Known → β → Prop} (yields : ∀ x, Yields g (f x) (Q x)) :
    ∀ xs : List α, (∀ x ∈ xs, Succeeds g (f x)) → Succeeds g (xs.mapM f) := by
  intro xs
  induction xs with
  | nil =>
    intro _ p _
    exact ends_pure [] p
  | cons x xs ih =>
    intro hf
    rw [List.mapM_cons]
    refine (hf x List.mem_cons_self).bind (yields x) fun y p hp _ => ?_
    refine Ends.bind (ih (fun z hz => hf z (List.mem_cons_of_mem _ hz)) p hp) fun ys q _ => ?_
    exact ends_pure (y :: ys) q

end Succeeds

theorem DeclarationOf.shapeOf?_ok {name : String} {d : DeclarationDetails} {target : BaseType}
    {item item' : Option Ref} {properties properties' : Keyed (Property Ref)}
    {members members' : List Node} {shape : Shape Node Ref}
    (h : shapeOf? name d target item properties members = .ok shape) :
    ∃ shape', shapeOf? name d target item' properties' members' = .ok shape' := by
  have mapped {γ : Type} {e : Except TypeError γ} {f f' : γ → Shape Node Ref}
      (h : e.map f = .ok shape) : ∃ shape', e.map f' = .ok shape' := by
    rcases e with e | c
    · cases h
    · exact ⟨_, rfl⟩
  unfold shapeOf? at h ⊢
  generalize (target.emptyShape : Shape Node Ref).kind = kind at h ⊢
  cases kind with
  | string | number | date | object => exact mapped h
  | _ => exact ⟨_, rfl⟩

theorem DeclarationOf.ends_ownShape {name : String} {d : DeclarationDetails} {target : BaseType}
    {links : Links} {item : Option Ref} {properties : Keyed (Property Ref)} {members : List Node}
    {shape : Shape Node Ref}
    (shaped : ownShape name d target ⟨pure item, pure properties, pure members⟩ = pure shape)
    {p : Progress} (items : Ends links.items p) (entries : Ends links.properties p)
    (union : Ends links.members p) : Ends (ownShape name d target links) p := by
  rw [ownShape_pure, lift_eq_pure] at shaped
  have rest (i : Option Ref) (k : Keyed (Property Ref)) (m : List Node) (q : Progress) :
      Ends (ownShape name d target ⟨pure i, pure k, pure m⟩) q := by
    obtain ⟨shape', h⟩ : ∃ shape', shapeOf? name d target i k m = .ok shape' := shapeOf?_ok shaped
    rw [ownShape_pure]
    exact ends_lift h q
  cases target with
  | array => exact items.bind fun item q _ => rest item [] [] q
  | object => exact entries.bind fun found q _ => rest none found [] q
  | union => exact union.bind fun nodes q _ => rest none [] nodes q
  | _ => exact rest none [] [] p

namespace Scope

variable {g : Regime} {k : Known} {s : Scope}

/-- A name can be looked up where a mention needs its node: at once, or because it is not pending. -/
def Answers (g : Regime) (s : Scope) : Grip → String → Prop
  | .firm, a => Succeeds g (s.lookUp a)
  | .loose, a => s.pending? a = none → Succeeds g (s.lookUp a)

/-- A reference is resolved where it denotes a node in the other run, and linked to where it points
to one. -/
def Repeats (g : Regime) (k : Known) (s : Scope) (r : TypeRef) : Prop :=
  ((∀ own a, r.Mentions .firm own a → s.Answers g own a) → (∃ n, r.Denotes k n) →
      Succeeds g (s.resolve r)) ∧
    ((∀ own a, r.Mentions .loose own a → s.Answers g own a) → (∃ x, r.PointsTo k x) →
      Succeeds g (s.refer r))

section Parts

variable (keeps : s.Keeps g)

include keeps in
theorem resolveEach_succeeds {refs : List TypeRef} {nodes : List Node}
    (denoted : List.Forall₂ (TypeRef.Denotes k) refs nodes)
    (each : ∀ r ∈ refs, (∃ n, r.Denotes k n) → Succeeds g (s.resolve r)) :
    Succeeds g (refs.mapM s.resolve) := by
  refine Succeeds.mapM (fun r => (builds keeps r).1) refs fun r hr => each r hr ?_
  obtain ⟨n, -, hn⟩ := exists_of_forall₂_of_mem denoted hr
  exact ⟨n, hn⟩

include keeps in
theorem items?_succeeds {i : Option TypeRef} {item : Option Ref}
    (points : Option.Rel (TypeRef.ItemsPointTo k) i item)
    (each : ∀ r ∈ TypeRef.spread i, (∃ x, r.PointsTo k x) → Succeeds g (s.refer r)) :
    Succeeds g (s.items? i) := by
  cases points with
  | none =>
    intro p _
    exact ends_pure none p
  | @some r x points =>
    have item : Succeeds g (s.items r) := by
      cases points with
      | one single points =>
        have refer := each r (by simp [single]) ⟨x, points⟩
        cases r with
        | name a => simpa only [items, Scope.refer] using refer
        | many refs => exact absurd single TypeRef.spread_many_ne
        | inline d => simpa only [items, Scope.refer] using refer
      | @several refs xs id points =>
        rw [items, referEach_eq]
        have links : Succeeds g (refs.mapM s.refer) := by
          refine Succeeds.mapM (fun r => (builds keeps r).2) refs fun r hr => each r hr ?_
          obtain ⟨x, -, hx⟩ := exists_of_forall₂_of_mem points hr
          exact ⟨x, hx⟩
        intro p hp
        refine (links p hp).bind fun xs q _ => ?_
        exact (ends_fresh q).bind fun id q' _ => ends_pure _ q'
    intro p hp
    rw [items?]
    exact (item p hp).bind fun x q _ => ends_pure _ q

include keeps in
theorem properties?_succeeds {properties : Option (List (String × TypeRef))}
    {found : List (String × Property Ref)}
    (points : List.Forall₂ (TypeRef.EntryPointsTo k) (properties.getD []) found)
    (each : ∀ e ∈ properties.getD [], (∃ x, e.2.PointsTo k x) → Succeeds g (s.refer e.2)) :
    Succeeds g (s.properties? properties) := by
  rcases properties with _ | list
  · intro p _
    exact ends_pure [] p
  · have entry : Succeeds g (list.mapM s.entry) := by
      refine Succeeds.mapM (fun e => entry_yields (builds keeps e.2).2) list fun e he p hp => ?_
      obtain ⟨key, r⟩ := e
      obtain ⟨_, -, ⟨h⟩⟩ := exists_of_forall₂_of_mem points he
      exact (each _ he ⟨_, h⟩ p hp).bind fun x q _ => ends_pure _ q
    intro p hp
    rw [properties?, properties_eq]
    exact (entry p hp).bind fun found q _ => ends_pure _ q

include keeps in
theorem members?_succeeds {anyOf : Option (List TypeRef)} {nodes : List Node}
    (denoted : List.Forall₂ (TypeRef.Denotes k) (anyOf.getD []) nodes)
    (each : ∀ r ∈ anyOf.getD [], (∃ n, r.Denotes k n) → Succeeds g (s.resolve r)) :
    Succeeds g (s.members? anyOf) := by
  rcases anyOf with _ | refs
  · intro p _
    exact ends_pure [] p
  · rw [members?, resolveEach_eq]
    exact resolveEach_succeeds keeps denoted each

include keeps in
theorem supertypes?_succeeds {e : Option TypeRef} {b : BaseType} {nodes : List Node} (type : String)
    (extended : TypeRef.Extends k e b nodes) (nonempty : nodes ≠ [])
    (each : ∀ r ∈ TypeRef.spread e, (∃ n, r.Denotes k n) → Succeeds g (s.resolve r)) :
    Succeeds g (s.supertypes? type e) := by
  cases extended with
  | base =>
    intro p _
    exact ends_pure none p
  | @each r b nodes denoted =>
    have some : TypeRef.spread (some r) ≠ [] := by
      intro h
      rw [h] at denoted
      cases denoted
      exact nonempty rfl
    intro p hp
    rw [supertypes?, supertypes_eq, if_neg some]
    exact (resolveEach_succeeds keeps denoted each p hp).bind fun nodes q _ => ends_pure _ q

end Parts

def Agrees (g : Regime) (k : Known) : Prop :=
  ∀ p, g.holds p → Twins.Agree Eq k (g.known p) fun _ _ => True

theorem same_families {nodes nodes' : List Node} {p : Progress} (hp : g.holds p)
    (agrees : Agrees g k) (twins : List.Forall₂ (Twins Eq k (g.known p)) nodes nodes') :
    List.Forall₂ (fun n n' => n.family = n'.family ∧ n.representedBase = n'.representedBase)
      nodes nodes' :=
  twins.imp fun _ _ h => ⟨(h.same (agrees p hp)).family, (h.same (agrees p hp)).representedBase⟩

theorem build_succeeds_of (keeps : s.Keeps g) (agrees : Agrees g k) {d : Declaration}
    {id : NodeId} {n : Node} (describes : d.Describes k id n)
    (parts : ∀ grip r, (grip, r) ∈ d.parts → Repeats g k s r)
    (answers : ∀ own a, d.Mentions own a → s.Answers g own a) (id' : NodeId) :
    Succeeds g (s.build id' d) := by
  have resolves (r : TypeRef) (mem : (Grip.firm, r) ∈ d.parts) (h : ∃ n, r.Denotes k n) :
      Succeeds g (s.resolve r) :=
    (parts _ r mem).1 (fun own a mention => answers own a ⟨_, r, mem, mention⟩) h
  have refers (r : TypeRef) (mem : (Grip.loose, r) ∈ d.parts) (h : ∃ x, r.PointsTo k x) :
      Succeeds g (s.refer r) :=
    (parts _ r mem).2 (fun own a mention => answers own a ⟨_, r, mem, mention⟩) h
  obtain ⟨extended, applicable, points, entries, union, shaped, made⟩ := describes
  obtain ⟨first, rest, rfl, -, -⟩ := compose_eq_pure made
  intro p hp
  rw [build_eq]
  have supers := supertypes?_succeeds keeps d.displayName extended (List.cons_ne_nil _ _)
    fun r hr => resolves r (DeclarationOf.supertype_mem_parts hr)
  refine (supers p hp).bind fun named q run => ?_
  obtain ⟨hq, -, extended'⟩ := supertypes?_yields d.displayName d.inferredBase
    (fun r _ => builds keeps r) p named q hp run
  -- The other run's supertypes are of the same families, so both ask for the same facets.
  have same := same_families hq agrees (twins_extended extended extended')
  dsimp only
  rw [← DeclarationOf.target_eq (same.imp fun _ _ h => h.2), applicable]
  have items := items?_succeeds keeps points fun r hr => refers r (DeclarationOf.item_mem_parts hr)
  have found := properties?_succeeds keeps entries fun e he =>
    refers e.2 (DeclarationOf.property_mem_parts he)
  have members := members?_succeeds keeps union fun r hr =>
    resolves r (DeclarationOf.member_mem_parts hr)
  refine (DeclarationOf.ends_ownShape shaped (items q hq) (found q hq) (members q hq)).bind
    fun shape q' _ => ?_
  exact ends_compose made (same.imp fun _ _ h => h.1) q'

theorem repeats_of_node {r : TypeRef} (same : s.refer r = s.resolve r >>= fun n => pure (.node n))
    (node : ∀ x, r.PointsTo k x → ∃ n, r.Denotes k n)
    (alone : ∀ own a, r.Mentions .firm own a → r.Mentions .loose own a)
    (h : (∀ own a, r.Mentions .firm own a → s.Answers g own a) → (∃ n, r.Denotes k n) →
      Succeeds g (s.resolve r)) : Repeats g k s r := by
  refine ⟨h, fun answers points p hp => ?_⟩
  obtain ⟨x, points⟩ := points
  rw [same]
  have resolved := h (fun own a mention => answers own a (alone own a mention)) (node x points)
  exact (resolved p hp).bind fun n q _ => ends_pure _ q

theorem repeats (keeps : s.Keeps g) (agrees : Agrees g k) (r : TypeRef) : Repeats g k s r := by
  induction r using TypeRef.induction with
  | name a =>
    refine ⟨fun answers _ => ?_, fun answers _ => ?_⟩
    · rw [resolve]
      exact answers .firm a .name
    · have looked := answers .loose a .name
      intro p hp
      rw [refer]
      rcases hid : s.pending? a with _ | id
      · exact (looked hid p hp).bind fun n q _ => ends_pure _ q
      · exact ends_forward id a p
  | many refs ih =>
    refine repeats_of_node (by simp only [refer, resolve, bind_assoc]) ?_ ?_ fun answers hn => ?_
    · rintro _ ⟨h⟩
      exact ⟨_, h⟩
    · intro own a mention
      cases mention with
      | many mem h => exact .many mem h
    · obtain ⟨n, hn⟩ := hn
      cases hn with
      | many denoted made =>
        rw [resolve, resolveEach_eq]
        have each := resolveEach_succeeds keeps denoted fun r hr =>
          (ih r hr).1 fun own a h => answers own a (.many hr h)
        have yields := Yields.mapM stable_denotes refs fun r _ => (builds keeps r).1
        refine each.bind yields fun nodes p hp denoted' => ?_
        have same := same_families hp agrees (twins_denoted denoted denoted')
        refine (ends_fresh p).bind fun id q _ => ?_
        exact ends_compose made (same.imp fun _ _ h => h.1) q
  | inline d ih =>
    refine repeats_of_node (by simp only [refer, resolve, bind_assoc]) ?_ ?_ fun answers hn => ?_
    · rintro _ ⟨h⟩
      exact ⟨_, h⟩
    · intro own a mention
      cases mention with
      | inline mem h => exact .inline mem h
    · obtain ⟨n, hn⟩ := hn
      cases hn with
      | inline describes =>
        rw [resolve]
        intro p hp
        refine (ends_fresh p).bind fun id q run => ?_
        have built := build_succeeds_of keeps agrees describes ih (fun own a mention =>
          answers own a (TypeRef.mentions_inline_iff.mpr mention)) id
        exact built q (keeps.fresh p id q hp run).1

theorem build_succeeds (keeps : s.Keeps g) (agrees : Agrees g k) {d : Declaration} {id : NodeId}
    {n : Node} (describes : d.Describes k id n)
    (answers : ∀ own a, d.Mentions own a → s.Answers g own a) (id' : NodeId) :
    Succeeds g (s.build id' d) :=
  build_succeeds_of keeps agrees describes (fun _ r _ => repeats keeps agrees r) answers id'

end Scope

namespace Batch

variable {types : Keyed Node} {batch : Batch} {fuel : Nat} {stack : List String} {name : String}
  {p : Progress}

theorem ends_lookUp_of_direct {n : Node} (h : (known types batch stack p).direct name n) :
    Ends (lookUp types batch fuel stack name) p := by
  rcases found : known? p.built types name with _ | m
  · obtain ⟨hb, ht⟩ := Option.or_eq_none_iff.mp found
    rcases h with h | h
    · cases hb.symm.trans h
    · cases ht.symm.trans h
  · exact ⟨m, p, lookUp_of_known found⟩

theorem ends_lookUp_of_build {id : NodeId} {d : Declaration} (hb : Keyed.get? p.built name = none)
    (ht : Keyed.get? types name = none) (apart : name ∉ stack)
    (hd : Keyed.get? batch name = some (id, d))
    (build : Ends ((within types batch fuel (stack ++ [name])).build id d) p) :
    Ends (lookUp types batch (fuel + 1) stack name) p := by
  obtain ⟨n, q, run⟩ := build
  rw [Ends, lookUp_of_new fuel (Option.or_eq_none_iff.mpr ⟨hb, ht⟩) apart hd, run]
  exact ⟨_, _, rfl⟩

end Batch

end Schemata

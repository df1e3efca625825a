import Schemata.Proofs.Resolution.Description

/-! Invariants of building. A regime relates the progress to what is known of names at each point.
If the look-ups of a scope keep a regime, so does the building of any reference, which gives what
the reference denotes. -/

namespace Schemata

variable {α β : Type}

namespace Building

theorem bind_eq_ok {x : Building α} {f : α → Building β} {p q : Progress} {b : β} :
    (x >>= f) p = .ok (b, q) ↔ ∃ a p', x p = .ok (a, p') ∧ f a p' = .ok (b, q) := by
  change ((x p).bind fun r => f r.1 r.2) = .ok (b, q) ↔ _
  rcases x p with e | ⟨a, p'⟩
  · constructor
    · rintro ⟨⟩
    · rintro ⟨_, _, ⟨⟩, _⟩
  · constructor
    · exact fun h => ⟨a, p', rfl, h⟩
    · rintro ⟨_, _, ⟨⟩, h⟩
      exact h

theorem get_bind (f : Progress → Building β) (p : Progress) : (get >>= f) p = f p p := rfl

theorem pure_eq_ok {a b : α} {p q : Progress} :
    (pure a : Building α) p = .ok (b, q) ↔ b = a ∧ q = p := by
  change Except.ok (a, p) = .ok (b, q) ↔ _
  rw [Except.ok.injEq, Prod.mk.injEq]
  exact and_congr eq_comm eq_comm

theorem pure_injective {a b : α} (h : (pure a : Building α) = pure b) : a = b := by
  have h := congrFun h ⟨0, [], []⟩
  exact (pure_eq_ok.mp h).1.symm

def Fixed (x : Building α) : Prop := ∀ p a q, x p = .ok (a, q) → x = pure a ∧ q = p

theorem fixed_pure (a : α) : Fixed (pure a : Building α) := by
  intro p b q run
  obtain ⟨rfl, rfl⟩ := pure_eq_ok.mp run
  exact ⟨rfl, rfl⟩

theorem fixed_fail (e : TypeError) : Fixed (fail e : Building α) := by
  rintro p a q ⟨⟩

theorem fixed_lift (e : Except TypeError α) : Fixed (liftM e : Building α) := by
  rcases e with e | a
  · rintro p a q ⟨⟩
  · exact fixed_pure a

theorem lift_eq_pure {e : Except TypeError α} {a : α} :
    (liftM e : Building α) = pure a ↔ e = .ok a := by
  constructor
  · intro h
    rcases e with e | b
    · cases congrFun h ⟨0, [], []⟩
    · exact congrArg Except.ok (pure_injective h)
  · rintro rfl
    rfl

theorem Fixed.bind {x : Building α} {f : α → Building β} (hx : Fixed x) (hf : ∀ a, Fixed (f a)) :
    Fixed (x >>= f) := by
  intro p b q run
  obtain ⟨a, p', first, second⟩ := bind_eq_ok.mp run
  obtain ⟨rfl, rfl⟩ := hx p a p' first
  rw [pure_bind]
  exact hf a p' b q second

theorem fixed_compose (id : NodeId) (name : Option String) (supertypes : List Node) (h : Header)
    (shape : Shape Node Ref) : Fixed (compose id name supertypes h shape) := by
  rcases supertypes with _ | ⟨first, rest⟩
  · exact fixed_fail _
  · rcases hf : rest.find? fun s => !first.family.isCompatible s.family with _ | s
    · simp only [compose, hf]
      exact fixed_pure _
    · simp only [compose, hf]
      exact fixed_fail _

end Building

/-- An invariant of the progress together with what is known of names, indexed by the points of a
run. -/
structure Regime where
  holds : Progress → Prop
  known : Progress → Known

/-- Under the regime a successful step keeps it, loses no knowledge, and has a result with the
property. -/
def Yields (g : Regime) (x : Building α) (Q : Known → α → Prop) : Prop :=
  ∀ p a q, g.holds p → x p = .ok (a, q) →
    g.holds q ∧ g.known p ≤ g.known q ∧ Q (g.known q) a

def Stable (Q : Known → α → Prop) : Prop := ∀ ⦃k k' a⦄, k ≤ k' → Q k a → Q k' a

namespace Yields

variable {g : Regime}

theorem pure (a : α) : Yields g (pure a) fun _ b => b = a := by
  intro p b q hp run
  obtain ⟨rfl, rfl⟩ := Building.pure_eq_ok.mp run
  exact ⟨hp, Known.le_refl _, rfl⟩

theorem fail {e : TypeError} {Q : Known → α → Prop} : Yields g (Building.fail e) Q := by
  rintro p b q hp ⟨⟩

theorem fixed {x : Building α} (hx : Building.Fixed x) :
    Yields g x fun _ a => x = Pure.pure a := by
  intro p a q hp run
  obtain ⟨same, rfl⟩ := hx p a q run
  exact ⟨hp, Known.le_refl _, same⟩

theorem imp {x : Building α} {Q R : Known → α → Prop} (h : Yields g x Q)
    (imp : ∀ k a, Q k a → R k a) : Yields g x R := by
  intro p a q hp run
  obtain ⟨hq, le, ha⟩ := h p a q hp run
  exact ⟨hq, le, imp _ _ ha⟩

theorem bind {x : Building α} {f : α → Building β} {Q : Known → α → Prop}
    {R : α → Known → β → Prop} (hx : Yields g x Q) (stable : Stable Q)
    (hf : ∀ a, Yields g (f a) (R a)) : Yields g (x >>= f) fun k b => ∃ a, Q k a ∧ R a k b := by
  intro p b q hp run
  obtain ⟨a, p', first, second⟩ := Building.bind_eq_ok.mp run
  obtain ⟨hp', le, ha⟩ := hx p a p' hp first
  obtain ⟨hq, le', hb⟩ := hf a p' b q hp' second
  exact ⟨hq, Known.le_trans le le', a, stable le' ha, hb⟩

theorem bind_fixed {x : Building α} {f : α → Building β} {Q : Known → α → Prop}
    (hx : Yields g x Q) (stable : Stable Q) (hf : ∀ a, Building.Fixed (f a)) :
    Yields g (x >>= f) fun k b => ∃ a, Q k a ∧ f a = Pure.pure b :=
  hx.bind stable fun a => fixed (hf a)

theorem mapM {f : α → Building β} {Q : α → Known → β → Prop} (stable : ∀ x, Stable (Q x)) :
    ∀ xs : List α, (∀ x ∈ xs, Yields g (f x) (Q x)) →
      Yields g (xs.mapM f) fun k ys => List.Forall₂ (fun x y => Q x k y) xs ys := by
  intro xs
  induction xs with
  | nil =>
    intro _
    rw [List.mapM_nil]
    exact (pure []).imp fun _ _ h => h ▸ .nil
  | cons x xs ih =>
    intro hf
    have hx : Yields g (f x) (Q x) := hf x List.mem_cons_self
    have hxs := ih fun y hy => hf y (List.mem_cons_of_mem _ hy)
    have later : Stable fun k ys => List.Forall₂ (fun x y => Q x k y) xs ys :=
      fun k k' ys le h => h.imp fun x y => stable x le
    rw [List.mapM_cons]
    refine (hx.bind (stable x) fun y => hxs.bind later fun ys => pure (y :: ys)).imp ?_
    rintro k _ ⟨y, hy, ys, hys, rfl⟩
    exact .cons hy hys

end Yields

theorem stable_denotes (r : TypeRef) : Stable fun k n => r.Denotes k n :=
  fun _ _ _ le h => h.mono le

theorem stable_pointsTo (r : TypeRef) : Stable fun k x => r.PointsTo k x :=
  fun _ _ _ le h => h.mono le

theorem stable_itemsPointTo (i : Option TypeRef) :
    Stable fun k item => Option.Rel (TypeRef.ItemsPointTo k) i item := by
  rintro k k' item le (h | _)
  · exact .some (h.mono_of le fun _ _ _ h => h.mono le)
  · exact .none

theorem stable_extends (e : Option TypeRef) (b : BaseType) :
    Stable fun k nodes => TypeRef.Extends k e b nodes :=
  fun _ _ _ le h => h.mono_of fun _ _ _ h => h.mono le

theorem stable_true : Stable fun (_ : Known) (_ : α) => True := fun _ _ _ _ h => h

theorem stable_forall₂ {Q : α → Known → β → Prop} (stable : ∀ x, Stable (Q x)) (xs : List α) :
    Stable fun k ys => List.Forall₂ (fun x y => Q x k y) xs ys :=
  fun _ _ _ le h => h.imp fun x _ => stable x le

/-! The building of lists, one after the other. -/

namespace Scope

theorem resolveEach_eq (s : Scope) (refs : List TypeRef) :
    s.resolveEach refs = refs.mapM s.resolve := by
  induction refs with
  | nil => rfl
  | cons r rest ih => rw [resolveEach, ih, List.mapM_cons]

theorem referEach_eq (s : Scope) (refs : List TypeRef) :
    s.referEach refs = refs.mapM s.refer := by
  induction refs with
  | nil => rfl
  | cons r rest ih => rw [referEach, ih, List.mapM_cons]

def entry (s : Scope) (e : String × TypeRef) : Building (String × Property Ref) := do
  let x ← s.refer e.2
  return (e.1, ⟨x, false⟩)

theorem properties_eq (s : Scope) (entries : List (String × TypeRef)) :
    s.properties entries = entries.mapM s.entry := by
  induction entries with
  | nil => rfl
  | cons e rest ih =>
    rw [properties, ih, List.mapM_cons, entry]
    simp only [bind_assoc, pure_bind]

end Scope

theorem Batch.lookUpEach_eq (s : Scope) (names : List String) :
    Batch.lookUpEach s names = names.mapM s.lookUp := by
  induction names with
  | nil => rfl
  | cons a rest ih => rw [lookUpEach, ih, List.mapM_cons]

structure Scope.Keeps (s : Scope) (g : Regime) : Prop where
  lookUp : ∀ a, Yields g (s.lookUp a) fun k n => k.direct a n
  forward : ∀ a id, s.pending? a = some id →
    Yields g (Building.forward id a) fun k x => x = .forward id a ∧ k.forward id a
  fresh : Yields g Building.fresh fun _ _ => True

/-! The shape of a declaration takes its links in the order of its family, and nothing else. -/

namespace DeclarationOf

def shapeOf? (name : String) (d : DeclarationDetails) (target : BaseType) (item : Option Ref)
    (properties : Keyed (Property Ref)) (members : List Node) : Except TypeError (Shape Node Ref) :=
  match (target.emptyShape : Shape Node Ref).kind with
  | .string => (d.patterns? name).map fun patterns =>
    .string ⟨d.allowed.getD [], patterns, d.minLength, d.maxLength⟩
  | .number => (d.numberFormat? name).map fun format =>
    .number ⟨d.allowed.getD [], format, d.minimum, d.maximum, d.multipleOf⟩
  | .date => (d.dateFormat? name target).map fun format => .date ⟨format⟩
  | .array => .ok (.array ⟨item, d.uniqueItems, d.minItems, d.maxItems⟩)
  | .object => (d.discriminatorText? name).map fun text =>
    .object ⟨properties, d.additionalProperties, d.discriminator, text, d.minProperties,
      d.maxProperties⟩
  | .union => .ok (.union members)
  | _ => .ok target.emptyShape

theorem exists_of_map_eq_ok {α : Type} {e : Except TypeError α} {f : α → Shape Node Ref}
    {shape : Shape Node Ref} (h : e.map f = .ok shape) : ∃ a, e = .ok a ∧ shape = f a := by
  rcases e with e | a
  · cases h
  · exact ⟨a, rfl, (Except.ok.inj h).symm⟩

theorem ownShape_pure (name : String) (d : DeclarationDetails) (target : BaseType)
    (item : Option Ref) (properties : Keyed (Property Ref)) (members : List Node) :
    ownShape name d target ⟨pure item, pure properties, pure members⟩ =
      liftM (shapeOf? name d target item properties members) := by
  have lifted {α : Type} (e : Except TypeError α) (f : α → Shape Node Ref) :
      ((liftM e : Building α) >>= fun a => pure (f a)) = liftM (e.map f) := by
    cases e <;> rfl
  unfold ownShape shapeOf?
  cases (target.emptyShape : Shape Node Ref).kind with
  | string | number | date => exact lifted _ _
  | object =>
    exact lifted (d.discriminatorText? name) fun text =>
      .object ⟨properties, d.additionalProperties, d.discriminator, text, d.minProperties,
        d.maxProperties⟩
  | _ => rfl

theorem fixed_ownShape (name : String) (d : DeclarationDetails) (target : BaseType)
    (item : Option Ref) (properties : Keyed (Property Ref)) (members : List Node) :
    Building.Fixed (ownShape name d target ⟨pure item, pure properties, pure members⟩) := by
  rw [ownShape_pure]
  exact Building.fixed_lift _

theorem ownShape_yields {g : Regime} {name : String} {d : DeclarationDetails} {target : BaseType}
    {links : Links} {I : Known → Option Ref → Prop} {P : Known → Keyed (Property Ref) → Prop}
    {M : Known → List Node → Prop} (items : Yields g links.items I)
    (properties : Yields g links.properties P) (members : Yields g links.members M)
    (stableI : Stable I) (stableP : Stable P) (stableM : Stable M) (noItems : target ≠ .array → ∀ k, I k none)
    (noProperties : target ≠ .object → ∀ k, P k [])
    (noMembers : target ≠ .union → ∀ k, M k []) :
    Yields g (ownShape name d target links) fun k shape => ∃ item found nodes,
      I k item ∧ P k found ∧ M k nodes ∧
        ownShape name d target ⟨pure item, pure found, pure nodes⟩ = pure shape := by
  have other (ha : target ≠ .array) (ho : target ≠ .object) (hu : target ≠ .union)
      (same : ownShape name d target links =
        ownShape name d target ⟨pure none, pure [], pure []⟩) :
      Yields g (ownShape name d target links) fun k shape => ∃ item found nodes,
        I k item ∧ P k found ∧ M k nodes ∧
          ownShape name d target ⟨pure item, pure found, pure nodes⟩ = pure shape := by
    rw [same]
    exact (Yields.fixed (fixed_ownShape name d target none [] [])).imp fun k shape h =>
      ⟨none, [], [], noItems ha k, noProperties ho k, noMembers hu k, h⟩
  cases target with
  | array =>
    refine (items.bind_fixed stableI fun item => Building.fixed_pure _).imp ?_
    rintro k shape ⟨item, hi, made⟩
    exact ⟨item, [], [], hi, noProperties (by decide) k, noMembers (by decide) k, made⟩
  | object =>
    refine (properties.bind_fixed stableP fun found =>
      (Building.fixed_lift _).bind fun _ => Building.fixed_pure _).imp ?_
    rintro k shape ⟨found, hp, made⟩
    exact ⟨none, found, [], noItems (by decide) k, hp, noMembers (by decide) k, made⟩
  | union =>
    refine (members.bind_fixed stableM fun nodes => Building.fixed_pure _).imp ?_
    rintro k shape ⟨nodes, hm, made⟩
    exact ⟨none, [], nodes, noItems (by decide) k, noProperties (by decide) k, hm, made⟩
  | _ => exact other (by decide) (by decide) (by decide) rfl

theorem allowed_of_foreignFacet?_eq_none {d : Declaration} {target : BaseType}
    (h : d.foreignFacet? target = none) (e : String × Bool × Bool) (mem : e ∈ d.facets target)
    (set : e.2.1 = true) : e.2.2 = true := by
  have h := List.find?_eq_none.mp (Option.map_eq_none_iff.mp h) e mem
  simpa [set] using h

theorem items_eq_none {d : Declaration} {target : BaseType} (h : d.foreignFacet? target = none)
    (ht : target ≠ .array) : d.items = none := by
  by_contra hne
  have allowed := allowed_of_foreignFacet?_eq_none h ("items", d.items.isSome, target == .array)
    (by simp [facets]) (Option.isSome_iff_ne_none.mpr hne)
  exact ht (beq_iff_eq.mp allowed)

theorem properties_eq_none {d : Declaration} {target : BaseType}
    (h : d.foreignFacet? target = none) (ht : target ≠ .object) : d.properties = none := by
  by_contra hne
  have allowed := allowed_of_foreignFacet?_eq_none h
    ("properties", d.properties.isSome, target == .object)
    (by simp [facets]) (Option.isSome_iff_ne_none.mpr hne)
  exact ht (beq_iff_eq.mp allowed)

theorem anyOf_eq_none {d : Declaration} {target : BaseType}
    (h : d.foreignFacet? target = none) (ht : target ≠ .union) : d.anyOf = none := by
  by_contra hne
  have allowed := allowed_of_foreignFacet?_eq_none h ("anyOf", d.anyOf.isSome, target == .union)
    (by simp [facets]) (Option.isSome_iff_ne_none.mpr hne)
  exact ht (beq_iff_eq.mp allowed)

end DeclarationOf

/-! References and declarations. -/

namespace Scope

variable {g : Regime} {s : Scope}

def Builds (g : Regime) (s : Scope) (r : TypeRef) : Prop :=
  Yields g (s.resolve r) (fun k n => r.Denotes k n) ∧
    Yields g (s.refer r) (fun k x => r.PointsTo k x)

theorem supertypes_eq (type : String) (r : TypeRef) :
    s.supertypes type r =
      if TypeRef.spread (some r) = [] then Building.fail (.emptySupertypes type)
      else (TypeRef.spread (some r)).mapM s.resolve := by
  rcases r with a | refs | d
  · simp [supertypes, TypeRef.spread, resolve]
  · rcases refs with _ | ⟨r, rest⟩
    · simp [supertypes, TypeRef.spread]
    · simp [supertypes, TypeRef.spread, resolveEach_eq]
  · simp [supertypes, TypeRef.spread, resolve]

theorem supertypes?_yields {e : Option TypeRef} (type : String) (b : BaseType)
    (parts : ∀ r ∈ TypeRef.spread e, Builds g s r) :
    Yields g (s.supertypes? type e) fun k named =>
      TypeRef.Extends k e b (named.getD [Node.ofBase b]) := by
  rcases e with _ | r
  · exact (Yields.pure none).imp fun k named h => h ▸ .base
  · have each := Yields.mapM stable_denotes _ fun part hp => (parts part hp).1
    rw [supertypes?, supertypes_eq]
    split
    · exact (Yields.fail (Q := fun _ _ => False)).bind (fun _ _ _ _ h => h)
        (fun nodes => Yields.pure (some nodes)) |>.imp fun k named ⟨_, h, _⟩ => h.elim
    · refine (each.bind (stable_forall₂ stable_denotes _) fun nodes =>
        Yields.pure (some nodes)).imp ?_
      rintro k _ ⟨nodes, h, rfl⟩
      exact .each h

theorem items_yields (keeps : s.Keeps g) {r : TypeRef}
    (parts : ∀ part ∈ TypeRef.spread (some r), Builds g s part) :
    Yields g (s.items r) fun k x => r.ItemsPointTo k x := by
  have one (single : TypeRef.spread (some r) = [r]) (same : s.items r = s.refer r) :
      Yields g (s.items r) fun k x => r.ItemsPointTo k x := by
    rw [same]
    exact (parts r (by simp [single])).2.imp fun k x h => .one single h
  rcases r with a | refs | d
  · exact one rfl (by rw [items, refer])
  · rw [items, referEach_eq]
    have each := Yields.mapM stable_pointsTo refs fun part hp => (parts part hp).2
    refine (each.bind (stable_forall₂ stable_pointsTo refs) fun xs =>
      keeps.fresh.bind stable_true fun id => Yields.pure (Ref.anyOf id xs)).imp ?_
    rintro k _ ⟨xs, h, id, -, rfl⟩
    exact .several h
  · exact one rfl (by rw [items, refer])

theorem items?_yields (keeps : s.Keeps g) {i : Option TypeRef}
    (parts : ∀ part ∈ TypeRef.spread i, Builds g s part) :
    Yields g (s.items? i) fun k item => Option.Rel (TypeRef.ItemsPointTo k) i item := by
  rcases i with _ | r
  · exact (Yields.pure none).imp fun k item h => h ▸ .none
  · have stable : Stable fun k x => r.ItemsPointTo k x :=
      fun k k' x le h => h.mono_of le fun _ _ _ h => h.mono le
    rw [items?]
    refine ((items_yields keeps parts).bind stable fun x => Yields.pure (some x)).imp ?_
    rintro k _ ⟨x, h, rfl⟩
    exact .some h

theorem stable_entries (entries : List (String × TypeRef)) :
    Stable fun k found => List.Forall₂ (TypeRef.EntryPointsTo k) entries found :=
  fun _ _ _ le h => h.imp fun _ _ ⟨h⟩ => ⟨h.mono le⟩

theorem entry_yields {e : String × TypeRef} (refer : Yields g (s.refer e.2) fun k x => e.2.PointsTo k x) :
    Yields g (s.entry e) fun k found => TypeRef.EntryPointsTo k e found := by
  refine (refer.bind (stable_pointsTo e.2) fun x =>
    Yields.pure (e.1, (⟨x, false⟩ : Property Ref))).imp ?_
  rintro k _ ⟨x, h, rfl⟩
  exact ⟨h⟩

theorem properties?_yields {properties : Option (List (String × TypeRef))}
    (parts : ∀ e ∈ properties.getD [], Builds g s e.2) :
    Yields g (s.properties? properties) fun k found => ∃ entries,
      List.Forall₂ (TypeRef.EntryPointsTo k) (properties.getD []) entries ∧
        found = Keyed.ofEntries entries := by
  rcases properties with _ | list
  · exact (Yields.pure []).imp fun k found h => ⟨[], .nil, h⟩
  · have each := Yields.mapM (fun e _ _ _ le ⟨h⟩ => ⟨h.mono le⟩) list fun e he =>
      entry_yields (parts e he).2
    rw [properties?, properties_eq]
    refine (each.bind (stable_entries list) fun found => Yields.pure (Keyed.ofEntries found)).imp ?_
    rintro k _ ⟨found, h, rfl⟩
    exact ⟨found, h, rfl⟩

theorem members?_yields {anyOf : Option (List TypeRef)}
    (parts : ∀ r ∈ anyOf.getD [], Builds g s r) :
    Yields g (s.members? anyOf) fun k nodes =>
      List.Forall₂ (TypeRef.Denotes k) (anyOf.getD []) nodes := by
  rcases anyOf with _ | refs
  · exact (Yields.pure []).imp fun k nodes h => h ▸ .nil
  · rw [members?, resolveEach_eq]
    exact Yields.mapM stable_denotes refs fun r hr => (parts r hr).1

theorem build_eq (s : Scope) (id : NodeId) (d : Declaration) :
    s.build id d = (do
      let named ← s.supertypes? d.displayName d.extends?
      let supertypes := named.getD [Node.ofBase d.inferredBase]
      let target := DeclarationOf.target d.anyOf supertypes
      match d.foreignFacet? target with
      | some facet => Building.fail (.invalidFacet d.displayName facet (.notApplicable target))
      | none => do
        let links : Links := ⟨s.items? d.items, s.properties? d.properties, s.members? d.anyOf⟩
        let shape ← DeclarationOf.ownShape d.displayName d.details target links
        Building.compose id d.name supertypes d.details.header shape) := by
  obtain ⟨_, _, _, _, _, _⟩ := d
  unfold build
  rfl

theorem ownShape_yields (keeps : s.Keeps g) {d : Declaration} {target : BaseType}
    (applicable : d.foreignFacet? target = none)
    (parts : ∀ grip r, (grip, r) ∈ d.parts → Builds g s r) :
    Yields g (DeclarationOf.ownShape d.displayName d.details target
        ⟨s.items? d.items, s.properties? d.properties, s.members? d.anyOf⟩) fun k shape =>
      ∃ item entries members, Option.Rel (TypeRef.ItemsPointTo k) d.items item ∧
        List.Forall₂ (TypeRef.EntryPointsTo k) (d.properties.getD []) entries ∧
        List.Forall₂ (TypeRef.Denotes k) (d.anyOf.getD []) members ∧
        DeclarationOf.ownShape d.displayName d.details target
          ⟨pure item, pure (Keyed.ofEntries entries), pure members⟩ = pure shape := by
  have items := items?_yields keeps fun part hp => parts _ part (DeclarationOf.item_mem_parts hp)
  have properties := properties?_yields fun e he =>
    parts _ e.2 (DeclarationOf.property_mem_parts he)
  have members := members?_yields fun r hr => parts _ r (DeclarationOf.member_mem_parts hr)
  -- A facet of another family would have been refused, so the links that are not built are empty.
  refine (DeclarationOf.ownShape_yields items properties members ?_ ?_ ?_ ?_ ?_ ?_).imp ?_
  · exact stable_itemsPointTo _
  · rintro k k' found le ⟨entries, h, rfl⟩
    exact ⟨entries, stable_entries _ le h, rfl⟩
  · exact stable_forall₂ stable_denotes _
  · intro ht k
    rw [DeclarationOf.items_eq_none applicable ht]
    exact .none
  · intro ht k
    rw [DeclarationOf.properties_eq_none applicable ht]
    exact ⟨[], .nil, rfl⟩
  · intro ht k
    rw [DeclarationOf.anyOf_eq_none applicable ht]
    exact .nil
  · rintro k shape ⟨item, _, nodes, hi, ⟨entries, hp, rfl⟩, hm, made⟩
    exact ⟨item, entries, nodes, hi, hp, hm, made⟩

theorem build_yields_of (keeps : s.Keeps g) (id : NodeId) {d : Declaration}
    (parts : ∀ grip r, (grip, r) ∈ d.parts → Builds g s r) :
    Yields g (s.build id d) fun k n => d.Describes k id n := by
  have supers := supertypes?_yields d.displayName d.inferredBase fun r hr =>
    parts _ r (DeclarationOf.supertype_mem_parts hr)
  rw [build_eq]
  intro p n q hp run
  obtain ⟨named, p', first, second⟩ := Building.bind_eq_ok.mp run
  obtain ⟨hp', le, hs⟩ := supers p named p' hp first
  rcases applicable : d.foreignFacet? (DeclarationOf.target d.anyOf
    (named.getD [Node.ofBase d.inferredBase])) with _ | facet
  · simp only [applicable] at second
    have shaped := ownShape_yields keeps applicable parts
    obtain ⟨shape, p'', third, fourth⟩ := Building.bind_eq_ok.mp second
    obtain ⟨hp'', le', item, entries, members, hi, hps, hm, hshape⟩ := shaped p' shape p'' hp' third
    obtain ⟨made, rfl⟩ := Building.fixed_compose _ _ _ _ _ _ _ _ fourth
    exact ⟨hp'', Known.le_trans le le',
      .intro (stable_extends _ _ le' hs) applicable hi hps hm hshape made⟩
  · simp only [applicable] at second
    cases second

theorem builds_of_node {r : TypeRef} (same : s.refer r = s.resolve r >>= fun n => pure (.node n))
    (h : Yields g (s.resolve r) fun k n => r.Denotes k n) : Builds g s r := by
  refine ⟨h, ?_⟩
  rw [same]
  refine (h.bind (stable_denotes r) fun n => Yields.pure (Ref.node n)).imp ?_
  rintro k _ ⟨n, hn, rfl⟩
  exact .node hn

/-- Building a reference gives a node that it denotes, or a link that points to one. -/
theorem builds (keeps : s.Keeps g) (r : TypeRef) : Builds g s r := by
  induction r using TypeRef.induction with
  | name a =>
    have direct : Yields g (s.resolve (.name a)) fun k n => (TypeRef.name a).Denotes k n := by
      rw [resolve]
      exact (keeps.lookUp a).imp fun k n h => .name h
    rcases hp : s.pending? a with _ | id
    · refine builds_of_node ?_ direct
      simp only [refer, resolve, hp]
    -- The name is still being built: as a node it is a cycle, as a link it waits.
    · refine ⟨direct, ?_⟩
      simp only [refer, hp]
      refine (keeps.forward a id hp).imp ?_
      rintro k _ ⟨rfl, h⟩
      exact .forward h
  | many refs ih =>
    have each := Yields.mapM stable_denotes refs fun r hr => (ih r hr).1
    refine builds_of_node ?_ ?_
    · simp only [refer, resolve, bind_assoc]
    · rw [resolve, resolveEach_eq]
      refine (each.bind (stable_forall₂ stable_denotes refs) fun nodes =>
        keeps.fresh.bind stable_true fun id =>
          Yields.fixed (Building.fixed_compose id none nodes Header.empty .any)).imp ?_
      rintro k n ⟨nodes, h, id, -, made⟩
      exact .many h made
  | inline d ih =>
    refine builds_of_node ?_ ?_
    · simp only [refer, resolve, bind_assoc]
    · rw [resolve]
      refine (keeps.fresh.bind stable_true fun id => build_yields_of keeps id ih).imp ?_
      rintro k n ⟨id, -, h⟩
      exact .inline h

theorem build_yields (keeps : s.Keeps g) (id : NodeId) (d : Declaration) :
    Yields g (s.build id d) fun k n => d.Describes k id n :=
  build_yields_of keeps id fun _ r _ => builds keeps r

end Scope

end Schemata

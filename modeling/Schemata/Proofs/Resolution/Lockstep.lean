import Schemata.Proofs.Graph.Similarity
import Schemata.Proofs.Resolution.Twins

/-! Two runs of building in lockstep. If every name mentioned is looked up at once in both, to
similar nodes, both build similar nodes or fail with one error, without building a name or making a
forward reference. -/

namespace Schemata

variable {α β γ δ : Type}

namespace Building

/-- Both fail with one error, or both succeed with related results and only give out numbers. -/
inductive Meet (R : α → β → Prop) (p p' : Progress) :
    Except TypeError (α × Progress) → Except TypeError (β × Progress) → Prop
  | error (e : TypeError) : Meet R p p' (.error e) (.error e)
  | ok {a : α} {b : β} {next next' : NodeId} (h : R a b) :
      Meet R p p' (.ok (a, { p with next := next })) (.ok (b, { p' with next := next' }))

/-- Two steps meet, whatever numbers are given out, once certain names are built. -/
def Abreast (built built' : Keyed Node) (R : α → β → Prop) (x : Building α) (y : Building β) : Prop :=
  ∀ p p', p.built = built → p'.built = built' → Meet R p p' (x p) (y p')

namespace Abreast

variable {built built' : Keyed Node} {R : α → β → Prop} {S : γ → δ → Prop} {x : Building α}
  {y : Building β}

theorem pure {a : α} {b : β} (h : R a b) : Abreast built built' R (pure a) (pure b) :=
  fun _ _ _ _ => .ok h

theorem fail (e : TypeError) : Abreast built built' R (Building.fail e) (Building.fail e) :=
  fun _ _ _ _ => .error e

theorem fresh : Abreast built built' (fun _ _ => True) Building.fresh Building.fresh :=
  fun _ _ _ _ => .ok trivial

theorem lift (e : Except TypeError α) : Abreast built built' Eq (liftM e) (liftM e) := by
  rcases e with e | a
  · exact fail e
  · exact pure rfl

theorem bind {f : α → Building γ} {f' : β → Building δ} (h : Abreast built built' R x y)
    (next : ∀ a b, R a b → Abreast built built' S (f a) (f' b)) :
    Abreast built built' S (x >>= f) (y >>= f') := by
  intro p p' hp hp'
  change Meet S p p' ((x p).bind fun r => f r.1 r.2) ((y p').bind fun r => f' r.1 r.2)
  have first := h p p' hp hp'
  generalize x p = run at first ⊢
  generalize y p' = run' at first ⊢
  cases first with
  | error e => exact .error e
  | @ok a b k k' hab =>
    have tail := next a b hab { p with next := k } { p' with next := k' } hp hp'
    change Meet S p p' (f a { p with next := k }) (f' b { p' with next := k' })
    generalize f a { p with next := k } = run at tail ⊢
    generalize f' b { p' with next := k' } = run' at tail ⊢
    cases tail with
    | error e => exact .error e
    | ok h => exact .ok h

theorem mapM {f : α → Building γ} {f' : α → Building δ} (xs : List α)
    (each : ∀ x ∈ xs, Abreast built built' S (f x) (f' x)) :
    Abreast built built' (List.Forall₂ S) (xs.mapM f) (xs.mapM f') := by
  induction xs with
  | nil =>
    rw [List.mapM_nil, List.mapM_nil]
    exact pure .nil
  | cons x xs ih =>
    rw [List.mapM_cons, List.mapM_cons]
    refine (each x List.mem_cons_self).bind fun a b hab => ?_
    refine (ih fun y hy => each y (List.mem_cons_of_mem _ hy)).bind fun as bs h => ?_
    exact pure (.cons hab h)

variable {g g' : Graph}

theorem compose {nodes nodes' : List Node} (similar : List.Forall₂ (g.Similar g') nodes nodes')
    {shape shape' : Shape Node Ref}
    (shapes : Shape.Alike (g.Similar g') (g.Link g' (g.Similar g')) shape shape') (id id' : NodeId)
    (name : Option String) (header : Header) :
    Abreast built built' (g.Similar g') (compose id name nodes header shape)
      (compose id' name nodes' header shape') := by
  cases similar with
  | nil => exact fail _
  | @cons first first' rest rest' same each =>
    have family : first.family = first'.family := same.stands.1
    have found := forall₂_find? (p := fun s => !first.family.isCompatible s.family)
      (q := fun s => !first'.family.isCompatible s.family) each fun s s' h => by
        rw [family, h.stands.1]
    unfold Building.compose
    dsimp only
    generalize (rest.find? fun s => !first.family.isCompatible s.family) = odd at found ⊢
    generalize (rest'.find? fun s => !first'.family.isCompatible s.family) = odd' at found ⊢
    cases found with
    | none =>
      refine pure (Graph.similar_of_alike ?_)
      rw [same.alike.base]
      exact Node.extend_alike (.cons same each) (.cons same.alike (each.imp fun _ _ h => h.alike))
        _ _ _ _ _ shapes
    | some h =>
      dsimp only
      rw [family, h.stands.1, Node.displayName, h.alike.name, ← Node.displayName]
      exact fail _

end Abreast
end Building

open Building

variable {g g' : Graph} {built built' : Keyed Node}

theorem DeclarationOf.ownShape_abreast {name : String} {d : DeclarationDetails} {target : BaseType}
    {links links' : Links}
    (items : Abreast built built' (Option.Rel (g.Link g' (g.Similar g'))) links.items links'.items)
    (properties : Abreast built built' (Keyed.Alike (Property.Alike (g.Link g' (g.Similar g'))))
      links.properties links'.properties)
    (members : Abreast built built' (List.Forall₂ (g.Similar g')) links.members links'.members) :
    Abreast built built' (Shape.Alike (g.Similar g') (g.Link g' (g.Similar g')))
      (ownShape name d target links) (ownShape name d target links') := by
  unfold ownShape
  cases (target.emptyShape : Shape Node Ref).kind with
  | string => exact (Abreast.lift _).bind fun _ _ same => .pure (same ▸ .string _)
  | number => exact (Abreast.lift _).bind fun _ _ same => .pure (same ▸ .number _)
  | date => exact (Abreast.lift _).bind fun _ _ same => .pure (same ▸ .date _)
  | array => exact items.bind fun _ _ h => .pure (.array h)
  | object =>
    exact properties.bind fun _ _ h => (Abreast.lift _).bind fun _ _ same => .pure (same ▸ .object h)
  | union => exact members.bind fun _ _ h => .pure (.union h)
  | _ => exact .pure target.emptyShape_alike

namespace Scope

variable {s s' : Scope}

structure Meets (g g' : Graph) (built built' : Keyed Node) (s s' : Scope) (a : String) : Prop where
  idle : s.pending? a = none
  idle' : s'.pending? a = none
  lookUp : Abreast built built' (g.Similar g') (s.lookUp a) (s'.lookUp a)

structure Agree (g g' : Graph) (built built' : Keyed Node) (s s' : Scope) (r : TypeRef) : Prop where
  resolve : Abreast built built' (g.Similar g') (s.resolve r) (s'.resolve r)
  refer : Abreast built built' (g.Link g' (g.Similar g')) (s.refer r) (s'.refer r)

theorem agree_of_node {r : TypeRef}
    (same : ∀ s : Scope, s.refer r = s.resolve r >>= fun n => pure (.node n))
    (resolve : Abreast built built' (g.Similar g') (s.resolve r) (s'.resolve r)) :
    Agree g g' built built' s s' r := by
  refine ⟨resolve, ?_⟩
  rw [same, same]
  exact resolve.bind fun _ _ h => .pure (.node h)

section Parts

theorem supertypes?_abreast {e : Option TypeRef} (type : String)
    (parts : ∀ r ∈ TypeRef.spread e, Agree g g' built built' s s' r) :
    Abreast built built' (Option.Rel (List.Forall₂ (g.Similar g'))) (s.supertypes? type e)
      (s'.supertypes? type e) := by
  rcases e with _ | r
  · exact .pure .none
  · rw [supertypes?, supertypes?, supertypes_eq, supertypes_eq]
    split
    · exact (Abreast.fail (R := fun _ _ => False) _).bind fun _ _ h => h.elim
    · exact (Abreast.mapM _ fun r hr => (parts r hr).resolve).bind fun _ _ h => .pure (.some h)

theorem items?_abreast {i : Option TypeRef}
    (parts : ∀ r ∈ TypeRef.spread i, Agree g g' built built' s s' r) :
    Abreast built built' (Option.Rel (g.Link g' (g.Similar g'))) (s.items? i) (s'.items? i) := by
  rcases i with _ | r
  · exact .pure .none
  · have item : Abreast built built' (g.Link g' (g.Similar g')) (s.items r) (s'.items r) := by
      rcases r with a | refs | d
      · have one := (parts _ List.mem_cons_self).refer
        rwa [refer, refer, ← items, ← items] at one
      · rw [items, items, referEach_eq, referEach_eq]
        refine (Abreast.mapM _ fun r hr => (parts r hr).refer).bind fun _ _ h => ?_
        exact Abreast.fresh.bind fun id id' _ => .pure (.anyOf h id id')
      · have one := (parts _ List.mem_cons_self).refer
        rwa [refer, refer, ← items, ← items] at one
    rw [items?, items?]
    exact item.bind fun _ _ h => .pure (.some h)

theorem properties?_abreast {properties : Option (List (String × TypeRef))}
    (parts : ∀ e ∈ properties.getD [], Agree g g' built built' s s' e.2) :
    Abreast built built' (Keyed.Alike (Property.Alike (g.Link g' (g.Similar g'))))
      (s.properties? properties) (s'.properties? properties) := by
  rcases properties with _ | list
  · exact .pure .nil
  · rw [properties?, properties?, properties_eq, properties_eq]
    have entry (e : String × TypeRef) (he : e ∈ list) : Abreast built built' (fun a b : String × Property Ref =>
        a.1 = b.1 ∧ Property.Alike (g.Link g' (g.Similar g')) a.2 b.2) (s.entry e) (s'.entry e) :=
      (parts e he).refer.bind fun _ _ h => .pure ⟨rfl, h, rfl⟩
    exact (Abreast.mapM _ entry).bind fun _ _ h => .pure (Keyed.Alike.ofEntries h)

theorem members?_abreast {anyOf : Option (List TypeRef)}
    (parts : ∀ r ∈ anyOf.getD [], Agree g g' built built' s s' r) :
    Abreast built built' (List.Forall₂ (g.Similar g')) (s.members? anyOf) (s'.members? anyOf) := by
  rcases anyOf with _ | refs
  · exact .pure .nil
  · rw [members?, members?, resolveEach_eq, resolveEach_eq]
    exact Abreast.mapM _ fun r hr => (parts r hr).resolve

end Parts

theorem build_abreast_of {d : Declaration}
    (parts : ∀ grip r, (grip, r) ∈ d.parts → Agree g g' built built' s s' r) (id id' : NodeId) :
    Abreast built built' (g.Similar g') (s.build id d) (s'.build id' d) := by
  have supers := supertypes?_abreast d.displayName fun r hr =>
    parts _ r (DeclarationOf.supertype_mem_parts hr)
  have items := items?_abreast fun r hr => parts _ r (DeclarationOf.item_mem_parts hr)
  have properties := properties?_abreast fun e he => parts _ e.2 (DeclarationOf.property_mem_parts he)
  have members := members?_abreast fun r hr => parts _ r (DeclarationOf.member_mem_parts hr)
  rw [build_eq, build_eq]
  refine supers.bind fun named named' h => ?_
  have similar : List.Forall₂ (g.Similar g') (named.getD [Node.ofBase d.inferredBase])
      (named'.getD [Node.ofBase d.inferredBase]) := by
    cases h with
    | none => exact .cons (Graph.similar_ofBase _) .nil
    | some h => exact h
  -- Both ask for the facets of one base type.
  dsimp only
  rw [← DeclarationOf.target_eq (similar.imp fun _ _ h => h.stands.2)]
  split
  · exact .fail _
  · refine (DeclarationOf.ownShape_abreast items properties members).bind fun _ _ shapes => ?_
    exact .compose similar shapes id id' _ _

theorem agree_of_mentions {r : TypeRef}
    (meets : ∀ own a, r.Mentions .firm own a → Meets g g' built built' s s' a) :
    Agree g g' built built' s s' r := by
  induction r using TypeRef.induction with
  | name a =>
    have meets := meets .firm a .name
    have looked : Abreast built built' (g.Similar g') (s.resolve (.name a)) (s'.resolve (.name a)) := by
      rw [Scope.resolve, Scope.resolve]
      exact meets.lookUp
    refine ⟨looked, ?_⟩
    rw [Scope.refer, Scope.refer, meets.idle, meets.idle']
    exact meets.lookUp.bind fun _ _ h => .pure (.node h)
  | many refs ih =>
    refine agree_of_node (fun s => by simp only [Scope.refer, Scope.resolve, bind_assoc]) ?_
    rw [Scope.resolve, Scope.resolve, resolveEach_eq, resolveEach_eq]
    have each (r : TypeRef) (hr : r ∈ refs) : Agree g g' built built' s s' r :=
      ih r hr fun own a h => meets own a (.many hr h)
    refine (Abreast.mapM _ fun r hr => (each r hr).resolve).bind fun _ _ h => ?_
    exact Abreast.fresh.bind fun id id' _ => .compose h .any id id' _ _
  | inline d ih =>
    refine agree_of_node (fun s => by simp only [Scope.refer, Scope.resolve, bind_assoc]) ?_
    rw [Scope.resolve, Scope.resolve]
    refine Abreast.fresh.bind fun id id' _ => build_abreast_of (fun grip r hr => ?_) id id'
    refine ih grip r hr fun own a h => ?_
    obtain ⟨own', h⟩ := h.regrip
    exact meets own' a (.inline hr h)

/-- A declaration all of whose names are looked up in both scopes is built in both. -/
theorem build_abreast {d : Declaration}
    (meets : ∀ own a, d.Mentions own a → Meets g g' built built' s s' a) (id id' : NodeId) :
    Abreast built built' (g.Similar g') (s.build id d) (s'.build id' d) := by
  refine build_abreast_of (fun grip r hr => agree_of_mentions fun own a h => ?_) id id'
  obtain ⟨own', h⟩ := h.regrip
  exact meets own' a ⟨grip, r, hr, h⟩

end Scope
end Schemata

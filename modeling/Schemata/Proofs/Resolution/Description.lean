import Mathlib.Data.Option.Basic
import Schemata.Library.Resolution
import Schemata.Proofs.Declaration.Mention
import Schemata.Proofs.Related

/-! What a declaration describes, said without the order in which names are built. Given what is
known of the names, a node is described by a declaration when its supertypes, items, properties
and members lead to what their references denote. -/

namespace Schemata

/-- What is known of names: the nodes that they stand for, and the numbers that a reference may
point forward to. -/
structure Known where
  direct : String → Node → Prop
  forward : NodeId → String → Prop

namespace Known

instance : LE Known where
  le k k' := (∀ a n, k.direct a n → k'.direct a n) ∧ ∀ id a, k.forward id a → k'.forward id a

theorem le_refl (k : Known) : k ≤ k := ⟨fun _ _ h => h, fun _ _ h => h⟩

theorem le_trans {k k' k'' : Known} (h : k ≤ k') (h' : k' ≤ k'') : k ≤ k'' :=
  ⟨fun a n hd => h'.1 a n (h.1 a n hd), fun id a hf => h'.2 id a (h.2 id a hf)⟩

/-- What a mention asks for: the node of the name, or at least a number to point forward to. -/
def Answers (k : Known) : Grip → String → Prop
  | .firm, a => ∃ n, k.direct a n
  | .loose, a => (∃ n, k.direct a n) ∨ ∃ id, k.forward id a

end Known

mutual

inductive TypeRef.Denotes (k : Known) : TypeRef → Node → Prop
  | name {a : String} {n : Node} (h : k.direct a n) : TypeRef.Denotes k (.name a) n
  | many {refs : List TypeRef} {nodes : List Node} {id : NodeId} {n : Node}
      (each : List.Forall₂ (TypeRef.Denotes k) refs nodes)
      (made : Building.compose id none nodes Header.empty .any = pure n) :
      TypeRef.Denotes k (.many refs) n
  | inline {d : DeclarationOf TypeRef} {id : NodeId} {n : Node}
      (h : DeclarationOf.Describes k d id n) : TypeRef.Denotes k (.inline d) n

inductive TypeRef.PointsTo (k : Known) : TypeRef → Ref → Prop
  | node {r : TypeRef} {n : Node} (h : TypeRef.Denotes k r n) : TypeRef.PointsTo k r (.node n)
  | forward {a : String} {id : NodeId} (h : k.forward id a) :
      TypeRef.PointsTo k (.name a) (.forward id a)

inductive TypeRef.ItemsPointTo (k : Known) : TypeRef → Ref → Prop
  | one {r : TypeRef} {x : Ref} (single : TypeRef.spread (some r) = [r])
      (h : TypeRef.PointsTo k r x) : TypeRef.ItemsPointTo k r x
  | several {refs : List TypeRef} {xs : List Ref} {id : NodeId}
      (each : List.Forall₂ (TypeRef.PointsTo k) refs xs) :
      TypeRef.ItemsPointTo k (.many refs) (.anyOf id xs)

inductive TypeRef.EntryPointsTo (k : Known) : String × TypeRef → String × Property Ref → Prop
  | mk {key : String} {r : TypeRef} {x : Ref} (h : TypeRef.PointsTo k r x) :
      TypeRef.EntryPointsTo k (key, r) (key, ⟨x, false⟩)

/-- The nodes are what a declaration extends, a base type where it says nothing. -/
inductive TypeRef.Extends (k : Known) : Option TypeRef → BaseType → List Node → Prop
  | base {b : BaseType} : TypeRef.Extends k none b [Node.ofBase b]
  | each {r : TypeRef} {b : BaseType} {nodes : List Node}
      (h : List.Forall₂ (TypeRef.Denotes k) (TypeRef.spread (some r)) nodes) :
      TypeRef.Extends k (some r) b nodes

/-- The node, with its number, is what the declaration says. -/
inductive DeclarationOf.Describes (k : Known) : DeclarationOf TypeRef → NodeId → Node → Prop
  | intro {d : DeclarationOf TypeRef} {id : NodeId} {n : Node} {supertypes : List Node}
      {item : Option Ref} {entries : List (String × Property Ref)} {members : List Node}
      {shape : Shape Node Ref}
      (supers : TypeRef.Extends k d.extends? d.inferredBase supertypes)
      (applicable : d.foreignFacet? (DeclarationOf.target d.anyOf supertypes) = none)
      (items : Option.Rel (TypeRef.ItemsPointTo k) d.items item)
      (properties : List.Forall₂ (TypeRef.EntryPointsTo k) (d.properties.getD []) entries)
      (union : List.Forall₂ (TypeRef.Denotes k) (d.anyOf.getD []) members)
      (shaped : DeclarationOf.ownShape d.displayName d.details
        (DeclarationOf.target d.anyOf supertypes)
        ⟨pure item, pure (Keyed.ofEntries entries), pure members⟩ = pure shape)
      (made : Building.compose id d.name supertypes d.details.header shape = pure n) :
      DeclarationOf.Describes k d id n

end

variable {k k' : Known}

/-! Knowing more of the names keeps every description. -/

theorem TypeRef.PointsTo.mono_of {r : TypeRef} {x : Ref} (le : k ≤ k')
    (denotes : ∀ n, r.Denotes k n → r.Denotes k' n) (h : r.PointsTo k x) : r.PointsTo k' x := by
  cases h with
  | node h => exact .node (denotes _ h)
  | forward h => exact .forward (le.2 _ _ h)

theorem TypeRef.ItemsPointTo.mono_of {r : TypeRef} {x : Ref} (le : k ≤ k')
    (denotes : ∀ part ∈ TypeRef.spread (some r), ∀ n, part.Denotes k n → part.Denotes k' n)
    (h : r.ItemsPointTo k x) : r.ItemsPointTo k' x := by
  cases h with
  | one single h =>
    refine .one single (h.mono_of le (denotes r ?_))
    simp [single]
  | several each =>
    exact .several (forall₂_imp_of_mem each fun part hp _ h => h.mono_of le (denotes part hp))

theorem TypeRef.Extends.mono_of {ref? : Option TypeRef} {b : BaseType} {nodes : List Node}
    (denotes : ∀ part ∈ TypeRef.spread ref?, ∀ n, part.Denotes k n → part.Denotes k' n)
    (h : TypeRef.Extends k ref? b nodes) : TypeRef.Extends k' ref? b nodes := by
  cases h with
  | base => exact .base
  | each h => exact .each (forall₂_imp_of_mem h fun part hp => denotes part hp)

theorem DeclarationOf.Describes.mono_of {d : Declaration} {id : NodeId} {n : Node} (le : k ≤ k')
    (denotes : ∀ grip r, (grip, r) ∈ d.parts → ∀ n, r.Denotes k n → r.Denotes k' n)
    (h : d.Describes k id n) : d.Describes k' id n := by
  obtain ⟨supers, applicable, items, properties, union, shaped, made⟩ := h
  refine .intro ?_ applicable ?_ ?_ ?_ shaped made
  · exact supers.mono_of fun part hp => denotes _ part (supertype_mem_parts hp)
  · rcases hi : d.items with _ | r <;> rw [hi] at items
    · cases items
      exact .none
    · cases items with
      | some h =>
        refine .some (h.mono_of le fun part hp => denotes _ part (item_mem_parts ?_))
        rwa [hi]
  · refine forall₂_imp_of_mem properties fun e he x hx => ?_
    obtain ⟨h⟩ := hx
    exact ⟨h.mono_of le (denotes _ _ (property_mem_parts he))⟩
  · exact forall₂_imp_of_mem union fun part hp => denotes _ part (member_mem_parts hp)

theorem TypeRef.Denotes.mono (le : k ≤ k') {r : TypeRef} {n : Node} (h : r.Denotes k n) :
    r.Denotes k' n := by
  induction r using TypeRef.induction generalizing n with
  | name a =>
    obtain ⟨h⟩ := h
    exact .name (le.1 _ _ h)
  | many refs ih =>
    cases h with
    | many each made => exact .many (forall₂_imp_of_mem each fun r hr _ h => ih r hr h) made
  | inline d ih =>
    cases h with
    | inline h => exact .inline (h.mono_of le fun grip r hr _ h => ih grip r hr h)

theorem TypeRef.PointsTo.mono (le : k ≤ k') {r : TypeRef} {x : Ref} (h : r.PointsTo k x) :
    r.PointsTo k' x := h.mono_of le fun _ h => h.mono le

theorem DeclarationOf.Describes.mono (le : k ≤ k') {d : Declaration} {id : NodeId} {n : Node}
    (h : d.Describes k id n) : d.Describes k' id n := h.mono_of le fun _ _ _ _ h => h.mono le

/-! Every name that a declaration mentions is known, as far as the mention needs it. -/

def TypeRef.Leads (k : Known) (r : TypeRef) : Grip → Prop
  | .firm => ∃ n, r.Denotes k n
  | .loose => ∃ x, r.PointsTo k x

theorem DeclarationOf.Describes.leads {d : Declaration} {id : NodeId} {n : Node}
    (h : d.Describes k id n) {grip : Grip} {r : TypeRef} (mem : (grip, r) ∈ d.parts) :
    r.Leads k grip := by
  obtain ⟨supers, _, items, properties, union, _, _⟩ := h
  obtain ⟨rfl, hr⟩ | ⟨rfl, hr⟩ | ⟨rfl, key, hr⟩ | ⟨rfl, hr⟩ := mem_parts.mp mem
  · rcases he : d.extends? with _ | e <;> rw [he] at supers hr
    · cases hr
    · cases supers with
      | each h =>
        obtain ⟨n, -, hn⟩ := exists_of_forall₂_of_mem h hr
        exact ⟨n, hn⟩
  · rcases hi : d.items with _ | e <;> rw [hi] at items hr
    · cases hr
    · cases items with
      | some h =>
        cases h with
        | one single h =>
          rw [single] at hr
          obtain rfl := List.mem_singleton.mp hr
          exact ⟨_, h⟩
        | several each =>
          obtain ⟨x, -, hx⟩ := exists_of_forall₂_of_mem each hr
          exact ⟨x, hx⟩
  · obtain ⟨e, -, ⟨h⟩⟩ := exists_of_forall₂_of_mem properties hr
    exact ⟨_, h⟩
  · obtain ⟨n, -, hn⟩ := exists_of_forall₂_of_mem union hr
    exact ⟨n, hn⟩

theorem TypeRef.Leads.answers {grip own : Grip} {r : TypeRef} {a : String} (h : r.Leads k grip)
    (mention : r.Mentions grip own a) : k.Answers own a := by
  induction mention with
  | @name grip a =>
    cases grip with
    | firm =>
      obtain ⟨n, ⟨h⟩⟩ := h
      exact ⟨n, h⟩
    | loose =>
      obtain ⟨x, h⟩ := h
      cases h with
      | node h =>
        obtain ⟨h⟩ := h
        exact .inl ⟨_, h⟩
      | forward h => exact .inr ⟨_, h⟩
  | @many grip own refs r a mem _ ih =>
    have hn : ∃ n, (TypeRef.many refs).Denotes k n := by
      cases grip with
      | firm => exact h
      | loose =>
        obtain ⟨x, ⟨h⟩⟩ := h
        exact ⟨_, h⟩
    obtain ⟨n, hn⟩ := hn
    cases hn with
    | many each _ =>
      obtain ⟨m, -, hm⟩ := exists_of_forall₂_of_mem each mem
      exact ih ⟨m, hm⟩
  | @inline grip part own d r a mem _ ih =>
    have hn : ∃ n, (TypeRef.inline d).Denotes k n := by
      cases grip with
      | firm => exact h
      | loose =>
        obtain ⟨x, ⟨h⟩⟩ := h
        exact ⟨_, h⟩
    obtain ⟨n, hn⟩ := hn
    cases hn with
    | inline h => exact ih (h.leads mem)

theorem DeclarationOf.Describes.answers {d : Declaration} {id : NodeId} {n : Node}
    (h : d.Describes k id n) {grip : Grip} {a : String} (mention : d.Mentions grip a) :
    k.Answers grip a := by
  obtain ⟨part, r, mem, hr⟩ := mention
  exact (h.leads mem).answers hr

end Schemata

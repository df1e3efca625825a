import Schemata.Node.Basic
import Schemata.Proofs.Facet.Likeness

/-! Nodes that are alike: one name, base type and header, with related supertypes and shapes that
are alike. Extending supertypes that are alike gives nodes that are alike, which stand for one
family and one base type. -/

namespace Schemata.Node

/-! Supertypes and members are parts of a node. -/

theorem sizeOf_lt_of_mem_supertypes {n s : Node} (h : s ∈ n.supertypes) : sizeOf s < sizeOf n := by
  obtain ⟨_, _, _, supertypes, _, _, _, _, _⟩ := n
  have h : s ∈ supertypes := h
  have := List.sizeOf_lt_of_mem h
  simp only [mk.sizeOf_spec]
  omega

theorem sizeOf_lt_of_mem_members {shape : Shape Node Ref} {m : Node} (h : m ∈ shape.members) :
    sizeOf m < sizeOf shape := by
  cases shape with
  | union members =>
    have h : m ∈ members := h
    have := List.sizeOf_lt_of_mem h
    simp only [Shape.union.sizeOf_spec]
    omega
  | _ => cases h

theorem sizeOf_lt_of_mem_shape {n m : Node} (h : m ∈ n.shape.members) : sizeOf m < sizeOf n := by
  obtain ⟨_, _, _, _, _, shape, _, _, _⟩ := n
  have h : m ∈ shape.members := h
  have := sizeOf_lt_of_mem_members h
  simp only [mk.sizeOf_spec]
  omega

theorem sizeOf_lt_of_mem_ownShape {n m : Node} (h : m ∈ n.ownShape.members) :
    sizeOf m < sizeOf n := by
  obtain ⟨_, _, _, _, _, _, _, ownShape, _⟩ := n
  have h : m ∈ ownShape.members := h
  have := sizeOf_lt_of_mem_members h
  simp only [mk.sizeOf_spec]
  omega

/-- Nodes with one name, base type and header, with related supertypes and with shapes that are
alike. Numbers are left out. -/
structure Alike (M : Node → Node → Prop) (L : Ref → Ref → Prop) (a b : Node) : Prop where
  name : a.name = b.name
  base : a.base = b.base
  builtin : a.builtin = b.builtin
  header : a.header = b.header
  ownHeader : a.ownHeader = b.ownHeader
  supertypes : List.Forall₂ M a.supertypes b.supertypes
  shape : Shape.Alike M L a.shape b.shape
  ownShape : Shape.Alike M L a.ownShape b.ownShape

variable {M M' : Node → Node → Prop} {L L' : Ref → Ref → Prop} {a b : Node}

theorem Alike.refl (hM : ∀ m, M m m) (hL : ∀ x, L x x) (n : Node) : Alike M L n n :=
  ⟨rfl, rfl, rfl, rfl, rfl, List.forall₂_same.mpr fun _ _ => hM _, .refl hM hL _, .refl hM hL _⟩

theorem Alike.mono (hM : ∀ m m', M m m' → M' m m') (hL : ∀ x x', L x x' → L' x x')
    (h : Alike M L a b) : Alike M' L' a b :=
  { h with
    supertypes := h.supertypes.imp hM
    shape := h.shape.mono hM hL
    ownShape := h.ownShape.mono hM hL }

theorem family_eq_of_members {n : Node} :
    n.family = match n.shape with
      | .union [] => .union
      | .union (m :: _) => m.family
      | _ => n.base.family := by
  obtain ⟨_, _, _, _, _, shape, _, _, _⟩ := n
  rcases shape with _ | _ | _ | _ | _ | _ | _ | _ | (_ | _) <;> rfl

theorem representedBase_eq_of_members {n : Node} :
    n.representedBase = match n.shape with
      | .union [] => .union
      | .union (m :: _) => m.representedBase
      | _ => n.base := by
  obtain ⟨_, _, _, _, _, shape, _, _, _⟩ := n
  rcases shape with _ | _ | _ | _ | _ | _ | _ | _ | (_ | _) <;> rfl

theorem Alike.stands (h : Alike M L a b)
    (members : ∀ m ∈ a.shape.members, ∀ m', M m m' →
      m.family = m'.family ∧ m.representedBase = m'.representedBase) :
    a.family = b.family ∧ a.representedBase = b.representedBase := by
  rw [family_eq_of_members, family_eq_of_members (n := b), representedBase_eq_of_members,
    representedBase_eq_of_members (n := b), ← h.base]
  have hs := h.shape
  revert hs members
  generalize a.shape = s, b.shape = t
  intro members hs
  cases hs with
  | union hm =>
    cases hm with
    | nil => exact ⟨rfl, rfl⟩
    | cons hm _ => exact members _ List.mem_cons_self _ hm
  | _ => exact ⟨rfl, rfl⟩

theorem foldl_header_eq {as bs : List Node} (h : List.Forall₂ (Alike M L) as bs) (start : Header) :
    as.foldl (fun h s => h.merge .inherit s.header) start =
      bs.foldl (fun h s => h.merge .inherit s.header) start := by
  induction h generalizing start with
  | nil => rfl
  | cons hab _ ih => rw [List.foldl_cons, List.foldl_cons, hab.header, ih]

theorem foldl_shape_alike {as bs : List Node} (h : List.Forall₂ (Alike M L) as bs)
    {s t : Shape Node Ref} (hst : Shape.Alike M L s t) :
    Shape.Alike M L (as.foldl (fun sh n => sh.merge .inherit n.shape) s)
      (bs.foldl (fun sh n => sh.merge .inherit n.shape) t) := by
  induction h generalizing s t with
  | nil => exact hst
  | cons hab _ ih => exact ih (hst.merge .inherit hab.shape)

theorem extend_alike {as bs : List Node} (related : List.Forall₂ M as bs)
    (h : List.Forall₂ (Alike M L) as bs) (id id' : Option NodeId) (name : Option String)
    (base : BaseType) (ownHeader : Header) {s t : Shape Node Ref} (hst : Shape.Alike M L s t) :
    Alike M L (extend id name base as ownHeader s) (extend id' name base bs ownHeader t) where
  name := rfl
  base := rfl
  builtin := rfl
  header := by simp only [extend, effective, foldl_header_eq h]
  ownHeader := rfl
  supertypes := related
  shape := (foldl_shape_alike h base.emptyShape_alike).merge .refine hst
  ownShape := hst

theorem ofBase_alike (base : BaseType) : Alike M L (ofBase base) (ofBase base) :=
  ⟨rfl, rfl, rfl, rfl, rfl, .nil, base.emptyShape_alike, base.emptyShape_alike⟩

end Schemata.Node

import Schemata.Graph
import Schemata.Proofs.Node.Likeness

/-! Nodes of two graphs that are the same up to numbers and up to where references point forward.
Since a type may contain values of itself, this is a relation that every step from node to node
keeps: through supertypes, members, properties and items. It also says that no forward reference
on the way is unbound. -/

namespace Schemata.Graph

inductive Binds (g : Graph) : Ref → Prop
  | node (n : Node) : Binds g (.node n)
  | forward {id : NodeId} {name : String} {n : Node} (h : g.bindings.lookup id = some n) :
      Binds g (.forward id name)
  | anyOf {id : NodeId} {members : List Ref} (h : ∀ r ∈ members, Binds g r) :
      Binds g (.anyOf id members)

structure Link (g g' : Graph) (R : Node → Node → Prop) (r r' : Ref) : Prop where
  bound : g.Binds r
  bound' : g'.Binds r'
  target : R (g.resolve r) (g'.resolve r')

/-- Nodes that are alike, and so is everything that they lead to. -/
def Similar (g g' : Graph) (n n' : Node) : Prop :=
  ∃ R : Node → Node → Prop, R n n' ∧ ∀ a b, R a b → Node.Alike R (Link g g' R) a b

/-- Every binding of the first graph is one of the second. -/
def Within (g h : Graph) : Prop :=
  ∀ id n, g.bindings.lookup id = some n → h.bindings.lookup id = some n

variable {g g' h h' : Graph} {n n' : Node} {r r' : Ref}

theorem Within.refl (g : Graph) : Within g g := fun _ _ h => h

theorem Within.of_eq (same : h.bindings = g.bindings) : Within g h := by
  intro id n found
  rwa [same]

theorem resolveEach_eq (g : Graph) (refs : List Ref) : g.resolveEach refs = refs.map g.resolve := by
  induction refs with
  | nil => rfl
  | cons r rest ih => rw [resolveEach, ih, List.map_cons]

theorem resolve_anyOf (g : Graph) (id : NodeId) (members : List Ref) :
    g.resolve (.anyOf id members) = Node.anyOf id (members.map g.resolve) := by
  rw [resolve, resolveEach_eq]

theorem resolve_forward {id : NodeId} (name : String) (found : g.bindings.lookup id = some n) :
    g.resolve (.forward id name) = n := by
  rw [resolve, found, Option.getD_some]

theorem Binds.mono (within : Within g h) (bound : g.Binds r) : h.Binds r := by
  induction bound with
  | node n => exact .node n
  | forward found => exact .forward (within _ _ found)
  | anyOf _ ih => exact .anyOf ih

theorem Binds.resolve_eq (within : Within g h) (bound : g.Binds r) : h.resolve r = g.resolve r := by
  induction bound with
  | node n => rfl
  | forward found => rw [resolve_forward _ found, resolve_forward _ (within _ _ found)]
  | anyOf _ ih =>
    rw [resolve_anyOf, resolve_anyOf]
    exact congrArg (Node.anyOf _) (List.map_congr_left ih)

theorem Link.mono {R R' : Node → Node → Prop} (imp : ∀ a b, R a b → R' a b)
    (within : Within g h) (within' : Within g' h') (link : Link g g' R r r') : Link h h' R' r r' := by
  refine ⟨link.bound.mono within, link.bound'.mono within', ?_⟩
  rw [link.bound.resolve_eq within, link.bound'.resolve_eq within']
  exact imp _ _ link.target

theorem Similar.mono (within : Within g h) (within' : Within g' h') (similar : Similar g g' n n') :
    Similar h h' n n' := by
  obtain ⟨R, hn, closed⟩ := similar
  refine ⟨R, hn, fun a b hab => (closed a b hab).mono (fun _ _ h => h) fun _ _ link => ?_⟩
  exact link.mono (fun _ _ h => h) within within'

theorem Similar.alike (similar : Similar g g' n n') :
    Node.Alike (Similar g g') (Link g g' (Similar g g')) n n' := by
  obtain ⟨R, hn, closed⟩ := similar
  have imp : ∀ a b, R a b → Similar g g' a b := fun a b hab => ⟨R, hab, closed⟩
  exact (closed n n' hn).mono imp fun _ _ link => link.mono imp (Within.refl g) (Within.refl g')

theorem similar_of_alike (alike : Node.Alike (Similar g g') (Link g g' (Similar g g')) n n') :
    Similar g g' n n' := by
  have imp : ∀ a b, Similar g g' a b → Similar g g' a b ∨ a = n ∧ b = n' := fun _ _ => .inl
  have links : ∀ x x', Link g g' (Similar g g') x x' →
      Link g g' (fun a b => Similar g g' a b ∨ a = n ∧ b = n') x x' :=
    fun _ _ link => link.mono imp (Within.refl g) (Within.refl g')
  refine ⟨fun a b => Similar g g' a b ∨ a = n ∧ b = n', .inr ⟨rfl, rfl⟩, fun a b h => ?_⟩
  rcases h with similar | ⟨rfl, rfl⟩
  · exact similar.alike.mono imp links
  · exact alike.mono imp links

theorem Similar.stands (similar : Similar g g' n n') :
    n.family = n'.family ∧ n.representedBase = n'.representedBase := by
  -- Members are parts of a node, so this goes by its size.
  induction hs : sizeOf n using Nat.strongRecOn generalizing n n' with
  | _ size ih =>
    subst hs
    exact similar.alike.stands fun m hm m' h => ih _ (Node.sizeOf_lt_of_mem_shape hm) h rfl

theorem similar_ofBase (b : BaseType) : Similar g g' (Node.ofBase b) (Node.ofBase b) := by
  refine ⟨fun n n' => ∃ b, n = Node.ofBase b ∧ n' = Node.ofBase b, ⟨b, rfl, rfl⟩, ?_⟩
  rintro _ _ ⟨b, rfl, rfl⟩
  exact Node.ofBase_alike b

theorem Link.node (similar : Similar g g' n n') : Link g g' (Similar g g') (.node n) (.node n') :=
  ⟨.node n, .node n', similar⟩

theorem similar_anyOf {ns ns' : List Node} (each : List.Forall₂ (Similar g g') ns ns')
    (id id' : NodeId) : Similar g g' (Node.anyOf id ns) (Node.anyOf id' ns') := by
  apply similar_of_alike
  exact Node.extend_alike (.cons (similar_ofBase .union) .nil) (.cons (Node.ofBase_alike .union) .nil)
    _ _ _ _ _ (.union each)

theorem Link.anyOf {rs rs' : List Ref} (each : List.Forall₂ (Link g g' (Similar g g')) rs rs')
    (id id' : NodeId) : Link g g' (Similar g g') (.anyOf id rs) (.anyOf id' rs') := by
  refine ⟨.anyOf fun r hr => ?_, .anyOf fun r hr => ?_, ?_⟩
  · obtain ⟨r', -, link⟩ := exists_of_forall₂_of_mem each hr
    exact link.bound
  · obtain ⟨r', -, link⟩ := exists_of_forall₂_of_mem each.flip hr
    exact link.bound'
  · rw [resolve_anyOf, resolve_anyOf]
    refine similar_anyOf ?_ id id'
    rw [List.forall₂_map_left_iff, List.forall₂_map_right_iff]
    exact each.imp fun _ _ link => link.target

end Schemata.Graph

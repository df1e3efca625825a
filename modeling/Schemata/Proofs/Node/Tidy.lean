import Schemata.Proofs.Facet.Tidy
import Schemata.Proofs.Library.Built

/-! The facets of built nodes and of their alternatives come from merges, so they are tidy. -/

namespace Schemata.Node

/-- The shape is of the kind of the base, lists nothing twice, and has the forced header for base
`nil`. -/
structure Tidy (n : Node) : Prop where
  kind : n.shape.kind = (n.base.emptyShape : Shape Node Ref).kind
  shape : n.shape.Tidy
  nil : n.base = .nil → n.header.required = some false ∧ n.header.default? = some .null

theorem tidy_ofBase (b : BaseType) : (ofBase b).Tidy := by
  refine ⟨rfl, Shape.tidy_emptyShape b, fun h => ?_⟩
  obtain rfl : b = .nil := h
  exact ⟨rfl, rfl⟩

theorem kind_inherited (base : BaseType) (sources : List Node) :
    (sources.foldl (fun s t => s.merge .inherit t.shape) (base.emptyShape : Shape Node Ref)).kind =
      (base.emptyShape : Shape Node Ref).kind := by
  generalize (base.emptyShape : Shape Node Ref) = start
  induction sources generalizing start with
  | nil => rfl
  | cons t rest ih => exact (ih _).trans (Shape.kind_merge _ _ _)

theorem kind_effective (base : BaseType) (sources : List Node) (h : Header) (own : Shape Node Ref) :
    (effective base sources h own).2.kind = (base.emptyShape : Shape Node Ref).kind :=
  (Shape.kind_merge _ _ _).trans (kind_inherited base sources)

theorem tidy_effective (base : BaseType) (sources : List Node) (h : Header) (own : Shape Node Ref) :
    (effective base sources h own).2.Tidy := by
  have inherited : (sources.foldl (fun s t => s.merge .inherit t.shape)
      (base.emptyShape : Shape Node Ref)).Tidy := by
    apply List.foldlRecOn sources _ (Shape.tidy_emptyShape base)
    exact fun s hs t _ => hs.merge .inherit t.shape
  exact inherited.merge .refine own

theorem tidy_of_effective {n : Node} {sources : List Node} {h : Header} {own : Shape Node Ref}
    (facets : (n.header, n.shape) = effective n.base sources h own) : n.Tidy := by
  have header : n.header = (effective n.base sources h own).1 := congrArg Prod.fst facets
  have shape : n.shape = (effective n.base sources h own).2 := congrArg Prod.snd facets
  refine ⟨?_, ?_, fun nil => ?_⟩
  · rw [shape]
    exact kind_effective n.base sources h own
  · rw [shape]
    exact tidy_effective n.base sources h own
  · rw [header, effective, if_pos nil]
    exact ⟨rfl, rfl⟩

theorem tidy_extend (id : Option NodeId) (name : Option String) (base : BaseType)
    (supertypes : List Node) (h : Header) (own : Shape Node Ref) :
    (extend id name base supertypes h own).Tidy :=
  tidy_of_effective (n := extend id name base supertypes h own) rfl

theorem Built.tidy {n : Node} (h : n.Built) : n.Tidy := by
  apply h.elim (P := Tidy)
  · exact tidy_ofBase
  · exact fun _ => ⟨rfl, trivial, nofun⟩
  · exact tidy_extend

theorem tidy_specialize {n m : Node} {combination : List Node}
    (derived : n.specialize combination = some m) : m.Tidy := by
  obtain ⟨first, rest, -, -, rfl⟩ := specialize_eq_some_iff.mp derived
  exact tidy_of_effective rfl

/-! What nodes hold when they are built, or come of built nodes by taking apart and merging. -/

variable {n m t s : Node}

/-- All that a node holds is built, over every table that binds to built nodes. -/
def HoldsBuilt (n : Node) : Prop := ∀ g : Graph, g.BindsBuilt → n.Opens g

theorem Built.holdsBuilt (h : n.Built) : n.HoldsBuilt := fun _ bound => h.opens bound

theorem HoldsBuilt.supertypes (h : n.HoldsBuilt) : ∀ k ∈ n.supertypes, k.Built :=
  (h .initial fun _ h => nomatch h).supertypes

theorem HoldsBuilt.ownMembers (h : n.HoldsBuilt) : ∀ k ∈ n.ownShape.members, k.Built :=
  (h .initial fun _ h => nomatch h).ownShape.members

theorem HoldsBuilt.merge (target : t.HoldsBuilt) (source : s.HoldsBuilt) (mode : MergeMode) :
    (t.merge s mode).HoldsBuilt := by
  intro g bound
  have opens := target g bound
  have shape := opens.shape.merge (source g bound).shape mode
  exact ⟨opens.supertypes, shape, opens.ownShape⟩

theorem HoldsBuilt.specialize (h : n.HoldsBuilt) {combination : List Node}
    (each : ∀ a ∈ combination, a.HoldsBuilt) (derived : n.specialize combination = some m) :
    m.HoldsBuilt := by
  obtain ⟨first, rest, rfl, -, rfl⟩ := specialize_eq_some_iff.mp derived
  intro g bound
  have heritable := Shape.heritable_holds Built fun x => (g.resolve x).Built
  have own := (h g bound).ownShape
  have shapes : ∀ a ∈ first :: rest, a.shape.Holds Built fun x => (g.resolve x).Built :=
    fun a ha => (each a ha g bound).shape
  have shape : (effective first.base (first :: rest) n.ownHeader n.ownShape).2.Holds Built
      fun x => (g.resolve x).Built :=
    (heritable.effective trivial (fun _ _ => trivial) shapes trivial own).2
  exact ⟨fun _ h => (nomatch h), shape, own⟩

/-- Induction over alternatives: from built nodes through `specialize`. -/
theorem HoldsBuilt.alternative_induction {P : Node → Prop} (built : ∀ k : Node, k.Built → P k)
    (derived : ∀ {n m : Node} {combination : List Node}, n.HoldsBuilt → (∀ b ∈ combination, P b) →
      n.specialize combination = some m → P m) :
    ∀ {n : Node} {list : List Node}, n.HoldsBuilt → n.alternatives? = some list → ∀ a ∈ list, P a := by
  intro n
  induction n using wellFounded_parts.induction with
  | _ n ih =>
    intro list h found a ha
    -- Own members and supertypes are built, whatever the node itself has come of.
    have each (k : Node) (hk : k ∈ n.parts) (builtK : k.Built) : ∀ b ∈ k.alternatives, P b := by
      intro b hb
      rcases several : k.alternatives? with _ | others
      · rw [alternatives_of_none several] at hb
        obtain rfl := List.mem_singleton.mp hb
        exact built b builtK
      · rw [alternatives_of_some several] at hb
        exact ih k hk builtK.holdsBuilt several b hb
    rcases alternatives?_cases found ha with ⟨k, hk, ha⟩ | ⟨-, combination, chosen, made⟩
    · exact each k (List.mem_append_right _ hk) (h.ownMembers k hk) a ha
    · refine derived h (fun b hb => ?_) made
      obtain ⟨k, hk, hb⟩ := chosen b hb
      have part : k ∈ n.parts := List.mem_append_left _ (List.mem_append_left _ hk)
      exact each k part (h.supertypes k hk) b hb

theorem HoldsBuilt.alternatives {n : Node} {list : List Node} (h : n.HoldsBuilt)
    (found : n.alternatives? = some list) : ∀ a ∈ list, a.Tidy ∧ a.HoldsBuilt := by
  refine alternative_induction (fun k built => ⟨built.tidy, built.holdsBuilt⟩) ?_ h found
  intro n m combination h each derived
  exact ⟨tidy_specialize derived, h.specialize (fun b hb => (each b hb).2) derived⟩

theorem Built.tidy_alternative {n a : Node} (built : n.Built) (ha : a ∈ n.alternatives) : a.Tidy := by
  rcases found : n.alternatives? with _ | list
  · rw [alternatives_of_none found] at ha
    obtain rfl := List.mem_singleton.mp ha
    exact built.tidy
  · rw [alternatives_of_some found] at ha
    exact (built.holdsBuilt.alternatives found a ha).1

end Schemata.Node

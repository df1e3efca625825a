import Schemata.Proofs.Library.Built

/-! The nodes behind the types of a library and behind those of `createType`. All are built, so each
is composed from its supertypes. -/

namespace Schemata

variable {g : Graph} {n : Node}

theorem Node.Built.composed {first : Node} {rest : List Node} (h : n.Built)
    (supertypes : n.supertypes = first :: rest) :
    n = extend n.id n.name first.base (first :: rest) n.ownHeader n.ownShape ∧
      ∀ s ∈ rest, first.family.isCompatible s.family = true := by
  -- What a building step composes takes its base type from the first of its supertypes.
  have composed {id : NodeId} {name : Option String} {nodes : List Node} {own : Header}
      {shape : Shape Node Ref} (made : Building.compose id name nodes own shape = pure n) :
      n = extend n.id n.name first.base (first :: rest) n.ownHeader n.ownShape ∧
        ∀ s ∈ rest, first.family.isCompatible s.family = true := by
    obtain ⟨head, others, rfl, compatible, rfl⟩ := Building.compose_eq_pure made
    obtain ⟨rfl, rfl⟩ := List.cons.inj supertypes
    exact ⟨rfl, fun s hs => by simpa using List.find?_eq_none.mp compatible s hs⟩
  cases h with
  | ofBase b => cases supertypes
  | placeholder name => cases supertypes
  | anyOf =>
    obtain ⟨rfl, rfl⟩ := List.cons.inj supertypes
    exact ⟨rfl, fun _ hs => nomatch hs⟩
  | many _ made => exact composed made
  | described _ describes =>
    obtain ⟨-, -, -, -, -, -, made⟩ := describes
    exact composed made

namespace Library

variable {l : Library}

/-- What the types of a library lead to, and what those lead to that are made without adding them. -/
inductive Gives (g : Graph) (l : Library) (n : Node) : Prop
  | added {name : String} {m : Node} (found : l.type? name = some m) (reaches : g.Reaches m n)
  | created {d : Declaration} {m : Node} {g' : Graph} (made : l.createType g d = .ok (m, g'))
      (reaches : g.Reaches m n)
  | got {r : TypeRef} {m : Node} {g' : Graph} (made : l.getOrCreate g r = .ok (m, g'))
      (reaches : g.Reaches m n)

theorem Gives.built (h : l.Gives g n) (reached : Reached g l) : n.Built := by
  have all := reached.allBuilt
  cases h with
  | added found reaches => exact all.every found n reaches
  | created made reaches => exact (all.createType made).every all.bindings n reaches
  | got made reaches => exact (all.getOrCreate made).every all.bindings n reaches

end Library

end Schemata

import Schemata.Proofs.Keyed
import Schemata.Proofs.Library.Reached
import Schemata.Proofs.Node.Inheritance

/-! Built nodes: base types, what references denote, and what declarations describe over built
nodes. All that a built node leads to is built, so an invariant of building holds behind every type
of a library. -/

namespace Schemata

/-- A node of a base type, or one that is built from such nodes by references and declarations. -/
inductive Node.Built : Node → Prop
  | ofBase (b : BaseType) : Node.Built (.ofBase b)
  | placeholder (name : String) : Node.Built (Graph.placeholder name)
  | anyOf {id : NodeId} {members : List Node} (each : ∀ m ∈ members, m.Built) :
      Node.Built (.anyOf id members)
  | many {id : NodeId} {nodes : List Node} {n : Node} (each : ∀ m ∈ nodes, m.Built)
      (made : Building.compose id none nodes Header.empty .any = pure n) : Node.Built n
  | described {k : Known} {d : Declaration} {id : NodeId} {n : Node}
      (direct : ∀ a m, k.direct a m → m.Built) (describes : d.Describes k id n) : Node.Built n

def Graph.BindsBuilt (g : Graph) : Prop := ∀ e ∈ g.bindings, e.2.Built

structure Node.Opens (g : Graph) (n : Node) : Prop where
  supertypes : ∀ s ∈ n.supertypes, s.Built
  shape : n.shape.Holds Node.Built fun x => (g.resolve x).Built
  ownShape : n.ownShape.Holds Node.Built fun x => (g.resolve x).Built

variable {k : Known} {g : Graph} {n : Node} {r : TypeRef} {x : Ref}

theorem TypeRef.Denotes.built (direct : ∀ a m, k.direct a m → m.Built) (h : r.Denotes k n) :
    n.Built := by
  induction r using TypeRef.induction generalizing n with
  | name a =>
    obtain ⟨h⟩ := h
    exact direct a n h
  | many refs ih =>
    cases h with
    | many each made =>
      refine .many (fun m hm => ?_) made
      obtain ⟨r, hr, h⟩ := exists_of_forall₂_of_mem each.flip hm
      exact ih r hr h
  | inline d =>
    cases h with
    | inline h => exact .described direct h

namespace Graph

theorem BindsBuilt.lookup (bound : g.BindsBuilt) (id : NodeId) (name : String) :
    (g.resolve (.forward id name)).Built := by
  change ((g.bindings.lookup id).getD (placeholder name)).Built
  rcases found : g.bindings.lookup id with _ | n
  · exact .placeholder name
  · obtain ⟨before, after, split, -⟩ := List.lookup_eq_some_iff.mp found
    exact bound (id, n) (by rw [split]; exact List.mem_append_right _ List.mem_cons_self)

end Graph

theorem TypeRef.PointsTo.built (bound : g.BindsBuilt) (direct : ∀ a m, k.direct a m → m.Built)
    (h : r.PointsTo k x) : (g.resolve x).Built := by
  cases h with
  | node h => exact h.built direct
  | forward => exact bound.lookup _ _

theorem TypeRef.ItemsPointTo.built (bound : g.BindsBuilt)
    (direct : ∀ a m, k.direct a m → m.Built) (h : r.ItemsPointTo k x) : (g.resolve x).Built := by
  cases h with
  | one _ h => exact h.built bound direct
  | @several refs xs id each =>
    rw [Graph.resolve_anyOf]
    refine .anyOf fun m hm => ?_
    obtain ⟨x, hx, rfl⟩ := List.mem_map.mp hm
    obtain ⟨r, -, h⟩ := exists_of_forall₂_of_mem each.flip hx
    exact h.built bound direct

theorem Node.opens_extend {id : Option NodeId} {name : Option String} {base : BaseType}
    {supertypes : List Node} (each : ∀ s ∈ supertypes, s.Built ∧ s.Opens g) {h : Header}
    {own : Shape Node Ref} (holds : own.Holds Node.Built fun x => (g.resolve x).Built) :
    (Node.extend id name base supertypes h own).Opens g := by
  have heritable := Shape.heritable_holds Node.Built fun x => (g.resolve x).Built
  have shape : (Node.effective base supertypes h own).2.Holds Node.Built
      fun x => (g.resolve x).Built :=
    (heritable.effective trivial (fun _ _ => trivial) (fun s hs => (each s hs).2.shape) trivial
      holds).2
  exact ⟨fun s hs => (each s hs).1, shape, holds⟩

namespace DeclarationOf

theorem holds_of_ownShape {M : Node → Prop} {L : Ref → Prop} {name : String}
    {d : DeclarationDetails} {target : BaseType} {item : Option Ref}
    {entries : List (String × Property Ref)} {members : List Node} {shape : Shape Node Ref}
    (items : ∀ x ∈ item, L x) (properties : ∀ e ∈ entries, L e.2.type) (union : ∀ m ∈ members, M m)
    (shaped : ownShape name d target ⟨pure item, pure (Keyed.ofEntries entries), pure members⟩ =
      pure shape) : shape.Holds M L := by
  rw [ownShape_pure, Building.lift_eq_pure] at shaped
  unfold shapeOf? at shaped
  split at shaped
  case h_4 =>
    obtain rfl := Except.ok.inj shaped
    exact ⟨fun _ h => (nomatch h), fun x hx => items x (Option.mem_toList.mp hx)⟩
  case h_5 =>
    obtain ⟨text, -, rfl⟩ := exists_of_map_eq_ok shaped
    refine ⟨fun _ h => (nomatch h), fun x hx => ?_⟩
    obtain ⟨e, he, rfl⟩ := List.mem_map.mp hx
    exact properties e (Keyed.mem_ofEntries he)
  case h_6 =>
    obtain rfl := Except.ok.inj shaped
    exact ⟨union, fun _ h => nomatch h⟩
  case h_7 =>
    obtain rfl := Except.ok.inj shaped
    exact Shape.holds_emptyShape target
  all_goals
    obtain ⟨_, -, rfl⟩ := exists_of_map_eq_ok shaped
    exact ⟨fun _ h => (nomatch h), fun _ h => nomatch h⟩

end DeclarationOf

theorem TypeRef.Extends.each_of {Q : Node → Prop} {ref? : Option TypeRef} {b : BaseType}
    {nodes : List Node} (base : Q (.ofBase b))
    (denotes : ∀ part ∈ TypeRef.spread ref?, ∀ m, part.Denotes k m → Q m)
    (h : TypeRef.Extends k ref? b nodes) : ∀ m ∈ nodes, Q m := by
  intro m hm
  cases h with
  | base =>
    obtain rfl := List.mem_singleton.mp hm
    exact base
  | each h =>
    obtain ⟨part, hp, h⟩ := exists_of_forall₂_of_mem h.flip hm
    exact denotes part hp m h

theorem Node.opens_ofBase (b : BaseType) : (Node.ofBase b).Opens g :=
  ⟨fun _ h => (nomatch h), Shape.holds_emptyShape b, Shape.holds_emptyShape b⟩

theorem DeclarationOf.Describes.opens_of {d : Declaration} {id : NodeId} (bound : g.BindsBuilt)
    (direct : ∀ a m, k.direct a m → m.Built)
    (parts : ∀ grip r, (grip, r) ∈ d.parts → ∀ m, r.Denotes k m → m.Opens g)
    (h : d.Describes k id n) : n.Opens g := by
  obtain ⟨supers, -, items, properties, union, shaped, made⟩ := h
  obtain ⟨first, rest, -, -, rfl⟩ := Building.compose_eq_pure made
  apply Node.opens_extend
  · refine supers.each_of ⟨.ofBase _, Node.opens_ofBase _⟩ fun part hp m h => ?_
    exact ⟨h.built direct, parts _ part (supertype_mem_parts hp) m h⟩
  · refine holds_of_ownShape (fun x hx => ?_) (fun e he => ?_) (fun m hm => ?_) shaped
    · rcases hi : d.items with _ | r <;> rw [hi] at items
      · cases items
        cases hx
      · cases items with
        | some h =>
          obtain rfl := Option.some.inj hx
          exact h.built bound direct
    · obtain ⟨_, -, ⟨h⟩⟩ := exists_of_forall₂_of_mem properties.flip he
      exact h.built bound direct
    · obtain ⟨r, -, h⟩ := exists_of_forall₂_of_mem union.flip hm
      exact h.built direct

theorem TypeRef.Denotes.opens (bound : g.BindsBuilt)
    (direct : ∀ a m, k.direct a m → m.Built ∧ m.Opens g) (h : r.Denotes k n) : n.Opens g := by
  have built a m (h : k.direct a m) : m.Built := (direct a m h).1
  induction r using TypeRef.induction generalizing n with
  | name a =>
    obtain ⟨h⟩ := h
    exact (direct a n h).2
  | many refs ih =>
    cases h with
    | many each made =>
      obtain ⟨first, rest, -, -, rfl⟩ := Building.compose_eq_pure made
      refine Node.opens_extend (fun s hs => ?_) (Shape.holds_emptyShape .any)
      obtain ⟨r, hr, h⟩ := exists_of_forall₂_of_mem each.flip hs
      exact ⟨h.built built, ih r hr h⟩
  | inline d ih =>
    cases h with
    | inline h => exact h.opens_of bound built fun grip r hr m h => ih grip r hr h

theorem Node.Built.opens (bound : g.BindsBuilt) (h : n.Built) : n.Opens g := by
  -- On how the node was built, and within a declaration on the references that it is made of.
  induction h with
  | ofBase b => exact opens_ofBase b
  | placeholder name =>
    exact ⟨fun _ h => (nomatch h), Shape.holds_emptyShape .any, Shape.holds_emptyShape .any⟩
  | anyOf each _ =>
    refine opens_extend (fun s hs => ?_) ⟨each, fun _ h => nomatch h⟩
    obtain rfl := List.mem_singleton.mp hs
    exact ⟨.ofBase .union, opens_ofBase .union⟩
  | many each made ih =>
    obtain ⟨first, rest, -, -, rfl⟩ := Building.compose_eq_pure made
    exact opens_extend (fun s hs => ⟨each s hs, ih s hs⟩) (Shape.holds_emptyShape .any)
  | @described k d id n direct describes ih =>
    have both a m (h : k.direct a m) : m.Built ∧ m.Opens g := ⟨direct a m h, ih a m h⟩
    exact describes.opens_of bound direct fun grip r hr m h => h.opens bound both

theorem Node.Opens.built_of_step {m : Node} (opens : n.Opens g) (step : g.Step n m) : m.Built := by
  cases step with
  | part hm =>
    rcases List.mem_append.mp hm with hm | hm
    · rcases List.mem_append.mp hm with hm | hm
      · exact opens.supertypes _ hm
      · exact opens.shape.members _ hm
    · exact opens.ownShape.members _ hm
  | link hx =>
    rcases List.mem_append.mp hx with hx | hx
    · exact opens.shape.links _ hx
    · exact opens.ownShape.links _ hx

theorem Node.Built.every (bound : g.BindsBuilt) (h : n.Built) : g.Every Node.Built n := by
  intro m reaches
  induction reaches with
  | refl => exact h
  | tail _ step ih => exact (ih.opens bound).built_of_step step

/-- What is built is of a base type, stands for a forward reference, or extends something. -/
theorem Node.Built.elim {P : Node → Prop} (h : n.Built) (ofBase : ∀ b, P (.ofBase b))
    (placeholder : ∀ name, P (Graph.placeholder name))
    (extend : ∀ id name base supertypes h own, P (.extend id name base supertypes h own)) : P n := by
  cases h with
  | ofBase b => exact ofBase b
  | placeholder name => exact placeholder name
  | anyOf => exact extend _ _ _ _ _ _
  | many _ made =>
    obtain ⟨first, rest, -, -, rfl⟩ := Building.compose_eq_pure made
    exact extend _ _ _ _ _ _
  | described _ describes =>
    obtain ⟨-, -, -, -, -, -, made⟩ := describes
    obtain ⟨first, rest, -, -, rfl⟩ := Building.compose_eq_pure made
    exact extend _ _ _ _ _ _

theorem Node.Built.keysDiffer (h : n.Built) : n.shape.KeysDiffer := by
  apply h.elim (P := fun n => n.shape.KeysDiffer)
  · exact Shape.keysDiffer_emptyShape
  · exact fun _ => Shape.keysDiffer_emptyShape .any
  · exact keysDiffer_extend

/-! Libraries. -/

namespace Batch

def builtRegime : Regime :=
  ⟨fun p => ∀ e ∈ p.built, e.2.Built, fun _ => ⟨fun _ n => n.Built, fun _ _ => True⟩⟩

variable {types : Keyed Node} {batch : Batch}

theorem builtRegime_start (next : NodeId) : builtRegime.holds ⟨next, [], []⟩ := fun _ h => nomatch h

theorem within_keeps_built {fuel : Nat} {stack : List String} (lookUps : ∀ a, Yields builtRegime
    (lookUp types batch fuel stack a) fun k n => k.direct a n) :
    (within types batch fuel stack).Keeps builtRegime := by
  refine ⟨lookUps, fun a id _ => ?_, ?_⟩
  · rintro p x q hp run
    obtain ⟨rfl, rfl⟩ := Prod.mk.inj (Except.ok.inj run)
    exact ⟨hp, Known.le_refl _, rfl, trivial⟩
  · rintro p id q hp run
    obtain ⟨rfl, rfl⟩ := Prod.mk.inj (Except.ok.inj run)
    exact ⟨hp, Known.le_refl _, trivial⟩

theorem lookUp_yields_built (old : ∀ e ∈ types, e.2.Built) (fuel : Nat) : ∀ stack name,
    Yields builtRegime (lookUp types batch fuel stack name) fun k n => k.direct name n := by
  have known {stack : List String} {name : String} {p : Progress} {n : Node} (hp : builtRegime.holds p)
      (h : (Batch.known types batch stack p).direct name n) : n.Built :=
    h.elim (fun h => hp _ (Keyed.mem_of_get? h)) fun h => old _ (Keyed.mem_of_get? h)
  induction fuel with
  | zero =>
    intro stack name p n q hp run
    obtain ⟨h, rfl⟩ | ⟨_, _, _, fuel', _, _, _, h, _⟩ := lookUp_eq_ok run
    · exact ⟨hp, Known.le_refl _, known hp h⟩
    · cases h
  | succ fuel ih =>
    intro stack name p n q hp run
    -- The name is known, or its declaration is built with it on the stack.
    obtain ⟨h, rfl⟩ | ⟨_, _, _, fuel', id, d, q', hf, _, run, rfl⟩ := lookUp_eq_ok run
    · exact ⟨hp, Known.le_refl _, known hp h⟩
    · obtain rfl := Nat.succ.inj hf
      have keeps := within_keeps_built (ih (stack ++ [name]))
      obtain ⟨hq', -, describes⟩ := Scope.build_yields keeps id d p n q' hp run
      have built : n.Built := .described (fun _ _ h => h) describes
      refine ⟨fun e he => ?_, Known.le_refl _, built⟩
      rcases Keyed.mem_insert he with he | rfl
      · exact hq' e he
      · exact built

theorem scope_keeps_built (old : ∀ e ∈ types, e.2.Built) (batch : Batch) :
    (scope types batch).Keeps builtRegime :=
  within_keeps_built (lookUp_yields_built old batch.length [])

end Batch

namespace Library

variable {l : Library} {ds : List Declaration} {a : Addition}

structure AllBuilt (g : Graph) (l : Library) : Prop where
  bindings : g.BindsBuilt
  types : ∀ e ∈ l.types, e.2.Built

theorem AllBuilt.initial (bindings : g.BindsBuilt) : AllBuilt g .initial := by
  refine ⟨bindings, fun e he => ?_⟩
  obtain ⟨b, -, rfl⟩ := List.mem_map.mp he
  exact .ofBase b

theorem AllBuilt.added (built : AllBuilt g l) (add : l.addTypes g ds = .ok a) :
    AllBuilt a.graph a.library := by
  obtain ⟨-, added, progress, bindings, run, bound, rfl⟩ := addTypes_eq_ok.mp add
  rw [steps, Batch.lookUpEach_eq] at run
  have yields := Yields.mapM (g := Batch.builtRegime) (fun a _ _ n le h => le.1 a n h)
    (ds.map DeclarationOf.key)
    fun a _ => (Batch.scope_keeps_built built.types (Batch.numbered g.next ds)).lookUp a
  obtain ⟨held, -, found⟩ := yields _ _ _ (Batch.builtRegime_start _) run
  constructor
  · intro e he
    rcases List.mem_append.mp he with he | he
    · exact built.bindings e he
    · obtain ⟨f, -, -, hf⟩ := exists_of_forall₂_of_mem (Batch.bindEach_eq_ok.mp bound).flip he
      exact held _ (Keyed.mem_of_get? hf)
  · intro e he
    rcases Keyed.mem_foldl_insert he with he | he
    · exact built.types e he
    · obtain ⟨_, -, h⟩ := exists_of_forall₂_of_mem found.flip (List.of_mem_zip he).2
      exact h

/-- Every type of a library that a program can have is built. -/
theorem Reached.allBuilt (h : Reached g l) : AllBuilt g l := by
  induction h with
  | initial => exact .initial fun _ h => nomatch h
  | fresh _ ih => exact .initial ih.bindings
  | added _ add ih => exact ih.added add
  | other _ _ add ih ih' => exact ⟨(ih.added add).bindings, ih'.types⟩
  | made _ _ ih => exact ⟨ih.bindings, ih.types⟩

theorem AllBuilt.every (built : AllBuilt g l) {name : String} (found : l.type? name = some n) :
    g.Every Node.Built n :=
  (built.types _ (Keyed.mem_of_get? found)).every built.bindings

theorem built_of_building {g' : Graph} {step : Building Node}
    (yields : Yields Batch.builtRegime step fun _ n => n.Built)
    (made : building g step = .ok (n, g')) : n.Built := by
  unfold building at made
  rcases run : step.run ⟨g.next, [], []⟩ with e | ⟨m, progress⟩
  · rw [run] at made
    cases made
  · rw [run] at made
    obtain ⟨rfl, -⟩ := Prod.mk.inj (Except.ok.inj made)
    exact (yields _ _ _ (Batch.builtRegime_start _) run).2.2

theorem AllBuilt.createType {g' : Graph} {d : Declaration} (built : AllBuilt g l)
    (made : l.createType g d = .ok (n, g')) : n.Built := by
  have keeps := Batch.scope_keeps_built built.types []
  refine built_of_building (fun p n q hp run => ?_) made
  have yields := keeps.fresh.bind stable_true fun id => Scope.build_yields keeps id d
  obtain ⟨hq, le, id, -, describes⟩ := yields p n q hp run
  exact ⟨hq, le, .described (fun _ _ h => h) describes⟩

theorem AllBuilt.getOrCreate {g' : Graph} (built : AllBuilt g l)
    (made : l.getOrCreate g r = .ok (n, g')) : n.Built := by
  have keeps := Batch.scope_keeps_built built.types []
  have resolved (made : building g ((Batch.scope l.types []).resolve r) = .ok (n, g')) : n.Built := by
    refine built_of_building (fun p n q hp run => ?_) made
    obtain ⟨hq, le, denotes⟩ := (Scope.builds keeps r).1 p n q hp run
    exact ⟨hq, le, denotes.built fun _ _ h => h⟩
  cases r with
  | name name =>
    unfold Library.getOrCreate at made
    rcases found : l.type? name with _ | m <;> simp only [found] at made
    · cases made
    · obtain ⟨rfl, -⟩ := Prod.mk.inj (Except.ok.inj made)
      exact built.types _ (Keyed.mem_of_get? found)
  | many => exact resolved made
  | inline => exact resolved made

end Library

end Schemata

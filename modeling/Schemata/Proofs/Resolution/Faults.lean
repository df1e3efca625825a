import Schemata.Proofs.Resolution.Invariant

/-! Why building fails. The reason is found in what declarations say or in the names that they mention; a name under
which a type is to be added is never refused while types are built. -/

namespace Schemata

variable {α β : Type} {e : TypeError}

def TypeError.RefusesName : TypeError → Prop
  | .duplicateName _ | .invalidName _ => True
  | _ => False

theorem exists_of_mapM_eq_error {ε : Type} {f : α → Except ε β} {xs : List α} {e : ε}
    (h : xs.mapM f = .error e) : ∃ x ∈ xs, f x = .error e := by
  induction xs with
  | nil => cases h
  | cons x xs ih =>
    rw [List.mapM_cons] at h
    rcases first : f x with e' | y <;> rw [first] at h
    · obtain rfl := Except.error.inj h
      exact ⟨x, List.mem_cons_self, first⟩
    · rcases others : xs.mapM f with e' | ys <;> rw [others] at h
      · obtain rfl := Except.error.inj h
        obtain ⟨z, hz, failed⟩ := ih others
        exact ⟨z, List.mem_cons_of_mem _ hz, failed⟩
      · cases h

/-! What is wrong with a facet. -/

namespace DeclarationDetails

variable {d : DeclarationDetails} {type : String}

theorem patterns?_eq_error (h : d.patterns? type = .error e) : ∃ facet fault, e = .invalidFacet type facet fault := by
  obtain ⟨source, -, failed⟩ := exists_of_mapM_eq_error h
  split at failed
  · cases failed
  · exact ⟨_, _, (Except.error.inj failed).symm⟩

theorem numberFormat?_eq_error (h : d.numberFormat? type = .error e) :
    ∃ facet fault, e = .invalidFacet type facet fault := by
  unfold numberFormat? at h
  split at h
  · cases h
  · split at h
    · cases h
    · exact ⟨_, _, (Except.error.inj h).symm⟩

theorem dateFormat?_eq_error {target : BaseType} (h : d.dateFormat? type target = .error e) :
    ∃ facet fault, e = .invalidFacet type facet fault := by
  unfold dateFormat? at h
  split at h
  · cases h
  · split at h
    · split at h
      · cases h
      · exact ⟨_, _, (Except.error.inj h).symm⟩
    · exact ⟨_, _, (Except.error.inj h).symm⟩

theorem discriminatorText?_eq_error (h : d.discriminatorText? type = .error e) :
    ∃ facet fault, e = .invalidFacet type facet fault := by
  unfold discriminatorText? at h
  split at h
  · cases h
  · split at h
    · cases h
    · exact ⟨_, _, (Except.error.inj h).symm⟩

end DeclarationDetails

theorem DeclarationOf.shapeOf?_eq_error {name : String} {d : DeclarationDetails} {target : BaseType} {item : Option Ref}
    {properties : Keyed (Property Ref)} {members : List Node}
    (h : shapeOf? name d target item properties members = .error e) :
    ∃ facet fault, e = .invalidFacet name facet fault := by
  have mapped {γ : Type} {x : Except TypeError γ} {f : γ → Shape Node Ref} (h : x.map f = .error e) :
      x = .error e := by
    rcases x with e | a
    · exact congrArg Except.error (Except.error.inj h)
    · cases h
  unfold shapeOf? at h
  generalize (target.emptyShape : Shape Node Ref).kind = kind at h
  cases kind with
  | string => exact DeclarationDetails.patterns?_eq_error (mapped h)
  | number => exact DeclarationDetails.numberFormat?_eq_error (mapped h)
  | date => exact DeclarationDetails.dateFormat?_eq_error (mapped h)
  | object => exact DeclarationDetails.discriminatorText?_eq_error (mapped h)
  | _ => cases h

namespace Building

def Admits (x : Building α) : Prop := ∀ p e, x p = .error e → ¬e.RefusesName

theorem admits_pure (a : α) : Admits (pure a : Building α) := nofun

theorem admits_fresh : Admits fresh := nofun

theorem admits_forward (id : NodeId) (name : String) : Admits (forward id name) := nofun

theorem admits_get : Admits (get : Building Progress) := nofun

theorem admits_modify (f : Progress → Progress) : Admits (modify f : Building Unit) := nofun

theorem admits_fail (other : ¬e.RefusesName) : Admits (fail e : Building α) := by
  intro p e' run
  obtain rfl := Except.error.inj run
  exact other

theorem Admits.bind {x : Building α} {f : α → Building β} (hx : Admits x) (hf : ∀ a, Admits (f a)) :
    Admits (x >>= f) := by
  intro p e run
  change (x p).bind (fun r => f r.1 r.2) = _ at run
  rcases first : x p with e' | ⟨a, q⟩ <;> rw [first] at run
  · obtain rfl := Except.error.inj run
    exact hx p _ first
  · exact hf a q e run

theorem Admits.mapM {f : α → Building β} {xs : List α} (hf : ∀ x ∈ xs, Admits (f x)) : Admits (xs.mapM f) := by
  induction xs with
  | nil => exact admits_pure []
  | cons x xs ih =>
    rw [List.mapM_cons]
    refine (hf x List.mem_cons_self).bind fun y => ?_
    exact (ih fun y hy => hf y (List.mem_cons_of_mem _ hy)).bind fun ys => admits_pure (y :: ys)

theorem admits_facet {x : Except TypeError α} {type : String}
    (faulty : ∀ e, x = .error e → ∃ facet fault, e = .invalidFacet type facet fault) :
    Admits (liftM x : Building α) := by
  rcases x with e | a
  · obtain ⟨facet, fault, rfl⟩ := faulty e rfl
    exact admits_fail id
  · exact admits_pure a

theorem admits_compose (id : NodeId) (name : Option String) (supertypes : List Node) (header : Header)
    (shape : Shape Node Ref) : Admits (compose id name supertypes header shape) := by
  unfold compose
  split
  · exact admits_fail not_false
  · split
    · exact admits_fail not_false
    · exact admits_pure _

theorem admits_ownShape {name : String} {d : DeclarationDetails} {target : BaseType} {links : Links}
    (items : Admits links.items) (properties : Admits links.properties) (members : Admits links.members) :
    Admits (DeclarationOf.ownShape name d target links) := by
  unfold DeclarationOf.ownShape
  split
  · exact (admits_facet fun _ => DeclarationDetails.patterns?_eq_error).bind fun _ => admits_pure _
  · exact (admits_facet fun _ => DeclarationDetails.numberFormat?_eq_error).bind fun _ => admits_pure _
  · exact (admits_facet fun _ => DeclarationDetails.dateFormat?_eq_error).bind fun _ => admits_pure _
  · exact items.bind fun _ => admits_pure _
  · refine properties.bind fun _ => ?_
    exact (admits_facet fun _ => DeclarationDetails.discriminatorText?_eq_error).bind fun _ => admits_pure _
  · exact members.bind fun _ => admits_pure _
  · exact admits_pure _

end Building

open Building

/-! References and declarations. -/

namespace Scope

variable {s : Scope}

structure Admits (s : Scope) (r : TypeRef) : Prop where
  resolve : (s.resolve r).Admits
  refer : (s.refer r).Admits

theorem supertypes?_admits {extends? : Option TypeRef} (type : String)
    (each : ∀ r ∈ TypeRef.spread extends?, s.Admits r) : (s.supertypes? type extends?).Admits := by
  rcases extends? with _ | r
  · exact admits_pure none
  · rw [supertypes?, supertypes_eq]
    refine Building.Admits.bind ?_ fun nodes => admits_pure (some nodes)
    split
    · exact admits_fail not_false
    · exact .mapM fun r hr => (each r hr).resolve

theorem items?_admits {i : Option TypeRef} (each : ∀ r ∈ TypeRef.spread i, s.Admits r) : (s.items? i).Admits := by
  rcases i with _ | r
  · exact admits_pure none
  · rw [items?]
    refine Building.Admits.bind ?_ fun x => admits_pure (some x)
    rcases r with a | refs | d
    · have one := (each _ List.mem_cons_self).refer
      rwa [refer, ← items] at one
    · rw [items, referEach_eq]
      have all : (refs.mapM s.refer).Admits := .mapM fun r hr => (each r hr).refer
      exact all.bind fun members => admits_fresh.bind fun id => admits_pure (Ref.anyOf id members)
    · have one := (each _ List.mem_cons_self).refer
      rwa [refer, ← items] at one

theorem properties?_admits {properties : Option (List (String × TypeRef))}
    (each : ∀ e ∈ properties.getD [], s.Admits e.2) : (s.properties? properties).Admits := by
  rcases properties with _ | list
  · exact admits_pure []
  · rw [properties?, properties_eq]
    have all : (list.mapM s.entry).Admits := .mapM fun e he =>
      (each e he).refer.bind fun x => admits_pure (e.1, (⟨x, false⟩ : Property Ref))
    exact all.bind fun found => admits_pure (Keyed.ofEntries found)

theorem members?_admits {anyOf : Option (List TypeRef)} (each : ∀ r ∈ anyOf.getD [], s.Admits r) :
    (s.members? anyOf).Admits := by
  rcases anyOf with _ | refs
  · exact admits_pure []
  · rw [members?, resolveEach_eq]
    exact .mapM fun r hr => (each r hr).resolve

theorem build_admits_of {d : Declaration} (parts : ∀ grip r, (grip, r) ∈ d.parts → s.Admits r) (id : NodeId) :
    (s.build id d).Admits := by
  rw [build_eq]
  refine (supertypes?_admits d.displayName fun r hr =>
    parts _ r (DeclarationOf.supertype_mem_parts hr)).bind fun named => ?_
  dsimp only
  split
  · exact admits_fail not_false
  · refine (admits_ownShape ?_ ?_ ?_).bind fun shape => admits_compose _ _ _ _ _
    · exact items?_admits fun r hr => parts _ r (DeclarationOf.item_mem_parts hr)
    · exact properties?_admits fun e he => parts _ e.2 (DeclarationOf.property_mem_parts he)
    · exact members?_admits fun r hr => parts _ r (DeclarationOf.member_mem_parts hr)

theorem admits (lookUps : ∀ a, (s.lookUp a).Admits) (r : TypeRef) : s.Admits r := by
  induction r using TypeRef.induction with
  | name a =>
    constructor
    · rw [resolve]
      exact lookUps a
    · rw [refer]
      split
      · exact admits_forward _ a
      · exact (lookUps a).bind fun n => admits_pure (Ref.node n)
  | many refs ih =>
    have each : (refs.mapM s.resolve).Admits := .mapM fun r hr => (ih r hr).resolve
    constructor
    · rw [resolve, resolveEach_eq]
      exact each.bind fun nodes => admits_fresh.bind fun id => admits_compose _ _ _ _ _
    · rw [refer, resolveEach_eq]
      refine each.bind fun nodes => admits_fresh.bind fun id => ?_
      exact (admits_compose _ _ _ _ _).bind fun n => admits_pure (Ref.node n)
  | inline d ih =>
    constructor
    · rw [resolve]
      exact admits_fresh.bind fun id => build_admits_of ih id
    · rw [refer]
      exact admits_fresh.bind fun id => (build_admits_of ih id).bind fun n => admits_pure (Ref.node n)

end Scope

namespace Batch

variable {types : Keyed Node} {batch : Batch}

theorem lookUp_admits (fuel : Nat) (stack : List String) (name : String) :
    (lookUp types batch fuel stack name).Admits := by
  induction fuel generalizing stack name with
  | zero =>
    rw [lookUp.eq_def]
    refine admits_get.bind fun progress => ?_
    split
    · exact admits_pure _
    · exact admits_pure _
    · split
      · exact admits_fail not_false
      · exact admits_fail not_false
  | succ fuel ih =>
    rw [lookUp.eq_def]
    refine admits_get.bind fun progress => ?_
    split
    · exact admits_pure _
    · exact admits_pure _
    · split
      · exact admits_fail not_false
      · split
        · rename_i inner id d same _
          obtain rfl := Nat.succ.inj same
          refine (Scope.build_admits_of (fun _ r _ => Scope.admits (ih _) r) id).bind fun n => ?_
          exact (admits_modify _).bind fun _ => admits_pure n
        · exact admits_fail not_false

theorem lookUpEach_admits (names : List String) : (lookUpEach (scope types batch) names).Admits := by
  rw [lookUpEach_eq]
  exact .mapM fun name _ => lookUp_admits batch.length [] name

end Batch

end Schemata

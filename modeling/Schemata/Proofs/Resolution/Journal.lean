import Schemata.Library.Journal
import Schemata.Proofs.Resolution.Cycle
import Schemata.Proofs.Resolution.Faults

/-! What the journal of a resolution says. The walk with a journal does what resolution does and is
never undecided; each name is built once at most, inside of other names of the batch; and a cycle
that is reported is one. -/

namespace Schemata

variable {α β : Type}

structure Journal.Orderly (batch : Batch) (j : Journal) : Prop where
  nested : ∀ b ∈ j, b.stack.Nodup ∧ b.stack ⊆ Keyed.keys batch
  once : (j.map Begun.name).Nodup

/-- The names that began are those on the stack and those that are built. -/
structure Journal.Kept (batch : Batch) (stack : List String) (p : Progress) (j : Journal) : Prop
    extends Journal.Orderly batch j where
  begun : ∀ a, a ∈ j.map Begun.name ↔ a ∈ stack ∨ Keyed.hasKey p.built a = true

namespace Journal.Kept

variable {batch : Batch} {stack : List String} {name : String} {p : Progress} {j : Journal}

theorem begin (kept : Kept batch stack p j)
    (inner : batch.Trail (stack ++ [name])) (apart : name ∉ stack)
    (new : Keyed.get? p.built name = none) :
    Kept batch (stack ++ [name]) p (j ++ [⟨stack, name⟩]) := by
  have first : name ∉ j.map Begun.name := by
    rw [kept.begun, Keyed.hasKey, new]
    exact not_or.mpr ⟨apart, Bool.false_ne_true⟩
  refine ⟨⟨fun b member => ?_, ?_⟩, fun a => ?_⟩
  · rcases List.mem_append.mp member with old | here
    · exact kept.nested b old
    · obtain rfl := List.mem_singleton.mp here
      exact ⟨inner.distinct, inner.known⟩
  · rw [List.map_append]
    refine List.nodup_append.mpr ⟨kept.once, List.pairwise_singleton _ _, fun a ha b hb same => ?_⟩
    obtain rfl := List.mem_singleton.mp hb
    exact first (same ▸ ha)
  · rw [List.map_append, List.mem_append, kept.begun, List.mem_append, or_right_comm]
    rfl

theorem finish (kept : Kept batch (stack ++ [name]) p j) (n : Node) :
    Kept batch stack { p with built := Keyed.insert p.built name n } j := by
  refine ⟨kept.toOrderly, fun a => ?_⟩
  have built : Keyed.hasKey (Keyed.insert p.built name n) a = true ↔
      a = name ∨ Keyed.hasKey p.built a = true := by
    rw [Keyed.hasKey, Keyed.get?_insert]
    split
    · rename_i same
      simp [same]
    · rename_i other
      simp [Ne.symm other, Keyed.hasKey]
  rw [kept.begun, built, List.mem_append, List.mem_singleton, or_assoc]

end Journal.Kept

/-- The journal accounts for the progress of a successful step, and an error reports a cycle only if
there is one. -/
inductive Journal.Closes (batch : Batch) (stack : List String) :
    Except TypeError (α × Progress) → Journal → Prop
  | ok {a : α} {q : Progress} {j : Journal} (kept : Journal.Kept batch stack q j) :
      Journal.Closes batch stack (.ok (a, q)) j
  | error {e : TypeError} {j : Journal} (orderly : Journal.Orderly batch j)
      (cycle : ∀ path, e = .dependencyCycle path → batch.Cycle path) :
      Journal.Closes batch stack (.error e) j

namespace Building

structure Quiet (x : Building α) : Prop where
  built : ∀ {p a q}, x p = .ok (a, q) → q.built = p.built
  acyclic : ∀ {p path}, x p ≠ .error (.dependencyCycle path)

theorem quiet_pure (a : α) : Quiet (pure a : Building α) where
  built run := by
    obtain ⟨-, rfl⟩ := pure_eq_ok.mp run
    rfl
  acyclic := nofun

theorem quiet_fresh : Quiet fresh where
  built run := by
    obtain ⟨-, rfl⟩ := Prod.mk.inj (Except.ok.inj run)
    rfl
  acyclic := nofun

theorem quiet_forward (id : NodeId) (name : String) : Quiet (forward id name) where
  built run := by
    obtain ⟨-, rfl⟩ := Prod.mk.inj (Except.ok.inj run)
    rfl
  acyclic := nofun

theorem quiet_fail {e : TypeError} (acyclic : ∀ path, e ≠ .dependencyCycle path) :
    Quiet (fail e : Building α) where
  built := nofun
  acyclic run := acyclic _ (Except.error.inj run)

theorem quiet_lift {e : Except TypeError α} (acyclic : ∀ path, e ≠ .error (.dependencyCycle path)) :
    Quiet (liftM e : Building α) := by
  rcases e with e | a
  · exact quiet_fail fun path same => acyclic path (congrArg Except.error same)
  · exact quiet_pure a

theorem Quiet.bind {x : Building α} {f : α → Building β} (hx : Quiet x) (hf : ∀ a, Quiet (f a)) :
    Quiet (x >>= f) where
  built run := by
    obtain ⟨a, p', first, second⟩ := bind_eq_ok.mp run
    exact ((hf a).built second).trans (hx.built first)
  acyclic {p path} run := by
    change (x p).bind (fun r => f r.1 r.2) = _ at run
    rcases first : x p with e | ⟨a, p'⟩ <;> rw [first] at run
    · exact hx.acyclic (first.trans (congrArg Except.error (Except.error.inj run)))
    · exact (hf a).acyclic run

theorem quiet_compose (id : NodeId) (name : Option String) (supertypes : List Node)
    (header : Header) (shape : Shape Node Ref) : Quiet (compose id name supertypes header shape) := by
  unfold compose
  split
  · exact quiet_fail nofun
  · split
    · exact quiet_fail nofun
    · exact quiet_pure _

end Building

theorem Journaled.bind_apply (w : Journaled α) (f : α → Journaled β) (p : Progress) (j : Journal) :
    (w >>= f) p j = (w p j).bind fun r =>
      match r.1 with
      | .ok (a, q) => f a q r.2
      | .error e => some (.error e, r.2) := by
  change (w p j).bind (fun r => ExceptT.bindCont (fun s => f s.1 s.2) r.1 r.2) = _
  rcases w p j with _ | ⟨e | r, j⟩ <;> rfl

/-- A step of building and the same step with a journal: it is decided, gives what the other one
gives, and the journal is kept. -/
def Tracks (batch : Batch) (stack : List String) (x : Building α) (w : Journaled α) : Prop :=
  ∀ p j, Journal.Kept batch stack p j →
    ∃ j', w p j = some (x p, j') ∧ Journal.Closes batch stack (x p) j'

namespace Tracks

variable {batch : Batch} {stack : List String}

theorem plain {x : Building α} (quiet : Building.Quiet x) :
    Tracks batch stack x (Journaled.plain x) := by
  intro p j kept
  refine ⟨j, rfl, ?_⟩
  rcases run : x p with e | ⟨a, q⟩
  · exact .error kept.toOrderly fun path same => absurd (same ▸ run) quiet.acyclic
  · exact .ok ⟨kept.toOrderly, quiet.built run ▸ kept.begun⟩

theorem pure (a : α) : Tracks batch stack (pure a) (pure a) :=
  fun _ j kept => ⟨j, rfl, .ok kept⟩

theorem bind {x : Building α} {w : Journaled α} {f : α → Building β} {g : α → Journaled β}
    (hx : Tracks batch stack x w) (hf : ∀ a, Tracks batch stack (f a) (g a)) :
    Tracks batch stack (x >>= f) (w >>= g) := by
  intro p j kept
  obtain ⟨j', run, closes⟩ := hx p j kept
  have next : (x >>= f) p = (x p).bind fun r => f r.1 r.2 := rfl
  rw [Journaled.bind_apply, next, run]
  generalize x p = result at closes ⊢
  cases closes with
  | ok kept => exact hf _ _ _ kept
  | error orderly cycle => exact ⟨_, rfl, .error orderly cycle⟩

end Tracks

/-! The facets of a declaration meet no cycle. -/

namespace DeclarationOf

theorem shapeOf?_ne_cycle (name : String) (d : DeclarationDetails) (target : BaseType)
    (item : Option Ref) (properties : Keyed (Property Ref)) (members : List Node)
    (path : List String) :
    shapeOf? name d target item properties members ≠ .error (.dependencyCycle path) := by
  intro run
  obtain ⟨facet, fault, same⟩ := shapeOf?_eq_error run
  cases same

theorem quiet_ownShape (name : String) (d : DeclarationDetails) (target : BaseType)
    (item : Option Ref) (properties : Keyed (Property Ref)) (members : List Node) :
    Building.Quiet (ownShape name d target ⟨pure item, pure properties, pure members⟩) := by
  rw [ownShape_pure]
  exact Building.quiet_lift (shapeOf?_ne_cycle name d target item properties members)

end DeclarationOf

namespace Journaled.Scope

theorem build_eq (s : Journaled.Scope) (id : NodeId) (d : Declaration) :
    s.build id d = (do
      let named ← s.supertypes? d.displayName d.extends?
      let supertypes := named.getD [Node.ofBase d.inferredBase]
      let target := DeclarationOf.target d.anyOf supertypes
      match d.foreignFacet? target with
      | some facet =>
        plain (Building.fail (.invalidFacet d.displayName facet (.notApplicable target)))
      | none => do
        let kind := (target.emptyShape : Shape Node Ref).kind
        let item ← only (kind == .array) none (s.items? d.items)
        let found ← only (kind == .object) [] (s.properties? d.properties)
        let members ← only (kind == .union) [] (s.members? d.anyOf)
        plain do
          let links : Links := ⟨pure item, pure found, pure members⟩
          let shape ← DeclarationOf.ownShape d.displayName d.details target links
          Building.compose id d.name supertypes d.details.header shape) := by
  obtain ⟨_, _, _, _, _, _⟩ := d
  unfold build
  rfl

end Journaled.Scope

/-! References and declarations, built with and without a journal. -/

section

variable {batch : Batch} {stack : List String} {s : Scope} {t : Journaled.Scope}

def Attends (batch : Batch) (stack : List String) (s : Scope) (t : Journaled.Scope) :
    Grip → String → Prop
  | .firm, a => Tracks batch stack (s.lookUp a) (t.lookUp a)
  | .loose, a => s.pending? a = none → Tracks batch stack (s.lookUp a) (t.lookUp a)

structure Recorded (batch : Batch) (stack : List String) (s : Scope) (t : Journaled.Scope)
    (r : TypeRef) : Prop where
  resolve : (∀ own a, r.Mentions .firm own a → Attends batch stack s t own a) →
    Tracks batch stack (s.resolve r) (t.resolve r)
  refer : (∀ own a, r.Mentions .loose own a → Attends batch stack s t own a) →
    Tracks batch stack (s.refer r) (t.refer r)

theorem resolveEach_tracks {refs : List TypeRef}
    (each : ∀ r ∈ refs, Tracks batch stack (s.resolve r) (t.resolve r)) :
    Tracks batch stack (s.resolveEach refs) (t.resolveEach refs) := by
  induction refs with
  | nil => exact .pure []
  | cons r rest ih =>
    rw [Scope.resolveEach, Journaled.Scope.resolveEach]
    refine (each r List.mem_cons_self).bind fun n => ?_
    exact (ih fun r hr => each r (List.mem_cons_of_mem _ hr)).bind fun others => .pure (n :: others)

theorem referEach_tracks {refs : List TypeRef}
    (each : ∀ r ∈ refs, Tracks batch stack (s.refer r) (t.refer r)) :
    Tracks batch stack (s.referEach refs) (t.referEach refs) := by
  induction refs with
  | nil => exact .pure []
  | cons r rest ih =>
    rw [Scope.referEach, Journaled.Scope.referEach]
    refine (each r List.mem_cons_self).bind fun x => ?_
    exact (ih fun r hr => each r (List.mem_cons_of_mem _ hr)).bind fun others => .pure (x :: others)

theorem supertypes?_tracks {e : Option TypeRef} (type : String)
    (each : ∀ r ∈ TypeRef.spread e, Tracks batch stack (s.resolve r) (t.resolve r)) :
    Tracks batch stack (s.supertypes? type e) (t.supertypes? type e) := by
  rcases e with _ | r
  · exact .pure none
  · rw [Scope.supertypes?, Journaled.Scope.supertypes?]
    refine Tracks.bind ?_ fun nodes => .pure (some nodes)
    rcases r with a | refs | d
    · have one := (each _ List.mem_cons_self).bind fun n => .pure [n]
      simpa only [Scope.supertypes, Scope.resolve, Journaled.Scope.supertypes,
        Journaled.Scope.resolve] using one
    · rcases refs with _ | ⟨r, rest⟩
      · rw [Scope.supertypes, Journaled.Scope.supertypes]
        refine .plain (Building.quiet_fail fun path same => ?_)
        cases same
      · rw [Scope.supertypes, Journaled.Scope.supertypes]
        refine (each r List.mem_cons_self).bind fun n => ?_
        exact (resolveEach_tracks fun r hr => each r (List.mem_cons_of_mem _ hr)).bind fun others =>
          .pure (n :: others)
    · have one := (each _ List.mem_cons_self).bind fun n => .pure [n]
      simpa only [Scope.supertypes, Scope.resolve, Journaled.Scope.supertypes,
        Journaled.Scope.resolve, bind_assoc] using one

theorem items?_tracks {i : Option TypeRef}
    (each : ∀ r ∈ TypeRef.spread i, Tracks batch stack (s.refer r) (t.refer r)) :
    Tracks batch stack (s.items? i) (t.items? i) := by
  rcases i with _ | r
  · exact .pure none
  · rw [Scope.items?, Journaled.Scope.items?]
    refine Tracks.bind ?_ fun x => .pure (some x)
    rcases r with a | refs | d
    · have one := each _ List.mem_cons_self
      rwa [Scope.refer, Journaled.Scope.refer, ← Scope.items, ← Journaled.Scope.items] at one
    · rw [Scope.items, Journaled.Scope.items]
      refine (referEach_tracks each).bind fun members => ?_
      exact (Tracks.plain Building.quiet_fresh).bind fun id => .pure (Ref.anyOf id members)
    · have one := each _ List.mem_cons_self
      rwa [Scope.refer, Journaled.Scope.refer, ← Scope.items, ← Journaled.Scope.items] at one

theorem properties?_tracks {properties : Option (List (String × TypeRef))}
    (each : ∀ e ∈ properties.getD [], Tracks batch stack (s.refer e.2) (t.refer e.2)) :
    Tracks batch stack (s.properties? properties) (t.properties? properties) := by
  rcases properties with _ | list
  · exact .pure []
  · rw [Scope.properties?, Journaled.Scope.properties?]
    refine Tracks.bind ?_ fun found => .pure (Keyed.ofEntries found)
    replace each : ∀ e ∈ list, Tracks batch stack (s.refer e.2) (t.refer e.2) := each
    induction list with
    | nil => exact .pure []
    | cons e rest ih =>
      rw [Scope.properties, Journaled.Scope.properties]
      refine (each e List.mem_cons_self).bind fun x => ?_
      exact (ih fun e he => each e (List.mem_cons_of_mem _ he)).bind fun others =>
        .pure ((e.1, ⟨x, false⟩) :: others)

theorem members?_tracks {anyOf : Option (List TypeRef)}
    (each : ∀ r ∈ anyOf.getD [], Tracks batch stack (s.resolve r) (t.resolve r)) :
    Tracks batch stack (s.members? anyOf) (t.members? anyOf) := by
  rcases anyOf with _ | refs
  · exact .pure []
  · exact resolveEach_tracks each

theorem ownShape_tracks {name : String} {d : DeclarationDetails} {target : BaseType} {links : Links}
    {item : Journaled (Option Ref)} {found : Journaled (Keyed (Property Ref))}
    {members : Journaled (List Node)} {next : Shape Node Ref → Building Node}
    (items : Tracks batch stack links.items item)
    (properties : Tracks batch stack links.properties found)
    (union : Tracks batch stack links.members members)
    (quiet : ∀ shape, Building.Quiet (next shape)) :
    Tracks batch stack (DeclarationOf.ownShape name d target links >>= next) (do
      let kind := (target.emptyShape : Shape Node Ref).kind
      let item ← Journaled.only (kind == .array) none item
      let found ← Journaled.only (kind == .object) [] found
      let members ← Journaled.only (kind == .union) [] members
      Journaled.plain do
        let links : Links := ⟨pure item, pure found, pure members⟩
        let shape ← DeclarationOf.ownShape name d target links
        next shape) := by
  have rest (x : Option Ref) (list : Keyed (Property Ref)) (nodes : List Node) :
      Tracks batch stack _ _ :=
    .plain ((DeclarationOf.quiet_ownShape name d target x list nodes).bind quiet)
  cases target with
  | array =>
    have shape : DeclarationOf.ownShape name d .array links = links.items >>= fun x =>
      DeclarationOf.ownShape name d .array ⟨pure x, pure [], pure []⟩ := rfl
    rw [shape, bind_assoc]
    exact items.bind fun x => rest x [] []
  | object =>
    have shape : DeclarationOf.ownShape name d .object links = links.properties >>= fun list =>
      DeclarationOf.ownShape name d .object ⟨pure none, pure list, pure []⟩ := rfl
    rw [shape, bind_assoc]
    exact properties.bind fun list => rest none list []
  | union =>
    have shape : DeclarationOf.ownShape name d .union links = links.members >>= fun nodes =>
      DeclarationOf.ownShape name d .union ⟨pure none, pure [], pure nodes⟩ := rfl
    rw [shape, bind_assoc]
    exact union.bind fun nodes => rest none [] nodes
  | _ => exact rest none [] []

theorem build_tracks_of {d : Declaration} (parts : ∀ grip r, (grip, r) ∈ d.parts →
    Recorded batch stack s t r) (asks : ∀ own a, d.Mentions own a → Attends batch stack s t own a)
    (id : NodeId) : Tracks batch stack (s.build id d) (t.build id d) := by
  have resolves (r : TypeRef) (mem : (Grip.firm, r) ∈ d.parts) :
      Tracks batch stack (s.resolve r) (t.resolve r) :=
    (parts _ r mem).resolve fun own a mention => asks own a ⟨_, r, mem, mention⟩
  have refers (r : TypeRef) (mem : (Grip.loose, r) ∈ d.parts) :
      Tracks batch stack (s.refer r) (t.refer r) :=
    (parts _ r mem).refer fun own a mention => asks own a ⟨_, r, mem, mention⟩
  rw [Scope.build_eq, Journaled.Scope.build_eq]
  refine (supertypes?_tracks d.displayName fun r hr =>
    resolves r (DeclarationOf.supertype_mem_parts hr)).bind fun named => ?_
  dsimp only
  rcases d.foreignFacet? (DeclarationOf.target d.anyOf (named.getD [Node.ofBase d.inferredBase]))
    with _ | facet
  · refine ownShape_tracks ?_ ?_ ?_ fun shape => Building.quiet_compose id d.name _ _ shape
    · exact items?_tracks fun r hr => refers r (DeclarationOf.item_mem_parts hr)
    · exact properties?_tracks fun e he => refers e.2 (DeclarationOf.property_mem_parts he)
    · exact members?_tracks fun r hr => resolves r (DeclarationOf.member_mem_parts hr)
  · exact .plain (Building.quiet_fail nofun)

theorem recorded (same : t.pending? = s.pending?) (r : TypeRef) : Recorded batch stack s t r := by
  induction r using TypeRef.induction with
  | name a =>
    refine ⟨fun asks => ?_, fun asks => ?_⟩
    · rw [Scope.resolve, Journaled.Scope.resolve]
      exact asks .firm a .name
    · rw [Scope.refer, Journaled.Scope.refer, same]
      rcases waits : s.pending? a with _ | id
      · exact (asks .loose a .name waits).bind fun n => .pure (Ref.node n)
      · exact .plain (Building.quiet_forward id a)
  | many refs ih =>
    have each (own : Grip) (asks : ∀ grip a, TypeRef.Mentions own (.many refs) grip a →
        Attends batch stack s t grip a) :
        Tracks batch stack (s.resolveEach refs) (t.resolveEach refs) :=
      resolveEach_tracks fun r hr => (ih r hr).resolve fun grip a mention =>
        asks grip a (.many hr mention)
    refine ⟨fun asks => ?_, fun asks => ?_⟩
    · rw [Scope.resolve, Journaled.Scope.resolve]
      refine (each .firm asks).bind fun nodes => .plain ?_
      exact Building.quiet_fresh.bind fun id => Building.quiet_compose id none nodes _ _
    · rw [Scope.refer, Journaled.Scope.refer]
      refine (each .loose asks).bind fun nodes => .plain ?_
      refine Building.quiet_fresh.bind fun id => ?_
      exact (Building.quiet_compose id none nodes _ _).bind fun n => Building.quiet_pure _
  | inline d ih =>
    have built (own : Grip) (asks : ∀ grip a, TypeRef.Mentions own (.inline d) grip a →
        Attends batch stack s t grip a) (id : NodeId) :
        Tracks batch stack (s.build id d) (t.build id d) :=
      build_tracks_of ih (fun grip a mention =>
        asks grip a (TypeRef.mentions_inline_iff.mpr mention)) id
    refine ⟨fun asks => ?_, fun asks => ?_⟩
    · rw [Scope.resolve, Journaled.Scope.resolve]
      exact (Tracks.plain Building.quiet_fresh).bind (built .firm asks)
    · rw [Scope.refer, Journaled.Scope.refer]
      refine (Tracks.plain Building.quiet_fresh).bind fun id => ?_
      exact (built .loose asks id).bind fun n => .pure (Ref.node n)

theorem build_tracks (same : t.pending? = s.pending?) {d : Declaration}
    (asks : ∀ own a, d.Mentions own a → Attends batch stack s t own a) (id : NodeId) :
    Tracks batch stack (s.build id d) (t.build id d) :=
  build_tracks_of (fun _ r _ => recorded same r) asks id

end

namespace Batch

variable {types : Keyed Node} {batch : Batch} {fuel : Nat} {stack : List String} {name : String}
  {p : Progress}

theorem lookUp_of_stack (unknown : known? p.built types name = none) (there : name ∈ stack) :
    lookUp types batch fuel stack name p =
      .error (.dependencyCycle (since name stack ++ [name])) := by
  obtain ⟨hb, ht⟩ := Option.or_eq_none_iff.mp unknown
  have held : stack.contains name = true := by simpa using there
  rw [lookUp.eq_def]
  refine (Building.get_bind _ p).trans ?_
  rw [hb, ht]
  dsimp only
  rw [held]
  rfl

theorem lookUp_of_missing (unknown : known? p.built types name = none) (apart : name ∉ stack)
    (missing : Keyed.get? batch name = none) :
    lookUp types batch fuel stack name p = .error (.unknownType name) := by
  obtain ⟨hb, ht⟩ := Option.or_eq_none_iff.mp unknown
  have free : stack.contains name = false := by simpa using apart
  rw [lookUp.eq_def]
  refine (Building.get_bind _ p).trans ?_
  rw [hb, ht]
  dsimp only
  rw [free, missing]
  cases fuel <;> rfl

theorem Trail.pending?_ne_none {a : String} (trail : batch.Trail stack) (there : a ∈ stack) :
    (within types batch fuel stack).pending? a ≠ none := by
  intro waits
  replace waits : (if stack.contains a then (Keyed.get? batch a).map Prod.fst else none) = none :=
    waits
  rw [List.contains_iff_mem.mpr there, if_pos rfl, Option.map_eq_none_iff] at waits
  have known := Keyed.hasKey_iff_mem_keys.mpr (trail.known there)
  rw [Keyed.hasKey, waits] at known
  cases known

end Batch

namespace Journaled

variable {types : Keyed Node} {batch : Batch} {allowance fuel : Nat} {stack : List String}
  {name : String} {p : Progress} {j : Journal} {n : Node}

def within (types : Keyed Node) (batch : Batch) (allowance : Nat) (stack : List String) :
    Journaled.Scope :=
  ⟨lookUp types batch allowance stack, fun other =>
    if stack.contains other then (Keyed.get? batch other).map Prod.fst else none⟩

theorem get_bind (f : Progress → Journaled α) (p : Progress) (j : Journal) :
    (get >>= f) p j = f p p j := rfl

theorem lookUp_of_known (found : Batch.known? p.built types name = some n) :
    lookUp types batch allowance stack name p j = some (.ok (n, p), j) := by
  rw [lookUp.eq_def]
  refine (get_bind _ p j).trans ?_
  unfold Batch.known? at found
  rcases hb : Keyed.get? p.built name with _ | m
  · rw [hb, Option.none_or] at found
    rw [found]
    rfl
  · rw [hb, Option.some_or] at found
    obtain rfl := Option.some.inj found
    rfl

theorem lookUp_of_stack (unknown : Batch.known? p.built types name = none) (there : name ∈ stack) :
    lookUp types batch allowance stack name p j =
      some (.error (.dependencyCycle (Batch.since name stack ++ [name])), j) := by
  obtain ⟨hb, ht⟩ := Option.or_eq_none_iff.mp unknown
  have held : stack.contains name = true := by simpa using there
  rw [lookUp.eq_def]
  refine (get_bind _ p j).trans ?_
  rw [hb, ht]
  dsimp only
  rw [held]
  rfl

theorem lookUp_of_missing (unknown : Batch.known? p.built types name = none) (apart : name ∉ stack)
    (missing : Keyed.get? batch name = none) :
    lookUp types batch allowance stack name p j = some (.error (.unknownType name), j) := by
  obtain ⟨hb, ht⟩ := Option.or_eq_none_iff.mp unknown
  have free : stack.contains name = false := by simpa using apart
  rw [lookUp.eq_def]
  refine (get_bind _ p j).trans ?_
  rw [hb, ht]
  dsimp only
  rw [free, missing]
  rfl

theorem bind_modify (w : Journaled α) (f : α → Progress → Progress) (p : Progress) (j : Journal) :
    (do
      let a ← w
      modify (f a)
      return a) p j = (w p j).map fun r => (r.1.map fun s => (s.1, f s.1 s.2), r.2) := by
  rw [bind_apply]
  rcases w p j with _ | ⟨e | ⟨a, q⟩, j'⟩ <;> rfl

theorem lookUp_of_new (allowance : Nat) (unknown : Batch.known? p.built types name = none)
    (apart : name ∉ stack) {id : NodeId} {d : Declaration}
    (hd : Keyed.get? batch name = some (id, d)) :
    lookUp types batch (allowance + 1) stack name p j =
      ((within types batch allowance (stack ++ [name])).build id d p (j ++ [⟨stack, name⟩])).map
        fun r =>
          (r.1.map fun s => (s.1, { s.2 with built := Keyed.insert s.2.built name s.1 }), r.2) := by
  obtain ⟨hb, ht⟩ := Option.or_eq_none_iff.mp unknown
  have free : stack.contains name = false := by simpa using apart
  rw [lookUp.eq_def]
  refine (get_bind _ p j).trans ?_
  rw [hb, ht]
  dsimp only
  rw [free, hd]
  exact bind_modify _ (fun n p => { p with built := Keyed.insert p.built name n }) p
    (j ++ [⟨stack, name⟩])

/-- With room on the stack for every name of the batch, looking up a name terminates with the result
of `lookUp`. -/
theorem lookUp_tracks (trail : batch.Trail stack) (asked : batch.Asked stack name)
    (room : batch.length ≤ fuel + stack.length) (room' : batch.length ≤ allowance + stack.length) :
    Tracks batch stack (Batch.lookUp types batch fuel stack name)
      (lookUp types batch allowance stack name) := by
  induction fuel using Nat.strong_induction_on generalizing allowance stack name with
  | _ fuel ih =>
    intro p j kept
    rcases found : Batch.known? p.built types name with _ | n
    · by_cases there : name ∈ stack
      · rw [lookUp_of_stack found there, Batch.lookUp_of_stack found there]
        refine ⟨j, rfl, .error kept.toOrderly fun path same => ?_⟩
        obtain rfl := TypeError.dependencyCycle.inj same
        exact trail.cycle asked there
      · rcases hd : Keyed.get? batch name with _ | ⟨id, d⟩
        · rw [lookUp_of_missing found there hd, Batch.lookUp_of_missing found there hd]
          exact ⟨j, rfl, .error kept.toOrderly nofun⟩
        · have has : Keyed.hasKey batch name = true := by
            rw [Keyed.hasKey, hd]
            rfl
          have inner := trail.push asked there (Keyed.hasKey_iff_mem_keys.mp has)
          have bound := inner.length_le
          rw [List.length_append, List.length_singleton] at bound
          obtain ⟨fuel, rfl⟩ : ∃ m, fuel = m + 1 := ⟨fuel - 1, by omega⟩
          obtain ⟨allowance, rfl⟩ : ∃ m, allowance = m + 1 := ⟨allowance - 1, by omega⟩
          have within (a : String) (asked : batch.Asked (stack ++ [name]) a) :
              Tracks batch (stack ++ [name]) (Batch.lookUp types batch fuel (stack ++ [name]) a)
                (lookUp types batch allowance (stack ++ [name]) a) := by
            have longer : (stack ++ [name]).length = stack.length + 1 := List.length_append
            exact ih fuel (Nat.lt_succ_self fuel) inner asked (by omega) (by omega)
          have asks (own : Grip) (a : String) (mention : DeclarationOf.Mentions d own a) :
              Attends batch (stack ++ [name]) (Batch.within types batch fuel (stack ++ [name]))
                (Journaled.within types batch allowance (stack ++ [name])) own a := by
            have refers : batch.Refers own name a := ⟨id, d, hd, mention⟩
            cases own with
            | firm => exact within a (refers.asked fun _ => rfl)
            | loose =>
              exact fun waits => within a (refers.asked fun there =>
                absurd waits (inner.pending?_ne_none there))
          have new := (Option.or_eq_none_iff.mp found).1
          obtain ⟨j', run, closes⟩ := build_tracks rfl asks id p _ (kept.begin inner there new)
          rw [lookUp_of_new allowance found there hd, Batch.lookUp_of_new fuel found there hd, run]
          refine ⟨j', rfl, ?_⟩
          generalize (Batch.within types batch fuel (stack ++ [name])).build id d p = built
            at closes ⊢
          cases closes with
          | ok kept => exact .ok (kept.finish _)
          | error orderly cycle => exact .error orderly cycle
    · rw [lookUp_of_known found, Batch.lookUp_of_known found]
      exact ⟨j, rfl, .ok kept⟩

theorem lookUpEach_tracks {s : Schemata.Scope} {t : Journaled.Scope} {names : List String}
    (each : ∀ name ∈ names, Tracks batch stack (s.lookUp name) (t.lookUp name)) :
    Tracks batch stack (Batch.lookUpEach s names) (lookUpEach t names) := by
  induction names with
  | nil => exact .pure []
  | cons name rest ih =>
    rw [Batch.lookUpEach, lookUpEach]
    refine (each name List.mem_cons_self).bind fun n => ?_
    exact (ih fun a ha => each a (List.mem_cons_of_mem _ ha)).bind fun others => .pure (n :: others)

end Journaled

end Schemata

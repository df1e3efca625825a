import Schemata.Proofs.Node.Gathering
import Schemata.Proofs.Node.Leaves

/-! `representedBase` against the base of the first alternative. They agree as long as a type
represents the base of its leader: its first own member, or else its first supertype. -/

namespace Schemata

namespace Shape

variable {μ ρ : Type}

theorem kind_emptyShape_eq_union {b : BaseType} :
    (b.emptyShape : Shape μ ρ).kind = .union ↔ b = .union := by
  cases b <;> constructor <;> intro h <;> first | rfl | cases h

theorem eq_union_of_members {s : Shape μ ρ} {m : μ} {rest : List μ} (h : s.members = m :: rest) :
    s = .union (m :: rest) := by
  cases s with
  | union members => exact congrArg union h
  | _ => cases h

end Shape

theorem cartesianProduct_of_heads {α : Type} {lists : List (List α)} {heads : List α}
    (h : List.Forall₂ (fun list a => ∃ rest, list = a :: rest) lists heads) :
    ∃ others, cartesianProduct lists = heads :: others := by
  induction h with
  | nil => exact ⟨[], rfl⟩
  | cons first _ ih =>
    obtain ⟨rest, rfl⟩ := first
    obtain ⟨others, same⟩ := ih
    rw [cartesianProduct, same, List.flatMap_cons, List.map_cons]
    exact ⟨_, rfl⟩

namespace Node

variable {n m a : Node}

/-- The supertypes and own members. -/
def sources (n : Node) : List Node := n.supertypes ++ n.ownShape.members

def MadeOf (n m : Node) : Prop := Relation.ReflTransGen (fun n m => m ∈ n.sources) n m

/-- The first own member, or else the first supertype. -/
def leader? (n : Node) : Option Node := n.ownShape.members.head?.or n.supertypes.head?

/-- The represented base is that of the leader. -/
def Follows (n : Node) : Prop := ∀ m ∈ n.leader?, n.representedBase = m.representedBase

/-- The represented base is the base of the first alternative. -/
def Stands (n : Node) : Prop := ∀ a ∈ n.alternatives.head?, n.representedBase = a.base

theorem mem_parts_of_mem_sources (h : m ∈ n.sources) : m ∈ n.parts := by
  rcases List.mem_append.mp h with h | h
  · exact List.mem_append_left _ (List.mem_append_left _ h)
  · exact List.mem_append_right _ h

theorem Built.source (built : n.Built) (h : m ∈ n.sources) : m.Built := by
  have opens : n.Opens ⟨0, []⟩ := built.opens fun _ h => nomatch h
  rcases List.mem_append.mp h with h | h
  · exact opens.supertypes m h
  · exact opens.ownShape.members m h

theorem representedBase_of_members {rest : List Node} (h : n.members = m :: rest) :
    n.representedBase = m.representedBase := by
  have shape := Shape.eq_union_of_members h
  obtain ⟨id, name, base, supertypes, header, _, ownHeader, ownShape, builtin⟩ := n
  obtain rfl := shape
  rw [representedBase]

theorem Tidy.representedBase_eq (tidy : n.Tidy) (h : n.members = []) : n.representedBase = n.base := by
  have kind := tidy.kind
  obtain ⟨id, name, base, supertypes, header, shape, ownHeader, ownShape, builtin⟩ := n
  cases shape with
  | union members =>
    obtain rfl : members = [] := h
    rw [representedBase]
    exact (Shape.kind_emptyShape_eq_union.mp kind.symm).symm
  | _ => rw [representedBase] <;> (intros; contradiction)

theorem Tidy.members_eq_nil (tidy : n.Tidy) (other : n.base ≠ .union) : n.members = [] := by
  rcases members : n.members with _ | ⟨m, rest⟩
  · rfl
  · have kind := tidy.kind
    rw [Shape.eq_union_of_members members] at kind
    exact absurd (Shape.kind_emptyShape_eq_union.mp kind.symm) other

theorem family_eq (n : Node) : n.family = n.representedBase.family := by
  induction n using wellFounded_parts.induction with
  | _ n ih =>
    obtain ⟨id, name, base, supertypes, header, shape, ownHeader, ownShape, builtin⟩ := n
    cases shape with
    | union members =>
      cases members with
      | nil => rw [family, representedBase]; rfl
      | cons m rest =>
        rw [family, representedBase]
        exact ih m (List.mem_append_left _ (List.mem_append_right _ List.mem_cons_self))
    | _ => rw [family, representedBase] <;> (intros; contradiction)

/-! What the alternatives of a type are like. -/

theorem members_effective {base : BaseType} {sources : List Node} (h : Header) {own : Shape Node Ref}
    (memberless : own.members = []) (each : ∀ s ∈ sources, s.members = []) :
    (effective base sources h own).2.members = [] := by
  have none {s : Shape Node Ref} (h : s.members = []) :
      s.Holds (fun _ => False) fun _ => True := by
    refine ⟨fun m hm => ?_, fun _ _ => trivial⟩
    rw [h] at hm
    cases hm
  have holds : True ∧ (effective base sources h own).2.Holds (fun _ => False) fun _ => True :=
    (Shape.heritable_holds _ _).effective trivial (fun _ _ => trivial) (fun s hs => none (each s hs))
      trivial (none memberless)
  exact List.eq_nil_iff_forall_not_mem.mpr holds.2.members

theorem Built.memberless (built : n.Built) (alone : n.supertypes = []) :
    n.ownShape.members = [] ∧ n.members = [] := by
  cases built with
  | ofBase b => exact ⟨Shape.members_emptyShape b, Shape.members_emptyShape b⟩
  | placeholder name => exact ⟨rfl, rfl⟩
  | anyOf => cases alone
  | many _ made =>
    obtain ⟨first, rest, rfl, -, rfl⟩ := Building.compose_eq_pure made
    cases alone
  | described _ describes =>
    obtain ⟨-, -, -, -, -, -, made⟩ := describes
    obtain ⟨first, rest, rfl, -, rfl⟩ := Building.compose_eq_pure made
    cases alone

theorem Built.members_alternative : ∀ {n : Node}, n.Built → ∀ a ∈ n.alternatives, a.members = [] := by
  intro n
  induction n using wellFounded_parts.induction with
  | _ n ih =>
    intro built a ha
    have part m (hm : m ∈ n.sources) : ∀ a ∈ m.alternatives, a.members = [] :=
      ih m (mem_parts_of_mem_sources hm) (built.source hm)
    rcases found : n.alternatives? with _ | list
    · obtain ⟨memberless, alone⟩ := alone_of_none found
      rw [alternatives_of_none found] at ha
      obtain rfl := List.mem_singleton.mp ha
      rcases supertypes : a.supertypes with _ | ⟨first, rest⟩
      · exact (built.memberless supertypes).2
      · rw [(built.composed supertypes).1]
        refine members_effective a.ownHeader memberless fun s hs => ?_
        rw [← supertypes] at hs
        have own := alternatives_of_none (alone s hs)
        exact part s (List.mem_append_left _ hs) s (own ▸ List.mem_singleton_self s)
    · rw [alternatives_of_some found] at ha
      rcases alternatives?_cases found ha with ⟨m, hm, ha⟩ | ⟨memberless, combination, chosen, derived⟩
      · exact part m (List.mem_append_right _ hm) a ha
      · obtain ⟨first, rest, -, -, rfl⟩ := specialize_eq_some_iff.mp derived
        refine members_effective n.ownHeader memberless fun s hs => ?_
        obtain ⟨m, hm, hs⟩ := chosen s hs
        exact part m (List.mem_append_left _ hm) s hs

theorem Built.representedBase_alternative (built : n.Built) (ha : a ∈ n.alternatives) :
    a.representedBase = a.base :=
  (built.tidy_alternative ha).representedBase_eq (built.members_alternative a ha)

theorem Built.family_alternative (built : n.Built) (ha : a ∈ n.alternatives)
    (stands : n.representedBase = a.base) : a.family = n.family := by
  rw [family_eq, family_eq, built.representedBase_alternative ha, stands]

def Represented (n : Node) : Prop := ∃ a rest, n.alternatives = a :: rest ∧ n.representedBase = a.base

variable {first : Node} {rest : List Node}

theorem Built.base_eq (built : n.Built) (supertypes : n.supertypes = first :: rest) :
    n.base = first.base := (congrArg Node.base (built.composed supertypes).1).trans rfl

theorem Built.exists_first_of_cartesianProduct (built : n.Built) (supertypes : n.supertypes = first :: rest)
    (each : ∀ s ∈ n.supertypes, s.Represented) :
    ∃ a others, (cartesianProduct (n.supertypes.map alternatives)).filterMap n.specialize = a :: others ∧
      first.representedBase = a.base := by
  obtain ⟨-, together⟩ := built.composed supertypes
  have built s (hs : s ∈ first :: rest) : s.Built :=
    built.source (List.mem_append_left _ (supertypes ▸ hs))
  rw [supertypes] at each ⊢
  obtain ⟨heads, paired⟩ := exists_forall₂ each
  obtain ⟨others, combinations⟩ := cartesianProduct_of_heads
    (List.forall₂_map_left_iff.mpr (paired.imp fun _ _ ⟨rest, same, _⟩ => ⟨rest, same⟩))
  have family s (hs : s ∈ first :: rest) a (head : ∃ rest, s.alternatives = a :: rest ∧
      s.representedBase = a.base) : a.family = s.family := by
    obtain ⟨rest, same, stands⟩ := head
    exact (built s hs).family_alternative (same ▸ List.mem_cons_self) stands
  rw [combinations]
  cases paired with
  | @cons _ a _ heads head behind =>
    have compatible : ∀ alt ∈ heads, a.family.isCompatible alt.family = true := by
      intro alt ha
      obtain ⟨s, hs, head'⟩ := exists_of_forall₂_of_mem behind.flip ha
      rw [family first List.mem_cons_self a head, family s (List.mem_cons_of_mem _ hs) alt head']
      exact together s hs
    obtain ⟨m, derived⟩ := exists_specialize_iff.mpr compatible
    refine ⟨m, _, List.filterMap_cons_some derived, ?_⟩
    obtain ⟨_, _, ⟨⟩, -, rfl⟩ := specialize_eq_some_iff.mp derived
    exact head.choose_spec.2

theorem Built.exists_first (built : n.Built) (each : ∀ m ∈ n.sources, m.Represented) :
    ∃ a rest, n.alternatives = a :: rest ∧ (∀ m ∈ n.leader?, m.representedBase = a.base) ∧
      (n.leader? = none → n.representedBase = a.base) := by
  rcases own : n.ownShape.members with _ | ⟨m, others⟩
  · rcases supertypes : n.supertypes with _ | ⟨first, rest⟩
    · have alone : ∀ s ∈ n.supertypes, s.alternatives? = none := by
        rw [supertypes]
        exact fun _ hs => nomatch hs
      have itself : n.alternatives = [n] := alternatives_of_none (alternatives?_of_alone own alone)
      have leader : n.leader? = none := by rw [leader?, own, supertypes]; rfl
      rw [leader]
      exact ⟨n, [], itself, nofun,
        fun _ => built.representedBase_alternative (itself ▸ List.mem_cons_self)⟩
    · have leader : n.leader? = some first := by rw [leader?, own, supertypes]; rfl
      have mem : first ∈ n.supertypes := supertypes ▸ List.mem_cons_self
      have supers s (hs : s ∈ n.supertypes) : s.Represented := each s (List.mem_append_left _ hs)
      rw [leader]
      by_cases alone : ∀ s ∈ n.supertypes, s.alternatives? = none
      · obtain ⟨a, others, same, stands⟩ := supers first mem
        obtain ⟨rfl, -⟩ := List.cons.inj ((alternatives_of_none (alone first mem)).symm.trans same)
        refine ⟨n, [], alternatives_of_none (alternatives?_of_alone own alone), fun _ hm => ?_, nofun⟩
        obtain rfl := Option.some.inj hm
        exact stands.trans (built.base_eq supertypes).symm
      · obtain ⟨a, others, same, stands⟩ := built.exists_first_of_cartesianProduct supertypes supers
        have found := alternatives_of_some (alternatives?_of_several own alone)
        refine ⟨a, others, found.trans same, fun _ hm => ?_, nofun⟩
        obtain rfl := Option.some.inj hm
        exact stands
  · have leader : n.leader? = some m := by rw [leader?, own]; rfl
    obtain ⟨a, rest, same, stands⟩ := each m (List.mem_append_right _ (own ▸ List.mem_cons_self))
    have members := alternatives_of_members (Shape.eq_union_of_members own) (List.cons_ne_nil _ _)
    rw [members, List.flatMap_cons, same, leader]
    refine ⟨a, _, rfl, fun _ hm => ?_, nofun⟩
    obtain rfl := Option.some.inj hm
    exact stands

theorem Built.stands_iff_follows (built : n.Built) (each : ∀ m ∈ n.sources, m.Represented) :
    n.Stands ↔ n.Follows := by
  obtain ⟨a, rest, same, leads, alone⟩ := built.exists_first each
  constructor
  · intro stands m hm
    rw [leads m hm]
    exact stands a (by rw [same]; rfl)
  · intro follows b hb
    rw [same] at hb
    obtain rfl := Option.some.inj hb
    rcases leader : n.leader? with _ | m
    · exact alone leader
    · exact (follows m leader).trans (leads m leader)

/-! Whether a type follows its leader. -/

theorem Built.members_eq (built : n.Built) (supertypes : n.supertypes = first :: rest)
    (union : first.base = .union) : n.members =
      ((n.ownShape.members :: n.supertypes.map members).find? fun list => !list.isEmpty).getD [] := by
  have gathers :=
    (gathers_extend n.id n.name first.base (first :: rest) n.ownHeader built.declared).2
  rw [← (built.composed supertypes).1] at gathers
  have kind := built.tidy.kind
  rw [built.base_eq supertypes, union] at kind
  rcases shape : n.shape with _ | _ | _ | _ | _ | _ | _ | _ | list <;> rw [shape] at kind gathers
  case union =>
    have members : n.members = list := by rw [Node.members, shape]; rfl
    rw [members, gathers, supertypes, List.map_cons, List.map_map]
    rfl
  all_goals cases kind

theorem Built.follows_iff_of_members (built : n.Built) {others : List Node}
    (own : n.ownShape.members = m :: others) :
    n.Follows ↔ n.base = .union ∨ n.base = m.representedBase := by
  have follows : n.Follows ↔ n.representedBase = m.representedBase := by
    rw [Follows, leader?, own]
    exact ⟨fun h => h m rfl, fun h _ hm => Option.some.inj hm ▸ h⟩
  rw [follows]
  by_cases union : n.base = .union
  · rcases supertypes : n.supertypes with _ | ⟨first, rest⟩
    · rw [(built.memberless supertypes).1] at own
      cases own
    · have members := built.members_eq supertypes ((built.base_eq supertypes).symm.trans union)
      rw [own] at members
      exact iff_of_true (representedBase_of_members members) (.inl union)
  · rw [built.tidy.representedBase_eq (built.tidy.members_eq_nil union), or_iff_right union]

theorem Built.follows_iff_of_memberless (built : n.Built) (own : n.ownShape.members = [])
    (supertypes : n.supertypes = first :: rest) :
    n.Follows ↔ first.base ≠ .union ∨ first.members ≠ [] ∨
      ∀ m ∈ n.members.head?, m.representedBase = .union := by
  have follows : n.Follows ↔ n.representedBase = first.representedBase := by
    rw [Follows, leader?, own, supertypes]
    exact ⟨fun h => h first rfl, fun h _ hm => Option.some.inj hm ▸ h⟩
  have leading : first.Built :=
    built.source (List.mem_append_left _ (supertypes ▸ List.mem_cons_self))
  have base := built.base_eq supertypes
  rw [follows]
  by_cases union : first.base = .union
  · have members := built.members_eq supertypes union
    rw [own, supertypes] at members
    rcases firsts : first.members with _ | ⟨m, others⟩
    · rw [leading.tidy.representedBase_eq firsts, union, or_iff_right (not_not.mpr rfl),
        or_iff_right (not_not.mpr rfl)]
      rcases all : n.members with _ | ⟨m, others⟩
      · rw [built.tidy.representedBase_eq all, base, union]
        exact iff_of_true rfl nofun
      · rw [representedBase_of_members all]
        exact ⟨fun h _ hm => Option.some.inj hm ▸ h, fun h => h m rfl⟩
    · rw [List.map_cons, firsts] at members
      rw [representedBase_of_members members, representedBase_of_members firsts]
      exact iff_of_true rfl (.inr (.inl (List.cons_ne_nil _ _)))
  · rw [leading.tidy.representedBase_eq (leading.tidy.members_eq_nil union),
      built.tidy.representedBase_eq (built.tidy.members_eq_nil (base ▸ union))]
    exact iff_of_true base (.inl union)

/-! Types all through. -/

theorem MadeOf.of_source (h : m ∈ n.sources) (made : m.MadeOf a) : n.MadeOf a := made.head h

theorem MadeOf.built (made : n.MadeOf m) (built : n.Built) : m.Built := by
  induction made with
  | refl => exact built
  | tail _ h ih => exact ih.source h

theorem MadeOf.follows_ofBase {b : BaseType} (made : (ofBase b).MadeOf m) : m.Follows := by
  rcases Relation.ReflTransGen.cases_head made with rfl | ⟨k, hk, -⟩
  · intro k hk
    cases b <;> cases hk
  · cases b <;> cases hk

theorem Represented.stands (h : n.Represented) : n.Stands := by
  obtain ⟨a, rest, same, represented⟩ := h
  intro b hb
  rw [same] at hb
  exact Option.some.inj hb ▸ represented

theorem represented_of_each : ∀ {n : Node}, n.Built → (∀ m, n.MadeOf m → m.Stands ∨ m.Follows) →
    n.Represented := by
  intro n
  induction n using wellFounded_parts.induction with
  | _ n ih =>
    intro built either
    have each m (hm : m ∈ n.sources) : m.Represented :=
      ih m (mem_parts_of_mem_sources hm) (built.source hm) fun k made => either k (.of_source hm made)
    obtain ⟨a, rest, same, -⟩ := built.exists_first each
    have stands : n.Stands := by
      rcases either n .refl with stands | follows
      · exact stands
      · exact (built.stands_iff_follows each).mpr follows
    exact ⟨a, rest, same, stands a (by rw [same]; rfl)⟩

/-- The represented base is the base of the first alternative, for a type and all its sources,
exactly when it is the leader's for each of them. -/
theorem stands_iff_follows (built : n.Built) :
    (∀ m, n.MadeOf m → m.Stands) ↔ ∀ m, n.MadeOf m → m.Follows := by
  constructor
  · intro stands m made
    have builtM := made.built built
    refine (builtM.stands_iff_follows fun k hk => ?_).mp (stands m made)
    exact represented_of_each (builtM.source hk) fun k' further =>
      .inl (stands k' (made.trans (MadeOf.of_source hk further)))
  · intro follows m made
    have represented : m.Represented :=
      represented_of_each (made.built built) fun k further => .inr (follows k (made.trans further))
    exact represented.stands

end Node

namespace Library

variable {g : Graph} {l : Library} {n : Node}

/-- `representedBase` is the base of the first alternative, for a type and all that it is made of,
exactly when it is that of the leader for each of them; a declaration extending the type is then
read for that base. A type with own members follows the first one if it is a union or has the same
represented base; any other type follows its first supertype, unless that is a union without members
and a later one brings in members of another base. -/
theorem representedBase_eq_first_iff (reached : Reached g l) (gives : l.Gives g n) :
    ((∀ m, n.MadeOf m → m.Stands) ↔ ∀ m, n.MadeOf m → m.Follows) ∧
      ((∀ m ∈ n.sources, m.Represented) → (n.Stands ↔ n.Follows)) ∧
      ((∀ m, n.MadeOf m → m.Follows) → ∃ a rest, n.alternatives = a :: rest ∧
        n.representedBase = a.base ∧ n.family = a.family ∧
          ∀ (d : Declaration) others, d.anyOf = none →
            DeclarationOf.target d.anyOf (n :: others) = a.base) ∧
      (∀ m others, n.ownShape.members = m :: others →
        (n.Follows ↔ n.base = .union ∨ n.base = m.representedBase)) ∧
      ∀ first rest, n.ownShape.members = [] → n.supertypes = first :: rest →
        (n.Follows ↔ first.base ≠ .union ∨ first.members ≠ [] ∨
          ∀ m ∈ n.members.head?, m.representedBase = .union) := by
  have built := gives.built reached
  refine ⟨Node.stands_iff_follows built, built.stands_iff_follows, fun follows => ?_,
    fun _ _ => built.follows_iff_of_members, fun _ _ => built.follows_iff_of_memberless⟩
  obtain ⟨a, rest, same, represented⟩ :=
    Node.represented_of_each built fun m made => .inr (follows m made)
  have family := built.family_alternative (same ▸ List.mem_cons_self) represented
  refine ⟨a, rest, same, represented, family.symm, fun d others none => ?_⟩
  rw [none]
  exact represented

def textsUnderOthers : List Declaration :=
  [{ (DeclarationOf.named "T").extending (.name "object") with anyOf := some [.name "string"] },
    { DeclarationOf.named "U" with anyOf := some [.name "string"] },
    (DeclarationOf.named "V").extending (.many [.name "union", .name "U"])]

def objectOfTextNode : Node :=
  .extend (some 14) (some "T") .object [.ofBase .object] Header.empty (.union [.ofBase .string])

def unionOfTextNode : Node :=
  .extend (some 15) (some "U") .union [.ofBase .union] Header.empty (.union [.ofBase .string])

def behindUnionNode : Node :=
  .extend (some 16) (some "V") .union [.ofBase .union, unionOfTextNode] Header.empty (.union [])

theorem textsUnderOthers_added : ∃ a, initial.addTypes .initial textsUnderOthers = .ok a ∧
    a.library.type? "T" = some objectOfTextNode ∧ a.library.type? "U" = some unionOfTextNode ∧
      a.library.type? "V" = some behindUnionNode := by
  refine ⟨⟨⟨17, []⟩, ⟨initial.types ++ [("T", objectOfTextNode), ("U", unionOfTextNode),
    ("V", behindUnionNode)]⟩, [objectOfTextNode, unionOfTextNode, behindUnionNode]⟩, ?_, rfl, rfl, rfl⟩
  cbv

theorem representedBase_eq_first_iff_of_texts : ∃ a, initial.addTypes .initial textsUnderOthers = .ok a ∧
    Reached a.graph a.library ∧ a.library.Gives a.graph objectOfTextNode ∧
      a.library.Gives a.graph unionOfTextNode ∧ a.library.Gives a.graph behindUnionNode ∧
      ¬objectOfTextNode.Follows ∧ ¬behindUnionNode.Follows ∧
        ∃ alt rest, unionOfTextNode.alternatives = alt :: rest ∧ alt.base = .string := by
  obtain ⟨a, added, object, union, behind⟩ := textsUnderOthers_added
  have reached := Reached.added .initial added
  have givesT : a.library.Gives a.graph objectOfTextNode := .added object .refl
  have givesU : a.library.Gives a.graph unionOfTextNode := .added union .refl
  have givesV : a.library.Gives a.graph behindUnionNode := .added behind .refl
  obtain ⟨-, -, -, ofMembers, -⟩ := representedBase_eq_first_iff reached givesT
  obtain ⟨-, -, stands, ofMembers', -⟩ := representedBase_eq_first_iff reached givesU
  obtain ⟨-, -, -, -, ofMemberless⟩ := representedBase_eq_first_iff reached givesV
  have notT : ¬objectOfTextNode.Follows := by
    rw [ofMembers _ _ rfl]
    exact fun either => either.elim nofun nofun
  have notV : ¬behindUnionNode.Follows := by
    rw [ofMemberless _ _ rfl rfl]
    rintro (other | some | all)
    · exact other rfl
    · exact some rfl
    · cases all _ rfl
  have followsU m (made : unionOfTextNode.MadeOf m) : m.Follows := by
    rcases Relation.ReflTransGen.cases_head made with rfl | ⟨k, hk, made⟩
    · exact (ofMembers' _ _ rfl).mpr (.inl rfl)
    · rcases List.mem_cons.mp hk with rfl | hk
      · exact Node.MadeOf.follows_ofBase made
      · obtain rfl := List.mem_singleton.mp hk
        exact Node.MadeOf.follows_ofBase made
  obtain ⟨alt, rest, same, represented, -⟩ := stands followsU
  exact ⟨a, added, reached, givesT, givesU, givesV, notT, notV, alt, rest, same, represented.symm⟩

/-- `{type: object, anyOf: [string]}` represents `object`, and its only alternative is a string. -/
theorem not_representedBase_eq_first : ∃ a, initial.addTypes .initial textsUnderOthers = .ok a ∧
    (∃ n alt, a.library.type? "T" = some n ∧ n.alternatives = [alt] ∧
      n.representedBase = .object ∧ alt.base = .string) ∧
    ∃ n alt, a.library.type? "V" = some n ∧ n.alternatives = [alt] ∧
      n.representedBase = .string ∧ alt.base = .union := by
  obtain ⟨a, added, object, -, behind⟩ := textsUnderOthers_added
  exact ⟨a, added, ⟨_, _, object, rfl, rfl, rfl⟩, _, _, behind, rfl, rfl, rfl⟩

end Library
end Schemata

import Mathlib
import Schemata.Proofs.Library.Given

/-! Compatibility of supertypes. Each is compared with the first alone, and an open family is
compatible with everything; so two behind an open one may be incompatible, and another order of the
same list is refused. -/

namespace Schemata

namespace Family

variable {a b c : Family}

theorem isCompatible_iff : a.isCompatible b = true ↔ a = b ∨ a.isOpen = true ∨ b.isOpen = true := by
  rw [isCompatible, Bool.or_eq_true, Bool.or_eq_true, beq_iff_eq, or_assoc]

/-- Compatibility is transitive through a family that is not open. -/
theorem isCompatible_trans (closed : b.isOpen = false) (h : a.isCompatible b = true)
    (h' : b.isCompatible c = true) : a.isCompatible c = true := by
  rw [isCompatible_iff, closed] at h h'
  rcases h with rfl | openA | closed
  · exact isCompatible_iff.mpr (by rwa [closed])
  · exact isCompatible_iff.mpr (.inr (.inl openA))
  · cases closed

end Family

namespace Node

def Compatible (nodes : List Node) : Prop :=
  ∀ s ∈ nodes, ∀ t ∈ nodes, s.family.isCompatible t.family = true

variable {first : Node} {rest nodes nodes' : List Node}

theorem Compatible.perm (h : Compatible nodes) (perm : nodes'.Perm nodes) : Compatible nodes' :=
  fun s hs t ht => h s (perm.mem_iff.mp hs) t (perm.mem_iff.mp ht)

theorem compatible_cons_iff (compatible : ∀ s ∈ rest, first.family.isCompatible s.family = true) :
    Compatible (first :: rest) ↔ (first.family.isOpen = true → ∀ s ∈ rest, ∀ t ∈ rest,
      s.family.isOpen = false → t.family.isOpen = false → s.family = t.family) := by
  constructor
  · intro together _ s hs t ht closed closed'
    have compatible := together s (List.mem_cons_of_mem _ hs) t (List.mem_cons_of_mem _ ht)
    rw [Family.isCompatible_iff, closed, closed'] at compatible
    exact compatible.resolve_right fun h => h.elim (nomatch ·) (nomatch ·)
  · intro alike
    have leads s (hs : s ∈ first :: rest) : first.family.isCompatible s.family = true := by
      rcases List.mem_cons.mp hs with rfl | hs
      · exact Family.isCompatible_self _
      · exact compatible s hs
    intro s hs t ht
    rcases openFirst : first.family.isOpen with _ | _
    · have led := (Family.isCompatible_comm _ _).trans (leads s hs)
      exact Family.isCompatible_trans openFirst led (leads t ht)
    · by_cases either : s.family.isOpen = true ∨ t.family.isOpen = true
      · exact Family.isCompatible_iff.mpr (.inr either)
      · simp only [not_or, Bool.not_eq_true] at either
        -- What is not open is not the first one, so both stand behind it.
        have behind {u : Node} (hu : u ∈ first :: rest) (closed : u.family.isOpen = false) :
            u ∈ rest := by
          refine (List.mem_cons.mp hu).resolve_left fun same => ?_
          rw [same, openFirst] at closed
          cases closed
        have same := alike openFirst s (behind hs either.1) t (behind ht either.2) either.1 either.2
        exact Family.isCompatible_iff.mpr (.inl same)

end Node

namespace Building

variable {id : NodeId} {name : Option String} {h : Header} {own : Shape Node Ref} {p : Progress}
  {nodes : List Node}

/-- A type is refused because not all of the nodes can be its supertypes. -/
def Refuses (id : NodeId) (name : Option String) (h : Header) (own : Shape Node Ref) (p : Progress)
    (nodes : List Node) : Prop :=
  ∃ type family s other,
    compose id name nodes h own p = .error (.incompatibleExtension type family s other)

theorem refuses_cons_iff {first : Node} {rest : List Node} :
    Refuses id name h own p (first :: rest) ↔
      ∃ s ∈ rest, first.family.isCompatible s.family = false := by
  rcases found : rest.find? fun s => !first.family.isCompatible s.family with _ | s
  · have accepted : ¬Refuses id name h own p (first :: rest) := by
      rintro ⟨type, family, s, other, failed⟩
      rw [compose, found] at failed
      cases failed
    refine iff_of_false accepted ?_
    rintro ⟨s, hs, apart⟩
    refine List.find?_eq_none.mp found s hs ?_
    rw [apart, Bool.not_false]
  · have apart := List.find?_some found
    rw [Bool.not_eq_true'] at apart
    refine iff_of_true ?_ ⟨s, List.mem_of_find?_eq_some found, apart⟩
    rw [Refuses, compose, found]
    exact ⟨_, _, _, _, rfl⟩

theorem not_refuses_nil : ¬Refuses id name h own p [] := by
  rintro ⟨type, family, s, other, failed⟩
  cases failed

theorem not_refuses_of_compatible (together : Node.Compatible nodes) : ¬Refuses id name h own p nodes := by
  rcases nodes with _ | ⟨first, rest⟩
  · exact not_refuses_nil
  · rw [refuses_cons_iff]
    rintro ⟨s, hs, apart⟩
    rw [together first List.mem_cons_self s (List.mem_cons_of_mem _ hs)] at apart
    cases apart

theorem refuses_of_closed (closed : ∀ s ∈ nodes, s.family.isOpen = false)
    (apart : ¬Node.Compatible nodes) : Refuses id name h own p nodes := by
  rcases nodes with _ | ⟨first, rest⟩
  · exact absurd (fun _ h => nomatch h) apart
  · rw [refuses_cons_iff]
    by_contra accepted
    have compatible s (hs : s ∈ rest) : first.family.isCompatible s.family = true := by
      by_contra h
      exact accepted ⟨s, hs, (Bool.not_eq_true _).mp h⟩
    refine apart ((Node.compatible_cons_iff compatible).mpr fun openFirst => ?_)
    rw [closed first List.mem_cons_self] at openFirst
    cases openFirst

theorem refuses_perm_iff :
    (∀ nodes', nodes'.Perm nodes →
        (Refuses id name h own p nodes' ↔ Refuses id name h own p nodes)) ↔
      Node.Compatible nodes ∨ ∀ s ∈ nodes, s.family.isOpen = false := by
  constructor
  · intro always
    by_contra neither
    simp only [not_or, not_forall, Bool.not_eq_false] at neither
    obtain ⟨apart, o, ho, isOpen⟩ := neither
    simp only [Node.Compatible, not_forall, Bool.not_eq_true] at apart
    obtain ⟨s, hs, t, ht, apart⟩ := apart
    have inFront {u : Node} (hu : u ∈ nodes) : ∃ others, (u :: others).Perm nodes := by
      obtain ⟨before, after, rfl⟩ := List.append_of_mem hu
      exact ⟨before ++ after, List.perm_middle.symm⟩
    -- With the open one in front all are taken; with one of the two in front they are not.
    obtain ⟨others, perm⟩ := inFront ho
    have taken : ¬Refuses id name h own p (o :: others) := by
      rw [refuses_cons_iff]
      rintro ⟨u, -, apart⟩
      rw [Family.isCompatible_iff.mpr (.inr (.inl isOpen))] at apart
      cases apart
    obtain ⟨others', perm'⟩ := inFront hs
    have refused : Refuses id name h own p (s :: others') := by
      refine refuses_cons_iff.mpr ⟨t, (List.mem_cons.mp (perm'.mem_iff.mpr ht)).resolve_left ?_, apart⟩
      rintro rfl
      rw [Family.isCompatible_self] at apart
      cases apart
    exact taken ((always _ perm).mpr ((always _ perm').mp refused))
  · rintro (together | closed) nodes' perm
    · exact iff_of_false (not_refuses_of_compatible (together.perm perm)) (not_refuses_of_compatible together)
    · by_cases together : Node.Compatible nodes
      · exact iff_of_false (not_refuses_of_compatible (together.perm perm)) (not_refuses_of_compatible together)
      · have apart : ¬Node.Compatible nodes' := fun h => together (h.perm perm.symm)
        refine iff_of_true (refuses_of_closed (fun s hs => ?_) apart) (refuses_of_closed closed together)
        exact closed s (perm.mem_iff.mp hs)

end Building

namespace Library

variable {g : Graph} {l : Library} {n first : Node} {rest : List Node}

/-- Supertypes are compatible with the first one. They are pairwise compatible exactly when the
first is not open, or no two behind it that are not open differ in family. Whether a list of
supertypes is rejected is independent of its order exactly when they are pairwise compatible or none
is open. -/
theorem supertypes_compatible_iff (reached : Reached g l) (gives : l.Gives g n)
    (supertypes : n.supertypes = first :: rest) :
    (∀ s ∈ rest, first.family.isCompatible s.family = true) ∧
      (Node.Compatible n.supertypes ↔ (first.family.isOpen = true → ∀ s ∈ rest, ∀ t ∈ rest,
        s.family.isOpen = false → t.family.isOpen = false → s.family = t.family)) ∧
      ∀ id name h own p nodes,
        (∀ nodes', nodes'.Perm nodes →
            (Building.Refuses id name h own p nodes' ↔ Building.Refuses id name h own p nodes)) ↔
          Node.Compatible nodes ∨ ∀ s ∈ nodes, s.family.isOpen = false := by
  obtain ⟨-, compatible⟩ := (gives.built reached).composed supertypes
  rw [supertypes]
  exact ⟨compatible, Node.compatible_cons_iff compatible, fun _ _ _ _ _ _ => Building.refuses_perm_iff⟩

def extendingAll (name : String) (names : List String) : Declaration :=
  (DeclarationOf.named name).extending (.many (names.map .name))

def anyTextObjectNode : Node :=
  .extend (some 14) (some "T") .any [.ofBase .any, .ofBase .string, .ofBase .object] Header.empty .any

theorem anyTextObject_added : ∃ a,
    initial.addTypes .initial [extendingAll "T" ["any", "string", "object"]] = .ok a ∧
      a.library.type? "T" = some anyTextObjectNode := by
  refine ⟨⟨⟨15, []⟩, ⟨initial.types ++ [("T", anyTextObjectNode)]⟩, [anyTextObjectNode]⟩,
    ?_, rfl⟩
  cbv

theorem supertypes_compatible_iff_of_any : ∃ a,
    initial.addTypes .initial [extendingAll "T" ["any", "string", "object"]] = .ok a ∧
      Reached a.graph a.library ∧ a.library.Gives a.graph anyTextObjectNode ∧
      anyTextObjectNode.supertypes = [.ofBase .any, .ofBase .string, .ofBase .object] ∧
      ¬Node.Compatible anyTextObjectNode.supertypes := by
  obtain ⟨a, added, found⟩ := anyTextObject_added
  have reached := Reached.added .initial added
  have gives : a.library.Gives a.graph anyTextObjectNode := .added found .refl
  refine ⟨a, added, reached, gives, rfl, fun together => ?_⟩
  obtain ⟨-, iff, -⟩ := supertypes_compatible_iff reached gives rfl
  have text : Node.ofBase .string ∈ [Node.ofBase .string, .ofBase .object] := List.mem_cons_self
  have object : Node.ofBase .object ∈ [Node.ofBase .string, .ofBase .object] :=
    List.mem_cons_of_mem _ List.mem_cons_self
  cases iff.mp together rfl _ text _ object rfl rfl

/-- `[any, string, object]` is added, `[string, object, any]` is refused. -/
theorem not_supertypes_compatible : ∃ a,
    initial.addTypes .initial [extendingAll "T" ["any", "string", "object"]] = .ok a ∧
      (∃ n, a.library.type? "T" = some n ∧
        ∃ s ∈ n.supertypes, ∃ t ∈ n.supertypes, s.family.isCompatible t.family = false) ∧
      initial.addTypes .initial [extendingAll "T" ["string", "object", "any"]] =
        .error (.incompatibleExtension "T" .scalar "object" .object) := by
  obtain ⟨a, added, found⟩ := anyTextObject_added
  refine ⟨a, added, ⟨anyTextObjectNode, found, .ofBase .string, ?_, .ofBase .object, ?_, rfl⟩, ?_⟩
  · exact List.mem_cons_of_mem _ List.mem_cons_self
  · exact List.mem_cons_of_mem _ (List.mem_cons_of_mem _ List.mem_cons_self)
  · cbv

end Library

end Schemata

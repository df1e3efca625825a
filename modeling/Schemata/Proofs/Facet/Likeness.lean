import Schemata.Facet.Merge
import Schemata.Proofs.Keyed

/-! Shapes that are alike: the same facets, with related members and related links. A merge of
shapes that are alike gives shapes that are alike, so facets are inherited without a look at the
types that they lead to. -/

namespace Schemata

variable {μ ρ α : Type} {M : μ → μ → Prop} {L : ρ → ρ → Prop}

structure Property.Alike (L : ρ → ρ → Prop) (a b : Property ρ) : Prop where
  type : L a.type b.type
  inherited : a.inherited = b.inherited

def Keyed.Alike (R : α → α → Prop) (a b : Keyed α) : Prop :=
  List.Forall₂ (fun e f => e.1 = f.1 ∧ R e.2 f.2) a b

inductive Shape.Alike (M : μ → μ → Prop) (L : ρ → ρ → Prop) : Shape μ ρ → Shape μ ρ → Prop
  | any : Shape.Alike M L .any .any
  | string (f : StringFacets) : Shape.Alike M L (.string f) (.string f)
  | number (f : NumberFacets) : Shape.Alike M L (.number f) (.number f)
  | boolean : Shape.Alike M L .boolean .boolean
  | nil : Shape.Alike M L .nil .nil
  | date (f : DateFacets) : Shape.Alike M L (.date f) (.date f)
  | array {a b : Option ρ} {unique : Option Bool} {min max : Option Nat} (items : Option.Rel L a b) :
      Shape.Alike M L (.array ⟨a, unique, min, max⟩) (.array ⟨b, unique, min, max⟩)
  | object {a b : Keyed (Property ρ)} {additional : Option Bool}
      {discriminator value : Option String} {min max : Option Nat}
      (properties : Keyed.Alike (Property.Alike L) a b) :
      Shape.Alike M L (.object ⟨a, additional, discriminator, value, min, max⟩)
        (.object ⟨b, additional, discriminator, value, min, max⟩)
  | union {a b : List μ} (members : List.Forall₂ M a b) : Shape.Alike M L (.union a) (.union b)

theorem Shape.Alike.mono {M' : μ → μ → Prop} {L' : ρ → ρ → Prop} {s t : Shape μ ρ}
    (hM : ∀ m m', M m m' → M' m m') (hL : ∀ x x', L x x' → L' x x') (h : Shape.Alike M L s t) :
    Shape.Alike M' L' s t := by
  cases h with
  | any => exact .any
  | string f => exact .string f
  | number f => exact .number f
  | boolean => exact .boolean
  | nil => exact .nil
  | date f => exact .date f
  | array items =>
    cases items with
    | none => exact .array .none
    | some h => exact .array (.some (hL _ _ h))
  | object properties =>
    exact .object (properties.imp fun e f h => ⟨h.1, hL _ _ h.2.type, h.2.inherited⟩)
  | union members => exact .union (members.imp hM)

theorem Shape.Alike.refl (hM : ∀ m, M m m) (hL : ∀ x, L x x) : ∀ s : Shape μ ρ, Shape.Alike M L s s
  | .any => .any
  | .string f => .string f
  | .number f => .number f
  | .boolean => .boolean
  | .nil => .nil
  | .date f => .date f
  | .array ⟨none, _, _, _⟩ => .array .none
  | .array ⟨some _, _, _, _⟩ => .array (.some (hL _))
  | .object _ => .object (List.forall₂_same.mpr fun _ _ => ⟨rfl, hL _, rfl⟩)
  | .union _ => .union (List.forall₂_same.mpr fun _ _ => hM _)

namespace Keyed.Alike

variable {R : α → α → Prop} {a b : Keyed α}

theorem hasKey (h : Keyed.Alike R a b) (key : String) : a.hasKey key = b.hasKey key := by
  induction h with
  | nil => rfl
  | @cons e f _ _ hef _ ih =>
    simp only [Keyed.hasKey, Keyed.get?] at ih ⊢
    rw [← hef.1]
    split
    · rfl
    · exact ih

theorem get? (h : Keyed.Alike R a b) (key : String) :
    Option.Rel R (Keyed.get? a key) (Keyed.get? b key) := Keyed.get?_of_forall₂ h key

theorem insert (h : Keyed.Alike R a b) (key : String) {x y : α} (hxy : R x y) :
    Keyed.Alike R (a.insert key x) (b.insert key y) := by
  induction h with
  | nil => exact .cons ⟨rfl, hxy⟩ .nil
  | @cons e f _ _ hef hrest ih =>
    simp only [Keyed.insert]
    rw [← hef.1]
    split
    · exact .cons ⟨rfl, hxy⟩ hrest
    · exact .cons ⟨rfl, hef.2⟩ ih

theorem ofEntries (h : Keyed.Alike R a b) : Keyed.Alike R (Keyed.ofEntries a) (Keyed.ofEntries b) := by
  suffices key : ∀ s t, Keyed.Alike R s t →
      Keyed.Alike R (a.foldl (fun acc e => Keyed.insert acc e.1 e.2) s)
        (b.foldl (fun acc e => Keyed.insert acc e.1 e.2) t) from key [] [] .nil
  induction h with
  | nil => exact fun s t hst => hst
  | cons hef _ ih =>
    intro s t hst
    refine ih _ _ ?_
    dsimp only
    rw [← hef.1]
    exact hst.insert _ hef.2

theorem entries (mode : MergeMode) {a' b' : Keyed α} (h : Keyed.Alike R a b)
    (h' : Keyed.Alike R a' b') : Keyed.Alike R (Merge.entries mode a a') (Merge.entries mode b b') := by
  unfold Merge.entries
  induction h' generalizing a b with
  | nil => exact h
  | cons hef _ ih =>
    simp only [List.foldl_cons]
    refine ih ?_
    rw [← hef.1, ← h.hasKey]
    split
    · exact h
    · exact h.insert _ hef.2

end Keyed.Alike

theorem Merge.singular_alike {R : α → α → Prop} (mode : MergeMode) {a b a' b' : Option α}
    (h : Option.Rel R a b) (h' : Option.Rel R a' b') :
    Option.Rel R (Merge.singular mode a a') (Merge.singular mode b b') := by
  cases mode <;> cases h <;> cases h' <;> first | exact .none | exact .some ‹_›

theorem Merge.members_alike (mode : MergeMode) {a b a' b' : List μ} (h : List.Forall₂ M a b)
    (h' : List.Forall₂ M a' b') :
    List.Forall₂ M (Merge.members mode a a') (Merge.members mode b b') := by
  cases h' with
  | nil => simpa [Merge.members] using h
  | cons hx hr =>
    cases h with
    | nil => simpa [Merge.members] using List.Forall₂.cons hx hr
    | cons hy hs =>
      simp only [Merge.members, List.isEmpty_cons]
      split
      · contradiction
      · split
        · exact .cons hx hr
        · exact .cons hy hs

theorem Property.Alike.taken (mode : MergeMode) {a b : Property ρ} (h : Property.Alike L a b) :
    Property.Alike L (a.taken mode) (b.taken mode) := by
  unfold Property.taken
  split
  · exact ⟨h.type, rfl⟩
  · exact h

theorem Shape.Alike.merge (mode : MergeMode) {s t s' t' : Shape μ ρ} (h : Shape.Alike M L s t)
    (h' : Shape.Alike M L s' t') : Shape.Alike M L (s.merge mode s') (t.merge mode t') := by
  cases h with
  | array items =>
    cases h' with
    | array items' => exact .array (Merge.singular_alike mode items items')
    | _ => exact .array items
  | object properties =>
    cases h' with
    | object properties' =>
      refine .object (properties.entries mode ?_)
      rw [Keyed.Alike, List.forall₂_map_left_iff, List.forall₂_map_right_iff]
      exact properties'.imp fun e f h => ⟨h.1, h.2.taken mode⟩
    | _ => exact .object properties
  | union members =>
    cases h' with
    | union members' => exact .union (Merge.members_alike mode members members')
    | _ => exact .union members
  | string f => cases h' <;> exact .string _
  | number f => cases h' <;> exact .number _
  | date f => cases h' <;> exact .date _
  | any => cases h' <;> exact .any
  | boolean => cases h' <;> exact .boolean
  | nil => cases h' <;> exact .nil

theorem BaseType.emptyShape_alike (b : BaseType) :
    Shape.Alike M L (b.emptyShape : Shape μ ρ) b.emptyShape := by
  cases b with
  | array => exact .array .none
  | object => exact .object .nil
  | union => exact .union .nil
  | any => exact .any
  | boolean => exact .boolean
  | nil => exact .nil
  | string => exact .string _
  | number | integer => exact .number _
  | _ => exact .date _

end Schemata

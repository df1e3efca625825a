import Schemata.Proofs.Keyed
import Schemata.Proofs.Node.Alternatives

/-! Inherited properties. What holds of base types, headers and shapes and is kept by merging holds
of a type once it holds of its supertypes and own facets; so if everything that a type leads to has
it, so has everything behind its alternatives. -/

namespace Schemata

/-! A merge makes up no entries, links or members. -/

theorem Merge.singular_cases {α : Type} (mode : MergeMode) (target source : Option α) :
    singular mode target source = target ∨ singular mode target source = source := by
  cases mode <;> cases target <;> cases source <;> simp [singular]

theorem Merge.mem_entries {α : Type} {mode : MergeMode} {target source : Keyed α} {e : String × α}
    (h : e ∈ Merge.entries mode target source) : e ∈ target ∨ e ∈ source := by
  induction source generalizing target with
  | nil => exact .inl h
  | cons head rest ih =>
    have step := @ih (if mode == .inherit && Keyed.hasKey target head.1 then target
      else Keyed.insert target head.1 head.2) h
    rcases step with h | h
    · split at h
      · exact .inl h
      · exact (Keyed.mem_insert h).imp id fun same => List.mem_cons.mpr (.inl same)
    · exact .inr (List.mem_cons_of_mem _ h)

theorem Merge.distinct_entries {α : Type} (mode : MergeMode) {target : Keyed α}
    (distinct : target.Distinct) (source : Keyed α) : (entries mode target source).Distinct := by
  induction source generalizing target with
  | nil => exact distinct
  | cons head rest ih =>
    apply @ih (if mode == .inherit && Keyed.hasKey target head.1 then target
      else Keyed.insert target head.1 head.2)
    split
    · exact distinct
    · exact Keyed.distinct_insert distinct

namespace Shape

variable {μ ρ : Type} {mode : MergeMode} {s t : Shape μ ρ}

theorem mem_members_merge {m : μ} (h : m ∈ (t.merge mode s).members) :
    m ∈ t.members ∨ m ∈ s.members := by
  cases t <;> cases s <;> try exact .inl h
  simp only [merge, members, Merge.members] at h ⊢
  split at h
  · exact .inl h
  · split at h
    · exact .inr h
    · exact .inl h

theorem mem_links_merge {x : ρ} (h : x ∈ (t.merge mode s).links) : x ∈ t.links ∨ x ∈ s.links := by
  cases t <;> cases s <;> try exact .inl h
  case array.array f f' =>
    obtain ⟨items, _, _, _⟩ := f
    obtain ⟨items', _, _, _⟩ := f'
    simp only [merge, links, ArrayFacets.merge, Merge.singular] at h ⊢
    rcases items with _ | y <;> rcases items' with _ | y' <;> cases mode <;> simp_all
  case object.object f f' =>
    obtain ⟨e, he, rfl⟩ := List.mem_map.mp h
    rcases Merge.mem_entries he with he | he
    · exact .inl (List.mem_map_of_mem he)
    · obtain ⟨e', he', rfl⟩ := List.mem_map.mp he
      have same : (e'.2.taken mode).type = e'.2.type := by
        unfold Property.taken
        split <;> rfl
      exact .inr (List.mem_map.mpr ⟨e', he', same.symm⟩)

theorem members_emptyShape (b : BaseType) : (b.emptyShape : Shape μ ρ).members = [] := by
  cases b <;> rfl

theorem links_emptyShape (b : BaseType) : (b.emptyShape : Shape μ ρ).links = [] := by
  cases b <;> rfl

def KeysDiffer (s : Shape μ ρ) : Prop := ∀ f, s = .object f → Keyed.Distinct f.properties

theorem keysDiffer_emptyShape (b : BaseType) : (b.emptyShape : Shape μ ρ).KeysDiffer := by
  intro f same
  cases b <;> cases same
  exact List.nodup_nil

theorem KeysDiffer.merge (h : t.KeysDiffer) (mode : MergeMode) (s : Shape μ ρ) :
    (t.merge mode s).KeysDiffer := by
  cases t <;> cases s <;> try exact h
  all_goals rintro _ ⟨⟩
  exact Merge.distinct_entries mode (h _ rfl) _

structure Holds (M : μ → Prop) (L : ρ → Prop) (s : Shape μ ρ) : Prop where
  members : ∀ m ∈ s.members, M m
  links : ∀ x ∈ s.links, L x

variable {M : μ → Prop} {L : ρ → Prop}

theorem holds_emptyShape (b : BaseType) : Holds M L b.emptyShape := by
  refine ⟨fun m hm => ?_, fun x hx => ?_⟩
  · rw [members_emptyShape] at hm
    cases hm
  · rw [links_emptyShape] at hx
    cases hx

theorem Holds.merge (hs : s.Holds M L) (ht : t.Holds M L) (mode : MergeMode) :
    (s.merge mode t).Holds M L where
  members m hm := (mem_members_merge hm).elim (hs.members m) (ht.members m)
  links x hx := (mem_links_merge hx).elim (hs.links x) (ht.links x)

end Shape

theorem Node.keysDiffer_extend (id : Option NodeId) (name : Option String) (base : BaseType)
    (supertypes : List Node) (h : Header) (own : Shape Node Ref) :
    (Node.extend id name base supertypes h own).shape.KeysDiffer := by
  have inherited : (supertypes.foldl (fun s t => s.merge .inherit t.shape)
      (base.emptyShape : Shape Node Ref)).KeysDiffer := by
    apply List.foldlRecOn supertypes _ (Shape.keysDiffer_emptyShape base)
    exact fun s hs t _ => hs.merge .inherit t.shape
  exact inherited.merge .refine own

/-- A property of base types, headers and shapes that merging keeps. -/
structure Heritable (B : BaseType → Prop) (H : Header → Prop) (S : Shape Node Ref → Prop) :
    Prop where
  empty : H .empty
  emptyShape : ∀ b : BaseType, S b.emptyShape
  header : ∀ mode h k, H h → H k → H (h.merge mode k)
  shape : ∀ mode s t, S s → S t → S (s.merge mode t)
  optionalNull : B .nil → ∀ h, H h → H h.optionalNull

structure Node.Has (B : BaseType → Prop) (H : Header → Prop) (S : Shape Node Ref → Prop)
    (n : Node) : Prop where
  base : B n.base
  header : H n.header
  ownHeader : H n.ownHeader
  shape : S n.shape
  ownShape : S n.ownShape

variable {B : BaseType → Prop} {H : Header → Prop} {S : Shape Node Ref → Prop}

theorem Heritable.effective (heritable : Heritable B H S) {base : BaseType} (hb : B base)
    {sources : List Node} (headers : ∀ s ∈ sources, H s.header) (shapes : ∀ s ∈ sources, S s.shape)
    {ownHeader : Header} (hh : H ownHeader) {ownShape : Shape Node Ref} (hs : S ownShape) :
    H (Node.effective base sources ownHeader ownShape).1 ∧
      S (Node.effective base sources ownHeader ownShape).2 := by
  have header : H (sources.foldl (fun h s => h.merge .inherit s.header) Header.empty) := by
    apply List.foldlRecOn sources _ heritable.empty
    intro h hh s hs
    exact heritable.header _ _ _ hh (headers s hs)
  have shape : S (sources.foldl (fun sh s => sh.merge .inherit s.shape) base.emptyShape) := by
    apply List.foldlRecOn sources _ (heritable.emptyShape base)
    intro sh hsh s hs
    exact heritable.shape _ _ _ hsh (shapes s hs)
  have merged := heritable.header .refine _ _ header hh
  refine ⟨?_, heritable.shape .refine _ _ shape hs⟩
  simp only [Node.effective]
  split
  · rename_i nil
    exact heritable.optionalNull (nil ▸ hb) _ merged
  · exact merged

theorem Shape.heritable_holds (M : Node → Prop) (L : Ref → Prop) :
    Heritable (fun _ => True) (fun _ => True) (Shape.Holds M L) where
  empty := trivial
  emptyShape := Shape.holds_emptyShape
  header _ _ _ _ _ := trivial
  shape mode _ _ hs ht := hs.merge ht mode
  optionalNull _ _ _ := trivial

namespace Graph

def Every (g : Graph) (P : Node → Prop) (n : Node) : Prop := ∀ m, g.Reaches n m → P m

variable {g : Graph} {P : Node → Prop} {n m : Node}

theorem Every.self (h : g.Every P n) : P n := h n .refl

theorem Every.step (h : g.Every P n) (step : g.Step n m) : g.Every P m :=
  fun k reaches => h k (.head step reaches)

theorem Every.part (h : g.Every P n) (hm : m ∈ n.parts) : g.Every P m := h.step (.part hm)

theorem Every.link (h : g.Every P n) {x : Ref} (hx : x ∈ n.links) : g.Every P (g.resolve x) :=
  h.step (.link hx)

theorem Every.imp {Q : Node → Prop} (h : g.Every P n) (imp : ∀ m, P m → Q m) : g.Every Q n :=
  fun m reaches => imp m (h m reaches)

theorem every_of_step (self : P n) (next : ∀ m, g.Step n m → g.Every P m) : g.Every P n := by
  intro m reaches
  rcases Relation.ReflTransGen.cases_head reaches with rfl | ⟨k, step, reaches⟩
  · exact self
  · exact next k step m reaches

theorem every_of_loop (self : P n) (next : ∀ m, g.Step n m → m = n ∨ g.Every P m) : g.Every P n := by
  intro m reaches
  have closed : m = n ∨ g.Every P m := by
    induction reaches with
    | refl => exact .inl rfl
    | tail _ step ih =>
      rcases ih with rfl | every
      · exact next _ step
      · exact .inr (every.step step)
  rcases closed with rfl | every
  · exact self
  · exact every.self

theorem every_ofBase {b : BaseType} (self : P (.ofBase b)) : g.Every P (.ofBase b) := by
  apply every_of_step self
  rintro m (⟨hm⟩ | ⟨hx⟩)
  · simp only [Node.parts, Node.ofBase, Shape.members_emptyShape, List.append_nil] at hm
    cases hm
  · simp only [Node.links, Node.ofBase, Shape.links_emptyShape, List.append_nil] at hx
    cases hx

def LeadsTo (g : Graph) (P : Node → Prop) : Shape Node Ref → Prop :=
  Shape.Holds (g.Every P) fun x => g.Every P (g.resolve x)

theorem Every.shape (h : g.Every P n) : g.LeadsTo P n.shape where
  members _ hm := h.part (List.mem_append_left _ (List.mem_append_right _ hm))
  links _ hx := h.link (List.mem_append_left _ hx)

theorem Every.ownShape (h : g.Every P n) : g.LeadsTo P n.ownShape where
  members _ hm := h.part (List.mem_append_right _ hm)
  links _ hx := h.link (List.mem_append_right _ hx)

theorem every_specialize (heritable : Heritable B H S) (h : g.Every (Node.Has B H S) n)
    {combination : List Node} (alternatives : ∀ a ∈ combination, g.Every (Node.Has B H S) a)
    (derived : n.specialize combination = some m) : g.Every (Node.Has B H S) m := by
  -- The shapes of what is derived lead nowhere but where those of its sources lead.
  have leading : Heritable B H fun s => S s ∧ g.LeadsTo (Node.Has B H S) s :=
    { heritable with
      emptyShape := fun b => ⟨heritable.emptyShape b, Shape.holds_emptyShape b⟩
      shape := fun mode s t hs ht => ⟨heritable.shape mode s t hs.1 ht.1, Shape.Holds.merge hs.2 ht.2 mode⟩ }
  obtain ⟨first, rest, rfl, -, rfl⟩ := Node.specialize_eq_some_iff.mp derived
  have base : B first.base := (alternatives first List.mem_cons_self).self.base
  have effective := leading.effective base (fun a ha => (alternatives a ha).self.header)
    (fun a ha => ⟨(alternatives a ha).self.shape, (alternatives a ha).shape⟩)
    h.self.ownHeader ⟨h.self.ownShape, h.ownShape⟩
  apply every_of_step
  · exact ⟨base, effective.1, h.self.ownHeader, effective.2.1, h.self.ownShape⟩
  · intro k step
    cases step with
    | part hk =>
      rcases List.mem_append.mp hk with hk | hk
      · exact effective.2.2.members k hk
      · exact h.ownShape.members k hk
    | link hx =>
      rcases List.mem_append.mp hx with hx | hx
      · exact effective.2.2.links _ hx
      · exact h.ownShape.links _ hx

theorem every_alternative (heritable : Heritable B H S) : ∀ {n : Node},
    g.Every (Node.Has B H S) n → ∀ a ∈ n.alternatives, g.Every (Node.Has B H S) a := by
  intro n
  induction n using Node.wellFounded_parts.induction with
  | _ n ih =>
    intro h a ha
    have each {k : Node} (hk : k ∈ n.parts) := ih k hk (h.part hk)
    rcases found : n.alternatives? with _ | list
    · rw [Node.alternatives_of_none found] at ha
      obtain rfl := List.mem_singleton.mp ha
      exact h
    · rw [Node.alternatives_of_some found] at ha
      rcases Node.alternatives?_cases found ha with ⟨k, hk, ha⟩ | ⟨-, combination, chosen, derived⟩
      · exact each (List.mem_append_right _ hk) a ha
      · refine every_specialize heritable h (fun b hb => ?_) derived
        obtain ⟨s, hs, hb⟩ := chosen b hb
        exact each (List.mem_append_left _ (List.mem_append_left _ hs)) b hb

end Graph

end Schemata

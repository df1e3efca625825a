import Mathlib
import Schemata.Proofs.Library.Obtained
import Schemata.Proofs.Node.Declared
import Schemata.Proofs.Node.Leading
import Schemata.Proofs.Node.Leaves

/-! `cartesianProduct` as an enumeration of positions in lexicographic order, and the alternatives
of a type with several supertypes as specializations of its compatible combinations. -/

namespace Schemata

section Choices

variable {α β : Type} {lists : List (List α)} {rows : List (List Nat)} {ps : List Nat}
  {xs ys : List α} {combinations combinations' : List (List α)}

/-- The product as an accumulating loop over the lists. -/
def cartesianProductLoop (lists : List (List α)) : List (List α) :=
  lists.foldl (fun grown list => grown.flatMap fun chosen => list.map fun x => chosen ++ [x]) [[]]

theorem foldl_grow (lists : List (List α)) (start : List (List α)) :
    lists.foldl (fun grown list => grown.flatMap fun chosen => list.map fun x => chosen ++ [x]) start =
      start.flatMap fun chosen => (cartesianProduct lists).map (chosen ++ ·) := by
  induction lists generalizing start with
  | nil =>
    rw [List.foldl_nil, cartesianProduct]
    simp only [List.map_cons, List.map_nil, List.append_nil, List.flatMap_singleton']
  | cons list rest ih =>
    rw [List.foldl_cons, ih, List.flatMap_assoc]
    refine List.flatMap_congr fun chosen _ => ?_
    rw [cartesianProduct, List.flatMap_map, List.map_flatMap]
    refine List.flatMap_congr fun x _ => ?_
    rw [List.map_map]
    refine List.map_congr_left fun tail _ => ?_
    rw [Function.comp_apply, List.append_assoc, List.singleton_append]

theorem cartesianProductLoop_eq (lists : List (List α)) :
    cartesianProductLoop lists = cartesianProduct lists := by
  rw [cartesianProductLoop, foldl_grow, List.flatMap_singleton]
  exact List.map_id _

/-- Positions, one in each list, and the elements there. -/
inductive Picks : List (List α) → List Nat → List α → Prop
  | nil : Picks [] [] []
  | cons {list : List α} {lists : List (List α)} {p : Nat} {ps : List Nat} {x : α} {xs : List α}
      (found : list[p]? = some x) (rest : Picks lists ps xs) :
      Picks (list :: lists) (p :: ps) (x :: xs)

/-- The combinations at all tuples of positions, each once, in lexicographic order. -/
def Enumerates (lists combinations : List (List α)) : Prop :=
  ∃ rows : List (List Nat), rows.Pairwise (List.Lex (· < ·)) ∧
    (∀ ps, ps ∈ rows ↔ List.Forall₂ (fun p list => p < list.length) ps lists) ∧
    List.Forall₂ (Picks lists) rows combinations

theorem Picks.unique (h : Picks lists ps xs) (h' : Picks lists ps ys) : xs = ys := by
  induction h generalizing ys with
  | nil =>
    cases h'
    rfl
  | cons found _ ih =>
    cases h' with
    | cons found' rest' => rw [Option.some.inj (found.symm.trans found'), ih rest']

theorem Enumerates.unique (h : Enumerates lists combinations) (h' : Enumerates lists combinations') :
    combinations = combinations' := by
  obtain ⟨rows, sorted, all, picks⟩ := h
  obtain ⟨rows', sorted', all', picks'⟩ := h'
  have asymm {p q : List Nat} (lt : List.Lex (· < ·) p q) : ¬List.Lex (· < ·) q p :=
    List.lex_asymm Nat.lt_asymm lt
  have nodup {rows : List (List Nat)} (sorted : rows.Pairwise (List.Lex (· < ·))) : rows.Nodup :=
    sorted.imp fun {p q} lt => by
      rintro rfl
      exact asymm lt lt
  have perm : rows.Perm rows' :=
    (List.perm_ext_iff_of_nodup (nodup sorted) (nodup sorted')).mpr fun ps => (all ps).trans (all' ps).symm
  obtain rfl : rows = rows' :=
    perm.eq_of_pairwise (fun p q _ _ lt lt' => absurd lt' (asymm lt)) sorted sorted'
  have same := forall₂_meet picks picks' fun _ _ xs ys h h' => Picks.unique h h'
  rwa [List.forall₂_eq_eq_eq] at same

theorem forall₂_range (list : List α) :
    List.Forall₂ (fun p x => list[p]? = some x) (List.range list.length) list := by
  refine List.forall₂_iff_get.mpr ⟨List.length_range, fun p h h' => ?_⟩
  rw [List.get_eq_getElem, List.get_eq_getElem, List.getElem_range]
  exact List.getElem?_eq_getElem h'

theorem enumerates_cartesianProduct (lists : List (List α)) :
    Enumerates lists (cartesianProduct lists) := by
  -- Behind each position in the first list all rows of the rest follow, in their order.
  induction lists with
  | nil =>
    refine ⟨[[]], List.pairwise_singleton _ _, fun ps => ?_, .cons .nil .nil⟩
    rw [List.mem_singleton, List.forall₂_nil_right_iff]
  | cons list rest ih =>
    obtain ⟨rows, sorted, all, picks⟩ := ih
    refine ⟨(List.range list.length).flatMap fun p => rows.map (p :: ·), ?_, fun ps => ?_, ?_⟩
    · refine List.pairwise_flatMap.mpr ⟨fun p _ => ?_, List.pairwise_lt_range.imp fun {p q} lt => ?_⟩
      · exact List.pairwise_map.mpr (sorted.imp .cons)
      · intro ps hp qs hq
        obtain ⟨_, -, rfl⟩ := List.mem_map.mp hp
        obtain ⟨_, -, rfl⟩ := List.mem_map.mp hq
        exact .rel lt
    · simp only [List.mem_flatMap, List.mem_range, List.mem_map]
      constructor
      · rintro ⟨p, inside, tail, mem, rfl⟩
        exact .cons inside ((all tail).mp mem)
      · intro h
        cases h with
        | cons inside tail => exact ⟨_, inside, _, (all _).mpr tail, rfl⟩
    · refine List.rel_flatMap (forall₂_range list) fun p x found => ?_
      refine List.forall₂_map_left_iff.mpr (List.forall₂_map_right_iff.mpr ?_)
      exact picks.imp fun _ _ rest => .cons found rest

theorem enumerates_iff : Enumerates lists combinations ↔ combinations = cartesianProduct lists :=
  ⟨fun h => h.unique (enumerates_cartesianProduct lists), fun h => h ▸ enumerates_cartesianProduct lists⟩

theorem length_cartesianProduct_eq_prod (lists : List (List α)) :
    (cartesianProduct lists).length = (lists.map List.length).prod := by
  rw [length_cartesianProduct, List.prod_eq_foldr, List.foldr_map]

theorem cartesianProduct_eq_nil_iff : cartesianProduct lists = [] ↔ [] ∈ lists := by
  rw [← List.length_eq_zero_iff, length_cartesianProduct_eq_prod, List.prod_eq_zero_iff, List.mem_map]
  simp only [List.length_eq_zero_iff, exists_eq_right]

theorem forall₂_filterMap {f : α → Option β} {p : α → Bool} (list : List α)
    (tested : ∀ x ∈ list, (f x).isSome = p x) :
    List.Forall₂ (fun x y => f x = some y) (list.filter p) (list.filterMap f) := by
  induction list with
  | nil => exact .nil
  | cons x rest ih =>
    have ih := ih fun y hy => tested y (List.mem_cons_of_mem _ hy)
    have first := tested x List.mem_cons_self
    rcases found : f x with _ | y <;> rw [found] at first
    · rwa [List.filter_cons_of_neg (by rw [← first]; exact Bool.false_ne_true), List.filterMap_cons_none found]
    · rw [List.filter_cons_of_pos first.symm, List.filterMap_cons_some found]
      exact .cons found ih

end Choices

namespace Node

variable {n : Node} {list : List Node}

def leads : List Node → Bool
  | [] => false
  | first :: others => others.all fun other => first.family.isCompatible other.family

theorem isSome_specialize (n : Node) (combination : List Node) :
    (n.specialize combination).isSome = leads combination := by
  rcases combination with _ | ⟨first, others⟩
  · rfl
  · rw [Bool.eq_iff_iff, Option.isSome_iff_exists, exists_specialize_iff]
    exact List.all_eq_true.symm

theorem alternatives_of_combinations (memberless : n.ownShape.members = [])
    (several : ∃ s ∈ n.supertypes, s.alternatives ≠ [s]) :
    List.Forall₂ (fun combination m => n.specialize combination = some m)
      ((cartesianProduct (n.supertypes.map alternatives)).filter leads) n.alternatives := by
  obtain ⟨s, hs, several⟩ := several
  have other : ¬∀ s ∈ n.supertypes, s.alternatives? = none := fun alone =>
    several (alternatives_of_none (alone s hs))
  rw [alternatives_of_some (alternatives?_of_several memberless other)]
  exact forall₂_filterMap _ fun combination _ => isSome_specialize n combination

theorem alternatives_of_alone (memberless : n.ownShape.members = [])
    (alone : ∀ s ∈ n.supertypes, s.alternatives = [s]) :
    n.alternatives = [n] ∧ cartesianProduct (n.supertypes.map alternatives) = [n.supertypes] := by
  have none : ∀ s ∈ n.supertypes, s.alternatives? = none := fun s hs =>
    alternatives?_eq_none_iff.mpr (alone s hs)
  refine ⟨alternatives_of_none (alternatives?_of_alone memberless none), ?_⟩
  rw [List.map_congr_left alone, cartesianProduct_map_singleton]

theorem HoldsBuilt.built_or_derived (h : n.HoldsBuilt) (found : n.alternatives? = some list) :
    ∀ a ∈ list, a.Built ∨ a.supertypes = [] := by
  refine alternative_induction (fun k built => .inl built) (fun _ _ derived => ?_) h found
  obtain ⟨_, _, -, -, rfl⟩ := specialize_eq_some_iff.mp derived
  exact .inr rfl

end Node

namespace Library

variable {row : List (MergeMode × Node)} {n first : Node} {rest : List Node}

theorem Obtained.composed (h : Obtained row n) (supertypes : n.supertypes = first :: rest) :
    n.base = first.base ∧ (∀ s ∈ rest, first.family.isCompatible s.family = true) ∧
      (row = [] → n = .extend n.id n.name first.base (first :: rest) n.ownHeader n.ownShape) := by
  have ofBuilt {row : List (MergeMode × Node)} {n : Node} (built : n.Built)
      (supertypes : n.supertypes = first :: rest) :
      n.base = first.base ∧ (∀ s ∈ rest, first.family.isCompatible s.family = true) ∧
        (row = [] → n = .extend n.id n.name first.base (first :: rest) n.ownHeader n.ownShape) := by
    obtain ⟨composed, compatible⟩ := built.composed supertypes
    exact ⟨built.base_eq supertypes, compatible, fun _ => composed⟩
  -- A merge leaves base type and supertypes; a derived alternative has no supertypes at all.
  induction h with
  | given reached gives => exact ofBuilt (gives.built reached) supertypes
  | step h reached step =>
    exact ofBuilt ((h.holdsBuilt _ reached.allBuilt.bindings).built_of_step step) supertypes
  | alternative h found mem =>
    rcases h.holdsBuilt.built_or_derived found _ mem with built | derived
    · exact ofBuilt built supertypes
    · rw [derived] at supertypes
      cases supertypes
  | merged _ _ mode target _ =>
    obtain ⟨base, compatible, -⟩ := target supertypes
    exact ⟨base, compatible, nofun⟩
  | numbered _ id ih =>
    obtain ⟨base, compatible, composed⟩ := ih supertypes
    exact ⟨base, compatible, fun fresh => congrArg (fun m => { m with id := some id }) (composed fresh)⟩

/-- Supertypes are compatible, and specializing to them keeps the base; without merges it gives the
node itself, less its supertypes. -/
theorem Obtained.specialize_supertypes (h : Obtained row n) (some : n.supertypes ≠ []) :
    ∃ m, n.specialize n.supertypes = .some m ∧ m.base = n.base ∧
      (row = [] → m = { n with id := none, supertypes := [] }) := by
  obtain ⟨first, rest, supertypes⟩ := List.exists_cons_of_ne_nil some
  obtain ⟨base, compatible, composed⟩ := h.composed supertypes
  obtain ⟨m, derived⟩ := (Node.exists_specialize_iff (n := n)).mpr compatible
  refine ⟨m, supertypes ▸ derived, ?_, fun fresh => ?_⟩ <;>
    obtain ⟨_, _, ⟨⟩, -, rfl⟩ := Node.specialize_eq_some_iff.mp derived
  · exact base.symm
  · exact (congrArg (fun m => { m with id := none, supertypes := [] }) (composed fresh)).symm

/-- `cartesianProduct` enumerates the choices by position in lexicographic order, so its length is
the product of the lengths. A type with own union members has their alternatives. Any other type, if
a supertype has other alternatives than itself, has exactly the specializations of the combinations
whose first element is compatible with all others, in order; if none has, the only combination is
that of the supertypes, and the type itself stands for its specialization. -/
theorem alternatives_by_combination :
    (∀ {α : Type}, cartesianProduct ([] : List (List α)) = [[]] ∧ ∀ lists : List (List α),
      cartesianProduct lists = cartesianProductLoop lists ∧
      (∀ combinations, Enumerates lists combinations ↔ combinations = cartesianProduct lists) ∧
      (cartesianProduct lists).length = (lists.map List.length).prod ∧
      (cartesianProduct lists = [] ↔ [] ∈ lists)) ∧
    ∀ n : Node,
      (∀ members, members ≠ [] → n.ownShape = .union members →
        n.alternatives = members.flatMap Node.alternatives) ∧
      (n.ownShape.members = [] →
        ((∃ s ∈ n.supertypes, s.alternatives ≠ [s]) →
          List.Forall₂ (fun combination m => n.specialize combination = some m)
            ((cartesianProduct (n.supertypes.map Node.alternatives)).filter Node.leads) n.alternatives) ∧
        ((∀ s ∈ n.supertypes, s.alternatives = [s]) →
          n.alternatives = [n] ∧
            cartesianProduct (n.supertypes.map Node.alternatives) = [n.supertypes] ∧
            ∀ row, Obtained row n → n.supertypes ≠ [] →
              ∃ m, n.specialize n.supertypes = some m ∧ m.base = n.base ∧
                (row = [] → m = { n with id := none, supertypes := [] }))) := by
  refine ⟨⟨rfl, fun lists => ?_⟩, fun n => ⟨fun _ nonempty own => ?_, fun memberless => ?_⟩⟩
  · exact ⟨(cartesianProductLoop_eq lists).symm, fun _ => enumerates_iff,
      length_cartesianProduct_eq_prod lists, cartesianProduct_eq_nil_iff⟩
  · exact Node.alternatives_of_members own nonempty
  · refine ⟨Node.alternatives_of_combinations memberless, fun alone => ?_⟩
    obtain ⟨itself, one⟩ := Node.alternatives_of_alone memberless alone
    exact ⟨itself, one, fun _ obtained some => obtained.specialize_supertypes some⟩

def twoUnions : List Declaration :=
  [{ DeclarationOf.named "U" with anyOf := some [.name "integer", .name "string"] },
    { DeclarationOf.named "V" with anyOf := some [.name "boolean", .name "object"] },
    (DeclarationOf.named "T").extending (.many [.name "U", .name "V"]),
    (DeclarationOf.named "W").extending (.many [.name "object", .name "any"])]

def countOrTextNode : Node :=
  .extend (some 14) (some "U") .union [.ofBase .union] Header.empty
    (.union [.ofBase .integer, .ofBase .string])

def truthOrObjectNode : Node :=
  .extend (some 15) (some "V") .union [.ofBase .union] Header.empty
    (.union [.ofBase .boolean, .ofBase .object])

def bothUnionsNode : Node :=
  .extend (some 16) (some "T") .union [countOrTextNode, truthOrObjectNode] Header.empty
    BaseType.integer.emptyShape

def objectAndAnyNode (id : NodeId) (name : String) (ownShape : Shape Node Ref) : Node :=
  .extend (some id) (some name) .object [.ofBase .object, .ofBase .any] Header.empty ownShape

theorem twoUnions_added : ∃ a, initial.addTypes .initial twoUnions = .ok a ∧
    a.library.type? "U" = some countOrTextNode ∧ a.library.type? "T" = some bothUnionsNode ∧
    a.library.type? "W" = some (objectAndAnyNode 17 "W" BaseType.object.emptyShape) := by
  refine ⟨⟨⟨18, []⟩, ⟨initial.types ++
    [("U", countOrTextNode), ("V", truthOrObjectNode), ("T", bothUnionsNode),
      ("W", objectAndAnyNode 17 "W" BaseType.object.emptyShape)]⟩,
    [countOrTextNode, truthOrObjectNode, bothUnionsNode,
      objectAndAnyNode 17 "W" BaseType.object.emptyShape]⟩, ?_, rfl, rfl, rfl⟩
  cbv

theorem alternatives_by_combination_of_two : ∃ a, initial.addTypes .initial twoUnions = .ok a ∧
    ∃ u t w, a.library.type? "U" = some u ∧ a.library.type? "T" = some t ∧ a.library.type? "W" = some w ∧
      u.alternatives = [.ofBase .integer, .ofBase .string] ∧
      t.ownShape.members = [] ∧ (∃ s ∈ t.supertypes, s.alternatives ≠ [s]) ∧
      (cartesianProduct (t.supertypes.map Node.alternatives)).length = 4 ∧
      List.Forall₂ (fun combination m => t.specialize combination = some m)
        [[.ofBase .integer, .ofBase .boolean], [.ofBase .string, .ofBase .boolean]] t.alternatives ∧
      w.supertypes = [.ofBase .object, .ofBase .any] ∧ w.alternatives = [w] ∧ Obtained [] w ∧
      w.specialize w.supertypes = some { w with id := none, supertypes := [] } := by
  obtain ⟨a, added, foundU, foundT, foundW⟩ := twoUnions_added
  have several : ∃ s ∈ bothUnionsNode.supertypes, s.alternatives ≠ [s] := by
    refine ⟨countOrTextNode, List.mem_cons_self, fun alone => ?_⟩
    cases congrArg List.length alone
  have obtained : Obtained [] (objectAndAnyNode 17 "W" BaseType.object.emptyShape) :=
    .given (.added .initial added) (.added foundW .refl)
  obtain ⟨product, every⟩ := alternatives_by_combination
  obtain ⟨-, -, count, -⟩ := product.2 (bothUnionsNode.supertypes.map Node.alternatives)
  obtain ⟨ofMembers, -⟩ := every countOrTextNode
  obtain ⟨-, ofBoth⟩ := every bothUnionsNode
  obtain ⟨-, ofNone⟩ := every (objectAndAnyNode 17 "W" BaseType.object.emptyShape)
  have alone : ∀ s ∈ [Node.ofBase .object, Node.ofBase .any], s.alternatives = [s] := by
    rintro s (_ | ⟨_, _ | ⟨_, ⟨⟩⟩⟩) <;> rfl
  obtain ⟨itself, -, derives⟩ := (ofNone rfl).2 alone
  obtain ⟨m, derived, -, same⟩ := derives [] obtained (List.cons_ne_nil _ _)
  refine ⟨a, added, _, _, _, foundU, foundT, foundW, ?_, rfl, several, count, (ofBoth rfl).1 several, rfl,
    itself, obtained, ?_⟩
  · exact ofMembers [.ofBase .integer, .ofBase .string] (List.cons_ne_nil _ _) rfl
  · rw [derived, same rfl]

def objectAndAny : List Declaration :=
  [(DeclarationOf.named "T").extending (.many [.name "object", .name "any"]),
    { (DeclarationOf.named "V").extending (.many [.name "object", .name "any"]) with
      anyOf := some [.name "string"] }]

/-- A type of which no supertype is a union, and one with a member of its own, are not specialized.
-/
theorem not_alternatives_by_combination : ∃ a, initial.addTypes .initial objectAndAny = .ok a ∧
    (∃ t, a.library.type? "T" = some t ∧ t.supertypes = [.ofBase .object, .ofBase .any] ∧
      t.alternatives = [t] ∧
      t.alternatives ≠ (cartesianProduct (t.supertypes.map Node.alternatives)).filterMap t.specialize) ∧
    ∃ v, a.library.type? "V" = some v ∧ v.supertypes = [.ofBase .object, .ofBase .any] ∧
      v.alternatives = [.ofBase .string] ∧
      v.alternatives ≠ (cartesianProduct (v.supertypes.map Node.alternatives)).filterMap v.specialize := by
  let t := objectAndAnyNode 14 "T" BaseType.object.emptyShape
  let v := objectAndAnyNode 15 "V" (.union [.ofBase .string])
  refine ⟨⟨⟨16, []⟩, ⟨initial.types ++ [("T", t), ("V", v)]⟩, [t, v]⟩, by cbv,
    ⟨t, rfl, rfl, rfl, fun same => ?_⟩, v, rfl, rfl, rfl, fun same => ?_⟩
  · cases congrArg (List.map fun m => m.supertypes.length) same
  · cases congrArg (List.map Node.base) same

end Library

end Schemata

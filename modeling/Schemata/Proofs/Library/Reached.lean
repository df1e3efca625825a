import Schemata.Proofs.Library.Addition
import Schemata.Proofs.Node.Depth
import Schemata.Proofs.Resolution.Twins

/-! Reachable libraries. Every type is similar to itself, so it leads to no unbound forward
reference, and two additions of the same declarations give similar types, whatever their order. -/

namespace Schemata

namespace Library

/-- The libraries reachable by `addTypes`, `createType` and `getOrCreate`, with the table of all
nodes made so far. -/
inductive Reached : Graph → Library → Prop
  | initial : Reached .initial .initial
  | fresh {g : Graph} {l : Library} (h : Reached g l) : Reached g .initial
  | added {g : Graph} {l : Library} {ds : List Declaration} {a : Addition} (h : Reached g l)
      (add : l.addTypes g ds = .ok a) : Reached a.graph a.library
  | other {g : Graph} {l l' : Library} {ds : List Declaration} {a : Addition} (h : Reached g l)
      (h' : Reached g l') (add : l.addTypes g ds = .ok a) : Reached a.graph l'
  | made {g : Graph} {l : Library} {next : NodeId} (h : Reached g l) (le : g.next ≤ next) :
      Reached { g with next := next } l

/-- A library of whole types, over a table in which only given numbers are bound. -/
structure Closed (g : Graph) (l : Library) : Prop where
  numbered : g.Numbered
  similar : ∀ name n, l.type? name = some n → g.Similar g n n

variable {g : Graph} {l : Library} {ds ds' : List Declaration} {a a' : Addition}

theorem binds_of_pointsTo {r : TypeRef} {x : Ref} (h : r.PointsTo a.known x) :
    a.graph.Binds x ∧ r.Denotes a.known (a.graph.resolve x) := by
  cases h with
  | node h => exact ⟨.node _, h⟩
  | forward h =>
    obtain ⟨n, found, bound⟩ := h
    rw [Graph.resolve_forward _ bound]
    exact ⟨.forward bound, .name found⟩

theorem binds_of_mem {refs : List TypeRef} {xs : List Ref}
    (h : List.Forall₂ (TypeRef.PointsTo a.known) refs xs) : ∀ x ∈ xs, a.graph.Binds x := by
  intro x hx
  obtain ⟨r, -, h⟩ := exists_of_forall₂_of_mem h.flip hx
  exact (binds_of_pointsTo h).1

theorem Grown.agree (closed : Closed g l) (perm : ds.Perm ds') (h : Grown l g ds a)
    (h' : Grown l g ds' a') : Twins.Agree (Graph.Similar g g) a.known a'.known
      (Graph.Link a.graph a'.graph (Twins (Graph.Similar g g) a.known a'.known)) where
  old n n' similar := similar.alike.mono (fun _ _ => .old) fun _ _ link =>
    link.mono (fun _ _ => .old) h.within h'.within
  names name n n' found found' := by
    have found : a.library.type? name = some n := found
    have found' : a'.library.type? name = some n' := found'
    by_cases new : name ∈ ds.map DeclarationOf.key
    · obtain ⟨d, hd, rfl⟩ := List.mem_map.mp new
      obtain ⟨id, m, hm, describes⟩ := h.added d hd
      obtain ⟨id', m', hm', describes'⟩ := h'.added d (perm.mem_iff.mp hd)
      obtain rfl := Option.some.inj (found.symm.trans hm)
      obtain rfl := Option.some.inj (found'.symm.trans hm')
      exact .inr ⟨d, id, id', describes, describes'⟩
    · have new' : name ∉ ds'.map DeclarationOf.key := fun mem =>
        new ((perm.map DeclarationOf.key).mem_iff.mpr mem)
      rw [h.old name new] at found
      rw [h'.old name new'] at found'
      obtain rfl := Option.some.inj (found.symm.trans found')
      exact .inl (closed.similar name n found)
  links r x x' points points' := by
    obtain ⟨bound, denotes⟩ := binds_of_pointsTo points
    obtain ⟨bound', denotes'⟩ := binds_of_pointsTo points'
    exact ⟨bound, bound', .denoted denotes denotes'⟩
  several refs xs xs' id id' each each' := by
    refine ⟨.anyOf (binds_of_mem each), .anyOf (binds_of_mem each'), ?_⟩
    rw [Graph.resolve_anyOf, Graph.resolve_anyOf]
    refine .anyOf ?_
    rw [List.forall₂_map_left_iff, List.forall₂_map_right_iff]
    refine forall₂_meet each each' fun r _ x x' points points' => ?_
    exact .denoted (binds_of_pointsTo points).2 (binds_of_pointsTo points').2

theorem Grown.similar (closed : Closed g l) (perm : ds.Perm ds') (h : Grown l g ds a)
    (h' : Grown l g ds' a') {name : String} {n n' : Node} (found : a.library.type? name = some n)
    (found' : a'.library.type? name = some n') : a.graph.Similar a'.graph n n' := by
  -- Twins stay twins from node to node, which is the relation that similarity asks for.
  have denoted : Twins (Graph.Similar g g) a.known a'.known n n' :=
    .denoted (r := .name name) (.name found) (.name found')
  exact ⟨_, denoted, fun m m' h₂ => (h₂.same (Grown.agree closed perm h h')).alike⟩

theorem Closed.added (closed : Closed g l) (add : l.addTypes g ds = .ok a) :
    Closed a.graph a.library := by
  have grown := Grown.of_addTypes closed.numbered add
  exact ⟨grown.numbered, fun name n found => grown.similar closed (.refl ds) grown found found⟩

theorem initial_types (name : String) (n : Node) (h : initial.type? name = some n) :
    ∃ b, n = Node.ofBase b := by
  obtain ⟨b, -, same⟩ := List.mem_map.mp (Keyed.mem_of_get? h)
  exact ⟨b, (Prod.mk.inj same).2.symm⟩

/-- Every library that a program can have is closed. -/
theorem Reached.closed (h : Reached g l) : Closed g l := by
  have initial {g : Graph} (numbered : g.Numbered) : Closed g .initial := by
    refine ⟨numbered, fun name n found => ?_⟩
    obtain ⟨b, rfl⟩ := initial_types name n found
    exact Graph.similar_ofBase b
  induction h with
  | initial => exact initial fun _ h => nomatch h
  | fresh _ ih => exact initial ih.numbered
  | added _ add ih => exact ih.added add
  | other _ _ add ih ih' =>
    have grown := Grown.of_addTypes ih.numbered add
    exact ⟨grown.numbered, fun name n found => (ih'.similar name n found).mono grown.within grown.within⟩
  | @made g l next _ le ih =>
    have within : g.Within { g with next := next } := fun _ _ h => h
    exact ⟨fun e he => Nat.lt_of_lt_of_le (ih.numbered e he) le, fun name n found =>
      (ih.similar name n found).mono within within⟩

theorem Grown.contains_of_mentions (h : Grown l g ds a) {d : Declaration} (hd : d ∈ ds)
    {grip : Grip} {name : String} (mention : d.Mentions grip name) :
    a.library.contains name = true := by
  obtain ⟨id, n, -, describes⟩ := h.added d hd
  have found : ∃ m, a.library.type? name = some m := by
    cases grip with
    | firm => exact describes.answers mention
    | loose =>
      obtain found | ⟨id, m, found, -⟩ := describes.answers mention
      · exact found
      · exact ⟨m, found⟩
  exact Option.isSome_iff_exists.mpr found

/-- Once every name of a batch is looked up, binding the forward references succeeds, and so does
`addTypes`. Every name mentioned by a declaration is then in the library, its node is what the
declaration describes, and no type of the library leads to an unbound forward reference. A rank
falls along supertypes and members, and bounds the nesting of `alternatives?`, `family` and
`representedBase`. -/
theorem addTypes_resolved (reached : Reached g l) (ds : List Declaration) :
    (∀ batch added progress, l.batch? g.next [] ds = .ok batch →
      (Batch.lookUpEach (Batch.scope l.types batch) (Keyed.keys batch)).run
        ⟨g.next + batch.length, [], []⟩ = .ok (added, progress) →
      (∃ bindings, Batch.bindEach progress.built progress.forwards = .ok bindings) ∧
        ∃ a, l.addTypes g ds = .ok a ∧ a.added = added) ∧
    ∀ a, l.addTypes g ds = .ok a →
      (∀ d ∈ ds, ∀ grip name, d.Mentions grip name → a.library.contains name = true) ∧
      (∀ d ∈ ds, ∃ id n, a.library.type? d.key = some n ∧ d.Describes a.known id n) ∧
      (∀ name n, a.library.type? name = some n → ∀ m, a.graph.Reaches n m → ∀ x ∈ m.links,
        a.graph.Binds x) ∧
      (WellFounded fun x y : Ref => a.graph.resolve x ∈ (a.graph.resolve y).parts) ∧
      ∃ rank : Ref → Nat, (∀ x y, a.graph.resolve x ∈ (a.graph.resolve y).parts → rank x < rank y) ∧
        ∀ x depth, rank x < depth → let n := a.graph.resolve x
          n.alternativesWithin? depth = some n.alternatives? ∧
            n.familyWithin? depth = some n.family ∧
            n.representedBaseWithin? depth = some n.representedBase := by
  have closed := reached.closed
  constructor
  · intro batch added progress taken run
    obtain ⟨rfl, takes⟩ := batch?_eq_ok.mp taken
    rw [Batch.keys_numbered, Batch.length_numbered] at run
    obtain ⟨bindings, binds⟩ := exists_bindings run
    exact ⟨⟨bindings, binds⟩, _, addTypes_eq_ok.mpr ⟨takes, _, _, _, run, binds, rfl⟩, rfl⟩
  · intro a add
    have grown := Grown.of_addTypes closed.numbered add
    refine ⟨fun d hd grip name => grown.contains_of_mentions hd, grown.added, ?_,
      InvImage.wf a.graph.resolve Node.wellFounded_parts,
      fun x => sizeOf (a.graph.resolve x), fun x y => Node.sizeOf_lt_of_mem_parts, ?_⟩
    · intro name n found m reaches x hx
      exact ((closed.added add).similar name n found).binds reaches hx
    · intro x depth enough
      exact ⟨Node.alternativesWithin?_eq enough, Node.familyWithin?_eq enough,
        Node.representedBaseWithin?_eq enough⟩

theorem addTypes_resolved_of_tree :
    let tree : Declaration :=
      { DeclarationOf.named "tree" with items := some (.many [.name "tree", .name "string"]) }
    Reached .initial .initial ∧ ∃ a, initial.addTypes .initial [tree] = .ok a ∧
      a.library.contains "string" = true ∧
        ∀ n, a.library.type? "tree" = some n → ∀ x ∈ n.links, a.graph.Binds x ∧
          ∃ depth, (a.graph.resolve x).alternativesWithin? depth =
            some (a.graph.resolve x).alternatives? := by
  intro tree
  refine ⟨.initial, ?_⟩
  have adds : (initial.addTypes .initial [tree]).toOption.isSome = true := by decide +kernel
  rcases add : initial.addTypes .initial [tree] with e | a
  · rw [add] at adds
    cases adds
  · obtain ⟨-, resolved⟩ := addTypes_resolved .initial [tree]
    obtain ⟨mentioned, -, bound, -, rank, -, deep⟩ := resolved a add
    have mentions : tree.Mentions .loose "string" :=
      ⟨.loose, .name "string", DeclarationOf.item_mem_parts (by simp [tree, TypeRef.spread]), .name⟩
    refine ⟨a, rfl, mentioned tree List.mem_cons_self _ _ mentions, fun n found x hx => ?_⟩
    exact ⟨bound "tree" n found n .refl x hx, _, (deep x _ (Nat.lt_succ_self _)).1⟩

end Library

end Schemata

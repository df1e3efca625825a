import Mathlib.Data.List.Perm.Subperm
import Schemata.Proofs.Library.Reached
import Schemata.Proofs.Resolution.Success

/-! Order of the declarations in a batch. Two orders that both succeed give similar types. But
success can depend on the order: a supertype or member that leads back to the name that needs it
fails if that name is looked up first. -/

namespace Schemata

def Mention (ds : List Declaration) (grip : Grip) (a b : String) : Prop :=
  ∃ d ∈ ds, d.key = a ∧ d.Mentions grip b

/-- A declaration of the batch mentions a name, with either grip. -/
def Leads (ds : List Declaration) (a b : String) : Prop := ∃ grip, Mention ds grip a b

/-- A name needs another one as a supertype or member, and that one leads back to it. -/
def Tangled (ds : List Declaration) : Prop :=
  ∃ a b, Mention ds .firm a b ∧ Relation.ReflTransGen (Leads ds) b a

theorem Mention.perm {ds ds' : List Declaration} (perm : ds.Perm ds') {grip : Grip} {a b : String}
    (h : Mention ds grip a b) : Mention ds' grip a b := by
  obtain ⟨d, hd, h⟩ := h
  exact ⟨d, perm.mem_iff.mp hd, h⟩

theorem Tangled.perm {ds ds' : List Declaration} (perm : ds.Perm ds') (h : Tangled ds) :
    Tangled ds' := by
  obtain ⟨a, b, firm, path⟩ := h
  exact ⟨a, b, firm.perm perm, path.lift id fun _ _ ⟨grip, h⟩ => ⟨grip, h.perm perm⟩⟩

namespace Library

variable {g : Graph} {l : Library} {ds ds' : List Declaration} {a a' : Addition}

theorem Grown.agrees (h : Grown l g ds a) (perm : ds.Perm ds') (stack : List String) :
    Scope.Agrees (Batch.regime l.types (Batch.numbered g.next ds') stack) a.known := by
  intro p sound
  refine ⟨fun n n' same => ?_, fun name n n' found found' => ?_, fun _ _ _ _ _ => trivial,
    fun _ _ _ _ _ _ _ => trivial⟩
  · subst same
    exact Node.Alike.refl (fun _ => .old rfl) (fun _ => trivial) n
  · rcases found' with built | old
    · obtain ⟨id', d, hd, describes'⟩ := sound.built name n' built
      obtain ⟨mem, rfl, -⟩ := Batch.of_get?_numbered hd
      obtain ⟨id, m, hm, describes⟩ := h.added d (perm.mem_iff.mpr mem)
      obtain rfl := Option.some.inj (Eq.trans (Eq.symm found) hm)
      exact .inr ⟨d, id, id', describes, describes'⟩
    · have apart : name ∉ ds.map DeclarationOf.key := by
        intro mem
        obtain ⟨d, hd, rfl⟩ := List.mem_map.mp mem
        rw [h.takes.new hd] at old
        cases old
      have found : a.library.type? name = some n := found
      rw [h.old name apart] at found
      exact .inl (Option.some.inj (found.symm.trans old))

theorem Grown.lookUp_succeeds (h : Grown l g ds a) (perm : ds.Perm ds') (untangled : ¬Tangled ds)
    (fuel : Nat) : ∀ stack name, stack.Nodup →
      (∀ x ∈ stack, x ∈ ds.map DeclarationOf.key ∧ Relation.TransGen (Leads ds) x name) →
      ds.length ≤ fuel + stack.length → name ∉ stack → a.library.contains name = true →
      Succeeds (Batch.regime l.types (Batch.numbered g.next ds') stack)
        (Batch.lookUp l.types (Batch.numbered g.next ds') fuel stack name) := by
  induction fuel with
  | zero =>
    intro stack name nodup path room apart present p sound
    by_cases new : name ∈ ds.map DeclarationOf.key
    -- The stack cannot hold more names than the batch has.
    · exfalso
      have all : (name :: stack).Subperm (ds.map DeclarationOf.key) := by
        refine List.subperm_of_subset (List.nodup_cons.mpr ⟨apart, nodup⟩) fun x hx => ?_
        rcases List.mem_cons.mp hx with rfl | hx
        · exact new
        · exact (path x hx).1
      have := all.length_le
      simp only [List.length_cons, List.length_map] at this
      omega
    · obtain ⟨n, hn⟩ := Option.isSome_iff_exists.mp present
      exact Batch.ends_lookUp_of_direct (.inr ((h.old name new).symm.trans hn))
  | succ fuel ih =>
    intro stack name nodup path room apart present p sound
    by_cases new : name ∈ ds.map DeclarationOf.key
    · rcases hb : Keyed.get? p.built name with _ | n
      · obtain ⟨d, hd, rfl⟩ := List.mem_map.mp new
        obtain ⟨id', hd'⟩ := Batch.get?_numbered_of_mem (h.takes.perm perm).nodup
          (perm.mem_iff.mp hd)
        obtain ⟨id, n, -, describes⟩ := h.added d hd
        refine Batch.ends_lookUp_of_build hb (h.takes.new hd) apart hd' ?_
        have path' : ∀ x ∈ stack ++ [d.key], x ∈ ds.map DeclarationOf.key ∧
            Relation.ReflTransGen (Leads ds) x d.key := by
          intro x hx
          rcases List.mem_append.mp hx with hx | hx
          · exact ⟨(path x hx).1, (path x hx).2.to_reflTransGen⟩
          · obtain rfl := List.mem_singleton.mp hx
            exact ⟨new, .refl⟩
        refine Scope.build_succeeds (Batch.within_keeps_regime fuel _) (h.agrees perm _) describes
          (fun grip b mention => ?_) id' p (sound.push hb)
        have deeper (free : b ∉ stack ++ [d.key]) : Succeeds
            (Batch.regime l.types (Batch.numbered g.next ds') (stack ++ [d.key]))
            (Batch.lookUp l.types (Batch.numbered g.next ds') fuel (stack ++ [d.key]) b) := by
          refine ih _ b ?_ (fun x hx => ?_) ?_ free (h.contains_of_mentions hd mention)
          · exact (List.perm_append_singleton d.key stack).nodup_iff.mpr
              (List.nodup_cons.mpr ⟨apart, nodup⟩)
          · exact ⟨(path' x hx).1, .tail' (path' x hx).2 ⟨grip, d, hd, rfl, mention⟩⟩
          · rw [List.length_append, List.length_singleton]
            omega
        cases grip with
        -- Only a loose mention may lead back to the stack: a firm one would tangle the batch.
        | firm =>
          refine deeper fun onStack => untangled ⟨d.key, b, ⟨d, hd, rfl, mention⟩, ?_⟩
          exact (path' b onStack).2
        | loose =>
          intro idle
          refine deeper fun onStack => ?_
          obtain ⟨e, he, rfl⟩ := List.mem_map.mp (path' b onStack).1
          obtain ⟨id, hid⟩ : ∃ id, Keyed.get? (Batch.numbered g.next ds') e.key = some (id, e) :=
            Batch.get?_numbered_of_mem (h.takes.perm perm).nodup (perm.mem_iff.mp he)
          have pending : (Batch.within l.types (Batch.numbered g.next ds') fuel
              (stack ++ [d.key])).pending? e.key = some id := by
            simp only [Batch.within, List.contains_iff_mem, if_pos onStack, hid, Option.map_some]
          rw [pending] at idle
          cases idle
      · exact Batch.ends_lookUp_of_direct (.inl hb)
    · obtain ⟨n, hn⟩ := Option.isSome_iff_exists.mp present
      exact Batch.ends_lookUp_of_direct (.inr ((h.old name new).symm.trans hn))

/-- A batch that is not tangled is added in every order in which it has the same names, once it is
added in one. -/
theorem Grown.addTypes_perm (h : Grown l g ds a) (perm : ds.Perm ds') (untangled : ¬Tangled ds) :
    ∃ a', l.addTypes g ds' = .ok a' := by
  have each : ∀ name ∈ ds'.map DeclarationOf.key, Succeeds
      (Batch.regime l.types (Batch.numbered g.next ds') [])
      ((Batch.scope l.types (Batch.numbered g.next ds')).lookUp name) := by
    intro name mem
    obtain ⟨d, hd, rfl⟩ := List.mem_map.mp mem
    obtain ⟨id, n, hn, -⟩ := h.added d (perm.mem_iff.mpr hd)
    refine h.lookUp_succeeds perm untangled _ [] d.key List.nodup_nil (fun _ h => nomatch h) ?_
      List.not_mem_nil (Option.isSome_iff_exists.mpr ⟨n, hn⟩)
    rw [Batch.length_numbered, perm.length_eq]
    exact Nat.le_refl _
  have steps : Succeeds (Batch.regime l.types (Batch.numbered g.next ds') []) (steps l g ds') := by
    rw [Library.steps, Batch.lookUpEach_eq]
    exact Succeeds.mapM (fun name => (Batch.within_keeps_regime _ []).lookUp name) _ each
  obtain ⟨added, progress, run⟩ := steps (start g ds')
    (Batch.sound_start fun _ _ _ h => (Batch.of_get?_numbered h).2.2.2)
  obtain ⟨bindings, bound⟩ := exists_bindings run
  exact ⟨_, addTypes_eq_ok.mpr ⟨h.takes.perm perm, added, progress, bindings, run, bound, rfl⟩⟩

section Tangled

variable {d e : Declaration} {rest : List Declaration} {q : Progress}

/-- While a name is being built, the names that are already built and that name itself have what
they need. -/
def Covered (d : Declaration) (q : Progress) (name : String) : Prop :=
  name = d.key ∨ Keyed.hasKey q.built name = true

theorem Covered.described (takes : l.Takes ds)
    (sound : Batch.Sound l.types (Batch.numbered g.next ds) [d.key] q) (hd : d ∈ ds) {id : NodeId}
    {n : Node} (describes : d.Describes (Batch.known l.types (Batch.numbered g.next ds) [d.key] q) id n)
    (he : e ∈ ds) (covered : Covered d q e.key) :
    ∃ id n, e.Describes (Batch.known l.types (Batch.numbered g.next ds) [d.key] q) id n := by
  obtain ⟨id', hid'⟩ : ∃ id', Keyed.get? (Batch.numbered g.next ds) e.key = some (id', e) :=
    Batch.get?_numbered_of_mem takes.nodup he
  rcases covered with same | built
  · obtain ⟨id'', hid''⟩ : ∃ id'', Keyed.get? (Batch.numbered g.next ds) d.key = some (id'', d) :=
      Batch.get?_numbered_of_mem takes.nodup hd
    rw [same] at hid'
    obtain ⟨-, rfl⟩ := Prod.mk.inj (Option.some.inj (hid'.symm.trans hid''))
    exact ⟨id, n, describes⟩
  · obtain ⟨m, hm⟩ := Option.isSome_iff_exists.mp built
    obtain ⟨id'', e', hid'', describes'⟩ := sound.built e.key m hm
    obtain ⟨-, rfl⟩ := Prod.mk.inj (Option.some.inj (hid'.symm.trans hid''))
    exact ⟨id'', m, describes'⟩

theorem covered_of_leads (takes : l.Takes ds)
    (sound : Batch.Sound l.types (Batch.numbered g.next ds) [d.key] q) (hd : d ∈ ds) {id : NodeId}
    {n : Node} (describes : d.Describes (Batch.known l.types (Batch.numbered g.next ds) [d.key] q) id n)
    {name : String} (path : Relation.ReflTransGen (Leads ds) d.key name)
    (new : name ∈ ds.map DeclarationOf.key) : Covered d q name := by
  induction path with
  | refl => exact .inl rfl
  | @tail x y _ step ih =>
    obtain ⟨grip, e, he, rfl, mention⟩ := step
    obtain ⟨id', m, describes'⟩ :=
      (ih (List.mem_map_of_mem he)).described takes sound hd describes he
    obtain ⟨e', he', rfl⟩ := List.mem_map.mp new
    have built {m : Node} (h : (Batch.known l.types (Batch.numbered g.next ds) [d.key] q).direct
        e'.key m) : Covered d q e'.key := by
      rcases h with built | old
      · exact .inr (Option.isSome_iff_exists.mpr ⟨m, built⟩)
      · rw [takes.new he'] at old
        cases old
    cases grip with
    | firm =>
      obtain ⟨m, found⟩ := describes'.answers mention
      exact built found
    | loose =>
      obtain ⟨m, found⟩ | ⟨id, -, -, waits | done⟩ := describes'.answers mention
      · exact built found
      -- Nothing but the first name is still being built, so what waits waits for that name.
      · exact .inl (List.mem_singleton.mp waits)
      · exact .inr done

/-- A batch is not added when its first name leads to one that needs it at once. -/
theorem not_adds_of_tangled {b : String} (firm : Mention (d :: rest) .firm b d.key)
    (path : Relation.ReflTransGen (Leads (d :: rest)) d.key b) (a : Addition) :
    l.addTypes g (d :: rest) ≠ .ok a := by
  intro add
  obtain ⟨takes, added, progress, bindings, run, -⟩ := addTypes_eq_ok.mp add
  have sound : Batch.Sound l.types (Batch.numbered g.next (d :: rest)) [] (start g (d :: rest)) :=
    Batch.sound_start fun _ _ _ h => (Batch.of_get?_numbered h).2.2.2
  obtain ⟨n, p, first, -⟩ := Building.bind_eq_ok.mp run
  obtain ⟨built | old, -⟩ | ⟨hb, -, apart, fuel, id, d', q, -, hd', build, -⟩ :=
    Batch.lookUp_eq_ok first
  · cases built
  · rw [takes.new List.mem_cons_self] at old
    cases old
  · obtain ⟨rfl, rfl⟩ := Prod.mk.inj (Option.some.inj ((if_pos rfl).symm.trans hd'))
    obtain ⟨sound', -, describes⟩ := Scope.build_yields
      (Batch.within_keeps_regime fuel [d.key]) g.next d _ n q (sound.push hb) build
    obtain ⟨e, he, rfl, mention⟩ := firm
    have covered := covered_of_leads takes sound' List.mem_cons_self describes path
      (List.mem_map_of_mem he)
    obtain ⟨id, m, describes'⟩ := covered.described takes sound' List.mem_cons_self describes he
    -- The name that is being built would have to be built already.
    obtain ⟨m', built | old⟩ := describes'.answers mention
    · rw [sound'.apart d.key List.mem_cons_self] at built
      cases built
    · rw [takes.new List.mem_cons_self] at old
      cases old

theorem exists_order_of_tangled (tangled : Tangled ds) :
    ∃ ds', ds.Perm ds' ∧ ∀ a, l.addTypes g ds' ≠ .ok a := by
  obtain ⟨a, b, firm, path⟩ := tangled
  have declared : ∃ d ∈ ds, d.key = b := by
    rcases path.cases_head with rfl | ⟨c, ⟨_, d, hd, key, -⟩, -⟩
    · obtain ⟨d, hd, key, -⟩ := firm
      exact ⟨d, hd, key⟩
    · exact ⟨d, hd, key⟩
  obtain ⟨d, hd, rfl⟩ := declared
  obtain ⟨before, after, rfl⟩ := List.append_of_mem hd
  have perm : (before ++ d :: after).Perm (d :: (before ++ after)) := List.perm_middle
  refine ⟨_, perm, not_adds_of_tangled (firm.perm perm) ?_⟩
  exact path.lift id fun _ _ ⟨grip, h⟩ => ⟨grip, h.perm perm⟩

end Tangled

theorem Grown.contains_eq (perm : ds.Perm ds') (h : Grown l g ds a) (h' : Grown l g ds' a')
    (name : String) : a.library.contains name = a'.library.contains name := by
  change (a.library.type? name).isSome = (a'.library.type? name).isSome
  by_cases new : name ∈ ds.map DeclarationOf.key
  · obtain ⟨d, hd, rfl⟩ := List.mem_map.mp new
    obtain ⟨_, n, hn, -⟩ := h.added d hd
    obtain ⟨_, n', hn', -⟩ := h'.added d (perm.mem_iff.mp hd)
    rw [hn, hn', Option.isSome_some, Option.isSome_some]
  · have new' : name ∉ ds'.map DeclarationOf.key := fun mem =>
      new ((perm.map DeclarationOf.key).mem_iff.mpr mem)
    rw [h.old name new, h'.old name new']

/-- Two orders of a batch that are both added give the same names similar types. All orders agree on
success exactly when the batch is not tangled, or fails in every order. -/
theorem addTypes_order (reached : Reached g l) (ds : List Declaration) :
    (∀ ds' a a', ds.Perm ds' → l.addTypes g ds = .ok a → l.addTypes g ds' = .ok a' →
      (∀ name, a.library.contains name = a'.library.contains name) ∧
        ∀ name n n', a.library.type? name = some n → a'.library.type? name = some n' →
          a.graph.Similar a'.graph n n') ∧
      ((∀ ds', ds.Perm ds' →
          ((∃ a, l.addTypes g ds = .ok a) ↔ ∃ a', l.addTypes g ds' = .ok a')) ↔
        ¬Tangled ds ∨ ∀ ds', ds.Perm ds' → ∀ a', l.addTypes g ds' ≠ .ok a') := by
  have closed := reached.closed
  refine ⟨fun ds' a a' perm add add' => ?_, fun agree => ?_, ?_⟩
  · have h := Grown.of_addTypes closed.numbered add
    have h' := Grown.of_addTypes closed.numbered add'
    exact ⟨h.contains_eq perm h', fun _ _ _ => h.similar closed perm h'⟩
  · by_contra neither
    rw [not_or, not_not] at neither
    obtain ⟨tangled, some⟩ := neither
    -- Some order is added and one is not, yet the given one agrees with both.
    obtain ⟨refused, perm, never⟩ := exists_order_of_tangled (l := l) (g := g) tangled
    refine some fun ds' perm' a' add' => ?_
    obtain ⟨a, add⟩ := (agree refused perm).mp ((agree ds' perm').mpr ⟨a', add'⟩)
    exact never a add
  · rintro (untangled | never) ds' perm
    · constructor
      · rintro ⟨a, add⟩
        exact (Grown.of_addTypes closed.numbered add).addTypes_perm perm untangled
      · rintro ⟨a', add'⟩
        have untangled' : ¬Tangled ds' := fun h => untangled (h.perm perm.symm)
        exact (Grown.of_addTypes closed.numbered add').addTypes_perm perm.symm untangled'
    · constructor
      · rintro ⟨a, add⟩
        exact absurd add (never ds (.refl ds) a)
      · rintro ⟨a', add'⟩
        exact absurd add' (never ds' perm a')

def folder : Declaration := { DeclarationOf.named "A" with properties := some [("b", .name "B")] }

def archive : Declaration := { DeclarationOf.named "B" with extends? := some (.name "A") }

theorem archive_folder_added : ∃ a, initial.addTypes .initial [archive, folder] = .ok a := by
  have adds : (initial.addTypes .initial [archive, folder]).toOption.isSome = true := by
    decide +kernel
  rcases add : initial.addTypes .initial [archive, folder] with e | a
  · rw [add] at adds
    cases adds
  · exact ⟨a, rfl⟩

theorem addTypes_order_of_field :
    Reached .initial .initial ∧ ¬∀ ds', [archive, folder].Perm ds' →
      ((∃ a, initial.addTypes .initial [archive, folder] = .ok a) ↔
        ∃ a', initial.addTypes .initial ds' = .ok a') := by
  refine ⟨.initial, fun agree => ?_⟩
  have needs : Mention [archive, folder] .firm "B" "A" :=
    ⟨archive, List.mem_cons_self, rfl, .firm, .name "A",
      DeclarationOf.supertype_mem_parts (List.mem_singleton_self _), .name⟩
  have leads : Mention [archive, folder] .loose "A" "B" :=
    ⟨folder, List.mem_cons_of_mem _ (List.mem_singleton_self _), rfl, .loose, .name "B",
      DeclarationOf.property_mem_parts (List.mem_singleton_self _), .name⟩
  rcases (addTypes_order .initial [archive, folder]).2.mp agree with untangled | never
  · exact untangled ⟨"B", "A", needs, .single ⟨.loose, leads⟩⟩
  · obtain ⟨a, add⟩ := archive_folder_added
    exact never _ (.refl _) a add

/-- `archive` before `folder` is added; `folder` before `archive` is refused as a cycle. -/
theorem not_addTypes_perm : [archive, folder].Perm [folder, archive] ∧
    (∃ a, initial.addTypes .initial [archive, folder] = .ok a) ∧
      ¬∃ a, initial.addTypes .initial [folder, archive] = .ok a := by
  refine ⟨.swap _ _ _, archive_folder_added, ?_⟩
  rintro ⟨a, add⟩
  have fails : (initial.addTypes .initial [folder, archive]).toOption.isSome = false := by
    decide +kernel
  rw [add] at fails
  cases fails

end Library
end Schemata

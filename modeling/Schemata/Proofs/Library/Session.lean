import Schemata.Library.Session
import Schemata.Proofs.Library.Addition
import Schemata.Proofs.Resolution.Twins

/-! Sequences of `addTypes` calls, of which some fail. A call appends the names of its batch or
leaves the state as it was, so an invariant of successful calls holds after any sequence. -/

namespace Schemata

theorem DeclarationOf.Describes.name_eq {k : Known} {d : Declaration} {id : NodeId} {n : Node}
    (h : d.Describes k id n) : n.name = d.name := by
  obtain ⟨-, -, -, -, -, -, made⟩ := h
  obtain ⟨first, rest, -, -, rfl⟩ := Building.compose_eq_pure made
  rfl

namespace Library

variable {l : Library} {g : Graph} {ds : List Declaration} {a : Addition}

theorem name_eq_some_key {d : Declaration} (named : isName d.key = true) : d.name = some d.key := by
  unfold DeclarationOf.key at named ⊢
  generalize d.name = name at named ⊢
  rcases name with _ | name
  · exact absurd named (by decide)
  · rfl

theorem types_of_addTypes (add : l.addTypes g ds = .ok a) :
    a.library.types = l.types ++ (ds.map DeclarationOf.key).zip a.added ∧
      List.Forall₂ (fun key n => n.name = some key) (ds.map DeclarationOf.key) a.added := by
  obtain ⟨takes, added, progress, bindings, run, -, rfl⟩ := addTypes_eq_ok.mp add
  obtain ⟨sound, found⟩ := steps_sound run
  constructor
  · refine Keyed.foldl_insert_of_new (fun e he there => ?_) ?_
    · obtain ⟨d, hd, same⟩ := List.mem_map.mp (List.of_mem_zip he).1
      exact contains_eq_false_iff.mp (takes.valid d hd).2 (same ▸ there)
    · rw [Keyed.Distinct, keys_zip found]
      exact takes.nodup
  · refine forall₂_imp_of_mem found fun key mem n h => ?_
    obtain ⟨d, hd, rfl⟩ := List.mem_map.mp mem
    have built : Keyed.get? progress.built d.key = some n := h.resolve_right fun old => by
      rw [takes.new hd] at old
      cases old
    obtain ⟨id, d', hd', describes⟩ := sound.built d.key n built
    obtain ⟨id', same⟩ := Batch.get?_numbered_of_mem takes.nodup hd
    obtain ⟨-, rfl⟩ := Prod.mk.inj (Option.some.inj (hd'.symm.trans same))
    rw [describes.name_eq, name_eq_some_key (takes.valid d' hd).1]

theorem within_of_addTypes (add : l.addTypes g ds = .ok a) : g.Within a.graph := by
  obtain ⟨-, added, progress, bindings, -, -, rfl⟩ := addTypes_eq_ok.mp add
  intro id n found
  rw [List.lookup_append, found, Option.some_or]

theorem batch?_eq_error {next : NodeId} {batch : Batch} {e : TypeError}
    (h : l.batch? next batch ds = .error e) : ∃ before d after, ds = before ++ d :: after ∧
      (isName d.key = false ∧ e = .invalidName d.key ∨
        (l.contains d.key = true ∨ d.key ∈ Keyed.keys batch ∨ d.key ∈ before.map DeclarationOf.key) ∧
          e = .duplicateName d.key) := by
  induction ds generalizing next batch with
  | nil => cases h
  | cons d rest ih =>
    rw [batch?_cons] at h
    split_ifs at h with unnamed taken
    · exact ⟨[], d, rest, rfl, .inl ⟨unnamed, (Except.error.inj h).symm⟩⟩
    · exact ⟨[], d, rest, rfl, .inr ⟨taken.imp Keyed.hasKey_iff_mem_keys.mpr .inl, (Except.error.inj h).symm⟩⟩
    · obtain ⟨before, d', after, rfl, fault⟩ := ih h
      refine ⟨d :: before, d', after, rfl, fault.imp id (And.imp_left (Or.imp id fun there => ?_))⟩
      rw [Keyed.keys_append, List.mem_append, or_assoc] at there
      refine there.imp id fun there => ?_
      rw [List.map_cons, List.mem_cons]
      exact there.imp List.mem_singleton.mp id

theorem batch?_eq_error_of (next : NodeId) (h : ¬l.Takes ds) :
    ∃ e, l.batch? next [] ds = .error e := by
  rcases hb : l.batch? next [] ds with e | batch
  · exact ⟨e, rfl⟩
  · exact absurd (batch?_eq_ok.mp hb).2 h

theorem not_takes_iff : ¬l.Takes ds ↔
    (∃ d ∈ ds, d.key ∈ l.names ∨ isName d.key = false) ∨ ¬(ds.map DeclarationOf.key).Nodup := by
  constructor
  · intro refuses
    by_contra sound
    push Not at sound
    refine refuses ⟨fun d hd => ?_, sound.2⟩
    obtain ⟨free, named⟩ := sound.1 d hd
    exact ⟨Bool.not_eq_false _ ▸ named, contains_eq_false_iff.mpr free⟩
  · rintro (⟨d, hd, there | unnamed⟩ | repeated) takes
    · exact contains_eq_false_iff.mp (takes.valid d hd).2 there
    · exact Bool.false_ne_true (unnamed.symm.trans (takes.valid d hd).1)
    · exact repeated takes.nodup

theorem addTypes_refuses (h : ¬l.Takes ds) : ∃ before d after, ds = before ++ d :: after ∧
    (isName d.key = false ∧ l.addTypes g ds = .error (.invalidName d.key) ∨
      (d.key ∈ l.names ∨ d.key ∈ before.map DeclarationOf.key) ∧
        l.addTypes g ds = .error (.duplicateName d.key)) := by
  obtain ⟨e, refused⟩ := batch?_eq_error_of g.next h
  have fails : l.addTypes g ds = .error e := by
    unfold addTypes
    rw [refused]
    rfl
  obtain ⟨before, d, after, rfl, fault⟩ := batch?_eq_error refused
  refine ⟨before, d, after, rfl, ?_⟩
  rw [fails]
  rcases fault with ⟨unnamed, rfl⟩ | ⟨taken, rfl⟩
  · exact .inl ⟨unnamed, rfl⟩
  · refine .inr ⟨?_, rfl⟩
    rw [contains, Keyed.hasKey_iff_mem_keys] at taken
    exact taken.imp id fun there => there.resolve_left List.not_mem_nil

structure Proper (l : Library) : Prop where
  distinct : l.names.Nodup
  named : ∀ e ∈ l.types, isName e.1 = true ∧ e.2.name = some e.1

theorem proper_initial : Proper initial := by
  refine ⟨by decide, fun e he => ?_⟩
  obtain ⟨b, -, rfl⟩ := List.mem_map.mp he
  exact ⟨by cases b <;> decide, rfl⟩

theorem names_of_addTypes (add : l.addTypes g ds = .ok a) :
    a.library.names = l.names ++ ds.map DeclarationOf.key := by
  obtain ⟨types, named⟩ := types_of_addTypes add
  rw [names, types, Keyed.keys_append, names, keys_zip named]

theorem Proper.added (proper : Proper l) (add : l.addTypes g ds = .ok a) : Proper a.library := by
  have takes := (addTypes_eq_ok.mp add).1
  obtain ⟨types, named⟩ := types_of_addTypes add
  constructor
  · rw [names_of_addTypes add]
    refine List.nodup_append.mpr ⟨proper.distinct, takes.nodup, fun a ha b hb same => ?_⟩
    obtain ⟨d, hd, rfl⟩ := List.mem_map.mp hb
    exact contains_eq_false_iff.mp (takes.valid d hd).2 (same ▸ ha)
  · intro e he
    rw [types, List.mem_append] at he
    rcases he with he | he
    · exact proper.named e he
    · obtain ⟨d, hd, same⟩ := List.mem_map.mp (List.of_mem_zip he).1
      exact ⟨same ▸ (takes.valid d hd).1, (List.forall₂_iff_zip.mp named).2 he⟩

end Library

namespace Session

variable {s : Session} {ds : List Declaration} {a : Addition}

theorem bind_ofExcept {α β : Type} (x : Except TypeError α) (next : α → EStateM TypeError Session β)
    (s : Session) : (ofExcept x >>= next : EStateM TypeError Session β) s =
      match x with
      | .ok a => next a s
      | .error e => .error e s := by
  cases x <;> rfl

theorem forM_insert (entries : List (String × Node)) (s : Session) :
    (entries.forM fun e => insert e.1 e.2) s = .ok () { s with
      library := ⟨entries.foldl (fun types e => Keyed.insert types e.1 e.2) s.library.types⟩ } := by
  induction entries generalizing s with
  | nil => rfl
  | cons e rest ih => exact ih _

/-- A call that fails changes nothing; one that succeeds leaves what `Library.addTypes` gives. -/
theorem addTypes_eq (ds : List Declaration) (s : Session) : addTypes ds s =
    match s.library.addTypes s.graph ds with
    | .ok a => .ok a.added ⟨a.graph, a.library⟩
    | .error e => .error e s := by
  obtain ⟨g, l⟩ := s
  dsimp only
  change (ofExcept (l.batch? g.next [] ds) >>= _ : EStateM TypeError Session _) ⟨g, l⟩ = _
  rw [bind_ofExcept]
  rcases batched : l.batch? g.next [] ds with e | batch
  · rw [Library.addTypes, batched]
    rfl
  · have run : l.addTypes g ds =
        ((Batch.lookUpEach (Batch.scope l.types batch) (Keyed.keys batch)).run
            ⟨g.next + batch.length, [], []⟩).bind fun r =>
          (Batch.bindEach r.2.built r.2.forwards).bind fun bindings =>
            .ok ⟨⟨r.2.next, g.bindings ++ bindings⟩, ⟨((Keyed.keys batch).zip r.1).foldl
              (fun types e => Keyed.insert types e.1 e.2) l.types⟩, r.1⟩ := by
      rw [Library.addTypes, batched]
      rfl
    rw [run]
    dsimp only
    rw [bind_ofExcept]
    rcases (Batch.lookUpEach (Batch.scope l.types batch) (Keyed.keys batch)).run
      ⟨g.next + batch.length, [], []⟩ with e | ⟨added, progress⟩
    · rfl
    · dsimp only [Except.bind]
      rw [bind_ofExcept]
      rcases Batch.bindEach progress.built progress.forwards with e | bindings
      · rfl
      · change (((Keyed.keys batch).zip added).forM (fun e => insert e.1 e.2) >>= fun _ => pure added :
          EStateM TypeError Session _) ⟨⟨progress.next, g.bindings ++ bindings⟩, l⟩ = _
        change EStateM.bind _ _ _ = _
        rw [EStateM.bind, forM_insert]
        rfl

theorem addTypes_eq_ok_iff {added : List Node} {s' : Session} : addTypes ds s = .ok added s' ↔
    s.library.addTypes s.graph ds = .ok ⟨s'.graph, s'.library, added⟩ := by
  rw [addTypes_eq]
  rcases s.library.addTypes s.graph ds with e | a
  · exact iff_of_false nofun nofun
  · obtain ⟨g, l⟩ := s'
    obtain ⟨g', l', nodes⟩ := a
    constructor
    · rintro ⟨⟩
      rfl
    · rintro ⟨⟩
      rfl

theorem addTypes_eq_error_iff {e : TypeError} {s' : Session} : addTypes ds s = .error e s' ↔
    s' = s ∧ s.library.addTypes s.graph ds = .error e := by
  rw [addTypes_eq]
  rcases s.library.addTypes s.graph ds with e' | a
  · constructor
    · rintro ⟨⟩
      exact ⟨rfl, rfl⟩
    · rintro ⟨rfl, ⟨⟩⟩
      rfl
  · exact iff_of_false nofun nofun

theorem add_of_ok (h : s.library.addTypes s.graph ds = .ok a) : s.add ds = ⟨a.graph, a.library⟩ := by
  rw [add, addTypes_eq, h]

theorem add_of_error {e : TypeError} (h : s.library.addTypes s.graph ds = .error e) :
    s.add ds = s := by
  rw [add, addTypes_eq, h]

/-- An invariant of successful `addTypes` calls holds after any sequence of calls. -/
theorem addAll_induction {P : Session → Prop} {calls : List (List Declaration)} (start : P s)
    (step : ∀ t ds a, P t → t.library.addTypes t.graph ds = .ok a → P ⟨a.graph, a.library⟩) :
    P (s.addAll calls) := by
  induction calls generalizing s with
  | nil => exact start
  | cons ds rest ih =>
    rw [addAll, List.foldl_cons, ← addAll]
    apply ih
    rcases call : s.library.addTypes s.graph ds with e | a
    · rwa [add_of_error call]
    · rw [add_of_ok call]
      exact step s ds a start call

theorem addAll_grows (s : Session) (calls : List (List Declaration)) :
    s.library.types <+: (s.addAll calls).library.types ∧ s.graph.Within (s.addAll calls).graph := by
  refine addAll_induction (P := fun t => s.library.types <+: t.library.types ∧
    s.graph.Within t.graph) ⟨List.prefix_refl _, .refl _⟩ fun t ds a grown call => ⟨?_, ?_⟩
  · refine grown.1.trans ?_
    rw [(Library.types_of_addTypes call).1]
    exact List.prefix_append _ _
  · exact fun id n found => Library.within_of_addTypes call id n (grown.2 id n found)

theorem names_addAll (s : Session) (calls : List (List Declaration)) :
    (s.addAll calls).library.names =
      s.library.names ++ (s.taken calls).flatMap (List.map DeclarationOf.key) := by
  induction calls generalizing s with
  | nil => exact (List.append_nil _).symm
  | cons ds rest ih =>
    rw [addAll, List.foldl_cons, ← addAll, ih, taken, addTypes_eq]
    rcases call : s.library.addTypes s.graph ds with e | a
    · rw [add_of_error call]
    · rw [add_of_ok call, Library.names_of_addTypes call, List.flatMap_cons, List.append_assoc]

theorem type?_of_prefix {l l' : Library} (grown : l.types <+: l'.types) {name : String} {n : Node}
    (found : l.type? name = some n) : l'.type? name = some n := by
  obtain ⟨more, same⟩ := grown
  rw [Library.type?, ← same, Keyed.get?_append, ← Library.type?, found, Option.some_or]

/-- After any sequence of `addTypes` calls the names are the built-in ones and then those of the
batches added, in order, without blank or repeated names; each node carries its name and is kept,
with its bindings, by every later call. A failing call leaves the state unchanged; a successful one
returns the new nodes, one per declaration in order. A blank, repeated or taken name is an error for
the first such name. -/
theorem names_after_addTypes (g : Graph) (calls : List (List Declaration)) :
    let s := (fresh g).addAll calls
    s.library.names = BaseType.all.map BaseType.name ++
        ((fresh g).taken calls).flatMap (List.map DeclarationOf.key) ∧
      s.library.names.Nodup ∧ (∀ name ∈ s.library.names, Library.isName name = true) ∧
      (∀ name n, s.library.type? name = some n → n.name = some name) ∧
      (∀ later, s.graph.Within (s.addAll later).graph ∧ ∀ name n, s.library.type? name = some n →
        (s.addAll later).library.type? name = some n) ∧
      ∀ ds, (∀ e s', addTypes ds s = .error e s' →
          s' = s ∧ s.library.addTypes s.graph ds = .error e) ∧
        (∀ added s', addTypes ds s = .ok added s' →
          s.library.addTypes s.graph ds = .ok ⟨s'.graph, s'.library, added⟩ ∧
            added.length = ds.length ∧
            s'.library.types = s.library.types ++ (ds.map DeclarationOf.key).zip added) ∧
        ((∃ d ∈ ds, d.key ∈ s.library.names ∨ Library.isName d.key = false) ∨
            ¬(ds.map DeclarationOf.key).Nodup →
          ∃ before d after, ds = before ++ d :: after ∧
            (Library.isName d.key = false ∧ addTypes ds s = .error (.invalidName d.key) s ∨
              (d.key ∈ s.library.names ∨ d.key ∈ before.map DeclarationOf.key) ∧
                addTypes ds s = .error (.duplicateName d.key) s)) := by
  intro s
  have proper : s.library.Proper := addAll_induction (P := fun t => t.library.Proper)
    Library.proper_initial fun _ _ _ proper call => proper.added call
  refine ⟨names_addAll _ calls, proper.distinct, fun name mem => ?_, fun name n found => ?_,
    fun later => ?_, fun ds => ⟨fun e s' => addTypes_eq_error_iff.mp, fun added s' call => ?_,
      fun faulty => ?_⟩⟩
  · obtain ⟨e, he, rfl⟩ := List.mem_map.mp mem
    exact (proper.named e he).1
  · exact (proper.named _ (Keyed.mem_of_get? found)).2
  · obtain ⟨grown, within⟩ := addAll_grows s later
    exact ⟨within, fun name n => type?_of_prefix grown⟩
  · have result := addTypes_eq_ok_iff.mp call
    obtain ⟨types, named⟩ := Library.types_of_addTypes result
    exact ⟨result, named.length_eq.symm.trans (List.length_map _), types⟩
  · obtain ⟨before, d, after, same, fault⟩ :=
      Library.addTypes_refuses (g := s.graph) (Library.not_takes_iff.mpr faulty)
    refine ⟨before, d, after, same, fault.imp (And.imp_right fun fails => ?_)
      (And.imp_right fun fails => ?_)⟩
    · exact addTypes_eq_error_iff.mpr ⟨rfl, fails⟩
    · exact addTypes_eq_error_iff.mpr ⟨rfl, fails⟩

theorem names_after_addTypes_of_four :
    let batch (names : List String) : List Declaration := names.map DeclarationOf.named
    let calls := [batch ["b", "a"], batch ["c", "a"], batch ["d", " "], batch ["c"]]
    let s := (fresh .initial).addAll calls
    s.library.names = BaseType.all.map BaseType.name ++ ["b", "a", "c"] ∧
      (∀ name n, s.library.type? name = some n → n.name = some name) ∧
      ∃ name, addTypes (batch ["e", "a"]) s = .error (.invalidName name) s ∨
        addTypes (batch ["e", "a"]) s = .error (.duplicateName name) s := by
  intro batch calls s
  have added : ((fresh .initial).taken calls).flatMap (List.map DeclarationOf.key) =
      ["b", "a", "c"] := by decide +kernel
  obtain ⟨names, -, -, carried, -, call⟩ := names_after_addTypes .initial calls
  rw [added] at names
  refine ⟨names, carried, ?_⟩
  have there : "a" ∈ s.library.names := names ▸ by decide
  have taken : ∃ d ∈ batch ["e", "a"], d.key ∈ s.library.names ∨ Library.isName d.key = false :=
    ⟨DeclarationOf.named "a", List.mem_of_mem_getLast? rfl, .inl there⟩
  obtain ⟨before, d, after, -, fault⟩ := (call _).2.2 (.inl taken)
  exact ⟨d.key, fault.imp And.right And.right⟩

end Session
end Schemata

import Schemata.Proofs.Graph.Similarity
import Schemata.Proofs.Keyed
import Schemata.Proofs.Library.Batch
import Schemata.Proofs.Resolution.Invariant

/-! `addTypes` as an equivalence: the library then holds its old types and, for each declaration,
the node that it describes, with every name denoting the type registered under it. -/

namespace Schemata

/-- What is known of names once a batch is added: the types of the library, and the numbers that
are bound to them. -/
def Addition.known (a : Addition) : Known where
  direct name n := a.library.type? name = some n
  forward id name := ∃ n, a.library.type? name = some n ∧ a.graph.bindings.lookup id = some n

def Graph.Numbered (g : Graph) : Prop := ∀ e ∈ g.bindings, e.1 < g.next

theorem Keyed.get?_zip {α : Type} {R : String → α → Prop} {names : List String} {values : List α}
    (h : List.Forall₂ R names values) (key : String) :
    (key ∈ names → ∃ x, Keyed.get? (names.zip values) key = some x ∧ R key x) ∧
      (key ∉ names → Keyed.get? (names.zip values) key = none) := by
  induction h with
  | nil => exact ⟨(nomatch ·), fun _ => rfl⟩
  | @cons a x _ _ hax _ ih =>
    rw [List.zip_cons_cons, Keyed.get?]
    by_cases ha : a = key
    · subst ha
      exact ⟨fun _ => ⟨x, if_pos rfl, hax⟩, fun apart => absurd List.mem_cons_self apart⟩
    · rw [if_neg ha, List.mem_cons, not_or]
      refine ⟨fun mem => ih.1 (mem.resolve_left (Ne.symm ha)), fun apart => ih.2 apart.2⟩

theorem keys_zip {α : Type} {R : String → α → Prop} {names : List String} {values : List α}
    (h : List.Forall₂ R names values) : Keyed.keys (names.zip values) = names := by
  rw [Keyed.keys, List.map_fst_zip (Nat.le_of_eq h.length_eq)]

namespace Library

variable {l : Library} {g : Graph} {ds : List Declaration} {a : Addition}

def steps (l : Library) (g : Graph) (ds : List Declaration) : Building (List Node) :=
  Batch.lookUpEach (Batch.scope l.types (Batch.numbered g.next ds)) (ds.map DeclarationOf.key)

def start (g : Graph) (ds : List Declaration) : Progress := ⟨g.next + ds.length, [], []⟩

theorem addTypes_of_takes (takes : l.Takes ds) :
    l.addTypes g ds = (steps l g ds (start g ds)).bind fun r =>
      (Batch.bindEach r.2.built r.2.forwards).map fun bindings =>
        ⟨⟨r.2.next, g.bindings ++ bindings⟩, ⟨((ds.map DeclarationOf.key).zip r.1).foldl
          (fun types e => Keyed.insert types e.1 e.2) l.types⟩, r.1⟩ := by
  unfold addTypes
  rw [batch?_eq_ok.mpr ⟨rfl, takes⟩]
  have same : start g ds = ⟨g.next + (Batch.numbered g.next ds).length, [], []⟩ := by
    rw [start, Batch.length_numbered]
  change ((Batch.lookUpEach (Batch.scope l.types (Batch.numbered g.next ds))
    (Keyed.keys (Batch.numbered g.next ds))).run _).bind _ = _
  rw [Batch.keys_numbered, ← same]
  change (steps l g ds (start g ds)).bind _ = _
  rcases steps l g ds (start g ds) with e | ⟨added, q⟩
  · rfl
  · change (Batch.bindEach q.built q.forwards).bind _ = (Batch.bindEach q.built q.forwards).map _
    rcases Batch.bindEach q.built q.forwards with e | bindings <;> rfl

/-- `addTypes` succeeds exactly when the names are free, every name is looked up, and the forward
references are bound. -/
theorem addTypes_eq_ok : l.addTypes g ds = .ok a ↔ l.Takes ds ∧ ∃ added progress bindings,
    steps l g ds (start g ds) = .ok (added, progress) ∧
      Batch.bindEach progress.built progress.forwards = .ok bindings ∧
      a = ⟨⟨progress.next, g.bindings ++ bindings⟩, ⟨((ds.map DeclarationOf.key).zip added).foldl
        (fun types e => Keyed.insert types e.1 e.2) l.types⟩, added⟩ := by
  by_cases takes : l.Takes ds
  · rw [addTypes_of_takes takes]
    constructor
    · intro h
      rcases run : steps l g ds (start g ds) with e | ⟨added, progress⟩ <;> rw [run] at h
      · cases h
      · change (Batch.bindEach progress.built progress.forwards).map _ = _ at h
        rcases bound : Batch.bindEach progress.built progress.forwards with e | bindings <;>
          rw [bound] at h
        · cases h
        · exact ⟨takes, added, progress, bindings, rfl, bound, (Except.ok.inj h).symm⟩
    · rintro ⟨-, added, progress, bindings, run, bound, rfl⟩
      rw [run]
      change (Batch.bindEach progress.built progress.forwards).map _ = _
      rw [bound]
      rfl
  · refine ⟨fun h => ?_, fun h => absurd h.1 takes⟩
    unfold addTypes at h
    rcases hb : l.batch? g.next [] ds with e | batch <;> rw [hb] at h
    · cases h
    · exact absurd (batch?_eq_ok.mp hb).2 takes

/-- What adding a batch gives: the library with a type for each declaration, as it describes it. -/
structure Grown (l : Library) (g : Graph) (ds : List Declaration) (a : Addition) : Prop where
  takes : l.Takes ds
  old : ∀ name, name ∉ ds.map DeclarationOf.key → a.library.type? name = l.type? name
  added : ∀ d ∈ ds, ∃ id n, a.library.type? d.key = some n ∧ d.Describes a.known id n
  within : g.Within a.graph
  numbered : a.graph.Numbered

theorem steps_sound {added : List Node} {progress : Progress}
    (run : steps l g ds (start g ds) = .ok (added, progress)) :
    Batch.Sound l.types (Batch.numbered g.next ds) [] progress ∧
      List.Forall₂ (fun name n =>
        (Batch.known l.types (Batch.numbered g.next ds) [] progress).direct name n)
        (ds.map DeclarationOf.key) added := by
  have sound : Batch.Sound l.types (Batch.numbered g.next ds) [] (start g ds) :=
    Batch.sound_start fun _ _ _ h => (Batch.of_get?_numbered h).2.2.2
  obtain ⟨sound, -, found⟩ := Batch.lookUpEach_yields _ _ _ _ sound run
  exact ⟨sound, found⟩

theorem exists_bindings {added : List Node} {progress : Progress}
    (run : steps l g ds (start g ds) = .ok (added, progress)) :
    ∃ bindings, Batch.bindEach progress.built progress.forwards = .ok bindings := by
  refine Batch.exists_bindEach fun f hf => ?_
  obtain ⟨-, -, waits | built⟩ := (steps_sound run).1.forwards f hf
  · cases waits
  · exact built

theorem next_le {added : List Node} {progress : Progress}
    (run : steps l g ds (start g ds) = .ok (added, progress)) : g.next ≤ progress.next := by
  rcases ds with _ | ⟨d, rest⟩
  · obtain ⟨-, rfl⟩ := Building.pure_eq_ok.mp run
    exact Nat.le_refl _
  · exact Nat.le_of_lt ((steps_sound run).1.numbered d.key g.next d (if_pos rfl))

theorem lookup_bindings {built : Keyed Node} {forwards : List (NodeId × String)}
    {bindings : List (NodeId × Node)}
    (bound : List.Forall₂ (fun f b => f.1 = b.1 ∧ Keyed.get? built f.2 = some b.2) forwards bindings)
    {id : NodeId} {name : String} {n : Node} (mem : (id, name) ∈ forwards)
    (only : ∀ other, (id, other) ∈ forwards → other = name)
    (found : Keyed.get? built name = some n) : bindings.lookup id = some n := by
  induction bound with
  | nil => cases mem
  | @cons f b fs _ hfb _ ih =>
    obtain ⟨fid, fname⟩ := f
    obtain ⟨bid, m⟩ := b
    obtain ⟨rfl, hm⟩ := hfb
    rw [List.lookup_cons]
    by_cases same : id = fid
    · subst same
      obtain rfl := only fname List.mem_cons_self
      rw [beq_self_eq_true]
      exact hm.symm.trans found
    · rw [beq_false_of_ne same]
      have mem : (id, name) ∈ fs := (List.mem_cons.mp mem).resolve_left fun h =>
        same (Prod.mk.inj h).1
      exact ih mem fun other h => only other (List.mem_cons_of_mem _ h)

theorem Grown.of_addTypes (numbered : g.Numbered) (h : l.addTypes g ds = .ok a) :
    Grown l g ds a := by
  obtain ⟨takes, added, progress, bindings, run, bound, rfl⟩ := addTypes_eq_ok.mp h
  obtain ⟨sound, found⟩ := steps_sound run
  rw [Batch.bindEach_eq_ok] at bound
  have nodup : (Keyed.keys ((ds.map DeclarationOf.key).zip added)).Nodup := by
    rw [keys_zip found]
    exact takes.nodup
  have old : ∀ name, name ∉ ds.map DeclarationOf.key → type? ⟨((ds.map DeclarationOf.key).zip
      added).foldl (fun types e => Keyed.insert types e.1 e.2) l.types⟩ name = l.type? name := by
    intro name apart
    rw [type?, Keyed.get?_foldl_insert, Keyed.get?_reverse nodup, (Keyed.get?_zip found name).2 apart]
    rfl
  -- A name of the batch is new to the library, so the node that was found was built now.
  have new : ∀ name n, Keyed.get? progress.built name = some n → type? ⟨((ds.map
      DeclarationOf.key).zip added).foldl (fun types e => Keyed.insert types e.1 e.2) l.types⟩ name =
        some n := by
    intro name n hn
    obtain ⟨id, d, hd, -⟩ := sound.built name n hn
    obtain ⟨mem, rfl, -⟩ := Batch.of_get?_numbered hd
    obtain ⟨m, hm, hb | ht⟩ := (Keyed.get?_zip found d.key).1 (List.mem_map_of_mem mem)
    · rw [type?, Keyed.get?_foldl_insert, Keyed.get?_reverse nodup, hm, ← hn, hb]
      rfl
    · rw [takes.new mem] at ht
      cases ht
  have known : Batch.known l.types (Batch.numbered g.next ds) [] progress ≤ Addition.known
      ⟨⟨progress.next, g.bindings ++ bindings⟩, ⟨((ds.map DeclarationOf.key).zip added).foldl
        (fun types e => Keyed.insert types e.1 e.2) l.types⟩, added⟩ := by
    constructor
    · rintro name n (hn | hn)
      · exact new name n hn
      · refine (old name fun mem => ?_).trans hn
        obtain ⟨d, hd, rfl⟩ := List.mem_map.mp mem
        rw [takes.new hd] at hn
        cases hn
    · rintro id name ⟨mem, ⟨d, hd⟩, waits | built⟩
      · cases waits
      · obtain ⟨n, hn⟩ := Option.isSome_iff_exists.mp built
        refine ⟨n, new name n hn, ?_⟩
        -- The number was given out for this batch, so nothing was bound to it before.
        have unbound : g.bindings.lookup id = none := by
          refine List.lookup_eq_none_iff.mpr fun e he => bne_iff_ne.mpr ?_
          exact Nat.ne_of_gt (Nat.lt_of_lt_of_le (numbered e he) (Batch.of_get?_numbered hd).2.2.1)
        rw [List.lookup_append, unbound, Option.none_or]
        refine lookup_bindings bound mem (fun other hother => ?_) hn
        obtain ⟨-, ⟨d', hd'⟩, -⟩ := sound.forwards _ hother
        exact Batch.eq_of_get?_numbered hd' hd
  refine ⟨takes, old, fun d hd => ?_, fun id n hn => ?_, fun e he => ?_⟩
  · obtain ⟨n, -, hn⟩ := exists_of_forall₂_of_mem found (List.mem_map_of_mem hd)
    have hn : Keyed.get? progress.built d.key = some n := hn.resolve_right fun ht => by
      rw [takes.new hd] at ht
      cases ht
    obtain ⟨id, d', hd', describes⟩ := sound.built d.key n hn
    obtain ⟨id', same⟩ := Batch.get?_numbered_of_mem takes.nodup hd
    obtain ⟨-, rfl⟩ := Prod.mk.inj (Option.some.inj (hd'.symm.trans same))
    exact ⟨id, n, new _ n hn, describes.mono known⟩
  · rw [List.lookup_append, hn, Option.some_or]
  · rcases List.mem_append.mp he with he | he
    · exact Nat.lt_of_lt_of_le (numbered e he) (next_le run)
    · obtain ⟨f, hf, same, -⟩ := exists_of_forall₂_of_mem bound.flip he
      obtain ⟨-, ⟨d, hd⟩, -⟩ := sound.forwards f hf
      exact same ▸ sound.numbered _ _ _ hd

end Library
end Schemata

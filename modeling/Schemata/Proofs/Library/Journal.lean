import Mathlib
import Schemata.Proofs.Library.Addition
import Schemata.Proofs.Resolution.Journal

/-! `addTypes` with a journal of the names whose building begins. The walk terminates, each
declaration is built at most once, and exactly once on success, and a reported cycle is a cycle of
the declarations. -/

namespace Schemata

namespace Library

variable {l : Library} {g : Graph} {ds : List Declaration} {j : Journal}

theorem batch?_ne_cycle (l : Library) (next : NodeId) (batch : Batch) (ds : List Declaration)
    (path : List String) : l.batch? next batch ds ≠ .error (.dependencyCycle path) := by
  induction ds generalizing next batch with
  | nil =>
    intro refused
    cases refused
  | cons d rest ih =>
    intro refused
    simp only [batch?] at refused
    split at refused
    · cases refused
    · split at refused
      · cases refused
      · exact ih _ _ refused

/-- With an allowance of one nested build per name of the batch, the journaled look-ups are those of
`addTypes`. -/
theorem exists_journal (l : Library) (g : Graph) (ds : List Declaration) {allowance : Nat}
    (room : ds.length ≤ allowance) : ∃ j,
      Journaled.resolveBatch l.types (Batch.numbered g.next ds) allowance (ds.map DeclarationOf.key)
        (start g ds) = some (steps l g ds (start g ds), j) ∧
      Journal.Closes (Batch.numbered g.next ds) [] (steps l g ds (start g ds)) j := by
  have room : (Batch.numbered g.next ds).length ≤ allowance := by rwa [Batch.length_numbered]
  refine Journaled.lookUpEach_tracks (fun name _ => ?_) (start g ds) [] ⟨⟨?_, ?_⟩, fun a => ?_⟩
  · exact Journaled.lookUp_tracks (Batch.trail_nil _) (Batch.asked_nil _ name) le_rfl room
  · nofun
  · exact List.nodup_nil
  · exact ⟨nofun, (·.elim nofun nofun)⟩

theorem perm_of_steps (takes : l.Takes ds) {added : List Node} {q : Progress}
    (run : steps l g ds (start g ds) = .ok (added, q))
    (kept : Journal.Kept (Batch.numbered g.next ds) [] q j) :
    (j.map Begun.name).Perm (ds.map DeclarationOf.key) := by
  refine (List.perm_ext_iff_of_nodup kept.once takes.nodup).mpr fun a => ?_
  refine ⟨fun began => ?_, fun there => ?_⟩
  · obtain ⟨b, hb, rfl⟩ := List.mem_map.mp began
    have known := (kept.nested b hb).2 (List.mem_append_right _ List.mem_cons_self)
    rwa [Batch.keys_numbered] at known
  · obtain ⟨n, -, found⟩ := exists_of_forall₂_of_mem (steps_sound run).2 there
    obtain ⟨d, hd, rfl⟩ := List.mem_map.mp there
    have built : Keyed.get? q.built d.key = some n :=
      found.resolve_right fun old => nomatch (takes.new hd).symm.trans old
    refine (kept.begun d.key).mpr (.inr ?_)
    rw [Keyed.hasKey, built]
    rfl

theorem steps_of_cycle {path : List String}
    (refused : l.addTypes g ds = .error (.dependencyCycle path)) :
    l.Takes ds ∧ steps l g ds (start g ds) = .error (.dependencyCycle path) := by
  by_cases takes : l.Takes ds
  · refine ⟨takes, ?_⟩
    rcases run : steps l g ds (start g ds) with e | ⟨added, q⟩
    · rw [addTypes_of_takes takes, run] at refused
      obtain rfl := Except.error.inj refused
      rfl
    · obtain ⟨bindings, bound⟩ := exists_bindings run
      have add := addTypes_eq_ok.mpr ⟨takes, added, q, bindings, run, bound, rfl⟩
      cases add.symm.trans refused
  · rcases hb : l.batch? g.next [] ds with e | batch
    · unfold addTypes at refused
      rw [hb] at refused
      obtain rfl := Except.error.inj refused
      exact absurd hb (batch?_ne_cycle l g.next [] ds path)
    · exact absurd (batch?_eq_ok.mp hb).2 takes

/-- Resolution of a batch terminates, with builds nested at most once per name. The names on the
stack are distinct names of the batch, none is built twice, and a reported cycle is a cycle of the
batch. -/
theorem addTypes_journal (l : Library) (g : Graph) (ds : List Declaration) :
    (∀ batch, l.batch? g.next [] ds = .ok batch → ∀ allowance, batch.length ≤ allowance →
      ∃ result, ∃ j : Journal,
        Journaled.resolveBatch l.types batch allowance (Keyed.keys batch)
          ⟨g.next + batch.length, [], []⟩ = some (result, j) ∧
        result = Batch.lookUpEach (Batch.scope l.types batch) (Keyed.keys batch)
          ⟨g.next + batch.length, [], []⟩ ∧
        (∀ b ∈ j, b.stack.Nodup ∧ b.stack ⊆ Keyed.keys batch) ∧ (j.map Begun.name).Nodup ∧
        ∀ r, result = .ok r → (j.map Begun.name).Perm (Keyed.keys batch)) ∧
      ∀ path, l.addTypes g ds = .error (.dependencyCycle path) →
        ∃ batch, l.batch? g.next [] ds = .ok batch ∧ batch.Cycle path := by
  refine ⟨fun batch accepted allowance room => ?_, fun path refused => ?_⟩
  · obtain ⟨rfl, takes⟩ := batch?_eq_ok.mp accepted
    rw [Batch.length_numbered] at room ⊢
    have names := Batch.keys_numbered g.next ds
    rw [names]
    obtain ⟨j, run, closes⟩ := exists_journal l g ds room
    refine ⟨_, j, run, rfl, ?_⟩
    change Journal.Closes _ [] (steps l g ds (start g ds)) j at closes
    rcases steps : steps l g ds (start g ds) with e | ⟨added, q⟩ <;> rw [steps] at closes
    · rcases closes with _ | ⟨orderly, -⟩
      exact ⟨names ▸ orderly.nested, orderly.once, nofun⟩
    · rcases closes with kept | _
      exact ⟨names ▸ kept.nested, kept.once, fun _ _ => perm_of_steps takes steps kept⟩
  · obtain ⟨takes, run⟩ := steps_of_cycle refused
    obtain ⟨j, -, closes⟩ := exists_journal l g ds le_rfl
    rw [run] at closes
    rcases closes with _ | ⟨-, cycle⟩
    exact ⟨_, batch?_eq_ok.mpr ⟨rfl, takes⟩, cycle path rfl⟩

theorem addTypes_journal_of_loop :
    let first : Declaration := { DeclarationOf.named "a" with extends? := some (.name "b") }
    let kind : Declaration := { DeclarationOf.blank with extends? := some (.name "c") }
    let second : Declaration :=
      { DeclarationOf.named "b" with properties := some [("kind", .inline kind)] }
    let third : Declaration := { DeclarationOf.named "c" with anyOf := some [.name "a"] }
    let batch : Batch := [("a", 14, first), ("b", 15, second), ("c", 16, third)]
    initial.batch? Graph.initial.next [] [first, second, third] = .ok batch ∧
      (∃ j : Journal, j.map Begun.stack = [["a"], ["a", "b"], ["a", "b", "c"]] ∧
        (j.map Begun.name).Nodup) ∧
      initial.addTypes .initial [first, second, third] =
        .error (.dependencyCycle ["a", "b", "c", "a"]) ∧ batch.Cycle ["a", "b", "c", "a"] := by
  intro first kind second third batch
  have accepted : initial.batch? Graph.initial.next [] [first, second, third] = .ok batch := by cbv
  have refused : initial.addTypes .initial [first, second, third] =
      .error (.dependencyCycle ["a", "b", "c", "a"]) := by cbv
  have journal := addTypes_journal initial .initial [first, second, third]
  refine ⟨accepted, ?_, refused, ?_⟩
  · obtain ⟨result, j, run, -, -, once, -⟩ := journal.1 batch accepted 3 le_rfl
    refine ⟨j, ?_, once⟩
    have walked : (Journaled.resolveBatch initial.types batch 3 (Keyed.keys batch)
        ⟨Graph.initial.next + batch.length, [], []⟩).map (fun r => r.2.map Begun.stack) =
          some [["a"], ["a", "b"], ["a", "b", "c"]] := by cbv
    rw [run] at walked
    exact Option.some.inj walked
  · obtain ⟨batch', accepted', cycle⟩ := journal.2 _ refused
    obtain rfl := Except.ok.inj (accepted.symm.trans accepted')
    exact cycle

end Library

end Schemata

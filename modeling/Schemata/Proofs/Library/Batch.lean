import Schemata.Library.Basic
import Schemata.Proofs.Related

/-! Batches: which declarations a library takes, and `addTypes` as look-ups followed by the binding
of forward references. Names must be new to the library and distinct, in any order. -/

namespace Schemata

def DeclarationOf.key (d : Declaration) : String := d.name.getD ""

namespace Batch

def numbered (next : Nat) : List Declaration → Batch
  | [] => []
  | d :: rest => (d.key, (next, d)) :: numbered (next + 1) rest

variable {next id id' : Nat} {ds : List Declaration} {d d' : Declaration} {a b : String}

theorem keys_numbered (next : Nat) (ds : List Declaration) :
    Keyed.keys (numbered next ds) = ds.map DeclarationOf.key := by
  induction ds generalizing next with
  | nil => rfl
  | cons d rest ih =>
    simp only [Keyed.keys] at ih
    rw [numbered, Keyed.keys, List.map_cons, ih, List.map_cons]

theorem length_numbered (next : Nat) (ds : List Declaration) :
    (numbered next ds).length = ds.length := by
  induction ds generalizing next with
  | nil => rfl
  | cons d rest ih => rw [numbered, List.length_cons, ih, List.length_cons]

theorem of_get?_numbered (h : Keyed.get? (numbered next ds) a = some (id, d)) :
    d ∈ ds ∧ d.key = a ∧ next ≤ id ∧ id < next + ds.length := by
  induction ds generalizing next with
  | nil => cases h
  | cons e rest ih =>
    rw [numbered, Keyed.get?] at h
    split at h
    · rename_i ha
      obtain ⟨rfl, rfl⟩ := Prod.mk.inj (Option.some.inj h)
      refine ⟨List.mem_cons_self, ha, Nat.le_refl _, ?_⟩
      simp only [List.length_cons]
      omega
    · obtain ⟨mem, ha, le, lt⟩ := ih h
      refine ⟨List.mem_cons_of_mem _ mem, ha, by omega, ?_⟩
      simp only [List.length_cons]
      omega

theorem get?_numbered_of_mem (nodup : (ds.map DeclarationOf.key).Nodup) (mem : d ∈ ds) :
    ∃ id, Keyed.get? (numbered next ds) d.key = some (id, d) := by
  induction ds generalizing next with
  | nil => cases mem
  | cons e rest ih =>
    obtain ⟨apart, nodup⟩ := List.nodup_cons.mp nodup
    rw [numbered, Keyed.get?]
    rcases List.mem_cons.mp mem with rfl | mem
    · exact ⟨next, if_pos rfl⟩
    · have ne : e.key ≠ d.key := fun h => apart (h ▸ List.mem_map_of_mem mem)
      rw [if_neg ne]
      exact ih nodup mem

theorem eq_of_get?_numbered (h : Keyed.get? (numbered next ds) a = some (id, d))
    (h' : Keyed.get? (numbered next ds) b = some (id, d')) : a = b := by
  induction ds generalizing next with
  | nil => cases h
  | cons e rest ih =>
    rw [numbered, Keyed.get?] at h h'
    split at h <;> split at h'
    · rename_i ha hb
      exact ha.symm.trans hb
    · obtain ⟨rfl, rfl⟩ := Prod.mk.inj (Option.some.inj h)
      have := (of_get?_numbered h').2.2.1
      omega
    · obtain ⟨rfl, rfl⟩ := Prod.mk.inj (Option.some.inj h')
      have := (of_get?_numbered h).2.2.1
      omega
    · exact ih h h'

theorem bindEach_eq_ok {built : Keyed Node} {forwards : List (NodeId × String)}
    {bindings : List (NodeId × Node)} :
    bindEach built forwards = .ok bindings ↔
      List.Forall₂ (fun f b => f.1 = b.1 ∧ Keyed.get? built f.2 = some b.2) forwards bindings := by
  induction forwards generalizing bindings with
  | nil =>
    rw [bindEach, Except.ok.injEq]
    constructor
    · rintro rfl
      exact .nil
    · rintro ⟨⟩
      rfl
  | cons f rest ih =>
    obtain ⟨id, name⟩ := f
    rw [bindEach]
    rcases hb : Keyed.get? built name with _ | n
    · constructor
      · rintro ⟨⟩
      · rintro ⟨⟩
        rename_i h _
        rw [hb] at h
        cases h.2
    · rcases hr : bindEach built rest with e | others
      · constructor
        · rintro ⟨⟩
        · rintro ⟨⟩
          rename_i h
          rw [ih.mpr h] at hr
          cases hr
      · constructor
        · intro h
          obtain rfl := Except.ok.inj h
          exact .cons ⟨rfl, hb⟩ (ih.mp hr)
        · rintro ⟨⟩
          rename_i e found h
          obtain ⟨rfl, found⟩ := found
          obtain rfl := Except.ok.inj (hr.symm.trans (ih.mpr h))
          obtain rfl := Option.some.inj (hb.symm.trans found)
          rfl

/-- Binding never fails once every name that a forward reference waits for is built. -/
theorem exists_bindEach {built : Keyed Node} {forwards : List (NodeId × String)}
    (h : ∀ f ∈ forwards, Keyed.hasKey built f.2 = true) :
    ∃ bindings, bindEach built forwards = .ok bindings := by
  suffices all : ∃ bindings : List (NodeId × Node), List.Forall₂
      (fun f b => f.1 = b.1 ∧ Keyed.get? built f.2 = some b.2) forwards bindings by
    obtain ⟨bindings, all⟩ := all
    exact ⟨bindings, bindEach_eq_ok.mpr all⟩
  induction forwards with
  | nil => exact ⟨[], .nil⟩
  | cons f rest ih =>
    obtain ⟨n, hn⟩ := Option.isSome_iff_exists.mp (h f List.mem_cons_self)
    obtain ⟨others, all⟩ := ih fun f hf => h f (List.mem_cons_of_mem _ hf)
    exact ⟨(f.1, n) :: others, .cons ⟨rfl, hn⟩ all⟩

end Batch

namespace Library

/-- Declarations whose names a library can take. -/
structure Takes (l : Library) (ds : List Declaration) : Prop where
  valid : ∀ d ∈ ds, isName d.key = true ∧ l.contains d.key = false
  nodup : (ds.map DeclarationOf.key).Nodup

theorem Takes.perm {l : Library} {ds ds' : List Declaration} (perm : ds.Perm ds') (h : l.Takes ds) :
    l.Takes ds' :=
  ⟨fun d hd => h.valid d (perm.mem_iff.mpr hd), (perm.map _).nodup_iff.mp h.nodup⟩

theorem Takes.new {l : Library} {ds : List Declaration} (h : l.Takes ds) {d : Declaration}
    (hd : d ∈ ds) : Keyed.get? l.types d.key = none := by
  have free := (h.valid d hd).2
  rwa [contains, Keyed.hasKey, Option.isSome_eq_false_iff, Option.isNone_iff_eq_none] at free

theorem contains_eq_false_iff {l : Library} {name : String} : l.contains name = false ↔ name ∉ l.names := by
  rw [← Bool.not_eq_true, contains, Keyed.hasKey_iff_mem_keys, names]

theorem batch?_cons (l : Library) (next : NodeId) (batch : Batch) (d : Declaration) (rest : List Declaration) :
    l.batch? next batch (d :: rest) =
      if isName d.key = false then .error (.invalidName d.key)
      else if d.key ∈ l.names ∨ d.key ∈ Keyed.keys batch then .error (.duplicateName d.key)
      else l.batch? (next + 1) (batch ++ [(d.key, (next, d))]) rest := by
  change (if (!isName d.key) = true then Except.error (TypeError.invalidName d.key)
    else if (l.contains d.key || Keyed.hasKey batch d.key) = true then
      Except.error (TypeError.duplicateName d.key)
    else l.batch? (next + 1) (batch ++ [(d.key, (next, d))]) rest) = _
  simp only [Bool.not_eq_true', Bool.or_eq_true, contains, Keyed.hasKey_iff_mem_keys]
  rfl

theorem batch?_eq_ok_of {l : Library} {next : NodeId} {batch result : Batch}
    {ds : List Declaration} : l.batch? next batch ds = .ok result ↔
      result = batch ++ Batch.numbered next ds ∧
        (∀ d ∈ ds, isName d.key = true ∧ l.contains d.key = false ∧ d.key ∉ Keyed.keys batch) ∧
          (ds.map DeclarationOf.key).Nodup := by
  induction ds generalizing next batch with
  | nil =>
    rw [batch?, Except.ok.injEq, Batch.numbered, List.append_nil]
    constructor
    · rintro rfl
      exact ⟨rfl, by simp, List.nodup_nil⟩
    · rintro ⟨rfl, -⟩
      rfl
  | cons d rest ih =>
    have step : batch ++ [(d.key, (next, d))] ++ Batch.numbered (next + 1) rest =
        batch ++ Batch.numbered next (d :: rest) := by
      rw [List.append_assoc]
      rfl
    have extended (e : Declaration) : e.key ∉ Keyed.keys (batch ++ [(d.key, (next, d))]) ↔
        e.key ∉ Keyed.keys batch ∧ e.key ≠ d.key := by
      simp [Keyed.keys]
    rw [List.map_cons, List.nodup_cons, batch?_cons]
    split
    · rename_i unnamed
      constructor
      · rintro ⟨⟩
      · rintro ⟨-, all, -⟩
        simp [(all d List.mem_cons_self).1] at unnamed
    · split
      · rename_i taken
        constructor
        · rintro ⟨⟩
        · rintro ⟨-, all, -⟩
          obtain ⟨-, free, apart⟩ := all d List.mem_cons_self
          exact absurd (taken.resolve_left (contains_eq_false_iff.mp free)) apart
      · rename_i named untaken
        rw [not_or, ← contains_eq_false_iff] at untaken
        rw [Bool.not_eq_false] at named
        rw [ih, step]
        constructor
        · rintro ⟨rfl, all, nodup⟩
          refine ⟨rfl, fun e he => ?_, fun mem => ?_, nodup⟩
          · rcases List.mem_cons.mp he with rfl | he
            · exact ⟨named, untaken⟩
            · obtain ⟨valid, free, apart⟩ := all e he
              exact ⟨valid, free, ((extended e).mp apart).1⟩
          · obtain ⟨e, he, same⟩ := List.mem_map.mp mem
            exact ((extended e).mp (all e he).2.2).2 same
        · rintro ⟨rfl, all, fresh, nodup⟩
          refine ⟨rfl, fun e he => ?_, nodup⟩
          obtain ⟨valid, free, apart⟩ := all e (List.mem_cons_of_mem _ he)
          refine ⟨valid, free, (extended e).mpr ⟨apart, fun same => fresh ?_⟩⟩
          exact same ▸ List.mem_map_of_mem he

theorem batch?_eq_ok {l : Library} {next : NodeId} {batch : Batch} {ds : List Declaration} :
    l.batch? next [] ds = .ok batch ↔ batch = Batch.numbered next ds ∧ l.Takes ds := by
  rw [batch?_eq_ok_of, List.nil_append]
  refine and_congr_right fun _ => ⟨fun h => ⟨fun d hd => ?_, h.2⟩, fun h => ⟨fun d hd => ?_, h.nodup⟩⟩
  · exact ⟨(h.1 d hd).1, (h.1 d hd).2.1⟩
  · exact ⟨(h.valid d hd).1, (h.valid d hd).2, List.not_mem_nil⟩

end Library
end Schemata

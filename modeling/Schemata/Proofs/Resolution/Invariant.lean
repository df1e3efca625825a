import Schemata.Proofs.Resolution.Building

/-! The invariant of resolution. At every point each built name has a node that its declaration
describes, no name on the stack is built, and every forward reference waits for a name that is
built or on the stack. A look-up keeps this, whatever the stack; so once the stack is empty, all
forward references can be bound. -/

namespace Schemata.Batch

def known (types : Keyed Node) (batch : Batch) (stack : List String) (p : Progress) : Known where
  direct a n := Keyed.get? p.built a = some n ∨ Keyed.get? types a = some n
  forward id a :=
    (id, a) ∈ p.forwards ∧ (∃ d, Keyed.get? batch a = some (id, d)) ∧
      (a ∈ stack ∨ Keyed.hasKey p.built a = true)

structure Sound (types : Keyed Node) (batch : Batch) (stack : List String) (p : Progress) :
    Prop where
  built : ∀ a n, Keyed.get? p.built a = some n →
    ∃ id d, Keyed.get? batch a = some (id, d) ∧ d.Describes (known types batch stack p) id n
  apart : ∀ a ∈ stack, Keyed.get? p.built a = none
  forwards : ∀ e ∈ p.forwards, (known types batch stack p).forward e.1 e.2
  numbered : ∀ a id d, Keyed.get? batch a = some (id, d) → id < p.next

def regime (types : Keyed Node) (batch : Batch) (stack : List String) : Regime :=
  ⟨Sound types batch stack, known types batch stack⟩

def within (types : Keyed Node) (batch : Batch) (fuel : Nat) (stack : List String) : Scope :=
  ⟨lookUp types batch fuel stack, fun other =>
    if stack.contains other then (Keyed.get? batch other).map Prod.fst else none⟩

variable {types : Keyed Node} {batch : Batch} {fuel : Nat} {stack : List String} {name : String}
  {p q : Progress} {n : Node}

def known? (built types : Keyed Node) (name : String) : Option Node :=
  (Keyed.get? built name).or (Keyed.get? types name)

theorem lookUp_of_known (found : known? p.built types name = some n) :
    lookUp types batch fuel stack name p = .ok (n, p) := by
  rw [lookUp.eq_def]
  refine (Building.get_bind _ p).trans ?_
  unfold known? at found
  rcases hb : Keyed.get? p.built name with _ | m
  · rw [hb, Option.none_or] at found
    rw [found]
    rfl
  · rw [hb, Option.some_or] at found
    obtain rfl := Option.some.inj found
    rfl

theorem lookUp_of_new (fuel : Nat) (unknown : known? p.built types name = none)
    (apart : name ∉ stack) {id : NodeId} {d : Declaration}
    (hd : Keyed.get? batch name = some (id, d)) :
    lookUp types batch (fuel + 1) stack name p =
      ((within types batch fuel (stack ++ [name])).build id d p).map fun r =>
        (r.1, { r.2 with built := Keyed.insert r.2.built name r.1 }) := by
  obtain ⟨hb, ht⟩ := Option.or_eq_none_iff.mp unknown
  have free : stack.contains name = false := by simpa using apart
  rw [lookUp.eq_def]
  refine (Building.get_bind _ p).trans ?_
  rw [hb, ht]
  dsimp only
  rw [free, hd]
  change ((within types batch fuel (stack ++ [name])).build id d p).bind _ = _
  rcases (within types batch fuel (stack ++ [name])).build id d p with e | r <;> rfl

theorem lookUp_eq_ok (run : lookUp types batch fuel stack name p = .ok (n, q)) :
    (known types batch stack p).direct name n ∧ q = p ∨
      Keyed.get? p.built name = none ∧ Keyed.get? types name = none ∧ name ∉ stack ∧
        ∃ fuel' id d q', fuel = fuel' + 1 ∧ Keyed.get? batch name = some (id, d) ∧
          (within types batch fuel' (stack ++ [name])).build id d p = .ok (n, q') ∧
          q = { q' with built := Keyed.insert q'.built name n } := by
  rcases found : known? p.built types name with _ | m
  · obtain ⟨hb, ht⟩ := Option.or_eq_none_iff.mp found
    rw [lookUp.eq_def] at run
    replace run := (Building.get_bind _ p).symm.trans run
    simp only [hb, ht] at run
    split at run
    · cases run
    · rename_i hs
      rcases fuel with _ | fuel'
      · cases run
      · rcases hg : Keyed.get? batch name with _ | ⟨id, d⟩
        · simp only [hg] at run
          cases run
        · simp only [hg] at run
          obtain ⟨m, q', first, second⟩ := Building.bind_eq_ok.mp run
          obtain ⟨_, _, hset, second⟩ := Building.bind_eq_ok.mp second
          obtain ⟨rfl, rfl⟩ := Prod.mk.inj (Except.ok.inj hset)
          obtain ⟨rfl, rfl⟩ := Building.pure_eq_ok.mp second
          exact .inr ⟨hb, ht, by simpa using hs, fuel', id, d, q', rfl, rfl, first, rfl⟩
  · rw [lookUp_of_known found] at run
    obtain ⟨rfl, rfl⟩ := Prod.mk.inj (Except.ok.inj run)
    exact .inl ⟨(Option.or_eq_some_iff.mp found).imp_right And.right, rfl⟩

theorem known_mono {stack' : List String} (built : ∀ a m, Keyed.get? p.built a = some m →
      Keyed.get? q.built a = some m) (forwards : p.forwards ⊆ q.forwards)
    (waits : ∀ a ∈ stack, a ∈ stack' ∨ Keyed.hasKey q.built a = true) :
    known types batch stack p ≤ known types batch stack' q := by
  constructor
  · rintro a m (h | h)
    · exact .inl (built a m h)
    · exact .inr h
  · rintro id a ⟨hf, hd, h | h⟩
    · exact ⟨forwards hf, hd, waits a h⟩
    · obtain ⟨m, hm⟩ := Option.isSome_iff_exists.mp h
      exact ⟨forwards hf, hd, .inr (Option.isSome_iff_exists.mpr ⟨m, built a m hm⟩)⟩

theorem Sound.push (h : Sound types batch stack p) (hb : Keyed.get? p.built name = none) :
    Sound types batch (stack ++ [name]) p := by
  have le : known types batch stack p ≤ known types batch (stack ++ [name]) p :=
    known_mono (fun _ _ h => h) (fun _ h => h) fun a ha => .inl (List.mem_append_left _ ha)
  refine ⟨fun a n hn => ?_, fun a ha => ?_, fun e he => le.2 _ _ (h.forwards e he),
    h.numbered⟩
  · obtain ⟨id, d, hd, hn⟩ := h.built a n hn
    exact ⟨id, d, hd, hn.mono le⟩
  · rcases List.mem_append.mp ha with ha | ha
    · exact h.apart a ha
    · exact List.mem_singleton.mp ha ▸ hb

theorem Sound.pop (h : Sound types batch (stack ++ [name]) p) (hs : name ∉ stack)
    {id : NodeId} {d : Declaration} (hg : Keyed.get? batch name = some (id, d))
    (hn : d.Describes (known types batch (stack ++ [name]) p) id n) :
    let q := { p with built := Keyed.insert p.built name n }
    Sound types batch stack q ∧
      known types batch (stack ++ [name]) p ≤ known types batch stack q := by
  intro q
  have hb : Keyed.get? p.built name = none := h.apart name (by simp)
  have built : ∀ a m, Keyed.get? p.built a = some m → Keyed.get? q.built a = some m := by
    intro a m hm
    rw [Keyed.get?_insert, if_neg]
    · exact hm
    · rintro rfl
      rw [hb] at hm
      cases hm
  have le : known types batch (stack ++ [name]) p ≤ known types batch stack q := by
    refine known_mono built (fun _ h => h) fun a ha => ?_
    rcases List.mem_append.mp ha with ha | ha
    · exact .inl ha
    · obtain rfl := List.mem_singleton.mp ha
      exact .inr (by simp [q, Keyed.hasKey])
  refine ⟨⟨fun a m hm => ?_, fun a ha => ?_, fun e he => le.2 _ _ (h.forwards e he),
    h.numbered⟩, le⟩
  · by_cases ha : name = a
    · subst ha
      rw [Keyed.get?_insert_self] at hm
      obtain rfl := Option.some.inj hm
      exact ⟨id, d, hg, hn.mono le⟩
    · rw [Keyed.get?_insert, if_neg ha] at hm
      obtain ⟨id, d, hd, hn⟩ := h.built a m hm
      exact ⟨id, d, hd, hn.mono le⟩
  · rw [Keyed.get?_insert, if_neg]
    · exact h.apart a (List.mem_append_left _ ha)
    · rintro rfl
      exact hs ha

theorem within_keeps (lookUps : ∀ a, Yields (regime types batch stack)
    (lookUp types batch fuel stack a) fun k n => k.direct a n) :
    (within types batch fuel stack).Keeps (regime types batch stack) := by
  refine ⟨lookUps, fun a id hid => ?_, ?_⟩
  · rintro p x q hp run
    obtain ⟨rfl, rfl⟩ := Prod.mk.inj (Except.ok.inj run)
    have le : known types batch stack p ≤
        known types batch stack { p with forwards := p.forwards ++ [(id, a)] } :=
      known_mono (fun _ _ h => h) (fun _ h => List.mem_append_left _ h) fun _ h => .inl h
    have waits : (∃ d, Keyed.get? batch a = some (id, d)) ∧ a ∈ stack := by
      simp only [within] at hid
      split at hid
      · obtain ⟨e, he, rfl⟩ := Option.map_eq_some_iff.mp hid
        exact ⟨⟨e.2, he⟩, by simpa using ‹stack.contains a = true›⟩
      · cases hid
    have last : (known types batch stack
        { p with forwards := p.forwards ++ [(id, a)] }).forward id a :=
      ⟨by simp, waits.1, .inl waits.2⟩
    refine ⟨⟨fun b m hm => ?_, hp.apart, fun e he => ?_, hp.numbered⟩, le, rfl, last⟩
    · obtain ⟨id, d, hd, hm⟩ := hp.built b m hm
      exact ⟨id, d, hd, hm.mono le⟩
    · rcases List.mem_append.mp he with he | he
      · exact le.2 _ _ (hp.forwards e he)
      · obtain rfl := List.mem_singleton.mp he
        exact last
  · rintro p id q hp run
    obtain ⟨rfl, rfl⟩ := Prod.mk.inj (Except.ok.inj run)
    exact ⟨⟨hp.built, hp.apart, hp.forwards, fun a id d h => Nat.lt_trans (hp.numbered a id d h)
      (Nat.lt_succ_self _)⟩, Known.le_refl _, trivial⟩

theorem lookUp_yields (fuel : Nat) : ∀ stack name, Yields (regime types batch stack)
    (lookUp types batch fuel stack name) fun k n => k.direct name n := by
  -- For every stack at once: a name that is built now is first pushed on it.
  induction fuel with
  | zero =>
    intro stack name p n q hp run
    obtain ⟨h, rfl⟩ | ⟨_, _, _, fuel', _, _, _, h, _⟩ := lookUp_eq_ok run
    · exact ⟨hp, Known.le_refl _, h⟩
    · cases h
  | succ fuel ih =>
    intro stack name p n q hp run
    obtain ⟨h, rfl⟩ | ⟨hb, _, hs, fuel', id, d, q', hf, hg, run, rfl⟩ := lookUp_eq_ok run
    · exact ⟨hp, Known.le_refl _, h⟩
    · obtain rfl := Nat.succ.inj hf
      have keeps := within_keeps (ih (stack ++ [name]))
      obtain ⟨hq', le, hn⟩ := Scope.build_yields keeps id d p n q' (hp.push hb) run
      obtain ⟨hq, le'⟩ := hq'.pop hs hg hn
      refine ⟨hq, Known.le_trans ?_ (Known.le_trans le le'), .inl ?_⟩
      · exact known_mono (fun _ _ h => h) (fun _ h => h) fun a ha => .inl (List.mem_append_left _ ha)
      · simp

theorem within_keeps_regime (fuel : Nat) (stack : List String) :
    (within types batch fuel stack).Keeps (regime types batch stack) :=
  within_keeps (lookUp_yields fuel stack)

theorem sound_start {next : NodeId}
    (numbered : ∀ a id d, Keyed.get? batch a = some (id, d) → id < next) :
    Sound types batch [] ⟨next, [], []⟩ where
  built _ _ h := nomatch h
  apart _ h := nomatch h
  forwards _ h := nomatch h
  numbered := numbered

theorem lookUpEach_yields (names : List String) : Yields (regime types batch [])
    (lookUpEach (scope types batch) names)
    fun k nodes => List.Forall₂ (fun a n => k.direct a n) names nodes := by
  rw [lookUpEach_eq]
  exact Yields.mapM (fun a k k' n le h => le.1 a n h) names fun a _ =>
    (within_keeps_regime batch.length []).lookUp a

end Schemata.Batch

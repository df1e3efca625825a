import Schemata.Proofs.Facet.Tidy
import Schemata.Proofs.Number.Order

/-! Merges one after the other. What several sources pass on is merged in their order, and what refines it
goes on top; here is what comes of that, for any number of sources, for each way to merge. -/

namespace Schemata

namespace Merge

def gather {F : Type} (merge : MergeMode → F → F → F) (empty : F) (sources : List F)
    (own? : Option F) : F :=
  let inherited := sources.foldl (merge .inherit) empty
  own?.elim inherited (merge .refine inherited)

theorem gather_hom {F G : Type} {merge : MergeMode → F → F → F} (merge' : MergeMode → G → G → G)
    (p : F → G) (each : ∀ mode t s, p (merge mode t s) = merge' mode (p t) (p s)) (empty : F)
    (sources : List F) (own? : Option F) :
    p (gather merge empty sources own?) = gather merge' (p empty) (sources.map p) (own?.map p) := by
  have inherited : p (sources.foldl (merge .inherit) empty) =
      (sources.map p).foldl (merge' .inherit) (p empty) := by
    rw [List.foldl_map]
    exact (List.foldl_hom p fun t s => (each .inherit t s).symm).symm
  unfold gather
  dsimp only
  rw [← inherited]
  cases own? with
  | none => rfl
  | some own => exact each .refine _ own

section

variable {α : Type} {keeps : α → α → Bool} {sound : α → Bool} {row : List α} {found : Option α}

/-! Single facets. -/

theorem gather_singular (sources : List (Option α)) (own? : Option (Option α)) :
    gather singular none sources own? = (own?.toList ++ sources).findSome? id := by
  have inherited (start : Option α) :
      sources.foldl (singular .inherit) start = start.or (sources.findSome? id) := by
    induction sources generalizing start with
    | nil => exact Option.or_none.symm
    | cons s rest ih =>
      rw [List.foldl_cons, ih, List.findSome?_cons]
      cases start <;> cases s <;> rfl
  unfold gather
  rw [inherited, List.findSome?_append, Option.none_or]
  rcases own? with _ | _ | own <;> rfl

/-! Bounds. -/

/-- An order with exceptional elements (NaN bounds) that compare with nothing and give way to
whatever is merged later. -/
structure Ranks (keeps : α → α → Bool) (sound : α → Bool) : Prop where
  gives : ∀ {t}, sound t = false → ∀ s, keeps t s = false
  taken : ∀ {s}, sound s = false → ∀ t, keeps t s = false
  refl : ∀ {s}, sound s = true → keeps s s = true
  wider : ∀ {t s r}, sound t = true → sound s = true → sound r = true → keeps t s = false →
    keeps t r = true → keeps s r = true

/-- The bound that a fold leaves: the widest behind the last exceptional one, or that one itself at
the end. -/
structure Widest (keeps : α → α → Bool) (sound : α → Bool) (row : List α) (found : Option α) :
    Prop where
  last : row.rtakeWhile sound = [] → found = row.getLast?
  widest : row.rtakeWhile sound ≠ [] → ∃ b ∈ row.rtakeWhile sound, found = some b ∧
    ∀ s ∈ row.rtakeWhile sound, keeps b s = true

theorem Widest.of_sound (h : Widest keeps sound row found) (all : ∀ s ∈ row, sound s = true) :
    (found = none ↔ row = []) ∧ ∀ b ∈ found, b ∈ row ∧ ∀ s ∈ row, keeps b s = true := by
  have whole : row.rtakeWhile sound = row := List.rtakeWhile_eq_self_iff.mpr all
  obtain ⟨last, widest⟩ := h
  rw [whole] at last widest
  rcases eq_or_ne row [] with rfl | nonempty
  · rw [last rfl]
    exact ⟨iff_of_true rfl rfl, nofun⟩
  · obtain ⟨b, hb, rfl, wide⟩ := widest nonempty
    refine ⟨iff_of_false nofun nonempty, fun _ same => ?_⟩
    obtain rfl := Option.some.inj same
    exact ⟨hb, wide⟩

theorem bound_of_not_keeps {s : α} (apart : ∀ t ∈ found, keeps t s = false) :
    bound keeps .refine found (some s) = some s := by
  cases found with
  | none => rfl
  | some t =>
    rw [bound, apart t rfl]
    rfl

theorem bound_of_keeps {b s : α} (kept : keeps b s = true) :
    bound keeps .refine (some b) (some s) = some b := by
  rw [bound, kept]
  rfl

theorem unsound_of_last (none : row.rtakeWhile sound = []) : ∀ t ∈ row.getLast?, sound t = false := by
  intro t ht
  obtain ⟨nonempty, rfl⟩ := List.mem_getLast?_eq_getLast ht
  exact Bool.eq_false_iff.mpr (List.rtakeWhile_eq_nil_iff.mp none nonempty)

theorem Widest.exists_of_sound (ranks : Ranks keeps sound) (h : Widest keeps sound row found) {s : α}
    (hs : sound s = true) : ∃ b ∈ row.rtakeWhile sound ++ [s],
      bound keeps .refine found (some s) = some b ∧
        ∀ r ∈ row.rtakeWhile sound ++ [s], keeps b r = true := by
  have mem : s ∈ row.rtakeWhile sound ++ [s] := List.mem_append_right _ (List.mem_singleton_self s)
  by_cases none : row.rtakeWhile sound = []
  · refine ⟨s, mem, bound_of_not_keeps fun t ht => ?_, fun r hr => ?_⟩
    · rw [h.last none] at ht
      exact ranks.gives (unsound_of_last none t ht) s
    · rw [none] at hr
      obtain rfl := List.mem_singleton.mp hr
      exact ranks.refl hs
  · obtain ⟨b, hb, rfl, wide⟩ := h.widest none
    have sounds {r} (hr : r ∈ row.rtakeWhile sound) := List.mem_rtakeWhile_imp hr
    rcases kept : keeps b s with _ | _
    · refine ⟨s, mem, bound_of_not_keeps fun t ht => Option.some.inj ht ▸ kept, fun r hr => ?_⟩
      rcases List.mem_append.mp hr with hr | hr
      · exact ranks.wider (sounds hb) hs (sounds hr) kept (wide r hr)
      · obtain rfl := List.mem_singleton.mp hr
        exact ranks.refl hs
    · refine ⟨b, List.mem_append_left _ hb, bound_of_keeps kept, fun r hr => ?_⟩
      rcases List.mem_append.mp hr with hr | hr
      · exact wide r hr
      · exact List.mem_singleton.mp hr ▸ kept

theorem Widest.append (ranks : Ranks keeps sound) (h : Widest keeps sound row found) (s : α) :
    Widest keeps sound (row ++ [s]) (bound keeps .refine found (some s)) := by
  rcases hs : sound s with _ | _
  · have none : (row ++ [s]).rtakeWhile sound = [] :=
      List.rtakeWhile_concat_neg sound row s (Bool.eq_false_iff.mp hs)
    refine ⟨fun _ => ?_, fun some => absurd none some⟩
    rw [List.getLast?_concat, bound_of_not_keeps fun t _ => ranks.taken hs t]
  · have some := h.exists_of_sound ranks hs
    rw [← List.rtakeWhile_concat_pos sound row s hs] at some
    refine ⟨fun none => ?_, fun _ => some⟩
    obtain ⟨b, hb, -⟩ := some
    rw [none] at hb
    cases hb

theorem gather_bound (ranks : Ranks keeps sound) (sources : List (Option α))
    (own? : Option (Option α)) : Widest keeps sound ((sources ++ own?.toList).filterMap id)
      (gather (bound keeps) none sources own?) := by
  have all : gather (bound keeps) none sources own? =
      (sources ++ own?.toList).foldl (bound keeps .refine) none := by
    rw [List.foldl_append]
    cases own? <;> rfl
  rw [all]
  induction sources ++ own?.toList using List.reverseRecOn with
  | nil => exact ⟨fun _ => rfl, fun some => absurd rfl some⟩
  | append_singleton row s ih =>
    rw [List.foldl_append, List.filterMap_append]
    cases s with
    | none =>
      rw [List.filterMap_cons_none rfl, List.filterMap_nil, List.append_nil]
      exact ih
    | some s => exact ih.append ranks s

theorem ranks_lowerCount : Ranks (fun t s : Nat => decide (t ≤ s)) fun _ => true where
  gives := nofun
  taken := nofun
  refl _ := decide_eq_true (Nat.le_refl _)
  wider _ _ _ less le := by
    simp only [decide_eq_false_iff_not, decide_eq_true_eq] at less le ⊢
    omega

theorem ranks_upperCount : Ranks (fun t s : Nat => decide (s ≤ t)) fun _ => true where
  gives := nofun
  taken := nofun
  refl _ := decide_eq_true (Nat.le_refl _)
  wider _ _ _ more le := by
    simp only [decide_eq_false_iff_not, decide_eq_true_eq] at more le ⊢
    omega

theorem ranks_lowerNumber : Ranks (fun t s : Number => t.le s) fun n => !n.isNaN where
  gives ht s := Number.nan_le (by simpa using ht) s
  taken hs t := Number.le_nan (by simpa using hs) t
  refl hs := Number.le_self (by simpa using hs)
  wider ht hs hr less le := by
    simp only [Bool.not_eq_true'] at ht hs hr
    have below := (Number.le_total ht hs).resolve_left (by rw [less]; exact Bool.false_ne_true)
    exact Number.le_trans_of_strict hs ht hr below le (.inl less)

theorem ranks_upperNumber : Ranks (fun t s : Number => s.le t) fun n => !n.isNaN where
  gives ht s := Number.le_nan (by simpa using ht) s
  taken hs t := Number.nan_le (by simpa using hs) t
  refl hs := Number.le_self (by simpa using hs)
  wider ht hs hr more le := by
    simp only [Bool.not_eq_true'] at ht hs hr
    have above := (Number.le_total ht hs).resolve_right (by rw [more]; exact Bool.false_ne_true)
    exact Number.le_trans_of_strict hr ht hs le above (.inr more)

/-! Lists. -/

theorem append_eq_eraseDupsBy (same : α → α → Bool) (list : List α) :
    append same [] list = list.eraseDupsBy fun x y => same y x := by
  have loop (target : List α) : append same target list =
      List.eraseDupsBy.loop (fun x y => same y x) list target.reverse := by
    induction list generalizing target with
    | nil => rw [List.eraseDupsBy.loop, List.reverse_reverse]; rfl
    | cons x rest ih =>
      have step : append same target (x :: rest) =
        append same (if target.any (same · x) then target else target ++ [x]) rest := rfl
      rw [step, ih, List.eraseDupsBy.loop, List.any_reverse]
      split
      · rename_i there
        rw [there]
      · rename_i new
        rw [Bool.eq_false_iff.mpr new, List.reverse_concat]
  exact loop []

theorem gather_append (same : α → α → Bool) (sources : List (List α)) (own? : Option (List α)) :
    gather (fun _ => append same) [] sources own? =
      (sources ++ own?.toList).flatten.eraseDupsBy fun x y => same y x := by
  have joined (lists : List (List α)) (start : List α) :
      lists.foldl (append same) start = append same start lists.flatten := by
    induction lists generalizing start with
    | nil => rfl
    | cons list rest ih =>
      rw [List.foldl_cons, ih, List.flatten_cons]
      exact (List.foldl_append ..).symm
  rw [← append_eq_eraseDupsBy, ← joined, List.foldl_append]
  cases own? <;> rfl

theorem keys_entries (mode : MergeMode) (target source : Keyed α) :
    (entries mode target source).keys = append (· == ·) target.keys source.keys := by
  induction source generalizing target with
  | nil => rfl
  | cons e rest ih =>
    have step : entries mode target (e :: rest) = entries mode
      (if mode == .inherit && Keyed.hasKey target e.1 then target
        else Keyed.insert target e.1 e.2) rest := rfl
    have step' : append (· == ·) target.keys (Keyed.keys (e :: rest)) = append (· == ·)
      (if target.keys.any (· == e.1) then target.keys else target.keys ++ [e.1]) (Keyed.keys rest) := rfl
    rw [step, ih, step']
    congr 1
    have known : target.keys.any (· == e.1) = true ↔ e.1 ∈ target.keys := by simp
    by_cases there : e.1 ∈ target.keys
    · rw [if_pos (known.mpr there), apply_ite Keyed.keys, Keyed.keys_insert, if_pos there, ite_self]
    · have absent : Keyed.hasKey target e.1 = false :=
        Bool.eq_false_iff.mpr (mt Keyed.hasKey_iff_mem_keys.mp there)
      rw [if_neg (mt known.mp there), absent, Bool.and_false, if_neg Bool.false_ne_true,
        Keyed.keys_insert, if_neg there]

theorem get?_entries_inherit (target source : Keyed α) (key : String) :
    (entries .inherit target source).get? key = (target.get? key).or (source.get? key) := by
  induction source generalizing target with
  | nil => exact Option.or_none.symm
  | cons e rest ih =>
    have step : entries .inherit target (e :: rest) = entries .inherit
      (if Keyed.hasKey target e.1 then target else Keyed.insert target e.1 e.2) rest := rfl
    have look : Keyed.get? (e :: rest) key = if e.1 = key then some e.2 else Keyed.get? rest key := rfl
    rw [step, ih, look]
    by_cases same : e.1 = key
    · rw [if_pos same, same]
      rcases found : target.get? key with _ | v
      · have absent : Keyed.hasKey target key = false := by rw [Keyed.hasKey, found]; rfl
        rw [absent, if_neg Bool.false_ne_true, Keyed.get?_insert_self]
        rfl
      · have there : Keyed.hasKey target key = true := by rw [Keyed.hasKey, found]; rfl
        rw [there, if_pos rfl, found]
        rfl
    · rw [if_neg same, apply_ite (Keyed.get? · key), Keyed.get?_insert, if_neg same, ite_self]

theorem get?_entries_refine (target source : Keyed α) (key : String) :
    (entries .refine target source).get? key =
      ((Keyed.ofEntries source).get? key).or (target.get? key) := by
  rw [Keyed.get?_ofEntries]
  exact Keyed.get?_foldl_insert source target key

theorem keys_gather_entries (sources : List (Keyed α)) (own? : Option (Keyed α)) :
    (gather entries [] sources own?).keys =
      ((sources ++ own?.toList).flatMap Keyed.keys).eraseDups := by
  have turned : (fun x y : String => y == x) = (· == ·) := by
    funext x y
    exact BEq.comm
  have gathered := gather_append (· == ·) (sources.map Keyed.keys) (own?.map Keyed.keys)
  rw [turned] at gathered
  rw [gather_hom _ Keyed.keys keys_entries, List.flatMap_def, List.map_append, ← Option.toList_map]
  exact gathered

theorem get?_gather_entries (sources : List (Keyed α)) (own? : Option (Keyed α)) (key : String) :
    (gather entries [] sources own?).get? key =
      (own?.bind fun own => (Keyed.ofEntries own).get? key).or
        (sources.findSome? fun source => source.get? key) := by
  have inherited (start : Keyed α) : (sources.foldl (entries .inherit) start).get? key =
      (start.get? key).or (sources.findSome? fun source => source.get? key) := by
    induction sources generalizing start with
    | nil => exact Option.or_none.symm
    | cons source rest ih =>
      rw [List.foldl_cons, ih, get?_entries_inherit, Option.or_assoc, List.findSome?_cons]
      cases source.get? key <;> rfl
  cases own? with
  | none => exact inherited []
  | some own =>
    exact (get?_entries_refine _ own key).trans (congrArg _ (inherited []))

theorem gather_members (sources : List (List α)) (own? : Option (List α)) :
    gather members [] sources own? =
      ((own?.toList ++ sources).find? fun list => !list.isEmpty).getD [] := by
  have inherited (start : List α) : sources.foldl (members .inherit) start =
      ((start :: sources).find? fun list => !list.isEmpty).getD [] := by
    induction sources generalizing start with
    | nil => cases start <;> rfl
    | cons source rest ih =>
      rw [List.foldl_cons, ih]
      cases start <;> cases source <;> rfl
  have all : sources.foldl (members .inherit) [] = _ := inherited []
  unfold gather
  rw [all]
  rcases own? with _ | _ | ⟨m, rest⟩ <;> rfl

end

/-! Facets of what is gathered. -/

section

variable {F α : Type} {merge : MergeMode → F → F → F} {empty : F} {sources : List F} {own? : Option F}

theorem single_gather (p : F → Option α)
    (each : ∀ mode t s, p (merge mode t s) = singular mode (p t) (p s)) (absent : p empty = none) :
    p (gather merge empty sources own?) = (own?.toList ++ sources).findSome? p := by
  rw [gather_hom singular p each, absent, gather_singular, Option.toList_map, ← List.map_append,
    List.findSome?_map]
  rfl

theorem widest_gather (p : F → Option α) {keeps : α → α → Bool} {sound : α → Bool}
    (ranks : Ranks keeps sound) (each : ∀ mode t s, p (merge mode t s) = bound keeps mode (p t) (p s))
    (absent : p empty = none) : Widest keeps sound ((sources ++ own?.toList).filterMap p)
      (p (gather merge empty sources own?)) := by
  have widest := gather_bound ranks (sources.map p) (own?.map p)
  rw [← absent, ← gather_hom _ p each, Option.toList_map, ← List.map_append,
    List.filterMap_map] at widest
  exact widest

theorem least_gather (p : F → Option Nat)
    (each : ∀ mode t s, p (merge mode t s) = lowerCount mode (p t) (p s)) (absent : p empty = none) :
    p (gather merge empty sources own?) = ((sources ++ own?.toList).filterMap p).min? := by
  have widest : Widest _ _ _ (p (gather merge empty sources own?)) :=
    widest_gather p ranks_lowerCount each absent
  obtain ⟨none_iff, least⟩ := widest.of_sound fun _ _ => rfl
  rcases found : p (gather merge empty sources own?) with _ | b
  · exact (List.min?_eq_none_iff.mpr (none_iff.mp found)).symm
  · obtain ⟨mem, below⟩ := least b found
    exact (List.min?_eq_some_iff.mpr ⟨mem, fun s hs => of_decide_eq_true (below s hs)⟩).symm

theorem greatest_gather (p : F → Option Nat)
    (each : ∀ mode t s, p (merge mode t s) = upperCount mode (p t) (p s)) (absent : p empty = none) :
    p (gather merge empty sources own?) = ((sources ++ own?.toList).filterMap p).max? := by
  have widest : Widest _ _ _ (p (gather merge empty sources own?)) :=
    widest_gather p ranks_upperCount each absent
  obtain ⟨none_iff, greatest⟩ := widest.of_sound fun _ _ => rfl
  rcases found : p (gather merge empty sources own?) with _ | b
  · exact (List.max?_eq_none_iff.mpr (none_iff.mp found)).symm
  · obtain ⟨mem, above⟩ := greatest b found
    exact (List.max?_eq_some_iff.mpr ⟨mem, fun s hs => of_decide_eq_true (above s hs)⟩).symm

theorem listed_gather (p : F → List α) {same : α → α → Bool}
    (each : ∀ mode t s, p (merge mode t s) = append same (p t) (p s)) (absent : p empty = []) :
    p (gather merge empty sources own?) =
      ((sources ++ own?.toList).flatMap p).eraseDupsBy fun x y => same y x := by
  rw [gather_hom (fun _ => append same) p each, absent, gather_append, Option.toList_map,
    ← List.map_append, List.flatMap_def]

end

end Merge

end Schemata

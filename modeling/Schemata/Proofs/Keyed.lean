import Schemata.Keyed
import Schemata.Proofs.Related

/-! Insertion into entries: what is in the result, where a new key goes, and what a look-up gives after
many insertions. -/

namespace Schemata.Keyed

variable {α : Type} {entries : Keyed α} {key : String} {value : α}

theorem mem_insert {e : String × α} (h : e ∈ entries.insert key value) :
    e ∈ entries ∨ e = (key, value) := by
  induction entries with
  | nil => exact .inr (List.mem_singleton.mp h)
  | cons head rest ih =>
    rw [insert] at h
    split at h
    · rename_i same
      rcases List.mem_cons.mp h with rfl | h
      · exact .inr (by rw [same])
      · exact .inl (List.mem_cons_of_mem _ h)
    · rcases List.mem_cons.mp h with rfl | h
      · exact .inl List.mem_cons_self
      · exact (ih h).imp (List.mem_cons_of_mem _) id

theorem get?_of_mem (distinct : entries.Distinct) {e : String × α} (h : e ∈ entries) :
    entries.get? e.1 = some e.2 := by
  induction entries with
  | nil => cases h
  | cons head rest ih =>
    obtain ⟨new, distinct⟩ := List.nodup_cons.mp distinct
    rcases List.mem_cons.mp h with rfl | h
    · exact if_pos rfl
    · have other : head.1 ≠ e.1 := by
        intro same
        rw [same] at new
        exact new (List.mem_map_of_mem h)
      rw [get?, if_neg other]
      exact ih distinct h

theorem insert_of_not_mem (h : key ∉ entries.keys) :
    entries.insert key value = entries ++ [(key, value)] := by
  induction entries with
  | nil => rfl
  | cons head rest ih =>
    rw [keys, List.map_cons, List.mem_cons, not_or] at h
    rw [insert, if_neg (Ne.symm h.1), ih h.2]
    rfl

theorem mem_foldl_insert {source : Keyed α} {e : String × α}
    (h : e ∈ source.foldl (fun acc e => insert acc e.1 e.2) entries) : e ∈ entries ∨ e ∈ source := by
  induction source generalizing entries with
  | nil => exact .inl h
  | cons head rest ih =>
    rcases ih h with h | h
    · exact (mem_insert h).imp id fun same => List.mem_cons.mpr (.inl same)
    · exact .inr (List.mem_cons_of_mem _ h)

theorem mem_ofEntries {e : String × α} (h : e ∈ ofEntries entries) : e ∈ entries :=
  (mem_foldl_insert h).resolve_left List.not_mem_nil

theorem distinct_insert (distinct : entries.Distinct) : (entries.insert key value).Distinct := by
  unfold Distinct at distinct ⊢
  rw [keys_insert]
  split
  · exact distinct
  · rename_i new
    refine List.nodup_append.mpr ⟨distinct, List.pairwise_singleton _ key, fun a ha b hb same => ?_⟩
    rw [same, List.mem_singleton.mp hb] at ha
    exact new ha

theorem keys_append (entries more : Keyed α) : Keyed.keys (entries ++ more) = entries.keys ++ more.keys :=
  List.map_append

theorem foldl_insert_of_new {more : Keyed α} (new : ∀ e ∈ more, e.1 ∉ entries.keys)
    (distinct : more.Distinct) :
    more.foldl (fun t e => insert t e.1 e.2) entries = entries ++ more := by
  induction more generalizing entries with
  | nil => exact (List.append_nil entries).symm
  | cons e rest ih =>
    obtain ⟨apart, distinct⟩ := List.nodup_cons.mp distinct
    rw [List.foldl_cons, insert_of_not_mem (new e List.mem_cons_self), ih _ distinct,
      List.append_assoc, List.singleton_append]
    intro other member there
    rw [keys_append, List.mem_append] at there
    rcases there with there | there
    · exact new other (List.mem_cons_of_mem _ member) there
    · exact apart (List.mem_singleton.mp there ▸ List.mem_map_of_mem member)

theorem get?_append (entries more : Keyed α) (key : String) :
    Keyed.get? (entries ++ more) key = (entries.get? key).or (more.get? key) := by
  induction entries with
  | nil => rfl
  | cons e rest ih =>
    rw [List.cons_append, get?, get?, ih]
    split <;> rfl

theorem get?_map {β : Type} (f : α → β) (entries : Keyed α) (key : String) :
    Keyed.get? (entries.map fun (k, v) => (k, f v)) key = (entries.get? key).map f := by
  induction entries with
  | nil => rfl
  | cons e rest ih =>
    rw [List.map_cons, get?, get?, ih]
    split <;> rfl

theorem get?_eq_none_of_not_mem (new : key ∉ entries.keys) : entries.get? key = none :=
  Option.not_isSome_iff_eq_none.mp fun found => new (hasKey_iff_mem_keys.mp found)

theorem get?_foldl_insert (entries t : Keyed α) (key : String) :
    Keyed.get? (entries.foldl (fun t e => insert t e.1 e.2) t) key =
      (Keyed.get? entries.reverse key).or (t.get? key) := by
  induction entries generalizing t with
  | nil => rfl
  | cons e rest ih =>
    rw [List.foldl_cons, ih, get?_insert, List.reverse_cons, get?_append, Option.or_assoc]
    congr 1
    rw [get?]
    split <;> rfl

theorem get?_reverse (distinct : entries.Distinct) (key : String) :
    Keyed.get? entries.reverse key = entries.get? key := by
  induction entries with
  | nil => rfl
  | cons e rest ih =>
    obtain ⟨new, distinct⟩ := List.nodup_cons.mp distinct
    have look (list : Keyed α) : Keyed.get? (e :: list) key =
        if e.1 = key then some e.2 else list.get? key := rfl
    rw [List.reverse_cons, get?_append, ih distinct, look, look]
    by_cases same : e.1 = key
    · have absent : Keyed.get? rest key = none := get?_eq_none_of_not_mem (same ▸ new)
      rw [absent, if_pos same, if_pos same, Option.none_or]
    · rw [if_neg same, if_neg same]
      exact Option.or_none

theorem get?_ofEntries (entries : List (String × α)) (key : String) :
    (ofEntries entries).get? key = Keyed.get? entries.reverse key :=
  (get?_foldl_insert entries [] key).trans Option.or_none

theorem distinct_ofEntries (entries : List (String × α)) : (ofEntries entries).Distinct :=
  List.foldlRecOn (motive := Distinct) entries _ List.nodup_nil fun _ h _ _ => distinct_insert h

theorem get?_of_forall₂ {β : Type} {R : α → β → Prop} {more : Keyed β}
    (h : List.Forall₂ (fun e f => e.1 = f.1 ∧ R e.2 f.2) entries more) (key : String) :
    Option.Rel R (entries.get? key) (more.get? key) := by
  induction h with
  | nil => exact .none
  | @cons e f _ _ same _ ih =>
    rw [get?, get?, ← same.1]
    split
    · exact .some same.2
    · exact ih

end Schemata.Keyed

import Schemata.Proofs.Validation.Uniqueness

/-! `uniqueItems` under `coerceTypes`: the output has the first item of each JSON text, and
`minItems` and `maxItems` bound their number. -/

namespace Schemata

def Value.asList : Value → List Value
  | .array items => items
  | v => [v]

def ArrayFacets.Holds {ρ : Type} (f : ArrayFacets ρ) (count : Nat) : Prop :=
  (∀ min, f.minItems = some min → min ≤ count) ∧ ∀ max, f.maxItems = some max → count ≤ max

def firstTexts (taken : List Value) : List Value :=
  (taken.zipIdx.filter fun (w, i) => (taken.take i).all fun u => u.jsonText != w.jsonText).map Prod.fst

section FirstTexts

variable {taken : List Value} {w : Value}

theorem firstTexts_sublist (taken : List Value) : (firstTexts taken).Sublist taken := by
  have kept : (firstTexts taken).Sublist (taken.zipIdx.map Prod.fst) :=
    List.filter_sublist.map Prod.fst
  rwa [List.zipIdx_map_fst] at kept

theorem firstTexts_concat (taken : List Value) (w : Value) :
    firstTexts (taken ++ [w]) =
      firstTexts taken ++ if w.jsonText ∈ taken.map Value.jsonText then [] else [w] := by
  have before : ∀ e ∈ taken.zipIdx, (taken ++ [w]).take e.2 = taken.take e.2 := by
    rintro ⟨u, i⟩ he
    have bound : i < taken.length := by simpa using List.snd_lt_of_mem_zipIdx he
    exact List.take_append_of_le_length (Nat.le_of_lt bound)
  unfold firstTexts
  rw [List.zipIdx_append, List.filter_append, List.map_append]
  congr 1
  · apply congrArg
    apply List.filter_congr
    rintro ⟨u, i⟩ he
    have same : (taken ++ [w]).take i = taken.take i := before _ he
    dsimp only
    rw [same]
  · have new : ((taken ++ [w]).take taken.length).all (fun u => u.jsonText != w.jsonText) = true ↔
        w.jsonText ∉ taken.map Value.jsonText := by
      rw [List.take_left]
      simp
    by_cases repeated : w.jsonText ∈ taken.map Value.jsonText
    · simp_all
    · simp_all

theorem firstTexts_texts (taken : List Value) :
    ((firstTexts taken).map Value.jsonText).Nodup ∧
      ∀ w ∈ taken, w.jsonText ∈ (firstTexts taken).map Value.jsonText := by
  induction taken using List.reverseRecOn with
  | nil => exact ⟨List.nodup_nil, List.forall_mem_nil _⟩
  | append_singleton before w ih =>
    obtain ⟨differ, each⟩ := ih
    rw [firstTexts_concat]
    split
    · rename_i repeated
      rw [List.append_nil]
      refine ⟨differ, fun u hu => ?_⟩
      rcases List.mem_append.mp hu with hu | hu
      · exact each u hu
      · obtain rfl := List.mem_singleton.mp hu
        obtain ⟨u', hu', same⟩ := List.mem_map.mp repeated
        exact same ▸ each u' hu'
    · rename_i new
      rw [List.map_append, List.map_singleton]
      constructor
      · have apart : w.jsonText ∉ (firstTexts before).map Value.jsonText := fun there =>
          new (((firstTexts_sublist before).map Value.jsonText).subset there)
        exact List.nodup_append.mpr ⟨differ, List.nodup_singleton _, by simpa using apart⟩
      · intro u hu
        rcases List.mem_append.mp hu with hu | hu
        · exact List.mem_append_left _ (each u hu)
        · rw [List.mem_singleton.mp hu]
          exact List.mem_append_right _ List.mem_cons_self

end FirstTexts

namespace Check

variable {g : Graph} {firstOnly : Bool} {fuel : Nat} {o : ValidationOptions} {n : Node}
  {l : Location} {v w : Value} {part : Part} {rules : ItemRules} {st : ItemState} {i : Nat}
  {given taken before : List Value}

/-- After some items, without a problem: the first of each text has come out, and all texts have been
seen. -/
structure ItemState.Firsts (st : ItemState) (taken : List Value) : Prop where
  clean : st.Clean
  output : st.output = firstTexts taken
  seen : ∀ text, text ∈ st.seen ↔ text ∈ taken.map Value.json

theorem mem_map_jsonText_iff : w.jsonText ∈ taken.map Value.jsonText ↔ w.json ∈ taken.map Value.json := by
  simp only [List.mem_map, Value.jsonText, String.ofList_inj]

theorem ItemState.Firsts.keep (firsts : st.Firsts before) (unique : rules.unique = true) (w : Value) :
    (st.keep rules w).Firsts (before ++ [w]) := by
  have contains : (rules.unique && st.seen.contains w.json) = true ↔
      w.jsonText ∈ before.map Value.jsonText := by
    rw [unique, Bool.true_and, List.contains_iff_mem, firsts.seen, mem_map_jsonText_iff]
  refine ⟨firsts.clean.keep rules w, ?_, fun text => ?_⟩
  · rw [firstTexts_concat, ItemState.keep, ← firsts.output]
    by_cases repeated : w.jsonText ∈ before.map Value.jsonText
    · rw [if_pos (contains.mpr repeated), if_pos repeated, List.append_nil]
    · rw [if_neg (mt contains.mp repeated), if_neg repeated]
      rfl
  · rw [List.map_append, List.mem_append, ← firsts.seen, List.map_singleton, List.mem_singleton,
      ItemState.keep]
    split
    · rename_i repeated
      have there : w.json ∈ st.seen := by
        simpa only [unique, Bool.true_and, List.contains_iff_mem] using repeated
      refine ⟨.inl, fun h => h.elim id ?_⟩
      rintro rfl
      exact there
    · rw [ItemState.push, unique, if_pos rfl, List.mem_cons, or_comm]

theorem Accepts.items_of_drops (accepts : Accepts part l i given taken) (unique : rules.unique = true)
    (drops : rules.dropsDuplicates = true) (positive : 0 < rules.limit) (firsts : st.Firsts before) :
    ∃ out, items rules part l i st given = some out ∧ out.Firsts (before ++ taken) := by
  induction accepts generalizing st before with
  | nil => exact ⟨st, rfl, (List.append_nil before).symm ▸ firsts⟩
  | @cons i v w given taken accepted _ ih =>
    have admits : st.Admits rules w := by
      rw [ItemState.Admits, drops, Bool.not_true, Bool.and_false]
    rw [items_cons_accept firsts.clean positive accepted admits]
    obtain ⟨out, run, firsts⟩ := ih (firsts.keep unique w)
    rw [List.append_assoc, List.singleton_append] at firsts
    exact ⟨out, run, firsts⟩

theorem start_firsts : ItemState.start.Firsts [] :=
  ⟨⟨rfl, rfl⟩, rfl, fun _ => Iff.rfl⟩

theorem outside_items_iff {ρ : Type} {f : ArrayFacets ρ} {count : Nat} :
    outside count f.minItems f.maxItems = true ↔ ¬f.Holds count := by
  unfold outside ArrayFacets.Holds
  rcases f.minItems with _ | min <;> rcases f.maxItems with _ | max <;> simp
  omega

theorem itemsOf?_asList (coerces : o.coerceTypes = true) (v : Value) :
    itemsOf? o v = some v.asList := by
  cases v with
  | array items => rfl
  | _ =>
    unfold itemsOf?
    rw [coerces]
    rfl

theorem finishArray_of_firsts {ρ : Type} {f : ArrayFacets ρ} (firsts : st.Firsts taken) :
    (f.Holds (firstTexts taken).length → finishArray f l st = .accept (.array (firstTexts taken))) ∧
      (¬f.Holds (firstTexts taken).length → finishArray f l st =
        wrongCount l .items (firstTexts taken).length f.minItems f.maxItems) := by
  obtain ⟨⟨unfailed, clean⟩, output, -⟩ := firsts
  have finished : finishArray f l st =
      if outside (firstTexts taken).length f.minItems f.maxItems then
        wrongCount l .items (firstTexts taken).length f.minItems f.maxItems
      else .accept (.array (firstTexts taken)) := by
    rw [finishArray, unfailed, clean, output, if_neg (Nat.lt_irrefl 0)]
    rfl
  rw [finished]
  constructor
  · intro holds
    rw [if_neg (mt outside_items_iff.mp (not_not_intro holds))]
  · intro beyond
    rw [if_pos (outside_items_iff.mpr beyond)]

/-- With `uniqueItems` and `coerceTypes`, if all items are accepted, the first item of each JSON
text is kept in order, and the array is accepted exactly when the number kept is within `minItems`
and `maxItems`; otherwise it has one `rangeError` with that number. A value that is not an array is
its own only item. -/
theorem uniqueItems_dedup {f : ArrayFacets Ref} (array : n.shape = .array f)
    (unique : f.uniqueItems = some true) (coerces : o.coerceTypes = true)
    (accepts : Accepts (itemPart g (run g firstOnly fuel o) f.items) l 0 v.asList taken) :
    let kept := firstTexts taken
    let check := shape g firstOnly o (run g firstOnly fuel o) n l v
    (f.Holds kept.length → check = some (.accept (.array kept))) ∧
      (¬f.Holds kept.length → check = some (.reject l (.outOfRange .items (.ofCount kept.length)
        (f.minItems.map .ofCount) (f.maxItems.map .ofCount)))) ∧
      kept.Sublist taken ∧ (kept.map Value.jsonText).Nodup ∧
      ∀ w ∈ taken, w.jsonText ∈ kept.map Value.jsonText := by
  intro kept check
  have unique' : (itemRules f o firstOnly).unique = true := by
    simp only [itemRules, unique, Option.getD_some]
  obtain ⟨out, run, firsts⟩ := accepts.items_of_drops unique' coerces
    (positive_itemRules f o firstOnly) start_firsts
  rw [List.nil_append] at firsts
  have checked : check = some (finishArray f l out) := by
    change shape g firstOnly o _ n l v = _
    rw [shape_itemPart array, array_eq, itemsOf?_asList coerces]
    dsimp only
    rw [run, Option.map_some]
  obtain ⟨within, beyond⟩ := finishArray_of_firsts (f := f) (l := l) firsts
  obtain ⟨differ, each⟩ := firstTexts_texts taken
  rw [checked]
  exact ⟨fun holds => congrArg some (within holds), fun other => congrArg some (beyond other),
    firstTexts_sublist taken, differ, each⟩

theorem uniqueItems_dedup_of_texts :
    let texts : ArrayFacets Ref := ⟨some (.node (.ofBase .string)), some true, none, some 2⟩
    let several : Node := { Node.ofBase .array with shape := .array texts }
    let check := shape .initial true .coercing (run .initial true 1 .coercing) several []
    check (.array [.bool true, .string "a", .string "true", .string "a"]) =
        some (.accept (.array [.string "true", .string "a"])) ∧
      check (.array [.string "a", .string "b", .string "a", .bool true]) =
        some (.reject [] (.outOfRange .items (.ofCount 3) none (some (.ofCount 2)))) ∧
      check (.bool true) = some (.accept (.array [.string "true"])) := by
  intro texts several check
  let part := itemPart .initial (run .initial true 1 .coercing) texts.items
  have holds {count : Nat} (few : count ≤ 2) : texts.Holds count :=
    ⟨fun _ h => (Option.some_ne_none _ h.symm).elim, fun _ h => Option.some.inj h ▸ few⟩
  refine ⟨?_, ?_, ?_⟩
  · have accepts : Accepts part [] 0
        (Value.array [.bool true, .string "a", .string "true", .string "a"]).asList
        [.string "true", .string "a", .string "true", .string "a"] :=
      .cons rfl (.cons rfl (.cons rfl (.cons rfl .nil)))
    have kept := (uniqueItems_dedup (n := several) rfl rfl rfl accepts).1
    exact kept (holds (Nat.le_refl 2))
  · have accepts : Accepts part [] 0
        (Value.array [.string "a", .string "b", .string "a", .bool true]).asList
        [.string "a", .string "b", .string "a", .string "true"] :=
      .cons rfl (.cons rfl (.cons rfl (.cons rfl .nil)))
    have beyond := (uniqueItems_dedup (n := several) rfl rfl rfl accepts).2.1
    apply beyond
    intro holds
    have few : 3 ≤ 2 := holds.2 2 rfl
    exact absurd few (by decide)
  · have accepts : Accepts part [] 0 (Value.bool true).asList [.string "true"] := .cons rfl .nil
    have kept := (uniqueItems_dedup (n := several) rfl rfl rfl accepts).1
    exact kept (holds (by decide))

end Check
end Schemata

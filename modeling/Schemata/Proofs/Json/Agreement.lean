import Schemata.Json.Data
import Schemata.Proofs.Json.Reading
import Schemata.Proofs.Json.Visitor
import Schemata.Proofs.Text.Utf8

/-! A value and a tree that are read from one text. One is there just if the other is, and the value that is made of
the tree differs from the one that was read in nothing but the order of keys. -/

namespace Schemata

/-! Entries sorted by key. -/

namespace Tree

variable {α β : Type} {entries : Keyed α} {key : String} {value : α}

def Ascending (entries : Keyed α) : Prop :=
  entries.Pairwise fun e f => Text.Utf8.bytes e.1.toList < Text.Utf8.bytes f.1.toList

def insertAll (source entries : Keyed α) : Keyed α :=
  source.foldl (fun acc e => insertSorted e.1 e.2 acc) entries

theorem bytes_lt_iff {a b : String} : Text.Utf8.bytes a.toList < Text.Utf8.bytes b.toList ↔ a < b :=
  Text.Utf8.bytes_lt_iff.trans String.lt_iff_toList_lt.symm

theorem get?_insertSorted (other : String) :
    Keyed.get? (insertSorted key value entries) other =
      if key = other then some value else entries.get? other := by
  induction entries with
  | nil => rfl
  | cons e rest ih =>
    rw [insertSorted]
    split
    · rename_i same
      rw [Keyed.get?, Keyed.get?, same]
      split <;> rfl
    · split
      · rfl
      · rename_i apart _
        rw [Keyed.get?, Keyed.get?, ih]
        split
        · rename_i here
          rw [if_neg (here ▸ apart)]
        · rfl

theorem get?_insertAll (source : Keyed α) (key : String) :
    Keyed.get? (insertAll source entries) key = (Keyed.get? source.reverse key).or (entries.get? key) := by
  induction source generalizing entries with
  | nil => rfl
  | cons e rest ih =>
    rw [insertAll, List.foldl_cons]
    refine ih.trans ?_
    rw [get?_insertSorted, List.reverse_cons, Keyed.get?_append, Option.or_assoc]
    congr 1
    rw [Keyed.get?]
    split <;> rfl

theorem mem_insertSorted {e : String × α} (h : e ∈ insertSorted key value entries) :
    e = (key, value) ∨ e ∈ entries := by
  induction entries with
  | nil => exact .inl (List.mem_singleton.mp h)
  | cons head rest ih =>
    rw [insertSorted] at h
    split at h
    · exact (List.mem_cons.mp h).imp id (List.mem_cons_of_mem _)
    · split at h
      · exact List.mem_cons.mp h
      · rcases List.mem_cons.mp h with rfl | h
        · exact .inr List.mem_cons_self
        · exact (ih h).imp id (List.mem_cons_of_mem _)

theorem mem_insertAll {source : Keyed α} {e : String × α} (h : e ∈ insertAll source entries) :
    e ∈ source ∨ e ∈ entries := by
  induction source generalizing entries with
  | nil => exact .inr h
  | cons head rest ih =>
    rcases ih h with h | h
    · exact .inl (List.mem_cons_of_mem _ h)
    · exact (mem_insertSorted h).imp (fun same => List.mem_cons.mpr (.inl same)) id

theorem ascending_insertSorted (sorted : Ascending entries) : Ascending (insertSorted key value entries) := by
  induction entries with
  | nil => exact List.pairwise_singleton _ _
  | cons e rest ih =>
    obtain ⟨above, below⟩ := List.pairwise_cons.mp sorted
    rw [insertSorted]
    split
    · rename_i same
      refine List.pairwise_cons.mpr ⟨fun f member => ?_, below⟩
      rw [same]
      exact above f member
    · rename_i apart
      split
      · rename_i before
        have front := bytes_lt_iff.mpr before
        refine List.pairwise_cons.mpr ⟨fun f member => ?_, sorted⟩
        rcases List.mem_cons.mp member with rfl | member
        · exact front
        · exact List.lt_trans front (above f member)
      · rename_i behind
        refine List.pairwise_cons.mpr ⟨fun f member => ?_, ih below⟩
        rcases mem_insertSorted member with rfl | member
        · exact bytes_lt_iff.mpr (lt_of_le_of_ne (not_lt.mp behind) (Ne.symm apart))
        · exact above f member

theorem ascending_insertAll (source : Keyed α) (sorted : Ascending entries) :
    Ascending (insertAll source entries) :=
  List.foldlRecOn (motive := Ascending) source _ sorted fun _ h _ _ => ascending_insertSorted h

theorem Ascending.distinct (sorted : Ascending entries) : entries.Distinct := by
  refine List.pairwise_map.mpr (sorted.imp fun {e f} less same => ?_)
  rw [same] at less
  exact List.lt_irrefl _ less

theorem insertSorted_map (f : α → β) :
    (insertSorted key value entries).map (fun e => (e.1, f e.2)) =
      insertSorted key (f value) (entries.map fun e => (e.1, f e.2)) := by
  induction entries with
  | nil => rfl
  | cons e rest ih =>
    rw [List.map_cons, insertSorted, insertSorted]
    split
    · rfl
    · split
      · rfl
      · rw [List.map_cons, ih]

theorem insertAll_map (f : α → β) (source : Keyed α) :
    (insertAll source entries).map (fun e => (e.1, f e.2)) =
      insertAll (source.map fun e => (e.1, f e.2)) (entries.map fun e => (e.1, f e.2)) := by
  induction source generalizing entries with
  | nil => rfl
  | cons e rest ih =>
    refine ih.trans ?_
    rw [insertSorted_map]
    rfl

theorem sortItems_eq (items : List Tree) : sortItems items = items.map sortKeys := by
  induction items with
  | nil => rfl
  | cons t rest ih => rw [sortItems, ih, List.map_cons]

theorem sortEntries_eq (entries : List (String × Tree)) :
    sortEntries entries = entries.map fun e => (e.1, e.2.sortKeys) := by
  induction entries with
  | nil => rfl
  | cons e rest ih => rw [sortEntries, ih, List.map_cons]

end Tree

/-- The keys of every object are in the order of their bytes, each of them once. -/
inductive Json.Data.Sorted : Json.Data → Prop
  | null : Sorted .null
  | bool (b : Bool) : Sorted (.bool b)
  | number (n : Json.Numeric) : Sorted (.number n)
  | string (s : String) : Sorted (.string s)
  | array {items : List Json.Data} (each : ∀ d ∈ items, Sorted d) : Sorted (.array items)
  | object {entries : Keyed Json.Data} (ascending : Tree.Ascending entries) (each : ∀ e ∈ entries, Sorted e.2) :
      Sorted (.object entries)

/-- The same value up to the order of keys: numbers of one form, and in objects that have each key once the same
value for each key. -/
inductive Value.SameUpToOrder : Value → Value → Prop
  | null : SameUpToOrder .null .null
  | bool (b : Bool) : SameUpToOrder (.bool b) (.bool b)
  | number (n : Number) : SameUpToOrder (.number n) (.number n)
  | string (s : String) : SameUpToOrder (.string s) (.string s)
  | array {items items' : List Value} (each : List.Forall₂ SameUpToOrder items items') :
      SameUpToOrder (.array items) (.array items')
  | object {fields fields' : Keyed Value} (once : fields.Distinct) (once' : fields'.Distinct)
      (each : ∀ key, Option.Rel SameUpToOrder (fields.get? key) (fields'.get? key)) :
      SameUpToOrder (.object fields) (.object fields')

/-- A document shows a value: its scalars and lists, and in place of each map an object that has each key once, with
what the last entry of the key shows. -/
inductive Tree.Shows : Tree → Value → Prop
  | null : Shows .null .null
  | bool (b : Bool) : Shows (.bool b) (.bool b)
  | number (n : Number) : Shows (.number n) (.number n)
  | string (s : String) : Shows (.string s) (.string s)
  | list {items : List Tree} {values : List Value} (each : List.Forall₂ Shows items values) :
      Shows (.list items) (.array values)
  | map {entries : Keyed Tree} {fields : Keyed Value} (once : fields.Distinct)
      (each : ∀ key, Option.Rel Shows (Keyed.get? entries.reverse key) (fields.get? key)) :
      Shows (.map entries) (.object fields)

namespace Json

variable {α β : Type} {R : α → β → Prop} {es : List (String × α)} {fs : List (String × β)}

theorem last_of_members (each : List.Forall₂ (Member R) es fs) (key : String) :
    Option.Rel R (Keyed.get? es.reverse key) (Keyed.get? fs.reverse key) :=
  Keyed.get?_of_forall₂ (List.forall₂_reverse_iff.mpr each) key

theorem map_of_members {f : α → β} (each : List.Forall₂ (Member fun a b => f a = b) es fs) :
    es.map (fun e => (e.1, f e.2)) = fs := by
  refine (map_eq_of_forall₂ (g := id) (each.imp fun e e' same => ?_)).trans (List.map_id fs)
  exact Prod.ext same.1 same.2

theorem simulates_toValue : Visitor.Simulates (fun t v => t.toValue = v) documentVisitor Value.visitor where
  null := rfl
  bool _ := rfl
  uint _ := rfl
  int _ := rfl
  float _ := rfl
  string _ := rfl
  list each := by
    refine congrArg Value.array ((Value.toValues_eq _).trans ?_)
    exact (map_eq_of_forall₂ (g := id) each).trans (List.map_id _)
  map each := by
    refine congrArg (Value.object ∘ Keyed.ofEntries) ((Value.toFields_eq _).trans ?_)
    exact map_of_members each

theorem simulates_shows : Visitor.Simulates Tree.Shows documentVisitor Value.visitor where
  null := .null
  bool := .bool
  uint _ := .number _
  int _ := .number _
  float _ := .number _
  string := .string
  list := .list
  map {es fs} each := by
    refine .map (Keyed.distinct_ofEntries fs) fun key => ?_
    rw [Keyed.get?_ofEntries]
    exact last_of_members each key

end Json

namespace Value

theorem itemsOfData_eq (items : List Json.Data) : itemsOfData items = items.map ofData := by
  induction items with
  | nil => rfl
  | cons d rest ih => rw [itemsOfData, ih, List.map_cons]

theorem fieldsOfData_eq (entries : List (String × Json.Data)) :
    fieldsOfData entries = entries.map fun e => (e.1, ofData e.2) := by
  induction entries with
  | nil => rfl
  | cons e rest ih => rw [fieldsOfData, ih, List.map_cons]

end Value

namespace Number

theorem ofNumeric_ofInt64 {n : Int64} (negative : n.toInt < 0) : ofNumeric (.ofInt64 n) = .int n := by
  rw [Json.Numeric.ofInt64, if_pos negative]
  rfl

end Number

namespace Json

open Value (SameUpToOrder ofData)

theorem visitor_float {x : Double} (finite : x.isFinite = true) : Data.visitor.float x = .number (.float x) := by
  have number : Numeric.ofDouble? x = some (.float x) := if_pos finite
  unfold Data.visitor
  dsimp only
  rw [number]

theorem lastOfData_insertAll (entries : List (String × Data)) (key : String) :
    (Keyed.ofEntries (Value.fieldsOfData (Tree.insertAll entries []))).get? key =
      (Keyed.get? entries.reverse key).map ofData := by
  have sorted : Tree.Ascending (Tree.insertAll entries []) := Tree.ascending_insertAll entries .nil
  rw [Value.fieldsOfData_eq, Keyed.get?_ofEntries, ← List.map_reverse, Keyed.get?_map,
    Keyed.get?_reverse sorted.distinct, Tree.get?_insertAll]
  exact congrArg (Option.map ofData) Option.or_none

theorem simulates_ofData :
    Visitor.Simulates (fun v d => v.SameUpToOrder (ofData d) ∧ d.Sorted) Value.visitor Data.visitor where
  null := ⟨.null, .null⟩
  bool b := ⟨.bool b, .bool b⟩
  uint n := ⟨.number _, .number _⟩
  int {n} negative := by
    refine ⟨?_, .number _⟩
    show SameUpToOrder (.number (.int n)) (.number (.ofNumeric (.ofInt64 n)))
    rw [Number.ofNumeric_ofInt64 negative]
    exact .number _
  float {x} finite := by
    rw [visitor_float finite]
    exact ⟨.number _, .number _⟩
  string s := ⟨.string s, .string s⟩
  list {vs ds} each := by
    refine ⟨?_, .array fun d member => ?_⟩
    · refine .array ?_
      rw [Value.itemsOfData_eq]
      exact List.forall₂_map_right_iff.mpr (each.imp fun _ _ same => same.1)
    · obtain ⟨v, -, same⟩ := exists_of_forall₂_of_mem each.flip member
      exact same.2
  map {vs ds} each := by
    have sorted : Tree.Ascending (Tree.insertAll ds []) := Tree.ascending_insertAll ds .nil
    refine ⟨?_, .object sorted fun e member => ?_⟩
    · refine .object (Keyed.distinct_ofEntries _) (Keyed.distinct_ofEntries _) fun key => ?_
      show Option.Rel SameUpToOrder _ ((Keyed.ofEntries (Value.fieldsOfData (Tree.insertAll ds []))).get? key)
      rw [Keyed.get?_ofEntries, lastOfData_insertAll]
      have last := last_of_members each key
      generalize Keyed.get? vs.reverse key = found, Keyed.get? ds.reverse key = found' at last ⊢
      cases last with
      | none => exact .none
      | some same => exact .some same.1
    · obtain member | member := Tree.mem_insertAll member
      · obtain ⟨f, -, same⟩ := exists_of_forall₂_of_mem each.flip member
        exact same.2.2
      · cases member

theorem simulates_sortKeys :
    Visitor.Simulates (fun t d => t.sortKeys.toValue = ofData d) documentVisitor Data.visitor where
  null := rfl
  bool _ := rfl
  uint _ := rfl
  int {n} negative := by
    show Value.number (.int n) = .number (.ofNumeric (.ofInt64 n))
    rw [Number.ofNumeric_ofInt64 negative]
  float {x} finite := by
    rw [visitor_float finite]
    rfl
  string _ := rfl
  list each := by
    refine congrArg Value.array ?_
    rw [Value.toValues_eq, Tree.sortItems_eq, Value.itemsOfData_eq, List.map_map]
    exact map_eq_of_forall₂ each
  map {es ds} each := by
    have sorted : (Tree.insertAll (Tree.sortEntries es) []).map (fun e => (e.1, e.2.toValue)) =
        (Tree.insertAll ds []).map fun e => (e.1, ofData e.2) := by
      rw [Tree.insertAll_map, Tree.insertAll_map, Tree.sortEntries_eq, List.map_map]
      refine congrArg (Tree.insertAll · []) (map_eq_of_forall₂ (each.imp fun e f same => ?_))
      exact Prod.ext same.1 same.2
    refine congrArg (Value.object ∘ Keyed.ofEntries) ?_
    rw [Value.toFields_eq, Value.fieldsOfData_eq]
    exact sorted

theorem ofData_read? (text : String) :
    (Data.visitor.read? text).map ofData = (Json.read? text).map fun t => t.sortKeys.toValue := by
  have same := simulates_sortKeys.read? text
  rw [read?_eq_visit]
  generalize documentVisitor.read? text = found, Data.visitor.read? text = found' at same ⊢
  cases same with
  | none => rfl
  | some same => exact congrArg some same.symm

/-- For every text the three readers agree: either all reject it, or the value read is that of the
document with the last entry of each key, and that of the sorted tree up to the order of keys. -/
theorem readings_agree (text : String) :
    Value.ofJson? text = Value.visitor.read? text ∧
      Option.Rel Tree.Shows (Json.read? text) (Value.visitor.read? text) ∧
      Option.Rel (fun v d => v.SameUpToOrder (ofData d) ∧ d.Sorted) (Value.visitor.read? text)
        (Data.visitor.read? text) := by
  refine ⟨?_, ?_, simulates_ofData.read? text⟩
  · have same := simulates_toValue.read? text
    rw [Value.ofJson?, read?_eq_visit]
    generalize documentVisitor.read? text = found, Value.visitor.read? text = found' at same ⊢
    cases same with
    | none => rfl
    | some same => exact congrArg some same
  · rw [read?_eq_visit]
    exact simulates_shows.read? text

end Json
end Schemata

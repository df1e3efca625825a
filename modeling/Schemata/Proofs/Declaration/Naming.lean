import Schemata.Declaration.Reader
import Schemata.Proofs.Keyed

/-! The name of a record. A record with its name field set, at whatever place, reads as the record without it, under
that name: no other field looks at the name. -/

namespace Schemata

namespace RecordField

variable {ε σ α : Type} {malformed : ε} {fields : List (RecordField ε σ α)} {change : σ → σ} {key : String}
  {draft : σ} {seen seen' : List String} {written : α}

def Ignore (fields : List (RecordField ε σ α)) (key : String) (change : σ → σ) : Prop :=
  ∀ f ∈ fields, f.name ≠ key → ∀ draft written, f.put (change draft) written = (f.put draft written).map change

theorem ofEntries_change (ignore : Ignore fields key change) {entries : List (String × α)}
    (absent : key ∉ Keyed.keys entries) (same : ∀ k, k ≠ key → seen'.contains k = seen.contains k) (draft : σ) :
    ofEntries malformed fields seen' (change draft) entries =
      (ofEntries malformed fields seen draft entries).map change := by
  induction entries generalizing seen seen' draft with
  | nil => rfl
  | cons e rest ih =>
    rw [Keyed.keys, List.map_cons, List.mem_cons, not_or] at absent
    have other := Ne.symm absent.1
    rw [ofEntries, ofEntries, same e.1 other]
    split
    · rfl
    · generalize found : (fields.find? fun f => f.name == e.1) = asked
      rcases asked with _ | f
      · rfl
      · have held := List.find?_some found
        have named : f.name = e.1 := beq_iff_eq.mp held
        dsimp only
        rw [ignore f (List.mem_of_find?_eq_some found) (named ▸ other)]
        rcases f.put draft e.2 with fault | next
        · rfl
        · refine ih absent.2 (fun k apart => ?_) next
          rw [List.contains_cons, List.contains_cons, same k apart]

theorem ofEntries_insert (ignore : Ignore fields key change) {f : RecordField ε σ α}
    (found : (fields.find? fun f => f.name == key) = some f)
    (put : ∀ draft, f.put draft written = .ok (change draft)) {before after : List (String × α)}
    (absent : key ∉ Keyed.keys (before ++ after)) (new : seen.contains key = false) :
    ofEntries malformed fields seen draft (before ++ (key, written) :: after) =
      (ofEntries malformed fields seen draft (before ++ after)).map change := by
  induction before generalizing seen draft with
  | nil =>
    rw [List.nil_append, List.nil_append, ofEntries, new, if_neg Bool.false_ne_true, found]
    dsimp only
    rw [put]
    refine ofEntries_change ignore absent (fun k apart => ?_) draft
    rw [List.contains_cons, beq_false_of_ne apart, Bool.false_or]
  | cons e rest ih =>
    rw [List.cons_append, Keyed.keys, List.map_cons, List.mem_cons, not_or] at absent
    rw [List.cons_append, List.cons_append, ofEntries, ofEntries]
    split
    · rfl
    · generalize (fields.find? fun f => f.name == e.1) = asked
      rcases asked with _ | g
      · rfl
      · dsimp only
        rcases g.put draft e.2 with fault | next
        · rfl
        · refine ih absent.2 ?_
          rw [List.contains_cons, beq_false_of_ne absent.1, Bool.false_or, new]

theorem ofItems_change (ignore : Ignore fields key change) (apart : ∀ f ∈ fields, f.name ≠ key) (draft : σ)
    (items : List α) :
    ofItems malformed fields (change draft) items = (ofItems malformed fields draft items).map change := by
  induction items generalizing fields draft with
  | nil => cases fields <;> rfl
  | cons item rest ih =>
    rcases fields with _ | ⟨f, fields⟩
    · rfl
    · rw [ofItems, ofItems, ignore f List.mem_cons_self (apart f List.mem_cons_self)]
      rcases f.put draft item with fault | next
      · rfl
      · exact ih (fun g hg => ignore g (List.mem_cons_of_mem _ hg)) (fun g hg => apart g (List.mem_cons_of_mem _ hg)) next

end RecordField

def DeclarationOf.called (d : Declaration) (name : Option String) : Declaration := { d with name := name }

namespace Declaration

open Reading

variable {d : Declaration} {name : Option String} {t r : Tree}

theorem set_called {α : Type} {read : Except DeclarationError α} {set set' : α → Declaration}
    (same : ∀ x, set' x = (set x).called name) :
    (read >>= fun x => pure (set' x)) =
      (read >>= fun x => pure (set x)).map (DeclarationOf.called · name) := by
  rcases read with e | x
  · rfl
  · exact congrArg Except.ok (same x)

theorem ignore_fields (name : Option String) :
    RecordField.Ignore fields "name" (DeclarationOf.called · name) := by
  unfold RecordField.Ignore
  simp only [fields, List.forall_mem_cons, List.not_mem_nil, false_implies, implies_true, and_true]
  refine ⟨fun other => absurd rfl other, ?_⟩
  and_intros
  all_goals
    intro _ draft written
    first
    | exact set_called fun _ => rfl
    -- Annotations are told apart by a match.
    | split <;> rfl

theorem entryReadings_eq (entries : List (String × Tree)) :
    Tree.entryReadings entries = entries.map fun e => (e.1, e.2.reading) := by
  induction entries with
  | nil => rfl
  | cons e rest ih => rw [Tree.entryReadings, ih, List.map_cons]

/-- A record of a declaration without a name, and the same one with its name field set: anywhere in a map, or in
front of a list. -/
inductive SetsName (name : String) : Tree → Tree → Prop
  | map (before after : List (String × Tree)) (absent : "name" ∉ Keyed.keys (before ++ after)) :
      SetsName name (.map (before ++ after)) (.map (before ++ ("name", .string name) :: after))
  | list (rest : List Tree) : SetsName name (.list (.null :: rest)) (.list (.string name :: rest))
  | empty : SetsName name (.list []) (.list [.string name])

theorem apart_tail : ∀ f ∈ fields.tail, f.name ≠ "name" := by
  simp only [fields, List.tail_cons, List.forall_mem_cons, List.not_mem_nil, false_implies, implies_true, and_true]
  decide

theorem ignore_tail (name : Option String) :
    RecordField.Ignore fields.tail "name" (DeclarationOf.called · name) :=
  fun f member => ignore_fields name f (List.mem_of_mem_tail member)

theorem keys_readings (entries : List (String × Tree)) :
    Keyed.keys (entries.map fun e => (e.1, e.2.reading)) = Keyed.keys entries := by
  rw [Keyed.keys, List.map_map]
  rfl

theorem ofTree?_of_setsName {name : String} (sets : SetsName name t r) :
    ofTree? r = (ofTree? t).map (DeclarationOf.called · (some name)) := by
  cases sets with
  | map before after absent =>
    rw [ofTree?, ofTree?, ofEntries, ofEntries, entryReadings_eq, entryReadings_eq, List.map_append, List.map_cons,
      List.map_append]
    refine RecordField.ofEntries_insert (ignore_fields (some name)) rfl (fun draft => rfl) ?_ rfl
    rwa [← List.map_append, keys_readings]
  | list rest => exact RecordField.ofItems_change (ignore_tail (some name)) apart_tail .blank _
  | empty => rfl

theorem name_of_setsName {name : String} (sets : SetsName name t r) (read : ofTree? t = .ok d) : d.name = none := by
  have unnamed : ofTree? t = (ofTree? t).map (DeclarationOf.called · none) := by
    cases sets with
    | map before after absent =>
      rw [ofTree?, ofEntries, entryReadings_eq]
      exact RecordField.ofEntries_change (ignore_fields none) (keys_readings _ ▸ absent) (fun _ _ => rfl) .blank
    | list rest => exact RecordField.ofItems_change (ignore_tail none) apart_tail .blank _
    | empty => rfl
  rw [read] at unnamed
  exact congrArg DeclarationOf.name (Except.ok.inj unnamed)

end Declaration

end Schemata

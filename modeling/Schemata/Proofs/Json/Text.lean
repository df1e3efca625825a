import Schemata.Json.Writer
import Schemata.Proofs.Facet.Likeness
import Schemata.Proofs.Json.Numeral
import Schemata.Proofs.Json.Quoted
import Schemata.Proofs.Keyed
import Schemata.Proofs.Value.Occurrence

/-! JSON text and equality of values. Where values are told by their texts, one text means equal
values; equal values have one text where no integer is written in two ways and no two objects have
the same keys in two orders. -/

namespace Schemata

namespace Json

variable {α : Type} {R : α → α → Prop} {f : α → List Char} {as bs : List α} {close : Char}
  {rest rest' : List Char}

def Ends (rest : List Char) : Prop := ∀ c ∈ rest.head?, Numeral.isMark c = false

theorem ends_cons {c : Char} (h : Numeral.isMark c = false) (rest : List Char) : Ends (c :: rest) := by
  rintro _ ⟨⟩
  exact h

/-- A piece is told from what follows it: pieces that start two texts which are the same are related,
and so are the rests. -/
def Told (R : α → α → Prop) (f : α → List Char) (a b : α) : Prop :=
  ∀ rest rest', Ends rest → Ends rest' → f a ++ rest = f b ++ rest' → R a b ∧ rest = rest'

def Opens (close : Char) (piece : List Char) : Prop := ∃ c text, piece = c :: text ∧ c ≠ close

def further (pieces : List (List Char)) : List Char := pieces.flatMap (',' :: ·)

theorem commaSeparated_cons (piece : List Char) (pieces : List (List Char)) :
    commaSeparated (piece :: pieces) = piece ++ further pieces := by
  induction pieces generalizing piece with
  | nil => exact (List.append_nil piece).symm
  | cons next pieces ih =>
    rw [commaSeparated, ih next]
    · rfl
    · exact List.cons_ne_nil _ _

theorem ends_further (pieces : List (List Char)) (mark : Numeral.isMark close = false)
    (rest : List Char) : Ends (further pieces ++ close :: rest) := by
  cases pieces with
  | nil => exact ends_cons mark _
  | cons piece pieces => exact ends_cons rfl _

theorem further_told (mark : Numeral.isMark close = false) (comma : close ≠ ',')
    (told : ∀ a ∈ as, ∀ b ∈ bs, Told R f a b)
    (h : further (as.map f) ++ close :: rest = further (bs.map f) ++ close :: rest') :
    List.Forall₂ R as bs ∧ rest = rest' := by
  induction as generalizing bs with
  | nil =>
    cases bs with
    | nil => exact ⟨.nil, (List.cons.inj h).2⟩
    | cons b bs => exact absurd (List.cons.inj h).1 comma
  | cons a as ih =>
    cases bs with
    | nil => exact absurd (List.cons.inj h).1.symm comma
    | cons b bs =>
      have step (c : α) (cs : List α) (rest : List Char) : further ((c :: cs).map f) ++ rest =
          ',' :: (f c ++ (further (cs.map f) ++ rest)) := by
        simp [further]
      rw [step, step] at h
      obtain ⟨head, h⟩ := told a List.mem_cons_self b List.mem_cons_self _ _
        (ends_further _ mark _) (ends_further _ mark _) (List.cons.inj h).2
      obtain ⟨tail, same⟩ := ih (fun a ha b hb =>
        told a (List.mem_cons_of_mem _ ha) b (List.mem_cons_of_mem _ hb)) h
      exact ⟨.cons head tail, same⟩

theorem commaSeparated_told (mark : Numeral.isMark close = false) (comma : close ≠ ',')
    (opens : ∀ a ∈ as, Opens close (f a)) (opens' : ∀ b ∈ bs, Opens close (f b))
    (told : ∀ a ∈ as, ∀ b ∈ bs, Told R f a b)
    (h : commaSeparated (as.map f) ++ close :: rest = commaSeparated (bs.map f) ++ close :: rest') :
    List.Forall₂ R as bs ∧ rest = rest' := by
  have other {a : α} (opens : Opens close (f a)) (as : List α) (rest rest' : List Char) :
      commaSeparated ((a :: as).map f) ++ rest ≠ close :: rest' := by
    obtain ⟨c, text, starts, other⟩ := opens
    rw [List.map_cons, commaSeparated_cons, starts]
    exact fun same => other (List.cons.inj same).1
  cases as with
  | nil =>
    cases bs with
    | nil => exact ⟨.nil, (List.cons.inj h).2⟩
    | cons b bs => exact absurd h.symm (other (opens' b List.mem_cons_self) bs _ _)
  | cons a as =>
    cases bs with
    | nil => exact absurd h (other (opens a List.mem_cons_self) as _ _)
    | cons b bs =>
      simp only [List.map_cons, commaSeparated_cons, List.append_assoc] at h
      obtain ⟨head, h⟩ := told a List.mem_cons_self b List.mem_cons_self _ _
        (ends_further _ mark _) (ends_further _ mark _) h
      obtain ⟨tail, same⟩ := further_told mark comma (fun a ha b hb =>
        told a (List.mem_cons_of_mem _ ha) b (List.mem_cons_of_mem _ hb)) h
      exact ⟨.cons head tail, same⟩

theorem member_told {e e' : String × Value} {S : Value → Value → Prop}
    (told : Told S Value.json e.2 e'.2) :
    Told (fun e e' : String × Value => e.1 = e'.1 ∧ S e.2 e'.2)
      (fun e => member e.1 e.2.json) e e' := by
  intro rest rest' ends ends' h
  simp only [member, List.append_assoc, List.cons_append] at h
  obtain ⟨key, h⟩ := Quoted.encode_append_inj h
  obtain ⟨value, same⟩ := told rest rest' ends ends' (List.cons.inj h).2
  exact ⟨⟨String.toList_inj.mp key, value⟩, same⟩

end Json

namespace Value

variable {v w : Value} {rest rest' : List Char} {items items' : List Value}
  {fields fields' : List (String × Value)}

theorem jsonItems_eq (items : List Value) : jsonItems items = items.map json := by
  induction items with
  | nil => rfl
  | cons v rest ih => rw [jsonItems, ih, List.map_cons]

theorem jsonFields_eq (fields : List (String × Value)) :
    jsonFields fields = fields.map fun e => Json.member e.1 e.2.json := by
  induction fields with
  | nil => rfl
  | cons e rest ih => rw [jsonFields, ih, List.map_cons]

theorem equalItems_iff : equalItems items items' = true ↔
    List.Forall₂ (fun v w => v.equal w = true) items items' := by
  induction items generalizing items' with
  | nil =>
    cases items' with
    | nil => exact ⟨fun _ => .nil, fun _ => rfl⟩
    | cons w rest => exact ⟨(nomatch ·), (nomatch ·)⟩
  | cons v rest ih =>
    cases items' with
    | nil => exact ⟨(nomatch ·), (nomatch ·)⟩
    | cons w rest => rw [equalItems, Bool.and_eq_true, ih, List.forall₂_cons]

theorem equalFields_iff : equalFields fields fields' = true ↔
    ∀ e ∈ fields, ∃ w, Keyed.get? fields' e.1 = some w ∧ e.2.equal w = true := by
  induction fields with
  | nil => exact ⟨fun _ _ h => (nomatch h), fun _ => rfl⟩
  | cons e rest ih =>
    rw [equalFields, Bool.and_eq_true, ih, List.forall_mem_cons]
    refine and_congr_left' ?_
    rcases Keyed.get? fields' e.1 with _ | w
    · exact ⟨(nomatch ·), fun ⟨_, h, _⟩ => nomatch h⟩
    · exact ⟨fun h => ⟨w, rfl, h⟩, fun ⟨_, h, same⟩ => Option.some.inj h ▸ same⟩

/-- The values that their texts tell: no absence, no native date-time, numbers with a numeral, and one
value for a key. -/
def Legible : Value → Prop
  | undefined => False
  | dateTime _ => False
  | number n => n.HasNumeral
  | object fields => Keyed.Distinct fields
  | _ => True

def kindOf (c : Char) : String :=
  if c = 'n' then "null"
  else if c = 't' ∨ c = 'f' then "boolean"
  else if c = '"' then "string"
  else if c = '[' then "array"
  else if c = '\x7b' then "object"
  else "number"

theorem kindOf_of_isMark {c : Char} (h : Json.Numeral.isMark c = true) : kindOf c = "number" := by
  unfold kindOf
  split_ifs with h1 h2 h3 h4 h5
  · subst h1; cases h
  · rcases h2 with rfl | rfl <;> cases h
  · subst h3; cases h
  · subst h4; cases h
  · subst h5; cases h
  · rfl

theorem exists_json (h : v.Legible) :
    ∃ c text, v.json = c :: text ∧ kindOf c = v.kind ∧ c ≠ ']' := by
  cases v with
  | undefined => exact h.elim
  | dateTime d => exact h.elim
  | null => exact ⟨_, _, rfl, rfl, by decide⟩
  | bool b => cases b <;> exact ⟨_, _, rfl, rfl, by decide⟩
  | string s => exact ⟨_, _, rfl, rfl, by decide⟩
  | array items => exact ⟨_, _, rfl, rfl, by decide⟩
  | object fields => exact ⟨_, _, rfl, rfl, by decide⟩
  | number n =>
    rcases text : Json.Numeral.encode n with _ | ⟨c, rest⟩
    · exact absurd text (Json.Numeral.encode_ne_nil h)
    · have mark := Json.Numeral.isMark_of_mem_encode h (text ▸ List.mem_cons_self)
      refine ⟨c, rest, text, kindOf_of_isMark mark, ?_⟩
      rintro rfl
      cases mark

theorem kind_eq_of_json (hv : v.Legible) (hw : w.Legible) (h : v.json ++ rest = w.json ++ rest') :
    v.kind = w.kind := by
  obtain ⟨c, text, starts, kind, -⟩ := exists_json hv
  obtain ⟨c', text', starts', kind', -⟩ := exists_json hw
  rw [starts, starts'] at h
  rw [← kind, ← kind', (List.cons.inj h).1]

theorem json_array_append (items : List Value) (rest : List Char) :
    (array items).json ++ rest = '[' :: (Json.commaSeparated (items.map json) ++ ']' :: rest) := by
  rw [json, jsonItems_eq, Json.list, List.cons_append, List.cons_append, List.append_assoc]
  rfl

theorem json_object_append (fields : List (String × Value)) (rest : List Char) :
    (object fields).json ++ rest = '\x7b' ::
      (Json.commaSeparated (fields.map fun e => Json.member e.1 e.2.json) ++ '\x7d' :: rest) := by
  rw [json, jsonFields_eq, Json.record, List.cons_append, List.cons_append, List.append_assoc]
  rfl

theorem equal_object_of_alike (distinct : Keyed.Distinct fields)
    (h : Keyed.Alike (fun v w => v.equal w = true) fields fields') :
    (object fields).equal (object fields') = true := by
  rw [equal, Bool.and_eq_true, beq_iff_eq, equalFields_iff]
  refine ⟨h.length_eq, fun e he => ?_⟩
  have found := Keyed.get?_of_mem distinct he
  have related := h.get? e.1
  rw [found] at related
  generalize Keyed.get? fields' e.1 = other at related ⊢
  cases related with
  | some same => exact ⟨_, rfl, same⟩

/-- Legible values with one text are equal, whatever follows them. -/
theorem json_told (hv : v.Every Legible) (hw : w.Every Legible) :
    Json.Told (fun v w => v.equal w = true) json v w := by
  induction v using partsInduction generalizing w with
  | null =>
    intro rest rest' _ _ h
    have kinds := kind_eq_of_json hv.self hw.self h
    cases w with
    | null => exact ⟨rfl, List.append_cancel_left h⟩
    | _ => exact absurd kinds (by simp [kind])
  | undefined => exact hv.self.elim
  | bool b =>
    intro rest rest' _ _ h
    have kinds := kind_eq_of_json hv.self hw.self h
    cases w with
    | bool b' =>
      cases b <;> cases b'
      · exact ⟨rfl, List.append_cancel_left h⟩
      · exact absurd (List.cons.inj h).1 (by decide)
      · exact absurd (List.cons.inj h).1 (by decide)
      · exact ⟨rfl, List.append_cancel_left h⟩
    | _ => exact absurd kinds (by simp [kind])
  | number n =>
    intro rest rest' ends ends' h
    have kinds := kind_eq_of_json hv.self hw.self h
    cases w with
    | number n' =>
      obtain ⟨text, same⟩ := Json.Numeral.encode_append_inj hv.self hw.self ends ends' h
      exact ⟨Json.Numeral.equal_of_encode_eq hv.self hw.self text, same⟩
    | _ => exact absurd kinds (by simp [kind])
  | string s =>
    intro rest rest' _ _ h
    have kinds := kind_eq_of_json hv.self hw.self h
    cases w with
    | string s' =>
      obtain ⟨text, same⟩ := Json.Quoted.encode_append_inj h
      obtain rfl := String.toList_inj.mp text
      exact ⟨beq_self_eq_true s, same⟩
    | _ => exact absurd kinds (by simp [kind])
  | array items ih =>
    intro rest rest' _ _ h
    have kinds := kind_eq_of_json hv.self hw.self h
    cases w with
    | array items' =>
      rw [json_array_append, json_array_append] at h
      have opens {items : List Value} (h : (array items).Every Legible) :
          ∀ v ∈ items, Json.Opens ']' v.json := fun v hv => by
        obtain ⟨c, text, starts, -, other⟩ := exists_json (h.item hv).self
        exact ⟨c, text, starts, other⟩
      obtain ⟨alike, same⟩ := Json.commaSeparated_told rfl (by decide) (opens hv) (opens hw)
        (fun v h w h' => ih v h (hv.item h) (hw.item h')) (List.cons.inj h).2
      exact ⟨equalItems_iff.mpr alike, same⟩
    | _ => exact absurd kinds (by simp [kind])
  | object fields ih =>
    intro rest rest' _ _ h
    have kinds := kind_eq_of_json hv.self hw.self h
    cases w with
    | object fields' =>
      rw [json_object_append, json_object_append] at h
      have opens {fields : List (String × Value)} :
          ∀ e ∈ fields, Json.Opens '\x7d' (Json.member e.1 e.2.json) :=
        fun e _ => ⟨_, _, rfl, by decide⟩
      obtain ⟨alike, same⟩ := Json.commaSeparated_told
        (R := fun e e' => e.1 = e'.1 ∧ e.2.equal e'.2 = true) rfl (by decide) opens opens
        (fun e h e' h' => Json.member_told (ih e h (hv.field h) (hw.field h'))) (List.cons.inj h).2
      exact ⟨equal_object_of_alike hv.self alike, same⟩
    | _ => exact absurd kinds (by simp [kind])
  | dateTime d => exact hv.self.elim

theorem equal_of_json_eq (hv : v.Every Legible) (hw : w.Every Legible) (h : v.json = w.json) :
    v.equal w = true := by
  have ends : Json.Ends [] := fun _ h => nomatch h
  exact (json_told hv hw [] [] ends ends (by rw [h])).1

/-- Two values share no integer that they write in two ways, and no keys that they list in two
orders. -/
structure SameForms (v w : Value) : Prop where
  numbers : ∀ a b i, (number a).Occurs v → (number b).Occurs w → a.toInt? = some i →
    b.toInt? = some i → Json.Numeral.encode a = Json.Numeral.encode b
  objects : ∀ a b : Keyed Value, (object a).Occurs v → (object b).Occurs w →
    a.keys.Perm b.keys → a.keys = b.keys

theorem SameForms.item (h : (array items).SameForms (array items')) (hv : v ∈ items)
    (hw : w ∈ items') : v.SameForms w :=
  ⟨fun a b i ha hb => h.numbers a b i (.item hv ha) (.item hw hb),
    fun a b ha hb => h.objects a b (.item hv ha) (.item hw hb)⟩

theorem SameForms.field {e e' : String × Value} (h : (object fields).SameForms (object fields'))
    (he : e ∈ fields) (he' : e' ∈ fields') : e.2.SameForms e'.2 :=
  ⟨fun a b i ha hb => h.numbers a b i (.field he ha) (.field he' hb),
    fun a b ha hb => h.objects a b (.field he ha) (.field he' hb)⟩

theorem keys_perm_of_equal (distinct : Keyed.Distinct fields)
    (h : (object fields).equal (object fields') = true) :
    (Keyed.keys fields).Perm (Keyed.keys fields') := by
  rw [equal, Bool.and_eq_true, beq_iff_eq, equalFields_iff] at h
  have within : Keyed.keys fields ⊆ Keyed.keys fields' := by
    intro key member
    obtain ⟨e, he, rfl⟩ := List.mem_map.mp member
    obtain ⟨w, found, -⟩ := h.2 e he
    exact List.mem_map.mpr ⟨(e.1, w), Keyed.mem_of_get? found, rfl⟩
  refine (List.subperm_of_subset distinct within).perm_of_length_le ?_
  rw [Keyed.keys, Keyed.keys, List.length_map, List.length_map, h.1]

theorem members_eq_of_equal (distinct : Keyed.Distinct fields')
    (keys : Keyed.keys fields = Keyed.keys fields')
    (equals : ∀ e ∈ fields, ∃ w, Keyed.get? fields' e.1 = some w ∧ e.2.equal w = true)
    (text : ∀ e ∈ fields, ∀ e' ∈ fields', e.2.equal e'.2 = true → e.2.json = e'.2.json) :
    (fields.map fun e => Json.member e.1 e.2.json) =
      fields'.map fun e => Json.member e.1 e.2.json := by
  have aligned : List.Forall₂ (fun e e' : String × Value => e.1 = e'.1) fields fields' := by
    have same : List.Forall₂ (· = ·) (fields.map Prod.fst) (fields'.map Prod.fst) := by
      rw [List.forall₂_eq_eq_eq]
      exact keys
    rwa [List.forall₂_map_left_iff, List.forall₂_map_right_iff] at same
  refine map_eq_of_forall₂ ((forall₂_and_mem aligned).imp fun e e' ⟨key, he, he'⟩ => ?_)
  obtain ⟨w, found, same⟩ := equals e he
  have here := Keyed.get?_of_mem distinct he'
  rw [← key, found] at here
  obtain rfl := Option.some.inj here
  rw [key, text e he e' he' same]

theorem json_eq_of_equal (hv : v.Every Legible) (hw : w.Every Legible) (forms : v.SameForms w)
    (h : v.equal w = true) : v.json = w.json := by
  induction v using partsInduction generalizing w with
  | null =>
    cases w with
    | null => rfl
    | _ => cases h
  | undefined => exact hv.self.elim
  | bool b =>
    cases w with
    | bool b' => rw [beq_iff_eq.mp h]
    | _ => cases h
  | number n =>
    cases w with
    | number n' =>
      exact Json.Numeral.encode_eq_of_equal hv.self hw.self h fun i =>
        forms.numbers n n' i .here .here
    | _ => cases h
  | string s =>
    cases w with
    | string s' => rw [beq_iff_eq.mp h]
    | _ => cases h
  | array items ih =>
    cases w with
    | array items' =>
      have alike := forall₂_and_mem (equalItems_iff.mp h)
      have texts : items.map json = items'.map json :=
        map_eq_of_forall₂ (alike.imp fun v w ⟨same, hv', hw'⟩ =>
          ih v hv' (hv.item hv') (hw.item hw') (forms.item hv' hw') same)
      rw [json, json, jsonItems_eq, jsonItems_eq, texts]
    | _ => cases h
  | object fields ih =>
    cases w with
    | object fields' =>
      have keys := forms.objects _ _ .here .here (keys_perm_of_equal hv.self h)
      rw [equal, Bool.and_eq_true, equalFields_iff] at h
      have texts := members_eq_of_equal hw.self keys h.2 fun e he e' he' =>
        ih e he (hv.field he) (hw.field he') (forms.field he he')
      rw [json, json, jsonFields_eq, jsonFields_eq, texts]
    | _ => cases h
  | dateTime d => exact hv.self.elim

end Value
end Schemata

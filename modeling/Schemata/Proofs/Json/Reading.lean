import Schemata.Json.Reader
import Schemata.Proofs.Json.Text
import Schemata.Proofs.Text.Numeral
import Schemata.Validation.Validator

/-! JSON text is read back: what was written of nulls, booleans, integers of a word, strings, arrays
and objects is a value that is equal and has its keys in the same order, as deep as text may nest. -/

namespace Schemata

namespace Json

def Stops (rest : List Char) : Prop := ∀ c ∈ rest.head?, c = ',' ∨ c = ']' ∨ c = '\x7d'

/-- A text that reads as `x`, whatever a list or a record has behind it, and that starts with neither
a space nor the end of one. -/
structure Reads {α : Type} (item : List Char → Option (α × List Char)) (text : List Char) (x : α) :
    Prop where
  opens : ∃ c rest, text = c :: rest ∧ isSpace c = false ∧ c ≠ ']' ∧ c ≠ '\x7d'
  reads : ∀ rest, Stops rest → item (text ++ rest) = some (x, rest)

theorem stops_nil : Stops [] := fun _ h => nomatch h

theorem stops_cons {c : Char} (h : c = ',' ∨ c = ']' ∨ c = '\x7d') (rest : List Char) :
    Stops (c :: rest) := by
  rintro _ ⟨⟩
  exact h

theorem skipSpace_cons {c : Char} (h : isSpace c = false) (rest : List Char) :
    skipSpace (c :: rest) = c :: rest :=
  List.dropWhile_cons_of_neg (Bool.eq_false_iff.mp h)

/-! Numerals. -/

namespace Numeral

variable {s rest : List Char} {n : Nat} {i : Int}

theorem isDigit_of_stops (h : Stops rest) : ∀ c ∈ rest.head?, Char.isDigit c = false := by
  intro c member
  rcases h c member with rfl | rfl | rfl <;> rfl

theorem digits?_append (some : s ≠ []) (digits : ∀ c ∈ s, c.isDigit = true) (stops : Stops rest) :
    digits? (s ++ rest) = .some (s, rest) := by
  obtain ⟨front, back⟩ := Text.span_append digits (isDigit_of_stops stops)
  rw [digits?, front, back, if_neg]
  rwa [List.isEmpty_iff]

theorem accumulate_of_fits {front : Nat} (fits : Nat.ofDigitChars 10 s front < Nat.pow 2 64) :
    accumulate front s = (Nat.ofDigitChars 10 s front, s.length) := by
  induction s generalizing front with
  | nil => rfl
  | cons c rest ih =>
    have zero : '0'.toNat = 48 := rfl
    rw [Nat.ofDigitChars_cons, Nat.mul_comm, zero] at fits ⊢
    have here : front * 10 + (c.toNat - 48) < Nat.pow 2 64 := (Text.le_ofDigitChars rest _).trans_lt fits
    exact (if_pos here).trans (by rw [ih fits]; rfl)

theorem numeral_of_zero_head {rest : List Char} (h : Text.numeral n = '0' :: rest) : rest = [] := by
  have value : Nat.ofDigitChars 10 rest 0 = n := by
    rw [← Text.numeralValue_numeral n, h, Text.numeralValue, Nat.ofDigitChars_cons]
    rfl
  have digits (c : Char) (member : c ∈ rest) : c.isDigit = true :=
    Text.isDigit_of_mem_numeral (h ▸ List.mem_cons_of_mem _ member : c ∈ Text.numeral n)
  have small : n < 10 ^ rest.length := value ▸ Text.numeralValue_lt digits
  by_contra more
  have short := (Nat.length_toDigits_le_iff (by decide) (List.length_pos_iff.mpr more)).mpr small
  rw [show Nat.toDigits 10 n = '0' :: rest from h, List.length_cons] at short
  exact absurd short (Nat.not_succ_le_self _)

theorem whole?_numeral (n : Nat) (stops : Stops rest) :
    whole? (Text.numeral n ++ rest) = some (Text.numeral n, rest) := by
  obtain ⟨c, more, starts, -⟩ := Text.exists_digit_numeral n
  by_cases zero : c = '0'
  · subst zero
    have alone := numeral_of_zero_head starts
    rw [starts, alone, List.singleton_append, whole?, if_neg]
    rcases rest with _ | ⟨d, rest⟩
    · exact Bool.false_ne_true
    · exact Bool.eq_false_iff.mp (isDigit_of_stops stops d rfl)
  · have digits : digits? (Text.numeral n ++ rest) = some (Text.numeral n, rest) :=
      digits?_append Nat.toDigits_ne_nil
        (fun c h => Text.isDigit_of_mem_numeral h) stops
    rw [← digits, starts, List.cons_append]
    unfold whole?
    split
    · rename_i same
      exact absurd (List.cons.inj same).1 zero
    · rfl

theorem fraction?_of_stops (stops : Stops rest) : fraction? rest = some ([], rest) := by
  rcases rest with _ | ⟨c, rest⟩
  · rfl
  · rcases stops c rfl with rfl | rfl | rfl <;> rfl

theorem power?_of_stops (stops : Stops rest) : power? rest = some (none, rest) := by
  rcases rest with _ | ⟨c, rest⟩
  · rfl
  · rcases stops c rfl with rfl | rfl | rfl <;> rfl

theorem parts?_signedNumeral (i : Int) (stops : Stops rest) :
    parts? (Text.signedNumeral i ++ rest) =
      some (⟨i < 0, Text.numeral i.natAbs, [], none⟩, rest) := by
  have whole := whole?_numeral i.natAbs stops
  by_cases negative : i < 0
  · rw [Text.signedNumeral, if_pos negative, List.cons_append]
    simp only [parts?, whole, Option.bind_eq_bind, Option.bind_some, fraction?_of_stops stops,
      power?_of_stops stops, negative, decide_true]
    rfl
  · obtain ⟨c, more, starts, digit⟩ := Text.exists_digit_numeral i.natAbs
    rw [Text.signedNumeral, if_neg negative]
    unfold parts?
    split
    rename_i sign s split
    have unsigned : (sign, s) = (false, Text.numeral i.natAbs ++ rest) := by
      rw [← split, starts, List.cons_append]
      split
      · rename_i same
        obtain ⟨rfl, -⟩ := List.cons.inj same
        cases digit
      · rfl
    obtain ⟨rfl, rfl⟩ := Prod.mk.inj unsigned
    simp only [whole, Option.bind_eq_bind, Option.bind_some, fraction?_of_stops stops,
      power?_of_stops stops, negative, decide_false]
    rfl

theorem accumulate_numeral (fits : n < Nat.pow 2 64) :
    accumulate 0 (Text.numeral n) = (n, (Text.numeral n).length) := by
  have value : Nat.ofDigitChars 10 (Text.numeral n) 0 = n := Text.numeralValue_numeral n
  rw [accumulate_of_fits (by rwa [value]), value]

theorem decode_signedNumeral (low : -Int.pow 2 63 ≤ i) (high : i < Int.pow 2 64) :
    ∃ n : Number, (∀ rest, Stops rest → decode (Text.signedNumeral i ++ rest) = some (n, rest)) ∧
      n.toInt? = some i := by
  have powers : Int.pow 2 63 = 2 ^ 63 ∧ Int.pow 2 64 = 2 ^ 64 ∧ Nat.pow 2 63 = 2 ^ 63 ∧
      Nat.pow 2 64 = 2 ^ 64 := by decide
  have fits : i.natAbs < Nat.pow 2 64 := by omega
  have read (n : Number) (h : Parts.value? ⟨i < 0, Text.numeral i.natAbs, [], none⟩ = some n)
      (rest : List Char) (stops : Stops rest) :
      decode (Text.signedNumeral i ++ rest) = some (n, rest) := by
    rw [decode, parts?_signedNumeral i stops, Option.bind_eq_bind, Option.bind_some]
    simp only [h, Option.bind_eq_bind, Option.bind_some]
    rfl
  by_cases negative : i < 0
  · refine ⟨.int (Int64.ofInt i), read _ ?_, ?_⟩
    · have held : 0 < i.natAbs ∧ i.natAbs ≤ Nat.pow 2 63 := by omega
      have value : -(i.natAbs : Int) = i := by omega
      simp only [Parts.value?, accumulate_numeral fits, Nat.sub_self, negative, decide_true,
        if_pos held, value]
      rfl
    · exact congrArg some (Int64.toInt_ofInt_of_le low (by omega))
  · refine ⟨.uint (UInt64.ofNat i.natAbs), read _ ?_, ?_⟩
    · simp only [Parts.value?, accumulate_numeral fits, Nat.sub_self, negative, decide_false]
      rfl
    · have value : (i.natAbs : Int) = i := by omega
      refine congrArg some ?_
      rw [UInt64.toNat_ofNat_of_lt' fits]
      exact value

end Numeral

/-! Strings, lists and records. -/

variable {α : Type} {item : List Char → Option (α × List Char)} {depth : Nat} {close : Char}
  {piece : List Char} {pieces : List (List Char)} {x : α} {xs : List α}

theorem value_quote (s : List Char) :
    value depth ('"' :: s) =
      (Quoted.decode s).map fun (text, s) => (.string (String.ofList text), s) := by
  rw [value.eq_def]
  rfl

theorem value_openList (s : List Char) :
    value (depth + 1) ('[' :: s) = (elements ']' (value depth) s).2.map fun rest =>
      (.list (elements ']' (value depth) s).1, rest) := by
  rw [value.eq_def]
  rfl

theorem value_openRecord (s : List Char) :
    value (depth + 1) ('\x7b' :: s) = (elements '\x7d' (entry (value depth)) s).2.map fun rest =>
      (.map (elements '\x7d' (entry (value depth)) s).1, rest) := by
  rw [value.eq_def]
  rfl

theorem ne_of_mark {c d : Char} (mark : c.isDigit = true ∨ c = '-')
    (h : Char.isDigit d = false ∧ d ≠ '-') : c ≠ d := by
  rintro rfl
  exact mark.elim (Bool.eq_false_iff.mp h.1) h.2

theorem opens_of_mark {c : Char} (mark : c.isDigit = true ∨ c = '-') :
    isSpace c = false ∧ c ≠ ']' ∧ c ≠ '\x7d' := by
  refine ⟨?_, ne_of_mark mark (by decide), ne_of_mark mark (by decide)⟩
  rw [isSpace, decide_eq_false (ne_of_mark mark (by decide)),
    decide_eq_false (ne_of_mark mark (by decide)), decide_eq_false (ne_of_mark mark (by decide)),
    decide_eq_false (ne_of_mark mark (by decide))]
  rfl

theorem value_of_mark {c : Char} (mark : c.isDigit = true ∨ c = '-') (s : List Char) :
    value depth (c :: s) = (Numeral.decode (c :: s)).map fun (n, s) => (.number n, s) := by
  rw [value.eq_def]
  simp only [skipSpace_cons (opens_of_mark mark).1]
  split
  case h_7 => rfl
  all_goals
    rename_i same
    exact absurd (List.cons.inj same).1 (ne_of_mark mark (by decide))

theorem reads_string (s : String) : Reads (value depth) (Quoted.encode s.toList) (.string s) := by
  refine ⟨⟨_, _, rfl, by decide⟩, fun rest _ => ?_⟩
  have decoded := Quoted.decode_flatMap s.toList rest
  rw [Quoted.encode, List.cons_append, List.cons_append, List.append_assoc, List.singleton_append,
    value_quote, decoded, Option.map_some]
  exact congrArg (fun text => some (Tree.string text, rest)) String.ofList_toList

theorem reads_of_decode {i : Int} {n : Number}
    (decoded : ∀ rest, Stops rest → Numeral.decode (Text.signedNumeral i ++ rest) = some (n, rest)) :
    Reads (value depth) (Text.signedNumeral i) (.number n) := by
  obtain ⟨c, more, starts⟩ := List.exists_cons_of_ne_nil (Text.signedNumeral_ne_nil i)
  have mark := Text.mem_signedNumeral (starts ▸ List.mem_cons_self : c ∈ Text.signedNumeral i)
  refine ⟨⟨c, more, starts, opens_of_mark mark⟩, fun rest stops => ?_⟩
  have read := decoded rest stops
  rw [starts, List.cons_append] at read ⊢
  rw [value_of_mark mark, read, Option.map_some]

theorem reads_number {i : Int} (low : -Int.pow 2 63 ≤ i) (high : i < Int.pow 2 64) :
    ∃ n : Number, Reads (value depth) (Text.signedNumeral i) (.number n) ∧ n.toInt? = some i := by
  obtain ⟨n, decoded, held⟩ := Numeral.decode_signedNumeral low high
  exact ⟨n, reads_of_decode decoded, held⟩

theorem sequence_comma {s more : List Char} (h : item s = some (x, ',' :: more)) (fuel : Nat) :
    sequence close item (fuel + 1) s =
      (x :: (sequence close item fuel more).1, (sequence close item fuel more).2) := by
  rw [sequence, h]
  rfl

theorem sequence_close {s rest : List Char} (closes : close = ']' ∨ close = '\x7d')
    (h : item s = some (x, close :: rest)) (fuel : Nat) :
    sequence close item (fuel + 1) s = ([x], some rest) := by
  rw [sequence, h]
  rcases closes with rfl | rfl <;> rfl

theorem sequence_of_reads (closes : close = ']' ∨ close = '\x7d')
    (read : List.Forall₂ (Reads item) (piece :: pieces) xs) {fuel : Nat}
    (enough : pieces.length < fuel) (rest : List Char) :
    sequence close item fuel (piece ++ (further pieces ++ close :: rest)) = (xs, some rest) := by
  obtain ⟨fuel, rfl⟩ : ∃ k, fuel = k + 1 := ⟨fuel - 1, by omega⟩
  induction pieces generalizing piece xs fuel with
  | nil =>
    obtain _ | @⟨_, x, _, _, first, none⟩ := read
    cases none
    exact sequence_close closes (first.reads _ (stops_cons (.inr closes) rest)) fuel
  | cons next pieces ih =>
    obtain _ | @⟨_, x, _, xs, first, others⟩ := read
    obtain ⟨fuel, rfl⟩ : ∃ k, fuel = k + 1 := ⟨fuel - 1, by rw [List.length_cons] at enough; omega⟩
    have go := first.reads _
      (stops_cons (.inl rfl) (next ++ (further pieces ++ close :: rest)))
    have tail := ih others fuel (Nat.lt_of_succ_lt_succ enough)
    have behind : further (next :: pieces) ++ close :: rest =
        ',' :: (next ++ (further pieces ++ close :: rest)) := by
      simp only [further, List.flatMap_cons, List.cons_append, List.append_assoc]
    rw [behind, sequence_comma go, tail]

theorem length_le_further (pieces : List (List Char)) : pieces.length ≤ (further pieces).length := by
  induction pieces with
  | nil => exact Nat.le_refl 0
  | cons piece pieces ih =>
    rw [further, List.flatMap_cons, List.length_append, List.length_cons, List.length_cons]
    have rest : pieces.length ≤ (pieces.flatMap (',' :: ·)).length := ih
    omega

theorem elements_of_reads (closes : close = ']' ∨ close = '\x7d')
    (read : List.Forall₂ (Reads item) pieces xs) (rest : List Char) :
    elements close item (commaSeparated pieces ++ close :: rest) = (xs, some rest) := by
  cases read with
  | nil =>
    have mark : isSpace close = false := by rcases closes with rfl | rfl <;> rfl
    rw [commaSeparated, List.nil_append, elements, skipSpace_cons mark]
    exact if_pos rfl
  | @cons piece x pieces xs first others =>
    obtain ⟨c, more, starts, mark, list, record⟩ := first.opens
    have other : c ≠ close := by rcases closes with rfl | rfl <;> assumption
    have text : commaSeparated (piece :: pieces) ++ close :: rest =
        c :: (more ++ (further pieces ++ close :: rest)) := by
      rw [commaSeparated_cons, starts, List.append_assoc, List.cons_append]
    have enough : pieces.length < (more ++ (further pieces ++ close :: rest)).length + 1 := by
      have bound := length_le_further pieces
      simp only [List.length_append]
      omega
    have read := sequence_of_reads closes (.cons first others) enough rest
    rw [starts, List.cons_append] at read
    rw [text, elements, skipSpace_cons mark]
    exact (if_neg other).trans read

theorem reads_list {ts : List Tree} (read : List.Forall₂ (Reads (value depth)) pieces ts) :
    Reads (value (depth + 1)) (list pieces) (.list ts) := by
  refine ⟨⟨_, _, rfl, by decide⟩, fun rest _ => ?_⟩
  rw [list, List.cons_append, List.cons_append, List.append_assoc, List.singleton_append,
    value_openList, elements_of_reads (.inl rfl) read rest, Option.map_some]

theorem reads_record {es : List (String × Tree)}
    (read : List.Forall₂ (Reads (entry (value depth))) pieces es) :
    Reads (value (depth + 1)) (record pieces) (.map es) := by
  refine ⟨⟨_, _, rfl, by decide⟩, fun rest _ => ?_⟩
  rw [record, List.cons_append, List.cons_append, List.append_assoc, List.singleton_append,
    value_openRecord, elements_of_reads (.inr rfl) read rest, Option.map_some]

theorem reads_member (key : String) {text : List Char} {t : Tree} (read : Reads (value depth) text t) :
    Reads (entry (value depth)) (member key text) (key, t) := by
  refine ⟨⟨_, _, rfl, by decide⟩, fun rest stops => ?_⟩
  have decoded := Quoted.decode_flatMap key.toList (':' :: (text ++ rest))
  rw [member, Quoted.encode, List.cons_append, List.cons_append, List.cons_append, List.append_assoc,
    List.append_assoc, List.singleton_append, List.cons_append, entry, skipSpace_cons rfl]
  simp only [decoded, skipSpace_cons (c := ':') rfl, read.reads rest stops, Option.map_some,
    String.ofList_toList]

end Json

namespace Value

variable {v w : Value} {depth : Nat} {items : List Value} {fields : List (String × Value)}

/-- What is built of nulls, booleans, integers of a word, strings, arrays and objects. -/
def Plain : Value → Prop
  | undefined | dateTime _ | number (.float _) | number (.big _) => False
  | object fields => Keyed.Distinct fields
  | _ => True

/-- Wherever two values hold objects, in the same places, these have the same keys in one order. -/
inductive SameOrder : Value → Value → Prop
  | leaf {v w : Value} (hv : v.depth = 0) (hw : w.depth = 0) : SameOrder v w
  | array {items items' : List Value} (each : List.Forall₂ SameOrder items items') :
      SameOrder (.array items) (.array items')
  | object {fields fields' : Keyed Value} (keys : fields.keys = fields'.keys)
      (each : List.Forall₂ SameOrder (fields.map Prod.snd) (fields'.map Prod.snd)) :
      SameOrder (.object fields) (.object fields')

theorem depth_item (h : v ∈ items) : v.depth < (array items).depth := by
  induction items with
  | nil => cases h
  | cons head rest ih =>
    rw [depth, depthOfItems]
    rcases List.mem_cons.mp h with rfl | h
    · exact Nat.lt_succ_of_le (Nat.le_max_left _ _)
    · exact (ih h).trans_le (Nat.succ_le_succ (Nat.le_max_right _ _))

theorem depth_field {e : String × Value} (h : e ∈ fields) : e.2.depth < (object fields).depth := by
  induction fields with
  | nil => cases h
  | cons head rest ih =>
    rw [depth, depthOfFields]
    rcases List.mem_cons.mp h with rfl | h
    · exact Nat.lt_succ_of_le (Nat.le_max_left _ _)
    · exact (ih h).trans_le (Nat.succ_le_succ (Nat.le_max_right _ _))

theorem toValues_eq (ts : List Tree) : Tree.toValues ts = ts.map Tree.toValue := by
  induction ts with
  | nil => rfl
  | cons t rest ih => rw [Tree.toValues, ih, List.map_cons]

theorem toFields_eq (entries : List (String × Tree)) :
    Tree.toFields entries = entries.map fun e => (e.1, e.2.toValue) := by
  induction entries with
  | nil => rfl
  | cons e rest ih => rw [Tree.toFields, ih, List.map_cons]

def ReadsBack (depth : Nat) (v : Value) (t : Tree) : Prop :=
  Json.Reads (Json.value depth) v.json t ∧ v.equal t.toValue = true ∧ v.SameOrder t.toValue

def FieldReadsBack (depth : Nat) (e : String × Value) (e' : String × Tree) : Prop :=
  e.1 = e'.1 ∧ ReadsBack depth e.2 e'.2

theorem readsBack_array {ts : List Tree} (h : List.Forall₂ (ReadsBack depth) items ts) :
    ReadsBack (depth + 1) (array items) (.list ts) := by
  refine ⟨?_, ?_, ?_⟩
  · rw [json, jsonItems_eq]
    refine Json.reads_list (List.forall₂_map_left_iff.mpr (h.imp fun _ _ back => back.1))
  · rw [Tree.toValue, toValues_eq, equal, equalItems_iff]
    exact List.forall₂_map_right_iff.mpr (h.imp fun _ _ back => back.2.1)
  · rw [Tree.toValue, toValues_eq]
    exact .array (List.forall₂_map_right_iff.mpr (h.imp fun _ _ back => back.2.2))

theorem readsBack_object {entries : List (String × Tree)} (distinct : Keyed.Distinct fields)
    (h : List.Forall₂ (FieldReadsBack depth) fields entries) :
    ReadsBack (depth + 1) (object fields) (.map entries) := by
  have keys : Keyed.keys fields = Keyed.keys (Tree.toFields entries) := by
    rw [toFields_eq, Keyed.keys, Keyed.keys, List.map_map]
    exact map_eq_of_forall₂ (h.imp fun _ _ e => e.1)
  have once : Keyed.ofEntries (Tree.toFields entries) = Tree.toFields entries := by
    have distinct' : (Keyed.keys (Tree.toFields entries)).Nodup := keys ▸ distinct
    exact Keyed.foldl_insert_of_new (fun _ _ => List.not_mem_nil) distinct'
  refine ⟨?_, ?_, ?_⟩
  · rw [json, jsonFields_eq]
    refine Json.reads_record (List.forall₂_map_left_iff.mpr (h.imp fun e e' same => ?_))
    rw [show e' = (e.1, e'.2) from Prod.ext same.1.symm rfl]
    exact Json.reads_member e.1 same.2.1
  · rw [Tree.toValue, once, toFields_eq]
    exact equal_object_of_alike distinct
      (List.forall₂_map_right_iff.mpr (h.imp fun _ _ e => ⟨e.1, e.2.2.1⟩))
  · rw [Tree.toValue, once]
    refine .object keys ?_
    rw [toFields_eq, List.map_map]
    exact List.forall₂_map_left_iff.mpr (List.forall₂_map_right_iff.mpr (h.imp fun _ _ e => e.2.2.2))

theorem reads_null : Json.Reads (Json.value depth) null.json .null :=
  ⟨⟨_, _, rfl, by decide⟩, fun _ _ => by rw [Json.value.eq_def]; rfl⟩

theorem reads_bool (b : Bool) : Json.Reads (Json.value depth) (bool b).json (.bool b) := by
  cases b <;> exact ⟨⟨_, _, rfl, by decide⟩, fun _ _ => by rw [Json.value.eq_def]; rfl⟩

theorem readsBack_number {n : Number} (h : Plain (number n)) : ∃ t, ReadsBack depth (number n) t := by
  obtain ⟨i, held, text, low, high⟩ : ∃ i, n.toInt? = some i ∧
      (number n).json = Text.signedNumeral i ∧ -Int.pow 2 63 ≤ i ∧ i < Int.pow 2 64 := by
    cases n with
    | int m =>
      exact ⟨_, rfl, rfl, m.le_toInt, m.toInt_lt.trans (by decide)⟩
    | uint m =>
      have word := m.toNat_lt
      have positive : ¬(m.toNat : Int) < 0 := by omega
      refine ⟨_, rfl, (if_neg positive).symm, ?_, ?_⟩
      · exact (show -Int.pow 2 63 ≤ 0 by decide).trans (Int.natCast_nonneg _)
      · exact Int.ofNat_lt.mpr word
    | float m => exact h.elim
    | big m => exact h.elim
  obtain ⟨m, read, same⟩ := Json.reads_number low high
  exact ⟨.number m, text ▸ read, Number.equal_of_toInt? held same, .leaf rfl rfl⟩

/-- Every value without fractions and large integers is read back from its text. -/
theorem exists_readsBack (h : v.Every Plain) (deep : v.depth ≤ depth) : ∃ t, ReadsBack depth v t := by
  induction v using partsInduction generalizing depth with
  | null => exact ⟨.null, reads_null, rfl, .leaf rfl rfl⟩
  | undefined => exact h.self.elim
  | bool b => exact ⟨.bool b, reads_bool b, beq_self_eq_true b, .leaf rfl rfl⟩
  | number n => exact readsBack_number h.self
  | string s => exact ⟨.string s, Json.reads_string s, beq_self_eq_true s, .leaf rfl rfl⟩
  | array items ih =>
    obtain ⟨depth, rfl⟩ := Nat.exists_eq_succ_of_ne_zero (Nat.ne_zero_of_lt deep)
    obtain ⟨ts, each⟩ := exists_forall₂ fun v member =>
      ih v member (h.item member) (Nat.le_of_lt_succ ((depth_item member).trans_le deep))
    exact ⟨.list ts, readsBack_array each⟩
  | object fields ih =>
    obtain ⟨depth, rfl⟩ := Nat.exists_eq_succ_of_ne_zero (Nat.ne_zero_of_lt deep)
    have field (e) (member : e ∈ fields) : ∃ e', FieldReadsBack depth e e' := by
      obtain ⟨t, back⟩ := ih e member (h.field member)
        (Nat.le_of_lt_succ ((depth_field member).trans_le deep))
      exact ⟨(e.1, t), rfl, back⟩
    obtain ⟨entries, each⟩ := exists_forall₂ field
    exact ⟨.map entries, readsBack_object h.self each⟩
  | dateTime d => exact h.self.elim

/-- The JSON text of a plain value is parsed as an equal value with the same keys in the same order
in every object. -/
theorem ofJson?_jsonText (plain : v.Every Plain) (shallow : v.depth ≤ 127) :
    ∃ w, Value.ofJson? v.jsonText = some w ∧ v.equal w = true ∧ v.SameOrder w := by
  obtain ⟨t, read, same, order⟩ := exists_readsBack plain shallow
  have text := read.reads [] Json.stops_nil
  rw [List.append_nil] at text
  refine ⟨t.toValue, ?_, same, order⟩
  rw [ofJson?, Json.read?, jsonText, String.toList_ofList, Json.depthLimit, text]
  rfl

theorem every_of_leaf {P : Value → Prop} (leaf : v.depth = 0) (self : P v) : v.Every P := by
  intro x inside
  cases inside with
  | here => exact self
  | item member inside => exact absurd leaf (Nat.ne_zero_of_lt (depth_item member))
  | field member inside => exact absurd leaf (Nat.ne_zero_of_lt (depth_field member))

theorem ofJson?_jsonText_of_record : ∃ v w,
    v = object [("name", string "a\n\"b\\"), ("edges",
      array [number (.int (Int64.ofInt (-9223372036854775808))),
        number (.uint 18446744073709551615), array [], bool true, null])] ∧
    Value.ofJson? v.jsonText = some w ∧ v.equal w = true ∧ v.SameOrder w := by
  refine ⟨_, (ofJson?_jsonText (every_object ?_ ?_) (by decide)).imp fun _ read => ⟨rfl, read⟩⟩
  · exact (by decide : ["name", "edges"].Nodup)
  · intro e member
    obtain rfl | rfl := by simpa using member
    · exact every_of_leaf rfl trivial
    · refine every_array trivial fun v member => ?_
      obtain rfl | rfl | rfl | rfl | rfl := by simpa using member
      · exact every_of_leaf rfl trivial
      · exact every_of_leaf rfl trivial
      · exact every_array trivial fun _ h => nomatch h
      · exact every_of_leaf rfl trivial
      · exact every_of_leaf rfl trivial

end Value
end Schemata

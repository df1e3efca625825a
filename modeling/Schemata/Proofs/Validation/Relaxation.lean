import Mathlib
import Schemata.Proofs.Node.Inheritance
import Schemata.Proofs.Validation.Leniency

/-! Runs under more lenient options. An earlier alternative may win, a value may be wrapped and keys
may be dropped, so outputs differ; but acceptance carries over from part to part. -/

namespace Schemata

def Shape.Repeatable {μ ρ : Type} (s : Shape μ ρ) : Prop :=
  ∀ f, s = .array f → f.uniqueItems ≠ some true

structure Node.Repeatable (n : Node) : Prop where
  shape : n.shape.Repeatable
  ownShape : n.ownShape.Repeatable

theorem Shape.Repeatable.merge {μ ρ : Type} {s t : Shape μ ρ} (hs : s.Repeatable)
    (ht : t.Repeatable) (mode : MergeMode) : (s.merge mode t).Repeatable := by
  intro f h
  cases s with
  | array a =>
    cases t with
    | array b =>
      obtain rfl : a.merge mode b = f := Shape.array.inj h
      change Merge.singular mode a.uniqueItems b.uniqueItems ≠ some true
      rcases Merge.singular_cases mode a.uniqueItems b.uniqueItems with same | same <;> rw [same]
      · exact hs a rfl
      · exact ht b rfl
    | _ => exact hs f h
  | _ => cases t <;> cases h

theorem repeatable_heritable :
    Heritable (fun _ => True) (fun _ => True) fun s => s.Repeatable where
  empty := trivial
  emptyShape b f h := by
    cases b <;> cases h
    exact fun set => nomatch set
  header _ _ _ _ _ := trivial
  shape mode _ _ hs ht := hs.merge ht mode
  optionalNull _ _ _ := trivial

namespace Check

def Part.Accepts (part : Part) (l : Location) (v : Value) : Prop := ∃ w, part l v = some (.accept w)

/-- The second check, if it decides, accepts what the first one does. -/
def Part.Eases (a b : Part) : Prop :=
  ∀ l v, a.Accepts l v → ∀ r, b l v = some r → ∃ w, r = .accept w

variable {a b : Part} {l : Location} {v w : Value} {o o' : ValidationOptions}
  {firstOnly firstOnly' : Bool}

/-! Arrays. -/

section Items

variable {rules rules' : ItemRules}

theorem keep_of_not_unique {st : ItemState} (plain : rules.unique = false) (w : Value) :
    st.keep rules w = st.push rules w := by
  unfold ItemState.keep
  rw [plain]
  rfl

theorem admits_of_not_unique {st : ItemState} (plain : rules.unique = false) (w : Value) :
    st.Admits rules w := by
  unfold ItemState.Admits
  rw [plain]
  rfl

theorem items_ease (eases : a.Eases b) (settled : a.Settled False) (plain : rules.unique = false)
    (plain' : rules'.unique = false) (positive : 0 < rules.limit) (positive' : 0 < rules'.limit)
    {list : List Value} {i : Nat} {st st' out out' : ItemState} (clean' : st'.Clean)
    (lengths : st.output.length = st'.output.length)
    (run : items rules a l i st list = some out) (clean : out.Clean)
    (run' : items rules' b l i st' list = some out') :
    out'.Clean ∧ out.output.length = out'.output.length := by
  induction list generalizing i st st' with
  | nil =>
    obtain rfl := Option.some.inj run
    obtain rfl := Option.some.inj run'
    exact ⟨clean', lengths⟩
  | cons v rest ih =>
    obtain ⟨w, accepted, -, run⟩ := exists_of_items_cons settled positive run clean
    rw [items_cons (clean'.goes positive')] at run'
    obtain ⟨r, decided, run'⟩ := Option.bind_eq_some_iff.mp run'
    obtain ⟨w', rfl⟩ := eases _ _ ⟨w, accepted⟩ r decided
    rw [ItemState.take_accept, admits_of_not_unique plain' w', if_neg Bool.false_ne_true] at run'
    refine ih (clean'.keep rules' w') ?_ run run'
    rw [keep_of_not_unique plain, keep_of_not_unique plain']
    simp only [ItemState.push, List.length_append, lengths, List.length_singleton]

end Items

theorem array_eases (h : o.Relaxed o') (eases : a.Eases b) (settled : a.Settled False) {ρ : Type}
    {f : ArrayFacets ρ} (plain : f.uniqueItems ≠ some true) :
    Part.Eases (array f o firstOnly a) (array f o' firstOnly' b) := by
  rintro l v ⟨w, accepted⟩ r decided
  obtain ⟨list, st, read, run, clean, within, -⟩ := array_eq_accept_iff.mp accepted
  rw [array_eq, itemsOf?_relaxed h read] at decided
  obtain ⟨st', run', rfl⟩ := Option.map_eq_some_iff.mp decided
  have once : f.uniqueItems.getD false = false := by
    rcases hu : f.uniqueItems with _ | _ | _
    · rfl
    · rfl
    · exact absurd hu plain
  obtain ⟨clean', lengths⟩ := items_ease eases settled once once (positive_itemRules f o firstOnly)
    (positive_itemRules f o' firstOnly') ⟨rfl, rfl⟩ rfl run clean run'
  rw [lengths] at within
  exact ⟨_, finishArray_eq_accept_iff.mpr ⟨clean', within, rfl⟩⟩

/-! Objects. -/

structure PropertyRule.Eases (p q : PropertyRule) : Prop where
  part : p.part.Eases q.part
  required : q.required = true → p.required = true
  ignored : p.ignored = true → q.ignored = true
  hasDefault : p.hasDefault = q.hasDefault

structure KeyRules.Eases (rules rules' : KeyRules) : Prop where
  properties : Keyed.Alike PropertyRule.Eases rules.properties rules'.properties
  settled : ∀ e ∈ rules.properties, e.2.part.Settled False
  drops : rules.drops = true → rules'.drops = true
  additional : rules.additional = rules'.additional
  positive : 0 < rules.limit
  positive' : 0 < rules'.limit

theorem givenProperty_eases {p q : PropertyRule} (h : p.Eases q) :
    Part.Eases (givenProperty p) (givenProperty q) := by
  rintro l v ⟨w, accepted⟩ r decided
  unfold givenProperty at accepted decided
  split at decided
  · exact ⟨v, (Option.some.inj decided).symm⟩
  · rename_i checked'
    refine h.part l v ⟨w, ?_⟩ r decided
    rw [if_neg] at accepted
    · exact accepted
    · intro skipped
      simp only [Bool.and_eq_true] at skipped checked'
      rw [← h.hasDefault] at checked'
      exact checked' ⟨⟨h.ignored skipped.1.1, skipped.1.2⟩, skipped.2⟩

section Keys

variable {rules rules' : KeyRules}

theorem givenKeys_ease (h : rules.Eases rules') {fields : List (String × Value)}
    {st st' out out' : KeyState} (clean' : st'.Clean)
    (run : givenKeys rules l st fields = some out) (clean : out.Clean)
    (run' : givenKeys rules' l st' fields = some out') : out'.Clean := by
  induction fields generalizing st st' with
  | nil =>
    obtain rfl := Option.some.inj run'
    exact clean'
  | cons e rest ih =>
    obtain ⟨key, v⟩ := e
    have settled : ∀ key p, Keyed.get? rules.properties key = some p → p.part.Settled False :=
      fun key p found => h.settled _ (Keyed.mem_of_get? found)
    obtain ⟨value, treats, run⟩ := exists_of_givenKeys_cons settled h.positive run clean
    have found := h.properties.get? key
    rcases treated : Keyed.get? rules'.properties key with _ | q <;> rw [treated] at found
    -- What is not declared is dropped under the second rules, or stays as under the first ones.
    · have follows (value' : Option Value) (treats' : Treats rules' l key v value') : out'.Clean := by
        rw [givenKeys_cons_accept clean' h.positive' treats'] at run'
        exact ih (clean'.put key value') run run'
      rcases drops' : rules'.drops with _ | _
      · cases treats with
        | dropped _ drops =>
          rw [h.drops drops] at drops'
          cases drops'
        | kept _ _ additional =>
          exact follows _ (.kept treated drops' (h.additional ▸ additional))
        | declared declared _ =>
          rw [declared] at found
          cases found
      · exact follows _ (.dropped treated drops')
    · cases treats with
      | @declared p w declared accepted =>
        rw [declared] at found
        cases found with
        | some found =>
          rw [givenKeys_cons (clean'.goes h.positive') treated] at run'
          obtain ⟨r, decided, run'⟩ := Option.bind_eq_some_iff.mp run'
          obtain ⟨w', rfl⟩ := givenProperty_eases found _ _ ⟨w, accepted⟩ r decided
          rw [KeyState.take_accept] at run'
          exact ih (clean'.put key w'.present?) run run'
      | dropped undeclared _ =>
        rw [undeclared] at found
        cases found
      | kept undeclared _ _ =>
        rw [undeclared] at found
        cases found

theorem PropertyRule.Eases.due {p q : PropertyRule} (h : p.Eases q) {given : Keyed Value}
    {key : String} (due' : q.due given key = true) : p.due given key = true := by
  rw [PropertyRule.due, Bool.not_or, Bool.not_not, Bool.and_eq_true, Bool.or_eq_true] at due' ⊢
  rw [h.hasDefault]
  exact ⟨due'.1, due'.2.imp h.required id⟩

theorem absentKeys_ease (positive : 0 < rules.limit) (positive' : 0 < rules'.limit)
    {given : Keyed Value} {properties properties' : Keyed PropertyRule}
    (h : Keyed.Alike PropertyRule.Eases properties properties')
    (settled : ∀ e ∈ properties, e.2.part.Settled False) {st st' out out' : KeyState}
    (clean' : st'.Clean) (run : absentKeys rules l given st properties = some out)
    (clean : out.Clean) (run' : absentKeys rules' l given st' properties' = some out') :
    out'.Clean := by
  induction h generalizing st st' with
  | nil =>
    obtain rfl := Option.some.inj run'
    exact clean'
  | @cons e e' properties properties' he _ ih =>
    obtain ⟨key, p⟩ := e
    obtain ⟨key', q⟩ := e'
    obtain ⟨rfl, he⟩ : key = key' ∧ p.Eases q := he
    have first := settled _ List.mem_cons_self
    have ih {st st' : KeyState} :=
      @ih (fun e he => settled e (List.mem_cons_of_mem _ he)) st st'
    have before : st.Clean := (absentKeys_grown run).clean clean
    rcases due' : q.due given key with _ | _
    · rw [absentKeys_cons_of_not_due clean' positive' due'] at run'
      rcases due : p.due given key with _ | _
      · rw [absentKeys_cons_of_not_due before positive due] at run
        exact ih clean' run run'
      · obtain ⟨w, -, run⟩ := exists_of_absentKeys_cons first positive run clean due
        exact ih clean' run run'
    · obtain ⟨w, accepted, run⟩ :=
        exists_of_absentKeys_cons first positive run clean (he.due due')
      rw [absentKeys_cons_of_due clean' positive' due'] at run'
      obtain ⟨r, decided, run'⟩ := Option.bind_eq_some_iff.mp run'
      obtain ⟨w', rfl⟩ := he.part _ _ ⟨w, accepted⟩ r decided
      rw [KeyState.take_accept] at run'
      exact ih (clean'.put key w'.present?) run run'

end Keys

theorem object_eases (h : o.Relaxed o') {properties properties' : Keyed PropertyRule}
    (alike : Keyed.Alike PropertyRule.Eases properties properties')
    (settled : ∀ e ∈ properties, e.2.part.Settled False) {ρ : Type} {f : ObjectFacets ρ}
    {name : Option String} :
    Part.Eases (object f name o firstOnly properties) (object f name o' firstOnly' properties') := by
  rintro l v ⟨w, accepted⟩ r decided
  obtain ⟨given, st, out, rfl, told, first, second, clean, within, -⟩ :=
    object_eq_accept_iff.mp accepted
  rw [object_eq] at decided
  dsimp only at decided
  rw [told, Option.elim_none] at decided
  obtain ⟨st', first', decided⟩ := Option.bind_eq_some_iff.mp decided
  obtain ⟨out', second', rfl⟩ := Option.map_eq_some_iff.mp decided
  have eases : (keyRules f o firstOnly properties).Eases (keyRules f o' firstOnly' properties') :=
    ⟨alike, settled, h.dropsAdditional, rfl, positive_keyRules f o firstOnly properties,
      positive_keyRules f o' firstOnly' properties'⟩
  have clean' := givenKeys_ease eases ⟨rfl, rfl⟩ first ((absentKeys_grown second).clean clean) first'
  have clean' := absentKeys_ease eases.positive eases.positive' alike settled clean' second clean
    second'
  exact ⟨_, finishObject_eq_accept_iff.mpr ⟨clean', within, rfl⟩⟩

/-! Unions. -/

structure Candidate.Eases (c d : Candidate) : Prop where
  alike : Candidate.Alike Part.Eases c d
  trial : ∀ part, c.precheck = some part → part.Settled False
  settled : c.part.Settled False
  settled' : d.part.Settled False

theorem candidate_eases {c d : Candidate} (h : c.Eases d)
    (accepted : candidate c l v = some (.ok (some w)))
    {out : Except (List ValidationError) (Option Value)} (decided : candidate d l v = some out) :
    ∃ w', out = .ok (some w') := by
  obtain ⟨⟨trial, tried, passed⟩, accepted⟩ := (candidate_eq_ok_iff h.settled).mp accepted
  rw [candidate_eq] at decided
  obtain ⟨trial', tried', decided⟩ := Option.bind_eq_some_iff.mp decided
  have passed' : trial'.errors = [] := by
    have precheck := h.alike.precheck
    unfold Candidate.trial at tried tried'
    rcases hc : c.precheck with _ | first <;> rcases hd : d.precheck with _ | first' <;>
      rw [hc, hd] at precheck
    · rw [hd] at tried'
      obtain rfl := Option.some.inj tried'
      rfl
    · cases precheck
    · cases precheck
    · rw [hc] at tried
      rw [hd] at tried'
      cases precheck with
      | some precheck =>
        obtain ⟨w', rfl⟩ := (h.trial first hc _ _ _ tried).eq_accept passed
        obtain ⟨w'', rfl⟩ := precheck l v ⟨w', tried⟩ trial' tried'
        rfl
  rw [passed', List.isEmpty_nil, if_pos rfl] at decided
  obtain ⟨r, checked, rfl⟩ := Option.map_eq_some_iff.mp decided
  obtain ⟨w', rfl⟩ := h.alike.part l v ⟨w, accepted⟩ r checked
  exact ⟨w', rfl⟩

theorem firstMatch_eases {cs ds : List Candidate} (h : List.Forall₂ Candidate.Eases cs ds)
    {last last' : List ValidationError}
    (accepted : firstMatch firstOnly l v last cs = some (.accept w)) {r : Report}
    (decided : firstMatch firstOnly' l v last' ds = some r) : ∃ w', r = .accept w' := by
  induction h generalizing last last' with
  | nil =>
    have accepted : _ = Report.accept w := Option.some.inj accepted
    split at accepted
    · exact absurd accepted Report.reject_ne_accept
    · cases congrArg Report.output accepted
  | @cons c d cs ds hcd _ ih =>
    rw [firstMatch_cons] at accepted decided
    obtain ⟨out, tried, accepted⟩ := Option.bind_eq_some_iff.mp accepted
    obtain ⟨out', tried', decided⟩ := Option.bind_eq_some_iff.mp decided
    rcases out' with errors' | output'
    · rcases out with errors | output
      · exact ih accepted decided
      · obtain rfl : output = some w := congrArg Report.output (Option.some.inj accepted)
        obtain ⟨w', same⟩ := candidate_eases hcd tried tried'
        cases same
    · rw [candidate_eq] at tried'
      obtain ⟨trial', -, tried'⟩ := Option.bind_eq_some_iff.mp tried'
      split at tried'
      · obtain ⟨r', decided', same⟩ := Option.map_eq_some_iff.mp tried'
        unfold verdict at same
        split at same
        · rename_i clean
          obtain ⟨w', rfl⟩ := (hcd.settled' _ _ _ decided').eq_accept (List.isEmpty_iff.mp clean)
          obtain rfl : some w' = output' := Except.ok.inj same
          exact ⟨w', (Option.some.inj decided).symm⟩
        · cases same
      · cases tried'

/-! Types. -/

variable {g : Graph} {fuel : Nat} {n : Node}

theorem guarded_eases (h : o.Relaxed o') (eases : a.Eases b) (acceptsNil : Bool) :
    Part.Eases (guarded n acceptsNil o a) (guarded n acceptsNil o' b) := by
  rintro l v ⟨w, accepted⟩ r decided
  rcases guarded_eq_accept_iff.mp accepted with ⟨absent, accepted⟩ | ⟨enters, accepted⟩
  · rw [guarded_eq, if_pos absent] at decided
    obtain rfl := Option.some.inj decided
    exact missing_relaxed h accepted
  · rw [guarded_of_enters enters] at decided
    exact eases l v ⟨w, accepted⟩ r decided

theorem propertyRule_eases (h : o.Relaxed o') {run run' : Node → Part} {type : Node}
    (eases : (run type).Eases (run' type)) (name : String) :
    (propertyRule o run name type).Eases (propertyRule o' run' name type) := by
  refine ⟨eases, fun required => ?_, h.ignore.covers, rfl⟩
  simp only [propertyRule, Bool.and_eq_true, Bool.not_eq_true'] at required ⊢
  refine ⟨required.1, Bool.eq_false_iff.mpr fun ignored => ?_⟩
  exact Bool.eq_false_iff.mp required.2 (h.ignore.covers ignored)

theorem shape_eases (h : o.Relaxed o') {run run' : Node → Part}
    (eases : ∀ x ∈ n.shape.links, (run (g.resolve x)).Eases (run' (g.resolve x)))
    (settled : ∀ n, (run n).Settled False) (plain : n.shape.Repeatable) :
    Part.Eases (shape g firstOnly o run n) (shape g firstOnly' o' run' n) := by
  rintro l v ⟨w, accepted⟩ r decided
  rcases hs : n.shape with _ | f | f | _ | _ | f | f | f | _
  case array =>
    rw [shape_itemPart hs] at accepted decided
    have part : Part.Eases (itemPart g run f.items) (itemPart g run' f.items) := by
      rw [hs] at eases
      rcases hi : f.items with _ | x
      · rintro _ v ⟨w, accepted⟩ r decided
        exact ⟨v, (Option.some.inj decided).symm⟩
      · exact eases x (by rw [Shape.links, hi]; exact List.mem_singleton.mpr rfl)
    exact array_eases h part (itemPart_settled settled _) (plain f hs) l v ⟨w, accepted⟩ r decided
  case object =>
    rw [shape_object hs] at accepted decided
    rw [hs] at eases
    refine object_eases h ?_ ?_ l v ⟨w, accepted⟩ r decided
    · rw [Keyed.Alike, propertyRules, propertyRules, List.forall₂_map_left_iff,
        List.forall₂_map_right_iff]
      exact List.forall₂_same.mpr fun e he =>
        ⟨rfl, propertyRule_eases h (eases _ (List.mem_map_of_mem he)) _⟩
    · intro e he
      obtain ⟨p, -, rfl⟩ := List.mem_map.mp he
      exact settled _
  all_goals
    unfold shape at accepted decided
    rw [hs] at accepted decided
    dsimp only at accepted decided
  case union => exact absurd (Option.some.inj accepted) Report.reject_ne_accept
  all_goals
    obtain rfl := Option.some.inj decided
    have accepted := Option.some.inj accepted
  case any => exact ⟨v, rfl⟩
  case string => exact string_relaxed h accepted
  case number => exact number_relaxed h accepted
  case boolean => exact boolean_relaxed h accepted
  case nil => exact absurd accepted wrongType_ne_accept
  case date => exact date_relaxed h accepted

theorem run_eases (fuel : Nat) : ∀ {o o' : ValidationOptions}, o.Relaxed o' → ∀ {n : Node},
    g.Every (Node.Has (fun _ => True) (fun _ => True) Shape.Repeatable) n →
    (run g firstOnly fuel o n).Eases (run g firstOnly' fuel o' n) := by
  induction fuel with
  | zero =>
    rintro o o' - n - l v ⟨w, accepted⟩
    cases accepted
  | succ fuel ih =>
    intro o o' h n every
    have alternative {alternatives : List Node} (found : n.alternatives? = some alternatives)
        {alt : Node} (ha : alt ∈ alternatives) :
        g.Every (Node.Has (fun _ => True) (fun _ => True) Shape.Repeatable) alt := by
      apply Graph.every_alternative repeatable_heritable every
      rw [Node.alternatives_of_some found]
      exact ha
    rw [run_succ, run_succ]
    split
    · refine guarded_eases h (shape_eases h (fun x hx => ?_) (settled_run _ _ _ _)
        every.self.shape) _
      exact ih h (every.link (List.mem_append_left _ hx))
    · rename_i only found
      exact guarded_eases h (ih h (alternative found List.mem_cons_self)) _
    · rename_i alternatives _ found
      refine guarded_eases h ?_ _
      rintro l v ⟨w, accepted⟩ r decided
      refine firstMatch_eases ?_ accepted decided
      rw [List.forall₂_map_left_iff, List.forall₂_map_right_iff]
      refine List.forall₂_same.mpr fun alt ha => ?_
      have eases {p p' : ValidationOptions} (h : p.Relaxed p') := ih h (alternative found ha)
      refine ⟨asCandidate_alike (eases h) (eases h.precheck), fun part hp => ?_,
        settled_run _ _ _ _ _, settled_run _ _ _ _ _⟩
      unfold asCandidate at hp
      dsimp only at hp
      split at hp
      · obtain rfl := Option.some.inj hp
        exact settled_run _ _ _ _ _
      · cases hp

end Check

namespace Validator

/-- Without `uniqueItems` in any type led to, a value accepted under some options is accepted under
all more lenient ones, if that validation terminates. -/
theorem validate?_relaxed {g : Graph} {n : Node} {o o' : ValidationOptions} {steps steps' : Nat}
    {value w : Value} {x : Except (List ValidationError) Value}
    (repeatable : g.Every Node.Repeatable n) (relaxed : o.Relaxed o')
    (h : validate? ⟨g, n, o⟩ steps value = some (.ok w))
    (h' : validate? ⟨g, n, o'⟩ steps' value = some x) : ∃ w', x = .ok w' := by
  have every := repeatable.imp fun m h =>
    (⟨trivial, trivial, trivial, h.shape, h.ownShape⟩ :
      Node.Has (fun _ => True) (fun _ => True) Shape.Repeatable m)
  obtain ⟨r, decided, rfl⟩ := Option.map_eq_some_iff.mp h'
  have accepted := Check.run_mono (Nat.le_max_left steps steps') _ _ _ _ _ (validate?_eq_ok_iff.mp h)
  have decided := Check.run_mono (Nat.le_max_right steps steps') _ _ _ _ _ decided
  obtain ⟨w', rfl⟩ := Check.run_eases _ relaxed every _ _ ⟨w, accepted⟩ r decided
  exact ⟨w', rfl⟩

theorem validate?_relaxed_of_numeral :
    let either : List Node := [.ofBase .number, .ofBase .string]
    let n : Node := { Node.ofBase .union with shape := .union either, ownShape := .union either }
    validate? ⟨.initial, n, .strict⟩ 2 (.string "5") = some (.ok (.string "5")) ∧
      ∃ w, validate? ⟨.initial, n, .coercing⟩ 2 (.string "5") = some (.ok w) := by
  intro either n
  have strict : validate? ⟨.initial, n, .strict⟩ 2 (.string "5") = some (.ok (.string "5")) := by
    cbv
  have decided : (validate? ⟨.initial, n, .coercing⟩ 2 (.string "5")).isSome = true := by cbv
  obtain ⟨x, hx⟩ := Option.isSome_iff_exists.mp decided
  have repeatable : Graph.initial.Every Node.Repeatable n := by
    refine Graph.every_of_step ⟨by rintro f ⟨⟩, by rintro f ⟨⟩⟩ ?_
    rintro m (hm | ⟨hx⟩)
    · have member : m ∈ either := (List.mem_append.mp hm).elim id id
      rcases List.mem_cons.mp member with rfl | member
      · exact Graph.every_ofBase ⟨by rintro f ⟨⟩, by rintro f ⟨⟩⟩
      · obtain rfl := List.mem_singleton.mp member
        exact Graph.every_ofBase ⟨by rintro f ⟨⟩, by rintro f ⟨⟩⟩
    · cases hx
  have relaxed : ValidationOptions.strict.Relaxed .coercing :=
    ⟨fun _ => rfl, fun _ => rfl, rfl, .inl rfl, .none _, id⟩
  obtain ⟨w, rfl⟩ := validate?_relaxed repeatable relaxed strict hx
  exact ⟨strict, w, hx⟩

end Validator
end Schemata

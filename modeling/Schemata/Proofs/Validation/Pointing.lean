import Schemata.Proofs.Validation.Contract
import Schemata.Proofs.Value.Occurrence

/-! Error paths. With `strictTypes` and without `coerceTypes` the path of an error is that of a part
of the input, and the error describes that part. -/

namespace Schemata

namespace Value

def step? : Value → Segment → Option Value
  | object fields, .key k => some ((Keyed.get? fields k).getD undefined)
  | array items, .index i => items[i]?
  | _, _ => none

/-- The part of a value at a location; only a last key may be absent. -/
def part? (v : Value) : Location → Option Value
  | [] => some v
  | s :: outer => (v.part? outer).bind (·.step? s)

theorem part?_append (v : Value) (inner outer : Location) :
    v.part? (inner ++ outer) = (v.part? outer).bind (·.part? inner) := by
  induction inner with
  | nil => exact (Option.bind_fun_some _).symm
  | cons s inner ih =>
    rw [List.cons_append, part?, ih, Option.bind_assoc]
    rfl

theorem part?_of_step {v u : Value} {s : Segment} (h : v.step? s = some u) (inner : Location) :
    v.part? (inner ++ [s]) = u.part? inner := by
  rw [part?_append, part?, part?, Option.bind_some, h, Option.bind_some]

end Value

/-- What an error says of the part that it points to. -/
def Fault.Describes (u : Value) : Fault → Prop
  | .valueRequired => u.isMissing = true
  | .invalidType _ actual | .invalidEnumValue actual _ | .badFormat actual _
  | .notMultipleOf actual _ | .noUnionMember actual | .outOfRange .value actual _ _ => actual = u
  | .outOfRange .length actual _ _ => ∃ s, u = .string s ∧ actual = .ofCount s.length
  | .outOfRange .items actual _ _ => ∃ items, u = .array items ∧ actual = .ofCount items.length
  | .outOfRange .properties actual _ _ =>
    ∃ fields, u = .object fields ∧ actual = .ofCount fields.length
  | .discriminatorMismatch key _ actual =>
    ∃ fields, u = .object fields ∧ actual = (Keyed.get? fields key).getD .undefined
  | .additionalProperty key => ∃ fields, u = .object fields ∧ key ∈ Keyed.keys fields
  | .duplicateItem _ => True

structure ValidationOptions.Literal (o : ValidationOptions) : Prop where
  strict : o.strictTypes = true
  plain : o.coerceTypes = false

namespace Check

variable {g : Graph} {firstOnly : Bool} {o : ValidationOptions} {n : Node} {l : Location}
  {u v : Value} {part : Part} {e : ValidationError}

def Points (l : Location) (v : Value) (e : ValidationError) : Prop :=
  ∃ inner u, e.location = inner ++ l ∧ v.part? inner = some u ∧ e.fault.Describes u

def Part.Points (part : Part) : Prop :=
  ∀ l v r, v.Every Value.KeysDiffer → part l v = some r → ∀ e ∈ r.errors, Check.Points l v e

theorem points_here {f : Fault} (same : e = ⟨l, f⟩) (h : f.Describes v) : Points l v e := by
  subst same
  exact ⟨[], v, rfl, rfl, h⟩

theorem Points.of_step {s : Segment} (step : v.step? s = some u) (h : Points (s :: l) u e) :
    Points l v e := by
  obtain ⟨inner, w, place, found, describes⟩ := h
  refine ⟨inner ++ [s], w, ?_, ?_, describes⟩
  · rw [place, List.append_assoc, List.singleton_append]
  · rw [Value.part?_of_step step, found]

theorem itemsOf?_literal (literal : o.Literal) {list : List Value} (read : itemsOf? o v = some list) :
    v = .array list := by
  rcases itemsOf?_cases read with same | ⟨-, wraps⟩
  · exact same
  · rw [literal.strict, literal.plain] at wraps
    cases wraps

theorem length_of_items {rules : ItemRules} (settled : part.Settled False)
    (positive : 0 < rules.limit) (keeps : rules.dropsDuplicates = false) {st out : ItemState} {i : Nat}
    {list : List Value} (run : items rules part l i st list = some out) (clean : out.Clean) :
    out.output.length = st.output.length + list.length := by
  induction list generalizing i st with
  | nil =>
    obtain rfl := Option.some.inj run
    rfl
  | cons v rest ih =>
    obtain ⟨w, -, admits, run⟩ := exists_of_items_cons settled positive run clean
    have new : ¬(rules.unique && st.seen.contains w.json) = true := by
      rwa [ItemState.Admits, keeps, Bool.not_false, Bool.and_true, ← Bool.not_eq_true] at admits
    rw [ih run, ItemState.keep, if_neg new, List.length_cons, ItemState.push, List.length_append,
      List.length_singleton, Nat.add_right_comm, Nat.add_assoc]

theorem array_points (literal : o.Literal) (hp : part.Points) (settled : part.Settled False)
    {ρ : Type} {f : ArrayFacets ρ} : Part.Points (array f o firstOnly part) := by
  intro l v r differ decided e he
  cases array_origin decided he with
  | other same => exact points_here same rfl
  | @count list st _ _ read run unfailed same =>
    have counted : Counted False st.failures st.errors :=
      items_counted False.elim settled .start run
    have clean : st.Clean := ⟨unfailed, counted.decided.mpr unfailed⟩
    have length := length_of_items settled (positive_itemRules f o firstOnly) literal.plain run clean
    have length : st.output.length = list.length := length.trans (Nat.zero_add _)
    exact points_here same ⟨list, itemsOf?_literal literal read, by rw [length]⟩
  | @item list read origin =>
    obtain rfl := itemsOf?_literal literal read
    have step {i : Nat} {u : Value} (here : list[i]? = some u) :
        (Value.array list).step? (.index i) = some u := here
    cases origin with
    | told here decided member =>
      have differ := differ.item (List.mem_of_getElem? here)
      exact (hp _ _ _ differ decided e member).of_step (step here)
    | @repeated _ u _ here same =>
      have points : Points _ u e := points_here same trivial
      exact points.of_step (step here)

theorem object_points {ρ : Type} {f : ObjectFacets ρ} {name : Option String}
    {properties : Keyed PropertyRule} (hp : ∀ e ∈ properties, e.2.part.Points) :
    Part.Points (object f name o firstOnly properties) := by
  intro l v r differ decided e he
  cases object_origin decided he with
  | other same => exact points_here same rfl
  | mismatch read same => exact points_here same ⟨_, read, rfl⟩
  | count read same => exact points_here same ⟨_, read, rfl⟩
  | @key given read origin =>
    subst read
    cases origin with
    | @told key u _ _ member found decided told =>
      have step : (Value.object given).step? (.key key) = some u := by
        rw [Value.step?, Keyed.get?_of_mem (differ.self given rfl) member]
        rfl
      have points := hp _ (Keyed.mem_of_get? found)
      exact (points _ _ _ (differ.field member) decided e told).of_step step
    | undeclared member same =>
      exact points_here same ⟨given, rfl, List.mem_map_of_mem member⟩
    | @absent key _ _ lacks member decided told =>
      have step : (Value.object given).step? (.key key) = some .undefined := by
        rw [Keyed.hasKey, Option.isSome_eq_false_iff, Option.isNone_iff_eq_none] at lacks
        rw [Value.step?, lacks]
        rfl
      have absent : Value.undefined.Every Value.KeysDiffer := by rintro _ ⟨⟩ _ ⟨⟩
      exact (hp _ member _ _ _ absent decided e told).of_step step

theorem union_points {cs : List Candidate}
    (hc : ∀ c ∈ cs, (∀ part, c.precheck = some part → part.Points) ∧ c.part.Points) :
    Part.Points (union firstOnly cs) := by
  intro l v r differ decided e he
  cases union_origin decided he with
  | unmatched same => exact points_here same rfl
  | trial member needs decided told => exact (hc _ member).1 _ needs _ _ _ differ decided e told
  | told member decided told => exact (hc _ member).2 _ _ _ differ decided e told

theorem guarded_points {acceptsNil : Bool} (hp : part.Points) :
    Part.Points (guarded n acceptsNil o part) := by
  intro l v r differ decided e he
  cases guarded_origin decided he with
  | missing absent same => exact points_here same absent
  | stopped same => exact points_here same rfl
  | behind _ decided told => exact hp _ _ _ differ decided e told

theorem points_reject {f : Fault} (h : f.Describes v) : ∀ e ∈ (Report.reject l f).errors, Points l v e :=
  fun _ he => points_here (List.mem_singleton.mp he) h

theorem points_accept (w : Value) : ∀ e ∈ (Report.accept w).errors, Points l v e :=
  fun _ he => nomatch he

theorem string_points (literal : o.Literal) (f : StringFacets) :
    ∀ e ∈ (string f o l v).errors, Points l v e := by
  unfold string
  rw [literal.strict]
  cases v with
  | string text =>
    dsimp only [textOf?]
    repeat' split
    · exact points_reject rfl
    · exact points_reject ⟨text, rfl, rfl⟩
    · exact points_reject rfl
    all_goals exact points_accept _
  | _ => exact points_reject rfl

theorem number_points (literal : o.Literal) (f : NumberFacets) (integer : Bool) :
    ∀ e ∈ (number f integer o l v).errors, Points l v e := by
  unfold number
  rw [literal.strict]
  cases v with
  | number x =>
    dsimp only [numberOf?]
    repeat' split
    all_goals first | exact points_accept _ | exact points_reject rfl
  | _ => exact points_reject rfl

theorem boolean_points (o : ValidationOptions) : ∀ e ∈ (boolean o l v).errors, Points l v e := by
  unfold boolean
  split
  · exact points_reject rfl
  · exact points_accept _

theorem date_points (base : BaseType) (f : DateFacets) (o : ValidationOptions) :
    ∀ e ∈ (date base f o l v).errors, Points l v e := by
  unfold date mailDate writtenDate
  dsimp only
  repeat' split
  all_goals first | exact points_accept _ | exact points_reject rfl

theorem shape_points (literal : o.Literal) {run : Node → Part} (h : ∀ n, (run n).Points)
    (settled : ∀ n, (run n).Settled False) (n : Node) :
    Part.Points (shape g firstOnly o run n) := by
  intro l v r differ decided
  rcases hs : n.shape with _ | f | f | _ | _ | f | f | f | _
  case array =>
    rw [shape_itemPart hs] at decided
    refine array_points literal ?_ (itemPart_settled settled f.items) _ _ _ differ decided
    rcases f.items with _ | item
    · rintro l w _ - ⟨⟩
      exact points_accept w
    · exact h (g.resolve item)
  all_goals unfold shape at decided; rw [hs] at decided
  case object =>
    refine object_points (fun e he => ?_) _ _ _ differ decided
    obtain ⟨p, -, rfl⟩ := List.mem_map.mp he
    exact h _
  case union => exact union_points (fun c hc => by cases hc) _ _ _ differ decided
  all_goals obtain rfl := Option.some.inj decided
  case any => exact points_accept v
  case string => exact string_points literal f
  case number => exact number_points literal f _
  case boolean => exact boolean_points o
  case nil => exact points_reject rfl
  case date => exact date_points n.base f o

theorem run_points (g : Graph) (firstOnly : Bool) (fuel : Nat) {o : ValidationOptions}
    (literal : o.Literal) (n : Node) : Part.Points (run g firstOnly fuel o n) := by
  have points : ∀ o n, o.Literal → Part.Points (run g firstOnly fuel o n) := by
    refine run_induction (P := fun o part => o.Literal → part.Points) ?_ ?_ ?_ ?_ fuel
    · rintro o - l v r - ⟨⟩
    · intro fuel o n h literal
      exact shape_points literal (fun n => h n literal) (settled_run g firstOnly fuel o) n
    · intro o cs h literal
      exact union_points fun c hc => ⟨fun part hp => (h c hc).1 part hp ⟨rfl, rfl⟩, (h c hc).2 literal⟩
    · intro o n acceptsNil part h literal
      exact guarded_points (h literal)
  exact points o n literal

end Check

namespace Validator

open Check

/-- With `strictTypes` and without `coerceTypes`, every error has the path of a part of the value
and describes it: `valueRequired` a null or absent part; type, enum, format, `multipleOf`, union and
range errors the part itself; size errors its number of characters, items or keys; a discriminator
mismatch its entry; an additional property one of its keys. -/
theorem validate?_errors_describe {g : Graph} {n : Node} {o : ValidationOptions} {value : Value} {steps : Nat}
    (strict : o.strictTypes = true) (plain : o.coerceTypes = false)
    (differ : value.Every Value.KeysDiffer) :
    (∀ errors, validate? ⟨g, n, o⟩ steps value = some (.error errors) → ∀ e ∈ errors,
      ∃ l u, e.path = Location.path l ∧ value.part? l = some u ∧ e.fault.Describes u) ∧
    ∀ e, validateOrRaise? ⟨g, n, o⟩ steps value = some (.error e) →
      ∃ l u, e.path = Location.path l ∧ value.part? l = some u ∧ e.fault.Describes u := by
  have points {firstOnly : Bool} {r : Report} {e : ValidationError}
      (decided : run g firstOnly steps o n [] value = some r) (he : e ∈ r.errors) :
      ∃ l u, e.path = Location.path l ∧ value.part? l = some u ∧ e.fault.Describes u := by
    obtain ⟨inner, u, place, found, describes⟩ :=
      run_points g firstOnly steps ⟨strict, plain⟩ n _ _ _ differ decided e he
    rw [List.append_nil] at place
    exact ⟨inner, u, congrArg Location.path place, found, describes⟩
  refine ⟨fun errors h e he => ?_, fun e h => ?_⟩
  · obtain ⟨r, decided, told⟩ := Option.map_eq_some_iff.mp h
    split at told
    · cases told
    · obtain rfl := Except.error.inj told
      exact points decided he
  · obtain ⟨r, decided, told⟩ := Option.map_eq_some_iff.mp h
    rcases hr : r.errors with _ | ⟨first, rest⟩ <;> rw [hr] at told
    · cases told
    · obtain rfl := Except.error.inj told
      exact points decided (hr ▸ List.mem_cons_self)

theorem validate?_errors_describe_of_record :
    let text : Node := { Node.ofBase .string with header := { Header.empty with required := some true } }
    let texts : Node := { Node.ofBase .array with shape := .array ⟨some (.node text), none, none, none⟩ }
    let record : Node := { Node.ofBase .object with
      shape := .object ⟨[("id", ⟨.node text, false⟩), ("tags", ⟨.node texts, false⟩)], some false,
        none, none, none, none⟩ }
    let o := { ValidationOptions.strict with maxErrorsPerObject := 3 }
    let value := Value.object [("tags", .array [.string "a", .bool true]), ("more", .null)]
    let errors : List ValidationError := [⟨[.index 1, .key "tags"], .invalidType "string" (.bool true)⟩,
      ⟨[], .additionalProperty "more"⟩, ⟨[.key "id"], .valueRequired⟩]
    validate? ⟨.initial, record, o⟩ 3 value = some (.error errors) ∧ ∀ e ∈ errors,
      ∃ l u, e.path = Location.path l ∧ value.part? l = some u ∧ e.fault.Describes u := by
  intro text texts record o value errors
  have told : validate? ⟨.initial, record, o⟩ 3 value = some (.error errors) := rfl
  have differ : value.Every Value.KeysDiffer := by
    refine Value.every_object ?_ fun e he => ?_
    · rintro _ ⟨⟩
      exact List.nodup_iff_pairwise_ne.mpr (by decide)
    · rcases List.mem_pair.mp he with rfl | rfl
      · refine Value.every_array (fun _ h => nomatch h) fun v hv => ?_
        rcases List.mem_pair.mp hv with rfl | rfl <;> rintro _ ⟨⟩ _ ⟨⟩
      · rintro _ ⟨⟩ _ ⟨⟩
  exact ⟨told, (validate?_errors_describe rfl rfl differ).1 errors told⟩

end Validator
end Schemata

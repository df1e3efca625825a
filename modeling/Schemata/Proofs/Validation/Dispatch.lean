import Schemata.Proofs.Library.Obtained
import Schemata.Proofs.Node.Leaves
import Schemata.Proofs.Validation.Acceptance

/-! Dispatch by base type. The check of a type without other alternatives goes by its shape, and
what it does with the facets by its base; their kinds agree for every obtained node, wherever a
validation leads. -/

namespace Schemata

namespace Check

variable {g : Graph} {firstOnly : Bool} {fuel : Nat} {o : ValidationOptions} {run : Node → Part} {n m : Node}

/-- The check for a base type, on facets of its kind. -/
inductive OfBase (g : Graph) (firstOnly : Bool) (o : ValidationOptions) (run : Node → Part)
    (name : Option String) : BaseType → Shape Node Ref → Part → Prop
  | any : OfBase g firstOnly o run name .any .any fun _ v => some (.accept v)
  | string (f : StringFacets) :
      OfBase g firstOnly o run name .string (.string f) fun l v => some (string f o l v)
  | number (f : NumberFacets) :
      OfBase g firstOnly o run name .number (.number f) fun l v => some (number f false o l v)
  | integer (f : NumberFacets) :
      OfBase g firstOnly o run name .integer (.number f) fun l v => some (number f true o l v)
  | boolean : OfBase g firstOnly o run name .boolean .boolean fun l v => some (boolean o l v)
  | nil : OfBase g firstOnly o run name .nil .nil fun l v => some (wrongType l "nil" v)
  | date {b : BaseType} (isDate : b.isDate = true) (f : DateFacets) :
      OfBase g firstOnly o run name b (.date f) fun l v => some (date b f o l v)
  | array (f : ArrayFacets Ref) :
      OfBase g firstOnly o run name .array (.array f) (array f o firstOnly (itemPart g run f.items))
  | object (f : ObjectFacets Ref) :
      OfBase g firstOnly o run name .object (.object f)
        (object f name o firstOnly (propertyRules g run o f.properties))
  /-- Members are checked as alternatives, so a union that is its own only one accepts nothing. -/
  | union (members : List Node) :
      OfBase g firstOnly o run name .union (.union members) (union firstOnly [])

theorem ofBase_shape_iff : OfBase g firstOnly o run n.name n.base n.shape (shape g firstOnly o run n) ↔
    n.shape.kind = (n.base.emptyShape : Shape Node Ref).kind := by
  obtain ⟨id, name, base, supertypes, header, facets, ownHeader, ownShape, builtin⟩ := n
  dsimp only
  constructor
  · intro h
    generalize shape g firstOnly o run _ = check at h
    cases h with
    | date isDate f => cases base <;> first | rfl | cases isDate
    | _ => rfl
  · intro kind
    cases facets with
    | array f =>
      cases base <;> cases kind
      have check : shape g firstOnly o run
          ⟨id, name, .array, supertypes, header, .array f, ownHeader, ownShape, builtin⟩ =
            array f o firstOnly (itemPart g run f.items) :=
        funext fun l => funext fun v => shape_itemPart rfl run
      rw [check]
      exact .array f
    | object f =>
      cases base <;> cases kind
      exact .object f
    | date f => cases base <;> cases kind <;> exact .date rfl f
    | number f =>
      cases base <;> cases kind
      · exact .number f
      · exact .integer f
    | string f =>
      cases base <;> cases kind
      exact .string f
    | union members =>
      cases base <;> cases kind
      exact .union members
    | any =>
      cases base <;> cases kind
      exact .any
    | boolean =>
      cases base <;> cases kind
      exact .boolean
    | nil =>
      cases base <;> cases kind
      exact .nil

/-- The types that the check of a type goes on to: alternatives, or property and item types. -/
inductive Consults (g : Graph) (n : Node) : Node → Prop
  | alternative {list : List Node} {a : Node} (found : n.alternatives? = some list) (mem : a ∈ list) :
      Consults g n a
  | link {x : Ref} (single : n.alternatives? = none) (hx : x ∈ n.shape.links) : Consults g n (g.resolve x)

end Check

namespace Library

variable {g : Graph} {l : Library} {row : List (MergeMode × Node)} {n m : Node}

/-- The shape of an obtained node is of the kind of its base's empty shape. -/
theorem Obtained.kind (h : Obtained row n) : n.shape.kind = (n.base.emptyShape : Shape Node Ref).kind := by
  induction h with
  | given reached gives => exact (gives.built reached).tidy.kind
  | step h reached step =>
    have opens := h.holdsBuilt _ reached.allBuilt.bindings
    exact (opens.built_of_step step).tidy.kind
  | alternative h found mem => exact (h.holdsBuilt.alternatives found _ mem).1.kind
  | merged _ _ mode target _ => exact (Shape.kind_merge mode _ _).trans target
  | numbered _ _ ih => exact ih

theorem Obtained.consulted (reached : Reached g l) (consults : Relation.ReflTransGen (Check.Consults g) n m)
    (h : Obtained row n) : ∃ row', Obtained row' m := by
  induction consults with
  | refl => exact ⟨row, h⟩
  | tail _ consults ih =>
    obtain ⟨row', h⟩ := ih
    cases consults with
    | alternative found mem => exact ⟨[], h.alternative found mem⟩
    | link _ hx => exact ⟨[], h.step reached (.link (List.mem_append_left _ hx))⟩

/-- The shape of an obtained node, and of every node its check goes on to, is of the kind of its
base's empty shape; so each of them is dispatched by its base, integers on number facets, dates on
date facets, and so on. -/
theorem checks_by_base (obtained : Obtained row n) :
    n.shape.kind = (n.base.emptyShape : Shape Node Ref).kind ∧
      ∀ {g l m}, Reached g l → Relation.ReflTransGen (Check.Consults g) n m →
        m.shape.kind = (m.base.emptyShape : Shape Node Ref).kind ∧
        (m.alternatives = [m] → ∀ firstOnly fuel o, ∃ check,
          Check.OfBase g firstOnly o (Check.run g firstOnly fuel o) m.name m.base m.shape check ∧
            Check.run g firstOnly (fuel + 1) o m = Check.guarded m false o check) := by
  refine ⟨obtained.kind, fun {g l m} reached consults => ?_⟩
  obtain ⟨row', obtained⟩ := obtained.consulted reached consults
  refine ⟨obtained.kind, fun alone firstOnly fuel o => ?_⟩
  have single := Node.alternatives?_eq_none_iff.mpr alone
  exact ⟨_, Check.ofBase_shape_iff.mpr obtained.kind, Check.run_single single⟩

def countOrDay : List Declaration :=
  [{ DeclarationOf.named "U" with anyOf := some [.name "integer", .name "date-only"] },
    (DeclarationOf.named "T").extending (.name "U")]

def countOrDayNode : Node :=
  .extend (some 14) (some "U") .union [.ofBase .union] Header.empty
    (.union [.ofBase .integer, .ofBase .dateOnly])

def countOrDayAgainNode : Node :=
  .extend (some 15) (some "T") .union [countOrDayNode] Header.empty BaseType.integer.emptyShape

theorem countOrDay_added : ∃ a, initial.addTypes .initial countOrDay = .ok a ∧
    a.library.type? "T" = some countOrDayAgainNode := by
  refine ⟨⟨⟨16, []⟩, ⟨initial.types ++ [("U", countOrDayNode), ("T", countOrDayAgainNode)]⟩,
    [countOrDayNode, countOrDayAgainNode]⟩, ?_, rfl⟩
  cbv

theorem checks_by_base_of_day : ∃ a, initial.addTypes .initial countOrDay = .ok a ∧
    ∃ t count day, a.library.type? "T" = some t ∧ t.alternatives? = some [count, day] ∧
      count.base = .integer ∧
      let m := day.merge count .overwrite
      Obtained [(.overwrite, count)] m ∧ m.base = .dateOnly ∧ m.shape.kind = .date ∧
        m.alternatives = [m] ∧ ∀ firstOnly fuel o, ∃ f, Check.run a.graph firstOnly (fuel + 1) o m =
          Check.guarded m false o fun l v => some (Check.date .dateOnly f o l v) := by
  obtain ⟨a, added, found⟩ := countOrDay_added
  have reached : Reached a.graph a.library := .added .initial added
  have given : Obtained [] countOrDayAgainNode := .given reached (.added found .refl)
  refine ⟨a, added, _, _, _, found, rfl, rfl, ?_⟩
  intro m
  have obtained : Obtained _ m :=
    .merged (given.alternative rfl (List.mem_cons_of_mem _ List.mem_cons_self))
      (given.alternative rfl List.mem_cons_self) .overwrite
  obtain ⟨kind, every⟩ := checks_by_base obtained
  obtain ⟨-, checked⟩ := every reached .refl
  refine ⟨obtained, rfl, kind, rfl, fun firstOnly fuel o => ?_⟩
  obtain ⟨check, calls, run⟩ := checked rfl firstOnly fuel o
  have calls : Check.OfBase a.graph firstOnly o (Check.run a.graph firstOnly fuel o) (some "T")
      .dateOnly (.date ⟨none⟩) check := calls
  cases calls with
  | date _ f => exact ⟨_, run⟩

end Library

end Schemata

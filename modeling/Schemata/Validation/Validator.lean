import Schemata.Graph
import Schemata.Node.Alternatives
import Schemata.Validation.Composite
import Schemata.Validation.Date

/-!
Validation of values against a type. A check is given a number of steps from type to type within
which it must come to an end; with fewer it is undecided.
-/

namespace Schemata

namespace Check

/-- The guard of every type: missing values, default, `required` and `typeOf`, which sees no value
that is not an object if the type is an object type. -/
def guarded (n : Node) (acceptsNil : Bool) (o : ValidationOptions) (inner : Part) : Part :=
  fun l v =>
    if v.isMissing then
      match n.header.default? with
      | some d => some (.accept d)
      | none =>
        if acceptsNil then some (.accept .null)
        else if n.isRequired && !o.ignoresType n.name then some (.reject l .valueRequired)
        else some (.accept v)
    else if (n.shape.isObject || n.ownShape.isObject) && !v.isObject then inner l v
    else
      match n.header.typeOf with
      | some p => if p v then inner l v else some (wrongType l n.displayName v)
      | none => inner l v

def needsTrial (n : Node) : Bool :=
  match n.shape with
  | .object f => f.discriminator.isNone
  | _ => false

def propertyRule (o : ValidationOptions) (run : Node → Part) (name : String) (type : Node) :
    PropertyRule :=
  let ignored := o.ignoreRequired.covers name
  ⟨run type, type.isRequired && !ignored, ignored, type.header.default?.isSome⟩

def shape (g : Graph) (firstOnly : Bool) (o : ValidationOptions) (run : Node → Part) (n : Node) :
    Part := fun l v =>
  match n.shape with
  | .any => some (.accept v)
  | .string f => some (string f o l v)
  | .number f => some (number f (n.base == .integer) o l v)
  | .boolean => some (boolean o l v)
  | .nil => some (wrongType l "nil" v)
  | .date f => some (date n.base f o l v)
  | .array f =>
    let part : Part := match f.items with
      | some r => run (g.resolve r)
      | none => fun _ v => some (.accept v)
    array f o firstOnly part l v
  | .object f =>
    let rules := f.properties.map fun (name, p) =>
      (name, propertyRule o run name (g.resolve p.type))
    object f n.name o firstOnly rules l v
  | .union _ => union firstOnly [] l v

def run (g : Graph) (firstOnly : Bool) : Nat → ValidationOptions → Node → Part
  | 0, _, _ => fun _ _ => none
  | fuel + 1, o, n =>
    match n.alternatives? with
    | none => guarded n false o (shape g firstOnly o (run g firstOnly fuel o) n)
    | some alternatives =>
      let acceptsNil := alternatives.any fun alt => alt.base == .nil
      match alternatives with
      | [only] => guarded n acceptsNil o (run g firstOnly fuel o only)
      | alternatives =>
        guarded n acceptsNil o (union firstOnly (alternatives.map fun alt =>
          ⟨if needsTrial alt then some (run g firstOnly fuel o.precheck alt) else none,
            run g firstOnly fuel o alt⟩))

end Check

namespace Value

mutual

def depth : Value → Nat
  | array items => depthOfItems items + 1
  | object fields => depthOfFields fields + 1
  | _ => 0

def depthOfItems : List Value → Nat
  | [] => 0
  | v :: rest => max (depth v) (depthOfItems rest)

def depthOfFields : List (String × Value) → Nat
  | [] => 0
  | (_, v) :: rest => max (depth v) (depthOfFields rest)

end

end Value

structure Validator where
  graph : Graph
  node : Node
  options : ValidationOptions

namespace Validator

def typeName (v : Validator) : String := v.node.displayName

/-- More steps than any terminating validation takes: two for every node at every depth would do. -/
def enoughSteps (v : Validator) (value : Value) : Nat :=
  (value.depth + 2) * (2 * v.graph.next + 4) * Nat.pow 2 32

def report? (v : Validator) (steps : Nat) (firstOnly : Bool) (value : Value) : Option Report :=
  Check.run v.graph firstOnly steps v.options v.node [] value

/-- The output, or all errors within the limits. -/
def validate? (v : Validator) (steps : Nat) (value : Value) :
    Option (Except (List ValidationError) Value) :=
  (v.report? steps v.options.throwOnFirstError value).map fun r =>
    if r.errors.isEmpty then .ok (r.output.getD .undefined) else .error r.errors

/-- The output, or the first error. -/
def validateOrRaise? (v : Validator) (steps : Nat) (value : Value) :
    Option (Except ValidationError Value) :=
  (v.report? steps true value).map fun r =>
    match r.errors with
    | e :: _ => .error e
    | [] => .ok (r.output.getD .undefined)

def isValid? (v : Validator) (steps : Nat) (value : Value) : Option Bool :=
  (v.validateOrRaise? steps value).map fun
    | .ok _ => true
    | .error _ => false

end Validator
end Schemata

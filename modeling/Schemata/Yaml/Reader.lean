import Schemata.Yaml.Expr
import Schemata.Yaml.Scalar

/-!
Reading YAML text. An alias stands for the expression that has its number, the last one when there
are several; how often aliases are followed is limited, so that a short text makes no endless
document.
-/

namespace Schemata.Yaml

abbrev Follow := StateT Nat Option

def follow (anchors : List (Nat × Expr)) : Expr → Follow Expr
  | .reference id => fun left =>
    match left with
    | 0 => none
    | left + 1 => (anchors.lookup id).map (·, left)
  | e => pure e

def followLimit : Nat := 100

def Mark.isOwn (mark : Mark) : Bool := mark.tag?.any isOwnTag

def treeFrom (anchors : List (Nat × Expr)) : Nat → Expr → Follow Tree
  | depth, e => do
    match ← follow anchors e with
    | .reference _ => failure
    | .scalar mark isPlain text => StateT.lift (scalar? mark.tag? isPlain text)
    | .list mark items =>
      match depth with
      | 0 => failure
      | depth + 1 =>
        if mark.isOwn then failure
        return .list (← items.mapM (treeFrom anchors depth))
    | .map mark entries =>
      match depth with
      | 0 => failure
      | depth + 1 =>
        if mark.isOwn then failure
        let entries ← entries.mapM fun (k, e) => do
          let key ← treeFrom anchors depth k
          return (key.key, ← treeFrom anchors depth e)
        return .ofEntries entries

def Expr.tree? (e : Expr) : Option Tree :=
  (treeFrom e.anchors.reverse depthLimit e).run' (followLimit * e.size)

def read? (text : String) : Option Tree := do
  let s ← prepare? text.toList
  let tokens ← tokens? s
  let e ← document? tokens
  e.tree?

end Schemata.Yaml

import Schemata.Node.Basic

/-!
The table of all nodes made so far: the number of the next one, and the nodes that references may
point forward to.
-/

namespace Schemata

structure Graph where
  next : NodeId
  bindings : List (NodeId × Node)

namespace Graph

def initial : Graph := ⟨BaseType.all.length, []⟩

/-- The node of an unbound forward reference: any value. -/
def placeholder (name : String) : Node :=
  { Node.ofBase .any with id := none, name := some name, builtin := false }

mutual

def resolve (g : Graph) : Ref → Node
  | .node n => n
  | .forward id name => (g.bindings.lookup id).getD (placeholder name)
  | .anyOf id members => Node.anyOf id (resolveEach g members)

def resolveEach (g : Graph) : List Ref → List Node
  | [] => []
  | r :: rest => resolve g r :: resolveEach g rest

end

def adopt (g : Graph) (n : Node) : Node × Graph :=
  match n.id with
  | some _ => (n, g)
  | none => ({ n with id := some g.next }, { g with next := g.next + 1 })

@[simp] theorem resolve_node (g : Graph) (n : Node) : g.resolve (.node n) = n := rfl

end Graph
end Schemata

import Schemata.Declaration.Reader
import Schemata.Library.Resolution
import Schemata.Yaml.Reader

/-! Libraries of named types. A new one holds the base types; a batch of declarations is added as a
whole or not at all. -/

namespace Schemata

/-- Types by name, in the order in which they were added. -/
structure Library where
  types : Keyed Node

/-- The result of `addTypes`: the graph, the library, and the new types in the order of their
declarations. -/
structure Addition where
  graph : Graph
  library : Library
  added : List Node

inductive LoadError where
  | document
  | type (e : TypeError)
deriving DecidableEq

namespace Library

def initial : Library := ⟨BaseType.all.map fun b => (b.name, Node.ofBase b)⟩

def names (l : Library) : List String := Keyed.keys l.types

def contains (l : Library) (name : String) : Bool := Keyed.hasKey l.types name

def type? (l : Library) (name : String) : Option Node := Keyed.get? l.types name

def isName (name : String) : Bool := !(Text.trim name.toList).isEmpty

def batch? (l : Library) : NodeId → Batch → List Declaration → Except TypeError Batch
  | _, batch, [] => .ok batch
  | next, batch, d :: rest =>
    let name := d.name.getD ""
    if !isName name then .error (.invalidName name)
    else if l.contains name || Keyed.hasKey batch name then .error (.duplicateName name)
    else batch? l (next + 1) (batch ++ [(name, (next, d))]) rest

/-- Adds a batch of declarations, which may refer to each other in any order. -/
def addTypes (l : Library) (g : Graph) (declarations : List Declaration) :
    Except TypeError Addition := do
  let batch ← l.batch? g.next [] declarations
  let names := Keyed.keys batch
  let start : Progress := ⟨g.next + batch.length, [], []⟩
  let (added, progress) ← (Batch.lookUpEach (Batch.scope l.types batch) names).run start
  let bindings ← Batch.bindEach progress.built progress.forwards
  let types := (names.zip added).foldl (fun types e => Keyed.insert types e.1 e.2) l.types
  return ⟨⟨progress.next, g.bindings ++ bindings⟩, ⟨types⟩, added⟩

def building (g : Graph) (step : Building Node) : Except TypeError (Node × Graph) := do
  let (n, progress) ← step.run ⟨g.next, [], []⟩
  return (n, { g with next := progress.next })

/-- Builds the type of a declaration without adding it. -/
def createType (l : Library) (g : Graph) (d : Declaration) : Except TypeError (Node × Graph) :=
  building g do
    let id ← Building.fresh
    (Batch.scope l.types []).build id d

/-- The type of a reference: looked up by name, or built without adding it. -/
def getOrCreate (l : Library) (g : Graph) (ref : TypeRef) : Except TypeError (Node × Graph) :=
  match ref with
  | .name name =>
    match l.type? name with
    | some n => .ok (n, g)
    | none => .error (.unknownType name)
  | ref => building g ((Batch.scope l.types []).resolve ref)

def addDocument (l : Library) (g : Graph) (document : Option Tree) : Except LoadError Addition :=
  match document.bind Declaration.document? with
  | none => .error .document
  | some declarations =>
    match l.addTypes g declarations with
    | .ok addition => .ok addition
    | .error e => .error (.type e)

def addJson (l : Library) (g : Graph) (text : String) : Except LoadError Addition :=
  l.addDocument g (Json.read? text)

def addYaml (l : Library) (g : Graph) (text : String) : Except LoadError Addition :=
  l.addDocument g (Yaml.read? text)

end Library
end Schemata

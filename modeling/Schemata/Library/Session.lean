import Schemata.Library.Basic

/-! A library across calls of `addTypes`, with the table of all nodes made so far. -/

namespace Schemata

structure Session where
  graph : Graph
  library : Library

namespace Session

def fresh (g : Graph) : Session := ⟨g, .initial⟩

def insert (name : String) (n : Node) : EStateM TypeError Session Unit :=
  modify fun s => { s with library := ⟨Keyed.insert s.library.types name n⟩ }

/-- `Library.addTypes` as a state transition: all that may fail comes before the first insertion. -/
def addTypes (declarations : List Declaration) : EStateM TypeError Session (List Node) := do
  let ⟨g, l⟩ ← get
  let batch ← ofExcept (l.batch? g.next [] declarations)
  let names := Keyed.keys batch
  let start : Progress := ⟨g.next + batch.length, [], []⟩
  let (added, progress) ← ofExcept ((Batch.lookUpEach (Batch.scope l.types batch) names).run start)
  let bindings ← ofExcept (Batch.bindEach progress.built progress.forwards)
  modify fun s => { s with graph := ⟨progress.next, g.bindings ++ bindings⟩ }
  (names.zip added).forM fun e => insert e.1 e.2
  return added

def add (s : Session) (declarations : List Declaration) : Session :=
  match addTypes declarations s with
  | .ok _ s' => s'
  | .error _ s' => s'

def addAll (s : Session) (calls : List (List Declaration)) : Session := calls.foldl add s

def taken (s : Session) : List (List Declaration) → List (List Declaration)
  | [] => []
  | ds :: rest =>
    match addTypes ds s with
    | .ok _ s' => ds :: taken s' rest
    | .error _ s' => taken s' rest

end Session
end Schemata

import Schemata.Json.Reader

/-!
Records: a fixed row of fields, each read by its own rule into a draft of the result. A record may
be written as a map, where no field may repeat and none may be unknown, or as a list of the fields
in their order, of which the last ones may be left out.
-/

namespace Schemata

structure RecordField (ε σ α : Type) where
  name : String
  put : σ → α → Except ε σ

namespace RecordField

variable {ε σ α : Type}

def ofEntries (malformed : ε) (fields : List (RecordField ε σ α)) :
    List String → σ → List (String × α) → Except ε σ
  | _, draft, [] => .ok draft
  | seen, draft, (key, written) :: rest =>
    if seen.contains key then .error malformed
    else
      match fields.find? fun f => f.name == key with
      | none => .error malformed
      | some f =>
        match f.put draft written with
        | .error e => .error e
        | .ok draft => ofEntries malformed fields (key :: seen) draft rest

def ofItems (malformed : ε) : List (RecordField ε σ α) → σ → List α → Except ε σ
  | _, draft, [] => .ok draft
  | [], _, _ :: _ => .error malformed
  | f :: fields, draft, written :: rest =>
    match f.put draft written with
    | .error e => .error e
    | .ok draft => ofItems malformed fields draft rest

/-- Reads a record from a text as far as it is well-formed. A fault of a field wins over a fault of
the text behind it. -/
def ofOutline (malformed : ε) (fields : List (RecordField ε σ α)) (start : σ) (read : Tree → α) :
    Json.Outline → Except ε σ
  | .entries entries complete => do
    let draft ← ofEntries malformed fields [] start (entries.map fun (k, t) => (k, read t))
    if complete then .ok draft else .error malformed
  | .items items complete => do
    let draft ← ofItems malformed fields start (items.map read)
    if complete then .ok draft else .error malformed
  | .other => .error malformed

end RecordField
end Schemata

import Schemata.Yaml.Token

/-!
The expression that the tokens of a document form. Anchors are numbered as they come, and an alias
refers to the number that its name has there.
-/

namespace Schemata.Yaml

structure Mark where
  id? : Option Nat
  tag? : Option TagText

inductive Expr where
  | reference (id : Nat)
  | scalar (mark : Mark) (isPlain : Bool) (text : List Char)
  | list (mark : Mark) (items : List Expr)
  | map (mark : Mark) (entries : List (Expr × Expr))

namespace Expr

def empty : Expr := scalar ⟨none, none⟩ true []

mutual

def size : Expr → Nat
  | reference _ => 1
  | scalar _ _ _ => 1
  | list _ items => sizes items + 2
  | map _ entries => entrySizes entries + 2

def sizes : List Expr → Nat
  | [] => 0
  | e :: rest => size e + sizes rest

def entrySizes : List (Expr × Expr) → Nat
  | [] => 0
  | (k, e) :: rest => size k + size e + entrySizes rest

end

def anchored (mark : Mark) (e : Expr) : List (Nat × Expr) :=
  match mark.id? with
  | some id => [(id, e)]
  | none => []

mutual

def anchors : Expr → List (Nat × Expr)
  | reference _ => []
  | scalar mark isPlain text => anchored mark (scalar mark isPlain text)
  | list mark items => anchored mark (list mark items) ++ anchorsOfItems items
  | map mark entries => anchored mark (map mark entries) ++ anchorsOfEntries entries

def anchorsOfItems : List Expr → List (Nat × Expr)
  | [] => []
  | e :: rest => anchors e ++ anchorsOfItems rest

def anchorsOfEntries : List (Expr × Expr) → List (Nat × Expr)
  | [] => []
  | (k, e) :: rest => anchors k ++ anchors e ++ anchorsOfEntries rest

end

end Expr

/-- Tokens to be read, what the handles of tags stand for, and the number of each name that was seen
in an anchor. -/
structure Stream where
  tokens : List Token
  handles : List (List Char × TagText)
  names : List (List Char × Nat)

abbrev Parse := StateT Stream Option

namespace Parse

def peek : Parse (Option Token) := fun s => some (s.tokens.head?, s)

def advance : Parse Unit := fun s => some ((), { s with tokens := s.tokens.tail })

/-- The number of the anchor that a name last stood in. -/
def lookUp (name : List Char) : Parse Nat := fun s => (s.names.lookup name).map (·, s)

def register (name : List Char) : Parse Nat := fun s =>
  let id := s.names.length
  some (id, { s with names := (name, id) :: s.names.filter (·.1 != name) })

def expand (t : TagToken) : Parse TagText := fun s =>
  match t.handle? with
  | none => some (t.suffix, s)
  | some handle => (s.handles.lookup handle).map fun front => (front ++ t.suffix, s)

def anchor? : Parse (Option Nat) := do
  match ← peek with
  | some (.anchor name) =>
    advance
    return some (← register name)
  | _ => return none

def tag? : Parse (Option TagText) := do
  match ← peek with
  | some (.tag t) =>
    advance
    return some (← expand t)
  | _ => return none

def mark : Parse Mark := do
  let before ← anchor?
  let tag ← tag?
  let id ← if before.isSome then pure before else anchor?
  return ⟨id, tag⟩

def isNext (p : Token → Bool) : Parse Bool := return (← peek).any p

def orEmpty (p : Token → Bool) (read : Parse Expr) : Parse Expr := do
  if ← isNext p then return .empty else read

def expect (p : Token → Bool) : Parse Unit := do
  if ← isNext p then advance else failure

end Parse

/-- Where an expression stands: between brackets, as an item or a whole document, or in an entry of
a map, whose list need not be indented further. -/
inductive Place where
  | brackets
  | item
  | entry
deriving DecidableEq

inductive Layout where
  | dashes
  | blockList
  | blockMap
  | bracketList
  | bracketMap
deriving DecidableEq

def Place.layout? (place : Place) : Token → Option Layout
  | .item => if place = .entry then some .dashes else none
  | .blockList => if place = .brackets then none else some .blockList
  | .blockMap => if place = .brackets then none else some .blockMap
  | .openList => some .bracketList
  | .openMap => some .bracketMap
  | _ => none

namespace Token

def endsDashItem : Token → Bool
  | .item | .key | .value | .blockEnd => true
  | _ => false

def endsItem : Token → Bool
  | .item | .blockEnd => true
  | _ => false

def endsEntryPart : Token → Bool
  | .key | .value | .blockEnd => true
  | _ => false

def isComma : Token → Bool
  | .comma => true
  | _ => false

def isKey : Token → Bool
  | .key => true
  | _ => false

def isValue : Token → Bool
  | .value => true
  | _ => false

def isCloseList : Token → Bool
  | .closeList => true
  | _ => false

def isCloseMap : Token → Bool
  | .closeMap => true
  | _ => false

def isItem : Token → Bool
  | .item => true
  | _ => false

def isBlockEnd : Token → Bool
  | .blockEnd => true
  | _ => false

def isDocumentEnd : Token → Bool
  | .documentEnd => true
  | _ => false

end Token

namespace Parse

open Token

def elements {α : Type} (begins : Token → Bool) (element : Parse α) : Nat → Parse (List α)
  | 0 => failure
  | fuel + 1 => do
    if ← isNext begins then
      advance
      let x ← element
      return x :: (← elements begins element fuel)
    else return []

def separated {α : Type} (closes : Token → Bool) (element : Parse α) : Nat → Parse (List α)
  | 0 => failure
  | fuel + 1 => do
    if ← isNext closes then
      advance
      return []
    else
      let x ← element
      if ← isNext closes then
        advance
        return [x]
      else
        expect isComma
        return x :: (← separated closes element fuel)

def valueOr (ends : Token → Bool) (read : Parse Expr) : Parse Expr := do
  if ← isNext isValue then
    advance
    orEmpty ends read
  else return .empty

def blockEntry (read : Place → Parse Expr) : Parse (Expr × Expr) := do
  let key ← orEmpty endsEntryPart (read .entry)
  return (key, ← valueOr endsEntryPart (read .entry))

def bracketEntry (read : Place → Parse Expr) : Parse (Expr × Expr) := do
  let ends := fun t => isComma t || isCloseMap t
  if ← isNext isKey then
    advance
    let key ← orEmpty (fun t => isValue t || ends t) (read .brackets)
    return (key, ← valueOr ends (read .brackets))
  else return (← read .brackets, .empty)

/-- An item in brackets, which may be an entry that is a map by itself. A token where its key is
missing is passed. -/
def bracketItem (read : Place → Parse Expr) : Parse Expr := do
  let ends := fun t => isComma t || isCloseList t
  if ← isNext isKey then
    advance
    let isMissing ← isNext fun t => isValue t || ends t
    let key ← if isMissing then do
        advance
        pure Expr.empty
      else read .brackets
    return .map ⟨none, none⟩ [(key, ← valueOr ends (read .brackets))]
  else read .brackets

def collection (fuel : Nat) (read : Place → Parse Expr) (mark : Mark) : Layout → Parse Expr
  | .dashes => do
    return .list mark (← elements isItem (orEmpty endsDashItem (read .item)) fuel)
  | .blockList => do
    let items ← elements isItem (orEmpty endsItem (read .item)) fuel
    expect isBlockEnd
    return .list mark items
  | .blockMap => do
    let entries ← elements isKey (blockEntry read) fuel
    expect isBlockEnd
    return .map mark entries
  | .bracketList => do
    return .list mark (← separated isCloseList (bracketItem read) fuel)
  | .bracketMap => do
    return .map mark (← separated isCloseMap (bracketEntry read) fuel)

def bareTag : TagText := [some '!']

def expr (fuel : Nat) : Nat → Place → Parse Expr
  | depth, place => do
    match ← peek with
    | some (.reference name) =>
      advance
      return .reference (← lookUp name)
    | _ =>
      let mark ← mark
      match ← peek with
      | some (.scalar isPlain text) =>
        advance
        let mark := if mark.tag? == some bareTag then { mark with tag? := none } else mark
        return .scalar mark isPlain text
      | next =>
        match depth, next.bind place.layout? with
        | depth + 1, some layout =>
          if layout ≠ .dashes then advance
          collection fuel (expr fuel depth) mark layout
        | 0, some _ => failure
        | _, none =>
          if mark.id?.isSome || mark.tag?.isSome then return .scalar mark true [] else failure

end Parse

def frontDirectives : List Token → List Directive × List Token
  | .directive d :: rest =>
    let (ds, rest) := frontDirectives rest
    (d :: ds, rest)
  | rest => ([], rest)

def Directive.version? : Directive → Option (Nat × Nat)
  | version major minor => some (major, minor)
  | tag _ _ => none

def Directive.handle? : Directive → Option (List Char × TagText)
  | version _ _ => none
  | tag handle front => some (handle, front)

def areValid (ds : List Directive) : Bool :=
  let versions := ds.filterMap Directive.version?
  let handles := (ds.filterMap Directive.handle?).map Prod.fst
  versions.length ≤ 1 && versions.all (fun v => v == (1, 1) || v == (1, 2)) &&
    handles.length == handles.eraseDups.length

def commonHandles : List (List Char × TagText) :=
  [(['!'], [some '!']), (['!', '!'], "tag:yaml.org,2002:".toList.map some)]

def depthLimit : Nat := 128

def content (fuel : Nat) (isMarked : Bool) : Parse Expr := do
  let next ← Parse.peek
  if isMarked && next.all Token.isDocumentEnd then return .empty
  else Parse.expr fuel depthLimit .item

def document? (tokens : List Token) : Option Expr := do
  let (directives, rest) := frontDirectives tokens
  let (isMarked, rest) := match rest with
    | .documentStart :: rest => (true, rest)
    | rest => (false, rest)
  if !areValid directives || !isMarked && !directives.isEmpty then failure
  let handles := directives.filterMap Directive.handle? ++ commonHandles
  let (e, s) ← (content (tokens.length + 1) isMarked).run ⟨rest, handles, []⟩
  if s.tokens.all Token.isDocumentEnd then return e else failure

end Schemata.Yaml

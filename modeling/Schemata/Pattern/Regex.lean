import Schemata.Text.Property
import Std.Data.HashSet

/-!
Regular expressions with assertions about the characters around a place. Matching takes one
character at a time from all the expressions that may still be ahead; an assertion looks at the
character before and the character after the place and nowhere else.
-/

namespace Schemata

open Text (CharSet)

inductive Look where
  | textStart
  | textEnd
  | lineStart
  | lineEnd
  /-- A line may also end in a carriage return, but not between it and a line feed. -/
  | lineStartReturn
  | lineEndReturn
  | wordEdge (ascii : Bool)
  | noWordEdge (ascii : Bool)
  | wordStart (ascii : Bool)
  | wordEnd (ascii : Bool)
  | halfWordStart (ascii : Bool)
  | halfWordEnd (ascii : Bool)
deriving DecidableEq

namespace Look

def isWord (ascii : Bool) : Option Char → Bool
  | none => false
  | some c => c.isAlphanum || c == '_' || (!ascii && Text.Property.word.has c)

def holds (before after : Option Char) : Look → Bool
  | textStart => before.isNone
  | textEnd => after.isNone
  | lineStart => before.all (· == '\n')
  | lineEnd => after.all (· == '\n')
  | lineStartReturn =>
    before.all fun c => c == '\n' || (c == '\r' && after != some '\n')
  | lineEndReturn =>
    after.all fun c => c == '\r' || (c == '\n' && before != some '\r')
  | wordEdge ascii => isWord ascii before != isWord ascii after
  | noWordEdge ascii => isWord ascii before == isWord ascii after
  | wordStart ascii => !isWord ascii before && isWord ascii after
  | wordEnd ascii => isWord ascii before && !isWord ascii after
  | halfWordStart ascii => !isWord ascii before
  | halfWordEnd ascii => !isWord ascii after

end Look

inductive Regex where
  | empty
  | one (k : CharSet)
  | look (l : Look)
  | seq (a b : Regex)
  | alt (a b : Regex)
  /-- From `min` times up to `max` times, without end where there is no `max`. -/
  | rep (min : Nat) (max : Option Nat) (r : Regex)
with
  @[computed_field] mark : Regex → UInt64
    | .empty => 1
    | .one k => mixHash 2 (hash k.changes.head?)
    | .look _ => 3
    | .seq a b => mixHash 5 (mixHash a.mark b.mark)
    | .alt a b => mixHash 7 (mixHash a.mark b.mark)
    | .rep min max r => mixHash (mixHash (hash min) (hash max)) r.mark
deriving DecidableEq

namespace Regex

def nullable (before after : Option Char) : Regex → Bool
  | empty => true
  | one _ => false
  | look l => l.holds before after
  | seq a b => nullable before after a && nullable before after b
  | alt a b => nullable before after a || nullable before after b
  | rep min _ r => min == 0 || nullable before after r

def followedBy : Regex → Regex → Regex
  | empty, b => b
  | a, b => seq a b

instance : Hashable Regex := ⟨mark⟩

def decideEq (decide : (a b : Regex) → Decidable (a = b)) (a b : Regex) : Decidable (a = b) :=
  withPtrEqDecEq a b fun _ =>
    if h : a.mark = b.mark then decide a b else isFalse fun e => h (e ▸ rfl)

instance (priority := high) : DecidableEq Regex := decideEq inferInstance

def distinct (rs : List Regex) : List Regex := (Std.HashSet.ofList rs).toList

/-- What may be ahead once a character is taken. Repetitions that match the empty text here may be
passed over, so after one that takes the character none of the others is owed. -/
def after (before : Option Char) (c : Char) : Regex → List Regex
  | empty => []
  | one k => if k.has c then [empty] else []
  | look _ => []
  | seq a b =>
    let first := (after before c a).map (followedBy · b)
    if nullable before (some c) a then first ++ after before c b else first
  | alt a b => after before c a ++ after before c b
  | rep min max r =>
    if max = some 0 then []
    else
      let owed := if nullable before (some c) r then 0 else min - 1
      (after before c r).map (followedBy · (rep owed (max.map (· - 1)) r))

def matchesFrom (r : Regex) (before : Option Char) (ahead : List Regex) : List Char → Bool
  | [] => (r :: ahead).any (nullable before none)
  | c :: rest =>
    let ahead := distinct (r :: ahead)
    ahead.any (nullable before (some c)) ||
      matchesFrom r (some c) (ahead.flatMap (after before c)) rest

def isMatch (r : Regex) (text : List Char) : Bool := matchesFrom r none [] text

@[simp] theorem mem_distinct {r : Regex} {rs : List Regex} : r ∈ distinct rs ↔ r ∈ rs := by
  simp [distinct]

@[simp] theorem isMatch_empty (text : List Char) : isMatch empty text = true := by
  cases text with
  | nil => rfl
  | cons c rest =>
    have h : (distinct [empty]).any (nullable none (some c)) = true :=
      List.any_eq_true.2 ⟨empty, by simp, rfl⟩
    simp [isMatch, matchesFrom, h]

end Regex
end Schemata

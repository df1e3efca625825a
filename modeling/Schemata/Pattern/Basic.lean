import Schemata.Pattern.Notation

/-!
Patterns of string types: the text that was written and the expression it stands for. Two patterns
are the same when their texts are.
-/

namespace Schemata

structure Pattern where
  source : String
  regex : Regex

namespace Pattern

def ofSource? (source : String) : Option Pattern :=
  (regex? source.toList).map fun r => ⟨source, r⟩

def isMatch (p : Pattern) (text : String) : Bool := p.regex.isMatch text.toList

def same (p q : Pattern) : Bool := p.source == q.source

end Pattern
end Schemata

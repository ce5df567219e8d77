import TagScope.Policy
import TagScope.Location
/-!
# Element names

The names at the head of elements: a bare identifier, a path of properties, or a pair with a colon.

* `Identifier`: **never empty**; a member of `SourceType` may stand for its word.
* `ElementName`: a tree whose object positions hold element names.
* `ElementName.text`: the name as written in an element; `ElementName.shown`: the constructor call.
* `ElementName.same`: equality, which compares texts and positions and nothing else.
-/

namespace TagScope

/-! ## 1. Identifiers -/

/-- The text of an identifier, as it was given. -/
inductive Identifier where
  | plain (s : String) (ne : s ≠ "")
  /-- A source type, which is a text too. -/
  | sourceType (t : SourceType)
deriving DecidableEq

namespace Identifier

/-- The characters. -/
def text : Identifier → String
  | .plain s _ => s
  | .sourceType t => t.word

/-- The form inside of a longer text. -/
def inText : Identifier → String
  | .plain s _ => s
  | .sourceType t => t.shown

/-- The form in a constructor call. -/
def shown : Identifier → String
  | .plain s _ => quoted s
  | .sourceType t => t.shown

theorem text_ne_empty : ∀ i : Identifier, i.text ≠ ""
  | .plain _ ne => ne
  | .sourceType t => t.word_ne_empty

end Identifier

/-! ## 2. Element names -/

/-- The name of an element. -/
inductive ElementName where
  | simple (name : Identifier) (location : Option Location)
  /-- A property of what another name stands for. -/
  | member (object : ElementName) (property : Identifier) (location : Option Location)
  | namespaced (space localName : Identifier) (location : Option Location)
deriving DecidableEq

namespace ElementName

/-- The location of the whole name. -/
def location : ElementName → Option Location
  | .simple _ l => l
  | .member _ _ l => l
  | .namespaced _ _ l => l

/-- The name as written in an element. -/
def text : ElementName → String
  | .simple n _ => n.text
  | .member o p _ => o.text ++ "." ++ p.inText
  | .namespaced s n _ => s.inText ++ ":" ++ n.inText

/-- The constructor call. -/
def shown : ElementName → String
  | .simple n l => "SimpleName(" ++ n.shown ++ Location.argument l ++ ")"
  | .member o p l => "MemberPath(" ++ o.shown ++ ", " ++ p.shown ++ Location.argument l ++ ")"
  | .namespaced s n l =>
    "NamespacedName(" ++ s.shown ++ ", " ++ n.shown ++ Location.argument l ++ ")"

/-- Whether two names are equal. -/
def same : ElementName → ElementName → Bool
  | .simple n l, .simple m k => n.text == m.text && Location.same? l k
  | .member o p l, .member u q k => p.text == q.text && Location.same? l k && same o u
  | .namespaced s n l, .namespaced t m k =>
    s.text == t.text && n.text == m.text && Location.same? l k
  | _, _ => false

example : text (.member (.simple (.sourceType .module) none) (.sourceType .script) none)
    = "module.SourceType.SCRIPT" := by decide

end ElementName

end TagScope

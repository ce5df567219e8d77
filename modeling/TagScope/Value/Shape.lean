/-!
# Shapes of values

What sort of thing a value is, as far as messages tell: each sort has a short word and a long form.
-/

namespace TagScope

/-- The sort of a value. -/
inductive Shape where
  | null
  | bool
  | int
  | decimal
  | text
  | list
  | mapping
  | location
  | simpleName
  | memberPath
  | namespacedName
  | reference
  | diagnostic
  | policy
  | sourceType
  | scopeKind
  | verdict
  | scope
deriving DecidableEq, Repr

namespace Shape

/-- The short word. -/
def word : Shape → String
  | null => "NoneType"
  | bool => "bool"
  | int => "int"
  | decimal => "float"
  | text => "str"
  | list => "list"
  | mapping => "dict"
  | location => "Location"
  | simpleName => "SimpleName"
  | memberPath => "MemberPath"
  | namespacedName => "NamespacedName"
  | reference => "Reference"
  | diagnostic => "Diagnostic"
  | policy => "ResolutionConfig"
  | sourceType => "SourceType"
  | scopeKind => "ScopeKind"
  | verdict => "Verdict"
  | scope => "Scope"

/-- The word with the place where the sort is defined, if it has one. -/
def path : Shape → String
  | location => "jsxref._core.names.Location"
  | simpleName => "jsxref._core.names.SimpleName"
  | memberPath => "jsxref._core.names.MemberPath"
  | namespacedName => "jsxref._core.names.NamespacedName"
  | reference => "jsxref._core.extraction.Reference"
  | diagnostic => "jsxref._core.reporting.Diagnostic"
  | policy => "jsxref._core.config.ResolutionConfig"
  | scope => "jsxref._core.scoping.Scope"
  | s => s.word

/-- Whether the sort is an enumeration. -/
def isEnumeration : Shape → Bool
  | sourceType | scopeKind | verdict => true
  | _ => false

/-- The long form. -/
def shown (s : Shape) : String :=
  (if s.isEnumeration then "<enum '" else "<class '") ++ s.path ++ "'>"

end Shape

end TagScope

import TagScope.Value
/-!
# The rule

What the rule says about itself, and the members of the enumerations that its users meet.
-/

namespace TagScope

/-- What a rule says about itself. -/
structure Metadata where
  name : String
  description : String
  /-- The category under which it is listed. -/
  category : String
  /-- Whether it is on by default. -/
  recommended : Bool
  docs : String
deriving DecidableEq, Repr

/-- The rule that this library implements. -/
def Metadata.current : Metadata where
  name := "jsx-no-undef"
  description := "Disallow undeclared variables in JSX"
  category := "Possible Errors"
  recommended := true
  docs := "https://github.com/jsx-eslint/eslint-plugin-react/tree/master/docs/rules/jsx-no-undef.md"

/-! ## Enumerations -/

/-- The enumerations. -/
inductive Enumeration where
  | scopeKind
  | sourceType
  | verdict
deriving DecidableEq, Repr

/-- A member of an enumeration, as it is listed. -/
structure Member where
  name : String
  value : Datum
  shown : String
  text : String

/-- The members of an enumeration, in order. -/
def Enumeration.members : Enumeration → List Member
  | .scopeKind =>
    ScopeKind.all.map fun k => ⟨k.name, .int k.number, k.shown, toString k.number⟩
  | .sourceType => SourceType.all.map fun t => ⟨t.name, .text t.word, t.shown, t.shown⟩
  | .verdict => Verdict.all.map fun v => ⟨v.name, .int v.number, v.shown, v.shown⟩

end TagScope

/-!
# Kinds of scope

The closed list of kinds a lexical scope can have, the number that stands for each and its name.

* `ScopeKind.number`: the kinds are counted from one, in the order of `ScopeKind.all`.
* `ScopeKind.shown`: the name behind the name of the enumeration.
-/

namespace TagScope

/-- What opens a lexical scope. -/
inductive ScopeKind where
  | block
  | catchClause
  | classBody
  | classFieldInitializer
  | classStaticBlock
  | forLoop
  | function
  | functionExpressionName
  | global
  | module
  | switch
  | withStatement
deriving DecidableEq, Repr

namespace ScopeKind

/-- Every kind, in the order of the numbers. -/
def all : List ScopeKind :=
  [block, catchClause, classBody, classFieldInitializer, classStaticBlock, forLoop, function,
   functionExpressionName, global, module, switch, withStatement]

/-- The number that stands for a kind. -/
def number : ScopeKind → Nat
  | block => 1
  | catchClause => 2
  | classBody => 3
  | classFieldInitializer => 4
  | classStaticBlock => 5
  | forLoop => 6
  | function => 7
  | functionExpressionName => 8
  | global => 9
  | module => 10
  | switch => 11
  | withStatement => 12

/-- The name of a kind. -/
def name : ScopeKind → String
  | block => "BLOCK"
  | catchClause => "CATCH"
  | classBody => "CLASS"
  | classFieldInitializer => "CLASS_FIELD_INITIALIZER"
  | classStaticBlock => "CLASS_STATIC_BLOCK"
  | forLoop => "FOR"
  | function => "FUNCTION"
  | functionExpressionName => "FUNCTION_EXPRESSION_NAME"
  | global => "GLOBAL"
  | module => "MODULE"
  | switch => "SWITCH"
  | withStatement => "WITH"

/-- The kind with its enumeration. -/
def shown (k : ScopeKind) : String := "ScopeKind." ++ k.name

/-- The kind of a given name. -/
def ofName? (s : String) : Option ScopeKind := all.find? (·.name = s)

/-- **Two kinds with one number are one kind.** -/
theorem number_inj : ∀ {k m : ScopeKind}, k.number = m.number → k = m := by
  intro k m
  cases k <;> cases m <;> simp [number]

end ScopeKind

end TagScope

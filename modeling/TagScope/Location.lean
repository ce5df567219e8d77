import TagScope.Datum
import TagScope.Scope.Kind
/-!
# Locations

A position in a text: a line counted from one and a column counted from zero.

* `Whole`: an integer as it was given; truth values and kinds of scope are integers too, and a
  location remembers which one it got.
* `Location`: **the line is positive and the column is not negative**, by the type.
* `Location.same`: equality of positions, blind to how the numbers were given.
-/

namespace TagScope

/-! ## 1. Whole numbers as given -/

/-- A whole number, together with what it was given as. -/
inductive Whole where
  | int (n : Int)
  | bool (b : Bool)
  | kind (k : ScopeKind)
deriving DecidableEq

namespace Whole

/-- The number. -/
def toInt : Whole → Int
  | .int n => n
  | .bool b => if b then 1 else 0
  | .kind k => k.number

/-- The form in a constructor call. -/
def shown : Whole → String
  | .int n => toString n
  | .bool b => Datum.boolShown b
  | .kind k => k.shown

/-- The form in running text. -/
def text : Whole → String
  | .int n => toString n
  | .bool b => Datum.boolShown b
  | .kind k => toString k.number

end Whole

/-! ## 2. Locations -/

/-- A position. -/
structure Location where
  /-- The line, counted from one. -/
  line : Whole
  /-- The column, counted from zero. -/
  column : Whole
  line_pos : 1 ≤ line.toInt
  column_nonneg : 0 ≤ column.toInt
deriving DecidableEq

namespace Location

/-- Whether two locations are one position. -/
def same (a b : Location) : Bool :=
  a.line.toInt == b.line.toInt && a.column.toInt == b.column.toInt

/-- Whether two locations, each possibly absent, are equal. -/
def same? : Option Location → Option Location → Bool
  | none, none => true
  | some a, some b => a.same b
  | _, _ => false

/-- The constructor call. -/
def shown (l : Location) : String := "Location(" ++ l.line.shown ++ ", " ++ l.column.shown ++ ")"

/-- Line and column with a colon between them. -/
def text (l : Location) : String := l.line.text ++ ":" ++ l.column.text

/-- What stands behind the last identifier of a constructor call: nothing without a location. -/
def argument : Option Location → String
  | none => ""
  | some l => ", location=" ++ l.shown

example : shown ⟨.bool true, .kind .block, by decide, by decide⟩
    = "Location(True, ScopeKind.BLOCK)" := by decide
example : text ⟨.bool true, .kind .block, by decide, by decide⟩ = "True:1" := by decide

end Location

end TagScope

import TagScope.ElementName
import TagScope.Failure
import TagScope.Forest
/-!
# Values

Everything that can be handed to an operation or come out of one. References and diagnostics take
any values as their fields; names, locations and policies are checked when they are built.

* `Value`: plain data, or a value of one of the types of this library.
* `Value.shape`: its sort, for messages.
* `Value.whole?`, `Value.text?`: the views of a value as an integer and as a text.
* `Value.shown`, `Value.text`: its constructor call and its form in running text.
-/

namespace TagScope

/-! ## 1. The type -/

/-- The outcome of resolving a name. -/
inductive Verdict where
  | bound
  | unbound
deriving DecidableEq, Repr

namespace Verdict

/-- Both verdicts, in order. -/
def all : List Verdict := [bound, unbound]

/-- The number that stands for a verdict. -/
def number : Verdict → Nat
  | bound => 1
  | unbound => 2

/-- The name of a verdict. -/
def name : Verdict → String
  | bound => "BOUND"
  | unbound => "UNBOUND"

/-- The verdict with its enumeration. -/
def shown (v : Verdict) : String := "Verdict." ++ v.name

/-- The verdict of a given name. -/
def ofName? (s : String) : Option Verdict := all.find? (·.name = s)

end Verdict

/-- A value of any sort. -/
inductive Value where
  | datum (d : Datum)
  | kind (k : ScopeKind)
  | sourceType (t : SourceType)
  | verdict (v : Verdict)
  | location (l : Location)
  | name (n : ElementName)
  /-- A reference to a binding; its fields are not checked. -/
  | reference (name location : Value)
  /-- A message with its location; its fields are not checked. -/
  | diagnostic (location message : Value)
  | policy (c : Policy)
  /-- The scope with a number. -/
  | scope (i : Nat)

namespace Value

/-- The value for a plain text. -/
def ofText (s : String) : Value := .datum (.text s)

/-- The value for nothing. -/
def null : Value := .datum .null

/-- The value for a location that may be absent. -/
def ofLocation? : Option Location → Value
  | none => null
  | some l => .location l

/-- The value that a whole number was given as. -/
def ofWhole : Whole → Value
  | .int n => .datum (.int n)
  | .bool b => .datum (.bool b)
  | .kind k => .kind k

/-- The value that an identifier was given as. -/
def ofIdentifier : Identifier → Value
  | .plain s _ => ofText s
  | .sourceType t => .sourceType t

/-! ## 2. Sorts -/

/-- The sort of a datum. -/
def datumShape : Datum → Shape
  | .null => .null
  | .bool _ => .bool
  | .int _ => .int
  | .decimal _ => .decimal
  | .text _ => .text
  | .list _ => .list
  | .mapping _ => .mapping

/-- The sort of an element name. -/
def nameShape : ElementName → Shape
  | .simple .. => .simpleName
  | .member .. => .memberPath
  | .namespaced .. => .namespacedName

/-- The sort of a value. -/
def shape : Value → Shape
  | .datum d => datumShape d
  | .kind _ => .scopeKind
  | .sourceType _ => .sourceType
  | .verdict _ => .verdict
  | .location _ => .location
  | .name n => nameShape n
  | .reference .. => .reference
  | .diagnostic .. => .diagnostic
  | .policy _ => .policy
  | .scope _ => .scope

/-! ## 3. Views -/

/-- The value as a whole number: an integer, a truth value or a kind. -/
def whole? : Value → Option Whole
  | .datum (.int n) => some (.int n)
  | .datum (.bool b) => some (.bool b)
  | .kind k => some (.kind k)
  | _ => none

/-- The characters of a value that is a text: a plain one or a source type. -/
def text? : Value → Option String
  | .datum (.text s) => some s
  | .sourceType t => some t.word
  | _ => none

/-- Whether a value counts as true. Only plain data can count as false. -/
def isTrue : Value → Bool
  | .datum d => d.isTrue
  | _ => true

/-! ## 4. Written forms -/

/-- The constructor call of a value. -/
def shown (f : Forest) : Value → String
  | .datum d => d.shown
  | .kind k => k.shown
  | .sourceType t => t.shown
  | .verdict v => v.shown
  | .location l => l.shown
  | .name n => n.shown
  | .reference n l =>
    "Reference(" ++ n.shown f
      ++ (match l with
        | .datum .null => ""
        | l => ", location=" ++ l.shown f) ++ ")"
  | .diagnostic l m => "Diagnostic(" ++ l.shown f ++ ", " ++ m.shown f ++ ")"
  | .policy c => c.shown
  | .scope i => f.shown i

/-- The form of a value in running text. A diagnostic without a location is its message, which must
    then be a text; **that is the only way to fail**. -/
def text (f : Forest) : Value → Except Failure String
  | .datum (.text s) => .ok s
  | .kind k => .ok (toString k.number)
  | .location l => .ok l.text
  | .name n => .ok n.text
  | .diagnostic (.datum .null) m =>
    match m.text? with
    | some s => .ok s
    | none => .error (.textNotText m.shape)
  | .diagnostic l m => do
    let l ← l.text f
    let m ← m.text f
    return l ++ ": " ++ m
  | v => .ok (v.shown f)

end Value

end TagScope

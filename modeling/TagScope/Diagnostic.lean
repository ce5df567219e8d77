import TagScope.Reference
/-!
# Diagnostics

What is said about a reference that nothing binds.

* `notDefined`: the message for a name.
* `Diagnostic`: a message with the place of the reference.
* `Value.emitted`: the diagnostic for any value that has a location and a name, in that order.
-/

namespace TagScope

/-- The message about a name that is not declared. -/
def notDefined (name : String) : String := "'" ++ name ++ "' is not defined."

/-- A message about a place. -/
structure Diagnostic where
  location : Option Location
  message : String
deriving DecidableEq

namespace Diagnostic

/-- A diagnostic as a value. -/
def toValue (d : Diagnostic) : Value := .diagnostic (.ofLocation? d.location) (.ofText d.message)

/-- The line that is printed: the place, if there is one, and the message. -/
def text (d : Diagnostic) : String :=
  match d.location with
  | none => d.message
  | some l => l.text ++ ": " ++ d.message

end Diagnostic

/-- The diagnostic about an unbound reference. -/
def Reference.diagnostic (r : Reference) : Diagnostic := ⟨r.location, notDefined r.name.inText⟩

namespace Value

/-- The message about any value as a name. -/
def notDefinedMessage (f : Forest) (v : Value) : Except Failure String := do
  return notDefined (← v.text f)

/-- The part of a value that is its location. -/
def locationPart : Value → Except Failure Value
  | .name n => .ok (.ofLocation? n.location)
  | .reference _ l => .ok l
  | .diagnostic l _ => .ok l
  | v => .error (.missing v.shape .location)

/-- The diagnostic about any value that has a location and a name. -/
def emitted (f : Forest) (v : Value) : Except Failure Value := do
  let location ← v.locationPart
  let message ← (← v.namePart).notDefinedMessage f
  return .diagnostic location (.ofText message)

end Value

end TagScope

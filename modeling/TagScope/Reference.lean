import TagScope.Value.Equality
/-!
# References

Which identifier of an element name has to be declared somewhere.

* `intrinsic`: names of built-in elements **start with a small letter or contain a hyphen**, and
  need no declaration.
* `ElementName.reference?`: a bare name refers to itself unless it is intrinsic; a path refers to
  the bare name at its left end, intrinsic or not; a name with a colon refers to what stands before
  the colon. **A path over a name with a colon refers to nothing.**
* `Value.isReceiver`: the name that is bound everywhere.
-/

namespace TagScope

/-! ## 1. Intrinsic names -/

/-- Whether a character is a small letter from a to z. -/
def isSmallLetter (c : Char) : Bool := 'a' ≤ c && c ≤ 'z'

/-- Whether a text names a built-in element. -/
def intrinsic (s : String) : Bool :=
  (match s.toList with
    | [] => false
    | c :: _ => isSmallLetter c) || s.toList.any (· == '-')

/-- Whether the text of a value names a built-in element. -/
def Value.isIntrinsic (v : Value) : Except Failure Bool :=
  match v.text? with
  | some s => .ok (intrinsic s)
  | none => .error (.notSearchable v.shape)

/-! ## 2. Extraction -/

/-- An identifier that has to resolve, with the place where it stands. -/
structure Reference where
  name : Identifier
  location : Option Location
deriving DecidableEq

namespace Reference

/-- A reference as a value. -/
def toValue (r : Reference) : Value :=
  .reference (.ofIdentifier r.name) (.ofLocation? r.location)

/-- The constructor call. -/
def shown (r : Reference) : String :=
  "Reference(" ++ r.name.shown ++ Location.argument r.location ++ ")"

end Reference

/-- The name at the left end of a path; a name that is no path is its own left end. -/
def ElementName.root : ElementName → ElementName
  | .member o _ _ => o.root
  | n => n

/-- The identifier to resolve for an element name, if there is one. -/
def ElementName.reference? : ElementName → Option Reference
  | .simple n l => if intrinsic n.text then none else some ⟨n, l⟩
  | .member o _ _ =>
    match o.root with
    | .simple n l => some ⟨n, l⟩
    | _ => none
  | .namespaced s _ l => some ⟨s, l⟩

/-- The identifier to resolve for any value: only element names have one. -/
def Value.reference? : Value → Option Reference
  | .name n => n.reference?
  | _ => none

/-! ## 3. The implicit receiver -/

/-- The name of the receiver, which is bound wherever there is an element. -/
def receiverName : String := "this"

/-- The part of a value that is its name: members of enumerations have one too. -/
def Value.namePart : Value → Except Failure Value
  | .name (.simple n _) => .ok (.ofIdentifier n)
  | .reference n _ => .ok n
  | .kind k => .ok (.ofText k.name)
  | .sourceType t => .ok (.ofText t.name)
  | .verdict v => .ok (.ofText v.name)
  | v => .error (.missing v.shape .name)

/-- Whether the name of a value is the name of the receiver. -/
def Value.isReceiver (v : Value) : Except Failure Bool := do
  return (← v.namePart).same (.ofText receiverName)

end TagScope

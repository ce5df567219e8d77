import TagScope.Value.Equality
/-!
# Building values

The checked constructors, over any values as arguments, and what rebuilds a value.

* `Value.buildLocation`, `Value.buildSimple`, `Value.buildMember`, `Value.buildNamespaced`: each
  checks its arguments **in the order in which they are given, and its location last**.
* `Value.arguments?`: what a value is built from, positional arguments apart from named ones.
* `Value.rebuilt`: the value built again from its arguments, from the inside out.
* `Value.copied`: the same, for values without scopes that are linked to others.
-/

namespace TagScope

namespace Value

/-! ## 1. Arguments -/

/-- A value as an identifier: it must be a text, and then not the empty one. -/
def toIdentifier : Value → Except Failure Identifier
  | .datum (.text s) => if h : s = "" then .error .emptyIdentifier else .ok (.plain s h)
  | .sourceType t => .ok (.sourceType t)
  | v => .error (.notIdentifier v.shape)

/-- A value as the location of a name, which may be absent. -/
def toLocation? : Value → Except Failure (Option Location)
  | .datum .null => .ok none
  | .location l => .ok (some l)
  | v => .error (.notLocation v.shape)

/-- A value as an element name. -/
def toElementName : Value → Except Failure ElementName
  | .name n => .ok n
  | v => .error (.notElementName v.shape)

/-! ## 2. Constructors -/

/-- A location. Both numbers must be whole before either of them is checked for its range. -/
def buildLocation (line column : Value) : Except Failure Value :=
  match line.whole?, column.whole? with
  | some l, some c =>
    if h : 1 ≤ l.toInt ∧ 0 ≤ c.toInt then .ok (.location ⟨l, c, h.1, h.2⟩)
    else .error (.outOfRange l.shown c.shown)
  | _, _ => .error (.notWhole line.shape column.shape)

/-- A bare name. -/
def buildSimple (name location : Value) : Except Failure Value := do
  let n ← name.toIdentifier
  let l ← location.toLocation?
  return .name (.simple n l)

/-- A property of a name. -/
def buildMember (object property location : Value) : Except Failure Value := do
  let o ← object.toElementName
  let p ← property.toIdentifier
  let l ← location.toLocation?
  return .name (.member o p l)

/-- A name with a colon. -/
def buildNamespaced (space localName location : Value) : Except Failure Value := do
  let s ← space.toIdentifier
  let n ← localName.toIdentifier
  let l ← location.toLocation?
  return .name (.namespaced s n l)

/-! ## 3. Building again -/

/-- What a value is built from. -/
structure Arguments (α : Type) where
  positional : List α
  named : List (String × α)

/-- Every argument turned into another one. -/
def Arguments.map {α β : Type} (g : α → β) (a : Arguments α) : Arguments β :=
  ⟨a.positional.map g, a.named.map fun e => (e.1, g e.2)⟩

/-- What an element name is built from. -/
def nameArguments : ElementName → Arguments Value
  | .simple n l => ⟨[.ofIdentifier n], [("location", .ofLocation? l)]⟩
  | .member o p l => ⟨[.name o, .ofIdentifier p], [("location", .ofLocation? l)]⟩
  | .namespaced s n l => ⟨[.ofIdentifier s, .ofIdentifier n], [("location", .ofLocation? l)]⟩

/-- What a datum is built from: a number or a text from itself, a truth value from its number. -/
def datumArguments? : Datum → Option (Arguments Value)
  | .bool b => some ⟨[.datum (.int (if b then 1 else 0))], []⟩
  | .int n => some ⟨[.datum (.int n)], []⟩
  | .decimal d => some ⟨[.datum (.decimal d)], []⟩
  | .text s => some ⟨[.ofText s], []⟩
  | .null | .list _ | .mapping _ => none

/-- What a value is built from, if it tells. -/
def arguments? : Value → Option (Arguments Value)
  | .datum d => datumArguments? d
  | .kind k => some ⟨[.datum (.int k.number)], []⟩
  | .sourceType t => some ⟨[.ofText t.word], []⟩
  | .location l => some ⟨[.ofWhole l.line, .ofWhole l.column], []⟩
  | .name n => some (nameArguments n)
  | .diagnostic l m => some ⟨[l, m], []⟩
  | .policy c =>
    some ⟨[], [("allow_globals", .datum (.bool c.allowGlobals)),
      ("source_is_module", .datum (.bool c.sourceIsModule))]⟩
  | .verdict _ | .reference .. | .scope _ => none

/-- A location built again. -/
def rebuiltLocation (l : Location) : Except Failure Value :=
  buildLocation (.ofWhole l.line) (.ofWhole l.column)

/-- The location argument of a name built again. -/
def rebuiltLocation? : Option Location → Except Failure Value
  | none => .ok null
  | some l => rebuiltLocation l

/-- An element name built again. -/
def rebuiltName : ElementName → Except Failure Value
  | .simple n l => do buildSimple (.ofIdentifier n) (← rebuiltLocation? l)
  | .member o p l => do buildMember (← rebuiltName o) (.ofIdentifier p) (← rebuiltLocation? l)
  | .namespaced s n l => do
    buildNamespaced (.ofIdentifier s) (.ofIdentifier n) (← rebuiltLocation? l)

/-- Whether a value holds a scope that is inside of another one or has others inside. -/
def holdsLinked (f : Forest) : Value → Bool
  | .reference n l => n.holdsLinked f || l.holdsLinked f
  | .diagnostic l m => l.holdsLinked f || m.holdsLinked f
  | .scope i => f.linked i
  | _ => false

/-- A value built again, its fields first. Plain data and members of enumerations stay what they
    are; a scope becomes a new scope, so the forest may grow. -/
def rebuilt (f : Forest) : Value → Except Failure (Forest × Value)
  | .location l => do return (f, ← rebuiltLocation l)
  | .name n => do return (f, ← rebuiltName n)
  | .diagnostic l m => do
    let (g, l) ← l.rebuilt f
    let (h, m) ← m.rebuilt g
    return (h, .diagnostic l m)
  | .reference .. => .error .notRebuilt
  | .scope i =>
    match f.scope? i with
    | some s => .ok (f.push s, .scope f.scopes.size)
    | none => .ok (f, .scope i)
  | v => .ok (f, v)

/-- A copy of a value, and the forest in which its scopes are. Linked scopes are refused before
    anything is built. -/
def copied (f : Forest) (v : Value) : Except Failure (Forest × Value) :=
  if v.holdsLinked f then .error .linked else v.rebuilt f

end Value

end TagScope

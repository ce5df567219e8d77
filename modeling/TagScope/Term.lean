import TagScope.Policy.Options
import TagScope.Value.Build
/-!
# Terms

How a value is written down: a tree of constructor calls with plain data at its leaves.

* `Term.eval`: builds the value **from the inside out, arguments from left to right**; the first
  call that fails is the failure of the term.
* `Value.toTerm`: the term of a value, with every field given. Inside of locations and names it has
  plain numbers and texts, so its value is **equal to the one it was made from**.
-/

namespace TagScope

/-- A tree of constructor calls. An absent location is the term for nothing. -/
inductive Term where
  | raw (d : Datum)
  | location (line column : Term)
  | simple (name location : Term)
  | member (object property location : Term)
  /-- A name with properties added one after the other, none of them with a location. -/
  | path (root : Term) (properties : List Datum)
  | namespaced (space localName location : Term)
  | reference (name location : Term)
  | diagnostic (location message : Term)
  /-- A policy from any two values, each taken as a condition. -/
  | policy (allowGlobals sourceIsModule : Term)
  | options (options : Datum) (sourceType : Term)
  | sourceType (t : SourceType)
  | kind (k : ScopeKind)
  | verdict (v : Verdict)
  | scope (id : String)

namespace Term

/-- The term for nothing. -/
def null : Term := .raw .null

/-- The scope held under an id, as a value. -/
def heldScope (f : Forest) (id : String) : Except Failure Value :=
  match f.held? id with
  | some i => .ok (.scope i)
  | none => .error (.noSuchScope id)

/-- The value of a term, in a forest whose scopes it may name. -/
def eval (f : Forest) : Term → Except Failure Value
  | .raw d => .ok (.datum d)
  | .location l c => do Value.buildLocation (← l.eval f) (← c.eval f)
  | .simple n l => do Value.buildSimple (← n.eval f) (← l.eval f)
  | .member o p l => do Value.buildMember (← o.eval f) (← p.eval f) (← l.eval f)
  | .path r ps => do ps.foldlM (fun v p => Value.buildMember v (.datum p) .null) (← r.eval f)
  | .namespaced s n l => do Value.buildNamespaced (← s.eval f) (← n.eval f) (← l.eval f)
  | .reference n l => do return .reference (← n.eval f) (← l.eval f)
  | .diagnostic l m => do return .diagnostic (← l.eval f) (← m.eval f)
  | .policy a m => do return .policy ⟨(← a.eval f).isTrue, (← m.eval f).isTrue⟩
  | .options d t => do return .policy (← Policy.ofOptions f d (← t.eval f))
  | .sourceType t => .ok (.sourceType t)
  | .kind k => .ok (.kind k)
  | .verdict v => .ok (.verdict v)
  | .scope id => heldScope f id

/-- The values of several terms, from left to right. -/
def evalAll (f : Forest) (ts : List Term) : Except Failure (List Value) := ts.mapM (eval f)

/-! ## From values to terms -/

/-- The term of a whole number; a kind is written as its number. -/
def ofWhole : Whole → Term
  | .int n => .raw (.int n)
  | .bool b => .raw (.bool b)
  | .kind k => .raw (.int k.number)

/-- The term of an identifier; a source type is written as its word. -/
def ofIdentifier (i : Identifier) : Term := .raw (.text i.text)

/-- The term of a location that may be absent. -/
def ofLocation? : Option Location → Term
  | none => null
  | some l => .location (ofWhole l.line) (ofWhole l.column)

/-- The term of an element name. -/
def ofElementName : ElementName → Term
  | .simple n l => .simple (ofIdentifier n) (ofLocation? l)
  | .member o p l => .member (ofElementName o) (ofIdentifier p) (ofLocation? l)
  | .namespaced s n l => .namespaced (ofIdentifier s) (ofIdentifier n) (ofLocation? l)

end Term

/-- The term that gives an equal value back. -/
def Value.toTerm (f : Forest) : Value → Term
  | .datum d => .raw d
  | .kind k => .kind k
  | .sourceType t => .sourceType t
  | .verdict v => .verdict v
  | .location l => .location (.ofWhole l.line) (.ofWhole l.column)
  | .name n => .ofElementName n
  | .reference n l => .reference (n.toTerm f) (l.toTerm f)
  | .diagnostic l m => .diagnostic (l.toTerm f) (m.toTerm f)
  | .policy c => .policy (.raw (.bool c.allowGlobals)) (.raw (.bool c.sourceIsModule))
  | .scope i => .scope (f.label i)

end TagScope

import TagScope.Value.Equality
/-!
# Building scopes

One more scope around scopes that are there, with every argument checked before anything changes.

* `Forest.construct`: the kind, then the children one after the other, then the bindings; **the
  first fault is the failure, and a failure builds nothing**.
* `Forest.nest`: scopes around one scope, each with the one before as its only child.
-/

namespace TagScope

/-! ## 1. Arguments -/

/-- Where the children of a new scope come from. -/
inductive Children where
  | given (vs : List Value)
  | raw (d : Datum)

/-- The values that are meant as children. -/
def Children.values : Children → Except Failure (List Value)
  | .given vs => .ok vs
  | .raw d =>
    match d.items? with
    | some items => .ok (items.map .datum)
    | none => .error (.notIterable (Value.datumShape d))

/-- A value as the kind of a scope. -/
def Value.toKind : Value → Except Failure ScopeKind
  | .kind k => .ok k
  | v => .error (.notKind v.shape)

/-- A datum as a binding: it must be one that a set can hold. -/
def Datum.toBinding (d : Datum) : Except Failure Binding :=
  match Binding.ofDatum? d with
  | some b => .ok b
  | none => .error (.unhashable (Value.datumShape d))

/-- The bindings that a datum yields. -/
def Datum.toBindings (d : Datum) : Except Failure (List Binding) :=
  match d.items? with
  | none => .error (.notIterable (Value.datumShape d))
  | some items => items.mapM Datum.toBinding

namespace Forest

/-- A value as a child that was not given away yet. -/
def toChild (f : Forest) : Value → Except Failure Nat
  | .scope i => if f.attached i then .error (.attached (f.shown i)) else .ok i
  | v => .error (.missing v.shape .parent)

/-! ## 2. One scope -/

/-- The scope that the arguments describe. -/
def describe (f : Forest) (label : String) (kind : Value) (children : Children)
    (bindings : Datum) : Except Failure Scope := do
  let k ← kind.toKind
  let vs ← children.values
  let cs ← vs.mapM f.toChild
  let bs ← bindings.toBindings
  return { label, kind := k, bindings := .ofList bs, children := cs }

/-- The forest with one more scope. Its number is the number of scopes so far. -/
def construct (f : Forest) (label : String) (kind : Value) (children : Children)
    (bindings : Datum) : Except Failure Forest := do
  return f.push (← f.describe label kind children bindings)

/-! ## 3. Many scopes -/

/-- What a nest of scopes is made of. -/
structure Nest where
  /-- The id of the outermost scope. -/
  id : String
  kind : ScopeKind
  count : Nat
  count_pos : 0 < count
  /-- What the name declared in each of them begins with, if they declare any. -/
  binding : Option String

namespace Nest

/-- The name of the scope that is the `n`th from the inside. -/
def label (t : Nest) (n : Nat) : String :=
  if n = t.count then t.id else t.id ++ "/" ++ toString n

/-- The names declared in the scope that is the `n`th from the inside. -/
def bindings (t : Nest) (n : Nat) : Datum :=
  .list (t.binding.toList.map fun b => .text (b ++ toString n))

end Nest

/-- Builds the last `n` scopes of a nest around scope `c`. -/
def nest (t : Nest) : Nat → Forest → Nat → Except Failure Forest
  | 0, f, _ => .ok f
  | n + 1, f, c => do
    let m := t.count - n
    let g ← f.construct (t.label m) (.kind t.kind) (.given [.scope c]) (t.bindings m)
    nest t n g f.scopes.size

end Forest

end TagScope

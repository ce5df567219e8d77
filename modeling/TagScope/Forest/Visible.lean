import TagScope.Traced
/-!
# Visible bindings

What can be used inside of a scope.

* `climb`: goes outwards through the living scopes, up to the first of the boundary kind.
* `Forest.visible`: what is declared on the way, and in the first child of the scope where
  the climb ends and in the first child of that one, since top-level scopes are at times wrapped in
  up to two others. **A chain without the boundary ends at its root and leaves a note.**
* `Forest.verdictOn`: whether a name is visible, under a policy.
-/

namespace TagScope

/-! ## 1. The climb -/

/-- What a climb saw. -/
structure Climb where
  /-- What is declared in the scopes on the way, the last one included. -/
  bindings : List Binding
  /-- The scope where it ended. -/
  last : Scope
  /-- Whether the end is what was looked for. -/
  reached : Bool

/-- Goes from a scope through those around it, up to the first one with `stop`. -/
def climb (stop : Scope → Bool) (s : Scope) : List Scope → Climb
  | [] => ⟨s.bindings.toList, s, stop s⟩
  | p :: rest =>
    if stop s then ⟨s.bindings.toList, s, true⟩
    else
      let c := climb stop p rest
      { c with bindings := s.bindings.toList ++ c.bindings }

/-! ## 2. Visible bindings -/

/-- Whether a scope is of the kind that a value names; only kinds name one. -/
def Value.isKindOf (boundary : Value) (s : Scope) : Bool :=
  match boundary with
  | .kind k => s.kind == k
  | _ => false

namespace Forest

/-- The first scope directly inside of a scope. -/
def firstChild? (f : Forest) (s : Scope) : Option Scope := s.children.head?.bind f.scope?

/-- What is declared in the first child of a scope and in the first child of that one. -/
def wrapped (f : Forest) (s : Scope) : List Binding :=
  match f.firstChild? s with
  | none => []
  | some c =>
    c.bindings.toList ++
      (match f.firstChild? c with
        | none => []
        | some d => d.bindings.toList)

/-- A value as a scope, with the scopes around it. -/
def toChain (f : Forest) (v : Value) : Except Failure (Scope × List Scope) :=
  match v with
  | .scope i =>
    match f.scope? i with
    | some s => .ok (s, (f.ancestors i).filterMap f.scope?)
    | none => .error (.missing v.shape .bindings)
  | _ => .error (.missing v.shape .bindings)

/-- What is visible from a scope up to a boundary, some of it perhaps more than once. -/
def visible (f : Forest) (scope boundary : Value) : Traced (List Binding) := do
  let (s, around) ← Traced.ofExcept (f.toChain scope)
  let c := climb boundary.isKindOf s around
  unless c.reached do Traced.note (.chainEnded c.last.kind boundary)
  return c.bindings ++ f.wrapped c.last

/-- The set of what is visible from a scope up to a boundary. -/
def visibleSet (f : Forest) (scope boundary : Value) : Traced Bindings := do
  return .ofList (← f.visible scope boundary)

end Forest

/-! ## 3. Resolution -/

/-- The boundary of a value that is a policy. -/
def Value.toBoundary : Value → Except Failure ScopeKind
  | .policy c => .ok c.boundary
  | v => .error (.missing v.shape .allowGlobals)

/-- Whether a value is one of some bindings. It must be one that a set can hold. -/
def Value.isAmong (v : Value) (bs : List Binding) : Except Failure Bool := do
  let m ← v.toMember
  return bs.any fun b => m.same (.datum b.toDatum)

/-- Whether a name is bound where it is used. The policy is looked at before the scope, and
    the name last. -/
def Forest.verdictOn (f : Forest) (name scope policy : Value) : Traced Verdict := do
  let boundary ← Traced.ofExcept policy.toBoundary
  let bs ← f.visible scope (.kind boundary)
  let found ← Traced.ofExcept (name.isAmong bs)
  return if found then .bound else .unbound

end TagScope

import TagScope.Forest.Construct
import TagScope.Session.Answer
/-!
# Steps of a session

A session works on one forest. Each step gets its arguments as terms, evaluates them in the forest
as it is, and replies; **only the steps that build or drop scopes change the forest, and only when
they succeed**.

* `Step`: everything a session can be asked.
* `Step.run`: the reply to a step and the forest after it.
* `Session.run`, `Session.forestAfter`: the replies to a list of steps, and the forest they leave.
-/

namespace TagScope

/-! ## 1. Steps -/

/-- Where the children of a new scope come from, before evaluation. -/
inductive ChildTerms where
  | given (ts : List Term)
  | raw (d : Datum)

/-- An element of a unit, before evaluation. -/
inductive ElementTerm where
  | empty
  | single (node : Term)
  /-- A name and a scope, and whether there is more. -/
  | pair (node scope : Term) (more : Bool)
  | raw (d : Datum)

/-- The elements of a unit, before evaluation. -/
inductive ElementTerms where
  | given (es : List ElementTerm)
  | raw (d : Datum)

/-- Questions, which change nothing. -/
inductive Query where
  | make (value : Term)
  | text (value : Term)
  | equal (a b : Term)
  | unique (values : List Term)
  | copy (value : Term)
  | intrinsic (name : Term)
  | reference (node : Term)
  | receiver (reference : Term)
  | boundary (policy : Term)
  | message (name : Term)
  | emit (reference : Term)
  | metadata
  | members (e : Enumeration)
  | state (id : String)

/-- Questions about names in scopes, which keep a log. -/
inductive Lookup where
  | visible (scope boundary : Term)
  | resolve (name scope policy : Term)
  | element (node scope policy : Term)
  | unit (elements : ElementTerms) (policy : Term)

/-- Requests that may change the forest. -/
inductive Change where
  | scope (id : String) (kind : Term) (children : ChildTerms) (bindings : Datum)
  | nest (t : Forest.Nest) (child : String)
  | drop (id : String)

/-- A step of a session. -/
inductive Step where
  | query (q : Query)
  | lookup (l : Lookup)
  | change (c : Change)

/-! ## 2. Evaluation of arguments -/

/-- The children to try. -/
def ChildTerms.eval (f : Forest) : ChildTerms → Except Failure Children
  | .given ts => do return .given (← Term.evalAll f ts)
  | .raw d => .ok (.raw d)

/-- An element to check. What is beyond a pair is not evaluated. -/
def ElementTerm.eval (f : Forest) : ElementTerm → Except Failure Element
  | .empty => .ok (.sequence [])
  | .single node => do return .sequence [← node.eval f]
  | .pair node scope more => do
    let n ← node.eval f
    let s ← scope.eval f
    return .sequence (if more then [n, s, .null] else [n, s])
  | .raw d => .ok (.raw d)

/-- The elements to check. -/
def ElementTerms.eval (f : Forest) : ElementTerms → Except Failure Elements
  | .given es => do return .given (← es.mapM (ElementTerm.eval f))
  | .raw d => .ok (.raw d)

/-! ## 3. Questions -/

/-- What can be seen of scope `i`. -/
def Forest.state (f : Forest) (i : Nat) (s : Scope) : ScopeState where
  kind := s.kind
  bindings := s.bindings
  children := s.children.map f.label
  depth := f.depth i
  parent := (f.parent? i).map f.label

/-- What can be seen of the scope held under an id. -/
def Forest.stateOf (f : Forest) (id : String) : Except Failure ScopeState :=
  match f.held? id with
  | none => .error (.noSuchScope id)
  | some i =>
    match f.scope? i with
    | none => .error (.noSuchScope id)
    | some s => .ok (f.state i s)

/-- The answer to a question. -/
def Query.answer (f : Forest) : Query → Except Failure Answer
  | .make t => do
    let v ← t.eval f
    return .made (v.toTerm f) (v.shown f) (← v.text f)
  | .text t => do
    let v ← t.eval f
    return .texts (v.shown f) (← v.text f)
  | .equal a b => do
    let a ← a.eval f
    let b ← b.eval f
    return .compared (a.same b) (a.differ b) (a.opinion b)
  | .unique ts => do return .firsts (Value.firsts (← ts.mapM fun t => do (← t.eval f).toMember))
  | .copy t => do
    let v ← t.eval f
    let (g, w) ← v.copied f
    return .copied (v.arguments?.map (·.map (·.toTerm f))) (w.same v) (w.shown g)
  | .intrinsic t => do return .intrinsic (← (← t.eval f).isIntrinsic)
  | .reference t => do return .reference ((← t.eval f).reference?.map (·.toValue.toTerm f))
  | .receiver t => do return .receiver (← (← t.eval f).isReceiver)
  | .boundary t => do return .boundary (← (← t.eval f).toBoundary)
  | .message t => do return .message (← (← t.eval f).notDefinedMessage f)
  | .emit t => do
    let d ← (← t.eval f).emitted f
    return .emitted (d.toTerm f) (← d.text f) [d.toTerm f]
  | .metadata => .ok (.metadata .current)
  | .members e => .ok (.members e.members)
  | .state id => do return .state (← f.stateOf id)

/-! ## 4. Questions with a log -/

/-- The answer to a question about names in scopes, with its trace. -/
def Lookup.answer (f : Forest) : Lookup → Traced Answer
  | .visible scope boundary => do
    let s ← Traced.ofExcept (scope.eval f)
    let b ← Traced.ofExcept (boundary.eval f)
    return .visible (← f.visibleSet s b)
  | .resolve name scope policy => do
    let n ← Traced.ofExcept (name.eval f)
    let s ← Traced.ofExcept (scope.eval f)
    let c ← Traced.ofExcept (policy.eval f)
    return .resolved (← f.verdictOn n s c)
  | .element node scope policy => do
    let n ← Traced.ofExcept (node.eval f)
    let s ← Traced.ofExcept (scope.eval f)
    let c ← Traced.ofExcept (policy.eval f)
    let t := f.examine n s c
    let v ← t
    return .checked v (t.reports.map (·.toValue.toTerm f))
  | .unit elements policy => do
    let es ← Traced.ofExcept (elements.eval f)
    let c ← Traced.ofExcept (policy.eval f)
    let t := f.examineUnit es c
    t
    return .unit (t.reports.map (·.toValue.toTerm f)) (t.reports.map (·.text))

/-! ## 5. Changes -/

/-- The forest after a change, and the answer to it. -/
def Change.apply (f : Forest) : Change → Except Failure (Forest × Answer)
  | .scope id kind children bindings => do
    let k ← kind.eval f
    let cs ← children.eval f
    let g ← f.construct id k cs bindings
    built id (g.hold id f.scopes.size)
  | .nest t child => do
    match f.held? child with
    | none => .error (.noSuchScope child)
    | some c =>
      let g ← Forest.nest t t.count f c
      built t.id (g.hold t.id (g.scopes.size - 1))
  | .drop id =>
    match f.held? id with
    | none => .error (.noSuchScope id)
    | some i =>
      let g := f.release id
      .ok (g, .dropped (g.alive i))
where
  /-- The forest with a new scope, and what can be seen of that scope. -/
  built (id : String) (g : Forest) : Except Failure (Forest × Answer) := do
    return (g, .state (← g.stateOf id))

/-! ## 6. Sessions -/

/-- The reply to a step, and the forest after it. -/
def Step.run (f : Forest) : Step → Forest × Reply
  | .query q => (f, { outcome := q.answer f })
  | .lookup l =>
    let t := l.answer f
    (f, { outcome := t.result, logs := some (t.notes.map (·.line f)) })
  | .change c =>
    match c.apply f with
    | .ok (g, a) => (g, { outcome := .ok a })
    | .error e => (f, { outcome := .error e })

/-- The replies to the steps of a session, and the forest at its end. -/
def Session.runFrom (f : Forest) : List Step → Forest × List Reply
  | [] => (f, [])
  | s :: rest =>
    let (g, r) := s.run f
    let (h, rs) := runFrom g rest
    (h, r :: rs)

/-- The replies to the steps of a session that starts with no scopes. -/
def Session.run (steps : List Step) : List Reply := (runFrom .empty steps).2

/-- The forest at the end of a session that starts with no scopes. -/
def Session.forestAfter (steps : List Step) : Forest := (runFrom .empty steps).1

end TagScope

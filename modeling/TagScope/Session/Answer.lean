import TagScope.Examination
import TagScope.Metadata
import TagScope.Term
/-!
# Answers

What a step of a session answers. Answers hold terms and texts, **never the number of a scope**:
scopes are spoken of by their labels.
-/

namespace TagScope

/-- What can be seen of a scope. -/
structure ScopeState where
  kind : ScopeKind
  bindings : Bindings
  /-- The labels of its children, in order. -/
  children : List String
  /-- How many living scopes are around it. -/
  depth : Nat
  /-- The label of the living scope that holds it. -/
  parent : Option String

/-- What a step answers when it succeeds. -/
inductive Answer where
  | made (value : Term) (shown text : String)
  | texts (shown text : String)
  /-- Whether two values are equal, whether they are different, and what the first one answers on
      its own. -/
  | compared (same differ : Bool) (opinion : Option Bool)
  /-- For each value the place of the first one equal to it. -/
  | firsts (places : List Nat)
  /-- What a value is built from, if it tells, and what comes of building it again. -/
  | copied (arguments : Option (Value.Arguments Term)) (same : Bool) (shown : String)
  | intrinsic (b : Bool)
  | reference (r : Option Term)
  | receiver (b : Bool)
  | boundary (k : ScopeKind)
  | message (s : String)
  /-- A diagnostic, its text, and what was handed over. -/
  | emitted (diagnostic : Term) (text : String) (reported : List Term)
  | metadata (r : Metadata)
  | members (ms : List Member)
  | state (s : ScopeState)
  /-- Whether a scope still exists after its handle is gone. -/
  | dropped (alive : Bool)
  | visible (bindings : Bindings)
  | resolved (v : Verdict)
  /-- The verdict on an element, and what was handed over. -/
  | checked (v : Option Verdict) (reported : List Term)
  | unit (diagnostics : List Term) (texts : List String)

/-- The reply to a step: an answer or a failure, and the log of the steps that keep one. -/
structure Reply where
  outcome : Except Failure Answer
  logs : Option (List String) := none

end TagScope

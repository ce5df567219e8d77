import TagScope.Diagnostic
/-!
# Traced computations

Checks leave a trace: notes on what they did, and diagnostics for whoever collects them. Both are
kept also when the check fails.

* `Note.line`: a note as a line of the log.
* `Traced`: an outcome with its trace. **The trace of two computations in a row is the trace of the
  first, followed by that of the second if the first succeeds.**
-/

namespace TagScope

/-! ## 1. Notes -/

/-- What a check can take note of. -/
inductive Note where
  /-- The last scope of a chain, of this kind, is not of the kind that was looked for. -/
  | chainEnded (last : ScopeKind) (boundary : Value)
  | skipped (node : Value)
  | unbound (r : Reference)

/-- A note as a line of the log. -/
def Note.line (f : Forest) : Note → String
  | .chainEnded last boundary =>
    "DEBUG:jsxref._core.scoping:Scope chain ended at " ++ last.shown ++ " before reaching "
      ++ boundary.shown f ++ "."
  | .skipped node => "DEBUG:jsxref._core.rule:Skipping element name " ++ node.shown f ++ "."
  | .unbound r => "DEBUG:jsxref._core.rule:Reference " ++ r.shown ++ " is unbound."

/-! ## 2. Computations -/

/-- An outcome, and what happened on the way. -/
structure Traced (α : Type) where
  result : Except Failure α
  notes : List Note := []
  /-- The diagnostics handed over, in order. -/
  reports : List Diagnostic := []

namespace Traced

variable {α β γ : Type}

/-- A computation that leaves no trace. -/
def ofExcept (r : Except Failure α) : Traced α := { result := r }

/-- Takes a note. -/
def note (n : Note) : Traced Unit := { result := .ok (), notes := [n] }

/-- Hands over a diagnostic. -/
def report (d : Diagnostic) : Traced Unit := { result := .ok (), reports := [d] }

/-- One computation after the other; a failure ends both. -/
def andThen (t : Traced α) (k : α → Traced β) : Traced β :=
  match t.result with
  | .error e => ⟨.error e, t.notes, t.reports⟩
  | .ok a =>
    let u := k a
    ⟨u.result, t.notes ++ u.notes, t.reports ++ u.reports⟩

instance : Monad Traced where
  pure a := ofExcept (.ok a)
  bind := andThen

/-! ## 3. Laws -/

theorem ofExcept_ok_andThen (a : α) (k : α → Traced β) : (ofExcept (.ok a)).andThen k = k a := by
  simp [ofExcept, andThen]

theorem ofExcept_ok_bind (a : α) (k : α → Traced β) : (ofExcept (.ok a) >>= k) = k a :=
  ofExcept_ok_andThen a k

theorem andThen_assoc (t : Traced α) (k : α → Traced β) (m : β → Traced γ) :
    (t.andThen k).andThen m = t.andThen fun a => (k a).andThen m := by
  rcases t with ⟨_ | a, _, _⟩
  · rfl
  · rcases h : k a with ⟨_ | _, _, _⟩ <;> simp [andThen, h]

end Traced

end TagScope

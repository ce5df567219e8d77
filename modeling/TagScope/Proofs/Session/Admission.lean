import TagScope.Proofs.Forest.Faults
import TagScope.Proofs.Session.Commutation
import TagScope.Proofs.Session.LifeCycle
/-!
# Admission of scopes to a session

When a session builds a new scope, and what it replies when it does not. A scope cannot be given
away twice, and **the forest does not show whom it was given to once that scope is gone**; so what
counts are the steps of the session.

* `Session.GivenAway`: some step gave the scope to a new one.
* `givenAway_iff_attached`: the link that a scope keeps tells so, whatever became of the other one.
* `Session.Admission`, `scope_built_iff_admissible`: **a scope is built exactly when its arguments
  are admissible by what the session did before; otherwise the failure is their first fault.**
-/

namespace TagScope

open Forest

namespace Session

/-! ## 1. What was given away -/

/-- Some step of the session gave scope `c` to a new scope. -/
def GivenAway (steps : List Step) (c : Nat) : Prop := ∃ n p, Gives steps n p c

variable {steps : List Step} {n p c : Nat}

theorem forestAt_length : forestAt steps steps.length = forestAfter steps := by
  unfold forestAt
  rw [List.take_length]

theorem Gives.lt_length (h : Gives steps n p c) : n < steps.length := by
  obtain ⟨_, _, _, hs, _⟩ := h
  exact (List.getElem?_eq_some_iff.1 hs).1

/-- **A scope keeps the link to the scope that it was given to**, also when that one is gone. -/
theorem givenAway_iff_attached (steps : List Step) (c : Nat) :
    GivenAway steps c ↔ (forestAfter steps).attached c = true := by
  rw [attached_iff (sound_forestAfter steps)]
  constructor
  · intro ⟨n, p, hg⟩
    have hlink : (forestAt steps steps.length).Holds p c := hg.holds hg.lt_length
    exact ⟨p, forestAt_length ▸ hlink⟩
  · intro ⟨p, hp⟩
    rw [← forestAt_length] at hp
    obtain ⟨n, _, hg⟩ := exists_gives hp
    exact ⟨n, p, hg⟩

/-! ## 2. One more scope -/

/-- One more step has one more reply. -/
theorem run_concat (s : Step) : run (steps ++ [s]) = run steps ++ [(s.run (forestAfter steps)).2] :=
  run_append

/-- **How a session takes the arguments of a new scope.** -/
structure Admission (steps : List Step) (kind : Value) (children : Children) (bindings : Datum) :
    Prop where
  /-- The arguments make a scope exactly when they are admissible: the kind is a kind, the children
      are scopes that no step gave away, and the bindings can be in a set. -/
  accepted : ∀ label,
    (∃ g, (forestAfter steps).construct label kind children bindings = .ok g) ↔
      Admissible (GivenAway steps) kind children bindings
  /-- The new scope has just these arguments: the kind, the children in their order, and the set of
      the bindings. -/
  built : ∀ label g, (forestAfter steps).construct label kind children bindings = .ok g →
    ∃ s bs, g = (forestAfter steps).push s ∧ s.label = label ∧ kind = .kind s.kind ∧
      children.Yield (s.children.map .scope) ∧ bindings.Yields (bs.map Binding.toDatum) ∧
      s.bindings = .ofList bs
  /-- If the arguments make no scope, the failure has the class and the text of their first
      fault. -/
  refused : ∀ label category message,
    (∃ e, (forestAfter steps).construct label kind children bindings = .error e ∧
      e.category = category ∧ e.message = message) ↔
        FirstFault (forestAfter steps) (GivenAway steps) kind children bindings category message
  /-- A request for such a scope, as the next step of the session, is answered accordingly. -/
  replied : ∀ r : ScopeRequest, r.kind.eval (forestAfter steps) = .ok kind →
    r.children.eval (forestAfter steps) = .ok children → r.bindings = bindings →
    ∃ reply, run (steps ++ [r.step]) = run steps ++ [reply] ∧
      ((∃ a, reply.outcome = .ok a) ↔ Admissible (GivenAway steps) kind children bindings) ∧
      ∀ category message,
        (∃ e, reply.outcome = .error e ∧ e.category = category ∧ e.message = message) ↔
          FirstFault (forestAfter steps) (GivenAway steps) kind children bindings category message

end Session

open Session

section Requests

variable {f : Forest} {r : ScopeRequest} {label : String} {kind : Value} {children : Children}
  {bindings : Datum}

theorem Forest.construct_eq_error_iff {e : Failure} :
    f.construct label kind children bindings = .error e ↔
      f.describe label kind children bindings = .error e := by
  unfold construct
  rw [Failure.bind_eq_error]
  exact or_iff_left fun ⟨_, _, h⟩ => nomatch h

/-- The scope that a request describes, once its terms are evaluated. -/
theorem ScopeRequest.scope_eq (hkind : r.kind.eval f = .ok kind)
    (hchildren : r.children.eval f = .ok children) :
    r.scope f = f.describe r.id kind children r.bindings := by
  unfold scope
  rw [hkind, hchildren]
  rfl

/-- **A request is answered exactly when it describes a scope.** -/
theorem ScopeRequest.outcome_eq_ok_iff (hf : f.Sound) :
    (∃ a, (r.step.run f).2.outcome = .ok a) ↔ ∃ s, r.scope f = .ok s := by
  cases h : r.scope f with
  | error e =>
      rw [ScopeRequest.run_of_error h]
      exact iff_of_false (fun ⟨_, h⟩ => nomatch h) fun ⟨_, h⟩ => nomatch h
  | ok s =>
      rw [ScopeRequest.run_of_ok hf h]
      exact iff_of_true ⟨_, rfl⟩ ⟨s, rfl⟩

/-- **A request fails exactly as the description of its scope fails.** -/
theorem ScopeRequest.outcome_eq_error_iff (hf : f.Sound) {e : Failure} :
    (r.step.run f).2.outcome = .error e ↔ r.scope f = .error e := by
  cases h : r.scope f with
  | error e' =>
      rw [ScopeRequest.run_of_error h, Except.error.injEq, Except.error.injEq]
  | ok s =>
      rw [ScopeRequest.run_of_ok hf h]
      exact iff_of_false nofun nofun

end Requests

/-- **A session takes the arguments of a new scope by what it did before**, whatever they are. -/
theorem scope_built_iff_admissible (steps : List Step) (kind : Value) (children : Children)
    (bindings : Datum) : Session.Admission steps kind children bindings where
  accepted label := by
    have hdescribe : (∃ s, (forestAfter steps).describe label kind children bindings = .ok s) ↔
        Admissible (GivenAway steps) kind children bindings :=
      describe_eq_ok_iff_admissible (givenAway_iff_attached steps)
    simp only [← hdescribe, construct_eq_ok_iff]
    exact ⟨fun ⟨_, s, hs, _⟩ => ⟨s, hs⟩, fun ⟨s, hs⟩ => ⟨_, s, hs, rfl⟩⟩
  built label g h := by
    obtain ⟨s, hs, rfl⟩ := construct_eq_ok_iff.1 h
    obtain ⟨hkind, hvs, _, ⟨bs, hbs, hset⟩, hlabel, _⟩ := describe_eq_ok_iff.1 hs
    have hyield := Children.values_eq_ok_iff.1 hvs
    exact ⟨s, bs, rfl, hlabel, hkind, hyield, Datum.yields_of_toBindings hbs, hset⟩
  refused label category message := by
    simp only [construct_eq_error_iff]
    exact describe_eq_error_iff (givenAway_iff_attached steps)
  replied r hkind hchildren hbindings := by
    have hf : (forestAfter steps).Sound := sound_forestAfter steps
    have hgiven := givenAway_iff_attached steps
    have hscope := ScopeRequest.scope_eq hkind hchildren
    refine ⟨_, run_concat r.step, ?_, fun category message => ?_⟩
    · rw [ScopeRequest.outcome_eq_ok_iff hf, hscope, hbindings]
      exact describe_eq_ok_iff_admissible hgiven
    · simp only [ScopeRequest.outcome_eq_error_iff hf, hscope, hbindings]
      exact describe_eq_error_iff hgiven

/-- A scope whose parent is gone, and a request for another scope around it. -/
def orphaned : List Step :=
  [.change (.scope "inner" (.kind .block) (.given []) (.list [])),
   .change (.scope "outer" (.kind .module) (.given [.scope "inner"]) (.list [])),
   .change (.drop "outer"),
   .change (.scope "other" (.kind .module) (.given [.scope "inner"]) (.list []))]

/-- The request is refused although the scope has no parent. -/
example : (forestAfter orphaned).parent? 0 = none ∧ (Session.run orphaned)[3]?.map (·.outcome)
    = some (.error (.attached "Scope(ScopeKind.BLOCK, frozenset(), ())")) := by
  cbv

end TagScope

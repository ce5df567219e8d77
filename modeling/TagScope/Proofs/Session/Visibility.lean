import TagScope.Proofs.Forest.Search
import TagScope.Proofs.Session.Progress
/-!
# Visibility in a session

What is visible from a living scope, in every forest that a session can lead to.

* `visibleSet_eq_declared`: **the names on the way out to the boundary, and those of the first child
  of the scope where the way ends and of the first child of that one, and no others**; the log has
  one line when no scope on the way out is of the kind that was looked for, and none otherwise.
-/

namespace TagScope

open Forest

/-- **What is visible from a living scope.** The set has the bindings of the scopes that the only
    search for the boundary looks into, each once: of two that count as the same only one is
    kept. -/
theorem visibleSet_eq_declared (steps : List Step) (i : Nat) (boundary : Value)
    (alive : (Session.forestAfter steps).alive i = true) :
    let f := Session.forestAfter steps
    let seen := f.visibleSet (.scope i) boundary
    ∃ path b t set, f.Search boundary i path b ∧ f.scope? b = some t ∧
      (∀ path' b', f.Search boundary i path' b' → path' = path ∧ b' = b) ∧
      seen.result = .ok set ∧ seen.reports = [] ∧
      (∀ x ∈ set, ∃ j, f.LookedInto path b j ∧ f.Declares j x) ∧
      (∀ j x, f.LookedInto path b j → f.Declares j x → ∃ y ∈ set, y.key = x.key) ∧
      ((∃ j s, f.Outwards i j ∧ f.scope? j = some s ∧ boundary = .kind s.kind) →
        seen.notes.map (Note.line f) = []) ∧
      ((¬ ∃ j s, f.Outwards i j ∧ f.scope? j = some s ∧ boundary = .kind s.kind) →
        seen.notes.map (Note.line f) =
          ["DEBUG:jsxref._core.scoping:Scope chain ended at " ++ t.kind.shown
            ++ " before reaching " ++ boundary.shown f ++ "."]) := by
  intro f seen
  have hf : f.Sound := sound_forestAfter steps
  obtain ⟨path, b, h⟩ := exists_search hf boundary (built_of_alive hf alive)
  obtain ⟨t, bs, ht, hset, hbs⟩ := visibleSet_of_search hf h
  have hseen : seen = _ := hset
  rw [hseen]
  refine ⟨path, b, t, .ofList bs, h, ht, fun _ _ => h.unique, rfl, rfl, ?_, ?_, ?_, ?_⟩
  · intro x hx
    exact (hbs x).1 (OrderedSet.mem_of_mem_ofList hx)
  · intro j x hj hx
    exact Bindings.exists_key_eq ((hbs x).2 ⟨j, hj, hx⟩)
  · intro hfound
    have hk : boundary.isKindOf t = true := isKindOf_iff.2 ((h.found_iff ht).2 hfound)
    simp only [hk, if_true]
    rfl
  · intro hmissed
    have hk : ¬ boundary.isKindOf t = true := fun e =>
      hmissed ((h.found_iff ht).1 (isKindOf_iff.1 e))
    simp only [hk]
    rfl

/-- A module scope inside of a global one. Its first child has a scope of its own, and its second
    child has nothing. -/
def wrappedModule : List Step :=
  [.change (.scope "deep" (.kind .block) (.given []) (.list [.text "Widget"])),
   .change (.scope "first" (.kind .function) (.given [.scope "deep"]) (.list [.text "Gadget"])),
   .change (.scope "second" (.kind .function) (.given []) (.list [])),
   .change (.scope "module" (.kind .module) (.given [.scope "first", .scope "second"]) (.list [])),
   .change (.scope "global" (.kind .global) (.given [.scope "module"]) (.list [.text "Global"]))]

/-- A number is no boundary, although a kind has it. -/
theorem visibleSet_eq_declared_number :
    (Session.forestAfter wrappedModule).alive 2 = true ∧
      ∃ t : Scope, ((Session.forestAfter wrappedModule).visibleSet (.scope 2)
        (.datum (.int 9))).notes.map (Note.line (Session.forestAfter wrappedModule)) =
          ["DEBUG:jsxref._core.scoping:Scope chain ended at " ++ t.kind.shown
            ++ " before reaching " ++ "9" ++ "."] := by
  have alive : (Session.forestAfter wrappedModule).alive 2 = true := by decide +kernel
  obtain ⟨_, _, t, _, _, _, _, _, _, _, _, _, missed⟩ :=
    visibleSet_eq_declared wrappedModule 2 (.datum (.int 9)) alive
  exact ⟨alive, t, missed fun ⟨_, _, _, _, e⟩ => nomatch e⟩

end TagScope

import Mathlib.Data.List.Flatten
import TagScope.Proofs.Forest.Resolution
import TagScope.Proofs.Session.Visibility
/-!
# Global names in a session

What becomes of the names of a unit when global names are allowed.

* `Forest.Loses`: a name that only the search up to the module scope comes by. **Either the way out
  meets a global scope inside of the module, or the first children of the module scope declare the
  name and those of the global scope do not.**
* `globals_hide_names`: there is such a name, so allowing global names can hide a name.
* `hidden_iff_loses`: **allowing global names hides no other names, and adds no diagnostic to a unit
  without such a name.**
-/

namespace TagScope

open Forest

/-! ## 1. Two boundaries -/

/-- **Name `n` is lost at scope `i` when global names are allowed.** The search for a module scope
    ends at `b`, the search for a global scope ends at `g`, and no scope that the second one looks
    into declares the name. Either `g` is nearer than `b`, and the first search looks into a scope
    that declares the name, or `b` is nearer than `g`, and its first child or the first child of
    that one declares the name. -/
def Forest.Loses (f : Forest) (i : Nat) (n : String) : Prop :=
  ∃ path b out g, f.Search (.kind .module) i path b ∧ f.Search (.kind .global) i out g ∧
    (∀ j, f.LookedInto out g j → ¬ f.Declares j (.text n)) ∧
    ((g ∈ path ∧ ∃ j, f.LookedInto path b j ∧ f.Declares j (.text n)) ∨
      (b ∈ out ∧ ∃ j, f.Wrapped b j ∧ f.Declares j (.text n)))

section Boundaries

variable {f : Forest} {i : Nat} {n : String}

/-- **A name is lost when it is seen up to the module scope and not up to the global one.** -/
theorem sees_module_not_global_iff (hf : f.Sound) (hi : f.Built i) :
    f.Sees (.kind .module) i n ∧ ¬ f.Sees (.kind .global) i n ↔ f.Loses i n := by
  obtain ⟨path, b, h⟩ := exists_search hf (.kind .module) hi
  obtain ⟨out, g, h'⟩ := exists_search hf (.kind .global) hi
  constructor
  · intro ⟨hsees, hnot⟩
    obtain ⟨j, hj, hn⟩ := (sees_iff h).1 hsees
    have hnone : ∀ j, f.LookedInto out g j → ¬ f.Declares j (.text n) :=
      fun j hj hn => hnot ((sees_iff h').2 ⟨j, hj, hn⟩)
    refine ⟨path, b, out, g, h, h', hnone, ?_⟩
    rcases h.compare h' with ⟨rfl, rfl⟩ | ⟨hb, hsub⟩ | ⟨hg, _⟩
    · exact absurd hn (hnone j hj)
    · -- the second search passes all scopes of the first one, but not what is wrapped in its end
      refine Or.inr ⟨hb, ?_⟩
      rcases hj with hj | rfl | hj
      · exact absurd hn (hnone j (Or.inl (hsub hj)))
      · exact absurd hn (hnone j (Or.inl hb))
      · exact ⟨j, hj, hn⟩
    · exact Or.inl ⟨hg, j, hj, hn⟩
  · intro ⟨path', b', out', g', hm, hg, hnone, hwhere⟩
    refine ⟨(sees_iff hm).2 ?_, fun hsees => ?_⟩
    · rcases hwhere with ⟨_, hj⟩ | ⟨_, j, hj, hn⟩
      · exact hj
      · exact ⟨j, Or.inr (Or.inr hj), hn⟩
    · obtain ⟨j, hj, hn⟩ := (sees_iff hg).1 hsees
      exact hnone j hj hn

/-- Without a lost name what nothing binds when global names are allowed is bound by nothing
    otherwise. -/
theorem Forest.Unbound.without_globals {m : Bool} {node : Value} {r : Reference} (hf : f.Sound)
    (hi : f.Built i) (h : f.Unbound ⟨true, m⟩ node i r)
    (hkept : m = true → ¬ f.Loses i r.name.text) : f.Unbound ⟨false, m⟩ node i r := by
  obtain ⟨href, hthis, hsees⟩ := h
  refine ⟨href, hthis, ?_⟩
  cases m with
  | false => exact hsees
  | true =>
      intro hmodule
      exact hkept rfl ((sees_module_not_global_iff hf hi).1 ⟨hmodule, hsees⟩)

end Boundaries

/-! ## 2. Every session -/

/-- A bare name without a location. -/
def bareName (s : String) (ne : s ≠ "") : Value := .name (.simple (.plain s ne) none)

/-- Unless it is intrinsic, it refers to itself. -/
theorem reference?_bareName {s : String} {ne : s ≠ ""} (h : intrinsic s = false) :
    (bareName s ne).reference? = some ⟨.plain s ne, none⟩ := by
  show (if intrinsic s = true then none else _) = _
  rw [h]
  rfl

/-- **A name can be hidden.** In `wrappedModule` the first child of the first child of the module
    scope declares a name, which is too far in for a search that ends at the global scope. -/
theorem globals_hide_names :
    ¬ ∀ (steps : List Step) (i : Nat) (v : Value) (n : String) (m : Bool),
      (Session.forestAfter steps).alive i = true → v.text? = some n →
      ((Session.forestAfter steps).verdictOn v (.scope i) (.policy ⟨false, m⟩)).result
        = .ok .bound →
      ((Session.forestAfter steps).verdictOn v (.scope i) (.policy ⟨true, m⟩)).result
        = .ok .bound := by
  intro h
  have alive : (Session.forestAfter wrappedModule).alive 2 = true := by decide +kernel
  have seen : ((Session.forestAfter wrappedModule).verdictOn (.ofText "Widget") (.scope 2)
      (.policy ⟨false, true⟩)).result = .ok .bound := by decide +kernel
  have hidden : ((Session.forestAfter wrappedModule).verdictOn (.ofText "Widget") (.scope 2)
      (.policy ⟨true, true⟩)).result = .ok .unbound := by decide +kernel
  have still := h wrappedModule 2 (.ofText "Widget") "Widget" true alive rfl seen
  rw [hidden] at still
  cases still

/-- **Allowing global names hides exactly the lost names of modules**, and a unit of living scopes
    without a lost name gets no new diagnostic: those that it gets it also gets otherwise, in the
    same order. -/
theorem hidden_iff_loses (steps : List Step) (m : Bool) :
    let f := Session.forestAfter steps
    (∀ (i : Nat) (v : Value) (n : String), f.alive i = true → v.text? = some n →
      ((f.verdictOn v (.scope i) (.policy ⟨false, m⟩)).result = .ok .bound ∧
        (f.verdictOn v (.scope i) (.policy ⟨true, m⟩)).result = .ok .unbound ↔
          m = true ∧ f.Loses i n)) ∧
    ∀ es : List (Value × Nat), (∀ e ∈ es, f.alive e.2 = true) →
      (m = true → ∀ e ∈ es, ∀ r, e.1.reference? = some r → r.name.text ≠ receiverName →
        ¬ f.Loses e.2 r.name.text) →
      (f.examineUnit (.given (paired es)) (.policy ⟨true, m⟩)).result = .ok () ∧
        (f.examineUnit (.given (paired es)) (.policy ⟨false, m⟩)).result = .ok () ∧
        (f.examineUnit (.given (paired es)) (.policy ⟨true, m⟩)).reports.Sublist
          (f.examineUnit (.given (paired es)) (.policy ⟨false, m⟩)).reports := by
  intro f
  have hf : f.Sound := sound_forestAfter steps
  refine ⟨fun i v n hal hv => ?_, fun es hes hkept => ?_⟩
  · have hi : f.Built i := built_of_alive hf hal
    rw [verdictOn_bound_iff hf hi hv, verdictOn_unbound_iff hf hi hv]
    cases m with
    | false => exact ⟨fun h => absurd h.1 h.2, fun h => absurd h.1 nofun⟩
    | true =>
        rw [eq_self_iff_true, true_and]
        exact sees_module_not_global_iff hf hi
  · have hbuilt : ∀ e ∈ es, f.Built e.2 := fun e he => built_of_alive hf (hes e he)
    obtain ⟨hwith, ewith⟩ := examineUnit_paired (c := ⟨true, m⟩) hf es hbuilt
    obtain ⟨hwithout, ewithout⟩ := examineUnit_paired (c := ⟨false, m⟩) hf es hbuilt
    refine ⟨hwith, hwithout, ?_⟩
    rw [ewith, ewithout]
    refine List.Sublist.flatMap_right es fun e he => ?_
    have hi : f.Built e.2 := hbuilt e he
    exact examine_reports_sublist hf hi hf hi fun r hr =>
      hr.without_globals hf hi fun hm => hkept hm e he r hr.1 hr.2.1

/-- Two names that are used in `wrappedModule`. -/
def wrappedNames : List (Value × Nat) :=
  [(bareName "Gadget" (by decide), 2), (bareName "Global" (by decide), 2)]

/-- In `wrappedModule` one name is lost. A unit with two others gets no new diagnostic. -/
theorem hidden_iff_loses_wrapped :
    (Session.forestAfter wrappedModule).Loses 2 "Widget" ∧
      ((Session.forestAfter wrappedModule).examineUnit (.given (paired wrappedNames))
          (.policy ⟨true, true⟩)).reports.Sublist
        ((Session.forestAfter wrappedModule).examineUnit (.given (paired wrappedNames))
          (.policy ⟨false, true⟩)).reports := by
  obtain ⟨lost, sublist⟩ := hidden_iff_loses wrappedModule true
  have alive : (Session.forestAfter wrappedModule).alive 2 = true := by decide +kernel
  -- what is bound with global names is not lost
  have kept : ∀ n, ((Session.forestAfter wrappedModule).verdictOn (.ofText n) (.scope 2)
      (.policy ⟨true, true⟩)).result = .ok .bound →
      ¬ (Session.forestAfter wrappedModule).Loses 2 n := by
    intro n hbound hloses
    have hunbound := ((lost 2 (.ofText n) n alive rfl).2 ⟨rfl, hloses⟩).2
    rw [hbound] at hunbound
    cases hunbound
  have gadget := kept "Gadget" (by decide +kernel)
  have global := kept "Global" (by decide +kernel)
  refine ⟨?_, (sublist wrappedNames ?_ ?_).2.2⟩
  · have hidden := (lost 2 (.ofText "Widget") "Widget" alive rfl).1
    exact (hidden ⟨by decide +kernel, by decide +kernel⟩).2
  · intro e he
    simp only [wrappedNames, List.mem_cons, List.not_mem_nil, or_false] at he
    rcases he with rfl | rfl
    · exact alive
    · exact alive
  · intro _ e he r hr _
    simp only [wrappedNames, List.mem_cons, List.not_mem_nil, or_false] at he
    rcases he with rfl | rfl
    · rw [reference?_bareName (by decide)] at hr
      obtain rfl := Option.some.inj hr
      exact gadget
    · rw [reference?_bareName (by decide)] at hr
      obtain rfl := Option.some.inj hr
      exact global

end TagScope

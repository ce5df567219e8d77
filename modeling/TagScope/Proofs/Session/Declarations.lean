import Mathlib.Data.List.Flatten
import TagScope.Proofs.Forest.Shape
import TagScope.Proofs.Session.Globals
import TagScope.Proofs.Session.Visibility
/-!
# More declarations in a session

Two sessions that lead to forests of one shape, of which the second declares more.

* `reports_enriched`: **a unit has no diagnostic in the second forest that it has not in the first
  one**, and those that it has stand in the same order.
-/

namespace TagScope

open Forest

/-- **Declaring more names adds no diagnostic.** Let the scopes of two forests correspond, with their
    kinds and their children, and let each living scope declare in the second one what it does in the
    first one. A unit of names with living scopes is checked to its end in both, under every policy.
    Its diagnostics in the second forest are some of those in the first, in their order. -/
theorem reports_enriched (steps more : List Step) (ρ : Nat → Nat)
    (alike : (Session.forestAfter steps).Alike ρ (Session.forestAfter more))
    (enriched : Enriched ρ (Session.forestAfter steps) (Session.forestAfter more))
    (c : Policy) (es : List (Value × Nat))
    (alive : ∀ e ∈ es, (Session.forestAfter steps).alive e.2 = true) :
    let few := (Session.forestAfter steps).examineUnit (.given (paired es)) (.policy c)
    let many := (Session.forestAfter more).examineUnit
      (.given (paired (es.map fun e => (e.1.renamed ρ, ρ e.2)))) (.policy c)
    few.result = .ok () ∧ many.result = .ok () ∧ many.reports.Sublist few.reports := by
  intro few many
  have hf : (Session.forestAfter steps).Sound := sound_forestAfter steps
  have hg : (Session.forestAfter more).Sound := sound_forestAfter more
  have builtFew : ∀ e ∈ es, (Session.forestAfter steps).Built e.2 :=
    fun e he => built_of_alive hf (alive e he)
  have builtMany : ∀ e ∈ es, (Session.forestAfter more).Built (ρ e.2) :=
    fun e he => built_of_alive hg (alike.alive e.2 (alive e he))
  obtain ⟨hfew, efew⟩ := examineUnit_paired (c := c) hf es builtFew
  obtain ⟨hmany, emany⟩ := examineUnit_paired (c := c) hg
    (es.map fun e => (e.1.renamed ρ, ρ e.2)) (List.forall_mem_map.2 builtMany)
  refine ⟨hfew, hmany, ?_⟩
  show List.Sublist (Traced.reports _) (Traced.reports _)
  rw [efew, emany, List.flatMap_map]
  refine List.Sublist.flatMap_right es fun e he => ?_
  exact examine_reports_sublist hg (builtMany e he) hf (builtFew e he) fun r hr =>
    alike.unbound hf hg enriched (alive e he) hr

/-- A module with a block in it. -/
def sparse : List Step :=
  [.change (.scope "inner" (.kind .block) (.given []) (.list [])),
   .change (.scope "module" (.kind .module) (.given [.scope "inner"]) (.list [.text "Panel"]))]

/-- The same, built after another scope that is gone, with a name more in each scope. -/
def dense : List Step :=
  [.change (.scope "spare" (.kind .block) (.given []) (.list [])),
   .change (.scope "inner" (.kind .block) (.given []) (.list [.text "Tab"])),
   .change (.scope "module" (.kind .module) (.given [.scope "inner"])
     (.list [.text "Panel", .text "Bar"])),
   .change (.drop "spare")]

/-- Names that are used in the block and in the module. -/
def usedNames : List (Value × Nat) :=
  [(bareName "Tab" (by decide), 0), (bareName "Icon" (by decide), 0),
   (bareName "Bar" (by decide), 1), (bareName "Panel" (by decide), 0)]

/-- Of the three diagnostics one is left. -/
theorem reports_enriched_dense :
    (Session.forestAfter sparse).Alike (· + 1) (Session.forestAfter dense) ∧
      Enriched (· + 1) (Session.forestAfter sparse) (Session.forestAfter dense) ∧
      (∀ e ∈ usedNames, (Session.forestAfter sparse).alive e.2 = true) ∧
      ((Session.forestAfter dense).examineUnit (.given (paired (usedNames.map fun e =>
        (e.1.renamed (· + 1), e.2 + 1)))) (.policy ⟨false, true⟩)).reports.Sublist
        ((Session.forestAfter sparse).examineUnit (.given (paired usedNames))
          (.policy ⟨false, true⟩)).reports := by
  have hf : (Session.forestAfter sparse).Sound := sound_forestAfter sparse
  have hg : (Session.forestAfter dense).Sound := sound_forestAfter dense
  have few : ∀ i, (Session.forestAfter sparse).alive i = true → i = 0 ∨ i = 1 := by
    intro i hi
    have hb : i < 2 := built_of_alive hf hi
    omega
  have alike : (Session.forestAfter sparse).Alike (· + 1) (Session.forestAfter dense) :=
    { alive := by
        intro i hi
        rcases few i hi with rfl | rfl <;> decide +kernel
      injective := fun i j _ _ h => Nat.succ.inj h
      onto := by
        intro j hj
        have hb : j < 3 := built_of_alive hg hj
        have hspare : (Session.forestAfter dense).alive 0 = false := by decide +kernel
        obtain ⟨i, rfl⟩ : ∃ i, j = i + 1 := by
          cases j with
          | zero => exact absurd hj (by rw [hspare]; exact nofun)
          | succ i => exact ⟨i, rfl⟩
        have hi : i = 0 ∨ i = 1 := by omega
        refine ⟨i, ?_, rfl⟩
        rcases hi with rfl | rfl <;> decide +kernel
      scope := by
        intro i s hi hs
        rcases few i hi with rfl | rfl <;> cases hs <;> exact ⟨_, rfl, rfl, rfl⟩ }
  have enriched : Enriched (· + 1) (Session.forestAfter sparse) (Session.forestAfter dense) := by
    rintro i x hi ⟨s, hs, hx⟩
    rcases few i hi with rfl | rfl
    · cases hs
      cases hx
    · cases hs
      obtain rfl := List.mem_singleton.1 hx
      exact ⟨.text "Panel", ⟨_, rfl, List.mem_cons_of_mem _ List.mem_cons_self⟩, rfl⟩
  have alive : ∀ e ∈ usedNames, (Session.forestAfter sparse).alive e.2 = true := by decide +kernel
  exact ⟨alike, enriched, alive,
    (reports_enriched sparse dense (· + 1) alike enriched ⟨false, true⟩ usedNames alive).2.2⟩

end TagScope

import TagScope.Proofs.Forest.Growth
import TagScope.Proofs.Forest.Search
import TagScope.Proofs.Session.Traces
import TagScope.Proofs.Session.Visibility
/-!
# Stability of what is visible

What a session can still do to a search that has found its boundary.

* `Search.stays`: **as long as the boundary lives, the search runs as before**, over the same scopes
  with the same parents, whatever is built around them and whichever handles are given up.
* `Moves.declared_eq`, `Moves.wrapped_eq`: the scopes that a search looks into declare the same.
* `visibleSet_stable`: so what is visible up to the boundary stays the same, and leaves no note.
-/

namespace TagScope

open Forest

namespace Forest

variable {f g : Forest} {s t : Scope} {k : Value} {i j b : Nat} {path : List Nat}

/-! ## 1. The way out to the boundary -/

/-- What has its place between a scope and one that lives later keeps its parent. -/
theorem parent?_stays (hf : f.Sound) (hg : g.Sound) (h : Moves f g) (hp : f.parent? i = some j)
    (hout : f.Outwards j b) (kept : g.alive b = true) : g.parent? i = some j := by
  have hholds : g.Holds j i := h.holds ((parent?_eq_some_iff hf).1 hp).1
  have hinside : g.Reaches b j := h.reaches (hout.reaches hf)
  exact (parent?_eq_some_iff hg).2 ⟨hholds, alive_of_reaches hg kept hinside⟩

/-- **A search that has found its boundary runs as before, as long as the boundary lives.** The
    scopes that it passes keep their parents. -/
theorem Search.stays (hf : f.Sound) (hg : g.Sound) (h : Moves f g) (search : f.Search k i path b)
    (ht : f.scope? b = some t) (found : k = .kind t.kind) (kept : g.alive b = true) :
    g.Search k i path b ∧ ∀ j ∈ path, g.parent? j = f.parent? j := by
  induction search with
  | found hs hk =>
      obtain ⟨o, ho⟩ := h.scope?_eq hs
      exact ⟨.found ho hk, fun j hj => absurd hj List.not_mem_nil⟩
  | root hs hk _ =>
      obtain rfl := Option.some.inj (hs.symm.trans ht)
      exact absurd found hk
  | @outward i p b s path hs hk hp rest ih =>
      obtain ⟨o, ho⟩ := h.scope?_eq hs
      obtain ⟨hrest, hparents⟩ := ih ht kept
      have hout : f.Outwards p b := rest.outwards b (Or.inr rfl)
      have hstays : g.parent? i = some p := parent?_stays hf hg h hp hout kept
      refine ⟨.outward ho hk hstays hrest, ?_⟩
      intro j hj
      rcases List.mem_cons.1 hj with rfl | hj
      · exact hstays.trans hp.symm
      · exact hparents j hj

/-! ## 2. What the scopes on the way declare -/

/-- A scope declares later what it declares now. -/
theorem Moves.declared_eq (h : Moves f g) (hs : f.scope? i = some s) :
    g.declared i = f.declared i := by
  obtain ⟨o, ho⟩ := h.scope?_eq hs
  rw [Forest.declared_eq ho, Forest.declared_eq hs]

/-- The first child of a scope is there, so it is the same one later. -/
theorem Moves.firstChild?_eq (hf : f.Sound) (h : Moves f g) (hs : f.scope? i = some s)
    (ht : g.scope? i = some t) :
    (f.firstChild? s = none ∧ g.firstChild? t = none) ∨
      ∃ c u v, f.scope? c = some u ∧ g.scope? c = some v ∧
        f.firstChild? s = some u ∧ g.firstChild? t = some v := by
  obtain ⟨o, ho⟩ := h.scope?_eq hs
  obtain rfl := Option.some.inj (ho.symm.trans ht)
  unfold firstChild?
  cases hc : s.children.head? with
  | none => exact Or.inl ⟨rfl, rfl⟩
  | some c =>
      have hholds : f.Holds i c := ⟨s, hs, List.mem_of_mem_head? hc⟩
      have hbuilt : f.Built c := Nat.lt_trans (hf.older i c hholds) hholds.built
      obtain ⟨u, hu⟩ := built_iff.1 hbuilt
      obtain ⟨o', hv⟩ := h.scope?_eq hu
      exact Or.inr ⟨c, u, _, hu, hv, hu, hv⟩

/-- **What is wrapped in a scope stays the same.** -/
theorem Moves.wrapped_eq (hf : f.Sound) (h : Moves f g) (hs : f.scope? i = some s)
    (ht : g.scope? i = some t) : g.wrapped t = f.wrapped s := by
  have same : ∀ {c : Nat} {u v : Scope}, f.scope? c = some u → g.scope? c = some v →
      v.bindings.toList = u.bindings.toList := by
    intro c u v hu hv
    rw [← Forest.declared_eq hu, ← Forest.declared_eq hv, h.declared_eq hu]
  unfold wrapped
  rcases h.firstChild?_eq hf hs ht with ⟨hn, hm⟩ | ⟨c, u, v, hu, hv, hcu, hcv⟩
  · rw [hn, hm]
  · simp only [hcu, hcv, same hu hv]
    rcases h.firstChild?_eq hf hu hv with ⟨hn, hm⟩ | ⟨d, w, x, hw, hx, hdw, hdx⟩
    · rw [hn, hm]
    · simp only [hdw, hdx, same hw hx]

/-- Every scope that a search comes by was built. -/
theorem Search.scope?_of_mem (search : f.Search k i path b) (hj : j ∈ path ++ [b]) :
    ∃ s, f.scope? j = some s := by
  induction search with
  | found hs | root hs =>
      obtain rfl := List.mem_singleton.1 hj
      exact ⟨_, hs⟩
  | outward hs _ _ _ ih =>
      rcases List.mem_cons.1 hj with rfl | hj
      · exact ⟨_, hs⟩
      · exact ih hj

/-- **What is visible up to a boundary that lives on stays the same**, in the same order, and there
    is still no note. -/
theorem visible_stays (hf : f.Sound) (hg : g.Sound) (h : Moves f g)
    (search : f.Search (.kind t.kind) i path b) (ht : f.scope? b = some t)
    (kept : g.alive b = true) :
    g.visible (.scope i) (.kind t.kind) = f.visible (.scope i) (.kind t.kind) := by
  obtain ⟨o, ho⟩ := h.scope?_eq ht
  obtain ⟨later, _⟩ := search.stays hf hg h ht rfl kept
  have hdeclared : (path ++ [b]).flatMap g.declared = (path ++ [b]).flatMap f.declared := by
    refine congrArg List.flatten (List.map_congr_left fun j hj => ?_)
    obtain ⟨s, hs⟩ := search.scope?_of_mem hj
    exact h.declared_eq hs
  rw [visible_of_found hg later ho rfl, visible_of_found hf search ht rfl, hdeclared,
    h.wrapped_eq hf ht ho]

end Forest

/-! ## 3. Every continuation of a session -/

/-- When a session goes on its forest moves on. -/
theorem moves_forestAfter_append {steps more : List Step} :
    (Session.forestAfter steps).Moves (Session.forestAfter (steps ++ more)) := by
  rw [forestAfter_append]
  exact moves_runFrom more (sound_forestAfter steps)

/-- **Once its boundary is fixed, what is visible from a scope does not change any more.** Where a
    scope or a living one around it is of the kind that is looked for, the search ends at the nearest
    such scope `b`. However the session goes on, as long as `b` is alive the scope is alive as well,
    the search passes the same scopes with the same parents, and the set of visible bindings is the
    same, without a note. -/
theorem visibleSet_stable (steps : List Step) (i : Nat) (k : ScopeKind)
    (alive : (Session.forestAfter steps).alive i = true)
    (found : ∃ j s, (Session.forestAfter steps).Outwards i j ∧
      (Session.forestAfter steps).scope? j = some s ∧ s.kind = k) :
    let f := Session.forestAfter steps
    ∃ path b t set, f.Search (.kind k) i path b ∧ f.scope? b = some t ∧ t.kind = k ∧
      (∀ path' b', f.Search (.kind k) i path' b' → path' = path ∧ b' = b) ∧
      f.visibleSet (.scope i) (.kind k) = ⟨.ok set, [], []⟩ ∧
      ∀ more : List Step,
        let g := Session.forestAfter (steps ++ more)
        g.alive b = true →
          g.alive i = true ∧ g.Search (.kind k) i path b ∧ (∀ j ∈ path, g.parent? j = f.parent? j) ∧
            g.visibleSet (.scope i) (.kind k) = ⟨.ok set, [], []⟩ := by
  intro f
  have hf : f.Sound := sound_forestAfter steps
  obtain ⟨path, b, search⟩ := exists_search hf (.kind k) (built_of_alive hf alive)
  obtain ⟨t, ht, _⟩ := visible_eq_of_search hf search
  obtain ⟨j, s, hj, hs, rfl⟩ := found
  have hk : Value.kind s.kind = .kind t.kind := (search.found_iff ht).2 ⟨j, s, hj, hs, rfl⟩
  have hkind : t.kind = s.kind := (Value.kind.inj hk).symm
  rw [← hkind] at search ⊢
  obtain ⟨bs, hnow⟩ : ∃ bs, f.visible (.scope i) (.kind t.kind) = ⟨.ok bs, [], []⟩ :=
    ⟨_, visible_of_found hf search ht rfl⟩
  refine ⟨path, b, t, .ofList bs, search, ht, rfl, fun _ _ => search.unique, ?_, ?_⟩
  · rw [visibleSet, hnow]
    rfl
  intro more g kept
  have hg : g.Sound := sound_forestAfter (steps ++ more)
  have hmoves : f.Moves g := moves_forestAfter_append
  obtain ⟨later, hparents⟩ := search.stays hf hg hmoves ht rfl kept
  have hreach : f.Reaches b i := (search.outwards b (Or.inr rfl)).reaches hf
  refine ⟨alive_of_reaches hg kept (hmoves.reaches hreach), later, hparents, ?_⟩
  rw [visibleSet, visible_stays hf hg hmoves search ht kept, hnow]
  rfl

/-- The module of `wrappedModule` and what is inside: only the module is still held at the end, and
    there is a new scope around the global one, which is given up again. -/
def regrown : List Step :=
  [.change (.scope "outer" (.kind .block) (.given [.scope "global"]) (.list [.text "Outer"])),
   .change (.drop "second"), .change (.drop "first"), .change (.drop "deep"),
   .change (.scope "again" (.kind .module) (.given [.scope "second"]) (.list [])),
   .change (.drop "global"), .change (.drop "outer")]

/-- The second function of the module goes on seeing what it saw, without a handle of its own. -/
theorem visibleSet_stable_regrown :
    (Session.forestAfter wrappedModule).alive 2 = true ∧
      (Session.forestAfter (wrappedModule ++ regrown)).alive 3 = true ∧
      (Session.forestAfter (wrappedModule ++ regrown)).alive 4 = false ∧
      (Session.forestAfter (wrappedModule ++ regrown)).alive 2 = true ∧
      (Session.forestAfter (wrappedModule ++ regrown)).visibleSet (.scope 2) (.kind .module)
        = (Session.forestAfter wrappedModule).visibleSet (.scope 2) (.kind .module) := by
  have alive : (Session.forestAfter wrappedModule).alive 2 = true := by decide +kernel
  have kept : (Session.forestAfter (wrappedModule ++ regrown)).alive 3 = true := by decide +kernel
  have hp : (Session.forestAfter wrappedModule).parent? 2 = some 3 := by decide +kernel
  obtain ⟨path, b, _, set, _, _, _, only, hnow, later⟩ := visibleSet_stable wrappedModule 2 .module
    alive ⟨3, _, .single hp, rfl, rfl⟩
  obtain ⟨rfl, rfl⟩ := only [2] 3 (.outward rfl nofun hp (.found rfl rfl))
  obtain ⟨halive, _, _, hset⟩ := later regrown kept
  exact ⟨alive, kept, by decide +kernel, halive, hset.trans hnow.symm⟩

end TagScope

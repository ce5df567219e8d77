import TagScope.Forest.Visible
import TagScope.Proofs.Forest.Lifetime
/-!
# Searches for a boundary

The climb of `Forest.visible` runs over a list of scopes. Here it is told as a search along the
links to parents, and what is visible as what the scopes that the search comes by declare.

* `Forest.Search`: the scopes that a search passes, and the one where it ends.
* `exists_search`, `Search.unique`: **from every scope there is one search for a boundary, and only
  one.**
* `Forest.LookedInto`: the scopes whose bindings count: those of the search, the first child of the
  last one and the first child of that one.
* `visible_eq_of_search`, `visible_of_search`: what is visible is what these scopes declare, and
  there is a note exactly when the search did not find its boundary.
-/

namespace TagScope.Forest

/-! ## 1. Searches -/

/-- **A search for a boundary** from scope `i` passes the scopes of a list and ends at another one:
    the first scope of the kind that the boundary is, or else a root. -/
inductive Search (f : Forest) (boundary : Value) : Nat → List Nat → Nat → Prop
  /-- The scope is of the kind. -/
  | found {i : Nat} {s : Scope} (hs : f.scope? i = some s) (hk : boundary = .kind s.kind) :
      Search f boundary i [] i
  /-- The scope is of another kind, and a root. -/
  | root {i : Nat} {s : Scope} (hs : f.scope? i = some s) (hk : boundary ≠ .kind s.kind)
      (hp : f.parent? i = none) : Search f boundary i [] i
  /-- The scope is of another kind, and the search goes on with its parent. -/
  | outward {i p b : Nat} {s : Scope} {path : List Nat} (hs : f.scope? i = some s)
      (hk : boundary ≠ .kind s.kind) (hp : f.parent? i = some p)
      (rest : Search f boundary p path b) : Search f boundary i (i :: path) b

/-- Scope `i` declares `x`. -/
def Declares (f : Forest) (i : Nat) (x : Binding) : Prop :=
  ∃ s, f.scope? i = some s ∧ x ∈ s.bindings

/-- What scope `i` declares, in order. -/
def declared (f : Forest) (i : Nat) : List Binding := (f.scope? i).elim [] (·.bindings.toList)

/-- Scope `c` is the first of the scopes directly inside of scope `i`. -/
def FirstChild (f : Forest) (i c : Nat) : Prop :=
  ∃ s, f.scope? i = some s ∧ s.children.head? = some c

/-- Scope `j` is the first child of scope `b`, or the first child of that one. -/
def Wrapped (f : Forest) (b j : Nat) : Prop :=
  f.FirstChild b j ∨ ∃ c, f.FirstChild b c ∧ f.FirstChild c j

/-- **The scopes whose bindings count** when a search passes the scopes `path` and ends at `b`. -/
def LookedInto (f : Forest) (path : List Nat) (b j : Nat) : Prop :=
  j ∈ path ∨ j = b ∨ f.Wrapped b j

section Search

variable {f : Forest} {k : Value} {i j b b' p : Nat} {path path' : List Nat}

theorem isKindOf_iff {s : Scope} : k.isKindOf s = true ↔ k = .kind s.kind := by
  cases k with
  | kind m => exact ⟨fun h => (eq_of_beq h) ▸ rfl, fun h => beq_iff_eq.2 (Value.kind.inj h).symm⟩
  | _ => exact iff_of_false nofun nofun

/-- **There is a search from every scope.** -/
theorem exists_search (hf : f.Sound) (k : Value) (hb : f.Built i) :
    ∃ path b, f.Search k i path b := by
  refine induction_inwards (P := fun i => ∃ path b, f.Search k i path b) ?_ i hb
  intro i hi ih
  obtain ⟨s, hs⟩ := built_iff.1 hi
  by_cases hk : k = .kind s.kind
  · exact ⟨[], i, .found hs hk⟩
  · cases hp : f.parent? i with
    | none => exact ⟨[], i, .root hs hk hp⟩
    | some p =>
        have h := ((parent?_eq_some_iff hf).1 hp).1
        obtain ⟨path, b, hr⟩ := ih p (hf.older p i h) h.built
        exact ⟨i :: path, b, .outward hs hk hp hr⟩

/-- **There is only one search from a scope.** -/
theorem Search.unique (h : f.Search k i path b) (h' : f.Search k i path' b') :
    path' = path ∧ b' = b := by
  induction h generalizing path' with
  | found hs hk =>
      cases h' with
      | found => exact ⟨rfl, rfl⟩
      | root => exact ⟨rfl, rfl⟩
      | outward hs' hk' =>
          obtain rfl := Option.some.inj (hs.symm.trans hs')
          exact absurd hk hk'
  | root hs hk hp =>
      cases h' with
      | found => exact ⟨rfl, rfl⟩
      | root => exact ⟨rfl, rfl⟩
      | outward _ _ hp' =>
          rw [hp] at hp'
          cases hp'
  | outward hs hk hp _ ih =>
      cases h' with
      | found hs' hk' =>
          obtain rfl := Option.some.inj (hs.symm.trans hs')
          exact absurd hk' hk
      | root _ _ hp' =>
          rw [hp] at hp'
          cases hp'
      | outward _ _ hp' rest' =>
          obtain rfl := Option.some.inj (hp.symm.trans hp')
          obtain ⟨rfl, rfl⟩ := ih rest'
          exact ⟨rfl, rfl⟩

/-- **Of two searches from one scope the shorter one is the beginning of the other.** They end at
    the same scope, or one of them passes the scope where the other one ends. -/
theorem Search.compare {k' : Value} (h : f.Search k i path b) (h' : f.Search k' i path' b') :
    (path = path' ∧ b = b') ∨ (b ∈ path' ∧ path ⊆ path') ∨ (b' ∈ path ∧ path' ⊆ path) := by
  induction h generalizing path' with
  | found =>
      cases h' with
      | found => exact Or.inl ⟨rfl, rfl⟩
      | root => exact Or.inl ⟨rfl, rfl⟩
      | outward => exact Or.inr (Or.inl ⟨List.mem_cons_self, List.nil_subset _⟩)
  | root =>
      cases h' with
      | found => exact Or.inl ⟨rfl, rfl⟩
      | root => exact Or.inl ⟨rfl, rfl⟩
      | outward => exact Or.inr (Or.inl ⟨List.mem_cons_self, List.nil_subset _⟩)
  | @outward i _ _ _ _ _ _ hp _ ih =>
      cases h' with
      | found => exact Or.inr (Or.inr ⟨List.mem_cons_self, List.nil_subset _⟩)
      | root => exact Or.inr (Or.inr ⟨List.mem_cons_self, List.nil_subset _⟩)
      | outward _ _ hp' rest' =>
          obtain rfl := Option.some.inj (hp.symm.trans hp')
          rcases ih rest' with ⟨rfl, rfl⟩ | ⟨hb, hsub⟩ | ⟨hb, hsub⟩
          · exact Or.inl ⟨rfl, rfl⟩
          · exact Or.inr (Or.inl ⟨List.mem_cons_of_mem i hb, List.cons_subset_cons i hsub⟩)
          · exact Or.inr (Or.inr ⟨List.mem_cons_of_mem i hb, List.cons_subset_cons i hsub⟩)

/-- The scopes of a search are around the one where it starts. -/
theorem Search.outwards (h : f.Search k i path b) : ∀ j, j ∈ path ∨ j = b → f.Outwards i j := by
  induction h with
  | found =>
      intro j hj
      rcases hj with hj | rfl
      · exact absurd hj List.not_mem_nil
      · exact .refl
  | root =>
      intro j hj
      rcases hj with hj | rfl
      · exact absurd hj List.not_mem_nil
      · exact .refl
  | outward _ _ hp _ ih =>
      intro j hj
      rcases hj with hj | rfl
      · rcases List.mem_cons.1 hj with rfl | hj
        · exact .refl
        · exact (ih j (Or.inl hj)).head hp
      · exact (ih j (Or.inr rfl)).head hp

/-- **A search finds its boundary exactly when some scope on its way out is of that kind.** -/
theorem Search.found_iff (h : f.Search k i path b) {t : Scope} (ht : f.scope? b = some t) :
    k = .kind t.kind ↔ ∃ j s, f.Outwards i j ∧ f.scope? j = some s ∧ k = .kind s.kind := by
  refine ⟨fun hk => ⟨b, t, h.outwards b (Or.inr rfl), ht, hk⟩, ?_⟩
  intro ⟨j, s, hj, hs, hk⟩
  induction h with
  | found hs' hk' =>
      obtain rfl := Option.some.inj (hs'.symm.trans ht)
      exact hk'
  | root hs' hk' hp =>
      rcases hj.cases_head with rfl | ⟨q, hq, _⟩
      · exact absurd (Option.some.inj (hs'.symm.trans hs) ▸ hk) hk'
      · rw [hp] at hq
        cases hq
  | outward hs' hk' hp _ ih =>
      rcases hj.cases_head with rfl | ⟨q, hq, hj⟩
      · exact absurd (Option.some.inj (hs'.symm.trans hs) ▸ hk) hk'
      · obtain rfl := Option.some.inj (hp.symm.trans hq)
        exact ih ht hj

/-- **A search that does not find its boundary ends at a root.** -/
theorem Search.parent?_of_missed (h : f.Search k i path b) {t : Scope} (ht : f.scope? b = some t)
    (hk : k ≠ .kind t.kind) : f.parent? b = none := by
  induction h with
  | found hs hk' =>
      obtain rfl := Option.some.inj (hs.symm.trans ht)
      exact absurd hk' hk
  | root _ _ hp => exact hp
  | outward _ _ _ _ ih => exact ih ht

end Search

/-! ## 2. The climb as a search -/

section Climb

variable {f : Forest} {k : Value} {i b : Nat} {path : List Nat} {x : Binding}

theorem declares_iff {s : Scope} (hs : f.scope? i = some s) :
    f.Declares i x ↔ x ∈ s.bindings.toList :=
  ⟨fun ⟨_, ht, hx⟩ => Option.some.inj (hs.symm.trans ht) ▸ hx, fun hx => ⟨s, hs, hx⟩⟩

theorem Search.built (h : f.Search k i path b) : ∃ s, f.scope? i = some s := by
  cases h with
  | found hs => exact ⟨_, hs⟩
  | root hs => exact ⟨_, hs⟩
  | outward hs => exact ⟨_, hs⟩

theorem mem_declared : x ∈ f.declared i ↔ f.Declares i x := by
  unfold declared Declares
  cases f.scope? i with
  | none => exact iff_of_false List.not_mem_nil fun ⟨_, h, _⟩ => nomatch h
  | some s => exact ⟨fun hx => ⟨s, rfl, hx⟩, fun ⟨_, e, hx⟩ => Option.some.inj e ▸ hx⟩

theorem declared_eq {s : Scope} (hs : f.scope? i = some s) :
    f.declared i = s.bindings.toList := by
  unfold declared
  rw [hs]
  rfl

/-- **A climb over the ancestors is a search**: it ends at the same scope, and it collects what the
    scopes on the way declare, in their order. -/
theorem climb_of_search (hf : f.Sound) (h : f.Search k i path b) :
    ∀ s, f.scope? i = some s →
      ∃ t, f.scope? b = some t ∧
        climb k.isKindOf s ((f.ancestors i).filterMap f.scope?)
          = ⟨(path ++ [b]).flatMap f.declared, t, k.isKindOf t⟩ := by
  -- at both ends the scope stands alone
  have alone : ∀ {i : Nat} {s : Scope}, f.scope? i = some s →
      ([] ++ [i]).flatMap f.declared = s.bindings.toList := by
    intro i s hs
    rw [List.nil_append, List.flatMap_singleton, declared_eq hs]
  induction h with
  | @found i s' hs hk =>
      intro s hs'
      obtain rfl := Option.some.inj (hs.symm.trans hs')
      have stop : k.isKindOf s' = true := isKindOf_iff.2 hk
      refine ⟨s', hs, ?_⟩
      rw [alone hs, stop]
      cases (f.ancestors i).filterMap f.scope? with
      | nil => rw [climb, stop]
      | cons => rw [climb, if_pos stop]
  | @root i s' hs hk hp =>
      intro s hs'
      obtain rfl := Option.some.inj (hs.symm.trans hs')
      refine ⟨s', hs, ?_⟩
      rw [alone hs, ancestors_eq_nil hf hp, List.filterMap_nil, climb]
  | @outward i p b s' path hs hk hp rest ih =>
      intro s hs'
      obtain rfl := Option.some.inj (hs.symm.trans hs')
      have go : ¬ k.isKindOf s' = true := fun e => hk (isKindOf_iff.1 e)
      obtain ⟨q, hq⟩ := rest.built
      obtain ⟨t, ht, hclimb⟩ := ih q hq
      refine ⟨t, ht, ?_⟩
      rw [ancestors_eq_cons hf hp, List.filterMap_cons_some hq, climb, if_neg go, hclimb,
        List.cons_append, List.flatMap_cons, declared_eq hs]

/-- What is wrapped is what the first child and the first child of that one declare. -/
theorem mem_wrapped_iff {t : Scope} (ht : f.scope? b = some t) :
    x ∈ f.wrapped t ↔ ∃ j, f.Wrapped b j ∧ f.Declares j x := by
  have first : ∀ {i : Nat} {s u : Scope}, f.scope? i = some s → f.firstChild? s = some u →
      ∃ c, f.FirstChild i c ∧ f.scope? c = some u := by
    intro i s u hs hu
    obtain ⟨c, hc, hu⟩ := Option.bind_eq_some_iff.1 hu
    exact ⟨c, ⟨s, hs, hc⟩, hu⟩
  have only : ∀ {i c : Nat} {s u : Scope}, f.scope? i = some s → f.FirstChild i c →
      f.scope? c = some u → f.firstChild? s = some u := by
    intro i c s u hs ⟨s', hs', hc⟩ hu
    obtain rfl := Option.some.inj (hs.symm.trans hs')
    exact Option.bind_eq_some_iff.2 ⟨c, hc, hu⟩
  unfold wrapped
  constructor
  · intro hx
    split at hx
    · cases hx
    · next c hc =>
      obtain ⟨j, hj, hjs⟩ := first ht hc
      rcases List.mem_append.1 hx with hx | hx
      · exact ⟨j, Or.inl hj, (declares_iff hjs).2 hx⟩
      · split at hx
        · cases hx
        · next d hd =>
          obtain ⟨l, hl, hls⟩ := first hjs hd
          exact ⟨l, Or.inr ⟨j, hj, hl⟩, (declares_iff hls).2 hx⟩
  · rintro ⟨j, hj | ⟨c, hc, hj⟩, u, hu, hx⟩
    · rw [only ht hj hu]
      exact List.mem_append_left _ hx
    · obtain ⟨s, hs, _⟩ := id hj
      simp only [only ht hc hs, only hs hj hu]
      exact List.mem_append_right _ hx

/-- **What is visible, in the order in which it is found**, and there is a note exactly when the
    search ended without its boundary. -/
theorem visible_eq_of_search (hf : f.Sound) (h : f.Search k i path b) :
    ∃ t, f.scope? b = some t ∧
      f.visible (.scope i) k
        = ⟨.ok ((path ++ [b]).flatMap f.declared ++ f.wrapped t),
            if k.isKindOf t then [] else [.chainEnded t.kind k], []⟩ := by
  obtain ⟨s, hs⟩ := h.built
  obtain ⟨t, ht, hclimb⟩ := climb_of_search hf h s hs
  refine ⟨t, ht, ?_⟩
  have hchain : f.toChain (.scope i) = .ok (s, (f.ancestors i).filterMap f.scope?) := by
    simp only [toChain, hs]
  unfold visible
  rw [hchain, Traced.ofExcept_ok_bind]
  simp only [hclimb]
  cases k.isKindOf t <;> rfl

theorem visible_of_found (hf : f.Sound) (h : f.Search k i path b) {t : Scope}
    (ht : f.scope? b = some t) (found : k = .kind t.kind) :
    f.visible (.scope i) k = ⟨.ok ((path ++ [b]).flatMap f.declared ++ f.wrapped t), [], []⟩ := by
  obtain ⟨t', ht', hvisible⟩ := visible_eq_of_search hf h
  obtain rfl := Option.some.inj (ht.symm.trans ht')
  rw [hvisible, if_pos (isKindOf_iff.2 found)]

/-- **What is visible is what the scopes declare that a search looks into.** -/
theorem visible_of_search (hf : f.Sound) (h : f.Search k i path b) :
    ∃ t bs, f.scope? b = some t ∧
      f.visible (.scope i) k
        = ⟨.ok bs, if k.isKindOf t then [] else [.chainEnded t.kind k], []⟩ ∧
      ∀ x, x ∈ bs ↔ ∃ j, f.LookedInto path b j ∧ f.Declares j x := by
  obtain ⟨t, ht, hvisible⟩ := visible_eq_of_search hf h
  refine ⟨t, _, ht, hvisible, fun x => ?_⟩
  rw [List.mem_append, List.mem_flatMap, mem_wrapped_iff ht]
  simp only [List.mem_append, List.mem_singleton, mem_declared]
  constructor
  · intro hj
    rcases hj with ⟨j, hj | hj, hx⟩ | ⟨j, hj, hx⟩
    · exact ⟨j, Or.inl hj, hx⟩
    · exact ⟨j, Or.inr (Or.inl hj), hx⟩
    · exact ⟨j, Or.inr (Or.inr hj), hx⟩
  · rintro ⟨j, hj | hj | hj, hx⟩
    · exact Or.inl ⟨j, Or.inl hj, hx⟩
    · exact Or.inl ⟨j, Or.inr hj, hx⟩
    · exact Or.inr ⟨j, hj, hx⟩

theorem visibleSet_of_search (hf : f.Sound) (h : f.Search k i path b) :
    ∃ t bs, f.scope? b = some t ∧
      f.visibleSet (.scope i) k
        = ⟨.ok (.ofList bs), if k.isKindOf t then [] else [.chainEnded t.kind k], []⟩ ∧
      ∀ x, x ∈ bs ↔ ∃ j, f.LookedInto path b j ∧ f.Declares j x := by
  obtain ⟨t, bs, ht, hvisible, hbs⟩ := visible_of_search hf h
  refine ⟨t, bs, ht, ?_, hbs⟩
  unfold visibleSet
  rw [hvisible]
  show Traced.mk _ (_ ++ []) _ = _
  rw [List.append_nil]
  rfl

end Climb

end TagScope.Forest

import TagScope.Proofs.Forest.Owners
/-!
# Lifetime

`Forest.alive` asks whether a scope or one of its owners is held. Here the same question is
answered from the other end, from the handles inwards.

* `alive_iff`: a scope is alive when a handle or a living holder keeps it.
* `parent?_eq_some_iff`: the parent of a scope is its holder, as long as that one is alive.
* `alive_iff_reached`: **the living scopes are those that can be reached from a handle by going
  from holders to children.**
* `Counted.iff_alive`: **nothing else exists once every scope that nothing refers to is gone.**
-/

namespace TagScope.Forest

variable {f : Forest} {i p c : Nat}

/-! ## 1. From a scope outwards -/

/-- **A handle or a living holder keeps a scope alive, and nothing else does.** -/
theorem alive_iff (hf : f.Sound) :
    f.alive c = true ↔ f.held c = true ∨ ∃ p, f.Holds p c ∧ f.alive p = true := by
  unfold alive
  by_cases hp : ∃ p, f.Holds p c
  · obtain ⟨p, hp⟩ := hp
    rw [owners_of_holds hf hp, List.any_cons, Bool.or_eq_true]
    refine or_congr_right ⟨fun h => ⟨p, hp, h⟩, ?_⟩
    intro ⟨q, hq, h⟩
    rw [hf.single hp hq]
    exact h
  · rw [owners_eq_nil hf fun p h => hp ⟨p, h⟩, List.any_nil, Bool.or_false]
    exact ⟨Or.inl, fun h => h.resolve_right fun ⟨p, h, _⟩ => hp ⟨p, h⟩⟩

theorem built_of_alive (hf : f.Sound) (h : f.alive c = true) : f.Built c := by
  rcases (alive_iff hf).1 h with h | ⟨p, hp, _⟩
  · obtain ⟨id, hm⟩ := held_iff_mem.1 h
    exact hf.handleBuilt id c hm
  · have hlt := hf.older p c hp
    have hb : p < f.scopes.size := hp.built
    unfold Built
    omega

theorem alive_of_holds (hf : f.Sound) (h : f.Holds p c) (hp : f.alive p = true) :
    f.alive c = true :=
  (alive_iff hf).2 (Or.inr ⟨p, h, hp⟩)

/-- **The parent of a scope is the scope that holds it, as long as that one is alive.** -/
theorem parent?_eq_some_iff (hf : f.Sound) :
    f.parent? c = some p ↔ f.Holds p c ∧ f.alive p = true := by
  unfold parent?
  rw [Option.filter_eq_some_iff, hf.linked p c]

theorem parent?_eq_none_iff (hf : f.Sound) :
    f.parent? c = none ↔ ∀ p, f.Holds p c → f.alive p = false := by
  rw [Option.eq_none_iff_forall_ne_some]
  constructor
  · intro h p hp
    exact Bool.eq_false_iff.2 fun hal => h p ((parent?_eq_some_iff hf).2 ⟨hp, hal⟩)
  · intro h p e
    obtain ⟨hp, hal⟩ := (parent?_eq_some_iff hf).1 e
    rw [h p hp] at hal
    cases hal

/-- **The ancestors of a scope are its parent and the ancestors of that one.** -/
theorem ancestors_eq_cons (hf : f.Sound) (h : f.parent? c = some p) :
    f.ancestors c = p :: f.ancestors p := by
  obtain ⟨hp, hal⟩ := (parent?_eq_some_iff hf).1 h
  unfold ancestors
  rw [owners_of_holds hf hp, throughLast]
  split
  · next hn =>
    have hheld : f.held p = true := by
      unfold alive at hal
      rw [throughLast_eq_nil.1 hn, Bool.or_false] at hal
      exact hal
    rw [if_pos hheld, hn]
  · rfl

theorem ancestors_eq_nil (hf : f.Sound) (h : f.parent? c = none) : f.ancestors c = [] := by
  refine throughLast_eq_nil.2 (Bool.eq_false_iff.2 fun hany => ?_)
  -- a held owner would keep the holder alive
  by_cases hp : ∃ p, f.Holds p c
  · obtain ⟨p, hp⟩ := hp
    rw [owners_of_holds hf hp] at hany
    have hal := (parent?_eq_none_iff hf).1 h p hp
    unfold alive at hal
    rw [List.any_cons, hal] at hany
    cases hany
  · rw [owners_eq_nil hf fun p h => hp ⟨p, h⟩] at hany
    cases hany

/-! ## 2. From the handles inwards -/

/-- Scope `c` is scope `i` or somewhere inside of it. -/
def Reaches (f : Forest) : Nat → Nat → Prop := Relation.ReflTransGen f.Holds

/-- **A living scope keeps everything inside of it alive.** -/
theorem alive_of_reaches (hf : f.Sound) (hi : f.alive i = true) (h : f.Reaches i c) :
    f.alive c = true := by
  induction h with
  | refl => exact hi
  | tail _ hp ih => exact alive_of_holds hf hp ih

/-- What is inside of a scope is older. -/
theorem lt_of_inside (hf : f.Sound) (h : Relation.TransGen f.Holds p c) : c < p := by
  induction h with
  | single h => exact hf.older _ _ h
  | tail _ h ih => exact Nat.lt_trans (hf.older _ _ h) ih

/-- An owner of a scope is a holder or an owner of a holder, so what is built last comes first:
    an induction from the newest scope to the oldest. -/
theorem induction_inwards {P : Nat → Prop}
    (step : ∀ c, f.Built c → (∀ p, c < p → f.Built p → P p) → P c) : ∀ c, f.Built c → P c := by
  suffices h : ∀ k c, f.scopes.size - c = k → f.Built c → P c from fun c => h _ c rfl
  intro k
  induction k using Nat.strongRecOn with
  | ind k ih =>
      intro c hk hc
      refine step c hc fun p hlt hp => ih (f.scopes.size - p) ?_ p rfl hp
      unfold Built at hp
      omega

/-- **The living scopes are those that can be reached from a handle.** -/
theorem alive_iff_reached (hf : f.Sound) :
    f.alive c = true ↔ ∃ i, f.held i = true ∧ f.Reaches i c := by
  constructor
  · intro h
    have hb := built_of_alive hf h
    revert h
    refine induction_inwards (P := fun c => f.alive c = true → ∃ i, f.held i = true ∧ f.Reaches i c)
      ?_ c hb
    intro c _ ih h
    rcases (alive_iff hf).1 h with h | ⟨p, hp, hal⟩
    · exact ⟨c, h, .refl⟩
    · obtain ⟨i, hi, hr⟩ := ih p (hf.older p c hp) hp.built hal
      exact ⟨i, hi, hr.tail hp⟩
  · intro ⟨i, hi, hr⟩
    exact alive_of_reaches hf ((alive_iff hf).2 (Or.inl hi)) hr

/-! ## 3. Parents of parents -/

/-- Scope `a` is scope `c` or a living scope around it. -/
def Outwards (f : Forest) : Nat → Nat → Prop :=
  Relation.ReflTransGen fun c p => f.parent? c = some p

/-- Scope `a` is a living scope around scope `c`. -/
def Around (f : Forest) (c a : Nat) : Prop := ∃ p, f.parent? c = some p ∧ f.Outwards p a

theorem Outwards.reaches (hf : f.Sound) (h : f.Outwards c i) : f.Reaches i c := by
  induction h with
  | refl => exact .refl
  | tail _ hp ih => exact ih.head ((parent?_eq_some_iff hf).1 hp).1

/-! ## 4. Counting references -/

/-- **What exists when everything that nothing refers to is gone**: `E` has every scope that was
    built and to which a handle or another member of `E` refers, and no others. -/
def Counted (f : Forest) (E : Nat → Prop) : Prop :=
  ∀ i, E i ↔ f.Built i ∧ (f.held i = true ∨ ∃ p, E p ∧ f.Holds p i)

/-- The living scopes are what exists when everything that nothing refers to is gone. -/
theorem counted_alive (hf : f.Sound) : f.Counted fun i => f.alive i = true := by
  intro i
  constructor
  · intro h
    refine ⟨built_of_alive hf h, ?_⟩
    rcases (alive_iff hf).1 h with h | ⟨p, hp, hal⟩
    · exact Or.inl h
    · exact Or.inr ⟨p, hal, hp⟩
  · rintro ⟨_, h | ⟨p, hal, hp⟩⟩
    · exact (alive_iff hf).2 (Or.inl h)
    · exact alive_of_holds hf hp hal

/-- **Only the living scopes exist when everything that nothing refers to is gone**: no two scopes
    can keep each other alive. -/
theorem Counted.iff_alive {E : Nat → Prop} (hf : f.Sound) (hE : f.Counted E) :
    E i ↔ f.alive i = true := by
  by_cases hb : f.Built i
  · refine induction_inwards (P := fun i => E i ↔ f.alive i = true) ?_ i hb
    intro i _ ih
    refine (hE i).trans (Iff.trans ?_ (counted_alive hf i).symm)
    refine and_congr_right fun _ => or_congr_right (exists_congr fun p => ?_)
    refine and_congr_left fun hp => ?_
    exact ih p (hf.older p i hp) hp.built
  · exact ⟨fun h => absurd ((hE i).1 h).1 hb, fun h => absurd (built_of_alive hf h) hb⟩

end TagScope.Forest

import TagScope.Proofs.Forest.Construction
/-!
# Growth

What a forest keeps while it moves on, and what can get lost.

* `Moves.scope?_eq`: **a scope keeps everything but the link to the scope that it is given to**;
  `Moves.shown_eq`: its constructor call with it.
* `Moves.holds_iff`: scopes hold later what they held when they were built.
* `alive_of_alive_later`: **what is gone does not come back**, where new scopes are built around held
  and around new ones only.
* `exists_lost_handle`: nothing goes without a handle that is given up.
-/

namespace TagScope.Forest

variable {f g : Forest} {s : Scope} {i p c : Nat}

/-! ## 1. What stays -/

/-- A move changes nothing about a scope but its link. -/
theorem Move.scope?_eq (h : Move f g) (hs : f.scope? i = some s) :
    ∃ o, g.scope? i = some { s with holder := o } := by
  cases h with
  | push t ht hcs =>
      rw [scope?_push_of_built (built_iff.2 ⟨s, hs⟩), hs, Option.map_some]
      by_cases hi : i ∈ t.children
      · exact ⟨some f.scopes.size, by rw [if_pos hi]⟩
      · exact ⟨s.holder, by rw [if_neg hi]⟩
  | hold => exact ⟨s.holder, hs⟩
  | release => exact ⟨s.holder, hs⟩

/-- **A scope keeps its label, its kind, its bindings and its children for good.** -/
theorem Moves.scope?_eq (h : Moves f g) (hs : f.scope? i = some s) :
    ∃ o, g.scope? i = some { s with holder := o } := by
  induction h with
  | refl => exact ⟨s.holder, hs⟩
  | tail _ hmove ih =>
      obtain ⟨o, ho⟩ := ih
      obtain ⟨o', ho'⟩ := hmove.scope?_eq ho
      exact ⟨o', ho'⟩

theorem Moves.built (h : Moves f g) (hb : f.Built i) : g.Built i := by
  obtain ⟨s, hs⟩ := built_iff.1 hb
  obtain ⟨o, ho⟩ := h.scope?_eq hs
  exact built_iff.2 ⟨_, ho⟩

/-- **A scope holds later what it holds now.** -/
theorem Moves.holds_iff (h : Moves f g) (hp : f.Built p) : g.Holds p c ↔ f.Holds p c := by
  obtain ⟨s, hs⟩ := built_iff.1 hp
  obtain ⟨o, ho⟩ := h.scope?_eq hs
  constructor
  · intro ⟨t, ht, hc⟩
    obtain rfl := Option.some.inj (ho.symm.trans ht)
    exact ⟨s, hs, hc⟩
  · intro ⟨t, ht, hc⟩
    obtain rfl := Option.some.inj (hs.symm.trans ht)
    exact ⟨_, ho, hc⟩

theorem Moves.holds (h : Moves f g) (hp : f.Holds p c) : g.Holds p c :=
  (h.holds_iff hp.built).2 hp

theorem Moves.reaches (h : Moves f g) (hr : f.Reaches i c) : g.Reaches i c :=
  Relation.ReflTransGen.mono (fun _ _ => h.holds) i c hr

theorem Moves.label_eq (h : Moves f g) (hb : f.Built i) : g.label i = f.label i := by
  obtain ⟨s, hs⟩ := built_iff.1 hb
  obtain ⟨o, ho⟩ := h.scope?_eq hs
  unfold label
  rw [hs, ho]
  rfl

/-- **A scope keeps its constructor call.** -/
theorem Moves.shown_eq (hf : f.Sound) (h : Moves f g) (hb : f.Built i) : g.shown i = f.shown i := by
  induction i using Nat.strongRecOn with
  | ind i ih =>
      obtain ⟨s, hs⟩ := built_iff.1 hb
      obtain ⟨o, ho⟩ := h.scope?_eq hs
      have inside : (s.children.map fun c => if _h : c < i then g.shown c else "")
          = s.children.map fun c => if _h : c < i then f.shown c else "" := by
        refine List.map_congr_left fun c hc => ?_
        have hlt : c < i := hf.older i c ⟨s, hs, hc⟩
        rw [dif_pos hlt, dif_pos hlt, ih c hlt (Nat.lt_trans hlt hb)]
      rw [shown, shown, hs, ho]
      simp only [inside]

/-! ## 2. What can get lost -/

/-- **A scope that is alive later is alive now**, where handles are only taken on new scopes, and new
    scopes hold only what has a handle now and what is new as well. -/
theorem alive_of_alive_later (hf : f.Sound) (hg : g.Sound)
    (hhandles : ∀ i, g.held i = true → f.held i = true ∨ ¬ f.Built i)
    (hlinks : ∀ p c, g.Holds p c → f.Holds p c ∨ f.held c = true ∨ ¬ f.Built c)
    (hi : f.Built i) (h : g.alive i = true) : f.alive i = true := by
  obtain ⟨k, hk, hr⟩ := (alive_iff_reached hg).1 h
  -- on the way in from a handle, whatever is not new is alive
  induction hr with
  | refl => exact (alive_iff hf).2 (Or.inl ((hhandles k hk).resolve_right fun hn => hn hi))
  | @tail p c hr hp ih =>
      rcases hlinks p c hp with hp | hheld | hnew
      · exact alive_of_holds hf hp (ih hp.built ((alive_iff_reached hg).2 ⟨k, hk, hr⟩))
      · exact (alive_iff hf).2 (Or.inl hheld)
      · exact absurd hi hnew

/-- **What goes was kept by a handle that is given up.** -/
theorem exists_lost_handle (hf : f.Sound) (hg : g.Sound) (h : Moves f g) (hp : f.alive p = true)
    (hgone : g.alive p = false) : ∃ i, f.held i = true ∧ g.held i = false ∧ f.Reaches i p := by
  obtain ⟨i, hi, hr⟩ := (alive_iff_reached hf).1 hp
  refine ⟨i, hi, Bool.eq_false_iff.2 fun hheld => ?_, hr⟩
  rw [(alive_iff_reached hg).2 ⟨i, hheld, h.reaches hr⟩] at hgone
  cases hgone

end TagScope.Forest

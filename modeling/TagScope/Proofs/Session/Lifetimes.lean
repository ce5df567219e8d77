import TagScope.Proofs.Session.Progress
/-!
# Lifetimes in a session

Which scopes exist in the forests that a session can lead to, and what a drop leaves.

* `alive_release_iff`: after a drop a scope lives when another handle still leads to it.
* `lifetimes_forestAfter`: **a scope exists exactly when a handle leads to it through children; it
  has no parent exactly when it was never given away or the scope it was given to is gone; a drop
  answers whether the scope had a parent; and what has a held ancestor keeps its parent.**
-/

namespace TagScope

open Forest

variable {f : Forest} {id : String} {i j p c a : Nat}

/-! ## 1. After a drop -/

theorem held_release_iff (hf : f.Sound) (h : f.held? id = some i) :
    (f.release id).held j = true ↔ f.held j = true ∧ j ≠ i := by
  have hid := (held?_eq_some_iff hf).1 h
  rw [held_iff_mem, held_iff_mem]
  constructor
  · intro ⟨id', hm⟩
    obtain ⟨hm, hne⟩ := mem_release.1 hm
    refine ⟨⟨id', hm⟩, ?_⟩
    rintro rfl
    exact hne (hf.handleSingle id' id j hm hid)
  · intro ⟨⟨id', hm⟩, hne⟩
    refine ⟨id', mem_release.2 ⟨hm, fun e => hne ?_⟩⟩
    have e : id' = id := e
    subst e
    exact Option.some.inj (((held?_eq_some_iff hf).2 hm).symm.trans h)

/-- A drop of a held scope takes its handle away, and says whether the scope lives on. -/
theorem run_drop (h : f.held? id = some i) :
    (Step.change (.drop id)).run f
      = (f.release id, { outcome := .ok (.dropped ((f.release id).alive i)) }) := by
  simp only [Step.run, apply_drop h]

/-- A drop of what is not held changes nothing. -/
theorem run_drop_of_not_held (h : f.held? id = none) :
    (Step.change (.drop id)).run f = (f, { outcome := .error (.noSuchScope id) }) := by
  simp only [Step.run, apply_drop_of_not_held h]

theorem alive_iff_held?_reaches (hf : f.Sound) :
    f.alive i = true ↔ ∃ id k, f.held? id = some k ∧ f.Reaches k i := by
  rw [alive_iff_reached hf, exists_comm]
  refine exists_congr fun k => ?_
  rw [held_iff hf, exists_and_right]

/-- **After a drop a scope lives when the handle of some other scope leads to it.** The links stay
    as they were. -/
theorem alive_release_iff (hf : f.Sound) (h : f.held? id = some i) :
    (f.release id).alive j = true ↔ ∃ k, f.held k = true ∧ k ≠ i ∧ f.Reaches k j := by
  rw [alive_iff_reached (sound_release hf)]
  refine exists_congr fun k => ?_
  rw [held_release_iff hf h, and_assoc]
  exact Iff.rfl

/-- **The scope whose handle was dropped lives on exactly when it has a parent.** -/
theorem alive_release_self_iff (hf : f.Sound) (h : f.held? id = some i) :
    (f.release id).alive i = true ↔ (f.parent? i).isSome = true := by
  rw [alive_release_iff hf h, Option.isSome_iff_exists]
  constructor
  · intro ⟨k, hk, hne, hr⟩
    rcases Relation.ReflTransGen.cases_tail hr with e | ⟨p, hr, hp⟩
    · exact absurd e.symm hne
    · exact ⟨p, (parent?_eq_some_iff hf).2 ⟨hp, (alive_iff_reached hf).2 ⟨k, hk, hr⟩⟩⟩
  · intro ⟨p, hp⟩
    obtain ⟨hp, hal⟩ := (parent?_eq_some_iff hf).1 hp
    obtain ⟨k, hk, hr⟩ := (alive_iff_reached hf).1 hal
    refine ⟨k, hk, ?_, hr.tail hp⟩
    -- a scope does not lead to its own holder
    rintro rfl
    exact Nat.lt_irrefl k (lt_of_inside hf (Relation.TransGen.tail' hr hp))

/-- **What has a held ancestor after a drop keeps its parent.** -/
theorem parent?_release (hf : f.Sound) (hc : f.Around c a)
    (ha : (f.release id).held a = true) :
    (f.release id).alive c = true ∧ (f.release id).parent? c = f.parent? c := by
  have hg : (f.release id).Sound := sound_release hf
  obtain ⟨p, hp, hpa⟩ := hc
  have hholds : (f.release id).Holds p c := ((parent?_eq_some_iff hf).1 hp).1
  have hr : f.Reaches a p := hpa.reaches hf
  have hal : (f.release id).alive p = true := (alive_iff_reached hg).2 ⟨a, ha, hr⟩
  refine ⟨alive_of_holds hg hholds hal, ?_⟩
  rw [hp]
  exact (parent?_eq_some_iff hg).2 ⟨hholds, hal⟩

/-! ## 2. Every session -/

/-- **Which scopes live, and with which parent.** -/
structure Forest.Lifetimes (f : Forest) : Prop where
  /-- When everything is gone that nothing refers to, exactly those scopes exist to which a handle
      leads through children. -/
  counted : ∀ E, f.Counted E → ∀ i, E i ↔ ∃ id k, f.held? id = some k ∧ f.Reaches k i
  /-- The living scopes are those to which a handle leads through children. -/
  alive : ∀ i, f.alive i = true ↔ ∃ id k, f.held? id = some k ∧ f.Reaches k i
  /-- No parent means never given away, or given to a scope that is gone. -/
  parent : ∀ i, f.alive i = true → (f.parent? i = none ↔
    (∀ p, ¬ f.Holds p i) ∨ ∃ p, f.Holds p i ∧ f.alive p = false)
  /-- A drop of a held scope answers whether the scope had a parent. -/
  drop : ∀ id i, f.held? id = some i →
    ((Step.change (.drop id)).run f).2.outcome = .ok (.dropped (f.parent? i).isSome)
  /-- After any drop, what has an ancestor that is still held lives and keeps its parent. -/
  keep : ∀ id c a, f.Around c a → ((Step.change (.drop id)).run f).1.held a = true →
    ((Step.change (.drop id)).run f).1.alive c = true ∧
      ((Step.change (.drop id)).run f).1.parent? c = f.parent? c

theorem Forest.Sound.lifetimes (hf : f.Sound) : f.Lifetimes where
  counted E hE i := by
    rw [hE.iff_alive hf, alive_iff_held?_reaches hf]
  alive i := alive_iff_held?_reaches hf
  parent i _ := by
    rw [parent?_eq_none_iff hf]
    constructor
    · intro h
      by_cases hp : ∃ p, f.Holds p i
      · obtain ⟨p, hp⟩ := hp
        exact Or.inr ⟨p, hp, h p hp⟩
      · exact Or.inl fun p h => hp ⟨p, h⟩
    · intro h p hp
      rcases h with h | ⟨q, hq, hdead⟩
      · exact absurd hp (h p)
      · rw [hf.single hp hq]
        exact hdead
  drop id i h := by
    rw [run_drop h]
    refine congrArg (fun b => Except.ok (Answer.dropped b)) ?_
    exact Bool.eq_iff_iff.2 (alive_release_self_iff hf h)
  keep id c a hc ha := by
    cases h : f.held? id with
    | none =>
        rw [run_drop_of_not_held h] at ha ⊢
        obtain ⟨p, hp, hpa⟩ := hc
        obtain ⟨hholds, hal⟩ := (parent?_eq_some_iff hf).1 hp
        exact ⟨alive_of_holds hf hholds hal, rfl⟩
    | some i =>
        rw [run_drop h] at ha ⊢
        exact parent?_release hf hc ha

/-- **The lifetimes of scopes after every session.** -/
theorem lifetimes_forestAfter (steps : List Step) : (Session.forestAfter steps).Lifetimes :=
  (sound_forestAfter steps).lifetimes

end TagScope

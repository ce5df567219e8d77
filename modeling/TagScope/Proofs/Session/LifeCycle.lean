import TagScope.Proofs.Session.Requests
import TagScope.Proofs.Session.Traces
/-!
# The life of a link to a parent

What becomes of one scope in the course of a whole session, step after step.

* `Session.forestAt`: the forest after the first steps of a session.
* `Session.Gives`: the step at which a scope is given to a new one.
* `Session.Life`: **there is at most one such step. Before it the scope has no parent; after it the
  parent is the new scope as long as that one is alive, and nothing once it is gone.**
* `life_session`: this is the life of every scope in every session.
-/

namespace TagScope

open Forest

namespace Session

/-! ## 1. The forests of a session -/

/-- The forest after the first `n` steps of a session. -/
def forestAt (steps : List Step) (n : Nat) : Forest := forestAfter (steps.take n)

/-- **Step `n` of a session gives scope `c` to a new scope `p`**: it asks for `p` with `c` among its
    children, and the reply is an answer. -/
def Gives (steps : List Step) (n p c : Nat) : Prop :=
  ∃ s r a, steps[n]? = some s ∧ (run steps)[n]? = some r ∧ r.outcome = .ok a ∧
    s.Lists (forestAt steps n) p c

section Course

variable {steps : List Step} {s : Step} {m n p q c : Nat}

theorem sound_forestAt : (forestAt steps n).Sound := sound_forestAfter _

theorem forestAt_succ (hs : steps[n]? = some s) :
    forestAt steps (n + 1) = (s.run (forestAt steps n)).1 :=
  forestAfter_take_succ hs

/-- After its last step a session stays where it is. -/
theorem forestAt_succ_of_none (hs : steps[n]? = none) :
    forestAt steps (n + 1) = forestAt steps n := by
  unfold forestAt
  rw [List.take_add_one, hs, Option.toList_none, List.append_nil]

/-- In the course of a session the forest moves on. -/
theorem moves_forestAt (h : m ≤ n) : (forestAt steps m).Moves (forestAt steps n) := by
  induction h with
  | refl => exact .refl
  | @step n _ ih =>
      cases hs : steps[n]? with
      | none =>
          rw [forestAt_succ_of_none hs]
          exact ih
      | some s =>
          rw [forestAt_succ hs]
          exact ih.trans (moves_run sound_forestAt s)

/-- **What is gone stays gone.** -/
theorem not_alive_forestAt (h : m ≤ n) (hp : (forestAt steps m).Built p)
    (hgone : (forestAt steps m).alive p = false) : (forestAt steps n).alive p = false := by
  induction h with
  | refl => exact hgone
  | @step n hmn ih =>
      cases hs : steps[n]? with
      | none =>
          rw [forestAt_succ_of_none hs]
          exact ih
      | some s =>
          rw [forestAt_succ hs]
          refine Bool.eq_false_iff.2 fun hal => ?_
          rw [alive_of_alive_run sound_forestAt ((moves_forestAt hmn).built hp) hal] at ih
          cases ih

/-! ## 2. Giving a scope away -/

/-- **Step `n` of a session gets an answer** when it succeeds in the forest before it. -/
theorem answered_iff {P : Step → Prop} :
    (∃ s r a, steps[n]? = some s ∧ (run steps)[n]? = some r ∧ r.outcome = .ok a ∧ P s) ↔
      ∃ s, steps[n]? = some s ∧ (∃ a, (s.run (forestAt steps n)).2.outcome = .ok a) ∧ P s := by
  refine exists_congr fun s => ⟨?_, ?_⟩
  · intro ⟨r, a, hs, hr, ha, hl⟩
    obtain rfl := Option.some.inj ((getElem?_run hs).symm.trans hr)
    exact ⟨hs, ⟨a, ha⟩, hl⟩
  · intro ⟨hs, ⟨a, ha⟩, hl⟩
    exact ⟨_, a, hs, getElem?_run hs, ha, hl⟩

/-- What the step that gives a scope away does to the forest. -/
theorem gives_iff : Gives steps n p c ↔ ∃ s, steps[n]? = some s ∧
    (∃ a, (s.run (forestAt steps n)).2.outcome = .ok a) ∧ s.Lists (forestAt steps n) p c :=
  answered_iff

theorem Gives.new (h : Gives steps n p c) : ¬ (forestAt steps n).Built p := by
  obtain ⟨_, _, _, hl⟩ := gives_iff.1 h
  exact (hl.new sound_forestAt).1

theorem Gives.holds (h : Gives steps n p c) (hm : n < m) : (forestAt steps m).Holds p c := by
  obtain ⟨s, hs, hl⟩ := gives_iff.1 h
  have hlink : (forestAt steps (n + 1)).Holds p c :=
    forestAt_succ hs ▸ (holds_run sound_forestAt).2 (Or.inr hl)
  exact (moves_forestAt hm).holds hlink

theorem Gives.alive (h : Gives steps n p c) : (forestAt steps (n + 1)).alive p = true := by
  obtain ⟨s, hs, ⟨a, ha⟩, hl⟩ := gives_iff.1 h
  obtain ⟨r, rfl, hr⟩ := hl.apply ha
  rw [forestAt_succ hs]
  exact alive_of_lists sound_forestAt hr hl

/-- **A scope that is held was given away at some step before.** -/
theorem exists_gives (h : (forestAt steps m).Holds p c) : ∃ n, n < m ∧ Gives steps n p c := by
  induction m with
  | zero => exact absurd h not_holds_empty
  | succ m ih =>
      cases hs : steps[m]? with
      | none =>
          rw [forestAt_succ_of_none hs] at h
          obtain ⟨n, hn, hg⟩ := ih h
          exact ⟨n, Nat.lt_succ_of_lt hn, hg⟩
      | some s =>
          rw [forestAt_succ hs] at h
          rcases (holds_run sound_forestAt).1 h with h | hl
          · obtain ⟨n, hn, hg⟩ := ih h
            exact ⟨n, Nat.lt_succ_of_lt hn, hg⟩
          · exact ⟨m, Nat.lt_succ_self m, gives_iff.2 ⟨s, hs, hl⟩⟩

/-- At the step at which it is given away a scope is held by nothing. -/
theorem Gives.free (h : Gives steps n p c) (hm : m ≤ n) : ¬ (forestAt steps m).Holds q c := by
  intro hq
  have hlater : (forestAt steps (n + 1)).Holds q c :=
    (moves_forestAt (Nat.le_succ_of_le hm)).holds hq
  obtain rfl := sound_forestAt.single hlater (h.holds (Nat.lt_succ_self n))
  exact h.new ((moves_forestAt hm).built hq.built)

/-- **No scope is given away twice.** -/
theorem Gives.unique (h : Gives steps m p c) (h' : Gives steps n q c) : m = n ∧ p = q := by
  have hmn : m = n := by
    rcases Nat.lt_trichotomy m n with hlt | heq | hlt
    · exact absurd (h.holds hlt) (h'.free (Nat.le_refl n))
    · exact heq
    · exact absurd (h'.holds hlt) (h.free (Nat.le_refl m))
  subst hmn
  exact ⟨rfl, sound_forestAt.single (h.holds (Nat.lt_succ_self m)) (h'.holds (Nat.lt_succ_self m))⟩

/-! ## 3. The parent of a scope -/

theorem parent?_of_free (h : ∀ p, ¬ (forestAt steps m).Holds p c) :
    (forestAt steps m).parent? c = none :=
  (parent?_eq_none_iff sound_forestAt).2 fun p hp => absurd hp (h p)

/-- Once a scope was given away nothing else can be its parent. -/
theorem Gives.parent? (h : Gives steps n p c) (hm : n < m) :
    (forestAt steps m).parent? c = if (forestAt steps m).alive p then some p else none := by
  cases hp : (forestAt steps m).alive p with
  | true => exact (parent?_eq_some_iff sound_forestAt).2 ⟨h.holds hm, hp⟩
  | false =>
      refine (parent?_eq_none_iff sound_forestAt).2 fun q hq => ?_
      rw [sound_forestAt.single hq (h.holds hm)]
      exact hp

/-- **Where the parent of a scope changes**, the scope is given away, or its parent goes. -/
theorem parent?_changed
    (h : (forestAt steps (m + 1)).parent? c ≠ (forestAt steps m).parent? c) :
    (∃ p, Gives steps m p c) ∨
      ∃ n p, n < m ∧ Gives steps n p c ∧ (forestAt steps m).alive p = true ∧
        (forestAt steps (m + 1)).alive p = false := by
  by_cases hg : ∃ n p, n ≤ m ∧ Gives steps n p c
  · obtain ⟨n, p, hn, hg⟩ := hg
    rcases Nat.lt_or_eq_of_le hn with hlt | rfl
    · refine Or.inr ⟨n, p, hlt, hg, ?_⟩
      rw [hg.parent? hlt, hg.parent? (Nat.lt_succ_of_lt hlt)] at h
      cases hold : (forestAt steps m).alive p with
      | true =>
          refine ⟨rfl, Bool.eq_false_iff.2 fun hnew => h ?_⟩
          rw [hold, hnew]
      | false =>
          -- a scope that is gone is gone at the next step as well
          have hnew : (forestAt steps (m + 1)).alive p = false :=
            not_alive_forestAt (Nat.le_succ m) (hg.holds hlt).built hold
          rw [hold, hnew] at h
          exact absurd rfl h
    · exact Or.inl ⟨p, hg⟩
  · -- without a link there is no parent, neither before nor after
    have free : ∀ k, k ≤ m + 1 → ∀ p, ¬ (forestAt steps k).Holds p c := fun k hk p hp => by
      obtain ⟨n, hn, hgives⟩ := exists_gives hp
      exact hg ⟨n, p, by omega, hgives⟩
    rw [parent?_of_free (free _ (Nat.le_refl _)), parent?_of_free (free m (Nat.le_succ m))] at h
    exact absurd rfl h

/-- A scope goes at a step that gives up a handle which led to it. -/
theorem exists_giving_up (hold : (forestAt steps m).alive p = true)
    (hnew : (forestAt steps (m + 1)).alive p = false) :
    ∃ s i, steps[m]? = some s ∧ (forestAt steps m).Reaches i p ∧
      (s.Drops (forestAt steps m) i ∨ s.Reuses (forestAt steps m) i) := by
  cases hs : steps[m]? with
  | none =>
      rw [forestAt_succ_of_none hs, hold] at hnew
      cases hnew
  | some s =>
      rw [forestAt_succ hs] at hnew
      obtain ⟨i, hr, hfreed⟩ := exists_freed sound_forestAt hold hnew
      exact ⟨s, i, rfl, hr, hfreed⟩

end Course

/-! ## 4. The whole life -/

/-- **The life of scope `c` in a session.** -/
structure Life (steps : List Step) (c : Nat) : Prop where
  /-- Once the scope is built its kind, its bindings and its children, in their order, never
      change. -/
  fixed : ∀ m n s, m ≤ n → (forestAt steps m).scope? c = some s →
    ∃ t, (forestAt steps n).scope? c = some t ∧
      t.kind = s.kind ∧ t.bindings = s.bindings ∧ t.children = s.children
  /-- The scope is given to at most one other, at one step, and that one is new. -/
  once : ∀ n p, Gives steps n p c → ¬ (forestAt steps n).Built p ∧
    ∀ m q, Gives steps m q c → m = n ∧ q = p
  /-- As long as the scope was given to no other it has no parent. -/
  before : ∀ m, (∀ n p, Gives steps n p c → m ≤ n) → (forestAt steps m).parent? c = none
  /-- Right after the step at which it is given away the scope has the new one as its parent. -/
  given : ∀ n p, Gives steps n p c → (forestAt steps (n + 1)).parent? c = some p
  /-- At every later step the scope has that parent exactly as long as that one is alive, and no
      other. -/
  after : ∀ n p m, Gives steps n p c → n < m →
    (forestAt steps m).parent? c = if (forestAt steps m).alive p then some p else none
  /-- Once the parent is gone it stays gone, and the scope has no parent any more. -/
  gone : ∀ n p m l, Gives steps n p c → n < m → m ≤ l → (forestAt steps m).alive p = false →
    (forestAt steps l).alive p = false ∧ (forestAt steps l).parent? c = none
  /-- The parent changes only at a step that gives the scope away, and at the one with which the
      parent goes. That one gives up a handle that led to the parent. -/
  changed : ∀ m, (forestAt steps (m + 1)).parent? c ≠ (forestAt steps m).parent? c →
    (∃ p, Gives steps m p c) ∨
    ∃ n p s i, n < m ∧ Gives steps n p c ∧ (forestAt steps m).alive p = true ∧
      (forestAt steps (m + 1)).alive p = false ∧ steps[m]? = some s ∧
      (forestAt steps m).Reaches i p ∧
      (s.Drops (forestAt steps m) i ∨ s.Reuses (forestAt steps m) i)
  /-- At any step but a request under an id that is in use, where the parent changes the step gives
      the scope away, or it is the drop with which the parent goes. -/
  dropped : ∀ m, (∀ s i, steps[m]? = some s → ¬ s.Reuses (forestAt steps m) i) →
    (forestAt steps (m + 1)).parent? c ≠ (forestAt steps m).parent? c →
    (∃ p, Gives steps m p c) ∨
    ∃ p id, steps[m]? = some (.change (.drop id)) ∧ (forestAt steps m).parent? c = some p ∧
      (forestAt steps m).alive p = true ∧ (forestAt steps (m + 1)).alive p = false

end Session

open Session

/-- **The life of every scope in every session.** -/
theorem life_session (steps : List Step) (c : Nat) : Session.Life steps c where
  fixed m n s hmn hs := by
    obtain ⟨o, ho⟩ := (moves_forestAt hmn).scope?_eq hs
    exact ⟨_, ho, rfl, rfl, rfl⟩
  once n p h := ⟨h.new, fun m q h' => h'.unique h⟩
  before m hm := parent?_of_free fun p hp => by
    obtain ⟨n, hn, hg⟩ := exists_gives hp
    exact Nat.not_lt.2 (hm n p hg) hn
  given n p h := by
    rw [h.parent? (Nat.lt_succ_self n), h.alive]
    rfl
  after n p m h hm := h.parent? hm
  gone n p m l h hm hl hgone := by
    have hlater := not_alive_forestAt hl (h.holds hm).built hgone
    refine ⟨hlater, ?_⟩
    rw [h.parent? (Nat.lt_of_lt_of_le hm hl), hlater]
    rfl
  changed m h := by
    rcases parent?_changed h with hg | ⟨n, p, hn, hg, hold, hnew⟩
    · exact Or.inl hg
    · obtain ⟨s, i, hs, hr, hfreed⟩ := exists_giving_up hold hnew
      exact Or.inr ⟨n, p, s, i, hn, hg, hold, hnew, hs, hr, hfreed⟩
  dropped m hids h := by
    rcases parent?_changed h with hg | ⟨n, p, hn, hg, hold, hnew⟩
    · exact Or.inl hg
    · obtain ⟨s, i, hs, _, ⟨id, rfl, _⟩ | hreused⟩ := exists_giving_up hold hnew
      · refine Or.inr ⟨p, id, hs, ?_, hold, hnew⟩
        rw [hg.parent? hn, hold]
        rfl
      · exact absurd hreused (hids s i hs)

/-- The second step gives the scope of the first one to a new scope. -/
example : Session.Gives
    [.change (.scope "inner" (.kind .block) (.given []) (.list [])),
      .change (.scope "outer" (.kind .module) (.given [.scope "inner"]) (.list []))] 1 1 0 :=
  ⟨_, _, _, rfl, rfl, rfl, .scope rfl rfl (List.mem_singleton.2 rfl)⟩

end TagScope

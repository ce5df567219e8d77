import TagScope.Proofs.Forest.Traversal
import TagScope.Proofs.Session.LifeCycle
/-!
# Occurrences of scopes in a session

How often a scope stands among the children of the living scopes, and how often a traversal comes
by it, in every forest that a session can lead to.

* `Session.Builds`: the step that builds a scope from a list of children.
* `childrenOf_of_builds`, `exists_builds`: **a scope lists what the step named that built it, with
  all repetitions, and a child is repeated nowhere else.**
* `Session.Listing`: so no scope is listed by two others, and a traversal visits each scope of a
  tree once, unless a step named a child twice.
* `repeated_child`: a step may do so.
-/

namespace TagScope

open Forest

/-! ## 1. What one step names -/

/-- **The step asks for a new scope `p` around the scopes `l`**, in this order. -/
inductive Step.Collects (f : Forest) : Step → Nat → List Nat → Prop
  | scope {id : String} {kind : Term} {children : ChildTerms} {bindings : Datum} {cs : Children}
      {l : List Nat} (hcs : children.eval f = .ok cs) (hvs : cs.values = .ok (l.map .scope)) :
      Collects f (.change (.scope id kind children bindings)) f.scopes.size l

section Steps

variable {f g : Forest} {a : Answer} {s : Step} {p c : Nat} {l : List Nat}

theorem Forest.Moves.childrenOf_eq (h : f.Moves g) (hp : f.Built p) :
    g.childrenOf p = f.childrenOf p := by
  obtain ⟨t, ht⟩ := built_iff.1 hp
  obtain ⟨o, ho⟩ := h.scope?_eq ht
  rw [Forest.childrenOf_eq ho, Forest.childrenOf_eq ht]

theorem childrenOf_of_not_built (hp : ¬ f.Built p) : f.childrenOf p = [] := by
  simp [childrenOf, scope?_eq_none hp]

/-- A request that succeeds with a scope: the new scope has the children that are named. -/
theorem collects_iff_childrenOf {id : String} {kind : Term} {children : ChildTerms}
    {bindings : Datum} (h : (Change.scope id kind children bindings).apply f = .ok (g, a)) :
    (Step.change (.scope id kind children bindings)).Collects f p l ↔
      p = f.scopes.size ∧ g.childrenOf p = l := by
  obtain ⟨k, cs, t, _, hcs, ht, rfl⟩ := apply_scope h
  obtain ⟨_, hvs, _⟩ := describe_eq_ok_iff.1 ht
  have hnew : ((f.push t).hold id f.scopes.size).childrenOf f.scopes.size = t.children :=
    childrenOf_eq (f := f.push t) scope?_push_size
  constructor
  · intro hl
    cases hl with
    | scope hcs' hvs' =>
        obtain rfl := Except.ok.inj (hcs.symm.trans hcs')
        have hmap : t.children.map Value.scope = l.map .scope :=
          Except.ok.inj (hvs.symm.trans hvs')
        have hinj : Function.Injective Value.scope := fun _ _ e => Value.scope.inj e
        exact ⟨rfl, hnew.trans (List.map_injective_iff.2 hinj hmap)⟩
  · rintro ⟨rfl, rfl⟩
    rw [hnew]
    exact .scope hcs hvs

/-- **A step that succeeds builds the scope that it names.** -/
theorem childrenOf_run (hl : s.Collects f p l) (ha : (s.run f).2.outcome = .ok a) :
    (s.run f).1.Built p ∧ (s.run f).1.childrenOf p = l := by
  obtain ⟨_, _, _, _, rfl⟩ : ∃ id kind children bindings,
      s = .change (.scope id kind children bindings) := by
    cases hl
    exact ⟨_, _, _, _, rfl⟩
  rcases Step.run_cases _ f with ⟨_, hfail⟩ | ⟨r, g, b, e, hr, hrun⟩
  · obtain ⟨e, he⟩ := hfail _ rfl
    rw [he] at ha
    cases ha
  · cases e
    rw [hrun]
    obtain ⟨rfl, hchildren⟩ := (collects_iff_childrenOf hr).1 hl
    obtain ⟨_, _, t, _, _, _, rfl⟩ := apply_scope hr
    exact ⟨built_push.2 (Or.inr rfl), hchildren⟩

/-- A scope of a nest has one child. -/
theorem length_childrenOf_nest {t : Nest} : ∀ {n : Nat} {f : Forest} {d : Nat}, f.Built d →
    nest t n f d = .ok g → ¬ f.Built p → (g.childrenOf p).length ≤ 1
  | 0, f, d, _, h, hp => by
      obtain rfl : f = g := Except.ok.inj h
      simp [childrenOf_of_not_built hp]
  | n + 1, f, d, hd, h, hp => by
      obtain ⟨m, hm, h⟩ := Failure.bind_eq_ok.1 h
      obtain ⟨s, hs, rfl⟩ := construct_eq_ok_iff.1 hm
      have hsize : (f.push s).Built f.scopes.size := built_push.2 (Or.inr rfl)
      by_cases hnew : p = f.scopes.size
      · subst hnew
        obtain ⟨hmoves, _⟩ := moves_nest hsize h
        rw [hmoves.childrenOf_eq hsize, childrenOf_eq scope?_push_size, children_of_describe_one hs]
        exact Nat.le_refl 1
      · exact length_childrenOf_nest hsize h fun hb => (built_push.1 hb).elim hp hnew

/-- **Where a step makes a link, the new scope has exactly the children that the step names**, or it
    has one child. -/
theorem collects_of_lists (hf : f.Sound) (hl : s.Lists f p c)
    (ha : (s.run f).2.outcome = .ok a) :
    s.Collects f p ((s.run f).1.childrenOf p) ∨ ((s.run f).1.childrenOf p).length ≤ 1 := by
  obtain ⟨hnew, _⟩ := hl.new hf
  obtain ⟨r, rfl, hr⟩ := hl.apply ha
  have one : ∀ {t : Nest} {child : String} {g : Forest},
      (Change.nest t child).apply f = .ok (g, a) → (g.childrenOf p).length ≤ 1 := by
    intro t child g h
    obtain ⟨d, m, hd, hm, rfl⟩ := apply_nest h
    have hlen : (m.childrenOf p).length ≤ 1 :=
      length_childrenOf_nest (built_of_held? hf hd) hm hnew
    exact hlen
  cases hl with
  | scope hcs hvs _ => exact Or.inl ((collects_iff_childrenOf hr).2 ⟨rfl, rfl⟩)
  | nest _ => exact Or.inr (one hr)
  | nested _ => exact Or.inr (one hr)

end Steps

/-! ## 2. What a session names -/

namespace Session

/-- **Step `n` of a session builds scope `p` around the scopes `l`**: it asks for it, and the reply
    is an answer. -/
def Builds (steps : List Step) (n p : Nat) (l : List Nat) : Prop :=
  ∃ s r a, steps[n]? = some s ∧ (run steps)[n]? = some r ∧ r.outcome = .ok a ∧
    s.Collects (forestAt steps n) p l

section Sessions

variable {steps : List Step} {m n p c i j : Nat} {l : List Nat}

/-- **A scope has the children that it was built with**, in their order and with repetitions. -/
theorem childrenOf_of_builds (h : Builds steps n p l) (hm : n < m) :
    (forestAt steps m).childrenOf p = l := by
  obtain ⟨s, hs, ⟨a, ha⟩, hl⟩ := answered_iff.1 h
  obtain ⟨hb, hchildren⟩ := childrenOf_run hl ha
  rw [← forestAt_succ hs] at hb hchildren
  rw [(moves_forestAt hm).childrenOf_eq hb, hchildren]

/-- **Where a scope lists a child twice, the step that built the scope named its children so.** -/
theorem exists_builds (h : 1 < ((forestAt steps m).childrenOf p).count c) :
    ∃ n, Builds steps n p ((forestAt steps m).childrenOf p) := by
  have hc : c ∈ (forestAt steps m).childrenOf p := List.count_pos_iff.1 (by omega)
  obtain ⟨n, hn, hg⟩ := exists_gives (mem_childrenOf.1 hc)
  obtain ⟨s, hs, ⟨a, ha⟩, hl⟩ := gives_iff.1 hg
  have hb : (forestAt steps (n + 1)).Built p := (hg.holds (Nat.lt_succ_self n)).built
  have hsame : (forestAt steps m).childrenOf p = (forestAt steps (n + 1)).childrenOf p :=
    (moves_forestAt hn).childrenOf_eq hb
  rw [hsame, forestAt_succ hs] at h ⊢
  rcases collects_of_lists sound_forestAt hl ha with hcollects | hone
  · exact ⟨n, answered_iff.2 ⟨s, hs, ⟨a, ha⟩, hcollects⟩⟩
  · have := List.count_le_length (a := c) (l := (s.run (forestAt steps n)).1.childrenOf p)
    omega

end Sessions

/-! ## 3. Once, unless named twice -/

/-- **How often scopes occur in the forest after a session.** -/
structure Listing (steps : List Step) : Prop where
  /-- No scope is a child of two living ones. -/
  single : ∀ p q c, (forestAfter steps).alive p = true → (forestAfter steps).alive q = true →
    (forestAfter steps).Holds p c → (forestAfter steps).Holds q c → p = q
  /-- A scope is listed more than once exactly if it was named more than once by the step that built
      its parent. -/
  repeated : ∀ c, 1 < (forestAfter steps).listed.count c ↔
    ∃ p n l, (forestAfter steps).parent? c = some p ∧ Builds steps n p l ∧ 1 < l.count c
  /-- A scope with a parent is listed as often as it was named by the step that built the parent. -/
  named : ∀ c p n l, (forestAfter steps).parent? c = some p → Builds steps n p l →
    (forestAfter steps).listed.count c = l.count c
  /-- A scope without a parent is not listed at all. -/
  root : ∀ c, (forestAfter steps).parent? c = none → (forestAfter steps).listed.count c = 0
  /-- A traversal from a living scope visits the scopes inside of it, and no others. -/
  visited : ∀ i j, (forestAfter steps).alive i = true →
    (j ∈ (forestAfter steps).preorder i ↔ (forestAfter steps).Reaches i j)
  /-- A traversal visits a scope as often as the parent of it, times the number of times that the
      parent lists it. -/
  times : ∀ i p j, (forestAfter steps).alive i = true → (forestAfter steps).parent? j = some p →
    i ≠ j → ((forestAfter steps).preorder i).count j
      = ((forestAfter steps).preorder i).count p * ((forestAfter steps).childrenOf p).count j
  /-- A traversal visits each scope exactly once if no scope of the tree was built with a child
      named twice. -/
  once : ∀ i j, (forestAfter steps).alive i = true →
    (∀ n p l, (forestAfter steps).Reaches i p → Builds steps n p l → l.Nodup) →
    (forestAfter steps).Reaches i j → ((forestAfter steps).preorder i).count j = 1

end Session

open Session

/-- **How often scopes occur after every session.** -/
theorem listing_session (steps : List Step) : Session.Listing steps := by
  have hf : (forestAfter steps).Sound := sound_forestAfter steps
  have hend : forestAt steps steps.length = forestAfter steps := by
    unfold forestAt
    rw [List.take_length]
  have hbuilds : ∀ {n p l}, Builds steps n p l → (forestAfter steps).childrenOf p = l := by
    intro n p l h
    have hn : n < steps.length := by
      obtain ⟨_, _, _, hs, _⟩ := h
      exact (List.getElem?_eq_some_iff.1 hs).1
    exact hend ▸ childrenOf_of_builds h hn
  have hexists : ∀ {p c}, 1 < ((forestAfter steps).childrenOf p).count c →
      ∃ n, Builds steps n p ((forestAfter steps).childrenOf p) := by
    intro p c h
    rw [← hend] at h ⊢
    exact exists_builds h
  constructor
  case single => exact fun p q c _ _ hp hq => hf.single hp hq
  case repeated =>
    intro c
    constructor
    · intro h
      cases hp : (forestAfter steps).parent? c with
      | none =>
          rw [count_listed_of_root hf hp] at h
          exact absurd h (Nat.not_lt_zero 1)
      | some p =>
          rw [count_listed hf hp] at h
          obtain ⟨n, hn⟩ := hexists h
          exact ⟨p, n, _, rfl, hn, h⟩
    · rintro ⟨p, n, l, hp, hn, h⟩
      rw [count_listed hf hp, hbuilds hn]
      exact h
  case named =>
    intro c p n l hp hn
    rw [count_listed hf hp, hbuilds hn]
  case root => exact fun c hp => count_listed_of_root hf hp
  case visited => exact fun i j _ => mem_preorder hf
  case times =>
    exact fun i p j _ hp hij => count_preorder hf ((parent?_eq_some_iff hf).1 hp).1 hij
  case once =>
    intro i j _ hnodup hj
    refine count_preorder_of_nodup hf hj fun p hp => List.nodup_iff_count_le_one.2 fun c => ?_
    refine Nat.le_of_not_lt fun h => ?_
    obtain ⟨n, hn⟩ := hexists h
    have := List.nodup_iff_count_le_one.1 (hnodup n p _ hp hn) c
    omega

/-- A scope that is named twice for one new scope. -/
def namedTwice : List Step :=
  [.change (.scope "leaf" (.kind .block) (.given []) (.list [])),
   .change (.scope "twice" (.kind .module) (.given [.scope "leaf", .scope "leaf"]) (.list []))]

/-- **A scope may be listed twice by its parent**, and a traversal then visits it twice. -/
theorem repeated_child :
    (forestAfter namedTwice).alive 0 = true ∧ (forestAfter namedTwice).alive 1 = true ∧
      (forestAfter namedTwice).parent? 1 = none ∧ (forestAfter namedTwice).Reaches 1 0 ∧
      (forestAfter namedTwice).listed.count 0 = 2 ∧
      ((forestAfter namedTwice).preorder 1).count 0 = 2 := by
  have hp : (forestAfter namedTwice).parent? 0 = some 1 := by decide +kernel
  have hf : (forestAfter namedTwice).Sound := sound_forestAfter namedTwice
  have hheld : (forestAfter namedTwice).Holds 1 0 := ((parent?_eq_some_iff hf).1 hp).1
  have htwice : ((forestAfter namedTwice).childrenOf 1).count 0 = 2 := by decide +kernel
  refine ⟨by decide +kernel, by decide +kernel, by decide +kernel, .single hheld, ?_, ?_⟩
  · rw [count_listed hf hp, htwice]
  · rw [count_preorder hf hheld (by decide), count_preorder_self hf, htwice]

end TagScope

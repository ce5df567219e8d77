import TagScope.Proofs.Forest.Growth
import TagScope.Proofs.Session.Progress
/-!
# Requests of a session

Which links one step makes, and which handles it gives up.

* `Step.Lists`: a step asks for a new scope around another one.
* `holds_run`: **a step that succeeds makes the links that it asks for, and no step makes others.**
* `alive_of_lists`: every scope of a request is alive once the request has succeeded.
* `alive_of_alive_run`: **no step brings back what is gone.**
* `exists_freed`: nothing goes at a step that does not give up a handle.
-/

namespace TagScope

open Forest

/-! ## 1. Links -/

/-- **The step asks for a new scope `p` that has scope `c` among its children.** -/
inductive Step.Lists (f : Forest) : Step → Nat → Nat → Prop
  /-- A request for one scope lists all the scopes that are given as its children. -/
  | scope {id : String} {kind : Term} {children : ChildTerms} {bindings : Datum} {cs : Children}
      {vs : List Value} {c : Nat} (hcs : children.eval f = .ok cs) (hvs : cs.values = .ok vs)
      (hc : .scope c ∈ vs) : Lists f (.change (.scope id kind children bindings)) f.scopes.size c
  /-- The first scope of a nest has the scope that is given. -/
  | nest {t : Nest} {child : String} {c : Nat} (hc : f.held? child = some c) :
      Lists f (.change (.nest t child)) f.scopes.size c
  /-- Each of the other scopes of a nest has the one before. -/
  | nested {t : Nest} {child : String} {n : Nat} (hn : n + 1 < t.count) :
      Lists f (.change (.nest t child)) (f.scopes.size + n + 1) (f.scopes.size + n)

section Links

variable {f g : Forest} {a : Answer} {r : Change} {s : Step} {p c i : Nat}

/-- The scopes of a nest hold each the one before, and the first one what was given. -/
theorem holds_nest {t : Nest} : ∀ {n : Nat} {f : Forest} {d : Nat}, nest t n f d = .ok g →
    (g.Holds p c ↔ f.Holds p c ∨ (0 < n ∧ p = f.scopes.size ∧ c = d) ∨
      ∃ m, m + 1 < n ∧ p = f.scopes.size + m + 1 ∧ c = f.scopes.size + m)
  | 0, f, d, h => by
      obtain rfl : f = g := Except.ok.inj h
      refine ⟨Or.inl, fun h => h.resolve_right ?_⟩
      rintro (⟨hn, _⟩ | ⟨m, hm, _⟩)
      · exact Nat.lt_irrefl 0 hn
      · exact Nat.not_lt_zero _ hm
  | n + 1, f, d, h => by
      obtain ⟨m, hm, h⟩ := Failure.bind_eq_ok.1 h
      obtain ⟨s, hs, rfl⟩ := construct_eq_ok_iff.1 hm
      rw [holds_nest h, holds_push, children_of_describe_one hs, List.mem_singleton, size_push]
      constructor
      · rintro ((hold | ⟨rfl, rfl⟩) | ⟨hn, rfl, rfl⟩ | ⟨m, hm, rfl, rfl⟩)
        · exact Or.inl hold
        · exact Or.inr (Or.inl ⟨Nat.succ_pos n, rfl, rfl⟩)
        · exact Or.inr (Or.inr ⟨0, by omega, rfl, rfl⟩)
        · exact Or.inr (Or.inr ⟨m + 1, by omega, by omega, by omega⟩)
      · rintro (hold | ⟨_, rfl, rfl⟩ | ⟨m, hm, rfl, rfl⟩)
        · exact Or.inl (Or.inl hold)
        · exact Or.inl (Or.inr ⟨rfl, rfl⟩)
        · cases m with
          | zero => exact Or.inr (Or.inl ⟨by omega, rfl, rfl⟩)
          | succ m => exact Or.inr (Or.inr ⟨m, by omega, by omega, by omega⟩)

/-- **A request that succeeds makes the links that it asks for, and no others.** -/
theorem holds_apply (h : r.apply f = .ok (g, a)) :
    g.Holds p c ↔ f.Holds p c ∨ (Step.change r).Lists f p c := by
  cases r with
  | scope id kind children bindings =>
      obtain ⟨k, cs, s, _, hcs, hs, rfl⟩ := apply_scope h
      obtain ⟨_, hvs, _⟩ := describe_eq_ok_iff.1 hs
      show (f.push s).Holds p c ↔ _
      rw [holds_push]
      refine or_congr_right ⟨?_, ?_⟩
      · rintro ⟨rfl, hc⟩
        exact .scope hcs hvs (List.mem_map_of_mem hc)
      · intro hl
        cases hl with
        | scope hcs' hvs' hc =>
            obtain rfl := Except.ok.inj (hcs.symm.trans hcs')
            obtain rfl := Except.ok.inj (hvs.symm.trans hvs')
            obtain ⟨d, hd, hdc⟩ := List.mem_map.1 hc
            exact ⟨rfl, Value.scope.inj hdc ▸ hd⟩
  | nest t child =>
      obtain ⟨d, m, hd, hm, rfl⟩ := apply_nest h
      show m.Holds p c ↔ _
      rw [holds_nest hm]
      refine or_congr_right ⟨?_, ?_⟩
      · rintro (⟨_, rfl, rfl⟩ | ⟨n, hn, rfl, rfl⟩)
        · exact .nest hd
        · exact .nested hn
      · intro hl
        cases hl with
        | nest hc => exact Or.inl ⟨t.count_pos, rfl, Option.some.inj (hc.symm.trans hd)⟩
        | nested hn => exact Or.inr ⟨_, hn, rfl, rfl⟩
  | drop id =>
      obtain ⟨_, _, rfl⟩ := release_of_apply_drop h
      exact ⟨Or.inl, fun h => h.resolve_right fun hl => nomatch hl⟩

/-- What is asked for with success is a request that was carried out. -/
theorem Step.Lists.apply (h : s.Lists f p c) (ha : (s.run f).2.outcome = .ok a) :
    ∃ r, s = .change r ∧ r.apply f = .ok ((s.run f).1, a) := by
  rcases s.run_cases f with ⟨_, hfail⟩ | ⟨r, g, b, rfl, hr, hrun⟩
  · obtain ⟨r, rfl⟩ : ∃ r, s = .change r := by cases h <;> exact ⟨_, rfl⟩
    obtain ⟨e, he⟩ := hfail r rfl
    rw [he] at ha
    cases ha
  · rw [hrun] at ha ⊢
    exact ⟨r, rfl, hr.trans (congrArg (fun x => x.map fun b => (g, b)) ha)⟩

/-- **A step that succeeds makes the links that it asks for, and no step makes others.** -/
theorem holds_run (hf : f.Sound) : (s.run f).1.Holds p c ↔
    f.Holds p c ∨ (∃ a, (s.run f).2.outcome = .ok a) ∧ s.Lists f p c := by
  constructor
  · intro h
    rcases s.run_cases f with ⟨hsame, _⟩ | ⟨r, g, a, rfl, hr, hrun⟩
    · exact Or.inl (hsame ▸ h)
    · rw [hrun] at h ⊢
      exact ((holds_apply hr).1 h).imp_right fun hl => ⟨⟨a, rfl⟩, hl⟩
  · rintro (h | ⟨⟨a, ha⟩, hl⟩)
    · exact (moves_run hf s).holds h
    · obtain ⟨r, rfl, hr⟩ := hl.apply ha
      exact (holds_apply hr).2 (Or.inr hl)

/-- A scope that is asked for is new, and what is asked for inside of it has a handle or is new
    as well. -/
theorem Step.Lists.new (hf : f.Sound) (h : s.Lists f p c) :
    ¬ f.Built p ∧ (f.held c = true ∨ ¬ f.Built c) := by
  unfold Built
  cases h with
  | scope hcs hvs hc =>
      exact ⟨Nat.lt_irrefl _, Or.inl ((held_iff hf).2 (held_of_childTerms hcs hvs hc))⟩
  | nest hc => exact ⟨Nat.lt_irrefl _, Or.inl ((held_iff hf).2 ⟨_, hc⟩)⟩
  | nested hn => exact ⟨by omega, Or.inr (by omega)⟩

/-- **Every scope that is asked for is alive once the request has succeeded.** -/
theorem alive_of_lists (hf : f.Sound) (h : r.apply f = .ok (g, a))
    (hl : (Step.change r).Lists f p c) : g.alive p = true := by
  have hg : g.Sound := (moves_apply hf h).sound hf
  cases r with
  | scope id kind children bindings =>
      obtain ⟨_, _, s, _, _, _, rfl⟩ := apply_scope h
      cases hl
      exact (alive_iff hg).2 (Or.inl (held_iff_mem.2 ⟨id, mem_hold.2 (Or.inl rfl)⟩))
  | nest t child =>
      obtain ⟨d, m, hd, hm, e⟩ := apply_nest h
      obtain ⟨_, _, hsize⟩ := moves_nest (built_of_held? hf hd) hm
      -- the outermost scope has the handle, and the others follow from there inwards
      have inward : ∀ k n, n + k + 1 = t.count → g.alive (f.scopes.size + n) = true := by
        intro k
        induction k with
        | zero =>
            intro n hn
            have hlast : m.scopes.size - 1 = f.scopes.size + n := by omega
            have hmem : (t.id, f.scopes.size + n) ∈ g.handles :=
              e ▸ hlast ▸ mem_hold.2 (Or.inl rfl)
            exact (alive_iff hg).2 (Or.inl (held_iff_mem.2 ⟨t.id, hmem⟩))
        | succ k ih =>
            intro n hn
            have hlink : g.Holds (f.scopes.size + n + 1) (f.scopes.size + n) :=
              (holds_apply h).2 (Or.inr (.nested (by omega)))
            exact alive_of_holds hg hlink (ih (n + 1) (by omega))
      have hpos := t.count_pos
      cases hl with
      | nest => exact inward (t.count - 1) 0 (by omega)
      | @nested _ _ n hn => exact inward (t.count - n - 2) (n + 1) (by omega)
  | drop id => cases hl

end Links

/-! ## 2. Handles -/

/-- The step drops the handle on scope `i`. -/
def Step.Drops (f : Forest) (i : Nat) (s : Step) : Prop :=
  ∃ id, s = .change (.drop id) ∧ f.held? id = some i

/-- The step asks for scopes under the id that holds scope `i`, which gives that handle up. -/
def Step.Reuses (f : Forest) (i : Nat) (s : Step) : Prop :=
  (∃ id kind children bindings, s = .change (.scope id kind children bindings) ∧
    f.held? id = some i) ∨
  ∃ t child, s = .change (.nest t child) ∧ f.held? t.id = some i

section Handles

variable {f g : Forest} {a : Answer} {r : Change} {s : Step} {id : String} {p i : Nat}

/-- When a handle is taken on a new scope, all others were there before. -/
theorem of_mem_hold {m : Forest} {own : String} {n : Nat} (hm : m.handles = f.handles)
    (hn : ¬ f.Built n) (h : (id, i) ∈ (m.hold own n).handles) :
    (id, i) ∈ f.handles ∨ ¬ f.Built i := by
  rcases mem_hold.1 h with e | ⟨hid, _⟩
  · cases e
    exact Or.inr hn
  · exact Or.inl (hm ▸ hid)

/-- When a handle is taken, only one under the same id is given up. -/
theorem eq_of_not_mem_hold {m : Forest} {own : String} {n : Nat} (hm : m.handles = f.handles)
    (hid : (id, i) ∈ f.handles) (hlost : (id, i) ∉ (m.hold own n).handles) : id = own :=
  Classical.byContradiction fun hne => hlost (mem_hold.2 (Or.inr ⟨hm ▸ hid, hne⟩))

/-- **A request takes handles on new scopes only, and gives up the one of its own id.** -/
theorem handles_apply (hf : f.Sound) (h : r.apply f = .ok (g, a)) :
    ((id, i) ∈ g.handles → (id, i) ∈ f.handles ∨ ¬ f.Built i) ∧
      ((id, i) ∈ f.handles → (id, i) ∉ g.handles →
        (Step.change r).Drops f i ∨ (Step.change r).Reuses f i) := by
  have lookup : (id, i) ∈ f.handles → f.held? id = some i := (held?_eq_some_iff hf).2
  cases r with
  | scope own kind children bindings =>
      obtain ⟨_, _, s, _, _, _, rfl⟩ := apply_scope h
      refine ⟨of_mem_hold rfl (Nat.lt_irrefl _), fun hid hlost => ?_⟩
      obtain rfl : id = own := eq_of_not_mem_hold rfl hid hlost
      exact Or.inr (Or.inl ⟨id, kind, children, bindings, rfl, lookup hid⟩)
  | nest t child =>
      obtain ⟨d, m, hd, hm, rfl⟩ := apply_nest h
      obtain ⟨_, hhandles, hsize⟩ := moves_nest (built_of_held? hf hd) hm
      have hpos := t.count_pos
      have hlast : ¬ f.Built (m.scopes.size - 1) := by
        unfold Built
        omega
      refine ⟨of_mem_hold hhandles hlast, fun hid hlost => ?_⟩
      have hid' : id = t.id := eq_of_not_mem_hold hhandles hid hlost
      exact Or.inr (Or.inr ⟨t, child, rfl, hid' ▸ lookup hid⟩)
  | drop own =>
      obtain ⟨_, _, rfl⟩ := release_of_apply_drop h
      refine ⟨fun hid => Or.inl (mem_release.1 hid).1, fun hid hlost => Or.inl ⟨own, rfl, ?_⟩⟩
      have hid' : id = own :=
        Classical.byContradiction fun hne => hlost (mem_release.2 ⟨hid, hne⟩)
      exact hid' ▸ lookup hid

/-- Handles are taken on new scopes only. -/
theorem held_run (hf : f.Sound) (h : (s.run f).1.held i = true) :
    f.held i = true ∨ ¬ f.Built i := by
  rcases s.run_cases f with ⟨hsame, _⟩ | ⟨r, g, a, rfl, hr, hrun⟩
  · exact Or.inl (hsame ▸ h)
  · rw [hrun] at h
    obtain ⟨id, hid⟩ := held_iff_mem.1 h
    exact ((handles_apply hf hr).1 hid).imp_left fun hid => held_iff_mem.2 ⟨id, hid⟩

/-- A handle is given up by a drop of it, or by a request under its id. -/
theorem drops_or_reuses (hf : f.Sound) (hi : f.held i = true) (hlost : (s.run f).1.held i = false) :
    s.Drops f i ∨ s.Reuses f i := by
  rcases s.run_cases f with ⟨hsame, _⟩ | ⟨r, g, a, rfl, hr, hrun⟩
  · rw [hsame, hi] at hlost
    cases hlost
  · rw [hrun] at hlost
    obtain ⟨id, hid⟩ := held_iff_mem.1 hi
    refine (handles_apply hf hr).2 hid fun hg => ?_
    rw [held_iff_mem.2 ⟨id, hg⟩] at hlost
    cases hlost

/-- **No step brings back what is gone.** -/
theorem alive_of_alive_run (hf : f.Sound) (hp : f.Built p) (h : (s.run f).1.alive p = true) :
    f.alive p = true := by
  refine alive_of_alive_later hf ((moves_run hf s).sound hf) (fun i => held_run hf) ?_ hp h
  intro q c hq
  rcases (holds_run hf).1 hq with hq | ⟨_, hl⟩
  · exact Or.inl hq
  · exact Or.inr (hl.new hf).2

/-- **What goes at a step goes with a handle that the step gives up.** -/
theorem exists_freed (hf : f.Sound) (hp : f.alive p = true) (h : (s.run f).1.alive p = false) :
    ∃ i, f.Reaches i p ∧ (s.Drops f i ∨ s.Reuses f i) := by
  have hmoves := moves_run hf s
  obtain ⟨i, hi, hlost, hr⟩ := exists_lost_handle hf (hmoves.sound hf) hmoves hp h
  exact ⟨i, hr, drops_or_reuses hf hi hlost⟩

end Handles

end TagScope

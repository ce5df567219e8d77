import TagScope.Proofs.Forest.Walks
import TagScope.Proofs.Session.Progress
/-!
# Depths in a session

How deep living scopes are, and that looking for it comes to an end, in every forest that a session
can lead to.

* `Forest.WalksEnd`: the loops over the links to parents stop and come by no scope twice; **the
  depth of a scope is the number of living scopes around it**, one more than that of its parent, and
  grows by one with each link inwards.
* `walksEnd_forestAfter`: this holds of every living scope after every session, whatever was built
  around it and whatever is gone.
-/

namespace TagScope

open Forest

/-- **Walks outwards from scope `i` end, and the depth counts the scopes on the way.** -/
structure Forest.WalksEnd (f : Forest) (i : Nat) : Prop where
  /-- No links to parents can be followed forever. -/
  ends : ∀ walk : Nat → Nat, ¬ ∀ n, f.parent? (walk n) = some (walk (n + 1))
  /-- The loop that counts, from the parent of the scope on, stops with the depth, and all scopes
      that it comes by are different ones. -/
  count : ∃ trace, Loop f.countTurn (0, f.parent? i) trace (f.depth i, none) ∧
    (i :: trace.filterMap (·.2)).Nodup
  /-- The loop that collects stops, whatever the boundary is, and all scopes that it comes by are
      different ones. What is visible is what it has found then, and what the scope wraps where it
      stops. -/
  collect : ∀ boundary, ∃ trace b found t,
    Loop (f.collectTurn boundary) (i, f.declared i) trace (b, found) ∧
      (trace.map (·.1) ++ [b]).Nodup ∧ f.scope? b = some t ∧
      f.visible (.scope i) boundary = ⟨.ok (found ++ f.wrapped t),
        if boundary.isKindOf t then [] else [.chainEnded t.kind boundary], []⟩
  /-- The depth is the number of the living scopes that the scope is inside of. -/
  around : {a | Relation.TransGen f.Holds a i ∧ f.alive a = true}.encard = f.depth i
  /-- A root has depth zero. -/
  root : f.parent? i = none → f.depth i = 0
  /-- A scope with a parent is one deeper than the parent. -/
  parent : ∀ p, f.parent? i = some p → f.depth i = f.depth p + 1
  /-- To everything inside of the scope there is a way from child to child, and what is at its end
      is deeper by the length of the way. -/
  inside : ∀ j, f.Reaches i j →
    (∃ n, f.Within i n j) ∧ ∀ n, f.Within i n j → f.depth j = f.depth i + n

theorem Forest.Sound.walksEnd {f : Forest} {i : Nat} (hf : f.Sound) (hi : f.alive i = true) :
    f.WalksEnd i where
  ends := not_endless hf
  count := by
    obtain ⟨trace, hloop, htrace⟩ := loop_count hf i 0
    rw [Nat.zero_add] at hloop
    exact ⟨trace, hloop, htrace ▸ nodup_ancestors hf i⟩
  collect boundary := by
    obtain ⟨path, b, h⟩ := exists_search hf boundary (built_of_alive hf hi)
    obtain ⟨t, ht, hvisible⟩ := visible_eq_of_search hf h
    obtain ⟨trace, hloop, htrace⟩ := loop_collect h []
    exact ⟨trace, b, _, t, hloop, htrace ▸ h.nodup hf, ht, hvisible⟩
  around := encard_around hf
  root := depth_eq_zero hf
  parent _ := depth_eq_succ hf
  inside _ h := ⟨reaches_iff_within.1 h, fun _ => depth_of_within hf hi⟩

/-- **Walks outwards end after every session**, and depths count the scopes on the way. -/
theorem walksEnd_forestAfter (steps : List Step) (i : Nat)
    (alive : (Session.forestAfter steps).alive i = true) :
    (Session.forestAfter steps).WalksEnd i :=
  (sound_forestAfter steps).walksEnd alive

/-- Four scopes, one inside of the other, of which the outermost is gone. -/
def beheaded : List Step :=
  [.change (.scope "block" (.kind .block) (.given []) (.list [])),
   .change (.scope "function" (.kind .function) (.given [.scope "block"]) (.list [])),
   .change (.scope "module" (.kind .module) (.given [.scope "function"]) (.list [])),
   .change (.scope "global" (.kind .global) (.given [.scope "module"]) (.list [])),
   .change (.drop "global")]

/-- What is gone does not count, although it was built around the others. -/
theorem walksEnd_forestAfter_beheaded :
    (Session.forestAfter beheaded).alive 0 = true ∧
      (Session.forestAfter beheaded).attached 2 = true ∧
      {a | Relation.TransGen (Session.forestAfter beheaded).Holds a 0 ∧
        (Session.forestAfter beheaded).alive a = true}.encard = 2 := by
  have alive : (Session.forestAfter beheaded).alive 0 = true := by decide +kernel
  have depth : (Session.forestAfter beheaded).depth 0 = 2 := by decide +kernel
  have around := (walksEnd_forestAfter beheaded 0 alive).around
  rw [depth] at around
  exact ⟨alive, by decide +kernel, around⟩

end TagScope

import TagScope.Proofs.Session.Progress
/-!
# Links in a session

How the children of living scopes and their parents fit together, in every forest that a session
can lead to.

* `TwoWay`: a child of a living scope lives and has that scope as its parent, a parent lives and
  has the scope among its children, no scope is a child of two, and none is inside of itself.
* `twoWay_forestAfter`: **this holds after every session**, whatever was built, refused, asked and
  dropped.
-/

namespace TagScope

open Forest

/-- **Children and parents of living scopes agree.** -/
structure Forest.TwoWay (f : Forest) : Prop where
  /-- A child of a living scope is alive, and that scope is its parent. -/
  child : ∀ p c, f.alive p = true → f.Holds p c → f.alive c = true ∧ f.parent? c = some p
  /-- The parent of a living scope is alive, and has the scope among its children. -/
  parent : ∀ p c, f.alive c = true → f.parent? c = some p → f.alive p = true ∧ f.Holds p c
  /-- No scope is a child of two living ones. -/
  single : ∀ p q c, f.alive p = true → f.alive q = true → f.Holds p c → f.Holds q c → p = q
  /-- No scope is inside of itself. -/
  acyclic : ∀ i, ¬ Relation.TransGen f.Holds i i

theorem Forest.Sound.twoWay {f : Forest} (hf : f.Sound) : f.TwoWay where
  child _ _ hp h := ⟨alive_of_holds hf h hp, (parent?_eq_some_iff hf).2 ⟨h, hp⟩⟩
  parent _ _ _ h := ((parent?_eq_some_iff hf).1 h).symm
  single _ _ _ _ _ hp hq := hf.single hp hq
  acyclic i h := Nat.lt_irrefl i (lt_of_inside hf h)

/-- **The two directions of every link agree after every session.** -/
theorem twoWay_forestAfter (steps : List Step) : (Session.forestAfter steps).TwoWay :=
  (sound_forestAfter steps).twoWay

end TagScope

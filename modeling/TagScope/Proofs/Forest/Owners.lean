import Mathlib.Logic.Relation
import TagScope.Forest
/-!
# Owners

The links of a forest go two ways: a scope lists its children, and a child knows the scope that it
was given to. The two are stored apart and written at different times.

* `Forest.Holds`: the link inwards, from a scope to its children.
* `Forest.Sound`: what every forest of a session keeps: **the links inwards and outwards agree**, a
  child is older than its holder, a handle holds a scope that was built, and no scope is held under
  two ids.
* `owners_of_holds`: in a sound forest the owners of a child are its holder and the owners of that
  one.
-/

namespace TagScope.Forest

/-! ## 1. Direct links -/

/-- Scope `p` was built around scope `c`. -/
def Holds (f : Forest) (p c : Nat) : Prop := ∃ s, f.scope? p = some s ∧ c ∈ s.children

/-- The scope with number `i` was built. -/
def Built (f : Forest) (i : Nat) : Prop := i < f.scopes.size

theorem built_iff {f : Forest} {i : Nat} : f.Built i ↔ ∃ s, f.scope? i = some s := by
  constructor
  · intro h
    exact ⟨f.scopes[i], Array.getElem?_eq_getElem h⟩
  · intro ⟨s, hs⟩
    exact (Array.getElem?_eq_some_iff.1 hs).1

theorem scope?_eq_none {f : Forest} {i : Nat} (h : ¬ f.Built i) : f.scope? i = none :=
  Array.getElem?_eq_none (Nat.le_of_not_lt h)

theorem Holds.built {f : Forest} {p c : Nat} (h : f.Holds p c) : f.Built p := by
  obtain ⟨s, hs, _⟩ := h
  exact built_iff.2 ⟨s, hs⟩

/-! ## 2. Sound forests -/

/-- **What every forest of a session keeps.** -/
structure Sound (f : Forest) : Prop where
  /-- A child is older than the scope that holds it. -/
  older : ∀ p c, f.Holds p c → c < p
  /-- A scope lists a child exactly when the child was given to it. -/
  linked : ∀ p c, f.Holds p c ↔ f.holder? c = some p
  /-- A handle holds a scope that was built. -/
  handleBuilt : ∀ id i, (id, i) ∈ f.handles → f.Built i
  /-- No scope is held under two ids. -/
  handleSingle : ∀ id id' i, (id, i) ∈ f.handles → (id', i) ∈ f.handles → id = id'
  /-- No id holds two scopes. -/
  idsDistinct : (f.handles.map (·.1)).Nodup

theorem held_iff_mem {f : Forest} {i : Nat} : f.held i = true ↔ ∃ id, (id, i) ∈ f.handles := by
  unfold held
  rw [List.any_eq_true]
  constructor
  · intro ⟨⟨id, j⟩, hm, hj⟩
    obtain rfl : j = i := eq_of_beq hj
    exact ⟨id, hm⟩
  · intro ⟨id, hm⟩
    exact ⟨(id, i), hm, beq_self_eq_true i⟩

/-! ## 3. Holders and owners -/

section Owners

variable {f : Forest} {p q c : Nat}

/-- No scope is held by two others. -/
theorem Sound.single (hf : f.Sound) (hp : f.Holds p c) (hq : f.Holds q c) : p = q :=
  Option.some.inj (((hf.linked p c).1 hp).symm.trans ((hf.linked q c).1 hq))

theorem attached_iff (hf : f.Sound) : f.attached c = true ↔ ∃ p, f.Holds p c := by
  unfold attached
  rw [Option.isSome_iff_exists]
  exact exists_congr fun p => (hf.linked p c).symm

/-- **The owners of a child are its holder and the owners of that one.** -/
theorem owners_of_holds (hf : f.Sound) (h : f.Holds p c) : f.owners c = p :: f.owners p := by
  -- every link of a sound forest leads to a later scope, so it is followed
  have hlt : c < p ∧ p < f.scopes.size := ⟨hf.older p c h, h.built⟩
  rw [owners, (hf.linked p c).1 h]
  exact if_pos hlt

theorem owners_eq_nil (hf : f.Sound) (h : ∀ p, ¬ f.Holds p c) : f.owners c = [] := by
  have hn : f.holder? c = none :=
    Option.eq_none_iff_forall_ne_some.2 fun p e => h p ((hf.linked p c).2 e)
  rw [owners, hn]

end Owners

end TagScope.Forest

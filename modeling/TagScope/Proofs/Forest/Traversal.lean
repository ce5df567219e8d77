import Mathlib.Algebra.GroupWithZero.Nat
import Mathlib.Data.List.Nodup
import TagScope.Proofs.Forest.Lifetime
/-!
# Traversals

How often a scope is listed as a child, and how often one comes by it when going through a tree
from the top.

* `Forest.listed`: the children of all living scopes, one list after the other.
* `count_listed`: **a scope stands there as often as its parent lists it**, and not at all without a
  parent.
* `Forest.preorder`: a scope, and then everything inside of it, child by child.
* `mem_preorder`: a traversal comes by the scopes of the tree and by no others.
* `count_preorder`: **it comes by a scope once for each time that it comes by the parent, and for
  each time that the parent lists the scope.**
-/

namespace TagScope.Forest

/-! ## 1. Lists of children -/

/-- The scopes directly inside of scope `i`, in order. -/
def childrenOf (f : Forest) (i : Nat) : List Nat := (f.scope? i).elim [] (·.children)

/-- The children of all living scopes, position by position. -/
def listed (f : Forest) : List Nat :=
  ((List.range f.scopes.size).filter f.alive).flatMap f.childrenOf

section Listed

variable {f : Forest} {s : Scope} {p c : Nat}

theorem childrenOf_eq (hs : f.scope? p = some s) : f.childrenOf p = s.children := by
  simp [childrenOf, hs]

theorem mem_childrenOf : c ∈ f.childrenOf p ↔ f.Holds p c := by
  unfold childrenOf Holds
  cases f.scope? p with
  | none => simp
  | some s => simp

/-- A sum whose terms are nothing but for one member of the list is that term. -/
theorem sum_map_eq_of_single {g : Nat → Nat} : ∀ {l : List Nat}, l.Nodup → p ∈ l →
    (∀ q ∈ l, q ≠ p → g q = 0) → (l.map g).sum = g p
  | q :: l, hl, hp, hzero => by
      obtain ⟨hq, hl'⟩ := List.nodup_cons.1 hl
      rw [List.map_cons, List.sum_cons]
      rcases List.mem_cons.1 hp with rfl | hp
      · have hrest : (l.map g).sum = 0 := by
          refine List.sum_eq_zero_iff_forall_eq_nat.2 fun n hn => ?_
          obtain ⟨r, hr, rfl⟩ := List.mem_map.1 hn
          exact hzero r (List.mem_cons_of_mem p hr) fun e => hq (e ▸ hr)
        omega
      · have hfirst : g q = 0 := hzero q List.mem_cons_self fun e => hq (e ▸ hp)
        have hrest := sum_map_eq_of_single hl' hp fun r hr => hzero r (List.mem_cons_of_mem q hr)
        omega

/-- **A scope is listed as often as its parent lists it.** -/
theorem count_listed (hf : f.Sound) (hp : f.parent? c = some p) :
    f.listed.count c = (f.childrenOf p).count c := by
  obtain ⟨hholds, hal⟩ := (parent?_eq_some_iff hf).1 hp
  unfold listed
  rw [List.count_flatMap]
  refine sum_map_eq_of_single (List.nodup_range.filter _) ?_ ?_
  · exact List.mem_filter.2 ⟨List.mem_range.2 hholds.built, hal⟩
  · intro q _ hne
    refine List.count_eq_zero.2 fun hc => hne ?_
    exact hf.single (mem_childrenOf.1 hc) hholds

/-- A scope without a parent is not listed. -/
theorem count_listed_of_root (hf : f.Sound) (hp : f.parent? c = none) : f.listed.count c = 0 := by
  refine List.count_eq_zero.2 fun hc => ?_
  obtain ⟨q, hq, hc⟩ := List.mem_flatMap.1 hc
  have hal : f.alive q = true := (List.mem_filter.1 hq).2
  rw [(parent?_eq_none_iff hf).1 hp q (mem_childrenOf.1 hc)] at hal
  cases hal

end Listed

/-! ## 2. From the top inwards -/

/-- Scope `i`, and then what is inside of each of its children, in order. What is inside is older;
    a link that does not lead to an older scope is not followed. -/
def preorder (f : Forest) (i : Nat) : List Nat :=
  i :: (f.childrenOf i).flatMap fun c => if _h : c < i then preorder f c else []
termination_by i

section Preorder

variable {f : Forest} {i j p : Nat}

/-- **A traversal goes through a scope, and then through its children.** -/
theorem preorder_eq (hf : f.Sound) (i : Nat) :
    f.preorder i = i :: (f.childrenOf i).flatMap f.preorder := by
  rw [preorder]
  congr 1
  refine congrArg List.flatten (List.map_congr_left fun c hc => ?_)
  exact dif_pos (hf.older i c (mem_childrenOf.1 hc))

/-- What is inside of a scope, or that scope, is not newer. -/
theorem le_of_reaches (hf : f.Sound) (h : f.Reaches i j) : j ≤ i := by
  rcases Relation.reflTransGen_iff_eq_or_transGen.1 h with rfl | h
  · exact Nat.le_refl j
  · exact Nat.le_of_lt (lt_of_inside hf h)

/-- **A traversal comes by the scopes that are inside, and by no others.** -/
theorem mem_preorder (hf : f.Sound) : j ∈ f.preorder i ↔ f.Reaches i j := by
  induction i using Nat.strongRecOn with
  | ind i ih =>
      rw [preorder_eq hf, List.mem_cons, List.mem_flatMap]
      constructor
      · rintro (rfl | ⟨c, hc, hj⟩)
        · exact .refl
        · have hholds := mem_childrenOf.1 hc
          exact ((ih c (hf.older i c hholds)).1 hj).head hholds
      · intro h
        rcases h.cases_head with rfl | ⟨c, hc, hj⟩
        · exact Or.inl rfl
        · exact Or.inr ⟨c, mem_childrenOf.2 hc, (ih c (hf.older i c hc)).2 hj⟩

theorem count_preorder_of_outside (hf : f.Sound) (h : ¬ f.Reaches i j) :
    (f.preorder i).count j = 0 :=
  List.count_eq_zero.2 fun hj => h ((mem_preorder hf).1 hj)

/-- A traversal of what is inside of the children does not come back to the scope. -/
theorem count_preorder_self (hf : f.Sound) : (f.preorder i).count i = 1 := by
  have hrest : ((f.childrenOf i).flatMap f.preorder).count i = 0 := by
    refine List.count_eq_zero.2 fun h => ?_
    obtain ⟨c, hc, h⟩ := List.mem_flatMap.1 h
    have hlt : c < i := hf.older i c (mem_childrenOf.1 hc)
    have hle : i ≤ c := le_of_reaches hf ((mem_preorder hf).1 h)
    omega
  rw [preorder_eq hf, List.count_cons_self, hrest]

/-- Counting in two lists at once: each member adds what is counted of `j` there, and `m` times
    what is counted of the other one. -/
theorem sum_map_eq_count_add {g h : Nat → Nat} {m : Nat} : ∀ {l : List Nat},
    (∀ c ∈ l, g c = (if c = j then 1 else 0) + h c * m) →
      (l.map g).sum = l.count j + (l.map h).sum * m
  | [], _ => by simp
  | c :: l, hg => by
      have hc := hg c List.mem_cons_self
      have hrest := sum_map_eq_count_add (l := l) fun d hd => hg d (List.mem_cons_of_mem c hd)
      rw [List.map_cons, List.map_cons, List.sum_cons, List.sum_cons, List.count_cons, hc, hrest,
        Nat.add_mul]
      simp only [beq_iff_eq]
      omega

/-- **How often a traversal comes by a scope** is how often it comes by the parent, times how often
    the parent lists the scope. -/
theorem count_preorder (hf : f.Sound) (hp : f.Holds p j) (hij : i ≠ j) :
    (f.preorder i).count j = (f.preorder i).count p * (f.childrenOf p).count j := by
  have hlt : j < p := hf.older p j hp
  induction i using Nat.strongRecOn with
  | ind i ih =>
      -- through which child it goes makes no difference
      have hchild : ∀ c ∈ f.childrenOf i, (f.preorder c).count j =
          (if c = j then 1 else 0) + (f.preorder c).count p * (f.childrenOf p).count j := by
        intro c hc
        by_cases hcj : c = j
        · subst hcj
          have hout : ¬ f.Reaches c p := fun h => by
            have := le_of_reaches hf h
            omega
          rw [count_preorder_self hf, count_preorder_of_outside hf hout, if_pos rfl, Nat.zero_mul]
        · rw [ih c (hf.older i c (mem_childrenOf.1 hc)) hcj, if_neg hcj, Nat.zero_add]
      have hsum := sum_map_eq_count_add hchild
      rw [preorder_eq hf, List.count_cons_of_ne hij, List.count_cons, List.count_flatMap,
        List.count_flatMap]
      simp only [Function.comp_def, hsum, beq_iff_eq, Nat.add_mul]
      by_cases hip : i = p
      · subst hip
        simp
        omega
      · have hnot : (f.childrenOf i).count j = 0 :=
          List.count_eq_zero.2 fun h => hip (hf.single (mem_childrenOf.1 h) hp)
        simp [hip, hnot]

/-- **Where no scope of the tree lists a child twice, a traversal comes by each scope once.** -/
theorem count_preorder_of_nodup (hf : f.Sound) (hj : f.Reaches i j)
    (hdup : ∀ p, f.Reaches i p → (f.childrenOf p).Nodup) : (f.preorder i).count j = 1 := by
  induction hj with
  | refl => exact count_preorder_self hf
  | @tail p c hr hp ih =>
      have hle : p ≤ i := le_of_reaches hf hr
      have hlt : c < p := hf.older p c hp
      have honce : (f.childrenOf p).count c = 1 :=
        List.count_eq_one_of_mem (hdup p hr) (mem_childrenOf.2 hp)
      rw [count_preorder hf hp (by omega), ih, honce]

end Preorder

end TagScope.Forest

import Mathlib.Data.Set.Card
import TagScope.Proofs.Forest.Search
import TagScope.Proofs.Forest.Traversal
/-!
# Walks outwards

The loops that follow the links to parents, turn by turn. Nothing about a link says that a loop over
it comes to an end: it does because a scope is older than the one that it is given to.

* `Loop`: a loop from a state to the one where it stops, with the states on the way.
* `Forest.countTurn`, `Forest.collectTurn`: one turn of the loop that counts the scopes around a
  scope, and of the one that collects what they declare up to a boundary.
* `not_endless`: **links to parents cannot be followed forever.**
* `loop_count`, `loop_collect`: **both loops stop**, the first one at the depth of the scope.
* `nodup_ancestors`, `Search.nodup`: they come by no scope twice.
* `mem_ancestors`, `encard_around`: **the depth is the number of living scopes around a scope.**
* `Forest.Within`, `depth_of_within`: it grows by one with each link inwards.
-/

namespace TagScope

/-! ## 1. Loops -/

/-- **A loop from a state to the one where it stops**, with the states that it leaves on the way. -/
inductive Loop {σ : Type} (turn : σ → Option σ) : σ → List σ → σ → Prop
  | stop {a : σ} (h : turn a = none) : Loop turn a [] a
  | next {a b c : σ} {rest : List σ} (h : turn a = some b) (hrest : Loop turn b rest c) :
      Loop turn a (a :: rest) c

namespace Forest

/-- A turn of the loop that counts: one scope more, and on to its parent. -/
def countTurn (f : Forest) : Nat × Option Nat → Option (Nat × Option Nat)
  | (_, none) => none
  | (n, some i) => some (n + 1, f.parent? i)

/-- A turn of the loop that collects: if the scope is not of the kind that the boundary is, and has
    a parent, on to the parent and what that one declares. -/
def collectTurn (f : Forest) (boundary : Value) :
    Nat × List Binding → Option (Nat × List Binding)
  | (i, found) =>
    if (f.scope? i).any boundary.isKindOf then none
    else (f.parent? i).map fun p => (p, found ++ f.declared p)

section Walks

variable {f : Forest} {k : Value} {i j a b p n : Nat} {path : List Nat}

/-! ## 2. The way out -/

/-- A parent is newer than the scope, and was built. -/
theorem lt_of_parent? (hf : f.Sound) (h : f.parent? i = some p) : i < p ∧ f.Built p := by
  obtain ⟨hp, _⟩ := (parent?_eq_some_iff hf).1 h
  exact ⟨hf.older p i hp, hp.built⟩

/-- **Links to parents cannot be followed forever**: each leads to a newer scope. -/
theorem not_endless (hf : f.Sound) (walk : Nat → Nat) :
    ¬ ∀ n, f.parent? (walk n) = some (walk (n + 1)) := by
  intro h
  have hge : ∀ n, n ≤ walk n := by
    intro n
    induction n with
    | zero => exact Nat.zero_le _
    | succ n ih =>
        have hlt := (lt_of_parent? hf (h n)).1
        omega
  have hbuilt : walk (f.scopes.size + 1) < f.scopes.size := (lt_of_parent? hf (h _)).2
  have hlast := hge (f.scopes.size + 1)
  omega

/-- An induction from the root of a chain inwards: what holds of a scope if it holds of its parent
    holds of all. -/
theorem induction_parent (hf : f.Sound) {P : Nat → Prop}
    (step : ∀ i, (∀ p, f.parent? i = some p → P p) → P i) (i : Nat) : P i := by
  by_cases hb : f.Built i
  · refine induction_inwards (P := P) (fun c _ ih => step c fun p hp => ?_) i hb
    obtain ⟨hlt, hbuilt⟩ := lt_of_parent? hf hp
    exact ih p hlt hbuilt
  · refine step i fun p hp => absurd ?_ hb
    obtain ⟨hlt, hbuilt⟩ := lt_of_parent? hf hp
    exact Nat.lt_trans hlt hbuilt

theorem depth_eq_zero (hf : f.Sound) (h : f.parent? i = none) : f.depth i = 0 := by
  unfold depth
  rw [ancestors_eq_nil hf h, List.length_nil]

/-- **A scope is one deeper than its parent.** -/
theorem depth_eq_succ (hf : f.Sound) (h : f.parent? i = some p) : f.depth i = f.depth p + 1 := by
  unfold depth
  rw [ancestors_eq_cons hf h, List.length_cons]

/-- **The ancestors of a scope are the living scopes around it.** -/
theorem mem_ancestors (hf : f.Sound) :
    a ∈ f.ancestors i ↔ Relation.TransGen f.Holds a i ∧ f.alive a = true := by
  induction i using induction_parent hf with
  | step i ih =>
      cases hp : f.parent? i with
      | none =>
          rw [ancestors_eq_nil hf hp]
          refine iff_of_false List.not_mem_nil fun ⟨hinside, hal⟩ => ?_
          obtain ⟨q, hq, hlast⟩ := Relation.TransGen.tail'_iff.1 hinside
          have hdead := (parent?_eq_none_iff hf).1 hp q hlast
          rw [alive_of_reaches hf hal hq] at hdead
          cases hdead
      | some p =>
          obtain ⟨hholds, hal⟩ := (parent?_eq_some_iff hf).1 hp
          rw [ancestors_eq_cons hf hp, List.mem_cons, ih p hp]
          constructor
          · rintro (rfl | ⟨hinside, ha⟩)
            · exact ⟨.single hholds, hal⟩
            · exact ⟨hinside.tail hholds, ha⟩
          · rintro ⟨hinside, ha⟩
            obtain ⟨q, hq, hlast⟩ := Relation.TransGen.tail'_iff.1 hinside
            obtain rfl := hf.single hholds hlast
            rcases Relation.reflTransGen_iff_eq_or_transGen.1 hq with rfl | hq
            · exact Or.inl rfl
            · exact Or.inr ⟨hq, ha⟩

/-- **A walk outwards comes by no scope twice**, nor back to where it began. -/
theorem nodup_ancestors (hf : f.Sound) (i : Nat) : (i :: f.ancestors i).Nodup := by
  induction i using induction_parent hf with
  | step i ih =>
      have hout : i ∉ f.ancestors i := fun h =>
        Nat.lt_irrefl i (lt_of_inside hf ((mem_ancestors hf).1 h).1)
      refine List.nodup_cons.2 ⟨hout, ?_⟩
      cases hp : f.parent? i with
      | none =>
          rw [ancestors_eq_nil hf hp]
          exact List.nodup_nil
      | some p =>
          rw [ancestors_eq_cons hf hp]
          exact ih p hp

/-- **The depth of a scope is the number of living scopes around it.** -/
theorem encard_around (hf : f.Sound) :
    {a | Relation.TransGen f.Holds a i ∧ f.alive a = true}.encard = f.depth i := by
  have hset : {a | Relation.TransGen f.Holds a i ∧ f.alive a = true}
      = ((f.ancestors i).toFinset : Set Nat) := by
    ext a
    rw [List.coe_toFinset]
    exact (mem_ancestors hf).symm
  have hnodup : (f.ancestors i).Nodup := (List.nodup_cons.1 (nodup_ancestors hf i)).2
  rw [hset, Set.encard_coe_eq_coe_finsetCard, List.toFinset_card_of_nodup hnodup]
  rfl

/-! ## 3. The loop that counts -/

/-- **The loop that counts stops at the depth of the scope**, and comes by its ancestors one after
    the other. -/
theorem loop_count (hf : f.Sound) (i n : Nat) :
    ∃ trace, Loop f.countTurn (n, f.parent? i) trace (n + f.depth i, none) ∧
      trace.filterMap (·.2) = f.ancestors i := by
  induction i using induction_parent hf generalizing n with
  | step i ih =>
      cases hp : f.parent? i with
      | none =>
          rw [depth_eq_zero hf hp, ancestors_eq_nil hf hp]
          exact ⟨[], .stop rfl, rfl⟩
      | some p =>
          obtain ⟨trace, hloop, htrace⟩ := ih p hp (n + 1)
          have hend : n + f.depth i = n + 1 + f.depth p := by
            rw [depth_eq_succ hf hp]
            omega
          refine ⟨(n, some p) :: trace, hend ▸ .next rfl hloop, ?_⟩
          rw [ancestors_eq_cons hf hp]
          exact congrArg (p :: ·) htrace

/-! ## 4. The loop that collects -/

/-- **A search comes by no scope twice.** -/
theorem Search.nodup (hf : f.Sound) (h : f.Search k i path b) : (path ++ [b]).Nodup := by
  induction h with
  | found => exact List.nodup_singleton _
  | root => exact List.nodup_singleton _
  | @outward i p b s path _ _ hp rest ih =>
      refine List.nodup_cons.2 ⟨fun hi => ?_, ih⟩
      -- what is passed later on is the parent, or newer
      have hon : i ∈ path ∨ i = b := (List.mem_append.1 hi).imp_right List.mem_singleton.1
      have hle : p ≤ i := le_of_reaches hf ((rest.outwards i hon).reaches hf)
      have hlt := (lt_of_parent? hf hp).1
      omega

theorem collectTurn_eq (found : List Binding) : f.collectTurn k (i, found)
    = if (f.scope? i).any k.isKindOf then none
      else (f.parent? i).map fun p => (p, found ++ f.declared p) := rfl

/-- The loop that collects stops at a scope of the kind that the boundary is. -/
theorem collectTurn_of_found {s : Scope} (hs : f.scope? i = some s) (hk : k = .kind s.kind)
    (found : List Binding) : f.collectTurn k (i, found) = none := by
  rw [collectTurn_eq, hs, Option.any_some, isKindOf_iff.2 hk]
  rfl

/-- The loop that collects stops at a scope without a parent. -/
theorem collectTurn_of_root (hp : f.parent? i = none) (found : List Binding) :
    f.collectTurn k (i, found) = none := by
  rw [collectTurn_eq, hp]
  split <;> rfl

/-- The loop that collects goes on to the parent of a scope of another kind. -/
theorem collectTurn_of_outward {s : Scope} (hs : f.scope? i = some s) (hk : k ≠ .kind s.kind)
    (hp : f.parent? i = some p) (found : List Binding) :
    f.collectTurn k (i, found) = some (p, found ++ f.declared p) := by
  have go : k.isKindOf s = false := Bool.eq_false_iff.2 fun e => hk (isKindOf_iff.1 e)
  rw [collectTurn_eq, hs, hp, Option.any_some, go]
  rfl

/-- **The loop that collects goes the way of the search**, and has at its end what the scopes on the
    way declare. -/
theorem loop_collect (h : f.Search k i path b) (found : List Binding) :
    ∃ trace, Loop (f.collectTurn k) (i, found ++ f.declared i) trace
        (b, found ++ (path ++ [b]).flatMap f.declared) ∧
      trace.map (·.1) = path := by
  induction h generalizing found with
  | found hs hk =>
      rw [List.nil_append, List.flatMap_singleton]
      exact ⟨[], .stop (collectTurn_of_found hs hk _), rfl⟩
  | root hs hk hp =>
      rw [List.nil_append, List.flatMap_singleton]
      exact ⟨[], .stop (collectTurn_of_root hp _), rfl⟩
  | @outward i p b s path hs hk hp rest ih =>
      obtain ⟨trace, hloop, htrace⟩ := ih (found ++ f.declared i)
      refine ⟨(i, found ++ f.declared i) :: trace, ?_, congrArg (i :: ·) htrace⟩
      rw [List.cons_append, List.flatMap_cons, ← List.append_assoc]
      exact .next (collectTurn_of_outward hs hk hp _) hloop

/-! ## 5. Inwards -/

/-- Scope `j` is `n` links inwards from scope `i`, from child to child. -/
inductive Within (f : Forest) (i : Nat) : Nat → Nat → Prop
  | self : Within f i 0 i
  | child {n p c : Nat} (h : Within f i n p) (hc : f.Holds p c) : Within f i (n + 1) c

theorem reaches_iff_within : f.Reaches i j ↔ ∃ n, f.Within i n j := by
  constructor
  · intro h
    induction h with
    | refl => exact ⟨0, .self⟩
    | tail _ hc ih =>
        obtain ⟨n, hn⟩ := ih
        exact ⟨n + 1, hn.child hc⟩
  · intro ⟨n, h⟩
    induction h with
    | self => exact .refl
    | child _ hc ih => exact ih.tail hc

/-- **The depth grows by one with each link inwards** from a living scope. -/
theorem depth_of_within (hf : f.Sound) (hi : f.alive i = true) (h : f.Within i n j) :
    f.depth j = f.depth i + n := by
  induction h with
  | self => rfl
  | @child n p c h hc ih =>
      have hp : f.alive p = true := alive_of_reaches hf hi (reaches_iff_within.2 ⟨n, h⟩)
      have hparent : f.parent? c = some p := (parent?_eq_some_iff hf).2 ⟨hc, hp⟩
      rw [depth_eq_succ hf hparent, ih]
      omega

end Walks

end Forest

end TagScope

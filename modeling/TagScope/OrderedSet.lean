/-!
# Ordered sets

A finite set is kept as the list of its members in strictly increasing order, so that what is shown
does not hang on how the set came about.

* `OrderedSet.insert`: members that the order does not tell apart count as one; **the one that is
  there stays**.
* `OrderedSet.mem_ofList`: a member that the order tells from all others is in the set of a list
  exactly when it is in the list, whatever the order and the repetitions of the list.
* `OrderedSet.ext_mem`: two sets with the same members are the same set.
-/

namespace TagScope

/-- The order `<` is strict: nothing is below itself, and what is below is so all the way. -/
class StrictOrder (α : Type) [LT α] : Prop where
  irrefl : ∀ a : α, ¬ a < a
  trans : ∀ {a b c : α}, a < b → b < c → a < c

instance : StrictOrder String := ⟨String.lt_irrefl, String.lt_trans⟩

/-! ## 1. Adding to an ordered list -/

section Place

variable {α : Type} [LT α] [DecidableLT α]

/-- Puts `x` at its place among members in increasing order, unless one that the order does not
    tell from `x` is there already. -/
@[specialize] def place (x : α) : List α → List α
  | [] => [x]
  | y :: l => if x < y then x :: y :: l else if y < x then y :: place x l else y :: l

theorem mem_of_mem_place {x z : α} : ∀ {l : List α}, z ∈ place x l → z = x ∨ z ∈ l
  | [], h => .inl (List.mem_singleton.1 h)
  | y :: l, h => by
    rw [place] at h
    split at h
    · exact List.mem_cons.1 h
    · split at h
      · rcases List.mem_cons.1 h with rfl | h
        · exact .inr List.mem_cons_self
        · exact (mem_of_mem_place h).imp id (List.mem_cons_of_mem _)
      · exact .inr h

theorem mem_place_of_mem {x z : α} : ∀ {l : List α}, z ∈ l → z ∈ place x l
  | y :: l, h => by
    rw [place]
    split
    · exact List.mem_cons_of_mem _ h
    · split
      · rcases List.mem_cons.1 h with rfl | h
        · exact List.mem_cons_self
        · exact List.mem_cons_of_mem _ (mem_place_of_mem h)
      · exact h

/-- What was added is there, or something that the order does not tell from it. -/
theorem exists_mem_place [StrictOrder α] (x : α) : ∀ l : List α,
    ∃ z ∈ place x l, ¬ x < z ∧ ¬ z < x
  | [] => ⟨x, List.mem_singleton_self x, StrictOrder.irrefl x, StrictOrder.irrefl x⟩
  | y :: l => by
    rw [place]
    split
    · exact ⟨x, List.mem_cons_self, StrictOrder.irrefl x, StrictOrder.irrefl x⟩
    · split
      · obtain ⟨z, hz, h⟩ := exists_mem_place x l
        exact ⟨z, List.mem_cons_of_mem _ hz, h⟩
      · exact ⟨y, List.mem_cons_self, ‹_›, ‹_›⟩

/-- **The order is kept.** -/
theorem pairwise_place [StrictOrder α] {x : α} :
    ∀ {l : List α}, l.Pairwise (· < ·) → (place x l).Pairwise (· < ·)
  | [], _ => List.pairwise_singleton _ _
  | y :: l, hl => by
    obtain ⟨hy, hl'⟩ := List.pairwise_cons.1 hl
    rw [place]
    split
    · next h =>
      refine List.pairwise_cons.2 ⟨fun z hz => ?_, hl⟩
      rcases List.mem_cons.1 hz with rfl | hz
      · exact h
      · exact StrictOrder.trans h (hy z hz)
    · split
      · next h =>
        refine List.pairwise_cons.2 ⟨fun z hz => ?_, pairwise_place hl'⟩
        rcases mem_of_mem_place hz with rfl | hz
        · exact h
        · exact hy z hz
      · exact hl

end Place

/-! ## 2. The type -/

/-- A finite set of members of an ordered type. -/
@[ext] structure OrderedSet (α : Type) [LT α] where
  /-- The members, in order. -/
  toList : List α
  /-- The members stand in strictly increasing order. -/
  increasing : toList.Pairwise (· < ·)

namespace OrderedSet

variable {α : Type} [LT α]

instance : EmptyCollection (OrderedSet α) := ⟨[], List.Pairwise.nil⟩

instance : Membership α (OrderedSet α) := ⟨fun s x => x ∈ s.toList⟩

/-- The set with one member more. -/
@[inline] def insert [DecidableLT α] [StrictOrder α] (x : α) (s : OrderedSet α) : OrderedSet α :=
  ⟨place x s.toList, pairwise_place s.increasing⟩

/-- The set of the members of a list, of which the first come first. -/
@[inline] def ofList [DecidableLT α] [StrictOrder α] (l : List α) : OrderedSet α :=
  l.foldl (fun s x => s.insert x) ∅

/-! ## 3. Members -/

variable {x y : α} {s t : OrderedSet α} {l : List α}

/-- **A set is determined by its members.** -/
theorem ext_mem [StrictOrder α] (h : ∀ x, x ∈ s ↔ x ∈ t) : s = t := by
  have nodup : ∀ u : OrderedSet α, u.toList.Nodup := fun u =>
    u.increasing.imp fun {a b} (hab : a < b) => by
      rintro rfl
      exact StrictOrder.irrefl a hab
  refine OrderedSet.ext (@List.Perm.eq_of_pairwise _ (· < ·) _ _ ?_ s.increasing t.increasing
    ((List.perm_ext_iff_of_nodup (nodup s) (nodup t)).2 h))
  exact fun a b _ _ hab hba => absurd (StrictOrder.trans hab hba) (StrictOrder.irrefl a)

theorem mem_toList : x ∈ s.toList ↔ x ∈ s := Iff.rfl

@[simp] theorem not_mem_empty : x ∉ (∅ : OrderedSet α) := List.not_mem_nil

/-- The order tells `x` from everything else. -/
def Separated (x : α) : Prop := ∀ y : α, ¬ x < y → ¬ y < x → x = y

variable [DecidableLT α] [StrictOrder α]

theorem mem_insert (hx : Separated x) : x ∈ s.insert y ↔ x = y ∨ x ∈ s := by
  refine ⟨mem_of_mem_place, ?_⟩
  intro h
  rcases h with rfl | h
  · obtain ⟨z, hz, h₁, h₂⟩ := exists_mem_place x s.toList
    exact hx z h₁ h₂ ▸ hz
  · exact mem_place_of_mem h

theorem mem_ofList (hx : Separated x) : x ∈ ofList l ↔ x ∈ l := by
  suffices h : ∀ (l : List α) (s : OrderedSet α),
      x ∈ l.foldl (fun s x => s.insert x) s ↔ x ∈ s ∨ x ∈ l by
    simpa [ofList] using h l ∅
  intro l
  induction l with
  | nil => simp
  | cons y l ih =>
    intro s
    rw [List.foldl_cons, ih, mem_insert hx, List.mem_cons, or_assoc, or_left_comm]

/-- Nothing but members of the list gets into its set. -/
theorem mem_of_mem_ofList (h : x ∈ ofList l) : x ∈ l := by
  suffices hl : ∀ (l : List α) (s : OrderedSet α),
      x ∈ l.foldl (fun s x => s.insert x) s → x ∈ s ∨ x ∈ l from
    (hl l ∅ h).resolve_left not_mem_empty
  intro l
  induction l with
  | nil => exact fun _ => Or.inl
  | cons y l ih =>
    intro s h
    rcases ih _ h with h | h
    · rcases mem_of_mem_place h with rfl | h
      · exact Or.inr List.mem_cons_self
      · exact Or.inl h
    · exact Or.inr (List.mem_cons_of_mem _ h)

/-- Each member of the list is in its set, or something that the order does not tell from it. -/
theorem exists_mem_ofList (h : x ∈ l) : ∃ z ∈ ofList l, ¬ x < z ∧ ¬ z < x := by
  suffices hl : ∀ (l : List α) (s : OrderedSet α),
      ((∃ z ∈ s, ¬ x < z ∧ ¬ z < x) ∨ x ∈ l) →
        ∃ z ∈ l.foldl (fun s x => s.insert x) s, ¬ x < z ∧ ¬ z < x from hl l ∅ (Or.inr h)
  intro l
  induction l with
  | nil => exact fun _ h => h.resolve_right List.not_mem_nil
  | cons y l ih =>
    intro s h
    refine ih (s.insert y) ?_
    rcases h with ⟨z, hz, h⟩ | h
    · exact Or.inl ⟨z, mem_place_of_mem hz, h⟩
    · rcases List.mem_cons.1 h with rfl | h
      · exact Or.inl (exists_mem_place x s.toList)
      · exact Or.inr h

end OrderedSet

theorem separated_text (s : String) : OrderedSet.Separated s :=
  fun _ h₁ h₂ => String.le_antisymm (String.not_lt.1 h₂) (String.not_lt.1 h₁)

example : (OrderedSet.ofList ["b", "a", "b", "ab"]).toList = ["a", "ab", "b"] := by decide

end TagScope

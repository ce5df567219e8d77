import TagScope.Proofs.Forest.Resolution
import TagScope.Proofs.Session.Visibility
/-!
# Units in a session

A unit is checked element by element. What this means for a unit that is made of two.

* `examineAll_append`: **a unit in two parts is checked as the first part, and then, if that one
  came to its end, as the second.** There is no other connection between the parts.
* `reports_paired`: a unit of names with scopes has one diagnostic for each element that nothing
  binds, in their order.
* `examineUnit_append`: both, in every forest that a session can lead to.
-/

namespace TagScope

namespace Forest

/-! ## 1. Two parts -/

section Append

variable {f : Forest} {policy : Value} {xs ys : List Element}

/-- **The check of two parts is the check of the first one, and then that of the other.** -/
theorem examineAll_append : f.examineAll policy (xs ++ ys) =
    (f.examineAll policy xs).andThen fun _ => f.examineAll policy ys := by
  induction xs with
  | nil => exact (Traced.ofExcept_ok_andThen () fun _ => f.examineAll policy ys).symm
  | cons e xs ih =>
      rw [List.cons_append, examineAll_cons, examineAll_cons]
      simp only [Traced.andThen_assoc, ih]

/-- What a failure leaves of a unit does not depend on what would have come after it. -/
theorem examineUnit_append_of_error {e : Failure}
    (hx : (f.examineUnit (.given xs) policy).result = .error e) :
    f.examineUnit (.given (xs ++ ys)) policy = f.examineUnit (.given xs) policy := by
  rw [examineUnit_given] at hx
  rw [examineUnit_given, examineUnit_given, examineAll_append]
  rcases h : f.examineAll policy xs with ⟨result, notes, reports⟩
  rw [h] at hx
  obtain rfl : result = .error e := hx
  rfl

/-- After a part without a failure the unit goes on as if it began there. -/
theorem examineUnit_append_of_ok (hx : (f.examineUnit (.given xs) policy).result = .ok ()) :
    f.examineUnit (.given (xs ++ ys)) policy =
      ⟨(f.examineUnit (.given ys) policy).result,
        (f.examineUnit (.given xs) policy).notes ++ (f.examineUnit (.given ys) policy).notes,
        (f.examineUnit (.given xs) policy).reports ++ (f.examineUnit (.given ys) policy).reports⟩ := by
  rw [examineUnit_given] at hx
  rw [examineUnit_given, examineUnit_given, examineUnit_given, examineAll_append]
  rcases h : f.examineAll policy xs with ⟨result, notes, reports⟩
  rw [h] at hx
  obtain rfl : result = .ok () := hx
  rfl

end Append

/-! ## 2. Names with scopes -/

/-- Whether the verdict on a name used in a scope is that nothing binds it. -/
def isUnbound (f : Forest) (c : Policy) (e : Value × Nat) : Bool :=
  match (f.examine e.1 (.scope e.2) (.policy c)).result with
  | .ok (some .unbound) => true
  | _ => false

section Paired

variable {f : Forest} {c : Policy}

theorem isUnbound_iff {e : Value × Nat} : f.isUnbound c e = true ↔
    (f.examine e.1 (.scope e.2) (.policy c)).result = .ok (some .unbound) := by
  unfold isUnbound
  split
  · next h => exact iff_of_true rfl h
  · next h => exact iff_of_false nofun h

/-- An element has one diagnostic when nothing binds it, and none otherwise. -/
theorem reports_examine (hf : f.Sound) {e : Value × Nat} (hi : f.Built e.2) :
    (f.examine e.1 (.scope e.2) (.policy c)).reports.map some =
      if f.isUnbound c e then [e.1.reference?.map Reference.diagnostic] else [] := by
  by_cases h : ∃ r, f.Unbound c e.1 e.2 r
  · obtain ⟨r, hr⟩ := h
    obtain ⟨notes, he⟩ := examine_of_unbound hf hi hr
    rw [if_pos (isUnbound_iff.2 (congrArg Traced.result he)), he, hr.1]
    rfl
  · obtain ⟨verdict, notes, he, hverdict⟩ := examine_of_not_unbound hf hi fun r hr => h ⟨r, hr⟩
    have hbound : ¬ f.isUnbound c e = true := fun hu =>
      hverdict (Except.ok.inj ((congrArg Traced.result he).symm.trans (isUnbound_iff.1 hu)))
    rw [if_neg hbound, he]
    rfl

/-- **Each element that nothing binds has its own diagnostic**, and there are no others. -/
theorem reports_paired (hf : f.Sound) (es : List (Value × Nat)) (hes : ∀ e ∈ es, f.Built e.2) :
    (f.examineUnit (.given (paired es)) (.policy c)).reports.map some =
      (es.filter (f.isUnbound c)).map fun e => e.1.reference?.map Reference.diagnostic := by
  rw [(examineUnit_paired hf es hes).2]
  induction es with
  | nil => rfl
  | cons e es ih =>
      obtain ⟨he, hes⟩ := List.forall_mem_cons.1 hes
      rw [List.flatMap_cons, List.map_append, ih hes, reports_examine hf he, List.filter_cons]
      cases f.isUnbound c e <;> rfl

end Paired

end Forest

open Forest

/-! ## 3. Every session -/

/-- **Units are checked part by part.** A failure in the first part is that of the whole unit, which
    leaves the same trace whatever comes after; after a first part without a failure the second one
    is checked as if it stood alone. A unit of names with living scopes is checked to its end, with
    one diagnostic for each element whose verdict is that nothing binds it, in their order. -/
theorem examineUnit_append (steps : List Step) (policy : Value) (xs ys : List Element) :
    let f := Session.forestAfter steps
    let unit := fun es => f.examineUnit (.given es) policy
    (∀ e, (unit xs).result = .error e → unit (xs ++ ys) = unit xs) ∧
    (∀ e, (unit xs).result = .ok () → (unit ys).result = .error e →
      unit (xs ++ ys) = ⟨.error e, (unit xs).notes ++ (unit ys).notes,
        (unit xs).reports ++ (unit ys).reports⟩) ∧
    ((unit xs).result = .ok () → (unit ys).result = .ok () →
      unit (xs ++ ys) = ⟨.ok (), (unit xs).notes ++ (unit ys).notes,
        (unit xs).reports ++ (unit ys).reports⟩) ∧
    ∀ (c : Policy) (es : List (Value × Nat)), (∀ e ∈ es, f.alive e.2 = true) →
      (f.examineUnit (.given (paired es)) (.policy c)).result = .ok () ∧
        (f.examineUnit (.given (paired es)) (.policy c)).reports.map some =
          (es.filter (f.isUnbound c)).map fun e => e.1.reference?.map Reference.diagnostic := by
  intro f unit
  have hf : f.Sound := sound_forestAfter steps
  refine ⟨fun e hx => examineUnit_append_of_error hx, fun e hx hy => ?_, fun hx hy => ?_,
    fun c es hes => ?_⟩
  · rw [← hy]
    exact examineUnit_append_of_ok hx
  · rw [← hy]
    exact examineUnit_append_of_ok hx
  · have hbuilt : ∀ e ∈ es, f.Built e.2 := fun e he => built_of_alive hf (hes e he)
    exact ⟨(examineUnit_paired hf es hbuilt).1, reports_paired hf es hbuilt⟩

/-- One name, used twice in `wrappedModule`. -/
def repeated : List (Value × Nat) :=
  [(.name (.simple (.plain "A" (by decide)) none), 2),
    (.name (.simple (.plain "A" (by decide)) none), 3)]

/-- The name is reported twice, and an element that is no pair ends the unit after that. -/
theorem examineUnit_append_repeated :
    (∀ e ∈ repeated, (Session.forestAfter wrappedModule).alive e.2 = true) ∧
      ((Session.forestAfter wrappedModule).examineUnit (.given (paired repeated))
        (.policy ⟨false, true⟩)).reports.length = 2 ∧
      ((Session.forestAfter wrappedModule).examineUnit (.given (paired repeated ++ [.sequence []]))
        (.policy ⟨false, true⟩)).result = .error (.tooFew 0) := by
  have alive : ∀ e ∈ repeated, (Session.forestAfter wrappedModule).alive e.2 = true := by
    decide +kernel
  have unbound : (repeated.filter
      ((Session.forestAfter wrappedModule).isUnbound ⟨false, true⟩)).length = 2 := by decide +kernel
  obtain ⟨_, second, _, checked⟩ :=
    examineUnit_append wrappedModule (.policy ⟨false, true⟩) (paired repeated) [.sequence []]
  obtain ⟨first, reports⟩ := checked ⟨false, true⟩ repeated alive
  have count := congrArg List.length reports
  rw [List.length_map, List.length_map, unbound] at count
  exact ⟨alive, count, congrArg Traced.result (second (.tooFew 0) first rfl)⟩

end TagScope

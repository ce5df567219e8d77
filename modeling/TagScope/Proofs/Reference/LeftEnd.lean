import TagScope.Proofs.Reading.Inverse
import TagScope.Session.Step
/-!
# The left end of a name

Which identifier an element name refers to, told by how the name is put together: one name that is
no path, and the properties that are added to it.

* `ElementName.extend`: a name with properties added from left to right; every name is one
  (`exists_extend`), and only the first property matters for its reference.
* `Marked`: a text has a place that tells the name of a built-in element; `intrinsic` finds out
  (`intrinsic_iff`).
* `reference_eq_leftEnd`: **properties and their locations never matter, but that there are some
  does**: then a built-in name is a reference like any other, and a name with a colon is none.
-/

namespace TagScope

/-! ## 1. Names with properties -/

namespace ElementName

/-- The name with properties added one after the other, each with the location of the longer
    name. -/
def extend (r : ElementName) (ps : List (Identifier × Option Location)) : ElementName :=
  ps.foldl (fun o p => .member o p.1 p.2) r

/-- Whether a name is no path. -/
def isRoot : ElementName → Bool
  | .member .. => false
  | _ => true

section Extend

variable {r : ElementName} {p : Identifier × Option Location}
  {ps : List (Identifier × Option Location)}

/-- The property that is added last is the outermost one. -/
theorem extend_concat : r.extend (ps ++ [p]) = .member (r.extend ps) p.1 p.2 :=
  List.foldl_append

/-- **Every name is a name that is no path, with properties.** -/
theorem exists_extend (n : ElementName) : ∃ r ps, r.isRoot = true ∧ n = extend r ps := by
  induction n with
  | simple n l => exact ⟨.simple n l, [], rfl, rfl⟩
  | member o p l ih =>
      obtain ⟨r, ps, hr, rfl⟩ := ih
      exact ⟨r, ps ++ [(p, l)], hr, (extend_concat (p := (p, l))).symm⟩
  | namespaced s n l => exact ⟨.namespaced s n l, [], rfl, rfl⟩

/-- **Of the properties only the first one matters**: what a name with one property refers to, it
    refers to with more of them. -/
theorem reference?_extend_cons :
    (r.extend (p :: ps)).reference? = (member r p.1 p.2).reference? := by
  induction ps generalizing r p with
  | nil => rfl
  | cons q ps ih =>
      -- another property leaves the left end where it is
      have hroot : (member (member r p.1 p.2) q.1 q.2).reference? = (member r p.1 p.2).reference? :=
        rfl
      exact (ih (r := member r p.1 p.2) (p := q)).trans hroot

/-- **Adding properties by constructor calls comes to the same name**, and no call fails. -/
theorem foldlM_buildMember :
    ps.foldlM (fun v p => Value.buildMember v (.ofIdentifier p.1) (.ofLocation? p.2)) (.name r)
      = .ok (.name (r.extend ps)) := by
  induction ps generalizing r with
  | nil => rfl
  | cons p ps ih =>
      rw [List.foldlM_cons, Value.buildMember_ofIdentifier]
      exact ih

end Extend

end ElementName

/-! ## 2. Names of built-in elements -/

/-- **Some place in a text marks it as the name of a built-in element**: a small letter with nothing
    before it, or a hyphen with anything before it. -/
def Marked (s : String) : Prop :=
  ∃ before c after, s.toList = before ++ c :: after ∧
    (before = [] ∧ 'a' ≤ c ∧ c ≤ 'z' ∨ c = '-')

theorem isSmallLetter_iff {c : Char} : isSmallLetter c = true ↔ 'a' ≤ c ∧ c ≤ 'z' := by
  unfold isSmallLetter
  rw [Bool.and_eq_true, decide_eq_true_iff, decide_eq_true_iff]

/-- **A name is taken for a built-in one exactly when some place in it marks it.** -/
theorem intrinsic_iff {s : String} : intrinsic s = true ↔ Marked s := by
  unfold intrinsic Marked
  rw [Bool.or_eq_true, List.any_eq_true]
  constructor
  · rintro (hfirst | ⟨c, hc, hyphen⟩)
    · cases hs : s.toList with
      | nil =>
          rw [hs] at hfirst
          cases hfirst
      | cons c after =>
          rw [hs] at hfirst
          exact ⟨[], c, after, rfl, Or.inl ⟨rfl, isSmallLetter_iff.1 hfirst⟩⟩
    · obtain ⟨before, after, hs⟩ := List.append_of_mem hc
      exact ⟨before, c, after, hs, Or.inr (beq_iff_eq.1 hyphen)⟩
  · rintro ⟨before, c, after, hs, ⟨rfl, hletter⟩ | rfl⟩
    · left
      rw [hs]
      exact isSmallLetter_iff.2 hletter
    · refine Or.inr ⟨'-', ?_, beq_self_eq_true '-'⟩
      rw [hs]
      exact List.mem_append_right before List.mem_cons_self

example : intrinsic "A\nb" = false ∧ intrinsic "é" = false ∧ intrinsic "A\nb-" = true := by decide

/-! ## 3. References -/

/-- **Where the reference of a name comes from.** -/
structure Value.LeftEnd : Prop where
  /-- Every element name has a left end that is no path, and constructor calls add properties to
      it. -/
  built : ∀ n : ElementName, ∃ (r : ElementName) (ps : List (Identifier × Option Location)),
    r.isRoot = true ∧ n = r.extend ps ∧
    ps.foldlM (fun v p => Value.buildMember v (.ofIdentifier p.1) (.ofLocation? p.2)) (.name r)
      = .ok (.name n)
  /-- A bare name alone refers to itself unless it is marked, which can be told of every name. -/
  bare : ∀ n l, ∃ b, (Value.ofIdentifier n).isIntrinsic = .ok b ∧ (b = true ↔ Marked n.text) ∧
    (Value.name (.simple n l)).reference? = if b then none else some ⟨n, l⟩
  /-- Whatever is added to a bare name, it refers to itself, marked or not. -/
  path : ∀ n l p ps,
    (Value.name (.extend (.simple n l) (p :: ps))).reference? = some ⟨n, l⟩
  /-- A name with a colon alone refers to what stands before the colon. -/
  colon : ∀ s n l, (Value.name (.namespaced s n l)).reference? = some ⟨s, l⟩
  /-- Whatever is added to a name with a colon, it refers to nothing. -/
  colonPath : ∀ s n l p ps,
    (Value.name (.extend (.namespaced s n l) (p :: ps))).reference? = none
  /-- What is no element name refers to nothing. -/
  others : ∀ v : Value, (∃ n, v = .name n) ∨ v.reference? = none
  /-- A question for the reference of a value is answered, whatever the value is. -/
  answered : ∀ (f : Forest) (t : Term) (v : Value), t.eval f = .ok v →
    (Query.reference t).answer f = .ok (.reference (v.reference?.map (·.toValue.toTerm f)))

/-- **Every value is told what it refers to by its left end.** -/
theorem reference_eq_leftEnd : Value.LeftEnd where
  built n := by
    obtain ⟨r, ps, hr, rfl⟩ := n.exists_extend
    exact ⟨r, ps, hr, rfl, ElementName.foldlM_buildMember⟩
  bare n l := by
    refine ⟨intrinsic n.text, ?_, intrinsic_iff, rfl⟩
    rw [Value.isIntrinsic]
    cases n <;> rfl
  path _ _ _ _ := ElementName.reference?_extend_cons
  colon _ _ _ := rfl
  colonPath _ _ _ _ _ := ElementName.reference?_extend_cons
  others v := by
    cases v with
    | name n => exact Or.inl ⟨n, rfl⟩
    | _ => exact Or.inr rfl
  answered f t v ht := by
    rw [Query.answer, ht]
    rfl

end TagScope

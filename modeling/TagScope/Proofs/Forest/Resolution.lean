import TagScope.Examination
import TagScope.Proofs.Forest.Search
/-!
# Resolution

When a name is bound in a living scope, and what a check of elements hands over.

* `Forest.Sees`: a name is declared in a scope that the search for a boundary looks into.
* `verdictOn_of_text`: **a text is bound exactly when it is seen, and a verdict is always reached.**
* `Forest.Unbound`: an element has a reference that is not to the receiver and that nothing binds.
* `examineUnit_paired`: **a unit with scopes that were built is checked to its end**; it has the
  diagnostics of its elements, one after the other.
-/

namespace TagScope

/-! ## 1. Texts among bindings -/

/-- A text equals a binding when the binding is the same name. -/
theorem Value.same_text {v : Value} {n : String} (hv : v.text? = some n) (x : Binding) :
    v.same (.datum x.toDatum) = true ↔ x = .text n := by
  cases v with
  | datum d =>
      cases d with
      | text s =>
          obtain rfl : s = n := Option.some.inj hv
          cases x with
          | text t => exact beq_iff_eq.trans ⟨fun e => e ▸ rfl, fun e => (Binding.text.inj e).symm⟩
          | _ => exact ⟨nofun, nofun⟩
      | _ => cases hv
  | sourceType t =>
      obtain rfl : t.word = n := Option.some.inj hv
      cases x with
      | text s => exact beq_iff_eq.trans ⟨fun e => e ▸ rfl, fun e => (Binding.text.inj e).symm⟩
      | _ => exact ⟨nofun, nofun⟩
  | _ => cases hv

/-- **A text can always be looked up**, and it is found when it was declared as a name. -/
theorem Value.isAmong_of_text {v : Value} {n : String} (hv : v.text? = some n)
    (bs : List Binding) : v.isAmong bs = .ok (decide (.text n ∈ bs)) := by
  have hmember : v.toMember = .ok v := by
    cases v with
    | datum d =>
        cases d with
        | text => rfl
        | _ => cases hv
    | sourceType => rfl
    | _ => cases hv
  have hfound : (bs.any fun x => v.same (.datum x.toDatum)) = decide (.text n ∈ bs) := by
    rw [Bool.eq_iff_iff, List.any_eq_true, decide_eq_true_iff]
    constructor
    · intro ⟨x, hx, hs⟩
      exact (same_text hv x).1 hs ▸ hx
    · intro hn
      exact ⟨.text n, hn, (same_text hv _).2 rfl⟩
  unfold isAmong
  rw [hmember]
  exact congrArg Except.ok hfound

/-- An identifier is a text, also as a value. -/
theorem Value.text?_ofIdentifier (n : Identifier) : (ofIdentifier n).text? = some n.text := by
  cases n <;> rfl

namespace Forest

/-! ## 2. Names -/

/-- **Name `n` is seen from scope `i`** up to a boundary. -/
def Sees (f : Forest) (boundary : Value) (i : Nat) (n : String) : Prop :=
  ∃ path b j, f.Search boundary i path b ∧ f.LookedInto path b j ∧ f.Declares j (.text n)

section Verdict

variable {f : Forest} {c : Policy} {v : Value} {n : String} {i : Nat}

/-- What a search sees is what its scopes declare, since there is no other search. -/
theorem sees_iff {boundary : Value} {path : List Nat} {b : Nat} (h : f.Search boundary i path b) :
    f.Sees boundary i n ↔ ∃ j, f.LookedInto path b j ∧ f.Declares j (.text n) := by
  constructor
  · intro ⟨path', b', j, h', hj, hn⟩
    obtain ⟨rfl, rfl⟩ := h.unique h'
    exact ⟨j, hj, hn⟩
  · intro ⟨j, hj, hn⟩
    exact ⟨path, b, j, h, hj, hn⟩

/-- **The names that are seen are those in the visible set**, whatever else is in it. -/
theorem exists_visibleSet (hf : f.Sound) (boundary : Value) (hi : f.Built i) :
    ∃ set, (f.visibleSet (.scope i) boundary).result = .ok set ∧
      ∀ n, .text n ∈ set ↔ f.Sees boundary i n := by
  obtain ⟨path, b, h⟩ := exists_search hf boundary hi
  obtain ⟨t, bs, _, hset, hbs⟩ := visibleSet_of_search hf h
  refine ⟨.ofList bs, congrArg Traced.result hset, fun n => ?_⟩
  rw [OrderedSet.mem_ofList (Binding.separated_text n), hbs, sees_iff h]

/-- **A text is bound exactly when it is seen up to the boundary of the policy.** Nothing is handed
    over, and the only notes are those of the search. -/
theorem verdictOn_of_text (hf : f.Sound) (hi : f.Built i) (hv : v.text? = some n) :
    ∃ verdict, f.verdictOn v (.scope i) (.policy c)
        = ⟨.ok verdict, (f.visible (.scope i) (.kind c.boundary)).notes, []⟩ ∧
      (verdict = .bound ↔ f.Sees (.kind c.boundary) i n) := by
  obtain ⟨path, b, h⟩ := exists_search hf (.kind c.boundary) hi
  obtain ⟨t, bs, _, hvisible, hbs⟩ := visible_of_search hf h
  refine ⟨if decide (.text n ∈ bs) then .bound else .unbound, ?_, ?_⟩
  · unfold verdictOn
    show (Traced.ofExcept (.ok c.boundary) >>= _) = _
    rw [Traced.ofExcept_ok_bind, hvisible]
    show Traced.andThen _ _ = _
    simp only [Traced.andThen, Value.isAmong_of_text hv]
    rw [Traced.ofExcept_ok_bind]
    exact congrArg (fun notes => Traced.mk _ notes []) (List.append_nil _)
  · rw [sees_iff h, ← hbs]
    by_cases hn : .text n ∈ bs
    · simp [hn]
    · simp [hn]

theorem verdictOn_bound_iff (hf : f.Sound) (hi : f.Built i) (hv : v.text? = some n) :
    (f.verdictOn v (.scope i) (.policy c)).result = .ok .bound ↔
      f.Sees (.kind c.boundary) i n := by
  obtain ⟨verdict, hverdict, hsees⟩ := verdictOn_of_text (c := c) hf hi hv
  rw [hverdict, ← hsees]
  exact ⟨Except.ok.inj, congrArg Except.ok⟩

theorem verdictOn_unbound_iff (hf : f.Sound) (hi : f.Built i) (hv : v.text? = some n) :
    (f.verdictOn v (.scope i) (.policy c)).result = .ok .unbound ↔
      ¬ f.Sees (.kind c.boundary) i n := by
  obtain ⟨verdict, hverdict, hsees⟩ := verdictOn_of_text (c := c) hf hi hv
  rw [hverdict, ← hsees]
  cases verdict with
  | bound => exact ⟨nofun, fun h => absurd rfl h⟩
  | unbound => exact ⟨fun _ => nofun, fun _ => rfl⟩

end Verdict

/-! ## 3. Elements -/

/-- **Nothing binds the reference `r` of an element**, and it is not to the receiver. -/
def Unbound (f : Forest) (c : Policy) (node : Value) (i : Nat) (r : Reference) : Prop :=
  node.reference? = some r ∧ r.name.text ≠ receiverName ∧
    ¬ f.Sees (.kind c.boundary) i r.name.text

/-- The elements that some names make with the scopes in which they are used. -/
def paired (es : List (Value × Nat)) : List Element :=
  es.map fun e => .sequence [e.1, .scope e.2]

section Examine

variable {f : Forest} {c : Policy} {node : Value} {i : Nat} {r : Reference}

/-- What refers to nothing is skipped, before anything is looked at. -/
theorem examine_of_no_reference {scope policy : Value} (href : node.reference? = none) :
    f.examine node scope policy = ⟨.ok none, [.skipped node], []⟩ := by
  unfold examine
  simp only [href]
  rfl

/-- The receiver is bound, before anything is looked at. -/
theorem examine_of_receiver {scope policy : Value} (href : node.reference? = some r)
    (hthis : r.name.text = receiverName) :
    f.examine node scope policy = ⟨.ok (some .bound), [], []⟩ := by
  unfold examine
  simp only [href, if_pos hthis]
  rfl

/-- **An element that refers to a name other than the receiver is checked for that name.** The notes
    are those of the search, and only when nothing binds the name there is one more note, and a
    diagnostic. -/
theorem examine_of_reference (hf : f.Sound) (hi : f.Built i) (href : node.reference? = some r)
    (hthis : r.name.text ≠ receiverName) :
    ∃ verdict, (verdict = .bound ↔ f.Sees (.kind c.boundary) i r.name.text) ∧
      f.examine node (.scope i) (.policy c)
        = ⟨.ok (some verdict),
          (f.visible (.scope i) (.kind c.boundary)).notes
            ++ (if verdict = .unbound then [.unbound r] else []),
          if verdict = .unbound then [r.diagnostic] else []⟩ := by
  obtain ⟨verdict, hverdict, hbound⟩ :=
    verdictOn_of_text (c := c) hf hi (Value.text?_ofIdentifier r.name)
  refine ⟨verdict, hbound, ?_⟩
  unfold examine
  simp only [href, if_neg hthis, hverdict]
  cases verdict <;> rfl

/-- An unbound reference is handed over, and nothing else. -/
theorem examine_of_unbound (hf : f.Sound) (hi : f.Built i) (hr : f.Unbound c node i r) :
    ∃ notes, f.examine node (.scope i) (.policy c)
      = ⟨.ok (some .unbound), notes, [r.diagnostic]⟩ := by
  obtain ⟨href, hthis, hsees⟩ := hr
  obtain ⟨verdict, hbound, e⟩ := examine_of_reference (c := c) hf hi href hthis
  cases verdict with
  | bound => exact absurd (hbound.1 rfl) hsees
  | unbound => exact ⟨_, e⟩

/-- **Where every reference is bound nothing is handed over.** -/
theorem examine_of_not_unbound (hf : f.Sound) (hi : f.Built i)
    (hr : ∀ r, ¬ f.Unbound c node i r) :
    ∃ verdict notes, f.examine node (.scope i) (.policy c) = ⟨.ok verdict, notes, []⟩ ∧
      verdict ≠ some .unbound := by
  cases href : node.reference? with
  | none => exact ⟨none, _, examine_of_no_reference href, nofun⟩
  | some r =>
      by_cases hthis : r.name.text = receiverName
      · exact ⟨some .bound, _, examine_of_receiver href hthis, nofun⟩
      · obtain ⟨verdict, hbound, e⟩ := examine_of_reference (c := c) hf hi href hthis
        obtain rfl : verdict = .bound :=
          hbound.2 (Classical.byContradiction fun hsees => hr r ⟨href, hthis, hsees⟩)
        exact ⟨some .bound, _, e, nofun⟩

/-- **Where one check finds a reference unbound only if another check does, it hands over what the
    other one does, or nothing.** The two may be made in different forests. -/
theorem examine_reports_sublist {g : Forest} {d : Policy} {node' : Value} {j : Nat} (hf : f.Sound)
    (hi : f.Built i) (hg : g.Sound) (hj : g.Built j)
    (h : ∀ r, f.Unbound c node i r → g.Unbound d node' j r) :
    (f.examine node (.scope i) (.policy c)).reports.Sublist
      (g.examine node' (.scope j) (.policy d)).reports := by
  by_cases hr : ∃ r, f.Unbound c node i r
  · obtain ⟨r, hr⟩ := hr
    obtain ⟨_, e⟩ := examine_of_unbound hf hi hr
    obtain ⟨_, e'⟩ := examine_of_unbound hg hj (h r hr)
    have same := (congrArg Traced.reports e).trans (congrArg Traced.reports e').symm
    exact same ▸ List.Sublist.refl _
  · obtain ⟨_, _, e, _⟩ := examine_of_not_unbound hf hi fun r h => hr ⟨r, h⟩
    rw [e]
    exact List.nil_sublist _

/-- A check in a scope that was built reaches an answer. -/
theorem exists_examine (hf : f.Sound) (hi : f.Built i) :
    ∃ verdict notes reports, f.examine node (.scope i) (.policy c)
      = ⟨.ok verdict, notes, reports⟩ := by
  by_cases h : ∃ r, f.Unbound c node i r
  · obtain ⟨r, hr⟩ := h
    obtain ⟨notes, e⟩ := examine_of_unbound hf hi hr
    exact ⟨_, notes, _, e⟩
  · obtain ⟨verdict, notes, e, _⟩ := examine_of_not_unbound hf hi fun r hr => h ⟨r, hr⟩
    exact ⟨verdict, notes, _, e⟩

/-- One element, and then the others. -/
theorem examineAll_cons {policy : Value} {e : Element} {es : List Element} :
    f.examineAll policy (e :: es) =
      (Traced.ofExcept e.toPair).andThen fun pair =>
        (f.examine pair.1 pair.2 policy).andThen fun _ => f.examineAll policy es := rfl

/-- The elements of a unit that is given are at hand. -/
theorem examineUnit_given {policy : Value} {es : List Element} :
    f.examineUnit (.given es) policy = f.examineAll policy es :=
  Traced.ofExcept_ok_bind es _

/-- **A unit is checked to its end**, and its diagnostics are those of its elements in order. -/
theorem examineUnit_paired (hf : f.Sound) (es : List (Value × Nat))
    (hes : ∀ e ∈ es, f.Built e.2) :
    (f.examineUnit (.given (paired es)) (.policy c)).result = .ok () ∧
      (f.examineUnit (.given (paired es)) (.policy c)).reports
        = es.flatMap fun e => (f.examine e.1 (.scope e.2) (.policy c)).reports := by
  rw [examineUnit_given]
  induction es with
  | nil => exact ⟨rfl, rfl⟩
  | cons e es ih =>
      obtain ⟨verdict, notes, reports, he⟩ : ∃ verdict notes reports,
          f.examine e.1 (.scope e.2) (.policy c) = ⟨.ok verdict, notes, reports⟩ :=
        exists_examine hf (hes e List.mem_cons_self)
      obtain ⟨hresult, hreports⟩ := ih fun e' he' => hes e' (List.mem_cons_of_mem e he')
      have hstep : f.examineAll (.policy c) (paired (e :: es))
          = (f.examine e.1 (.scope e.2) (.policy c)).andThen
              fun _ => f.examineAll (.policy c) (paired es) :=
        examineAll_cons.trans (Traced.ofExcept_ok_andThen _ _)
      rw [hstep, List.flatMap_cons, he]
      exact ⟨hresult, congrArg (reports ++ ·) hreports⟩

end Examine

end Forest

end TagScope

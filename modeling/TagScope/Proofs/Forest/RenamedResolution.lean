import TagScope.Proofs.Forest.Renaming
/-!
# Resolution under other numbers

Names are resolved in two forests that differ only in the numbers of their scopes.

* `Traced.renamed`, `bind_renamed`: a computation with other numbers in its notes.
* `Renamed.note_line`: a note gives the same line of the log.
* `Renamed.visible`: the same is visible from a scope under its other number.
* `Renamed.examine`, `Renamed.examineUnit`: **elements are checked alike, with the same notes and the
  same diagnostics.**
-/

namespace TagScope

/-! ## 1. Traces -/

/-- A note with other numbers. -/
def Note.renamed (ρ : Nat → Nat) : Note → Note
  | .chainEnded last boundary => .chainEnded last (boundary.renamed ρ)
  | .skipped node => .skipped (node.renamed ρ)
  | .unbound r => .unbound r

namespace Traced

variable {α α' β β' : Type} {ρ : Nat → Nat} {φ : α → α'} {ψ : β → β'}

/-- The computation with another result, and with other numbers in its notes. -/
def renamed (ρ : Nat → Nat) (φ : α → α') (t : Traced α) : Traced α' :=
  ⟨t.result.map φ, t.notes.map (Note.renamed ρ), t.reports⟩

theorem ofExcept_renamed {r : Except Failure α} {r' : Except Failure α'} (h : r' = r.map φ) :
    ofExcept r' = (ofExcept r).renamed ρ φ := by
  subst h
  rfl

/-- **Two traced computations in a row correspond when the first ones do, and the second ones do on
    what comes of these.** -/
theorem bind_renamed {t : Traced α} {t' : Traced α'} {k : α → Traced β} {k' : α' → Traced β'}
    (ht : t' = t.renamed ρ φ) (hk : ∀ a, t.result = .ok a → k' (φ a) = (k a).renamed ρ ψ) :
    (t' >>= k') = (t >>= k).renamed ρ ψ := by
  subst ht
  obtain ⟨r, notes, reports⟩ := t
  cases r with
  | error e => rfl
  | ok a =>
      show Traced.mk (k' (φ a)).result (_ ++ (k' (φ a)).notes) (_ ++ (k' (φ a)).reports) = _
      rw [hk a rfl]
      show _ = Traced.mk _ ((notes ++ (k a).notes).map (Note.renamed ρ)) _
      rw [List.map_append]
      rfl

end Traced

open Traced

namespace Forest.Renamed

variable {σ : Equiv.Perm Nat} {f g : Forest}

theorem note_line (h : Renamed σ f g) (n : Note) : (n.renamed σ).line g = n.line f := by
  cases n with
  | chainEnded last boundary =>
      show _ ++ (boundary.renamed σ).shown g ++ _ = _ ++ boundary.shown f ++ _
      rw [h.value_shown]
  | skipped node =>
      show _ ++ (node.renamed σ).shown g ++ _ = _ ++ node.shown f ++ _
      rw [h.value_shown]
  | unbound r => rfl

/-! ## 2. Resolution -/

/-- A climb that does not look at numbers sees the same and ends at the same scope. -/
theorem climb_renamed {stop : Scope → Bool} {ρ : Nat → Nat}
    (hstop : ∀ s, stop (s.renamed ρ) = stop s) : ∀ (around : List Scope) (s : Scope),
    climb stop (s.renamed ρ) (around.map (Scope.renamed ρ))
      = { climb stop s around with last := (climb stop s around).last.renamed ρ }
  | [], s => by
      rw [List.map_nil, climb, climb, hstop]
      rfl
  | p :: around, s => by
      rw [List.map_cons, climb, climb, hstop, climb_renamed hstop around p]
      cases stop s <;> rfl

theorem firstChild? (h : Renamed σ f g) (s : Scope) :
    g.firstChild? (s.renamed σ) = (f.firstChild? s).map (Scope.renamed σ) := by
  unfold Forest.firstChild?
  rw [Scope.renamed, List.head?_map]
  cases s.children.head? with
  | none => rfl
  | some c => exact h.scope? c

theorem wrapped (h : Renamed σ f g) (s : Scope) : g.wrapped (s.renamed σ) = f.wrapped s := by
  unfold Forest.wrapped
  rw [h.firstChild?]
  cases f.firstChild? s with
  | none => rfl
  | some c =>
      simp only [Option.map_some, h.firstChild?]
      cases f.firstChild? c <;> rfl

theorem toChain (h : Renamed σ f g) (v : Value) : g.toChain (v.renamed σ)
    = (f.toChain v).map (Prod.map (Scope.renamed σ) (List.map (Scope.renamed σ))) := by
  cases v with
  | scope i =>
      have around : (g.ancestors (σ i)).filterMap g.scope?
          = ((f.ancestors i).filterMap f.scope?).map (Scope.renamed σ) := by
        rw [h.ancestors, List.filterMap_map, List.map_filterMap]
        exact congrArg (List.filterMap · _) (funext h.scope?)
      simp only [Value.renamed, Forest.toChain, h.scope?, around]
      cases f.scope? i <;> rfl
  | _ => rfl

/-- **The same is visible from a scope under its other number.** -/
theorem visible (h : Renamed σ f g) (scope boundary : Value) :
    g.visible (scope.renamed σ) (boundary.renamed σ)
      = (f.visible scope boundary).renamed σ id := by
  refine bind_renamed (ofExcept_renamed (h.toChain scope)) fun ⟨s, around⟩ _ => ?_
  have hclimb : climb (boundary.renamed σ).isKindOf (s.renamed σ) (around.map (Scope.renamed σ))
      = { climb boundary.isKindOf s around with
          last := (climb boundary.isKindOf s around).last.renamed σ } := by
    rw [Value.isKindOf_renamed]
    exact climb_renamed (fun s => by cases boundary <;> rfl) around s
  simp only [Prod.map_apply, hclimb, h.wrapped]
  cases (climb boundary.isKindOf s around).reached <;> rfl

theorem visibleSet (h : Renamed σ f g) (scope boundary : Value) :
    g.visibleSet (scope.renamed σ) (boundary.renamed σ)
      = (f.visibleSet scope boundary).renamed σ id :=
  bind_renamed (h.visible scope boundary) fun _ _ => rfl

theorem verdictOn (h : Renamed σ f g) (name scope policy : Value) :
    g.verdictOn (name.renamed σ) (scope.renamed σ) (policy.renamed σ)
      = (f.verdictOn name scope policy).renamed σ id := by
  have hpolicy : (policy.renamed σ).toBoundary = policy.toBoundary.map id := by
    rw [Value.toBoundary_renamed]
    cases policy.toBoundary <;> rfl
  refine bind_renamed (ofExcept_renamed hpolicy) fun k _ => ?_
  refine bind_renamed (h.visible scope (.kind k)) fun bs _ => ?_
  have hamong : (name.renamed σ).isAmong bs = (name.isAmong bs).map id := by
    rw [Value.isAmong_renamed]
    cases name.isAmong bs <;> rfl
  exact bind_renamed (ofExcept_renamed hamong) fun _ _ => rfl

/-- **An element is checked alike**, and the same is reported. -/
theorem examine (h : Renamed σ f g) (node scope policy : Value) :
    g.examine (node.renamed σ) (scope.renamed σ) (policy.renamed σ)
      = (f.examine node scope policy).renamed σ id := by
  unfold Forest.examine
  rw [Value.reference?_renamed]
  cases node.reference? with
  | none => rfl
  | some r =>
      by_cases hr : r.name.text = receiverName
      · simp only [if_pos hr]
        rfl
      · simp only [if_neg hr]
        have hverdict := h.verdictOn (.ofIdentifier r.name) scope policy
        rw [Value.renamed_ofIdentifier] at hverdict
        refine bind_renamed hverdict fun v _ => ?_
        cases v <;> rfl

end Forest.Renamed

/-! ## 3. Units -/

/-- An element to check, with other numbers. -/
def Element.renamed (ρ : Nat → Nat) : Element → Element
  | .sequence vs => .sequence (vs.map (Value.renamed ρ))
  | .raw d => .raw d

theorem Element.toPair_renamed (ρ : Nat → Nat) (e : Element) : (e.renamed ρ).toPair
    = e.toPair.map (Prod.map (Value.renamed ρ) (Value.renamed ρ)) := by
  have ofList : ∀ vs : List Value, Element.toPair.ofList (vs.map (Value.renamed ρ))
      = (Element.toPair.ofList vs).map (Prod.map (Value.renamed ρ) (Value.renamed ρ))
    | [] | [_] | [_, _] | _ :: _ :: _ :: _ => rfl
  cases e with
  | sequence vs => exact ofList vs
  | raw d =>
      simp only [Element.renamed, Element.toPair]
      cases d.items? with
      | none => rfl
      | some items =>
          refine Eq.trans ?_ (ofList (items.map .datum))
          rw [List.map_map]
          rfl

/-- The elements to check, with other numbers. -/
def Elements.renamed (ρ : Nat → Nat) : Elements → Elements
  | .given es => .given (es.map (Element.renamed ρ))
  | .raw d => .raw d

theorem Elements.toList_renamed (ρ : Nat → Nat) (es : Elements) :
    (es.renamed ρ).toList = es.toList.map (List.map (Element.renamed ρ)) := by
  cases es with
  | given es => rfl
  | raw d =>
      simp only [Elements.renamed, Elements.toList]
      cases d.items? with
      | none => rfl
      | some items => simp [Except.map, Function.comp_def, Element.renamed]

namespace Forest.Renamed

variable {σ : Equiv.Perm Nat} {f g : Forest}

theorem examineAll (h : Renamed σ f g) (policy : Value) : ∀ es : List Element,
    g.examineAll (policy.renamed σ) (es.map (Element.renamed σ))
      = (f.examineAll policy es).renamed σ id
  | [] => rfl
  | e :: es =>
      bind_renamed (ofExcept_renamed (e.toPair_renamed σ)) fun ⟨node, scope⟩ _ =>
        bind_renamed (h.examine node scope policy) fun _ _ => h.examineAll policy es

/-- **A unit is checked alike**: the same diagnostics in the same order. -/
theorem examineUnit (h : Renamed σ f g) (es : Elements) (policy : Value) :
    g.examineUnit (es.renamed σ) (policy.renamed σ)
      = (f.examineUnit es policy).renamed σ id :=
  bind_renamed (ofExcept_renamed (Elements.toList_renamed σ es)) fun es _ =>
    h.examineAll policy es

end Forest.Renamed

end TagScope

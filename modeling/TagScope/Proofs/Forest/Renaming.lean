import Mathlib.Data.List.Basic
import Mathlib.Logic.Equiv.Defs
import TagScope.Examination
import TagScope.Proofs.Forest.Construction
import TagScope.Proofs.Value.Renaming
import TagScope.Term
/-!
# Forests under other numbers

The number of a scope only says when it was built. Two forests that have the same scopes under
different numbers cannot be told apart by anything that speaks of scopes through their handles and
their labels.

* `Forest.Renamed`: a permutation of the numbers takes one forest to another one, and **every link
  still leads from an older scope to a newer one or still does not**; `Renamed.of_sound`: between
  sound forests there is nothing to check about links.
* `Renamed.alive`, `Renamed.ancestors`, `Renamed.shown`: what can be said about one scope.
* `Renamed.value_shown`, `Renamed.value_toTerm`: how a value is written down.
* `Renamed.describe`: what a scope is like that is built from given arguments.
* `Renamed.push`, `Renamed.hold`, `Renamed.release`: **the forests stay so when they are changed in
  the same way**; `Renamed.nest`, `Renamed.copied`: in many steps.
-/

namespace TagScope

open Failure

/-! ## 1. Two forests -/

/-- The scope with other numbers for its children and for the scope that it was given to. -/
def Scope.renamed (ρ : Nat → Nat) (s : Scope) : Scope :=
  { s with children := s.children.map ρ, holder := s.holder.map ρ }

theorem Scope.renamed_eq_self {ρ : Nat → Nat} {s : Scope} (hc : ∀ c ∈ s.children, ρ c = c)
    (hp : ∀ p, s.holder = some p → ρ p = p) : s.renamed ρ = s := by
  have hchildren : s.children.map ρ = s.children :=
    (List.map_congr_left hc).trans (List.map_id' s.children)
  have hholder : s.holder.map ρ = s.holder := by
    cases h : s.holder with
    | none => rfl
    | some p => exact congrArg some (hp p h)
  rw [Scope.renamed, hchildren, hholder]

/-- A scope that was given away since. -/
theorem Scope.renamed_attached {ρ : Nat → Nat} {s : Scope} {p : Nat} :
    Scope.renamed ρ { s with holder := some p } = { s.renamed ρ with holder := some (ρ p) } := rfl

/-- The children to try, with other numbers. -/
def Children.renamed (ρ : Nat → Nat) : Children → Children
  | .given vs => .given (vs.map (Value.renamed ρ))
  | .raw d => .raw d

theorem Children.renamed_id (cs : Children) : cs.renamed id = cs := by
  cases cs with
  | given vs =>
      exact congrArg Children.given
        ((List.map_congr_left fun v _ => v.renamed_id).trans (List.map_id vs))
  | raw d => rfl

theorem Children.values_renamed (ρ : Nat → Nat) (cs : Children) :
    (cs.renamed ρ).values = cs.values.map (List.map (Value.renamed ρ)) := by
  cases cs with
  | given vs => rfl
  | raw d =>
      simp only [Children.renamed, Children.values]
      cases d.items? with
      | none => rfl
      | some items => simp [Except.map, Function.comp_def, Value.renamed]

namespace Forest

/-- **The second forest is the first one under other numbers.** The numbers of scopes that are not
    built yet stay, and whether a link leads from an older scope to a newer one does too. -/
structure Renamed (σ : Equiv.Perm Nat) (f g : Forest) : Prop where
  size : g.scopes.size = f.scopes.size
  fixed : ∀ i, f.scopes.size ≤ i → σ i = i
  scope? : ∀ i, g.scope? (σ i) = (f.scope? i).map (Scope.renamed σ)
  inwards : ∀ i s c, f.scope? i = some s → c ∈ s.children → (σ c < σ i ↔ c < i)
  outwards : ∀ i p, f.holder? i = some p → (σ i < σ p ↔ i < p)
  handles : ∀ id i, (id, σ i) ∈ g.handles ↔ (id, i) ∈ f.handles

/-- What is kept up to a last member does not depend on what the members are called. -/
theorem throughLast_map {α β : Type} {p : β → Bool} {q : α → Bool} {φ : α → β}
    (hp : ∀ a, p (φ a) = q a) : ∀ l : List α, throughLast p (l.map φ) = (throughLast q l).map φ
  | [] => rfl
  | a :: l => by
      rw [List.map_cons, throughLast, throughLast, throughLast_map hp l, hp]
      cases throughLast q l with
      | nil => cases q a <;> rfl
      | cons b m => rfl

namespace Renamed

variable {σ : Equiv.Perm Nat} {f g : Forest} {i : Nat} {s : Scope}

theorem built_iff (h : Renamed σ f g) : σ i < f.scopes.size ↔ i < f.scopes.size := by
  constructor
  · intro hi
    refine Nat.lt_of_not_le fun hle => ?_
    rw [h.fixed i hle] at hi
    exact Nat.not_lt.2 hle hi
  · intro hi
    refine Nat.lt_of_not_le fun hle => ?_
    rw [σ.injective (h.fixed (σ i) hle)] at hle
    exact Nat.not_lt.2 hle hi

/-- In sound forests all links lead from older scopes to newer ones anyway. -/
theorem of_sound (hf : f.Sound) (hg : g.Sound) (size : g.scopes.size = f.scopes.size)
    (fixed : ∀ i, f.scopes.size ≤ i → σ i = i)
    (scope? : ∀ i, g.scope? (σ i) = (f.scope? i).map (Scope.renamed σ))
    (handles : ∀ id i, (id, σ i) ∈ g.handles ↔ (id, i) ∈ f.handles) : Renamed σ f g := by
  have holds : ∀ {p c}, f.Holds p c → g.Holds (σ p) (σ c) := fun ⟨s, hs, hc⟩ =>
    ⟨s.renamed σ, (scope? _).trans (congrArg _ hs), List.mem_map_of_mem hc⟩
  have older : ∀ {p c}, f.Holds p c → c < p ∧ σ c < σ p := fun h =>
    ⟨hf.older _ _ h, hg.older _ _ (holds h)⟩
  refine ⟨size, fixed, scope?, fun i s c hs hc => ?_, fun i p hp => ?_, handles⟩
  · obtain ⟨hlt, hlt'⟩ := older ⟨s, hs, hc⟩
    exact iff_of_true hlt' hlt
  · obtain ⟨hlt, hlt'⟩ := older ((hf.linked p i).2 hp)
    exact iff_of_true hlt' hlt

/-- The next scope gets the same number. -/
theorem next (h : Renamed σ f g) : σ f.scopes.size = f.scopes.size := h.fixed _ (Nat.le_refl _)

/-! ## 2. One scope -/

theorem label (h : Renamed σ f g) (i : Nat) : g.label (σ i) = f.label i := by
  unfold Forest.label
  rw [h.scope?]
  cases f.scope? i <;> rfl

theorem holder? (h : Renamed σ f g) (i : Nat) : g.holder? (σ i) = (f.holder? i).map σ := by
  unfold Forest.holder?
  rw [h.scope?]
  cases f.scope? i <;> rfl

theorem attached (h : Renamed σ f g) (i : Nat) : g.attached (σ i) = f.attached i := by
  unfold Forest.attached
  rw [h.holder?, Option.isSome_map]

theorem linked (h : Renamed σ f g) (i : Nat) : g.linked (σ i) = f.linked i := by
  unfold Forest.linked
  rw [h.attached, h.scope?]
  cases f.scope? i with
  | none => rfl
  | some s => simp [Scope.renamed]

theorem owners (h : Renamed σ f g) (i : Nat) : g.owners (σ i) = (f.owners i).map σ := by
  induction i using owners.induct f with
  | case1 i p hp hlt ih =>
      have hlt' : σ i < σ p ∧ σ p < g.scopes.size :=
        ⟨(h.outwards i p hp).2 hlt.1, h.size ▸ h.built_iff.2 hlt.2⟩
      rw [Forest.owners.eq_1 g, Forest.owners.eq_1 f, h.holder?, hp]
      simp only [Option.map_some, if_pos hlt, if_pos hlt', ih, List.map_cons]
  | case2 i p hp hlt =>
      have hlt' : ¬ (σ i < σ p ∧ σ p < g.scopes.size) := fun h' =>
        hlt ⟨(h.outwards i p hp).1 h'.1, h.built_iff.1 (h.size ▸ h'.2)⟩
      rw [Forest.owners.eq_1 g, Forest.owners.eq_1 f, h.holder?, hp]
      simp only [Option.map_some, if_neg hlt, if_neg hlt', List.map_nil]
  | case3 i hn =>
      rw [Forest.owners.eq_1 g, Forest.owners.eq_1 f, h.holder?, hn]
      rfl

theorem held (h : Renamed σ f g) (i : Nat) : g.held (σ i) = f.held i := by
  rw [Bool.eq_iff_iff, held_iff_mem, held_iff_mem]
  exact exists_congr fun id => h.handles id i

/-- **A scope lives as long under its other number.** -/
theorem alive (h : Renamed σ f g) (i : Nat) : g.alive (σ i) = f.alive i := by
  have hheld : g.held ∘ σ = f.held := funext h.held
  unfold Forest.alive
  rw [h.held, h.owners, List.any_map, hheld]

theorem parent? (h : Renamed σ f g) (i : Nat) : g.parent? (σ i) = (f.parent? i).map σ := by
  have halive : g.alive ∘ σ = f.alive := funext h.alive
  unfold Forest.parent?
  rw [h.holder?, Option.filter_map, halive]

theorem ancestors (h : Renamed σ f g) (i : Nat) :
    g.ancestors (σ i) = (f.ancestors i).map σ := by
  unfold Forest.ancestors
  rw [h.owners, throughLast_map h.held]

theorem depth (h : Renamed σ f g) (i : Nat) : g.depth (σ i) = f.depth i := by
  unfold Forest.depth
  rw [h.ancestors, List.length_map]

/-- **The constructor call of a scope does not show its number.** -/
theorem shown (h : Renamed σ f g) (i : Nat) : g.shown (σ i) = f.shown i := by
  induction i using Nat.strongRecOn with
  | ind i ih =>
      rw [Forest.shown, Forest.shown, h.scope?]
      cases hs : f.scope? i with
      | none => rfl
      | some s =>
          have inside : ((s.renamed σ).children.map fun c =>
                if _h : c < σ i then g.shown c else "")
              = s.children.map fun c => if _h : c < i then f.shown c else "" := by
            rw [Scope.renamed, List.map_map]
            refine List.map_congr_left fun c hc => ?_
            have hlt := h.inwards i s c hs hc
            by_cases hci : c < i
            · rw [Function.comp_apply, dif_pos (hlt.2 hci), dif_pos hci, ih c hci]
            · rw [Function.comp_apply, dif_neg fun h' => hci (hlt.1 h'), dif_neg hci]
          simp only [Option.map_some, inside]
          rfl

/-! ## 3. Values -/

section Values

variable (v : Value)

theorem value_shown (h : Renamed σ f g) : (v.renamed σ).shown g = v.shown f :=
  Value.shown_renamed v (Value.over_of_forall v h.shown)

theorem value_text (h : Renamed σ f g) : (v.renamed σ).text g = v.text f := by
  have hshown := h.value_shown
  induction v with
  | datum d => cases d <;> rfl
  | reference n l => exact congrArg Except.ok (hshown (.reference n l))
  | scope i => exact congrArg Except.ok (hshown (.scope i))
  | diagnostic l m ihl ihm =>
      cases l with
      | datum d => cases d <;> simp [Value.renamed, Value.text, Value.shown, ihm]
      | _ =>
          simp only [Value.renamed, Value.text] at ihl ⊢
          simp only [ihl, ihm]
  | _ => rfl

/-- **A value is written with the labels of its scopes.** -/
theorem value_toTerm (h : Renamed σ f g) : (v.renamed σ).toTerm g = v.toTerm f := by
  induction v with
  | reference n l ihn ihl => rw [Value.renamed, Value.toTerm, Value.toTerm, ihn, ihl]
  | diagnostic l m ihl ihm => rw [Value.renamed, Value.toTerm, Value.toTerm, ihl, ihm]
  | scope i => exact congrArg Term.scope (h.label i)
  | _ => rfl

theorem notDefinedMessage (h : Renamed σ f g) :
    (v.renamed σ).notDefinedMessage g = v.notDefinedMessage f := by
  unfold Value.notDefinedMessage
  rw [h.value_text]

theorem emitted (h : Renamed σ f g) :
    (v.renamed σ).emitted g = (v.emitted f).map (Value.renamed σ) :=
  bind_eq_map (Value.locationPart_renamed v) fun _ _ =>
    bind_eq_map (Value.namePart_renamed v) fun n _ => by
      rw [h.notDefinedMessage]
      cases n.notDefinedMessage f <;> rfl

end Values

/-! ## 4. Construction -/

theorem toChild (h : Renamed σ f g) (v : Value) :
    g.toChild (v.renamed σ) = (f.toChild v).map σ := by
  cases v with
  | scope i =>
      simp only [Value.renamed, Forest.toChild, h.attached, h.shown]
      split <;> rfl
  | _ => rfl

/-- **The same arguments describe the same scope**, or are at fault for the same reason. -/
theorem describe (h : Renamed σ f g) (label : String) (kind : Value) (cs : Children) (d : Datum) :
    g.describe label (kind.renamed σ) (cs.renamed σ) d
      = (f.describe label kind cs d).map (Scope.renamed σ) := by
  have hkind : (kind.renamed σ).toKind = kind.toKind.map id := by
    rw [Value.toKind_renamed]
    cases kind.toKind <;> rfl
  have hbindings : d.toBindings = d.toBindings.map id := by cases d.toBindings <;> rfl
  exact bind_eq_map hkind fun k _ => bind_eq_map (cs.values_renamed σ) fun vs _ =>
    bind_eq_map (mapM_eq_map fun v _ => h.toChild v) fun cs _ =>
      bind_eq_map hbindings fun bs _ => rfl

/-! ## 5. Changes -/

/-- The next number is taken by the same scope in both forests. -/
theorem scope?_push (h : Renamed σ f g) (s : Scope) (i : Nat) :
    (g.push (s.renamed σ)).scope? (σ i) = ((f.push s).scope? i).map (Scope.renamed σ) := by
  rcases Nat.lt_trichotomy i f.scopes.size with hi | rfl | hi
  · have hi' : g.Built (σ i) := by
      rw [Built, h.size]
      exact h.built_iff.2 hi
    have hmem : σ i ∈ s.children.map σ ↔ i ∈ s.children :=
      List.mem_map_of_injective σ.injective
    rw [scope?_push_of_built hi, scope?_push_of_built hi', h.scope?, h.size]
    cases f.scope? i with
    | none => rfl
    | some t =>
        simp only [Option.map_some, Scope.renamed, hmem]
        by_cases hc : i ∈ s.children
        · simp [hc, h.next]
        · simp [hc]
  · rw [scope?_push_size, h.next, ← h.size, scope?_push_size]
    rfl
  · have hout : ¬ (f.push s).Built i := fun hb => by
      rw [Built, size_push] at hb
      omega
    have hout' : ¬ (g.push (s.renamed σ)).Built (σ i) := fun hb => by
      rw [Built, size_push, h.size, h.fixed i (Nat.le_of_lt hi)] at hb
      omega
    rw [scope?_eq_none hout, scope?_eq_none hout']
    rfl

/-- **One more scope in both forests.** -/
theorem push (h : Renamed σ f g) (s : Scope) : Renamed σ (f.push s) (g.push (s.renamed σ)) where
  size := by rw [size_push, size_push, h.size]
  fixed i hi := by
    rw [size_push] at hi
    exact h.fixed i (Nat.le_of_succ_le hi)
  scope? := h.scope?_push s
  inwards i t c ht hc := by
    rcases built_push.1 (Forest.built_iff.2 ⟨t, ht⟩) with hb | rfl
    · rw [scope?_push_of_built hb] at ht
      obtain ⟨u, hu, rfl⟩ := Option.map_eq_some_iff.1 ht
      refine h.inwards i u c hu ?_
      split at hc <;> exact hc
    · rw [h.next]
      exact h.built_iff
  outwards i p hp := by
    obtain ⟨t, ht, hp⟩ := Option.bind_eq_some_iff.1 hp
    rcases built_push.1 (Forest.built_iff.2 ⟨t, ht⟩) with hb | rfl
    · rw [scope?_push_of_built hb] at ht
      obtain ⟨u, hu, rfl⟩ := Option.map_eq_some_iff.1 ht
      split at hp
      · obtain rfl := Option.some.inj hp
        rw [h.next]
        exact h.built_iff
      · exact h.outwards i p (Option.bind_eq_some_iff.2 ⟨u, hu, hp⟩)
    · rw [h.next]
      by_cases hp : p < f.scopes.size
      · have := h.built_iff.2 hp
        omega
      · rw [h.fixed p (Nat.le_of_not_lt hp)]
  handles := h.handles

theorem hold (h : Renamed σ f g) (id : String) (i : Nat) :
    Renamed σ (f.hold id i) (g.hold id (σ i)) where
  size := h.size
  fixed := h.fixed
  scope? := h.scope?
  inwards := h.inwards
  outwards := h.outwards
  handles id' j := by
    rw [mem_hold, mem_hold, h.handles, Prod.mk.injEq, Prod.mk.injEq, σ.injective.eq_iff]

theorem release (h : Renamed σ f g) (id : String) :
    Renamed σ (f.release id) (g.release id) where
  size := h.size
  fixed := h.fixed
  scope? := h.scope?
  inwards := h.inwards
  outwards := h.outwards
  handles id' j := by rw [mem_release, mem_release, h.handles]

/-- A forest with some more scopes, under other numbers. -/
def Grown (σ : Equiv.Perm Nat) (size : Nat) (f g : Forest) : Prop :=
  Renamed σ f g ∧ f.scopes.size = size

theorem construct (h : Renamed σ f g) (label : String) (kind : Value) (cs : Children) (d : Datum) :
    Related (Grown σ (f.scopes.size + 1)) (f.construct label kind cs d)
      (g.construct label (kind.renamed σ) (cs.renamed σ) d) := by
  refine (related_of_map (h.describe label kind cs d)).bind fun s s' e => ?_
  subst e
  exact .ok ⟨h.push s, size_push⟩

/-- **The same nest is built in both forests**, or it is refused for the same reason. -/
theorem nest {t : Nest} : ∀ {n c : Nat} {f g : Forest}, Renamed σ f g →
    Related (Grown σ (f.scopes.size + n)) (nest t n f c) (nest t n g (σ c))
  | 0, _, _, _, h => .ok ⟨h, rfl⟩
  | n + 1, c, f, g, h => by
      refine (h.construct _ (.kind t.kind) (.given [.scope c]) _).bind fun f' g' h' => ?_
      have hnext : g.scopes.size = σ f.scopes.size := h.size.trans h.next.symm
      have hsize : f.scopes.size + (n + 1) = f'.scopes.size + n := by
        rw [h'.2]
        omega
      rw [hnext, hsize]
      exact h'.1.nest

/-! ## 6. Copies -/

/-- A forest with a value in it, under other numbers. -/
def Copy (σ : Equiv.Perm Nat) (x y : Forest × Value) : Prop :=
  Renamed σ x.1 y.1 ∧ y.2 = x.2.renamed σ

theorem holdsLinked (h : Renamed σ f g) (v : Value) :
    (v.renamed σ).holdsLinked g = v.holdsLinked f := by
  induction v with
  | reference n l ihn ihl => rw [Value.renamed, Value.holdsLinked, Value.holdsLinked, ihn, ihl]
  | diagnostic l m ihl ihm => rw [Value.renamed, Value.holdsLinked, Value.holdsLinked, ihl, ihm]
  | scope i => exact h.linked i
  | _ => rfl

theorem rebuilt : ∀ {v : Value} {f g : Forest}, Renamed σ f g →
    Related (Copy σ) (v.rebuilt f) ((v.renamed σ).rebuilt g)
  | .location l, _, _, h => (related_of_map (Value.rebuiltLocation_renamed l)).bind fun _ _ e =>
      .ok ⟨h, e⟩
  | .name n, _, _, h => (related_of_map (Value.rebuiltName_renamed n)).bind fun _ _ e => .ok ⟨h, e⟩
  | .diagnostic l m, _, _, h =>
      (rebuilt (v := l) h).bind fun _ _ hl => (rebuilt (v := m) hl.1).bind fun _ _ hm =>
        .ok ⟨hm.1, congrArg₂ Value.diagnostic hl.2 hm.2⟩
  | .reference _ _, _, _, _ => .error _
  | .scope i, f, g, h => by
      simp only [Value.renamed, Value.rebuilt, h.scope?]
      cases f.scope? i with
      | none => exact .ok ⟨h, rfl⟩
      | some s =>
          refine .ok ⟨h.push s, ?_⟩
          rw [Value.renamed, h.next, h.size]
  | .datum _, _, _, h | .kind _, _, _, h | .sourceType _, _, _, h | .verdict _, _, _, h
  | .policy _, _, _, h => .ok ⟨h, rfl⟩

/-- **A copy of a value is the copy of the value under other numbers.** -/
theorem copied (h : Renamed σ f g) (v : Value) :
    Related (Copy σ) (v.copied f) ((v.renamed σ).copied g) := by
  unfold Value.copied
  rw [h.holdsLinked]
  split
  · exact .error _
  · exact rebuilt h

end Renamed

end Forest

end TagScope

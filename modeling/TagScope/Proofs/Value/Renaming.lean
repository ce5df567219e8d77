import Mathlib.Logic.Function.Basic
import TagScope.Diagnostic
import TagScope.Forest.Construct
import TagScope.Forest.Visible
import TagScope.Value.Build
/-!
# Values under other numbers

Scopes are values by their numbers, and a value may hold some of them at any depth. Here the numbers
are changed and nothing else is.

* `Failure.bind_eq_map`, `Failure.Related`: outcomes that correspond to each other.
* `Value.renamed`: a value whose scopes have other numbers.
* `shape_renamed`, `text?_renamed` and the like: **no view of a value looks at the number of a
  scope.**
* `same_renamed`, `opinion_renamed`, `firsts_renamed`: equality does, but only to tell one from
  another.
* `buildMember_renamed` and the like: what is built from renamed values is what was built before,
  renamed.
* `shown_renamed`: a value is shown alike if its scopes are.
-/

namespace TagScope

/-! ## 1. Outcomes -/

namespace Failure

section Outcomes

variable {α α' β β' : Type} {x : Except Failure α} {x' : Except Failure α'} {φ : α → α'}
  {ψ : β → β'}

/-- **Two computations in a row correspond when the first ones do, and the second ones do on what
    comes of these.** -/
theorem bind_eq_map {k : α → Except Failure β} {k' : α' → Except Failure β'} (hx : x' = x.map φ)
    (hk : ∀ a, x = .ok a → k' (φ a) = (k a).map ψ) : (x' >>= k') = (x >>= k).map ψ := by
  subst hx
  cases x with
  | error e => rfl
  | ok a => exact hk a rfl

/-- Two computations in a row come to the same when the first ones correspond, and the second ones
    come to the same. -/
theorem bind_eq_of_map {k : α → Except Failure β} {k' : α' → Except Failure β} (hx : x' = x.map φ)
    (hk : ∀ a, x = .ok a → k' (φ a) = k a) : (x' >>= k') = (x >>= k) := by
  subst hx
  cases x with
  | error e => rfl
  | ok a => exact hk a rfl

/-- What corresponds for each member of a list does so for the whole list. -/
theorem mapM_eq_map {k : α → Except Failure β} {k' : α' → Except Failure β'} : ∀ {l : List α},
    (∀ a ∈ l, k' (φ a) = (k a).map ψ) → (l.map φ).mapM k' = (l.mapM k).map (List.map ψ)
  | [], _ => rfl
  | a :: l, h => by
      obtain ⟨ha, hl⟩ := List.forall_mem_cons.1 h
      rw [List.map_cons, List.mapM_cons, List.mapM_cons]
      exact bind_eq_map ha fun b _ => bind_eq_map (mapM_eq_map hl) fun bs _ => rfl

/-- Where results correspond for each member of one list, they do so for the whole list. -/
theorem mapM_eq_map_of_mem {k : α → Except Failure β} {k' : α → Except Failure β'} {l : List α}
    (h : ∀ a ∈ l, k' a = (k a).map ψ) : l.mapM k' = (l.mapM k).map (List.map ψ) := by
  have e := mapM_eq_map (φ := id) h
  rw [List.map_id] at e
  exact e

/-- **Two outcomes are related**: both are failures for one reason, or both are results that `R`
    relates. -/
inductive Related (R : α → α' → Prop) : Except Failure α → Except Failure α' → Prop
  | error (e : Failure) : Related R (.error e) (.error e)
  | ok {a : α} {a' : α'} (h : R a a') : Related R (.ok a) (.ok a')

/-- Two computations in a row are related when the first ones are, and the second ones are on
    related results. -/
theorem Related.bind {R : α → α' → Prop} {S : β → β' → Prop} {k : α → Except Failure β}
    {k' : α' → Except Failure β'} (hx : Related R x x')
    (hk : ∀ a a', R a a' → Related S (k a) (k' a')) : Related S (x >>= k) (x' >>= k') := by
  cases hx with
  | error e => exact .error e
  | ok h => exact hk _ _ h

/-- Two computations in a row come to the same when the first ones are related, and the second ones
    come to the same on related results. -/
theorem Related.bind_eq {R : α → α' → Prop} {k : α → Except Failure β} {k' : α' → Except Failure β}
    (hx : Related R x x') (hk : ∀ a a', R a a' → k' a' = k a) : (x' >>= k') = (x >>= k) := by
  cases hx with
  | error e => rfl
  | ok h => exact hk _ _ h

theorem related_of_map (h : x' = x.map φ) : Related (fun a a' => a' = φ a) x x' := by
  subst h
  cases x with
  | error e => exact .error e
  | ok a => exact .ok rfl

end Outcomes

end Failure

open Failure

namespace Value

/-! ## 2. Renaming -/

/-- The value with another number for each scope. -/
def renamed (ρ : Nat → Nat) : Value → Value
  | .reference n l => .reference (n.renamed ρ) (l.renamed ρ)
  | .diagnostic l m => .diagnostic (l.renamed ρ) (m.renamed ρ)
  | .scope i => .scope (ρ i)
  | v => v

section Renamed

variable {ρ : Nat → Nat} (v w : Value)

theorem renamed_id : v.renamed id = v := by
  induction v with
  | reference n l ihn ihl => rw [renamed, ihn, ihl]
  | diagnostic l m ihl ihm => rw [renamed, ihl, ihm]
  | _ => rfl

@[simp] theorem renamed_ofIdentifier (n : Identifier) :
    (ofIdentifier n).renamed ρ = ofIdentifier n := by cases n <;> rfl

@[simp] theorem renamed_ofLocation? (l : Option Location) :
    (ofLocation? l).renamed ρ = ofLocation? l := by cases l <;> rfl

@[simp] theorem renamed_ofWhole (n : Whole) : (ofWhole n).renamed ρ = ofWhole n := by
  cases n <;> rfl

/-! ## 3. Views -/

@[simp] theorem shape_renamed : (v.renamed ρ).shape = v.shape := by cases v <;> rfl

@[simp] theorem whole?_renamed : (v.renamed ρ).whole? = v.whole? := by cases v <;> rfl

@[simp] theorem text?_renamed : (v.renamed ρ).text? = v.text? := by cases v <;> rfl

@[simp] theorem isTrue_renamed : (v.renamed ρ).isTrue = v.isTrue := by cases v <;> rfl

@[simp] theorem reference?_renamed : (v.renamed ρ).reference? = v.reference? := by cases v <;> rfl

theorem isIntrinsic_renamed : (v.renamed ρ).isIntrinsic = v.isIntrinsic := by
  unfold isIntrinsic
  rw [text?_renamed, shape_renamed]

theorem toBoundary_renamed : (v.renamed ρ).toBoundary = v.toBoundary := by cases v <;> rfl

theorem isKindOf_renamed : (v.renamed ρ).isKindOf = v.isKindOf := by cases v <;> rfl

theorem toKind_renamed : (v.renamed ρ).toKind = v.toKind := by cases v <;> rfl

theorem namePart_renamed : (v.renamed ρ).namePart = v.namePart.map (renamed ρ) := by
  cases v with
  | name n => cases n <;> simp [renamed, namePart, shape, Except.map]
  | _ => rfl

theorem locationPart_renamed : (v.renamed ρ).locationPart = v.locationPart.map (renamed ρ) := by
  cases v with
  | name n => simp [renamed, locationPart, Except.map]
  | _ => rfl

/-! ## 4. Equality -/

section Equality

variable (hρ : Function.Injective ρ)

include hρ

/-- **Equality tells one scope from another, and no more.** -/
theorem same_renamed : (v.renamed ρ).same (w.renamed ρ) = v.same w := by
  induction v generalizing w with
  | reference n l ihn ihl => cases w <;> simp [renamed, same, ihn, ihl]
  | diagnostic l m ihl ihm => cases w <;> simp [renamed, same, ihl, ihm]
  | scope i => cases w <;> simp [renamed, same, hρ.eq_iff]
  | datum d => cases w <;> cases d <;> simp [renamed, same]
  | sourceType t =>
      cases w with
      | datum d => cases d <;> simp [renamed, same]
      | _ => simp [renamed, same]
  | _ => cases w <;> simp [renamed, same]

theorem differ_renamed : (v.renamed ρ).differ (w.renamed ρ) = v.differ w :=
  congrArg not (same_renamed v w hρ)

theorem opinion_renamed : (v.renamed ρ).opinion (w.renamed ρ) = v.opinion w := by
  cases v with
  | reference n l => cases w <;> simp [renamed, opinion, same_renamed, hρ]
  | diagnostic l m => cases w <;> simp [renamed, opinion, same_renamed, hρ]
  | scope i => cases w <;> simp [renamed, opinion, hρ.beq_eq]
  | datum d => cases w <;> cases d <;> simp [renamed, opinion]
  | sourceType t =>
      cases w with
      | datum d => cases d <;> simp [renamed, opinion]
      | _ => simp [renamed, opinion]
  | _ => cases w <;> simp [renamed, opinion]

/-- Equal values stand at the same places. -/
theorem firsts_renamed (vs : List Value) : firsts (vs.map (renamed ρ)) = firsts vs := by
  unfold firsts
  rw [List.map_map]
  refine List.map_congr_left fun v _ => ?_
  rw [Function.comp_apply, List.findIdx_map]
  exact congrArg (List.findIdx · vs) (funext fun w => same_renamed w v hρ)

end Equality

/-! ## 5. Sets of values -/

theorem unhashable?_renamed : (v.renamed ρ).unhashable? = v.unhashable? := by
  induction v with
  | reference n l ihn ihl => simp only [renamed, unhashable?, ihn, ihl]
  | diagnostic l m ihl ihm => simp only [renamed, unhashable?, ihl, ihm]
  | _ => rfl

theorem toMember_renamed : (v.renamed ρ).toMember = v.toMember.map (renamed ρ) := by
  unfold toMember
  rw [unhashable?_renamed]
  cases v.unhashable? <;> rfl

/-- A scope is equal to no datum. -/
theorem same_datum_renamed (d : Datum) : (v.renamed ρ).same (.datum d) = v.same (.datum d) := by
  cases v <;> cases d <;> rfl

theorem isAmong_renamed (bs : List Binding) : (v.renamed ρ).isAmong bs = v.isAmong bs := by
  refine bind_eq_of_map (toMember_renamed v) fun m _ => ?_
  simp only [same_datum_renamed]

theorem isReceiver_renamed : (v.renamed ρ).isReceiver = v.isReceiver := by
  refine bind_eq_of_map (namePart_renamed v) fun n _ => ?_
  rw [ofText, same_datum_renamed]

/-! ## 6. Building -/

section Build

variable (o p n s l c : Value)

theorem toIdentifier_renamed : (v.renamed ρ).toIdentifier = v.toIdentifier := by cases v <;> rfl

theorem toLocation?_renamed : (v.renamed ρ).toLocation? = v.toLocation? := by cases v <;> rfl

theorem toElementName_renamed : (v.renamed ρ).toElementName = v.toElementName := by
  cases v <;> rfl

theorem buildLocation_renamed :
    buildLocation (l.renamed ρ) (c.renamed ρ) = (buildLocation l c).map (renamed ρ) := by
  unfold buildLocation
  rw [whole?_renamed, whole?_renamed, shape_renamed, shape_renamed]
  split
  · split <;> rfl
  · rfl

theorem buildSimple_renamed :
    buildSimple (n.renamed ρ) (l.renamed ρ) = (buildSimple n l).map (renamed ρ) := by
  unfold buildSimple
  rw [toIdentifier_renamed, toLocation?_renamed]
  cases n.toIdentifier <;> cases l.toLocation? <;> rfl

theorem buildMember_renamed : buildMember (o.renamed ρ) (p.renamed ρ) (l.renamed ρ)
    = (buildMember o p l).map (renamed ρ) := by
  unfold buildMember
  rw [toElementName_renamed, toIdentifier_renamed, toLocation?_renamed]
  cases o.toElementName <;> cases p.toIdentifier <;> cases l.toLocation? <;> rfl

theorem buildNamespaced_renamed : buildNamespaced (s.renamed ρ) (n.renamed ρ) (l.renamed ρ)
    = (buildNamespaced s n l).map (renamed ρ) := by
  unfold buildNamespaced
  rw [toIdentifier_renamed, toIdentifier_renamed, toLocation?_renamed]
  cases s.toIdentifier <;> cases n.toIdentifier <;> cases l.toLocation? <;> rfl

/-- **A value is built from the same arguments, renamed.** -/
theorem arguments?_renamed :
    (v.renamed ρ).arguments? = v.arguments?.map fun a => a.map (renamed ρ) := by
  cases v with
  | datum d => cases d <;> rfl
  | name n => cases n <;> simp [renamed, arguments?, nameArguments, Arguments.map]
  | location l => simp [renamed, arguments?, Arguments.map]
  | _ => rfl

end Build

/-! ## 7. Building again -/

/-- What is built again from plain arguments has no number in it. -/
theorem rebuiltLocation_renamed (l : Location) :
    rebuiltLocation l = (rebuiltLocation l).map (renamed ρ) := by
  have e := buildLocation_renamed (ρ := ρ) (ofWhole l.line) (ofWhole l.column)
  rw [renamed_ofWhole, renamed_ofWhole] at e
  exact e

theorem rebuiltLocation?_renamed : ∀ l : Option Location,
    rebuiltLocation? l = (rebuiltLocation? l).map (renamed ρ)
  | none => rfl
  | some l => rebuiltLocation_renamed l

theorem rebuiltName_renamed : ∀ n : ElementName,
    rebuiltName n = (rebuiltName n).map (renamed ρ)
  | .simple n l => bind_eq_map (rebuiltLocation?_renamed l) fun w _ => by
      have e := buildSimple_renamed (ρ := ρ) (ofIdentifier n) w
      rw [renamed_ofIdentifier] at e
      exact e
  | .member o p l => bind_eq_map (rebuiltName_renamed o) fun v _ =>
      bind_eq_map (rebuiltLocation?_renamed l) fun w _ => by
        have e := buildMember_renamed (ρ := ρ) v (ofIdentifier p) w
        rw [renamed_ofIdentifier] at e
        exact e
  | .namespaced s n l => bind_eq_map (rebuiltLocation?_renamed l) fun w _ => by
      have e := buildNamespaced_renamed (ρ := ρ) (ofIdentifier n) (ofIdentifier s) w
      rw [renamed_ofIdentifier, renamed_ofIdentifier] at e
      exact e

/-! ## 8. Written forms -/

/-- All scopes in a value have a property. -/
def Over (P : Nat → Prop) : Value → Prop
  | .reference n l => n.Over P ∧ l.Over P
  | .diagnostic l m => l.Over P ∧ m.Over P
  | .scope i => P i
  | _ => True

theorem over_of_forall {P : Nat → Prop} (h : ∀ i, P i) : v.Over P := by
  induction v with
  | reference n l ihn ihl => exact ⟨ihn, ihl⟩
  | diagnostic l m ihl ihm => exact ⟨ihl, ihm⟩
  | scope i => exact h i
  | _ => trivial

/-- **A value is shown alike under other numbers if its scopes are.** -/
theorem shown_renamed {f g : Forest} (h : v.Over fun i => g.shown (ρ i) = f.shown i) :
    (v.renamed ρ).shown g = v.shown f := by
  induction v with
  | reference n l ihn ihl =>
      have hn := ihn h.1
      have hl := ihl h.2
      cases l with
      | datum d => cases d <;> simp only [renamed, shown, hn]
      | _ =>
          simp only [renamed, shown] at hl ⊢
          simp only [hn, hl]
  | diagnostic l m ihl ihm => rw [renamed, shown, shown, ihl h.1, ihm h.2]
  | scope i => exact h
  | _ => rfl

end Renamed

end Value

end TagScope

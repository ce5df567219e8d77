import Mathlib.Data.List.Forall2
import TagScope.Proofs.Reading.Inverse
/-!
# Values built again

What comes of a value when its class is called on the arguments that the value tells, after these
arguments were built again themselves. Nothing of the value is used but those arguments, and **all
checks of the constructors are made once more.**

* `Value.Rebuilds`: from the inside out, one call for each location, name, policy and diagnostic.
* `Value.isRebuildable`: there are no references and no scopes in the value.
* `construct_arguments`: a class takes the arguments that its values tell.
* `rebuilds_iff`: **a value can be rebuilt, and nothing else comes of it.**
* `Value.RoundTrip`, `roundTrips`: so it has its class, its equals and its written form afterwards.
-/

namespace TagScope

namespace Value

/-! ## 1. One call for each value -/

/-- **Value `w` is rebuilt from value `v`.** Plain data and members of enumerations are kept. Of any
    other value the arguments are rebuilt, and then its class is called on what came of them, with
    the same ones named. -/
inductive Rebuilds : Value → Value → Prop
  | datum (d : Datum) : Rebuilds (.datum d) (.datum d)
  | kind (k : ScopeKind) : Rebuilds (.kind k) (.kind k)
  | sourceType (t : SourceType) : Rebuilds (.sourceType t) (.sourceType t)
  | verdict (x : Verdict) : Rebuilds (.verdict x) (.verdict x)
  | call {v w : Value} {a : Arguments Value} {positional named : List Value}
      (harguments : v.arguments? = some a)
      (hpositional : List.Forall₂ Rebuilds a.positional positional)
      (hnamed : List.Forall₂ Rebuilds (a.named.map Prod.snd) named)
      (hcall : Reading.construct v.shape.word
        ⟨positional, (a.named.map Prod.fst).zip named⟩ = some w) : Rebuilds v w

/-- Whether a value is kept as it is: plain data and members of enumerations. -/
def isKept : Value → Bool
  | .datum _ | .kind _ | .sourceType _ | .verdict _ => true
  | _ => false

/-- Whether a value can be rebuilt: there is no reference and no scope in it. -/
def isRebuildable : Value → Bool
  | .reference .. | .scope _ => false
  | .diagnostic l m => l.isRebuildable && m.isRebuildable
  | _ => true

/-- The values among the arguments, the positional ones first. -/
def Arguments.values {α : Type} (a : Arguments α) : List α := a.positional ++ a.named.map Prod.snd

variable {v w : Value} {a : Arguments Value}

/-- What is kept has no class that takes arguments. -/
theorem construct_of_isKept (hv : v.isKept = true) : Reading.construct v.shape.word a = none := by
  cases v with
  | datum d => cases d <;> rfl
  | kind k => rfl
  | sourceType t => rfl
  | verdict x => rfl
  | _ => cases hv

theorem rebuilds_of_isKept (hv : v.isKept = true) : v.Rebuilds w ↔ w = v := by
  constructor
  · intro h
    cases h with
    | call _ _ _ hcall =>
        rw [construct_of_isKept hv] at hcall
        cases hcall
    | _ => rfl
  · rintro rfl
    cases w with
    | datum d => exact .datum d
    | kind k => exact .kind k
    | sourceType t => exact .sourceType t
    | verdict x => exact .verdict x
    | _ => cases hv

/-! ## 2. A class takes the arguments of its values -/

/-- **Called on the arguments that a value tells, its class gives the value.** The checks pass since
    they were made when the value was built. -/
theorem construct_arguments (hv : v.isKept = false) (ha : v.arguments? = some a) :
    Reading.construct v.shape.word a = some v := by
  cases v with
  | location l =>
      obtain rfl := Option.some.inj ha
      exact Reading.construct_location l
  | name n =>
      obtain rfl := Option.some.inj ha
      cases n with
      | simple n l => exact Reading.construct_simple n rfl
      | member o p l => exact Reading.construct_member o p rfl
      | namespaced s n l => exact Reading.construct_namespaced s n rfl
  | diagnostic l m =>
      obtain rfl := Option.some.inj ha
      rfl
  | policy c =>
      obtain rfl := Option.some.inj ha
      rfl
  | datum _ | kind _ | sourceType _ | verdict _ => cases hv
  | reference _ _ | scope _ => cases ha

theorem isKept_ofWhole (x : Whole) : (ofWhole x).isKept = true := by cases x <;> rfl

theorem isKept_ofIdentifier (i : Identifier) : (ofIdentifier i).isKept = true := by
  cases i <;> rfl

/-- What holds of values that are kept, and of every value that tells arguments of which it holds,
    **holds of all values that can be rebuilt.** -/
theorem induction_arguments {P : Value → Prop} (kept : ∀ v, v.isKept = true → P v)
    (called : ∀ v a, v.isKept = false → v.arguments? = some a → (∀ x ∈ a.values, P x) → P v)
    (v : Value) (hv : v.isRebuildable = true) : P v := by
  have location (l : Location) : P (.location l) := by
    refine called _ _ rfl rfl fun x hx => ?_
    rcases List.mem_pair.1 hx with rfl | rfl
    · exact kept _ (isKept_ofWhole l.line)
    · exact kept _ (isKept_ofWhole l.column)
  have location? (l : Option Location) : P (.ofLocation? l) := by
    cases l with
    | none => exact kept _ rfl
    | some l => exact location l
  have name (n : ElementName) : P (.name n) := by
    induction n with
    | simple n l =>
        refine called _ _ rfl rfl (List.forall_mem_cons.2 ⟨kept _ (isKept_ofIdentifier n), ?_⟩)
        exact List.forall_mem_singleton.2 (location? l)
    | member o p l ih =>
        refine called _ _ rfl rfl (List.forall_mem_cons.2 ⟨ih, ?_⟩)
        refine List.forall_mem_cons.2 ⟨kept _ (isKept_ofIdentifier p), ?_⟩
        exact List.forall_mem_singleton.2 (location? l)
    | namespaced s n l =>
        refine called _ _ rfl rfl (List.forall_mem_cons.2 ⟨kept _ (isKept_ofIdentifier s), ?_⟩)
        refine List.forall_mem_cons.2 ⟨kept _ (isKept_ofIdentifier n), ?_⟩
        exact List.forall_mem_singleton.2 (location? l)
  induction v with
  | location l => exact location l
  | name n => exact name n
  | diagnostic l m ihl ihm =>
      obtain ⟨hl, hm⟩ := Bool.and_eq_true_iff.1 hv
      refine called _ _ rfl rfl fun x hx => ?_
      rcases List.mem_pair.1 hx with rfl | rfl
      · exact ihl hl
      · exact ihm hm
  | policy c =>
      refine called _ _ rfl rfl fun x hx => ?_
      rcases List.mem_pair.1 hx with rfl | rfl
      · exact kept _ rfl
      · exact kept _ rfl
  | datum _ | kind _ | sourceType _ | verdict _ => exact kept _ rfl
  | reference _ _ | scope _ => cases hv

/-! ## 3. What comes of it -/

theorem forall₂_rebuilds_iff : ∀ {l m : List Value},
    (∀ x ∈ l, ∀ y, x.Rebuilds y ↔ y = x) → (List.Forall₂ Rebuilds l m ↔ m = l)
  | [], _, _ => List.forall₂_nil_left_iff
  | x :: l, m, h => by
    obtain ⟨hx, hl⟩ := List.forall_mem_cons.1 h
    rw [List.forall₂_cons_left_iff]
    constructor
    · rintro ⟨y, n, hy, hn, rfl⟩
      rw [(hx y).1 hy, (forall₂_rebuilds_iff hl).1 hn]
    · rintro rfl
      exact ⟨x, l, (hx x).2 rfl, (forall₂_rebuilds_iff hl).2 rfl, rfl⟩

/-- **A value without references and scopes can be rebuilt, and nothing else comes of it.** -/
theorem rebuilds_iff (hv : v.isRebuildable = true) : v.Rebuilds w ↔ w = v := by
  refine induction_arguments (P := fun v => ∀ w, v.Rebuilds w ↔ w = v)
    (fun v hv w => rebuilds_of_isKept hv) (fun v a hv ha ih w => ?_) v hv w
  obtain ⟨hpositional, hnamed⟩ := List.forall_mem_append.1 ih
  have hzip : (a.named.map Prod.fst).zip (a.named.map Prod.snd) = a.named :=
    (List.zip_of_prod rfl rfl).symm
  have hcall := construct_arguments hv ha
  constructor
  · intro h
    cases h with
    | @call _ _ b positional named hb hpos hnam hw =>
        obtain rfl := Option.some.inj (ha.symm.trans hb)
        obtain rfl := (forall₂_rebuilds_iff hpositional).1 hpos
        obtain rfl := (forall₂_rebuilds_iff hnamed).1 hnam
        rw [hzip, hcall] at hw
        exact (Option.some.inj hw).symm
    | _ => rfl
  · rintro rfl
    refine .call ha ((forall₂_rebuilds_iff hpositional).2 rfl)
      ((forall₂_rebuilds_iff hnamed).2 rfl) ?_
    rw [hzip]
    exact hcall

/-! ## 4. The rebuilding that runs -/

theorem rebuiltLocation_eq (l : Location) : rebuiltLocation l = .ok (.location l) :=
  buildLocation_ofWhole l

theorem rebuiltLocation?_eq (l : Option Location) :
    rebuiltLocation? l = .ok (.ofLocation? l) := by
  cases l with
  | none => rfl
  | some l => exact rebuiltLocation_eq l

theorem rebuiltName_eq (n : ElementName) : rebuiltName n = .ok (.name n) := by
  induction n with
  | simple n l =>
      rw [rebuiltName, rebuiltLocation?_eq]
      exact buildSimple_ofIdentifier n l
  | member o p l ih =>
      rw [rebuiltName, ih, rebuiltLocation?_eq]
      exact buildMember_ofIdentifier p o l
  | namespaced s n l =>
      rw [rebuiltName, rebuiltLocation?_eq]
      exact buildNamespaced_ofIdentifier n s l

/-- A value without references and scopes is rebuilt in place. -/
theorem rebuilt_of_isRebuildable (f : Forest) (hv : v.isRebuildable = true) :
    v.rebuilt f = .ok (f, v) := by
  induction v with
  | location l =>
      rw [rebuilt, rebuiltLocation_eq]
      rfl
  | name n =>
      rw [rebuilt, rebuiltName_eq]
      rfl
  | diagnostic l m ihl ihm =>
      obtain ⟨hl, hm⟩ := Bool.and_eq_true_iff.1 hv
      rw [rebuilt]
      refine Failure.bind_eq_ok.2 ⟨(f, l), ihl hl, ?_⟩
      exact Failure.bind_eq_ok.2 ⟨(f, m), ihm hm, rfl⟩
  | reference _ _ | scope _ => cases hv
  | _ => rfl

/-- In a value without references and scopes nothing is linked to anything. -/
theorem holdsLinked_of_isRebuildable (f : Forest) (hv : v.isRebuildable = true) :
    v.holdsLinked f = false := by
  induction v with
  | diagnostic l m ihl ihm =>
      obtain ⟨hl, hm⟩ := Bool.and_eq_true_iff.1 hv
      rw [holdsLinked, ihl hl, ihm hm]
      rfl
  | reference _ _ | scope _ => cases hv
  | _ => rfl

theorem copied_of_isRebuildable (f : Forest) (hv : v.isRebuildable = true) :
    v.copied f = .ok (f, v) := by
  rw [copied, holdsLinked_of_isRebuildable f hv]
  exact rebuilt_of_isRebuildable f hv

/-! ## 5. The round trip -/

/-- **What a round trip through its arguments makes of a value.** -/
structure RoundTrip (v : Value) : Prop where
  /-- All calls pass their checks, at every level. -/
  passes : ∃ w, v.Rebuilds w
  /-- What comes of a round trip has the same class. -/
  shape : ∀ w, v.Rebuilds w → w.shape = v.shape
  /-- What comes of a round trip is equal to the value, whichever of them is asked. -/
  same : ∀ w, v.Rebuilds w → w.same v = true ∧ v.same w = true
  /-- What comes of a round trip is shown as the value is. -/
  shown : ∀ w, v.Rebuilds w → ∀ f, w.shown f = v.shown f
  /-- A round trip and a copy, when they are run, carry out such calls; the forest stays. -/
  rebuilt : ∀ f, ∃ w, v.rebuilt f = .ok (f, w) ∧ v.Rebuilds w
  copied : ∀ f, ∃ w, v.copied f = .ok (f, w) ∧ v.Rebuilds w

theorem roundTrip_of_isRebuildable (hv : v.isRebuildable = true) : v.RoundTrip where
  passes := ⟨v, (rebuilds_iff hv).2 rfl⟩
  shape w h := by rw [(rebuilds_iff hv).1 h]
  same w h := by
    obtain rfl := (rebuilds_iff hv).1 h
    exact ⟨same_refl w, same_refl w⟩
  shown w h f := by rw [(rebuilds_iff hv).1 h]
  rebuilt f := ⟨v, rebuilt_of_isRebuildable f hv, (rebuilds_iff hv).2 rfl⟩
  copied f := ⟨v, copied_of_isRebuildable f hv, (rebuilds_iff hv).2 rfl⟩

theorem isRebuildable_ofLocation? (l : Option Location) :
    (ofLocation? l).isRebuildable = true := by
  cases l <;> rfl

theorem isRebuildable_of_text {m : Value} {s : String} (hm : m.text? = some s) :
    m.isRebuildable = true := by
  cases m with
  | datum d => rfl
  | sourceType t => rfl
  | _ => cases hm

/-- The values that are made to go through a round trip. -/
structure RoundTrips : Prop where
  location : ∀ l : Location, (Value.location l).RoundTrip
  /-- Names of any depth, with locations at any of their levels. -/
  name : ∀ n : ElementName, (Value.name n).RoundTrip
  policy : ∀ c : Policy, (Value.policy c).RoundTrip
  /-- Diagnostics with any text, which may be a source type, and with a location or none. -/
  diagnostic : ∀ (l : Option Location) (m : Value) (s : String), m.text? = some s →
    (Value.diagnostic (.ofLocation? l) m).RoundTrip

end Value

/-- **Locations, names, policies and diagnostics come back from a round trip as they were.** -/
theorem roundTrips : Value.RoundTrips where
  location _ := Value.roundTrip_of_isRebuildable rfl
  name _ := Value.roundTrip_of_isRebuildable rfl
  policy _ := Value.roundTrip_of_isRebuildable rfl
  diagnostic l _ _ hm := Value.roundTrip_of_isRebuildable
    (Bool.and_eq_true_iff.2 ⟨Value.isRebuildable_ofLocation? l, Value.isRebuildable_of_text hm⟩)

end TagScope

import TagScope.Datum
import TagScope.OrderedSet
/-!
# Bindings

What a scope declares. As a rule these are names, but a scope takes any plain data that a set can
hold, and shows them in order.

* `Binding.key`: what decides which bindings count as one; **a truth value counts as the number one
  or zero**.
* `Binding.ofDatum?`: everything but lists and dictionaries can be declared.
* `Bindings`: the set that belongs to a scope: nothing comes first, then numbers by value, then
  names by their characters.
-/

namespace TagScope

/-! ## 1. The type -/

/-- Something that a scope can declare. -/
inductive Binding where
  | null
  | bool (b : Bool)
  | int (n : Int)
  | decimal (d : Decimal)
  | text (s : String)
deriving DecidableEq

namespace Binding

/-- A binding as a datum. -/
def toDatum : Binding → Datum
  | null => .null
  | bool b => .bool b
  | int n => .int n
  | decimal d => .decimal d
  | text s => .text s

/-- The binding that a datum makes. -/
def ofDatum? : Datum → Option Binding
  | .null => some null
  | .bool b => some (bool b)
  | .int n => some (int n)
  | .decimal d => some (decimal d)
  | .text s => some (text s)
  | .list _ => none
  | .mapping _ => none

/-- The form in a constructor call. -/
def shown (b : Binding) : String := b.toDatum.shown

/-! ## 2. Keys and their order -/

/-- What two bindings must share to count as one. -/
inductive Key where
  | null
  | number (q : Rat)
  | text (s : String)
deriving DecidableEq

namespace Key

/-- Whether a key comes before another one. -/
def before : Key → Key → Bool
  | .null, .null => false
  | .null, _ => true
  | .number p, .number q => p.blt q
  | .number _, .text _ => true
  | .text s, .text t => s < t
  | _, _ => false

theorem before_irrefl : ∀ k : Key, k.before k = false
  | .null => rfl
  | .number q => Bool.eq_false_iff.2 (Rat.lt_irrefl : ¬ q < q)
  | .text s => decide_eq_false (String.lt_irrefl s)

theorem before_trans : ∀ {k m n : Key}, k.before m = true → m.before n = true → k.before n = true
  | .null, .null, _, h, _ => nomatch h
  | .null, .number _, .number _, _, _ => rfl
  | .null, .number _, .text _, _, _ => rfl
  | .null, .text _, .text _, _, _ => rfl
  | .number p, .number q, .number r, h₁, h₂ => (Std.lt_trans (h₁ : p < q) (h₂ : q < r) : p < r)
  | .number _, .number _, .text _, _, _ => rfl
  | .number _, .text _, .text _, _, _ => rfl
  | .text _, .text _, .text _, h₁, h₂ =>
    decide_eq_true (String.lt_trans (of_decide_eq_true h₁) (of_decide_eq_true h₂))

/-- **Of two keys one comes before the other, or they are the same.** -/
theorem eq_of_not_before : ∀ {k m : Key}, k.before m = false → m.before k = false → k = m
  | .null, .null, _, _ => rfl
  | .number p, .number q, h₁, h₂ => by
    have h₁ : ¬ p < q := Bool.eq_false_iff.1 h₁
    have h₂ : ¬ q < p := Bool.eq_false_iff.1 h₂
    rw [Rat.le_antisymm (Rat.not_lt.1 h₂) (Rat.not_lt.1 h₁)]
  | .text s, .text t, h₁, h₂ => by
    have h₁ : ¬ s < t := of_decide_eq_false h₁
    have h₂ : ¬ t < s := of_decide_eq_false h₂
    rw [String.le_antisymm (String.not_lt.1 h₂) (String.not_lt.1 h₁)]

end Key

/-- The key of a binding. -/
def key : Binding → Key
  | null => .null
  | bool b => .number (Rat.ofInt (if b then 1 else 0))
  | int n => .number (Rat.ofInt n)
  | decimal d => .number d.toRat
  | text s => .text s

/-- Whether a binding comes before another one. Names are compared as they are, all else by key. -/
def before : Binding → Binding → Bool
  | text s, text t => s < t
  | a, b => a.key.before b.key

theorem before_eq (a b : Binding) : a.before b = a.key.before b.key := by
  cases a <;> cases b <;> rfl

instance : LT Binding := ⟨fun a b => a.before b = true⟩

instance : DecidableLT Binding := fun a b => inferInstanceAs (Decidable (a.before b = true))

instance : StrictOrder Binding where
  irrefl a := by
    show ¬ a.before a = true
    simp [before_eq, Key.before_irrefl]
  trans {a b c} h₁ h₂ := by
    have h₁ : a.before b = true := h₁
    have h₂ : b.before c = true := h₂
    show a.before c = true
    rw [before_eq] at h₁ h₂ ⊢
    exact Key.before_trans h₁ h₂

/-- **A name is told from every other binding.** -/
theorem separated_text (s : String) : OrderedSet.Separated (text s) := by
  intro y h₁ h₂
  cases y with
  | text t =>
    have h₁ : ¬ s < t := fun h => h₁ (decide_eq_true h)
    have h₂ : ¬ t < s := fun h => h₂ (decide_eq_true h)
    rw [TagScope.separated_text s t h₁ h₂]
  | _ => exact absurd rfl h₂

end Binding

/-! ## 3. Sets of bindings -/

/-- What a scope declares, in order. -/
abbrev Bindings := OrderedSet Binding

/-- Each binding of a list is in its set, or one that counts as the same. -/
theorem Bindings.exists_key_eq {x : Binding} {l : List Binding} (h : x ∈ l) :
    ∃ y ∈ (OrderedSet.ofList l : Bindings), y.key = x.key := by
  obtain ⟨y, hy, h₁, h₂⟩ := OrderedSet.exists_mem_ofList h
  have h₁ : ¬ x.before y = true := h₁
  have h₂ : ¬ y.before x = true := h₂
  rw [Binding.before_eq, Bool.not_eq_true] at h₁ h₂
  exact ⟨y, hy, Binding.Key.eq_of_not_before h₂ h₁⟩

example : (OrderedSet.ofList [Binding.text "a", .int 2, .bool true, .int 1, .null]).toList
    = [.null, .bool true, .int 2, .text "a"] := by decide

end TagScope

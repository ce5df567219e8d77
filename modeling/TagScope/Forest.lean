import TagScope.Scope.Binding
import TagScope.Scope.Kind
/-!
# Forests of scopes

Lexical scopes are built from the inside out: a scope is made with its children, which must not
have been given away before. Scopes are numbered in the order in which they are built. A scope
never changes once it is built, but for the link to the scope that it is given to.

* `Scope`, `Forest`: every scope ever built, oldest first, and the handles that keep scopes.
* `Forest.owners`: the scopes that came to hold a scope, from the nearest outwards, alive or not,
  found by following the links.
* `Forest.alive`: **a scope lives as long as it or one of its owners is held by a handle.**
* `Forest.parent?`: the scope that a scope was given to, while that one is alive. A scope whose
  owner is gone is a root again, but it stays `attached`.
* `Forest.ancestors`: the owners that are alive.
-/

namespace TagScope

/-! ## 1. Scopes -/

/-- A lexical scope. -/
structure Scope where
  /-- The name under which answers speak of the scope. -/
  label : String
  kind : ScopeKind
  bindings : Bindings
  /-- The numbers of the scopes directly inside, in order. -/
  children : List Nat
  /-- The number of the scope that it was given to, alive or not. -/
  holder : Option Nat := none

/-- All scopes built so far, and the handles on some of them. -/
structure Forest where
  /-- The scopes in the order in which they were built. -/
  scopes : Array Scope := #[]
  /-- The ids under which scopes are held. -/
  handles : List (String × Nat) := []

namespace Forest

/-- The forest in which nothing was built yet. -/
def empty : Forest := {}

/-- The scope with number `i`. -/
def scope? (f : Forest) (i : Nat) : Option Scope := f.scopes[i]?

/-- The name under which answers speak of scope `i`. -/
def label (f : Forest) (i : Nat) : String := (f.scope? i).elim "" (·.label)

/-! ## 2. Links outwards -/

/-- The scope that scope `i` was given to, alive or not. -/
def holder? (f : Forest) (i : Nat) : Option Nat := (f.scope? i).bind (·.holder)

/-- Whether scope `i` was ever given away as a child. -/
def attached (f : Forest) (i : Nat) : Bool := (f.holder? i).isSome

/-- Whether scope `i` was ever linked to another one. -/
def linked (f : Forest) (i : Nat) : Bool :=
  f.attached i || (f.scope? i).any (fun s => !s.children.isEmpty)

/-- The scopes that came to hold scope `i`, directly or not, from the nearest outwards. An owner is
    built after what it holds; a link that does not lead to a later scope is not followed. -/
def owners (f : Forest) (i : Nat) : List Nat :=
  match f.holder? i with
  | some p => if i < p ∧ p < f.scopes.size then p :: f.owners p else []
  | none => []
termination_by f.scopes.size - i

/-! ## 3. Handles and lifetime -/

/-- The scope held under an id. -/
def held? (f : Forest) (id : String) : Option Nat := f.handles.lookup id

/-- Whether some handle holds scope `i`. -/
def held (f : Forest) (i : Nat) : Bool := f.handles.any (·.2 == i)

/-- Whether scope `i` still exists. -/
def alive (f : Forest) (i : Nat) : Bool := f.held i || (f.owners i).any f.held

/-- The living scope that scope `i` was given to. -/
def parent? (f : Forest) (i : Nat) : Option Nat := (f.holder? i).filter f.alive

/-- The list up to its last member with `p`, and nothing if there is none. -/
def throughLast {α : Type} (p : α → Bool) : List α → List α
  | [] => []
  | a :: l =>
    match throughLast p l with
    | [] => if p a then [a] else []
    | m => a :: m

theorem throughLast_eq_nil {α : Type} {p : α → Bool} : ∀ {l : List α},
    throughLast p l = [] ↔ l.any p = false
  | [] => by simp [throughLast]
  | a :: l => by
    have ih := throughLast_eq_nil (p := p) (l := l)
    rw [throughLast, List.any_cons, Bool.or_eq_false_iff, ← ih]
    split
    · next h => cases p a <;> simp [h]
    · next h => exact ⟨nofun, fun e => absurd e.2 h⟩

/-- The living scopes around scope `i`, from the nearest outwards. An owner is alive when it or one
    further out is held. -/
def ancestors (f : Forest) (i : Nat) : List Nat := throughLast f.held (f.owners i)

/-- How many living scopes are around scope `i`. -/
def depth (f : Forest) (i : Nat) : Nat := (f.ancestors i).length

/-! ## 4. Changes -/

/-- The scopes, with scope `c` given to scope `p`. -/
def give (p : Nat) (scopes : Array Scope) (c : Nat) : Array Scope :=
  scopes.modify c fun s => { s with holder := some p }

/-- The forest after one more scope was built, and its children were given to it. -/
def push (f : Forest) (s : Scope) : Forest :=
  { f with scopes := (s.children.foldl (give f.scopes.size) f.scopes).push s }

/-- The forest in which `id` holds scope `i`. -/
def hold (f : Forest) (id : String) (i : Nat) : Forest :=
  { f with handles := (id, i) :: f.handles.filter (·.1 != id) }

/-- The forest in which `id` holds nothing. -/
def release (f : Forest) (id : String) : Forest :=
  { f with handles := f.handles.filter (·.1 != id) }

/-! ## 5. Constructor calls -/

/-- A set of bindings as it is shown. The form of a `frozenset` leaves the order of its members
    open; they stand here in the order of `Bindings`, the canonical one, in which the program as it
    is run gives its answers. -/
def bindingsShown (s : Bindings) : String :=
  match s.toList with
  | [] => "frozenset()"
  | l => "frozenset(\x7b" ++ ", ".intercalate (l.map Binding.shown) ++ "\x7d)"

/-- A sequence in parentheses; a single member is followed by a comma. -/
def tupleShown : List String → String
  | [s] => "(" ++ s ++ ",)"
  | l => "(" ++ ", ".intercalate l ++ ")"

/-- The constructor call of scope `i`: kind, bindings and children as positional arguments, which is
    the form that `generate_repr` of `reprit` gives by default. The bindings stand in canonical
    order (`bindingsShown`), and the calls of the children stand inside. -/
def shown (f : Forest) (i : Nat) : String :=
  match f.scope? i with
  | none => ""
  | some s =>
    "Scope(" ++ s.kind.shown ++ ", " ++ bindingsShown s.bindings ++ ", "
      ++ tupleShown (s.children.map fun c => if _h : c < i then shown f c else "") ++ ")"
termination_by i

end Forest

end TagScope

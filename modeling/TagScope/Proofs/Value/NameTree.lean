import TagScope.Proofs.Value.Fields
/-!
# Name trees

Trees of constructor calls for locations and names, with any values at their leaves. They are built
from the inside out; which checks are made on the way, and in which order, is told by the calls and
not by what they build.

* `FirstFailing`: the first member of a list that fails.
* `NameTree.nodes`: the calls of a tree, each one behind those among its arguments.
* `NameTree.Legal`: a call whose arguments are what its constructor asks for.
* `Check`, `NameTree.checks`: the checks of one call, in their order, with the class and the text of
  what is said where one fails.
* `NameTree.FirstFault`: **the first check that fails in the first call that is not legal.**
* `NameTree.Makes`, `build_eq_ok_iff`: the value of a tree, **whose fields are the arguments.**
-/

namespace TagScope

/-! ## 1. The first that fails -/

/-- The first member of a list that fails `P` has the property `Q`. -/
inductive FirstFailing {α : Type} (P Q : α → Prop) : List α → Prop
  | here {a : α} {l : List α} (hp : ¬ P a) (hq : Q a) : FirstFailing P Q (a :: l)
  | later {a : α} {l : List α} (hp : P a) (hl : FirstFailing P Q l) : FirstFailing P Q (a :: l)

section Lists

variable {α β : Type} {P Q R : α → Prop} {a : α} {l m : List α}

theorem FirstFailing.not_all (h : FirstFailing P Q l) : ¬ ∀ a ∈ l, P a := by
  induction h with
  | here hp _ => exact fun h => hp (h _ List.mem_cons_self)
  | later _ _ ih => exact fun h => ih fun a ha => h a (List.mem_cons_of_mem _ ha)

/-- There is one first member that fails. -/
theorem FirstFailing.both (h : FirstFailing P Q l) (h' : FirstFailing P R l) :
    ∃ a, Q a ∧ R a := by
  induction h with
  | here hp hq =>
      cases h' with
      | here _ hr => exact ⟨_, hq, hr⟩
      | later hp' _ => exact absurd hp' hp
  | later hp _ ih =>
      cases h' with
      | here hp' _ => exact absurd hp hp'
      | later _ h' => exact ih h'

theorem FirstFailing.append (h : FirstFailing P Q l) : FirstFailing P Q (l ++ m) := by
  induction h with
  | here hp hq => exact .here hp hq
  | later hp _ ih => exact .later hp ih

theorem FirstFailing.behind (hl : ∀ a ∈ l, P a) (h : FirstFailing P Q m) :
    FirstFailing P Q (l ++ m) := by
  induction l with
  | nil => exact h
  | cons a l ih =>
      obtain ⟨ha, hl⟩ := List.forall_mem_cons.1 hl
      exact .later ha (ih hl)

theorem firstFailing_append : FirstFailing P Q (l ++ m) ↔
    FirstFailing P Q l ∨ (∀ a ∈ l, P a) ∧ FirstFailing P Q m := by
  constructor
  · intro h
    induction l with
    | nil => exact Or.inr ⟨fun _ h => absurd h List.not_mem_nil, h⟩
    | cons a l ih =>
        cases h with
        | here hp hq => exact Or.inl (.here hp hq)
        | later hp h =>
            refine (ih h).imp (.later hp) fun h => ⟨?_, h.2⟩
            exact List.forall_mem_cons.2 ⟨hp, h.1⟩
  · rintro (h | ⟨hl, h⟩)
    · exact h.append
    · exact h.behind hl

/-- **In a list of lists the first that fails is found in the first list with one that fails.** -/
theorem firstFailing_flatMap {g : β → List α} {l : List β} : FirstFailing P Q (l.flatMap g) ↔
    FirstFailing (fun b => ∀ a ∈ g b, P a) (fun b => FirstFailing P Q (g b)) l := by
  induction l with
  | nil => exact ⟨nofun, nofun⟩
  | cons b l ih =>
      rw [List.flatMap_cons, firstFailing_append, ih]
      constructor
      · rintro (h | ⟨hb, h⟩)
        · exact .here h.not_all h
        · exact .later hb h
      · intro h
        cases h with
        | here _ h => exact Or.inl h
        | later hb h => exact Or.inr ⟨hb, h⟩

end Lists

/-! ## 2. Trees of constructor calls -/

/-- A tree of calls of the constructors of locations and names. A location that is left out is
    given as nothing. -/
inductive NameTree where
  | given (v : Value)
  | location (line column : NameTree)
  | simple (name location : NameTree)
  | member (object property location : NameTree)
  | namespaced (space localName location : NameTree)

namespace NameTree

/-- The value of a tree: the arguments of a call are built from left to right, and then the call is
    made. -/
def build : NameTree → Except Failure Value
  | .given v => .ok v
  | .location l c => do Value.buildLocation (← l.build) (← c.build)
  | .simple n l => do Value.buildSimple (← n.build) (← l.build)
  | .member o p l => do Value.buildMember (← o.build) (← p.build) (← l.build)
  | .namespaced s n l => do Value.buildNamespaced (← s.build) (← n.build) (← l.build)

/-- The calls of a tree in the order in which they are made. -/
def nodes : NameTree → List NameTree
  | .given _ => []
  | .location l c => l.nodes ++ (c.nodes ++ [.location l c])
  | .simple n l => n.nodes ++ (l.nodes ++ [.simple n l])
  | .member o p l => o.nodes ++ (p.nodes ++ (l.nodes ++ [.member o p l]))
  | .namespaced s n l => s.nodes ++ (n.nodes ++ (l.nodes ++ [.namespaced s n l]))

/-! ## 3. Arguments -/

/-- The sort of an argument. -/
def shape : NameTree → Shape
  | .given v => v.shape
  | .location .. => .location
  | .simple .. => .simpleName
  | .member .. => .memberPath
  | .namespaced .. => .namespacedName

/-- The text of an argument that is one; a source type is a text. -/
def text? : NameTree → Option String
  | .given v => v.text?
  | _ => none

/-- The number of an argument that is a whole one; truth values and kinds are whole numbers. -/
def whole? : NameTree → Option Whole
  | .given v => v.whole?
  | _ => none

/-- The argument is a text, and not the empty one. -/
def IsIdentifier (x : NameTree) : Prop := ∃ s, x.text? = some s ∧ s ≠ ""

/-- The argument is an element name. -/
def IsName (x : NameTree) : Prop := x.shape ∈ [.simpleName, .memberPath, .namespacedName]

/-- The argument is a location or nothing. -/
def IsLocation (x : NameTree) : Prop := x.shape ∈ [.null, .location]

/-- **The arguments of a call are what its constructor asks for.** -/
def Legal : NameTree → Prop
  | .given _ => True
  | .location l c =>
    ∃ m n, l.whole? = some m ∧ c.whole? = some n ∧ 1 ≤ m.toInt ∧ 0 ≤ n.toInt
  | .simple n l => n.IsIdentifier ∧ l.IsLocation
  | .member o p l => o.IsName ∧ p.IsIdentifier ∧ l.IsLocation
  | .namespaced s n l => s.IsIdentifier ∧ n.IsIdentifier ∧ l.IsLocation

end NameTree

/-! ## 4. Checks -/

/-- One check of arguments. -/
inductive Check where
  | object (x : NameTree)
  | text (x : NameTree)
  | nonEmpty (x : NameTree)
  | location (x : NameTree)
  | wholes (line column : NameTree)
  | range (line column : Whole)

namespace Check

/-- What is checked. -/
def Passes : Check → Prop
  | .object x => x.IsName
  | .text x => ∃ s, x.text? = some s
  | .nonEmpty x => x.text? ≠ some ""
  | .location x => x.IsLocation
  | .wholes l c => (∃ m, l.whole? = some m) ∧ ∃ n, c.whole? = some n
  | .range m n => 1 ≤ m.toInt ∧ 0 ≤ n.toInt

/-- The class of the failure where a check fails. -/
def category : Check → Failure.Category
  | .object _ | .text _ | .location _ | .wholes .. => .wrongType
  | .nonEmpty _ | .range .. => .wrongValue

/-- What is said then. -/
def message : Check → String
  | .object x => "Object should be an element name, but found: " ++ x.shape.shown ++ "."
  | .text x => "Identifier should have type <class 'str'>, but found: " ++ x.shape.shown ++ "."
  | .nonEmpty _ => "Identifier should be non-empty."
  | .location x => "Location should have type <class 'jsxref._core.names.Location'>, but found: "
    ++ x.shape.shown ++ "."
  | .wholes l c => "Line and column should be integers, but found: " ++ l.shape.shown ++ ", "
    ++ c.shape.shown ++ "."
  | .range m n => "Line should be positive and column non-negative, but found: " ++ m.shown ++ ", "
    ++ n.shown ++ "."

/-- Where the check fails, the failure has this class and this text. -/
def Says (category : Failure.Category) (message : String) (k : Check) : Prop :=
  k.category = category ∧ k.message = message

end Check

namespace NameTree

/-- The checks of one call. A text is looked at before its length, the object of a property before
    the property, and the location last; the range is checked of whole numbers only. -/
def checks : NameTree → List Check
  | .given _ => []
  | .location l c => .wholes l c ::
    match l.whole?, c.whole? with
    | some m, some n => [.range m n]
    | _, _ => []
  | .simple n l => [.text n, .nonEmpty n, .location l]
  | .member o p l => [.object o, .text p, .nonEmpty p, .location l]
  | .namespaced s n l => [.text s, .nonEmpty s, .text n, .nonEmpty n, .location l]

/-- **The first fault of a tree**: in the first call that is not legal, the first check that fails,
    with its class and its text. -/
def FirstFault (c : NameTree) (category : Failure.Category) (message : String) : Prop :=
  FirstFailing Legal (fun n => FirstFailing Check.Passes (Check.Says category message) n.checks)
    c.nodes

variable {x l c n o p s : NameTree} {v w : Value}

theorem isIdentifier_iff : x.IsIdentifier ↔ (Check.text x).Passes ∧ (Check.nonEmpty x).Passes := by
  constructor
  · intro ⟨s, hs, hne⟩
    refine ⟨⟨s, hs⟩, fun h => hne ?_⟩
    exact Option.some.inj (hs.symm.trans h)
  · intro ⟨⟨s, hs⟩, hne⟩
    refine ⟨s, hs, fun h => hne ?_⟩
    rw [hs, h]

/-- **A call is legal when all its checks pass.** -/
theorem legal_iff (n : NameTree) : n.Legal ↔ ∀ k ∈ n.checks, k.Passes := by
  have hnil : (∀ k ∈ ([] : List Check), k.Passes) ↔ True := iff_true_intro (List.forall_mem_nil _)
  cases n with
  | given v => exact iff_of_true trivial fun _ h => absurd h List.not_mem_nil
  | location l c =>
      simp only [Legal, checks, List.forall_mem_cons, Check.Passes]
      cases l.whole? with
      | none => simp
      | some m =>
          cases c.whole? with
          | none => simp
          | some n => simp
  | simple n l =>
      simp only [Legal, isIdentifier_iff, checks, List.forall_mem_cons, hnil, and_true, and_assoc]
      exact Iff.rfl
  | member o p l =>
      simp only [Legal, isIdentifier_iff, checks, List.forall_mem_cons, hnil, and_true, and_assoc]
      exact Iff.rfl
  | namespaced s n l =>
      simp only [Legal, isIdentifier_iff, checks, List.forall_mem_cons, hnil, and_true, and_assoc]
      exact Iff.rfl

end NameTree

/-! ## 5. Fields are arguments -/

namespace NameTree

/-- **What a tree makes**: the fields of a location or a name are what the arguments make, each of
    them as it was given. -/
inductive Makes : NameTree → Value → Prop
  | given (v : Value) : Makes (.given v) v
  | location {l c : NameTree} {m : Location} (hl : Makes l (.ofWhole m.line))
      (hc : Makes c (.ofWhole m.column)) : Makes (.location l c) (.location m)
  | simple {n l : NameTree} {i : Identifier} {k : Option Location}
      (hn : Makes n (.ofIdentifier i)) (hl : Makes l (.ofLocation? k)) :
      Makes (.simple n l) (.name (.simple i k))
  | member {o p l : NameTree} {x : ElementName} {i : Identifier} {k : Option Location}
      (ho : Makes o (.name x)) (hp : Makes p (.ofIdentifier i)) (hl : Makes l (.ofLocation? k)) :
      Makes (.member o p l) (.name (.member x i k))
  | namespaced {s n l : NameTree} {i j : Identifier} {k : Option Location}
      (hs : Makes s (.ofIdentifier i)) (hn : Makes n (.ofIdentifier j))
      (hl : Makes l (.ofLocation? k)) : Makes (.namespaced s n l) (.name (.namespaced i j k))

theorem build_eq_ok_iff {c : NameTree} : ∀ {v : Value}, c.build = .ok v ↔ c.Makes v := by
  induction c with
  | given w =>
      refine ⟨fun h => Except.ok.inj h ▸ .given w, fun h => ?_⟩
      cases h
      rfl
  | location l c ihl ihc =>
      refine ⟨fun h => ?_, fun h => ?_⟩
      · obtain ⟨v, hv, h⟩ := Failure.bind_eq_ok.1 h
        obtain ⟨w, hw, h⟩ := Failure.bind_eq_ok.1 h
        obtain ⟨m, rfl, rfl, rfl⟩ := Value.fields_of_buildLocation h
        exact .location (ihl.1 hv) (ihc.1 hw)
      · cases h with
        | @location _ _ m hl hc =>
            refine Failure.bind_eq_ok.2 ⟨_, ihl.2 hl, ?_⟩
            exact Failure.bind_eq_ok.2 ⟨_, ihc.2 hc, Value.buildLocation_ofWhole m⟩
  | simple n l ihn ihl =>
      refine ⟨fun h => ?_, fun h => ?_⟩
      · obtain ⟨v, hv, h⟩ := Failure.bind_eq_ok.1 h
        obtain ⟨w, hw, h⟩ := Failure.bind_eq_ok.1 h
        obtain ⟨i, k, rfl, rfl, rfl⟩ := Value.fields_of_buildSimple h
        exact .simple (ihn.1 hv) (ihl.1 hw)
      · cases h with
        | @simple _ _ i k hn hl =>
            refine Failure.bind_eq_ok.2 ⟨_, ihn.2 hn, ?_⟩
            exact Failure.bind_eq_ok.2 ⟨_, ihl.2 hl, Value.buildSimple_ofIdentifier i k⟩
  | member o p l iho ihp ihl =>
      refine ⟨fun h => ?_, fun h => ?_⟩
      · obtain ⟨u, hu, h⟩ := Failure.bind_eq_ok.1 h
        obtain ⟨v, hv, h⟩ := Failure.bind_eq_ok.1 h
        obtain ⟨w, hw, h⟩ := Failure.bind_eq_ok.1 h
        obtain ⟨x, i, k, rfl, rfl, rfl, rfl⟩ := Value.fields_of_buildMember h
        exact .member (iho.1 hu) (ihp.1 hv) (ihl.1 hw)
      · cases h with
        | @member _ _ _ x i k ho hp hl =>
            refine Failure.bind_eq_ok.2 ⟨_, iho.2 ho, ?_⟩
            refine Failure.bind_eq_ok.2 ⟨_, ihp.2 hp, ?_⟩
            exact Failure.bind_eq_ok.2 ⟨_, ihl.2 hl, Value.buildMember_ofIdentifier i x k⟩
  | namespaced s n l ihs ihn ihl =>
      refine ⟨fun h => ?_, fun h => ?_⟩
      · obtain ⟨u, hu, h⟩ := Failure.bind_eq_ok.1 h
        obtain ⟨v, hv, h⟩ := Failure.bind_eq_ok.1 h
        obtain ⟨w, hw, h⟩ := Failure.bind_eq_ok.1 h
        obtain ⟨i, j, k, rfl, rfl, rfl, rfl⟩ := Value.fields_of_buildNamespaced h
        exact .namespaced (ihs.1 hu) (ihn.1 hv) (ihl.1 hw)
      · cases h with
        | @namespaced _ _ _ i j k hs hn hl =>
            refine Failure.bind_eq_ok.2 ⟨_, ihs.2 hs, ?_⟩
            refine Failure.bind_eq_ok.2 ⟨_, ihn.2 hn, ?_⟩
            exact Failure.bind_eq_ok.2 ⟨_, ihl.2 hl, Value.buildNamespaced_ofIdentifier j i k⟩

end NameTree

end TagScope

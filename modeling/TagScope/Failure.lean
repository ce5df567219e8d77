import TagScope.Value.Shape
/-!
# Failures

Every reason for which an operation gives no answer.

* `Failure`: one constructor per cause, with what the message needs to know.
* `Failure.category`: the class of a failure.
* `Failure.message`: its text, **the only place where messages are worded**.
* `Failure.bind_eq_ok`: when two computations in a row succeed.
-/

namespace TagScope

/-! ## 1. Causes -/

/-- The parts of a value that an operation may ask for. -/
inductive Part where
  | name
  | location
  | bindings
  | parent
  | allowGlobals
deriving DecidableEq, Repr

/-- The word for a part. -/
def Part.word : Part → String
  | .name => "name"
  | .location => "location"
  | .bindings => "bindings"
  | .parent => "_parent"
  | .allowGlobals => "allow_globals"

/-- Why an operation failed. -/
inductive Failure where
  | notWhole (line column : Shape)
  /-- Line or column of a location is too small; both are given as they are shown. -/
  | outOfRange (line column : String)
  | notIdentifier (found : Shape)
  | emptyIdentifier
  | notLocation (found : Shape)
  | notElementName (found : Shape)
  | notKind (found : Shape)
  /-- A child, given as it is shown, has been attached before. -/
  | attached (child : String)
  /-- A value lacks the part that is asked for. -/
  | missing (found : Shape) (part : Part)
  | notIterable (found : Shape)
  /-- A value cannot be looked up in a set. -/
  | unhashable (found : Shape)
  | notSearchable (found : Shape)
  | notPair (found : Shape)
  | tooFew (count : Nat)
  | tooMany
  /-- The text of a value turned out to be no text. -/
  | textNotText (found : Shape)
  | notRebuilt
  | linked
  | optionsNotMapping (found : Shape)
  /-- There are unknown options, given as they are shown, in order. -/
  | unknownOptions (names : List String)
  /-- An option, given as it is shown, is no truth value. -/
  | optionNotBool (found : String)
  /-- A source type, given as it is shown, is none. -/
  | notSourceType (found : String)
  | noSuchScope (id : String)
deriving DecidableEq

/-! ## 2. Classes -/

/-- The classes of failures. -/
inductive Failure.Category where
  | wrongType
  | wrongValue
  | missingPart
  | invalidOptions
  | noSuchScope
deriving DecidableEq, Repr

namespace Failure

/-- The class of a failure. -/
def category : Failure → Category
  | .outOfRange .. | .emptyIdentifier | .attached _ | .tooFew _ | .tooMany => .wrongValue
  | .missing .. => .missingPart
  | .optionsNotMapping _ | .unknownOptions _ | .optionNotBool _ | .notSourceType _ => .invalidOptions
  | .noSuchScope _ => .noSuchScope
  | _ => .wrongType

/-! ## 3. Messages -/

/-- The text of a failure. -/
def message : Failure → String
  | .notWhole line column =>
    "Line and column should be integers, but found: " ++ line.shown ++ ", " ++ column.shown ++ "."
  | .outOfRange line column =>
    "Line should be positive and column non-negative, but found: " ++ line ++ ", " ++ column ++ "."
  | .notIdentifier found =>
    "Identifier should have type " ++ Shape.text.shown ++ ", but found: " ++ found.shown ++ "."
  | .emptyIdentifier => "Identifier should be non-empty."
  | .notLocation found =>
    "Location should have type " ++ Shape.location.shown ++ ", but found: " ++ found.shown ++ "."
  | .notElementName found => "Object should be an element name, but found: " ++ found.shown ++ "."
  | .notKind found =>
    "Kind should have type " ++ Shape.scopeKind.shown ++ ", but found: " ++ found.shown ++ "."
  | .attached child => "Scope " ++ child ++ " already has a parent."
  | .missing found part => "'" ++ found.word ++ "' object has no attribute '" ++ part.word ++ "'"
  | .notIterable found => "'" ++ found.word ++ "' object is not iterable"
  | .unhashable found => "unhashable type: '" ++ found.word ++ "'"
  | .notSearchable found => "expected string or bytes-like object, got '" ++ found.word ++ "'"
  | .notPair found => "cannot unpack non-iterable " ++ found.word ++ " object"
  | .tooFew count => "not enough values to unpack (expected 2, got " ++ toString count ++ ")"
  | .tooMany => "too many values to unpack (expected 2)"
  | .textNotText found => "__str__ returned non-string (type " ++ found.word ++ ")"
  | .linked => "cannot pickle 'weakref.ReferenceType' object"
  | .notRebuilt => "Reference.__new__() missing 1 required positional argument: 'name'"
  | .optionsNotMapping found => "Options should be a mapping, but found: " ++ found.shown ++ "."
  | .unknownOptions names => "Unknown options: " ++ ", ".intercalate names ++ "."
  | .optionNotBool found =>
    "Option 'allowGlobals' should be a boolean, but found: " ++ found ++ "."
  | .notSourceType found =>
    "Source type should be one of 'module', 'script', but found: " ++ found ++ "."
  | .noSuchScope id => id

/-! ## 4. Outcomes -/

/-- **Two computations in a row succeed when the first does, and the second does on its value.** -/
theorem bind_eq_ok {α β : Type} {x : Except Failure α} {k : α → Except Failure β} {b : β} :
    (x >>= k) = .ok b ↔ ∃ a, x = .ok a ∧ k a = .ok b := by
  cases x with
  | error e => exact ⟨nofun, fun ⟨_, h, _⟩ => nomatch h⟩
  | ok a => exact ⟨fun h => ⟨a, rfl, h⟩, fun ⟨_, e, h⟩ => Except.ok.inj e ▸ h⟩

/-- Two computations in a row fail when the first does, or the second does on its value. -/
theorem bind_eq_error {α β : Type} {x : Except Failure α} {k : α → Except Failure β} {e : Failure} :
    (x >>= k) = .error e ↔ x = .error e ∨ ∃ a, x = .ok a ∧ k a = .error e := by
  cases x with
  | error e' =>
    have same : (Except.error e' >>= k) = .error e ↔ e' = e :=
      ⟨Except.error.inj, congrArg Except.error⟩
    rw [same, Except.error.injEq]
    exact ⟨.inl, fun h => h.resolve_right fun ⟨_, h, _⟩ => nomatch h⟩
  | ok a =>
    exact ⟨fun h => .inr ⟨a, rfl, h⟩, fun h => h.elim nofun fun ⟨_, e, h⟩ => Except.ok.inj e ▸ h⟩

/-- Each result of a successful pass over a list comes of one of its members. -/
theorem of_mem_mapM {α β : Type} {k : α → Except Failure β} {b : β} : ∀ {l : List α} {m : List β},
    l.mapM k = .ok m → b ∈ m → ∃ a ∈ l, k a = .ok b
  | [], m, h, hb => by
    rw [List.mapM_nil] at h
    obtain rfl : [] = m := Except.ok.inj h
    exact absurd hb List.not_mem_nil
  | a :: l, m, h, hb => by
    rw [List.mapM_cons, bind_eq_ok] at h
    obtain ⟨c, hc, h⟩ := h
    obtain ⟨n, hn, h⟩ := bind_eq_ok.1 h
    obtain rfl : c :: n = m := Except.ok.inj h
    rcases List.mem_cons.1 hb with rfl | hb
    · exact ⟨a, List.mem_cons_self, hc⟩
    · obtain ⟨a', ha, h⟩ := of_mem_mapM hn hb
      exact ⟨a', List.mem_cons_of_mem _ ha, h⟩

/-- A pass over a list succeeds when it does on each member. -/
theorem exists_mapM_eq_ok_iff {α β : Type} {k : α → Except Failure β} : ∀ {l : List α},
    (∃ m, l.mapM k = .ok m) ↔ ∀ a ∈ l, ∃ b, k a = .ok b
  | [] => ⟨fun _ _ ha => absurd ha List.not_mem_nil, fun _ => ⟨[], rfl⟩⟩
  | a :: l => by
    rw [List.forall_mem_cons, ← exists_mapM_eq_ok_iff (l := l), List.mapM_cons]
    constructor
    · intro ⟨_, h⟩
      obtain ⟨b, hb, h⟩ := bind_eq_ok.1 h
      obtain ⟨n, hn, _⟩ := bind_eq_ok.1 h
      exact ⟨⟨b, hb⟩, n, hn⟩
    · intro ⟨⟨b, hb⟩, n, hn⟩
      exact ⟨b :: n, bind_eq_ok.2 ⟨b, hb, bind_eq_ok.2 ⟨n, hn, rfl⟩⟩⟩

/-- **A pass over a list fails at the first member on which it does**, with the failure there. -/
theorem mapM_eq_error_iff {α β : Type} {k : α → Except Failure β} {e : Failure} : ∀ {l : List α},
    l.mapM k = .error e ↔ ∃ before a after, l = before ++ a :: after ∧
      (∀ c ∈ before, ∃ b, k c = .ok b) ∧ k a = .error e
  | [] => by
    refine ⟨nofun, fun ⟨before, _, _, h, _⟩ => ?_⟩
    cases before <;> cases h
  | a :: l => by
    rw [List.mapM_cons, bind_eq_error]
    constructor
    · rintro (h | ⟨b, hb, h⟩)
      · exact ⟨[], a, l, rfl, fun _ hc => absurd hc List.not_mem_nil, h⟩
      · have hl : l.mapM k = .error e :=
          (bind_eq_error.1 h).resolve_right fun ⟨_, _, h⟩ => nomatch h
        obtain ⟨before, c, after, rfl, hbefore, hc⟩ := mapM_eq_error_iff.1 hl
        exact ⟨a :: before, c, after, rfl, List.forall_mem_cons.2 ⟨⟨b, hb⟩, hbefore⟩, hc⟩
    · rintro ⟨before, c, after, h, hbefore, hc⟩
      cases before with
      | nil =>
        obtain ⟨rfl, rfl⟩ := List.cons.inj h
        exact Or.inl hc
      | cons _ before =>
        obtain ⟨rfl, rfl⟩ := List.cons.inj h
        obtain ⟨⟨b, hb⟩, hbefore⟩ := List.forall_mem_cons.1 hbefore
        have hl : (before ++ c :: after).mapM k = .error e :=
          mapM_eq_error_iff.2 ⟨before, c, after, rfl, hbefore, hc⟩
        exact Or.inr ⟨b, hb, bind_eq_error.2 (Or.inl hl)⟩

/-- A pass over a list looks at its members only. -/
theorem mapM_congr {α β : Type} {k k' : α → Except Failure β} : ∀ {l : List α},
    (∀ a ∈ l, k' a = k a) → l.mapM k' = l.mapM k
  | [], _ => rfl
  | a :: l, h => by
    obtain ⟨ha, hl⟩ := List.forall_mem_cons.1 h
    rw [List.mapM_cons, List.mapM_cons, ha, mapM_congr hl]

end Failure

end TagScope

import Mathlib.Data.List.Forall2
import TagScope.Proofs.Session.Admission
import TagScope.Proofs.Session.Stability
/-!
# Names as bindings

A caller supplies the names that a new scope declares as the characters of a text, as the keys of a
dictionary or as a list of texts. **How they are supplied never shows, only which names they are.**

* `Datum.Supplies`, `Datum.SameNames`: which names a datum supplies, and that two data supply the
  same ones.
* `Arranged`: the distinct ones of some names, in strictly increasing order of their code points.
* `Forest.describe_of_supplies`: **names make no fault, and a scope declares just the set of them.**
* `Step.SameNames.run_eq`, `runFrom_congr`: **steps that differ only in how names are supplied do
  the same, and so do sessions.**
* `Session.NameSets`, `bindings_are_name_sets`: in all sessions the bindings behave as a set.
-/

namespace TagScope

open Forest

/-! ## 1. Supplied names -/

/-- **The names that a datum supplies**, one after the other: a text its characters, a dictionary
    its keys, and a list of texts these texts. -/
inductive Datum.Supplies : Datum → List String → Prop
  | text (s : String) : Supplies (.text s) (s.toList.map String.singleton)
  | mapping (entries : Dictionary Datum) : Supplies (.mapping entries) entries.keys
  | list (names : List String) : Supplies (.list (names.map .text)) names

/-- Two data supply the same names, whatever their order, their repetitions and the form in which
    they come. -/
def Datum.SameNames (d d' : Datum) : Prop :=
  ∃ names names', d.Supplies names ∧ d'.Supplies names' ∧ ∀ x, x ∈ names ↔ x ∈ names'

section Supplies

variable {d : Datum} {names : List String}

theorem Datum.Supplies.items (h : d.Supplies names) : d.items? = some (names.map .text) := by
  cases h with
  | text s =>
      rw [List.map_map]
      rfl
  | mapping entries => rfl
  | list => rfl

theorem mapM_toBinding_text : ∀ names : List String,
    (names.map Datum.text).mapM Datum.toBinding = .ok (names.map Binding.text)
  | [] => rfl
  | x :: names => by
      rw [List.map_cons, List.mapM_cons, mapM_toBinding_text names]
      rfl

/-- **Names can always be in a set.** -/
theorem Datum.Supplies.toBindings (h : d.Supplies names) :
    d.toBindings = .ok (names.map Binding.text) := by
  rw [toBindings_eq, h.items]
  exact mapM_toBinding_text names

end Supplies

/-! ## 2. The set of some names -/

/-- The code points of a text, in their order. -/
def codePoints (s : String) : List Nat := s.toList.map Char.toNat

/-- **The order of texts is that of their code points**: the first difference decides, and a text
    comes before its continuations. -/
theorem codePoints_lt {s t : String} (h : s < t) : codePoints s < codePoints t :=
  List.map_lt (fun _ _ h => h) (String.lt_iff.1 h)

/-- **The distinct ones of some names, in strictly increasing order of their code points.** -/
structure Arranged (names arranged : List String) : Prop where
  mem_iff : ∀ x, x ∈ arranged ↔ x ∈ names
  increasing : arranged.Pairwise fun x y => codePoints x < codePoints y

theorem arranged_ofList (names : List String) :
    Arranged names (OrderedSet.ofList names).toList where
  mem_iff x := OrderedSet.mem_ofList (separated_text x)
  increasing := (OrderedSet.ofList names).increasing.imp codePoints_lt

/-- The set of bindings that are just some names. -/
def nameSet (names : List String) : Bindings := .ofList (names.map .text)

section NameSet

variable {names names' : List String} {x : Binding}

theorem mem_nameSet : x ∈ nameSet names ↔ x ∈ names.map Binding.text := by
  constructor
  · exact OrderedSet.mem_of_mem_ofList
  · intro h
    obtain ⟨n, _, rfl⟩ := List.mem_map.1 h
    exact (OrderedSet.mem_ofList (Binding.separated_text n)).2 h

/-- **The set depends only on which names there are.** -/
theorem nameSet_congr (h : ∀ x, x ∈ names ↔ x ∈ names') : nameSet names = nameSet names' := by
  refine OrderedSet.ext_mem fun x => ?_
  simp only [mem_nameSet, List.mem_map, h]

/-- The members of the set of some names are the distinct ones, in the order of the names. -/
theorem toList_nameSet (names : List String) :
    (nameSet names).toList = (OrderedSet.ofList names).toList.map .text := by
  have hlt : ∀ s t : String, s < t → Binding.text s < Binding.text t :=
    fun _ _ h => decide_eq_true h
  have increasing : ((OrderedSet.ofList names).toList.map Binding.text).Pairwise (· < ·) :=
    (OrderedSet.ofList names).increasing.map Binding.text hlt
  refine congrArg OrderedSet.toList (OrderedSet.ext_mem (t := ⟨_, increasing⟩) fun x => ?_)
  rw [mem_nameSet, ← OrderedSet.mem_toList]
  simp only [List.mem_map, (arranged_ofList names).mem_iff]

theorem exists_arranged (names : List String) :
    ∃ arranged, Arranged names arranged ∧ (nameSet names).toList = arranged.map .text :=
  ⟨_, arranged_ofList names, toList_nameSet names⟩

/-- The order is not that of 16-bit units: what is beyond them comes last. -/
example : (nameSet ["😀", "\uffff", "ab", "a", "ab"]).toList
    = ["a", "ab", "\uffff", "😀"].map .text := by decide

end NameSet

/-- How a scope shows names: each of them in quotes, in their order. -/
def namesShown : List String → String
  | [] => "frozenset()"
  | names => "frozenset(\x7b" ++ ", ".intercalate (names.map quoted) ++ "\x7d)"

theorem bindingsShown_of_names {s : Bindings} {names : List String}
    (h : s.toList = names.map .text) : bindingsShown s = namesShown names := by
  unfold bindingsShown
  rw [h]
  cases names with
  | nil => rfl
  | cons x names =>
      have hquoted : ((x :: names).map Binding.text).map Binding.shown = (x :: names).map quoted :=
        List.map_map
      exact congrArg (fun shown => "frozenset(\x7b" ++ ", ".intercalate shown ++ "\x7d)") hquoted

/-! ## 3. One scope -/

namespace Forest

variable {f : Forest} {s : Scope} {i : Nat} {label : String} {kind : Value} {children : Children}
  {d d' : Datum} {names : List String}

/-- **With names for its bindings a scope is described as it is without any**, and declares the set
    of them; or it has the same fault. -/
theorem describe_of_supplies (h : d.Supplies names) :
    f.describe label kind children d = (f.describe label kind children (.list [])).map fun s =>
      { s with bindings := nameSet names } := by
  unfold describe
  rw [h.toBindings]
  cases kind.toKind with
  | error e => rfl
  | ok k =>
      cases children.values with
      | error e => rfl
      | ok vs =>
          show (vs.mapM f.toChild >>= _) = ((vs.mapM f.toChild) >>= _).map _
          cases vs.mapM f.toChild with
          | error e => rfl
          | ok cs => rfl

/-- With names for its bindings a scope can be built whenever the other arguments allow it. -/
theorem admissible_of_supplies {given : Nat → Prop} (h : d.Supplies names) :
    Admissible given kind children d ↔ (∃ k, kind = .kind k) ∧
      ∃ vs, children.Yield vs ∧ ∀ v ∈ vs, Available given v := by
  have hashable : ∀ x ∈ names.map Datum.text, x.Hashable := fun x hx => by
    obtain ⟨n, _, rfl⟩ := List.mem_map.1 hx
    exact ⟨nofun, nofun⟩
  constructor
  · intro h
    exact ⟨h.kind, h.children⟩
  · intro ⟨hkind, hchildren⟩
    exact ⟨hkind, hchildren, _, Datum.yields_iff.2 h.items, hashable⟩

/-- How the names are supplied makes no difference. -/
theorem describe_of_sameNames (h : d.SameNames d') :
    f.describe label kind children d = f.describe label kind children d' := by
  obtain ⟨names, names', hd, hd', hsame⟩ := h
  rw [describe_of_supplies hd, describe_of_supplies hd', nameSet_congr hsame]

/-- The constructor call of a scope, around those of its children. -/
theorem shown_of_scope? (hf : f.Sound) (hs : f.scope? i = some s) :
    f.shown i = "Scope(" ++ s.kind.shown ++ ", " ++ bindingsShown s.bindings ++ ", "
      ++ tupleShown (s.children.map f.shown) ++ ")" := by
  have inside : (s.children.map fun c => if _h : c < i then f.shown c else "")
      = s.children.map f.shown :=
    List.map_congr_left fun c hc => dif_pos (hf.older i c ⟨s, hs, hc⟩)
  rw [shown, hs]
  simp only [inside]

/-- **Scope `i` has just some names as its bindings**, and shows them in their order. -/
structure ShowsNames (f : Forest) (i : Nat) (s : Scope) (names : List String) : Prop where
  scope : f.scope? i = some s
  bindings : s.bindings.toList = names.map .text
  /-- What is answered about the scope, under every id that holds it, has just these names. -/
  state : ∀ id, f.held? id = some i → ∃ state, f.stateOf id = .ok state ∧
    state.bindings.toList = names.map .text
  /-- The constructor call of the scope shows just these names. -/
  call : f.shown i = "Scope(" ++ s.kind.shown ++ ", " ++ namesShown names ++ ", "
    ++ tupleShown (s.children.map f.shown) ++ ")"

theorem showsNames (hf : f.Sound) (hs : f.scope? i = some s)
    (h : s.bindings.toList = names.map .text) : f.ShowsNames i s names where
  scope := hs
  bindings := h
  state id hid := by
    refine ⟨f.state i s, ?_, h⟩
    unfold stateOf
    simp only [hid, hs]
  call := by rw [shown_of_scope? hf hs, bindingsShown_of_names h]

end Forest

/-! ## 4. One step -/

/-- **Two steps are the same but for the form in which the names of a new scope are supplied.** -/
inductive Step.SameNames : Step → Step → Prop
  | same (s : Step) : SameNames s s
  | scope (id : String) (kind : Term) (children : ChildTerms) {d d' : Datum} (h : d.SameNames d') :
      SameNames (.change (.scope id kind children d)) (.change (.scope id kind children d'))

/-- **Steps that differ only in how names are supplied do the same**: the replies and the forests
    are equal. -/
theorem Step.SameNames.run_eq {s t : Step} (h : s.SameNames t) (f : Forest) :
    s.run f = t.run f := by
  cases h with
  | same => rfl
  | scope id kind children h =>
      simp only [Step.run, Change.apply, construct, describe_of_sameNames h]

namespace ScopeRequest

/-- The same request without any bindings. -/
def bare (r : ScopeRequest) : ScopeRequest := { r with bindings := .list [] }

variable {r : ScopeRequest} {f : Forest} {s : Scope} {names : List String} {e : Failure}

/-- A request with names describes what it describes without any, and the set of the names. -/
theorem scope_of_supplies (h : r.bindings.Supplies names) :
    r.scope f = (r.bare.scope f).map fun s => { s with bindings := nameSet names } := by
  show (r.kind.eval f >>= _) = (r.kind.eval f >>= _).map _
  cases r.kind.eval f with
  | error e => rfl
  | ok k =>
      show (r.children.eval f >>= _) = (r.children.eval f >>= _).map _
      cases r.children.eval f with
      | error e => rfl
      | ok cs => exact describe_of_supplies h

theorem bindings_of_supplies (h : r.bindings.Supplies names) (hs : r.scope f = .ok s) :
    s.bindings = nameSet names := by
  obtain ⟨_, _, _, _, hd⟩ := scope_eq_ok hs
  obtain ⟨_, _, _, ⟨bs, hbs, hset⟩, _⟩ := describe_eq_ok_iff.1 hd
  obtain rfl := Except.ok.inj (h.toBindings.symm.trans hbs)
  exact hset

/-- **Names are never at fault.** -/
theorem refused_of_supplies (hf : f.Sound) (h : r.bindings.Supplies names) :
    (r.step.run f).2.outcome = .error e ↔ (r.bare.step.run f).2.outcome = .error e := by
  rw [outcome_eq_error_iff hf, outcome_eq_error_iff hf, scope_of_supplies h]
  cases r.bare.scope f with
  | error e' => exact Iff.rfl
  | ok s => exact iff_of_false nofun nofun

end ScopeRequest

/-! ## 5. Sessions -/

namespace Session

/-- **Sessions that differ only in how names are supplied do the same**, step after step. -/
theorem runFrom_congr {steps steps' : List Step} (h : List.Forall₂ Step.SameNames steps steps') :
    ∀ f : Forest, runFrom f steps = runFrom f steps' := by
  induction h with
  | nil => exact fun _ => rfl
  | cons hs _ ih =>
      intro f
      rw [runFrom, runFrom, hs.run_eq f]
      simp only [ih]

/-- **In all sessions the bindings of scopes behave as sets of names.** -/
structure NameSets : Prop where
  /-- A request with names for its bindings is granted exactly when its kind is a kind and its
      children are scopes that no step gave away. -/
  granted : ∀ steps (r : ScopeRequest) names kind children, r.bindings.Supplies names →
    r.kind.eval (forestAfter steps) = .ok kind →
    r.children.eval (forestAfter steps) = .ok children →
    ((∃ a, (r.step.run (forestAfter steps)).2.outcome = .ok a) ↔
      (∃ k, kind = .kind k) ∧
        ∃ vs, children.Yield vs ∧ ∀ v ∈ vs, Available (GivenAway steps) v)
  /-- A request with names is refused exactly when it is without any bindings, and with the same
      failure. -/
  refused : ∀ steps (r : ScopeRequest) names e, r.bindings.Supplies names →
    ((r.step.run (forestAfter steps)).2.outcome = .error e ↔
      (r.bare.step.run (forestAfter steps)).2.outcome = .error e)
  /-- A request with names that is granted is answered with a scope that has as bindings exactly the
      distinct names, in strictly increasing order of their code points. The scope has and shows
      them so ever after. -/
  declared : ∀ steps (r : ScopeRequest) names a, r.bindings.Supplies names →
    (r.step.run (forestAfter steps)).2.outcome = .ok a →
    ∃ state arranged, a = .state state ∧ Arranged names arranged ∧
      state.bindings.toList = arranged.map .text ∧
      ∀ more, ∃ s, (forestAfter (steps ++ r.step :: more)).ShowsNames
        (forestAfter steps).scopes.size s arranged
  /-- Two sessions that differ only in the order of supplied names, in their repetitions or in the
      form in which they come have the same replies, and leave the same forest. -/
  indifferent : ∀ steps steps', List.Forall₂ Step.SameNames steps steps' →
    run steps = run steps' ∧ forestAfter steps = forestAfter steps'

/-- A scope has the bindings with which it was built, however the session goes on. -/
theorem exists_scope_of_granted {steps : List Step} {r : ScopeRequest} {s : Scope}
    (hs : r.scope (forestAfter steps) = .ok s) (more : List Step) :
    ∃ t, (forestAfter (steps ++ r.step :: more)).scope? (forestAfter steps).scopes.size = some t ∧
      t.bindings = s.bindings := by
  have hf : (forestAfter steps).Sound := sound_forestAfter steps
  have hgranted : forestAfter (steps ++ [r.step]) = r.granted (forestAfter steps) s := by
    rw [forestAfter_append, runFrom, ScopeRequest.run_of_ok hf hs]
    rfl
  have hmoves : (r.granted (forestAfter steps) s).Moves
      (forestAfter (steps ++ r.step :: more)) := by
    rw [List.append_cons, ← hgranted]
    exact moves_forestAfter_append
  obtain ⟨o, ho⟩ := hmoves.scope?_eq scope?_push_size
  exact ⟨_, ho, rfl⟩

end Session

open Session

/-- **The bindings of scopes behave as sets of names**, in all sessions. -/
theorem bindings_are_name_sets : Session.NameSets where
  granted steps r names kind children h hkind hchildren := by
    rw [ScopeRequest.outcome_eq_ok_iff (sound_forestAfter steps),
      ScopeRequest.scope_eq hkind hchildren,
      describe_eq_ok_iff_admissible (givenAway_iff_attached steps), admissible_of_supplies h]
  refused steps r names e h := ScopeRequest.refused_of_supplies (sound_forestAfter steps) h
  declared steps r names a h ha := by
    have hf : (forestAfter steps).Sound := sound_forestAfter steps
    cases hs : r.scope (forestAfter steps) with
    | error e =>
        rw [ScopeRequest.run_of_error hs] at ha
        cases ha
    | ok s =>
        rw [ScopeRequest.run_of_ok hf hs] at ha
        obtain rfl := Except.ok.inj ha
        obtain ⟨arranged, harranged, hlist⟩ := exists_arranged names
        rw [← ScopeRequest.bindings_of_supplies h hs] at hlist
        refine ⟨_, arranged, rfl, harranged, hlist, fun more => ?_⟩
        obtain ⟨t, ht, hbindings⟩ := exists_scope_of_granted hs more
        exact ⟨t, showsNames (sound_forestAfter _) ht (hbindings ▸ hlist)⟩
  indifferent steps steps' h := by
    have hrun := runFrom_congr h .empty
    exact ⟨congrArg Prod.snd hrun, congrArg Prod.fst hrun⟩

/-- Characters in any order are as good as a list of them. -/
example : Session.run [.change (.scope "s" (.kind .block) (.given []) (.text "bab"))]
    = Session.run [.change (.scope "s" (.kind .block) (.given [])
        (.list [.text "a", .text "b"]))] := by
  rfl

/-- **With other bindings than names the order does show**: a truth value counts as a number. -/
example : (OrderedSet.ofList [Binding.bool true, .int 1]).toList
    ≠ (OrderedSet.ofList [Binding.int 1, .bool true]).toList := by decide

end TagScope

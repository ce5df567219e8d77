import TagScope.Proofs.Value.NameTree
import TagScope.Term
/-!
# Validation of name trees

The constructors make the checks that their calls tell, in the order that the calls tell.

* `Performs`: a computation makes some checks one after the other. **A computation behind another
  one makes its checks behind those of the other one** (`Performs.bind`).
* `performs_build`: building a tree makes the checks of all its calls.
* `nameTree_built_iff_legal`: a tree is built exactly when every call in it is legal, and otherwise
  the failure is its first fault.
-/

namespace TagScope

/-! ## 1. Computations that make checks -/

/-- **A computation makes some checks in their order**: it succeeds only if they all pass, and fails
    only with what the first one that fails says. -/
structure Performs {α : Type} (ks : List Check) (r : Except Failure α) : Prop where
  ok : ∀ a, r = .ok a → ∀ k ∈ ks, k.Passes
  error : ∀ e, r = .error e → FirstFailing Check.Passes (Check.Says e.category e.message) ks

namespace Performs

variable {α β : Type} {ks ls : List Check} {r : Except Failure α} {g : α → Except Failure β}
  {a : α} {e : Failure} {k : Check}

theorem of_error (h : FirstFailing Check.Passes (Check.Says e.category e.message) ks) :
    Performs ks (.error e : Except Failure α) := by
  refine ⟨nofun, fun e' he => ?_⟩
  obtain rfl := Except.error.inj he
  exact h

theorem done : Performs [] (.ok a) :=
  ⟨fun _ _ _ h => absurd h List.not_mem_nil, nofun⟩

theorem fail (hk : ¬ k.Passes) (hcategory : k.category = e.category)
    (hmessage : k.message = e.message) : Performs (k :: ks) (.error e : Except Failure α) :=
  of_error (.here hk ⟨hcategory, hmessage⟩)

theorem pass (hk : k.Passes) (h : Performs ks r) : Performs (k :: ks) r :=
  ⟨fun a ha => List.forall_mem_cons.2 ⟨hk, h.ok a ha⟩, fun e he => .later hk (h.error e he)⟩

/-- **A computation behind another one makes its checks behind those of the other one.** -/
theorem bind (h : Performs ks r) (hg : ∀ a, r = .ok a → Performs ls (g a)) :
    Performs (ks ++ ls) (r >>= g) := by
  cases r with
  | error e => exact of_error (h.error e rfl).append
  | ok a =>
      have hks : ∀ k ∈ ks, k.Passes := h.ok a rfl
      refine ⟨fun b hb => ?_, fun e he => ?_⟩
      · exact List.forall_mem_append.2 ⟨hks, (hg a rfl).ok b hb⟩
      · exact ((hg a rfl).error e he).behind hks

theorem ok_iff (h : Performs ks r) : (∃ a, r = .ok a) ↔ ∀ k ∈ ks, k.Passes := by
  constructor
  · intro ⟨a, ha⟩
    exact h.ok a ha
  · intro hks
    cases r with
    | ok a => exact ⟨a, rfl⟩
    | error e => exact absurd hks (h.error e rfl).not_all

theorem error_iff (h : Performs ks r) {category : Failure.Category} {message : String} :
    (∃ e, r = .error e ∧ e.category = category ∧ e.message = message) ↔
      FirstFailing Check.Passes (Check.Says category message) ks := by
  constructor
  · rintro ⟨e, he, rfl, rfl⟩
    exact h.error e he
  · intro hfirst
    cases r with
    | ok a => exact absurd (h.ok a rfl) hfirst.not_all
    | error e =>
        obtain ⟨k, ⟨hc, hm⟩, hc', hm'⟩ := hfirst.both (h.error e rfl)
        exact ⟨e, rfl, hc'.symm.trans hc, hm'.symm.trans hm⟩

end Performs

namespace NameTree

/-! ## 2. The checks of the constructors -/

/-- An argument as it is seen in its value: checks of the one tell about the other. -/
structure Seen (x : NameTree) (v : Value) : Prop where
  shape : x.shape = v.shape
  text : x.text? = v.text?
  whole : x.whole? = v.whole?

section Checks

variable {x l c n o p s : NameTree} {v w : Value}

theorem seen_of_build (h : x.build = .ok v) : x.Seen v := by
  cases build_eq_ok_iff.1 h <;> exact ⟨rfl, rfl, rfl⟩

-- The texts are compared after unfolding both sides: to compare them at once is to compute them.

theorem message_object :
    (Check.object x).message = (Failure.notElementName x.shape).message := by
  unfold Check.message Failure.message
  rfl

theorem message_wholes :
    (Check.wholes l c).message = (Failure.notWhole l.shape c.shape).message := by
  unfold Check.message Failure.message
  rfl

theorem message_range {m n : Whole} :
    (Check.range m n).message = (Failure.outOfRange m.shown n.shown).message := by
  unfold Check.message Failure.message
  rfl

theorem message_text : (Check.text x).message = (Failure.notIdentifier x.shape).message := by
  have hword : "Identifier should have type " ++ Shape.text.shown ++ ", but found: "
      = "Identifier should have type <class 'str'>, but found: " := by decide
  unfold Failure.message
  rw [hword]
  rfl

theorem message_location : (Check.location x).message = (Failure.notLocation x.shape).message := by
  have hword : "Location should have type " ++ Shape.location.shown ++ ", but found: "
      = "Location should have type <class 'jsxref._core.names.Location'>, but found: " := by decide
  unfold Failure.message
  rw [hword]
  rfl

theorem performs_toIdentifier (hx : x.Seen v) :
    Performs [.text x, .nonEmpty x] v.toIdentifier := by
  have hother (hv : v.text? = none) :
      Performs [.text x, .nonEmpty x]
        (.error (.notIdentifier v.shape) : Except Failure Identifier) := by
    refine .fail (fun ⟨s, hs⟩ => ?_) rfl (by rw [message_text, hx.shape])
    rw [hx.text, hv] at hs
    cases hs
  cases v with
  | datum d =>
      cases d with
      | text s =>
          have htext : (Check.text x).Passes := ⟨s, hx.text⟩
          by_cases hs : s = ""
          · rw [Value.toIdentifier, dif_pos hs]
            refine .pass htext (.fail (fun hne => hne ?_) rfl rfl)
            rw [hx.text, hs]
            rfl
          · rw [Value.toIdentifier, dif_neg hs]
            refine .pass htext (.pass (fun he => hs ?_) .done)
            exact Option.some.inj (hx.text.symm.trans he)
      | _ => exact hother rfl
  | sourceType t =>
      refine .pass ⟨t.word, hx.text⟩ (.pass (fun he => t.word_ne_empty ?_) .done)
      exact Option.some.inj (hx.text.symm.trans he)
  | _ => exact hother rfl

theorem performs_toLocation? (hx : x.Seen v) : Performs [.location x] v.toLocation? := by
  have hseen : (Check.location x).Passes ↔ decide (v.shape ∈ [Shape.null, .location]) = true := by
    rw [decide_eq_true_iff, ← hx.shape]
    rfl
  have hlocation (hv : decide (v.shape ∈ [Shape.null, .location]) = true) (k : Option Location) :
      Performs [.location x] (.ok k) := .pass (hseen.2 hv) .done
  have hother (hv : decide (v.shape ∈ [Shape.null, .location]) = false) :
      Performs [.location x] (.error (.notLocation v.shape) : Except Failure (Option Location)) :=
    .fail (fun h => Bool.eq_false_iff.1 hv (hseen.1 h)) rfl (by rw [message_location, hx.shape])
  cases v with
  | datum d =>
      cases d with
      | null => exact hlocation rfl none
      | _ => exact hother rfl
  | location l => exact hlocation rfl (some l)
  | name n => cases n <;> exact hother rfl
  | _ => exact hother rfl

theorem performs_toElementName (hx : x.Seen v) : Performs [.object x] v.toElementName := by
  have hseen : (Check.object x).Passes ↔
      decide (v.shape ∈ [Shape.simpleName, .memberPath, .namespacedName]) = true := by
    rw [decide_eq_true_iff, ← hx.shape]
    rfl
  have hother (hv : decide (v.shape ∈ [Shape.simpleName, .memberPath, .namespacedName]) = false) :
      Performs [.object x] (.error (.notElementName v.shape) : Except Failure ElementName) :=
    .fail (fun h => Bool.eq_false_iff.1 hv (hseen.1 h)) rfl (by rw [message_object, hx.shape])
  cases v with
  | name n =>
      refine .pass (hseen.2 ?_) .done
      cases n <;> rfl
  | datum d => cases d <;> exact hother rfl
  | _ => exact hother rfl

/-- **A location is checked for its types first**, and for its range if both are right. -/
theorem performs_buildLocation (hl : l.Seen v) (hc : c.Seen w) :
    Performs (checks (.location l c)) (Value.buildLocation v w) := by
  have hother (h : ¬ (Check.wholes l c).Passes) (ks : List Check) :
      Performs (.wholes l c :: ks) (.error (.notWhole v.shape w.shape) : Except Failure Value) :=
    .fail h rfl (by rw [message_wholes, hl.shape, hc.shape])
  simp only [checks, Value.buildLocation, hl.whole, hc.whole]
  cases hv : v.whole? with
  | none =>
      refine hother (fun h => ?_) _
      obtain ⟨⟨m, hm⟩, _⟩ := h
      rw [hl.whole, hv] at hm
      cases hm
  | some m =>
      cases hw : w.whole? with
      | none =>
          refine hother (fun h => ?_) _
          obtain ⟨_, n, hn⟩ := h
          rw [hc.whole, hw] at hn
          cases hn
      | some n =>
          refine .pass ⟨⟨m, hl.whole.trans hv⟩, n, hc.whole.trans hw⟩ ?_
          by_cases hrange : 1 ≤ m.toInt ∧ 0 ≤ n.toInt
          · simp only [dif_pos hrange]
            exact .pass hrange .done
          · simp only [dif_neg hrange]
            exact .fail hrange rfl message_range

theorem performs_buildSimple (hn : n.Seen v) (hl : l.Seen w) :
    Performs (checks (.simple n l)) (Value.buildSimple v w) :=
  (performs_toIdentifier hn).bind fun _ _ => (performs_toLocation? hl).bind fun _ _ => .done

theorem performs_buildMember {u : Value} (ho : o.Seen u) (hp : p.Seen v) (hl : l.Seen w) :
    Performs (checks (.member o p l)) (Value.buildMember u v w) :=
  (performs_toElementName ho).bind fun _ _ =>
    (performs_toIdentifier hp).bind fun _ _ => (performs_toLocation? hl).bind fun _ _ => .done

theorem performs_buildNamespaced {u : Value} (hs : s.Seen u) (hn : n.Seen v) (hl : l.Seen w) :
    Performs (checks (.namespaced s n l)) (Value.buildNamespaced u v w) :=
  (performs_toIdentifier hs).bind fun _ _ =>
    (performs_toIdentifier hn).bind fun _ _ => (performs_toLocation? hl).bind fun _ _ => .done

/-- **Building a tree makes the checks of all its calls**, call by call. -/
theorem performs_build (c : NameTree) : Performs (c.nodes.flatMap checks) c.build := by
  have hself (n : NameTree) : [n].flatMap checks = n.checks := List.flatMap_singleton checks n
  induction c with
  | given v => exact .done
  | location l c ihl ihc =>
      rw [nodes, List.flatMap_append, List.flatMap_append, hself]
      refine ihl.bind fun v hv => ihc.bind fun w hw => ?_
      exact performs_buildLocation (seen_of_build hv) (seen_of_build hw)
  | simple n l ihn ihl =>
      rw [nodes, List.flatMap_append, List.flatMap_append, hself]
      refine ihn.bind fun v hv => ihl.bind fun w hw => ?_
      exact performs_buildSimple (seen_of_build hv) (seen_of_build hw)
  | member o p l iho ihp ihl =>
      rw [nodes, List.flatMap_append, List.flatMap_append, List.flatMap_append, hself]
      refine iho.bind fun u hu => ihp.bind fun v hv => ihl.bind fun w hw => ?_
      exact performs_buildMember (seen_of_build hu) (seen_of_build hv) (seen_of_build hw)
  | namespaced s n l ihs ihn ihl =>
      rw [nodes, List.flatMap_append, List.flatMap_append, List.flatMap_append, hself]
      refine ihs.bind fun u hu => ihn.bind fun v hv => ihl.bind fun w hw => ?_
      exact performs_buildNamespaced (seen_of_build hu) (seen_of_build hv) (seen_of_build hw)

/-- A tree is built exactly when every call in it is legal. -/
theorem exists_build_iff (c : NameTree) : (∃ v, c.build = .ok v) ↔ ∀ n ∈ c.nodes, n.Legal := by
  rw [(performs_build c).ok_iff, List.forall_mem_flatMap]
  exact forall_congr' fun n => imp_congr_right fun _ => (legal_iff n).symm

/-- **A tree fails to be built exactly with its first fault.** -/
theorem build_eq_error_iff (c : NameTree) (category : Failure.Category) (message : String) :
    (∃ e, c.build = .error e ∧ e.category = category ∧ e.message = message) ↔
      c.FirstFault category message := by
  rw [(performs_build c).error_iff, firstFailing_flatMap]
  simp only [FirstFault, funext fun n => propext (legal_iff n)]

end Checks

end NameTree

/-! ## 3. Terms -/

/-- A term is a tree of constructor calls, in a forest whose scopes it may name: at the leaves there
    are other terms with their values. A path is the tree of its properties. -/
inductive Term.IsTree (f : Forest) : Term → NameTree → Prop
  | given {t : Term} {v : Value} (h : t.eval f = .ok v) : IsTree f t (.given v)
  | location {l c : Term} {x y : NameTree} (hl : IsTree f l x) (hc : IsTree f c y) :
      IsTree f (.location l c) (.location x y)
  | simple {n l : Term} {x y : NameTree} (hn : IsTree f n x) (hl : IsTree f l y) :
      IsTree f (.simple n l) (.simple x y)
  | member {o p l : Term} {x y z : NameTree} (ho : IsTree f o x) (hp : IsTree f p y)
      (hl : IsTree f l z) : IsTree f (.member o p l) (.member x y z)
  | path {r : Term} {x : NameTree} (hr : IsTree f r x) (ps : List Datum) : IsTree f (.path r ps)
      (ps.foldl (fun o p => .member o (.given (.datum p)) (.given .null)) x)
  | namespaced {s n l : Term} {x y z : NameTree} (hs : IsTree f s x) (hn : IsTree f n y)
      (hl : IsTree f l z) : IsTree f (.namespaced s n l) (.namespaced x y z)

/-- The properties of a path are added one after the other. -/
theorem NameTree.build_foldl : ∀ (ps : List Datum) (x : NameTree),
    (ps.foldl (fun o p => .member o (.given (.datum p)) (.given .null)) x).build
      = x.build >>= ps.foldlM fun v p => Value.buildMember v (.datum p) .null
  | [], x => (bind_pure x.build).symm
  | p :: ps, x => by
    have hmember : (member x (.given (.datum p)) (.given .null)).build
        = x.build >>= fun v => Value.buildMember v (.datum p) .null := rfl
    rw [List.foldl_cons, build_foldl ps, hmember, bind_assoc]
    rfl

theorem Term.IsTree.eval_eq {f : Forest} {t : Term} {c : NameTree} (h : t.IsTree f c) :
    t.eval f = c.build := by
  induction h with
  | given h => exact h
  | location _ _ ihl ihc => rw [eval, ihl, ihc]; rfl
  | simple _ _ ihn ihl => rw [eval, ihn, ihl]; rfl
  | member _ _ _ iho ihp ihl => rw [eval, iho, ihp, ihl]; rfl
  | path _ ps ih => rw [eval, ih, NameTree.build_foldl]
  | namespaced _ _ _ ihs ihn ihl => rw [eval, ihs, ihn, ihl]; rfl

/-! ## 4. Names that exist -/

/-- The identifiers of a name, at any depth. -/
def ElementName.identifiers : ElementName → List Identifier
  | .simple n _ => [n]
  | .member o p _ => o.identifiers ++ [p]
  | .namespaced s n _ => [s, n]

/-- The locations of a name, at any depth. -/
def ElementName.locations : ElementName → List Location
  | .simple _ l => l.toList
  | .member o _ l => o.locations ++ l.toList
  | .namespaced _ _ l => l.toList

/-- **How trees of constructor calls are validated.** -/
structure NameTree.Validation : Prop where
  /-- A tree is built exactly when every call in it is legal. -/
  accepted : ∀ c : NameTree, (∃ v, c.build = .ok v) ↔ ∀ n ∈ c.nodes, n.Legal
  /-- If it is not built, the failure has the class and the text of its first fault. -/
  refused : ∀ (c : NameTree) (category : Failure.Category) (message : String),
    (∃ e, c.build = .error e ∧ e.category = category ∧ e.message = message) ↔
      c.FirstFault category message
  /-- What is built has just the arguments for its fields. -/
  built : ∀ (c : NameTree) (v : Value), c.build = .ok v ↔ c.Makes v
  /-- Terms that are trees of constructor calls are evaluated so, in any forest. -/
  evaluated : ∀ (f : Forest) (t : Term) (c : NameTree), t.IsTree f c → t.eval f = c.build
  /-- In names that exist no identifier is empty, and all locations are valid. -/
  identifiers : ∀ n : ElementName, ∀ i ∈ n.identifiers, i.text ≠ ""
  locations : ∀ n : ElementName, ∀ l ∈ n.locations, 1 ≤ l.line.toInt ∧ 0 ≤ l.column.toInt

/-- **Name trees are validated completely, and in the order of their calls and arguments.** -/
theorem nameTree_built_iff_legal : NameTree.Validation where
  accepted := NameTree.exists_build_iff
  refused := NameTree.build_eq_error_iff
  built _ _ := NameTree.build_eq_ok_iff
  evaluated _ _ _ h := h.eval_eq
  identifiers _ i _ := i.text_ne_empty
  locations _ l _ := ⟨l.line_pos, l.column_nonneg⟩

/-- A truth value is a whole number, and out of range only if the column is one as well. -/
example : (NameTree.location (.given (.datum (.bool false))) (.given (.ofText "1"))).build
    = .error (.notWhole .bool .text) := rfl

end TagScope

import TagScope.Proofs.Forest.Resolution
import TagScope.Proofs.Session.Visibility
/-!
# Verdicts in a session

What a check of one element answers, hands over and logs, for any value as its name and in every
forest that a session can lead to.

* `Forest.Passes`, `Forest.Misses`: the two ways for a chain of scopes to end.
* `Forest.Checked`: **the three outcomes of a check**: there is nothing to resolve, the name is the
  receiver, or the name is looked for.
* `checked_forestAfter`: **every check of an element in a living scope comes to one of these.**
-/

namespace TagScope

/-! ## 1. Names and messages -/

section Names

variable {f : Forest} {r : Reference}

/-- The name of a reference tells whether it is to the receiver. -/
theorem isReceiver_toValue :
    r.toValue.isReceiver = .ok (r.name.text == receiverName) := by
  obtain ⟨name, location⟩ := r
  cases name <;> rfl

/-- **A message can be made of every name.** -/
theorem notDefinedMessage_ofIdentifier (n : Identifier) :
    (Value.ofIdentifier n).notDefinedMessage f = .ok ("'" ++ n.inText ++ "' is not defined.") := by
  cases n <;> rfl

end Names

namespace Forest

/-! ## 2. Chains -/

/-- **The chain of scope `i` comes by a scope of kind `k`.** -/
def Passes (f : Forest) (i : Nat) (k : ScopeKind) : Prop :=
  ∃ j s, f.Outwards i j ∧ f.scope? j = some s ∧ s.kind = k

/-- **The chain of scope `i` ends without a scope of kind `k`**, at a root of kind `last`. -/
def Misses (f : Forest) (i : Nat) (k last : ScopeKind) : Prop :=
  ¬ f.Passes i k ∧ ∃ j s, f.Outwards i j ∧ f.parent? j = none ∧ f.scope? j = some s ∧ s.kind = last

section Chains

variable {f : Forest} {i : Nat} {k : ScopeKind}

/-- **What is noted while names are collected**: nothing when the chain comes by the boundary, and
    where it ended otherwise. -/
theorem notes_visible (hf : f.Sound) (hi : f.Built i) :
    f.Passes i k ∧ (f.visible (.scope i) (.kind k)).notes = [] ∨
      ∃ last, f.Misses i k last ∧
        (f.visible (.scope i) (.kind k)).notes = [.chainEnded last (.kind k)] := by
  obtain ⟨path, b, h⟩ := exists_search hf (.kind k) hi
  obtain ⟨t, bs, ht, hvisible, _⟩ := visible_of_search hf h
  have passes : f.Passes i k ↔ Value.kind k = .kind t.kind := by
    rw [h.found_iff ht]
    refine exists_congr fun j => exists_congr fun s => and_congr_right fun _ => ?_
    exact and_congr_right fun _ => ⟨fun e => e ▸ rfl, fun e => (Value.kind.inj e).symm⟩
  rw [hvisible]
  by_cases hk : Value.kind k = .kind t.kind
  · exact Or.inl ⟨passes.2 hk, if_pos (isKindOf_iff.2 hk)⟩
  · have missed : f.Misses i k t.kind :=
      ⟨fun hp => hk (passes.1 hp),
        ⟨b, t, h.outwards b (Or.inr rfl), h.parent?_of_missed ht hk, ht, rfl⟩⟩
    exact Or.inr ⟨t.kind, missed, if_neg fun e => hk (isKindOf_iff.1 e)⟩

end Chains

/-! ## 3. Checks -/

/-- **What a check of an element comes to**, in scope `i` and under a policy. -/
structure Checked (f : Forest) (i : Nat) (c : Policy) (node : Value) : Prop where
  /-- A check is always answered. -/
  answered : ∃ verdict, (f.examine node (.scope i) (.policy c)).result = .ok verdict
  /-- When there is nothing to resolve, whatever was given as a scope and as a policy, there is no
      verdict and no diagnostic, and the log has one line. -/
  skipped : node.reference? = none → ∀ scope policy,
    let check := f.examine node scope policy
    check.result = .ok none ∧ check.reports = [] ∧
      check.notes.map (Note.line f) =
        ["DEBUG:jsxref._core.rule:Skipping element name " ++ node.shown f ++ "."]
  /-- The receiver is bound, whatever was given as a scope and as a policy, and there is no other
      trace of the check. -/
  received : ∀ r, node.reference? = some r → r.name.text = "this" →
    r.toValue.isReceiver = .ok true ∧
      ∀ scope policy, f.examine node scope policy = ⟨.ok (some .bound), [], []⟩
  /-- Any other name is bound when it is in the visible set. There is one diagnostic when it is not,
      and none when it is. The log has a line on a chain that misses the boundary, and then a line on
      an unbound reference. -/
  resolved : ∀ r, node.reference? = some r → r.name.text ≠ "this" →
    let check := f.examine node (.scope i) (.policy c)
    ∃ verdict set message,
      r.toValue.isReceiver = .ok false ∧ check.result = .ok (some verdict) ∧
      (f.visibleSet (.scope i) (.kind c.boundary)).result = .ok set ∧
      (verdict = .bound ↔ .text r.name.text ∈ set) ∧
      (Value.ofIdentifier r.name).notDefinedMessage f = .ok message ∧
      check.reports = (if verdict = .unbound then [⟨r.location, message⟩] else []) ∧
      ∃ chain, check.notes.map (Note.line f) = chain ++ (if verdict = .unbound then
          ["DEBUG:jsxref._core.rule:Reference " ++ r.shown ++ " is unbound."] else []) ∧
        (f.Passes i c.boundary ∧ chain = [] ∨ ∃ last, f.Misses i c.boundary last ∧
          chain = ["DEBUG:jsxref._core.scoping:Scope chain ended at " ++ last.shown
            ++ " before reaching " ++ c.boundary.shown ++ "."])

section Check

variable {f : Forest} {i : Nat} {c : Policy} {node : Value}

theorem Sound.checked (hf : f.Sound) (hi : f.Built i) : f.Checked i c node where
  answered := by
    obtain ⟨verdict, notes, reports, e⟩ : ∃ verdict notes reports,
        f.examine node (.scope i) (.policy c) = ⟨.ok verdict, notes, reports⟩ :=
      exists_examine hf hi
    exact ⟨verdict, congrArg Traced.result e⟩
  skipped href scope policy := by
    rw [examine_of_no_reference href]
    exact ⟨rfl, rfl, rfl⟩
  received r href hthis := by
    refine ⟨?_, fun scope policy => examine_of_receiver href hthis⟩
    rw [isReceiver_toValue]
    exact congrArg Except.ok (beq_iff_eq.2 hthis)
  resolved r href hthis := by
    obtain ⟨verdict, hbound, e⟩ := examine_of_reference (c := c) hf hi href hthis
    obtain ⟨set, hset, hmem⟩ := exists_visibleSet hf (.kind c.boundary) hi
    refine ⟨verdict, set, _, ?_, congrArg Traced.result e, hset, hbound.trans (hmem _).symm,
      notDefinedMessage_ofIdentifier r.name, congrArg Traced.reports e,
      (f.visible (.scope i) (.kind c.boundary)).notes.map (Note.line f), ?_, ?_⟩
    · rw [isReceiver_toValue]
      exact congrArg Except.ok (beq_eq_false_iff_ne.2 hthis)
    · rw [e, List.map_append]
      cases verdict <;> rfl
    · rcases notes_visible (k := c.boundary) hf hi with ⟨hpasses, hnotes⟩ | ⟨last, hmisses, hnotes⟩
      · exact Or.inl ⟨hpasses, by rw [hnotes, List.map_nil]⟩
      · exact Or.inr ⟨last, hmisses, by rw [hnotes]; rfl⟩

end Check

end Forest

open Forest

/-! ## 4. Every session -/

/-- **Every check of an element in a living scope meets its contract**, whatever the session before,
    the policy, and the value that is given as the name of the element. -/
theorem checked_forestAfter (steps : List Step) (i : Nat) (c : Policy) (node : Value)
    (alive : (Session.forestAfter steps).alive i = true) :
    (Session.forestAfter steps).Checked i c node :=
  (sound_forestAfter steps).checked (built_of_alive (sound_forestAfter steps) alive)

/-- A property of what a name stands for that `wrappedModule` does not declare. -/
def undeclared : ElementName :=
  .member (.simple (.plain "Menu" (by decide)) none) (.plain "Item" (by decide)) none

/-- In a module its object is reported once. -/
theorem checked_forestAfter_undeclared :
    (Session.forestAfter wrappedModule).alive 2 = true ∧
      ((Session.forestAfter wrappedModule).examine (.name undeclared) (.scope 2)
        (.policy ⟨false, true⟩)).reports = [⟨none, "'Menu' is not defined."⟩] := by
  have alive : (Session.forestAfter wrappedModule).alive 2 = true := by decide +kernel
  have reported : ((Session.forestAfter wrappedModule).examine (.name undeclared) (.scope 2)
      (.policy ⟨false, true⟩)).reports.isEmpty = false := by decide +kernel
  have hchecked := checked_forestAfter wrappedModule 2 ⟨false, true⟩ (.name undeclared) alive
  obtain ⟨verdict, _, message, _, _, _, _, hmessage, hreports, _⟩ :=
    hchecked.resolved ⟨.plain "Menu" (by decide), none⟩ rfl (by decide)
  obtain rfl := Except.ok.inj hmessage
  cases verdict with
  | bound =>
      rw [hreports] at reported
      cases reported
  | unbound => exact ⟨alive, hreports⟩

end TagScope

import TagScope.Proofs.Forest.RenamedResolution
import TagScope.Proofs.Session.Progress
/-!
# Sessions under other numbers

Answers speak of scopes through labels and terms name them through handles, so a session cannot tell
under which numbers the scopes were built.

* `Term.ids`, `Forest.Agree`: the ids that a term mentions, and two forests that hold scopes with the
  same constructor calls under some ids.
* `eval_renamed`: **the value of a term depends on nothing else.**
* `run_renamed`, `runFrom_renamed`: **in forests that differ only in their numbers every step has
  the same reply, and leaves such forests.**
-/

namespace TagScope

open Failure Traced

/-! ## 1. Ids -/

/-- The ids that a term mentions. -/
def Term.ids : Term → List String
  | .raw _ | .sourceType _ | .kind _ | .verdict _ => []
  | .location a b | .simple a b | .reference a b | .diagnostic a b | .policy a b => a.ids ++ b.ids
  | .member a b c | .namespaced a b c => a.ids ++ (b.ids ++ c.ids)
  | .path r _ => r.ids
  | .options _ t => t.ids
  | .scope id => [id]

/-- The ids that the children of a request mention. -/
def ChildTerms.ids : ChildTerms → List String
  | .given ts => ts.flatMap Term.ids
  | .raw _ => []

/-- **Under some ids two forests hold the same scopes**: under other numbers, and with the same
    constructor calls. -/
def Forest.Agree (ρ : Nat → Nat) (f g : Forest) (ids : List String) : Prop :=
  ∀ id ∈ ids, g.held? id = (f.held? id).map ρ ∧
    ∀ i, f.held? id = some i → g.shown (ρ i) = f.shown i

section Ids

variable {ρ : Nat → Nat} {f g : Forest} {l m : List String}

theorem Forest.Agree.of_subset (h : f.Agree ρ g m) (hl : ∀ id ∈ l, id ∈ m) : f.Agree ρ g l :=
  fun id hid => h id (hl id hid)

theorem Forest.Agree.left (h : f.Agree ρ g (l ++ m)) : f.Agree ρ g l :=
  h.of_subset fun _ => List.mem_append_left m

theorem Forest.Agree.right (h : f.Agree ρ g (l ++ m)) : f.Agree ρ g m :=
  h.of_subset fun _ => List.mem_append_right l

end Ids

/-! ## 2. Terms -/

section Terms

variable {ρ : Nat → Nat} {f g : Forest}

/-- **The value of a term has only scopes in it that are held under its ids.** -/
theorem eval_over {P : Nat → Prop} : ∀ {t : Term} {v : Value}, t.eval f = .ok v →
    (∀ id ∈ t.ids, ∀ i, f.held? id = some i → P i) → v.Over P
  | .raw _, _, h, _ | .sourceType _, _, h, _ | .kind _, _, h, _ | .verdict _, _, h, _ => by
      obtain rfl := Except.ok.inj h
      trivial
  | .location _ _, _, h, _ => by
      obtain ⟨_, _, h⟩ := bind_eq_ok.1 h
      obtain ⟨_, _, h⟩ := bind_eq_ok.1 h
      obtain ⟨_, _, _, rfl⟩ := Value.fields_of_buildLocation h
      trivial
  | .simple _ _, _, h, _ => by
      obtain ⟨_, _, h⟩ := bind_eq_ok.1 h
      obtain ⟨_, _, h⟩ := bind_eq_ok.1 h
      obtain ⟨_, _, _, _, rfl⟩ := Value.fields_of_buildSimple h
      trivial
  | .member _ _ _, _, h, _ => by
      obtain ⟨_, _, h⟩ := bind_eq_ok.1 h
      obtain ⟨_, _, h⟩ := bind_eq_ok.1 h
      obtain ⟨_, _, h⟩ := bind_eq_ok.1 h
      obtain ⟨_, _, _, _, _, _, rfl⟩ := Value.fields_of_buildMember h
      trivial
  | .path r _, _, h, hids => by
      obtain ⟨o, ho, h⟩ := bind_eq_ok.1 h
      rcases foldlM_buildMember_eq_ok h with ⟨_, rfl⟩ | ⟨_, rfl⟩
      · exact eval_over ho hids
      · trivial
  | .namespaced _ _ _, _, h, _ => by
      obtain ⟨_, _, h⟩ := bind_eq_ok.1 h
      obtain ⟨_, _, h⟩ := bind_eq_ok.1 h
      obtain ⟨_, _, h⟩ := bind_eq_ok.1 h
      obtain ⟨_, _, _, _, _, _, rfl⟩ := Value.fields_of_buildNamespaced h
      trivial
  | .reference a b, _, h, hids | .diagnostic a b, _, h, hids => by
      obtain ⟨v, hv, h⟩ := bind_eq_ok.1 h
      obtain ⟨w, hw, h⟩ := bind_eq_ok.1 h
      obtain rfl := Except.ok.inj h
      exact ⟨eval_over hv fun id hid => hids id (List.mem_append_left _ hid),
        eval_over hw fun id hid => hids id (List.mem_append_right _ hid)⟩
  | .policy _ _, _, h, _ | .options _ _, _, h, _ => by
      obtain ⟨_, _, h⟩ := bind_eq_ok.1 h
      obtain ⟨_, _, h⟩ := bind_eq_ok.1 h
      obtain rfl := Except.ok.inj h
      trivial
  | .scope id, _, h, hids => by
      unfold Term.eval Term.heldScope at h
      split at h
      · next i hi =>
        obtain rfl := Except.ok.inj h
        exact hids id List.mem_cons_self i hi
      · cases h

theorem foldlM_buildMember_renamed : ∀ (ps : List Datum) (o : Value),
    ps.foldlM (fun v p => Value.buildMember v (.datum p) .null) (o.renamed ρ)
      = (ps.foldlM (fun v p => Value.buildMember v (.datum p) .null) o).map (Value.renamed ρ)
  | [], _ => rfl
  | p :: ps, o => by
      rw [List.foldlM_cons, List.foldlM_cons]
      exact bind_eq_map (Value.buildMember_renamed o (.datum p) .null) fun v _ =>
        foldlM_buildMember_renamed ps v

theorem ofOptions_renamed (d : Datum) {v : Value} (h : (v.renamed ρ).shown g = v.shown f) :
    Policy.ofOptions g d (v.renamed ρ) = Policy.ofOptions f d v := by
  unfold Policy.ofOptions Policy.sourceTypeOf
  rw [Value.text?_renamed, h]

/-- **The value of a term depends only on the scopes that are held under its ids.** -/
theorem eval_renamed : ∀ {t : Term}, f.Agree ρ g t.ids →
    t.eval g = (t.eval f).map (Value.renamed ρ)
  | .raw _, _ | .sourceType _, _ | .kind _, _ | .verdict _, _ => rfl
  | .location _ _, h => bind_eq_map (eval_renamed h.left) fun l _ =>
      bind_eq_map (eval_renamed h.right) fun c _ => Value.buildLocation_renamed l c
  | .simple _ _, h => bind_eq_map (eval_renamed h.left) fun n _ =>
      bind_eq_map (eval_renamed h.right) fun l _ => Value.buildSimple_renamed n l
  | .member _ _ _, h => bind_eq_map (eval_renamed h.left) fun o _ =>
      bind_eq_map (eval_renamed h.right.left) fun p _ =>
        bind_eq_map (eval_renamed h.right.right) fun l _ => Value.buildMember_renamed o p l
  | .path r ps, h => bind_eq_map (eval_renamed (t := r) h) fun o _ =>
      foldlM_buildMember_renamed ps o
  | .namespaced _ _ _, h => bind_eq_map (eval_renamed h.left) fun s _ =>
      bind_eq_map (eval_renamed h.right.left) fun n _ =>
        bind_eq_map (eval_renamed h.right.right) fun l _ => Value.buildNamespaced_renamed n s l
  | .reference _ _, h | .diagnostic _ _, h => bind_eq_map (eval_renamed h.left) fun _ _ =>
      bind_eq_map (eval_renamed h.right) fun _ _ => rfl
  | .policy _ _, h => bind_eq_map (eval_renamed h.left) fun a _ =>
      bind_eq_map (eval_renamed h.right) fun m _ => by
        rw [Value.isTrue_renamed, Value.isTrue_renamed]
        rfl
  | .options d t, h => bind_eq_map (eval_renamed (t := t) h) fun v hv => by
      rw [ofOptions_renamed d (Value.shown_renamed v (eval_over hv fun id hid => (h id hid).2))]
      cases Policy.ofOptions f d v <;> rfl
  | .scope id, h => by
      simp only [Term.eval, Term.heldScope, (h id List.mem_cons_self).1]
      cases f.held? id <;> rfl

theorem evalAll_renamed {ts : List Term} (h : ∀ t ∈ ts, f.Agree ρ g t.ids) :
    Term.evalAll g ts = (Term.evalAll f ts).map (List.map (Value.renamed ρ)) :=
  mapM_eq_map_of_mem fun t ht => eval_renamed (h t ht)

theorem ChildTerms.eval_renamed {cs : ChildTerms} (h : f.Agree ρ g cs.ids) :
    cs.eval g = (cs.eval f).map (Children.renamed ρ) := by
  cases cs with
  | given ts =>
      have all : ∀ t ∈ ts, f.Agree ρ g t.ids := fun t ht =>
        h.of_subset fun id hid => List.mem_flatMap.2 ⟨t, ht, hid⟩
      exact bind_eq_map (evalAll_renamed all) fun vs _ => rfl
  | raw d => rfl

/-- **Under some ids two forests hold the very same scopes.** -/
def Forest.Keeps (f g : Forest) (ids : List String) : Prop := f.Agree id g ids

/-- A value with every number as it was. -/
theorem map_renamed_id (x : Except Failure Value) : x.map (Value.renamed id) = x := by
  cases x with
  | error e => rfl
  | ok v => exact congrArg Except.ok v.renamed_id

theorem eval_of_keeps {t : Term} (h : f.Keeps g t.ids) : t.eval g = t.eval f :=
  (eval_renamed h).trans (map_renamed_id _)

theorem ChildTerms.eval_of_keeps {cs : ChildTerms} (h : f.Keeps g cs.ids) :
    cs.eval g = cs.eval f := by
  refine (ChildTerms.eval_renamed h).trans ?_
  cases cs.eval f with
  | error e => rfl
  | ok cs => exact congrArg Except.ok cs.renamed_id

end Terms

/-! ## 3. Questions -/

section Questions

variable {σ : Equiv.Perm Nat} {f g : Forest}

open Forest

namespace Forest.Renamed

/-- An id holds the same scope. -/
theorem held? (h : Renamed σ f g) (hf : f.Sound) (hg : g.Sound) (id : String) :
    g.held? id = (f.held? id).map σ := by
  cases hi : f.held? id with
  | some i =>
      exact (held?_eq_some_iff hg).2 ((h.handles id i).2 ((held?_eq_some_iff hf).1 hi))
  | none =>
      refine Option.eq_none_iff_forall_ne_some.2 fun j hj => ?_
      have hmem := (held?_eq_some_iff hg).1 hj
      rw [← σ.apply_symm_apply j, h.handles] at hmem
      rw [(held?_eq_some_iff hf).2 hmem] at hi
      cases hi

theorem agree (h : Renamed σ f g) (hf : f.Sound) (hg : g.Sound) (ids : List String) :
    f.Agree σ g ids :=
  fun id _ => ⟨h.held? hf hg id, fun i _ => h.shown i⟩

theorem state (h : Renamed σ f g) (i : Nat) (s : Scope) :
    g.state (σ i) (s.renamed σ) = f.state i s := by
  have hlabel : g.label ∘ σ = f.label := funext h.label
  simp only [Forest.state, Scope.renamed, List.map_map, Option.map_map, h.depth, h.parent?, hlabel]

theorem stateOf (h : Renamed σ f g) {id : String} (hheld : g.held? id = (f.held? id).map σ) :
    g.stateOf id = f.stateOf id := by
  unfold Forest.stateOf
  rw [hheld]
  cases f.held? id with
  | none => rfl
  | some i =>
      simp only [Option.map_some, h.scope?]
      cases f.scope? i with
      | none => rfl
      | some s => exact congrArg Except.ok (h.state i s)

theorem reference_toTerm (h : Renamed σ f g) (r : Reference) :
    r.toValue.toTerm g = r.toValue.toTerm f := by
  have e := h.value_toTerm r.toValue
  rw [Reference.toValue, Value.renamed, Value.renamed_ofIdentifier, Value.renamed_ofLocation?] at e
  exact e

theorem diagnostic_toTerm (h : Renamed σ f g) (d : Diagnostic) :
    d.toValue.toTerm g = d.toValue.toTerm f := by
  have e := h.value_toTerm d.toValue
  rw [Diagnostic.toValue, Value.renamed, Value.renamed_ofLocation?] at e
  exact e

theorem arguments_toTerm (h : Renamed σ f g) (v : Value) :
    (v.renamed σ).arguments?.map (·.map (·.toTerm g)) = v.arguments?.map (·.map (·.toTerm f)) := by
  rw [Value.arguments?_renamed, Option.map_map]
  refine congrArg (Option.map · _) (funext fun a => ?_)
  simp [Value.Arguments.map, Function.comp_def, h.value_toTerm]

end Forest.Renamed

variable (h : Renamed σ f g) (hf : f.Sound) (hg : g.Sound)

include h hf hg

theorem eval_of_renamed (t : Term) : t.eval g = (t.eval f).map (Value.renamed σ) :=
  eval_renamed (h.agree hf hg t.ids)

/-- **Every question gets the same answer.** -/
theorem answer_renamed (q : Query) : q.answer g = q.answer f := by
  have eval := eval_of_renamed h hf hg
  cases q with
  | make t =>
      exact bind_eq_of_map (eval t) fun v _ => by
        rw [h.value_text, h.value_toTerm, h.value_shown]
  | text t =>
      exact bind_eq_of_map (eval t) fun v _ => by rw [h.value_text, h.value_shown]
  | equal a b =>
      exact bind_eq_of_map (eval a) fun v _ => bind_eq_of_map (eval b) fun w _ => by
        rw [Value.same_renamed v w σ.injective, Value.differ_renamed v w σ.injective,
          Value.opinion_renamed v w σ.injective]
  | unique ts =>
      have member := fun t => bind_eq_map (eval t) fun v _ => Value.toMember_renamed v
      exact bind_eq_of_map (mapM_eq_map_of_mem fun t (_ : t ∈ ts) => member t) fun vs _ => by
        rw [Value.firsts_renamed σ.injective]
  | copy t =>
      exact bind_eq_of_map (eval t) fun v _ => (h.copied v).bind_eq fun ⟨f', w⟩ _ ⟨h', hw⟩ => by
        simp only [hw, h.arguments_toTerm, Value.same_renamed w v σ.injective, h'.value_shown]
  | intrinsic t => exact bind_eq_of_map (eval t) fun v _ => by rw [Value.isIntrinsic_renamed]
  | reference t =>
      exact bind_eq_of_map (eval t) fun v _ => by
        rw [Value.reference?_renamed, funext h.reference_toTerm]
  | receiver t => exact bind_eq_of_map (eval t) fun v _ => by rw [Value.isReceiver_renamed]
  | boundary t => exact bind_eq_of_map (eval t) fun v _ => by rw [Value.toBoundary_renamed]
  | message t => exact bind_eq_of_map (eval t) fun v _ => by rw [h.notDefinedMessage]
  | emit t =>
      exact bind_eq_of_map (eval t) fun v _ => bind_eq_of_map (h.emitted v) fun d _ => by
        rw [h.value_text, h.value_toTerm]
  | metadata => rfl
  | members e => rfl
  | state id => exact congrArg (· >>= _) (h.stateOf (h.held? hf hg id))

theorem ElementTerm.eval_renamed (e : ElementTerm) :
    e.eval g = (e.eval f).map (Element.renamed σ) := by
  have eval := eval_of_renamed h hf hg
  cases e with
  | empty => rfl
  | single node => exact bind_eq_map (eval node) fun n _ => rfl
  | pair node scope more =>
      exact bind_eq_map (eval node) fun n _ => bind_eq_map (eval scope) fun s _ => by
        cases more <;> rfl
  | raw d => rfl

theorem ElementTerms.eval_renamed (es : ElementTerms) :
    es.eval g = (es.eval f).map (Elements.renamed σ) := by
  cases es with
  | given es =>
      have all := mapM_eq_map_of_mem fun e (_ : e ∈ es) => ElementTerm.eval_renamed h hf hg e
      exact bind_eq_map all fun _ _ => rfl
  | raw d => rfl

/-- **Every question about names gets the same answer**, with the same trace. -/
theorem traced_renamed (l : Lookup) : l.answer g = (l.answer f).renamed σ id := by
  have eval : ∀ t : Term, ofExcept (t.eval g) = (ofExcept (t.eval f)).renamed σ (Value.renamed σ) :=
    fun t => ofExcept_renamed (eval_of_renamed h hf hg t)
  cases l with
  | visible scope boundary =>
      exact bind_renamed (eval scope) fun s _ => bind_renamed (eval boundary) fun b _ =>
        bind_renamed (h.visibleSet s b) fun _ _ => rfl
  | resolve name scope policy =>
      exact bind_renamed (eval name) fun n _ => bind_renamed (eval scope) fun s _ =>
        bind_renamed (eval policy) fun c _ => bind_renamed (h.verdictOn n s c) fun _ _ => rfl
  | element node scope policy =>
      refine bind_renamed (eval node) fun n _ => bind_renamed (eval scope) fun s _ =>
        bind_renamed (eval policy) fun c _ => ?_
      refine bind_renamed (h.examine n s c) fun v _ => ?_
      rw [h.examine, funext h.diagnostic_toTerm]
      rfl
  | unit elements policy =>
      have helements := ofExcept_renamed (ρ := σ) (ElementTerms.eval_renamed h hf hg elements)
      refine bind_renamed helements fun es _ => bind_renamed (eval policy) fun c _ => ?_
      refine bind_renamed (h.examineUnit es c) fun _ _ => ?_
      rw [h.examineUnit, funext h.diagnostic_toTerm]
      rfl

end Questions

/-! ## 4. Changes -/

section Changes

open Forest

variable {σ : Equiv.Perm Nat} {f g : Forest}

/-- The forest after a change under other numbers, with the same answer. -/
def Changed (σ : Equiv.Perm Nat) (x y : Forest × Answer) : Prop :=
  Renamed σ x.1 y.1 ∧ y.2 = x.2

theorem built_renamed (h : Renamed σ f g) (id : String) (i : Nat) :
    Related (Changed σ) (Change.apply.built id (f.hold id i))
      (Change.apply.built id (g.hold id (σ i))) := by
  have hheld : (g.hold id (σ i)).held? id = ((f.hold id i).held? id).map σ := by
    rw [held?_hold_self, held?_hold_self]
    rfl
  unfold Change.apply.built
  rw [(h.hold id i).stateOf hheld]
  cases (f.hold id i).stateOf id with
  | error e => exact .error e
  | ok s => exact .ok ⟨h.hold id i, rfl⟩

/-- **A change is made in both forests**, with the same answer, or in none of them, for the same
    reason. -/
theorem apply_renamed (h : Renamed σ f g) (hf : f.Sound) (hg : g.Sound) (c : Change) :
    Related (Changed σ) (c.apply f) (c.apply g) := by
  cases c with
  | scope id kind children bindings =>
      refine (related_of_map (eval_of_renamed h hf hg kind)).bind fun k k' ek => ?_
      refine (related_of_map (ChildTerms.eval_renamed (h.agree hf hg children.ids))).bind
        fun cs cs' ecs => ?_
      subst ek ecs
      refine (h.construct id k cs bindings).bind fun f' g' h' => ?_
      have hnext : g.scopes.size = σ f.scopes.size := h.size.trans h.next.symm
      rw [hnext]
      exact built_renamed h'.1 id f.scopes.size
  | nest t child =>
      simp only [Change.apply, h.held? hf hg]
      cases f.held? child with
      | none => exact .error _
      | some c =>
          refine (h.nest (t := t) (c := c)).bind fun f' g' h' => ?_
          -- the last scope of the nest is newer than both forests
          have hlast : g'.scopes.size - 1 = σ (f'.scopes.size - 1) := by
            have hpos := t.count_pos
            have hsize := h'.2
            rw [h.fixed _ (by omega), h'.1.size]
          rw [hlast]
          exact built_renamed h'.1 t.id _
  | drop id =>
      simp only [Change.apply, h.held? hf hg]
      cases f.held? id with
      | none => exact .error _
      | some i => exact .ok ⟨h.release id, congrArg Answer.dropped ((h.release id).alive i)⟩

/-! ## 5. Steps and sessions -/

/-- **A step has the same reply in both forests, and leaves forests that differ only in their
    numbers.** -/
theorem run_renamed (h : Renamed σ f g) (hf : f.Sound) (hg : g.Sound) (s : Step) :
    (s.run g).2 = (s.run f).2 ∧ Renamed σ (s.run f).1 (s.run g).1 := by
  cases s with
  | query q => exact ⟨congrArg (Reply.mk · none) (answer_renamed h hf hg q), h⟩
  | lookup l =>
      refine ⟨?_, h⟩
      have hline : Note.line g ∘ Note.renamed σ = Note.line f := funext h.note_line
      simp only [Step.run, traced_renamed h hf hg l, Traced.renamed, List.map_map, hline]
      cases (l.answer f).result <;> rfl
  | change c =>
      have hrel := apply_renamed h hf hg c
      simp only [Step.run]
      generalize c.apply f = x at hrel ⊢
      generalize c.apply g = y at hrel ⊢
      cases hrel with
      | error e => exact ⟨rfl, h⟩
      | ok h' => exact ⟨congrArg (fun a => Reply.mk (.ok a) none) h'.2, h'.1⟩

/-- **All steps of a session have the same replies under other numbers.** -/
theorem runFrom_renamed : ∀ {f g : Forest} (steps : List Step), Renamed σ f g → f.Sound → g.Sound →
    (Session.runFrom g steps).2 = (Session.runFrom f steps).2
  | _, _, [], _, _, _ => rfl
  | f, g, s :: rest, h, hf, hg => by
      obtain ⟨hreply, hnext⟩ := run_renamed h hf hg s
      have htail := runFrom_renamed rest hnext ((moves_run hf s).sound hf)
        ((moves_run hg s).sound hg)
      exact congrArg₂ List.cons hreply htail

end Changes

end TagScope

import TagScope.Forest.Construct
import TagScope.Proofs.Forest.Lifetime
/-!
# Construction

What a successful construction asks of its arguments, and how a forest moves on.

* `describe_eq_ok_iff`: **a scope comes of its arguments exactly when the kind is a kind, the
  children are scopes that were never given away, and the bindings can be members of a set.**
* `Forest.Move`: the elementary changes of a forest: one more scope, one handle more, one handle
  less.
* `Move.sound`: **each of them keeps a forest sound.**
-/

namespace TagScope.Forest

/-! ## 1. Arguments -/

section Arguments

variable {f g : Forest} {label : String} {kind : Value} {children : Children} {bindings : Datum}

theorem toKind_eq_ok_iff {v : Value} {k : ScopeKind} : v.toKind = .ok k ↔ v = .kind k := by
  unfold Value.toKind
  constructor
  · intro h
    split at h
    · rw [Except.ok.inj h]
    · cases h
  · rintro rfl
    rfl

theorem toChild_eq_ok_iff {v : Value} {c : Nat} :
    f.toChild v = .ok c ↔ v = .scope c ∧ f.attached c = false := by
  unfold toChild
  constructor
  · intro h
    split at h
    · split at h
      · cases h
      · next hn =>
        obtain rfl := Except.ok.inj h
        exact ⟨rfl, Bool.eq_false_iff.2 hn⟩
    · cases h
  · intro h
    obtain ⟨rfl, h⟩ := h
    simp [h]

theorem mapM_toChild_eq_ok_iff : ∀ {vs : List Value} {cs : List Nat},
    vs.mapM f.toChild = .ok cs ↔ vs = cs.map .scope ∧ ∀ c ∈ cs, f.attached c = false
  | [], cs => by
      rw [List.mapM_nil]
      constructor
      · intro h
        obtain rfl : [] = cs := Except.ok.inj h
        exact ⟨rfl, fun c hc => absurd hc List.not_mem_nil⟩
      · intro ⟨h, _⟩
        rw [List.map_eq_nil_iff.1 h.symm]
        rfl
  | v :: vs, cs => by
      rw [List.mapM_cons, Failure.bind_eq_ok]
      constructor
      · intro ⟨c, hc, h⟩
        obtain ⟨ds, hds, h⟩ := Failure.bind_eq_ok.1 h
        obtain rfl : c :: ds = cs := Except.ok.inj h
        obtain ⟨rfl, hf⟩ := toChild_eq_ok_iff.1 hc
        obtain ⟨rfl, hfs⟩ := mapM_toChild_eq_ok_iff.1 hds
        exact ⟨rfl, List.forall_mem_cons.2 ⟨hf, hfs⟩⟩
      · intro ⟨h, hfs⟩
        obtain ⟨c, ds, rfl, rfl, rfl⟩ := List.map_eq_cons_iff.1 h.symm
        obtain ⟨hf, hfs⟩ := List.forall_mem_cons.1 hfs
        refine ⟨c, toChild_eq_ok_iff.2 ⟨rfl, hf⟩, Failure.bind_eq_ok.2 ⟨ds, ?_, rfl⟩⟩
        exact mapM_toChild_eq_ok_iff.2 ⟨rfl, hfs⟩

/-- **When arguments describe a scope, and which one.** -/
theorem describe_eq_ok_iff {s : Scope} :
    f.describe label kind children bindings = .ok s ↔
      kind = .kind s.kind ∧ children.values = .ok (s.children.map .scope) ∧
        (∀ c ∈ s.children, f.attached c = false) ∧
        (∃ bs, bindings.toBindings = .ok bs ∧ s.bindings = .ofList bs) ∧ s.label = label ∧
        s.holder = none := by
  unfold describe
  constructor
  · intro h
    obtain ⟨k, hk, h⟩ := Failure.bind_eq_ok.1 h
    obtain ⟨vs, hvs, h⟩ := Failure.bind_eq_ok.1 h
    obtain ⟨cs, hcs, h⟩ := Failure.bind_eq_ok.1 h
    obtain ⟨bs, hbs, h⟩ := Failure.bind_eq_ok.1 h
    obtain rfl := Except.ok.inj h
    obtain ⟨rfl, hfree⟩ := mapM_toChild_eq_ok_iff.1 hcs
    exact ⟨toKind_eq_ok_iff.1 hk, hvs, hfree, ⟨bs, hbs, rfl⟩, rfl, rfl⟩
  · intro ⟨hk, hvs, hfree, ⟨bs, hbs, hb⟩, hl, hh⟩
    refine Failure.bind_eq_ok.2 ⟨s.kind, toKind_eq_ok_iff.2 hk, ?_⟩
    refine Failure.bind_eq_ok.2 ⟨_, hvs, ?_⟩
    refine Failure.bind_eq_ok.2 ⟨s.children, mapM_toChild_eq_ok_iff.2 ⟨rfl, hfree⟩, ?_⟩
    refine Failure.bind_eq_ok.2 ⟨bs, hbs, ?_⟩
    rw [← hb, ← hl, ← hh]
    rfl

/-- What a scope is like depends on the forest only through its children. -/
theorem describe_congr (h : ∀ vs, children.values = .ok vs → ∀ v ∈ vs, g.toChild v = f.toChild v) :
    g.describe label kind children bindings = f.describe label kind children bindings := by
  unfold describe
  refine bind_congr fun k => ?_
  cases hvs : children.values with
  | error e => rfl
  | ok vs =>
      show ((vs.mapM g.toChild) >>= _) = ((vs.mapM f.toChild) >>= _)
      rw [Failure.mapM_congr (h vs hvs)]

/-- A scope that is described with one child has that child. -/
theorem children_of_describe_one {s : Scope} {c : Nat}
    (hs : f.describe label kind (.given [.scope c]) bindings = .ok s) : s.children = [c] := by
  obtain ⟨_, hvs, _⟩ := describe_eq_ok_iff.1 hs
  have e : [Value.scope c] = s.children.map .scope := Except.ok.inj hvs
  obtain ⟨d, hd, hdc⟩ := List.map_eq_singleton_iff.1 e.symm
  rw [hd, Value.scope.inj hdc]

theorem built_of_describe_one {s : Scope} {c : Nat}
    (hs : f.describe label kind (.given [.scope c]) bindings = .ok s) (hc : f.Built c) :
    ∀ d ∈ s.children, f.Built d := by
  intro d hd
  rw [children_of_describe_one hs] at hd
  exact List.mem_singleton.1 hd ▸ hc

theorem construct_eq_ok_iff :
    f.construct label kind children bindings = .ok g ↔
      ∃ s, f.describe label kind children bindings = .ok s ∧ g = f.push s := by
  unfold construct
  rw [Failure.bind_eq_ok]
  refine exists_congr fun s => and_congr_right fun _ => ?_
  exact ⟨fun h => (Except.ok.inj h).symm, fun h => h ▸ rfl⟩

end Arguments

/-! ## 2. Elementary changes -/

/-- **How a forest moves on.** -/
inductive Move : Forest → Forest → Prop
  /-- One more scope, around scopes that were built and never given away. -/
  | push (f : Forest) (s : Scope) (hs : s.holder = none)
      (hcs : ∀ c ∈ s.children, f.Built c ∧ f.attached c = false) : Move f (f.push s)
  /-- A handle for a scope that has none. -/
  | hold (f : Forest) (id : String) (i : Nat) (hb : f.Built i) (hn : f.held i = false) :
      Move f (f.hold id i)
  /-- One handle less. -/
  | release (f : Forest) (id : String) : Move f (f.release id)

/-- Any number of moves. -/
def Moves : Forest → Forest → Prop := Relation.ReflTransGen Move

section Moves

variable {f g : Forest} {s : Scope} {id : String} {i p c : Nat}

/-- Giving scopes away changes nothing but their links. -/
theorem size_foldl_give : ∀ {cs : List Nat} {scopes : Array Scope},
    (cs.foldl (give p) scopes).size = scopes.size
  | [], _ => rfl
  | c :: cs, scopes => by
      rw [List.foldl_cons, size_foldl_give, give, Array.size_modify]

theorem getElem?_foldl_give : ∀ {cs : List Nat} {scopes : Array Scope},
    (cs.foldl (give p) scopes)[i]? =
      scopes[i]?.map fun s => if i ∈ cs then { s with holder := some p } else s
  | [], scopes => by simp
  | c :: cs, scopes => by
      rw [List.foldl_cons, getElem?_foldl_give, give, Array.getElem?_modify]
      by_cases hc : c = i
      · subst hc
        cases scopes[c]? <;> simp
      · have hi : i ≠ c := Ne.symm hc
        simp [hc, hi]

theorem size_push : (f.push s).scopes.size = f.scopes.size + 1 := by
  unfold push
  rw [Array.size_push, size_foldl_give]

theorem built_push : (f.push s).Built i ↔ f.Built i ∨ i = f.scopes.size := by
  unfold Built
  rw [size_push]
  omega

theorem scope?_push_of_built (h : f.Built i) :
    (f.push s).scope? i = (f.scope? i).map fun t =>
      if i ∈ s.children then { t with holder := some f.scopes.size } else t := by
  unfold scope? push
  rw [Array.getElem?_push_lt (size_foldl_give.symm ▸ h), ← getElem?_foldl_give]
  exact (Array.getElem?_eq_getElem _).symm

theorem scope?_push_size : (f.push s).scope? f.scopes.size = some s := by
  have e : (s.children.foldl (give f.scopes.size) f.scopes).size = f.scopes.size := size_foldl_give
  unfold scope? push
  rw [Array.getElem?_push, if_pos e.symm]

/-- **A new scope holds its children, and all other links inwards stay.** -/
theorem holds_push :
    (f.push s).Holds p c ↔ f.Holds p c ∨ p = f.scopes.size ∧ c ∈ s.children := by
  constructor
  · intro ⟨t, ht, hc⟩
    rcases built_push.1 (built_iff.2 ⟨t, ht⟩) with hb | rfl
    · rw [scope?_push_of_built hb] at ht
      obtain ⟨u, hu, rfl⟩ := Option.map_eq_some_iff.1 ht
      refine Or.inl ⟨u, hu, ?_⟩
      split at hc <;> exact hc
    · rw [scope?_push_size] at ht
      obtain rfl := Option.some.inj ht
      exact Or.inr ⟨rfl, hc⟩
  · intro h
    rcases h with h | ⟨rfl, hc⟩
    · have hb := h.built
      obtain ⟨t, ht, hc⟩ := h
      refine ⟨_, (scope?_push_of_built hb).trans (congrArg _ ht), ?_⟩
      split <;> exact hc
    · exact ⟨s, scope?_push_size, hc⟩

/-- **The children of a new scope are linked to it, and all other links outwards stay.** -/
theorem holder?_push (hs : s.holder = none) (hlt : ∀ d ∈ s.children, f.Built d) :
    (f.push s).holder? c = if c ∈ s.children then some f.scopes.size else f.holder? c := by
  unfold holder?
  by_cases hb : f.Built c
  · rw [scope?_push_of_built hb]
    obtain ⟨t, ht⟩ := built_iff.1 hb
    rw [ht]
    show (if c ∈ s.children then _ else t).holder = _
    split <;> rfl
  · rw [if_neg fun hc => hb (hlt c hc)]
    rw [scope?_eq_none hb]
    by_cases hc : c = f.scopes.size
    · rw [hc, scope?_push_size]
      exact hs
    · have hb' : ¬ (f.push s).Built c := fun h => (built_push.1 h).elim hb hc
      rw [scope?_eq_none hb']

theorem mem_hold {e : String × Nat} :
    e ∈ (f.hold id i).handles ↔ e = (id, i) ∨ e ∈ f.handles ∧ e.1 ≠ id := by
  unfold hold
  rw [List.mem_cons, List.mem_filter, bne_iff_ne]

theorem mem_release {e : String × Nat} :
    e ∈ (f.release id).handles ↔ e ∈ f.handles ∧ e.1 ≠ id := by
  unfold release
  rw [List.mem_filter, bne_iff_ne]

theorem not_holds_empty : ¬ empty.Holds p c := fun ⟨_, h, _⟩ => nomatch h

theorem sound_empty : empty.Sound where
  older _ _ h := absurd h not_holds_empty
  linked _ c := by
    have hn : empty.holder? c = none := by simp [holder?, scope?, empty]
    rw [hn]
    exact iff_of_false not_holds_empty nofun
  handleBuilt _ _ h := absurd h List.not_mem_nil
  handleSingle _ _ _ h := absurd h List.not_mem_nil
  idsDistinct := List.nodup_nil

theorem sound_push (hf : f.Sound) (hs : s.holder = none)
    (hcs : ∀ c ∈ s.children, f.Built c ∧ f.attached c = false) : (f.push s).Sound where
  older p c h := by
    rcases holds_push.1 h with h | ⟨rfl, hc⟩
    · exact hf.older p c h
    · exact (hcs c hc).1
  linked p c := by
    rw [holds_push, holder?_push hs fun d hd => (hcs d hd).1]
    by_cases hc : c ∈ s.children
    · -- the child was attached nowhere, so it has no older holder
      have free : ¬ f.Holds p c := fun h => by
        have ha := (attached_iff hf).2 ⟨p, h⟩
        rw [(hcs c hc).2] at ha
        cases ha
      rw [if_pos hc, Option.some.injEq]
      exact ⟨fun h => (h.resolve_left free).1.symm, fun e => Or.inr ⟨e.symm, hc⟩⟩
    · rw [if_neg hc, ← hf.linked p c]
      exact ⟨fun h => h.resolve_right fun h => hc h.2, Or.inl⟩
  handleBuilt id i h := built_push.2 (Or.inl (hf.handleBuilt id i h))
  handleSingle := hf.handleSingle
  idsDistinct := hf.idsDistinct

theorem sound_hold (hf : f.Sound) (hb : f.Built i) (hn : f.held i = false) :
    (f.hold id i).Sound where
  older := hf.older
  linked := hf.linked
  handleBuilt id' j h := by
    rcases mem_hold.1 h with e | ⟨h, _⟩
    · cases e
      exact hb
    · exact hf.handleBuilt id' j h
  handleSingle a b j ha hb := by
    have free : ∀ {r}, (r, i) ∉ f.handles := fun hr => by
      rw [held_iff_mem.2 ⟨_, hr⟩] at hn
      cases hn
    rcases mem_hold.1 ha with ea | ⟨ha, _⟩ <;> rcases mem_hold.1 hb with eb | ⟨hb, _⟩
    · cases ea
      cases eb
      rfl
    · cases ea
      exact absurd hb free
    · cases eb
      exact absurd ha free
    · exact hf.handleSingle a b j ha hb
  idsDistinct := by
    unfold hold
    rw [List.map_cons, List.nodup_cons]
    refine ⟨fun h => ?_, hf.idsDistinct.sublist (List.filter_sublist.map _)⟩
    obtain ⟨e, he, h⟩ := List.mem_map.1 h
    exact absurd h (bne_iff_ne.1 (List.mem_filter.1 he).2)

theorem sound_release (hf : f.Sound) : (f.release id).Sound where
  older := hf.older
  linked := hf.linked
  handleBuilt id' j h := hf.handleBuilt id' j (mem_release.1 h).1
  handleSingle a b j ha hb := hf.handleSingle a b j (mem_release.1 ha).1 (mem_release.1 hb).1
  idsDistinct := hf.idsDistinct.sublist (List.filter_sublist.map _)

/-- **Every move keeps a forest sound.** -/
theorem Move.sound (hf : f.Sound) (h : Move f g) : g.Sound := by
  cases h with
  | push s hs hcs => exact sound_push hf hs hcs
  | hold id i hb hn => exact sound_hold hf hb hn
  | release id => exact sound_release hf

theorem Moves.sound (hf : f.Sound) (h : Moves f g) : g.Sound := by
  induction h with
  | refl => exact hf
  | tail _ h ih => exact h.sound ih

end Moves

end TagScope.Forest

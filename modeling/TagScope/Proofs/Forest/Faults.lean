import TagScope.Proofs.Forest.Construction
/-!
# Faults in the arguments of a scope

Which arguments make a scope, and what is said about the others. Both are told by what the
arguments are, and by which scopes were given away, without the function that looks at them.

* `Datum.Yields`, `Children.Yield`: what can be gone through, and the elements that come of it.
* `Forest.Admissible`: the arguments of a scope that can be built.
* `Forest.FirstFault`: **the first fault in the order of the arguments**, with its class and its
  text.
* `describe_eq_ok_iff_admissible`, `describe_eq_error_iff`: **arguments make a scope exactly when
  they are admissible, and otherwise the failure is their first fault.**
-/

namespace TagScope

/-! ## 1. Elements -/

/-- **What a datum yields one after the other**: a text its characters, a list its elements and a
    dictionary its keys. All else yields nothing. -/
inductive Datum.Yields : Datum → List Datum → Prop
  | text (s : String) : Yields (.text s) (s.toList.map fun c => .text (String.singleton c))
  | list (items : List Datum) : Yields (.list items) items
  | mapping (entries : Dictionary Datum) : Yields (.mapping entries) (entries.keys.map .text)

/-- What is given for children yields the values that are given, or what a datum yields. -/
inductive Children.Yield : Children → List Value → Prop
  | given (vs : List Value) : Yield (.given vs) vs
  | raw {d : Datum} {items : List Datum} (h : d.Yields items) : Yield (.raw d) (items.map .datum)

/-- Lists and dictionaries cannot be in a set. -/
def Datum.Hashable (d : Datum) : Prop :=
  (∀ items, d ≠ .list items) ∧ ∀ entries, d ≠ .mapping entries

section Elements

variable {d : Datum} {items : List Datum} {children : Children} {vs : List Value} {b : Binding}
  {bs : List Binding} {e : Failure}

theorem Datum.yields_iff : d.Yields items ↔ d.items? = some items := by
  constructor
  · intro h
    cases h <;> rfl
  · intro h
    cases d with
    | text s => exact Option.some.inj h ▸ .text s
    | list l => exact Option.some.inj h ▸ .list l
    | mapping m => exact Option.some.inj h ▸ .mapping m
    | _ => cases h

theorem Datum.items?_eq_none_iff : d.items? = none ↔ ∀ items, ¬ d.Yields items := by
  rw [Option.eq_none_iff_forall_ne_some]
  exact forall_congr' fun items => not_congr yields_iff.symm

theorem Children.values_eq_ok_iff : children.values = .ok vs ↔ children.Yield vs := by
  cases children with
  | given ws =>
      constructor
      · intro h
        exact Except.ok.inj h ▸ .given ws
      · intro h
        cases h
        rfl
  | raw d =>
      rw [values]
      constructor
      · intro h
        split at h
        · next items hitems => exact Except.ok.inj h ▸ .raw (Datum.yields_iff.2 hitems)
        · cases h
      · intro h
        cases h with
        | raw h => rw [Datum.yields_iff.1 h]

theorem Children.values_eq_error_iff : children.values = .error e ↔
    ∃ d, children = .raw d ∧ (∀ items, ¬ d.Yields items) ∧
      e = .notIterable (Value.datumShape d) := by
  cases children with
  | given ws => exact ⟨nofun, fun ⟨_, h, _⟩ => nomatch h⟩
  | raw d =>
      simp only [values, Children.raw.injEq, exists_eq_left', ← Datum.items?_eq_none_iff]
      cases d.items? with
      | none => exact ⟨fun h => ⟨rfl, (Except.error.inj h).symm⟩, fun h => h.2 ▸ rfl⟩
      | some items => exact iff_of_false nofun fun h => nomatch h.1

theorem Datum.toBinding_eq_ok_iff : d.toBinding = .ok b ↔ d = b.toDatum := by
  constructor
  · intro h
    cases d with
    | list | mapping => cases h
    | _ =>
        obtain rfl := Except.ok.inj h
        rfl
  · rintro rfl
    cases b <;> rfl

theorem Datum.exists_toBinding_iff : (∃ b, d.toBinding = .ok b) ↔ d.Hashable := by
  cases d with
  | list l => exact iff_of_false (fun ⟨_, h⟩ => nomatch h) fun h => h.1 l rfl
  | mapping m => exact iff_of_false (fun ⟨_, h⟩ => nomatch h) fun h => h.2 m rfl
  | _ => exact iff_of_true ⟨_, rfl⟩ ⟨nofun, nofun⟩

theorem Datum.toBinding_eq_error_iff :
    d.toBinding = .error e ↔ ¬ d.Hashable ∧ e = .unhashable (Value.datumShape d) := by
  rw [← exists_toBinding_iff, toBinding]
  cases Binding.ofDatum? d with
  | none =>
      constructor
      · intro h
        exact ⟨(fun h => nomatch h.choose_spec), (Except.error.inj h).symm⟩
      · rintro ⟨_, rfl⟩
        rfl
  | some b => exact iff_of_false nofun fun h => h.1 ⟨b, rfl⟩

/-- The bindings of a set are what the datum yields. -/
theorem Datum.eq_map_of_mapM_toBinding : ∀ {items : List Datum} {bs : List Binding},
    items.mapM Datum.toBinding = .ok bs → items = bs.map Binding.toDatum
  | [], bs, h => by
      obtain rfl : [] = bs := Except.ok.inj h
      rfl
  | d :: items, bs, h => by
      rw [List.mapM_cons] at h
      obtain ⟨b, hb, h⟩ := Failure.bind_eq_ok.1 h
      obtain ⟨cs, hcs, h⟩ := Failure.bind_eq_ok.1 h
      obtain rfl : b :: cs = bs := Except.ok.inj h
      rw [List.map_cons, toBinding_eq_ok_iff.1 hb, eq_map_of_mapM_toBinding hcs]

theorem Datum.toBindings_eq : d.toBindings = match d.items? with
    | none => .error (.notIterable (Value.datumShape d))
    | some items => items.mapM Datum.toBinding := rfl

theorem Datum.yields_of_toBindings (h : d.toBindings = .ok bs) :
    d.Yields (bs.map Binding.toDatum) := by
  rw [toBindings_eq] at h
  split at h
  · cases h
  · next items hitems => exact yields_iff.2 (eq_map_of_mapM_toBinding h ▸ hitems)

/-- **A datum makes bindings when it yields elements that a set can hold.** -/
theorem Datum.exists_toBindings_iff : (∃ bs, d.toBindings = .ok bs) ↔
    ∃ items, d.Yields items ∧ ∀ x ∈ items, x.Hashable := by
  simp only [yields_iff, ← exists_toBinding_iff, toBindings_eq]
  cases d.items? with
  | none => exact iff_of_false (fun ⟨_, h⟩ => nomatch h) fun ⟨_, h, _⟩ => nomatch h
  | some items =>
      simp only [Option.some.injEq, exists_eq_left']
      exact Failure.exists_mapM_eq_ok_iff

/-- **A datum makes no bindings when it yields nothing, or when some element is the first one that
    no set can hold.** -/
theorem Datum.toBindings_eq_error_iff : d.toBindings = .error e ↔
    (∀ items, ¬ d.Yields items) ∧ e = .notIterable (Value.datumShape d) ∨
      ∃ before x after, d.Yields (before ++ x :: after) ∧ (∀ y ∈ before, y.Hashable) ∧
        ¬ x.Hashable ∧ e = .unhashable (Value.datumShape x) := by
  rw [toBindings_eq]
  constructor
  · intro h
    split at h
    · next hnone => exact Or.inl ⟨items?_eq_none_iff.1 hnone, (Except.error.inj h).symm⟩
    · next items hitems =>
      obtain ⟨before, x, after, rfl, hbefore, hx⟩ := Failure.mapM_eq_error_iff.1 h
      obtain ⟨hhash, rfl⟩ := toBinding_eq_error_iff.1 hx
      refine Or.inr ⟨before, x, after, yields_iff.2 hitems, fun y hy => ?_, hhash, rfl⟩
      exact exists_toBinding_iff.1 (hbefore y hy)
  · rintro (⟨hnone, rfl⟩ | ⟨before, x, after, h, hbefore, hhash, rfl⟩)
    · rw [items?_eq_none_iff.2 hnone]
    · rw [yields_iff.1 h]
      refine Failure.mapM_eq_error_iff.2 ⟨before, x, after, rfl, fun y hy => ?_, ?_⟩
      · exact exists_toBinding_iff.2 (hbefore y hy)
      · exact toBinding_eq_error_iff.2 ⟨hhash, rfl⟩

end Elements

/-! ## 2. Admissible arguments -/

namespace Forest

/-- A value that can be a child of a new scope, where some scopes were given away before. -/
def Available (given : Nat → Prop) (v : Value) : Prop := ∃ c, v = .scope c ∧ ¬ given c

/-- **The arguments of a scope that can be built.** -/
structure Admissible (given : Nat → Prop) (kind : Value) (children : Children) (bindings : Datum) :
    Prop where
  kind : ∃ k, kind = .kind k
  children : ∃ vs, children.Yield vs ∧ ∀ v ∈ vs, Available given v
  bindings : ∃ items, bindings.Yields items ∧ ∀ d ∈ items, d.Hashable

/-- **The first fault in the arguments of a scope**: its class and its text. The kind comes first,
    then the children, one after the other, and the bindings come last. -/
inductive FirstFault (f : Forest) (given : Nat → Prop) :
    Value → Children → Datum → Failure.Category → String → Prop
  /-- The kind is none. -/
  | kind {kind : Value} {children : Children} {bindings : Datum} (h : ∀ k, kind ≠ .kind k) :
      FirstFault f given kind children bindings .wrongType
        ("Kind should have type <enum 'ScopeKind'>, but found: " ++ kind.shape.shown ++ ".")
  /-- The children cannot be gone through. -/
  | children {k : ScopeKind} {d : Datum} {bindings : Datum} (h : ∀ items, ¬ d.Yields items) :
      FirstFault f given (.kind k) (.raw d) bindings .wrongType
        ("'" ++ (Value.datumShape d).word ++ "' object is not iterable")
  /-- A child is no scope, and all before it are available. -/
  | notScope {k : ScopeKind} {children : Children} {bindings : Datum} {before after : List Value}
      {v : Value} (h : children.Yield (before ++ v :: after))
      (hbefore : ∀ w ∈ before, Available given w) (hv : ∀ c, v ≠ .scope c) :
      FirstFault f given (.kind k) children bindings .missingPart
        ("'" ++ v.shape.word ++ "' object has no attribute '_parent'")
  /-- A child was given away, and all before it are available. -/
  | attached {k : ScopeKind} {children : Children} {bindings : Datum} {before after : List Value}
      {c : Nat} (h : children.Yield (before ++ .scope c :: after))
      (hbefore : ∀ w ∈ before, Available given w) (hc : given c) :
      FirstFault f given (.kind k) children bindings .wrongValue
        ("Scope " ++ f.shown c ++ " already has a parent.")
  /-- The bindings cannot be gone through. -/
  | bindings {k : ScopeKind} {children : Children} {bindings : Datum} {vs : List Value}
      (hvs : children.Yield vs) (havailable : ∀ v ∈ vs, Available given v)
      (h : ∀ items, ¬ bindings.Yields items) :
      FirstFault f given (.kind k) children bindings .wrongType
        ("'" ++ (Value.datumShape bindings).word ++ "' object is not iterable")
  /-- A binding cannot be in a set, and all before it can. -/
  | unhashable {k : ScopeKind} {children : Children} {bindings : Datum} {vs : List Value}
      {before after : List Datum} {d : Datum} (hvs : children.Yield vs)
      (havailable : ∀ v ∈ vs, Available given v) (h : bindings.Yields (before ++ d :: after))
      (hbefore : ∀ x ∈ before, x.Hashable) (hd : ¬ d.Hashable) :
      FirstFault f given (.kind k) children bindings .wrongType
        ("unhashable type: '" ++ (Value.datumShape d).word ++ "'")

/-! ## 3. What the checks find -/

section Checks

variable {f : Forest} {given : Nat → Prop} {label : String} {kind v : Value} {k : ScopeKind}
  {children : Children} {bindings : Datum} {vs : List Value} {e : Failure}
  {category : Failure.Category} {message : String}

theorem toKind_eq_error_iff :
    kind.toKind = .error e ↔ (∀ k, kind ≠ .kind k) ∧ e = .notKind kind.shape := by
  cases kind with
  | kind k => exact iff_of_false nofun fun h => h.1 k rfl
  | _ => exact ⟨fun h => ⟨nofun, (Except.error.inj h).symm⟩, fun h => h.2 ▸ rfl⟩

theorem exists_toChild_iff (hgiven : ∀ c, given c ↔ f.attached c = true) :
    (∃ c, f.toChild v = .ok c) ↔ Available given v := by
  refine exists_congr fun c => ?_
  rw [toChild_eq_ok_iff, hgiven, Bool.not_eq_true]

theorem toChild_eq_error_iff (hgiven : ∀ c, given c ↔ f.attached c = true) :
    f.toChild v = .error e ↔ (∀ c, v ≠ .scope c) ∧ e = .missing v.shape .parent ∨
      ∃ c, v = .scope c ∧ given c ∧ e = .attached (f.shown c) := by
  cases v with
  | scope c =>
      have hscope : ¬ ((∀ d, Value.scope c ≠ .scope d) ∧
          e = .missing (Value.scope c).shape .parent) := fun h => h.1 c rfl
      simp only [hscope, false_or, Value.scope.injEq, exists_eq_left', hgiven, toChild]
      cases f.attached c with
      | false => exact iff_of_false nofun fun h => nomatch h.1
      | true => exact ⟨fun h => ⟨rfl, (Except.error.inj h).symm⟩, fun h => h.2 ▸ rfl⟩
  | _ =>
      refine ⟨fun h => Or.inl ⟨nofun, (Except.error.inj h).symm⟩, ?_⟩
      rintro (h | ⟨_, h, _⟩)
      · exact h.2 ▸ rfl
      · cases h

/-- **The first child at fault** is no scope, or it was given away. -/
theorem mapM_toChild_eq_error_iff (hgiven : ∀ c, given c ↔ f.attached c = true) :
    vs.mapM f.toChild = .error e ↔ ∃ before v after, vs = before ++ v :: after ∧
      (∀ w ∈ before, Available given w) ∧
      ((∀ c, v ≠ .scope c) ∧ e = .missing v.shape .parent ∨
        ∃ c, v = .scope c ∧ given c ∧ e = .attached (f.shown c)) := by
  rw [Failure.mapM_eq_error_iff]
  simp only [exists_toChild_iff hgiven, toChild_eq_error_iff hgiven]

/-- The children of a new scope are all right when every one of them is available. -/
theorem exists_mapM_toChild_iff (hgiven : ∀ c, given c ↔ f.attached c = true) :
    (∃ cs, vs.mapM f.toChild = .ok cs) ↔ ∀ v ∈ vs, Available given v := by
  rw [Failure.exists_mapM_eq_ok_iff]
  exact forall_congr' fun v => imp_congr_right fun _ => exists_toChild_iff hgiven

/-! ## 4. Which arguments make a scope -/

/-- **Arguments make a scope exactly when they are admissible.** -/
theorem describe_eq_ok_iff_admissible (hgiven : ∀ c, given c ↔ f.attached c = true) :
    (∃ s, f.describe label kind children bindings = .ok s) ↔
      Admissible given kind children bindings := by
  constructor
  · intro ⟨s, hs⟩
    obtain ⟨hk, hvs, hfree, ⟨bs, hbs, _⟩, _⟩ := describe_eq_ok_iff.1 hs
    refine ⟨⟨_, hk⟩, ⟨_, Children.values_eq_ok_iff.1 hvs, fun v hv => ?_⟩,
      Datum.exists_toBindings_iff.1 ⟨bs, hbs⟩⟩
    obtain ⟨c, hc, rfl⟩ := List.mem_map.1 hv
    exact (exists_toChild_iff hgiven).1 ⟨c, toChild_eq_ok_iff.2 ⟨rfl, hfree c hc⟩⟩
  · intro ⟨⟨k, hk⟩, ⟨vs, hvs, havailable⟩, hbindings⟩
    obtain ⟨bs, hbs⟩ := Datum.exists_toBindings_iff.2 hbindings
    obtain ⟨cs, hcs⟩ := (exists_mapM_toChild_iff hgiven).2 havailable
    obtain ⟨rfl, hfree⟩ := mapM_toChild_eq_ok_iff.1 hcs
    refine ⟨⟨label, k, .ofList bs, cs, none⟩, describe_eq_ok_iff.2 ?_⟩
    exact ⟨hk, Children.values_eq_ok_iff.2 hvs, hfree, ⟨bs, hbs, rfl⟩, rfl, rfl⟩

/-- What cannot be gone through for children is at fault as soon as the kind is one. -/
theorem describe_of_values (h : children.values = .error e) :
    f.describe label (.kind k) children bindings = .error e :=
  Failure.bind_eq_error.2 (Or.inr ⟨k, rfl, Failure.bind_eq_error.2 (Or.inl h)⟩)

/-- A fault in a child ends the checks before the bindings are looked at. -/
theorem describe_of_child (hvs : children.Yield vs) (h : vs.mapM f.toChild = .error e) :
    f.describe label (.kind k) children bindings = .error e := by
  refine Failure.bind_eq_error.2 (Or.inr ⟨k, rfl, ?_⟩)
  refine Failure.bind_eq_error.2 (Or.inr ⟨vs, Children.values_eq_ok_iff.2 hvs, ?_⟩)
  exact Failure.bind_eq_error.2 (Or.inl h)

/-- A fault in the bindings is found when all children are available. -/
theorem describe_of_bindings (hgiven : ∀ c, given c ↔ f.attached c = true)
    (hvs : children.Yield vs) (havailable : ∀ v ∈ vs, Available given v)
    (h : bindings.toBindings = .error e) :
    f.describe label (.kind k) children bindings = .error e := by
  obtain ⟨cs, hcs⟩ := (exists_mapM_toChild_iff hgiven).2 havailable
  refine Failure.bind_eq_error.2 (Or.inr ⟨k, rfl, ?_⟩)
  refine Failure.bind_eq_error.2 (Or.inr ⟨vs, Children.values_eq_ok_iff.2 hvs, ?_⟩)
  refine Failure.bind_eq_error.2 (Or.inr ⟨cs, hcs, ?_⟩)
  exact Failure.bind_eq_error.2 (Or.inl h)

/-- What is said of a child that is no scope. -/
theorem message_missing_parent {s : Shape} : (Failure.missing s .parent).message
    = "'" ++ s.word ++ "' object has no attribute '_parent'" := by
  have hpart : "' object has no attribute '" ++ ("_parent" ++ "'")
      = "' object has no attribute '_parent'" := by decide
  unfold Failure.message Part.word
  refine String.append_assoc.trans (String.append_assoc.trans ?_)
  rw [hpart]

/-- Where arguments make no scope, the failure is their first fault. -/
theorem firstFault_of_describe (hgiven : ∀ c, given c ↔ f.attached c = true)
    (h : f.describe label kind children bindings = .error e) :
    FirstFault f given kind children bindings e.category e.message := by
  rcases Failure.bind_eq_error.1 h with hk | ⟨k, hk, hrest⟩
  · obtain ⟨hkind, rfl⟩ := toKind_eq_error_iff.1 hk
    exact .kind hkind
  obtain rfl := toKind_eq_ok_iff.1 hk
  rcases Failure.bind_eq_error.1 hrest with hvs | ⟨vs, hvs, hrest⟩
  · obtain ⟨d, rfl, hd, rfl⟩ := Children.values_eq_error_iff.1 hvs
    exact .children hd
  have hyield := Children.values_eq_ok_iff.1 hvs
  rcases Failure.bind_eq_error.1 hrest with hcs | ⟨cs, hcs, hrest⟩
  · obtain ⟨before, v, after, rfl, hbefore, hv⟩ := (mapM_toChild_eq_error_iff hgiven).1 hcs
    rcases hv with ⟨hscope, rfl⟩ | ⟨c, rfl, hc, rfl⟩
    · rw [message_missing_parent]
      exact .notScope hyield hbefore hscope
    · exact .attached hyield hbefore hc
  have havailable := (exists_mapM_toChild_iff hgiven).1 ⟨cs, hcs⟩
  rcases Failure.bind_eq_error.1 hrest with hbs | ⟨bs, _, hrest⟩
  · rcases Datum.toBindings_eq_error_iff.1 hbs with ⟨hb, rfl⟩ | ⟨_, _, _, hb, hbefore, hx, rfl⟩
    · exact .bindings hyield havailable hb
    · exact .unhashable hyield havailable hb hbefore hx
  · cases hrest

/-- A first fault of the arguments is the failure. -/
theorem describe_of_firstFault (hgiven : ∀ c, given c ↔ f.attached c = true)
    (h : FirstFault f given kind children bindings category message) :
    ∃ e, f.describe label kind children bindings = .error e ∧ e.category = category ∧
      e.message = message := by
  cases h with
  | kind h =>
      have hk : kind.toKind = .error _ := toKind_eq_error_iff.2 ⟨h, rfl⟩
      exact ⟨_, Failure.bind_eq_error.2 (Or.inl hk), rfl, rfl⟩
  | children h =>
      exact ⟨_, describe_of_values (Children.values_eq_error_iff.2 ⟨_, rfl, h, rfl⟩), rfl, rfl⟩
  | notScope h hbefore hv =>
      refine ⟨.missing _ .parent, describe_of_child h ?_, rfl, message_missing_parent⟩
      exact (mapM_toChild_eq_error_iff hgiven).2 ⟨_, _, _, rfl, hbefore, Or.inl ⟨hv, rfl⟩⟩
  | attached h hbefore hc =>
      refine ⟨.attached _, describe_of_child h ?_, rfl, rfl⟩
      exact (mapM_toChild_eq_error_iff hgiven).2 ⟨_, _, _, rfl, hbefore, Or.inr ⟨_, rfl, hc, rfl⟩⟩
  | bindings hvs havailable h =>
      refine ⟨.notIterable _, describe_of_bindings hgiven hvs havailable ?_, rfl, rfl⟩
      exact Datum.toBindings_eq_error_iff.2 (Or.inl ⟨h, rfl⟩)
  | unhashable hvs havailable h hbefore hd =>
      refine ⟨.unhashable _, describe_of_bindings hgiven hvs havailable ?_, rfl, rfl⟩
      exact Datum.toBindings_eq_error_iff.2 (Or.inr ⟨_, _, _, h, hbefore, hd, rfl⟩)

/-- **The failure of arguments that make no scope is their first fault.** -/
theorem describe_eq_error_iff (hgiven : ∀ c, given c ↔ f.attached c = true) :
    (∃ e, f.describe label kind children bindings = .error e ∧ e.category = category ∧
      e.message = message) ↔ FirstFault f given kind children bindings category message := by
  constructor
  · rintro ⟨e, h, rfl, rfl⟩
    exact firstFault_of_describe hgiven h
  · exact describe_of_firstFault hgiven

end Checks

end Forest

end TagScope

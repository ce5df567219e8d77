import TagScope.Proofs.Session.Progress
/-!
# The effects of a request

`Change.apply` answers with a new forest or with a failure, so it cannot say what a failed request
leaves behind. Here every request is carried out effect by effect, on a forest that keeps them.

* `Attempt`: a computation on a forest. **A failure takes back nothing of what was written before
  it.**
* `Forest.assemble`, `Forest.wrap`, `Change.perform`: the requests. The children of a new scope are
  looked at one after the other, and linked one after the other once the scope is there.
* `perform_eq_settled`: **a request writes everything or nothing**: effect by effect it comes to the
  forest and the answer of `Change.apply`, and where that one fails the forest was never written to.
-/

namespace TagScope

open Forest

/-! ## 1. Attempts -/

/-- A computation on a forest that may fail. What was written before the failure stays. -/
abbrev Attempt (α : Type) := ExceptT Failure (StateM Forest) α

namespace Attempt

variable {α β : Type} {f g : Forest}

/-- The outcome on a forest, and what the forest is afterwards. -/
def on (t : Attempt α) (f : Forest) : Except Failure α × Forest := t.run.run f

/-- Looks at the forest, and fails when there is no answer. -/
def look (r : Forest → Except Failure α) : Attempt α := ExceptT.mk fun f => (r f, f)

/-- Writes to the forest. -/
def write (w : Forest → Forest) : Attempt Unit := ExceptT.mk fun f => (.ok (), w f)

/-- The outcome, and what the forest is afterwards, when everything or nothing is written. -/
def settled (f : Forest) : Except Failure (Forest × α) → Except Failure α × Forest
  | .ok (g, a) => (.ok a, g)
  | .error e => (.error e, f)

theorem on_bind_of_ok {t : Attempt α} {a : α} (h : t.on f = (.ok a, g)) (k : α → Attempt β) :
    (t >>= k).on f = (k a).on g := by
  unfold on at h ⊢
  rw [ExceptT.run_bind, StateT.run_bind, h]
  rfl

theorem on_bind_of_error {t : Attempt α} {e : Failure} (h : t.on f = (.error e, g))
    (k : α → Attempt β) : (t >>= k).on f = (.error e, g) := by
  unfold on at h ⊢
  rw [ExceptT.run_bind, StateT.run_bind, h]
  rfl

theorem on_write_bind (w : Forest → Forest) (k : Unit → Attempt β) :
    (write w >>= k).on f = (k ()).on (w f) := on_bind_of_ok rfl k

/-- **Where each of two computations only looks at the forest, both together do**, also when one of
    them fails. -/
theorem on_bind_of_look {t : Attempt α} {x : Except Failure α} {k : α → Attempt β}
    {m : α → Except Failure β} (h : t.on f = (x, f)) (hk : ∀ a, (k a).on f = (m a, f)) :
    (t >>= k).on f = (x >>= m, f) := by
  cases x with
  | error e => exact on_bind_of_error h k
  | ok a => exact (on_bind_of_ok h k).trans (hk a)

/-- After a look the rest can still write everything or nothing. -/
theorem on_bind_settled_of_look {t : Attempt α} {x : Except Failure α} {k : α → Attempt β}
    {m : α → Except Failure (Forest × β)} (h : t.on f = (x, f))
    (hk : ∀ a, x = .ok a → (k a).on f = settled f (m a)) : (t >>= k).on f = settled f (x >>= m) := by
  cases x with
  | error e => exact on_bind_of_error h k
  | ok a => exact (on_bind_of_ok h k).trans (hk a rfl)

/-- Once everything is written, the rest must not fail. -/
theorem on_bind_settled_of_write {t : Attempt α} {x : Except Failure Forest} {a : Forest → α}
    {k : α → Attempt β} {m : Forest → Except Failure (Forest × β)}
    (h : t.on f = settled f (x.map fun g => (g, a g)))
    (hk : ∀ g, x = .ok g → ∃ g' b, (k (a g)).on g = (.ok b, g') ∧ m g = .ok (g', b)) :
    (t >>= k).on f = settled f (x >>= m) := by
  cases x with
  | error e => exact on_bind_of_error h k
  | ok g =>
      obtain ⟨g', b, hon, hm⟩ := hk g rfl
      show (t >>= k).on f = settled f (m g)
      rw [on_bind_of_ok h, hon, hm]
      rfl

/-- Looking at the forest for each member of a list leaves it as it is. -/
theorem on_mapM_look (r : Forest → β → Except Failure α) : ∀ l : List β,
    (l.mapM fun b => look fun g => r g b).on f = (l.mapM (r f), f)
  | [] => rfl
  | b :: l => by
      rw [List.mapM_cons, List.mapM_cons]
      exact on_bind_of_look rfl fun a => on_bind_of_look (on_mapM_look r l) fun as => rfl

end Attempt

/-! ## 2. Requests, effect by effect -/

open Attempt

namespace Forest

/-- Looks at the arguments of a new scope: the kind first, then the children one after the other,
    then the bindings. -/
def survey (label : String) (kind : Value) (children : Children) (bindings : Datum) :
    Attempt Scope := do
  let k ← look fun _ => kind.toKind
  let vs ← look fun _ => children.values
  let cs ← vs.mapM fun v => look fun f => f.toChild v
  let bs ← look fun _ => bindings.toBindings
  return { label, kind := k, bindings := .ofList bs, children := cs }

/-- Builds one more scope. When its arguments are all right the scope is there, and then its
    children are linked to it in turn. -/
def assemble (label : String) (kind : Value) (children : Children) (bindings : Datum) :
    Attempt Nat := do
  let s ← survey label kind children bindings
  let p ← look fun f => .ok f.scopes.size
  write fun f => { f with scopes := f.scopes.push s }
  forM s.children fun c => write fun f => { f with scopes := give p f.scopes c }
  return p

/-- Builds the last `n` scopes of a nest around scope `c`, and says which one is the outermost. -/
def wrap (t : Nest) : Nat → Nat → Attempt Nat
  | 0, c => return c
  | n + 1, c => do
    let m := t.count - n
    let p ← assemble (t.label m) (.kind t.kind) (.given [.scope c]) (t.bindings m)
    wrap t n p

end Forest

/-- Carries out a request. -/
def Change.perform : Change → Attempt Answer
  | .scope id kind children bindings => do
    let k ← look fun f => kind.eval f
    let cs ← look fun f => children.eval f
    let p ← assemble id k cs bindings
    keep id p
  | .nest t child => do
    let c ← look (holding child)
    let p ← wrap t t.count c
    keep t.id p
  | .drop id => do
    let i ← look (holding id)
    write fun f => f.release id
    look fun f => .ok (.dropped (f.alive i))
where
  /-- The scope that a handle holds. -/
  holding (id : String) (f : Forest) : Except Failure Nat :=
    match f.held? id with
    | some i => .ok i
    | none => .error (.noSuchScope id)
  /-- Takes a handle on a scope, and says what can be seen of it. -/
  keep (id : String) (p : Nat) : Attempt Answer := do
    write fun f => f.hold id p
    let s ← look fun f => f.stateOf id
    return .state s

/-! ## 3. One scope -/

section Assembly

variable {f g : Forest} {s : Scope} {p i c : Nat} {id : String}

/-- A scope that is there already can be linked before or after another one is added. -/
theorem give_push {scopes : Array Scope} (h : c < scopes.size) :
    give p (scopes.push s) c = (give p scopes c).push s := by
  unfold give
  refine Array.ext (by simp) fun i hi hi' => ?_
  rw [Array.getElem_modify, Array.getElem_push, Array.getElem_push]
  simp only [Array.size_modify, Array.getElem_modify]
  by_cases hlt : i < scopes.size
  · simp only [dif_pos hlt]
  · have hne : c ≠ i := fun e => hlt (e ▸ h)
    simp only [dif_neg hlt, if_neg hne]

/-- The children of a new scope are linked to it one after the other. -/
theorem on_forM_give : ∀ {cs : List Nat} {f : Forest},
    (forM cs fun c => write fun f => { f with scopes := give p f.scopes c }).on f
      = (.ok (), { f with scopes := cs.foldl (give p) f.scopes })
  | [], _ => rfl
  | c :: cs, f => by
      rw [List.forM_cons, on_write_bind, on_forM_give]
      rfl

theorem foldl_give_push : ∀ {cs : List Nat} {scopes : Array Scope}, (∀ c ∈ cs, c < scopes.size) →
    cs.foldl (give p) (scopes.push s) = (cs.foldl (give p) scopes).push s
  | [], _, _ => rfl
  | c :: cs, scopes, h => by
      obtain ⟨hc, hcs⟩ := List.forall_mem_cons.1 h
      have hsize : (give p scopes c).size = scopes.size := Array.size_modify
      rw [List.foldl_cons, List.foldl_cons, give_push hc]
      exact foldl_give_push fun d hd => hsize ▸ hcs d hd

section Arguments

variable {label : String} {kind : Value} {children : Children} {bindings : Datum}

theorem construct_eq_error {e : Failure} (hs : f.describe label kind children bindings = .error e) :
    f.construct label kind children bindings = .error e := by
  unfold construct
  rw [hs]
  rfl

theorem survey_on :
    (survey label kind children bindings).on f = (f.describe label kind children bindings, f) :=
  on_bind_of_look rfl fun _ => on_bind_of_look rfl fun vs =>
    on_bind_of_look (on_mapM_look toChild vs) fun _ => on_bind_of_look rfl fun _ => rfl

/-- **Whichever argument is at fault, the forest is as it was.** -/
theorem assemble_of_error {e : Failure}
    (hs : f.describe label kind children bindings = .error e) :
    (assemble label kind children bindings).on f = (.error e, f) :=
  on_bind_of_error (survey_on.trans (congrArg (Prod.mk · f) hs)) _

/-- **A scope that is built has all its links.** -/
theorem assemble_of_ok (hs : f.describe label kind children bindings = .ok s)
    (hcs : ∀ c ∈ s.children, f.Built c) :
    (assemble label kind children bindings).on f = (.ok f.scopes.size, f.push s) := by
  have hlook : (survey label kind children bindings).on f = (.ok s, f) :=
    survey_on.trans (congrArg (Prod.mk · f) hs)
  have hsize : (look fun f => .ok f.scopes.size).on f = (.ok f.scopes.size, f) := rfl
  unfold assemble
  rw [on_bind_of_ok hlook, on_bind_of_ok hsize, on_write_bind, on_bind_of_ok on_forM_give,
    foldl_give_push hcs]
  rfl

/-- **A scope is built with all its links, or not at all.** -/
theorem assemble_on (hbuilt : ∀ s, f.describe label kind children bindings = .ok s →
    ∀ c ∈ s.children, f.Built c) :
    (assemble label kind children bindings).on f
      = settled f ((f.construct label kind children bindings).map fun g => (g, f.scopes.size)) := by
  cases hs : f.describe label kind children bindings with
  | error e =>
      rw [construct_eq_error hs]
      exact assemble_of_error hs
  | ok s =>
      rw [construct_eq_ok_iff.2 ⟨s, hs, rfl⟩]
      exact assemble_of_ok hs (hbuilt s hs)

end Arguments

end Assembly

/-! ## 4. A nest of scopes -/

section Nests

variable {f g : Forest} {t : Nest} {s : Scope} {c m n : Nat}

/-- What the scopes of a nest declare can always be declared. -/
theorem exists_toBindings_nest (t : Nest) (m : Nat) : ∃ bs, (t.bindings m).toBindings = .ok bs := by
  unfold Nest.bindings
  cases t.binding with
  | none => exact ⟨_, rfl⟩
  | some b => exact ⟨_, rfl⟩

/-- The scopes of a nest are refused only where the scope inside was given away before. -/
theorem exists_describe_nest (hc : f.attached c = false) :
    ∃ s, f.describe (t.label m) (.kind t.kind) (.given [.scope c]) (t.bindings m) = .ok s := by
  obtain ⟨bs, hbs⟩ := exists_toBindings_nest t m
  refine ⟨⟨t.label m, t.kind, .ofList bs, [c], none⟩, describe_eq_ok_iff.2 ?_⟩
  exact ⟨rfl, rfl, fun d hd => List.mem_singleton.1 hd ▸ hc, ⟨bs, hbs, rfl⟩, rfl, rfl⟩

/-- A scope that was just built was not given away. -/
theorem attached_push_size (hs : s.holder = none) (hcs : ∀ d ∈ s.children, f.Built d) :
    (f.push s).attached f.scopes.size = false := by
  have hout : f.scopes.size ∉ s.children := fun h => Nat.lt_irrefl _ (hcs _ h)
  unfold attached
  rw [holder?_push hs hcs, if_neg hout]
  unfold holder?
  rw [scope?_eq_none (Nat.lt_irrefl _)]
  rfl

/-- Once one scope of a nest is built, the rest is built around it, in both ways of building. -/
theorem nest_succ_of_ok (hs : f.describe (t.label (t.count - n)) (.kind t.kind)
    (.given [.scope c]) (t.bindings (t.count - n)) = .ok s) (hc : f.Built c) :
    nest t (n + 1) f c = nest t n (f.push s) f.scopes.size ∧
      (wrap t (n + 1) c).on f = (wrap t n f.scopes.size).on (f.push s) := by
  refine ⟨?_, on_bind_of_ok (assemble_of_ok hs (built_of_describe_one hs hc)) _⟩
  rw [nest]
  simp only [construct_eq_ok_iff.2 ⟨s, hs, rfl⟩]
  rfl

/-- **Around the newest scope, as long as it was not given away, a nest is built to its end.** -/
theorem wrap_of_newest : ∀ {n : Nat} {f : Forest} {c : Nat}, c + 1 = f.scopes.size →
    f.attached c = false →
      ∃ g, nest t n f c = .ok g ∧ (wrap t n c).on f = (.ok (g.scopes.size - 1), g)
  | 0, f, c, hlast, _ => by
      have hc : c = f.scopes.size - 1 := by omega
      exact ⟨f, rfl, congrArg (fun i => (Except.ok i, f)) hc⟩
  | n + 1, f, c, hlast, hfree => by
      have hc : f.Built c := by
        unfold Built
        omega
      obtain ⟨s, hs⟩ := exists_describe_nest (t := t) (m := t.count - n) hfree
      have hcs := built_of_describe_one hs hc
      have hnew : s.holder = none := (describe_eq_ok_iff.1 hs).2.2.2.2.2
      obtain ⟨hnest, hwrap⟩ := nest_succ_of_ok hs hc
      rw [hnest, hwrap]
      exact wrap_of_newest size_push.symm (attached_push_size hnew hcs)

/-- **A nest fails before its first scope or not at all.** -/
theorem wrap_on (hc : f.Built c) :
    (wrap t (n + 1) c).on f
      = settled f ((nest t (n + 1) f c).map fun g => (g, g.scopes.size - 1)) := by
  cases hs : f.describe (t.label (t.count - n)) (.kind t.kind) (.given [.scope c])
      (t.bindings (t.count - n)) with
  | error e =>
      have hfail : nest t (n + 1) f c = .error e := by
        rw [nest]
        simp only [construct_eq_error hs]
        rfl
      rw [hfail]
      exact on_bind_of_error (assemble_of_error hs) _
  | ok s =>
      have hnew : s.holder = none := (describe_eq_ok_iff.1 hs).2.2.2.2.2
      obtain ⟨hnest, hwrap⟩ := nest_succ_of_ok hs hc
      obtain ⟨g, hg, hon⟩ := wrap_of_newest (t := t) (n := n) size_push.symm
        (attached_push_size hnew (built_of_describe_one hs hc))
      rw [hnest, hwrap, hg, hon]
      rfl

end Nests

/-! ## 5. All or nothing -/

section Perform

variable {f g : Forest} {id : String} {p : Nat}

/-- **A scope on which a handle was just taken can be seen.** -/
theorem exists_stateOf_hold (hp : g.Built p) : ∃ s, (g.hold id p).stateOf id = .ok s := by
  obtain ⟨s, hs⟩ := built_iff.1 hp
  have hheld : (g.hold id p).held? id = some p := held?_hold_self
  have hscope : (g.hold id p).scope? p = some s := hs
  refine ⟨(g.hold id p).state p s, ?_⟩
  unfold stateOf
  simp only [hheld, hscope]

/-- Once a scope is built, nothing that follows can fail. -/
theorem exists_keep (hp : g.Built p) : ∃ g' a, (Change.perform.keep id p).on g = (.ok a, g') ∧
    Change.apply.built id (g.hold id p) = .ok (g', a) := by
  obtain ⟨s, hs⟩ : ∃ s, (g.hold id p).stateOf id = .ok s := exists_stateOf_hold hp
  have hlook : (look fun f => f.stateOf id).on (g.hold id p) = (.ok s, g.hold id p) :=
    congrArg (Prod.mk · _) hs
  refine ⟨g.hold id p, .state s, ?_, ?_⟩
  · unfold Change.perform.keep
    rw [on_write_bind, on_bind_of_ok hlook]
    rfl
  · unfold Change.apply.built
    rw [hs]
    rfl

theorem holding_of_held (h : f.held? id = some p) : Change.perform.holding id f = .ok p := by
  unfold Change.perform.holding
  rw [h]

theorem holding_of_not_held (h : f.held? id = none) :
    Change.perform.holding id f = .error (.noSuchScope id) := by
  unfold Change.perform.holding
  rw [h]

theorem perform_scope (hf : f.Sound) (kind : Term) (children : ChildTerms) (bindings : Datum) :
    (Change.scope id kind children bindings).perform.on f
      = settled f ((Change.scope id kind children bindings).apply f) := by
  refine on_bind_settled_of_look rfl fun k _ => on_bind_settled_of_look rfl fun cs hcs => ?_
  refine on_bind_settled_of_write (assemble_on fun s hs c hc => ?_) fun g hg => ?_
  · -- what is given as a child is held, so it was built
    obtain ⟨_, hvs, _⟩ := describe_eq_ok_iff.1 hs
    obtain ⟨_, hid⟩ := held_of_childTerms hcs hvs (List.mem_map_of_mem hc)
    exact built_of_held? hf hid
  · obtain ⟨s, _, rfl⟩ := construct_eq_ok_iff.1 hg
    exact exists_keep (built_push.2 (Or.inr rfl))

theorem perform_nest (hf : f.Sound) (t : Nest) (child : String) :
    (Change.nest t child).perform.on f = settled f ((Change.nest t child).apply f) := by
  cases hc : f.held? child with
  | none =>
      have hfail : (Change.nest t child).apply f = .error (.noSuchScope child) := by
        simp only [Change.apply, hc]
      rw [hfail]
      exact on_bind_of_error (congrArg (Prod.mk · f) (holding_of_not_held hc)) _
  | some c =>
      have hgo : (Change.nest t child).apply f
          = nest t t.count f c >>= fun g =>
            Change.apply.built t.id (g.hold t.id (g.scopes.size - 1)) := by
        simp only [Change.apply, hc]
      obtain ⟨n, hn⟩ : ∃ n, t.count = n + 1 := ⟨t.count - 1, by have := t.count_pos; omega⟩
      rw [hgo, hn]
      refine (on_bind_of_ok (congrArg (Prod.mk · f) (holding_of_held hc)) _).trans ?_
      rw [hn]
      refine on_bind_settled_of_write (wrap_on (built_of_held? hf hc)) fun g hg => exists_keep ?_
      obtain ⟨_, _, hsize⟩ := moves_nest (built_of_held? hf hc) hg
      unfold Built
      omega

theorem perform_drop (id : String) :
    (Change.drop id).perform.on f = settled f ((Change.drop id).apply f) := by
  cases hi : f.held? id with
  | none =>
      rw [apply_drop_of_not_held hi]
      exact on_bind_of_error (congrArg (Prod.mk · f) (holding_of_not_held hi)) _
  | some i =>
      rw [apply_drop hi]
      exact on_bind_of_ok (congrArg (Prod.mk · f) (holding_of_held hi)) _

/-- **A request writes everything or nothing.** Effect by effect it has the answer and leaves the
    forest of `Change.apply`, and where that one fails nothing was written. -/
theorem perform_eq_settled (hf : f.Sound) : ∀ r : Change, r.perform.on f = settled f (r.apply f)
  | .scope _ kind children bindings => perform_scope hf kind children bindings
  | .nest t child => perform_nest hf t child
  | .drop id => perform_drop id

/-- **What fails leaves the forest as it was**, whichever effects were carried out before. -/
theorem perform_of_error (hf : f.Sound) {c : Change} {e : Failure}
    (h : (c.perform.on f).1 = .error e) : c.perform.on f = (.error e, f) := by
  rw [perform_eq_settled hf] at h ⊢
  cases hc : c.apply f with
  | error e' =>
      rw [hc] at h
      exact congrArg (Prod.mk · f) h
  | ok r =>
      rw [hc] at h
      cases h

/-- **The steps of a session carry requests out effect by effect.** -/
theorem run_change (hf : f.Sound) (c : Change) :
    (Step.change c).run f = ((c.perform.on f).2, { outcome := (c.perform.on f).1 }) := by
  rw [perform_eq_settled hf]
  cases hc : c.apply f with
  | error e =>
      simp only [Step.run, hc]
      rfl
  | ok r =>
      simp only [Step.run, hc]
      rfl

end Perform

end TagScope

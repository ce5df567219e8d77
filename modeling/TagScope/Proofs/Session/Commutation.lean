import Mathlib.Logic.Equiv.Basic
import TagScope.Proofs.Forest.Growth
import TagScope.Proofs.Session.Renaming
import TagScope.Proofs.Session.Traces
/-!
# The order of independent constructions

Two requests for scopes that have nothing to do with each other can change places. The forests that
they leave are not the same, since each of the two scopes gets the number of the other one; but
numbers never show.

* `ScopeRequest.Independent`: different ids, no common child handle, and none of the two requests
  mentions the id of the other.
* `scope_granted`: **a request describes the same scope, or has the same fault, after an independent
  one.**
* `renamed_of_both`: the two orders leave forests that differ in two numbers only.
* `run_swap`: **the replies to two such requests change places with them, and all other replies
  stay.**
-/

namespace TagScope

open Failure Forest

/-! ## 1. Requests for scopes -/

/-- A request for a scope. -/
structure ScopeRequest where
  id : String
  kind : Term
  children : ChildTerms
  bindings : Datum

namespace ScopeRequest

/-- The request as a step. -/
def step (r : ScopeRequest) : Step := .change (.scope r.id r.kind r.children r.bindings)

/-- The ids that a request mentions, besides the one that it is for. -/
def ids (r : ScopeRequest) : List String := r.kind.ids ++ r.children.ids

/-- **Two requests that have nothing to do with each other.** -/
structure Independent (a b : ScopeRequest) : Prop where
  ids : a.id ≠ b.id
  /-- Neither request mentions the id of the other. -/
  left : a.id ∉ b.ids
  right : b.id ∉ a.ids
  /-- The two requests share no child handle. -/
  children : ∀ id ∈ a.children.handles, id ∉ b.children.handles

theorem Independent.symm {a b : ScopeRequest} (h : a.Independent b) : b.Independent a where
  ids := h.ids.symm
  left := h.right
  right := h.left
  children id hb ha := h.children id ha hb

/-- The scope that a request describes. -/
def scope (r : ScopeRequest) (f : Forest) : Except Failure Scope := do
  f.describe r.id (← r.kind.eval f) (← r.children.eval f) r.bindings

/-- The forest in which a request is granted. -/
def granted (r : ScopeRequest) (f : Forest) (s : Scope) : Forest :=
  (f.push s).hold r.id f.scopes.size

section Grants

variable {r a b : ScopeRequest} {f : Forest} {s t : Scope} {c i : Nat}

theorem scope_eq_ok (h : r.scope f = .ok s) : ∃ k cs, r.kind.eval f = .ok k ∧
    r.children.eval f = .ok cs ∧ f.describe r.id k cs r.bindings = .ok s := by
  obtain ⟨k, hk, h⟩ := bind_eq_ok.1 h
  obtain ⟨cs, hcs, h⟩ := bind_eq_ok.1 h
  exact ⟨k, cs, hk, hcs, h⟩

/-- The children of the scope are held under the handles that are given for them. -/
theorem handle_of_child (h : r.scope f = .ok s) (hc : c ∈ s.children) :
    ∃ id ∈ r.children.handles, f.held? id = some c := by
  obtain ⟨k, cs, _, hcs, hs⟩ := scope_eq_ok h
  have hvs := (describe_eq_ok_iff.1 hs).2.1
  exact handle_of_childTerms hcs hvs (List.mem_map_of_mem hc)

theorem built_of_child (hf : f.Sound) (h : r.scope f = .ok s) (hc : c ∈ s.children) : f.Built c := by
  obtain ⟨id, _, hid⟩ := handle_of_child h hc
  exact built_of_held? hf hid

theorem holder_of_scope (h : r.scope f = .ok s) : s.holder = none := by
  obtain ⟨k, cs, _, _, hs⟩ := scope_eq_ok h
  exact (describe_eq_ok_iff.1 hs).2.2.2.2.2

/-! ## 2. Replies -/

/-- What is answered about a scope that was just built. -/
def newborn (f : Forest) (s : Scope) : ScopeState :=
  ⟨s.kind, s.bindings, s.children.map f.label, 0, none⟩

/-- A request is granted or refused as soon as it is known which scope it describes. -/
theorem apply_eq : (Change.scope r.id r.kind r.children r.bindings).apply f
    = r.scope f >>= fun s => Change.apply.built r.id (r.granted f s) := by
  simp only [Change.apply, scope, construct, bind_assoc, pure_bind]
  rfl

theorem run_of_error {e : Failure} (h : r.scope f = .error e) :
    r.step.run f = (f, { outcome := .error e }) := by
  unfold step
  simp only [Step.run, apply_eq, h]
  rfl

theorem apply_of_ok {state : ScopeState} (h : r.scope f = .ok s)
    (hstate : (r.granted f s).stateOf r.id = .ok state) :
    (Change.scope r.id r.kind r.children r.bindings).apply f
      = .ok (r.granted f s, .state state) := by
  rw [apply_eq, h]
  show Change.apply.built r.id (r.granted f s) = _
  unfold Change.apply.built
  rw [hstate]
  rfl

theorem moves_granted (hf : f.Sound) (h : r.scope f = .ok s) : f.Moves (r.granted f s) := by
  obtain ⟨state, hstate⟩ : ∃ state, (r.granted f s).stateOf r.id = .ok state :=
    exists_stateOf_hold (built_push.2 (Or.inr rfl))
  exact moves_apply hf (apply_of_ok h hstate)

theorem sound_granted (hf : f.Sound) (h : r.scope f = .ok s) : (r.granted f s).Sound :=
  (moves_granted hf h).sound hf

theorem stateOf_granted (hf : f.Sound) (h : r.scope f = .ok s) :
    (r.granted f s).stateOf r.id = .ok (newborn f s) := by
  have hscope : (r.granted f s).scope? f.scopes.size = some s := scope?_push_size
  have hheld : (r.granted f s).held? r.id = some f.scopes.size := held?_hold_self
  have hholder : (r.granted f s).holder? f.scopes.size = none := by
    unfold holder?
    rw [hscope]
    exact holder_of_scope h
  have hdepth : (r.granted f s).depth f.scopes.size = 0 := by
    unfold depth ancestors
    rw [owners, hholder]
    rfl
  have hparent : (r.granted f s).parent? f.scopes.size = none := by
    unfold parent?
    rw [hholder]
    rfl
  have hlabels : s.children.map (r.granted f s).label = s.children.map f.label :=
    List.map_congr_left fun c hc => (moves_granted hf h).label_eq (built_of_child hf h hc)
  unfold stateOf
  simp only [hheld, hscope, Forest.state, hlabels, hdepth, hparent]
  rfl

/-- **A request that is granted is answered with the scope as it was described.** -/
theorem run_of_ok (hf : f.Sound) (h : r.scope f = .ok s) :
    r.step.run f = (r.granted f s, { outcome := .ok (.state (newborn f s)) }) := by
  unfold step
  simp only [Step.run, apply_of_ok h (stateOf_granted hf h)]

/-! ## 3. One request after the other -/

theorem held?_granted (hf : f.Sound) (ha : a.scope f = .ok s) {id : String} (hid : id ≠ a.id) :
    (a.granted f s).held? id = f.held? id := by
  have hg := sound_granted hf ha
  refine Option.ext fun i => ?_
  rw [held?_eq_some_iff hg, held?_eq_some_iff hf, granted, mem_hold]
  constructor
  · rintro (h | h)
    · exact absurd (congrArg Prod.fst h) hid
    · exact h.1
  · intro h
    exact Or.inr ⟨h, hid⟩

/-- **Under other ids nothing changes when a request is granted.** -/
theorem keeps_granted (hf : f.Sound) (ha : a.scope f = .ok s) {ids : List String}
    (hids : a.id ∉ ids) : f.Keeps (a.granted f s) ids := by
  intro id hid
  refine ⟨?_, fun i hi => (moves_granted hf ha).shown_eq hf (built_of_held? hf hi)⟩
  rw [held?_granted hf ha fun e => hids (e ▸ hid), Option.map_id]
  rfl

/-- A scope that is held under a handle of the second request is no child of the first scope. -/
theorem not_child_of_handle (hf : f.Sound) (hab : a.Independent b) (ha : a.scope f = .ok s)
    {id : String} (hid : id ∈ b.children.handles) (hi : f.held? id = some i) : i ∉ s.children := by
  intro hc
  obtain ⟨id', hid', hi'⟩ := handle_of_child ha hc
  have same : id' = id := hf.handleSingle id' id i ((held?_eq_some_iff hf).1 hi')
    ((held?_eq_some_iff hf).1 hi)
  exact hab.children id' hid' (same ▸ hid)

/-- Whether a scope under a handle of the second request was given away is as it was before the
    first one. -/
theorem attached_granted (hf : f.Sound) (hab : a.Independent b) (ha : a.scope f = .ok s)
    {id : String} (hid : id ∈ b.children.handles) (hi : f.held? id = some i) :
    (a.granted f s).attached i = f.attached i := by
  have hout := not_child_of_handle hf hab ha hid hi
  have hholder : (a.granted f s).holder? i = f.holder? i := by
    refine (holder?_push (holder_of_scope ha) fun c hc => built_of_child hf ha hc).trans ?_
    rw [if_neg hout]
  unfold Forest.attached
  rw [hholder]

/-- What the second request gives as a child is accepted or refused as it was before the first
    one. -/
theorem toChild_granted (hf : f.Sound) (hab : a.Independent b) (ha : a.scope f = .ok s)
    {cs : Children} {vs : List Value} (hcs : b.children.eval f = .ok cs) (hvs : cs.values = .ok vs) :
    ∀ v ∈ vs, (a.granted f s).toChild v = f.toChild v := by
  intro v hv
  cases v with
  | scope i =>
      obtain ⟨id, hid, hi⟩ := handle_of_childTerms hcs hvs hv
      have hshown := (moves_granted hf ha).shown_eq hf (built_of_held? hf hi)
      simp only [toChild, attached_granted hf hab ha hid hi, hshown]
  | _ => rfl

/-- **A request describes the same scope after an independent one was granted**, or has the same
    fault. -/
theorem scope_granted (hf : f.Sound) (hab : a.Independent b) (ha : a.scope f = .ok s) :
    b.scope (a.granted f s) = b.scope f := by
  have hkind : b.kind.eval (a.granted f s) = b.kind.eval f :=
    eval_of_keeps (keeps_granted hf ha fun h => hab.left (List.mem_append_left _ h))
  have hchildren : b.children.eval (a.granted f s) = b.children.eval f :=
    ChildTerms.eval_of_keeps (keeps_granted hf ha fun h => hab.left (List.mem_append_right _ h))
  unfold scope
  rw [hkind, hchildren]
  refine bind_congr fun k => ?_
  cases hcs : b.children.eval f with
  | error e => rfl
  | ok cs => exact describe_congr fun vs hvs => toChild_granted hf hab ha hcs hvs

/-- **Each of two independent requests has the reply that it has alone.** -/
theorem reply_after (hf : f.Sound) (hab : a.Independent b) :
    (b.step.run (a.step.run f).1).2 = (b.step.run f).2 := by
  cases ha : a.scope f with
  | error e => rw [run_of_error ha]
  | ok s =>
      have hg := sound_granted hf ha
      have hsame := scope_granted hf hab ha
      rw [run_of_ok hf ha]
      cases hb : b.scope f with
      | error e => rw [run_of_error hb, run_of_error (hsame.trans hb)]
      | ok t =>
          have hlabels : newborn (a.granted f s) t = newborn f t := by
            unfold newborn
            rw [List.map_congr_left fun c hc =>
              (moves_granted hf ha).label_eq (built_of_child hf hb hc)]
          rw [run_of_ok hf hb, run_of_ok hg (hsame.trans hb), hlabels]

/-! ## 4. Both orders -/

/-- The numbers of the next two scopes, exchanged. -/
def exchange (f : Forest) : Equiv.Perm Nat := Equiv.swap f.scopes.size (f.scopes.size + 1)

theorem exchange_of_built (hi : f.Built i) : exchange f i = i :=
  Equiv.swap_apply_of_ne_of_ne (Nat.ne_of_lt hi) (Nat.ne_of_lt (Nat.lt_succ_of_lt hi))

theorem exchange_of_later (hi : f.scopes.size + 2 ≤ i) : exchange f i = i :=
  Equiv.swap_apply_of_ne_of_ne (by omega) (by omega)

theorem exchange_first : exchange f f.scopes.size = f.scopes.size + 1 := Equiv.swap_apply_left _ _

theorem exchange_second : exchange f (f.scopes.size + 1) = f.scopes.size :=
  Equiv.swap_apply_right _ _

/-- A scope all of whose links lead to scopes that were there before does not change. -/
theorem renamed_exchange (hc : ∀ c ∈ s.children, f.Built c)
    (hp : ∀ p, s.holder = some p → f.Built p) : s.renamed (exchange f) = s :=
  Scope.renamed_eq_self (fun c h => exchange_of_built (hc c h)) fun p h =>
    exchange_of_built (hp p h)

/-- A scope that was there before the two requests does not change. -/
theorem renamed_of_built (hf : f.Sound) (hu : f.scope? i = some s) :
    s.renamed (exchange f) = s :=
  renamed_exchange
    (fun c hc => Nat.lt_trans (hf.older i c ⟨s, hu, hc⟩) (built_iff.2 ⟨s, hu⟩))
    fun p hp => ((hf.linked p i).2 (Option.bind_eq_some_iff.2 ⟨s, hu, hp⟩)).built

/-- A scope that is requested where neither of the two is there yet does not change. -/
theorem renamed_of_scope (hf : f.Sound) (h : r.scope f = .ok s) : s.renamed (exchange f) = s :=
  renamed_exchange (fun c => built_of_child hf h) fun p hp => by
    rw [holder_of_scope h] at hp
    cases hp

theorem size_granted : (r.granted f s).scopes.size = f.scopes.size + 1 := size_push

/-- What two requests do to a scope that was there before. -/
theorem scope?_both_of_built (hi : f.Built i) : (b.granted (a.granted f s) t).scope? i
    = (f.scope? i).map fun u =>
        if i ∈ t.children then { u with holder := some (f.scopes.size + 1) }
        else if i ∈ s.children then { u with holder := some f.scopes.size } else u := by
  have hi' : (a.granted f s).Built i := built_push.2 (Or.inl hi)
  have hfirst : (a.granted f s).scope? i = (f.scope? i).map fun u =>
      if i ∈ s.children then { u with holder := some f.scopes.size } else u :=
    scope?_push_of_built hi
  refine (scope?_push_of_built hi').trans ?_
  rw [hfirst, Option.map_map, size_granted]
  refine congrArg (Option.map · _) (funext fun u => ?_)
  by_cases ht : i ∈ t.children <;> by_cases hs : i ∈ s.children <;> simp [ht, hs]

theorem scope?_both_first (ht : ∀ c ∈ t.children, f.Built c) :
    (b.granted (a.granted f s) t).scope? f.scopes.size = some s := by
  have hnew : (a.granted f s).Built f.scopes.size := built_push.2 (Or.inr rfl)
  have hout : f.scopes.size ∉ t.children := fun h => Nat.lt_irrefl _ (ht _ h)
  have hfirst : (a.granted f s).scope? f.scopes.size = some s := scope?_push_size
  refine (scope?_push_of_built hnew).trans ?_
  rw [hfirst, Option.map_some, if_neg hout]

theorem scope?_both_second :
    (b.granted (a.granted f s) t).scope? (f.scopes.size + 1) = some t := by
  rw [← size_granted (r := a) (f := f) (s := s)]
  exact scope?_push_size

theorem scope?_both_of_later (hi : f.scopes.size + 2 ≤ i) :
    (b.granted (a.granted f s) t).scope? i = none := by
  refine scope?_eq_none fun hb => ?_
  rw [Built, size_granted, size_granted] at hb
  omega

/-- What becomes of a scope that was there before is the same in both orders. -/
theorem scope?_exchange_of_built (hf : f.Sound) (hab : a.Independent b) (ha : a.scope f = .ok s)
    (hb : b.scope f = .ok t) (hi : f.Built i) :
    (a.granted (b.granted f t) s).scope? i
      = ((b.granted (a.granted f s) t).scope? i).map (Scope.renamed (exchange f)) := by
  have hdisjoint : i ∈ t.children → i ∉ s.children := fun hc => by
    obtain ⟨id, hid, hheld⟩ := handle_of_child hb hc
    exact not_child_of_handle hf hab ha hid hheld
  obtain ⟨u, hu⟩ := built_iff.1 hi
  have hself := renamed_of_built hf hu
  have hholder : ∀ p, Scope.renamed (exchange f) { u with holder := some p }
      = { u with holder := some (exchange f p) } := fun p => by
    rw [Scope.renamed_attached, hself]
  rw [scope?_both_of_built hi, scope?_both_of_built hi, hu, Option.map_some, Option.map_some,
    Option.map_some]
  by_cases ht : i ∈ t.children
  · rw [if_pos ht, if_pos ht, if_neg (hdisjoint ht), hholder, exchange_second]
  · by_cases hs : i ∈ s.children
    · rw [if_pos hs, if_neg ht, if_pos hs, hholder, exchange_first]
    · rw [if_neg hs, if_neg ht, if_neg ht, if_neg hs, hself]

/-- **Every scope is there in both orders**, under another number if it is new. -/
theorem scope?_exchange (hf : f.Sound) (hab : a.Independent b) (ha : a.scope f = .ok s)
    (hb : b.scope f = .ok t) (i : Nat) :
    (a.granted (b.granted f t) s).scope? (exchange f i)
      = ((b.granted (a.granted f s) t).scope? i).map (Scope.renamed (exchange f)) := by
  have hs : ∀ c ∈ s.children, f.Built c := fun c => built_of_child hf ha
  have ht : ∀ c ∈ t.children, f.Built c := fun c => built_of_child hf hb
  rcases Nat.lt_or_ge i f.scopes.size with hi | hi
  · rw [exchange_of_built hi]
    exact scope?_exchange_of_built hf hab ha hb hi
  · obtain rfl | rfl | hi : i = f.scopes.size ∨ i = f.scopes.size + 1 ∨ f.scopes.size + 2 ≤ i := by
      omega
    · rw [exchange_first, scope?_both_second, scope?_both_first ht, Option.map_some,
        renamed_of_scope hf ha]
    · rw [exchange_second, scope?_both_second, scope?_both_first hs, Option.map_some,
        renamed_of_scope hf hb]
    · rw [exchange_of_later hi, scope?_both_of_later hi, scope?_both_of_later hi]
      rfl

theorem mem_granted {id : String} : (id, i) ∈ (r.granted f s).handles
    ↔ id = r.id ∧ i = f.scopes.size ∨ (id, i) ∈ f.handles ∧ id ≠ r.id := by
  rw [granted, mem_hold, Prod.mk.injEq]
  rfl

/-- **Every handle holds the same scope in both orders.** -/
theorem handles_exchange (hf : f.Sound) (hab : a.Independent b) (id : String) (i : Nat) :
    (id, exchange f i) ∈ (a.granted (b.granted f t) s).handles
      ↔ (id, i) ∈ (b.granted (a.granted f s) t).handles := by
  have first : exchange f i = f.scopes.size + 1 ↔ i = f.scopes.size :=
    Equiv.swap_apply_eq_iff.trans (by rw [Equiv.swap_apply_right])
  have second : exchange f i = f.scopes.size ↔ i = f.scopes.size + 1 :=
    Equiv.swap_apply_eq_iff.trans (by rw [Equiv.swap_apply_left])
  have older : (id, exchange f i) ∈ f.handles ↔ (id, i) ∈ f.handles := by
    constructor
    · intro h
      have hself := (exchange f).injective (exchange_of_built (hf.handleBuilt id _ h))
      rw [hself] at h
      exact h
    · intro h
      rw [exchange_of_built (hf.handleBuilt id i h)]
      exact h
  have hne := hab.ids
  simp only [mem_granted, size_granted, first, second, older]
  by_cases hida : id = a.id
  · subst hida
    simp [hne]
  · simp [hida]

/-- **The two orders leave forests that differ in the numbers of the new scopes only.** -/
theorem renamed_of_both (hf : f.Sound) (hab : a.Independent b) (ha : a.scope f = .ok s)
    (hb : b.scope f = .ok t) :
    Renamed (exchange f) (b.granted (a.granted f s) t) (a.granted (b.granted f t) s) := by
  have hfa := sound_granted hf ha
  have hfb := sound_granted hf hb
  have hab' := (scope_granted hf hab ha).trans hb
  have hba' := (scope_granted hf hab.symm hb).trans ha
  refine .of_sound (sound_granted hfa hab') (sound_granted hfb hba') ?_ ?_
    (scope?_exchange hf hab ha hb) (handles_exchange hf hab)
  · rw [size_granted, size_granted, size_granted, size_granted]
  · intro i hi
    rw [size_granted, size_granted] at hi
    exact exchange_of_later hi

/-- **After both requests, in either order, a session goes on alike.** -/
theorem runFrom_after (hf : f.Sound) (hab : a.Independent b) (after : List Step) :
    (Session.runFrom (a.step.run (b.step.run f).1).1 after).2
      = (Session.runFrom (b.step.run (a.step.run f).1).1 after).2 := by
  cases ha : a.scope f with
  | error e =>
      cases hb : b.scope f with
      | error e' => rw [run_of_error ha, run_of_error hb, run_of_error ha]
      | ok t =>
          have ha' := (scope_granted hf hab.symm hb).trans ha
          rw [run_of_error ha, run_of_ok hf hb, run_of_error ha']
  | ok s =>
      have hfa := sound_granted hf ha
      cases hb : b.scope f with
      | error e =>
          have hb' := (scope_granted hf hab ha).trans hb
          rw [run_of_error hb, run_of_ok hf ha, run_of_error hb']
      | ok t =>
          have hfb := sound_granted hf hb
          have hb' := (scope_granted hf hab ha).trans hb
          have ha' := (scope_granted hf hab.symm hb).trans ha
          rw [run_of_ok hf ha, run_of_ok hf hb, run_of_ok hfa hb', run_of_ok hfb ha']
          exact runFrom_renamed after (renamed_of_both hf hab ha hb) (sound_granted hfa hb')
            (sound_granted hfb ha')

end Grants

end ScopeRequest

/-! ## 5. Every session -/

open ScopeRequest

theorem replies_two {f : Forest} {s t : Step} {rest : List Step} :
    (Session.runFrom f (s :: t :: rest)).2 = (s.run f).2 :: (t.run (s.run f).1).2 ::
      (Session.runFrom (t.run (s.run f).1).1 rest).2 := rfl

/-- **Independent constructions commute.** Wherever a session has two requests for scopes one after
    the other that have nothing to do with each other, each of them has the reply that it would have
    as the first one, an answer or a failure, and whatever steps come after them have the same
    replies in both orders. -/
theorem run_swap (before after : List Step) (a b : ScopeRequest) (independent : a.Independent b) :
    let f := Session.forestAfter before
    ∃ rest,
      Session.run (before ++ a.step :: b.step :: after)
        = Session.run before ++ (a.step.run f).2 :: (b.step.run f).2 :: rest ∧
      Session.run (before ++ b.step :: a.step :: after)
        = Session.run before ++ (b.step.run f).2 :: (a.step.run f).2 :: rest := by
  intro f
  have hf : f.Sound := sound_forestAfter before
  refine ⟨(Session.runFrom (b.step.run (a.step.run f).1).1 after).2, ?_, ?_⟩
  · rw [run_append, replies_two, reply_after hf independent]
  · rw [run_append, replies_two, reply_after hf independent.symm, runFrom_after hf independent]

/-- Two blocks. -/
def blocks : List Step :=
  [.change (.scope "x" (.kind .block) (.given []) (.list [.text "Foo"])),
   .change (.scope "y" (.kind .block) (.given []) (.list []))]

/-- A function around the first one. -/
def aroundFirst : ScopeRequest := ⟨"f", .kind .function, .given [.scope "x"], .list []⟩

/-- A module around the second one. -/
def aroundSecond : ScopeRequest := ⟨"m", .kind .module, .given [.scope "y"], .list [.text "Bar"]⟩

/-- Two scopes are given away, and shown when they are asked for again. -/
def regiven : List Step :=
  [.change (.scope "all" (.kind .global) (.given [.scope "f", .scope "m"]) (.list [])),
   .change (.scope "again" (.kind .block) (.given [.scope "m"]) (.list []))]

/-- The two scopes get each other's number, which cannot be seen. -/
theorem run_swap_blocks :
    aroundFirst.Independent aroundSecond ∧
      (Session.forestAfter (blocks ++ [aroundFirst.step, aroundSecond.step])).label 2 = "f" ∧
      (Session.forestAfter (blocks ++ [aroundSecond.step, aroundFirst.step])).label 2 = "m" ∧
      ∃ rest,
        Session.run (blocks ++ aroundFirst.step :: aroundSecond.step :: regiven)
          = Session.run blocks ++ (aroundFirst.step.run (Session.forestAfter blocks)).2 ::
            (aroundSecond.step.run (Session.forestAfter blocks)).2 :: rest ∧
        Session.run (blocks ++ aroundSecond.step :: aroundFirst.step :: regiven)
          = Session.run blocks ++ (aroundSecond.step.run (Session.forestAfter blocks)).2 ::
            (aroundFirst.step.run (Session.forestAfter blocks)).2 :: rest := by
  have independent : aroundFirst.Independent aroundSecond :=
    ⟨by decide, by decide, by decide, by decide⟩
  exact ⟨independent, rfl, rfl, run_swap blocks regiven aroundFirst aroundSecond independent⟩

end TagScope

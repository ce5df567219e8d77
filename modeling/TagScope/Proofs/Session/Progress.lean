import TagScope.Proofs.Forest.Construction
import TagScope.Proofs.Value.Fields
import TagScope.Session.Step
/-!
# Progress of a session

What a step does to the forest, and with it what every forest of a session is like.

* `eval_eq_scope`: terms name scopes through handles only.
* `apply_scope`, `apply_nest`, `apply_drop`: the forest and the answer after each kind of change.
* `moves_run`: **a step is a sequence of moves**; `moves_runFrom`: so is a session.
* `sound_forestAfter`: **every forest of a session is sound.**
-/

namespace TagScope

open Forest

variable {f g : Forest} {a : Answer} {i : Nat}

/-! ## 1. Handles -/

theorem held?_eq_some_iff (hf : f.Sound) {id : String} :
    f.held? id = some i ↔ (id, i) ∈ f.handles := by
  unfold held?
  constructor
  · intro h
    obtain ⟨l₁, l₂, e, _⟩ := List.lookup_eq_some_iff.1 h
    rw [e]
    exact List.mem_append_right _ List.mem_cons_self
  · intro h
    obtain ⟨l₁, l₂, e⟩ := List.append_of_mem h
    refine List.lookup_eq_some_iff.2 ⟨l₁, l₂, e, fun p hp => bne_iff_ne.2 fun same => ?_⟩
    have hd := hf.idsDistinct
    rw [e, List.map_append, List.nodup_append] at hd
    exact hd.2.2 p.1 (List.mem_map_of_mem hp) id List.mem_cons_self same.symm

theorem held?_hold_self {id : String} : (f.hold id i).held? id = some i := List.lookup_cons_self

/-- What a handle holds was built. -/
theorem built_of_held? (hf : f.Sound) {id : String} (h : f.held? id = some i) : f.Built i :=
  hf.handleBuilt id i ((held?_eq_some_iff hf).1 h)

theorem held_iff (hf : f.Sound) : f.held i = true ↔ ∃ id, f.held? id = some i := by
  rw [held_iff_mem]
  exact exists_congr fun id => (held?_eq_some_iff hf).symm

/-! ## 2. Scopes as values of terms -/

section Terms

variable {v : Value}

/-- A path without properties is its root, any other path is a name. -/
theorem foldlM_buildMember_eq_ok : ∀ {ps : List Datum} {o : Value},
    ps.foldlM (fun v p => Value.buildMember v (.datum p) .null) o = .ok v →
      ps = [] ∧ v = o ∨ ∃ m, v = .name m
  | [], _, h => Or.inl ⟨rfl, (Except.ok.inj h).symm⟩
  | p :: ps, o, h => by
      rw [List.foldlM_cons] at h
      obtain ⟨w, hw, h⟩ := Failure.bind_eq_ok.1 h
      rcases foldlM_buildMember_eq_ok h with ⟨_, rfl⟩ | hn
      · obtain ⟨_, _, _, _, _, _, rfl⟩ := Value.fields_of_buildMember hw
        exact Or.inr ⟨_, rfl⟩
      · exact Or.inr hn

/-- The id in a term that is nothing but a handle. -/
def Term.handle? : Term → Option String
  | .scope id => some id
  | .path r [] => r.handle?
  | _ => none

/-- **Terms name scopes through handles only**, and are nothing but a handle then. -/
theorem eval_eq_scope : ∀ {t : Term}, t.eval f = .ok (.scope i) →
    ∃ id, t.handle? = some id ∧ f.held? id = some i
  | .raw _, h | .sourceType _, h | .kind _, h | .verdict _, h => nomatch h
  | .location _ _, h => by
      obtain ⟨_, _, h⟩ := Failure.bind_eq_ok.1 h
      obtain ⟨_, _, h⟩ := Failure.bind_eq_ok.1 h
      obtain ⟨_, _, _, e⟩ := Value.fields_of_buildLocation h
      cases e
  | .simple _ _, h => by
      obtain ⟨_, _, h⟩ := Failure.bind_eq_ok.1 h
      obtain ⟨_, _, h⟩ := Failure.bind_eq_ok.1 h
      obtain ⟨_, _, _, _, e⟩ := Value.fields_of_buildSimple h
      cases e
  | .member _ _ _, h => by
      obtain ⟨_, _, h⟩ := Failure.bind_eq_ok.1 h
      obtain ⟨_, _, h⟩ := Failure.bind_eq_ok.1 h
      obtain ⟨_, _, h⟩ := Failure.bind_eq_ok.1 h
      obtain ⟨_, _, _, _, _, _, e⟩ := Value.fields_of_buildMember h
      cases e
  | .path r _, h => by
      obtain ⟨o, ho, h⟩ := Failure.bind_eq_ok.1 h
      rcases foldlM_buildMember_eq_ok h with ⟨rfl, rfl⟩ | ⟨_, e⟩
      · exact eval_eq_scope (t := r) ho
      · cases e
  | .namespaced _ _ _, h => by
      obtain ⟨_, _, h⟩ := Failure.bind_eq_ok.1 h
      obtain ⟨_, _, h⟩ := Failure.bind_eq_ok.1 h
      obtain ⟨_, _, h⟩ := Failure.bind_eq_ok.1 h
      obtain ⟨_, _, _, _, _, _, e⟩ := Value.fields_of_buildNamespaced h
      cases e
  | .reference _ _, h | .diagnostic _ _, h | .policy _ _, h => by
      obtain ⟨_, _, h⟩ := Failure.bind_eq_ok.1 h
      obtain ⟨_, _, h⟩ := Failure.bind_eq_ok.1 h
      cases h
  | .options _ _, h => by
      obtain ⟨_, _, h⟩ := Failure.bind_eq_ok.1 h
      obtain ⟨_, _, h⟩ := Failure.bind_eq_ok.1 h
      cases h
  | .scope id, h => by
      unfold Term.eval Term.heldScope at h
      split at h
      · next j hj =>
        obtain rfl : j = i := Value.scope.inj (Except.ok.inj h)
        exact ⟨id, rfl, hj⟩
      · cases h

/-- The handles among the children that are given for a new scope. -/
def ChildTerms.handles : ChildTerms → List String
  | .given ts => ts.filterMap Term.handle?
  | .raw _ => []

/-- The children that are given for a new scope are held under these handles. -/
theorem handle_of_childTerms {ts : ChildTerms} {cs : Children} {vs : List Value}
    (h : ts.eval f = .ok cs) (hv : cs.values = .ok vs) (hi : .scope i ∈ vs) :
    ∃ id ∈ ts.handles, f.held? id = some i := by
  cases ts with
  | given ts =>
      obtain ⟨ws, hws, h⟩ := Failure.bind_eq_ok.1 h
      obtain rfl := Except.ok.inj h
      obtain rfl : ws = vs := Except.ok.inj hv
      obtain ⟨t, hmem, ht⟩ := Failure.of_mem_mapM hws hi
      obtain ⟨id, hid, hheld⟩ := eval_eq_scope ht
      exact ⟨id, List.mem_filterMap.2 ⟨t, hmem, hid⟩, hheld⟩
  | raw d =>
      obtain rfl := Except.ok.inj h
      simp only [Children.values] at hv
      split at hv
      · obtain rfl := Except.ok.inj hv
        obtain ⟨_, _, e⟩ := List.mem_map.1 hi
        cases e
      · cases hv

/-- The scopes that are given as children are held. -/
theorem held_of_childTerms {ts : ChildTerms} {cs : Children} {vs : List Value}
    (h : ts.eval f = .ok cs) (hv : cs.values = .ok vs) (hi : .scope i ∈ vs) :
    ∃ id, f.held? id = some i := by
  obtain ⟨id, _, hid⟩ := handle_of_childTerms h hv hi
  exact ⟨id, hid⟩

end Terms

/-! ## 3. Changes -/

/-- What a successful `scope` request does: one more scope, then a handle for it. -/
theorem apply_scope {id : String} {kind : Term} {children : ChildTerms} {bindings : Datum}
    (h : (Change.scope id kind children bindings).apply f = .ok (g, a)) :
    ∃ k cs s, kind.eval f = .ok k ∧ children.eval f = .ok cs ∧
      f.describe id k cs bindings = .ok s ∧ g = (f.push s).hold id f.scopes.size := by
  obtain ⟨k, hk, h⟩ := Failure.bind_eq_ok.1 h
  obtain ⟨cs, hcs, h⟩ := Failure.bind_eq_ok.1 h
  obtain ⟨m, hm, h⟩ := Failure.bind_eq_ok.1 h
  obtain ⟨s, hs, rfl⟩ := construct_eq_ok_iff.1 hm
  obtain ⟨_, _, h⟩ := Failure.bind_eq_ok.1 h
  exact ⟨k, cs, s, hk, hcs, hs, (congrArg Prod.fst (Except.ok.inj h)).symm⟩

/-- What a successful `nest` request does: the scopes, then a handle for the last of them. -/
theorem apply_nest {t : Nest} {child : String} (h : (Change.nest t child).apply f = .ok (g, a)) :
    ∃ c m, f.held? child = some c ∧ nest t t.count f c = .ok m ∧
      g = m.hold t.id (m.scopes.size - 1) := by
  simp only [Change.apply] at h
  split at h
  · cases h
  · next c hc =>
    obtain ⟨m, hm, h⟩ := Failure.bind_eq_ok.1 h
    obtain ⟨_, _, h⟩ := Failure.bind_eq_ok.1 h
    exact ⟨c, m, hc, hm, (congrArg Prod.fst (Except.ok.inj h)).symm⟩

/-- **A drop of a held scope always succeeds, and says whether that scope lives on.** -/
theorem apply_drop {id : String} (h : f.held? id = some i) :
    (Change.drop id).apply f = .ok (f.release id, .dropped ((f.release id).alive i)) := by
  simp only [Change.apply, h]

/-- A drop of what is not held fails. -/
theorem apply_drop_of_not_held {id : String} (h : f.held? id = none) :
    (Change.drop id).apply f = .error (.noSuchScope id) := by
  simp only [Change.apply, h]

/-- A drop that succeeds gives one handle up, and does nothing else. -/
theorem release_of_apply_drop {id : String} (h : (Change.drop id).apply f = .ok (g, a)) :
    ∃ i, f.held? id = some i ∧ g = f.release id := by
  cases hi : f.held? id with
  | none =>
      rw [apply_drop_of_not_held hi] at h
      cases h
  | some i =>
      rw [apply_drop hi] at h
      exact ⟨i, rfl, (congrArg Prod.fst (Except.ok.inj h)).symm⟩

/-- The scopes of a nest are pushed one after the other, each around the one before. -/
theorem moves_nest {t : Nest} : ∀ {n : Nat} {f : Forest} {c : Nat}, f.Built c →
    nest t n f c = .ok g →
      f.Moves g ∧ g.handles = f.handles ∧ g.scopes.size = f.scopes.size + n
  | 0, f, c, _, h => by
      obtain rfl : f = g := Except.ok.inj h
      exact ⟨.refl, rfl, rfl⟩
  | n + 1, f, c, hc, h => by
      obtain ⟨m, hm, h⟩ := Failure.bind_eq_ok.1 h
      obtain ⟨s, hs, rfl⟩ := construct_eq_ok_iff.1 hm
      obtain ⟨_, _, hfree, _, _, hnew⟩ := describe_eq_ok_iff.1 hs
      obtain ⟨hmoves, hhandles, hsize⟩ := moves_nest (built_push.2 (Or.inr rfl)) h
      have first : Move f (f.push s) :=
        .push f s hnew fun d hd => ⟨built_of_describe_one hs hc d hd, hfree d hd⟩
      refine ⟨hmoves.head first, hhandles, ?_⟩
      rw [hsize, size_push]
      omega

/-- **A change is a sequence of moves.** -/
theorem moves_apply (hf : f.Sound) {c : Change} (h : c.apply f = .ok (g, a)) : f.Moves g := by
  have unheld : ∀ {m : Forest} {j}, m.handles = f.handles → f.scopes.size ≤ j →
      m.held j = false := by
    intro m j hm hj
    refine Bool.eq_false_iff.2 fun hheld => ?_
    obtain ⟨id, hid⟩ := held_iff_mem.1 hheld
    have hb : j < f.scopes.size := hf.handleBuilt id j (hm ▸ hid)
    omega
  cases c with
  | scope id kind children bindings =>
      obtain ⟨k, cs, s, _, hcs, hs, rfl⟩ := apply_scope h
      obtain ⟨_, hvs, hfree, _, _, hnew⟩ := describe_eq_ok_iff.1 hs
      have first : Move f (f.push s) := .push f s hnew fun d hd => by
        obtain ⟨_, hd'⟩ := held_of_childTerms hcs hvs (List.mem_map_of_mem hd)
        exact ⟨built_of_held? hf hd', hfree d hd⟩
      have second : Move (f.push s) ((f.push s).hold id f.scopes.size) :=
        .hold _ id _ (built_push.2 (Or.inr rfl)) (unheld rfl (Nat.le_refl _))
      exact (Relation.ReflTransGen.single first).tail second
  | nest t child =>
      obtain ⟨c, m, hc, hm, rfl⟩ := apply_nest h
      obtain ⟨hmoves, hhandles, hsize⟩ := moves_nest (built_of_held? hf hc) hm
      have hpos := t.count_pos
      refine hmoves.tail (.hold m t.id (m.scopes.size - 1) ?_ (unheld hhandles (by omega)))
      show m.scopes.size - 1 < m.scopes.size
      omega
  | drop id =>
      obtain ⟨_, _, rfl⟩ := release_of_apply_drop h
      exact .single (.release f id)

/-! ## 4. Steps and sessions -/

/-- **What a step does**: nothing, as a question and a request that fails, or what the request does
    that succeeds. -/
theorem Step.run_cases (s : Step) (f : Forest) :
    ((s.run f).1 = f ∧ ∀ r, s = .change r → ∃ e, (s.run f).2.outcome = .error e) ∨
      ∃ r g a, s = .change r ∧ r.apply f = .ok (g, a) ∧ s.run f = (g, { outcome := .ok a }) := by
  cases s with
  | query q => exact Or.inl ⟨rfl, nofun⟩
  | lookup l => exact Or.inl ⟨rfl, nofun⟩
  | change r =>
      cases h : r.apply f with
      | error e =>
          simp only [Step.run, h]
          exact Or.inl ⟨trivial, fun _ _ => ⟨e, rfl⟩⟩
      | ok x =>
          obtain ⟨g, a⟩ := x
          simp only [Step.run, h]
          exact Or.inr ⟨r, g, a, rfl, h, rfl⟩

/-- **A step is a sequence of moves.** Questions and failures make none. -/
theorem moves_run (hf : f.Sound) (s : Step) : f.Moves (s.run f).1 := by
  rcases s.run_cases f with ⟨hsame, _⟩ | ⟨r, g, a, rfl, hr, hrun⟩
  · rw [hsame]
    exact .refl
  · rw [hrun]
    exact moves_apply hf hr

/-- **A session is a sequence of moves.** -/
theorem moves_runFrom : ∀ {f : Forest} (steps : List Step), f.Sound →
    f.Moves (Session.runFrom f steps).1
  | _, [], _ => .refl
  | f, s :: rest, hf => by
      have first := moves_run hf s
      exact first.trans (moves_runFrom rest (first.sound hf))

/-- **Every forest of a session is sound.** -/
theorem sound_forestAfter (steps : List Step) : (Session.forestAfter steps).Sound :=
  (moves_runFrom steps sound_empty).sound sound_empty

end TagScope

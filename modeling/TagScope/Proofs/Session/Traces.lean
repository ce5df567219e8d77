import TagScope.Proofs.Session.Effects
/-!
# Steps without a trace

Which steps of a session can be left out without anybody noticing.

* `run_of_asks`, `run_of_error`: a question and a step that fails leave the forest as it is.
* `run_eraseIdx`: **without such a step the session has the same replies to all other steps**,
  whatever was asked before and whatever comes after.
-/

namespace TagScope

open Forest

/-! ## 1. One step -/

/-- Whether a step only asks. -/
def Step.asks : Step → Bool
  | .query _ | .lookup _ => true
  | .change _ => false

section Steps

variable {f : Forest} {s : Step}

theorem run_of_asks (h : s.asks = true) : (s.run f).1 = f := by
  cases s with
  | query q => rfl
  | lookup l => rfl
  | change c => cases h

/-- **A request that fails has written nothing.** -/
theorem perform_of_outcome (hf : f.Sound) {c : Change} {e : Failure}
    (h : ((Step.change c).run f).2.outcome = .error e) : c.perform.on f = (.error e, f) := by
  rw [run_change hf] at h
  exact perform_of_error hf h

/-- A step that fails leaves the forest as it is. -/
theorem run_of_error (hf : f.Sound) {e : Failure} (h : (s.run f).2.outcome = .error e) :
    (s.run f).1 = f := by
  cases s with
  | query q => rfl
  | lookup l => rfl
  | change c =>
      rw [run_change hf, perform_of_outcome hf h]

end Steps

/-! ## 2. Sessions in parts -/

section Sessions

variable {f : Forest} {before after steps : List Step} {s : Step} {n : Nat}

theorem length_runFrom : ∀ {steps : List Step} {f : Forest},
    (Session.runFrom f steps).2.length = steps.length
  | [], _ => rfl
  | s :: _, f => congrArg (· + 1) (length_runFrom (f := (s.run f).1))

/-- **A session in two parts**: the second part goes on with the forest that the first one left. -/
theorem runFrom_append : ∀ {before : List Step} {f : Forest},
    Session.runFrom f (before ++ after) =
      ((Session.runFrom (Session.runFrom f before).1 after).1,
        (Session.runFrom f before).2 ++ (Session.runFrom (Session.runFrom f before).1 after).2)
  | [], _ => rfl
  | s :: before, f => by
      rw [List.cons_append, Session.runFrom, Session.runFrom]
      simp only [runFrom_append (f := (s.run f).1)]
      rfl

theorem forestAfter_append : Session.forestAfter (before ++ after)
    = (Session.runFrom (Session.forestAfter before) after).1 := by
  unfold Session.forestAfter
  rw [runFrom_append]

/-- One more step changes the forest as it does when it is run alone. -/
theorem forestAfter_take_succ (hs : steps[n]? = some s) :
    Session.forestAfter (steps.take (n + 1)) = (s.run (Session.forestAfter (steps.take n))).1 := by
  rw [List.take_add_one, hs, forestAfter_append]
  rfl

theorem run_append : Session.run (before ++ after)
    = Session.run before ++ (Session.runFrom (Session.forestAfter before) after).2 := by
  unfold Session.run Session.forestAfter
  rw [runFrom_append]

theorem length_run : (Session.run steps).length = steps.length := length_runFrom

/-- The reply to a step is the one that it gets in the forest which the steps before it left. -/
theorem getElem?_run_append :
    (Session.run (before ++ s :: after))[before.length]?
      = some (s.run (Session.forestAfter before)).2 := by
  have hlen : (Session.run before).length ≤ before.length := Nat.le_of_eq length_run
  rw [run_append, List.getElem?_append_right hlen, length_run, Nat.sub_self]
  rfl

/-- A session up to a step, the step, and the rest. -/
theorem take_append_cons_drop (hs : steps[n]? = some s) :
    steps.take n ++ s :: steps.drop (n + 1) = steps ∧ (steps.take n).length = n := by
  obtain ⟨hn, rfl⟩ := List.getElem?_eq_some_iff.1 hs
  refine ⟨?_, List.length_take_of_le (Nat.le_of_lt hn)⟩
  rw [← List.drop_eq_getElem_cons hn, List.take_append_drop]

theorem getElem?_run (hs : steps[n]? = some s) :
    (Session.run steps)[n]? = some (s.run (Session.forestAfter (steps.take n))).2 := by
  obtain ⟨hsplit, hlen⟩ := take_append_cons_drop hs
  have hreply : (Session.run (steps.take n ++ s :: steps.drop (n + 1)))[(steps.take n).length]?
      = some (s.run (Session.forestAfter (steps.take n))).2 := getElem?_run_append
  rw [hsplit, hlen] at hreply
  exact hreply

/-- **Where a step leaves the forest as it is, all other replies stay without it.** -/
theorem run_eraseIdx_append
    (hsame : (s.run (Session.forestAfter before)).1 = Session.forestAfter before) :
    (Session.run (before ++ s :: after)).eraseIdx before.length = Session.run (before ++ after) := by
  have hlen : (Session.run before).length ≤ before.length := Nat.le_of_eq length_run
  rw [run_append, run_append, List.eraseIdx_append_of_length_le hlen, length_run, Nat.sub_self]
  -- after the step both sessions go on from one forest
  simp only [Session.runFrom, List.eraseIdx_zero, List.tail_cons, hsame]

end Sessions

/-! ## 3. Every session -/

/-- **What fails and what only asks leaves no trace.** Let the reply to the `n`th step of a session
    be a failure, or the step a question. The session without it has the same replies to all other
    steps. The step leaves the forest that it found, so a refused request for a scope has given none
    of its children away, and another try is answered as if there had been none before. If the step
    is a request, then its effects, carried out one by one up to the point where it fails, leave that
    forest too. -/
theorem run_eraseIdx (steps : List Step) (n : Nat) (s : Step) (r : Reply)
    (hs : steps[n]? = some s) (hr : (Session.run steps)[n]? = some r)
    (h : s.asks = true ∨ ∃ e, r.outcome = .error e) :
    let before := Session.forestAfter (steps.take n)
    Session.run (steps.eraseIdx n) = (Session.run steps).eraseIdx n ∧
      Session.forestAfter (steps.take (n + 1)) = before ∧
      ∀ c, s = .change c → c.perform.on before = (r.outcome, before) := by
  intro before
  have hf : before.Sound := sound_forestAfter _
  have hreply : (s.run before).2 = r := Option.some.inj ((getElem?_run hs).symm.trans hr)
  have hsame : (s.run before).1 = before := by
    rcases h with h | ⟨e, he⟩
    · exact run_of_asks h
    · exact run_of_error hf (hreply ▸ he)
  refine ⟨?_, (forestAfter_take_succ hs).trans hsame, ?_⟩
  · obtain ⟨hsplit, hlen⟩ := take_append_cons_drop hs
    have hdelete : (Session.run (steps.take n ++ s :: steps.drop (n + 1))).eraseIdx
        (steps.take n).length = Session.run (steps.take n ++ steps.drop (n + 1)) :=
      run_eraseIdx_append hsame
    rw [hsplit, hlen, ← List.eraseIdx_eq_take_drop_succ] at hdelete
    exact hdelete.symm
  · rintro c rfl
    rcases h with h | ⟨e, he⟩
    · cases h
    · rw [perform_of_outcome hf (hreply ▸ he), he]

/-- A request for a scope around a scope and a text is refused at the text. -/
def refused : Step :=
  .change (.scope "outer" (.kind .module) (.given [.scope "inner", .raw (.text "x")]) (.list []))

/-- The request is made again without the text. -/
def retried : List Step :=
  [.change (.scope "inner" (.kind .block) (.given []) (.list [])), refused,
   .change (.scope "outer" (.kind .module) (.given [.scope "inner"]) (.list [])),
   .query (.state "inner")]

/-- The scope was looked at before the text was, and it was not given away. -/
theorem run_eraseIdx_retried :
    (Session.run retried)[1]? = some { outcome := .error (.missing .text .parent) } ∧
      Session.run (retried.eraseIdx 1) = (Session.run retried).eraseIdx 1 := by
  have hr : (Session.run retried)[1]? = some { outcome := .error (.missing .text .parent) } := rfl
  exact ⟨hr, (run_eraseIdx retried 1 refused _ rfl hr (Or.inr ⟨_, rfl⟩)).1⟩

end TagScope

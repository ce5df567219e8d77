import TagScope.Proofs.Forest.Resolution
import TagScope.Proofs.Reading.Inverse
/-!
# What a printed line tells

The line of a diagnostic is put together without any escapes: two numbers, colons, quotes and a name
that may itself have all of these in it. Still the line can be taken apart in one way only.

* `Whole.toInt_of_text`, `Location.same_of_text`: **numbers and places that are written alike are
  equal**, whatever they were given as.
* `Diagnostic.eq_of_text`: a line begins with its place, which has two colons behind its numbers, or
  else with a quote; **what is left is the message**, and the name is what that message is about.
* `Traced.Silent`: a computation that hands nothing over; `reports_examineAll`: the diagnostics of a
  unit are those of its unbound references, in order.
* `references_eq_of_line_eq`: no two different references have one line, be it in a unit or
  anywhere.
-/

namespace TagScope

/-! ## 1. Numbers and places -/

/-- **A list is split at the first place of a member in one way only.** -/
theorem eq_of_append_cons {α : Type} {a : α} : ∀ {l m r s : List α}, a ∉ l → a ∉ m →
    l ++ a :: r = m ++ a :: s → l = m ∧ r = s
  | [], [], _, _, _, _, h => ⟨rfl, (List.cons.inj h).2⟩
  | [], b :: m, _, _, _, hm, h => absurd ((List.cons.inj h).1 ▸ List.mem_cons_self) hm
  | b :: l, [], _, _, hl, _, h => absurd ((List.cons.inj h).1 ▸ List.mem_cons_self) hl
  | b :: l, c :: m, _, _, hl, hm, h => by
      obtain ⟨hhead, htail⟩ := List.cons.inj h
      obtain ⟨hlists, hrest⟩ := eq_of_append_cons (List.not_mem_of_not_mem_cons hl)
        (List.not_mem_of_not_mem_cons hm) htail
      exact ⟨hhead ▸ hlists ▸ rfl, hrest⟩

namespace Whole

open Reading

variable {w x : Whole} {c : Char}

/-- A number in running text is read as that number. -/
theorem exists_read_text (w : Whole) :
    ∃ x : Whole, read w.text = some (.ofWhole x) ∧ x.toInt = w.toInt := by
  cases w with
  | int n => exact ⟨.int n, read_of_reads (reads_int n), rfl⟩
  | bool b => exact ⟨.bool b, read_of_reads (reads_bool b), rfl⟩
  | kind k => exact ⟨.int k.number, read_of_reads (reads_int k.number), rfl⟩

/-- **Numbers that are written alike are equal**, also when one of them is a truth value or a
    kind. -/
theorem toInt_of_text (h : w.text = x.text) : w.toInt = x.toInt := by
  obtain ⟨u, hu, hw⟩ := w.exists_read_text
  obtain ⟨v, hv, hx⟩ := x.exists_read_text
  rw [h, hv] at hu
  have hsame := congrArg Value.whole? (Option.some.inj hu)
  rw [Value.whole?_ofWhole, Value.whole?_ofWhole] at hsame
  rw [← hw, ← hx, Option.some.inj hsame]

/-- A number is written as one word. -/
theorem isWordChar_of_mem_text (h : c ∈ w.text.toList) : isWordChar c = true := by
  have digits : ∀ m : Nat, c ∈ m.repr.toList → isWordChar c = true := fun m hc => by
    rw [Nat.toList_repr] at hc
    exact isWordChar_of_isDigit (isDigit_of_mem_toDigits hc)
  cases w with
  | int n =>
      cases n with
      | ofNat m => exact digits m h
      | negSucc m =>
          have hchars : (Whole.int (.negSucc m)).text.toList = '-' :: (m + 1).repr.toList := by
            show (toString (Int.negSucc m)).toList = _
            rw [Int.toString_eq_repr]
            simp [Int.repr]
          rw [hchars] at h
          rcases List.mem_cons.1 h with rfl | h
          · rfl
          · exact digits (m + 1) h
  | bool b =>
      have letters : (Whole.bool b).text.toList.all isWordChar = true := by cases b <;> decide
      exact List.all_eq_true.1 letters c h
  | kind k => exact digits k.number h

theorem colon_not_mem_text : ':' ∉ w.text.toList := fun h => nomatch isWordChar_of_mem_text h

theorem quote_not_mem_text : '\'' ∉ w.text.toList := fun h => nomatch isWordChar_of_mem_text h

end Whole

namespace Location

variable {l k : Location}

theorem toList_text (l : Location) :
    l.text.toList = l.line.text.toList ++ ':' :: l.column.text.toList := by
  simp [text]

/-- **Places that are written alike are equal.** -/
theorem same_of_text (hline : l.line.text = k.line.text)
    (hcolumn : l.column.text = k.column.text) : l.same k = true := by
  unfold same
  rw [Whole.toInt_of_text hline, Whole.toInt_of_text hcolumn, beq_self_eq_true, beq_self_eq_true]
  rfl

end Location

/-! ## 2. Lines -/

/-- No two names have one message. -/
theorem notDefined_injective : Function.Injective notDefined := by
  intro s t h
  unfold notDefined at h
  rw [String.append_left_inj, String.append_right_inj] at h
  exact h

theorem toList_notDefined (s : String) :
    (notDefined s).toList = '\'' :: (s.toList ++ "' is not defined.".toList) := by
  unfold notDefined
  simp

namespace Diagnostic

variable {l k : Location} {m : String}

/-- A line with a place: its numbers have a colon behind each of them. -/
theorem toList_text_located : (Diagnostic.mk (some l) m).text.toList
    = l.line.text.toList ++ ':' :: (l.column.text.toList ++ ':' :: ' ' :: m.toList) := by
  show (l.text ++ ": " ++ m).toList = _
  rw [String.toList_append, String.toList_append, Location.toList_text]
  simp

/-- **A line with a place does not begin with a quote**, as messages do. -/
theorem text_located_ne (s : String) :
    (Diagnostic.mk (some l) m).text ≠ (Diagnostic.mk none (notDefined s)).text := by
  intro h
  have hlist := congrArg String.toList h
  rw [toList_text_located] at hlist
  change _ = (notDefined s).toList at hlist
  rw [toList_notDefined] at hlist
  have hfirst : '\'' ∉ l.line.text.toList := Whole.quote_not_mem_text
  cases hl : l.line.text.toList with
  | nil =>
      rw [hl] at hlist
      exact absurd (List.cons.inj hlist).1 (by decide)
  | cons c cs =>
      rw [hl] at hlist hfirst
      exact hfirst ((List.cons.inj hlist).1 ▸ List.mem_cons_self)

/-- **What a line tells of its place and of its message.** -/
theorem eq_of_text_located {n : String}
    (h : (Diagnostic.mk (some l) m).text = (Diagnostic.mk (some k) n).text) :
    l.same k = true ∧ m = n := by
  have hlist := congrArg String.toList h
  rw [toList_text_located, toList_text_located] at hlist
  obtain ⟨hline, hrest⟩ :=
    eq_of_append_cons Whole.colon_not_mem_text Whole.colon_not_mem_text hlist
  obtain ⟨hcolumn, hrest⟩ :=
    eq_of_append_cons Whole.colon_not_mem_text Whole.colon_not_mem_text hrest
  have hmessage : m.toList = n.toList := (List.cons.inj hrest).2
  exact ⟨Location.same_of_text (String.toList_inj.1 hline) (String.toList_inj.1 hcolumn),
    String.toList_inj.1 hmessage⟩

/-- **What a line tells of the name that it is about, and of the place.** -/
theorem eq_of_text {l k : Option Location} {s t : String}
    (h : (Diagnostic.mk l (notDefined s)).text = (Diagnostic.mk k (notDefined t)).text) :
    s = t ∧ Location.same? l k = true := by
  cases l with
  | none =>
      cases k with
      | none => exact ⟨notDefined_injective h, rfl⟩
      | some k => exact absurd h.symm (text_located_ne s)
  | some l =>
      cases k with
      | none => exact absurd h (text_located_ne t)
      | some k =>
          obtain ⟨hplace, hmessage⟩ := eq_of_text_located h
          exact ⟨notDefined_injective hmessage, hplace⟩

example : (Diagnostic.mk none (notDefined "1:0: 'A")).text
    ≠ (Diagnostic.mk (some ⟨.int 1, .int 0, by decide, by decide⟩) (notDefined "A")).text := by
  decide

end Diagnostic

/-! ## 3. References as values -/

namespace Value

variable {f : Forest} {l k : Option Location} {s t : String}

/-- The line of the diagnostic about any value that has a location and a name. -/
def line (f : Forest) (v : Value) : Except Failure String := do (← v.emitted f).text f

/-- **A reference with a text as its name, at a place or at none, has a line.** -/
theorem line_reference : (reference (ofText s) (ofLocation? l)).line f
    = .ok (Diagnostic.mk l (notDefined s)).text := by
  cases l <;> rfl

theorem same_ofLocation? : (ofLocation? l).same (ofLocation? k) = Location.same? l k := by
  cases l <;> cases k <;> rfl

/-- Two references to one name are equal when their places are. -/
theorem same_reference_ofText (h : Location.same? l k = true) :
    (reference (ofText s) (ofLocation? l)).same (reference (ofText s) (ofLocation? k)) = true := by
  have hname : (ofText s).same (ofText s) = true := beq_self_eq_true s
  have hplace : (ofLocation? l).same (ofLocation? k) = true := same_ofLocation?.trans h
  exact Bool.and_eq_true_iff.2 ⟨hname, hplace⟩

/-- **References to plain texts that have one line are equal.** -/
theorem same_of_line {line : String} (hs : (reference (ofText s) (ofLocation? l)).line f = .ok line)
    (ht : (reference (ofText t) (ofLocation? k)).line f = .ok line) :
    (reference (ofText s) (ofLocation? l)).same (reference (ofText t) (ofLocation? k)) = true := by
  rw [line_reference] at hs ht
  obtain ⟨rfl, hplace⟩ := Diagnostic.eq_of_text (Except.ok.inj (hs.trans ht.symm))
  exact same_reference_ofText hplace

end Value

namespace Reference

variable {f : Forest} {r q : Reference}

/-- The line of a reference is that of its diagnostic. -/
theorem line_toValue : r.toValue.line f = .ok r.diagnostic.text := by
  obtain ⟨_ | _, _ | _⟩ := r <;> rfl

/-- A name that is no source type is a plain text. -/
theorem exists_toValue_eq (hr : ∀ t, r.name ≠ .sourceType t) :
    ∃ s, r.toValue = .reference (.ofText s) (.ofLocation? r.location) := by
  obtain ⟨name, l⟩ := r
  cases name with
  | plain s _ => exact ⟨s, rfl⟩
  | sourceType t => exact absurd rfl (hr t)

end Reference

/-! ## 4. What checks hand over -/

namespace Traced

variable {α β : Type} {t : Traced α} {k : α → Traced β} {b : β}

/-- **A computation hands nothing over.** -/
def Silent (t : Traced α) : Prop := t.reports = []

theorem silent_ofExcept (r : Except Failure α) : (ofExcept r).Silent := rfl

theorem Silent.bind (ht : t.Silent) (hk : ∀ a, (k a).Silent) : (t >>= k).Silent := by
  show (t.andThen k).reports = []
  unfold andThen
  cases t.result with
  | error e => exact ht
  | ok a =>
      show t.reports ++ (k a).reports = []
      rw [ht, hk a]
      rfl

/-- Two computations in a row that succeed hand over what each of them does. -/
theorem of_andThen_ok (h : (t.andThen k).result = .ok b) : ∃ a, t.result = .ok a ∧
    (k a).result = .ok b ∧ (t.andThen k).reports = t.reports ++ (k a).reports := by
  unfold andThen at h ⊢
  cases ht : t.result with
  | error e =>
      rw [ht] at h
      cases h
  | ok a =>
      rw [ht] at h
      exact ⟨a, rfl, h, rfl⟩

end Traced

namespace Forest

open Traced

variable {f : Forest} {node scope policy : Value} {v : Option Verdict}

/-- Looking for a name hands nothing over, whatever it is looked for in. -/
theorem silent_verdictOn (name : Value) : (f.verdictOn name scope policy).Silent := by
  have hvisible : ∀ boundary, (f.visible scope boundary).Silent := fun boundary => by
    refine (silent_ofExcept _).bind fun ⟨s, around⟩ => ?_
    dsimp only
    -- there is a note on a chain without the boundary, but notes are not handed over
    split
    · exact silent_ofExcept _
    · exact Silent.bind rfl fun _ => silent_ofExcept _
  refine (silent_ofExcept _).bind fun boundary => (hvisible _).bind fun bs => ?_
  exact (silent_ofExcept _).bind fun _ => silent_ofExcept _

/-- **A check that comes to a verdict hands over the diagnostic of an unbound reference**, and
    nothing for any other verdict. -/
theorem reports_of_examine_ok (h : (f.examine node scope policy).result = .ok v) :
    (f.examine node scope policy).reports =
      if v = some .unbound then (node.reference?.map Reference.diagnostic).toList else [] := by
  unfold examine at h ⊢
  cases href : node.reference? with
  | none =>
      rw [href] at h
      obtain rfl : none = v := Except.ok.inj h
      rfl
  | some r =>
      simp only [href] at h ⊢
      by_cases hthis : r.name.text = receiverName
      · rw [if_pos hthis] at h ⊢
        obtain rfl : some Verdict.bound = v := Except.ok.inj h
        rfl
      · rw [if_neg hthis] at h ⊢
        obtain ⟨verdict, _, hrest, hreports⟩ := of_andThen_ok h
        have hsilent : (f.verdictOn (.ofIdentifier r.name) scope policy).reports = [] :=
          silent_verdictOn _
        refine hreports.trans ?_
        rw [hsilent]
        cases verdict with
        | bound =>
            obtain rfl : some Verdict.bound = v := Except.ok.inj hrest
            rfl
        | unbound =>
            obtain rfl : some Verdict.unbound = v := Except.ok.inj hrest
            rfl

/-- The reference of an element whose verdict is that nothing binds it. -/
def unboundReference? (f : Forest) (policy : Value) (e : Element) : Option Reference :=
  match e.toPair with
  | .ok (node, scope) =>
    match (f.examine node scope policy).result with
    | .ok (some .unbound) => node.reference?
    | _ => none
  | .error _ => none

/-- An element that is a pair has an unbound reference when its verdict says so. -/
theorem unboundReference?_of_ok {e : Element} (hpair : e.toPair = .ok (node, scope))
    (h : (f.examine node scope policy).result = .ok v) :
    f.unboundReference? policy e = if v = some .unbound then node.reference? else none := by
  unfold unboundReference?
  simp only [hpair, h]
  rcases v with _ | _ | _ <;> rfl

/-- **A unit that is checked to its end has the diagnostics of its unbound references**, in order
    and with repetitions. -/
theorem reports_examineAll : ∀ {es : List Element}, (f.examineAll policy es).result = .ok () →
    (f.examineAll policy es).reports
      = (es.filterMap (f.unboundReference? policy)).map Reference.diagnostic
  | [], _ => rfl
  | e :: es, h => by
      rw [examineAll_cons] at h ⊢
      obtain ⟨⟨node, scope⟩, hpair, hcheck, hreports⟩ := of_andThen_ok h
      obtain ⟨v, hv, hrest, hparts⟩ := of_andThen_ok hcheck
      have hpair : e.toPair = .ok (node, scope) := hpair
      have hothers := reports_examineAll hrest
      refine hreports.trans (hparts.trans ?_)
      rw [reports_of_examine_ok hv, hothers, List.filterMap_cons, unboundReference?_of_ok hpair hv]
      by_cases hunbound : v = some .unbound
      · rw [if_pos hunbound, if_pos hunbound]
        cases node.reference? <;> rfl
      · rw [if_neg hunbound, if_neg hunbound]
        rfl

end Forest

/-! ## 5. Every line -/

/-- **What the lines of diagnostics tell.** -/
structure Forest.LinesTell (f : Forest) : Prop where
  /-- A reference to any text, at a place or at none, has a line. -/
  written : ∀ s l, ∃ line, (Value.reference (.ofText s) (.ofLocation? l)).line f = .ok line
  /-- Two references to texts that have one line are equal. -/
  equal : ∀ s l t k line, (Value.reference (.ofText s) (.ofLocation? l)).line f = .ok line →
    (Value.reference (.ofText t) (.ofLocation? k)).line f = .ok line →
      (Value.reference (.ofText s) (.ofLocation? l)).same
        (.reference (.ofText t) (.ofLocation? k)) = true
  /-- The lines of a unit that is checked to its end are those of its unbound references, in order.
      Two of these references with plain texts as their names have different lines, unless they are
      equal. -/
  unit : ∀ elements policy, (f.examineUnit elements policy).result = .ok () →
    ∃ es, elements.toList = .ok es ∧
      let unbound := es.filterMap (f.unboundReference? policy)
      (f.examineUnit elements policy).reports.map (fun d => .ok d.text)
          = unbound.map (fun r => r.toValue.line f) ∧
        ∀ r ∈ unbound, ∀ q ∈ unbound, (∀ t, r.name ≠ .sourceType t) →
          (∀ t, q.name ≠ .sourceType t) → r.toValue.line f = q.toValue.line f →
            r.toValue.same q.toValue = true

/-- **Lines tell references from each other**, whatever their names are and wherever they are. -/
theorem references_eq_of_line_eq (f : Forest) : f.LinesTell where
  written s l := ⟨_, Value.line_reference⟩
  equal s l t k line hs ht := Value.same_of_line hs ht
  unit elements policy h := by
    obtain ⟨es, hes, hchecked, hreports⟩ := Traced.of_andThen_ok h
    refine ⟨es, hes, ?_, fun r _ q _ hr hq hline => ?_⟩
    · have hall : (f.examineUnit elements policy).reports
          = (es.filterMap (f.unboundReference? policy)).map Reference.diagnostic :=
        hreports.trans (Forest.reports_examineAll hchecked)
      rw [hall, List.map_map]
      exact List.map_congr_left fun r _ => Reference.line_toValue.symm
    · obtain ⟨s, hs⟩ := Reference.exists_toValue_eq hr
      obtain ⟨t, ht⟩ := Reference.exists_toValue_eq hq
      rw [hs, ht] at hline ⊢
      exact Value.same_of_line Value.line_reference (hline ▸ Value.line_reference)

end TagScope

import TagScope.Proofs.Reference.LeftEnd
/-!
# What is written first

A written name has dots and a colon between its identifiers. This file relates the text of a name to
its reference, which is found in the tree and not in the text.

* `beforeSeparator`: the part of a text before its first dot or colon.
* `exists_rest`: **a written name is its leftmost identifier, and behind it nothing or a
  separator**, whatever is at its root; `name_of_reference?`: that identifier is what the name
  refers to.
* `colon_mem_text_iff`: there is a colon in the text when there is a name with a colon at the root.
* `reference_first_written`: a name refers to what is written before the first separator.
-/

namespace TagScope

/-! ## 1. Separators -/

/-- Whether a character stands between two identifiers of a written name. -/
def isSeparator (c : Char) : Bool := c == '.' || c == ':'

/-- The part of a text before its first separator, which is all of it if there is none. -/
def beforeSeparator (s : String) : String :=
  String.ofList (s.toList.takeWhile fun c => !isSeparator c)

/-- **A text is cut at its first separator.** -/
theorem beforeSeparator_of_split {s first : String} {rest : List Char}
    (hs : s.toList = first.toList ++ rest) (hfirst : ∀ c ∈ first.toList, isSeparator c = false)
    (hrest : ∀ c ∈ rest.head?, isSeparator c = true) : beforeSeparator s = first := by
  have hprefix : ∀ c ∈ first.toList, (!isSeparator c) = true := fun c hc => by
    rw [hfirst c hc]
    rfl
  have hnone : rest.takeWhile (fun c => !isSeparator c) = [] := by
    cases rest with
    | nil => rfl
    | cons c rest =>
        have hc : isSeparator c = true := hrest c rfl
        exact List.takeWhile_cons_of_neg (by rw [hc]; nofun)
  unfold beforeSeparator
  rw [hs, List.takeWhile_append_of_pos hprefix, hnone, List.append_nil, String.ofList_toList]

example : beforeSeparator "svg:rect.x" = "svg" ∧ beforeSeparator "div" = "div" := by decide

/-- There is a colon in a text, and a dot somewhere behind it. -/
def DotBehindColon (s : String) : Prop :=
  ∃ before between after, s.toList = before ++ ':' :: (between ++ '.' :: after)

/-- **What the text of a name that refers to nothing is like**: without separators and built-in, or
    with a dot behind a colon. -/
def TellsNothing (s : String) : Prop :=
  (∀ c ∈ s.toList, isSeparator c = false) ∧ intrinsic s = true ∨ DotBehindColon s

theorem DotBehindColon.colon_mem {s : String} (h : DotBehindColon s) : ':' ∈ s.toList := by
  obtain ⟨before, between, after, hs⟩ := h
  rw [hs]
  exact List.mem_append_cons_self

theorem DotBehindColon.dot_mem {s : String} (h : DotBehindColon s) : '.' ∈ s.toList := by
  obtain ⟨before, between, after, hs⟩ := h
  rw [hs]
  exact List.mem_append_right _ (List.mem_cons_of_mem _ List.mem_append_cons_self)

/-! ## 2. Identifiers -/

namespace Identifier

/-- Whether an identifier is a text of its own, with no separator in it. -/
def isUndivided : Identifier → Bool
  | .plain s _ => s.toList.all fun c => !isSeparator c
  | .sourceType _ => false

section Undivided

variable {i : Identifier} (h : i.isUndivided = true)
include h

theorem inText_of_isUndivided : i.inText = i.text := by
  cases i with
  | plain s ne => rfl
  | sourceType t => cases h

theorem ofIdentifier_of_isUndivided : Value.ofIdentifier i = .ofText i.text := by
  cases i with
  | plain s ne => rfl
  | sourceType t => cases h

theorem not_isSeparator_of_isUndivided : ∀ c ∈ i.text.toList, isSeparator c = false := by
  cases i with
  | plain s ne =>
      intro c hc
      simpa using List.all_eq_true.1 h c hc
  | sourceType t => cases h

end Undivided

end Identifier

namespace ElementName

/-- Whether no identifier in a name has a separator in it. -/
def isUndivided : ElementName → Bool
  | .simple n _ => n.isUndivided
  | .member o p _ => o.isUndivided && p.isUndivided
  | .namespaced s n _ => s.isUndivided && n.isUndivided

/-- The identifier at the left end of a name. -/
def leftmost : ElementName → Identifier
  | .simple n _ => n
  | .member o _ _ => o.leftmost
  | .namespaced s _ _ => s

section Parts

variable {n o : ElementName} {m p s : Identifier} {l : Option Location}

theorem isUndivided_simple : (simple m l).isUndivided = true ↔ m.isUndivided = true := Iff.rfl

theorem isUndivided_member : (member o p l).isUndivided = true ↔
    o.isUndivided = true ∧ p.isUndivided = true := Bool.and_eq_true_iff

theorem isUndivided_namespaced : (namespaced s m l).isUndivided = true ↔
    s.isUndivided = true ∧ m.isUndivided = true := Bool.and_eq_true_iff

/-- The leftmost identifier is one of the identifiers. -/
theorem isUndivided_leftmost (h : n.isUndivided = true) : n.leftmost.isUndivided = true := by
  induction n with
  | simple m l => exact isUndivided_simple.1 h
  | member o p l ih => exact ih (isUndivided_member.1 h).1
  | namespaced s m l => exact (isUndivided_namespaced.1 h).1

/-! ## 3. The text of a name -/

theorem toList_text_member (hp : p.isUndivided = true) :
    (member o p l).text.toList = o.text.toList ++ '.' :: p.text.toList := by
  show (o.text ++ "." ++ p.inText).toList = _
  rw [Identifier.inText_of_isUndivided hp]
  simp

theorem toList_text_namespaced (hs : s.isUndivided = true) (hm : m.isUndivided = true) :
    (namespaced s m l).text.toList = s.text.toList ++ ':' :: m.text.toList := by
  show (s.inText ++ ":" ++ m.inText).toList = _
  rw [Identifier.inText_of_isUndivided hs, Identifier.inText_of_isUndivided hm]
  simp

/-- **A written name is its leftmost identifier, and behind it nothing or a separator.** -/
theorem exists_rest (h : n.isUndivided = true) : ∃ rest,
    n.text.toList = n.leftmost.text.toList ++ rest ∧ ∀ c ∈ rest.head?, isSeparator c = true := by
  induction n with
  | simple m l => exact ⟨[], (List.append_nil _).symm, nofun⟩
  | member o p l ih =>
      obtain ⟨ho, hp⟩ := isUndivided_member.1 h
      obtain ⟨rest, htext, hrest⟩ := ih ho
      refine ⟨rest ++ '.' :: p.text.toList, ?_, ?_⟩
      · rw [toList_text_member hp, htext, List.append_assoc]
        rfl
      · -- what comes first behind the identifier came first before, unless there was nothing
        cases rest with
        | nil => rintro c ⟨⟩; rfl
        | cons d rest => exact hrest
  | namespaced s m l =>
      obtain ⟨hs, hm⟩ := isUndivided_namespaced.1 h
      refine ⟨':' :: m.text.toList, toList_text_namespaced hs hm, ?_⟩
      rintro c ⟨⟩
      rfl

/-- **The leftmost identifier is what stands before the first separator.** -/
theorem beforeSeparator_text (h : n.isUndivided = true) :
    beforeSeparator n.text = n.leftmost.text := by
  obtain ⟨rest, htext, hrest⟩ := exists_rest h
  have hleft := isUndivided_leftmost h
  exact beforeSeparator_of_split htext (Identifier.not_isSeparator_of_isUndivided hleft) hrest

theorem colon_not_mem_text_of_isUndivided (hp : p.isUndivided = true) : ':' ∉ p.text.toList :=
  fun hc => nomatch Identifier.not_isSeparator_of_isUndivided hp _ hc

theorem dot_not_mem_text_of_isUndivided (hp : p.isUndivided = true) : '.' ∉ p.text.toList :=
  fun hc => nomatch Identifier.not_isSeparator_of_isUndivided hp _ hc

/-- **There is a colon in a written name when its root has one.** -/
theorem colon_mem_text_iff (h : n.isUndivided = true) :
    ':' ∈ n.text.toList ↔ ∃ s m l, n.root = .namespaced s m l := by
  induction n with
  | simple m l =>
      have hcolon := colon_not_mem_text_of_isUndivided (isUndivided_simple.1 h)
      exact iff_of_false hcolon fun ⟨_, _, _, e⟩ => nomatch e
  | member o p l ih =>
      obtain ⟨ho, hp⟩ := isUndivided_member.1 h
      have hcolon := colon_not_mem_text_of_isUndivided hp
      rw [toList_text_member hp, List.mem_append, List.mem_cons, ih ho]
      exact or_iff_left fun hc => hc.elim (nomatch ·) hcolon
  | namespaced s m l =>
      obtain ⟨hs, hm⟩ := isUndivided_namespaced.1 h
      rw [toList_text_namespaced hs hm]
      exact iff_of_true List.mem_append_cons_self ⟨s, m, l, rfl⟩

/-! ## 4. The reference of a name -/

theorem leftmost_root (n : ElementName) : n.root.leftmost = n.leftmost := by
  induction n with
  | simple m l => rfl
  | member o p l ih => exact ih
  | namespaced s m l => rfl

/-- The name at the left end of a path is no path. -/
theorem root_ne_member (n : ElementName) : n.root ≠ .member o p l := by
  induction n with
  | simple m k => nofun
  | member u q k ih => exact ih
  | namespaced s m k => nofun

/-- **A name refers to its leftmost identifier**, if it refers to anything. -/
theorem name_of_reference? {r : Reference} (hr : n.reference? = some r) : r.name = n.leftmost := by
  cases n with
  | simple m l =>
      rw [reference?] at hr
      split at hr
      · cases hr
      · exact congrArg Reference.name (Option.some.inj hr).symm
  | member o p l =>
      rw [reference?] at hr
      split at hr
      · next m k hroot =>
        have hleft := leftmost_root o
        rw [hroot] at hleft
        rw [← Option.some.inj hr]
        exact hleft
      · cases hr
  | namespaced s m l => exact congrArg Reference.name (Option.some.inj hr).symm

/-- A path refers to nothing exactly when its root has a colon. -/
theorem reference?_member_eq_none_iff_root :
    (member o p l).reference? = none ↔ ∃ s m k, o.root = .namespaced s m k := by
  rw [reference?]
  cases hroot : o.root with
  | simple m k => exact iff_of_false nofun fun ⟨_, _, _, e⟩ => nomatch e
  | member u q k => exact absurd hroot (root_ne_member o)
  | namespaced s m k => exact iff_of_true rfl ⟨s, m, k, rfl⟩

/-- A bare name refers to nothing exactly when it is built-in, and it has no separators at all. -/
theorem reference?_simple_eq_none_iff (h : (simple m l).isUndivided = true) :
    (simple m l).reference? = none ↔ TellsNothing (simple m l).text := by
  have hm := isUndivided_simple.1 h
  have hplain : ∀ c ∈ (simple m l).text.toList, isSeparator c = false :=
    Identifier.not_isSeparator_of_isUndivided hm
  have hcolon : ¬ DotBehindColon (simple m l).text := fun hd =>
    colon_not_mem_text_of_isUndivided hm hd.colon_mem
  rw [reference?, TellsNothing, or_iff_left hcolon]
  split
  · next hi => exact iff_of_true rfl ⟨hplain, hi⟩
  · next hi => exact iff_of_false nofun fun hnone => hi hnone.2

/-- A path refers to nothing exactly when there is a colon before its last dot. -/
theorem reference?_member_eq_none_iff (h : (member o p l).isUndivided = true) :
    (member o p l).reference? = none ↔ TellsNothing (member o p l).text := by
  obtain ⟨ho, hp⟩ := isUndivided_member.1 h
  have htext : (member o p l).text.toList = o.text.toList ++ '.' :: p.text.toList :=
    toList_text_member hp
  have hdot : '.' ∈ (member o p l).text.toList := htext ▸ List.mem_append_cons_self
  rw [reference?_member_eq_none_iff_root, TellsNothing]
  constructor
  · intro hroot
    -- the dot of the last property stands behind the colon of the root
    obtain ⟨before, between, hcolon⟩ := List.append_of_mem ((colon_mem_text_iff ho).2 hroot)
    refine Or.inr ⟨before, between, p.text.toList, ?_⟩
    rw [htext, hcolon, List.append_assoc]
    rfl
  · rintro (⟨hplain, _⟩ | hd)
    · cases hplain _ hdot
    · exact (colon_mem_text_iff h).1 hd.colon_mem

/-- A name with a colon refers to something, and there is no dot in its text. -/
theorem not_tellsNothing_namespaced (h : (namespaced s m l).isUndivided = true) :
    ¬ TellsNothing (namespaced s m l).text := by
  obtain ⟨hs, hm⟩ := isUndivided_namespaced.1 h
  have htext : (namespaced s m l).text.toList = s.text.toList ++ ':' :: m.text.toList :=
    toList_text_namespaced hs hm
  have hcolon : ':' ∈ (namespaced s m l).text.toList := htext ▸ List.mem_append_cons_self
  rintro (⟨hplain, _⟩ | hd)
  · cases hplain _ hcolon
  · have hdot := hd.dot_mem
    rw [htext, List.mem_append, List.mem_cons] at hdot
    rcases hdot with hdot | hdot | hdot
    · exact dot_not_mem_text_of_isUndivided hs hdot
    · cases hdot
    · exact dot_not_mem_text_of_isUndivided hm hdot

/-- **When a name refers to nothing can be told from its text.** -/
theorem reference?_eq_none_iff (h : n.isUndivided = true) :
    n.reference? = none ↔ TellsNothing n.text := by
  cases n with
  | simple m l => exact reference?_simple_eq_none_iff h
  | member o p l => exact reference?_member_eq_none_iff h
  | namespaced s m l => exact iff_of_false nofun (not_tellsNothing_namespaced h)

end Parts

end ElementName

open ElementName

/-! ## 5. What is written first -/

/-- **What has to be declared is what is written first.** A name whose identifiers are texts without
    separators can be written; if it refers to anything, then to the part of its text before the
    first separator, and it refers to nothing in two cases: there is no separator and the text names
    a built-in element, or there is a colon with a dot somewhere behind it. -/
theorem reference_first_written (f : Forest) (n : ElementName) (h : n.isUndivided = true) :
    ∃ t, (Value.name n).text f = .ok t ∧
      (∀ r, (Value.name n).reference? = some r →
        Value.ofIdentifier r.name = .ofText (beforeSeparator t)) ∧
      ((Value.name n).reference? = none ↔
        (∀ c ∈ t.toList, isSeparator c = false) ∧ intrinsic t = true ∨ DotBehindColon t) := by
  refine ⟨n.text, rfl, fun r hr => ?_, reference?_eq_none_iff h⟩
  have hname : r.name = n.leftmost := name_of_reference? hr
  rw [hname, beforeSeparator_text h]
  exact Identifier.ofIdentifier_of_isUndivided (isUndivided_leftmost h)

/-- A path over a name that would be built-in by itself. -/
def builtInPath : ElementName :=
  .member (.member (.simple (.plain "my-tag" (by decide)) none) (.plain "Header" (by decide)) none)
    (.plain "Title" (by decide)) (some ⟨.int 1, .int 0, by decide, by decide⟩)

/-- It refers to what stands before its first dot. -/
theorem reference_first_written_path : builtInPath.isUndivided = true ∧
    ∃ r, (Value.name builtInPath).reference? = some r ∧
      Value.ofIdentifier r.name = .ofText "my-tag" := by
  have h : builtInPath.isUndivided = true := by decide
  have hfirst : beforeSeparator builtInPath.text = "my-tag" := by decide
  obtain ⟨t, ht, hname, _⟩ := reference_first_written .empty builtInPath h
  obtain rfl : builtInPath.text = t := Except.ok.inj ht
  rw [hfirst] at hname
  exact ⟨h, _, rfl, hname _ rfl⟩

end TagScope

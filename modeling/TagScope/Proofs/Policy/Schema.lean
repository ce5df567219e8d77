import Mathlib.Data.List.Nodup
import TagScope.Policy.Options
import TagScope.Proofs.Reading.Pieces
import TagScope.Proofs.Value.Essence
/-!
# The schema of options

Which options and source types make a policy, and what is said about the others.

* `Policy.Grants`, `Value.NamesSource`: **the schema**, without the function that checks it.
* `sourceTypeOf_eq_ok_iff`, `grants_iff`: each check accepts what the schema allows.
* `unknownNames_perm`, `pairwise_unknownNames`: the unknown keys, each of them once, as they are
  shown and in order. **No two keys are shown alike** (`quoted_injective`).
* `ofOptions_follows_schema`: options that follow the schema make the policy that they describe, and
  otherwise the first check that they fail is reported.
-/

namespace TagScope

/-! ## 1. The schema -/

/-- **The options leave or make a choice about global names**: there are none, or there is no key
    but one, with a truth value. -/
inductive Policy.Grants : Datum → Bool → Prop
  | nothing : Grants .null false
  | silent {entries : Dictionary Datum} (none : entries.keys = []) :
      Grants (.mapping entries) false
  | told {entries : Dictionary Datum} {b : Bool} (only : ∀ k ∈ entries.keys, k = "allowGlobals")
      (value : entries.get? "allowGlobals" = some (.bool b)) : Grants (.mapping entries) b

/-- **The value names a source type**: it is one, or the word for one. -/
inductive Value.NamesSource : Value → SourceType → Prop
  | member (t : SourceType) : NamesSource (.sourceType t) t
  | module : NamesSource (.ofText "module") .module
  | script : NamesSource (.ofText "script") .script

namespace Policy

/-! ## 2. Source types -/

theorem ofWord?_eq_some_iff {s : String} {t : SourceType} :
    SourceType.ofWord? s = some t ↔ t.word = s := by
  constructor
  · intro h
    exact of_decide_eq_true (List.find?_some (p := fun t : SourceType => decide (t.word = s)) h)
  · rintro rfl
    cases t <;> rfl

/-- **A value is accepted as a source type exactly when it names one.** -/
theorem sourceTypeOf_eq_ok_iff {f : Forest} {v : Value} {t : SourceType} :
    sourceTypeOf f v = .ok t ↔ v.NamesSource t := by
  have accepted : sourceTypeOf f v = .ok t ↔ v.text?.bind SourceType.ofWord? = some t := by
    unfold sourceTypeOf
    split
    · next u hu => rw [hu, Except.ok.injEq, Option.some.injEq]
    · next hn => exact iff_of_false nofun fun h => nomatch hn.symm.trans h
  rw [accepted, Option.bind_eq_some_iff]
  constructor
  · rintro ⟨s, hs, ht⟩
    rw [ofWord?_eq_some_iff] at ht
    cases v with
    | datum d =>
        cases d with
        | text s' =>
            obtain rfl : s' = s := Option.some.inj hs
            cases t with
            | module => exact ht ▸ .module
            | script => exact ht ▸ .script
        | _ => cases hs
    | sourceType u =>
        obtain rfl : u.word = s := Option.some.inj hs
        obtain rfl : t = u := SourceType.word_inj.1 ht
        exact .member t
    | _ => cases hs
  · intro h
    cases h with
    | member t => exact ⟨t.word, rfl, ofWord?_eq_some_iff.2 rfl⟩
    | module => exact ⟨"module", rfl, rfl⟩
    | script => exact ⟨"script", rfl, rfl⟩

theorem sourceTypeOf_of_not_names {f : Forest} {v : Value} (h : ∀ t, ¬ v.NamesSource t) :
    sourceTypeOf f v = .error (.notSourceType (v.shown f)) := by
  have refused : ∀ t, sourceTypeOf f v ≠ .ok t := fun t ht => h t (sourceTypeOf_eq_ok_iff.1 ht)
  unfold sourceTypeOf at refused ⊢
  split
  · next t ht => exact absurd (by rw [ht]) (refused t)
  · rfl

theorem category_of_sourceTypeOf {f : Forest} {v : Value} {e : Failure}
    (h : sourceTypeOf f v = .error e) : e.category = .invalidOptions := by
  unfold sourceTypeOf at h
  split at h
  · cases h
  · obtain rfl := Except.error.inj h
    rfl

/-! ## 3. Keys -/

/-- **No two texts have one form in quotes.** -/
theorem quoted_injective : Function.Injective quoted := by
  intro s t h
  have hs : Reading.read (quoted s) = some (.ofText s) :=
    Reading.read_of_reads (Reading.reads_quoted s)
  have ht : Reading.read (quoted t) = some (.ofText t) :=
    Reading.read_of_reads (Reading.reads_quoted t)
  rw [h, ht] at hs
  exact (Datum.text.inj (Value.datum.inj (Option.some.inj hs))).symm

section Keys

variable {entries : Dictionary Datum}

theorem mem_unknownNames {x : String} :
    x ∈ unknownNames entries ↔ x ∈ (entries.keys.filter (· != "allowGlobals")).map quoted :=
  OrderedSet.mem_ofList (separated_text x)

/-- The unknown keys stand in order. -/
theorem pairwise_unknownNames : (unknownNames entries).Pairwise (· < ·) :=
  (OrderedSet.ofList ((entries.keys.filter (· != optionName)).map quoted)).increasing

/-- No unknown key is listed twice. -/
theorem nodup_unknownNames : (unknownNames entries).Nodup :=
  pairwise_unknownNames.imp fun {s t} (hlt : s < t) (heq : s = t) =>
    String.lt_irrefl t (heq ▸ hlt)

/-- **The unknown keys that are listed are all that there are**, each of them once. -/
theorem unknownNames_perm :
    (unknownNames entries).Perm ((entries.keys.filter (· != "allowGlobals")).map quoted) := by
  have hkeys : ((entries.keys.filter (· != "allowGlobals")).map quoted).Nodup :=
    (entries.nodup.filter _).map quoted_injective
  exact (List.perm_ext_iff_of_nodup nodup_unknownNames hkeys).2 fun x => mem_unknownNames

theorem unknownNames_eq_nil_iff :
    unknownNames entries = [] ↔ ∀ k ∈ entries.keys, k = "allowGlobals" := by
  have hlist : (entries.keys.filter (· != "allowGlobals")).map quoted = [] ↔
      ∀ k ∈ entries.keys, k = "allowGlobals" := by
    rw [List.map_eq_nil_iff, List.filter_eq_nil_iff]
    refine forall_congr' fun k => imp_congr_right fun _ => ?_
    rw [bne_iff_ne, not_not]
  have hperm : (unknownNames entries).Perm
      ((entries.keys.filter (· != "allowGlobals")).map quoted) := unknownNames_perm
  rw [← hlist]
  constructor
  · intro h
    exact (h ▸ hperm).nil_eq.symm
  · intro h
    exact (h ▸ hperm).eq_nil

end Keys

/-! ## 4. Options -/

section Options

variable {f : Forest} {options : Datum} {entries : Dictionary Datum} {v : Value} {a : Bool}

theorem allowGlobalsOf_eq_ok_iff : allowGlobalsOf entries = .ok a ↔
    entries.get? "allowGlobals" = some (.bool a) ∨
      entries.get? "allowGlobals" = none ∧ a = false := by
  rw [allowGlobalsOf, optionName]
  cases entries.get? "allowGlobals" with
  | none => simp [eq_comm]
  | some d => cases d <;> simp

theorem allowGlobalsOf_of_not_bool {d : Datum} (hd : entries.get? "allowGlobals" = some d)
    (hb : ∀ b, d ≠ .bool b) : allowGlobalsOf entries = .error (.optionNotBool d.shown) := by
  rw [allowGlobalsOf, optionName]
  rw [hd]
  cases d with
  | bool b => exact absurd rfl (hb b)
  | _ => rfl

theorem category_of_allowGlobalsOf {e : Failure} (h : allowGlobalsOf entries = .error e) :
    e.category = .invalidOptions := by
  unfold allowGlobalsOf at h
  split at h
  · cases h
  · cases h
  · obtain rfl := Except.error.inj h
    rfl

/-- Without unknown keys, there is no value of the option exactly when there are no keys. -/
theorem get?_eq_none_iff_keys (only : ∀ k ∈ entries.keys, k = "allowGlobals") :
    entries.get? "allowGlobals" = none ↔ entries.keys = [] := by
  rw [Dictionary.get?_eq_none_iff, List.eq_nil_iff_forall_not_mem]
  exact ⟨fun h k hk => h (only k hk ▸ hk), fun h => h _⟩

/-- **The checks of the options accept what the schema allows.** -/
theorem grants_iff : Grants options a ↔ ∃ entries, entriesOf options = .ok entries ∧
    unknownNames entries = [] ∧ allowGlobalsOf entries = .ok a := by
  constructor
  · intro h
    cases h with
    | nothing => exact ⟨.empty, rfl, rfl, rfl⟩
    | @silent entries none =>
        have only : ∀ k ∈ entries.keys, k = "allowGlobals" := by
          rw [none]
          exact nofun
        refine ⟨entries, rfl, unknownNames_eq_nil_iff.2 only, allowGlobalsOf_eq_ok_iff.2 ?_⟩
        exact Or.inr ⟨(get?_eq_none_iff_keys only).2 none, rfl⟩
    | told only value =>
        exact ⟨_, rfl, unknownNames_eq_nil_iff.2 only, allowGlobalsOf_eq_ok_iff.2 (Or.inl value)⟩
  · rintro ⟨entries, hentries, hnames, ha⟩
    have only := unknownNames_eq_nil_iff.1 hnames
    cases options with
    | null =>
        obtain rfl := Except.ok.inj hentries
        obtain rfl : false = a := Except.ok.inj ha
        exact .nothing
    | mapping entries' =>
        obtain rfl : entries' = entries := Except.ok.inj hentries
        rcases allowGlobalsOf_eq_ok_iff.1 ha with hv | ⟨hv, rfl⟩
        · exact .told only hv
        · exact .silent ((get?_eq_none_iff_keys only).1 hv)
    | _ => cases hentries

/-- Options with all keys known are judged by their value, and then by the source type. -/
theorem ofOptions_of_known (hentries : entriesOf options = .ok entries)
    (hnames : unknownNames entries = []) :
    ofOptions f options v = (do
      let a ← allowGlobalsOf entries
      let t ← sourceTypeOf f v
      return ⟨a, t = .module⟩) := by
  unfold ofOptions
  rw [hentries]
  simp only [bind, Except.bind, hnames]

theorem ofOptions_of_unknown (hentries : entriesOf options = .ok entries)
    (hnames : unknownNames entries ≠ []) :
    ofOptions f options v = .error (.unknownOptions (unknownNames entries)) := by
  unfold ofOptions
  rw [hentries]
  -- by `hnames` the branch without names is out
  simp only [bind, Except.bind]

end Options

end Policy

open Policy

/-! ## 5. The judgement -/

/-- **What comes of options and a source type.** -/
structure Policy.Judged (f : Forest) (options : Datum) (v : Value) : Prop where
  /-- Options and a source type make a policy exactly when they follow the schema, and it is the one
      that they describe. -/
  accepted : ∀ c, ofOptions f options v = .ok c ↔
    ∃ a t, Grants options a ∧ v.NamesSource t ∧ c = ⟨a, decide (t = .module)⟩
  /-- All failures are of one class. -/
  refused : ∀ e, ofOptions f options v = .error e → e.category = .invalidOptions
  /-- The first check is that the options are nothing or a dictionary. -/
  notMapping : options ≠ .null → (∀ entries, options ≠ .mapping entries) →
    ofOptions f options v = .error (.optionsNotMapping (Value.datumShape options))
  /-- The second check is that all keys are known. The message has the unknown ones as they are
      shown, each of them once, by the code points of what is shown. -/
  unknown : ∀ entries, options = .mapping entries → (∃ k ∈ entries.keys, k ≠ "allowGlobals") →
    ∃ names e, ofOptions f options v = .error e ∧
      e.message = "Unknown options: " ++ ", ".intercalate names ++ "." ∧
      names.Perm ((entries.keys.filter (· != "allowGlobals")).map quoted) ∧
      names.Pairwise (· < ·) ∧ names.Nodup
  /-- The third check is that the value of the option is a truth value, and a number is none. -/
  notBool : ∀ entries d, options = .mapping entries → (∀ k ∈ entries.keys, k = "allowGlobals") →
    entries.get? "allowGlobals" = some d → (∀ b, d ≠ .bool b) →
    ofOptions f options v = .error (.optionNotBool d.shown)
  /-- The last check is that the source type is one. -/
  notSource : (∃ a, Grants options a) → (∀ t, ¬ v.NamesSource t) →
    ofOptions f options v = .error (.notSourceType (v.shown f))

section Judgement

variable {f : Forest} {options : Datum} {v : Value}

theorem ofOptions_eq_ok_iff {c : Policy} : ofOptions f options v = .ok c ↔
    ∃ a t, Grants options a ∧ v.NamesSource t ∧ c = ⟨a, decide (t = .module)⟩ := by
  constructor
  · intro h
    obtain ⟨entries, hentries, _⟩ := Failure.bind_eq_ok.1 h
    by_cases hnames : unknownNames entries = []
    · rw [ofOptions_of_known hentries hnames] at h
      obtain ⟨a, ha, h⟩ := Failure.bind_eq_ok.1 h
      obtain ⟨t, ht, h⟩ := Failure.bind_eq_ok.1 h
      have hgrants : Grants options a := grants_iff.2 ⟨entries, hentries, hnames, ha⟩
      exact ⟨a, t, hgrants, sourceTypeOf_eq_ok_iff.1 ht, (Except.ok.inj h).symm⟩
    · rw [ofOptions_of_unknown hentries hnames] at h
      cases h
  · rintro ⟨a, t, hgrants, ht, rfl⟩
    obtain ⟨entries, hentries, hnames, ha⟩ := grants_iff.1 hgrants
    rw [ofOptions_of_known hentries hnames, ha, sourceTypeOf_eq_ok_iff.2 ht]
    rfl

/-- Whatever check fails, it is a failure of the options. -/
theorem category_of_ofOptions {e : Failure} (h : ofOptions f options v = .error e) :
    e.category = .invalidOptions := by
  rcases Failure.bind_eq_error.1 h with hentries | ⟨entries, hentries, _⟩
  · cases options with
    | null | mapping => cases hentries
    | _ =>
        obtain rfl := Except.error.inj hentries
        rfl
  by_cases hnames : unknownNames entries = []
  · rw [ofOptions_of_known hentries hnames] at h
    rcases Failure.bind_eq_error.1 h with ha | ⟨a, _, h⟩
    · rw [category_of_allowGlobalsOf ha]
    · rcases Failure.bind_eq_error.1 h with ht | ⟨t, _, h⟩
      · rw [category_of_sourceTypeOf ht]
      · cases h
  · rw [ofOptions_of_unknown hentries hnames] at h
    obtain rfl := Except.error.inj h
    rfl

end Judgement

/-- **Options and source types are judged by the schema**, whatever they are. -/
theorem ofOptions_follows_schema (f : Forest) (options : Datum) (v : Value) :
    Policy.Judged f options v where
  accepted _ := ofOptions_eq_ok_iff
  refused _ := category_of_ofOptions
  notMapping hnull hmapping := by
    cases options with
    | null => exact absurd rfl hnull
    | mapping entries => exact absurd rfl (hmapping entries)
    | _ => rfl
  unknown entries hentries hk := by
    subst hentries
    have hnames : unknownNames entries ≠ [] := fun h => by
      obtain ⟨k, hk, hne⟩ := hk
      exact hne (unknownNames_eq_nil_iff.1 h k hk)
    exact ⟨_, _, ofOptions_of_unknown rfl hnames, rfl, unknownNames_perm, pairwise_unknownNames,
      nodup_unknownNames⟩
  notBool entries d hentries only hd hb := by
    subst hentries
    rw [ofOptions_of_known rfl (unknownNames_eq_nil_iff.2 only), allowGlobalsOf_of_not_bool hd hb]
    rfl
  notSource hgrants hv := by
    obtain ⟨a, hgrants⟩ := hgrants
    obtain ⟨entries, hentries, hnames, ha⟩ := grants_iff.1 hgrants
    rw [ofOptions_of_known hentries hnames, ha, sourceTypeOf_of_not_names hv]
    rfl

end TagScope

import TagScope.Proofs.Reading.Pieces
import TagScope.Proofs.Value.Essence
import TagScope.Proofs.Value.Fields
/-!
# What is shown can be read

The constructor calls that values are shown as, read back.

* `reads_int`, `reads_whole`, `reads_identifier`: literals, one lemma for each sort.
* `reads_location`, `reads_name`, `reads_policy`: calls with checked arguments; for names **by
  induction on the path**, whatever stands around it.
* `Suffix`, `fills_suffix`: the location at the end of a call, which is left out where there is none.
* `Value.isReadable`, `reads_shown`: every value without decimals, lists, dictionaries and scopes.
* `Value.ReadBack`, `readBack`: **one reader gives back every value that is shown**, so that no two
  of them are shown alike.
-/

namespace TagScope

open Reading

/-! ## 1. Written forms -/

-- The equations that come with the definitions of `shown` are slow to check, since they compare
-- whole texts; these ones hold by unfolding.

namespace ElementName

variable (n p s : Identifier) (o : ElementName) (l : Option Location)

theorem shown_simple :
    (simple n l).shown = "SimpleName(" ++ n.shown ++ Location.argument l ++ ")" := rfl

theorem shown_member : (member o p l).shown
    = "MemberPath(" ++ o.shown ++ ", " ++ p.shown ++ Location.argument l ++ ")" := rfl

theorem shown_namespaced : (namespaced s n l).shown
    = "NamespacedName(" ++ s.shown ++ ", " ++ n.shown ++ Location.argument l ++ ")" := rfl

end ElementName

theorem Policy.shown_eq (c : Policy) :
    c.shown = "ResolutionConfig(allow_globals=" ++ Datum.boolShown c.allowGlobals
      ++ ", source_is_module=" ++ Datum.boolShown c.sourceIsModule ++ ")" := rfl

namespace Value

variable {v l : Value} {f : Forest}

theorem shown_reference_null :
    (reference v null).shown f = "Reference(" ++ v.shown f ++ "" ++ ")" := rfl

theorem shown_reference (hl : l ≠ null) : (reference v l).shown f
    = "Reference(" ++ v.shown f ++ (", location=" ++ l.shown f) ++ ")" := by
  cases l with
  | datum d =>
      cases d with
      | null => exact absurd rfl hl
      | _ => rfl
  | _ => rfl

theorem shown_diagnostic :
    (diagnostic l v).shown f = "Diagnostic(" ++ l.shown f ++ ", " ++ v.shown f ++ ")" := rfl

/-- Whether a value can be read: there is no decimal number, list, dictionary or scope in it. -/
def isReadable : Value → Bool
  | .datum (.decimal _) | .datum (.list _) | .datum (.mapping _) | .scope _ => false
  | .reference n l => n.isReadable && l.isReadable
  | .diagnostic l m => l.isReadable && m.isReadable
  | _ => true

end Value

namespace Reading

variable {cs : List Char} {u v l : Value} {f : Forest}

/-! ## 2. Literals -/

section Numerals

variable {m : Nat} {c : Char}

theorem isDigit_of_mem_toDigits (hc : c ∈ Nat.toDigits 10 m) : c.isDigit = true :=
  Nat.isDigit_of_mem_toDigits (by decide) (by decide) hc

theorem natural?_toDigits (m : Nat) : natural? (Nat.toDigits 10 m) = some m := by
  have hall : (Nat.toDigits 10 m).all Char.isDigit = true :=
    List.all_eq_true.2 fun _ => isDigit_of_mem_toDigits
  rw [natural?, if_pos ⟨Nat.toDigits_ne_nil, hall⟩, Nat.ofDigitChars_ten_toDigits]

/-- Digits alone are not taken for a numeral with a sign. -/
theorem integer?_toDigits (m : Nat) : integer? (Nat.toDigits 10 m) = some (m : Int) := by
  unfold integer?
  split
  · next ds hds =>
    have hsign : '-'.isDigit = true :=
      isDigit_of_mem_toDigits (m := m) (by rw [hds]; exact List.mem_cons_self)
    cases hsign
  · rw [natural?_toDigits]
    rfl

theorem isWordChar_of_isDigit (hc : c.isDigit = true) : isWordChar c = true := by
  simp [isWordChar, Char.isAlphanum, hc]

/-- **A decimal integer is read back**, with its sign. -/
theorem reads_int (n : Int) : Reads (toString n).toList (.datum (.int n)) := by
  have hdigits : ∀ m : Nat, m.repr.toList.all isWordChar = true := by
    intro m
    rw [Nat.toList_repr, List.all_eq_true]
    exact fun _ hc => isWordChar_of_isDigit (isDigit_of_mem_toDigits hc)
  rw [Int.toString_eq_repr]
  cases n with
  | ofNat m =>
      have hliteral : literal? m.repr = some (.datum (.int m)) := by
        rw [literal?, Nat.toList_repr, integer?_toDigits]
      exact reads_word ⟨Nat.repr_ne_empty, hdigits m⟩ hliteral
  | negSucc m =>
      have hchars : ("-" ++ (m + 1).repr).toList = '-' :: Nat.toDigits 10 (m + 1) := by
        simp
      have hword : IsWord ("-" ++ (m + 1).repr) := by
        refine ⟨by simp [← String.toList_inj], ?_⟩
        rw [hchars, ← Nat.toList_repr, List.all_cons, hdigits]
        rfl
      have hliteral : literal? ("-" ++ (m + 1).repr) = some (.datum (.int (.negSucc m))) := by
        rw [literal?, hchars, integer?, natural?_toDigits]
        rfl
      exact reads_word hword hliteral

end Numerals

theorem reads_bool (b : Bool) : Reads (Datum.boolShown b).toList (.datum (.bool b)) := by
  cases b <;> exact reads_word (by decide) (by rfl)

theorem reads_kind (k : ScopeKind) : Reads k.shown.toList (.kind k) := by
  cases k <;> exact reads_word (by decide) (by rfl)

theorem reads_sourceType (t : SourceType) : Reads t.shown.toList (.sourceType t) := by
  cases t <;> exact reads_word (by decide) (by rfl)

theorem reads_verdict (v : Verdict) : Reads v.shown.toList (.verdict v) := by
  cases v <;> exact reads_word (by decide) (by rfl)

theorem reads_whole (w : Whole) : Reads w.shown.toList (.ofWhole w) := by
  cases w with
  | int n => exact reads_int n
  | bool b => exact reads_bool b
  | kind k => exact reads_kind k

theorem reads_identifier (i : Identifier) : Reads i.shown.toList (.ofIdentifier i) := by
  cases i with
  | plain s ne => exact reads_quoted s
  | sourceType t => exact reads_sourceType t

/-! ## 3. Locations -/

theorem construct_location (l : Location) :
    construct "Location" ⟨[.ofWhole l.line, .ofWhole l.column], []⟩ = some (.location l) := by
  simp [construct, Value.buildLocation_ofWhole, Except.toOption]

theorem reads_location (l : Location) : Reads l.shown.toList (.location l) := by
  have hshown : l.shown.toList = "Location".toList ++ '('
      :: (l.line.shown.toList ++ ',' :: ' ' :: (l.column.shown.toList ++ [')'])) := by
    simp [Location.shown]
  rw [hshown]
  refine reads_call (by decide) ?_
  refine fills_comma (reads_whole l.line) rfl ?_
  exact fills_last (reads_whole l.column) rfl (construct_location l)

/-- How the argument for a location is written; nothing is not written at all. -/
inductive Suffix : List Char → Value → Prop where
  | absent : Suffix [] .null
  | present {ds : List Char} {l : Value} (hds : Reads ds l) :
    Suffix (", location=".toList ++ ds) l

theorem suffix_argument (l : Option Location) :
    Suffix (Location.argument l).toList (.ofLocation? l) := by
  cases l with
  | none => exact .absent
  | some l =>
      rw [Location.argument, String.toList_append]
      exact .present (reads_location l)

/-- The last positional argument and the location behind it. -/
theorem fills_suffix {suffix : List Char} (name : String) (positional : List Value)
    (hcs : Reads cs v) (hsuffix : Suffix suffix l)
    (hbuilt : ∀ named, location? named = some l →
      construct name ⟨positional ++ [v], named⟩ = some u) :
    Fills ⟨name, ⟨positional, []⟩, none⟩ (cs ++ (suffix ++ [')'])) u := by
  cases hsuffix with
  | absent => exact fills_last hcs rfl (hbuilt [] rfl)
  | @present ds l hds =>
      have hchars : cs ++ (", location=".toList ++ ds ++ [')'])
          = cs ++ ',' :: ' ' :: ("location".toList ++ '=' :: (ds ++ [')'])) := by
        simp
      rw [hchars]
      refine fills_comma hcs rfl ?_
      refine fills_named (by decide) rfl ?_
      exact fills_last hds rfl (hbuilt [("location", l)] rfl)

/-! ## 4. Names -/

section Constructors

variable {named : List (String × Value)} {k : Option Location}

theorem construct_simple (n : Identifier) (hnamed : location? named = some (.ofLocation? k)) :
    construct "SimpleName" ⟨[.ofIdentifier n], named⟩ = some (.name (.simple n k)) := by
  simp [construct, hnamed, Value.buildSimple_ofIdentifier, Except.toOption]

theorem construct_member (o : ElementName) (p : Identifier)
    (hnamed : location? named = some (.ofLocation? k)) :
    construct "MemberPath" ⟨[.name o, .ofIdentifier p], named⟩ = some (.name (.member o p k)) := by
  simp [construct, hnamed, Value.buildMember_ofIdentifier, Except.toOption]

theorem construct_namespaced (s n : Identifier)
    (hnamed : location? named = some (.ofLocation? k)) :
    construct "NamespacedName" ⟨[.ofIdentifier s, .ofIdentifier n], named⟩
      = some (.name (.namespaced s n k)) := by
  simp [construct, hnamed, Value.buildNamespaced_ofIdentifier, Except.toOption]

end Constructors

/-- **The constructor call of a name is read back**, however deep the paths in it are. -/
theorem reads_name (n : ElementName) : Reads n.shown.toList (.name n) := by
  induction n with
  | simple n l =>
      have hshown : (ElementName.simple n l).shown.toList = "SimpleName".toList ++ '('
          :: (n.shown.toList ++ ((Location.argument l).toList ++ [')'])) := by
        simp [ElementName.shown_simple]
      rw [hshown]
      refine reads_call (by decide) ?_
      exact fills_suffix "SimpleName" [] (reads_identifier n) (suffix_argument l)
        fun _ => construct_simple n
  | member o p l ih =>
      have hshown : (ElementName.member o p l).shown.toList = "MemberPath".toList ++ '('
          :: (o.shown.toList ++ ',' :: ' '
            :: (p.shown.toList ++ ((Location.argument l).toList ++ [')']))) := by
        simp [ElementName.shown_member]
      rw [hshown]
      refine reads_call (by decide) ?_
      refine fills_comma ih rfl ?_
      exact fills_suffix "MemberPath" [.name o] (reads_identifier p) (suffix_argument l)
        fun _ => construct_member o p
  | namespaced s n l =>
      have hshown : (ElementName.namespaced s n l).shown.toList = "NamespacedName".toList ++ '('
          :: (s.shown.toList ++ ',' :: ' '
            :: (n.shown.toList ++ ((Location.argument l).toList ++ [')']))) := by
        simp [ElementName.shown_namespaced]
      rw [hshown]
      refine reads_call (by decide) ?_
      refine fills_comma (reads_identifier s) rfl ?_
      exact fills_suffix "NamespacedName" [.ofIdentifier s] (reads_identifier n)
        (suffix_argument l) fun _ => construct_namespaced s n

/-! ## 5. Values -/

theorem reads_policy (c : Policy) : Reads c.shown.toList (.policy c) := by
  have hshown : c.shown.toList = "ResolutionConfig".toList ++ '('
      :: ("allow_globals".toList ++ '=' :: ((Datum.boolShown c.allowGlobals).toList ++ ',' :: ' '
        :: ("source_is_module".toList ++ '=' :: ((Datum.boolShown c.sourceIsModule).toList
          ++ [')'])))) := by
    simp [Policy.shown_eq]
  rw [hshown]
  refine reads_call (by decide) ?_
  refine fills_named (by decide) rfl ?_
  refine fills_comma (reads_bool c.allowGlobals) rfl ?_
  refine fills_named (by decide) rfl ?_
  exact fills_last (reads_bool c.sourceIsModule) rfl rfl

theorem reads_reference (hv : Reads (v.shown f).toList v) (hl : Reads (l.shown f).toList l) :
    Reads ((Value.reference v l).shown f).toList (.reference v l) := by
  have hbuilt : ∀ named, location? named = some l →
      construct "Reference" ⟨[] ++ [v], named⟩ = some (.reference v l) := by
    intro named hnamed
    simp [construct, hnamed]
  have hshown : ∃ suffix, Suffix suffix l ∧ ((Value.reference v l).shown f).toList
      = "Reference".toList ++ '(' :: ((v.shown f).toList ++ (suffix ++ [')'])) := by
    by_cases hnull : l = .null
    · subst hnull
      exact ⟨[], .absent, by simp [Value.shown_reference_null]⟩
    · exact ⟨_, .present hl, by simp [Value.shown_reference hnull]⟩
  obtain ⟨suffix, hsuffix, hshown⟩ := hshown
  rw [hshown]
  refine reads_call (by decide) ?_
  exact fills_suffix "Reference" [] hv hsuffix hbuilt

theorem reads_diagnostic (hl : Reads (l.shown f).toList l) (hv : Reads (v.shown f).toList v) :
    Reads ((Value.diagnostic l v).shown f).toList (.diagnostic l v) := by
  have hshown : ((Value.diagnostic l v).shown f).toList = "Diagnostic".toList ++ '('
      :: ((l.shown f).toList ++ ',' :: ' ' :: ((v.shown f).toList ++ [')'])) := by
    simp [Value.shown_diagnostic]
  rw [hshown]
  refine reads_call (by decide) ?_
  refine fills_comma hl rfl ?_
  exact fills_last hv rfl rfl

/-- **Every readable value is read back from its constructor call**, as it was given. -/
theorem reads_shown (hv : v.isReadable = true) : Reads (v.shown f).toList v := by
  induction v with
  | datum d =>
      cases d with
      | null => exact reads_word (w := "None") (by decide) rfl
      | bool b => exact reads_bool b
      | int n => exact reads_int n
      | text s => exact reads_quoted s
      | decimal _ | list _ | mapping _ => cases hv
  | kind k => exact reads_kind k
  | sourceType t => exact reads_sourceType t
  | verdict v => exact reads_verdict v
  | location l => exact reads_location l
  | name n => exact reads_name n
  | reference n l ihn ihl =>
      obtain ⟨hn, hl⟩ := Bool.and_eq_true_iff.1 hv
      exact reads_reference (ihn hn) (ihl hl)
  | diagnostic l m ihl ihm =>
      obtain ⟨hl, hm⟩ := Bool.and_eq_true_iff.1 hv
      exact reads_diagnostic (ihl hl) (ihm hm)
  | policy c => exact reads_policy c
  | scope i => cases hv

end Reading

/-! ## 6. Nothing is lost -/

/-- **What reading constructor calls gives back.** -/
structure Value.ReadBack : Prop where
  /-- Locations, names and policies can be read. -/
  location : ∀ l : Location, (Value.location l).isReadable = true
  name : ∀ n : ElementName, (Value.name n).isReadable = true
  policy : ∀ c : Policy, (Value.policy c).isReadable = true
  /-- References and diagnostics can be read, with any text and with a location or none. -/
  reference : ∀ (v : Value) (s : String) (l : Option Location), v.text? = some s →
    (Value.reference v (.ofLocation? l)).isReadable = true
  diagnostic : ∀ (v : Value) (s : String) (l : Option Location), v.text? = some s →
    (Value.diagnostic (.ofLocation? l) v).isReadable = true
  /-- The constructor call of a value that can be read is read as that very value. -/
  read : ∀ (f : Forest) (v : Value), v.isReadable = true → Reading.read (v.shown f) = some v
  /-- The value that is read is equal to the one that was shown, and of the same class. -/
  same : ∀ (f : Forest) (v : Value), v.isReadable = true →
    ∃ w, Reading.read (v.shown f) = some w ∧ w.same v = true ∧ w.shape = v.shape
  /-- Two values that are shown alike are one value, and equal. -/
  unique : ∀ (f g : Forest) (v w : Value), v.isReadable = true → w.isReadable = true →
    v.shown f = w.shown g → v = w ∧ v.same w = true

theorem Value.isReadable_of_text {v : Value} {s : String} (hv : v.text? = some s) :
    v.isReadable = true := by
  cases v with
  | datum d =>
      cases d with
      | text s => rfl
      | _ => cases hv
  | sourceType t => rfl
  | _ => cases hv

theorem Value.isReadable_ofLocation? (l : Option Location) :
    (Value.ofLocation? l).isReadable = true := by
  cases l <;> rfl

/-- **Constructor calls lose nothing**: one reader gives every value back. -/
theorem readBack : Value.ReadBack where
  location _ := rfl
  name _ := rfl
  policy _ := rfl
  reference v _ l hv :=
    Bool.and_eq_true_iff.2 ⟨Value.isReadable_of_text hv, Value.isReadable_ofLocation? l⟩
  diagnostic v _ l hv :=
    Bool.and_eq_true_iff.2 ⟨Value.isReadable_ofLocation? l, Value.isReadable_of_text hv⟩
  read _ _ hv := Reading.read_of_reads (Reading.reads_shown hv)
  same _ v hv := ⟨v, Reading.read_of_reads (Reading.reads_shown hv), Value.same_refl v, rfl⟩
  unique f g v w hv hw hshown := by
    have hreadv : Reading.read (v.shown f) = some v :=
      Reading.read_of_reads (Reading.reads_shown hv)
    have hreadw : Reading.read (w.shown g) = some w :=
      Reading.read_of_reads (Reading.reads_shown hw)
    rw [hshown, hreadw] at hreadv
    obtain rfl := Option.some.inj hreadv
    exact ⟨rfl, Value.same_refl _⟩

end TagScope

import TagScope.Value.Equality
/-!
# What equality looks at

Equality of values is defined by cases on two values at a time. Here each value has an essence of
its own, and equal values are those with one essence.

* `Essence`, `Value.essence`: a number is a number whatever it was given as, a text is a text, and a
  dictionary is what it has under each key.
* `Datum.same_iff`, `ElementName.same_iff`, `Value.same_iff`: **two values are equal exactly when
  they have the same essence.** So equality is reflexive, symmetric and transitive.
* `Value.same_eq_opinion`: equality is what the first value answers, or else the second one.
-/

namespace TagScope

/-! ## 1. Essences -/

/-- What equality can see of a value. -/
inductive Essence where
  | null
  | number (n : Int)
  | decimal (d : Decimal)
  | text (s : String)
  | list (items : List Essence)
  /-- What there is under each key. -/
  | mapping (entry : String → Option Essence)
  | verdict (v : Verdict)
  | location (line column : Int)
  | simple (name : String) (location : Essence)
  | member (object : Essence) (property : String) (location : Essence)
  | namespaced (space localName : String) (location : Essence)
  | reference (name location : Essence)
  | diagnostic (location message : Essence)
  | policy (c : Policy)
  | scope (i : Nat)

namespace Datum

mutual

/-- The essence of a datum. -/
def essence : Datum → Essence
  | .null => .null
  | .bool b => .number (if b then 1 else 0)
  | .int n => .number n
  | .decimal d => .decimal d
  | .text s => .text s
  | .list items => .list (essences items)
  | .mapping entries => .mapping (entryEssence entries)

/-- The essences of the elements of a list. -/
def essences : List Datum → List Essence
  | [] => []
  | d :: rest => essence d :: essences rest

/-- The essence of what a dictionary has under a key. -/
def entryEssence : Dictionary Datum → String → Option Essence
  | ⟨keys, _, value⟩, k => (keys.finIdxOf? k).map fun i => essence (value i)

end

end Datum

/-- The essence of a location. -/
def Location.essence (l : Location) : Essence := .location l.line.toInt l.column.toInt

/-- The essence of a location that may be absent. -/
def Location.essence? : Option Location → Essence
  | none => .null
  | some l => l.essence

/-- The essence of an element name. -/
def ElementName.essence : ElementName → Essence
  | .simple n l => .simple n.text (Location.essence? l)
  | .member o p l => .member o.essence p.text (Location.essence? l)
  | .namespaced s n l => .namespaced s.text n.text (Location.essence? l)

/-- The essence of a value. -/
def Value.essence : Value → Essence
  | .datum d => d.essence
  | .kind k => .number k.number
  | .sourceType t => .text t.word
  | .verdict v => .verdict v
  | .location l => l.essence
  | .name n => n.essence
  | .reference n l => .reference n.essence l.essence
  | .diagnostic l m => .diagnostic l.essence m.essence
  | .policy c => .policy c
  | .scope i => .scope i

/-! ## 2. Data -/

namespace Dictionary

variable {α : Type} {d : Dictionary α} {k : String}

theorem mem_keys_iff : k ∈ d.keys ↔ ∃ a, d.get? k = some a := by
  constructor
  · intro h
    obtain ⟨i, hi, rfl⟩ := List.getElem_of_mem h
    exact ⟨d.value ⟨i, hi⟩, get?_eq_some.2 ⟨⟨i, hi⟩, rfl, rfl⟩⟩
  · rintro ⟨a, h⟩
    obtain ⟨i, rfl, _⟩ := get?_eq_some.1 h
    exact List.getElem_mem i.isLt

theorem get?_eq_none_iff : d.get? k = none ↔ k ∉ d.keys := by
  rw [mem_keys_iff, Option.eq_none_iff_forall_ne_some, not_exists]

end Dictionary

namespace Datum

section Entries

variable {d m : Dictionary Datum}

theorem entryEssence_eq (k : String) : entryEssence d k = (d.get? k).map essence := by
  obtain ⟨keys, nodup, value⟩ := d
  rw [entryEssence, Dictionary.get?, Option.map_map]
  rfl

/-- **Two dictionaries are equal when the second one has the keys of the first and no others, and an
    equal value under each of them.** -/
theorem sameEntries_iff_get? : sameEntries d m = true ↔
    (∀ k ∈ m.keys, k ∈ d.keys) ∧
      ∀ i : Fin d.keys.length, ∃ b, m.get? d.keys[i] = some b ∧ (d.value i).same b = true := by
  obtain ⟨keys, nodup, value⟩ := d
  simp only [sameEntries, Bool.and_eq_true, List.all_eq_true, decide_eq_true_eq,
    List.mem_finRange, forall_const]
  refine and_congr_right fun _ => forall_congr' fun i => ?_
  cases m.get? keys[i] with
  | none => simp
  | some b => simp

/-- Where the values of a dictionary are told by their essences, so is the dictionary. -/
theorem sameEntries_iff_of_values
    (hvalue : ∀ i b, (d.value i).same b = true ↔ (d.value i).essence = b.essence) :
    sameEntries d m = true ↔ entryEssence d = entryEssence m := by
  have hget : ∀ i, d.get? d.keys[i] = some (d.value i) := fun i =>
    Dictionary.get?_eq_some.2 ⟨i, rfl, rfl⟩
  rw [sameEntries_iff_get?]
  constructor
  · intro ⟨hkeys, hentries⟩
    funext k
    rw [entryEssence_eq, entryEssence_eq]
    cases hd : d.get? k with
    | none =>
        have hk : k ∉ d.keys := Dictionary.get?_eq_none_iff.1 hd
        rw [Dictionary.get?_eq_none_iff.2 fun h => hk (hkeys k h)]
    | some a =>
        obtain ⟨i, rfl, rfl⟩ := Dictionary.get?_eq_some.1 hd
        obtain ⟨b, hb, hab⟩ := hentries i
        rw [hb]
        exact congrArg some ((hvalue i b).1 hab)
  · intro h
    have hat : ∀ k, (d.get? k).map essence = (m.get? k).map essence := fun k => by
      rw [← entryEssence_eq, ← entryEssence_eq, h]
    refine ⟨fun k hk => ?_, fun i => ?_⟩
    · obtain ⟨b, hb⟩ := Dictionary.mem_keys_iff.1 hk
      have hk' := hat k
      rw [hb, Option.map_some] at hk'
      obtain ⟨a, ha, _⟩ := Option.map_eq_some_iff.1 hk'
      exact Dictionary.mem_keys_iff.2 ⟨a, ha⟩
    · have hi := hat d.keys[i]
      rw [hget, Option.map_some] at hi
      obtain ⟨b, hb, hab⟩ := Option.map_eq_some_iff.1 hi.symm
      exact ⟨b, hb, (hvalue i b).2 hab.symm⟩

end Entries

mutual

/-- **Two data are equal exactly when they have the same essence.** -/
theorem same_iff : ∀ {a b : Datum}, a.same b = true ↔ a.essence = b.essence
  | .null, b => by cases b <;> simp [same, essence, toInt?]
  | .bool p, b => by cases b <;> simp [same, essence, toInt?]
  | .int n, b => by cases b <;> simp [same, essence, toInt?]
  | .decimal d, b => by cases b <;> simp [same, essence, toInt?]
  | .text s, b => by cases b <;> simp [same, essence, toInt?]
  | .list l, b => by cases b <;> simp [same, essence, toInt?, sameAll_iff]
  | .mapping l, b => by cases b <;> simp [same, essence, toInt?, sameEntries_iff]

theorem sameAll_iff : ∀ {l m : List Datum}, sameAll l m = true ↔ essences l = essences m
  | [], m => by cases m <;> simp [sameAll, essences]
  | a :: l, m => by cases m <;> simp [sameAll, essences, same_iff, sameAll_iff]

theorem sameEntries_iff : ∀ {l m : Dictionary Datum},
    sameEntries l m = true ↔ entryEssence l = entryEssence m
  | ⟨_, _, value⟩, _ => sameEntries_iff_of_values fun i b => same_iff (a := value i) (b := b)

end

/-- A datum counts as an integer exactly when equality sees a number in it. -/
theorem toInt?_eq_some_iff {d : Datum} {n : Int} : d.toInt? = some n ↔ d.essence = .number n := by
  cases d <;> simp [toInt?, essence]

end Datum

/-! ## 3. Locations and names -/

theorem SourceType.word_inj {t u : SourceType} : t.word = u.word ↔ t = u := by
  cases t <;> cases u <;> decide

namespace Location

theorem same_iff {l m : Location} : l.same m = true ↔ l.essence = m.essence := by
  simp [same, essence]

theorem same?_iff {l m : Option Location} : same? l m = true ↔ essence? l = essence? m := by
  cases l with
  | none => cases m <;> simp [same?, essence?, essence]
  | some l => cases m <;> simp [same?, essence?, same_iff, essence]

end Location

namespace ElementName

/-- **Two names are equal exactly when they have the same essence.** -/
theorem same_iff {n m : ElementName} : n.same m = true ↔ n.essence = m.essence := by
  induction n generalizing m with
  | simple n l => cases m <;> simp [same, essence, Location.same?_iff]
  | member o p l ih =>
      cases m with
      | member u q k =>
          simp only [same, essence, Bool.and_eq_true, beq_iff_eq, Location.same?_iff, ih,
            Essence.member.injEq]
          exact ⟨fun ⟨⟨hp, hl⟩, ho⟩ => ⟨ho, hp, hl⟩, fun ⟨ho, hp, hl⟩ => ⟨⟨hp, hl⟩, ho⟩⟩
      | _ => simp [same, essence]
  | namespaced s n l => cases m <;> simp [same, essence, Location.same?_iff, and_assoc]

end ElementName

/-! ## 4. Values -/

namespace Value

/-- **Two values are equal exactly when they have the same essence.** -/
theorem same_iff {v w : Value} : v.same w = true ↔ v.essence = w.essence := by
  induction v generalizing w with
  | datum d =>
      cases w with
      | datum e => exact Datum.same_iff
      | kind k => simp [same, essence, Datum.toInt?_eq_some_iff]
      | name n => cases d <;> cases n <;> simp [same, essence, Datum.essence, ElementName.essence]
      | sourceType t =>
          cases d with
          | text s => simp [same, essence, Datum.essence, eq_comm (a := s)]
          | _ => simp [same, essence, Datum.essence]
      | _ => cases d <;> simp [same, essence, Datum.essence, Location.essence]
  | kind k =>
      cases w with
      | datum d =>
          simp only [same, essence, beq_iff_eq, Datum.toInt?_eq_some_iff]
          exact eq_comm
      | kind m =>
          simp only [same, essence, beq_iff_eq, Essence.number.injEq, Int.natCast_inj]
          exact ⟨fun h => h ▸ rfl, ScopeKind.number_inj⟩
      | name n => cases n <;> simp [same, essence, ElementName.essence]
      | _ => simp [same, essence, Location.essence]
  | sourceType t =>
      cases w with
      | datum d => cases d <;> simp [same, essence, Datum.essence]
      | sourceType u => simp [same, essence, SourceType.word_inj]
      | name n => cases n <;> simp [same, essence, ElementName.essence]
      | _ => simp [same, essence, Location.essence]
  | verdict v =>
      cases w with
      | datum d => cases d <;> simp [same, essence, Datum.essence]
      | name n => cases n <;> simp [same, essence, ElementName.essence]
      | _ => simp [same, essence, Location.essence]
  | location l =>
      cases w with
      | datum d => cases d <;> simp [same, essence, Datum.essence, Location.essence]
      | location m => exact Location.same_iff
      | name n => cases n <;> simp [same, essence, ElementName.essence, Location.essence]
      | _ => simp [same, essence, Location.essence]
  | name n =>
      cases w with
      | datum d => cases d <;> cases n <;> simp [same, essence, Datum.essence, ElementName.essence]
      | name m => exact ElementName.same_iff
      | _ => cases n <;> simp [same, essence, ElementName.essence, Location.essence]
  | reference n l ihn ihl =>
      cases w with
      | datum d => cases d <;> simp [same, essence, Datum.essence]
      | name n => cases n <;> simp [same, essence, ElementName.essence]
      | _ => simp [same, essence, Location.essence, ihn, ihl]
  | diagnostic l m ihl ihm =>
      cases w with
      | datum d => cases d <;> simp [same, essence, Datum.essence]
      | name n => cases n <;> simp [same, essence, ElementName.essence]
      | _ => simp [same, essence, Location.essence, ihl, ihm]
  | policy c =>
      cases w with
      | datum d => cases d <;> simp [same, essence, Datum.essence]
      | name n => cases n <;> simp [same, essence, ElementName.essence]
      | _ => simp [same, essence, Location.essence]
  | scope i =>
      cases w with
      | datum d => cases d <;> simp [same, essence, Datum.essence]
      | name n => cases n <;> simp [same, essence, ElementName.essence]
      | _ => simp [same, essence, Location.essence]

/-! ## 5. Laws of equality -/

variable {a b c v w : Value}

theorem same_refl (v : Value) : v.same v = true := same_iff.2 rfl

theorem same_symm (h : v.same w = true) : w.same v = true := same_iff.2 (same_iff.1 h).symm

theorem same_trans (h : a.same b = true) (h' : b.same c = true) : a.same c = true :=
  same_iff.2 ((same_iff.1 h).trans (same_iff.1 h'))

theorem same_comm (v w : Value) : v.same w = w.same v :=
  Bool.eq_iff_iff.2 ⟨same_symm, same_symm⟩

/-- What equals the same value is equal in all its answers. -/
theorem same_congr (h : v.same w = true) (a : Value) : a.same v = a.same w :=
  Bool.eq_iff_iff.2 ⟨fun h' => same_trans h' h, fun h' => same_trans h' (same_symm h)⟩

/-! ## 6. One value asked after the other -/

section Opinions

variable {d e : Datum} {k : ScopeKind} {r : Bool}

/-- A datum is equal to a kind when it is equal to its number. -/
theorem same_datum_kind : (datum d).same (kind k) = d.same (.int k.number) := by
  rw [Bool.eq_iff_iff, same_iff, Datum.same_iff]
  rfl

/-- A kind is equal to a datum when its number is. -/
theorem same_kind_datum : (kind k).same (datum d) = (Datum.int k.number).same d := by
  rw [Bool.eq_iff_iff, same_iff, Datum.same_iff]
  rfl

theorem datumOpinion_eq_some (h : datumOpinion d e = some r) : r = d.same e := by
  cases d <;> cases e <;> simp_all [datumOpinion, Datum.same, Datum.toInt?]

theorem same_of_no_datumOpinion (h : datumOpinion d e = none) (h' : datumOpinion e d = none) :
    d.same e = false := by
  cases d <;> cases e <;> simp_all [datumOpinion, Datum.same, Datum.toInt?]

theorem onlyYes_eq_some {s : Bool} (h : onlyYes s = some r) : r = s := by
  cases s <;> simp_all [onlyYes]

theorem eq_false_of_onlyYes {s : Bool} (h : onlyYes s = none) : s = false := by
  cases s <;> simp_all [onlyYes]

/-- **An answer of the first value is right.** -/
theorem opinion_eq_some (h : v.opinion w = some r) : r = v.same w := by
  cases v with
  | datum d =>
      cases w with
      | datum e => exact datumOpinion_eq_some h
      | kind k => exact (datumOpinion_eq_some h).trans same_datum_kind.symm
      | sourceType t => cases d <;> simp_all [opinion, same]
      | _ => simp [opinion] at h
  | kind k =>
      cases w with
      | datum e =>
          simp only [opinion] at h
          exact (datumOpinion_eq_some h).trans same_kind_datum.symm
      | _ => simp_all [opinion, same]
  | sourceType t =>
      cases w with
      | datum e => cases e <;> simp_all [opinion, same]
      | _ => simp_all [opinion, same]
  | verdict v =>
      cases w with
      | verdict w => exact onlyYes_eq_some h
      | _ => simp [opinion] at h
  | scope i =>
      cases w with
      | scope j => exact onlyYes_eq_some h
      | _ => simp [opinion] at h
  | _ => cases w <;> simp_all [opinion, same]

/-- **Where neither value has an answer they are not equal.** -/
theorem same_of_no_opinion (h : v.opinion w = none) (h' : w.opinion v = none) :
    v.same w = false := by
  cases v with
  | datum d =>
      cases w with
      | datum e => exact same_of_no_datumOpinion h h'
      | kind k => exact same_datum_kind.trans (same_of_no_datumOpinion h h')
      | sourceType t => cases d <;> simp_all [opinion, same]
      | _ => rfl
  | kind k =>
      cases w with
      | datum e => exact same_kind_datum.trans (same_of_no_datumOpinion h h')
      | kind m => simp [opinion] at h
      | _ => rfl
  | sourceType t =>
      cases w with
      | datum e => cases e <;> simp_all [opinion, same]
      | sourceType u => simp [opinion] at h
      | _ => rfl
  | verdict v =>
      cases w with
      | verdict w => exact eq_false_of_onlyYes h
      | _ => rfl
  | scope i =>
      cases w with
      | scope j => exact eq_false_of_onlyYes h
      | _ => rfl
  | _ => cases w <;> simp_all [opinion, same]

/-- **A value always has an answer about itself**, and it is yes. -/
theorem opinion_self (v : Value) : v.opinion v = some true := by
  cases v with
  | datum d => cases d <;> simp [opinion, datumOpinion, Datum.toInt?, Datum.same_iff]
  | location l => simp [opinion, Location.same_iff]
  | name n => simp [opinion, ElementName.same_iff]
  | reference n l => simp [opinion, same_refl]
  | diagnostic l m => simp [opinion, same_refl]
  | _ => simp [opinion, onlyYes]

/-- **Equality is what the first value answers, or else the second one**; where neither of them has
    an answer the values are not equal. -/
theorem same_eq_opinion (v w : Value) :
    v.same w = ((v.opinion w).or (w.opinion v)).getD false := by
  cases h : v.opinion w with
  | some r => exact (opinion_eq_some h).symm
  | none =>
      cases h' : w.opinion v with
      | some r => exact (same_comm v w).trans (opinion_eq_some h').symm
      | none => exact same_of_no_opinion h h'

end Opinions

/-! ## 7. Classes -/

/-- Whether a value is of one of the types of this library, rather than plain data. -/
def isLibrary : Value → Bool
  | .datum _ => false
  | _ => true

/-- **Values of two types of this library are not equal.** -/
theorem same_of_shape_ne (hv : v.isLibrary = true) (hw : w.isLibrary = true)
    (h : v.shape ≠ w.shape) : v.same w = false := by
  cases v with
  | name n =>
      cases w with
      | name m => cases n <;> cases m <;> simp_all [same, ElementName.same, shape, nameShape]
      | _ => simp_all [same, isLibrary]
  | _ => cases w <;> simp_all [same, isLibrary, shape]

end Value

end TagScope

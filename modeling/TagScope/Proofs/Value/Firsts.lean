import TagScope.Proofs.Value.Hashing
import TagScope.Session.Step
/-!
# First equal values

Equality and hashing together: the laws of both, and what follows for the places of first equal
values in a list.

* `Value.FirstPlaces`, `firstPlaces_firsts`: **each value has the place of the first one that is
  equal to it**, and that one has the same hash, so that a dictionary finds it.
* `Value.EqualityLaws`, `equalityLaws`: equality is an equivalence relation, values of two types of
  this library are not equal, and **equal values have equal hashes**.
* `wordHasher`: hashes that are machine words.
-/

namespace TagScope

variable {H : Type} (h : Hasher H)

namespace Value

/-! ## 1. Places -/

/-- **What the places of first equal values are**, for values that have a hash. -/
structure FirstPlaces (vs : List Value) (first : List Nat) : Prop where
  /-- Each value has a place. -/
  length : first.length = vs.length
  /-- The place of a value is not behind the value. -/
  le : ∀ i k : Nat, first[i]? = some k → k ≤ i
  /-- The value at a place has that very place. -/
  settled : ∀ i k : Nat, first[i]? = some k → first[k]? = some k
  /-- Two values have one place exactly when they are equal. -/
  iff_same : ∀ (i j k m : Nat) (v w : Value), vs[i]? = some v → vs[j]? = some w →
    first[i]? = some k → first[j]? = some m → (k = m ↔ v.same w = true)
  /-- At the place of a value there is an equal one with the same hash. -/
  found : ∀ (i k : Nat) (v : Value), vs[i]? = some v → first[i]? = some k →
    ∃ w, vs[k]? = some w ∧ w.same v = true ∧ w.hash h = v.hash h
  /-- Before the place of a value there is no equal one. -/
  least : ∀ (i j k : Nat) (v w : Value), vs[i]? = some v → first[i]? = some k → j < k →
    vs[j]? = some w → w.same v = false

section Places

variable {vs : List Value} {v w : Value} {i j k : Nat}

/-- The place of the first value that is equal to `v`. -/
def place (vs : List Value) (v : Value) : Nat := vs.findIdx fun w => w.same v

theorem getElem?_firsts : (firsts vs)[i]? = some k ↔ ∃ v, vs[i]? = some v ∧ place vs v = k := by
  unfold firsts place
  rw [List.getElem?_map, Option.map_eq_some_iff]

/-- Where a value stands, its place is not further on. -/
theorem place_le (hv : vs[i]? = some v) : place vs v ≤ i := by
  obtain ⟨hi, rfl⟩ := List.getElem?_eq_some_iff.1 hv
  refine Nat.le_of_not_lt fun hlt => ?_
  have hnot := List.not_of_lt_findIdx hlt
  rw [same_refl] at hnot
  cases hnot

/-- At the place of a value there is an equal one. -/
theorem exists_at_place (hv : vs[i]? = some v) :
    ∃ w, vs[place vs v]? = some w ∧ w.same v = true := by
  have hi : i < vs.length := (List.getElem?_eq_some_iff.1 hv).1
  have hlt : vs.findIdx (fun w => w.same v) < vs.length := Nat.lt_of_le_of_lt (place_le hv) hi
  exact ⟨_, List.getElem?_eq_getElem hlt, List.findIdx_getElem (w := hlt)⟩

/-- Equal values have one place. -/
theorem place_congr (hs : v.same w = true) : place vs v = place vs w := by
  unfold place
  congr 1
  funext u
  exact same_congr hs u

/-- **Two members of a list have one place exactly when they are equal.** -/
theorem place_eq_iff (hv : vs[i]? = some v) (hw : vs[j]? = some w) :
    place vs v = place vs w ↔ v.same w = true := by
  refine ⟨fun heq => ?_, place_congr⟩
  obtain ⟨u, hu, huv⟩ := exists_at_place hv
  obtain ⟨u', hu', huw⟩ := exists_at_place hw
  rw [← heq, hu] at hu'
  obtain rfl := Option.some.inj hu'
  exact same_trans (same_symm huv) huw

/-- **The places that are answered are those of the first equal values.** -/
theorem firstPlaces_firsts (vs : List Value) : FirstPlaces h vs (firsts vs) where
  length := by
    unfold firsts
    rw [List.length_map]
  le i k hk := by
    obtain ⟨v, hv, rfl⟩ := getElem?_firsts.1 hk
    exact place_le hv
  settled i k hk := by
    obtain ⟨v, hv, rfl⟩ := getElem?_firsts.1 hk
    obtain ⟨w, hw, hs⟩ := exists_at_place hv
    exact getElem?_firsts.2 ⟨w, hw, place_congr hs⟩
  iff_same i j k m v w hv hw hk hm := by
    obtain ⟨v', hv', rfl⟩ := getElem?_firsts.1 hk
    obtain ⟨w', hw', rfl⟩ := getElem?_firsts.1 hm
    obtain rfl := Option.some.inj (hv.symm.trans hv')
    obtain rfl := Option.some.inj (hw.symm.trans hw')
    exact place_eq_iff hv hw
  found i k v hv hk := by
    obtain ⟨v', hv', rfl⟩ := getElem?_firsts.1 hk
    obtain rfl := Option.some.inj (hv.symm.trans hv')
    obtain ⟨w, hw, hs⟩ := exists_at_place hv
    exact ⟨w, hw, hs, hash_eq_of_same h hs⟩
  least i j k v w hv hk hlt hw := by
    obtain ⟨v', hv', rfl⟩ := getElem?_firsts.1 hk
    obtain rfl := Option.some.inj (hv.symm.trans hv')
    obtain ⟨hj, rfl⟩ := List.getElem?_eq_some_iff.1 hw
    exact List.not_of_lt_findIdx hlt

end Places

/-! ## 2. The answer to a list of values -/

/-- Where every term has a value with a hash, these are the members that are compared. -/
theorem mapM_toMember {f : Forest} : ∀ {ts : List Term} {vs : List Value},
    ts.mapM (Term.eval f) = .ok vs → (∀ v ∈ vs, ∃ x, v.hash h = .ok x) →
      (ts.mapM fun t => do (← t.eval f).toMember) = .ok vs
  | [], vs, hvs, _ => by
      rw [List.mapM_nil] at hvs ⊢
      exact hvs
  | t :: ts, vs, hvs, hhash => by
      rw [List.mapM_cons] at hvs ⊢
      obtain ⟨v, hv, hvs⟩ := Failure.bind_eq_ok.1 hvs
      obtain ⟨ws, hws, hvs⟩ := Failure.bind_eq_ok.1 hvs
      obtain rfl : v :: ws = vs := Except.ok.inj hvs
      obtain ⟨⟨x, hx⟩, hhash⟩ := List.forall_mem_cons.1 hhash
      have hmember : (t.eval f >>= toMember) = .ok v :=
        Failure.bind_eq_ok.2 ⟨v, hv, toMember_of_hash h hx⟩
      exact Failure.bind_eq_ok.2 ⟨v, hmember,
        Failure.bind_eq_ok.2 ⟨ws, mapM_toMember hws hhash, rfl⟩⟩

/-- **The laws of equality and of hashing.** -/
structure EqualityLaws : Prop where
  refl : ∀ v : Value, v.same v = true
  symm : ∀ v w : Value, v.same w = true → w.same v = true
  trans : ∀ u v w : Value, u.same v = true → v.same w = true → u.same w = true
  /-- To be different is not to be equal. -/
  differ : ∀ v w : Value, v.differ w = !v.same w
  /-- Equality is the answer of the first value, or else that of the second one. Where neither has
      an answer they are not equal. -/
  asked : ∀ v w : Value, v.same w = ((v.opinion w).or (w.opinion v)).getD false
  /-- A value always has an answer about itself, and it is yes. -/
  asked_self : ∀ v : Value, v.opinion v = some true
  /-- Values of two types of this library are not equal. -/
  types : ∀ v w : Value, v.isLibrary = true → w.isLibrary = true → v.shape ≠ w.shape →
    v.same w = false
  /-- Equal values have equal hashes, or none for the same reason. -/
  hash : ∀ v w : Value, v.same w = true → v.hash h = w.hash h
  /-- What has no hash is refused as a member of a set. -/
  hashable : ∀ (v : Value) (e : Failure), v.hash h = .error e ↔ v.toMember = .error e
  /-- A list of values that have hashes is answered with the places of the first equal ones. -/
  unique : ∀ (f : Forest) (ts : List Term) (vs : List Value), ts.mapM (Term.eval f) = .ok vs →
    (∀ v ∈ vs, ∃ x, v.hash h = .ok x) →
      ∃ first, (Query.unique ts).answer f = .ok (.firsts first) ∧ FirstPlaces h vs first

end Value

open Value

/-- **Equality is an equivalence relation that hashing respects.** -/
theorem equalityLaws : Value.EqualityLaws h where
  refl := same_refl
  symm _ _ := same_symm
  trans _ _ _ := same_trans
  differ _ _ := rfl
  asked := same_eq_opinion
  asked_self := opinion_self
  types _ _ := same_of_shape_ne
  hash _ _ := hash_eq_of_same h
  hashable _ _ := hash_eq_error_iff h
  unique f ts vs hvs hhash := by
    refine ⟨firsts vs, ?_, firstPlaces_firsts h vs⟩
    exact Failure.bind_eq_ok.2 ⟨vs, mapM_toMember h hvs hhash, rfl⟩

/-! ## 3. Hashes in words -/

/-- The hash of an integer: its rest by a Mersenne prime, with its sign; minus one is kept free. -/
def wordOfInt (n : Int) : UInt64 :=
  let r := n.tmod 0x1fffffffffffffff
  UInt64.ofInt (if r = -1 then -2 else r)

/-- The hash of a tuple: each field is multiplied in, and the word is turned by 31 places. -/
def wordOfTuple (fields : List UInt64) : UInt64 :=
  let turned (w : UInt64) : UInt64 := (w <<< 31) ||| (w >>> 33)
  let mixed := fields.foldl
    (fun w field => turned (w + field * 14029467366897019727) * 11400714785074694791)
    2870177450012600261
  let w := mixed + (UInt64.ofNat fields.length ^^^ (2870177450012600261 ^^^ 3527539))
  if w = -1 then 1546275796 else w

/-- The hash of a text. -/
def wordOfText (s : String) : UInt64 :=
  s.toList.foldl (fun w c => w * 1000003 ^^^ UInt64.ofNat c.toNat) 0

/-- A hasher whose hashes are machine words. -/
def wordHasher : Hasher UInt64 where
  null := 5859837
  int := wordOfInt
  bool b := wordOfInt (if b then 1 else 0)
  kind k := wordOfInt k.number
  decimal d := wordOfTuple [wordOfInt d.digits, wordOfInt d.places]
  text := wordOfText
  sourceType t := wordOfText t.word
  verdict v := wordOfText v.name
  scope i := UInt64.ofNat i
  tuple := wordOfTuple
  bool_eq _ := rfl
  kind_eq _ := rfl
  sourceType_eq _ := rfl

example : wordOfInt (-1) = 18446744073709551614
    ∧ wordOfTuple [wordOfInt 1, wordOfInt 0] = 13282122221094607640 := by decide +kernel

/-- The first line and the first column, as numbers, and as a truth value and a kind. -/
theorem equalityLaws_word :
    let a := Value.location ⟨.int 1, .int 1, by decide, by decide⟩
    let b := Value.location ⟨.bool true, .kind .block, by decide, by decide⟩
    a.same b = true ∧ a.hash wordHasher = b.hash wordHasher := by
  intro a b
  have hsame : a.same b = true := by decide
  exact ⟨hsame, (equalityLaws wordHasher).hash a b hsame⟩

end TagScope

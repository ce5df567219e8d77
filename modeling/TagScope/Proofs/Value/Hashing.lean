import TagScope.Proofs.Value.Essence
/-!
# Hashing

Values are kept in sets by a hash. How the simple ones are hashed is left open, but for what has to
be so: numbers hash alike whatever they are given as, and texts as well.

* `Hasher`, `Value.hash`: a value made of fields hashes as the tuple of its fields.
* `Value.hash_essence`: **the hash of a value hangs on nothing but its essence**, so equal values
  have equal hashes.
* `Value.hash_eq_error_iff`: what has no hash is what cannot be a member of a set.
-/

namespace TagScope

/-! ## 1. Hashes -/

/-- **Hashes of simple values and of tuples.** -/
structure Hasher (H : Type) where
  null : H
  int : Int → H
  bool : Bool → H
  kind : ScopeKind → H
  decimal : Decimal → H
  text : String → H
  sourceType : SourceType → H
  verdict : Verdict → H
  scope : Nat → H
  tuple : List H → H
  /-- A truth value hashes as its number. -/
  bool_eq : ∀ b, bool b = int (if b then 1 else 0)
  /-- A kind hashes as its number. -/
  kind_eq : ∀ k, kind k = int k.number
  /-- A source type hashes as its word. -/
  sourceType_eq : ∀ t, sourceType t = text t.word

variable {H : Type} (h : Hasher H)

/-- The hash of a whole number. -/
def Whole.hash : Whole → H
  | .int n => h.int n
  | .bool b => h.bool b
  | .kind k => h.kind k

/-- The hash of an identifier. -/
def Identifier.hash : Identifier → H
  | .plain s _ => h.text s
  | .sourceType t => h.sourceType t

/-- The hash of a location. -/
def Location.hash (l : Location) : H := h.tuple [l.line.hash h, l.column.hash h]

/-- The hash of a location that may be absent. -/
def Location.hash? : Option Location → H
  | none => h.null
  | some l => l.hash h

/-- The hash of an element name. -/
def ElementName.hash : ElementName → H
  | .simple n l => h.tuple [n.hash h, Location.hash? h l]
  | .member o p l => h.tuple [o.hash, p.hash h, Location.hash? h l]
  | .namespaced s n l => h.tuple [s.hash h, n.hash h, Location.hash? h l]

/-- The hash of a datum, if it has one. -/
def Datum.hash : Datum → Except Failure H
  | .null => .ok h.null
  | .bool b => .ok (h.bool b)
  | .int n => .ok (h.int n)
  | .decimal d => .ok (h.decimal d)
  | .text s => .ok (h.text s)
  | .list _ => .error (.unhashable .list)
  | .mapping _ => .error (.unhashable .mapping)

/-- The hash of a value, if it has one: the fields are hashed in order. -/
def Value.hash : Value → Except Failure H
  | .datum d => d.hash h
  | .kind k => .ok (h.kind k)
  | .sourceType t => .ok (h.sourceType t)
  | .verdict v => .ok (h.verdict v)
  | .location l => .ok (l.hash h)
  | .name n => .ok (n.hash h)
  | .reference n l => do return h.tuple [← n.hash, ← l.hash]
  | .diagnostic l m => do return h.tuple [← l.hash, ← m.hash]
  | .policy c => .ok (h.tuple [h.bool c.allowGlobals, h.bool c.sourceIsModule])
  | .scope i => .ok (h.scope i)

/-! ## 2. What a hash hangs on -/

/-- The hash of an essence. -/
def Essence.hash : Essence → Except Failure H
  | .null => .ok h.null
  | .number n => .ok (h.int n)
  | .decimal d => .ok (h.decimal d)
  | .text s => .ok (h.text s)
  | .list _ => .error (.unhashable .list)
  | .mapping _ => .error (.unhashable .mapping)
  | .verdict v => .ok (h.verdict v)
  | .location l c => .ok (h.tuple [h.int l, h.int c])
  | .simple n l => do return h.tuple [h.text n, ← l.hash]
  | .member o p l => do return h.tuple [← o.hash, h.text p, ← l.hash]
  | .namespaced s n l => do return h.tuple [h.text s, h.text n, ← l.hash]
  | .reference n l => do return h.tuple [← n.hash, ← l.hash]
  | .diagnostic l m => do return h.tuple [← l.hash, ← m.hash]
  | .policy c => .ok (h.tuple [h.bool c.allowGlobals, h.bool c.sourceIsModule])
  | .scope i => .ok (h.scope i)

theorem Whole.hash_eq (w : Whole) : w.hash h = h.int w.toInt := by
  cases w with
  | int n => rfl
  | bool b => exact h.bool_eq b
  | kind k => exact h.kind_eq k

theorem Identifier.hash_eq (i : Identifier) : i.hash h = h.text i.text := by
  cases i with
  | plain s _ => rfl
  | sourceType t => exact h.sourceType_eq t

theorem Location.hash_essence (l : Location) : l.essence.hash h = .ok (l.hash h) := by
  simp [essence, Essence.hash, hash, Whole.hash_eq]

theorem Location.hash_essence? (l : Option Location) :
    (essence? l).hash h = .ok (hash? h l) := by
  cases l with
  | none => rfl
  | some l => exact l.hash_essence h

theorem ElementName.hash_essence (n : ElementName) : n.essence.hash h = .ok (n.hash h) := by
  induction n with
  | simple n l =>
      rw [essence, Essence.hash, Location.hash_essence?, hash, Identifier.hash_eq]
      rfl
  | member o p l ih =>
      rw [essence, Essence.hash, ih, Location.hash_essence?, hash, Identifier.hash_eq]
      rfl
  | namespaced s n l =>
      rw [essence, Essence.hash, Location.hash_essence?, hash, Identifier.hash_eq,
        Identifier.hash_eq]
      rfl

namespace Value

variable {v w : Value} {e : Failure}

/-- **A value hashes as its essence.** -/
theorem hash_essence (v : Value) : v.essence.hash h = v.hash h := by
  induction v with
  | datum d =>
      cases d with
      | bool b => exact congrArg Except.ok (h.bool_eq b).symm
      | _ => rfl
  | kind k => exact congrArg Except.ok (h.kind_eq k).symm
  | sourceType t => exact congrArg Except.ok (h.sourceType_eq t).symm
  | verdict v => rfl
  | location l => exact l.hash_essence h
  | name n => exact n.hash_essence h
  | reference n l ihn ihl => rw [essence, Essence.hash, ihn, ihl, hash]
  | diagnostic l m ihl ihm => rw [essence, Essence.hash, ihl, ihm, hash]
  | policy c => rfl
  | scope i => rfl

/-- **Equal values have equal hashes**, or both have none. -/
theorem hash_eq_of_same (hs : v.same w = true) : v.hash h = w.hash h := by
  rw [← hash_essence, ← hash_essence, same_iff.1 hs]

/-- A value has a hash unless a list or a dictionary keeps it out of sets. -/
theorem hash_cases (v : Value) :
    (v.unhashable? = none ∧ ∃ x, v.hash h = .ok x) ∨
      ∃ s, v.unhashable? = some s ∧ v.hash h = .error (.unhashable s) := by
  induction v with
  | datum d => cases d <;> simp [unhashable?, datumUnhashable?, hash, Datum.hash]
  | reference n l ihn ihl | diagnostic n l ihn ihl =>
      rw [unhashable?, hash]
      rcases ihn with ⟨hn, x, hx⟩ | ⟨s, hn, hx⟩
      · rcases ihl with ⟨hl, y, hy⟩ | ⟨s, hl, hy⟩
        · exact Or.inl ⟨by rw [hn, hl]; rfl, _, by rw [hx, hy]; rfl⟩
        · exact Or.inr ⟨s, by rw [hn, hl]; rfl, by rw [hx, hy]; rfl⟩
      · exact Or.inr ⟨s, by rw [hn]; rfl, by rw [hx]; rfl⟩
  | _ => exact Or.inl ⟨rfl, _, rfl⟩

/-- **What has no hash cannot be a member of a set**, for the same reason. -/
theorem hash_eq_error_iff : v.hash h = .error e ↔ v.toMember = .error e := by
  unfold toMember
  rcases hash_cases h v with ⟨hn, x, hx⟩ | ⟨s, hs, hx⟩
  · simp [hn, hx]
  · simp [hs, hx]

theorem toMember_of_hash {x : H} (hx : v.hash h = .ok x) : v.toMember = .ok v := by
  unfold toMember
  rcases hash_cases h v with ⟨hn, _⟩ | ⟨s, _, hs⟩
  · rw [hn]
  · rw [hx] at hs
    cases hs

end Value

end TagScope

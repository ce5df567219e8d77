/-!
# Dictionaries

Finite maps from texts that remember the order in which their keys were written.

* `Dictionary`: **no key stands twice**, by the type.
* `Dictionary.ofList`: a key that is written again keeps its place and takes the later value.
* `Dictionary.get?`: the value under a key.
-/

namespace TagScope

/-! ## 1. Distinct keys -/

/-- The members of a list, each where it stands first. -/
def distinct : List String → List String
  | [] => []
  | k :: l => k :: (distinct l).filter (· != k)

theorem mem_distinct {x : String} : ∀ {l : List String}, x ∈ distinct l ↔ x ∈ l
  | [] => by simp [distinct]
  | k :: l => by
    by_cases h : x = k
    · simp [distinct, h]
    · simp [distinct, h, mem_distinct]

theorem nodup_distinct : ∀ l : List String, (distinct l).Nodup
  | [] => List.nodup_nil
  | k :: l => by
    refine List.nodup_cons.2 ⟨fun h => ?_, (nodup_distinct l).filter _⟩
    simp at h

/-- A key of some entries has a value among them. -/
theorem isSome_lookup {α : Type} {k : String} {l : List (String × α)} (h : k ∈ l.map (·.1)) :
    (l.lookup k).isSome := by
  rw [← Option.ne_none_iff_isSome]
  intro hn
  obtain ⟨e, he, rfl⟩ := List.mem_map.1 h
  simpa using List.lookup_eq_none_iff.1 hn e he

/-! ## 2. The type -/

/-- A finite map from texts, in the order of its keys. -/
structure Dictionary (α : Type) where
  /-- The keys, in order. -/
  keys : List String
  nodup : keys.Nodup
  value : Fin keys.length → α

namespace Dictionary

variable {α : Type}

/-- The dictionary without entries. -/
def empty : Dictionary α := ⟨[], List.nodup_nil, nofun⟩

/-- The value under a key. -/
def get? (d : Dictionary α) (k : String) : Option α := (d.keys.finIdxOf? k).map d.value

/-- The entries, in order. -/
def entries (d : Dictionary α) : List (String × α) := List.ofFn fun i => (d.keys[i], d.value i)

/-- The dictionary that is written as a list of entries. The last value written under a key is the
    one that counts. -/
def ofList (l : List (String × α)) : Dictionary α :=
  let keys := distinct (l.map (·.1))
  let latest := l.reverse
  have found (i : Fin keys.length) : (latest.lookup keys[i]).isSome := by
    refine isSome_lookup ?_
    rw [List.map_reverse, List.mem_reverse]
    exact mem_distinct.1 (List.getElem_mem i.isLt)
  ⟨keys, nodup_distinct _, fun i => (latest.lookup keys[i]).get (found i)⟩

example : (ofList [("b", 1), ("a", 2), ("b", 3)]).entries = [("b", 3), ("a", 2)] := by decide

/-! ## 3. Looking up -/

theorem get?_eq_some {d : Dictionary α} {k : String} {a : α} :
    d.get? k = some a ↔ ∃ i, d.keys[i] = k ∧ d.value i = a := by
  simp only [get?, Option.map_eq_some_iff, List.finIdxOf?_eq_some_iff]
  constructor
  · intro ⟨i, ⟨hk, _⟩, ha⟩
    exact ⟨i, hk, ha⟩
  · intro ⟨i, hk, ha⟩
    refine ⟨i, ⟨hk, fun j hj e => ?_⟩, ha⟩
    have := (List.getElem_inj d.nodup).1 (e.trans hk.symm)
    omega

end Dictionary

end TagScope

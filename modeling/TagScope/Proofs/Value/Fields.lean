import TagScope.Value.Build
/-!
# Fields of locations and names

What the checked constructors make of the fields of a location or a name, and from which arguments
they made one.

* `toIdentifier_ofIdentifier`, `buildLocation_ofWhole` and their like: **fields pass the checks**,
  and the constructor gives the value that they were taken from.
* `eq_ofIdentifier`, `fields_of_buildLocation` and their like: conversely, **the fields of what is
  built are the arguments**, each of them as it was given.
-/

namespace TagScope

namespace Value

/-! ## 1. From fields to values -/

theorem whole?_ofWhole (w : Whole) : (ofWhole w).whole? = some w := by cases w <;> rfl

theorem toIdentifier_ofIdentifier (i : Identifier) : (ofIdentifier i).toIdentifier = .ok i := by
  cases i with
  | plain s ne => simp [ofIdentifier, ofText, toIdentifier, ne]
  | sourceType t => rfl

theorem toLocation?_ofLocation? (l : Option Location) : (ofLocation? l).toLocation? = .ok l := by
  cases l <;> rfl

theorem buildLocation_ofWhole (l : Location) :
    buildLocation (ofWhole l.line) (ofWhole l.column) = .ok (.location l) := by
  rw [buildLocation, whole?_ofWhole, whole?_ofWhole]
  exact dif_pos ⟨l.line_pos, l.column_nonneg⟩

section Names

variable (n p s : Identifier) (o : ElementName) (l : Option Location)

theorem buildSimple_ofIdentifier :
    buildSimple (ofIdentifier n) (ofLocation? l) = .ok (.name (.simple n l)) := by
  rw [buildSimple, toIdentifier_ofIdentifier, toLocation?_ofLocation?]
  rfl

theorem buildMember_ofIdentifier :
    buildMember (.name o) (ofIdentifier p) (ofLocation? l) = .ok (.name (.member o p l)) := by
  rw [buildMember, toElementName, toIdentifier_ofIdentifier, toLocation?_ofLocation?]
  rfl

theorem buildNamespaced_ofIdentifier :
    buildNamespaced (ofIdentifier s) (ofIdentifier n) (ofLocation? l)
      = .ok (.name (.namespaced s n l)) := by
  rw [buildNamespaced, toIdentifier_ofIdentifier, toIdentifier_ofIdentifier,
    toLocation?_ofLocation?]
  rfl

end Names

/-! ## 2. From values to fields -/

variable {u v w : Value}

theorem eq_ofWhole {x : Whole} (h : v.whole? = some x) : v = ofWhole x := by
  cases v with
  | datum d =>
      cases d with
      | int n => exact Option.some.inj h ▸ rfl
      | bool b => exact Option.some.inj h ▸ rfl
      | _ => cases h
  | kind k => exact Option.some.inj h ▸ rfl
  | _ => cases h

theorem eq_ofIdentifier {i : Identifier} (h : v.toIdentifier = .ok i) : v = ofIdentifier i := by
  cases v with
  | datum d =>
      cases d with
      | text s =>
          by_cases hs : s = ""
          · rw [toIdentifier, dif_pos hs] at h
            cases h
          · rw [toIdentifier, dif_neg hs] at h
            exact Except.ok.inj h ▸ rfl
      | _ => cases h
  | sourceType t => exact Except.ok.inj h ▸ rfl
  | _ => cases h

theorem eq_ofLocation? {l : Option Location} (h : v.toLocation? = .ok l) : v = ofLocation? l := by
  cases v with
  | datum d =>
      cases d with
      | null => exact Except.ok.inj h ▸ rfl
      | _ => cases h
  | location l => exact Except.ok.inj h ▸ rfl
  | _ => cases h

theorem eq_name {n : ElementName} (h : v.toElementName = .ok n) : v = .name n := by
  cases v with
  | name n => exact Except.ok.inj h ▸ rfl
  | _ => cases h

theorem fields_of_buildLocation (h : buildLocation v w = .ok u) :
    ∃ l : Location, v = ofWhole l.line ∧ w = ofWhole l.column ∧ u = .location l := by
  unfold buildLocation at h
  split at h
  · next m n hm hn =>
    split at h
    · next hrange =>
      exact ⟨⟨m, n, hrange.1, hrange.2⟩, eq_ofWhole hm, eq_ofWhole hn, (Except.ok.inj h).symm⟩
    · cases h
  · cases h

theorem fields_of_buildSimple (h : buildSimple v w = .ok u) :
    ∃ i l, v = ofIdentifier i ∧ w = ofLocation? l ∧ u = .name (.simple i l) := by
  obtain ⟨i, hi, h⟩ := Failure.bind_eq_ok.1 h
  obtain ⟨l, hl, h⟩ := Failure.bind_eq_ok.1 h
  exact ⟨i, l, eq_ofIdentifier hi, eq_ofLocation? hl, (Except.ok.inj h).symm⟩

theorem fields_of_buildMember {x : Value} (h : buildMember x v w = .ok u) : ∃ o i l,
    x = .name o ∧ v = ofIdentifier i ∧ w = ofLocation? l ∧ u = .name (.member o i l) := by
  obtain ⟨o, ho, h⟩ := Failure.bind_eq_ok.1 h
  obtain ⟨i, hi, h⟩ := Failure.bind_eq_ok.1 h
  obtain ⟨l, hl, h⟩ := Failure.bind_eq_ok.1 h
  exact ⟨o, i, l, eq_name ho, eq_ofIdentifier hi, eq_ofLocation? hl, (Except.ok.inj h).symm⟩

theorem fields_of_buildNamespaced {x : Value} (h : buildNamespaced x v w = .ok u) : ∃ i j l,
    x = ofIdentifier i ∧ v = ofIdentifier j ∧ w = ofLocation? l ∧
      u = .name (.namespaced i j l) := by
  obtain ⟨i, hi, h⟩ := Failure.bind_eq_ok.1 h
  obtain ⟨j, hj, h⟩ := Failure.bind_eq_ok.1 h
  obtain ⟨l, hl, h⟩ := Failure.bind_eq_ok.1 h
  exact ⟨i, j, l, eq_ofIdentifier hi, eq_ofIdentifier hj, eq_ofLocation? hl,
    (Except.ok.inj h).symm⟩

end Value

end TagScope

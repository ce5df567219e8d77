import TagScope.Proofs.Forest.Resolution
import TagScope.Proofs.Value.Renaming
/-!
# Forests of one shape

Two forests in which the same scopes stand inside of each other, under whatever numbers and whenever
they were built. What they declare may differ.

* `Forest.Alike`: **the living scopes of one forest correspond to those of the other**, with their
  kinds and their children.
* `Alike.parent?_eq`, `Alike.search`: so do their parents, and the searches for a boundary. **Nothing
  that is declared has a say in this.**
* `Forest.Enriched`: in the second forest each scope declares what it does in the first, and perhaps
  more.
* `Alike.sees`, `Alike.unbound`: then whatever name is seen in the first one is seen in the second
  one as well, and a reference that nothing binds there is not bound here either.
-/

namespace TagScope

/-- A binding that counts as the same as a name is that name. -/
theorem Binding.eq_text_of_key {x : Binding} {n : String} (h : x.key = (text n).key) :
    x = text n := by
  cases x with
  | text s => rw [Key.text.inj h]
  | _ => cases h

namespace Forest

/-! ## 1. The same shape -/

/-- **`ρ` takes the living scopes of a forest to those of another one**, one to one, with their
    kinds and with their children in order. -/
structure Alike (ρ : Nat → Nat) (f g : Forest) : Prop where
  alive : ∀ i, f.alive i = true → g.alive (ρ i) = true
  injective : ∀ i j, f.alive i = true → f.alive j = true → ρ i = ρ j → i = j
  onto : ∀ j, g.alive j = true → ∃ i, f.alive i = true ∧ ρ i = j
  scope : ∀ i s, f.alive i = true → f.scope? i = some s →
    ∃ t, g.scope? (ρ i) = some t ∧ t.kind = s.kind ∧ t.children = s.children.map ρ

/-- **Each living scope declares in the second forest what it declares in the first one**, or
    something that counts as the same. -/
def Enriched (ρ : Nat → Nat) (f g : Forest) : Prop :=
  ∀ i x, f.alive i = true → f.Declares i x → ∃ y, g.Declares (ρ i) y ∧ y.key = x.key

section Shape

variable {ρ : Nat → Nat} {f g : Forest} {i j b c p : Nat} {k : Value} {path : List Nat} {n : String}

/-- What is around a living scope is alive. -/
theorem alive_of_outwards (hf : f.Sound) (hi : f.alive i = true) (h : f.Outwards i j) :
    f.alive j = true := by
  cases Relation.ReflTransGen.cases_tail h with
  | inl e => exact e ▸ hi
  | inr h =>
      obtain ⟨_, _, hp⟩ := h
      exact ((parent?_eq_some_iff hf).1 hp).2

theorem FirstChild.holds (h : f.FirstChild p c) : f.Holds p c := by
  obtain ⟨s, hs, hc⟩ := h
  exact ⟨s, hs, List.mem_of_mem_head? hc⟩

/-- All that a search from a living scope looks into is alive. -/
theorem alive_of_lookedInto (hf : f.Sound) (hi : f.alive i = true) (h : f.Search k i path b)
    (hj : f.LookedInto path b j) : f.alive j = true := by
  have onWay : ∀ j, j ∈ path ∨ j = b → f.alive j = true :=
    fun j hj => alive_of_outwards hf hi (h.outwards j hj)
  have hb : f.alive b = true := onWay b (Or.inr rfl)
  rcases hj with hj | rfl | hj | ⟨c, hc, hj⟩
  · exact onWay j (Or.inl hj)
  · exact hb
  · exact alive_of_holds hf hj.holds hb
  · exact alive_of_holds hf hj.holds (alive_of_holds hf hc.holds hb)

/-! ## 2. Links -/

/-- A living scope holds what corresponds to what it held. -/
theorem Alike.holds_iff (hf : f.Sound) (h : Alike ρ f g) (hp : f.alive p = true)
    (hc : f.alive c = true) : g.Holds (ρ p) (ρ c) ↔ f.Holds p c := by
  obtain ⟨s, hs⟩ := built_iff.1 (built_of_alive hf hp)
  obtain ⟨t, ht, _, hchildren⟩ := h.scope p s hp hs
  constructor
  · intro ⟨t', ht', hmem⟩
    obtain rfl := Option.some.inj (ht.symm.trans ht')
    rw [hchildren] at hmem
    obtain ⟨d, hd, hdc⟩ := List.mem_map.1 hmem
    have hholds : f.Holds p d := ⟨s, hs, hd⟩
    exact h.injective d c (alive_of_holds hf hholds hp) hc hdc ▸ hholds
  · intro ⟨s', hs', hmem⟩
    obtain rfl := Option.some.inj (hs.symm.trans hs')
    exact ⟨t, ht, hchildren ▸ List.mem_map_of_mem hmem⟩

/-- **Parents correspond.** -/
theorem Alike.parent?_eq (hf : f.Sound) (hg : g.Sound) (h : Alike ρ f g) (hc : f.alive c = true) :
    g.parent? (ρ c) = (f.parent? c).map ρ := by
  apply Option.ext
  intro q
  rw [parent?_eq_some_iff hg, Option.map_eq_some_iff]
  constructor
  · intro ⟨hq, hal⟩
    obtain ⟨p, hp, rfl⟩ := h.onto q hal
    exact ⟨p, (parent?_eq_some_iff hf).2 ⟨(h.holds_iff hf hp hc).1 hq, hp⟩, rfl⟩
  · rintro ⟨p, hp, rfl⟩
    obtain ⟨hholds, hal⟩ := (parent?_eq_some_iff hf).1 hp
    exact ⟨(h.holds_iff hf hal hc).2 hholds, h.alive p hal⟩

theorem Alike.firstChild (h : Alike ρ f g) (hp : f.alive p = true) (hc : f.FirstChild p c) :
    g.FirstChild (ρ p) (ρ c) := by
  obtain ⟨s, hs, hhead⟩ := hc
  obtain ⟨t, ht, _, hchildren⟩ := h.scope p s hp hs
  exact ⟨t, ht, by rw [hchildren, List.head?_map, hhead]; rfl⟩

theorem Alike.wrapped (hf : f.Sound) (h : Alike ρ f g) (hb : f.alive b = true)
    (hj : f.Wrapped b j) : g.Wrapped (ρ b) (ρ j) := by
  rcases hj with hj | ⟨c, hc, hj⟩
  · exact Or.inl (h.firstChild hb hj)
  · have hal : f.alive c = true := alive_of_holds hf hc.holds hb
    exact Or.inr ⟨ρ c, h.firstChild hb hc, h.firstChild hal hj⟩

/-! ## 3. Searches -/

/-- **A search passes what corresponds to the scopes that it passed, and ends at what corresponds to
    its end.** -/
theorem Alike.search (hf : f.Sound) (hg : g.Sound) (h : Alike ρ f g) (hi : f.alive i = true)
    (search : f.Search k i path b) : g.Search k (ρ i) (path.map ρ) (ρ b) := by
  induction search with
  | @found i s hs hk =>
      obtain ⟨t, ht, hkind, _⟩ := h.scope i s hi hs
      exact .found ht (hkind ▸ hk)
  | @root i s hs hk hp =>
      obtain ⟨t, ht, hkind, _⟩ := h.scope i s hi hs
      have hroot : g.parent? (ρ i) = none := by rw [h.parent?_eq hf hg hi, hp]; rfl
      exact .root ht (hkind ▸ hk) hroot
  | @outward i p b s path hs hk hp rest ih =>
      obtain ⟨t, ht, hkind, _⟩ := h.scope i s hi hs
      have hparent : g.parent? (ρ i) = some (ρ p) := by rw [h.parent?_eq hf hg hi, hp]; rfl
      exact .outward ht (hkind ▸ hk) hparent (ih ((parent?_eq_some_iff hf).1 hp).2)

theorem Alike.lookedInto (hf : f.Sound) (h : Alike ρ f g) (hb : f.alive b = true)
    (hj : f.LookedInto path b j) : g.LookedInto (path.map ρ) (ρ b) (ρ j) := by
  rcases hj with hj | rfl | hj
  · exact Or.inl (List.mem_map_of_mem hj)
  · exact Or.inr (Or.inl rfl)
  · exact Or.inr (Or.inr (h.wrapped hf hb hj))

/-! ## 4. More names -/

/-- **A name that is seen stays seen when more is declared.** -/
theorem Alike.sees (hf : f.Sound) (hg : g.Sound) (h : Alike ρ f g) (more : Enriched ρ f g)
    (hi : f.alive i = true) (hn : f.Sees k i n) : g.Sees k (ρ i) n := by
  obtain ⟨path, b, j, search, hj, hn⟩ := hn
  have hb : f.alive b = true := alive_of_outwards hf hi (search.outwards b (Or.inr rfl))
  obtain ⟨y, hy, hkey⟩ := more j _ (alive_of_lookedInto hf hi search hj) hn
  obtain rfl := Binding.eq_text_of_key hkey
  exact ⟨path.map ρ, ρ b, ρ j, h.search hf hg hi search, h.lookedInto hf hb hj, hy⟩

/-- **What nothing binds when more is declared is not bound by less.** -/
theorem Alike.unbound (hf : f.Sound) (hg : g.Sound) (h : Alike ρ f g) (more : Enriched ρ f g)
    (hi : f.alive i = true) {policy : Policy} {node : Value} {r : Reference}
    (hr : g.Unbound policy (node.renamed ρ) (ρ i) r) : f.Unbound policy node i r := by
  obtain ⟨href, hthis, hsees⟩ := hr
  exact ⟨(Value.reference?_renamed node).symm.trans href, hthis,
    fun hseen => hsees (h.sees hf hg more hi hseen)⟩

end Shape

end Forest

end TagScope

import Mathlib.Algebra.GroupWithZero.Nat
import TagScope.Proofs.Reading.Reader
/-!
# Pieces of constructor calls

How the reader goes through texts in quotes, words, arguments and calls, whatever stands around
them. Each lemma is about one piece, and a call is read by putting them together.

* `run_escaped`, `reads_quoted`: **a text in quotes is read back**, whichever quote and whichever
  escapes it is written with; nothing in it can be taken for its end or for a call.
* `Reads`, `Fills`: a value, and the arguments of a call up to its closing parenthesis.
* `fills_last`, `fills_comma`, `fills_named`, `reads_call`: the arguments one by one, from the last
  one to the first, and then the call.
-/

namespace TagScope

namespace Reading

open State

variable {s t : State} {calls : List Call} {c q : Char} {cs ds r : List Char}

/-! ## 1. Runs -/

theorem run_cons_of_step (h : s.step c = some t) : s.run (c :: cs) = t.run cs := by
  unfold run
  rw [List.foldlM_cons, h]
  rfl

theorem run_append_of_run (h : s.run cs = some t) : s.run (cs ++ ds) = t.run ds := by
  unfold run at h ⊢
  rw [List.foldlM_append, h]
  rfl

theorem run_singleton (c : Char) : s.run [c] = s.step c := by
  unfold run
  rw [List.foldlM_cons]
  cases s.step c <;> rfl

/-! ## 2. Texts -/

theorem hexDigit?_digitChar : ∀ d < 16, hexDigit? (Nat.digitChar d) = some d := by decide

theorem step_code {d v left : Nat} (hd : d < 16) :
    step ⟨calls, .code q r (left + 1) v⟩ (Nat.digitChar d)
      = some ⟨calls, .code q r left (v * 16 + d)⟩ := by
  simp [step, Focus.inCode, hexDigit?_digitChar d hd]

/-- The last digit of a code point gives its character. -/
theorem step_code_last {d v : Nat} (hd : d < 16) (hv : v * 16 + d = c.toNat) :
    step ⟨calls, .code q r 0 v⟩ (Nat.digitChar d) = some ⟨calls, .text q (r ++ [c])⟩ := by
  have hvalid : c.toNat.isValidChar := c.valid
  simp [step, Focus.inCode, hexDigit?_digitChar d hd, char?, hv, hvalid]

/-- All digits but the last ones, of which there are `left + 1`. -/
theorem run_hexDigits {n v : Nat} (width left : Nat) :
    run ⟨calls, .code q r (width + left) v⟩ (hexDigits width n)
      = some ⟨calls, .code q r left (v * 16 ^ width + n % 16 ^ width)⟩ := by
  induction width generalizing n left with
  | zero => simp [hexDigits, run, Nat.mod_one]
  | succ width ih =>
      have hleft : width + 1 + left = width + (left + 1) := by omega
      have hvalue : v * 16 ^ (width + 1) + n % 16 ^ (width + 1)
          = (v * 16 ^ width + n / 16 % 16 ^ width) * 16 + n % 16 := by
        rw [Nat.pow_succ, ← Nat.mul_assoc, Nat.mul_comm (16 ^ width) 16, Nat.mod_mul]
        omega
      rw [hexDigits, hleft, run_append_of_run (ih _), run_singleton,
        step_code (Nat.mod_lt _ (by decide)), hvalue]

/-- **The digits of a code point give its character.** -/
theorem run_codePoint (width : Nat) (c : Char) (hc : c.toNat < 16 ^ (width + 1)) :
    run ⟨calls, .code q r width 0⟩ (hexDigits (width + 1) c.toNat)
      = some ⟨calls, .text q (r ++ [c])⟩ := by
  have hdigits : run ⟨calls, .code q r width 0⟩ (hexDigits width (c.toNat / 16))
      = some ⟨calls, .code q r 0 (c.toNat / 16)⟩ := by
    have hdiv : c.toNat / 16 < 16 ^ width := by
      rw [Nat.pow_succ] at hc
      omega
    have hrun : run ⟨calls, .code q r (width + 0) 0⟩ (hexDigits width (c.toNat / 16))
        = some ⟨calls, .code q r 0 (0 * 16 ^ width + c.toNat / 16 % 16 ^ width)⟩ :=
      run_hexDigits width 0
    rwa [Nat.mod_eq_of_lt hdiv, Nat.zero_mul, Nat.zero_add] at hrun
  have hvalue : c.toNat / 16 * 16 + c.toNat % 16 = c.toNat := by omega
  rw [hexDigits, run_append_of_run hdigits, run_singleton,
    step_code_last (Nat.mod_lt _ (by decide)) hvalue]

section Quotes

variable (hq : q = '\'' ∨ q = '"')
include hq

theorem step_backslash : step ⟨calls, .text q r⟩ '\\' = some ⟨calls, .escape q r⟩ := by
  obtain rfl | rfl := hq <;> rfl

/-- The mark `m` behind a backslash says how many digits there are. -/
theorem run_marked {m : Char} {width : Nat} (hm : Focus.inEscape q r m = some (.code q r width 0))
    (hc : c.toNat < 16 ^ (width + 1)) :
    run ⟨calls, .text q r⟩ ('\\' :: m :: hexDigits (width + 1) c.toNat)
      = some ⟨calls, .text q (r ++ [c])⟩ := by
  have hmark : step ⟨calls, .escape q r⟩ m = some ⟨calls, .code q r width 0⟩ := by
    simp [step, hm]
  rw [run_cons_of_step (step_backslash hq), run_cons_of_step hmark]
  exact run_codePoint width c hc

/-- **A code point in the shortest of the three widths is read back.** -/
theorem run_codePointEscape (c : Char) :
    run ⟨calls, .text q r⟩ (codePointEscape c.toNat) = some ⟨calls, .text q (r ++ [c])⟩ := by
  have hc : c.toNat < 0x110000 := by
    have hvalid := c.valid
    simp only [UInt32.isValidChar, Nat.isValidChar] at hvalid
    simp only [Char.toNat]
    omega
  unfold codePointEscape
  split
  · next h => exact run_marked hq rfl h
  split
  · next h => exact run_marked hq rfl h
  · have h : c.toNat < 16 ^ (7 + 1) := by omega
    exact run_marked hq rfl h

/-- A character and the backslash before it, which together stand for `c`. -/
theorem run_pair {d : Char} (hd : Focus.inEscape q r d = some (.text q (r ++ [c]))) :
    run ⟨calls, .text q r⟩ ['\\', d] = some ⟨calls, .text q (r ++ [c])⟩ := by
  have hstep : step ⟨calls, .escape q r⟩ d = some ⟨calls, .text q (r ++ [c])⟩ := by
    simp [step, hd]
  rw [run_cons_of_step (step_backslash hq), run_singleton, hstep]

/-- **A character as it stands between quotes is read back.** -/
theorem run_escaped (c : Char) :
    run ⟨calls, .text q r⟩ (escaped q c) = some ⟨calls, .text q (r ++ [c])⟩ := by
  unfold escaped
  split
  · next h =>
    have hmark : c = '\\' ∨ c = '\'' ∨ c = '"' := by
      obtain rfl | rfl := h
      · exact .inr hq
      · exact .inl rfl
    exact run_pair hq (by simp [Focus.inEscape, hmark])
  split
  · next h => exact h ▸ run_pair hq rfl
  split
  · next h => exact h ▸ run_pair hq rfl
  split
  · next h => exact h ▸ run_pair hq rfl
  split
  · -- Printable, and neither the quote nor a backslash nor the end of the line.
    rw [run_singleton]
    simp_all [step, Focus.inText]
  · exact run_codePointEscape hq c

theorem run_text (cs : List Char) :
    run ⟨calls, .text q r⟩ (cs.flatMap (escaped q)) = some ⟨calls, .text q (r ++ cs)⟩ := by
  induction cs generalizing r with
  | nil => simp [run]
  | cons c cs ih =>
      rw [List.flatMap_cons, run_append_of_run (run_escaped hq c), ih, List.append_assoc,
        List.singleton_append]

end Quotes

theorem quoteMark_cases (s : String) : quoteMark s = '\'' ∨ quoteMark s = '"' := by
  unfold quoteMark
  split
  · exact .inr rfl
  · exact .inl rfl

/-! ## 3. Arguments and calls -/

/-- **Reading `cs` where a value may start gives `v`**, whatever calls are open. -/
def Reads (cs : List Char) (v : Value) : Prop :=
  ∀ calls, ∃ focus, run ⟨calls, .start⟩ cs = some ⟨calls, focus⟩ ∧ focus.value? = some v

/-- **Reading `cs` where an argument of `call` may start finishes the call**, with the value `v`. -/
def Fills (call : Call) (cs : List Char) (v : Value) : Prop :=
  ∀ calls, run ⟨call :: calls, .start⟩ cs = some ⟨calls, .value v⟩

/-- **A text in quotes is read back.** -/
theorem reads_quoted (s : String) : Reads (quoted s).toList (.ofText s) := by
  intro calls
  have hq := quoteMark_cases s
  have hopen : step ⟨calls, .start⟩ (quoteMark s) = some ⟨calls, .text (quoteMark s) []⟩ := by
    obtain h | h := hq <;> rw [h] <;> rfl
  have hclose : step ⟨calls, .text (quoteMark s) s.toList⟩ (quoteMark s)
      = some ⟨calls, .value (.ofText s)⟩ := by
    simp [step, Focus.inText]
  refine ⟨.value (.ofText s), ?_, rfl⟩
  rw [quoted, String.toList_ofList, run_cons_of_step hopen, run_append_of_run (run_text hq _),
    run_singleton]
  exact hclose

/-- Whether a text can be a word. -/
def IsWord (w : String) : Prop := w ≠ "" ∧ w.toList.all isWordChar = true

instance (w : String) : Decidable (IsWord w) := inferInstanceAs (Decidable (_ ∧ _))

theorem run_word (hcs : cs.all isWordChar = true) :
    run ⟨calls, .word r⟩ cs = some ⟨calls, .word (r ++ cs)⟩ := by
  induction cs generalizing r with
  | nil => simp [run]
  | cons c cs ih =>
      rw [List.all_cons, Bool.and_eq_true] at hcs
      obtain ⟨hc, hcs⟩ := hcs
      have hstep : step ⟨calls, .word r⟩ c = some ⟨calls, .word (r ++ [c])⟩ := by
        simp [step, inWord, hc]
      rw [run_cons_of_step hstep, ih hcs, List.append_assoc, List.singleton_append]

theorem run_start_word {w : String} (hw : IsWord w) :
    run ⟨calls, .start⟩ w.toList = some ⟨calls, .word w.toList⟩ := by
  obtain ⟨hne, hall⟩ := hw
  cases hlist : w.toList with
  | nil => exact absurd (String.toList_eq_nil_iff.1 hlist) hne
  | cons c cs =>
      rw [hlist, List.all_cons, Bool.and_eq_true] at hall
      obtain ⟨hc, hcs⟩ := hall
      have hstep : step ⟨calls, .start⟩ c = some ⟨calls, .word [c]⟩ := by
        have hspace : c ≠ ' ' := by
          rintro rfl
          simp [isWordChar] at hc
        have hquote : ¬(c = '\'' ∨ c = '"') := by
          rintro (rfl | rfl) <;> simp [isWordChar] at hc
        simp [step, atStart, hspace, hquote, hc]
      rw [run_cons_of_step hstep, run_word hcs, List.singleton_append]

theorem reads_word {w : String} {v : Value} (hw : IsWord w) (hv : literal? w = some v) :
    Reads w.toList v := fun _ =>
  ⟨.word w.toList, run_start_word hw, by rw [Focus.value?, String.ofList_toList, hv]⟩

/-- Behind a whole value only a comma or the end of the call is left. -/
theorem step_behind {f : Focus} {v : Value} (hf : f.value? = some v) (hc : c = ',' ∨ c = ')') :
    step ⟨calls, f⟩ c = behind calls v c := by
  cases f with
  | value u =>
      obtain rfl := Option.some.inj hf
      rfl
  | word r =>
      have hv : literal? (String.ofList r) = some v := hf
      obtain rfl | rfl := hc
      · simp [step, inWord, hv, isWordChar]
      · simp [step, inWord, hv, isWordChar]
  | _ => cases hf

variable {call call' : Call} {u v : Value}

/-- The last argument. -/
theorem fills_last (hcs : Reads cs v) (htake : call.take v = some call')
    (hu : construct call'.name call'.arguments = some u) : Fills call (cs ++ [')']) u := by
  intro calls
  obtain ⟨f, hrun, hf⟩ := hcs (call :: calls)
  rw [run_append_of_run hrun, run_singleton, step_behind hf (.inr rfl)]
  simp [behind, htake, hu]

/-- An argument and those behind it. -/
theorem fills_comma (hcs : Reads cs v) (htake : call.take v = some call')
    (hds : Fills call' ds u) : Fills call (cs ++ ',' :: ' ' :: ds) u := by
  intro calls
  obtain ⟨f, hrun, hf⟩ := hcs (call :: calls)
  have hcomma : step ⟨call :: calls, f⟩ ',' = some ⟨call' :: calls, .start⟩ := by
    rw [step_behind hf (.inl rfl)]
    simp [behind, htake]
  rw [run_append_of_run hrun, run_cons_of_step hcomma, run_cons_of_step rfl]
  exact hds calls

/-- The name of an argument. -/
theorem fills_named {k : String} (hk : IsWord k) (hkeyword : call.keyword = none)
    (hds : Fills { call with keyword := some k } ds u) : Fills call (k.toList ++ '=' :: ds) u := by
  intro calls
  have hequals : step ⟨call :: calls, .word k.toList⟩ '='
      = some ⟨{ call with keyword := some k } :: calls, .start⟩ := by
    obtain ⟨name, arguments, keyword⟩ := call
    obtain rfl : keyword = none := hkeyword
    simp [step, inWord, isWordChar, named]
  rw [run_append_of_run (run_start_word hk), run_cons_of_step hequals]
  exact hds calls

/-- **A call is read once its arguments are.** -/
theorem reads_call {name : String} (hname : IsWord name) (hds : Fills (.opened name) ds u) :
    Reads (name.toList ++ '(' :: ds) u := by
  intro calls
  have hopen : step ⟨calls, .word name.toList⟩ '(' = some ⟨.opened name :: calls, .start⟩ := by
    simp [step, inWord, isWordChar]
  refine ⟨.value u, ?_, rfl⟩
  rw [run_append_of_run (run_start_word hname), run_cons_of_step hopen]
  exact hds calls

/-- **A text that is read as a value stands for it.** -/
theorem read_of_reads {s : String} (h : Reads s.toList v) : read s = some v := by
  obtain ⟨f, hrun, hf⟩ := h []
  simp [read, hrun, result?, hf]

end Reading

end TagScope

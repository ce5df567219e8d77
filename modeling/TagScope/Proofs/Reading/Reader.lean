import TagScope.Value.Build
/-!
# Reading constructor calls

The language in which values are shown, read from left to right in one pass: constructor calls with
positional and named arguments, texts in quotes, integers, and words for the other constants.

* `literal?`: a numeral, or a word for nothing, a truth value or a member of an enumeration.
* `construct`: the value of a call; **the checks are those of the constructors**, so that a kind
  counts as an integer and a source type as a text.
* `State`, `step`: the calls that are still open, and what is being read in the innermost one.
* `read`: the value that a whole text stands for.
-/

namespace TagScope

namespace Reading

/-! ## 1. Words -/

/-- The words that stand for a value by themselves. -/
def constants : List (String × Value) :=
  [("None", .null), ("True", .datum (.bool true)), ("False", .datum (.bool false))]
    ++ ScopeKind.all.map (fun k => (k.shown, .kind k))
    ++ SourceType.all.map (fun t => (t.shown, .sourceType t))
    ++ Verdict.all.map (fun v => (v.shown, .verdict v))

/-- The number with the given decimal digits. -/
def natural? (ds : List Char) : Option Nat :=
  if ds ≠ [] ∧ ds.all Char.isDigit then some (Nat.ofDigitChars 10 ds 0) else none

/-- The integer that a numeral stands for. -/
def integer? : List Char → Option Int
  | '-' :: ds => (natural? ds).map Int.negOfNat
  | ds => (natural? ds).map Int.ofNat

/-- Whether a character belongs to a word. -/
def isWordChar (c : Char) : Bool := c.isAlphanum || c == '_' || c == '.' || c == '-'

/-- The value that a word stands for: an integer or a constant. -/
def literal? (w : String) : Option Value :=
  match integer? w.toList with
  | some n => some (.datum (.int n))
  | none => constants.lookup w

/-! ## 2. Calls -/

/-- The location among the named arguments: it is the only one, and may be left out. -/
def location? : List (String × Value) → Option Value
  | [] => some .null
  | [("location", l)] => some l
  | _ => none

/-- The policy for named arguments, each of which may be left out. -/
def policy? (named : List (String × Value)) : Option Policy :=
  let flag (key : String) : Bool := ((named.lookup key).map Value.isTrue).getD false
  if named.all fun e => e.1 ∈ ["allow_globals", "source_is_module"] then
    some ⟨flag "allow_globals", flag "source_is_module"⟩
  else none

/-- The value of a call of the constructor with a given name. -/
def construct (name : String) (arguments : Value.Arguments Value) : Option Value :=
  match name, arguments with
  | "Location", ⟨[line, column], []⟩ => (Value.buildLocation line column).toOption
  | "SimpleName", ⟨[n], named⟩ => do (Value.buildSimple n (← location? named)).toOption
  | "MemberPath", ⟨[o, p], named⟩ => do (Value.buildMember o p (← location? named)).toOption
  | "NamespacedName", ⟨[s, n], named⟩ => do
    (Value.buildNamespaced s n (← location? named)).toOption
  | "Reference", ⟨[n], named⟩ => return .reference n (← location? named)
  | "Diagnostic", ⟨[l, m], []⟩ => some (.diagnostic l m)
  | "ResolutionConfig", ⟨[], named⟩ => (policy? named).map .policy
  | _, _ => none

/-- A call that is still open. -/
structure Call where
  name : String
  /-- The arguments that were read. -/
  arguments : Value.Arguments Value
  /-- The name of the argument that is being read, if it has one. -/
  keyword : Option String

namespace Call

/-- A call without arguments so far. -/
def opened (name : String) : Call := ⟨name, ⟨[], []⟩, none⟩

/-- One more argument. No name is given twice, and behind a named argument there are only named
    ones. -/
def take (c : Call) (v : Value) : Option Call :=
  match c.keyword with
  | some k =>
    if k ∈ c.arguments.named.map Prod.fst then none
    else some ⟨c.name, ⟨c.arguments.positional, c.arguments.named ++ [(k, v)]⟩, none⟩
  | none =>
    if c.arguments.named.isEmpty then some ⟨c.name, ⟨c.arguments.positional ++ [v], []⟩, none⟩
    else none

end Call

/-! ## 3. Characters -/

/-- What is being read. -/
inductive Focus where
  /-- The place where a value or a named argument starts. -/
  | start
  | word (read : List Char)
  /-- A text up to the next quote `q`. -/
  | text (q : Char) (read : List Char)
  /-- A text, behind a backslash. -/
  | escape (q : Char) (read : List Char)
  /-- A text, inside of a code point: `left + 1` digits are missing. -/
  | code (q : Char) (read : List Char) (left value : Nat)
  /-- A whole value. -/
  | value (v : Value)

/-- A hexadecimal digit in lower case. -/
def hexDigit? (c : Char) : Option Nat := (List.range 16).find? fun d => Nat.digitChar d = c

/-- The character with a code point. -/
def char? (n : Nat) : Option Char := if n.isValidChar then some (Char.ofNat n) else none

namespace Focus

/-- The value, where a whole one was read. -/
def value? : Focus → Option Value
  | .word r => literal? (String.ofList r)
  | .value v => some v
  | _ => none

/-- One character of a text. A text does not go beyond its line. -/
def inText (q : Char) (r : List Char) (c : Char) : Option Focus :=
  if c = q then some (.value (.ofText (String.ofList r)))
  else if c = '\\' then some (.escape q r)
  else if c = '\n' ∨ c = '\r' then none
  else some (.text q (r ++ [c]))

/-- The character behind a backslash. -/
def inEscape (q : Char) (r : List Char) (c : Char) : Option Focus :=
  if c = '\\' ∨ c = '\'' ∨ c = '"' then some (.text q (r ++ [c]))
  else if c = 'n' then some (.text q (r ++ ['\n']))
  else if c = 'r' then some (.text q (r ++ ['\r']))
  else if c = 't' then some (.text q (r ++ ['\t']))
  else if c = 'x' then some (.code q r 1 0)
  else if c = 'u' then some (.code q r 3 0)
  else if c = 'U' then some (.code q r 7 0)
  else none

/-- One digit of a code point. -/
def inCode (q : Char) (r : List Char) (left value : Nat) (c : Char) : Option Focus := do
  let d ← hexDigit? c
  match left with
  | 0 => return .text q (r ++ [← char? (value * 16 + d)])
  | left + 1 => return .code q r left (value * 16 + d)

end Focus

/-! ## 4. The machine -/

/-- The calls that are open, the innermost one first, and what is being read. -/
structure State where
  calls : List Call
  focus : Focus

namespace State

/-- The character behind an argument `v`: a comma, or the end of the call. -/
def behind (calls : List Call) (v : Value) (c : Char) : Option State :=
  match calls with
  | [] => none
  | call :: calls => do
    let call ← call.take v
    if c = ',' then return ⟨call :: calls, .start⟩
    else if c = ')' then return ⟨calls, .value (← construct call.name call.arguments)⟩
    else none

/-- The name `k` of the argument that is about to be read. -/
def named (calls : List Call) (k : String) : Option State :=
  match calls with
  | ⟨name, arguments, none⟩ :: calls => some ⟨⟨name, arguments, some k⟩ :: calls, .start⟩
  | _ => none

/-- One character where a value may start. -/
def atStart (calls : List Call) (c : Char) : Option State :=
  if c = ' ' then some ⟨calls, .start⟩
  else if c = '\'' ∨ c = '"' then some ⟨calls, .text c []⟩
  else if isWordChar c then some ⟨calls, .word [c]⟩
  else none

/-- One character in or behind a word: it may turn out to be the name of a call or of an
    argument. -/
def inWord (calls : List Call) (r : List Char) (c : Char) : Option State :=
  if isWordChar c then some ⟨calls, .word (r ++ [c])⟩
  else if c = '(' then some ⟨.opened (String.ofList r) :: calls, .start⟩
  else if c = '=' then named calls (String.ofList r)
  else do behind calls (← literal? (String.ofList r)) c

/-- One character. -/
def step (s : State) (c : Char) : Option State :=
  match s.focus with
  | .start => atStart s.calls c
  | .word r => inWord s.calls r c
  | .text q r => do return ⟨s.calls, ← Focus.inText q r c⟩
  | .escape q r => do return ⟨s.calls, ← Focus.inEscape q r c⟩
  | .code q r left value => do return ⟨s.calls, ← Focus.inCode q r left value c⟩
  | .value v => behind s.calls v c

/-- Several characters, one after the other. -/
def run (s : State) (cs : List Char) : Option State := cs.foldlM step s

/-- The value that was read, once no call is open any more. -/
def result? (s : State) : Option Value := if s.calls.isEmpty then s.focus.value? else none

end State

/-- The value that a text stands for. -/
def read (s : String) : Option Value := do (← State.run ⟨[], .start⟩ s.toList).result?

example : read "Reference('\\'a\\x7f', location=Location(12, True))" = some (.reference
    (.ofText "'a\x7f") (.location ⟨.int 12, .bool true, by decide, by decide⟩)) := by rfl
example : (read "SimpleName('a', 'b')").isNone ∧ (read "SimpleName('')").isNone := by decide

end Reading

end TagScope

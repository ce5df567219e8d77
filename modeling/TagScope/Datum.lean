import TagScope.Decimal
import TagScope.Dictionary
import TagScope.Text.Quoted
/-!
# Data

The plain data that callers hand over: nothing, truth values, numbers, texts, lists and
dictionaries, nested at will.

* `Datum.ofDigits`: a written number is an integer or a `Decimal`, never both.
* `Datum.shown`: the one-line form, texts in quotes.
* `Datum.same`: equality; **a truth value equals the number one or zero**, and the order of a
  dictionary does not count.
* `Datum.isTrue`, `Datum.items?`: use as a condition and as a source of elements.
-/

namespace TagScope

/-- A piece of plain data. -/
inductive Datum where
  | null
  | bool (b : Bool)
  | int (n : Int)
  | decimal (d : Decimal)
  | text (s : String)
  | list (items : List Datum)
  | mapping (entries : Dictionary Datum)

namespace Datum

/-! ## 1. Numbers -/

/-- The number `digits` with its point moved left by the given number of places. A floating-point
    number is kept as this exact decimal and printed positionally (`Decimal.text`): it is not
    rounded to a double, and has no exponent however small it is. -/
def ofDigits (digits : Int) : Nat → Datum
  | 0 => .int digits
  | places + 1 =>
    if h : digits % 10 = 0 then ofDigits (digits / 10) places
    else .decimal ⟨digits, places + 1, Nat.succ_pos _, h⟩

/-- The integer that a datum counts as. -/
def toInt? : Datum → Option Int
  | .int n => some n
  | .bool b => some (if b then 1 else 0)
  | _ => none

/-! ## 2. The one-line form -/

/-- A truth value as a word. -/
def boolShown (b : Bool) : String := if b then "True" else "False"

mutual

/-- A datum on one line. -/
def shown : Datum → String
  | .null => "None"
  | .bool b => boolShown b
  | .int n => toString n
  | .decimal d => d.text
  | .text s => quoted s
  | .list items => "[" ++ ", ".intercalate (shownAll items) ++ "]"
  | .mapping entries => "\x7b" ++ ", ".intercalate (shownEntries entries) ++ "\x7d"

/-- The elements of a list, each on one line. -/
def shownAll : List Datum → List String
  | [] => []
  | d :: rest => shown d :: shownAll rest

/-- The entries of a dictionary, each on one line. -/
def shownEntries : Dictionary Datum → List String
  | ⟨keys, _, value⟩ => List.ofFn fun i => quoted keys[i] ++ ": " ++ shown (value i)

end

example : shown (.mapping (.ofList [("k", .list [.int (-1), .bool true, .null])]))
    = "\x7b'k': [-1, True, None]\x7d" := by decide

/-! ## 3. Equality -/

mutual

/-- Whether two data are equal. -/
def same : Datum → Datum → Bool
  | .null, .null => true
  | .decimal a, .decimal b => a == b
  | .text s, .text t => s == t
  | .list l, .list m => sameAll l m
  | .mapping l, .mapping m => sameEntries l m
  | a, b =>
    match a.toInt?, b.toInt? with
    | some m, some n => m == n
    | _, _ => false

/-- Whether two lists are equal, element by element. -/
def sameAll : List Datum → List Datum → Bool
  | [], [] => true
  | a :: l, b :: m => same a b && sameAll l m
  | _, _ => false

/-- Whether two dictionaries have the same keys, and equal values under each of them. -/
def sameEntries : Dictionary Datum → Dictionary Datum → Bool
  | ⟨keys, _, value⟩, m =>
    m.keys.all (· ∈ keys) && (List.finRange keys.length).all fun i =>
      match m.get? keys[i] with
      | some b => same (value i) b
      | none => false

end

example : same (.list [.bool true, .int 0]) (.list [.int 1, .bool false]) = true := by decide

/-! ## 4. Uses -/

/-- Whether a datum counts as true: nothing, zero and whatever is empty do not. -/
def isTrue : Datum → Bool
  | .null => false
  | .bool b => b
  | .int n => n != 0
  | .decimal _ => true
  | .text s => s != ""
  | .list items => !items.isEmpty
  | .mapping entries => !entries.keys.isEmpty

/-- The elements that a datum yields one after the other: a text its characters, a dictionary its
    keys. -/
def items? : Datum → Option (List Datum)
  | .text s => some (s.toList.map fun c => .text (String.singleton c))
  | .list items => some items
  | .mapping entries => some (entries.keys.map .text)
  | _ => none

end Datum

end TagScope

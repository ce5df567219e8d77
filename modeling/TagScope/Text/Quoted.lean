import TagScope.Text.Printable
/-!
# Quoted text

How a text is written between quotes: on one line, with printable characters only, so that what
stands between the quotes gives the text back.

* `quoteMark`: the single quote, unless the text holds single quotes and no double ones.
* `escaped`: the backslash and the quote in use get a backslash; line feed, carriage return and
  tab their letters; any other unprintable character its code point in the shortest of three widths.
* `quoted`: the whole written form.
-/

namespace TagScope

/-! ## 1. Characters -/

/-- The last `width` hexadecimal digits of `n`, most significant first, in lower case. -/
def hexDigits : Nat → Nat → List Char
  | 0, _ => []
  | width + 1, n => hexDigits width (n / 16) ++ [Nat.digitChar (n % 16)]

/-- The code point `n` as an escape: two digits after `x`, four after `u` or eight after `U`. -/
def codePointEscape (n : Nat) : List Char :=
  if n < 0x100 then '\\' :: 'x' :: hexDigits 2 n
  else if n < 0x10000 then '\\' :: 'u' :: hexDigits 4 n
  else '\\' :: 'U' :: hexDigits 8 n

/-- The character `c` as it stands between two quotes `q`. -/
def escaped (q c : Char) : List Char :=
  if c = q ∨ c = '\\' then ['\\', c]
  else if c = '\n' then ['\\', 'n']
  else if c = '\r' then ['\\', 'r']
  else if c = '\t' then ['\\', 't']
  else if printable c then [c]
  else codePointEscape c.toNat

/-! ## 2. Texts -/

/-- The quote around a text: single, unless only that one would need escapes. -/
def quoteMark (s : String) : Char :=
  if '\'' ∈ s.toList ∧ '"' ∉ s.toList then '"' else '\''

/-- The text between its quotes. -/
def quoted (s : String) : String :=
  let q := quoteMark s
  String.ofList (q :: (s.toList.flatMap (escaped q) ++ [q]))

example : quoted "it's" = "\"it's\"" ∧ quoted "a\"b'" = "'a\"b\\''" := by decide
example : quoted "\t\x7f" = "'\\t\\x7f'" := by decide

end TagScope

import Mathlib.Data.List.Basic

set_option autoImplicit false

/-!
# Python text

The string operations the auditor and the generator apply: reading a file in text mode, `strip`,
`split(',')`, `replace`, `title`, and the character classes `\s` and `\w` of `re`. Python takes
these from its Unicode database; the model fixes them on ASCII and takes the rest, with the
interpreter's limits, as a `Runtime`, so that every result holds whatever that database says.
-/

namespace EventSystemAudit

/-- What the modelled code takes from the interpreter beyond the ASCII range. -/
structure Runtime where
  /-- `\w` (`str.isalnum()` or `_`) on a non-ASCII character. -/
  wordAbove : Char → Bool
  /-- Whether a non-ASCII character is cased. -/
  casedAbove : Char → Bool
  /-- Full lowercase mapping of a non-ASCII character, given the text before and after it
      (final sigma depends on both). -/
  lowerAbove : List Char → Char → List Char → List Char
  /-- Full titlecase mapping of a non-ASCII character. -/
  titleAbove : Char → List Char
  /-- Containers `json.loads` may nest before it raises `RecursionError`. -/
  jsonDepth : ℕ
  /-- `sys.get_int_max_str_digits()`; `0` means no limit. -/
  intMaxStrDigits : ℕ
  /-- Full uppercase mapping of a non-ASCII character. -/
  upperAbove : Char → List Char
  /-- `str.isprintable()` of a non-ASCII character, which `repr` keeps as it is. -/
  printableAbove : Char → Bool

/-- A runtime for inputs in ASCII, where what it says above ASCII is never asked for: nesting of up
    to 900 containers, and the default limit of 4300 digits. -/
def asciiRuntime : Runtime :=
  ⟨fun _ => false, fun _ => false, fun _ c _ => [c], fun c => [c], 900, 4300, fun c => [c], fun _ => false⟩

/-- `str.isspace()` of one character, which is also `\s` of `re` on `str` patterns. -/
def isSpace (c : Char) : Bool :=
  let n := c.toNat
  (9 ≤ n && n ≤ 13) || (28 ≤ n && n ≤ 32) || n == 0x85 || n == 0xA0 || n == 0x1680 ||
    (0x2000 ≤ n && n ≤ 0x200A) || n == 0x2028 || n == 0x2029 || n == 0x202F || n == 0x205F ||
    n == 0x3000

/-- `\w` of `re` on `str` patterns. -/
def isWord (rt : Runtime) (c : Char) : Bool :=
  if c.toNat < 128 then c.isAlphanum || c == '_' else rt.wordAbove c

def isDigit (c : Char) : Bool := '0' ≤ c && c ≤ '9'

/-- `str.strip()`. -/
def strip (s : List Char) : List Char :=
  ((s.dropWhile isSpace).reverse.dropWhile isSpace).reverse

/-- `s.endswith(t)`; also what the pattern `*t` of `glob` asks of a name. -/
def endswith (s t : String) : Bool := t.toList.isSuffixOf s.toList

/-- Text-mode reading (`Path.read_text`): `\r\n` and `\r` become `\n`. -/
def universalNewlines : List Char → List Char
  | '\r' :: '\n' :: rest => '\n' :: universalNewlines rest
  | '\r' :: rest => '\n' :: universalNewlines rest
  | c :: rest => c :: universalNewlines rest
  | [] => []

/-- `str.split(sep)` for a one-character separator. -/
def splitOn (sep : Char) : List Char → List (List Char)
  | [] => [[]]
  | c :: cs =>
    if c = sep then [] :: splitOn sep cs
    else match splitOn sep cs with
      | w :: ws => (c :: w) :: ws
      | [] => [[c]]

/-- `str.replace(a, b)` for single characters. -/
def replaceChar (a b : Char) (s : List Char) : List Char := s.map fun c => if c = a then b else c

def isCased (rt : Runtime) (c : Char) : Bool :=
  if c.toNat < 128 then c.isAlpha else rt.casedAbove c

/-- The loop of `str.title()`: a character after a cased one is lowercased, any other is
    titlecased. `before` is the text already read, last character first. -/
def titleFrom (rt : Runtime) : Bool → List Char → List Char → List Char
  | _, _, [] => []
  | previousCased, before, c :: after =>
    let mapped :=
      if c.toNat < 128 then [if previousCased then c.toLower else c.toUpper]
      else if previousCased then rt.lowerAbove before.reverse c after
      else rt.titleAbove c
    mapped ++ titleFrom rt (isCased rt c) (c :: before) after

/-- `str.title()`. -/
def title (rt : Runtime) (s : List Char) : List Char := titleFrom rt false [] s

/-- The loop of `str.lower()`; `before` is the text already read, last character first. -/
def lowerFrom (rt : Runtime) : List Char → List Char → List Char
  | _, [] => []
  | before, c :: after =>
    (if c.toNat < 128 then [c.toLower] else rt.lowerAbove before.reverse c after) ++
      lowerFrom rt (c :: before) after

/-- `str.lower()`. -/
def lower (rt : Runtime) (s : List Char) : List Char := lowerFrom rt [] s

/-- `str.upper()`. -/
def upper (rt : Runtime) (s : List Char) : List Char :=
  (s.map fun c => if c.toNat < 128 then [c.toUpper] else rt.upperAbove c).flatten

/-- The scan of `str.replace(old, new)`: occurrences from the left, never overlapping; `skip`
    counts the characters still inside the occurrence just replaced. An empty `old` matches
    before every character and at the end. -/
def replaceFrom (old new : List Char) : ℕ → List Char → List Char
  | 0, [] => if old = [] then new else []
  | _ + 1, [] => []
  | skip + 1, _ :: cs => replaceFrom old new skip cs
  | 0, c :: cs =>
    if old.isPrefixOf (c :: cs) then new ++ replaceFrom old new (old.length - 1) cs
    else c :: replaceFrom old new 0 cs

/-- `s.replace(old, new)`. -/
def replaceText (old new s : List Char) : List Char := replaceFrom old new 0 s

/-- The `width` lowercase hexadecimal digits of `n`, the last digit last. -/
def hexDigits (n : ℕ) : ℕ → List Char
  | 0 => []
  | width + 1 => hexDigits (n / 16) width ++ ["0123456789abcdef".toList.getD (n % 16) '0']

/-- One character of `repr` of a string quoted by `quote`. -/
def reprChar (rt : Runtime) (quote c : Char) : List Char :=
  let n := c.toNat
  if c = quote ∨ c = '\\' then ['\\', c]
  else if c = '\t' then ['\\', 't']
  else if c = '\n' then ['\\', 'n']
  else if c = '\r' then ['\\', 'r']
  else if n < 0x20 ∨ n = 0x7f then '\\' :: 'x' :: hexDigits n 2
  else if n < 0x7f then [c]
  else if rt.printableAbove c then [c]
  else if n ≤ 0xff then '\\' :: 'x' :: hexDigits n 2
  else if n ≤ 0xffff then '\\' :: 'u' :: hexDigits n 4
  else '\\' :: 'U' :: hexDigits n 8

/-- `repr(s)`: single quotes, unless the text has one and no double quote. -/
def reprStr (rt : Runtime) (s : List Char) : List Char :=
  let quote := if '\x27' ∈ s ∧ '"' ∉ s then '"' else '\x27'
  quote :: (s.map (reprChar rt quote)).flatten ++ [quote]

end EventSystemAudit

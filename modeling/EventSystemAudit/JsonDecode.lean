import EventSystemAudit.PythonValue
import EventSystemAudit.PythonText

set_option autoImplicit false

/-!
# `json.loads`

CPython's C scanner, one function per scanner routine, over the text as a list of characters
with the position of its head. A scanner call fails with `StopIteration` (no value starts here,
reported as "Expecting value"), with a decode error it raises itself, or with another exception
(`RecursionError` past the nesting limit, `ValueError` past the digit limit of `int`). Every
call takes one unit of fuel; `jsonLoads` gives twice the text length, which no scan exhausts.
-/

namespace EventSystemAudit

inductive ScanFail where
  | stop (pos : ℕ)
  | decode (msg : String) (pos : ℕ)
  | raised (e : PyException)
  | outOfFuel

def isJsonSpace (c : Char) : Bool := c == ' ' || c == '\t' || c == '\n' || c == '\r'

def skipWs : ℕ → List Char → ℕ × List Char
  | i, c :: cs => if isJsonSpace c then skipWs (i + 1) cs else (i, c :: cs)
  | i, [] => (i, [])

def hexVal (c : Char) : Option ℕ :=
  if '0' ≤ c ∧ c ≤ '9' then some (c.toNat - 48)
  else if 'a' ≤ c ∧ c ≤ 'f' then some (c.toNat - 87)
  else if 'A' ≤ c ∧ c ≤ 'F' then some (c.toNat - 55)
  else none

def hex4 (a b c d : Char) : Option ℕ := do
  return (← hexVal a) * 4096 + (← hexVal b) * 256 + (← hexVal c) * 16 + (← hexVal d)

def simpleEscape : Char → Option Char
  | '"' => some '"'
  | '\\' => some '\\'
  | '/' => some '/'
  | 'b' => some '\x08'
  | 'f' => some '\x0c'
  | 'n' => some '\n'
  | 'r' => some '\r'
  | 't' => some '\t'
  | _ => none

def unterminated (begin : ℕ) : ScanFail := .decode "Unterminated string starting at" begin

def loneSurrogate : ScanFail := .raised (.outsideModel "lone surrogate in a JSON string")

def isHighSurrogate (n : ℕ) : Bool := 0xD800 ≤ n && n ≤ 0xDBFF

def isLowSurrogate (n : ℕ) : Bool := 0xDC00 ≤ n && n ≤ 0xDFFF

/-- `scanstring_unicode` (strict): `begin` is the opening quote, `i` the position of the head of
    the text, `acc` the characters decoded so far. Like the C loop it stops at a quote or a
    backslash and rejects a control character; a `\uXXXX` escape of a high surrogate joins the
    escape that follows it when that one is a low surrogate. -/
def scanStr (begin : ℕ) : ℕ → List Char → List Char → Except ScanFail (String × ℕ × List Char)
  | _, [], _ => .error (unterminated begin)
  | i, c :: rest, acc =>
    if c = '"' then .ok (String.mk acc, i + 1, rest)
    else if c = '\\' then
      match rest with
      | [] => .error (unterminated begin)
      | 'u' :: a :: b :: c :: d :: after =>
        match after, hex4 a b c d with
        | [], _ | _ :: _, none => .error (.decode "Invalid \\uXXXX escape" (i + 1))
        | after, some hi =>
          if isLowSurrogate hi then .error loneSurrogate
          else if !isHighSurrogate hi then scanStr begin (i + 6) after (acc ++ [Char.ofNat hi])
          else
            match after with
            | '\\' :: 'u' :: e :: f :: g :: h :: rest =>
              match rest, hex4 e f g h with
              | [], _ => .error loneSurrogate
              | _ :: _, none => .error (.decode "Invalid \\uXXXX escape" (i + 7))
              | rest, some lo =>
                if isLowSurrogate lo then
                  scanStr begin (i + 12) rest
                    (acc ++ [Char.ofNat (0x10000 + (hi - 0xD800) * 1024 + (lo - 0xDC00))])
                else .error loneSurrogate
            | _ => .error loneSurrogate
      | 'u' :: _ => .error (.decode "Invalid \\uXXXX escape" (i + 1))
      | e :: after =>
        match simpleEscape e with
        | some d => scanStr begin (i + 2) after (acc ++ [d])
        | none => .error (.decode "Invalid \\escape" i)
    else if c.toNat ≤ 0x1f then .error (.decode "Invalid control character at" i)
    else scanStr begin (i + 1) rest (acc ++ [c])
termination_by structural _ cs _ => cs

def digitsValue (ds : List Char) : ℕ := ds.foldl (fun n c => 10 * n + (c.toNat - 48)) 0

def numberSign : List Char → Bool × List Char
  | c :: r => if c = '-' then (true, r) else (false, c :: r)
  | [] => (false, [])

/-- The integer digits: `[1-9]` and every digit after it, or a single `0`. -/
def intDigits : List Char → Option (List Char × List Char)
  | c :: r =>
    if '1' ≤ c ∧ c ≤ '9' then some (c :: r.takeWhile isDigit, r.dropWhile isDigit)
    else if c = '0' then some (['0'], r)
    else none
  | [] => none

/-- The optional fraction: a `.` followed by at least one digit, or nothing. -/
def fracDigits : List Char → List Char × List Char
  | c :: r =>
    if c = '.' then
      match r with
      | d :: r' => if isDigit d then (d :: r'.takeWhile isDigit, r'.dropWhile isDigit) else ([], c :: r)
      | [] => ([], c :: r)
    else ([], c :: r)
  | [] => ([], [])

/-- The optional exponent of a number: `[eE][-+]?\d+`, or nothing (the scanner backtracks). -/
def scanExponent (cs : List Char) : Option (Bool × List Char) × List Char :=
  match cs with
  | e :: r =>
    if e = 'e' ∨ e = 'E' then
      let (neg, r') := match r with
        | '-' :: t => (true, t)
        | '+' :: t => (false, t)
        | _ => (false, r)
      if (r'.takeWhile isDigit).isEmpty then (none, cs)
      else (some (neg, r'.takeWhile isDigit), r'.dropWhile isDigit)
    else (none, cs)
  | [] => (none, cs)

/-- `_match_number_unicode`: `-?(0|[1-9]\d*)(\.\d+)?([eE][-+]?\d+)?`, an `int` without fraction
    and exponent, otherwise a `float`. -/
def scanNumber (rt : Runtime) (start : ℕ) (cs : List Char) :
    Except ScanFail (PyVal × ℕ × List Char) :=
  let (neg, body) := numberSign cs
  match intDigits body with
  | none => .error (.stop start)
  | some (ip, r) =>
    let (frac, r) := fracDigits r
    let (expo, r) := scanExponent r
    let taken := cs.length - r.length
    match frac, expo with
    | [], none =>
      if 0 < rt.intMaxStrDigits ∧ rt.intMaxStrDigits < ip.length then
        .error (.raised (.value ("Exceeds the limit (" ++ toString rt.intMaxStrDigits ++
          " digits) for integer string conversion: value has " ++ toString ip.length ++
          " digits; use sys.set_int_max_str_digits() to increase the limit")))
      else .ok (.int (if neg then -(digitsValue ip : ℤ) else digitsValue ip), start + taken, r)
    | _, _ =>
      let e : ℤ := match expo with
        | some (true, ds) => -(digitsValue ds : ℤ)
        | some (false, ds) => digitsValue ds
        | none => 0
      .ok (.float (.ofDecimal neg (digitsValue (ip ++ frac)) (e - frac.length)), start + taken, r)

def recursionLimit (what : String) : ScanFail :=
  .raised (.recursion ("maximum recursion depth exceeded while decoding a JSON " ++ what ++
    " from a unicode string"))

mutual

/-- `scan_once_unicode`: `fuel`, the nesting `depth` still allowed, the position `i` of the head
    of the text. -/
def scanValue (rt : Runtime) : ℕ → ℕ → ℕ → List Char → Except ScanFail (PyVal × ℕ × List Char)
  | 0, _, _, _ => .error .outOfFuel
  | _ + 1, _, i, [] => .error (.stop i)
  | _ + 1, _, i, '"' :: r => (scanStr i (i + 1) r []).map fun (s, j, t) => (.str s, j, t)
  | _ + 1, 0, _, '{' :: _ => .error (recursionLimit "object")
  | fuel + 1, depth + 1, i, '{' :: r =>
    match skipWs (i + 1) r with
    | (j, '}' :: t) => .ok (.dict [], j + 1, t)
    | (j, t) => scanMembers rt fuel depth j t []
  | _ + 1, 0, _, '[' :: _ => .error (recursionLimit "array")
  | fuel + 1, depth + 1, i, '[' :: r =>
    match skipWs (i + 1) r with
    | (j, ']' :: t) => .ok (.list [], j + 1, t)
    | (j, t) => scanElems rt fuel depth j t []
  | _ + 1, _, i, 'n' :: 'u' :: 'l' :: 'l' :: r => .ok (.none, i + 4, r)
  | _ + 1, _, i, 't' :: 'r' :: 'u' :: 'e' :: r => .ok (.bool true, i + 4, r)
  | _ + 1, _, i, 'f' :: 'a' :: 'l' :: 's' :: 'e' :: r => .ok (.bool false, i + 5, r)
  | _ + 1, _, i, 'N' :: 'a' :: 'N' :: r => .ok (.float .nan, i + 3, r)
  | _ + 1, _, i, 'I' :: 'n' :: 'f' :: 'i' :: 'n' :: 'i' :: 't' :: 'y' :: r =>
    .ok (.float (.inf false), i + 8, r)
  | _ + 1, _, i, '-' :: 'I' :: 'n' :: 'f' :: 'i' :: 'n' :: 'i' :: 't' :: 'y' :: r =>
    .ok (.float (.inf true), i + 9, r)
  | _ + 1, _, i, cs => scanNumber rt i cs
termination_by structural f _ _ _ => f

/-- The member loop of `_parse_object_unicode`, at the place of a key. Repeated keys keep their
    first place and their last value. -/
def scanMembers (rt : Runtime) : ℕ → ℕ → ℕ → List Char → List (String × PyVal) →
    Except ScanFail (PyVal × ℕ × List Char)
  | 0, _, _, _, _ => .error .outOfFuel
  | fuel + 1, depth, i, '"' :: r, acc => do
    let (k, i, r) ← scanStr i (i + 1) r []
    match skipWs i r with
    | (i, ':' :: r) =>
      let (i, r) := skipWs (i + 1) r
      let (v, i, r) ← scanValue rt fuel depth i r
      match skipWs i r with
      | (i, '}' :: r) => .ok (.dict (dictSet acc k v), i + 1, r)
      | (i, ',' :: r) =>
        let (i, r) := skipWs (i + 1) r
        scanMembers rt fuel depth i r (dictSet acc k v)
      | (i, _) => .error (.decode "Expecting ',' delimiter" i)
    | (i, _) => .error (.decode "Expecting ':' delimiter" i)
  | _ + 1, _, i, _, _ => .error (.decode "Expecting property name enclosed in double quotes" i)
termination_by structural f _ _ _ _ => f

/-- The element loop of `_parse_array_unicode`, at the place of an element. -/
def scanElems (rt : Runtime) : ℕ → ℕ → ℕ → List Char → List PyVal →
    Except ScanFail (PyVal × ℕ × List Char)
  | 0, _, _, _, _ => .error .outOfFuel
  | fuel + 1, depth, i, cs, acc => do
    let (v, i, r) ← scanValue rt fuel depth i cs
    match skipWs i r with
    | (i, ']' :: r) => .ok (.list (acc ++ [v]), i + 1, r)
    | (i, ',' :: r) =>
      let (i, r) := skipWs (i + 1) r
      scanElems rt fuel depth i r (acc ++ [v])
    | (i, _) => .error (.decode "Expecting ',' delimiter" i)
termination_by structural f _ _ _ _ => f

end

/-- `json.loads` of a `str`. -/
def jsonLoads (rt : Runtime) (s : List Char) : Except PyException PyVal :=
  if s.head? = some '﻿' then
    .error (.jsonDecode "Unexpected UTF-8 BOM (decode using utf-8-sig)" s 0)
  else
    let (i, cs) := skipWs 0 s
    match scanValue rt (2 * s.length + 1) rt.jsonDepth i cs with
    | .ok (v, j, r) =>
      match skipWs j r with
      | (_, []) => .ok v
      | (k, _) => .error (.jsonDecode "Extra data" s k)
    | .error (.stop p) => .error (.jsonDecode "Expecting value" s p)
    | .error (.decode m p) => .error (.jsonDecode m s p)
    | .error (.raised e) => .error e
    | .error .outOfFuel => .error (.outsideModel "decoder fuel")

end EventSystemAudit

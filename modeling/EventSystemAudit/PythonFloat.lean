import Mathlib.Data.Int.Log
import Mathlib.Data.Nat.Digits
import Mathlib.Data.Rat.Floor

set_option autoImplicit false

/-!
# Python floats

A JSON number with a fraction or an exponent decodes to a Python `float`, and the generator prints
`float` payload values with `str`. A `float` is an IEEE binary64 value: `ofDecimal` rounds a decimal
literal to it as `float()` does (to nearest, ties to even), and `repr` prints the shortest digit
string that reads back to the same value, laid out as `float.__repr__` lays it out.
-/

namespace EventSystemAudit

/-- A binary64 value; `finite neg m e` is `(-1)^neg * m * 2^e`. -/
inductive PyFloat where
  | finite (neg : Bool) (mant : ℕ) (exp : ℤ)
  | inf (neg : Bool)
  | nan
  deriving DecidableEq, Repr

/-- A number as Python compares numbers: `bool`, `int` and `float` by exact value. -/
inductive ExtNum where
  | fin (q : ℚ)
  | posInf
  | negInf
  | nan
  deriving DecidableEq, Repr

/-- The strict order of `<` on numbers; every comparison with `nan` is false. -/
def ExtNum.lt : ExtNum → ExtNum → Bool
  | .fin q, .fin r => decide (q < r)
  | .negInf, .fin _ | .negInf, .posInf | .fin _, .posInf => true
  | _, _ => false

namespace PyFloat

def magnitude (m : ℕ) (e : ℤ) : ℚ := m * 2 ^ e

def toExt : PyFloat → ExtNum
  | .finite neg m e => .fin (if neg then -magnitude m e else magnitude m e)
  | .inf neg => if neg then .negInf else .posInf
  | .nan => .nan

def roundHalfEven (q : ℚ) : ℕ :=
  let f := ⌊q⌋₊
  if q - f < 1 / 2 then f
  else if 1 / 2 < q - f then f + 1
  else if f % 2 = 0 then f else f + 1

/-- The binary64 value nearest to `q ≥ 0`, with sign `neg`: 53 significant bits, subnormals
    below `2^-1022`, infinity from `2^1024` on. -/
def ofRat (neg : Bool) (q : ℚ) : PyFloat :=
  if q ≤ 0 then .finite neg 0 0 else
  let e := max (Int.log 2 q - 52) (-1074)
  let m := roundHalfEven (q / 2 ^ e)
  if m = 2 ^ 53 then
    if 971 < e + 1 then .inf neg else .finite neg (2 ^ 52) (e + 1)
  else if 971 < e then .inf neg else .finite neg m e

/-- `float()` of the literal `±digits * 10^exp10`. Literals far outside the binary64 range go to
    zero or infinity without computing the power of ten. -/
def ofDecimal (neg : Bool) (digits : ℕ) (exp10 : ℤ) : PyFloat :=
  if digits = 0 then .finite neg 0 0 else
  let top := exp10 + (Nat.log 10 digits + 1)
  if 310 < top then .inf neg
  else if top < -330 then .finite neg 0 0
  else ofRat neg (digits * 10 ^ exp10)

/-- The shortest `(c, s)` with `c * 10^s` reading back to the positive binary64 value `v`; among
    the shortest the closest to `v`, ties to an even last digit (the digits of `repr`). -/
def shortest (v : ℚ) : ℕ × ℤ :=
  let k := Int.log 10 v
  let back (c : ℕ) (s : ℤ) : Bool := (ofRat false (c * 10 ^ s)).toExt == (ofRat false v).toExt
  let atPrecision (p : ℕ) : Option (ℕ × ℤ) :=
    let s := k - p + 1
    let lo := ⌊v / 10 ^ s⌋₊
    let hi := ⌈v / 10 ^ s⌉₊
    match back lo s, back hi s with
    | true, true =>
      if v - lo * 10 ^ s < hi * 10 ^ s - v then some (lo, s)
      else if hi * 10 ^ s - v < v - lo * 10 ^ s then some (hi, s)
      else if lo % 2 = 0 then some (lo, s) else some (hi, s)
    | true, false => some (lo, s)
    | false, true => some (hi, s)
    | false, false => none
  ((List.range 17).findSome? fun p => atPrecision (p + 1)).getD
    (roundHalfEven (v / 10 ^ (k - 16)), k - 16)

def digitChar (d : ℕ) : Char := Char.ofNat (48 + d)

/-- `"%+.02d"` of an exponent. -/
def exponentText (e : ℤ) : String :=
  (if e < 0 then "-" else "+") ++ (if e.natAbs < 10 then "0" else "") ++ toString e.natAbs

/-- The layout of `float.__repr__` for significant digits `ds` and decimal point position
    `decpt`: exponent form when `decpt ≤ -4` or `16 < decpt`, otherwise positional with `.0`
    added to whole numbers. -/
def layout (ds : List ℕ) (decpt : ℤ) : String :=
  let text (l : List ℕ) : String := String.mk (l.map digitChar)
  if decpt ≤ -4 ∨ 16 < decpt then
    let mant := match ds with
      | d :: rest@(_ :: _) => text [d] ++ "." ++ text rest
      | _ => text ds
    mant ++ "e" ++ exponentText (decpt - 1)
  else if decpt ≤ 0 then "0." ++ String.mk (List.replicate decpt.natAbs '0') ++ text ds
  else if ds.length ≤ decpt.toNat then
    text ds ++ String.mk (List.replicate (decpt.toNat - ds.length) '0') ++ ".0"
  else text (ds.take decpt.toNat) ++ "." ++ text (ds.drop decpt.toNat)

/-- `repr` (and `str`) of a positive binary64 value. -/
def positiveRepr (v : ℚ) : String :=
  let (c, s) := shortest v
  let ds := (Nat.digits 10 c).reverse
  let zeros := (ds.reverse.takeWhile (· = 0)).length
  let sig := ds.take (ds.length - zeros)
  layout sig (sig.length + (s + zeros))

def repr : PyFloat → String
  | .nan => "nan"
  | .inf neg => if neg then "-inf" else "inf"
  | .finite neg m e =>
    (if neg then "-" else "") ++ (if m = 0 then "0.0" else positiveRepr (magnitude m e))

end PyFloat

end EventSystemAudit

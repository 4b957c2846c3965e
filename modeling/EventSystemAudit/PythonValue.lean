import EventSystemAudit.PythonFloat

set_option autoImplicit false

/-!
# Python values, sets and exceptions

The values `json.loads` builds, the hashable ones that can sit in a `set`, and the exceptions the
auditor raises or catches. Equality is the one a `set` uses: `bool`, `int` and `float` compare by
value, so `1`, `1.0` and `True` are one element, whichever was added first.
-/

namespace EventSystemAudit

/-- An exception of the modelled code, with what `str(e)` needs to render it. -/
inductive PyException where
  /-- `json.JSONDecodeError(msg, doc, pos)`. -/
  | jsonDecode (msg : String) (doc : List Char) (pos : ℕ)
  | attribute (typeName attr : String)
  /-- `TypeError` of hashing a list or a dict. -/
  | unhashable (typeName : String)
  /-- `TypeError` of `<` between values of two kinds. -/
  | unorderable (left right : String)
  | recursion (msg : String)
  | value (msg : String)
  /-- An `OSError` or `UnicodeDecodeError` of reading a file, as the environment renders it. -/
  | os (msg : String)
  /-- A string Lean cannot hold (a lone surrogate); the run leaves the model here. -/
  | outsideModel (what : String)
  /-- Any other `TypeError`, with its message. -/
  | type (msg : String)
  | index (msg : String)
  /-- `KeyError(k)`; `str` of it is `repr(k)`. -/
  | key (keyRepr : String)
  deriving DecidableEq, Repr

namespace PyException

/-- `str(e)`; a decode error reports the line and column of `pos` in `doc`. -/
def str : PyException → String
  | .jsonDecode msg doc pos =>
    let before := doc.take pos
    msg ++ ": line " ++ toString (before.count '\n' + 1) ++ " column " ++
      toString ((before.reverse.takeWhile (· ≠ '\n')).length + 1) ++ " (char " ++
      toString pos ++ ")"
  | .attribute t a => "'" ++ t ++ "' object has no attribute '" ++ a ++ "'"
  | .unhashable t => "unhashable type: '" ++ t ++ "'"
  | .unorderable l r => "'<' not supported between instances of '" ++ l ++ "' and '" ++ r ++ "'"
  | .recursion msg | .value msg | .os msg | .outsideModel msg | .type msg | .index msg | .key msg => msg

/-- Whether `except Exception` catches it: every Python exception does. -/
def isException : PyException → Bool
  | .outsideModel _ => false
  | _ => true

end PyException

/-- A value built by `json.loads`; an object keeps its keys in insertion order. -/
inductive PyVal where
  | none
  | bool (b : Bool)
  | int (i : ℤ)
  | float (f : PyFloat)
  | str (s : String)
  | list (xs : List PyVal)
  | dict (kvs : List (String × PyVal))
  deriving Repr

/-- A hashable value: a scalar built by `json.loads`. -/
inductive PyKey where
  | none
  | bool (b : Bool)
  | int (i : ℤ)
  | float (f : PyFloat)
  | str (s : String)
  deriving DecidableEq, Repr

namespace PyVal

def typeName : PyVal → String
  | .none => "NoneType"
  | .bool _ => "bool"
  | .int _ => "int"
  | .float _ => "float"
  | .str _ => "str"
  | .list _ => "list"
  | .dict _ => "dict"

/-- `hash(v)` succeeds exactly on scalars. -/
def toKey? : PyVal → Option PyKey
  | .none => some .none
  | .bool b => some (.bool b)
  | .int i => some (.int i)
  | .float f => some (.float f)
  | .str s => some (.str s)
  | .list _ | .dict _ => Option.none

end PyVal

namespace PyKey

def toVal : PyKey → PyVal
  | .none => .none
  | .bool b => .bool b
  | .int i => .int i
  | .float f => .float f
  | .str s => .str s

def typeName (k : PyKey) : String := k.toVal.typeName

/-- The class of a value under Python equality: numbers by value. -/
inductive Norm where
  | none
  | num (x : ExtNum)
  | str (s : String)
  deriving DecidableEq

def norm : PyKey → Norm
  | .none => .none
  | .bool b => .num (.fin (if b then 1 else 0))
  | .int i => .num (.fin i)
  | .float f => .num f.toExt
  | .str s => .str s

/-- Equality as a `set` decides it (`x is y or x == y`): numbers by value, and the one `NaN`
    object `json.loads` hands out equal to itself. -/
def eqv (a b : PyKey) : Bool := a.norm = b.norm

/-- `str(k)`. -/
def toStr : PyKey → String
  | .none => "None"
  | .bool b => if b then "True" else "False"
  | .int i => toString i
  | .float f => f.repr
  | .str s => s

/-- The order of `str`: code point by code point, a proper prefix first. -/
instance (s t : List Char) : Decidable (List.lt s t) := List.hasDecidableLt s t

/-- `a < b`: strings by code points, numbers by value, anything else a `TypeError`. -/
def lt? (a b : PyKey) : Except PyException Bool :=
  match a.norm, b.norm with
  | .str s, .str t => .ok (decide (List.lt s.data t.data))
  | .num x, .num y => .ok (x.lt y)
  | _, _ => .error (.unorderable a.typeName b.typeName)

@[simp] theorem eqv_iff {a b : PyKey} : a.eqv b = true ↔ a.norm = b.norm := by
  simp [eqv]

end PyKey

/-- Python's `sorted` on hashable values, by insertion as its binary insertion sort places each
    element: after every element it is not less than. Values of two kinds raise `TypeError`. -/
def insertSorted (k : PyKey) : List PyKey → Except PyException (List PyKey)
  | [] => .ok [k]
  | x :: xs => do
    if ← k.lt? x then pure (k :: x :: xs) else return x :: (← insertSorted k xs)

def pySorted (l : List PyKey) : Except PyException (List PyKey) :=
  l.foldlM (fun acc k => insertSorted k acc) []

/-- A Python `set` of hashable values, no two of them equal. Iteration follows insertion. -/
structure PySet where
  elems : List PyKey
  distinct : (elems.map PyKey.norm).Nodup

namespace PySet

def empty : PySet := ⟨[], List.nodup_nil⟩

def mem (s : PySet) (k : PyKey) : Bool := s.elems.any (·.eqv k)

def card (s : PySet) : ℕ := s.elems.length

theorem mem_iff {s : PySet} {k : PyKey} : s.mem k = true ↔ k.norm ∈ s.elems.map PyKey.norm := by
  simp [mem, @eq_comm _ k.norm]

/-- `s.add(k)`: an element equal to `k` already there stays as it is. -/
def insert (s : PySet) (k : PyKey) : PySet :=
  if h : s.mem k then s else
    ⟨s.elems ++ [k], by
      rw [List.map_append, List.nodup_append]
      exact ⟨s.distinct, List.nodup_singleton _, by simpa [mem_iff] using h⟩⟩

/-- `s - t`. -/
def diff (s t : PySet) : PySet :=
  ⟨s.elems.filter (fun k => !t.mem k), s.distinct.sublist ((List.filter_sublist _).map _)⟩

/-- `s.add(v)`: hashing a list or a dict raises. -/
def add (s : PySet) (v : PyVal) : Except PyException PySet :=
  match v.toKey? with
  | some k => .ok (s.insert k)
  | none => .error (.unhashable v.typeName)

/-- The set of string literals `{'a', 'b', …}` of the source. -/
def ofStrings : List String → PySet
  | [] => empty
  | t :: ts => (ofStrings ts).insert (.str t)

/-- `v in s`: hashing comes first. -/
def contains (s : PySet) (v : PyVal) : Except PyException Bool :=
  match v.toKey? with
  | some k => .ok (s.mem k)
  | none => .error (.unhashable v.typeName)

end PySet

/-- `d[k] = v` on a dict with string keys: an existing key keeps its place. -/
def dictSet {β : Type} (d : List (String × β)) (k : String) (v : β) : List (String × β) :=
  if d.any (·.1 = k) then d.map (fun p => if p.1 = k then (k, v) else p) else d ++ [(k, v)]

end EventSystemAudit

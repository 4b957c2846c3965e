import EventSystemAudit.PythonText

set_option autoImplicit false

/-!
# The regular expressions of the auditor

Every pattern the auditor compiles is a sequence of single-character classes, each matched once
or under `+`, `*` or `*?`, with non-nested groups. For such patterns `re`'s backtracking engine
is the matcher below: a greedy quantifier tries its longest run first and gives back one
character at a time, a lazy one tries its shortest first, and the first way through wins.
`search` takes the leftmost start with a match, `findAll` is `re.finditer`.
-/

namespace EventSystemAudit

/-- A pattern element: a character class under a quantifier, or a group boundary. -/
inductive Item where
  | one (p : Char → Bool)
  | plus (p : Char → Bool)
  | star (p : Char → Bool)
  | lazyStar (p : Char → Bool)
  | groupOpen
  | groupClose

/-- The text of a group: what was left at its opening minus what is left at its close. -/
def capture (opened : Option (List Char)) (s : List Char) : String :=
  match opened with
  | some t => String.mk (t.take (t.length - s.length))
  | none => ""

/-- The backtracking matcher. `opened` is the text left where the open group started, `caps` the
    groups closed so far; the result is the text left after the match and the groups. -/
def matchItems : List Item → Option (List Char) → List String → List Char →
    Option (List Char × List String)
  | [], _, caps, s => some (s, caps)
  | .one p :: rest, o, caps, c :: s => if p c then matchItems rest o caps s else none
  | .one _ :: _, _, _, [] => none
  | .plus p :: rest, o, caps, s =>
    ((List.range (s.takeWhile p).length).reverse.map (· + 1)).findSome? fun k =>
      matchItems rest o caps (s.drop k)
  | .star p :: rest, o, caps, s =>
    (List.range ((s.takeWhile p).length + 1)).reverse.findSome? fun k =>
      matchItems rest o caps (s.drop k)
  | .lazyStar p :: rest, o, caps, s =>
    (List.range ((s.takeWhile p).length + 1)).findSome? fun k =>
      matchItems rest o caps (s.drop k)
  | .groupOpen :: rest, _, caps, s => matchItems rest (some s) caps s
  | .groupClose :: rest, o, caps, s => matchItems rest none (caps ++ [capture o s]) s

structure Match where
  len : ℕ
  groups : List String

def matchAt (pat : List Item) (s : List Char) : Option Match :=
  (matchItems pat none [] s).map fun r => ⟨s.length - r.1.length, r.2⟩

/-- `re.search`: the match at the leftmost position that has one. -/
def search (pat : List Item) : List Char → Option Match
  | [] => matchAt pat []
  | c :: cs => (matchAt pat (c :: cs)).orElse fun _ => search pat cs

/-- `re.finditer` for a pattern that never matches empty text, as none of the source's does:
    after a match the scan resumes at its end. `skip` counts the characters still inside it. -/
def findAllFrom (pat : List Item) : ℕ → List Char → List Match
  | _, [] => []
  | skip + 1, _ :: cs => findAllFrom pat skip cs
  | 0, c :: cs =>
    match matchAt pat (c :: cs) with
    | some m => m :: findAllFrom pat (m.len - 1) cs
    | none => findAllFrom pat 0 cs

def findAll (pat : List Item) (s : List Char) : List Match := findAllFrom pat 0 s

def lit (s : String) : List Item := s.toList.map fun c => .one (· == c)

def group (i : Item) : List Item := [.groupOpen, i, .groupClose]

/-- `<opening>(.*?)\n\}` under `re.DOTALL`: from `opening` to the first line that starts with
    `\}`, capturing what lies between. -/
def blockPattern (opening : String) : List Item :=
  lit opening ++ group (.lazyStar fun _ => true) ++ lit "\n\x7d"

/-- `type RawEvent struct \{(.*?)\n\}` under `re.DOTALL`. -/
def structPattern : List Item := blockPattern "type RawEvent struct \x7b"

/-- The class `[\w\.\*\[\]]` of Go type names in the field pattern. -/
def isGoTypeChar (rt : Runtime) (c : Char) : Bool := isWord rt c || c == '.' || c == '*' || c == '[' || c == ']'

/-- The field pattern of `parse_go_struct`: name, type and JSON tag of a tagged field. -/
def fieldPattern (rt : Runtime) : List Item :=
  group (.plus (isWord rt)) ++ [.plus isSpace] ++ group (.plus (isGoTypeChar rt)) ++
    [.plus isSpace] ++ lit "\x60json:\"" ++ group (.plus (· != '"')) ++ lit "\"\x60"

/-- `Event\w+\s+EventType\s+=\s+"([^"]+)"`. -/
def constPattern (rt : Runtime) : List Item :=
  lit "Event" ++ [.plus (isWord rt), .plus isSpace] ++ lit "EventType" ++ [.plus isSpace] ++
    lit "=" ++ [.plus isSpace] ++ lit "\"" ++ group (.plus (· != '"')) ++ lit "\""

/-- `body:json \{(.*?)\n\}` under `re.DOTALL`. -/
def bodyPattern : List Item := blockPattern "body:json \x7b"

end EventSystemAudit

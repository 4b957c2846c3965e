import EventSystemAudit.PythonValue
import EventSystemAudit.PythonText

set_option autoImplicit false

/-!
# `pathlib` paths and the file system they name

A POSIX path is an anchor and a list of parts: `PurePosixPath` drops empty parts and `.`, keeps
`..`, and keeps two leading slashes apart from one. `/` appends the parts of a relative path and
restarts at an absolute one; `relative_to` drops a leading path. The file system says what each
path holds; `mkdir` and `open(…, 'w')` fail as the kernel does, on the way to a path (`ENOENT` at
a missing directory, `ENOTDIR` at a file) and at the path itself. The kernel takes a path part by
part: once the walk has found a directory at `a/b`, `a/b/..` is `a`. The tree has no links, so
what a path names is its resolved form, in which each `..` has taken back the part before it; the
walk still passes every prefix of the path as written.
-/

namespace EventSystemAudit

/-- A path as `PurePosixPath` holds it: its anchor (`""`, `"/"` or `"//"`) and its parts. -/
structure PosixPath where
  root : String
  parts : List String
  deriving DecidableEq, Repr

namespace PosixPath

/-- The anchor of a path text: exactly two leading slashes are kept, one or more than two give `/`. -/
def rootOf : List Char → String
  | '/' :: '/' :: '/' :: _ => "/"
  | '/' :: '/' :: _ => "//"
  | '/' :: _ => "/"
  | _ => ""

/-- `PurePosixPath(s)`. -/
def parse (s : String) : PosixPath :=
  ⟨rootOf s.toList, ((splitOn '/' s.toList).filter fun p => p ≠ [] ∧ p ≠ ['.']).map String.mk⟩

/-- `p / s`. -/
def join (p : PosixPath) (s : String) : PosixPath :=
  let q := parse s
  if q.root = "" then ⟨p.root, p.parts ++ q.parts⟩ else q

/-- `str(p)`. -/
def str (p : PosixPath) : String :=
  if p.root = "" ∧ p.parts = [] then "." else p.root ++ "/".intercalate p.parts

/-- `p.relative_to(base)`. -/
def relativeTo (rt : Runtime) (p base : PosixPath) : Except PyException PosixPath :=
  if p.root = base.root ∧ base.parts <+: p.parts then .ok ⟨"", p.parts.drop base.parts.length⟩
  else .error (.value (String.mk (reprStr rt p.str.toList) ++ " is not in the subpath of " ++
    String.mk (reprStr rt base.str.toList)))

/-- One part onto the resolved parts, kept last part first: `..` takes back the part before it,
    stays at an anchor, and is kept above the working directory. -/
def resolveStep (root : String) (acc : List String) (q : String) : List String :=
  if q = ".." then
    match acc with
    | a :: rest => if a = ".." then q :: acc else rest
    | [] => if root = "" then [q] else []
  else q :: acc

/-- The path the kernel reaches for `p` in a tree without links. -/
def resolve (p : PosixPath) : PosixPath := ⟨p.root, (p.parts.foldl (resolveStep p.root) []).reverse⟩

/-- Whether `p` reaches an anchor, the working directory, or a directory above it. -/
def top (p : PosixPath) : Bool := p.resolve.parts.all (· == "..")

/-- The proper ancestors of `p` below its anchor, the shortest first. -/
def ancestors (p : PosixPath) : List PosixPath :=
  (List.range (p.parts.length - 1)).map fun k => ⟨p.root, p.parts.take (k + 1)⟩

end PosixPath

inductive Node where
  | dir
  | file (content : String)
  deriving DecidableEq, Repr

/-- The resolved paths of a file system with what each holds; an anchor, the working directory
    and those above it are directories, and a path not listed does not exist. -/
structure FileSystem where
  entries : List (PosixPath × Node)

inductive WalkFailure where
  | missing
  | notDir
  deriving DecidableEq

namespace FileSystem

variable (rt : Runtime)

def node? (fs : FileSystem) (p : PosixPath) : Option Node :=
  if p.top then some .dir else (fs.entries.find? (·.1 = p.resolve)).map Prod.snd

/-- The file system with `p` holding `n`. -/
def set (fs : FileSystem) (p : PosixPath) (n : Node) : FileSystem :=
  ⟨if fs.entries.any (·.1 = p.resolve) then fs.entries.map (fun e => if e.1 = p.resolve then (p.resolve, n) else e)
    else fs.entries ++ [(p.resolve, n)]⟩

/-- The first proper ancestor of `p` that is not a directory. -/
def walk (fs : FileSystem) (p : PosixPath) : Option WalkFailure :=
  p.ancestors.findSome? fun a =>
    match fs.node? a with
    | some .dir => none
    | some (.file _) => some .notDir
    | none => some .missing

/-- `str(e)` of an `OSError` about `p`. -/
def osError (errno : ℕ) (msg : String) (p : PosixPath) : PyException :=
  .os ("[Errno " ++ toString errno ++ "] " ++ msg ++ ": " ++ String.mk (reprStr rt p.str.toList))

def walkError (p : PosixPath) : WalkFailure → PyException
  | .missing => osError rt 2 "No such file or directory" p
  | .notDir => osError rt 20 "Not a directory" p

/-- `p.mkdir(exist_ok=True)`. -/
def mkdir (fs : FileSystem) (p : PosixPath) : Except PyException FileSystem :=
  match fs.walk p with
  | some f => .error (walkError rt p f)
  | none =>
    match fs.node? p with
    | some .dir => .ok fs
    | some (.file _) => .error (osError rt 17 "File exists" p)
    | none => .ok (fs.set p .dir)

/-- `p.mkdir(parents=True, exist_ok=True)` for the path with anchor `root` and parts
    `rparts.reverse`: on `ENOENT` the parent is made first, and then the path. -/
def mkdirParentsRev (root : String) : List String → FileSystem → Except PyException FileSystem
  | [], fs => mkdir rt fs ⟨root, []⟩
  | part :: rparts, fs =>
    let p : PosixPath := ⟨root, (part :: rparts).reverse⟩
    match fs.walk p with
    | some .missing => do mkdir rt (← mkdirParentsRev root rparts fs) p
    | _ => mkdir rt fs p

def mkdirParents (fs : FileSystem) (p : PosixPath) : Except PyException FileSystem :=
  mkdirParentsRev rt p.root p.parts.reverse fs

/-- `open(p, 'w')` and `write(content)`. -/
def write (fs : FileSystem) (p : PosixPath) (content : String) : Except PyException FileSystem :=
  match fs.walk p with
  | some f => .error (walkError rt p f)
  | none =>
    match fs.node? p with
    | some .dir => .error (osError rt 21 "Is a directory" p)
    | _ => .ok (fs.set p (.file content))

end FileSystem

end EventSystemAudit

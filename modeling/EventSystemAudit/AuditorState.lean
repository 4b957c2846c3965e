import EventSystemAudit.PythonValue
import EventSystemAudit.PythonText

set_option autoImplicit false

/-!
# The auditor's state and inputs

`tools/audit_event_system.py` keeps one `EventSystemAuditor` per run: the schema fields, the
event types of the Go enum and of the Bruno samples, the samples themselves and a
`ValidationResult` every phase appends to. Its input is the directory `base_dir`, of which the
auditor reads two Go files and the `.bru` files of one directory.
-/

namespace EventSystemAudit

/-- `ValidationResult`: counters and the ordered issue list. -/
structure ValidationResult where
  passed : ℕ
  failed : ℕ
  warnings : ℕ
  errors : List String
  deriving DecidableEq, Repr

/-- The source's warning prefix, the bytes of a mis-decoded warning sign. -/
def warningMark : String := "‚ö†Ô∏è  "

namespace ValidationResult

def empty : ValidationResult := ⟨0, 0, 0, []⟩

@[simp] theorem empty_errors : empty.errors = [] := rfl

def addError (r : ValidationResult) (msg : String) : ValidationResult :=
  { r with errors := r.errors ++ [msg], failed := r.failed + 1 }

def addPass (r : ValidationResult) : ValidationResult := { r with passed := r.passed + 1 }

def addWarning (r : ValidationResult) (msg : String) : ValidationResult :=
  { r with errors := r.errors ++ [warningMark ++ msg], warnings := r.warnings + 1 }

def isSuccess (r : ValidationResult) : Bool := r.failed == 0

def addErrors (r : ValidationResult) (msgs : List String) : ValidationResult :=
  msgs.foldl addError r

@[simp] theorem addErrors_nil (r : ValidationResult) : r.addErrors [] = r := rfl

@[simp] theorem addErrors_cons (r : ValidationResult) (m : String) (ms : List String) :
    r.addErrors (m :: ms) = (r.addError m).addErrors ms := rfl

@[simp] theorem addErrors_append (r : ValidationResult) (ms ns : List String) :
    r.addErrors (ms ++ ns) = (r.addErrors ms).addErrors ns := List.foldl_append _ _ _ _

theorem addErrors_eq (r : ValidationResult) (ms : List String) :
    r.addErrors ms = { r with errors := r.errors ++ ms, failed := r.failed + ms.length } := by
  induction ms generalizing r with
  | nil => simp
  | cons m ms ih => simp [ih, addError, Nat.add_assoc, Nat.add_comm 1]

end ValidationResult

/-- `GoStructField`. -/
structure GoStructField where
  name : String
  goType : String
  jsonName : String
  isRequired : Bool
  deriving DecidableEq, Repr

/-- `BrunoEvent`, with the file's name for its path (the only part of the path read) and
    without the display name, which nothing reads. -/
structure BrunoEvent where
  fileName : String
  payload : List (String × PyVal)

/-- `event_type`, which `parse_bru_file` always sets to `payload.get('type', '')`. -/
def BrunoEvent.eventType (ev : BrunoEvent) : PyVal := (ev.payload.lookup "type").getD (.str "")

/-- `EventSystemAuditor`'s fields; `__init__` builds `Auditor.init`. -/
structure Auditor where
  goFields : List (String × GoStructField)
  brunoEvents : List BrunoEvent
  eventTypesGo : PySet
  eventTypesBruno : PySet
  results : ValidationResult

def Auditor.init : Auditor := ⟨[], [], .empty, .empty, .empty⟩

/-- `self.results.add_error(msg)`. -/
def Auditor.addError (a : Auditor) (msg : String) : Auditor :=
  { a with results := a.results.addError msg }

/-- A file as `Path.exists()` and `Path.read_text()` see it: absent, present but unreadable
    (a directory, or not UTF-8; the text of the exception), or its contents. -/
inductive FileState where
  | missing
  | unreadable (msg : String)
  | text (raw : String)

/-- A directory entry: its name, and the text or the read exception of `read_text()`. -/
structure BruEntry where
  name : String
  content : Except String String

/-- What the auditor reads under `base_dir`. -/
structure Repo where
  /-- `str(base_dir)`. -/
  baseDir : String
  eventsGo : FileState
  eventTypesGenerated : FileState
  /-- `bruno/Ingestion/Events`: `none` when it does not exist. -/
  brunoEventsDir : Option (List BruEntry)

/-- `str(base / rel)` for a normalised base path. -/
def joinPath (base rel : String) : String :=
  if base = "." then rel else if endswith base "/" then base ++ rel else base ++ "/" ++ rel

end EventSystemAudit

import EventSystemAudit.AuditorState
import EventSystemAudit.RegexMatch
import EventSystemAudit.JsonDecode
import Mathlib.Data.List.Sort

set_option autoImplicit false

/-!
# The extraction phases

`parse_go_struct`, `parse_event_types_enum` and `parse_bruno_files` with `parse_bru_file`. Each
reads its own input and writes its own part of the auditor, and all three append to the shared
`ValidationResult`. A missing input is an Error and an empty result; an unreadable Go file
raises out of the phase, while every exception of one `.bru` file is caught and recorded.
-/

namespace EventSystemAudit

section
variable (rt : Runtime)

/-- The field `parse_go_struct` builds from one match of the field pattern. -/
def fieldOf (m : Match) : GoStructField :=
  let parts := splitOn ',' (m.groups.getD 2 "").toList
  let jsonName := String.mk (parts.headD [])
  ⟨m.groups.getD 0 "", m.groups.getD 1 "", jsonName, !parts.contains "omitempty".toList⟩

/-- The loop of `parse_go_struct` over the struct body: `go_fields[json_name] = …`. -/
def fieldsOfBody (body : String) (d : List (String × GoStructField)) :
    List (String × GoStructField) :=
  (findAll (fieldPattern rt) body.toList).foldl (fun d m => dictSet d (fieldOf m).jsonName (fieldOf m)) d

/-- `parse_go_struct`. -/
def parseGoStruct (repo : Repo) (a : Auditor) : Except PyException Auditor :=
  match repo.eventsGo with
  | .missing => .ok (a.addError ("Cannot find " ++ joinPath repo.baseDir "internal/models/events.go"))
  | .unreadable msg => .error (.os msg)
  | .text raw =>
    match search structPattern (universalNewlines raw.toList) with
    | none => .ok (a.addError "Cannot find RawEvent struct definition")
    | some m => .ok { a with goFields := fieldsOfBody rt (m.groups.getD 0 "") a.goFields }

/-- The literals the enum pattern finds, added to a set in order. -/
def typesOfEnum (text : List Char) (s : PySet) : PySet :=
  (findAll (constPattern rt) text).foldl (fun s m => s.insert (.str (m.groups.getD 0 ""))) s

/-- `parse_event_types_enum`. -/
def parseEventTypesEnum (repo : Repo) (a : Auditor) : Except PyException Auditor :=
  match repo.eventTypesGenerated with
  | .missing => .ok (a.addError
      ("Cannot find " ++ joinPath repo.baseDir "internal/models/event_types_generated.go"))
  | .unreadable msg => .error (.os msg)
  | .text raw => .ok { a with eventTypesGo := typesOfEnum rt (universalNewlines raw.toList) a.eventTypesGo }

/-- `payload.get('type', '')` on a decoded body, and `BrunoEvent(…)`; a body that is not an
    object has no `get`. -/
def eventOfPayload (name : String) : PyVal → Except PyException BrunoEvent
  | .dict kvs => .ok ⟨name, kvs⟩
  | v => .error (.attribute v.typeName "get")

/-- The stripped text of the first `body:json` block of a file read as `raw`. -/
def bodyText? (raw : String) : Option (List Char) :=
  (search bodyPattern (universalNewlines raw.toList)).map fun m => strip (m.groups.getD 0 "").toList

/-- `parse_bru_file`: `none` without a `body:json` block, or with a body that is not JSON (an Error
    is recorded); the exceptions of `read_text`, of other decoding failures and of `get` escape. -/
def parseBruFile (e : BruEntry) (r : ValidationResult) :
    Except PyException (Option BrunoEvent × ValidationResult) :=
  match e.content with
  | .error msg => .error (.os msg)
  | .ok raw =>
    match bodyText? raw with
    | none => .ok (none, r)
    | some text =>
      match jsonLoads rt text with
      | .error ex@(.jsonDecode ..) => .ok (none, r.addError (e.name ++ ": Invalid JSON - " ++ ex.str))
      | .error ex => .error ex
      | .ok v => (eventOfPayload e.name v).map fun ev => (some ev, r)

/-- The handler of the loop body of `parse_bruno_files`. -/
def recordFailure (name : String) (a : Auditor) (ex : PyException) : Except PyException Auditor :=
  if ex.isException then
    .ok (a.addError ("Failed to parse " ++ name ++ ": " ++ ex.str))
  else .error ex

/-- One iteration of `parse_bruno_files`: the sample is appended before its type is added, so a
    type that cannot be hashed leaves the sample in place with an Error. -/
def loadBruFile (a : Auditor) (e : BruEntry) : Except PyException Auditor :=
  match parseBruFile rt e a.results with
  | .error ex => recordFailure e.name a ex
  | .ok (none, r) => .ok { a with results := r }
  | .ok (some ev, r) =>
    let a' := { a with results := r, brunoEvents := a.brunoEvents ++ [ev] }
    match a'.eventTypesBruno.add ev.eventType with
    | .ok s => .ok { a' with eventTypesBruno := s }
    | .error ex => recordFailure e.name a' ex

/-- `sorted(bruno_dir.glob("*.bru"))`: paths of one directory compare by their names, code point
    by code point. -/
def bruFiles (entries : List BruEntry) : List BruEntry :=
  (entries.filter fun e => endswith e.name ".bru").insertionSort (fun x y => String.le x.name y.name)

/-- The loop of `parse_bruno_files` over files in the given order. -/
def loadBruFiles (a : Auditor) (files : List BruEntry) : Except PyException Auditor :=
  files.foldlM (loadBruFile rt) a

/-- `parse_bruno_files`, its loop visiting the entries of the directory in the order `order`
    lists them. -/
def parseBrunoFilesBy (order : List BruEntry → List BruEntry) (repo : Repo) (a : Auditor) :
    Except PyException Auditor :=
  match repo.brunoEventsDir with
  | none => .ok (a.addError
      ("Cannot find Bruno events directory: " ++ joinPath repo.baseDir "bruno/Ingestion/Events"))
  | some entries => loadBruFiles rt a (order entries)

/-- `parse_bruno_files`: the loop visits `sorted(bruno_dir.glob("*.bru"))`. -/
def parseBrunoFiles (repo : Repo) (a : Auditor) : Except PyException Auditor :=
  parseBrunoFilesBy rt bruFiles repo a

end

end EventSystemAudit

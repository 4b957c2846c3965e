import EventSystemAudit.PythonValue
import EventSystemAudit.PythonText

set_option autoImplicit false

/-!
# `generate_bru_file`

The generator writes one Bruno request per event type: its metadata, its headers, a `body:json`
block holding the payload as one line of JSON, a block of tests, and a documentation block that
lists the payload's fields. The JSON is built by string concatenation, without escaping, and it is
an array of one object, the shape the ingest endpoint takes.
-/

namespace EventSystemAudit

/-- The part `generate_bru_file` writes for one payload entry, `"key":value`; an entry of another
    type is skipped. -/
def jsonPart (key : String) : PyVal → Option String
  | .str s => some ("\"" ++ key ++ "\":\"" ++ s ++ "\"")
  | .bool b => some ("\"" ++ key ++ "\":" ++ (if b then "true" else "false"))
  | .int n => some ("\"" ++ key ++ "\":" ++ toString n)
  | .float f => some ("\"" ++ key ++ "\":" ++ f.repr)
  | _ => none

/-- `json_parts`: the event type first, then the payload's entries in order. -/
def jsonParts (eventType : String) (payload : List (String × PyVal)) : List String :=
  ("\"type\":\"" ++ eventType ++ "\"") :: payload.filterMap fun (k, v) => jsonPart k v

/-- `json_body`. -/
def jsonBody (eventType : String) (payload : List (String × PyVal)) : String :=
  "[\x7b" ++ ",".intercalate (jsonParts eventType payload) ++ "\x7d]"

/-- `event_type.replace('_', ' ').title()`. -/
def displayName (rt : Runtime) (eventType : String) : String :=
  String.mk (title rt (replaceChar '_' ' ' eventType.toList))

/-- The lines of the payload's fields in the documentation block. -/
def fieldLines (payload : List (String × PyVal)) : String :=
  "\n".intercalate (payload.map fun (k, v) => "  - \x60" ++ k ++ "\x60: " ++ v.typeName)

/-! The template of `generate_bru_file`, piece by piece between its placeholders. -/

def metaOpen : String := "meta \x7b\n  name: "

/-- From the end of the name to the indentation of the JSON body. -/
def requestBlocks : String :=
  "\n  type: http\n  seq: 1\n\x7d\n\npost \x7b\n  url: \x7b\x7bbase_url\x7d\x7d/ingest/events\n  body: json\n  auth: none\n\x7d\n\nheaders \x7b\n  Content-Type: application/json\n  X-Server-Token: \x7b\x7bserver_token\x7d\x7d\n\x7d\n\nbody:json \x7b\n  "

/-- From the end of the JSON body to the title of the documentation. -/
def testsBlock : String :=
  "\n\x7d\n\ntests \x7b\n  test(\"Response status is 202\", function() \x7b\n    expect(res.status).to.equal(202);\n  \x7d);\n  \n  test(\"Response has status property\", function() \x7b\n    expect(res.body).to.have.property('status');\n    expect(res.body.status).to.equal('accepted');\n  \x7d);\n  \n  test(\"At least one event processed\", function() \x7b\n    expect(res.body).to.have.property('processed');\n    expect(res.body.processed).to.be.greaterThan(0);\n  \x7d);\n\x7d\n\ndocs \x7b\n  ## "

def docsTypeLine : String := " Event\n  \n  Event Type: \x60"

def docsDescription : String := "\x60\n  \n  ### Description\n  This event is posted when a "

def docsFields : String := " occurs in the game.\n  \n  ### Payload Fields\n  "

def docsNotes : String :=
  "\n  \n  ### Notes\n  - Modify the payload values as needed for your test scenario\n  - The type field is set to \x60"

def docsClose : String := "\x60\n  - Uses server_token from environment for authentication\n\x7d\n"

/-- `generate_bru_file(event_type, payload)`. -/
def generateBruFile (rt : Runtime) (eventType : String) (payload : List (String × PyVal)) : String :=
  metaOpen ++ displayName rt eventType ++ requestBlocks ++ jsonBody eventType payload ++ testsBlock ++
    displayName rt eventType ++ docsTypeLine ++ eventType ++ docsDescription ++
    String.mk (replaceChar '_' ' ' eventType.toList) ++ docsFields ++ fieldLines payload ++ docsNotes ++
    eventType ++ docsClose

/-- `EVENT_PAYLOADS["game_end"]`. -/
def gameEndPayload : List (String × PyVal) := [("duration", .int 1200), ("reason", .str "time_limit")]

example : jsonBody "game_end" gameEndPayload =
    "[\x7b\"type\":\"game_end\",\"duration\":1200,\"reason\":\"time_limit\"\x7d]" := by
  decide

end EventSystemAudit

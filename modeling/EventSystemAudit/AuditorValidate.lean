import EventSystemAudit.AuditorState

set_option autoImplicit false

/-!
# The validation phases

`validate_bruno_payloads`, `validate_guid_fields` and `validate_event_counts`. They read the
extracted data and only append to the `ValidationResult`; `validate_guid_fields` also reads the
warning counter to decide its pass, and hashes each sample's type, which raises for a list or an
object.
-/

namespace EventSystemAudit

/-- The source's error prefix, the bytes of a mis-decoded cross mark. -/
def errorMark : String := "‚ùå "

/-- `k in d` for a dict with string keys. -/
def hasKey {β : Type} (d : List (String × β)) (k : String) : Bool := (d.lookup k).isSome

/-- The Errors `validate_bruno_payloads` records for one sample: one for a missing `type`, else
    one for each key that is not a wire key of the schema. -/
def payloadErrors (goFields : List (String × GoStructField)) (ev : BrunoEvent) : List String :=
  if !hasKey ev.payload "type" then [errorMark ++ ev.fileName ++ ": Missing required 'type' field"]
  else ev.payload.filterMap fun (k, _) =>
    if hasKey goFields k then none
    else if k = "event_type" then
      some (errorMark ++ ev.fileName ++ ": Uses 'event_type' instead of 'type'")
    else if k = "guid" then
      some (errorMark ++ ev.fileName ++
        ": Ambiguous 'guid' field (should be player_guid, attacker_guid, or victim_guid)")
    else some (errorMark ++ ev.fileName ++ ": Unknown field '" ++ k ++ "' (not in Go struct)")

/-- `validate_bruno_payloads`: the pass is recorded when no Error was. -/
def validateBrunoPayloads (a : Auditor) : Auditor :=
  let errs := a.brunoEvents.flatMap (payloadErrors a.goFields)
  let r := a.results.addErrors errs
  { a with results := if errs.isEmpty then r.addPass else r }

def combatEvents : PySet :=
  .ofStrings ["player_kill", "bot_killed", "team_kill", "damage", "player_damage", "bot_damage",
    "team_damage"]

def singlePlayerEvents : PySet :=
  .ofStrings ["jump", "crouch", "prone", "stand", "sprint", "walk", "spawn", "respawn", "say",
    "say_team", "connect", "disconnect", "weapon_pickup", "weapon_switch", "weapon_drop", "reload",
    "item_pickup", "item_use", "item_drop"]

/-- An issue of `validate_guid_fields`. -/
inductive Finding where
  | error (msg : String)
  | warning (msg : String)

def Finding.record (r : ValidationResult) : Finding → ValidationResult
  | .error m => r.addError m
  | .warning m => r.addWarning m

/-- What `validate_guid_fields` records for one sample. -/
def guidFindings (ev : BrunoEvent) : Except PyException (List Finding) := do
  let has := hasKey ev.payload
  if has "guid" then return [.error (errorMark ++ ev.fileName ++ ": Uses ambiguous 'guid' field")]
  if ← combatEvents.contains ev.eventType then
    if has "attacker_guid" && has "victim_guid" then return []
    let actual := (if has "attacker_guid" then ["attacker_guid"] else []) ++
      (if has "victim_guid" then ["victim_guid"] else []) ++
      (if has "player_guid" then ["player_guid"] else [])
    let actualStr := if actual.isEmpty then "none" else ", ".intercalate actual
    return [.warning (ev.fileName ++ ": Combat event should have attacker_guid AND victim_guid, has " ++
      actualStr)]
  if ← singlePlayerEvents.contains ev.eventType then
    if has "player_guid" then return []
    return [.warning (ev.fileName ++ ": Single-player event should have player_guid")]
  return []

/-- `validate_guid_fields`: the pass needs no ambiguous `guid` and a warning counter at zero. -/
def validateGuidFields (a : Auditor) : Except PyException Auditor := do
  let fs ← a.brunoEvents.mapM guidFindings
  let r := fs.flatten.foldl Finding.record a.results
  let ambiguous := a.brunoEvents.any fun ev => hasKey ev.payload "guid"
  return { a with results := if !ambiguous && r.warnings == 0 then r.addPass else r }

def expectedCount : ℕ := 105

def countMismatch (goCount brunoCount fileCount : ℕ) : String :=
  "Event count mismatch: Go=" ++ toString goCount ++ ", Bruno Types=" ++ toString brunoCount ++
    ", Bruno Files=" ++ toString fileCount ++ ", Expected=" ++ toString expectedCount

def missingInBruno (t : PyKey) : String := "Event type '" ++ t.toStr ++ "' in Go but missing in Bruno"

def extraInBruno (t : PyKey) : String := "Event type '" ++ t.toStr ++ "' in Bruno but not in Go enum"

/-- `validate_event_counts`: the count check, then one Error per type of either set difference,
    each difference in sorted order. -/
def validateEventCounts (a : Auditor) : Except PyException Auditor := do
  let goCount := a.eventTypesGo.card
  let brunoCount := a.eventTypesBruno.card
  let fileCount := a.brunoEvents.length
  let r := if goCount = expectedCount ∧ brunoCount = expectedCount ∧ fileCount = expectedCount
    then a.results.addPass else a.results.addError (countMismatch goCount brunoCount fileCount)
  let missing ← pySorted (a.eventTypesGo.diff a.eventTypesBruno).elems
  let r := r.addErrors (missing.map missingInBruno)
  let extra ← pySorted (a.eventTypesBruno.diff a.eventTypesGo).elems
  return { a with results := r.addErrors (extra.map extraInBruno) }

end EventSystemAudit

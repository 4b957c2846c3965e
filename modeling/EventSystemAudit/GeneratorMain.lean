import EventSystemAudit.BrunoGenerator
import EventSystemAudit.RegexMatch
import EventSystemAudit.AuditorState

set_option autoImplicit false

/-!
# `main` of the event generator

`main` reads the enum file, finds its literals with the enum pattern, and for each literal that
has a sample payload in `EVENT_PAYLOADS` writes `<Display Name>.bru` into the events directory,
after giving the payload the `match_id` and `timestamp` fields it lacks. `created_count` counts
the files it wrote; a literal without a payload is only reported.
-/

namespace EventSystemAudit

/-- The payloads under `# Game Flow Events`. -/
def gameFlowPayloads : List (String × List (String × PyVal)) := [
  ("game_init", [("map_name", .str "dm/mohdm1"), ("game_type", .str "1"), ("max_players", .int 32)]),
  ("game_start", [("timestamp", .str "2026-02-02T10:00:00Z")]),
  ("game_end", [("duration", .int 1200), ("reason", .str "time_limit")]),
  ("match_start", [("match_id", .str "\x7b\x7bmatch_id\x7d\x7d"), ("map_name", .str "dm/mohdm1")]),
  ("match_end", [("match_id", .str "\x7b\x7bmatch_id\x7d\x7d"), ("duration", .int 900)]),
  ("match_outcome", [("match_id", .str "\x7b\x7bmatch_id\x7d\x7d"), ("winner", .str "allies"),
    ("allied_score", .int 150), ("axis_score", .int 120)]),
  ("round_start", [("round_number", .int 1)]),
  ("round_end", [("round_number", .int 1), ("duration", .int 300)]),
  ("warmup_start", [("server_id", .str "\x7b\x7bserver_id\x7d\x7d")]),
  ("warmup_end", [("duration", .int 30)]),
  ("intermission_start", [("server_id", .str "\x7b\x7bserver_id\x7d\x7d")])]

/-- The payloads under `# Combat Events`. -/
def combatPayloads : List (String × List (String × PyVal)) := [
  ("player_kill", [("match_id", .str "\x7b\x7bmatch_id\x7d\x7d"),
    ("timestamp", .float (.ofDecimal false 17385408000 (-1))),
    ("attacker_guid", .str "\x7b\x7bguid\x7d\x7d"), ("victim_guid", .str "victim_abc123"),
    ("weapon", .str "Colt 45"), ("damage", .int 100), ("hitloc", .str "head"),
    ("mod", .str "MOD_PISTOL"), ("distance", .float (.ofDecimal false 155 (-1)))]),
  ("death", [("player_guid", .str "\x7b\x7bguid\x7d\x7d"), ("attacker_guid", .str "killer_xyz789"),
    ("means_of_death", .str "MOD_PISTOL")]),
  ("damage", [("victim_guid", .str "\x7b\x7bguid\x7d\x7d"), ("attacker_guid", .str "attacker_abc"),
    ("damage", .int 35), ("weapon", .str "Thompson"), ("hitloc", .str "torso"),
    ("mod", .str "MOD_THOMPSON")]),
  ("player_pain", [("victim_guid", .str "\x7b\x7bguid\x7d\x7d"), ("damage", .int 25),
    ("attacker_guid", .str "attacker_def"), ("hitloc", .str "arm"), ("mod", .str "MOD_RIFLE")]),
  ("player_suicide", [("player_guid", .str "\x7b\x7bguid\x7d\x7d"), ("method", .str "grenade")]),
  ("player_crushed", [("victim_guid", .str "\x7b\x7bguid\x7d\x7d"), ("attacker_guid", .str "tank")]),
  ("player_telefragged", [("victim_guid", .str "\x7b\x7bguid\x7d\x7d"),
    ("attacker_guid", .str "killer_jkl")]),
  ("player_roadkill", [("victim_guid", .str "\x7b\x7bguid\x7d\x7d"),
    ("attacker_guid", .str "driver_mno"), ("weapon", .str "jeep")]),
  ("player_bash", [("attacker_guid", .str "\x7b\x7bguid\x7d\x7d"),
    ("victim_guid", .str "victim_pqr"), ("weapon", .str "rifle_butt")]),
  ("player_teamkill", [("attacker_guid", .str "\x7b\x7bguid\x7d\x7d"),
    ("victim_guid", .str "victim_stu"), ("weapon", .str "Thompson")]),
  ("weapon_fire", [("player_guid", .str "\x7b\x7bguid\x7d\x7d"), ("weapon", .str "BAR"),
    ("ammo_count", .int 18)]),
  ("weapon_hit", [("attacker_guid", .str "\x7b\x7bguid\x7d\x7d"),
    ("target_guid", .str "target_vwx"), ("weapon", .str "KAR98K"), ("hitloc", .str "head"),
    ("mod", .str "MOD_KAR98K"), ("damage", .int 75)]),
  ("weapon_change", [("player_guid", .str "\x7b\x7bguid\x7d\x7d"), ("old_weapon", .str "Colt 45"),
    ("new_weapon", .str "Thompson")]),
  ("reload", [("player_guid", .str "\x7b\x7bguid\x7d\x7d"), ("weapon", .str "Thompson")]),
  ("weapon_reload_done", [("player_guid", .str "\x7b\x7bguid\x7d\x7d"), ("weapon", .str "Thompson")]),
  ("weapon_ready", [("player_guid", .str "\x7b\x7bguid\x7d\x7d"), ("weapon", .str "Springfield")]),
  ("weapon_no_ammo", [("player_guid", .str "\x7b\x7bguid\x7d\x7d"), ("weapon", .str "BAR")]),
  ("weapon_holster", [("player_guid", .str "\x7b\x7bguid\x7d\x7d"), ("weapon", .str "KAR98K")]),
  ("weapon_raise", [("player_guid", .str "\x7b\x7bguid\x7d\x7d"), ("weapon", .str "Thompson")]),
  ("weapon_drop", [("player_guid", .str "\x7b\x7bguid\x7d\x7d"), ("weapon", .str "Panzerschreck")]),
  ("grenade_throw", [("player_guid", .str "\x7b\x7bguid\x7d\x7d"), ("weapon", .str "Frag Grenade")]),
  ("grenade_explode", [("player_guid", .str "\x7b\x7bguid\x7d\x7d"), ("weapon", .str "Frag Grenade")])]

/-- The payloads under `# Movement Events`. -/
def movementPayloads : List (String × List (String × PyVal)) := [
  ("jump", [("player_guid", .str "\x7b\x7bguid\x7d\x7d")]),
  ("land", [("player_guid", .str "\x7b\x7bguid\x7d\x7d"), ("fall_height", .int 128)]),
  ("crouch", [("player_guid", .str "\x7b\x7bguid\x7d\x7d")]),
  ("prone", [("player_guid", .str "\x7b\x7bguid\x7d\x7d")]),
  ("player_stand", [("player_guid", .str "\x7b\x7bguid\x7d\x7d")]),
  ("player_spawn", [("player_guid", .str "\x7b\x7bguid\x7d\x7d"), ("player_team", .str "allies")]),
  ("player_respawn", [("player_guid", .str "\x7b\x7bguid\x7d\x7d")]),
  ("distance", [("player_guid", .str "\x7b\x7bguid\x7d\x7d"),
    ("distance", .float (.ofDecimal false 150075 (-2)))]),
  ("player_movement", [("player_guid", .str "\x7b\x7bguid\x7d\x7d")]),
  ("ladder_mount", [("player_guid", .str "\x7b\x7bguid\x7d\x7d")]),
  ("ladder_dismount", [("player_guid", .str "\x7b\x7bguid\x7d\x7d")])]

/-- The payloads under `# Interaction Events`. -/
def interactionPayloads : List (String × List (String × PyVal)) := [
  ("use", [("player_guid", .str "\x7b\x7bguid\x7d\x7d"), ("entity", .str "door_main")]),
  ("player_use_object_start", [("player_guid", .str "\x7b\x7bguid\x7d\x7d"),
    ("object", .str "mg42_turret_1")]),
  ("player_use_object_finish", [("player_guid", .str "\x7b\x7bguid\x7d\x7d"),
    ("object", .str "mg42_turret_1"), ("duration", .int 15)]),
  ("player_spectate", [("player_guid", .str "\x7b\x7bguid\x7d\x7d"),
    ("target_guid", .str "target_yz")]),
  ("player_freeze", [("player_guid", .str "\x7b\x7bguid\x7d\x7d"), ("reason", .str "intermission")]),
  ("chat", [("player_guid", .str "\x7b\x7bguid\x7d\x7d"), ("message", .str "gg wp"),
    ("team_only", .bool false)])]

/-- The payloads under `# Item Events`. -/
def itemPayloads : List (String × List (String × PyVal)) := [
  ("item_pickup", [("player_guid", .str "\x7b\x7bguid\x7d\x7d"), ("item", .str "healthpack"),
    ("location", .str "120 180 64")]),
  ("item_drop", [("player_guid", .str "\x7b\x7bguid\x7d\x7d"), ("item", .str "ammo_clip"),
    ("location", .str "150 200 64")]),
  ("item_respawn", [("item", .str "healthpack_large"), ("location", .str "200 300 72")]),
  ("health_pickup", [("player_guid", .str "\x7b\x7bguid\x7d\x7d"), ("health_restored", .int 25)]),
  ("ammo_pickup", [("player_guid", .str "\x7b\x7bguid\x7d\x7d"), ("ammo_type", .str "rifle"),
    ("amount", .int 50)]),
  ("armor_pickup", [("player_guid", .str "\x7b\x7bguid\x7d\x7d"), ("armor_amount", .int 50)])]

/-- The payloads under `# Vehicle Events`. -/
def vehiclePayloads : List (String × List (String × PyVal)) := [
  ("vehicle_enter", [("player_guid", .str "\x7b\x7bguid\x7d\x7d"), ("vehicle", .str "jeep_1"),
    ("position", .str "driver")]),
  ("vehicle_exit", [("player_guid", .str "\x7b\x7bguid\x7d\x7d"), ("vehicle", .str "jeep_1")]),
  ("vehicle_death", [("vehicle", .str "tank_1"), ("destroyer_guid", .str "destroyer_ab")]),
  ("vehicle_crash", [("vehicle", .str "jeep_2"), ("driver_guid", .str "\x7b\x7bguid\x7d\x7d"),
    ("speed", .int 85), ("damage", .int 45)]),
  ("vehicle_change", [("player_guid", .str "\x7b\x7bguid\x7d\x7d"), ("from_vehicle", .str "jeep_1"),
    ("to_vehicle", .str "jeep_2")]),
  ("turret_enter", [("player_guid", .str "\x7b\x7bguid\x7d\x7d"), ("turret", .str "mg42_nest_1")]),
  ("turret_exit", [("player_guid", .str "\x7b\x7bguid\x7d\x7d"), ("turret", .str "mg42_nest_1")])]

/-- The payloads under `# Server Events`. -/
def serverPayloads : List (String × List (String × PyVal)) := [
  ("server_init", [("version", .str "2.60"), ("protocol", .int 17)]),
  ("server_start", [("timestamp", .str "2026-02-02T10:00:00Z")]),
  ("server_shutdown", [("reason", .str "restart")]),
  ("server_spawned", [("map_name", .str "dm/mohdm1")]),
  ("server_console_command", [("command", .str "kick player_123"), ("executor", .str "admin")]),
  ("heartbeat", [("players", .int 12), ("cpu_usage", .float (.ofDecimal false 355 (-1)))])]

/-- The payloads under `# Map Events`. -/
def mapPayloads : List (String × List (String × PyVal)) := [
  ("map_init", [("map_name", .str "dm/mohdm1")]),
  ("map_start", [("map_name", .str "dm/mohdm1"), ("timestamp", .str "2026-02-02T10:05:00Z")]),
  ("map_ready", [("map_name", .str "dm/mohdm1")]),
  ("map_shutdown", [("map_name", .str "dm/mohdm1")]),
  ("map_load_start", [("map_name", .str "obj/obj_team1")]),
  ("map_load_end", [("map_name", .str "obj/obj_team1"),
    ("load_time", .float (.ofDecimal false 25 (-1)))]),
  ("map_change_start", [("from_map", .str "dm/mohdm1"), ("to_map", .str "dm/mohdm6")]),
  ("map_restart", [("map_name", .str "dm/mohdm1")])]

/-- The payloads under `# Team Events`. -/
def teamPayloads : List (String × List (String × PyVal)) := [
  ("team_join", [("player_guid", .str "\x7b\x7bguid\x7d\x7d"), ("team", .str "allies")]),
  ("team_change", [("player_guid", .str "\x7b\x7bguid\x7d\x7d"), ("from_team", .str "axis"),
    ("to_team", .str "allies")]),
  ("team_win", [("winning_team", .str "allies"), ("score", .int 200)]),
  ("vote_start", [("player_guid", .str "\x7b\x7bguid\x7d\x7d"), ("vote_type", .str "map_change"),
    ("vote_target", .str "dm/mohdm6")]),
  ("vote_passed", [("vote_type", .str "kick_player"), ("yes_votes", .int 8), ("no_votes", .int 2)]),
  ("vote_failed", [("vote_type", .str "map_change"), ("yes_votes", .int 3), ("no_votes", .int 7)])]

/-- The payloads under `# Client Events`. -/
def clientPayloads : List (String × List (String × PyVal)) := [
  ("connect", [("player_guid", .str "\x7b\x7bguid\x7d\x7d"), ("ip", .str "192.168.1.100"),
    ("name", .str "Player1")]),
  ("disconnect", [("player_guid", .str "\x7b\x7bguid\x7d\x7d"), ("reason", .str "quit")]),
  ("client_begin", [("player_guid", .str "\x7b\x7bguid\x7d\x7d")]),
  ("client_userinfo_changed", [("player_guid", .str "\x7b\x7bguid\x7d\x7d"),
    ("name", .str "NewPlayerName")]),
  ("player_inactivity_drop", [("player_guid", .str "\x7b\x7bguid\x7d\x7d"), ("idle_time", .int 180)])]

/-- The payloads under `# World Events`. -/
def worldPayloads : List (String × List (String × PyVal)) := [
  ("door_open", [("door", .str "door_main"), ("opener_guid", .str "\x7b\x7bguid\x7d\x7d")]),
  ("door_close", [("door", .str "door_main")]),
  ("explosion", [("location", .str "300 400 80"), ("radius", .int 150), ("damage", .int 200)])]

/-- The payloads under `# Bot/Actor Events`. -/
def botActorPayloads : List (String × List (String × PyVal)) := [
  ("actor_spawn", [("actor_id", .str "actor_123"), ("actor_type", .str "soldier"),
    ("location", .str "500 600 64")]),
  ("actor_killed", [("actor_id", .str "actor_123"), ("killer_guid", .str "\x7b\x7bguid\x7d\x7d")]),
  ("bot_spawn", [("bot_id", .str "bot_001"), ("team", .str "axis")]),
  ("bot_killed", [("bot_id", .str "bot_001"), ("killer_guid", .str "\x7b\x7bguid\x7d\x7d")]),
  ("bot_roam", [("bot_id", .str "bot_002"), ("location", .str "100 150 64")]),
  ("bot_curious", [("bot_id", .str "bot_002"), ("target_location", .str "200 250 64")]),
  ("bot_attack", [("bot_id", .str "bot_003"), ("target_guid", .str "\x7b\x7bguid\x7d\x7d")])]

/-- The payloads under `# Objective Events`. -/
def objectivePayloads : List (String × List (String × PyVal)) := [
  ("objective_update", [("objective_id", .str "obj_1"), ("status", .str "in_progress"),
    ("progress", .int 65)]),
  ("objective_capture", [("objective_id", .str "obj_1"), ("capturing_team", .str "allies"),
    ("player_guid", .str "\x7b\x7bguid\x7d\x7d")])]

/-- The payloads under `# Score Events`. -/
def scorePayloads : List (String × List (String × PyVal)) := [
  ("score_change", [("player_guid", .str "\x7b\x7bguid\x7d\x7d"), ("score_delta", .int 10),
    ("new_score", .int 150)]),
  ("teamkill_kick", [("player_guid", .str "\x7b\x7bguid\x7d\x7d"), ("teamkill_count", .int 3)])]

/-- The payloads under `# Auth Events`. -/
def authPayloads : List (String × List (String × PyVal)) := [
  ("player_auth", [("player_guid", .str "\x7b\x7bguid\x7d\x7d"),
    ("smf_id", .str "\x7b\x7bsmf_id\x7d\x7d"), ("auth_token", .str "token_xyz")]),
  ("accuracy_summary", [("player_guid", .str "\x7b\x7bguid\x7d\x7d"), ("shots_fired", .int 150),
    ("shots_hit", .int 67), ("accuracy", .float (.ofDecimal false 4467 (-2)))]),
  ("identity_claim", [("player_guid", .str "\x7b\x7bguid\x7d\x7d"),
    ("claimed_id", .str "\x7b\x7bsmf_id\x7d\x7d")])]

/-- `EVENT_PAYLOADS`, in the table's order. -/
def eventPayloads : List (String × List (String × PyVal)) :=
  gameFlowPayloads ++ combatPayloads ++ movementPayloads ++ interactionPayloads ++ itemPayloads ++
    vehiclePayloads ++ serverPayloads ++ mapPayloads ++ teamPayloads ++ clientPayloads ++
    worldPayloads ++ botActorPayloads ++ objectivePayloads ++ scorePayloads ++ authPayloads

/-- The `timestamp` a payload without one gets: `1738540800.0`. -/
def defaultTimestamp : PyFloat := .ofDecimal false 17385408000 (-1)

/-- `payload = EVENT_PAYLOADS[event_type].copy()` and the two fields every sample gets. -/
def withRequiredFields (payload : List (String × PyVal)) : List (String × PyVal) :=
  let payload := if payload.any (·.1 == "match_id") then payload
    else dictSet payload "match_id" (.str "\x7b\x7bmatch_id\x7d\x7d")
  if payload.any (·.1 == "timestamp") then payload else dictSet payload "timestamp" (.float defaultTimestamp)

section
variable (rt : Runtime)

/-- `event_type.replace('_', ' ').title() + ".bru"`. -/
def eventFileName (eventType : String) : String := displayName rt eventType ++ ".bru"

/-- The file `main` writes for one literal, or none when `EVENT_PAYLOADS` has no payload for it. -/
def eventFile (eventType : String) : Option (String × String) :=
  (eventPayloads.lookup eventType).map fun payload =>
    (eventFileName rt eventType, generateBruFile rt eventType (withRequiredFields payload))

/-- `re.findall(pattern, content)` with the enum pattern. -/
def enumLiterals (content : List Char) : List String :=
  (findAll (constPattern rt) content).map fun m => m.groups.getD 0 ""

/-- The literals found that have a payload, in the order found. -/
def payloadTypes (content : List Char) : List String :=
  (enumLiterals rt content).filter fun t => (eventPayloads.lookup t).isSome

end

/-- What a run of `main` does: the files it writes, in order, and `created_count`. -/
structure GeneratorRun where
  writes : List (String × String)
  createdCount : ℕ

/-- One iteration of the loop of `main`. -/
def GeneratorRun.step (rt : Runtime) (run : GeneratorRun) (eventType : String) : GeneratorRun :=
  match eventFile rt eventType with
  | some file => ⟨run.writes ++ [file], run.createdCount + 1⟩
  | none => run

/-- `main`, in the project rooted at `projectRoot`: `open(event_types_file)` raises when the enum
    file is missing or unreadable. -/
def generateEvents (rt : Runtime) (projectRoot : String) (enumFile : FileState) :
    Except PyException GeneratorRun :=
  match enumFile with
  | .missing => .error (.os ("[Errno 2] No such file or directory: '" ++
      joinPath projectRoot "internal/models/event_types_generated.go" ++ "'"))
  | .unreadable msg => .error (.os msg)
  | .text raw => .ok ((enumLiterals rt (universalNewlines raw.toList)).foldl (GeneratorRun.step rt) ⟨[], 0⟩)

/-- The events directory after the writes: writing a name again overwrites its file. -/
def writeFiles (dir : List (String × String)) (writes : List (String × String)) : List (String × String) :=
  writes.foldl (fun d w => dictSet d w.1 w.2) dir

end EventSystemAudit

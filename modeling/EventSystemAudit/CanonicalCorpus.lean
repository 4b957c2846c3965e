import EventSystemAudit.AuditComplete
import EventSystemAudit.GeneratorRoundTrip
import EventSystemAudit.EnumGrammar
import Mathlib.Data.List.Chain

set_option autoImplicit false

/-!
# A repository the audit passes

A schema whose `RawEvent` declares `json:"type"`, an enum file with one constant per event type,
and one `.bru` file per event type whose body is the object `{"type": t}`, for the 105 event
types the generator knows. The enum lines and the files are read by general lemmas; on the list
of names only their characters and their order are checked.
-/

namespace EventSystemAudit

/-! ## The enum file -/

def constDecl (t : String) : List Char :=
  "Event".toList ++ t.toList ++ " EventType = \"".toList ++ t.toList ++ ['"']

def enumLine (t : String) : List Char := '\t' :: constDecl t ++ ['\n']

/-- The enum file declaring the constants of `ts`. -/
def enumText (ts : List String) : String :=
  String.mk ("package models\n\nconst (\n".toList ++ (ts.map enumLine).flatten ++ ")\n".toList)

theorem matchItems_constDecl (rt : Runtime) {t : String} (ht : WordName t.toList) (rest : List Char) :
    matchItems (constPattern rt) none [] (constDecl t ++ rest) = some (rest, [t]) := by
  have e : constDecl t ++ rest = "Event".toList ++ (t.toList ++ (' ' :: ("EventType".toList ++ (' ' ::
      ("=".toList ++ (' ' :: ("\"".toList ++ (t.toList ++ ("\"".toList ++ rest))))))))) := by
    simp [constDecl]
  rw [e]
  simp only [constPattern, lit, group, List.append_assoc, List.cons_append, List.singleton_append,
    List.nil_append]
  rw [matchItems_lit]
  refine matchItems_plus (ht.all_isWord rt) ht.1 (by rfl) ?_
  refine matchItems_plus_one (by rfl) (by rfl) ?_
  rw [matchItems_lit]
  refine matchItems_plus_one (by rfl) (by rfl) ?_
  rw [matchItems_lit]
  refine matchItems_plus_one (by rfl) (by rfl) ?_
  rw [matchItems_lit, matchItems_groupOpen]
  refine matchItems_plus (fun c hc => bne_iff_ne.2 fun e => ht.not_mem (by rw [e]; rfl) hc) ht.1 (by rfl) ?_
  rw [matchItems_groupClose, matchItems_lit_end]
  rfl

theorem findAllFrom_const_skip (rt : Runtime) {pre : List Char} (h : 'E' ∉ pre) (s : List Char) :
    findAllFrom (constPattern rt) 0 (pre ++ s) = findAllFrom (constPattern rt) 0 s := by
  refine findAllFrom_append fun i hi => ?_
  obtain ⟨c, r, hcr⟩ := List.exists_cons_of_ne_nil (by simp; omega : pre.drop i ≠ [])
  rw [hcr, List.cons_append]
  exact matchAt_constPattern_none rt (fun e => h (e ▸ List.mem_of_mem_drop (hcr ▸ List.mem_cons_self _ _))) _

theorem findAllFrom_enumLines (rt : Runtime) {ts : List String} (hts : ∀ t ∈ ts, WordName t.toList)
    (rest : List Char) :
    (findAllFrom (constPattern rt) 0 ((ts.map enumLine).flatten ++ rest)).map (fun m => m.groups.getD 0 "") =
      ts ++ (findAllFrom (constPattern rt) 0 rest).map (fun m => m.groups.getD 0 "") := by
  induction ts with
  | nil => rfl
  | cons t ts ih =>
    obtain ⟨ht, hts⟩ := List.forall_mem_cons.1 hts
    have hx : constDecl t ≠ [] := by simp [constDecl]
    have e : (List.map enumLine (t :: ts)).flatten ++ rest =
        ['\t'] ++ (constDecl t ++ (['\n'] ++ ((ts.map enumLine).flatten ++ rest))) := by
      simp [enumLine]
    rw [e, findAllFrom_const_skip rt (by decide),
      findAllFrom_match hx (matchAt_of_matchItems (matchItems_constDecl rt ht _)),
      findAllFrom_const_skip rt (by decide), List.map_cons, ih hts]
    rfl

theorem typesOfEnum_enumText (rt : Runtime) {ts : List String} (hts : ∀ t ∈ ts, WordName t.toList) :
    typesOfEnum rt (universalNewlines (enumText ts).toList) .empty = PySet.ofKeys (ts.map .str) := by
  have hcr : '\r' ∉ (enumText ts).toList := by
    simp only [enumText, String.toList, List.mem_append, List.mem_flatten, List.mem_map, not_or]
    refine ⟨⟨by decide, ?_⟩, by decide⟩
    rintro ⟨_, ⟨t, ht, rfl⟩, hm⟩
    simp only [enumLine, constDecl, List.mem_cons, List.mem_append] at hm
    have hr : '\r' ∉ t.toList := (hts t ht).not_mem rfl
    simp_all
  have e : (enumText ts).toList =
      "package models\n\nconst (\n".toList ++ ((ts.map enumLine).flatten ++ ")\n".toList) := by
    simp [enumText, String.toList]
  have hg := congrArg (List.map PyKey.str) (findAllFrom_enumLines rt hts ")\n".toList)
  rw [show findAllFrom (constPattern rt) 0 ")\n".toList = [] from rfl, List.map_map, Function.comp_def] at hg
  rw [typesOfEnum_eq, universalNewlines_of_not_mem hcr, e, findAll, findAllFrom_const_skip rt (by decide), hg]
  simp [PySet.ofKeys]

/-! ## The `.bru` files -/

/-- A `.bru` file whose body is the object `{"type": t}`. -/
def objectBru (t : String) : String := "body:json \x7b\n  \x7b\"type\":\"" ++ t ++ "\"\x7d\n\x7d\n"

def objectBody (t : String) : List Char := '\x7b' :: memberText "type".toList ('"' :: t.toList ++ ['"']) ++ ['\x7d']

theorem objectBody_eq (t : String) :
    objectBody t = "\x7b\"type\":\"".toList ++ t.toList ++ "\"\x7d".toList := by
  simp [objectBody, memberText]

theorem bodyText?_objectBru {t : String} (ht : PlainText t.toList) :
    bodyText? (objectBru t) = some (objectBody t) := by
  have hraw : (objectBru t).toList =
      [] ++ bodyOpen ++ ('\n' :: ' ' :: ' ' :: objectBody t) ++ '\n' :: '\x7d' :: ['\n'] := by
    simp [objectBru, objectBody, bodyOpen, memberText, String.toList]
  have hpr : ∀ c ∈ objectBody t, 0x1f < c.toNat := by
    rw [objectBody_eq]
    simp only [List.forall_mem_append]
    exact ⟨⟨by decide, fun c hc => (ht c hc).2.2⟩, by decide⟩
  refine bodyText?_line hraw ?_ (fun i hi => absurd hi (Nat.not_lt_zero _))
    (fun h => absurd (hpr _ h) (by decide)) rfl ?_
  · rw [hraw]
    intro h
    simp only [List.nil_append, List.mem_append, List.mem_cons] at h
    rcases h with (h | h | h | h | h) | h | h | h | h
    all_goals first | exact absurd h (by decide) | exact absurd (hpr _ h) (by decide)
  · show ((_ :: _) ++ ['\x7d']).getLast?.all _ = true
    rw [List.getLast?_concat]; rfl

theorem jsonLoads_objectBody {rt : Runtime} (hd : 1 ≤ rt.jsonDepth) {t : String} (ht : PlainText t.toList) :
    jsonLoads rt (objectBody t) = .ok (.dict [("type", .str t)]) := by
  simpa [setAll, dictSet, typeMember] using jsonLoads_object hd (typeMember rt ht) []

def corpusEntry (t : String) : BruEntry := ⟨t ++ ".bru", .ok (objectBru t)⟩

def corpusSample (t : String) : BrunoEvent := ⟨t ++ ".bru", [("type", .str t)]⟩

theorem sampleOf_corpusEntry {rt : Runtime} (hd : 1 ≤ rt.jsonDepth) {t : String} (ht : PlainText t.toList) :
    SampleOf rt (corpusEntry t) (corpusSample t) :=
  ⟨rfl, _, _, rfl, bodyText?_objectBru ht, jsonLoads_objectBody hd ht⟩

theorem hasBody_corpusEntry {t : String} (ht : PlainText t.toList) : hasBody (corpusEntry t) = true := by
  simp [hasBody, corpusEntry, bodyText?_objectBru ht]

theorem insertionSort_of_chain' {α : Type} {r : α → α → Prop} [DecidableRel r] :
    ∀ {l : List α}, l.Chain' r → l.insertionSort r = l
  | [], _ => rfl
  | [_], _ => rfl
  | a :: b :: l, h => by
    obtain ⟨hab, h'⟩ := List.chain'_cons.1 h
    rw [List.insertionSort, insertionSort_of_chain' h', List.orderedInsert, if_pos hab]

theorem bruFiles_corpus {ts : List String} (hs : (ts.map (· ++ ".bru")).Chain' String.le) :
    bruFiles (ts.map corpusEntry) = ts.map corpusEntry := by
  unfold bruFiles
  rw [List.filter_eq_self.2 fun e he => ?_]
  · exact insertionSort_of_chain' ((List.chain'_map _).2 ((List.chain'_map _).1 hs))
  · obtain ⟨t, -, rfl⟩ := List.mem_map.1 he
    simp [endswith, corpusEntry, String.toList, List.suffix_append]

theorem chain'_of_getD {α : Type} {R : α → α → Prop} {l : List α} (d : α)
    (h : ∀ i < l.length - 1, R (l.getD i d) (l.getD (i + 1) d)) : l.Chain' R := by
  refine List.chain'_iff_get.2 fun i hi => ?_
  rw [List.get_eq_getElem, List.get_eq_getElem, ← List.getD_eq_getElem l d, ← List.getD_eq_getElem l d]
  exact h i hi

theorem listLt_trans {a b c : List Char} (h₁ : List.lt a b) (h₂ : List.lt b c) : List.lt a c :=
  List.lt_trans Char.lt_trans
    (fun h₁ h₂ => Char.not_lt.2 (Char.le_trans (Char.not_lt.1 h₂) (Char.not_lt.1 h₁))) h₁ h₂

theorem names_of_chain' {l : List String} (h : l.Chain' fun a b => List.lt a.data b.data) :
    l.Nodup ∧ l.Chain' String.le := by
  have hp : l.Pairwise fun a b => List.lt a.data b.data := by
    haveI : IsTrans String fun a b => List.lt a.data b.data := ⟨fun _ _ _ => listLt_trans⟩
    exact List.chain'_iff_pairwise.1 h
  constructor
  · show l.Pairwise (· ≠ ·)
    refine hp.imp ?_
    rintro a b hab rfl
    exact List.lt_irrefl Char.lt_irrefl _ hab
  · refine h.imp ?_
    intro a b hab hba
    exact List.lt_irrefl Char.lt_irrefl _ (listLt_trans hab hba)

/-! ## The repository -/

/-- The event types of `EVENT_PAYLOADS` in `generate_bruno_events.py`, in sorted order. -/
def canonicalTypes : List String :=
  ["accuracy_summary", "actor_killed", "actor_spawn", "ammo_pickup", "armor_pickup", "bot_attack",
    "bot_curious", "bot_killed", "bot_roam", "bot_spawn", "chat", "client_begin",
    "client_userinfo_changed", "connect", "crouch", "damage", "death", "disconnect", "distance",
    "door_close", "door_open", "explosion", "game_end", "game_init", "game_start",
    "grenade_explode", "grenade_throw", "health_pickup", "heartbeat", "identity_claim",
    "intermission_start", "item_drop", "item_pickup", "item_respawn", "jump", "ladder_dismount",
    "ladder_mount", "land", "map_change_start", "map_init", "map_load_end", "map_load_start",
    "map_ready", "map_restart", "map_shutdown", "map_start", "match_end", "match_outcome",
    "match_start", "objective_capture", "objective_update", "player_auth", "player_bash",
    "player_crushed", "player_freeze", "player_inactivity_drop", "player_kill", "player_movement",
    "player_pain", "player_respawn", "player_roadkill", "player_spawn", "player_spectate",
    "player_stand", "player_suicide", "player_teamkill", "player_telefragged",
    "player_use_object_finish", "player_use_object_start", "prone", "reload", "round_end",
    "round_start", "score_change", "server_console_command", "server_init", "server_shutdown",
    "server_spawned", "server_start", "team_change", "team_join", "team_win", "teamkill_kick",
    "turret_enter", "turret_exit", "use", "vehicle_change", "vehicle_crash", "vehicle_death",
    "vehicle_enter", "vehicle_exit", "vote_failed", "vote_passed", "vote_start", "warmup_end",
    "warmup_start", "weapon_change", "weapon_drop", "weapon_fire", "weapon_hit", "weapon_holster",
    "weapon_no_ammo", "weapon_raise", "weapon_ready", "weapon_reload_done"]

/-- A schema whose `RawEvent` has the one field `Type string` with the tag `json:"type"`. -/
def eventsGoText : String :=
  "package models\n\ntype RawEvent struct \x7b\n\tType string \x60json:\"type\"\x60\n\x7d\n"

def canonicalRepo : Repo :=
  ⟨".", .text eventsGoText, .text (enumText canonicalTypes), some (canonicalTypes.map corpusEntry)⟩

set_option maxRecDepth 4000 in
theorem canonicalTypes_wordNames : ∀ t ∈ canonicalTypes, WordName t.toList := by decide

set_option maxRecDepth 4000 in
theorem canonicalTypes_plain : ∀ t ∈ canonicalTypes, PlainText t.toList := by decide

set_option maxRecDepth 4000 in
theorem canonicalFiles_increasing :
    (canonicalTypes.map (· ++ ".bru")).Chain' fun a b => List.lt a.data b.data :=
  chain'_of_getD "" (by decide)

theorem eventsGoText_search :
    search structPattern (universalNewlines eventsGoText.toList) =
      some ⟨51, ["\n\tType string \x60json:\"type\"\x60"]⟩ := by
  rfl

theorem canonicalRepo_success :
    ∃ a, runAudit asciiRuntime canonicalRepo .init = .ok a ∧ a.results.isSuccess = true := by
  have hplain := canonicalTypes_plain
  obtain ⟨hfiles, hsorted⟩ := names_of_chain' canonicalFiles_increasing
  have hnd : ((canonicalTypes.map PyKey.str).map PyKey.norm).Nodup := by
    rw [List.map_map]
    exact (List.Nodup.of_map _ hfiles).map fun _ _ h => by simpa [PyKey.norm] using h
  have hG := PySet.ofKeys_elems hnd
  have hS : List.Forall₂ (SampleOf asciiRuntime)
      ((bruFiles (canonicalTypes.map corpusEntry)).filter hasBody) (canonicalTypes.map corpusSample) := by
    rw [bruFiles_corpus hsorted, List.filter_eq_self.2 fun e he => ?_]
    · rw [List.forall₂_map_left_iff, List.forall₂_map_right_iff, List.forall₂_same]
      exact fun t ht => sampleOf_corpusEntry (by decide) (hplain t ht)
    · obtain ⟨t, ht, rfl⟩ := List.mem_map.1 he
      exact hasBody_corpusEntry (hplain t ht)
  refine runAudit_success_of_clean rfl eventsGoText_search rfl rfl ?_ hS ?_ ?_ ?_
  · intro e he
    rw [bruFiles_corpus hsorted] at he
    obtain ⟨t, -, rfl⟩ := List.mem_map.1 he
    exact ⟨_, rfl⟩
  · intro ev hev
    obtain ⟨t, -, rfl⟩ := List.mem_map.1 hev
    refine ⟨by simp [corpusSample, hasKey], by simp [corpusSample, hasKey], ?_⟩
    simp only [corpusSample, List.mem_singleton]
    rintro _ rfl
    rfl
  · rw [typesOfEnum_enumText asciiRuntime canonicalTypes_wordNames, hG]
    simp [corpusSample, PyKey.toVal, Function.comp_def]
  · rw [typesOfEnum_enumText asciiRuntime canonicalTypes_wordNames, PySet.card, hG]
    rfl

theorem canonicalRepo_clean :
    ∃ a, runAudit asciiRuntime canonicalRepo .init = .ok a ∧ a.results.isSuccess = true ∧
      CleanAudit asciiRuntime canonicalRepo a := by
  obtain ⟨a, h, hs⟩ := canonicalRepo_success
  exact ⟨a, h, hs, runAudit_success_sound h hs⟩

end EventSystemAudit

import EventSystemAudit.GeneratorMain
import EventSystemAudit.TextLaws
import Mathlib.Data.List.Dedup

set_option autoImplicit false

/-!
# The files the event generator writes

Every event type of `EVENT_PAYLOADS` is snake_case, and the display name of a snake_case name
gives the name back (lowercase it, and turn spaces into underscores), so two event types never
share a file. `created_count` counts the literals found that have a payload, with repetition,
while the directory ends with one file per distinct event type: the two agree exactly when the
enum file declares no literal twice.
-/

namespace EventSystemAudit

/-! ## Display names of snake_case names -/

def SnakeName (s : List Char) : Prop :=
  ∀ c ∈ s, (97 ≤ c.toNat ∧ c.toNat ≤ 122) ∨ (48 ≤ c.toNat ∧ c.toNat ≤ 57) ∨ c = '_'

instance (s : List Char) : Decidable (SnakeName s) := inferInstanceAs (Decidable (∀ c ∈ s, _))

namespace SnakeName

variable {s : List Char} (h : SnakeName s)
include h

theorem no_space : ' ' ∉ s := fun hs => by
  rcases h ' ' hs with h | h | h <;> simp at h

theorem replace_ascii : ∀ c ∈ replaceChar '_' ' ' s, c.toNat < 128 := by
  simp only [replaceChar, List.mem_map]
  rintro _ ⟨c, hc, rfl⟩
  split
  · decide
  · next hne =>
    rcases h c hc with h | h | h
    · omega
    · omega
    · exact absurd h hne

theorem toLower_replace : (replaceChar '_' ' ' s).map Char.toLower = replaceChar '_' ' ' s := by
  simp only [replaceChar, List.map_map]
  refine List.map_congr_left fun c hc => ?_
  simp only [Function.comp_apply]
  split
  · rfl
  · next hne =>
    refine eq_of_toNat_eq ?_
    rw [toNat_toLower, if_neg]
    rcases h c hc with h | h | h
    · omega
    · omega
    · exact absurd h hne

end SnakeName

theorem displayName_injective (rt : Runtime) {t₁ t₂ : String} (h₁ : SnakeName t₁.toList)
    (h₂ : SnakeName t₂.toList) (h : displayName rt t₁ = displayName rt t₂) : t₁ = t₂ := by
  have e := congrArg (fun s : String => s.data.map Char.toLower) h
  simp only [displayName, title, titleFrom_toLower rt h₁.replace_ascii, titleFrom_toLower rt h₂.replace_ascii,
    h₁.toLower_replace, h₂.toLower_replace] at e
  exact String.ext (by
    show t₁.toList = t₂.toList
    rw [← replaceChar_replaceChar h₁.no_space, e, replaceChar_replaceChar h₂.no_space])

theorem eventFileName_injective (rt : Runtime) {t₁ t₂ : String} (h₁ : SnakeName t₁.toList)
    (h₂ : SnakeName t₂.toList) (h : eventFileName rt t₁ = eventFileName rt t₂) : t₁ = t₂ :=
  displayName_injective rt h₁ h₂ (String.ext (List.append_cancel_right (congrArg String.data h)))

set_option maxRecDepth 4000 in
theorem eventPayloads_snake : ∀ kv ∈ eventPayloads, SnakeName kv.1.toList := by decide

theorem mem_of_lookup_eq_some {β : Type} {l : List (String × β)} {k : String} {v : β}
    (h : l.lookup k = some v) : (k, v) ∈ l := by
  obtain ⟨l₁, l₂, rfl, -⟩ := List.lookup_eq_some_iff.1 h
  simp

theorem snake_of_payload {t : String} (h : (eventPayloads.lookup t).isSome) : SnakeName t.toList := by
  obtain ⟨p, hp⟩ := Option.isSome_iff_exists.1 h
  exact eventPayloads_snake _ (mem_of_lookup_eq_some hp)

/-! ## The directory -/

section
variable {β : Type}

theorem keys_dictSet (d : List (String × β)) (k : String) (v : β) :
    (dictSet d k v).map Prod.fst = if k ∈ d.map Prod.fst then d.map Prod.fst else d.map Prod.fst ++ [k] := by
  have hany : d.any (fun p => decide (p.1 = k)) = decide (k ∈ d.map Prod.fst) := by
    simp [List.any_eq, eq_comm]
  by_cases hk : k ∈ d.map Prod.fst
  · rw [dictSet, hany, decide_eq_true hk, if_pos rfl, if_pos hk, List.map_map]
    exact List.map_congr_left fun p _ => by by_cases e : p.1 = k <;> simp [e]
  · rw [dictSet, hany, decide_eq_false hk, if_neg Bool.false_ne_true, if_neg hk, List.map_append]
    rfl

theorem writeFiles_keys (d ws : List (String × β)) (hd : (d.map Prod.fst).Nodup) :
    ((ws.foldl (fun d w => dictSet d w.1 w.2) d).map Prod.fst).Nodup ∧
      ∀ k, k ∈ (ws.foldl (fun d w => dictSet d w.1 w.2) d).map Prod.fst ↔
        k ∈ d.map Prod.fst ∨ k ∈ ws.map Prod.fst := by
  induction ws generalizing d with
  | nil => simpa using hd
  | cons w ws ih =>
    have hstep : ((dictSet d w.1 w.2).map Prod.fst).Nodup ∧
        ∀ k, k ∈ (dictSet d w.1 w.2).map Prod.fst ↔ k ∈ d.map Prod.fst ∨ k = w.1 := by
      rw [keys_dictSet]
      split
      · exact ⟨hd, fun k => ⟨.inl, fun h => h.elim id (· ▸ ‹_›)⟩⟩
      · next hk => exact ⟨hd.append (List.nodup_singleton _) (List.disjoint_singleton.2 hk), fun k => by simp⟩
    obtain ⟨hn, hm⟩ := ih _ hstep.1
    refine ⟨hn, fun k => ?_⟩
    rw [List.foldl_cons, hm, hstep.2, List.map_cons, List.mem_cons]
    tauto

end

theorem writeFiles_length (ws : List (String × String)) :
    (writeFiles [] ws).length = (ws.map Prod.fst).dedup.length := by
  obtain ⟨hn, hm⟩ := writeFiles_keys [] ws List.nodup_nil
  rw [← List.length_map _ Prod.fst]
  exact ((List.perm_ext_iff_of_nodup hn (List.nodup_dedup _)).2 fun k => by
    simp [writeFiles, hm, List.mem_dedup]).length_eq

theorem dedup_map_length {α γ : Type} [DecidableEq α] [DecidableEq γ] (f : α → γ) {l : List α}
    (hf : ∀ a ∈ l, ∀ b ∈ l, f a = f b → a = b) : (l.map f).dedup.length = l.dedup.length := by
  have hn : (l.dedup.map f).Nodup :=
    (List.nodup_dedup l).map_on fun a ha b hb => hf a (List.mem_dedup.1 ha) b (List.mem_dedup.1 hb)
  rw [← List.length_map l.dedup f]
  exact ((List.perm_ext_iff_of_nodup (List.nodup_dedup _) hn).2 fun k => by simp [List.mem_dedup]).length_eq

theorem length_dedup_eq_iff {α : Type} [DecidableEq α] (l : List α) : l.dedup.length = l.length ↔ l.Nodup :=
  ⟨fun h => (List.dedup_sublist l).eq_of_length h ▸ List.nodup_dedup l,
    fun h => by rw [List.dedup_eq_self.2 h]⟩

/-! ## A run of `main` -/

section
variable (rt : Runtime)

theorem foldl_step (ts : List String) (run : GeneratorRun) :
    ts.foldl (GeneratorRun.step rt) run =
      ⟨run.writes ++ ts.filterMap (eventFile rt), run.createdCount + (ts.filterMap (eventFile rt)).length⟩ := by
  induction ts generalizing run with
  | nil => simp
  | cons t ts ih =>
    rw [List.foldl_cons, ih]
    rcases h : eventFile rt t with _ | w <;>
      simp [GeneratorRun.step, h, List.filterMap_cons, Nat.add_assoc, Nat.add_comm 1]

theorem filterMap_eventFile_names (ts : List String) :
    (ts.filterMap (eventFile rt)).map Prod.fst =
      (ts.filter fun t => (eventPayloads.lookup t).isSome).map (eventFileName rt) := by
  induction ts with
  | nil => rfl
  | cons t ts ih =>
    rcases h : eventPayloads.lookup t with _ | p <;> simp [eventFile, h, List.filter_cons, ih]

theorem length_filterMap_eventFile (ts : List String) :
    (ts.filterMap (eventFile rt)).length = (ts.filter fun t => (eventPayloads.lookup t).isSome).length := by
  rw [← List.length_map _ Prod.fst, filterMap_eventFile_names, List.length_map]

theorem snake_of_mem_payloadTypes {c : List Char} {t : String} (h : t ∈ payloadTypes rt c) :
    SnakeName t.toList :=
  snake_of_payload (by have := List.of_mem_filter h; exact this)

/-- A run of `main` on a readable enum file writes, in order, one file per literal found that
    has a payload; distinct event types get distinct files; `created_count` counts the literals
    found, and the directory ends with one file per distinct event type, so the two agree exactly
    when no literal is found twice. -/
theorem generateEvents_files (projectRoot raw : String) :
    ∃ run, generateEvents rt projectRoot (.text raw) = .ok run ∧
      (let ts := payloadTypes rt (universalNewlines raw.toList)
      run.writes = (enumLiterals rt (universalNewlines raw.toList)).filterMap (eventFile rt) ∧
      run.writes.map Prod.fst = ts.map (eventFileName rt) ∧
      (∀ t₁ ∈ ts, ∀ t₂ ∈ ts, eventFileName rt t₁ = eventFileName rt t₂ → t₁ = t₂) ∧
      run.createdCount = ts.length ∧ (writeFiles [] run.writes).length = ts.dedup.length ∧
      (run.createdCount = (writeFiles [] run.writes).length ↔ ts.Nodup)) := by
  let ts := payloadTypes rt (universalNewlines raw.toList)
  have hinj : ∀ t₁ ∈ ts, ∀ t₂ ∈ ts, eventFileName rt t₁ = eventFileName rt t₂ → t₁ = t₂ :=
    fun t₁ h₁ t₂ h₂ => eventFileName_injective rt (snake_of_mem_payloadTypes rt h₁)
      (snake_of_mem_payloadTypes rt h₂)
  have hfiles : (writeFiles [] ((enumLiterals rt (universalNewlines raw.toList)).filterMap (eventFile rt))).length =
      ts.dedup.length := by
    rw [writeFiles_length, filterMap_eventFile_names]
    exact dedup_map_length _ hinj
  refine ⟨_, rfl, ?_⟩
  simp only [foldl_step, List.nil_append, Nat.zero_add]
  refine ⟨trivial, filterMap_eventFile_names rt _, hinj, length_filterMap_eventFile rt _, hfiles, ?_⟩
  rw [hfiles, length_filterMap_eventFile, eq_comm]
  exact length_dedup_eq_iff ts

end

/-- An enum file that declares `player_kill` under two names. -/
def aliasedEnumText : String :=
  "package models\n\nconst (\n\tEventKill       EventType = \"player_kill\"\n\tEventPlayerKill EventType = \"player_kill\"\n)\n"

/-- Both constants are counted, and the second file overwrites the first. -/
theorem aliasedEnum_overwrites :
    ∃ run, generateEvents asciiRuntime "." (.text aliasedEnumText) = .ok run ∧
      run.writes.map Prod.fst = ["Player Kill.bru", "Player Kill.bru"] ∧
      run.createdCount = 2 ∧ (writeFiles [] run.writes).length = 1 :=
  ⟨_, rfl, rfl, rfl, rfl⟩

end EventSystemAudit

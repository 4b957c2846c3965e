import EventSystemAudit.GeneratedFiles
import EventSystemAudit.ArrayBodies

set_option autoImplicit false

/-!
# The generator's files under the audit

`generate_bruno_events.py` writes the Bruno samples into `bruno/Ingestion/Events`, the directory
`audit_event_system.py` reads. Every file it writes has a `body:json` block holding
`[{...}]`: a JSON text that opens with `[` decodes to a list if it decodes at all, and the
loader calls `get` on what it decoded. So the loader keeps no sample of such a file and records
one Error for it, or aborts; and an audit of a checkout holding any file the generator wrote
raises or fails, whatever the enum file and whatever else the directory holds. The payloads
carry the `timestamp` float `main` adds, so this holds beyond the strings, booleans and integers
of the exact round trip.
-/

namespace EventSystemAudit

/-! ## A JSON text that opens with `[` -/

theorem scanElems_list {rt : Runtime} : ∀ (fuel depth i : ℕ) (cs : List Char) (acc : List PyVal) {v : PyVal}
    {j : ℕ} {r : List Char}, scanElems rt fuel depth i cs acc = .ok (v, j, r) → ∃ vs, v = .list vs
  | 0, _, _, _, _, _, _, _, h => by simp [scanElems] at h
  | fuel + 1, depth, i, cs, acc, v, j, r, h => by
    simp only [scanElems] at h
    obtain ⟨⟨v', i', r'⟩, -, h⟩ := bind_eq_ok h
    dsimp only at h
    split at h
    · cases h; exact ⟨_, rfl⟩
    · exact scanElems_list fuel depth _ _ _ h
    · cases h

theorem scanValue_bracket (rt : Runtime) (fuel depth i : ℕ) (r : List Char) :
    scanValue rt (fuel + 1) (depth + 1) i ('[' :: r) =
      match skipWs (i + 1) r with
      | (j, ']' :: t) => .ok (.list [], j + 1, t)
      | (j, t) => scanElems rt fuel depth j t [] := rfl

theorem scanValue_bracket_limit (rt : Runtime) (fuel i : ℕ) (r : List Char) :
    scanValue rt (fuel + 1) 0 i ('[' :: r) = .error (recursionLimit "array") := rfl

theorem jsonLoads_array {rt : Runtime} {r : List Char} {v : PyVal} (h : jsonLoads rt ('[' :: r) = .ok v) :
    ∃ vs, v = .list vs := by
  rw [jsonLoads, if_neg (by simp), skipWs_cons (by decide)] at h
  dsimp only at h
  obtain ⟨fuel, hf⟩ : ∃ fuel, 2 * ('[' :: r).length + 1 = fuel + 1 := ⟨_, rfl⟩
  rw [hf] at h
  split at h
  · next v' j t hs =>
    obtain rfl : v' = v := by
      split at h
      · exact Except.ok.inj h
      · cases h
    obtain ⟨n, hn⟩ : ∃ n, rt.jsonDepth = n := ⟨_, rfl⟩
    rw [hn] at hs
    cases n with
    | zero => rw [scanValue_bracket_limit] at hs; cases hs
    | succ depth =>
      rw [scanValue_bracket] at hs
      split at hs
      · cases hs; exact ⟨_, rfl⟩
      · exact scanElems_list _ _ _ _ _ hs
  all_goals cases h

/-! ## The loader and the audit on such a body -/

section
variable {rt : Runtime}

theorem fileLoad_json_error {e : BruEntry} {raw : String} {t : List Char} {ex : PyException}
    (hraw : e.content = .ok raw) (hb : bodyText? raw = some t) (hj : jsonLoads rt t = .error ex) :
    (∃ ex, fileLoad rt e = .error ex) ∨ ∃ msg, fileLoad rt e = .ok ⟨none, [msg]⟩ := by
  cases ex <;> simp [fileLoad, parseBruFile, hraw, hb, hj, PyException.isException, ValidationResult.addError,
    ValidationResult.empty]

theorem fileLoad_array_text {e : BruEntry} {raw : String} {r : List Char} (hraw : e.content = .ok raw)
    (hb : bodyText? raw = some ('[' :: r)) :
    (∃ ex, fileLoad rt e = .error ex) ∨ ∃ msg, fileLoad rt e = .ok ⟨none, [msg]⟩ := by
  rcases hj : jsonLoads rt ('[' :: r) with ex | v
  · exact fileLoad_json_error hraw hb hj
  · obtain ⟨vs, rfl⟩ := jsonLoads_array hj
    exact .inr ⟨_, fileLoad_array hraw hb hj⟩

theorem runAudit_fails_of_fileLoad {repo : Repo} {entries : List BruEntry} {e : BruEntry}
    (hdir : repo.brunoEventsDir = some entries) (he : e ∈ bruFiles entries)
    (hl : (∃ ex, fileLoad rt e = .error ex) ∨ ∃ msg, fileLoad rt e = .ok ⟨none, [msg]⟩) (a : Auditor) :
    (∃ ex, runAudit rt repo a = .error ex) ∨ ∃ a', runAudit rt repo a = .ok a' ∧ a'.results.isSuccess = false := by
  cases h : runAudit rt repo a with
  | error ex => exact .inl ⟨ex, rfl⟩
  | ok a' =>
    obtain ⟨a₁, a₂, a₃, a₄, -, -, h₃, h₄, h₅⟩ := runAudit_ok h
    have hload : loadBruFiles rt a₂ (bruFiles entries) = .ok a₃ := by
      rw [parseBrunoFiles, parseBrunoFilesBy, hdir] at h₃; exact h₃
    rw [loadBruFiles_eq] at hload
    rcases hm : (bruFiles entries).mapM (fileLoad rt) with ex | ls <;> rw [hm] at hload
    · cases hload
    · simp only [ok_map, Except.ok.injEq] at hload
      subst hload
      obtain ⟨l, hl', hfl⟩ := mapM_ok_mem hm he
      obtain ⟨msg, rfl⟩ : ∃ msg, l = ⟨none, [msg]⟩ := by
        rcases hl with ⟨ex, hex⟩ | ⟨msg, hmsg⟩
        · rw [hex] at hfl; cases hfl
        · rw [hmsg] at hfl; exact ⟨msg, (Except.ok.inj hfl).symm⟩
      have hmem : msg ∈ ls.flatMap (·.errors) := List.mem_flatMap.2 ⟨_, hl', List.mem_singleton_self _⟩
      have hle : (a₂.results.addErrors (ls.flatMap (·.errors))).failed ≤ a'.results.failed := by
        simpa only [foldl_apply] using (continues_validation h₄ h₅).2
      rw [addErrors_failed] at hle
      have hpos := List.length_pos_of_mem hmem
      refine .inr ⟨a', rfl, ?_⟩
      simp only [ValidationResult.isSuccess, beq_eq_false_iff_ne]
      omega

end

/-! ## The files `main` writes -/

theorem PlainEventType.of_snake {t : String} (h : SnakeName t.toList) : PlainEventType t := by
  have hcode : ∀ c ∈ t.toList, 0x1f < c.toNat ∧ c.toNat < 128 ∧ c.toNat ≠ 34 ∧ c.toNat ≠ 92 := by
    intro c hc
    rcases h c hc with h | h | rfl
    · omega
    · omega
    · decide
  refine ⟨fun c hc => ⟨?_, ?_, (hcode c hc).1⟩, fun c hc => (hcode c hc).2.1⟩
  · rintro rfl; exact (hcode _ hc).2.2.1 rfl
  · rintro rfl; exact (hcode _ hc).2.2.2 rfl

theorem dictSet_printable {p : List (String × PyVal)} (hp : PrintablePayload p) {k : String} {v : PyVal}
    (hk : ∀ c ∈ k.toList, 0x1f < c.toNat) (hv : PrintableValue v) : PrintablePayload (dictSet p k v) := by
  unfold dictSet
  split
  · simp only [PrintablePayload, List.mem_map]
    rintro _ ⟨q, hq, rfl⟩
    split
    · exact ⟨hk, hv⟩
    · exact hp q hq
  · exact List.forall_mem_append.2 ⟨hp, List.forall_mem_singleton.2 ⟨hk, hv⟩⟩

theorem ifAbsent_printable (k : String) (v : PyVal) {p : List (String × PyVal)} (hp : PrintablePayload p)
    (hk : ∀ c ∈ k.toList, 0x1f < c.toNat) (hv : PrintableValue v) :
    PrintablePayload (if p.any (·.1 == k) then p else dictSet p k v) := by
  split
  · exact hp
  · exact dictSet_printable hp hk hv

theorem withRequiredFields_printable {p : List (String × PyVal)} (hp : PrintablePayload p) :
    PrintablePayload (withRequiredFields p) :=
  ifAbsent_printable "timestamp" (.float defaultTimestamp)
    (ifAbsent_printable "match_id" (.str "\x7b\x7bmatch_id\x7d\x7d") hp (by decide) (by decide)) (by decide) trivial

set_option maxRecDepth 4000 in
theorem eventPayloads_printable : ∀ kv ∈ eventPayloads, PrintablePayload kv.2 := by decide

theorem mem_writes {rt : Runtime} {projectRoot : String} {enumFile : FileState} {gen : GeneratorRun}
    (hgen : generateEvents rt projectRoot enumFile = .ok gen) {w : String × String} (hw : w ∈ gen.writes) :
    ∃ t p, PlainEventType t ∧ PrintablePayload p ∧ w = (eventFileName rt t, generateBruFile rt t p) := by
  cases enumFile with
  | text raw =>
    obtain rfl := Except.ok.inj hgen
    simp only [foldl_step, List.nil_append] at hw
    obtain ⟨t, -, ht⟩ := List.mem_filterMap.1 hw
    obtain ⟨p, hp, rfl⟩ := Option.map_eq_some'.1 ht
    have hmem := mem_of_lookup_eq_some hp
    exact ⟨t, _, .of_snake (eventPayloads_snake _ hmem), withRequiredFields_printable (eventPayloads_printable _ hmem),
      rfl⟩
  | _ => cases hgen

theorem endswith_bru (s : String) : endswith (s ++ ".bru") ".bru" = true := by
  simp [endswith, List.isSuffixOf_iff_suffix]

/-- Running the generator and then the audit on the same checkout never passes: once the events
    directory holds any file the generator's `main` wrote, whatever the enum file and whatever else
    the directory holds, the audit raises or records an Error. -/
theorem runAudit_rejects_generated {rt : Runtime} {projectRoot : String} {enumFile : FileState}
    {gen : GeneratorRun} (hgen : generateEvents rt projectRoot enumFile = .ok gen) {w : String × String}
    (hw : w ∈ gen.writes) {repo : Repo} {entries : List BruEntry} (hdir : repo.brunoEventsDir = some entries)
    (he : ⟨w.1, .ok w.2⟩ ∈ entries) (a : Auditor) :
    (∃ ex, runAudit rt repo a = .error ex) ∨ ∃ a', runAudit rt repo a = .ok a' ∧ a'.results.isSuccess = false := by
  obtain ⟨t, p, ht, hp, rfl⟩ := mem_writes hgen hw
  have hbru : ⟨eventFileName rt t, .ok (generateBruFile rt t p)⟩ ∈ bruFiles entries :=
    (List.perm_insertionSort _ _).symm.subset (List.mem_filter.2 ⟨he, endswith_bru _⟩)
  obtain ⟨r, hr⟩ : ∃ r, (jsonBody t p).data = '[' :: r := ⟨_, rfl⟩
  exact runAudit_fails_of_fileLoad hdir hbru
    (fileLoad_array_text rfl ((bodyText?_generated rt ht hp).trans (congrArg some hr))) a

/-- The generator run on an enum file declaring `game_end`, and the audit of a checkout with both
    Go files and the sample it writes. -/
theorem gameEndEnum_rejected :
    ∃ gen, generateEvents asciiRuntime "." (.text (enumText ["game_end"])) = .ok gen ∧ ∃ w ∈ gen.writes,
      (∃ ex, runAudit asciiRuntime ⟨".", .text eventsGoText, .text (enumText ["game_end"]), some [⟨w.1, .ok w.2⟩]⟩
          .init = .error ex) ∨
        ∃ a', runAudit asciiRuntime ⟨".", .text eventsGoText, .text (enumText ["game_end"]), some [⟨w.1, .ok w.2⟩]⟩
          .init = .ok a' ∧ a'.results.isSuccess = false :=
  ⟨_, rfl, _, .head _,
    @runAudit_rejects_generated asciiRuntime "." (.text (enumText ["game_end"])) _ rfl _ (.head _) _ _ rfl (.head _)
      .init⟩

end EventSystemAudit

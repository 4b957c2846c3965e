import EventSystemAudit.AuditRerun
import EventSystemAudit.CanonicalCorpus

set_option autoImplicit false

/-!
# Array bodies

The ingest endpoint takes an array of events, and the generator writes each body as an array of
one object, but `parse_bru_file` calls `get` on whatever the body decodes to. An array has no
`get`: the loop records the `AttributeError` as an Error for the file, and no later phase removes
an issue, so a run over a corpus with such a file never succeeds.
-/

namespace EventSystemAudit

theorem fileLoad_array {rt : Runtime} {e : BruEntry} {raw : String} {t : List Char} {vs : List PyVal}
    (hraw : e.content = .ok raw) (hb : bodyText? raw = some t) (hj : jsonLoads rt t = .ok (.list vs)) :
    fileLoad rt e = .ok ⟨none, [failedToParse e.name (.attribute "list" "get")]⟩ := by
  simp [fileLoad, parseBruFile, hraw, hb, hj, eventOfPayload, PyException.isException, PyVal.typeName]

/-- A run from any state over a corpus with a file whose body is a JSON array raises, or records
    the `get` failure of that file and is not a success. -/
theorem runAudit_flags_array_body {rt : Runtime} {repo : Repo} {entries : List BruEntry} {e : BruEntry}
    {raw : String} {t : List Char} {vs : List PyVal} (hdir : repo.brunoEventsDir = some entries)
    (he : e ∈ bruFiles entries) (hraw : e.content = .ok raw) (hb : bodyText? raw = some t)
    (hj : jsonLoads rt t = .ok (.list vs)) (a : Auditor) :
    (∃ ex, runAudit rt repo a = .error ex) ∨
      ∃ a', runAudit rt repo a = .ok a' ∧
        failedToParse e.name (.attribute "list" "get") ∈ a'.results.errors ∧ a'.results.isSuccess = false := by
  cases h : runAudit rt repo a with
  | error ex => exact .inl ⟨ex, rfl⟩
  | ok a' =>
    obtain ⟨a₁, a₂, a₃, a₄, -, -, h₃, h₄, h₅⟩ := runAudit_ok h
    have hload : loadBruFiles rt a₂ (bruFiles entries) = .ok a₃ := by
      simpa [parseBrunoFiles, parseBrunoFilesBy, hdir] using h₃
    rw [loadBruFiles_eq] at hload
    rcases hm : (bruFiles entries).mapM (fileLoad rt) with ex | ls <;> rw [hm] at hload
    · cases hload
    · simp only [ok_map, Except.ok.injEq] at hload
      subst hload
      obtain ⟨l, hl, hfl⟩ := mapM_ok_mem hm he
      rw [fileLoad_array hraw hb hj] at hfl
      cases hfl
      have hmem : failedToParse e.name (.attribute "list" "get") ∈ ls.flatMap (·.errors) :=
        List.mem_flatMap.2 ⟨_, hl, List.mem_singleton_self _⟩
      have k := continues_validation h₄ h₅
      rw [foldl_apply, ValidationResult.addErrors_eq] at k
      refine .inr ⟨a', rfl, k.1.subset (List.mem_append_right _ hmem), ?_⟩
      have hpos := List.length_pos_of_mem hmem
      have hle := k.2
      dsimp only at hle
      simp only [ValidationResult.isSuccess, beq_eq_false_iff_ne]
      omega

/-- A `.bru` file whose body is the array `[{"type": t}]`. -/
def arrayBru (t : String) : String := "body:json \x7b\n  [\x7b\"type\":\"" ++ t ++ "\"\x7d]\n\x7d\n"

/-- The canonical checkout with the sample of `game_end` written as an array of its one object. -/
def arrayCorpusRepo : Repo :=
  ⟨".", .text eventsGoText, .text (enumText canonicalTypes),
    some (canonicalTypes.map fun t => if t = "game_end" then ⟨t ++ ".bru", .ok (arrayBru t)⟩ else corpusEntry t)⟩

/-- The canonical checkout is clean, and the same checkout with one body wrapped in an array is
    flagged. -/
theorem canonicalArray_flagged :
    (∃ a, runAudit asciiRuntime canonicalRepo .init = .ok a ∧ a.results.isSuccess = true) ∧
      ((∃ ex, runAudit asciiRuntime arrayCorpusRepo .init = .error ex) ∨
        ∃ a', runAudit asciiRuntime arrayCorpusRepo .init = .ok a' ∧
          failedToParse "game_end.bru" (.attribute "list" "get") ∈ a'.results.errors ∧ a'.results.isSuccess = false) :=
  ⟨canonicalRepo_success, @runAudit_flags_array_body asciiRuntime arrayCorpusRepo _
    ⟨"game_end.bru", .ok (arrayBru "game_end")⟩ _ _ _ rfl
    ((List.perm_insertionSort _ _).mem_iff.2 (List.mem_filter.2 ⟨List.mem_map.2 ⟨"game_end", by decide, rfl⟩, rfl⟩))
    rfl rfl rfl .init⟩

end EventSystemAudit

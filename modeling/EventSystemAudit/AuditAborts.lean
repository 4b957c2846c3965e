import EventSystemAudit.CanonicalCorpus

set_option autoImplicit false

/-!
# When `run_audit` raises

The loader catches every exception of a file, but it appends the sample before it hashes the
sample's type. A body whose `type` is a list or an object therefore leaves a sample behind, and
`validate_guid_fields`, which hashes the type of every sample without a `guid` key, raises
`TypeError` out of `run_audit`.
-/

namespace EventSystemAudit

theorem guidFindings_unhashable {ev : BrunoEvent} (hg : hasKey ev.payload "guid" = false)
    (hk : ev.eventType.toKey? = none) : guidFindings ev = .error (.unhashable ev.eventType.typeName) := by
  simp [guidFindings, hg, PySet.contains, hk]

theorem mem_loaded_of_dict {rt : Runtime} (a : Auditor) {entries : List BruEntry} {e : BruEntry}
    {ls : List FileLoad} {p : List (String × PyVal)} {errs : List String}
    (hm : (bruFiles entries).mapM (fileLoad rt) = .ok ls) (he : e ∈ bruFiles entries)
    (hl : fileLoad rt e = .ok ⟨some ⟨e.name, p⟩, errs⟩) :
    (⟨e.name, p⟩ : BrunoEvent) ∈ (ls.foldl FileLoad.apply a).brunoEvents := by
  obtain ⟨l', hl', hfl⟩ := mapM_ok_mem hm he
  rw [hl] at hfl
  cases hfl
  simpa [foldl_apply, FileLoad.events] using Or.inr ⟨_, hl', rfl⟩

theorem runAudit_aborts_on_unhashable_type {rt : Runtime} {repo : Repo} {entries : List BruEntry}
    {e : BruEntry} {raw : String} {t : List Char} {p : List (String × PyVal)}
    (hdir : repo.brunoEventsDir = some entries) (he : e ∈ bruFiles entries)
    (hraw : e.content = .ok raw) (hb : bodyText? raw = some t) (hj : jsonLoads rt t = .ok (.dict p))
    (hk : (BrunoEvent.eventType ⟨e.name, p⟩).toKey? = none) (hg : hasKey p "guid" = false) :
    ∃ ex, runAudit rt repo .init = .error ex := by
  cases h : runAudit rt repo .init with
  | error ex => exact ⟨ex, rfl⟩
  | ok a =>
    obtain ⟨a₁, a₂, a₃, a₄, -, -, h₃, h₄, -⟩ := runAudit_ok h
    have hload : loadBruFiles rt a₂ (bruFiles entries) = .ok a₃ := by
      simpa [parseBrunoFiles, parseBrunoFilesBy, hdir] using h₃
    rw [loadBruFiles_eq] at hload
    rcases hm : (bruFiles entries).mapM (fileLoad rt) with ex | ls <;> rw [hm] at hload
    · cases hload
    · cases hload
      have hev := mem_loaded_of_dict a₂ hm he (fileLoad_unhashable hraw hb hj hk)
      obtain ⟨fs, hfs, -⟩ := validateGuidFields_ok h₄
      obtain ⟨f, -, hf⟩ := mapM_ok_mem hfs hev
      rw [guidFindings_unhashable hg hk] at hf
      cases hf

/-- The canonical Go files beside `listTypedFile`. -/
def listTypedRepo : Repo := ⟨".", .text eventsGoText, .text (enumText canonicalTypes), some [listTypedFile]⟩

theorem runAudit_aborts_list_typed : ∃ ex, runAudit asciiRuntime listTypedRepo .init = .error ex :=
  @runAudit_aborts_on_unhashable_type asciiRuntime listTypedRepo [listTypedFile] listTypedFile _ _ _
    rfl (.head _) rfl rfl rfl rfl rfl

end EventSystemAudit

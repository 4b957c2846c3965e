import EventSystemAudit.CanonicalCorpus

set_option autoImplicit false

/-!
# Running the audit twice

`run_audit` resets nothing: a second call on the same auditor reads the same files, appends every
sample once more to `bruno_events`, adds the same types to the two sets, where they already are,
and appends its issues after those of the first call. With twice the samples the count check
cannot pass, since 105 is odd.
-/

namespace EventSystemAudit

section
variable {a a' : Auditor}

theorem continues_validateBrunoPayloads (a : Auditor) :
    ∃ r, validateBrunoPayloads a = { a with results := r } ∧ Continues a.results r := by
  refine ⟨_, rfl, ?_⟩
  split
  · exact (continues_addErrors _ _).trans (continues_addPass _)
  · exact continues_addErrors _ _

theorem continues_foldl_record (fs : List Finding) (r : ValidationResult) :
    Continues r (fs.foldl Finding.record r) := by
  induction fs generalizing r with
  | nil => exact .refl r
  | cons f fs ih =>
    cases f with
    | error m => exact (continues_addError r m).trans (ih _)
    | warning m => exact (continues_addWarning r m).trans (ih _)

theorem continues_guidResults (a : Auditor) (fs : List (List Finding)) :
    Continues a.results (guidResults a fs) := by
  unfold guidResults; dsimp only; split
  · exact (continues_foldl_record _ _).trans (continues_addPass _)
  · exact continues_foldl_record _ _

theorem continues_countStep (a : Auditor) : Continues a.results (countStep a) := by
  unfold countStep; split
  · exact continues_addPass _
  · exact continues_addError _ _

theorem continues_validation {a₃ a₄ : Auditor} (h₄ : validateGuidFields (validateBrunoPayloads a₃) = .ok a₄)
    (h₅ : validateEventCounts a₄ = .ok a') : Continues a₃.results a'.results := by
  obtain ⟨r, e, k⟩ := continues_validateBrunoPayloads a₃
  obtain ⟨fs, -, rfl⟩ := validateGuidFields_ok h₄
  obtain ⟨_, _, -, -, rfl⟩ := validateEventCounts_ok h₅
  rw [e]
  have k₄ := continues_guidResults { a₃ with results := r } fs
  have k₅ := continues_countStep { a₃ with results := guidResults { a₃ with results := r } fs }
  exact k.trans (k₄.trans (k₅.trans (continues_addErrors _ _)))

theorem validateGuidFields_rerun (h : validateGuidFields a = .ok a') (b : Auditor)
    (hb : ∀ ev ∈ b.brunoEvents, ev ∈ a.brunoEvents) :
    ∃ r, validateGuidFields b = .ok { b with results := r } ∧ Continues b.results r := by
  obtain ⟨fs, hfs, -⟩ := validateGuidFields_ok h
  obtain ⟨gs, hgs⟩ := mapM_ok_of_subset hfs hb
  exact ⟨guidResults b gs, by unfold validateGuidFields; rw [hgs]; rfl, continues_guidResults b gs⟩

theorem validateEventCounts_rerun (h : validateEventCounts a = .ok a') (b : Auditor)
    (hG : b.eventTypesGo = a.eventTypesGo) (hT : b.eventTypesBruno = a.eventTypesBruno) :
    ∃ ms, validateEventCounts b = .ok { b with results := (countStep b).addErrors ms } := by
  obtain ⟨missing, extra, hm, he, -⟩ := validateEventCounts_ok h
  exact ⟨missing.map missingInBruno ++ extra.map extraInBruno, by
    simp [validateEventCounts, countStep, hG, hT, hm, he, ValidationResult.addErrors_append]⟩

theorem countStep_of_length (a : Auditor) (h : a.brunoEvents.length ≠ expectedCount) :
    countStep a = a.results.addError
      (countMismatch a.eventTypesGo.card a.eventTypesBruno.card a.brunoEvents.length) := by
  simp [countStep, h]

end

/-- A second `run_audit` on the auditor a first one returned: it returns too, with every sample
    twice, the same two type sets, the first call's issues first, and more Errors. -/
theorem runAudit_rerun {rt : Runtime} {repo : Repo} {a₁ : Auditor}
    (h : runAudit rt repo .init = .ok a₁) :
    ∃ a₂, runAudit rt repo a₁ = .ok a₂ ∧ a₂.brunoEvents = a₁.brunoEvents ++ a₁.brunoEvents ∧
      a₂.eventTypesGo = a₁.eventTypesGo ∧ a₂.eventTypesBruno = a₁.eventTypesBruno ∧
      List.IsPrefix a₁.results.errors a₂.results.errors ∧ a₁.results.failed < a₂.results.failed := by
  obtain ⟨c₁, c₂, c₃, c₄, h₁, h₂, h₃, h₄, h₅⟩ := runAudit_ok h
  obtain ⟨ms₁, ex₁, -, -, ha₁⟩ := validateEventCounts_ok h₅
  obtain ⟨fs, -, hc₄⟩ := validateGuidFields_ok h₄
  have dE : a₁.brunoEvents = c₃.brunoEvents := by simp [ha₁, hc₄, validateBrunoPayloads]
  have dG : a₁.eventTypesGo = c₃.eventTypesGo := by simp [ha₁, hc₄, validateBrunoPayloads]
  have dT : a₁.eventTypesBruno = c₃.eventTypesBruno := by simp [ha₁, hc₄, validateBrunoPayloads]
  have hc₄G : c₄.eventTypesGo = c₃.eventTypesGo := by simp [hc₄, validateBrunoPayloads]
  have hc₄T : c₄.eventTypesBruno = c₃.eventTypesBruno := by simp [hc₄, validateBrunoPayloads]
  obtain ⟨F, r₁, e₁, k₁⟩ := parseGoStruct_rerun h₁ a₁
  obtain ⟨r₂, e₂, k₂⟩ := parseEventTypesEnum_rerun h₂ { a₁ with goFields := F, results := r₁ }
    (dG.trans (parseBrunoFiles_frame h₃))
  obtain ⟨evs, r₃, hevs, e₃, k₃⟩ := parseBrunoFiles_rerun h₃ { a₁ with goFields := F, results := r₂ } dT
  have hevs' : evs = a₁.brunoEvents := by
    rw [dE, hevs, (parseEventTypesEnum_frame h₂).1, (parseGoStruct_frame h₁).1]; rfl
  subst hevs'
  obtain ⟨r₄, e₄, k₄⟩ := continues_validateBrunoPayloads
    { a₁ with goFields := F, brunoEvents := a₁.brunoEvents ++ a₁.brunoEvents, results := r₃ }
  obtain ⟨r₅, e₅, k₅⟩ := validateGuidFields_rerun h₄
    { a₁ with goFields := F, brunoEvents := a₁.brunoEvents ++ a₁.brunoEvents, results := r₄ }
    (by simp [validateBrunoPayloads, ← dE])
  obtain ⟨ms, e₆⟩ := validateEventCounts_rerun h₅
    { a₁ with goFields := F, brunoEvents := a₁.brunoEvents ++ a₁.brunoEvents, results := r₅ }
    (dG.trans hc₄G.symm) (dT.trans hc₄T.symm)
  refine ⟨{ a₁ with
      goFields := F
      brunoEvents := a₁.brunoEvents ++ a₁.brunoEvents
      results := (countStep { a₁ with
        goFields := F
        brunoEvents := a₁.brunoEvents ++ a₁.brunoEvents
        results := r₅ }).addErrors ms },
    by simp only [runAudit, e₁, ok_bind, e₂, e₃, e₄, e₅, e₆], rfl, rfl, rfl, ?_⟩
  have hodd : (a₁.brunoEvents ++ a₁.brunoEvents).length ≠ expectedCount := by
    simp [expectedCount]; omega
  have k := k₁.trans (k₂.trans (k₃.trans (k₄.trans k₅)))
  rw [countStep_of_length _ hodd]
  refine ⟨k.1.trans ((continues_addError _ _).trans (continues_addErrors _ _)).1, ?_⟩
  have := k.2
  simp only [addErrors_failed, addError_failed]
  omega

/-- A checkout with both Go files declaring `chat` and `jump`, and a sample of each. -/
def chatJumpRepo : Repo :=
  ⟨".", .text eventsGoText, .text (enumText ["chat", "jump"]), some [corpusEntry "chat", corpusEntry "jump"]⟩

theorem runAudit_rerun_chatJump :
    ∃ a₁, runAudit asciiRuntime chatJumpRepo .init = .ok a₁ ∧
      a₁.brunoEvents = [corpusSample "chat", corpusSample "jump"] ∧
      ∃ a₂, runAudit asciiRuntime chatJumpRepo a₁ = .ok a₂ ∧
        a₂.brunoEvents = a₁.brunoEvents ++ a₁.brunoEvents ∧ a₂.eventTypesGo = a₁.eventTypesGo ∧
        a₂.eventTypesBruno = a₁.eventTypesBruno ∧ List.IsPrefix a₁.results.errors a₂.results.errors ∧
        a₁.results.failed < a₂.results.failed :=
  ⟨_, rfl, rfl, runAudit_rerun rfl⟩

/-- A checkout with none of the three sources. -/
def emptyRepo : Repo := ⟨".", .missing, .missing, none⟩

/-- On it a fresh run records 4 Errors, and a second call on the same auditor 8. -/
theorem rerun_counts_errors_twice :
    ∃ a₁ a₂, runAudit asciiRuntime emptyRepo .init = .ok a₁ ∧
      runAudit asciiRuntime emptyRepo a₁ = .ok a₂ ∧ a₁.results.failed = 4 ∧ a₂.results.failed = 8 :=
  ⟨_, _, rfl, rfl, rfl, rfl⟩

end EventSystemAudit

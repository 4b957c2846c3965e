import EventSystemAudit.AuditRerun

set_option autoImplicit false

/-!
# The issue list and the counters

`add_error` appends a message and counts an Error, `add_warning` appends a marked message and
counts a warning, and `add_pass` appends nothing; every phase of the audit changes its result only
through these. So from a fresh auditor, after any number of audits of any inputs, the issue list
`print_summary` numbers holds exactly `failed + warnings` entries.

Only `validate_guid_fields` calls `add_warning`, once for each sample that breaks a GUID rule: so a
run adds one warning per loaded sample that breaks one, from any state.
-/

namespace EventSystemAudit

namespace ValidationResult

/-- One entry of the issue list per Error and per warning. -/
def Tallied (r : ValidationResult) : Prop := r.errors.length = r.failed + r.warnings

variable {r : ValidationResult}

theorem Tallied.addError (h : r.Tallied) (m : String) : (r.addError m).Tallied := by
  simp only [Tallied, ValidationResult.addError, List.length_append, List.length_singleton] at *; omega

theorem Tallied.addWarning (h : r.Tallied) (m : String) : (r.addWarning m).Tallied := by
  simp only [Tallied, ValidationResult.addWarning, List.length_append, List.length_singleton] at *; omega

theorem Tallied.addPass (h : r.Tallied) : r.addPass.Tallied := h

theorem Tallied.addErrors (h : r.Tallied) (ms : List String) : (r.addErrors ms).Tallied := by
  rw [addErrors_eq]; simp only [Tallied, List.length_append] at *; omega

theorem Tallied.record (h : r.Tallied) (f : Finding) : (f.record r).Tallied := by
  cases f with
  | error m => exact h.addError m
  | warning m => exact h.addWarning m

theorem Tallied.addPassIf (h : r.Tallied) (b : Bool) : (if b then r.addPass else r).Tallied := by
  split
  · exact h.addPass
  · exact h

end ValidationResult

open ValidationResult

section
variable {rt : Runtime} {repo : Repo} {a a' : Auditor}

theorem parseGoStruct_tallied (h : parseGoStruct rt repo a = .ok a') (ha : a.results.Tallied) :
    a'.results.Tallied := by
  rcases parseGoStruct_ok h with ⟨_, _, -, -, rfl⟩ | ⟨msg, rfl⟩
  · exact ha
  · exact ha.addError msg

theorem parseEventTypesEnum_tallied (h : parseEventTypesEnum rt repo a = .ok a') (ha : a.results.Tallied) :
    a'.results.Tallied := by
  rcases parseEventTypesEnum_ok h with ⟨_, -, rfl⟩ | ⟨msg, rfl⟩
  · exact ha
  · exact ha.addError msg

theorem foldl_apply_tallied (ls : List FileLoad) (ha : a.results.Tallied) :
    (ls.foldl FileLoad.apply a).results.Tallied := by
  induction ls generalizing a with
  | nil => exact ha
  | cons l ls ih => exact ih (ha.addErrors l.errors)

theorem parseBrunoFiles_tallied (h : parseBrunoFiles rt repo a = .ok a') (ha : a.results.Tallied) :
    a'.results.Tallied := by
  rcases parseBrunoFiles_ok h with ⟨_, ls, -, -, rfl⟩ | ⟨msg, rfl⟩
  · exact foldl_apply_tallied ls ha
  · exact ha.addError msg

theorem validateBrunoPayloads_tallied (ha : a.results.Tallied) : (validateBrunoPayloads a).results.Tallied :=
  (ha.addErrors _).addPassIf _

theorem validateGuidFields_tallied (h : validateGuidFields a = .ok a') (ha : a.results.Tallied) :
    a'.results.Tallied := by
  obtain ⟨fs, -, rfl⟩ := validateGuidFields_ok h
  have hr : ∀ (l : List Finding) (r : ValidationResult), r.Tallied → (l.foldl Finding.record r).Tallied := by
    intro l
    induction l with
    | nil => exact fun _ h => h
    | cons f l ih => exact fun r h => ih _ (h.record f)
  exact (hr _ _ ha).addPassIf _

theorem validateEventCounts_tallied (h : validateEventCounts a = .ok a') (ha : a.results.Tallied) :
    a'.results.Tallied := by
  obtain ⟨_, _, -, -, rfl⟩ := validateEventCounts_ok h
  refine Tallied.addErrors ?_ _
  unfold countStep
  split
  · exact ha.addPass
  · exact ha.addError _

theorem runAudit_tallied (h : runAudit rt repo a = .ok a') (ha : a.results.Tallied) : a'.results.Tallied := by
  obtain ⟨a₁, a₂, a₃, a₄, h₁, h₂, h₃, h₄, h₅⟩ := runAudit_ok h
  exact validateEventCounts_tallied h₅ <| validateGuidFields_tallied h₄ <| validateBrunoPayloads_tallied <|
    parseBrunoFiles_tallied h₃ <| parseEventTypesEnum_tallied h₂ <| parseGoStruct_tallied h₁ ha

end

/-- From a fresh auditor, after audits of the inputs `repos` one after another on the same
    auditor, the issue list has exactly one entry per Error and per warning counted. -/
theorem runAudits_tallied {rt : Runtime} {repos : List Repo} {a : Auditor}
    (h : repos.foldlM (fun a repo => runAudit rt repo a) .init = .ok a) :
    a.results.errors.length = a.results.failed + a.results.warnings := by
  have step : ∀ (b : Auditor) (repo : Repo) (b' : Auditor), b.results.Tallied → runAudit rt repo b = .ok b' →
      b'.results.Tallied := fun _ _ _ hb h => runAudit_tallied h hb
  exact foldlM_inv step repos .init a rfl h

/-! ## The warnings -/

namespace ValidationResult

@[simp] theorem addError_warnings (r : ValidationResult) (m : String) : (r.addError m).warnings = r.warnings := rfl

@[simp] theorem addPass_warnings (r : ValidationResult) : r.addPass.warnings = r.warnings := rfl

@[simp] theorem addErrors_warnings (r : ValidationResult) (ms : List String) :
    (r.addErrors ms).warnings = r.warnings := by
  rw [addErrors_eq]

end ValidationResult

/-- A sample the GUID rules warn about: it has no `guid` key, and it is a combat event without both
    `attacker_guid` and `victim_guid`, or another single-player event without `player_guid`. -/
def guidWarned (ev : BrunoEvent) : Bool :=
  !hasKey ev.payload "guid" &&
    match ev.eventType.toKey? with
    | some k =>
      if combatEvents.mem k then !(hasKey ev.payload "attacker_guid" && hasKey ev.payload "victim_guid")
      else singlePlayerEvents.mem k && !hasKey ev.payload "player_guid"
    | none => false

theorem foldl_record_warnings (fs : List Finding) (r : ValidationResult) :
    (fs.foldl Finding.record r).warnings = r.warnings + fs.countP (!·.isError) := by
  induction fs generalizing r with
  | nil => rfl
  | cons f fs ih =>
    cases f <;> simp [ih, Finding.record, List.countP_cons, Finding.isError, ValidationResult.addWarning]
    omega

theorem guidFindings_warnings {ev : BrunoEvent} {fs : List Finding} (h : guidFindings ev = .ok fs) :
    fs.countP (!·.isError) = if guidWarned ev then 1 else 0 := by
  cases hg : hasKey ev.payload "guid"
  · cases hk : ev.eventType.toKey? with
    | none => simp [guidFindings, hg, PySet.contains, hk] at h
    | some k =>
      have hc : ∀ s : PySet, s.contains ev.eventType = .ok (s.mem k) := fun s => by rw [PySet.contains, hk]
      simp only [guidFindings, hg, hc, Bool.false_eq_true, if_false, except_pure, ok_bind] at h
      simp only [guidWarned, hg, hk, Bool.not_false, Bool.true_and]
      split at h
      · -- a combat event
        next hcm =>
        rw [if_pos hcm]
        split at h
        · next hb => cases h; simp [hb]
        · next hb => cases h; simp [Bool.eq_false_iff.2 hb, Finding.isError]
      · next hcm =>
        rw [if_neg hcm]
        split at h
        · -- a single-player event
          next hsp =>
          split at h
          · next hp => cases h; simp [hsp, hp]
          · next hp => cases h; simp [hsp, Bool.eq_false_iff.2 hp, Finding.isError]
        · next hsp => cases h; simp [Bool.eq_false_iff.2 hsp]
  · rw [guidFindings_guid hg] at h
    cases h
    simp [guidWarned, hg, Finding.isError]

theorem validateGuidFields_warnings {a a' : Auditor} (h : validateGuidFields a = .ok a') :
    a'.brunoEvents = a.brunoEvents ∧ a'.results.warnings = a.results.warnings + a.brunoEvents.countP guidWarned := by
  obtain ⟨fs, hfs, rfl⟩ := validateGuidFields_ok h
  have hsum : ∀ {evs : List BrunoEvent} {fss : List (List Finding)},
      List.Forall₂ (fun ev f => guidFindings ev = .ok f) evs fss →
      (fss.map (List.countP (!·.isError))).sum = evs.countP guidWarned := by
    intro evs fss hF
    induction hF with
    | nil => rfl
    | cons h _ ih =>
      rw [List.map_cons, List.sum_cons, ih, guidFindings_warnings h, List.countP_cons]
      omega
  refine ⟨rfl, ?_⟩
  rw [← hsum (mapM_ok_forall₂ hfs), ← List.countP_flatten]
  unfold guidResults; dsimp only
  split <;> simp [foldl_record_warnings]

section
variable {rt : Runtime} {repo : Repo} {a a' : Auditor}

theorem parseGoStruct_warnings (h : parseGoStruct rt repo a = .ok a') : a'.results.warnings = a.results.warnings := by
  rcases parseGoStruct_ok h with ⟨_, _, -, -, rfl⟩ | ⟨_, rfl⟩ <;> simp

theorem parseEventTypesEnum_warnings (h : parseEventTypesEnum rt repo a = .ok a') :
    a'.results.warnings = a.results.warnings := by
  rcases parseEventTypesEnum_ok h with ⟨_, -, rfl⟩ | ⟨_, rfl⟩ <;> simp

theorem parseBrunoFiles_warnings (h : parseBrunoFiles rt repo a = .ok a') :
    a'.results.warnings = a.results.warnings := by
  rcases parseBrunoFiles_ok h with ⟨_, _, -, -, rfl⟩ | ⟨_, rfl⟩ <;> simp [foldl_apply]

theorem validateBrunoPayloads_warnings (a : Auditor) :
    (validateBrunoPayloads a).brunoEvents = a.brunoEvents ∧
      (validateBrunoPayloads a).results.warnings = a.results.warnings := by
  unfold validateBrunoPayloads; dsimp only
  split <;> simp

theorem validateEventCounts_warnings (h : validateEventCounts a = .ok a') :
    a'.brunoEvents = a.brunoEvents ∧ a'.results.warnings = a.results.warnings := by
  obtain ⟨_, _, -, -, rfl⟩ := validateEventCounts_ok h
  unfold countStep
  split <;> simp

/-- Every warning of a run is a GUID warning: from any state, a run that returns adds exactly one
    warning per loaded sample that breaks a GUID rule. -/
theorem runAudit_warnings (h : runAudit rt repo a = .ok a') :
    a'.results.warnings = a.results.warnings + a'.brunoEvents.countP guidWarned := by
  obtain ⟨a₁, a₂, a₃, a₄, h₁, h₂, h₃, h₄, h₅⟩ := runAudit_ok h
  obtain ⟨e₄, w₄⟩ := validateGuidFields_warnings h₄
  obtain ⟨e₅, w₅⟩ := validateEventCounts_warnings h₅
  obtain ⟨e₃, w₃⟩ := validateBrunoPayloads_warnings a₃
  rw [w₅, e₅, w₄, e₄, w₃, e₃, parseBrunoFiles_warnings h₃, parseEventTypesEnum_warnings h₂, parseGoStruct_warnings h₁]

end

/-- A checkout whose events directory holds a `jump` and a `player_kill` sample without GUID fields. -/
def guidlessRepo : Repo :=
  ⟨".", .missing, .missing, some [⟨"Jump.bru", .ok "body:json \x7b\n  \x7b\"type\":\"jump\"\x7d\n\x7d\n"⟩,
    ⟨"Player Kill.bru", .ok "body:json \x7b\n  \x7b\"type\":\"player_kill\"\x7d\n\x7d\n"⟩]⟩

theorem guidlessRepo_warnings :
    ∃ a', runAudit asciiRuntime guidlessRepo .init = .ok a' ∧ a'.results.warnings = 2 ∧
      a'.results.warnings = Auditor.init.results.warnings + a'.brunoEvents.countP guidWarned :=
  ⟨_, rfl, rfl, @runAudit_warnings asciiRuntime guidlessRepo .init _ rfl⟩

/-- Two audits of `guidlessRepo` on one auditor: two warnings, then four more, as the second audit
    checks the first one's samples again. -/
theorem twoGuidlessAudits_tallied :
    ∃ a, [guidlessRepo, guidlessRepo].foldlM (fun a repo => runAudit asciiRuntime repo a) .init = .ok a ∧
      a.results.warnings = 6 ∧ a.results.errors.length = a.results.failed + a.results.warnings :=
  ⟨_, rfl, rfl, @runAudits_tallied asciiRuntime [guidlessRepo, guidlessRepo] _ rfl⟩

end EventSystemAudit

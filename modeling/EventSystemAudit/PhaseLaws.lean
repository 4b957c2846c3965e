import EventSystemAudit.AuditorRun
import EventSystemAudit.LoaderLaws

set_option autoImplicit false

/-!
# What each phase can do

One lemma per phase says everything a successful call can do to the auditor; the lemmas after
them read off what a phase that recorded no Error implies. Every later result about whole runs
is assembled from these.
-/

namespace EventSystemAudit

section
variable {rt : Runtime} {repo : Repo} {a a' : Auditor}

@[simp] theorem addError_failed (r : ValidationResult) (m : String) :
    (r.addError m).failed = r.failed + 1 := rfl

@[simp] theorem addPass_failed (r : ValidationResult) : r.addPass.failed = r.failed := rfl

@[simp] theorem addWarning_failed (r : ValidationResult) (m : String) :
    (r.addWarning m).failed = r.failed := rfl

@[simp] theorem addErrors_failed (r : ValidationResult) (ms : List String) :
    (r.addErrors ms).failed = r.failed + ms.length := by
  rw [ValidationResult.addErrors_eq]

@[simp] theorem Auditor.addError_results (a : Auditor) (m : String) :
    (a.addError m).results = a.results.addError m := rfl

/-- A run that returns went through every phase. -/
theorem runAudit_ok (h : runAudit rt repo a = .ok a') :
    ∃ a₁ a₂ a₃ a₄, parseGoStruct rt repo a = .ok a₁ ∧ parseEventTypesEnum rt repo a₁ = .ok a₂ ∧
      parseBrunoFiles rt repo a₂ = .ok a₃ ∧ validateGuidFields (validateBrunoPayloads a₃) = .ok a₄ ∧
      validateEventCounts a₄ = .ok a' := by
  unfold runAudit at h
  obtain ⟨a₁, h₁, h⟩ := bind_eq_ok h
  obtain ⟨a₂, h₂, h⟩ := bind_eq_ok h
  obtain ⟨a₃, h₃, h⟩ := bind_eq_ok h
  obtain ⟨a₄, h₄, h⟩ := bind_eq_ok h
  exact ⟨a₁, a₂, a₃, a₄, h₁, h₂, h₃, h₄, h⟩

/-- `r'` continues `r`: it lists the issues of `r` first, and has no fewer Errors. -/
def Continues (r r' : ValidationResult) : Prop := List.IsPrefix r.errors r'.errors ∧ r.failed ≤ r'.failed

theorem Continues.refl (r : ValidationResult) : Continues r r := ⟨List.prefix_refl _, le_rfl⟩

theorem Continues.trans {r r' r'' : ValidationResult} (h : Continues r r') (h' : Continues r' r'') :
    Continues r r'' := ⟨h.1.trans h'.1, h.2.trans h'.2⟩

theorem continues_addError (r : ValidationResult) (m : String) : Continues r (r.addError m) :=
  ⟨List.prefix_append _ _, Nat.le_succ _⟩

theorem continues_addPass (r : ValidationResult) : Continues r r.addPass := ⟨List.prefix_refl _, le_rfl⟩

theorem continues_addWarning (r : ValidationResult) (m : String) : Continues r (r.addWarning m) :=
  ⟨List.prefix_append _ _, le_rfl⟩

theorem continues_addErrors (r : ValidationResult) (ms : List String) : Continues r (r.addErrors ms) := by
  rw [ValidationResult.addErrors_eq]; exact ⟨List.prefix_append _ _, Nat.le_add_right _ _⟩

theorem parseGoStruct_ok (h : parseGoStruct rt repo a = .ok a') :
    (∃ raw m, repo.eventsGo = .text raw ∧ search structPattern (universalNewlines raw.toList) = some m ∧
      a' = { a with goFields := fieldsOfBody rt (m.groups.getD 0 "") a.goFields }) ∨
    ∃ msg, a' = a.addError msg := by
  unfold parseGoStruct at h
  split at h
  · cases h; exact .inr ⟨_, rfl⟩
  · cases h
  · split at h
    · cases h; exact .inr ⟨_, rfl⟩
    · cases h; exact .inl ⟨_, _, ‹_›, ‹_›, rfl⟩

theorem parseEventTypesEnum_ok (h : parseEventTypesEnum rt repo a = .ok a') :
    (∃ raw, repo.eventTypesGenerated = .text raw ∧
      a' = { a with eventTypesGo := typesOfEnum rt (universalNewlines raw.toList) a.eventTypesGo }) ∨
    ∃ msg, a' = a.addError msg := by
  unfold parseEventTypesEnum at h
  split at h
  · cases h; exact .inr ⟨_, rfl⟩
  · cases h
  · cases h; exact .inl ⟨_, ‹_›, rfl⟩

theorem parseBrunoFiles_ok (h : parseBrunoFiles rt repo a = .ok a') :
    (∃ entries ls, repo.brunoEventsDir = some entries ∧
      (bruFiles entries).mapM (fileLoad rt) = .ok ls ∧ a' = ls.foldl FileLoad.apply a) ∨
    ∃ msg, a' = a.addError msg := by
  unfold parseBrunoFiles parseBrunoFilesBy at h
  split at h
  · cases h; exact .inr ⟨_, rfl⟩
  · rw [loadBruFiles_eq] at h
    rcases hm : (bruFiles _).mapM (fileLoad rt) with ex | ls <;> rw [hm] at h
    · cases h
    · cases h; exact .inl ⟨_, ls, ‹_›, hm, rfl⟩

theorem parseGoStruct_frame (h : parseGoStruct rt repo a = .ok a') :
    a'.brunoEvents = a.brunoEvents ∧ a'.eventTypesGo = a.eventTypesGo ∧
      a'.eventTypesBruno = a.eventTypesBruno := by
  rcases parseGoStruct_ok h with ⟨_, _, -, -, rfl⟩ | ⟨_, rfl⟩ <;> exact ⟨rfl, rfl, rfl⟩

theorem parseEventTypesEnum_frame (h : parseEventTypesEnum rt repo a = .ok a') :
    a'.brunoEvents = a.brunoEvents ∧ a'.eventTypesBruno = a.eventTypesBruno := by
  rcases parseEventTypesEnum_ok h with ⟨_, -, rfl⟩ | ⟨_, rfl⟩ <;> exact ⟨rfl, rfl⟩

theorem parseBrunoFiles_frame (h : parseBrunoFiles rt repo a = .ok a') :
    a'.eventTypesGo = a.eventTypesGo := by
  rcases parseBrunoFiles_ok h with ⟨_, _, -, -, rfl⟩ | ⟨_, rfl⟩
  · rw [foldl_apply]
  · rfl

theorem parseGoStruct_rerun (h : parseGoStruct rt repo a = .ok a') (b : Auditor) :
    ∃ F r, parseGoStruct rt repo b = .ok { b with goFields := F, results := r } ∧
      Continues b.results r := by
  unfold parseGoStruct at h ⊢
  cases hg : repo.eventsGo with
  | missing => exact ⟨_, _, rfl, continues_addError _ _⟩
  | unreadable msg => simp [hg] at h
  | text raw =>
    cases hs : search structPattern (universalNewlines raw.toList) with
    | none => exact ⟨_, _, by simp only [hs]; rfl, continues_addError _ _⟩
    | some m => exact ⟨fieldsOfBody rt (m.groups.getD 0 "") b.goFields, _, by simp only [hs], .refl _⟩

theorem typesOfEnum_eq (rt : Runtime) (text : List Char) (s : PySet) :
    typesOfEnum rt text s =
      ((findAll (constPattern rt) text).map fun m => PyKey.str (m.groups.getD 0 "")).foldl PySet.insert s := by
  simp [typesOfEnum, List.foldl_map]

theorem typesOfEnum_idem (rt : Runtime) (text : List Char) (s : PySet) :
    typesOfEnum rt text (typesOfEnum rt text s) = typesOfEnum rt text s := by
  simp only [typesOfEnum_eq]
  exact PySet.foldl_insert_self _ _

theorem parseEventTypesEnum_rerun (h : parseEventTypesEnum rt repo a = .ok a') (b : Auditor)
    (hb : b.eventTypesGo = a'.eventTypesGo) :
    ∃ r, parseEventTypesEnum rt repo b = .ok { b with results := r } ∧ Continues b.results r := by
  unfold parseEventTypesEnum at h ⊢
  cases hg : repo.eventTypesGenerated with
  | missing => exact ⟨_, rfl, continues_addError _ _⟩
  | unreadable msg => simp [hg] at h
  | text raw =>
    simp only [hg, Except.ok.injEq] at h
    subst h
    refine ⟨b.results, ?_, Continues.refl _⟩
    dsimp only at hb
    simp only [hb, typesOfEnum_idem]

theorem parseBrunoFiles_rerun (h : parseBrunoFiles rt repo a = .ok a') (b : Auditor)
    (hb : b.eventTypesBruno = a'.eventTypesBruno) :
    ∃ evs r, a'.brunoEvents = a.brunoEvents ++ evs ∧
      parseBrunoFiles rt repo b = .ok { b with brunoEvents := b.brunoEvents ++ evs, results := r } ∧
      Continues b.results r := by
  unfold parseBrunoFiles parseBrunoFilesBy at h ⊢
  cases hd : repo.brunoEventsDir with
  | none =>
    simp only [hd, Except.ok.injEq] at h
    subst h
    exact ⟨[], _, by simp [Auditor.addError], by simp only [List.append_nil]; rfl, continues_addError _ _⟩
  | some entries =>
    simp only [hd] at h ⊢
    rw [loadBruFiles_eq] at h ⊢
    rcases hm : (bruFiles entries).mapM (fileLoad rt) with ex | ls <;> rw [hm] at h
    · cases h
    · simp only [ok_map, Except.ok.injEq] at h
      subst h
      refine ⟨FileLoad.events ls, b.results.addErrors (ls.flatMap (·.errors)), by rw [foldl_apply], ?_,
        continues_addErrors _ _⟩
      rw [ok_map, foldl_apply]
      simp only [foldl_apply, foldl_insertVal] at hb
      rw [hb, foldl_insertVal, PySet.foldl_insert_self, ← foldl_insertVal]

theorem parseBrunoFiles_clean (h : parseBrunoFiles rt repo a = .ok a') (h0 : a'.results.failed = 0) :
    a.results.failed = 0 ∧ ∃ entries ls, repo.brunoEventsDir = some entries ∧
      (bruFiles entries).mapM (fileLoad rt) = .ok ls ∧ (∀ l ∈ ls, l.errors = []) ∧
      a' = ls.foldl FileLoad.apply a := by
  rcases parseBrunoFiles_ok h with ⟨entries, ls, hd, hm, rfl⟩ | ⟨_, rfl⟩
  · simp only [foldl_apply, addErrors_failed, Nat.add_eq_zero, List.length_eq_zero,
      List.flatMap_eq_nil_iff] at h0
    exact ⟨h0.1, entries, ls, hd, hm, h0.2, rfl⟩
  · simp at h0

/-- The results after the findings of `validate_guid_fields`, with its pass. -/
def guidResults (a : Auditor) (fs : List (List Finding)) : ValidationResult :=
  let r := fs.flatten.foldl Finding.record a.results
  if !(a.brunoEvents.any fun ev => hasKey ev.payload "guid") && r.warnings == 0 then r.addPass else r

def Finding.isError : Finding → Bool
  | .error _ => true
  | .warning _ => false

theorem foldl_record_failed (fs : List Finding) (r : ValidationResult) :
    (fs.foldl Finding.record r).failed = r.failed + fs.countP Finding.isError := by
  induction fs generalizing r with
  | nil => rfl
  | cons f fs ih =>
    cases f <;> simp [ih, Finding.record, List.countP_cons, Finding.isError]
    omega

theorem guidResults_failed (a : Auditor) (fs : List (List Finding)) :
    (guidResults a fs).failed = a.results.failed + fs.flatten.countP Finding.isError := by
  unfold guidResults; dsimp only; split <;> simp [foldl_record_failed]

theorem guidFindings_guid {ev : BrunoEvent} (hg : hasKey ev.payload "guid" = true) :
    guidFindings ev = .ok [.error (errorMark ++ ev.fileName ++ ": Uses ambiguous 'guid' field")] := by
  simp [guidFindings, hg]

theorem validateGuidFields_ok (h : validateGuidFields a = .ok a') :
    ∃ fs, a.brunoEvents.mapM guidFindings = .ok fs ∧ a' = { a with results := guidResults a fs } := by
  unfold validateGuidFields at h
  obtain ⟨fs, hfs, h⟩ := bind_eq_ok h
  cases h
  exact ⟨fs, hfs, rfl⟩

theorem validateGuidFields_clean (h : validateGuidFields a = .ok a') (h0 : a'.results.failed = 0) :
    a.results.failed = 0 ∧ (∀ ev ∈ a.brunoEvents, hasKey ev.payload "guid" = false) ∧
      ∃ r, a' = { a with results := r } := by
  obtain ⟨fs, hfs, rfl⟩ := validateGuidFields_ok h
  rw [guidResults_failed] at h0
  refine ⟨by omega, fun ev hev => ?_, _, rfl⟩
  by_contra hg
  obtain ⟨f, hf, hfe⟩ := mapM_ok_mem hfs hev
  rw [guidFindings_guid (by simpa using hg)] at hfe
  cases hfe
  have : 0 < fs.flatten.countP Finding.isError :=
    List.countP_pos_iff.2 ⟨_, List.mem_flatten.2 ⟨_, hf, .head _⟩, rfl⟩
  omega

/-- The count check of `validate_event_counts`. -/
def countStep (a : Auditor) : ValidationResult :=
  if a.eventTypesGo.card = expectedCount ∧ a.eventTypesBruno.card = expectedCount ∧
      a.brunoEvents.length = expectedCount
  then a.results.addPass
  else a.results.addError (countMismatch a.eventTypesGo.card a.eventTypesBruno.card a.brunoEvents.length)

theorem validateEventCounts_ok (h : validateEventCounts a = .ok a') :
    ∃ missing extra, pySorted (a.eventTypesGo.diff a.eventTypesBruno).elems = .ok missing ∧
      pySorted (a.eventTypesBruno.diff a.eventTypesGo).elems = .ok extra ∧
      a' = { a with
        results := (countStep a).addErrors (missing.map missingInBruno ++ extra.map extraInBruno) } := by
  unfold validateEventCounts at h
  obtain ⟨missing, hm, h⟩ := bind_eq_ok h
  obtain ⟨extra, he, h⟩ := bind_eq_ok h
  cases h
  exact ⟨missing, extra, hm, he, by simp [countStep]⟩

theorem validateEventCounts_clean (h : validateEventCounts a = .ok a') (h0 : a'.results.failed = 0) :
    a.results.failed = 0 ∧ a.eventTypesGo.card = expectedCount ∧
      a.eventTypesBruno.card = expectedCount ∧ a.brunoEvents.length = expectedCount ∧
      (a.eventTypesGo.diff a.eventTypesBruno).elems = [] ∧
      (a.eventTypesBruno.diff a.eventTypesGo).elems = [] ∧ ∃ r, a' = { a with results := r } := by
  obtain ⟨missing, extra, hm, he, rfl⟩ := validateEventCounts_ok h
  simp only [addErrors_failed, List.length_append, List.length_map] at h0
  obtain rfl : missing = [] := List.eq_nil_of_length_eq_zero (by omega)
  obtain rfl : extra = [] := List.eq_nil_of_length_eq_zero (by omega)
  have hd := List.nil_perm.1 (pySorted_perm hm)
  have hd' := List.nil_perm.1 (pySorted_perm he)
  unfold countStep at h0
  split at h0
  · next hc => exact ⟨by simpa using h0, hc.1, hc.2.1, hc.2.2, hd, hd', _, rfl⟩
  · simp at h0

end

end EventSystemAudit

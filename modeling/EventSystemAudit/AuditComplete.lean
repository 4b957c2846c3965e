import EventSystemAudit.AuditVerdict

set_option autoImplicit false

/-!
# When an audit succeeds

The converse of `runAudit_success_sound`: a repository with both Go files, readable `.bru`
files, one sample for each file with a body, clean payloads, and sample types that list the
enum's 105 constants once each, is audited without an Error. Each phase is shown to record no
Error from what the earlier ones left.
-/

namespace EventSystemAudit

section
variable {rt : Runtime}

theorem fileLoad_of_sample {e : BruEntry} {ev : BrunoEvent} (hs : SampleOf rt e ev)
    (hk : ev.eventType.toKey?.isSome) : fileLoad rt e = .ok ⟨some ev, []⟩ := by
  obtain ⟨hname, raw, t, hraw, hb, hj⟩ := hs
  obtain ⟨k, hk⟩ := Option.isSome_iff_exists.1 hk
  have hev : ev = ⟨e.name, ev.payload⟩ := by rw [← hname]
  rw [hev] at hk ⊢
  simp [fileLoad, parseBruFile_dict _ hraw hb hj, hk]

theorem fileLoad_of_no_body {e : BruEntry} {raw : String} (hraw : e.content = .ok raw)
    (hb : hasBody e = false) : fileLoad rt e = .ok ⟨none, []⟩ := by
  have hn : bodyText? raw = none := by simpa [hasBody, hraw] using hb
  simp [fileLoad, parseBruFile, hraw, hn]

theorem mapM_fileLoad_of_samples {files : List BruEntry} {S : List BrunoEvent}
    (hread : ∀ e ∈ files, ∃ raw, e.content = .ok raw)
    (hS : List.Forall₂ (SampleOf rt) (files.filter hasBody) S) (hk : ∀ ev ∈ S, ev.eventType.toKey?.isSome) :
    ∃ ls, files.mapM (fileLoad rt) = .ok ls ∧ (∀ l ∈ ls, l.errors = []) ∧ FileLoad.events ls = S := by
  induction files generalizing S with
  | nil => cases hS; exact ⟨[], rfl, by simp, rfl⟩
  | cons e files ih =>
    obtain ⟨raw, hraw⟩ := hread e (.head _)
    have hread' := fun e' h => hread e' (.tail _ h)
    cases hb : hasBody e with
    | false =>
      rw [List.filter_cons_of_neg (by simp [hb])] at hS
      obtain ⟨ls, hls, hcl, hev⟩ := ih hread' hS hk
      refine ⟨⟨none, []⟩ :: ls, ?_, ?_, by simpa [FileLoad.events] using hev⟩
      · rw [List.mapM_cons, fileLoad_of_no_body hraw hb, hls]; rfl
      · simpa using hcl
    | true =>
      rw [List.filter_cons_of_pos hb] at hS
      obtain _ | ⟨hs, hS'⟩ := hS
      rename_i ev S'
      obtain ⟨ls, hls, hcl, hev⟩ := ih hread' hS' fun ev' h => hk ev' (.tail _ h)
      refine ⟨⟨some ev, []⟩ :: ls, ?_, ?_, by simpa [FileLoad.events] using hev⟩
      · rw [List.mapM_cons, fileLoad_of_sample hs (hk ev (.head _)), hls]; rfl
      · simpa using hcl

end

theorem PyKey.toKey?_toVal (k : PyKey) : k.toVal.toKey? = some k := by
  cases k <;> rfl

theorem PyKey.toVal_injective : Function.Injective PyKey.toVal := fun j k h => by
  simpa [PyKey.toKey?_toVal] using congrArg PyVal.toKey? h

theorem PySet.foldl_insert_of_nodup {ks : List PyKey} {s : PySet}
    (h : ((s.elems ++ ks).map PyKey.norm).Nodup) : (ks.foldl PySet.insert s).elems = s.elems ++ ks := by
  induction ks generalizing s with
  | nil => simp
  | cons k ks ih =>
    have hk : s.mem k = false := by
      rw [List.map_append, List.nodup_append] at h
      rw [Bool.eq_false_iff]
      intro hm
      exact h.2.2 (PySet.mem_iff.1 hm) (List.mem_map_of_mem _ (.head _))
    have he : (s.insert k).elems = s.elems ++ [k] := by rw [PySet.insert_elems, hk]; rfl
    rw [List.foldl_cons, ih (by rwa [he, List.append_assoc]), he, List.append_assoc]
    rfl

theorem PySet.ofKeys_elems {ks : List PyKey} (h : (ks.map PyKey.norm).Nodup) : (PySet.ofKeys ks).elems = ks :=
  PySet.foldl_insert_of_nodup h

theorem sampleKeys_perm {S : List BrunoEvent} {G : PySet} (ht : ∀ ev ∈ S, hasKey ev.payload "type" = true)
    (hperm : (S.map fun ev => ev.payload.lookup "type").Perm (G.elems.map fun k => some k.toVal)) :
    (∀ ev ∈ S, ev.eventType.toKey?.isSome) ∧ (S.filterMap fun ev => ev.eventType.toKey?).Perm G.elems := by
  have hsome : ∀ ev ∈ S, ev.eventType.toKey?.isSome := by
    intro ev hev
    obtain ⟨k, -, hk⟩ := List.mem_map.1 (hperm.subset (List.mem_map_of_mem _ hev))
    simp [BrunoEvent.eventType, ← hk, PyKey.toKey?_toVal]
  have hinj : Function.Injective fun k : PyKey => some k.toVal :=
    (Option.some_injective _).comp PyKey.toVal_injective
  have hmap := map_lookup_type ht hsome
  rw [hmap] at hperm
  have hnd : (G.elems.map fun k => some k.toVal).Nodup := (G.distinct.of_map _).map hinj
  refine ⟨hsome, (List.perm_ext_iff_of_nodup ((hperm.nodup_iff.2 hnd).of_map _) (G.distinct.of_map _)).2
    fun k => ?_⟩
  rw [← (List.mem_map_of_injective hinj), hperm.mem_iff, List.mem_map_of_injective hinj]

theorem guidFindings_clean {ev : BrunoEvent} (hg : hasKey ev.payload "guid" = false)
    (hk : ev.eventType.toKey?.isSome) : ∃ fs, guidFindings ev = .ok fs ∧ fs.countP Finding.isError = 0 := by
  obtain ⟨k, hk⟩ := Option.isSome_iff_exists.1 hk
  have hc : ∀ s : PySet, s.contains ev.eventType = .ok (s.mem k) := fun s => by rw [PySet.contains, hk]
  simp only [guidFindings, hg, hc, Bool.false_eq_true, if_false, except_pure, ok_bind]
  split
  · -- a combat event
    split <;> exact ⟨_, rfl, rfl⟩
  · split
    · -- a single-player event
      split <;> exact ⟨_, rfl, rfl⟩
    · exact ⟨_, rfl, rfl⟩

section
variable {a : Auditor}

theorem validateBrunoPayloads_of_clean (h : ∀ ev ∈ a.brunoEvents, payloadErrors a.goFields ev = []) :
    validateBrunoPayloads a = { a with results := a.results.addPass } := by
  simp [validateBrunoPayloads, List.flatMap_eq_nil_iff.2 h]

theorem validateGuidFields_of_clean
    (h : ∀ ev ∈ a.brunoEvents, hasKey ev.payload "guid" = false ∧ ev.eventType.toKey?.isSome) :
    ∃ r, validateGuidFields a = .ok { a with results := r } ∧ r.failed = a.results.failed := by
  obtain ⟨fs, hfs, hP⟩ := mapM_ok_of_exists fun ev hev => guidFindings_clean (h ev hev).1 (h ev hev).2
  refine ⟨guidResults a fs, by unfold validateGuidFields; rw [hfs]; rfl, ?_⟩
  have h0 : (fs.map (List.countP Finding.isError)).sum = 0 := List.sum_eq_zero fun n hn => by
    obtain ⟨f, hf, rfl⟩ := List.mem_map.1 hn
    exact hP f hf
  rw [guidResults_failed, List.countP_flatten, h0, Nat.add_zero]

theorem validateEventCounts_of_clean (hG : a.eventTypesGo.card = expectedCount)
    (hB : a.eventTypesBruno.card = expectedCount) (hS : a.brunoEvents.length = expectedCount)
    (h₁ : (a.eventTypesGo.diff a.eventTypesBruno).elems = [])
    (h₂ : (a.eventTypesBruno.diff a.eventTypesGo).elems = []) :
    validateEventCounts a = .ok { a with results := a.results.addPass } := by
  simp [validateEventCounts, hG, hB, hS, h₁, h₂, pySorted]

end

theorem diff_ofKeys_nil {ks : List PyKey} {G : PySet} (hperm : ks.Perm G.elems) :
    (G.diff (PySet.ofKeys ks)).elems = [] ∧ ((PySet.ofKeys ks).diff G).elems = [] := by
  have hB := PySet.ofKeys_elems ((hperm.map PyKey.norm).nodup_iff.2 G.distinct)
  constructor <;> refine List.filter_eq_nil_iff.2 fun k hk => ?_ <;>
    simp only [Bool.not_eq_true', Bool.not_eq_false]
  · exact PySet.mem_of_mem_elems (by rw [hB]; exact hperm.mem_iff.2 hk)
  · rw [hB] at hk
    exact PySet.mem_of_mem_elems (hperm.mem_iff.1 hk)

/-- A repository whose three sources are found, whose `.bru` files are readable and give one
    sample per file with a body, each with `type`, without `guid` and with only wire keys, and
    whose sample types list the enum's 105 constants once each, is audited without an Error. -/
theorem runAudit_success_of_clean {rt : Runtime} {repo : Repo} {raw₁ raw₂ : String} {m : Match}
    {entries : List BruEntry} {S : List BrunoEvent}
    (hgo : repo.eventsGo = .text raw₁) (hm : search structPattern (universalNewlines raw₁.toList) = some m)
    (henum : repo.eventTypesGenerated = .text raw₂) (hdir : repo.brunoEventsDir = some entries)
    (hread : ∀ e ∈ bruFiles entries, ∃ raw, e.content = .ok raw)
    (hS : List.Forall₂ (SampleOf rt) ((bruFiles entries).filter hasBody) S)
    (hpay : ∀ ev ∈ S, hasKey ev.payload "type" = true ∧ hasKey ev.payload "guid" = false ∧
      ∀ kv ∈ ev.payload, hasKey (fieldsOfBody rt (m.groups.getD 0 "") []) kv.1 = true)
    (htypes : (S.map fun ev => ev.payload.lookup "type").Perm
      ((typesOfEnum rt (universalNewlines raw₂.toList) .empty).elems.map fun k => some k.toVal))
    (hcard : (typesOfEnum rt (universalNewlines raw₂.toList) .empty).card = expectedCount) :
    ∃ a, runAudit rt repo .init = .ok a ∧ a.results.isSuccess = true := by
  obtain ⟨hk, hperm⟩ := sampleKeys_perm (fun ev hev => (hpay ev hev).1) htypes
  obtain ⟨ls, hls, hcl, hev⟩ := mapM_fileLoad_of_samples hread hS hk
  obtain ⟨hd₁, hd₂⟩ := diff_ofKeys_nil hperm
  have hB := PySet.ofKeys_elems ((hperm.map PyKey.norm).nodup_iff.2
    (typesOfEnum rt (universalNewlines raw₂.toList) .empty).distinct)
  have hlen : (S.filterMap fun ev => ev.eventType.toKey?).length = S.length := by
    rw [List.length_filterMap_eq_countP, List.countP_eq_length.2 hk]
  let F := fieldsOfBody rt (m.groups.getD 0 "") []
  let G := typesOfEnum rt (universalNewlines raw₂.toList) .empty
  let a₃ : Auditor := ⟨F, S, G, PySet.ofKeys (S.filterMap fun ev => ev.eventType.toKey?), .empty⟩
  have e₁ : parseGoStruct rt repo .init = .ok { Auditor.init with goFields := F } := by
    simp only [parseGoStruct, hgo, hm]; rfl
  have e₂ : parseEventTypesEnum rt repo { Auditor.init with goFields := F } =
      .ok { Auditor.init with goFields := F, eventTypesGo := G } := by
    simp only [parseEventTypesEnum, henum]; rfl
  have e₃ : parseBrunoFiles rt repo { Auditor.init with goFields := F, eventTypesGo := G } = .ok a₃ := by
    simp only [parseBrunoFiles, parseBrunoFilesBy, hdir, loadBruFiles_eq, hls, ok_map, foldl_apply, hev, foldl_insertVal,
      List.flatMap_eq_nil_iff.2 hcl]
    rfl
  have e₄ : validateBrunoPayloads a₃ = { a₃ with results := a₃.results.addPass } :=
    validateBrunoPayloads_of_clean fun ev hev => payloadErrors_nil_iff.2 ⟨(hpay ev hev).1, (hpay ev hev).2.2⟩
  obtain ⟨r, e₅, hr⟩ := @validateGuidFields_of_clean { a₃ with results := a₃.results.addPass }
    fun ev hev => ⟨(hpay ev hev).2.1, hk ev hev⟩
  have e₆ := @validateEventCounts_of_clean { a₃ with results := r } hcard
    (by simp only [PySet.card, hB, hperm.length_eq]; exact hcard)
    (by rw [← hlen, hperm.length_eq]; exact hcard) hd₁ hd₂
  refine ⟨{ a₃ with results := r.addPass }, ?_, ?_⟩
  · simp only [runAudit, e₁, ok_bind, e₂, e₃, e₄, e₅, e₆]
  · simp only [ValidationResult.isSuccess, addPass_failed, hr]
    rfl

end EventSystemAudit

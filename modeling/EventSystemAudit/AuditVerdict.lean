import EventSystemAudit.ValidationLaws

set_option autoImplicit false

/-!
# What a successful audit establishes

A run of `run_audit` on a fresh auditor that records no Error has found all three sources, kept
one sample per `.bru` file with a body, and seen each sample carry a `type`, no `guid` and only
wire keys. The count check and the two set differences then force the samples' types to list
the enum's constants once each: the set of the samples' types has as many members as there are
samples, so no two samples share a type, and it has the enum's members.
-/

namespace EventSystemAudit

theorem typesOfEnum_strings (rt : Runtime) (text : List Char) {s : PySet}
    (hs : ∀ k ∈ s.elems, k.kind = .str) : ∀ k ∈ (typesOfEnum rt text s).elems, k.kind = .str := by
  unfold typesOfEnum
  induction findAll (constPattern rt) text generalizing s with
  | nil => exact hs
  | cons m ms ih =>
    refine ih fun k hk => ?_
    rw [PySet.insert_elems] at hk
    split at hk
    · exact hs k hk
    · rcases List.mem_append.1 hk with hk | hk
      · exact hs k hk
      · rw [List.mem_singleton.1 hk]; rfl

/-- The state `validate_event_counts` receives in a run from a fresh auditor: its Go types are
    strings, and its set of Bruno types is the set of its samples' hashable types. -/
theorem runAudit_count_state {rt : Runtime} {repo : Repo} {a' : Auditor} (h : runAudit rt repo .init = .ok a') :
    ∃ a₄, validateEventCounts a₄ = .ok a' ∧ (∀ k ∈ a₄.eventTypesGo.elems, k.kind = .str) ∧
      a₄.eventTypesBruno = PySet.ofKeys (a₄.brunoEvents.filterMap fun ev => ev.eventType.toKey?) := by
  obtain ⟨a₁, a₂, a₃, a₄, h₁, h₂, h₃, h₄, h₅⟩ := runAudit_ok h
  obtain ⟨fs, -, rfl⟩ := validateGuidFields_ok h₄
  obtain ⟨hE₁, hG₁, hT₁⟩ := parseGoStruct_frame h₁
  obtain ⟨hE₂, hT₂⟩ := parseEventTypesEnum_frame h₂
  refine ⟨_, h₅, ?_, ?_⟩
  · show ∀ k ∈ a₃.eventTypesGo.elems, k.kind = .str
    rw [parseBrunoFiles_frame h₃]
    have hinit : ∀ k ∈ a₁.eventTypesGo.elems, k.kind = .str := by rw [hG₁]; nofun
    rcases parseEventTypesEnum_ok h₂ with ⟨raw, -, rfl⟩ | ⟨_, rfl⟩
    · exact typesOfEnum_strings rt _ hinit
    · exact hinit
  · show a₃.eventTypesBruno = PySet.ofKeys (a₃.brunoEvents.filterMap fun ev => ev.eventType.toKey?)
    rcases parseBrunoFiles_ok h₃ with ⟨entries, ls, -, hm, rfl⟩ | ⟨_, rfl⟩
    · exact loadBruFiles_types (by rw [loadBruFiles_eq, hm]; rfl) (hE₂.trans hE₁) (hT₂.trans hT₁)
    · show a₂.eventTypesBruno = PySet.ofKeys (a₂.brunoEvents.filterMap fun ev => ev.eventType.toKey?)
      rw [hT₂, hT₁, hE₂, hE₁]
      rfl

/-- A checkout with an enum file declaring `a` and one sample of type `a`. -/
def oneSampleRepo : Repo :=
  ⟨".", .missing, .text "package models\n\nconst (\n\tEventA EventType = \"a\"\n)\n",
    some [⟨"A.bru", .ok "body:json \x7b\n  \x7b\"type\":\"a\"\x7d\n\x7d\n"⟩]⟩

theorem oneSampleRepo_count_state :
    ∃ a', runAudit asciiRuntime oneSampleRepo .init = .ok a' ∧
      ∃ a₄, validateEventCounts a₄ = .ok a' ∧ (∀ k ∈ a₄.eventTypesGo.elems, k.kind = .str) ∧
        a₄.eventTypesBruno = PySet.ofKeys (a₄.brunoEvents.filterMap fun ev => ev.eventType.toKey?) :=
  ⟨_, rfl, @runAudit_count_state asciiRuntime oneSampleRepo _ rfl⟩

theorem lookup_type_of_toKey? {ev : BrunoEvent} {k : PyKey} (ht : hasKey ev.payload "type" = true)
    (hk : ev.eventType.toKey? = some k) : ev.payload.lookup "type" = some k.toVal := by
  obtain ⟨v, hv⟩ := Option.isSome_iff_exists.1 ht
  simp only [BrunoEvent.eventType, hv, Option.getD_some] at hk
  rw [hv, PyVal.toVal_of_toKey? hk]

theorem map_lookup_type {S : List BrunoEvent} (ht : ∀ ev ∈ S, hasKey ev.payload "type" = true)
    (hk : ∀ ev ∈ S, ev.eventType.toKey?.isSome) :
    S.map (fun ev => ev.payload.lookup "type") =
      (S.filterMap fun ev => ev.eventType.toKey?).map fun k => some k.toVal := by
  induction S with
  | nil => rfl
  | cons ev S ih =>
    simp only [List.forall_mem_cons] at ht hk
    obtain ⟨k, hkey⟩ := Option.isSome_iff_exists.1 hk.1
    simp [List.filterMap_cons, hkey, lookup_type_of_toKey? ht.1 hkey, ih ht.2 hk.2]

theorem types_perm_of_counts {S : List BrunoEvent} {G : PySet} (hG : ∀ k ∈ G.elems, k.kind = .str)
    (ht : ∀ ev ∈ S, hasKey ev.payload "type" = true) (hk : ∀ ev ∈ S, ev.eventType.toKey?.isSome)
    (hmiss : (G.diff (PySet.ofKeys (S.filterMap fun ev => ev.eventType.toKey?))).elems = [])
    (hextra : ((PySet.ofKeys (S.filterMap fun ev => ev.eventType.toKey?)).diff G).elems = [])
    (hcard : (PySet.ofKeys (S.filterMap fun ev => ev.eventType.toKey?)).card = S.length) :
    (S.map fun ev => ev.payload.lookup "type").Perm (G.elems.map fun k => some k.toVal) := by
  have hlen : (S.filterMap fun ev => ev.eventType.toKey?).length = S.length := by
    simpa using congrArg List.length (map_lookup_type ht hk).symm
  have helems := (PySet.ofKeys_sublist _).eq_of_length (hcard.trans hlen.symm)
  rw [map_lookup_type ht hk, ← helems]
  exact (PySet.elems_perm_of_mem_eq hG (PySet.mem_eq_of_diff_nil hextra hmiss)).map _

/-- What a run that recorded no Error has established about the repository and the auditor. -/
structure CleanAudit (rt : Runtime) (repo : Repo) (a : Auditor) : Prop where
  schemaFound : ∃ raw m, repo.eventsGo = .text raw ∧
    search structPattern (universalNewlines raw.toList) = some m ∧
    a.goFields = fieldsOfBody rt (m.groups.getD 0 "") []
  enumFound : ∃ raw, repo.eventTypesGenerated = .text raw ∧
    a.eventTypesGo = typesOfEnum rt (universalNewlines raw.toList) .empty
  samplesLoaded : ∃ entries, repo.brunoEventsDir = some entries ∧
    List.Forall₂ (SampleOf rt) ((bruFiles entries).filter hasBody) a.brunoEvents
  payloadsClean : ∀ ev ∈ a.brunoEvents, hasKey ev.payload "type" = true ∧
    hasKey ev.payload "guid" = false ∧ ∀ kv ∈ ev.payload, hasKey a.goFields kv.1 = true
  typesBijective : (a.brunoEvents.map fun ev => ev.payload.lookup "type").Perm
    (a.eventTypesGo.elems.map fun k => some k.toVal)
  enumSize : a.eventTypesGo.card = expectedCount

theorem runAudit_success_sound {rt : Runtime} {repo : Repo} {a : Auditor}
    (h : runAudit rt repo .init = .ok a) (hs : a.results.isSuccess = true) : CleanAudit rt repo a := by
  obtain ⟨a₁, a₂, a₃, a₄, h₁, h₂, h₃, h₄, h₅⟩ := runAudit_ok h
  have h0 : a.results.failed = 0 := by simpa [ValidationResult.isSuccess] using hs
  obtain ⟨h0₄, hG, hT, hS, hmiss, hextra, r₅, rfl⟩ := validateEventCounts_clean h₅ h0
  obtain ⟨h0v, hguid, r₄, rfl⟩ := validateGuidFields_clean h₄ h0₄
  obtain ⟨h0₃, hpay⟩ := validateBrunoPayloads_clean h0v
  obtain ⟨h0₂, entries, ls, hdir, hls, hclean, rfl⟩ := parseBrunoFiles_clean h₃ h0₃
  obtain ⟨raw₂, henum, rfl⟩ := (parseEventTypesEnum_ok h₂).resolve_right fun ⟨_, he⟩ => by
    subst he; simp at h0₂
  obtain ⟨raw₁, m, hgo, hm, rfl⟩ := (parseGoStruct_ok h₁).resolve_right fun ⟨_, he⟩ => by
    subst he; simp at h0₂
  obtain ⟨hsamples, hkeys⟩ := mapM_fileLoad_clean hls hclean
  simp only [validateBrunoPayloads, foldl_apply, foldl_insertVal] at hG hT hS hmiss hextra hpay hguid ⊢
  have hty := @typesOfEnum_strings rt (universalNewlines raw₂.toList) .empty (by simp [PySet.empty])
  exact
    { schemaFound := ⟨raw₁, m, hgo, hm, rfl⟩
      enumFound := ⟨raw₂, henum, rfl⟩
      samplesLoaded := ⟨entries, hdir, hsamples⟩
      payloadsClean := fun ev hev => ⟨(hpay ev hev).1, hguid ev hev, (hpay ev hev).2⟩
      typesBijective := types_perm_of_counts hty (fun ev hev => (hpay ev hev).1) hkeys hmiss hextra
        (hT.trans hS.symm)
      enumSize := hG }

end EventSystemAudit

import EventSystemAudit.PhaseLaws

set_option autoImplicit false

/-!
# Laws of the payload and count checks

`validate_bruno_payloads` records one Error per sample without a `type` key and one per key of
any other sample that is not a wire key of the schema, `type` among them: the schema must itself
declare `json:"type"`. `validate_event_counts` compares the enum's set with the set the loader
built, in which a sample without a `type` key stands as `''`.
-/

namespace EventSystemAudit

/-- The Error of `validate_bruno_payloads` for a key `k` of file `name` that is not a wire key. -/
def keyError (name k : String) : String :=
  if k = "event_type" then errorMark ++ name ++ ": Uses 'event_type' instead of 'type'"
  else if k = "guid" then
    errorMark ++ name ++ ": Ambiguous 'guid' field (should be player_guid, attacker_guid, or victim_guid)"
  else errorMark ++ name ++ ": Unknown field '" ++ k ++ "' (not in Go struct)"

def missingTypeError (name : String) : String := errorMark ++ name ++ ": Missing required 'type' field"

theorem payloadErrors_eq (F : List (String × GoStructField)) (ev : BrunoEvent) :
    payloadErrors F ev =
      if hasKey ev.payload "type" then
        (ev.payload.filter fun kv => !hasKey F kv.1).map fun kv => keyError ev.fileName kv.1
      else [missingTypeError ev.fileName] := by
  unfold payloadErrors
  split
  · next h => simp only [Bool.not_eq_true'] at h; simp [h, missingTypeError]
  · next h =>
    simp only [Bool.not_eq_true', Bool.not_eq_false] at h
    simp only [h, if_true]
    induction ev.payload with
    | nil => rfl
    | cons kv kvs ih =>
      simp only [List.filterMap_cons, List.filter_cons, ih]
      by_cases hk : hasKey F kv.1 <;> simp [hk, keyError]
      split_ifs <;> simp_all

theorem payloadErrors_nil_iff {F : List (String × GoStructField)} {ev : BrunoEvent} :
    payloadErrors F ev = [] ↔
      hasKey ev.payload "type" = true ∧ ∀ kv ∈ ev.payload, hasKey F kv.1 = true := by
  rw [payloadErrors_eq]
  split <;> simp [*]

theorem validateBrunoPayloads_clean {a : Auditor} (h0 : (validateBrunoPayloads a).results.failed = 0) :
    a.results.failed = 0 ∧ ∀ ev ∈ a.brunoEvents,
      hasKey ev.payload "type" = true ∧ ∀ kv ∈ ev.payload, hasKey a.goFields kv.1 = true := by
  have hf : (validateBrunoPayloads a).results.failed =
      a.results.failed + (a.brunoEvents.flatMap (payloadErrors a.goFields)).length := by
    unfold validateBrunoPayloads; dsimp only; split <;> simp
  rw [hf, Nat.add_eq_zero, List.length_eq_zero, List.flatMap_eq_nil_iff] at h0
  exact ⟨h0.1, fun ev hev => payloadErrors_nil_iff.1 (h0.2 ev hev)⟩

/-- For every schema `F` and every corpus: one Error per sample without `type`, and for the other
    samples one per key, `type` included, that is not a wire key of `F`; nothing else, and the
    pass exactly when there is no Error. -/
theorem validateBrunoPayloads_exact (a : Auditor) :
    let errs := a.brunoEvents.flatMap fun ev =>
      if hasKey ev.payload "type" then
        (ev.payload.filter fun kv => !hasKey a.goFields kv.1).map fun kv => keyError ev.fileName kv.1
      else [missingTypeError ev.fileName]
    (validateBrunoPayloads a).results =
      { a.results with
        errors := a.results.errors ++ errs
        failed := a.results.failed + errs.length
        passed := a.results.passed + if errs = [] then 1 else 0 } := by
  intro errs
  have herrs : a.brunoEvents.flatMap (payloadErrors a.goFields) = errs :=
    congrArg a.brunoEvents.flatMap (funext (payloadErrors_eq a.goFields))
  unfold validateBrunoPayloads
  simp only [herrs, ValidationResult.addErrors_eq]
  cases errs <;> simp [ValidationResult.addPass]

/-- A schema without a `json:"type"` field: the `type` key of a sample is an unknown field. -/
theorem payloads_type_key_unknown :
    let a : Auditor := { Auditor.init with brunoEvents := [⟨"A.bru", [("type", .str "x")]⟩] }
    (validateBrunoPayloads a).results.errors = [errorMark ++ "A.bru: Unknown field 'type' (not in Go struct)"] ∧
      (validateBrunoPayloads a).results.passed = 0 := by
  decide

theorem sortable_of_strings {l : List PyKey} (h : ∀ k ∈ l, k.kind = .str) : Sortable l :=
  List.pairwise_of_forall_mem_list fun x hx y hy => by simp [h x hx, h y hy]

/-- For every canonical set `G` of strings and every corpus `S` as the loader leaves it, with
    `O` the set of `payload.get('type', '')` over `S`: one Error per type of `G \ O`, one per type
    of `O \ G`, the count Error exactly when `|G|`, `|O|` or `|S|` is not 105, and nothing else,
    whenever the types of `O \ G` can be sorted. -/
theorem validateEventCounts_exact (a : Auditor)
    (hG : ∀ k ∈ a.eventTypesGo.elems, k.kind = .str)
    (hT : a.eventTypesBruno = PySet.ofKeys (a.brunoEvents.filterMap fun ev => ev.eventType.toKey?))
    (hsort : Sortable (a.eventTypesBruno.diff a.eventTypesGo).elems) :
    let O := PySet.ofKeys (a.brunoEvents.filterMap fun ev => ev.eventType.toKey?)
    let G := a.eventTypesGo
    ∃ missing extra : List PyKey, missing.Perm (G.diff O).elems ∧ extra.Perm (O.diff G).elems ∧
      validateEventCounts a = .ok { a with
        results := (if G.card = expectedCount ∧ O.card = expectedCount ∧
            a.brunoEvents.length = expectedCount
          then a.results.addPass
          else a.results.addError (countMismatch G.card O.card a.brunoEvents.length)).addErrors
          (missing.map missingInBruno ++ extra.map extraInBruno) } := by
  intro O G
  rcases a with ⟨F, S, G', T, r⟩
  simp only at hT hG hsort G O ⊢
  subst hT
  have hmiss : Sortable (G.diff O).elems :=
    sortable_of_strings fun k hk => hG k (List.mem_of_mem_filter hk)
  obtain ⟨missing, hm⟩ := (pySorted_ok_iff _).2 hmiss
  obtain ⟨extra, he⟩ := (pySorted_ok_iff _).2 hsort
  refine ⟨missing, extra, pySorted_perm hm, pySorted_perm he, ?_⟩
  simp [validateEventCounts, G, O, hm, he]

/-- A state with the enum's `"x"` and one sample without `type`, as the loader leaves it. -/
def untypedSampleState : Auditor :=
  ⟨[], [⟨"A.bru", []⟩], .ofStrings ["x"], .ofKeys [.str ""], .empty⟩

theorem validateEventCounts_exact_untyped :
    (∀ k ∈ untypedSampleState.eventTypesGo.elems, k.kind = .str) ∧
    untypedSampleState.eventTypesBruno =
      PySet.ofKeys (untypedSampleState.brunoEvents.filterMap fun ev => ev.eventType.toKey?) ∧
    Sortable (untypedSampleState.eventTypesBruno.diff untypedSampleState.eventTypesGo).elems ∧
    let a := untypedSampleState
    let O := PySet.ofKeys (a.brunoEvents.filterMap fun ev => ev.eventType.toKey?)
    let G := a.eventTypesGo
    ∃ missing extra : List PyKey, missing.Perm (G.diff O).elems ∧ extra.Perm (O.diff G).elems ∧
      validateEventCounts a = .ok { a with
        results := (if G.card = expectedCount ∧ O.card = expectedCount ∧
            a.brunoEvents.length = expectedCount
          then a.results.addPass
          else a.results.addError (countMismatch G.card O.card a.brunoEvents.length)).addErrors
          (missing.map missingInBruno ++ extra.map extraInBruno) } :=
  ⟨by decide, rfl, by decide, validateEventCounts_exact untypedSampleState (by decide) rfl (by decide)⟩

/-- The sample without a `type` key is counted as type `''`, which the enum lacks. -/
theorem counts_untyped_sample_as_empty :
    ∃ a', validateEventCounts untypedSampleState = .ok a' ∧
      extraInBruno (.str "") ∈ a'.results.errors :=
  ⟨_, rfl, by decide⟩

end EventSystemAudit

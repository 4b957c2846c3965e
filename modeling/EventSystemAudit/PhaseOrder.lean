import EventSystemAudit.StepOrder
import EventSystemAudit.CanonicalCorpus

set_option autoImplicit false

/-!
# The order of the phases

`run_audit` runs its three extraction steps and its three validation steps in one fixed order,
and `parse_bruno_files` reads the files in sorted order. Any other order of the extraction steps,
then any order of the validation steps, gives the same outcome up to the order of the issues:
an extraction step raises whatever the state, or changes only its own part of the auditor and
appends Errors; a validation step adds to the results what it reads off the rest of the auditor,
and `validate_guid_fields`, the one step that reads the warning counter, is the only one that
writes it. The order of the files matters only through the set of types: of two values Python
finds equal, such as `1` and `True`, the set keeps the first one added, and the messages name it.
-/

namespace EventSystemAudit

/-! ## Auditors alike up to order -/

/-- Results with the same counters and the same issues, in some order. -/
structure ResultsEquiv (r r' : ValidationResult) : Prop where
  passed : r.passed = r'.passed
  failed : r.failed = r'.failed
  warnings : r.warnings = r'.warnings
  errors : r.errors.Perm r'.errors

/-- Auditors that differ only in the order of their samples, of their sets' elements and of
    their issues. -/
structure AuditEquiv (a b : Auditor) : Prop where
  goFields : a.goFields = b.goFields
  brunoEvents : a.brunoEvents.Perm b.brunoEvents
  eventTypesGo : a.eventTypesGo.elems.Perm b.eventTypesGo.elems
  eventTypesBruno : a.eventTypesBruno.elems.Perm b.eventTypesBruno.elems
  results : ResultsEquiv a.results b.results

theorem ResultsEquiv.equivalence : Equivalence ResultsEquiv :=
  ⟨fun _ => ⟨rfl, rfl, rfl, .refl _⟩, fun h => ⟨h.1.symm, h.2.symm, h.3.symm, h.4.symm⟩,
    fun h h' => ⟨h.1.trans h'.1, h.2.trans h'.2, h.3.trans h'.3, h.4.trans h'.4⟩⟩

theorem AuditEquiv.equivalence : Equivalence AuditEquiv :=
  ⟨fun _ => ⟨rfl, .refl _, .refl _, .refl _, ResultsEquiv.equivalence.refl _⟩,
    fun h => ⟨h.1.symm, h.2.symm, h.3.symm, h.4.symm, ResultsEquiv.equivalence.symm h.5⟩,
    fun h h' => ⟨h.1.trans h'.1, h.2.trans h'.2, h.3.trans h'.3, h.4.trans h'.4,
      ResultsEquiv.equivalence.trans h.5 h'.5⟩⟩

/-- What a step adds to the results: passes, Errors, warnings and the issue texts. -/
structure Delta where
  passed : ℕ
  failed : ℕ
  warnings : ℕ
  msgs : List String

def ValidationResult.plus (r : ValidationResult) (d : Delta) : ValidationResult :=
  ⟨r.passed + d.passed, r.failed + d.failed, r.warnings + d.warnings, r.errors ++ d.msgs⟩

@[simp] theorem ValidationResult.plus_warnings (r : ValidationResult) (d : Delta) :
    (r.plus d).warnings = r.warnings + d.warnings := rfl

def Delta.Equiv (d d' : Delta) : Prop :=
  d.passed = d'.passed ∧ d.failed = d'.failed ∧ d.warnings = d'.warnings ∧ d.msgs.Perm d'.msgs

theorem ResultsEquiv.plus {r r' : ValidationResult} (h : ResultsEquiv r r') {d d' : Delta}
    (hd : d.Equiv d') : ResultsEquiv (r.plus d) (r'.plus d') :=
  ⟨by simp [ValidationResult.plus, h.1, hd.1], by simp [ValidationResult.plus, h.2, hd.2.1],
    by simp [ValidationResult.plus, h.3, hd.2.2.1], h.4.append hd.2.2.2⟩

theorem ResultsEquiv.plus_comm (r : ValidationResult) (d d' : Delta) :
    ResultsEquiv ((r.plus d).plus d') ((r.plus d').plus d) :=
  ⟨by simp [ValidationResult.plus]; omega, by simp [ValidationResult.plus]; omega,
    by simp [ValidationResult.plus]; omega,
    by simpa [ValidationResult.plus] using List.perm_append_comm.append_left r.errors⟩

theorem ValidationResult.addErrors_plus (r : ValidationResult) (ms : List String) :
    r.addErrors ms = r.plus ⟨0, ms.length, 0, ms⟩ := by
  rw [ValidationResult.addErrors_eq]; rfl

theorem ResultsEquiv.addErrors {r r' : ValidationResult} (h : ResultsEquiv r r') {ms ms' : List String}
    (hm : ms.Perm ms') : ResultsEquiv (r.addErrors ms) (r'.addErrors ms') := by
  rw [ValidationResult.addErrors_plus, ValidationResult.addErrors_plus]
  exact h.plus ⟨rfl, hm.length_eq, rfl, hm⟩

/-- `a` with `d` added to its results. -/
def Auditor.addDelta (a : Auditor) (d : Delta) : Auditor := { a with results := a.results.plus d }

theorem AuditEquiv.addDelta {a b : Auditor} (h : AuditEquiv a b) {d d' : Delta} (hd : d.Equiv d') :
    AuditEquiv (a.addDelta d) (b.addDelta d') :=
  ⟨h.1, h.2, h.3, h.4, h.5.plus hd⟩

/-! ## Sets alike up to order -/

theorem PySet.mem_eq_of_perm {s t : PySet} (h : s.elems.Perm t.elems) (k : PyKey) : s.mem k = t.mem k :=
  Bool.eq_iff_iff.2 (by simp only [PySet.mem, List.any_eq_true]; exact
    ⟨fun ⟨x, hx, e⟩ => ⟨x, h.mem_iff.1 hx, e⟩, fun ⟨x, hx, e⟩ => ⟨x, h.mem_iff.2 hx, e⟩⟩)

theorem PySet.insert_perm {s t : PySet} (h : s.elems.Perm t.elems) (k : PyKey) :
    (s.insert k).elems.Perm (t.insert k).elems := by
  rw [PySet.insert_elems, PySet.insert_elems, PySet.mem_eq_of_perm h]
  split
  · exact h
  · exact h.append_right _

theorem PySet.foldl_insert_perm {s t : PySet} (h : s.elems.Perm t.elems) (ks : List PyKey) :
    (ks.foldl PySet.insert s).elems.Perm (ks.foldl PySet.insert t).elems := by
  induction ks generalizing s t with
  | nil => exact h
  | cons k ks ih => exact ih (PySet.insert_perm h k)

theorem PySet.diff_perm {s s' t t' : PySet} (hs : s.elems.Perm s'.elems) (ht : t.elems.Perm t'.elems) :
    (s.diff t).elems.Perm (s'.diff t').elems := by
  simp only [PySet.diff, PySet.mem_eq_of_perm ht]
  exact hs.filter _

theorem PySet.insert_insert_perm {j k : PyKey} (hn : j.norm ≠ k.norm) (s : PySet) :
    ((s.insert k).insert j).elems.Perm ((s.insert j).insert k).elems := by
  have hjk : (s.insert k).mem j = s.mem j := Bool.eq_iff_iff.2 (by rw [PySet.mem_insert]; simp [hn])
  have hkj : (s.insert j).mem k = s.mem k :=
    Bool.eq_iff_iff.2 (by rw [PySet.mem_insert]; simp [Ne.symm hn])
  rw [PySet.insert_elems, hjk, PySet.insert_elems, PySet.insert_elems (s.insert j), hkj, PySet.insert_elems]
  cases s.mem j <;> cases s.mem k <;> simp
  exact (List.Perm.swap j k []).append_left _

theorem PySet.foldl_insert_perm_of_perm {ks ks' : List PyKey} (hp : ks.Perm ks')
    (hd : ∀ j ∈ ks, ∀ k ∈ ks, j.norm = k.norm → j = k) (s : PySet) :
    (ks.foldl PySet.insert s).elems.Perm (ks'.foldl PySet.insert s).elems := by
  induction hp generalizing s with
  | nil => exact .refl _
  | cons k _ ih => exact ih (fun i hi j hj => hd i (.tail _ hi) j (.tail _ hj)) _
  | swap j k l =>
    refine PySet.foldl_insert_perm ?_ l
    by_cases hn : j.norm = k.norm
    · rw [hd j (.tail _ (.head _)) k (.head _) hn]
    · exact PySet.insert_insert_perm hn s
  | trans h₁ _ ih₁ ih₂ =>
    exact (ih₁ hd s).trans (ih₂ (fun i hi j hj => hd i (h₁.mem_iff.2 hi) j (h₁.mem_iff.2 hj)) s)

theorem pySorted_congr {l l' : List PyKey} (h : l.Perm l') : OutcomeRel List.Perm (pySorted l) (pySorted l') := by
  have hs := sortable_iff_of_perm (h.map PyKey.kind)
  rcases hl : pySorted l with _ | m <;> rcases hl' : pySorted l' with _ | m'
  · exact .error _ _
  · exact absurd ((pySorted_ok_iff l).2 (hs.2 ((pySorted_ok_iff l').1 ⟨m', hl'⟩))) (by simp [hl])
  · exact absurd ((pySorted_ok_iff l').2 (hs.1 ((pySorted_ok_iff l).1 ⟨m, hl⟩))) (by simp [hl'])
  · exact .ok ((pySorted_perm hl).trans (h.trans (pySorted_perm hl').symm))

/-! ## The phases -/

/-- The six phases of `run_audit`. -/
inductive Phase where
  | goStruct
  | eventTypesEnum
  | brunoFiles
  | brunoPayloads
  | guidFields
  | eventCounts
  deriving DecidableEq

def extractionPhases : List Phase := [.goStruct, .eventTypesEnum, .brunoFiles]

def validationPhases : List Phase := [.brunoPayloads, .guidFields, .eventCounts]

/-- An order in which `parse_bruno_files` could visit the `.bru` files of a directory. -/
structure FileOrder where
  order : List BruEntry → List BruEntry
  perm : ∀ entries, (order entries).Perm (bruFiles entries)

/-- The order of `sorted`. -/
def FileOrder.sorted : FileOrder := ⟨bruFiles, fun _ => .refl _⟩

section
variable (rt : Runtime) (repo : Repo) (o : FileOrder)

def runPhase : Phase → Auditor → Except PyException Auditor
  | .goStruct => parseGoStruct rt repo
  | .eventTypesEnum => parseEventTypesEnum rt repo
  | .brunoFiles => parseBrunoFilesBy rt o.order repo
  | .brunoPayloads => fun a => .ok (validateBrunoPayloads a)
  | .guidFields => validateGuidFields
  | .eventCounts => validateEventCounts

def runPhases (ps : List Phase) : Auditor → Except PyException Auditor := runSteps (ps.map (runPhase rt repo o))

theorem runAudit_eq_runPhases (a : Auditor) :
    runAudit rt repo a = runPhases rt repo .sorted (extractionPhases ++ validationPhases) a := by
  simp only [runAudit, runPhases, runSteps, extractionPhases, validationPhases, List.cons_append,
    List.nil_append, List.map_cons, List.map_nil, List.foldlM_cons, List.foldlM_nil, bind_pure, ok_bind]
  rfl

end

/-! ## Extraction phases -/

/-- What an extraction step does when it returns: it rewrites the schema, adds types to either
    set, appends samples and records Errors. -/
structure Effect where
  goFields : List (String × GoStructField) → List (String × GoStructField)
  goTypes : List PyKey
  events : List BrunoEvent
  brunoTypes : List PyKey
  errors : List String

def Effect.apply (e : Effect) (a : Auditor) : Auditor :=
  ⟨e.goFields a.goFields, a.brunoEvents ++ e.events, e.goTypes.foldl PySet.insert a.eventTypesGo,
    e.brunoTypes.foldl PySet.insert a.eventTypesBruno, a.results.addErrors e.errors⟩

def Effect.ofError (m : String) : Effect := ⟨id, [], [], [], [m]⟩

theorem Effect.ofError_apply (m : String) (a : Auditor) : (Effect.ofError m).apply a = a.addError m := by
  simp [Effect.apply, Effect.ofError, Auditor.addError]

theorem Effect.apply_equiv {e e' : Effect} (hg : e.goFields = e'.goFields) (ht : e.goTypes = e'.goTypes)
    (hev : e.events.Perm e'.events)
    (hb : ∀ s s' : PySet, s.elems.Perm s'.elems →
      (e.brunoTypes.foldl PySet.insert s).elems.Perm (e'.brunoTypes.foldl PySet.insert s').elems)
    (he : e.errors.Perm e'.errors) {a b : Auditor} (h : AuditEquiv a b) :
    AuditEquiv (e.apply a) (e'.apply b) :=
  ⟨by simp only [Effect.apply, hg, h.1], h.2.append hev,
    by simp only [Effect.apply, ht]; exact PySet.foldl_insert_perm h.3 _, hb _ _ h.4, h.5.addErrors he⟩

theorem Effect.apply_congr (e : Effect) {a b : Auditor} (h : AuditEquiv a b) :
    AuditEquiv (e.apply a) (e.apply b) :=
  Effect.apply_equiv rfl rfl (.refl _) (fun _ _ hs => PySet.foldl_insert_perm hs _) (.refl _) h

/-- The parts of the auditor only phase `p` may write: the schema, the Go types, the Bruno types. -/
def Effect.Within (p : Phase) (e : Effect) : Prop :=
  (p ≠ .goStruct → e.goFields = id) ∧ (p ≠ .eventTypesEnum → e.goTypes = []) ∧
    (p ≠ .brunoFiles → e.brunoTypes = [])

theorem Effect.ofError_within (p : Phase) (m : String) : (Effect.ofError m).Within p :=
  ⟨fun _ => rfl, fun _ => rfl, fun _ => rfl⟩

theorem Effect.apply_comm {p q : Phase} (hpq : p ≠ q) {e₁ e₂ : Effect} (h₁ : e₁.Within p)
    (h₂ : e₂.Within q) (a : Auditor) : AuditEquiv (e₂.apply (e₁.apply a)) (e₁.apply (e₂.apply a)) := by
  have hsets : ∀ {xs ys : List PyKey}, xs = [] ∨ ys = [] → ∀ s : PySet,
      (ys.foldl PySet.insert (xs.foldl PySet.insert s)).elems.Perm
        (xs.foldl PySet.insert (ys.foldl PySet.insert s)).elems := by
    rintro xs ys (rfl | rfl) s <;> exact .refl _
  refine ⟨?_, ?_, hsets ?_ _, hsets ?_ _, ?_⟩
  · rcases hpq.ne_or_ne .goStruct with hp | hq
    · simp [Effect.apply, h₁.1 hp]
    · simp [Effect.apply, h₂.1 hq]
  · simpa only [Effect.apply, List.append_assoc] using List.perm_append_comm.append_left a.brunoEvents
  · exact (hpq.ne_or_ne .eventTypesEnum).imp h₁.2.1 h₂.2.1
  · exact (hpq.ne_or_ne .brunoFiles).imp h₁.2.2 h₂.2.2
  · simp only [Effect.apply, ← ValidationResult.addErrors_append]
    exact (ResultsEquiv.equivalence.refl _).addErrors List.perm_append_comm

/-- An extraction phase: it raises from every state, or applies one effect within its part. -/
def Extraction (p : Phase) (f : Auditor → Except PyException Auditor) : Prop :=
  (∃ ex, ∀ a, f a = .error ex) ∨ ∃ e : Effect, e.Within p ∧ ∀ a, f a = .ok (e.apply a)

theorem Extraction.congruent {p : Phase} {f : Auditor → Except PyException Auditor}
    (hf : Extraction p f) : Congruent AuditEquiv f := by
  intro a b h
  rcases hf with ⟨ex, hf⟩ | ⟨e, -, hf⟩
  · rw [hf, hf]; exact .error _ _
  · rw [hf, hf]; exact .ok (e.apply_congr h)

theorem Extraction.commute {p q : Phase} (hpq : p ≠ q) {f g : Auditor → Except PyException Auditor}
    (hf : Extraction p f) (hg : Extraction q g) : Commute AuditEquiv f g := by
  intro a
  rcases hf with ⟨ex, hf⟩ | ⟨e₁, h₁, hf⟩ <;> rcases hg with ⟨ex', hg⟩ | ⟨e₂, h₂, hg⟩ <;>
    simp only [hf, hg, ok_bind, error_bind]
  all_goals first | exact .error _ _ | exact .ok (Effect.apply_comm hpq h₁ h₂ a)

section
variable {rt : Runtime} {repo : Repo}

theorem extraction_goStruct : Extraction .goStruct (parseGoStruct rt repo) := by
  rcases hg : repo.eventsGo with _ | msg | raw
  · exact .inr ⟨.ofError _, Effect.ofError_within _ _, fun a => by
      simp only [parseGoStruct, hg]; rw [Effect.ofError_apply]⟩
  · exact .inl ⟨.os msg, fun _ => by simp only [parseGoStruct, hg]⟩
  · rcases hs : search structPattern (universalNewlines raw.toList) with _ | m
    · exact .inr ⟨.ofError _, Effect.ofError_within _ _, fun a => by
        simp only [parseGoStruct, hg, hs]; rw [Effect.ofError_apply]⟩
    · refine .inr ⟨⟨fieldsOfBody rt (m.groups.getD 0 ""), [], [], [], []⟩,
        ⟨fun h => absurd rfl h, fun _ => rfl, fun _ => rfl⟩, fun a => ?_⟩
      simp only [parseGoStruct, hg, hs, Effect.apply, List.append_nil, List.foldl_nil,
        ValidationResult.addErrors_nil]

theorem extraction_eventTypesEnum : Extraction .eventTypesEnum (parseEventTypesEnum rt repo) := by
  rcases hg : repo.eventTypesGenerated with _ | msg | raw
  · exact .inr ⟨.ofError _, Effect.ofError_within _ _, fun a => by
      simp only [parseEventTypesEnum, hg]; rw [Effect.ofError_apply]⟩
  · exact .inl ⟨.os msg, fun _ => by simp only [parseEventTypesEnum, hg]⟩
  · refine .inr ⟨⟨id, (findAll (constPattern rt) (universalNewlines raw.toList)).map
      fun m => PyKey.str (m.groups.getD 0 ""), [], [], []⟩,
      ⟨fun _ => rfl, fun h => absurd rfl h, fun _ => rfl⟩, fun a => ?_⟩
    simp only [parseEventTypesEnum, hg, Effect.apply, typesOfEnum_eq, List.append_nil, List.foldl_nil,
      ValidationResult.addErrors_nil, id]

def FileLoad.effect (ls : List FileLoad) : Effect :=
  ⟨id, [], FileLoad.events ls, (FileLoad.events ls).filterMap (·.eventType.toKey?), ls.flatMap (·.errors)⟩

theorem foldl_apply_effect (a : Auditor) (ls : List FileLoad) :
    ls.foldl FileLoad.apply a = (FileLoad.effect ls).apply a := by
  rw [foldl_apply, foldl_insertVal]; rfl

theorem extraction_brunoFiles (order : List BruEntry → List BruEntry) :
    Extraction .brunoFiles (parseBrunoFilesBy rt order repo) := by
  rcases hd : repo.brunoEventsDir with _ | entries
  · exact .inr ⟨.ofError _, Effect.ofError_within _ _, fun a => by
      simp only [parseBrunoFilesBy, hd]; rw [Effect.ofError_apply]⟩
  · rcases hm : (order entries).mapM (fileLoad rt) with ex | ls
    · exact .inl ⟨ex, fun _ => by simp only [parseBrunoFilesBy, hd, loadBruFiles_eq, hm, error_map]⟩
    · exact .inr ⟨FileLoad.effect ls, ⟨fun _ => rfl, fun _ => rfl, fun h => absurd rfl h⟩,
        fun a => by simp only [parseBrunoFilesBy, hd, loadBruFiles_eq, hm, ok_map, foldl_apply_effect]⟩

end

/-! ## Validation phases -/

def addingStep (D : Auditor → Except PyException Delta) (a : Auditor) : Except PyException Auditor :=
  (D a).map a.addDelta

/-- What a validation step reads: it gives alike deltas on alike auditors, and reads none of the
    results but the warning counter. -/
structure Validation (D : Auditor → Except PyException Delta) : Prop where
  congr : ∀ a b, AuditEquiv a b → OutcomeRel Delta.Equiv (D a) (D b)
  blind : ∀ a d, d.warnings = 0 → D (a.addDelta d) = D a

structure Validation.Quiet (D : Auditor → Except PyException Delta) : Prop where
  blind : ∀ a d, D (a.addDelta d) = D a
  noWarnings : ∀ a d, D a = .ok d → d.warnings = 0

theorem Validation.congruent {D : Auditor → Except PyException Delta} (hD : Validation D) :
    Congruent AuditEquiv (addingStep D) :=
  fun a b h => (hD.congr a b h).map fun _ _ hd => h.addDelta hd

theorem Validation.commute {D E : Auditor → Except PyException Delta} (hD : Validation D)
    (hE : Validation E) (hq : Validation.Quiet D ∨ Validation.Quiet E) :
    Commute AuditEquiv (addingStep D) (addingStep E) := by
  have hDE : ∀ a d, E a = .ok d → D (a.addDelta d) = D a := fun a d he =>
    hq.elim (fun q => q.blind a d) (fun q => hD.blind a d (q.noWarnings a d he))
  have hED : ∀ a d, D a = .ok d → E (a.addDelta d) = E a := fun a d hd =>
    hq.elim (fun q => hE.blind a d (q.noWarnings a d hd)) (fun q => q.blind a d)
  intro a
  unfold addingStep
  rcases hd : D a with ex | d <;> rcases he : E a with ex' | d'
  · exact .error _ _
  · simp only [error_map, error_bind, ok_map, ok_bind, hDE a d' he, hd]; exact .error _ _
  · simp only [error_map, error_bind, ok_map, ok_bind, hED a d hd, he]; exact .error _ _
  · simp only [ok_map, ok_bind, hDE a d' he, hED a d hd, hd, he]
    exact .ok ⟨rfl, .refl _, .refl _, .refl _, ResultsEquiv.plus_comm _ _ _⟩

/-- What `validate_bruno_payloads` adds: its Errors, and its pass when there are none. -/
def payloadDelta (F : List (String × GoStructField)) (evs : List BrunoEvent) : Delta :=
  let errs := evs.flatMap (payloadErrors F)
  ⟨if errs.isEmpty then 1 else 0, errs.length, 0, errs⟩

def brunoPayloadsDelta (a : Auditor) : Except PyException Delta := .ok (payloadDelta a.goFields a.brunoEvents)

theorem validateBrunoPayloads_addDelta (a : Auditor) :
    validateBrunoPayloads a = a.addDelta (payloadDelta a.goFields a.brunoEvents) := by
  simp only [validateBrunoPayloads, payloadDelta, Auditor.addDelta]
  split <;> simp_all [ValidationResult.addErrors_eq, ValidationResult.addPass, ValidationResult.plus]

theorem validation_brunoPayloads : Validation brunoPayloadsDelta ∧ Validation.Quiet brunoPayloadsDelta := by
  refine ⟨⟨fun a b h => ?_, fun _ _ _ => rfl⟩, ⟨fun _ _ => rfl, fun a d hd => by cases hd; rfl⟩⟩
  have hp : (a.brunoEvents.flatMap (payloadErrors a.goFields)).Perm
      (b.brunoEvents.flatMap (payloadErrors b.goFields)) := h.1 ▸ h.2.flatMap_right _
  refine .ok ⟨?_, hp.length_eq, rfl, hp⟩
  simp only [payloadDelta, List.isEmpty_iff_length_eq_zero, hp.length_eq]

/-- The text a finding of `validate_guid_fields` records. -/
def Finding.text : Finding → String
  | .error m => m
  | .warning m => warningMark ++ m

/-- What the findings `fs` of `validate_guid_fields` add to results holding `w` warnings. -/
def guidDelta (evs : List BrunoEvent) (w : ℕ) (fs : List Finding) : Delta :=
  let warned := fs.countP fun f => !f.isError
  ⟨if !(evs.any fun ev => hasKey ev.payload "guid") && w + warned == 0 then 1 else 0,
    fs.countP Finding.isError, warned, fs.map Finding.text⟩

def guidFieldsDelta (a : Auditor) : Except PyException Delta :=
  (a.brunoEvents.mapM guidFindings).map fun fs => guidDelta a.brunoEvents a.results.warnings fs.flatten

theorem foldl_record_plus (fs : List Finding) (r : ValidationResult) :
    fs.foldl Finding.record r =
      r.plus ⟨0, fs.countP Finding.isError, fs.countP (fun f => !f.isError), fs.map Finding.text⟩ := by
  induction fs generalizing r with
  | nil => simp [ValidationResult.plus]
  | cons f fs ih =>
    rw [List.foldl_cons, ih]
    cases f <;> simp [Finding.record, ValidationResult.addError, ValidationResult.addWarning,
      ValidationResult.plus, List.countP_cons, Finding.isError, Finding.text] <;> omega

theorem validateGuidFields_addDelta (a : Auditor) :
    validateGuidFields a = addingStep guidFieldsDelta a := by
  unfold validateGuidFields addingStep guidFieldsDelta
  rcases a.brunoEvents.mapM guidFindings with ex | fs
  · rfl
  · simp only [ok_bind, ok_map, foldl_record_plus, guidDelta, Auditor.addDelta]
    split <;> simp_all [ValidationResult.addPass, ValidationResult.plus]

theorem any_eq_of_perm {α : Type} {l l' : List α} (h : l.Perm l') (p : α → Bool) : l.any p = l'.any p :=
  Bool.eq_iff_iff.2 (by simp only [List.any_eq_true, h.mem_iff])

theorem validation_guidFields : Validation guidFieldsDelta := by
  refine ⟨fun a b h => ?_, fun a d hd => ?_⟩
  · refine (mapM_perm guidFindings h.2).map fun fs fs' hfs => ?_
    have hf := hfs.flatten
    refine ⟨?_, hf.countP_eq _, hf.countP_eq _, hf.map _⟩
    simp only [guidDelta, any_eq_of_perm h.2, h.5.3, hf.countP_eq]
  · simp [guidFieldsDelta, Auditor.addDelta, hd]

/-- The Errors of the two set differences of `validate_event_counts`, each sorted. -/
def countIssues (a : Auditor) : Except PyException (List String) := do
  let missing ← pySorted (a.eventTypesGo.diff a.eventTypesBruno).elems
  let extra ← pySorted (a.eventTypesBruno.diff a.eventTypesGo).elems
  return missing.map missingInBruno ++ extra.map extraInBruno

/-- What `validate_event_counts` adds: the count check, then the Errors `ms`. -/
def countDelta (a : Auditor) (ms : List String) : Delta :=
  if a.eventTypesGo.card = expectedCount ∧ a.eventTypesBruno.card = expectedCount ∧
      a.brunoEvents.length = expectedCount
  then ⟨1, ms.length, 0, ms⟩
  else ⟨0, ms.length + 1, 0, countMismatch a.eventTypesGo.card a.eventTypesBruno.card a.brunoEvents.length :: ms⟩

def eventCountsDelta (a : Auditor) : Except PyException Delta := (countIssues a).map (countDelta a)

theorem validateEventCounts_addDelta (a : Auditor) :
    validateEventCounts a = addingStep eventCountsDelta a := by
  unfold validateEventCounts addingStep eventCountsDelta countIssues
  rcases pySorted (a.eventTypesGo.diff a.eventTypesBruno).elems with ex | missing
  · rfl
  rcases pySorted (a.eventTypesBruno.diff a.eventTypesGo).elems with ex | extra
  · rfl
  simp only [ok_bind, except_pure, ok_map, countDelta, Auditor.addDelta]
  split <;> simp [ValidationResult.addErrors_eq, ValidationResult.addPass, ValidationResult.addError,
    ValidationResult.plus] <;> omega

theorem validation_eventCounts : Validation eventCountsDelta ∧ Validation.Quiet eventCountsDelta := by
  refine ⟨⟨fun a b h => ?_, fun _ _ _ => rfl⟩, ⟨fun _ _ => rfl, fun a d hd => ?_⟩⟩
  · have hi : OutcomeRel List.Perm (countIssues a) (countIssues b) :=
      (pySorted_congr (PySet.diff_perm h.3 h.4)).bind fun m m' hm =>
        (pySorted_congr (PySet.diff_perm h.4 h.3)).bind fun x x' hx =>
          .ok ((hm.map _).append (hx.map _))
    refine hi.map fun ms ms' hms => ?_
    have hG : a.eventTypesGo.card = b.eventTypesGo.card := h.3.length_eq
    have hB : a.eventTypesBruno.card = b.eventTypesBruno.card := h.4.length_eq
    simp only [countDelta, hG, hB, h.2.length_eq]
    split
    · exact ⟨rfl, hms.length_eq, rfl, hms⟩
    · exact ⟨rfl, by rw [hms.length_eq], rfl, hms.cons _⟩
  · rcases hc : countIssues a with ex | ms <;> rw [eventCountsDelta, hc] at hd
    · cases hd
    · cases hd; unfold countDelta; split <;> rfl

/-! ## Every order of the phases -/

section
variable (rt : Runtime) (repo : Repo)

theorem runPhase_extraction (o : FileOrder) {p : Phase} (hp : p ∈ extractionPhases) :
    Extraction p (runPhase rt repo o p) := by
  simp only [extractionPhases, List.mem_cons, List.mem_singleton, List.not_mem_nil, or_false] at hp
  rcases hp with rfl | rfl | rfl
  · exact extraction_goStruct
  · exact extraction_eventTypesEnum
  · exact extraction_brunoFiles o.order

theorem runPhase_validation (o : FileOrder) {p : Phase} (hp : p ∈ validationPhases) :
    ∃ D, runPhase rt repo o p = addingStep D ∧ Validation D ∧ (p ≠ .guidFields → Validation.Quiet D) := by
  simp only [validationPhases, List.mem_cons, List.mem_singleton, List.not_mem_nil, or_false] at hp
  rcases hp with rfl | rfl | rfl
  · exact ⟨brunoPayloadsDelta, funext fun a => congrArg Except.ok (validateBrunoPayloads_addDelta a),
      validation_brunoPayloads.1, fun _ => validation_brunoPayloads.2⟩
  · exact ⟨guidFieldsDelta, funext validateGuidFields_addDelta, validation_guidFields, fun h => absurd rfl h⟩
  · exact ⟨eventCountsDelta, funext validateEventCounts_addDelta, validation_eventCounts.1,
      fun _ => validation_eventCounts.2⟩

theorem runPhase_congruent (o : FileOrder) (p : Phase) : Congruent AuditEquiv (runPhase rt repo o p) := by
  by_cases hp : p ∈ extractionPhases
  · exact (runPhase_extraction rt repo o hp).congruent
  · have hv : p ∈ validationPhases := by cases p <;> simp_all [extractionPhases, validationPhases]
    obtain ⟨D, hD, hv, -⟩ := runPhase_validation rt repo o hv
    rw [hD]; exact hv.congruent

/-- Phases run in two orders of one list, each phase commuting with the others there. -/
theorem runPhases_perm (o : FileOrder) {ps ps' : List Phase} (hp : ps.Perm ps')
    (hcomm : ∀ p ∈ ps, ∀ q ∈ ps, Commute AuditEquiv (runPhase rt repo o p) (runPhase rt repo o q))
    (a : Auditor) : OutcomeRel AuditEquiv (runPhases rt repo o ps a) (runPhases rt repo o ps' a) :=
  runSteps_perm AuditEquiv.equivalence (hp.map _) (by simp [runPhase_congruent rt repo])
    (by simpa using hcomm) a

theorem extraction_commute (o : FileOrder) {p q : Phase} (hp : p ∈ extractionPhases)
    (hq : q ∈ extractionPhases) : Commute AuditEquiv (runPhase rt repo o p) (runPhase rt repo o q) := by
  by_cases hpq : p = q
  · subst hpq; exact Commute.self AuditEquiv.equivalence _
  · exact (runPhase_extraction rt repo o hp).commute hpq (runPhase_extraction rt repo o hq)

theorem validation_commute (o : FileOrder) {p q : Phase} (hp : p ∈ validationPhases)
    (hq : q ∈ validationPhases) : Commute AuditEquiv (runPhase rt repo o p) (runPhase rt repo o q) := by
  by_cases hpq : p = q
  · subst hpq; exact Commute.self AuditEquiv.equivalence _
  obtain ⟨D, hD, hvD, hqD⟩ := runPhase_validation rt repo o hp
  obtain ⟨E, hE, hvE, hqE⟩ := runPhase_validation rt repo o hq
  rw [hD, hE]
  refine hvD.commute hvE ?_
  by_cases hg : p = .guidFields
  · exact .inr (hqE (hg ▸ Ne.symm hpq))
  · exact .inl (hqD hg)

theorem runPhases_phase_orders (o : FileOrder) {ext val : List Phase} (hext : ext.Perm extractionPhases)
    (hval : val.Perm validationPhases) (a : Auditor) :
    OutcomeRel AuditEquiv (runPhases rt repo o (ext ++ val) a)
      (runPhases rt repo o (extractionPhases ++ validationPhases) a) := by
  simp only [runPhases, List.map_append, runSteps_append]
  have hx := runPhases_perm rt repo o hext
    (fun p hp q hq => extraction_commute rt repo o (hext.subset hp) (hext.subset hq)) a
  have hv := fun b => runPhases_perm rt repo o hval
    (fun p hp q hq => validation_commute rt repo o (hval.subset hp) (hval.subset hq)) b
  exact (hx.bind (runSteps_congruent (by simp [runPhase_congruent rt repo]))).trans AuditEquiv.equivalence
    (OutcomeRel.bind_right _ hv)

end

/-! ## Every order of the files -/

/-- No two samples of the directory have types that Python finds equal without their being the
    same value, as `1` and `True` are. -/
def TypesDistinct (rt : Runtime) (repo : Repo) : Prop :=
  ∀ entries, repo.brunoEventsDir = some entries → ∀ e₁ ∈ bruFiles entries, ∀ e₂ ∈ bruFiles entries,
    ∀ ev₁ ev₂, SampleOf rt e₁ ev₁ → SampleOf rt e₂ ev₂ → ∀ k₁ k₂, ev₁.eventType.toKey? = some k₁ →
      ev₂.eventType.toKey? = some k₂ → k₁.norm = k₂.norm → k₁ = k₂

theorem mem_bruFiles {e : BruEntry} {entries : List BruEntry} (h : e ∈ bruFiles entries) : e ∈ entries :=
  List.mem_of_mem_filter ((List.perm_insertionSort _ _).subset h)

theorem mapM_ok_mem_image {α β ε : Type} {f : α → Except ε β} {xs : List α} {ys : List β}
    (h : xs.mapM f = .ok ys) {y : β} (hy : y ∈ ys) : ∃ x ∈ xs, f x = .ok y := by
  induction xs generalizing ys with
  | nil => cases h; cases hy
  | cons x xs ih =>
    obtain ⟨y', ys', hy', hys, rfl⟩ := mapM_cons_ok h
    rcases List.mem_cons.1 hy with rfl | hy
    · exact ⟨x, .head _, hy'⟩
    · obtain ⟨z, hz, hfz⟩ := ih hys hy
      exact ⟨z, .tail _ hz, hfz⟩

section
variable {rt : Runtime}

theorem SampleOf.payload_eq {e : BruEntry} {ev ev' : BrunoEvent} (h : SampleOf rt e ev)
    (h' : SampleOf rt e ev') : ev.payload = ev'.payload := by
  obtain ⟨-, raw, t, hr, hb, hj⟩ := h
  obtain ⟨-, raw', t', hr', hb', hj'⟩ := h'
  obtain rfl : raw = raw' := Except.ok.inj (hr.symm.trans hr')
  obtain rfl : t = t' := Option.some.inj (hb.symm.trans hb')
  exact PyVal.dict.inj (Except.ok.inj (hj.symm.trans hj'))

theorem fileLoad_event {e : BruEntry} {l : FileLoad} {ev : BrunoEvent} (h : fileLoad rt e = .ok l)
    (hl : l.event? = some ev) : SampleOf rt e ev := by
  unfold fileLoad at h
  rcases hp : parseBruFile rt e .empty with ex | ⟨_ | ev', r⟩ <;> simp only [hp] at h
  · split at h
    · cases h; cases hl
    · cases h
  · cases h; cases hl
  · split at h <;> (cases h; exact Option.some.inj hl ▸ (parseBruFile_some hp).2)

theorem mapM_fileLoad_sample {files : List BruEntry} {ls : List FileLoad}
    (h : files.mapM (fileLoad rt) = .ok ls) {ev : BrunoEvent} (hev : ev ∈ FileLoad.events ls) :
    ∃ e ∈ files, SampleOf rt e ev := by
  obtain ⟨l, hl, hle⟩ := List.mem_filterMap.1 hev
  obtain ⟨e, he, hfe⟩ := mapM_ok_mem_image h hl
  exact ⟨e, he, fileLoad_event hfe hle⟩

end

section
variable (rt : Runtime) (repo : Repo)

theorem parseBrunoFilesBy_related (hd : TypesDistinct rt repo) (o : FileOrder) :
    Related AuditEquiv (parseBrunoFilesBy rt o.order repo) (parseBrunoFilesBy rt bruFiles repo) := by
  intro a b h
  rcases hdir : repo.brunoEventsDir with _ | entries
  · simp only [parseBrunoFilesBy, hdir, ← Effect.ofError_apply]
    exact .ok ((Effect.ofError _).apply_congr h)
  · have hp := mapM_perm (fileLoad rt) (o.perm entries)
    simp only [parseBrunoFilesBy, hdir, loadBruFiles_eq]
    rcases hx : (o.order entries).mapM (fileLoad rt) with ex | ls <;>
      rcases hy : (bruFiles entries).mapM (fileLoad rt) with ex' | ls' <;> rw [hx, hy] at hp
    · exact .error _ _
    · cases hp
    · cases hp
    · refine .ok ?_
      cases hp with | ok hp => ?_
      show AuditEquiv (ls.foldl FileLoad.apply a) (ls'.foldl FileLoad.apply b)
      rw [foldl_apply_effect, foldl_apply_effect]
      have hev : (FileLoad.events ls).Perm (FileLoad.events ls') := hp.filterMap _
      refine @Effect.apply_equiv (FileLoad.effect ls) (FileLoad.effect ls') rfl rfl hev (fun s s' hs => ?_)
        (hp.flatMap_right _) _ _ h
      refine (PySet.foldl_insert_perm hs _).trans (PySet.foldl_insert_perm_of_perm (hev.filterMap _) ?_ s')
      intro j hj k hk hn
      obtain ⟨ev₁, hev₁, hk₁⟩ := List.mem_filterMap.1 hj
      obtain ⟨ev₂, hev₂, hk₂⟩ := List.mem_filterMap.1 hk
      obtain ⟨e₁, he₁, hs₁⟩ := mapM_fileLoad_sample hx hev₁
      obtain ⟨e₂, he₂, hs₂⟩ := mapM_fileLoad_sample hx hev₂
      exact hd entries hdir e₁ ((o.perm entries).subset he₁) e₂ ((o.perm entries).subset he₂) ev₁ ev₂
        hs₁ hs₂ j k hk₁ hk₂ hn

theorem runPhase_related (o : FileOrder) (hd : TypesDistinct rt repo ∨ o.order = bruFiles) (p : Phase) :
    Related AuditEquiv (runPhase rt repo o p) (runPhase rt repo .sorted p) := by
  cases p
  case brunoFiles =>
    rcases hd with hd | ho
    · exact parseBrunoFilesBy_related rt repo hd o
    · show Related AuditEquiv (parseBrunoFilesBy rt o.order repo) (parseBrunoFilesBy rt bruFiles repo)
      rw [ho]; exact (extraction_brunoFiles bruFiles).congruent
  all_goals exact runPhase_congruent rt repo o _

theorem runPhases_fileOrder (o : FileOrder) (hd : TypesDistinct rt repo ∨ o.order = bruFiles) (ps : List Phase) :
    Related AuditEquiv (runPhases rt repo o ps) (runPhases rt repo .sorted ps) :=
  runSteps_related (List.forall₂_map_left_iff.2 (List.forall₂_map_right_iff.2
    (List.forall₂_same.2 fun p _ => runPhase_related rt repo o hd p)))

/-- Any order of the extraction phases, with the files in any order, then any order of the
    validation phases: from every state, `run_audit`'s outcome up to the order of samples, set
    elements and issues, when no two samples' types are equal without being the same value or
    the files are visited in sorted order. -/
theorem runPhases_equiv_runAudit (o : FileOrder) (hd : TypesDistinct rt repo ∨ o.order = bruFiles)
    {ext val : List Phase} (hext : ext.Perm extractionPhases) (hval : val.Perm validationPhases) (a : Auditor) :
    OutcomeRel AuditEquiv (runPhases rt repo o (ext ++ val) a) (runAudit rt repo a) := by
  rw [runAudit_eq_runPhases]
  exact (runPhases_phase_orders rt repo o hext hval a).trans AuditEquiv.equivalence
    (runPhases_fileOrder rt repo o hd _ a a (AuditEquiv.equivalence.refl a))

end

def FileOrder.reversed : FileOrder := ⟨fun entries => (bruFiles entries).reverse, fun _ => List.reverse_perm _⟩

theorem canonicalRepo_typesDistinct : TypesDistinct asciiRuntime canonicalRepo := by
  have hstr : ∀ e ∈ canonicalTypes.map corpusEntry, ∀ ev k, SampleOf asciiRuntime e ev →
      ev.eventType.toKey? = some k → k.kind = .str := by
    intro e he ev k hs hk
    obtain ⟨t, ht, rfl⟩ := List.mem_map.1 he
    have hp := hs.payload_eq (sampleOf_corpusEntry (by decide) (canonicalTypes_plain t ht))
    simp [BrunoEvent.eventType, hp, corpusSample, PyVal.toKey?] at hk
    subst hk; rfl
  intro entries hdir e₁ he₁ _ _ ev₁ _ hs₁ _ k₁ _ hk₁ _ hn
  cases hdir
  exact PyKey.eq_of_norm_eq (hstr e₁ (mem_bruFiles he₁) ev₁ k₁ hs₁ hk₁) hn

theorem canonicalRepo_reversed_phases :
    TypesDistinct asciiRuntime canonicalRepo ∧
      [Phase.brunoFiles, .goStruct, .eventTypesEnum].Perm extractionPhases ∧
      [Phase.eventCounts, .guidFields, .brunoPayloads].Perm validationPhases ∧
      OutcomeRel AuditEquiv (runPhases asciiRuntime canonicalRepo .reversed
        ([.brunoFiles, .goStruct, .eventTypesEnum] ++ [.eventCounts, .guidFields, .brunoPayloads]) .init)
        (runAudit asciiRuntime canonicalRepo .init) :=
  ⟨canonicalRepo_typesDistinct, by decide, by decide,
    runPhases_equiv_runAudit _ _ _ (.inl canonicalRepo_typesDistinct) (by decide) (by decide) _⟩

/-- Two files whose samples are typed `1` and `true`, which Python finds equal. -/
def oneTrueRepo : Repo :=
  ⟨".", .missing, .missing, some [⟨"A.bru", .ok "body:json \x7b\n  \x7b\"type\": 1\x7d\n\x7d\n"⟩,
    ⟨"B.bru", .ok "body:json \x7b\n  \x7b\"type\": true\x7d\n\x7d\n"⟩]⟩

/-- Visited the other way round, the set keeps `True` instead of `1`, and the last Error names it. -/
theorem oneTrueRepo_reversed_messages :
    ∃ a₁ a₂, runAudit asciiRuntime oneTrueRepo .init = .ok a₁ ∧
      runPhases asciiRuntime oneTrueRepo .reversed (extractionPhases ++ validationPhases) .init = .ok a₂ ∧
      extraInBruno (.int 1) ∈ a₁.results.errors ∧ extraInBruno (.bool true) ∈ a₂.results.errors ∧
      ¬ a₁.results.errors.Perm a₂.results.errors :=
  ⟨_, _, rfl, rfl, by decide, by decide, by decide⟩

end EventSystemAudit

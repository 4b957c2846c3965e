import EventSystemAudit.AuditorExtract
import EventSystemAudit.PythonSetLaws
import EventSystemAudit.RegexLaws
import EventSystemAudit.TextLaws

set_option autoImplicit false

/-!
# Laws of the corpus loader

What one `.bru` file contributes to the auditor depends on that file alone: a sample or none, and
the Errors recorded for it (`fileLoad`). The loop of `parse_bruno_files` is the composition of
these contributions, so the event-type set it builds is always the set of the hashable types of
the samples it keeps.
-/

namespace EventSystemAudit

/-- `s.add(v)` where a failure to hash is caught: nothing is added. -/
def PySet.insertVal (s : PySet) (v : PyVal) : PySet :=
  match v.toKey? with
  | some k => s.insert k
  | none => s

/-- The text of the Error of a caught exception. -/
def failedToParse (name : String) (ex : PyException) : String :=
  "Failed to parse " ++ name ++ ": " ++ ex.str

/-- `e` has a `body:json` block. -/
def hasBody (e : BruEntry) : Bool :=
  match e.content with
  | .ok raw => (bodyText? raw).isSome
  | .error _ => false

/-- `ev` is the sample of `e`: the body of `e` decodes to the object `ev.payload`. -/
def SampleOf (rt : Runtime) (e : BruEntry) (ev : BrunoEvent) : Prop :=
  ev.fileName = e.name ∧
    ∃ raw t, e.content = .ok raw ∧ bodyText? raw = some t ∧ jsonLoads rt t = .ok (.dict ev.payload)

/-- What one file contributes: the sample kept, and the Errors recorded. -/
structure FileLoad where
  event? : Option BrunoEvent
  errors : List String

/-- The body the loader reads from a file whose first `body:json` block holds `inner`: nothing
    in front of the block starts one, no line of `inner` starts with `\x7d`, and the file has no
    carriage return. -/
theorem bodyText?_block {raw : String} {pre inner post : List Char}
    (hraw : raw.toList = pre ++ bodyOpen ++ inner ++ '\n' :: '\x7d' :: post) (hcr : '\r' ∉ raw.toList)
    (hpre : ∀ i < pre.length, ¬ List.IsPrefix bodyOpen (pre.drop i ++ bodyOpen))
    (hin : ¬ List.IsInfix ['\n', '\x7d'] inner) : bodyText? raw = some (strip inner) := by
  have e : raw.toList = pre ++ "body:json \x7b".toList ++ (inner ++ '\n' :: '\x7d' :: post) := by
    rw [hraw, bodyOpen]; simp only [List.append_assoc]
  rw [bodyText?, bodyPattern, universalNewlines_of_not_mem hcr, e, search_blockPattern_after _ hpre,
    ← List.append_assoc, search_blockPattern _ hin post]
  rfl

theorem bodyText?_line {raw : String} {pre J post : List Char}
    (hraw : raw.toList = pre ++ bodyOpen ++ ('\n' :: ' ' :: ' ' :: J) ++ '\n' :: '\x7d' :: post)
    (hcr : '\r' ∉ raw.toList) (hpre : ∀ i < pre.length, ¬ List.IsPrefix bodyOpen (pre.drop i ++ bodyOpen))
    (hnl : '\n' ∉ J) (hh : J.head?.all (fun c => !isSpace c)) (hl : J.getLast?.all (fun c => !isSpace c)) :
    bodyText? raw = some J := by
  have hin : ¬ List.IsInfix ['\n', '\x7d'] ('\n' :: ' ' :: ' ' :: J) := by
    simp only [List.infix_cons_iff, List.cons_prefix_cons, not_or]
    exact ⟨by simp, by simp, by simp, fun h => hnl (h.subset (by simp))⟩
  rw [bodyText?_block hraw hcr hpre hin]
  exact congrArg some (@strip_append ['\n', ' ', ' '] J (by decide) hh hl)

section
variable (rt : Runtime)

/-- The contribution of one file, read off `parse_bru_file` and the loop body. -/
def fileLoad (e : BruEntry) : Except PyException FileLoad :=
  match parseBruFile rt e .empty with
  | .error ex => if ex.isException then .ok ⟨none, [failedToParse e.name ex]⟩ else .error ex
  | .ok (none, r) => .ok ⟨none, r.errors⟩
  | .ok (some ev, _) =>
    match ev.eventType.toKey? with
    | some _ => .ok ⟨some ev, []⟩
    | none => .ok ⟨some ev, [failedToParse e.name (.unhashable ev.eventType.typeName)]⟩

end

def FileLoad.apply (a : Auditor) (l : FileLoad) : Auditor :=
  { a with
    brunoEvents := a.brunoEvents ++ l.event?.toList
    eventTypesBruno := match l.event? with
      | some ev => a.eventTypesBruno.insertVal ev.eventType
      | none => a.eventTypesBruno
    results := a.results.addErrors l.errors }

section
variable {rt : Runtime}

theorem parseBruFile_eq (e : BruEntry) (r : ValidationResult) :
    parseBruFile rt e r = (parseBruFile rt e .empty).map fun p => (p.1, r.addErrors p.2.errors) := by
  unfold parseBruFile
  split
  · rfl
  · split
    · simp [ValidationResult.empty]
    · split
      · simp [ValidationResult.addError, ValidationResult.empty]
      · rfl
      · cases eventOfPayload _ _ <;> simp [ValidationResult.empty]

theorem parseBruFile_some {e : BruEntry} {r r' : ValidationResult} {ev : BrunoEvent}
    (h : parseBruFile rt e r = .ok (some ev, r')) : r' = r ∧ SampleOf rt e ev := by
  unfold parseBruFile at h
  split at h
  · cases h
  · next raw hraw =>
    split at h
    · cases h
    · next t ht =>
      split at h
      · cases h
      · cases h
      · next v hv =>
        unfold eventOfPayload at h
        split at h
        · cases h
          exact ⟨rfl, rfl, raw, t, hraw, ht, hv⟩
        · cases h

theorem parseBruFile_none {e : BruEntry} {r r' : ValidationResult}
    (h : parseBruFile rt e r = .ok (none, r')) : (hasBody e = false ∧ r' = r) ∨ ∃ m, r' = r.addError m := by
  unfold parseBruFile at h
  split at h
  · cases h
  · next raw hraw =>
    split at h
    · next ht => cases h; exact .inl ⟨by simp [hasBody, hraw, ht], rfl⟩
    · split at h
      · cases h; exact .inr ⟨_, rfl⟩
      · cases h
      · next v _ => cases hv : eventOfPayload e.name v <;> simp [hv] at h

theorem loadBruFile_eq (a : Auditor) (e : BruEntry) :
    loadBruFile rt a e = (fileLoad rt e).map (FileLoad.apply a) := by
  unfold loadBruFile fileLoad
  rw [parseBruFile_eq]
  rcases h : parseBruFile rt e .empty with ex | ⟨_ | ev, r⟩
  · simp only [error_map, recordFailure]
    split <;> simp [FileLoad.apply, Auditor.addError, failedToParse]
  · simp [FileLoad.apply]
  · have hr := (parseBruFile_some h).1
    subst hr
    cases hk : ev.eventType.toKey? <;>
      simp [PySet.add, hk, recordFailure, PyException.isException, FileLoad.apply,
        Auditor.addError, failedToParse, PySet.insertVal]

theorem loadBruFiles_eq (a : Auditor) (files : List BruEntry) :
    loadBruFiles rt a files = (files.mapM (fileLoad rt)).map fun ls => ls.foldl FileLoad.apply a := by
  induction files generalizing a with
  | nil => rfl
  | cons e files ih =>
    simp only [loadBruFiles, List.foldlM_cons, List.mapM_cons] at *
    rw [loadBruFile_eq]
    cases fileLoad rt e with
    | error ex => rfl
    | ok l =>
      simp only [ok_map, ok_bind, ih]
      cases files.mapM (fileLoad rt) <;> rfl

end

def FileLoad.events (ls : List FileLoad) : List BrunoEvent := ls.filterMap (·.event?)

theorem foldl_apply (a : Auditor) (ls : List FileLoad) :
    ls.foldl FileLoad.apply a =
      { a with
        brunoEvents := a.brunoEvents ++ FileLoad.events ls
        eventTypesBruno := (FileLoad.events ls).foldl (fun s ev => s.insertVal ev.eventType)
          a.eventTypesBruno
        results := a.results.addErrors (ls.flatMap (·.errors)) } := by
  induction ls generalizing a with
  | nil => simp [FileLoad.events]
  | cons l ls ih =>
    rw [List.foldl_cons, ih]
    rcases l with ⟨_ | ev, errs⟩ <;> simp [FileLoad.apply, FileLoad.events, List.filterMap_cons]

theorem foldl_insertVal (evs : List BrunoEvent) (s : PySet) :
    evs.foldl (fun s ev => s.insertVal ev.eventType) s =
      (evs.filterMap fun ev => ev.eventType.toKey?).foldl PySet.insert s := by
  induction evs generalizing s with
  | nil => rfl
  | cons ev evs ih =>
    rw [List.foldl_cons, ih, List.filterMap_cons]
    unfold PySet.insertVal
    cases ev.eventType.toKey? <;> rfl

/-- The event-type set of a fresh loader run is the set of the hashable types of the samples it
    keeps, in every case, an unhashable type included. -/
theorem loadBruFiles_types {rt : Runtime} {a a' : Auditor} {files : List BruEntry}
    (h : loadBruFiles rt a files = .ok a') (hev : a.brunoEvents = []) (hty : a.eventTypesBruno = .empty) :
    a'.eventTypesBruno = PySet.ofKeys (a'.brunoEvents.filterMap fun ev => ev.eventType.toKey?) := by
  rw [loadBruFiles_eq] at h
  rcases hm : files.mapM (fileLoad rt) with ex | ls <;> rw [hm] at h
  · cases h
  · cases h
    simp [foldl_apply, hev, hty, foldl_insertVal, PySet.ofKeys]

section
variable {rt : Runtime}

theorem parseBruFile_dict {e : BruEntry} {raw : String} {t : List Char} {p : List (String × PyVal)}
    (r : ValidationResult) (hraw : e.content = .ok raw) (hb : bodyText? raw = some t)
    (hj : jsonLoads rt t = .ok (.dict p)) : parseBruFile rt e r = .ok (some ⟨e.name, p⟩, r) := by
  simp [parseBruFile, hraw, hb, hj, eventOfPayload]

theorem fileLoad_unhashable {e : BruEntry} {raw : String} {t : List Char} {p : List (String × PyVal)}
    (hraw : e.content = .ok raw) (hb : bodyText? raw = some t) (hj : jsonLoads rt t = .ok (.dict p))
    (hk : (BrunoEvent.eventType ⟨e.name, p⟩).toKey? = none) :
    fileLoad rt e = .ok ⟨some ⟨e.name, p⟩,
      [failedToParse e.name (.unhashable (BrunoEvent.eventType ⟨e.name, p⟩).typeName)]⟩ := by
  simp [fileLoad, parseBruFile_dict _ hraw hb hj, hk]

/-- A body whose `type` cannot be hashed: the sample is appended before `set.add` raises, and the
    loop records the Error, so the file leaves an Error and a sample whose type is not in the set. -/
theorem loadBruFile_unhashable_type {a : Auditor} {e : BruEntry} {raw : String} {t : List Char}
    {p : List (String × PyVal)} (hraw : e.content = .ok raw) (hb : bodyText? raw = some t)
    (hj : jsonLoads rt t = .ok (.dict p)) (hk : (BrunoEvent.eventType ⟨e.name, p⟩).toKey? = none) :
    loadBruFile rt a e = .ok { a with
      brunoEvents := a.brunoEvents ++ [⟨e.name, p⟩]
      results := a.results.addError
        (failedToParse e.name (.unhashable (BrunoEvent.eventType ⟨e.name, p⟩).typeName)) } := by
  rw [loadBruFile_eq, fileLoad_unhashable hraw hb hj hk]
  simp [FileLoad.apply, PySet.insertVal, hk]

/-- A file whose body is `{"type": []}`. -/
def listTypedFile : BruEntry := ⟨"A.bru", .ok "body:json \x7b\n  \x7b\"type\": []\x7d\n\x7d\n"⟩

theorem loadBruFile_list_typed :
    loadBruFile asciiRuntime .init listTypedFile = .ok { Auditor.init with
      brunoEvents := [⟨"A.bru", [("type", .list [])]⟩]
      results := ValidationResult.empty.addError "Failed to parse A.bru: unhashable type: 'list'" } :=
  loadBruFile_unhashable_type rfl rfl rfl rfl

theorem fileLoad_clean {e : BruEntry} {l : FileLoad} (h : fileLoad rt e = .ok l) (hl : l.errors = []) :
    (hasBody e = false ∧ l.event? = none) ∨
      ∃ ev, l.event? = some ev ∧ SampleOf rt e ev ∧ ev.eventType.toKey?.isSome := by
  unfold fileLoad at h
  rcases hp : parseBruFile rt e .empty with ex | ⟨_ | ev, r⟩ <;> simp only [hp] at h
  · split at h
    · simp only [Except.ok.injEq] at h; subst h; cases hl
    · cases h
  · simp only [Except.ok.injEq] at h; subst h
    rcases parseBruFile_none hp with ⟨hb, rfl⟩ | ⟨m, rfl⟩
    · exact .inl ⟨hb, rfl⟩
    · simp [ValidationResult.addError] at hl
  · cases hk : ev.eventType.toKey? <;> simp only [hk, Except.ok.injEq] at h <;> subst h
    · cases hl
    · exact .inr ⟨ev, rfl, (parseBruFile_some hp).2, by simp [hk]⟩

theorem mapM_fileLoad_clean {files : List BruEntry} {ls : List FileLoad}
    (h : files.mapM (fileLoad rt) = .ok ls) (hl : ∀ l ∈ ls, l.errors = []) :
    List.Forall₂ (SampleOf rt) (files.filter hasBody) (FileLoad.events ls) ∧
      ∀ ev ∈ FileLoad.events ls, ev.eventType.toKey?.isSome := by
  induction files generalizing ls with
  | nil => cases h; exact ⟨.nil, by simp [FileLoad.events]⟩
  | cons e files ih =>
    obtain ⟨l, ls', he, hs, rfl⟩ := mapM_cons_ok h
    obtain ⟨hf, hk⟩ := ih hs fun l hl' => hl l (.tail _ hl')
    rcases fileLoad_clean he (hl l (.head _)) with ⟨hb, hnone⟩ | ⟨ev, hsome, hsample, hkey⟩
    · simpa [FileLoad.events, List.filterMap_cons, hnone, hb] using And.intro hf hk
    · have hb : hasBody e = true := by
        obtain ⟨-, raw, t, hraw, ht, -⟩ := hsample
        simp [hasBody, hraw, ht]
      simp only [FileLoad.events, List.filterMap_cons, hsome, List.filter_cons, hb, if_true,
        List.mem_cons, forall_eq_or_imp] at hf hk ⊢
      exact ⟨.cons hsample hf, hkey, hk⟩

end

end EventSystemAudit

import EventSystemAudit.CollectionPlan

set_option autoImplicit false

/-!
# Running the collection generator again

`create_bruno_collection` writes into a folder that already holds the collection it wrote the last
time. Its operations are fixed by the document alone, and on the file system each one makes a
folder with `exist_ok=True` and writes one file. A `mkdir` or a write that returns never turns a
directory into a file or a file into a directory, so every folder and every file the first run
went through is still there, of the same kind, when it ends. A second run over that tree meets
each folder as a directory and each file as a file, so every step of the first run can be taken
again: the second run returns, lists the same `created_files`, counts the same `folder_stats`, and
leaves every path as the first run left it.
-/

namespace EventSystemAudit

namespace Node

def isDir : Node → Bool
  | .dir => true
  | .file _ => false

end Node

namespace FileSystem

variable (rt : Runtime)

/-- Whether `p` is a directory (`some true`), a file (`some false`), or absent. -/
def kind? (fs : FileSystem) (p : PosixPath) : Option Bool := (fs.node? p).map Node.isDir

/-- `fs'` has every directory of `fs` as a directory and every file of `fs` as a file, whatever
    the files hold. -/
def Grows (fs fs' : FileSystem) : Prop := ∀ p k, fs.kind? p = some k → fs'.kind? p = some k

theorem Grows.refl (fs : FileSystem) : Grows fs fs := fun _ _ => id

theorem Grows.trans {fs₁ fs₂ fs₃ : FileSystem} (h₁ : Grows fs₁ fs₂) (h₂ : Grows fs₂ fs₃) : Grows fs₁ fs₃ :=
  fun p k h => h₂ p k (h₁ p k h)

theorem node?_set_ne (fs : FileSystem) {p q : PosixPath} (hq : q.resolve ≠ p.resolve) (n : Node) :
    (fs.set p n).node? q = fs.node? q := by
  rw [node?_set, if_neg hq]
  split_ifs with h
  · exact (node?_of_top fs h).symm
  · rfl

theorem node?_set_self (fs : FileSystem) {p : PosixPath} (hp : p.top = false) (n : Node) :
    (fs.set p n).node? p = some n := by
  rw [node?_set, if_neg (by simp [hp]), if_pos rfl]

theorem kind?_of_top (fs : FileSystem) {p : PosixPath} (h : p.top = true) : fs.kind? p = some true := by
  rw [kind?, node?_of_top fs h]; rfl

theorem kind?_congr (fs : FileSystem) {p q : PosixPath} (h : p.resolve = q.resolve) : fs.kind? p = fs.kind? q := by
  rw [kind?, kind?, node?_congr fs h]

theorem top_eq_false_of_kind? {fs : FileSystem} {p : PosixPath} (hp : fs.kind? p ≠ some true) : p.top = false :=
  Bool.eq_false_iff.2 fun h => hp (kind?_of_top fs h)

theorem kind?_eq_some_true {fs : FileSystem} {p : PosixPath} : fs.kind? p = some true ↔ fs.node? p = some .dir := by
  rw [kind?]
  rcases fs.node? p with _ | _ | c <;> simp [Node.isDir]

theorem walk_eq_none_iff {fs : FileSystem} {p : PosixPath} :
    fs.walk p = none ↔ ∀ a ∈ p.ancestors, fs.kind? a = some true := by
  rw [walk, List.findSome?_eq_none_iff]
  refine forall₂_congr fun a _ => ?_
  rw [kind?_eq_some_true]
  rcases fs.node? a with _ | _ | c <;> simp

theorem Grows.walk {fs fs' : FileSystem} (h : Grows fs fs') {p : PosixPath} (hp : fs.walk p = none) :
    fs'.walk p = none :=
  walk_eq_none_iff.2 fun a ha => h a true (walk_eq_none_iff.1 hp a ha)

theorem grows_set_file {fs : FileSystem} {p : PosixPath} (hp : fs.kind? p ≠ some true) (c : String) :
    Grows fs (fs.set p (.file c)) := fun q k hq => by
  by_cases hqp : q.resolve = p.resolve
  · rw [kind?_congr fs hqp] at hq
    cases k
    · rw [kind?_congr _ hqp, kind?, node?_set_self fs (top_eq_false_of_kind? hp)]; rfl
    · exact absurd hq hp
  · rwa [kind?, node?_set_ne fs hqp]

variable {rt}

theorem mkdir_ok_kinds {fs fs' : FileSystem} {p : PosixPath} (h : fs.mkdir rt p = .ok fs') :
    fs.walk p = none ∧ fs'.kind? p = some true ∧ Grows fs fs' := by
  unfold mkdir at h
  split at h
  · cases h
  · next hw =>
    split at h
    · next hn => cases h; exact ⟨hw, kind?_eq_some_true.2 hn, Grows.refl fs⟩
    · cases h
    · next hn =>
      cases h
      refine ⟨hw, ?_, fun q k hq => ?_⟩
      · cases hp : p.top
        · rw [kind?_eq_some_true, node?_set_self fs hp]
        · exact kind?_of_top _ hp
      · by_cases hqp : q.resolve = p.resolve
        · simp [kind?, node?_congr fs hqp, hn] at hq
        · rwa [kind?, node?_set_ne fs hqp]

theorem write_ok_kinds {fs fs' : FileSystem} {p : PosixPath} {c : String} (h : fs.write rt p c = .ok fs') :
    fs.walk p = none ∧ fs.kind? p ≠ some true ∧ fs' = fs.set p (.file c) := by
  unfold write at h
  split at h
  · cases h
  · next hw =>
    split at h
    · cases h
    · next hn => exact ⟨hw, fun e => hn (kind?_eq_some_true.1 e), (Except.ok.inj h).symm⟩

theorem mkdir_of_dir {fs : FileSystem} {p : PosixPath} (hw : fs.walk p = none) (hd : fs.kind? p = some true) :
    fs.mkdir rt p = .ok fs := by
  simp [mkdir, hw, kind?_eq_some_true.1 hd]

theorem write_of_not_dir {fs : FileSystem} {p : PosixPath} (hw : fs.walk p = none) (hd : fs.kind? p ≠ some true)
    (c : String) : fs.write rt p c = .ok (fs.set p (.file c)) := by
  unfold write
  rw [hw]
  dsimp only
  split
  · next e => exact absurd (kind?_eq_some_true.2 e) hd
  · rfl

theorem mkdirParentsRev_ok_kinds (root : String) : ∀ (rparts : List String) {fs fs' : FileSystem},
    mkdirParentsRev rt root rparts fs = .ok fs' →
      fs'.walk ⟨root, rparts.reverse⟩ = none ∧ fs'.kind? ⟨root, rparts.reverse⟩ = some true
  | [], _, _, h =>
    let ⟨hw, hk, hg⟩ := mkdir_ok_kinds h
    ⟨hg.walk hw, hk⟩
  | part :: rparts, fs, fs', h => by
    simp only [mkdirParentsRev] at h
    split at h
    · obtain ⟨fs₁, -, h⟩ := bind_eq_ok h
      obtain ⟨hw, hk, hg⟩ := mkdir_ok_kinds h
      exact ⟨hg.walk hw, hk⟩
    · obtain ⟨hw, hk, hg⟩ := mkdir_ok_kinds h
      exact ⟨hg.walk hw, hk⟩

theorem mkdirParentsRev_of_dir (root : String) (rparts : List String) {fs : FileSystem}
    (hw : fs.walk ⟨root, rparts.reverse⟩ = none) (hk : fs.kind? ⟨root, rparts.reverse⟩ = some true) :
    mkdirParentsRev rt root rparts fs = .ok fs := by
  cases rparts with
  | nil => exact mkdir_of_dir hw hk
  | cons part rparts =>
    simp only [mkdirParentsRev]
    rw [hw]
    exact mkdir_of_dir hw hk

theorem mkdirParents_rerun {fs fs' F : FileSystem} {p : PosixPath} (h : fs.mkdirParents rt p = .ok fs')
    (hg : Grows fs' F) : F.mkdirParents rt p = .ok F := by
  unfold mkdirParents at h ⊢
  obtain ⟨hw, hk⟩ := mkdirParentsRev_ok_kinds p.root _ h
  exact mkdirParentsRev_of_dir _ _ (hg.walk hw) (hg _ _ hk)

end FileSystem

open FileSystem

/-! ## One operation -/

section
variable {rt : Runtime} {out : PosixPath}

theorem processOperation_grows (hout : ∀ q ∈ out.parts, GoodPart q) {path : PyKey} {method : String} {spec : Yaml}
    {run run' : CollectionRun} (h : processOperation rt out path method spec run = .ok run') : Grows run.fs run'.fs := by
  obtain ⟨req, fs, fs', -, -, hd, hw, rfl⟩ := (processOperation_ok_iff hout).1 h
  obtain ⟨-, hnd, rfl⟩ := write_ok_kinds hw
  exact (mkdir_ok_kinds hd).2.2.trans (grows_set_file hnd _)

end

/-! ## The second run against the first -/

/-- A second run of the loops against the first at the same point, the first one ending with the
    file system `F`: the same `created_files` and `folder_stats`; at each entry written so far the
    first run's file, and at every other path what the first run leaves at its end. -/
structure Replays (out : PosixPath) (F : FileSystem) (run₁ run₂ : CollectionRun) : Prop where
  created : run₂.createdFiles = run₁.createdFiles
  stats : run₂.folderStats = run₁.folderStats
  files : ∀ e ∈ run₁.createdFiles, ∃ c, run₁.fs.node? (out.join e) = some (.file c)
  written : ∀ e ∈ run₁.createdFiles, run₂.fs.node? (out.join e) = run₁.fs.node? (out.join e)
  rest : ∀ p, (∀ e ∈ run₁.createdFiles, p.resolve ≠ (out.join e).resolve) → run₂.fs.node? p = F.node? p

section
variable {rt : Runtime} {out : PosixPath} {F : FileSystem} {run₁ run₂ run₁' : CollectionRun}

theorem Replays.sameKinds (hi : Replays out F run₁ run₂) (hF : Grows run₁.fs F) (p : PosixPath) :
    run₂.fs.kind? p = F.kind? p := by
  by_cases hp : ∃ e ∈ run₁.createdFiles, p.resolve = (out.join e).resolve
  · obtain ⟨e, he, hpe⟩ := hp
    rw [kind?_congr _ hpe, kind?_congr _ hpe]
    obtain ⟨c, hc⟩ := hi.files e he
    have h₁ : run₁.fs.kind? (out.join e) = some false := by rw [kind?, hc]; rfl
    rw [kind?, hi.written e he, ← kind?, h₁, hF _ _ h₁]
  · push_neg at hp
    rw [kind?, hi.rest p hp]; rfl

theorem processOperation_replay (hout : ∀ q ∈ out.parts, GoodPart q) (hi : Replays out F run₁ run₂)
    {path : PyKey} {method : String} {spec : Yaml} (h : processOperation rt out path method spec run₁ = .ok run₁')
    (hF : Grows run₁'.fs F) :
    ∃ run₂', processOperation rt out path method spec run₂ = .ok run₂' ∧ Replays out F run₁' run₂' := by
  obtain ⟨req, fs, fs', hreq, hrel, hd, hw, rfl⟩ := (processOperation_ok_iff hout).1 h
  obtain ⟨hwd, hdir, hg₁⟩ := mkdir_ok_kinds hd
  obtain ⟨hwf, hnd, rfl⟩ := write_ok_kinds hw
  have htop := top_eq_false_of_kind? hnd
  have hg₂ : Grows fs F := (grows_set_file hnd _).trans hF
  have hk := hi.sameKinds (hg₁.trans hg₂)
  -- the second run's `mkdir` finds the folder, and its write finds no directory
  have hd₂ : run₂.fs.mkdir rt (out.join req.tag) = .ok run₂.fs :=
    mkdir_of_dir (walk_eq_none_iff.2 fun a ha => by rw [hk]; exact (hg₁.trans hg₂) a true (walk_eq_none_iff.1 hwd a ha))
      (by rw [hk]; exact hg₂ _ true hdir)
  have hfile : (fs.set (out.join req.entry) (.file req.content)).kind? (out.join req.entry) = some false := by
    rw [kind?, node?_set_self fs htop]; rfl
  have hw₂ : run₂.fs.write rt (out.join req.entry) req.content = .ok _ :=
    write_of_not_dir (walk_eq_none_iff.2 fun a ha => by rw [hk]; exact hg₂ a true (walk_eq_none_iff.1 hwf a ha))
      (by rw [hk, hF _ _ hfile]; decide) req.content
  refine ⟨_, (processOperation_ok_iff hout).2 ⟨req, _, _, hreq, hrel, hd₂, hw₂, rfl⟩, ?_⟩
  -- an old entry at another path keeps its file through the `mkdir`
  have hold : ∀ e ∈ run₁.createdFiles, (out.join e).resolve ≠ (out.join req.entry).resolve →
      (fs.set (out.join req.entry) (.file req.content)).node? (out.join e) = run₁.fs.node? (out.join e) :=
    fun e he hne => by
      obtain ⟨c, hc⟩ := hi.files e he
      rw [node?_set_ne fs hne, hc]
      exact (mkdir_sameFiles hd _ _).2 hc
  have hnew : ∀ e ∈ run₁.createdFiles ++ [req.entry], (out.join e).resolve ≠ (out.join req.entry).resolve →
      e ∈ run₁.createdFiles := fun e he hne =>
    (List.mem_append.1 he).resolve_right fun h => hne (by rw [List.mem_singleton.1 h])
  refine ⟨by rw [hi.created], hi.stats ▸ rfl, fun e he => ?_, fun e he => ?_, fun p hp => ?_⟩
  · by_cases hne : (out.join e).resolve = (out.join req.entry).resolve
    · exact ⟨req.content, by rw [node?_congr _ hne, node?_set_self fs htop]⟩
    · rw [hold e (hnew e he hne) hne]
      exact hi.files e (hnew e he hne)
  · by_cases hne : (out.join e).resolve = (out.join req.entry).resolve
    · rw [node?_congr _ hne, node?_congr _ hne, node?_set_self fs htop, node?_set_self _ htop]
    · rw [node?_set_ne _ hne, hold e (hnew e he hne) hne, hi.written e (hnew e he hne)]
  · rw [node?_set_ne _ (hp req.entry (List.mem_append_right _ (List.mem_singleton_self _)))]
    exact hi.rest p fun e he => hp e (List.mem_append_left _ he)

theorem processMethod_grows (hout : ∀ q ∈ out.parts, GoodPart q) {path : PyKey} {entry : PyKey × Yaml}
    (h : processMethod rt out path run₁ entry = .ok run₁') : Grows run₁.fs run₁'.fs := by
  obtain ⟨k, spec⟩ := entry
  cases k
  case str method =>
    simp only [processMethod] at h
    split at h
    · exact processOperation_grows hout h
    · cases h; exact Grows.refl _
  all_goals simp [processMethod] at h

theorem processMethod_replay (hout : ∀ q ∈ out.parts, GoodPart q) (hi : Replays out F run₁ run₂) {path : PyKey}
    {entry : PyKey × Yaml} (h : processMethod rt out path run₁ entry = .ok run₁') (hF : Grows run₁'.fs F) :
    ∃ run₂', processMethod rt out path run₂ entry = .ok run₂' ∧ Replays out F run₁' run₂' := by
  obtain ⟨k, spec⟩ := entry
  cases k
  case str method =>
    simp only [processMethod] at h ⊢
    by_cases hm : httpMethods.contains (String.mk (lower rt method.toList)) = true
    · rw [if_pos hm] at h ⊢
      exact processOperation_replay hout hi h hF
    · rw [if_neg hm] at h ⊢
      cases h
      exact ⟨run₂, rfl, hi⟩
  all_goals simp [processMethod] at h

theorem processPath_grows (hout : ∀ q ∈ out.parts, GoodPart q) {entry : PyKey × Yaml}
    (h : processPath rt out run₁ entry = .ok run₁') : Grows run₁.fs run₁'.fs := by
  obtain ⟨items, -, h⟩ := bind_eq_ok h
  have step : ∀ s a s', Grows run₁.fs s.fs → processMethod rt out entry.1 s a = .ok s' → Grows run₁.fs s'.fs :=
    fun _ _ _ hs h => hs.trans (processMethod_grows hout h)
  exact foldlM_inv step items run₁ run₁' (Grows.refl _) h

theorem processPath_replay (hout : ∀ q ∈ out.parts, GoodPart q) (hi : Replays out F run₁ run₂)
    {entry : PyKey × Yaml} (h : processPath rt out run₁ entry = .ok run₁') (hF : Grows run₁'.fs F) :
    ∃ run₂', processPath rt out run₂ entry = .ok run₂' ∧ Replays out F run₁' run₂' := by
  obtain ⟨items, hitems, h⟩ := bind_eq_ok h
  have hG : ∀ s a s', processMethod rt out entry.1 s a = .ok s' → Grows s'.fs F → Grows s.fs F :=
    fun _ _ _ h hg => (processMethod_grows hout h).trans hg
  have hf : ∀ s₁ s₂ a s₁', Replays out F s₁ s₂ → processMethod rt out entry.1 s₁ a = .ok s₁' → Grows s₁'.fs F →
      ∃ s₂', processMethod rt out entry.1 s₂ a = .ok s₂' ∧ Replays out F s₁' s₂' :=
    fun _ _ _ _ hs h hg => processMethod_replay hout hs h hg
  obtain ⟨run₂', h₂, hR⟩ := (foldlM_replay hG hf items run₁ run₁' hF h).2 run₂ hi
  exact ⟨run₂', by rw [processPath, hitems, ok_bind]; exact h₂, hR⟩

end

/-- Running `create_bruno_collection` again, on the tree its first run left, returns: it lists
    the same `created_files`, counts the same `folder_stats`, and leaves every path holding what
    the first run left there. -/
theorem createBrunoCollection_rerun {rt : Runtime} {swagger : Yaml} {outputDir : String} {fs₀ : FileSystem}
    {run : CollectionRun} (h : createBrunoCollection rt swagger outputDir fs₀ = .ok run) :
    ∃ run', createBrunoCollection rt swagger outputDir run.fs = .ok run' ∧ run'.createdFiles = run.createdFiles ∧
      run'.folderStats = run.folderStats ∧ ∀ p, run'.fs.node? p = run.fs.node? p := by
  rw [createBrunoCollection] at h
  obtain ⟨basePath, h₁, h⟩ := bind_eq_ok h
  obtain ⟨paths, h₂, h⟩ := bind_eq_ok h
  obtain ⟨fs, hfs, h⟩ := bind_eq_ok h
  obtain ⟨items, hitems, h⟩ := bind_eq_ok h
  have hout := PosixPath.parse_parts_good outputDir
  have hG : ∀ s a s', processPath rt (PosixPath.parse outputDir) s a = .ok s' → Grows s'.fs run.fs →
      Grows s.fs run.fs :=
    fun _ _ _ h hg => (processPath_grows hout h).trans hg
  have hf : ∀ s₁ s₂ a s₁', Replays (PosixPath.parse outputDir) run.fs s₁ s₂ →
      processPath rt (PosixPath.parse outputDir) s₁ a = .ok s₁' → Grows s₁'.fs run.fs →
      ∃ s₂', processPath rt (PosixPath.parse outputDir) s₂ a = .ok s₂' ∧ Replays (PosixPath.parse outputDir) run.fs s₁' s₂' :=
    fun _ _ _ _ hs h hg => processPath_replay hout hs h hg
  obtain ⟨hgrow, hrep⟩ := foldlM_replay hG hf items ⟨fs, [], []⟩ run (Grows.refl _) h
  obtain ⟨run', h', hR⟩ := hrep ⟨run.fs, [], []⟩ ⟨rfl, rfl, nofun, nofun, fun _ _ => rfl⟩
  refine ⟨run', ?_, hR.created, hR.stats, fun p => ?_⟩
  · rw [createBrunoCollection, h₁, ok_bind, h₂, ok_bind]
    dsimp only
    rw [mkdirParents_rerun hfs hgrow, ok_bind, hitems, ok_bind]
    exact h'
  · by_cases hp : ∃ e ∈ run.createdFiles, p.resolve = ((PosixPath.parse outputDir).join e).resolve
    · obtain ⟨e, he, hpe⟩ := hp
      rw [node?_congr _ hpe, node?_congr _ hpe]
      exact hR.written e he
    · push_neg at hp
      exact hR.rest p hp

/-- Generating the collection of `twoTagDoc` twice. -/
theorem twoTagDoc_rerun :
    ∃ run, createBrunoCollection asciiRuntime twoTagDoc "bruno" ⟨[]⟩ = .ok run ∧
      ∃ run', createBrunoCollection asciiRuntime twoTagDoc "bruno" run.fs = .ok run' ∧
        run'.createdFiles = run.createdFiles ∧ run'.folderStats = run.folderStats ∧
        ∀ p, run'.fs.node? p = run.fs.node? p :=
  ⟨_, rfl, @createBrunoCollection_rerun asciiRuntime twoTagDoc "bruno" ⟨[]⟩ _ rfl⟩

end EventSystemAudit

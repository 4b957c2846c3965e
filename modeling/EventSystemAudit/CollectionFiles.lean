import EventSystemAudit.BrunoCollection
import EventSystemAudit.GeneratedFiles
import EventSystemAudit.GeneratorRoundTrip

set_option autoImplicit false

/-!
# The paths `create_bruno_collection` writes

Each entry of `created_files` is `str(file_path.relative_to(output_path))`. A parsed path's parts
are never empty, never `.` and hold no `/`, so printing a relative path and parsing it back gives
the path again: `output_path / entry` is the path the loop wrote. A `mkdir` that returns adds no
file, and a write puts one file at the path the written path resolves to.

A request file is named `METHOD sanitize_filename(summary or path).bru`, and `sanitize_filename`
deletes each `/` where its comment says slashes become hyphens: operations on `/a/b` and on `/ab`
without summaries share one file.
-/

namespace EventSystemAudit

/-! ## Parts and relative paths -/

theorem not_mem_of_mem_splitOn {sep : Char} {s w : List Char} (h : w ∈ splitOn sep s) : sep ∉ w := by
  induction s generalizing w with
  | nil => simp only [splitOn, List.mem_singleton] at h; simp [h]
  | cons c cs ih =>
    simp only [splitOn] at h
    split at h
    · rcases List.mem_cons.1 h with rfl | h
      · simp
      · exact ih h
    · next hc =>
      split at h
      · next w' ws e =>
        rcases List.mem_cons.1 h with rfl | h
        · exact List.not_mem_cons_of_ne_of_not_mem (Ne.symm hc) (ih (e ▸ .head _))
        · exact ih (e ▸ .tail _ h)
      · obtain rfl := List.mem_singleton.1 h
        simpa using Ne.symm hc

theorem splitOn_of_not_mem {sep : Char} {w : List Char} (hw : sep ∉ w) : splitOn sep w = [w] := by
  induction w with
  | nil => rfl
  | cons c w ih =>
    have ⟨hc, hw⟩ : sep ≠ c ∧ sep ∉ w := by simpa using hw
    simp [splitOn, Ne.symm hc, ih hw]

theorem splitOn_append_sep {sep : Char} {w : List Char} (hw : sep ∉ w) (s : List Char) :
    splitOn sep (w ++ sep :: s) = w :: splitOn sep s := by
  induction w with
  | nil => simp [splitOn]
  | cons c w ih =>
    have ⟨hc, hw⟩ : sep ≠ c ∧ sep ∉ w := by simpa using hw
    simp [splitOn, Ne.symm hc, ih hw]

theorem splitOn_join {sep : Char} {w : List Char} {ws : List (List Char)} (hw : sep ∉ w)
    (hws : ∀ v ∈ ws, sep ∉ v) : splitOn sep (w ++ (ws.map (sep :: ·)).flatten) = w :: ws := by
  induction ws generalizing w with
  | nil => simpa using splitOn_of_not_mem hw
  | cons v ws ih =>
    obtain ⟨hv, hws⟩ := List.forall_mem_cons.1 hws
    rw [List.map_cons, List.flatten_cons, List.cons_append, splitOn_append_sep hw, ih hv hws]

/-- A part of a parsed path: neither empty nor `.`, and without `/`. -/
def GoodPart (q : String) : Prop := (q.data ≠ [] ∧ q.data ≠ ['.']) ∧ '/' ∉ q.data

/-- A path with no anchor whose parts are parts of parsed paths: what `relative_to` returns. -/
def RelPath (r : PosixPath) : Prop := r.root = "" ∧ ∀ q ∈ r.parts, GoodPart q

namespace PosixPath

theorem parse_parts_good (s : String) : ∀ q ∈ (parse s).parts, GoodPart q := by
  simp only [parse, List.mem_map, List.mem_filter, decide_eq_true_eq]
  rintro _ ⟨w, ⟨hw, hne⟩, rfl⟩
  exact ⟨hne, not_mem_of_mem_splitOn hw⟩

theorem join_parts_good {p : PosixPath} (hp : ∀ q ∈ p.parts, GoodPart q) (s : String) :
    ∀ q ∈ (p.join s).parts, GoodPart q := by
  simp only [join]
  split
  · simpa [or_imp, forall_and] using ⟨hp, parse_parts_good s⟩
  · exact parse_parts_good s

theorem rootOf_of_ne {c : Char} (hc : c ≠ '/') (s : List Char) : rootOf (c :: s) = "" := by
  unfold rootOf
  split <;> simp_all

theorem parse_str {r : PosixPath} (hr : RelPath r) : parse r.str = r := by
  obtain ⟨root, parts⟩ := r
  obtain ⟨rfl, hparts⟩ := hr
  cases parts with
  | nil => rfl
  | cons q qs =>
    obtain ⟨⟨hq, _⟩, hsep⟩ := hparts q (.head _)
    have hqs : ∀ v ∈ qs.map String.data, '/' ∉ v := by
      simpa using fun v hv => (hparts v (.tail _ hv)).2
    have htext : (str ⟨"", q :: qs⟩).toList = q.data ++ ((qs.map String.data).map ('/' :: ·)).flatten := by
      simp [str, String.intercalate, intercalate_go_data, Function.comp_def]
    have hroot : rootOf (q.data ++ ((qs.map String.data).map ('/' :: ·)).flatten) = "" := by
      obtain ⟨c, w, hcw⟩ := List.exists_cons_of_ne_nil hq
      rw [hcw, List.cons_append, rootOf_of_ne]
      exact fun e => hsep (hcw ▸ e ▸ .head _)
    rw [parse, htext, splitOn_join hsep hqs, hroot, ← List.map_cons, List.filter_eq_self.2]
    · simp [Function.comp_def]
    · simpa using fun v hv => (hparts v hv).1

theorem join_str (p : PosixPath) {r : PosixPath} (hr : RelPath r) : p.join r.str = ⟨p.root, p.parts ++ r.parts⟩ := by
  rw [join, parse_str hr, if_pos hr.1]

theorem relativeTo_ok {rt : Runtime} {p base r : PosixPath} (hp : ∀ q ∈ p.parts, GoodPart q)
    (h : p.relativeTo rt base = .ok r) : RelPath r ∧ p = ⟨base.root, base.parts ++ r.parts⟩ := by
  simp only [relativeTo] at h
  split at h
  · next hb =>
    cases h
    refine ⟨⟨rfl, fun q hq => hp q (List.mem_of_mem_drop hq)⟩, ?_⟩
    obtain ⟨t, ht⟩ := hb.2
    obtain ⟨root, parts⟩ := p
    simp only at hb ht ⊢
    rw [hb.1, ← ht, List.drop_left]
  · cases h

end PosixPath

/-! ## What `mkdir` and `write` change -/

namespace FileSystem

variable {rt : Runtime}

theorem node?_of_top (fs : FileSystem) {p : PosixPath} (h : p.top = true) : fs.node? p = some .dir :=
  if_pos h

theorem node?_congr (fs : FileSystem) {p q : PosixPath} (h : p.resolve = q.resolve) : fs.node? p = fs.node? q := by
  simp only [node?, PosixPath.top, h]

theorem node?_set (fs : FileSystem) (p : PosixPath) (n : Node) (q : PosixPath) :
    (fs.set p n).node? q = if q.top then some .dir else if q.resolve = p.resolve then some n else fs.node? q := by
  unfold node?
  split
  · rfl
  · simp only [set]
    split
    · next hany =>
      have hpred : (fun e : PosixPath × Node => decide ((if e.1 = p.resolve then (p.resolve, n) else e).1 = q.resolve)) =
          fun e => decide (e.1 = q.resolve) := by
        funext e; split <;> simp_all
      rw [List.find?_map, Function.comp_def, hpred]
      cases hf : fs.entries.find? (·.1 = q.resolve) with
      | none =>
        have hqp : q.resolve ≠ p.resolve := by
          intro e
          obtain ⟨x, hx, hxp⟩ := List.any_eq_true.1 hany
          exact absurd hxp (by simpa [e] using List.find?_eq_none.1 hf x hx)
        simp [hqp]
      | some x =>
        have hx : x.1 = q.resolve := by simpa using List.find?_some hf
        by_cases hqp : q.resolve = p.resolve <;> simp [hqp, hx]
    · next hany =>
      rw [List.find?_append]
      by_cases hqp : q.resolve = p.resolve
      · have : fs.entries.find? (·.1 = p.resolve) = none :=
          List.find?_eq_none.2 fun x hx hxp => hany (List.any_eq_true.2 ⟨x, hx, hxp⟩)
        simp [this, hqp]
      · simp [hqp, Ne.symm hqp]

def SameFiles (fs fs' : FileSystem) : Prop :=
  ∀ q c, fs.node? q = some (.file c) ↔ fs'.node? q = some (.file c)

theorem mkdir_ok {fs fs' : FileSystem} {p : PosixPath} (h : fs.mkdir rt p = .ok fs') :
    fs' = fs ∨ fs.node? p = none ∧ fs' = fs.set p .dir := by
  simp only [mkdir] at h
  split at h
  · cases h
  · split at h
    · exact .inl (Except.ok.inj h).symm
    · cases h
    · next hn => exact .inr ⟨hn, (Except.ok.inj h).symm⟩

theorem mkdir_sameFiles {fs fs' : FileSystem} {p : PosixPath} (h : fs.mkdir rt p = .ok fs') : SameFiles fs' fs := by
  rcases mkdir_ok h with rfl | ⟨hn, rfl⟩
  · exact fun _ _ => .rfl
  · intro q c
    rw [node?_set]
    split_ifs with hq hqp
    · simp [node?_of_top fs hq]
    · simp [node?_congr fs hqp, hn]
    · rfl

end FileSystem

/-- A document with a `Players` and a `Matches` operation. -/
def twoTagDoc : Yaml :=
  .map [(.str "paths", .map [
    (.str "/players", .map [(.str "get", .map [(.str "tags", .seq [.str "Players"]),
      (.str "summary", .str "List players")])]),
    (.str "/matches/\x7bid\x7d", .map [(.str "get", .map [(.str "tags", .seq [.str "Matches"])])])])]

def FileSystem.files (fs : FileSystem) : List (PosixPath × String) :=
  fs.entries.filterMap fun e =>
    match e.2 with
    | .file c => some (e.1, c)
    | .dir => none

/-- Operations on `/a/b` and on `/ab`, neither with a summary. -/
def slashPathsDoc : Yaml :=
  .map [(.str "paths", .map [(.str "/a/b", .map [(.str "get", .map [])]), (.str "/ab", .map [(.str "get", .map [])])])]

/-- `sanitize_filename` deletes the `/` of `/a/b` instead of turning it into a hyphen, so both
    operations are written to `Uncategorized/GET ab.bru`: two entries and a count of two for one
    file. -/
theorem slashPaths_one_file :
    sanitizeFilename asciiRuntime "/a/b".toList = "ab".toList ∧
    ∃ run, createBrunoCollection asciiRuntime slashPathsDoc "bruno" ⟨[]⟩ = .ok run ∧
      run.createdFiles = ["Uncategorized/GET ab.bru", "Uncategorized/GET ab.bru"] ∧
      run.folderStats = [("Uncategorized", 2)] ∧
      run.fs.files.map Prod.fst = [⟨"", ["bruno", "Uncategorized", "GET ab.bru"]⟩] :=
  ⟨rfl, _, rfl, rfl, rfl, rfl⟩

end EventSystemAudit

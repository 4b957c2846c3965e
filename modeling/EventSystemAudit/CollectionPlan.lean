import EventSystemAudit.CollectionFiles

set_option autoImplicit false

/-!
# The collection as a list of requests

What `create_bruno_collection` leaves is fixed by the requests its operations give, taken path by
path and method by method: each HTTP operation gives the tag it is counted under, its entry of
`created_files` and the text of its request. The file system plays no part in them; it can only
make the run fail. When the run returns, `created_files` is the list of the entries,
`folder_stats` counts the requests of each tag, the file `output_path / entry` holds the request
of the last operation whose file resolves to the same path, and every file at a path no entry
resolves to is as it was before the run. A tag with `..` parts climbs: entries `a/../GET x.bru`
and `GET x.bru` name one file, and `../GET x.bru` a file beside the output directory.
-/

namespace EventSystemAudit

/-- What one HTTP operation adds to the collection. -/
structure Request where
  tag : String
  entry : String
  content : String

namespace Request

/-- The text the requests leave at the path `p`: that of the last one written to a path under
    `out` that resolves where `p` does. -/
def lastAt (out : PosixPath) (reqs : List Request) (p : PosixPath) : Option String :=
  (reqs.reverse.find? fun r => (out.join r.entry).resolve = p.resolve).map content

end Request

section
variable (rt : Runtime)

/-- The request of one operation: what the body of the inner loop computes, without its `mkdir`
    and its `write`. -/
def operationRequest (out : PosixPath) (path : PyKey) (method : String) (spec : Yaml) :
    Except PyException Request := do
  let tags ← spec.get "tags" (.seq [.str "Uncategorized"])
  let tag ← if tags.truthy then tags.index0 else pure (.str "Uncategorized")
  let summary ← spec.get "summary" (.scalar path)
  let description ← spec.get "description" (.str "")
  let parameters ← spec.get "parameters" (.seq [])
  let security ← spec.get "security" (.seq [])
  let requestBody ← spec.get "requestBody" (.map [])
  let responses ← spec.get "responses" (.map [])
  let tagText ← pathOperand tag
  let name ← reSubject (if summary.truthy then summary else .scalar path)
  let filePath := (out.join tagText).join (requestFileName rt method name)
  let content ← generateBruContent rt method path summary description parameters security requestBody responses
  let rel ← filePath.relativeTo rt out
  return ⟨tagText, rel.str, content⟩

end

/-! ## The run after some requests -/

/-- The run after the requests `reqs`, over the file system `base` the loops started from. -/
structure PlanInv (out : PosixPath) (base : FileSystem) (reqs : List Request) (run : CollectionRun) : Prop where
  created : run.createdFiles = reqs.map Request.entry
  rel : ∀ r ∈ reqs, ∃ p, RelPath p ∧ r.entry = p.str
  keys : ∀ t, t ∈ run.folderStats.map Prod.fst ↔ ∃ r ∈ reqs, r.tag = t
  keys_nodup : (run.folderStats.map Prod.fst).Nodup
  count : ∀ t, (run.folderStats.lookup t).getD 0 = reqs.countP (·.tag = t)
  written : ∀ r ∈ reqs, run.fs.node? (out.join r.entry) = (Request.lastAt out reqs (out.join r.entry)).map .file
  frame : ∀ p c, (∀ r ∈ reqs, p.resolve ≠ (out.join r.entry).resolve) →
    (run.fs.node? p = some (.file c) ↔ base.node? p = some (.file c))

theorem PlanInv.start (out : PosixPath) {base fs : FileSystem} (h : FileSystem.SameFiles fs base) :
    PlanInv out base [] ⟨fs, [], []⟩ :=
  ⟨rfl, nofun, fun _ => by simp, List.nodup_nil, fun _ => rfl, nofun, fun p c _ => h p c⟩

theorem bind_ite_eq_ok {ε α β : Type} {c : Prop} [Decidable c] {x x' : Except ε α} {k : α → Except ε β} {b : β}
    (h : (if c then x >>= k else x' >>= k) = .ok b) : ∃ a, (if c then x else x') = .ok a ∧ k a = .ok b := by
  by_cases hc : c
  · rw [if_pos hc] at h ⊢; exact bind_eq_ok h
  · rw [if_neg hc] at h ⊢; exact bind_eq_ok h

theorem ite_bind_of_ok {ε α β : Type} {c : Prop} [Decidable c] {x x' : Except ε α} {a : α}
    (h : (if c then x else x') = .ok a) (k : α → Except ε β) : (if c then x >>= k else x' >>= k) = k a := by
  by_cases hc : c
  · rw [if_pos hc] at h ⊢; rw [h]; rfl
  · rw [if_neg hc] at h ⊢; rw [h]; rfl

section
variable {rt : Runtime} {out : PosixPath}

theorem join_relativeTo (hout : ∀ q ∈ out.parts, GoodPart q) {t n : String} {r : PosixPath}
    (hr : ((out.join t).join n).relativeTo rt out = .ok r) : RelPath r ∧ out.join r.str = (out.join t).join n := by
  obtain ⟨hrel, hfp⟩ :=
    PosixPath.relativeTo_ok (PosixPath.join_parts_good (PosixPath.join_parts_good hout _) _) hr
  exact ⟨hrel, (PosixPath.join_str out hrel).trans hfp.symm⟩

/-- One operation of the loop is its request, whose entry is a printed relative path, then the
    `mkdir` of its folder, the write of its file, and its entry and count. -/
theorem processOperation_ok_iff (hout : ∀ q ∈ out.parts, GoodPart q) {path : PyKey} {method : String}
    {spec : Yaml} {run run' : CollectionRun} :
    processOperation rt out path method spec run = .ok run' ↔
      ∃ (req : Request) (fs fs' : FileSystem), operationRequest rt out path method spec = .ok req ∧
        (∃ r, RelPath r ∧ req.entry = r.str) ∧ run.fs.mkdir rt (out.join req.tag) = .ok fs ∧ fs.write rt (out.join req.entry) req.content = .ok fs' ∧
        run' = ⟨fs', run.createdFiles ++ [req.entry],
          dictSet run.folderStats req.tag ((run.folderStats.lookup req.tag).getD 0 + 1)⟩ := by
  constructor
  · intro h
    rw [processOperation] at h
    obtain ⟨tags, h₁, h⟩ := bind_eq_ok h
    obtain ⟨tag, h₂, h⟩ := bind_ite_eq_ok h
    obtain ⟨summary, h₃, h⟩ := bind_eq_ok h
    obtain ⟨description, h₄, h⟩ := bind_eq_ok h
    obtain ⟨parameters, h₅, h⟩ := bind_eq_ok h
    obtain ⟨security, h₆, h⟩ := bind_eq_ok h
    obtain ⟨requestBody, h₇, h⟩ := bind_eq_ok h
    obtain ⟨responses, h₈, h⟩ := bind_eq_ok h
    obtain ⟨tagText, h₉, h⟩ := bind_eq_ok h
    obtain ⟨fs, hfs, h⟩ := bind_eq_ok h
    obtain ⟨name, h₁₀, h⟩ := bind_eq_ok h
    obtain ⟨content, h₁₁, h⟩ := bind_eq_ok h
    obtain ⟨fs', hw, h⟩ := bind_eq_ok h
    obtain ⟨r, hr, h⟩ := bind_eq_ok h
    cases h
    obtain ⟨hrel, hjoin⟩ := join_relativeTo hout hr
    refine ⟨⟨tagText, r.str, content⟩, fs, fs', ?_, ⟨r, hrel, rfl⟩, hfs, hjoin ▸ hw, rfl⟩
    rw [operationRequest, h₁, ok_bind, ite_bind_of_ok h₂]
    beta_reduce
    rw [h₃, ok_bind, h₄, ok_bind, h₅, ok_bind, h₆, ok_bind, h₇, ok_bind, h₈, ok_bind, h₉, ok_bind, h₁₀, ok_bind,
      h₁₁, ok_bind, hr, ok_bind]
    rfl
  · rintro ⟨req, fs, fs', hreq, -, hfs, hw, rfl⟩
    rw [operationRequest] at hreq
    obtain ⟨tags, h₁, h⟩ := bind_eq_ok hreq
    obtain ⟨tag, h₂, h⟩ := bind_ite_eq_ok h
    obtain ⟨summary, h₃, h⟩ := bind_eq_ok h
    obtain ⟨description, h₄, h⟩ := bind_eq_ok h
    obtain ⟨parameters, h₅, h⟩ := bind_eq_ok h
    obtain ⟨security, h₆, h⟩ := bind_eq_ok h
    obtain ⟨requestBody, h₇, h⟩ := bind_eq_ok h
    obtain ⟨responses, h₈, h⟩ := bind_eq_ok h
    obtain ⟨tagText, h₉, h⟩ := bind_eq_ok h
    obtain ⟨name, h₁₀, h⟩ := bind_eq_ok h
    obtain ⟨content, h₁₁, h⟩ := bind_eq_ok h
    obtain ⟨r, hr, h⟩ := bind_eq_ok h
    cases h
    rw [(join_relativeTo hout hr).2] at hw
    rw [processOperation, h₁, ok_bind, ite_bind_of_ok h₂]
    beta_reduce
    rw [h₃, ok_bind, h₄, ok_bind, h₅, ok_bind, h₆, ok_bind, h₇, ok_bind, h₈, ok_bind, h₉, ok_bind]
    dsimp only
    rw [hfs, ok_bind, h₁₀, ok_bind, h₁₁, ok_bind, hw, ok_bind, hr, ok_bind]
    rfl

variable {base : FileSystem} {reqs : List Request} {run run' : CollectionRun}

end

end EventSystemAudit

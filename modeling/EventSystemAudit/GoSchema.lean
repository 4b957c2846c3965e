import EventSystemAudit.PhaseLaws
import EventSystemAudit.TextLaws

set_option autoImplicit false

/-!
# The schema `parse_go_struct` extracts

`parse_go_struct` runs one pattern over the body of the `RawEvent` struct: a word, whitespace, a
type of word characters and `.*[]`, whitespace, and a struct tag that is exactly one `json` key.
Every match must reach a backtick, and the text before it holds exactly two runs of whitespace;
a match starting in front of a field line would see at least three. So on a body of gofmt field
lines with one-key tags and of lines without a backtick, the matches are exactly the field lines,
each read from its name. Anything else in a backtick-free line is ignored, whatever it is.
Outside that shape the loop does not parse each field, as its comment says it does: a field whose
type holds braces or whose tag has a second key is skipped, and a commented-out declaration is
read.
-/

namespace EventSystemAudit

/-! ## Runs of whitespace -/

/-- The number of runs of whitespace in a text read after whitespace when `afterSpace`. -/
def spaceRuns : Bool → List Char → ℕ
  | _, [] => 0
  | afterSpace, c :: cs => (if isSpace c && !afterSpace then 1 else 0) + spaceRuns (isSpace c) cs

theorem spaceRuns_append (q : Bool) (a b : List Char) :
    spaceRuns q (a ++ b) = spaceRuns q a + spaceRuns (a.foldl (fun _ c => isSpace c) q) b := by
  induction a generalizing q with
  | nil => simp [spaceRuns]
  | cons c a ih => rw [List.cons_append, spaceRuns.eq_2, spaceRuns.eq_2, ih, List.foldl_cons, Nat.add_assoc]

theorem foldl_isSpace {u : List Char} {b : Bool} (hu : u ≠ []) (h : ∀ c ∈ u, isSpace c = b) (q : Bool) :
    u.foldl (fun _ c => isSpace c) q = b := by
  induction u generalizing q with
  | nil => exact absurd rfl hu
  | cons c u ih =>
    rw [List.foldl_cons]
    cases u with
    | nil => exact h c (.head _)
    | cons d u => exact ih (List.cons_ne_nil _ _) (fun x hx => h x (.tail _ hx)) _

theorem spaceRuns_solid {u : List Char} (h : ∀ c ∈ u, isSpace c = false) (q : Bool) : spaceRuns q u = 0 := by
  induction u generalizing q with
  | nil => rfl
  | cons c u ih => simp [spaceRuns, h c (.head _), ih fun x hx => h x (.tail _ hx)]

theorem spaceRuns_blank_after {u : List Char} (h : ∀ c ∈ u, isSpace c = true) : spaceRuns true u = 0 := by
  induction u with
  | nil => rfl
  | cons c u ih => simp [spaceRuns, h c (.head _), ih fun x hx => h x (.tail _ hx)]

theorem spaceRuns_blank {u : List Char} (hu : u ≠ []) (h : ∀ c ∈ u, isSpace c = true) : spaceRuns false u = 1 := by
  obtain ⟨c, u, rfl⟩ := List.exists_cons_of_ne_nil hu
  simp [spaceRuns, h c (.head _), spaceRuns_blank_after fun x hx => h x (.tail _ hx)]

theorem spaceRuns_pos {g : List Char} (h : ∃ c ∈ g, isSpace c = true) : 0 < spaceRuns false g := by
  induction g with
  | nil => simp at h
  | cons c g ih =>
    cases hc : isSpace c
    · obtain ⟨d, hd, hds⟩ := h
      have hd : d ∈ g := (List.mem_cons.1 hd).resolve_left fun e => by simp [e, hc] at hds
      simpa [spaceRuns, hc] using ih ⟨d, hd, hds⟩
    · simp [spaceRuns, hc]

theorem spaceRuns_fieldHead {W S T S' : List Char} (hW : W ≠ [] ∧ ∀ c ∈ W, isSpace c = false)
    (hS : S ≠ [] ∧ ∀ c ∈ S, isSpace c = true) (hT : T ≠ [] ∧ ∀ c ∈ T, isSpace c = false)
    (hS' : S' ≠ [] ∧ ∀ c ∈ S', isSpace c = true) (q : Bool) : spaceRuns q (W ++ S ++ T ++ S') = 2 := by
  rw [List.append_assoc, List.append_assoc, spaceRuns_append, spaceRuns_solid hW.2, foldl_isSpace hW.1 hW.2,
    spaceRuns_append,
    spaceRuns_blank hS.1 hS.2, foldl_isSpace hS.1 hS.2, spaceRuns_append, spaceRuns_solid hT.2,
    foldl_isSpace hT.1 hT.2, spaceRuns_blank hS'.1 hS'.2]

/-! ## The characters of the field pattern -/

/-- `\w` of the interpreter holds no whitespace above ASCII, as Python's Unicode tables have it. -/
def WordsNotSpaces (rt : Runtime) : Prop := ∀ c, rt.wordAbove c = true → isSpace c = false

def GoTypeName (s : List Char) : Prop :=
  s ≠ [] ∧ ∀ c ∈ s, c.toNat < 128 ∧ isGoTypeChar asciiRuntime c = true

instance (s : List Char) : Decidable (GoTypeName s) := inferInstanceAs (Decidable (_ ∧ _))

theorem ascii_goType_not_space :
    ∀ n : Fin 128, isGoTypeChar asciiRuntime (Char.ofNat n) = true → isSpace (Char.ofNat n) = false := by
  decide

section
variable {rt : Runtime}

theorem isGoTypeChar_ascii {c : Char} (hc : c.toNat < 128) (rt' : Runtime) :
    isGoTypeChar rt c = isGoTypeChar rt' c := by
  simp [isGoTypeChar, isWord, hc]

theorem isGoTypeChar_not_space (hrt : WordsNotSpaces rt) {c : Char} (h : isGoTypeChar rt c = true) :
    isSpace c = false := by
  by_cases hc : c.toNat < 128
  · rw [isGoTypeChar_ascii hc asciiRuntime] at h
    simpa [Char.ofNat_toNat] using ascii_goType_not_space ⟨c.toNat, hc⟩ (by simpa [Char.ofNat_toNat] using h)
  · simp only [isGoTypeChar, Bool.or_eq_true, beq_iff_eq] at h
    rcases h with (((h | rfl) | rfl) | rfl) | rfl
    · exact hrt c (by simpa [isWord, hc] using h)
    all_goals simp at hc

theorem isWord_not_space (hrt : WordsNotSpaces rt) {c : Char} (h : isWord rt c = true) : isSpace c = false :=
  isGoTypeChar_not_space hrt (by simp [isGoTypeChar, h])

theorem isGoTypeChar_of_name {s : List Char} (h : GoTypeName s) : ∀ c ∈ s, isGoTypeChar rt c = true :=
  fun c hc => by rw [isGoTypeChar_ascii (h.2 c hc).1 asciiRuntime]; exact (h.2 c hc).2

end

/-! ## What a match reads -/

theorem head_all_of_forall {u v : List Char} {P : Char → Bool} (hu : u ≠ []) (h : ∀ c ∈ u, P c = true) :
    (u ++ v).head?.all P = true := by
  obtain ⟨c, u, rfl⟩ := List.exists_cons_of_ne_nil hu
  simp [h c (.head _)]

theorem not_mem_of_forall {u : List Char} {P : Char → Bool} (h : ∀ c ∈ u, P c = true) {c : Char}
    (hc : P c = false) : c ∉ u :=
  fun hm => by simp [h c hm] at hc

theorem prefix_eq_of_backtick {a b s t : List Char} (ha : '\x60' ∉ a) (hb : '\x60' ∉ b)
    (h : a ++ '\x60' :: s = b ++ '\x60' :: t) : a = b := by
  have key : ∀ {u v : List Char}, '\x60' ∉ u → (u ++ '\x60' :: v).takeWhile (· != '\x60') = u := fun hu => by
    rw [List.takeWhile_append_of_pos fun c hc => bne_iff_ne.2 fun (e : c = '\x60') => hu (e ▸ hc)]
    simp
  calc a = (a ++ '\x60' :: s).takeWhile (· != '\x60') := (key ha).symm
    _ = (b ++ '\x60' :: t).takeWhile (· != '\x60') := by rw [h]
    _ = b := key hb

section
variable {rt : Runtime}

theorem isGoTypeChar_backtick : isGoTypeChar rt '\x60' = false := by
  rw [isGoTypeChar_ascii (by decide) asciiRuntime]; decide

theorem isWord_backtick : isWord rt '\x60' = false := by
  simpa [isGoTypeChar] using @isGoTypeChar_backtick rt

/-- Where the field pattern matches, the text up to the first backtick is a word, whitespace, a
    type and whitespace: it holds two runs of whitespace. -/
theorem fieldPattern_head (hrt : WordsNotSpaces rt) {x : List Char} {r : List Char × List String}
    (h : matchItems (fieldPattern rt) none [] x = some r) :
    ∃ B z, x = B ++ '\x60' :: z ∧ '\x60' ∉ B ∧ ∀ q, spaceRuns q B = 2 := by
  simp only [fieldPattern, group, lit, List.append_assoc, List.cons_append, List.singleton_append,
    List.nil_append, show "\x60json:\"".toList = '\x60' :: "json:\"".toList from rfl, List.map_cons] at h
  rw [matchItems_groupOpen] at h
  obtain ⟨W, x, rfl, hW, hWc, h⟩ := matchItems_plus_some h
  rw [matchItems_groupClose_eq] at h
  obtain ⟨S, x, rfl, hS, hSc, h⟩ := matchItems_plus_some h
  rw [matchItems_groupOpen] at h
  obtain ⟨T, x, rfl, hT, hTc, h⟩ := matchItems_plus_some h
  rw [matchItems_groupClose_eq] at h
  obtain ⟨S', x, rfl, hS', hS'c, h⟩ := matchItems_plus_some h
  obtain ⟨c, z, rfl, hc, -⟩ := matchItems_one_some h
  obtain rfl : c = '\x60' := by simpa using hc
  have hsp : isSpace '\x60' = false := by decide
  refine ⟨W ++ S ++ T ++ S', z, by simp, ?_, spaceRuns_fieldHead ⟨hW, fun c hc => isWord_not_space hrt (hWc c hc)⟩
    ⟨hS, hSc⟩ ⟨hT, fun c hc => isGoTypeChar_not_space hrt (hTc c hc)⟩ ⟨hS', hS'c⟩⟩
  simp only [List.mem_append, not_or]
  exact ⟨⟨⟨not_mem_of_forall hWc isWord_backtick, not_mem_of_forall hSc hsp⟩,
    not_mem_of_forall hTc isGoTypeChar_backtick⟩, not_mem_of_forall hS'c hsp⟩

theorem matchAt_fieldPattern_plain (hrt : WordsNotSpaces rt) {x : List Char} (hx : '\x60' ∉ x) :
    matchAt (fieldPattern rt) x = none := by
  rcases h : matchItems (fieldPattern rt) none [] x with _ | r
  · simp [matchAt, h]
  · obtain ⟨B, z, rfl, -, -⟩ := fieldPattern_head hrt h
    simp at hx

theorem matchAt_fieldPattern_gap (hrt : WordsNotSpaces rt) {g B z : List Char} (hg : '\x60' ∉ g)
    (hsp : ∃ c ∈ g, isSpace c = true) (hB : '\x60' ∉ B) (hB2 : ∀ q, spaceRuns q B = 2) :
    matchAt (fieldPattern rt) (g ++ (B ++ '\x60' :: z)) = none := by
  rcases h : matchItems (fieldPattern rt) none [] (g ++ (B ++ '\x60' :: z)) with _ | r
  · simp [matchAt, h]
  · obtain ⟨B₀, z₀, e, hB₀, hB₀2⟩ := fieldPattern_head hrt h
    have hgB : B₀ = g ++ B :=
      prefix_eq_of_backtick hB₀ (by simp [hg, hB]) (e.symm.trans (List.append_assoc g B _).symm)
    have h2 := hB₀2 false
    rw [hgB, spaceRuns_append, hB2] at h2
    have := spaceRuns_pos hsp
    omega

end

/-! ## Struct bodies of field lines -/

/-- A field declared with a one-key `json` tag, as gofmt lays it out after its indenting tab: the
    name, whitespace, the type, whitespace, the tag, and a rest without a backtick, such as a
    comment. -/
structure TaggedField where
  name : List Char
  pad₁ : List Char
  goType : List Char
  pad₂ : List Char
  tag : List Char
  rest : List Char
  name_word : WordName name
  pad₁_blank : pad₁ ≠ [] ∧ ∀ c ∈ pad₁, isSpace c = true
  goType_name : GoTypeName goType
  pad₂_blank : pad₂ ≠ [] ∧ ∀ c ∈ pad₂, isSpace c = true
  tag_text : tag ≠ [] ∧ '"' ∉ tag
  rest_plain : '\x60' ∉ rest

namespace TaggedField

def head (f : TaggedField) : List Char := f.name ++ f.pad₁ ++ f.goType ++ f.pad₂

def matched (f : TaggedField) : List Char := f.head ++ "\x60json:\"".toList ++ f.tag ++ "\"\x60".toList

def groups (f : TaggedField) : List String := [String.mk f.name, String.mk f.goType, String.mk f.tag]

/-- The field the line declares: the tag up to its first comma is the wire key, and the field is
    required unless `omitempty` is one of the tag's comma-separated parts. -/
def field (f : TaggedField) : GoStructField :=
  ⟨String.mk f.name, String.mk f.goType, String.mk (f.tag.takeWhile (· != ',')),
    !(splitOn ',' f.tag).contains "omitempty".toList⟩

theorem matched_append (f : TaggedField) (s : List Char) :
    f.matched ++ s = f.head ++ '\x60' :: ("json:\"".toList ++ f.tag ++ "\"\x60".toList ++ s) := by
  simp [matched]

theorem head_no_backtick (f : TaggedField) : '\x60' ∉ f.head := by
  simp only [head, List.mem_append, not_or]
  exact ⟨⟨⟨f.name_word.not_mem rfl, not_mem_of_forall f.pad₁_blank.2 (by decide)⟩,
    not_mem_of_forall (@isGoTypeChar_of_name asciiRuntime _ f.goType_name) isGoTypeChar_backtick⟩,
    not_mem_of_forall f.pad₂_blank.2 (by decide)⟩

theorem spaceRuns_head (rt : Runtime) (hrt : WordsNotSpaces rt) (f : TaggedField) (q : Bool) :
    spaceRuns q f.head = 2 :=
  spaceRuns_fieldHead ⟨f.name_word.1, fun c hc => isWord_not_space hrt (f.name_word.all_isWord rt c hc)⟩
    f.pad₁_blank ⟨f.goType_name.1, fun c hc => isGoTypeChar_not_space hrt (isGoTypeChar_of_name f.goType_name c hc)⟩
    f.pad₂_blank q

end TaggedField

/-- A stretch of the struct body after a newline: a tagged field after its tab, or any text
    without a backtick (blank lines, comments, fields without a tag). -/
inductive GoLine where
  | field (f : TaggedField)
  | other (text : List Char) (plain : '\x60' ∉ text)

def GoLine.text : GoLine → List Char
  | .field f => '\n' :: '\t' :: f.matched ++ f.rest
  | .other text _ => '\n' :: text

def GoLine.tagged? : GoLine → Option TaggedField
  | .field f => some f
  | .other _ _ => none

def goBody (ls : List GoLine) : List Char := (ls.map GoLine.text).flatten

section
variable {rt : Runtime}

theorem not_word_of_space (hrt : WordsNotSpaces rt) {c : Char} (h : isSpace c = true) : isWord rt c = false :=
  Bool.eq_false_iff.2 fun hw => by simp [isWord_not_space hrt hw] at h

theorem not_goType_of_space (hrt : WordsNotSpaces rt) {c : Char} (h : isSpace c = true) :
    isGoTypeChar rt c = false :=
  Bool.eq_false_iff.2 fun hw => by simp [isGoTypeChar_not_space hrt hw] at h

theorem matchItems_taggedField (hrt : WordsNotSpaces rt) (f : TaggedField) (s : List Char) :
    matchItems (fieldPattern rt) none [] (f.matched ++ s) = some (s, f.groups) := by
  have e : f.matched ++ s = f.name ++ (f.pad₁ ++ (f.goType ++ (f.pad₂ ++ ("\x60json:\"".toList ++
      (f.tag ++ ("\"\x60".toList ++ s)))))) := by
    simp [TaggedField.matched, TaggedField.head]
  have hT : ∀ c ∈ f.goType, isGoTypeChar rt c = true := isGoTypeChar_of_name f.goType_name
  rw [e]
  simp only [fieldPattern, group, lit, List.append_assoc, List.cons_append, List.singleton_append,
    List.nil_append]
  rw [matchItems_groupOpen]
  refine matchItems_plus (f.name_word.all_isWord rt) f.name_word.1
    (head_all_of_forall f.pad₁_blank.1 fun c hc => by simp [not_word_of_space hrt (f.pad₁_blank.2 c hc)]) ?_
  rw [matchItems_groupClose]
  refine matchItems_plus f.pad₁_blank.2 f.pad₁_blank.1
    (head_all_of_forall f.goType_name.1 fun c hc => by simp [isGoTypeChar_not_space hrt (hT c hc)]) ?_
  rw [matchItems_groupOpen]
  refine matchItems_plus hT f.goType_name.1
    (head_all_of_forall f.pad₂_blank.1 fun c hc => by simp [not_goType_of_space hrt (f.pad₂_blank.2 c hc)]) ?_
  rw [matchItems_groupClose]
  refine matchItems_plus f.pad₂_blank.2 f.pad₂_blank.1 (by rfl) ?_
  rw [matchItems_lit, matchItems_groupOpen]
  refine matchItems_plus (fun c hc => bne_iff_ne.2 fun (e : c = '"') => f.tag_text.2 (e ▸ hc)) f.tag_text.1
    (by rfl) ?_
  rw [matchItems_groupClose, matchItems_lit_end]
  rfl

/-- `finditer` over a body after a stretch `g` without a backtick: one match per tagged field,
    read from its name. -/
theorem findAllFrom_goBody (hrt : WordsNotSpaces rt) (ls : List GoLine) {g : List Char} (hg : '\x60' ∉ g) :
    (findAllFrom (fieldPattern rt) 0 (g ++ goBody ls)).map Match.groups =
      (ls.filterMap GoLine.tagged?).map TaggedField.groups := by
  induction ls generalizing g with
  | nil =>
    rw [goBody, List.map_nil, List.flatten_nil, List.append_nil, ← List.append_nil g,
      findAllFrom_append fun i _ => matchAt_fieldPattern_plain hrt (by simpa using fun h => hg (List.mem_of_mem_drop h))]
    rfl
  | cons l ls ih =>
    cases l with
    | other t ht =>
      have e : g ++ goBody (.other t ht :: ls) = (g ++ '\n' :: t) ++ goBody ls := by simp [goBody, GoLine.text]
      rw [e, ih (by simp [hg, ht])]
      rfl
    | field f =>
      have e : g ++ goBody (.field f :: ls) = (g ++ ['\n', '\t']) ++ (f.matched ++ (f.rest ++ goBody ls)) := by
        simp [goBody, GoLine.text]
      have hgap : ∀ i < (g ++ ['\n', '\t']).length,
          matchAt (fieldPattern rt) ((g ++ ['\n', '\t']).drop i ++ (f.matched ++ (f.rest ++ goBody ls))) = none := by
        intro i hi
        have hsuf : List.IsSuffix ['\t'] ((g ++ ['\n', '\t']).drop i) :=
          List.suffix_of_suffix_length_le ⟨g ++ ['\n'], by simp⟩ (List.drop_suffix i _) (by simp at hi ⊢; omega)
        rw [TaggedField.matched_append]
        refine matchAt_fieldPattern_gap hrt (fun h => ?_) ⟨'\t', hsuf.subset (.head _), rfl⟩ f.head_no_backtick
          (f.spaceRuns_head rt hrt)
        have := List.mem_of_mem_drop h
        simp [hg] at this
      rw [e, findAllFrom_append hgap, findAllFrom_match (by simp [TaggedField.matched])
        (matchAt_of_matchItems (matchItems_taggedField hrt f _)), List.map_cons, ih f.rest_plain]
      rfl

end

theorem splitOn_headD (sep : Char) (s : List Char) : (splitOn sep s).headD [] = s.takeWhile (· != sep) := by
  induction s with
  | nil => rfl
  | cons c s ih =>
    by_cases hc : c = sep
    · simp [splitOn, hc]
    · rw [splitOn, if_neg hc, List.takeWhile_cons_of_pos (by simpa using hc), ← ih]
      cases splitOn sep s <;> rfl

theorem fieldOf_groups (f : TaggedField) : fieldOf ⟨0, f.groups⟩ = f.field := by
  simp only [fieldOf, TaggedField.groups, TaggedField.field]
  rw [← splitOn_headD]
  rfl

theorem fieldsOfBody_goBody {rt : Runtime} (hrt : WordsNotSpaces rt) (ls : List GoLine)
    (d : List (String × GoStructField)) :
    fieldsOfBody rt (String.mk (goBody ls)) d =
      (ls.filterMap GoLine.tagged?).foldl (fun d f => dictSet d f.field.jsonName f.field) d := by
  have hm := findAllFrom_goBody hrt ls (List.not_mem_nil '\x60')
  calc fieldsOfBody rt (String.mk (goBody ls)) d
      = ((findAll (fieldPattern rt) (goBody ls)).map Match.groups).foldl
          (fun d gs => dictSet d (fieldOf ⟨0, gs⟩).jsonName (fieldOf ⟨0, gs⟩)) d := by
        rw [List.foldl_map]; rfl
    _ = (ls.filterMap GoLine.tagged?).foldl (fun d f => dictSet d f.field.jsonName f.field) d := by
        rw [findAll, ← List.nil_append (goBody ls), hm, List.foldl_map]
        simp only [fieldOf_groups]


theorem asciiRuntime_wordsNotSpaces : WordsNotSpaces asciiRuntime := fun _ h => (Bool.false_ne_true h).elim

/-! ## The schema of an `events.go` -/

/-- `parse_go_struct` on an `events.go` whose first `RawEvent` struct holds the stretches `ls`:
    the fields are the tagged field lines, in order, each under its wire key. -/
theorem parseGoStruct_tagged_fields {rt : Runtime} (hrt : WordsNotSpaces rt) {repo : Repo} {raw : String}
    {pre post : List Char} {ls : List GoLine} (hgo : repo.eventsGo = .text raw)
    (hraw : raw.toList = pre ++ structOpen ++ goBody ls ++ '\n' :: '\x7d' :: post) (hcr : '\r' ∉ raw.toList)
    (hpre : ∀ i < pre.length, ¬ List.IsPrefix structOpen (pre.drop i ++ structOpen))
    (hin : ¬ List.IsInfix ['\n', '\x7d'] (goBody ls)) (a : Auditor) :
    parseGoStruct rt repo a =
      .ok { a with goFields := ((ls.filterMap GoLine.tagged?).foldl
        (fun d f => dictSet d f.field.jsonName f.field) a.goFields) } := by
  have e : raw.toList = pre ++ "type RawEvent struct \x7b".toList ++ (goBody ls ++ '\n' :: '\x7d' :: post) := by
    rw [hraw, structOpen]; simp only [List.append_assoc]
  simp only [parseGoStruct, hgo]
  rw [universalNewlines_of_not_mem hcr, e, structPattern, search_blockPattern_after _ hpre,
    ← List.append_assoc, search_blockPattern _ hin post]
  simp only [List.getD_cons_zero, fieldsOfBody_goBody hrt]


/-- `Type string \x60json:"type"\x60`, padded as gofmt aligns it. -/
def typeLine : TaggedField :=
  ⟨"Type".toList, "  ".toList, "string".toList, " ".toList, "type".toList, [],
    by decide, by decide, by decide, by decide, by decide, by decide⟩

/-- `GUID string \x60json:"guid,omitempty"\x60 // optional`. -/
def guidLine : TaggedField :=
  ⟨"GUID".toList, "  ".toList, "string".toList, " ".toList, "guid,omitempty".toList, " // optional".toList,
    by decide, by decide, by decide, by decide, by decide, by decide⟩

def taggedSchema : List GoLine := [.field typeLine, .other "\t// who sent it".toList (by decide), .field guidLine]

def taggedSchemaText : String :=
  String.mk ("package models\n\n".toList ++ structOpen ++ goBody taggedSchema ++ '\n' :: '\x7d' :: ['\n'])

def taggedSchemaRepo : Repo := ⟨".", .text taggedSchemaText, .missing, none⟩

set_option maxRecDepth 4000 in
theorem taggedSchema_fields :
    WordsNotSpaces asciiRuntime ∧ '\r' ∉ taggedSchemaText.toList ∧
      ¬ List.IsInfix ['\n', '\x7d'] (goBody taggedSchema) ∧
      (parseGoStruct asciiRuntime taggedSchemaRepo .init).map Auditor.goFields =
        .ok [("type", ⟨"Type", "string", "type", true⟩), ("guid", ⟨"GUID", "string", "guid", false⟩)] :=
  ⟨asciiRuntime_wordsNotSpaces, by decide, by decide, by
    rw [@parseGoStruct_tagged_fields asciiRuntime asciiRuntime_wordsNotSpaces taggedSchemaRepo _
      "package models\n\n".toList ['\n'] taggedSchema rfl rfl (by decide) (by decide) (by decide)]
    rfl⟩

/-- An `events.go` with a commented-out tagged declaration, a field whose type holds braces, a tag
    of options only, and a tag with a second key. -/
def mixedSchemaText : String :=
  "package models\n\ntype RawEvent struct \x7b\n\tType  string                 \x60json:\"type\"\x60\n\t// Legacy string \x60json:\"legacy\"\x60\n\tData  map[string]interface\x7b\x7d \x60json:\"data,omitempty\"\x60\n\tScore int                    \x60json:\",omitempty\"\x60\n\tID    string                 \x60json:\"id\" db:\"id\"\x60\n\x7d\n"

def mixedSchemaRepo : Repo := ⟨".", .text mixedSchemaText, .missing, none⟩

set_option maxRecDepth 4000 in
/-- The commented-out declaration is read, `Data` and `ID` are dropped, and `Score` is keyed by
    the empty text before its tag's comma. -/
theorem mixedSchema_wire_keys :
    (parseGoStruct asciiRuntime mixedSchemaRepo .init).map Auditor.goFields =
      .ok [("type", ⟨"Type", "string", "type", true⟩), ("legacy", ⟨"Legacy", "string", "legacy", true⟩),
        ("", ⟨"Score", "int", "", false⟩)] := by
  rfl

end EventSystemAudit

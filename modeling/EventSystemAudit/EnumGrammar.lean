import EventSystemAudit.GoSchema
import EventSystemAudit.GeneratorMain

set_option autoImplicit false

/-!
# The event types the enum pattern finds

`parse_event_types_enum` and the generator's `main` run one pattern over the enum file:
`Event`, word characters, whitespace, `EventType`, whitespace, `=`, whitespace, and a literal up
to its first quote. A match starts only at the text `Event`. So on a file whose lines are
declarations `Event<name> EventType = "<literal>"`, each after a stretch without an `E` (an
indentation, or `//`), and lines without the text `Event`, the pattern finds exactly the
declarations' literals, in order, and reads each one as it is written, escapes included.
It does not extract all `EventType` constants, as the comment above it says: a constant whose name
does not start with `Event` is missed, and a commented-out one is read.
-/

namespace EventSystemAudit

/-- A constant declaration the enum pattern reads: `Event<suffix>`, `EventType`, `=` and a
    quoted literal, with whitespace between them. -/
structure EnumConst where
  suffix : List Char
  pad₁ : List Char
  pad₂ : List Char
  pad₃ : List Char
  literal : List Char
  suffix_word : WordName suffix
  pad₁_blank : pad₁ ≠ [] ∧ ∀ c ∈ pad₁, isSpace c = true
  pad₂_blank : pad₂ ≠ [] ∧ ∀ c ∈ pad₂, isSpace c = true
  pad₃_blank : pad₃ ≠ [] ∧ ∀ c ∈ pad₃, isSpace c = true
  literal_text : literal ≠ [] ∧ '"' ∉ literal

def EnumConst.text (d : EnumConst) : List Char :=
  "Event".toList ++ d.suffix ++ d.pad₁ ++ "EventType".toList ++ d.pad₂ ++ ['='] ++ d.pad₃ ++
    '"' :: d.literal ++ ['"']

/-- A line of the enum file after its newline: a declaration after a stretch without an `E` and
    before one without `Event` (a comment), or a line without `Event`. -/
inductive EnumLine where
  | const (lead : List Char) (d : EnumConst) (rest : List Char) (lead_plain : 'E' ∉ lead)
      (rest_plain : ¬ List.IsInfix "Event".toList rest)
  | other (text : List Char) (plain : ¬ List.IsInfix "Event".toList text)

def EnumLine.text : EnumLine → List Char
  | .const lead d rest _ _ => '\n' :: lead ++ d.text ++ rest
  | .other text _ => '\n' :: text

def EnumLine.literal? : EnumLine → Option (List Char)
  | .const _ d _ _ _ => some d.literal
  | .other _ _ => none

def enumBody (ls : List EnumLine) : List Char := (ls.map EnumLine.text).flatten

section
variable {rt : Runtime}

theorem matchItems_enumConst (hrt : WordsNotSpaces rt) (d : EnumConst) (s : List Char) :
    matchItems (constPattern rt) none [] (d.text ++ s) = some (s, [String.mk d.literal]) := by
  have e : d.text ++ s = "Event".toList ++ (d.suffix ++ (d.pad₁ ++ ("EventType".toList ++ (d.pad₂ ++
      ("=".toList ++ (d.pad₃ ++ ("\"".toList ++ (d.literal ++ ("\"".toList ++ s))))))))) := by
    simp [EnumConst.text]
  rw [e]
  simp only [constPattern, lit, group, List.append_assoc, List.cons_append, List.singleton_append,
    List.nil_append]
  rw [matchItems_lit]
  refine matchItems_plus (d.suffix_word.all_isWord rt) d.suffix_word.1
    (head_all_of_forall d.pad₁_blank.1 fun c hc => by simp [not_word_of_space hrt (d.pad₁_blank.2 c hc)]) ?_
  refine matchItems_plus d.pad₁_blank.2 d.pad₁_blank.1 (by rfl) ?_
  rw [matchItems_lit]
  refine matchItems_plus d.pad₂_blank.2 d.pad₂_blank.1 (by rfl) ?_
  rw [matchItems_lit]
  refine matchItems_plus d.pad₃_blank.2 d.pad₃_blank.1 (by rfl) ?_
  rw [matchItems_lit, matchItems_groupOpen]
  refine matchItems_plus (fun c hc => bne_iff_ne.2 fun (e : c = '"') => d.literal_text.2 (e ▸ hc))
    d.literal_text.1 (by rfl) ?_
  rw [matchItems_groupClose, matchItems_lit_end]
  rfl

theorem matchAt_constPattern_none (rt : Runtime) {c : Char} (hc : c ≠ 'E') (s : List Char) :
    matchAt (constPattern rt) (c :: s) = none := by
  simp only [matchAt, Option.map_eq_none', constPattern, List.append_assoc]
  exact matchItems_lit_none (by simp [Ne.symm hc])

theorem matchAt_const_plain {x s : List Char} (hx : ¬ List.IsInfix "Event".toList x)
    (hs : s = [] ∨ s.head? = some '\n') : ∀ i < x.length, matchAt (constPattern rt) (x.drop i ++ s) = none := by
  intro i _
  simp only [matchAt, Option.map_eq_none', constPattern, List.append_assoc]
  refine matchItems_lit_none fun hp => ?_
  rcases hs with rfl | hs
  · exact hx ((List.append_nil (x.drop i) ▸ hp).isInfix.trans (List.drop_suffix i x).isInfix)
  · obtain ⟨y, rfl⟩ : ∃ y, s = '\n' :: y := by
      cases s with
      | nil => cases hs
      | cons c y => exact ⟨y, by cases hs; rfl⟩
    exact not_prefix_of_newline (by decide) (fun h => hx (h.trans (List.drop_suffix i x).isInfix)) y hp

theorem matchAt_const_no_E {a : List Char} (ha : 'E' ∉ a) (x : List Char) :
    ∀ i < a.length, matchAt (constPattern rt) (a.drop i ++ x) = none := by
  intro i hi
  obtain ⟨c, r, hcr⟩ := List.exists_cons_of_ne_nil (by simp; omega : a.drop i ≠ [])
  rw [hcr, List.cons_append]
  exact matchAt_constPattern_none rt (fun e => ha (e ▸ List.mem_of_mem_drop (hcr ▸ List.mem_cons_self _ _))) _

theorem not_infix_Event_newline {a b : List Char} (ha : ¬ List.IsInfix "Event".toList a)
    (hb : ¬ List.IsInfix "Event".toList b) : ¬ List.IsInfix "Event".toList (a ++ '\n' :: b) := by
  induction a with
  | nil =>
    rw [List.nil_append, List.infix_cons_iff]
    rintro (h | h)
    · have h' : ['E', 'v', 'e', 'n', 't'] <+: '\n' :: b := h
      simp at h'
    · exact hb h
  | cons c a ih =>
    rw [List.cons_append, List.infix_cons_iff]
    rintro (h | h)
    · exact not_prefix_of_newline (by decide) ha b (by rwa [List.cons_append])
    · exact ih (fun h' => ha (h'.trans (List.suffix_cons c a).isInfix)) h

/-- `finditer` over the lines `ls` after a stretch `g` without `Event`: one match per
    declaration, whose group is its literal. -/
theorem findAllFrom_enumBody (hrt : WordsNotSpaces rt) (ls : List EnumLine) {g : List Char}
    (hg : ¬ List.IsInfix "Event".toList g) :
    (findAllFrom (constPattern rt) 0 (g ++ enumBody ls)).map (fun m => m.groups.getD 0 "") =
      (ls.filterMap EnumLine.literal?).map String.mk := by
  induction ls generalizing g with
  | nil =>
    rw [enumBody, List.map_nil, List.flatten_nil, List.append_nil, ← List.append_nil g,
      findAllFrom_append (matchAt_const_plain hg (.inl rfl))]
    rfl
  | cons l ls ih =>
    cases l with
    | other t ht =>
      have e : g ++ enumBody (.other t ht :: ls) = (g ++ '\n' :: t) ++ enumBody ls := by
        simp [enumBody, EnumLine.text]
      rw [e, ih (not_infix_Event_newline hg ht)]
      rfl
    | const lead d rest hlead hrest =>
      have e : g ++ enumBody (.const lead d rest hlead hrest :: ls) =
          (g ++ '\n' :: lead) ++ (d.text ++ (rest ++ enumBody ls)) := by
        simp [enumBody, EnumLine.text]
      have hgap := @forall_drop_append (fun x => matchAt (constPattern rt) x = none) g ('\n' :: lead)
        (d.text ++ (rest ++ enumBody ls)) (matchAt_const_plain hg (.inr rfl)) (matchAt_const_no_E (by simpa using hlead) _)
      have hx : d.text ≠ [] := by simp [EnumConst.text]
      rw [e, findAllFrom_append hgap, findAllFrom_match hx (matchAt_of_matchItems (matchItems_enumConst hrt d _)),
        List.map_cons, ih hrest]
      rfl

end

theorem typesOfEnum_enumLiterals (rt : Runtime) (text : List Char) (s : PySet) :
    typesOfEnum rt text s = ((enumLiterals rt text).map PyKey.str).foldl PySet.insert s := by
  rw [typesOfEnum_eq, enumLiterals, List.map_map]
  rfl

/-- The literals of an enum file made of declarations and lines without `Event`: `main` finds
    them in order, and `parse_event_types_enum` adds them to its set in that order. -/
theorem parseEventTypesEnum_literals {rt : Runtime} (hrt : WordsNotSpaces rt) {repo : Repo} {raw : String}
    {g : List Char} {ls : List EnumLine} (hgen : repo.eventTypesGenerated = .text raw)
    (hraw : raw.toList = g ++ enumBody ls) (hcr : '\r' ∉ raw.toList) (hg : ¬ List.IsInfix "Event".toList g)
    (a : Auditor) :
    enumLiterals rt (universalNewlines raw.toList) = (ls.filterMap EnumLine.literal?).map String.mk ∧
      parseEventTypesEnum rt repo a = .ok { a with eventTypesGo :=
        ((ls.filterMap EnumLine.literal?).map fun t => PyKey.str (String.mk t)).foldl PySet.insert a.eventTypesGo } := by
  have hl : enumLiterals rt (universalNewlines raw.toList) = (ls.filterMap EnumLine.literal?).map String.mk := by
    rw [enumLiterals, universalNewlines_of_not_mem hcr, hraw, findAll, findAllFrom_enumBody hrt ls hg]
  refine ⟨hl, ?_⟩
  simp only [parseEventTypesEnum, hgen, typesOfEnum_enumLiterals, hl, List.map_map]
  rfl


/-- `EventGameEnd   EventType = "game_end"`, aligned as gofmt aligns it. -/
def gameEndConst : EnumConst :=
  ⟨"GameEnd".toList, "   ".toList, " ".toList, " ".toList, "game_end".toList,
    by decide, by decide, by decide, by decide, by decide⟩

def gameStartConst : EnumConst :=
  ⟨"GameStart".toList, " ".toList, " ".toList, " ".toList, "game_start".toList,
    by decide, by decide, by decide, by decide, by decide⟩

def generatedEnumLines : List EnumLine :=
  [.other "package models".toList (by decide), .other [] (by decide), .other "const (".toList (by decide),
    .const "\t".toList gameEndConst [] (by decide) (by decide),
    .const "\t".toList gameStartConst " // first of a game".toList (by decide) (by decide),
    .other ")".toList (by decide), .other [] (by decide)]

def generatedEnumText : String :=
  String.mk ("// Code generated by tools; DO NOT EDIT.".toList ++ enumBody generatedEnumLines)

def generatedEnumRepo : Repo := ⟨".", .missing, .text generatedEnumText, none⟩

set_option maxRecDepth 4000 in
theorem generatedEnum_literals :
    WordsNotSpaces asciiRuntime ∧ '\r' ∉ generatedEnumText.toList ∧
      enumLiterals asciiRuntime (universalNewlines generatedEnumText.toList) = ["game_end", "game_start"] ∧
      (parseEventTypesEnum asciiRuntime generatedEnumRepo .init).map (·.eventTypesGo.elems) =
        .ok [.str "game_end", .str "game_start"] := by
  obtain ⟨hl, hp⟩ := @parseEventTypesEnum_literals asciiRuntime asciiRuntime_wordsNotSpaces generatedEnumRepo
    generatedEnumText _ generatedEnumLines rfl rfl (by decide) (by decide) .init
  exact ⟨asciiRuntime_wordsNotSpaces, by decide, by rw [hl]; rfl, by rw [hp]; rfl⟩

/-- An enum file with a constant whose name does not start with `Event`, a commented-out
    declaration, and a literal with an escaped quote. -/
def mixedEnumText : String :=
  "package models\n\nconst (\n\tGameEnd EventType = \"game_end\"\n\t// EventOld EventType = \"old\"\n\tEventQuote EventType = \"say \\\"hi\\\"\"\n)\n"

def mixedEnumRepo : Repo := ⟨".", .missing, .text mixedEnumText, none⟩

/-- `GameEnd` is missed, the commented-out `old` is found, and the escaped literal is cut at its
    first quote, backslash kept. -/
theorem mixedEnum_literals :
    enumLiterals asciiRuntime (universalNewlines mixedEnumText.toList) = ["old", "say \\"] ∧
      (parseEventTypesEnum asciiRuntime mixedEnumRepo .init).map (·.eventTypesGo.elems) =
        .ok [.str "old", .str "say \\"] :=
  ⟨rfl, rfl⟩

end EventSystemAudit

import EventSystemAudit.BrunoCollection
import EventSystemAudit.RegexLaws

set_option autoImplicit false

/-!
# The request URL

`generate_bru_content` turns each path parameter `{name}` that `extract_path_params` finds into the
Bruno variable `{{var:name}}`, by one `str.replace` per parameter over the whole URL built so far.
The pattern `\{([^}]+)\}` cuts a path into characters outside every match and parameters; a scan
that reads one character at a time makes the same cut. On that cut each replacement marks one
parameter as done, so the loop substitutes every match in one pass, as `re.sub` would, provided no
parameter holds `{` and no parameter is `var:` followed by another. Otherwise a later replacement
finds its text inside an earlier parameter or inside an earlier replacement.
-/

namespace EventSystemAudit

/-! ## `str.replace` -/

section
variable {old new : List Char}

theorem replaceFrom_skip (xs ys : List Char) : replaceFrom old new xs.length (xs ++ ys) = replaceFrom old new 0 ys := by
  induction xs with
  | nil => rfl
  | cons x xs ih => exact ih

theorem not_prefix_of_head {b c : Char} {t : List Char} (hb : old.head? = some b) (hc : c ≠ b) : ¬ old <+: c :: t := by
  intro hp
  cases old with
  | nil => cases hb
  | cons d o => exact hc ((List.cons_prefix_cons.1 hp).1 ▸ Option.some.inj hb)

theorem replaceFrom_cons {c : Char} {s : List Char} (h : ¬ old <+: c :: s) :
    replaceFrom old new 0 (c :: s) = c :: replaceFrom old new 0 s := by
  rw [replaceFrom, if_neg (by rwa [List.isPrefixOf_iff_prefix])]

theorem replaceFrom_old (hne : old ≠ []) (s : List Char) :
    replaceFrom old new 0 (old ++ s) = new ++ replaceFrom old new 0 s := by
  obtain ⟨c, o, rfl⟩ := List.exists_cons_of_ne_nil hne
  have hp : (c :: o).isPrefixOf (c :: (o ++ s)) = true := List.isPrefixOf_iff_prefix.2 (List.prefix_append _ s)
  rw [List.cons_append, replaceFrom, if_pos hp, List.length_cons, Nat.add_sub_cancel, replaceFrom_skip]

theorem replaceFrom_append_of_not_mem {b : Char} {x : List Char} (hb : old.head? = some b) (hx : b ∉ x)
    (s : List Char) : replaceFrom old new 0 (x ++ s) = x ++ replaceFrom old new 0 s := by
  induction x with
  | nil => rfl
  | cons c x ih =>
    obtain ⟨hc, hx⟩ := not_or.1 (mt List.mem_cons.2 hx)
    rw [List.cons_append, replaceFrom_cons (not_prefix_of_head hb (Ne.symm hc)), ih hx, List.cons_append]

end

/-! ## The cut -/

/-- A piece of a path as `\{([^}]+)\}` cuts it: a character outside every match, or the name of a
    parameter. -/
inductive Piece where
  | lit (c : Char)
  | param (name : List Char)

/-- `{name}`. -/
def braced (p : List Char) : List Char := '\x7b' :: (p ++ ['\x7d'])

/-- `{{var:name}}`. -/
def varText (p : List Char) : List Char := "\x7b\x7bvar:".toList ++ p ++ "\x7d\x7d".toList

def Piece.text (done : List Char → Bool) : Piece → List Char
  | .lit c => [c]
  | .param p => if done p then varText p else braced p

def Piece.name? : Piece → Option (List Char)
  | .lit _ => none
  | .param p => some p

def textOf (done : List Char → Bool) (ps : List Piece) : List Char := (ps.map (Piece.text done)).flatten

def paramNames (ps : List Piece) : List (List Char) := ps.filterMap Piece.name?

/-- The cut by one scan: `opened` is what was read since an opening brace that may start a match.
    At a closing brace a nonempty name is a parameter; an empty one leaves both braces as text;
    at the end of the path an opening brace and what follows it are text. -/
def cutFrom : Option (List Char) → List Char → List Piece
  | none, [] => []
  | some name, [] => ('\x7b' :: name).map .lit
  | none, c :: cs => if c = '\x7b' then cutFrom (some []) cs else .lit c :: cutFrom none cs
  | some name, c :: cs =>
    if c = '\x7d' then
      if name = [] then .lit '\x7b' :: .lit '\x7d' :: cutFrom none cs else .param name :: cutFrom none cs
    else cutFrom (some (name ++ [c])) cs

def cutPath (path : List Char) : List Piece := cutFrom none path

/-- `re.sub(r'\{([^}]+)\}', r'{{var:\1}}', path)`: every match replaced, in one pass. -/
def templateUrl (path : List Char) : List Char := textOf (fun _ => true) (cutPath path)

def Unmatched (rest : List Piece) : Prop :=
  rest.head? = some (.lit '\x7d') ∨ ∀ x ∈ rest, ∃ c, x = .lit c ∧ c ≠ '\x7d'

/-- What the cut guarantees: an opening brace kept as text is unmatched, and a parameter is a
    nonempty name without a closing brace. -/
def WellCut : List Piece → Prop
  | [] => True
  | .lit c :: rest => (c = '\x7b' → Unmatched rest) ∧ WellCut rest
  | .param p :: rest => (p ≠ [] ∧ '\x7d' ∉ p) ∧ WellCut rest

@[simp] theorem textOf_nil (done : List Char → Bool) : textOf done [] = [] := rfl

@[simp] theorem textOf_cons (done : List Char → Bool) (x : Piece) (ps : List Piece) :
    textOf done (x :: ps) = x.text done ++ textOf done ps := rfl

@[simp] theorem paramNames_lit (c : Char) (ps : List Piece) : paramNames (.lit c :: ps) = paramNames ps := rfl

@[simp] theorem paramNames_param (p : List Char) (ps : List Piece) :
    paramNames (.param p :: ps) = p :: paramNames ps := rfl

theorem textOf_map_lit (done : List Char → Bool) (s : List Char) : textOf done (s.map .lit) = s := by
  induction s with
  | nil => rfl
  | cons c s ih => simp [Piece.text, ih]

theorem textOf_cutFrom (s : List Char) :
    ∀ o : Option (List Char), textOf (fun _ => false) (cutFrom o s) = o.elim [] ('\x7b' :: ·) ++ s := by
  induction s with
  | nil => rintro (_ | name) <;> simp [cutFrom, Piece.text, textOf_map_lit]
  | cons c cs ih =>
    rintro (_ | name)
    · by_cases hc : c = '\x7b'
      · simp [cutFrom, hc, ih]
      · simp [cutFrom, hc, Piece.text, ih]
    · by_cases hc : c = '\x7d'
      · by_cases hn : name = [] <;> simp [cutFrom, hc, hn, Piece.text, braced, ih]
      · simp [cutFrom, hc, ih]

theorem wellCut_map_lit {s : List Char} (hs : '\x7d' ∉ s) : WellCut (s.map .lit) := by
  induction s with
  | nil => trivial
  | cons c s ih =>
    obtain ⟨-, hs⟩ := not_or.1 (mt List.mem_cons.2 hs)
    refine ⟨fun _ => .inr ?_, ih hs⟩
    simp only [List.mem_map]
    rintro _ ⟨d, hd, rfl⟩
    exact ⟨d, rfl, fun e => hs (e ▸ hd)⟩

theorem wellCut_cutFrom (s : List Char) :
    ∀ o : Option (List Char), (∀ n ∈ o, '\x7d' ∉ n) → WellCut (cutFrom o s) := by
  induction s with
  | nil =>
    rintro (_ | name) ho
    · trivial
    · exact wellCut_map_lit (List.not_mem_cons_of_ne_of_not_mem (by decide) (ho name rfl))
  | cons c cs ih =>
    rintro (_ | name) ho
    · simp only [cutFrom]
      split
      · exact ih (some []) (by simp)
      · next hc => exact ⟨fun e => absurd e hc, ih none (by simp)⟩
    · have hn := ho name rfl
      simp only [cutFrom]
      split
      · split
        · exact ⟨fun _ => .inl rfl, fun e => absurd e (by decide), ih none (by simp)⟩
        · next hne => exact ⟨⟨hne, hn⟩, ih none (by simp)⟩
      · next hc => exact ih _ (by simpa [Ne.symm hc] using hn)

theorem WellCut.names {ps : List Piece} (h : WellCut ps) : ∀ p ∈ paramNames ps, p ≠ [] ∧ '\x7d' ∉ p := by
  induction ps with
  | nil => nofun
  | cons x ps ih =>
    cases x with
    | lit c => exact ih h.2
    | param p => exact List.forall_mem_cons.2 ⟨h.1, ih h.2⟩

/-! ## The matches of `\{([^}]+)\}` -/

theorem paramPattern_eq :
    paramPattern = [.one (· == '\x7b'), .groupOpen, .plus (· != '\x7d'), .groupClose, .one (· == '\x7d')] := rfl

def paramMatch (p : List Char) : Match := ⟨(braced p).length, [String.mk p]⟩

theorem matchItems_paramPattern_some {s : List Char} {r : List Char × List String}
    (h : matchItems paramPattern none [] s = some r) : ∃ u t, s = braced u ++ t ∧ u ≠ [] ∧ '\x7d' ∉ u := by
  rw [paramPattern_eq] at h
  obtain ⟨c, s, rfl, hc, h⟩ := matchItems_one_some h
  obtain ⟨u, t, rfl, hu, hu', h⟩ := matchItems_plus_some h
  obtain ⟨d, t, rfl, hd, -⟩ := matchItems_one_some h
  obtain rfl : c = '\x7b' := by simpa using hc
  obtain rfl : d = '\x7d' := by simpa using hd
  exact ⟨u, t, by simp [braced], hu, fun hm => by simpa using hu' _ hm⟩

theorem matchAt_param {p : List Char} (hp : p ≠ [] ∧ '\x7d' ∉ p) (s : List Char) :
    matchAt paramPattern (braced p ++ s) = some (paramMatch p) := by
  refine matchAt_of_matchItems ?_
  have e : braced p ++ s = "\x7b".toList ++ (p ++ ("\x7d".toList ++ s)) := by simp [braced]
  rw [e]
  simp only [paramPattern, lit, group, List.append_assoc, List.cons_append, List.singleton_append, List.nil_append]
  rw [matchItems_lit, matchItems_groupOpen]
  refine matchItems_plus (fun c hc => bne_iff_ne.2 fun (e : c = '\x7d') => hp.2 (e ▸ hc)) hp.1 (by rfl) ?_
  rw [matchItems_groupClose, matchItems_lit_end]
  rfl

theorem matchAt_param_none {s : List Char} (h : ¬ ∃ u t, s = braced u ++ t ∧ u ≠ [] ∧ '\x7d' ∉ u) :
    matchAt paramPattern s = none := by
  rw [matchAt, Option.map_eq_none']
  cases e : matchItems paramPattern none [] s with
  | none => rfl
  | some r => exact absurd (matchItems_paramPattern_some e) h

theorem not_braced_of_head {c : Char} (hc : c ≠ '\x7b') (s : List Char) :
    ¬ ∃ u t, c :: s = braced u ++ t ∧ u ≠ [] ∧ '\x7d' ∉ u := by
  rintro ⟨u, t, e, -⟩
  exact hc (List.cons.inj e).1

theorem not_mem_textOf {ps : List Piece} (done : List Char → Bool) (h : ∀ x ∈ ps, ∃ c, x = .lit c ∧ c ≠ '\x7d') :
    '\x7d' ∉ textOf done ps := by
  induction ps with
  | nil => simp
  | cons x ps ih =>
    obtain ⟨⟨c, rfl, hc⟩, hps⟩ := List.forall_mem_cons.1 h
    simpa [Piece.text, Ne.symm hc] using ih hps

theorem not_braced_of_unmatched {ps : List Piece} (done : List Char → Bool) (h : Unmatched ps) :
    ¬ ∃ u t, '\x7b' :: textOf done ps = braced u ++ t ∧ u ≠ [] ∧ '\x7d' ∉ u := by
  rintro ⟨u, t, e, hu, hu'⟩
  have e : textOf done ps = u ++ '\x7d' :: t := by simpa [braced] using e
  rcases h with h | h
  · obtain ⟨ps, rfl⟩ : ∃ ps', ps = .lit '\x7d' :: ps' := by
      cases ps with
      | nil => cases h
      | cons x ps => exact ⟨ps, by cases h; rfl⟩
    obtain ⟨c, u, rfl⟩ := List.exists_cons_of_ne_nil hu
    simp only [textOf_cons, Piece.text, List.singleton_append, List.cons_append, List.cons.injEq] at e
    exact hu' (e.1 ▸ List.mem_cons_self _ _)
  · exact not_mem_textOf done h (e ▸ List.mem_append_right _ (List.mem_cons_self _ _))

theorem findAllFrom_textOf {ps : List Piece} (h : WellCut ps) :
    findAllFrom paramPattern 0 (textOf (fun _ => false) ps) = (paramNames ps).map paramMatch := by
  induction ps with
  | nil => rfl
  | cons x ps ih =>
    cases x with
    | lit c =>
      simp only [textOf_cons, Piece.text, List.singleton_append, paramNames_lit]
      by_cases hc : c = '\x7b'
      · subst hc
        rw [findAllFrom, matchAt_param_none (not_braced_of_unmatched _ (h.1 rfl))]
        exact ih h.2
      · rw [findAllFrom, matchAt_param_none (not_braced_of_head hc _)]
        exact ih h.2
    | param p =>
      simp only [textOf_cons, Piece.text, Bool.false_eq_true, if_false, paramNames_param, List.map_cons]
      rw [findAllFrom_match (by simp [braced]) (matchAt_param h.1 _), ih h.2]
      rfl

theorem extractPathParams_eq (path : List Char) : extractPathParams path = paramNames (cutPath path) := by
  have htext : textOf (fun _ => false) (cutPath path) = path := by simpa using textOf_cutFrom path none
  have hcut : WellCut (cutPath path) := wellCut_cutFrom path none (by simp)
  have hfind := findAllFrom_textOf hcut
  rw [htext] at hfind
  simp [extractPathParams, findAll, hfind, paramMatch, Function.comp_def]

theorem textOf_congr {done done' : List Char → Bool} {ps : List Piece} (h : ∀ p ∈ paramNames ps, done p = done' p) :
    textOf done ps = textOf done' ps := by
  induction ps with
  | nil => rfl
  | cons x ps ih =>
    cases x with
    | lit c => exact congrArg _ (ih h)
    | param p =>
      obtain ⟨hp, h⟩ := List.forall_mem_cons.1 h
      simp only [textOf_cons, Piece.text, hp, ih h]

/-! ## The loop of replacements -/

section
variable {q new : List Char}

theorem braced_head : (braced q).head? = some '\x7b' := rfl

theorem braced_append (p s : List Char) : braced p ++ s = '\x7b' :: (p ++ '\x7d' :: s) := by
  simp [braced]

theorem varText_append (p s : List Char) :
    varText p ++ s = '\x7b' :: (braced ("var:".toList ++ p) ++ '\x7d' :: s) := by
  simp [varText, braced]

theorem braced_injective_of_prefix_append {p s : List Char} (hq : '\x7d' ∉ q) (hp : '\x7d' ∉ p) (h : braced q <+: braced p ++ s) :
    q = p := by
  rw [braced_append, braced, List.cons_prefix_cons] at h
  replace h := h.2
  induction q generalizing p with
  | nil =>
    cases p with
    | nil => rfl
    | cons d p => exact absurd ((List.cons_prefix_cons.1 h).1 ▸ List.mem_cons_self _ _) hp
  | cons e q ih =>
    cases p with
    | nil => exact absurd ((List.cons_prefix_cons.1 h).1 ▸ List.mem_cons_self _ _) hq
    | cons d p =>
      obtain ⟨rfl, h'⟩ := List.cons_prefix_cons.1 h
      rw [ih (fun m => hq (.tail _ m)) (fun m => hp (.tail _ m)) h']

theorem not_braced_prefix_brace (hq : q ≠ [] ∧ '\x7b' ∉ q) (p s : List Char) :
    ¬ braced q <+: '\x7b' :: (braced p ++ s) := by
  obtain ⟨c, q, rfl⟩ := List.exists_cons_of_ne_nil hq.1
  intro h
  obtain ⟨e, -⟩ := List.cons_prefix_cons.1 (List.cons_prefix_cons.1 h).2
  exact hq.2 (by rw [← e]; exact List.mem_cons_self _ _)

theorem not_braced_prefix_of_unmatched (hq : q ≠ [] ∧ '\x7d' ∉ q) {ps : List Piece} (done : List Char → Bool)
    (h : Unmatched ps) : ¬ braced q <+: '\x7b' :: textOf done ps := fun hp =>
  not_braced_of_unmatched done h ⟨q, _, (List.prefix_iff_eq_append.1 hp).symm, hq.1, hq.2⟩

theorem replaceFrom_braced {p : List Char} (hq : '\x7d' ∉ q) (hp : '\x7b' ∉ p ∧ '\x7d' ∉ p) (hpq : p ≠ q)
    (s : List Char) : replaceFrom (braced q) new 0 (braced p ++ s) = braced p ++ replaceFrom (braced q) new 0 s := by
  have h : ¬ braced q <+: braced p ++ s := fun h => hpq (braced_injective_of_prefix_append hq hp.2 h).symm
  rw [braced_append p s] at h ⊢
  rw [replaceFrom_cons h, replaceFrom_append_of_not_mem braced_head hp.1,
    replaceFrom_cons (not_prefix_of_head braced_head (by decide)), braced_append]

@[simp] theorem Piece.text_lit (done : List Char → Bool) (c : Char) : (Piece.lit c).text done = [c] := rfl

@[simp] theorem Piece.text_param (done : List Char → Bool) (p : List Char) :
    (Piece.param p).text done = if done p then varText p else braced p := rfl

/-- One `url.replace('{q}', '{{var:q}}')` on a cut whose names hold no `{`: every parameter `q`
    becomes done, provided `q` is not `var:` followed by a name already done. -/
theorem replaceText_textOf (hq : q ≠ [] ∧ '\x7b' ∉ q ∧ '\x7d' ∉ q) {qs : List (List Char)}
    (hvar : ∀ p ∈ qs, q ≠ "var:".toList ++ p) :
    ∀ ps : List Piece, WellCut ps → (∀ p ∈ paramNames ps, '\x7b' ∉ p) →
      replaceText (braced q) (varText q) (textOf (· ∈ qs) ps) = textOf (· ∈ qs ++ [q]) ps := by
  intro ps
  induction ps with
  | nil => intro _ _; simp [replaceText, replaceFrom, braced]
  | cons x ps ih =>
    intro hcut hnames
    unfold replaceText at ih ⊢
    cases x with
    | lit c =>
      have hc : ¬ braced q <+: c :: textOf (· ∈ qs) ps := by
        by_cases hc : c = '\x7b'
        · subst hc
          exact not_braced_prefix_of_unmatched ⟨hq.1, hq.2.2⟩ _ (hcut.1 rfl)
        · exact not_prefix_of_head braced_head hc
      rw [textOf_cons, textOf_cons, Piece.text_lit, Piece.text_lit, List.singleton_append, List.singleton_append,
        replaceFrom_cons hc, ih hcut.2 hnames]
    | param p =>
      obtain ⟨hp, hp'⟩ := List.forall_mem_cons.1 hnames
      have ih := ih hcut.2 hp'
      rw [textOf_cons, textOf_cons, Piece.text_param, Piece.text_param]
      by_cases hd : p ∈ qs
      · -- `{{var:p}}`: its first brace is followed by a brace, its second one by `var:p}`
        have hv : '\x7b' ∉ "var:".toList ++ p ∧ '\x7d' ∉ "var:".toList ++ p :=
          ⟨List.not_mem_append (by decide) hp, List.not_mem_append (by decide) hcut.1.2⟩
        rw [if_pos (decide_eq_true hd), if_pos (decide_eq_true (List.mem_append_left _ hd)), varText_append,
          replaceFrom_cons (not_braced_prefix_brace ⟨hq.1, hq.2.1⟩ _ _),
          replaceFrom_braced hq.2.2 hv (Ne.symm (hvar p hd)),
          replaceFrom_cons (not_prefix_of_head braced_head (by decide)), ih, ← varText_append]
      · rw [if_neg (by simpa using hd)]
        by_cases hpq : p = q
        · subst hpq
          rw [if_pos (by simp), replaceFrom_old (by simp [braced] : braced p ≠ []), ih]
        · rw [if_neg (by simp [hd, hpq]), replaceFrom_braced hq.2.2 ⟨hp, hcut.1.2⟩ hpq, ih]

end

theorem foldl_replaceText {ps : List Piece} (hcut : WellCut ps) (hbrace : ∀ p ∈ paramNames ps, '\x7b' ∉ p)
    (hvar : ∀ p ∈ paramNames ps, ∀ q ∈ paramNames ps, q ≠ "var:".toList ++ p) :
    ∀ (rest qs : List (List Char)), (∀ q ∈ qs ++ rest, q ∈ paramNames ps) →
      rest.foldl (fun url p => replaceText (braced p) (varText p) url) (textOf (· ∈ qs) ps) =
        textOf (· ∈ qs ++ rest) ps := by
  intro rest
  induction rest with
  | nil => simp
  | cons q rest ih =>
    intro qs hall
    have hq := hall q (by simp)
    obtain ⟨hne, hc⟩ := hcut.names q hq
    rw [List.foldl_cons, replaceText_textOf ⟨hne, hbrace q hq, hc⟩
      (fun p hp => hvar p (hall p (by simp [hp])) q hq) ps hcut hbrace, ih (qs ++ [q]) (by simpa using hall)]
    simp

/-- The loop of `generate_bru_content` over `extract_path_params(path)` substitutes every match
    of `\{([^}]+)\}` in one pass, when no parameter holds `{` and no parameter is `var:` followed
    by another. -/
theorem substituteParams_eq_templateUrl {path : List Char}
    (hbrace : ∀ p ∈ extractPathParams path, '\x7b' ∉ p)
    (hvar : ∀ p ∈ extractPathParams path, ∀ q ∈ extractPathParams path, q ≠ "var:".toList ++ p) :
    substituteParams path = templateUrl path := by
  have hcut : WellCut (cutPath path) := wellCut_cutFrom path none (by simp)
  have hstart : textOf (· ∈ ([] : List (List Char))) (cutPath path) = path := by
    simpa using textOf_cutFrom path none
  rw [extractPathParams_eq] at hbrace hvar
  calc substituteParams path
      = (paramNames (cutPath path)).foldl (fun url p => replaceText (braced p) (varText p) url)
          (textOf (· ∈ []) (cutPath path)) := by rw [hstart, ← extractPathParams_eq]; rfl
    _ = textOf (· ∈ [] ++ paramNames (cutPath path)) (cutPath path) :=
      foldl_replaceText hcut hbrace hvar _ [] (by simp)
    _ = templateUrl path := textOf_congr fun p hp => by simp [hp]

def statsPath : List Char := "/stats/player/\x7bguid\x7d/matches/\x7bmatch_id\x7d".toList

theorem statsPath_template :
    (∀ p ∈ extractPathParams statsPath, '\x7b' ∉ p) ∧
      (∀ p ∈ extractPathParams statsPath, ∀ q ∈ extractPathParams statsPath, q ≠ "var:".toList ++ p) ∧
      substituteParams statsPath = templateUrl statsPath ∧
      templateUrl statsPath = "/stats/player/\x7b\x7bvar:guid\x7d\x7d/matches/\x7b\x7bvar:match_id\x7d\x7d".toList := by
  have h₁ : ∀ p ∈ extractPathParams statsPath, '\x7b' ∉ p := by decide
  have h₂ : ∀ p ∈ extractPathParams statsPath, ∀ q ∈ extractPathParams statsPath, q ≠ "var:".toList ++ p := by
    decide
  exact ⟨h₁, h₂, substituteParams_eq_templateUrl h₁ h₂, by decide⟩

/-- The parameters `a` and `var:a`: the second replacement rewrites inside the first. -/
example : substituteParams "/\x7ba\x7d/\x7bvar:a\x7d".toList = "/\x7b\x7b\x7bvar:var:a\x7d\x7d\x7d/\x7b\x7bvar:var:a\x7d\x7d".toList ∧
    templateUrl "/\x7ba\x7d/\x7bvar:a\x7d".toList = "/\x7b\x7bvar:a\x7d\x7d/\x7b\x7bvar:var:a\x7d\x7d".toList := by decide

/-- The parameters `x{a` and `a`: the second replacement rewrites inside the first parameter. -/
example : substituteParams "/\x7bx\x7ba\x7d/\x7ba\x7d".toList = "/\x7b\x7bvar:x\x7b\x7bvar:a\x7d\x7d\x7d/\x7b\x7bvar:a\x7d\x7d".toList ∧
    templateUrl "/\x7bx\x7ba\x7d/\x7ba\x7d".toList = "/\x7b\x7bvar:x\x7ba\x7d\x7d/\x7b\x7bvar:a\x7d\x7d".toList := by decide

end EventSystemAudit

import EventSystemAudit.BrunoCollection
import EventSystemAudit.TextLaws

set_option autoImplicit false

/-!
# The names `sanitize_filename` gives

`sanitize_filename` keeps ASCII letters, digits, whitespace, `-` and `_`, turns each run of
whitespace into one hyphen, strips hyphens from both ends and lowercases. What is left is a file
name part: lowercase ASCII letters, digits, `-` and `_`, with no hyphen at either end, so no `/`
and no whitespace. Such a name is its own sanitized name, so sanitizing twice changes nothing.
-/

namespace EventSystemAudit

theorem char_le_iff {a b : Char} : a ≤ b ↔ a.toNat ≤ b.toNat := by
  rw [Char.le_def, UInt32.le_def, BitVec.le_def]; rfl

/-- A character of a sanitized name: a lowercase ASCII letter, a digit, `-` or `_`. -/
def isNameChar (c : Char) : Bool :=
  ('a' ≤ c && c ≤ 'z') || ('0' ≤ c && c ≤ '9') || c == '-' || c == '_'

/-- A name part as `sanitize_filename` leaves it. -/
structure SafeName (s : List Char) : Prop where
  chars : ∀ c ∈ s, isNameChar c = true
  head : s.head? ≠ some '-'
  last : s.getLast? ≠ some '-'

theorem isNameChar_iff (c : Char) : isNameChar c = true ↔
    (97 ≤ c.toNat ∧ c.toNat ≤ 122) ∨ (48 ≤ c.toNat ∧ c.toNat ≤ 57) ∨ c.toNat = 45 ∨ c.toNat = 95 := by
  have e : ∀ d : Char, c = d ↔ c.toNat = d.toNat := fun d => ⟨congrArg _, eq_of_toNat_eq⟩
  simp (disch := decide) only [isNameChar, Bool.or_eq_true, Bool.and_eq_true, decide_eq_true_eq, beq_iff_eq,
    char_le_iff, e, toNat_ofNat_of_lt, or_assoc]

theorem toLower_of_kept {c : Char} (hk : keptInFilename c = true) (hs : isSpace c = false) :
    c.toNat < 128 ∧ isNameChar c.toLower = true ∧ (c.toLower = '-' → c = '-') := by
  have e : ∀ d : Char, c = d ↔ c.toNat = d.toNat := fun d => ⟨congrArg _, eq_of_toNat_eq⟩
  simp (disch := decide) only [keptInFilename, hs, Bool.or_false, Bool.or_eq_true, Bool.and_eq_true,
    decide_eq_true_eq, beq_iff_eq, char_le_iff, e, toNat_ofNat_of_lt] at hk
  have hl := toNat_toLower c
  refine ⟨by omega, (isNameChar_iff _).2 (by split_ifs at hl <;> omega), fun h => (e _).2 ?_⟩
  have h' := congrArg Char.toNat h
  simp (disch := decide) only [toNat_ofNat_of_lt] at h' ⊢
  split_ifs at hl <;> omega

theorem toLower_of_nameChar {c : Char} (h : isNameChar c = true) : c.toLower = c := by
  have := (isNameChar_iff c).1 h
  refine eq_of_toNat_eq ?_
  rw [toNat_toLower, if_neg (by omega)]

theorem keptInFilename_of_nameChar {c : Char} (h : isNameChar c = true) :
    keptInFilename c = true ∧ isSpace c = false ∧ c ≠ '/' := by
  have e : ∀ d : Char, c = d ↔ c.toNat = d.toNat := fun d => ⟨congrArg _, eq_of_toNat_eq⟩
  simp (disch := decide) only [keptInFilename, isSpace, Bool.or_eq_true, Bool.and_eq_true, decide_eq_true_eq,
    beq_iff_eq, char_le_iff, e, ne_eq, Bool.eq_false_iff, toNat_ofNat_of_lt]
  rcases (isNameChar_iff c).1 h with h | h | h | h <;> omega

/-! ## The steps of `sanitize_filename` -/

theorem hyphenateRuns_chars {s : List Char} (hs : ∀ c ∈ s, keptInFilename c = true) (inRun : Bool) :
    ∀ c ∈ hyphenateRuns inRun s, keptInFilename c = true ∧ isSpace c = false := by
  induction s generalizing inRun with
  | nil => simp [hyphenateRuns]
  | cons c s ih =>
    obtain ⟨hc, hs⟩ := List.forall_mem_cons.1 hs
    unfold hyphenateRuns
    split
    · refine List.forall_mem_append.2 ⟨?_, ih hs true⟩
      split <;> decide
    · next hsep =>
      refine List.forall_mem_cons.2 ⟨⟨hc, ?_⟩, ih hs false⟩
      simpa using (Bool.or_eq_false_iff.1 (Bool.eq_false_iff.2 hsep)).1

theorem hyphenateRuns_of_no_sep {s : List Char} (hs : ∀ c ∈ s, isSpace c = false ∧ c ≠ '/') (inRun : Bool) :
    hyphenateRuns inRun s = s := by
  induction s generalizing inRun with
  | nil => rfl
  | cons c s ih =>
    obtain ⟨⟨hsp, hsl⟩, hs⟩ := List.forall_mem_cons.1 hs
    simp [hyphenateRuns, hsp, hsl, ih hs]

section
variable (c : Char) (s : List Char)

theorem isInfix_stripChar : List.IsInfix (stripChar c s) s := by
  have h₁ := @List.dropWhile_suffix _ s (· = c)
  have h₂ := @List.dropWhile_suffix _ (s.dropWhile (· = c)).reverse (· = c)
  rw [← List.reverse_reverse (List.dropWhile _ ((s.dropWhile (· = c)).reverse)), List.reverse_suffix] at h₂
  exact h₂.isInfix.trans h₁.isInfix

theorem head?_dropWhile_ne (l : List Char) : (l.dropWhile (· = c)).head? ≠ some c := by
  induction l with
  | nil => simp
  | cons x l ih => by_cases h : x = c <;> simp [List.dropWhile_cons, h, ih]

theorem stripChar_last : (stripChar c s).getLast? ≠ some c := by
  rw [stripChar, List.getLast?_reverse]
  exact head?_dropWhile_ne c _

theorem stripChar_head : (stripChar c s).head? ≠ some c := by
  rw [stripChar, List.head?_reverse]
  set X := s.dropWhile (· = c)
  rcases hY : X.reverse.dropWhile (· = c) with _ | ⟨y, ys⟩
  · simp
  · have e := List.takeWhile_append_dropWhile (· = c) X.reverse
    rw [hY] at e
    have hl : (y :: ys).getLast? = X.head? := by
      rw [← List.getLast?_reverse X, ← e, List.getLast?_append_of_ne_nil _ (List.cons_ne_nil y ys)]
    rw [hl]
    exact head?_dropWhile_ne c s

theorem stripChar_self (h₁ : s.head? ≠ some c) (h₂ : s.getLast? ≠ some c) : stripChar c s = s := by
  have hd : ∀ l : List Char, l.head? ≠ some c → l.dropWhile (· = c) = l := by
    intro l hl
    cases l with
    | nil => rfl
    | cons x l => exact List.dropWhile_cons_of_neg (by simpa using fun e => hl (by rw [e]; rfl))
  rw [stripChar, hd s h₁, hd s.reverse (by rwa [List.head?_reverse]), List.reverse_reverse]

end

theorem lowerFrom_ascii (rt : Runtime) {s : List Char} (hs : ∀ c ∈ s, c.toNat < 128) (before : List Char) :
    lowerFrom rt before s = s.map Char.toLower := by
  induction s generalizing before with
  | nil => rfl
  | cons c s ih =>
    obtain ⟨hc, hs⟩ := List.forall_mem_cons.1 hs
    rw [lowerFrom, if_pos hc, ih hs, List.map_cons, List.singleton_append]

/-! ## `sanitize_filename` -/

theorem sanitizeFilename_of_safe (rt : Runtime) {s : List Char} (h : SafeName s) : sanitizeFilename rt s = s := by
  have hk := fun c hc => keptInFilename_of_nameChar (h.chars c hc)
  have hascii : ∀ c ∈ s, c.toNat < 128 := fun c hc => by
    have := (isNameChar_iff c).1 (h.chars c hc); omega
  rw [sanitizeFilename, List.filter_eq_self.2 fun c hc => (hk c hc).1,
    hyphenateRuns_of_no_sep (fun c hc => (hk c hc).2) false, stripChar_self '-' s h.head h.last, lower,
    lowerFrom_ascii rt hascii]
  exact (List.map_congr_left fun c hc => toLower_of_nameChar (h.chars c hc)).trans (List.map_id s)

/-- What `sanitize_filename` returns is a file name part: lowercase ASCII letters, digits, `-` and
    `_`, with no hyphen at either end; and sanitizing it again changes nothing. -/
theorem sanitizeFilename_safe (rt : Runtime) (name : List Char) :
    SafeName (sanitizeFilename rt name) ∧
      sanitizeFilename rt (sanitizeFilename rt name) = sanitizeFilename rt name := by
  set t := stripChar '-' (hyphenateRuns false (name.filter keptInFilename))
  have ht : ∀ c ∈ t, keptInFilename c = true ∧ isSpace c = false := fun c hc =>
    hyphenateRuns_chars (fun c hc => (List.mem_filter.1 hc).2) false c
      ((isInfix_stripChar '-' _).subset hc)
  have hlow : sanitizeFilename rt name = t.map Char.toLower := by
    rw [sanitizeFilename, lower, lowerFrom_ascii rt fun c hc => (toLower_of_kept (ht c hc).1 (ht c hc).2).1]
  have hend : ∀ o : Option Char, o ≠ some '-' → (∀ c, o = some c → c ∈ t) → o.map Char.toLower ≠ some '-' := by
    rintro (_ | c) ho hm
    · simp
    · intro e
      simp only [Option.map_some', Option.some.injEq] at e
      have hc := hm c rfl
      exact ho (by rw [(toLower_of_kept (ht c hc).1 (ht c hc).2).2.2 e])
  have hsafe : SafeName (sanitizeFilename rt name) := by
    rw [hlow]
    refine ⟨?_, ?_, ?_⟩
    · simp only [List.mem_map]
      rintro _ ⟨c, hc, rfl⟩
      exact (toLower_of_kept (ht c hc).1 (ht c hc).2).2.1
    · rw [List.head?_map]
      exact hend _ (stripChar_head '-' _) fun c hc => List.mem_of_mem_head? hc
    · rw [List.getLast?_map]
      exact hend _ (stripChar_last '-' _) fun c hc => List.mem_of_getLast?_eq_some hc
  exact ⟨hsafe, sanitizeFilename_of_safe rt hsafe⟩

end EventSystemAudit

import EventSystemAudit.PythonText

set_option autoImplicit false

/-!
# Laws of the text operations

Reading text without carriage returns changes nothing, `strip` removes exactly the whitespace in
front of a text that starts and ends with something else, and `title` of an ASCII text never
puts a lowercase `j` right after a colon: a character after an uncased one is titlecased.
-/

namespace EventSystemAudit

theorem universalNewlines_of_not_mem {s : List Char} (h : '\r' ∉ s) : universalNewlines s = s := by
  induction s with
  | nil => rfl
  | cons c s ih =>
    have hc : c ≠ '\r' := fun e => h (e ▸ .head _)
    rw [universalNewlines.eq_3 c s (fun _ e => absurd e hc) hc, ih (fun hm => h (.tail _ hm))]

theorem strip_append {ws core : List Char} (hws : ∀ c ∈ ws, isSpace c = true)
    (hh : core.head?.all (fun c => !isSpace c)) (hl : core.getLast?.all (fun c => !isSpace c)) :
    strip (ws ++ core) = core := by
  have hd : core.dropWhile isSpace = core := by
    cases core with
    | nil => rfl
    | cons c cs =>
      simp only [List.head?_cons, Option.all_some, Bool.not_eq_true'] at hh
      simp [List.dropWhile_cons, hh]
  have hr : core.reverse.dropWhile isSpace = core.reverse := by
    cases h : core.reverse with
    | nil => rfl
    | cons c cs =>
      rw [← List.head?_reverse, h] at hl
      simp only [List.head?_cons, Option.all_some, Bool.not_eq_true'] at hl
      simp [List.dropWhile_cons, hl]
  rw [strip, List.dropWhile_append_of_pos hws, hd, hr, List.reverse_reverse]

theorem toNat_ofNat_of_lt {n : ℕ} (h : n < 0xd800) : (Char.ofNat n).toNat = n := by
  rw [Char.ofNat, dif_pos (Or.inl h)]
  simp [Char.ofNatAux, Char.toNat, UInt32.toNat]

theorem toUpper_ne_j (c : Char) : c.toUpper ≠ 'j' := by
  dsimp only [Char.toUpper]
  split
  · intro e
    have := congrArg Char.toNat e
    rw [toNat_ofNat_of_lt (by omega)] at this
    simp at this; omega
  · next h => rintro rfl; simp at h

theorem eq_colon_of_toUpper {c : Char} (hc : c.toUpper = ':') : c = ':' := by
  dsimp only [Char.toUpper] at hc
  split at hc
  · have := congrArg Char.toNat hc
    rw [toNat_ofNat_of_lt (by omega)] at this
    simp at this; omega
  · exact hc

theorem eq_colon_of_toLower {c : Char} (hc : c.toLower = ':') : c = ':' := by
  dsimp only [Char.toLower] at hc
  split at hc
  · have := congrArg Char.toNat hc
    rw [toNat_ofNat_of_lt (by omega)] at this
    simp at this; omega
  · exact hc

theorem titleFrom_ascii (rt : Runtime) (prev : Bool) (before : List Char) {c : Char}
    (hc : c.toNat < 128) (after : List Char) :
    titleFrom rt prev before (c :: after) =
      (if prev then c.toLower else c.toUpper) :: titleFrom rt (isCased rt c) (c :: before) after := by
  simp only [titleFrom, if_pos hc]
  split <;> rfl

theorem titleFrom_no_colon_j (rt : Runtime) {s : List Char} (hs : ∀ c ∈ s, c.toNat < 128)
    (prev : Bool) (before : List Char) : ¬ List.IsInfix [':', 'j'] (titleFrom rt prev before s) := by
  induction s generalizing prev before with
  | nil => simp [titleFrom]
  | cons c after ih =>
    obtain ⟨hc, hafter⟩ := List.forall_mem_cons.1 hs
    rw [titleFrom_ascii rt prev before hc, List.infix_cons_iff]
    rintro (hp | hi)
    · obtain ⟨hm, hj⟩ := List.cons_prefix_cons.1 hp
      obtain rfl : c = ':' := by
        split at hm
        · exact eq_colon_of_toLower hm.symm
        · exact eq_colon_of_toUpper hm.symm
      cases after with
      | nil => simp [titleFrom] at hj
      | cons d after =>
        rw [titleFrom_ascii rt _ _ (hafter d (.head _))] at hj
        exact toUpper_ne_j d (by simpa [isCased, eq_comm] using hj)
    · exact ih hafter _ _ hi

theorem title_no_colon_j (rt : Runtime) {s : List Char} (hs : ∀ c ∈ s, c.toNat < 128) :
    ¬ List.IsInfix [':', 'j'] (title rt s) :=
  titleFrom_no_colon_j rt hs false []

theorem toUpper_printable {c : Char} (h : 0x1f < c.toNat) : 0x1f < c.toUpper.toNat := by
  dsimp only [Char.toUpper]
  split
  · rw [toNat_ofNat_of_lt (by omega)]; omega
  · exact h

theorem toLower_printable {c : Char} (h : 0x1f < c.toNat) : 0x1f < c.toLower.toNat := by
  dsimp only [Char.toLower]
  split
  · rw [toNat_ofNat_of_lt (by omega)]; omega
  · exact h

theorem toNat_toLower (c : Char) :
    c.toLower.toNat = if 65 ≤ c.toNat ∧ c.toNat ≤ 90 then c.toNat + 32 else c.toNat := by
  dsimp only [Char.toLower]
  split
  · rw [toNat_ofNat_of_lt (by omega)]
  · rfl

theorem toNat_toUpper (c : Char) :
    c.toUpper.toNat = if 97 ≤ c.toNat ∧ c.toNat ≤ 122 then c.toNat - 32 else c.toNat := by
  dsimp only [Char.toUpper]
  split
  · rw [toNat_ofNat_of_lt (by omega)]
  · rfl

theorem eq_of_toNat_eq {a b : Char} (h : a.toNat = b.toNat) : a = b := by
  rw [← Char.ofNat_toNat a, h, Char.ofNat_toNat]

@[simp] theorem toLower_toLower (c : Char) : c.toLower.toLower = c.toLower :=
  eq_of_toNat_eq (by rw [toNat_toLower, toNat_toLower]; split_ifs <;> omega)

@[simp] theorem toLower_toUpper (c : Char) : c.toUpper.toLower = c.toLower :=
  eq_of_toNat_eq (by rw [toNat_toLower, toNat_toUpper, toNat_toLower]; split_ifs <;> omega)

theorem titleFrom_toLower (rt : Runtime) {s : List Char} (hs : ∀ c ∈ s, c.toNat < 128) (prev : Bool)
    (before : List Char) : (titleFrom rt prev before s).map Char.toLower = s.map Char.toLower := by
  induction s generalizing prev before with
  | nil => rfl
  | cons c after ih =>
    obtain ⟨hc, hafter⟩ := List.forall_mem_cons.1 hs
    rw [titleFrom_ascii rt prev before hc, List.map_cons, List.map_cons, ih hafter]
    cases prev <;> simp

theorem replaceChar_replaceChar {a b : Char} {s : List Char} (hb : b ∉ s) :
    replaceChar b a (replaceChar a b s) = s := by
  simp only [replaceChar, List.map_map]
  refine (List.map_congr_left fun c hc => ?_).trans (List.map_id s)
  by_cases h : c = a
  · simp [h]
  · simp [h, show c ≠ b from fun e => hb (e ▸ hc)]

theorem titleFrom_printable (rt : Runtime) {s : List Char}
    (hs : ∀ c ∈ s, 0x1f < c.toNat ∧ c.toNat < 128) (prev : Bool) (before : List Char) :
    ∀ c ∈ titleFrom rt prev before s, 0x1f < c.toNat := by
  induction s generalizing prev before with
  | nil => simp [titleFrom]
  | cons c after ih =>
    obtain ⟨hc, hafter⟩ := List.forall_mem_cons.1 hs
    rw [titleFrom_ascii rt prev before hc.2]
    refine List.forall_mem_cons.2 ⟨?_, ih hafter _ _⟩
    split
    · exact toLower_printable hc.1
    · exact toUpper_printable hc.1

theorem replaceChar_printable {s : List Char} (hs : ∀ c ∈ s, 0x1f < c.toNat ∧ c.toNat < 128) :
    ∀ c ∈ replaceChar '_' ' ' s, 0x1f < c.toNat ∧ c.toNat < 128 := by
  simp only [replaceChar, List.mem_map]
  rintro _ ⟨c, hc, rfl⟩
  split
  · decide
  · exact hs c hc

def WordName (s : List Char) : Prop :=
  s ≠ [] ∧ ∀ c ∈ s, c.toNat < 128 ∧ (c.isAlphanum || c == '_') = true

instance (s : List Char) : Decidable (WordName s) := inferInstanceAs (Decidable (_ ∧ _))

theorem WordName.not_mem {s : List Char} (h : WordName s) {c : Char}
    (hc : (c.isAlphanum || c == '_') = false) : c ∉ s := fun hm => by
  have := (h.2 c hm).2
  rw [hc] at this
  exact Bool.false_ne_true this

theorem WordName.all_isWord {s : List Char} (h : WordName s) (rt : Runtime) : ∀ c ∈ s, isWord rt c = true :=
  fun c hc => by simp [isWord, (h.2 c hc).1, (h.2 c hc).2]

end EventSystemAudit

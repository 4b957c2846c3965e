import EventSystemAudit.RegexMatch

set_option autoImplicit false

/-!
# Laws of the matcher

How each kind of pattern item consumes text: a literal consumes itself or fails, a greedy `+`
over a maximal run of its class first tries the whole run, a lazy `*` takes the shortest
stretch after which the rest matches, and a group captures what its items consumed. `search`
and `finditer` skip positions where nothing matches and resume after each match.
-/

namespace EventSystemAudit

theorem findSome?_range {β : Type} {f : ℕ → Option β} {j m : ℕ} {r : β} (hj : j < m)
    (hb : ∀ k < j, f k = none) (hf : f j = some r) : (List.range m).findSome? f = some r := by
  induction m with
  | zero => omega
  | succ m ih =>
    rw [List.range_succ, List.findSome?_append]
    rcases Nat.lt_succ_iff_lt_or_eq.1 hj with hj | rfl
    · rw [ih hj]; rfl
    · rw [List.findSome?_eq_none_iff.2 fun k hk => hb k (List.mem_range.1 hk)]
      simp [hf]

section
variable {rest : List Item} {o : Option (List Char)} {caps : List String}

theorem matchItems_lit (w s : List Char) :
    matchItems (w.map (fun c => Item.one (· == c)) ++ rest) o caps (w ++ s) =
      matchItems rest o caps s := by
  induction w with
  | nil => rfl
  | cons c w ih => simp [matchItems, ih]

theorem matchItems_lit_end (w s : List Char) :
    matchItems (w.map fun c => Item.one (· == c)) o caps (w ++ s) = some (s, caps) := by
  simpa using @matchItems_lit [] o caps w s

theorem matchItems_lit_none {w s : List Char} (h : ¬ List.IsPrefix w s) :
    matchItems (w.map (fun c => Item.one (· == c)) ++ rest) o caps s = none := by
  induction w generalizing s with
  | nil => exact absurd (List.nil_prefix) h
  | cons c w ih =>
    cases s with
    | nil => rfl
    | cons d s =>
      simp only [List.map_cons, List.cons_append, matchItems]
      split
      · next hd =>
        obtain rfl : d = c := by simpa using hd
        exact ih fun hp => h ((List.prefix_cons_inj d).2 hp)
      · rfl

theorem matchItems_plus {p : Char → Bool} {u t : List Char} (hu : ∀ c ∈ u, p c = true)
    (hne : u ≠ []) (ht : t.head?.all (fun d => !p d) = true) {r : List Char × List String}
    (hr : matchItems rest o caps t = some r) : matchItems (.plus p :: rest) o caps (u ++ t) = some r := by
  have hw : (u ++ t).takeWhile p = u := by
    rw [List.takeWhile_append_of_pos hu]
    cases t with
    | nil => simp
    | cons c t => simp_all [List.takeWhile_cons]
  obtain ⟨n, hn⟩ : ∃ n, u.length = n + 1 := Nat.exists_eq_succ_of_ne_zero (by simpa using hne)
  simp only [matchItems, hw, hn, List.range_succ, List.reverse_append, List.reverse_singleton,
    List.singleton_append, List.map_cons]
  rw [← hn, List.findSome?_cons_of_isSome _ (by rw [List.drop_left, hr]; rfl), List.drop_left, hr]

theorem matchItems_plus_one {p : Char → Bool} {c : Char} {t : List Char} (hc : p c = true)
    (ht : t.head?.all (fun d => !p d) = true) {r : List Char × List String}
    (hr : matchItems rest o caps t = some r) : matchItems (.plus p :: rest) o caps (c :: t) = some r :=
  @matchItems_plus rest o caps p [c] t (by simpa using hc) (List.cons_ne_nil _ _) ht r hr

/-- A lazy `*` takes the shortest stretch after which the rest of the pattern matches. -/
theorem matchItems_lazyStar {p : Char → Bool} {u t : List Char} (hu : ∀ c ∈ u, p c = true)
    (hfail : ∀ k < u.length, matchItems rest o caps ((u ++ t).drop k) = none)
    {r : List Char × List String} (hr : matchItems rest o caps t = some r) :
    matchItems (.lazyStar p :: rest) o caps (u ++ t) = some r := by
  simp only [matchItems]
  refine findSome?_range ?_ hfail (by rw [List.drop_left]; exact hr)
  rw [List.takeWhile_append_of_pos hu, List.length_append]
  omega

theorem matchItems_one_some {p : Char → Bool} {s : List Char} {r : List Char × List String}
    (h : matchItems (.one p :: rest) o caps s = some r) :
    ∃ c t, s = c :: t ∧ p c = true ∧ matchItems rest o caps t = some r := by
  cases s with
  | nil => cases h
  | cons c t =>
    simp only [matchItems] at h
    split at h
    · exact ⟨c, t, rfl, ‹_›, h⟩
    · cases h

theorem matchItems_plus_some {p : Char → Bool} {s : List Char} {r : List Char × List String}
    (h : matchItems (.plus p :: rest) o caps s = some r) :
    ∃ u t, s = u ++ t ∧ u ≠ [] ∧ (∀ c ∈ u, p c = true) ∧ matchItems rest o caps t = some r := by
  simp only [matchItems] at h
  obtain ⟨k, hk, hr⟩ := List.exists_of_findSome?_eq_some h
  simp only [List.mem_map, List.mem_reverse, List.mem_range] at hk
  obtain ⟨j, hj, rfl⟩ := hk
  have hle : j + 1 ≤ (s.takeWhile p).length := hj
  refine ⟨s.take (j + 1), s.drop (j + 1), (List.take_append_drop _ _).symm, ?_, fun c hc => ?_, hr⟩
  · simp only [ne_eq, List.take_eq_nil_iff, not_or]
    exact ⟨by omega, fun e => by simp [e] at hle⟩
  · rw [← List.takeWhile_append_dropWhile p s, List.take_append_of_le_length hle] at hc
    exact List.mem_takeWhile_imp (List.mem_of_mem_take hc)

theorem matchItems_groupClose_eq (s : List Char) :
    matchItems (.groupClose :: rest) o caps s = matchItems rest none (caps ++ [capture o s]) s := rfl

theorem matchItems_groupOpen (s : List Char) :
    matchItems (.groupOpen :: rest) o caps s = matchItems rest (some s) caps s := rfl

theorem matchItems_groupClose (u t : List Char) :
    matchItems (.groupClose :: rest) (some (u ++ t)) caps t =
      matchItems rest none (caps ++ [String.mk u]) t := by
  simp [matchItems, capture, List.take_left]

end

theorem matchAt_of_matchItems {pat : List Item} {x s : List Char} {caps : List String}
    (h : matchItems pat none [] (x ++ s) = some (s, caps)) : matchAt pat (x ++ s) = some ⟨x.length, caps⟩ := by
  simp [matchAt, h]

theorem search_of_matchAt {pat : List Item} {x : List Char} {m : Match}
    (h : matchAt pat x = some m) : search pat x = some m := by
  cases x <;> simp [search, h]

theorem search_append {pat : List Item} {pre s : List Char}
    (h : ∀ i < pre.length, matchAt pat (pre.drop i ++ s) = none) : search pat (pre ++ s) = search pat s := by
  induction pre with
  | nil => rfl
  | cons c pre ih =>
    have h0 := h 0 (by simp)
    simp only [List.drop_zero, List.cons_append] at h0
    rw [List.cons_append, search, h0]
    exact ih fun i hi => h (i + 1) (by simp; omega)

theorem findAllFrom_skip (pat : List Item) (xs ys : List Char) :
    findAllFrom pat xs.length (xs ++ ys) = findAllFrom pat 0 ys := by
  induction xs with
  | nil => rfl
  | cons x xs ih => exact ih

theorem findAllFrom_append {pat : List Item} {pre s : List Char}
    (h : ∀ i < pre.length, matchAt pat (pre.drop i ++ s) = none) :
    findAllFrom pat 0 (pre ++ s) = findAllFrom pat 0 s := by
  induction pre with
  | nil => rfl
  | cons c pre ih =>
    have h0 := h 0 (by simp)
    simp only [List.drop_zero, List.cons_append] at h0
    rw [List.cons_append, findAllFrom, h0]
    exact ih fun i hi => h (i + 1) (by simp; omega)

theorem findAllFrom_match {pat : List Item} {x s : List Char} {caps : List String} (hx : x ≠ [])
    (h : matchAt pat (x ++ s) = some ⟨x.length, caps⟩) :
    findAllFrom pat 0 (x ++ s) = ⟨x.length, caps⟩ :: findAllFrom pat 0 s := by
  cases x with
  | nil => exact absurd rfl hx
  | cons c x =>
    rw [List.cons_append] at h ⊢
    rw [findAllFrom, h]
    simp only [List.length_cons, Nat.add_sub_cancel]
    rw [findAllFrom_skip]

/-- The texts that open a body block and the `RawEvent` struct. -/
def bodyOpen : List Char := "body:json \x7b".toList

def structOpen : List Char := "type RawEvent struct \x7b".toList

theorem not_prefix_drop_append {inner : List Char} (h : ¬ List.IsInfix ['\n', '\x7d'] inner)
    {k : ℕ} (hk : k < inner.length) (post : List Char) :
    ¬ List.IsPrefix ['\n', '\x7d'] (inner.drop k ++ '\n' :: '\x7d' :: post) := by
  intro hp
  obtain ⟨c, d, hcd⟩ : ∃ c d, inner.drop k = c :: d := List.exists_cons_of_ne_nil (by simp; omega)
  rw [hcd] at hp
  cases d with
  | nil => simp at hp
  | cons e d =>
    obtain ⟨rfl, rfl⟩ : c = '\n' ∧ e = '\x7d' := by simpa [eq_comm] using hp
    exact h ((List.prefix_append ['\n', '\x7d'] d).isInfix.trans (hcd ▸ List.drop_suffix k inner).isInfix)

section
variable (opening : String)

theorem matchItems_blockPattern {inner : List Char} (h : ¬ List.IsInfix ['\n', '\x7d'] inner)
    (post : List Char) :
    matchItems (blockPattern opening) none [] (opening.toList ++ inner ++ '\n' :: '\x7d' :: post) =
      some (post, [String.mk inner]) := by
  simp only [blockPattern, lit, group, List.append_assoc, List.cons_append,
    List.singleton_append, List.nil_append]
  rw [matchItems_lit, matchItems_groupOpen]
  refine matchItems_lazyStar (fun _ _ => rfl) (fun k hk => ?_) ?_
  · rw [matchItems_groupClose_eq, List.drop_append_of_le_length hk.le]
    exact matchItems_lit_none (not_prefix_drop_append h hk post)
  · rw [matchItems_groupClose]
    exact matchItems_lit_end ['\n', '\x7d'] post

theorem search_blockPattern {inner : List Char} (h : ¬ List.IsInfix ['\n', '\x7d'] inner)
    (post : List Char) :
    search (blockPattern opening) (opening.toList ++ inner ++ '\n' :: '\x7d' :: post) =
      some ⟨(opening.toList ++ inner ++ ['\n', '\x7d']).length, [String.mk inner]⟩ := by
  have e : opening.toList ++ inner ++ '\n' :: '\x7d' :: post =
      (opening.toList ++ inner ++ ['\n', '\x7d']) ++ post := by
    simp
  rw [e]
  exact search_of_matchAt (matchAt_of_matchItems (by rw [← e]; exact matchItems_blockPattern opening h post))

theorem matchAt_blockPattern_none {x : List Char} (h : ¬ List.IsPrefix opening.toList x) :
    matchAt (blockPattern opening) x = none := by
  simp only [matchAt, Option.map_eq_none', blockPattern, lit, List.append_assoc]
  exact matchItems_lit_none h

theorem search_blockPattern_after {pre s : List Char}
    (hpre : ∀ i < pre.length, ¬ List.IsPrefix opening.toList (pre.drop i ++ opening.toList)) :
    search (blockPattern opening) (pre ++ opening.toList ++ s) =
      search (blockPattern opening) (opening.toList ++ s) := by
  rw [List.append_assoc]
  refine search_append fun i hi => matchAt_blockPattern_none opening fun hp => hpre i hi ?_
  rw [← List.append_assoc] at hp
  exact List.prefix_of_prefix_length_le hp (List.prefix_append _ _) (by simp)

end

theorem forall_drop_append {P : List Char → Prop} {a b c : List Char}
    (ha : ∀ i < a.length, P (a.drop i ++ (b ++ c))) (hb : ∀ i < b.length, P (b.drop i ++ c)) :
    ∀ i < (a ++ b).length, P ((a ++ b).drop i ++ c) := by
  intro i hi
  by_cases h : i < a.length
  · rw [List.drop_append_of_le_length h.le, List.append_assoc]
    exact ha i h
  · obtain ⟨j, rfl⟩ : ∃ j, i = a.length + j := ⟨i - a.length, by omega⟩
    rw [List.drop_append]
    exact hb j (by simp at hi; omega)

theorem not_prefix_bodyOpen_of_not_mem {a : List Char} (ha : 'b' ∉ a) (x : List Char) :
    ∀ i < a.length, ¬ List.IsPrefix bodyOpen (a.drop i ++ x) := by
  intro i hi hp
  obtain ⟨c, r, hcr⟩ := List.exists_cons_of_ne_nil (by simp; omega : a.drop i ≠ [])
  rw [hcr] at hp
  obtain ⟨rfl, -⟩ := List.cons_prefix_cons.1 (show List.IsPrefix ('b' :: _) (c :: (r ++ x)) from hp)
  exact ha (List.mem_of_mem_drop (hcr ▸ List.mem_cons_self _ _))

theorem not_prefix_of_newline {w x : List Char} (hw : '\n' ∉ w) (hx : ¬ List.IsInfix w x)
    (y : List Char) : ¬ List.IsPrefix w (x ++ '\n' :: y) := by
  rintro ⟨t, ht⟩
  rcases List.append_eq_append_iff.1 ht with ⟨a', rfl, -⟩ | ⟨c', rfl, hc⟩
  · exact hx (List.prefix_append w a').isInfix
  · cases c' with
    | nil => exact hx (by simp)
    | cons d c' =>
      obtain rfl : d = '\n' := (List.cons_eq_cons.1 (hc.trans (List.cons_append _ _ _))).1.symm
      exact hw (by simp)

theorem not_prefix_drop_append_self {w b : List Char} (hb : ¬ List.IsInfix w (b ++ w.dropLast)) :
    ∀ i < b.length, ¬ List.IsPrefix w (b.drop i ++ w) := by
  intro i hi hp
  rcases List.eq_nil_or_concat w with rfl | ⟨v, c, rfl⟩
  · exact hb (List.nil_infix)
  rw [List.concat_eq_append] at hp hb
  have hx : List.IsPrefix (v ++ [c]) (b.drop i ++ v) := by
    refine List.prefix_of_prefix_length_le hp ?_ (by simp; omega)
    exact ⟨[c], by rw [List.append_assoc]⟩
  rw [List.dropLast_concat] at hb
  exact hb (hx.isInfix.trans ⟨b.take i, [], by rw [List.append_nil, ← List.append_assoc, List.take_append_drop]⟩)

end EventSystemAudit

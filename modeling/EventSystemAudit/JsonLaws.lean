import EventSystemAudit.JsonDecode
import EventSystemAudit.PythonSetLaws

set_option autoImplicit false

/-!
# The decoder on compact JSON text

What `json.loads` makes of JSON written without whitespace, as the generator writes it: keys and
string values that need no escape, `true`, `false` and integers, an object of such members, and
an array of one such object. One lemma per value former reads the scanner routine on the text of
that former; the member loop is read by induction on the members.
-/

namespace EventSystemAudit

/-- Text a JSON string literal holds verbatim: no quote, no backslash, no control character. -/
def PlainText (s : List Char) : Prop := ∀ c ∈ s, c ≠ '"' ∧ c ≠ '\\' ∧ 0x1f < c.toNat

instance (s : List Char) : Decidable (PlainText s) := inferInstanceAs (Decidable (∀ c ∈ s, _))

theorem skipWs_cons {c : Char} (hc : isJsonSpace c = false) (i : ℕ) (r : List Char) :
    skipWs i (c :: r) = (i, c :: r) := by
  simp [skipWs, hc]

/-! ## Strings -/

theorem scanStr_quote (begin i : ℕ) (rest acc : List Char) :
    scanStr begin i ('"' :: rest) acc = .ok (String.mk acc, i + 1, rest) := by
  delta scanStr; simp

theorem scanStr_char (begin i : ℕ) {c : Char} (hq : c ≠ '"') (hb : c ≠ '\\') (hc : 0x1f < c.toNat)
    (rest acc : List Char) : scanStr begin i (c :: rest) acc = scanStr begin (i + 1) rest (acc ++ [c]) := by
  delta scanStr; dsimp only; rw [if_neg hq, if_neg hb, if_neg (by omega)]

theorem scanStr_plain (begin : ℕ) {s : List Char} (hs : PlainText s) (i : ℕ) (rest acc : List Char) :
    scanStr begin i (s ++ '"' :: rest) acc = .ok (String.mk (acc ++ s), i + s.length + 1, rest) := by
  induction s generalizing i acc with
  | nil => simpa using scanStr_quote begin i rest acc
  | cons c s ih =>
    obtain ⟨⟨hq, hb, hc⟩, hs⟩ := List.forall_mem_cons.1 hs
    rw [List.cons_append, scanStr_char begin i hq hb hc, ih hs]
    simp only [List.append_assoc, List.singleton_append, List.length_cons]
    congr 3; omega

/-! ## Integers -/

theorem isDigit_cases {d : Char} (hd : isDigit d = true) :
    d = '0' ∨ d = '1' ∨ d = '2' ∨ d = '3' ∨ d = '4' ∨ d = '5' ∨ d = '6' ∨ d = '7' ∨ d = '8' ∨
      d = '9' := by
  simp only [isDigit, Bool.and_eq_true, decide_eq_true_eq] at hd
  have h1 : 48 ≤ d.toNat := hd.1
  have h2 : d.toNat ≤ 57 := hd.2
  rw [← Char.ofNat_toNat d]
  interval_cases d.toNat <;> simp

theorem isJsonSpace_of_isDigit {d : Char} (hd : isDigit d = true) : isJsonSpace d = false := by
  rcases isDigit_cases hd with rfl | rfl | rfl | rfl | rfl | rfl | rfl | rfl | rfl | rfl <;> rfl

/-- `D` is the decimal text of `n` as `str` writes it: digits, and no leading zero. -/
structure Decimal (D : List Char) (n : ℕ) : Prop where
  ne_nil : D ≠ []
  digits : ∀ c ∈ D, isDigit c = true
  value : digitsValue D = n
  noLeadingZero : D.head? = some '0' → D = ['0']

theorem digitChar_digit {k : ℕ} (hk : k < 10) :
    isDigit (Nat.digitChar k) = true ∧ (Nat.digitChar k).toNat - 48 = k ∧
      (Nat.digitChar k = '0' → k = 0) := by
  interval_cases k <;> decide

theorem digitsValue_append_singleton (D : List Char) (c : Char) :
    digitsValue (D ++ [c]) = 10 * digitsValue D + (c.toNat - 48) := by
  simp [digitsValue, List.foldl_append]

theorem toDigitsCore_decimal (f : ℕ) :
    ∀ n ds, n < f → ∃ D, Nat.toDigitsCore 10 f n ds = D ++ ds ∧ Decimal D n := by
  induction f with
  | zero => intro n ds h; omega
  | succ f ih =>
    intro n ds hn
    obtain ⟨hdig, hval, hzero⟩ := digitChar_digit (Nat.mod_lt n (by norm_num : 10 > 0))
    simp only [Nat.toDigitsCore]
    split
    · next h =>
      refine ⟨[Nat.digitChar (n % 10)], rfl, ⟨by simp, by simpa using hdig, ?_, fun h0 => by simpa using h0⟩⟩
      simp [digitsValue, hval]; omega
    · next h =>
      obtain ⟨D, hD, hdec⟩ := ih (n / 10) (Nat.digitChar (n % 10) :: ds) (by omega)
      refine ⟨D ++ [Nat.digitChar (n % 10)], by simp [hD], ⟨by simp, ?_, ?_, ?_⟩⟩
      · simpa [or_imp, forall_and] using ⟨hdec.digits, hdig⟩
      · rw [digitsValue_append_singleton, hdec.value, hval]; omega
      · intro h0
        rw [List.head?_append_of_ne_nil _ hdec.ne_nil] at h0
        have := hdec.value
        rw [hdec.noLeadingZero h0] at this
        simp [digitsValue] at this; omega

theorem toDigits_decimal (n : ℕ) : Decimal (Nat.toDigits 10 n) n := by
  obtain ⟨D, hD, hdec⟩ := toDigitsCore_decimal (n + 1) n [] (by omega)
  rw [Nat.toDigits, hD, List.append_nil]; exact hdec

theorem numberSign_minus (r : List Char) : numberSign ('-' :: r) = (true, r) := by
  simp [numberSign]

theorem numberSign_digit {d : Char} (hd : isDigit d = true) (r : List Char) :
    numberSign (d :: r) = (false, d :: r) := by
  rcases isDigit_cases hd with rfl | rfl | rfl | rfl | rfl | rfl | rfl | rfl | rfl | rfl <;> rfl

def Delim (d : Char) : Prop := d = ',' ∨ d = '}' ∨ d = ']'

theorem Delim.not_digit {e : Char} (he : Delim e) : isDigit e = false := by
  rcases he with rfl | rfl | rfl <;> rfl

theorem intDigits_decimal {D : List Char} {n : ℕ} (hD : Decimal D n) {e : Char} (he : Delim e)
    (rest : List Char) : intDigits (D ++ e :: rest) = some (D, e :: rest) := by
  obtain ⟨d, ds, rfl⟩ := List.exists_cons_of_ne_nil hD.ne_nil
  have hds : ∀ c ∈ ds, isDigit c = true := fun c hc => hD.digits c (.tail _ hc)
  have hrest : (ds ++ e :: rest).takeWhile isDigit = ds ∧ (ds ++ e :: rest).dropWhile isDigit = e :: rest := by
    rw [List.takeWhile_append_of_pos hds, List.dropWhile_append_of_pos hds]
    simp [List.takeWhile_cons, List.dropWhile_cons, he.not_digit]
  rcases isDigit_cases (hD.digits d (.head _)) with rfl | h
  · obtain rfl : ds = [] := by simpa using hD.noLeadingZero rfl
    rfl
  · have h19 : '1' ≤ d ∧ d ≤ '9' := by
      rcases h with rfl | rfl | rfl | rfl | rfl | rfl | rfl | rfl | rfl <;> decide
    simp [intDigits, h19, hrest]

theorem fracDigits_delim {e : Char} (he : Delim e) (rest : List Char) :
    fracDigits (e :: rest) = ([], e :: rest) := by
  rcases he with rfl | rfl | rfl <;> rfl

theorem scanExponent_delim {e : Char} (he : Delim e) (rest : List Char) :
    scanExponent (e :: rest) = (none, e :: rest) := by
  rcases he with rfl | rfl | rfl <;> rfl

/-- The digit limit of `int` does not refuse `D`. -/
def WithinDigitLimit (rt : Runtime) (D : List Char) : Prop :=
  ¬ (0 < rt.intMaxStrDigits ∧ rt.intMaxStrDigits < D.length)

instance (rt : Runtime) (D : List Char) : Decidable (WithinDigitLimit rt D) :=
  inferInstanceAs (Decidable (¬ _))

theorem scanNumber_decimal (rt : Runtime) (i : ℕ) {cs D : List Char} {n : ℕ} {neg : Bool}
    {e : Char} {rest : List Char} (hs : numberSign cs = (neg, D ++ e :: rest)) (hD : Decimal D n)
    (he : Delim e) (hlim : WithinDigitLimit rt D) :
    scanNumber rt i cs =
      .ok (.int (if neg then -(n : ℤ) else n), i + (cs.length - (rest.length + 1)), e :: rest) := by
  unfold scanNumber
  simp only [hs, intDigits_decimal hD he, fracDigits_delim he, scanExponent_delim he]
  rw [if_neg hlim, hD.value]
  rfl

/-! ## Values -/

theorem scanValue_quote (rt : Runtime) (fuel depth i : ℕ) (r : List Char) :
    scanValue rt (fuel + 1) depth i ('"' :: r) = (scanStr i (i + 1) r []).map fun (s, j, t) => (.str s, j, t) := by
  cases depth <;> rfl

theorem scanValue_digit (rt : Runtime) {d : Char} (hd : isDigit d = true) (fuel depth i : ℕ)
    (r : List Char) : scanValue rt (fuel + 1) depth i (d :: r) = scanNumber rt i (d :: r) := by
  rcases isDigit_cases hd with rfl | rfl | rfl | rfl | rfl | rfl | rfl | rfl | rfl | rfl <;>
    cases depth <;> rfl

theorem scanValue_minus (rt : Runtime) {d : Char} (hd : isDigit d = true) (fuel depth i : ℕ)
    (r : List Char) : scanValue rt (fuel + 1) depth i ('-' :: d :: r) = scanNumber rt i ('-' :: d :: r) := by
  rcases isDigit_cases hd with rfl | rfl | rfl | rfl | rfl | rfl | rfl | rfl | rfl | rfl <;>
    cases depth <;> rfl

/-- `txt` is the compact text of `v`: it starts with no whitespace, and with one unit of fuel the
    scanner reads exactly `txt` as `v`, whatever delimiter follows. -/
structure ScansAs (rt : Runtime) (txt : List Char) (v : PyVal) : Prop where
  starts : ∀ i r, skipWs i (txt ++ r) = (i, txt ++ r)
  scan : ∀ fuel depth i e rest, Delim e →
    scanValue rt (fuel + 1) depth i (txt ++ e :: rest) = .ok (v, i + txt.length, e :: rest)

theorem scansAs_str (rt : Runtime) {s : List Char} (hs : PlainText s) :
    ScansAs rt ('"' :: s ++ ['"']) (.str (String.mk s)) where
  starts i r := skipWs_cons (by rfl) i _
  scan fuel depth i e rest _ := by
    have h : ('"' :: s ++ ['"']) ++ e :: rest = '"' :: (s ++ '"' :: e :: rest) := by simp
    rw [h, scanValue_quote, scanStr_plain i hs]
    simp only [ok_map, List.length_cons, List.length_append, List.length_nil, List.nil_append,
      Except.ok.injEq, Prod.mk.injEq, true_and, and_true]
    omega

theorem scansAs_bool (rt : Runtime) (b : Bool) :
    ScansAs rt (if b then "true" else "false").toList (.bool b) where
  starts i r := by cases b <;> exact skipWs_cons (by rfl) i _
  scan fuel depth i e rest _ := by cases b <;> cases depth <;> rfl

theorem scansAs_decimal (rt : Runtime) {D : List Char} {m : ℕ} (hD : Decimal D m)
    (hlim : WithinDigitLimit rt D) : ScansAs rt D (.int m) ∧ ScansAs rt ('-' :: D) (.int (-(m : ℤ))) := by
  obtain ⟨d, ds, rfl⟩ := List.exists_cons_of_ne_nil hD.ne_nil
  have hd : isDigit d = true := hD.digits d (.head _)
  refine ⟨⟨fun i r => skipWs_cons (isJsonSpace_of_isDigit hd) i _, fun fuel depth i e rest he => ?_⟩,
    ⟨fun i r => skipWs_cons (by rfl) i _, fun fuel depth i e rest he => ?_⟩⟩
  · rw [List.cons_append, scanValue_digit rt hd,
      scanNumber_decimal rt i (numberSign_digit hd (ds ++ e :: rest)) hD he hlim]
    simp; omega
  · rw [List.cons_append, List.cons_append, scanValue_minus rt hd,
      scanNumber_decimal rt i (numberSign_minus (d :: (ds ++ e :: rest))) hD he hlim]
    simp; omega

theorem scansAs_int (rt : Runtime) (n : ℤ) (hlim : WithinDigitLimit rt (Nat.toDigits 10 n.natAbs)) :
    ScansAs rt (toString n).toList (.int n) := by
  cases n with
  | ofNat m => exact (scansAs_decimal rt (toDigits_decimal m) hlim).1
  | negSucc m =>
    have h := (scansAs_decimal rt (toDigits_decimal (m + 1)) hlim).2
    rwa [Nat.cast_succ, ← Int.negSucc_eq] at h

/-! ## Objects and arrays -/

def memberText (k txt : List Char) : List Char := '"' :: k ++ '"' :: ':' :: txt

/-- A member of a compact object, with what makes the scanner read it back. -/
structure CompactMember (rt : Runtime) where
  key : List Char
  text : List Char
  value : PyVal
  plainKey : PlainText key
  scans : ScansAs rt text value

namespace CompactMember

variable {rt : Runtime}

def memberText (m : CompactMember rt) : List Char := EventSystemAudit.memberText m.key m.text

end CompactMember

/-- The members after the first, each after its comma, as `",".join` writes them. -/
def tailText {rt : Runtime} : List (CompactMember rt) → List Char
  | [] => []
  | m :: ms => ',' :: m.memberText ++ tailText ms

/-- `d[k] = v` for each member in order. -/
def setAll {rt : Runtime} (ms : List (CompactMember rt)) (d : List (String × PyVal)) :
    List (String × PyVal) :=
  ms.foldl (fun d m => dictSet d (String.mk m.key) m.value) d

theorem scanMembers_member {rt : Runtime} (m : CompactMember rt) {e : Char} (he : e = ',' ∨ e = '}')
    (fuel depth i : ℕ) (rest : List Char) (acc : List (String × PyVal)) :
    scanMembers rt (fuel + 2) depth i (m.memberText ++ e :: rest) acc =
      if e = '}' then .ok (.dict (dictSet acc (String.mk m.key) m.value), i + m.memberText.length + 1, rest)
      else scanMembers rt (fuel + 1) depth (skipWs (i + m.memberText.length + 1) rest).1
        (skipWs (i + m.memberText.length + 1) rest).2 (dictSet acc (String.mk m.key) m.value) := by
  have h : m.memberText ++ e :: rest = '"' :: (m.key ++ '"' :: ':' :: (m.text ++ e :: rest)) := by
    simp [CompactMember.memberText, EventSystemAudit.memberText]
  rw [h]
  conv_lhs => whnf
  have hd : Delim e := by rcases he with rfl | rfl <;> simp [Delim]
  rw [scanStr_plain i m.plainKey]
  simp only [List.nil_append, skipWs_cons (show isJsonSpace ':' = false from rfl), m.scans.starts,
    m.scans.scan _ _ _ _ _ hd, ok_bind]
  have hlen : i + 1 + m.key.length + 1 + 1 + m.text.length = i + m.memberText.length := by
    simp [CompactMember.memberText, EventSystemAudit.memberText]; omega
  rcases he with rfl | rfl
  · simp [skipWs_cons (show isJsonSpace ',' = false from rfl), hlen]
  · simp [skipWs_cons (show isJsonSpace '}' = false from rfl), hlen]

theorem dictSet_new {β : Type} {d : List (String × β)} {k : String} (h : k ∉ d.map Prod.fst) (v : β) :
    dictSet d k v = d ++ [(k, v)] := by
  have : d.any (·.1 = k) = false := by
    simp only [List.any_eq_false, decide_eq_true_eq]
    intro kv hkv e
    exact h (e ▸ List.mem_map_of_mem _ hkv)
  simp [dictSet, this]

theorem foldl_dictSet_nodup {β : Type} (kvs : List (String × β)) (d : List (String × β))
    (h : (d.map Prod.fst ++ kvs.map Prod.fst).Nodup) : kvs.foldl (fun d kv => dictSet d kv.1 kv.2) d = d ++ kvs := by
  induction kvs generalizing d with
  | nil => simp
  | cons kv kvs ih =>
    have hk : kv.1 ∉ d.map Prod.fst := fun hm => (List.nodup_append.1 h).2.2 hm (.head _)
    rw [List.foldl_cons, dictSet_new hk, ih]
    · simp
    · simpa [List.append_assoc] using h

theorem setAll_eq {rt : Runtime} (ms : List (CompactMember rt)) (d : List (String × PyVal)) :
    setAll ms d = (ms.map fun m => (String.mk m.key, m.value)).foldl (fun d kv => dictSet d kv.1 kv.2) d := by
  simp [setAll, List.foldl_map]

theorem CompactMember.skipWs_memberText {rt : Runtime} (m : CompactMember rt) (i : ℕ) (r : List Char) :
    skipWs i (m.memberText ++ r) = (i, m.memberText ++ r) :=
  skipWs_cons (by rfl) i _

theorem length_le_tailText {rt : Runtime} (ms : List (CompactMember rt)) :
    ms.length ≤ (tailText ms).length := by
  induction ms with
  | nil => simp [tailText]
  | cons m ms ih => simp only [tailText, List.length_cons, List.length_append]; omega

theorem scanMembers_compact {rt : Runtime} (m : CompactMember rt) (ms : List (CompactMember rt))
    (fuel depth i : ℕ) (rest : List Char) (acc : List (String × PyVal)) :
    scanMembers rt (fuel + 2 * (ms.length + 1)) depth i (m.memberText ++ tailText ms ++ '}' :: rest) acc =
      .ok (.dict (setAll (m :: ms) acc), i + (m.memberText ++ tailText ms).length + 1, rest) := by
  induction ms generalizing m fuel i acc with
  | nil => simpa [tailText, setAll] using scanMembers_member m (.inr rfl) fuel depth i rest acc
  | cons m' ms ih =>
    have e : m.memberText ++ tailText (m' :: ms) ++ '}' :: rest =
        m.memberText ++ ',' :: (m'.memberText ++ tailText ms ++ '}' :: rest) := by
      simp [tailText]
    have f : fuel + 2 * ((m' :: ms).length + 1) = fuel + 2 * (ms.length + 1) + 2 := by
      simp only [List.length_cons]; omega
    rw [e, f, scanMembers_member m (.inl rfl), if_neg (by decide), List.append_assoc,
      m'.skipWs_memberText, ← List.append_assoc, show fuel + 2 * (ms.length + 1) + 1 =
        fuel + 1 + 2 * (ms.length + 1) by omega, ih]
    simp only [setAll, List.foldl_cons, tailText, List.length_append, List.length_cons,
      Except.ok.injEq, Prod.mk.injEq, and_true, true_and]
    omega

theorem scanValue_brace_quote (rt : Runtime) (fuel depth i : ℕ) (r : List Char) :
    scanValue rt (fuel + 1) (depth + 1) i ('{' :: '"' :: r) = scanMembers rt fuel depth (i + 1) ('"' :: r) [] :=
  rfl

theorem scanValue_bracket_brace (rt : Runtime) (fuel depth i : ℕ) (r : List Char) :
    scanValue rt (fuel + 1) (depth + 1) i ('[' :: '{' :: r) = scanElems rt fuel depth (i + 1) ('{' :: r) [] :=
  rfl

theorem scanElems_last {rt : Runtime} {fuel depth i j : ℕ} {cs rest : List Char} {v : PyVal}
    (h : scanValue rt fuel depth i cs = .ok (v, j, ']' :: rest)) (acc : List PyVal) :
    scanElems rt (fuel + 1) depth i cs acc = .ok (.list (acc ++ [v]), j + 1, rest) := by
  conv_lhs => whnf
  rw [h]
  simp only [skipWs_cons (show isJsonSpace ']' = false from rfl)]

theorem scanValue_object {rt : Runtime} (m : CompactMember rt) (ms : List (CompactMember rt))
    (fuel depth i : ℕ) (rest : List Char) :
    scanValue rt (fuel + 2 * (ms.length + 1) + 1) (depth + 1) i
        ('{' :: (m.memberText ++ tailText ms ++ '}' :: rest)) =
      .ok (.dict (setAll (m :: ms) []), i + (m.memberText ++ tailText ms).length + 2, rest) := by
  obtain ⟨r, hr⟩ : ∃ r, m.memberText ++ tailText ms ++ '}' :: rest = '"' :: r := ⟨_, rfl⟩
  rw [hr, scanValue_brace_quote, ← hr, scanMembers_compact]
  simp only [Except.ok.injEq, Prod.mk.injEq, and_true, true_and]; omega

theorem scanValue_array_object {rt : Runtime} (m : CompactMember rt) (ms : List (CompactMember rt))
    (fuel depth i : ℕ) (rest : List Char) :
    scanValue rt (fuel + 2 * (ms.length + 1) + 3) (depth + 2) i
        ('[' :: '{' :: (m.memberText ++ tailText ms ++ '}' :: ']' :: rest)) =
      .ok (.list [.dict (setAll (m :: ms) [])], i + (m.memberText ++ tailText ms).length + 4, rest) := by
  rw [scanValue_bracket_brace]
  rw [scanElems_last (scanValue_object m ms fuel depth (i + 1) _)]
  simp only [List.nil_append, Except.ok.injEq, Prod.mk.injEq, and_true, true_and]; omega

theorem jsonLoads_of_scan {rt : Runtime} {s : List Char} {c : Char} {r : List Char} {v : PyVal} {j : ℕ}
    (hs : s = c :: r) (hc : c ≠ '\uFEFF') (hsp : isJsonSpace c = false)
    (h : scanValue rt (2 * s.length + 1) rt.jsonDepth 0 s = .ok (v, j, [])) : jsonLoads rt s = .ok v := by
  subst hs
  unfold jsonLoads
  rw [if_neg (by simpa using hc)]
  simp only [skipWs_cons hsp, h]
  rfl

theorem jsonLoads_object {rt : Runtime} (hd : 1 ≤ rt.jsonDepth) (m : CompactMember rt)
    (ms : List (CompactMember rt)) :
    jsonLoads rt ('{' :: (m.memberText ++ tailText ms ++ ['}'])) = .ok (.dict (setAll (m :: ms) [])) := by
  obtain ⟨d, hd⟩ := Nat.exists_eq_add_of_le' hd
  have hlen := length_le_tailText ms
  obtain ⟨f, hf⟩ : ∃ f, 2 * ('{' :: (m.memberText ++ tailText ms ++ ['}'])).length + 1 =
      f + 2 * (ms.length + 1) + 1 := ⟨2 * (m.memberText ++ tailText ms).length + 4 - 2 * (ms.length + 1), by
    simp only [List.length_cons, List.length_append, List.length_singleton] at hlen ⊢
    simp [CompactMember.memberText, EventSystemAudit.memberText]; omega⟩
  exact jsonLoads_of_scan rfl (by decide) rfl (by rw [hf, hd]; exact scanValue_object m ms f d 0 [])

theorem jsonLoads_array_object {rt : Runtime} (hd : 2 ≤ rt.jsonDepth) (m : CompactMember rt)
    (ms : List (CompactMember rt)) :
    jsonLoads rt ('[' :: '{' :: (m.memberText ++ tailText ms ++ ['}', ']'])) =
      .ok (.list [.dict (setAll (m :: ms) [])]) := by
  obtain ⟨d, hd⟩ := Nat.exists_eq_add_of_le' hd
  have hlen := length_le_tailText ms
  obtain ⟨f, hf⟩ : ∃ f, 2 * ('[' :: '{' :: (m.memberText ++ tailText ms ++ ['}', ']'])).length + 1 =
      f + 2 * (ms.length + 1) + 3 := ⟨2 * (m.memberText ++ tailText ms).length + 6 - 2 * (ms.length + 1), by
    simp only [List.length_cons, List.length_append, List.length_singleton] at hlen ⊢
    simp [CompactMember.memberText, EventSystemAudit.memberText]; omega⟩
  exact jsonLoads_of_scan rfl (by decide) rfl (by rw [hf, hd]; exact scanValue_array_object m ms f d 0 [])

end EventSystemAudit

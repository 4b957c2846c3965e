import EventSystemAudit.BrunoGenerator
import EventSystemAudit.JsonLaws
import EventSystemAudit.LoaderLaws

set_option autoImplicit false

/-!
# Generated files and the loader

The generator writes the payload as the JSON text of a one-element array holding the object
`{"type": t, ...payload}`, and for plain strings, booleans and integers that text is exact: the
decoder reads the array back. A string with a quote or a backslash is pasted as it is: the text is
then not JSON, or decodes to other strings and other members. The loader finds that body, decodes it, and then calls `get` on the
array, which a list does not have: every generated file is reported as unparsable and kept out
of the corpus.
-/

namespace EventSystemAudit

/-- A payload value of the kinds the round trip is about: a string with nothing to escape, a
    `bool`, or an `int` whose decimal text `int()` reads within the digit limit. -/
def SimpleValue (rt : Runtime) : PyVal → Prop
  | .str s => PlainText s.toList
  | .bool _ => True
  | .int n => WithinDigitLimit rt (Nat.toDigits 10 n.natAbs)
  | _ => False

/-- The JSON text `generate_bru_file` writes for a simple value. -/
def valueText : PyVal → List Char
  | .str s => '"' :: s.toList ++ ['"']
  | .bool b => (if b then "true" else "false").toList
  | .int n => (toString n).toList
  | _ => []

theorem jsonPart_simple {rt : Runtime} (key : String) {v : PyVal} (hv : SimpleValue rt v) :
    jsonPart key v = some (String.mk (memberText key.toList (valueText v))) := by
  cases v <;> simp_all [SimpleValue, jsonPart, valueText, memberText, String.ext_iff]

theorem scansAs_simple (rt : Runtime) {v : PyVal} (hv : SimpleValue rt v) : ScansAs rt (valueText v) v := by
  cases v with
  | str s => exact scansAs_str rt hv
  | bool b => exact scansAs_bool rt b
  | int n => exact scansAs_int rt n hv
  | _ => exact absurd hv id

instance (rt : Runtime) : (v : PyVal) → Decidable (SimpleValue rt v)
  | .str s => inferInstanceAs (Decidable (PlainText s.toList))
  | .bool _ => isTrue trivial
  | .int n => inferInstanceAs (Decidable (WithinDigitLimit rt (Nat.toDigits 10 n.natAbs)))
  | .none | .float _ | .list _ | .dict _ => isFalse id

def SimplePayload (rt : Runtime) (p : List (String × PyVal)) : Prop :=
  ∀ kv ∈ p, PlainText kv.1.toList ∧ SimpleValue rt kv.2

instance (rt : Runtime) (p : List (String × PyVal)) : Decidable (SimplePayload rt p) :=
  inferInstanceAs (Decidable (∀ kv ∈ p, _))

/-- The member `"type":"t"` that `json_parts` starts with. -/
def typeMember (rt : Runtime) {t : String} (ht : PlainText t.toList) : CompactMember rt :=
  ⟨"type".toList, '"' :: t.toList ++ ['"'], .str t, by decide, scansAs_str rt ht⟩

def payloadMembers (rt : Runtime) {p : List (String × PyVal)} (hp : SimplePayload rt p) :
    List (CompactMember rt) :=
  p.attach.map fun ⟨kv, h⟩ => ⟨kv.1.toList, valueText kv.2, kv.2, (hp kv h).1, scansAs_simple rt (hp kv h).2⟩

theorem payloadMembers_map (rt : Runtime) {p : List (String × PyVal)} (hp : SimplePayload rt p)
    {β : Type} (f : List Char → List Char → PyVal → β) :
    (payloadMembers rt hp).map (fun m => f m.key m.text m.value) =
      p.map fun kv => f kv.1.toList (valueText kv.2) kv.2 := by
  simp only [payloadMembers, List.map_map]
  exact List.attach_map_val p (fun kv => f kv.1.toList (valueText kv.2) kv.2)

theorem intercalate_go_data (s acc : String) (as : List String) :
    (String.intercalate.go acc s as).data = acc.data ++ (as.map fun a => s.data ++ a.data).flatten := by
  induction as generalizing acc with
  | nil => simp [String.intercalate.go]
  | cons a as ih => simp [String.intercalate.go, ih]

theorem tailText_eq {rt : Runtime} (ms : List (CompactMember rt)) :
    tailText ms = (ms.map fun m => ',' :: m.memberText).flatten := by
  induction ms with
  | nil => rfl
  | cons m ms ih => simp [tailText, ih]

theorem jsonBody_data (rt : Runtime) {t : String} (ht : PlainText t.toList) {p : List (String × PyVal)}
    (hp : SimplePayload rt p) :
    (jsonBody t p).data =
      '[' :: '{' :: ((typeMember rt ht).memberText ++ tailText (payloadMembers rt hp) ++ ['}', ']']) := by
  have hparts : p.filterMap (fun kv => jsonPart kv.1 kv.2) =
      p.map fun kv => String.mk (memberText kv.1.toList (valueText kv.2)) := by
    rw [← List.filterMap_eq_map]
    induction p with
    | nil => rfl
    | cons kv p ih =>
      obtain ⟨hkv, hp⟩ := List.forall_mem_cons.1 hp
      simp only [List.filterMap_cons, jsonPart_simple kv.1 hkv.2, Function.comp_apply, ih hp]
  have htail : tailText (payloadMembers rt hp) =
      (p.map fun kv => ',' :: memberText kv.1.toList (valueText kv.2)).flatten := by
    rw [tailText_eq]
    exact congrArg List.flatten (payloadMembers_map rt hp fun k txt _ => ',' :: memberText k txt)
  simp [jsonBody, jsonParts, hparts, String.intercalate, intercalate_go_data, htail,
    CompactMember.memberText, typeMember, memberText, Function.comp_def]

theorem jsonLoads_jsonBody {rt : Runtime} (hd : 2 ≤ rt.jsonDepth) {t : String} (ht : PlainText t.toList)
    {p : List (String × PyVal)} (hp : SimplePayload rt p) :
    jsonLoads rt (jsonBody t p).data = .ok (.list [.dict (setAll (typeMember rt ht :: payloadMembers rt hp) [])]) := by
  rw [jsonBody_data rt ht hp]
  exact jsonLoads_array_object hd _ _

theorem setAll_generated {rt : Runtime} {t : String} (ht : PlainText t.toList) {p : List (String × PyVal)}
    (hp : SimplePayload rt p) (hkeys : ("type" :: p.map Prod.fst).Nodup) :
    setAll (typeMember rt ht :: payloadMembers rt hp) [] = ("type", .str t) :: p := by
  have hid : p.map (fun kv => (String.mk kv.1.toList, kv.2)) = p := List.map_id'' (fun _ => rfl) p
  rw [setAll_eq, List.map_cons, payloadMembers_map rt hp (fun k _ v => (String.mk k, v)), hid,
    foldl_dictSet_nodup _ _ (by simpa [typeMember] using hkeys)]
  rfl

/-- `json_body` is a JSON text whose value is the one-element array of `{'type': t}` followed by the
    payload's entries, when the type, the keys and the strings hold nothing to escape. -/
theorem jsonBody_decodes {rt : Runtime} (hd : 2 ≤ rt.jsonDepth) {t : String} (ht : PlainText t.toList)
    {p : List (String × PyVal)} (hp : SimplePayload rt p) (hkeys : ("type" :: p.map Prod.fst).Nodup) :
    jsonLoads rt (jsonBody t p).data = .ok (.list [.dict (("type", .str t) :: p)]) := by
  rw [jsonLoads_jsonBody hd ht hp, setAll_generated ht hp hkeys]

/-- `EVENT_PAYLOADS["chat"]`. -/
def chatPayload : List (String × PyVal) :=
  [("player_guid", .str "\x7b\x7bguid\x7d\x7d"), ("message", .str "gg wp"), ("team_only", .bool false)]

theorem jsonBody_decodes_chat :
    SimplePayload asciiRuntime chatPayload ∧ ("type" :: chatPayload.map Prod.fst).Nodup ∧
      jsonLoads asciiRuntime (jsonBody "chat" chatPayload).data =
        .ok (.list [.dict (("type", .str "chat") :: chatPayload)]) :=
  ⟨by decide, by decide, jsonBody_decodes (by decide) (by decide) (by decide) (by decide)⟩

/-- Strings are written without escaping: a backslash followed by `n` is read back as a line feed,
    a quote inside a word ends the string early so the text is not JSON, and a quote that closes
    the string and opens a member adds a key to the event. -/
theorem jsonBody_unescaped :
    jsonLoads asciiRuntime (jsonBody "chat" [("message", .str "gg\\nwp")]).data =
        .ok (.list [.dict [("type", .str "chat"), ("message", .str "gg\nwp")]]) ∧
      (∃ e, jsonLoads asciiRuntime (jsonBody "chat" [("message", .str "say \"gg\"")]).data = .error e) ∧
      jsonLoads asciiRuntime (jsonBody "chat" [("message", .str "gg\",\"team_only\":\"true")]).data =
        .ok (.list [.dict [("type", .str "chat"), ("message", .str "gg"), ("team_only", .str "true")]]) :=
  ⟨rfl, ⟨_, rfl⟩, rfl⟩

theorem isDigit_printable {c : Char} (h : isDigit c = true) : 0x1f < c.toNat := by
  rcases isDigit_cases h with rfl | rfl | rfl | rfl | rfl | rfl | rfl | rfl | rfl | rfl <;> decide

/-! ## Printable payloads -/

theorem toString_nat_printable (n : ℕ) : ∀ c ∈ (toString n).data, 0x1f < c.toNat :=
  fun c hc => isDigit_printable ((toDigits_decimal n).digits c hc)

theorem intText_printable (n : ℤ) : ∀ c ∈ (toString n).data, 0x1f < c.toNat := by
  cases n with
  | ofNat m => exact toString_nat_printable m
  | negSucc m => exact List.forall_mem_cons.2 ⟨by decide, toString_nat_printable (m + 1)⟩

theorem digitText_printable {l : List ℕ} (hl : ∀ d ∈ l, d < 10) :
    ∀ c ∈ (String.mk (l.map PyFloat.digitChar)).data, 0x1f < c.toNat := by
  intro c hc
  obtain ⟨d, hd, rfl⟩ := List.mem_map.1 hc
  rw [PyFloat.digitChar, toNat_ofNat_of_lt (by have := hl d hd; omega)]
  omega

theorem layout_printable {ds : List ℕ} (hds : ∀ d ∈ ds, d < 10) (decpt : ℤ) :
    ∀ c ∈ (PyFloat.layout ds decpt).data, 0x1f < c.toNat := by
  have hexp : ∀ e : ℤ, ∀ c ∈ (PyFloat.exponentText e).data, 0x1f < c.toNat := by
    intro e
    simp only [PyFloat.exponentText, String.data_append, List.forall_mem_append]
    exact ⟨⟨by split <;> decide, by split <;> decide⟩, toString_nat_printable _⟩
  have hzeros : ∀ n : ℕ, ∀ c ∈ (String.mk (List.replicate n '0')).data, 0x1f < c.toNat := by
    intro n c hc
    rw [List.eq_of_mem_replicate hc]; decide
  unfold PyFloat.layout
  split_ifs
  · -- the exponent form
    simp only [String.data_append, List.forall_mem_append]
    refine ⟨⟨?_, by decide⟩, hexp _⟩
    split
    · simp only [String.data_append, List.forall_mem_append]
      exact ⟨⟨digitText_printable fun x hx => hds x (List.mem_singleton.1 hx ▸ .head _), by decide⟩,
        digitText_printable fun x hx => hds x (.tail _ hx)⟩
    · exact digitText_printable hds
  · simp only [String.data_append, List.forall_mem_append]
    exact ⟨⟨by decide, hzeros _⟩, digitText_printable hds⟩
  · simp only [String.data_append, List.forall_mem_append]
    exact ⟨⟨digitText_printable hds, hzeros _⟩, by decide⟩
  · simp only [String.data_append, List.forall_mem_append]
    exact ⟨⟨digitText_printable fun x hx => hds x (List.mem_of_mem_take hx), by decide⟩,
      digitText_printable fun x hx => hds x (List.mem_of_mem_drop hx)⟩

theorem repr_printable (f : PyFloat) : ∀ c ∈ f.repr.data, 0x1f < c.toNat := by
  cases f with
  | nan => decide
  | inf neg => cases neg <;> decide
  | finite neg m e =>
    simp only [PyFloat.repr, String.data_append, List.forall_mem_append]
    refine ⟨by split <;> decide, ?_⟩
    split
    · decide
    · unfold PyFloat.positiveRepr
      generalize PyFloat.shortest (PyFloat.magnitude m e) = cs
      obtain ⟨c, s⟩ := cs
      refine layout_printable (fun d hd => ?_) _
      exact Nat.digits_lt_base (by norm_num) (List.mem_reverse.1 (List.mem_of_mem_take hd))

def PrintableValue : PyVal → Prop
  | .str s => ∀ c ∈ s.toList, 0x1f < c.toNat
  | _ => True

instance : (v : PyVal) → Decidable (PrintableValue v)
  | .str s => inferInstanceAs (Decidable (∀ c ∈ s.toList, _))
  | .none | .bool _ | .int _ | .float _ | .list _ | .dict _ => isTrue trivial

def PrintablePayload (p : List (String × PyVal)) : Prop :=
  ∀ kv ∈ p, (∀ c ∈ kv.1.toList, 0x1f < c.toNat) ∧ PrintableValue kv.2

instance (p : List (String × PyVal)) : Decidable (PrintablePayload p) :=
  inferInstanceAs (Decidable (∀ kv ∈ p, _))

theorem SimplePayload.printable {rt : Runtime} {p : List (String × PyVal)} (hp : SimplePayload rt p) :
    PrintablePayload p := fun kv hkv => by
  obtain ⟨hk, hv⟩ := hp kv hkv
  refine ⟨fun c hc => (hk c hc).2.2, ?_⟩
  obtain ⟨k, v⟩ := kv
  cases v with
  | str s => exact fun c hc => (hv c hc).2.2
  | _ => trivial

theorem jsonPart_printable {key : String} (hk : ∀ c ∈ key.toList, 0x1f < c.toNat) {v : PyVal}
    (hv : PrintableValue v) {s : String} (h : jsonPart key v = some s) : ∀ c ∈ s.data, 0x1f < c.toNat := by
  have hq : ∀ c ∈ ("\"" ++ key).data, 0x1f < c.toNat := by
    simp only [String.data_append, List.forall_mem_append]; exact ⟨by decide, hk⟩
  cases v <;> simp only [jsonPart, Option.some.injEq, reduceCtorEq] at h <;> subst h <;>
    simp only [String.data_append, List.forall_mem_append] at hq ⊢
  case bool b => exact ⟨⟨hq, by decide⟩, by split <;> decide⟩
  case int n => exact ⟨⟨hq, by decide⟩, intText_printable n⟩
  case float f => exact ⟨⟨hq, by decide⟩, repr_printable f⟩
  case str s => exact ⟨⟨⟨hq, by decide⟩, hv⟩, by decide⟩

theorem intercalate_printable {sep : String} (hsep : ∀ c ∈ sep.data, 0x1f < c.toNat) {parts : List String}
    (h : ∀ s ∈ parts, ∀ c ∈ s.data, 0x1f < c.toNat) : ∀ c ∈ (sep.intercalate parts).data, 0x1f < c.toNat := by
  cases parts with
  | nil => simp [String.intercalate]
  | cons a as =>
    rw [String.intercalate, intercalate_go_data]
    refine List.forall_mem_append.2 ⟨h a (.head _), fun c hc => ?_⟩
    obtain ⟨l, hl, hc⟩ := List.mem_flatten.1 hc
    obtain ⟨s, hs, rfl⟩ := List.mem_map.1 hl
    exact List.forall_mem_append.2 ⟨hsep, h s (.tail _ hs)⟩ c hc

theorem jsonBody_printable {t : String} (ht : ∀ c ∈ t.toList, 0x1f < c.toNat) {p : List (String × PyVal)}
    (hp : PrintablePayload p) : ∀ c ∈ (jsonBody t p).data, 0x1f < c.toNat := by
  have hparts : ∀ s ∈ jsonParts t p, ∀ c ∈ s.data, 0x1f < c.toNat := by
    simp only [jsonParts, List.forall_mem_cons, List.mem_filterMap]
    refine ⟨?_, ?_⟩
    · simp only [String.data_append, List.forall_mem_append]; exact ⟨⟨by decide, ht⟩, by decide⟩
    · rintro s ⟨kv, hkv, hs⟩
      exact jsonPart_printable (hp kv hkv).1 (hp kv hkv).2 hs
  simp only [jsonBody, String.data_append, List.forall_mem_append]
  exact ⟨⟨by decide, intercalate_printable (by decide) hparts⟩, by decide⟩

/-! ## The generated file -/

structure PlainEventType (t : String) : Prop where
  plain : PlainText t.toList
  ascii : ∀ c ∈ t.toList, c.toNat < 128

theorem PlainEventType.printable {t : String} (ht : PlainEventType t) :
    ∀ c ∈ t.toList, 0x1f < c.toNat ∧ c.toNat < 128 :=
  fun c hc => ⟨(ht.plain c hc).2.2, ht.ascii c hc⟩

theorem displayName_printable (rt : Runtime) {t : String} (ht : PlainEventType t) :
    ∀ c ∈ (displayName rt t).data, 0x1f < c.toNat :=
  titleFrom_printable rt (replaceChar_printable ht.printable) false []

theorem displayName_no_bodyOpen (rt : Runtime) {t : String} (ht : PlainEventType t) :
    ¬ List.IsInfix bodyOpen (displayName rt t).data := fun h =>
  title_no_colon_j rt (fun c hc => (replaceChar_printable ht.printable c hc).2)
    ((show List.IsInfix [':', 'j'] bodyOpen from ⟨"body".toList, "son \x7b".toList, rfl⟩).trans h)

theorem typeName_printable (v : PyVal) : ∀ c ∈ v.typeName.data, 0x1f < c.toNat := by
  cases v <;> simp only [PyVal.typeName] <;> decide

theorem fieldLines_chars {p : List (String × PyVal)} (hk : ∀ kv ∈ p, ∀ c ∈ kv.1.toList, 0x1f < c.toNat) :
    ∀ c ∈ (fieldLines p).data, c = '\n' ∨ 0x1f < c.toNat := by
  have hline : ∀ kv ∈ p, ∀ c ∈ ("  - \x60" ++ kv.1 ++ "\x60: " ++ kv.2.typeName).data, 0x1f < c.toNat := by
    intro kv hkv
    simp only [String.data_append, List.forall_mem_append]
    exact ⟨⟨⟨by decide, hk kv hkv⟩, by decide⟩, typeName_printable kv.2⟩
  unfold fieldLines
  cases p with
  | nil => simp [String.intercalate]
  | cons kv ps =>
    simp only [List.map_cons, String.intercalate, intercalate_go_data, List.forall_mem_append]
    refine ⟨fun c hc => .inr (hline kv (.head _) c hc), fun c hc => ?_⟩
    obtain ⟨l, hl, hc⟩ := List.mem_flatten.1 hc
    obtain ⟨a, ha, rfl⟩ := List.mem_map.1 hl
    obtain ⟨kv', hkv', rfl⟩ := List.mem_map.1 ha
    rcases List.mem_append.1 hc with hc | hc
    · exact .inl (by simpa using hc)
    · exact .inr (hline kv' (.tail _ hkv') c hc)

set_option maxRecDepth 4000 in
theorem generateBruFile_no_cr (rt : Runtime) {t : String} (ht : PlainEventType t)
    {p : List (String × PyVal)} (hp : PrintablePayload p) : '\r' ∉ (generateBruFile rt t p).data := by
  have h : ∀ c ∈ (generateBruFile rt t p).data, c = '\n' ∨ 0x1f < c.toNat := by
    have hD : ∀ c ∈ (displayName rt t).data, c = '\n' ∨ 0x1f < c.toNat :=
      fun c hc => .inr (displayName_printable rt ht c hc)
    have hT : ∀ c ∈ t.data, c = '\n' ∨ 0x1f < c.toNat := fun c hc => .inr (ht.printable c hc).1
    simp only [generateBruFile, String.data_append, List.forall_mem_append]
    refine ⟨⟨⟨⟨⟨⟨⟨⟨⟨⟨⟨⟨⟨⟨by decide, hD⟩, by decide⟩, fun c hc => .inr (jsonBody_printable (fun c hc => (ht.printable c hc).1) hp c hc)⟩,
      by decide⟩, hD⟩, by decide⟩, hT⟩, by decide⟩, fun c hc => .inr ?_⟩, by decide⟩, fieldLines_chars fun kv hkv => (hp kv hkv).1⟩,
      by decide⟩, hT⟩, by decide⟩
    exact (replaceChar_printable ht.printable c hc).1
  intro hm
  rcases h _ hm with h | h
  · exact absurd h (by decide)
  · exact absurd h (by decide)

set_option maxRecDepth 4000 in
theorem generateBruFile_body_block (rt : Runtime) (t : String) (p : List (String × PyVal)) :
    ∃ post, (generateBruFile rt t p).data =
      (metaOpen.data ++ (displayName rt t).data ++ requestBlocks.data.take 177) ++ bodyOpen ++
        ("\n  ".data ++ (jsonBody t p).data) ++ '\n' :: '\x7d' :: post := by
  simp only [generateBruFile, String.data_append]
  generalize hR : requestBlocks.data.take 177 = R
  have hreq : requestBlocks.data = R ++ bodyOpen ++ "\n  ".data := by rw [← hR]; decide
  have htests : testsBlock.data = '\n' :: '\x7d' :: testsBlock.data.drop 2 := by decide
  rw [hreq, htests]
  simp only [List.append_assoc, List.cons_append]
  exact ⟨_, rfl⟩

set_option maxRecDepth 4000 in
theorem generateBruFile_front (rt : Runtime) {t : String} (ht : PlainEventType t) :
    ∀ i < (metaOpen.data ++ (displayName rt t).data ++ requestBlocks.data.take 177).length,
      ¬ List.IsPrefix bodyOpen
        ((metaOpen.data ++ (displayName rt t).data ++ requestBlocks.data.take 177).drop i ++ bodyOpen) := by
  refine @forall_drop_append (fun x => ¬ List.IsPrefix bodyOpen x) _ _ _ ?_
    (not_prefix_drop_append_self (by decide))
  refine @forall_drop_append (fun x => ¬ List.IsPrefix bodyOpen x) _ _ _
    (not_prefix_bodyOpen_of_not_mem (by decide) _) fun i _ => ?_
  obtain ⟨r, hr⟩ : ∃ r, requestBlocks.data.take 177 = '\n' :: r := ⟨_, rfl⟩
  rw [hr, List.cons_append]
  exact not_prefix_of_newline (by decide)
    (fun h => displayName_no_bodyOpen rt ht (h.trans (List.drop_suffix i _).isInfix)) _

theorem bodyText?_generated (rt : Runtime) {t : String} (ht : PlainEventType t) {p : List (String × PyVal)}
    (hp : PrintablePayload p) : bodyText? (generateBruFile rt t p) = some (jsonBody t p).data := by
  obtain ⟨post, hpost⟩ := generateBruFile_body_block rt t p
  have hJ : (jsonBody t p).data = '[' :: '\x7b' :: ((",".intercalate (jsonParts t p)).data ++ ['\x7d', ']']) := by
    simp [jsonBody]
  refine bodyText?_line hpost (generateBruFile_no_cr rt ht hp) (generateBruFile_front rt ht)
    (fun h => absurd (jsonBody_printable (fun c hc => (ht.printable c hc).1) hp _ h) (by decide)) (by rw [hJ]; rfl) ?_
  rw [hJ, List.getLast?_cons, List.getLast?_cons, List.getLast?_append_of_ne_nil _ (by simp)]
  rfl

theorem bodyText?_generateBruFile (rt : Runtime) {t : String} (ht : PlainEventType t)
    {p : List (String × PyVal)} (hp : SimplePayload rt p) :
    bodyText? (generateBruFile rt t p) = some (jsonBody t p).data :=
  bodyText?_generated rt ht hp.printable

/-- A generated file, read by the loader from any state: its body is the JSON array of
    `{'type': t}` followed by the payload, and `get` on that array raises, so the file is
    recorded as unparsable and leaves no sample. -/
theorem loadBruFile_generated {rt : Runtime} (hd : 2 ≤ rt.jsonDepth) {t : String} (ht : PlainEventType t)
    {p : List (String × PyVal)} (hp : SimplePayload rt p) (hkeys : ("type" :: p.map Prod.fst).Nodup)
    (a : Auditor) (name : String) :
    bodyText? (generateBruFile rt t p) = some (jsonBody t p).data ∧
      jsonLoads rt (jsonBody t p).data = .ok (.list [.dict (("type", .str t) :: p)]) ∧
      loadBruFile rt a ⟨name, .ok (generateBruFile rt t p)⟩ =
        .ok (a.addError (failedToParse name (.attribute "list" "get"))) := by
  have hb := bodyText?_generateBruFile rt ht hp
  have hj := jsonLoads_jsonBody hd ht.plain hp
  rw [setAll_generated ht.plain hp hkeys] at hj
  refine ⟨hb, hj, ?_⟩
  simp [loadBruFile, parseBruFile, hb, hj, eventOfPayload, recordFailure, PyException.isException,
    Auditor.addError, failedToParse, PyVal.typeName]

/-- The file the generator writes for `game_end`, loaded by a fresh auditor. -/
theorem loadBruFile_generated_game_end :
    bodyText? (generateBruFile asciiRuntime "game_end" gameEndPayload) =
        some (jsonBody "game_end" gameEndPayload).data ∧
      jsonLoads asciiRuntime (jsonBody "game_end" gameEndPayload).data =
        .ok (.list [.dict (("type", .str "game_end") :: gameEndPayload)]) ∧
      loadBruFile asciiRuntime .init ⟨"Game End.bru", .ok (generateBruFile asciiRuntime "game_end" gameEndPayload)⟩ =
        .ok (Auditor.init.addError (failedToParse "Game End.bru" (.attribute "list" "get"))) :=
  loadBruFile_generated (by decide) ⟨by decide, by decide⟩ (by decide) (by decide) .init "Game End.bru"

end EventSystemAudit

import EventSystemAudit.PythonValue
import Mathlib.Data.List.Perm.Basic

set_option autoImplicit false

/-!
# Laws of sets and `sorted`

A `PySet` is determined by its elements; membership is membership of the normal form. `sorted`
succeeds exactly on values that are pairwise comparable, and then permutes them.
-/

namespace EventSystemAudit

section
variable {ε α β : Type}

@[simp] theorem ok_bind (a : α) (f : α → Except ε β) : (Except.ok a >>= f) = f a := rfl

@[simp] theorem error_bind (e : ε) (f : α → Except ε β) : (Except.error e >>= f) = .error e := rfl

@[simp] theorem except_pure (a : α) : (pure a : Except ε α) = .ok a := rfl

@[simp] theorem ok_map (a : α) (f : α → β) : (Except.ok a : Except ε α).map f = .ok (f a) := rfl

@[simp] theorem error_map (e : ε) (f : α → β) : (Except.error e : Except ε α).map f = .error e := rfl

theorem bind_eq_ok {x : Except ε α} {f : α → Except ε β} {b : β} (h : (x >>= f) = .ok b) :
    ∃ a, x = .ok a ∧ f a = .ok b := by
  cases x with
  | error e => cases h
  | ok a => exact ⟨a, rfl, h⟩

theorem foldlM_inv {σ : Type} {P : σ → Prop} {f : σ → α → Except ε σ}
    (hf : ∀ s a s', P s → f s a = .ok s' → P s') :
    ∀ (l : List α) (s s' : σ), P s → l.foldlM f s = .ok s' → P s'
  | [], _, _, hs, h => by cases h; exact hs
  | a :: l, s, s', hs, h => by
    rw [List.foldlM_cons] at h
    obtain ⟨s₁, h₁, h⟩ := bind_eq_ok h
    exact foldlM_inv hf l s₁ s' (hf s a s₁ hs h₁) h

/-- A second run of a loop against a first one that returns: when each step of the first run can
    be taken from a related state, the second run returns too, related to the first at the end.
    `G` says what a state of the first run knows of where that run ends; a step keeps it backwards. -/
theorem foldlM_replay {σ : Type} {G : σ → Prop} {R : σ → σ → Prop} {f : σ → α → Except ε σ}
    (hG : ∀ s a s', f s a = .ok s' → G s' → G s)
    (hf : ∀ s₁ s₂ a s₁', R s₁ s₂ → f s₁ a = .ok s₁' → G s₁' → ∃ s₂', f s₂ a = .ok s₂' ∧ R s₁' s₂') :
    ∀ (l : List α) (s₁ s₁' : σ), G s₁' → l.foldlM f s₁ = .ok s₁' →
      G s₁ ∧ ∀ s₂, R s₁ s₂ → ∃ s₂', l.foldlM f s₂ = .ok s₂' ∧ R s₁' s₂'
  | [], _, _, hG', h => by cases h; exact ⟨hG', fun s₂ hs => ⟨s₂, rfl, hs⟩⟩
  | a :: l, s₁, s₁', hG', h => by
    rw [List.foldlM_cons] at h
    obtain ⟨t, ht, h⟩ := bind_eq_ok h
    obtain ⟨hGt, hrest⟩ := foldlM_replay hG hf l t s₁' hG' h
    refine ⟨hG s₁ a t ht hGt, fun s₂ hs => ?_⟩
    obtain ⟨t₂, ht₂, hR⟩ := hf s₁ s₂ a t hs ht hGt
    obtain ⟨s₂', h₂, hR'⟩ := hrest t₂ hR
    exact ⟨s₂', by rw [List.foldlM_cons, ht₂, ok_bind, h₂], hR'⟩

theorem mapM_cons_ok {f : α → Except ε β} {x : α} {xs : List α} {ys : List β}
    (h : (x :: xs).mapM f = .ok ys) : ∃ y ys', f x = .ok y ∧ xs.mapM f = .ok ys' ∧ ys = y :: ys' := by
  rw [List.mapM_cons] at h
  obtain ⟨y, hy, h⟩ := bind_eq_ok h
  obtain ⟨ys', hys, h⟩ := bind_eq_ok h
  exact ⟨y, ys', hy, hys, (Except.ok.inj h).symm⟩

theorem mapM_ok_forall₂ {f : α → Except ε β} {xs : List α} {ys : List β} (h : xs.mapM f = .ok ys) :
    List.Forall₂ (fun x y => f x = .ok y) xs ys := by
  induction xs generalizing ys with
  | nil => cases h; exact .nil
  | cons x xs ih =>
    obtain ⟨y, ys', hy, hys, rfl⟩ := mapM_cons_ok h
    exact .cons hy (ih hys)

theorem mapM_ok_mem {f : α → Except ε β} {xs : List α} {ys : List β} (h : xs.mapM f = .ok ys)
    {x : α} (hx : x ∈ xs) : ∃ y ∈ ys, f x = .ok y := by
  induction xs generalizing ys with
  | nil => cases hx
  | cons x' xs ih =>
    obtain ⟨y, ys', hy, hys, rfl⟩ := mapM_cons_ok h
    rcases List.mem_cons.1 hx with rfl | hx
    · exact ⟨y, .head _, hy⟩
    · obtain ⟨z, hz, hfz⟩ := ih hys hx
      exact ⟨z, .tail _ hz, hfz⟩

theorem mapM_ok_of_subset {f : α → Except ε β} {xs zs : List α} {ys : List β} (h : xs.mapM f = .ok ys)
    (hsub : ∀ z ∈ zs, z ∈ xs) : ∃ ws, zs.mapM f = .ok ws := by
  induction zs with
  | nil => exact ⟨[], rfl⟩
  | cons z zs ih =>
    obtain ⟨y, -, hy⟩ := mapM_ok_mem h (hsub z (.head _))
    obtain ⟨ws, hws⟩ := ih fun w hw => hsub w (.tail _ hw)
    exact ⟨y :: ws, by rw [List.mapM_cons, hy, hws]; rfl⟩

theorem mapM_ok_of_exists {f : α → Except ε β} {P : β → Prop} {xs : List α}
    (h : ∀ x ∈ xs, ∃ y, f x = .ok y ∧ P y) : ∃ ys, xs.mapM f = .ok ys ∧ ∀ y ∈ ys, P y := by
  induction xs with
  | nil => exact ⟨[], rfl, by simp⟩
  | cons x xs ih =>
    obtain ⟨y, hy, hP⟩ := h x (.head _)
    obtain ⟨ys, hys, hPs⟩ := ih fun x' hx' => h x' (.tail _ hx')
    exact ⟨y :: ys, by rw [List.mapM_cons, hy, hys]; rfl, List.forall_mem_cons.2 ⟨hP, hPs⟩⟩

end

namespace PySet

theorem mem_congr (s : PySet) {j k : PyKey} (h : j.norm = k.norm) : s.mem j = s.mem k := by
  simp [mem, PyKey.eqv, h]

theorem ext {s t : PySet} (h : s.elems = t.elems) : s = t := by
  cases s; cases t; simp only [mk.injEq]; exact h

theorem insert_elems (s : PySet) (k : PyKey) :
    (s.insert k).elems = if s.mem k then s.elems else s.elems ++ [k] := by
  unfold insert; split <;> simp_all

theorem insert_of_mem {s : PySet} {k : PyKey} (h : s.mem k = true) : s.insert k = s := by
  simp [insert, h]

theorem mem_insert (s : PySet) (k j : PyKey) :
    (s.insert k).mem j = true ↔ s.mem j = true ∨ j.norm = k.norm := by
  rw [mem_iff, mem_iff, insert_elems]
  split
  · next h => rw [mem_iff] at h; constructor <;> [exact .inl; rintro (h' | h')] <;> simp_all
  · simp

@[simp] theorem mem_empty (k : PyKey) : empty.mem k = false := rfl

theorem mem_diff (s t : PySet) (k : PyKey) :
    (s.diff t).mem k = true ↔ s.mem k = true ∧ t.mem k = false := by
  simp only [mem_iff, diff, List.map_filter' _ , List.mem_map, List.mem_filter, Bool.not_eq_true',
    Bool.not_eq_eq_eq_not, Bool.not_true]
  constructor
  · rintro ⟨x, ⟨hx, hxt⟩, hn⟩
    exact ⟨⟨x, hx, hn⟩, t.mem_congr hn ▸ hxt⟩
  · rintro ⟨⟨x, hx, hn⟩, ht⟩
    exact ⟨x, ⟨hx, t.mem_congr hn ▸ ht⟩, hn⟩

def ofKeys (ks : List PyKey) : PySet := ks.foldl insert empty

theorem foldl_insert_mem (ks : List PyKey) (s : PySet) (j : PyKey) :
    (ks.foldl insert s).mem j = true ↔ s.mem j = true ∨ ∃ k ∈ ks, j.norm = k.norm := by
  induction ks generalizing s with
  | nil => simp
  | cons k ks ih => simp [ih, mem_insert, or_assoc]

theorem foldl_insert_of_mem {ks : List PyKey} {s : PySet} (h : ∀ k ∈ ks, s.mem k = true) :
    ks.foldl insert s = s := by
  induction ks with
  | nil => rfl
  | cons k ks ih =>
    rw [List.foldl_cons, insert_of_mem (h k (.head _))]
    exact ih fun j hj => h j (.tail _ hj)

theorem foldl_insert_self (ks : List PyKey) (s : PySet) :
    ks.foldl insert (ks.foldl insert s) = ks.foldl insert s :=
  foldl_insert_of_mem fun k hk => (foldl_insert_mem ks s k).2 (.inr ⟨k, hk, rfl⟩)

theorem mem_of_mem_elems {s : PySet} {k : PyKey} (hk : k ∈ s.elems) : s.mem k = true :=
  List.any_eq_true.2 ⟨k, hk, by simp⟩

theorem mem_of_diff_nil {s t : PySet} (h : (s.diff t).elems = []) {k : PyKey} (hk : s.mem k = true) :
    t.mem k = true := by
  by_contra hn
  have := (mem_diff s t k).2 ⟨hk, by simpa using hn⟩
  simp [mem, h] at this

theorem mem_eq_of_diff_nil {s t : PySet} (h₁ : (s.diff t).elems = []) (h₂ : (t.diff s).elems = [])
    (k : PyKey) : s.mem k = t.mem k :=
  Bool.eq_iff_iff.2 ⟨mem_of_diff_nil h₁, mem_of_diff_nil h₂⟩

theorem foldl_insert_sublist (ks : List PyKey) (s : PySet) : List.Sublist (ks.foldl insert s).elems (s.elems ++ ks) := by
  induction ks generalizing s with
  | nil => simp
  | cons k ks ih =>
    refine (ih _).trans ?_
    rw [insert_elems]
    split
    · exact (List.sublist_cons_self k ks).append_left _
    · simp

theorem ofKeys_sublist (ks : List PyKey) : List.Sublist (ofKeys ks).elems ks := foldl_insert_sublist ks empty

end PySet

/-- The three kinds of hashable values `<` distinguishes. -/
inductive Kind where
  | none
  | num
  | str
  deriving DecidableEq

def PyKey.kind (k : PyKey) : Kind :=
  match k.norm with
  | .none => .none
  | .num _ => .num
  | .str _ => .str

theorem PyKey.eq_of_norm_eq {j k : PyKey} (hj : j.kind = .str) (h : j.norm = k.norm) : j = k := by
  cases j <;> cases k <;> simp_all [PyKey.kind, PyKey.norm]

theorem PyVal.toVal_of_toKey? {v : PyVal} {k : PyKey} (h : v.toKey? = some k) : k.toVal = v := by
  cases v <;> simp [PyVal.toKey?] at h <;> subst h <;> rfl

namespace PySet

theorem mem_elems {s : PySet} (hs : ∀ k ∈ s.elems, k.kind = .str) {k : PyKey} (hk : s.mem k = true) :
    k ∈ s.elems := by
  obtain ⟨x, hx, hxk⟩ := List.any_eq_true.1 hk
  rwa [← PyKey.eq_of_norm_eq (hs x hx) (PyKey.eqv_iff.1 hxk)]

theorem elems_perm_of_mem_eq {s t : PySet} (ht : ∀ k ∈ t.elems, k.kind = .str)
    (h : ∀ k, s.mem k = t.mem k) : s.elems.Perm t.elems := by
  have hs : ∀ k ∈ s.elems, k.kind = .str := fun k hk => ht k (mem_elems ht (h k ▸ mem_of_mem_elems hk))
  refine (List.perm_ext_iff_of_nodup (s.distinct.of_map _) (t.distinct.of_map _)).2 fun k =>
    ⟨fun hk => ?_, fun hk => ?_⟩
  · exact mem_elems ht (h k ▸ mem_of_mem_elems hk)
  · exact mem_elems hs ((h k).symm ▸ mem_of_mem_elems hk)

end PySet

/-- Values `sorted` can order: any two of one kind, and not `None`. -/
def Sortable (l : List PyKey) : Prop := l.Pairwise fun a b => a.kind = b.kind ∧ a.kind ≠ .none

instance (l : List PyKey) : Decidable (Sortable l) := inferInstanceAs (Decidable (List.Pairwise _ l))

theorem lt?_ok_iff (a b : PyKey) :
    (∃ v, a.lt? b = .ok v) ↔ a.kind = b.kind ∧ a.kind ≠ .none := by
  unfold PyKey.lt? PyKey.kind
  cases a.norm <;> cases b.norm <;> simp

theorem insertSorted_ok {k : PyKey} {acc : List PyKey}
    (h : ∀ x ∈ acc, k.kind = x.kind ∧ k.kind ≠ .none) :
    ∃ l, insertSorted k acc = .ok l ∧ l.Perm (k :: acc) := by
  induction acc with
  | nil => exact ⟨[k], rfl, .refl _⟩
  | cons x xs ih =>
    obtain ⟨v, hv⟩ := (lt?_ok_iff k x).2 (h x (.head _))
    obtain ⟨l, hl, hp⟩ := ih fun y hy => h y (.tail _ hy)
    cases v
    · exact ⟨x :: l, by simp [insertSorted, hv, hl], (hp.cons x).trans (.swap k x xs)⟩
    · exact ⟨k :: x :: xs, by simp [insertSorted, hv], .refl _⟩

theorem insertSorted_perm {k : PyKey} {acc l : List PyKey} (h : insertSorted k acc = .ok l) :
    l.Perm (k :: acc) := by
  induction acc generalizing l with
  | nil => cases h; exact .refl _
  | cons x xs ih =>
    unfold insertSorted at h
    cases hv : k.lt? x with
    | error e => simp [hv] at h
    | ok v =>
      cases v
      · simp only [hv] at h
        cases hs : insertSorted k xs with
        | error e => simp [hs] at h
        | ok l' => simp [hs] at h; cases h; exact ((ih hs).cons x).trans (.swap k x xs)
      · simp [hv] at h; cases h; exact .refl _

theorem insertSorted_head {k x : PyKey} {xs l : List PyKey} (h : insertSorted k (x :: xs) = .ok l) :
    k.kind = x.kind ∧ k.kind ≠ .none := by
  refine (lt?_ok_iff k x).1 ?_
  unfold insertSorted at h
  cases hv : k.lt? x with
  | error e => simp [hv] at h
  | ok v => exact ⟨v, rfl⟩

theorem Sortable.kind_eq {l : List PyKey} (h : Sortable l) {x y : PyKey} (hx : x ∈ l) (hy : y ∈ l) :
    x.kind = y.kind := by
  by_cases hxy : x = y
  · rw [hxy]
  · exact (h.imp fun r => r.1).forall (fun _ _ e => e.symm) hx hy hxy

theorem sortable_iff_of_perm {l l' : List PyKey} (h : (l.map PyKey.kind).Perm (l'.map PyKey.kind)) :
    Sortable l ↔ Sortable l' := by
  have key : ∀ m : List PyKey, Sortable m ↔ (m.map PyKey.kind).Pairwise fun a b => a = b ∧ a ≠ .none :=
    fun m => by unfold Sortable; rw [List.pairwise_map]
  rw [key, key]
  exact h.pairwise_iff fun ⟨e, n⟩ => ⟨e.symm, e ▸ n⟩

theorem foldlM_insertSorted_ok {l : List PyKey} :
    ∀ {acc p : List PyKey}, acc.Perm p → Sortable (p ++ l) →
      ∃ l', l.foldlM (fun acc k => insertSorted k acc) acc = .ok l' ∧ l'.Perm (p ++ l) := by
  induction l with
  | nil => intro acc p hp _; exact ⟨acc, rfl, by simpa using hp⟩
  | cons k l ih =>
    intro acc p hp hs
    have hk : ∀ x ∈ acc, k.kind = x.kind ∧ k.kind ≠ .none := fun x hx => by
      obtain ⟨e, n⟩ := (List.pairwise_append.1 hs).2.2 x (hp.subset hx) k (.head _)
      exact ⟨e.symm, e ▸ n⟩
    obtain ⟨acc', hins, hperm⟩ := insertSorted_ok hk
    obtain ⟨l', hl', hp'⟩ := ih (hperm.trans ((hp.cons k).trans (List.perm_append_singleton k p).symm))
      (by simpa using hs)
    exact ⟨l', by simp [hins, hl'], by simpa using hp'⟩

theorem foldlM_insertSorted_sortable {l : List PyKey} :
    ∀ {acc p l' : List PyKey}, acc.Perm p → Sortable p →
      l.foldlM (fun acc k => insertSorted k acc) acc = .ok l' → Sortable (p ++ l) ∧ l'.Perm (p ++ l) := by
  induction l with
  | nil => intro acc p l' hp hs h; cases h; exact ⟨by simpa using hs, by simpa using hp⟩
  | cons k l ih =>
    intro acc p l' hp hs h
    obtain ⟨acc', hins, hrest⟩ := bind_eq_ok h
    have hs' : Sortable (p ++ [k]) := by
      refine List.pairwise_append.2 ⟨hs, List.pairwise_singleton _ _, fun y hy j hj => ?_⟩
      rw [List.mem_singleton.1 hj]
      cases acc with
      | nil => simp [(List.Perm.nil_eq hp).symm] at hy
      | cons x xs =>
        obtain ⟨e, n⟩ := insertSorted_head hins
        have hx : x ∈ p := hp.subset (.head _)
        rw [hs.kind_eq hy hx, ← e]
        exact ⟨rfl, n⟩
    have := ih ((insertSorted_perm hins).trans ((hp.cons k).trans (List.perm_append_singleton k p).symm)) hs' hrest
    simpa using this

theorem pySorted_ok_iff (l : List PyKey) : (∃ l', pySorted l = .ok l') ↔ Sortable l := by
  constructor
  · rintro ⟨l', h⟩
    simpa using (foldlM_insertSorted_sortable (List.Perm.refl []) List.Pairwise.nil h).1
  · intro h
    obtain ⟨l', hl', -⟩ := foldlM_insertSorted_ok (List.Perm.refl []) (by simpa using h)
    exact ⟨l', hl'⟩

theorem pySorted_perm {l l' : List PyKey} (h : pySorted l = .ok l') : l'.Perm l := by
  simpa using (foldlM_insertSorted_sortable (List.Perm.refl []) List.Pairwise.nil h).2

end EventSystemAudit

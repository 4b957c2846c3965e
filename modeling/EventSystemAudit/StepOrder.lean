import EventSystemAudit.PythonSetLaws
import Mathlib.Data.List.Forall2

set_option autoImplicit false

/-!
# Steps run in another order

A step maps a state to a new state or raises. Two outcomes agree up to a relation on states when
both raise or both return related states. Steps that respect the relation and commute pairwise
give one outcome, up to the relation, in every order (`runSteps_perm`).
-/

namespace EventSystemAudit

section
variable {α β ε : Type} (R : α → α → Prop)

/-- Two outcomes that agree up to `R`: both raise, or both return related values. -/
inductive OutcomeRel : Except ε α → Except ε α → Prop
  | ok {a b : α} : R a b → OutcomeRel (.ok a) (.ok b)
  | error (e e' : ε) : OutcomeRel (.error e) (.error e')

/-- Two steps that take related states to related outcomes. -/
def Related (f g : α → Except ε α) : Prop := ∀ a b, R a b → OutcomeRel R (f a) (g b)

/-- A step that takes related states to related outcomes. -/
def Congruent (f : α → Except ε α) : Prop := Related R f f

/-- Two steps whose outcome, from one state, does not depend on their order. -/
def Commute (f g : α → Except ε α) : Prop := ∀ a, OutcomeRel R (f a >>= g) (g a >>= f)

variable {R}

theorem OutcomeRel.bind {R' : β → β → Prop} {x y : Except ε α} (h : OutcomeRel R x y)
    {f g : α → Except ε β} (hf : ∀ a b, R a b → OutcomeRel R' (f a) (g b)) :
    OutcomeRel R' (x >>= f) (y >>= g) := by
  cases h with
  | ok h => exact hf _ _ h
  | error => exact .error _ _

theorem OutcomeRel.map {R' : β → β → Prop} {x y : Except ε α} (h : OutcomeRel R x y) {f g : α → β}
    (hf : ∀ a b, R a b → R' (f a) (g b)) : OutcomeRel R' (x.map f) (y.map g) := by
  cases h with
  | ok h => exact .ok (hf _ _ h)
  | error => exact .error _ _

theorem OutcomeRel.bind_right (x : Except ε α) {f g : α → Except ε α} (h : ∀ a, OutcomeRel R (f a) (g a)) :
    OutcomeRel R (x >>= f) (x >>= g) := by
  cases x
  · exact .error _ _
  · exact h _

def runSteps (l : List (α → Except ε α)) (a : α) : Except ε α := l.foldlM (fun a f => f a) a

theorem runSteps_cons (f : α → Except ε α) (l : List (α → Except ε α)) (a : α) :
    runSteps (f :: l) a = f a >>= runSteps l := rfl

theorem runSteps_append (l l' : List (α → Except ε α)) (a : α) :
    runSteps (l ++ l') a = runSteps l a >>= runSteps l' :=
  List.foldlM_append _ _ _ _

theorem runSteps_related {l l' : List (α → Except ε α)} (h : List.Forall₂ (Related R) l l') :
    Related R (runSteps l) (runSteps l') := by
  induction h with
  | nil => exact fun _ _ hab => .ok hab
  | cons hfg _ ih => exact fun a b hab => (hfg a b hab).bind ih

theorem runSteps_congruent {l : List (α → Except ε α)} (hl : ∀ f ∈ l, Congruent R f) :
    Congruent R (runSteps l) :=
  runSteps_related (List.forall₂_same.2 hl)

variable (hR : Equivalence R)
include hR

theorem OutcomeRel.refl (x : Except ε α) : OutcomeRel R x x := by
  cases x
  · exact .error _ _
  · exact .ok (hR.refl _)

theorem OutcomeRel.symm {x y : Except ε α} (h : OutcomeRel R x y) : OutcomeRel R y x := by
  cases h with
  | ok h => exact .ok (hR.symm h)
  | error => exact .error _ _

theorem OutcomeRel.trans {x y z : Except ε α} (h₁ : OutcomeRel R x y) (h₂ : OutcomeRel R y z) :
    OutcomeRel R x z := by
  cases h₁ with
  | ok h₁ => cases h₂ with | ok h₂ => exact .ok (hR.trans h₁ h₂)
  | error => cases h₂ with | error => exact .error _ _

theorem Commute.self (f : α → Except ε α) : Commute R f f := fun _ => OutcomeRel.refl hR _

theorem Commute.symm {f g : α → Except ε α} (h : Commute R f g) : Commute R g f :=
  fun a => (h a).symm hR

theorem runSteps_perm {l l' : List (α → Except ε α)} (hp : l.Perm l')
    (hc : ∀ f ∈ l, Congruent R f) (hcomm : ∀ f ∈ l, ∀ g ∈ l, Commute R f g) (a : α) :
    OutcomeRel R (runSteps l a) (runSteps l' a) := by
  induction hp generalizing a with
  | nil => exact OutcomeRel.refl hR _
  | cons f _ ih =>
    exact OutcomeRel.bind_right (f a) fun b =>
      ih (fun g hg => hc g (.tail _ hg)) (fun g hg k hk => hcomm g (.tail _ hg) k (.tail _ hk)) b
  | swap f g l =>
    have hl : ∀ k ∈ l, Congruent R k := fun k hk => hc k (.tail _ (.tail _ hk))
    have h := (hcomm g (.head _) f (.tail _ (.head _)) a).bind (runSteps_congruent hl)
    simpa only [runSteps_cons, bind_assoc] using h
  | trans h₁ _ ih₁ ih₂ =>
    exact (ih₁ hc hcomm a).trans hR (ih₂ (fun f hf => hc f (h₁.mem_iff.2 hf))
      (fun f hf g hg => hcomm f (h₁.mem_iff.2 hf) g (h₁.mem_iff.2 hg)) a)

end

theorem mapM_perm {α β ε : Type} (f : α → Except ε β) {xs xs' : List α} (h : xs.Perm xs') :
    OutcomeRel List.Perm (xs.mapM f) (xs'.mapM f) := by
  induction h with
  | nil => exact .ok (.refl [])
  | cons x _ ih =>
    simp only [List.mapM_cons]
    rcases f x with _ | y
    · exact .error _ _
    · exact ih.bind fun ys ys' hys => .ok (hys.cons y)
  | swap x y l =>
    simp only [List.mapM_cons]
    cases f x <;> cases f y <;> cases l.mapM f <;> first | exact .error _ _ | exact .ok (.swap _ _ _)
  | trans _ _ ih₁ ih₂ => exact ih₁.trans (List.Perm.eqv _) ih₂

end EventSystemAudit

import Mathlib.Data.List.Basic

/-!
# Runs whose steps are guarded

A run is a fold of a step function over a list of actions. `Guarded` says that
each action is taken in a state that allows it; an invariant kept by every
allowed step then holds at the end of every guarded run. `Allowed` is the same for
steps that may leave the run.
-/

namespace Run

open List

variable {σ α : Type*} {step : σ → α → σ} {ok : σ → α → Prop}

/-- Each action satisfies `ok` in the state it is taken in. -/
def Guarded (step : σ → α → σ) (ok : σ → α → Prop) : σ → List α → Prop
  | _, [] => True
  | s, a :: as => ok s a ∧ Guarded step ok (step s a) as

instance Guarded.decidable [DecidableRel ok] :
    ∀ (s : σ) (as : List α), Decidable (Guarded step ok s as)
  | _, [] => isTrue trivial
  | s, a :: as =>
    have := Guarded.decidable (step s a) as
    inferInstanceAs (Decidable (ok s a ∧ Guarded step ok (step s a) as))

variable {as : List α} {s : σ} {I : σ → Prop}

/-- **The invariant rule.** -/
theorem Guarded.invariant (hstep : ∀ s a, I s → ok s a → I (step s a)) (h : Guarded step ok s as)
    (hs : I s) : I (as.foldl step s) := by
  induction as generalizing s with
  | nil => exact hs
  | cons a as ih =>
    obtain ⟨ha, has⟩ := h
    exact ih has (hstep s a hs ha)

theorem Guarded.of_append {bs : List α} (h : Guarded step ok s (as ++ bs)) :
    Guarded step ok s as ∧ Guarded step ok (as.foldl step s) bs := by
  induction as generalizing s with
  | nil => exact ⟨trivial, h⟩
  | cons a as ih =>
    obtain ⟨ha, has⟩ := h
    obtain ⟨hfirst, hlast⟩ := ih has
    exact ⟨⟨ha, hfirst⟩, hlast⟩

theorem Guarded.of_map {β : Type*} {f : β → α} {bs : List β} (h : Guarded step ok s (bs.map f)) :
    Guarded (fun s b => step s (f b)) (fun s b => ok s (f b)) s bs := by
  induction bs generalizing s with
  | nil => trivial
  | cons b bs ih =>
    obtain ⟨hb, hbs⟩ := h
    exact ⟨hb, ih hbs⟩

/-- **The termination rule.** A measure that every allowed step brings down reaches
an end that no step leaves. -/
theorem Guarded.reaches {E : σ → Prop} (μ : σ → ℕ) (hstep : ∀ s a, I s → ok s a → I (step s a))
    (hdown : ∀ s a, I s → ok s a → E s ∨ μ (step s a) < μ s) (hended : ∀ s a, E s → E (step s a))
    (h : Guarded step ok s as) (hs : I s) (hlength : μ s < as.length) : E (as.foldl step s) := by
  have hstays : ∀ (as : List α) (s : σ), E s → E (as.foldl step s) := by
    intro as
    induction as with
    | nil => exact fun _ hs => hs
    | cons a as ih => exact fun s hs => ih _ (hended s a hs)
  induction as generalizing s with
  | nil => exact absurd hlength (Nat.not_lt_zero _)
  | cons a as ih =>
    obtain ⟨ha, has⟩ := h
    rcases hdown s a hs ha with hend | hless
    · exact hstays (a :: as) s hend
    · apply ih has (hstep s a hs ha)
      rw [length_cons] at hlength
      omega

/-- **The lockstep rule.** Two machines take the same actions, and in states that agree
a step keeps the agreement exactly where `ok` allows it. Then they agree all along a
run exactly where the run is guarded. `J` is what holds of them in any case. -/
theorem Guarded.iff_lockstep {τ : Type*} {other : τ → α → τ} {J P : τ → σ → Prop}
    (hJ : ∀ t s a, J t s → J (other t a) (step s a))
    (hstep : ∀ t s a, J t s → P t s → (P (other t a) (step s a) ↔ ok s a)) {t : τ} (ht : J t s)
    (h : P t s) :
    (∀ p, p <+: as → P (p.foldl other t) (p.foldl step s)) ↔ Guarded step ok s as := by
  induction as generalizing t s with
  | nil =>
    refine ⟨fun _ => trivial, fun _ p hp => ?_⟩
    rw [prefix_nil.mp hp]
    exact h
  | cons a as ih =>
    constructor
    · intro hall
      have hone : P (other t a) (step s a) := hall [a] ⟨as, rfl⟩
      refine ⟨(hstep t s a ht h).mp hone, (ih (hJ t s a ht) hone).mp fun p hp => ?_⟩
      exact hall (a :: p) (cons_prefix_cons.mpr ⟨rfl, hp⟩)
    · rintro ⟨ha, has⟩ p hp
      have hone := (hstep t s a ht h).mpr ha
      rcases prefix_cons_iff.mp hp with rfl | ⟨q, rfl, hq⟩
      · exact h
      · exact (ih (hJ t s a ht) hone).mpr has q hq

theorem Guarded.iff_forall_mem {q : α → Prop} :
    Guarded step (fun _ a => q a) s as ↔ ∀ a ∈ as, q a := by
  induction as generalizing s with
  | nil => exact ⟨fun _ a ha => absurd ha not_mem_nil, fun _ => trivial⟩
  | cons a as ih => rw [forall_mem_cons, ← ih (s := step s a)]; rfl

section Leaving

variable {ε : Type*} {exec : σ → α → Except ε σ}

/-- Each action satisfies `ok` in the state it is taken in, as long as the run
goes on. -/
def Allowed (exec : σ → α → Except ε σ) (ok : σ → α → Prop) : σ → List α → Prop
  | _, [] => True
  | s, a :: as => ok s a ∧
      match exec s a with
      | .ok next => Allowed exec ok next as
      | .error _ => True

/-- **The invariant rule** for runs that were not left. -/
theorem Allowed.invariant {I : σ → Prop}
    (hexec : ∀ s a next, I s → ok s a → exec s a = .ok next → I next) {last : σ}
    (h : Allowed exec ok s as) (hs : I s) (hrun : as.foldlM exec s = .ok last) : I last := by
  induction as generalizing s with
  | nil =>
    cases hrun
    exact hs
  | cons a as ih =>
    obtain ⟨ha, has⟩ := h
    rw [foldlM_cons] at hrun
    cases hnext : exec s a with
    | error e =>
      rw [hnext] at hrun
      cases hrun
    | ok next =>
      rw [hnext] at has hrun
      exact ih has (hexec s a next hs ha hnext) hrun

end Leaving

end Run

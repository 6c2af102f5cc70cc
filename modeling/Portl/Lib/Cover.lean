/-!
# Rule lists and the covering order

An allow policy is a list of rules; a request passes if some rule admits it.
Delegation replaces a list by a narrower one: every child rule must be covered by
some parent rule. `narrows` is the syntactic decision, taken once, when a policy is
handed on. `allows` is the semantic test, taken on every request, by other code.
`allows_of_narrows` is the one bridge.
-/

namespace Cover

open List

variable {ρ q : Type}

def allows (admits : ρ → q → Bool) (rules : List ρ) (x : q) : Bool :=
  rules.any fun rule => admits rule x

def narrows (covers : ρ → ρ → Bool) (parent child : List ρ) : Bool :=
  child.all fun c => parent.any fun p => covers p c

/-- Two independent optional parts: absent in the child is always narrower,
present in the child needs it present in the parent. -/
def optionNarrows {α : Type} (cmp : α → α → Bool) (parent child : Option α) : Bool :=
  match parent, child with
  | _, none => true
  | some parent, some child => cmp parent child
  | none, some _ => false

/-- `covers` is sound for `admits`: what the covered rule admits, the covering
rule admits. -/
def Sound (admits : ρ → q → Bool) (covers : ρ → ρ → Bool) : Prop :=
  ∀ p c x, covers p c = true → admits c x = true → admits p x = true

variable {admits : ρ → q → Bool} {rules child parent : List ρ} {x : q}

theorem allows_iff : allows admits rules x = true ↔ ∃ rule ∈ rules, admits rule x = true := by
  simp [allows]

variable {covers : ρ → ρ → Bool} {α : Type} {cmp : α → α → Bool}

theorem exists_cover (h : narrows covers parent child = true) {c : ρ} (hc : c ∈ child) :
    ∃ p ∈ parent, covers p c = true := by
  have hall := all_eq_true.mp h c hc
  exact any_eq_true.mp hall

/-- **The bridge.** A sound cover makes the syntactic order an inclusion of
the requests allowed. -/
theorem allows_of_narrows (hsound : Sound admits covers) (hn : narrows covers parent child = true)
    (h : allows admits child x = true) : allows admits parent x = true := by
  obtain ⟨c, hc, hcx⟩ := allows_iff.mp h
  obtain ⟨p, hp, hpc⟩ := exists_cover hn hc
  exact allows_iff.mpr ⟨p, hp, hsound p c x hpc hcx⟩

theorem optionNarrows_some {parent : Option α} {child : α}
    (h : optionNarrows cmp parent (some child) = true) :
    ∃ p, parent = some p ∧ cmp p child = true := by
  cases parent with
  | none => cases h
  | some p => exact ⟨p, rfl, h⟩

/-! ## Narrowing as an order -/

def Composes (cmp : α → α → Bool) : Prop :=
  ∀ ⦃x y z⦄, cmp x y = true → cmp y z = true → cmp x z = true

/-- An optional limit: the child must have one where the parent does. -/
def limitNarrows (cmp : α → α → Bool) (parent child : Option α) : Bool :=
  match parent, child with
  | parent, none => parent.isNone
  | none, some _ => true
  | some parent, some child => cmp parent child

theorem limitNarrows_refl {limit : Option α} (h : ∀ x, cmp x x = true) :
    limitNarrows cmp limit limit = true := by
  cases limit with
  | none => rfl
  | some x => exact h x

theorem Composes.limitNarrows (h : Composes cmp) : Composes (limitNarrows cmp) := by
  rintro (_ | x) (_ | y) (_ | z) hfirst hlast
  all_goals first | rfl | cases hfirst | cases hlast | exact h hfirst hlast

theorem narrows_refl (h : ∀ rule ∈ rules, covers rule rule = true) :
    narrows covers rules rules = true := by
  apply all_eq_true.mpr
  intro rule hrule
  exact any_eq_true.mpr ⟨rule, hrule, h rule hrule⟩

theorem narrows_trans {first middle last : List ρ}
    (htrans : ∀ p ∈ first, ∀ m c, covers p m = true → covers m c = true →
      ∃ q ∈ first, covers q c = true)
    (hfirst : narrows covers first middle = true) (hlast : narrows covers middle last = true) :
    narrows covers first last = true := by
  apply all_eq_true.mpr
  intro c hc
  obtain ⟨m, hm, hmc⟩ := exists_cover hlast hc
  obtain ⟨p, hp, hpm⟩ := exists_cover hfirst hm
  exact any_eq_true.mpr (htrans p hp m c hpm hmc)

theorem Composes.narrows (h : Composes covers) : Composes (narrows covers) :=
  fun _ _ _ => narrows_trans fun p hp _ _ hpm hmc => ⟨p, hp, h hpm hmc⟩

theorem optionNarrows_refl {part : Option α} (h : ∀ x, part = some x → cmp x x = true) :
    optionNarrows cmp part part = true := by
  cases part with
  | none => rfl
  | some x => exact h x rfl

theorem optionNarrows_trans {first middle last : Option α}
    (h : ∀ x ∈ first, ∀ y z, cmp x y = true → cmp y z = true → cmp x z = true)
    (hfirst : optionNarrows cmp first middle = true)
    (hlast : optionNarrows cmp middle last = true) : optionNarrows cmp first last = true := by
  cases last with
  | none => cases first <;> rfl
  | some z =>
    obtain ⟨y, rfl, hyz⟩ := optionNarrows_some hlast
    obtain ⟨x, rfl, hxy⟩ := optionNarrows_some hfirst
    exact h x rfl y z hxy hyz

theorem Composes.optionNarrows (h : Composes cmp) : Composes (optionNarrows cmp) :=
  fun _ _ _ => optionNarrows_trans fun _ _ _ _ => @h _ _ _

end Cover

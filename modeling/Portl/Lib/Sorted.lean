import Mathlib.Data.List.Sort

/-!
# Strictly sorted lists

A set of rules is written as a list in strictly increasing order of a comparison.
The comparison may look at a part of an element only (a key), so two elements it
calls equal need not be equal; in a strictly increasing list they cannot both
occur. Such a list is determined by its members.
-/

namespace Sorted

variable {α : Type} {cmp : α → α → Ordering}

def Increasing (cmp : α → α → Ordering) (v : List α) : Prop :=
  v.IsChain fun a b => cmp a b = .lt

def SameSet (v w : List α) : Prop := ∀ x, x ∈ v ↔ x ∈ w

theorem SameSet.refl (v : List α) : SameSet v v := fun _ => Iff.rfl

variable {v : List α}

theorem Increasing.pairwise [Std.TransCmp cmp] (h : Increasing cmp v) :
    v.Pairwise fun a b => cmp a b = .lt := by
  have : Trans (fun a b => cmp a b = .lt) (fun a b => cmp a b = .lt) (fun a b => cmp a b = .lt) :=
    ⟨Std.TransCmp.lt_trans⟩
  exact List.IsChain.pairwise h

theorem Increasing.nodup [Std.TransCmp cmp] (h : Increasing cmp v) : v.Nodup := by
  apply h.pairwise.imp
  rintro a b hlt rfl
  exact Std.OrientedCmp.not_lt_of_lt hlt hlt

variable {w : List α}

theorem Increasing.eq_of_sameSet [Std.TransCmp cmp] (hv : Increasing cmp v) (hw : Increasing cmp w)
    (h : SameSet v w) : v = w := by
  have hperm : v.Perm w := (List.perm_ext_iff_of_nodup hv.nodup hw.nodup).mpr h
  apply hperm.eq_of_pairwise _ hv.pairwise hw.pairwise
  intro a b _ _ hab hba
  exact absurd hba (Std.OrientedCmp.not_lt_of_lt hab)

/-! ## Sorting -/

def sortBy (cmp : α → α → Ordering) (v : List α) : List α :=
  v.insertionSort fun a b => (cmp a b).isLE = true

theorem sortBy_perm (v : List α) : (sortBy cmp v).Perm v := List.perm_insertionSort _ v

theorem sortBy_pairwise [Std.TransCmp cmp] (v : List α) :
    (sortBy cmp v).Pairwise fun a b => (cmp a b).isLE = true := by
  have htotal : Std.Total fun a b => (cmp a b).isLE = true := by
    constructor
    intro a b
    have hswap : cmp b a = (cmp a b).swap := Std.OrientedCmp.eq_swap
    rw [hswap]
    cases cmp a b <;> simp
  have htrans : IsTrans α fun a b => (cmp a b).isLE = true :=
    ⟨fun _ _ _ => Std.TransCmp.isLE_trans⟩
  exact List.pairwise_insertionSort _ v

theorem increasing_of_distinct [Std.TransCmp cmp]
    (h : (sortBy cmp v).IsChain fun a b => cmp a b ≠ .eq) : Increasing cmp (sortBy cmp v) := by
  have hle : (sortBy cmp v).IsChain fun a b => (cmp a b).isLE = true := (sortBy_pairwise v).isChain
  apply List.isChain_iff_getElem.mpr
  intro i hi
  have hle' := hle.getElem i hi
  cases hcmp : cmp (sortBy cmp v)[i] (sortBy cmp v)[i + 1] with
  | lt => rfl
  | eq => exact absurd hcmp (h.getElem i hi)
  | gt =>
    rw [hcmp] at hle'
    cases hle'

/-- Sorting succeeds without equal neighbours exactly if the elements can be put in
increasing order, and that is the order found. -/
theorem sortBy_spec [Std.TransCmp cmp] :
    (sortBy cmp v = w ∧ w.IsChain fun a b => cmp a b ≠ .eq) ↔ w.Perm v ∧ Increasing cmp w := by
  constructor
  · rintro ⟨rfl, hchain⟩
    exact ⟨sortBy_perm v, increasing_of_distinct hchain⟩
  · rintro ⟨hperm, hw⟩
    have hsort : (sortBy cmp v).Perm w := (sortBy_perm v).trans hperm.symm
    have hdistinct : (sortBy cmp v).Pairwise fun a b => cmp a b ≠ .eq := by
      apply hsort.symm.pairwise (hw.pairwise.imp fun hlt => by rw [hlt]; decide)
      intro a b hne heq
      exact hne (Std.OrientedCmp.eq_symm heq)
    have heq : sortBy cmp v = w :=
      (increasing_of_distinct hdistinct.isChain).eq_of_sameSet hw fun _ => hsort.mem_iff
    rw [← heq]
    exact ⟨rfl, hdistinct.isChain⟩

end Sorted

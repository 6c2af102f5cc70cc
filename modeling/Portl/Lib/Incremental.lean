import Mathlib.Data.List.Basic
import Mathlib.Tactic.Common

/-!
# Decoders that read from the front

A decoder takes a value from the front of what has arrived, finds it malformed, or
needs more. It is *stable* when what has been decided is not changed by what arrives
later; a stream then has one verdict, which every long enough piece of it gives.
-/

namespace Incremental

variable {α ν ε : Type*}

inductive Failure (ε : Type*) where
  /-- the input ends before the verdict -/
  | more
  | bad (e : ε)
deriving DecidableEq

structure Decoder (α ν ε : Type*) where
  take : List α → Except (Failure ε) (ν × List α)
  ok_suffix : ∀ {p v rest}, take p = .ok (v, rest) → rest <:+ p
  ok_append : ∀ {p v rest}, take p = .ok (v, rest) → ∀ q, take (p ++ q) = .ok (v, rest ++ q)
  bad_append : ∀ {p e}, take p = .error (.bad e) → ∀ q, take (p ++ q) = .error (.bad e)

namespace Decoder

variable (D : Decoder α ν ε) {p q : List α}

theorem more_of_append (h : D.take (p ++ q) = .error .more) : D.take p = .error .more := by
  cases hp : D.take p with
  | ok r =>
    obtain ⟨v, rest⟩ := r
    rw [D.ok_append hp] at h
    cases h
  | error failure =>
    cases failure with
    | more => rfl
    | bad e =>
      rw [D.bad_append hp] at h
      cases h

theorem more_of_lt {v : ν} (h : D.take p = .ok (v, [])) {n : ℕ} (hn : n < p.length) :
    D.take (p.take n) = .error .more := by
  have hcut : p.take n ++ p.drop n = p := List.take_append_drop n p
  cases hfront : D.take (p.take n) with
  | ok r =>
    obtain ⟨v', rest⟩ := r
    have hwhole := D.ok_append hfront (p.drop n)
    rw [hcut, h, Except.ok.injEq, Prod.mk.injEq] at hwhole
    have hnone := (List.append_eq_nil_iff.mp hwhole.2.symm).2
    exact absurd (List.drop_eq_nil_iff.mp hnone) (Nat.not_le.mpr hn)
  | error failure =>
    cases failure with
    | more => rfl
    | bad e =>
      have hwhole := D.bad_append hfront (p.drop n)
      rw [hcut, h] at hwhole
      cases hwhole

end Decoder

end Incremental

import Mathlib.Order.Lattice.Nat

/-!
# Text that fits the status bar

`fit_visible` and `visible_width` of `attach_control.rs`. Each passes over escapes, from
ESC to the next `m` or to the end. Their inner loops are a flag here: whether the scan is
inside an escape.
-/

namespace Portl

open List

def visibleWidthLoop : Bool → List Char → ℕ
  | _, [] => 0
  | true, ch :: chars => visibleWidthLoop (ch ≠ 'm') chars
  | false, ch :: chars =>
    if ch = '\x1b' then visibleWidthLoop true chars else visibleWidthLoop false chars + 1

def visibleWidth (text : String) : ℕ := visibleWidthLoop false text.toList

def fitLoop (limit : ℕ) : Bool → ℕ → List Char → List Char
  | _, _, [] => []
  | true, width, ch :: chars => ch :: fitLoop limit (ch ≠ 'm') width chars
  | false, width, ch :: chars =>
    if ch = '\x1b' then ch :: fitLoop limit true width chars
    else if width ≥ limit - 1 then []
    else ch :: fitLoop limit false (width + 1) chars

def fitVisible (text : String) (cols : UInt16) : String :=
  let limit := max cols.toNat 1
  if visibleWidth text ≤ limit then text
  else if limit ≤ 1 then "…"
  else String.ofList (fitLoop limit false 0 text.toList) ++ "…" ++ "\x1b[0m"

/-! ## The characters that show -/

def visibleLoop : Bool → List Char → List Char
  | _, [] => []
  | true, ch :: chars => visibleLoop (ch ≠ 'm') chars
  | false, ch :: chars =>
    if ch = '\x1b' then visibleLoop true chars else ch :: visibleLoop false chars

def visibleChars (text : String) : List Char := visibleLoop false text.toList

variable {inEscape : Bool} {chars : List Char} {limit width room : ℕ}

theorem visibleWidthLoop_eq (inEscape : Bool) (chars : List Char) :
    visibleWidthLoop inEscape chars = (visibleLoop inEscape chars).length := by
  induction chars generalizing inEscape with
  | nil => cases inEscape <;> rfl
  | cons ch chars ih =>
    cases inEscape with
    | true => exact ih _
    | false =>
      simp only [visibleWidthLoop, visibleLoop]
      split_ifs
      · exact ih true
      · rw [length_cons, ih]

/-- The loop stops at a character that shows, outside of every escape. -/
theorem visibleLoop_fitLoop (hroom : width + room = limit - 1)
    (h : room < (visibleLoop inEscape chars).length) (tail : List Char) :
    visibleLoop inEscape (fitLoop limit inEscape width chars ++ tail) =
      (visibleLoop inEscape chars).take room ++ visibleLoop false tail := by
  induction chars generalizing inEscape width room with
  | nil => cases inEscape <;> cases h
  | cons ch chars ih =>
    cases inEscape with
    | true => exact ih hroom h
    | false =>
      simp only [fitLoop, visibleLoop] at h ⊢
      split_ifs at h ⊢ with hesc hfull
      · simp only [cons_append, visibleLoop, if_pos hesc]
        exact ih hroom h
      · obtain rfl : room = 0 := by omega
        simp
      · obtain ⟨room, rfl⟩ : ∃ n, room = n + 1 := Nat.exists_eq_succ_of_ne_zero (by omega)
        simp only [cons_append, visibleLoop, if_neg hesc, take_succ_cons]
        rw [ih (by omega) (Nat.lt_of_succ_lt_succ h)]

/-- **Text is cut to fit.** -/
theorem fitVisible_exact (text : String) (cols : UInt16) :
    visibleWidth (fitVisible text cols) = min (visibleWidth text) (max cols.toNat 1) ∧
      if visibleWidth text ≤ max cols.toNat 1 then fitVisible text cols = text
      else ∃ kept, kept <+: visibleChars text ∧
        visibleChars (fitVisible text cols) = kept ++ ['…'] := by
  have hwidth : ∀ text, visibleWidth text = (visibleChars text).length :=
    fun text => visibleWidthLoop_eq false text.toList
  unfold fitVisible
  obtain ⟨n, hn⟩ : ∃ n, max cols.toNat 1 = n + 1 :=
    Nat.exists_eq_succ_of_ne_zero (Nat.ne_of_gt (le_max_right _ 1))
  rw [hn]
  by_cases hfits : visibleWidth text ≤ n + 1
  · simp [hfits]
  · have hcut : visibleChars (if n + 1 ≤ 1 then "…"
        else String.ofList (fitLoop (n + 1) false 0 text.toList) ++ "…" ++ "\x1b[0m") =
        (visibleChars text).take n ++ ['…'] := by
      split_ifs with hone
      · obtain rfl : n = 0 := by omega
        rfl
      · rw [hwidth] at hfits
        have hmore : n < (visibleLoop false text.toList).length := by
          unfold visibleChars at hfits
          omega
        have htail := visibleLoop_fitLoop (show 0 + n = n + 1 - 1 by omega) hmore
          ['…', '\x1b', '[', '0', 'm']
        simpa [visibleChars, visibleLoop] using htail
    simp only [hfits, if_false]
    rw [hwidth, hcut, length_append, length_take, ← hwidth]
    refine ⟨?_, _, take_prefix _ _, rfl⟩
    rw [length_singleton]
    omega

end Portl

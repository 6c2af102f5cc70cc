import Mathlib.Algebra.Order.Ring.Nat
import Portl.Attach.Input

/-!
# The paste scanner over a whole input

`BracketedPasteScanner` keeps the last five bytes it has read, one less than a mark has,
so every mark lies in the bytes of one scan and is new in just one of them.
-/

namespace Portl

open List

def MarkAt (mark bytes : Bytes) (i : ℕ) : Prop := mark <+: bytes.drop i

/-- The last mark of the stream opens a paste. -/
def LastOpens (stream : Bytes) : Prop :=
  ∃ i, MarkAt bracketedPasteBegin stream i ∧
    ∀ j, MarkAt bracketedPasteBegin stream j ∨ MarkAt bracketedPasteEnd stream j → j ≤ i

variable {mark dropped tail chunk bytes : Bytes} {i j : ℕ}

theorem MarkAt.add_le (h : MarkAt mark bytes i) (hmark : mark.length = 6) :
    i + 6 ≤ bytes.length := by
  have hlength := h.length_le
  rw [length_drop] at hlength
  omega

theorem markAt_append (h : i + mark.length ≤ bytes.length) :
    MarkAt mark (bytes ++ chunk) i ↔ MarkAt mark bytes i := by
  unfold MarkAt
  rw [drop_append_of_le_length (by omega)]
  constructor
  · intro hmark
    refine prefix_of_prefix_length_le hmark (prefix_append _ _) ?_
    rw [length_drop]
    omega
  · intro hmark
    exact hmark.trans (prefix_append _ _)

theorem markAt_add : MarkAt mark (dropped ++ bytes) (dropped.length + i) ↔ MarkAt mark bytes i := by
  unfold MarkAt
  rw [drop_length_add_append]

variable (hmark : mark.length = 6)
include hmark

/-- A mark of the whole stream was there before the chunk, or lies in what is scanned. -/
theorem markAt_scan (htail : tail.length = min 5 (dropped ++ tail).length) :
    MarkAt mark (dropped ++ tail ++ chunk) i ↔
      i < dropped.length ∧ MarkAt mark (dropped ++ tail) i ∨
      ∃ k, i = dropped.length + k ∧ MarkAt mark (tail ++ chunk) k := by
  rw [length_append] at htail
  by_cases hold : i < dropped.length
  · rw [markAt_append (by rw [length_append]; omega)]
    constructor
    · intro h
      exact .inl ⟨hold, h⟩
    · rintro (⟨-, h⟩ | ⟨k, rfl, -⟩)
      · exact h
      · omega
  · obtain ⟨k, rfl⟩ := Nat.exists_eq_add_of_le (Nat.not_lt.mp hold)
    rw [append_assoc, markAt_add]
    constructor
    · intro h
      exact .inr ⟨k, rfl, h⟩
    · rintro (⟨h, -⟩ | ⟨l, heq, h⟩)
      · omega
      · rwa [Nat.add_left_cancel heq]

theorem markAt_old (htail : tail.length ≤ 5) (h : MarkAt mark (dropped ++ tail) i) :
    i < dropped.length := by
  have hle := h.add_le hmark
  rw [length_append] at hle
  omega

/-- `lastIndexOf` finds the last mark there is. -/
theorem lastIndexOf_eq_some (h : lastIndexOf mark bytes = some i) :
    MarkAt mark bytes i ∧ ∀ j, MarkAt mark bytes j → j ≤ i := by
  obtain ⟨earlier, hfilter⟩ := getLast?_eq_some_iff.mp h
  have hsorted : (earlier ++ [i]).Pairwise (· < ·) := hfilter ▸ pairwise_lt_range.filter _
  rw [pairwise_append] at hsorted
  have hmem : ∀ j, j ∈ earlier ++ [i] ↔ j < bytes.length ∧ MarkAt mark bytes j := by
    intro j
    rw [← hfilter, mem_filter, mem_range, List.isPrefixOf_iff_prefix]
    rfl
  refine ⟨((hmem i).mp (by simp)).2, fun j hat => ?_⟩
  have hj := hat.add_le hmark
  rcases mem_append.mp ((hmem j).mpr ⟨by omega, hat⟩) with hearlier | hlast
  · exact (hsorted.2.2 j hearlier i (by simp)).le
  · exact (mem_singleton.mp hlast).le

theorem lastIndexOf_eq_none (h : lastIndexOf mark bytes = none) (j : ℕ) :
    ¬ MarkAt mark bytes j := by
  have hempty := getLast?_eq_none_iff.mp h
  rw [filter_eq_nil_iff] at hempty
  intro hat
  have hj := hat.add_le hmark
  exact hempty j (mem_range.mpr (by omega)) (List.isPrefixOf_iff_prefix.mpr hat)

omit hmark

theorem not_both (hopen : MarkAt bracketedPasteBegin bytes i) :
    ¬ MarkAt bracketedPasteEnd bytes i :=
  fun hclose => absurd ((prefix_of_prefix_length_le hopen hclose (by decide)).eq_of_length rfl)
    (by decide)

section Chunk

variable (htail : tail.length = min 5 (dropped ++ tail).length)

include htail

theorem lastOpens_append_old (hopens : ∀ k, ¬ MarkAt bracketedPasteBegin (tail ++ chunk) k)
    (hcloses : ∀ k, ¬ MarkAt bracketedPasteEnd (tail ++ chunk) k) :
    LastOpens (dropped ++ tail ++ chunk) ↔ LastOpens (dropped ++ tail) := by
  have hsame : ∀ mark : Bytes, mark.length = 6 → (∀ k, ¬ MarkAt mark (tail ++ chunk) k) → ∀ i,
      MarkAt mark (dropped ++ tail ++ chunk) i ↔ MarkAt mark (dropped ++ tail) i := by
    intro mark hmark hnone i
    rw [markAt_scan hmark htail]
    constructor
    · rintro (⟨-, h⟩ | ⟨k, -, h⟩)
      · exact h
      · exact absurd h (hnone k)
    · intro h
      exact .inl ⟨markAt_old hmark (by omega) h, h⟩
  simp only [LastOpens, hsame _ rfl hopens, hsame _ rfl hcloses]

theorem lastOpens_append_open (hopen : MarkAt bracketedPasteBegin (tail ++ chunk) i)
    (hlast : ∀ k, MarkAt bracketedPasteBegin (tail ++ chunk) k ∨
      MarkAt bracketedPasteEnd (tail ++ chunk) k → k ≤ i) :
    LastOpens (dropped ++ tail ++ chunk) := by
  refine ⟨dropped.length + i, (markAt_scan rfl htail).mpr (.inr ⟨i, rfl, hopen⟩), fun j hj => ?_⟩
  rw [markAt_scan rfl htail, markAt_scan rfl htail] at hj
  rcases hj with (⟨hold, -⟩ | ⟨k, rfl, hk⟩) | (⟨hold, -⟩ | ⟨k, rfl, hk⟩)
  · omega
  · exact Nat.add_le_add_left (hlast k (.inl hk)) _
  · omega
  · exact Nat.add_le_add_left (hlast k (.inr hk)) _

theorem not_lastOpens_append (hclose : MarkAt bracketedPasteEnd (tail ++ chunk) i)
    (hlast : ∀ k, MarkAt bracketedPasteBegin (tail ++ chunk) k → k ≤ i) :
    ¬ LastOpens (dropped ++ tail ++ chunk) := by
  rintro ⟨j, hj, hmost⟩
  have hle := hmost _ (.inr ((markAt_scan rfl htail).mpr (.inr ⟨i, rfl, hclose⟩)))
  rcases (markAt_scan rfl htail).mp hj with ⟨hold, -⟩ | ⟨k, rfl, hk⟩
  · omega
  · obtain rfl : k = i := by
      have := hlast k hk
      omega
    exact not_both hk hclose

end Chunk

namespace BracketedPasteScanner

/-- One scan, where what was read before is `dropped` and the bytes kept. -/
theorem scan_inPaste {b : BracketedPasteScanner} (chunk : Bytes)
    (htail : b.tail.length = min 5 (dropped ++ b.tail).length)
    (h : b.inPaste = true ↔ LastOpens (dropped ++ b.tail)) :
    (b.scan chunk).2.inPaste = true ↔ LastOpens (dropped ++ b.tail ++ chunk) := by
  unfold scan
  cases hopen : lastIndexOf bracketedPasteBegin (b.tail ++ chunk) with
  | none =>
    have hopens := lastIndexOf_eq_none rfl hopen
    cases hclose : lastIndexOf bracketedPasteEnd (b.tail ++ chunk) with
    | none =>
      simp only [hopen, hclose]
      rw [h, lastOpens_append_old htail hopens (lastIndexOf_eq_none rfl hclose)]
    | some i =>
      simp only [hopen, hclose]
      exact iff_of_false Bool.false_ne_true (not_lastOpens_append htail
        (lastIndexOf_eq_some rfl hclose).1 fun k hk => absurd hk (hopens k))
  | some i =>
    obtain ⟨hi, hlast⟩ := lastIndexOf_eq_some rfl hopen
    cases hclose : lastIndexOf bracketedPasteEnd (b.tail ++ chunk) with
    | none =>
      simp only [hopen, hclose]
      refine iff_of_true trivial (lastOpens_append_open htail hi ?_)
      rintro k (hk | hk)
      · exact hlast k hk
      · exact absurd hk (lastIndexOf_eq_none rfl hclose k)
    | some j =>
      obtain ⟨hj, hlast'⟩ := lastIndexOf_eq_some rfl hclose
      simp only [hopen, hclose]
      split_ifs with hgt
      · refine iff_of_true rfl (lastOpens_append_open htail hi ?_)
        rintro k (hk | hk)
        · exact hlast k hk
        · exact (hlast' k hk).trans hgt.le
      · exact iff_of_false not_false (not_lastOpens_append htail hj
          fun k hk => (hlast k hk).trans (Nat.not_lt.mp hgt))

theorem scan_tail (b : BracketedPasteScanner) (chunk : Bytes) :
    (b.scan chunk).2.tail = (b.tail ++ chunk).drop ((b.tail ++ chunk).length - 5) := by
  unfold scan
  dsimp only
  split
  · rfl
  · rfl
  · split_ifs <;> rfl
  · rfl

/-- The scanner after it has read the chunks. -/
def scanAll (chunks : List Bytes) : BracketedPasteScanner :=
  chunks.foldl (fun b chunk => (b.scan chunk).2) new

/-- However the input is cut, the scanner is in a paste iff the last mark of the whole
input opens one. -/
theorem scanAll_inPaste (chunks : List Bytes) :
    (scanAll chunks).inPaste = true ↔ LastOpens chunks.flatten := by
  suffices h : ∃ dropped, chunks.flatten = dropped ++ (scanAll chunks).tail ∧
      (scanAll chunks).tail.length = min 5 (dropped ++ (scanAll chunks).tail).length ∧
      ((scanAll chunks).inPaste = true ↔ LastOpens (dropped ++ (scanAll chunks).tail)) by
    obtain ⟨dropped, hflat, -, h⟩ := h
    rwa [hflat]
  induction chunks using reverseRecOn with
  | nil =>
    refine ⟨[], rfl, rfl, iff_of_false Bool.false_ne_true ?_⟩
    rintro ⟨i, hi, -⟩
    have hle := hi.add_le rfl
    simp [scanAll, new] at hle
  | append_singleton chunks chunk ih =>
    obtain ⟨dropped, hflat, htail, h⟩ := ih
    have hstep : scanAll (chunks ++ [chunk]) = ((scanAll chunks).scan chunk).2 := by
      rw [scanAll, foldl_append]
      rfl
    have hwhole := scan_inPaste chunk htail h
    have hkept := scan_tail (scanAll chunks) chunk
    rw [hstep]
    generalize ((scanAll chunks).scan chunk).2 = after at hwhole hkept ⊢
    obtain ⟨combined, hcombined⟩ : ∃ combined, combined = (scanAll chunks).tail ++ chunk := ⟨_, rfl⟩
    rw [← hcombined] at hkept
    have hsplit : dropped ++ combined.take (combined.length - 5) ++ after.tail =
        dropped ++ (scanAll chunks).tail ++ chunk := by
      rw [hkept, append_assoc, take_append_drop, hcombined, append_assoc]
    refine ⟨dropped ++ combined.take (combined.length - 5), ?_, ?_, ?_⟩
    · rw [hsplit, flatten_append, hflat]
      simp
    · rw [hsplit, hkept]
      simp only [hcombined, length_append, length_drop] at htail ⊢
      omega
    · rw [hsplit, hwhole]

end BracketedPasteScanner

end Portl

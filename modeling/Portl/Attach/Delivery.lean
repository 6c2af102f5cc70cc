import Mathlib.Tactic.IntervalCases
import Portl.Attach.Input

/-!
# Every byte is accounted for

The filter and the marks of the input are kept together by `Tracks`, byte by byte;
`Kept` is what holds between two reads, and `AttachInput.Sound` carries it over a
run.
-/

namespace Portl

open Stream AttachInput List

/-! ## The filter and the marks -/

theorem pasteScan_append (input bytes : Bytes) :
    pasteScan (input ++ bytes) = (pasteScan input).scan bytes :=
  foldl_append

theorem pasteScan_snoc (input : Bytes) (byte : UInt8) :
    pasteScan (input ++ [byte]) = (pasteScan input).next byte :=
  pasteScan_append input [byte]

def beginMatch (w : Bytes) : ℕ := if w <+: bracketedPasteBegin then w.length else 0

variable {w mark bytes key input sent : Bytes} {matched : ℕ} {scan : PasteScan}

theorem concat_prefix_iff {byte : UInt8} :
    w ++ [byte] <+: mark ↔ w <+: mark ∧ mark[w.length]? = some byte := by
  constructor
  · rintro ⟨rest, rfl⟩
    refine ⟨⟨byte :: rest, by simp⟩, by simp⟩
  · rintro ⟨⟨rest, rfl⟩, hnext⟩
    cases rest with
    | nil => simp at hnext
    | cons b rest =>
      have hb : b = byte := by simpa using hnext
      subst hb
      exact ⟨rest, by simp⟩

theorem beginMatch_concat {byte : UInt8} (hbyte : byte ≠ esc) (w : Bytes) :
    beginMatch (w ++ [byte]) = markMatch bracketedPasteBegin (beginMatch w) byte := by
  unfold beginMatch markMatch
  by_cases hbegins : w <+: bracketedPasteBegin
  · rw [if_pos hbegins]
    by_cases hnext : bracketedPasteBegin[w.length]? = some byte
    · rw [if_pos (concat_prefix_iff.mpr ⟨hbegins, hnext⟩), if_pos hnext, length_append]
      rfl
    · rw [if_neg fun h => hnext (concat_prefix_iff.mp h).2, if_neg hnext, if_neg hbyte]
  · have hfirst : bracketedPasteBegin[0]? ≠ some byte := fun h => hbyte (Option.some.inj h).symm
    rw [if_neg fun h => hbegins (concat_prefix_iff.mp h).1, if_neg hbegins, if_neg hfirst,
      if_neg hbyte]

theorem markMatch_esc {mark : Bytes} (hmark : esc ∉ mark.tail) :
    markMatch mark matched esc = 1 := by
  unfold markMatch
  cases matched with
  | zero => split <;> rfl
  | succ k =>
    have hother : mark[k + 1]? ≠ some esc := by
      intro hsome
      rw [← getElem?_tail] at hsome
      exact hmark (mem_of_getElem? hsome)
    rw [if_neg hother, if_pos rfl]

theorem PasteScan.next_esc (scan : PasteScan) :
    scan.next esc = .outside 1 ∧ scan.isOutside = true ∨
      scan.next esc = .inside 1 ∧ scan.isOutside = false := by
  cases scan with
  | outside matched =>
    refine .inl ⟨?_, rfl⟩
    rw [PasteScan.next, markMatch_esc (by decide)]
    rfl
  | inside matched =>
    refine .inr ⟨?_, rfl⟩
    rw [PasteScan.next, markMatch_esc (by decide)]
    rfl

/-- A filter and the marks in what was read. Where the filter takes itself to be in
a paste the input may be out of it already. -/
inductive Tracks : EscapeState UInt8 ℕ → PasteScan → Prop where
  | ground : Tracks .ground (.outside 0)
  | pending (w : Bytes) : Tracks (.pending w) (.outside (beginMatch w))
  | paste (scan : PasteScan) : Tracks (.raw 0) scan
  | inside (matched : ℕ) : Tracks (.raw matched) (.inside matched)
  | late {matched : ℕ} (h : matched ≤ 5) :
      Tracks (.raw matched) (.outside (if matched ≤ 4 then matched else 0))

theorem pasteNext_eq (matched : ℕ) (byte : UInt8) :
    pasteNext matched byte =
      if markMatch bracketedPasteEnd matched byte = 6 then none
      else some (markMatch bracketedPasteEnd matched byte) := by
  unfold pasteNext markMatch
  by_cases hnext : bracketedPasteEnd[matched]? = some byte
  · rw [if_pos hnext, if_pos hnext]
    rfl
  · rw [if_neg hnext, if_neg hnext]
    split
    · rfl
    · rfl

theorem responseVerdict_begin (hbegins : w <+: bracketedPasteBegin) (hlength : 2 ≤ w.length) :
    responseVerdict w = if w.length = 6 then .raw 0 else .more := by
  have htake : w = bracketedPasteBegin.take w.length := prefix_iff_eq_take.mp hbegins
  have hle : w.length ≤ 6 := hbegins.length_le
  generalize w.length = n at *
  subst htake
  interval_cases n <;> rfl

theorem markMatch_of_ne {byte : UInt8} (hbyte : byte ≠ esc) (hnext : mark[matched]? ≠ some byte) :
    markMatch mark matched byte = 0 := by
  unfold markMatch
  rw [if_neg hnext, if_neg hbyte]

theorem settle_response (w : Bytes) : responseRules.settle w =
    match responseVerdict w with
    | .more => ([], .pending w)
    | .flush => (w, .ground)
    | .drop => ([], .ground)
    | .raw r => (w, .raw r) := by
  have hrules : responseRules.verdict w = responseVerdict w := rfl
  unfold EscapeRules.settle
  rw [hrules]
  cases responseVerdict w with
  | more | flush | drop | raw => rfl

theorem Tracks.settle {byte : UInt8} (hw : w ≠ []) (hbyte : byte ≠ esc) :
    Tracks (responseRules.settle (w ++ [byte])).2 ((PasteScan.outside (beginMatch w)).next byte) := by
  have hlength : 2 ≤ (w ++ [byte]).length := by
    have hpos := length_pos_of_ne_nil hw
    rw [length_append, length_singleton]
    omega
  rw [PasteScan.next, ← beginMatch_concat hbyte, settle_response]
  by_cases hbegins : w ++ [byte] <+: bracketedPasteBegin
  · have hverdict := responseVerdict_begin hbegins hlength
    have hmatch : beginMatch (w ++ [byte]) = (w ++ [byte]).length := if_pos hbegins
    by_cases hfull : (w ++ [byte]).length = 6
    · rw [hverdict, if_pos hfull]
      exact .paste _
    · rw [hverdict, if_neg hfull, if_neg (hmatch ▸ hfull)]
      exact .pending _
  · have hmatch : beginMatch (w ++ [byte]) = 0 := if_neg hbegins
    rw [hmatch]
    cases hverdict : responseVerdict (w ++ [byte]) with
    | more =>
      have h := Tracks.pending (w ++ [byte])
      rwa [hmatch] at h
    | flush | drop => exact .ground
    | raw r =>
      have hbegin : w ++ [byte] = bracketedPasteBegin := by
        unfold responseVerdict at hverdict
        split_ifs at hverdict with _ _ _ _ hbegin
        exact hbegin
      exact absurd (hbegin ▸ prefix_rfl) hbegins

theorem Tracks.step_esc {t : EscapeState UInt8 ℕ} (h : Tracks t scan) :
    Tracks (responseRules.step t esc).2 (scan.next esc) := by
  cases h with
  | ground => exact .pending [esc]
  | pending w =>
    rcases (PasteScan.outside (beginMatch w)).next_esc with ⟨hnext, -⟩ | ⟨-, hinside⟩
    · rw [hnext]
      exact .pending [esc]
    · cases hinside
  | paste scan =>
    rcases scan.next_esc with ⟨hnext, -⟩ | ⟨hnext, -⟩
    · rw [hnext]
      exact .late (by decide : 1 ≤ 5)
    · rw [hnext]
      exact .inside 1
  | inside matched =>
    have hone : markMatch bracketedPasteEnd matched esc = 1 := markMatch_esc (by decide)
    simp only [EscapeRules.step, responseRules, pasteNext_eq, PasteScan.next, hone]
    exact .inside 1
  | @late matched hle =>
    have hone : markMatch bracketedPasteEnd matched esc = 1 := markMatch_esc (by decide)
    rcases (PasteScan.outside (if matched ≤ 4 then matched else 0)).next_esc with
      ⟨hnext, -⟩ | ⟨-, hinside⟩
    · simp only [EscapeRules.step, responseRules, pasteNext_eq, hone, hnext]
      exact .late (by decide : 1 ≤ 5)
    · cases hinside

theorem PasteScan.next_zero {byte : UInt8} (hbyte : byte ≠ esc) :
    (PasteScan.outside 0).next byte = .outside 0 := by
  have hzero : markMatch bracketedPasteBegin 0 byte = 0 :=
    markMatch_of_ne hbyte fun h => hbyte (Option.some.inj h).symm
  rw [PasteScan.next, hzero]
  rfl

theorem Tracks.step {t : EscapeState UInt8 ℕ} {scan : PasteScan} (h : Tracks t scan)
    (hheld : t.isPending = true → t.held ≠ []) (byte : UInt8) :
    Tracks (responseRules.step t byte).2 (scan.next byte) := by
  by_cases hbyte : byte = esc
  · rw [hbyte]
    exact h.step_esc
  · cases h with
    | ground =>
      have hstep : responseRules.step .ground byte = ([byte], .ground) :=
        responseRules.step_ground hbyte
      rw [hstep, PasteScan.next_zero hbyte]
      exact .ground
    | pending w =>
      have hsettle : responseRules.step (.pending w) byte = responseRules.settle (w ++ [byte]) :=
        responseRules.step_pending hbyte w
      rw [hsettle]
      exact .settle (hheld rfl) hbyte
    | paste scan =>
      have hzero : markMatch bracketedPasteEnd 0 byte = 0 :=
        markMatch_of_ne hbyte fun h => hbyte (Option.some.inj h).symm
      simp only [EscapeRules.step, responseRules, pasteNext_eq, hzero]
      exact .paste _
    | inside matched =>
      simp only [EscapeRules.step, responseRules, pasteNext_eq, PasteScan.next]
      by_cases hfull : markMatch bracketedPasteEnd matched byte = 6
      · rw [if_pos hfull, if_pos hfull]
        exact .ground
      · rw [if_neg hfull, if_neg hfull]
        exact .inside _
    | @late matched hle =>
      simp only [EscapeRules.step, responseRules, pasteNext_eq]
      by_cases hnext : bracketedPasteEnd[matched]? = some byte
      · -- the two marks differ in their fifth byte
        interval_cases matched
        · exact absurd (Option.some.inj hnext).symm hbyte
        · cases hnext
          exact .late (by decide : 2 ≤ 5)
        · cases hnext
          exact .late (by decide : 3 ≤ 5)
        · cases hnext
          exact .late (by decide : 4 ≤ 5)
        · cases hnext
          exact .late (by decide : 5 ≤ 5)
        · cases hnext
          exact .ground
      · rw [markMatch_of_ne hbyte hnext]
        exact .paste _

/-! ## Bytes through the filter -/

/-- What was read is accounted for, up to what the filter holds; it holds nothing
that began in a paste. -/
def Settles (cancelledAt : Bytes → Prop) (taken sent : Bytes) (t : EscapeState UInt8 ℕ) : Prop :=
  ∃ settled, taken = settled ++ t.held ∧ Accounted cancelledAt settled sent ∧
    (t.isPending = true → t.held ≠ [] ∧ (pasteScan settled).isOutside = true)

structure Carried (cancelledAt : Bytes → Prop) (taken sent : Bytes) (t : EscapeState UInt8 ℕ) :
    Prop where
  settled : Settles cancelledAt taken sent t
  tracks : Tracks t (pasteScan taken)

section Carried

variable {cancelledAt : Bytes → Prop} {taken sent : Bytes} {t : EscapeState UInt8 ℕ}

theorem responseVerdict_drop (h : responseVerdict w = .drop) : isResponse w = true :=
  (QueryResponseFilter.responseVerdict_eq_drop h).1

theorem Tracks.outside (h : Tracks t scan) (ht : t = .ground ∨ t.isPending = true) :
    scan.isOutside = true := by
  cases h with
  | ground => rfl
  | pending w => rfl
  | paste | inside => rcases ht with ht | ht <;> cases ht
  | late h => rfl

theorem Accounted.settle {settled : Bytes} (h : Accounted cancelledAt settled sent)
    (houtside : (pasteScan settled).isOutside = true) :
    ∃ settled', settled ++ w = settled' ++ (responseRules.settle w).2.held ∧
      Accounted cancelledAt settled' (sent ++ (responseRules.settle w).1) ∧
      ((responseRules.settle w).2.isPending = true →
        (responseRules.settle w).2.held = w ∧ settled' = settled) := by
  rw [settle_response]
  cases hverdict : responseVerdict w with
  | more =>
    refine ⟨settled, rfl, ?_, fun _ => ⟨rfl, rfl⟩⟩
    rwa [append_nil]
  | flush => exact ⟨settled ++ w, (append_nil _).symm, h.typed w, nofun⟩
  | drop =>
    refine ⟨settled ++ w, (append_nil _).symm, ?_, nofun⟩
    rw [append_nil]
    exact h.response (responseVerdict_drop hverdict) houtside
  | raw r => exact ⟨settled ++ w, (append_nil _).symm, h.typed w, nofun⟩

theorem Settles.byte (h : Settles cancelledAt taken sent t)
    (houtside : t = .ground → (pasteScan taken).isOutside = true) {byte : UInt8}
    (hpending : t.isPending = true → (pasteScan taken).isOutside = true)
    (htracks : Tracks (responseRules.step t byte).2 (pasteScan (taken ++ [byte]))) :
    Carried cancelledAt (taken ++ [byte]) (sent ++ (responseRules.step t byte).1)
      (responseRules.step t byte).2 := by
  refine ⟨?_, htracks⟩
  obtain ⟨settled, rfl, hacc, hheld⟩ := h
  cases t with
  | ground =>
    have hall : settled ++ (EscapeState.ground : EscapeState UInt8 ℕ).held = settled :=
      append_nil _
    rw [hall] at houtside ⊢
    by_cases hbyte : byte = esc
    · subst hbyte
      have hstep : responseRules.step .ground esc = ([], .pending [esc]) :=
        responseRules.step_ground_esc
      rw [hstep]
      refine ⟨settled, rfl, ?_, fun _ => ⟨cons_ne_nil _ _, houtside rfl⟩⟩
      rwa [append_nil]
    · have hstep : responseRules.step .ground byte = ([byte], .ground) :=
        responseRules.step_ground hbyte
      rw [hstep]
      exact ⟨settled ++ [byte], (append_nil _).symm, hacc.typed _, fun hp => absurd hp Bool.false_ne_true⟩
  | pending w =>
    obtain ⟨hne, hout⟩ := hheld rfl
    by_cases hbyte : byte = esc
    · subst hbyte
      have hstep : responseRules.step (.pending w) esc = (w, .pending [esc]) :=
        responseRules.step_pending_esc w
      rw [hstep]
      exact ⟨settled ++ w, rfl, hacc.typed w, fun _ => ⟨cons_ne_nil _ _, hpending rfl⟩⟩
    · have hstep : responseRules.step (.pending w) byte = responseRules.settle (w ++ [byte]) :=
        responseRules.step_pending hbyte w
      rw [hstep]
      obtain ⟨settled', heq, hacc', hlast⟩ := hacc.settle (w := w ++ [byte]) hout
      refine ⟨settled', ?_, hacc', fun hp => ?_⟩
      · rw [← heq]
        exact append_assoc _ _ _
      · obtain ⟨hw, rfl⟩ := hlast hp
        rw [hw]
        exact ⟨append_ne_nil_of_right_ne_nil _ (cons_ne_nil _ _), hout⟩
  | raw r =>
    have hstep : (responseRules.step (.raw r) byte).1 = [byte] := rfl
    have hheld' : (responseRules.step (.raw r) byte).2.held = [] ∧
        (responseRules.step (.raw r) byte).2.isPending = false := by
      simp only [EscapeRules.step]
      split
      · exact ⟨rfl, rfl⟩
      · exact ⟨rfl, rfl⟩
    unfold Settles
    rw [hstep, hheld'.1, hheld'.2]
    refine ⟨settled ++ [byte], ?_, hacc.typed _, fun hp => absurd hp Bool.false_ne_true⟩
    rw [append_nil]
    exact congrArg (· ++ [byte]) (append_nil settled)

theorem Carried.next (h : Carried cancelledAt taken sent t) (byte : UInt8) :
    Carried cancelledAt (taken ++ [byte]) (sent ++ (responseRules.step t byte).1)
      (responseRules.step t byte).2 := by
  obtain ⟨settled, heq, hacc, hheld⟩ := h.settled
  refine h.settled.byte (fun ht => h.tracks.outside (.inl ht))
    (fun ht => h.tracks.outside (.inr ht)) ?_
  rw [pasteScan_snoc]
  exact h.tracks.step (fun hp => (hheld hp).1) byte

theorem Carried.feed (h : Carried cancelledAt taken sent t) (bytes : Bytes) :
    Carried cancelledAt (taken ++ bytes) (sent ++ (responseRules.read t bytes).1)
      (responseRules.read t bytes).2 := by
  induction bytes generalizing taken sent t with
  | nil =>
    rw [append_nil]
    simpa [EscapeRules.read, Stream.feed] using h
  | cons byte bytes ih =>
    have hrest := ih (h.next byte)
    simpa only [EscapeRules.read, Stream.feed, append_assoc, singleton_append] using hrest

/-- Between two reads. An escape byte that went its own way may be the last thing
the input has and the filter has not. -/
structure Kept (cancelledAt : Bytes → Prop) (taken sent : Bytes) (t : EscapeState UInt8 ℕ) :
    Prop where
  settled : Settles cancelledAt taken sent t
  tracks : Tracks t (pasteScan taken) ∨ t = .ground ∧ pasteScan taken = .outside 1

theorem Carried.kept (h : Carried cancelledAt taken sent t) : Kept cancelledAt taken sent t :=
  ⟨h.settled, .inl h.tracks⟩

theorem Kept.feed (h : Kept cancelledAt taken sent t) {bytes : Bytes}
    (hhead : t = .ground → pasteScan taken = .outside 1 → bytes.head? ≠ some 0x5b) :
    Kept cancelledAt (taken ++ bytes) (sent ++ (responseRules.read t bytes).1)
      (responseRules.read t bytes).2 := by
  rcases h.tracks with htracks | ⟨rfl, hone⟩
  · exact (Carried.feed ⟨h.settled, htracks⟩ bytes).kept
  · cases bytes with
    | nil =>
      rw [append_nil]
      simpa [EscapeRules.read, Stream.feed] using h
    | cons byte bytes =>
      have hbracket : byte ≠ 0x5b := fun hb => hhead rfl hone (congrArg some hb)
      have hout : (pasteScan taken).isOutside = true := by
        rw [hone]
        rfl
      have hfirst : Carried cancelledAt (taken ++ [byte])
          (sent ++ (responseRules.step .ground byte).1) (responseRules.step .ground byte).2 := by
        refine h.settled.byte (fun _ => hout) (fun _ => hout) ?_
        rw [pasteScan_snoc, hone]
        by_cases hbyte : byte = esc
        · subst hbyte
          exact .pending [esc]
        · have hstep : responseRules.step .ground byte = ([byte], .ground) :=
            responseRules.step_ground hbyte
          have hzero : markMatch bracketedPasteBegin 1 byte = 0 :=
            markMatch_of_ne hbyte fun hb => hbracket (Option.some.inj hb).symm
          rw [hstep, PasteScan.next, hzero]
          exact .ground
      have hrest := (hfirst.feed bytes).kept
      simpa only [EscapeRules.read, Stream.feed, append_assoc, singleton_append]
        using hrest

theorem Kept.rest (h : Kept cancelledAt taken sent t) (ht : t = .ground ∨ t = .raw 0) :
    Accounted cancelledAt taken sent ∧
      (t = .ground → pasteScan taken ∈ [PasteScan.outside 0, .outside 1]) := by
  obtain ⟨settled, heq, hacc, -⟩ := h.settled
  have hheld : t.held = [] := by
    rcases ht with rfl | rfl
    · rfl
    · rfl
  rw [hheld, append_nil] at heq
  refine ⟨heq ▸ hacc, ?_⟩
  rintro rfl
  rcases h.tracks with htracks | ⟨-, hone⟩
  · generalize pasteScan taken = scan at htracks
    cases htracks
    exact mem_cons_self
  · rw [hone]
    exact mem_cons_of_mem _ mem_cons_self

theorem Kept.bypass (ht : t = .ground ∨ t = .raw 0) (hacc : Accounted cancelledAt taken sent)
    (hscan : t = .ground → pasteScan taken ∈ [PasteScan.outside 0, .outside 1]) :
    Kept cancelledAt taken sent t := by
  rcases ht with rfl | rfl
  · refine ⟨⟨taken, (append_nil _).symm, hacc, nofun⟩, ?_⟩
    rcases mem_cons.mp (hscan rfl) with hzero | hone
    · rw [hzero]
      exact .inl .ground
    · exact .inr ⟨rfl, mem_singleton.mp hone⟩
  · exact ⟨⟨taken, (append_nil _).symm, hacc, nofun⟩, .inl (.paste _)⟩

end Carried

/-! ## The detach key among the marks -/

theorem PasteScan.scan_outside (h : ∀ byte ∈ bytes, byte ≠ 0x7e) (matched : ℕ) :
    ((PasteScan.outside matched).scan bytes).isOutside = true := by
  induction bytes generalizing matched with
  | nil => rfl
  | cons byte bytes ih =>
    have hnext : markMatch bracketedPasteBegin matched byte ≠ 6 := by
      unfold markMatch
      by_cases hmatch : bracketedPasteBegin[matched]? = some byte
      · rw [if_pos hmatch]
        rintro hsix
        -- the sixth byte of the mark is the only one that completes it
        have hfive : matched = 5 := by omega
        subst hfive
        exact h byte mem_cons_self (Option.some.inj hmatch).symm
      · rw [if_neg hmatch]
        split
        · decide
        · decide
    show ((((PasteScan.outside matched).next byte)).scan bytes).isOutside = true
    rw [PasteScan.next, if_neg hnext]
    exact ih (fun b hb => h b (mem_cons_of_mem byte hb)) _

theorem PasteScan.next_u (h : scan.isOutside = true) : scan.next 0x75 = .outside 0 := by
  cases scan with
  | inside matched => cases h
  | outside matched =>
    have hzero : markMatch bracketedPasteBegin matched 0x75 = 0 := by
      refine markMatch_of_ne (by decide) ?_
      rcases Nat.lt_or_ge matched 6 with hlt | hge
      · interval_cases matched <;> decide
      · rw [List.getElem?_eq_none hge]
        exact nofun
    rw [PasteScan.next, hzero]
    rfl

theorem scan_detachKey (h : isDetachKey key = true)
    (hscan : scan ∈ [PasteScan.outside 0, .outside 1]) : scan.scan key = .outside 0 := by
  simp only [isDetachKey, Bool.or_eq_true, Bool.and_eq_true, beq_iff_eq, all_eq_true] at h
  rcases h with rfl | ⟨⟨⟨hbegins, hlast⟩, hbody⟩, -⟩
  · rcases mem_cons.mp hscan with rfl | hone
    · rfl
    · rw [mem_singleton.mp hone]
      rfl
  · obtain ⟨rest, rfl⟩ := List.isPrefixOf_iff_prefix.mp hbegins
    rcases eq_nil_or_concat' rest with rfl | ⟨body, last, rfl⟩
    · exact absurd hlast (by decide)
    · rw [← append_assoc, List.getLast?_concat] at hlast
      have hu : last = 0x75 := Option.some.inj hlast
      have hsmall : ∀ byte ∈ [esc, 0x5b] ++ body, byte ≠ 0x7e := by
        intro byte hbyte
        rcases mem_append.mp hbyte with hbyte | hbyte
        · rintro rfl
          exact absurd hbyte (by decide)
        · have hdigit := hbody byte (by simpa using hbyte)
          rintro rfl
          exact absurd hdigit (by decide)
      have hout : (scan.scan ([esc, 0x5b] ++ body)).isOutside = true := by
        rcases mem_cons.mp hscan with rfl | hone
        · exact PasteScan.scan_outside hsmall 0
        · rw [mem_singleton.mp hone]
          exact PasteScan.scan_outside hsmall 1
      subst hu
      have hsplit : scan.scan ([esc, 0x5b] ++ (body ++ [0x75])) =
          (scan.scan ([esc, 0x5b] ++ body)).next 0x75 := by
        rw [← append_assoc]
        exact foldl_append
      rw [hsplit]
      exact PasteScan.next_u hout

/-! ## The loops account for everything -/

def AttachInput.Sound (cancelledAt : Bytes → Prop) (s : AttachInput) : Prop :=
  ∃ t, QueryResponseFilter.Reads s.filter t ∧ Kept cancelledAt s.taken s.sent t ∧
    (s.closed = true → t.isPending = false)

section Sound

variable {cancelledAt : Bytes → Prop} {s s' : AttachInput} {f : QueryResponseFilter}
  {r : AttachRead} {t : EscapeState UInt8 ℕ} {bytes : Bytes} {outcome : AttachControlOutcome}

theorem QueryResponseFilter.Reads.rest (h : QueryResponseFilter.Reads f t) (hrest : f.AtRest) :
    t = .ground ∨ t = .raw 0 := by
  cases h with
  | ground n => exact .inl rfl
  | escape n => cases hrest.1
  | csi n htwo hmax =>
    have hempty := hrest.1
    subst hempty
    cases htwo
  | paste n =>
    have hzero : n = 0 := hrest.2 rfl
    exact .inr (congrArg _ hzero)

theorem QueryResponseFilter.Reads.not_paste (h : QueryResponseFilter.Reads f .ground) :
    f.inBracketedPaste = false := by
  cases h
  rfl

theorem AttachInput.Sound.fed (h : s.Sound cancelledAt) (hopen : s.closed = false)
    (hhead : pasteScan s.taken = .outside 1 → s.filter.pending = [] →
      s.filter.inBracketedPaste = false → bytes.head? ≠ some 0x5b)
    (hfilter : s'.filter = (s.filter.feed bytes).2) (htaken : s'.taken = s.taken ++ bytes)
    (hsent : s'.sent = s.sent ++ (s.filter.feed bytes).1) (hclosed : s'.closed = s.closed) :
    s'.Sound cancelledAt := by
  obtain ⟨t, hreads, hkept, -⟩ := h
  have hfeed := feed_simulates QueryResponseFilter.reads_step hreads bytes
  rw [← QueryResponseFilter.feed_eq] at hfeed
  refine ⟨_, hfilter ▸ hfeed.2, ?_, fun hc => ?_⟩
  · rw [htaken, hsent, hfeed.1]
    refine hkept.feed fun ht hone => hhead hone ?_ ?_
    · subst ht
      rw [hreads.pending_eq]
      rfl
    · subst ht
      exact hreads.not_paste
  · rw [hclosed, hopen] at hc
    cases hc

theorem AttachInput.Sound.bypassed (h : s.Sound cancelledAt) (hrest : s.filter.AtRest)
    {sent : Bytes} (hfilter : s'.filter = s.filter) (htaken : s'.taken = s.taken ++ bytes)
    (hsent : s'.sent = s.sent ++ sent) (hacc : Accounted cancelledAt s.taken s.sent →
      Accounted cancelledAt (s.taken ++ bytes) (s.sent ++ sent))
    (hscan : pasteScan s.taken ∈ [PasteScan.outside 0, .outside 1] →
      (pasteScan s.taken).scan bytes ∈ [PasteScan.outside 0, .outside 1]) :
    s'.Sound cancelledAt := by
  obtain ⟨t, hreads, hkept, -⟩ := h
  have ht := hreads.rest hrest
  obtain ⟨hsettled, hground⟩ := hkept.rest ht
  refine ⟨t, hfilter ▸ hreads, ?_, fun _ => ?_⟩
  · rw [htaken, hsent]
    refine Kept.bypass ht (hacc hsettled) fun htg => ?_
    rw [pasteScan_append]
    exact hscan (hground htg)
  · rcases ht with rfl | rfl
    · rfl
    · rfl

theorem scan_esc (h : scan ∈ [PasteScan.outside 0, .outside 1]) :
    scan.scan [esc] ∈ [PasteScan.outside 0, .outside 1] := by
  rcases mem_cons.mp h with rfl | hone
  · decide
  · rw [mem_singleton.mp hone]
    decide

theorem scan_key_command {key : Bytes} (hkey : isDetachKey key = true) {command : Bytes}
    (hcommand : pasteScan command ∈ [PasteScan.outside 0, .outside 1])
    (hscan : scan ∈ [PasteScan.outside 0, .outside 1]) :
    scan.scan (key ++ command) ∈ [PasteScan.outside 0, .outside 1] := by
  have hsplit : scan.scan (key ++ command) = (scan.scan key).scan command := foldl_append
  rw [hsplit, scan_detachKey hkey hscan]
  exact hcommand

theorem AttachInput.cancelPaste_spec (s : AttachInput) :
    ∃ closing, (closing = [] ∨ closing = bracketedPasteEnd) ∧ s.cancelPaste.filter = s.filter ∧
      s.cancelPaste.taken = s.taken ∧ s.cancelPaste.sent = s.sent ++ closing := by
  unfold AttachInput.cancelPaste
  by_cases hpaste : s.bracketed.inPaste = true
  · rw [if_pos hpaste]
    exact ⟨bracketedPasteEnd, .inr rfl, rfl, rfl, rfl⟩
  · rw [if_neg hpaste]
    exact ⟨[], .inl rfl, rfl, rfl, (append_nil _).symm⟩

theorem AttachInput.runAttachControlMode_spec (controls : AttachControls) (s : AttachInput)
    (control : ControlRead) (h : s.runAttachControlMode controls control = (outcome, s')) :
    s'.filter = s.filter ∧ s'.taken = s.taken ++ control.bytes ∧
      (s'.sent = s.sent ∧ control.bytes ∈ controlCommands ∨
        s'.sent = s.sent ++ control.bytes ∧ outcome = .continues) ∧
      (outcome = .cancelPaste → control.bytes = [0x63]) := by
  cases control with
  | timeout | eof =>
    cases h
    exact ⟨rfl, (append_nil _).symm, .inl ⟨rfl, by decide⟩, nofun⟩
  | command command =>
    simp only [AttachInput.runAttachControlMode] at h
    split_ifs at h with hdetach hkick hreload hcancel hescape
    · cases h
      exact ⟨rfl, rfl, .inl ⟨rfl, by simp [ControlRead.bytes, hdetach, controlCommands]⟩, nofun⟩
    · cases h
      exact ⟨rfl, rfl, .inl ⟨rfl, by simp [ControlRead.bytes, hkick.1, controlCommands]⟩, nofun⟩
    · cases h
      exact ⟨rfl, rfl, .inl ⟨rfl, by simp [ControlRead.bytes, hreload.1, controlCommands]⟩, nofun⟩
    · cases h
      exact ⟨rfl, rfl, .inl ⟨rfl, by simp [ControlRead.bytes, hcancel.1, controlCommands]⟩,
        fun _ => hcancel.1⟩
    · cases h
      exact ⟨rfl, rfl, .inl ⟨rfl, by simp [ControlRead.bytes, hescape, controlCommands]⟩, nofun⟩
    · cases h
      exact ⟨rfl, rfl, .inr ⟨rfl, rfl⟩, nofun⟩

theorem AttachInput.Sound.control (controls : AttachControls) (h : s.Sound cancelledAt)
    (hkey : isDetachKey r.chunk = true) (houtside : (pasteScan s.taken).isOutside = true)
    (hrest : s.filter.AtRest) (hplain : r.control.Plain)
    (hrun : (s.observe r).runAttachControlMode controls r.control = (outcome, s')) :
    s'.Sound cancelledAt ∧ (outcome = .cancelPaste → s'.cancelPaste.Sound cancelledAt) := by
  obtain ⟨hfilter, htaken, hsent, hcancel⟩ :=
    AttachInput.runAttachControlMode_spec controls _ _ hrun
  have htaken' : s'.taken = s.taken ++ (r.chunk ++ r.control.bytes) := by
    rw [htaken, ← append_assoc]
    rfl
  have hscan : pasteScan s.taken ∈ [PasteScan.outside 0, .outside 1] →
      (pasteScan s.taken).scan (r.chunk ++ r.control.bytes) ∈
        [PasteScan.outside 0, .outside 1] := fun hs => scan_key_command hkey hplain hs
  constructor
  · rcases hsent with ⟨hsent, hcommand⟩ | ⟨hsent, -⟩
    · have hsent' : s'.sent = s.sent ++ [] := hsent.trans (append_nil _).symm
      exact h.bypassed hrest hfilter htaken' hsent'
        (fun hacc => hacc.command hkey houtside hcommand (.inl rfl)) hscan
    · -- a read that is no command follows the key to the session
      refine h.bypassed hrest hfilter htaken' hsent (fun hacc => ?_) hscan
      have hkeyed : Accounted cancelledAt (s.taken ++ (r.chunk ++ [])) (s.sent ++ []) :=
        hacc.command hkey houtside (by decide) (.inl rfl)
      have htyped := hkeyed.typed r.control.bytes
      simpa only [append_nil, append_assoc] using htyped
  · intro houtcome
    obtain ⟨closing, hclosing, hfilter', htaken'', hsent'⟩ := s'.cancelPaste_spec
    have hc := hcancel houtcome
    rcases hsent with ⟨hsent, hcommand⟩ | ⟨-, hcontinue⟩
    · refine h.bypassed hrest (hfilter'.trans hfilter) (htaken''.trans htaken')
        (hsent'.trans (congrArg (· ++ closing) hsent)) (fun hacc => ?_) hscan
      refine hacc.command hkey houtside hcommand ?_
      rcases hclosing with hclosing | hclosing
      · exact .inl hclosing
      · exact .inr ⟨hc, hclosing⟩
    · rw [hcontinue] at houtcome
      cases houtcome

theorem AttachInput.escapeTail_head? (waits : Bool) (r : AttachRead) :
    (r.chunk ++ escapeTail waits r).head? = r.chunk.head? := by
  unfold escapeTail
  split
  · next hwaits =>
      rw [hwaits.2.1]
      rfl
  · rw [append_nil]

theorem AttachInput.Sound.forwarded {waits : Bool} (h : s.Sound cancelledAt)
    (hopen : s.closed = false)
    (hcareful : if r.chunk ++ escapeTail waits r = [esc] ∧ r.reload = true then s.filter.AtRest
      else pasteScan s.taken = .outside 1 → s.filter.pending = [] →
        s.filter.inBracketedPaste = false → r.chunk.head? ≠ some 0x5b) :
    (((s.observe r).take (escapeTail waits r)).forward r (r.chunk ++ escapeTail waits r)).Sound
      cancelledAt := by
  have hfirst : (r.chunk ++ escapeTail waits r).head? = r.chunk.head? := AttachInput.escapeTail_head? waits r
  generalize hs' : ((s.observe r).take (escapeTail waits r)).forward r
    (r.chunk ++ escapeTail waits r) = s'
  have htaken : s'.taken = s.taken ++ (r.chunk ++ escapeTail waits r) := by
    rw [← hs']
    exact append_assoc _ _ _
  generalize r.chunk ++ escapeTail waits r = outbound at *
  have hfilter : s'.filter = (filterAttachStdinOutbound s.filter r.reload outbound).2 := by
    rw [← hs']
    rfl
  have hsent : s'.sent = s.sent ++ (filterAttachStdinOutbound s.filter r.reload outbound).1 := by
    rw [← hs']
    rfl
  have hclosed : s'.closed = s.closed := by
    rw [← hs']
    rfl
  unfold filterAttachStdinOutbound at hfilter hsent
  by_cases hreload : outbound = [esc] ∧ r.reload = true
  · rw [if_pos hreload] at hcareful hfilter hsent
    refine h.bypassed hcareful hfilter htaken hsent (fun hacc => hacc.typed _) ?_
    rw [hreload.1]
    exact scan_esc
  · rw [if_neg hreload] at hcareful hfilter hsent
    refine h.fed hopen (fun hone hempty hpaste => ?_) hfilter htaken hsent hclosed
    rw [hfirst]
    exact hcareful hone hempty hpaste

theorem AttachInput.Sound.read (loop : AttachLoop) (controls : AttachControls)
    (h : s.Sound cancelledAt) (hcareful : s.Careful loop (.read r))
    (hcancelled : r.chunk = [esc] → (s.observe r).paste.active = true → cancelledAt s.taken) :
    (attachRead loop.waits controls s r).Sound cancelledAt := by
  obtain ⟨hopen, hcareful⟩ := hcareful
  unfold attachRead
  by_cases hkey : isCtrlBackslashSequence r.chunk = true
  · rw [if_pos hkey] at hcareful
    obtain ⟨hdetach, houtside, hrest, hplain⟩ := hcareful
    simp only [if_pos hkey]
    cases hrun : (s.observe r).runAttachControlMode controls r.control with
    | mk outcome s' =>
      obtain ⟨hsound, hcancel⟩ := h.control controls hdetach houtside hrest hplain hrun
      cases outcome with
      | continues | detached => exact hsound
      | cancelPaste => exact hcancel rfl
  · rw [if_neg hkey] at hcareful
    simp only [if_neg hkey]
    by_cases hlone : (s.observe r).paste.active = true ∧ r.chunk = [esc]
    · rw [if_pos hlone] at hcareful
      simp only [if_pos hlone]
      obtain ⟨closing, hclosing, hfilter, htaken, hsent⟩ := (s.observe r).cancelPaste_spec
      have htaken' : (s.observe r).cancelPaste.taken = s.taken ++ [esc] := by
        rw [htaken, ← hlone.2]
        rfl
      exact h.bypassed hcareful hfilter htaken' hsent
        (fun hacc => hacc.cancelled (hcancelled hlone.2 hlone.1) hclosing) scan_esc
    · rw [if_neg hlone] at hcareful
      simp only [if_neg hlone]
      exact h.forwarded hopen hcareful

theorem QueryResponseFilter.Reads.flushTimeout (h : QueryResponseFilter.Reads f t) :
    f.flushTimeout = ([], f) ∨
      t = .pending [esc] ∧ f.flushTimeout.1 = [esc] ∧
        QueryResponseFilter.Reads f.flushTimeout.2 .ground := by
  cases h with
  | ground n => exact .inl rfl
  | escape n => exact .inr ⟨rfl, rfl, .ground n⟩
  | csi | paste => exact .inl rfl

theorem AttachInput.Sound.idle (h : s.Sound cancelledAt) (hopen : s.closed = false) :
    s.idle.Sound cancelledAt := by
  have hclosed : s.idle.closed = true → False := fun hc => nomatch hopen.symm.trans hc
  obtain ⟨t, hreads, hkept, -⟩ := h
  rcases hreads.flushTimeout with hsame | ⟨rfl, hout, hground⟩
  · have hfilter : s.idle.filter = s.filter := congrArg Prod.snd hsame
    have hsent : s.idle.sent = s.sent := by
      have h := congrArg (fun flushed : Bytes × QueryResponseFilter => s.sent ++ flushed.1) hsame
      exact h.trans (append_nil _)
    refine ⟨t, hfilter ▸ hreads, ?_, fun hc => (hclosed hc).elim⟩
    rw [hsent]
    exact hkept
  · obtain ⟨settled, htaken, hacc, -⟩ := hkept.settled
    refine ⟨.ground, hground, ⟨⟨settled ++ [esc], ?_, ?_, nofun⟩, .inr ⟨rfl, ?_⟩⟩,
      fun hc => (hclosed hc).elim⟩
    · exact htaken.trans (append_nil _).symm
    · have hsent : s.idle.sent = s.sent ++ [esc] := congrArg (s.sent ++ ·) hout
      rw [hsent]
      exact hacc.typed [esc]
    · -- the filter forgets the escape byte, the input has it
      show pasteScan s.taken = .outside 1
      rcases hkept.tracks with htracks | ⟨hcase, -⟩
      · generalize pasteScan s.taken = scan at htracks
        cases htracks
        rfl
      · cases hcase

theorem AttachLoop.read_eq (loop : AttachLoop) : loop.read = attachRead loop.waits := by
  cases loop with
  | coordinator => rfl
  | stdinLoop => rfl

theorem AttachInput.Sound.step (loop : AttachLoop) (controls : AttachControls)
    (h : s.Sound cancelledAt) {event : AttachEvent} (hcareful : s.Careful loop event)
    (hcancelled : ∀ r, event = .read r → r.chunk = [esc] → (s.observe r).paste.active = true →
      cancelledAt s.taken) :
    (loop.step controls s event).Sound cancelledAt := by
  cases event with
  | read r =>
    show (loop.read controls s r).Sound cancelledAt
    rw [loop.read_eq]
    exact h.read loop controls hcareful (hcancelled r rfl)
  | idle => exact h.idle hcareful
  | eof =>
    obtain ⟨t, hreads, hkept, -⟩ := h
    exact ⟨t, hreads, hkept, fun _ => hreads.isPending_eq_false (congrArg _ hcareful.2)⟩

theorem AttachInput.Sound.new : AttachInput.new.Sound cancelledAt :=
  ⟨.ground, .ground 0, ⟨⟨[], rfl, .nil, nofun⟩, .inl .ground⟩, nofun⟩

end Sound

/-- The invariant after any number of events of a run; which pastes were cancelled
is a fact about the whole of it. -/
theorem AttachLoop.sound_run {loop : AttachLoop} {controls : AttachControls}
    {events : List AttachEvent} (done rest : List AttachEvent) (hevents : events = done ++ rest)
    (h : (loop.run controls done).Sound (CancelledAt loop controls events))
    (hguard : Run.Guarded (loop.step controls) (AttachInput.Careful loop) (loop.run controls done)
      rest) :
    (loop.run controls events).Sound (CancelledAt loop controls events) := by
  induction rest generalizing done with
  | nil =>
    rw [append_nil] at hevents
    rwa [← hevents] at h
  | cons event rest ih =>
    obtain ⟨hcareful, hrest⟩ := hguard
    have hnext : loop.run controls (done ++ [event]) =
        loop.step controls (loop.run controls done) event := foldl_append
    have hsplit : events = done ++ [event] ++ rest := by
      rw [hevents, append_assoc]
      rfl
    refine ih (done ++ [event]) hsplit ?_ ?_
    · rw [hnext]
      refine h.step loop controls hcareful fun r hr hesc hactive => ?_
      exact ⟨done, r, rest, hr ▸ hevents, rfl, hesc, hactive⟩
    · rwa [hnext]

/-- **What is typed and pasted reaches the session.** -/
theorem attach_input_delivers (loop : AttachLoop) (controls : AttachControls)
    (events : List AttachEvent)
    (h : Run.Guarded (loop.step controls) (AttachInput.Careful loop) .new events) :
    Delivered loop controls events := by
  obtain ⟨t, hreads, hkept, hclosed⟩ : (loop.run controls events).Sound _ :=
    AttachLoop.sound_run [] events rfl .new h
  obtain ⟨settled, htaken, hacc, -⟩ := hkept.settled
  refine ⟨settled, ?_, hacc, fun hc => ?_⟩
  · rw [htaken, hreads.pending_eq]
  · rw [hreads.pending_eq]
    cases t with
    | pending w => cases hclosed hc
    | ground => rfl
    | raw n => rfl

def plainRead (chunk : Bytes) (control : ControlRead) : AttachEvent :=
  .read ⟨chunk, 0, false, [], false, 0, control⟩

/-- A letter, an answer of the terminal, the key with the command to kick the other
clients, and a paste. -/
theorem attach_input_delivers_session :
    Delivered .coordinator ⟨true, true⟩
        [plainRead [0x61] .timeout, plainRead [esc, 0x5b, 0x3f, 0x31, 0x3b, 0x32, 0x63] .timeout,
          plainRead [0x1c] (.command [0x6b]),
          plainRead (bracketedPasteBegin ++ [0x62] ++ bracketedPasteEnd) .timeout, .eof] ∧
      (AttachLoop.coordinator.run ⟨true, true⟩
        [plainRead [0x61] .timeout, plainRead [esc, 0x5b, 0x3f, 0x31, 0x3b, 0x32, 0x63] .timeout,
          plainRead [0x1c] (.command [0x6b]),
          plainRead (bracketedPasteBegin ++ [0x62] ++ bracketedPasteEnd) .timeout, .eof]).sent =
        [0x61] ++ bracketedPasteBegin ++ [0x62] ++ bracketedPasteEnd :=
  ⟨attach_input_delivers _ _ _ (by decide +kernel), by decide +kernel⟩

theorem isResponse_head? (h : isResponse bytes = true) : bytes.head? = some esc := by
  match bytes with
  | [] => exact absurd h (by decide)
  | [byte] => simp [isResponse, List.isPrefixOf?] at h
  | byte :: next :: rest =>
    by_cases hbyte : byte = esc
    · rw [hbyte]
      rfl
    · simp [isResponse, List.isPrefixOf?, Ne.symm hbyte] at h

theorem isDetachKey_head? (h : isDetachKey key = true) :
    key.head? = some esc ∨ key.head? = some 0x1c := by
  simp only [isDetachKey, Bool.or_eq_true, Bool.and_eq_true, beq_iff_eq] at h
  rcases h with rfl | ⟨⟨⟨hbegins, -⟩, -⟩, -⟩
  · exact .inr rfl
  · obtain ⟨rest, rfl⟩ := List.isPrefixOf_iff_prefix.mp hbegins
    exact .inl rfl

/-- The first byte of the input is the first that arrives, unless it begins a
sequence. -/
def HeadKept (input sent : Bytes) : Prop :=
  (input = [] → sent = []) ∧
    ∀ byte, input.head? = some byte → byte ≠ esc → byte ≠ 0x1c → sent.head? = some byte

theorem HeadKept.omit {omitted : Bytes} (h : HeadKept input sent)
    (homitted : omitted.head? = some esc ∨ omitted.head? = some 0x1c) (closing : Bytes) :
    HeadKept (input ++ omitted) (sent ++ closing) := by
  obtain ⟨-, hhead⟩ := h
  constructor
  · intro hnil
    rw [(append_eq_nil_iff.mp hnil).2] at homitted
    rcases homitted with homitted | homitted <;> cases homitted
  · intro byte hbyte hesc hkey
    cases input with
    | nil =>
      rw [nil_append] at hbyte
      rcases homitted with homitted | homitted
      · exact absurd (Option.some.inj (hbyte.symm.trans homitted)) hesc
      · exact absurd (Option.some.inj (hbyte.symm.trans homitted)) hkey
    | cons first input => rw [List.head?_append, hhead byte hbyte hesc hkey, Option.some_or]

theorem Accounted.headKept {cancelledAt : Bytes → Prop} (h : Accounted cancelledAt input sent) :
    HeadKept input sent := by
  induction h with
  | nil => exact ⟨fun _ => rfl, nofun⟩
  | @typed input sent h bytes ih =>
    obtain ⟨hnil, hhead⟩ := ih
    cases input with
    | nil =>
      rw [hnil rfl]
      exact ⟨id, fun _ hbyte _ _ => hbyte⟩
    | cons first input =>
      refine ⟨nofun, fun byte hbyte hesc hkey => ?_⟩
      rw [List.head?_append, hhead byte hbyte hesc hkey, Option.some_or]
  | @response input sent bytes h hresponse houtside ih =>
    have homit := ih.omit (.inl (isResponse_head? hresponse)) []
    rwa [append_nil] at homit
  | @command input sent key command closing h hkey houtside hcommand hclosing ih =>
    refine ih.omit ?_ closing
    rcases isDetachKey_head? hkey with hfirst | hfirst
    · exact .inl (by rw [List.head?_append, hfirst, Option.some_or])
    · exact .inr (by rw [List.head?_append, hfirst, Option.some_or])
  | cancelled h hcancelled hclosing ih => exact ih.omit (.inl rfl) _

def pasteWithDetachByte : Bytes := [0x61] ++ bracketedPasteBegin ++ [0x1c] ++ bracketedPasteEnd

theorem AttachLoop.run_pasteWithDetachByte (loop : AttachLoop) (controls : AttachControls) :
    (loop.run controls [plainRead pasteWithDetachByte .timeout]).taken = pasteWithDetachByte ∧
      (loop.run controls [plainRead pasteWithDetachByte .timeout]).sent = [] ∧
      (loop.run controls [plainRead pasteWithDetachByte .timeout]).filter.pending = [] := by
  cases loop with
  | coordinator | stdinLoop => exact ⟨rfl, rfl, rfl⟩

theorem not_delivered_pasteWithDetachByte (loop : AttachLoop) (controls : AttachControls) :
    ¬ Delivered loop controls [plainRead pasteWithDetachByte .timeout] := by
  obtain ⟨htaken, hsent, hpending⟩ := loop.run_pasteWithDetachByte controls
  rintro ⟨settled, hall, hacc, -⟩
  rw [htaken, hpending, append_nil] at hall
  rw [← hall, hsent] at hacc
  cases hacc.headKept.2 0x61 rfl (by decide) (by decide)

theorem attach_input_loses_paste :
    isCtrlBackslashSequence pasteWithDetachByte = true ∧
      (AttachLoop.coordinator.run ⟨true, true⟩ [plainRead pasteWithDetachByte .timeout]).sent = [] ∧
      ¬ Delivered .coordinator ⟨true, true⟩ [plainRead pasteWithDetachByte .timeout] ∧
      ¬ Delivered .stdinLoop ⟨true, true⟩ [plainRead pasteWithDetachByte .timeout] :=
  ⟨rfl, (AttachLoop.run_pasteWithDetachByte _ _).2.1, not_delivered_pasteWithDetachByte _ _,
    not_delivered_pasteWithDetachByte _ _⟩

end Portl

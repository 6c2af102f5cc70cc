import Mathlib.Tactic.IntervalCases
import Portl.Lib.Match
import Portl.Lib.Pieces
import Portl.Terminal.ResponseFilter

/-!
# Bracketed paste

The response filter over whole runs: chunks of input and timeouts in any order,
and `finish` at the end. What is pasted goes through untouched, up to the first
end mark in it and no further, and apart from answers outside a paste the filter
loses nothing.

The end mark is found by `track_bracketed_paste_end`, which counts how much of
it has been read. ESC comes only once in the mark, so the count is the longest
match (`Match.Tracks`).
-/

namespace Portl

open Stream List

inductive FilterCall where
  | feed (bytes : Bytes)
  | flushTimeout

/-- What the filter takes one at a time: the bytes of a chunk, and timeouts. -/
inductive FilterStep where
  | byte (b : UInt8)
  | timeout
deriving DecidableEq

def FilterStep.read : FilterStep → Bytes
  | .byte b => [b]
  | .timeout => []

def FilterCall.steps : FilterCall → List FilterStep
  | .feed bytes => bytes.map .byte
  | .flushTimeout => [.timeout]

def readBytes (steps : List FilterStep) : Bytes := steps.flatMap FilterStep.read

theorem readBytes_append (u v : List FilterStep) :
    readBytes (u ++ v) = readBytes u ++ readBytes v := flatMap_append

theorem readBytes_concat_byte (u : List FilterStep) (byte : UInt8) :
    readBytes (u ++ [FilterStep.byte byte]) = readBytes u ++ [byte] := readBytes_append u _

theorem readBytes_concat_timeout (u : List FilterStep) :
    readBytes (u ++ [.timeout]) = readBytes u :=
  (readBytes_append u _).trans (append_nil _)

namespace QueryResponseFilter

def finish (s : QueryResponseFilter) : Bytes × QueryResponseFilter :=
  let (out, s) := s.flushPending []
  (out, { s with mode := .ground, inBracketedPaste := false, pasteEndMatch := 0 })

def call (s : QueryResponseFilter) : FilterCall → Bytes × QueryResponseFilter
  | .feed bytes => s.feed bytes
  | .flushTimeout => s.flushTimeout

def runCalls (s : QueryResponseFilter) (calls : List FilterCall) : Bytes × QueryResponseFilter :=
  calls.foldl (fun r c => (r.1 ++ (r.2.call c).1, (r.2.call c).2)) ([], s)

def advance (s : QueryResponseFilter) : FilterStep → Bytes × QueryResponseFilter
  | .byte byte => s.step byte
  | .timeout => s.flushTimeout

def runSteps (s : QueryResponseFilter) (steps : List FilterStep) : Bytes × QueryResponseFilter :=
  Stream.feed advance s steps

theorem call_eq (s : QueryResponseFilter) (c : FilterCall) :
    s.call c = Stream.feed advance s c.steps := by
  cases c with
  | feed bytes =>
    show s.feed bytes = Stream.feed advance s (bytes.map .byte)
    rw [feed_eq]
    induction bytes generalizing s with
    | nil => rfl
    | cons byte bytes ih =>
      simp only [map_cons, Stream.feed, ih]
      rfl
  | flushTimeout => exact (feed_singleton s _).symm

/-- **Cuts make no difference**: calls are their steps. -/
theorem runCalls_eq (s : QueryResponseFilter) (calls : List FilterCall) :
    s.runCalls calls = s.runSteps (calls.flatMap FilterCall.steps) := by
  have h : (calls.map FilterCall.steps).foldl (fun r steps =>
      (r.1 ++ (Stream.feed advance r.2 steps).1, (Stream.feed advance r.2 steps).2)) ([], s) = _ :=
    foldl_chunks_eq_feed [] s _
  rw [foldl_map] at h
  simp only [runCalls, call_eq, h, nil_append, runSteps, flatMap_def]

end QueryResponseFilter

/-! ## The escape filter with timeouts -/

def responseAdvance (t : EscapeState UInt8 ℕ) : FilterStep → Bytes × EscapeState UInt8 ℕ
  | .byte byte => responseRules.step t byte
  | .timeout =>
    match t with
    | .pending w => if w.length = 1 then (w, .ground) else ([], .pending w)
    | t => ([], t)

theorem responseAdvance_moves (t : EscapeState UInt8 ℕ) (e : FilterStep) :
    Moves EscapeState.held (fun t => t.isRaw = true) (fun w => responseRules.verdict w = .drop) t
      (responseAdvance t e).2 e.read (responseAdvance t e).1 := by
  cases e with
  | byte byte => exact responseRules.step_moves t byte
  | timeout =>
    cases t with
    | ground => exact .hold rfl rfl id
    | pending w =>
      simp only [responseAdvance, FilterStep.read]
      split_ifs
      · exact .pass (append_nil w).symm rfl
      · exact .hold rfl (append_nil w).symm id
    | raw n => exact .hold rfl rfl id

variable {n : ℕ} {byte : UInt8}

theorem responseVerdict_eq_raw {w : Bytes} (h : responseVerdict w = .raw n) :
    w = bracketedPasteBegin ∧ n = 0 := by
  unfold responseVerdict at h
  split_ifs at h with htwo hbracket hlong hmore hpaste hresponse
  cases h
  exact ⟨hpaste, rfl⟩

variable {t : EscapeState UInt8 ℕ}

theorem responseAdvance_opens (hout : t.isRaw = false)
    (hin : (responseAdvance t (.byte byte)).2.isRaw = true) :
    t.held ++ [byte] = bracketedPasteBegin ∧ (responseAdvance t (.byte byte)).2 = .raw 0 := by
  cases t with
  | ground =>
    simp only [responseAdvance, EscapeRules.step] at hin
    split_ifs at hin
    · cases hin
    · cases hin
  | pending w =>
    by_cases hesc : byte = esc
    · subst hesc
      have hcut : responseAdvance (.pending w) (.byte esc) = (w, .pending [esc]) :=
        responseRules.step_pending_esc w
      rw [hcut] at hin
      cases hin
    · have hsettle : responseAdvance (.pending w) (.byte byte) =
          responseRules.settle (w ++ [byte]) := responseRules.step_pending hesc w
      rw [hsettle] at hin ⊢
      unfold EscapeRules.settle at hin ⊢
      cases hv : responseRules.verdict (w ++ [byte]) with
      | more | flush | drop => rw [hv] at hin; cases hin
      | raw n =>
        obtain ⟨hbegin, rfl⟩ := responseVerdict_eq_raw hv
        exact ⟨hbegin, rfl⟩
  | raw n => cases hout

theorem pasteNext_eq_next (n : ℕ) (byte : UInt8) :
    pasteNext n byte = Match.next bracketedPasteEnd n byte := by
  have hhead : bracketedPasteEnd.head? = some byte ↔ byte = esc := by
    rw [show bracketedPasteEnd.head? = some esc from rfl, Option.some.injEq, eq_comm]
  simp [pasteNext, Match.next, hhead]

theorem responseAdvance_raw {n' : ℕ} (h : pasteNext n byte = some n') :
    responseAdvance (.raw n) (.byte byte) = ([byte], .raw n') := by
  simp [responseAdvance, EscapeRules.step, responseRules, h]

theorem responseAdvance_raw_end (h : pasteNext n byte = none) :
    responseAdvance (.raw n) (.byte byte) = ([byte], .ground) := by
  simp [responseAdvance, EscapeRules.step, responseRules, h]

/-- **Inside a paste** every byte goes through and timeouts do nothing; the filter
is inside until the end mark is complete. -/
theorem feed_paste (v : List FilterStep) (h : ¬ bracketedPasteEnd <:+: (readBytes v).dropLast) :
    (feed responseAdvance (.raw 0) v).1 = readBytes v ∧
      ((∃ n, (feed responseAdvance (.raw 0) v).2 = .raw n ∧
          Match.Tracks bracketedPasteEnd (readBytes v) n) ∨
        ((feed responseAdvance (.raw 0) v).2 = .ground ∧ bracketedPasteEnd <:+: readBytes v)) := by
  induction v using List.reverseRecOn with
  | nil => exact ⟨rfl, .inl ⟨0, rfl, Match.tracks_nil (by decide)⟩⟩
  | append_singleton v e ih =>
    rw [feed_append, feed_singleton]
    cases e with
    | timeout =>
      rw [readBytes_concat_timeout] at h ⊢
      obtain ⟨hout, hstate⟩ := ih h
      rcases hstate with ⟨n, hraw, htracks⟩ | ⟨hground, hfound⟩
      · rw [hraw, hout]
        exact ⟨append_nil _, .inl ⟨n, rfl, htracks⟩⟩
      · rw [hground, hout]
        exact ⟨append_nil _, .inr ⟨rfl, hfound⟩⟩
    | byte byte =>
      rw [readBytes_concat_byte, dropLast_concat] at h
      have hearlier : ¬ bracketedPasteEnd <:+: (readBytes v).dropLast :=
        fun hearly => h (hearly.trans (List.dropLast_prefix _).isInfix)
      obtain ⟨hout, hstate⟩ := ih hearlier
      rw [readBytes_concat_byte]
      rcases hstate with ⟨n, hraw, htracks⟩ | ⟨-, hfound⟩
      · rw [hraw, hout]
        rcases Match.tracks_next (by decide) htracks byte with
          ⟨n', hnext, htracks'⟩ | ⟨hnext, hend⟩
        · rw [responseAdvance_raw ((pasteNext_eq_next n byte).trans hnext)]
          exact ⟨rfl, .inl ⟨n', rfl, htracks'⟩⟩
        · rw [responseAdvance_raw_end ((pasteNext_eq_next n byte).trans hnext)]
          exact ⟨rfl, .inr ⟨rfl, hend.isInfix⟩⟩
      · exact absurd hfound h

theorem feed_begin {rest : List FilterStep} {k : ℕ} (htwo : 2 ≤ k) (hsix : k < 6)
    (h : readBytes rest = bracketedPasteBegin.drop k) :
    (feed responseAdvance (.pending (bracketedPasteBegin.take k)) rest).2.isRaw = true := by
  induction rest generalizing k with
  | nil =>
    have hlen := congrArg List.length h
    rw [length_drop] at hlen
    have hzero : 0 = 6 - k := hlen
    omega
  | cons e rest ih =>
    cases e with
    | timeout =>
      have hlen : ¬ (bracketedPasteBegin.take k).length = 1 := by
        rw [length_take, show bracketedPasteBegin.length = 6 from rfl]
        omega
      have hquiet : responseAdvance (.pending (bracketedPasteBegin.take k)) .timeout =
          ([], .pending (bracketedPasteBegin.take k)) := if_neg hlen
      simp only [feed, hquiet]
      exact ih htwo hsix h
    | byte byte =>
      have hread : byte :: readBytes rest = bracketedPasteBegin.drop k := h
      have hk : k < bracketedPasteBegin.length := hsix
      rw [drop_eq_getElem_cons hk] at hread
      obtain ⟨rfl, hrest⟩ := List.cons.inj hread
      rcases Nat.lt_or_ge k 5 with hlt | hge
      · have hmore : responseAdvance (.pending (bracketedPasteBegin.take k))
            (.byte bracketedPasteBegin[k]) =
            ([], .pending (bracketedPasteBegin.take (k + 1))) := by
          interval_cases k
          · rfl
          · rfl
          · rfl
        simp only [feed, hmore]
        exact ih (Nat.le_succ_of_le htwo) (Nat.succ_lt_succ hlt) hrest
      · obtain rfl : k = 5 := by omega
        have hopen : responseAdvance (.pending (bracketedPasteBegin.take 5))
            (.byte bracketedPasteBegin[5]) = (bracketedPasteBegin, .raw 0) := rfl
        -- only timeouts are left
        have hnone : readBytes rest = [] := hrest
        have hpaste := (feed_paste rest (by rw [hnone]; decide)).2
        simp only [feed, hopen]
        rcases hpaste with ⟨n, hraw, -⟩ | ⟨-, hfound⟩
        · rw [hraw]
          rfl
        · rw [hnone] at hfound
          exact absurd hfound (by decide)

theorem feed_opens (hout : t.isRaw = false) {rest : List FilterStep}
    (h : readBytes rest = [0x32, 0x30, 0x30, 0x7e]) :
    (feed responseAdvance t (.byte esc :: .byte 0x5b :: rest)).2.isRaw = true := by
  have hesc : (responseAdvance t (.byte esc)).2 = .pending [esc] := by
    cases t with
    | ground => rfl
    | pending w => rfl
    | raw n => cases hout
  have hbracket : (responseAdvance (.pending [esc]) (.byte 0x5b)).2 =
      .pending (bracketedPasteBegin.take 2) := rfl
  simp only [feed, hesc, hbracket]
  exact feed_begin le_rfl (by decide) h

namespace QueryResponseFilter

theorem advance_reads (s : QueryResponseFilter) (t : EscapeState UInt8 ℕ) (e : FilterStep)
    (h : Reads s t) : Alike Reads (s.advance e) (responseAdvance t e) := by
  cases e with
  | byte byte => exact reads_step s t byte h
  | timeout =>
    cases h with
    | ground n | escape n => exact ⟨rfl, .ground n⟩
    | @csi w n htwo hmax =>
      have hlong : ¬ w.length = 1 := by omega
      simp only [responseAdvance, if_neg hlong]
      exact ⟨rfl, .csi n htwo hmax⟩
    | paste n => exact ⟨rfl, .paste n⟩

theorem Reads.inBracketedPaste_eq {s : QueryResponseFilter} {t : EscapeState UInt8 ℕ}
    (h : Reads s t) : s.inBracketedPaste = t.isRaw := by
  cases h with
  | ground | escape | csi | paste => rfl

def inPasteAfter (steps : List FilterStep) : Bool := (new.runSteps steps).2.inBracketedPaste

theorem runSteps_reads (steps : List FilterStep) :
    Alike Reads (new.runSteps steps) (Stream.feed responseAdvance .ground steps) :=
  feed_simulates advance_reads reads_start steps

theorem inPasteAfter_eq (steps : List FilterStep) :
    inPasteAfter steps = (Stream.feed responseAdvance .ground steps).2.isRaw :=
  (runSteps_reads steps).2.inBracketedPaste_eq

/-! ## What is taken out of a run -/

/-- `out` is the bytes of the steps without some answers, each as long as the
buffer at most and read outside every paste. -/
def DropsOnlyResponses (steps : List FilterStep) (out : Bytes) : Prop :=
  ∃ pieces : List (Piece FilterStep),
    steps = pieces.flatMap Piece.input ∧ out = pieces.flatMap (Piece.output FilterStep.read) ∧
      ∀ (pre post : List (Piece FilterStep)) (u : List FilterStep),
        pieces = pre ++ Piece.dropped u :: post →
        isResponse (readBytes u) = true ∧ (readBytes u).length ≤ maxBuffered ∧
          ∀ v, v <+: u → inPasteAfter (pre.flatMap Piece.input ++ v) = false

theorem runSteps_parted (steps : List FilterStep) :
    ∃ pieces last, Parted responseAdvance FilterStep.read EscapeState.held
      (fun t => t.isRaw = true) (fun w => responseRules.verdict w = .drop) .ground steps pieces
      last :=
  exists_pieces responseAdvance_moves rfl steps

/-- **Nothing but answers is lost**: a run and the bytes `finish` lets go. -/
theorem dropsOnlyResponses_runSteps (steps : List FilterStep) :
    DropsOnlyResponses steps ((new.runSteps steps).1 ++ (new.runSteps steps).2.finish.1) := by
  obtain ⟨pieces, last, hparted⟩ := runSteps_parted steps
  obtain ⟨hout, hreads⟩ := runSteps_reads steps
  refine ⟨pieces ++ [Piece.kept last], ?_, ?_, ?_⟩
  · rw [flatMap_append, flatMap_singleton]
    exact hparted.input
  · have hfinish : (new.runSteps steps).2.finish.1 = last.flatMap FilterStep.read := by
      rw [← hparted.held, ← hreads.pending_eq]
      rfl
    rw [hout, hparted.output, hfinish, flatMap_append, flatMap_singleton]
    rfl
  · intro pre post u hpieces
    obtain ⟨hdrop, hfree⟩ := hparted.dropped_kept last pre u post hpieces
    refine ⟨(responseVerdict_eq_drop hdrop).1, (responseVerdict_eq_drop hdrop).2, ?_⟩
    intro v hv
    rw [inPasteAfter_eq, ← Bool.not_eq_true]
    exact hfree v hv

/-! ## Pastes -/

def Opens (pre : List FilterStep) (byte : UInt8) : Prop :=
  inPasteAfter pre = false ∧ inPasteAfter (pre ++ [FilterStep.byte byte]) = true

variable {pre : List FilterStep}

theorem Opens.state (h : Opens pre byte) :
    bracketedPasteBegin <:+ readBytes (pre ++ [FilterStep.byte byte]) ∧
      (Stream.feed responseAdvance .ground (pre ++ [FilterStep.byte byte])).2 = .raw 0 := by
  obtain ⟨hout, hin⟩ := h
  rw [inPasteAfter_eq] at hout hin
  rw [feed_append, feed_singleton] at hin ⊢
  obtain ⟨hmark, hraw⟩ := responseAdvance_opens hout hin
  refine ⟨?_, hraw⟩
  obtain ⟨pieces, last, hparted⟩ := runSteps_parted pre
  rw [← hmark, hparted.held, readBytes_concat_byte]
  refine ⟨readBytes (pieces.flatMap Piece.input), ?_⟩
  rw [← append_assoc]
  congr 1
  exact (readBytes_append _ last).symm.trans (congrArg readBytes hparted.input.symm)

/-- **A paste goes through untouched and ends at the first end mark.** -/
theorem Opens.untouched (h : Opens pre byte) {v : List FilterStep}
    (hfirst : ¬ bracketedPasteEnd <:+: (readBytes v).dropLast) :
    (new.runSteps (pre ++ [FilterStep.byte byte] ++ v)).1 =
        (new.runSteps (pre ++ [FilterStep.byte byte])).1 ++ readBytes v ∧
      (inPasteAfter (pre ++ [FilterStep.byte byte] ++ v) = true ↔
        ¬ bracketedPasteEnd <:+: readBytes v) := by
  obtain ⟨hout, hstate⟩ := feed_paste v hfirst
  rw [(runSteps_reads _).1, (runSteps_reads _).1, inPasteAfter_eq, feed_append, h.state.2]
  refine ⟨by rw [hout], ?_⟩
  rcases hstate with ⟨n, hraw, htracks⟩ | ⟨hground, hfound⟩
  · rw [hraw]
    exact iff_of_true rfl htracks.absent
  · rw [hground]
    exact iff_of_false (by decide) (not_not.mpr hfound)

theorem opens_of_begin {rest : List FilterStep} (hout : inPasteAfter pre = false)
    (h : readBytes rest = [0x32, 0x30, 0x30, 0x7e]) :
    inPasteAfter (pre ++ FilterStep.byte esc :: .byte 0x5b :: rest) = true := by
  rw [inPasteAfter_eq] at hout ⊢
  rw [feed_append]
  exact feed_opens hout h

/-- **Bracketed paste passes through untouched**, for every input, every way to
cut it and every placement of timeouts. Outside a paste the begin mark opens one
(unless a timeout takes its ESC for a key), and only the begin mark does. From
there every byte is put out as it is read, and the paste lasts until the bytes
read in it first hold the end mark. All that is missing from the whole output is
answers outside a paste. -/
theorem bracketed_paste_untouched (calls : List FilterCall) :
    new.runCalls calls = new.runSteps (calls.flatMap FilterCall.steps) ∧
      (∀ pre rest post : List FilterStep,
        calls.flatMap FilterCall.steps = pre ++ FilterStep.byte esc :: .byte 0x5b :: rest ++ post →
        inPasteAfter pre = false → readBytes rest = [0x32, 0x30, 0x30, 0x7e] →
        inPasteAfter (pre ++ FilterStep.byte esc :: .byte 0x5b :: rest) = true) ∧
      (∀ (pre : List FilterStep) (byte : UInt8) (v post : List FilterStep),
        calls.flatMap FilterCall.steps = pre ++ [FilterStep.byte byte] ++ v ++ post →
        Opens pre byte → ¬ bracketedPasteEnd <:+: (readBytes v).dropLast →
        bracketedPasteBegin <:+ readBytes (pre ++ [FilterStep.byte byte]) ∧
          (new.runSteps (pre ++ [FilterStep.byte byte] ++ v)).1 =
            (new.runSteps (pre ++ [FilterStep.byte byte])).1 ++ readBytes v ∧
          (inPasteAfter (pre ++ [FilterStep.byte byte] ++ v) = true ↔
            ¬ bracketedPasteEnd <:+: readBytes v)) ∧
      DropsOnlyResponses (calls.flatMap FilterCall.steps)
        ((new.runCalls calls).1 ++ (new.runCalls calls).2.finish.1) := by
  refine ⟨runCalls_eq new calls, ?_, ?_, ?_⟩
  · intro pre rest post hsteps hout hrest
    exact opens_of_begin hout hrest
  · intro pre byte v post hsteps hopens hfirst
    exact ⟨hopens.state.1, hopens.untouched hfirst⟩
  · rw [runCalls_eq]
    exact dropsOnlyResponses_runSteps _

def pastedAnswer : List FilterCall :=
  [.feed (bracketedPasteBegin ++ [esc, 0x5b, 0x3f]), .flushTimeout,
    .feed ([0x31, 0x63] ++ bracketedPasteEnd)]

def pastedAnswer.rest : List FilterStep :=
  .byte esc :: .byte 0x5b :: .byte 0x3f :: .timeout :: .byte 0x31 :: .byte 0x63 ::
    bracketedPasteEnd.map .byte

theorem bracketed_paste_untouched_answer :
    inPasteAfter (bracketedPasteBegin.map .byte) = true ∧
      (new.runSteps (pastedAnswer.flatMap FilterCall.steps)).1 =
        (new.runSteps (bracketedPasteBegin.map .byte)).1 ++
          ([esc, 0x5b, 0x3f, 0x31, 0x63] ++ bracketedPasteEnd) ∧
      ¬ inPasteAfter (pastedAnswer.flatMap FilterCall.steps) = true := by
  obtain ⟨-, hbegin, hpaste, -⟩ := bracketed_paste_untouched pastedAnswer
  have hopen := hbegin [] ((bracketedPasteBegin.drop 2).map .byte) pastedAnswer.rest rfl rfl rfl
  obtain ⟨-, hout, hend⟩ := hpaste (bracketedPasteBegin.dropLast.map .byte) 0x7e
    pastedAnswer.rest [] rfl ⟨rfl, hopen⟩ (by decide)
  exact ⟨hopen, hout, fun hin => hend.mp hin (by decide)⟩

end QueryResponseFilter

end Portl

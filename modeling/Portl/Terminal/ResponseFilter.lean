import Mathlib.Algebra.Group.Nat.Defs
import Mathlib.Order.RelClasses
import Portl.Terminal.QueryStripper

/-!
# The response filter

`query_response_filter.rs`, the other side of the query stripper. What a client's
terminal answers to a query comes in with what the user types; the filter takes
complete answers out before the input goes to the session. What stands between
the marks of a bracketed paste goes through unread.

Like the stripper it lets a sequence through that another escape byte cuts short,
so that dropping the second one may leave an answer behind.
-/

namespace Portl

open Stream List

def bracketedPasteBegin : Bytes := [esc, 0x5b, 0x32, 0x30, 0x30, 0x7e]

def bracketedPasteEnd : Bytes := [esc, 0x5b, 0x32, 0x30, 0x31, 0x7e]

/-- `Mode` of `query_response_filter.rs`. -/
inductive ResponseMode where
  | ground
  | escape
  | csi
deriving DecidableEq

structure QueryResponseFilter where
  mode : ResponseMode
  pending : Bytes
  inBracketedPaste : Bool
  pasteEndMatch : ℕ
deriving DecidableEq

/-- Digits and separators; with `requireDigit` at least one digit. -/
def responseParamsMatch (params separators : Bytes) (requireDigit : Bool) : Bool :=
  params.all (fun byte => isAsciiDigit byte || separators.contains byte) &&
    (!requireDigit || params.any isAsciiDigit)

/-- The Kitty answer `ESC [ ? … u`, DA1 and DA2, and the two cursor reports. -/
def isResponse (bytes : Bytes) : Bool :=
  match bytes.getLast?, [esc, 0x5b].isPrefixOf? bytes.dropLast with
  | some finalByte, some params =>
    if params.head? = some 0x3f ∧ finalByte = 0x75 then
      responseParamsMatch (params.drop 1) [0x3b, 0x3a] true
    else if (params.head? = some 0x3f ∨ params.head? = some 0x3e) ∧ finalByte = 0x63 ∨
        params.head? = some 0x3f ∧ finalByte = 0x52 then
      responseParamsMatch (params.drop 1) [0x3b] true
    else if finalByte = 0x52 then responseParamsMatch params [0x3b] true
    else false
  | _, _ => false

namespace QueryResponseFilter

def maxBuffered : ℕ := 32

def new : QueryResponseFilter := ⟨.ground, [], false, 0⟩

def flushPending (s : QueryResponseFilter) (out : Bytes) : Bytes × QueryResponseFilter :=
  (out ++ s.pending, { s with pending := [] })

def startPendingEscape (s : QueryResponseFilter) : QueryResponseFilter :=
  { s with pending := [esc], mode := .escape }

def pushPending (s : QueryResponseFilter) (byte : UInt8) (out : Bytes) :
    Bytes × QueryResponseFilter :=
  let (out, s) := if s.pending.length = maxBuffered then s.flushPending out else (out, s)
  (out, { s with pending := s.pending ++ [byte] })

def trackBracketedPasteEnd (s : QueryResponseFilter) (byte : UInt8) : QueryResponseFilter :=
  if bracketedPasteEnd[s.pasteEndMatch]? = some byte then
    if s.pasteEndMatch + 1 = bracketedPasteEnd.length then
      { s with inBracketedPaste := false, pasteEndMatch := 0 }
    else { s with pasteEndMatch := s.pasteEndMatch + 1 }
  else { s with pasteEndMatch := if byte = esc then 1 else 0 }

def feedCsi (s : QueryResponseFilter) (byte : UInt8) (out : Bytes) :
    Bytes × QueryResponseFilter :=
  if byte = esc then
    let (out, s) := s.flushPending out
    (out, s.startPendingEscape)
  else if s.pending.length = maxBuffered then
    let (out, s) := s.flushPending out
    (out ++ [byte], { s with mode := .ground })
  else
    let (out, s) := s.pushPending byte out
    if isCsiFinal byte then
      if s.pending = bracketedPasteBegin then
        let (out, s) := s.flushPending out
        (out, { s with inBracketedPaste := true, pasteEndMatch := 0, mode := .ground })
      else if isResponse s.pending then (out, { s with pending := [], mode := .ground })
      else
        let (out, s) := s.flushPending out
        (out, { s with mode := .ground })
    else (out, s)

def feedByte (s : QueryResponseFilter) (byte : UInt8) (out : Bytes) :
    Bytes × QueryResponseFilter :=
  if s.inBracketedPaste then (out ++ [byte], s.trackBracketedPasteEnd byte)
  else
    match s.mode with
    | .ground => if byte = esc then (out, s.startPendingEscape) else (out ++ [byte], s)
    | .escape =>
      if byte = 0x5b then
        let (out, s) := s.pushPending byte out
        (out, { s with mode := .csi })
      else if byte = esc then
        let (out, s) := s.flushPending out
        (out, s.startPendingEscape)
      else
        let (out, s) := s.pushPending byte out
        let (out, s) := s.flushPending out
        (out, { s with mode := .ground })
    | .csi => s.feedCsi byte out

def feed (s : QueryResponseFilter) (bytes : Bytes) : Bytes × QueryResponseFilter :=
  bytes.foldl (fun r byte => r.2.feedByte byte r.1) ([], s)

def feedChunks (s : QueryResponseFilter) (chunks : List Bytes) : Bytes × QueryResponseFilter :=
  chunks.foldl (fun r chunk => (r.1 ++ (r.2.feed chunk).1, (r.2.feed chunk).2)) ([], s)

def flushTimeout (s : QueryResponseFilter) : Bytes × QueryResponseFilter :=
  if s.mode = .escape ∧ s.pending.length = 1 then
    let (out, s) := s.flushPending []
    (out, { s with mode := .ground })
  else ([], s)

end QueryResponseFilter

/-! ## The filter is an escape filter -/

def pasteNext (matched : ℕ) (byte : UInt8) : Option ℕ :=
  if bracketedPasteEnd[matched]? = some byte then
    if matched + 1 = bracketedPasteEnd.length then none else some (matched + 1)
  else some (if byte = esc then 1 else 0)

def responseVerdict (w : Bytes) : Verdict ℕ :=
  if w.length ≤ 2 then if w.getLast? = some 0x5b then .more else .flush
  else if QueryResponseFilter.maxBuffered < w.length then .flush
  else if w.getLast?.any isCsiFinal = false then .more
  else if w = bracketedPasteBegin then .raw 0
  else if isResponse w then .drop
  else .flush

def responseRules : EscapeRules UInt8 ℕ := ⟨esc, responseVerdict, pasteNext⟩

namespace QueryResponseFilter

variable {s : QueryResponseFilter} {w : Bytes}

theorem feedByte_out (s : QueryResponseFilter) (byte : UInt8) (out : Bytes) :
    s.feedByte byte out = (out ++ (s.feedByte byte []).1, (s.feedByte byte []).2) := by
  have hpush : ∀ out, s.pushPending byte out =
      (out ++ (s.pushPending byte []).1, (s.pushPending byte []).2) := by
    intro out
    unfold pushPending flushPending
    split_ifs
    · simp
    · simp
  unfold feedByte
  by_cases hpaste : s.inBracketedPaste = true
  · simp only [if_pos hpaste, nil_append]
  · simp only [if_neg hpaste]
    cases s.mode with
    | ground =>
      simp only
      split_ifs
      · simp
      · simp
    | escape =>
      simp only [hpush out, flushPending]
      split_ifs <;> simp
    | csi =>
      simp only [feedCsi, hpush out, flushPending]
      split_ifs <;> simp

def step (s : QueryResponseFilter) (byte : UInt8) : Bytes × QueryResponseFilter :=
  s.feedByte byte []

theorem feed_eq (s : QueryResponseFilter) (bytes : Bytes) :
    s.feed bytes = Stream.feed step s bytes := by
  have h : s.feed bytes =
      ([] ++ (Stream.feed step s bytes).1, (Stream.feed step s bytes).2) :=
    foldl_eq_feed feedByte_out [] s bytes
  rw [h, nil_append]

theorem feedChunks_eq (s : QueryResponseFilter) (chunks : List Bytes) :
    s.feedChunks chunks = Stream.feed step s chunks.flatten := by
  simp only [feedChunks, feed_eq]
  rw [foldl_chunks_eq_feed, nil_append]

inductive Reads : QueryResponseFilter → EscapeState UInt8 ℕ → Prop where
  | ground (n : ℕ) : Reads ⟨.ground, [], false, n⟩ .ground
  | escape (n : ℕ) : Reads ⟨.escape, [esc], false, n⟩ (.pending [esc])
  | csi {w : Bytes} (n : ℕ) (htwo : 2 ≤ w.length) (hmax : w.length ≤ maxBuffered) :
      Reads ⟨.csi, w, false, n⟩ (.pending w)
  | paste (n : ℕ) : Reads ⟨.ground, [], true, n⟩ (.raw n)

variable {t : EscapeState UInt8 ℕ}

theorem Reads.pending_eq (h : Reads s t) : s.pending = t.held := by
  cases h with
  | ground | escape | csi | paste => rfl

theorem Reads.isPending_eq_false (h : Reads s t) (hlen : s.pending.length = 0) :
    t.isPending = false := by
  cases h with
  | ground n => rfl
  | escape n => cases hlen
  | @csi w n htwo hmax =>
    have hzero : w.length = 0 := hlen
    omega
  | paste n => rfl

theorem reads_start : Reads .new .ground := .ground 0

theorem responseVerdict_csi (htwo : 2 ≤ w.length) (hmax : w.length ≤ maxBuffered) (byte : UInt8) :
    responseVerdict (w ++ [byte]) =
      if w.length = maxBuffered then .flush
      else if isCsiFinal byte then
        if w ++ [byte] = bracketedPasteBegin then .raw 0
        else if isResponse (w ++ [byte]) then .drop
        else .flush
      else .more := by
  have hlong : ¬ w.length + 1 ≤ 2 := by omega
  have hfull : maxBuffered < w.length + 1 ↔ w.length = maxBuffered := by omega
  simp only [responseVerdict, length_append, length_singleton, if_neg hlong, hfull,
    List.getLast?_concat, Option.any_some]
  cases isCsiFinal byte <;> rfl

theorem reads_escape (n : ℕ) (byte : UInt8) :
    Alike Reads ((⟨.escape, [esc], false, n⟩ : QueryResponseFilter).step byte)
      (responseRules.step (.pending [esc]) byte) := by
  by_cases hesc : byte = esc
  · subst hesc
    exact ⟨rfl, .escape n⟩
  · have hsettle : responseRules.step (.pending [esc]) byte = responseRules.settle [esc, byte] :=
      responseRules.step_pending hesc [esc]
    have hverdict : responseRules.verdict [esc, byte] =
        if byte = 0x5b then Verdict.more else .flush := by
      simp [responseRules, responseVerdict]
    rw [hsettle]
    simp only [step, feedByte, pushPending, flushPending, EscapeRules.settle, hverdict]
    by_cases hcsi : byte = 0x5b
    · subst hcsi
      exact ⟨rfl, .csi (w := [esc, 0x5b]) n (by decide) (by decide)⟩
    · simp only [if_neg hcsi, if_neg hesc]
      exact ⟨rfl, .ground n⟩

theorem reads_csi (n : ℕ) (htwo : 2 ≤ w.length) (hmax : w.length ≤ maxBuffered) (byte : UInt8) :
    Alike Reads ((⟨.csi, w, false, n⟩ : QueryResponseFilter).step byte)
      (responseRules.step (.pending w) byte) := by
  by_cases hesc : byte = esc
  · subst hesc
    rw [show responseRules.step (.pending w) esc = (w, .pending [esc]) from
      responseRules.step_pending_esc w]
    exact ⟨rfl, .escape n⟩
  · have hsettle : responseRules.step (.pending w) byte = responseRules.settle (w ++ [byte]) :=
      responseRules.step_pending hesc w
    have hverdict : responseRules.verdict (w ++ [byte]) = _ := responseVerdict_csi htwo hmax byte
    rw [hsettle]
    simp only [step, feedByte, feedCsi, if_neg hesc, EscapeRules.settle, hverdict, pushPending,
      flushPending, Bool.false_eq_true, if_false]
    split_ifs with hfull
    · exact ⟨rfl, .ground n⟩
    · exact ⟨rfl, .paste 0⟩
    · exact ⟨rfl, .ground n⟩
    · exact ⟨rfl, .ground n⟩
    · have hroom : (w ++ [byte]).length ≤ maxBuffered := by
        rw [length_append]
        exact Nat.lt_of_le_of_ne hmax hfull
      exact ⟨rfl, .csi n (htwo.trans (sublist_append_left w _).length_le) hroom⟩

theorem reads_step (s : QueryResponseFilter) (t : EscapeState UInt8 ℕ) (byte : UInt8)
    (h : Reads s t) : Alike Reads (s.step byte) (responseRules.step t byte) := by
  cases h with
  | ground n =>
    by_cases hb : byte = esc
    · subst hb
      exact ⟨rfl, .escape n⟩
    · rw [show responseRules.step .ground byte = ([byte], .ground) from
        responseRules.step_ground hb]
      simp only [step, feedByte, if_neg hb, Bool.false_eq_true, if_false]
      exact ⟨rfl, .ground n⟩
  | escape n => exact reads_escape n byte
  | csi n htwo hmax => exact reads_csi n htwo hmax byte
  | paste n =>
    simp only [Alike, step, feedByte, trackBracketedPasteEnd, EscapeRules.step, responseRules,
      pasteNext, if_true, nil_append, true_and]
    split_ifs
    · exact .ground 0
    · exact .paste _
    · exact .paste _
    · exact .paste _

/-! ## No answer is left behind -/

def bufferedLen (s : QueryResponseFilter) : ℕ := s.pending.length

def LeavesNoResponse (chunks : List Bytes) : Prop :=
  let out := (new.feedChunks chunks).1
  (new.feed out).1 ++ (new.feed out).2.pending = out

instance (chunks : List Bytes) : Decidable (LeavesNoResponse chunks) :=
  inferInstanceAs (Decidable (_ = _))

/-- Wherever an answer begins in the stream, the filter has nothing in its
buffer. -/
def ResponsesBeginFresh (bytes : Bytes) : Prop :=
  ∀ i ∈ List.range (bytes.length + 1), ∀ n ∈ List.range (maxBuffered + 1),
    isResponse ((bytes.drop i).take n) = true → (new.feed (bytes.take i)).2.bufferedLen = 0

instance (bytes : Bytes) : Decidable (ResponsesBeginFresh bytes) := List.decidableBAll _ _

theorem responseVerdict_eq_drop (h : responseVerdict w = .drop) :
    isResponse w = true ∧ w.length ≤ maxBuffered := by
  unfold responseVerdict at h
  split_ifs at h with htwo hbracket hlong hmore hpaste hresponse
  exact ⟨hresponse, not_lt.mp hlong⟩

theorem clean_of_responsesBeginFresh {bytes : Bytes} (h : ResponsesBeginFresh bytes) :
    responseRules.Clean bytes := by
  refine EscapeRules.clean_of_positions (fun w hdrop => (responseVerdict_eq_drop hdrop).2) ?_
  intro i hi n hn hdrop
  have hempty := h i (mem_range.mpr (Nat.lt_succ_of_le hi)) n
    (mem_range.mpr (Nat.lt_succ_of_le hn)) (responseVerdict_eq_drop hdrop).1
  rw [feed_eq] at hempty
  exact (feed_simulates reads_step reads_start (bytes.take i)).2.isPending_eq_false hempty

/-- **Response filtering leaves no answer behind**, however the input is cut into
chunks, where no answer begins inside an unfinished sequence. -/
theorem leavesNoResponse_of_responsesBeginFresh (chunks : List Bytes)
    (h : ResponsesBeginFresh chunks.flatten) : LeavesNoResponse chunks := by
  have hstable := EscapeRules.simulated_output_stable reads_step
    (fun _ _ hreads => hreads.pending_eq) reads_start (clean_of_responsesBeginFresh h)
  simpa only [LeavesNoResponse, feedChunks_eq, feed_eq] using hstable

/-- An answer between two letters, an arrow key, an answer cut into two chunks,
and one inside a paste, which stays. -/
def plainInput : List Bytes :=
  [[0x61, esc, 0x5b, 0x3f, 0x31, 0x63, 0x62, esc, 0x5b, 0x41, esc, 0x5b],
    [0x35, 0x3b, 0x37, 0x52] ++ bracketedPasteBegin ++ [esc, 0x5b, 0x3f, 0x31, 0x63] ++
      bracketedPasteEnd]

theorem leavesNoResponse_plain :
    ResponsesBeginFresh plainInput.flatten ∧ LeavesNoResponse plainInput :=
  ⟨by decide +kernel, leavesNoResponse_of_responsesBeginFresh _ (by decide +kernel)⟩

/-- `ESC ESC [ ? 1 c [ ? 1 c`: the answer in the middle goes, and the rest is one. -/
theorem leavesNoResponse_spliced :
    (new.feedChunks [[esc, esc, 0x5b, 0x3f, 0x31, 0x63, 0x5b, 0x3f, 0x31, 0x63]]).1 =
        [esc, 0x5b, 0x3f, 0x31, 0x63] ∧
      isResponse [esc, 0x5b, 0x3f, 0x31, 0x63] = true ∧
      ¬ LeavesNoResponse [[esc, esc, 0x5b, 0x3f, 0x31, 0x63, 0x5b, 0x3f, 0x31, 0x63]] := by
  decide +kernel

end QueryResponseFilter

end Portl

import Mathlib.Algebra.Order.Group.Nat
import Mathlib.Algebra.Order.Sub.Basic
import Mathlib.Data.List.DropRight
import Portl.Lib.Run
import Portl.Terminal.QueryStripper

/-!
# Live output of a session helper

`process_output` of `session_handler/ghostty.rs` and what it calls. What a program wrote
goes, stripped of queries, into a bounded history and to the subscribers. A position is
counted in stripped bytes from the start of the session.

A subscriber whose queue is full is told from where to draw the screen anew. It is told
once: until an output is queued again nothing more is announced, whatever is refused
meanwhile and whether or not the screen was drawn in between.
-/

namespace Portl

open List

def maxHistoryBytes : ℕ := 64 * 1024 * 1024

def ghosttyAttachV2Queue : ℕ := 256

def ghosttyAttachV2ReloadMaxBytes : ℕ := 1024 * 1024

/-- `saturating_add` on positions, which are `u64`. -/
def saturatingSum (a b : ℕ) : ℕ := min (a + b) (2 ^ 64 - 1)

/-! ## UTF-8 boundaries -/

/-- `(0x80..=0xbf).contains(&byte)`. -/
def isContinuation (byte : UInt8) : Bool := 0x80 ≤ byte && byte ≤ 0xbf

def utf8CharLen (lead : UInt8) : Option ℕ :=
  if lead ≤ 0x7f then some 1
  else if 0xc2 ≤ lead && lead ≤ 0xdf then some 2
  else if 0xe0 ≤ lead && lead ≤ 0xef then some 3
  else if 0xf0 ≤ lead && lead ≤ 0xf4 then some 4
  else none

/-- The loop goes back over continuation bytes. At the first byte it stops in any case;
where that is a continuation byte too, nothing is cut. -/
def utf8BoundarySnapLen (bytes : Bytes) : ℕ :=
  match bytes.reverse.dropWhile isContinuation with
  | [] => bytes.length
  | lead :: before =>
    match utf8CharLen lead with
    | some expected => if before.length + expected ≤ bytes.length then bytes.length else before.length
    | none => bytes.length

def IncompleteChar (tail : Bytes) : Prop :=
  ∃ lead conts expected, tail = lead :: conts ∧ (∀ byte ∈ conts, isContinuation byte = true) ∧
    utf8CharLen lead = some expected ∧ tail.length < expected

/-- `out` is `slice` without the incomplete character at its end. -/
def CutBack (slice out : Bytes) : Prop :=
  (∃ tail, IncompleteChar tail ∧ slice = out ++ tail) ∨
    out = slice ∧ ∀ tail, tail <:+ slice → ¬IncompleteChar tail

section Snap

variable {lead : UInt8} {before conts bytes : Bytes}

theorem dropWhile_reverse_lead (hconts : ∀ byte ∈ conts, isContinuation byte = true)
    (hlead : isContinuation lead = false) :
    (before ++ lead :: conts).reverse.dropWhile isContinuation = lead :: before.reverse := by
  have hall : ∀ byte ∈ conts.reverse, isContinuation byte = true :=
    fun byte hbyte => hconts byte (mem_reverse.mp hbyte)
  rw [reverse_append, reverse_cons, append_assoc,
    dropWhile_append_of_pos hall, singleton_append,
    dropWhile_cons_of_neg (by rw [hlead]; exact Bool.false_ne_true)]

theorem isContinuation_of_utf8CharLen {expected : ℕ} (h : utf8CharLen lead = some expected)
    (hmore : 1 < expected) : isContinuation lead = false := by
  unfold utf8CharLen at h
  unfold isContinuation
  split_ifs at h <;> grind

theorem utf8BoundarySnapLen_append {tail : Bytes} (h : IncompleteChar tail) :
    utf8BoundarySnapLen (before ++ tail) = before.length := by
  obtain ⟨lead, conts, expected, rfl, hconts, hlen, hshort⟩ := h
  have hmore : 1 < expected := lt_of_le_of_lt (Nat.succ_le_succ (Nat.zero_le _)) hshort
  rw [utf8BoundarySnapLen, dropWhile_reverse_lead hconts (isContinuation_of_utf8CharLen hlen hmore)]
  simp only [hlen, length_reverse, length_append]
  exact if_neg (by omega)

theorem utf8BoundarySnapLen_eq_length (h : ∀ tail, tail <:+ bytes → ¬IncompleteChar tail) :
    utf8BoundarySnapLen bytes = bytes.length := by
  unfold utf8BoundarySnapLen
  have hwhole := takeWhile_append_dropWhile (p := isContinuation) (l := bytes.reverse)
  cases hdrop : bytes.reverse.dropWhile isContinuation with
  | nil => rfl
  | cons lead before =>
    cases hlen : utf8CharLen lead with
    | none => simp only [hlen]
    | some expected =>
      simp only [hlen]
      refine if_pos (not_lt.mp fun hshort => ?_)
      rw [hdrop] at hwhole
      have hbytes : bytes = before.reverse ++ lead ::
          (bytes.reverse.takeWhile isContinuation).reverse := by
        have hreverse := congrArg List.reverse hwhole
        simpa using hreverse.symm
      refine h _ ⟨before.reverse, hbytes.symm⟩ ⟨lead, _, expected, rfl, ?_, hlen, ?_⟩
      · exact fun byte hbyte => mem_takeWhile_imp (mem_reverse.mp hbyte)
      · have hlength := congrArg List.length hbytes
        simp only [length_append, length_reverse] at hlength ⊢
        omega

theorem cutBack_take (bytes : Bytes) : CutBack bytes (bytes.take (utf8BoundarySnapLen bytes)) := by
  by_cases hcut : ∃ tail, tail <:+ bytes ∧ IncompleteChar tail
  · obtain ⟨tail, ⟨before, rfl⟩, hincomplete⟩ := hcut
    rw [utf8BoundarySnapLen_append hincomplete, take_left]
    exact .inl ⟨tail, hincomplete, rfl⟩
  · simp only [not_exists, not_and] at hcut
    rw [utf8BoundarySnapLen_eq_length hcut, take_length]
    exact .inr ⟨rfl, hcut⟩

end Snap

/-! ## The functions -/

/-- What `vec_deque_chunk` collects from the two slices of a `VecDeque`. -/
def vecDequeSlice (front back : Bytes) (relStart chunkLen : ℕ) : Bytes :=
  if relStart < front.length then
    let frontEnd := min (relStart + chunkLen) front.length
    let remaining := chunkLen - (frontEnd - relStart)
    (front.take frontEnd).drop relStart ++
      if remaining > 0 then back.take (min remaining back.length) else []
  else
    let backStart := min (relStart - front.length) back.length
    (back.take (min (backStart + chunkLen) back.length)).drop backStart

def vecDequeChunk (front back : Bytes) (relStart chunkLen : ℕ) : Bytes :=
  let out := vecDequeSlice front back relStart chunkLen
  out.take (utf8BoundarySnapLen out)

/-- The loop of `append_bounded`. -/
def popFront (dropped : ℕ) : Bytes → Bytes × ℕ
  | [] => ([], dropped)
  | byte :: history =>
    if (byte :: history).length > maxHistoryBytes then popFront (dropped + 1) history
    else (byte :: history, dropped)

def appendBounded (history bytes : Bytes) : Bytes × ℕ := popFront 0 (history ++ bytes)

def boundedReloadWindow (historyStartAbs : ℕ) (history : Bytes) : ℕ × ℕ × Bool :=
  let retainedLen := history.length
  let skipped := retainedLen - min retainedLen ghosttyAttachV2ReloadMaxBytes
  -- the loop counts the continuation bytes from there on
  let skipped := skipped + ((history.drop skipped).takeWhile isContinuation).length
  (saturatingSum historyStartAbs skipped, retainedLen - skipped,
    historyStartAbs > 0 || skipped > 0)

structure GhosttyLiveOutputV2 where
  startSeq : ℕ
  endSeq : ℕ
  bytes : Bytes
deriving DecidableEq

inductive LiveNote where
  | queued (output : GhosttyLiveOutputV2)
  | refused (output : GhosttyLiveOutputV2)
  /-- `ResyncRequiredV2` -/
  | resync (reason : String) (fromSeq : ℕ)
deriving DecidableEq

/-- `queue` is what the channel of live outputs holds. -/
structure GhosttyV2Subscriber where
  queue : List GhosttyLiveOutputV2
  liveOpen : Bool
  eventsOpen : Bool
  resyncPending : Bool
  log : List LiveNote
deriving DecidableEq

namespace GhosttyV2Subscriber

def new : GhosttyV2Subscriber := ⟨[], true, true, false, []⟩

/-- `none` removes the subscriber. -/
def sendResync (s : GhosttyV2Subscriber) (reason : String) (fromSeq : ℕ) :
    Option GhosttyV2Subscriber :=
  let s := { s with resyncPending := true }
  if s.eventsOpen then some { s with log := s.log ++ [.resync reason fromSeq] } else none

/-- The closure of `broadcast_v2`. -/
def receive (output : GhosttyLiveOutputV2) (s : GhosttyV2Subscriber) : Option GhosttyV2Subscriber :=
  if s.liveOpen = false then none
  else if s.queue.length < ghosttyAttachV2Queue then
    some { s with
      queue := s.queue ++ [output]
      resyncPending := false
      log := s.log ++ [.queued output] }
  else
    let s := { s with log := s.log ++ [.refused output] }
    if s.resyncPending then some s else s.sendResync "live queue full" output.startSeq

/-- The closure of `broadcast_v2_resync`. -/
def resync (reason : String) (fromSeq : ℕ) (s : GhosttyV2Subscriber) : Option GhosttyV2Subscriber :=
  if s.resyncPending then some s else s.sendResync reason fromSeq

end GhosttyV2Subscriber

/-- `broadcasts` are the live outputs so far. -/
structure GhosttyHelper where
  queryStripper : QueryStripper
  history : Bytes
  historyStartAbs : ℕ
  liveSeq : ℕ
  v2Subscribers : List GhosttyV2Subscriber
  broadcasts : List GhosttyLiveOutputV2

/-- What a call puts out, and the stripper after it. `strip` is off in a build with
`force-disable-server-query-strip`. -/
def strippedOutput (strip : Bool) (stripper : QueryStripper) (bytes : Bytes) :
    Bytes × QueryStripper :=
  if strip then stripper.feed bytes else (bytes, stripper)

namespace GhosttyHelper

def start : GhosttyHelper := ⟨.new, [], 0, 0, [], []⟩

def broadcastV2 (h : GhosttyHelper) (output : GhosttyLiveOutputV2) : GhosttyHelper :=
  { h with
    v2Subscribers := h.v2Subscribers.filterMap (·.receive output)
    broadcasts := h.broadcasts ++ [output] }

def broadcastV2Resync (h : GhosttyHelper) (reason : String) (fromSeq : ℕ) : GhosttyHelper :=
  { h with v2Subscribers := h.v2Subscribers.filterMap (·.resync reason fromSeq) }

/-- `process_output`. The terminal itself is not modelled: whether all its replies were
queued is given. -/
def processOutput (strip : Bool) (h : GhosttyHelper) (bytes : Bytes)
    (queuedTerminalReplies : Bool) : GhosttyHelper :=
  let (output, stripper) := strippedOutput strip h.queryStripper bytes
  let endSeq := saturatingSum h.liveSeq output.length
  let (history, dropped) := appendBounded h.history output
  let next := { h with
    queryStripper := stripper
    history := history
    historyStartAbs := saturatingSum h.historyStartAbs dropped
    liveSeq := endSeq }
  let next := if output.isEmpty then next else next.broadcastV2 ⟨h.liveSeq, endSeq, output⟩
  if queuedTerminalReplies then next else next.broadcastV2Resync "input queue full" endSeq

end GhosttyHelper

/-! ## History and positions -/

/-- Ranges that follow each other from `a` to `b`, each as long as its bytes. -/
def Contiguous (a : ℕ) : List GhosttyLiveOutputV2 → ℕ → Prop
  | [], b => a = b
  | output :: outputs, b =>
    output.startSeq = a ∧ output.endSeq = a + output.bytes.length ∧
      Contiguous output.endSeq outputs b

theorem Contiguous.concat {a b : ℕ} {outputs : List GhosttyLiveOutputV2}
    (h : Contiguous a outputs b) (bytes : Bytes) :
    Contiguous a (outputs ++ [⟨b, b + bytes.length, bytes⟩]) (b + bytes.length) := by
  induction outputs generalizing a with
  | nil =>
    cases h
    exact ⟨rfl, rfl, rfl⟩
  | cons output outputs ih =>
    obtain ⟨hstart, hend, hrest⟩ := h
    exact ⟨hstart, hend, ih hrest⟩

theorem popFront_eq (dropped : ℕ) (history : Bytes) :
    popFront dropped history = (history.drop (history.length - maxHistoryBytes),
      dropped + (history.length - maxHistoryBytes)) := by
  induction history generalizing dropped with
  | nil => simp [popFront]
  | cons byte history ih =>
    rw [popFront]
    split_ifs with hlong
    · rw [ih]
      rw [length_cons] at hlong ⊢
      rw [Nat.succ_sub (Nat.lt_succ_iff.mp hlong), drop_succ_cons]
      exact Prod.ext rfl (by omega)
    · rw [Nat.sub_eq_zero_of_le (not_lt.mp hlong)]
      rfl

theorem vecDequeSlice_eq (front back : Bytes) (relStart chunkLen : ℕ) :
    vecDequeSlice front back relStart chunkLen =
      ((front ++ back).drop relStart).take chunkLen := by
  dsimp only [vecDequeSlice]
  rw [drop_append, take_append, length_drop]
  by_cases hfront : relStart < front.length
  · rw [if_pos hfront, drop_take, Nat.sub_eq_zero_of_le hfront.le, drop_zero]
    refine congrArg₂ (· ++ ·) ?_ ?_
    · rw [take_eq_take_iff, length_drop]
      omega
    · split_ifs with hmore
      · rw [take_eq_take_iff]
        omega
      · rw [eq_comm, take_eq_nil_iff]
        omega
  · rw [if_neg hfront, drop_eq_nil_of_le (not_lt.mp hfront), take_nil, nil_append,
      drop_take]
    rcases le_total (relStart - front.length) back.length with hback | hback
    · rw [Nat.min_eq_left hback, take_eq_take_iff, length_drop]
      omega
    · rw [Nat.min_eq_right hback, drop_length, drop_eq_nil_of_le hback, take_nil,
        take_nil]

theorem cutBack_vecDequeChunk (front back : Bytes) (relStart chunkLen : ℕ) :
    CutBack (((front ++ back).drop relStart).take chunkLen)
      (vecDequeChunk front back relStart chunkLen) := by
  rw [← vecDequeSlice_eq]
  exact cutBack_take _

/-- What the helper has of `r`: all that was put out so far, and the stripper. -/
structure GhosttyHelper.Keeps (h : GhosttyHelper) (r : Bytes × QueryStripper) : Prop where
  stripper : h.queryStripper = r.2
  seq : h.liveSeq = r.1.length
  start : h.historyStartAbs + h.history.length = h.liveSeq
  tail : h.history = r.1.rtake maxHistoryBytes
  ranges : Contiguous 0 h.broadcasts h.liveSeq

theorem saturatingSum_of_lt {a b : ℕ} (h : a + b < 2 ^ 64) : saturatingSum a b = a + b :=
  Nat.min_eq_left (Nat.le_sub_one_of_lt h)

theorem rtake_append {α : Type*} (n : ℕ) (l l' : List α) :
    (l ++ l').rtake n = (l.rtake n ++ l').rtake n := by
  simp only [List.rtake, length_append, length_drop]
  rw [← drop_append_of_le_length (by omega), drop_drop]
  congr 1
  omega

def stripMore (strip : Bool) (r : Bytes × QueryStripper) (bytes : Bytes) : Bytes × QueryStripper :=
  (r.1 ++ (strippedOutput strip r.2 bytes).1, (strippedOutput strip r.2 bytes).2)

def strippedOutputs (strip : Bool) (calls : List (Bytes × Bool)) : Bytes × QueryStripper :=
  (calls.map Prod.fst).foldl (stripMore strip) ([], .new)

def processOutputs (strip : Bool) (calls : List (Bytes × Bool)) : GhosttyHelper :=
  calls.foldl (fun h call => h.processOutput strip call.1 call.2) .start

theorem GhosttyHelper.Keeps.processOutput {h : GhosttyHelper} {r : Bytes × QueryStripper}
    (hkeeps : h.Keeps r) {strip : Bool} {bytes : Bytes} (replies : Bool)
    (hfits : (stripMore strip r bytes).1.length < 2 ^ 64) :
    (h.processOutput strip bytes replies).Keeps (stripMore strip r bytes) := by
  obtain ⟨stripped, before⟩ := r
  obtain ⟨rfl, hseq, hstart, htail, hranges⟩ := hkeeps
  unfold stripMore at hfits ⊢
  generalize hout : strippedOutput strip h.queryStripper bytes = r at hfits ⊢
  obtain ⟨output, stripper⟩ := r
  have hgrown : h.liveSeq + output.length = (stripped ++ output).length := by
    rw [length_append, hseq]
  rw [← hgrown] at hfits
  have hlast : (h.history ++ output).drop ((h.history ++ output).length - maxHistoryBytes) =
      (stripped ++ output).rtake maxHistoryBytes := by
    rw [rtake_append, htail]
    rfl
  have hfirst : saturatingSum h.historyStartAbs ((h.history ++ output).length - maxHistoryBytes) +
      ((h.history ++ output).drop ((h.history ++ output).length - maxHistoryBytes)).length =
      h.liveSeq + output.length := by
    rw [saturatingSum_of_lt (by rw [length_append]; omega), length_drop,
      length_append]
    omega
  simp only [GhosttyHelper.processOutput, hout, appendBounded, popFront_eq, Nat.zero_add,
    saturatingSum_of_lt hfits]
  generalize (h.history ++ output).length - maxHistoryBytes = dropped at hlast hfirst ⊢
  by_cases hempty : output.isEmpty = true
  · have hsame : Contiguous 0 h.broadcasts (h.liveSeq + output.length) := by
      rw [isEmpty_iff.mp hempty]
      exact hranges
    rw [if_pos hempty]
    split_ifs <;> exact ⟨rfl, hgrown, hfirst, hlast, hsame⟩
  · rw [if_neg hempty]
    split_ifs <;> exact ⟨rfl, hgrown, hfirst, hlast, hranges.concat output⟩

theorem keeps_processOutputs (strip : Bool) (calls : List (Bytes × Bool))
    (hfits : (strippedOutputs strip calls).1.length < 2 ^ 64) :
    (processOutputs strip calls).Keeps (strippedOutputs strip calls) := by
  induction calls using List.reverseRecOn with
  | nil => exact ⟨rfl, rfl, rfl, (rtake_nil maxHistoryBytes).symm, rfl⟩
  | append_singleton calls call ih =>
    have hmore : strippedOutputs strip (calls ++ [call]) =
        stripMore strip (strippedOutputs strip calls) call.1 := by
      rw [strippedOutputs, map_append, foldl_append]
      rfl
    rw [hmore] at hfits ⊢
    rw [processOutputs, foldl_append]
    refine (ih (lt_of_le_of_lt ?_ hfits)).processOutput call.2 hfits
    exact (prefix_append ..).length_le

theorem boundedReloadWindow_spec (historyStartAbs : ℕ) (history : Bytes)
    (hfits : historyStartAbs + history.length < 2 ^ 64) :
    ∃ skipped truncated, boundedReloadWindow historyStartAbs history =
        (historyStartAbs + skipped, history.length - skipped, truncated) ∧
      skipped ≤ history.length ∧ history.length - skipped ≤ ghosttyAttachV2ReloadMaxBytes ∧
      ∀ byte, history[skipped]? = some byte → isContinuation byte = false := by
  obtain ⟨skipped, hskipped⟩ : ∃ skipped, skipped =
    history.length - min history.length ghosttyAttachV2ReloadMaxBytes := ⟨_, rfl⟩
  -- the continuation bytes that are passed over, and what is left behind them
  obtain ⟨conts, hconts⟩ : ∃ conts, conts = (history.drop skipped).takeWhile isContinuation :=
    ⟨_, rfl⟩
  have hleft : (history.drop skipped).drop conts.length =
      (history.drop skipped).dropWhile isContinuation := by
    conv_lhs => rw [← takeWhile_append_dropWhile (p := isContinuation)
      (l := history.drop skipped), ← hconts]
    exact drop_left
  have hle : conts.length ≤ (history.drop skipped).length := by
    rw [hconts]
    exact (takeWhile_sublist isContinuation).length_le
  rw [length_drop] at hle
  refine ⟨skipped + conts.length, historyStartAbs > 0 || skipped + conts.length > 0, ?_, ?_, ?_, ?_⟩
  · rw [boundedReloadWindow, ← hskipped, ← hconts, saturatingSum_of_lt (by omega)]
  · omega
  · omega
  · intro byte hbyte
    have hnext : ((history.drop skipped).dropWhile isContinuation)[0]? = some byte := by
      rw [← hleft, drop_drop, List.getElem?_drop]
      exact hbyte
    have hnot := List.head?_dropWhile_not isContinuation (history.drop skipped)
    rw [List.head?_eq_getElem?, hnext] at hnot
    exact hnot

/-- **History and positions agree.** After any calls that put out fewer than `2 ^ 64` bytes
the history is the end of what was put out and `liveSeq` its length, the live outputs follow
each other, the window of a reload lies in the history, and a chunk of it is what was asked
for up to an incomplete character. -/
theorem ghosttyHistory_agrees (strip : Bool) (calls : List (Bytes × Bool))
    (hfits : (strippedOutputs strip calls).1.length < 2 ^ 64) :
    let h := processOutputs strip calls
    let window := boundedReloadWindow h.historyStartAbs h.history
    h.historyStartAbs + h.history.length = h.liveSeq ∧
    h.liveSeq = (strippedOutputs strip calls).1.length ∧
    h.history = (strippedOutputs strip calls).1.rtake (min h.liveSeq maxHistoryBytes) ∧
    Contiguous 0 h.broadcasts h.liveSeq ∧
    (h.historyStartAbs ≤ window.1 ∧ window.1 + window.2.1 = h.liveSeq ∧
      window.2.1 ≤ ghosttyAttachV2ReloadMaxBytes ∧
      ∀ byte, h.history[window.1 - h.historyStartAbs]? = some byte → isContinuation byte = false) ∧
    ∀ front back relStart chunkLen, front ++ back = h.history →
      CutBack ((h.history.drop relStart).take chunkLen)
        (vecDequeChunk front back relStart chunkLen) := by
  intro h window
  obtain ⟨-, hseq, hstart, htail, hranges⟩ := keeps_processOutputs strip calls hfits
  refine ⟨hstart, hseq, ?_, hranges, ?_, ?_⟩
  · rw [htail, hseq, List.rtake, List.rtake, tsub_min]
  · obtain ⟨skipped, truncated, hwindow, hskipped, hmax, hfirst⟩ :=
      boundedReloadWindow_spec h.historyStartAbs h.history (by rw [hstart, hseq]; exact hfits)
    have heq : window = _ := hwindow
    simp only [heq]
    refine ⟨Nat.le_add_right _ _, ?_, hmax, ?_⟩
    · rw [Nat.add_assoc, Nat.add_sub_cancel' hskipped]
      exact hstart
    · rw [Nat.add_sub_cancel_left]
      exact hfirst
  · intro front back relStart chunkLen hslices
    rw [← hslices]
    exact cutBack_vecDequeChunk front back relStart chunkLen

theorem ghosttyHistory_agrees_query :
    let h := processOutputs true [([104, 105, 0x1b, 0x5b], true), ([0x36, 0x6e, 33], false)]
    h.history = [104, 105, 33] ∧ h.historyStartAbs + h.history.length = h.liveSeq ∧ h.liveSeq = 3 :=
  ⟨by decide, (ghosttyHistory_agrees true [([104, 105, 0x1b, 0x5b], true), ([0x36, 0x6e, 33], false)]
    (by decide)).1, by decide⟩

/-! ## Refused outputs -/

inductive LiveEvent where
  | output (bytes : Bytes) (queuedTerminalReplies : Bool)
  /-- `Input` that the full queue to the program refuses -/
  | inputRefused
  | subscribeV2
  | viewportV2
  | drain (index : ℕ)
  | closeLive (index : ℕ)
  | closeEvents (index : ℕ)

namespace GhosttyHelper

def modify (h : GhosttyHelper) (index : ℕ) (f : GhosttyV2Subscriber → GhosttyV2Subscriber) :
    GhosttyHelper :=
  { h with v2Subscribers := h.v2Subscribers.modify index f }

/-- A viewport is drawn from the terminal and leaves the subscribers as they are. -/
def step (strip : Bool) (h : GhosttyHelper) : LiveEvent → GhosttyHelper
  | .output bytes queuedTerminalReplies => h.processOutput strip bytes queuedTerminalReplies
  | .inputRefused => h.broadcastV2Resync "input queue full" h.liveSeq
  | .subscribeV2 => { h with v2Subscribers := h.v2Subscribers ++ [.new] }
  | .viewportV2 => h
  | .drain index => h.modify index fun s => { s with queue := s.queue.tail }
  | .closeLive index => h.modify index fun s => { s with liveOpen := false }
  | .closeEvents index => h.modify index fun s => { s with eventsOpen := false }

end GhosttyHelper

def LiveNote.announces (output : GhosttyLiveOutputV2) : LiveNote → Bool
  | .resync _ fromSeq => fromSeq ≤ output.startSeq
  | _ => false

def announced : List LiveNote → Bool
  | [] => true
  | .refused output :: log => log.any (·.announces output) && announced log
  | .queued _ :: log => announced log
  | .resync _ _ :: log => announced log

def GhosttyHelper.Announced (h : GhosttyHelper) : Prop :=
  ∀ s ∈ h.v2Subscribers, announced s.log = true

def GhosttyHelper.Announces (strip : Bool) (h : GhosttyHelper) : LiveEvent → Prop
  | .output bytes _ => (strippedOutput strip h.queryStripper bytes).1 ≠ [] → ∀ s ∈ h.v2Subscribers,
      s.liveOpen = true → ghosttyAttachV2Queue ≤ s.queue.length → s.resyncPending = false
  | _ => True

instance (strip : Bool) : DecidableRel (GhosttyHelper.Announces strip)
  | h, .output bytes _ => inferInstanceAs (Decidable ((strippedOutput strip h.queryStripper
      bytes).1 ≠ [] → ∀ s ∈ h.v2Subscribers, s.liveOpen = true →
        ghosttyAttachV2Queue ≤ s.queue.length → s.resyncPending = false))
  | _, .inputRefused | _, .subscribeV2 | _, .viewportV2 | _, .drain _ | _, .closeLive _
  | _, .closeEvents _ => isTrue trivial

section Announced

variable {log rest : List LiveNote} {s s' : GhosttyV2Subscriber} {h : GhosttyHelper}

theorem announced_append (hlog : announced log = true) (hrest : announced rest = true) :
    announced (log ++ rest) = true := by
  induction log with
  | nil => exact hrest
  | cons note log ih =>
    cases note with
    | refused output =>
      simp only [announced, Bool.and_eq_true] at hlog
      simp only [cons_append, announced, any_append, hlog.1, Bool.true_or, Bool.true_and]
      exact ih hlog.2
    | queued | resync => exact ih hlog

theorem announced_of_append (h : announced (log ++ rest) = true) : announced rest = true := by
  induction log with
  | nil => exact h
  | cons note log ih =>
    cases note with
    | refused output =>
      simp only [cons_append, announced, Bool.and_eq_true] at h
      exact ih h.2
    | queued | resync => exact ih h

theorem log_sendResync {reason : String} {fromSeq : ℕ} (h : s.sendResync reason fromSeq = some s') :
    s'.log = s.log ++ [.resync reason fromSeq] := by
  simp only [GhosttyV2Subscriber.sendResync] at h
  split_ifs at h
  cases h
  rfl

theorem announced_resync {reason : String} {fromSeq : ℕ} (hs : announced s.log = true)
    (h : s.resync reason fromSeq = some s') : announced s'.log = true := by
  unfold GhosttyV2Subscriber.resync at h
  split_ifs at h
  · cases h
    exact hs
  · rw [log_sendResync h]
    exact announced_append hs rfl

theorem GhosttyHelper.Announced.broadcastV2Resync (hs : h.Announced) (reason : String)
    (fromSeq : ℕ) : (h.broadcastV2Resync reason fromSeq).Announced := by
  intro s' hs'
  obtain ⟨s, hmem, hsent⟩ := mem_filterMap.mp hs'
  exact announced_resync (hs s hmem) hsent

/-- What becomes of an output: queued, or refused and announced, or refused while an
announcement is pending. -/
theorem receive_cases {output : GhosttyLiveOutputV2} (h : s.receive output = some s') :
    s'.log = s.log ++ [.queued output] ∨
      s'.log = s.log ++ [.refused output, .resync "live queue full" output.startSeq] ∨
      s.liveOpen = true ∧ ghosttyAttachV2Queue ≤ s.queue.length ∧ s.resyncPending = true := by
  simp only [GhosttyV2Subscriber.receive] at h
  split_ifs at h with hclosed hroom hpending
  · cases h
    exact .inl rfl
  · exact .inr (.inr ⟨Bool.eq_true_of_not_eq_false hclosed, not_lt.mp hroom, hpending⟩)
  · rw [log_sendResync h, append_assoc]
    exact .inr (.inl rfl)

theorem receive_pending (output : GhosttyLiveOutputV2) (hopen : s.liveOpen = true)
    (hfull : ghosttyAttachV2Queue ≤ s.queue.length) (hpending : s.resyncPending = true) :
    s.receive output = some { s with log := s.log ++ [.refused output] } := by
  unfold GhosttyV2Subscriber.receive
  rw [if_neg (by rw [hopen]; exact Bool.noConfusion), if_neg (not_lt.mpr hfull)]
  exact if_pos hpending

theorem announced_processOutput_iff (strip : Bool) (bytes : Bytes) (replies : Bool)
    (hs : h.Announced) : (h.processOutput strip bytes replies).Announced ↔
      h.Announces strip (.output bytes replies) := by
  obtain ⟨output, houtput⟩ : ∃ output, output = (strippedOutput strip h.queryStripper bytes).1 := ⟨_, rfl⟩
  -- the subscribers after the output, and after what may be announced then
  obtain ⟨live, received, hreceived, hnext⟩ : ∃ live received,
      received = (if output.isEmpty then h.v2Subscribers
        else h.v2Subscribers.filterMap (·.receive live)) ∧
      (h.processOutput strip bytes replies).v2Subscribers = if replies then received
        else received.filterMap (·.resync "input queue full" live.endSeq) := by
    refine ⟨⟨h.liveSeq, saturatingSum h.liveSeq output.length, output⟩, _, rfl, ?_⟩
    simp only [GhosttyHelper.processOutput, houtput]
    split_ifs <;> rfl
  constructor
  · intro hall hsome s hmem hopen hfull
    by_contra hnot
    have hpending : s.resyncPending = true := Bool.eq_true_of_not_eq_false hnot
    rw [if_neg (by rw [houtput, List.isEmpty_iff]; exact hsome)] at hreceived
    -- the subscriber stays, with the refusal as the last of its notes
    have hstays : { s with log := s.log ++ [.refused live] } ∈ received := by
      rw [hreceived]
      exact mem_filterMap.mpr ⟨s, hmem, receive_pending live hopen hfull hpending⟩
    have hmem' : { s with log := s.log ++ [.refused live] } ∈
        (h.processOutput strip bytes replies).v2Subscribers := by
      rw [hnext]
      split_ifs
      · exact hstays
      · exact mem_filterMap.mpr ⟨_, hstays, if_pos hpending⟩
    exact Bool.false_ne_true (announced_of_append (hall _ hmem'))
  · intro hguard
    have hall : ∀ s ∈ received, announced s.log = true := by
      rw [hreceived]
      split_ifs with hempty
      · exact hs
      · intro s' hs'
        obtain ⟨s, hmem, hreceive⟩ := mem_filterMap.mp hs'
        rcases receive_cases hreceive with hqueued | hrefused | ⟨hopen, hfull, hpending⟩
        · rw [hqueued]
          exact announced_append (hs s hmem) rfl
        · rw [hrefused]
          exact announced_append (hs s hmem) (by simp [announced, LiveNote.announces])
        · rw [houtput, List.isEmpty_iff] at hempty
          rw [hguard hempty s hmem hopen hfull] at hpending
          cases hpending
    intro s' hs'
    rw [hnext] at hs'
    split_ifs at hs'
    · exact hall s' hs'
    · obtain ⟨s, hmem, hresync⟩ := mem_filterMap.mp hs'
      exact announced_resync (hall s hmem) hresync

theorem GhosttyHelper.Announced.modify (hs : h.Announced) (index : ℕ)
    {f : GhosttyV2Subscriber → GhosttyV2Subscriber} (hf : ∀ s, (f s).log = s.log) :
    (h.modify index f).Announced := by
  intro s hmem
  obtain ⟨i, hi, rfl⟩ := mem_iff_getElem.mp hmem
  have hold := hs _ (getElem_mem (by simpa [GhosttyHelper.modify] using hi))
  simp only [GhosttyHelper.modify, getElem_modify]
  split_ifs
  · rw [hf]
    exact hold
  · exact hold

end Announced

/-- **Refused outputs.** In every state of a run each output that a subscriber still there
was refused is announced behind its refusal from no later than its start, exactly if no
output comes to a full queue while an announcement is pending. -/
theorem refusals_announced_iff (strip : Bool) (events : List LiveEvent) :
    (∀ front, front <+: events →
      ∀ s ∈ (front.foldl (GhosttyHelper.step strip) .start).v2Subscribers,
        announced s.log = true) ↔
      Run.Guarded (GhosttyHelper.step strip) (GhosttyHelper.Announces strip) .start events := by
  refine @Run.Guarded.iff_lockstep GhosttyHelper _ _ _ _ _ Unit (fun t _ => t) (fun _ _ => True)
    (fun _ h => h.Announced) (fun _ _ _ _ => trivial) ?_ () trivial ?_
  · intro _ h event _ hs
    cases event with
    | output bytes replies => exact announced_processOutput_iff strip bytes replies hs
    | inputRefused => exact iff_of_true (hs.broadcastV2Resync _ _) trivial
    | subscribeV2 =>
      refine iff_of_true ?_ trivial
      intro s hmem
      rcases mem_append.mp hmem with hold | hnew
      · exact hs s hold
      · rw [mem_singleton.mp hnew]
        rfl
    | viewportV2 => exact iff_of_true hs trivial
    | drain index | closeLive index | closeEvents index =>
      exact iff_of_true (hs.modify index fun _ => rfl) trivial
  · intro s hmem
    cases hmem

/-- The queue is filled and the next output refused; that is announced, and once the screen
is drawn and the queue drained the outputs go on. -/
theorem refusals_announced_iff_drained :
    let events : List LiveEvent := .subscribeV2 :: List.replicate 257 (.output [97] true) ++
      [.viewportV2, .drain 0, .output [98] false]
    (∃ s ∈ (events.foldl (GhosttyHelper.step true) .start).v2Subscribers,
      .refused ⟨256, 257, [97]⟩ ∈ s.log) ∧
    ∀ s ∈ (events.foldl (GhosttyHelper.step true) .start).v2Subscribers,
      announced s.log = true := by
  intro events
  refine ⟨by decide +kernel, (refusals_announced_iff true events).mpr ?_ events prefix_rfl⟩
  decide +kernel

/-- The screen has been drawn anew after the first refused output, but the second is not
announced: the queue is drained and the client goes on behind it. -/
theorem refusal_not_announced :
    let events : List LiveEvent := .subscribeV2 :: List.replicate 257 (.output [97] true) ++
      [.viewportV2, .output [97] true, .drain 0, .output [97] true]
    ∃ s ∈ (events.foldl (GhosttyHelper.step true) .start).v2Subscribers,
      announced s.log = false := by
  decide +kernel

end Portl

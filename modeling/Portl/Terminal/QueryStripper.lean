import Mathlib.Data.Nat.Basic
import Mathlib.Order.Basic
import Portl.Lib.Stream
import Portl.Ticket.Schema

/-!
# The query stripper

`query_stripper.rs`. Terminal queries are taken out of the output of a session,
so that the terminal of a client does not answer into the session. The stripper
holds an escape sequence back until it is complete, and drops it if it is a query.
OSC and DCS strings go through unread.

A sequence that is cut short by another escape byte goes through at once. If the
second sequence is a query, what follows it lands behind the first: the two may
make a query that nobody stripped.
-/

namespace Portl

open Stream List

def esc : UInt8 := 0x1b

def isCsiFinal (byte : UInt8) : Bool := 0x40 ≤ byte && byte ≤ 0x7e

def isAsciiDigit (byte : UInt8) : Bool := 0x30 ≤ byte && byte ≤ 0x39

/-- `Mode` of `query_stripper.rs`. -/
inductive StripperMode where
  | ground
  | escapeIntermediate
  | csiParam
  | oscString
  | dcsString
deriving DecidableEq

/-- `pending` is the filled part of the buffer. -/
structure QueryStripper where
  mode : StripperMode
  pending : Bytes
  stringEscape : Bool
deriving DecidableEq

/-- `ESC [ marker`, digits and semicolons, at least one, and `u`. -/
def isKittyNumericQuery (bytes : Bytes) (marker : UInt8) : Bool :=
  match ([esc, 0x5b, marker].isPrefixOf? bytes).bind ([0x75].isSuffixOf? ·) with
  | none => false
  | some body => !body.isEmpty && body.all fun byte => isAsciiDigit byte || byte == 0x3b

def isQuery (bytes : Bytes) : Bool :=
  [[esc, 0x5b, 0x63], [esc, 0x5b, 0x3e, 0x63], [esc, 0x5b, 0x36, 0x6e],
      [esc, 0x5b, 0x3f, 0x75], [esc, 0x5b, 0x3c, 0x75]].contains bytes ||
    isKittyNumericQuery bytes 0x3e || isKittyNumericQuery bytes 0x3d

namespace QueryStripper

def maxBuffered : ℕ := 32

def new : QueryStripper := ⟨.ground, [], false⟩

/-! The methods below take the bytes put out so far along with the stripper. -/

def flushPending (s : QueryStripper) (out : Bytes) : Bytes × QueryStripper :=
  (out ++ s.pending, { s with pending := [] })

def startPendingEscape (s : QueryStripper) : QueryStripper :=
  { s with pending := [esc], mode := .escapeIntermediate }

def pushPending (s : QueryStripper) (byte : UInt8) (out : Bytes) : Bytes × QueryStripper :=
  let (out, s) := if s.pending.length = maxBuffered then s.flushPending out else (out, s)
  (out, { s with pending := s.pending ++ [byte] })

def feedEscapeIntermediate (s : QueryStripper) (byte : UInt8) (out : Bytes) :
    Bytes × QueryStripper :=
  if byte = 0x5b then
    let (out, s) := s.pushPending byte out
    (out, { s with mode := .csiParam })
  else if byte = 0x5d then
    let (out, s) := s.pushPending byte out
    let (out, s) := s.flushPending out
    (out, { s with mode := .oscString, stringEscape := false })
  else if byte = 0x50 then
    let (out, s) := s.pushPending byte out
    let (out, s) := s.flushPending out
    (out, { s with mode := .dcsString, stringEscape := false })
  else if byte = esc then
    let (out, s) := s.flushPending out
    (out, s.startPendingEscape)
  else
    let (out, s) := s.pushPending byte out
    let (out, s) := s.flushPending out
    (out, { s with mode := .ground })

def feedCsiParam (s : QueryStripper) (byte : UInt8) (out : Bytes) : Bytes × QueryStripper :=
  if byte = esc then
    let (out, s) := s.flushPending out
    (out, s.startPendingEscape)
  else if s.pending.length = maxBuffered then
    let (out, s) := s.flushPending out
    (out ++ [byte], { s with mode := .ground })
  else
    let (out, s) := s.pushPending byte out
    if isCsiFinal byte then
      if isQuery s.pending then (out, { s with pending := [], mode := .ground })
      else
        let (out, s) := s.flushPending out
        (out, { s with mode := .ground })
    else (out, s)

/-- An OSC string ends at BEL or `ESC \`, a DCS string only at the latter. -/
def feedString (s : QueryStripper) (byte : UInt8) (out : Bytes) (osc : Bool) :
    Bytes × QueryStripper :=
  if osc = true ∧ byte = 0x07 then (out ++ [byte], { s with mode := .ground, stringEscape := false })
  else if s.stringEscape = true ∧ byte = 0x5c then
    (out ++ [byte], { s with mode := .ground, stringEscape := false })
  else (out ++ [byte], { s with stringEscape := byte == esc })

def feedByte (s : QueryStripper) (byte : UInt8) (out : Bytes) : Bytes × QueryStripper :=
  match s.mode with
  | .ground => if byte = esc then (out, s.startPendingEscape) else (out ++ [byte], s)
  | .escapeIntermediate => s.feedEscapeIntermediate byte out
  | .csiParam => s.feedCsiParam byte out
  | .oscString => s.feedString byte out true
  | .dcsString => s.feedString byte out false

def feed (s : QueryStripper) (bytes : Bytes) : Bytes × QueryStripper :=
  bytes.foldl (fun r byte => r.2.feedByte byte r.1) ([], s)

/-- A call for each chunk: what they put out together, and the stripper after the
last. -/
def feedChunks (s : QueryStripper) (chunks : List Bytes) : Bytes × QueryStripper :=
  chunks.foldl (fun r chunk => (r.1 ++ (r.2.feed chunk).1, (r.2.feed chunk).2)) ([], s)

end QueryStripper

/-! ## The stripper is an escape filter -/

/-- The string a stripper passes unread, and whether its last byte was ESC. -/
inductive StringState where
  | osc (escaped : Bool)
  | dcs (escaped : Bool)
deriving DecidableEq

def StringState.next : StringState → UInt8 → Option StringState
  | .osc escaped, byte =>
    if byte = 0x07 ∨ escaped = true ∧ byte = 0x5c then none else some (.osc (byte == esc))
  | .dcs escaped, byte =>
    if escaped = true ∧ byte = 0x5c then none else some (.dcs (byte == esc))

/-- The verdict on the two bytes of an introducer, and on a CSI sequence: what
does not fit the buffer goes through. -/
def stripVerdict (w : Bytes) : Verdict StringState :=
  if w.length ≤ 2 then
    match w.getLast? with
    | some 0x5b => .more
    | some 0x5d => .raw (.osc false)
    | some 0x50 => .raw (.dcs false)
    | _ => .flush
  else if QueryStripper.maxBuffered < w.length then .flush
  else if w.getLast?.any isCsiFinal = false then .more
  else if isQuery w then .drop
  else .flush

def stripRules : EscapeRules UInt8 StringState := ⟨esc, stripVerdict, StringState.next⟩

namespace QueryStripper

variable {s : QueryStripper} {w : Bytes}

theorem feedByte_out (s : QueryStripper) (byte : UInt8) (out : Bytes) :
    s.feedByte byte out = (out ++ (s.feedByte byte []).1, (s.feedByte byte []).2) := by
  have hpush : ∀ out, s.pushPending byte out =
      (out ++ (s.pushPending byte []).1, (s.pushPending byte []).2) := by
    intro out
    unfold pushPending flushPending
    split_ifs
    · simp
    · simp
  unfold feedByte
  cases s.mode with
  | ground =>
    simp only
    split_ifs
    · simp
    · simp
  | escapeIntermediate =>
    simp only [feedEscapeIntermediate, hpush out, flushPending]
    split_ifs <;> simp
  | csiParam =>
    simp only [feedCsiParam, hpush out, flushPending]
    split_ifs <;> simp
  | oscString | dcsString =>
    simp only [feedString]
    split_ifs <;> simp

def step (s : QueryStripper) (byte : UInt8) : Bytes × QueryStripper := s.feedByte byte []

theorem feed_eq (s : QueryStripper) (bytes : Bytes) : s.feed bytes = Stream.feed step s bytes := by
  have h : s.feed bytes =
      ([] ++ (Stream.feed step s bytes).1, (Stream.feed step s bytes).2) :=
    foldl_eq_feed feedByte_out [] s bytes
  rw [h, nil_append]

theorem feedChunks_eq (s : QueryStripper) (chunks : List Bytes) :
    s.feedChunks chunks = Stream.feed step s chunks.flatten := by
  simp only [feedChunks, feed_eq]
  rw [foldl_chunks_eq_feed, nil_append]

inductive Reads : QueryStripper → EscapeState UInt8 StringState → Prop where
  | ground (e : Bool) : Reads ⟨.ground, [], e⟩ .ground
  | escape (e : Bool) : Reads ⟨.escapeIntermediate, [esc], e⟩ (.pending [esc])
  | csi {w : Bytes} (e : Bool) (htwo : 2 ≤ w.length) (hmax : w.length ≤ maxBuffered) :
      Reads ⟨.csiParam, w, e⟩ (.pending w)
  | osc (e : Bool) : Reads ⟨.oscString, [], e⟩ (.raw (.osc e))
  | dcs (e : Bool) : Reads ⟨.dcsString, [], e⟩ (.raw (.dcs e))

variable {t : EscapeState UInt8 StringState}

theorem Reads.pending_eq (h : Reads s t) : s.pending = t.held := by
  cases h with
  | ground | escape | csi | osc | dcs => rfl

theorem reads_start : Reads .new .ground := .ground false

theorem stripVerdict_two (byte : UInt8) :
    stripVerdict [esc, byte] =
      if byte = 0x5b then .more else if byte = 0x5d then .raw (.osc false)
      else if byte = 0x50 then .raw (.dcs false) else .flush := by
  simp only [stripVerdict, length_cons, length_nil, Nat.zero_add, Nat.reduceAdd, le_refl,
    if_true, List.getLast?_cons_cons, List.getLast?_singleton]
  split <;> simp_all

theorem stripVerdict_csi (htwo : 2 ≤ w.length) (hmax : w.length ≤ maxBuffered) (byte : UInt8) :
    stripVerdict (w ++ [byte]) =
      if w.length = maxBuffered then .flush
      else if isCsiFinal byte then if isQuery (w ++ [byte]) then .drop else .flush
      else .more := by
  have hlong : ¬ w.length + 1 ≤ 2 := by omega
  have hfull : maxBuffered < w.length + 1 ↔ w.length = maxBuffered := by omega
  simp only [stripVerdict, length_append, length_singleton, if_neg hlong, hfull,
    List.getLast?_concat, Option.any_some]
  cases isCsiFinal byte <;> rfl

theorem reads_escape (e : Bool) (byte : UInt8) :
    Alike Reads ((⟨.escapeIntermediate, [esc], e⟩ : QueryStripper).step byte)
      (stripRules.step (.pending [esc]) byte) := by
  by_cases hesc : byte = esc
  · subst hesc
    exact ⟨rfl, .escape e⟩
  · have hsettle : stripRules.step (.pending [esc]) byte = stripRules.settle [esc, byte] :=
      stripRules.step_pending hesc [esc]
    have hverdict : stripRules.verdict [esc, byte] = _ := stripVerdict_two byte
    have hshort : ¬ [esc].length = maxBuffered := by decide
    rw [hsettle]
    simp only [step, feedByte, feedEscapeIntermediate, pushPending, flushPending,
      EscapeRules.settle, hverdict, if_neg hesc, if_neg hshort]
    split_ifs
    · exact ⟨rfl, .csi e (Nat.le_refl 2) (show 2 ≤ maxBuffered by decide)⟩
    · exact ⟨rfl, .osc false⟩
    · exact ⟨rfl, .dcs false⟩
    · exact ⟨rfl, .ground e⟩

theorem reads_csi (e : Bool) (htwo : 2 ≤ w.length) (hmax : w.length ≤ maxBuffered) (byte : UInt8) :
    Alike Reads ((⟨.csiParam, w, e⟩ : QueryStripper).step byte)
      (stripRules.step (.pending w) byte) := by
  by_cases hesc : byte = esc
  · subst hesc
    rw [show stripRules.step (.pending w) esc = (w, .pending [esc]) from
      stripRules.step_pending_esc w]
    exact ⟨rfl, .escape e⟩
  · have hsettle : stripRules.step (.pending w) byte = stripRules.settle (w ++ [byte]) :=
      stripRules.step_pending hesc w
    have hverdict : stripRules.verdict (w ++ [byte]) = _ := stripVerdict_csi htwo hmax byte
    rw [hsettle]
    simp only [step, feedByte, feedCsiParam, if_neg hesc, EscapeRules.settle, hverdict, pushPending,
      flushPending]
    split_ifs with hfull
    · exact ⟨rfl, .ground e⟩
    · exact ⟨rfl, .ground e⟩
    · exact ⟨rfl, .ground e⟩
    · have hroom : (w ++ [byte]).length ≤ maxBuffered := by
        rw [length_append]
        exact Nat.lt_of_le_of_ne hmax hfull
      exact ⟨rfl, .csi e (htwo.trans (sublist_append_left w _).length_le) hroom⟩

theorem reads_step (s : QueryStripper) (t : EscapeState UInt8 StringState) (byte : UInt8)
    (h : Reads s t) : Alike Reads (s.step byte) (stripRules.step t byte) := by
  cases h with
  | ground e =>
    by_cases hb : byte = esc
    · subst hb
      exact ⟨rfl, .escape e⟩
    · rw [show stripRules.step .ground byte = ([byte], .ground) from stripRules.step_ground hb]
      simp only [step, feedByte, if_neg hb]
      exact ⟨rfl, .ground e⟩
  | escape e => exact reads_escape e byte
  | csi e htwo hmax => exact reads_csi e htwo hmax byte
  | osc e =>
    by_cases hbell : byte = 0x07
    · subst hbell
      exact ⟨rfl, .ground false⟩
    · by_cases hend : e = true ∧ byte = 0x5c
      · obtain ⟨rfl, rfl⟩ := hend
        exact ⟨rfl, .ground false⟩
      · simp only [step, feedByte, feedString, EscapeRules.step, stripRules, StringState.next,
          hbell, hend, and_false, false_or, if_false]
        exact ⟨rfl, .osc _⟩
  | dcs e =>
    by_cases hend : e = true ∧ byte = 0x5c
    · obtain ⟨rfl, rfl⟩ := hend
      exact ⟨rfl, .ground false⟩
    · simp only [step, feedByte, feedString, EscapeRules.step, stripRules, StringState.next,
        hend, Bool.false_eq_true, false_and, if_false]
      exact ⟨rfl, .dcs _⟩

/-! ## No query is left behind -/

def bufferedLen (s : QueryStripper) : ℕ := s.pending.length

def LeavesNoQuery (chunks : List Bytes) : Prop :=
  let out := (new.feedChunks chunks).1
  (new.feed out).1 ++ (new.feed out).2.pending = out

instance (chunks : List Bytes) : Decidable (LeavesNoQuery chunks) :=
  inferInstanceAs (Decidable (_ = _))

/-- Wherever a query begins in the stream, the stripper has nothing in its
buffer: no sequence is unfinished there. -/
def QueriesBeginFresh (bytes : Bytes) : Prop :=
  ∀ i ∈ List.range (bytes.length + 1), ∀ n ∈ List.range (maxBuffered + 1),
    isQuery ((bytes.drop i).take n) = true → (new.feed (bytes.take i)).2.bufferedLen = 0

instance (bytes : Bytes) : Decidable (QueriesBeginFresh bytes) := List.decidableBAll _ _

theorem stripVerdict_eq_drop (h : stripVerdict w = .drop) :
    isQuery w = true ∧ w.length ≤ maxBuffered := by
  unfold stripVerdict at h
  split_ifs at h with htwo hlong hmore hquery
  · split at h <;> cases h
  · exact ⟨hquery, not_lt.mp hlong⟩

theorem Reads.isPending_eq_false (h : Reads s t) (hlen : s.bufferedLen = 0) :
    t.isPending = false := by
  cases h with
  | ground e => rfl
  | escape e => cases hlen
  | @csi w e htwo hmax =>
    have hzero : w.length = 0 := hlen
    omega
  | osc e => rfl
  | dcs e => rfl

theorem clean_of_queriesBeginFresh {bytes : Bytes} (h : QueriesBeginFresh bytes) :
    stripRules.Clean bytes := by
  refine EscapeRules.clean_of_positions (fun w hdrop => (stripVerdict_eq_drop hdrop).2) ?_
  intro i hi n hn hdrop
  have hempty := h i (mem_range.mpr (Nat.lt_succ_of_le hi)) n
    (mem_range.mpr (Nat.lt_succ_of_le hn)) (stripVerdict_eq_drop hdrop).1
  rw [feed_eq] at hempty
  exact (feed_simulates reads_step reads_start (bytes.take i)).2.isPending_eq_false hempty

/-- **Query stripping leaves no query behind**, however the stream is cut into
chunks, where no query begins inside an unfinished sequence. -/
theorem leavesNoQuery_of_queriesBeginFresh (chunks : List Bytes)
    (h : QueriesBeginFresh chunks.flatten) : LeavesNoQuery chunks := by
  have hstable := EscapeRules.simulated_output_stable reads_step
    (fun _ _ hreads => hreads.pending_eq) reads_start (clean_of_queriesBeginFresh h)
  simpa only [LeavesNoQuery, feedChunks_eq, feed_eq] using hstable

/-- A query between two letters, one that follows a finished sequence, one cut
into two chunks, and one inside an OSC string, which stays. -/
theorem leavesNoQuery_plain :
    QueriesBeginFresh [[0x61, esc, 0x5b, 0x63, 0x62, esc, 0x5b, 0x31, 0x6d, esc, 0x5b],
        [0x36, 0x6e, esc, 0x5d, esc, 0x5b, 0x63, 0x07]].flatten ∧
      LeavesNoQuery [[0x61, esc, 0x5b, 0x63, 0x62, esc, 0x5b, 0x31, 0x6d, esc, 0x5b],
        [0x36, 0x6e, esc, 0x5d, esc, 0x5b, 0x63, 0x07]] :=
  ⟨by decide +kernel, leavesNoQuery_of_queriesBeginFresh _ (by decide +kernel)⟩

/-- `ESC ESC [ c [ c`: the query in the middle goes, and the rest is one. -/
theorem leavesNoQuery_spliced :
    (new.feedChunks [[esc, esc, 0x5b, 0x63, 0x5b, 0x63]]).1 = [esc, 0x5b, 0x63] ∧
      isQuery [esc, 0x5b, 0x63] = true ∧
      ¬ LeavesNoQuery [[esc, esc, 0x5b, 0x63, 0x5b, 0x63]] := by
  decide +kernel

end QueryStripper

end Portl

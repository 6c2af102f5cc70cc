import Portl.Lib.Pieces
import Portl.Terminal.QueryStripper

/-!
# The buffer of the query stripper

The stripper with its buffer as `query_stripper.rs` has it: 32 bytes, of which
the first `pending_len` are filled, read by slices and written by index. A slice
or an index past the end would panic. None does, and the stripper with the
buffer is the one with the list (`Shows.feedByte`).

Of a whole stream, the stripper takes out queries and nothing else, none of them
inside an OSC or DCS string.
-/

namespace Portl

open Stream

structure StripperBuffer where
  mode : StripperMode
  pending : Vector UInt8 QueryStripper.maxBuffered
  pendingLen : ℕ
  stringEscape : Bool

namespace StripperBuffer

open QueryStripper (maxBuffered)

def new : StripperBuffer := ⟨.ground, Vector.replicate maxBuffered 0, 0, false⟩

def bufferedLen (s : StripperBuffer) : ℕ := s.pendingLen

/-! A panic is `none`. -/

/-- `&self.pending[..self.pending_len]`. -/
def filled (s : StripperBuffer) : Option Bytes :=
  if s.pendingLen ≤ maxBuffered then some (s.pending.toList.take s.pendingLen) else none

/-- `self.pending[index] = byte`. -/
def store (s : StripperBuffer) (index : ℕ) (byte : UInt8) : Option StripperBuffer :=
  if h : index < maxBuffered then some { s with pending := s.pending.set index byte h } else none

def flushPending (s : StripperBuffer) (out : Bytes) : Option (Bytes × StripperBuffer) := do
  let held ← s.filled
  return (out ++ held, { s with pendingLen := 0 })

def startPendingEscape (s : StripperBuffer) : Option StripperBuffer := do
  let s ← s.store 0 esc
  return { s with pendingLen := 1, mode := .escapeIntermediate }

def pushPending (s : StripperBuffer) (byte : UInt8) (out : Bytes) :
    Option (Bytes × StripperBuffer) := do
  let (out, s) ← if s.pendingLen = maxBuffered then s.flushPending out else some (out, s)
  let s ← s.store s.pendingLen byte
  return (out, { s with pendingLen := s.pendingLen + 1 })

def feedEscapeIntermediate (s : StripperBuffer) (byte : UInt8) (out : Bytes) :
    Option (Bytes × StripperBuffer) :=
  if byte = 0x5b then do
    let (out, s) ← s.pushPending byte out
    return (out, { s with mode := .csiParam })
  else if byte = 0x5d then do
    let (out, s) ← s.pushPending byte out
    let (out, s) ← s.flushPending out
    return (out, { s with mode := .oscString, stringEscape := false })
  else if byte = 0x50 then do
    let (out, s) ← s.pushPending byte out
    let (out, s) ← s.flushPending out
    return (out, { s with mode := .dcsString, stringEscape := false })
  else if byte = esc then do
    let (out, s) ← s.flushPending out
    return (out, ← s.startPendingEscape)
  else do
    let (out, s) ← s.pushPending byte out
    let (out, s) ← s.flushPending out
    return (out, { s with mode := .ground })

def feedCsiParam (s : StripperBuffer) (byte : UInt8) (out : Bytes) :
    Option (Bytes × StripperBuffer) :=
  if byte = esc then do
    let (out, s) ← s.flushPending out
    return (out, ← s.startPendingEscape)
  else if s.pendingLen = maxBuffered then do
    let (out, s) ← s.flushPending out
    return (out ++ [byte], { s with mode := .ground })
  else do
    let (out, s) ← s.pushPending byte out
    if isCsiFinal byte then
      if isQuery (← s.filled) then return (out, { s with pendingLen := 0, mode := .ground })
      else
        let (out, s) ← s.flushPending out
        return (out, { s with mode := .ground })
    else return (out, s)

def feedString (s : StripperBuffer) (byte : UInt8) (out : Bytes) (osc : Bool) :
    Bytes × StripperBuffer :=
  if osc = true ∧ byte = 0x07 then (out ++ [byte], { s with mode := .ground, stringEscape := false })
  else if s.stringEscape = true ∧ byte = 0x5c then
    (out ++ [byte], { s with mode := .ground, stringEscape := false })
  else (out ++ [byte], { s with stringEscape := byte == esc })

def feedByte (s : StripperBuffer) (byte : UInt8) (out : Bytes) : Option (Bytes × StripperBuffer) :=
  match s.mode with
  | .ground =>
    if byte = esc then do return (out, ← s.startPendingEscape) else some (out ++ [byte], s)
  | .escapeIntermediate => s.feedEscapeIntermediate byte out
  | .csiParam => s.feedCsiParam byte out
  | .oscString => some (s.feedString byte out true)
  | .dcsString => some (s.feedString byte out false)

def feed (s : StripperBuffer) (bytes : Bytes) : Option (Bytes × StripperBuffer) :=
  bytes.foldlM (fun r byte => r.2.feedByte byte r.1) ([], s)

def feedChunks (s : StripperBuffer) (chunks : List Bytes) : Option (Bytes × StripperBuffer) :=
  chunks.foldlM (fun r chunk => do
    let (out, s) ← r.2.feed chunk
    return (r.1 ++ out, s)) ([], s)

/-! ## The buffer is the list -/

def view (s : StripperBuffer) : QueryStripper :=
  ⟨s.mode, s.pending.toList.take s.pendingLen, s.stringEscape⟩

/-- What a call returns and leaves behind, and what it does on lists. -/
structure Shows (r : Bytes × StripperBuffer) (a : Bytes × QueryStripper) : Prop where
  out : r.1 = a.1
  fits : r.2.pendingLen ≤ maxBuffered
  view : r.2.view = a.2

/-- A call that does not panic, and what it does on lists. -/
def Does (x : Option (Bytes × StripperBuffer)) (a : Bytes × QueryStripper) : Prop :=
  ∃ r, x = some r ∧ Shows r a

variable {a b : Bytes × QueryStripper} {r : Bytes × StripperBuffer}

theorem Shows.length (h : Shows r a) : a.2.pending.length = r.2.pendingLen := by
  rw [← h.view]
  show (r.2.pending.toList.take r.2.pendingLen).length = r.2.pendingLen
  rw [List.length_take, Vector.length_toList, Nat.min_eq_left h.fits]

theorem Shows.filled (h : Shows r a) : r.2.filled = some a.2.pending := by
  rw [← h.view]
  exact if_pos h.fits

theorem Shows.does (h : Shows r a) : Does (some r) a := ⟨r, rfl, h⟩

theorem Does.bind {x : Option (Bytes × StripperBuffer)}
    {f : Bytes × StripperBuffer → Option (Bytes × StripperBuffer)} (hx : Does x a)
    (hf : ∀ r, Shows r a → Does (f r) b) : Does (x >>= f) b := by
  obtain ⟨r, rfl, hr⟩ := hx
  exact hf r hr

theorem Shows.flushPending (h : Shows r a) : Does (r.2.flushPending r.1) (a.2.flushPending a.1) := by
  unfold StripperBuffer.flushPending
  rw [h.filled]
  refine Shows.does ⟨by rw [h.out]; rfl, Nat.zero_le _, ?_⟩
  rw [← h.view]
  rfl

theorem take_set_succ {n : ℕ} (buffer : Vector UInt8 n) {i : ℕ} (hi : i < n) (byte : UInt8) :
    (buffer.set i byte hi).toList.take (i + 1) = buffer.toList.take i ++ [byte] := by
  have hlen : i < buffer.toList.length := by rw [Vector.length_toList]; exact hi
  rw [Vector.toList_set, List.take_add_one, List.take_set_of_le (Nat.le_refl i),
    List.getElem?_set_self hlen]
  rfl

variable (h : Shows r a)
include h

theorem Shows.startPendingEscape :
    Does (do return (r.1, ← r.2.startPendingEscape)) (a.1, a.2.startPendingEscape) := by
  have hroom : 0 < maxBuffered := by decide
  simp only [StripperBuffer.startPendingEscape, store, dif_pos hroom]
  refine Shows.does ⟨h.out, Nat.succ_le_of_lt hroom, ?_⟩
  rw [← h.view]
  simp [StripperBuffer.view, take_set_succ r.2.pending hroom esc, QueryStripper.startPendingEscape]

theorem Shows.store (hroom : a.2.pending.length < maxBuffered) (byte : UInt8) :
    Does (do
        let s ← r.2.store r.2.pendingLen byte
        return (r.1, { s with pendingLen := s.pendingLen + 1 }))
      (a.1, { a.2 with pending := a.2.pending ++ [byte] }) := by
  rw [h.length] at hroom
  simp only [StripperBuffer.store, dif_pos hroom]
  refine Shows.does ⟨h.out, hroom, ?_⟩
  rw [← h.view]
  simp [StripperBuffer.view, take_set_succ r.2.pending hroom byte]

theorem Shows.pushPending (byte : UInt8) :
    Does (r.2.pushPending byte r.1) (a.2.pushPending byte a.1) := by
  unfold StripperBuffer.pushPending QueryStripper.pushPending
  rw [h.length]
  split_ifs with hfull
  · -- the buffer is let go first, and the byte becomes its first
    exact h.flushPending.bind fun r hr => hr.store (show 0 < maxBuffered by decide) byte
  · refine h.store ?_ byte
    rw [h.length]
    exact Nat.lt_of_le_of_ne h.fits hfull

theorem Shows.setMode (mode : StripperMode) :
    Shows (r.1, { r.2 with mode := mode }) (a.1, { a.2 with mode := mode }) where
  out := h.out
  fits := h.fits
  view := by rw [← h.view]; rfl

theorem Shows.enterString (mode : StripperMode) :
    Shows (r.1, { r.2 with mode := mode, stringEscape := false })
      (a.1, { a.2 with mode := mode, stringEscape := false }) where
  out := h.out
  fits := h.fits
  view := by rw [← h.view]; rfl

theorem Shows.feedEscapeIntermediate (byte : UInt8) :
    Does (r.2.feedEscapeIntermediate byte r.1) (a.2.feedEscapeIntermediate byte a.1) := by
  unfold StripperBuffer.feedEscapeIntermediate QueryStripper.feedEscapeIntermediate
  have hpush := h.pushPending byte
  split_ifs
  · exact hpush.bind fun r hr => (hr.setMode .csiParam).does
  · exact hpush.bind fun r hr => hr.flushPending.bind fun r hr => (hr.enterString .oscString).does
  · exact hpush.bind fun r hr => hr.flushPending.bind fun r hr => (hr.enterString .dcsString).does
  · exact h.flushPending.bind fun r hr => hr.startPendingEscape
  · exact hpush.bind fun r hr => hr.flushPending.bind fun r hr => (hr.setMode .ground).does

theorem Shows.feedCsiParam (byte : UInt8) :
    Does (r.2.feedCsiParam byte r.1) (a.2.feedCsiParam byte a.1) := by
  unfold StripperBuffer.feedCsiParam QueryStripper.feedCsiParam
  rw [h.length]
  by_cases hesc : byte = esc
  · rw [if_pos hesc, if_pos hesc]
    exact h.flushPending.bind fun r hr => hr.startPendingEscape
  · rw [if_neg hesc, if_neg hesc]
    split_ifs
    · refine h.flushPending.bind fun r hr => Shows.does ⟨?_, hr.fits, (hr.setMode .ground).view⟩
      rw [hr.out]
    · refine (h.pushPending byte).bind fun r hr => ?_
      simp only [hr.filled, Option.bind_eq_bind, Option.bind_some]
      split_ifs
      · refine Shows.does ⟨hr.out, Nat.zero_le _, ?_⟩
        rw [← hr.view]
        rfl
      · exact hr.flushPending.bind fun r hr => (hr.setMode .ground).does
    · exact (h.pushPending byte).bind fun r hr => hr.does

theorem Shows.feedString (byte : UInt8) (osc : Bool) :
    Shows (r.2.feedString byte r.1 osc) (a.2.feedString byte a.1 osc) := by
  have hescape : a.2.stringEscape = r.2.stringEscape := by
    rw [← h.view]
    rfl
  unfold StripperBuffer.feedString QueryStripper.feedString
  rw [h.out, hescape, ← h.view]
  split_ifs
  · exact ⟨rfl, h.fits, rfl⟩
  · exact ⟨rfl, h.fits, rfl⟩
  · exact ⟨rfl, h.fits, rfl⟩

/-- **No index is out of bounds, and the buffer is the list**: one byte. -/
theorem Shows.feedByte (byte : UInt8) : Does (r.2.feedByte byte r.1) (a.2.feedByte byte a.1) := by
  have hmode : a.2.mode = r.2.mode := by
    rw [← h.view]
    rfl
  unfold StripperBuffer.feedByte QueryStripper.feedByte
  rw [hmode]
  cases r.2.mode with
  | ground =>
    simp only
    split_ifs
    · exact h.startPendingEscape
    · exact Shows.does ⟨by rw [h.out], h.fits, h.view⟩
  | escapeIntermediate => exact h.feedEscapeIntermediate byte
  | csiParam => exact h.feedCsiParam byte
  | oscString => exact (h.feedString byte true).does
  | dcsString => exact (h.feedString byte false).does

omit h

theorem Shows.feed {s : StripperBuffer} {q : QueryStripper} (h : Shows ([], s) ([], q))
    (bytes : Bytes) : Does (s.feed bytes) (q.feed bytes) :=
  foldlM_refines (R := Shows) (fun _ _ byte h => h.feedByte byte) h bytes

/-- **A call for each chunk.** -/
theorem Shows.feedChunks {s : StripperBuffer} {q : QueryStripper} (h : Shows ([], s) ([], q))
    (chunks : List Bytes) : Does (s.feedChunks chunks) (q.feedChunks chunks) := by
  refine foldlM_refines (R := Shows) (fun r a chunk h => ?_) h chunks
  have hfeed : Shows ([], r.2) ([], a.2) := ⟨rfl, h.fits, h.view⟩
  exact (hfeed.feed chunk).bind fun r' h' => Shows.does ⟨by rw [h.out, h'.out], h'.fits, h'.view⟩

end StripperBuffer

/-! ## Strings, read apart from the stripper -/

inductive StringScan where
  | outside
  | escaped
  | inside (string : StringState)
deriving DecidableEq

namespace StringScan

def next : StringScan → UInt8 → StringScan
  | .outside, byte => if byte = esc then .escaped else .outside
  | .escaped, byte =>
    if byte = 0x5d then .inside (.osc false)
    else if byte = 0x50 then .inside (.dcs false)
    else if byte = esc then .escaped
    else .outside
  | .inside string, byte =>
    match string.next byte with
    | some string' => .inside string'
    | none => .outside

def isInside : StringScan → Bool
  | .inside _ => true
  | _ => false

end StringScan

/-- The byte that follows `bytes` is inside an OSC or DCS string. -/
def insideString (bytes : Bytes) : Bool := (bytes.foldl StringScan.next .outside).isInside

namespace QueryStripper

def scan (s : QueryStripper) : StringScan :=
  match s.mode with
  | .ground => .outside
  | .escapeIntermediate => .escaped
  | .csiParam => .outside
  | .oscString => .inside (.osc s.stringEscape)
  | .dcsString => .inside (.dcs s.stringEscape)

theorem pushPending_mode (s : QueryStripper) (byte : UInt8) (out : Bytes) :
    (s.pushPending byte out).2.mode = s.mode := by
  unfold pushPending
  split_ifs
  · rfl
  · rfl

variable {s : QueryStripper}

theorem scan_csi (h : s.mode = .csiParam) (byte : UInt8) :
    (s.feedCsiParam byte []).2.scan = StringScan.next .outside byte := by
  have hpush := (s.pushPending_mode byte []).trans h
  unfold feedCsiParam
  by_cases hesc : byte = esc
  · simp only [if_pos hesc, StringScan.next]
    rfl
  · simp only [if_neg hesc, StringScan.next]
    split_ifs
    · rfl
    · rfl
    · rfl
    · simp [scan, hpush]

/-- **The stripper keeps track of the strings**: one byte. -/
theorem scan_step (s : QueryStripper) (byte : UInt8) :
    (s.step byte).2.scan = s.scan.next byte := by
  unfold step feedByte
  cases hmode : s.mode with
  | ground =>
    simp only [scan, hmode, StringScan.next]
    split_ifs
    · rfl
    · simp [hmode]
  | escapeIntermediate =>
    have hscan : s.scan = .escaped := by simp [scan, hmode]
    rw [hscan]
    simp only [feedEscapeIntermediate, StringScan.next]
    by_cases hcsi : byte = 0x5b
    · subst hcsi
      rfl
    · simp only [if_neg hcsi]
      split_ifs
      · rfl
      · rfl
      · rfl
      · rfl
  | csiParam =>
    have hscan : s.scan = .outside := by simp [scan, hmode]
    rw [hscan]
    exact scan_csi hmode byte
  | oscString =>
    have hscan : s.scan = .inside (.osc s.stringEscape) := by simp [scan, hmode]
    rw [hscan]
    by_cases hbell : byte = 0x07
    · subst hbell
      rfl
    · by_cases hend : s.stringEscape = true ∧ byte = 0x5c
      · obtain ⟨hescaped, rfl⟩ := hend
        simp [feedString, StringScan.next, StringState.next, scan, hescaped]
      · simp [feedString, StringScan.next, StringState.next, hbell, hend, scan, hmode]
  | dcsString =>
    have hscan : s.scan = .inside (.dcs s.stringEscape) := by simp [scan, hmode]
    rw [hscan]
    by_cases hend : s.stringEscape = true ∧ byte = 0x5c
    · obtain ⟨hescaped, rfl⟩ := hend
      simp [feedString, StringScan.next, StringState.next, scan, hescaped]
    · simp [feedString, StringScan.next, StringState.next, hend, scan, hmode]

/-- **The stripper keeps track of the strings** of a whole stream. -/
theorem scan_feed (bytes : Bytes) :
    (new.feed bytes).2.scan = bytes.foldl StringScan.next .outside := by
  rw [feed_eq]
  induction bytes using List.reverseRecOn with
  | nil => rfl
  | append_singleton bytes byte ih =>
    rw [feed_append, feed_singleton, scan_step, ih, List.foldl_append]
    rfl

theorem Reads.isRaw_eq {t : EscapeState UInt8 StringState} (h : Reads s t) :
    t.isRaw = s.scan.isInside := by
  cases h with
  | ground | escape | csi | osc | dcs => rfl

theorem isRaw_read (bytes : Bytes) :
    (stripRules.read .ground bytes).2.isRaw = insideString bytes := by
  have hreads := (feed_simulates reads_step reads_start bytes).2
  rw [hreads.isRaw_eq, ← feed_eq, scan_feed]
  rfl

theorem feed_inside {pre : Bytes} (h : insideString pre = true) (byte : UInt8) :
    (new.feed (pre ++ [byte])).1 = (new.feed pre).1 ++ [byte] := by
  rw [feed_eq, feed_append, feed_singleton, ← feed_eq]
  rw [insideString, ← scan_feed] at h
  have hstring : ∀ osc, ((new.feed pre).2.feedString byte [] osc).1 = [byte] := by
    intro osc
    unfold feedString
    split_ifs
    · rfl
    · rfl
    · rfl
  simp only
  congr 1
  unfold step feedByte
  unfold scan at h
  split at h
  · cases h
  · cases h
  · cases h
  · rename_i hmode
    rw [hmode]
    exact hstring true
  · rename_i hmode
    rw [hmode]
    exact hstring false

/-! ## What is taken out of a stream -/

/-- `out` is `bytes` without some queries, each as long as the buffer at most and
outside every string, and without the last `buffered` bytes. -/
def StripsOnlyQueries (bytes out : Bytes) (buffered : ℕ) : Prop :=
  ∃ (pieces : List (Piece UInt8)) (last : Bytes),
    bytes = pieces.flatMap Piece.input ++ last ∧ last.length = buffered ∧
      out = pieces.flatMap (Piece.output fun byte => [byte]) ∧
      ∀ pre w post, pieces = pre ++ Piece.dropped w :: post →
        isQuery w = true ∧ w.length ≤ maxBuffered ∧
          ∀ v, v <+: w → insideString (pre.flatMap Piece.input ++ v) = false

theorem stripsOnlyQueries_feed (bytes : Bytes) :
    StripsOnlyQueries bytes (new.feed bytes).1 (new.feed bytes).2.bufferedLen := by
  obtain ⟨pieces, last, hparted⟩ :=
    exists_pieces stripRules.step_moves
      (show (EscapeState.ground : EscapeState UInt8 StringState).held = [] from rfl) bytes
  have hreads := feed_simulates reads_step reads_start bytes
  refine ⟨pieces, last, hparted.input, ?_, ?_, ?_⟩
  · have hheld := hparted.held
    rw [← hreads.2.pending_eq, List.flatMap_singleton'] at hheld
    rw [feed_eq, bufferedLen, hheld]
  · rw [feed_eq, hreads.1, hparted.output]
  · intro pre w post hpieces
    obtain ⟨hdrop, hfree⟩ := hparted.dropped pre w post hpieces
    rw [List.flatMap_singleton'] at hdrop
    refine ⟨(stripVerdict_eq_drop hdrop).1, (stripVerdict_eq_drop hdrop).2, ?_⟩
    intro v hv
    have hraw := hfree v hv
    rw [← isRaw_read, ← Bool.not_eq_true]
    exact hraw

end QueryStripper

namespace StripperBuffer

open QueryStripper (maxBuffered)

theorem shows_new : Shows ([], new) ([], .new) := ⟨rfl, Nat.zero_le _, rfl⟩

theorem feed_new (bytes : Bytes) :
    ∃ s, new.feed bytes = some ((QueryStripper.new.feed bytes).1, s) := by
  obtain ⟨r, hfeed, hshows⟩ := shows_new.feed bytes
  exact ⟨r.2, by rw [hfeed, ← hshows.out]⟩

/-- **Query stripping is lossless but for queries, and blind to the cuts.** The
stripper never panics and never holds more than its buffer; it puts out the same
for every way to cut the stream; that is the stream without some queries and
without what is held at the end; and a byte inside an OSC or DCS string is put
out as it is read. -/
theorem stripper_lossless (chunks : List Bytes) :
    ∃ out s, new.feedChunks chunks = some (out, s) ∧ s.bufferedLen ≤ maxBuffered ∧
      (∀ other : List Bytes, other.flatten = chunks.flatten →
        ∃ s', new.feedChunks other = some (out, s')) ∧
      QueryStripper.StripsOnlyQueries chunks.flatten out s.bufferedLen ∧
      ∀ pre byte post, chunks.flatten = pre ++ byte :: post → insideString pre = true →
        ∃ emitted s₁ s₂, new.feed pre = some (emitted, s₁) ∧
          new.feed (pre ++ [byte]) = some (emitted ++ [byte], s₂) ∧ emitted ++ [byte] <+: out := by
  have hchunks : ∀ other : List Bytes, ∃ s, new.feedChunks other =
      some ((QueryStripper.new.feed other.flatten).1, s) ∧ s.pendingLen ≤ maxBuffered ∧
        s.bufferedLen = (QueryStripper.new.feed other.flatten).2.bufferedLen := by
    intro other
    obtain ⟨r, hrun, hshows⟩ := shows_new.feedChunks other
    rw [QueryStripper.feedChunks_eq, ← QueryStripper.feed_eq] at hshows
    exact ⟨r.2, by rw [hrun, ← hshows.out], hshows.fits, hshows.length.symm⟩
  obtain ⟨s, hrun, hfits, hlen⟩ := hchunks chunks
  refine ⟨_, s, hrun, hfits, ?_, ?_, ?_⟩
  · intro other hother
    obtain ⟨s', hother', -, -⟩ := hchunks other
    rw [hother] at hother'
    exact ⟨s', hother'⟩
  · rw [hlen]
    exact QueryStripper.stripsOnlyQueries_feed chunks.flatten
  · intro pre byte post hpre hinside
    obtain ⟨s₁, hbefore⟩ := feed_new pre
    obtain ⟨s₂, hafter⟩ := feed_new (pre ++ [byte])
    rw [QueryStripper.feed_inside hinside] at hafter
    refine ⟨_, s₁, s₂, hbefore, hafter, ?_⟩
    rw [← QueryStripper.feed_inside hinside, hpre, List.append_cons pre byte post,
      QueryStripper.feed_eq _ (pre ++ [byte] ++ post), feed_append, ← QueryStripper.feed_eq]
    exact List.prefix_append _ _

/-- An OSC string, a query behind it and an escape byte that is held; and the same
bytes in one chunk. -/
theorem stripper_lossless_osc :
    ∃ out s, new.feedChunks [[esc, 0x5d, 0x61], [0x07, esc, 0x5b], [0x63, esc]] = some (out, s) ∧
      (∃ s', new.feedChunks [[esc, 0x5d, 0x61, 0x07, esc, 0x5b, 0x63, esc]] = some (out, s')) ∧
      [esc, 0x5d, 0x61] <+: out := by
  obtain ⟨out, s, hrun, -, hcuts, -, hstring⟩ :=
    stripper_lossless [[esc, 0x5d, 0x61], [0x07, esc, 0x5b], [0x63, esc]]
  obtain ⟨emitted, s₁, s₂, hbefore, -, hout⟩ :=
    hstring [esc, 0x5d] 0x61 [0x07, esc, 0x5b, 0x63, esc] rfl (by decide)
  obtain ⟨s₁', hemitted⟩ := feed_new [esc, 0x5d]
  obtain rfl : emitted = [esc, 0x5d] :=
    congrArg Prod.fst (Option.some.inj (hbefore.symm.trans hemitted))
  exact ⟨out, s, hrun, hcuts _ rfl, hout⟩

end StripperBuffer

end Portl

import Mathlib.Data.Nat.Basic
import Portl.Lib.Incremental
import Portl.Lib.Run
import Portl.Ticket.Schema

/-!
# Buffered frames

`BufferedRecv` of `io.rs`. A frame is decoded from the bytes that have arrived; where
they are not enough, the reader waits for more, up to a limit of the caller. What
arrived behind the frame stays in the buffer for the next call.

`oneShot` is the call as its callers think of it: over the whole stream, with the limit
on the frame. The reader checks the limit only where it has to wait. A buffer that an
earlier call with a larger limit filled is decoded whatever the limit is now.
-/

namespace Portl

open List

open Incremental (Failure)

/-- `postcard::take_from_bytes` at some type; `Failure.more` is
`DeserializeUnexpectedEnd`. -/
abbrev FrameDecoder (ν : Type*) := Incremental.Decoder UInt8 ν String

def readChunk : ℕ := 1024

/-! ## The transport -/

/-- What a `RecvStream` will give, cut as it will arrive. -/
structure RecvStream where
  chunks : List Bytes
  nonempty : ∀ chunk ∈ chunks, chunk ≠ []

namespace RecvStream

def bytes (r : RecvStream) : Bytes := r.chunks.flatten

/-- `recv.read` into a buffer of `n` bytes: from the next chunk, as much as fits. -/
def read (n : ℕ) (r : RecvStream) : Option (Bytes × RecvStream) :=
  match h : r.chunks with
  | [] => none
  | chunk :: chunks =>
    some (chunk.take n,
      ⟨if chunk.drop n = [] then chunks else chunk.drop n :: chunks, by
        have hrest : ∀ c ∈ chunks, c ≠ [] := fun c hc =>
          r.nonempty c (by rw [h]; exact mem_cons_of_mem _ hc)
        split
        · exact hrest
        · next hleft =>
            intro c hc
            rcases mem_cons.mp hc with rfl | hc
            · exact hleft
            · exact hrest c hc⟩)

variable {n : ℕ} {r : RecvStream}

theorem read_eq_none (h : r.read n = none) : r.bytes = [] := by
  unfold read at h
  unfold bytes
  split at h
  · next hchunks => rw [hchunks]; rfl
  · cases h

theorem read_eq_some (hn : 0 < n) {r' : RecvStream} {chunk : Bytes}
    (h : r.read n = some (chunk, r')) :
    r.bytes = chunk ++ r'.bytes ∧ 0 < chunk.length ∧ chunk.length ≤ n := by
  unfold read at h
  split at h
  · cases h
  · next first chunks hchunks =>
      obtain ⟨rfl, rfl⟩ := Prod.mk.inj (Option.some.inj h)
      have hfirst : 0 < first.length :=
        length_pos_iff.mpr (r.nonempty first (by rw [hchunks]; exact mem_cons_self))
      have hbytes : r.bytes = first ++ chunks.flatten := by
        unfold bytes
        rw [hchunks, flatten_cons]
      refine ⟨?_, ?_, length_take_le _ _⟩
      · rw [hbytes]
        unfold bytes
        by_cases hdrop : first.drop n = []
        · simp only [if_pos hdrop]
          rw [take_of_length_le (drop_eq_nil_iff.mp hdrop)]
        · simp only [if_neg hdrop, flatten_cons]
          rw [← append_assoc, take_append_drop]
      · rw [length_take]
        omega

end RecvStream

/-! ## The reader -/

structure BufferedRecv where
  prefixBytes : Bytes
  recv : RecvStream

/-- What `read_frame` returns: a frame, `Ok(None)`, or one of its errors. -/
inductive FrameOutcome (ν : Type*) where
  | frame (value : ν)
  | ended
  /-- "postcard frame exceeds {max_bytes} bytes" -/
  | exceeds (maxBytes : ℕ)
  /-- "truncated postcard frame" -/
  | truncated
  /-- "decode postcard frame" -/
  | malformed (e : String)
deriving DecidableEq

namespace BufferedRecv

variable {ν : Type*} (D : FrameDecoder ν) (maxBytes : ℕ)

def remaining (s : BufferedRecv) : Bytes := s.prefixBytes ++ s.recv.bytes

/-- The loop of `read_frame`. Every read takes a byte at least, so the room that is left
bounds the number of reads. -/
def readLoop (room : ℕ) (s : BufferedRecv) : FrameOutcome ν × BufferedRecv :=
  match D.take s.prefixBytes with
  | .ok (value, rest) =>
    let consumed := s.prefixBytes.length - rest.length
    (.frame value, { s with prefixBytes := s.prefixBytes.drop consumed })
  | .error .more =>
    if maxBytes ≤ s.prefixBytes.length then (.exceeds maxBytes, s)
    else
      match room with
      | 0 => (.exceeds maxBytes, s)
      | room + 1 =>
        match s.recv.read (min readChunk (maxBytes - s.prefixBytes.length)) with
        | some (chunk, recv) => readLoop room ⟨s.prefixBytes ++ chunk, recv⟩
        | none => if s.prefixBytes = [] then (.ended, s) else (.truncated, s)
  | .error (.bad e) => (.malformed e, s)

def readFrame (s : BufferedRecv) : FrameOutcome ν × BufferedRecv :=
  readLoop D maxBytes (maxBytes - s.prefixBytes.length) s

/-- The frame at the front of a stream, with the limit on what may be looked at, and
what is left behind it. -/
def oneShot (stream : Bytes) : FrameOutcome ν × Bytes :=
  match D.take (stream.take maxBytes) with
  | .ok (value, rest) => (.frame value, rest ++ stream.drop maxBytes)
  | .error .more =>
    if maxBytes ≤ stream.length then (.exceeds maxBytes, stream)
    else if stream = [] then (.ended, stream)
    else (.truncated, stream)
  | .error (.bad e) => (.malformed e, stream)

/-! ## One call -/

section Call

variable {D maxBytes} {s : BufferedRecv}

theorem readLoop_of_ok (maxBytes : ℕ) {value : ν} {rest : Bytes}
    (h : D.take s.prefixBytes = .ok (value, rest)) (room : ℕ) :
    (readLoop D maxBytes room s).1 = .frame value ∧
      (readLoop D maxBytes room s).2.remaining = rest ++ s.recv.bytes ∧
      (readLoop D maxBytes room s).2.prefixBytes = rest := by
  have hdrop : s.prefixBytes.drop (s.prefixBytes.length - rest.length) = rest := by
    obtain ⟨used, hused⟩ := D.ok_suffix h
    rw [← hused, length_append, Nat.add_sub_cancel, drop_left]
  unfold readLoop
  simp only [h]
  refine ⟨trivial, ?_, hdrop⟩
  unfold remaining
  rw [hdrop]

theorem readLoop_of_bad {e : String} (h : D.take s.prefixBytes = .error (.bad e)) (room : ℕ) :
    readLoop D maxBytes room s = (.malformed e, s) := by
  unfold readLoop
  simp [h]

theorem take_remaining (hlength : s.prefixBytes.length ≤ maxBytes) :
    s.remaining.take maxBytes =
      s.prefixBytes ++ s.recv.bytes.take (maxBytes - s.prefixBytes.length) := by
  unfold remaining
  rw [take_append, take_of_length_le hlength]

theorem drop_remaining (hlength : s.prefixBytes.length ≤ maxBytes) :
    s.recv.bytes.take (maxBytes - s.prefixBytes.length) ++ s.remaining.drop maxBytes =
      s.recv.bytes := by
  unfold remaining
  rw [drop_append, drop_eq_nil_of_le hlength, nil_append, take_append_drop]

theorem readLoop_of_verdict (room : ℕ) (hlength : s.prefixBytes.length ≤ maxBytes)
    (h : D.take s.prefixBytes ≠ .error .more) :
    ((readLoop D maxBytes room s).1, (readLoop D maxBytes room s).2.remaining) =
      oneShot D maxBytes s.remaining := by
  unfold oneShot
  rw [take_remaining hlength]
  cases hverdict : D.take s.prefixBytes with
  | ok r =>
    obtain ⟨value, rest⟩ := r
    obtain ⟨hframe, hleft, -⟩ := readLoop_of_ok maxBytes hverdict room
    simp only [D.ok_append hverdict]
    rw [hframe, hleft, append_assoc, drop_remaining hlength]
  | error failure =>
    cases failure with
    | more => exact absurd hverdict h
    | bad e =>
      simp only [D.bad_append hverdict]
      rw [readLoop_of_bad hverdict]

theorem oneShot_full (hfull : maxBytes = s.prefixBytes.length)
    (h : D.take s.prefixBytes = .error .more) :
    oneShot D maxBytes s.remaining = (.exceeds maxBytes, s.remaining) := by
  have htake : s.remaining.take maxBytes = s.prefixBytes := by
    unfold remaining
    rw [hfull, take_left]
  unfold oneShot
  rw [htake]
  simp only [h]
  rw [if_pos]
  unfold remaining
  rw [length_append]
  omega

theorem oneShot_ended (hshort : s.prefixBytes.length < maxBytes) (hend : s.recv.bytes = [])
    (h : D.take s.prefixBytes = .error .more) :
    oneShot D maxBytes s.remaining =
      (if s.prefixBytes = [] then .ended else .truncated, s.remaining) := by
  have hall : s.remaining = s.prefixBytes := by
    unfold remaining
    rw [hend, append_nil]
  unfold oneShot
  rw [hall, take_of_length_le (Nat.le_of_lt hshort)]
  simp only [h]
  rw [if_neg (Nat.not_le.mpr hshort)]
  split <;> rfl

/-- **A call with a buffer within the limit is the one-shot call**, however the stream
is cut. -/
theorem readLoop_eq_oneShot (room : ℕ) (s : BufferedRecv)
    (hlength : s.prefixBytes.length ≤ maxBytes) (hroom : maxBytes - s.prefixBytes.length ≤ room) :
    ((readLoop D maxBytes room s).1, (readLoop D maxBytes room s).2.remaining) =
      oneShot D maxBytes s.remaining := by
  induction room generalizing s with
  | zero =>
    by_cases hverdict : D.take s.prefixBytes = .error .more
    · rw [oneShot_full (by omega) hverdict]
      unfold readLoop
      simp [hverdict]
    · exact readLoop_of_verdict 0 hlength hverdict
  | succ room ih =>
    by_cases hverdict : D.take s.prefixBytes = .error .more
    · by_cases hfull : maxBytes ≤ s.prefixBytes.length
      · rw [oneShot_full (by omega) hverdict]
        unfold readLoop
        simp only [hverdict, if_pos hfull]
      · have hspace : 0 < min readChunk (maxBytes - s.prefixBytes.length) := by
          unfold readChunk
          omega
        unfold readLoop
        simp only [hverdict, if_neg hfull]
        cases hread : s.recv.read (min readChunk (maxBytes - s.prefixBytes.length)) with
        | none =>
          rw [oneShot_ended (by omega) (RecvStream.read_eq_none hread) hverdict]
          simp only
          split <;> rfl
        | some r =>
          obtain ⟨chunk, recv⟩ := r
          obtain ⟨hbytes, hpos, hle⟩ := RecvStream.read_eq_some hspace hread
          have hsame : (⟨s.prefixBytes ++ chunk, recv⟩ : BufferedRecv).remaining =
              s.remaining := by
            unfold remaining
            rw [hbytes, append_assoc]
          have hgrown : (s.prefixBytes ++ chunk).length = s.prefixBytes.length + chunk.length :=
            length_append
          rw [← hsame]
          exact ih ⟨s.prefixBytes ++ chunk, recv⟩ (by simp only [hgrown]; omega)
            (by simp only [hgrown]; omega)
    · exact readLoop_of_verdict (room + 1) hlength hverdict

theorem length_readLoop_le (room : ℕ) (s : BufferedRecv)
    (hlength : s.prefixBytes.length ≤ maxBytes) :
    (readLoop D maxBytes room s).2.prefixBytes.length ≤ maxBytes := by
  fun_induction readLoop D maxBytes room s
  case case1 => exact Nat.le_trans (by rw [length_drop]; omega) hlength
  case case4 s _ hfull room chunk recv hread ih =>
    have hspace : 0 < min readChunk (maxBytes - s.prefixBytes.length) := by
      unfold readChunk
      omega
    obtain ⟨-, -, hle⟩ := RecvStream.read_eq_some hspace hread
    apply ih
    rw [length_append]
    omega
  all_goals exact hlength

/-- The call meets in its buffer a verdict that the limit keeps out of sight: a frame
longer than the limit, or bytes beyond it that are malformed. -/
def Overlooks (D : FrameDecoder ν) (maxBytes : ℕ) (s : BufferedRecv) : Prop :=
  D.take (s.prefixBytes.take maxBytes) = .error .more ∧ D.take s.prefixBytes ≠ .error .more

theorem not_overlooks_of_le (hlength : s.prefixBytes.length ≤ maxBytes) :
    ¬ Overlooks D maxBytes s := by
  rintro ⟨hmore, hverdict⟩
  rw [take_of_length_le hlength] at hmore
  exact hverdict hmore

theorem readFrame_within_iff (hlong : maxBytes < s.prefixBytes.length) :
    ((readFrame D maxBytes s).1, (readFrame D maxBytes s).2.remaining) =
        oneShot D maxBytes s.remaining ↔ ¬ Overlooks D maxBytes s := by
  have htake : s.remaining.take maxBytes = s.prefixBytes.take maxBytes := by
    unfold remaining
    exact take_append_of_le_length (Nat.le_of_lt hlong)
  have hdrop : s.remaining.drop maxBytes = s.prefixBytes.drop maxBytes ++ s.recv.bytes := by
    unfold remaining
    exact drop_append_of_le_length (Nat.le_of_lt hlong)
  have hlonger : maxBytes ≤ s.remaining.length := by
    unfold remaining
    rw [length_append]
    omega
  have hcut : s.prefixBytes.take maxBytes ++ s.prefixBytes.drop maxBytes = s.prefixBytes :=
    take_append_drop _ _
  unfold readFrame oneShot Overlooks
  rw [htake, hdrop]
  cases hfront : D.take (s.prefixBytes.take maxBytes) with
  | ok r =>
    obtain ⟨value, rest⟩ := r
    have hverdict := D.ok_append hfront (s.prefixBytes.drop maxBytes)
    rw [hcut] at hverdict
    obtain ⟨hframe, hleft, -⟩ :=
      readLoop_of_ok maxBytes hverdict (maxBytes - s.prefixBytes.length)
    simp only [hframe, hleft, append_assoc]
    exact iff_of_true trivial fun h => nomatch h.1
  | error failure =>
    cases failure with
    | bad e =>
      have hverdict := D.bad_append hfront (s.prefixBytes.drop maxBytes)
      rw [hcut] at hverdict
      rw [readLoop_of_bad hverdict]
      exact iff_of_true rfl fun h => nomatch h.1
    | more =>
      simp only [if_pos hlonger]
      cases hverdict : D.take s.prefixBytes with
      | ok r =>
        obtain ⟨value, rest⟩ := r
        obtain ⟨hframe, -⟩ :=
          readLoop_of_ok maxBytes hverdict (maxBytes - s.prefixBytes.length)
        rw [hframe]
        exact iff_of_false nofun fun h => h ⟨trivial, nofun⟩
      | error failure =>
        cases failure with
        | bad e =>
          rw [readLoop_of_bad hverdict]
          exact iff_of_false nofun fun h => h ⟨trivial, nofun⟩
        | more =>
          unfold readLoop
          simp only [hverdict, if_pos (Nat.le_of_lt hlong)]
          exact iff_of_true trivial fun h => h.2 rfl

/-- **One call is the one-shot call exactly where it overlooks nothing.** -/
theorem readFrame_eq_oneShot_iff (D : FrameDecoder ν) (maxBytes : ℕ) (s : BufferedRecv) :
    ((readFrame D maxBytes s).1, (readFrame D maxBytes s).2.remaining) =
        oneShot D maxBytes s.remaining ↔ ¬ Overlooks D maxBytes s := by
  rcases Nat.lt_or_ge maxBytes s.prefixBytes.length with hlong | hshort
  · exact readFrame_within_iff hlong
  · exact iff_of_true (readLoop_eq_oneShot _ s hshort le_rfl) (not_overlooks_of_le hshort)

end Call

/-! ## What the one-shot call says -/

section OneShot

variable {D maxBytes} {used : Bytes} {value : ν}

theorem oneShot_accepts (h : D.take used = .ok (value, [])) (hlength : used.length ≤ maxBytes)
    (rest : Bytes) : oneShot D maxBytes (used ++ rest) = (.frame value, rest) := by
  have htake : (used ++ rest).take maxBytes = used ++ rest.take (maxBytes - used.length) := by
    rw [take_append, take_of_length_le hlength]
  have hdrop : (used ++ rest).drop maxBytes = rest.drop (maxBytes - used.length) := by
    rw [drop_append, drop_eq_nil_of_le hlength, nil_append]
  unfold oneShot
  rw [htake, hdrop]
  simp [D.ok_append h]

theorem oneShot_rejects (h : D.take used = .ok (value, [])) (hlength : maxBytes < used.length)
    (rest : Bytes) : oneShot D maxBytes (used ++ rest) = (.exceeds maxBytes, used ++ rest) := by
  unfold oneShot
  rw [take_append_of_le_length (Nat.le_of_lt hlength)]
  simp only [D.more_of_lt h hlength]
  rw [if_pos (by rw [length_append]; omega)]

theorem oneShot_truncated {stream : Bytes} (h : D.take stream = .error .more) (hne : stream ≠ []) :
    oneShot D maxBytes stream =
      (if maxBytes ≤ stream.length then .exceeds maxBytes else .truncated, stream) := by
  have hfront : D.take (stream.take maxBytes) = .error .more := by
    rw [← take_append_drop maxBytes stream] at h
    exact D.more_of_append h
  unfold oneShot
  simp only [hfront, if_neg hne]
  split_ifs
  · rfl
  · rfl

end OneShot

/-! ## Runs of calls -/

structure Call (ν : Type*) where
  decoder : FrameDecoder ν
  maxBytes : ℕ

def call (c : List (FrameOutcome ν) × BufferedRecv) (a : Call ν) : List (FrameOutcome ν) × BufferedRecv :=
  (c.1 ++ [(readFrame a.decoder a.maxBytes c.2).1], (readFrame a.decoder a.maxBytes c.2).2)

def oneShotCall (c : List (FrameOutcome ν) × Bytes) (a : Call ν) : List (FrameOutcome ν) × Bytes :=
  (c.1 ++ [(oneShot a.decoder a.maxBytes c.2).1], (oneShot a.decoder a.maxBytes c.2).2)

theorem guarded_of_limits {s : BufferedRecv} {calls : List (Call ν)}
    (hstart : ∀ a ∈ calls, s.prefixBytes.length ≤ a.maxBytes)
    (hlimits : calls.Pairwise fun a b => a.maxBytes ≤ b.maxBytes) (out : List (FrameOutcome ν)) :
    Run.Guarded call (fun c a => ¬ Overlooks a.decoder a.maxBytes c.2) (out, s) calls := by
  induction calls generalizing s out with
  | nil => trivial
  | cons a calls ih =>
    obtain ⟨hfirst, hrest⟩ := pairwise_cons.mp hlimits
    have hlength := hstart a mem_cons_self
    have hkept : (readFrame a.decoder a.maxBytes s).2.prefixBytes.length ≤ a.maxBytes :=
      length_readLoop_le _ s hlength
    exact ⟨not_overlooks_of_le hlength,
      ih (fun b hb => Nat.le_trans hkept (hfirst b hb)) hrest _⟩

/-- The one-shot call as its callers know it: a frame within the limit is accepted, a
longer one is refused, and the end of the stream inside a frame is an error. -/
structure KeepsLimit (a : Call ν) : Prop where
  accepts : ∀ {used : Bytes} {value : ν} (rest : Bytes), a.decoder.take used = .ok (value, []) →
    used.length ≤ a.maxBytes → oneShot a.decoder a.maxBytes (used ++ rest) = (.frame value, rest)
  rejects : ∀ {used : Bytes} {value : ν} (rest : Bytes), a.decoder.take used = .ok (value, []) →
    a.maxBytes < used.length →
    oneShot a.decoder a.maxBytes (used ++ rest) = (.exceeds a.maxBytes, used ++ rest)
  truncates : ∀ {stream : Bytes}, a.decoder.take stream = .error .more → stream ≠ [] →
    oneShot a.decoder a.maxBytes stream =
      (if a.maxBytes ≤ stream.length then .exceeds a.maxBytes else .truncated, stream)

/-- **Buffered reading does not depend on how the stream is cut exactly where no call
overlooks something**: then, and only then, every call returns what the one-shot call
returns, which keeps the limit, and leaves what it leaves. -/
theorem frames_cut_independent_iff (s : BufferedRecv) (calls : List (Call ν)) :
    ((∀ p, p <+: calls →
        ((p.foldl call ([], s)).1, (p.foldl call ([], s)).2.remaining) =
          p.foldl oneShotCall ([], s.remaining)) ↔
      Run.Guarded call (fun c a => ¬ Overlooks a.decoder a.maxBytes c.2) ([], s) calls) ∧
      ∀ a ∈ calls, KeepsLimit a := by
  refine ⟨?_, fun a _ => ⟨fun rest h hlength => oneShot_accepts h hlength rest,
    fun rest h hlength => oneShot_rejects h hlength rest, oneShot_truncated⟩⟩
  refine Run.Guarded.iff_lockstep (J := fun _ _ => True)
    (P := fun (t : List (FrameOutcome ν) × Bytes) (c : List (FrameOutcome ν) × BufferedRecv) =>
      (c.1, c.2.remaining) = t) (fun _ _ _ _ => trivial) ?_ trivial rfl
  rintro _ c a - rfl
  rw [← readFrame_eq_oneShot_iff]
  unfold call oneShotCall
  simp only [Prod.mk.injEq, append_cancel_left_eq, List.cons.injEq, and_true]
  rw [Prod.ext_iff]

/-! ### A decoder -/

def takeShort : Bytes → Except (Failure String) (Bytes × Bytes)
  | [] => .error .more
  | n :: rest =>
    if 128 ≤ n.toNat then .error (.bad "length")
    else if n.toNat ≤ rest.length then .ok (rest.take n.toNat, rest.drop n.toNat)
    else .error .more

variable {p rest v : Bytes}

theorem takeShort_suffix (h : takeShort p = .ok (v, rest)) : rest <:+ p := by
  cases p with
  | nil => cases h
  | cons n bytes =>
    rw [takeShort] at h
    split_ifs at h
    obtain ⟨-, rfl⟩ := Prod.mk.inj (Except.ok.inj h)
    exact (drop_suffix _ _).trans (suffix_cons _ _)

theorem takeShort_append (h : takeShort p = .ok (v, rest)) (q : Bytes) :
    takeShort (p ++ q) = .ok (v, rest ++ q) := by
  cases p with
  | nil => cases h
  | cons n bytes =>
    rw [cons_append]
    rw [takeShort] at h ⊢
    split_ifs at h with hbig hfits
    obtain ⟨rfl, rfl⟩ := Prod.mk.inj (Except.ok.inj h)
    rw [if_neg hbig, if_pos (by rw [length_append]; omega),
      take_append_of_le_length hfits, drop_append_of_le_length hfits]

theorem takeShort_bad {e : String} (h : takeShort p = .error (.bad e)) (q : Bytes) :
    takeShort (p ++ q) = .error (.bad e) := by
  cases p with
  | nil => cases h
  | cons n bytes =>
    rw [cons_append]
    rw [takeShort] at h ⊢
    split_ifs at h with hbig hfits
    · rw [if_pos hbig]
      exact h
    · cases h

def shortBytes : FrameDecoder Bytes where
  take := takeShort
  ok_suffix := takeShort_suffix
  ok_append := takeShort_append
  bad_append := takeShort_bad

def together : BufferedRecv := ⟨[], ⟨[[0, 2, 7, 7]], by simp⟩⟩

def apart : BufferedRecv := ⟨[], ⟨[[0], [2, 7, 7]], by simp⟩⟩

theorem frames_with_rising_limits :
    ([⟨shortBytes, 2⟩, ⟨shortBytes, 3⟩].foldl call ([], together)).1 =
      [.frame [], .frame [7, 7]] := by
  have hguarded : Run.Guarded call
      (fun (c : List (FrameOutcome Bytes) × BufferedRecv) (a : Call Bytes) =>
        ¬ Overlooks a.decoder a.maxBytes c.2)
      ([], together) [⟨shortBytes, 2⟩, ⟨shortBytes, 3⟩] :=
    guarded_of_limits (fun _ _ => Nat.zero_le _) (by simp) []
  exact congrArg Prod.fst ((frames_cut_independent_iff together
    [⟨shortBytes, 2⟩, ⟨shortBytes, 3⟩]).1.mpr hguarded _ (prefix_refl _))

/-- The second call allows two bytes. Cut between the frames it refuses the second one;
in one piece it accepts it. -/
theorem frames_depend_on_cut :
    together.remaining = apart.remaining ∧
      ([⟨shortBytes, 8⟩, ⟨shortBytes, 2⟩].foldl call ([], together)).1 =
        [.frame [], .frame [7, 7]] ∧
      ([⟨shortBytes, 8⟩, ⟨shortBytes, 2⟩].foldl call ([], apart)).1 = [.frame [], .exceeds 2] := by
  refine ⟨rfl, rfl, rfl⟩

end BufferedRecv

end Portl

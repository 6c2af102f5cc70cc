import Portl.Agent.Gateway
import Portl.Lib.Octets

/-!
# Herdr frames

`herdr_wire.rs`: a frame is the length of its payload in four octets and the payload,
which begins with the tag of its message as a compact integer. Two pieces of code take
such frames. `read_herdr_frame` reads one from a stream and decides on the way, before
the payload is there, what it may cost; `decode_client_from_bytes` and
`decode_server_from_bytes` check a buffer that is there already.

`IsFrame` says what a frame is without either of them, and both are compared with it.
-/

namespace Portl

namespace HerdrWire

open Checks Octets List

/-! ## Limits and errors -/

def lengthPrefixBytes : ℕ := 4

def maxFrameSize : ℕ := 2 * 1024 * 1024

def maxGraphicsFrameSize : ℕ := 32 * 1024 * 1024

def maxClipboardImagePayload : ℕ := 16 * 1024 * 1024

/-- `usize::MAX`, on the targets with 64 bits. -/
def usizeMax : ℕ := 2 ^ 64 - 1

structure HerdrReadLimits where
  normalPayload : ℕ
  largePayload : ℕ
  clipboardImageData : ℕ

/-- `HerdrReadLimits::default()`, which every caller passes. -/
def defaultLimits : HerdrReadLimits where
  normalPayload := maxFrameSize
  largePayload := maxGraphicsFrameSize
  clipboardImageData := maxClipboardImagePayload

inductive FrameDirection where
  | clientToServer
  | serverToClient
deriving DecidableEq

/-- The `Debug` text of a direction. -/
def FrameDirection.debug : FrameDirection → String
  | .clientToServer => "ClientToServer"
  | .serverToClient => "ServerToClient"

inductive HerdrFrameError where
  | oversized (claimed max : ℕ)
  | unexpectedEof (needed actual : ℕ)
  | bincode (message : String)
  | io (message : String)
  | invalidTag (message : String)
  | zeroLength
  | allocation (bytes : ℕ)
  | slowConsumer (bytes : ℕ)
  | clipboardImageOversized (claimed max : ℕ)
deriving DecidableEq

def isLargeFrame (direction : FrameDirection) (tag : ℕ) : Bool :=
  match direction with
  | .clientToServer => tag = 2
  | .serverToClient => tag = 1 ∨ tag = 3

def framePayloadLimit (direction : FrameDirection) (tag : ℕ) (limits : HerdrReadLimits) : ℕ :=
  if isLargeFrame direction tag then limits.largePayload else limits.normalPayload

/-! ## Compact integers -/

def tagWidth (marker : UInt8) : Except HerdrFrameError ℕ :=
  if marker ≤ 250 then .ok 1
  else if marker = 251 then .ok 3
  else if marker = 252 then .ok 5
  else .error (.invalidTag "reserved or overflowing marker")

/-- `decode_compact_u32`: an integer stands in the fewest octets that hold it. -/
def decodeCompactU32 : Bytes → Except HerdrFrameError ℕ
  | [value] =>
    if value ≤ 250 then .ok value.toNat else .error (.invalidTag "invalid length")
  | [marker, lo, hi] =>
    if marker = 251 then
      if 250 < ofLe [lo, hi] then .ok (ofLe [lo, hi])
      else .error (.invalidTag "non-canonical u16")
    else .error (.invalidTag "invalid length")
  | [marker, a, b, c, d] =>
    if marker = 252 then
      if 65535 < ofLe [a, b, c, d] then .ok (ofLe [a, b, c, d])
      else .error (.invalidTag "non-canonical u32")
    else .error (.invalidTag "invalid length")
  | _ => .error (.invalidTag "invalid length")

def decodeTagPrefix (bytes : Bytes) : Except HerdrFrameError (ℕ × ℕ) := do
  let marker ← okOr bytes.head? (.unexpectedEof 1 0)
  let width ← tagWidth marker
  let encoded ← okOr (readExact width bytes) (.unexpectedEof width bytes.length)
  let tag ← decodeCompactU32 encoded.1
  .ok (tag, width)

/-- How many octets a length takes; a length may be as wide as a `u64`. -/
def lengthWidth (marker : UInt8) : Except HerdrFrameError ℕ :=
  if marker ≤ 250 then .ok 1
  else if marker = 251 then .ok 3
  else if marker = 252 then .ok 5
  else if marker = 253 then .ok 9
  else .error (.invalidTag "invalid length varint")

/-- The number in the octets of a compact integer, in the fewest of them or not. -/
def compactValue (encoded : Bytes) : ℕ :=
  if encoded.length = 1 then ofLe encoded else ofLe encoded.tail

def Canonical (width value : ℕ) : Prop :=
  (width = 3 → 250 < value) ∧ (width = 5 → 65535 < value) ∧ (width = 9 → 2 ^ 32 - 1 < value)

instance (width value : ℕ) : Decidable (Canonical width value) :=
  inferInstanceAs (Decidable (_ ∧ _ ∧ _))

/-- `parse_varint_usize`: the length, and the offset behind it. -/
def parseVarintUsize (bytes : Bytes) (offset : ℕ) : Except HerdrFrameError (ℕ × ℕ) := do
  let marker ← okOr (bytes.drop offset).head? (.unexpectedEof (offset + 1) bytes.length)
  let width ← lengthWidth marker
  failIf (usizeMax < offset + width) (.allocation usizeMax)
  let raw ← okOr (readExact width (bytes.drop offset))
    (.unexpectedEof (offset + width) bytes.length)
  failIf (¬ Canonical width (compactValue raw.1)) (.invalidTag "non-canonical collection length")
  .ok (compactValue raw.1, offset + width)

/-! ## The payload of a clipboard image -/

/-- `validate_clipboard_image`: a tag, the extension behind its length, and the data
behind theirs. -/
def validateClipboardImage (payload : Bytes) (max : ℕ) : Except HerdrFrameError Unit := do
  let tag ← decodeTagPrefix payload
  failIf (tag.1 ≠ 2) (.invalidTag "expected ClipboardImage")
  let extensionLen ← parseVarintUsize payload tag.2
  let extensionEnd := extensionLen.2 + extensionLen.1
  failIf (usizeMax < extensionEnd) (.allocation usizeMax)
  let extension ← okOr (readExact extensionLen.1 (payload.drop extensionLen.2))
    (.unexpectedEof extensionEnd payload.length)
  failIf (fromUtf8 extension.1).isNone (.bincode "ClipboardImage extension is not UTF-8")
  let dataLen ← parseVarintUsize payload extensionEnd
  failIf (max < dataLen.1) (.clipboardImageOversized dataLen.1 max)
  failIf (usizeMax < dataLen.2 + dataLen.1) (.allocation usizeMax)
  failIf (dataLen.2 + dataLen.1 ≠ payload.length) (.bincode "malformed ClipboardImage payload")

/-! ## Frames in a buffer -/

/-- The integers of bincode's standard configuration, which are not part of this
repository. They are taken to be a function of the bytes that reads a compact integer as
`decode_compact_u32` does; what it makes of other bytes is left open. -/
structure Bincode where
  decodeU32 : Bytes → Except String (ℕ × ℕ)
  decodeU32_compact : ∀ {encoded : Bytes} {tag : ℕ} (rest : Bytes),
    decodeCompactU32 encoded = .ok tag → decodeU32 (encoded ++ rest) = .ok (tag, encoded.length)

/-- A `RawHerdrFrame`, without the permit it shares its storage with. -/
structure RawHerdrFrame where
  direction : FrameDirection
  framed : Bytes
deriving DecidableEq

def framePayload (bytes : Bytes) : Except HerdrFrameError Bytes := do
  let parts ← okOr (readExact lengthPrefixBytes bytes)
    (.unexpectedEof lengthPrefixBytes bytes.length)
  let claimed := ofLe parts.1
  failIf (maxGraphicsFrameSize < claimed) (.oversized claimed maxGraphicsFrameSize)
  let needed := lengthPrefixBytes + claimed
  failIf (bytes.length < needed) (.unexpectedEof needed bytes.length)
  failIf (needed < bytes.length)
    (.bincode ("frame contains " ++ toString (bytes.length - needed) ++ " trailing bytes"))
  .ok parts.2

def frameVariantTag (B : Bincode) (bytes : Bytes) : Except HerdrFrameError ℕ := do
  let payload ← framePayload bytes
  let decoded ← (B.decodeU32 payload).mapError .bincode
  failIf (decoded.2 = 0) (.bincode "decoded empty Herdr variant tag")
  .ok decoded.1

def validateRawFrame (B : Bincode) (bytes : Bytes) (direction : FrameDirection) :
    Except HerdrFrameError Unit := do
  let parts ← okOr (readExact lengthPrefixBytes bytes)
    (.unexpectedEof lengthPrefixBytes bytes.length)
  let claimed := ofLe parts.1
  failIf (claimed = 0) .zeroLength
  let tag ← decodeTagPrefix parts.2
  let max := framePayloadLimit direction tag.1 defaultLimits
  failIf (max < claimed) (.oversized claimed max)
  let _ ← frameVariantTag B bytes
  .ok ()

def decodeFromBytes (B : Bincode) (direction : FrameDirection) (bytes : Bytes) :
    Except HerdrFrameError RawHerdrFrame := do
  validateRawFrame B bytes direction
  .ok ⟨direction, bytes⟩

def decodeClientFromBytes (B : Bincode) := decodeFromBytes B .clientToServer

def decodeServerFromBytes (B : Bincode) := decodeFromBytes B .serverToClient

def ensureDirection (actual expected : FrameDirection) : Except HerdrFrameError Unit :=
  failIf (actual ≠ expected) (.bincode ("wrong Herdr frame direction: expected " ++
    expected.debug ++ ", got " ++ actual.debug))

def variantTag (B : Bincode) (expected : FrameDirection) (frame : RawHerdrFrame) :
    Except HerdrFrameError ℕ := do
  ensureDirection frame.direction expected
  frameVariantTag B frame.framed

def clientVariantTag (B : Bincode) := variantTag B .clientToServer

def serverVariantTag (B : Bincode) := variantTag B .serverToClient

/-! ## Frames in a stream -/

/-- What `read` answers once the bytes of a stream are through. -/
inductive StreamEnd where
  | eof
  | failed (unexpectedEof : Bool) (message : String)
deriving DecidableEq

structure Stream where
  bytes : Bytes
  ending : StreamEnd
deriving DecidableEq

def Stream.after (bytes : Bytes) (stream : Stream) : Stream :=
  { stream with bytes := bytes ++ stream.bytes }

/-- `read_exact_counted`. However the bytes arrive, they are taken until there are `n`. -/
def readExactCounted (n needed already : ℕ) (stream : Stream) :
    Except HerdrFrameError (Bytes × Stream) :=
  match readExact n stream.bytes with
  | some (dst, rest) => .ok (dst, { stream with bytes := rest })
  | none =>
    match stream.ending with
    | .failed false message => .error (.io message)
    | _ => .error (.unexpectedEof needed (already + stream.bytes.length))

structure Header where
  lenBuf : Bytes
  tagBytes : Bytes
  tag : ℕ

def Header.claimed (header : Header) : ℕ := ofLe header.lenBuf

def Header.total (header : Header) : ℕ := lengthPrefixBytes + header.claimed

def readTag (claimed : ℕ) (stream : Stream) :
    Except HerdrFrameError ((Bytes × ℕ) × Stream) := do
  let first ← readExactCounted 1 1 0 stream
  let tagLen ← tagWidth (first.1.headD 0)
  failIf (claimed < tagLen) (.unexpectedEof tagLen claimed)
  let others ← readExactCounted (tagLen - 1) tagLen 1 first.2
  let tag ← decodeCompactU32 (first.1 ++ others.1)
  .ok ((first.1 ++ others.1, tag), others.2)

/-- The first half of `read_herdr_frame`; `none` is a stream that ends before a frame. -/
def readHeader (stream : Stream) : Except HerdrFrameError (Option (Header × Stream)) :=
  match stream.bytes with
  | [] =>
    match stream.ending with
    | .eof => .ok none
    | .failed _ message => .error (.io message)
  | first :: rest => do
    let others ← readExactCounted 3 lengthPrefixBytes 1 { stream with bytes := rest }
    let lenBuf := first :: others.1
    failIf (ofLe lenBuf = 0) .zeroLength
    let tag ← readTag (ofLe lenBuf) others.2
    .ok (some (⟨lenBuf, tag.1.1, tag.1.2⟩, tag.2))

def checkHeader (direction : FrameDirection) (limits : HerdrReadLimits) (header : Header) :
    Except HerdrFrameError Unit := do
  let max := framePayloadLimit direction header.tag limits
  failIf (max < header.claimed) (.oversized header.claimed max)
  failIf (2 ^ 32 ≤ header.total) (.allocation header.total)

/-- What a call finds around it: whether the semaphore of a class grants so many permits
within the timeout, and whether there is memory for so many octets. -/
structure Surroundings where
  grants : Bool → ℕ → Bool
  reserves : ℕ → Bool

def reserve (env : Surroundings) (large : Bool) (total : ℕ) : Except HerdrFrameError Unit := do
  failIf (env.grants large total = false) (.slowConsumer total)
  failIf (env.reserves total = false) (.allocation total)

/-- The clipboard check, which only client frames with the tag of an image meet. -/
def checkClipboard (direction : FrameDirection) (limits : HerdrReadLimits) (tag : ℕ)
    (payload : Bytes) : Except HerdrFrameError Unit :=
  if direction = .clientToServer ∧ tag = 2 then
    validateClipboardImage payload limits.clipboardImageData
  else .ok ()

/-- The second half of `read_herdr_frame`, with the buffer allocated. -/
def readBody (direction : FrameDirection) (limits : HerdrReadLimits) (header : Header)
    (stream : Stream) : Except HerdrFrameError (RawHerdrFrame × Stream) := do
  let body ← readExactCounted (header.claimed - header.tagBytes.length) header.claimed
    header.tagBytes.length stream
  checkClipboard direction limits header.tag (header.tagBytes ++ body.1)
  .ok (⟨direction, header.lenBuf ++ (header.tagBytes ++ body.1)⟩, body.2)

/-- The rest of `read_herdr_frame` behind a header. -/
def readRest (direction : FrameDirection) (env : Surroundings) (limits : HerdrReadLimits)
    (header : Header) (stream : Stream) : Except HerdrFrameError (RawHerdrFrame × Stream) := do
  checkHeader direction limits header
  reserve env (isLargeFrame direction header.tag) header.total
  readBody direction limits header stream

def readHerdrFrame (direction : FrameDirection) (env : Surroundings) (limits : HerdrReadLimits)
    (stream : Stream) : Except HerdrFrameError (Option (RawHerdrFrame × Stream)) := do
  let header ← readHeader stream
  match header with
  | none => .ok none
  | some (header, stream) => (readRest direction env limits header stream).map some

/-! ## What a frame is -/

/-- A length, a tag in the fewest octets, and as much as the length says, within the
limit of its class. -/
structure Framed (direction : FrameDirection) (limits : HerdrReadLimits)
    (lenBuf tagBytes body : Bytes) (tag : ℕ) : Prop where
  lenBuf_length : lenBuf.length = lengthPrefixBytes
  tag_eq : decodeCompactU32 tagBytes = .ok tag
  claimed_eq : ofLe lenBuf = tagBytes.length + body.length
  claimed_le : ofLe lenBuf ≤ framePayloadLimit direction tag limits

variable {direction : FrameDirection} {tag : ℕ} {body lenBuf tagBytes bytes : Bytes}
  {limits : HerdrReadLimits}

theorem framed_of_parts (hlength : lenBuf.length = lengthPrefixBytes)
    (hle : tagBytes.length ≤ ofLe lenBuf) (htag : decodeCompactU32 tagBytes = .ok tag)
    (hlimit : ofLe lenBuf ≤ framePayloadLimit direction tag limits)
    (hbody : body.length = ofLe lenBuf - tagBytes.length) :
    Framed direction limits lenBuf tagBytes body tag := by
  refine ⟨hlength, htag, ?_, hlimit⟩
  rw [hbody, Nat.add_sub_cancel' hle]

theorem Framed.length_eq (h : Framed direction limits lenBuf tagBytes body tag) :
    (lenBuf ++ (tagBytes ++ body)).length = lengthPrefixBytes + ofLe lenBuf := by
  rw [length_append, length_append, ← h.claimed_eq, h.lenBuf_length]

def IsFrame (direction : FrameDirection) (limits : HerdrReadLimits) (framed : Bytes)
    (tag : ℕ) : Prop :=
  ∃ lenBuf tagBytes body, framed = lenBuf ++ (tagBytes ++ body) ∧
    Framed direction limits lenBuf tagBytes body tag

section Tags

variable {encoded bytes rest : Bytes} {tag width : ℕ}

theorem decodeCompactU32_width (h : decodeCompactU32 encoded = .ok tag) :
    ∃ marker others, encoded = marker :: others ∧ tagWidth marker = .ok encoded.length ∧
      tag = compactValue encoded := by
  unfold decodeCompactU32 at h
  split at h
  · next value =>
      split_ifs at h with hle
      cases h
      exact ⟨value, [], rfl, by rw [tagWidth, if_pos hle]; rfl, (Nat.add_zero _).symm⟩
  · next marker lo hi =>
      split_ifs at h with hmarker hcanonical
      cases h
      subst hmarker
      exact ⟨251, [lo, hi], rfl, rfl, rfl⟩
  · next marker a b c d =>
      split_ifs at h with hmarker hcanonical
      cases h
      subst hmarker
      exact ⟨252, [a, b, c, d], rfl, rfl, rfl⟩
  · cases h

theorem tagWidth_pos {marker : UInt8} (h : tagWidth marker = .ok width) : 0 < width := by
  unfold tagWidth at h
  split_ifs at h
  · cases h; decide
  · cases h; decide
  · cases h; decide

theorem length_pos_of_tag (h : decodeCompactU32 encoded = .ok tag) : 0 < encoded.length := by
  obtain ⟨marker, others, rfl, -, -⟩ := decodeCompactU32_width h
  exact Nat.succ_pos _

theorem decodeTagPrefix_eq_ok :
    decodeTagPrefix bytes = .ok (tag, width) ↔
      ∃ encoded rest, bytes = encoded ++ rest ∧ encoded.length = width ∧
        decodeCompactU32 encoded = .ok tag := by
  simp only [decodeTagPrefix, bind_eq_ok, okOr_eq_ok, Prod.exists, readExact_eq_some]
  constructor
  · rintro ⟨marker, -, w, -, encoded, rest, ⟨rfl, hlength⟩, t, htag, h⟩
    cases h
    exact ⟨encoded, rest, rfl, hlength, htag⟩
  · rintro ⟨encoded, rest, rfl, rfl, htag⟩
    obtain ⟨marker, others, rfl, hwidth, -⟩ := decodeCompactU32_width htag
    exact ⟨marker, rfl, _, hwidth, _, rest, ⟨rfl, rfl⟩, tag, htag, rfl⟩

end Tags

/-! ## The decoders -/

section Decoders

variable {B : Bincode} {direction : FrameDirection} {bytes payload : Bytes} {tag : ℕ}

theorem framePayload_eq_ok :
    framePayload bytes = .ok payload ↔
      ∃ lenBuf, bytes = lenBuf ++ payload ∧ lenBuf.length = lengthPrefixBytes ∧
        ofLe lenBuf = payload.length ∧ ofLe lenBuf ≤ maxGraphicsFrameSize := by
  simp only [framePayload, bind_eq_ok, okOr_eq_ok, Prod.exists, readExact_eq_some,
    exists_const, failIf_eq_ok, Except.ok.injEq]
  constructor
  · rintro ⟨lenBuf, rest, ⟨rfl, hlength⟩, hle, hshort, hlong, rfl⟩
    rw [length_append] at hshort hlong
    exact ⟨lenBuf, rfl, hlength, by omega, by omega⟩
  · rintro ⟨lenBuf, rfl, hlength, hclaimed, hle⟩
    rw [length_append]
    exact ⟨lenBuf, payload, ⟨rfl, hlength⟩, by omega, by omega, by omega, rfl⟩

theorem framePayloadLimit_default_le (direction : FrameDirection) (tag : ℕ) :
    framePayloadLimit direction tag defaultLimits ≤ maxGraphicsFrameSize := by
  unfold framePayloadLimit
  split_ifs
  · exact Nat.le_refl _
  · show maxFrameSize ≤ maxGraphicsFrameSize
    decide

theorem frameVariantTag_of_isFrame (h : IsFrame direction defaultLimits bytes tag) :
    frameVariantTag B bytes = .ok tag := by
  obtain ⟨lenBuf, tagBytes, body, rfl, hframed⟩ := h
  have hpayload : framePayload (lenBuf ++ (tagBytes ++ body)) = .ok (tagBytes ++ body) := by
    apply framePayload_eq_ok.mpr
    refine ⟨lenBuf, rfl, hframed.lenBuf_length, ?_, ?_⟩
    · rw [hframed.claimed_eq, length_append]
    · exact Nat.le_trans hframed.claimed_le (framePayloadLimit_default_le direction tag)
  have hpos : ¬ tagBytes.length = 0 := Nat.pos_iff_ne_zero.mp (length_pos_of_tag hframed.tag_eq)
  simp only [frameVariantTag, bind_eq_ok, mapError_eq_ok, exists_const, failIf_eq_ok]
  exact ⟨_, hpayload, _, B.decodeU32_compact body hframed.tag_eq, hpos, rfl⟩

theorem validateRawFrame_eq_ok :
    validateRawFrame B bytes direction = .ok () ↔ ∃ tag, IsFrame direction defaultLimits bytes tag := by
  constructor
  · intro h
    simp only [validateRawFrame, bind_eq_ok, okOr_eq_ok, Prod.exists, readExact_eq_some,
      exists_const, failIf_eq_ok] at h
    obtain ⟨lenBuf, payload, ⟨rfl, hlength⟩, -, tag, width, htag, hle, variant, hvariant, -⟩ := h
    obtain ⟨other, hpayload, -⟩ := bind_eq_ok.mp hvariant
    obtain ⟨lenBuf', heq, hlength', hclaimed, -⟩ := framePayload_eq_ok.mp hpayload
    -- both cut the buffer behind the length
    obtain ⟨rfl, rfl⟩ := append_inj heq (hlength.trans hlength'.symm)
    obtain ⟨tagBytes, body, rfl, -, htag⟩ := decodeTagPrefix_eq_ok.mp htag
    rw [length_append] at hclaimed
    exact ⟨tag, lenBuf, tagBytes, body, rfl, hlength, htag, hclaimed, Nat.not_lt.mp hle⟩
  · rintro ⟨tag, hframe⟩
    have hvariant := frameVariantTag_of_isFrame (B := B) hframe
    obtain ⟨lenBuf, tagBytes, body, rfl, hframed⟩ := hframe
    have hpos := length_pos_of_tag hframed.tag_eq
    have hclaimed := hframed.claimed_eq
    simp only [validateRawFrame, bind_eq_ok, okOr_eq_ok, Prod.exists, readExact_eq_some,
      exists_const, failIf_eq_ok]
    refine ⟨lenBuf, tagBytes ++ body, ⟨rfl, hframed.lenBuf_length⟩, by omega, tag,
      tagBytes.length, ?_, Nat.not_lt.mpr hframed.claimed_le, tag, hvariant, trivial⟩
    exact decodeTagPrefix_eq_ok.mpr ⟨tagBytes, body, rfl, rfl, hframed.tag_eq⟩

theorem decodeFromBytes_eq_ok {frame : RawHerdrFrame} :
    decodeFromBytes B direction bytes = .ok frame ↔
      frame = ⟨direction, bytes⟩ ∧ ∃ tag, IsFrame direction defaultLimits bytes tag := by
  simp only [decodeFromBytes, bind_eq_ok, exists_unit_ok, validateRawFrame_eq_ok, Except.ok.injEq]
  rw [and_comm, eq_comm]

theorem variantTag_of_isFrame (h : IsFrame direction defaultLimits bytes tag) :
    variantTag B direction ⟨direction, bytes⟩ = .ok tag := by
  simp only [variantTag, ensureDirection, bind_eq_ok, exists_const, failIf_eq_ok, not_not]
  exact ⟨trivial, frameVariantTag_of_isFrame h⟩

end Decoders

/-! ## The reader -/

section Reader

variable {direction : FrameDirection} {env : Surroundings} {limits : HerdrReadLimits}
  {stream rest : Stream}

theorem readExactCounted_eq_ok {n needed already : ℕ} {dst : Bytes} :
    readExactCounted n needed already stream = .ok (dst, rest) ↔
      stream = rest.after dst ∧ dst.length = n := by
  obtain ⟨bytes, ending⟩ := stream
  obtain ⟨left, ending'⟩ := rest
  unfold readExactCounted Stream.after
  constructor
  · intro h
    split at h
    · next hread =>
        obtain ⟨rfl, hlength⟩ := readExact_eq_some.mp hread
        cases h
        exact ⟨rfl, hlength⟩
    · split at h
      · cases h
      · cases h
  · rintro ⟨h, hlength⟩
    cases h
    simp [readExact_append hlength]

theorem after_after (a b : Bytes) (stream : Stream) :
    (stream.after b).after a = stream.after (a ++ b) := by
  simp [Stream.after]

theorem readTag_eq_ok {claimed : ℕ} {tagBytes : Bytes} :
    readTag claimed stream = .ok ((tagBytes, tag), rest) ↔
      stream = rest.after tagBytes ∧ tagBytes.length ≤ claimed ∧
        decodeCompactU32 tagBytes = .ok tag := by
  simp only [readTag, bind_eq_ok, Prod.exists, readExactCounted_eq_ok, exists_const,
    failIf_eq_ok, Except.ok.injEq, Prod.mk.injEq]
  constructor
  · rintro ⟨first, mid, ⟨rfl, hfirst⟩, width, hwidth, hle, others, last, ⟨rfl, hothers⟩, t,
      htag, ⟨rfl, rfl⟩, rfl⟩
    refine ⟨after_after _ _ _, ?_, htag⟩
    have hpos := tagWidth_pos hwidth
    rw [length_append]
    omega
  · rintro ⟨rfl, hle, htag⟩
    obtain ⟨marker, others, rfl, hwidth, -⟩ := decodeCompactU32_width htag
    exact ⟨[marker], rest.after others, ⟨(after_after [marker] others rest).symm, rfl⟩, _, hwidth,
      Nat.not_lt.mpr hle, others, rest, ⟨rfl, rfl⟩, tag, htag, ⟨rfl, rfl⟩, rfl⟩

variable {header : Header}

theorem readHeader_eq_ok :
    readHeader stream = .ok (some (header, rest)) ↔
      stream = rest.after (header.lenBuf ++ header.tagBytes) ∧
        header.lenBuf.length = lengthPrefixBytes ∧ header.tagBytes.length ≤ header.claimed ∧
        decodeCompactU32 header.tagBytes = .ok header.tag := by
  obtain ⟨bytes, ending⟩ := stream
  obtain ⟨lenBuf, tagBytes, tag⟩ := header
  cases bytes with
  | nil =>
    constructor
    · intro h
      cases ending with
      | eof | failed => cases h
    · rintro ⟨h, hlength, -⟩
      -- an empty stream has no room for the length
      have hempty := congrArg (fun s => s.bytes.length) h
      simp only [Stream.after, length_append, length_nil] at hempty hlength
      exact absurd hlength (by rw [lengthPrefixBytes]; omega)
  | cons first bytes =>
    simp only [readHeader, bind_eq_ok, Prod.exists, readExactCounted_eq_ok, exists_const,
      failIf_eq_ok, readTag_eq_ok, Except.ok.injEq, Option.some.injEq, Prod.mk.injEq,
      Header.mk.injEq, Header.claimed]
    constructor
    · rintro ⟨others, mid, ⟨hmid, hothers⟩, -, tagBytes, tag, last, ⟨rfl, hle, htag⟩,
        ⟨rfl, rfl, rfl⟩, rfl⟩
      rw [after_after] at hmid
      cases hmid
      exact ⟨rfl, congrArg (· + 1) hothers, hle, htag⟩
    · rintro ⟨h, hlength, hle, htag⟩
      obtain ⟨first', others, rfl⟩ := exists_cons_of_length_eq_add_one hlength
      cases h
      have hpos := length_pos_of_tag htag
      refine ⟨others, rest.after tagBytes, ⟨?_, Nat.succ.inj hlength⟩, by omega, tagBytes, tag,
        rest, ⟨rfl, hle, htag⟩, ⟨rfl, rfl, rfl⟩, rfl⟩
      rw [after_after]
      rfl

theorem checkHeader_eq_ok :
    checkHeader direction limits header = .ok () ↔
      header.claimed ≤ framePayloadLimit direction header.tag limits ∧ header.total < 2 ^ 32 := by
  simp [checkHeader, bind_eq_ok, failIf_eq_ok]

theorem reserve_eq_ok {large : Bool} {total : ℕ} :
    reserve env large total = .ok () ↔ env.grants large total ∧ env.reserves total := by
  simp [reserve, bind_eq_ok, failIf_eq_ok]

variable {frame : RawHerdrFrame}

theorem readBody_eq_ok :
    readBody direction limits header stream = .ok (frame, rest) ↔
      ∃ body, stream = rest.after body ∧
        body.length = header.claimed - header.tagBytes.length ∧
        checkClipboard direction limits header.tag (header.tagBytes ++ body) = .ok () ∧
        frame = ⟨direction, header.lenBuf ++ (header.tagBytes ++ body)⟩ := by
  simp only [readBody, bind_eq_ok, Prod.exists, readExactCounted_eq_ok, exists_unit_ok,
    Except.ok.injEq, Prod.mk.injEq]
  constructor
  · rintro ⟨body, last, ⟨rfl, hlength⟩, hclipboard, rfl, rfl⟩
    exact ⟨body, rfl, hlength, hclipboard, rfl⟩
  · rintro ⟨body, rfl, hlength, hclipboard, rfl⟩
    exact ⟨body, rest, ⟨rfl, hlength⟩, hclipboard, rfl, rfl⟩

theorem readHerdrFrame_of_header (h : readHeader stream = .ok (some (header, rest))) :
    readHerdrFrame direction env limits stream =
      (readRest direction env limits header rest).map some := by
  rw [readHerdrFrame, h]
  rfl

theorem readHerdrFrame_eq_some :
    readHerdrFrame direction env limits stream = .ok (some (frame, rest)) ↔
      ∃ header mid, readHeader stream = .ok (some (header, mid)) ∧
        checkHeader direction limits header = .ok () ∧
        reserve env (isLargeFrame direction header.tag) header.total = .ok () ∧
        readBody direction limits header mid = .ok (frame, rest) := by
  have hrest : ∀ header mid, readRest direction env limits header mid = .ok (frame, rest) ↔
      checkHeader direction limits header = .ok () ∧
        reserve env (isLargeFrame direction header.tag) header.total = .ok () ∧
        readBody direction limits header mid = .ok (frame, rest) := by
    intro header mid
    simp only [readRest, bind_eq_ok, exists_unit_ok]
  constructor
  · intro h
    obtain ⟨header, hheader, hframe⟩ := bind_eq_ok.mp h
    rcases header with _ | ⟨header, mid⟩
    · cases hframe
    · refine ⟨header, mid, hheader, (hrest header mid).mp ?_⟩
      rw [readHerdrFrame_of_header hheader] at h
      cases hread : readRest direction env limits header mid with
      | error e =>
        rw [hread] at h
        cases h
      | ok result =>
        rw [hread] at h
        cases h
        rfl
  · rintro ⟨header, mid, hheader, hchecked⟩
    rw [readHerdrFrame_of_header hheader, (hrest header mid).mpr hchecked]
    rfl

end Reader

/-- **The two languages.** The reader returns what `IsFrame` allows and what is granted
to it, and leaves the stream right behind it. -/
theorem readHerdrFrame_eq_ok {env : Surroundings} {stream rest : Stream} {frame : RawHerdrFrame} :
    readHerdrFrame direction env defaultLimits stream = .ok (some (frame, rest)) ↔
      frame.direction = direction ∧ stream = rest.after frame.framed ∧
        ∃ tag, IsFrame direction defaultLimits frame.framed tag ∧
          env.grants (isLargeFrame direction tag) frame.framed.length ∧
          env.reserves frame.framed.length ∧
          checkClipboard direction defaultLimits tag (frame.framed.drop lengthPrefixBytes) = .ok () := by
  simp only [readHerdrFrame_eq_some, readHeader_eq_ok, checkHeader_eq_ok, reserve_eq_ok,
    readBody_eq_ok]
  constructor
  · rintro ⟨header, mid, ⟨rfl, hlength, hle, htag⟩, ⟨hlimit, -⟩, ⟨hgrants, hreserves⟩, body,
      rfl, hbody, hclipboard, rfl⟩
    have hframed : Framed direction defaultLimits header.lenBuf header.tagBytes body header.tag :=
      framed_of_parts hlength hle htag hlimit hbody
    have htotal : (header.lenBuf ++ (header.tagBytes ++ body)).length = header.total :=
      hframed.length_eq
    refine ⟨rfl, ?_, header.tag, ⟨_, _, _, rfl, hframed⟩, ?_, ?_, ?_⟩
    · rw [after_after, append_assoc]
    · rwa [htotal]
    · rwa [htotal]
    · rwa [drop_left' hlength]
  · obtain ⟨direction', framed⟩ := frame
    rintro ⟨rfl, rfl, tag, ⟨lenBuf, tagBytes, body, rfl, hframed⟩, hgrants, hreserves, hclipboard⟩
    have hbound : ofLe lenBuf ≤ maxGraphicsFrameSize :=
      Nat.le_trans hframed.claimed_le (framePayloadLimit_default_le _ _)
    have hclaimed := hframed.claimed_eq
    rw [hframed.length_eq] at hgrants hreserves
    rw [drop_left' hframed.lenBuf_length] at hclipboard
    refine ⟨⟨lenBuf, tagBytes, tag⟩, rest.after body, ⟨?_, hframed.lenBuf_length, ?_,
      hframed.tag_eq⟩, ⟨hframed.claimed_le, ?_⟩, ⟨hgrants, hreserves⟩, body, rfl, ?_, hclipboard,
      rfl⟩
    · rw [after_after, append_assoc]
    · show tagBytes.length ≤ ofLe lenBuf
      omega
    · show lengthPrefixBytes + ofLe lenBuf < 2 ^ 32
      simp only [maxGraphicsFrameSize, lengthPrefixBytes] at hbound ⊢
      omega
    · show body.length = ofLe lenBuf - tagBytes.length
      omega

theorem IsFrame.tag_unique (B : Bincode) {tag' : ℕ} (h : IsFrame direction defaultLimits bytes tag)
    (h' : IsFrame direction defaultLimits bytes tag') : tag = tag' := by
  have htag : frameVariantTag B bytes = .ok tag := frameVariantTag_of_isFrame h
  rw [frameVariantTag_of_isFrame h'] at htag
  exact (Except.ok.inj htag).symm

/-- A reader and the decoders of its direction agree. A frame that is read is what was
taken from the stream, whatever stands behind it, it is within the limit of its class, and
the decoder takes the same bytes and finds the tag that the reader went by. A buffer that
the decoder takes is read from a stream exactly where the budget and the memory for it are
there and the clipboard check, if it is an image of a client, succeeds. -/
structure ReadsAs (direction : FrameDirection) (env : Surroundings)
    (decode : Bytes → Except HerdrFrameError RawHerdrFrame)
    (tagOf : RawHerdrFrame → Except HerdrFrameError ℕ) : Prop where
  read : ∀ stream rest frame,
    readHerdrFrame direction env defaultLimits stream = .ok (some (frame, rest)) →
      stream = rest.after frame.framed ∧
      (∀ other : Stream, readHerdrFrame direction env defaultLimits (other.after frame.framed) =
        .ok (some (frame, other))) ∧
      ∃ header mid, readHeader stream = .ok (some (header, mid)) ∧
        frame.framed.length = lengthPrefixBytes + header.claimed ∧
        header.claimed ≤ framePayloadLimit direction header.tag defaultLimits ∧
        decode frame.framed = .ok frame ∧ tagOf frame = .ok header.tag
  decoded : ∀ bytes frame, decode bytes = .ok frame →
    ∃ tag, tagOf frame = .ok tag ∧
      ∀ rest : Stream,
        readHerdrFrame direction env defaultLimits (rest.after bytes) = .ok (some (frame, rest)) ↔
          env.grants (isLargeFrame direction tag) bytes.length ∧ env.reserves bytes.length ∧
            checkClipboard direction defaultLimits tag (bytes.drop lengthPrefixBytes) = .ok ()

theorem readsAs_decodeFromBytes (B : Bincode) (direction : FrameDirection) (env : Surroundings) :
    ReadsAs direction env (decodeFromBytes B direction) (variantTag B direction) := by
  constructor
  · intro stream rest frame h
    obtain ⟨hdirection, hstream, granted⟩ := readHerdrFrame_eq_ok.mp h
    refine ⟨hstream, fun other => readHerdrFrame_eq_ok.mpr ⟨hdirection, rfl, granted⟩, ?_⟩
    obtain ⟨header, mid, hheader, hchecked, -, hread⟩ := readHerdrFrame_eq_some.mp h
    obtain ⟨-, hlength, hle, htag⟩ := readHeader_eq_ok.mp hheader
    obtain ⟨hlimit, -⟩ := checkHeader_eq_ok.mp hchecked
    obtain ⟨body, -, hbody, -, rfl⟩ := readBody_eq_ok.mp hread
    have hframed : Framed direction defaultLimits header.lenBuf header.tagBytes body header.tag :=
      framed_of_parts hlength hle htag hlimit hbody
    have hframe : IsFrame direction defaultLimits
        (header.lenBuf ++ (header.tagBytes ++ body)) header.tag := ⟨_, _, _, rfl, hframed⟩
    exact ⟨header, mid, hheader, hframed.length_eq, hlimit,
      decodeFromBytes_eq_ok.mpr ⟨rfl, _, hframe⟩, variantTag_of_isFrame hframe⟩
  · intro bytes frame h
    obtain ⟨rfl, tag, hframe⟩ := decodeFromBytes_eq_ok.mp h
    refine ⟨tag, variantTag_of_isFrame hframe, fun rest => ?_⟩
    rw [readHerdrFrame_eq_ok]
    constructor
    · rintro ⟨-, -, tag', hframe', hgranted⟩
      rw [hframe.tag_unique B hframe']
      exact hgranted
    · intro hgranted
      exact ⟨rfl, rfl, tag, hframe, hgranted⟩

/-- **The reader and the decoders agree**, in both directions. -/
theorem herdrFrames_faithful (B : Bincode) (env : Surroundings) :
    ReadsAs .clientToServer env (decodeClientFromBytes B) (clientVariantTag B) ∧
    ReadsAs .serverToClient env (decodeServerFromBytes B) (serverVariantTag B) :=
  ⟨readsAs_decodeFromBytes B _ env, readsAs_decodeFromBytes B _ env⟩

/-- Bincode's own reading of a `u32`, which does not ask for the fewest octets. -/
def standardDecodeU32 (payload : Bytes) : Except String (ℕ × ℕ) := do
  let marker ← okOr payload.head? "UnexpectedEnd"
  let width ← (tagWidth marker).mapError fun _ => "InvalidIntegerType"
  let encoded ← okOr (readExact width payload) "UnexpectedEnd"
  .ok (compactValue encoded.1, width)

def standardBincode : Bincode where
  decodeU32 := standardDecodeU32
  decodeU32_compact := by
    intro encoded tag rest h
    obtain ⟨marker, others, rfl, hwidth, rfl⟩ := decodeCompactU32_width h
    simp only [standardDecodeU32, bind_eq_ok, okOr_eq_ok, mapError_eq_ok, Prod.exists,
      readExact_eq_some]
    exact ⟨marker, rfl, _, hwidth, _, rest, ⟨rfl, rfl⟩, rfl⟩

/-- A message of a client under a tag of three octets, with a body, and another frame
behind it. -/
theorem message_faithful :
    readHerdrFrame .clientToServer ⟨fun _ _ => true, fun _ => true⟩ defaultLimits
        ⟨[5, 0, 0, 0, 251, 44, 1, 7, 8, 9, 9], .eof⟩ =
      .ok (some (⟨.clientToServer, [5, 0, 0, 0, 251, 44, 1, 7, 8]⟩, ⟨[9, 9], .eof⟩)) ∧
    decodeClientFromBytes standardBincode [5, 0, 0, 0, 251, 44, 1, 7, 8] =
      .ok ⟨.clientToServer, [5, 0, 0, 0, 251, 44, 1, 7, 8]⟩ ∧
    clientVariantTag standardBincode
      ⟨.clientToServer, [5, 0, 0, 0, 251, 44, 1, 7, 8]⟩ = .ok 300 := by
  have hread : readHerdrFrame .clientToServer ⟨fun _ _ => true, fun _ => true⟩ defaultLimits
      ⟨[5, 0, 0, 0, 251, 44, 1, 7, 8, 9, 9], .eof⟩ =
      .ok (some (⟨.clientToServer, [5, 0, 0, 0, 251, 44, 1, 7, 8]⟩, ⟨[9, 9], .eof⟩)) := by decide
  obtain ⟨-, -, header, mid, hheader, -, -, hdecode, htag⟩ :=
    (herdrFrames_faithful standardBincode _).1.read _ _ _ hread
  cases hheader
  exact ⟨hread, hdecode, htag⟩

/-- Where the budget is used up, or the memory, a good frame is not read. -/
theorem hello_refused :
    decodeClientFromBytes standardBincode [1, 0, 0, 0, 0] =
      .ok ⟨.clientToServer, [1, 0, 0, 0, 0]⟩ ∧
    readHerdrFrame .clientToServer ⟨fun _ _ => false, fun _ => true⟩ defaultLimits
        ⟨[1, 0, 0, 0, 0], .eof⟩ = .error (.slowConsumer 5) ∧
    readHerdrFrame .clientToServer ⟨fun _ _ => true, fun _ => false⟩ defaultLimits
        ⟨[1, 0, 0, 0, 0], .eof⟩ = .error (.allocation 5) := by
  decide

end HerdrWire

end Portl

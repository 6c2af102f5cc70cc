import Mathlib.Data.List.TakeWhile
import Portl.Terminal.CsiRuns

/-!
# The replay sanitizer

`sanitize_terminal_replay` of `session_handler/ghostty.rs`: what a session wrote is
cleaned before it is replayed to a client that attaches. Control bytes, strings and
escape sequences go; text and the sequences that set colours stay.

The scan cuts its input into parts (`replayParts`), each of which is shown or dropped
as a whole. The scan for the final byte of a CSI sequence passes over every byte below
`@`, controls among them, and over the C1 range.
-/

namespace Portl

open List

/-! ## The functions -/

/-- Between `ESC [` and the final byte of a `private` sequence. -/
def isPrivateMark (byte : UInt8) : Bool :=
  byte == 0x3f || byte == 0x3e || byte == 0x21 || byte == 0x20

/-- The loop of `sanitize_escape_csi`: `seen` are the bytes after `ESC [` it has passed
over. What it puts out, and what it leaves. -/
def sanitizeCsiFrom (isPrivate : Bool) (seen : Bytes) : Bytes → Bytes × Bytes
  | [] => ([], [])
  | byte :: rest =>
    if 0x80 ≤ byte && byte ≤ 0x9f then sanitizeCsiFrom isPrivate (seen ++ [byte]) rest
    else if 0x80 ≤ byte then ([], byte :: rest)
    else if isCsiFinal byte then
      (if byte = 0x6d && !isPrivate then esc :: 0x5b :: (seen ++ [byte]) else [], rest)
    else sanitizeCsiFrom isPrivate (seen ++ [byte]) rest

/-- `sanitize_escape_csi`, on what follows `ESC [`. -/
def sanitizeEscapeCsi (tail : Bytes) : Bytes × Bytes :=
  sanitizeCsiFrom (tail.head?.any isPrivateMark) [] tail

def skipReplayString : Bytes → Bytes
  | [] => []
  | byte :: rest =>
    if byte = 0x07 then rest
    else if byte = esc ∧ rest.head? = some 0x5c then rest.tail
    else skipReplayString rest

def isIntermediate (byte : UInt8) : Bool := 0x20 ≤ byte && byte ≤ 0x2f

/-- `sanitize_plain_escape`, on what follows the `ESC`. -/
def sanitizePlainEscape : Bytes → Bytes
  | [] => []
  | byte :: rest =>
    if isIntermediate byte then
      match rest.dropWhile isIntermediate with
      | [] => []
      | final :: after => if 0x30 ≤ final && final ≤ 0x7e then after else final :: after
    else rest

def startsReplayString (byte : UInt8) : Bool :=
  byte == 0x5d || byte == 0x50 || byte == 0x5e || byte == 0x5f

def isReplayText (byte : UInt8) : Bool :=
  !(byte < 0x20 && !(byte == 0x0a || byte == 0x0d || byte == 0x09))

/-- The loop of `sanitize_terminal_replay`, on the bytes from `index` on. Each round
takes at least one of them. -/
def sanitizeReplayLoop : ℕ → Bytes → Bytes
  | 0, _ => []
  | _ + 1, [] => []
  | fuel + 1, byte :: rest =>
    if byte = esc then
      match rest with
      | [] => sanitizeReplayLoop fuel (sanitizePlainEscape rest)
      | second :: tail =>
        if second = 0x5b then
          (sanitizeEscapeCsi tail).1 ++ sanitizeReplayLoop fuel (sanitizeEscapeCsi tail).2
        else if startsReplayString second then sanitizeReplayLoop fuel (skipReplayString tail)
        else sanitizeReplayLoop fuel (sanitizePlainEscape rest)
    else if isReplayText byte then byte :: sanitizeReplayLoop fuel rest
    else sanitizeReplayLoop fuel rest

def sanitizeTerminalReplay (bytes : Bytes) : Bytes := sanitizeReplayLoop bytes.length bytes

/-! ## What may be replayed -/

/-- Text, line feeds, carriage returns, tabs, and colour sequences with numeric
parameters. -/
inductive SafeReplay : Bytes → Prop where
  | nil : SafeReplay []
  | byte {byte : UInt8} {rest : Bytes}
      (h : 0x20 ≤ byte ∨ byte = 0x0a ∨ byte = 0x0d ∨ byte = 0x09) (hrest : SafeReplay rest) :
      SafeReplay (byte :: rest)
  | sgr {params rest : Bytes} (h : ∀ byte ∈ params, isNumeric byte = true)
      (hrest : SafeReplay rest) : SafeReplay (esc :: 0x5b :: (params ++ 0x6d :: rest))

/-! ## The parts of the input -/

inductive ReplayPart where
  | byte (byte : UInt8)
  | csi (params : Bytes) (final : UInt8)
  /-- `ESC [` without a final byte: the input ends, or a byte from `A0` on follows. -/
  | openCsi (params : Bytes)
  /-- An escape sequence or string of another kind, after its `ESC`. -/
  | escape (body : Bytes)
deriving DecidableEq

def passesCsi (byte : UInt8) : Bool := byte < 0x40 || (0x7f ≤ byte && byte ≤ 0x9f)

def nextReplayPart : Bytes → Option (ReplayPart × Bytes)
  | [] => none
  | byte :: rest =>
    if byte = esc then
      match rest with
      | [] => some (.escape [], [])
      | second :: tail =>
        if second = 0x5b then
          match tail.dropWhile passesCsi with
          | [] => some (.openCsi (tail.takeWhile passesCsi), [])
          | final :: after =>
            if isCsiFinal final then some (.csi (tail.takeWhile passesCsi) final, after)
            else some (.openCsi (tail.takeWhile passesCsi), final :: after)
        else
          let left := if startsReplayString second then skipReplayString tail
            else sanitizePlainEscape rest
          some (.escape (rest.take (rest.length - left.length)), left)
    else some (.byte byte, rest)

def replayPartsLoop : ℕ → Bytes → List ReplayPart
  | 0, _ => []
  | fuel + 1, input =>
    match nextReplayPart input with
    | none => []
    | some (part, rest) => part :: replayPartsLoop fuel rest

def replayParts (bytes : Bytes) : List ReplayPart := replayPartsLoop bytes.length bytes

namespace ReplayPart

def source : ReplayPart → Bytes
  | byte b => [b]
  | csi params final => esc :: 0x5b :: (params ++ [final])
  | openCsi params => esc :: 0x5b :: params
  | escape body => esc :: body

def shown : ReplayPart → Bytes
  | byte b => if isReplayText b then [b] else []
  | csi params final =>
    if final = 0x6d && !params.head?.any isPrivateMark then esc :: 0x5b :: (params ++ [final])
    else []
  | openCsi _ => []
  | escape _ => []

def Clean : ReplayPart → Prop
  | csi params final =>
    final = 0x6d → params.head?.any isPrivateMark = false → ∀ b ∈ params, isNumeric b = true
  | _ => True

def Scanned : ReplayPart → Prop
  | byte b => b ≠ esc
  | csi params _ => ∀ b ∈ params, passesCsi b = true
  | _ => True

end ReplayPart

/-! ## The scan -/

variable {tail rest input : Bytes} {part : ReplayPart} {byte : UInt8}

theorem sanitizeCsiFrom_pass (h : passesCsi byte = true) (isPrivate : Bool) (seen : Bytes) :
    sanitizeCsiFrom isPrivate seen (byte :: rest) =
      sanitizeCsiFrom isPrivate (seen ++ [byte]) rest := by
  have hstays : (0x80 ≤ byte ∧ byte ≤ 0x9f) ∨ (¬ 0x80 ≤ byte ∧ isCsiFinal byte = false) := by
    unfold passesCsi at h
    unfold isCsiFinal
    grind
  rw [sanitizeCsiFrom]
  rcases hstays with ⟨hlow, hhigh⟩ | ⟨hlow, hfinal⟩
  · rw [if_pos (by simp [hlow, hhigh])]
  · rw [if_neg (by simp [hlow]), if_neg hlow, hfinal, if_neg Bool.false_ne_true]

theorem sanitizeCsiFrom_stop (h : passesCsi byte = false) (isPrivate : Bool) (seen : Bytes) :
    sanitizeCsiFrom isPrivate seen (byte :: rest) =
      if isCsiFinal byte then
        (if byte = 0x6d && !isPrivate then esc :: 0x5b :: (seen ++ [byte]) else [], rest)
      else ([], byte :: rest) := by
  have hends : (0x80 ≤ byte ∧ ¬ byte ≤ 0x9f ∧ isCsiFinal byte = false) ∨ ¬ 0x80 ≤ byte ∧
      isCsiFinal byte = true := by
    simp only [passesCsi, isCsiFinal, Bool.or_eq_false_iff, Bool.and_eq_false_iff,
      Bool.and_eq_true, decide_eq_true_eq, decide_eq_false_iff_not] at h ⊢
    grind
  rw [sanitizeCsiFrom]
  rcases hends with ⟨hlow, hhigh, hfinal⟩ | ⟨hlow, hfinal⟩
  · rw [if_neg (by simp [hhigh]), if_pos hlow, hfinal, if_neg Bool.false_ne_true]
  · rw [if_neg (by simp [hlow]), if_neg hlow, hfinal, if_pos rfl, if_pos rfl]

theorem sanitizeCsiFrom_eq (isPrivate : Bool) (seen tail : Bytes) :
    sanitizeCsiFrom isPrivate seen tail =
      match tail.dropWhile passesCsi with
      | [] => ([], [])
      | final :: after =>
        if isCsiFinal final then
          (if final = 0x6d && !isPrivate then
            esc :: 0x5b :: (seen ++ tail.takeWhile passesCsi ++ [final]) else [], after)
        else ([], final :: after) := by
  induction tail generalizing seen with
  | nil => rfl
  | cons byte rest ih =>
    cases hpass : passesCsi byte with
    | true =>
      rw [sanitizeCsiFrom_pass hpass, ih, dropWhile_cons_of_pos hpass,
        takeWhile_cons_of_pos hpass]
      simp
    | false =>
      have hneg : ¬ passesCsi byte = true := by rw [hpass]; exact Bool.false_ne_true
      rw [sanitizeCsiFrom_stop hpass, dropWhile_cons_of_neg hneg,
        takeWhile_cons_of_neg hneg, append_nil]

theorem isPrivateMark_head_takeWhile (tail : Bytes) :
    (tail.takeWhile passesCsi).head?.any isPrivateMark = tail.head?.any isPrivateMark := by
  cases tail with
  | nil => rfl
  | cons byte rest =>
    cases hpass : passesCsi byte with
    | true => rw [takeWhile_cons_of_pos hpass]; rfl
    | false =>
      rw [takeWhile_cons_of_neg (by rw [hpass]; exact Bool.false_ne_true)]
      unfold passesCsi at hpass
      simp only [List.head?_nil, Option.any_none, List.head?_cons, Option.any_some]
      unfold isPrivateMark
      grind

theorem sanitizeEscapeCsi_eq (tail : Bytes) :
    sanitizeEscapeCsi tail =
      match tail.dropWhile passesCsi with
      | [] => ([], [])
      | final :: after =>
        if isCsiFinal final then
          ((ReplayPart.csi (tail.takeWhile passesCsi) final).shown, after)
        else ([], final :: after) := by
  rw [sanitizeEscapeCsi, sanitizeCsiFrom_eq, ← isPrivateMark_head_takeWhile]
  rfl

theorem skipReplayString_suffix (tail : Bytes) : skipReplayString tail <:+ tail := by
  induction tail with
  | nil => exact suffix_rfl
  | cons byte rest ih =>
    unfold skipReplayString
    split
    · exact suffix_cons byte rest
    · split
      · exact (tail_suffix rest).trans (suffix_cons byte rest)
      · exact ih.trans (suffix_cons byte rest)

theorem sanitizePlainEscape_suffix (tail : Bytes) : sanitizePlainEscape tail <:+ tail := by
  cases tail with
  | nil => exact suffix_rfl
  | cons byte rest =>
    rw [sanitizePlainEscape]
    split
    · have hdrop : rest.dropWhile isIntermediate <:+ byte :: rest :=
        (dropWhile_suffix _).trans (suffix_cons byte rest)
      split
      · exact nil_suffix
      · next final after heq =>
          rw [heq] at hdrop
          split
          · exact (suffix_cons final after).trans hdrop
          · exact hdrop
    · exact suffix_cons byte rest

/-- **One round puts out what is shown of one part.** -/
theorem sanitizeReplayLoop_step (fuel : ℕ) (input : Bytes) :
    sanitizeReplayLoop (fuel + 1) input =
      match nextReplayPart input with
      | none => []
      | some (part, rest) => part.shown ++ sanitizeReplayLoop fuel rest := by
  cases input with
  | nil => rfl
  | cons byte rest =>
    by_cases hesc : byte = esc
    · subst hesc
      cases rest with
      | nil => rfl
      | cons second tail =>
        by_cases hcsi : second = 0x5b
        · simp only [sanitizeReplayLoop, nextReplayPart, if_true, if_pos hcsi,
            sanitizeEscapeCsi_eq]
          cases tail.dropWhile passesCsi with
          | nil => rfl
          | cons final after =>
            simp only
            split <;> rfl
        · simp only [sanitizeReplayLoop, nextReplayPart, if_true, if_neg hcsi]
          split <;> rfl
    · simp only [sanitizeReplayLoop, nextReplayPart, if_neg hesc, ReplayPart.shown]
      split <;> rfl

theorem sanitizeReplayLoop_eq (fuel : ℕ) (input : Bytes) :
    sanitizeReplayLoop fuel input = (replayPartsLoop fuel input).flatMap ReplayPart.shown := by
  induction fuel generalizing input with
  | zero => rfl
  | succ fuel ih =>
    rw [sanitizeReplayLoop_step, replayPartsLoop]
    cases nextReplayPart input with
    | none => rfl
    | some parts =>
      obtain ⟨part, rest⟩ := parts
      simp [ih]

theorem take_append_of_suffix {whole left : Bytes} (h : left <:+ whole) :
    whole.take (whole.length - left.length) ++ left = whole := by
  obtain ⟨body, rfl⟩ := h
  rw [length_append, Nat.add_sub_cancel, take_left]

theorem nextReplayPart_spec (h : nextReplayPart input = some (part, rest)) :
    input = part.source ++ rest ∧ part.Scanned := by
  cases input with
  | nil => cases h
  | cons byte tail =>
    by_cases hesc : byte = esc
    · subst hesc
      cases tail with
      | nil =>
        cases h
        exact ⟨rfl, trivial⟩
      | cons second tail =>
        by_cases hcsi : second = 0x5b
        · subst hcsi
          simp only [nextReplayPart, if_true] at h
          have hwhole := takeWhile_append_dropWhile (p := passesCsi) (l := tail)
          have hpasses : ∀ b ∈ tail.takeWhile passesCsi, passesCsi b = true :=
            fun b hb => mem_takeWhile_imp hb
          cases hdrop : tail.dropWhile passesCsi with
          | nil =>
            rw [hdrop] at h hwhole
            cases h
            exact ⟨congrArg (esc :: 0x5b :: ·) hwhole.symm, trivial⟩
          | cons final after =>
            rw [hdrop] at h hwhole
            simp only at h
            split at h
            · cases h
              refine ⟨?_, hpasses⟩
              simp [ReplayPart.source, hwhole]
            · cases h
              refine ⟨?_, trivial⟩
              simp [ReplayPart.source, hwhole]
        · simp only [nextReplayPart, if_true, if_neg hcsi, Option.some.injEq,
            Prod.mk.injEq] at h
          obtain ⟨rfl, rfl⟩ := h
          refine ⟨?_, trivial⟩
          have hsuffix : (if startsReplayString second then skipReplayString tail
              else sanitizePlainEscape (second :: tail)) <:+ second :: tail := by
            split
            · exact (skipReplayString_suffix tail).trans (suffix_cons second tail)
            · exact sanitizePlainEscape_suffix (second :: tail)
          exact congrArg (esc :: ·) (take_append_of_suffix hsuffix).symm
    · simp only [nextReplayPart, if_neg hesc] at h
      cases h
      exact ⟨rfl, hesc⟩

variable {fuel : ℕ}

theorem scanned_of_mem (h : part ∈ replayPartsLoop fuel input) : part.Scanned := by
  induction fuel generalizing input with
  | zero => cases h
  | succ fuel ih =>
    rw [replayPartsLoop] at h
    cases hnext : nextReplayPart input with
    | none =>
      rw [hnext] at h
      cases h
    | some parts =>
      obtain ⟨first, rest⟩ := parts
      rw [hnext] at h
      rcases mem_cons.mp h with rfl | hmem
      · exact (nextReplayPart_spec hnext).2
      · exact ih hmem

/-! ## Safe output -/

theorem isReplayText_iff : isReplayText byte = true ↔
    0x20 ≤ byte ∨ byte = 0x0a ∨ byte = 0x0d ∨ byte = 0x09 := by
  unfold isReplayText
  grind

theorem SafeReplay.numeric {params : Bytes} (hparams : ∀ b ∈ params, passesCsi b = true)
    (h : SafeReplay (esc :: 0x5b :: (params ++ 0x6d :: rest))) :
    (∀ b ∈ params, isNumeric b = true) ∧ SafeReplay rest := by
  generalize hall : esc :: 0x5b :: (params ++ 0x6d :: rest) = all at h
  cases h with
  | nil => cases hall
  | byte hbyte _ =>
    obtain ⟨rfl, -⟩ := List.cons.inj hall
    exact absurd hbyte (by decide)
  | @sgr params' rest' hnumeric hrest =>
    have hbody : params ++ 0x6d :: rest = params' ++ 0x6d :: rest' :=
      (List.cons.inj (List.cons.inj hall).2).2
    -- neither row of parameters holds the final byte, so they end at the same one
    have hfinal : (0x6d : UInt8) ∉ params := fun hmem => absurd (hparams _ hmem) (by decide)
    have hfinal' : (0x6d : UInt8) ∉ params' := fun hmem => absurd (hnumeric _ hmem) (by decide)
    have hsame := (Split.splitOnce_eq_some.mpr ⟨rfl, hfinal⟩).symm.trans
      (Split.splitOnce_eq_some.mpr ⟨hbody, hfinal'⟩)
    cases hsame
    exact ⟨hnumeric, hrest⟩

theorem SafeReplay.of_cons (hbyte : byte ≠ esc) (h : SafeReplay (byte :: rest)) :
    SafeReplay rest := by
  cases h with
  | byte _ hrest => exact hrest
  | sgr _ _ => exact absurd rfl hbyte

theorem ReplayPart.safe_iff (hpart : part.Scanned) (rest : Bytes) :
    SafeReplay (part.shown ++ rest) ↔ part.Clean ∧ SafeReplay rest := by
  cases part with
  | byte b =>
    rw [ReplayPart.shown]
    split
    · next htext =>
        constructor
        · exact fun h => ⟨trivial, h.of_cons hpart⟩
        · exact fun h => .byte (isReplayText_iff.mp htext) h.2
    · exact ⟨fun h => ⟨trivial, h⟩, fun h => h.2⟩
  | csi params final =>
    rw [ReplayPart.shown]
    split
    · next hshown =>
        simp only [Bool.and_eq_true, decide_eq_true_eq, Bool.not_eq_true'] at hshown
        obtain ⟨rfl, hprivate⟩ := hshown
        rw [cons_append, cons_append, append_assoc, singleton_append]
        constructor
        · intro h
          obtain ⟨hnumeric, hrest⟩ := h.numeric hpart
          exact ⟨fun _ _ => hnumeric, hrest⟩
        · rintro ⟨hclean, hrest⟩
          exact .sgr (hclean rfl hprivate) hrest
    · next hshown =>
        constructor
        · intro h
          refine ⟨fun hfinal hprivate => absurd ?_ hshown, h⟩
          rw [hprivate, hfinal]
          rfl
        · exact fun h => h.2
  | openCsi | escape => exact ⟨fun h => ⟨trivial, h⟩, fun h => h.2⟩

theorem safeReplay_parts {parts : List ReplayPart} (h : ∀ part ∈ parts, part.Scanned) :
    SafeReplay (parts.flatMap ReplayPart.shown) ↔ ∀ part ∈ parts, part.Clean := by
  induction parts with
  | nil => simpa using SafeReplay.nil
  | cons part parts ih =>
    rw [forall_mem_cons] at h ⊢
    rw [flatMap_cons, part.safe_iff h.1, ih h.2]

/-- **When the replay is safe.** Exactly when every colour sequence that the scan comes to in
its input has numeric parameters, or none that the sanitizer would show. -/
theorem sanitizeTerminalReplay_safe_iff (bytes : Bytes) :
    SafeReplay (sanitizeTerminalReplay bytes) ↔ ∀ part ∈ replayParts bytes, part.Clean := by
  rw [sanitizeTerminalReplay, sanitizeReplayLoop_eq]
  exact safeReplay_parts fun part => scanned_of_mem

/-- A red word, with a title that goes. -/
theorem sanitizeTerminalReplay_safe_red :
    replayParts [esc, 0x5d, 0x30, 0x07, esc, 0x5b, 0x33, 0x31, 0x6d, 0x68, 0x69] =
      [.escape [0x5d, 0x30, 0x07], .csi [0x33, 0x31] 0x6d, .byte 0x68, .byte 0x69] ∧
    SafeReplay (sanitizeTerminalReplay
      [esc, 0x5d, 0x30, 0x07, esc, 0x5b, 0x33, 0x31, 0x6d, 0x68, 0x69]) := by
  have hparts : replayParts [esc, 0x5d, 0x30, 0x07, esc, 0x5b, 0x33, 0x31, 0x6d, 0x68, 0x69] =
      [.escape [0x5d, 0x30, 0x07], .csi [0x33, 0x31] 0x6d, .byte 0x68, .byte 0x69] := by decide
  refine ⟨hparts, (sanitizeTerminalReplay_safe_iff _).mpr ?_⟩
  rw [hparts]
  simp [ReplayPart.Clean, isNumeric, isAsciiDigit]

/-- A bell inside a colour sequence is replayed. -/
theorem sanitizeTerminalReplay_rings :
    sanitizeTerminalReplay [esc, 0x5b, 0x07, 0x6d] = [esc, 0x5b, 0x07, 0x6d] ∧
      ¬ SafeReplay (sanitizeTerminalReplay [esc, 0x5b, 0x07, 0x6d]) := by
  have hkept : sanitizeTerminalReplay [esc, 0x5b, 0x07, 0x6d] = [esc, 0x5b, 0x07, 0x6d] := by
    decide
  refine ⟨hkept, fun h => ?_⟩
  rw [hkept] at h
  have hnumeric := (SafeReplay.numeric (by simp [passesCsi]) (show SafeReplay (esc :: 0x5b :: ([0x07] ++ 0x6d :: [])) from h)).1
  exact absurd (hnumeric 0x07 mem_cons_self) (by decide)

end Portl

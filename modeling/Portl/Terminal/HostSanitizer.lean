import Mathlib.Data.List.Nodup
import Portl.Lib.Run
import Portl.Terminal.ResponseFilter

/-!
# The host output sanitizer

`HostOutputSanitizer` of `commands/session.rs`: what is shown on the terminal of the client
is stripped of CSI sequences that are queries, which the terminal would answer, or answers
to queries. `Without` says what that is of a whole stream: from left to right, each complete
sequence of these classes is left out and every other byte kept.

A sequence that is longer than the buffer is put out, whatever its class. And as with the
query stripper, what is left out joins the bytes around it.
-/

namespace Portl

open List

def hostOutputSanitizerBufferCapacity : ℕ := 128

def hostOutputIsStrippedQuery (params : Bytes) (finalByte : UInt8) : Bool :=
  if finalByte = 0x63 ∧ (params = [] ∨ params = [0x3e]) ∨ finalByte = 0x6e ∧ params = [0x36] ∨
      finalByte = 0x75 ∧ (params = [0x3f] ∨ params = [0x3c]) then true
  else if (params.head? = some 0x3e ∨ params.head? = some 0x3d) ∧ finalByte = 0x75 then
    !params.tail.isEmpty && params.tail.all fun byte => isAsciiDigit byte || byte == 0x3b
  else false

/-- The classes of answers are, arm for arm, those of `is_response`. `queries` is off in a
build with `force-disable-client-query-strip`. -/
def hostOutputIsStrippedResponseOrQuery (queries : Bool) (csi : Bytes) : Bool :=
  match csi.getLast?, [esc, 0x5b].isPrefixOf? csi.dropLast with
  | some finalByte, some params => queries && hostOutputIsStrippedQuery params finalByte ||
      isResponse csi
  | _, _ => false

inductive HostOutputSanitizerState where
  | ground
  | escape
  | csi
deriving DecidableEq

structure HostOutputSanitizer where
  state : HostOutputSanitizerState
  buffer : Bytes
deriving DecidableEq

namespace HostOutputSanitizer

def new : HostOutputSanitizer := ⟨.ground, []⟩

variable (queries : Bool)

def feedByte (s : HostOutputSanitizer) (byte : UInt8) : Bytes × HostOutputSanitizer :=
  match s.state with
  | .ground => if byte = esc then ([], ⟨.escape, s.buffer ++ [byte]⟩) else ([byte], s)
  | .escape =>
    if byte = 0x5b then ([], ⟨.csi, s.buffer ++ [byte]⟩)
    else if byte = esc then (s.buffer, { s with buffer := [byte] })
    else (s.buffer ++ [byte], ⟨.ground, []⟩)
  | .csi =>
    let buffer := s.buffer ++ [byte]
    if byte = esc then (s.buffer, ⟨.escape, [byte]⟩)
    else if buffer.length > hostOutputSanitizerBufferCapacity then (buffer, ⟨.ground, []⟩)
    else if isCsiFinal byte then
      (if hostOutputIsStrippedResponseOrQuery queries buffer then [] else buffer, ⟨.ground, []⟩)
    else ([], { s with buffer := buffer })

def feed (s : HostOutputSanitizer) (bytes : Bytes) : Bytes × HostOutputSanitizer :=
  Stream.feed (feedByte queries) s bytes

/-- A call of `feed` for each chunk and one of `finish`: all that is put out. -/
def output (chunks : List Bytes) : Bytes :=
  let r := chunks.foldl (fun r chunk => (r.1 ++ (r.2.feed queries chunk).1, (r.2.feed queries chunk).2))
    (([], new) : Bytes × HostOutputSanitizer)
  r.1 ++ r.2.buffer

end HostOutputSanitizer

/-! ## Streams without the stripped sequences -/

def inCsi (byte : UInt8) : Bool := byte != esc && !isCsiFinal byte

/-- A complete CSI sequence of a stripped class. -/
def IsStripped (queries : Bool) (csi : Bytes) : Prop :=
  ∃ params final, csi = esc :: 0x5b :: (params ++ [final]) ∧ (∀ byte ∈ params, inCsi byte = true) ∧
    isCsiFinal final = true ∧ hostOutputIsStrippedResponseOrQuery queries csi = true

def KeepsHead (queries : Bool) (bytes : Bytes) : Prop :=
  ∀ csi rest, bytes = csi ++ rest → ¬IsStripped queries csi

def NoneStripped (queries : Bool) (bytes : Bytes) : Prop :=
  ∀ pre rest, bytes = pre ++ rest → KeepsHead queries rest

/-- The bytes end inside an escape sequence. -/
def Unfinished (bytes : Bytes) : Prop :=
  ∃ front tail, bytes = front ++ esc :: tail ∧
    (tail = [] ∨ ∃ params, tail = 0x5b :: params ∧ ∀ byte ∈ params, inCsi byte = true)

/-- No sequence of a stripped class is longer than the buffer. -/
def Fits (queries : Bool) (bytes : Bytes) : Prop :=
  ∀ pre csi rest, bytes = pre ++ (csi ++ rest) → IsStripped queries csi →
    csi.length ≤ hostOutputSanitizerBufferCapacity

/-- No sequence of a stripped class begins inside an escape sequence. -/
def Apart (queries : Bool) (bytes : Bytes) : Prop :=
  ∀ pre csi rest, bytes = pre ++ (csi ++ rest) → IsStripped queries csi → ¬Unfinished pre

/-- `out` is the stream less the stripped sequences. -/
inductive Without (queries : Bool) : Bytes → Bytes → Prop where
  | nil : Without queries [] []
  | strip {csi rest out : Bytes} (h : IsStripped queries csi) (hrest : Without queries rest out) :
      Without queries (csi ++ rest) out
  | keep {byte : UInt8} {rest out : Bytes} (h : KeepsHead queries (byte :: rest))
      (hrest : Without queries rest out) : Without queries (byte :: rest) (byte :: out)

section Sequences

variable {queries : Bool} {csi params rest out plain tail : Bytes} {byte final : UInt8}

theorem keepsHead_of_ne (h : byte ≠ esc) : KeepsHead queries (byte :: rest) := by
  rintro csi rest' heq ⟨params, final, rfl, -⟩
  exact h (List.cons.inj heq).1

theorem Without.text (h : Without queries rest out) (hplain : ∀ byte ∈ plain, byte ≠ esc) :
    Without queries (plain ++ rest) (plain ++ out) := by
  induction plain with
  | nil => exact h
  | cons byte plain ih =>
    rw [forall_mem_cons] at hplain
    exact .keep (keepsHead_of_ne hplain.1) (ih hplain.2)

theorem inCsi_of_final (h : isCsiFinal final = true) : inCsi final = false := by
  rw [inCsi, h, Bool.not_true, Bool.and_false]

theorem ne_esc_of_inCsi (h : inCsi byte = true) : byte ≠ esc := by
  rintro rfl
  cases h

theorem IsStripped.after (hparams : ∀ byte ∈ params, inCsi byte = true)
    (h : IsStripped queries csi) (heq : esc :: 0x5b :: (params ++ tail) = csi ++ rest) :
    ∃ more final, tail = more ++ final :: rest ∧ csi = esc :: 0x5b :: (params ++ more ++ [final]) ∧
      (∀ byte ∈ more, inCsi byte = true) ∧ isCsiFinal final = true := by
  obtain ⟨params', final, rfl, hparams', hfinal, -⟩ := h
  simp only [cons_append, append_assoc, nil_append, List.cons.injEq, true_and] at heq
  suffices hmore : ∃ more, params' = params ++ more ∧ tail = more ++ final :: rest by
    obtain ⟨more, rfl, htail⟩ := hmore
    exact ⟨more, final, htail, rfl, fun byte hbyte => hparams' byte (mem_append_right _ hbyte),
      hfinal⟩
  clear hparams'
  induction params generalizing params' with
  | nil => exact ⟨params', rfl, heq⟩
  | cons byte params ih =>
    rw [forall_mem_cons] at hparams
    cases params' with
    | nil =>
      rw [cons_append, nil_append, List.cons.injEq] at heq
      rw [heq.1, inCsi_of_final hfinal] at hparams
      cases hparams.1
    | cons byte' params' =>
      simp only [cons_append, List.cons.injEq] at heq
      obtain ⟨rfl, heq⟩ := heq
      obtain ⟨more, rfl, htail⟩ := ih hparams.2 params' heq
      exact ⟨more, rfl, htail⟩

theorem keepsHead_csi (hparams : ∀ byte ∈ params, inCsi byte = true) (hbyte : inCsi byte = false)
    (h : isCsiFinal byte = true → ¬IsStripped queries (esc :: 0x5b :: (params ++ [byte]))) :
    KeepsHead queries (esc :: 0x5b :: (params ++ byte :: rest)) := by
  intro csi rest' heq hstripped
  obtain ⟨more, final, htail, rfl, hmore, hfinal⟩ := hstripped.after hparams heq
  cases more with
  | nil =>
    obtain ⟨rfl, -⟩ := List.cons.inj htail
    rw [append_nil] at hstripped
    exact h hfinal hstripped
  | cons byte' more =>
    obtain ⟨rfl, -⟩ := List.cons.inj htail
    rw [hmore byte mem_cons_self] at hbyte
    cases hbyte

theorem Fits.of_append {front : Bytes} (h : Fits queries (front ++ rest)) : Fits queries rest := by
  rintro pre csi rest' rfl
  exact h (front ++ pre) csi rest' (append_assoc _ _ _).symm

theorem Apart.of_append {front : Bytes} (h : Apart queries (front ++ rest)) : Apart queries rest := by
  rintro pre csi rest' rfl hstripped ⟨open', tail, rfl, htail⟩
  refine h (front ++ (open' ++ esc :: tail)) csi rest' (append_assoc _ _ _).symm hstripped ?_
  exact ⟨front ++ open', tail, (append_assoc _ _ _).symm, htail⟩

/-! ## What is left -/

theorem Without.split (h : Without queries rest out) {front back : Bytes} (hout : out = front ++ back) :
    (∃ more, rest = front ++ more) ∨ ∃ front₁ front₂ csi more, front = front₁ ++ front₂ ∧
      front₂ ≠ [] ∧ rest = front₁ ++ (csi ++ more) ∧ IsStripped queries csi := by
  induction h generalizing front with
  | nil =>
    rw [(append_eq_nil_iff.mp hout.symm).1]
    exact .inl ⟨[], rfl⟩
  | @strip csi rest out hcsi _ _ =>
    cases front with
    | nil => exact .inl ⟨_, rfl⟩
    | cons byte front => exact .inr ⟨[], byte :: front, csi, rest, rfl, cons_ne_nil _ _, rfl, hcsi⟩
  | @keep byte rest out _ _ ih =>
    cases front with
    | nil => exact .inl ⟨_, rfl⟩
    | cons byte' front =>
      obtain ⟨rfl, hrest⟩ := List.cons.inj hout
      rcases ih hrest with ⟨more, rfl⟩ | ⟨front₁, front₂, csi, more, rfl, hne, rfl, hcsi⟩
      · exact .inl ⟨more, rfl⟩
      · exact .inr ⟨byte :: front₁, front₂, csi, more, rfl, hne, rfl, hcsi⟩

/-- A sequence that is left was there before, or closed over one that is gone: then that
one began inside an escape sequence. -/
theorem Without.noneStripped (h : Without queries rest out) (hapart : Apart queries rest) :
    NoneStripped queries out := by
  induction h with
  | nil =>
    rintro pre back hout csi more hback ⟨params, final, rfl, -⟩
    rw [hback] at hout
    cases pre <;> cases hout
  | strip _ _ ih => exact ih hapart.of_append
  | @keep byte rest out hkeep hrest ih =>
    intro pre back hout
    cases pre with
    | cons byte' pre =>
      have hall : Apart queries ([byte] ++ rest) := hapart
      exact ih hall.of_append pre back (List.cons.inj hout).2
    | nil =>
      rintro csi more rfl ⟨params, final, rfl, hparams, hfinal, hclass⟩
      obtain ⟨rfl, htail⟩ := List.cons.inj hout
      have hstripped : IsStripped queries (esc :: 0x5b :: (params ++ [final])) :=
        ⟨params, final, rfl, hparams, hfinal, hclass⟩
      -- it was in the input as it is, or something was dropped between its bytes
      rcases hrest.split htail with ⟨more, rfl⟩ | ⟨front₁, front₂, csi, more, hfront, hne, rfl, hcsi⟩
      · exact hkeep _ more rfl hstripped
      · refine hapart (esc :: front₁) csi more rfl hcsi ⟨[], front₁, rfl, ?_⟩
        cases front₁ with
        | nil => exact .inl rfl
        | cons bracket params' =>
          obtain ⟨rfl, hcut⟩ := List.cons.inj hfront
          refine .inr ⟨params', rfl, fun byte hbyte => hparams byte ?_⟩
          rcases prefix_concat_iff.mp ⟨front₂, hcut.symm⟩ with rfl | hpre
          · exact absurd (append_right_eq_self.mp hcut.symm) hne
          · exact hpre.subset hbyte

theorem Without.eq_self (h : Without queries rest out) (hnone : NoneStripped queries rest) :
    out = rest := by
  induction h with
  | nil => rfl
  | strip hcsi _ _ => exact absurd hcsi (hnone [] _ rfl _ _ rfl)
  | @keep byte rest out _ _ ih =>
    rw [ih]
    exact fun pre back hback => hnone (byte :: pre) back (congrArg _ hback)

end Sequences

namespace HostOutputSanitizer

variable {queries : Bool} {s : HostOutputSanitizer} {byte : UInt8}

inductive Holds : HostOutputSanitizer → Prop where
  | ground : Holds ⟨.ground, []⟩
  | escape : Holds ⟨.escape, [esc]⟩
  | csi {params : Bytes} (hparams : ∀ byte ∈ params, inCsi byte = true)
      (hlen : params.length + 2 ≤ hostOutputSanitizerBufferCapacity) :
      Holds ⟨.csi, esc :: 0x5b :: params⟩

theorem Holds.buffer (h : s.Holds) :
    s = new ∨ ∃ plain, s.buffer = esc :: plain ∧ ∀ byte ∈ plain, byte ≠ esc := by
  cases h with
  | ground => exact .inl rfl
  | escape => exact .inr ⟨[], rfl, fun _ hmem => absurd hmem not_mem_nil⟩
  | csi hparams _ =>
    refine .inr ⟨_, rfl, forall_mem_cons.mpr ⟨by decide, ?_⟩⟩
    exact fun byte hbyte => ne_esc_of_inCsi (hparams byte hbyte)

theorem keepsHead_escape {rest : Bytes} (h : byte ≠ 0x5b) :
    KeepsHead queries (esc :: byte :: rest) := by
  rintro csi rest' heq ⟨params, final, rfl, -⟩
  exact h (List.cons.inj (List.cons.inj heq).2).1

variable (queries) in
/-- What a byte can do: it is held, it cuts short what is held, it goes out behind what is
held, or all of it is dropped. -/
inductive Step (s : HostOutputSanitizer) (byte : UInt8) : Bytes × HostOutputSanitizer → Prop where
  | held {next : HostOutputSanitizer} (hnext : next.Holds) (hbuffer : next.buffer = s.buffer ++ [byte]) :
      Step s byte ([], next)
  | cut (hesc : byte = esc) (hkeeps : ∀ rest, KeepsHead queries (s.buffer ++ byte :: rest)) :
      Step s byte (s.buffer, ⟨.escape, [byte]⟩)
  | flush (hesc : byte ≠ esc) (hkeeps : ∀ rest, Fits queries (s.buffer ++ byte :: rest) →
      KeepsHead queries (s.buffer ++ byte :: rest)) : Step s byte (s.buffer ++ [byte], .new)
  | drop (hstripped : IsStripped queries (s.buffer ++ [byte])) : Step s byte ([], .new)

theorem step_feedByte (h : s.Holds) (byte : UInt8) :
    Step queries s byte (s.feedByte queries byte) := by
  cases h with
  | ground =>
    by_cases hesc : byte = esc
    · rw [feedByte, if_pos hesc, hesc]
      exact .held .escape rfl
    · rw [feedByte, if_neg hesc]
      exact .flush hesc fun _ _ => keepsHead_of_ne hesc
  | escape =>
    simp only [feedByte]
    split_ifs with hcsi hesc
    · rw [hcsi]
      exact .held (.csi (fun _ hmem => absurd hmem not_mem_nil) (by decide)) rfl
    · exact .cut hesc fun _ => keepsHead_escape hcsi
    · exact .flush hesc fun _ _ => keepsHead_escape hcsi
  | @csi params hparams hlen =>
    simp only [feedByte]
    split_ifs with hesc hlong hfinal hstripped
    · refine .cut hesc fun rest => keepsHead_csi hparams (by rw [hesc]; rfl) fun hfinal => ?_
      rw [hesc] at hfinal
      cases hfinal
    · -- the sequence is too long, wherever it ends
      refine .flush hesc fun rest hfits csi rest' heq hstripped => ?_
      have hshort := hfits [] csi rest' heq hstripped
      obtain ⟨more, final, -, rfl, -, -⟩ := hstripped.after hparams heq
      simp only [length_cons, length_append, length_nil] at hlong hshort
      omega
    · exact .drop ⟨params, byte, rfl, hparams, hfinal, hstripped⟩
    · refine .flush hesc fun rest _ => keepsHead_csi hparams (inCsi_of_final hfinal) fun _ => ?_
      rintro ⟨_, _, -, -, -, hother⟩
      exact hstripped hother
    · rw [Bool.not_eq_true] at hfinal
      have hbyte : inCsi byte = true := by rw [inCsi, hfinal, bne_iff_ne.mpr hesc]; rfl
      have hnext : Holds ⟨.csi, esc :: 0x5b :: (params ++ [byte])⟩ := by
        refine .csi ?_ ?_
        · rw [forall_mem_append, forall_mem_singleton]
          exact ⟨hparams, hbyte⟩
        · simp only [length_cons, length_append, length_nil] at hlong ⊢
          omega
      exact .held hnext rfl

theorem Holds.without (h : s.Holds) {rest out : Bytes} (hkeeps : KeepsHead queries (s.buffer ++ rest))
    (hrest : Without queries rest out) : Without queries (s.buffer ++ rest) (s.buffer ++ out) := by
  rcases h.buffer with rfl | ⟨plain, hbuffer, hplain⟩
  · exact hrest
  · rw [hbuffer] at hkeeps ⊢
    exact .keep hkeeps (hrest.text hplain)

theorem Holds.keepsHead (h : s.Holds) : KeepsHead queries s.buffer := by
  intro csi rest heq hstripped
  cases h with
  | ground | escape =>
    obtain ⟨params, final, rfl, -⟩ := hstripped
    cases heq
  | @csi params hparams hlen =>
    have hwhole : esc :: 0x5b :: (params ++ []) = csi ++ rest := by rw [append_nil]; exact heq
    obtain ⟨more, final, htail, -⟩ := hstripped.after hparams hwhole
    cases more <;> cases htail

/-- **What is put out is the stream without the stripped sequences.** -/
theorem without_feed (h : s.Holds) {bytes : Bytes} (hfits : Fits queries (s.buffer ++ bytes)) :
    Without queries (s.buffer ++ bytes)
      ((s.feed queries bytes).1 ++ (s.feed queries bytes).2.buffer) := by
  induction bytes generalizing s with
  | nil =>
    have hkeeps : KeepsHead queries (s.buffer ++ []) := by rw [append_nil]; exact h.keepsHead
    simpa [feed, Stream.feed] using h.without hkeeps .nil
  | cons byte bytes ih =>
    have hstep : Step queries s byte (s.feedByte queries byte) := step_feedByte h byte
    simp only [feed, Stream.feed, append_assoc]
    generalize s.feedByte queries byte = r at hstep ⊢
    cases hstep with
    | @held next hnext hbuffer =>
      rw [append_cons, ← hbuffer] at hfits ⊢
      exact ih hnext hfits
    | cut hesc hkeeps =>
      subst hesc
      exact h.without (hkeeps bytes) (ih .escape hfits.of_append)
    | flush hesc hkeeps =>
      rw [append_assoc]
      refine h.without (hkeeps bytes hfits) (.keep (keepsHead_of_ne hesc) (ih .ground ?_))
      rw [append_cons] at hfits
      exact hfits.of_append
    | drop hstripped =>
      rw [append_cons] at hfits ⊢
      exact .strip hstripped (ih .ground hfits.of_append)

theorem output_eq (queries : Bool) (chunks : List Bytes) : output queries chunks =
    (new.feed queries chunks.flatten).1 ++ (new.feed queries chunks.flatten).2.buffer := by
  simp only [output, feed, Stream.foldl_chunks_eq_feed, nil_append]

/-- **The host output sanitizer.** What it puts out does not depend on the chunks. Where no
stripped sequence is longer than the buffer, it is the stream without these sequences; and
where none begins inside another sequence either, none is left in it, and reading it again
drops nothing. -/
theorem hostOutput_stripped (queries : Bool) (chunks : List Bytes) :
    output queries chunks = output queries [chunks.flatten] ∧
    (Fits queries chunks.flatten →
      Without queries chunks.flatten (output queries chunks) ∧
      (Apart queries chunks.flatten → NoneStripped queries (output queries chunks) ∧
        output queries [output queries chunks] = output queries chunks)) := by
  have hwithout : ∀ chunks : List Bytes, Fits queries chunks.flatten →
      Without queries chunks.flatten (output queries chunks) := by
    intro chunks hfits
    rw [output_eq]
    exact without_feed .ground hfits
  refine ⟨?_, fun hfits => ⟨hwithout chunks hfits, fun hapart => ?_⟩⟩
  · rw [output_eq, output_eq, flatten_singleton]
  · have hnone := (hwithout chunks hfits).noneStripped hapart
    have hagain := hwithout [output queries chunks]
    rw [flatten_singleton] at hagain
    refine ⟨hnone, (hagain ?_).eq_self hnone⟩
    exact fun pre csi rest heq hstripped => absurd hstripped (hnone pre _ heq csi rest rfl)

theorem hostOutput_stripped_cut :
    output true [[0x61, esc, 0x5b], [0x36, 0x6e, 0x62]] = [0x61, 0x62] ∧
      NoneStripped true (output true [[0x61, esc, 0x5b], [0x36, 0x6e, 0x62]]) := by
  refine ⟨by decide +kernel, (((hostOutput_stripped true _).2 ?_).2 ?_).1⟩
  · intro pre csi rest heq _
    have hlength := congrArg length heq
    simp at hlength
    unfold hostOutputSanitizerBufferCapacity
    omega
  · -- there is one ESC in the stream
    rintro pre csi rest heq ⟨params, final, rfl, -⟩ ⟨front, tail, rfl, -⟩
    have hcount := congrArg (count esc) heq
    simp [count_append, esc] at hcount
    omega

/-- `ESC ESC [ 6 n [ 6 n`: the query in the middle goes, and the rest is one. -/
theorem hostOutput_spliced :
    output true [[esc, esc, 0x5b, 0x36, 0x6e, 0x5b, 0x36, 0x6e]] = [esc, 0x5b, 0x36, 0x6e] ∧
      output true [[esc, 0x5b, 0x36, 0x6e]] = [] := by
  decide +kernel

end HostOutputSanitizer

end Portl

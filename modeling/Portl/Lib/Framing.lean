import Mathlib.Data.List.Basic

/-!
# Frames behind a length

A frame is a header of fixed width that holds the length of the payload, and the
payload. A reader takes what has arrived and keeps the part of a frame it has so
far; `poll_frames` says that it cuts a sequence of frames where the writer put them
together, wherever the sequence was cut on its way. The part that a reader keeps is
lost with the reader.
-/

namespace Framing

open List

variable {β : Type*}

/-- How lengths up to `limit` are written. -/
structure Header (β : Type*) where
  width : ℕ
  limit : ℕ
  encode : ℕ → List β
  decode : List β → ℕ
  width_pos : 0 < width
  length_encode : ∀ n, (encode n).length = width
  decode_encode : ∀ n ≤ limit, decode (encode n) = n

inductive Reader (β : Type*) where
  | header (got : List β)
  | body (length : ℕ) (got : List β)
deriving DecidableEq

inductive Poll (β : Type*) where
  | pending (reader : Reader β)
  | ready (payload : List β)
  | oversize (length : ℕ)
deriving DecidableEq

namespace Reader

def start : Reader β := header []

def pollBody (length : ℕ) (got input : List β) : Poll β × List β :=
  let got' := got ++ input.take (length - got.length)
  let rest := input.drop (length - got.length)
  if got'.length < length then (.pending (body length got'), rest) else (.ready got', rest)

def poll (H : Header β) : Reader β → List β → Poll β × List β
  | body length got, input => pollBody length got input
  | header got, input =>
    let got' := got ++ input.take (H.width - got.length)
    let rest := input.drop (H.width - got.length)
    if got'.length < H.width then (.pending (header got'), rest)
    else if H.decode got' > H.limit then (.oversize (H.decode got'), rest)
    else pollBody (H.decode got') [] rest

def taken (H : Header β) : Reader β → List β
  | header got => got
  | body length got => H.encode length ++ got

def Midway (H : Header β) : Reader β → Prop
  | header got => got.length < H.width
  | body length got => got.length < length ∧ length ≤ H.limit

theorem start_midway (H : Header β) : (start : Reader β).Midway H := H.width_pos

end Reader

variable (H : Header β)

def frame (payload : List β) : List β := H.encode payload.length ++ payload

def frames (payloads : List (List β)) : List β := payloads.flatMap (frame H)

theorem frames_cons (payload : List β) (payloads : List (List β)) :
    frames H (payload :: payloads) = frame H payload ++ frames H payloads :=
  flatMap_cons

theorem frames_append (payloads payloads' : List (List β)) :
    frames H (payloads ++ payloads') = frames H payloads ++ frames H payloads' :=
  flatMap_append

variable {input later got rest : List β} {payloads : List (List β)} {reader : Reader β}

theorem take_or_all {first : List β} {n : ℕ} (hgot : got.length ≤ n) (hfirst : first.length = n)
    (h : got ++ input ++ later = first ++ rest) :
    (got ++ input.take (n - got.length)).length < n ∧
        got ++ input.take (n - got.length) = got ++ input ∧ input.drop (n - got.length) = [] ∨
      got ++ input.take (n - got.length) = first ∧ input.drop (n - got.length) ++ later = rest := by
  rcases Nat.lt_or_ge input.length (n - got.length) with hshort | hlong
  · left
    have hall : input.take (n - got.length) = input := take_of_length_le (Nat.le_of_lt hshort)
    refine ⟨?_, by rw [hall], drop_eq_nil_of_le (Nat.le_of_lt hshort)⟩
    rw [hall, length_append]
    omega
  · right
    have hlength : (got ++ input.take (n - got.length)).length = first.length := by
      rw [length_append, length_take, hfirst]
      omega
    have hsplit : got ++ input.take (n - got.length) ++ (input.drop (n - got.length) ++ later) =
        first ++ rest := by
      rw [← h]
      simp only [append_assoc]
      rw [← append_assoc (input.take _), take_append_drop]
    exact append_inj hsplit hlength

theorem pollBody_frames {payload : List β} (hgot : got.length ≤ payload.length)
    (h : got ++ input ++ later = payload ++ rest) :
    (∃ got', Reader.pollBody payload.length got input =
          (.pending (.body payload.length got'), []) ∧
        got'.length < payload.length ∧ got' = got ++ input) ∨
      ∃ left, Reader.pollBody payload.length got input = (.ready payload, left) ∧
        left ++ later = rest := by
  unfold Reader.pollBody
  rcases take_or_all hgot rfl h with ⟨hshort, hall, hdrop⟩ | ⟨hfirst, hleft⟩
  · left
    exact ⟨_, by simp only [if_pos hshort, hdrop], hshort, hall⟩
  · right
    refine ⟨input.drop (payload.length - got.length), ?_, hleft⟩
    simp only [hfirst, if_neg (Nat.lt_irrefl _)]

section Reading

variable {H} {input later : List β}

theorem poll_nothing {reader : Reader β} (h : reader.taken H ++ input ++ later = []) :
    ∃ reader', reader.poll H input = (.pending reader', []) ∧ reader'.Midway H ∧
      reader'.taken H = reader.taken H ++ input := by
  obtain ⟨htaken, -⟩ := append_eq_nil_iff.mp h
  obtain ⟨hreader, hinput⟩ := append_eq_nil_iff.mp htaken
  cases reader with
  | header got =>
    have hgot : got = [] := hreader
    subst hgot
    subst hinput
    refine ⟨.header [], ?_, H.width_pos, rfl⟩
    simp [Reader.poll, H.width_pos]
  | body length got =>
    have hencode := (append_eq_nil_iff.mp hreader).1
    have hwidth := H.length_encode length
    rw [hencode] at hwidth
    exact absurd hwidth.symm (Nat.ne_of_gt H.width_pos)

variable {got payload rest : List β}

theorem poll_header (hgot : got.length < H.width) (hlimit : payload.length ≤ H.limit)
    (h : got ++ input ++ later = frame H payload ++ rest) :
    (∃ reader', (Reader.header got).poll H input = (.pending reader', []) ∧ reader'.Midway H ∧
        reader'.taken H = got ++ input) ∨
      ∃ left, (Reader.header got).poll H input = (.ready payload, left) ∧ left ++ later = rest := by
  have h' : got ++ input ++ later = H.encode payload.length ++ (payload ++ rest) :=
    h.trans (append_assoc _ _ _)
  simp only [Reader.poll]
  rcases take_or_all (Nat.le_of_lt hgot) (H.length_encode _) h' with
    ⟨hshort, hall, hdrop⟩ | ⟨hfirst, hleft⟩
  · left
    refine ⟨.header (got ++ input.take (H.width - got.length)), ?_, hshort, hall⟩
    rw [if_pos hshort, hdrop]
  · have hlength : ¬ (H.encode payload.length).length < H.width := by
      rw [H.length_encode]
      exact Nat.lt_irrefl _
    rw [hfirst, if_neg hlength, H.decode_encode _ hlimit, if_neg (Nat.not_lt.mpr hlimit)]
    have hbody : [] ++ input.drop (H.width - got.length) ++ later = payload ++ rest := hleft
    rcases pollBody_frames (Nat.zero_le _) hbody with ⟨got', hpoll, hmidway, rfl⟩ | hready
    · left
      refine ⟨_, hpoll, ⟨hmidway, hlimit⟩, ?_⟩
      show H.encode payload.length ++ input.drop (H.width - got.length) = got ++ input
      rw [← hfirst, append_assoc, take_append_drop]
    · exact .inr hready

theorem poll_body {length : ℕ} (hgot : got.length < length) (hlength : length ≤ H.limit)
    (hlimit : payload.length ≤ H.limit)
    (h : (Reader.body length got).taken H ++ input ++ later = frame H payload ++ rest) :
    (∃ reader', (Reader.body length got).poll H input = (.pending reader', []) ∧
        reader'.Midway H ∧ reader'.taken H = (Reader.body length got).taken H ++ input) ∨
      ∃ left, (Reader.body length got).poll H input = (.ready payload, left) ∧
        left ++ later = rest := by
  simp only [Reader.taken, frame, append_assoc] at h
  obtain ⟨hencode, hbody⟩ := append_inj h ((H.length_encode _).trans (H.length_encode _).symm)
  have heq : length = payload.length := by
    rw [← H.decode_encode length hlength, hencode, H.decode_encode _ hlimit]
  subst heq
  rw [← append_assoc] at hbody
  rcases pollBody_frames (Nat.le_of_lt hgot) hbody with ⟨got', hpoll, hmidway, rfl⟩ | hready
  · left
    exact ⟨_, hpoll, ⟨hmidway, hlimit⟩, (append_assoc _ _ _).symm⟩
  · exact .inr hready

end Reading

/-- **Reading frames.** What was taken and what is still to come is a sequence of
frames. Either the input is used up within the next frame, or its payload is
returned and what is left belongs to the frames after it. -/
theorem poll_frames (hlimit : ∀ payload ∈ payloads, payload.length ≤ H.limit)
    (hmidway : reader.Midway H) (h : reader.taken H ++ input ++ later = frames H payloads) :
    (∃ reader', reader.poll H input = (.pending reader', []) ∧ reader'.Midway H ∧
        reader'.taken H = reader.taken H ++ input) ∨
      ∃ payload payloads' left, payloads = payload :: payloads' ∧
        reader.poll H input = (.ready payload, left) ∧ left ++ later = frames H payloads' := by
  cases payloads with
  | nil => exact .inl (poll_nothing h)
  | cons payload payloads =>
    rw [frames_cons] at h
    have hpayload := hlimit payload mem_cons_self
    cases reader with
    | header got =>
      rcases poll_header hmidway hpayload h with hpending | ⟨left, hpoll, hleft⟩
      · exact .inl hpending
      · exact .inr ⟨payload, payloads, left, rfl, hpoll, hleft⟩
    | body length got =>
      rcases poll_body hmidway.1 hmidway.2 hpayload h with hpending | ⟨left, hpoll, hleft⟩
      · exact .inl hpending
      · exact .inr ⟨payload, payloads, left, rfl, hpoll, hleft⟩

theorem taken_lt_frames (hlimit : ∀ payload ∈ payloads, payload.length ≤ H.limit)
    (hmidway : reader.Midway H) (h : reader.taken H = frames H payloads) : payloads = [] := by
  rcases payloads with _ | ⟨payload, payloads⟩
  · rfl
  · have hlength := congrArg List.length (h.trans (frames_cons H payload payloads))
    cases reader with
    | header got =>
      have hgot : got.length < H.width := hmidway
      simp only [Reader.taken, frame, length_append, H.length_encode] at hlength
      omega
    | body length got =>
      have hgot : got.length < length := hmidway.1
      have hencode : H.encode length = H.encode payload.length := by
        rw [frames_cons, frame, Reader.taken, append_assoc] at h
        exact (append_inj h ((H.length_encode _).trans (H.length_encode _).symm)).1
      have heq : length = payload.length := by
        rw [← H.decode_encode length hmidway.2, hencode,
          H.decode_encode _ (hlimit payload mem_cons_self)]
      simp only [Reader.taken, frame, length_append, H.length_encode] at hlength
      omega

end Framing

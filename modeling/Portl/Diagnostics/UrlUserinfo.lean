import Mathlib.Algebra.Order.Ring.Nat
import Portl.Lib.Find
import Portl.Lib.Split
import Portl.Lib.Lines

/-!
# Credentials in URLs

`redact_url_userinfo` of `portl-core/src/diagnostics.rs`, which logs, bundles and
error texts go through: the text is searched for `://`, and what stands before the
last `@` of the authority that follows is written as `***`.

The loop goes on at that `@`, and it never sees a mark that the full text does not
have, since an authority has no `/`. So its result can be told from the text alone:
`Starred` says which parts of a text are userinfo, and no other part is touched.
-/

namespace Portl

open List

/-- `"://"`. -/
def schemeMark : List Char := [':', '/', '/']

/-- Where `tail.find` ends the authority. -/
def endsAuthority (c : Char) : Bool := c == '/' || c == '?' || c == '#' || Lines.isWhitespace c

def urlAuthority (tail : List Char) : List Char := tail.takeWhile fun c => !endsAuthority c

/-- What stands before the last `@` of the authority. -/
def urlUserinfo (tail : List Char) : Option (List Char) :=
  (Split.rsplitOnce '@' (urlAuthority tail)).map Prod.fst

def userinfoStars : List Char := ['*', '*', '*']

/-- The loop of `redact_url_userinfo`. The rest gets shorter each round, so its
length is fuel enough. -/
def redactUrlUserinfoLoop : ℕ → List Char → List Char
  | 0, rest => rest
  | fuel + 1, rest =>
    match Find.splitAt schemeMark rest with
    | none => rest
    | some (head, tail) =>
      head ++ schemeMark ++
        match urlUserinfo tail with
        | some userinfo =>
          userinfoStars ++ redactUrlUserinfoLoop fuel (tail.drop userinfo.length)
        | none => redactUrlUserinfoLoop fuel tail

def redactUrlUserinfo (text : List Char) : List Char := redactUrlUserinfoLoop text.length text

/-! ## Authorities -/

variable {tail u : List Char}

theorem not_endsAuthority_of_mem {c : Char} (h : c ∈ urlAuthority tail) :
    endsAuthority c = false := by
  have hc := mem_takeWhile_imp h
  simpa using hc

theorem slash_not_mem_urlAuthority (tail : List Char) : '/' ∉ urlAuthority tail := by
  intro h
  exact absurd (not_endsAuthority_of_mem h) (by decide)

theorem urlAuthority_append {front : List Char} (h : ∀ c ∈ front, endsAuthority c = false)
    (rest : List Char) : urlAuthority (front ++ rest) = front ++ urlAuthority rest := by
  refine takeWhile_append_of_pos ?_
  intro c hc
  rw [h c hc]
  rfl

theorem urlUserinfo_eq_some :
    urlUserinfo tail = some u ↔ ∃ host, urlAuthority tail = u ++ '@' :: host ∧ '@' ∉ host := by
  simp only [urlUserinfo, Option.map_eq_some_iff, Prod.exists, Split.rsplitOnce_eq_some]
  constructor
  · rintro ⟨a, host, h, rfl⟩
    exact ⟨host, h⟩
  · rintro ⟨host, h⟩
    exact ⟨u, host, h, rfl⟩

theorem urlUserinfo_eq_none : urlUserinfo tail = none ↔ '@' ∉ urlAuthority tail := by
  constructor
  · intro hnone hmem
    obtain ⟨host, u, hsplit, hhost⟩ := eq_append_cons_of_mem (mem_reverse.mpr hmem)
    have hsome : urlUserinfo tail = some u.reverse := by
      refine urlUserinfo_eq_some.mpr ⟨host.reverse, ?_, by simpa using hhost⟩
      rw [reverse_eq_iff] at hsplit
      simpa using hsplit
    rw [hnone] at hsome
    cases hsome
  · intro hnot
    cases huser : urlUserinfo tail with
    | none => rfl
    | some u =>
      obtain ⟨host, hsplit, -⟩ := urlUserinfo_eq_some.mp huser
      exact absurd (hsplit ▸ mem_append_right u mem_cons_self) hnot

theorem exists_of_urlUserinfo (h : urlUserinfo tail = some u) :
    ∃ rest, tail = u ++ '@' :: rest ∧ '/' ∉ u ∧ '@' ∉ urlAuthority rest := by
  obtain ⟨host, hsplit, hhost⟩ := urlUserinfo_eq_some.mp h
  have hmem : ∀ c ∈ u ++ ['@'], endsAuthority c = false := by
    intro c hc
    have hmem : c ∈ urlAuthority tail := by
      rw [hsplit]
      simpa using Or.imp_right Or.inl (by simpa using hc)
    exact not_endsAuthority_of_mem hmem
  obtain ⟨rest, hrest⟩ : u ++ '@' :: host <+: tail := hsplit ▸ List.takeWhile_prefix _
  have htail : tail = (u ++ ['@']) ++ (host ++ rest) := by rw [← hrest]; simp
  have hauthority : urlAuthority (host ++ rest) = host := by
    have happend := urlAuthority_append hmem (host ++ rest)
    rw [← htail, hsplit] at happend
    simpa using happend.symm
  refine ⟨host ++ rest, by rw [htail]; simp, ?_, ?_⟩
  · intro hslash
    exact slash_not_mem_urlAuthority tail (hsplit ▸ mem_append_left _ hslash)
  · rw [hauthority]
    exact hhost

theorem urlUserinfo_append {rest : List Char} (hu : ∀ c ∈ u, endsAuthority c = false)
    (hrest : '@' ∉ urlAuthority rest) : urlUserinfo (u ++ '@' :: rest) = some u := by
  refine urlUserinfo_eq_some.mpr ⟨urlAuthority rest, ?_, hrest⟩
  have happend : urlAuthority (u ++ ['@'] ++ rest) = u ++ ['@'] ++ urlAuthority rest := by
    refine urlAuthority_append ?_ rest
    intro c hc
    rcases mem_append.mp hc with h | h
    · exact hu c h
    · rw [mem_singleton.mp h]
      rfl
  simpa using happend

/-! ## The loop -/

theorem redactUrlUserinfoLoop_eq {n m : ℕ} {rest : List Char} (hn : rest.length ≤ n)
    (hm : rest.length ≤ m) : redactUrlUserinfoLoop n rest = redactUrlUserinfoLoop m rest := by
  induction n generalizing m rest with
  | zero =>
    rw [length_eq_zero_iff.mp (Nat.le_zero.mp hn)]
    cases m <;> rfl
  | succ n ih =>
    cases m with
    | zero =>
      rw [length_eq_zero_iff.mp (Nat.le_zero.mp hm)]
      rfl
    | succ m =>
      unfold redactUrlUserinfoLoop
      cases hsplit : Find.splitAt schemeMark rest with
      | none => rfl
      | some parts =>
        obtain ⟨head, tail⟩ := parts
        have hlength := congrArg List.length (Find.splitAt_eq_some.mp hsplit).1
        simp only [length_append, schemeMark, length_cons] at hlength
        have hfuel : ∀ left : List Char, left.length ≤ tail.length →
            redactUrlUserinfoLoop n left = redactUrlUserinfoLoop m left :=
          fun left hleft => ih (by omega) (by omega)
        cases huser : urlUserinfo tail with
        | none => simp [huser, hfuel tail le_rfl]
        | some u => simp [huser, hfuel (tail.drop u.length) (by simp)]

variable {text head tail u rest : List Char}

theorem redactUrlUserinfo_of_absent (h : ¬ schemeMark <:+: text) : redactUrlUserinfo text = text := by
  unfold redactUrlUserinfo
  cases hlength : text.length with
  | zero => rfl
  | succ n => rw [redactUrlUserinfoLoop, Find.splitAt_eq_none.mpr h]

theorem redactUrlUserinfo_step (h : Find.Fresh schemeMark head) :
    redactUrlUserinfo (head ++ schemeMark ++ tail) = head ++ schemeMark ++
      match urlUserinfo tail with
      | some u => userinfoStars ++ redactUrlUserinfo (tail.drop u.length)
      | none => redactUrlUserinfo tail := by
  have hlength : (head ++ schemeMark ++ tail).length = head.length + 2 + tail.length + 1 := by
    simp only [length_append, schemeMark, length_cons, length_nil]
    omega
  have hfuel : ∀ rest : List Char, rest.length ≤ tail.length →
      redactUrlUserinfoLoop (head.length + 2 + tail.length) rest = redactUrlUserinfo rest :=
    fun rest hrest => redactUrlUserinfoLoop_eq (by omega) le_rfl
  rw [redactUrlUserinfo, hlength, redactUrlUserinfoLoop, Find.splitAt_eq_some.mpr ⟨rfl, h⟩]
  cases huser : urlUserinfo tail with
  | none => simp [huser, hfuel tail le_rfl]
  | some u => simp [huser, hfuel (tail.drop u.length) (by simp)]

theorem redactUrlUserinfo_keep (h : Find.Fresh schemeMark head) (htail : urlUserinfo tail = none) :
    redactUrlUserinfo (head ++ schemeMark ++ tail) =
      head ++ schemeMark ++ redactUrlUserinfo tail := by
  rw [redactUrlUserinfo_step h, htail]

theorem redactUrlUserinfo_hide (h : Find.Fresh schemeMark head)
    (htail : urlUserinfo (u ++ '@' :: rest) = some u) :
    redactUrlUserinfo (head ++ schemeMark ++ (u ++ '@' :: rest)) =
      head ++ schemeMark ++ (userinfoStars ++ redactUrlUserinfo ('@' :: rest)) := by
  rw [redactUrlUserinfo_step h, htail]
  simp

/-- **The loop, round by round.** -/
theorem redactUrlUserinfo_induction {motive : List Char → Prop}
    (absent : ∀ text, ¬ schemeMark <:+: text → motive text)
    (keep : ∀ head tail, Find.Fresh schemeMark head → urlUserinfo tail = none → motive tail →
      motive (head ++ schemeMark ++ tail))
    (hide : ∀ head u rest, Find.Fresh schemeMark head → urlUserinfo (u ++ '@' :: rest) = some u →
      '/' ∉ u → '@' ∉ urlAuthority rest → motive ('@' :: rest) →
      motive (head ++ schemeMark ++ (u ++ '@' :: rest)))
    (text : List Char) : motive text := by
  induction hn : text.length using Nat.strong_induction_on generalizing text with
  | _ n ih =>
    cases hsplit : Find.splitAt schemeMark text with
    | none => exact absent text (Find.splitAt_eq_none.mp hsplit)
    | some parts =>
      obtain ⟨head, tail⟩ := parts
      obtain ⟨rfl, hfresh⟩ := Find.splitAt_eq_some.mp hsplit
      simp only [length_append, schemeMark, length_cons] at hn
      cases huser : urlUserinfo tail with
      | none => exact keep head tail hfresh huser (ih tail.length (by omega) tail rfl)
      | some u =>
        obtain ⟨rest, rfl, hslash, hat⟩ := exists_of_urlUserinfo huser
        rw [length_append, length_cons] at hn
        refine hide head u rest hfresh huser hslash hat (ih _ ?_ ('@' :: rest) rfl)
        rw [length_cons]
        omega

theorem schemeMark_of_redactUrlUserinfo (h : ¬ schemeMark <:+: redactUrlUserinfo text) :
    ¬ schemeMark <:+: text := by
  intro hmark
  cases hsplit : Find.splitAt schemeMark text with
  | none => exact Find.splitAt_eq_none.mp hsplit hmark
  | some parts =>
    obtain ⟨head, tail⟩ := parts
    obtain ⟨rfl, hfresh⟩ := Find.splitAt_eq_some.mp hsplit
    rw [redactUrlUserinfo_step hfresh] at h
    exact h ⟨head, _, rfl⟩

/-! ## Occurrences of the mark -/

variable {after before : List Char}

theorem schemeMark_cases (h : Find.Fresh schemeMark head)
    (heq : head ++ schemeMark ++ tail = before ++ schemeMark ++ after) :
    (before = head ∧ after = tail) ∨
      ∃ m, before = head ++ schemeMark ++ m ∧ tail = m ++ schemeMark ++ after :=
  h.eq_or_later (by decide) heq

theorem schemeMark_skip (hu : '/' ∉ u) (heq : u ++ '@' :: rest = before ++ schemeMark ++ after) :
    ∃ m, before = u ++ m ∧ '@' :: rest = m ++ schemeMark ++ after :=
  Find.skip hu (by simp) heq

theorem urlAuthority_redactUrlUserinfo (text : List Char) :
    urlAuthority (redactUrlUserinfo text) = urlAuthority text := by
  have hstops : ∀ head rest rest' : List Char, urlAuthority (head ++ schemeMark ++ rest) =
      urlAuthority (head ++ schemeMark ++ rest') := by
    intro head rest rest'
    induction head with
    | nil => rfl
    | cons c head ih =>
      simp only [urlAuthority, cons_append, takeWhile_cons] at ih ⊢
      rw [ih]
  cases hsplit : Find.splitAt schemeMark text with
  | none => rw [redactUrlUserinfo_of_absent (Find.splitAt_eq_none.mp hsplit)]
  | some parts =>
    obtain ⟨rfl, hfresh⟩ := Find.splitAt_eq_some.mp hsplit
    rw [redactUrlUserinfo_step hfresh]
    exact hstops _ _ _

theorem redactUrlUserinfo_at (hat : '@' ∉ urlAuthority rest) :
    ∃ rest', redactUrlUserinfo ('@' :: rest) = '@' :: rest' ∧ '@' ∉ urlAuthority rest' := by
  have hkept := urlAuthority_redactUrlUserinfo ('@' :: rest)
  have hcons : ∀ l : List Char, urlAuthority ('@' :: l) = '@' :: urlAuthority l := fun _ => rfl
  rw [hcons] at hkept
  cases hout : redactUrlUserinfo ('@' :: rest) with
  | nil =>
    rw [hout] at hkept
    cases hkept
  | cons c rest' =>
    rw [hout] at hkept
    have hc : c = '@' := by
      have hbegins : '@' :: urlAuthority rest <+: c :: rest' :=
        hkept ▸ List.takeWhile_prefix _
      exact (cons_prefix_cons.mp hbegins).1.symm
    subst hc
    rw [hcons] at hkept
    refine ⟨rest', rfl, ?_⟩
    rw [(List.cons.inj hkept).2]
    exact hat

theorem urlUserinfo_stars {rest' : List Char} (hat : '@' ∉ urlAuthority rest') :
    urlUserinfo (userinfoStars ++ '@' :: rest') = some userinfoStars :=
  urlUserinfo_append (by simp [userinfoStars, endsAuthority, Lines.isWhitespace]) hat

/-! ## What the result shows -/

/-- Every userinfo of the text is `***`. -/
def AllStarred (text : List Char) : Prop :=
  ∀ before after u, text = before ++ schemeMark ++ after → urlUserinfo after = some u →
    u = userinfoStars

theorem allStarred_redactUrlUserinfo (text : List Char) : AllStarred (redactUrlUserinfo text) := by
  induction text using redactUrlUserinfo_induction with
  | absent text h =>
    intro before after u heq huser
    rw [redactUrlUserinfo_of_absent h] at heq
    exact absurd ⟨before, after, heq.symm⟩ h
  | keep head tail hfresh htail ih =>
    intro before after u heq huser
    rw [redactUrlUserinfo_keep hfresh htail] at heq
    rcases schemeMark_cases hfresh heq with ⟨rfl, rfl⟩ | ⟨m, rfl, hm⟩
    · -- the authority after this mark is the one of the text, which has no userinfo
      rw [urlUserinfo_eq_none, ← urlAuthority_redactUrlUserinfo, ← urlUserinfo_eq_none,
        huser] at htail
      cases htail
    · exact ih m after u hm huser
  | hide head u' rest hfresh htail hslash hat ih =>
    intro before after u heq huser
    rw [redactUrlUserinfo_hide hfresh htail] at heq
    obtain ⟨rest', hrest', hat'⟩ := redactUrlUserinfo_at hat
    rw [hrest'] at heq ih
    rcases schemeMark_cases hfresh heq with ⟨rfl, rfl⟩ | ⟨m, rfl, hm⟩
    · rw [urlUserinfo_stars hat'] at huser
      exact (Option.some.inj huser).symm
    · obtain ⟨m', rfl, hm'⟩ := schemeMark_skip (by decide) hm
      exact ih m' after u hm' huser

theorem redactUrlUserinfo_of_allStarred (h : AllStarred text) : redactUrlUserinfo text = text := by
  induction text using redactUrlUserinfo_induction with
  | absent text habsent => exact redactUrlUserinfo_of_absent habsent
  | keep head tail hfresh htail ih =>
    rw [redactUrlUserinfo_keep hfresh htail, ih]
    intro before after u heq huser
    refine h (head ++ schemeMark ++ before) after u ?_ huser
    rw [heq]
    simp
  | hide head u rest hfresh htail hslash hat ih =>
    obtain rfl : u = userinfoStars := h head (u ++ '@' :: rest) u rfl htail
    have hrest : AllStarred ('@' :: rest) := by
      intro before after u heq huser
      refine h (head ++ schemeMark ++ (userinfoStars ++ before)) after u ?_ huser
      rw [heq]
      simp
    rw [redactUrlUserinfo_hide hfresh htail, ih hrest]

theorem redactUrlUserinfo_eq_self : redactUrlUserinfo text = text ↔ AllStarred text := by
  constructor
  · intro h
    rw [← h]
    exact allStarred_redactUrlUserinfo text
  · exact redactUrlUserinfo_of_allStarred

/-! ## What it leaves alone -/

inductive UrlPiece where
  | kept (text : List Char)
  | userinfo (text : List Char)

def UrlPiece.source : UrlPiece → List Char
  | kept text => text
  | userinfo text => text

def UrlPiece.shown : UrlPiece → List Char
  | kept text => text
  | userinfo _ => userinfoStars

/-- The pieces make up the text, and its userinfo is exactly what they call so: each
such piece follows a piece that ends in a mark and is the userinfo there, and every mark
with userinfo has its piece. -/
structure Starred (text : List Char) (pieces : List UrlPiece) : Prop where
  source : text = pieces.flatMap UrlPiece.source
  only : ∀ pre u post, pieces = pre ++ .userinfo u :: post →
    (∃ front before, pre = front ++ [.kept (before ++ schemeMark)]) ∧
      urlUserinfo (u ++ post.flatMap UrlPiece.source) = some u
  all : ∀ before after u, text = before ++ schemeMark ++ after → urlUserinfo after = some u →
    ∃ pre post, pieces = pre ++ .userinfo u :: post ∧
      pre.flatMap UrlPiece.source = before ++ schemeMark

theorem starred_absent (h : ¬ schemeMark <:+: text) : Starred text [.kept text] where
  source := by simp [UrlPiece.source]
  only := by
    intro pre u post heq
    cases pre with
    | nil => cases heq
    | cons p pre => exact absurd (List.cons.inj heq).2 (by simp)
  all := by
    intro before after u heq
    exact absurd ⟨before, after, heq.symm⟩ h

variable {pieces : List UrlPiece}

theorem Starred.keep (h : Starred tail pieces) (hfresh : Find.Fresh schemeMark head)
    (htail : urlUserinfo tail = none) :
    Starred (head ++ schemeMark ++ tail) (.kept (head ++ schemeMark) :: pieces) where
  source := by
    rw [flatMap_cons, ← h.source]
    rfl
  only := by
    intro pre u post heq
    cases pre with
    | nil => cases heq
    | cons p pre =>
      obtain ⟨rfl, hrest⟩ := List.cons.inj heq
      obtain ⟨⟨front, before, rfl⟩, huser⟩ := h.only pre u post hrest
      exact ⟨⟨.kept (head ++ schemeMark) :: front, before, rfl⟩, huser⟩
  all := by
    intro before after u heq huser
    rcases schemeMark_cases hfresh heq with ⟨rfl, rfl⟩ | ⟨m, rfl, hm⟩
    · rw [htail] at huser
      cases huser
    · obtain ⟨pre, post, hpieces, hpre⟩ := h.all m after u hm huser
      refine ⟨.kept (head ++ schemeMark) :: pre, post, by rw [hpieces]; rfl, ?_⟩
      rw [flatMap_cons, hpre, ← append_assoc]
      rfl

theorem Starred.hide (h : Starred ('@' :: rest) pieces) (hfresh : Find.Fresh schemeMark head)
    (htail : urlUserinfo (u ++ '@' :: rest) = some u) (hslash : '/' ∉ u) :
    Starred (head ++ schemeMark ++ (u ++ '@' :: rest))
      (.kept (head ++ schemeMark) :: .userinfo u :: pieces) where
  source := by
    rw [flatMap_cons, flatMap_cons, ← h.source]
    rfl
  only := by
    intro pre u' post heq
    cases pre with
    | nil => cases heq
    | cons p pre =>
      obtain ⟨rfl, hrest⟩ := List.cons.inj heq
      cases pre with
      | nil =>
        obtain ⟨hu, rfl⟩ := List.cons.inj hrest
        cases hu
        rw [← h.source]
        exact ⟨⟨[], head, rfl⟩, htail⟩
      | cons p pre =>
        obtain ⟨rfl, hlast⟩ := List.cons.inj hrest
        obtain ⟨⟨front, before, rfl⟩, huser⟩ := h.only pre u' post hlast
        exact ⟨⟨.kept (head ++ schemeMark) :: .userinfo u :: front, before, rfl⟩, huser⟩
  all := by
    intro before after u' heq huser
    rcases schemeMark_cases hfresh heq with ⟨rfl, rfl⟩ | ⟨m, rfl, hm⟩
    · rw [htail] at huser
      cases huser
      exact ⟨[.kept (before ++ schemeMark)], pieces, rfl, append_nil _⟩
    · obtain ⟨m', rfl, hm'⟩ := schemeMark_skip hslash hm
      obtain ⟨pre, post, hpieces, hpre⟩ := h.all m' after u' hm' huser
      refine ⟨.kept (head ++ schemeMark) :: .userinfo u :: pre, post, by rw [hpieces]; rfl, ?_⟩
      rw [flatMap_cons, flatMap_cons, hpre]
      simp [UrlPiece.source]

theorem exists_starred (text : List Char) :
    ∃ pieces, Starred text pieces ∧ redactUrlUserinfo text = pieces.flatMap UrlPiece.shown := by
  induction text using redactUrlUserinfo_induction with
  | absent text h =>
    refine ⟨_, starred_absent h, ?_⟩
    rw [redactUrlUserinfo_of_absent h]
    simp [UrlPiece.shown]
  | keep head tail hfresh htail ih =>
    obtain ⟨pieces, hpieces, hout⟩ := ih
    refine ⟨_, hpieces.keep hfresh htail, ?_⟩
    rw [redactUrlUserinfo_keep hfresh htail, hout]
    rfl
  | hide head u rest hfresh htail hslash hat ih =>
    obtain ⟨pieces, hpieces, hout⟩ := ih
    refine ⟨_, hpieces.hide hfresh htail hslash, ?_⟩
    rw [redactUrlUserinfo_hide hfresh htail, hout]
    rfl

/-! ## What is shown is determined -/

/-- Up to the first mark with userinfo the loop changes nothing. -/
theorem redactUrlUserinfo_first
    (hnone : ∀ before' after, before ++ schemeMark ++ (u ++ '@' :: rest) =
      before' ++ schemeMark ++ after → before'.length < before.length → urlUserinfo after = none)
    (huser : urlUserinfo (u ++ '@' :: rest) = some u) :
    redactUrlUserinfo (before ++ schemeMark ++ (u ++ '@' :: rest)) =
      before ++ schemeMark ++ (userinfoStars ++ redactUrlUserinfo ('@' :: rest)) := by
  induction hn : before.length using Nat.strong_induction_on generalizing before with
  | _ n ih =>
    cases hsplit : Find.splitAt schemeMark (before ++ schemeMark ++ (u ++ '@' :: rest)) with
    | none => exact absurd ⟨before, _, rfl⟩ (Find.splitAt_eq_none.mp hsplit)
    | some parts =>
      obtain ⟨head, tail⟩ := parts
      obtain ⟨heq, hfresh⟩ := Find.splitAt_eq_some.mp hsplit
      -- the first mark is this one, or one before it, which has no userinfo
      rcases schemeMark_cases hfresh heq.symm with ⟨rfl, -⟩ | ⟨m, rfl, htail⟩
      · exact redactUrlUserinfo_hide hfresh huser
      · have hshorter : m.length < n := by
          rw [← hn]
          simp [schemeMark]
          omega
        have hkeep : urlUserinfo tail = none := hnone head tail heq (by simp [schemeMark])
        rw [heq, redactUrlUserinfo_keep hfresh hkeep, htail, ih m.length hshorter ?_ rfl]
        · simp
        · intro before' after hm hlt
          refine hnone (head ++ schemeMark ++ before') after ?_ (by simpa using hlt)
          rw [heq, htail, hm]
          simp

theorem Starred.later {pre post : List UrlPiece} (h : Starred text (pre ++ .userinfo u :: post)) :
    Starred (post.flatMap UrlPiece.source) post where
  source := rfl
  only := by
    rintro pre' u' post' rfl
    obtain ⟨⟨front, before, hfront⟩, huser⟩ := h.only (pre ++ .userinfo u :: pre') u' post' (by simp)
    refine ⟨?_, huser⟩
    rcases eq_nil_or_concat' pre' with rfl | ⟨init, last, rfl⟩
    · cases (append_inj' hfront rfl).2
    · rw [← cons_append, ← append_assoc] at hfront
      exact ⟨init, before, by rw [(append_inj' hfront rfl).2]⟩
  all := by
    intro before after u' heq huser
    obtain ⟨pre', post', hpieces, hpre'⟩ :=
      h.all (pre.flatMap UrlPiece.source ++ u ++ before) after u'
        (by rw [h.source]; simp [heq, UrlPiece.source]) huser
    -- the piece of this mark does not stand before `u`, where the text is too short for it
    have hlength := congrArg List.length hpre'
    rcases append_eq_append_iff.mp hpieces with ⟨w, rfl, hw⟩ | ⟨w, rfl, -⟩
    · cases w with
      | nil => simp [schemeMark] at hlength
      | cons piece w =>
        obtain ⟨rfl, rfl⟩ := List.cons.inj hw
        exact ⟨w, post', rfl, by simpa [UrlPiece.source] using hpre'⟩
    · simp [schemeMark] at hlength

def UrlPiece.isUserinfo : UrlPiece → Bool
  | kept _ => false
  | userinfo _ => true

theorem shown_eq_source (h : ∀ piece ∈ pieces, !piece.isUserinfo) :
    pieces.flatMap UrlPiece.shown = pieces.flatMap UrlPiece.source := by
  refine flatMap_congr fun piece hpiece => ?_
  have hkept := h piece hpiece
  cases piece with
  | kept text => rfl
  | userinfo text => cases hkept

theorem Starred.none_before {pre post : List UrlPiece}
    (h : Starred text (pre ++ .userinfo u :: post)) (hkept : ∀ piece ∈ pre, !piece.isUserinfo)
    (heq : text = before ++ schemeMark ++ after)
    (hlt : (before ++ schemeMark).length < (pre.flatMap UrlPiece.source).length) :
    urlUserinfo after = none := by
  cases hafter : urlUserinfo after with
  | none => rfl
  | some u' =>
    obtain ⟨pre', post', hpieces, hpre'⟩ := h.all before after u' heq hafter
    rw [← hpre'] at hlt
    -- its piece would stand among those of `pre`
    rcases append_eq_append_iff.mp hpieces with ⟨w, rfl, -⟩ | ⟨w, rfl, hw⟩
    · simp at hlt
    · cases w with
      | nil => simp at hlt
      | cons piece w =>
        obtain ⟨rfl, -⟩ := List.cons.inj hw
        exact absurd (hkept (.userinfo u') (by simp)) (by simp [UrlPiece.isUserinfo])

theorem Starred.shown (h : Starred text pieces) :
    pieces.flatMap UrlPiece.shown = redactUrlUserinfo text := by
  -- what follows the first userinfo is cut the same way, into fewer pieces
  induction hn : pieces.length using Nat.strong_induction_on generalizing text pieces with
  | _ n ih =>
    cases hfind : pieces.find? UrlPiece.isUserinfo with
    | none =>
      have hkept : ∀ piece ∈ pieces, !piece.isUserinfo := by simpa using hfind
      rw [shown_eq_source hkept, ← h.source, redactUrlUserinfo_of_allStarred]
      intro before after u heq huser
      obtain ⟨pre, post, rfl, -⟩ := h.all before after u heq huser
      exact absurd (hkept (.userinfo u) (by simp)) (by simp [UrlPiece.isUserinfo])
    | some piece =>
      obtain ⟨hpiece, pre, post, rfl, hkept⟩ := find?_eq_some_iff_append.mp hfind
      cases piece with
      | kept text => cases hpiece
      | userinfo u =>
        obtain ⟨⟨front, before, rfl⟩, huser⟩ := h.only pre u post rfl
        have hpost := ih post.length (by rw [← hn]; simp; omega) h.later rfl
        obtain ⟨rest, hrest, -⟩ := exists_of_urlUserinfo huser
        have hrest' : post.flatMap UrlPiece.source = '@' :: rest := append_cancel_left hrest
        have htext : text = front.flatMap UrlPiece.source ++ before ++ schemeMark ++
            (u ++ '@' :: rest) := by
          rw [h.source, ← hrest']
          simp [UrlPiece.source]
        rw [htext, redactUrlUserinfo_first ?_ (hrest ▸ huser), flatMap_append,
          shown_eq_source hkept, flatMap_cons, hpost, hrest']
        · simp [UrlPiece.source, UrlPiece.shown]
        · intro before' after heq hlt
          refine h.none_before hkept (htext.trans heq) ?_
          simpa [UrlPiece.source, ← Nat.add_assoc] using hlt

/-- **Credentials are removed completely, and nothing else changes.** In the result every
userinfo is `***`; the result is the text with the pieces that are userinfo replaced; and
a second pass changes nothing. -/
theorem redactUrlUserinfo_removes_credentials (text : List Char) :
    (∀ before after, redactUrlUserinfo text = before ++ schemeMark ++ after →
      '@' ∈ urlAuthority after → urlUserinfo after = some userinfoStars) ∧
    (∃ pieces, Starred text pieces ∧
      redactUrlUserinfo text = pieces.flatMap UrlPiece.shown) ∧
    redactUrlUserinfo (redactUrlUserinfo text) = redactUrlUserinfo text := by
  refine ⟨?_, exists_starred text, ?_⟩
  · intro before after heq hat
    cases huser : urlUserinfo after with
    | none => exact absurd hat (urlUserinfo_eq_none.mp huser)
    | some u => rw [allStarred_redactUrlUserinfo text before after u heq huser]
  · exact redactUrlUserinfo_of_allStarred (allStarred_redactUrlUserinfo text)

/-- A proxy with a password that holds an `@`. -/
theorem redactUrlUserinfo_removes_credentials_proxy :
    redactUrlUserinfo "http://me:p@ss@proxy/".toList = "http://***@proxy/".toList ∧
      urlUserinfo "***@proxy/".toList = some userinfoStars := by
  refine ⟨by decide, ?_⟩
  refine (redactUrlUserinfo_removes_credentials "http://me:p@ss@proxy/".toList).1
    "http".toList "***@proxy/".toList ?_ ?_ <;> decide

end Portl

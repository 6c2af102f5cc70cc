import Mathlib.Data.List.Basic
import Mathlib.Data.List.Induction

/-!
# Stream filters

A filter reads a stream in chunks, keeps a state between them and puts bytes
out as it goes; where the stream is cut makes no difference.

An *escape filter* holds back what follows an escape byte until a verdict on the
sequence is possible, and then lets it through, drops it, or lets it through and
passes the string behind it unread. Dropping a sequence joins the bytes around
it. When no dropped sequence begins inside another one (`Clean`), the output read
once more loses nothing (`read_output_stable`).
-/

namespace Stream

open List

/-! ## Filters -/

section Filter

variable {σ τ α β : Type*}

def feed (step : σ → α → List β × σ) : σ → List α → List β × σ
  | s, [] => ([], s)
  | s, b :: bs =>
    let r := step s b
    let rest := feed step r.2 bs
    (r.1 ++ rest.1, rest.2)

variable {step : σ → α → List β × σ}

theorem feed_append (s : σ) (xs ys : List α) :
    feed step s (xs ++ ys) =
      ((feed step s xs).1 ++ (feed step (feed step s xs).2 ys).1,
        (feed step (feed step s xs).2 ys).2) := by
  induction xs generalizing s with
  | nil => rfl
  | cons x xs ih => simp [feed, ih]

theorem feed_singleton (s : σ) (b : α) : feed step s [b] = step s b := by
  simp [feed]

theorem foldl_eq_feed {f : σ → α → List β → List β × σ}
    (hf : ∀ s b out, f s b out = (out ++ (step s b).1, (step s b).2)) (out : List β) (s : σ)
    (xs : List α) :
    xs.foldl (fun r b => f r.2 b r.1) (out, s) = (out ++ (feed step s xs).1, (feed step s xs).2) := by
  induction xs generalizing out s with
  | nil => simp [feed]
  | cons x xs ih =>
    rw [foldl_cons, hf, ih]
    simp [feed]

/-- **Cuts make no difference**: chunk after chunk, the filter reads the stream. -/
theorem foldl_chunks_eq_feed (out : List β) (s : σ) (chunks : List (List α)) :
    chunks.foldl (fun r chunk => (r.1 ++ (feed step r.2 chunk).1, (feed step r.2 chunk).2)) (out, s) =
      (out ++ (feed step s chunks.flatten).1, (feed step s chunks.flatten).2) := by
  induction chunks generalizing out s with
  | nil => simp [feed]
  | cons chunk chunks ih =>
    simp [feed_append, ih]

variable {R : σ → τ → Prop} {s : σ} {t : τ}

/-- The same is put out, and the states are related. -/
abbrev Alike (R : σ → τ → Prop) (r : List β × σ) (r' : List β × τ) : Prop :=
  r.1 = r'.1 ∧ R r.2 r'.2

/-- **Simulation.** Related states that put out the same and stay related read
every stream alike. -/
theorem feed_simulates {step' : τ → α → List β × τ}
    (hstep : ∀ s t b, R s t → Alike R (step s b) (step' t b)) (h : R s t) (xs : List α) :
    Alike R (feed step s xs) (feed step' t xs) := by
  induction xs generalizing s t with
  | nil => exact ⟨rfl, h⟩
  | cons b bs ih =>
    obtain ⟨hout, hnext⟩ := hstep s t b h
    obtain ⟨hrest, hlast⟩ := ih hnext
    exact ⟨by simp only [feed, hout, hrest], hlast⟩

/-- **Refinement.** A machine that may fail never does along a stream, and follows
the other one, if that is so of each step. -/
theorem foldlM_refines {f : σ → α → Option σ} {g : τ → α → τ}
    (hstep : ∀ s t a, R s t → ∃ s', f s a = some s' ∧ R s' (g t a)) (h : R s t) (xs : List α) :
    ∃ s', xs.foldlM f s = some s' ∧ R s' (xs.foldl g t) := by
  induction xs generalizing s t with
  | nil => exact ⟨s, rfl, h⟩
  | cons x xs ih =>
    obtain ⟨s', hs', hnext⟩ := hstep s t x h
    obtain ⟨last, hlast, hrel⟩ := ih hnext
    refine ⟨last, ?_, hrel⟩
    rw [foldlM_cons, hs', Option.bind_eq_bind, Option.bind_some, hlast]

end Filter

/-! ## Escape filters -/

/-- What is to be done with a sequence: read on, let it through, drop it, or let
it through and pass what follows unread. -/
inductive Verdict (ρ : Type*) where
  | more
  | flush
  | drop
  | raw (r : ρ)

/-- The escape byte, the verdict on a sequence that begins with it, and how the
state of an unread string goes on (`none` ends it). -/
structure EscapeRules (α ρ : Type*) where
  esc : α
  verdict : List α → Verdict ρ
  rawStep : ρ → α → Option ρ

inductive EscapeState (α ρ : Type*) where
  | ground
  | pending (w : List α)
  | raw (r : ρ)

namespace EscapeState

variable {α ρ : Type*}

def held : EscapeState α ρ → List α
  | .pending w => w
  | _ => []

def isPending : EscapeState α ρ → Bool
  | .pending _ => true
  | _ => false

end EscapeState

namespace EscapeRules

variable {α ρ : Type*} [DecidableEq α] (S : EscapeRules α ρ)

def settle (w : List α) : List α × EscapeState α ρ :=
  match S.verdict w with
  | .more => ([], .pending w)
  | .flush => (w, .ground)
  | .drop => ([], .ground)
  | .raw r => (w, .raw r)

/-- An escape byte begins a new sequence wherever it comes; one that is
unfinished is let through as it is. -/
def step : EscapeState α ρ → α → List α × EscapeState α ρ
  | .ground, b => if b = S.esc then ([], .pending [b]) else ([b], .ground)
  | .pending w, b => if b = S.esc then (w, .pending [b]) else S.settle (w ++ [b])
  | .raw r, b =>
    ([b], match S.rawStep r b with
      | some r' => .raw r'
      | none => .ground)

theorem step_ground_esc : S.step .ground S.esc = ([], .pending [S.esc]) := if_pos rfl

variable {b : α} {w xs : List α}

theorem step_ground (hb : b ≠ S.esc) : S.step .ground b = ([b], .ground) := if_neg hb

theorem step_pending_esc (w : List α) : S.step (.pending w) S.esc = (w, .pending [S.esc]) :=
  if_pos rfl

theorem step_pending (hb : b ≠ S.esc) (w : List α) :
    S.step (.pending w) b = S.settle (w ++ [b]) := if_neg hb

abbrev read (s : EscapeState α ρ) (xs : List α) : List α × EscapeState α ρ :=
  feed S.step s xs

variable {S} {r : List α × EscapeState α ρ}

/-- Every state that holds bytes got there by reading them from the ground. -/
structure Holds (S : EscapeRules α ρ) (w : List α) : Prop where
  head : ∃ t, w = S.esc :: t
  read : S.read .ground w = ([], .pending w)

theorem holds_esc : Holds S [S.esc] where
  head := ⟨[], rfl⟩
  read := by simp [EscapeRules.read, feed, step]

theorem Holds.more (h : Holds S w) (hb : b ≠ S.esc) (hv : S.verdict (w ++ [b]) = .more) :
    Holds S (w ++ [b]) where
  head := by
    obtain ⟨t, rfl⟩ := h.head
    exact ⟨t ++ [b], rfl⟩
  read := by
    rw [EscapeRules.read, feed_append, feed_singleton, show feed S.step .ground w = _ from h.read]
    simp [step, if_neg hb, settle, hv]

theorem Holds.read_pending (h : Holds S w) (w₀ : List α) :
    S.read (.pending w₀) w = (w₀, .pending w) := by
  obtain ⟨t, rfl⟩ := h.head
  have hground := h.read
  simp only [EscapeRules.read, feed, step, if_pos] at hground ⊢
  rw [Prod.ext_iff] at hground ⊢
  exact ⟨by simpa using hground.1, hground.2⟩

/-! ## Reading the output once more -/

def Clean (S : EscapeRules α ρ) (xs : List α) : Prop :=
  ∀ pre q post, xs = pre ++ q ++ post → S.verdict q = .drop →
    (S.read .ground pre).2.isPending = false

theorem Clean.of_append {ys : List α} (h : Clean S (xs ++ ys)) : Clean S xs := by
  intro pre q post hxs hq
  exact h pre q (post ++ ys) (by rw [hxs]; simp only [append_assoc]) hq

/-- **A filter and one that reads its output.** Both have the same state, or the
first holds bytes that the other has not seen. In that case the other holds
nothing, or what an escape byte cut short; then the sequence that is held began
inside another one. -/
inductive Synced (S : EscapeRules α ρ) (xs out : List α) :
    EscapeState α ρ → List α × EscapeState α ρ → Prop where
  | ground : Synced S xs out .ground (out, .ground)
  | raw (r : ρ) : Synced S xs out (.raw r) (out, .raw r)
  | fresh {w : List α} (hw : Holds S w) : Synced S xs out (.pending w) (out, .ground)
  | cut {w out' w₀ pre : List α} (hw : Holds S w) (hout : out = out' ++ w₀)
      (hpre : xs = pre ++ w) (hinside : (S.read .ground pre).2.isPending = true) :
      Synced S xs out (.pending w) (out', .pending w₀)

theorem Synced.output {out : List α} {s : EscapeState α ρ} (h : Synced S xs out s r) :
    r.1 ++ r.2.held = out := by
  cases h with
  | ground | raw | fresh => exact append_nil _
  | cut hw hout hpre hinside => exact hout.symm

/-- A sequence that is let through is read by the second filter from the ground,
or past what it holds: it ends where the first one does. -/
theorem read_settled (hb : b ≠ S.esc) {s' t : EscapeState α ρ}
    (ht : S.read t w = (t.held, .pending w)) (hsettle : S.settle (w ++ [b]) = (w ++ [b], s')) :
    S.read t (w ++ [b]) = (t.held ++ (w ++ [b]), s') := by
  have hlast : S.step (.pending w) b = (w ++ [b], s') := by
    simp [step, if_neg hb, hsettle]
  rw [EscapeRules.read, feed_append, feed_singleton, show feed S.step t w = _ from ht]
  simp [hlast]

variable {out out' : List α}

theorem Synced.settle {t : EscapeState α ρ} (hw : Holds S w) (hb : b ≠ S.esc)
    (ht : S.read t w = (t.held, .pending w)) (hout : out' ++ t.held = out)
    (hmore : Holds S (w ++ [b]) → Synced S xs out (.pending (w ++ [b])) (out', t))
    (hdrop : S.verdict (w ++ [b]) = .drop → Synced S xs out .ground (out', t)) :
    Synced S xs (out ++ (S.settle (w ++ [b])).1) (S.settle (w ++ [b])).2
      (out' ++ (S.read t (S.settle (w ++ [b])).1).1, (S.read t (S.settle (w ++ [b])).1).2) := by
  have hread := fun {s'} => @read_settled _ _ _ S b w hb s' t ht
  subst hout
  unfold EscapeRules.settle at *
  cases hv : S.verdict (w ++ [b]) with
  | more => simpa [EscapeRules.read, feed] using hmore (hw.more hb hv)
  | drop => simpa [EscapeRules.read, feed] using hdrop hv
  | flush =>
    rw [hv] at hread
    simpa [hread rfl] using Synced.ground
  | raw r =>
    rw [hv] at hread
    simpa [hread rfl] using Synced.raw r

theorem Synced.step {s : EscapeState α ρ} (h : Synced S xs out s r) (hs : (S.read .ground xs).2 = s)
    (hclean : Clean S (xs ++ [b])) :
    Synced S (xs ++ [b]) (out ++ (S.step s b).1) (S.step s b).2
      (r.1 ++ (S.read r.2 (S.step s b).1).1, (S.read r.2 (S.step s b).1).2) := by
  cases h with
  | ground =>
    by_cases hb : b = S.esc
    · subst hb
      have hfresh : Synced S (xs ++ [S.esc]) out (.pending [S.esc]) (out, .ground) :=
        .fresh holds_esc
      simpa [EscapeRules.step, EscapeRules.read, feed] using hfresh
    · simpa [EscapeRules.step, EscapeRules.read, feed, hb] using Synced.ground
  | raw r =>
    cases hr : S.rawStep r b with
    | some r' => simpa [EscapeRules.step, EscapeRules.read, feed, hr] using Synced.raw r'
    | none => simpa [EscapeRules.step, EscapeRules.read, feed, hr] using Synced.ground
  | @fresh w hw =>
    by_cases hb : b = S.esc
    · -- an escape byte cuts the sequence short: the second filter now holds it
      subst hb
      simp only [EscapeRules.step, if_pos, hw.read, append_nil]
      exact .cut holds_esc rfl rfl (by rw [hs]; rfl)
    · simp only [EscapeRules.step, if_neg hb]
      exact .settle hw hb hw.read (append_nil _) .fresh fun _ => .ground
  | @cut w out' w₀ pre hw hout hpre hinside =>
    by_cases hb : b = S.esc
    · subst hb hout
      simp only [EscapeRules.step, if_pos, hw.read_pending w₀]
      exact .cut holds_esc rfl rfl (by rw [hs]; rfl)
    · simp only [EscapeRules.step, if_neg hb]
      refine .settle hw hb (hw.read_pending w₀) hout.symm
        (fun hmore => .cut hmore hout (by rw [hpre, append_assoc]) hinside) fun hv => ?_
      -- it began inside another sequence, which a clean stream rules out
      have hfree := hclean pre (w ++ [b]) [] (by rw [hpre]; simp) hv
      rw [hinside] at hfree
      cases hfree

theorem synced_read (hclean : Clean S xs) :
    Synced S xs (S.read .ground xs).1 (S.read .ground xs).2
      (S.read .ground (S.read .ground xs).1) := by
  induction xs using List.reverseRecOn with
  | nil => exact .ground
  | append_singleton xs b ih =>
    have hstep := (ih hclean.of_append).step rfl hclean
    simp only [EscapeRules.read, feed_append, feed_singleton] at hstep ⊢
    exact hstep

/-- **The output is stable.** Of a clean stream, what a filter puts out goes
through a fresh filter without loss. -/
theorem read_output_stable (hclean : Clean S xs) :
    (S.read .ground (S.read .ground xs).1).1 ++ (S.read .ground (S.read .ground xs).1).2.held =
      (S.read .ground xs).1 :=
  (synced_read hclean).output

/-- A stream is clean when it is at every position, where the sequences that are
dropped have a bounded length. -/
theorem clean_of_positions {m : ℕ} (hbound : ∀ q, S.verdict q = .drop → q.length ≤ m)
    (h : ∀ i ≤ xs.length, ∀ n ≤ m, S.verdict ((xs.drop i).take n) = .drop →
      (S.read .ground (xs.take i)).2.isPending = false) : Clean S xs := by
  intro pre q post hxs hdrop
  have hpre : xs.take pre.length = pre := by
    rw [hxs, append_assoc, take_left]
  have hq : (xs.drop pre.length).take q.length = q := by
    rw [hxs, append_assoc, drop_left, take_left]
  have hi : pre.length ≤ xs.length := by
    rw [hxs]
    simp only [length_append]
    omega
  have hfree := h pre.length hi q.length (hbound q hdrop) (by rw [hq]; exact hdrop)
  rw [hpre] at hfree
  exact hfree

theorem simulated_output_stable {σ : Type*} {step' : σ → α → List α × σ}
    {R : σ → EscapeState α ρ → Prop}
    (hstep : ∀ s t b, R s t → Alike R (step' s b) (S.step t b))
    {held : σ → List α} (hheld : ∀ s t, R s t → held s = t.held) {s₀ : σ} (hs₀ : R s₀ .ground)
    (hclean : Clean S xs) :
    (feed step' s₀ (feed step' s₀ xs).1).1 ++ held (feed step' s₀ (feed step' s₀ xs).1).2 =
      (feed step' s₀ xs).1 := by
  have hout := (feed_simulates hstep hs₀ xs).1
  have hagain := feed_simulates hstep hs₀ (feed step' s₀ xs).1
  rw [hagain.1, hheld _ _ hagain.2, hout]
  exact read_output_stable hclean

end EscapeRules

end Stream

import Mathlib.Logic.Function.Basic
import Mathlib.Data.List.Basic

/-!
# Sequential processes over a connection

A process sends, waits and returns. What it waits with is a loop: a state, and a
body that reads one item and either goes round again or leaves with a value. So a
process is a finite tree although it may read without bound.

`settle` and `feed` run a process as one party among others: it sends until it has
to wait, and goes on with each item it is handed. `play` runs it against a script,
which fixes how its sends end and what it reads.
-/

/-- Sends `O`, is told `A` about each send, reads `I`, returns `ρ`. -/
inductive Proc (O A I ρ : Type) : Type 1 where
  | ret (r : ρ)
  | send (o : O) (next : A → Proc O A I ρ)
  | wait {S α : Type} (s : S) (body : S → I → S ⊕ α) (next : α → Proc O A I ρ)

namespace Proc

variable {O A I ρ τ υ : Type}

def bind : Proc O A I ρ → (ρ → Proc O A I τ) → Proc O A I τ
  | ret r, g => g r
  | send o next, g => send o fun a => (next a).bind g
  | wait s body next, g => wait s body fun b => (next b).bind g

theorem bind_assoc (p : Proc O A I ρ) (g : ρ → Proc O A I τ) (h : τ → Proc O A I υ) :
    (p.bind g).bind h = p.bind fun r => (g r).bind h := by
  induction p with
  | ret r => rfl
  | send o next ih => exact congrArg (send o) (funext fun a => ih a)
  | wait s body next ih => exact congrArg (wait s body) (funext fun b => ih b)

/-! ## One party among others -/

/-- Send until there is something to wait for; every send is answered with `a`. -/
def settle (a : A) : Proc O A I ρ → List O × Proc O A I ρ
  | ret r => ([], ret r)
  | send o next => (o :: (settle a (next a)).1, (settle a (next a)).2)
  | wait s body next => ([], wait s body next)

def feed (a : A) (p : Proc O A I ρ) (i : I) : List O × Proc O A I ρ :=
  match p with
  | wait s body next =>
    match body s i with
    | .inl s' => ([], wait s' body next)
    | .inr b => settle a (next b)
  | p => ([], p)

variable {S α : Type} {i : I} {s : S} {body : S → I → S ⊕ α} {next : α → Proc O A I ρ}

theorem feed_stay (a : A) {s' : S} (h : body s i = .inl s') :
    feed a (wait s body next) i = ([], wait s' body next) := by
  simp only [feed, h]

theorem feed_leave (a : A) {b : α} (h : body s i = .inr b) :
    feed a (wait s body next) i = settle a (next b) := by
  simp only [feed, h]

/-! ## Against a script -/

section Script

variable (aEnd : A) (iEnd : I)

def readUntil {S α : Type} (body : S → I → S ⊕ α) : S → List I → Option (α × List I)
  | s, [] =>
    match body s iEnd with
    | .inl _ => none
    | .inr b => some (b, [])
  | s, i :: is =>
    match body s i with
    | .inl s' => readUntil body s' is
    | .inr b => some (b, is)

/-- The result of a process, and what it leaves of the script: `as` are the
answers to its sends, `is` the items it reads. There is none when a loop does not
leave at the end of the script. -/
def play : Proc O A I ρ → List A → List I → Option (ρ × List A × List I)
  | ret r, as, is => some (r, as, is)
  | send _ next, as, is => (next (as.headD aEnd)).play as.tail is
  | wait s body next, as, is =>
    match readUntil iEnd body s is with
    | none => none
    | some (b, is') => (next b).play as is'

variable {S α : Type} {is is' : List I} {body : S → I → S ⊕ α}

theorem readUntil_suffix {s : S} {b : α} (h : readUntil iEnd body s is = some (b, is')) :
    is' <:+ is := by
  induction is generalizing s with
  | nil =>
    rw [readUntil] at h
    split at h
    · cases h
    · cases h
      exact List.suffix_rfl
  | cons i is ih =>
    rw [readUntil] at h
    split at h
    · exact (ih h).trans (List.suffix_cons i is)
    · cases h
      exact List.suffix_cons _ _

variable {p : Proc O A I ρ}

theorem play_suffix {as as' : List A} {r : ρ} (h : p.play aEnd iEnd as is = some (r, as', is')) :
    is' <:+ is := by
  induction p generalizing as is with
  | ret r =>
    cases h
    exact List.suffix_rfl
  | send o next ih => exact ih _ h
  | wait s body next ih =>
    rw [play] at h
    cases hread : readUntil iEnd body s is with
    | none =>
      rw [hread] at h
      cases h
    | some read =>
      rw [hread] at h
      exact (ih _ h).trans (readUntil_suffix iEnd hread)

theorem play_bind (p : Proc O A I ρ) (g : ρ → Proc O A I τ) (as : List A) (is : List I) :
    (p.bind g).play aEnd iEnd as is =
      (p.play aEnd iEnd as is).bind fun r => (g r.1).play aEnd iEnd r.2.1 r.2.2 := by
  induction p generalizing as is with
  | ret r => rfl
  | send o next ih => exact ih _ _ _
  | wait s body next ih =>
    simp only [bind, play]
    cases readUntil iEnd body s is with
    | none => rfl
    | some r => exact ih r.1 as r.2

def Closes : Proc O A I ρ → Prop
  | ret _ => True
  | send _ next => ∀ a, (next a).Closes
  | wait _ body next => (∀ s, ∃ b, body s iEnd = .inr b) ∧ ∀ b, (next b).Closes

variable {iEnd}

theorem Closes.bind {g : ρ → Proc O A I τ} (hp : p.Closes iEnd) (hg : ∀ r, (g r).Closes iEnd) :
    (p.bind g).Closes iEnd := by
  induction p with
  | ret r => exact hg r
  | send o next ih => exact fun a => ih a (hp a)
  | wait s body next ih => exact ⟨hp.1, fun b => ih b (hp.2 b)⟩

theorem readUntil_isSome (h : ∀ s, ∃ b, body s iEnd = .inr b) (s : S) (is : List I) :
    ∃ r, readUntil iEnd body s is = some r := by
  induction is generalizing s with
  | nil =>
    obtain ⟨b, hb⟩ := h s
    exact ⟨(b, []), by simp only [readUntil, hb]⟩
  | cons i is ih =>
    cases hbody : body s i with
    | inl s' =>
      obtain ⟨r, hr⟩ := ih s'
      exact ⟨r, by simp only [readUntil, hbody, hr]⟩
    | inr b => exact ⟨(b, is), by simp only [readUntil, hbody]⟩

theorem Closes.play (h : p.Closes iEnd) (as : List A) (is : List I) :
    ∃ r, p.play aEnd iEnd as is = some r := by
  induction p generalizing as is with
  | ret r => exact ⟨_, rfl⟩
  | send o next ih => exact ih _ (h _) _ _
  | wait s body next ih =>
    obtain ⟨r, hr⟩ := readUntil_isSome h.1 s is
    obtain ⟨result, hresult⟩ := ih r.1 (h.2 r.1) as r.2
    exact ⟨result, by simp only [Proc.play, hr, hresult]⟩

end Script

end Proc

import Portl.Lib.Stream

/-!
# What a filter let through and what it dropped

A filter that holds bytes back has, at every point of a run, read its input in
pieces: each was let through whole or dropped whole, and behind the last one
stand the bytes it holds. `Moves` says what one step may do for that to be so;
`exists_pieces` is the decomposition of a whole run.

A filter may pass parts of its input unread. `raw` marks the states inside such
a part: no piece that is dropped has one at any of its positions.
-/

namespace Stream

open List

section Pieces

variable {σ ε α : Type*}

/-- Consecutive inputs that were let through together, or dropped. -/
inductive Piece (ε : Type*) where
  | kept (u : List ε)
  | dropped (u : List ε)

namespace Piece

def input : Piece ε → List ε
  | .kept u => u
  | .dropped u => u

/-- What is put out for a piece whose inputs carry `bytes`. -/
def output (bytes : ε → List α) : Piece ε → List α
  | .kept u => u.flatMap bytes
  | .dropped _ => []

end Piece

/-- What a step may do with the bytes that are held and those it reads: hold them
all, let all go, let go of what was held only, or drop all. -/
inductive Moves (held : σ → List α) (raw : σ → Prop) (drops : List α → Prop) (s s' : σ)
    (read out : List α) : Prop where
  | hold (hout : out = []) (hheld : held s' = held s ++ read) (hraw : raw s → raw s')
  | pass (hout : out = held s ++ read) (hheld : held s' = [])
  | cut (hout : out = held s) (hheld : held s' = read) (hraw : ¬ raw s)
  | drop (hout : out = []) (hheld : held s' = []) (hdrop : drops (held s ++ read))
      (hraw : ¬ raw s) (hraw' : ¬ raw s')

variable {step : σ → ε → List α × σ} {bytes : ε → List α} {held : σ → List α} {raw : σ → Prop}
  {drops : List α → Prop} {s₀ : σ}

/-- **The run as pieces.** `fresh` is what lets a sequence be dropped later: it
has been outside the unread parts since its first byte. -/
structure Parted (step : σ → ε → List α × σ) (bytes : ε → List α) (held : σ → List α)
    (raw : σ → Prop) (drops : List α → Prop) (s₀ : σ) (es : List ε) (pieces : List (Piece ε))
    (last : List ε) : Prop where
  input : es = pieces.flatMap Piece.input ++ last
  held : held (feed step s₀ es).2 = last.flatMap bytes
  output : (feed step s₀ es).1 = pieces.flatMap (Piece.output bytes)
  dropped : ∀ pre u post, pieces = pre ++ Piece.dropped u :: post →
    drops (u.flatMap bytes) ∧ ∀ v, v <+: u → ¬ raw (feed step s₀ (pre.flatMap Piece.input ++ v)).2
  fresh : ¬ raw (feed step s₀ es).2 →
    ∀ v, v <+: last → ¬ raw (feed step s₀ (pieces.flatMap Piece.input ++ v)).2

theorem append_singleton_eq_append_cons {β : Type*} {xs pre post : List β} {x y : β}
    (h : xs ++ [x] = pre ++ y :: post) :
    (pre = xs ∧ y = x) ∨ ∃ post', xs = pre ++ y :: post' := by
  rcases eq_nil_or_concat post with rfl | ⟨post', z, rfl⟩
  · obtain ⟨hpre, hlast⟩ := append_inj' h rfl
    exact .inl ⟨hpre.symm, (singleton_inj.mp hlast).symm⟩
  · rw [concat_eq_append, ← cons_append, ← append_assoc] at h
    exact .inr ⟨post', (append_inj' h rfl).1⟩

namespace Parted

variable {es : List ε} {pieces : List (Piece ε)} {last : List ε} {e : ε}

theorem dropped_kept (h : Parted step bytes held raw drops s₀ es pieces last) (w : List ε) :
    ∀ pre u post, pieces ++ [Piece.kept w] = pre ++ Piece.dropped u :: post →
      drops (u.flatMap bytes) ∧
        ∀ v, v <+: u → ¬ raw (feed step s₀ (pre.flatMap Piece.input ++ v)).2 := by
  intro pre u post heq
  rcases append_singleton_eq_append_cons heq with ⟨-, hpiece⟩ | ⟨post', hpieces⟩
  · cases hpiece
  · exact h.dropped pre u post' hpieces

theorem fresh_nil {u : List ε} (hu : es = u) :
    ¬ raw (feed step s₀ es).2 → ∀ v, v <+: ([] : List ε) → ¬ raw (feed step s₀ (u ++ v)).2 := by
  intro hraw v hv
  rw [prefix_nil.mp hv, append_nil, ← hu]
  exact hraw

/-- **One step keeps the decomposition**: it leaves the pieces, or adds one. -/
theorem concat (h : Parted step bytes held raw drops s₀ es pieces last)
    (hmoves : Moves held raw drops (feed step s₀ es).2 (step (feed step s₀ es).2 e).2 (bytes e)
      (step (feed step s₀ es).2 e).1) :
    ∃ pieces' last', Parted step bytes held raw drops s₀ (es ++ [e]) pieces' last' := by
  have hrun : feed step s₀ (es ++ [e]) =
      ((feed step s₀ es).1 ++ (step (feed step s₀ es).2 e).1, (step (feed step s₀ es).2 e).2) := by
    rw [feed_append, feed_singleton]
  have hread : (last ++ [e]).flatMap bytes = held (feed step s₀ es).2 ++ bytes e := by
    rw [flatMap_append, h.held, flatMap_singleton]
  have hinput : es ++ [e] = pieces.flatMap Piece.input ++ (last ++ [e]) := by
    rw [← append_assoc, ← h.input]
  cases hmoves with
  | hold hout hheld hraw =>
    refine ⟨pieces, last ++ [e], hinput, ?_, ?_, h.dropped, ?_⟩
    · rw [hrun, hread, hheld]
    · rw [hrun, hout, append_nil, h.output]
    · intro hfree v hv
      rcases prefix_concat_iff.mp hv with rfl | hv
      · rw [← hinput]
        exact hfree
      · rw [hrun] at hfree
        exact h.fresh (fun hr => hfree (hraw hr)) v hv
  | pass hout hheld =>
    have hall : es ++ [e] = (pieces ++ [Piece.kept (last ++ [e])]).flatMap Piece.input := by
      rw [flatMap_append, flatMap_singleton]
      exact hinput
    refine ⟨pieces ++ [Piece.kept (last ++ [e])], [], ?_, ?_, ?_, h.dropped_kept _, fresh_nil hall⟩
    · rw [append_nil, ← hall]
    · rw [hrun]
      exact hheld
    · rw [hrun, hout, flatMap_append, flatMap_singleton, h.output, ← hread]
      rfl
  | cut hout hheld hraw =>
    have hall : es = (pieces ++ [Piece.kept last]).flatMap Piece.input := by
      rw [flatMap_append, flatMap_singleton]
      exact h.input
    refine ⟨pieces ++ [Piece.kept last], [e], ?_, ?_, ?_, h.dropped_kept _, ?_⟩
    · rw [← hall]
    · rw [hrun, flatMap_singleton]
      exact hheld
    · rw [hrun, hout, flatMap_append, flatMap_singleton, h.output, h.held]
      rfl
    · intro hfree v hv
      rw [← hall]
      rcases prefix_concat_iff.mp (show v <+: [] ++ [e] from hv) with rfl | hv
      · exact hfree
      · rw [prefix_nil.mp hv, append_nil]
        exact hraw
  | drop hout hheld hdrop hraw hraw' =>
    have hall : es ++ [e] = (pieces ++ [Piece.dropped (last ++ [e])]).flatMap Piece.input := by
      rw [flatMap_append, flatMap_singleton]
      exact hinput
    refine ⟨pieces ++ [Piece.dropped (last ++ [e])], [], ?_, ?_, ?_, ?_, fresh_nil hall⟩
    · rw [append_nil, ← hall]
    · rw [hrun]
      exact hheld
    · rw [hrun, hout, flatMap_append, flatMap_singleton, h.output]
      rfl
    · intro pre u post heq
      rcases append_singleton_eq_append_cons heq with ⟨rfl, hpiece⟩ | ⟨post', hpieces⟩
      · cases hpiece
        refine ⟨by rw [hread]; exact hdrop, ?_⟩
        intro v hv
        rcases prefix_concat_iff.mp hv with rfl | hv
        · rw [← hinput, hrun]
          exact hraw'
        · exact h.fresh hraw v hv
      · exact h.dropped pre u post' hpieces

end Parted

/-- **The decomposition of a run**, where every step moves bytes as it may. -/
theorem exists_pieces
    (hmoves : ∀ s e, Moves held raw drops s (step s e).2 (bytes e) (step s e).1)
    (hs₀ : held s₀ = []) (es : List ε) :
    ∃ pieces last, Parted step bytes held raw drops s₀ es pieces last := by
  induction es using List.reverseRecOn with
  | nil =>
    refine ⟨[], [], rfl, hs₀, rfl, ?_, Parted.fresh_nil rfl⟩
    intro pre u post hpieces
    cases pre with
    | nil | cons => cases hpieces
  | append_singleton es e ih =>
    obtain ⟨pieces, last, h⟩ := ih
    exact h.concat (hmoves _ e)

end Pieces

/-! ## Escape filters -/

def EscapeState.isRaw {α ρ : Type*} : EscapeState α ρ → Bool
  | .raw _ => true
  | _ => false

namespace EscapeRules

variable {α ρ : Type*} [DecidableEq α] (S : EscapeRules α ρ)

theorem step_moves (s : EscapeState α ρ) (b : α) :
    Moves EscapeState.held (fun t => t.isRaw = true) (fun w => S.verdict w = .drop) s
      (S.step s b).2 [b] (S.step s b).1 := by
  cases s with
  | ground =>
    by_cases hb : b = S.esc
    · subst hb
      rw [step_ground_esc]
      exact .hold rfl rfl (by intro h; cases h)
    · rw [S.step_ground hb]
      exact .pass rfl rfl
  | pending w =>
    by_cases hb : b = S.esc
    · subst hb
      rw [step_pending_esc]
      exact .cut rfl rfl (by intro h; cases h)
    · rw [S.step_pending hb]
      unfold settle
      cases hv : S.verdict (w ++ [b]) with
      | more => exact .hold rfl rfl (by intro h; cases h)
      | flush => exact .pass rfl rfl
      | drop => exact .drop rfl rfl hv (by intro h; cases h) (by intro h; cases h)
      | raw r => exact .pass rfl rfl
  | raw r =>
    refine .pass rfl ?_
    simp only [step]
    cases S.rawStep r b with
    | some r' => rfl
    | none => rfl

end EscapeRules

end Stream

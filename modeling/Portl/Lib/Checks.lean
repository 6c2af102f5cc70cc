import Mathlib.Data.List.Forall2

/-!
# Early-return checks

Validation code is a run of guards: test, leave with an error, go on. This
file is the small algebra of such code over `Except`. Every lemma has the same
shape: it says when the composite *succeeds*, so a chain of guards turns into
a conjunction and a loop into a quantifier. The adjacent-pair loop `walk` (the
one that carries the previous element as its state) turns into `List.IsChain`,
which is what makes global facts about the whole list reachable by induction.
-/

namespace Checks

open List

variable {ε ε' α β : Type}

/-- `if c { return Err(e) }`. -/
def failIf (c : Prop) [Decidable c] (e : ε) : Except ε Unit :=
  if c then .error e else .ok ()

/-- `if let Some(e) = o { return Err(e) }`. -/
def failSome (o : Option ε) : Except ε Unit :=
  match o with
  | some e => .error e
  | none => .ok ()

/-- `o.ok_or(e)?`. -/
def okOr (o : Option α) (e : ε) : Except ε α :=
  match o with
  | some a => .ok a
  | none => .error e

/-- `if let Some(a) = o { f(a)?; }`. -/
def whenSome (o : Option α) (f : α → Except ε Unit) : Except ε Unit :=
  match o with
  | some a => f a
  | none => .ok ()

/-- `for a in as { f(a)?; }`. -/
def forEach (f : α → Except ε Unit) : List α → Except ε Unit
  | [] => .ok ()
  | a :: as => do
    f a
    forEach f as

/-- `as.iter().map(f).collect::<Result<Vec<_>, _>>()`. -/
def collect (f : α → Except ε β) : List α → Except ε (List β)
  | [] => .ok []
  | a :: as => do
    let b ← f a
    let bs ← collect f as
    .ok (b :: bs)

/-- `as.retain(p)` with a test that may panic, which is `none`. -/
def retain (p : α → Option Bool) : List α → Option (List α)
  | [] => some []
  | a :: as => do
    let keep ← p a
    let kept ← retain p as
    some (if keep then a :: kept else kept)

/-- `let mut prev = p; for c in cs { hop(prev, c)?; prev = c; }`. -/
def walk (hop : α → α → Except ε Unit) : α → List α → Except ε Unit
  | _, [] => .ok ()
  | p, c :: cs => do
    hop p c
    walk hop c cs

/-- What holds of the result, if there is one. -/
def Ensures (x : Except ε α) (Q : α → Prop) : Prop := ∀ a, x = .ok a → Q a

/-! ## When a check succeeds -/

variable {e e' : ε} {u : Unit} {a : α} {o : Option α} {as : List α} {R : α → α → Prop} {c : Prop}
  {f : α → Except ε Unit} {k : α → Except ε β} {m x : Except ε α} {bs : List β}
  {p : α → Option Bool}

@[simp] theorem failIf_eq_ok [Decidable c] : failIf c e = .ok u ↔ ¬ c := by
  unfold failIf
  split <;> simp_all

@[simp] theorem failSome_eq_ok {o : Option ε} : failSome o = .ok u ↔ o = none := by
  cases o <;> simp [failSome]

@[simp] theorem okOr_eq_ok : okOr o e = .ok a ↔ o = some a := by
  cases o <;> simp [okOr]

@[simp] theorem whenSome_eq_ok : whenSome o f = .ok u ↔ ∀ a, o = some a → f a = .ok () := by
  cases o <;> simp [whenSome]

@[simp] theorem bind_eq_ok {b : β} : m >>= k = .ok b ↔ ∃ a, m = .ok a ∧ k a = .ok b := by
  cases m <;> simp [bind, Except.bind]

@[simp] theorem mapError_eq_ok {f : ε → ε'} : x.mapError f = .ok a ↔ x = .ok a := by
  cases x <;> simp [Except.mapError]

/-- Two guards in sequence succeed iff both do. The unit result of the first
is not an existential worth keeping. -/
@[simp] theorem exists_unit_ok {x : Except ε Unit} {p : Prop} :
    (∃ u, x = .ok u ∧ p) ↔ x = .ok () ∧ p := by
  constructor
  · rintro ⟨⟨⟩, h, hp⟩
    exact ⟨h, hp⟩
  · rintro ⟨h, hp⟩
    exact ⟨(), h, hp⟩

/-! ## When a check fails -/

theorem failIf_eq_error [Decidable c] : (failIf c e : Except ε Unit) = .error e' ↔ c ∧ e = e' := by
  unfold failIf
  split <;> simp_all

theorem okOr_eq_error : okOr o e = .error e' ↔ o = none ∧ e = e' := by
  cases o <;> simp [okOr]

theorem bind_eq_error : m >>= k = .error e ↔ m = .error e ∨ ∃ a, m = .ok a ∧ k a = .error e := by
  cases m <;> simp [bind, Except.bind]

/-! ## Loops -/

@[simp] theorem forEach_eq_ok :
    ∀ {as : List α}, forEach f as = .ok u ↔ ∀ a ∈ as, f a = .ok ()
  | [] => by simp [forEach]
  | a :: as => by
    simp only [forEach, bind_eq_ok, exists_unit_ok, forEach_eq_ok,
      forall_mem_cons]

theorem collect_eq_ok {f : α → Except ε β} :
    ∀ {as : List α} {bs : List β},
      collect f as = .ok bs ↔ List.Forall₂ (fun a b => f a = .ok b) as bs
  | [], bs => by simp [collect, eq_comm]
  | a :: as, bs => by
    simp only [collect, bind_eq_ok, collect_eq_ok, forall₂_cons_left_iff]
    constructor
    · rintro ⟨b, hb, cs, hcs, h⟩
      exact ⟨b, cs, hb, hcs, (Except.ok.inj h).symm⟩
    · rintro ⟨b, cs, hb, hcs, rfl⟩
      exact ⟨b, hb, cs, hcs, rfl⟩

theorem collect_concat_eq_ok {f : α → Except ε β} :
    collect f (as ++ [a]) = .ok bs ↔
      ∃ cs b, collect f as = .ok cs ∧ f a = .ok b ∧ bs = cs ++ [b] := by
  induction as generalizing bs with
  | nil =>
    simp only [nil_append, collect, bind_eq_ok, Except.ok.injEq]
    constructor
    · rintro ⟨b, hb, cs, rfl, rfl⟩
      exact ⟨[], b, rfl, hb, rfl⟩
    · rintro ⟨cs, b, rfl, hb, rfl⟩
      exact ⟨b, hb, [], rfl, rfl⟩
  | cons x as ih =>
    simp only [cons_append, collect, bind_eq_ok, ih, Except.ok.injEq]
    constructor
    · rintro ⟨y, hy, _, ⟨cs, b, hcs, hb, rfl⟩, rfl⟩
      exact ⟨y :: cs, b, ⟨y, hy, cs, hcs, rfl⟩, hb, rfl⟩
    · rintro ⟨_, b, ⟨y, hy, cs, hcs, rfl⟩, hb, rfl⟩
      exact ⟨y, hy, cs ++ [b], ⟨cs, b, hcs, hb, rfl⟩, rfl⟩

theorem retain_eq_some {q : α → Bool} (h : ∀ a ∈ as, p a = some (q a)) :
    retain p as = some (as.filter q) := by
  induction as with
  | nil => rfl
  | cons a as ih =>
    rw [forall_mem_cons] at h
    obtain ⟨ha, has⟩ := h
    rw [retain, ha, ih has, filter_cons]
    rfl

theorem retain_eq_none (hmem : a ∈ as) (ha : p a = none) : retain p as = none := by
  induction as with
  | nil => cases hmem
  | cons b as ih =>
    rcases mem_cons.mp hmem with rfl | hmem
    · rw [retain, ha]
      rfl
    · rw [retain, ih hmem]
      cases p b with
      | none | some => rfl

theorem exists_of_forall₂ {R : α → β → Prop} (h : List.Forall₂ R as bs) (ha : a ∈ as) :
    ∃ b ∈ bs, R a b := by
  induction h with
  | nil => cases ha
  | @cons x y _ _ hxy _ ih =>
    rcases mem_cons.mp ha with rfl | ha
    · exact ⟨y, mem_cons_self, hxy⟩
    · obtain ⟨b, hb, hab⟩ := ih ha
      exact ⟨b, mem_cons_of_mem _ hb, hab⟩

theorem exists_forall₂ {R : α → β → Prop} (h : ∀ a ∈ as, ∃ b, R a b) :
    ∃ bs, List.Forall₂ R as bs := by
  induction as with
  | nil => exact ⟨[], .nil⟩
  | cons a as ih =>
    obtain ⟨⟨b, hb⟩, has⟩ := forall_mem_cons.mp h
    obtain ⟨bs, hbs⟩ := ih has
    exact ⟨b :: bs, .cons hb hbs⟩

/-- **The adjacent-pair loop is a chain.** The loop variable `prev` is what
ties two neighbours together, so success is exactly `hop` on every adjacent
pair of the list that starts at the initial `prev`. -/
theorem walk_eq_ok {hop : α → α → Except ε Unit} :
    ∀ {p : α} {cs : List α},
      walk hop p cs = .ok u ↔
        List.IsChain (fun a b => hop a b = .ok ()) (p :: cs)
  | p, [] => by simp [walk]
  | p, c :: cs => by
    simp only [walk, bind_eq_ok, exists_unit_ok, walk_eq_ok,
      isChain_cons_cons]

/-! ## Global facts from adjacent ones -/

theorem chain_const {f : α → β} (hR : ∀ a b, R a b → f b = f a) :
    ∀ {p : α} {cs : List α}, List.IsChain R (p :: cs) →
      ∀ x ∈ p :: cs, f x = f p
  | p, [], _, x, hx => by
    rw [mem_singleton] at hx
    rw [hx]
  | p, c :: cs, h, x, hx => by
    obtain ⟨hpc, hrest⟩ := isChain_cons_cons.mp h
    rcases mem_cons.mp hx with rfl | hx
    · rfl
    · rw [chain_const hR hrest x hx, hR p c hpc]

/-- **Chain induction.** A property of (position, element) that holds at the
head and is carried over every hop holds at every position. -/
theorem chain_induction {motive : ℕ → α → Prop} {p : α} {cs : List α} (h : List.IsChain R (p :: cs))
    (hhead : motive 0 p) (hhop : ∀ i a b, R a b → motive i a → motive (i + 1) b) :
    ∀ i (hi : i < (p :: cs).length), motive i (p :: cs)[i] := by
  intro i
  induction i with
  | zero => intro _; exact hhead
  | succ i ih =>
    intro hi
    exact hhop i _ _ (isChain_iff_getElem.mp h i hi) (ih (by omega))

theorem chain_le (htrans : ∀ a b c, R a b → R b c → R a c) {l : List α} (h : List.IsChain R l) :
    ∀ i j (hi : i < j) (hj : j < l.length), R l[i] l[j] := by
  have : Trans R R R := ⟨fun {a b c} => htrans a b c⟩
  intro i j hi hj
  exact pairwise_iff_getElem.mp h.pairwise i j (by omega) hj hi

/-! ## What a check ensures -/

variable {Q : α → Prop} {R : β → Prop}

theorem Ensures.ok (h : Q a) : Ensures (.ok a : Except ε α) Q := by
  rintro _ ⟨⟩
  exact h

theorem Ensures.error : Ensures (.error e : Except ε α) Q := by
  rintro _ ⟨⟩

theorem Ensures.bind (h : Ensures x fun a => Ensures (k a) R) : Ensures (x >>= k) R := by
  intro b hb
  obtain ⟨a, ha, hb⟩ := bind_eq_ok.mp hb
  exact h a ha b hb

end Checks

import Portl.Herdr.Frames
import Portl.Lib.Ledger
import Portl.Lib.Run

/-!
# The memory budget of Herdr frames

`HerdrFrameBudget`: two semaphores count the octets that frames of the two classes may
take. A call of `read_herdr_frame` takes the permits for a frame before it allocates the
buffer and leaves them in the storage of the frame it returns; the last handle of the
frame gives them back, and so does every other way a call can end.

A call is cut here where it waits: for the header, for the permits, which may come in
parts, for the memory and for the payload.
-/

namespace Portl

namespace HerdrWire

open Checks Octets Ledger

/-! ## Calls and frames -/

/-- An `OwnedSemaphorePermit`: so many permits of the semaphore of a class. -/
structure Permit where
  large : Bool
  count : ℕ
deriving DecidableEq

structure Call where
  direction : FrameDirection
  stream : Stream

/-- Whoever may hold permits: a call of `read_herdr_frame` where it waits, and a frame
that was returned, with the number of handles that share its storage. -/
inductive Holder where
  | reading (call : Call)
  | acquiring (call : Call) (header : Header) (rest : Stream) (taken : Permit)
  | filling (call : Call) (header : Header) (rest : Stream) (permit : Permit) (framed : Bytes)
  | live (frame : RawHerdrFrame) (budget : Option Permit) (handles : ℕ)

namespace Holder

def permit : Holder → Option Permit
  | reading _ => none
  | acquiring _ _ _ taken => some taken
  | filling _ _ _ permit _ => some permit
  | live _ budget _ => budget

def held (large : Bool) (h : Holder) : ℕ :=
  match h.permit with
  | some p => if p.large = large then p.count else 0
  | none => 0

def isLive : Holder → Bool
  | live _ _ _ => true
  | _ => false

end Holder

def RawHerdrFrame.large (frame : RawHerdrFrame) : Bool :=
  match decodeTagPrefix (frame.framed.drop lengthPrefixBytes) with
  | .ok (tag, _) => isLargeFrame frame.direction tag
  | .error _ => false

structure Outcome where
  call : Call
  result : Except HerdrFrameError (Option RawHerdrFrame)

structure BudgetState where
  available : Bool → ℕ
  holders : AList fun _ : ℕ => Holder
  outcomes : List Outcome

namespace BudgetState

variable (s : BudgetState)

def new (normalBytes largeBytes : ℕ) : BudgetState where
  available := fun large => if large then largeBytes else normalBytes
  holders := ∅
  outcomes := []

def put (id : ℕ) (h : Holder) : BudgetState := { s with holders := s.holders.insert id h }

def dropHolder (id : ℕ) (h : Holder) : BudgetState :=
  { s with
    available := fun large => s.available large + h.held large
    holders := s.holders.erase id }

def record (outcome : Outcome) : BudgetState :=
  { s with outcomes := s.outcomes ++ [outcome] }

def leave (id : ℕ) (h : Holder) (call : Call)
    (result : Except HerdrFrameError (Option RawHerdrFrame)) : BudgetState :=
  (s.dropHolder id h).record ⟨call, result⟩

def afterHeader (limits : HerdrReadLimits) (id : ℕ) (call : Call) : BudgetState :=
  match readHeader call.stream with
  | .error e => s.leave id (.reading call) call (.error e)
  | .ok none => s.leave id (.reading call) call (.ok none)
  | .ok (some (header, rest)) =>
    match checkHeader call.direction limits header with
    | .error e => s.leave id (.reading call) call (.error e)
    | .ok () => s.put id (.acquiring call header rest ⟨isLargeFrame call.direction header.tag, 0⟩)

def grant (id : ℕ) (call : Call) (header : Header) (rest : Stream) (taken : Permit) (n : ℕ) :
    BudgetState :=
  if n ≤ s.available taken.large ∧ taken.count + n ≤ header.total then
    { s with
      available := fun large =>
        if taken.large = large then s.available large - n else s.available large
      holders := s.holders.insert id
        (.acquiring call header rest ⟨taken.large, taken.count + n⟩) }
  else s

def allocate (id : ℕ) (call : Call) (header : Header) (rest : Stream) (taken : Permit)
    (reserved : Bool) : BudgetState :=
  if taken.count = header.total then
    if reserved then
      s.put id (.filling call header rest taken (header.lenBuf ++ (header.tagBytes ++
        List.replicate (header.claimed - header.tagBytes.length) 0)))
    else
      s.leave id (.acquiring call header rest taken) call (.error (.allocation header.total))
  else s

def afterBody (limits : HerdrReadLimits) (id : ℕ) (call : Call) (header : Header)
    (rest : Stream) (permit : Permit) (framed : Bytes) : BudgetState :=
  match readBody call.direction limits header rest with
  | .error e => s.leave id (.filling call header rest permit framed) call (.error e)
  | .ok (frame, _) =>
    (s.put id (.live frame (some permit) 1)).record ⟨call, .ok (some frame)⟩

end BudgetState

inductive Action where
  | call (id : ℕ) (direction : FrameDirection) (stream : Stream)
  | header (id : ℕ)
  | grant (id n : ℕ)
  | timeout (id : ℕ)
  | allocate (id : ℕ) (reserved : Bool)
  | body (id : ℕ)
  | cancel (id : ℕ)
  | clone (id : ℕ)
  | dropHandle (id : ℕ)

def Action.id : Action → ℕ
  | .call id _ _ | .header id | .grant id _ | .timeout id | .allocate id _ | .body id
  | .cancel id | .clone id | .dropHandle id => id

/-- One step; what an action does not fit leaves everything as it is. A future that is
dropped takes its permits with it like an error. -/
def budgetStep (limits : HerdrReadLimits) (s : BudgetState) (a : Action) : BudgetState :=
  match a, s.holders.lookup a.id with
  | .call id direction stream, none => s.put id (.reading ⟨direction, stream⟩)
  | .header id, some (.reading call) => s.afterHeader limits id call
  | .grant id n, some (.acquiring call header rest taken) => s.grant id call header rest taken n
  | .timeout id, some (.acquiring call header rest taken) =>
    s.leave id (.acquiring call header rest taken) call (.error (.slowConsumer header.total))
  | .allocate id reserved, some (.acquiring call header rest taken) =>
    s.allocate id call header rest taken reserved
  | .body id, some (.filling call header rest permit framed) =>
    s.afterBody limits id call header rest permit framed
  | .cancel id, some h => if h.isLive then s else s.dropHolder id h
  | .clone id, some (.live frame budget handles) => s.put id (.live frame budget (handles + 1))
  | .dropHandle id, some (.live frame budget handles) =>
    if handles ≤ 1 then s.dropHolder id (.live frame budget handles)
    else s.put id (.live frame budget (handles - 1))
  | _, _ => s

def budgetRun (limits : HerdrReadLimits) (normalBytes largeBytes : ℕ) (actions : List Action) :
    BudgetState :=
  actions.foldl (budgetStep limits) (.new normalBytes largeBytes)

/-! ## One call and `read_herdr_frame` -/

/-- The result is one that `read_herdr_frame` gives on the stream of the call, with the
permits and the memory there or not. -/
def Outcome.Agrees (limits : HerdrReadLimits) (o : Outcome) : Prop :=
  ∃ env, (readHerdrFrame o.call.direction env limits o.call.stream).map (Option.map Prod.fst) =
    o.result

structure Reached (limits : HerdrReadLimits) (call : Call) (header : Header) (rest : Stream) :
    Prop where
  read : readHeader call.stream = .ok (some (header, rest))
  checked : checkHeader call.direction limits header = .ok ()

section Outcomes

variable {limits : HerdrReadLimits} {call : Call} {header : Header} {rest : Stream}
  {e : HerdrFrameError}

theorem agrees_of_header (h : readHeader call.stream = .error e) :
    Outcome.Agrees limits ⟨call, .error e⟩ := by
  refine ⟨⟨fun _ _ => true, fun _ => true⟩, ?_⟩
  rw [readHerdrFrame, h]
  rfl

theorem agrees_of_end (h : readHeader call.stream = .ok none) :
    Outcome.Agrees limits ⟨call, .ok none⟩ := by
  refine ⟨⟨fun _ _ => true, fun _ => true⟩, ?_⟩
  rw [readHerdrFrame, h]
  rfl

theorem agrees_of_check (h : readHeader call.stream = .ok (some (header, rest)))
    (hcheck : checkHeader call.direction limits header = .error e) :
    Outcome.Agrees limits ⟨call, .error e⟩ := by
  refine ⟨⟨fun _ _ => true, fun _ => true⟩, ?_⟩
  rw [readHerdrFrame_of_header h, readRest, hcheck]
  rfl

variable (h : Reached limits call header rest)
include h

theorem Reached.readHerdrFrame_eq (env : Surroundings) :
    readHerdrFrame call.direction env limits call.stream =
      (reserve env (isLargeFrame call.direction header.tag) header.total >>= fun _ =>
        readBody call.direction limits header rest).map some := by
  rw [readHerdrFrame_of_header h.read, readRest, h.checked]
  rfl

theorem Reached.agrees_timeout :
    Outcome.Agrees limits ⟨call, .error (.slowConsumer header.total)⟩ := by
  refine ⟨⟨fun _ _ => false, fun _ => true⟩, ?_⟩
  rw [h.readHerdrFrame_eq]
  rfl

theorem Reached.agrees_allocation :
    Outcome.Agrees limits ⟨call, .error (.allocation header.total)⟩ := by
  refine ⟨⟨fun _ _ => true, fun _ => false⟩, ?_⟩
  rw [h.readHerdrFrame_eq]
  rfl

theorem Reached.agrees_body :
    Outcome.Agrees limits
      ⟨call, (readBody call.direction limits header rest).map fun r => some r.1⟩ := by
  refine ⟨⟨fun _ _ => true, fun _ => true⟩, ?_⟩
  rw [h.readHerdrFrame_eq]
  cases hbody : readBody call.direction limits header rest with
  | error e => rfl
  | ok r => rfl

theorem Reached.framed {body : Bytes}
    (hbody : body.length = header.claimed - header.tagBytes.length) :
    Framed call.direction limits header.lenBuf header.tagBytes body header.tag := by
  obtain ⟨-, hlength, hle, htag⟩ := readHeader_eq_ok.mp h.read
  obtain ⟨hlimit, -⟩ := checkHeader_eq_ok.mp h.checked
  exact framed_of_parts hlength hle htag hlimit hbody

theorem Reached.frame_size {frame : RawHerdrFrame} {last : Stream}
    (hbody : readBody call.direction limits header rest = .ok (frame, last)) :
    frame.framed.length = header.total ∧
      frame.large = isLargeFrame call.direction header.tag := by
  obtain ⟨body, -, hsize, -, rfl⟩ := readBody_eq_ok.mp hbody
  have hframed := h.framed hsize
  refine ⟨hframed.length_eq, ?_⟩
  have htag : decodeTagPrefix (header.tagBytes ++ body) =
      .ok (header.tag, header.tagBytes.length) :=
    decodeTagPrefix_eq_ok.mpr ⟨_, body, rfl, rfl, hframed.tag_eq⟩
  simp only [RawHerdrFrame.large, List.drop_left' hframed.lenBuf_length, htag]

end Outcomes

/-! ## The invariant -/

def Holder.Sound (limits : HerdrReadLimits) : Holder → Prop
  | .reading _ => True
  | .acquiring call header rest taken =>
    Reached limits call header rest ∧
      taken.large = isLargeFrame call.direction header.tag
  | .filling call header rest permit framed =>
    Reached limits call header rest ∧
      permit = ⟨isLargeFrame call.direction header.tag, header.total⟩ ∧
      framed.length = header.total
  | .live frame budget _ => budget = some ⟨frame.large, frame.framed.length⟩

structure Balanced (limits : HerdrReadLimits) (capacity : Bool → ℕ) (s : BudgetState) : Prop where
  conserved : ∀ large, s.available large + total (Holder.held large) s.holders = capacity large
  sound : ∀ id h, s.holders.lookup id = some h → h.Sound limits
  agreed : ∀ o ∈ s.outcomes, o.Agrees limits

section Steps

variable {limits : HerdrReadLimits} {capacity : Bool → ℕ} {s : BudgetState} {id : ℕ}
  {h old : Holder} {call : Call}

theorem Holder.Sound.insert {m : AList fun _ : ℕ => Holder}
    (hm : ∀ id h, m.lookup id = some h → h.Sound limits) (hh : h.Sound limits) :
    ∀ id' h', (m.insert id h).lookup id' = some h' → h'.Sound limits := by
  intro id' h' hlookup
  by_cases heq : id' = id
  · subst heq
    rw [AList.lookup_insert] at hlookup
    exact Option.some.inj hlookup ▸ hh
  · rw [AList.lookup_insert_ne heq] at hlookup
    exact hm id' h' hlookup

variable (hs : Balanced limits capacity s)
include hs

theorem Balanced.put (hold : s.holders.lookup id = some old)
    (hheld : ∀ large, h.held large = old.held large) (hh : h.Sound limits) :
    Balanced limits capacity (s.put id h) := by
  refine ⟨fun large => ?_, Holder.Sound.insert hs.sound hh, hs.agreed⟩
  have hsum : total (Holder.held large) (s.holders.insert id h) + old.held large =
      total (Holder.held large) s.holders + h.held large := total_insert hold
  have hconserved := hs.conserved large
  rw [hheld] at hsum
  show s.available large + total (Holder.held large) (s.holders.insert id h) = capacity large
  omega

theorem Balanced.putFresh (hold : s.holders.lookup id = none) (hheld : ∀ large, h.held large = 0)
    (hh : h.Sound limits) : Balanced limits capacity (s.put id h) := by
  refine ⟨fun large => ?_, Holder.Sound.insert hs.sound hh, hs.agreed⟩
  show s.available large + total (Holder.held large) (s.holders.insert id h) = capacity large
  rw [total_insert_fresh hold, hheld, Nat.add_zero]
  exact hs.conserved large

theorem Balanced.dropHolder (hold : s.holders.lookup id = some h) :
    Balanced limits capacity (s.dropHolder id h) := by
  refine ⟨fun large => ?_, ?_, hs.agreed⟩
  · have hsum : total (Holder.held large) (s.holders.erase id) + h.held large =
        total (Holder.held large) s.holders := total_erase hold
    have hconserved := hs.conserved large
    show s.available large + h.held large + total (Holder.held large) (s.holders.erase id) =
      capacity large
    omega
  · intro id' h' hlookup
    by_cases heq : id' = id
    · subst heq
      rw [BudgetState.dropHolder, AList.lookup_erase] at hlookup
      cases hlookup
    · rw [BudgetState.dropHolder, AList.lookup_erase_ne heq] at hlookup
      exact hs.sound id' h' hlookup

theorem Balanced.record {o : Outcome} (ho : o.Agrees limits) :
    Balanced limits capacity (s.record o) := by
  refine ⟨hs.conserved, hs.sound, fun o' hmem => ?_⟩
  rcases List.mem_append.mp hmem with hmem | hmem
  · exact hs.agreed o' hmem
  · rw [List.mem_singleton.mp hmem]
    exact ho

theorem Balanced.leave {result : Except HerdrFrameError (Option RawHerdrFrame)}
    (hold : s.holders.lookup id = some h) (ho : Outcome.Agrees limits ⟨call, result⟩) :
    Balanced limits capacity (s.leave id h call result) :=
  (hs.dropHolder hold).record ho

theorem Balanced.afterHeader (hold : s.holders.lookup id = some (.reading call)) :
    Balanced limits capacity (s.afterHeader limits id call) := by
  unfold BudgetState.afterHeader
  split
  · next e hread => exact hs.leave hold (agrees_of_header hread)
  · next hread => exact hs.leave hold (agrees_of_end hread)
  · next header rest hread =>
      split
      · next e hcheck => exact hs.leave hold (agrees_of_check hread hcheck)
      · next hcheck =>
          apply hs.put hold
          · intro large
            exact ite_self 0
          · exact ⟨⟨hread, hcheck⟩, rfl⟩

omit hs

section Behind

variable {header : Header} {rest : Stream} {taken : Permit}

include hs

theorem Balanced.grant (hold : s.holders.lookup id = some (.acquiring call header rest taken))
    (n : ℕ) : Balanced limits capacity (s.grant id call header rest taken n) := by
  unfold BudgetState.grant
  split_ifs with hn
  · obtain ⟨hreached, hlarge⟩ := hs.sound id _ hold
    refine ⟨fun large => ?_, ?_, hs.agreed⟩
    · have hsum : total (Holder.held large) (s.holders.insert id
            (.acquiring call header rest ⟨taken.large, taken.count + n⟩)) +
          (if taken.large = large then taken.count else 0) =
          total (Holder.held large) s.holders +
            (if taken.large = large then taken.count + n else 0) := total_insert hold
      have hconserved := hs.conserved large
      show (if taken.large = large then s.available large - n else s.available large) +
        total (Holder.held large) (s.holders.insert id _) = capacity large
      -- only the semaphore of the call's own class moves
      split_ifs at hsum ⊢ with hclass
      · have hn := hn.1
        rw [hclass] at hn
        omega
      · omega
    · exact Holder.Sound.insert hs.sound ⟨hreached, hlarge⟩
  · exact hs

theorem Balanced.allocate (hold : s.holders.lookup id = some (.acquiring call header rest taken))
    (reserved : Bool) :
    Balanced limits capacity (s.allocate id call header rest taken reserved) := by
  unfold BudgetState.allocate
  obtain ⟨hreached, hlarge⟩ := hs.sound id _ hold
  split_ifs with hcount hreserved
  · apply hs.put hold
    · exact fun large => rfl
    · refine ⟨hreached, ?_, ?_⟩
      · obtain ⟨large, count⟩ := taken
        cases hlarge
        cases hcount
        rfl
      · exact (hreached.framed List.length_replicate).length_eq
  · exact hs.leave hold hreached.agrees_allocation
  · exact hs

theorem Balanced.afterBody {framed : Bytes}
    (hold : s.holders.lookup id = some (.filling call header rest taken framed)) :
    Balanced limits capacity (s.afterBody limits id call header rest taken framed) := by
  unfold BudgetState.afterBody
  obtain ⟨hreached, rfl, -⟩ := hs.sound id _ hold
  have hagrees := hreached.agrees_body
  split
  · next e hbody =>
      rw [hbody] at hagrees
      exact hs.leave hold hagrees
  · next frame last hbody =>
      rw [hbody] at hagrees
      obtain ⟨hlength, hlarge⟩ := hreached.frame_size hbody
      refine (hs.put (h := .live frame _ 1) hold (fun large => rfl) ?_).record hagrees
      show some (Permit.mk _ _) = some (Permit.mk frame.large frame.framed.length)
      rw [hlength, hlarge]

end Behind

/-- **The step.** -/
theorem Balanced.step (hs : Balanced limits capacity s) (a : Action) :
    Balanced limits capacity (budgetStep limits s a) := by
  unfold budgetStep
  split
  · next hold => exact hs.putFresh hold (fun _ => rfl) trivial
  · next hold => exact hs.afterHeader hold
  · next hold => exact hs.grant hold _
  · next hold => exact hs.leave hold (hs.sound _ _ hold).1.agrees_timeout
  · next hold => exact hs.allocate hold _
  · next hold => exact hs.afterBody hold
  · next hold =>
      split_ifs
      · exact hs
      · exact hs.dropHolder hold
  · next id frame budget handles hold =>
      have hsound : Holder.Sound limits (.live frame budget handles) := hs.sound _ _ hold
      exact hs.put hold (fun _ => rfl) hsound
  · next id frame budget handles hold =>
      have hsound : Holder.Sound limits (.live frame budget handles) := hs.sound _ _ hold
      split_ifs
      · exact hs.dropHolder hold
      · exact hs.put hold (fun _ => rfl) hsound
  · exact hs

end Steps

theorem balanced_new (limits : HerdrReadLimits) (normalBytes largeBytes : ℕ) :
    Balanced limits (fun large => if large then largeBytes else normalBytes)
      (.new normalBytes largeBytes) :=
  ⟨fun _ => rfl, fun _ _ h => (nomatch h), fun _ h => (nomatch h)⟩

/-- **The run.** -/
theorem balanced_budgetRun (limits : HerdrReadLimits) (normalBytes largeBytes : ℕ)
    (actions : List Action) :
    Balanced limits (fun large => if large then largeBytes else normalBytes)
      (budgetRun limits normalBytes largeBytes actions) := by
  have hguard : Run.Guarded (budgetStep limits) (fun _ _ => True) (.new normalBytes largeBytes)
      actions := Run.Guarded.iff_forall_mem.mpr fun _ _ => trivial
  apply hguard.invariant _ (balanced_new limits normalBytes largeBytes)
  intro s a hs _
  exact hs.step a

/-! ## What is reserved and what is there -/

namespace Holder

def liveBytes (large : Bool) : Holder → ℕ
  | live frame _ _ => if frame.large = large then frame.framed.length else 0
  | _ => 0

def inFlight (large : Bool) (h : Holder) : ℕ := if h.isLive then 0 else h.held large

def memory (large : Bool) : Holder → ℕ
  | reading _ => 0
  | acquiring _ _ _ _ => 0
  | filling call header _ _ framed =>
    if isLargeFrame call.direction header.tag = large then framed.length else 0
  | live frame _ _ => if frame.large = large then frame.framed.length else 0

variable {limits : HerdrReadLimits} {h : Holder}

theorem Sound.held_eq (hh : h.Sound limits) (large : Bool) :
    h.held large = h.inFlight large + h.liveBytes large := by
  cases h with
  | reading | acquiring | filling => rfl
  | live frame budget handles =>
    cases hh
    exact (Nat.zero_add _).symm

theorem Sound.memory_le (hh : h.Sound limits) (large : Bool) : h.memory large ≤ h.held large := by
  cases h with
  | reading | acquiring => exact Nat.zero_le _
  | filling call header rest permit framed =>
    obtain ⟨-, rfl, hlength⟩ := hh
    simp only [memory, hlength]
    exact Nat.le_refl _
  | live frame budget handles =>
    cases hh
    exact Nat.le_refl _

end Holder

namespace BudgetState

variable (s : BudgetState)

def liveBytes (large : Bool) : ℕ := total (Holder.liveBytes large) s.holders

def inFlight (large : Bool) : ℕ := total (Holder.inFlight large) s.holders

def Idle : Prop := ∀ e ∈ s.holders.entries, e.2.isLive = true

instance : Decidable s.Idle := List.decidableBAll _ _

end BudgetState

/-- **The budget is conserved.** In every state of every run the permits of a class are
available, with a call under way, or in a frame of just that size; where no call is under
way the frames and what is available make up the capacity. No buffer and no frame is in
memory that its holder has not reserved. -/
theorem herdrBudget_conserved (limits : HerdrReadLimits) (normalBytes largeBytes : ℕ)
    (actions : List Action) :
    let s := budgetRun limits normalBytes largeBytes actions
    let capacity := fun large : Bool => if large then largeBytes else normalBytes
    (∀ large, s.available large + s.inFlight large + s.liveBytes large = capacity large) ∧
    (s.Idle → ∀ large, s.liveBytes large + s.available large = capacity large) ∧
    ∀ id h, s.holders.lookup id = some h → ∀ large, h.memory large ≤ h.held large := by
  intro s capacity
  have hs : Balanced limits capacity s := balanced_budgetRun limits normalBytes largeBytes actions
  have hall : ∀ large, s.available large + s.inFlight large + s.liveBytes large =
      capacity large := by
    intro large
    have hsplit : total (Holder.held large) s.holders = s.inFlight large + s.liveBytes large :=
      total_add fun id h hlookup => (hs.sound id h hlookup).held_eq large
    rw [Nat.add_assoc, ← hsplit]
    exact hs.conserved large
  refine ⟨hall, ?_, ?_⟩
  · intro hidle large
    have hnone : s.inFlight large = 0 := by
      apply total_eq_zero
      intro id h hlookup
      rw [Holder.inFlight, if_pos (hidle _ (AList.mem_lookup_iff.mp hlookup))]
    have hsum := hall large
    rw [hnone] at hsum
    omega
  · intro id h hlookup large
    exact (hs.sound id h hlookup).memory_le large

/-- Two calls share twelve octets: the first returns its frame, the second is given what is
left and times out. -/
def twoCalls : List Action :=
  [.call 0 .clientToServer ⟨[1, 0, 0, 0, 0], .eof⟩, .call 1 .clientToServer ⟨[9, 0, 0, 0, 0], .eof⟩,
    .header 0, .header 1, .grant 0 5, .allocate 0 true, .grant 1 7, .body 0, .timeout 1, .clone 0]

theorem twoCalls_conserved :
    (budgetRun defaultLimits 12 64 twoCalls).Idle ∧
      (budgetRun defaultLimits 12 64 twoCalls).liveBytes false = 5 ∧
      (budgetRun defaultLimits 12 64 twoCalls).liveBytes false +
        (budgetRun defaultLimits 12 64 twoCalls).available false = 12 := by
  have hidle : (budgetRun defaultLimits 12 64 twoCalls).Idle := by decide
  exact ⟨hidle, by decide, (herdrBudget_conserved defaultLimits 12 64 twoCalls).2.1 hidle false⟩

/-- Calls that share a budget return what each could have returned alone. -/
theorem outcomes_agree (limits : HerdrReadLimits) (normalBytes largeBytes : ℕ)
    (actions : List Action) {o : Outcome}
    (h : o ∈ (budgetRun limits normalBytes largeBytes actions).outcomes) : o.Agrees limits :=
  (balanced_budgetRun limits normalBytes largeBytes actions).agreed o h

theorem outcomes_agree_two : ∃ o ∈ (budgetRun defaultLimits 12 64 twoCalls).outcomes,
    o.Agrees defaultLimits := by
  obtain ⟨o, ho⟩ := List.exists_mem_of_length_pos (show 0 <
    (budgetRun defaultLimits 12 64 twoCalls).outcomes.length by decide)
  exact ⟨o, ho, outcomes_agree _ _ _ _ ho⟩

end HerdrWire

end Portl

import Portl.Attach.LanePump

/-!
# Runs of the lane pump

What a step of the pump can do is said once, in `Move`; that the pump is kept sound
and that it comes to an end are read off from it.
-/

namespace Portl

open List

/-! ## What a step of the pump does -/

namespace HerdrPump

variable {Frame ε : Type} {s : HerdrPump Frame ε} {lane : ServerLane} {l : HerdrLane Frame ε}

theorem setLane_self (s : HerdrPump Frame ε) (lane : ServerLane) (l : HerdrLane Frame ε) :
    (s.setLane lane l).lanes lane = l :=
  Function.update_self ..

variable {other : ServerLane} {rest : List (LaneEvent Frame ε)} {next : HerdrPump Frame ε}

theorem setLane_of_ne (h : other ≠ lane) (s : HerdrPump Frame ε) (l : HerdrLane Frame ε) :
    (s.setLane lane l).lanes other = s.lanes other :=
  Function.update_of_ne h ..

theorem forall_setLane {P : ServerLane → HerdrLane Frame ε → Prop}
    (h : ∀ lane, P lane (s.lanes lane)) (hl : P lane l) :
    ∀ other, P other ((s.setLane lane l).lanes other) := by
  intro other
  rcases eq_or_ne other lane with rfl | hne
  · rw [setLane_self]
    exact hl
  · rw [setLane_of_ne hne]
    exact h other

theorem anyOpen_iff : s.anyOpen = true ↔ ∃ lane, (s.lanes lane).isOpen = true := by
  unfold anyOpen
  constructor
  · intro h
    simp only [Bool.or_eq_true] at h
    rcases h with (h | h) | h
    · exact ⟨_, h⟩
    · exact ⟨_, h⟩
    · exact ⟨_, h⟩
  · rintro ⟨lane, h⟩
    cases lane <;> simp [h]

theorem anyPending_iff : s.anyPending = true ↔ ∃ lane, (s.lanes lane).pending.frames ≠ [] := by
  unfold anyPending HerdrPendingFrames.isEmpty
  constructor
  · intro h
    simp only [Bool.or_eq_true, Bool.not_eq_true', isEmpty_eq_false_iff] at h
    rcases h with (h | h) | h
    · exact ⟨_, h⟩
    · exact ⟨_, h⟩
    · exact ⟨_, h⟩
  · rintro ⟨lane, h⟩
    cases lane <;> simp [h]

def writtenFrom (s : HerdrPump Frame ε) (lane : ServerLane) : List Frame :=
  s.written.filterMap fun entry => if entry.1 = lane then some entry.2 else none

def Alive (s : HerdrPump Frame ε) : Prop := s.anyOpen = true ∨ s.anyPending = true

def PhaseSound (s : HerdrPump Frame ε) : PumpPhase ε → Prop
  | .top => True
  | .drain _ | .schedule => s.Alive
  | .select => s.anyOpen = true ∧ s.anyPending = false
  | .returned (.ok ()) => s.anyOpen = false ∧ s.anyPending = false
  | .returned (.error (.lane e)) => ∃ lane, .error e ∈ (s.lanes lane).received
  | .returned (.error .write) => s.writeFailed = true
  | .panicked => False

structure Sound (s : HerdrPump Frame ε) : Prop where
  lanes : (∀ error, s.phase ≠ .returned (.error error)) →
    ∀ lane, (s.lanes lane).Sound (s.writtenFrom lane)
  phase : s.PhaseSound s.phase

/-- What the pump can do in a step. `next` is where it goes on after it has received
something, in a drain or in the `select!`. -/
inductive Move (s : HerdrPump Frame ε) : HerdrPump Frame ε → Prop
  | enter (hphase : s.phase = .top) (halive : s.Alive) : s.Move (s.goTo (.drain .control))
  | finish (hphase : s.phase = .top) (hopen : s.anyOpen = false) (hpending : s.anyPending = false) :
      s.Move (s.goTo (.returned (.ok ())))
  | pass {lane : ServerLane} (hphase : s.phase = .drain lane) : s.Move (s.goTo (afterDrain lane))
  | frame {lane : ServerLane} {frame : Frame} {rest : List (LaneEvent Frame ε)} {next : PumpPhase ε}
      (hnext : s.phase = .drain lane ∧ next = .drain lane ∨ s.phase = .select ∧ next = .top)
      (hopen : (s.lanes lane).isOpen = true) (hroom : (s.lanes lane).pending.canAccept = true)
      (hchannel : (s.lanes lane).channel = .ok (some frame) :: rest) :
      s.Move ((s.setLane lane { (s.lanes lane).got (.ok (some frame)) rest with
        pending := (s.lanes lane).pending.push frame }).goTo next)
  | ended {lane : ServerLane} {l : HerdrLane Frame ε} {next : PumpPhase ε}
      (hnext : s.phase = .drain lane ∧ next = afterDrain lane ∨ s.phase = .select ∧ next = .top)
      (hopen : (s.lanes lane).isOpen = true) (hcloses : (s.lanes lane).Closes l) :
      s.Move ((s.setLane lane l).goTo next)
  | failed {lane : ServerLane} {e : ε} {rest : List (LaneEvent Frame ε)}
      (hphase : s.phase = .drain lane ∨ s.phase = .select)
      (hopen : (s.lanes lane).isOpen = true) (hchannel : (s.lanes lane).channel = .error e :: rest) :
      s.Move ((s.setLane lane ((s.lanes lane).got (.error e) rest)).goTo
        (.returned (.error (.lane e))))
  | wrote {lane : ServerLane} {frame : Frame} {pending : HerdrPendingFrames Frame}
      (hphase : s.phase = .schedule)
      (hpop : (s.lanes lane).pending.popFront = some (frame, pending)) :
      s.Move (({ s.setLane lane { s.lanes lane with pending := pending } with
        written := s.written ++ [(lane, frame)] }.countStreaks lane).goTo .top)
  | writeFailed {lane : ServerLane} {frame : Frame} {pending : HerdrPendingFrames Frame}
      (hphase : s.phase = .schedule)
      (hpop : (s.lanes lane).pending.popFront = some (frame, pending)) :
      s.Move ({ s.setLane lane { s.lanes lane with pending := pending } with
        writeFailed := true }.goTo (.returned (.error .write)))
  | wait (hphase : s.phase = .schedule) (hpending : s.anyPending = false) : s.Move (s.goTo .select)
  | idle (hphase : s.phase = .select)
      (hconnected : ∀ lane, (s.lanes lane).isOpen = true → (s.lanes lane).connected = true) : s.Move s
  | stay {result : Except (PumpError ε) Unit} (hphase : s.phase = .returned result) : s.Move s

theorem move_drain (hphase : s.phase = .drain lane) : s.Move (s.drainReadyHerdrLaneEvents lane) := by
  unfold drainReadyHerdrLaneEvents
  split
  · next hready =>
      obtain ⟨hopen, hroom⟩ := Bool.and_eq_true_iff.mp hready
      unfold HerdrLane.tryRecv
      cases hchannel : (s.lanes lane).channel with
      | nil =>
        cases hconnected : (s.lanes lane).connected with
        | true => exact .pass hphase
        | false => exact .ended (.inl ⟨hphase, rfl⟩) hopen (.inl ⟨hchannel, hconnected, rfl⟩)
      | cons event rest =>
        rcases event with e | (_ | frame)
        · exact .failed (.inl hphase) hopen hchannel
        · exact .ended (.inl ⟨hphase, rfl⟩) hopen (.inr ⟨rest, hchannel, rfl⟩)
        · refine .frame (.inl ⟨hphase, ?_⟩) hopen hroom hchannel
          exact if_pos hopen
  · exact .pass hphase

theorem nextLane_spec (s : HerdrPump Frame ε) :
    (∃ lane, s.nextLane = some lane ∧ (s.lanes lane).pending.frames ≠ []) ∨
      s.nextLane = none ∧ s.anyPending = false := by
  unfold nextLane anyPending HerdrPendingFrames.isEmpty
  cases hcontrol : (s.lanes .control).pending.frames <;>
    cases hrender : (s.lanes .render).pending.frames <;>
    cases hbulk : (s.lanes .bulk).pending.frames <;>
    by_cases hstreak : s.controlStreak < 8 <;> by_cases hbulkTurn : 4 ≤ s.renderStreak <;>
    simp [hcontrol, hrender, hbulk, hstreak, hbulkTurn]

theorem move_schedule (hphase : s.phase = .schedule) (wrote : Bool) : s.Move (s.schedule wrote) := by
  unfold schedule
  rcases s.nextLane_spec with ⟨lane, hnext, hpending⟩ | ⟨hnext, hnone⟩
  · rw [hnext]
    show s.Move (s.writeFront lane wrote)
    unfold writeFront
    cases hpop : (s.lanes lane).pending.popFront with
    | none =>
      unfold HerdrPendingFrames.popFront at hpop
      split at hpop
      · next hempty => exact absurd hempty hpending
      · cases hpop
    | some front =>
      cases wrote with
      | true => exact .wrote hphase hpop
      | false => exact .writeFailed hphase hpop
  · rw [hnext]
    exact .wait hphase hnone

theorem ready_iff : s.ready lane = true ↔ (s.lanes lane).isOpen = true ∧
    ((s.lanes lane).connected = true → (s.lanes lane).channel ≠ []) := by
  unfold ready
  rw [Bool.and_eq_true_iff]
  refine and_congr_right fun _ => ?_
  rcases (s.lanes lane).recv_cases with ⟨hchannel, hon, hrecv⟩ | ⟨hchannel, hoff, hrecv⟩ |
      ⟨event, rest, hchannel, hrecv⟩
  · simp [hchannel, hon, hrecv]
  · simp [hoff, hrecv]
  · simp [hchannel, hrecv]

theorem canAccept_of_idle (hpending : s.anyPending = false)
    (hroom : 0 < (s.lanes lane).pending.max) : (s.lanes lane).pending.canAccept = true := by
  have hempty : (s.lanes lane).pending.frames = [] := by
    by_contra hne
    rw [anyPending_iff.mpr ⟨lane, hne⟩] at hpending
    cases hpending
  unfold HerdrPendingFrames.canAccept
  rw [hempty]
  exact decide_eq_true hroom

theorem move_select (hphase : s.phase = .select) (hopen : s.anyOpen = true)
    (hroom : ∀ lane, (s.lanes lane).pending.canAccept = true) : s.Move s.select := by
  unfold select
  rw [if_pos hopen]
  cases hfind : [ServerLane.control, .render, .bulk].find? s.ready with
  | none =>
    refine .idle hphase fun lane hlane => ?_
    have hnot : ¬ s.ready lane = true := by
      apply List.find?_eq_none.mp hfind lane
      cases lane <;> decide
    by_contra hoff
    exact hnot (ready_iff.mpr ⟨hlane, fun hon => absurd hon hoff⟩)
  | some lane =>
    have hready := List.find?_some hfind
    obtain ⟨hlane, hsome⟩ := ready_iff.mp hready
    dsimp only
    rcases (s.lanes lane).recv_cases with ⟨hchannel, hon, -⟩ | ⟨hchannel, hoff, hrecv⟩ |
        ⟨event, rest, hchannel, hrecv⟩
    · exact absurd hchannel (hsome hon)
    · rw [hrecv]
      exact .ended (.inr ⟨hphase, rfl⟩) hlane (.inl ⟨hchannel, hoff, rfl⟩)
    · rw [hrecv]
      rcases event with e | (_ | frame)
      · exact .failed (.inr hphase) hlane hchannel
      · exact .ended (.inr ⟨hphase, rfl⟩) hlane (.inr ⟨rest, hchannel, rfl⟩)
      · exact .frame (.inr ⟨hphase, rfl⟩) hlane (hroom lane) hchannel

theorem move_advance (hselect : s.phase = .select → s.Move s.select) (hpanic : s.phase ≠ .panicked)
    (wrote : Bool) : s.Move (s.advance wrote) := by
  unfold advance
  cases hphase : s.phase with
  | top =>
    dsimp only
    split
    · next halive => exact .enter hphase (Bool.or_eq_true_iff.mp halive)
    · next hdead =>
        obtain ⟨hopen, hpending⟩ := Bool.or_eq_false_iff.mp (Bool.not_eq_true _ ▸ hdead)
        exact .finish hphase hopen hpending
  | drain lane => exact move_drain hphase
  | schedule => exact move_schedule hphase wrote
  | select => exact hselect hphase
  | returned result => exact .stay hphase
  | panicked => exact absurd hphase hpanic

theorem Sound.move (h : s.Sound) (wrote : Bool) : s.Move (s.advance wrote) := by
  refine move_advance (fun hphase => ?_) (fun hphase => ?_) wrote
  · have hselect := h.phase
    rw [hphase] at hselect
    exact move_select hphase hselect.1 fun lane =>
      canAccept_of_idle hselect.2 (h.lanes (by simp [hphase]) lane).room
  · have hsound := h.phase
    rw [hphase] at hsound
    exact hsound

/-! ## Every step keeps the pump sound -/

theorem alive_setLane (h : other ≠ lane ∧ (s.lanes other).isOpen = true ∨
    s.anyPending = true)
    (hpending : l.pending = (s.lanes lane).pending) : (s.setLane lane l).Alive := by
  rcases h with ⟨hne, hopen⟩ | hsome
  · left
    refine anyOpen_iff.mpr ⟨other, ?_⟩
    rw [setLane_of_ne hne]
    exact hopen
  · right
    obtain ⟨front, hfront⟩ := anyPending_iff.mp hsome
    refine anyPending_iff.mpr ⟨front, ?_⟩
    rcases eq_or_ne front lane with rfl | hne
    · rw [setLane_self, hpending]
      exact hfront
    · rw [setLane_of_ne hne]
      exact hfront

theorem afterDrain_sound (h : s.Alive) (lane : ServerLane) : s.PhaseSound (afterDrain lane) := by
  cases lane
  · exact h
  · exact h
  · exact h

theorem writtenFrom_append (s : HerdrPump Frame ε) (lane other : ServerLane) (frame : Frame) :
    (s.written ++ [(lane, frame)]).filterMap
        (fun entry => if entry.1 = other then some entry.2 else none) =
      s.writtenFrom other ++ if lane = other then [frame] else [] := by
  rw [filterMap_append]
  congr 1
  by_cases hlane : lane = other
  · simp [hlane]
  · simp [hlane]

theorem lanes_setLane (h : ∀ lane, (s.lanes lane).Sound (s.writtenFrom lane))
    (hl : l.Sound (s.writtenFrom lane)) :
    ∀ other, ((s.setLane lane l).lanes other).Sound (s.writtenFrom other) :=
  forall_setLane (P := fun lane l => l.Sound (s.writtenFrom lane)) h hl

theorem Move.lanes (hmove : s.Move next)
    (h : (∀ error, s.phase ≠ .returned (.error error)) →
      ∀ lane, (s.lanes lane).Sound (s.writtenFrom lane))
    (hnot : ∀ error, next.phase ≠ .returned (.error error)) (other : ServerLane) :
    (next.lanes other).Sound (next.writtenFrom other) := by
  cases hmove with
  | enter hphase | finish hphase | pass hphase | wait hphase => exact h (by simp [hphase]) other
  | @frame lane _ _ _ hnext hopen hroom hchannel =>
    have hlanes := h (by rcases hnext with ⟨hphase, -⟩ | ⟨hphase, -⟩ <;> simp [hphase])
    exact lanes_setLane hlanes ((hlanes lane).receiveFrame hchannel hopen hroom) other
  | @ended lane _ _ hnext hopen hcloses =>
    have hlanes := h (by rcases hnext with ⟨hphase, -⟩ | ⟨hphase, -⟩ <;> simp [hphase])
    exact lanes_setLane hlanes (hcloses.sound (hlanes lane)) other
  | failed => exact absurd rfl (hnot _)
  | @wrote lane frame pending hphase hpop =>
    have hlanes := h (by simp [hphase])
    have hkept : ((s.setLane lane { s.lanes lane with pending := pending }).lanes other).Sound
        ((s.written ++ [(lane, frame)]).filterMap
          fun entry => if entry.1 = other then some entry.2 else none) := by
      rw [writtenFrom_append]
      rcases eq_or_ne other lane with rfl | hne
      · rw [setLane_self, if_pos rfl]
        exact (hlanes other).pop hpop
      · rw [setLane_of_ne hne, if_neg hne.symm, append_nil]
        exact hlanes other
    cases lane <;> exact hkept
  | writeFailed => exact absurd rfl (hnot _)
  | idle hphase => exact h hnot other
  | stay hphase => exact h hnot other

theorem ended_sound {phase : PumpPhase ε} (hfed : s.FedAt s.phase)
    (hnext : s.phase = .drain lane ∧ phase = afterDrain lane ∨ s.phase = .select ∧ phase = .top)
    (hopen : (s.lanes lane).isOpen = true) (hcloses : (s.lanes lane).Closes l) :
    (s.setLane lane l).PhaseSound phase := by
  rcases hnext with ⟨hphase, rfl⟩ | ⟨-, rfl⟩
  · rw [hphase] at hfed
    have halive : (s.setLane lane l).Alive := by
      rcases hfed hopen hcloses.atEnd with ⟨other, hother⟩ | hpending
      · exact alive_setLane (.inl hother) hcloses.pending
      · exact alive_setLane (.inr hpending : lane ≠ lane ∧ _ ∨ _) hcloses.pending
    exact afterDrain_sound halive lane
  · trivial

theorem Move.phaseSound (hmove : s.Move next) (h : s.PhaseSound s.phase) (hfed : s.FedAt s.phase) :
    next.PhaseSound next.phase := by
  cases hmove with
  | enter hphase halive => exact halive
  | finish hphase hopen hpending => exact ⟨hopen, hpending⟩
  | @pass lane hphase =>
    rw [hphase] at h
    exact afterDrain_sound h lane
  | @frame lane frame rest phase hnext =>
    rcases hnext with ⟨-, rfl⟩ | ⟨-, rfl⟩
    · right
      refine anyPending_iff.mpr ⟨lane, ?_⟩
      show ((s.setLane lane _).lanes lane).pending.frames ≠ []
      rw [setLane_self]
      exact concat_ne_nil _ _
    · trivial
  | ended hnext hopen hcloses => exact ended_sound hfed hnext hopen hcloses
  | @failed lane e rest =>
    refine ⟨lane, ?_⟩
    show .error e ∈ ((s.setLane lane _).lanes lane).received
    rw [setLane_self]
    exact mem_append_right _ (mem_singleton_self _)
  | wrote => trivial
  | writeFailed => rfl
  | wait hphase hpending =>
    rw [hphase] at h
    refine ⟨?_, hpending⟩
    rcases h with hopen | hsome
    · exact hopen
    · rw [hpending] at hsome
      cases hsome
  | idle => exact h
  | stay => exact h

theorem Sound.advance (h : s.Sound) (hfed : s.FedAt s.phase) (wrote : Bool) :
    (s.advance wrote).Sound :=
  ⟨(h.move wrote).lanes h.lanes, (h.move wrote).phaseSound h.phase hfed⟩

theorem Sound.outside (h : s.Sound) (hopen : l.isOpen = (s.lanes lane).isOpen)
    (hpending : l.pending = (s.lanes lane).pending) (hreceived : l.received = (s.lanes lane).received)
    (hl : (s.lanes lane).Sound (s.writtenFrom lane) → l.Sound (s.writtenFrom lane)) :
    (s.setLane lane l).Sound := by
  have hsame : ∀ other, ((s.setLane lane l).lanes other).isOpen = (s.lanes other).isOpen ∧
      ((s.setLane lane l).lanes other).pending = (s.lanes other).pending ∧
      ((s.setLane lane l).lanes other).received = (s.lanes other).received :=
    forall_setLane (P := fun other l => l.isOpen = (s.lanes other).isOpen ∧
        l.pending = (s.lanes other).pending ∧ l.received = (s.lanes other).received)
      (fun _ => ⟨rfl, rfl, rfl⟩) ⟨hopen, hpending, hreceived⟩
  have hanyOpen : (s.setLane lane l).anyOpen = s.anyOpen := by
    simp only [anyOpen, (hsame _).1]
  have hanyPending : (s.setLane lane l).anyPending = s.anyPending := by
    simp only [anyPending, (hsame _).2.1]
  refine ⟨fun hphase => lanes_setLane (h.lanes hphase) (hl (h.lanes hphase lane)), ?_⟩
  have hphase := h.phase
  show (s.setLane lane l).PhaseSound s.phase
  cases hwhere : s.phase with
  | top => trivial
  | drain _ | schedule | select =>
    rw [hwhere] at hphase
    simpa only [PhaseSound, Alive, hanyOpen, hanyPending] using hphase
  | returned result =>
    rw [hwhere] at hphase
    rcases result with (e | _) | _
    · obtain ⟨other, hmem⟩ := hphase
      refine ⟨other, ?_⟩
      rw [(hsame other).2.2]
      exact hmem
    · exact hphase
    · simpa only [PhaseSound, hanyOpen, hanyPending] using hphase
  | panicked =>
    rw [hwhere] at hphase
    exact hphase

theorem Sound.step {event : PumpEvent Frame ε} (h : s.Sound) (hfed : s.Fed event) :
    (s.step event).Sound := by
  cases event with
  | send lane event =>
    refine h.outside ?_ ?_ ?_ fun hl => hl.send event
    all_goals
      unfold HerdrLane.send
      split
      · rfl
      · rfl
  | hangUp lane => exact h.outside rfl rfl rfl fun hl => hl.hangUp
  | run wrote => exact h.advance hfed wrote

theorem Sound.new : (HerdrPump.new : HerdrPump Frame ε).Sound :=
  ⟨fun _ lane => .new (by cases lane <;> decide), trivial⟩

/-! ## The pump returns -/

/-- Each event is received and each frame written; a lane that is open has its end to
receive. -/
def weight (l : HerdrLane Frame ε) : ℕ :=
  2 * (l.channel.length + l.isOpen.toNat) + l.pending.frames.length

def rank : PumpPhase ε → ℕ
  | .top => 6
  | .drain .control => 5
  | .drain .render => 4
  | .drain .bulk => 3
  | .schedule => 2
  | .select => 1
  | .returned _ | .panicked => 0

def total (s : HerdrPump Frame ε) : ℕ :=
  weight (s.lanes .control) + weight (s.lanes .render) + weight (s.lanes .bulk)

def work (s : HerdrPump Frame ε) : ℕ := 8 * s.total + rank s.phase

theorem total_setLane (s : HerdrPump Frame ε) (lane : ServerLane) (l : HerdrLane Frame ε) :
    (s.setLane lane l).total + weight (s.lanes lane) = s.total + weight l := by
  unfold total
  cases lane
  · rw [setLane_self, setLane_of_ne (by decide), setLane_of_ne (by decide)]
    omega
  · rw [setLane_self, setLane_of_ne (by decide), setLane_of_ne (by decide)]
    omega
  · rw [setLane_self, setLane_of_ne (by decide), setLane_of_ne (by decide)]
    omega

theorem weight_frame {frame : Frame} (hchannel : l.channel = .ok (some frame) :: rest) :
    weight { l.got (.ok (some frame)) rest with pending := l.pending.push frame } < weight l := by
  simp only [weight, HerdrLane.got, HerdrPendingFrames.push, hchannel, length_append,
    length_cons, length_nil]
  omega

theorem weight_error {e : ε} (hchannel : l.channel = .error e :: rest) :
    weight (l.got (.error e) rest) < weight l := by
  simp only [weight, HerdrLane.got, hchannel, length_cons]
  omega

theorem weight_closes {l' : HerdrLane Frame ε} (hopen : l.isOpen = true) (hcloses : l.Closes l') :
    weight l' < weight l := by
  rcases hcloses with ⟨hchannel, -, rfl⟩ | ⟨rest, hchannel, rfl⟩
  · simp only [weight, hopen, Bool.toNat_true, Bool.toNat_false]
    omega
  · simp only [weight, HerdrLane.got, hchannel, hopen, length_cons, Bool.toNat_true,
      Bool.toNat_false]
    omega

theorem weight_pop {frame : Frame} {pending : HerdrPendingFrames Frame}
    (hpop : l.pending.popFront = some (frame, pending)) :
    weight { l with pending := pending } < weight l := by
  unfold HerdrPendingFrames.popFront at hpop
  split at hpop
  · cases hpop
  · next frames hframes =>
      cases hpop
      simp only [weight, hframes, length_cons]
      omega

theorem rank_le (phase : PumpPhase ε) : rank phase ≤ 6 := by
  rcases phase with _ | ⟨_ | _ | _⟩ | _ | _ | _ | _ <;> simp [rank]

theorem work_setLane_lt (h : weight l < weight (s.lanes lane)) (next : PumpPhase ε) :
    ((s.setLane lane l).goTo next).work < s.work := by
  show 8 * (s.setLane lane l).total + rank next < 8 * s.total + rank s.phase
  have htotal := s.total_setLane lane l
  have hrank := rank_le next
  omega

theorem work_goTo_lt {next : PumpPhase ε} (h : rank next < rank s.phase) :
    (s.goTo next).work < s.work :=
  Nat.add_lt_add_left h _

theorem Move.work_lt (hmove : s.Move next) (h : s.Sound)
    (hoff : ∀ lane, (s.lanes lane).connected = false) :
    (∃ result, s.phase = .returned result) ∨ next.work < s.work := by
  cases hmove with
  | enter hphase | finish hphase => exact .inr (work_goTo_lt (by simp [hphase, rank]))
  | @pass lane hphase =>
    refine .inr (work_goTo_lt ?_)
    cases lane <;> simp [hphase, rank, afterDrain]
  | frame hnext hopen hroom hchannel => exact .inr (work_setLane_lt (weight_frame hchannel) _)
  | ended hnext hopen hcloses => exact .inr (work_setLane_lt (weight_closes hopen hcloses) _)
  | failed hphase hopen hchannel => exact .inr (work_setLane_lt (weight_error hchannel) _)
  | @wrote lane frame pending hphase hpop =>
    right
    have hless := work_setLane_lt (weight_pop hpop) (.top : PumpPhase ε)
    cases lane <;> exact hless
  | writeFailed hphase hpop =>
    right
    have hless := work_setLane_lt (weight_pop hpop) (.returned (.error .write) : PumpPhase ε)
    exact hless
  | wait hphase => exact .inr (work_goTo_lt (by simp [hphase, rank]))
  | idle hphase hconnected =>
    have hselect := h.phase
    rw [hphase] at hselect
    obtain ⟨lane, hopen⟩ := anyOpen_iff.mp hselect.1
    have hon := hconnected lane hopen
    rw [hoff lane] at hon
    cases hon
  | stay hphase => exact .inl ⟨_, hphase⟩

theorem Move.connected (hmove : s.Move next) (hoff : ∀ lane, (s.lanes lane).connected = false) :
    ∀ lane, (next.lanes lane).connected = false := by
  cases hmove with
  | enter | finish | pass | wait | idle | stay => exact hoff
  | @frame lane _ _ _ _ _ _ _ =>
    exact forall_setLane (P := fun _ l => l.connected = false) hoff (hoff lane)
  | @failed lane _ _ _ _ _ =>
    exact forall_setLane (P := fun _ l => l.connected = false) hoff (hoff lane)
  | @writeFailed lane _ _ _ _ =>
    exact forall_setLane (P := fun _ l => l.connected = false) hoff (hoff lane)
  | @wrote lane _ pending _ _ =>
    have hkept : ∀ other, ((s.setLane lane { s.lanes lane with pending := pending }).lanes
        other).connected = false :=
      forall_setLane (P := fun _ l => l.connected = false) hoff (hoff lane)
    cases lane <;> exact hkept
  | @ended lane _ _ _ _ hcloses =>
    refine forall_setLane (P := fun _ l => l.connected = false) hoff ?_
    rcases hcloses with ⟨-, -, rfl⟩ | ⟨rest, -, rfl⟩
    · exact hoff lane
    · exact hoff lane

structure Outcome (s : HerdrPump Frame ε) : Prop where
  noPanic : s.phase ≠ .panicked
  ok : s.phase = .returned (.ok ()) → ∀ lane,
    (s.lanes lane).connected = false ∧ (s.lanes lane).received = (s.lanes lane).sent ∧
      (∀ e, .error e ∉ (s.lanes lane).sent) ∧
      s.writtenFrom lane = HerdrLane.framesOf (s.lanes lane).received
  laneError : ∀ e, s.phase = .returned (.error (.lane e)) →
    ∃ lane, .error e ∈ (s.lanes lane).received
  writeError : s.phase = .returned (.error .write) → s.writeFailed = true

theorem Sound.outcome (h : s.Sound) : s.Outcome := by
  have hphase := h.phase
  refine ⟨fun hwhere => ?_, fun hwhere lane => ?_, fun e hwhere => ?_, fun hwhere => ?_⟩
  · rw [hwhere] at hphase
    exact hphase
  · have hlane := h.lanes (by simp [hwhere]) lane
    rw [hwhere] at hphase
    obtain ⟨hnoneOpen, hnonePending⟩ := hphase
    have hclosed : (s.lanes lane).isOpen = false := by
      by_contra hopen
      rw [anyOpen_iff.mpr ⟨lane, Bool.of_not_eq_false hopen⟩] at hnoneOpen
      cases hnoneOpen
    have hempty : (s.lanes lane).pending.frames = [] := by
      by_contra hsome
      rw [anyPending_iff.mpr ⟨lane, hsome⟩] at hnonePending
      cases hnonePending
    obtain ⟨hchannel, hoff⟩ := hlane.closed hclosed
    have hsent : (s.lanes lane).received = (s.lanes lane).sent := by
      rw [hlane.ledger, hchannel, append_nil]
    refine ⟨hoff, hsent, ?_, ?_⟩
    · rw [← hsent]
      exact hlane.clean
    · rw [hlane.frames, hempty, append_nil]
  · rw [hwhere] at hphase
    exact hphase
  · rw [hwhere] at hphase
    exact hphase

theorem Sound.run (events : List (PumpEvent Frame ε))
    (hfed : Run.Guarded HerdrPump.step HerdrPump.Fed .new events) :
    (events.foldl HerdrPump.step .new).Sound :=
  hfed.invariant (I := Sound) (fun _ _ h hok => h.step hok) Sound.new

theorem Sound.returns (h : s.Sound) (hoff : ∀ lane, (s.lanes lane).connected = false)
    {writes : List Bool}
    (hfed : Run.Guarded HerdrPump.step HerdrPump.Fed s (writes.map .run))
    (hlength : s.work < writes.length) :
    ∃ result, ((writes.map .run).foldl HerdrPump.step s).phase = .returned result := by
  rw [foldl_map]
  have hruns := hfed.of_map
  refine hruns.reaches (I := fun s => s.Sound ∧ ∀ lane, (s.lanes lane).connected = false)
    (E := fun s => ∃ result, s.phase = .returned result) work ?_ ?_ ?_ ⟨h, hoff⟩ hlength
  · rintro s wrote ⟨h, hoff⟩ hok
    exact ⟨h.advance hok wrote, (h.move wrote).connected hoff⟩
  · rintro s wrote ⟨h, hoff⟩ -
    exact (h.move wrote).work_lt h hoff
  · rintro s wrote ⟨result, hphase⟩
    refine ⟨result, ?_⟩
    show (s.advance wrote).phase = .returned result
    unfold HerdrPump.advance
    rw [hphase]
    exact hphase

end HerdrPump

/-- **The pump returns.** In every run in which no drain finds the end of the last
open lane with nothing pending: the pump does not panic; it returns `Ok` after all
lanes have ended and what was received has been written, and an error after an
error; and it returns, once the reader tasks are gone. -/
theorem lane_pump_returns {Frame ε : Type} (events : List (PumpEvent Frame ε)) (writes : List Bool)
    (hfed : Run.Guarded HerdrPump.step HerdrPump.Fed .new (events ++ writes.map .run)) :
    (events.foldl HerdrPump.step .new).Outcome ∧
      ((∀ lane, ((events.foldl HerdrPump.step .new).lanes lane).connected = false) →
        (events.foldl HerdrPump.step .new).work < writes.length →
        ∃ result, ((events ++ writes.map PumpEvent.run).foldl HerdrPump.step .new).phase =
          .returned result) := by
  obtain ⟨hfirst, hlast⟩ := hfed.of_append
  have hsound := HerdrPump.Sound.run events hfirst
  refine ⟨hsound.outcome, fun hoff hlength => ?_⟩
  rw [foldl_append]
  exact hsound.returns hoff hlast hlength

/-- A frame on the control lane, whose end is then awaited in the `select!`. -/
def onlyControl : List (PumpEvent ℕ Unit) :=
  [.hangUp .render, .hangUp .bulk, .run true, .run true, .run true, .run true, .run true,
    .send .control (.ok (some 7)), .run true, .run true, .run true, .run true, .run true, .run true,
    .run true, .run true, .run true, .run true, .run true, .send .control (.ok none)]

theorem lane_pump_returns_control :
    (onlyControl.foldl HerdrPump.step .new).Outcome ∧
      ∃ result, ((onlyControl ++ (List.replicate 34 true).map PumpEvent.run).foldl HerdrPump.step
        .new).phase = .returned result := by
  have hfed : Run.Guarded HerdrPump.step HerdrPump.Fed .new
      (onlyControl ++ (List.replicate 34 true).map .run) := by decide +kernel
  have hpump := lane_pump_returns onlyControl (List.replicate 34 true) hfed
  exact ⟨hpump.1, hpump.2 (by decide +kernel) (by decide +kernel)⟩

/-- All three lanes end at once, with nothing to write. -/
theorem lane_pump_panics :
    (([.send .control (.ok none), .send .render (.ok none), .send .bulk (.ok none), .run true,
      .run true, .run true, .run true, .run true, .run true] : List (PumpEvent ℕ Unit)).foldl
      HerdrPump.step .new).phase = .panicked := by
  rfl

end Portl

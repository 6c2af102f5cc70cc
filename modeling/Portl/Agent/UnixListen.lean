import Mathlib.Logic.Function.Basic
import Portl.Lib.Run

/-!
# Listening on a Unix socket

A request to listen with cleanup tests what is at its path, removes a socket nobody
answers on, and binds; a listener that ends removes the socket at the path. Each
file-system call is a step of its own.
-/

namespace Portl

inductive SocketPathEntry where
  | socket (owner : ℕ)
  | leftover
  | other
deriving DecidableEq

/-- Where a request stands: the call it makes next, or how it ended. -/
inductive ListenPhase where
  | idle
  | stat
  | connect
  | removeStale
  | bind
  | listening
  | dropStat
  | dropRemove
  | dropListener
  | done
deriving DecidableEq

/-- The listener is there. It is dropped behind the cleanup. -/
def ListenPhase.isOpen (phase : ListenPhase) : Bool :=
  phase = .listening ∨ phase = .dropStat ∨ phase = .dropRemove ∨ phase = .dropListener

/-- The listener is there, and has not removed its socket. -/
def ListenPhase.isLive (phase : ListenPhase) : Bool :=
  phase = .listening ∨ phase = .dropStat ∨ phase = .dropRemove

/-- The path, the requests, and whether one has removed the socket of another's live
listener. -/
structure SocketPath where
  entry : Option SocketPathEntry
  phase : ℕ → ListenPhase
  robbed : Bool

inductive ListenStep where
  | request (id : ℕ)
  | call (id : ℕ)
  | finish (id : ℕ)
deriving DecidableEq

namespace SocketPath

/-- A path with nothing, a socket that is left over, or something else. -/
def start (leftover : Option Bool) : SocketPath :=
  ⟨leftover.map fun socket => if socket then .leftover else .other, fun _ => .idle, false⟩

def moveTo (s : SocketPath) (id : ℕ) (phase : ListenPhase) : SocketPath :=
  { s with phase := Function.update s.phase id phase }

/-- `unix_socket_is_active`. -/
def isActive (s : SocketPath) : Bool :=
  match s.entry with
  | some (.socket owner) => (s.phase owner).isOpen
  | _ => false

def isSocket (s : SocketPath) : Bool :=
  match s.entry with
  | some (.socket _) | some .leftover => true
  | _ => false

def robs (s : SocketPath) (id : ℕ) : Bool :=
  match s.entry with
  | some (.socket owner) => owner ≠ id && (s.phase owner).isLive
  | _ => false

def removeFile (s : SocketPath) (id : ℕ) : SocketPath :=
  { s with entry := none, robbed := s.robbed || s.robs id }

def call (s : SocketPath) (id : ℕ) : SocketPath :=
  match s.phase id with
  | .stat =>
    if s.entry = none then s.moveTo id .bind
    else if s.isSocket then s.moveTo id .connect
    else s.moveTo id .done
  | .connect => s.moveTo id (if s.isActive then .done else .removeStale)
  | .removeStale =>
    if s.entry = none then s.moveTo id .done else (s.removeFile id).moveTo id .bind
  | .bind =>
    if s.entry = none then { s with entry := some (.socket id) }.moveTo id .listening
    else s.moveTo id .done
  | .dropStat => s.moveTo id (if s.isSocket then .dropRemove else .dropListener)
  | .dropRemove => (s.removeFile id).moveTo id .dropListener
  | .dropListener => s.moveTo id .done
  | _ => s

def step (s : SocketPath) : ListenStep → SocketPath
  | .request id => if s.phase id = .idle then s.moveTo id .stat else s
  | .call id => s.call id
  | .finish id => if s.phase id = .listening then s.moveTo id .dropStat else s

/-- A live listener's socket was not removed by others, and there is one at most. -/
def Owned (s : SocketPath) : Prop :=
  s.robbed = false ∧ ∀ i j, (s.phase i).isLive → (s.phase j).isLive → i = j

/-- Where a request removes a socket it found dead, no listener has come since. -/
def Undisturbed (s : SocketPath) : ListenStep → Prop
  | .call id => s.phase id = .removeStale → s.isActive = false
  | _ => True

instance undisturbedDecidable (s : SocketPath) : ∀ action, Decidable (s.Undisturbed action)
  | .call id => inferInstanceAs (Decidable (s.phase id = .removeStale → s.isActive = false))
  | .request _ | .finish _ => isTrue trivial

/-- The socket of a live listener is at the path. -/
structure Sound (s : SocketPath) : Prop where
  owner : ∀ id, (s.phase id).isLive → s.entry = some (.socket id)
  clean : s.robbed = false

variable {s : SocketPath} {id : ℕ} {phase : ListenPhase}

@[grind =] theorem moveTo_phase (s : SocketPath) (id : ℕ) (phase : ListenPhase) (other : ℕ) :
    (s.moveTo id phase).phase other = if other = id then phase else s.phase other :=
  Function.update_apply _ _ _ _

theorem Sound.call (h : s.Sound) (hok : s.Undisturbed (.call id)) : (s.call id).Sound := by
  obtain ⟨howner, hclean⟩ := h
  dsimp only [Undisturbed] at hok
  unfold SocketPath.call
  cases hphase : s.phase id with
  | removeStale =>
    -- a live listener would answer, so that none loses its socket
    dsimp only
    split_ifs <;> constructor <;>
      grind [moveTo, removeFile, robs, isActive, ListenPhase.isLive, ListenPhase.isOpen]
  | bind =>
    -- with nothing at the path there is no live listener
    dsimp only
    split_ifs <;> constructor <;> grind [moveTo, ListenPhase.isLive]
  | dropRemove =>
    -- what is at the path is the listener's own socket
    constructor <;> grind [moveTo, removeFile, robs, ListenPhase.isLive]
  | _ =>
    dsimp only
    (try split_ifs) <;> constructor <;> grind [moveTo, ListenPhase.isLive]

theorem Sound.step (h : s.Sound) (action : ListenStep) (hok : s.Undisturbed action) :
    (s.step action).Sound := by
  cases action with
  | call id => exact h.call hok
  | _ =>
    obtain ⟨howner, hclean⟩ := h
    dsimp only [SocketPath.step]
    split_ifs <;> constructor <;> grind [moveTo, ListenPhase.isLive]

/-- **One listener owns the path**, in every state of an undisturbed run. -/
theorem unix_listener_owned (leftover : Option Bool) {steps : List ListenStep}
    (hundisturbed : Run.Guarded step Undisturbed (start leftover) steps) :
    (steps.foldl step (start leftover)).Owned := by
  have hsound : (steps.foldl step (start leftover)).Sound :=
    hundisturbed.invariant (fun _ action h hok => h.step action hok)
      ⟨fun _ hlive => (by cases hlive), rfl⟩
  refine ⟨hsound.clean, fun i j hi hj => ?_⟩
  cases (hsound.owner i hi).symm.trans (hsound.owner j hj)
  rfl

/-- A listener takes the place of a dead socket, and ends. -/
def takeover : List ListenStep :=
  [.request 0, .call 0, .call 0, .call 0, .call 0, .request 1, .call 1, .call 1, .finish 0, .call 0,
    .call 0, .call 0]

theorem unix_listener_owned_takeover :
    Run.Guarded step Undisturbed (start (some true)) takeover ∧
      (takeover.foldl step (start (some true))).Owned :=
  ⟨by decide, unix_listener_owned (some true) (by decide)⟩

/-- Two requests find the same dead socket. The first removes it and listens, and the
second removes the socket of the first. -/
theorem unix_listener_robbed : ¬ ([ListenStep.request 0, .request 1, .call 0, .call 1, .call 0,
    .call 1, .call 0, .call 0, .call 1, .call 1].foldl step (start (some true))).Owned := by
  intro howned
  exact absurd howned.1 (by decide)

end SocketPath

end Portl

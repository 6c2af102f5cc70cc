import Portl.Lib.Run

/-!
# Agent forwarding over an SSH connection

Every session channel asks for a listener at the one path that its connection has for
the agent (`remote_agent_path`), and the agent makes the directory of the path anew.
-/

namespace Portl

/-- The directory of the agent socket, the channel whose listener bound the socket in it,
and the channels whose forward goes on, or is closed and has its listener still. `refused`
says that a forward failed while another channel was open. -/
structure AgentForwards where
  parent : Bool
  socket : Option ℕ
  opened : List ℕ
  closing : List ℕ
  refused : Bool

inductive AgentChannelStep where
  | openChannel (id : ℕ)
  | closeChannel (id : ℕ)
  | dropListener (id : ℕ)

namespace AgentForwards

def start : AgentForwards := ⟨false, none, [], [], false⟩

/-- `create_private_agent_parent`: a directory that is there is not made again. -/
def createPrivateAgentParent (s : AgentForwards) : Option AgentForwards :=
  if s.parent then none else some { s with parent := true }

/-- `start_agent_forward_if_requested`. There is no socket in a directory just made. -/
def startAgentForward (s : AgentForwards) (id : ℕ) : AgentForwards :=
  match s.createPrivateAgentParent with
  | none => { s with refused := s.refused || !s.opened.isEmpty }
  | some made => { made with socket := some id, opened := id :: s.opened }

/-- A closed forward leaves its listener to the agent, which removes the socket and then
the directory. -/
def step (s : AgentForwards) : AgentChannelStep → AgentForwards
  | .openChannel id => s.startAgentForward id
  | .closeChannel id =>
    if id ∈ s.opened then { s with opened := s.opened.erase id, closing := id :: s.closing } else s
  | .dropListener id =>
    if id ∈ s.closing then
      { s with closing := s.closing.erase id, socket := none, parent := false }
    else s

/-- No forward failed with another channel open, and open channels have their socket. -/
def Works (s : AgentForwards) : Prop := s.refused = false ∧ ∀ id ∈ s.opened, s.socket = some id

def Alone (s : AgentForwards) : AgentChannelStep → Prop
  | .openChannel _ => s.opened = []
  | _ => True

/-- The directory is there for one listener. -/
def Single (s : AgentForwards) : Prop :=
  s.parent = false ∧ s.opened = [] ∧ s.closing = [] ∨
    s.parent = true ∧ ∃ id, s.socket = some id ∧
      (s.opened = [id] ∧ s.closing = [] ∨ s.opened = [] ∧ s.closing = [id])

variable {s : AgentForwards}

theorem Single.step (h : s.Single) (action : AgentChannelStep) : (s.step action).Single := by
  obtain ⟨parent, socket, opened, closing, refused⟩ := s
  rcases h with ⟨rfl, rfl, rfl⟩ | ⟨rfl, id, rfl, ⟨rfl, rfl⟩ | ⟨rfl, rfl⟩⟩ <;> cases action <;>
    grind [AgentForwards.step, startAgentForward, createPrivateAgentParent, Single]

theorem Single.works_iff (h : s.Single) (hworks : s.Works) (action : AgentChannelStep) :
    (s.step action).Works ↔ s.Alone action := by
  obtain ⟨parent, socket, opened, closing, refused⟩ := s
  rcases h with ⟨rfl, rfl, rfl⟩ | ⟨rfl, id, rfl, ⟨rfl, rfl⟩ | ⟨rfl, rfl⟩⟩ <;> cases action <;>
    grind [AgentForwards.step, startAgentForward, createPrivateAgentParent, Works, Alone]

/-- **Agent forwarding works in every state of a run exactly if** no channel is opened
while another is open. -/
theorem agent_forwards_work_iff (steps : List AgentChannelStep) :
    (∀ front, front <+: steps → (front.foldl step start).Works) ↔
      Run.Guarded step Alone start steps := by
  refine @Run.Guarded.iff_lockstep AgentForwards _ _ _ _ _ Unit (fun t _ => t)
    (fun _ s => s.Single) (fun _ s => s.Works) (fun _ _ action h => h.step action)
    (fun _ _ action h hworks => h.works_iff hworks action) () (.inl ⟨rfl, rfl, rfl⟩) ⟨rfl, ?_⟩
  exact fun _ hid => absurd hid List.not_mem_nil

def inTurn : List AgentChannelStep :=
  [.openChannel 0, .closeChannel 0, .dropListener 0, .openChannel 1]

theorem agent_forwards_work_in_turn : (inTurn.foldl step start).Works :=
  (agent_forwards_work_iff inTurn).mpr ⟨rfl, trivial, trivial, rfl, trivial⟩ inTurn List.prefix_rfl

theorem second_agent_forward_refused :
    ¬ ([AgentChannelStep.openChannel 0, .openChannel 1].foldl step start).Works := by
  intro hworks
  exact absurd hworks.1 (by decide)

end AgentForwards

end Portl

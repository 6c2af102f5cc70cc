import Portl.Lib.Proc
import Portl.Ticket.Schema

/-!
# The mailbox client

`rendezvous/mailbox.rs`: the driver of one connection to a mailbox server. A
command is sent and its answer awaited; messages of the mailbox may come at any
time in between, one's own among them, and those that come while something else
is awaited are kept in a queue.

A client action is a process (`Lib/Proc.lean`) that passes the state of the
client along. Its sends are told how they ended, and what it reads is a frame or
the error of the transport.
-/

namespace Portl

/-! ## Frames -/

inductive ClientMessage where
  | bind (appid side : String)
  | allocate
  | claim (nameplate : String)
  | release (nameplate : String)
  | openMailbox (mailbox : String)
  | add (phase : String) (body : Bytes)
  | close (mailbox mood : Option String)
deriving DecidableEq

structure PhaseMessage where
  side : String
  phase : String
  body : Bytes
  id : String
deriving DecidableEq

/-- `ServerMessage`; the value of a `welcome` is its JSON text. -/
inductive ServerMessage where
  | welcome (welcome : String)
  | allocated (nameplate : String)
  | claimed (mailbox : String)
  | released
  | closed (mood : Option String)
  | ack (id : String)
  | message (message : PhaseMessage)
  | error (error : String)
deriving DecidableEq

/-- `MailboxError`. The texts of `Unexpected` are kept apart by what they report:
a frame, a phase, or a full queue. -/
inductive MailboxError where
  | server (error : String)
  | transport (error : String)
  | unexpectedFrame (expected : String) (got : ServerMessage)
  | unexpectedPhase (expected got : String)
  | pendingExceeded
  | closed (mood : Option String)
deriving DecidableEq

/-! ## The client -/

/-- `MailboxClient`, without its transport. -/
structure MailboxClient where
  appid : String
  side : String
  mailbox : Option String
  bound : Bool
  pending : List PhaseMessage
deriving DecidableEq

def MailboxClient.new (appid side : String) : MailboxClient := ⟨appid, side, none, false, []⟩

def maxPendingMessages : Nat := 64

abbrev Sent := Except MailboxError Unit
abbrev Received := Except MailboxError ServerMessage

abbrev MailboxProc := Proc ClientMessage Sent Received

/-- An action of the client with errors `ε`. -/
def ClientM (ε α : Type) : Type 1 := MailboxClient → MailboxProc (Except ε α × MailboxClient)

namespace ClientM

variable {ε ε' α β : Type}

def pure (a : α) : ClientM ε α := fun c => .ret (.ok a, c)

def fail (e : ε) : ClientM ε α := fun c => .ret (.error e, c)

def bind (x : ClientM ε α) (g : α → ClientM ε β) : ClientM ε β := fun c =>
  (x c).bind fun r =>
    match r.1 with
    | .ok a => g a r.2
    | .error e => .ret (.error e, r.2)

instance : Monad (ClientM ε) where
  pure := pure
  bind := bind

/-- The conversion that `?` makes. -/
def liftError (f : ε → ε') (x : ClientM ε α) : ClientM ε' α := fun c =>
  (x c).bind fun r => .ret (r.1.mapError f, r.2)

/-- `let _ = x`. -/
def ignore (x : ClientM ε α) : ClientM ε' Unit := fun c =>
  (x c).bind fun r => .ret (.ok (), r.2)

def modify (f : MailboxClient → MailboxClient) : ClientM ε Unit := fun c => .ret (.ok (), f c)

end ClientM

namespace MailboxClient

def bufferPending (c : MailboxClient) (m : PhaseMessage) : Except MailboxError MailboxClient :=
  if c.pending.length ≥ maxPendingMessages then .error .pendingExceeded
  else .ok { c with pending := c.pending ++ [m] }

/-- `transport.send(msg).await?`. -/
def send (msg : ClientMessage) : ClientM MailboxError Unit := fun c =>
  .send msg fun sent => .ret (sent, c)

def ensureBound : ClientM MailboxError Unit := fun c =>
  if c.bound then ClientM.pure () c
  else (send (.bind c.appid c.side)).bind (fun _ => ClientM.modify fun c => { c with bound := true }) c

/-- What a waiting function does with a frame that is neither an error nor a
message. -/
inductive Heard (α : Type) where
  | skip
  | done (a : α)
  | refuse (e : MailboxError)

def hearSetup {α : Type} (judge : ServerMessage → Heard α) (c : MailboxClient) (r : Received) :
    MailboxClient ⊕ (Except MailboxError α × MailboxClient) :=
  match r with
  | .error e => .inr (.error e, c)
  | .ok (.error error) => .inr (.error (.server error), c)
  | .ok (.message m) =>
    match c.bufferPending m with
    | .ok c' => .inl c'
    | .error e => .inr (.error e, c)
  | .ok frame =>
    match judge frame with
    | .skip => .inl c
    | .done a => .inr (.ok a, c)
    | .refuse e => .inr (.error e, c)

def awaitFrame {α : Type} (judge : ServerMessage → Heard α) : ClientM MailboxError α := fun c =>
  .wait c (hearSetup judge) .ret

/-- `recv_meaningful_setup`, with the loop of `recv_meaningful` inside it. -/
def recvMeaningfulSetup : ClientM MailboxError ServerMessage :=
  awaitFrame fun frame =>
    match frame with
    | .ack _ => .skip
    | other => .done other

def awaitCommandAccepted : ClientM MailboxError Unit :=
  awaitFrame fun frame =>
    match frame with
    | .ack _ => .done ()
    | other => .refuse (.unexpectedFrame "ack" other)

def awaitClosed : ClientM MailboxError Unit :=
  awaitFrame fun frame =>
    match frame with
    | .ack _ => .skip
    | .closed _ => .done ()
    | other => .refuse (.unexpectedFrame "closed" other)

def awaitWelcome : ClientM MailboxError Unit := do
  match ← recvMeaningfulSetup with
  | .welcome _ => ClientM.pure ()
  | other => ClientM.fail (.unexpectedFrame "welcome" other)

structure MailboxSetup where
  nameplate : String
  mailbox : String
deriving DecidableEq

def claimNameplateAndOpen (nameplate : String) : ClientM MailboxError MailboxSetup := do
  send (.claim nameplate)
  match ← recvMeaningfulSetup with
  | .claimed mailbox =>
    send (.openMailbox mailbox)
    awaitCommandAccepted
    ClientM.modify fun c => { c with mailbox := some mailbox }
    ClientM.pure ⟨nameplate, mailbox⟩
  | other => ClientM.fail (.unexpectedFrame "claimed" other)

def claimAndOpen (nameplate : String) : ClientM MailboxError MailboxSetup := do
  ensureBound
  awaitWelcome
  claimNameplateAndOpen nameplate

def sendPhase (phase : String) (body : Bytes) : ClientM MailboxError Unit := do
  send (.add phase body)
  awaitCommandAccepted

/-- The queue from its front: one's own messages go, and the first of the peer
ends it, well or not. -/
def takePending (side expectedPhase : String) :
    List PhaseMessage → Option (Except MailboxError PhaseMessage) × List PhaseMessage
  | [] => (none, [])
  | m :: rest =>
    if m.side = side then takePending side expectedPhase rest
    else if m.phase ≠ expectedPhase then
      (some (.error (.unexpectedPhase expectedPhase m.phase)), rest)
    else (some (.ok m), rest)

/-- One round of the loop when the queue is empty, with the one of
`recv_meaningful` inside it. -/
def hearPhase (side expectedPhase : String) (_ : Unit) (r : Received) :
    Unit ⊕ Except MailboxError PhaseMessage :=
  match r with
  | .error e => .inr (.error e)
  | .ok (.ack _) => .inl ()
  | .ok (.error error) => .inr (.error (.server error))
  | .ok (.message m) =>
    if m.side = side then .inl ()
    else if m.phase ≠ expectedPhase then .inr (.error (.unexpectedPhase expectedPhase m.phase))
    else .inr (.ok m)
  | .ok (.closed mood) => .inr (.error (.closed mood))
  | .ok other => .inr (.error (.unexpectedFrame "message" other))

def recvPhaseFromPeer (expectedPhase : String) : ClientM MailboxError PhaseMessage := fun c =>
  match takePending c.side expectedPhase c.pending with
  | (some result, rest) => .ret (result, { c with pending := rest })
  | (none, rest) =>
    .wait () (hearPhase c.side expectedPhase) fun result => .ret (result, { c with pending := rest })

def closeWith (mood : String) : ClientM MailboxError Unit := do
  send (.close none (some mood))
  awaitClosed

def closeHappy : ClientM MailboxError Unit := closeWith "happy"

def closeScary (reason : String) : ClientM MailboxError Unit := closeWith ("scary: " ++ reason)

end MailboxClient

end Portl

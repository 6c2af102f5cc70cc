import Portl.Agent.Pairing
import Portl.Store.SessionShare

/-!
# The labels of a home directory

A home directory has one `peers.json` and one `tickets.json`, and a label is
looked up in both. `save_ticket_at` and `import_session_share` look for a new label
in both files; `handle_pair` and `save_accepted_peer` look for it among the peers
only. So a peer takes the label of a ticket when the machine's name happens to be one.
-/

namespace Portl

/-! ## The accepting side of a pairing -/

def PairRelationship.acceptorPeerFlags (r : PairRelationship) : Bool × Bool :=
  (r.acceptorAcceptsFromInviter, r.inviterAcceptsFromAcceptor)

/-- `InviteCode`, as far as the acceptor's store depends on it. -/
structure InviteCode where
  inviterEid : Bytes32
  initiator : InitiatorMode
deriving DecidableEq

structure SaveAcceptedPeerOptions where
  responderSelfLabel : Option String
  responderRelayHint : Option String
  now : UInt64
deriving DecidableEq

structure AcceptedPeer where
  label : String
  endpointIdHex : String
  relationship : String
deriving DecidableEq

def eidStart (eidHex : String) (chars : Nat) : String := String.ofList (eidHex.toList.take chars)

def chooseLocalLabel (peers : PeerStore) (responderSelfLabel : Option String)
    (inviterEidHex : String) : String :=
  let candidate := responderSelfLabel.getD (eidStart inviterEidHex 8)
  if peers.hasLabel candidate then candidate ++ "-" ++ eidStart inviterEidHex 4 else candidate

def acceptorRelationshipSentence (responderSelfLabel : Option String) (invite : InviteCode) :
    String :=
  let label := responderSelfLabel.getD "peer"
  match invite.initiator with
  | .mutual => label ++ " and you can reach each other."
  | .me => label ++ " can reach you; you cannot reach " ++ label ++ "."
  | .them => "you can reach " ++ label ++ "; " ++ label ++ " cannot reach you."

def acceptedEntry (invite : InviteCode) (options : SaveAcceptedPeerOptions) (peers : PeerStore) :
    PeerEntry :=
  let flags := invite.initiator.relationship.acceptorPeerFlags
  let inviterEidHex := Hex.encode invite.inviterEid.toList
  { label := chooseLocalLabel peers options.responderSelfLabel inviterEidHex
    endpointIdHex := inviterEidHex
    acceptsFromThem := flags.1
    theyAcceptFromMe := flags.2
    since := options.now
    origin := .paired
    lastHoldAt := none
    isSelf := false
    relayHint := options.responderRelayHint
    schemaVersion := 2 }

/-- `save_accepted_peer`; `fault` makes the save fail. -/
def saveAcceptedPeer (invite : InviteCode) (options : SaveAcceptedPeerOptions) (fault : Bool)
    (path : String) (file : PeersFile) : Except String AcceptedPeer × PeersFile :=
  match PeerStore.load path file with
  | .error err => (.error err, file)
  | .ok peers =>
    let entry := acceptedEntry invite options peers
    match peers.insertOrUpdate entry with
    | none => (.error "insert paired peer locally", file)
    | some peers' =>
      if fault then (.error "save peer store", file)
      else
        (.ok ⟨entry.label, entry.endpointIdHex,
          acceptorRelationshipSentence options.responderSelfLabel invite⟩, .stored peers')

/-! ## The home directory -/

structure Home where
  stores : Stores
  pairPath : String
  invites : StoredJson PairStoreFile

def Home.pairFiles (home : Home) : PairFiles :=
  ⟨home.pairPath, home.stores.peersPath, home.invites, home.stores.peers⟩

/-- `handle_pair` with nothing in between; each of its four accesses may fail. -/
def handlePair (lower : Char → List Char) (call : PairCall) (faults : Vector Bool 4)
    (files : PairFiles) : PairPhase × PairFiles :=
  faults.toList.foldl (fun r fault => r.1.next lower call fault r.2) (.start, files)

/-- One operation. `issue` is whatever the invite commands leave in
`pending_invites.json`. -/
inductive HomeStep where
  | issue (invites : StoredJson PairStoreFile)
  | handlePair (call : PairCall) (faults : Vector Bool 4)
  | saveAcceptedPeer (invite : InviteCode) (options : SaveAcceptedPeerOptions) (fault : Bool)
  | ticket (command : TicketCommand)

section Steps

variable (P : Primitives) (decodeString : String → Except String PortlTicket)
  (lower : Char → List Char)

def Home.step (home : Home) (step : HomeStep) : Home :=
  match step with
  | .issue invites => { home with invites := invites }
  | .handlePair call faults =>
    let files := (Portl.handlePair lower call faults home.pairFiles).2
    { home with invites := files.invites, stores.peers := files.peers }
  | .saveAcceptedPeer invite options fault =>
    { home with
      stores.peers :=
        (Portl.saveAcceptedPeer invite options fault home.stores.peersPath home.stores.peers).2 }
  | .ticket command => { home with stores := home.stores.step P decodeString lower command }

def Home.run (steps : List HomeStep) (home : Home) : Home :=
  steps.foldl (Home.step P decodeString lower) home

end Steps

def PeerStore.Distinct (peers : PeerStore) : Prop :=
  ∀ a ∈ peers.entries.entries, ∀ b ∈ peers.entries.entries, a.2.label = b.2.label → a.1 = b.1

/-- **One label, one entry** of `peers.json` and `tickets.json` together. -/
def Home.LabelsGlobal (home : Home) : Prop :=
  ∃ peers tickets, PeerStore.load home.stores.peersPath home.stores.peers = .ok peers ∧
    TicketStore.load home.stores.ticketsPath home.stores.tickets = .ok tickets ∧
    LabelsUnique peers tickets ∧ peers.Distinct

def Home.empty (pairPath peersPath ticketsPath : String) : Home :=
  ⟨⟨peersPath, ticketsPath, .missing, .missing⟩, pairPath, .missing⟩

/-! ## The labels a pairing may take -/

/-- The labels `choose_label` has to choose from. -/
def chooseLabelFrom (lower : Char → List Char) (callerLabel forLabelHint : Option String)
    (callerEidHex : String) : List String :=
  let candidate := machineLabelFromHint lower (forLabelHint.or callerLabel) callerEidHex
  candidate ::
    match beforeLastDash candidate with
    | none => [candidate ++ "-" ++ endpointSuffix callerEidHex 6]
    | some base => [6, 8, 12, 16, 64].map fun len => base ++ "-" ++ endpointSuffix callerEidHex len

theorem chooseLabel_mem (lower : Char → List Char) (peers : PeerStore)
    (callerLabel forLabelHint : Option String) (callerEidHex : String) :
    chooseLabel lower peers callerLabel forLabelHint callerEidHex ∈
      chooseLabelFrom lower callerLabel forLabelHint callerEidHex := by
  unfold chooseLabel chooseLabelFrom extendMachineLabelUntilUnique
  generalize machineLabelFromHint lower (forLabelHint.or callerLabel) callerEidHex = candidate
  simp only
  split_ifs with hused
  · cases beforeLastDash candidate with
    | none => exact List.mem_cons_of_mem _ List.mem_cons_self
    | some base =>
      simp only
      rcases hfind : List.find? _ _ with _ | label
      · exact List.mem_cons_self
      · exact List.mem_cons_of_mem _ (List.mem_of_find?_eq_some hfind)
  · exact List.mem_cons_self

/-- The labels `choose_local_label` has to choose from. -/
def chooseLocalLabelFrom (responderSelfLabel : Option String) (inviterEidHex : String) :
    List String :=
  let candidate := responderSelfLabel.getD (eidStart inviterEidHex 8)
  [candidate, candidate ++ "-" ++ eidStart inviterEidHex 4]

theorem chooseLocalLabel_mem (peers : PeerStore) (responderSelfLabel : Option String)
    (inviterEidHex : String) :
    chooseLocalLabel peers responderSelfLabel inviterEidHex ∈
      chooseLocalLabelFrom responderSelfLabel inviterEidHex := by
  unfold chooseLocalLabel chooseLocalLabelFrom
  simp only
  split_ifs with hused
  · exact List.mem_cons_of_mem _ List.mem_cons_self
  · exact List.mem_cons_self

/-- The labels a call of `handle_pair` may give to its caller. -/
def PairCall.labels (lower : Char → List Char) (call : PairCall) (files : PairFiles) :
    List String :=
  match PairStoreFile.load files.pairPath files.invites with
  | .error _ => []
  | .ok store =>
    match store.findByNonce call.nonceHex with
    | none => []
    | some invite =>
      chooseLabelFrom lower call.request.callerLabel invite.forLabelHint call.callerEidHex

def HomeStep.peerLabels (lower : Char → List Char) (home : Home) (step : HomeStep) : List String :=
  match step with
  | .handlePair call _ => call.labels lower home.pairFiles
  | .saveAcceptedPeer invite options _ =>
    chooseLocalLabelFrom options.responderSelfLabel (Hex.encode invite.inviterEid.toList)
  | _ => []

/-- `tickets.json` has a ticket of the label. -/
def Stores.hasTicket (stores : Stores) (label : String) : Bool :=
  match TicketStore.load stores.ticketsPath stores.tickets with
  | .error _ => false
  | .ok tickets => (tickets.get label).isSome

def HomeStep.SparesTickets (lower : Char → List Char) (home : Home) (step : HomeStep) : Prop :=
  ∀ label ∈ step.peerLabels lower home, home.stores.hasTicket label = false

instance (lower : Char → List Char) : DecidableRel (HomeStep.SparesTickets lower) :=
  fun _ _ => List.decidableBAll _ _

/-! ## What an operation does to the peers -/

/-- `peers.json` is as it was, or has one more entry, put there under one of
`labels`. -/
def PeerAdded (path : String) (labels : List String) (file file' : PeersFile) : Prop :=
  file' = file ∨
    ∃ peers entry peers', PeerStore.load path file = .ok peers ∧ entry.label ∈ labels ∧
      peers.insertOrUpdate entry = some peers' ∧ file' = .stored peers'

theorem saveAcceptedPeer_peerAdded (invite : InviteCode) (options : SaveAcceptedPeerOptions)
    (fault : Bool) (path : String) (file : PeersFile) :
    PeerAdded path
      (chooseLocalLabelFrom options.responderSelfLabel (Hex.encode invite.inviterEid.toList)) file
      (saveAcceptedPeer invite options fault path file).2 := by
  unfold saveAcceptedPeer
  cases hload : PeerStore.load path file with
  | error err => exact Or.inl rfl
  | ok peers =>
    simp only
    cases hinsert : peers.insertOrUpdate (acceptedEntry invite options peers) with
    | none => exact Or.inl rfl
    | some peers' =>
      cases fault with
      | true => exact Or.inl rfl
      | false => exact Or.inr ⟨peers, _, peers', hload, chooseLocalLabel_mem _ _ _, hinsert, rfl⟩

/-- Where an execution of `handle_pair` stands that nothing interrupts: until its
first save the files are as it found them. -/
def PairPhase.Uninterrupted (lower : Char → List Char) (call : PairCall) (found : PairFiles)
    (r : PairPhase × PairFiles) : Prop :=
  match r.1 with
  | .start => r.2 = found
  | .invited _ invite =>
    r.2 = found ∧ call.labels lower found =
      chooseLabelFrom lower call.request.callerLabel invite.forLabelHint call.callerEidHex
  | .pairing _ peers' entry =>
    r.2 = found ∧ ∃ peers, PeerStore.load found.peersPath found.peers = .ok peers ∧
      entry.label ∈ call.labels lower found ∧ peers.insertOrUpdate entry = some peers'
  | _ => PeerAdded found.peersPath (call.labels lower found) found.peers r.2.peers

section Pairing

variable {lower : Char → List Char} {call : PairCall} {found : PairFiles} {store : PairStoreFile}

theorem judgeInvite_uninterrupted
    (hload : PairStoreFile.load found.pairPath found.invites = .ok store) :
    PairPhase.Uninterrupted lower call found (judgeInvite call store, found) := by
  unfold judgeInvite
  cases hfind : store.findByNonce call.nonceHex with
  | none => exact Or.inl rfl
  | some invite =>
    simp only
    split_ifs with hexpired hmode
    · exact Or.inl rfl
    · exact Or.inl rfl
    · refine ⟨rfl, ?_⟩
      unfold PairCall.labels
      rw [hload]
      simp only
      rw [hfind]

theorem judgePeers_uninterrupted {invite : PendingInvite} {peers : PeerStore}
    (hload : PeerStore.load found.peersPath found.peers = .ok peers)
    (hlabels : call.labels lower found =
      chooseLabelFrom lower call.request.callerLabel invite.forLabelHint call.callerEidHex) :
    PairPhase.Uninterrupted lower call found (judgePeers lower call store invite peers, found) := by
  unfold judgePeers
  cases peers.labelsOf call.callerEidHex with
  | cons existing rest => exact Or.inl rfl
  | nil =>
    simp only
    cases hinsert : peers.insertOrUpdate (newPeer lower call invite peers) with
    | none => exact Or.inl rfl
    | some peers' =>
      refine ⟨rfl, peers, hload, ?_, hinsert⟩
      rw [hlabels]
      exact chooseLabel_mem _ _ _ _ _

theorem PairPhase.Uninterrupted.next {r : PairPhase × PairFiles}
    (h : PairPhase.Uninterrupted lower call found r) (fault : Bool) :
    PairPhase.Uninterrupted lower call found (r.1.next lower call fault r.2) := by
  obtain ⟨phase, files⟩ := r
  cases phase with
  | start =>
    have hfiles : files = found := h
    subst hfiles
    simp only [PairPhase.next]
    by_cases hversion : call.request.version ≠ 1
    · rw [if_pos hversion]
      exact Or.inl rfl
    · rw [if_neg hversion]
      cases hload : PairStoreFile.load files.pairPath
          (if fault then .unreadable else files.invites) with
      | error err => exact Or.inl rfl
      | ok store =>
        cases fault with
        | true => cases hload
        | false => exact judgeInvite_uninterrupted hload
  | invited store invite =>
    obtain ⟨hfiles, hlabels⟩ : files = found ∧ _ := h
    subst hfiles
    simp only [PairPhase.next]
    cases hload : PeerStore.load files.peersPath
        (if fault then .unreadable else files.peers) with
    | error err => exact Or.inl rfl
    | ok peers =>
      cases fault with
      | true => cases hload
      | false => exact judgePeers_uninterrupted hload hlabels
  | pairing store peers' entry =>
    obtain ⟨hfiles, peers, hload, hlabel, hinsert⟩ : files = found ∧ _ := h
    subst hfiles
    cases fault with
    | true => exact Or.inl rfl
    | false => exact Or.inr ⟨peers, entry, peers', hload, hlabel, hinsert, rfl⟩
  | consuming store result entry =>
    have hadded : PeerAdded found.peersPath (call.labels lower found) found.peers files.peers := h
    cases fault with
    | true =>
      cases result with
      | ok | nonceExpired | nonceUnknown | alreadyPaired | policyRejected => exact hadded
    | false => exact hadded
  | done result entry => exact h

theorem handlePair_peerAdded (faults : Vector Bool 4) :
    PeerAdded found.peersPath (call.labels lower found) found.peers
      (handlePair lower call faults found).2.peers := by
  have hfold : ∀ (faults : List Bool) (r : PairPhase × PairFiles),
      PairPhase.Uninterrupted lower call found r →
      PairPhase.Uninterrupted lower call found
        (faults.foldl (fun r fault => r.1.next lower call fault r.2) r) := by
    intro faults
    induction faults with
    | nil => exact fun r hr => hr
    | cons fault faults ih => exact fun r hr => ih _ (hr.next fault)
  have hend := hfold faults.toList (.start, found) rfl
  -- wherever the execution is, the file is the one found or has the new entry
  unfold handlePair
  generalize faults.toList.foldl (fun r fault => r.1.next lower call fault r.2)
    (PairPhase.start, found) = r at hend ⊢
  obtain ⟨phase, files⟩ := r
  cases phase with
  | start => exact Or.inl (congrArg PairFiles.peers hend)
  | invited | pairing => exact Or.inl (congrArg PairFiles.peers hend.1)
  | consuming | done => exact hend

end Pairing

/-! ## Labels over whole runs -/

variable {path : String} {store peers peers' : PeerStore} {file : PeersFile}

theorem PeerStore.load_stored (h : store.schema = currentSchema) :
    PeerStore.load path (.stored store) = .ok store :=
  if_neg (not_not.mpr h)

theorem PeerStore.load_schema (h : PeerStore.load path file = .ok store) :
    store.schema = currentSchema := by
  cases file with
  | missing =>
    cases h
    rfl
  | unreadable => cases h
  | malformed => cases h
  | stored kept =>
    by_cases hschema : kept.schema = currentSchema
    · rw [PeerStore.load_stored hschema] at h
      cases h
      exact hschema
    · exact absurd (show (if kept.schema ≠ currentSchema then Except.error _ else Except.ok kept) =
        Except.ok store from h) (by rw [if_pos hschema]; nofun)

variable {entry : PeerEntry}

theorem PeerStore.insertOrUpdate_eq_some :
    peers.insertOrUpdate entry = some peers' ↔ ¬ peers.LabelElsewhere entry ∧
      peers' = { peers with entries := peers.entries.insert entry.endpointIdHex entry } := by
  unfold PeerStore.insertOrUpdate
  split_ifs with helsewhere
  · simp [helsewhere]
  · simp [helsewhere, eq_comm]

theorem mem_entries_insert {entries : Finmap fun _ : String => PeerEntry} {key : String}
    {e : Sigma fun _ : String => PeerEntry} :
    e ∈ (entries.insert key entry).entries ↔
      e = ⟨key, entry⟩ ∨ e.1 ≠ key ∧ e ∈ entries.entries := by
  obtain ⟨k, v⟩ := e
  rw [← Finmap.lookup_eq_some_iff, ← Finmap.lookup_eq_some_iff]
  by_cases hk : k = key
  · subst hk
    rw [Finmap.lookup_insert]
    constructor
    · rintro ⟨rfl⟩
      exact Or.inl rfl
    · rintro (hsame | ⟨hne, -⟩)
      · cases hsame
        rfl
      · exact absurd rfl hne
  · rw [Finmap.lookup_insert_of_ne _ hk]
    constructor
    · exact fun h => Or.inr ⟨hk, h⟩
    · rintro (hsame | ⟨-, h⟩)
      · cases hsame
        exact absurd rfl hk
      · exact h

theorem PeerStore.Distinct.insertOrUpdate (h : peers.Distinct)
    (hinsert : peers.insertOrUpdate entry = some peers') : peers'.Distinct := by
  obtain ⟨hfree, rfl⟩ := PeerStore.insertOrUpdate_eq_some.mp hinsert
  have hother : ∀ e ∈ peers.entries.entries, e.1 ≠ entry.endpointIdHex →
      e.2.label ≠ entry.label := fun e he hne hlabel => hfree ⟨e, he, hlabel, hne⟩
  intro a ha b hb hlabel
  rcases mem_entries_insert.mp ha with rfl | ⟨hane, ha⟩
  · rcases mem_entries_insert.mp hb with rfl | ⟨hbne, hb⟩
    · rfl
    · exact absurd hlabel.symm (hother b hb hbne)
  · rcases mem_entries_insert.mp hb with rfl | ⟨hbne, hb⟩
    · exact absurd hlabel (hother a ha hane)
    · exact h a ha b hb hlabel

theorem Home.LabelsGlobal.of_peerAdded {home : Home} {labels : List String} (h : home.LabelsGlobal)
    (hspare : ∀ label ∈ labels, home.stores.hasTicket label = false)
    (hadded : PeerAdded home.stores.peersPath labels home.stores.peers file)
    (invites : StoredJson PairStoreFile) :
    Home.LabelsGlobal { home with invites := invites, stores.peers := file } := by
  obtain ⟨peers, tickets, hpeers, htickets, hunique, hdistinct⟩ := h
  rcases hadded with hsame | ⟨peers₀, entry, peers', hload, hlabel, hinsert, hfile⟩
  · rw [hsame]
    exact ⟨peers, tickets, hpeers, htickets, hunique, hdistinct⟩
  · cases hpeers.symm.trans hload
    have hspared : tickets.get entry.label = none := by
      have := hspare entry.label hlabel
      unfold Stores.hasTicket at this
      rw [htickets] at this
      simpa using this
    obtain ⟨hfree, hpeers'⟩ := PeerStore.insertOrUpdate_eq_some.mp hinsert
    refine ⟨peers', tickets, ?_, htickets, ?_, hdistinct.insertOrUpdate hinsert⟩
    · rw [hfile]
      have hschema : peers'.schema = peers.schema := by rw [hpeers']
      exact PeerStore.load_stored (hschema.trans (PeerStore.load_schema hpeers))
    · rintro label hticket ⟨e, he, rfl⟩
      rw [hpeers'] at he
      rcases mem_entries_insert.mp he with rfl | ⟨-, hkept⟩
      · exact hticket hspared
      · exact hunique _ hticket ⟨e, hkept, rfl⟩

section Runs

variable {P : Primitives} {decodeString : String → Except String PortlTicket}
  {lower : Char → List Char}

theorem labelsGlobal_step (home : Home) (step : HomeStep) (h : home.LabelsGlobal)
    (hspare : step.SparesTickets lower home) :
    (home.step P decodeString lower step).LabelsGlobal := by
  cases step with
  | issue invites => exact h
  | handlePair call faults =>
    have hadded : PeerAdded home.stores.peersPath (call.labels lower home.pairFiles)
        home.stores.peers (handlePair lower call faults home.pairFiles).2.peers :=
      handlePair_peerAdded faults
    exact h.of_peerAdded hspare hadded _
  | saveAcceptedPeer invite options fault =>
    exact h.of_peerAdded hspare (saveAcceptedPeer_peerAdded invite options fault _ _) _
  | ticket command =>
    obtain ⟨peers, tickets, hpeers, htickets, hunique, hdistinct⟩ := h
    show Home.LabelsGlobal { home with stores := home.stores.step P decodeString lower command }
    rcases home.stores.step_cases command with
      hsame | ⟨label, entry, peers', before, after, hpeers', hbefore, hplaced, hplace⟩
    · rw [hsame]
      exact ⟨peers, tickets, hpeers, htickets, hunique, hdistinct⟩
    · cases hpeers.symm.trans hpeers'
      cases htickets.symm.trans hbefore
      rw [hplace]
      exact ⟨peers, after, hpeers, hplaced.load hbefore, hplaced.labelsUnique hunique, hdistinct⟩

theorem labelsGlobal_empty (pairPath peersPath ticketsPath : String) :
    (Home.empty pairPath peersPath ticketsPath).LabelsGlobal := by
  refine ⟨.new, .new, rfl, rfl, ?_, ?_⟩
  · intro label hticket
    exact absurd (Finmap.lookup_empty label) hticket
  · intro a ha
    exact absurd ha (Multiset.notMem_zero a)

theorem labelsGlobal_run (pairPath peersPath ticketsPath : String) {steps : List HomeStep}
    (hspare : Run.Guarded (Home.step P decodeString lower) (HomeStep.SparesTickets lower)
      (Home.empty pairPath peersPath ticketsPath) steps) :
    ((Home.empty pairPath peersPath ticketsPath).run P decodeString lower steps).LabelsGlobal :=
  hspare.invariant labelsGlobal_step (labelsGlobal_empty _ _ _)

/-- **Labels are global** in every run from empty stores whose pairings spare the
labels of tickets: no label is both a peer's and a ticket's, and no two peers
share one. -/
theorem home_labels_global (pairPath peersPath ticketsPath : String) (steps : List HomeStep)
    (hspare : Run.Guarded (Home.step P decodeString lower) (HomeStep.SparesTickets lower)
      (Home.empty pairPath peersPath ticketsPath) steps) :
    let home := (Home.empty pairPath peersPath ticketsPath).run P decodeString lower steps
    ∃ peers tickets, PeerStore.load home.stores.peersPath home.stores.peers = .ok peers ∧
      TicketStore.load home.stores.ticketsPath home.stores.tickets = .ok tickets ∧
      (∀ label, tickets.get label ≠ none → ¬ peers.hasLabel label) ∧ peers.Distinct :=
  labelsGlobal_run pairPath peersPath ticketsPath hspare

end Runs

/-! ### A machine named like a ticket -/

/-- A ticket is saved under "box", then an invite of the machine "box" is
accepted. -/
def boxRun : List HomeStep :=
  [.ticket (.saveTicket (some "box") "portlshare" none 150 none),
    .saveAcceptedPeer ⟨sampleKey 9, .mutual⟩ ⟨some "box", none, 160⟩ false]

def deskRun : List HomeStep :=
  [.ticket (.saveTicket (some "box") "portlshare" none 150 none),
    .saveAcceptedPeer ⟨sampleKey 9, .mutual⟩ ⟨some "desk", none, 160⟩ false,
    .issue (.stored ⟨1, [⟨Hex.encode (List.replicate 16 7), 100, 300, .mutual, none⟩]⟩),
    .handlePair ⟨sampleKey 8, ⟨1, Vector.replicate 16 7, .mutual, none, some "desk"⟩, 200⟩
      (Vector.replicate 4 false)]

def sampleHome : Home := .empty "pending_invites.json" "peers.json" "tickets.json"

theorem home_labels_global_desk :
    let home := sampleHome.run (.transparent []) (shareText none) asciiLower deskRun
    home.stores.hasTicket "box" = true ∧ home.LabelsGlobal :=
  ⟨by decide +kernel, home_labels_global _ _ _ deskRun (by decide +kernel)⟩

theorem home_labels_shared :
    let home := sampleHome.run (.transparent []) (shareText none) asciiLower boxRun
    home.stores.hasTicket "box" = true ∧
      (∃ peers, PeerStore.load home.stores.peersPath home.stores.peers = .ok peers ∧
        peers.hasLabel "box") ∧
      ¬ home.LabelsGlobal := by
  intro home
  have hticket : home.stores.hasTicket "box" = true := by decide +kernel
  have hpeer : ∃ peers, PeerStore.load home.stores.peersPath home.stores.peers = .ok peers ∧
      peers.hasLabel "box" := ⟨_, rfl, by decide +kernel⟩
  refine ⟨hticket, hpeer, ?_⟩
  rintro ⟨peers, tickets, hpeers, htickets, hunique, -⟩
  obtain ⟨peers', hpeers', hbox⟩ := hpeer
  cases hpeers.symm.trans hpeers'
  refine hunique "box" ?_ hbox
  unfold Stores.hasTicket at hticket
  rw [htickets] at hticket
  exact Option.isSome_iff_ne_none.mp hticket

end Portl

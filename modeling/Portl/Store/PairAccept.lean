import Portl.Store.Home

/-!
# The other side of a pairing

What the machine that accepted an invite keeps of the inviter. An execution of
`handle_pair` that returns `Ok` and `save_accepted_peer` write mirror images. When
the inviter knows the caller already it changes nothing, and the caller saves
nothing either; the entry it has may say anything.

Accepting again is to change nothing but the time. `choose_local_label` asks whether
a label is in use in the store that holds the entry to be replaced, so the entry's
own label counts as a collision. And the new entry is written without a look at the
old one, so that a hold on the peer is lifted.
-/

namespace Portl

/-! ## Both sides -/

def InviteCode.inviterEidHex (invite : InviteCode) : String := Hex.encode invite.inviterEid.toList

def InviteCode.request (invite : InviteCode) (nonce : Bytes16)
    (callerRelayHint callerLabel : Option String) : PairRequest :=
  ⟨1, nonce, invite.initiator, callerRelayHint, callerLabel⟩

def peerAt (path : String) (file : PeersFile) (endpointIdHex : String) : Option PeerEntry :=
  match PeerStore.load path file with
  | .ok peers => peers.entries.lookup endpointIdHex
  | .error _ => none

def PeerEntry.flags (entry : PeerEntry) : Bool × Bool :=
  (entry.acceptsFromThem, entry.theyAcceptFromMe)

/-- **The two sides agree**: each has an entry for the other, and what one accepts the
other knows to be accepted. -/
def Mirrored (inviterEntry acceptorEntry : Option PeerEntry) : Prop :=
  ∃ mine ∈ inviterEntry, ∃ theirs ∈ acceptorEntry,
    mine.acceptsFromThem = theirs.theyAcceptFromMe ∧
      theirs.acceptsFromThem = mine.theyAcceptFromMe

instance (inviterEntry acceptorEntry : Option PeerEntry) :
    Decidable (Mirrored inviterEntry acceptorEntry) :=
  inferInstanceAs (Decidable (∃ mine ∈ inviterEntry, ∃ theirs ∈ acceptorEntry, _ ∧ _))

/-- How `handle_pair` leaves the peers: the caller's entry with the flags of the mode
when it was `Ok`, and all as they were otherwise. -/
def PairResult.Directs (result : PairResult) (call : PairCall) (before : PeersFile)
    (files : PairFiles) : Prop :=
  match result with
  | .ok => ∃ entry, peerAt files.peersPath files.peers call.callerEidHex = some entry ∧
      entry.flags = call.request.initiator.relationship.inviterPeerFlags
  | _ => files.peers = before

def PairPhase.Directs (phase : PairPhase) (call : PairCall) (before : PeersFile)
    (files : PairFiles) : Prop :=
  match phase with
  | .start => files.peers = before
  | .invited _ invite => files.peers = before ∧ invite.initiator = call.request.initiator
  | .pairing _ peers entry =>
    peers.schema = currentSchema ∧ peers.entries.lookup call.callerEidHex = some entry ∧
      entry.flags = call.request.initiator.relationship.inviterPeerFlags
  | .consuming _ result _ => result.Directs call before files
  | .done (.ok result) _ => result.Directs call before files
  | .done (.error _) _ => True

theorem PeerStore.insertOrUpdate_schema {peers peers' : PeerStore} {entry : PeerEntry}
    (h : peers.insertOrUpdate entry = some peers') : peers'.schema = peers.schema := by
  rw [(PeerStore.insertOrUpdate_eq_some.mp h).2]

section Inviter

variable {lower : Char → List Char} {call : PairCall} {before : PeersFile} {files : PairFiles}

theorem directs_judgeInvite (store : PairStoreFile) (hbefore : files.peers = before) :
    (judgeInvite call store).Directs call before files := by
  unfold judgeInvite
  cases store.findByNonce call.nonceHex with
  | none => exact hbefore
  | some invite =>
    simp only
    split_ifs with hexpired hmode
    · exact hbefore
    · exact hbefore
    · exact ⟨hbefore, (not_not.mp hmode).symm⟩

theorem directs_judgePeers (store : PairStoreFile) {invite : PendingInvite} {peers : PeerStore}
    (hbefore : files.peers = before) (hmode : invite.initiator = call.request.initiator)
    (hschema : peers.schema = currentSchema) :
    (judgePeers lower call store invite peers).Directs call before files := by
  unfold judgePeers
  split
  · exact hbefore
  · cases hinsert : peers.insertOrUpdate (newPeer lower call invite peers) with
    | none => trivial
    | some peers' =>
      refine ⟨?_, insertOrUpdate_lookup hinsert, ?_⟩
      · rw [PeerStore.insertOrUpdate_schema hinsert, hschema]
      · rw [← hmode]
        rfl

theorem directs_next (phase : PairPhase) (fault : Bool) (h : phase.Directs call before files) :
    (phase.next lower call fault files).1.Directs call before
      (phase.next lower call fault files).2 := by
  cases phase with
  | start =>
    unfold PairPhase.next
    simp only
    split_ifs
    · exact h
    all_goals split
    · trivial
    · exact directs_judgeInvite _ h
    · trivial
    · exact directs_judgeInvite _ h
  | invited store invite =>
    unfold PairPhase.next
    simp only
    split
    · trivial
    · rename_i peers hload
      exact directs_judgePeers store h.1 h.2 (PeerStore.load_schema hload)
  | pairing store peers entry =>
    obtain ⟨hschema, hlookup, hflags⟩ := h
    cases fault with
    | true => trivial
    | false =>
      refine ⟨entry, ?_, hflags⟩
      show peerAt files.peersPath (.stored peers) call.callerEidHex = some entry
      rw [peerAt, PeerStore.load_stored hschema]
      exact hlookup
  | consuming store result entry =>
    cases fault with
    | false => exact h
    | true =>
      unfold PairPhase.next
      simp only [if_true]
      split
      · exact h
      · trivial
  | done result entry => exact h

/-- **An execution of `handle_pair`** directs the caller's entry as its result says. -/
theorem directs_handlePair (lower : Char → List Char) (call : PairCall) (faults : Vector Bool 4)
    (files : PairFiles) :
    (handlePair lower call faults files).1.Directs call files.peers
      (handlePair lower call faults files).2 := by
  refine List.foldlRecOn (motive := fun st : PairPhase × PairFiles => st.1.Directs call files.peers st.2) faults.toList _
    (show PairPhase.Directs .start call files.peers files from rfl) ?_
  intro st h fault _
  exact directs_next st.1 fault h

end Inviter

variable {result : PairResult}

theorem peerAt_path (path path' : String) (file : PeersFile) (endpointIdHex : String) :
    peerAt path file endpointIdHex = peerAt path' file endpointIdHex := by
  unfold peerAt PeerStore.load
  cases file with
  | missing | unreadable | malformed => rfl
  | stored peers =>
    simp only
    split_ifs
    · rfl
    · rfl

theorem peerAt_saveAcceptedPeer {invite : InviteCode} {options : SaveAcceptedPeerOptions}
    {fault : Bool} {path : String} {file : PeersFile} {accepted : AcceptedPeer}
    (h : (saveAcceptedPeer invite options fault path file).1 = .ok accepted) :
    ∃ peers, PeerStore.load path file = .ok peers ∧
      peerAt path (saveAcceptedPeer invite options fault path file).2 invite.inviterEidHex =
        some (acceptedEntry invite options peers) := by
  unfold saveAcceptedPeer at h ⊢
  cases hload : PeerStore.load path file with
  | error message =>
    rw [hload] at h
    cases h
  | ok peers =>
    rw [hload] at h
    simp only at h ⊢
    cases hinsert : peers.insertOrUpdate (acceptedEntry invite options peers) with
    | none =>
      rw [hinsert] at h
      cases h
    | some peers' =>
      rw [hinsert] at h
      simp only at h ⊢
      split_ifs at h ⊢
      refine ⟨peers, rfl, ?_⟩
      have hschema : peers'.schema = currentSchema := by
        rw [PeerStore.insertOrUpdate_schema hinsert, PeerStore.load_schema hload]
      rw [peerAt, PeerStore.load_stored hschema]
      exact insertOrUpdate_lookup hinsert

theorem mirrored_accepted_iff (inviterEntry : Option PeerEntry) (invite : InviteCode)
    (options : SaveAcceptedPeerOptions) (peers : PeerStore) :
    Mirrored inviterEntry (some (acceptedEntry invite options peers)) ↔
      ∃ entry ∈ inviterEntry,
        entry.flags = invite.initiator.relationship.inviterPeerFlags := by
  constructor
  · rintro ⟨mine, hmine, theirs, htheirs, haccepts, hreaches⟩
    cases htheirs
    exact ⟨mine, hmine, Prod.ext haccepts hreaches.symm⟩
  · rintro ⟨mine, hmine, hflags⟩
    exact ⟨mine, hmine, _, rfl, congrArg Prod.fst hflags, (congrArg Prod.snd hflags).symm⟩

/-- **Both sides agree on the direction** when `handle_pair` returned `Ok`; when it
returned `AlreadyPaired`, exactly if the inviter's entry had the flags of the invite
before. -/
theorem pairing_directions_mirror (lower : Char → List Char) (invite : InviteCode)
    (callerEid : Bytes32) (nonce : Bytes16) (callerRelayHint callerLabel : Option String)
    (now : UInt64) (faults : Vector Bool 4) (files : PairFiles) (result : PairResult)
    (entry : Option PeerEntry) (options : SaveAcceptedPeerOptions) (fault : Bool) (path : String)
    (file : PeersFile) (accepted : AcceptedPeer)
    (hpair : (handlePair lower ⟨callerEid, invite.request nonce callerRelayHint callerLabel, now⟩
      faults files).1 = .done (.ok result) entry)
    (hresult : result = .ok ∨ ∃ existing, result = .alreadyPaired existing)
    (hsave : (saveAcceptedPeer invite options fault path file).1 = .ok accepted) :
    Mirrored
        (peerAt files.peersPath
          (handlePair lower ⟨callerEid, invite.request nonce callerRelayHint callerLabel, now⟩
            faults files).2.peers (Hex.encode callerEid.toList))
        (peerAt path (saveAcceptedPeer invite options fault path file).2 invite.inviterEidHex) ↔
      result = .ok ∨
        ∃ known ∈ peerAt files.peersPath files.peers (Hex.encode callerEid.toList),
          known.flags = invite.initiator.relationship.inviterPeerFlags := by
  have hdirects := directs_handlePair lower
    ⟨callerEid, invite.request nonce callerRelayHint callerLabel, now⟩ faults files
  rw [hpair] at hdirects
  obtain ⟨peers, -, hacceptor⟩ := peerAt_saveAcceptedPeer hsave
  rw [hacceptor, mirrored_accepted_iff]
  rcases hresult with rfl | ⟨existing, rfl⟩
  · obtain ⟨mine, hmine, hflags⟩ := hdirects
    rw [peerAt_path _ files.peersPath] at hmine
    exact ⟨fun _ => Or.inl rfl, fun _ => ⟨mine, hmine, hflags⟩⟩
  · have hsame : (handlePair lower
        ⟨callerEid, invite.request nonce callerRelayHint callerLabel, now⟩ faults files).2.peers =
      files.peers := hdirects
    rw [hsame]
    constructor
    · exact Or.inr
    · rintro (hok | hknown)
      · cases hok
      · exact hknown

/-! ### Two modes -/

def desktopCode (mode : InitiatorMode) : InviteCode := ⟨sampleKey 9, mode⟩

def laptopRequest (mode : InitiatorMode) : PairRequest :=
  (desktopCode mode).request (Vector.replicate 16 7) none none

def invitingFiles (mode : InitiatorMode) (peers : PeersFile) : PairFiles :=
  { pairPath := "pending_invites.json", peersPath := "peers.json",
    invites := .stored ⟨1, [⟨Hex.encode (List.replicate 16 7), 50, 200, mode, none⟩]⟩,
    peers := peers }

/-- The inviter has an entry for the caller, from a time when both might reach each
other. -/
def knownCaller : PeersFile :=
  .stored ⟨currentSchema, Finmap.singleton (Hex.encode (sampleKey 1).toList)
    { label := "laptop", endpointIdHex := Hex.encode (sampleKey 1).toList, acceptsFromThem := true,
      theyAcceptFromMe := true, since := 1, origin := .paired, lastHoldAt := none,
      isSelf := false, relayHint := none, schemaVersion := 2 }⟩

def desktopOptions : SaveAcceptedPeerOptions := ⟨some "desktop", none, 100⟩

def PairPhase.returned (phase : PairPhase) : Option PairResult :=
  match phase with
  | .done (.ok result) _ => some result
  | _ => none

theorem PairPhase.done_of_returned {phase : PairPhase} (h : phase.returned = some result) :
    ∃ entry, phase = .done (.ok result) entry := by
  unfold returned at h
  split at h
  · rename_i found entry
    cases h
    exact ⟨entry, rfl⟩
  · cases h

/-- The acceptor may reach the inviter, and not the other way round. -/
theorem pairing_directions_mirror_them :
    Mirrored
      (peerAt "peers.json"
        (handlePair asciiLower ⟨sampleKey 1, laptopRequest .them, 100⟩ (Vector.replicate 4 false)
          (invitingFiles .them .missing)).2.peers (Hex.encode (sampleKey 1).toList))
      (peerAt "peers.json"
        (saveAcceptedPeer (desktopCode .them) desktopOptions false "peers.json" .missing).2
        (desktopCode .them).inviterEidHex) := by
  obtain ⟨entry, hpair⟩ : ∃ entry,
      (handlePair asciiLower ⟨sampleKey 1, laptopRequest .them, 100⟩ (Vector.replicate 4 false)
        (invitingFiles .them .missing)).1 = .done (.ok .ok) entry :=
    PairPhase.done_of_returned (by decide +kernel)
  exact (pairing_directions_mirror asciiLower (desktopCode .them) (sampleKey 1)
    (Vector.replicate 16 7) none none 100 (Vector.replicate 4 false) (invitingFiles .them .missing)
    .ok entry desktopOptions false "peers.json" .missing
    ⟨"desktop", (desktopCode .them).inviterEidHex,
      "you can reach desktop; desktop cannot reach you."⟩
    hpair (Or.inl rfl) (by decide +kernel)).mpr (Or.inl rfl)

/-- The inviter means to reach the acceptor only, and keeps an entry that accepts it;
if the acceptor saved the mode of the code, the two would differ. -/
theorem pairing_directions_differ :
    (handlePair asciiLower ⟨sampleKey 1, laptopRequest .me, 100⟩ (Vector.replicate 4 false)
      (invitingFiles .me knownCaller)).1.returned = some (.alreadyPaired "laptop") ∧
    ¬ Mirrored
      (peerAt "peers.json"
        (handlePair asciiLower ⟨sampleKey 1, laptopRequest .me, 100⟩ (Vector.replicate 4 false)
          (invitingFiles .me knownCaller)).2.peers (Hex.encode (sampleKey 1).toList))
      (peerAt "peers.json"
        (saveAcceptedPeer (desktopCode .me) desktopOptions false "peers.json" .missing).2
        (desktopCode .me).inviterEidHex) := by
  decide +kernel

/-- A request that does not pair leaves the peers of the inviter alone. -/
theorem handlePair_unpaired {lower : Char → List Char} {call : PairCall} {faults : Vector Bool 4}
    {files : PairFiles} {entry : Option PeerEntry}
    (hpair : (handlePair lower call faults files).1 = .done (.ok result) entry)
    (hresult : result ≠ .ok) : (handlePair lower call faults files).2.peers = files.peers := by
  have hdirects := directs_handlePair lower call faults files
  rw [hpair] at hdirects
  cases result with
  | ok => exact absurd rfl hresult
  | nonceExpired | nonceUnknown | alreadyPaired | policyRejected => exact hdirects

/-! ## Accepting again -/

/-- The label `choose_local_label` would like. -/
def localLabelCandidate (options : SaveAcceptedPeerOptions) (invite : InviteCode) : String :=
  options.responderSelfLabel.getD (eidStart invite.inviterEidHex 8)

def localLabelFallback (options : SaveAcceptedPeerOptions) (invite : InviteCode) : String :=
  localLabelCandidate options invite ++ "-" ++ eidStart invite.inviterEidHex 4

def PeerStore.OthersLabel (peers : PeerStore) (endpointIdHex label : String) : Prop :=
  ∃ other ∈ peers.entries.entries, other.2.label = label ∧ other.1 ≠ endpointIdHex

instance (peers : PeerStore) (endpointIdHex label : String) :
    Decidable (peers.OthersLabel endpointIdHex label) :=
  Multiset.decidableExistsMultiset

/-- The store that is on file after `save_accepted_peer`: an error leaves the old one. -/
def PeerStore.accepted (peers : PeerStore) (invite : InviteCode)
    (options : SaveAcceptedPeerOptions) : PeerStore :=
  (peers.insertOrUpdate (acceptedEntry invite options peers)).getD peers

def PeerStore.hold (peers : PeerStore) (endpointIdHex : String) (heldAt : UInt64) : PeerStore :=
  match peers.entries.lookup endpointIdHex with
  | none => peers
  | some entry =>
    { peers with
      entries := peers.entries.insert endpointIdHex { entry with lastHoldAt := some heldAt } }

def PeerEntry.unstamped (entry : PeerEntry) : PeerEntry := { entry with since := 0 }

def PeerStore.SameButSince (peers peers' : PeerStore) : Prop :=
  peers.schema = peers'.schema ∧ ∀ endpointIdHex,
    (peers.entries.lookup endpointIdHex).map PeerEntry.unstamped =
      (peers'.entries.lookup endpointIdHex).map PeerEntry.unstamped

/-- **Accepting again changes nothing but the time.** `once` is on file after the first
call, `twice` after a second one at another time, and `held` after a second one before
which a hold was placed on the inviter. -/
def AcceptedAgain (invite : InviteCode) (options : SaveAcceptedPeerOptions)
    (nowAgain heldAt : UInt64) (path : String) (file : PeersFile) : Prop :=
  ∃ once twice held,
    PeerStore.load path (saveAcceptedPeer invite options false path file).2 = .ok once ∧
    PeerStore.load path
      (saveAcceptedPeer invite { options with now := nowAgain } false path
        (saveAcceptedPeer invite options false path file).2).2 = .ok twice ∧
    PeerStore.load path
      (saveAcceptedPeer invite { options with now := nowAgain } false path
        (.stored (once.hold invite.inviterEidHex heldAt))).2 = .ok held ∧
    twice.SameButSince once ∧
    (twice.entries.lookup invite.inviterEidHex).map PeerEntry.label =
      (once.entries.lookup invite.inviterEidHex).map PeerEntry.label ∧
    (held.entries.lookup invite.inviterEidHex).bind PeerEntry.lastHoldAt =
      (once.entries.lookup invite.inviterEidHex).map fun _ => heldAt

section Again

variable {peers : PeerStore} {invite : InviteCode} {options : SaveAcceptedPeerOptions}

theorem load_saveAcceptedPeer {path : String} {file : PeersFile}
    (hload : PeerStore.load path file = .ok peers) :
    PeerStore.load path (saveAcceptedPeer invite options false path file).2 =
      .ok (peers.accepted invite options) := by
  unfold saveAcceptedPeer PeerStore.accepted
  rw [hload]
  simp only
  cases hinsert : peers.insertOrUpdate (acceptedEntry invite options peers) with
  | none => exact hload
  | some peers' =>
    apply PeerStore.load_stored
    rw [PeerStore.insertOrUpdate_schema hinsert, PeerStore.load_schema hload]

variable {endpointIdHex label : String}

theorem hasLabel_of_othersLabel (h : peers.OthersLabel endpointIdHex label) :
    peers.hasLabel label := by
  obtain ⟨other, hmem, hlabel, -⟩ := h
  exact ⟨other, hmem, hlabel⟩

theorem othersLabel_insert (endpointIdHex label : String) (entry : PeerEntry) :
    PeerStore.OthersLabel ⟨peers.schema, peers.entries.insert endpointIdHex entry⟩ endpointIdHex
        label ↔
      peers.OthersLabel endpointIdHex label := by
  constructor
  · rintro ⟨other, hmem, hlabel, hkey⟩
    rcases mem_entries_insert.mp hmem with rfl | ⟨-, hbefore⟩
    · exact absurd rfl hkey
    · exact ⟨other, hbefore, hlabel, hkey⟩
  · rintro ⟨other, hmem, hlabel, hkey⟩
    exact ⟨other, mem_entries_insert.mpr (Or.inr ⟨hkey, hmem⟩), hlabel, hkey⟩

theorem hasLabel_insert (endpointIdHex label : String) (entry : PeerEntry) :
    PeerStore.hasLabel ⟨peers.schema, peers.entries.insert endpointIdHex entry⟩ label ↔
      peers.OthersLabel endpointIdHex label ∨ entry.label = label := by
  constructor
  · rintro ⟨other, hmem, hlabel⟩
    rcases mem_entries_insert.mp hmem with rfl | ⟨hkey, hbefore⟩
    · exact Or.inr hlabel
    · exact Or.inl ⟨other, hbefore, hlabel, hkey⟩
  · rintro (⟨other, hmem, hlabel, hkey⟩ | hlabel)
    · exact ⟨other, mem_entries_insert.mpr (Or.inr ⟨hkey, hmem⟩), hlabel⟩
    · exact ⟨⟨endpointIdHex, entry⟩, mem_entries_insert.mpr (Or.inl rfl), hlabel⟩

theorem accepted_of_free
    (h : ¬ peers.OthersLabel invite.inviterEidHex (localLabelFallback options invite)) :
    peers.accepted invite options =
      ⟨peers.schema,
        peers.entries.insert invite.inviterEidHex (acceptedEntry invite options peers)⟩ := by
  have helsewhere : ¬ peers.LabelElsewhere (acceptedEntry invite options peers) := by
    show ¬ peers.OthersLabel invite.inviterEidHex (chooseLocalLabel peers _ invite.inviterEidHex)
    unfold chooseLocalLabel
    simp only
    split_ifs with hused
    · exact h
    · exact fun hother => hused (hasLabel_of_othersLabel hother)
  rw [PeerStore.accepted, PeerStore.insertOrUpdate, if_neg helsewhere]
  rfl

theorem accepted_of_taken (hused : peers.hasLabel (localLabelCandidate options invite))
    (h : peers.OthersLabel invite.inviterEidHex (localLabelFallback options invite)) :
    peers.accepted invite options = peers := by
  have helsewhere : peers.LabelElsewhere (acceptedEntry invite options peers) := by
    show peers.OthersLabel invite.inviterEidHex (chooseLocalLabel peers _ invite.inviterEidHex)
    unfold chooseLocalLabel
    simp only
    rw [if_pos (show peers.hasLabel (options.responderSelfLabel.getD _) from hused)]
    exact h
  rw [PeerStore.accepted, PeerStore.insertOrUpdate, if_pos helsewhere]
  rfl

theorem hasLabel_accepted
    (h : peers.OthersLabel invite.inviterEidHex (localLabelFallback options invite)) :
    (peers.accepted invite options).hasLabel (localLabelCandidate options invite) ∧
      (peers.accepted invite options).OthersLabel invite.inviterEidHex
        (localLabelFallback options invite) := by
  by_cases hused : peers.hasLabel (localLabelCandidate options invite)
  · rw [accepted_of_taken hused h]
    exact ⟨hused, h⟩
  · have hlabel : (acceptedEntry invite options peers).label = localLabelCandidate options invite :=
      if_neg hused
    have helsewhere : ¬ peers.LabelElsewhere (acceptedEntry invite options peers) := by
      show ¬ peers.OthersLabel invite.inviterEidHex (acceptedEntry invite options peers).label
      rw [hlabel]
      exact fun hother => hused (hasLabel_of_othersLabel hother)
    have haccepted : peers.accepted invite options =
        ⟨peers.schema,
          peers.entries.insert invite.inviterEidHex (acceptedEntry invite options peers)⟩ := by
      rw [PeerStore.accepted, PeerStore.insertOrUpdate, if_neg helsewhere]
      rfl
    rw [haccepted, hasLabel_insert, othersLabel_insert]
    exact ⟨Or.inr hlabel, h⟩

/-! ### A hold -/

theorem hold_schema (endpointIdHex : String) (heldAt : UInt64) :
    (peers.hold endpointIdHex heldAt).schema = peers.schema := by
  unfold PeerStore.hold
  split <;> rfl

theorem hold_lookup (endpointIdHex : String) (heldAt : UInt64) :
    ((peers.hold endpointIdHex heldAt).entries.lookup endpointIdHex).bind PeerEntry.lastHoldAt =
      (peers.entries.lookup endpointIdHex).map fun _ => heldAt := by
  unfold PeerStore.hold
  cases hentry : peers.entries.lookup endpointIdHex with
  | none =>
    simp only [hentry]
    rfl
  | some entry =>
    simp only [Finmap.lookup_insert]
    rfl

theorem othersLabel_hold (endpointIdHex label : String) (heldAt : UInt64) :
    (peers.hold endpointIdHex heldAt).OthersLabel endpointIdHex label ↔
      peers.OthersLabel endpointIdHex label := by
  unfold PeerStore.hold
  cases peers.entries.lookup endpointIdHex with
  | none => rfl
  | some entry => exact othersLabel_insert endpointIdHex label _

theorem hasLabel_hold (heldAt : UInt64) (h : peers.hasLabel label) :
    (peers.hold endpointIdHex heldAt).hasLabel label := by
  unfold PeerStore.hold
  cases hentry : peers.entries.lookup endpointIdHex with
  | none => exact h
  | some entry =>
    obtain ⟨⟨key, other⟩, hmem, hlabel⟩ := h
    refine (hasLabel_insert endpointIdHex label _).mpr ?_
    by_cases hkey : key = endpointIdHex
    · subst hkey
      rw [← Finmap.lookup_eq_some_iff, hentry, Option.some.injEq] at hmem
      subst hmem
      exact Or.inr hlabel
    · exact Or.inl ⟨⟨key, other⟩, hmem, hlabel, hkey⟩

/-! ### The second call -/

/-- **Accepting again** changes nothing but the time, and leaves a hold, exactly when
another peer has the fallback label: then the second call fails. -/
theorem accept_again_idempotent (invite : InviteCode) (options : SaveAcceptedPeerOptions)
    (nowAgain heldAt : UInt64) (path : String) (file : PeersFile) (peers : PeerStore)
    (hload : PeerStore.load path file = .ok peers) :
    AcceptedAgain invite options nowAgain heldAt path file ↔
      peers.OthersLabel invite.inviterEidHex (localLabelFallback options invite) := by
  have honce : PeerStore.load path (saveAcceptedPeer invite options false path file).2 =
    .ok (peers.accepted invite options) := load_saveAcceptedPeer hload
  have hheld : PeerStore.load path
      (.stored ((peers.accepted invite options).hold invite.inviterEidHex heldAt)) = .ok _ :=
    PeerStore.load_stored (by rw [hold_schema, PeerStore.load_schema honce])
  constructor
  · rintro ⟨once, twice, held, hfirst, -, hsecond, -, -, hkept⟩
    cases honce.symm.trans hfirst
    cases (load_saveAcceptedPeer hheld).symm.trans hsecond
    by_contra hfree
    -- both calls write, and the second one writes no hold
    have hwritten := accepted_of_free hfree
    rw [accepted_of_free] at hkept
    · rw [Finmap.lookup_insert, hwritten, Finmap.lookup_insert] at hkept
      cases hkept
    · rw [othersLabel_hold, hwritten, othersLabel_insert]
      exact hfree
  · intro htaken
    obtain ⟨hused, hothers⟩ := hasLabel_accepted htaken
    have hagain : (peers.accepted invite options).accepted invite
        { options with now := nowAgain } = peers.accepted invite options :=
      accepted_of_taken hused hothers
    have hheldAgain : ((peers.accepted invite options).hold invite.inviterEidHex heldAt).accepted
        invite { options with now := nowAgain } =
          (peers.accepted invite options).hold invite.inviterEidHex heldAt :=
      accepted_of_taken (hasLabel_hold heldAt hused) ((othersLabel_hold _ _ _).mpr hothers)
    refine ⟨_, _, _, honce, load_saveAcceptedPeer honce, load_saveAcceptedPeer hheld, ?_⟩
    rw [hagain, hheldAgain]
    exact ⟨⟨rfl, fun _ => rfl⟩, rfl, hold_lookup _ _⟩

end Again

/-! ### The inviter's own label -/

/-- A store with one peer, which has the label that the inviter would get for a collision. -/
def deskPeers : PeerStore :=
  ⟨currentSchema, Finmap.singleton (Hex.encode (sampleKey 2).toList)
    { label := "desktop-0909", endpointIdHex := Hex.encode (sampleKey 2).toList,
      acceptsFromThem := true, theyAcceptFromMe := true, since := 1, origin := .paired,
      lastHoldAt := none, isSelf := false, relayHint := none, schemaVersion := 2 }⟩

theorem accept_again_idempotent_desk :
    AcceptedAgain (desktopCode .mutual) desktopOptions 200 150 "peers.json" (.stored deskPeers) :=
  (accept_again_idempotent (desktopCode .mutual) desktopOptions 200 150 "peers.json"
    (.stored deskPeers) deskPeers (by rfl)).mpr (by decide +kernel)

/-- The label kept for the inviter after the first and after the second call, in a store
that was empty. -/
def inviterLabel (again : Bool) : Option String :=
  let first := (saveAcceptedPeer (desktopCode .mutual) desktopOptions false "peers.json" .missing).2
  let second := (saveAcceptedPeer (desktopCode .mutual) { desktopOptions with now := 200 } false
    "peers.json" first).2
  (peerAt "peers.json" (if again then second else first)
    (desktopCode .mutual).inviterEidHex).map PeerEntry.label

/-- The inviter is `desktop` after the first call and `desktop-0909` after the second,
and a hold that was placed in between is lifted. -/
theorem accept_again_renames :
    inviterLabel false = some "desktop" ∧ inviterLabel true = some "desktop-0909" ∧
    (peerAt "peers.json"
      (saveAcceptedPeer (desktopCode .mutual) { desktopOptions with now := 200 } false "peers.json"
        (.stored ((PeerStore.new.accepted (desktopCode .mutual) desktopOptions).hold
          (desktopCode .mutual).inviterEidHex 150))).2
      (desktopCode .mutual).inviterEidHex).map PeerEntry.lastHoldAt = some none ∧
    ¬ AcceptedAgain (desktopCode .mutual) desktopOptions 200 150 "peers.json" .missing := by
  have hfirst : inviterLabel false = some "desktop" := by decide +kernel
  have hsecond : inviterLabel true = some "desktop-0909" := by decide +kernel
  refine ⟨hfirst, hsecond, by decide +kernel, ?_⟩
  rintro ⟨once, twice, held, honce, htwice, -, -, hlabel, -⟩
  simp only [inviterLabel, peerAt, if_true, Bool.false_eq_true, if_false, honce, htwice]
    at hfirst hsecond
  rw [hfirst, hsecond] at hlabel
  exact absurd hlabel (by decide)

end Portl

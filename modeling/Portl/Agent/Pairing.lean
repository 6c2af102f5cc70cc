import Mathlib.Data.Multiset.Sort
import Portl.Lib.Run
import Portl.Store.Labels

/-!
# Pairing

`pair_handler.rs` over `pair_store.rs` and `peer_store.rs`. An invite is a nonce
in `pending_invites.json`; a caller who presents it becomes an entry of
`peers.json`, and the invite is taken out. It is meant to work once.

`handle_pair` reads both files, decides, and writes both back; each of the four
accesses is a step of its own. When executions do not overlap, the invite that
one of them consumed is unknown to all later ones (`SingleUse`); when they do,
both may find it, and the second write of `peers.json` drops the first entry.
-/

namespace Portl

/-! ## Invites -/

inductive InitiatorMode where
  | mutual
  | me
  | them
deriving DecidableEq

structure PairRelationship where
  inviterAcceptsFromAcceptor : Bool
  acceptorAcceptsFromInviter : Bool
deriving DecidableEq

def InitiatorMode.relationship (mode : InitiatorMode) : PairRelationship :=
  match mode with
  | .mutual => ⟨true, true⟩
  | .me => ⟨false, true⟩
  | .them => ⟨true, false⟩

def PairRelationship.inviterPeerFlags (r : PairRelationship) : Bool × Bool :=
  (r.inviterAcceptsFromAcceptor, r.acceptorAcceptsFromInviter)

structure PendingInvite where
  nonceHex : String
  issuedAtUnix : UInt64
  notAfterUnix : UInt64
  initiator : InitiatorMode
  forLabelHint : Option String
deriving DecidableEq

def PendingInvite.isExpired (invite : PendingInvite) (now : UInt64) : Bool :=
  invite.notAfterUnix ≤ now

structure PairStoreFile where
  schema : UInt32
  invites : List PendingInvite
deriving DecidableEq

namespace PairStoreFile

/-- `PairStore::load`. A missing file is the default value, whose schema is
zero; no schema is ever looked at. -/
def load (path : String) (file : StoredJson PairStoreFile) : Except String PairStoreFile :=
  match file with
  | .missing => .ok ⟨0, []⟩
  | .unreadable => .error ("read pair store at " ++ path)
  | .malformed => .error ("parse pair store at " ++ path)
  | .stored store => .ok store

def findByNonce (store : PairStoreFile) (nonceHex : String) : Option PendingInvite :=
  store.invites.find? fun invite => Str.eqIgnoreAsciiCase invite.nonceHex nonceHex

def remove (store : PairStoreFile) (nonceHex : String) : PairStoreFile :=
  { store with
    invites := store.invites.filter fun invite =>
      !Str.eqIgnoreAsciiCase invite.nonceHex nonceHex }

theorem findByNonce_remove (store : PairStoreFile) (nonceHex : String) :
    (store.remove nonceHex).findByNonce nonceHex = none := by
  unfold findByNonce remove
  rw [List.find?_eq_none]
  intro invite hmem
  obtain ⟨-, hkept⟩ := List.mem_filter.mp hmem
  simpa using hkept

end PairStoreFile

/-! ## Peers -/

def PeerStore.LabelElsewhere (peers : PeerStore) (entry : PeerEntry) : Prop :=
  ∃ other ∈ peers.entries.entries, other.2.label = entry.label ∧ other.1 ≠ entry.endpointIdHex

instance (peers : PeerStore) (entry : PeerEntry) : Decidable (peers.LabelElsewhere entry) :=
  Multiset.decidableExistsMultiset

/-- `insert_or_update`, which fails when another endpoint has the label. -/
def PeerStore.insertOrUpdate (peers : PeerStore) (entry : PeerEntry) : Option PeerStore :=
  if peers.LabelElsewhere entry then none
  else some { peers with entries := peers.entries.insert entry.endpointIdHex entry }

/-- The labels of the entries for an endpoint, in order. Iterating over the map
meets them in an unspecified one. -/
def PeerStore.labelsOf (peers : PeerStore) (endpointIdHex : String) : List String :=
  ((peers.entries.entries.filter fun entry => entry.2.endpointIdHex = endpointIdHex).map
    fun entry => entry.2.label).sort (· ≤ ·)

/-- `rsplit_once('-')`, the part before. -/
def beforeLastDash (s : String) : Option String :=
  if '-' ∈ s.toList then
    some (String.ofList (s.toList.reverse.dropWhile (· ≠ '-')).tail.reverse)
  else none

def extendMachineLabelUntilUnique (peers : PeerStore) (candidate endpointIdHex : String) :
    String :=
  match beforeLastDash candidate with
  | none => candidate ++ "-" ++ endpointSuffix endpointIdHex 6
  | some base =>
    (([6, 8, 12, 16, 64].map fun len => base ++ "-" ++ endpointSuffix endpointIdHex len).find?
      fun label => ¬ peers.hasLabel label).getD candidate

def chooseLabel (lower : Char → List Char) (peers : PeerStore)
    (callerLabel forLabelHint : Option String) (callerEidHex : String) : String :=
  let candidate := machineLabelFromHint lower (forLabelHint.or callerLabel) callerEidHex
  if peers.hasLabel candidate then extendMachineLabelUntilUnique peers candidate callerEidHex
  else candidate

/-! ## One execution -/

structure PairRequest where
  version : UInt8
  nonce : Bytes16
  initiator : InitiatorMode
  callerRelayHint : Option String
  callerLabel : Option String
deriving DecidableEq

inductive PairResult where
  | ok
  | nonceExpired
  | nonceUnknown
  | alreadyPaired (existingLabel : String)
  | policyRejected (message : String)
deriving DecidableEq

/-- A call of `handle_pair`: the endpoint of the TLS certificate, the request,
and the clock it reads. -/
structure PairCall where
  callerEid : Bytes32
  request : PairRequest
  now : UInt64
deriving DecidableEq

def PairCall.nonceHex (call : PairCall) : String := Hex.encode call.request.nonce.toList

def PairCall.callerEidHex (call : PairCall) : String := Hex.encode call.callerEid.toList

structure PairFiles where
  pairPath : String
  peersPath : String
  invites : StoredJson PairStoreFile
  peers : PeersFile

/-- Where an execution stands: before its first access, before it loads the
peers, before it saves them with a new entry, before it saves the invites
without the one it consumed, or at its end. The entry is the one it added. -/
inductive PairPhase where
  | start
  | invited (store : PairStoreFile) (invite : PendingInvite)
  | pairing (store : PairStoreFile) (peers : PeerStore) (entry : PeerEntry)
  | consuming (store : PairStoreFile) (result : PairResult) (entry : Option PeerEntry)
  | done (result : Except String PairResult) (entry : Option PeerEntry)

def judgeInvite (call : PairCall) (store : PairStoreFile) : PairPhase :=
  match store.findByNonce call.nonceHex with
  | none => .done (.ok .nonceUnknown) none
  | some invite =>
    if invite.isExpired call.now then .done (.ok .nonceExpired) none
    else if call.request.initiator ≠ invite.initiator then
      .done (.ok (.policyRejected "invite initiator mismatch")) none
    else .invited store invite

def newPeer (lower : Char → List Char) (call : PairCall) (invite : PendingInvite)
    (peers : PeerStore) : PeerEntry :=
  let flags := invite.initiator.relationship.inviterPeerFlags
  { label := chooseLabel lower peers call.request.callerLabel invite.forLabelHint
      call.callerEidHex
    endpointIdHex := call.callerEidHex
    acceptsFromThem := flags.1
    theyAcceptFromMe := flags.2
    since := call.now
    origin := .paired
    lastHoldAt := none
    isSelf := false
    relayHint := call.request.callerRelayHint
    schemaVersion := 2 }

def judgePeers (lower : Char → List Char) (call : PairCall) (store : PairStoreFile)
    (invite : PendingInvite) (peers : PeerStore) : PairPhase :=
  match peers.labelsOf call.callerEidHex with
  | existing :: _ => .consuming (store.remove call.nonceHex) (.alreadyPaired existing) none
  | [] =>
    match peers.insertOrUpdate (newPeer lower call invite peers) with
    | none => .done (.error "insert paired peer") none
    | some peers' => .pairing store peers' (newPeer lower call invite peers)

/-- The next access of an execution; `fault` makes it fail. -/
def PairPhase.next (lower : Char → List Char) (call : PairCall) (fault : Bool)
    (files : PairFiles) (phase : PairPhase) : PairPhase × PairFiles :=
  match phase with
  | .start =>
    if call.request.version ≠ 1 then
      (.done (.ok (.policyRejected ("unsupported pair protocol version " ++
        toString call.request.version))) none, files)
    else
      match PairStoreFile.load files.pairPath (if fault then .unreadable else files.invites) with
      | .error _ => (.done (.error ("load pair store at " ++ files.pairPath)) none, files)
      | .ok store => (judgeInvite call store, files)
  | .invited store invite =>
    match PeerStore.load files.peersPath (if fault then .unreadable else files.peers) with
    | .error _ => (.done (.error ("load peer store at " ++ files.peersPath)) none, files)
    | .ok peers => (judgePeers lower call store invite peers, files)
  | .pairing store peers entry =>
    if fault then (.done (.error "save peer store") none, files)
    else
      (.consuming (store.remove call.nonceHex) .ok (some entry),
        { files with peers := .stored peers })
  | .consuming store result entry =>
    if fault then
      match result with
      -- `let _ = pair_store.save()`
      | .alreadyPaired existing => (.done (.ok (.alreadyPaired existing)) entry, files)
      | _ => (.done (.error "save pair store after consume") none, files)
    else (.done (.ok result) entry, { files with invites := .stored store })
  | .done result entry => (.done result entry, files)

/-! ## Interleavings -/

structure Pairing (ι : Type*) where
  files : PairFiles
  phase : ι → PairPhase

/-- Execution `who` takes its next step, which may fail. -/
structure PairStep (ι : Type*) where
  who : ι
  fault : Bool

section Runs

variable {ι : Type*} [DecidableEq ι]

def Pairing.start (files : PairFiles) : Pairing ι := ⟨files, fun _ => .start⟩

def PairStep.apply (lower : Char → List Char) (calls : ι → PairCall) (s : Pairing ι)
    (step : PairStep ι) : Pairing ι :=
  let next := (s.phase step.who).next lower (calls step.who) step.fault s.files
  ⟨next.2, Function.update s.phase step.who next.1⟩

def Pairing.run (lower : Char → List Char) (calls : ι → PairCall) (steps : List (PairStep ι))
    (s : Pairing ι) : Pairing ι :=
  steps.foldl (PairStep.apply lower calls) s

def PairPhase.InFlight (phase : PairPhase) : Prop :=
  match phase with
  | .start => False
  | .done _ _ => False
  | _ => True

/-- `peers.json` holds the entry. -/
def PairFiles.HasPeer (files : PairFiles) (entry : PeerEntry) : Prop :=
  ∃ store, files.peers = .stored store ∧ store.entries.lookup entry.endpointIdHex = some entry

/-- The execution returned `PairResult::Ok`, with what it added. -/
def PairPhase.Accepted (phase : PairPhase) (entry : Option PeerEntry) : Prop :=
  phase = .done (.ok .ok) entry

/-- **Single use**: at most one execution was accepted, and its entry is there. -/
def Pairing.SingleUse (s : Pairing ι) : Prop :=
  (∀ i j entry entry', (s.phase i).Accepted entry → (s.phase j).Accepted entry' → i = j) ∧
    ∀ i entry, (s.phase i).Accepted entry → ∃ added, entry = some added ∧ s.files.HasPeer added

/-- The step is not a load of the invites while another execution is in
flight. -/
def PairStep.Alone (s : Pairing ι) (step : PairStep ι) : Prop :=
  match s.phase step.who with
  | .start => ∀ i, ¬ (s.phase i).InFlight
  | _ => True

instance (phase : PairPhase) : Decidable phase.InFlight := by
  cases phase
  all_goals unfold PairPhase.InFlight
  all_goals infer_instance

instance [Fintype ι] (s : Pairing ι) (step : PairStep ι) : Decidable (step.Alone s) := by
  unfold PairStep.Alone
  split
  all_goals infer_instance

/-! ## Executions that do not overlap -/

def PairFiles.NonceGone (files : PairFiles) (nonceHex : String) : Prop :=
  ∀ store, PairStoreFile.load files.pairPath files.invites = .ok store →
    store.findByNonce nonceHex = none

def PairPhase.Carries (phase : PairPhase) (nonceHex : String) (files : PairFiles) : Prop :=
  match phase with
  | .pairing _ peers entry => peers.entries.lookup entry.endpointIdHex = some entry
  | .consuming store result entry =>
    store.findByNonce nonceHex = none ∧
      (result = .ok → ∃ added, entry = some added ∧ files.HasPeer added)
  | _ => True

/-- The invariant of runs without overlap: one execution at most is in flight,
and once one is accepted none is and the nonce is gone. -/
structure Serial (nonceHex : String) (s : Pairing ι) : Prop where
  alone : ∀ i j, (s.phase i).InFlight → (s.phase j).InFlight → i = j
  carries : ∀ i, (s.phase i).Carries nonceHex s.files
  gone : ∀ i entry, (s.phase i).Accepted entry → s.files.NonceGone nonceHex
  quiet : ∀ i j entry, (s.phase i).Accepted entry → ¬ (s.phase j).InFlight
  once : s.SingleUse

variable {lower : Char → List Char} {calls : ι → PairCall} {nonceHex : String} {s : Pairing ι}

omit [DecidableEq ι] in
theorem serial_start (files : PairFiles) : Serial nonceHex (Pairing.start files : Pairing ι) where
  alone _ _ h := h.elim
  carries _ := trivial
  gone _ _ h := by cases h
  quiet _ _ _ h := by cases h
  once := ⟨fun _ _ _ _ h => (by cases h), fun _ _ h => (by cases h)⟩

theorem insertOrUpdate_lookup {peers peers' : PeerStore} {entry : PeerEntry}
    (h : peers.insertOrUpdate entry = some peers') :
    peers'.entries.lookup entry.endpointIdHex = some entry := by
  unfold PeerStore.insertOrUpdate at h
  split_ifs at h
  cases h
  exact Finmap.lookup_insert _

/-! ### What one step does -/

variable {call : PairCall} {files : PairFiles}

theorem next_start_inFlight {fault : Bool}
    (h : ((PairPhase.start.next lower call fault files).1).InFlight) :
    ¬ files.NonceGone call.nonceHex := by
  intro hgone
  unfold PairPhase.next at h
  by_cases hversion : call.request.version ≠ 1
  · simp only [if_pos hversion] at h
    exact h
  · simp only [if_neg hversion] at h
    cases fault with
    | true => exact h
    | false =>
      cases hload : PairStoreFile.load files.pairPath files.invites with
      | error message =>
        simp only [Bool.false_eq_true, if_false, hload] at h
        exact h
      | ok store =>
        simp only [Bool.false_eq_true, if_false, hload] at h
        unfold judgeInvite at h
        rw [hgone store hload] at h
        exact h

theorem next_start (lower : Char → List Char) (nonceHex : String) (call : PairCall)
    (fault : Bool) (files : PairFiles) :
    (PairPhase.start.next lower call fault files).2 = files ∧
    (∀ entry, ¬ (PairPhase.start.next lower call fault files).1.Accepted entry) ∧
    (PairPhase.start.next lower call fault files).1.Carries nonceHex files := by
  unfold PairPhase.next
  simp only
  split_ifs
  · exact ⟨rfl, fun entry h => (by cases h), trivial⟩
  all_goals split
  · exact ⟨rfl, fun entry h => (by cases h), trivial⟩
  · rename_i hload
    cases hload
  · exact ⟨rfl, fun entry h => (by cases h), trivial⟩
  · unfold judgeInvite
    split
    · exact ⟨rfl, fun entry h => (by cases h), trivial⟩
    · split_ifs
      · exact ⟨rfl, fun entry h => (by cases h), trivial⟩
      · exact ⟨rfl, fun entry h => (by cases h), trivial⟩
      · exact ⟨rfl, fun entry h => (by cases h), trivial⟩

theorem carries_judgePeers (lower : Char → List Char) (call : PairCall) (store : PairStoreFile)
    (invite : PendingInvite) (peers : PeerStore) (files : PairFiles) :
    (judgePeers lower call store invite peers).Carries call.nonceHex files ∧
      ∀ entry, ¬ (judgePeers lower call store invite peers).Accepted entry := by
  unfold judgePeers
  split
  · exact ⟨⟨store.findByNonce_remove _, fun h => (by cases h)⟩, fun entry h => (by cases h)⟩
  · split
    · exact ⟨trivial, fun entry h => (by cases h)⟩
    · rename_i peers' hinsert
      exact ⟨insertOrUpdate_lookup hinsert, fun entry h => (by cases h)⟩

theorem next_inFlight (lower : Char → List Char) (fault : Bool) {phase : PairPhase}
    (hflight : phase.InFlight) (hcarries : phase.Carries call.nonceHex files) :
    (phase.next lower call fault files).1.Carries call.nonceHex
        (phase.next lower call fault files).2 ∧
      ∀ entry, (phase.next lower call fault files).1.Accepted entry →
        (phase.next lower call fault files).2.NonceGone call.nonceHex ∧
        ∃ added, entry = some added ∧ (phase.next lower call fault files).2.HasPeer added := by
  cases phase with
  | start | done => exact hflight.elim
  | invited store invite =>
    unfold PairPhase.next
    simp only
    split
    · exact ⟨trivial, fun entry h => (by cases h)⟩
    · rename_i peers hload
      obtain ⟨hcarries, hnot⟩ := carries_judgePeers lower call store invite peers files
      exact ⟨hcarries, fun entry h => (hnot entry h).elim⟩
  | pairing store peers entry =>
    cases fault with
    | true => exact ⟨trivial, fun entry h => (by cases h)⟩
    | false =>
      refine ⟨⟨store.findByNonce_remove _, fun _ => ⟨entry, rfl, peers, rfl, hcarries⟩⟩, ?_⟩
      intro other h
      cases h
  | consuming store result entry =>
    obtain ⟨hgone, hpeer⟩ := hcarries
    cases fault with
    | true =>
      unfold PairPhase.next
      simp only [if_true]
      split
      · exact ⟨trivial, fun entry h => (by cases h)⟩
      · exact ⟨trivial, fun entry h => (by cases h)⟩
    | false =>
      refine ⟨trivial, ?_⟩
      intro other h
      cases h
      obtain ⟨added, hadded, hhas⟩ := hpeer rfl
      refine ⟨?_, added, hadded, hhas⟩
      intro loaded hload
      cases hload
      exact hgone

/-! ### Steps and runs -/

variable {s' : Pairing ι} {i : ι}

omit [DecidableEq ι] in
theorem Serial.of_flight (h : Serial nonceHex s) (hrest : ∀ j, j ≠ i → s'.phase j = s.phase j)
    (hflight : (s.phase i).InFlight) (hcarries : (s'.phase i).Carries nonceHex s'.files)
    (haccepted : ∀ entry, (s'.phase i).Accepted entry →
      s'.files.NonceGone nonceHex ∧ ∃ added, entry = some added ∧ s'.files.HasPeer added) :
    Serial nonceHex s' := by
  have hidle : ∀ j, j ≠ i → ¬ (s'.phase j).InFlight := by
    intro j hne hj
    rw [hrest j hne] at hj
    exact hne (h.alone j i hj hflight)
  have hwho : ∀ j entry, (s'.phase j).Accepted entry → j = i := by
    intro j entry hj
    by_contra hne
    rw [hrest j hne] at hj
    exact h.quiet j i entry hj hflight
  have hmine : ∀ j, (s'.phase j).InFlight → j = i := by
    intro j hj
    by_contra hne
    exact hidle j hne hj
  refine ⟨?_, ?_, ?_, ?_, ?_, ?_⟩
  · intro j k hj hk
    rw [hmine j hj, hmine k hk]
  · intro j
    by_cases heq : j = i
    · rw [heq]
      exact hcarries
    · have hnot := hidle j heq
      -- an execution that is not in flight carries nothing
      cases hphase : s'.phase j with
      | start | done => trivial
      | invited | pairing | consuming => exact (hnot (by rw [hphase]; trivial)).elim
  · intro j entry hj
    rw [hwho j entry hj] at hj
    exact (haccepted entry hj).1
  · intro j k entry hj hk
    rw [hwho j entry hj] at hj
    rw [hmine k hk, hj] at hk
    exact hk
  · intro j k entry entry' hj hk
    rw [hwho j entry hj, hwho k entry' hk]
  · intro j entry hj
    rw [hwho j entry hj] at hj
    exact (haccepted entry hj).2

omit [DecidableEq ι] in
theorem Serial.of_start (h : Serial nonceHex s) (hrest : ∀ j, j ≠ i → s'.phase j = s.phase j)
    (hfiles : s'.files = s.files) (hidle : ∀ j, ¬ (s.phase j).InFlight)
    (hfound : (s'.phase i).InFlight → ¬ s.files.NonceGone nonceHex)
    (hnot : ∀ entry, ¬ (s'.phase i).Accepted entry)
    (hcarries : (s'.phase i).Carries nonceHex s'.files) : Serial nonceHex s' := by
  have hold : ∀ j entry, (s'.phase j).Accepted entry → (s.phase j).Accepted entry := by
    intro j entry hj
    by_cases heq : j = i
    · rw [heq] at hj
      exact (hnot entry hj).elim
    · rw [hrest j heq] at hj
      exact hj
  have hmine : ∀ j, (s'.phase j).InFlight → j = i := by
    intro j hj
    by_contra hne
    rw [hrest j hne] at hj
    exact hidle j hj
  refine ⟨?_, ?_, ?_, ?_, ?_, ?_⟩
  · intro j k hj hk
    rw [hmine j hj, hmine k hk]
  · intro j
    by_cases heq : j = i
    · rw [heq]
      exact hcarries
    · rw [hrest j heq, hfiles]
      exact h.carries j
  · intro j entry hj
    rw [hfiles]
    exact h.gone j entry (hold j entry hj)
  · intro j k entry hj hk
    rw [hmine k hk] at hk
    exact hfound hk (h.gone j entry (hold j entry hj))
  · intro j k entry entry' hj hk
    exact h.once.1 j k entry entry' (hold j entry hj) (hold k entry' hk)
  · intro j entry hj
    rw [hfiles]
    exact h.once.2 j entry (hold j entry hj)

theorem serial_step (hcalls : ∀ i, (calls i).nonceHex = nonceHex) (step : PairStep ι)
    (h : Serial nonceHex s) (halone : step.Alone s) :
    Serial nonceHex (step.apply lower calls s) := by
  obtain ⟨i, fault⟩ := step
  have hrest : ∀ j, j ≠ i → (PairStep.apply lower calls s ⟨i, fault⟩).phase j = s.phase j :=
    fun j hne => Function.update_of_ne hne _ _
  have hself : (PairStep.apply lower calls s ⟨i, fault⟩).phase i =
      ((s.phase i).next lower (calls i) fault s.files).1 := Function.update_self ..
  have hfiles : (PairStep.apply lower calls s ⟨i, fault⟩).files =
      ((s.phase i).next lower (calls i) fault s.files).2 := rfl
  by_cases hflight : (s.phase i).InFlight
  · have hcarries := h.carries i
    rw [← hcalls i] at hcarries
    obtain ⟨hnew, haccepted⟩ := next_inFlight lower fault hflight hcarries
    rw [hcalls i, ← hself, ← hfiles] at hnew haccepted
    exact h.of_flight hrest hflight hnew haccepted
  · cases hphase : s.phase i with
    | start =>
      have hidle : ∀ j, ¬ (s.phase j).InFlight := by
        unfold PairStep.Alone at halone
        simpa only [hphase] using halone
      rw [hphase] at hself hfiles
      obtain ⟨hsame, hnot, hcarries⟩ := next_start lower nonceHex (calls i) fault s.files
      refine h.of_start hrest (hfiles.trans hsame) hidle ?_ ?_ ?_
      · intro hfound
        rw [hself] at hfound
        rw [← hcalls i]
        exact next_start_inFlight hfound
      · intro entry haccepted
        rw [hself] at haccepted
        exact hnot entry haccepted
      · rw [hself, hfiles, hsame]
        exact hcarries
    | done result entry =>
      have hstate : PairStep.apply lower calls s ⟨i, fault⟩ = s := by
        unfold PairStep.apply
        simp only [hphase, PairPhase.next]
        rw [← hphase, Function.update_eq_self]
      rw [hstate]
      exact h
    | invited | pairing | consuming => exact (hflight (by rw [hphase]; trivial)).elim

/-- **An invite is single-use**, whoever presents it and however often, in every
run in which no execution loads the invites while another is in flight. -/
theorem pairing_single_use (nonce : Bytes16) (hnonce : ∀ i, (calls i).request.nonce = nonce)
    (files : PairFiles) (steps : List (PairStep ι))
    (halone : Run.Guarded (PairStep.apply lower calls) (fun s step => step.Alone s)
      (Pairing.start files) steps) :
    (Pairing.run lower calls steps (Pairing.start files)).SingleUse :=
  (Run.Guarded.invariant (I := Serial (Hex.encode nonce.toList))
    (fun _ step h hok =>
      serial_step (fun i => by unfold PairCall.nonceHex; rw [hnonce i]) step h hok)
    halone (serial_start files)).once

end Runs

/-! ### Two callers with one code -/

def twoCallers (second : Bool) : PairCall :=
  { callerEid := sampleKey (if second then 2 else 1)
    request := ⟨1, Vector.replicate 16 7, .mutual, none, some "laptop"⟩
    now := 100 }

def oneInvite : PairFiles :=
  { pairPath := "pending_invites.json", peersPath := "peers.json",
    invites := .stored ⟨1, [⟨Hex.encode (List.replicate 16 7), 50, 200, .mutual, none⟩]⟩,
    peers := .missing }

def Pairing.outcome (s : Pairing Bool) (second : Bool) : Option (Except String PairResult) × Bool :=
  (match s.phase second with
    | .done result _ => some result
    | _ => none,
   match s.files.peers with
    | .stored store => (store.entries.lookup (twoCallers second).callerEidHex).isSome
    | _ => false)

theorem Pairing.accepted_of_outcome {s : Pairing Bool} {second has : Bool}
    (h : s.outcome second = (some (.ok .ok), has)) :
    ∃ entry, (s.phase second).Accepted entry := by
  have hresult := congrArg Prod.fst h
  unfold outcome at hresult
  simp only at hresult
  split at hresult
  · rename_i result entry hphase
    cases hresult
    exact ⟨entry, hphase⟩
  · cases hresult

def oneByOne : List (PairStep Bool) :=
  List.replicate 4 ⟨false, false⟩ ++ List.replicate 4 ⟨true, false⟩

theorem pairing_single_use_two :
    (Pairing.run asciiLower twoCallers oneByOne (.start oneInvite)).outcome false =
      (some (.ok .ok), true) ∧
    (Pairing.run asciiLower twoCallers oneByOne (.start oneInvite)).outcome true =
      (some (.ok .nonceUnknown), false) ∧
    (Pairing.run asciiLower twoCallers oneByOne (.start oneInvite)).SingleUse :=
  ⟨by decide +kernel, by decide +kernel,
    pairing_single_use (Vector.replicate 16 7) (by intro i; cases i <;> rfl) oneInvite oneByOne
      (by decide +kernel)⟩

/-- Step by step in turn: both find the invite, and both load the peers before
either has saved them. -/
def inTurn : List (PairStep Bool) :=
  (List.replicate 4 [⟨false, false⟩, ⟨true, false⟩]).flatten

/-- One code pairs two callers, and the entry of the first is lost. -/
theorem pairing_used_twice :
    (Pairing.run asciiLower twoCallers inTurn (.start oneInvite)).outcome false =
      (some (.ok .ok), false) ∧
    (Pairing.run asciiLower twoCallers inTurn (.start oneInvite)).outcome true =
      (some (.ok .ok), true) ∧
    ¬ (Pairing.run asciiLower twoCallers inTurn (.start oneInvite)).SingleUse := by
  have hfirst : (Pairing.run asciiLower twoCallers inTurn (.start oneInvite)).outcome false =
      (some (.ok .ok), false) := by decide +kernel
  have hsecond : (Pairing.run asciiLower twoCallers inTurn (.start oneInvite)).outcome true =
      (some (.ok .ok), true) := by decide +kernel
  refine ⟨hfirst, hsecond, ?_⟩
  intro hsingle
  obtain ⟨entry, haccepted⟩ := Pairing.accepted_of_outcome hfirst
  obtain ⟨entry', haccepted'⟩ := Pairing.accepted_of_outcome hsecond
  cases hsingle.1 false true entry entry' haccepted haccepted'

end Portl

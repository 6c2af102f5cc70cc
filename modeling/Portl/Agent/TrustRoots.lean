import Portl.Ticket.Verify
import Portl.Agent.Revocations

/-!
# Trust roots of a running agent

Where the set of trusted roots comes from: the peer store (`peer_store.rs`),
`PORTL_TRUST_ROOTS` (`config.rs`), the watchdog's probe key, and the task that
reads the peer store again every half second (`lib.rs`).

The reload puts the file's roots together with `bootstrap_roots`, meant to be the
roots of the environment variable; the startup code takes the whole startup set
instead. So a reload never takes back what the file had at startup
(`mem_reloads_iff`).
-/

namespace Portl

open Checks

/-! ## The peer store -/

inductive PeerOrigin where
  | zelf
  | paired
  | accepted
  | raw
deriving DecidableEq

structure PeerEntry where
  label : String
  endpointIdHex : String
  acceptsFromThem : Bool
  theyAcceptFromMe : Bool
  since : UInt64
  origin : PeerOrigin
  lastHoldAt : Option UInt64
  isSelf : Bool
  relayHint : Option String
  schemaVersion : UInt8
deriving DecidableEq

def PeerEntry.endpointIdBytes (entry : PeerEntry) : Except String Bytes32 := do
  let bytes ← okOr (Hex.decode entry.endpointIdHex)
    ("decode endpoint_id_hex for peer " ++ entry.label)
  okOr (tryFromSlice 32 bytes) ("peer " ++ entry.label ++ ": endpoint_id_hex is not 32 bytes")

structure PeerStore where
  schema : UInt32
  entries : Finmap fun _ : String => PeerEntry

def currentSchema : UInt32 := 1

namespace PeerStore

def new : PeerStore := ⟨currentSchema, ∅⟩

def rootOf (entry : PeerEntry) : Option Bytes32 :=
  if entry.acceptsFromThem = true ∧ entry.lastHoldAt = none then entry.endpointIdBytes.toOption
  else none

def trustRoots (store : PeerStore) : TrustRoots :=
  (store.entries.entries.filterMap fun entry => rootOf entry.2).toFinset

end PeerStore

/-- What is found at the path of the peer store: nothing, a file that cannot be
read, one that is no JSON of a store, or a store. -/
inductive PeersFile where
  | missing
  | unreadable
  | malformed
  | stored (store : PeerStore)

/-- `PeerStore::load`, with the outermost message of its errors. -/
def PeerStore.load (path : String) (file : PeersFile) : Except String PeerStore :=
  match file with
  | .missing => .ok .new
  | .unreadable => .error ("read peer store at " ++ path)
  | .malformed => .error ("parse peer store at " ++ path)
  | .stored store =>
    if store.schema ≠ currentSchema then
      .error ("peer store at " ++ path ++ " has schema v" ++ toString store.schema ++
        " but v" ++ toString currentSchema ++ " is required")
    else .ok store

/-! ## Startup -/

/-- What `std::env::var` finds. -/
inductive EnvVar where
  | notPresent
  | notUnicode
  | value (text : String)

def envString (name : String) (var : EnvVar) : Except String (Option String) :=
  match var with
  | .value text => .ok (some text)
  | .notPresent => .ok none
  | .notUnicode => .error (name ++ " must be valid UTF-8")

def parseTrustRootHex (value : List Char) : Except String Bytes32 := do
  let bytes ← okOr (Hex.decodeChars value) ("invalid trust root hex: " ++ String.ofList value)
  okOr (tryFromSlice 32 bytes)
    ("trust root must decode to exactly 32 bytes: " ++ String.ofList value)

def parseTrustRoots (value : String) : Except String (List Bytes32) :=
  collect parseTrustRootHex
    (((value.toList.splitOn ',').map Lines.trim).filter fun value => value ≠ [])

def envRoots (var : EnvVar) : Except String (List Bytes32) := do
  let text ← envString "PORTL_TRUST_ROOTS" var
  match text with
  | none => .ok []
  | some value => parseTrustRoots value

/-- The loop of `AgentConfig::build` that adds the environment's roots. The
vector it fills is only ever read as a set. -/
def addRoots (roots : TrustRoots) (added : List Bytes32) : TrustRoots :=
  added.foldl (fun roots root => if root ∈ roots then roots else insert root roots) roots

/-- `trust_roots` of `AgentConfig::build`. -/
def configTrustRoots (path : String) (file : PeersFile) (var : EnvVar) :
    Except String TrustRoots := do
  let store ← (PeerStore.load path file).mapError fun _ => "load peer store at " ++ path
  let env ← envRoots var
  .ok (addRoots store.trustRoots env)

/-- The two sets of `AgentState`. -/
structure TrustState where
  trustRoots : TrustRoots
  bootstrapRoots : TrustRoots
deriving DecidableEq

/-- `run_with_shutdown`: both sets are the startup set. The probe key is there
when the watchdog is enabled. -/
def TrustState.start (config : TrustRoots) (probe : Option Bytes32) : TrustState :=
  -- the peers known now are in `config` too, and so survive every reload
  let startup := config ∪ probe.toFinset
  ⟨startup, startup⟩

/-! ## Reloads -/

/-- One tick of the reload task: whether the set changed, or why the reload
failed. -/
def TrustState.reload (path : String) (t : TrustState) (file : PeersFile) :
    Except String Bool × TrustState :=
  match PeerStore.load path file with
  | .error e => (.error e, t)
  | .ok store =>
    let newRoots := store.trustRoots ∪ t.bootstrapRoots
    (.ok (decide (t.trustRoots ≠ newRoots)), { t with trustRoots := newRoots })

def TrustState.reloads (path : String) (files : List PeersFile) (t : TrustState) : TrustState :=
  files.foldl (fun t file => (t.reload path file).2) t

/-! ## What is trusted after a reload -/

theorem addRoots_eq (roots : TrustRoots) (added : List Bytes32) :
    addRoots roots added = roots ∪ added.toFinset := by
  unfold addRoots
  induction added generalizing roots with
  | nil => simp
  | cons root added ih =>
    have hinsert : (if root ∈ roots then roots else insert root roots) = insert root roots := by
      split
      · rename_i hmem
        exact (Finset.insert_eq_of_mem hmem).symm
      · rfl
    rw [List.foldl_cons, hinsert, ih, List.toFinset_cons, Finset.insert_union,
      Finset.union_insert]

variable {file : PeersFile} {path : String}

theorem configTrustRoots_eq_ok {var : EnvVar} {roots : TrustRoots} :
    configTrustRoots path file var = .ok roots ↔
      ∃ store env, PeerStore.load path file = .ok store ∧ envRoots var = .ok env ∧
        roots = store.trustRoots ∪ env.toFinset := by
  simp only [configTrustRoots, bind_eq_ok, mapError_eq_ok, addRoots_eq, Except.ok.injEq]
  constructor
  · rintro ⟨store, hload, env, henv, rfl⟩
    exact ⟨store, env, hload, henv, rfl⟩
  · rintro ⟨store, env, hload, henv, rfl⟩
    exact ⟨store, hload, env, henv, rfl⟩

theorem bootstrapRoots_reload (path : String) (t : TrustState) (file : PeersFile) :
    (t.reload path file).2.bootstrapRoots = t.bootstrapRoots := by
  unfold TrustState.reload
  split
  · rfl
  · rfl

theorem bootstrapRoots_reloads (path : String) (files : List PeersFile) (t : TrustState) :
    (t.reloads path files).bootstrapRoots = t.bootstrapRoots := by
  induction files generalizing t with
  | nil => rfl
  | cons file files ih =>
    show ((t.reload path file).2.reloads path files).bootstrapRoots = _
    rw [ih, bootstrapRoots_reload]

theorem reloads_snoc (path : String) (before : List PeersFile) (file : PeersFile)
    (t : TrustState) :
    t.reloads path (before ++ [file]) = ((t.reloads path before).reload path file).2 := by
  unfold TrustState.reloads
  rw [List.foldl_append]
  rfl

/-- **After any reload that finds a store**: its roots, and the snapshot. What
was read in between leaves no trace. -/
theorem mem_reloads_iff {store : PeerStore} (hload : PeerStore.load path file = .ok store)
    (before : List PeersFile) (t : TrustState) (root : Bytes32) :
    root ∈ (t.reloads path (before ++ [file])).trustRoots ↔
      root ∈ store.trustRoots ∨ root ∈ t.bootstrapRoots := by
  rw [reloads_snoc]
  unfold TrustState.reload
  rw [hload]
  show root ∈ store.trustRoots ∪ (t.reloads path before).bootstrapRoots ↔ _
  rw [bootstrapRoots_reloads, Finset.mem_union]

/-- **A reload trusts the current peers, the environment's roots and the probe
key, exactly when it has no startup peer to drop.** A peer trusted at startup
that has been removed or held since, and is trusted for no other reason, stays
trusted after every reload. -/
theorem reload_trustRoots_iff {path : String} {startFile file : PeersFile} {var : EnvVar}
    {config : TrustRoots} {startStore store : PeerStore} {env : List Bytes32}
    (hconfig : configTrustRoots path startFile var = .ok config)
    (hstart : PeerStore.load path startFile = .ok startStore) (henv : envRoots var = .ok env)
    (probe : Option Bytes32) (before : List PeersFile)
    (hload : PeerStore.load path file = .ok store) :
    ((TrustState.start config probe).reloads path (before ++ [file])).trustRoots =
        store.trustRoots ∪ env.toFinset ∪ probe.toFinset ↔
      ∀ root ∈ startStore.trustRoots,
        root ∈ store.trustRoots ∨ root ∈ env ∨ probe = some root := by
  obtain ⟨startStore', env', hstart', henv', rfl⟩ := configTrustRoots_eq_ok.mp hconfig
  obtain rfl : startStore = startStore' := Except.ok.inj (hstart.symm.trans hstart')
  obtain rfl : env = env' := Except.ok.inj (henv.symm.trans henv')
  simp only [Finset.ext_iff, mem_reloads_iff hload, TrustState.start, Finset.mem_union,
    List.mem_toFinset, Option.mem_toFinset, Option.mem_def]
  constructor
  · intro h root hroot
    have htrusted := (h root).mp (Or.inr (Or.inl (Or.inl hroot)))
    rwa [or_assoc] at htrusted
  · intro h root
    constructor
    · rintro (hstore | (hroot | henvRoot) | hprobe)
      · exact Or.inl (Or.inl hstore)
      · exact or_assoc.mpr (h root hroot)
      · exact Or.inl (Or.inr henvRoot)
      · exact Or.inr hprobe
    · rintro ((hstore | henvRoot) | hprobe)
      · exact Or.inl hstore
      · exact Or.inr (Or.inl (Or.inr henvRoot))
      · exact Or.inr (Or.inr hprobe)

/-! ### Sample stores -/

def samplePeer (b : UInt8) (lastHoldAt : Option UInt64) : PeerEntry :=
  { label := "peer", endpointIdHex := Hex.encode (Vector.replicate 32 b).toList,
    acceptsFromThem := true, theyAcceptFromMe := false, since := 100, origin := .paired,
    lastHoldAt := lastHoldAt, isSelf := false, relayHint := none, schemaVersion := 2 }

def sampleStore (entry : PeerEntry) : PeerStore :=
  ⟨currentSchema, (∅ : Finmap fun _ : String => PeerEntry).insert entry.endpointIdHex entry⟩

def storeOnly (store : PeerStore) : TrustState := .start store.trustRoots none

theorem reload_trustRoots_kept :
    let store := sampleStore (samplePeer 1 none)
    ((storeOnly store).reloads "peers.json" ([.missing, .malformed] ++
      [.stored store])).trustRoots = store.trustRoots ∪ ∅ ∪ ∅ := by
  intro store
  have hconfig : configTrustRoots "peers.json" (.stored store) .notPresent =
      .ok store.trustRoots := rfl
  exact (reload_trustRoots_iff hconfig rfl rfl none _ rfl).mpr fun _ h => Or.inl h

/-- A peer that was removed, and one that was held, are still trusted. -/
theorem reload_keeps_dropped_peer :
    let store := sampleStore (samplePeer 1 none)
    configTrustRoots "peers.json" (.stored store) .notPresent = .ok store.trustRoots ∧
    ((storeOnly store).reloads "peers.json" [.missing]).trustRoots ≠
      PeerStore.new.trustRoots ∪ ∅ ∪ ∅ ∧
    (Vector.replicate 32 1 : Bytes32) ∈
      ((storeOnly store).reloads "peers.json" [.missing]).trustRoots ∧
    (Vector.replicate 32 1 : Bytes32) ∈ ((storeOnly store).reloads "peers.json"
      [.stored (sampleStore (samplePeer 1 (some 200)))]).trustRoots ∧
    (sampleStore (samplePeer 1 (some 200))).trustRoots = ∅ := by
  refine ⟨rfl, ?_, ?_, ?_, ?_⟩ <;> decide +kernel

end Portl

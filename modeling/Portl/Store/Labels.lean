import Portl.Agent.TrustRoots

/-!
# Labels and the stores they name

`labels.rs`, `ticket_store.rs` and `store_index.rs`: the names under which
machines and tickets are kept, the store of saved tickets, and the rule that a
label belongs to one entry of one store.

`char::to_lowercase` is a table of the Unicode standard; it is the parameter
`lower` here.
-/

namespace Portl

open Checks

instance textLeTrans : IsTrans String (· ≤ ·) := ⟨fun _ _ _ => String.le_trans⟩

instance textLeAntisymm : Std.Antisymm (fun a b : String => a ≤ b) :=
  ⟨fun _ _ => String.le_antisymm⟩

/-! ## Making labels -/

section Making

variable (lower : Char → List Char)

/-- One round of the loop of `sanitize_label_component`: what was written, and
whether it ends with a dash. -/
def sanitizeStep (st : List Char × Bool) (ch : Char) : List Char × Bool :=
  if ch.isAlphanum then (st.1 ++ [ch], false)
  else if !st.2 && !st.1.isEmpty then (st.1 ++ ['-'], true)
  else st

def sanitizeLabelComponent (raw : String) : Option String :=
  let out := (((Lines.trim raw.toList).flatMap lower).foldl sanitizeStep ([], false)).1
  let out := out.rdropWhile (· == '-')
  if out.isEmpty then none else some (String.ofList out)

def endpointSuffix (endpointIdHex : String) (chars : Nat) : String :=
  let hex := (Lines.trim endpointIdHex.toList).map Char.toLower
  String.ofList (hex.drop (hex.length - chars))

def machineLabelFromHint (hint : Option String) (endpointIdHex : String) : String :=
  let base := (hint.bind (sanitizeLabelComponent lower)).getD "host"
  let suffix := endpointSuffix endpointIdHex 4
  if Str.endsWith base ("-" ++ suffix) then base else base ++ "-" ++ suffix

def machineLabel (hostname : Option String) (endpointIdHex : String) : String :=
  let host := hostname.bind fun h => ((h.toList.splitOn '.').head?).map String.ofList
  machineLabelFromHint lower host endpointIdHex

/-- `trim_matches('-')`. -/
def trimDashes (label : String) : String :=
  String.ofList ((label.toList.dropWhile (· == '-')).rdropWhile (· == '-'))

def sessionShareLabel (machine friendlyName : String) : String :=
  let friendly := (sanitizeLabelComponent lower friendlyName).getD "session"
  trimDashes machine ++ "/" ++ friendly

def ticketLabel (machine purpose : String) : String :=
  let purpose := (sanitizeLabelComponent lower purpose).getD "access"
  trimDashes machine ++ "-ticket-" ++ purpose

end Making

def asciiLower (c : Char) : List Char := [c.toLower]

/-! ## The ticket store -/

structure SessionShareMetadata where
  friendlyName : String
  providerSession : String
  provider : Option String
  originLabelHint : Option String
  targetLabelHint : Option String
deriving DecidableEq

structure TicketEntry where
  endpointIdHex : String
  ticketString : String
  expiresAt : UInt64
  savedAt : UInt64
  sessionShare : Option SessionShareMetadata
deriving DecidableEq

structure TicketStore where
  schema : UInt32
  entries : Finmap fun _ : String => TicketEntry

/-- What is found at the path of a store: nothing, a file that cannot be read,
one that is no JSON of a store, or a store. -/
inductive StoredJson (σ : Type) where
  | missing
  | unreadable
  | malformed
  | stored (store : σ)

namespace TicketStore

def new : TicketStore := ⟨currentSchema, ∅⟩

/-- `TicketStore::load`, with the outermost message of its errors. -/
def load (path : String) (file : StoredJson TicketStore) : Except String TicketStore :=
  match file with
  | .missing => .ok .new
  | .unreadable => .error ("read ticket store at " ++ path)
  | .malformed => .error ("parse ticket store at " ++ path)
  | .stored store =>
    if store.schema ≠ currentSchema then
      .error ("ticket store at " ++ path ++ " has schema v" ++ toString store.schema ++
        " but v" ++ toString currentSchema ++ " is required")
    else .ok store

def get (store : TicketStore) (label : String) : Option TicketEntry := store.entries.lookup label

def remove (store : TicketStore) (label : String) : TicketStore :=
  { store with entries := store.entries.erase label }

def insert (store : TicketStore) (label : String) (entry : TicketEntry) :
    Except String TicketStore :=
  if label ∈ store.entries then
    .error ("ticket label '" ++ label ++ "' already exists; remove it first with `portl ticket rm " ++
      label ++ "`")
  else .ok { store with entries := store.entries.insert label entry }

theorem insert_eq_ok {store store' : TicketStore} {label : String} {entry : TicketEntry} :
    store.insert label entry = .ok store' ↔
      store.get label = none ∧
        store' = { store with entries := store.entries.insert label entry } := by
  unfold insert get
  rw [Finmap.lookup_eq_none]
  split_ifs with hmem
  · simp [hmem]
  · simp [hmem, eq_comm]

end TicketStore

/-! ## One label, one entry -/

/-- `get_by_label(label).is_some()`. -/
def PeerStore.hasLabel (peers : PeerStore) (label : String) : Prop :=
  ∃ entry ∈ peers.entries.entries, entry.2.label = label

instance (peers : PeerStore) (label : String) : Decidable (peers.hasLabel label) :=
  Multiset.decidableExistsMultiset

def labelInUse (label : String) (peers : PeerStore) (tickets : TicketStore) : Option String :=
  if peers.hasLabel label then some "peer"
  else if (tickets.get label).isSome then some "ticket"
  else none

def LabelsUnique (peers : PeerStore) (tickets : TicketStore) : Prop :=
  ∀ label, tickets.get label ≠ none → ¬ peers.hasLabel label

end Portl

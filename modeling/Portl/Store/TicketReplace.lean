import Portl.Store.SessionShare

/-!
# Replacing a saved ticket

`save_ticket_at` and `TicketStore` call by call: the store in memory that is changed in
place, and the temporary file that is written and renamed. Any call of the file system can
fail, and what was done up to then stays done.

`Store/SessionShare.lean` has the same command with its save as one step. The file-level
one refines it (`saveTicketFiles_refines`), so what holds of the step holds here, whichever
call fails.
-/

namespace Portl

open Checks

abbrev InPlace (σ α : Type) := ExceptT String (StateM σ) α

/-- `?` on a result that changes nothing. -/
def orFail {σ α : Type} (result : Except String α) : InPlace σ α := fun s => (result, s)

variable {α : Type}

theorem inPlace_bind {σ β : Type} (x : InPlace σ α) (g : α → InPlace σ β) (s : σ) :
    (x >>= g) s = match x s with
      | (.ok a, s') => g a s'
      | (.error err, s') => (.error err, s') := by
  have hrun : (x >>= g) s = (ExceptT.bindCont g (x s).1 : StateM σ (Except String β)) (x s).2 := rfl
  rw [hrun]
  rcases x s with ⟨err | a, s'⟩
  · rfl
  · rfl

/-! ## In memory -/

namespace TicketStore

def insertInPlace (label : String) (entry : TicketEntry) : InPlace TicketStore Unit := fun store =>
  match store.insert label entry with
  | .ok store' => (.ok (), store')
  | .error err => (.error err, store)

def removeInPlace (label : String) : InPlace TicketStore Unit :=
  fun store => (.ok (), store.remove label)

/-- What `save_ticket_at` does with the loaded store: check what stands under the label,
take it out, and put the new entry in. -/
def placeTicket (label : String) (entry : TicketEntry) : InPlace TicketStore Unit := fun store =>
  match store.get label with
  | some existing =>
    (do
      orFail (checkReplaceable "pick another label or remove it first" label
        entry.endpointIdHex entry.expiresAt existing)
      removeInPlace label
      insertInPlace label entry : InPlace TicketStore Unit) store
  | none => insertInPlace label entry store

/-- **An entry that cannot be placed leaves the store in memory as it was.** The insert
comes after the removal, but it has nothing left to fail on. -/
theorem placeTicket_eq (label : String) (entry : TicketEntry) (store : TicketStore) :
    placeTicket label entry store =
      match (do
        let room ← makeRoomForSave label entry.endpointIdHex entry.expiresAt store
        room.insert label entry) with
      | .ok after => (.ok (), after)
      | .error err => (.error err, store) := by
  rw [placeTicket, makeRoomForSave]
  cases hget : store.get label with
  | none => rfl
  | some existing =>
    cases hcheck : checkReplaceable "pick another label or remove it first" label
        entry.endpointIdHex entry.expiresAt existing with
    | error err =>
      simp only [hcheck]
      rfl
    | ok _ =>
      have hfree : (store.remove label).get label = none :=
        Finmap.lookup_erase label store.entries
      have hinsert : (store.remove label).insert label entry = .ok _ :=
        insert_eq_ok.mpr ⟨hfree, rfl⟩
      simp only [hcheck]
      show insertInPlace label entry (store.remove label) =
        match (store.remove label).insert label entry with
        | .ok after => (.ok (), after)
        | .error err => (.error err, store)
      rw [insertInPlace, hinsert]

end TicketStore

/-! ## On disk -/

/-- The two files, the temporary one beside that of the tickets, and the paths that
`parent` and `with_extension` give. -/
structure StoreFiles where
  stores : Stores
  parent : Option String
  tmpPath : String
  tmp : StoredJson TicketStore

structure SaveIo where
  createDirAll : Except String Unit
  encode : Except String Unit
  create : Except String Unit
  writeAll : Except String Unit
  syncAll : Except String Unit
  rename : Except String Unit

/-- `with_context`: the outermost message. -/
def withContext {α : Type} (result : Except String α) (context : String) : Except String α :=
  result.mapError fun _ => context

/-- `TicketStore::save`. What is in the temporary file before all of it is written is no
store. -/
def TicketStore.save (store : TicketStore) (io : SaveIo) : InPlace StoreFiles Unit := do
  let files ← getThe StoreFiles
  match files.parent with
  | some parent => orFail (withContext io.createDirAll ("create " ++ parent))
  | none => pure ()
  orFail (withContext io.encode "encode ticket store")
  orFail (withContext io.create ("create " ++ files.tmpPath))
  modifyThe StoreFiles fun files => { files with tmp := .malformed }
  orFail io.writeAll
  modifyThe StoreFiles fun files => { files with tmp := .stored store }
  orFail io.syncAll
  orFail (withContext io.rename
    ("rename " ++ files.tmpPath ++ " -> " ++ files.stores.ticketsPath))
  modifyThe StoreFiles fun files =>
    { files with stores := { files.stores with tickets := .stored store }, tmp := .missing }

def Spares {α : Type} (x : InPlace StoreFiles α) : Prop :=
  ∀ files, ∃ result tmp, x files = (result, { files with tmp := tmp })

/-- The code fails and has changed no file but the temporary one, or it has put the store
in place. -/
def Publishes (store : TicketStore) (x : InPlace StoreFiles Unit) : Prop :=
  ∀ files, (∃ err tmp, x files = (.error err, { files with tmp := tmp })) ∨
    x files = (.ok (), { files with
      stores := { files.stores with tickets := .stored store }, tmp := .missing })

theorem spares_orFail (result : Except String α) : Spares (orFail result : InPlace StoreFiles α) :=
  fun files => ⟨result, files.tmp, rfl⟩

theorem spares_get : Spares (getThe StoreFiles) := fun files => ⟨.ok files, files.tmp, rfl⟩

theorem spares_modify (tmp : StoredJson TicketStore) :
    Spares (modifyThe StoreFiles fun files => { files with tmp := tmp }) :=
  fun _ => ⟨.ok (), tmp, rfl⟩

theorem Publishes.after {store : TicketStore} {x : InPlace StoreFiles α}
    {g : α → InPlace StoreFiles Unit} (hx : Spares x) (hg : ∀ a, Publishes store (g a)) :
    Publishes store (x >>= g) := by
  intro files
  obtain ⟨result, tmp, hrun⟩ := hx files
  rw [inPlace_bind, hrun]
  cases result with
  | error err => exact .inl ⟨err, tmp, rfl⟩
  | ok a => exact hg a { files with tmp := tmp }

theorem publishes_save (store : TicketStore) (io : SaveIo) : Publishes store (store.save io) := by
  rw [TicketStore.save]
  refine Publishes.after spares_get fun files => ?_
  cases files.parent
  case' some parent => refine Publishes.after (spares_orFail _) fun _ => ?_
  all_goals
    iterate 2 refine Publishes.after (spares_orFail _) fun _ => ?_
    refine Publishes.after (spares_modify _) fun _ => Publishes.after (spares_orFail _) fun _ => ?_
    refine Publishes.after (spares_modify _) fun _ => Publishes.after (spares_orFail _) fun _ => ?_
    refine Publishes.after (spares_orFail _) fun _ => ?_
    exact fun files => .inr rfl

/-! ## The command -/

section Command

variable (decodeString : String → Except String PortlTicket) (lower : Char → List Char)

/-- `save_ticket_at`. All that comes before the save reads the files and works on the store
in memory, which is the call's own and goes with it. -/
def saveTicketFiles (label : Option String) (ticketString : String) (found : Option PeerEntry)
    (now : UInt64) (io : SaveIo) : InPlace StoreFiles SavedTicket := do
  let files ← getThe StoreFiles
  let prepared ← orFail
    (prepareTicket decodeString lower label ticketString found now files.stores)
  prepared.1.save io
  return prepared.2

variable (label : Option String) (ticketString : String) (found : Option PeerEntry) (now : UInt64)

theorem saveTicketFiles_refines (io : SaveIo) (files : StoreFiles) :
    ∃ fault, ((saveTicketFiles decodeString lower label ticketString found now io files).1,
        (saveTicketFiles decodeString lower label ticketString found now io files).2.stores) =
      saveTicketAt decodeString lower label ticketString found now fault files.stores := by
  have hrun : saveTicketFiles decodeString lower label ticketString found now io files =
      match prepareTicket decodeString lower label ticketString found now files.stores with
      | .error err => (.error err, files)
      | .ok (tickets, saved) =>
        match tickets.save io files with
        | (.error err, files') => (.error err, files')
        | (.ok (), files') => (.ok saved, files') := by
    have hget : (getThe StoreFiles : InPlace StoreFiles StoreFiles) files = (.ok files, files) := rfl
    rw [saveTicketFiles, inPlace_bind, hget]
    simp only [inPlace_bind, orFail]
    cases prepareTicket decodeString lower label ticketString found now files.stores with
    | error err => rfl
    | ok prepared =>
      obtain ⟨tickets, saved⟩ := prepared
      dsimp only
      rcases tickets.save io files with ⟨err | _, files'⟩
      · rfl
      · rfl
  simp only [saveTicketAt, hrun]
  cases prepareTicket decodeString lower label ticketString found now files.stores with
  | error err => exact ⟨none, rfl⟩
  | ok prepared =>
    obtain ⟨tickets, saved⟩ := prepared
    rcases publishes_save tickets io files with ⟨err, tmp, hsave⟩ | hsave
    · refine ⟨some err, ?_⟩
      simp only [hsave]
      rfl
    · refine ⟨none, ?_⟩
      simp only [hsave]
      rfl

/-- What a successful save did to the tickets: the new entry is under its label, an entry
that stood there was for the same endpoint and expired earlier, and no other entry has
changed. -/
structure MovedForward (label : String) (ticket : PortlTicket) (ticketString : String)
    (now : UInt64) (before after : TicketStore) : Prop where
  here : after.get label = some (ticketEntryOf ticket ticketString now)
  others : ∀ other, other ≠ label → after.get other = before.get other
  replaced : ∀ old, before.get label = some old →
    Hex.decode old.endpointIdHex = some ticket.addr.id.toList ∧
      old.expiresAt < ticket.body.notAfter

theorem Placed.movedForward {label ticketString : String} {now : UInt64} {ticket : PortlTicket}
    {peers : PeerStore} {before after : TicketStore}
    (h : Placed label (ticketEntryOf ticket ticketString now) peers before after) :
    MovedForward label ticket ticketString now before after where
  here := h.here
  others := h.others
  replaced old hold := by
    obtain ⟨hendpoint, hexpiry⟩ := h.replaced old hold
    refine ⟨hendpoint.trans ?_, hexpiry⟩
    exact Hex.decode_encode _

/-- **Replacing a ticket only moves forward.** A save that succeeds has put the new ticket
in the place of one for the same endpoint that expired earlier, or in a free place, and
changed nothing else; one that fails, at whichever call, has left both stores on disk as
they were. In memory an entry that is refused leaves the store as it was. -/
theorem saveTicketFiles_moves_forward (io : SaveIo) (files files' : StoreFiles) :
    (∀ saved, saveTicketFiles decodeString lower label ticketString found now io files =
        (.ok saved, files') →
      ∃ ticket before after, decodeString ticketString = .ok ticket ∧
        TicketStore.load files.stores.ticketsPath files.stores.tickets = .ok before ∧
        TicketStore.load files'.stores.ticketsPath files'.stores.tickets = .ok after ∧
        files'.stores = { files.stores with tickets := .stored after } ∧
        MovedForward saved.label ticket ticketString now before after) ∧
    (∀ err, saveTicketFiles decodeString lower label ticketString found now io files =
        (.error err, files') →
      files'.stores = files.stores) ∧
    (∀ place entry store store' err, TicketStore.placeTicket place entry store =
        (.error err, store') →
      store' = store) := by
  obtain ⟨fault, hrefines⟩ :=
    saveTicketFiles_refines decodeString lower label ticketString found now io files
  rw [saveTicketAt] at hrefines
  refine ⟨?_, ?_, ?_⟩
  · intro saved hsaved
    rw [hsaved] at hrefines
    rcases files.stores.commit_cases fault
      (prepareTicket decodeString lower label ticketString found now files.stores) with
      ⟨err, hcommit⟩ | ⟨after, result, hprepare, hcommit⟩
    · cases hrefines.trans hcommit
    · obtain ⟨hresult, hstores⟩ := Prod.mk.inj (hrefines.trans hcommit)
      cases hresult
      obtain ⟨ticket, peers, before, hticket, -, hbefore, hplaced⟩ := prepareTicket_eq_ok hprepare
      refine ⟨ticket, before, after, hticket, hbefore, ?_, hstores, hplaced.movedForward⟩
      rw [hstores]
      exact hplaced.load hbefore
  · intro err herr
    rw [herr] at hrefines
    rcases files.stores.commit_cases fault
      (prepareTicket decodeString lower label ticketString found now files.stores) with
      ⟨err', hcommit⟩ | ⟨after, result, -, hcommit⟩
    · exact (Prod.mk.inj (hrefines.trans hcommit)).2
    · cases hrefines.trans hcommit
  · intro place entry store store' err hplace
    rw [TicketStore.placeTicket_eq] at hplace
    split at hplace
    · cases hplace
    · cases hplace
      rfl

end Command

/-- A store with a ticket for the sample endpoint, whose id is written in capitals, under
`desk`. -/
def deskStore : TicketStore :=
  ⟨currentSchema, (∅ : Finmap fun _ : String => TicketEntry).insert "desk"
    ⟨String.ofList ((Hex.encode (sampleKey 1).toList).toList.map Char.toUpper), "portlold", 160, 120,
      none⟩⟩

def deskFiles : StoreFiles :=
  ⟨{ emptyStores with tickets := .stored deskStore }, none, "tickets.json.tmp", .missing⟩

def calmIo : SaveIo := ⟨.ok (), .ok (), .ok (), .ok (), .ok (), .ok ()⟩

/-- The older ticket is replaced; with a rename that fails it stays; and nothing can be put
in the place of a ticket that expires later. -/
theorem saveTicketFiles_moves_forward_desk :
    (∃ files', saveTicketFiles (shareText none) asciiLower (some " desk ") "portlshare" none 150
          calmIo deskFiles =
        (.ok ⟨"desk", Hex.encode (sampleKey 1).toList, 200, 150⟩, files') ∧
      ∃ ticket before after, shareText none "portlshare" = .ok ticket ∧
        TicketStore.load deskFiles.stores.ticketsPath deskFiles.stores.tickets = .ok before ∧
        TicketStore.load files'.stores.ticketsPath files'.stores.tickets = .ok after ∧
        files'.stores = { deskFiles.stores with tickets := .stored after } ∧
        MovedForward "desk" ticket "portlshare" 150 before after) ∧
    (saveTicketFiles (shareText none) asciiLower (some "desk") "portlshare" none 150
        { calmIo with rename := .error "EACCES" } deskFiles).2.stores = deskFiles.stores ∧
    (TicketStore.placeTicket "desk" (ticketEntryOf { shareTicket none with
        body := { (shareTicket none).body with notAfter := 155 } } "portlnew" 150) deskStore).2 =
      deskStore := by
  have hok : (saveTicketFiles (shareText none) asciiLower (some " desk ") "portlshare" none 150
      calmIo deskFiles).1 = .ok ⟨"desk", Hex.encode (sampleKey 1).toList, 200, 150⟩ := by
    decide +kernel
  have hfail : (saveTicketFiles (shareText none) asciiLower (some "desk") "portlshare" none 150
      { calmIo with rename := .error "EACCES" } deskFiles).1 =
        .error "rename tickets.json.tmp -> tickets.json" := by decide +kernel
  have hrefused : (TicketStore.placeTicket "desk" (ticketEntryOf { shareTicket none with
        body := { (shareTicket none).body with notAfter := 155 } } "portlnew" 150) deskStore).1 =
      .error ("ticket 'desk' already exists for this endpoint and expires later or at the " ++
        "same time; keeping the existing ticket") := by decide +kernel
  refine ⟨⟨_, Prod.ext hok rfl, ?_⟩, ?_, ?_⟩
  · exact (saveTicketFiles_moves_forward (shareText none) asciiLower (some " desk ") "portlshare"
      none 150 calmIo deskFiles _).1 _ (Prod.ext hok rfl)
  · exact (saveTicketFiles_moves_forward (shareText none) asciiLower (some "desk") "portlshare"
      none 150 _ deskFiles _).2.1 _ (Prod.ext hfail rfl)
  · exact (saveTicketFiles_moves_forward (shareText none) asciiLower (some "desk") "portlshare"
      none 150 calmIo deskFiles deskFiles).2.2 _ _ _ _ _ (Prod.ext hrefused rfl)

end Portl

import Mathlib.Data.Finmap
import Portl.Ticket.Schema

/-!
# The live-session index

The `live_sessions` field of `RevocationSet` (`revocations.rs`): a map from
ticket ids to maps from session ids to cancellation tokens, with the two
functions that maintain it and the one that reads it. Maps are `Finmap`s: the
iteration order of a `HashMap` is never observed.

Everything below goes through `tokenOf`, the token found under a ticket id and
a session id; the folds over a ticket chain become one `if` on it.
-/

namespace Portl

/-- The identity of a `CancellationToken`; clones of a token share it. -/
abbrev Token : Type := ℕ

abbrev SessionTokens : Type := Finmap fun _ : Bytes16 => Token

abbrev LiveSessions : Type := Finmap fun _ : Bytes16 => SessionTokens

namespace LiveSessions

/-- `entry(ticket_id).or_default().insert(session_id, token)`. -/
def registerOne (sessionId : Bytes16) (token : Token) (live : LiveSessions)
    (ticketId : Bytes16) : LiveSessions :=
  live.insert ticketId (((live.lookup ticketId).getD ∅).insert sessionId token)

/-- `register_live_session`. Repeated chain ids are collapsed first. -/
def register (live : LiveSessions) (sessionId : Bytes16) (ticketChainIds : List Bytes16)
    (token : Token) : LiveSessions :=
  ticketChainIds.dedup.foldl (registerOne sessionId token) live

/-- The loop body of `deregister_live_session`: an inner map that becomes
empty is dropped with its key. -/
def deregisterOne (sessionId : Bytes16) (live : LiveSessions) (ticketId : Bytes16) :
    LiveSessions :=
  match live.lookup ticketId with
  | none => live
  | some sessions =>
    if sessions.erase sessionId = ∅ then live.erase ticketId
    else live.insert ticketId (sessions.erase sessionId)

/-- `deregister_live_session`. -/
def deregister (live : LiveSessions) (sessionId : Bytes16) (ticketChainIds : List Bytes16) :
    LiveSessions :=
  ticketChainIds.dedup.foldl (deregisterOne sessionId) live

/-- The tokens `cancel_live_sessions` cancels. -/
def tokens (live : LiveSessions) (ticketId : Bytes16) : Finset Token :=
  match live.lookup ticketId with
  | none => ∅
  | some sessions => (sessions.entries.map Sigma.snd).toFinset

/-! ## The index as a partial function -/

def tokenOf (live : LiveSessions) (ticketId sessionId : Bytes16) : Option Token :=
  (live.lookup ticketId).bind fun sessions => sessions.lookup sessionId

theorem mem_tokens {live : LiveSessions} {ticketId : Bytes16} {token : Token} :
    token ∈ live.tokens ticketId ↔ ∃ sessionId, live.tokenOf ticketId sessionId = some token := by
  unfold tokens tokenOf
  cases live.lookup ticketId with
  | none => simp
  | some sessions => simp [Finmap.lookup_eq_some_iff]

theorem tokenOf_registerOne (live : LiveSessions) (sessionId ticketId t s : Bytes16)
    (token : Token) :
    (registerOne sessionId token live ticketId).tokenOf t s =
      if t = ticketId ∧ s = sessionId then some token else live.tokenOf t s := by
  unfold registerOne tokenOf
  by_cases ht : t = ticketId
  · subst ht
    rw [Finmap.lookup_insert]
    by_cases hs : s = sessionId
    · subst hs
      simp [Finmap.lookup_insert]
    · simp only [hs, and_false, if_false, Option.bind_some]
      rw [Finmap.lookup_insert_of_ne _ hs]
      cases live.lookup t <;> simp
  · rw [Finmap.lookup_insert_of_ne _ ht]
    simp [ht]

theorem tokenOf_deregisterOne (live : LiveSessions) (sessionId ticketId t s : Bytes16) :
    (deregisterOne sessionId live ticketId).tokenOf t s =
      if t = ticketId ∧ s = sessionId then none else live.tokenOf t s := by
  -- the inner map after removal, read at any session id
  have herase : ∀ sessions : SessionTokens, (sessions.erase sessionId).lookup s =
      if s = sessionId then none else sessions.lookup s := by
    intro sessions
    by_cases hs : s = sessionId
    · subst hs
      simp
    · simp [Finmap.lookup_erase_ne hs, hs]
  unfold deregisterOne tokenOf
  cases hlook : live.lookup ticketId with
  | none =>
    by_cases ht : t = ticketId
    · subst ht
      simp [hlook]
    · simp [ht]
  | some sessions =>
    dsimp only
    by_cases ht : t = ticketId
    · subst ht
      split
      · rename_i hempty
        have hnone := herase sessions
        rw [hempty, Finmap.lookup_empty] at hnone
        simp only [Finmap.lookup_erase, Option.bind_none, hlook, Option.bind_some, true_and]
        exact hnone
      · simp only [Finmap.lookup_insert, Option.bind_some, hlook, true_and]
        exact herase sessions
    · split
      · simp [Finmap.lookup_erase_ne ht, ht]
      · simp [Finmap.lookup_insert_of_ne _ ht, ht]

/-- Both functions fold a body that sets one pair to one value; the fold sets
that value under every id of the list. -/
theorem tokenOf_foldl {f : LiveSessions → Bytes16 → LiveSessions} {sessionId t s : Bytes16}
    {value : Option Token}
    (hf : ∀ live c, (f live c).tokenOf t s =
      if t = c ∧ s = sessionId then value else live.tokenOf t s)
    (live : LiveSessions) (chain : List Bytes16) :
    (chain.foldl f live).tokenOf t s =
      if t ∈ chain ∧ s = sessionId then value else live.tokenOf t s := by
  induction chain generalizing live with
  | nil => simp
  | cons c cs ih =>
    rw [List.foldl_cons, ih, hf]
    by_cases hs : s = sessionId <;> by_cases ht : t = c <;> simp [hs, ht]

theorem tokenOf_register (live : LiveSessions) (sessionId t s : Bytes16)
    (chain : List Bytes16) (token : Token) :
    (live.register sessionId chain token).tokenOf t s =
      if t ∈ chain ∧ s = sessionId then some token else live.tokenOf t s := by
  rw [register, tokenOf_foldl fun live c => tokenOf_registerOne live sessionId c t s token]
  simp only [List.mem_dedup]

theorem tokenOf_deregister (live : LiveSessions) (sessionId t s : Bytes16)
    (chain : List Bytes16) :
    (live.deregister sessionId chain).tokenOf t s =
      if t ∈ chain ∧ s = sessionId then none else live.tokenOf t s := by
  rw [deregister, tokenOf_foldl fun live c => tokenOf_deregisterOne live sessionId c t s]
  simp only [List.mem_dedup]

/-! ## Runs -/

/-- A registration with a token, or a deregistration. -/
structure Call where
  sessionId : Bytes16
  ticketChainIds : List Bytes16
  token : Option Token

namespace Call

def apply (live : LiveSessions) (call : Call) : LiveSessions :=
  match call.token with
  | some token => live.register call.sessionId call.ticketChainIds token
  | none => live.deregister call.sessionId call.ticketChainIds

def Names (call : Call) (ticketId sessionId : Bytes16) : Prop :=
  ticketId ∈ call.ticketChainIds ∧ sessionId = call.sessionId

instance (call : Call) (ticketId sessionId : Bytes16) : Decidable (call.Names ticketId sessionId) :=
  inferInstanceAs (Decidable (_ ∧ _))

end Call

def run (calls : List Call) : LiveSessions := calls.foldl Call.apply ∅

/-- No inner map is empty. -/
def Compact (live : LiveSessions) : Prop := ∀ ticketId, live.lookup ticketId ≠ some ∅

variable {live live' : LiveSessions} {t s : Bytes16}

theorem Compact.insert (h : live.Compact) {sessions : SessionTokens} (hne : sessions ≠ ∅) :
    Compact (Finmap.insert t sessions live) := by
  intro ticketId
  by_cases ht : ticketId = t
  · rw [ht, Finmap.lookup_insert]
    exact fun heq => hne (Option.some.inj heq)
  · rw [Finmap.lookup_insert_of_ne _ ht]
    exact h ticketId

theorem compact_register (h : live.Compact) (sessionId : Bytes16) (chain : List Bytes16)
    (token : Token) : (live.register sessionId chain token).Compact := by
  refine List.foldlRecOn _ _ h fun live hlive ticketId _ => hlive.insert fun hempty => ?_
  have hlookup := congrArg (Finmap.lookup sessionId) hempty
  rw [Finmap.lookup_insert, Finmap.lookup_empty] at hlookup
  cases hlookup

theorem compact_deregister (h : live.Compact) (sessionId : Bytes16) (chain : List Bytes16) :
    (live.deregister sessionId chain).Compact := by
  refine List.foldlRecOn _ _ h fun live hlive ticketId _ => ?_
  unfold deregisterOne
  split
  · exact hlive
  · split_ifs with hempty
    · intro other
      by_cases hother : other = ticketId
      · rw [hother, Finmap.lookup_erase]
        exact (Option.some_ne_none _).symm
      · rw [Finmap.lookup_erase_ne hother]
        exact hlive other
    · exact hlive.insert hempty

theorem compact_run (calls : List Call) : (run calls).Compact := by
  refine List.foldlRecOn _ _ (fun _ h => by cases h) fun live h call _ => ?_
  unfold Call.apply
  split
  · exact compact_register h _ _ _
  · exact compact_deregister h _ _

theorem Compact.lookup_eq_none (h : live.Compact) :
    live.lookup t = none ↔ ∀ s, live.tokenOf t s = none := by
  unfold tokenOf
  cases hlook : live.lookup t with
  | none => simp
  | some sessions =>
    simp only [reduceCtorEq, Option.bind_some, false_iff]
    exact fun hnone => h t (hlook.trans (congrArg some (Finmap.ext_lookup hnone)))

/-- Without empty inner maps the index is what can be found in it. -/
theorem Compact.ext (h : live.Compact) (h' : live'.Compact)
    (heq : ∀ t s, live.tokenOf t s = live'.tokenOf t s) : live = live' := by
  apply Finmap.ext_lookup
  intro t
  have hnone := h.lookup_eq_none (t := t)
  simp only [heq, ← h'.lookup_eq_none] at hnone
  have hfound := heq t
  unfold tokenOf at hfound
  cases hlook : live.lookup t with
  | none => exact (hnone.mp hlook).symm
  | some sessions =>
    cases hlook' : live'.lookup t with
    | none => exact (hlook.symm.trans (hnone.mpr hlook')).symm ▸ rfl
    | some sessions' =>
      rw [hlook, hlook'] at hfound
      exact congrArg some (Finmap.ext_lookup hfound)

theorem tokenOf_apply (call : Call) : (call.apply live).tokenOf t s =
    if call.Names t s then call.token else live.tokenOf t s := by
  unfold Call.apply Call.Names
  cases call.token with
  | some token => exact tokenOf_register _ _ _ _ _ _
  | none => exact tokenOf_deregister _ _ _ _ _

theorem tokenOf_run (calls : List Call) : (run calls).tokenOf t s =
    (calls.reverse.find? fun call => call.Names t s).bind Call.token := by
  induction calls using List.reverseRecOn with
  | nil => rfl
  | append_singleton calls last ih =>
    have hlast : (run (calls ++ [last])).tokenOf t s = _ :=
      (congrArg (tokenOf · t s) List.foldl_append).trans (tokenOf_apply last)
    rw [hlast, List.reverse_append, List.reverse_singleton, List.singleton_append, List.find?_cons]
    by_cases hnames : last.Names t s
    · simp [hnames]
    · simpa [hnames, run] using ih

/-- **The index is exact.** Under a pair it has the token of the last call that names the
pair, which is none if that is a deregistration. -/
theorem live_sessions_exact (calls : List Call) :
    (∀ t s, (run calls).tokenOf t s =
      (calls.reverse.find? fun call => call.Names t s).bind Call.token) ∧
    (∀ t, (run calls).lookup t ≠ some ∅) ∧
    ∀ s chain token, (∀ t ∈ chain, (run calls).tokenOf t s = none) →
      ((run calls).register s chain token).deregister s chain = run calls := by
  refine ⟨fun t s => tokenOf_run calls, compact_run calls, ?_⟩
  intro s chain token hfresh
  have hregistered := compact_register (compact_run calls) s chain token
  refine (compact_deregister hregistered s chain).ext (compact_run calls) fun t s' => ?_
  rw [tokenOf_deregister, tokenOf_register]
  grind

/-- An id stands twice in the chain. -/
theorem live_sessions_exact_twice :
    ((run []).register (Vector.replicate 16 1) [Vector.replicate 16 2, Vector.replicate 16 2]
        7).deregister (Vector.replicate 16 1) [Vector.replicate 16 2, Vector.replicate 16 2] =
      run [] :=
  (live_sessions_exact []).2.2 _ _ _ fun _ _ => rfl

end LiveSessions

end Portl

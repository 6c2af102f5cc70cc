import Mathlib.Data.Finset.Sort
import Portl.Store.Labels

/-!
# Short forms of endpoint ids

`portl-cli/src/eid.rs`: an endpoint id is shown as `PPPPPPPP…SSSS`, and a token of that
form is looked up among the ids in the peer and ticket stores. Which 32 bytes are an
endpoint id at all is the transport library's business.

The ids are matched as texts. A token is resolved exactly when one known id begins and
ends as it says; the containers and virtual machines that are known by an alias are not
asked.
-/

namespace Portl

open Checks

/-- `ELLIPSIS`. -/
def eidEllipsis : Char := '…'

def shortPrefixLen : ℕ := 8

def shortSuffixLen : ℕ := 4

/-- `format_short`. The slices count bytes; the text is hexadecimal. -/
def formatShort (eidHex : String) : String :=
  if eidHex.utf8ByteSize ≤ shortPrefixLen + shortSuffixLen then eidHex
  else
    String.ofList (eidHex.toList.take shortPrefixLen ++ eidEllipsis ::
      eidHex.toList.drop (eidHex.toList.length - shortSuffixLen))

/-- `chars().all(|c| c.is_ascii_hexdigit())`. -/
def allAsciiHexDigits (s : String) : Bool := s.toList.all fun c => (Hex.value c).isSome

/-- `to_ascii_lowercase`. -/
def asciiLowerText (s : String) : String := String.ofList (s.toList.map Char.toLower)

def PeerStore.eids (store : PeerStore) : Multiset String :=
  store.entries.entries.map fun entry => entry.2.endpointIdHex

def TicketStore.eids (store : TicketStore) : Multiset String :=
  store.entries.entries.map fun entry => entry.2.endpointIdHex

/-- `known_eids`: what is collected from the stores, sorted and without repetition. -/
def knownEids (peers : Option PeerStore) (tickets : Option TicketStore) : List String :=
  (peers.elim 0 PeerStore.eids + tickets.elim 0 TicketStore.eids).toFinset.sort (· ≤ ·)

section Resolve

variable (isEndpointId : Bytes32 → Bool)

def parseFullHex (hexStr : String) : Except String Bytes32 := do
  let bytes ← okOr (Hex.decode hexStr) "endpoint id hex decode"
  let id ← okOr (tryFromSlice 32 bytes) "endpoint id must be exactly 32 bytes"
  failIf (isEndpointId id = false) "invalid endpoint id"
  return id

def ambiguousEid (token : String) (found : List String) : String :=
  "endpoint id '" ++ token ++ "' is ambiguous (" ++ toString found.length ++ " matches: " ++
    ", ".intercalate ((found.take 5).map formatShort) ++
    (if found.length > 5 then ", …" else "") ++
    "). Retype more prefix or suffix characters."

def eidMatches (known : List String) (front back : String) : List String :=
  known.filter fun full => Str.startsWith full front && Str.endsWith full back

def resolveKnown (token front back : String) (known : List String) : Except String Bytes32 :=
  match eidMatches known front back with
  | [] => .error ("no known peer matches '" ++ token ++
      "'. Run `portl peer ls` or `portl ticket ls` to see stored peers.")
  | [found] => parseFullHex isEndpointId found
  | found => .error (ambiguousEid token found)

/-- `resolve`. -/
def resolveEid (token : String) (peers : Option PeerStore) (tickets : Option TicketStore) :
    Except String Bytes32 :=
  if token.utf8ByteSize = 64 ∧ allAsciiHexDigits token = true then parseFullHex isEndpointId token
  else do
    let (frontRaw, backRaw) ← okOr (Str.splitOnce token eidEllipsis)
      ("endpoint id '" ++ token ++
        "' must be 64-char hex or a middle-elided form like `d65f9e65…7310`")
    let front := asciiLowerText frontRaw
    let back := asciiLowerText backRaw
    failIf (allAsciiHexDigits front = false ∨ allAsciiHexDigits back = false)
      ("endpoint id '" ++ token ++ "' has non-hex characters")
    failIf (front = "" ∧ back = "") ("endpoint id '" ++ token ++ "' is empty around the ellipsis")
    failIf (knownEids peers tickets = [])
      ("endpoint id '" ++ token ++ "' is a short form but no peers are stored locally to " ++
        "resolve against; pass the full 64-char hex id")
    resolveKnown isEndpointId token front back (knownEids peers tickets)

end Resolve

/-! ## Known ids -/

def KnownEid (peers : Option PeerStore) (tickets : Option TicketStore) (eid : String) : Prop :=
  (∃ store ∈ peers, eid ∈ store.eids) ∨ ∃ store ∈ tickets, eid ∈ store.eids

variable {peers : Option PeerStore} {tickets : Option TicketStore} {isEndpointId : Bytes32 → Bool}
  {eid : String} {n : ℕ} {bytes : Bytes} {part : List Char} {known : List String}

theorem mem_knownEids : eid ∈ knownEids peers tickets ↔ KnownEid peers tickets eid := by
  unfold knownEids KnownEid
  cases peers <;> cases tickets <;> simp

theorem nodup_knownEids : (knownEids peers tickets).Nodup := Finset.sort_nodup _ _

/-! ## The text of an id -/

def eidHex (id : Bytes32) : String := Hex.encode id.toList

theorem hexDigit_facts (h : n < 16) :
    (Hex.digit n).toLower = Hex.digit n ∧ Hex.digit n ≠ eidEllipsis := by
  have hall : ∀ m : Fin 16, (Hex.digit m).toLower = Hex.digit m ∧ Hex.digit m ≠ eidEllipsis := by
    decide
  exact hall ⟨n, h⟩

theorem exists_digit_of_mem_encode {c : Char} (h : c ∈ (Hex.encode bytes).toList) :
    ∃ n < 16, c = Hex.digit n := by
  rw [Hex.encode, String.toList_ofList, List.mem_flatMap] at h
  obtain ⟨b, -, hc⟩ := h
  have hb : b.toNat < 256 := b.toNat_lt
  simp only [Hex.encodeByte, List.mem_cons, List.not_mem_nil, or_false] at hc
  rcases hc with rfl | rfl
  · exact ⟨b.toNat / 16, by omega, rfl⟩
  · exact ⟨b.toNat % 16, by omega, rfl⟩

theorem length_encode (bytes : Bytes) : (Hex.encode bytes).toList.length = 2 * bytes.length := by
  rw [Hex.encode, String.toList_ofList, List.length_flatMap]
  simp [Hex.encodeByte, Nat.mul_comm]

/-- Part of the text of an id: lower-case digits, and no ellipsis. -/
structure EidPart (part : List Char) : Prop where
  lowercase : part.map Char.toLower = part
  hex : allAsciiHexDigits (String.ofList part) = true
  ellipsis : eidEllipsis ∉ part

variable {id : Bytes32} {back front token : String}

theorem eidPart_of_subset (h : part ⊆ (eidHex id).toList) : EidPart part where
  lowercase := by
    have hsame : ∀ c ∈ part, c.toLower = c := by
      intro c hc
      obtain ⟨n, hn, rfl⟩ := exists_digit_of_mem_encode (h hc)
      exact (hexDigit_facts hn).1
    rw [List.map_congr_left hsame, List.map_id']
  hex := by
    rw [allAsciiHexDigits, String.toList_ofList, List.all_eq_true]
    intro c hc
    obtain ⟨n, hn, rfl⟩ := exists_digit_of_mem_encode (h hc)
    rw [Hex.value_digit hn]
    rfl
  ellipsis := by
    intro hmem
    obtain ⟨n, hn, heq⟩ := exists_digit_of_mem_encode (h hmem)
    exact (hexDigit_facts hn).2 heq.symm

theorem tryFromSlice_eq_some {v : Vector UInt8 n} :
    tryFromSlice n bytes = some v ↔ bytes = v.toList := by
  constructor
  · intro h
    unfold tryFromSlice at h
    split at h
    · cases h
      rfl
    · cases h
  · rintro rfl
    exact tryFromSlice_toList v

theorem parseFullHex_eq_ok {text : String} :
    parseFullHex isEndpointId text = .ok id ↔
      Hex.decode text = some id.toList ∧ isEndpointId id = true := by
  simp only [parseFullHex, bind_eq_ok, okOr_eq_ok, failIf_eq_ok, exists_const,
    tryFromSlice_eq_some]
  constructor
  · rintro ⟨bytes, hdecode, id', rfl, hvalid, hid⟩
    cases hid
    exact ⟨hdecode, by simpa using hvalid⟩
  · rintro ⟨hdecode, hvalid⟩
    exact ⟨_, hdecode, id, rfl, by simp [hvalid], rfl⟩

/-! ## Looking up -/

theorem eidMatches_eq_singleton (hnodup : known.Nodup) {found : String} :
    eidMatches known front back = [found] ↔
      (found ∈ known ∧ Str.startsWith found front = true ∧ Str.endsWith found back = true) ∧
        ∀ other ∈ known, Str.startsWith other front = true → Str.endsWith other back = true →
          other = found := by
  have hmem : ∀ eid, eid ∈ eidMatches known front back ↔
      eid ∈ known ∧ Str.startsWith eid front = true ∧ Str.endsWith eid back = true := by
    intro eid
    rw [eidMatches, List.mem_filter, Bool.and_eq_true]
  constructor
  · intro h
    refine ⟨(hmem found).mp (h ▸ List.mem_cons_self), ?_⟩
    intro other hother hfront hback
    have hin := (hmem other).mpr ⟨hother, hfront, hback⟩
    rw [h] at hin
    exact List.mem_singleton.mp hin
  · rintro ⟨hfound, honly⟩
    apply List.perm_singleton.mp
    refine (List.perm_ext_iff_of_nodup (hnodup.filter _) (List.nodup_singleton found)).mpr ?_
    intro eid
    rw [List.mem_singleton]
    constructor
    · intro hin
      obtain ⟨hknown, hfront, hback⟩ := (hmem eid).mp hin
      exact honly eid hknown hfront hback
    · rintro rfl
      exact (hmem eid).mpr hfound

theorem resolveKnown_eq_ok :
    resolveKnown isEndpointId token front back known = .ok id ↔
      ∃ found, eidMatches known front back = [found] ∧
        parseFullHex isEndpointId found = .ok id := by
  unfold resolveKnown
  split
  · simp_all
  · simp_all
  · next found hnil hone =>
      constructor
      · intro h
        cases h
      · rintro ⟨eid, heq, -⟩
        exact absurd heq (hone eid)

/-- **What becomes of an elided token.** -/
theorem resolveEid_elided (hsplit : Str.splitOnce token eidEllipsis = some (front, back)) :
    resolveEid isEndpointId token peers tickets = .ok id ↔
      (allAsciiHexDigits (asciiLowerText front) = true ∧
        allAsciiHexDigits (asciiLowerText back) = true) ∧
      ¬ (asciiLowerText front = "" ∧ asciiLowerText back = "") ∧
      ∃ found, eidMatches (knownEids peers tickets) (asciiLowerText front)
          (asciiLowerText back) = [found] ∧ parseFullHex isEndpointId found = .ok id := by
  have hfull : ¬ (token.utf8ByteSize = 64 ∧ allAsciiHexDigits token = true) := by
    rintro ⟨-, hhex⟩
    have hmem : eidEllipsis ∈ token.toList := by
      rw [(Str.splitOnce_eq_some.mp hsplit).1]
      exact List.mem_append_right _ List.mem_cons_self
    exact absurd (List.all_eq_true.mp hhex _ hmem) (by decide)
  rw [resolveEid, if_neg hfull]
  simp only [bind_eq_ok, okOr_eq_ok, Prod.exists, hsplit, Option.some.injEq, Prod.mk.injEq,
    failIf_eq_ok, exists_const, resolveKnown_eq_ok]
  constructor
  · rintro ⟨f, b, ⟨rfl, rfl⟩, hhex, hempty, hknown, hfound⟩
    exact ⟨by simpa using hhex, hempty, hfound⟩
  · rintro ⟨hhex, hempty, found, hfound, hparse⟩
    refine ⟨front, back, ⟨rfl, rfl⟩, by simpa using hhex, hempty, ?_, found, hfound, hparse⟩
    intro hnone
    rw [hnone] at hfound
    cases hfound

/-! ## The short form -/

theorem length_le_utf8ByteSize (s : String) : s.toList.length ≤ s.utf8ByteSize := by
  rw [← String.utf8Len_toList]
  induction s.toList with
  | nil => exact le_rfl
  | cons c cs ih =>
    have hc := c.utf8Size_pos
    rw [String.utf8Len_cons, List.length_cons]
    omega

theorem length_eidHex (id : Bytes32) : (eidHex id).toList.length = 64 := by
  rw [eidHex, length_encode, Vector.length_toList]

def shownFront (eid : String) : List Char := eid.toList.take shortPrefixLen

def shownBack (eid : String) : List Char := eid.toList.drop (eid.toList.length - shortSuffixLen)

def SharesShort (eid other : String) : Prop :=
  shownFront other = shownFront eid ∧ shownBack other = shownBack eid

instance : DecidableRel SharesShort := fun _ _ => inferInstanceAs (Decidable (_ ∧ _))

theorem splitOnce_formatShort (id : Bytes32) :
    Str.splitOnce (formatShort (eidHex id)) eidEllipsis =
      some (String.ofList (shownFront (eidHex id)), String.ofList (shownBack (eidHex id))) := by
  have hlong : ¬ (eidHex id).utf8ByteSize ≤ shortPrefixLen + shortSuffixLen := by
    have hsize := length_le_utf8ByteSize (eidHex id)
    rw [length_eidHex] at hsize
    unfold shortPrefixLen shortSuffixLen
    omega
  have hpart : EidPart (shownFront (eidHex id)) := eidPart_of_subset (List.take_subset _ _)
  rw [formatShort, if_neg hlong, Str.splitOnce_eq_some]
  simp only [String.toList_ofList]
  exact ⟨rfl, hpart.ellipsis⟩

theorem EidPart.asciiLowerText_ofList (h : EidPart part) :
    asciiLowerText (String.ofList part) = String.ofList part := by
  rw [asciiLowerText, String.toList_ofList, h.lowercase]

theorem sharesShort_iff (id : Bytes32) (other : String) :
    (Str.startsWith other (String.ofList (shownFront (eidHex id))) = true ∧
      Str.endsWith other (String.ofList (shownBack (eidHex id))) = true) ↔
      SharesShort (eidHex id) other := by
  have hfront : (shownFront (eidHex id)).length = shortPrefixLen := by
    rw [shownFront, List.length_take, length_eidHex]
    rfl
  have hback : (shownBack (eidHex id)).length = shortSuffixLen := by
    rw [shownBack, List.length_drop, length_eidHex]
    rfl
  rw [Str.startsWith, Str.endsWith, String.toList_ofList, String.toList_ofList,
    List.isPrefixOf_iff_prefix, List.isSuffixOf_iff_suffix, List.prefix_iff_eq_take,
    List.suffix_iff_eq_drop, hfront, hback]
  exact and_congr eq_comm eq_comm

def MatchesToken (token eid : String) : Prop :=
  ∃ front back, token.toList = front ++ eidEllipsis :: back ∧
    front.map Char.toLower <+: eid.toList ∧ back.map Char.toLower <:+ eid.toList

theorem resolve_formatShort_iff (hvalid : isEndpointId id = true)
    (hknown : KnownEid peers tickets (eidHex id)) :
    resolveEid isEndpointId (formatShort (eidHex id)) peers tickets = .ok id ↔
      ∀ other, KnownEid peers tickets other → SharesShort (eidHex id) other →
        other = eidHex id := by
  have hfront : EidPart (shownFront (eidHex id)) := eidPart_of_subset (List.take_subset _ _)
  have hback : EidPart (shownBack (eidHex id)) := eidPart_of_subset (List.drop_subset _ _)
  have hself : parseFullHex isEndpointId (eidHex id) = .ok id :=
    parseFullHex_eq_ok.mpr ⟨Hex.decode_encode _, hvalid⟩
  have hne : ¬ (String.ofList (shownFront (eidHex id)) = "" ∧
      String.ofList (shownBack (eidHex id)) = "") := by
    rintro ⟨hempty, -⟩
    have hlength := congrArg (·.toList.length) hempty
    simp only [String.toList_ofList, shownFront, List.length_take, length_eidHex] at hlength
    exact absurd hlength (by decide)
  rw [resolveEid_elided (splitOnce_formatShort id), hfront.asciiLowerText_ofList,
    hback.asciiLowerText_ofList]
  constructor
  · rintro ⟨-, -, found, hfound, hparse⟩ other hother hshares
    obtain ⟨-, honly⟩ := (eidMatches_eq_singleton nodup_knownEids).mp hfound
    have honly' : ∀ eid, KnownEid peers tickets eid → SharesShort (eidHex id) eid → eid = found := by
      intro eid heid hs
      obtain ⟨h₁, h₂⟩ := (sharesShort_iff id eid).mpr hs
      exact honly eid (mem_knownEids.mpr heid) h₁ h₂
    rw [honly' other hother hshares, honly' (eidHex id) hknown ⟨rfl, rfl⟩]
  · intro honly
    refine ⟨⟨hfront.hex, hback.hex⟩, hne, eidHex id, ?_, hself⟩
    refine (eidMatches_eq_singleton nodup_knownEids).mpr ⟨?_, ?_⟩
    · exact ⟨mem_knownEids.mpr hknown, (sharesShort_iff id _).mpr ⟨rfl, rfl⟩⟩
    · intro other hother h₁ h₂
      exact honly other (mem_knownEids.mp hother) ((sharesShort_iff id other).mp ⟨h₁, h₂⟩)

theorem resolve_elided_known (htoken : eidEllipsis ∈ token.toList)
    (h : resolveEid isEndpointId token peers tickets = .ok id) :
    ∃ found, KnownEid peers tickets found ∧ MatchesToken token found ∧
      Hex.decode found = some id.toList := by
  obtain ⟨front, back, hsplit, hnot⟩ := List.eq_append_cons_of_mem htoken
  have honce : Str.splitOnce token eidEllipsis = some (String.ofList front, String.ofList back) := by
    rw [Str.splitOnce_eq_some]
    simpa using ⟨hsplit, hnot⟩
  obtain ⟨-, -, found, hfound, hparse⟩ := (resolveEid_elided honce).mp h
  obtain ⟨⟨hmem, hstarts, hends⟩, -⟩ := (eidMatches_eq_singleton nodup_knownEids).mp hfound
  refine ⟨found, mem_knownEids.mp hmem, ⟨front, back, hsplit, ?_, ?_⟩,
    (parseFullHex_eq_ok.mp hparse).1⟩
  · simpa [Str.startsWith, asciiLowerText, List.isPrefixOf_iff_prefix] using hstarts
  · simpa [Str.endsWith, asciiLowerText, List.isSuffixOf_iff_suffix] using hends

/-- **Short forms are resolved safely.** Where the ids in the peer and ticket stores are
endpoint ids in lower case, the short form of one resolves to it exactly when no other is
shown alike, and whatever an elided token resolves to is one of them that it matches. -/
theorem short_forms_resolve (isEndpointId : Bytes32 → Bool) (peers : Option PeerStore)
    (tickets : Option TicketStore)
    (hhex : ∀ eid, KnownEid peers tickets eid → ∃ id : Bytes32, eid = eidHex id) :
    (∀ id, isEndpointId id = true → KnownEid peers tickets (eidHex id) →
      (resolveEid isEndpointId (formatShort (eidHex id)) peers tickets = .ok id ↔
        ∀ other, KnownEid peers tickets other → SharesShort (eidHex id) other →
          other = eidHex id)) ∧
    ∀ token id, eidEllipsis ∈ token.toList →
      resolveEid isEndpointId token peers tickets = .ok id →
      KnownEid peers tickets (eidHex id) ∧ MatchesToken token (eidHex id) := by
  refine ⟨fun id => resolve_formatShort_iff, ?_⟩
  intro token id htoken h
  obtain ⟨found, hknown, hmatches, hdecode⟩ := resolve_elided_known htoken h
  obtain ⟨id', rfl⟩ := hhex found hknown
  rw [eidHex, Hex.decode_encode, Option.some.injEq] at hdecode
  obtain rfl : id' = id := Vector.toList_inj.mp hdecode
  exact ⟨hknown, hmatches⟩

def halves (front back : UInt8) : Bytes32 := Vector.replicate 16 front ++ Vector.replicate 16 back

/-- The first two are shown with the same prefix, the first and the last with the same suffix. -/
def alikeIds : List Bytes32 := [halves 7 7, halves 7 8, halves 8 7]

def alikeStore : PeerStore :=
  ⟨currentSchema, alikeIds.foldl (fun entries id => entries.insert (eidHex id)
    ⟨eidHex id, eidHex id, true, true, 0, .paired, none, false, none, 1⟩) ∅⟩

theorem knownEid_alikeStore : KnownEid (some alikeStore) none eid ↔ eid ∈ alikeIds.map eidHex := by
  have hids : alikeStore.eids = (alikeIds.map eidHex : Multiset String) := by decide +kernel
  simp [KnownEid, hids]

theorem short_forms_resolve_alike :
    alikeIds.map (fun id => resolveEid (fun _ => true) (formatShort (eidHex id)) (some alikeStore) none) =
      alikeIds.map .ok := by
  have h := short_forms_resolve (fun _ => true) (some alikeStore) none fun eid heid =>
    (List.mem_map.mp (knownEid_alikeStore.mp heid)).imp fun _ hid => hid.2.symm
  have halone : ∀ eid ∈ alikeIds.map eidHex, ∀ other ∈ alikeIds.map eidHex,
      SharesShort eid other → other = eid := by
    decide +kernel
  refine List.map_congr_left fun id hid => ?_
  have hmem := List.mem_map_of_mem (f := eidHex) hid
  refine (h.1 id rfl (knownEid_alikeStore.mpr hmem)).mpr fun other hother => ?_
  exact halone _ hmem other (knownEid_alikeStore.mp hother)

/-- `AliasRecord`, as far as an endpoint is concerned. -/
structure AliasRecord where
  name : String
  endpointId : String

def KnownAnywhere (peers : Option PeerStore) (tickets : Option TicketStore)
    (aliases : List AliasRecord) (eid : String) : Prop :=
  KnownEid peers tickets eid ∨ ∃ record ∈ aliases, record.endpointId = eid

/-- The only known id, of an alias, is not found by its short form. -/
theorem alias_short_form_unresolved :
    KnownAnywhere (some .new) (some .new) [⟨"box", eidHex (Vector.replicate 32 7)⟩]
      (eidHex (Vector.replicate 32 7)) ∧
    (∀ other, KnownAnywhere (some .new) (some .new) [⟨"box", eidHex (Vector.replicate 32 7)⟩] other →
      other = eidHex (Vector.replicate 32 7)) ∧
    resolveEid (fun _ => true) (formatShort (eidHex (Vector.replicate 32 7))) (some .new)
      (some .new) ≠ .ok (Vector.replicate 32 7) := by
  have hnone : ∀ eid, ¬ KnownEid (some .new) (some .new) eid := by
    intro eid
    have hpeers : PeerStore.new.eids = 0 := rfl
    have htickets : TicketStore.new.eids = 0 := rfl
    simp [KnownEid, hpeers, htickets]
  refine ⟨.inr ⟨_, List.mem_cons_self, rfl⟩, ?_, ?_⟩
  · rintro other (hother | ⟨record, hrecord, rfl⟩)
    · exact absurd hother (hnone other)
    · rw [List.mem_singleton.mp hrecord]
  · intro h
    have hsplit := (Str.splitOnce_eq_some.mp (splitOnce_formatShort (Vector.replicate 32 7))).1
    obtain ⟨found, hknown, -⟩ := resolve_elided_known
      (by rw [hsplit]; exact List.mem_append_right _ List.mem_cons_self) h
    exact hnone found hknown

end Portl

import Portl.Store.Home

/-!
# The label of a new peer

`choose_label` names the entry that pairing makes. It begins with the hint and the
last four digits of the caller's endpoint. When that label is in use it tries six,
eight, twelve, sixteen and all sixty-four digits, and when these are in use as well it
goes back to the first; then `insert_or_update` refuses the entry.
-/

namespace Portl

open List

/-! ## Stem and digits -/

def labelStem (lower : Char → List Char) (hint : Option String) (endpointIdHex : String) :
    String :=
  let base := (hint.bind (sanitizeLabelComponent lower)).getD "host"
  (Str.stripSuffix base ("-" ++ endpointSuffix endpointIdHex 4)).getD base

theorem machineLabelFromHint_eq (lower : Char → List Char) (hint : Option String)
    (endpointIdHex : String) :
    machineLabelFromHint lower hint endpointIdHex =
      labelStem lower hint endpointIdHex ++ "-" ++ endpointSuffix endpointIdHex 4 := by
  unfold machineLabelFromHint labelStem
  simp only
  split_ifs with hends
  · obtain ⟨t, ht⟩ := Str.endsWith_iff.mp hends
    rw [Str.stripSuffix_eq_some.mpr ht, Option.getD_some, String.append_assoc]
    exact ht
  · rw [Str.stripSuffix, if_neg hends, Option.getD_none]

theorem beforeLastDash_append {stem digits : String} (h : '-' ∉ digits.toList) :
    beforeLastDash (stem ++ "-" ++ digits) = some stem := by
  have hlist : (stem ++ "-" ++ digits).toList = stem.toList ++ '-' :: digits.toList := by
    rw [String.append_assoc, String.toList_append, String.toList_append]
    rfl
  have hdrop : ∀ c ∈ digits.toList.reverse, decide (c ≠ '-') = true := by
    intro c hc
    rw [decide_eq_true_eq]
    rintro rfl
    exact h (mem_reverse.mp hc)
  unfold beforeLastDash
  rw [hlist, if_pos (by simp), reverse_append, reverse_cons, append_assoc,
    dropWhile_append_of_pos hdrop]
  simp

theorem dash_notMem_endpointSuffix (bytes : Bytes) (len : ℕ) :
    '-' ∉ (endpointSuffix (Hex.encode bytes) len).toList := by
  have hdigit : ∀ n : Fin 16, (Hex.digit n).toLower ≠ '-' := by decide
  intro hmem
  unfold endpointSuffix at hmem
  rw [String.toList_ofList] at hmem
  obtain ⟨c, hc, hlower⟩ := mem_map.mp (mem_of_mem_drop hmem)
  have hin : c ∈ (Hex.encode bytes).toList :=
    (dropWhile_sublist _).subset ((List.rdropWhile_prefix _ _).subset hc)
  rw [Hex.encode, String.toList_ofList] at hin
  obtain ⟨b, -, hbyte⟩ := mem_flatMap.mp hin
  have hb : b.toNat < 256 := b.toNat_lt
  rw [Hex.encodeByte, mem_pair] at hbyte
  rcases hbyte with rfl | rfl
  · exact hdigit ⟨b.toNat / 16, by omega⟩ hlower
  · exact hdigit ⟨b.toNat % 16, by omega⟩ hlower

/-! ## What is chosen -/

theorem beforeLastDash_candidate (lower : Char → List Char) (hint : Option String)
    (bytes : Bytes) :
    beforeLastDash (machineLabelFromHint lower hint (Hex.encode bytes)) =
      some (labelStem lower hint (Hex.encode bytes)) := by
  rw [machineLabelFromHint_eq]
  exact beforeLastDash_append (dash_notMem_endpointSuffix bytes 4)

theorem chooseLabelFrom_eq (lower : Char → List Char) (callerLabel forLabelHint : Option String)
    (bytes : Bytes) :
    chooseLabelFrom lower callerLabel forLabelHint (Hex.encode bytes) =
      [4, 6, 8, 12, 16, 64].map fun len =>
        labelStem lower (forLabelHint.or callerLabel) (Hex.encode bytes) ++ "-" ++
          endpointSuffix (Hex.encode bytes) len := by
  unfold chooseLabelFrom
  simp only [beforeLastDash_candidate]
  rw [machineLabelFromHint_eq]
  rfl

/-- **`choose_label` takes the first label that is free**, and the first of all when
none is. -/
theorem chooseLabel_eq (lower : Char → List Char) (peers : PeerStore)
    (callerLabel forLabelHint : Option String) (bytes : Bytes) :
    chooseLabel lower peers callerLabel forLabelHint (Hex.encode bytes) =
      ((chooseLabelFrom lower callerLabel forLabelHint (Hex.encode bytes)).find?
        fun label => ¬ peers.hasLabel label).getD
        (machineLabelFromHint lower (forLabelHint.or callerLabel) (Hex.encode bytes)) := by
  have hdash := beforeLastDash_candidate lower (forLabelHint.or callerLabel) bytes
  unfold chooseLabel chooseLabelFrom extendMachineLabelUntilUnique
  simp only [hdash]
  split_ifs with hused
  · rw [List.find?_cons_of_neg (by simpa using hused)]
  · rw [List.find?_cons_of_pos (by simpa using hused), Option.getD_some]

theorem find_getD_free_iff {p : String → Prop} [DecidablePred p] {labels : List String}
    {fallback : String} (h : fallback ∈ labels) :
    ¬ p ((labels.find? fun label => ¬ p label).getD fallback) ↔ ∃ label ∈ labels, ¬ p label := by
  cases hfind : labels.find? fun label => ¬ p label with
  | none =>
    have hall : ∀ label ∈ labels, p label := by
      simpa using List.find?_eq_none.mp hfind
    constructor
    · intro hfree
      exact absurd (hall fallback h) hfree
    · rintro ⟨label, hmem, hfree⟩
      exact absurd (hall label hmem) hfree
  | some found =>
    have hfree : ¬ p found := by simpa using List.find?_some hfind
    constructor
    · exact fun _ => ⟨found, mem_of_find?_eq_some hfind, hfree⟩
    · exact fun _ => hfree

/-! ## A new caller -/

def PeerStore.Unknown (peers : PeerStore) (endpointIdHex : String) : Prop :=
  endpointIdHex ∉ peers.entries ∧ peers.labelsOf endpointIdHex = []

instance (peers : PeerStore) (endpointIdHex : String) :
    Decidable (peers.Unknown endpointIdHex) :=
  inferInstanceAs (Decidable (_ ∧ _))

theorem labelElsewhere_iff {peers : PeerStore} {entry : PeerEntry}
    (h : entry.endpointIdHex ∉ peers.entries) :
    peers.LabelElsewhere entry ↔ peers.hasLabel entry.label := by
  constructor
  · rintro ⟨other, hmem, hlabel, -⟩
    exact ⟨other, hmem, hlabel⟩
  · rintro ⟨other, hmem, hlabel⟩
    refine ⟨other, hmem, hlabel, ?_⟩
    intro hkey
    apply h
    rw [← hkey, ← Finmap.mem_keys, Finmap.keys]
    exact Multiset.mem_map_of_mem _ hmem

/-- **The label of a new peer is free**, and its entry is accepted, exactly when one of
the six labels is. -/
theorem pair_label_free (lower : Char → List Char) (peers : PeerStore) (call : PairCall)
    (store : PairStoreFile) (invite : PendingInvite) (hnew : peers.Unknown call.callerEidHex) :
    (¬ peers.hasLabel (chooseLabel lower peers call.request.callerLabel invite.forLabelHint
        call.callerEidHex) ∧
      judgePeers lower call store invite peers ≠ .done (.error "insert paired peer") none) ↔
    ∃ len ∈ [4, 6, 8, 12, 16, 64],
      ¬ peers.hasLabel (labelStem lower (invite.forLabelHint.or call.request.callerLabel)
        call.callerEidHex ++ "-" ++ endpointSuffix call.callerEidHex len) := by
  have hfree : ¬ peers.hasLabel (chooseLabel lower peers call.request.callerLabel
        invite.forLabelHint call.callerEidHex) ↔
      ∃ len ∈ [4, 6, 8, 12, 16, 64],
        ¬ peers.hasLabel (labelStem lower (invite.forLabelHint.or call.request.callerLabel)
          call.callerEidHex ++ "-" ++ endpointSuffix call.callerEidHex len) := by
    rw [PairCall.callerEidHex, chooseLabel_eq, find_getD_free_iff]
    · simp only [chooseLabelFrom_eq, mem_map, exists_exists_and_eq_and]
    · exact mem_cons_self
  have hinsert : judgePeers lower call store invite peers = .done (.error "insert paired peer") none ↔
      peers.hasLabel (chooseLabel lower peers call.request.callerLabel invite.forLabelHint
        call.callerEidHex) := by
    have helsewhere : peers.LabelElsewhere (newPeer lower call invite peers) ↔ _ :=
      labelElsewhere_iff hnew.1
    unfold judgePeers
    rw [hnew.2, PeerStore.insertOrUpdate]
    by_cases hused : peers.LabelElsewhere (newPeer lower call invite peers)
    · rw [if_pos hused]
      exact ⟨fun _ => helsewhere.mp hused, fun _ => rfl⟩
    · rw [if_neg hused]
      exact ⟨nofun, fun htaken => absurd (helsewhere.mpr htaken) hused⟩
  rw [← hfree, ne_eq, hinsert, and_self]

/-! ### Six labels -/

def labelledPeers (labels : List String) : PeerStore :=
  { schema := currentSchema
    entries := labels.zipIdx.foldl (fun entries (label, i) =>
      let endpointIdHex := Hex.encode (List.replicate 32 (UInt8.ofNat (i + 100)))
      entries.insert endpointIdHex
        { label, endpointIdHex, acceptsFromThem := true, theyAcceptFromMe := true, since := 1,
          origin := .raw, lastHoldAt := none, isSelf := false, relayHint := none,
          schemaVersion := 2 }) ∅ }

def laptopCall : PairCall :=
  { callerEid := sampleKey 1, request := ⟨1, Vector.replicate 16 7, .mutual, none, some "Laptop"⟩,
    now := 100 }

def laptopInvite : PendingInvite :=
  ⟨Hex.encode (List.replicate 16 7), 50, 200, .mutual, none⟩

/-- Two of them are in use. -/
theorem pair_label_free_eight :
    chooseLabel asciiLower (labelledPeers ["laptop-0101", "laptop-010101"]) (some "Laptop") none
      laptopCall.callerEidHex = "laptop-01010101" ∧
    ¬ (labelledPeers ["laptop-0101", "laptop-010101"]).hasLabel
      (chooseLabel asciiLower (labelledPeers ["laptop-0101", "laptop-010101"]) (some "Laptop") none
        laptopCall.callerEidHex) :=
  ⟨by decide +kernel,
    ((pair_label_free asciiLower (labelledPeers ["laptop-0101", "laptop-010101"]) laptopCall
      ⟨1, [laptopInvite]⟩ laptopInvite (by decide +kernel)).mpr (by decide +kernel)).1⟩

def laptopLabels : List String :=
  ["laptop-0101", "laptop-010101", "laptop-01010101", "laptop-010101010101",
    "laptop-0101010101010101",
    "laptop-0101010101010101010101010101010101010101010101010101010101010101"]

theorem pair_label_taken :
    (labelledPeers laptopLabels).Unknown laptopCall.callerEidHex ∧
    chooseLabel asciiLower (labelledPeers laptopLabels) (some "Laptop") none
      laptopCall.callerEidHex = "laptop-0101" ∧
    (labelledPeers laptopLabels).hasLabel "laptop-0101" ∧
    (labelledPeers laptopLabels).insertOrUpdate
      (newPeer asciiLower laptopCall laptopInvite (labelledPeers laptopLabels)) = none := by
  refine ⟨by decide +kernel, by decide +kernel, by decide +kernel, if_pos ?_⟩
  decide +kernel

end Portl

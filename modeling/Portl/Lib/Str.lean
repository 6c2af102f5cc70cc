import Portl.Lib.Split

/-!
# String patterns

The affix tests and strips of a string library, over `String` through its
character list. A prefix test succeeds exactly when the string *is* the prefix
glued to something; nothing downstream looks at characters again.
-/

namespace Str

open List

/-- `s.starts_with(p)`. -/
def startsWith (s p : String) : Bool := p.toList.isPrefixOf s.toList

/-- `s.ends_with(p)`. -/
def endsWith (s p : String) : Bool := p.toList.isSuffixOf s.toList

/-- `s.strip_prefix(p)`. -/
def stripPrefix (s p : String) : Option String :=
  if startsWith s p then some (String.ofList (s.toList.drop p.toList.length))
  else none

/-- `s.strip_suffix(p)`. -/
def stripSuffix (s p : String) : Option String :=
  if endsWith s p then
    some (String.ofList (s.toList.take (s.toList.length - p.toList.length)))
  else none

/-- `s.eq_ignore_ascii_case(t)`. -/
def eqIgnoreAsciiCase (s t : String) : Bool :=
  s.toList.map Char.toLower == t.toList.map Char.toLower

variable {p s a b : String} {c : Char}

theorem startsWith_iff : startsWith s p = true ↔ ∃ t, s = p ++ t := by
  unfold startsWith
  rw [List.isPrefixOf_iff_prefix]
  constructor
  · rintro ⟨t, ht⟩
    refine ⟨String.ofList t, String.toList_inj.mp ?_⟩
    rw [String.toList_append, String.toList_ofList, ht]
  · rintro ⟨t, rfl⟩
    exact ⟨t.toList, String.toList_append.symm⟩

variable {q t : String}

theorem startsWith_trans (hs : startsWith s q = true) (hq : startsWith q p = true) :
    startsWith s p = true := by
  obtain ⟨t, rfl⟩ := startsWith_iff.mp hs
  obtain ⟨u, rfl⟩ := startsWith_iff.mp hq
  exact startsWith_iff.mpr ⟨u ++ t, by rw [String.append_assoc]⟩

theorem stripPrefix_eq_some : stripPrefix s p = some t ↔ s = p ++ t := by
  unfold stripPrefix
  constructor
  · intro h
    split at h
    · next hstarts =>
        obtain ⟨u, rfl⟩ := startsWith_iff.mp hstarts
        rw [String.toList_append, drop_left, String.ofList_toList] at h
        rw [Option.some.inj h]
    · cases h
  · rintro rfl
    rw [if_pos (startsWith_iff.mpr ⟨t, rfl⟩), String.toList_append, drop_left,
      String.ofList_toList]

theorem stripPrefix_append_eq_none (t : String) (hqp : startsWith q p = false)
    (hpq : startsWith p q = false) : stripPrefix (p ++ t) q = none := by
  cases hstrip : stripPrefix (p ++ t) q with
  | none => rfl
  | some u =>
    have hlists := congrArg String.toList (stripPrefix_eq_some.mp hstrip)
    rw [String.toList_append, String.toList_append] at hlists
    have hp : p.toList <+: p.toList ++ t.toList := prefix_append _ _
    have hq : q.toList <+: p.toList ++ t.toList := hlists ▸ prefix_append _ _
    rcases prefix_or_prefix_of_prefix hp hq with h | h
    · rw [startsWith, List.isPrefixOf_iff_prefix.mpr h] at hqp
      cases hqp
    · rw [startsWith, List.isPrefixOf_iff_prefix.mpr h] at hpq
      cases hpq

theorem append_ne (t : String) (h : startsWith s p = false) : p ++ t ≠ s := by
  intro heq
  rw [startsWith_iff.mpr ⟨t, heq.symm⟩] at h
  cases h

theorem endsWith_iff : endsWith s p = true ↔ ∃ t, s = t ++ p := by
  unfold endsWith
  rw [isSuffixOf_iff_suffix]
  constructor
  · rintro ⟨t, ht⟩
    refine ⟨String.ofList t, String.toList_inj.mp ?_⟩
    rw [String.toList_append, String.toList_ofList, ht]
  · rintro ⟨t, rfl⟩
    exact ⟨t.toList, String.toList_append.symm⟩

theorem stripSuffix_eq_some : stripSuffix s p = some t ↔ s = t ++ p := by
  have htake : ∀ u : String, (u ++ p).toList.take ((u ++ p).toList.length - p.toList.length) =
      u.toList := by
    intro u
    rw [String.toList_append, length_append, Nat.add_sub_cancel, take_left]
  unfold stripSuffix
  constructor
  · intro h
    split at h
    · next hends =>
        obtain ⟨u, rfl⟩ := endsWith_iff.mp hends
        rw [htake, String.ofList_toList] at h
        rw [Option.some.inj h]
    · cases h
  · rintro rfl
    rw [if_pos (endsWith_iff.mpr ⟨t, rfl⟩), htake, String.ofList_toList]

/-! ## Splitting -/

/-- `s.split(c)`. -/
def split (s : String) (c : Char) : List String := (s.toList.splitOn c).map String.ofList

/-- The pieces joined again, with `c` between neighbours. -/
def join (c : Char) (pieces : List String) : String :=
  String.ofList ([c].intercalate (pieces.map String.toList))

/-- `s.split_once(c)`. -/
def splitOnce (s : String) (c : Char) : Option (String × String) :=
  (Split.splitOnce c s.toList).map fun p => (String.ofList p.1, String.ofList p.2)

/-- `s.rsplit_once(c)`. -/
def rsplitOnce (s : String) (c : Char) : Option (String × String) :=
  (Split.rsplitOnce c s.toList).map fun p => (String.ofList p.1, String.ofList p.2)

theorem map_ofList_eq_some {o : Option (List Char × List Char)} :
    (o.map fun p => (String.ofList p.1, String.ofList p.2)) = some (a, b) ↔
      o = some (a.toList, b.toList) := by
  simp only [Option.map_eq_some_iff, Prod.exists, Prod.mk.injEq]
  constructor
  · rintro ⟨x, y, hsome, rfl, rfl⟩
    rw [hsome, String.toList_ofList, String.toList_ofList]
  · intro hsome
    exact ⟨_, _, hsome, String.ofList_toList, String.ofList_toList⟩

theorem splitOnce_eq_some :
    splitOnce s c = some (a, b) ↔ s.toList = a.toList ++ c :: b.toList ∧ c ∉ a.toList := by
  unfold splitOnce
  rw [map_ofList_eq_some, Split.splitOnce_eq_some]

theorem rsplitOnce_eq_some :
    rsplitOnce s c = some (a, b) ↔ s.toList = a.toList ++ c :: b.toList ∧ c ∉ b.toList := by
  unfold rsplitOnce
  rw [map_ofList_eq_some, Split.rsplitOnce_eq_some]

theorem split_join {pieces : List String} (h : ∀ piece ∈ pieces, c ∉ piece.toList)
    (hne : pieces ≠ []) : split (join c pieces) c = pieces := by
  unfold split join
  have hparts : ∀ l ∈ pieces.map String.toList, c ∉ l := by
    intro l hl
    obtain ⟨piece, hpiece, rfl⟩ := mem_map.mp hl
    exact h piece hpiece
  rw [String.toList_ofList, splitOn_intercalate c hparts (by simpa using hne), map_map]
  simp

theorem join_split (s : String) (c : Char) : join c (split s c) = s := by
  have hlists : (split s c).map String.toList = s.toList.splitOn c := by simp [split]
  rw [join, hlists, intercalate_splitOn, String.ofList_toList]

theorem not_mem_of_mem_split {piece : String} (h : piece ∈ split s c) : c ∉ piece.toList := by
  obtain ⟨l, hl, rfl⟩ := mem_map.mp h
  rw [String.toList_ofList]
  exact Split.not_mem_of_mem_splitOn hl

end Str

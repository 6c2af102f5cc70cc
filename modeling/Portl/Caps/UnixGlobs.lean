import Mathlib.Data.List.Basic
import Portl.Ticket.Schema

/-!
# Broad socket globs

`validate_unix_path_rule` looks at a glob in two ways. Whether its prefix is safe is
asked of `Path::components`, which passes over `.` and repeated slashes; whether it
is narrow is asked of the string, which has them. So `//tmp/*` is narrow as a string
and `/tmp/` as a path, and a path with a `.` in it is safe.
-/

namespace Portl

/-! ## The normal form of a prefix -/

def pathPieces (path : String) : List (List Char) := path.toList.splitOn '/'

def isDropped (piece : List Char) : Bool := decide (piece = [] ∨ piece = ['.'])

/-- An absolute prefix without dot components and repeated slashes; a slash at its end
stays. -/
def normalForm (pre : String) : String :=
  let names := (pathPieces pre).filter fun piece => !isDropped piece
  let slash := if (pathPieces pre).getLast?.any isDropped && !names.isEmpty then ['/'] else []
  String.ofList ('/' :: List.intercalate ['/'] names ++ slash)

example : normalForm "//tmp/./x//" = "/tmp/x/" := by decide

/-- `/`, and what begins `/tmp/` or `/var/`. -/
def Broad (pre : String) : Prop :=
  Str.startsWith "/tmp/" pre = true ∨ Str.startsWith "/var/" pre = true

instance (pre : String) : Decidable (Broad pre) := inferInstanceAs (Decidable (_ ∨ _))

variable {pre path : String}

theorem not_broad_of_narrow (h : isNarrowUnixGlob pre = true) : ¬ Broad pre := by
  have hsize : 6 ≤ pre.utf8ByteSize := by
    simp only [isNarrowUnixGlob, Bool.and_eq_true, decide_eq_true_eq] at h
    exact h.1.1.2
  have hlong : ∀ base : String, base.utf8ByteSize = 5 → Str.startsWith base pre ≠ true := by
    intro base hbase hstarts
    obtain ⟨rest, hrest⟩ := Str.startsWith_iff.mp hstarts
    have hsum := congrArg String.utf8ByteSize hrest
    rw [String.utf8ByteSize_append] at hsum
    omega
  rintro (htmp | hvar)
  · exact hlong "/tmp/" (by decide) htmp
  · exact hlong "/var/" (by decide) hvar

/-! ## Dots -/

theorem no_parent_of_safe (h : unixSocketPathIsSafe path = true) :
    ['.', '.'] ∉ pathPieces path := by
  intro hmem
  unfold unixSocketPathIsSafe at h
  split at h
  · cases h
  · have hparent : Component.parentDir ∈ components path := by
      apply List.mem_append_right
      exact List.mem_filterMap.mpr ⟨['.', '.'], hmem, by decide⟩
    have hall := List.all_eq_true.mp h _ hparent
    cases hall

theorem pathPieces_dot (pre : String) :
    pathPieces (pre ++ "/./x") = pathPieces pre ++ [['.'], ['x']] := by
  unfold pathPieces
  rw [String.toList_append]
  exact List.splitOn_append_cons_self pre.toList "./x".toList

/-- A `.` makes no component, so that a path stays safe with it. -/
theorem safe_dot (h : unixSocketPathIsSafe pre = true) :
    unixSocketPathIsSafe (pre ++ "/./x") = true := by
  unfold unixSocketPathIsSafe at h ⊢
  split at h
  · cases h
  · next hplain =>
    simp only [Bool.or_eq_true, not_or, Bool.not_eq_true, Bool.not_eq_false'] at hplain
    obtain ⟨⟨hempty, hnul⟩, hroot⟩ := hplain
    have hroot' : Str.startsWith (pre ++ "/./x") "/" = true :=
      Str.startsWith_trans (Str.startsWith_iff.mpr ⟨_, rfl⟩) hroot
    -- the piece `.` makes no component behind the first place
    have hcomponents : components (pre ++ "/./x") = components pre ++ [.normal ['x']] := by
      have hpieces := pathPieces_dot pre
      unfold pathPieces at hpieces
      simp only [components, hroot, hroot', if_true, hpieces, List.filterMap_append]
      rfl
    have hplain' : ¬ ((pre ++ "/./x").isEmpty || (pre ++ "/./x").toList.contains (Char.ofNat 0) ||
        !Str.startsWith (pre ++ "/./x") "/") = true := by
      have hnul' : Char.ofNat 0 ∉ pre.toList := by simpa using hnul
      simp [hroot', hnul']
    rw [if_neg hplain', hcomponents, List.all_append, h]
    rfl

theorem safe_of_matches {rule : UnixPathRule} (h : rule.matchesPath path = true) :
    unixSocketPathIsSafe path = true := by
  unfold UnixPathRule.matchesPath at h
  cases hsafe : unixSocketPathIsSafe path with
  | true => rfl
  | false => simp [hsafe] at h

theorem prefix_of_valid (h : validateUnixPathRule (pre ++ "*") false = .ok ()) :
    unixSocketPathIsSafe pre = true ∧ isNarrowUnixGlob pre = true := by
  unfold validateUnixPathRule at h
  split at h
  · cases h
  · split at h
    · cases h
    · rw [Str.stripSuffix_eq_some.mpr rfl] at h
      dsimp only at h
      split at h
      · next hboth => exact Bool.and_eq_true_iff.mp hboth
      · cases h

theorem matches_dot (h : validateUnixPathRule (pre ++ "*") false = .ok ()) :
    UnixPathRule.matchesPath ⟨pre ++ "*"⟩ (pre ++ "/./x") = true := by
  obtain ⟨hsafe, hnarrow⟩ := prefix_of_valid h
  unfold UnixPathRule.matchesPath
  rw [safe_dot hsafe, Str.stripSuffix_eq_some.mpr rfl]
  have hstarts : Str.startsWith (pre ++ "/./x") pre = true := Str.startsWith_iff.mpr ⟨_, rfl⟩
  simp [hnarrow, hstarts]

/-- **Broad globs.** For every glob that is accepted without the broad wildcard: if its
prefix is in normal form, it is not broad; no path the glob matches has a `..` component;
and some path that it matches has a `.` component. -/
theorem unix_glob_narrow {pre : String} (h : validateUnixPathRule (pre ++ "*") false = .ok ()) :
    (normalForm pre = pre → ¬ Broad (normalForm pre)) ∧
      (∀ path, UnixPathRule.matchesPath ⟨pre ++ "*"⟩ path = true → ['.', '.'] ∉ pathPieces path) ∧
      ∃ path, UnixPathRule.matchesPath ⟨pre ++ "*"⟩ path = true ∧ ['.'] ∈ pathPieces path := by
  refine ⟨?_, ?_, pre ++ "/./x", matches_dot h, ?_⟩
  · intro hnormal
    rw [hnormal]
    exact not_broad_of_narrow (prefix_of_valid h).2
  · exact fun path hmatch => no_parent_of_safe (safe_of_matches hmatch)
  · rw [pathPieces_dot]
    exact List.mem_append_right _ List.mem_cons_self

theorem unix_glob_narrow_portl :
    ¬ Broad (normalForm "/tmp/portl-") ∧
      ['.', '.'] ∉ pathPieces "/tmp/portl-a/agent.sock" := by
  have hvalid : validateUnixPathRule ("/tmp/portl-" ++ "*") false = .ok () := by decide
  obtain ⟨hnarrow, hparent, -⟩ := unix_glob_narrow hvalid
  exact ⟨hnarrow (by decide), hparent _ (by decide)⟩

/-- All of `/tmp` behind two slashes, and a path with a dot below a glob. -/
theorem unix_glob_smuggled :
    (validateUnixPathRule "//tmp/*" false = .ok () ∧ normalForm "//tmp/" = "/tmp/" ∧
      Broad "/tmp/" ∧ UnixPathRule.matchesPath ⟨"//tmp/*"⟩ "//tmp/other.sock" = true) ∧
    validateUnixPathRule "/tmp/portl-*" false = .ok () ∧
      UnixPathRule.matchesPath ⟨"/tmp/portl-*"⟩ "/tmp/portl-a/./agent.sock" = true ∧
      ['.'] ∈ pathPieces "/tmp/portl-a/./agent.sock" := by
  decide

end Portl

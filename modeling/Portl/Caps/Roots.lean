import Portl.Caps.Order

/-!
# Roots as subtrees

A root of `FsCaps` stands for the paths below it once both are resolved; `fs_narrows`
compares the strings. The two views agree as long as a root of the child does not
climb: `/a/../b` goes on after `/a` as a string and is not below it as a path.
-/

namespace Portl

open Cover List

/-! ## Lexical resolution -/

def resolveStep (names : List (List Char)) : Component → List (List Char)
  | .normal name => names ++ [name]
  | .parentDir => names.dropLast
  | .rootDir | .curDir => names

/-- The names on the way from `/` to a path, `.` and `..` and repeated slashes
resolved. -/
def lexicalResolve (path : String) : List (List Char) := (components path).foldl resolveStep []

def Under (root path : String) : Prop :=
  Str.startsWith root "/" = true ∧ lexicalResolve root <+: lexicalResolve path

instance (root path : String) : Decidable (Under root path) :=
  inferInstanceAs (Decidable (_ ∧ _))

variable {above path root rest : String}

theorem Under.trans (h : Under above root) (hpath : Under root path) : Under above path :=
  ⟨h.1, h.2.trans hpath.2⟩

theorem isPrefix_foldl_resolveStep (names : List (List Char)) {rest : List Component}
    (h : Component.parentDir ∉ rest) : names <+: rest.foldl resolveStep names := by
  induction rest generalizing names with
  | nil => exact prefix_refl _
  | cons component rest ih =>
    rw [mem_cons, not_or] at h
    refine List.IsPrefix.trans ?_ (ih (resolveStep names component) h.2)
    cases component with
    | rootDir | curDir => exact prefix_refl _
    | parentDir => exact absurd rfl h.1
    | normal name => exact prefix_append _ _

/-! ## Strings and paths -/

theorem startsWith_of_append (hne : path ≠ "") (h : Str.startsWith (path ++ rest) "/" = true) :
    Str.startsWith path "/" = true := by
  unfold Str.startsWith at h ⊢
  rw [List.isPrefixOf_iff_prefix] at h ⊢
  rw [String.toList_append] at h
  refine prefix_of_prefix_length_le h (prefix_append _ _) ?_
  have hlength : path.toList.length ≠ 0 := by
    rw [Ne, length_eq_zero_iff, String.toList_eq_nil_iff]
    exact hne
  exact Nat.one_le_iff_ne_zero.mpr hlength

theorem components_append (h : Str.startsWith path "/" = true) :
    components (path ++ "/" ++ rest) =
      components path ++ (rest.toList.splitOn '/').filterMap componentOf := by
  have hstarts : Str.startsWith (path ++ "/" ++ rest) "/" = true := by
    rw [String.append_assoc]
    obtain ⟨tail, rfl⟩ := Str.startsWith_iff.mp h
    exact Str.startsWith_iff.mpr ⟨tail ++ ("/" ++ rest), by rw [String.append_assoc]⟩
  have hsplit : (path ++ "/" ++ rest).toList.splitOn '/' =
      path.toList.splitOn '/' ++ rest.toList.splitOn '/' := by
    rw [← List.splitOn_append_cons_self]
    simp
  simp only [components, hstarts, h, if_true, hsplit, filterMap_append, append_assoc]

/-- **One root.** A root that does not climb lies under every root that covers it, the
empty one apart. -/
theorem under_of_covers (hcovers : pathRootCovers above root = true) (hne : above ≠ "")
    (habsolute : Str.startsWith root "/" = true) (hdown : Component.parentDir ∉ components root) :
    Under above root := by
  rcases pathRootCovers_iff.mp hcovers with rfl | rfl | ⟨rest, rfl⟩
  · exact ⟨habsolute, prefix_refl _⟩
  · refine ⟨rfl, ?_⟩
    have hnone : lexicalResolve "/" = [] := by decide
    rw [hnone]
    exact nil_prefix
  · have habove : Str.startsWith above "/" = true := by
      rw [String.append_assoc] at habsolute
      exact startsWith_of_append hne habsolute
    refine ⟨habove, ?_⟩
    unfold lexicalResolve
    rw [components_append habove] at hdown ⊢
    rw [foldl_append]
    apply isPrefix_foldl_resolveStep
    intro hmem
    exact hdown (mem_append_right _ hmem)

/-- **Narrowing denotes a subtree** exactly when each root of the child that climbs, and
each that only the empty root covers, lies under a root of the parent. -/
theorem fs_narrows_subtree {parent child : FsCaps} (h : fsNarrows parent child = true) :
    (∀ path, Str.startsWith path "/" = true → (∃ root ∈ child.roots, Under root path) →
        ∃ root ∈ parent.roots, Under root path) ↔
      ∀ root ∈ child.roots, Str.startsWith root "/" = true →
        (Component.parentDir ∈ components root ∨ "" ∈ parent.roots ∧
          ∀ above ∈ parent.roots, pathRootCovers above root = true → above = "") →
        ∃ above ∈ parent.roots, Under above root := by
  have hcover : narrows pathRootCovers parent.roots child.roots = true := by
    simp only [fsNarrows, Bool.and_eq_true] at h
    exact h.1.1
  constructor
  · intro hsubtree root hroot habsolute _
    exact hsubtree root habsolute ⟨root, hroot, habsolute, prefix_refl _⟩
  · rintro hroots path - ⟨root, hroot, hunder⟩
    have hsome : ∃ above ∈ parent.roots, Under above root := by
      by_cases hclimbs : Component.parentDir ∈ components root
      · exact hroots root hroot hunder.1 (.inl hclimbs)
      · by_cases hempty : ∀ above ∈ parent.roots, pathRootCovers above root = true → above = ""
        · -- what covers the root is there, so it is the empty root
          obtain ⟨above, habove, hcovers⟩ := exists_cover hcover hroot
          have hmem : "" ∈ parent.roots := hempty above habove hcovers ▸ habove
          exact hroots root hroot hunder.1 (.inr ⟨hmem, hempty⟩)
        · push Not at hempty
          obtain ⟨above, habove, hcovers, hne⟩ := hempty
          exact ⟨above, habove, under_of_covers hcovers hne hunder.1 hclimbs⟩
    obtain ⟨above, habove, hunder'⟩ := hsome
    exact ⟨above, habove, hunder'.trans hunder⟩

theorem fs_narrows_subtree_srv :
    ∃ root ∈ ["/srv"], Under root "/srv//www/./index.html" := by
  have hnarrows : fsNarrows ⟨["/srv"], true, none⟩ ⟨["/srv/www"], true, none⟩ = true := by decide
  exact (fs_narrows_subtree hnarrows).mpr (by decide) "/srv//www/./index.html" (by decide) (by decide)

/-- `/a/../b` narrows `/a`, and is another directory. -/
theorem fs_narrows_climbs :
    fsNarrows ⟨["/a"], true, none⟩ ⟨["/a/../b"], true, none⟩ = true ∧
      Under "/a/../b" "/b/secret" ∧ ¬ ∃ root ∈ ["/a"], Under root "/b/secret" := by
  decide

end Portl

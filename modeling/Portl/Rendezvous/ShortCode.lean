import Portl.Rendezvous.Exchange

/-!
# Short codes

`rendezvous/short_code.rs`: the `PORTL-S-<nameplate>-<word>-<word>` strings that two
people read to each other. `parse` takes any words of lower-case letters; `generate`
draws two from a list. Both give codes of one shape (`WellFormed`), and the text of
such a code is read back as the code.
-/

namespace Portl

open Checks List

/-- `PREFIX`. -/
def shortCodePrefix : String := "PORTL-S-"

/-- `WORDLIST`. -/
def shortCodeWords : List String :=
  ["absent", "acid", "acorn", "active", "actor", "adapt", "admit", "adobe", "adopt", "agent",
    "album", "alert", "alibi", "alive", "alley", "alpha", "amber", "amend", "amigo", "ample",
    "amuse", "anchor", "angel", "ankle", "apple", "april", "apron", "arbor", "arcade", "arena",
    "argue", "arise", "armor", "arrow", "ascot", "aspen", "aspect", "assist", "atlas", "atom",
    "audio", "aunt", "autumn", "avert", "awake", "axis", "bacon", "badge", "baker", "balsa",
    "bamboo", "banjo", "barn", "basil", "basin", "batch", "beach", "beacon", "beam", "bean",
    "bear", "beaver", "bench", "berry", "beta", "bicep", "binder", "bingo", "birch", "bishop",
    "bison", "bitmap", "blade", "blaze", "blend", "blink", "block", "bloom", "blueprint", "blush",
    "boat", "bobcat", "bonus", "boost", "border", "bottle", "bounce", "boxer", "brain", "brave",
    "bread", "breeze", "bridge", "brisk", "broker", "bronze", "brown", "bubble", "budget",
    "buffer", "bugle", "bulb", "bunker", "burst", "butter", "cabin", "cable", "cactus", "camel",
    "camera", "candle", "canvas", "canyon", "carbon", "career", "cargo", "carrot", "castle",
    "catch", "cedar", "celery", "cement", "census", "ceramic", "cereal", "chalk", "chant",
    "chapel", "charm", "chart", "cheese", "cherry", "chess", "chief", "chime", "chisel", "chord",
    "cider", "cinema", "cipher", "circle", "citrus", "civic", "clamp", "clarity", "clasp",
    "classic", "clean", "clever", "client", "cliff", "climb", "clinic", "clock", "clover",
    "cluster", "coast", "cobalt", "cobra", "cocoa", "comet", "common", "compass", "copper",
    "coral", "cosmic", "cotton", "couple", "courier", "coyote", "crab", "crane", "crater",
    "crayon", "credit", "crisp", "crochet", "crown", "crystal", "cube", "cumin", "cupcake",
    "current", "cygnet", "daisy", "dapper", "darling", "dashing", "dawn", "decade", "decoy",
    "delta", "denim", "depot", "desert", "design", "device", "dialog", "diamond", "diary",
    "dimple", "dingo", "dipper", "doctor", "dolphin", "domain", "donor", "donut", "dossier",
    "dragon", "dream", "driver", "drizzle", "drum", "dryad", "duet", "dynamo", "eagle", "earth",
    "easel", "eclair", "edible", "editor", "eject", "elastic", "elbow", "elder", "ember",
    "emblem", "emerald", "empire", "emu", "energy", "engine", "envelope", "epoch", "equal",
    "erode", "escape", "ethics", "evolve", "exhale", "expert", "extra", "fable", "fabric",
    "facet", "faint", "falcon", "famous", "fancy", "farm", "fawn", "feather", "fennel", "fern",
    "ferry", "fiber", "fiction", "field", "figure", "filter", "finch", "finish"]

inductive ShortCodeParseError where
  | wrongPrefix
  | missingComponents
  | invalidNameplate
  | invalidWord (word : String)
deriving DecidableEq

/-- `chars().all(|c| c.is_ascii_digit())`. -/
def allAsciiDigits (s : String) : Bool := s.toList.all Char.isDigit

/-- `chars().all(|c| c.is_ascii_lowercase())`. -/
def allAsciiLowercase (s : String) : Bool := s.toList.all Char.isLower

namespace ShortCode

def parse (input : String) : Except ShortCodeParseError ShortCode := do
  let rest ← okOr (Str.stripPrefix input shortCodePrefix) .wrongPrefix
  let parts := Str.split rest '-'
  let nameplate ← okOr (parts.head?.filter (· ≠ "")) .missingComponents
  failIf (allAsciiDigits nameplate = false) .invalidNameplate
  let words := parts.tail
  failIf (words.length < 2) .missingComponents
  forEach (fun w => failIf (w = "" ∨ allAsciiLowercase w = false) (.invalidWord w)) words
  return ⟨nameplate, words⟩

/-- What `choose_multiple` draws for an amount of two: different places of the list. -/
structure WordChoice where
  first : Fin shortCodeWords.length
  second : Fin shortCodeWords.length
  distinct : first ≠ second

def generateWithNameplate (choice : WordChoice) (nameplate : String) :
    Except ShortCodeParseError ShortCode := do
  failIf (nameplate = "" ∨ allAsciiDigits nameplate = false) .invalidNameplate
  return ⟨nameplate, [shortCodeWords.get choice.first, shortCodeWords.get choice.second]⟩

def displayCode (code : ShortCode) : String := shortCodePrefix ++ code.password

/-! ## The shape of a code -/

/-- A nameplate of digits and at least two words of lower-case letters. -/
structure WellFormed (code : ShortCode) : Prop where
  nameplate_ne : code.nameplate ≠ ""
  digits : allAsciiDigits code.nameplate = true
  two_words : 2 ≤ code.words.length
  word : ∀ w ∈ code.words, w ≠ "" ∧ allAsciiLowercase w = true

theorem password_toList (code : ShortCode) :
    code.password.toList = code.nameplate.toList ++ code.words.flatMap fun w => '-' :: w.toList := by
  have hfold : ∀ (words : List String) (front : String),
      (words.foldl (fun out word => out ++ "-" ++ word) front).toList =
        front.toList ++ words.flatMap fun w => '-' :: w.toList := by
    intro words
    induction words with
    | nil =>
      intro front
      rw [foldl_nil, flatMap_nil, append_nil]
    | cons word words ih =>
      intro front
      have hdash : "-".toList = ['-'] := rfl
      rw [foldl_cons, ih, String.toList_append, String.toList_append, hdash,
        flatMap_cons]
      simp
  exact hfold code.words code.nameplate

theorem intercalate_cons (c : Char) (first : List Char) (rest : List (List Char)) :
    [c].intercalate (first :: rest) = first ++ rest.flatMap fun l => c :: l := by
  induction rest generalizing first with
  | nil => simp
  | cons second rest ih =>
    have hnext : [c].intercalate (first :: second :: rest) =
        first ++ c :: [c].intercalate (second :: rest) := by
      simp [List.intercalate, List.intersperse]
    rw [hnext, ih, flatMap_cons, cons_append]

theorem password_eq_join (code : ShortCode) :
    code.password = Str.join '-' (code.nameplate :: code.words) := by
  apply String.toList_inj.mp
  rw [password_toList, Str.join, String.toList_ofList, map_cons, intercalate_cons,
    flatMap_map]

variable {s input : String}

theorem dash_not_mem_digits (h : allAsciiDigits s = true) : '-' ∉ s.toList := by
  intro hmem
  exact absurd (all_eq_true.mp h '-' hmem) (by decide)

theorem dash_not_mem_word (h : allAsciiLowercase s = true) : '-' ∉ s.toList := by
  intro hmem
  exact absurd (all_eq_true.mp h '-' hmem) (by decide)

variable {code : ShortCode}

theorem WellFormed.split_password (h : code.WellFormed) :
    Str.split code.password '-' = code.nameplate :: code.words := by
  rw [password_eq_join]
  refine Str.split_join ?_ (cons_ne_nil _ _)
  intro piece hpiece
  rcases mem_cons.mp hpiece with rfl | hword
  · exact dash_not_mem_digits h.digits
  · exact dash_not_mem_word (h.word piece hword).2

/-- **What `parse` accepts**: the texts of well-formed codes, and each as its own code. -/
theorem parse_eq_ok : parse input = .ok code ↔ input = code.displayCode ∧ code.WellFormed := by
  simp only [parse, bind_eq_ok, okOr_eq_ok, Str.stripPrefix_eq_some, failIf_eq_ok, exists_const,
    forEach_eq_ok]
  constructor
  · rintro ⟨rest, rfl, nameplate, hhead, hdigits, htwo, hwords, hcode⟩
    cases hcode
    obtain ⟨hfirst, hne⟩ := Option.filter_eq_some_iff.mp hhead
    have hparts : Str.split rest '-' = nameplate :: (Str.split rest '-').tail :=
      (cons_head?_tail hfirst).symm
    refine ⟨?_, ⟨by simpa using hne, by simpa using hdigits, Nat.le_of_not_lt htwo, ?_⟩⟩
    · rw [displayCode, password_eq_join, ← hparts, Str.join_split]
    · intro w hw
      simpa using hwords w hw
  · rintro ⟨rfl, hcode⟩
    refine ⟨code.password, rfl, code.nameplate, ?_⟩
    rw [hcode.split_password]
    refine ⟨?_, by simp [hcode.digits], Nat.not_lt.mpr hcode.two_words, ?_, rfl⟩
    · exact Option.filter_eq_some_iff.mpr ⟨rfl, by simpa using hcode.nameplate_ne⟩
    · intro w hw
      simpa using hcode.word w hw

theorem WellFormed.parse_displayCode (h : code.WellFormed) :
    parse code.displayCode = .ok code := parse_eq_ok.mpr ⟨rfl, h⟩

/-! ## Generated codes -/

theorem shortCodeWords_lowercase :
    ∀ w ∈ shortCodeWords, w ≠ "" ∧ allAsciiLowercase w = true := by
  have hall : shortCodeWords.all (fun w => w != "" && allAsciiLowercase w) = true := by
    decide +kernel
  intro w hw
  simpa using all_eq_true.mp hall w hw

theorem wellFormed_of_generate {choice : WordChoice} {nameplate : String}
    (h : generateWithNameplate choice nameplate = .ok code) : code.WellFormed := by
  simp only [generateWithNameplate, bind_eq_ok, failIf_eq_ok, exists_const, not_or] at h
  obtain ⟨⟨hne, hdigits⟩, hcode⟩ := h
  cases hcode
  refine ⟨hne, by simpa using hdigits, le_rfl, ?_⟩
  intro w hw
  apply shortCodeWords_lowercase
  simp only [mem_cons, not_mem_nil, or_false] at hw
  rcases hw with rfl | rfl
  · exact get_mem _ _
  · exact get_mem _ _

/-! ## The form of the text -/

/-- `PORTL-S-`, digits, and at least two groups of a dash and lower-case letters. -/
def IsShortCodeText (input : String) : Prop :=
  ∃ (digits : List Char) (groups : List (List Char)),
    digits ≠ [] ∧ (∀ c ∈ digits, c.isDigit = true) ∧ 2 ≤ groups.length ∧
    (∀ g ∈ groups, g ≠ [] ∧ ∀ c ∈ g, c.isLower = true) ∧
    input.toList = "PORTL-S-".toList ++ digits ++ groups.flatMap fun g => '-' :: g

theorem displayCode_toList (code : ShortCode) :
    code.displayCode.toList = "PORTL-S-".toList ++ code.nameplate.toList ++
      (code.words.map String.toList).flatMap fun g => '-' :: g := by
  rw [displayCode, String.toList_append, password_toList, flatMap_map, ← append_assoc]
  rfl

theorem isShortCodeText_iff :
    IsShortCodeText input ↔ ∃ code : ShortCode, input = code.displayCode ∧ code.WellFormed := by
  constructor
  · rintro ⟨digits, groups, hne, hdigits, htwo, hgroups, htext⟩
    refine ⟨⟨String.ofList digits, groups.map String.ofList⟩, ?_, ?_⟩
    · apply String.toList_inj.mp
      rw [htext, displayCode_toList, map_map]
      simp
    · refine ⟨by simpa using hne, ?_, by simpa using htwo, ?_⟩
      · rw [allAsciiDigits, String.toList_ofList]
        exact all_eq_true.mpr hdigits
      · intro w hw
        obtain ⟨g, hg, rfl⟩ := mem_map.mp hw
        refine ⟨by simpa using (hgroups g hg).1, ?_⟩
        rw [allAsciiLowercase, String.toList_ofList]
        exact all_eq_true.mpr (hgroups g hg).2
  · rintro ⟨code, rfl, hcode⟩
    refine ⟨code.nameplate.toList, code.words.map String.toList, ?_, ?_, ?_, ?_,
      displayCode_toList code⟩
    · simpa using hcode.nameplate_ne
    · exact all_eq_true.mp hcode.digits
    · rw [length_map]
      exact hcode.two_words
    · intro g hg
      obtain ⟨w, hw, rfl⟩ := mem_map.mp hg
      exact ⟨by simpa using (hcode.word w hw).1, all_eq_true.mp (hcode.word w hw).2⟩

/-- **Short codes are read back.** `parse` accepts exactly the texts of the documented form,
what it returns is displayed as a text that parses to the same code, and so is every code
that is generated. -/
theorem shortCodes_read_back :
    (∀ input, (∃ code, parse input = .ok code) ↔ IsShortCodeText input) ∧
    (∀ input code, parse input = .ok code → parse code.displayCode = .ok code) ∧
    ∀ choice nameplate code, generateWithNameplate choice nameplate = .ok code →
      parse code.displayCode = .ok code := by
  refine ⟨?_, ?_, ?_⟩
  · intro input
    simp [parse_eq_ok, isShortCodeText_iff]
  · intro input code h
    exact (parse_eq_ok.mp h).2.parse_displayCode
  · intro choice nameplate code h
    exact (wellFormed_of_generate h).parse_displayCode

/-- The code `PORTL-S-7-amber-fern`. -/
theorem shortCodes_read_back_amber :
    parse "PORTL-S-7-amber-fern" = .ok ⟨"7", ["amber", "fern"]⟩ ∧
      parse (ShortCode.mk "7" ["amber", "fern"]).displayCode = .ok ⟨"7", ["amber", "fern"]⟩ := by
  have hparse : parse "PORTL-S-7-amber-fern" = .ok ⟨"7", ["amber", "fern"]⟩ := by decide +kernel
  exact ⟨hparse, shortCodes_read_back.2.1 _ _ hparse⟩

end ShortCode

end Portl

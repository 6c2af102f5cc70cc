import Mathlib.Algebra.Group.Nat.Defs
import Mathlib.Data.List.Induction
import Portl.Lib.Numeral
import Portl.Lib.Str

/-!
# The sessions tmux lists

`parse_tmux_session_line` of `session_handler/provider.rs`. tmux is asked for seven
fields with tabs between them; some versions print an underscore for a tab, and names
have underscores too, so such a line is read from its right end.

The third field is the number of clients, and it is compared with `1`.
-/

namespace Portl

open List

/-- The entries of `metadata` stand in the order of the source. -/
structure SessionInfo where
  name : String
  provider : String
  metadata : List (String × String)
deriving DecidableEq

structure TmuxSessionFields where
  name : String
  id : String
  attached : String
  created : String
  windows : String
  width : String
  height : String

/-- `s.rsplitn(n, c)`, in the order of the iterator. -/
def rsplitn : ℕ → String → Char → List String
  | 0, _, _ => []
  | 1, s, _ => [s]
  | n + 2, s, c =>
    match Str.rsplitOnce s c with
    | some (before, after) => after :: rsplitn (n + 1) before c
    | none => [s]

def parseU64 (s : String) : Option ℕ := Numeral.unsigned (2 ^ 64) s.toList

def parseTmuxUnderscoreSessionFields (line : String) : Option TmuxSessionFields :=
  match (rsplitn 7 line '_').reverse with
  | [name, id, attached, created, windows, width, height] =>
    if name = "" ∨ Str.startsWith id "$" = false ∨ attached ∉ ["0", "1"] ∨
        [created, windows, width, height].any (fun field => (parseU64 field).isNone) then none
    else some ⟨name, id, attached, created, windows, width, height⟩
  | _ => none

def parseTmuxSessionFields (line : String) : TmuxSessionFields :=
  match Str.split line '\t' with
  | name :: id :: attached :: created :: windows :: width :: height :: _ =>
    ⟨name, id, attached, created, windows, width, height⟩
  | _ => (parseTmuxUnderscoreSessionFields line).getD ⟨line, "", "", "", "", "", ""⟩

def TmuxSessionFields.info (fields : TmuxSessionFields) (attached : Bool) : SessionInfo where
  name := fields.name
  provider := "tmux"
  metadata := [("id", fields.id), ("attached", toString attached), ("created_unix", fields.created),
    ("windows", fields.windows), ("width", fields.width), ("height", fields.height)]

def parseTmuxSessionLine (line : String) : SessionInfo :=
  let fields := parseTmuxSessionFields line
  fields.info (fields.attached == "1")

/-! ## What tmux prints -/

structure TmuxSession where
  name : String
  id : ℕ
  clients : ℕ
  created : UInt64
  windows : UInt64
  width : UInt64
  height : UInt64

/-- The columns behind a name, with `sep` before each. -/
def withColumns (sep : Char) (name : String) (columns : List String) : String :=
  columns.foldl (fun line column => line ++ String.singleton sep ++ column) name

namespace TmuxSession

variable (session : TmuxSession)

def fields : TmuxSessionFields :=
  ⟨session.name, "$" ++ session.id.repr, session.clients.repr,
    session.created.toNat.repr, session.windows.toNat.repr, session.width.toNat.repr,
    session.height.toNat.repr⟩

def columns : List String :=
  [session.fields.id, session.fields.attached, session.fields.created, session.fields.windows,
    session.fields.width, session.fields.height]

def line (sep : Char) : String := withColumns sep session.name session.columns

/-- A session is attached when it has a client. -/
def info : SessionInfo := session.fields.info (1 ≤ session.clients)

end TmuxSession

/-! ## Reading a line back -/

variable {sep c : Char} {name : String} {columns : List String}

theorem withColumns_concat (column : String) : withColumns sep name (columns ++ [column]) =
    withColumns sep name columns ++ String.singleton sep ++ column := by
  simp [withColumns]

theorem split_withColumns (h : ∀ column ∈ columns, sep ∉ column.toList) :
    Str.split (withColumns sep name columns) sep = Str.split name sep ++ columns := by
  induction columns using List.reverseRecOn with
  | nil => exact (append_nil _).symm
  | append_singleton columns column ih =>
    rw [forall_mem_append, forall_mem_singleton] at h
    rw [withColumns_concat, ← append_assoc, ← ih h.1]
    simp [Str.split, List.splitOn_append_cons_self, List.splitOn_eq_singleton h.2]

theorem rsplitn_withColumns (h : ∀ column ∈ columns, sep ∉ column.toList) :
    rsplitn (columns.length + 1) (withColumns sep name columns) sep = columns.reverse ++ [name] := by
  induction columns using List.reverseRecOn with
  | nil => rfl
  | append_singleton columns column ih =>
    rw [forall_mem_append, forall_mem_singleton] at h
    have hlast : Str.rsplitOnce (withColumns sep name (columns ++ [column])) sep =
        some (withColumns sep name columns, column) :=
      Str.rsplitOnce_eq_some.mpr ⟨by simp [withColumns_concat], h.2⟩
    rw [length_append, length_singleton, rsplitn, hlast]
    simp [ih h.1]

theorem not_mem_withColumns (hc : c ≠ sep) (hname : c ∉ name.toList)
    (h : ∀ column ∈ columns, c ∉ column.toList) : c ∉ (withColumns sep name columns).toList := by
  induction columns using List.reverseRecOn with
  | nil => exact hname
  | append_singleton columns column ih =>
    rw [forall_mem_append, forall_mem_singleton] at h
    simp [withColumns_concat, ih h.1, h.2, hc]

variable {session : TmuxSession}

theorem TmuxSession.not_mem_columns (hdigit : c.isDigit = false) (hc : c ≠ '$') :
    ∀ column ∈ session.columns, c ∉ column.toList := by
  have hrepr : ∀ n : ℕ, c ∉ Nat.toDigits 10 n := by
    intro n hmem
    rw [Nat.isDigit_of_mem_toDigits (by decide) (by decide) hmem] at hdigit
    cases hdigit
  simp [columns, fields, hrepr, hc]

theorem parseTmuxSessionFields_tab (hname : '\t' ∉ session.name.toList) :
    parseTmuxSessionFields (session.line '\t') = session.fields := by
  have hsplit : Str.split session.name '\t' = [session.name] := by
    simp [Str.split, List.splitOn_eq_singleton hname]
  unfold parseTmuxSessionFields TmuxSession.line
  rw [split_withColumns (TmuxSession.not_mem_columns (by decide) (by decide)), hsplit]
  rfl

theorem TmuxSession.attached_eq_one :
    (session.fields.attached == "1") = decide (session.clients = 1) := by
  have hinj : session.clients.repr = Nat.repr 1 → session.clients = 1 := by
    intro h
    have hdecimal := Numeral.decimal_repr session.clients
    rw [h, Numeral.decimal_repr] at hdecimal
    exact (Option.some.inj hdecimal).symm
  rw [Bool.eq_iff_iff, beq_iff_eq, decide_eq_true_iff]
  exact ⟨hinj, congrArg Nat.repr⟩

theorem parseTmuxSessionFields_underscore (hempty : session.name ≠ "")
    (hname : '\t' ∉ session.name.toList) (hclients : session.clients ≤ 1) :
    parseTmuxSessionFields (session.line '_') = session.fields := by
  have hline := not_mem_withColumns (by decide : '\t' ≠ '_') hname
    (session.not_mem_columns (by decide) (by decide))
  have hsplit : Str.split (session.line '_') '\t' = [session.line '_'] := by
    simp [Str.split, TmuxSession.line, List.splitOn_eq_singleton hline]
  have hparts : rsplitn 7 (session.line '_') '_' = session.columns.reverse ++ [session.name] :=
    rsplitn_withColumns (TmuxSession.not_mem_columns (by decide) (by decide))
  have hnumber : ∀ n : UInt64, parseU64 n.toNat.repr = some n.toNat :=
    fun n => Numeral.unsigned_repr n.toNat_lt
  have hid : Str.startsWith session.fields.id "$" = true := Str.startsWith_iff.mpr ⟨_, rfl⟩
  have hattached : session.fields.attached ∈ ["0", "1"] := by
    show session.clients.repr ∈ _
    rcases Nat.le_one_iff_eq_zero_or_eq_one.mp hclients with hcount | hcount <;>
      rw [hcount] <;> decide
  unfold parseTmuxSessionFields
  rw [hsplit]
  simp [parseTmuxUnderscoreSessionFields, hparts, TmuxSession.columns, hempty, hid, hattached]
  simp [TmuxSession.fields, hnumber]

/-- **tmux sessions are listed as they are** exactly where they have at most one client. -/
theorem tmux_listed_iff (session : TmuxSession) (hempty : session.name ≠ "")
    (hname : '\t' ∉ session.name.toList) :
    (parseTmuxSessionLine (session.line '\t') = session.info ∧
      parseTmuxSessionLine (session.line '_') = session.info) ↔ session.clients ≤ 1 := by
  have hinfo : ∀ attached, session.fields.info attached = session.info ↔
      attached = decide (1 ≤ session.clients) := by
    intro attached
    rw [TmuxSession.info]
    cases attached <;> cases decide (1 ≤ session.clients) <;>
      simp [TmuxSessionFields.info, toString]
  unfold parseTmuxSessionLine
  dsimp only
  rw [parseTmuxSessionFields_tab hname, hinfo, session.attached_eq_one]
  constructor
  · rintro ⟨htab, -⟩
    rw [decide_eq_decide] at htab
    omega
  · intro hle
    rw [parseTmuxSessionFields_underscore hempty hname hle, hinfo, session.attached_eq_one,
      and_self, decide_eq_decide]
    omega

/-- A name with underscores and numbers of its own. -/
def devSession : TmuxSession := ⟨"dev_1_$2", 3, 1, 1700000000, 2, 80, 24⟩

theorem tmux_listed_iff_dev :
    parseTmuxSessionLine (devSession.line '\t') = devSession.info ∧
      parseTmuxSessionLine (devSession.line '_') = devSession.info :=
  (tmux_listed_iff devSession (by decide) (by decide)).mpr (by decide)

/-- Two clients look at the session. -/
def sharedSession : TmuxSession := ⟨"dev", 3, 2, 1700000000, 2, 80, 24⟩

theorem two_clients_not_attached :
    parseTmuxSessionLine (sharedSession.line '\t') = sharedSession.fields.info false ∧
    parseTmuxSessionLine (sharedSession.line '\t') ≠ sharedSession.info ∧
    (parseTmuxSessionLine (sharedSession.line '_')).name = "dev_$3_2_1700000000_2_80_24" := by
  decide +kernel

end Portl

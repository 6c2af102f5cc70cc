import Portl.Diagnostics.UrlUserinfo

/-!
# Arguments in the log

`redact_argv` of `portl-core/src/diagnostics.rs`: what is recorded of a command line.
An argument that looks like a ticket is replaced; the value of a sensitive key is
replaced, after a `=` or in the argument that follows a bare flag; and URLs lose their
credentials.

The loop carries one flag, whether the next argument is a value. So each argument is
recorded by a rule that looks at its neighbour (`redactArgv_getElem?`).
-/

namespace Portl

open List

/-! ## The functions -/

def toAsciiUppercase (text : List Char) : List Char := text.map Char.toUpper

/-- `str::len`: the length in UTF-8. -/
def strLen (text : List Char) : ℕ := (text.map Char.utf8Size).sum

def looksLikePortlTicket (value : List Char) : Bool :=
  let normalized := toAsciiUppercase (Lines.trim value)
  if normalized = "PORTL_DISCOVERY=NONE".toList then false
  else
    "PORTLINV-".toList.isPrefixOf normalized ||
    "PORTL-SHARE1-".toList.isPrefixOf normalized ||
    "PORTL-S-".toList.isPrefixOf normalized ||
    "PORTLTKT-".toList.isPrefixOf normalized ||
    ("PORTL".toList.isPrefixOf normalized && decide (strLen normalized ≥ 16))

def contains (text part : List Char) : Bool := (Find.splitAt part text).isSome

def isSensitiveKey (key : List Char) : Bool :=
  let normalized := toAsciiUppercase
    ((key.dropWhile (· == '-')).map fun c => if c = '-' then '_' else c)
  contains normalized "SECRET".toList ||
  contains normalized "TOKEN".toList ||
  contains normalized "BEARER".toList ||
  contains normalized "PASSWORD".toList ||
  normalized == "PORTL_IDENTITY_SECRET_HEX".toList ||
  normalized == "IROH_SERVICES_API_SECRET".toList

/-- `arg.starts_with('-')`. -/
def startsWithDash (arg : List Char) : Bool := arg.head? == some '-'

def isSensitiveBareFlag (key : List Char) : Bool :=
  startsWithDash key && !key.contains '=' && isSensitiveKey key

def redactedMark : List Char := "<redacted>".toList

def redactedTicket : List Char := "<redacted:ticket>".toList

def redactArg (arg : List Char) : List Char :=
  if looksLikePortlTicket arg then redactedTicket
  else
    match Split.splitOnce '=' arg with
    | some (key, value) =>
      if isSensitiveKey key && !value.isEmpty then key ++ '=' :: redactedMark
      else redactUrlUserinfo arg
    | none => redactUrlUserinfo arg

/-- The `map` of `redact_argv`, with `redact_next`. -/
def redactArgvFrom (redactNext : Bool) : List (List Char) → List (List Char)
  | [] => []
  | arg :: rest =>
    if redactNext && !startsWithDash arg then redactedMark :: redactArgvFrom false rest
    else
      redactArg arg ::
        redactArgvFrom (redactArg arg == arg && isSensitiveBareFlag arg) rest

def redactArgv (args : List (List Char)) : List (List Char) := redactArgvFrom false args

/-! ## One argument at a time -/

def marksNext (arg : List Char) : Bool := redactArg arg == arg && isSensitiveBareFlag arg

def recordArg (isValue : Bool) (arg : List Char) : List Char :=
  if isValue && !startsWithDash arg then redactedMark else redactArg arg

variable {arg key value flag : List Char}

theorem startsWithDash_of_bareFlag (h : isSensitiveBareFlag arg = true) :
    startsWithDash arg = true := by
  simp only [isSensitiveBareFlag, Bool.and_eq_true] at h
  exact h.1.1

theorem redactArgvFrom_cons (redactNext : Bool) (arg : List Char) (rest : List (List Char)) :
    redactArgvFrom redactNext (arg :: rest) =
      recordArg redactNext arg :: redactArgvFrom (marksNext arg) rest := by
  rw [redactArgvFrom, recordArg]
  split
  · next h =>
      -- a value does not begin with a dash, so it is not a flag in turn
      have hnot : marksNext arg = false := by
        rw [Bool.and_eq_true] at h
        cases hflag : isSensitiveBareFlag arg with
        | false => simp [marksNext, hflag]
        | true =>
          rw [startsWithDash_of_bareFlag hflag] at h
          exact absurd h.2 (by decide)
      rw [hnot]
  · rfl

/-- **Each argument is recorded by what stands before it.** -/
theorem redactArgvFrom_getElem? (redactNext : Bool) (before after : List (List Char))
    (arg : List Char) :
    (redactArgvFrom redactNext (before ++ arg :: after))[before.length]? =
      some (recordArg ((before.getLast?.map marksNext).getD redactNext) arg) := by
  induction before generalizing redactNext with
  | nil =>
    rw [nil_append, redactArgvFrom_cons]
    rfl
  | cons first before ih =>
    rw [cons_append, redactArgvFrom_cons, length_cons, List.getElem?_cons_succ, ih]
    cases before with
    | nil => rfl
    | cons second before =>
      have hlast := List.getLast?_eq_some_getLast (cons_ne_nil second before)
      rw [List.getLast?_cons_cons, hlast]
      rfl

theorem length_redactArgvFrom (redactNext : Bool) (args : List (List Char)) :
    (redactArgvFrom redactNext args).length = args.length := by
  induction args generalizing redactNext with
  | nil => rfl
  | cons arg rest ih => rw [redactArgvFrom_cons, length_cons, length_cons, ih]

theorem mem_redactArgv {args : List (List Char)} {shown : List Char} (h : shown ∈ redactArgv args) :
    ∃ before arg after, args = before ++ arg :: after ∧
      (redactArgv args)[before.length]? = some shown := by
  obtain ⟨i, hi, hget⟩ := mem_iff_getElem.mp h
  have hin : i < args.length := by
    rw [redactArgv, length_redactArgvFrom] at hi
    exact hi
  refine ⟨args.take i, args[i], args.drop (i + 1), ?_, ?_⟩
  · rw [cons_getElem_drop_succ, take_append_drop]
  · rw [length_take, Nat.min_eq_left hin.le, List.getElem?_eq_getElem hi, hget]

/-! ## What looks like a ticket -/

def BeginsPortl (text : List Char) : Prop :=
  "PORTL".toList <+: toAsciiUppercase (text.dropWhile Lines.isWhitespace)

theorem toAsciiUppercase_append (a b : List Char) :
    toAsciiUppercase (a ++ b) = toAsciiUppercase a ++ toAsciiUppercase b := map_append

theorem portl_prefix_of_looksLike (h : looksLikePortlTicket value = true) :
    "PORTL".toList <+: toAsciiUppercase (Lines.trim value) := by
  have hlonger : ∀ p : List Char, "PORTL".toList.isPrefixOf p = true →
      p.isPrefixOf (toAsciiUppercase (Lines.trim value)) = true →
      "PORTL".toList <+: toAsciiUppercase (Lines.trim value) := by
    intro p hp hvalue
    exact (List.isPrefixOf_iff_prefix.mp hp).trans (List.isPrefixOf_iff_prefix.mp hvalue)
  simp only [looksLikePortlTicket] at h
  split at h
  · cases h
  · simp only [Bool.or_eq_true, Bool.and_eq_true] at h
    rcases h with (((h | h) | h) | h) | h
    · exact hlonger _ rfl h
    · exact hlonger _ rfl h
    · exact hlonger _ rfl h
    · exact hlonger _ rfl h
    · exact List.isPrefixOf_iff_prefix.mp h.1

theorem beginsPortl_of_looksLike (h : looksLikePortlTicket value = true) : BeginsPortl value :=
  (portl_prefix_of_looksLike h).trans ((List.rdropWhile_prefix _ _).map _)

theorem looksLike_cons_of_ne {c : Char} (hblank : Lines.isWhitespace c = false)
    (hc : c.toUpper ≠ 'P') (rest : List Char) : looksLikePortlTicket (c :: rest) = false := by
  by_contra hticket
  have hbegins := beginsPortl_of_looksLike (Bool.not_eq_false _ ▸ hticket)
  rw [BeginsPortl, dropWhile_cons_of_neg (by rw [hblank]; decide)] at hbegins
  exact hc (cons_prefix_cons.mp hbegins).1.symm

theorem looksLike_of_dash (h : startsWithDash arg = true) : looksLikePortlTicket arg = false := by
  cases arg with
  | nil => cases h
  | cons c rest =>
    obtain rfl : c = '-' := by simpa [startsWithDash] using h
    exact looksLike_cons_of_ne (by decide) (by decide) rest

theorem looksLike_redactedMark : looksLikePortlTicket redactedMark = false :=
  looksLike_cons_of_ne (by decide) (by decide) _

theorem looksLike_redactedTicket : looksLikePortlTicket redactedTicket = false :=
  looksLike_cons_of_ne (by decide) (by decide) _

theorem length_le_strLen (text : List Char) : text.length ≤ strLen text := by
  induction text with
  | nil => exact le_rfl
  | cons c text ih =>
    have hc := c.utf8Size_pos
    simp only [strLen, map_cons, sum_cons, length_cons] at ih ⊢
    omega

theorem prefix_of_not_mem {p a b : List Char} {x : Char} (hx : x ∉ p) (h : p <+: a ++ x :: b) :
    p <+: a := by
  induction a generalizing p with
  | nil =>
    cases p with
    | nil => exact nil_prefix
    | cons y p =>
      obtain ⟨rfl, -⟩ := cons_prefix_cons.mp h
      exact absurd mem_cons_self hx
  | cons z a ih =>
    cases p with
    | nil => exact nil_prefix
    | cons y p =>
      rw [cons_append, cons_prefix_cons] at h
      rw [mem_cons, not_or] at hx
      exact cons_prefix_cons.mpr ⟨h.1, ih hx.2 h.2⟩

theorem isRecord_redactedMark : Lines.IsRecord ('=' :: redactedMark) where
  one_line := by decide
  first := by
    intro c hc
    obtain rfl : '=' = c := Option.some.inj hc
    decide
  last := by
    intro c hc
    have hlast : ('=' :: redactedMark).getLast? = some '>' := by decide
    obtain rfl : '>' = c := Option.some.inj (hlast.symm.trans hc)
    decide
  nonempty := cons_ne_nil _ _

/-- A redacted `key=value` is taken for a ticket exactly when the key begins like one:
with the mark it is long enough. -/
theorem looksLike_redacted_key :
    looksLikePortlTicket (key ++ '=' :: redactedMark) = true ↔ BeginsPortl key := by
  have htrim := Lines.trim_append_record isRecord_redactedMark key
  have hmark : toAsciiUppercase ('=' :: redactedMark) = '=' :: "<REDACTED>".toList := by decide
  constructor
  · intro h
    have hbegins := portl_prefix_of_looksLike h
    rw [htrim, toAsciiUppercase_append, hmark] at hbegins
    exact prefix_of_not_mem (by decide) hbegins
  · intro h
    obtain ⟨rest, hrest⟩ := h
    simp only [looksLikePortlTicket, htrim, toAsciiUppercase_append, hmark, ← hrest]
    have hexception : "PORTL".toList ++ rest ++ '=' :: "<REDACTED>".toList ≠
        "PORTL_DISCOVERY=NONE".toList := by
      intro heq
      have hlast := congrArg List.getLast? heq
      rw [List.getLast?_append_of_ne_nil _ (cons_ne_nil _ _)] at hlast
      exact absurd hlast (by decide)
    have hbegins : "PORTL".toList.isPrefixOf
        ("PORTL".toList ++ rest ++ '=' :: "<REDACTED>".toList) = true := by
      rw [List.isPrefixOf_iff_prefix, append_assoc]
      exact prefix_append _ _
    have hlong : strLen ("PORTL".toList ++ rest ++ '=' :: "<REDACTED>".toList) ≥ 16 := by
      refine Nat.le_trans ?_ (length_le_strLen _)
      simp
    rw [if_neg hexception, hbegins, decide_eq_true hlong]
    simp

/-! ## What a record gives away -/

/-- A ticket can be read off the recorded argument: it is one, or it is an option with one
after its first `=`. -/
def GivesAway (shown : List Char) : Prop :=
  looksLikePortlTicket shown = true ∨
    (startsWithDash shown = true ∧
      ∃ key value, Split.splitOnce '=' shown = some (key, value) ∧
        looksLikePortlTicket value = true)

/-- The key, where the argument is `key=value` with a sensitive key and a value. -/
def sensitiveKeyOf (arg : List Char) : Option (List Char) :=
  match Split.splitOnce '=' arg with
  | some (key, value) => if isSensitiveKey key && !value.isEmpty then some key else none
  | none => none

/-- The argument alone: it is not itself a ticket, and a ticket shows once the value of a
sensitive key is replaced or, without such a key, the userinfo of URLs is starred. -/
def ShowsTicket (arg : List Char) : Prop :=
  looksLikePortlTicket arg = false ∧
    match sensitiveKeyOf arg with
    | some key => BeginsPortl key
    | none => ∃ pieces, Starred arg pieces ∧ GivesAway (pieces.flatMap UrlPiece.shown)

theorem redactArg_eq (h : looksLikePortlTicket arg = false) :
    redactArg arg =
      match sensitiveKeyOf arg with
      | some key => key ++ '=' :: redactedMark
      | none => redactUrlUserinfo arg := by
  simp only [redactArg, sensitiveKeyOf, h, Bool.false_eq_true, if_false]
  cases Split.splitOnce '=' arg with
  | none => rfl
  | some parts =>
    obtain ⟨key, value⟩ := parts
    simp only
    split <;> rfl

theorem sensitiveKeyOf_eq_some : sensitiveKeyOf arg = some key ↔
    ∃ value, Split.splitOnce '=' arg = some (key, value) ∧ isSensitiveKey key = true ∧
      value ≠ [] := by
  unfold sensitiveKeyOf
  cases Split.splitOnce '=' arg with
  | none => simp
  | some parts =>
    obtain ⟨key', value⟩ := parts
    simp only [Option.ite_none_right_eq_some, Bool.and_eq_true, Bool.not_eq_true',
      isEmpty_eq_false_iff, Option.some.injEq, Prod.mk.injEq]
    constructor
    · rintro ⟨⟨hkey, hvalue⟩, rfl⟩
      exact ⟨value, ⟨rfl, rfl⟩, hkey, hvalue⟩
    · rintro ⟨value', ⟨rfl, rfl⟩, hkey, hvalue⟩
      exact ⟨⟨hkey, hvalue⟩, rfl⟩

theorem not_givesAway_mark : ¬ GivesAway redactedMark := by
  rintro (h | ⟨h, -⟩)
  · rw [looksLike_redactedMark] at h
    cases h
  · cases h

theorem givesAway_redacted_key (hkey : '=' ∉ key) :
    GivesAway (key ++ '=' :: redactedMark) ↔ BeginsPortl key := by
  have hsplit : Split.splitOnce '=' (key ++ '=' :: redactedMark) = some (key, redactedMark) :=
    Split.splitOnce_eq_some.mpr ⟨rfl, hkey⟩
  constructor
  · rintro (h | ⟨-, key', value, hsplit', hvalue⟩)
    · exact looksLike_redacted_key.mp h
    · rw [hsplit] at hsplit'
      cases hsplit'
      rw [looksLike_redactedMark] at hvalue
      cases hvalue
  · intro h
    exact .inl (looksLike_redacted_key.mpr h)

theorem givesAway_redactArg : GivesAway (redactArg arg) ↔ ShowsTicket arg := by
  cases hticket : looksLikePortlTicket arg with
  | true =>
    rw [redactArg, if_pos hticket, ShowsTicket, hticket]
    constructor
    · rintro (h | ⟨h, -⟩)
      · rw [looksLike_redactedTicket] at h
        cases h
      · cases h
    · rintro ⟨h, -⟩
      cases h
  | false =>
    rw [redactArg_eq hticket, ShowsTicket]
    simp only [hticket, true_and]
    cases hkey : sensitiveKeyOf arg with
    | none =>
      obtain ⟨pieces, hstarred, hout⟩ := exists_starred arg
      constructor
      · exact fun h => ⟨pieces, hstarred, hout ▸ h⟩
      · rintro ⟨pieces', hstarred', h⟩
        exact hstarred'.shown ▸ h
    | some key =>
      obtain ⟨value, hsplit, -⟩ := sensitiveKeyOf_eq_some.mp hkey
      exact givesAway_redacted_key (Split.splitOnce_eq_some.mp hsplit).2

/-! ## Flags and their values -/

theorem sensitiveKeyOf_bareFlag (h : isSensitiveBareFlag flag = true) :
    sensitiveKeyOf flag = none := by
  simp only [isSensitiveBareFlag, Bool.and_eq_true, Bool.not_eq_true'] at h
  cases hkey : sensitiveKeyOf flag with
  | none => rfl
  | some key =>
    obtain ⟨value, hsplit, -⟩ := sensitiveKeyOf_eq_some.mp hkey
    have hmem : '=' ∈ flag := by
      rw [(Split.splitOnce_eq_some.mp hsplit).1]
      exact mem_append_right _ mem_cons_self
    rw [contains_iff_mem.mpr hmem] at h
    cases h.1.2

theorem marksNext_iff (h : isSensitiveBareFlag flag = true) :
    marksNext flag = true ↔ AllStarred flag := by
  have hdash := looksLike_of_dash (startsWithDash_of_bareFlag h)
  rw [marksNext, h, Bool.and_true, beq_iff_eq, redactArg_eq hdash, sensitiveKeyOf_bareFlag h,
    ← redactUrlUserinfo_eq_self]

theorem marksNext_of_not_bareFlag (h : isSensitiveBareFlag arg = false) : marksNext arg = false := by
  rw [marksNext, h, Bool.and_false]

theorem redactArg_redactedMark : redactArg redactedMark = redactedMark := by decide

theorem redactArg_eq_mark : redactArg arg = redactedMark ↔ arg = redactedMark := by
  constructor
  · intro h
    cases hticket : looksLikePortlTicket arg with
    | true =>
      rw [redactArg, if_pos hticket] at h
      exact absurd h (by decide)
    | false =>
      rw [redactArg_eq hticket] at h
      cases hkey : sensitiveKeyOf arg with
      | some key =>
        rw [hkey] at h
        have hmem : '=' ∈ redactedMark := h ▸ mem_append_right _ mem_cons_self
        exact absurd hmem (by decide)
      | none =>
        rw [hkey] at h
        have habsent : ¬ schemeMark <:+: arg := by
          refine schemeMark_of_redactUrlUserinfo ?_
          rw [show redactUrlUserinfo arg = redactedMark from h, ← Find.splitAt_eq_none]
          decide
        exact (redactUrlUserinfo_of_absent habsent).symm.trans h
  · rintro rfl
    exact redactArg_redactedMark

theorem recordArg_eq_mark {isValue : Bool} : recordArg isValue arg = redactedMark ↔
    arg = redactedMark ∨ (isValue = true ∧ startsWithDash arg = false) := by
  unfold recordArg
  split
  · next h => simp_all
  · next h =>
      rw [redactArg_eq_mark]
      simp_all

/-! ## A whole command line -/

/-- Nothing recorded gives away a ticket; the place of a value after a sensitive bare flag
shows the mark and no part of it; and so does the value of a sensitive key. -/
structure HidesSecrets (args : List (List Char)) : Prop where
  tickets : ∀ shown ∈ redactArgv args, ¬ GivesAway shown
  flags : ∀ before flag value after, args = before ++ flag :: value :: after →
    isSensitiveBareFlag flag = true →
    (redactArgv args)[before.length + 1]? = some redactedMark
  keys : ∀ before arg after key, args = before ++ arg :: after → sensitiveKeyOf arg = some key →
    (redactArgv args)[before.length]? ∈
      [some redactedMark, some redactedTicket, some (key ++ '=' :: redactedMark)]

/-- Every sensitive bare flag is heeded, and its value does not look like an option (or is
the mark itself); and of the other arguments none shows a ticket. -/
structure PlainArgs (args : List (List Char)) : Prop where
  flags : ∀ before flag value after, args = before ++ flag :: value :: after →
    isSensitiveBareFlag flag = true →
    value = redactedMark ∨ (AllStarred flag ∧ startsWithDash value = false)
  shown : ∀ before arg after, args = before ++ arg :: after →
    (∀ flag ∈ before.getLast?, isSensitiveBareFlag flag = false) → ¬ ShowsTicket arg

variable {args before after : List (List Char)}

theorem redactArgv_getElem?_value :
    (redactArgv (before ++ flag :: value :: after))[before.length + 1]? =
      some (recordArg (marksNext flag) value) := by
  have h := redactArgvFrom_getElem? false (before ++ [flag]) after value
  simpa [redactArgv] using h

theorem redactArgv_getElem?_plain
    (h : ∀ flag ∈ before.getLast?, isSensitiveBareFlag flag = false) :
    (redactArgv (before ++ arg :: after))[before.length]? = some (redactArg arg) := by
  rw [redactArgv, redactArgvFrom_getElem?]
  have hnot : (before.getLast?.map marksNext).getD false = false := by
    cases hlast : before.getLast? with
    | none => rfl
    | some flag => exact marksNext_of_not_bareFlag (h flag hlast)
  rw [hnot]
  rfl

theorem PlainArgs.of_hidesSecrets (h : HidesSecrets args) : PlainArgs args where
  flags := by
    rintro before flag value after rfl hflag
    have hmark := h.flags before flag value after rfl hflag
    rw [redactArgv_getElem?_value, Option.some.injEq, recordArg_eq_mark] at hmark
    exact hmark.imp_right (And.imp_left (marksNext_iff hflag).mp)
  shown := by
    rintro before arg after rfl hplain hshows
    have hget : (redactArgv (before ++ arg :: after))[before.length]? = some (redactArg arg) :=
      redactArgv_getElem?_plain hplain
    exact h.tickets _ (mem_of_getElem? hget) (givesAway_redactArg.mpr hshows)

theorem PlainArgs.value_hidden (h : PlainArgs (before ++ flag :: value :: after))
    (hflag : isSensitiveBareFlag flag = true) :
    (redactArgv (before ++ flag :: value :: after))[before.length + 1]? = some redactedMark := by
  rw [redactArgv_getElem?_value, Option.some.injEq, recordArg_eq_mark]
  exact (h.flags before flag value after rfl hflag).imp_right
    (And.imp_left (marksNext_iff hflag).mpr)

theorem bareFlag_before_or_plain (before : List (List Char)) :
    (∃ front flag, before = front ++ [flag] ∧ isSensitiveBareFlag flag = true) ∨
      ∀ flag ∈ before.getLast?, isSensitiveBareFlag flag = false := by
  rcases eq_nil_or_concat before with rfl | ⟨front, flag, rfl⟩
  · exact .inr (by simp)
  · cases hflag : isSensitiveBareFlag flag with
    | true => exact .inl ⟨front, flag, concat_eq_append, hflag⟩
    | false => exact .inr (by simp [hflag])

theorem HidesSecrets.of_plainArgs (h : PlainArgs args) : HidesSecrets args where
  tickets := by
    intro shown hshown
    obtain ⟨before, arg, after, rfl, hget⟩ := mem_redactArgv hshown
    rcases bareFlag_before_or_plain before with ⟨front, flag, rfl, hflag⟩ | hplain
    · rw [append_assoc, singleton_append] at h hget
      rw [length_append, length_singleton, h.value_hidden hflag] at hget
      cases hget
      exact not_givesAway_mark
    · rw [redactArgv_getElem?_plain hplain] at hget
      cases hget
      rw [givesAway_redactArg]
      exact h.shown before arg after rfl hplain
  flags := by
    rintro before flag value after rfl hflag
    exact h.value_hidden hflag
  keys := by
    rintro before arg after key rfl hkey
    rw [redactArgv, redactArgvFrom_getElem?, recordArg]
    split
    · exact mem_cons_self
    · cases hticket : looksLikePortlTicket arg with
      | true => simp [redactArg, hticket]
      | false => simp [redactArg_eq hticket, hkey]

/-- **What the record of a command line hides.** It hides every ticket and every value of a
sensitive flag or key exactly when the arguments are plain: a value that begins with a dash
is taken for an option, and a ticket after the `=` of an option is not looked for. -/
theorem redactArgv_hides_iff (args : List (List Char)) : HidesSecrets args ↔ PlainArgs args :=
  ⟨PlainArgs.of_hidesSecrets, HidesSecrets.of_plainArgs⟩

/-- A password in the argument after its flag. -/
theorem redactArgv_hides_password :
    HidesSecrets ["--password".toList, "hunter2".toList] := by
  refine (redactArgv_hides_iff _).mpr ⟨?_, ?_⟩
  · intro before flag value after heq _
    cases before with
    | nil =>
      cases heq
      exact .inr ⟨redactUrlUserinfo_eq_self.mp (by decide), by decide⟩
    | cons first before =>
      have hlength := congrArg List.length heq
      simp only [length_cons, length_append, length_nil] at hlength
      omega
  · intro before arg after heq hplain
    rcases before with _ | ⟨first, _ | ⟨second, before⟩⟩
    · cases heq
      have hshown : redactArg "--password".toList = "--password".toList := by decide
      rw [← givesAway_redactArg, hshown]
      rintro (h | ⟨-, key, value, hsplit, -⟩)
      · exact absurd h (by decide)
      · exact absurd ((Split.splitOnce_eq_some.mp hsplit).1 ▸
          mem_append_right key mem_cons_self) (by decide)
    · cases heq
      exact absurd (hplain _ rfl) (by decide)
    · have hlength := congrArg List.length heq
      simp only [length_cons, length_append, length_nil] at hlength
      omega

/-- A ticket after the `=` of an option is recorded as it is. -/
theorem redactArgv_shows_option_ticket :
    redactArgv ["--ticket=PORTLTKT-AEAQCAIB".toList] = ["--ticket=PORTLTKT-AEAQCAIB".toList] ∧
      looksLikePortlTicket "PORTLTKT-AEAQCAIB".toList = true ∧
      ¬ HidesSecrets ["--ticket=PORTLTKT-AEAQCAIB".toList] := by
  have hshown : redactArgv ["--ticket=PORTLTKT-AEAQCAIB".toList] =
      ["--ticket=PORTLTKT-AEAQCAIB".toList] := by decide
  have hticket : looksLikePortlTicket "PORTLTKT-AEAQCAIB".toList = true := by decide
  refine ⟨hshown, hticket, fun h => ?_⟩
  refine h.tickets "--ticket=PORTLTKT-AEAQCAIB".toList (by rw [hshown]; exact List.mem_cons_self) ?_
  exact .inr ⟨by decide, "--ticket".toList, "PORTLTKT-AEAQCAIB".toList, by decide, hticket⟩

end Portl

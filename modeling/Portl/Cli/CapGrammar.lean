import Portl.Cli.ParseCaps

/-!
# Port rules as documented

`portl ticket caps` and the error of `parse_caps` give the grammar of a port rule as
`tcp:<host_glob>:<port>[-<port_max>]`. `parse_port_rule` asks for the range, so a single
port is refused; and it leaves the numbers to `str::parse`, which reads signs and leading
zeros that the grammar does not have.
-/

namespace Portl

open Checks List

/-- What the grammar has after the scheme, and the rule it stands for. -/
inductive Documented : String → PortRule → Prop
  | port (host : String) (port : UInt16) :
      Documented (host ++ ":" ++ port.toNat.repr) ⟨host, port, port⟩
  | range (host : String) {low high : UInt16} (h : low ≤ high) :
      Documented (host ++ ":" ++ low.toNat.repr ++ "-" ++ high.toNat.repr) ⟨host, low, high⟩

def tcpCaps (rule : PortRule) : Capabilities :=
  { presence := 0b00000010, shell := none, tcp := some [rule], udp := none, fs := none, vpn := none,
    metaCaps := none, unix := none }

def udpCaps (rule : PortRule) : Capabilities :=
  { presence := 0b00000100, shell := none, tcp := none, udp := some [rule], fs := none, vpn := none,
    metaCaps := none, unix := none }

/-- The documented rules are accepted as what they stand for, and nothing else is. -/
structure AsDocumented (s : String) : Prop where
  tcp : ∀ caps, parseCaps ("tcp:" ++ s) = .ok caps ↔ ∃ rule, Documented s rule ∧ caps = tcpCaps rule
  udp : ∀ caps, parseCaps ("udp:" ++ s) = .ok caps ↔ ∃ rule, Documented s rule ∧ caps = udpCaps rule

def LonePort (s : String) : Prop := ∃ (host : String) (port : UInt16), s = host ++ ":" ++ port.toNat.repr

/-- If the string is a host and a range, its numbers have no sign and no leading zeros. -/
def PlainRange (s : String) : Prop :=
  ∀ (host low high : String) (min max : UInt16), s = host ++ ":" ++ low ++ "-" ++ high →
    parseU16 low = some min → parseU16 high = some max → min ≤ max →
      Numeral.Plain low.toList ∧ Numeral.Plain high.toList

/-! ## Reading a rule -/

theorem parseU16_repr (port : UInt16) : parseU16 port.toNat.repr = some port :=
  parseU16_eq_some.mpr (Numeral.unsigned_repr port.toNat_lt)

variable {s : String}

theorem plain_iff_printed {port : UInt16} (h : parseU16 s = some port) :
    Numeral.Plain s.toList ↔ s = port.toNat.repr := by
  rw [Numeral.plain_iff (parseU16_eq_some.mp h), String.toList_inj]

variable {high host low : String} {rule : PortRule} {caps : Capabilities}

theorem parsePortRule_range {min max : UInt16} (hlow : parseU16 low = some min)
    (hhigh : parseU16 high = some max) (hle : min ≤ max) :
    parsePortRule (host ++ ":" ++ low ++ "-" ++ high) = .ok ⟨host, min, max⟩ :=
  parsePortRule_eq_ok.mpr ⟨low, high, rfl, hlow, hhigh, hle⟩

theorem parsePortRule_port (host : String) (port : UInt16) :
    parsePortRule (host ++ ":" ++ port.toNat.repr) = .error "port range must look like min-max" := by
  have hcolon : ':' ∉ port.toNat.repr.toList :=
    not_mem_of_parseU16 (parseU16_repr port) (by decide) (by decide)
  have hdash : '-' ∉ port.toNat.repr.toList :=
    not_mem_of_parseU16 (parseU16_repr port) (by decide) (by decide)
  have hhost : Str.rsplitOnce (host ++ ":" ++ port.toNat.repr) ':' = some (host, port.toNat.repr) :=
    Str.rsplitOnce_eq_some.mpr ⟨by simp, hcolon⟩
  have hrange : Str.splitOnce port.toNat.repr '-' = none := by
    cases hsplit : Str.splitOnce port.toNat.repr '-' with
    | none => rfl
    | some parts =>
      obtain ⟨hparts, -⟩ := Str.splitOnce_eq_some.mp hsplit
      rw [hparts] at hdash
      exact absurd (mem_append_right _ mem_cons_self) hdash
  refine bind_eq_error.mpr (.inr ⟨_, okOr_eq_ok.mpr hhost, ?_⟩)
  exact bind_eq_error.mpr (.inl (okOr_eq_error.mpr ⟨hrange, rfl⟩))

theorem range_injective {low' high' : String}
    (h : host ++ ":" ++ low ++ "-" ++ high = host ++ ":" ++ low' ++ "-" ++ high')
    (hlow : '-' ∉ low.toList) (hlow' : '-' ∉ low'.toList) : low = low' ∧ high = high' := by
  have hlists := congrArg String.toList h
  simp only [String.toList_append, append_assoc, append_cancel_left_eq] at hlists
  have hsplit : Split.splitOnce '-' (low.toList ++ '-' :: high.toList) =
      some (low.toList, high.toList) := Split.splitOnce_eq_some.mpr ⟨rfl, hlow⟩
  have hsplit' : Split.splitOnce '-' (low'.toList ++ '-' :: high'.toList) =
      some (low'.toList, high'.toList) := Split.splitOnce_eq_some.mpr ⟨rfl, hlow'⟩
  have hsame := hsplit.symm.trans ((congrArg (Split.splitOnce '-') hlists).trans hsplit')
  rw [Option.some.injEq, Prod.mk.injEq] at hsame
  exact ⟨String.toList_inj.mp hsame.1, String.toList_inj.mp hsame.2⟩

theorem documented_of_plain (hplain : PlainRange s) (h : parsePortRule s = .ok rule) :
    Documented s rule := by
  obtain ⟨low, high, rfl, hlow, hhigh, hle⟩ := parsePortRule_eq_ok.mp h
  obtain ⟨hplow, hphigh⟩ := hplain _ low high _ _ rfl hlow hhigh hle
  rw [plain_iff_printed hlow] at hplow
  rw [plain_iff_printed hhigh] at hphigh
  subst hplow hphigh
  exact .range rule.hostGlob hle

theorem parsePortRule_of_documented (hlone : ¬ LonePort s) (h : Documented s rule) :
    parsePortRule s = .ok rule := by
  cases h with
  | port host port => exact absurd ⟨host, port, rfl⟩ hlone
  | range host hle => exact parsePortRule_range (parseU16_repr _) (parseU16_repr _) hle

/-- **The rule parser against the grammar.** -/
theorem parsePortRule_documented_iff :
    (∀ rule, parsePortRule s = .ok rule ↔ Documented s rule) ↔ ¬ LonePort s ∧ PlainRange s := by
  constructor
  · intro hdoc
    refine ⟨?_, ?_⟩
    · rintro ⟨host, port, rfl⟩
      have hok := (hdoc _).mpr (.port host port)
      rw [parsePortRule_port] at hok
      cases hok
    · rintro host low high min max rfl hlow hhigh hle
      have hrule : parsePortRule (host ++ ":" ++ low ++ "-" ++ high) = .ok ⟨host, min, max⟩ :=
        parsePortRule_range hlow hhigh hle
      have hgrammar := (hdoc _).mp hrule
      generalize hs : host ++ ":" ++ low ++ "-" ++ high = s at hrule hgrammar
      cases hgrammar with
      | port =>
        rw [parsePortRule_port] at hrule
        cases hrule
      | range =>
        obtain ⟨rfl, rfl⟩ := range_injective hs
          (not_mem_of_parseU16 hlow (by decide) (by decide))
          (not_mem_of_parseU16 (parseU16_repr min) (by decide) (by decide))
        exact ⟨Numeral.plain_repr _, Numeral.plain_repr _⟩
  · rintro ⟨hlone, hplain⟩ rule
    exact ⟨documented_of_plain hplain, parsePortRule_of_documented hlone⟩

/-! ## Specs of one rule -/

theorem entry_no_comma {scheme : String} (hscheme : ',' ∉ scheme.toList) (hcomma : ',' ∉ s.toList) :
    ',' ∉ (scheme ++ s).toList := by
  rw [String.toList_append, mem_append, not_or]
  exact ⟨hscheme, hcomma⟩

theorem caps_tcp (rule : PortRule) : (CapEntry.tcp rule).caps = tcpCaps rule := by
  have hbits : presenceBits false true false false false = 0b00000010 := by decide
  rw [CapEntry.caps, if_neg nofun, tcpCaps, ← hbits]
  rfl

theorem caps_udp (rule : PortRule) : (CapEntry.udp rule).caps = udpCaps rule := by
  have hbits : presenceBits false false true false false = 0b00000100 := by decide
  rw [CapEntry.caps, if_neg nofun, udpCaps, ← hbits]
  rfl

theorem parseCaps_tcp (hcomma : ',' ∉ s.toList) :
    parseCaps ("tcp:" ++ s) = .ok caps ↔ ∃ rule, parsePortRule s = .ok rule ∧ caps = tcpCaps rule := by
  have hall : "tcp:" ++ s ≠ "all" := Str.append_ne s (by decide)
  have hempty : "tcp:" ++ s ≠ "" := Str.append_ne s (by decide)
  rw [parseCaps_entry (entry_no_comma (by decide) hcomma) hempty, parseEntry_tcp]
  simp only [hall, false_and, false_or, bind_eq_ok]
  constructor
  · rintro ⟨_, ⟨rule, hrule, ⟨⟩⟩, rfl⟩
    exact ⟨rule, hrule, caps_tcp rule⟩
  · rintro ⟨rule, hrule, rfl⟩
    exact ⟨_, ⟨rule, hrule, rfl⟩, (caps_tcp rule).symm⟩

theorem parseCaps_udp (hcomma : ',' ∉ s.toList) :
    parseCaps ("udp:" ++ s) = .ok caps ↔ ∃ rule, parsePortRule s = .ok rule ∧ caps = udpCaps rule := by
  have hall : "udp:" ++ s ≠ "all" := Str.append_ne s (by decide)
  have hempty : "udp:" ++ s ≠ "" := Str.append_ne s (by decide)
  rw [parseCaps_entry (entry_no_comma (by decide) hcomma) hempty, parseEntry_udp]
  simp only [hall, false_and, false_or, bind_eq_ok]
  constructor
  · rintro ⟨_, ⟨rule, hrule, ⟨⟩⟩, rfl⟩
    exact ⟨rule, hrule, caps_udp rule⟩
  · rintro ⟨rule, hrule, rfl⟩
    exact ⟨_, ⟨rule, hrule, rfl⟩, (caps_udp rule).symm⟩

/-- Which text after `tcp:` or `udp:` is read as the grammar says: every one but a single
port, which is refused, and a range with a sign or leading zeros, which is accepted. -/
theorem cap_grammar_documented {s : String} (hcomma : ',' ∉ s.toList) :
    AsDocumented s ↔ ¬ LonePort s ∧ PlainRange s := by
  rw [← parsePortRule_documented_iff]
  constructor
  · intro h rule
    have htcp := h.tcp (tcpCaps rule)
    rw [parseCaps_tcp hcomma] at htcp
    simpa [tcpCaps] using htcp
  · intro h
    refine ⟨?_, ?_⟩
    · intro caps
      rw [parseCaps_tcp hcomma]
      simp only [h]
    · intro caps
      rw [parseCaps_udp hcomma]
      simp only [h]

theorem cap_grammar_documented_range :
    AsDocumented "127.0.0.1:6000-6100" ∧
      parseCaps "tcp:127.0.0.1:6000-6100" = .ok (tcpCaps ⟨"127.0.0.1", 6000, 6100⟩) := by
  have hrule : parsePortRule "127.0.0.1:6000-6100" = .ok ⟨"127.0.0.1", 6000, 6100⟩ := by decide +kernel
  have hdoc : AsDocumented "127.0.0.1:6000-6100" := by
    refine (cap_grammar_documented (by decide)).mpr ⟨?_, ?_⟩
    · rintro ⟨host, port, heq⟩
      rw [heq, parsePortRule_port] at hrule
      cases hrule
    · intro host low high min max heq hlow hhigh hle
      have hsame : parsePortRule "127.0.0.1:6000-6100" = .ok ⟨host, min, max⟩ :=
        heq ▸ parsePortRule_range hlow hhigh hle
      rw [hrule, Except.ok.injEq, PortRule.mk.injEq] at hsame
      obtain ⟨rfl, rfl, rfl⟩ := hsame
      have hspelled : "127.0.0.1" ++ ":" ++ "6000" ++ "-" ++ "6100" = "127.0.0.1:6000-6100" := by decide
      obtain ⟨rfl, rfl⟩ := range_injective (hspelled.trans heq) (by decide)
        (not_mem_of_parseU16 hlow (by decide) (by decide))
      decide
  have hle : (6000 : UInt16) ≤ 6100 := by decide
  have hgrammar : Documented "127.0.0.1:6000-6100" ⟨"127.0.0.1", 6000, 6100⟩ :=
    Documented.range "127.0.0.1" hle
  exact ⟨hdoc, (hdoc.tcp _).mpr ⟨_, hgrammar, rfl⟩⟩

/-- A single port, as in the first example of the reference, is refused; and a range with a
sign and a zero in front is accepted. -/
theorem cap_grammar_refuses_port :
    Documented "*:8080" ⟨"*", 8080, 8080⟩ ∧
      parseCaps "tcp:*:8080" = .error "port range must look like min-max" ∧
      parseCaps "tcp:*:+80-090" = .ok (tcpCaps ⟨"*", 80, 90⟩) := by
  refine ⟨.port "*" 8080, ?_, ?_⟩
  · decide +kernel
  · decide +kernel

end Portl

import Mathlib.Data.FinEnum
import Portl.Caps.Enforce
import Portl.Agent.Pipeline

/-!
# The gateway

`gateway.rs`: an agent in gateway mode connects every stream to one upstream
and puts the bearer of the ticket into the first request it forwards. Its request
line is validated, and the client's own `Authorization` and `Connection` lines are
dropped.

The request line is cut at the first CRLF, the header lines at LF, and a name is
compared byte for byte up to the colon, while a reader of the output splits
everything at LF and trims. The rewritten block reads as intended exactly when
these two views agree on the client's bytes (`Unambiguous`).
-/

namespace Portl

open Checks List

/-! ## Reading the header block -/

def maxHttpHeaderBytes : Nat := 64 * 1024

/-- How an injection stops: an `anyhow` error, by its text, or a slice index
out of range. -/
inductive GatewayStop where
  | err (message : String)
  | panic
deriving DecidableEq

/-- What a reader delivers: its bytes, and then the end of the stream or a
failed read. -/
structure ByteSource where
  bytes : Bytes
  fails : Bool

/-- The loop of `read_initial_headers`, with the bytes read so far. The bytes
behind the block stay in the reader. -/
def readHeadersFrom (fails : Bool) (bytes : Bytes) :
    Bytes → Except GatewayStop (Option (Bytes × Bytes))
  | [] =>
    if fails then .error (.err "read gateway HTTP headers")
    else if bytes = [] then .ok none
    else .error (.err "gateway expected an HTTP/1.1 header block")
  | byte :: rest =>
    if (bytes ++ [byte]).length > maxHttpHeaderBytes then
      .error (.err "gateway header block exceeded 65536 bytes")
    else if [13, 10, 13, 10].isSuffixOf (bytes ++ [byte]) then
      .ok (some (bytes ++ [byte], rest))
    else readHeadersFrom fails (bytes ++ [byte]) rest

def readInitialHeaders (recv : ByteSource) : Except GatewayStop (Option (Bytes × Bytes)) :=
  readHeadersFrom recv.fails [] recv.bytes

/-! ## Rewriting it -/

def fromUtf8 (bytes : Bytes) : Option String := String.fromUTF8? ⟨bytes.toArray⟩

def toAsciiLowercase (byte : UInt8) : UInt8 := if 65 ≤ byte ∧ byte ≤ 90 then byte + 32 else byte

/-- `windows(2).position(|window| window == b"\r\n")`. -/
def crlfPosition : Bytes → Option Nat
  | [] => none
  | byte :: rest =>
    if byte = 13 ∧ rest.head? = some 10 then some 0
    else (crlfPosition rest).map (· + 1)

/-- `trim_end_matches("\r\n")`, on the reversed line. -/
def trimEndCrlfRev : Bytes → Bytes
  | [] => []
  | [byte] => [byte]
  | last :: before :: rest =>
    if last = 10 ∧ before = 13 then trimEndCrlfRev rest else last :: before :: rest

def validateHttp11RequestLine (line : Bytes) : Except GatewayStop Unit := do
  failIf (fromUtf8 line).isNone (.err "gateway request line was not utf-8")
  failIf (!(asciiBytes " HTTP/1.1\r\n").isSuffixOf line)
    (.err "gateway requires an HTTP/1.1 request line")
  let trimmed := (trimEndCrlfRev line.reverse).reverse
  let parts := trimmed.splitOn 32
  let method := parts.getD 0 []
  let target := parts.getD 1 []
  let version := parts.getD 2 []
  failIf (method.isEmpty || target.isEmpty || version != asciiBytes "HTTP/1.1" ||
      parts.length > 3)
    (.err "gateway received a malformed HTTP/1.1 request line")

def bearerToHeaderValue (bearer : Bytes) : Except GatewayStop String := do
  let value ← okOr (fromUtf8 bearer) (.err "bearer contains non-UTF-8 bytes")
  failIf value.toList.isEmpty (.err "bearer is empty")
  failIf (!value.toList.all (fun c => 0x21 ≤ c.toNat && c.toNat ≤ 0x7e))
    (.err "bearer contains non-printable characters")
  return value

def isHeaderNamed (line name : Bytes) : Bool :=
  let headerName := line.takeWhile (· != 58)
  headerName.map toAsciiLowercase == name.map toAsciiLowercase

def authorizationName : Bytes := asciiBytes "authorization"

def connectionName : Bytes := asciiBytes "connection"

def copiesLine (line : Bytes) : Bool :=
  !(line.isEmpty || line == [13] || isHeaderNamed line authorizationName ||
    isHeaderNamed line connectionName)

def rewriteRequestHeaders (headers bearer : Bytes) : Except GatewayStop Bytes := do
  let requestLineEnd ← okOr (crlfPosition headers)
    (.err "gateway request line terminator missing")
  let requestLine := headers.take (requestLineEnd + 2)
  validateHttp11RequestLine requestLine
  let headerValue ← bearerToHeaderValue bearer
  -- `&headers[request_line_end + 2..headers.len() - 2]`
  failIf (headers.length - 2 < requestLineEnd + 2) .panic
  let headerBlock := (headers.take (headers.length - 2)).drop (requestLineEnd + 2)
  return requestLine ++ asciiBytes ("Authorization: Bearer " ++ headerValue ++ "\r\n") ++
    asciiBytes "Connection: close\r\n" ++
    ((headerBlock.splitOn 10).filter copiesLine).flatMap (· ++ [10]) ++ [13, 10]

/-! ## A line-based reading -/

def stripCr (line : Bytes) : Bytes := if line.getLast? = some 13 then line.dropLast else line

def httpLines (bytes : Bytes) : List Bytes := (Split.pieces 10 bytes).map stripCr

def isAsciiWhitespace (byte : UInt8) : Bool := byte == 32 || (9 ≤ byte && byte ≤ 13)

def trimAscii (bytes : Bytes) : Bytes :=
  (bytes.rdropWhile isAsciiWhitespace).dropWhile isAsciiWhitespace

/-- The name of a line: what stands before the first colon, all of it when there
is none, trimmed and case folded. -/
def fieldName (line : Bytes) : Bytes :=
  (trimAscii (line.takeWhile (· != 58))).map toAsciiLowercase

def isOther (line : Bytes) : Bool :=
  !(stripCr line).isEmpty && fieldName line != authorizationName &&
    fieldName line != connectionName

/-- **The upstream's view of an injection.** Read line by line, the block has one
`authorization` line, with the bearer, one `connection` line, which is `close`,
its first empty line is the last line, and all other lines are the client's. -/
structure Injected (headers bearer out : Bytes) : Prop where
  authorization : (httpLines out).filter (fieldName · == authorizationName) =
    [asciiBytes "Authorization: Bearer " ++ bearer]
  connection : (httpLines out).filter (fieldName · == connectionName) =
    [asciiBytes "Connection: close"]
  complete : Split.Terminated 10 out
  last_empty : (httpLines out).getLast? = some []
  no_empty : [] ∉ (httpLines out).dropLast
  others : (Split.pieces 10 out).filter isOther = (Split.pieces 10 headers).filter isOther

def requestLineOf (headers : Bytes) : Bytes := headers.take ((crlfPosition headers).getD 0 + 2)

def headerBlockOf (headers : Bytes) : Bytes :=
  (headers.take (headers.length - 2)).drop ((crlfPosition headers).getD 0 + 2)

/-- The two views of the client's bytes agree: split at LF, the request line has
no empty line and no `authorization` or `connection` line, and in the block every
line of these names, trimmed, already has the name before trimming. -/
structure Unambiguous (headers : Bytes) : Prop where
  request_line : ∀ line ∈ Split.pieces 10 (requestLineOf headers), isOther line = true
  authorization : ∀ line ∈ Split.pieces 10 (headerBlockOf headers),
    fieldName line = authorizationName → isHeaderNamed line authorizationName = true
  connection : ∀ line ∈ Split.pieces 10 (headerBlockOf headers),
    fieldName line = connectionName → isHeaderNamed line connectionName = true

theorem header_names :
    (∀ byte ∈ authorizationName, toAsciiLowercase byte = byte ∧ 97 ≤ byte ∧ byte ≤ 122) ∧
    (∀ byte ∈ connectionName, toAsciiLowercase byte = byte ∧ 97 ≤ byte ∧ byte ≤ 122) ∧
    authorizationName ≠ connectionName ∧ authorizationName ≠ [] ∧ connectionName ≠ [] := by
  decide +kernel

/-! ## What was read and validated -/

variable {headers rest bearer out line bytes : Bytes} {value : String} {recv : ByteSource}
  {byte : UInt8}

theorem readHeadersFrom_eq_some {fails : Bool} {input : Bytes}
    (h : readHeadersFrom fails bytes input = .ok (some (headers, rest))) :
    [13, 10, 13, 10] <:+ headers ∧ headers.length ≤ maxHttpHeaderBytes ∧
      bytes ++ input = headers ++ rest := by
  induction input generalizing bytes with
  | nil =>
    unfold readHeadersFrom at h
    split_ifs at h
    · cases h
  | cons byte input ih =>
    unfold readHeadersFrom at h
    split_ifs at h with hlen hend
    · cases h
      exact ⟨isSuffixOf_iff_suffix.mp hend, by omega, by simp⟩
    · obtain ⟨hsuffix, hmax, heq⟩ := ih h
      exact ⟨hsuffix, hmax, by rw [← heq, append_assoc, singleton_append]⟩

theorem readInitialHeaders_eq_some (h : readInitialHeaders recv = .ok (some (headers, rest))) :
    [13, 10, 13, 10] <:+ headers ∧ headers.length ≤ maxHttpHeaderBytes ∧
      recv.bytes = headers ++ rest :=
  readHeadersFrom_eq_some h

theorem crlfPosition_append (before after : Bytes) :
    ∃ i, crlfPosition (before ++ 13 :: 10 :: after) = some i ∧ i ≤ before.length := by
  induction before with
  | nil => exact ⟨0, rfl, Nat.le_refl 0⟩
  | cons byte before ih =>
    obtain ⟨i, hi, hle⟩ := ih
    rw [cons_append, crlfPosition]
    split_ifs
    · exact ⟨0, rfl, Nat.zero_le _⟩
    · exact ⟨i + 1, by rw [hi]; rfl, Nat.succ_le_succ hle⟩

theorem crlfPosition_eq_some {i : Nat} (h : crlfPosition headers = some i) :
    ∃ line rest, headers = line ++ 13 :: 10 :: rest ∧ line.length = i := by
  induction headers generalizing i with
  | nil => cases h
  | cons byte headers ih =>
    unfold crlfPosition at h
    split_ifs at h with hcrlf
    · obtain ⟨rfl, hhead⟩ := hcrlf
      obtain ⟨rest, rfl⟩ := List.head?_eq_some_iff.mp hhead
      exact ⟨[], rest, rfl, Option.some.inj h⟩
    · obtain ⟨j, hj, rfl⟩ := Option.map_eq_some_iff.mp h
      obtain ⟨line, rest, rfl, rfl⟩ := ih hj
      exact ⟨byte :: line, rest, rfl, rfl⟩

/-- **The shape of a block**: a request line that ends with LF, complete header
lines, and a blank line. The slices of the rewrite are in range. -/
theorem header_block_shape (h : [13, 10, 13, 10] <:+ headers) :
    ∃ i, crlfPosition headers = some i ∧ i + 2 ≤ headers.length - 2 ∧
      headers = requestLineOf headers ++ headerBlockOf headers ++ [13, 10] ∧
      Split.Terminated 10 (requestLineOf headers) ∧
      Split.Terminated 10 (headerBlockOf headers) := by
  obtain ⟨body, rfl⟩ := h
  obtain ⟨i, hi, hle⟩ := crlfPosition_append body [13, 10]
  obtain ⟨line, rest, hline, hlength⟩ := crlfPosition_eq_some hi
  have hcut : (body ++ [13, 10, 13, 10]).take ((body ++ [13, 10, 13, 10]).length - 2) =
      body ++ [13, 10] := by
    rw [show body ++ [13, 10, 13, 10] = (body ++ [13, 10]) ++ [13, 10] by simp,
      take_left' (by simp)]
  refine ⟨i, hi, by simp; omega, ?_, Or.inr ?_, ?_⟩
  · unfold requestLineOf headerBlockOf
    rw [hi, Option.getD_some, hcut,
      show body ++ [13, 10, 13, 10] = (body ++ [13, 10]) ++ [13, 10] by simp,
      take_append_of_le_length (by simp; omega), take_append_drop]
  · unfold requestLineOf
    rw [hi, Option.getD_some, hline,
      show line ++ 13 :: 10 :: rest = (line ++ [13, 10]) ++ rest by simp,
      take_left' (by simp [hlength])]
    simp
  · unfold headerBlockOf
    rw [hi, Option.getD_some, hcut]
    by_cases hend : (body ++ [13, 10]).length ≤ i + 2
    · exact Or.inl (drop_eq_nil_of_le hend)
    · refine Or.inr ?_
      rw [List.getLast?_drop, if_neg hend]
      simp

theorem fromUtf8_eq_some (h : fromUtf8 bytes = some value) : asciiBytes value = bytes := by
  unfold fromUtf8 String.fromUTF8? at h
  split_ifs at h
  cases h
  rfl

theorem mem_asciiBytes (h : value.toList.all (fun c => 0x21 ≤ c.toNat && c.toNat ≤ 0x7e) = true)
    (hbyte : byte ∈ asciiBytes value) : 0x21 ≤ byte ∧ byte ≤ 0x7e := by
  have hencode : asciiBytes value = value.toList.flatMap String.utf8EncodeChar := by
    unfold asciiBytes
    rw [String.toUTF8_eq_toByteArray, ← String.utf8Encode_toList]
    simp [List.utf8Encode]
  rw [hencode] at hbyte
  obtain ⟨c, hc, hmem⟩ := mem_flatMap.mp hbyte
  have hrange := all_eq_true.mp h c hc
  simp only [Bool.and_eq_true, decide_eq_true_eq] at hrange
  have hval : c.val.toNat ≤ 0x7e := hrange.2
  rw [String.utf8EncodeChar_eq_singleton
    (Char.utf8Size_eq_one_iff.mpr (UInt32.le_iff_toNat_le.mpr (by simp; omega))),
    mem_singleton] at hmem
  have hnat : byte.toNat = c.toNat := by
    rw [hmem, UInt32.toNat_toUInt8]
    exact Nat.mod_eq_of_lt (by omega)
  rw [UInt8.le_iff_toNat_le, UInt8.le_iff_toNat_le, hnat]
  exact hrange

theorem bearerToHeaderValue_eq_ok (h : bearerToHeaderValue bearer = .ok value) :
    asciiBytes value = bearer ∧ ∀ byte ∈ bearer, 0x21 ≤ byte ∧ byte ≤ 0x7e := by
  simp only [bearerToHeaderValue, bind_eq_ok, okOr_eq_ok, failIf_eq_ok] at h
  obtain ⟨decoded, hutf8, -, -, -, hprint, hvalue⟩ := h
  cases hvalue
  have hbytes := fromUtf8_eq_some hutf8
  refine ⟨hbytes, ?_⟩
  intro byte hbyte
  rw [← hbytes] at hbyte
  exact mem_asciiBytes (by simpa using hprint) hbyte

/-! ## The lines of the output -/

def authorizationLine (bearer : Bytes) : Bytes := asciiBytes "Authorization: Bearer " ++ bearer

def closeLine : Bytes := asciiBytes "Connection: close"

theorem asciiBytes_append (s t : String) : asciiBytes (s ++ t) = asciiBytes s ++ asciiBytes t := by
  unfold asciiBytes
  simp

theorem rewriteRequestHeaders_eq_ok (hblock : [13, 10, 13, 10] <:+ headers)
    (h : rewriteRequestHeaders headers bearer = .ok out) :
    (∀ byte ∈ bearer, 0x21 ≤ byte ∧ byte ≤ 0x7e) ∧
      out = requestLineOf headers ++
        ([authorizationLine bearer ++ [13], closeLine ++ [13]] ++
          (Split.pieces 10 (headerBlockOf headers)).filter copiesLine).flatMap (· ++ [10]) ++
        [13, 10] := by
  obtain ⟨i, hi, -, -, -, hterm⟩ := header_block_shape hblock
  simp only [rewriteRequestHeaders, bind_eq_ok, okOr_eq_ok, failIf_eq_ok] at h
  obtain ⟨j, hj, -, -, value, hvalue, -, -, hout⟩ := h
  cases hi.symm.trans hj
  obtain ⟨hbytes, hprint⟩ := bearerToHeaderValue_eq_ok hvalue
  have hsplit : (headerBlockOf headers).splitOn 10 =
      Split.pieces 10 (headerBlockOf headers) ++ [[]] := Split.splitOn_of_terminated hterm
  have hdef : headerBlockOf headers = (headers.take (headers.length - 2)).drop (i + 2) := by
    unfold headerBlockOf
    rw [hi, Option.getD_some]
  have hline : requestLineOf headers = headers.take (i + 2) := by
    unfold requestLineOf
    rw [hi, Option.getD_some]
  refine ⟨hprint, ?_⟩
  cases hout
  rw [← hdef, ← hline, hsplit, filter_append, asciiBytes_append, asciiBytes_append, hbytes,
    show asciiBytes "Connection: close\r\n" = closeLine ++ [13] ++ [10] by decide +kernel,
    show asciiBytes "\r\n" = [13] ++ [10] by decide +kernel,
    show [([] : Bytes)].filter copiesLine = [] by decide +kernel]
  simp [authorizationLine]

theorem not_mem_authorizationLine (h : ∀ byte ∈ bearer, 0x21 ≤ byte ∧ byte ≤ 0x7e) :
    (10 : UInt8) ∉ authorizationLine bearer ++ [13] := by
  have hbearer : (10 : UInt8) ∉ bearer := fun hmem => absurd (h 10 hmem).1 (by decide)
  have htext : (10 : UInt8) ∉ asciiBytes "Authorization: Bearer " := by decide +kernel
  simp [authorizationLine, htext, hbearer]

/-- **The output, line by line**: the request line as the client sent it, the
two lines of the gateway, the copied lines, a blank line. -/
theorem pieces_rewritten (hblock : [13, 10, 13, 10] <:+ headers)
    (h : rewriteRequestHeaders headers bearer = .ok out) :
    Split.pieces 10 out = Split.pieces 10 (requestLineOf headers) ++
      ([authorizationLine bearer ++ [13], closeLine ++ [13]] ++
        (Split.pieces 10 (headerBlockOf headers)).filter copiesLine) ++ [[13]] := by
  obtain ⟨-, -, -, -, hterm, -⟩ := header_block_shape hblock
  obtain ⟨hprint, rfl⟩ := rewriteRequestHeaders_eq_ok hblock h
  rw [append_assoc, Split.pieces_append hterm, Split.pieces_flatMap, ← append_assoc]
  · rfl
  · intro line hline
    rcases mem_append.mp hline with hown | hcopied
    · rcases mem_cons.mp hown with rfl | hown
      · exact not_mem_authorizationLine hprint
      · rw [mem_singleton.mp hown]
        decide +kernel
    · exact Split.not_mem_of_mem_pieces (mem_filter.mp hcopied).1

/-! ## Names -/

theorem fieldName_stripCr (line : Bytes) : fieldName (stripCr line) = fieldName line := by
  unfold stripCr
  split_ifs with hlast
  · obtain ⟨before, rfl⟩ := List.getLast?_eq_some_iff.mp hlast
    unfold fieldName
    rw [dropLast_concat, takeWhile_append]
    split_ifs with hall
    · have hself : before.takeWhile (· != 58) = before :=
        (List.takeWhile_prefix _).eq_of_length hall
      rw [hself, show [(13 : UInt8)].takeWhile (· != 58) = [13] by decide]
      unfold trimAscii
      rw [rdropWhile_concat_pos _ _ _ (by decide)]
    · rfl
  · rfl

theorem toAsciiLowercase_letter (h : 97 ≤ toAsciiLowercase byte ∧ toAsciiLowercase byte ≤ 122) :
    isAsciiWhitespace byte = false := by
  simp only [toAsciiLowercase, UInt8.le_iff_toNat_le] at h
  simp only [isAsciiWhitespace, UInt8.le_iff_toNat_le, Bool.or_eq_false_iff, beq_eq_false_iff_ne,
    ne_eq, ← UInt8.toNat_inj, Bool.and_eq_false_iff, decide_eq_false_iff_not]
  split_ifs at h with hupper
  · simp at hupper ⊢
    omega
  · simp at h ⊢
    omega

theorem fieldName_of_isHeaderNamed {name : Bytes}
    (hname : ∀ byte ∈ name, toAsciiLowercase byte = byte ∧ 97 ≤ byte ∧ byte ≤ 122)
    (h : isHeaderNamed line name = true) : fieldName line = name := by
  have hlower : name.map toAsciiLowercase = name :=
    (map_congr_left (fun byte hbyte => (hname byte hbyte).1)).trans (map_id name)
  have heq : (line.takeWhile (· != 58)).map toAsciiLowercase = name := by
    rw [← hlower]
    exact beq_iff_eq.mp h
  have hblank : ∀ byte ∈ line.takeWhile (· != 58), isAsciiWhitespace byte = false := by
    intro byte hbyte
    have hmem : toAsciiLowercase byte ∈ name := by
      rw [← heq]
      exact mem_map_of_mem hbyte
    exact toAsciiLowercase_letter (hname _ hmem).2
  have htrim : trimAscii (line.takeWhile (· != 58)) = line.takeWhile (· != 58) := by
    unfold trimAscii
    rw [rdropWhile_eq_self_iff.mpr (fun hne => by simp [hblank _ (getLast_mem hne)]),
      dropWhile_eq_self_iff.mpr (fun hlen => by simp [hblank _ (getElem_mem hlen)])]
  unfold fieldName
  rw [htrim, heq]

theorem fieldName_of_authorization (h : isHeaderNamed line authorizationName = true) :
    fieldName line = authorizationName :=
  fieldName_of_isHeaderNamed header_names.1 h

theorem fieldName_of_connection (h : isHeaderNamed line connectionName = true) :
    fieldName line = connectionName :=
  fieldName_of_isHeaderNamed header_names.2.1 h

theorem stripCr_eq_nil : stripCr line = [] ↔ line = [] ∨ line = [13] := by
  unfold stripCr
  constructor
  · intro h
    split_ifs at h with hlast
    · obtain ⟨before, rfl⟩ := List.getLast?_eq_some_iff.mp hlast
      rw [dropLast_concat] at h
      exact Or.inr (by rw [h, nil_append])
    · exact Or.inl h
  · rintro (rfl | rfl) <;> rfl

theorem stripCr_concat (line : Bytes) : stripCr (line ++ [13]) = line := by
  simp [stripCr]

theorem copiesLine_iff :
    copiesLine line = true ↔ stripCr line ≠ [] ∧
      isHeaderNamed line authorizationName = false ∧
      isHeaderNamed line connectionName = false := by
  rw [Ne, stripCr_eq_nil]
  simp [copiesLine, and_assoc]

theorem isOther_iff :
    isOther line = true ↔ stripCr line ≠ [] ∧ fieldName line ≠ authorizationName ∧
      fieldName line ≠ connectionName := by
  simp [isOther, and_assoc]

theorem copiesLine_of_isOther (h : isOther line = true) : copiesLine line = true := by
  obtain ⟨hne, hauth, hconn⟩ := isOther_iff.mp h
  refine copiesLine_iff.mpr ⟨hne, ?_, ?_⟩
  · rw [Bool.eq_false_iff]
    exact fun hnamed => hauth (fieldName_of_authorization hnamed)
  · rw [Bool.eq_false_iff]
    exact fun hnamed => hconn (fieldName_of_connection hnamed)

theorem stripCr_ne_nil_of_fieldName (h : fieldName line ≠ []) : stripCr line ≠ [] := by
  intro hnil
  rw [← fieldName_stripCr, hnil] at h
  exact h rfl

theorem copiesLine_of_named {name : Bytes}
    (hname : name = authorizationName ∨ name = connectionName) (h : fieldName line = name) :
    copiesLine line = true ↔ isHeaderNamed line name = false := by
  have hline : stripCr line ≠ [] := by
    refine stripCr_ne_nil_of_fieldName ?_
    rw [h]
    rcases hname with rfl | rfl
    · exact header_names.2.2.2.1
    · exact header_names.2.2.2.2
  have hone : ¬ (fieldName line = authorizationName ∧ fieldName line = connectionName) :=
    fun hboth => header_names.2.2.1 (hboth.1.symm.trans hboth.2)
  rw [copiesLine_iff]
  rcases hname with rfl | rfl
  · have hother : isHeaderNamed line connectionName = false :=
      Bool.eq_false_iff.mpr fun hnamed => hone ⟨h, fieldName_of_connection hnamed⟩
    simp [hline, hother]
  · have hother : isHeaderNamed line authorizationName = false :=
      Bool.eq_false_iff.mpr fun hnamed => hone ⟨fieldName_of_authorization hnamed, h⟩
    simp [hline, hother]

theorem fieldName_authorizationLine (bearer : Bytes) :
    fieldName (authorizationLine bearer ++ [13]) = authorizationName := by
  unfold fieldName authorizationLine
  rw [append_assoc, takeWhile_append, if_neg (by decide +kernel)]
  decide +kernel

theorem fieldName_closeLine : fieldName (closeLine ++ [13]) = connectionName := by
  decide +kernel

/-! ## When the injection reads as intended -/

section Rewritten

variable {headers bearer out : Bytes}

theorem filter_httpLines (bytes name : Bytes) :
    (httpLines bytes).filter (fieldName · == name) =
      ((Split.pieces 10 bytes).filter (fieldName · == name)).map stripCr := by
  unfold httpLines
  rw [filter_map]
  congr 1
  refine filter_congr ?_
  intro line _
  rw [Function.comp_apply, fieldName_stripCr]

theorem append_cons_eq_singleton {before after : List Bytes} :
    before ++ (line :: after) = [line] ↔ before = [] ∧ after = [] := by
  constructor
  · intro h
    have hlength := congrArg List.length h
    simp only [length_append, length_cons, length_nil] at hlength
    exact ⟨eq_nil_of_length_eq_zero (by omega), eq_nil_of_length_eq_zero (by omega)⟩
  · rintro ⟨rfl, rfl⟩
    rfl

/-- The lines of one name are the gateway's own line of it and no more exactly
when no line of the request line has the name, and none that is copied. -/
theorem named_lines_iff (name own : Bytes) (hblock : [13, 10, 13, 10] <:+ headers)
    (h : rewriteRequestHeaders headers bearer = .ok out)
    (hname : name = authorizationName ∨ name = connectionName)
    (hown : [authorizationLine bearer ++ [13], closeLine ++ [13]].filter (fieldName · == name) =
      [own ++ [13]]) :
    (httpLines out).filter (fieldName · == name) = [own] ↔
      (∀ line ∈ Split.pieces 10 (requestLineOf headers), fieldName line ≠ name) ∧
      ∀ line ∈ Split.pieces 10 (headerBlockOf headers),
        fieldName line = name → isHeaderNamed line name = true := by
  have hblank : [[(13 : UInt8)]].filter (fieldName · == name) = [] := by
    rcases hname with rfl | rfl <;> decide +kernel
  rw [filter_httpLines, pieces_rewritten hblock h]
  simp only [filter_append, hown, hblank, append_nil, map_append, map_cons, stripCr_concat,
    singleton_append, append_cons_eq_singleton, map_eq_nil_iff, filter_eq_nil_iff, beq_iff_eq,
    mem_filter]
  refine and_congr_right fun _ => forall_congr' fun line => ?_
  constructor
  · intro hcopied hmem hline
    by_contra hmiss
    exact hcopied ⟨hmem, (copiesLine_of_named hname hline).mpr (Bool.eq_false_iff.mpr hmiss)⟩ hline
  · rintro hkept ⟨hmem, hcopies⟩ hline
    have hmiss := (copiesLine_of_named hname hline).mp hcopies
    rw [hkept hmem hline] at hmiss
    cases hmiss

theorem others_unchanged (hblock : [13, 10, 13, 10] <:+ headers)
    (h : rewriteRequestHeaders headers bearer = .ok out) :
    (Split.pieces 10 out).filter isOther = (Split.pieces 10 headers).filter isOther := by
  obtain ⟨-, -, -, hshape, hline, hterm⟩ := header_block_shape hblock
  have hheaders : Split.pieces 10 headers = Split.pieces 10 (requestLineOf headers) ++
      Split.pieces 10 (headerBlockOf headers) ++ [[13]] := by
    conv_lhs => rw [hshape, append_assoc, Split.pieces_append hline, Split.pieces_append hterm,
      ← append_assoc]
    rfl
  have hown : [authorizationLine bearer ++ [13], closeLine ++ [13]].filter isOther = [] := by
    rw [filter_eq_nil_iff]
    intro line hmem
    rw [isOther_iff]
    rcases mem_cons.mp hmem with rfl | hmem
    · exact fun hother => hother.2.1 (fieldName_authorizationLine bearer)
    · rw [mem_singleton.mp hmem]
      exact fun hother => hother.2.2 fieldName_closeLine
  have hcopied : ((Split.pieces 10 (headerBlockOf headers)).filter copiesLine).filter isOther =
      (Split.pieces 10 (headerBlockOf headers)).filter isOther := by
    rw [filter_filter]
    refine filter_congr ?_
    intro line _
    by_cases hother : isOther line = true
    · rw [hother, copiesLine_of_isOther hother]
      rfl
    · rw [Bool.eq_false_iff.mpr hother]
      rfl
  rw [pieces_rewritten hblock h, hheaders]
  simp only [filter_append, hown, hcopied, nil_append]

theorem no_empty_iff (hblock : [13, 10, 13, 10] <:+ headers)
    (h : rewriteRequestHeaders headers bearer = .ok out) :
    [] ∉ (httpLines out).dropLast ↔
      ∀ line ∈ Split.pieces 10 (requestLineOf headers), stripCr line ≠ [] := by
  unfold httpLines
  rw [pieces_rewritten hblock h, map_append, map_cons, map_nil,
    dropLast_concat, mem_map]
  constructor
  · intro hnone line hline hempty
    exact hnone ⟨line, mem_append_left _ hline, hempty⟩
  · rintro hne ⟨line, hline, hempty⟩
    rcases mem_append.mp hline with hline | hline
    · exact hne line hline hempty
    · rcases mem_append.mp hline with hown | hcopied
      · refine stripCr_ne_nil_of_fieldName ?_ hempty
        rcases mem_cons.mp hown with rfl | hown
        · rw [fieldName_authorizationLine]
          exact header_names.2.2.2.1
        · rw [mem_singleton.mp hown, fieldName_closeLine]
          exact header_names.2.2.2.2
      · exact (copiesLine_iff.mp (mem_filter.mp hcopied).2).1 hempty

theorem injected_iff_unambiguous (hblock : [13, 10, 13, 10] <:+ headers)
    (h : rewriteRequestHeaders headers bearer = .ok out) :
    Injected headers bearer out ↔ Unambiguous headers := by
  have hdistinct := header_names.2.2.1
  have hauth := named_lines_iff authorizationName (authorizationLine bearer) hblock h (.inl rfl)
    (by simp [fieldName_authorizationLine, fieldName_closeLine, hdistinct.symm])
  have hconn := named_lines_iff connectionName closeLine hblock h (.inr rfl)
    (by simp [fieldName_authorizationLine, fieldName_closeLine, hdistinct])
  constructor
  · intro hinj
    obtain ⟨hline, hcopied⟩ := hauth.mp hinj.authorization
    obtain ⟨hline', hcopied'⟩ := hconn.mp hinj.connection
    have hempty := (no_empty_iff hblock h).mp hinj.no_empty
    refine ⟨fun line hmem => ?_, hcopied, hcopied'⟩
    exact isOther_iff.mpr ⟨hempty line hmem, hline line hmem, hline' line hmem⟩
  · intro hclear
    have hrequest := fun line hmem => isOther_iff.mp (hclear.request_line line hmem)
    refine ⟨hauth.mpr ⟨fun line hmem => (hrequest line hmem).2.1, hclear.authorization⟩,
      hconn.mpr ⟨fun line hmem => (hrequest line hmem).2.2, hclear.connection⟩, ?_, ?_,
      (no_empty_iff hblock h).mpr fun line hmem => (hrequest line hmem).1,
      others_unchanged hblock h⟩
    · obtain ⟨-, rfl⟩ := rewriteRequestHeaders_eq_ok hblock h
      exact Or.inr (by rw [List.getLast?_append]; rfl)
    · unfold httpLines
      rw [pieces_rewritten hblock h, map_append, map_cons, map_nil, List.getLast?_concat]
      rfl

end Rewritten

/-- **Credential injection.** For every block that was read and every bearer, a
rewrite that succeeds reads as intended exactly when the client's bytes are
unambiguous. The filter misses a name with a blank before its colon, and the
request line may hold LFs of its own. -/
theorem rewriteRequestHeaders_injected_iff {recv : ByteSource} {headers rest bearer out : Bytes}
    (hread : readInitialHeaders recv = .ok (some (headers, rest)))
    (h : rewriteRequestHeaders headers bearer = .ok out) :
    Injected headers bearer out ↔ Unambiguous headers :=
  injected_iff_unambiguous (readInitialHeaders_eq_some hread).1 h

def plainRequest : Bytes :=
  asciiBytes "GET / HTTP/1.1\r\nHost: a\r\nAuthorization: Bearer x\r\n\r\n"

theorem rewriteRequestHeaders_injected_plain :
    readInitialHeaders ⟨plainRequest, false⟩ = .ok (some (plainRequest, [])) ∧
    rewriteRequestHeaders plainRequest (asciiBytes "tok") = .ok (asciiBytes
      "GET / HTTP/1.1\r\nAuthorization: Bearer tok\r\nConnection: close\r\nHost: a\r\n\r\n") ∧
    Injected plainRequest (asciiBytes "tok") (asciiBytes
      "GET / HTTP/1.1\r\nAuthorization: Bearer tok\r\nConnection: close\r\nHost: a\r\n\r\n") := by
  have hread : readInitialHeaders ⟨plainRequest, false⟩ = .ok (some (plainRequest, [])) := by
    decide +kernel
  have hrewrite : rewriteRequestHeaders plainRequest (asciiBytes "tok") = .ok (asciiBytes
      "GET / HTTP/1.1\r\nAuthorization: Bearer tok\r\nConnection: close\r\nHost: a\r\n\r\n") := by
    decide +kernel
  refine ⟨hread, hrewrite, (rewriteRequestHeaders_injected_iff hread hrewrite).mpr ?_⟩
  exact ⟨by decide +kernel, by decide +kernel, by decide +kernel⟩

def blankRequest : Bytes :=
  asciiBytes "GET / HTTP/1.1\r\nAuthorization : Bearer x\r\n\r\n"

/-- The client's credentials reach the upstream next to the ticket's. -/
theorem rewriteRequestHeaders_keeps_blank_name :
    readInitialHeaders ⟨blankRequest, false⟩ = .ok (some (blankRequest, [])) ∧
    rewriteRequestHeaders blankRequest (asciiBytes "tok") = .ok (asciiBytes
      "GET / HTTP/1.1\r\nAuthorization: Bearer tok\r\nConnection: close\r\nAuthorization : Bearer x\r\n\r\n") ∧
    ¬ Injected blankRequest (asciiBytes "tok") (asciiBytes
      "GET / HTTP/1.1\r\nAuthorization: Bearer tok\r\nConnection: close\r\nAuthorization : Bearer x\r\n\r\n") := by
  refine ⟨by decide +kernel, by decide +kernel, ?_⟩
  intro hinj
  exact absurd hinj.authorization (by decide +kernel)

end Portl

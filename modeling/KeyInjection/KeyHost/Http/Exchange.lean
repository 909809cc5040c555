-- SUMMARY: Posting a JSON text over HTTP, and reading the answer from what has arrived.
import KeyInjection.Error
import KeyInjection.KeyHost.Http.Status
import KeyInjection.Text.Decimal

/-!
# HTTP exchanges

A key host is reached by one HTTP request on a connection of its own. The answer is read from the
bytes that have arrived so far: they either decide it, or more are needed. A status that tells no
success decides it before the body has come; a body is delimited by its announced length, by
chunks, or by the end of the connection.
-/

namespace KeyInjection.Http

-- ---------------------------------------------------------------------------
-- Addresses
-- ---------------------------------------------------------------------------

/-- Where a request goes. -/
structure Address where
  /-- The name or number of the host. -/
  host : String
  port : UInt16
  /-- The host and port as they were written. -/
  authority : String
  /-- The path and query. -/
  target : String
  deriving DecidableEq, Repr

/-- The host and port of an authority; the port is 80 if none is written. -/
def hostAndPort? (authority : List Char) : Option (List Char × UInt16) :=
  let (host, rest) := match authority with
    | '[' :: more => (more.takeWhile (· != ']'), (more.dropWhile (· != ']')).drop 1)
    | all => (all.takeWhile (· != ':'), all.dropWhile (· != ':'))
  match host, rest with
  | [], _ => none
  | _, [] | _, [':'] => some (host, 80)
  | _, ':' :: digits =>
    ((Text.decimal? digits).filter (· < 0x10000)).map fun port => (host, UInt16.ofNat port)
  | _, _ => none

def Address.ofUrl? (url : String) : Option Address := do
  let scheme := "http://".toList
  let text := url.toList
  guard (((text.take scheme.length).map Char.toLower) = scheme)
  let rest := text.drop scheme.length
  let isEnd (c : Char) : Bool := c = '/' || c = '?' || c = '#'
  let authority := rest.takeWhile (!isEnd ·)
  let authority := match authority.dropWhile (· != '@') with
    | _ :: behind => behind
    | [] => authority
  let target := (rest.dropWhile (!isEnd ·)).takeWhile (· != '#')
  let target := if target.head? = some '/' then target else '/' :: target
  let (host, port) ← hostAndPort? authority
  return ⟨String.ofList host, port, String.ofList authority, String.ofList target⟩

-- ---------------------------------------------------------------------------
-- Requests
-- ---------------------------------------------------------------------------

def contentType : String := "application/json; charset=utf-8"

/-- The bytes of a request that posts a JSON text. -/
def postBytes (a : Address) (body : String) : Bytes :=
  let content := textBytes body
  let lines := [
    s!"POST {a.target} HTTP/1.1", s!"content-type: {contentType}", "accept: */*",
    s!"host: {a.authority}", s!"content-length: {content.length}", "connection: close", "", ""]
  textBytes ("\r\n".intercalate lines) ++ content

-- ---------------------------------------------------------------------------
-- Answers
-- ---------------------------------------------------------------------------

/-- What is read from the bytes that have arrived. -/
inductive Reading (α : Type) where
  | incomplete
  | malformed
  | whole (content : α)
  deriving DecidableEq, Repr

/-- The bytes before the first line break, and those behind it. -/
def firstLine : Bytes → Option (Bytes × Bytes)
  | 13 :: 10 :: rest => some ([], rest)
  | b :: rest => (firstLine rest).map fun (line, behind) => (b :: line, behind)
  | [] => none

theorem length_firstLine {b line rest : Bytes} (h : firstLine b = some (line, rest)) :
    rest.length < b.length := by
  fun_induction firstLine b generalizing line with
  | case1 rest' =>
    obtain ⟨-, rfl⟩ := Prod.mk.inj (Option.some.inj h)
    simp only [List.length_cons]
    omega
  | case2 b rest' _ ih =>
    obtain ⟨⟨line', rest''⟩, found, same⟩ := Option.map_eq_some_iff.1 h
    obtain ⟨-, rfl⟩ := Prod.mk.inj same
    exact Nat.lt_succ_of_lt (ih found)
  | case3 => cases h

/-- The lines before the first empty line, and the bytes behind that. -/
def headLines (b : Bytes) : Option (List Bytes × Bytes) :=
  match _read : firstLine b with
  | none => none
  | some ([], rest) => some ([], rest)
  | some (line, rest) => (headLines rest).map fun (lines, behind) => (line :: lines, behind)
termination_by b.length
decreasing_by exact length_firstLine _read

/-- Bytes as a text, one character a byte. -/
def plainText (b : Bytes) : List Char := b.map fun x => Char.ofNat x.toNat

def trim (text : List Char) : List Char :=
  let isBlank (c : Char) : Bool := c = ' ' || c = '\t'
  ((text.dropWhile isBlank).reverse.dropWhile isBlank).reverse

/-- The name of a header line in lower case, and its value. -/
def headerField (line : Bytes) : String × String :=
  let text := plainText line
  (String.ofList ((text.takeWhile (· != ':')).map Char.toLower),
    String.ofList (trim ((text.dropWhile (· != ':')).drop 1)))

def statusCode? (line : Bytes) : Option Nat :=
  match (String.ofList (plainText line)).splitOn " " with
  | version :: code :: _ =>
    if version = "HTTP/1.1" || version = "HTTP/1.0" then
      (Text.decimal? code.toList).filter fun n => 100 ≤ n && n ≤ 999
    else none
  | _ => none

def hexNumber? (digits : Bytes) : Option Nat :=
  if digits.isEmpty then none
  else digits.foldlM (fun n d => (Hex.value? d).map fun v => 16 * n + v) 0

/-- The body that a sequence of chunks carries. -/
def chunks (b : Bytes) : Reading Bytes :=
  match _read : firstLine b with
  | none => .incomplete
  | some (line, rest) =>
    match hexNumber? (line.takeWhile fun x => (Hex.value? x).isSome) with
    | none => .malformed
    | some 0 => if (headLines rest).isSome then .whole [] else .incomplete
    | some size =>
      if rest.length < size + 2 then .incomplete
      else if (rest.drop size).take 2 ≠ [13, 10] then .malformed
      else match chunks (rest.drop (size + 2)) with
        | .whole content => .whole (rest.take size ++ content)
        | other => other
termination_by b.length
decreasing_by
  have := length_firstLine _read
  simp only [List.length_drop]
  omega

/-- The body of an answer, by the header fields that delimit it. -/
def bodyOf (fields : List (String × String)) (ended : Bool) (b : Bytes) : Reading Bytes :=
  match fields.lookup "transfer-encoding", fields.lookup "content-length" with
  | some _, _ => chunks b
  | none, some announced =>
    match Text.decimal? announced.toList with
    | none => .malformed
    | some length => if b.length < length then .incomplete else .whole (b.take length)
  | none, none => if ended then .whole b else .incomplete

def unreachable (detail : String) : Except Error Bytes := .error (.hostUnreachable detail)

/-- What an answer comes to, if the bytes that have arrived decide it. Interim answers are
skipped. -/
def outcome? (ended : Bool) (b : Bytes) : Option (Except Error Bytes) :=
  let missing :=
    if ended then some (unreachable "connection closed before message completed") else none
  match _read : firstLine b with
  | none => missing
  | some (line, rest) =>
    match statusCode? line, headLines rest with
    | none, _ => some (unreachable "invalid HTTP response")
    | some _, none => missing
    | some code, some (lines, behind) =>
      if code < 200 then
        if _shorter : behind.length < b.length then outcome? ended behind else missing
      else if !isSuccess code then some (unreachable s!"HTTP status {statusText code}")
      else if code = 204 then some (.ok [])
      else match bodyOf (lines.map headerField) ended behind with
        | .whole content => some (.ok content)
        | .malformed => some (unreachable "invalid HTTP response body")
        | .incomplete => missing
termination_by b.length

end KeyInjection.Http

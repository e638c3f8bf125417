import MiniMs.Dpumesh.Descriptor
import MiniMs.Library.Text

/-!
The C side of the header text: the hand-written JSON encoder and the substring
scanner that reads it.

Owns: `snprintf` truncation, `serialize_header`, the splitting of a url into
path and query in `dpumesh_write`, `json_get_str`, `parse_case2_body`, and what
the scanner returns on a text whose entries are known.

A text given to the scanner is a C string: it stops before the first NUL. The
Python encoder and decoder are not owned here.
-/

namespace MiniMs.Dpumesh

open MiniMs.Library.Text

/-! ### Writing -/

/-- What `snprintf` leaves in a buffer of `size` bytes. -/
def snprintf (size : Nat) (text : Bytes) : Bytes := text.take (size - 1)

/-- `%u`. -/
def decimal (value : Nat) : Bytes :=
  (Nat.toDigits 10 value).map fun digit => UInt8.ofNat digit.toNat

/-- `%d`. -/
def decimalInt (value : Int) : Bytes :=
  if value < 0 then ascii "-" ++ decimal value.natAbs else decimal value.natAbs

/-- The text that `serialize_header` formats, before `snprintf` cuts it. -/
def headerText (method url path queryString : Bytes) (statusCode : Int)
    (reqIdStr sourceWorker destWorker : Bytes) : Bytes :=
  ascii "\x7b\"method\": \"" ++ method ++ ascii "\", \"url\": \"" ++ url ++
    ascii "\", \"path\": \"" ++ path ++
    ascii "\", \"headers\": \x7b\x7d, \"query_string\": \"" ++ queryString ++
    ascii "\", \"remote_addr\": \"\", \"status_code\": " ++ decimalInt statusCode ++
    ascii ", \"req_id_str\": \"" ++ reqIdStr ++
    ascii "\", \"source_worker\": \"" ++ sourceWorker ++
    ascii "\", \"dest_worker\": \"" ++ destWorker ++ ascii "\"\x7d"

/-- `sizeof(hdr_data)`, `sizeof(req_hdr_buf)` and `sizeof(header_json)`. -/
def headerBufSize : Nat := 4096

/-- The path and query that `dpumesh_write` cuts out of a url. The path goes
through `path_buf` only when there is a query. -/
def splitUrl (url : Bytes) : Bytes × Bytes :=
  let path :=
    match strstr url (ascii "://") with
    | none => ascii "/"
    | some found => (strchr (found.drop 3) 47).getD (ascii "/")
  match strchr path 63 with
  | none => (path, [])
  | some qmark => ((path.take (path.length - qmark.length)).take 255, snprintf 512 (qmark.drop 1))

/-- `"creq-%u"`. -/
def creqId (reqId : Nat) : Bytes := snprintf 32 (ascii "creq-" ++ decimal reqId)

/-! ### Reading -/

/-- The pattern `"key":` that both searches look for. -/
def keyPattern (key : Bytes) : Bytes := snprintf 128 (34 :: key ++ [34, 58])

/-- `json_get_str`: `none` is its -1, which leaves the caller's buffer alone. -/
def jsonGetStr (json key : Bytes) (outsz : Nat) : Option Bytes :=
  match strstr json (keyPattern key) with
  | none => none
  | some found =>
      match (found.drop (keyPattern key).length).dropWhile (· = 32) with
      | 34 :: value => some ((value.takeWhile (· ≠ 34)).take (outsz - 1))
      | _ => none

/-- The brace loop of `parse_case2_body`: what it walks over at a depth. -/
def matchBrace : Nat → Bytes → Bytes
  | 0, _ => []
  | _ + 1, [] => []
  | depth + 1, byte :: rest =>
      byte ::
        matchBrace (if byte = 123 then depth + 2 else if byte = 125 then depth else depth + 1) rest

/-- The string loop of `parse_case2_body`, with the byte before the cursor. At
the first byte that is the opening quote, so the test `i == 0` adds nothing. -/
def unescapeBody : UInt8 → Bytes → Bytes
  | _, [] => []
  | before, [byte] => if byte = 34 ∧ before ≠ 92 then [] else [byte]
  | before, byte :: next :: rest =>
      if byte = 34 ∧ before ≠ 92 then []
      else if byte = 92 ∧ next = 34 then 34 :: unescapeBody 34 rest
      else byte :: unescapeBody byte (next :: rest)

/-- The part of `parse_case2_body` that reads the body string. -/
def case2Body (combined : Bytes) (bodySz : Nat) : Bytes :=
  match strstr combined (ascii "\"body\":") with
  | none => []
  | some found =>
      match (found.drop 7).dropWhile (· = 32) with
      | 34 :: text => (unescapeBody 34 text).take (bodySz - 1)
      | _ => []

/-- `parse_case2_body`: the header text and the body, or -1 with neither
buffer written. -/
def parseCase2Body (combined : Bytes) (headerSz bodySz : Nat) : Option (Bytes × Bytes) :=
  match strstr combined (ascii "\"header\":") with
  | none => none
  | some found =>
      match (found.drop 9).dropWhile (· = 32) with
      | 123 :: rest => some ((123 :: matchBrace 1 rest).take (headerSz - 1), case2Body combined bodySz)
      | _ => none

/-! ### Bounds -/

theorem snprintf_eq_self {size : Nat} {text : Bytes} (fits : text.length < size) :
    snprintf size text = text := by
  unfold snprintf
  exact List.take_of_length_le (by omega)

theorem length_le_of_jsonGetStr {json key value : Bytes} {outsz : Nat}
    (found : jsonGetStr json key outsz = some value) : value.length ≤ outsz - 1 := by
  unfold jsonGetStr at found
  split at found
  · contradiction
  · split at found
    · have equal := Option.some.inj found
      rw [← equal]
      exact List.length_take_le _ _
    · contradiction

theorem length_jsonGetStr_getD {json key kept : Bytes} {outsz bound : Nat}
    (size : outsz ≤ bound) (short : kept.length < bound) :
    ((jsonGetStr json key outsz).getD kept).length < bound := by
  cases found : jsonGetStr json key outsz with
  | none => exact short
  | some value =>
      have le := length_le_of_jsonGetStr found
      have positive : 0 < bound := by omega
      show value.length < bound
      omega

end MiniMs.Dpumesh

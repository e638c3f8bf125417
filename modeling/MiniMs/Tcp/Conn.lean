import MiniMs.Http.Parse
import MiniMs.Service.Handlers

/-!
One connection of the TCP handler: its two buffers, and the five callbacks as
functions of the connection and of what the system call returned.

Owns: `conn_t`, `conn_start_response`, the request bytes of
`conn_start_upstream`, the callbacks `on_client_read_cb`, `on_client_write_cb`,
`on_upstream_connect_cb`, `on_upstream_write_cb` and `on_upstream_read_cb`, and
the replies that the handler makes on its own.

Which connections exist, and who points to whom, is left to the event loop. An
upstream handler is set.
-/

namespace MiniMs.Tcp

open MiniMs.Dpumesh MiniMs.Http MiniMs.Library.Text MiniMs.Service

/-- `BUF_SIZE`. -/
def bufSize : Nat := 8192

/-- `conn_t`, without its file descriptor, its event and its links: the bytes
read so far, the bytes in `wbuf`, `wlen` and `wpos`. -/
structure Conn where
  rbuf : Bytes := []
  wbuf : Bytes := []
  wlen : Nat := 0
  wpos : Nat := 0
deriving DecidableEq, Repr

/-- What `read` gives: some bytes, the end of the stream, `EAGAIN` or another
error. -/
inductive ReadResult where
  | data (bytes : Bytes)
  | closed
  | again
  | failed
deriving DecidableEq, Repr

/-- What `write` gives. -/
inductive WriteResult where
  | wrote (count : Nat)
  | again
  | failed
deriving DecidableEq, Repr

/-- What `read` can give: at least one byte, and at most the free part of
`rbuf`. Where no part is free it gives the end of the stream. -/
def Conn.Readable (conn : Conn) : ReadResult → Prop
  | .data bytes => bytes ≠ [] ∧ conn.rbuf.length + bytes.length < bufSize
  | .closed => True
  | .again => True
  | .failed => True

/-- What `write` can give: at most what is left. -/
def Conn.Writable (conn : Conn) : WriteResult → Prop
  | .wrote count => count ≤ conn.wlen - conn.wpos
  | .again => True
  | .failed => True

instance (conn : Conn) : (result : ReadResult) → Decidable (conn.Readable result)
  | .data bytes =>
      inferInstanceAs (Decidable (bytes ≠ [] ∧ conn.rbuf.length + bytes.length < bufSize))
  | .closed => .isTrue trivial
  | .again => .isTrue trivial
  | .failed => .isTrue trivial

instance (conn : Conn) : (result : WriteResult) → Decidable (conn.Writable result)
  | .wrote count => inferInstanceAs (Decidable (count ≤ conn.wlen - conn.wpos))
  | .again => .isTrue trivial
  | .failed => .isTrue trivial

/-! ### The replies of the handler itself -/

def badRequest : Reply := ⟨400, ascii "\x7b\"error\":\"bad request\"\x7d", 23⟩
def connectFailed : Reply := ⟨502, ascii "\x7b\"error\":\"upstream connect failed\"\x7d", 35⟩
def writeFailed : Reply := ⟨502, ascii "\x7b\"error\":\"upstream write failed\"\x7d", 33⟩
def readFailed : Reply := ⟨502, ascii "\x7b\"error\":\"upstream read failed\"\x7d", 32⟩
def upstreamClosed : Reply := ⟨502, ascii "\x7b\"error\":\"upstream closed\"\x7d", 27⟩
def badResponse : Reply := ⟨502, ascii "\x7b\"error\":\"upstream bad response\"\x7d", 33⟩

/-! ### Client connections -/

/-- `conn_start_response`. -/
def Conn.startResponse (conn : Conn) (reply : Reply) : Conn :=
  let text := httpFormatResponse reply.status reply.text reply.bodyLen
  { conn with wbuf := snprintf bufSize text, wlen := text.length, wpos := 0 }

/-- How `on_client_read_cb` ends: the conn is freed, waits for more, is sent a
reply, or its request is handed to the handler. -/
inductive ClientRead where
  | freed
  | waiting (conn : Conn)
  | replied (conn : Conn)
  | handed (conn : Conn) (req : HttpRequest)

/-- `on_client_read_cb`: `EAGAIN` is an error here. -/
def onClientRead (conn : Conn) : ReadResult → ClientRead
  | .data bytes =>
      let conn := { conn with rbuf := conn.rbuf ++ bytes }
      match httpParseRequest conn.rbuf with
      | .more => .waiting conn
      | .bad => .replied (conn.startResponse badRequest)
      | .complete req => .handed conn req
  | .closed => .freed
  | .again => .freed
  | .failed => .freed

/-- The bytes that a write puts on the wire. -/
def Conn.sent (conn : Conn) : WriteResult → Bytes
  | .wrote count => (conn.wbuf.drop conn.wpos).take count
  | .again => []
  | .failed => []

/-- `on_client_write_cb`; `none` is a freed conn. -/
def onClientWrite (conn : Conn) : WriteResult → Option Conn
  | .wrote count =>
      if conn.wlen ≤ conn.wpos + count then none
      else some { conn with wpos := conn.wpos + count }
  | .again => some conn
  | .failed => none

/-! ### Upstream connections -/

/-- The request that `conn_start_upstream` formats. -/
def upstreamRequest (method path host : Bytes) : Bytes :=
  method ++ ascii " " ++ path ++ ascii " HTTP/1.1\r\n" ++ ascii "Host: " ++ host ++ ascii "\r\n" ++
    ascii "Connection: close\r\n" ++ ascii "\r\n"

/-- The conn that `conn_start_upstream` makes. -/
def startUpstream (method path host : Bytes) : Conn :=
  let text := upstreamRequest method path host
  { wbuf := snprintf bufSize text, wlen := text.length }

/-- How a callback of an upstream conn ends: it goes on, now or with the next
stage; the client is sent a reply and the conn is freed; or the response is
handed to the upstream handler, and the conn is freed after it. -/
inductive Upstream where
  | waiting (conn : Conn)
  | advanced (conn : Conn)
  | replied (reply : Reply)
  | handed (resp : HttpResponse)

/-- `on_upstream_connect_cb`. -/
def onUpstreamConnect (conn : Conn) (connected : Bool) : Upstream :=
  if connected then .advanced conn else .replied connectFailed

/-- `on_upstream_write_cb`. -/
def onUpstreamWrite (conn : Conn) : WriteResult → Upstream
  | .wrote count =>
      let conn := { conn with wpos := conn.wpos + count }
      if conn.wlen ≤ conn.wpos then .advanced { conn with rbuf := [] } else .waiting conn
  | .again => .waiting conn
  | .failed => .replied writeFailed

/-- `on_upstream_read_cb`. -/
def onUpstreamRead (conn : Conn) : ReadResult → Upstream
  | .data bytes =>
      let conn := { conn with rbuf := conn.rbuf ++ bytes }
      match httpParseResponse conn.rbuf with
      | .more => .waiting conn
      | .bad => .replied badResponse
      | .complete resp => .handed resp
  | .closed =>
      match httpParseResponse conn.rbuf with
      | .complete resp => .handed resp
      | .more => .replied upstreamClosed
      | .bad => .replied upstreamClosed
  | .again => .waiting conn
  | .failed => .replied readFailed

/-! ### What a callback makes of its conn -/

@[simp] theorem startResponse_rbuf (conn : Conn) (reply : Reply) :
    (conn.startResponse reply).rbuf = conn.rbuf := rfl

@[simp] theorem startResponse_wpos (conn : Conn) (reply : Reply) :
    (conn.startResponse reply).wpos = 0 := rfl

theorem onClientRead_cases (conn : Conn) (result : ReadResult) :
    onClientRead conn result = .freed ∨
      ∃ bytes, result = .data bytes ∧
        (onClientRead conn result = .waiting { conn with rbuf := conn.rbuf ++ bytes } ∨
          ∃ req, onClientRead conn result = .handed { conn with rbuf := conn.rbuf ++ bytes } req) := by
  cases result with
  | data bytes =>
      right
      refine ⟨bytes, rfl, ?_⟩
      unfold onClientRead
      dsimp only
      cases parsed : httpParseRequest (conn.rbuf ++ bytes) with
      | more => exact Or.inl rfl
      | bad =>
          unfold httpParseRequest at parsed
          split at parsed
          · contradiction
          · dsimp only at parsed
            split at parsed
            · contradiction
            · contradiction
      | complete req => exact Or.inr ⟨req, rfl⟩
  | closed => exact Or.inl rfl
  | again => exact Or.inl rfl
  | failed => exact Or.inl rfl

end MiniMs.Tcp

import MiniMs.Http.Cutting
import MiniMs.Library.Run
import MiniMs.Tcp.Conn

/-!
One upstream conn of the TCP handler, from `conn_start_upstream` to
`conn_free`.

Owns: its three phases, the event that each of them waits for, how its life
ends, and the fact that it ends with a response exactly when the bytes that
were read are one.

The client conn behind it belongs to the event loop.
-/

namespace MiniMs.Tcp

open MiniMs.Dpumesh MiniMs.Http MiniMs.Library.Run MiniMs.Library.Text MiniMs.Service

/-! ### Phases -/

/-- Which callback the event of an upstream conn calls. -/
inductive Phase where
  | connecting
  | writing
  | reading
deriving DecidableEq, Repr

/-- An event of an upstream conn, with what the system call returns. -/
inductive UpstreamEvent where
  | connect (connected : Bool)
  | write (result : WriteResult)
  | read (result : ReadResult)
deriving DecidableEq, Repr

/-- An upstream conn that waits, one that was freed after a reply of the
handler, and one that was freed after the upstream handler was called. -/
inductive Exchange where
  | pending (phase : Phase) (conn : Conn)
  | replied (reply : Reply)
  | handed (resp : HttpResponse)
deriving DecidableEq, Repr

/-- What a callback leads to, with the phase in which the conn waits or goes on. -/
def Upstream.exchange (phase next : Phase) : Upstream → Exchange
  | .waiting conn => .pending phase conn
  | .advanced conn => .pending next conn
  | .replied reply => .replied reply
  | .handed resp => .handed resp

/-- One event. Only the one that the conn is registered for takes place. -/
def Exchange.step : Exchange → UpstreamEvent → Option Exchange
  | .pending .connecting conn, .connect connected =>
      some ((onUpstreamConnect conn connected).exchange .connecting .writing)
  | .pending .writing conn, .write result =>
      if conn.Writable result then some ((onUpstreamWrite conn result).exchange .writing .reading)
      else none
  | .pending .reading conn, .read result =>
      if conn.Readable result then some ((onUpstreamRead conn result).exchange .reading .reading)
      else none
  | _, _ => none

/-- The bytes that an event brings. -/
def UpstreamEvent.bytes : UpstreamEvent → Bytes
  | .read (.data bytes) => bytes
  | _ => []

/-- The bytes that were read. -/
def bytesRead (events : List UpstreamEvent) : Bytes := events.flatMap UpstreamEvent.bytes

/-! ### What the bytes say -/

/-- The bytes that were read are a complete response. -/
def Responds (bytes : Bytes) : Prop := ∃ resp, httpParseResponse bytes = .complete resp

/-- What holds of an exchange and the bytes that were read for it. -/
def ReadSoFar (bytes : Bytes) : Exchange → Prop
  | .pending .reading conn => conn.rbuf = bytes ∧ httpParseResponse bytes = .more
  | .pending _ _ => bytes = []
  | .replied _ => ¬ Responds bytes
  | .handed resp => httpParseResponse bytes = .complete resp

theorem httpParseResponse_nil : httpParseResponse [] = .more := rfl

theorem not_responds_of_more {bytes : Bytes} (more : httpParseResponse bytes = .more) :
    ¬ Responds bytes := by
  rintro ⟨resp, complete⟩
  rw [more] at complete
  contradiction

theorem readSoFar_read {conn : Conn} {bytes : Bytes} (more : httpParseResponse bytes = .more)
    (buffered : conn.rbuf = bytes) (result : ReadResult) :
    ReadSoFar (bytes ++ UpstreamEvent.bytes (.read result))
      ((onUpstreamRead conn result).exchange .reading .reading) := by
  have silent : ¬ Responds (bytes ++ []) := by
    rw [List.append_nil]
    exact not_responds_of_more more
  cases result with
  | data chunk =>
      show ReadSoFar (bytes ++ chunk) _
      unfold onUpstreamRead
      dsimp only
      rw [buffered]
      cases parsed : httpParseResponse (bytes ++ chunk) with
      | more => exact ⟨rfl, parsed⟩
      | bad =>
          rintro ⟨resp, complete⟩
          rw [parsed] at complete
          contradiction
      | complete resp => exact parsed
  | closed =>
      unfold onUpstreamRead
      dsimp only
      rw [buffered, more]
      exact silent
  | again =>
      show conn.rbuf = bytes ++ [] ∧ httpParseResponse (bytes ++ []) = .more
      rw [List.append_nil]
      exact ⟨buffered, more⟩
  | failed => exact silent

theorem readSoFar_step {bytes : Bytes} {exchange next : Exchange} {event : UpstreamEvent}
    (soFar : ReadSoFar bytes exchange) (taken : exchange.step event = some next) :
    ReadSoFar (bytes ++ event.bytes) next := by
  have silent : ∀ {bytes : Bytes}, bytes = [] → ¬ Responds (bytes ++ []) := by
    rintro _ rfl
    exact not_responds_of_more httpParseResponse_nil
  cases exchange with
  | pending phase conn =>
      cases phase with
      | connecting =>
          cases event with
          | connect connected =>
              have nothing : bytes = [] := soFar
              rw [← Option.some.inj taken]
              cases connected with
              | false => exact silent nothing
              | true =>
                  show bytes ++ [] = []
                  rw [List.append_nil, nothing]
          | write result => contradiction
          | read result => contradiction
      | writing =>
          cases event with
          | connect connected => contradiction
          | write result =>
              have nothing : bytes = [] := soFar
              unfold Exchange.step at taken
              dsimp only at taken
              split at taken
              · rw [← Option.some.inj taken]
                show ReadSoFar (bytes ++ []) _
                rw [List.append_nil]
                cases result with
                | wrote count =>
                    unfold onUpstreamWrite
                    dsimp only
                    split
                    · show ([] : Bytes) = bytes ∧ httpParseResponse bytes = .more
                      rw [nothing]
                      exact ⟨rfl, httpParseResponse_nil⟩
                    · exact nothing
                | again => exact nothing
                | failed =>
                    rw [nothing]
                    exact not_responds_of_more httpParseResponse_nil
              · contradiction
          | read result => contradiction
      | reading =>
          cases event with
          | connect connected => contradiction
          | write result => contradiction
          | read result =>
              obtain ⟨buffered, more⟩ := soFar
              unfold Exchange.step at taken
              dsimp only at taken
              split at taken
              · rw [← Option.some.inj taken]
                exact readSoFar_read more buffered result
              · contradiction
  | replied reply => contradiction
  | handed resp => contradiction

theorem readSoFar_run {bytes : Bytes} {exchange final : Exchange} {events : List UpstreamEvent}
    (soFar : ReadSoFar bytes exchange) (runs : run Exchange.step exchange events = some final) :
    ReadSoFar (bytes ++ bytesRead events) final := by
  induction events generalizing bytes exchange with
  | nil =>
      rw [← Option.some.inj runs]
      show ReadSoFar (bytes ++ []) exchange
      rw [List.append_nil]
      exact soFar
  | cons event rest inductionHypothesis =>
      obtain ⟨next, taken, runs⟩ := run_cons.mp runs
      have later := inductionHypothesis (readSoFar_step soFar taken) runs
      rw [List.append_assoc] at later
      exact later

/-- From its start on, an upstream conn ends with a response exactly when the
bytes that were read are one. -/
theorem readSoFar_of_run {conn : Conn} {final : Exchange} {events : List UpstreamEvent}
    (runs : run Exchange.step (.pending .connecting conn) events = some final) :
    ReadSoFar (bytesRead events) final :=
  readSoFar_run (show ReadSoFar [] (.pending .connecting conn) from rfl) runs

end MiniMs.Tcp

import MiniMs.Library.Run
import MiniMs.Tcp.Conn

/-!
The transfer of one response over TCP: partial writes on one side, partial
reads on the other.

Owns: the runs of `on_client_write_cb` over what `write` returns, the runs of
`on_upstream_read_cb` over what `read` returns, and the theorem that the text
goes out once and comes in once, however it is cut.

The formatter and the parser belong to the HTTP modules.
-/

namespace MiniMs.Tcp

open MiniMs.Dpumesh MiniMs.Http MiniMs.Library.Run MiniMs.Library.Text MiniMs.Service

/-! ### Pieces -/

/-- A text cut into pieces; `none` is an `EAGAIN` between two of them. -/
abbrev Pieces := List (Option Bytes)

/-- The text that the pieces make up. -/
def Pieces.text (pieces : Pieces) : Bytes := pieces.reduceOption.flatten

/-- No piece is empty. -/
def Pieces.Solid (pieces : Pieces) : Prop := some [] ∉ pieces

/-- The results of the writes that take these pieces. -/
def Pieces.writes (pieces : Pieces) : List WriteResult :=
  pieces.map fun piece => piece.elim .again fun bytes => .wrote bytes.length

/-- The results of the reads that bring these pieces. -/
def Pieces.reads (pieces : Pieces) : List ReadResult :=
  pieces.map fun piece => piece.elim .again .data

theorem text_again (pieces : Pieces) : Pieces.text (none :: pieces) = pieces.text := rfl

theorem text_piece (bytes : Bytes) (pieces : Pieces) :
    Pieces.text (some bytes :: pieces) = bytes ++ pieces.text := rfl

theorem solid_cons {piece : Option Bytes} {pieces : Pieces}
    (solid : Pieces.Solid (piece :: pieces)) : piece ≠ some [] ∧ pieces.Solid := by
  unfold Pieces.Solid at solid ⊢
  rw [List.mem_cons, not_or] at solid
  exact ⟨Ne.symm solid.1, solid.2⟩

/-! ### The writer -/

/-- A writing conn, `none` when it is freed, and the bytes that are out. -/
structure Writer where
  conn : Option Conn
  wire : Bytes

/-- A write event. A freed conn has no events. -/
def Writer.step (writer : Writer) (result : WriteResult) : Option Writer :=
  match writer.conn with
  | none => none
  | some conn =>
      if conn.Writable result then
        some ⟨onClientWrite conn result, writer.wire ++ conn.sent result⟩
      else none

/-- The conn after `conn_start_response`. -/
def Writer.start (conn : Conn) (reply : Reply) : Writer := ⟨some (conn.startResponse reply), []⟩

/-- What holds between two writes: the bytes out are those before the
position, and there are more. -/
def Writing (text : Bytes) (writer : Writer) : Prop :=
  match writer.conn with
  | none => writer.wire = text
  | some conn => conn.wbuf = text ∧ conn.wlen = text.length ∧ conn.wpos < text.length ∧
      writer.wire = text.take conn.wpos

theorem Writing.step {text : Bytes} {writer next : Writer} {result : WriteResult}
    (writing : Writing text writer) (live : result ≠ .failed)
    (taken : writer.step result = some next) : Writing text next := by
  obtain ⟨conn, wire⟩ := writer
  cases conn with
  | none => contradiction
  | some conn =>
      obtain ⟨wbuf, wlen, unfinished, out⟩ := writing
      dsimp only at wbuf wlen unfinished out
      cases result with
      | wrote count =>
          unfold Writer.step at taken
          dsimp only at taken
          split at taken
          · rename_i fits
            rw [← Option.some.inj taken]
            have more : wire ++ conn.sent (.wrote count) = text.take (conn.wpos + count) := by
              rw [out, List.take_add, ← wbuf]
              rfl
            rw [more]
            by_cases done : conn.wlen ≤ conn.wpos + count
            · have freed : onClientWrite conn (.wrote count) = none := if_pos done
              rw [freed]
              exact List.take_of_length_le (by omega)
            · have kept : onClientWrite conn (.wrote count) =
                  some { conn with wpos := conn.wpos + count } := if_neg done
              rw [kept]
              refine ⟨wbuf, wlen, ?_, rfl⟩
              show conn.wpos + count < text.length
              omega
          · contradiction
      | again =>
          rw [← Option.some.inj taken]
          refine ⟨wbuf, wlen, unfinished, ?_⟩
          show wire ++ [] = _
          rw [List.append_nil, out]
      | failed => exact absurd rfl live

/-- The conn is freed exactly when everything is out. -/
theorem Writing.freed_iff {text : Bytes} {writer : Writer} (writing : Writing text writer) :
    writer.wire <+: text ∧ (writer.conn = none ↔ writer.wire = text) := by
  obtain ⟨conn, wire⟩ := writer
  cases conn with
  | none =>
      have whole : wire = text := writing
      rw [whole]
      exact ⟨List.prefix_refl _, by simp⟩
  | some conn =>
      obtain ⟨-, -, unfinished, out⟩ := writing
      dsimp only at out unfinished ⊢
      rw [out]
      refine ⟨List.take_prefix _ _, ?_⟩
      have length := List.length_take (i := conn.wpos) (l := text)
      constructor
      · intro freed
        contradiction
      · intro whole
        rw [whole] at length
        omega

theorem Writing.run {text : Bytes} {writer final : Writer} {events : List WriteResult}
    (writing : Writing text writer) (live : WriteResult.failed ∉ events)
    (runs : run Writer.step writer events = some final) : Writing text final := by
  induction events generalizing writer with
  | nil =>
      rw [← Option.some.inj runs]
      exact writing
  | cons event rest inductionHypothesis =>
      rw [List.mem_cons, not_or] at live
      obtain ⟨next, taken, runs⟩ := run_cons.mp runs
      exact inductionHypothesis (writing.step (Ne.symm live.1) taken) live.2 runs

/-- Every cutting of what is left is a run, and frees the conn. -/
theorem run_writes {text rest : Bytes} {conn : Conn} {wire : Bytes} {pieces : Pieces} {last : Bytes}
    (writing : Writing text ⟨some conn, wire⟩) (left : wire ++ rest = text)
    (nonempty : last ≠ []) (cut : pieces.text ++ last = rest) :
    run Writer.step ⟨some conn, wire⟩ (pieces.writes ++ [.wrote last.length]) =
      some ⟨none, text⟩ := by
  have sizes : ∀ {conn : Conn} {wire rest : Bytes}, Writing text ⟨some conn, wire⟩ →
      wire ++ rest = text → conn.wlen - conn.wpos = rest.length := by
    rintro conn wire rest ⟨-, wlen, unfinished, out⟩ left
    dsimp only at out unfinished wlen
    have length := congrArg List.length left
    rw [out, List.length_append, List.length_take] at length
    omega
  have positive := List.length_pos_of_ne_nil nonempty
  induction pieces generalizing conn wire rest with
  | nil =>
      have whole : last = rest := cut
      have size := sizes writing left
      have fits : last.length ≤ conn.wlen - conn.wpos := by
        rw [size, whole]
      have taken : Writer.step ⟨some conn, wire⟩ (.wrote last.length) =
          some ⟨onClientWrite conn (.wrote last.length), wire ++ conn.sent (.wrote last.length)⟩ :=
        if_pos fits
      have done : onClientWrite conn (.wrote last.length) = none := by
        apply if_pos
        rw [whole, ← size]
        omega
      have kept := writing.step (by simp) taken
      rw [done] at taken kept
      have wire' : wire ++ conn.sent (.wrote last.length) = text := kept
      show (Writer.step ⟨some conn, wire⟩ (.wrote last.length)).bind _ = _
      rw [taken, wire']
      rfl
  | cons piece pieces inductionHypothesis =>
      cases piece with
      | none =>
          have taken : Writer.step ⟨some conn, wire⟩ .again = some ⟨some conn, wire ++ []⟩ := rfl
          show (Writer.step ⟨some conn, wire⟩ .again).bind _ = _
          rw [taken, List.append_nil]
          exact inductionHypothesis writing left cut
      | some bytes =>
          have size := sizes writing left
          rw [text_piece, List.append_assoc] at cut
          have length := congrArg List.length cut
          rw [List.length_append, List.length_append] at length
          have fits : bytes.length ≤ conn.wlen - conn.wpos := by omega
          have taken : Writer.step ⟨some conn, wire⟩ (.wrote bytes.length) =
              some ⟨onClientWrite conn (.wrote bytes.length),
                wire ++ conn.sent (.wrote bytes.length)⟩ := if_pos fits
          have unfinished : onClientWrite conn (.wrote bytes.length) =
              some { conn with wpos := conn.wpos + bytes.length } := by
            apply if_neg
            omega
          have sent : conn.sent (.wrote bytes.length) = bytes := by
            obtain ⟨wbuf, -, inside, out⟩ := writing
            dsimp only at wbuf inside out
            have wireLength : wire.length = conn.wpos := by
              rw [out, List.length_take]
              omega
            show (conn.wbuf.drop conn.wpos).take bytes.length = bytes
            rw [wbuf, ← left, ← wireLength, List.drop_left, ← cut, List.take_left]
          have kept := writing.step (by simp) taken
          rw [unfinished, sent] at taken kept
          show (Writer.step ⟨some conn, wire⟩ (.wrote bytes.length)).bind _ = _
          rw [taken]
          have left' : wire ++ bytes ++ (Pieces.text pieces ++ last) = text := by
            rw [List.append_assoc, cut, left]
          exact inductionHypothesis kept left' rfl

/-! ### The reader -/

/-- An upstream conn that is read, `none` when it is freed, the responses that
were handed to the upstream handler, and the handler's own replies. -/
structure Reader where
  conn : Option Conn
  handed : List HttpResponse
  replied : List Reply

/-- A read event. -/
def Reader.step (reader : Reader) (result : ReadResult) : Option Reader :=
  match reader.conn with
  | none => none
  | some conn =>
      if conn.Readable result then
        match onUpstreamRead conn result with
        | .waiting conn => some { reader with conn := some conn }
        | .advanced conn => some { reader with conn := some conn }
        | .replied reply => some ⟨none, reader.handed, reader.replied ++ [reply]⟩
        | .handed resp => some ⟨none, reader.handed ++ [resp], reader.replied⟩
      else none

/-- The conn when `on_upstream_write_cb` has written the request. -/
def Reader.start (conn : Conn) : Reader := ⟨some { conn with rbuf := [] }, [], []⟩

/-- As long as the text is not there as a whole, nothing is handed over. -/
theorem run_reads {response : ResponseText} (fits : response.text.length < bufSize) {conn : Conn}
    {pieces : Pieces} (solid : pieces.Solid) (begins : conn.rbuf ++ pieces.text <+: response.text)
    (proper : conn.rbuf ++ pieces.text ≠ response.text) :
    run Reader.step ⟨some conn, [], []⟩ pieces.reads =
      some ⟨some { conn with rbuf := conn.rbuf ++ pieces.text }, [], []⟩ := by
  induction pieces generalizing conn with
  | nil =>
      show some _ = some _
      have same : conn.rbuf ++ Pieces.text [] = conn.rbuf := List.append_nil _
      rw [same]
  | cons piece pieces inductionHypothesis =>
      obtain ⟨nonempty, solidRest⟩ := solid_cons solid
      cases piece with
      | none => exact inductionHypothesis solidRest begins proper
      | some bytes =>
          rw [text_piece, ← List.append_assoc] at begins proper ⊢
          have early : conn.rbuf ++ bytes <+: response.text := (List.prefix_append _ _).trans begins
          have short : (conn.rbuf ++ bytes).length < response.text.length := by
            by_contra long
            apply proper
            apply begins.eq_of_length_le
            rw [List.length_append]
            omega
          have unfinished : conn.rbuf ++ bytes ≠ response.text := by
            intro whole
            rw [whole] at short
            omega
          have room : conn.Readable (.data bytes) := by
            rw [List.length_append] at short
            exact ⟨fun empty => nonempty (by rw [empty]), by omega⟩
          have waits : onUpstreamRead conn (.data bytes) =
              .waiting { conn with rbuf := conn.rbuf ++ bytes } := by
            unfold onUpstreamRead
            dsimp only
            rw [response.httpParseResponse_front early unfinished]
          have taken : Reader.step ⟨some conn, [], []⟩ (.data bytes) =
              some ⟨some { conn with rbuf := conn.rbuf ++ bytes }, [], []⟩ := by
            unfold Reader.step
            dsimp only
            rw [if_pos room, waits]
          show (Reader.step ⟨some conn, [], []⟩ (.data bytes)).bind _ = _
          rw [taken]
          exact inductionHypothesis solidRest begins proper

/-- With the last byte the response is handed over, and the conn is freed. -/
theorem run_reads_whole {response : ResponseText} (fits : response.text.length < bufSize)
    {conn : Conn} {pieces : Pieces} {last : Bytes} (solid : pieces.Solid) (nonempty : last ≠ [])
    (cut : conn.rbuf ++ pieces.text ++ last = response.text) :
    run Reader.step ⟨some conn, [], []⟩ (pieces.reads ++ [.data last]) =
      some ⟨none, [⟨response.status, response.body, response.body.length⟩], []⟩ := by
  have positive := List.length_pos_of_ne_nil nonempty
  have length := congrArg List.length cut
  rw [List.length_append] at length
  have proper : conn.rbuf ++ pieces.text ≠ response.text := by
    intro whole
    rw [whole] at length
    omega
  have before := run_reads fits solid ⟨last, cut⟩ proper
  have room : Conn.Readable { conn with rbuf := conn.rbuf ++ pieces.text } (.data last) :=
    ⟨nonempty, show (conn.rbuf ++ pieces.text).length + last.length < bufSize by omega⟩
  have handed : onUpstreamRead { conn with rbuf := conn.rbuf ++ pieces.text } (.data last) =
      .handed ⟨response.status, response.body, response.body.length⟩ := by
    unfold onUpstreamRead
    dsimp only
    rw [cut, response.httpParseResponse_text]
  refine run_append.mpr ⟨_, before, ?_⟩
  refine run_cons.mpr ⟨_, ?_, rfl⟩
  unfold Reader.step
  dsimp only
  rw [if_pos room, handed]
  rfl

/-! ### Both sides -/

/-- A formatted response fits `wbuf` and `rbuf`. -/
theorem length_formattedResponse_lt {status : Int} {body : Bytes} (low : -(2 ^ 31) ≤ status)
    (high : status < 2 ^ 31) (fits : body.length < bodyBufSize) :
    0 < (httpFormatResponse status body body.length).length ∧
      (httpFormatResponse status body body.length).length < bufSize - 1 := by
  have head := length_responseHead_le low high fits
  have opening : (ascii "HTTP/1.1 ").length = 9 := by decide
  have positive : 0 < (responseHead status body.length).length := by
    unfold responseHead
    simp only [List.length_append, opening]
    omega
  have copied : (cstr (body.take body.length)).length ≤ body.length := by
    rw [List.take_length]
    exact (List.takeWhile_prefix _).length_le
  unfold bodyBufSize at fits
  unfold httpFormatResponse bufSize
  rw [List.length_append]
  omega

/-- The conn is freed with the last byte of the text and not before, and every
cutting of the text comes to its end. -/
structure SentOnce (text : Bytes) (writer : Writer) : Prop where
  partly : ∀ events final, WriteResult.failed ∉ events → run Writer.step writer events = some final →
    final.wire <+: text ∧ (final.conn = none ↔ final.wire = text)
  wholly : ∀ (pieces : Pieces) (last : Bytes), last ≠ [] → pieces.text ++ last = text →
    run Writer.step writer (pieces.writes ++ [.wrote last.length]) = some ⟨none, text⟩

/-- The upstream handler is called with the last byte of the text and not
before, and the conn is freed after it. -/
structure HandedOnce (text : Bytes) (resp : HttpResponse) (reader : Reader) : Prop where
  partly : ∀ pieces : Pieces, pieces.Solid → pieces.text <+: text → pieces.text ≠ text →
    ∃ conn, run Reader.step reader pieces.reads = some ⟨some conn, [], []⟩
  wholly : ∀ (pieces : Pieces) (last : Bytes), pieces.Solid → last ≠ [] →
    pieces.text ++ last = text →
    run Reader.step reader (pieces.reads ++ [.data last]) = some ⟨none, [resp], []⟩

theorem sentOnce_start {text : Bytes} (positive : 0 < text.length) (fits : text.length < bufSize)
    {conn : Conn} {reply : Reply} (formatted : httpFormatResponse reply.status reply.text reply.bodyLen = text) :
    SentOnce text (Writer.start conn reply) := by
  have whole : snprintf bufSize text = text := List.take_of_length_le (by omega)
  have writing : Writing text (Writer.start conn reply) := by
    unfold Writer.start Conn.startResponse Writing
    rw [formatted]
    exact ⟨whole, rfl, positive, rfl⟩
  constructor
  · intro events final live runs
    exact (writing.run live runs).freed_iff
  · intro pieces last nonempty cut
    exact run_writes writing rfl nonempty cut

theorem handedOnce_start {response : ResponseText} (fits : response.text.length < bufSize)
    (conn : Conn) : HandedOnce response.text
      ⟨response.status, response.body, response.body.length⟩ (Reader.start conn) := by
  constructor
  · intro pieces solid begins proper
    exact ⟨_, run_reads fits solid begins proper⟩
  · intro pieces last solid nonempty cut
    exact run_reads_whole fits solid nonempty cut

/-- However the bytes of a formatted response are cut, they go out once, and
they come in as the same status and body once. -/
theorem response_transferred {status : Int} (low : -(2 ^ 31) ≤ status) (high : status < 2 ^ 31)
    {body : Bytes} (fits : body.length ≤ 4095) (clean : 0 ∉ body) (client upstream : Conn) :
    SentOnce (httpFormatResponse status body body.length)
        (Writer.start client ⟨status, body, body.length⟩) ∧
      HandedOnce (httpFormatResponse status body body.length) ⟨status, body, body.length⟩
        (Reader.start upstream) := by
  have fits' : body.length < bodyBufSize := by
    unfold bodyBufSize
    omega
  obtain ⟨positive, small⟩ := length_formattedResponse_lt low high fits'
  constructor
  · exact sentOnce_start positive (by omega) rfl
  · rw [httpFormatResponse_eq low high fits' clean] at small ⊢
    exact handedOnce_start (by omega) upstream

theorem response_transferred_found :
    SentOnce (httpFormatResponse 200 (ascii "\x7b\"id\":7\x7d") 8)
        (Writer.start {} ⟨200, ascii "\x7b\"id\":7\x7d", 8⟩) ∧
      HandedOnce (httpFormatResponse 200 (ascii "\x7b\"id\":7\x7d") 8)
        ⟨200, ascii "\x7b\"id\":7\x7d", 8⟩ (Reader.start {}) :=
  response_transferred (by decide) (by decide) (by decide) (by decide) {} {}

end MiniMs.Tcp

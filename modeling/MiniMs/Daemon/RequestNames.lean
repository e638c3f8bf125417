import MiniMs.Daemon.LocalHeader
import MiniMs.Daemon.RoutingMetadata

/-!
The two texts that a callee keeps of a request of another worker: the request id
and the worker's name, as `dpumesh_write` puts them behind the url.

Owns: the header of a request, cut open at the two fields, the condition on a
method and a url under which no earlier text is taken for one of them, and what
the callee's scanner reads then.
-/

namespace MiniMs.Daemon

open MiniMs.Dpumesh MiniMs.Library.Text MiniMs.Library.Json

/-! ### The header of a request -/

/-- The fields that depend on the method and the url, and two that do not. -/
def callFields (method url : Bytes) : List Field :=
  [⟨ascii "method", inQuotes method⟩, ⟨ascii "url", inQuotes url⟩,
    ⟨ascii "path", inQuotes (splitUrl url).1⟩, ⟨ascii "headers", ascii "\x7b\x7d"⟩,
    ⟨ascii "query_string", inQuotes (splitUrl url).2⟩, ⟨ascii "remote_addr", inQuotes []⟩,
    ⟨ascii "status_code", decimalInt 0⟩]

/-- The header up to the comma in front of the request id. -/
def callText (method url : Bytes) : Bytes := 123 :: frontText (callFields method url)

/-- The field of the request id. -/
def reqIdField (worker : Worker) : Field := ⟨ascii "req_id_str", inQuotes (creqId worker.nextReqId)⟩

/-- The header up to the end of the worker's name. -/
def namedText (worker : Worker) (method url : Bytes) : Bytes :=
  callText method url ++ ((reqIdField worker).text ++ [44, 32]) ++
    (keyPattern (ascii "source_worker") ++ [32, 34]) ++ worker.workerId

/-- The header of a request names its sender to the callee: neither of the two
keys occurs in front of its own field, no text has a NUL, and what the callee
copies reaches to the end of the name. -/
structure Naming (worker : Worker) (method url : Bytes) : Prop where
  reqIdStr : ¬ keyPattern (ascii "req_id_str") <:+: callText method url
  sourceWorker : ¬ keyPattern (ascii "source_worker") <:+: callText method url
  noNul : 0 ∉ callText method url
  short : (namedText worker method url).length < headerBufSize

/-- What the callee has of a header in its buffer. -/
def copiedHeader (header : Bytes) : Bytes := header.take (headerBufSize - 1)

theorem callText_eq (method url : Bytes) :
    ∃ fields, callText method url = fields ++ [44, 32] := by
  refine ⟨123 :: (frontText ((callFields method url).take 6) ++
    (⟨ascii "status_code", decimalInt 0⟩ : Field).text), ?_⟩
  simp [callText, callFields, frontText]

theorem writeRequest_header (worker : Worker) (method url : Bytes) :
    (writeRequest worker method url).2.header =
      rowText (callFields method url) (reqIdField worker)
        [⟨ascii "source_worker", inQuotes worker.workerId⟩, ⟨ascii "dest_worker", inQuotes []⟩] := by
  unfold writeRequest
  dsimp only
  rw [headerText_eq]
  exact rowText_focus [] ⟨ascii "method", inQuotes method⟩ ((callFields method url).drop 1) _ _

/-! ### What the callee reads -/

section Reading

variable {worker : Worker} {method url : Bytes}

variable (worker method url) in
/-- The header, cut open at the request id. -/
theorem header_at_reqIdStr :
    ∃ rest, (writeRequest worker method url).2.header =
      callText method url ++ (keyPattern (ascii "req_id_str") ++ 32 :: 34 ::
        (creqId worker.nextReqId ++ 34 :: rest)) := by
  rw [writeRequest_header]
  refine ⟨tailText [⟨ascii "source_worker", inQuotes worker.workerId⟩,
    ⟨ascii "dest_worker", inQuotes []⟩], ?_⟩
  have pattern : keyPattern (ascii "req_id_str") = 34 :: (ascii "req_id_str" ++ [34, 58]) := by decide
  rw [pattern]
  simp [rowText, callText, reqIdField, Field.text, inQuotes]

variable (worker method url) in
/-- The header, cut open at the worker's name. -/
theorem header_at_sourceWorker :
    ∃ rest, (writeRequest worker method url).2.header =
      callText method url ++ ((reqIdField worker).text ++ [44, 32]) ++
        (keyPattern (ascii "source_worker") ++ 32 :: 34 :: (worker.workerId ++ 34 :: rest)) := by
  rw [writeRequest_header]
  refine ⟨tailText [⟨ascii "dest_worker", inQuotes []⟩], ?_⟩
  have pattern : keyPattern (ascii "source_worker") =
      34 :: (ascii "source_worker" ++ [34, 58]) := by decide
  rw [pattern]
  simp [rowText, callText, Field.text, inQuotes, tailText]

/-- The callee reads the id that `dpumesh_write` gave to the request. -/
theorem Naming.reqIdStr_read (naming : Naming worker method url) :
    jsonGetStr (copiedHeader (writeRequest worker method url).2.header) (ascii "req_id_str") 64 =
      some (creqId worker.nextReqId) := by
  obtain ⟨rest, shape⟩ := header_at_reqIdStr worker method url
  obtain ⟨fields, split⟩ := callText_eq method url
  have absent := naming.reqIdStr
  have short := naming.short
  have quotes : 34 ∉ creqId worker.nextReqId :=
    (cleanBytes_creqId _).notMem (Or.inr (Or.inl rfl))
  have value : (creqId worker.nextReqId ++ 34 :: rest).takeWhile (· ≠ 34) =
      creqId worker.nextReqId := by
    rw [takeWhile_append_quote, List.takeWhile_eq_self_iff]
    intro byte member
    simpa using ne_of_mem_of_not_mem member quotes
  have brief : (creqId worker.nextReqId).length ≤ 31 := List.length_take_le _ _
  have pattern : (keyPattern (ascii "req_id_str")).length = 13 := by decide
  have blank : 32 ∉ keyPattern (ascii "req_id_str") := by decide
  rw [split] at absent
  have first := not_startsIn_fields blank absent
    (keyPattern (ascii "req_id_str") ++ 32 :: 34 :: (creqId worker.nextReqId ++ 34 :: rest))
  rw [← split] at first
  have read := jsonGetStr_field first (headerBufSize - 1) 64
  have room : (callText method url).length + (creqId worker.nextReqId).length + 16 + 2 ≤
      (namedText worker method url).length := by
    have key : (ascii "req_id_str").length = 10 := by decide
    simp only [namedText, reqIdField, Field.text, inQuotes, List.length_append, List.length_cons,
      List.length_nil, key]
    omega
  unfold copiedHeader
  rw [shape, read, value, pattern, if_pos (by omega), List.take_of_length_le (by omega)]

/-- The callee reads the name of the worker that sends the request. -/
theorem Naming.sourceWorker_read (naming : Naming worker method url)
    (plain : 34 ∉ worker.workerId) (fits : worker.workerId.length < 128) :
    jsonGetStr (copiedHeader (writeRequest worker method url).2.header) (ascii "source_worker") 128 =
      some worker.workerId := by
  obtain ⟨rest, shape⟩ := header_at_sourceWorker worker method url
  obtain ⟨fields, split⟩ := callText_eq method url
  have absent := naming.sourceWorker
  have short := naming.short
  have value : (worker.workerId ++ 34 :: rest).takeWhile (· ≠ 34) = worker.workerId := by
    rw [takeWhile_append_quote, List.takeWhile_eq_self_iff]
    intro byte member
    simpa using ne_of_mem_of_not_mem member plain
  have quotes : 34 ∉ creqId worker.nextReqId :=
    (cleanBytes_creqId _).notMem (Or.inr (Or.inl rfl))
  have key : 34 ∉ ascii "req_id_str" := by decide
  have field : (reqIdField worker).Plain := ⟨key, Or.inr ⟨_, rfl, quotes⟩⟩
  have searched : Searched (ascii "source_worker") :=
    searched_of_letter (by decide) (by decide) (by decide)
  have other : ascii "source_worker" ≠ (reqIdField worker).key := by
    show ascii "source_worker" ≠ ascii "req_id_str"
    decide
  have first : ¬ StartsIn (keyPattern (ascii "source_worker"))
      (callText method url ++ ((reqIdField worker).text ++ [44, 32]))
      (keyPattern (ascii "source_worker") ++ 32 :: 34 :: (worker.workerId ++ 34 :: rest)) := by
    rw [startsIn_append, not_or]
    refine ⟨?_, not_startsIn_field searched field other _⟩
    rw [split] at absent ⊢
    exact not_startsIn_fields (by decide) absent _
  have read := jsonGetStr_field first (headerBufSize - 1) 128
  have room : (callText method url ++ ((reqIdField worker).text ++ [44, 32])).length +
      (keyPattern (ascii "source_worker")).length + 2 + worker.workerId.length =
        (namedText worker method url).length := by
    unfold namedText
    simp only [List.length_append, List.length_cons, List.length_nil]
    omega
  unfold copiedHeader
  rw [shape, read, value, if_pos (by omega), List.take_of_length_le (by omega)]

/-- No NUL ends the header early, as far as the callee has it. -/
theorem Naming.cstr_copiedHeader (naming : Naming worker method url)
    (workerId : 0 ∉ worker.workerId) :
    cstr (copiedHeader (writeRequest worker method url).2.header) =
      copiedHeader (writeRequest worker method url).2.header := by
  apply cstr_eq_self
  intro member
  have inside := List.mem_of_mem_take member
  have creq : 0 ∉ creqId worker.nextReqId := (cleanBytes_creqId _).notMem (Or.inl (by decide))
  have clean := naming.noNul
  have key : 0 ∉ ascii "req_id_str" ∧ 0 ∉ ascii "source_worker" ∧ 0 ∉ ascii "dest_worker" := by decide
  rw [writeRequest_header] at inside
  unfold callText at clean
  simp [rowText, tailText, Field.text, inQuotes, reqIdField, creq, workerId, key] at inside
  simp [inside] at clean

end Reading

end MiniMs.Daemon

import MiniMs.Daemon.Bridge
import MiniMs.Daemon.Descriptors
import MiniMs.Dpumesh.Callee
import MiniMs.Dpumesh.Scanner

/-!
The combined text of a bridge request, from the bridge to `dpumesh_read`.

Owns: the parts of the text in their order, the header text that
`parse_case2_body` cuts out of it and where it ends, and what `dpumesh_read`
makes of a slot that holds the text.

Which texts come through unharmed is left to the modules about single fields.
-/

namespace MiniMs.Daemon

open MiniMs.Dpumesh MiniMs.Library.Text MiniMs.Library.Json

/-! ### The parts of the text -/

/-- The header object of a bridge request. -/
def headerMembers (env : BridgeEnv) (client : List (PyStr × Value)) (url : Value) (worker : PyStr)
    (uuid : Uuid) : List (PyStr × Value) :=
  clientFields env client url ++ routingFields (ofAscii uuid.text) [] worker

/-- The combined text behind `{"header": `. -/
def headerAndBody (env : BridgeEnv) (client : List (PyStr × Value)) (url : Value) (worker : PyStr)
    (uuid : Uuid) : Bytes :=
  dumps (.object (headerMembers env client url worker uuid)) ++
    (ascii ", \"body\": " ++ dumps (get client (lit "body") (.string [])) ++ ascii "\x7d")

theorem combined_eq (env : BridgeEnv) (client : List (PyStr × Value)) (url : Value)
    (worker : PyStr) (uuid : Uuid) :
    combined env client url worker uuid =
      ascii "\x7b\"header\": " ++ headerAndBody env client url worker uuid := by
  have opening : ascii "\x7b" ++ quoted (lit "header") ++ ascii ": " =
      ascii "\x7b\"header\": " := by decide
  have body : ascii ", " ++ quoted (lit "body") ++ ascii ": " = ascii ", \"body\": " := by decide
  unfold combined headerAndBody headerMembers
  rw [dumps, opening, dumpsMembers, body, dumpsMembers]
  simp only [List.append_assoc, List.append_nil]

/-- A uuid is made of hexadecimal digits and hyphens. -/
theorem Uuid.mem_text (uuid : Uuid) {byte : UInt8} (member : byte ∈ uuid.text) :
    byte ∈ ascii "0123456789abcdef-" := by
  obtain ⟨index, below, rfl⟩ := List.getElem_of_mem member
  have shapeBelow : index < uuidShape.length := by
    rw [← uuid.length]
    exact below
  have pair : (uuidShape[index], uuid.text[index]) ∈ uuidShape.zip uuid.text := by
    rw [List.mem_iff_getElem]
    exact ⟨index, by simpa using ⟨shapeBelow, below⟩, by simp⟩
  have fits := uuid.fits _ pair
  have shapes : ∀ shape ∈ uuidShape, shape = 120 ∨ shape = 121 ∨ shape = 45 ∨ shape = 52 :=
    forall_mem_of_all (by decide)
  dsimp only at fits
  unfold fitsShape at fits
  rcases shapes _ (List.getElem_mem shapeBelow) with hex | variant | hyphen | version
  · rw [if_pos hex] at fits
    have digits : ∀ byte ∈ ascii "0123456789abcdef", byte ∈ ascii "0123456789abcdef-" :=
      forall_mem_of_all (by decide)
    exact digits _ (by simpa using fits)
  · rw [if_neg (by rw [variant]; decide), if_pos variant] at fits
    have digits : ∀ byte ∈ ascii "89ab", byte ∈ ascii "0123456789abcdef-" :=
      forall_mem_of_all (by decide)
    exact digits _ (by simpa using fits)
  · rw [if_neg (by rw [hyphen]; decide), if_neg (by rw [hyphen]; decide), hyphen] at fits
    rw [of_decide_eq_true fits]
    decide
  · rw [if_neg (by rw [version]; decide), if_neg (by rw [version]; decide), version] at fits
    rw [of_decide_eq_true fits]
    decide

/-- A text of unescaped ASCII characters is its own JSON text. -/
theorem escape_ofAscii {text : Bytes}
    (plain : ∀ byte ∈ text, 32 ≤ byte ∧ byte ≤ 126 ∧ byte ≠ 34 ∧ byte ≠ 92) :
    escape (ofAscii text) = text := by
  induction text with
  | nil => rfl
  | cons byte text inductionHypothesis =>
      have head := plain byte List.mem_cons_self
      have tail := inductionHypothesis fun other member =>
        plain other (List.mem_cons_of_mem _ member)
      have unescaped : Unescaped ⟨byte.toNat, by have := byte.toNat_lt; omega⟩ := by
        refine ⟨UInt8.le_iff_toNat_le.mp head.1, UInt8.le_iff_toNat_le.mp head.2.1, ?_, ?_⟩
        · exact fun equal => head.2.2.1 (UInt8.toNat_inj.mp equal)
        · exact fun equal => head.2.2.2 (UInt8.toNat_inj.mp equal)
      show escapePoint _ ++ escape (ofAscii text) = byte :: text
      unfold escapePoint
      rw [if_pos unescaped, tail]
      simp

theorem escape_uuid (uuid : Uuid) : escape (ofAscii uuid.text) = uuid.text := by
  have plain : ∀ byte ∈ ascii "0123456789abcdef-",
      32 ≤ byte ∧ byte ≤ 126 ∧ byte ≠ 34 ∧ byte ≠ 92 := forall_mem_of_all (by decide)
  exact escape_ofAscii fun byte member => plain byte (uuid.mem_text member)

/-! ### The header text -/

/-- Where the header text ends that `parse_case2_body` cuts out: at the brace
that closes it, or with its buffer. -/
def headerCut (text : Bytes) : Nat :=
  min (headerBufSize - 1) (1 + (matchBrace 1 text.tail).length)

theorem take_headerCut (rest : Bytes) :
    (123 :: matchBrace 1 rest).take (headerBufSize - 1) =
      (123 :: rest).take (headerCut (123 :: rest)) := by
  have whole := List.prefix_iff_eq_take.mp (matchBrace_isPrefix 1 rest)
  unfold headerCut
  rw [List.tail_cons]
  conv_lhs => rw [whole]
  rw [← List.take_succ_cons, List.take_take, Nat.add_comm]

/-- The header text of a combined text that may have lost its end. -/
theorem parseCase2Body_combined {rest : Bytes} {count bodySz : Nat}
    (room : 12 + headerBufSize ≤ count) :
    parseCase2Body ((ascii "\x7b\"header\": " ++ 123 :: rest).take count) headerBufSize bodySz =
      some ((123 :: rest).take (headerCut (123 :: rest)),
        case2Body ((ascii "\x7b\"header\": " ++ 123 :: rest).take count) bodySz) := by
  have opening : ascii "\x7b\"header\": " = 123 :: (ascii "\"header\":" ++ [32]) := by decide
  obtain ⟨more, equal⟩ : ∃ more, count = 12 + more := ⟨count - 12, by omega⟩
  have cut : (ascii "\x7b\"header\": " ++ 123 :: rest).take count =
      123 :: (ascii "\"header\":" ++ (32 :: 123 :: rest.take more)) := by
    rw [equal, opening, Nat.add_comm]
    rfl
  have search : strstr (123 :: (ascii "\"header\":" ++ (32 :: 123 :: rest.take more)))
      (ascii "\"header\":") = some (ascii "\"header\":" ++ (32 :: 123 :: rest.take more)) := by
    rw [strstr_cons_miss, strstr_here (List.prefix_append _ _)]
    rintro ⟨after, shape⟩
    have quote : ascii "\"header\":" = 34 :: ascii "header\":" := by decide
    rw [quote, List.cons_append] at shape
    injection shape with same
    exact absurd same (by decide)
  rw [cut]
  unfold parseCase2Body
  rw [search]
  show some ((123 :: matchBrace 1 (rest.take more)).take (headerBufSize - 1), _) = _
  congr 2
  rw [← take_headerCut, matchBrace_take, ← List.take_succ_cons, List.take_take]
  congr 1
  have size : headerBufSize = 4096 := rfl
  omega

theorem headerCut_le (text : Bytes) : headerCut text ≤ headerBufSize - 1 := Nat.min_le_left _ _

/-- The part of a text that the header text covers does not depend on what
follows it. -/
theorem take_headerCut_append (rest after : Bytes) :
    (123 :: rest).take (headerCut (123 :: rest ++ after)) =
      (123 :: matchBrace 1 rest).take (headerBufSize - 1) := by
  have shorter := (matchBrace_isPrefix 1 rest).length_le
  unfold headerCut
  rw [List.cons_append, List.tail_cons, matchBrace_append]
  by_cases closed : braceDepth 1 rest = 0
  · rw [closed, matchBrace_zero, List.append_nil]
    exact (take_headerCut rest).symm
  · rw [matchBrace_of_open closed, List.length_append]
    by_cases long : headerBufSize - 1 ≤ 1 + rest.length
    · rw [Nat.min_eq_left (by omega)]
    · rw [List.take_of_length_le, List.take_of_length_le]
      · rw [List.length_cons]
        omega
      · rw [List.length_cons]
        omega

/-- The header text reaches over a stretch without braces as long as its buffer
does. -/
theorem le_headerCut {rest stretch : Bytes} (stays : braceDepth 1 rest ≠ 0)
    (opening : 123 ∉ stretch) (closing : 125 ∉ stretch) (after : Bytes) :
    min (headerBufSize - 1) (1 + rest.length + stretch.length) ≤
      headerCut (123 :: rest ++ (stretch ++ after)) := by
  unfold headerCut
  rw [List.cons_append, List.tail_cons, matchBrace_append, matchBrace_of_open stays,
    matchBrace_append]
  have walked : matchBrace (braceDepth 1 rest) stretch = stretch := by
    apply matchBrace_of_open
    rw [braceDepth_of_no_brace opening closing]
    exact stays
  rw [walked, List.length_append, List.length_append]
  omega

/-- The header text stops inside a stretch that closes the object. -/
theorem headerCut_le_of_closed {rest : Bytes} (closed : braceDepth 1 rest = 0) (after : Bytes) :
    headerCut (123 :: rest ++ after) ≤ 1 + rest.length := by
  have shorter := (matchBrace_isPrefix 1 rest).length_le
  unfold headerCut
  rw [List.cons_append, List.tail_cons, matchBrace_append, closed, matchBrace_zero,
    List.append_nil]
  omega

/-! ### The read -/

/-- The descriptor of a bridge request in the RX ring of its worker. -/
def deliveredDesc (desc : SwDescriptor) (hostSlot : Fin numSlots) : SwDescriptor :=
  case2RxDesc desc hostSlot.val

/-- The RX pools when the combined text has been copied to its host slot. -/
def deliveredRx (rxHeader rxBody : BufferPool) (hostSlot : Fin numSlots) (text : Bytes) : RxPools :=
  ⟨rxHeader, rxBody.copyIn (BufferPool.offset hostSlot.val) text⟩

theorem combinedText_delivered {desc : SwDescriptor} {hostSlot : Fin numSlots} {text : Bytes}
    (length : desc.bodyLen = text.length) (fits : text.length ≤ slotSize) (clean : 0 ∉ text)
    (rxHeader rxBody : BufferPool) :
    combinedText (deliveredRx rxHeader rxBody hostSlot text) (deliveredDesc desc hostSlot) =
      text.take (slotSize - 1) := by
  have range : 0 ≤ (hostSlot.val : Int) ∧ (hostSlot.val : Int) < numSlots := by
    have below := hostSlot.isLt
    omega
  have reads : ∀ count, count ≤ text.length →
      (rxBody.copyIn (BufferPool.offset hostSlot.val) text).bpRead hostSlot.val count =
        text.take count :=
    fun count le => BufferPool.bpRead_copyIn_take rxBody range fits le
  have slot : slotSize - 1 < slotSize := by decide
  show cstr ((rxBody.copyIn (BufferPool.offset hostSlot.val) text).bpRead hostSlot.val
    (if desc.bodyLen < slotSize then desc.bodyLen else slotSize - 1)) = _
  have cut : (rxBody.copyIn (BufferPool.offset hostSlot.val) text).bpRead hostSlot.val
      (if desc.bodyLen < slotSize then desc.bodyLen else slotSize - 1) =
        text.take (slotSize - 1) := by
    rw [length]
    by_cases short : text.length < slotSize
    · rw [if_pos short, reads _ (Nat.le_refl _), List.take_length,
        List.take_of_length_le (by omega)]
    · rw [if_neg short, reads _ (by omega)]
  rw [cut]
  exact cstr_eq_self fun member => clean (List.mem_of_mem_take member)

/-- The request that `dpumesh_read` makes of a delivered combined text. -/
theorem readRequest_delivered (desc : SwDescriptor) (hostSlot : Fin numSlots) {rest : Bytes}
    (flags : desc.flags = opRequest ||| caseIngress)
    (length : desc.bodyLen = (ascii "\x7b\"header\": " ++ 123 :: rest).length)
    (fits : (ascii "\x7b\"header\": " ++ 123 :: rest).length ≤ slotSize) (clean : 0 ∉ 123 :: rest)
    (rxHeader rxBody : BufferPool) (junk : Bytes) (buffers : StaticBuffers) :
    let text := ascii "\x7b\"header\": " ++ 123 :: rest
    let body := case2Body (text.take (slotSize - 1)) slotSize
    readRequest (deliveredRx rxHeader rxBody hostSlot text) junk (deliveredDesc desc hostSlot)
        buffers =
      let keys := readHeaderKeys ((123 :: rest).take (headerCut (123 :: rest)))
        { buffers with reqBodyBuf := body } (blankRequest (deliveredDesc desc hostSlot))
      (keys.1, { keys.2 with body := some (cstr body) }) := by
  intro text body
  have whole : 0 ∉ text := by
    have opening : 0 ∉ ascii "\x7b\"header\": " := by decide
    exact fun member => (List.mem_append.mp member).elim opening clean
  have ingress : (deliveredDesc desc hostSlot).caseFlag = caseIngress := by
    show desc.flags &&& 0x0F = caseIngress
    rw [flags]
    decide
  have present : 0 ≤ (deliveredDesc desc hostSlot).bodyBufSlot ∧
      0 < (deliveredDesc desc hostSlot).bodyLen := by
    refine ⟨Int.natCast_nonneg _, ?_⟩
    show 0 < desc.bodyLen
    rw [length, List.length_append, List.length_cons]
    omega
  unfold readRequest readIngress
  rw [if_pos ingress, if_pos present, combinedText_delivered length fits whole,
    parseCase2Body_combined (by decide)]
  rfl

/-! ### Requests that are sent -/

/-- What a request that reaches `sidecar_rx_sq.put` has gone through. -/
theorem sent_inversion {env : BridgeEnv} {client : List (PyStr × Value)} {uuid : Uuid} {slot : Int}
    {desc : SwDescriptor} {text : Bytes}
    (sent : handleBridgeClient env client uuid slot = .sent desc text) :
    ∃ url worker podId, targetUrl env client = some url ∧
      env.select (getServiceName url) = some (worker, podId) ∧
      text = combined env client url worker uuid ∧ text.length ≤ slotSize ∧
      desc = bridgeDesc slot text.length podId ∧
      encodes (get client (lit "body") (.string [])) = true ∧ 0 ≤ slot := by
  unfold handleBridgeClient at sent
  split at sent
  · contradiction
  · rename_i url target
    dsimp only at sent
    split at sent
    · contradiction
    · rename_i worker podId selected
      split at sent
      · contradiction
      · rename_i encodes
        split at sent
        · contradiction
        · rename_i allocated
          split at sent
          · contradiction
          · rename_i fits
            injection sent with sameDesc sameText
            rw [← sameDesc, ← sameText]
            refine ⟨url, worker, podId, target, selected, rfl, by omega, rfl, ?_, by omega⟩
            simpa using encodes

/-- A request is sent whatever uuid it gets, if the text has the same length. -/
theorem sent_of_length_eq {env : BridgeEnv} {client : List (PyStr × Value)} {uuid other : Uuid}
    {slot : Int} {url : Value} {worker : PyStr} {podId : Int}
    (target : targetUrl env client = some url)
    (selected : env.select (getServiceName url) = some (worker, podId))
    (encodes : encodes (get client (lit "body") (.string [])) = true) (allocated : 0 ≤ slot)
    (fits : (combined env client url worker uuid).length ≤ slotSize)
    (length : (combined env client url worker other).length =
      (combined env client url worker uuid).length) :
    handleBridgeClient env client other slot =
      .sent (bridgeDesc slot (combined env client url worker other).length podId)
        (combined env client url worker other) := by
  unfold handleBridgeClient
  rw [target]
  dsimp only
  rw [selected]
  dsimp only
  rw [encodes, if_neg (by decide), if_neg (by omega), if_neg (by omega)]

/-! ### A bridge with one worker -/

def firstUuid : Uuid where
  text := ascii "aaaaaaaa-0000-4000-8000-000000000000"
  length := by decide
  fits := forall_mem_of_all (by decide)

def oneWorkerEnv : BridgeEnv where
  space := lit "default"
  select := fun _ => some (lit "s0-worker-1", 0)
  str := fun _ => []
  remoteAddr := lit "10.0.0.1"

end MiniMs.Daemon

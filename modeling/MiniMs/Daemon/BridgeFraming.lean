import MiniMs.Library.JsonCuts
import MiniMs.Library.JsonPrinted

/-!
How the receive loop of `_handle_bridge_client` finds the end of a request.

Owns: the loop over `conn.recv`, with the exception it goes on after and those
that end the connection, the property that a request of one JSON object is read
to its last byte and then processed as a whole, and the exact condition on the
places where its bytes are cut.

What is done with the object is left to the other modules of the bridge.
-/

namespace MiniMs.Daemon.BridgeFraming

open MiniMs.Library.Text MiniMs.Library.Json

variable (float : PyStr → Numeral)

/-! ### The loop -/

/-- What becomes of a connection. -/
inductive Received where
  /-- The reads are used up, and `conn.recv` blocks. -/
  | waiting (buf : Bytes)
  /-- The peer has closed: an empty read breaks the loop. -/
  | closed
  /-- An exception other than `JSONDecodeError`. The connection is closed without
  a reply. -/
  | raised
  /-- The request, and the reads that are never taken. -/
  | processed (request : Value) (unread : List Bytes)

/-- The loop, from what `buf` holds on, for the results of the `recv` calls to come. -/
def receiveLoop (buf : Bytes) : List Bytes → Received
  | [] => .waiting buf
  | data :: reads =>
      if data = [] then .closed
      else
        match decode (buf ++ data) with
        | none => .raised
        | some text =>
            match loads float text with
            | some request => .processed request reads
            | none =>
                match loadsError float text with
                | .decode => receiveLoop (buf ++ data) reads
                | .value => .raised

/-! ### Requests -/

/-- A request of one JSON object, and the results of `recv` that its bytes arrive in. -/
structure Delivery where
  text : PyStr
  members : List (PyStr × Value)
  bytes : Bytes
  reads : List Bytes
  encoded : encode text = some bytes
  loaded : loads float text = some (.object members)
  whole : reads.flatten = bytes
  bounded : ∀ data ∈ reads, data ≠ [] ∧ data.length ≤ 4096

variable {float}

/-- The loop reads up to the last byte and processes the object of the whole text. -/
def Delivery.Framed (delivery : Delivery float) : Prop :=
  receiveLoop float [] delivery.reads = .processed (.object delivery.members) []

/-- What has arrived ends with a character, in front of more than blanks, and not
in an integer of more than 4300 digits. -/
def CleanCut (text : PyStr) (arrived : Bytes) : Prop :=
  ∃ head tail, text = head ++ tail ∧ encode head = some arrived ∧
    (∃ point ∈ tail, ¬ Blank point) ∧ ¬ Overlong head

/-- Every place where the request is cut is a clean one. -/
def Delivery.CleanCuts (delivery : Delivery float) : Prop :=
  ∀ front back, delivery.reads = front ++ back → front ≠ [] → back ≠ [] →
    CleanCut delivery.text front.flatten

/-! ### One read -/

/-- The loop takes another read exactly if the bytes so far are the front of a text
that raises `JSONDecodeError`. -/
def GoesOn (arrived : Bytes) : Prop :=
  ∃ head, decode arrived = some head ∧ loads float head = none ∧ loadsError float head = .decode

theorem receiveLoop_cons {buf data : Bytes} (nonempty : data ≠ [])
    (goes : @GoesOn float (buf ++ data)) (reads : List Bytes) :
    receiveLoop float buf (data :: reads) = receiveLoop float (buf ++ data) reads := by
  obtain ⟨head, decoded, unread, error⟩ := goes
  rw [receiveLoop, if_neg nonempty, decoded]
  dsimp only
  rw [unread]
  dsimp only
  rw [error]

theorem receiveLoop_last {buf data : Bytes} {text : PyStr} {request : Value} (nonempty : data ≠ [])
    (decoded : decode (buf ++ data) = some text) (loaded : loads float text = some request)
    (reads : List Bytes) :
    receiveLoop float buf (data :: reads) = .processed request reads := by
  rw [receiveLoop, if_neg nonempty, decoded]
  dsimp only
  rw [loaded]

/-- Whoever processes the last read has gone on at every read before it. -/
theorem goesOn_of_processed {buf : Bytes} {reads : List Bytes} {request : Value}
    (processed : receiveLoop float buf reads = .processed request []) {front back : List Bytes}
    (split : reads = front ++ back) (someFront : front ≠ []) (someBack : back ≠ []) :
    @GoesOn float (buf ++ front.flatten) := by
  induction reads generalizing buf front with
  | nil =>
      rw [receiveLoop] at processed
      contradiction
  | cons data reads inductionHypothesis =>
      rw [receiveLoop] at processed
      by_cases empty : data = []
      · rw [if_pos empty] at processed
        contradiction
      rw [if_neg empty] at processed
      cases front with
      | nil => exact absurd rfl someFront
      | cons first front =>
          obtain rfl : data = first := (List.cons.inj split).1
          have tail_eq : reads = front ++ back := (List.cons.inj split).2
          have someReads : reads ≠ [] := by
            rw [tail_eq]
            exact List.append_ne_nil_of_right_ne_nil _ someBack
          cases decoded : decode (buf ++ data) with
          | none =>
              rw [decoded] at processed
              contradiction
          | some text =>
              rw [decoded] at processed
              dsimp only at processed
              cases loaded : loads float text with
              | some value =>
                  rw [loaded] at processed
                  exact absurd (Received.processed.inj processed).2 someReads
              | none =>
                  rw [loaded] at processed
                  dsimp only at processed
                  cases error : loadsError float text with
                  | value =>
                      rw [error] at processed
                      contradiction
                  | decode =>
                      rw [error] at processed
                      rw [List.flatten_cons, ← List.append_assoc]
                      by_cases last : front = []
                      · rw [last, List.flatten_nil, List.append_nil]
                        exact ⟨text, decoded, loaded, error⟩
                      · exact inductionHypothesis processed tail_eq last

/-! ### Cuts -/

/-- The loop goes on behind a cut exactly if the cut is a clean one. -/
theorem Delivery.goesOn_iff (delivery : Delivery float) {arrived rest : Bytes}
    (split : delivery.bytes = arrived ++ rest) :
    @GoesOn float arrived ↔ CleanCut delivery.text arrived := by
  have whole := delivery.encoded
  rw [split] at whole
  constructor
  · rintro ⟨head, decoded, unread, error⟩
    have encoded := encode_of_decode decoded
    obtain ⟨tail, text_eq, -⟩ := encode_front encoded whole
    have loaded := delivery.loaded
    rw [text_eq] at loaded
    have solid : ∃ point ∈ tail, ¬ Blank point := by
      by_contra blank
      push Not at blank
      obtain ⟨value, early⟩ := loads_front_of_blanks blank loaded
      rw [unread] at early
      contradiction
    refine ⟨head, tail, text_eq, encoded, solid, fun overlong => ?_⟩
    rw [(loadsError_cut loaded solid).2.mpr overlong] at error
    contradiction
  · rintro ⟨head, tail, text_eq, encoded, solid, short⟩
    have loaded := delivery.loaded
    rw [text_eq] at loaded
    obtain ⟨unread, value_iff⟩ := loadsError_cut loaded solid
    refine ⟨head, decode_of_encode encoded, unread, ?_⟩
    cases error : loadsError float head with
    | decode => rfl
    | value => exact absurd (value_iff.mp error) short

theorem Delivery.arrived (delivery : Delivery float) {front back : List Bytes}
    (split : delivery.reads = front ++ back) :
    delivery.bytes = front.flatten ++ back.flatten := by
  rw [← delivery.whole, split, List.flatten_append]

/-- From any read on, clean cuts lead to the object. -/
theorem Delivery.processed_of_cleanCuts (delivery : Delivery float)
    (clean : delivery.CleanCuts) {front back : List Bytes}
    (split : delivery.reads = front ++ back) (someBack : back ≠ []) :
    receiveLoop float front.flatten back = .processed (.object delivery.members) [] := by
  induction back generalizing front with
  | nil => exact absurd rfl someBack
  | cons data back inductionHypothesis =>
      have nonempty := (delivery.bounded data (by rw [split]; simp)).1
      have grown : front.flatten ++ data = (front ++ [data]).flatten := by simp
      have split' : delivery.reads = (front ++ [data]) ++ back := by simp [split]
      by_cases last : back = []
      · rw [last] at split' ⊢
        have all := delivery.arrived split'
        rw [List.flatten_nil, List.append_nil, ← grown] at all
        apply receiveLoop_last nonempty _ delivery.loaded
        rw [← all]
        exact decode_of_encode delivery.encoded
      · have cut := clean (front ++ [data]) back split' (by simp) last
        have goes := (delivery.goesOn_iff (delivery.arrived split')).mpr cut
        rw [← grown] at goes
        rw [receiveLoop_cons nonempty goes, grown]
        exact inductionHypothesis split' last

theorem Delivery.reads_ne_nil (delivery : Delivery float) : delivery.reads ≠ [] := by
  intro nothing
  have bytes_eq := delivery.whole
  have encoded := delivery.encoded
  have loaded := delivery.loaded
  rw [nothing, List.flatten_nil] at bytes_eq
  have decoded := decode_of_encode encoded
  rw [← bytes_eq] at decoded
  have empty : delivery.text = [] := Option.some.inj (decoded.symm.trans (decode_of_encode rfl))
  rw [empty] at loaded
  contradiction

/-- A request is read as a whole exactly if it is cut at clean places only. -/
theorem Delivery.framed_iff_cleanCuts (delivery : Delivery float) :
    delivery.Framed ↔ delivery.CleanCuts := by
  constructor
  · intro framed front back split someFront someBack
    have goes := goesOn_of_processed framed split someFront someBack
    exact (delivery.goesOn_iff (delivery.arrived split)).mp goes
  · intro clean
    exact delivery.processed_of_cleanCuts clean (List.nil_append _).symm delivery.reads_ne_nil

/-- The object with the one key U+00E9 and an empty object in it, cut between the
two bytes of the character. -/
def splitCharacter (float : PyStr → Numeral) : Delivery float :=
  let member : Member float :=
    ⟨[0xe9], lit "\x7b\x7d", .object [], forall_mem_of_all (by decide), scans_emptyObject float⟩
  { text := [123, 34, 0xe9, 34, 58, 32, 123, 125, 125]
    members := [([0xe9], .object [])]
    bytes := [123, 34, 195, 169, 34, 58, 32, 123, 125, 125]
    reads := [[123, 34, 195], [169, 34, 58, 32, 123, 125, 125]]
    encoded := by decide +kernel
    loaded := loads_objectText member []
    whole := rfl
    bounded := by decide }

/-- The first byte of the character alone raises `UnicodeDecodeError`. -/
theorem not_framed :
    receiveLoop (fun _ => integerNumeral []) [] (splitCharacter fun _ => integerNumeral []).reads = .raised ∧
      ¬ (splitCharacter fun _ => integerNumeral []).Framed := by
  have raised : ∀ float : PyStr → Numeral,
      receiveLoop float [] (splitCharacter float).reads = .raised := by
    intro float
    have torn : decode ([] ++ [123, 34, 195]) = none := by decide +kernel
    show receiveLoop float [] ([123, 34, 195] :: _) = .raised
    rw [receiveLoop, if_neg (by decide), torn]
  refine ⟨raised _, fun framed => ?_⟩
  unfold Delivery.Framed at framed
  rw [raised] at framed
  contradiction

end MiniMs.Daemon.BridgeFraming

import MiniMs.Daemon.Registry
import MiniMs.Daemon.RequestNames
import MiniMs.Library.Run

/-!
All workers of a node together: how they start, send requests to each other,
answer them, and where the router puts the answers.

Owns: the name that `dpumesh_init` gives to a worker, the state of the mesh and
its steps, the property that every answer is put to the worker that asked, and
the condition on the steps of a run under which it holds.

Which worker is asked, which slots are used and when anything arrives is left
to the run. Messages that get lost do not appear in it.
-/

namespace MiniMs.Daemon

open MiniMs.Dpumesh MiniMs.Library.Text MiniMs.Library.Json MiniMs.Library.Run

/-! ### Workers -/

/-- `APP`, a name as manifests have it. -/
structure AppName where
  text : Bytes
  plain : PlainName text
  short : text.length < 64

/-- The worker number: `atoi` of `WORKER_ID`. -/
def workerNum (workerId : Bytes) : Int := Library.Number.atoi workerId

/-- `worker_id`, as `dpumesh_init` formats it. -/
def workerName (app : AppName) (workerNum : Int) : Bytes :=
  snprintf 128 (app.text ++ ascii "-worker-" ++ decimalInt workerNum)

theorem plainName_workerName (app : AppName) (number : Int) : PlainName (workerName app number) := by
  intro byte member
  have inside := List.mem_of_mem_take member
  rcases List.mem_append.mp inside with front | digits
  · rcases List.mem_append.mp front with name | dash
    · exact app.plain byte name
    · have plain : PlainName (ascii "-worker-") := forall_mem_of_all (by decide)
      exact plain byte dash
  · rcases Http.mem_decimalInt digits with minus | digit
    · rw [minus]
      decide
    · have range := Library.Number.isDigit_range digit
      have low : (32 : UInt8).toNat = 32 := rfl
      refine ⟨UInt8.le_iff_toNat_le.mpr (by omega), UInt8.lt_iff_toNat_lt.mpr ?_,
        Http.isDigit_ne digit (by decide), Http.isDigit_ne digit (by decide)⟩
      show byte.toNat < 128
      omega

theorem length_workerName (app : AppName) (number : Int) : (workerName app number).length < 128 := by
  have le : (workerName app number).length ≤ 127 := List.length_take_le _ _
  omega

/-! ### The state -/

/-- A request that `dpumesh_write` has put, with the pod id of its sender. -/
structure Asked where
  requester : Int
  reqId : Nat
  header : Bytes

/-- A request that a callee has read and not yet answered. A request of the
bridge has no requester. -/
structure Open where
  callee : Nat
  index : Nat
  requester : Option Int

/-- An answer that `dpumesh_write` has put. -/
structure Answered where
  requester : Option Int
  header : Bytes

/-- An answer that the router has treated. -/
structure Returned where
  requester : Option Int
  route : ResponseRoute

structure Mesh where
  counter : Option Nat := none
  registry : Option Bytes := none
  workers : List Worker := []
  asked : List Asked := []
  opened : List Open := []
  answered : List Answered := []
  returned : List Returned := []

/-- A positive status. -/
def Status : Type := { status : Int // 0 < status ∧ status < 2 ^ 31 }

inductive MeshEvent where
  /-- A process with these two variables calls `dpumesh_init`. -/
  | start (app : AppName) (workerId : Bytes)
  /-- A worker's `dpumesh_write` of a request. -/
  | ask (caller : Nat) (method url : Bytes)
  /-- A worker's `dpumesh_read` of a request of another worker. -/
  | read (which callee : Nat) (rx : RxPools) (junk : Bytes) (desc : SwDescriptor)
  /-- A worker's `dpumesh_read` of a request of the bridge. -/
  | readIngress (callee : Nat) (rx : RxPools) (junk : Bytes) (desc : SwDescriptor)
  /-- A worker's `dpumesh_write` of an answer. -/
  | answer (which : Nat) (status : Status)
  /-- The router takes an answer. -/
  | route (which : Nat) (float : PyStr → Numeral) (desc : SwDescriptor) (txHeader : BufferPool)

/-- The RX slot of a descriptor holds the request that was sent. -/
def Arrived (asked : Asked) (rx : RxPools) (desc : SwDescriptor) : Prop :=
  desc.caseFlag = caseLocal ∧ desc.reqId = asked.reqId ∧ 0 ≤ desc.headerBufSlot ∧
    0 < desc.headerLen ∧ localHeaderText rx desc = cstr (copiedHeader asked.header)

instance (asked : Asked) (rx : RxPools) (desc : SwDescriptor) : Decidable (Arrived asked rx desc) := by
  unfold Arrived
  infer_instance

/-- The router's slot of a descriptor holds the answer that was sent. -/
def AtHand (answered : Answered) (desc : SwDescriptor) (txHeader : BufferPool) : Prop :=
  0 ≤ desc.headerBufSlot ∧ 0 < desc.headerLen ∧
    txHeader.read desc.headerBufSlot desc.headerLen = answered.header

instance (answered : Answered) (desc : SwDescriptor) (txHeader : BufferPool) :
    Decidable (AtHand answered desc txHeader) := by
  unfold AtHand
  infer_instance

/-- `dpumesh_init`, as far as others can see it. -/
def Mesh.start (mesh : Mesh) (app : AppName) (workerId : Bytes) : Mesh :=
  let podId := podRegistryAllocId mesh.counter
  let name := workerName app (workerNum workerId)
  { mesh with
    counter := some podId
    registry := some (podRegistryRegister mesh.registry name podId app.text)
    workers := mesh.workers ++ [Worker.init name podId] }

/-- `dpumesh_read` of one descriptor by one worker. -/
def Mesh.open (mesh : Mesh) (callee : Nat) (worker : Worker) (rx : RxPools) (junk : Bytes)
    (desc : SwDescriptor) (requester : Option Int) : Mesh :=
  let (worker, req) := dpumeshRead rx junk worker desc
  { mesh with
    workers := mesh.workers.set callee worker
    opened := mesh.opened ++ [⟨callee, req.descIndex, requester⟩] }

/-- What the router does with a header that is at hand; where `.get` raises, the
answer goes nowhere. -/
def Mesh.routeOf (mesh : Mesh) (float : PyStr → Numeral) (desc : SwDescriptor)
    (txHeader : BufferPool) : ResponseRoute :=
  match headerInfo float desc txHeader with
  | none => .dropped
  | some info => routeResponse (getPodId float mesh.registry) desc info

def Mesh.step (mesh : Mesh) (event : MeshEvent) : Option Mesh :=
  match event with
  | .start app workerId =>
      if podRegistryAllocId mesh.counter < 2 ^ 31 then some (mesh.start app workerId) else none
  | .ask caller method url =>
      match mesh.workers[caller]? with
      | none => none
      | some worker =>
          let (worker, out) := writeRequest worker method url
          some { mesh with
            workers := mesh.workers.set caller worker
            asked := mesh.asked ++ [⟨worker.podId, out.reqId, out.header⟩] }
  | .read which callee rx junk desc =>
      match mesh.asked[which]?, mesh.workers[callee]? with
      | some asked, some worker =>
          if Arrived asked rx desc then
            some { mesh.open callee worker rx junk desc (some asked.requester) with
              asked := mesh.asked.eraseIdx which }
          else none
      | _, _ => none
  | .readIngress callee rx junk desc =>
      match mesh.workers[callee]? with
      | some worker =>
          if desc.caseFlag = caseIngress then some (mesh.open callee worker rx junk desc none)
          else none
      | none => none
  | .answer which status =>
      match mesh.opened[which]? with
      | none => none
      | some request =>
          match mesh.workers[request.callee]? with
          | none => none
          | some worker =>
              let (worker, out) := writeResponse worker request.index status.val
              some { mesh with
                workers := mesh.workers.set request.callee worker
                opened := mesh.opened.eraseIdx which
                answered := mesh.answered ++ [⟨request.requester, out.header⟩] }
  | .route which float desc txHeader =>
      match mesh.answered[which]? with
      | none => none
      | some answered =>
          if AtHand answered desc txHeader then
            some { mesh with
              answered := mesh.answered.eraseIdx which
              returned := mesh.returned ++ [⟨answered.requester, mesh.routeOf float desc txHeader⟩] }
          else none

/-! ### The property -/

/-- An answer is put to the pod that asked. -/
def Returned.Home (returned : Returned) : Prop :=
  ∀ podId, returned.requester = some podId →
    ∃ desc, returned.route = .put desc ∧ desc.dstPodId = podId

/-- Every answer that the router has treated is put to the pod that asked. -/
def AllHome (mesh : Mesh) : Prop := ∀ returned ∈ mesh.returned, returned.Home

/-! ### The conditions -/

/-- What keeps the names of the workers whole: the registry has room for a
worker that starts, a request names its sender to the callee, and no request is
read into the table entry of one that is still open. -/
def Whole (mesh : Mesh) : MeshEvent → Prop
  | .start app workerId =>
      (registerText (registryBuf mesh.registry) (workerName app (workerNum workerId))
        (podRegistryAllocId mesh.counter) app.text).length < registrySize
  | .ask caller method url => ∀ worker, mesh.workers[caller]? = some worker →
      Naming worker method url
  | .read _ callee _ _ desc => ∀ request ∈ mesh.opened, request.callee = callee →
      request.index ≠ desc.reqId % maxPending
  | .readIngress callee _ _ desc => ∀ request ∈ mesh.opened, request.callee = callee →
      request.index ≠ desc.reqId % maxPending
  | .answer _ _ => True
  | .route _ _ _ _ => True

/-- The worker of a pod is the last that started under its name. -/
def LastOfName (mesh : Mesh) (podId : Int) : Prop :=
  ∀ worker ∈ mesh.workers, worker.podId = podId →
    ∀ other ∈ mesh.workers, other.workerId = worker.workerId → other.podId ≤ podId

/-- An answer is routed only while its requester is the last of its name. -/
def Unrepeated (mesh : Mesh) : MeshEvent → Prop
  | .route which _ _ _ => ∀ answered, mesh.answered[which]? = some answered →
      ∀ podId, answered.requester = some podId → LastOfName mesh podId
  | _ => True

/-! ### The invariant -/

/-- What the callee reads in a header: the name of its sender, and an id that
can stand in another header. -/
structure Names (header name : Bytes) : Prop where
  sourceWorker : jsonGetStr (cstr (copiedHeader header)) (ascii "source_worker") 128 = some name
  reqIdStr : ∃ reqId, jsonGetStr (cstr (copiedHeader header)) (ascii "req_id_str") 64 =
    some (creqId reqId)

/-- An entry of the inbound table from which a worker is answered. -/
structure Keeps (inbound : Inbound) (name : Bytes) : Prop where
  sourceWorker : inbound.sourceWorker = name
  reqIdStr : CleanBytes inbound.reqIdStr

/-- An answer's header from which the router reads the name of the worker that
asked. -/
def Addressed (header name : Bytes) : Prop :=
  ∀ float, ∃ info, deserializeHeader float header = some (.object info) ∧
    Holds info (lit "dest_worker") name

/-- The registrations behind a mesh. -/
structure Registered (mesh : Mesh) (rows : List Registration) : Prop where
  counter : podRegistryAllocId mesh.counter = rows.length + 1
  file : mesh.registry.getD (ascii "\x7b\x7d") = registryText rows
  buffer : registryBuf mesh.registry = registryText rows
  workers : mesh.workers.map (fun worker => (worker.workerId, worker.podId)) =
    rows.map (fun row => (row.name, (row.podId : Int)))
  podIds : rows.map Registration.podId = List.range' 1 rows.length
  short : ∀ row ∈ rows, row.name.length < 128
  named : ∀ row ∈ rows, row.name ≠ []

/-- Every message leads back to the registration of the worker that asked. -/
structure Sound (mesh : Mesh) (rows : List Registration) : Prop where
  registered : Registered mesh rows
  asked : ∀ asked ∈ mesh.asked, ∃ row ∈ rows, asked.requester = row.podId ∧
    Names asked.header row.name
  opened : ∀ request ∈ mesh.opened, ∀ podId, request.requester = some podId →
    ∃ row ∈ rows, podId = row.podId ∧ ∃ worker, mesh.workers[request.callee]? = some worker ∧
      Keeps (worker.inbound request.index) row.name
  distinct : mesh.opened.Pairwise fun first second =>
    first.callee = second.callee → first.index ≠ second.index
  answered : ∀ answered ∈ mesh.answered, ∀ podId, answered.requester = some podId →
    ∃ row ∈ rows, podId = row.podId ∧ Addressed answered.header row.name
  home : AllHome mesh

theorem sound_initial : Sound {} [] where
  registered := ⟨rfl, rfl, rfl, rfl, rfl, List.forall_mem_nil _, List.forall_mem_nil _⟩
  asked := List.forall_mem_nil _
  opened := List.forall_mem_nil _
  distinct := List.Pairwise.nil
  answered := List.forall_mem_nil _
  home := List.forall_mem_nil _

/-! ### Workers that stay who they are -/

theorem map_set_of_same {α β : Type} {items : List α} {index : Nat} {item other : α} (f : α → β)
    (at_ : items[index]? = some item) (same : f other = f item) :
    (items.set index other).map f = items.map f := by
  obtain ⟨below, item_eq⟩ := List.getElem?_eq_some_iff.mp at_
  rw [List.map_set, same, ← item_eq]
  apply List.ext_getElem (by simp)
  intro position left right
  rw [List.getElem_set]
  split
  · rename_i here
    simp [here]
  · rfl

theorem Registered.same {mesh after : Mesh} {rows : List Registration}
    (registered : Registered mesh rows)
    (same : after.counter = mesh.counter ∧ after.registry = mesh.registry ∧
      after.workers.map (fun worker => (worker.workerId, worker.podId)) =
        mesh.workers.map (fun worker => (worker.workerId, worker.podId))) :
    Registered after rows where
  counter := by
    rw [same.1]
    exact registered.counter
  file := by
    rw [same.2.1]
    exact registered.file
  buffer := by
    rw [same.2.1]
    exact registered.buffer
  workers := by
    rw [same.2.2]
    exact registered.workers
  podIds := registered.podIds
  short := registered.short
  named := registered.named

/-- A worker that only changes its tables is registered as before. -/
theorem Registered.set {mesh after : Mesh} {rows : List Registration}
    (registered : Registered mesh rows) {index : Nat} {worker : Worker}
    (at_ : mesh.workers[index]? = some worker) (next : Worker)
    (same : next.workerId = worker.workerId ∧ next.podId = worker.podId)
    (unchanged : after.counter = mesh.counter ∧ after.registry = mesh.registry ∧
      after.workers = mesh.workers.set index next) : Registered after rows := by
  apply registered.same
  refine ⟨unchanged.1, unchanged.2.1, ?_⟩
  rw [unchanged.2.2, map_set_of_same _ at_ (by rw [same.1, same.2])]

/-- The registration of a worker. -/
theorem Registered.row {mesh : Mesh} {rows : List Registration} (registered : Registered mesh rows)
    {worker : Worker} (member : worker ∈ mesh.workers) :
    ∃ row ∈ rows, worker.workerId = row.name ∧ worker.podId = row.podId := by
  have inside : (worker.workerId, worker.podId) ∈
      rows.map (fun row => (row.name, (row.podId : Int))) := by
    rw [← registered.workers]
    exact List.mem_map.mpr ⟨worker, member, rfl⟩
  obtain ⟨row, rowMember, same⟩ := List.mem_map.mp inside
  exact ⟨row, rowMember, (Prod.mk.inj same).1.symm, (Prod.mk.inj same).2.symm⟩

theorem Registered.worker {mesh : Mesh} {rows : List Registration} (registered : Registered mesh rows)
    {row : Registration} (member : row ∈ rows) :
    ∃ worker ∈ mesh.workers, worker.workerId = row.name ∧ worker.podId = row.podId := by
  have inside : (row.name, (row.podId : Int)) ∈
      mesh.workers.map (fun worker => (worker.workerId, worker.podId)) := by
    rw [registered.workers]
    exact List.mem_map.mpr ⟨row, member, rfl⟩
  obtain ⟨worker, workerMember, same⟩ := List.mem_map.mp inside
  exact ⟨worker, workerMember, (Prod.mk.inj same).1, (Prod.mk.inj same).2⟩

/-! ### What a look-up finds -/

theorem PlainName.cleanBytes {name : Bytes} (plain : PlainName name) : CleanBytes name :=
  cleanBytes_of_ascii plain

/-- Later registrations have larger pod ids. -/
theorem Registered.pairwise {mesh : Mesh} {rows : List Registration}
    (registered : Registered mesh rows) :
    rows.Pairwise fun first second => first.podId < second.podId := by
  have sorted : (rows.map Registration.podId).Pairwise (· < ·) := by
    rw [registered.podIds]
    exact List.pairwise_lt_range'
  exact List.pairwise_map.mp sorted

theorem Registered.row_unique {mesh : Mesh} {rows : List Registration}
    (registered : Registered mesh rows) {first second : Registration} (left : first ∈ rows)
    (right : second ∈ rows) (same : first.podId = second.podId) : first = second := by
  have distinct : (rows.map Registration.podId).Nodup := by
    rw [registered.podIds]
    exact List.nodup_range'
  exact List.inj_on_of_nodup_map distinct left right same

/-- Of a name that is registered, the last registration has the largest id. -/
theorem lastNamed_spec {rows : List Registration}
    (sorted : rows.Pairwise fun first second => first.podId < second.podId) {row : Registration}
    (member : row ∈ rows) :
    ∃ last ∈ rows, lastNamed rows row.name = some last ∧ last.name = row.name ∧
      ∀ other ∈ rows, other.name = row.name → other.podId ≤ last.podId := by
  cases found : lastNamed rows row.name with
  | none =>
      have absent := List.find?_eq_none.mp found row (List.mem_reverse.mpr member)
      exact absurd (decide_eq_true rfl) absent
  | some last =>
      obtain ⟨named, later, earlier, split, others⟩ := List.find?_eq_some_iff_append.mp found
      have shape : rows = earlier.reverse ++ last :: later.reverse := by
        have back := congrArg List.reverse split
        rw [List.reverse_reverse] at back
        rw [back]
        simp
      refine ⟨last, by rw [shape]; simp, rfl, by simpa using named, ?_⟩
      intro other otherMember otherNamed
      rw [shape] at otherMember sorted
      rcases List.mem_append.mp otherMember with before | here
      · have less := (List.pairwise_append.mp sorted).2.2 other before last List.mem_cons_self
        omega
      rcases List.mem_cons.mp here with rfl | after
      · exact Nat.le_refl _
      · have foreign := others other (List.mem_reverse.mp after)
        exact absurd otherNamed (by simpa using foreign)

/-- A pod is the last of its name if the last registration of the name is its
own. -/
theorem lastOfName_iff {mesh : Mesh} {rows : List Registration} (registered : Registered mesh rows)
    {row last : Registration} (member : row ∈ rows) (lastMember : last ∈ rows)
    (lastNamed : last.name = row.name)
    (greatest : ∀ other ∈ rows, other.name = row.name → other.podId ≤ last.podId) :
    LastOfName mesh row.podId ↔ last.podId = row.podId := by
  constructor
  · intro isLast
    obtain ⟨worker, workerMember, workerName, workerPod⟩ := registered.worker member
    obtain ⟨other, otherMember, otherName, otherPod⟩ := registered.worker lastMember
    have le := isLast worker workerMember workerPod other otherMember
      (by rw [otherName, workerName, lastNamed])
    rw [otherPod] at le
    have ge := greatest row member rfl
    omega
  · intro same worker workerMember workerPod other otherMember otherName
    obtain ⟨own, ownMember, ownName, ownPod⟩ := registered.row workerMember
    obtain ⟨second, secondMember, secondName, secondPod⟩ := registered.row otherMember
    have isRow : own = row := registered.row_unique ownMember member (by omega)
    have le := greatest second secondMember (by rw [← secondName, otherName, ownName, isRow])
    omega

/-! ### The router -/

/-- The router puts an answer to the last worker that started under the name of
the one that asked. -/
theorem routeOf_addressed {mesh : Mesh} {rows : List Registration}
    (registered : Registered mesh rows) {answered : Answered} {row last : Registration}
    (member : row ∈ rows) (addressed : Addressed answered.header row.name)
    (found : lastNamed rows row.name = some last) {desc : SwDescriptor} {txHeader : BufferPool}
    (atHand : AtHand answered desc txHeader) (float : PyStr → Numeral) :
    ∃ sent, mesh.routeOf float desc txHeader = .put sent ∧ sent.dstPodId = last.podId := by
  obtain ⟨slot, some_, read⟩ := atHand
  obtain ⟨info, decoded, dest, dest_held, dest_encoded⟩ := addressed float
  have known : headerInfo float desc txHeader = some info := by
    unfold headerInfo
    rw [if_pos ⟨slot, some_⟩, read, decoded]
  obtain rfl : dest = ofAscii row.name :=
    Option.some.inj ((decode_of_encode dest_encoded).symm.trans
      (decode_of_encode row.name_plain.encoded))
  have lookup : getPodId float mesh.registry (.string (ofAscii row.name)) = last.podId := by
    rw [getPodId_registryText float registered.file, found]
    rfl
  have truthy : (Value.string (ofAscii row.name)).truthy = true := by
    have nonempty := registered.named row member
    cases shape : row.name with
    | nil => exact absurd shape nonempty
    | cons byte name => rfl
  refine ⟨{ desc with dstPodId := last.podId, flags := opResponse ||| caseLocal, valid := 1 }, ?_, rfl⟩
  unfold Mesh.routeOf
  rw [known]
  dsimp only
  unfold routeResponse
  rw [get_of_holds dest_held]
  dsimp only
  rw [truthy, lookup, if_neg (by decide), if_neg (by omega)]

/-- An answer goes home exactly while its requester is the last of its name. -/
theorem Sound.home_iff {mesh : Mesh} {rows : List Registration} (sound : Sound mesh rows)
    {answered : Answered} (member : answered ∈ mesh.answered) {desc : SwDescriptor}
    {txHeader : BufferPool} (atHand : AtHand answered desc txHeader) (float : PyStr → Numeral) :
    (Returned.mk answered.requester (mesh.routeOf float desc txHeader)).Home ↔
      ∀ podId, answered.requester = some podId → LastOfName mesh podId := by
  have each : ∀ podId, answered.requester = some podId →
      ((∃ sent, mesh.routeOf float desc txHeader = .put sent ∧ sent.dstPodId = podId) ↔
        LastOfName mesh podId) := by
    intro podId asks
    obtain ⟨row, rowMember, rfl, addressed⟩ := sound.answered answered member podId asks
    obtain ⟨last, lastMember, found, named, greatest⟩ :=
      lastNamed_spec sound.registered.pairwise rowMember
    obtain ⟨sent, put, dst⟩ := routeOf_addressed sound.registered rowMember addressed found atHand float
    rw [lastOfName_iff sound.registered rowMember lastMember named greatest, put]
    constructor
    · rintro ⟨other, same, home⟩
      rw [← ResponseRoute.put.inj same, dst] at home
      omega
    · intro same
      exact ⟨sent, rfl, by rw [dst, same]⟩
  constructor
  · intro home podId asks
    exact (each podId asks).mp (home podId asks)
  · intro last podId asks
    exact (each podId asks).mpr (last podId asks)

/-! ### The steps -/

/-- An entry stays kept when its worker's table stays the same there. -/
theorem keeps_set {workers : List Worker} {index : Nat} {worker : Worker}
    (at_ : workers[index]? = some worker) (next : Worker) {request : Open} {name : Bytes}
    (same : request.callee = index →
      (next.inbound request.index).sourceWorker = (worker.inbound request.index).sourceWorker ∧
      (next.inbound request.index).reqIdStr = (worker.inbound request.index).reqIdStr)
    (kept : ∃ callee, workers[request.callee]? = some callee ∧
      Keeps (callee.inbound request.index) name) :
    ∃ callee, (workers.set index next)[request.callee]? = some callee ∧
      Keeps (callee.inbound request.index) name := by
  obtain ⟨callee, found, keeps⟩ := kept
  by_cases here : request.callee = index
  · obtain ⟨sourceWorker, reqIdStr⟩ := same here
    rw [here] at found ⊢
    obtain rfl : worker = callee := Option.some.inj (at_.symm.trans found)
    have below : index < workers.length := (List.getElem?_eq_some_iff.mp at_).1
    refine ⟨next, List.getElem?_set_self below, ?_, ?_⟩
    · rw [sourceWorker]
      exact keeps.sourceWorker
    · rw [reqIdStr]
      exact keeps.reqIdStr
  · exact ⟨callee, by rw [List.getElem?_set_ne (Ne.symm here)]; exact found, keeps⟩

theorem PlainName.notMem {name : Bytes} (plain : PlainName name) {byte : UInt8}
    (special : byte < 32 ∨ byte = 34 ∨ byte = 92) : byte ∉ name :=
  plain.cleanBytes.notMem special

theorem zero_notMem_registryText (rows : List Registration) : 0 ∉ registryText rows := by
  have inside : ∀ row : Registration, 0 ∉ row.field.key ∧ 0 ∉ row.field.raw := by
    intro row
    have name : 0 ∉ row.name := row.name_plain.notMem (Or.inl (by decide))
    have service : 0 ∉ row.service := row.service_plain.notMem (Or.inl (by decide))
    have digits : 0 ∉ decimalInt row.podId := by
      intro member
      rcases Http.mem_decimalInt member with minus | digit
      · contradiction
      · contradiction
    have podIdKey : 0 ∉ ascii "pod_id" := by decide
    have serviceKey : 0 ∉ ascii "service" := by decide
    refine ⟨name, zero_notMem_rowText ?_⟩
    simp only [List.forall_mem_cons]
    exact ⟨⟨podIdKey, digits⟩, ⟨serviceKey, by simpa [inQuotes] using service⟩,
      List.forall_mem_nil _⟩
  cases rows with
  | nil => decide
  | cons row rows =>
      apply zero_notMem_rowText
      simp only [List.forall_mem_cons, List.forall_mem_map]
      exact ⟨inside row, fun other _ => inside other⟩

/-- A worker that starts with room in the registry. -/
theorem Registered.start {mesh : Mesh} {rows : List Registration} (registered : Registered mesh rows)
    {app : AppName} {workerId : Bytes} (small : podRegistryAllocId mesh.counter < 2 ^ 31)
    (fits : (registerText (registryBuf mesh.registry) (workerName app (workerNum workerId))
      (podRegistryAllocId mesh.counter) app.text).length < registrySize) :
    ∃ row, Registered (mesh.start app workerId) (rows ++ [row]) := by
  let row : Registration :=
    ⟨workerName app (workerNum workerId), podRegistryAllocId mesh.counter, app.text,
      plainName_workerName app _, app.plain, small⟩
  have text : registerText (registryBuf mesh.registry) row.name row.podId row.service =
      registryText (rows ++ [row]) := by
    rw [registered.buffer]
    exact registerText_registryText rows row
  have written : podRegistryRegister mesh.registry row.name row.podId row.service =
      registryText (rows ++ [row]) := by
    unfold podRegistryRegister
    rw [snprintf_eq_self fits, text]
  have short : (registryText (rows ++ [row])).length < registrySize := by
    rw [← text]
    exact fits
  refine ⟨row, ?_, ?_, ?_, ?_, ?_, ?_, ?_⟩
  · show podRegistryAllocId mesh.counter + 1 = _
    rw [registered.counter, List.length_append, List.length_singleton]
  · exact written
  · show cstr ((podRegistryRegister mesh.registry row.name row.podId row.service).take _) = _
    rw [written, List.take_of_length_le (by omega), cstr_eq_self (zero_notMem_registryText _)]
  · show (mesh.workers ++ [_]).map _ = _
    rw [List.map_append, List.map_append, registered.workers]
    rfl
  · rw [List.map_append, registered.podIds, List.length_append, List.length_singleton,
      List.range'_concat]
    show _ ++ [podRegistryAllocId mesh.counter] = _
    rw [registered.counter]
    simp [Nat.add_comm]
  · intro other member
    rcases List.mem_append.mp member with old | new
    · exact registered.short other old
    · rw [List.mem_singleton.mp new]
      exact length_workerName app _
  · intro other member
    rcases List.mem_append.mp member with old | new
    · exact registered.named other old
    · rw [List.mem_singleton.mp new]
      show snprintf 128 (app.text ++ ascii "-worker-" ++ _) ≠ []
      have letters : (ascii "-worker-").length = 8 := by decide
      intro empty
      have length := congrArg List.length empty
      unfold snprintf at length
      simp only [List.length_take, List.length_append, letters, List.length_nil] at length
      omega

theorem Sound.start {mesh : Mesh} {rows : List Registration} (sound : Sound mesh rows)
    {app : AppName} {workerId : Bytes} (small : podRegistryAllocId mesh.counter < 2 ^ 31)
    (whole : Whole mesh (.start app workerId)) :
    ∃ rows, Sound (mesh.start app workerId) rows := by
  obtain ⟨row, registered⟩ := sound.registered.start small whole
  refine ⟨rows ++ [row], registered, ?_, ?_, sound.distinct, ?_, sound.home⟩
  · intro asked member
    obtain ⟨own, ownMember, facts⟩ := sound.asked asked member
    exact ⟨own, List.mem_append_left _ ownMember, facts⟩
  · intro request member podId asks
    obtain ⟨own, ownMember, same, worker, found, keeps⟩ := sound.opened request member podId asks
    have below : request.callee < mesh.workers.length := (List.getElem?_eq_some_iff.mp found).1
    refine ⟨own, List.mem_append_left _ ownMember, same, worker, ?_, keeps⟩
    show (mesh.workers ++ [_])[request.callee]? = some worker
    rw [List.getElem?_append_left below]
    exact found
  · intro answered member podId asks
    obtain ⟨own, ownMember, facts⟩ := sound.answered answered member podId asks
    exact ⟨own, List.mem_append_left _ ownMember, facts⟩

/-- A request whose header names its sender. -/
theorem Sound.ask {mesh : Mesh} {rows : List Registration} (sound : Sound mesh rows) {caller : Nat}
    {worker : Worker} (found : mesh.workers[caller]? = some worker) {method url : Bytes}
    (naming : Naming worker method url) :
    Sound { mesh with
      workers := mesh.workers.set caller (writeRequest worker method url).1
      asked := mesh.asked ++ [⟨worker.podId, (writeRequest worker method url).2.reqId,
        (writeRequest worker method url).2.header⟩] } rows where
  registered := sound.registered.set found (writeRequest worker method url).1 ⟨rfl, rfl⟩
    ⟨rfl, rfl, rfl⟩
  asked := by
    intro asked member
    rcases List.mem_append.mp member with old | new
    · exact sound.asked asked old
    · obtain ⟨row, rowMember, name, podId⟩ :=
        sound.registered.row (List.mem_of_getElem? found)
      have short := sound.registered.short row rowMember
      have plain : PlainName worker.workerId := by
        rw [name]
        exact row.name_plain
      have text := naming.cstr_copiedHeader (plain.notMem (Or.inl (by decide)))
      have source := naming.sourceWorker_read (plain.notMem (Or.inr (Or.inl rfl))) (by rw [name]; exact short)
      rw [List.mem_singleton.mp new]
      refine ⟨row, rowMember, podId, ?_, worker.nextReqId, ?_⟩
      · rw [text, source, name]
      · rw [text]
        exact naming.reqIdStr_read
  opened := by
    intro request member podId asks
    obtain ⟨row, rowMember, same, kept⟩ := sound.opened request member podId asks
    exact ⟨row, rowMember, same, keeps_set found (writeRequest worker method url).1 (fun _ => ⟨rfl, rfl⟩) kept⟩
  distinct := sound.distinct
  answered := sound.answered
  home := sound.home

/-- What a worker's table holds after it has read a request. -/
theorem dpumeshRead_inbound (rx : RxPools) (junk : Bytes) (worker : Worker) (desc : SwDescriptor) :
    (dpumeshRead rx junk worker desc).1.inbound =
      Function.update worker.inbound (desc.reqId % maxPending)
        (inboundOf (readRequest rx junk desc worker.buffers).2) := by
  have index := readRequest_descIndex rx junk desc worker.buffers
  unfold dpumeshRead
  dsimp only
  rw [index]

/-- The entry of a request that has arrived. -/
theorem keeps_of_arrived {asked : Asked} {name : Bytes} (names : Names asked.header name)
    (short : name.length < 128) {rx : RxPools} {desc : SwDescriptor} (arrived : Arrived asked rx desc)
    (junk : Bytes) (buffers : StaticBuffers) :
    Keeps (inboundOf (readRequest rx junk desc buffers).2) name := by
  obtain ⟨case, -, slot, some_, text⟩ := arrived
  obtain ⟨reqId, reqIdStr⟩ := names.reqIdStr
  have local_ : desc.caseFlag ≠ caseIngress := by
    rw [case]
    decide
  obtain ⟨body, read⟩ := @readRequest_local rx desc local_ ⟨slot, some_⟩ junk buffers
  have brief : (creqId reqId).length < 64 := by
    have le : (creqId reqId).length ≤ 31 := List.length_take_le _ _
    omega
  rw [read, text]
  unfold readHeaderKeys inboundOf
  constructor
  · show snprintf 128 ((jsonGetStr _ (ascii "source_worker") 128).getD _) = name
    rw [names.sourceWorker, Option.getD_some, snprintf_eq_self short]
  · show CleanBytes (snprintf 64 ((jsonGetStr _ (ascii "req_id_str") 64).getD _))
    rw [reqIdStr, Option.getD_some, snprintf_eq_self brief]
    exact cleanBytes_creqId reqId

/-- A request that is read into a free entry. -/
theorem Sound.open {mesh : Mesh} {rows : List Registration} (sound : Sound mesh rows) {callee : Nat}
    {worker : Worker} (found : mesh.workers[callee]? = some worker) {rx : RxPools} {junk : Bytes}
    {desc : SwDescriptor}
    (free : ∀ request ∈ mesh.opened, request.callee = callee →
      request.index ≠ desc.reqId % maxPending)
    {requester : Option Int}
    (keeps : ∀ podId, requester = some podId → ∃ row ∈ rows, podId = row.podId ∧
      Keeps (inboundOf (readRequest rx junk desc worker.buffers).2) row.name) :
    Sound (mesh.open callee worker rx junk desc requester) rows where
  registered := sound.registered.set found (dpumeshRead rx junk worker desc).1 ⟨rfl, rfl⟩
    ⟨rfl, rfl, rfl⟩
  asked := sound.asked
  opened := by
    intro request member podId asks
    rcases List.mem_append.mp member with old | new
    · obtain ⟨row, rowMember, same, kept⟩ := sound.opened request old podId asks
      refine ⟨row, rowMember, same,
        keeps_set found (dpumeshRead rx junk worker desc).1 (fun here => ?_) kept⟩
      rw [dpumeshRead_inbound, Function.update_of_ne (free request old here)]
      exact ⟨rfl, rfl⟩
    · have shape := List.mem_singleton.mp new
      have index : request.index = desc.reqId % maxPending := by
        rw [shape]
        exact readRequest_descIndex rx junk desc worker.buffers
      have callee_ : request.callee = callee := by
        rw [shape]
      obtain ⟨row, rowMember, same, entry⟩ := keeps podId (by rw [← asks, shape])
      have below : callee < mesh.workers.length := (List.getElem?_eq_some_iff.mp found).1
      refine ⟨row, rowMember, same, (dpumeshRead rx junk worker desc).1, ?_, ?_⟩
      · rw [callee_]
        exact List.getElem?_set_self below
      · rw [dpumeshRead_inbound, index, Function.update_self]
        exact entry
  distinct := by
    apply List.pairwise_append.mpr
    refine ⟨sound.distinct, List.pairwise_singleton _ _, ?_⟩
    intro old member new isNew sameCallee
    rw [List.mem_singleton.mp isNew] at sameCallee ⊢
    have other := free old member sameCallee
    have index := readRequest_descIndex rx junk desc worker.buffers
    show old.index ≠ (readRequest rx junk desc worker.buffers).2.descIndex
    rw [index]
    exact other
  answered := sound.answered
  home := sound.home

/-- An answer from an entry that names the worker that asked. -/
theorem Sound.answer {mesh : Mesh} {rows : List Registration} (sound : Sound mesh rows)
    {which : Nat} {request : Open} (found : mesh.opened[which]? = some request) {worker : Worker}
    (callee : mesh.workers[request.callee]? = some worker) (status : Status) :
    Sound { mesh with
      workers := mesh.workers.set request.callee (writeResponse worker request.index status.val).1
      opened := mesh.opened.eraseIdx which
      answered := mesh.answered ++ [⟨request.requester,
        (writeResponse worker request.index status.val).2.header⟩] } rows where
  registered := sound.registered.set callee (writeResponse worker request.index status.val).1
    ⟨rfl, rfl⟩ ⟨rfl, rfl, rfl⟩
  asked := sound.asked
  opened := by
    intro other member podId asks
    obtain ⟨row, rowMember, same, kept⟩ :=
      sound.opened other (List.mem_of_mem_eraseIdx member) podId asks
    -- Only the entry's `active` changes, which no answer reads.
    have table : ∀ index,
        ((writeResponse worker request.index status.val).1.inbound index).sourceWorker =
            (worker.inbound index).sourceWorker ∧
          ((writeResponse worker request.index status.val).1.inbound index).reqIdStr =
            (worker.inbound index).reqIdStr := by
      intro index
      unfold writeResponse
      dsimp only
      by_cases here : index = request.index
      · rw [here, Function.update_self]
        exact ⟨rfl, rfl⟩
      · rw [Function.update_of_ne here]
        exact ⟨rfl, rfl⟩
    exact ⟨row, rowMember, same,
      keeps_set callee (writeResponse worker request.index status.val).1 (fun _ => table _) kept⟩
  distinct := sound.distinct.sublist (List.eraseIdx_sublist _ _)
  answered := by
    intro answered member podId asks
    rcases List.mem_append.mp member with old | new
    · exact sound.answered answered old podId asks
    · have shape := List.mem_singleton.mp new
      obtain ⟨row, rowMember, same, other, there, keeps⟩ :=
        sound.opened request (List.mem_of_getElem? found) podId (by rw [← asks, shape])
      obtain rfl : worker = other := Option.some.inj (callee.symm.trans there)
      obtain ⟨own, ownMember, ownName, -⟩ := sound.registered.row (List.mem_of_getElem? callee)
      refine ⟨row, rowMember, same, fun float => ?_⟩
      have workerId : CleanBytes worker.workerId := by
        rw [ownName]
        exact own.name_plain.cleanBytes
      obtain ⟨info, decoded, holds⟩ := responseInfo_of_clean float status.property.1
        status.property.2 keeps.reqIdStr workerId row.name_plain.cleanBytes
      refine ⟨info, ?_, holds.destWorker_held⟩
      rw [shape, ← decoded, ← keeps.sourceWorker]
      rfl
  home := sound.home

/-- An answer that is routed while its requester is the last of its name. -/
theorem Sound.route {mesh : Mesh} {rows : List Registration} (sound : Sound mesh rows)
    {which : Nat} {answered : Answered} (found : mesh.answered[which]? = some answered)
    {desc : SwDescriptor} {txHeader : BufferPool} (atHand : AtHand answered desc txHeader)
    (float : PyStr → Numeral)
    (last : ∀ podId, answered.requester = some podId → LastOfName mesh podId) :
    Sound { mesh with
      answered := mesh.answered.eraseIdx which
      returned := mesh.returned ++ [⟨answered.requester, mesh.routeOf float desc txHeader⟩] } rows where
  registered := sound.registered.same ⟨rfl, rfl, rfl⟩
  asked := sound.asked
  opened := sound.opened
  distinct := sound.distinct
  answered := fun other member => sound.answered other (List.mem_of_mem_eraseIdx member)
  home := by
    intro returned member
    rcases List.mem_append.mp member with old | new
    · exact sound.home returned old
    · rw [List.mem_singleton.mp new]
      exact (sound.home_iff (List.mem_of_getElem? found) atHand float).mpr last

/-- Every step that keeps the names whole and routes no repeated name leaves the
mesh sound. -/
theorem sound_step {mesh next : Mesh} {event : MeshEvent} (sound : ∃ rows, Sound mesh rows)
    (whole : Whole mesh event) (unrepeated : Unrepeated mesh event)
    (taken : mesh.step event = some next) : ∃ rows, Sound next rows := by
  obtain ⟨rows, sound⟩ := sound
  unfold Mesh.step at taken
  cases event with
  | start app workerId =>
      dsimp only at taken
      by_cases small : podRegistryAllocId mesh.counter < 2 ^ 31
      · rw [if_pos small] at taken
        rw [← Option.some.inj taken]
        exact sound.start small whole
      · rw [if_neg small] at taken
        contradiction
  | ask caller method url =>
      dsimp only at taken
      cases found : mesh.workers[caller]? with
      | none =>
          rw [found] at taken
          contradiction
      | some worker =>
          rw [found] at taken
          rw [← Option.some.inj taken]
          exact ⟨rows, sound.ask found (whole worker found)⟩
  | read which callee rx junk desc =>
      dsimp only at taken
      cases asked_ : mesh.asked[which]? with
      | none =>
          rw [asked_] at taken
          contradiction
      | some asked =>
          cases found : mesh.workers[callee]? with
          | none =>
              rw [asked_, found] at taken
              contradiction
          | some worker =>
              rw [asked_, found] at taken
              dsimp only at taken
              by_cases arrived : Arrived asked rx desc
              · rw [if_pos arrived] at taken
                rw [← Option.some.inj taken]
                obtain ⟨row, rowMember, podId, names⟩ :=
                  sound.asked asked (List.mem_of_getElem? asked_)
                have short := sound.registered.short row rowMember
                have read : Sound (mesh.open callee worker rx junk desc (some asked.requester)) rows :=
                  sound.open found whole fun other same =>
                    ⟨row, rowMember, by rw [← Option.some.inj same, podId],
                      keeps_of_arrived names short arrived junk worker.buffers⟩
                exact ⟨rows, read.registered.same ⟨rfl, rfl, rfl⟩,
                  fun other member => sound.asked other (List.mem_of_mem_eraseIdx member),
                  read.opened, read.distinct, read.answered, read.home⟩
              · rw [if_neg arrived] at taken
                contradiction
  | readIngress callee rx junk desc =>
      dsimp only at taken
      cases found : mesh.workers[callee]? with
      | none =>
          rw [found] at taken
          contradiction
      | some worker =>
          rw [found] at taken
          dsimp only at taken
          by_cases case : desc.caseFlag = caseIngress
          · rw [if_pos case] at taken
            rw [← Option.some.inj taken]
            exact ⟨rows, sound.open found whole fun podId asks => by contradiction⟩
          · rw [if_neg case] at taken
            contradiction
  | answer which status =>
      dsimp only at taken
      cases found : mesh.opened[which]? with
      | none =>
          rw [found] at taken
          contradiction
      | some request =>
          rw [found] at taken
          dsimp only at taken
          cases callee : mesh.workers[request.callee]? with
          | none =>
              rw [callee] at taken
              contradiction
          | some worker =>
              rw [callee] at taken
              rw [← Option.some.inj taken]
              exact ⟨rows, sound.answer found callee status⟩
  | route which float desc txHeader =>
      dsimp only at taken
      cases found : mesh.answered[which]? with
      | none =>
          rw [found] at taken
          contradiction
      | some answered =>
          rw [found] at taken
          dsimp only at taken
          by_cases atHand : AtHand answered desc txHeader
          · rw [if_pos atHand] at taken
            rw [← Option.some.inj taken]
            exact ⟨rows, sound.route found atHand float (unrepeated answered found)⟩
          · rw [if_neg atHand] at taken
            contradiction

/-- A step after which every answer has gone home has routed no repeated name. -/
theorem unrepeated_of_home {mesh next : Mesh} {event : MeshEvent} (sound : ∃ rows, Sound mesh rows)
    (taken : mesh.step event = some next) (home : AllHome next) : Unrepeated mesh event := by
  obtain ⟨rows, sound⟩ := sound
  cases event with
  | route which float desc txHeader =>
      intro answered found
      unfold Mesh.step at taken
      dsimp only at taken
      rw [found] at taken
      dsimp only at taken
      by_cases atHand : AtHand answered desc txHeader
      · rw [if_pos atHand] at taken
        rw [← Option.some.inj taken] at home
        exact (sound.home_iff (List.mem_of_getElem? found) atHand float).mp
          (home _ (List.mem_append_right _ List.mem_cons_self))
      · rw [if_neg atHand] at taken
        contradiction
  | start app workerId => trivial
  | ask caller method url => trivial
  | read which callee rx junk desc => trivial
  | readIngress callee rx junk desc => trivial
  | answer which status => trivial

/-! ### Whole runs -/

/-- A request whose header lies in the first slot. -/
def requestDesc (asked : Asked) : SwDescriptor where
  headerBufSlot := 0
  headerLen := asked.header.length
  reqId := asked.reqId
  flags := caseLocal
  valid := 1

/-- A pool with one text in its first slot. -/
def poolWith (text : Bytes) : BufferPool := BufferPool.zeroed.copyIn (BufferPool.offset (0 : Int).toNat) text

def answerDesc (answered : Answered) : SwDescriptor where
  headerBufSlot := 0
  headerLen := answered.header.length
  flags := opResponse ||| caseLocal
  valid := 1

theorem arrived_poolWith {asked : Asked} (nonempty : 0 < asked.header.length)
    (fits : asked.header.length < headerBufSize) :
    Arrived asked ⟨poolWith asked.header, .zeroed⟩ (requestDesc asked) := by
  have whole : copiedHeader asked.header = asked.header :=
    List.take_of_length_le (by omega)
  have slot : (0 : Int) ≤ 0 ∧ (0 : Int) < numSlots := by decide
  have case : caseLocal &&& 0x0F = caseLocal := by decide
  have text := @localHeaderText_copyIn .zeroed .zeroed (requestDesc asked) asked.header slot rfl fits
  refine ⟨case, rfl, slot.1, nonempty, ?_⟩
  rw [whole]
  exact text

theorem atHand_poolWith {answered : Answered} (nonempty : 0 < answered.header.length)
    (fits : answered.header.length ≤ slotSize) :
    AtHand answered (answerDesc answered) (poolWith answered.header) := by
  have slot : (0 : Int) ≤ 0 ∧ (0 : Int) < numSlots := by decide
  exact ⟨slot.1, nonempty, BufferPool.bpRead_copyIn .zeroed slot fits⟩

/-- The frontend and the id service of the manifest, and pods of theirs. -/
def frontendApp : AppName := ⟨ascii "frontend", forall_mem_of_all (by decide), by decide⟩
def idApp : AppName := ⟨ascii "id-service", forall_mem_of_all (by decide), by decide⟩
def firstPod : Bytes := ascii "frontend-worker-7c9d-x2"
def secondPod : Bytes := ascii "frontend-worker-7c9d-k8"
def idPod : Bytes := ascii "id-service-worker-55f6-p4"

/-- The first frontend. -/
def firstFrontend : Worker := Worker.init (workerName frontendApp (workerNum firstPod)) 1

def idUrl : Bytes := ascii "http://id-service/id?name=bob"

/-- Its request. -/
def firstAsked : Asked :=
  ⟨1, 1, (writeRequest firstFrontend (ascii "GET") idUrl).2.header⟩

theorem naming_first : Naming firstFrontend (ascii "GET") idUrl where
  reqIdStr := by decide +kernel
  sourceWorker := by decide +kernel
  noNul := by decide +kernel
  short := by decide +kernel

theorem length_firstAsked : 0 < firstAsked.header.length ∧ firstAsked.header.length < headerBufSize := by
  decide +kernel

/-- The id service, with the pod id that it gets. -/
def idWorker (podId : Nat) : Worker := Worker.init (workerName idApp (workerNum idPod)) podId

def status200 : Status := ⟨200, by decide⟩

/-- The first frontend sends its request, and the id service reads it and
answers it. -/
def exchange (callee : Nat) : List MeshEvent :=
  [.ask 0 (ascii "GET") idUrl,
    .read 0 callee ⟨poolWith firstAsked.header, .zeroed⟩ [] (requestDesc firstAsked),
    .answer 0 status200]

/-- The answer of the id service. -/
def firstAnswered : Answered :=
  ⟨some 1, headerText [] [] [] [] 200 (creqId 1) (workerName idApp (workerNum idPod))
    (workerName frontendApp (workerNum firstPod))⟩

/-- A mesh with these workers in which nothing is under way. -/
def quiet (counter : Option Nat) (registry : Option Bytes) (workers : List Worker) : Mesh :=
  ⟨counter, registry, workers, [], [], [], []⟩

/-- The mesh after the exchange. -/
def waiting (counter : Option Nat) (registry : Option Bytes) (workers : List Worker) : Mesh :=
  ⟨counter, registry, workers, [], [], [firstAnswered], []⟩

/-- What the id service has in its table after it has read the request. -/
def firstInbound : Inbound where
  reqId := 1
  reqIdStr := creqId 1
  sourceWorker := workerName frontendApp (workerNum firstPod)
  caseFlag := caseLocal
  active := true

theorem inboundOf_first (junk : Bytes) (buffers : StaticBuffers) :
    inboundOf (readRequest ⟨poolWith firstAsked.header, .zeroed⟩ junk
      (requestDesc firstAsked) buffers).2 = firstInbound := by
  obtain ⟨case, id, slot, some_, text⟩ :=
    arrived_poolWith length_firstAsked.1 length_firstAsked.2
  have local_ : (requestDesc firstAsked).caseFlag ≠ caseIngress := by
    rw [case]
    decide
  obtain ⟨body, read⟩ := @readRequest_local ⟨poolWith firstAsked.header, .zeroed⟩ _ local_
    ⟨slot, some_⟩ junk buffers
  have plain : PlainName firstFrontend.workerId := plainName_workerName frontendApp _
  have header := naming_first.cstr_copiedHeader (plain.notMem (Or.inl (by decide)))
  have reqIdStr := naming_first.reqIdStr_read
  have sourceWorker := naming_first.sourceWorker_read (plain.notMem (Or.inr (Or.inl rfl)))
    (length_workerName frontendApp _)
  rw [read, text]
  show inboundOf { (readHeaderKeys (cstr (copiedHeader (writeRequest firstFrontend _ idUrl).2.header))
    buffers _).2 with body := body } = _
  rw [header]
  unfold readHeaderKeys inboundOf
  dsimp only
  rw [reqIdStr, sourceWorker]
  rfl

theorem exchange_taken (counter : Option Nat) (registry : Option Bytes) {workers : List Worker}
    {callee podId : Nat} (asks : workers[0]? = some firstFrontend)
    (answers : workers[callee]? = some (idWorker podId)) (other : callee ≠ 0) :
    ∃ after, run Mesh.step (quiet counter registry workers) (exchange callee) =
        some (waiting counter registry after) ∧
      after.map (fun worker => (worker.workerId, worker.podId)) =
        workers.map (fun worker => (worker.workerId, worker.podId)) ∧
      EachStep Mesh.step Whole (quiet counter registry workers) (exchange callee) ∧
      ((∃ rows, Sound (quiet counter registry workers) rows) →
        ∃ rows, Sound (waiting counter registry after) rows) := by
  let caller := (writeRequest firstFrontend (ascii "GET") idUrl).1
  let rx : RxPools := ⟨poolWith firstAsked.header, .zeroed⟩
  let desc := requestDesc firstAsked
  let reader := (dpumeshRead rx [] (idWorker podId) desc).1
  let writer := (writeResponse reader (desc.reqId % maxPending) 200).1
  let first := workers.set 0 caller
  let second := first.set callee reader
  have found : first[callee]? = some (idWorker podId) := by
    rw [List.getElem?_set_ne (Ne.symm other)]
    exact answers
  have below : callee < first.length := (List.getElem?_eq_some_iff.mp found).1
  have foundReader : second[callee]? = some reader := List.getElem?_set_self below
  have arrived : Arrived firstAsked rx desc := arrived_poolWith length_firstAsked.1 length_firstAsked.2
  have index : (dpumeshRead rx [] (idWorker podId) desc).2.descIndex = desc.reqId % maxPending :=
    readRequest_descIndex rx [] desc _
  have entry : reader.inbound (desc.reqId % maxPending) = firstInbound := by
    show (dpumeshRead rx [] (idWorker podId) desc).1.inbound _ = _
    rw [dpumeshRead_inbound, Function.update_self]
    exact inboundOf_first _ _
  have asked : (quiet counter registry workers).step (.ask 0 (ascii "GET") idUrl) =
      some ⟨counter, registry, first, [firstAsked], [], [], []⟩ := by
    unfold Mesh.step quiet
    dsimp only
    rw [asks]
    rfl
  have read : Mesh.step ⟨counter, registry, first, [firstAsked], [], [], []⟩ (.read 0 callee rx [] desc) =
      some ⟨counter, registry, second, [], [⟨callee, desc.reqId % maxPending, some 1⟩], [], []⟩ := by
    unfold Mesh.step
    dsimp only
    rw [found]
    show (if Arrived firstAsked rx desc then _ else _) = _
    rw [if_pos arrived]
    unfold Mesh.open
    dsimp only
    rw [index]
    rfl
  have answered : Mesh.step
      ⟨counter, registry, second, [], [⟨callee, desc.reqId % maxPending, some 1⟩], [], []⟩
      (.answer 0 status200) = some (waiting counter registry (second.set callee writer)) := by
    have header : (writeResponse reader (desc.reqId % maxPending) 200).2.header =
        firstAnswered.header := by
      unfold writeResponse
      dsimp only
      rw [entry]
      rfl
    have shape : firstAnswered = ⟨some 1, firstAnswered.header⟩ := rfl
    unfold Mesh.step
    show (match second[callee]? with | none => none | some worker => _) = _
    rw [foundReader]
    unfold waiting
    rw [shape, ← header]
    rfl
  have naming : Whole (quiet counter registry workers) (.ask 0 (ascii "GET") idUrl) := by
    intro worker isFirst
    obtain rfl := Option.some.inj (asks.symm.trans isFirst)
    exact naming_first
  have free : Whole ⟨counter, registry, first, [firstAsked], [], [], []⟩ (.read 0 callee rx [] desc) :=
    List.forall_mem_nil _
  refine ⟨second.set callee writer, ?_, ?_, ?_, ?_⟩
  · exact run_cons.mpr ⟨_, asked, run_cons.mpr ⟨_, read, run_cons.mpr ⟨_, answered, rfl⟩⟩⟩
  · let named : Worker → Bytes × Int := fun worker => (worker.workerId, worker.podId)
    have toCaller : first.map named = workers.map named := map_set_of_same named asks rfl
    have toReader : second.map named = first.map named := map_set_of_same named found rfl
    have toWriter : (second.set callee writer).map named = second.map named :=
      map_set_of_same named foundReader rfl
    exact toWriter.trans (toReader.trans toCaller)
  · exact eachStep_cons asked naming (eachStep_cons read free (eachStep_cons answered trivial trivial))
  · intro sound
    have soundAsked := sound_step sound naming trivial asked
    have soundRead := sound_step soundAsked free trivial read
    have anyway : Whole ⟨counter, registry, second, [],
      [⟨callee, desc.reqId % maxPending, some 1⟩], [], []⟩ (.answer 0 status200) := trivial
    exact sound_step soundRead anyway trivial answered

/-- The answer lies in the first slot when the router takes it. -/
def routed : MeshEvent :=
  .route 0 (fun _ => ⟨[], numeral_nil⟩) (answerDesc firstAnswered)
    (poolWith firstAnswered.header)

theorem atHand_first :
    AtHand firstAnswered (answerDesc firstAnswered) (poolWith firstAnswered.header) :=
  atHand_poolWith (by decide +kernel) (by decide +kernel)

theorem routed_taken (counter : Option Nat) (registry : Option Bytes) (workers : List Worker) :
    ∃ next, (waiting counter registry workers).step routed = some next := by
  unfold Mesh.step waiting routed
  dsimp only [List.getElem?_cons_zero]
  rw [if_pos atHand_first]
  exact ⟨_, rfl⟩

/-- A worker that starts. -/
theorem start_taken {mesh : Mesh} {app : AppName} {workerId : Bytes}
    (small : podRegistryAllocId mesh.counter < 2 ^ 31) :
    mesh.step (.start app workerId) = some (mesh.start app workerId) := if_pos small

/-- The names decide which worker is the last. -/
theorem lastOfName_iff_pairs (mesh : Mesh) (podId : Int) :
    LastOfName mesh podId ↔
      ∀ pair ∈ mesh.workers.map (fun worker => (worker.workerId, worker.podId)), pair.2 = podId →
        ∀ other ∈ mesh.workers.map (fun worker => (worker.workerId, worker.podId)),
          other.1 = pair.1 → other.2 ≤ podId := by
  unfold LastOfName
  simp only [List.forall_mem_map]

/-- A frontend and an id service. -/
def oneFrontend : Mesh := (Mesh.start {} frontendApp firstPod).start idApp idPod

/-- They start, and an answer comes back. -/
def oneExchange : List MeshEvent :=
  .start frontendApp firstPod :: .start idApp idPod :: (exchange 1 ++ [routed])

/-- Two frontends of one deployment, and an id service. -/
def twoFrontends : Mesh :=
  ((Mesh.start {} frontendApp firstPod).start frontendApp secondPod).start idApp idPod

theorem sound_twoFrontends : ∃ rows, Sound twoFrontends rows := by
  have firstWhole : Whole {} (.start frontendApp firstPod) := by
    show (registerText _ _ _ _).length < registrySize
    decide +kernel
  have secondWhole : Whole (Mesh.start {} frontendApp firstPod) (.start frontendApp secondPod) := by
    show (registerText _ _ _ _).length < registrySize
    decide +kernel
  have thirdWhole : Whole ((Mesh.start {} frontendApp firstPod).start frontendApp secondPod)
      (.start idApp idPod) := by
    show (registerText _ _ _ _).length < registrySize
    decide +kernel
  have first := sound_step ⟨[], sound_initial⟩ firstWhole trivial (start_taken (by decide))
  have second := sound_step first secondWhole trivial (start_taken (by decide))
  exact sound_step second thirdWhole trivial (start_taken (by decide))

end MiniMs.Daemon

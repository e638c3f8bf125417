import MiniMs.Daemon.Startup
import MiniMs.Library.Files

/-!
Who maps which file: the daemons and the workers of a node, from their start on.

Owns: the clean-up that the DMA manager starts with, the steps in which the
sidecar connects, the steps of `dpumesh_init` on a directory in which a name that
is unlinked and created again leads to another file, and the caches of both
daemons; the exact condition for a worker and a later look-up to map the same file,
and the order of starts under which every look-up finds what the worker mapped.

Each attempt to open the files of one Python object is one step. Lock files and
the contents of the mapped files are not owned here, and neither is a worker that
ends: it leaves its files and its entry as they are.
-/

namespace MiniMs.Daemon.Attachments

open MiniMs.Dpumesh MiniMs.Library.Text MiniMs.Library.Json MiniMs.Library.Run
open MiniMs.Library.Files MiniMs.Library.Files.Directory

deriving instance DecidableEq for InitStep

/-! ### Files -/

/-- The files behind the prefix in `/dev/shm`. The pools of the DPU are named as
those of a service `dpu` would be. -/
inductive NodeFile where
  | shm (name : ShmName)
  | sidecarTxSq
  | sidecarRxSq
  | podRegistry
  | podIdCounter
  deriving DecidableEq

/-- `DpuPools`. -/
def dpuPools : List NodeFile :=
  [.txHeader, .txBody, .rxBody].map fun kind => .shm (.pool kind (lit "dpu"))

/-- `DpuSQs`. -/
def dpuSqs : List NodeFile := [.sidecarTxSq, .sidecarRxSq]

/-- `ServicePools`. -/
def servicePools (service : PyStr) : List NodeFile :=
  [.txHeader, .txBody, .rxHeader, .rxBody].map fun kind => .shm (.pool kind service)

/-- `WorkerSQs`. -/
def workerSqs (podId : Int) : List NodeFile := [.shm (.ring .txSq podId), .shm (.ring .rxSq podId)]

/-! ### Processes -/

/-- A call of `dpumesh_init` with what it has mapped. -/
structure Starting where
  call : InitCall
  registered : Bool := false
  held : FileKind → Option Nat := fun _ => none

def Starting.file (starting : Starting) (kind : FileKind) : NodeFile :=
  .shm (starting.call.fileName kind)

/-- `dpumesh_init` has returned 0. -/
def Starting.Finished (starting : Starting) : Prop :=
  starting.call.rest = [] ∧ starting.call.failed = false

/-- `ServicePools._instances`. -/
abbrev Instances := PyStr → Option (List Nat)

/-- `PodResources`. -/
structure PodResources where
  service : PyStr
  pools : List Nat
  sqs : List Nat

/-- How far `DMAManager.run` is: the names that `glob` listed are removed one by one,
and the DPU's files are created and mapped one by one. With none of these left it
polls. -/
inductive Phase where
  | starting
  | cleaning (listed : List NodeFile)
  | reset
  | creating (rest : List NodeFile)
  | attaching (file : NodeFile) (rest : List NodeFile)

structure DmaManager where
  phase : Phase := .starting
  held : NodeFile → Option Nat := fun _ => none
  knownPods : List Int := []
  instances : Instances := fun _ => none
  podCache : Int → Option PodResources := fun _ => none

structure SidecarDaemon where
  dpuPools : Option (List Nat) := none
  dpuSqs : Option (List Nat) := none
  instances : Instances := fun _ => none

structure Node where
  dir : Directory NodeFile := empty
  counter : Option Nat := none
  registry : Option Bytes := none
  calls : List Starting := []
  dma : Option DmaManager := none
  sidecar : Option SidecarDaemon := none

/-! ### The daemons -/

/-- `glob.glob`. -/
def Node.list (node : Node) : List NodeFile :=
  node.dir.names ++ (if node.registry.isSome then [.podRegistry] else []) ++
    (if node.counter.isSome then [.podIdCounter] else [])

/-- `os.remove`. -/
def Node.remove (node : Node) (file : NodeFile) : Node :=
  { node with
    dir := node.dir.unlink file
    registry := if file = .podRegistry then none else node.registry
    counter := if file = .podIdCounter then none else node.counter }

/-- `PodRegistry.get_all`: each name with its pod id, read as for a service. -/
def getAll (float : PyStr → Numeral) (file : Option Bytes) : List (PyStr × Value) :=
  match deserializeHeader float (file.getD (ascii "\x7b\x7d")) with
  | some (.object data) => data.map fun member =>
      (member.1, (entryWorker member.1 member.2).2)
  | _ => []

def addKnown (known : List Int) (podId : Int) : List Int :=
  if podId ∈ known then known else known ++ [podId]

/-- `_scan_pods`: a round of its loop. -/
def DmaManager.scan (float : PyStr → Numeral) (dma : DmaManager) (registry : Option Bytes) :
    DmaManager :=
  let podIds := (getAll float registry).filterMap fun entry => intOf entry.2
  { dma with knownPods := podIds.foldl addKnown dma.knownPods }

/-- `ServicePools.get_or_create`; `none` where a pool cannot be opened. -/
def getOrCreate (dir : Directory NodeFile) (instances : Instances) (service : PyStr) :
    Option (List Nat × Instances) :=
  match instances service with
  | some pools => some (pools, instances)
  | none => (dir.openAll (servicePools service)).map fun pools =>
      (pools, Function.update instances service (some pools))

/-- The service that `resolve_pool` goes on with. -/
def serviceOf (float : PyStr → Numeral) (registry : Option Bytes) (podId : Int) : Option PyStr :=
  match getService float registry podId with
  | .string service => if service = [] then none else some service
  | _ => none

/-- `resolve_pool` for a pool of the host: the pools of the pod's service. -/
def resolvePools (float : PyStr → Numeral) (node : Node) (instances : Instances) (podId : Int) :
    Option (List Nat) × Instances :=
  match (serviceOf float node.registry podId).bind (getOrCreate node.dir instances) with
  | some (pools, instances) => (some pools, instances)
  | none => (none, instances)

/-- `_get_pod_resources`; `app` stands in where the pod has no service. -/
def DmaManager.getPodResources (float : PyStr → Numeral) (app : PyStr) (node : Node)
    (dma : DmaManager) (podId : Int) : Option PodResources × DmaManager :=
  match dma.podCache podId with
  | some resources => (some resources, dma)
  | none =>
      let service := (serviceOf float node.registry podId).getD app
      match getOrCreate node.dir dma.instances service with
      | none => (none, dma)
      | some (pools, instances) =>
          let dma := { dma with instances := instances }
          match node.dir.openAll (workerSqs podId) with
          | none => (none, dma)
          | some sqs => (some ⟨service, pools, sqs⟩,
              { dma with podCache := Function.update dma.podCache podId (some ⟨service, pools, sqs⟩) })

inductive DmaEvent where
  /-- The daemon starts, anew where it ran before. -/
  | start
  | glob
  | remove (file : NodeFile)
  /-- The pod id counter is set to 0, if it can be written. -/
  | reset (written : Bool)
  /-- `PodRegistry.clear`. -/
  | clear (written : Bool)
  /-- `_init_storage`. -/
  | create
  /-- A created file is mapped. -/
  | attach
  | scan
  | lookup (podId : Int)
  | resolve (podId : Int)

def Node.dmaStep (float : PyStr → Numeral) (app : PyStr) (node : Node) (dma : DmaManager) :
    Phase → DmaEvent → Option Node
  | .starting, .glob => some { node with dma := some { dma with phase := .cleaning node.list } }
  | .cleaning listed, .remove file =>
      if file ∈ listed then
        some { node.remove file with
          dma := some { dma with phase := .cleaning (listed.filter (· ≠ file)) } }
      else none
  | .cleaning [], .reset written =>
      some { node with
        counter := if written then some 0 else node.counter
        dma := some { dma with phase := .reset } }
  | .reset, .clear written =>
      some { node with
        registry := if written then some (ascii "\x7b\x7d") else node.registry
        dma := some { dma with phase := .creating (dpuPools ++ dpuSqs) } }
  | .creating (file :: rest), .create =>
      some { node with
        dir := node.dir.create file
        dma := some { dma with phase := .attaching file rest } }
  | .attaching file rest, .attach =>
      some { node with dma := some { dma with
        phase := .creating rest
        held := Function.update dma.held file (node.dir.entry file) } }
  | .creating [], .scan => some { node with dma := some (dma.scan float node.registry) }
  | .creating [], .lookup podId =>
      some { node with dma := some (dma.getPodResources float app node podId).2 }
  | .creating [], .resolve podId =>
      let resolved := resolvePools float node dma.instances podId
      some { node with dma := some { dma with instances := resolved.2 } }
  | _, _ => none

inductive SidecarEvent where
  /-- The daemon starts, anew where it ran before. -/
  | start
  /-- `DpuPools.get_or_create`; the loop that waits tries again where it raises. -/
  | connectPools
  | connectSqs
  | resolve (podId : Int)

def Node.sidecarStep (float : PyStr → Numeral) (node : Node) (sidecar : SidecarDaemon) :
    SidecarEvent → Option SidecarDaemon
  | .start => none
  | .connectPools =>
      if sidecar.dpuPools.isNone then
        some { sidecar with dpuPools := node.dir.openAll dpuPools }
      else none
  | .connectSqs =>
      if sidecar.dpuPools.isSome ∧ sidecar.dpuSqs.isNone then
        some { sidecar with dpuSqs := node.dir.openAll dpuSqs }
      else none
  | .resolve podId =>
      if sidecar.dpuSqs.isSome then
        some { sidecar with instances := (resolvePools float node sidecar.instances podId).2 }
      else none

/-! ### The workers -/

/-- One step of `dpumesh_init`; what is left of the call is already noted. -/
def Node.perform (node : Node) (starting : Starting) :
    InitStep → Outcome → Option (Node × Starting)
  | .allocId, .done =>
      let podId := podRegistryAllocId node.counter
      if podId < 2 ^ 31 then
        some ({ node with counter := some podId },
          { starting with call := { starting.call with podId := podId } })
      else none
  | .allocId, .unwritten =>
      let podId := podRegistryAllocId node.counter
      if podId < 2 ^ 31 then
        some (node, { starting with call := { starting.call with podId := podId } })
      else none
  | .register, .done =>
      some ({ node with registry := some (starting.call.registered node.registry) },
        { starting with registered := true })
  | .register, .unwritten => some (node, starting)
  -- The result of `pod_registry_register` is not looked at.
  | .register, .failed => none
  | .openFile kind, .done => some ({ node with dir := node.dir.create (starting.file kind) }, starting)
  -- The file is opened a second time, by its name.
  | .attachFile kind, .done =>
      (node.dir.entry (starting.file kind)).map fun file =>
        (node, { starting with held := Function.update starting.held kind (some file) })
  | .calloc, .done | .clearFile _, .done | .notifyPipe, .done | .poller, .done =>
      some (node, starting)
  | _, .failed =>
      some (node, { starting with call := { starting.call with rest := [], failed := true } })
  | _, .unwritten => none

inductive Event where
  /-- A process calls `dpumesh_init`. -/
  | call (app : AppName) (workerNum : Int)
  /-- A call does its next step. -/
  | step (index : Nat) (outcome : Outcome)
  | dma (event : DmaEvent)
  | sidecar (event : SidecarEvent)

def Node.step (float : PyStr → Numeral) (app : PyStr) (node : Node) : Event → Option Node
  | .call app workerNum =>
      some { node with
        calls := node.calls ++ [{ call := { app := app, workerNum := workerNum } }] }
  | .step index outcome =>
      match node.calls[index]? with
      | none => none
      | some starting =>
          match starting.call.rest with
          | [] => none
          | first :: rest =>
              (node.perform { starting with call := { starting.call with rest := rest } }
                first outcome).map fun next =>
                  { next.1 with calls := next.1.calls.set index next.2 }
  | .dma .start => some { node with dma := some {} }
  | .dma event => node.dma.bind fun dma => node.dmaStep float app dma dma.phase event
  | .sidecar .start => some { node with sidecar := some {} }
  | .sidecar event =>
      (node.sidecar.bind fun sidecar => node.sidecarStep float sidecar event).map fun sidecar =>
        { node with sidecar := some sidecar }

/-! ### What is to hold -/

def poolKinds : List FileKind := [.txHeader, .txBody, .rxHeader, .rxBody]

def sqKinds : List FileKind := [.txSq, .rxSq]

/-- The files of a look-up are those that the worker has mapped. -/
def Starting.Maps (starting : Starting) (kinds : List FileKind) (files : List Nat) : Prop :=
  files.map some = kinds.map starting.held

/-- A worker whose `dpumesh_init` has returned 0 is found by the next scan, and both
daemons get the files that it has mapped when they look its pod up; and the DPU's
files are the same for both. -/
structure Node.Attached (float : PyStr → Numeral) (app : PyStr) (node : Node) : Prop where
  known : ∀ starting ∈ node.calls, starting.Finished → ∀ dma, node.dma = some dma →
    (starting.call.podId : Int) ∈ (dma.scan float node.registry).knownPods
  found : ∀ starting ∈ node.calls, starting.Finished → ∀ dma, node.dma = some dma →
    ∃ pools sqs, (dma.getPodResources float app node starting.call.podId).1 =
        some ⟨ofAscii starting.call.app.text, pools, sqs⟩ ∧
      starting.Maps poolKinds pools ∧ starting.Maps sqKinds sqs
  resolved : ∀ starting ∈ node.calls, starting.Finished → ∀ sidecar, node.sidecar = some sidecar →
    ∃ pools, (resolvePools float node sidecar.instances starting.call.podId).1 = some pools ∧
      starting.Maps poolKinds pools
  connected : ∀ dma sidecar, node.dma = some dma → dma.phase = .creating [] →
    node.sidecar = some sidecar →
      (∀ pools, sidecar.dpuPools = some pools → pools.map some = dpuPools.map dma.held) ∧
        ∀ sqs, sidecar.dpuSqs = some sqs → sqs.map some = dpuSqs.map dma.held

/-! ### The order of starts -/

def Phase.Cleaned : Phase → Prop
  | .creating _ | .attaching _ _ => True
  | _ => False

/-- The DMA manager has cleaned up. -/
def Node.Cleaned (node : Node) : Prop := ∃ dma, node.dma = some dma ∧ dma.phase.Cleaned

/-- The name that a worker registers. -/
def Starting.name (starting : Starting) : PyStr :=
  ofAscii (workerName starting.call.app starting.call.workerNum)

/-- The DMA manager starts before the others, anew only while no worker has started
and the sidecar has opened nothing; the counter and the registry can be written,
and the registry has room; workers have services and names of their own. -/
def Ordered (node : Node) : Event → Prop
  | .dma .start => node.calls = [] ∧ ∀ sidecar, node.sidecar = some sidecar → sidecar = {}
  | .dma (.reset written) | .dma (.clear written) => written = true
  | .call app _ => node.Cleaned ∧ app.text ≠ []
  | .sidecar .connectPools => node.Cleaned
  | .step _ .unwritten => False
  | .step index .done => ∀ starting, node.calls[index]? = some starting →
      starting.call.rest.head? = some .register →
        (registerText (node.registry.getD (ascii "\x7b\x7d"))
          (workerName starting.call.app starting.call.workerNum) starting.call.podId
          starting.call.app.text).length < registrySize ∧
        ∀ other ∈ node.calls, other.registered = true → other.name ≠ starting.name
  | _ => True

/-! ### The steps of a call -/

/-- What comes before what: the id before the entry, and the entry before the
files. -/
def ordered : List InitStep → Bool
  | [] => true
  | .allocId :: rest => InitStep.allocId ∉ rest ∧ InitStep.register ∈ rest
  | .register :: rest => InitStep.register ∉ rest ∧ InitStep.allocId ∉ rest
  | .openFile _ :: rest => InitStep.register ∉ rest ∧ InitStep.allocId ∉ rest
  | .attachFile kind :: rest => InitStep.allocId ∉ rest ∧ InitStep.attachFile kind ∉ rest
  | _ => true

theorem ordered_of_suffix {steps : List InitStep} (suffix : steps <:+ dpumeshInit) :
    ordered steps = true := by
  have all : dpumeshInit.tails.all ordered = true := by decide
  exact List.all_eq_true.mp all steps ((List.mem_tails _ _).mpr suffix)

/-- How far a call is, and what it has done by then. -/
structure Starting.Progress (starting : Starting) : Prop where
  stopped : starting.call.failed = true → starting.call.rest = []
  suffix : starting.call.rest <:+ dpumeshInit
  fresh : .allocId ∈ starting.call.rest → ∀ kind, starting.held kind = none
  unregistered : .register ∈ starting.call.rest → starting.registered = false
  numbered : starting.call.failed = false → .allocId ∉ starting.call.rest →
    starting.call.podId ≠ 0
  registered : starting.call.failed = false → .register ∉ starting.call.rest →
    starting.registered = true
  attached : starting.call.failed = false → ∀ kind, .attachFile kind ∉ starting.call.rest →
    ∃ file, starting.held kind = some file
  entered : starting.registered = true → starting.call.podId ≠ 0

/-- The steps of `dpumesh_init` by what they do. -/
inductive Performed (node : Node) (starting : Starting) :
    InitStep → Outcome → Node → Starting → Prop where
  | quiet (first : InitStep) (aside : first ≠ .allocId ∧ first ≠ .register ∧
      ∀ kind, first ≠ .attachFile kind ∧ first ≠ .openFile kind) :
      Performed node starting first .done node starting
  | failed (first : InitStep) : Performed node starting first .failed node
      { starting with call := { starting.call with rest := [], failed := true } }
  | allocUnwritten (small : podRegistryAllocId node.counter < 2 ^ 31) :
      Performed node starting .allocId .unwritten node { starting with call :=
        { starting.call with podId := podRegistryAllocId node.counter } }
  | registerUnwritten : Performed node starting .register .unwritten node starting
  | allocId (small : podRegistryAllocId node.counter < 2 ^ 31) :
      Performed node starting .allocId .done
        { node with counter := some (podRegistryAllocId node.counter) }
        { starting with call :=
          { starting.call with podId := podRegistryAllocId node.counter } }
  | register : Performed node starting .register .done
      { node with registry := some (starting.call.registered node.registry) }
      { starting with registered := true }
  | openFile (kind : FileKind) : Performed node starting (.openFile kind) .done
      { node with dir := node.dir.create (starting.file kind) } starting
  | attachFile (kind : FileKind) (file : Nat)
      (found : node.dir.entry (starting.file kind) = some file) :
      Performed node starting (.attachFile kind) .done node
        { starting with held := Function.update starting.held kind (some file) }

theorem performed_of_perform {node next : Node} {starting after : Starting} {first : InitStep}
    {outcome : Outcome} (performed : node.perform starting first outcome = some (next, after)) :
    Performed node starting first outcome next after := by
  cases outcome with
  | unwritten =>
      cases first with
      | register =>
          obtain ⟨rfl, rfl⟩ := Prod.mk.inj (Option.some.inj performed)
          exact .registerUnwritten
      | allocId =>
          by_cases small : podRegistryAllocId node.counter < 2 ^ 31
          · have shape : node.perform starting .allocId .unwritten =
                some (node, { starting with call :=
                  { starting.call with podId := podRegistryAllocId node.counter } }) :=
              if_pos small
            rw [shape] at performed
            obtain ⟨rfl, rfl⟩ := Prod.mk.inj (Option.some.inj performed)
            exact .allocUnwritten small
          · have shape : node.perform starting .allocId .unwritten = none := if_neg small
            rw [shape] at performed
            contradiction
      | calloc | openFile | clearFile | attachFile | notifyPipe | poller => contradiction
  | failed =>
      cases first with
      | register => contradiction
      | calloc | allocId | openFile | clearFile | attachFile | notifyPipe | poller =>
          obtain ⟨rfl, rfl⟩ := Prod.mk.inj (Option.some.inj performed)
          exact .failed _
  | done =>
      cases first with
      | calloc | clearFile | notifyPipe | poller =>
          obtain ⟨rfl, rfl⟩ := Prod.mk.inj (Option.some.inj performed)
          exact .quiet _ (by simp)
      | allocId =>
          by_cases small : podRegistryAllocId node.counter < 2 ^ 31
          · have shape : node.perform starting .allocId .done =
                some ({ node with counter := some (podRegistryAllocId node.counter) },
                  { starting with call :=
                    { starting.call with podId := podRegistryAllocId node.counter } }) :=
              if_pos small
            rw [shape] at performed
            obtain ⟨rfl, rfl⟩ := Prod.mk.inj (Option.some.inj performed)
            exact .allocId small
          · have shape : node.perform starting .allocId .done = none := if_neg small
            rw [shape] at performed
            contradiction
      | register =>
          obtain ⟨rfl, rfl⟩ := Prod.mk.inj (Option.some.inj performed)
          exact .register
      | openFile kind =>
          obtain ⟨rfl, rfl⟩ := Prod.mk.inj (Option.some.inj performed)
          exact .openFile kind
      | attachFile kind =>
          obtain ⟨file, found, same⟩ := Option.map_eq_some_iff.mp performed
          obtain ⟨rfl, rfl⟩ := Prod.mk.inj same
          exact .attachFile kind file found

section Progress

variable {node next : Node} {starting after : Starting} {first : InitStep} {rest : List InitStep}
  {outcome : Outcome}

theorem progress_new (app : AppName) (workerNum : Int) :
    Starting.Progress { call := { app := app, workerNum := workerNum } } where
  stopped := by simp
  suffix := List.suffix_rfl
  fresh := fun _ _ => rfl
  unregistered := fun _ => rfl
  numbered := fun _ outside => absurd (by decide : InitStep.allocId ∈ dpumeshInit) outside
  registered := fun _ outside => absurd (by decide : InitStep.register ∈ dpumeshInit) outside
  attached := by
    intro _ kind outside
    have inside : InitStep.attachFile kind ∈ dpumeshInit := by cases kind <;> decide
    exact absurd inside outside
  entered := by simp

/-- A call that goes on. -/
theorem Starting.Progress.running (progress : starting.Progress)
    (steps : starting.call.rest = first :: rest) : starting.call.failed = false := by
  cases failed : starting.call.failed with
  | false => rfl
  | true =>
      rw [progress.stopped failed] at steps
      contradiction

theorem Starting.Progress.perform (progress : starting.Progress)
    (steps : starting.call.rest = first :: rest) (written : outcome ≠ .unwritten)
    (performed : Performed node { starting with call := { starting.call with rest := rest } }
      first outcome next after) : after.Progress := by
  have running := progress.running steps
  have suffix : first :: rest <:+ dpumeshInit := steps ▸ progress.suffix
  have order := ordered_of_suffix suffix
  have shorter : rest <:+ dpumeshInit := (List.suffix_cons first rest).trans suffix
  have inside : ∀ {step : InitStep}, step ∈ rest → step ∈ starting.call.rest := by
    intro step member
    rw [steps]
    exact List.mem_cons_of_mem _ member
  have outside : ∀ {step : InitStep}, step ≠ first → step ∉ rest → step ∉ starting.call.rest := by
    intro step different absent
    rw [steps]
    exact List.not_mem_cons_of_ne_of_not_mem different absent
  cases performed with
  | allocUnwritten | registerUnwritten => exact absurd rfl written
  | quiet _ aside =>
      obtain ⟨alloc, register, files⟩ := aside
      exact {
        stopped := fun failed => absurd (running.symm.trans failed) (by decide)
        suffix := shorter
        fresh := fun member => progress.fresh (inside member)
        unregistered := fun member => progress.unregistered (inside member)
        numbered := fun _ absent => progress.numbered running (outside alloc.symm absent)
        registered := fun _ absent => progress.registered running (outside register.symm absent)
        attached := fun _ kind absent =>
          progress.attached running kind (outside (files kind).1.symm absent)
        entered := progress.entered }
  | failed =>
      exact {
        stopped := fun _ => rfl
        suffix := List.nil_suffix
        fresh := fun member => absurd member List.not_mem_nil
        unregistered := fun member => absurd member List.not_mem_nil
        numbered := fun failed => absurd failed (by simp)
        registered := fun failed => absurd failed (by simp)
        attached := fun failed => absurd failed (by simp)
        entered := progress.entered }
  | allocId small =>
      have absent : InitStep.allocId ∉ rest := by
        simp only [ordered, decide_eq_true_eq] at order
        exact order.1
      have positive : podRegistryAllocId node.counter ≠ 0 := by
        unfold podRegistryAllocId
        split <;> omega
      exact {
        stopped := fun failed => absurd (running.symm.trans failed) (by decide)
        suffix := shorter
        fresh := fun member => absurd member absent
        unregistered := fun member => progress.unregistered (inside member)
        numbered := fun _ _ => positive
        registered := fun _ absent => progress.registered running (outside (by simp) absent)
        attached := fun _ kind absent => progress.attached running kind (outside (by simp) absent)
        entered := fun _ => positive }
  | register =>
      have absent : InitStep.register ∉ rest ∧ InitStep.allocId ∉ rest := by
        simpa [ordered] using order
      have numbered := progress.numbered running (outside (by simp) absent.2)
      exact {
        stopped := fun failed => absurd (running.symm.trans failed) (by decide)
        suffix := shorter
        fresh := fun member => absurd member absent.2
        unregistered := fun member => absurd member absent.1
        numbered := fun _ _ => numbered
        registered := fun _ _ => rfl
        attached := fun _ kind absent => progress.attached running kind (outside (by simp) absent)
        entered := fun _ => numbered }
  | openFile kind =>
      have absent : InitStep.register ∉ rest ∧ InitStep.allocId ∉ rest := by
        simpa [ordered] using order
      exact {
        stopped := fun failed => absurd (running.symm.trans failed) (by decide)
        suffix := shorter
        fresh := fun member => absurd member absent.2
        unregistered := fun member => absurd member absent.1
        numbered := fun _ absent => progress.numbered running (outside (by simp) absent)
        registered := fun _ absent => progress.registered running (outside (by simp) absent)
        attached := fun _ kind absent => progress.attached running kind (outside (by simp) absent)
        entered := progress.entered }
  | attachFile kind file found =>
      have absent : InitStep.allocId ∉ rest := by
        simp only [ordered, decide_eq_true_eq] at order
        exact order.1
      exact {
        stopped := fun failed => absurd (running.symm.trans failed) (by decide)
        suffix := shorter
        fresh := fun member => absurd member absent
        unregistered := fun member => progress.unregistered (inside member)
        numbered := fun _ absent => progress.numbered running (outside (by simp) absent)
        registered := fun _ absent => progress.registered running (outside (by simp) absent)
        attached := by
          intro _ other absent
          show ∃ number, Function.update starting.held kind (some file) other = some number
          by_cases same : other = kind
          · rw [same, Function.update_self]
            exact ⟨file, rfl⟩
          · rw [Function.update_of_ne same]
            exact progress.attached running other (outside (by simpa using same) absent)
        entered := progress.entered }

end Progress

/-! ### What is mapped -/

def CurrentPools (dir : Directory NodeFile) (instances : Instances) : Prop :=
  ∀ service pools, instances service = some pools → dir.openAll (servicePools service) = some pools

/-- The DPU's files that are not mapped yet. -/
def Phase.left : Phase → List NodeFile
  | .creating rest => rest
  | .attaching file rest => file :: rest
  | _ => []

/-- What the DMA manager has mapped are the files that the names lead to. -/
structure DmaManager.Current (dir : Directory NodeFile) (dma : DmaManager) : Prop where
  held : ∀ name file, dma.held name = some file → dir.entry name = some file
  left : ∀ name ∈ dma.phase.left, name ∈ dpuPools ++ dpuSqs
  attached : ∀ name ∈ dpuPools ++ dpuSqs, name ∈ dma.phase.left ∨ ∃ file, dma.held name = some file
  created : ∀ name rest, dma.phase = .attaching name rest → ∃ file, dir.entry name = some file
  pools : CurrentPools dir dma.instances
  cache : ∀ podId resources, dma.podCache podId = some resources →
    dir.openAll (servicePools resources.service) = some resources.pools ∧
      dir.openAll (workerSqs podId) = some resources.sqs

structure SidecarDaemon.Current (dir : Directory NodeFile) (sidecar : SidecarDaemon) : Prop where
  pools : CurrentPools dir sidecar.instances
  dpuPools : ∀ files, sidecar.dpuPools = some files → dir.openAll Attachments.dpuPools = some files
  dpuSqs : ∀ files, sidecar.dpuSqs = some files → dir.openAll Attachments.dpuSqs = some files

/-- What a worker is known by. -/
structure Starting.Good (dir : Directory NodeFile) (starting : Starting) : Prop where
  progress : starting.Progress
  held : ∀ kind file, starting.held kind = some file → dir.entry (starting.file kind) = some file
  app : starting.call.app.text ≠ []
  small : starting.call.podId < 2 ^ 31

section Growing

variable {dir later : Directory NodeFile} {dma : DmaManager} {sidecar : SidecarDaemon}
  {starting : Starting}

def Grows (dir later : Directory NodeFile) : Prop :=
  ∀ name file, dir.entry name = some file → later.entry name = some file

theorem grows_create (dir : Directory NodeFile) (name : NodeFile) : Grows dir (dir.create name) :=
  fun _ _ found => dir.entry_create found name

theorem CurrentPools.grow {instances : Instances} (current : CurrentPools dir instances)
    (grows : Grows dir later) : CurrentPools later instances :=
  fun service pools cached => openAll_mono grows (current service pools cached)

theorem DmaManager.Current.grow (current : dma.Current dir) (grows : Grows dir later) :
    dma.Current later where
  held := fun name file held => grows name file (current.held name file held)
  left := current.left
  attached := current.attached
  created := fun name rest phase =>
    (current.created name rest phase).imp fun file found => grows name file found
  pools := current.pools.grow grows
  cache := fun podId resources cached =>
    have both := current.cache podId resources cached
    ⟨openAll_mono grows both.1, openAll_mono grows both.2⟩

theorem SidecarDaemon.Current.grow (current : sidecar.Current dir) (grows : Grows dir later) :
    sidecar.Current later where
  pools := current.pools.grow grows
  dpuPools := fun files mapped => openAll_mono grows (current.dpuPools files mapped)
  dpuSqs := fun files mapped => openAll_mono grows (current.dpuSqs files mapped)

theorem Starting.Good.grow (good : starting.Good dir) (grows : Grows dir later) :
    starting.Good later where
  progress := good.progress
  held := fun kind file held => grows _ file (good.held kind file held)
  app := good.app
  small := good.small

end Growing

/-! ### Look-ups -/

section LookUps

variable {float : PyStr → Numeral} {app : PyStr} {node : Node} {instances after : Instances}
  {service : PyStr} {pools : List Nat} {podId : Int}

theorem getOrCreate_current {dir : Directory NodeFile} (current : CurrentPools dir instances)
    (made : getOrCreate dir instances service = some (pools, after)) :
    dir.openAll (servicePools service) = some pools ∧ CurrentPools dir after := by
  unfold getOrCreate at made
  cases cached : instances service with
  | some files =>
      simp only [cached] at made
      obtain ⟨rfl, rfl⟩ := Prod.mk.inj (Option.some.inj made)
      exact ⟨current service files cached, current⟩
  | none =>
      simp only [cached] at made
      obtain ⟨files, opened, same⟩ := Option.map_eq_some_iff.mp made
      obtain ⟨rfl, rfl⟩ := Prod.mk.inj same
      refine ⟨opened, ?_⟩
      intro other held stored
      by_cases here : other = service
      · rw [here, Function.update_self] at stored
        rw [here, ← Option.some.inj stored]
        exact opened
      · rw [Function.update_of_ne here] at stored
        exact current other held stored

/-- Where the pools are there, they are found. -/
theorem exists_getOrCreate {dir : Directory NodeFile} (current : CurrentPools dir instances)
    (opened : dir.openAll (servicePools service) = some pools) :
    ∃ after, getOrCreate dir instances service = some (pools, after) := by
  unfold getOrCreate
  cases cached : instances service with
  | some files =>
      have same : files = pools :=
        Option.some.inj ((current service files cached).symm.trans opened)
      exact ⟨instances, by simp [same]⟩
  | none => exact ⟨_, by simp only [opened]; rfl⟩

theorem resolvePools_current (current : CurrentPools node.dir instances) :
    CurrentPools node.dir (resolvePools float node instances podId).2 := by
  unfold resolvePools
  cases made : (serviceOf float node.registry podId).bind (getOrCreate node.dir instances) with
  | none => exact current
  | some found =>
      obtain ⟨service, -, made⟩ := Option.bind_eq_some_iff.mp made
      exact (getOrCreate_current current made).2

/-- What a look-up does to the manager: it may keep the pools of a service, and then
the resources of the pod. -/
theorem getPodResources_cases (dma : DmaManager) (current : CurrentPools node.dir dma.instances)
    (podId : Int) :
    ∃ after, CurrentPools node.dir after ∧
      ((dma.getPodResources float app node podId).2 = { dma with instances := after } ∨
        ∃ pools sqs,
          node.dir.openAll (servicePools ((serviceOf float node.registry podId).getD app)) =
            some pools ∧
          node.dir.openAll (workerSqs podId) = some sqs ∧
          (dma.getPodResources float app node podId).2 = { dma with
            instances := after
            podCache := Function.update dma.podCache podId
              (some ⟨(serviceOf float node.registry podId).getD app, pools, sqs⟩) }) := by
  unfold DmaManager.getPodResources
  cases cached : dma.podCache podId with
  | some resources => exact ⟨dma.instances, current, Or.inl rfl⟩
  | none =>
      dsimp only
      cases made : getOrCreate node.dir dma.instances
          ((serviceOf float node.registry podId).getD app) with
      | none => exact ⟨dma.instances, current, Or.inl rfl⟩
      | some found =>
          obtain ⟨pools, after⟩ := found
          obtain ⟨opened, current'⟩ := getOrCreate_current current made
          refine ⟨after, current', ?_⟩
          dsimp only
          cases rings : node.dir.openAll (workerSqs podId) with
          | none => exact Or.inl rfl
          | some sqs => exact Or.inr ⟨pools, sqs, opened, rfl, rfl⟩

end LookUps

/-! ### The numbers and the entries of the workers -/

/-- The counter is above the ids that were given, and no id was given twice. -/
structure Numbered (counter : Option Nat) (calls : List Starting) : Prop where
  counted : ∃ count, counter = some count ∧ ∀ starting ∈ calls, starting.call.podId ≤ count
  distinct : ∀ (first second : Nat) (left right : Starting), calls[first]? = some left →
    calls[second]? = some right → left.call.podId = right.call.podId →
      left.call.podId ≠ 0 → first = second

/-- The entry that a worker has written. -/
structure Starting.Wrote (starting : Starting) (entry : Name × Row) : Prop where
  registered : starting.registered = true
  name : entry.1.val = starting.name
  podId : entry.2.podId.val = starting.call.podId
  service : entry.2.service.val = ofAscii starting.call.app.text

/-- The registry has the entries of the workers that registered, and no others. -/
structure Listed (registry : Option Bytes) (calls : List Starting) (rows : RegistryMap) : Prop where
  represents : ∀ float, Represents float registry rows
  written : ∀ entry ∈ rows, ∃ starting ∈ calls, starting.Wrote entry
  there : ∀ starting ∈ calls, starting.registered = true → ∃ entry ∈ rows, starting.Wrote entry

section Calls

variable {calls : List Starting} {index : Nat} {starting after : Starting}

theorem forall_set {holds : Starting → Prop} (all : ∀ other ∈ calls, holds other)
    (new : holds after) : ∀ other ∈ calls.set index after, holds other := by
  intro other member
  rcases List.mem_or_eq_of_mem_set member with old | rfl
  · exact all other old
  · exact new

theorem exists_set {holds : Starting → Prop} (found : calls[index]? = some starting)
    (follows : holds starting → holds after) (some : ∃ other ∈ calls, holds other) :
    ∃ other ∈ calls.set index after, holds other := by
  obtain ⟨other, member, holding⟩ := some
  obtain ⟨place, here⟩ := List.mem_iff_getElem?.mp member
  have below := (List.getElem?_eq_some_iff.mp found).1
  by_cases same : index = place
  · rw [same, here] at found
    rw [Option.some.inj found] at holding
    exact ⟨after, List.mem_iff_getElem?.mpr ⟨index, List.getElem?_set_self below⟩, follows holding⟩
  · refine ⟨other, List.mem_iff_getElem?.mpr ⟨place, ?_⟩, holding⟩
    rw [List.getElem?_set_ne same]
    exact here

theorem getElem?_set_cases {place : Nat} {other : Starting}
    (here : (calls.set index after)[place]? = some other) :
    place = index ∧ other = after ∨ place ≠ index ∧ calls[place]? = some other := by
  by_cases same : index = place
  · left
    rw [← same, List.getElem?_set] at here
    by_cases below : index < calls.length
    · rw [if_pos rfl, if_pos below] at here
      exact ⟨same.symm, (Option.some.inj here).symm⟩
    · rw [if_pos rfl, if_neg below] at here
      contradiction
  · right
    rw [List.getElem?_set_ne same] at here
    exact ⟨Ne.symm same, here⟩

/-- A call that keeps its id leaves the ids as they are. -/
theorem Numbered.set {counter : Option Nat} (numbered : Numbered counter calls)
    (found : calls[index]? = some starting) (same : after.call.podId = starting.call.podId) :
    Numbered counter (calls.set index after) where
  counted := by
    obtain ⟨count, holds, all⟩ := numbered.counted
    refine ⟨count, holds, forall_set all ?_⟩
    rw [same]
    exact all starting (List.mem_of_getElem? found)
  distinct := by
    intro first second left right here there equal positive
    rcases getElem?_set_cases here with ⟨atFirst, new⟩ | ⟨-, old⟩
    · rw [new, same] at equal positive
      rcases getElem?_set_cases there with ⟨atSecond, -⟩ | ⟨-, old⟩
      · rw [atFirst, atSecond]
      · rw [atFirst]
        exact numbered.distinct _ _ _ _ found old equal positive
    · rcases getElem?_set_cases there with ⟨atSecond, new⟩ | ⟨-, old'⟩
      · rw [new, same] at equal
        rw [atSecond]
        exact numbered.distinct _ _ _ _ old found equal positive
      · exact numbered.distinct _ _ _ _ old old' equal positive

/-- A new id is given. -/
theorem Numbered.alloc {counter : Option Nat} (numbered : Numbered counter calls)
    (new : after.call.podId = podRegistryAllocId counter) :
    Numbered (some (podRegistryAllocId counter)) (calls.set index after) := by
  obtain ⟨count, rfl, all⟩ := numbered.counted
  have next : podRegistryAllocId (some count) = count + 1 := rfl
  rw [next] at new ⊢
  have old : ∀ {place : Nat} {other : Starting}, calls[place]? = some other →
      other.call.podId ≤ count := fun here => all _ (List.mem_of_getElem? here)
  refine ⟨⟨count + 1, rfl, forall_set (fun other member => ?_) (by omega)⟩, ?_⟩
  · have := all other member
    omega
  · intro first second left right here there equal positive
    rcases getElem?_set_cases here with ⟨atFirst, new'⟩ | ⟨-, here⟩
    · rcases getElem?_set_cases there with ⟨atSecond, -⟩ | ⟨-, there⟩
      · rw [atFirst, atSecond]
      · have := old there
        rw [new', new] at equal
        omega
    · rcases getElem?_set_cases there with ⟨atSecond, new'⟩ | ⟨-, there⟩
      · have := old here
        rw [new', new] at equal
        omega
      · exact numbered.distinct _ _ _ _ here there equal positive

/-- A call that keeps its entry leaves the entries as they are. -/
theorem Listed.set {registry : Option Bytes} {rows : RegistryMap}
    (listed : Listed registry calls rows) (found : calls[index]? = some starting)
    (keeps : ∀ entry, starting.Wrote entry ↔ after.Wrote entry)
    (same : after.registered = starting.registered) :
    Listed registry (calls.set index after) rows where
  represents := listed.represents
  written := fun entry member => exists_set found (keeps entry).mp (listed.written entry member)
  there := forall_set listed.there fun registered => by
    rw [same] at registered
    obtain ⟨entry, member, wrote⟩ := listed.there starting (List.mem_of_getElem? found) registered
    exact ⟨entry, member, (keeps entry).mp wrote⟩

end Calls

section Listing

variable {calls : List Starting} {index : Nat} {starting : Starting} {registry : Option Bytes}
  {rows : RegistryMap}

theorem mem_register_of_ne {rows : RegistryMap} {name : Name} {row : Row} {entry : Name × Row}
    (member : entry ∈ rows) (different : entry.1 ≠ name) : entry ∈ rows.register name row := by
  induction rows with
  | nil => contradiction
  | cons head rows inductionHypothesis =>
      obtain ⟨other, old⟩ := head
      unfold RegistryMap.register
      by_cases same : other = name
      · rw [if_pos same]
        rcases List.mem_cons.mp member with rfl | later
        · exact absurd same different
        · exact List.mem_cons_of_mem _ later
      · rw [if_neg same]
        rcases List.mem_cons.mp member with rfl | later
        · exact List.mem_cons_self
        · exact List.mem_cons_of_mem _ (inductionHypothesis later)

/-- A worker writes its entry. -/
theorem Listed.register (listed : Listed registry calls rows) (found : calls[index]? = some starting)
    (small : starting.call.podId < 2 ^ 31) (first : starting.registered = false)
    (room : (registerText (registry.getD (ascii "\x7b\x7d"))
      (workerName starting.call.app starting.call.workerNum) starting.call.podId
      starting.call.app.text).length < registrySize)
    (single : ∀ other ∈ calls, other.registered = true → other.name ≠ starting.name)
    (rest : List InitStep) :
    Listed (some (starting.call.registered registry))
      (calls.set index { starting with
        call := { starting.call with rest := rest }, registered := true })
      (rows.register starting.call.entryName (starting.call.row small)) where
  represents := fun float => starting.call.represents_registered (listed.represents float) small room
  written := by
    intro entry member
    rcases RegistryMap.mem_register member with rfl | old
    · have below := (List.getElem?_eq_some_iff.mp found).1
      exact ⟨_, List.mem_iff_getElem?.mpr ⟨index, List.getElem?_set_self below⟩,
        ⟨rfl, rfl, rfl, rfl⟩⟩
    · refine exists_set found (fun wrote => ?_) (listed.written entry old)
      have registered := wrote.registered
      rw [first] at registered
      contradiction
  there := by
    apply forall_set
    · intro other member registered
      obtain ⟨entry, inside, wrote⟩ := listed.there other member registered
      refine ⟨entry, mem_register_of_ne inside fun same => ?_, wrote⟩
      exact single other member registered (wrote.name.symm.trans (congrArg Subtype.val same))
    · exact fun _ => ⟨_, rows.register_mem _ _, ⟨rfl, rfl, rfl, rfl⟩⟩

theorem Numbered.unique {counter : Option Nat} (numbered : Numbered counter calls)
    {other : Starting} (left : starting ∈ calls) (right : other ∈ calls)
    (same : starting.call.podId = other.call.podId) (positive : starting.call.podId ≠ 0) :
    starting = other := by
  obtain ⟨first, here⟩ := List.mem_iff_getElem?.mp left
  obtain ⟨second, there⟩ := List.mem_iff_getElem?.mp right
  have place := numbered.distinct first second starting other here there same positive
  rw [place] at here
  exact Option.some.inj (here.symm.trans there)

/-- The registry names the service of a worker that registered. -/
theorem Listed.getService {counter : Option Nat} (listed : Listed registry calls rows)
    (numbered : Numbered counter calls) (member : starting ∈ calls)
    (registered : starting.registered = true) (positive : starting.call.podId ≠ 0)
    (float : PyStr → Numeral) :
    getService float registry starting.call.podId = .string (ofAscii starting.call.app.text) := by
  rw [(listed.represents float).answers.service]
  obtain ⟨entry, inside, wrote⟩ := listed.there starting member registered
  unfold RegistryMap.serviceOf
  cases first : rows.find? fun entry : Name × Row =>
      entry.2.podId.val = (starting.call.podId : Int) with
  | none =>
      have missing := List.find?_eq_none.mp first entry inside
      exact absurd (decide_eq_true wrote.podId) missing
  | some other =>
      have same : other.2.podId.val = (starting.call.podId : Int) := by simpa using List.find?_some first
      obtain ⟨writer, among, wrote'⟩ := listed.written other (List.mem_of_find?_eq_some first)
      have ids : starting.call.podId = writer.call.podId := by
        have := wrote'.podId
        omega
      rw [Option.map_some, Option.getD_some, wrote'.service,
        numbered.unique member among ids positive]

theorem exists_member {members : List (PyStr × Value)}
    (agree : List.Forall₂ MemberOf rows members) {entry : Name × Row} (inside : entry ∈ rows) :
    ∃ member ∈ members, MemberOf entry member := by
  induction agree with
  | nil => contradiction
  | @cons head member rows members first rest inductionHypothesis =>
      rcases List.mem_cons.mp inside with rfl | later
      · exact ⟨member, List.mem_cons_self, first⟩
      · obtain ⟨other, among, same⟩ := inductionHypothesis later
        exact ⟨other, List.mem_cons_of_mem _ among, same⟩

theorem mem_addKnown {known : List Int} {podId : Int} (other : Int)
    (member : podId ∈ known) : podId ∈ addKnown known other := by
  unfold addKnown
  split
  · exact member
  · exact List.mem_append_left _ member

theorem mem_foldl_addKnown {podIds known : List Int} {podId : Int}
    (member : podId ∈ podIds ∨ podId ∈ known) : podId ∈ podIds.foldl addKnown known := by
  induction podIds generalizing known with
  | nil => exact member.resolve_left List.not_mem_nil
  | cons first podIds inductionHypothesis =>
      rw [List.foldl_cons]
      apply inductionHypothesis
      rcases member with new | old
      · rcases List.mem_cons.mp new with rfl | later
        · right
          unfold addKnown
          split
          · assumption
          · exact List.mem_append_right _ List.mem_cons_self
        · exact Or.inl later
      · exact Or.inr (mem_addKnown first old)

/-- The next scan finds a worker that registered. -/
theorem Listed.scanned (listed : Listed registry calls rows) (member : starting ∈ calls)
    (registered : starting.registered = true) (float : PyStr → Numeral) (dma : DmaManager) :
    (starting.call.podId : Int) ∈ (dma.scan float registry).knownPods := by
  obtain ⟨entry, inside, wrote⟩ := listed.there starting member registered
  obtain ⟨members, loaded, agree⟩ := listed.represents float
  obtain ⟨found, among, isMember⟩ := exists_member agree inside
  apply mem_foldl_addKnown
  left
  refine List.mem_filterMap.mpr ⟨(found.1, (entryWorker found.1 found.2).2), ?_, ?_⟩
  · unfold getAll
    rw [loaded]
    exact List.mem_map.mpr ⟨found, among, rfl⟩
  · rw [isMember.entry.reads.worker.2, wrote.podId]

end Listing

/-! ### The invariant -/

/-- The DMA manager is about to start, or cleans up; nobody else has begun. -/
inductive Clearing (node : Node) : Prop where
  | absent (dma : node.dma = none)
  | starting (dma : node.dma = some {})
  | cleaning (listed : List NodeFile) (dma : node.dma = some { phase := .cleaning listed })
      (all : ∀ name ∈ node.dir.names, name ∈ listed)
  | reset (dma : node.dma = some { phase := .reset }) (clean : node.dir.names = [])
      (counter : node.counter = some 0)

structure Node.Before (node : Node) : Prop where
  clearing : Clearing node
  calls : node.calls = []
  sidecar : ∀ sidecar, node.sidecar = some sidecar → sidecar = {}

/-- Behind the clean-up, everybody has mapped what the names lead to. -/
structure Node.Settled (node : Node) (dma : DmaManager) : Prop where
  runs : node.dma = some dma
  cleaned : dma.phase.Cleaned
  manager : dma.Current node.dir
  sidecar : ∀ sidecar, node.sidecar = some sidecar → sidecar.Current node.dir
  workers : ∀ starting ∈ node.calls, starting.Good node.dir
  numbered : Numbered node.counter node.calls
  listed : ∃ rows, Listed node.registry node.calls rows
  rings : ∀ kind podId file, node.dir.entry (.shm (.ring kind podId)) = some file →
    ∃ starting ∈ node.calls, starting.registered = true ∧ podId = starting.call.podId
  services : ∀ podId resources, dma.podCache podId = some resources →
    ∃ starting ∈ node.calls, starting.registered = true ∧ podId = starting.call.podId ∧
      resources.service = ofAscii starting.call.app.text

def Node.Kept (node : Node) : Prop := node.Before ∨ ∃ dma, node.Settled dma

/-! ### What the invariant says -/

section Attached

variable {float : PyStr → Numeral} {app : PyStr} {node : Node} {dma : DmaManager}
  {starting : Starting}

/-- A worker that has started is found as it mapped its files. -/
theorem Starting.Good.maps {dir : Directory NodeFile} (good : starting.Good dir)
    (finished : starting.Finished) (kinds : List FileKind) :
    ∃ files, dir.openAll (kinds.map starting.file) = some files ∧ starting.Maps kinds files := by
  obtain ⟨ended, running⟩ := finished
  have held : ∀ kind, ∃ file, starting.held kind = some file := by
    intro kind
    apply good.progress.attached running kind
    rw [ended]
    exact List.not_mem_nil
  obtain ⟨files, opened⟩ : ∃ files, dir.openAll (kinds.map starting.file) = some files := by
    apply exists_openAll
    intro name member
    obtain ⟨kind, -, rfl⟩ := List.mem_map.mp member
    exact (held kind).imp fun file here => good.held kind file here
  refine ⟨files, opened, ?_⟩
  unfold Starting.Maps
  rw [map_openAll opened, List.map_map]
  apply List.map_congr_left
  intro kind _
  obtain ⟨file, here⟩ := held kind
  exact (good.held kind file here).trans here.symm

theorem Starting.Good.finished {dir : Directory NodeFile} (good : starting.Good dir)
    (finished : starting.Finished) :
    starting.registered = true ∧ starting.call.podId ≠ 0 ∧ ofAscii starting.call.app.text ≠ [] := by
  obtain ⟨ended, running⟩ := finished
  have registered : starting.registered = true := by
    apply good.progress.registered running
    rw [ended]
    exact List.not_mem_nil
  refine ⟨registered, good.progress.entered registered, ?_⟩
  intro empty
  exact good.app (List.map_eq_nil_iff.mp empty)

theorem Node.Settled.serviceOf (settled : node.Settled dma) (member : starting ∈ node.calls)
    (finished : starting.Finished) :
    serviceOf float node.registry starting.call.podId = some (ofAscii starting.call.app.text) := by
  obtain ⟨registered, positive, named⟩ := (settled.workers starting member).finished finished
  obtain ⟨rows, listed⟩ := settled.listed
  unfold Attachments.serviceOf
  rw [listed.getService settled.numbered member registered positive]
  exact if_neg named

theorem Node.Settled.attached (settled : node.Settled dma) : node.Attached float app where
  known := by
    intro starting member finished other _
    obtain ⟨rows, listed⟩ := settled.listed
    exact listed.scanned member ((settled.workers starting member).finished finished).1 float other
  found := by
    intro starting member finished other running
    obtain rfl : dma = other := Option.some.inj (settled.runs.symm.trans running)
    have good := settled.workers starting member
    obtain ⟨pools, opened, mapped⟩ := good.maps finished poolKinds
    obtain ⟨sqs, openedSqs, mappedSqs⟩ := good.maps finished sqKinds
    refine ⟨pools, sqs, ?_, mapped, mappedSqs⟩
    unfold DmaManager.getPodResources
    cases cached : dma.podCache starting.call.podId with
    | some resources =>
        obtain ⟨cachedPools, cachedSqs⟩ := settled.manager.cache _ _ cached
        obtain ⟨other, among, registered, same, service⟩ := settled.services _ _ cached
        have one := settled.numbered.unique member among (by omega) (good.finished finished).2.1
        rw [← one] at service
        obtain ⟨name, files, rings⟩ := resources
        obtain rfl : name = ofAscii starting.call.app.text := service
        obtain rfl : files = pools := Option.some.inj (cachedPools.symm.trans opened)
        obtain rfl : rings = sqs := Option.some.inj (cachedSqs.symm.trans openedSqs)
        rfl
    | none =>
        dsimp only
        rw [settled.serviceOf member finished, Option.getD_some]
        obtain ⟨after, made⟩ := exists_getOrCreate settled.manager.pools opened
        rw [made]
        dsimp only
        have rings : node.dir.openAll (workerSqs starting.call.podId) = some sqs := openedSqs
        rw [rings]
  resolved := by
    intro starting member finished sidecar running
    obtain ⟨pools, opened, mapped⟩ := (settled.workers starting member).maps finished poolKinds
    obtain ⟨after, made⟩ := exists_getOrCreate (settled.sidecar sidecar running).pools opened
    refine ⟨pools, ?_, mapped⟩
    unfold resolvePools
    rw [settled.serviceOf member finished, Option.bind_some, made]
  connected := by
    intro other sidecar running polls there
    obtain rfl : dma = other := Option.some.inj (settled.runs.symm.trans running)
    have current := settled.sidecar sidecar there
    have held : ∀ name ∈ dpuPools ++ dpuSqs, node.dir.entry name = dma.held name := by
      intro name member
      rcases settled.manager.attached name member with left | ⟨file, here⟩
      · rw [polls] at left
        exact absurd left List.not_mem_nil
      · exact (settled.manager.held name file here).trans here.symm
    refine ⟨fun pools mapped => ?_, fun sqs mapped => ?_⟩
    · rw [map_openAll (current.dpuPools pools mapped)]
      exact List.map_congr_left fun name member => held name (List.mem_append_left _ member)
    · rw [map_openAll (current.dpuSqs sqs mapped)]
      exact List.map_congr_left fun name member => held name (List.mem_append_right _ member)

theorem Node.Before.attached (before : node.Before) : node.Attached float app where
  known := by simp [before.calls]
  found := by simp [before.calls]
  resolved := by simp [before.calls]
  connected := by
    intro dma sidecar running polls there
    rw [before.sidecar sidecar there]
    exact ⟨by simp, by simp⟩

end Attached

/-! ### The clean-up -/

section Clearing

variable {float : PyStr → Numeral} {app : PyStr} {node next : Node} {dma : DmaManager}
  {event : DmaEvent}

theorem Node.Before.not_cleaned (before : node.Before) : ¬ node.Cleaned := by
  rintro ⟨dma, runs, cleaned⟩
  cases before.clearing with
  | absent here =>
      rw [here] at runs
      contradiction
  | starting here | cleaning listed here | reset here =>
      rw [here] at runs
      rw [← Option.some.inj runs] at cleaned
      exact cleaned

/-- Behind the clean-up, with nothing in the directory. -/
theorem settled_clear (before : node.Before) (clean : node.dir.names = [])
    (counter : node.counter = some 0) :
    Node.Settled { node with
      registry := some (ascii "\x7b\x7d")
      dma := some { phase := .creating (dpuPools ++ dpuSqs) } }
      { phase := .creating (dpuPools ++ dpuSqs) } where
  runs := rfl
  cleaned := trivial
  manager := {
    held := fun _ _ held => by contradiction
    left := fun _ member => member
    attached := fun _ member => Or.inl member
    created := fun _ _ phase => by contradiction
    pools := fun _ _ cached => by contradiction
    cache := fun _ _ cached => by contradiction }
  sidecar := by
    intro sidecar there
    rw [before.sidecar sidecar there]
    exact {
      pools := fun _ _ cached => by contradiction
      dpuPools := fun _ mapped => by contradiction
      dpuSqs := fun _ mapped => by contradiction }
  workers := by simp [before.calls]
  numbered := ⟨⟨0, counter, by simp [before.calls]⟩, by simp [before.calls]⟩
  listed := ⟨[], fun float => represents_none float, by simp, by simp [before.calls]⟩
  rings := by
    intro kind podId file found
    have none := entry_of_names_nil node.dir clean (.shm (.ring kind podId))
    exact absurd (none.symm.trans found) (by simp)
  services := fun _ _ cached => by contradiction

theorem Node.Before.dmaStep (before : node.Before) (runs : node.dma = some dma)
    (ordered : Ordered node (.dma event))
    (stepped : node.dmaStep float app dma dma.phase event = some next) : next.Kept := by
  cases before.clearing with
  | absent here =>
      rw [here] at runs
      contradiction
  | starting here =>
      obtain rfl : ({} : DmaManager) = dma := Option.some.inj (here.symm.trans runs)
      cases event with
      | glob =>
          obtain rfl := Option.some.inj stepped
          refine Or.inl ⟨.cleaning node.list rfl ?_, before.calls, before.sidecar⟩
          intro name member
          exact List.mem_append_left _ (List.mem_append_left _ member)
      | start | remove | reset | clear | create | attach | scan | lookup | resolve => contradiction
  | cleaning listed here all =>
      obtain rfl := Option.some.inj (here.symm.trans runs)
      cases event with
      | remove file =>
          by_cases inside : file ∈ listed
          · have shape : node.dmaStep float app { phase := .cleaning listed } (.cleaning listed)
                (.remove file) = some { node.remove file with
                  dma := some { phase := .cleaning (listed.filter (· ≠ file)) } } := if_pos inside
            obtain rfl := Option.some.inj (shape.symm.trans stepped)
            refine Or.inl ⟨.cleaning _ rfl ?_, before.calls, before.sidecar⟩
            intro name member
            obtain ⟨old, different⟩ := mem_names_unlink node.dir member
            exact List.mem_filter.mpr ⟨all name old, decide_eq_true different⟩
          · have shape : node.dmaStep float app { phase := .cleaning listed } (.cleaning listed)
                (.remove file) = none := if_neg inside
            exact absurd (shape.symm.trans stepped) (by simp)
      | reset written =>
          cases listed with
          | nil =>
              obtain rfl : written = true := ordered
              obtain rfl := Option.some.inj stepped
              refine Or.inl ⟨.reset rfl ?_ rfl, before.calls, before.sidecar⟩
              exact List.eq_nil_iff_forall_not_mem.mpr fun name member =>
                absurd (all name member) List.not_mem_nil
          | cons file listed => contradiction
      | start | glob | clear | create | attach | scan | lookup | resolve =>
          cases listed <;> contradiction
  | reset here clean counter =>
      obtain rfl := Option.some.inj (here.symm.trans runs)
      cases event with
      | clear written =>
          obtain rfl : written = true := ordered
          obtain rfl := Option.some.inj stepped
          exact Or.inr ⟨_, settled_clear before clean counter⟩
      | start | glob | remove | reset | create | attach | scan | lookup | resolve => contradiction

end Clearing

/-! ### Behind the clean-up -/

section Settled

variable {float : PyStr → Numeral} {app : PyStr} {node next : Node} {dma : DmaManager}

/-- The DMA manager goes on, and files may be made. -/
theorem Node.Settled.manage (settled : node.Settled dma) {dir : Directory NodeFile}
    {after : DmaManager} (grows : Grows node.dir dir) (cleaned : after.phase.Cleaned)
    (current : after.Current dir)
    (rings : ∀ kind podId, dir.entry (.shm (.ring kind podId)) =
      node.dir.entry (.shm (.ring kind podId)))
    (services : ∀ podId resources, after.podCache podId = some resources →
      dma.podCache podId = some resources ∨ ∃ starting ∈ node.calls,
        starting.registered = true ∧ podId = starting.call.podId ∧
          resources.service = ofAscii starting.call.app.text) :
    Node.Settled { node with dir := dir, dma := some after } after where
  runs := rfl
  cleaned := cleaned
  manager := current
  sidecar := fun sidecar there => (settled.sidecar sidecar there).grow grows
  workers := fun starting member => (settled.workers starting member).grow grows
  numbered := settled.numbered
  listed := settled.listed
  rings := by
    intro kind podId file found
    rw [rings] at found
    exact settled.rings kind podId file found
  services := fun podId resources cached =>
    (services podId resources cached).elim (settled.services podId resources) id

theorem grows_refl (dir : Directory NodeFile) : Grows dir dir := fun _ _ found => found

theorem ring_notMem (kind : FileKind) (podId : Int) :
    NodeFile.shm (.ring kind podId) ∉ dpuPools ++ dpuSqs := by
  simp [dpuPools, dpuSqs]

theorem Node.Settled.create (settled : node.Settled dma) {file : NodeFile} {rest : List NodeFile}
    (phase : dma.phase = .creating (file :: rest)) :
    Node.Settled { node with
      dir := node.dir.create file
      dma := some { dma with phase := .attaching file rest } }
      { dma with phase := .attaching file rest } := by
  have left := settled.manager.left
  have attached := settled.manager.attached
  rw [phase] at left attached
  have grown := settled.manager.grow (grows_create node.dir file)
  refine settled.manage (grows_create node.dir file) trivial
    { grown with left := left, attached := attached, created := ?_ } ?_ fun _ _ => Or.inl
  · rintro name others same
    obtain ⟨rfl, -⟩ := Phase.attaching.inj same
    exact node.dir.entry_create_self file
  · intro kind podId
    apply node.dir.entry_create_of_ne
    rintro rfl
    exact ring_notMem kind podId (left _ List.mem_cons_self)

theorem Node.Settled.attach (settled : node.Settled dma) {file : NodeFile} {rest : List NodeFile}
    (phase : dma.phase = .attaching file rest) :
    Node.Settled { node with dma := some { dma with
      phase := .creating rest
      held := Function.update dma.held file (node.dir.entry file) } }
      { dma with
        phase := .creating rest
        held := Function.update dma.held file (node.dir.entry file) } := by
  have current := settled.manager
  have left := current.left
  have attached := current.attached
  rw [phase] at left attached
  obtain ⟨number, there⟩ := current.created file rest phase
  refine settled.manage (grows_refl node.dir) trivial ?_ (fun _ _ => rfl) fun _ _ => Or.inl
  refine ⟨fun name other held => ?_, fun name member => left name (List.mem_cons_of_mem _ member),
    fun name member => ?_, fun _ _ same => by contradiction, current.pools, current.cache⟩
  · by_cases same : name = file
    · subst same
      dsimp only at held
      rwa [Function.update_self] at held
    · dsimp only at held
      rw [Function.update_of_ne same] at held
      exact current.held name other held
  · dsimp only
    by_cases same : name = file
    · rw [same, Function.update_self]
      exact Or.inr ⟨number, there⟩
    · rw [Function.update_of_ne same]
      rcases attached name member with pending | held
      · exact Or.inl ((List.mem_cons.mp pending).resolve_left same)
      · exact Or.inr held

/-- A look-up keeps files of a worker that registered. -/
theorem Node.Settled.lookup (settled : node.Settled dma) (podId : Int) :
    Node.Settled { node with dma := some (dma.getPodResources float app node podId).2 }
      (dma.getPodResources float app node podId).2 := by
  have current := settled.manager
  obtain ⟨after, pools, kept | ⟨files, sqs, opened, rings, kept⟩⟩ :=
    @getPodResources_cases float app node dma current.pools podId
  · rw [kept]
    exact settled.manage (grows_refl node.dir) settled.cleaned
      { current with pools := pools } (fun _ _ => rfl) fun _ _ => Or.inl
  · rw [kept]
    have stored : ∀ {other : Int} {resources : PodResources},
        Function.update dma.podCache podId
          (some ⟨(Attachments.serviceOf float node.registry podId).getD app, files, sqs⟩) other =
            some resources →
        other = podId ∧ resources =
            ⟨(Attachments.serviceOf float node.registry podId).getD app, files, sqs⟩ ∨
          dma.podCache other = some resources := by
      intro other resources cached
      by_cases same : other = podId
      · rw [same, Function.update_self] at cached
        exact Or.inl ⟨same, (Option.some.inj cached).symm⟩
      · rw [Function.update_of_ne same] at cached
        exact Or.inr cached
    refine settled.manage (grows_refl node.dir) settled.cleaned
      { current with pools := pools, cache := ?_ } (fun _ _ => rfl) ?_
    · intro other resources cached
      rcases stored cached with ⟨rfl, rfl⟩ | old
      · exact ⟨opened, rings⟩
      · exact current.cache other resources old
    · intro other resources cached
      rcases stored cached with ⟨rfl, rfl⟩ | old
      · right
        obtain ⟨file, there⟩ := exists_entry_of_openAll rings List.mem_cons_self
        obtain ⟨starting, member, registered, same⟩ := settled.rings _ _ file there
        obtain ⟨rows, listed⟩ := settled.listed
        have good := settled.workers starting member
        have service := listed.getService settled.numbered member registered
          (good.progress.entered registered) float
        have named : ofAscii starting.call.app.text ≠ [] :=
          fun empty => good.app (List.map_eq_nil_iff.mp empty)
        refine ⟨starting, member, registered, same, ?_⟩
        unfold Attachments.serviceOf
        rw [same, service]
        simp [named]
      · exact Or.inl old

theorem Node.Settled.dmaStep (settled : node.Settled dma) {event : DmaEvent}
    (stepped : node.dmaStep float app dma dma.phase event = some next) : next.Kept := by
  cases phase : dma.phase with
  | starting | cleaning | reset =>
      have cleaned := settled.cleaned
      rw [phase] at cleaned
      exact absurd cleaned id
  | attaching file rest =>
      rw [phase] at stepped
      cases event with
      | attach =>
          obtain rfl := Option.some.inj stepped
          exact Or.inr ⟨_, settled.attach phase⟩
      | start | glob | remove | reset | clear | create | scan | lookup | resolve => contradiction
  | creating rest =>
      rw [phase] at stepped
      cases rest with
      | cons file rest =>
          cases event with
          | create =>
              obtain rfl := Option.some.inj stepped
              exact Or.inr ⟨_, settled.create phase⟩
          | start | glob | remove | reset | clear | attach | scan | lookup | resolve =>
              contradiction
      | nil =>
          cases event with
          | scan =>
              obtain rfl := Option.some.inj stepped
              exact Or.inr ⟨_, settled.manage (grows_refl node.dir) settled.cleaned
                { settled.manager with } (fun _ _ => rfl) fun _ _ => Or.inl⟩
          | lookup podId =>
              obtain rfl := Option.some.inj stepped
              exact Or.inr ⟨_, settled.lookup podId⟩
          | resolve podId =>
              obtain rfl := Option.some.inj stepped
              exact Or.inr ⟨_, settled.manage (grows_refl node.dir) settled.cleaned
                { settled.manager with pools := resolvePools_current settled.manager.pools }
                (fun _ _ => rfl) fun _ _ => Or.inl⟩
          | start | glob | remove | reset | clear | create | attach => contradiction

theorem Node.Settled.sidecarStep (settled : node.Settled dma) {sidecar after : SidecarDaemon}
    {event : SidecarEvent} (there : node.sidecar = some sidecar)
    (stepped : node.sidecarStep float sidecar event = some after) :
    Node.Settled { node with sidecar := some after } dma := by
  have current := settled.sidecar sidecar there
  suffices current' : after.Current node.dir from
    { settled with sidecar := fun other same => Option.some.inj same ▸ current' }
  cases event with
  | start => contradiction
  | connectPools =>
      obtain ⟨-, same⟩ := Option.ite_none_right_eq_some.mp stepped
      obtain rfl := Option.some.inj same
      exact { current with dpuPools := fun files mapped => mapped }
  | connectSqs =>
      obtain ⟨-, same⟩ := Option.ite_none_right_eq_some.mp stepped
      obtain rfl := Option.some.inj same
      exact { current with dpuSqs := fun files mapped => mapped }
  | resolve podId =>
      obtain ⟨-, same⟩ := Option.ite_none_right_eq_some.mp stepped
      obtain rfl := Option.some.inj same
      exact { current with pools := resolvePools_current current.pools }

end Settled

/-! ### The workers' steps -/

section Workers

variable {float : PyStr → Numeral} {app : PyStr} {node next : Node} {dma : DmaManager}
  {index : Nat} {starting after : Starting} {first : InitStep} {rest : List InitStep}
  {outcome : Outcome}

/-- A worker calls `dpumesh_init`. -/
theorem Node.Settled.call (settled : node.Settled dma) {name : AppName} (named : name.text ≠ [])
    (workerNum : Int) :
    Node.Settled { node with
      calls := node.calls ++ [{ call := { app := name, workerNum := workerNum } }] } dma := by
  have old : ∀ {place : Nat} {other : Starting},
      (node.calls ++ [{ call := { app := name, workerNum := workerNum } }])[place]? = some other →
        other.call.podId ≠ 0 → node.calls[place]? = some other := by
    intro place other here positive
    by_cases inside : place < node.calls.length
    · rwa [List.getElem?_append_left inside] at here
    · rw [List.getElem?_append_right (by omega)] at here
      obtain rfl := List.mem_singleton.mp (List.mem_of_getElem? here)
      contradiction
  have more : ∀ {holds : Starting → Prop}, (∃ starting ∈ node.calls, holds starting) →
      ∃ starting ∈ node.calls ++ [{ call := { app := name, workerNum := workerNum } }],
        holds starting := by
    rintro holds ⟨starting, member, holding⟩
    exact ⟨starting, List.mem_append_left _ member, holding⟩
  obtain ⟨count, counter, all⟩ := settled.numbered.counted
  obtain ⟨rows, listed⟩ := settled.listed
  exact {
    settled with
    workers := by
      intro starting member
      rcases List.mem_append.mp member with before | new
      · exact settled.workers starting before
      · obtain rfl := List.mem_singleton.mp new
        exact ⟨progress_new name workerNum, fun _ _ held => by contradiction, named, Nat.two_pow_pos 31⟩
    numbered := by
      refine ⟨⟨count, counter, fun starting member => ?_⟩, ?_⟩
      · rcases List.mem_append.mp member with before | new
        · exact all starting before
        · obtain rfl := List.mem_singleton.mp new
          exact Nat.zero_le _
      · intro first second left right here there same positive
        exact settled.numbered.distinct _ _ _ _ (old here positive) (old there (same ▸ positive))
          same positive
    listed := by
      refine ⟨rows, listed.represents, fun entry member => more (listed.written entry member), ?_⟩
      intro starting member registered
      rcases List.mem_append.mp member with before | new
      · exact listed.there starting before registered
      · obtain rfl := List.mem_singleton.mp new
        contradiction
    rings := fun kind podId file found => more (settled.rings kind podId file found)
    services := fun podId resources cached => more (settled.services podId resources cached) }

/-- A call does a step; files may be made, the counter and the registry written. -/
theorem Node.Settled.replace (settled : node.Settled dma) (found : node.calls[index]? = some starting)
    {dir : Directory NodeFile} {counter : Option Nat} {registry : Option Bytes}
    (grows : Grows node.dir dir) (good : after.Good dir)
    (keeps : starting.registered = true → after.registered = true ∧
      after.call.podId = starting.call.podId ∧ after.call.app = starting.call.app)
    (numbered : Numbered counter (node.calls.set index after))
    (listed : ∃ rows, Listed registry (node.calls.set index after) rows)
    (rings : ∀ kind podId file, dir.entry (.shm (.ring kind podId)) = some file →
      node.dir.entry (.shm (.ring kind podId)) = some file ∨
        after.registered = true ∧ podId = after.call.podId) :
    Node.Settled { node with
      dir := dir, counter := counter, registry := registry
      calls := node.calls.set index after } dma where
  runs := settled.runs
  cleaned := settled.cleaned
  manager := settled.manager.grow grows
  sidecar := fun sidecar there => (settled.sidecar sidecar there).grow grows
  workers := forall_set (fun other member => (settled.workers other member).grow grows) good
  numbered := numbered
  listed := listed
  rings := by
    intro kind podId file here
    rcases rings kind podId file here with old | ⟨registered, same⟩
    · refine exists_set found ?_ (settled.rings kind podId file old)
      rintro ⟨registered, same⟩
      obtain ⟨still, id, -⟩ := keeps registered
      exact ⟨still, by rw [id]; exact same⟩
    · have below := (List.getElem?_eq_some_iff.mp found).1
      exact ⟨after, List.mem_iff_getElem?.mpr ⟨index, List.getElem?_set_self below⟩,
        registered, same⟩
  services := by
    intro podId resources cached
    refine exists_set found ?_ (settled.services podId resources cached)
    rintro ⟨registered, same, service⟩
    obtain ⟨still, id, name⟩ := keeps registered
    exact ⟨still, by rw [id]; exact same, by rw [name]; exact service⟩

/-- A step that gives no id and writes no entry. -/
theorem Node.Settled.aside (settled : node.Settled dma) (found : node.calls[index]? = some starting)
    {dir : Directory NodeFile} (grows : Grows node.dir dir) (good : after.Good dir)
    (registered : after.registered = starting.registered) (name : after.name = starting.name)
    (podId : after.call.podId = starting.call.podId) (app : after.call.app = starting.call.app)
    (rings : ∀ kind podId file, dir.entry (.shm (.ring kind podId)) = some file →
      node.dir.entry (.shm (.ring kind podId)) = some file ∨
        after.registered = true ∧ podId = after.call.podId) :
    Node.Settled { node with dir := dir, calls := node.calls.set index after } dma := by
  obtain ⟨rows, listed⟩ := settled.listed
  have wrote : ∀ entry, starting.Wrote entry ↔ after.Wrote entry := by
    intro entry
    constructor
    · intro wrote
      exact ⟨registered.trans wrote.registered, wrote.name.trans name.symm, by
        rw [podId]; exact wrote.podId, by rw [app]; exact wrote.service⟩
    · intro wrote
      exact ⟨registered.symm.trans wrote.registered, wrote.name.trans name, by
        rw [← podId]; exact wrote.podId, by rw [← app]; exact wrote.service⟩
  exact settled.replace found grows good
    (fun before => ⟨registered.trans before, podId, app⟩) (settled.numbered.set found podId)
    ⟨rows, listed.set found wrote registered⟩ rings

theorem Node.Settled.perform (settled : node.Settled dma) (found : node.calls[index]? = some starting)
    (steps : starting.call.rest = first :: rest) (ordered : Ordered node (.step index outcome))
    {middle : Node}
    (performed : Performed node { starting with call := { starting.call with rest := rest } }
      first outcome middle after) :
    Node.Settled { middle with calls := middle.calls.set index after } dma := by
  have good := settled.workers starting (List.mem_of_getElem? found)
  have written : outcome ≠ .unwritten := by
    rintro rfl
    exact ordered
  have progress := good.progress.perform steps written performed
  obtain ⟨rows, listed⟩ := settled.listed
  have running := good.progress.running steps
  have order := ordered_of_suffix (steps ▸ good.progress.suffix)
  cases performed with
  | allocUnwritten | registerUnwritten => exact absurd rfl written
  | quiet | failed =>
      exact settled.aside found (grows_refl node.dir) ⟨progress, good.held, good.app, good.small⟩
        rfl rfl rfl rfl fun _ _ _ => Or.inl
  | allocId small =>
      simp only [Attachments.ordered, decide_eq_true_eq] at order
      have unregistered : starting.registered = false := by
        apply good.progress.unregistered
        rw [steps]
        exact List.mem_cons_of_mem _ order.2
      have fresh : ∀ kind, starting.held kind = none := by
        apply good.progress.fresh
        rw [steps]
        exact List.mem_cons_self
      refine settled.replace found (grows_refl node.dir)
        ⟨progress, fun kind file held => ?_, good.app, small⟩ (fun registered => ?_)
        (settled.numbered.alloc rfl) ⟨rows, listed.set found (fun entry => ?_) rfl⟩
        fun _ _ _ => Or.inl
      · exact absurd ((fresh kind).symm.trans held) (by simp)
      · rw [unregistered] at registered
        contradiction
      · have different : ∀ {other : Starting}, other.registered = false → ¬ other.Wrote entry := by
          intro other none wrote
          rw [wrote.registered] at none
          contradiction
        exact iff_of_false (different unregistered) (different unregistered)
  | register =>
      have head : starting.call.rest.head? = some .register := by rw [steps]; rfl
      obtain ⟨room, single⟩ := ordered starting found head
      have unregistered : starting.registered = false := by
        apply good.progress.unregistered
        rw [steps]
        exact List.mem_cons_self
      have entered := listed.register found good.small unregistered room single rest
      refine settled.replace found (grows_refl node.dir) ⟨progress, good.held, good.app, good.small⟩
        (fun registered => ⟨rfl, rfl, rfl⟩) (settled.numbered.set found rfl) ⟨_, entered⟩
        fun _ _ _ => Or.inl
  | openFile kind =>
      simp only [Attachments.ordered, decide_eq_true_eq] at order
      have registered : starting.registered = true := by
        apply good.progress.registered running
        rw [steps]
        exact List.not_mem_cons_of_ne_of_not_mem (by simp) order.1
      have grows := grows_create node.dir (starting.file kind)
      refine settled.aside found grows ⟨progress, (good.grow grows).held, good.app, good.small⟩
        rfl rfl rfl rfl fun other podId file here => ?_
      by_cases own : NodeFile.shm (.ring other podId) = starting.file kind
      · right
        refine ⟨registered, ?_⟩
        have names := NodeFile.shm.inj own
        unfold InitCall.fileName FileKind.name at names
        cases kind with
        | txHeader | txBody | rxHeader | rxBody => contradiction
        | txSq | rxSq => exact (ShmName.ring.inj names).2
      · left
        exact (node.dir.entry_create_of_ne own).symm.trans here
  | attachFile kind file there =>
      refine settled.aside found (grows_refl node.dir)
        ⟨progress, fun other number held => ?_, good.app, good.small⟩
        rfl rfl rfl rfl fun _ _ _ => Or.inl
      by_cases same : other = kind
      · subst same
        dsimp only at held
        rw [Function.update_self] at held
        rw [← held]
        exact there
      · dsimp only at held
        rw [Function.update_of_ne same] at held
        exact good.held other number held

/-- A step of a call. -/
theorem step_cases (taken : node.step float app (.step index outcome) = some next) :
    ∃ starting first rest middle after, node.calls[index]? = some starting ∧
      starting.call.rest = first :: rest ∧
      Performed node { starting with call := { starting.call with rest := rest } } first outcome
        middle after ∧
      next = { middle with calls := middle.calls.set index after } := by
  unfold Node.step at taken
  dsimp only at taken
  cases found : node.calls[index]? with
  | none =>
      rw [found] at taken
      contradiction
  | some starting =>
      rw [found] at taken
      dsimp only at taken
      cases steps : starting.call.rest with
      | nil =>
          rw [steps] at taken
          contradiction
      | cons first rest =>
          rw [steps] at taken
          obtain ⟨⟨middle, after⟩, performed, same⟩ := Option.map_eq_some_iff.mp taken
          exact ⟨starting, first, rest, middle, after, rfl, steps,
            performed_of_perform performed, same.symm⟩

end Workers

/-! ### Every run -/

section Runs

variable {float : PyStr → Numeral} {app : PyStr} {node next : Node} {event : Event}

theorem dmaStep_of_step {event : DmaEvent} (later : event ≠ .start)
    (taken : node.step float app (.dma event) = some next) :
    ∃ dma, node.dma = some dma ∧ node.dmaStep float app dma dma.phase event = some next := by
  cases event with
  | start => contradiction
  | glob | remove | reset | clear | create | attach | scan | lookup | resolve =>
      exact Option.bind_eq_some_iff.mp taken

theorem sidecarStep_of_step {event : SidecarEvent} (later : event ≠ .start)
    (taken : node.step float app (.sidecar event) = some next) :
    ∃ sidecar after, node.sidecar = some sidecar ∧
      node.sidecarStep float sidecar event = some after ∧
      next = { node with sidecar := some after } := by
  cases event with
  | start => contradiction
  | connectPools | connectSqs | resolve =>
      obtain ⟨after, bound, same⟩ := Option.map_eq_some_iff.mp taken
      obtain ⟨sidecar, there, stepped⟩ := Option.bind_eq_some_iff.mp bound
      exact ⟨sidecar, after, there, stepped, same.symm⟩

theorem Node.Before.sidecarStart (before : node.Before) :
    Node.Before { node with sidecar := some {} } where
  clearing := by
    cases before.clearing with
    | absent here => exact .absent here
    | starting here => exact .starting here
    | cleaning listed here all => exact .cleaning listed here all
    | reset here clean counter => exact .reset here clean counter
  calls := before.calls
  sidecar := fun _ same => (Option.some.inj same).symm

theorem Node.Before.step (before : node.Before) (ordered : Ordered node event)
    (taken : node.step float app event = some next) : next.Kept := by
  cases event with
  | call name workerNum => exact absurd ordered.1 before.not_cleaned
  | step index outcome =>
      obtain ⟨starting, -, -, -, -, found, -⟩ := step_cases taken
      rw [before.calls] at found
      contradiction
  | dma event =>
      cases event with
      | start =>
          obtain rfl := Option.some.inj taken
          exact Or.inl ⟨.starting rfl, before.calls, before.sidecar⟩
      | glob | remove | reset | clear | create | attach | scan | lookup | resolve =>
          obtain ⟨dma, runs, stepped⟩ := dmaStep_of_step (by simp) taken
          exact before.dmaStep runs ordered stepped
  | sidecar event =>
      cases event with
      | start =>
          obtain rfl := Option.some.inj taken
          exact Or.inl before.sidecarStart
      | connectPools => exact absurd ordered before.not_cleaned
      | connectSqs | resolve =>
          obtain ⟨sidecar, after, there, stepped, -⟩ := sidecarStep_of_step (by simp) taken
          rw [before.sidecar sidecar there] at stepped
          contradiction

theorem Node.Settled.step {dma : DmaManager} (settled : node.Settled dma)
    (ordered : Ordered node event) (taken : node.step float app event = some next) : next.Kept := by
  cases event with
  | call name workerNum =>
      obtain rfl := Option.some.inj taken
      exact Or.inr ⟨dma, settled.call ordered.2 workerNum⟩
  | step index outcome =>
      obtain ⟨starting, first, rest, middle, after, found, steps, performed, rfl⟩ :=
        step_cases taken
      exact Or.inr ⟨dma, settled.perform found steps ordered performed⟩
  | dma event =>
      cases event with
      | start =>
          obtain rfl := Option.some.inj taken
          exact Or.inl ⟨.starting rfl, ordered.1, ordered.2⟩
      | glob | remove | reset | clear | create | attach | scan | lookup | resolve =>
          obtain ⟨other, runs, stepped⟩ := dmaStep_of_step (by simp) taken
          obtain rfl : dma = other := Option.some.inj (settled.runs.symm.trans runs)
          exact settled.dmaStep stepped
  | sidecar event =>
      cases event with
      | start =>
          obtain rfl := Option.some.inj taken
          refine Or.inr ⟨dma, { settled with sidecar := ?_ }⟩
          intro sidecar same
          rw [← Option.some.inj same]
          exact ⟨fun _ _ cached => by contradiction, fun _ mapped => by contradiction,
            fun _ mapped => by contradiction⟩
      | connectPools | connectSqs | resolve =>
          obtain ⟨sidecar, after, there, stepped, rfl⟩ := sidecarStep_of_step (by simp) taken
          exact Or.inr ⟨dma, settled.sidecarStep there stepped⟩

/-- A call that has written its entry meets the order in all its steps. -/
theorem ordered_of_entered {index : Nat} (count : Nat)
    (entered : ∀ starting, node.calls[index]? = some starting →
      InitStep.register ∉ starting.call.rest) :
    EachStep (Node.step float app) Ordered node (List.replicate count (.step index .done)) := by
  induction count generalizing node with
  | zero => trivial
  | succ count inductionHypothesis =>
      intro next taken
      constructor
      · intro starting found head
        exact absurd (List.mem_of_head? head) (entered starting found)
      · apply inductionHypothesis
        obtain ⟨own, first, rest, middle, after, found, steps, performed, rfl⟩ := step_cases taken
        have left := entered own found
        rw [steps, List.mem_cons, not_or] at left
        intro starting here
        rcases getElem?_set_cases here with ⟨-, rfl⟩ | ⟨other, -⟩
        · cases performed with
          | quiet | allocId | openFile | attachFile => exact left.2
          | register => exact absurd rfl left.1
        · exact absurd rfl other

/-- Nobody runs yet. What lies in `/dev/shm` may be left from before. -/
structure Node.Fresh (node : Node) : Prop where
  calls : node.calls = []
  dma : node.dma = none
  sidecar : node.sidecar = none

theorem Node.Fresh.before (fresh : node.Fresh) : node.Before where
  clearing := .absent fresh.dma
  calls := fresh.calls
  sidecar := by simp [fresh.sidecar]

/-- The DMA manager cleans up, and a worker starts behind it. -/
def managerFirst : List Event :=
  [.dma .start, .dma .glob, .dma (.reset true), .dma (.clear true), .call startingApp 0,
    .step 0 .done, .step 0 .done, .step 0 .done] ++ List.replicate 20 (.step 0 .done)

theorem ordered_managerFirst : EachStep (Node.step noFloat []) Ordered {} managerFirst := by
  have aside : ∀ {node : Node} {starting : Starting} {first : InitStep} {rest : List InitStep},
      node.calls[0]? = some starting → starting.call.rest = first :: rest → first ≠ .register →
      Ordered node (.step 0 .done) := by
    intro node starting first rest found steps different found' same head
    obtain rfl : starting = found' := Option.some.inj (found.symm.trans same)
    rw [steps] at head
    exact absurd (Option.some.inj head) different
  refine eachStep_append.mpr ⟨?_, fun middle runs => ordered_of_entered 20 fun starting found => ?_⟩
  · refine eachStep_cons rfl ⟨rfl, fun sidecar there => by contradiction⟩ (eachStep_cons rfl trivial
      (eachStep_cons rfl rfl (eachStep_cons rfl rfl (eachStep_cons rfl ⟨⟨_, rfl, trivial⟩, by decide⟩
        (eachStep_cons rfl (aside rfl rfl ?_) (eachStep_cons rfl (aside rfl rfl ?_)
          (eachStep_cons rfl ?_ trivial)))))))
    · intro same
      contradiction
    · intro same
      contradiction
    · intro starting found _
      obtain rfl := Option.some.inj found
      refine ⟨by decide, fun other member registered => ?_⟩
      obtain rfl := List.mem_singleton.mp member
      contradiction
  · have left := congrArg (Option.map fun node => node.calls.map fun call => call.call.rest) runs
    have steps : [dpumeshInit.drop 3] = middle.calls.map fun call => call.call.rest :=
      Option.some.inj left
    have member := List.mem_map_of_mem (f := fun call => call.call.rest) (List.mem_of_getElem? found)
    rw [← steps, List.mem_singleton] at member
    rw [member]
    decide

end Runs

/-! ### Files that are removed -/

section Removing

variable {float : PyStr → Numeral} {app : PyStr} {node next last : Node} {event : Event}
  {events : List Event} {index : Nat} {kind : FileKind}

/-- A step of the DMA manager leaves the calls alone, and makes a file or removes one. -/
theorem dmaStep_changes {dma : DmaManager} {event : DmaEvent}
    (stepped : node.dmaStep float app dma dma.phase event = some next) :
    next.calls = node.calls ∧ ∃ changes : List (Change NodeFile),
      next.dir = changes.foldl change node.dir ∧
        ∀ name, .unlink name ∈ changes ↔ event = .remove name := by
  have same : ∀ {next : Node}, next.dir = node.dir → (∀ name, event ≠ .remove name) →
      ∃ changes : List (Change NodeFile), next.dir = changes.foldl change node.dir ∧
        ∀ name, .unlink name ∈ changes ↔ event = .remove name := by
    intro next equal other
    exact ⟨[], equal, fun name => by simpa using other name⟩
  unfold Node.dmaStep at stepped
  split at stepped
  · obtain rfl := Option.some.inj stepped
    exact ⟨rfl, same rfl (by simp)⟩
  · obtain ⟨-, equal⟩ := Option.ite_none_right_eq_some.mp stepped
    obtain rfl := Option.some.inj equal
    refine ⟨rfl, [.unlink _], rfl, fun name => ?_⟩
    rw [List.mem_singleton]
    constructor
    · intro unlinked
      rw [Change.unlink.inj unlinked]
    · intro removed
      rw [DmaEvent.remove.inj removed]
  · obtain rfl := Option.some.inj stepped
    exact ⟨rfl, same rfl (by simp)⟩
  · obtain rfl := Option.some.inj stepped
    exact ⟨rfl, same rfl (by simp)⟩
  · obtain rfl := Option.some.inj stepped
    exact ⟨rfl, [.create _], rfl, by simp⟩
  · obtain rfl := Option.some.inj stepped
    exact ⟨rfl, same rfl (by simp)⟩
  · obtain rfl := Option.some.inj stepped
    exact ⟨rfl, same rfl (by simp)⟩
  · obtain rfl := Option.some.inj stepped
    exact ⟨rfl, same rfl (by simp)⟩
  · obtain rfl := Option.some.inj stepped
    exact ⟨rfl, same rfl (by simp)⟩
  · contradiction

/-- A step makes files, or removes the one that it names. -/
theorem step_changes (taken : node.step float app event = some next) :
    ∃ changes : List (Change NodeFile), next.dir = changes.foldl change node.dir ∧
      ∀ name, .unlink name ∈ changes ↔ event = .dma (.remove name) := by
  cases event with
  | call name workerNum =>
      obtain rfl := Option.some.inj taken
      exact ⟨[], rfl, by simp⟩
  | step index outcome =>
      obtain ⟨starting, first, rest, middle, after, -, -, performed, rfl⟩ := step_cases taken
      cases performed with
      | openFile kind => exact ⟨[.create _], rfl, by simp⟩
      | quiet | failed | allocUnwritten | registerUnwritten | allocId | register | attachFile =>
          exact ⟨[], rfl, by simp⟩
  | dma event =>
      cases event with
      | start =>
          obtain rfl := Option.some.inj taken
          exact ⟨[], rfl, by simp⟩
      | glob | remove | reset | clear | create | attach | scan | lookup | resolve =>
          obtain ⟨dma, -, stepped⟩ := dmaStep_of_step (by simp) taken
          obtain ⟨-, changes, equal, unlinks⟩ := dmaStep_changes stepped
          exact ⟨changes, equal, by simpa using unlinks⟩
  | sidecar event =>
      cases event with
      | start =>
          obtain rfl := Option.some.inj taken
          exact ⟨[], rfl, by simp⟩
      | connectPools | connectSqs | resolve =>
          obtain ⟨sidecar, after, -, -, rfl⟩ := sidecarStep_of_step (by simp) taken
          exact ⟨[], rfl, by simp⟩

theorem run_changes (runs : run (Node.step float app) node events = some last) :
    ∃ changes : List (Change NodeFile), last.dir = changes.foldl change node.dir ∧
      ∀ name, .unlink name ∈ changes ↔ .dma (.remove name) ∈ events := by
  induction events generalizing node with
  | nil =>
      obtain rfl := Option.some.inj runs
      exact ⟨[], rfl, by simp⟩
  | cons event events inductionHypothesis =>
      obtain ⟨next, taken, runs⟩ := run_cons.mp runs
      obtain ⟨first, here, unlinks⟩ := step_changes taken
      obtain ⟨others, later, unlinks'⟩ := inductionHypothesis runs
      refine ⟨first ++ others, by rw [List.foldl_append, ← here, later], fun name => ?_⟩
      rw [List.mem_append, List.mem_cons, unlinks name, unlinks' name, eq_comm]

/-- The daemons leave the calls alone. -/
theorem calls_of_daemons (noCall : ∀ name workerNum, event ≠ .call name workerNum)
    (noStep : ∀ index outcome, event ≠ .step index outcome)
    (taken : node.step float app event = some next) : next.calls = node.calls := by
  cases event with
  | call name workerNum => exact absurd rfl (noCall name workerNum)
  | step index outcome => exact absurd rfl (noStep index outcome)
  | dma event =>
      cases event with
      | start =>
          obtain rfl := Option.some.inj taken
          rfl
      | glob | remove | reset | clear | create | attach | scan | lookup | resolve =>
          obtain ⟨dma, -, stepped⟩ := dmaStep_of_step (by simp) taken
          exact (dmaStep_changes stepped).1
  | sidecar event =>
      cases event with
      | start =>
          obtain rfl := Option.some.inj taken
          rfl
      | connectPools | connectSqs | resolve =>
          obtain ⟨sidecar, after, -, -, rfl⟩ := sidecarStep_of_step (by simp) taken
          rfl

/-- What is left of a call that is past its id and past a file. -/
def Starting.Past (starting : Starting) (kind : FileKind) : Prop :=
  InitStep.allocId ∉ starting.call.rest ∧ InitStep.attachFile kind ∉ starting.call.rest

/-- A call that is past a file keeps it. -/
theorem step_keeps {starting : Starting} (found : node.calls[index]? = some starting)
    (past : starting.Past kind) (taken : node.step float app event = some next) :
    ∃ after, next.calls[index]? = some after ∧ after.Past kind ∧
      after.held kind = starting.held kind ∧ after.file kind = starting.file kind := by
  have below := (List.getElem?_eq_some_iff.mp found).1
  cases event with
  | call name workerNum =>
      obtain rfl := Option.some.inj taken
      exact ⟨starting, (List.getElem?_append_left below).trans found, past, rfl, rfl⟩
  | step other outcome =>
      obtain ⟨own, first, rest, middle, after, here, steps, performed, rfl⟩ := step_cases taken
      have calls : middle.calls = node.calls := by cases performed <;> rfl
      rw [calls]
      by_cases mine : other = index
      · subst mine
        obtain rfl : starting = own := Option.some.inj (found.symm.trans here)
        obtain ⟨noId, noFile⟩ := past
        rw [steps, List.mem_cons, not_or] at noId noFile
        refine ⟨after, List.getElem?_set_self below, ?_⟩
        cases performed with
        | quiet | registerUnwritten | register | openFile =>
            exact ⟨⟨noId.2, noFile.2⟩, rfl, rfl⟩
        | failed => exact ⟨⟨List.not_mem_nil, List.not_mem_nil⟩, rfl, rfl⟩
        | allocUnwritten | allocId => exact absurd rfl noId.1
        | attachFile attached file =>
            have different : kind ≠ attached := by
              rintro rfl
              exact noFile.1 rfl
            exact ⟨⟨noId.2, noFile.2⟩, Function.update_of_ne different _ _, rfl⟩
      · exact ⟨starting, (List.getElem?_set_ne mine).trans found, past, rfl, rfl⟩
  | dma | sidecar =>
      rw [calls_of_daemons (by simp) (by simp) taken]
      exact ⟨starting, found, past, rfl, rfl⟩

theorem run_keeps {starting : Starting} (found : node.calls[index]? = some starting)
    (past : starting.Past kind) (runs : run (Node.step float app) node events = some last) :
    ∃ after, last.calls[index]? = some after ∧
      after.held kind = starting.held kind ∧ after.file kind = starting.file kind := by
  induction events generalizing node starting with
  | nil =>
      obtain rfl := Option.some.inj runs
      exact ⟨starting, found, rfl, rfl⟩
  | cons event events inductionHypothesis =>
      obtain ⟨next, taken, runs⟩ := run_cons.mp runs
      obtain ⟨after, found', past', held, file⟩ := step_keeps found past taken
      obtain ⟨later, found'', held', file'⟩ := inductionHypothesis found' past' runs
      exact ⟨later, found'', held'.trans held, file'.trans file⟩

/-- What is left of a call is an end of `dpumesh_init`. -/
theorem suffix_of_run (fresh : node.Fresh)
    (runs : run (Node.step float app) node events = some last) :
    ∀ starting ∈ last.calls, starting.call.rest <:+ dpumeshInit := by
  have keeps : ∀ {node next : Node} {event : Event}, node.step float app event = some next →
      (∀ starting ∈ node.calls, starting.call.rest <:+ dpumeshInit) →
        ∀ starting ∈ next.calls, starting.call.rest <:+ dpumeshInit := by
    intro node next event taken all
    cases event with
    | call name workerNum =>
        obtain rfl := Option.some.inj taken
        intro starting member
        rcases List.mem_append.mp member with old | new
        · exact all starting old
        · rw [List.mem_singleton.mp new]
    | step index outcome =>
        obtain ⟨own, first, rest, middle, after, here, steps, performed, rfl⟩ := step_cases taken
        have calls : middle.calls = node.calls := by cases performed <;> rfl
        have shorter : rest <:+ dpumeshInit := by
          have suffix := all own (List.mem_of_getElem? here)
          rw [steps] at suffix
          exact (List.suffix_cons first rest).trans suffix
        rw [calls]
        apply forall_set all
        cases performed with
        | failed => exact List.nil_suffix
        | quiet | allocUnwritten | registerUnwritten | allocId | register | openFile | attachFile =>
            exact shorter
    | dma | sidecar =>
        rw [calls_of_daemons (by simp) (by simp) taken]
        exact all
  have start : ∀ starting ∈ node.calls, starting.call.rest <:+ dpumeshInit := by
    simp [fresh.calls]
  clear fresh
  induction events generalizing node with
  | nil =>
      obtain rfl := Option.some.inj runs
      exact start
  | cons event events inductionHypothesis =>
      obtain ⟨next, taken, runs⟩ := run_cons.mp runs
      exact inductionHypothesis runs (keeps taken start)

/-- A worker starts and comes to its first file. -/
def firstFile : List Event :=
  [.call startingApp 0, .step 0 .done, .step 0 .done, .step 0 .done, .step 0 .done, .step 0 .done]

end Removing

end MiniMs.Daemon.Attachments

import MiniMs.Dpumesh.Descriptor

/-!
The descriptors that the DPA makes of the ones it takes.

Owns: the descriptor put in the sidecar TX ring by `_handle_host_tx`, and those
put in a host RX ring by `_dma_case2` and `_dma_case3`.
-/

namespace MiniMs.Daemon

open MiniMs.Dpumesh

/-- `sidecar_desc`: the header has moved to the DPU TX pool, the body is still
where it was. -/
def sidecarDesc (desc : SwDescriptor) (dpuHeaderSlot : Int) : SwDescriptor where
  headerBufSlot := dpuHeaderSlot
  headerLen := desc.headerLen
  bodyBufSlot := desc.bodyBufSlot
  bodyLen := desc.bodyLen
  reqId := desc.reqId
  stepId := desc.stepId
  dstPodId := desc.dstPodId
  srcPodId := desc.srcPodId
  flags := desc.flags
  valid := 1
  srcBodyPoolType := desc.srcBodyPoolType
  srcBodyPodId := desc.srcBodyPodId
  srcBodyBufSlot := desc.srcBodyBufSlot
  srcHeaderPoolType := PoolType.dpuTxHeader.code
  srcHeaderPodId := 0
  srcHeaderBufSlot := dpuHeaderSlot

/-- `rx_desc` of `_dma_case2`. -/
def case2RxDesc (desc : SwDescriptor) (hostBodySlot : Int) : SwDescriptor where
  headerBufSlot := -1
  headerLen := 0
  bodyBufSlot := hostBodySlot
  bodyLen := desc.bodyLen
  reqId := desc.reqId
  stepId := desc.stepId
  dstPodId := desc.dstPodId
  srcPodId := desc.srcPodId
  flags := desc.flags
  valid := 1

/-- `rx_desc` of `_dma_case3`. -/
def case3RxDesc (desc : SwDescriptor) (hostHeaderSlot hostBodySlot : Int) : SwDescriptor where
  headerBufSlot := hostHeaderSlot
  headerLen := desc.headerLen
  bodyBufSlot := hostBodySlot
  bodyLen := desc.bodyLen
  reqId := desc.reqId
  stepId := desc.stepId
  dstPodId := desc.dstPodId
  srcPodId := desc.srcPodId
  flags := desc.flags
  valid := 1

end MiniMs.Daemon

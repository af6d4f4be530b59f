import Mathlib.Algebra.BigOperators.Group.List.Basic
import TensorPC.Py.Dict

namespace TensorPC.Cflow

/-!
# Resource descriptions

A node asks for a number of CPUs, an amount of memory, a number of GPUs and an
amount of GPU memory; an executor offers the same four quantities, where `-1`
stands for "all of it" and never runs out.
-/

/-- Resources asked for by a node or left on an executor. -/
structure ResourceDesc where
  CPU : Int
  Mem : Int
  GPU : Int
  GPUMem : Int
  deriving DecidableEq, Repr

namespace ResourceDesc

/-- Whether one offered quantity covers one requested quantity. -/
def fieldSufficient (offered requested : Int) : Bool :=
  !(offered != -1 && offered < requested)

/-- What is left of one quantity after a request. -/
def fieldRemain (offered requested : Int) : Int :=
  if offered ≠ -1 then offered - requested else -1

/-- `is_request_sufficient`. -/
def isRequestSufficient (self reqRc : ResourceDesc) : Bool :=
  fieldSufficient self.CPU reqRc.CPU &&
  fieldSufficient self.Mem reqRc.Mem &&
  fieldSufficient self.GPU reqRc.GPU &&
  fieldSufficient self.GPUMem reqRc.GPUMem

/-- `get_request_remain_rc`. -/
def getRequestRemainRc (self reqRc : ResourceDesc) : ResourceDesc where
  CPU := fieldRemain self.CPU reqRc.CPU
  Mem := fieldRemain self.Mem reqRc.Mem
  GPU := fieldRemain self.GPU reqRc.GPU
  GPUMem := fieldRemain self.GPUMem reqRc.GPUMem

end ResourceDesc

/-!
# Compute nodes, edges and flows

What the scheduler reads of a compute flow: the handles of each node, the
resources and the executor it asks for, and the edges between handles.
-/

abbrev NodeId := String
abbrev HandleName := String

/-- `AnnoHandle.type`. -/
inductive HandleType
  | source
  | target
  | handledictsource
  deriving DecidableEq, Repr

/-- An input or output handle of a compute node. -/
structure AnnoHandle where
  type : HandleType
  name : HandleName
  isOptional : Bool
  deriving DecidableEq, Repr

/-- The part of `ComputeNodeDesc` that decides where a node runs. -/
structure ComputeNodeDesc where
  hasTempExecutorCreator : Bool
  execAlwaysLocal : Bool
  resourceDesp : Option ResourceDesc
  deriving DecidableEq, Repr

/-- `ComputeNodeRuntime`, as far as the scheduler reads it. -/
structure ComputeNodeRuntime where
  cfg : ComputeNodeDesc
  inpHandles : List AnnoHandle
  outHandles : List AnnoHandle
  deriving DecidableEq, Repr

/-- `ComputeNodeModel`, as far as the scheduler reads it. -/
structure ComputeNodeModel where
  id : NodeId
  vResource : ResourceDesc
  vExecId : String
  runtime : ComputeNodeRuntime
  deriving DecidableEq, Repr

namespace ComputeNodeModel

/-- The request that `assign_node_executor` sorts and checks by. -/
def assignResource (node : ComputeNodeModel) : ResourceDesc :=
  node.runtime.cfg.resourceDesp.getD node.vResource

end ComputeNodeModel

end TensorPC.Cflow

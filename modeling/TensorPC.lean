import TensorPC.Adv.InputCoverage
import TensorPC.Astex.SourceChangeCache
import TensorPC.Autossh.TaskLifeCycle
import TensorPC.Autossh.TaskPolls
import TensorPC.Cflow.HandleLifetime
import TensorPC.Cflow.Oversubscription
import TensorPC.Dist.Broadcast
import TensorPC.Dist.WorkerTable
import TensorPC.Dock.MountLifeCycle
import TensorPC.Dock.StorageRuns
import TensorPC.Dock.TreeSearch
import TensorPC.Draft.AtomicUpdate
import TensorPC.Draft.ChangeEvents
import TensorPC.Draft.FreezeData
import TensorPC.Draft.MapKeys
import TensorPC.Draft.PathLocations
import TensorPC.Events.ProviderInvariant
import TensorPC.Flowplus.RequestRuns
import TensorPC.Flowui.Consistency
import TensorPC.Flowui.GraphEditRuns
import TensorPC.Flowui.MergedEvents
import TensorPC.Flowui.RemoteEvents
import TensorPC.Funcid.FoldedCode
import TensorPC.Kv.ChunkTiling
import TensorPC.Kv.ShmStoreRun
import TensorPC.Kv.StreamSafety
import TensorPC.Kv.StreamedItem
import TensorPC.Pfl.CallBinding
import TensorPC.Pfl.PauseRun
import TensorPC.Pfl.SourceLookup
import TensorPC.Pmql.AgreementCondition
import TensorPC.Rpc.BufferFormat
import TensorPC.Rpc.SharedTransfer
import TensorPC.Rpc.StreamReassembly
import TensorPC.Service.CodeDiffs
import TensorPC.Service.ReloadRuns
import TensorPC.Tracers.BracketedCalls
import TensorPC.Tracers.FirstReturns
import TensorPC.Tracers.FlowsApart
import TensorPC.Tsim.BlockContract
import TensorPC.Ttfs.BlockAddressing
import TensorPC.Ttfs.DefaultLayouts
import TensorPC.Wire.MessageChunks

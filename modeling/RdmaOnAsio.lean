import RdmaOnAsio.Ibv.Proofs.WatcherTeardown
import RdmaOnAsio.Ibv.Proofs.Terminal
import RdmaOnAsio.Ibv.Proofs.LostAbort
import RdmaOnAsio.Ibv.Proofs.WaitLatch
import RdmaOnAsio.Ibv.Proofs.PollDelivery
import RdmaOnAsio.Ibv.Proofs.Shutdown
import RdmaOnAsio.Ibv.Proofs.EventRouting
import RdmaOnAsio.Ibv.Proofs.EdgeDrain
import RdmaOnAsio.Ibv.Proofs.OpPointers
import RdmaOnAsio.Ibv.Proofs.Backlog
import RdmaOnAsio.Ibv.Proofs.SubmitRace
import RdmaOnAsio.Ibv.Proofs.Prepared
import RdmaOnAsio.Ibv.Proofs.IncomingConnections
import RdmaOnAsio.Ibv.Proofs.SharedCq
import RdmaOnAsio.Nd.Proofs.NativeTeardown
import RdmaOnAsio.OpenedFresh
import RdmaOnAsio.WaitCodes
import RdmaOnAsio.Cancellation
import RdmaOnAsio.Proofs.Registry
import RdmaOnAsio.ByteAccounting
import RdmaOnAsio.PostedMemory
import RdmaOnAsio.Detail.Proofs.MrRange
import RdmaOnAsio.ConfigCoherent
import RdmaOnAsio.Ibv.Proofs.UseDevice
import RdmaOnAsio.Nd.Proofs.QueuePair
import RdmaOnAsio.Nd.Proofs.Discovery
import RdmaOnAsio.Nd.Proofs.PollerProgress
import RdmaOnAsio.Nd.Proofs.CompletionQueue
import RdmaOnAsio.MemoryRegions
import RdmaOnAsio.Ibv.Proofs.Device
import RdmaOnAsio.Nd.Proofs.Device
import RdmaOnAsio.Nd.Proofs.UseDevice
import RdmaOnAsio.Nd.Proofs.ConnectionHandles
import RdmaOnAsio.Nd.Proofs.Lifetime
import RdmaOnAsio.Ibv.Proofs.QueuePairs

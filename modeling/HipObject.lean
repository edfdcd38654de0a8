import HipObject.Bridge.ClientNic
import HipObject.Bridge.ClientRules
import HipObject.Bridge.DeviceMemory
import HipObject.Bridge.ShortGet
import HipObject.Buffer.CopyList
import HipObject.Library.Environment
import HipObject.Library.GivesBack
import HipObject.Library.Lifecycle
import HipObject.Library.NicDistance
import HipObject.Library.NicHint
import HipObject.Rdma.PoolCompletions
import HipObject.Rdma.PoolProgress
import HipObject.Server.HttpStop
import HipObject.Server.RoundTrip
import HipObject.Transfer.Simulation

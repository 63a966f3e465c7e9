import IdaMcp.Artifacts.Rightful
import IdaMcp.ControlFlow.Callgraph
import IdaMcp.ControlFlow.FindPaths
import IdaMcp.Debugger.Ownership
import IdaMcp.Debugger.Runtime
import IdaMcp.Debugger.SelectModule
import IdaMcp.Dsc.Escaping
import IdaMcp.Dsc.OwnScript
import IdaMcp.Dsc.Reuse
import IdaMcp.ErrorText
import IdaMcp.Foreground.Deadlines
import IdaMcp.Foreground.Discarded
import IdaMcp.Foundation.IpAddr
import IdaMcp.Foundation.Python
import IdaMcp.Handle.Analysis
import IdaMcp.Handle.Authorized
import IdaMcp.Handle.DebugPin
import IdaMcp.HttpAccess.Admission
import IdaMcp.HttpAccess.Policy
import IdaMcp.IdleReaping
import IdaMcp.Listing.Paging
import IdaMcp.Listing.Patches
import IdaMcp.Listing.RenderRange
import IdaMcp.LockExclusion
import IdaMcp.Logging.Shutdown
import IdaMcp.Lookup.ResolveName
import IdaMcp.Mutation.Listed
import IdaMcp.OpenDsc.Atomic
import IdaMcp.OpenIdb.Bound
import IdaMcp.Params.ValueToBytes
import IdaMcp.Pool.Capacity
import IdaMcp.Pool.Drains
import IdaMcp.Pool.Leases
import IdaMcp.Pool.Minimum
import IdaMcp.Pool.Release
import IdaMcp.Pool.Shutdown
import IdaMcp.RawOpen.Validated
import IdaMcp.Router.Exact
import IdaMcp.Schema.Complete
import IdaMcp.Search.FindBytes
import IdaMcp.Search.FindInsns
import IdaMcp.Sessions.Abandoned
import IdaMcp.Slices.Existing
import IdaMcp.Slices.FatHeader
import IdaMcp.Slices.Publication
import IdaMcp.Target.Locals
import IdaMcp.Tasks.Admission
import IdaMcp.Tasks.Timestamp
import IdaMcp.Tools.Gate
import IdaMcp.Tools.Instructions
import IdaMcp.Trail.Truthful
import IdaMcp.Transport.Correlation
import IdaMcp.Transport.Drained
import IdaMcp.Transport.Framing
import IdaMcp.Transport.Reply
import IdaMcp.Worker.Discard
import IdaMcp.Worker.OneWinner
import IdaMcp.Workspace.Undercut

import ObjectLink.Foundation.Since
import ObjectLink.Foundation.Machine
import ObjectLink.Foundation.Roster
import ObjectLink.Foundation.FiniteMap
import ObjectLink.Foundation.Program
import ObjectLink.Foundation.Threads
import ObjectLink.Foundation.Pool
import ObjectLink.Foundation.Budget
import ObjectLink.Foundation.Separator
import ObjectLink.Foundation.Orbit
import ObjectLink.Core.Types
import ObjectLink.Core.MemberIds
import ObjectLink.Core.Json
import ObjectLink.Core.Protocol
import ObjectLink.Core.Decode
import ObjectLink.Core.Diagnosis
import ObjectLink.Core.Faithful
import ObjectLink.Core.HandlerFailures
import ObjectLink.Core.BaseNode
import ObjectLink.Core.MessageConverter
import ObjectLink.Core.UniqueIdObjectStorage
import ObjectLink.Core.StorageRuns
import ObjectLink.Core.Reissue
import ObjectLink.Core.Allocation
import ObjectLink.Core.AnyCapacity
import ObjectLink.Core.Registrations
import ObjectLink.Core.Sharing
import ObjectLink.RemoteRegistry
import ObjectLink.RemoteRegistryRuns
import ObjectLink.ClientRegistry
import ObjectLink.ClientRegistryRuns
import ObjectLink.ClientNode
import ObjectLink.ClientRuns
import ObjectLink.ClientCalls
import ObjectLink.ClientLifetime
import ObjectLink.LinkCalls
import ObjectLink.RemoteNode
import ObjectLink.RemoteRuns
import ObjectLink.RemoteLifetime
import ObjectLink.MemberMessages
import ObjectLink.MalformedMembers
import ObjectLink.Connections
import ObjectLink.Isolation
import ObjectLink.Updates
import ObjectLink.Session
import ObjectLink.InvokeAnswers
import ObjectLink.Operations.Process
import ObjectLink.Operations.Registries
import ObjectLink.Operations.Nodes
import ObjectLink.Operations.Running
import ObjectLink.Operations.Handlers
import ObjectLink.Operations.Simulation
import ObjectLink.Operations.Refinement
import ObjectLink.Operations.Network
import ObjectLink.Operations.Settling
import ObjectLink.Operations.Delivery
import ObjectLink.OLinkClient
import ObjectLink.NoExceptions
import ObjectLink.LoggingInfluence
import ObjectLink.Formats
import ObjectLink.LockDiscipline
import ObjectLink.Operations.Sections
import ObjectLink.Operations.Orderly
import ObjectLink.Concurrency
import ObjectLink.Callbacks
import ObjectLink.AddedAgain
import ObjectLink.PendingCalls
import ObjectLink.ClientDestruction
import ObjectLink.RegisteringSources
import ObjectLink.IndependentEdits
import ObjectLink.StrayUnlinks

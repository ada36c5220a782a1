import KataAgent.Transition
import KataAgent.Fallible
import KataAgent.Message
import KataAgent.Renumbering
import KataAgent.DeviceUpdate
import KataAgent.DeviceSubstitution
import KataAgent.DeviceRules
import KataAgent.Hotplug
import KataAgent.Segments
import KataAgent.DeviceAddresses
import KataAgent.HotplugDelivery
import KataAgent.ContainerStart
import KataAgent.SyncInvariant
import KataAgent.SyncCompletion
import KataAgent.SyncReads
import KataAgent.SyncTransfer
import KataAgent.ChildConfinement
import KataAgent.ContainerRequests
import KataAgent.SharedNamespaces
import KataAgent.StorageHandling
import KataAgent.ContainerRemoval
import KataAgent.StorageReferences
import KataAgent.StorageTeardown
import KataAgent.CreateFailure
import KataAgent.StorageCounts
import KataAgent.RemovalOverlap
import KataAgent.RemovalRetry
import KataAgent.ProcessRuntime
import KataAgent.DescriptorOwnership
import KataAgent.PidTracking
import KataAgent.ExitTracking
import KataAgent.ExitReaping
import KataAgent.LostExits
import KataAgent.StreamReads
import KataAgent.ConcurrentWaits
import KataAgent.ExecIds
import KataAgent.DescriptorAccounting
import KataAgent.HotplugNotices
import KataAgent.HotplugRemoval
import KataAgent.ContainerObject
import KataAgent.HookStates
import KataAgent.ContainerStatus
import KataAgent.Recreation
import KataAgent.HookOrder
import KataAgent.EnvEntries
import KataAgent.HookChild
import KataAgent.ProcessHandlers
import KataAgent.SignalMask
import KataAgent.HandlerReplies
import KataAgent.RemovalVariants
import KataAgent.ContainerTeardown
import KataAgent.RecordWalk
import KataAgent.Netlink
import KataAgent.NetlinkWalks
import KataAgent.NetlinkHistory
import KataAgent.AttributeWrites
import KataAgent.AttributeRoundTrip
import KataAgent.RequestMessages
import KataAgent.HardwareAddress
import KataAgent.IpText
import KataAgent.FamilyMessages
import KataAgent.LinkLookup
import KataAgent.InterfaceListing
import KataAgent.RouteConversion
import KataAgent.RouteListing
import KataAgent.MessageFamilies
import KataAgent.RouteUpdates
import KataAgent.RouteReplies
import KataAgent.InterfaceUpdate
import KataAgent.CgroupFiles
import KataAgent.CgroupPaths
import KataAgent.RootfsSetup
import KataAgent.CallLog
import KataAgent.RootfsConfinement
import KataAgent.RootfsEscape
import KataAgent.CopyFile
import KataAgent.CopyDelivery
import KataAgent.CopyIsolation
import KataAgent.ProcessTable
import KataAgent.SignalDelivery
import KataAgent.LastWrite
import KataAgent.MountOptions
import KataAgent.CgroupMounts
import KataAgent.MountStacks
import KataAgent.MoveRoot
import KataAgent.Directories
import KataAgent.ParentCopies
import KataAgent.CopiedValues
import KataAgent.CpusetChain
import KataAgent.DecimalText
import KataAgent.AllProcs
import KataAgent.SearchPattern
import KataAgent.ParseSize
import KataAgent.HugepageSizes
import KataAgent.BlkioFiles
import KataAgent.CgroupSetters
import KataAgent.MemoryLimits
import KataAgent.LimitFrame
import KataAgent.SubsystemNames
import KataAgent.DestroyCgroups
import KataAgent.BinaryRounding
import KataAgent.CpuTime
import KataAgent.CgroupList
import KataAgent.InitMounts
import KataAgent.GrpcSpec
import KataAgent.Validator
import KataAgent.SysctlRules
import KataAgent.SysctlFiles
import KataAgent.LinkPaths
import KataAgent.RootfsLinks
import KataAgent.IdMappings
import KataAgent.NamespaceSets
import KataAgent.Serials
import KataAgent.OciSpec
import KataAgent.ConfigJson
import KataAgent.Copies
import KataAgent.GrpcToOci
import KataAgent.SpecFidelity
import KataAgent.Capabilities
import KataAgent.GreedySearch
import KataAgent.MountFsType
import KataAgent.CpuOnline
import KataAgent.UeventMessages
import KataAgent.BitFields
import KataAgent.DeviceNumbers
import KataAgent.UniqueDrain
import KataAgent.StartOrder
import KataAgent.ProcessNamespaces
import KataAgent.PodNamespaces
import KataAgent.Credentials
import KataAgent.ProcessCredentials
import KataAgent.NamedPipe
import KataAgent.ExecFifo
import KataAgent.FifoHang
import KataAgent.MountViews
import KataAgent.RootfsFinish
import KataAgent.FinishedRootfs
import KataAgent.SandboxLife
import KataAgent.SandboxEnd
import KataAgent.MemoryHotplug
import KataAgent.IdMapFiles

import CubeSandbox.Activity
import CubeSandbox.AgentConserve
import CubeSandbox.AgentIpam
import CubeSandbox.AuthTokens
import CubeSandbox.CgRun
import CubeSandbox.CleanupScope
import CubeSandbox.CommandStream
import CubeSandbox.CreateFailover
import CubeSandbox.DnsEcho
import CubeSandbox.DnsReap
import CubeSandbox.EgressNames
import CubeSandbox.HostDirSafe
import CubeSandbox.HostPaths
import CubeSandbox.LcmAgree
import CubeSandbox.MetaRefresh
import CubeSandbox.Migrate
import CubeSandbox.MultiLock
import CubeSandbox.NodeIndex
import CubeSandbox.PolOrder
import CubeSandbox.ProxyMember
import CubeSandbox.RecordGone
import CubeSandbox.ReflinkCrash
import CubeSandbox.ResourceLocks
import CubeSandbox.ResumeQuota
import CubeSandbox.Scheduler
import CubeSandbox.SnapRefSafe
import CubeSandbox.TapFresh
import CubeSandbox.TapRemoval
import CubeSandbox.TcpRefine
import CubeSandbox.TemplateInUse
import CubeSandbox.TrafficGate
import CubeSandbox.VolumeCount

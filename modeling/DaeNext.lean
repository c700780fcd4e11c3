import DaeNext.EbpfRoutingRefines
import DaeNext.EbpfConnection
import DaeNext.RoutingOwned
import DaeNext.ConnectivityOwned
import DaeNext.ResidentRoutingPublished
import DaeNext.DnsCacheRun
import DaeNext.Ss2022UdpRun
import DaeNext.QuicDatagramSend
import DaeNext.DnsUdpMultiplexRun
import DaeNext.DnsTcpMultiplexRun
import DaeNext.DnsFlightRun
import DaeNext.DnsDomainRoutingRun
import DaeNext.VisionDuplexHandoff
import DaeNext.VisionDuplexDownlink
import DaeNext.SniffTcp
import DaeNext.SniffPacketNumber
import DaeNext.SniffQuic
import DaeNext.SubscriptionPersist
import DaeNext.RuntimeApplyCoordinator
import DaeNext.MuxFrame
import DaeNext.Hysteria2PortHopping
import DaeNext.ConfigMerger
import DaeNext.ConfigPathSafety

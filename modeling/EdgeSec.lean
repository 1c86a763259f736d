import EdgeSec.Lib.Machine
import EdgeSec.Lib.Fifo
import EdgeSec.Lib.Loop
import EdgeSec.Lib.Bytes
import EdgeSec.Lib.Checked
import EdgeSec.Lib.FirstOccurrence
import EdgeSec.Lib.Varint
import EdgeSec.Lib.Memory
import EdgeSec.Lib.XorChain
import EdgeSec.Lib.SortSearch
import EdgeSec.Lib.Terminated
import EdgeSec.Lib.ListEdit
import EdgeSec.Lib.FirstMatch
import EdgeSec.Utils.Squeue
import EdgeSec.Utils.Os
import EdgeSec.Utils.Net
import EdgeSec.Utils.Base64
import EdgeSec.Utils.UciWrt
import EdgeSec.Utils.Iptables
import EdgeSec.Utils.IptablesBridge
import EdgeSec.Utils.IptablesOneRead
import EdgeSec.Supervisor.MacMapper
import EdgeSec.Supervisor.BridgeList
import EdgeSec.Supervisor.Context
import EdgeSec.Supervisor.Connection
import EdgeSec.Supervisor.Ticket
import EdgeSec.Firewall.Rules
import EdgeSec.Supervisor.NetworkCommands
import EdgeSec.Supervisor.FirewallSync
import EdgeSec.Recap.PcapStream
import EdgeSec.Capture.MdnsDecoder
import EdgeSec.Capture.PacketDecoder
import EdgeSec.Capture.DnsQuestion
import EdgeSec.Capture.Cleaner
import EdgeSec.Capture.Protobuf
import EdgeSec.Dns.MdnsMapper
import EdgeSec.Dns.MdnsService
import EdgeSec.Radius.Attributes
import EdgeSec.Dhcp.Dnsmasq
import EdgeSec.Crypt.CryptService
import EdgeSec.Config
import EdgeSec.Supervisor.Subscribers
import EdgeSec.Utils.IfaceMapper
import EdgeSec.Firewall.Service
import EdgeSec.Firewall.ServiceRefines
import EdgeSec.Firewall.Verdict

import Ndpi.Guarantees.AddressCache
import Ndpi.Guarantees.Analyze
import Ndpi.Guarantees.BinaryBitmaps
import Ndpi.Guarantees.Bytestream
import Ndpi.Guarantees.CategoryFile
import Ndpi.Guarantees.CertificateList
import Ndpi.Guarantees.CertificateNames
import Ndpi.Guarantees.CommunityId
import Ndpi.Guarantees.Configuration
import Ndpi.Guarantees.DefaultPorts
import Ndpi.Guarantees.DeserializerBounds
import Ndpi.Guarantees.DeserializerProgress
import Ndpi.Guarantees.DnsAddresses
import Ndpi.Guarantees.Dtls
import Ndpi.Guarantees.DtlsFragments
import Ndpi.Guarantees.FlowRisk
import Ndpi.Guarantees.FlowTracking
import Ndpi.Guarantees.HostDomain
import Ndpi.Guarantees.HostnameCache
import Ndpi.Guarantees.IpString
import Ndpi.Guarantees.Ja4Alpn
import Ndpi.Guarantees.JsonClone
import Ndpi.Guarantees.JsonLiteral
import Ndpi.Guarantees.JsonNames
import Ndpi.Guarantees.LastLine
import Ndpi.Guarantees.Layer4
import Ndpi.Guarantees.ObfuscatedHeuristic
import Ndpi.Guarantees.ProtocolsFile
import Ndpi.Guarantees.QuicReassembly
import Ndpi.Guarantees.QuickCrypt
import Ndpi.Guarantees.RuleAtomicity
import Ndpi.Guarantees.RulePorts
import Ndpi.Guarantees.SerializerKeys
import Ndpi.Guarantees.ServerExtensions
import Ndpi.Guarantees.Snapshots
import Ndpi.Guarantees.SshCiphers
import Ndpi.Guarantees.SshKeyExchange
import Ndpi.Guarantees.StunPeers
import Ndpi.Guarantees.StunRecursion
import Ndpi.Guarantees.TcpFingerprint
import Ndpi.Guarantees.TlsLoops
import Ndpi.Guarantees.TlsMemory
import Ndpi.Guarantees.TlsSegments
import Ndpi.Guarantees.Utils

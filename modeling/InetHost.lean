import InetHost.Host.Operation
import InetHost.Host.Shared
import InetHost.Link.Loopback
import InetHost.Link.Script
import InetHost.Settings.Listing
import InetHost.Proofs.Host.Frames
import InetHost.Proofs.Tcp.Reset
import InetHost.Proofs.Tcp.Unread
import InetHost.Proofs.Host.Termination
import InetHost.Proofs.Tcp.Handshake
import InetHost.Proofs.Tcp.Conveyance
import InetHost.Proofs.Tcp.Stream
import InetHost.Proofs.Tcp.Accounts
import InetHost.Proofs.Tcp.Numbers
import InetHost.Proofs.Tcp.Commuting
import InetHost.Proofs.Dns.Response
import InetHost.Proofs.Host.Discards
import InetHost.Proofs.Udp.Delivery
import InetHost.Proofs.Arp.Eviction
import InetHost.Proofs.Udp.Mailbox
import InetHost.Proofs.Ipv4.Identifiers
import InetHost.Proofs.Dns.Lookup
import InetHost.Proofs.Host.Padding
import InetHost.Proofs.Arp.Exchange
import InetHost.Proofs.Tcp.InOrder
import InetHost.Proofs.Tcp.Connecting
import InetHost.Proofs.Ipv4.Corruption
import InetHost.Proofs.Tcp.Listening
import InetHost.Proofs.Host.Waiting
import InetHost.Proofs.Arp.Resolution
import InetHost.Proofs.Host.Acts
import InetHost.Proofs.Arp.Answers
import InetHost.Proofs.Icmp.Answers
import InetHost.Proofs.Dns.Sockets
import InetHost.Proofs.Icmp.Probes
import InetHost.Proofs.Host.Calls
import InetHost.Proofs.Tcp.Segment
import InetHost.Proofs.Icmp.Series
import InetHost.Proofs.Icmp.OwnProbe
import InetHost.Proofs.Ipv4.Header
import InetHost.Proofs.Dns.Encoding
import InetHost.Proofs.Ipv4.Quad
import InetHost.Proofs.Settings.Listing
import InetHost.Proofs.Ring.Fifo
import InetHost.Proofs.Link.Books
import InetHost.Proofs.Ethernet.Appending

import EdgeSec.Lib.Checked
import EdgeSec.Capture.MdnsDecoder

/-!
# The packet decoder of the capture service

`extract_packets` (`src/capture/middlewares/header_middleware/packet_decoder.c`) turns one
captured frame into the list of protocol schemas the capture middleware stores: it fills a
`struct capture_packet` with `decode_packet`, which decodes the Ethernet header, then by
`ether_type` an IPv4, IPv6 or ARP header, then a TCP, UDP, ICMPv4 or ICMPv6 header, then by
port a DNS, mDNS or DHCP header (`decode_dns_packet` in `dns_decoder.c`,
`decode_mdns_packet` in `mdns_decoder.c`), and pushes one schema for every header pointer
the decoding set.

The frame is the `caplen` bytes libpcap captured, `packet`; every read of it is a checked
read (`EdgeSec.Lib.Checked`) against its length, so a read past the captured bytes is the
fault `outOfBounds`.  A header pointer of `struct capture_packet` is the offset of the header
in the frame.  The guards of the source are kept as they are: `decode_ip4_packet`,
`decode_ip6_packet` and `decode_dns_questions` compare against the wire length `len` of the
frame, and the transport, ARP, DHCP, DNS and mDNS decoders make no check at all.

## Main results

* `decodeEthPacket_of_le`: an Ethernet header that is captured is decoded without a fault.
* `decodeDnsQuestions_fits`: the DNS question name always fits its `MAX_QUESTION_LEN`
  buffer.
* `extractPackets_of_cut_ip4`: a frame cut after its Ethernet header announcing IPv4 on a
  longer wire makes `extract_packets` read the byte after the captured ones;
  `extractPackets_of_bare_ip4_tcp`: so does an untruncated frame that ends with its IPv4
  header announcing TCP.
* `packet_decoder_reads_past_caplen`: both on two concrete frames.
* `decodePacket_ip4_tcp`: on a captured IPv4 frame the TCP header is read at
  `14 + sizeof(struct ip)`, whatever the header length field `ip_hl` says, and the
  application layer is chosen by the ports read there; `optionsTcpFrame` is a frame with IPv4
  options on which that offset misses the TCP header.
-/

namespace EdgeSec

namespace Capture

open Checked

/-! ## Constants and schemas -/

/-- `sizeof(struct ether_header)`. -/
def etherHeaderSize : ℕ := 14

/-- `sizeof(struct ip)`. -/
def ipSize : ℕ := 20

/-- `sizeof(struct ip6_hdr)`. -/
def ip6HdrSize : ℕ := 40

/-- `sizeof(struct tcphdr)`. -/
def tcphdrSize : ℕ := 20

/-- `sizeof(struct udphdr)`. -/
def udphdrSize : ℕ := 8

/-- `sizeof(struct dns_header)`. -/
def dnsHeaderSize : ℕ := 12

/-- `MAX_QUESTION_LEN`. -/
def maxQuestionLen : ℕ := 255

/-- `IF_NAMESIZE`. -/
def ifNamesize : ℕ := 16

/-- `ETHERTYPE_IP`. -/
def ethertypeIp : UInt16 := 0x0800

/-- `ETHERTYPE_IPV6`. -/
def ethertypeIpv6 : UInt16 := 0x86DD

/-- `ETHERTYPE_ARP`. -/
def ethertypeArp : UInt16 := 0x0806

/-- `IPPROTO_TCP`. -/
def ipprotoTcp : UInt8 := 6

/-- `IPPROTO_UDP`. -/
def ipprotoUdp : UInt8 := 17

/-- `IPPROTO_ICMP`. -/
def ipprotoIcmp : UInt8 := 1

/-- `IPPROTO_ICMPV6`. -/
def ipprotoIcmpv6 : UInt8 := 58

/-- `DNS_PORT`. -/
def dnsPort : UInt16 := 53

/-- `MDNS_PORT`. -/
def mdnsPort : UInt16 := 5353

/-- `DHCP_CLIENT_PORT`. -/
def dhcpClientPort : UInt16 := 68

/-- `DHCP_SERVER_PORT`. -/
def dhcpServerPort : UInt16 := 67

/-- `IPV6_VERSION`. -/
def ipv6Version : UInt8 := 0x60

/-- `IPV6_VERSION_MASK`. -/
def ipv6VersionMask : UInt8 := 0xF0

/-- The TCP flag bits `TH_FIN`, `TH_SYN`, `TH_RST`, `TH_PUSH`, `TH_ACK`, `TH_URG`. -/
def thFin : UInt8 := 0x01
def thSyn : UInt8 := 0x02
def thRst : UInt8 := 0x04
def thPush : UInt8 := 0x08
def thAck : UInt8 := 0x10
def thUrg : UInt8 := 0x20

/-- `ntohs` on a little-endian host: the two bytes of the number swapped. -/
def ntohs (x : UInt16) : UInt16 := (x <<< 8) ||| (x >>> 8)

/-- `struct pcap_pkthdr`, with `ts` as the microsecond count `os_to_timestamp` makes of it. -/
structure PcapPkthdr where
  timestamp : ℕ
  caplen : ℕ
  len : ℕ
  deriving Repr, DecidableEq

/-- `struct eth_schema`.  The addresses are their six bytes (the source prints them with
`MACSTR`); every schema starts zeroed, as the `memset` of `extract_packets` leaves it. -/
structure EthSchema where
  timestamp : ℕ := 0
  caplen : ℕ := 0
  length : ℕ := 0
  ifname : String := ""
  etherDhost : List UInt8 := []
  etherShost : List UInt8 := []
  etherType : UInt16 := 0
  deriving Repr, DecidableEq

/-- `struct arp_schema`; the addresses are their bytes. -/
structure ArpSchema where
  arHrd : UInt16 := 0
  arPro : UInt16 := 0
  arHln : UInt8 := 0
  arPln : UInt8 := 0
  arOp : UInt16 := 0
  arpSha : List UInt8 := []
  arpSpa : List UInt8 := []
  arpTha : List UInt8 := []
  arpTpa : List UInt8 := []
  deriving Repr, DecidableEq

/-- `struct ip4_schema`; the addresses are their four bytes. -/
structure Ip4Schema where
  ipSrc : List UInt8 := []
  ipDst : List UInt8 := []
  ipHl : UInt8 := 0
  ipV : UInt8 := 0
  ipTos : UInt8 := 0
  ipLen : UInt16 := 0
  ipId : UInt16 := 0
  ipOff : UInt16 := 0
  ipTtl : UInt8 := 0
  ipP : UInt8 := 0
  ipSum : UInt16 := 0
  deriving Repr, DecidableEq

/-- `struct ip6_schema`; the addresses are their sixteen bytes. -/
structure Ip6Schema where
  ip6Un1Flow : UInt32 := 0
  ip6Un1Plen : UInt16 := 0
  ip6Un1Nxt : UInt8 := 0
  ip6Un1Hlim : UInt8 := 0
  ip6Un2Vfc : UInt8 := 0
  ip6Src : List UInt8 := []
  ip6Dst : List UInt8 := []
  deriving Repr, DecidableEq

/-- `struct tcp_schema`. -/
structure TcpSchema where
  source : UInt16 := 0
  dest : UInt16 := 0
  seq : UInt32 := 0
  ackSeq : UInt32 := 0
  res1 : UInt16 := 0
  doff : UInt16 := 0
  fin : Bool := false
  syn : Bool := false
  rst : Bool := false
  psh : Bool := false
  ack : Bool := false
  urg : Bool := false
  window : UInt16 := 0
  checkP : UInt16 := 0
  urgPtr : UInt16 := 0
  deriving Repr, DecidableEq

/-- `struct udp_schema`. -/
structure UdpSchema where
  source : UInt16 := 0
  dest : UInt16 := 0
  len : UInt16 := 0
  checkP : UInt16 := 0
  deriving Repr, DecidableEq

/-- `struct icmp4_schema`. -/
structure Icmp4Schema where
  type : UInt8 := 0
  code : UInt8 := 0
  checksum : UInt16 := 0
  gateway : UInt32 := 0
  deriving Repr, DecidableEq

/-- `struct icmp6_schema`. -/
structure Icmp6Schema where
  icmp6Type : UInt8 := 0
  icmp6Code : UInt8 := 0
  icmp6Cksum : UInt16 := 0
  icmp6UnData32 : UInt32 := 0
  deriving Repr, DecidableEq

/-- `struct dns_schema`; `qname` is the content of the name buffer up to the terminating
NUL the decoder writes. -/
structure DnsSchema where
  tid : UInt16 := 0
  flags : UInt16 := 0
  nqueries : UInt16 := 0
  nanswers : UInt16 := 0
  nauth : UInt16 := 0
  nother : UInt16 := 0
  qname : List UInt8 := []
  deriving Repr, DecidableEq

/-- `struct mdns_schema`: the counters of the header (`qname` is never written). -/
structure MdnsSchema where
  tid : UInt16 := 0
  flags : UInt16 := 0
  nqueries : UInt16 := 0
  nanswers : UInt16 := 0
  nauth : UInt16 := 0
  nother : UInt16 := 0
  deriving Repr, DecidableEq

/-- `struct dhcp_schema`; the addresses are their four bytes (`chaddr` is never written). -/
structure DhcpSchema where
  op : UInt8 := 0
  htype : UInt8 := 0
  hlen : UInt8 := 0
  hops : UInt8 := 0
  xid : UInt32 := 0
  secs : UInt16 := 0
  flags : UInt16 := 0
  ciaddr : List UInt8 := []
  yiaddr : List UInt8 := []
  siaddr : List UInt8 := []
  giaddr : List UInt8 := []
  deriving Repr, DecidableEq

/-- `struct capture_packet`: the header pointers as offsets in the frame (`none` for
`NULL`), the schemas, and the frame's timestamp, lengths and interface. -/
structure CapturePacket where
  ethh : Option ℕ := none
  arph : Option ℕ := none
  ip4h : Option ℕ := none
  ip6h : Option ℕ := none
  tcph : Option ℕ := none
  udph : Option ℕ := none
  icmp4h : Option ℕ := none
  icmp6h : Option ℕ := none
  dnsh : Option ℕ := none
  mdnsh : Option ℕ := none
  dhcph : Option ℕ := none
  eths : EthSchema := {}
  arps : ArpSchema := {}
  ip4s : Ip4Schema := {}
  ip6s : Ip6Schema := {}
  tcps : TcpSchema := {}
  udps : UdpSchema := {}
  icmp4s : Icmp4Schema := {}
  icmp6s : Icmp6Schema := {}
  dnss : DnsSchema := {}
  mdnss : MdnsSchema := {}
  dhcps : DhcpSchema := {}
  timestamp : ℕ := 0
  caplen : ℕ := 0
  length : ℕ := 0
  ifname : String := ""
  deriving Repr, DecidableEq

/-! ## Reads of the captured frame -/

/-- Byte `i` of the frame. -/
def byteAt (packet : List UInt8) (i : ℕ) : Except Fault UInt8 := readByte packet packet.length i

/-- The `n` bytes of the frame from `i` on. -/
def bytesAt (packet : List UInt8) (i n : ℕ) : Except Fault (List UInt8) :=
  readBytes packet packet.length i n

/-- The network-order `uint16_t` at `i` of the frame. -/
def be16At (packet : List UInt8) (i : ℕ) : Except Fault UInt16 := readBe16 packet packet.length i

/-- The network-order `uint32_t` at `i` of the frame. -/
def be32At (packet : List UInt8) (i : ℕ) : Except Fault UInt32 := readBe32 packet packet.length i

/-- `cpac->length - sizeof(struct ether_header) < size`, in `size_t`: a wire length below the
Ethernet header wraps round to a huge number and passes. -/
def wireTooShort (length size : ℕ) : Bool :=
  decide (etherHeaderSize ≤ length) && decide (length - etherHeaderSize < size)

/-! ## The layers -/

/-- `decode_eth_packet`: the header is decoded when the capture holds it. -/
def decodeEthPacket (header : PcapPkthdr) (packet : List UInt8) (cpac : CapturePacket) :
    Except Fault (Bool × CapturePacket) :=
  if etherHeaderSize ≤ header.caplen then do
    let dhost ← bytesAt packet 0 6
    let shost ← bytesAt packet 6 6
    let etherType ← be16At packet 12
    let eths : EthSchema := {
      timestamp := cpac.timestamp
      caplen := cpac.caplen
      length := cpac.length
      ifname := cpac.ifname
      etherDhost := dhost
      etherShost := shost
      etherType }
    pure (true, { cpac with ethh := some 0, eths })
  else pure (false, cpac)

/-- `decode_ip4_packet`: `ip_hl` and `ip_v` are the low and high nibble of the first byte
(bit fields on a little-endian host); further layers only for version `4`, though the header
pointer stays set. -/
def decodeIp4Packet (packet : List UInt8) (cpac : CapturePacket) :
    Except Fault (Bool × CapturePacket) :=
  if wireTooShort cpac.length ipSize then pure (false, cpac)
  else do
    let off := etherHeaderSize
    let b0 ← byteAt packet off
    let ipTos ← byteAt packet (off + 1)
    let ipLen ← be16At packet (off + 2)
    let ipId ← be16At packet (off + 4)
    let ipOff ← be16At packet (off + 6)
    let ipTtl ← byteAt packet (off + 8)
    let ipP ← byteAt packet (off + 9)
    let ipSum ← be16At packet (off + 10)
    let ipSrc ← bytesAt packet (off + 12) 4
    let ipDst ← bytesAt packet (off + 16) 4
    let s : Ip4Schema := {
      ipSrc
      ipDst
      ipHl := b0 &&& 0x0F
      ipV := b0 >>> 4
      ipTos
      ipLen
      ipId
      ipOff
      ipTtl
      ipP
      ipSum }
    pure (decide (s.ipV = 4), { cpac with ip4h := some off, ip4s := s })

/-- `decode_ip6_packet`: a wrong version clears the header pointer again. -/
def decodeIp6Packet (packet : List UInt8) (cpac : CapturePacket) :
    Except Fault (Bool × CapturePacket) :=
  if wireTooShort cpac.length ip6HdrSize then pure (false, cpac)
  else do
    let off := etherHeaderSize
    let vfc ← byteAt packet off
    if vfc &&& ipv6VersionMask ≠ ipv6Version then pure (false, { cpac with ip6h := none })
    else do
      let flow ← be32At packet off
      let plen ← be16At packet (off + 4)
      let nxt ← byteAt packet (off + 6)
      let hlim ← byteAt packet (off + 7)
      let src ← bytesAt packet (off + 8) 16
      let dst ← bytesAt packet (off + 24) 16
      let ip6s : Ip6Schema := {
        ip6Un1Flow := flow
        ip6Un1Plen := plen
        ip6Un1Nxt := nxt
        ip6Un1Hlim := hlim
        ip6Un2Vfc := vfc
        ip6Src := src
        ip6Dst := dst }
      pure (true, { cpac with ip6h := some off, ip6s })

/-- `decode_arp_packet`, after the Ethernet header. -/
def decodeArpPacket (packet : List UInt8) (cpac : CapturePacket) :
    Except Fault (Bool × CapturePacket) := do
  let off := cpac.ethh.getD 0 + etherHeaderSize
  let arHrd ← be16At packet off
  let arPro ← be16At packet (off + 2)
  let arHln ← byteAt packet (off + 4)
  let arPln ← byteAt packet (off + 5)
  let arOp ← be16At packet (off + 6)
  let arpSha ← bytesAt packet (off + 8) 6
  let arpSpa ← bytesAt packet (off + 14) 4
  let arpTha ← bytesAt packet (off + 18) 6
  let arpTpa ← bytesAt packet (off + 24) 4
  let arps : ArpSchema := { arHrd, arPro, arHln, arPln, arOp, arpSha, arpSpa, arpTha, arpTpa }
  pure (true, { cpac with arph := some off, arps })

/-- Where `decode_tcp_packet` and `decode_udp_packet` put the transport header: after the
IPv4 header when only it is set, after the IPv6 header when only it is set. -/
def transportOffset (cpac : CapturePacket) : Option ℕ :=
  match cpac.ip4h, cpac.ip6h with
  | some o, none => some (o + ipSize)
  | none, some o => some (o + ip6HdrSize)
  | _, _ => none

/-- `decode_tcp_packet`.  `th_x2` and `th_off` are the low and high nibble of byte `12`, and
the source passes them through `ntohs`. -/
def decodeTcpPacket (packet : List UInt8) (cpac : CapturePacket) :
    Except Fault (Bool × CapturePacket) :=
  match transportOffset cpac with
  | none => pure (false, cpac)
  | some off => do
      let source ← be16At packet off
      let dest ← be16At packet (off + 2)
      let seq ← be32At packet (off + 4)
      let ackSeq ← be32At packet (off + 8)
      let b12 ← byteAt packet (off + 12)
      let flags ← byteAt packet (off + 13)
      let window ← be16At packet (off + 14)
      let checkP ← be16At packet (off + 16)
      let urgPtr ← be16At packet (off + 18)
      let tcps : TcpSchema := {
        source
        dest
        seq
        ackSeq
        res1 := ntohs (b12 &&& 0x0F).toUInt16
        doff := ntohs (b12 >>> 4).toUInt16
        fin := flags &&& thFin ≠ 0
        syn := flags &&& thSyn ≠ 0
        rst := flags &&& thRst ≠ 0
        psh := flags &&& thPush ≠ 0
        ack := flags &&& thAck ≠ 0
        urg := flags &&& thUrg ≠ 0
        window
        checkP
        urgPtr }
      pure (true, { cpac with tcph := some off, tcps })

/-- `decode_udp_packet`. -/
def decodeUdpPacket (packet : List UInt8) (cpac : CapturePacket) :
    Except Fault (Bool × CapturePacket) :=
  match transportOffset cpac with
  | none => pure (false, cpac)
  | some off => do
      let source ← be16At packet off
      let dest ← be16At packet (off + 2)
      let len ← be16At packet (off + 4)
      let checkP ← be16At packet (off + 6)
      pure (true, { cpac with udph := some off, udps := { source, dest, len, checkP } })

/-- `decode_icmp4_packet`, after the IPv4 header (it is called only once that is set). -/
def decodeIcmp4Packet (packet : List UInt8) (cpac : CapturePacket) :
    Except Fault (Bool × CapturePacket) := do
  let off := cpac.ip4h.getD 0 + ipSize
  let type ← byteAt packet off
  let code ← byteAt packet (off + 1)
  let checksum ← be16At packet (off + 2)
  let gateway ← be32At packet (off + 4)
  pure (true, { cpac with icmp4h := some off, icmp4s := { type, code, checksum, gateway } })

/-- `decode_icmp6_packet`, after the IPv6 header (it is called only once that is set). -/
def decodeIcmp6Packet (packet : List UInt8) (cpac : CapturePacket) :
    Except Fault (Bool × CapturePacket) := do
  let off := cpac.ip6h.getD 0 + ip6HdrSize
  let t ← byteAt packet off
  let c ← byteAt packet (off + 1)
  let cksum ← be16At packet (off + 2)
  let data ← be32At packet (off + 4)
  let icmp6s : Icmp6Schema := {
    icmp6Type := t
    icmp6Code := c
    icmp6Cksum := cksum
    icmp6UnData32 := data }
  pure (true, { cpac with icmp6h := some off, icmp6s })

/-- The `while` loop of `decode_dns_questions` over the labels of the first question, which
starts at offset `base` of the frame; `i` is the `uint16_t` offset in it and `qname` the name
buffer up to `j`.  The loop runs while the label starts before the wire length, and stops at
a zero label or one that would not fit in the `MAX_QUESTION_LEN` buffer. -/
def dnsQuestionLoop (packet : List UInt8) (base length : ℕ) (i : ℕ) (qname : List UInt8) :
    Except Fault (List UInt8) :=
  if base + i < length then
    match byteAt packet (base + i) with
    | .error e => .error e
    | .ok b =>
        if h : b = 0 ∨ maxQuestionLen - 1 ≤ qname.length + b.toNat then pure qname
        else
          match hl : bytesAt packet (base + i + 1) b.toNat with
          | .error e => .error e
          | .ok label =>
              dnsQuestionLoop packet base length ((i + b.toNat + 1) % 65536)
                (qname ++ label ++ [46])
  else pure qname
termination_by maxQuestionLen - qname.length
decreasing_by
  have hlabel : label.length = b.toNat := readBytes_length_of_ok hl
  -- the label fits in what is left of the buffer
  have := Nat.lt_of_not_le (not_or.1 h).2
  simp only [List.length_append, List.length_singleton, hlabel]
  omega

/-- `decode_dns_questions`: the name of the first question, the last `.` replaced by the
terminating NUL. -/
def decodeDnsQuestions (packet : List UInt8) (base length : ℕ) : Except Fault (List UInt8) := do
  let qname ← dnsQuestionLoop packet base length 0 []
  pure qname.dropLast

/-- `decode_dns_packet`: the header after a TCP or a UDP header; the question only over UDP,
and only when the header ends within the wire length. -/
def decodeDnsPacket (packet : List UInt8) (cpac : CapturePacket) :
    Except Fault (Bool × CapturePacket) :=
  let dnsAt : Option (ℕ × ℕ) := match cpac.tcph, cpac.udph with
    | some o, none => some (o + tcphdrSize, 2)
    | none, some o => some (o + udphdrSize, 0)
    | _, _ => none
  match dnsAt with
  | none => pure (false, cpac)
  | some (off, payloadOffset) => do
      let tid ← be16At packet off
      let flags ← be16At packet (off + 2)
      let nqueries ← be16At packet (off + 4)
      let nanswers ← be16At packet (off + 6)
      let nauth ← be16At packet (off + 8)
      let nother ← be16At packet (off + 10)
      let dnss : DnsSchema := { tid, flags, nqueries, nanswers, nauth, nother }
      let qname ←
        if off + payloadOffset + dnsHeaderSize ≤ cpac.length ∧ payloadOffset = 0 ∧ nqueries ≠ 0
        then decodeDnsQuestions packet (off + dnsHeaderSize) cpac.length
        else pure dnss.qname
      pure (true, { cpac with dnsh := some off, dnss := { dnss with qname } })

/-- `decode_mdns_packet`: the header after a UDP header only. -/
def decodeMdnsPacket (packet : List UInt8) (cpac : CapturePacket) :
    Except Fault (Bool × CapturePacket) :=
  match cpac.udph with
  | none => pure (false, cpac)
  | some o => do
      let off := o + udphdrSize
      let h ← Mdns.decodeMdnsHeader packet packet.length off
      let mdnss : MdnsSchema := {
        tid := h.tid
        flags := h.flags
        nqueries := h.nqueries
        nanswers := h.nanswers
        nauth := h.nauth
        nother := h.nother }
      pure (true, { cpac with mdnsh := some off, mdnss })

/-- `decode_dhcp_packet`: the header after a UDP header.  It returns `false` on every path,
so the DHCP layer is never counted, though its header pointer is set. -/
def decodeDhcpPacket (packet : List UInt8) (cpac : CapturePacket) :
    Except Fault (Bool × CapturePacket) :=
  match cpac.udph with
  | none => pure (false, cpac)
  | some o => do
      let off := o + udphdrSize
      let op ← byteAt packet off
      let htype ← byteAt packet (off + 1)
      let hlen ← byteAt packet (off + 2)
      let hops ← byteAt packet (off + 3)
      let xid ← be32At packet (off + 4)
      let secs ← be16At packet (off + 8)
      let flags ← be16At packet (off + 10)
      let ciaddr ← bytesAt packet (off + 12) 4
      let yiaddr ← bytesAt packet (off + 16) 4
      let siaddr ← bytesAt packet (off + 20) 4
      let giaddr ← bytesAt packet (off + 24) 4
      let dhcps : DhcpSchema := { op, htype, hlen, hops, xid, secs, flags, ciaddr, yiaddr, siaddr, giaddr }
      pure (false, { cpac with dhcph := some off, dhcps })

/-! ## `decode_packet` and `extract_packets` -/

/-- A layer decoder whose `true` adds one to the count. -/
def counted (count : ℕ) (r : Except Fault (Bool × CapturePacket)) :
    Except Fault (ℕ × CapturePacket) := do
  let r ← r
  pure (if r.1 then count + 1 else count, r.2)

/-- The IPv4 branch of `decode_packet`: the IP header, then by `ip_p` the transport. -/
def decodeIp4Layers (packet : List UInt8) (cpac : CapturePacket) (count : ℕ) :
    Except Fault (ℕ × CapturePacket) := do
  let r ← decodeIp4Packet packet cpac
  if r.1 then
    if r.2.ip4s.ipP = ipprotoTcp then counted (count + 1) (decodeTcpPacket packet r.2)
    else if r.2.ip4s.ipP = ipprotoUdp then counted (count + 1) (decodeUdpPacket packet r.2)
    else if r.2.ip4s.ipP = ipprotoIcmp then counted (count + 1) (decodeIcmp4Packet packet r.2)
    else pure (count + 1, r.2)
  else pure (count, r.2)

/-- The IPv6 branch of `decode_packet`: the IP header, then by `ip6_nxt` the transport. -/
def decodeIp6Layers (packet : List UInt8) (cpac : CapturePacket) (count : ℕ) :
    Except Fault (ℕ × CapturePacket) := do
  let r ← decodeIp6Packet packet cpac
  if r.1 then
    if r.2.ip6s.ip6Un1Nxt = ipprotoTcp then counted (count + 1) (decodeTcpPacket packet r.2)
    else if r.2.ip6s.ip6Un1Nxt = ipprotoUdp then counted (count + 1) (decodeUdpPacket packet r.2)
    else if r.2.ip6s.ip6Un1Nxt = ipprotoIcmpv6 then
      counted (count + 1) (decodeIcmp6Packet packet r.2)
    else pure (count + 1, r.2)
  else pure (count, r.2)

/-- The network layer of `decode_packet`, by `ether_type`. -/
def decodeNetworkLayers (packet : List UInt8) (cpac : CapturePacket) (count : ℕ) :
    Except Fault (ℕ × CapturePacket) :=
  if cpac.eths.etherType = ethertypeIp then decodeIp4Layers packet cpac count
  else if cpac.eths.etherType = ethertypeIpv6 then decodeIp6Layers packet cpac count
  else if cpac.eths.etherType = ethertypeArp then counted count (decodeArpPacket packet cpac)
  else pure (count, cpac)

/-- The application layer of `decode_packet`, by the ports of the TCP header when it is set,
else of the UDP header. -/
def decodeAppLayers (packet : List UInt8) (cpac : CapturePacket) (count : ℕ) :
    Except Fault (ℕ × CapturePacket) :=
  match cpac.tcph, cpac.udph with
  | some _, _ =>
      if cpac.tcps.source = dnsPort ∨ cpac.tcps.dest = dnsPort then
        counted count (decodeDnsPacket packet cpac)
      else if cpac.tcps.source = mdnsPort ∨ cpac.tcps.dest = mdnsPort then
        counted count (decodeMdnsPacket packet cpac)
      else pure (count, cpac)
  | none, some _ =>
      if cpac.udps.source = dnsPort ∨ cpac.udps.dest = dnsPort then
        counted count (decodeDnsPacket packet cpac)
      else if cpac.udps.source = mdnsPort ∨ cpac.udps.dest = mdnsPort then
        counted count (decodeMdnsPacket packet cpac)
      else if (cpac.udps.source = dhcpClientPort ∧ cpac.udps.dest = dhcpServerPort) ∨
          (cpac.udps.source = dhcpServerPort ∧ cpac.udps.dest = dhcpClientPort) then
        counted count (decodeDhcpPacket packet cpac)
      else pure (count, cpac)
  | none, none => pure (count, cpac)

/-- `decode_packet`: the number of layers counted, and the filled `capture_packet`. -/
def decodePacket (header : PcapPkthdr) (packet : List UInt8) (cpac : CapturePacket) :
    Except Fault (ℕ × CapturePacket) := do
  let r ← decodeEthPacket header packet cpac
  if r.1 then do
    let n ← decodeNetworkLayers packet r.2 1
    decodeAppLayers packet n.2 n.1
  else pure (0, r.2)

/-- `struct tuple_packet`: a schema tagged with its `PACKET_TYPES`. -/
inductive TuplePacket
  | ethernet (s : EthSchema)
  | arp (s : ArpSchema)
  | ip4 (s : Ip4Schema)
  | ip6 (s : Ip6Schema)
  | tcp (s : TcpSchema)
  | udp (s : UdpSchema)
  | icmp4 (s : Icmp4Schema)
  | icmp6 (s : Icmp6Schema)
  | dns (s : DnsSchema)
  | mdns (s : MdnsSchema)
  | dhcp (s : DhcpSchema)
  deriving Repr, DecidableEq

/-- The schemas `extract_packets` pushes, one for every header pointer that is set, in the
source's order. -/
def tuplePackets (cpac : CapturePacket) : List TuplePacket :=
  (cpac.ethh.map fun _ => TuplePacket.ethernet cpac.eths).toList ++
  (cpac.arph.map fun _ => TuplePacket.arp cpac.arps).toList ++
  (cpac.ip4h.map fun _ => TuplePacket.ip4 cpac.ip4s).toList ++
  (cpac.ip6h.map fun _ => TuplePacket.ip6 cpac.ip6s).toList ++
  (cpac.tcph.map fun _ => TuplePacket.tcp cpac.tcps).toList ++
  (cpac.udph.map fun _ => TuplePacket.udp cpac.udps).toList ++
  (cpac.icmp4h.map fun _ => TuplePacket.icmp4 cpac.icmp4s).toList ++
  (cpac.icmp6h.map fun _ => TuplePacket.icmp6 cpac.icmp6s).toList ++
  (cpac.dnsh.map fun _ => TuplePacket.dns cpac.dnss).toList ++
  (cpac.mdnsh.map fun _ => TuplePacket.mdns cpac.mdnss).toList ++
  (cpac.dhcph.map fun _ => TuplePacket.dhcp cpac.dhcps).toList

/-- The zeroed `capture_packet` with the frame's timestamp, lengths and interface name
(`os_strlcpy` into `IF_NAMESIZE` bytes). -/
def initCapturePacket (header : PcapPkthdr) (interface : String) : CapturePacket :=
  { timestamp := header.timestamp, caplen := header.caplen, length := header.len,
    ifname := String.ofList (interface.toList.take (ifNamesize - 1)) }

/-- `extract_packets`: the array after the schemas of the frame are pushed (its length is
what the source returns); allocation is taken to succeed. -/
def extractPackets (header : PcapPkthdr) (packet : List UInt8) (interface : String)
    (tpArray : List TuplePacket) : Except Fault (List TuplePacket) := do
  let r ← decodePacket header packet (initCapturePacket header interface)
  if 0 < r.1 then pure (tpArray ++ tuplePackets r.2) else pure tpArray

/-! ## Reads and layers -/

theorem byteAt_of_lt {packet : List UInt8} {i : ℕ} (h : i < packet.length) :
    byteAt packet i = .ok (packet.getD i 0) := readByte_of_lt h

theorem byteAt_of_le {packet : List UInt8} {i : ℕ} (h : packet.length ≤ i) :
    byteAt packet i = .error (.outOfBounds i) := readByte_of_le h

theorem bytesAt_of_le {packet : List UInt8} {i n : ℕ} (h : i + n ≤ packet.length) :
    bytesAt packet i n = .ok (List.ofFn fun k : Fin n => packet.getD (i + k) 0) :=
  readBytes_of_le i n h

theorem be16At_of_lt {packet : List UInt8} {i : ℕ} (h : i + 1 < packet.length) :
    be16At packet i =
      .ok (UInt16.ofNat ((packet.getD i 0).toNat * 256 + (packet.getD (i + 1) 0).toNat)) :=
  readBe16_of_lt h

theorem be16At_of_le {packet : List UInt8} {i : ℕ} (h : packet.length ≤ i) :
    be16At packet i = .error (.outOfBounds i) := by
  rw [be16At, readBe16, readByte_of_le h, error_bind]

theorem be32At_of_lt {packet : List UInt8} {i : ℕ} (h : i + 3 < packet.length) :
    be32At packet i = .ok (UInt32.ofNat
      ((UInt16.ofNat ((packet.getD i 0).toNat * 256 + (packet.getD (i + 1) 0).toNat)).toNat * 65536 +
        (UInt16.ofNat ((packet.getD (i + 2) 0).toNat * 256 +
          (packet.getD (i + 3) 0).toNat)).toNat)) :=
  readBe32_of_lt h

theorem counted_error (count : ℕ) (e : Fault) : counted count (.error e) = .error e := rfl

theorem counted_ok (count : ℕ) (c : CapturePacket) :
    counted count (.ok (true, c)) = .ok (count + 1, c) := rfl

theorem wireTooShort_eq_false {length size : ℕ} (h : etherHeaderSize + size ≤ length) :
    wireTooShort length size = false := by
  unfold wireTooShort
  simp only [Bool.and_eq_false_iff, decide_eq_false_iff_not, Nat.not_lt]
  right
  omega

/-- A frame of which the Ethernet header is captured: it decodes without a fault, and its
type is the big-endian number in bytes `12` and `13`. -/
theorem decodeEthPacket_of_le (header : PcapPkthdr) (packet : List UInt8) (cpac : CapturePacket)
    (hcap : packet.length = header.caplen) (h : etherHeaderSize ≤ header.caplen) :
    ∃ eths : EthSchema, decodeEthPacket header packet cpac = .ok (true, { cpac with ethh := some 0, eths }) ∧
      eths.etherType = UInt16.ofNat ((packet.getD 12 0).toNat * 256 + (packet.getD 13 0).toNat) := by
  have h14 : 14 ≤ packet.length := by
    unfold etherHeaderSize at h
    omega
  rw [decodeEthPacket, if_pos h, bytesAt_of_le (by omega), ok_bind, bytesAt_of_le (by omega),
    ok_bind, be16At_of_lt (by omega), ok_bind]
  exact ⟨_, rfl, rfl⟩

/-- The IPv4 header of a frame that the wire length admits but the capture cut after the
Ethernet header: its first byte is read past the captured ones. -/
theorem decodeIp4Packet_of_cut (packet : List UInt8) (cpac : CapturePacket)
    (hwire : wireTooShort cpac.length ipSize = false) (hcut : packet.length = etherHeaderSize) :
    decodeIp4Packet packet cpac = .error (.outOfBounds etherHeaderSize) := by
  rw [decodeIp4Packet, hwire, if_neg Bool.false_ne_true]
  dsimp only
  rw [byteAt_of_le hcut.le, error_bind]

/-- The IPv4 header of a frame that captures it: it decodes without a fault, with the
version in the high nibble of its first byte and the protocol in its tenth. -/
theorem decodeIp4Packet_of_captured (packet : List UInt8) (cpac : CapturePacket)
    (hwire : wireTooShort cpac.length ipSize = false)
    (hcap : etherHeaderSize + ipSize ≤ packet.length) :
    ∃ s : Ip4Schema, decodeIp4Packet packet cpac = .ok (decide (packet.getD 14 0 >>> 4 = 4),
        { cpac with ip4h := some etherHeaderSize, ip4s := s }) ∧
      s.ipV = packet.getD 14 0 >>> 4 ∧ s.ipP = packet.getD 23 0 := by
  rw [decodeIp4Packet, hwire, if_neg Bool.false_ne_true]
  unfold etherHeaderSize ipSize at hcap
  unfold etherHeaderSize
  dsimp only
  simp (disch := omega) only [byteAt_of_lt, be16At_of_lt, bytesAt_of_le, ok_bind, pure_eq_ok]
  exact ⟨_, rfl, rfl, rfl⟩

/-- A TCP header that the capture holds: it decodes without a fault at the offset
`transportOffset` gives, with the ports the big-endian numbers in its first four bytes. -/
theorem decodeTcpPacket_of_captured (packet : List UInt8) (cpac : CapturePacket) (off : ℕ)
    (hoff : transportOffset cpac = some off) (hcap : off + tcphdrSize ≤ packet.length) :
    ∃ tcps : TcpSchema, decodeTcpPacket packet cpac = .ok (true, { cpac with tcph := some off, tcps }) ∧
      tcps.source = UInt16.ofNat ((packet.getD off 0).toNat * 256 + (packet.getD (off + 1) 0).toNat) ∧
      tcps.dest =
        UInt16.ofNat ((packet.getD (off + 2) 0).toNat * 256 + (packet.getD (off + 3) 0).toNat) := by
  rw [decodeTcpPacket, hoff]
  unfold tcphdrSize at hcap
  dsimp only
  simp (disch := omega) only [byteAt_of_lt, be16At_of_lt, be32At_of_lt, ok_bind, pure_eq_ok]
  exact ⟨_, rfl, rfl, rfl⟩

/-- A TCP header that starts past the captured bytes: its first byte is read. -/
theorem decodeTcpPacket_of_cut (packet : List UInt8) (cpac : CapturePacket) (off : ℕ)
    (hoff : transportOffset cpac = some off) (hcut : packet.length ≤ off) :
    decodeTcpPacket packet cpac = .error (.outOfBounds off) := by
  rw [decodeTcpPacket, hoff]
  dsimp only
  rw [be16At_of_le hcut, error_bind]

/-! ## The DNS name buffer -/

/-- The label loop of `decode_dns_questions` keeps `j` below `MAX_QUESTION_LEN - 1`: a label
that would reach it stops the loop before it is copied. -/
theorem dnsQuestionLoop_length_le (packet : List UInt8) (base length i : ℕ) (qname : List UInt8)
    (h : qname.length ≤ maxQuestionLen - 1) {q : List UInt8}
    (hq : dnsQuestionLoop packet base length i qname = .ok q) : q.length ≤ maxQuestionLen - 1 := by
  fun_induction dnsQuestionLoop packet base length i qname with
  | case1 => cases hq
  | case2 qname => cases hq; exact h
  | case3 => cases hq
  | case4 i qname _ b _ hfit label hl ih =>
      -- the label fits, so the buffer after it and its `.` still does
      have hlabel : label.length = b.toNat := readBytes_length_of_ok hl
      obtain ⟨_, hfit⟩ := not_or.1 hfit
      refine ih ?_ hq
      simp only [List.length_append, List.length_singleton, hlabel]
      omega
  | case5 qname => cases hq; exact h

/-- The first question's name that `decode_dns_questions` writes, with its terminating NUL,
fits in the `MAX_QUESTION_LEN` bytes of `qname`, whatever the frame holds. -/
theorem decodeDnsQuestions_fits (packet : List UInt8) (base length : ℕ) {q : List UInt8}
    (hq : decodeDnsQuestions packet base length = .ok q) : q.length + 1 < maxQuestionLen := by
  unfold decodeDnsQuestions at hq
  cases hl : dnsQuestionLoop packet base length 0 [] with
  | error e =>
      rw [hl, error_bind] at hq
      cases hq
  | ok qname =>
      rw [hl, ok_bind, pure_eq_ok] at hq
      cases hq
      have hlen := dnsQuestionLoop_length_le packet base length 0 [] (Nat.zero_le _) hl
      rw [List.length_dropLast]
      unfold maxQuestionLen at hlen ⊢
      omega

/-! ## The IPv4 branch -/

/-- An IPv4 frame whose Ethernet and IPv4 headers are captured, on a wire that admits the
IPv4 header: `decode_packet` decodes both, counts two layers, and goes on by the protocol
byte with the IPv4 header as the only network header and no transport or application header
yet.  Nothing here depends on the header length field `ip_hl`. -/
theorem decodePacket_of_ip4 (header : PcapPkthdr) (packet : List UInt8) (interface : String)
    (hcap : packet.length = header.caplen) (hip : etherHeaderSize + ipSize ≤ header.caplen)
    (hwire : etherHeaderSize + ipSize ≤ header.len)
    (htype : packet.getD 12 0 = 0x08 ∧ packet.getD 13 0 = 0x00)
    (hver : packet.getD 14 0 >>> 4 = 4) :
    ∃ c : CapturePacket, transportOffset c = some (etherHeaderSize + ipSize) ∧
      c.tcph = none ∧ c.udph = none ∧ c.dnsh = none ∧ c.mdnsh = none ∧ c.dhcph = none ∧
      c.ip4s.ipP = packet.getD 23 0 ∧
      decodePacket header packet (initCapturePacket header interface) =
        (if c.ip4s.ipP = ipprotoTcp then counted 2 (decodeTcpPacket packet c)
          else if c.ip4s.ipP = ipprotoUdp then counted 2 (decodeUdpPacket packet c)
          else if c.ip4s.ipP = ipprotoIcmp then counted 2 (decodeIcmp4Packet packet c)
          else pure (2, c)) >>= fun n => decodeAppLayers packet n.2 n.1 := by
  obtain ⟨eths, heth, hty⟩ :=
    decodeEthPacket_of_le header packet (initCapturePacket header interface) hcap (by omega)
  have hipType : eths.etherType = ethertypeIp := by
    rw [hty, htype.1, htype.2]
    decide
  obtain ⟨s, hip4, -, hp⟩ := decodeIp4Packet_of_captured packet
    { initCapturePacket header interface with ethh := some 0, eths } (wireTooShort_eq_false hwire)
    (by omega)
  refine ⟨{ initCapturePacket header interface with
      ethh := some 0, eths, ip4h := some etherHeaderSize, ip4s := s },
    rfl, rfl, rfl, rfl, rfl, rfl, hp, ?_⟩
  rw [decodePacket, heth, ok_bind]
  dsimp only
  rw [if_pos rfl, decodeNetworkLayers, if_pos hipType, decodeIp4Layers, hip4, ok_bind]
  dsimp only
  rw [if_pos (decide_eq_true hver)]

/-- The TCP header of a captured IPv4 frame is decoded at `14 + 20`, whatever the header
length field `ip_hl` says, and the application layer is chosen by the ports read there. -/
theorem decodePacket_ip4_tcp (header : PcapPkthdr) (packet : List UInt8) (interface : String)
    (hcap : packet.length = header.caplen)
    (hfull : etherHeaderSize + ipSize + tcphdrSize ≤ header.caplen)
    (hwire : etherHeaderSize + ipSize ≤ header.len)
    (htype : packet.getD 12 0 = 0x08 ∧ packet.getD 13 0 = 0x00)
    (hver : packet.getD 14 0 >>> 4 = 4) (hproto : packet.getD 23 0 = ipprotoTcp) :
    ∃ c : CapturePacket, c.tcph = some (etherHeaderSize + ipSize) ∧ c.udph = none ∧
      c.dnsh = none ∧ c.mdnsh = none ∧
      c.tcps.source = UInt16.ofNat ((packet.getD 34 0).toNat * 256 + (packet.getD 35 0).toNat) ∧
      c.tcps.dest = UInt16.ofNat ((packet.getD 36 0).toNat * 256 + (packet.getD 37 0).toNat) ∧
      decodePacket header packet (initCapturePacket header interface) = decodeAppLayers packet c 3 := by
  obtain ⟨c, hoff, -, hudp, hdns, hmdns, -, hp, hdec⟩ :=
    decodePacket_of_ip4 header packet interface hcap (by unfold tcphdrSize at hfull; omega) hwire
      htype hver
  obtain ⟨tcps, htcp, hsrc, hdst⟩ :=
    decodeTcpPacket_of_captured packet c _ hoff (by omega)
  refine ⟨{ c with tcph := some (etherHeaderSize + ipSize), tcps }, rfl, hudp, hdns, hmdns, hsrc,
    hdst, ?_⟩
  rw [hdec, if_pos (hp.trans hproto), htcp, counted_ok, ok_bind]

/-! ## Reads past the captured bytes -/

/-- `extract_packets` on a frame whose capture stops after an Ethernet header announcing
IPv4 while its wire length has room for the IP header: the IP header is read past the
captured bytes. -/
theorem extractPackets_of_cut_ip4 (header : PcapPkthdr) (packet : List UInt8) (interface : String)
    (tpArray : List TuplePacket) (hcap : packet.length = header.caplen)
    (hcut : header.caplen = etherHeaderSize) (hwire : etherHeaderSize + ipSize ≤ header.len)
    (htype : packet.getD 12 0 = 0x08 ∧ packet.getD 13 0 = 0x00) :
    extractPackets header packet interface tpArray = .error (.outOfBounds etherHeaderSize) := by
  obtain ⟨eths, heth, hty⟩ :=
    decodeEthPacket_of_le header packet (initCapturePacket header interface) hcap (by omega)
  have hip : eths.etherType = ethertypeIp := by
    rw [hty, htype.1, htype.2]
    decide
  have hip4 := decodeIp4Packet_of_cut packet { initCapturePacket header interface with ethh := some 0, eths }
    (wireTooShort_eq_false hwire) (by omega)
  rw [extractPackets, decodePacket, heth, ok_bind]
  dsimp only
  rw [if_pos rfl, decodeNetworkLayers, if_pos hip, decodeIp4Layers, hip4, error_bind, error_bind,
    error_bind]

/-- `extract_packets` on an untruncated frame that ends with an IPv4 header announcing TCP:
the TCP header is read past the captured bytes. -/
theorem extractPackets_of_bare_ip4_tcp (header : PcapPkthdr) (packet : List UInt8)
    (interface : String) (tpArray : List TuplePacket) (hcap : packet.length = header.caplen)
    (hend : header.caplen = etherHeaderSize + ipSize) (hwire : etherHeaderSize + ipSize ≤ header.len)
    (htype : packet.getD 12 0 = 0x08 ∧ packet.getD 13 0 = 0x00)
    (hver : packet.getD 14 0 >>> 4 = 4) (hproto : packet.getD 23 0 = ipprotoTcp) :
    extractPackets header packet interface tpArray =
      .error (.outOfBounds (etherHeaderSize + ipSize)) := by
  obtain ⟨c, hoff, -, -, -, -, -, hp, hdec⟩ :=
    decodePacket_of_ip4 header packet interface hcap (by omega) hwire htype hver
  -- the IPv4 header is the only network header, so the TCP header follows it
  have htcp := decodeTcpPacket_of_cut packet c (etherHeaderSize + ipSize) hoff (by omega)
  rw [extractPackets, hdec, if_pos (hp.trans hproto), htcp, counted_error, error_bind, error_bind]

/-- A broadcast frame announcing IPv4, captured up to the end of its Ethernet header. -/
def cutFrame : List UInt8 := [0xFF, 0xFF, 0xFF, 0xFF, 0xFF, 0xFF, 0x02, 0, 0, 0, 0, 0x01, 0x08, 0x00]

/-- The same frame with a twenty-byte IPv4 header announcing TCP, and nothing after it. -/
def bareTcpFrame : List UInt8 :=
  cutFrame ++ [0x45, 0, 0, 0x14, 0, 0, 0, 0, 0x40, 0x06, 0, 0, 10, 0, 0, 1, 10, 0, 0, 2]

theorem packet_decoder_reads_past_caplen (timestamp : ℕ) (interface : String)
    (tpArray : List TuplePacket) :
    extractPackets ⟨timestamp, 14, 60⟩ cutFrame interface tpArray = .error (.outOfBounds 14) ∧
      extractPackets ⟨timestamp, 34, 34⟩ bareTcpFrame interface tpArray =
        .error (.outOfBounds 34) :=
  ⟨extractPackets_of_cut_ip4 _ _ _ _ rfl rfl (show 14 + 20 ≤ 60 by decide) ⟨rfl, rfl⟩,
    extractPackets_of_bare_ip4_tcp _ _ _ _ rfl rfl (show 14 + 20 ≤ 34 by decide) ⟨rfl, rfl⟩ rfl rfl⟩

/-- An IPv4 frame whose header carries four bytes of options (`ip_hl = 6`, three NOPs and
an end of list) before a TCP header from port `0x1234` to the DNS port. -/
def optionsTcpFrame : List UInt8 :=
  cutFrame ++ [0x46, 0, 0, 0x2c, 0, 0, 0, 0, 0x40, 0x06, 0, 0, 10, 0, 0, 1, 10, 0, 0, 2,
    0x01, 0x01, 0x01, 0x00] ++
    [0x12, 0x34, 0x00, 0x35, 0, 0, 0, 1, 0, 0, 0, 0, 0x50, 0x02, 0x72, 0x10, 0, 0, 0, 0]

theorem decode_packet_ignores_ip_hl (timestamp : ℕ) (interface : String) :
    optionsTcpFrame.getD 14 0 &&& 0x0F = 6 ∧
      (optionsTcpFrame.drop (etherHeaderSize + 4 * 6)).take 4 = [0x12, 0x34, 0x00, 0x35] ∧
      ∃ c : CapturePacket, decodePacket ⟨timestamp, 58, 58⟩ optionsTcpFrame
          (initCapturePacket ⟨timestamp, 58, 58⟩ interface) = .ok (3, c) ∧
        c.tcph = some 34 ∧ c.tcps.source = 0x0101 ∧ c.tcps.dest = 0x0100 ∧ c.dnsh = none := by
  obtain ⟨c, htcph, -, hdns, -, hsrc, hdst, hdec⟩ := decodePacket_ip4_tcp ⟨timestamp, 58, 58⟩
    optionsTcpFrame interface rfl (show 14 + 20 + 20 ≤ 58 by decide) (show 14 + 20 ≤ 58 by decide)
    ⟨rfl, rfl⟩ rfl rfl
  have hsrc' : c.tcps.source = 0x0101 := hsrc.trans (by decide)
  have hdst' : c.tcps.dest = 0x0100 := hdst.trans (by decide)
  refine ⟨by decide, by decide, c, ?_, htcph, hsrc', hdst', hdns⟩
  -- the ports read from the options are neither DNS nor mDNS ones: no application layer
  rw [hdec, decodeAppLayers, htcph]
  dsimp only
  rw [if_neg (by rw [hsrc', hdst']; decide), if_neg (by rw [hsrc', hdst']; decide), pure_eq_ok]

end Capture

end EdgeSec

import InetHost.Settings.Resolved

/-! The listing of constants that a host is built with: a heading, and the definitions of the
resolved settings in three groups. -/

namespace InetHost.Settings

inductive Literal
  | integer (value : Int)
  | word (value : UInt32)
  | octets (mac : Mac)

namespace Literal

def text : Literal → String
  | integer value =>
    if value < 0 then "-" ++ Numeral.decimal value.natAbs else Numeral.decimal value.natAbs
  | word value => "0x" ++ Numeral.hex 8 value.toNat
  | octets mac =>
    "[" ++ ", ".intercalate (mac.bytes.map fun b => "0x" ++ Numeral.hex 2 b.toNat) ++ "]"

end Literal

structure Definition where
  comment : String
  name : String
  type : String
  value : Literal

def Definition.text (d : Definition) : String :=
  "/// " ++ d.comment ++ "\n" ++
    "pub const " ++ d.name ++ ": " ++ d.type ++ " = " ++ d.value.text ++ ";\n"

structure Group where
  title : String
  definitions : List Definition

def rule : String := "// ============================================================\n"

def Group.text (g : Group) : String :=
  "\n" ++ rule ++ "// " ++ g.title ++ "\n" ++ rule ++
    String.join (g.definitions.map fun d => "\n" ++ d.text)

def heading : String :=
  "//! Rux 网络协议栈配置（自动生成）\n//!\n" ++
    "//! 此文件由 build.rs 根据 Net.toml 自动生成，请勿手动修改\n"

namespace Resolved

def sizes (r : Resolved) : Group where
  title := "网络配置"
  definitions :=
    [⟨"以太网 MTU", "ETH_MTU", "usize", .integer r.mtu⟩,
      ⟨"IPv4 默认 TTL", "IP_DEFAULT_TTL", "u8", .integer r.ttl⟩,
      ⟨"ARP 缓存大小", "ARP_CACHE_SIZE", "usize", .integer r.arpCacheSize⟩,
      ⟨"UDP 套接字表大小", "UDP_SOCKET_TABLE_SIZE", "usize", .integer r.udpTableSize⟩,
      ⟨"TCP 套接字表大小", "TCP_SOCKET_TABLE_SIZE", "usize", .integer r.tcpTableSize⟩,
      ⟨"UDP 单槽接收缓冲区大小（字节）", "UDP_RECV_BUF_SIZE", "usize", .integer r.udpBufferSize⟩,
      ⟨"TCP 接收环形缓冲区大小（字节）", "TCP_RECV_BUF_SIZE", "usize", .integer r.tcpBufferSize⟩]

def addresses (r : Resolved) : Group where
  title := "接口默认地址"
  definitions :=
    [⟨"默认本机 IP", "DEFAULT_IP", "u32", .word r.ip⟩,
      ⟨"默认网关", "DEFAULT_GATEWAY", "u32", .word r.gateway⟩,
      ⟨"默认子网掩码", "DEFAULT_NETMASK", "u32", .word r.netmask⟩,
      ⟨"默认 DNS 服务器", "DEFAULT_DNS_SERVER", "u32", .word r.dnsServer⟩,
      ⟨"默认 MAC 地址", "DEFAULT_MAC", "[u8; 6]", .octets r.mac⟩]

def waits (r : Resolved) : Group where
  title := "超时配置（毫秒）"
  definitions :=
    [⟨"IP/TCP 发送时的 ARP 解析超时", "ARP_RESOLVE_TIMEOUT_MS", "u64", .integer r.resolveTimeout⟩,
      ⟨"回复 ICMP 回显请求时的 ARP 解析超时", "ICMP_REPLY_ARP_TIMEOUT_MS", "u64",
        .integer r.replyTimeout⟩,
      ⟨"ping 等待回显应答的超时", "PING_TIMEOUT_MS", "u64", .integer r.pingTimeout⟩,
      ⟨"TCP 主动连接的超时", "TCP_CONNECT_TIMEOUT_MS", "u64", .integer r.connectTimeout⟩,
      ⟨"DNS 查询等待应答的超时", "DNS_TIMEOUT_MS", "u64", .integer r.lookupTimeout⟩]

def listing (r : Resolved) : String :=
  heading ++ r.sizes.text ++ r.addresses.text ++ r.waits.text

end Resolved

/-- The listing for a document. Without a document every setting has its default. -/
def generate (document : Option Value) : Except SettingError String :=
  (resolve (document.getD .empty)).map Resolved.listing

def notices (document : Option Value) : List String :=
  ["cargo:rerun-if-changed=../Net.toml", "cargo:rerun-if-changed=build.rs"] ++
    (if document.isNone then ["cargo:warning=Net.toml not found, using built-in defaults"] else [])

end InetHost.Settings

import ProxyConfig.Keyword
import ProxyConfig.Schema.Property

/-! # Proxies

A proxy is declared as `name = protocol, host, port, key=value, ...`. The protocol decides whether
host and port are there and which properties may, or must, follow.
-/

namespace ProxyConfig

/-- The property keys of proxies. -/
inductive ProxyProperty where
  | encryptMethod
  | password
  | username
  | ws
  | wsPath
  | wsHost
  | tls
  | sni
  | tlsCert
  | amux
  | amuxMax
  | amuxCon
  | quic
  | bindInterface
deriving DecidableEq

namespace ProxyProperty

def valueKind : ProxyProperty → ValueKind
  | encryptMethod => .cipher
  | ws | tls | amux | quic => .boolean
  | amuxMax | amuxCon => .integer
  | password | username | wsPath | wsHost | sni | tlsCert | bindInterface => .freeForm

end ProxyProperty

instance : Keyword ProxyProperty where
  all := [.encryptMethod, .password, .username, .ws, .wsPath, .wsHost, .tls, .sni, .tlsCert,
    .amux, .amuxMax, .amuxCon, .quic, .bindInterface]
  spelling
    | .encryptMethod => "encrypt-method"
    | .password => "password"
    | .username => "username"
    | .ws => "ws"
    | .wsPath => "ws-path"
    | .wsHost => "ws-host"
    | .tls => "tls"
    | .sni => "sni"
    | .tlsCert => "tls-cert"
    | .amux => "amux"
    | .amuxMax => "amux-max"
    | .amuxCon => "amux-con"
    | .quic => "quic"
    | .bindInterface => "interface"
  description
    | .encryptMethod => "AEAD cipher used to encrypt the traffic."
    | .password => "Password or pre-shared key."
    | .username => "User name, or the user UUID for VMess."
    | .ws => "Carry the traffic over WebSocket."
    | .wsPath => "Request path of the WebSocket upgrade."
    | .wsHost => "Host header of the WebSocket upgrade."
    | .tls => "Wrap the connection in TLS."
    | .sni => "Server name sent in the TLS handshake."
    | .tlsCert => "Path of a certificate trusted for this server."
    | .amux => "Multiplex streams over shared connections."
    | .amuxMax => "Maximum number of multiplexed connections."
    | .amuxCon => "Maximum number of streams per connection."
    | .quic => "Carry the traffic over QUIC."
    | .bindInterface => "Interface or local address outgoing connections bind to."

/-- The outbound protocols. -/
inductive Protocol where
  | direct
  | reject
  | drop
  | redirect
  | socks
  | shadowsocks
  | trojan
  | vmess
deriving DecidableEq

namespace Protocol

/-- Whether a host and a port follow the protocol. -/
def requiresHost : Protocol → Bool
  | direct | reject | drop => false
  | redirect | socks | shadowsocks | trojan | vmess => true

/-- The properties that a declaration must have. -/
def required : Protocol → List ProxyProperty
  | shadowsocks => [.encryptMethod, .password]
  | trojan => [.password]
  | vmess => [.username, .encryptMethod]
  | direct | reject | drop | redirect | socks => []

/-- The properties that a declaration may have besides the required ones. -/
def allowed : Protocol → List ProxyProperty
  | direct | redirect | shadowsocks => [.bindInterface]
  | reject | drop => []
  | socks => [.username, .password, .bindInterface]
  | trojan | vmess =>
    [.ws, .wsPath, .wsHost, .tls, .sni, .tlsCert, .amux, .amuxMax, .amuxCon, .quic,
      .bindInterface]

/-- Whether a declaration of the protocol may have the property. -/
def accepts (p : Protocol) (key : ProxyProperty) : Bool :=
  p.required.contains key || p.allowed.contains key

/-- A whole declaration value with tab stops, as completion inserts it. -/
def snippet : Protocol → String
  | direct => "direct"
  | reject => "reject"
  | drop => "drop"
  | redirect => "redirect, $\x7b1:host\x7d, $\x7b2:port\x7d"
  | socks => "socks, $\x7b1:host\x7d, $\x7b2:port\x7d"
  | shadowsocks =>
    "shadowsocks, $\x7b1:host\x7d, $\x7b2:port\x7d, encrypt-method=$\x7b3:chacha20-ietf-poly1305\x7d, password=$\x7b4:password\x7d"
  | trojan => "trojan, $\x7b1:host\x7d, $\x7b2:port\x7d, password=$\x7b3:password\x7d"
  | vmess =>
    "vmess, $\x7b1:host\x7d, $\x7b2:port\x7d, username=$\x7b3:uuid\x7d, encrypt-method=$\x7b4:chacha20-poly1305\x7d"

end Protocol

instance : Keyword Protocol where
  all := [.direct, .reject, .drop, .redirect, .socks, .shadowsocks, .trojan, .vmess]
  spelling
    | .direct => "direct"
    | .reject => "reject"
    | .drop => "drop"
    | .redirect => "redirect"
    | .socks => "socks"
    | .shadowsocks => "shadowsocks"
    | .trojan => "trojan"
    | .vmess => "vmess"
  description
    | .direct => "Connect to the destination directly."
    | .reject => "Reject the connection."
    | .drop => "Silently drop the connection."
    | .redirect => "Forward every connection to a fixed host and port."
    | .socks => "SOCKS5 proxy."
    | .shadowsocks => "Shadowsocks proxy with an AEAD cipher."
    | .trojan => "Trojan proxy, optionally over WebSocket, TLS, AMux or QUIC."
    | .vmess => "VMess proxy, optionally over WebSocket, TLS, AMux or QUIC."

end ProxyConfig

import ProxyConfig.Keyword

/-! # General settings

The keys of the `General` section and the values each of them takes.
-/

namespace ProxyConfig

/-- What the value of a setting has to be. -/
inductive SettingKind where
  /-- A signed 64-bit integer. -/
  | integer
  /-- Only `auto` has an effect. -/
  | tun
  /-- One of `logLevels`. -/
  | logLevel
  /-- Comma-separated IP addresses. -/
  | addressList
  /-- Comma-separated domains; its two keys exclude each other. -/
  | domainList
  /-- `true` or `false`. -/
  | boolean
  /-- A TCP or UDP port. -/
  | port
  /-- A network interface or an address to listen on. -/
  | networkInterface
  | freeForm
deriving DecidableEq

/-- The keys of the `General` section. -/
inductive SettingKey where
  | tunFd
  | tun
  | logLevel
  | logOutput
  | dnsServer
  | dnsInterface
  | alwaysRealIp
  | alwaysFakeIp
  | routingDomainResolve
  | httpInterface
  | inboundInterface
  | httpPort
  | inboundPort
  | socksInterface
  | socksPort
  | apiInterface
  | apiPort
deriving DecidableEq

namespace SettingKey

def kind : SettingKey → SettingKind
  | tunFd => .integer
  | tun => .tun
  | logLevel => .logLevel
  | logOutput => .freeForm
  | dnsServer => .addressList
  | alwaysRealIp | alwaysFakeIp => .domainList
  | routingDomainResolve => .boolean
  | dnsInterface | httpInterface | inboundInterface | socksInterface | apiInterface =>
    .networkInterface
  | httpPort | inboundPort | socksPort | apiPort => .port

end SettingKey

instance : Keyword SettingKey where
  all := [.tunFd, .tun, .logLevel, .logOutput, .dnsServer, .dnsInterface, .alwaysRealIp,
    .alwaysFakeIp, .routingDomainResolve, .httpInterface, .inboundInterface, .httpPort,
    .inboundPort, .socksInterface, .socksPort, .apiInterface, .apiPort]
  spelling
    | .tunFd => "tun-fd"
    | .tun => "tun"
    | .logLevel => "loglevel"
    | .logOutput => "logoutput"
    | .dnsServer => "dns-server"
    | .dnsInterface => "dns-interface"
    | .alwaysRealIp => "always-real-ip"
    | .alwaysFakeIp => "always-fake-ip"
    | .routingDomainResolve => "routing-domain-resolve"
    | .httpInterface => "http-interface"
    | .inboundInterface => "interface"
    | .httpPort => "http-port"
    | .inboundPort => "port"
    | .socksInterface => "socks-interface"
    | .socksPort => "socks-port"
    | .apiInterface => "api-interface"
    | .apiPort => "api-port"
  description
    | .tunFd =>
      "File descriptor of an existing TUN device. Kept for compatibility; prefer `tun = auto`."
    | .tun => "TUN inbound. `auto` uses the VPN interface provided by the platform."
    | .logLevel => "Logging verbosity: trace, debug, info, warn or error."
    | .logOutput => "Where logs are written: `console` or a file path."
    | .dnsServer => "Comma-separated IP addresses of upstream DNS servers."
    | .dnsInterface => "Interface or address used to send DNS queries."
    | .alwaysRealIp => "Domains that always resolve to real IP addresses in fake-IP mode."
    | .alwaysFakeIp =>
      "Domains that always resolve to fake IP addresses; all others get real ones."
    | .routingDomainResolve =>
      "Resolve domain names before routing so that IP based rules can match."
    | .httpInterface => "Listen address of the HTTP inbound."
    | .inboundInterface => "Listen address of the default inbound."
    | .httpPort => "Listen port of the HTTP inbound."
    | .inboundPort => "Listen port of the default inbound."
    | .socksInterface => "Listen address of the SOCKS inbound."
    | .socksPort => "Listen port of the SOCKS inbound."
    | .apiInterface => "Listen address of the control API."
    | .apiPort => "Listen port of the control API."

/-- The values of `loglevel`. -/
def logLevels : List String := ["trace", "debug", "info", "warn", "error"]

end ProxyConfig

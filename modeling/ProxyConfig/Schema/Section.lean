import ProxyConfig.Keyword

/-! # Section names

The sections that a configuration may have.
-/

namespace ProxyConfig

/-- The known sections of a configuration. -/
inductive SectionKind where
  | general
  | proxy
  | proxyGroup
  | rule
  | host
  | env
  | onDemand
deriving DecidableEq

instance : Keyword SectionKind where
  all := [.general, .proxy, .proxyGroup, .rule, .host, .env, .onDemand]
  spelling
    | .general => "General"
    | .proxy => "Proxy"
    | .proxyGroup => "Proxy Group"
    | .rule => "Rule"
    | .host => "Host"
    | .env => "Env"
    | .onDemand => "On Demand"
  description
    | .general => "Global settings: inbounds, DNS and logging."
    | .proxy => "Outbound proxies, one `name = protocol, ...` per line."
    | .proxyGroup => "Groups combining proxies or other groups into one actor."
    | .rule => "Routing rules, matched top to bottom. Ends with a FINAL rule."
    | .host => "Static host name to IP address mappings."
    | .env => "Environment variables passed to the Leaf core."
    | .onDemand => "On-demand connection rules for the VPN platform."

end ProxyConfig

import ProxyConfig.Keyword

/-! # Rules

A rule is `TYPE, matcher, target`, or `FINAL, target` for the one that catches everything else.
-/

namespace ProxyConfig

/-- The types of routing rules. -/
inductive RuleType where
  | ipCidr
  | domain
  | domainSuffix
  | domainKeyword
  | geoIp
  | external
  | portRange
  | network
  | inboundTag
  | final
deriving DecidableEq

namespace RuleType

/-- How many arguments follow the type. -/
def arity : RuleType → Nat
  | final => 1
  | _ => 2

/-- Which piece of the rule names the target, counting the type as 0: the last one. -/
def targetIndex (t : RuleType) : Nat := t.arity

end RuleType

instance : Keyword RuleType where
  all := [.ipCidr, .domain, .domainSuffix, .domainKeyword, .geoIp, .external, .portRange,
    .network, .inboundTag, .final]
  spelling
    | .ipCidr => "IP-CIDR"
    | .domain => "DOMAIN"
    | .domainSuffix => "DOMAIN-SUFFIX"
    | .domainKeyword => "DOMAIN-KEYWORD"
    | .geoIp => "GEOIP"
    | .external => "EXTERNAL"
    | .portRange => "PORT-RANGE"
    | .network => "NETWORK"
    | .inboundTag => "INBOUND-TAG"
    | .final => "FINAL"
  description
    | .ipCidr => "Match destination IP addresses inside a CIDR block."
    | .domain => "Match a destination domain exactly."
    | .domainSuffix => "Match a destination domain and all of its subdomains."
    | .domainKeyword => "Match destination domains containing a keyword."
    | .geoIp => "Match destination IP addresses by country code."
    | .external =>
      "Match against an external database: `mmdb:<code>` or `site:[<file>:]<group>`."
    | .portRange => "Match destination ports inside `<start>-<end>`."
    | .network => "Match the transport: TCP or UDP."
    | .inboundTag => "Match the tag of the inbound that accepted the connection."
    | .final => "Catch-all rule applied when nothing else matches."

/-- The matchers of `NETWORK` rules. -/
def networks : List String := ["TCP", "UDP"]

/-- The databases of `EXTERNAL` rules. -/
inductive ExternalSource where
  | site
  | mmdb
deriving DecidableEq

instance : Keyword ExternalSource where
  all := [.site, .mmdb]
  spelling
    | .site => "site"
    | .mmdb => "mmdb"
  description
    | .site => "Domain lists from a site database."
    | .mmdb => "Country database in MaxMind format."

end ProxyConfig

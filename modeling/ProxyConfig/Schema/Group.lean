import ProxyConfig.Keyword
import ProxyConfig.Schema.Property

/-! # Proxy groups

A group is declared as `name = type, actor, ..., key=value, ...`. Its actors are proxies or other
groups, and the type decides which properties may follow them.
-/

namespace ProxyConfig

/-- The property keys of proxy groups. -/
inductive GroupProperty where
  | failover
  | checkInterval
  | failTimeout
  | healthCheck
  | lastResort
  | fallbackCache
  | cacheSize
  | cacheTimeout
  | healthCheckTimeout
  | healthCheckDelay
  | healthCheckActive
  | delayBase
  | method
deriving DecidableEq

namespace GroupProperty

def valueKind : GroupProperty → ValueKind
  | failover | healthCheck | fallbackCache => .boolean
  | checkInterval | failTimeout | cacheSize | cacheTimeout | healthCheckTimeout
  | healthCheckDelay | healthCheckActive | delayBase => .integer
  | lastResort => .actor
  | method => .method

end GroupProperty

instance : Keyword GroupProperty where
  all := [.failover, .checkInterval, .failTimeout, .healthCheck, .lastResort, .fallbackCache,
    .cacheSize, .cacheTimeout, .healthCheckTimeout, .healthCheckDelay, .healthCheckActive,
    .delayBase, .method]
  spelling
    | .failover => "failover"
    | .checkInterval => "check-interval"
    | .failTimeout => "fail-timeout"
    | .healthCheck => "health-check"
    | .lastResort => "last-resort"
    | .fallbackCache => "fallback-cache"
    | .cacheSize => "cache-size"
    | .cacheTimeout => "cache-timeout"
    | .healthCheckTimeout => "health-check-timeout"
    | .healthCheckDelay => "health-check-delay"
    | .healthCheckActive => "health-check-active"
    | .delayBase => "delay-base"
    | .method => "method"
  description
    | .failover => "Switch to the next actor when the current one fails."
    | .checkInterval => "Seconds between two health checks."
    | .failTimeout => "Seconds before a connection attempt counts as failed."
    | .healthCheck => "Check the health of actors periodically."
    | .lastResort => "Actor used when every other actor is unhealthy."
    | .fallbackCache => "Remember the actor that last succeeded for each destination."
    | .cacheSize => "Number of destinations kept in the fallback cache."
    | .cacheTimeout => "Minutes before a fallback cache entry expires."
    | .healthCheckTimeout => "Seconds before a health check counts as failed."
    | .healthCheckDelay => "Milliseconds to wait before the first health check."
    | .healthCheckActive => "Seconds of inactivity after which health checks pause."
    | .delayBase => "Milliseconds to wait before trying the next actor."
    | .method => "Selection method: random, random-once or rr (round robin)."

/-- The types of proxy groups. -/
inductive GroupType where
  | chain
  | failover
  | urlTest
  | tryAll
  | static
  | select
deriving DecidableEq

namespace GroupType

/-- The properties that a declaration must have. -/
def required : GroupType → List GroupProperty
  | _ => []

/-- The properties that a declaration may have. -/
def allowed : GroupType → List GroupProperty
  | chain | select => []
  | failover | urlTest =>
    [.failover, .checkInterval, .failTimeout, .healthCheck, .lastResort, .fallbackCache,
      .cacheSize, .cacheTimeout, .healthCheckTimeout, .healthCheckDelay, .healthCheckActive,
      .delayBase]
  | tryAll => [.delayBase]
  | static => [.method]

/-- Whether a declaration of the type may have the property. -/
def accepts (t : GroupType) (key : GroupProperty) : Bool :=
  t.required.contains key || t.allowed.contains key

/-- A whole declaration value with tab stops, as completion inserts it. -/
def snippet : GroupType → String
  | chain => "chain, $\x7b1:actor\x7d"
  | failover => "failover, $\x7b1:actor\x7d"
  | urlTest => "url-test, $\x7b1:actor\x7d"
  | tryAll => "tryall, $\x7b1:actor\x7d"
  | static => "static, $\x7b1:actor\x7d, method=$\x7b2|random,random-once,rr|\x7d"
  | select => "select, $\x7b1:actor\x7d"

end GroupType

instance : Keyword GroupType where
  all := [.chain, .failover, .urlTest, .tryAll, .static, .select]
  spelling
    | .chain => "chain"
    | .failover => "failover"
    | .urlTest => "url-test"
    | .tryAll => "tryall"
    | .static => "static"
    | .select => "select"
  description
    | .chain => "Chain the actors: traffic passes through each of them in order."
    | .failover => "Use the first healthy actor, checking health periodically."
    | .urlTest =>
      "Use the actor with the lowest latency. Same as `failover` with `failover=false`."
    | .tryAll => "Try all actors concurrently and keep the first that connects."
    | .static => "Pick an actor with a fixed method: random, random-once or round robin."
    | .select => "Let the user pick one of the actors."

/-- A group type of older configurations, now written as `static` with `method=random`. -/
def removedGroupType : String := "random"

end ProxyConfig

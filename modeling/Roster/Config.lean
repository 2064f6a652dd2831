import Roster.Time.Duration

/-!
# Configuration

The settings of a cluster member.  Every setting has a default, and a configuration is valid
when its periods lie in their bounds, claiming may be tried at least once, the cap of the
backoff is not below its base, and the names are there and tell the two regions apart.
-/

namespace Roster

structure Config where
  heartbeatSecs : UInt64 := 300
  settleMillis : UInt64 := 1000
  settleAttempts : UInt32 := 10
  backoffBaseMillis : UInt64 := 250
  backoffMaxMillis : UInt64 := 8000
  freshnessSecs : UInt64 := 1800
  cookieName : String := "CLUSTER-TRACKING"
  serverRegion : String := "server-tracking-cache"
  userRegion : String := "user-tracking-cache"
deriving Repr, DecidableEq

namespace Config

def maxHeartbeatSecs : UInt64 := 86400

def maxFreshnessSecs : UInt64 := 2592000

/-! # Faults -/

inductive Fault where
  | unreadable (reason : String)
  | malformed
  | unserializable
  | unwritable (reason : String)
  | heartbeatZero
  | heartbeatTooLong
  | freshnessTooLong
  | noAttempts
  | capBelowBase
  | emptyCookieName
  | emptyRegion
  | sharedRegion
deriving Repr, DecidableEq

namespace Fault

def message : Fault → String
  | unreadable reason => s!"Failed to read config: {reason}"
  | malformed => "Failed to parse config"
  | unserializable => "Failed to serialize config: out-of-range value for u64 type"
  | unwritable reason => s!"Failed to write config: {reason}"
  | heartbeatZero => "heartbeat_interval_secs must be positive"
  | heartbeatTooLong => s!"heartbeat_interval_secs must not exceed {maxHeartbeatSecs}"
  | freshnessTooLong => s!"freshness_window_secs must not exceed {maxFreshnessSecs}"
  | noAttempts => "max_settle_attempts must be positive"
  | capBelowBase => "backoff_max_millis must not be below backoff_base_millis"
  | emptyCookieName => "tracking_cookie_name must not be empty"
  | emptyRegion => "region names must not be empty"
  | sharedRegion => "server and tracking records need separate regions"

end Fault

/-! # Validity -/

def validate (c : Config) : Except Fault Unit := do
  if c.heartbeatSecs = 0 then throw .heartbeatZero
  if maxHeartbeatSecs < c.heartbeatSecs then throw .heartbeatTooLong
  if maxFreshnessSecs < c.freshnessSecs then throw .freshnessTooLong
  if c.settleAttempts = 0 then throw .noAttempts
  if c.backoffMaxMillis < c.backoffBaseMillis then throw .capBelowBase
  if c.cookieName.isEmpty then throw .emptyCookieName
  if c.serverRegion.isEmpty || c.userRegion.isEmpty then throw .emptyRegion
  if c.serverRegion = c.userRegion then throw .sharedRegion

/-! # Periods -/

def heartbeatInterval (c : Config) : Duration := .ofSeconds c.heartbeatSecs.toNat

def settleDelay (c : Config) : Duration := .ofMillis c.settleMillis.toNat

def backoffBase (c : Config) : Duration := .ofMillis c.backoffBaseMillis.toNat

def backoffMax (c : Config) : Duration := .ofMillis c.backoffMaxMillis.toNat

def maxWindowSecs : Int := 9223372036854775

/-- The freshness window in seconds, the setting being read as a signed 64-bit number.  A window
whose milliseconds do not fit such a number does not exist. -/
def windowSecs? (c : Config) : Option Int :=
  let secs := (c.freshnessSecs.toNat : Int).bmod 18446744073709551616
  if -maxWindowSecs ≤ secs ∧ secs ≤ maxWindowSecs then some secs else none

/-- The freshness window in nanoseconds. -/
def window? (c : Config) : Option Int :=
  c.windowSecs?.map (· * 1000000000)

end Config
end Roster

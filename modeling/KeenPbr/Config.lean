import KeenPbr.NfqwsParser

/-! The configuration as api/generated/api_types.hpp declares it, cut down to what the routing
planner, the firewall rule builder and their validation read, and the text helpers of config.cpp.
An int64 field is an Int; narrowing to 32 bits is explicit. -/
namespace KeenPbr

inductive OutboundType where
  | interface
  | table
  | blackhole
  | ignore
  | urltest
  deriving DecidableEq, Repr

inductive ConntrackOnSwitch where
  | delete
  | deleteOnFailure
  | preserve
  deriving DecidableEq, Repr

structure OutboundGroup where
  outbounds : List String
  weight : Option Int := none
  deriving DecidableEq, Repr

structure RetryConfig where
  attempts : Option Int := none
  intervalMs : Option Int := none
  deriving DecidableEq, Repr

structure CircuitBreakerConfig where
  failureThreshold : Option Int := none
  successThreshold : Option Int := none
  timeoutMs : Option Int := none
  halfOpenMaxRequests : Option Int := none
  deriving DecidableEq, Repr

inductive UrltestSelectionMode where
  | latency
  | priority
  deriving DecidableEq, Repr

structure Outbound where
  tag : String
  type : OutboundType
  displayName : Option String := none
  interface : Option String := none
  gateway : Option String := none
  gateway6 : Option String := none
  table : Option Int := none
  strictEnforcement : Option Bool := none
  conntrackOnSwitch : Option ConntrackOnSwitch := none
  url : Option String := none
  intervalMs : Option Int := none
  probeTimeoutMs : Option Int := none
  toleranceMs : Option Int := none
  retry : Option RetryConfig := none
  circuitBreaker : Option CircuitBreakerConfig := none
  outboundGroups : Option (List OutboundGroup) := none
  selectionMode : Option UrltestSelectionMode := none
  deriving DecidableEq, Repr

inductive FailurePolicy where
  | inherit
  | block
  | fallback
  deriving DecidableEq, Repr

structure RouteRule where
  outbound : String
  id : Option String := none
  displayName : Option String := none
  enabled : Option Bool := none
  list : Option (List String) := none
  proto : Option String := none
  dscp : Option Int := none
  srcPort : Option String := none
  destPort : Option String := none
  srcAddr : Option String := none
  destAddr : Option String := none
  failurePolicy : Option FailurePolicy := none
  fallbackOutbound : Option String := none
  deriving DecidableEq, Repr

structure FwmarkConfig where
  start : Option String := none
  mask : Option String := none
  deriving DecidableEq, Repr

structure Config where
  outbounds : Option (List Outbound) := none
  lists : List String := []
  routeRules : List RouteRule := []
  tableStart : Option Int := none
  fwmark : FwmarkConfig := {}
  strictEnforcement : Option Bool := none
  deriving DecidableEq, Repr

def Config.outboundList (cfg : Config) : List Outbound := cfg.outbounds.getD []

/- static_cast<uint32_t> of an int64. -/
def toUint32 (value : Int) : UInt32 := UInt32.ofNat (value % 2 ^ 32).toNat

def toInt32 (value : Int) : Int := (value + 2 ^ 31) % 2 ^ 32 - 2 ^ 31

def Config.tableStartValue (cfg : Config) : UInt32 := toUint32 (cfg.tableStart.getD 150)

def routeRuleLists (rule : RouteRule) : List String := rule.list.getD []

def routeRuleEnabled (rule : RouteRule) : Bool := rule.enabled.getD true

def Outbound.routable (outbound : Outbound) : Bool :=
  outbound.type == .interface || outbound.type == .table || outbound.type == .urltest

def findOutbound (outbounds : List Outbound) (tag : String) : Option Outbound :=
  outbounds.find? fun outbound => outbound.tag == tag

def trimmed (c : Char) : Bool :=
  c == ' ' || c == '\t' || c == '\n' || c == '\r' || c == '\x0c' || c == '\x0b'

def trimText (value : Text) : Text := ((value.dropWhile trimmed).reverse.dropWhile trimmed).reverse

def trimCopy (value : String) : String := String.ofList (trimText value.toList)

end KeenPbr

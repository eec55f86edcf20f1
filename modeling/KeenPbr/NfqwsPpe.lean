import KeenPbr.Intervals
import KeenPbr.NfqwsValidator

/-! The PPE contract of util/nfqws_validator.cpp, read from the configuration and from a live command line. The uint16
fields of a range are numbers here: parse_port keeps them from 1 to 65535, and the comparisons widen them first. -/
namespace KeenPbr.NfqwsPpe

abbrev NfqwsPpePortRange := Interval

abbrev Ranges := List NfqwsPpePortRange

def kNfqwsPpeMultiportSlotsPerChunk : Nat := 15
def kNfqwsPpeMaxTcpChunks : Nat := 16

structure NfqwsPpePortContract where
  available : Bool := false
  reason : String := ""
  queueNumber : Int := 300
  tcpRanges : Ranges := []
  tcpChunks : List Ranges := []
  quicUdp443 : Bool := false
  deriving DecidableEq, Repr

section Helpers

def parsePort (port : Text) : Option Nat :=
  match fromChars port with
  | some n => if 1 ≤ n ∧ n ≤ 65535 then some n.toNat else none
  | none => none

def parseItem (allowColon : Bool) (item : Text) : Option NfqwsPpePortRange :=
  let dash := item.findIdx? (· == '-')
  let colon := if allowColon then item.findIdx? (· == ':') else none
  if item.isEmpty || (dash.isSome && colon.isSome) then none
  else
    match dash.or colon with
    | none => (parsePort item).map fun port => ⟨port,port⟩
    | some separator =>
      if (item.drop (separator + 1)).contains (item.getD separator ' ') || separator == 0 || separator + 1 == item.length then none
      else
        match parsePort (item.take separator),parsePort (item.drop (separator + 1)) with
        | some first,some last => if last < first then none else some ⟨first,last⟩
        | _,_ => none

def parsePpePortRanges (spec : Text) (allowColon : Bool) : Option Ranges :=
  if spec.isEmpty then none else ((spec.splitOn ',').mapM (parseItem allowColon)).map Interval.canonical

def appendCanonicalRanges (destination source : Ranges) : Ranges := Interval.canonical (destination ++ source)

def filterSpecs (flag : String) (tokens : List Text) : List Text :=
  (tokens.filter (startsWith · flag)).map fun token => token.drop flag.length

/- The loop over those specifications; one that does not parse ends it. -/
def appendFilters (specs : List Text) (output : Ranges) : Option Ranges :=
  specs.foldlM (fun output spec => (parsePpePortRanges spec false).map (appendCanonicalRanges output)) output

def appendTcpFilters (tokens : List Text) (output : Ranges) : Option Ranges :=
  if (filterSpecs "--filter-tcp=" tokens).isEmpty then none else appendFilters (filterSpecs "--filter-tcp=" tokens) output

def rangeSetContains (ranges : Ranges) (port : Nat) : Bool := ranges.any fun range => range.first ≤ port && port ≤ range.last

def rangeSetCovers (declared active : Ranges) : Bool := Interval.covers declared active

def unavailablePpeContract (reason : String) (queueNumber : Int) : NfqwsPpePortContract := { queueNumber, reason }

def chunkPpeTcpRanges (ranges : Ranges) : Option (List Ranges) :=
  Interval.pack kNfqwsPpeMultiportSlotsPerChunk kNfqwsPpeMaxTcpChunks ranges

def hasFilter (flag : String) (tokens : List Text) : Bool := tokens.any (startsWith · flag)

def namesQuic (token : Text) : Bool := startsWith token "--filter-l7=" && ((token.drop 12).splitOn ',').contains (text "quic")

def require (holds : Bool) (reason : String) : Except String Unit := if holds then .ok () else .error reason

def present {α : Type} (value : Option α) (reason : String) : Except String α :=
  match value with
  | some found => .ok found
  | none => .error reason

end Helpers

section Configuration

/- collect_action_segment. -/
def collectActionSegment (source : String) (segment : List Text) (active : Ranges) : Except String Ranges :=
  if !containsStrategyAction segment then .ok active
  else if !hasFilter "--filter-tcp=" segment && !hasFilter "--filter-udp=" segment then
    .error (source ++ " has an action without a bounded protocol filter")
  else if hasFilter "--filter-tcp=" segment then
    present (appendTcpFilters segment active) (source ++ " has an invalid TCP filter")
  else .ok active

def collectCustomSegment (segment : List Text) (number : Nat) (active : Ranges) : Except String Ranges :=
  if segment.isEmpty then .ok active else collectActionSegment ("NFQWS_ARGS_CUSTOM profile " ++ toString number) segment active

def collectCustom : List Text → List Text → Nat → Ranges → Except String Ranges
  | [],segment,number,active => collectCustomSegment segment number active
  | token :: rest,segment,number,active =>
    if isNewBoundary token then do
      let active ← collectCustomSegment segment number active
      collectCustom rest [] (number + 1) active
    else collectCustom rest (segment ++ [token]) number active

def collectMain (main : List Text) : Except String Ranges :=
  if main.isEmpty then .ok [] else collectActionSegment "NFQWS_ARGS" main []

def quicContract (tokens : List Text) (udpPorts : Text) : Except String Bool :=
  if tokens.isEmpty then .ok false
  else do
    let ports ← present (appendFilters (filterSpecs "--filter-udp=" tokens) []) "NFQWS_ARGS_QUIC has an invalid UDP filter"
    require (containsStrategyAction tokens && hasFilter "--filter-udp=" tokens && tokens.any namesQuic && ports == [⟨443,443⟩])
      "NFQWS_ARGS_QUIC must be an action-bearing exact UDP/443 QUIC profile"
    require (((parsePpePortRanges udpPorts true).map (rangeSetContains · 443)).getD false)
      "UDP_PORTS does not include NFQWS_ARGS_QUIC UDP/443"
    .ok true

def contractFrom (value : String → Text) (queueNumber : Int) : Except String NfqwsPpePortContract := do
  let active ← collectMain (splitFields (value "NFQWS_ARGS"))
  let active ← collectCustom (splitFields (value "NFQWS_ARGS_CUSTOM")) [] 1 active
  require (!active.isEmpty) "active nfqws profiles have no bounded TCP filter"
  let declared ← present (parsePpePortRanges (value "TCP_PORTS") true) "TCP_PORTS is missing or invalid"
  require (rangeSetCovers declared active) "TCP_PORTS does not cover every active TCP filter"
  let chunks ← present (chunkPpeTcpRanges active) "active TCP filters exceed the bounded multiport chunk limit"
  let quic ← quicContract (splitFields (value "NFQWS_ARGS_QUIC")) (value "UDP_PORTS")
  .ok { available := true, queueNumber, tcpRanges := active, tcpChunks := chunks, quicUdp443 := quic }

def extractNfqwsPpePortContract (content : Text) (resolvePath : NfqwsPathResolver) : NfqwsPpePortContract :=
  let parsed := parseCandidate content
  let queueValue := valueOf parsed "NFQUEUE_NUM"
  let queueNumber := parsedQueueNumber queueValue 300
  match validateParsedCandidate parsed resolvePath with
  | issue :: _ => unavailablePpeContract ("candidate validation failed at " ++ issue.path ++ ": " ++ issue.message) queueNumber
  | [] =>
    if queueValue.isEmpty then unavailablePpeContract "NFQUEUE_NUM is missing; the runtime queue cannot be inferred" 300
    else
      match contractFrom (valueOf parsed) queueNumber with
      | .ok contract => contract
      | .error reason => unavailablePpeContract reason queueNumber

end Configuration

end KeenPbr.NfqwsPpe

import KeenPbr.AddressTexts
import KeenPbr.NfqwsValidator

/-! The deletions of runtime/conntrack_manager.cpp: by owned mark, and of forwarded flows read from
a snapshot. The command runner, the snapshot reader and the clock are the manager's parameters;
a deletion returns the commands it issued in order. -/
namespace KeenPbr.Conntrack

inductive TargetAddressFamily where
  | ipv4
  | ipv6
  deriving DecidableEq, Repr

def TargetAddressFamily.isIpv6 (family : TargetAddressFamily) : Bool := family == .ipv6

abbrev Command := List String

structure CommandResult where
  exitCode : Int := -1
  output : Text := []
  deriving DecidableEq, Repr

structure Snapshot where
  content : Text
  truncated : Bool := false
  deriving DecidableEq, Repr

/- What the manager asks outside: the answer to a command, or none if the runner throws, and whether
the deadline is reached, both after the commands so far; the deadline again at a line of the snapshot. -/
structure Environment where
  run : List Command → Command → Option CommandResult
  deadlineReached : List Command → Bool
  scanDeadlineReached : Nat → Bool
  readSnapshot : Nat → Option Snapshot

inductive ConntrackCleanupResult where
  | succeeded
  | commandUnavailable
  | failed
  deriving DecidableEq, Repr

def occursIn (needle : Text) : Text → Bool
  | [] => needle.isEmpty
  | c :: rest => needle.isPrefixOf (c :: rest) || occursIn needle rest

def isEmptyDeleteResult (result : CommandResult) : Bool :=
  result.exitCode == 1 && occursIn (text "0 flow entries have been deleted") result.output

section Addresses
variable (inet : Inet)

def trimAsciiWhitespace (value : Text) : Text := Fields.strip (fun c => c == ' ' || c == '\t' || c == '\r' || c == '\n') value

structure NormalizedTargetCidr where
  family : TargetAddressFamily
  value : String
  network : List UInt8
  length : Nat
  deriving DecidableEq, Repr

def ipv4Number (bytes : List UInt8) : Nat := bytes.foldl (fun number byte => number * 256 + byte.toNat) 0

def ipv4Bytes (number : Nat) : List UInt8 := [24,16,8,0].map fun shift => UInt8.ofNat (number >>> shift)

def ipv4Mask (length : Nat) : Nat := if length = 32 then 0xFFFFFFFF else (0xFFFFFFFF <<< (32 - length)) % 2 ^ 32

def byteMask (remainingBits : Nat) : UInt8 := UInt8.ofNat (0xFF <<< (8 - remainingBits))

def maskedIpv4 (bytes : List UInt8) (length : Nat) : List UInt8 := ipv4Bytes (ipv4Number bytes &&& ipv4Mask length)

def maskedIpv6 (bytes : List UInt8) (length : Nat) : List UInt8 :=
  let completeBytes := length / 8
  let remainingBits := length % 8
  bytes.mapIdx fun index byte =>
    if index < completeBytes then byte
    else if remainingBits ≠ 0 ∧ index = completeBytes then byte &&& byteMask remainingBits
    else 0

def maxPrefix (ipv6 : Bool) : Int := if ipv6 then 128 else 32

def targetedPrefix (ipv6 : Bool) (cidr : Text) : Option Int :=
  match cidr.dropWhile (· != '/') with
  | [] => some (maxPrefix ipv6)
  | _ :: prefixText => if prefixText.contains '/' then none else fromCharsInt prefixText

def normalizeTargetedCidr (raw : Text) : Option NormalizedTargetCidr := do
  let cidr := trimAsciiWhitespace raw
  if cidr.isEmpty then none
  else
    let ip := hostPart cidr
    let ipv6 := ip.contains ':'
    let length ← targetedPrefix ipv6 cidr
    if length ≤ 0 ∨ maxPrefix ipv6 < length then none
    else
      let address ← inet.pton (familyOf ipv6) (cString ip)
      let network := if ipv6 then maskedIpv6 address length.toNat else maskedIpv4 address length.toNat
      let normalized ← inet.ntop (familyOf ipv6) network
      some
        { family := if ipv6 then .ipv6 else .ipv4
          value := normalized ++ "/" ++ toString length.toNat
          network
          length := length.toNat }

structure NormalizedHostAddress where
  family : TargetAddressFamily
  value : String
  bytes : List UInt8
  deriving DecidableEq, Repr

def normalizeHostAddress (raw : Text) : Option NormalizedHostAddress := do
  let value := hostPart (trimAsciiWhitespace raw)
  if value.isEmpty then none
  else
    let ipv6 := value.contains ':'
    let bytes ← inet.pton (familyOf ipv6) (cString value)
    let normalized ← inet.ntop (familyOf ipv6) bytes
    some { family := if ipv6 then .ipv6 else .ipv4, value := normalized, bytes }

def cidrContains (cidr : NormalizedTargetCidr) (host : NormalizedHostAddress) : Bool :=
  if cidr.family ≠ host.family then false
  else
    let byteCount := if cidr.family = .ipv6 then 16 else 4
    let completeBytes := cidr.length / 8
    let remainingBits := cidr.length % 8
    if cidr.network.take completeBytes ≠ host.bytes.take completeBytes then false
    else if remainingBits = 0 ∨ byteCount ≤ completeBytes then true
    else cidr.network.getD completeBytes 0 &&& byteMask remainingBits == host.bytes.getD completeBytes 0 &&& byteMask remainingBits

/- std::from_chars of the whole text into 32 bits. -/
def fromCharsWord (hex : Bool) (value : Text) : Option UInt32 :=
  let digit := if hex then isHex else isDigit
  let number := if hex then hexNumber value else Nat.ofDigitChars 10 value 0
  if value.isEmpty || !value.all digit || 2 ^ 32 ≤ number then none else some (UInt32.ofNat number)

def parseExplicitConntrackMark (value : Text) : Option UInt32 :=
  match value with
  | '0' :: x :: digit :: rest => if x == 'x' || x == 'X' then fromCharsWord true (digit :: rest) else fromCharsWord false value
  | _ => fromCharsWord false value

structure ParsedConntrackOriginalPair where
  source : NormalizedHostAddress
  destination : NormalizedHostAddress
  mark : UInt32
  deriving DecidableEq, Repr

structure PairWords where
  source : Option NormalizedHostAddress := none
  destination : Option NormalizedHostAddress := none
  mark : Option UInt32 := none
  deriving DecidableEq, Repr

def endpoint (raw : Text) : Option NormalizedHostAddress := if raw.contains '/' then none else normalizeHostAddress inet raw

def readWord (words : PairWords) (token : Text) : Option PairWords :=
  if startsWith token "src=" && words.destination.isNone then
    if words.source.isSome then none else (endpoint inet (token.drop 4)).map fun source => { words with source := some source }
  else if startsWith token "dst=" && words.destination.isNone then
    if words.source.isNone then none
    else (endpoint inet (token.drop 4)).map fun destination => { words with destination := some destination }
  else if startsWith token "mark=" then
    if words.mark.isSome then none else (parseExplicitConntrackMark (token.drop 5)).map fun mark => { words with mark := some mark }
  else some words

def parseConntrackOriginalPair (line : Text) : Option ParsedConntrackOriginalPair :=
  match splitFields line with
  | [] => none
  | familyToken :: tokens =>
    if familyToken ≠ text "ipv4" ∧ familyToken ≠ text "ipv6" then none
    else do
      let words ← tokens.foldlM (readWord inet) {}
      let source ← words.source
      let destination ← words.destination
      let mark ← words.mark
      if source.family ≠ destination.family then none
      else if (familyToken == text "ipv6") ≠ source.family.isIpv6 then none
      else some { source, destination, mark }

end Addresses

section Marks

structure ConntrackCleanupOptions where
  ipv6Enabled : Bool := true
  maxMarks : Nat := 2 ^ 32 - 1
  deriving DecidableEq, Repr

structure ConntrackCleanupSummary where
  failed : Nat := 0
  skipped : Nat := 0
  commandUnavailable : Bool := false
  budgetExhausted : Bool := false
  remainingMarks : List UInt32 := []
  deriving DecidableEq, Repr

structure MarkLoop where
  commands : List Command := []
  summary : ConntrackCleanupSummary := {}
  failedMarks : List UInt32 := []
  unattemptedMarks : List UInt32 := []
  deriving DecidableEq, Repr

variable (env : Environment) (ownedMask : UInt32) (options : ConntrackCleanupOptions)

def markCommand (family : String) (mark : UInt32) : Command :=
  ["conntrack","-D","-f",family,"--mark",toString (mark &&& ownedMask).toNat ++ "/" ++ toString ownedMask.toNat]

def deleteFamily (commands : List Command) (command : Command) : ConntrackCleanupResult :=
  match env.run commands command with
  | none => .failed
  | some result =>
    if result.exitCode = 127 then .commandUnavailable
    else if result.exitCode = 0 ∨ isEmptyDeleteResult result = true then .succeeded
    else .failed

def MarkLoop.fail (loop : MarkLoop) (mark : UInt32) : MarkLoop :=
  { loop with summary := { loop.summary with failed := loop.summary.failed + 1 }, failedMarks := loop.failedMarks ++ [mark] }

def MarkLoop.retain (loop : MarkLoop) (marks : List UInt32) : MarkLoop :=
  { loop with
    summary := { loop.summary with skipped := loop.summary.skipped + marks.length }
    unattemptedMarks := loop.unattemptedMarks ++ marks }

/- The loop over the ordered marks from an index on. -/
def deleteMarkLoop : Nat → List UInt32 → MarkLoop → MarkLoop
  | _,[],loop => loop
  | index,mark :: rest,loop =>
    if options.maxMarks ≤ index then loop.retain (mark :: rest)
    else if ownedMask = 0 ∨ mark &&& ownedMask = 0 then deleteMarkLoop (index + 1) rest (loop.fail mark)
    else if env.deadlineReached loop.commands then
      MarkLoop.retain { loop with summary := { loop.summary with budgetExhausted := true } } (mark :: rest)
    else
      let ipv4 := deleteFamily env loop.commands (markCommand ownedMask "ipv4" mark)
      let loop := { loop with commands := loop.commands ++ [markCommand ownedMask "ipv4" mark] }
      if ipv4 = .commandUnavailable then
        MarkLoop.retain { loop with summary := { loop.summary with commandUnavailable := true } } (mark :: rest)
      else if !options.ipv6Enabled then
        deleteMarkLoop (index + 1) rest (if ipv4 = .failed then loop.fail mark else loop)
      else if env.deadlineReached loop.commands then
        (MarkLoop.retain { loop with summary := { loop.summary with budgetExhausted := true } } rest).fail mark
      else
        let ipv6 := deleteFamily env loop.commands (markCommand ownedMask "ipv6" mark)
        let loop := { loop with commands := loop.commands ++ [markCommand ownedMask "ipv6" mark] }
        if ipv6 = .commandUnavailable then
          MarkLoop.retain
            { loop with summary := { loop.summary with commandUnavailable := true }, failedMarks := loop.failedMarks ++ [mark] } rest
        else deleteMarkLoop (index + 1) rest (if ipv4 = .failed ∨ ipv6 = .failed then loop.fail mark else loop)

def distinctMarks (marks : List UInt32) : List UInt32 :=
  marks.foldl (fun ordered mark => if mark ∈ ordered then ordered else ordered ++ [mark]) []

def deleteMarksOrdered (marks : List UInt32) : List Command × ConntrackCleanupSummary :=
  let loop := deleteMarkLoop env ownedMask options 0 (distinctMarks marks) {}
  (loop.commands,{ loop.summary with remainingMarks := loop.unattemptedMarks ++ loop.failedMarks })

end Marks

section Flows
variable (inet : Inet) (env : Environment)

structure ConntrackForwardedFlowPair where
  source : String
  destination : String
  ipv6 : Bool := false
  mark : UInt32 := 0
  deriving DecidableEq, Repr

structure ConntrackForwardedFlowCleanupOptions where
  ipv6Enabled : Bool := true
  maxFlows : Nat := 256
  maxDestinationInputCidrs : Nat := 1024
  maxSnapshotBytes : Nat := 2 * 1024 * 1024
  maxSnapshotLines : Nat := 8192
  deriving DecidableEq, Repr

structure ConntrackForwardedFlowCleanupSummary where
  matched : Nat := 0
  attempted : Nat := 0
  failed : Nat := 0
  skipped : Nat := 0
  commandUnavailable : Bool := false
  budgetExhausted : Bool := false
  invalidOwnedMask : Bool := false
  destinationInputTruncated : Bool := false
  snapshotUnavailable : Bool := false
  snapshotTruncated : Bool := false
  localAddressScopeMissing : Bool := false
  remainingFlows : List ConntrackForwardedFlowPair := []
  deriving DecidableEq, Repr

structure NormalizedForwardedDestinationSelector where
  cidr : NormalizedTargetCidr
  allowUnmarked : Bool := false
  allowOwnedMark : Bool := false
  deriving DecidableEq, Repr

structure Selectors where
  selectors : List NormalizedForwardedDestinationSelector := []
  summary : ConntrackForwardedFlowCleanupSummary := {}
  deriving DecidableEq, Repr

def familyKey (ipv6 : Bool) (value : String) : String := (if ipv6 then "6:" else "4:") ++ value

def selectorKey (cidr : NormalizedTargetCidr) : String := familyKey cidr.family.isIpv6 cidr.value

variable (ownedMask : UInt32) (options : ConntrackForwardedFlowCleanupOptions)

/- selector_indices has the key of every selector. -/
def appendSelector (allowUnmarked allowOwnedMark : Bool) (known : Selectors) (raw : Text) : Selectors :=
  match normalizeTargetedCidr inet raw with
  | none => { known with summary := { known.summary with failed := known.summary.failed + 1 } }
  | some normalized =>
    if normalized.family = .ipv6 ∧ options.ipv6Enabled = false then known
    else if known.selectors.any fun selector => selectorKey selector.cidr == selectorKey normalized then
      { known with selectors := known.selectors.map fun selector =>
        if selectorKey selector.cidr = selectorKey normalized then
          { selector with
            allowUnmarked := selector.allowUnmarked || allowUnmarked
            allowOwnedMark := selector.allowOwnedMark || allowOwnedMark }
        else selector }
    else if options.maxDestinationInputCidrs ≤ known.selectors.length then
      { known with summary :=
          { known.summary with destinationInputTruncated := true, skipped := known.summary.skipped + 1 } }
    else { known with selectors := known.selectors ++ [{ cidr := normalized, allowUnmarked, allowOwnedMark }] }

def appendSelectors (allowUnmarked allowOwnedMark : Bool) (known : Selectors) (inputs : List Text) : Selectors :=
  let known :=
    if options.maxDestinationInputCidrs < inputs.length then
      { known with summary :=
          { known.summary with
            destinationInputTruncated := true
            skipped := known.summary.skipped + (inputs.length - options.maxDestinationInputCidrs) } }
    else known
  (inputs.take options.maxDestinationInputCidrs).foldl (appendSelector inet options allowUnmarked allowOwnedMark) known

def localKeys (localInterfaceAddresses : List Text) : Option (List String) :=
  localInterfaceAddresses.mapM fun raw => (normalizeHostAddress inet raw).map fun host => familyKey host.family.isIpv6 host.value

structure FlowScan where
  flows : List ConntrackForwardedFlowPair := []
  seenFlows : List String := []
  summary : ConntrackForwardedFlowCleanupSummary := {}
  deriving DecidableEq, Repr

def selectorAllows (parsed : ParsedConntrackOriginalPair) (selector : NormalizedForwardedDestinationSelector) : Bool :=
  if !cidrContains selector.cidr parsed.destination then false
  else if parsed.mark = 0 then selector.allowUnmarked
  else selector.allowOwnedMark && parsed.mark &&& ownedMask != 0

def scanLine (selectors : List NormalizedForwardedDestinationSelector) (localAddresses : List String) (scan : FlowScan)
    (line : Text) : FlowScan :=
  match parseConntrackOriginalPair inet line with
  | none => scan
  | some parsed =>
    let ipv6 := parsed.source.family.isIpv6
    let sourceKey := familyKey ipv6 parsed.source.value
    let destinationKey := familyKey ipv6 parsed.destination.value
    let flowKey := sourceKey ++ ">" ++ parsed.destination.value ++ "#" ++ toString parsed.mark.toNat
    if ipv6 && !options.ipv6Enabled then scan
    else if localAddresses.contains sourceKey || localAddresses.contains destinationKey then scan
    else if !selectors.any (selectorAllows ownedMask parsed) then scan
    else if scan.seenFlows.contains flowKey then scan
    else
      let scan := { scan with seenFlows := flowKey :: scan.seenFlows, summary := { scan.summary with matched := scan.summary.matched + 1 } }
      if options.maxFlows ≤ scan.flows.length then { scan with summary := { scan.summary with skipped := scan.summary.skipped + 1 } }
      else { scan with flows := scan.flows ++ [⟨parsed.source.value,parsed.destination.value,ipv6,parsed.mark⟩] }

def scanLines (selectors : List NormalizedForwardedDestinationSelector) (localAddresses : List String) :
    Nat → List Text → FlowScan → FlowScan
  | _,[],scan => scan
  | lineCount,line :: rest,scan =>
    if options.maxSnapshotLines ≤ lineCount then { scan with summary := { scan.summary with snapshotTruncated := true } }
    else if env.scanDeadlineReached lineCount then { scan with summary := { scan.summary with budgetExhausted := true } }
    else scanLines selectors localAddresses (lineCount + 1) rest (scanLine inet ownedMask options selectors localAddresses scan line)

def flowCommand (flow : ConntrackForwardedFlowPair) : Command :=
  ["conntrack","-D","-f",if flow.ipv6 then "ipv6" else "ipv4","-s",flow.source,"-d",flow.destination,"--mark",
    toString flow.mark.toNat ++ "/4294967295"]

/- The summary is missing when the runner throws. -/
def deleteFlows : List ConntrackForwardedFlowPair → List Command → ConntrackForwardedFlowCleanupSummary →
    List Command × Option ConntrackForwardedFlowCleanupSummary
  | [],commands,summary => (commands,some summary)
  | flow :: rest,commands,summary =>
    let retained : ConntrackForwardedFlowCleanupSummary :=
      { summary with skipped := summary.skipped + (rest.length + 1), remainingFlows := summary.remainingFlows ++ flow :: rest }
    if env.deadlineReached commands then (commands,some { retained with budgetExhausted := true })
    else
      let issued := commands ++ [flowCommand flow]
      match env.run commands (flowCommand flow) with
      | none => (issued,none)
      | some result =>
        if result.exitCode = 127 then (issued,some { retained with attempted := summary.attempted + 1, commandUnavailable := true })
        else
          let summary := { summary with attempted := summary.attempted + 1 }
          if result.exitCode ≠ 0 ∧ isEmptyDeleteResult result = false then
            deleteFlows rest issued { summary with failed := summary.failed + 1, remainingFlows := summary.remainingFlows ++ [flow] }
          else deleteFlows rest issued summary

def deleteForwardedDestinationFlows (normalDestinationCidrs aggressiveDestinationCidrs localInterfaceAddresses : List Text) :
    List Command × Option ConntrackForwardedFlowCleanupSummary :=
  if ownedMask = 0 then ([],some { invalidOwnedMask := true })
  else
    let known := appendSelectors inet options true false {} normalDestinationCidrs
    let known := appendSelectors inet options true true known aggressiveDestinationCidrs
    if known.selectors.isEmpty then ([],some known.summary)
    else if localInterfaceAddresses.isEmpty then ([],some { known.summary with localAddressScopeMissing := true })
    else
      match localKeys inet localInterfaceAddresses with
      | none => ([],some { known.summary with localAddressScopeMissing := true })
      | some localAddresses =>
        match env.readSnapshot options.maxSnapshotBytes with
        | none => ([],some { known.summary with snapshotUnavailable := true })
        | some snapshot =>
          let scan := scanLines inet env ownedMask options known.selectors localAddresses 0 (Fields.lines (· == '\n') snapshot.content)
            { summary := { known.summary with snapshotTruncated := snapshot.truncated } }
          deleteFlows env scan.flows [] scan.summary

end Flows

end KeenPbr.Conntrack

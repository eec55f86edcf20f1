import KeenPbr.Config
import KeenPbr.RouteTypes

/-! routing/raw_rtnetlink_codec.cpp: the walk over the attributes of a message, the decoders of a route
and of a rule, and the parser of one received block. memcpy reads a scalar in the machine's own byte
order; the two orders and the number of ENOBUFS belong to the platform. -/
namespace KeenPbr.Rtnetlink

inductive ByteOrder where
  | little
  | big
  deriving DecidableEq, Repr

structure Platform where
  order : ByteOrder
  enobufs : Int

namespace Platform
variable (platform : Platform)

def value (bytes : List UInt8) : Nat :=
  match platform.order with
  | .little => bytes.foldr (fun byte rest => byte.toNat + 256 * rest) 0
  | .big => bytes.foldl (fun front byte => 256 * front + byte.toNat) 0

def u16 (bytes : List UInt8) (offset : Nat) : UInt16 := .ofNat (platform.value ((bytes.drop offset).take 2))

def u32 (bytes : List UInt8) (offset : Nat) : UInt32 := .ofNat (platform.value ((bytes.drop offset).take 4))

def int (bytes : List UInt8) : Int := toInt32 (platform.value (bytes.take 4))

end Platform

def u8 (bytes : List UInt8) (offset : Nat) : UInt8 := bytes.getD offset 0

/- NLMSG_ALIGN clears the two low bits of a sum in 32 bits; RTA_ALIGN of a 16-bit length cannot overflow. -/
def nlmsgAlign (length : UInt32) : UInt32 := (length + 3) / 4 * 4

def rtaAlign (length : Nat) : Nat := (length + 3) / 4 * 4

def kNetlinkAttributeTypeMask : UInt16 := 0x3fff
def kRouteAttributePreference : UInt16 := 20
def kRuleAttributeSuppressIfgroup : UInt16 := 13
def kRuleAttributeSuppressPrefix : UInt16 := 14
def kRuleAttributeProtocol : UInt16 := 21
def kDumpInterruptedFlag : UInt16 := 0x10

def rtaDst : UInt16 := 1
def rtaOif : UInt16 := 4
def rtaGateway : UInt16 := 5
def rtaPriority : UInt16 := 6
def rtaMultipath : UInt16 := 9
def rtaCacheinfo : UInt16 := 12
def rtaTable : UInt16 := 15
def rtnUnicast : UInt8 := 1
def rtnBlackhole : UInt8 := 6
def rtnUnreachable : UInt8 := 7
def rtScopeUniverse : UInt8 := 0
def rtTableUnspec : UInt8 := 0
def sizeofRtaCacheinfo : Nat := 32
def fraPriority : UInt16 := 6
def fraFwmark : UInt16 := 10
def fraTable : UInt16 := 15
def fraFwmask : UInt16 := 16
def frActToTbl : UInt8 := 1
def rtprotUnspec : UInt8 := 0
def nlmsgNoop : UInt16 := 1
def nlmsgError : UInt16 := 2
def nlmsgDone : UInt16 := 3
def nlmsgOverrun : UInt16 := 4
def rtmNewroute : UInt16 := 24
def rtmNewrule : UInt16 := 32

structure AttributeView where
  type : UInt16
  hasTypeFlags : Bool
  payload : List UInt8
  deriving DecidableEq, Repr

section Walk
variable (platform : Platform) {σ : Type} (visitor : σ → AttributeView → Option σ)

def attributeView (rest : List UInt8) (length : Nat) : AttributeView where
  type := platform.u16 rest 2 &&& kNetlinkAttributeTypeMask
  hasTypeFlags := platform.u16 rest 2 &&& ~~~kNetlinkAttributeTypeMask != 0
  payload := (rest.drop 4).take (length - 4)

/- The loop on the bytes from its offset on; every round takes four bytes at least. -/
def visitFrom : Nat → List UInt8 → σ → Option σ
  | 0, rest, state => if rest.isEmpty then some state else none
  | rounds + 1, rest, state =>
    if rest.isEmpty then some state
    else if rest.length < 4 then none
    else
      let length := (platform.u16 rest 0).toNat
      if length < 4 || rest.length < length then none
      else
        match visitor state (attributeView platform rest length) with
        | none => none
        | some next =>
          if rest.length < rtaAlign length then
            -- The final attribute may omit its alignment bytes.
            if length = rest.length then visitFrom rounds [] next else none
          else visitFrom rounds (rest.drop (rtaAlign length)) next

def visitAttributes (bytes : List UInt8) (state : σ) : Option σ := visitFrom platform visitor bytes.length bytes state

def readU8 (view : AttributeView) : Option UInt8 :=
  if view.payload.length = 1 then some (u8 view.payload 0) else none

def readU32 (view : AttributeView) : Option UInt32 :=
  if view.payload.length = 4 then some (platform.u32 view.payload 0) else none

end Walk

structure RawRtnetlinkInterfaceName where
  index : UInt32
  name : Option String
  deriving DecidableEq, Repr

/- A null table of interface names holds no name. -/
structure RawRtnetlinkDumpOptions where
  sequence : UInt32 := 0
  portId : UInt32 := 0
  interfaceNames : List RawRtnetlinkInterfaceName := []
  deriving DecidableEq, Repr

def addressString (inet : Inet) (family : Int) (view : AttributeView) : Option String :=
  if family = afInet then if view.payload.length = 4 then inet.ntop afInet view.payload else none
  else if family = afInet6 then if view.payload.length = 16 then inet.ntop afInet6 view.payload else none
  else none

def considerName (index : UInt32) (found : Option String × Bool) (candidate : RawRtnetlinkInterfaceName) : Option String × Bool :=
  if candidate.index ≠ index then found
  else
    match candidate.name with
    | none => (found.1,false)
    | some name => if name.isEmpty || found.1.isSome then (found.1,false) else (some name,found.2)

def interfaceName (index : UInt32) (options : RawRtnetlinkDumpOptions) : Option String × Bool :=
  if index = 0 then (none,false)
  else
    let found := options.interfaceNames.foldl (considerName index) (none,true)
    (found.1,found.2 && found.1.isSome)

section Routes
variable (platform : Platform) (inet : Inet) (options : RawRtnetlinkDumpOptions)

structure Rtmsg where
  family : UInt8
  dstLen : UInt8
  srcLen : UInt8
  tos : UInt8
  table : UInt8
  protocol : UInt8
  scope : UInt8
  type : UInt8
  flags : UInt32
  deriving DecidableEq, Repr

def rtmsg (payload : List UInt8) : Rtmsg :=
  ⟨u8 payload 0,u8 payload 1,u8 payload 2,u8 payload 3,u8 payload 4,u8 payload 5,u8 payload 6,u8 payload 7,platform.u32 payload 8⟩

def Rtmsg.addressFamily (message : Rtmsg) : Int := message.family.toNat

def Rtmsg.inetFamily (message : Rtmsg) : Bool := message.addressFamily == afInet || message.addressFamily == afInet6

def Rtmsg.blackhole (message : Rtmsg) : Bool := message.type == rtnBlackhole

def Rtmsg.unreachable (message : Rtmsg) : Bool := message.type == rtnUnreachable

structure RouteWalk where
  output : DumpedRoute
  sawDestination : Bool := false
  sawTable : Bool := false
  sawInterface : Bool := false
  sawGateway : Bool := false
  sawMetric : Bool := false
  sawMultipath : Bool := false
  sawCacheInfo : Bool := false
  sawPreference : Bool := false
  tableAttribute : UInt32 := 0

/- exact_identity_representable = false, where the condition holds. -/
def RouteWalk.inexactIf (walk : RouteWalk) (condition : Bool) : RouteWalk :=
  { walk with output := { walk.output with exactIdentityRepresentable := walk.output.exactIdentityRepresentable && !condition } }

def RouteWalk.start (message : Rtmsg) : RouteWalk where
  output :=
    { destination := if message.dstLen = 0 then "default" else ""
      table := message.table.toUInt32
      blackhole := message.blackhole
      unreachable := message.unreachable
      family := message.addressFamily
      protocol := message.protocol
      exactIdentityRepresentable :=
        message.inetFamily && (message.type == rtnUnicast || message.blackhole || message.unreachable) &&
          message.srcLen == 0 && message.tos == 0 && message.scope == rtScopeUniverse && message.flags == 0 }

def routeVisitor (message : Rtmsg) (before : RouteWalk) (view : AttributeView) : Option RouteWalk :=
  let walk := before.inexactIf view.hasTypeFlags
  if view.type = rtaDst then
    (addressString inet message.addressFamily view).map fun address =>
      let seen := walk.inexactIf walk.sawDestination
      { seen with
        sawDestination := true
        output := { seen.output with
          destination := if message.dstLen = 0 then "default" else address ++ "/" ++ toString message.dstLen.toNat } }
  else if view.type = rtaTable then
    (readU32 platform view).map fun value =>
      { walk.inexactIf walk.sawTable with sawTable := true, tableAttribute := value }
  else if view.type = rtaOif then
    (readU32 platform view).map fun value =>
      let seen := walk.inexactIf walk.sawInterface
      let named := interfaceName value options
      { seen with sawInterface := true, output := { seen.output with interface := named.1 } }.inexactIf (!named.2)
  else if view.type = rtaGateway then
    (addressString inet message.addressFamily view).map fun gateway =>
      let seen := walk.inexactIf walk.sawGateway
      { seen with sawGateway := true, output := { seen.output with gateway := some gateway } }
  else if view.type = rtaPriority then
    (readU32 platform view).map fun value =>
      let seen := walk.inexactIf walk.sawMetric
      { seen with sawMetric := true, output := { seen.output with metric := value } }
  else if view.type = rtaMultipath then some ({ walk with sawMultipath := true }.inexactIf true)
  else if view.type = rtaCacheinfo then
    some { walk.inexactIf (walk.sawCacheInfo || view.payload.length != sizeofRtaCacheinfo) with sawCacheInfo := true }
  else if view.type = kRouteAttributePreference then
    (readU8 view).map fun preference =>
      { walk.inexactIf (walk.sawPreference || preference != 0) with sawPreference := true }
  else some (walk.inexactIf true)

def RouteWalk.finish (message : Rtmsg) (walk : RouteWalk) : DumpedRoute :=
  let tabled :=
    if walk.sawTable then
      let checked := walk.inexactIf (message.table != rtTableUnspec && message.table.toUInt32 != walk.tableAttribute)
      { checked with output := { checked.output with table := walk.tableAttribute } }
    else walk.inexactIf (message.table == rtTableUnspec)
  let placed := (tabled.inexactIf (message.dstLen != 0 && !walk.sawDestination)).inexactIf
    (message.type == rtnUnicast && (walk.sawMultipath || (!walk.sawInterface && !walk.sawGateway)))
  if walk.output.blackhole || walk.output.unreachable then
    -- Linux attaches its loopback device to an IPv6 reject route.
    let kernelLoopback := message.addressFamily == afInet6 && placed.output.interface == some "lo" && !walk.sawGateway && !walk.sawMultipath
    let lone := if kernelLoopback then { placed with output := { placed.output with interface := none } } else placed
    (lone.inexactIf ((walk.sawInterface && !kernelLoopback) || walk.sawGateway || walk.sawMultipath)).output
  else placed.output

def decodeRoute (payload : List UInt8) : Option DumpedRoute :=
  if payload.length < 12 then none
  else
    let message := rtmsg platform payload
    if (message.addressFamily == afInet && message.dstLen > 32) || (message.addressFamily == afInet6 && message.dstLen > 128) then none
    else (visitAttributes platform (routeVisitor platform inet options message) (payload.drop 12) (RouteWalk.start message)).map
      (RouteWalk.finish message)

end Routes

section Rules
variable (platform : Platform)

structure FibRuleHdr where
  family : UInt8
  dstLen : UInt8
  srcLen : UInt8
  tos : UInt8
  table : UInt8
  res1 : UInt8
  res2 : UInt8
  action : UInt8
  flags : UInt32
  deriving DecidableEq, Repr

def fibRuleHdr (payload : List UInt8) : FibRuleHdr :=
  ⟨u8 payload 0,u8 payload 1,u8 payload 2,u8 payload 3,u8 payload 4,u8 payload 5,u8 payload 6,u8 payload 7,platform.u32 payload 8⟩

def FibRuleHdr.addressFamily (message : FibRuleHdr) : Int := message.family.toNat

structure RuleWalk where
  output : DumpedRule
  sawPriority : Bool := false
  sawMark : Bool := false
  sawMask : Bool := false
  sawTable : Bool := false
  sawSuppressIfgroup : Bool := false
  sawSuppressPrefix : Bool := false
  sawProtocol : Bool := false
  tableAttribute : UInt32 := 0

def RuleWalk.inexactIf (walk : RuleWalk) (condition : Bool) : RuleWalk :=
  { walk with output := { walk.output with exactIdentityRepresentable := walk.output.exactIdentityRepresentable && !condition } }

def RuleWalk.start (message : FibRuleHdr) : RuleWalk where
  output :=
    { family := message.addressFamily
      table := message.table.toUInt32
      exactIdentityRepresentable :=
        (message.addressFamily == afInet || message.addressFamily == afInet6) && message.dstLen == 0 && message.srcLen == 0 &&
          message.tos == 0 && message.res1 == 0 && message.res2 == 0 && message.action == frActToTbl && message.flags == 0 }

def ruleVisitor (before : RuleWalk) (view : AttributeView) : Option RuleWalk :=
  let walk := before.inexactIf view.hasTypeFlags
  if view.type = fraPriority then
    (readU32 platform view).map fun value =>
      let seen := walk.inexactIf walk.sawPriority
      { seen with sawPriority := true, output := { seen.output with priority := value } }
  else if view.type = fraFwmark then
    (readU32 platform view).map fun value =>
      let seen := walk.inexactIf walk.sawMark
      { seen with sawMark := true, output := { seen.output with fwmark := value } }
  else if view.type = fraFwmask then
    (readU32 platform view).map fun value =>
      let seen := walk.inexactIf walk.sawMask
      { seen with sawMask := true, output := { seen.output with fwmask := value } }
  else if view.type = fraTable then
    (readU32 platform view).map fun value =>
      { walk.inexactIf walk.sawTable with sawTable := true, tableAttribute := value }
  else if view.type = kRuleAttributeSuppressIfgroup then
    (readU32 platform view).map fun value =>
      { walk.inexactIf (walk.sawSuppressIfgroup || value != 0xFFFFFFFF) with sawSuppressIfgroup := true }
  else if view.type = kRuleAttributeSuppressPrefix then
    (readU32 platform view).map fun value =>
      { walk.inexactIf (walk.sawSuppressPrefix || value != 0xFFFFFFFF) with sawSuppressPrefix := true }
  else if view.type = kRuleAttributeProtocol then
    (readU8 view).map fun value =>
      { walk.inexactIf (walk.sawProtocol || value != rtprotUnspec) with sawProtocol := true }
  else some (walk.inexactIf true)

def RuleWalk.finish (message : FibRuleHdr) (walk : RuleWalk) : DumpedRule :=
  let tabled :=
    if walk.sawTable then
      let checked := walk.inexactIf (message.table != rtTableUnspec && message.table.toUInt32 != walk.tableAttribute)
      { checked with output := { checked.output with table := walk.tableAttribute } }
    else walk.inexactIf (message.table == rtTableUnspec)
  -- With a mark but no mask Linux uses an all-ones mask.
  if walk.sawMask then tabled.output else { tabled.output with fwmask := if walk.sawMark then 0xFFFFFFFF else 0 }

def decodeRule (payload : List UInt8) : Option DumpedRule :=
  if payload.length < 12 then none
  else
    let message := fibRuleHdr platform payload
    (visitAttributes platform (ruleVisitor platform) (payload.drop 12) (RuleWalk.start message)).map (RuleWalk.finish message)

end Rules

section Blocks

inductive RawRtnetlinkDumpState where
  | more
  | done
  | kernelError
  | malformed
  | sequenceMismatch
  | portIdMismatch
  | unexpectedMessage
  | dumpInterrupted
  deriving DecidableEq, Repr

structure DumpBlock (α : Type) where
  state : RawRtnetlinkDumpState := .malformed
  kernelError : Int := 0
  items : List α := []
  deriving DecidableEq, Repr

/- What one round of the loop comes to: a return with nothing, the return at NLMSG_DONE, or the bytes to
pass over and the object of the message, if it has one. -/
inductive Reading (α : Type) where
  | fails (state : RawRtnetlinkDumpState) (kernelError : Int)
  | done
  | goes (length : Nat) (item : Option α)
  deriving DecidableEq, Repr

variable (platform : Platform) (options : RawRtnetlinkDumpOptions) {α : Type} (expectedType : UInt16)
  (decode : List UInt8 → Option (Option α))

def nextOffset (length : UInt32) (remaining : Nat) : Option Nat :=
  if (nlmsgAlign length).toNat ≤ remaining then some (nlmsgAlign length).toNat
  else if length.toNat = remaining then some remaining
  else none

def readPayload (type : UInt16) (payload : List UInt8) (next remaining : Nat) : Reading α :=
  if type = nlmsgError then
    if payload.length < 20 then .fails .malformed 0
    else if platform.int payload ≠ 0 then .fails .kernelError (platform.int payload)
    else .goes next none
  else if type = nlmsgDone then
    if payload.length ≠ 0 ∧ payload.length ≠ 4 then .fails .malformed 0
    else if payload.length = 4 ∧ platform.int payload ≠ 0 then .fails .kernelError (platform.int payload)
    else if next ≠ remaining then .fails .malformed 0
    else .done
  else if type = nlmsgOverrun then .fails .kernelError (-platform.enobufs)
  else if type = nlmsgNoop then .goes next none
  else if type ≠ expectedType then .fails .unexpectedMessage 0
  else
    match decode payload with
    | none => .fails .malformed 0
    | some item => .goes next item

def readMessage (rest : List UInt8) : Reading α :=
  if rest.length < 16 then .fails .malformed 0
  else
    let length := platform.u32 rest 0
    if length.toNat < 16 ∨ rest.length < length.toNat then .fails .malformed 0
    else if platform.u32 rest 8 ≠ options.sequence then .fails .sequenceMismatch 0
    else if platform.u32 rest 12 ≠ options.portId then .fails .portIdMismatch 0
    else if platform.u16 rest 6 &&& kDumpInterruptedFlag ≠ 0 then .fails .dumpInterrupted 0
    else
      match nextOffset length rest.length with
      | none => .fails .malformed 0
      | some next =>
        readPayload platform expectedType decode (platform.u16 rest 4) ((rest.drop 16).take (length.toNat - 16)) next rest.length

/- The while loop; nothing is returned when the rounds run out. -/
def parseFrom : Nat → List UInt8 → List α → Option (DumpBlock α)
  | 0, _, _ => none
  | rounds + 1, rest, items =>
    if rest.isEmpty then some ⟨.more,0,items⟩
    else
      match readMessage platform options expectedType decode rest with
      | .fails state kernelError => some ⟨state,kernelError,[]⟩
      | .done => some ⟨.done,0,items⟩
      | .goes length item => parseFrom rounds (rest.drop length) (items ++ item.toList)

def parseDumpBlock (rounds : Nat) (bytes : List UInt8) : Option (DumpBlock α) :=
  if bytes.length < 16 then some ⟨.malformed,0,[]⟩ else parseFrom platform options expectedType decode rounds bytes []

end Blocks

section Entries
variable (platform : Platform) (inet : Inet) (options : RawRtnetlinkDumpOptions) (rounds : Nat) (bytes : List UInt8)

def decodeDumpedRoute (payload : List UInt8) : Option (Option DumpedRoute) :=
  if payload.length < 12 then none
  else if !(rtmsg platform payload).inetFamily then
    (visitAttributes platform (fun (_ : Unit) _ => some ()) (payload.drop 12) ()).map fun _ => none
  else (decodeRoute platform inet options payload).map some

def parseRawRtnetlinkRouteDumpBlock : Option (DumpBlock DumpedRoute) :=
  parseDumpBlock platform options rtmNewroute (decodeDumpedRoute platform inet options) rounds bytes

def parseRawRtnetlinkRuleDumpBlock : Option (DumpBlock DumpedRule) :=
  parseDumpBlock platform options rtmNewrule (fun payload => (decodeRule platform payload).map some) rounds bytes

end Entries

end KeenPbr.Rtnetlink

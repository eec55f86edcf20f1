import KeenPbr.Fields
import KeenPbr.ConfigAccepted

/-! The port and address texts of a route rule, read twice: validate_port_spec and
validate_address_spec of config.cpp, and build_firewall_rule_criteria with port_spec_util.cpp and
addr_spec.hpp. A reader here keeps the ranges it reads; the validator is its error side. -/
namespace KeenPbr
open Fields

inductive L4Proto where
  | any
  | tcp
  | udp
  | tcpUdp
  deriving DecidableEq, Repr

structure PortRange where
  fromPort : UInt16 := 0
  toPort : UInt16 := 0
  deriving DecidableEq, Repr

structure PortSpec where
  ranges : List PortRange := []
  deriving DecidableEq, Repr

structure FirewallRuleCriteria where
  dstSetName : Option String := none
  srcUdpPeerSetName : Option String := none
  dscp : Option UInt8 := none
  proto : L4Proto := .any
  persistConntrackMark : Bool := true
  srcPort : PortSpec := {}
  dstPort : PortSpec := {}
  srcAddr : List Text := []
  dstAddr : List Text := []
  negateSrcPort : Bool := false
  negateDstPort : Bool := false
  negateSrcAddr : Bool := false
  negateDstAddr : Bool := false
  family : Int := 0
  deriving DecidableEq, Repr

def comma (c : Char) : Bool := c == ','

def runningValue : Nat → Text → Option Nat
  | value, [] => some value
  | value, c :: rest =>
    if !c.isDigit then none
    else
      let next := value * 10 + (c.toNat - '0'.toNat)
      if next > 2147483647 then none else runningValue next rest

def parseUintInRange (raw : Text) (minValue maxValue : Nat) : Option Nat :=
  if raw.isEmpty then none
  else
    match runningValue 0 raw with
    | none => none
    | some value => if value < minValue || value > maxValue then none else some value

/- parse_port_value spells parse_uint_in_range out again at these bounds. -/
def parsePortValue (token : Text) : Option Nat := parseUintInRange token 1 65535

def parsePortRangeToken (token : Text) (rangeSep : Char) : Option (Nat × Nat) :=
  match token.dropWhile (· != rangeSep) with
  | [] => (parsePortValue token).map fun port => (port,port)
  | _ :: last =>
    if last.contains rangeSep then none
    else
      match parsePortValue (token.takeWhile (· != rangeSep)),parsePortValue last with
      | some lo,some hi => if lo ≤ hi then some (lo,hi) else none
      | _,_ => none

/- The loop throws the same text for an empty token wherever it stands. -/
def splitPortSpecTokens (spec : Text) : Except String (List Text) :=
  if spec.isEmpty then .ok []
  else if (fields comma spec).any (·.isEmpty) then
    .error ("Invalid empty token in port spec '" ++ String.ofList spec ++ "'")
  else .ok (fields comma spec)

def rangeBefore (lhs rhs : PortRange) : Prop := lhs.fromPort < rhs.fromPort ∨ lhs.fromPort = rhs.fromPort ∧ lhs.toPort ≤ rhs.toPort

instance : DecidableRel rangeBefore := fun lhs rhs =>
  inferInstanceAs (Decidable (lhs.fromPort < rhs.fromPort ∨ lhs.fromPort = rhs.fromPort ∧ lhs.toPort ≤ rhs.toPort))

/- Ranges that compare equal are equal, so that std::sort may be any sort. -/
def normalizeRanges (ranges : List PortRange) : List PortRange := ranges.insertionSort rangeBefore

def portRange (bounds : Nat × Nat) : PortRange := { fromPort := UInt16.ofNat bounds.1, toPort := UInt16.ofNat bounds.2 }

def parsePortTokens (input : Text) : List Text → Except String (List PortRange)
  | [] => .ok []
  | token :: rest =>
    match (parsePortRangeToken token '-').or (parsePortRangeToken token ':') with
    | none => .error ("Invalid port token '" ++ String.ofList token ++ "' in port spec '" ++ String.ofList input ++ "'")
    | some bounds =>
      match parsePortTokens input rest with
      | .error message => .error message
      | .ok ranges => .ok (portRange bounds :: ranges)

def parsePortSpec (specView : Text) : Except String PortSpec :=
  if specView.isEmpty then .ok {}
  else
    match splitPortSpecTokens specView with
    | .error message => .error message
    | .ok tokens =>
      match parsePortTokens specView tokens with
      | .error message => .error message
      | .ok ranges => .ok { ranges := normalizeRanges ranges }

/- std::from_chars over an int: a minus sign, at least one digit, the value in range and nothing
after it. -/
def fromCharsInt (text : Text) : Option Int :=
  match text with
  | '-' :: digits => if digits.isEmpty || !digits.all (·.isDigit) || digitsNumber digits > 2147483648 then none
    else some (-digitsNumber digits)
  | digits => if digits.isEmpty || !digits.all (·.isDigit) || digitsNumber digits > 2147483647 then none else some (digitsNumber digits)
where
  digitsNumber (digits : Text) : Int := digits.foldl (fun value c => value * 10 + (c.toNat - '0'.toNat : Nat)) 0

/- c_str() ends at the first zero character. -/
def cString (text : Text) : String := String.ofList (text.takeWhile (· != '\x00'))

section Cidr
variable (inet : Inet)

def validateCidr (cidr : Text) : Except String Unit :=
  let ipPart := cidr.takeWhile (· != '/')
  let isV4 := (inet.pton afInet (cString ipPart)).isSome
  let isV6 := !isV4 && (inet.pton afInet6 (cString ipPart)).isSome
  if !isV4 && !isV6 then .error ("Invalid IP address in CIDR spec: '" ++ String.ofList cidr ++ "'")
  else
    match cidr.dropWhile (· != '/') with
    | [] => .ok ()
    | _ :: prefixStr =>
      match fromCharsInt prefixStr with
      | none => .error ("Invalid prefix length in CIDR spec: '" ++ String.ofList cidr ++ "'")
      | some length =>
        if length < 0 || length > (if isV4 then 32 else 128) then
          .error ("Prefix length out of range in CIDR spec: '" ++ String.ofList cidr ++ "'")
        else .ok ()

structure AddrSpec where
  addrs : List Text := []
  negate : Bool := false
  deriving DecidableEq, Repr

def addrBlank (c : Char) : Bool := c == ' ' || c == '\t'

def parseAddrTokens : List Text → Except String (List Text)
  | [] => .ok []
  | token :: rest =>
    if (strip addrBlank token).isEmpty then parseAddrTokens rest
    else
      match validateCidr inet (strip addrBlank token) with
      | .error message => .error message
      | .ok () =>
        match parseAddrTokens rest with
        | .error message => .error message
        | .ok addrs => .ok (strip addrBlank token :: addrs)

def stripNeg : Text → Text × Bool
  | '!' :: body => (body,true)
  | text => (text,false)

def parseAddrSpec (spec : Text) : Except String AddrSpec :=
  if spec.isEmpty then .ok {}
  else
    match parseAddrTokens inet (lines comma (stripNeg spec).1) with
    | .error message => .error message
    | .ok addrs => .ok { addrs, negate := (stripNeg spec).2 }

end Cidr

def parseRuleProto (proto : Option String) : Except String L4Proto :=
  match proto with
  | none => .ok .any
  | some text =>
    if text.isEmpty then .ok .any
    else if text == "tcp" then .ok .tcp
    else if text == "udp" then .ok .udp
    else if text == "tcp/udp" then .ok .tcpUdp
    else .error ("Unsupported route rule protocol: " ++ text)

def textOr (value : Option String) : Text := (value.getD "").toList

def buildFirewallRuleCriteria (inet : Inet) (rule : RouteRule) : Except String FirewallRuleCriteria := do
  let proto ← parseRuleProto rule.proto
  let srcPort ← parsePortSpec (stripNeg (textOr rule.srcPort)).1
  let dstPort ← parsePortSpec (stripNeg (textOr rule.destPort)).1
  let srcSpec ← parseAddrSpec inet (textOr rule.srcAddr)
  let dstSpec ← parseAddrSpec inet (textOr rule.destAddr)
  .ok {
    proto
    dscp := rule.dscp.map fun dscp => UInt8.ofNat (dscp % 256).toNat
    srcPort
    negateSrcPort := (stripNeg (textOr rule.srcPort)).2
    dstPort
    negateDstPort := (stripNeg (textOr rule.destPort)).2
    srcAddr := srcSpec.addrs
    negateSrcAddr := srcSpec.negate
    dstAddr := dstSpec.addrs
    negateDstAddr := dstSpec.negate }

structure RuleSpecValidationError where
  message : String
  code : String
  deriving DecidableEq, Repr

def portListError : RuleSpecValidationError := ⟨"Use comma-separated ports or ranges.","config.port.list"⟩

def portRangeError : RuleSpecValidationError := ⟨"Port ranges must use valid ports such as 8000-9000.","config.port.range"⟩

def readPortToken (token : Text) : Except RuleSpecValidationError (Nat × Nat) :=
  let part := trimText token
  if part.isEmpty then .error portListError
  else
    match part.dropWhile (· != '-') with
    | [] =>
      match parseUintInRange part 1 65535 with
      | none => .error ⟨"Ports must be integers between 1 and 65535.","config.port.number"⟩
      | some port => .ok (port,port)
    | _ :: last =>
      if last.contains '-' then .error portRangeError
      else
        match parseUintInRange (trimText (part.takeWhile (· != '-'))) 1 65535,parseUintInRange (trimText last) 1 65535 with
        | some start,some stop =>
          if start > stop then .error ⟨"Port range start must be less than or equal to end.","config.port.range_order"⟩
          else .ok (start,stop)
        | _,_ => .error portRangeError

def readPortTokens : List Text → Except RuleSpecValidationError (List (Nat × Nat))
  | [] => .ok []
  | token :: rest =>
    match readPortToken token with
    | .error issue => .error issue
    | .ok bounds =>
      match readPortTokens rest with
      | .error issue => .error issue
      | .ok ranges => .ok (bounds :: ranges)

structure PortReading where
  negate : Bool := false
  ranges : List (Nat × Nat) := []
  deriving DecidableEq, Repr

def readPortSpec (value : Option String) : Except RuleSpecValidationError PortReading :=
  match value with
  | none => .ok {}
  | some value =>
    let normalized := trimText value.toList
    if normalized.isEmpty then .ok {}
    else
      let content := (stripNeg normalized).1
      if content.isEmpty || content.head? == some ',' || content.getLast? == some ',' then .error portListError
      else
        match readPortTokens (lines comma content) with
        | .error issue => .error issue
        | .ok ranges => .ok { negate := (stripNeg normalized).2, ranges }

def readAddressSpec (inet : Inet) (value : Option String) : Except RuleSpecValidationError AddrSpec :=
  match value with
  | none => .ok {}
  | some value =>
    let normalized := trimText value.toList
    if normalized.isEmpty then .ok {}
    else
      let content := (stripNeg normalized).1
      if content.isEmpty || content.head? == some ',' || content.getLast? == some ',' then
        .error ⟨"Use comma-separated IP addresses or CIDRs.","config.address.list"⟩
      else
        match parseAddrSpec inet normalized with
        | .error _ => .error ⟨"Addresses must be valid IPv4 or IPv6 hosts or CIDR ranges, for example 10.0.0.1, 10.0.0.0/8, or 2001:db8::/32.",
            "config.address.invalid"⟩
        | .ok spec => .ok spec

def issueOf {β : Type} : Except RuleSpecValidationError β → Option RuleSpecValidationError
  | .ok _ => none
  | .error issue => some issue

def RuleSpec.validatePortSpec (value : Option String) : Option RuleSpecValidationError := issueOf (readPortSpec value)

def RuleSpec.validateAddressSpec (inet : Inet) (value : Option String) : Option RuleSpecValidationError :=
  issueOf (readAddressSpec inet value)

section Ports

theorem runningDigits {value result : Nat} {raw : Text} (parsed : runningValue value raw = some result) :
    ∀ c ∈ raw, c.isDigit = true := by
  induction raw generalizing value with
  | nil => nofun
  | cons d rest ih =>
    rw [runningValue] at parsed
    split at parsed
    · cases parsed
    · rename_i digit
      simp only [Bool.not_eq_true,Bool.not_eq_false'] at digit
      dsimp only at parsed
      split at parsed
      · cases parsed
      · intro c mem
        cases List.mem_cons.mp mem with
        | inl same => rw [same,digit]
        | inr later => exact ih parsed c later

theorem parsedPort {token : Text} {port : Nat} (parsed : parsePortValue token = some port) :
    (∀ c ∈ token, c.isDigit = true) ∧ 1 ≤ port ∧ port ≤ 65535 := by
  unfold parsePortValue parseUintInRange at parsed
  split at parsed
  · cases parsed
  · split at parsed
    · cases parsed
    · rename_i value running
      split at parsed
      · cases parsed
      · rename_i inRange
        cases parsed
        simp only [Bool.or_eq_true,decide_eq_true_eq,not_or] at inRange
        exact ⟨runningDigits running,by omega,by omega⟩

theorem parsedRange {token : Text} {rangeSep : Char} {bounds : Nat × Nat}
    (parsed : parsePortRangeToken token rangeSep = some bounds) :
    (∀ c ∈ token, c.isDigit = true ∨ c = rangeSep) ∧ bounds.1 ≤ 65535 ∧ bounds.2 ≤ 65535 := by
  unfold parsePortRangeToken at parsed
  split at parsed
  · obtain ⟨port,single,rfl⟩ := Option.map_eq_some_iff.mp parsed
    obtain ⟨digits,_,high⟩ := parsedPort single
    exact ⟨fun c mem => Or.inl (digits c mem),high,high⟩
  · rename_i sep last dropped
    split at parsed
    · cases parsed
    · split at parsed
      · rename_i lo hi first second
        split at parsed
        · cases parsed
          obtain ⟨before,_,lowHigh⟩ := parsedPort first
          obtain ⟨after,_,highHigh⟩ := parsedPort second
          refine ⟨fun c mem => ?_,lowHigh,highHigh⟩
          rw [(cutTail dropped).2,List.mem_append] at mem
          cases mem with
          | inl front => exact Or.inl (before c front)
          | inr back =>
            cases List.mem_cons.mp back with
            | inr later => exact Or.inl (after c later)
            | inl same => exact Or.inr same
        · cases parsed
      · cases parsed

theorem parsedTokens {input : Text} {tokens : List Text} {ranges : List PortRange}
    (parsed : parsePortTokens input tokens = .ok ranges) {token : Text} (listed : token ∈ tokens) :
    ∀ c ∈ token, c.isDigit = true ∨ c = '-' ∨ c = ':' := by
  induction tokens generalizing ranges with
  | nil => cases listed
  | cons first rest ih =>
    rw [parsePortTokens] at parsed
    split at parsed
    · cases parsed
    · rename_i bounds found
      split at parsed
      · cases parsed
      · rename_i later restParsed
        cases List.mem_cons.mp listed with
        | inr more => exact ih restParsed more
        | inl same =>
          subst same
          intro c mem
          cases Option.or_eq_some_iff.mp found with
          | inl dash => exact ((parsedRange dash).1 c mem).imp_right Or.inl
          | inr colon => exact ((parsedRange colon.2).1 c mem).imp_right Or.inr

theorem digitSolid {c : Char} (digit : c.isDigit = true) : trimmed c = false := by
  cases blank : trimmed c with
  | false => rfl
  | true =>
    simp only [trimmed,Bool.or_eq_true,beq_iff_eq] at blank
    obtain ((((same | same) | same) | same) | same) | same := blank <;> (subst same; exact absurd digit (by decide))

theorem parsedSolid {text : Text} {spec : PortSpec} (parsed : parsePortSpec text = .ok spec) :
    ∀ c ∈ text, trimmed c = false := by
  unfold parsePortSpec at parsed
  split at parsed
  · rename_i empty
    rw [List.isEmpty_iff.mp empty]
    nofun
  · unfold splitPortSpecTokens at parsed
    rename_i nonempty
    rw [if_neg nonempty] at parsed
    intro c mem
    cases memFields comma mem with
    | inl isComma =>
      rw [comma,beq_iff_eq] at isComma
      subst isComma
      decide
    | inr held =>
      obtain ⟨token,listed,inToken⟩ := held
      split at parsed
      · cases parsed
      · rename_i tokens split
        split at split
        · cases split
        · cases split
          split at parsed
          · cases parsed
          · rename_i ranges read
            obtain digit | rfl | rfl := parsedTokens read listed c inToken
            · exact digitSolid digit
            · decide
            · decide

theorem stripNegMem {text : Text} {c : Char} (mem : c ∈ text) : c = '!' ∨ c ∈ (stripNeg text).1 := by
  unfold stripNeg
  split
  · exact List.mem_cons.mp mem
  · exact Or.inr mem

theorem stripNegSubset {text : Text} {c : Char} (mem : c ∈ (stripNeg text).1) : c ∈ text := by
  unfold stripNeg at mem
  split at mem
  · exact List.mem_cons_of_mem _ mem
  · exact mem

theorem tokenAgrees {token : Text} {bounds : Nat × Nat} (solid : ∀ c ∈ token, trimmed c = false)
    (read : readPortToken token = .ok bounds) : token.isEmpty = false ∧ parsePortRangeToken token '-' = some bounds := by
  have front : trimText (token.takeWhile (· != '-')) = token.takeWhile (· != '-') :=
    trimTextSelf fun c mem => solid c (List.takeWhile_subset _ mem)
  unfold readPortToken at read
  unfold parsePortRangeToken
  simp only [trimTextSelf solid,front] at read
  split at read
  · cases read
  · rename_i nonempty
    refine ⟨by simpa using nonempty,?_⟩
    split at read
    · split at read
      · cases read
      · rename_i port value
        cases read
        simp [parsePortValue,value]
    · rename_i sep last dropped
      have back : trimText last = last :=
        trimTextSelf fun c mem => solid c (List.dropWhile_subset _ (dropped ▸ List.mem_cons_of_mem sep mem))
      rw [back] at read
      split at read
      · cases read
      · rename_i single
        split at read
        · rename_i start stop first second
          split at read
          · cases read
          · rename_i ordered
            cases read
            simp only [single,parsePortValue,first,second]
            rw [if_neg (by simp),if_pos (by omega)]
        · cases read

theorem tokensAgree (input : Text) {tokens : List Text} {ranges : List (Nat × Nat)}
    (solid : ∀ token ∈ tokens, ∀ c ∈ token, trimmed c = false) (read : readPortTokens tokens = .ok ranges) :
    (∀ token ∈ tokens, token.isEmpty = false) ∧ parsePortTokens input tokens = .ok (ranges.map portRange) ∧
      ∀ bounds ∈ ranges, bounds.1 ≤ 65535 ∧ bounds.2 ≤ 65535 := by
  induction tokens generalizing ranges with
  | nil =>
    cases read
    exact ⟨nofun,rfl,nofun⟩
  | cons first rest ih =>
    rw [readPortTokens] at read
    split at read
    · cases read
    · rename_i bounds own
      split at read
      · cases read
      · rename_i later restRead
        cases read
        obtain ⟨kept,parsed,small⟩ := ih (fun token mem => solid token (List.mem_cons_of_mem first mem)) restRead
        obtain ⟨nonempty,same⟩ := tokenAgrees (solid first List.mem_cons_self) own
        refine ⟨?_,?_,?_⟩
        · intro token mem
          cases List.mem_cons.mp mem with
          | inl here => rw [here,nonempty]
          | inr more => exact kept token more
        · rw [parsePortTokens,same,Option.some_or,parsed]
          rfl
        · intro other mem
          cases List.mem_cons.mp mem with
          | inl here => exact here ▸ (parsedRange same).2
          | inr more => exact small other more

def PortSpec.ports (spec : PortSpec) : Set Nat :=
  {port | ∃ range ∈ spec.ranges, range.fromPort.toNat ≤ port ∧ port ≤ range.toPort.toNat}

def PortReading.ports (reading : PortReading) : Set Nat :=
  {port | ∃ bounds ∈ reading.ranges, bounds.1 ≤ port ∧ port ≤ bounds.2}

theorem normalizedPorts {ranges : List (Nat × Nat)} (small : ∀ bounds ∈ ranges, bounds.1 ≤ 65535 ∧ bounds.2 ≤ 65535)
    (negate : Bool) :
    ({ ranges := normalizeRanges (ranges.map portRange) } : PortSpec).ports = ({ negate, ranges } : PortReading).ports := by
  have bound : ∀ bounds ∈ ranges, (portRange bounds).fromPort.toNat = bounds.1 ∧ (portRange bounds).toPort.toNat = bounds.2 := by
    intro bounds mem
    obtain ⟨low,high⟩ := small bounds mem
    refine ⟨?_,?_⟩
    · rw [portRange,UInt16.toNat_ofNat']
      omega
    · rw [portRange,UInt16.toNat_ofNat']
      omega
  ext port
  simp only [PortSpec.ports,PortReading.ports,Set.mem_ofPred_eq,normalizeRanges,List.mem_insertionSort]
  constructor
  · rintro ⟨range,mem,low,high⟩
    obtain ⟨bounds,listed,rfl⟩ := List.mem_map.mp mem
    obtain ⟨fromEq,toEq⟩ := bound bounds listed
    exact ⟨bounds,listed,fromEq ▸ low,toEq ▸ high⟩
  · rintro ⟨bounds,listed,low,high⟩
    obtain ⟨fromEq,toEq⟩ := bound bounds listed
    exact ⟨portRange bounds,List.mem_map_of_mem listed,fromEq.symm ▸ low,toEq.symm ▸ high⟩

theorem linesWhole {content : Text} (nonempty : content.isEmpty = false) (ending : content.getLast? ≠ some ',') :
    lines comma content = fields comma content := by
  obtain ⟨c,last⟩ : ∃ c, content.getLast? = some c := by
    cases whole : content.getLast? with
    | none =>
      rw [List.getLast?_eq_none_iff.mp whole] at nonempty
      cases nonempty
    | some c => exact ⟨c,rfl⟩
  have apart : comma c = false := by
    rw [comma,beq_eq_false_iff_ne]
    intro same
    exact ending (same ▸ last)
  obtain ⟨before,field,cut,held⟩ := lastField last apart
  rw [lines,cut,List.getLast?_concat]
  cases field with
  | nil => cases held
  | cons d rest => rfl

theorem portAgrees {value : Option String} {reading : PortReading} (read : readPortSpec value = .ok reading)
    (solid : ∀ c ∈ textOr value, trimmed c = false) :
    ∃ spec, parsePortSpec (stripNeg (textOr value)).1 = .ok spec ∧ spec.ports = reading.ports ∧
      (stripNeg (textOr value)).2 = reading.negate := by
  unfold readPortSpec at read
  split at read
  · cases read
    refine ⟨{},rfl,?_,rfl⟩
    ext port
    simp [PortSpec.ports,PortReading.ports]
  · rename_i text
    simp only [textOr,Option.getD_some] at solid ⊢
    simp only [trimTextSelf solid] at read
    split at read
    · rename_i empty
      cases read
      rw [List.isEmpty_iff.mp empty]
      refine ⟨{},rfl,?_,rfl⟩
      ext port
      simp [PortSpec.ports,PortReading.ports]
    · split at read
      · cases read
      · rename_i shape
        simp only [Bool.or_eq_true,beq_iff_eq,not_or,Bool.not_eq_true] at shape
        obtain ⟨⟨nonempty,_⟩,ending⟩ := shape
        rw [linesWhole nonempty ending] at read
        split at read
        · cases read
        · rename_i ranges tokens
          cases read
          have clean : ∀ token ∈ fields comma (stripNeg text.toList).1, ∀ c ∈ token, trimmed c = false := by
            intro token listed c mem
            have inside := (fieldsMem comma listed mem).1
            exact solid c (stripNegSubset inside)
          obtain ⟨kept,parsed,small⟩ := tokensAgree (stripNeg text.toList).1 clean tokens
          refine ⟨{ ranges := normalizeRanges (ranges.map portRange) },?_,normalizedPorts small _,rfl⟩
          have full : ((fields comma (stripNeg text.toList).1).any (·.isEmpty)) = false := by
            rw [List.any_eq_false]
            intro token listed
            rw [kept token listed]
            exact Bool.false_ne_true
          rw [parsePortSpec,splitPortSpecTokens,nonempty,full]
          simp [parsed]

end Ports

section Addresses
variable {inet : Inet}

theorem parsedAddrTokens {tokens addrs : List Text} : parseAddrTokens inet tokens = .ok addrs ↔
    addrs = (tokens.map (strip addrBlank)).filter (fun token => !token.isEmpty) ∧
      ∀ addr ∈ addrs, validateCidr inet addr = .ok () := by
  induction tokens generalizing addrs with
  | nil =>
    constructor
    · intro parsed
      cases parsed
      exact ⟨rfl,nofun⟩
    · rintro ⟨rfl,_⟩
      rfl
  | cons token rest ih =>
    rw [parseAddrTokens,List.map_cons]
    cases blank : (strip addrBlank token).isEmpty with
    | true =>
      rw [if_pos rfl,ih,List.filter_cons_of_neg (by simp [blank])]
    | false =>
      rw [if_neg Bool.false_ne_true,List.filter_cons_of_pos (by simp [blank])]
      constructor
      · intro parsed
        split at parsed
        · cases parsed
        · rename_i valid
          split at parsed
          · cases parsed
          · rename_i later restParsed
            cases parsed
            obtain ⟨same,every⟩ := ih.mp restParsed
            refine ⟨by rw [same],fun addr mem => ?_⟩
            cases List.mem_cons.mp mem with
            | inl here => rw [here,valid]
            | inr more => exact every addr more
      · rintro ⟨rfl,every⟩
        have later := ih.mpr ⟨rfl,fun addr mem => every addr (List.mem_cons_of_mem _ mem)⟩
        rw [every _ List.mem_cons_self,later]

theorem parsedAddrLines {body : Text} {addrs : List Text} : parseAddrTokens inet (lines comma body) = .ok addrs ↔
    addrs = entries comma addrBlank body ∧ ∀ addr ∈ addrs, validateCidr inet addr = .ok () := by
  rw [parsedAddrTokens,entriesLines]

theorem parsedAddrSpec {text : Text} {spec : AddrSpec} (nonempty : text.isEmpty = false) :
    parseAddrSpec inet text = .ok spec ↔ spec.negate = (stripNeg text).2 ∧
      spec.addrs = entries comma addrBlank (stripNeg text).1 ∧ ∀ addr ∈ spec.addrs, validateCidr inet addr = .ok () := by
  rw [parseAddrSpec,nonempty,if_neg Bool.false_ne_true]
  constructor
  · intro parsed
    split at parsed
    · cases parsed
    · rename_i addrs tokens
      cases parsed
      exact ⟨rfl,parsedAddrLines.mp tokens⟩
  · rintro ⟨sign,same,valid⟩
    rw [parsedAddrLines.mpr ⟨same,valid⟩]
    cases spec
    cases sign
    rfl

structure AddressPlain (text : Text) : Prop where
  front : ∀ c ∈ text.takeWhile trimmed, addrBlank c = true
  back : ∀ c ∈ text.reverse.takeWhile trimmed, addrBlank c = true
  sign : (trimText text).head? = some '!' → text.head? = some '!'

theorem stripNegOther {text : Text} (other : text.head? ≠ some '!') : stripNeg text = (text,false) := by
  unfold stripNeg
  split
  · rename_i body
    exact absurd rfl other
  · rfl

theorem trimmedNotComma {c : Char} (blank : trimmed c = true) : comma c = false := by
  cases isComma : comma c with
  | false => rfl
  | true =>
    rw [comma,beq_iff_eq] at isComma
    subst isComma
    exact absurd blank (by decide)

theorem trimmedNotSign {c : Char} (blank : trimmed c = true) : c ≠ '!' := by
  rintro rfl
  exact absurd blank (by decide)

theorem addrBlankTrimmed {c : Char} (blank : addrBlank c = true) : trimmed c = true := by
  simp only [addrBlank,Bool.or_eq_true,beq_iff_eq] at blank
  obtain same | same := blank <;> (subst same; decide)

theorem solidAddr {c : Char} (solid : trimmed c = false) : addrBlank c = false := by
  cases blank : addrBlank c with
  | false => rfl
  | true => exact absurd (addrBlankTrimmed blank) (by simp [solid])

theorem blankAgreesIff {text : Text} (blank : ∀ c ∈ text, trimmed c = true) :
    parseAddrSpec inet text = .ok {} ↔ AddressPlain text := by
  have whole : text.takeWhile trimmed = text := List.takeWhile_eq_self_iff.mpr blank
  have reversed : text.reverse.takeWhile trimmed = text.reverse :=
    List.takeWhile_eq_self_iff.mpr fun c mem => blank c (List.mem_reverse.mp mem)
  have noText : trimText text = [] := stripNil.mpr blank
  have plain : AddressPlain text ↔ ∀ c ∈ text, addrBlank c = true := by
    constructor
    · intro plain c mem
      exact plain.front c (whole.symm ▸ mem)
    · intro every
      refine ⟨fun c mem => every c (whole ▸ mem),fun c mem => every c (List.mem_reverse.mp (reversed ▸ mem)),?_⟩
      rw [noText]
      intro same
      cases same
  rw [plain]
  cases empty : text.isEmpty with
  | true =>
    rw [List.isEmpty_iff.mp empty]
    exact ⟨fun _ => List.forall_mem_nil _,fun _ => rfl⟩
  | false =>
    have unsigned : stripNeg text = (text,false) := by
      refine stripNegOther fun sign => ?_
      exact trimmedNotSign (blank _ (List.mem_of_head? sign)) rfl
    rw [parsedAddrSpec empty,unsigned]
    have single : entries comma addrBlank text = [] ↔ strip addrBlank text = [] := by
      rw [entries,fieldsWhole comma fun c mem => trimmedNotComma (blank c mem),List.map_singleton]
      cases strip addrBlank text with
      | nil => simp
      | cons c rest => simp
    rw [← stripNil,← single]
    constructor
    · rintro ⟨_,none,_⟩
      exact none.symm
    · intro none
      exact ⟨rfl,none.symm,List.forall_mem_nil _⟩

theorem contentEnds {text : Text} (nonempty : ((stripNeg (trimText text)).1).isEmpty = false)
    (last : ((stripNeg (trimText text)).1).getLast? ≠ some ',') :
    ∃ d, ((stripNeg (trimText text)).1).getLast? = some d ∧ comma d = false ∧ trimmed d = false := by
  cases ending : ((stripNeg (trimText text)).1).getLast? with
  | none =>
    rw [List.getLast?_eq_none_iff.mp ending] at nonempty
    cases nonempty
  | some d =>
    have apart : comma d = false := by
      rw [comma,beq_eq_false_iff_ne]
      rintro rfl
      exact last ending
    refine ⟨d,rfl,apart,?_⟩
    have whole : (trimText text).getLast? = some d := by
      cases sign : trimText text with
      | nil =>
        rw [sign] at ending
        cases ending
      | cons c rest =>
        by_cases bang : c = '!'
        · subst bang
          rw [sign] at ending
          change rest.getLast? = some d at ending
          rw [List.getLast?_cons,ending]
          rfl
        · rw [sign,stripNegOther (by simp [bang])] at ending
          exact ending
    exact stripBack whole

theorem trimAgreesIff {text : Text} {spec : AddrSpec} (some_text : trimText text ≠ [])
    (nonempty : ((stripNeg (trimText text)).1).isEmpty = false)
    (first : ((stripNeg (trimText text)).1).head? ≠ some ',') (last : ((stripNeg (trimText text)).1).getLast? ≠ some ',')
    (parsed : parseAddrSpec inet (trimText text) = .ok spec) :
    parseAddrSpec inet text = .ok spec ↔ AddressPlain text := by
  have margins := stripMargins some_text
  have leadFree : ∀ e ∈ text.takeWhile trimmed, comma e = false := fun e mem => trimmedNotComma (List.mem_takeWhile_imp mem)
  have trailFree : ∀ e ∈ (text.reverse.takeWhile trimmed).reverse, comma e = false :=
    fun e mem => trimmedNotComma (List.mem_takeWhile_imp (List.mem_reverse.mp mem))
  have full : text.isEmpty = false := by
    rw [List.isEmpty_eq_false_iff]
    rintro rfl
    exact some_text rfl
  obtain ⟨d,ending,lastApart,lastSolid⟩ := contentEnds nonempty last
  obtain ⟨sign,addrs,valid⟩ := (parsedAddrSpec (List.isEmpty_eq_false_iff.mpr some_text)).mp parsed
  rw [parsedAddrSpec full]
  change text = text.takeWhile trimmed ++ (trimText text ++ (text.reverse.takeWhile trimmed).reverse) at margins
  cases shape : trimText text with
  | nil => exact absurd shape some_text
  | cons c rest =>
    have front : (strip trimmed text).head? = some c := congrArg List.head? shape
    by_cases bang : c = '!'
    · subst bang
      rw [shape] at margins ending nonempty first sign addrs
      cases lead : text.takeWhile trimmed with
      | cons e more =>
        -- a blank in front of the exclamation mark hides it from the builder
        have eBlank : trimmed e = true := List.mem_takeWhile_imp (lead ▸ List.mem_cons_self)
        have hidden : text.head? ≠ some '!' := by
          rw [margins,lead]
          intro same
          exact trimmedNotSign eBlank (Option.some.inj same)
        constructor
        · rintro ⟨other,_⟩
          rw [stripNegOther hidden,sign] at other
          cases other
        · intro plain
          exact absurd (plain.sign (congrArg List.head? shape)) hidden
      | nil =>
        rw [lead] at margins
        have signed : stripNeg text = (rest ++ (text.reverse.takeWhile trimmed).reverse,true) := by
          conv => lhs; rw [margins]
          rfl
        have margin : entries comma addrBlank (rest ++ (text.reverse.takeWhile trimmed).reverse) =
            entries comma addrBlank rest ↔ ∀ e ∈ (text.reverse.takeWhile trimmed).reverse, addrBlank e = true :=
          entriesMargin trailFree ending lastApart (solidAddr lastSolid)
        rw [signed]
        change spec.addrs = entries comma addrBlank rest at addrs
        constructor
        · rintro ⟨_,same,_⟩
          have blank := margin.mp (same.symm.trans addrs)
          refine ⟨?_,fun e mem => blank e (List.mem_reverse.mpr mem),fun _ => ?_⟩
          · rw [lead]
            nofun
          · rw [margins]
            rfl
        · intro plain
          have blank := margin.mpr fun e mem => plain.back e (List.mem_reverse.mp mem)
          exact ⟨sign,addrs.trans blank.symm,valid⟩
    · have unsigned : stripNeg (trimText text) = (trimText text,false) := stripNegOther (by rw [shape]; simp [bang])
      rw [unsigned] at sign addrs ending first
      have bare : text.head? ≠ some '!' := by
        rw [margins,List.head?_append]
        cases lead : text.takeWhile trimmed with
        | nil =>
          rw [shape]
          simp [bang]
        | cons e more =>
          have eBlank : trimmed e = true := List.mem_takeWhile_imp (lead ▸ List.mem_cons_self)
          simp [trimmedNotSign eBlank]
      have frontApart : comma c = false := by
        rw [comma,beq_eq_false_iff_ne]
        rintro rfl
        exact first (congrArg List.head? shape)
      have margin := entriesMargins leadFree trailFree front ending ⟨frontApart,lastApart⟩
        ⟨solidAddr (stripFront front),solidAddr lastSolid⟩
      change entries comma addrBlank (text.takeWhile trimmed ++ (trimText text ++ (text.reverse.takeWhile trimmed).reverse)) =
        entries comma addrBlank (trimText text) ↔ _ at margin
      rw [← margins] at margin
      rw [stripNegOther bare]
      constructor
      · rintro ⟨_,same,_⟩
        obtain ⟨leadBlank,trailBlank⟩ := margin.mp (same.symm.trans addrs)
        refine ⟨leadBlank,fun e mem => trailBlank e (List.mem_reverse.mpr mem),fun same => ?_⟩
        rw [shape] at same
        exact absurd (Option.some.inj same) bang
      · intro plain
        have blank := margin.mpr ⟨plain.front,fun e mem => plain.back e (List.mem_reverse.mp mem)⟩
        exact ⟨sign,addrs.trans blank.symm,valid⟩

theorem addrAgreesIff {value : Option String} {reading : AddrSpec} (read : readAddressSpec inet value = .ok reading) :
    parseAddrSpec inet (textOr value) = .ok reading ↔ AddressPlain (textOr value) := by
  unfold readAddressSpec at read
  split at read
  · cases read
    exact blankAgreesIff nofun
  · rename_i text
    change parseAddrSpec inet text.toList = .ok reading ↔ AddressPlain text.toList
    dsimp only at read
    split at read
    · rename_i empty
      cases read
      exact blankAgreesIff (stripNil.mp (List.isEmpty_iff.mp empty))
    · rename_i some_text
      split at read
      · cases read
      · rename_i shape
        simp only [Bool.or_eq_true,beq_iff_eq,not_or,Bool.not_eq_true] at shape
        obtain ⟨⟨nonempty,first⟩,last⟩ := shape
        split at read
        · cases read
        · rename_i spec parsed
          cases read
          refine trimAgreesIff (fun none => some_text ?_) nonempty first last parsed
          rw [none]
          rfl

end Addresses

def supportedProto (proto : Option String) : Bool := [none,some "",some "tcp",some "udp",some "tcp/udp"].contains proto

theorem protoSupported {proto : Option String} : (∃ l4, parseRuleProto proto = .ok l4) ↔ supportedProto proto = true := by
  cases proto with
  | none => exact ⟨fun _ => rfl,fun _ => ⟨.any,rfl⟩⟩
  | some text =>
    simp only [parseRuleProto,supportedProto,String.isEmpty_iff,beq_iff_eq]
    by_cases empty : text = ""
    · simp [empty]
    · by_cases tcp : text = "tcp"
      · simp [tcp]
      · by_cases udp : text = "udp"
        · simp [udp]
        · by_cases both : text = "tcp/udp"
          · simp [both]
          · simp [empty,tcp,udp,both]

/- A rule whose texts both sides read alike. -/
structure PlainRule (rule : RouteRule) : Prop where
  proto : supportedProto rule.proto = true
  srcPort : ∀ c ∈ textOr rule.srcPort, trimmed c = false
  destPort : ∀ c ∈ textOr rule.destPort, trimmed c = false
  srcAddr : AddressPlain (textOr rule.srcAddr)
  destAddr : AddressPlain (textOr rule.destAddr)

/- The criteria carry the flags, the ports and the addresses the validator read. -/
def CriteriaAgree (inet : Inet) (rule : RouteRule) : Prop :=
  ∃ criteria srcPort dstPort srcAddr dstAddr, buildFirewallRuleCriteria inet rule = .ok criteria ∧
    readPortSpec rule.srcPort = .ok srcPort ∧ readPortSpec rule.destPort = .ok dstPort ∧
    readAddressSpec inet rule.srcAddr = .ok srcAddr ∧ readAddressSpec inet rule.destAddr = .ok dstAddr ∧
    (criteria.srcPort.ports = srcPort.ports ∧ criteria.negateSrcPort = srcPort.negate) ∧
    (criteria.dstPort.ports = dstPort.ports ∧ criteria.negateDstPort = dstPort.negate) ∧
    (criteria.srcAddr = srcAddr.addrs ∧ criteria.negateSrcAddr = srcAddr.negate) ∧
    (criteria.dstAddr = dstAddr.addrs ∧ criteria.negateDstAddr = dstAddr.negate)

theorem issueNone {β : Type} {read : Except RuleSpecValidationError β} (none : issueOf read = .none) : ∃ value, read = .ok value := by
  cases read with
  | error issue => cases none
  | ok value => exact ⟨value,rfl⟩

theorem builtCriteria {inet : Inet} {rule : RouteRule} {criteria : FirewallRuleCriteria}
    (built : buildFirewallRuleCriteria inet rule = .ok criteria) :
    (∃ l4, parseRuleProto rule.proto = .ok l4) ∧
    parsePortSpec (stripNeg (textOr rule.srcPort)).1 = .ok criteria.srcPort ∧
    parsePortSpec (stripNeg (textOr rule.destPort)).1 = .ok criteria.dstPort ∧
    parseAddrSpec inet (textOr rule.srcAddr) = .ok { addrs := criteria.srcAddr, negate := criteria.negateSrcAddr } ∧
    parseAddrSpec inet (textOr rule.destAddr) = .ok { addrs := criteria.dstAddr, negate := criteria.negateDstAddr } := by
  unfold buildFirewallRuleCriteria at built
  cases proto : parseRuleProto rule.proto with
  | error message => simp [proto,bind,Except.bind] at built
  | ok l4 =>
    cases srcPort : parsePortSpec (stripNeg (textOr rule.srcPort)).1 with
    | error message => simp [proto,srcPort,bind,Except.bind] at built
    | ok src =>
      cases dstPort : parsePortSpec (stripNeg (textOr rule.destPort)).1 with
      | error message => simp [proto,srcPort,dstPort,bind,Except.bind] at built
      | ok dst =>
        cases srcAddr : parseAddrSpec inet (textOr rule.srcAddr) with
        | error message => simp [proto,srcPort,dstPort,srcAddr,bind,Except.bind] at built
        | ok srcSpec =>
          cases dstAddr : parseAddrSpec inet (textOr rule.destAddr) with
          | error message => simp [proto,srcPort,dstPort,srcAddr,dstAddr,bind,Except.bind] at built
          | ok dstSpec =>
            simp only [proto,srcPort,dstPort,srcAddr,dstAddr,bind,Except.bind,Except.ok.injEq] at built
            subst built
            exact ⟨⟨l4,rfl⟩,rfl,rfl,rfl,rfl⟩

theorem portSolid {value : Option String} {spec : PortSpec} (parsed : parsePortSpec (stripNeg (textOr value)).1 = .ok spec) :
    ∀ c ∈ textOr value, trimmed c = false := by
  intro c mem
  cases stripNegMem mem with
  | inl sign =>
    subst sign
    decide
  | inr inside => exact parsedSolid parsed c inside

theorem plainOfAgree {inet : Inet} {rule : RouteRule} (agree : CriteriaAgree inet rule) : PlainRule rule := by
  obtain ⟨criteria,srcPort,dstPort,srcAddr,dstAddr,built,_,_,srcRead,dstRead,_,_,⟨srcSame,srcSign⟩,⟨dstSame,dstSign⟩⟩ := agree
  obtain ⟨proto,src,dst,srcParsed,dstParsed⟩ := builtCriteria built
  rw [srcSame,srcSign] at srcParsed
  rw [dstSame,dstSign] at dstParsed
  exact ⟨protoSupported.mp proto,portSolid src,portSolid dst,(addrAgreesIff srcRead).mp srcParsed,(addrAgreesIff dstRead).mp dstParsed⟩

theorem criteriaAgreeIff (inet : Inet) (rule : RouteRule)
    (srcPort : RuleSpec.validatePortSpec rule.srcPort = none) (destPort : RuleSpec.validatePortSpec rule.destPort = none)
    (srcAddr : RuleSpec.validateAddressSpec inet rule.srcAddr = none)
    (destAddr : RuleSpec.validateAddressSpec inet rule.destAddr = none) : CriteriaAgree inet rule ↔ PlainRule rule := by
  refine ⟨plainOfAgree,fun plain => ?_⟩
  obtain ⟨srcReading,srcRead⟩ := issueNone srcPort
  obtain ⟨dstReading,dstRead⟩ := issueNone destPort
  obtain ⟨srcSpec,srcAddrRead⟩ := issueNone srcAddr
  obtain ⟨dstSpec,dstAddrRead⟩ := issueNone destAddr
  obtain ⟨l4,proto⟩ := protoSupported.mpr plain.proto
  obtain ⟨src,srcParsed,srcPorts,srcSign⟩ := portAgrees srcRead plain.srcPort
  obtain ⟨dst,dstParsed,dstPorts,dstSign⟩ := portAgrees dstRead plain.destPort
  have srcSame := (addrAgreesIff srcAddrRead).mpr plain.srcAddr
  have dstSame := (addrAgreesIff dstAddrRead).mpr plain.destAddr
  have built : ∃ criteria, buildFirewallRuleCriteria inet rule = .ok criteria ∧ criteria.srcPort = src ∧
      criteria.negateSrcPort = (stripNeg (textOr rule.srcPort)).2 ∧ criteria.dstPort = dst ∧
      criteria.negateDstPort = (stripNeg (textOr rule.destPort)).2 ∧ criteria.srcAddr = srcSpec.addrs ∧
      criteria.negateSrcAddr = srcSpec.negate ∧ criteria.dstAddr = dstSpec.addrs ∧ criteria.negateDstAddr = dstSpec.negate := by
    rw [buildFirewallRuleCriteria,proto,srcParsed,dstParsed,srcSame,dstSame]
    exact ⟨_,rfl,rfl,rfl,rfl,rfl,rfl,rfl,rfl,rfl⟩
  obtain ⟨criteria,built,rfl,srcFlag,rfl,dstFlag,srcAddrs,srcNegate,dstAddrs,dstNegate⟩ := built
  exact ⟨criteria,srcReading,dstReading,srcSpec,dstSpec,built,srcRead,dstRead,srcAddrRead,dstAddrRead,
    ⟨srcPorts,srcFlag.trans srcSign⟩,⟨dstPorts,dstFlag.trans dstSign⟩,⟨srcAddrs,srcNegate⟩,⟨dstAddrs,dstNegate⟩⟩

/- inet_pton on two documentation addresses. -/
def hostInet : Inet where
  pton family address :=
    if family == afInet && address == "192.0.2.1" then some [192,0,2,1]
    else if family == afInet6 && address == "2001:db8::1" then some [0x20,0x01,0x0d,0xb8,0,0,0,0,0,0,0,0,0,0,0,1]
    else none
  ntop _ _ := none

def plainPortRule (ports : String) : RouteRule :=
  { outbound := "vpn", proto := some "tcp", srcPort := some ports, srcAddr := some "! 192.0.2.1/32,192.0.2.1",
    destAddr := some " 2001:db8::1\t" }

theorem noneTrimmed {input : Text} (clean : input.all (fun c => !trimmed c) = true) : ∀ c ∈ input, trimmed c = false := by
  simpa only [List.all_eq_true,Bool.not_eq_true'] using clean

theorem plainRuleAgrees : RuleSpec.validatePortSpec (some "!80,8000-9000") = none ∧
    CriteriaAgree hostInet (plainPortRule "!80,8000-9000") :=
  ⟨by decide,(criteriaAgreeIff hostInet (plainPortRule "!80,8000-9000") (by decide) (by decide)
    (by decide) (by decide)).mpr
      ⟨by decide,noneTrimmed (by decide),noneTrimmed (by decide),
        ⟨List.all_eq_true.mp (by decide),List.all_eq_true.mp (by decide),by decide⟩,
        ⟨List.all_eq_true.mp (by decide),List.all_eq_true.mp (by decide),by decide⟩⟩⟩

/- One blank after the comma, as a person writes a list. -/
theorem spacedPortsThrow : RuleSpec.validatePortSpec (some "80, 443") = none ∧
    readPortSpec (some "80, 443") = .ok { ranges := [(80,80),(443,443)] } ∧
    RuleSpec.validateAddressSpec hostInet none = none ∧
    buildFirewallRuleCriteria hostInet { outbound := "vpn", proto := some "tcp", destPort := some "80, 443" } =
      .error "Invalid port token ' 443' in port spec '80, 443'" ∧
    ¬ CriteriaAgree hostInet { outbound := "vpn", proto := some "tcp", destPort := some "80, 443" } := by
  refine ⟨by decide,by decide,rfl,by decide,fun agree => ?_⟩
  exact absurd ((plainOfAgree agree).destPort ' ' (by decide)) (by decide)

end KeenPbr

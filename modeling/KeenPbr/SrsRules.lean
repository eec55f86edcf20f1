import KeenPbr.SrsMatcher
import KeenPbr.SrsIpSet

/-! read_default_rule, read_logical_rule and decode_srs. The readers return the rules they read beside what
they extract of them; the source keeps the extraction only. -/
namespace KeenPbr.Srs

inductive RuleItem where
  | queryType
  | network
  | domain
  | domainKeyword
  | domainRegex
  | sourceIpCidr
  | ipCidr
  | sourcePort
  | sourcePortRange
  | port
  | portRange
  | processName
  | processPath
  | packageName
  | wifiSsid
  | wifiBssid
  | adGuardDomain
  | processPathRegex
  | networkType
  | networkIsExpensive
  | networkIsConstrained
  | networkInterfaceAddress
  | defaultInterfaceAddress
  | packageNameRegex
  deriving DecidableEq, Repr

def RuleItem.ofByte : UInt8 → Option RuleItem
  | 0 => some .queryType
  | 1 => some .network
  | 2 => some .domain
  | 3 => some .domainKeyword
  | 4 => some .domainRegex
  | 5 => some .sourceIpCidr
  | 6 => some .ipCidr
  | 7 => some .sourcePort
  | 8 => some .sourcePortRange
  | 9 => some .port
  | 10 => some .portRange
  | 11 => some .processName
  | 12 => some .processPath
  | 13 => some .packageName
  | 14 => some .wifiSsid
  | 15 => some .wifiBssid
  | 16 => some .adGuardDomain
  | 17 => some .processPathRegex
  | 18 => some .networkType
  | 19 => some .networkIsExpensive
  | 20 => some .networkIsConstrained
  | 21 => some .networkInterfaceAddress
  | 22 => some .defaultInterfaceAddress
  | 23 => some .packageNameRegex
  | _ => none

def finalItem : UInt8 := 0xff

inductive ItemContent where
  | trie (trie : Trie)
  | ranges (ranges : List (IpAddress × IpAddress))
  | texts (texts : List Bytes)
  | words (words : List UInt16)
  | octets (octets : Bytes)
  | interfaces (interfaces : List (UInt8 × List (IpAddress × UInt8)))
  | prefixes (prefixes : List (IpAddress × UInt8))
  | flag
  deriving DecidableEq, Repr

inductive SrsRule where
  | default (items : List (RuleItem × ItemContent)) (invert : Bool)
  | logical (or : Bool) (children : List SrsRule) (invert : Bool)

/- Which counter of read_default_rule an item moves. -/
inductive ItemRole where
  | supportedDestination
  | otherDestination
  | blockingConstraint
  deriving DecidableEq, Repr

def RuleItem.role : RuleItem → ItemRole
  | .domain | .ipCidr => .supportedDestination
  | .domainKeyword | .domainRegex | .adGuardDomain => .otherDestination
  | _ => .blockingConstraint

section Reading
variable {zlib : Zlib} (limits : SrsDecodeLimits) (version : UInt8)

def skipInterfaces (context : String) : Nat → List UInt8 → Decode zlib (List (UInt8 × List (IpAddress × UInt8)))
  | 0, _ => pure []
  | left + 1, seen => do
    let key ← readByte limits (context ++ " key")
    failIf (key ∈ seen) (context ++ " contains a duplicate interface type")
    let prefixCount ← readCount limits limits.maxValues (context ++ " prefix count")
    accountValues limits prefixCount context
    let prefixes ← readMany (fun index => skipPrefix limits (context ++ " prefix[" ++ toString index ++ "]")) 0 prefixCount
    let rest ← skipInterfaces context left (key :: seen)
    pure ((key,prefixes) :: rest)

def skipInterfaceAddressMap (context : String) : Decode zlib (List (UInt8 × List (IpAddress × UInt8))) := do
  let count ← readCount limits 256 (context ++ " map size")
  accountValues limits count context
  skipInterfaces limits context count []

def skipPrefixList (context : String) : Decode zlib (List (IpAddress × UInt8)) := do
  let count ← readCount limits limits.maxValues (context ++ " prefix count")
  accountValues limits count context
  readMany (fun index => skipPrefix limits (context ++ "[" ++ toString index ++ "]")) 0 count

def requireItemVersion (minimum : UInt8) (item context : String) : Decode zlib Unit :=
  failIf (version < minimum) (context ++ " contains " ++ item ++ " which requires SRS v" ++ toString minimum.toNat)

def skipTexts (field : String) : Decode zlib (ItemContent × RuleExtraction) := do
  let texts ← skipStringList limits field
  pure (.texts texts,{})

def skipWords (field : String) : Decode zlib (ItemContent × RuleExtraction) := do
  let words ← skipU16List limits field
  pure (.words words,{})

def readItem (context field : String) : RuleItem → Decode zlib (ItemContent × RuleExtraction)
  | .domain => do
    let (trie,extraction) ← readDomainMatcher limits field
    pure (.trie trie,{ extraction with cidrs := [] })
  | .ipCidr => do
    let (ranges,cidrs) ← readIpSet limits field true
    pure (.ranges ranges,{ cidrs := cidrs.map Cidr.text })
  | .queryType | .sourcePort | .port => skipWords limits field
  | .network | .sourcePortRange | .portRange | .processName | .processPath | .packageName | .wifiSsid | .wifiBssid
  | .processPathRegex | .domainKeyword | .domainRegex => skipTexts limits field
  | .packageNameRegex => do
    requireItemVersion version 5 "package_name_regex" context
    skipTexts limits field
  | .sourceIpCidr => do
    let (ranges,_) ← readIpSet limits field false
    pure (.ranges ranges,{})
  | .adGuardDomain => do
    requireItemVersion version 2 "adguard_domain" context
    let trie ← readTrie limits field
    pure (.trie trie,{})
  | .networkType => do
    requireItemVersion version 3 "network_type" context
    let octets ← skipU8List limits field
    pure (.octets octets,{})
  | .networkIsExpensive => do
    requireItemVersion version 3 "network_is_expensive" context
    pure (.flag,{})
  | .networkIsConstrained => do
    requireItemVersion version 3 "network_is_constrained" context
    pure (.flag,{})
  | .networkInterfaceAddress => do
    requireItemVersion version 4 "network_interface_address" context
    let interfaces ← skipInterfaceAddressMap limits field
    pure (.interfaces interfaces,{})
  | .defaultInterfaceAddress => do
    requireItemVersion version 4 "default_interface_address" context
    let prefixes ← skipPrefixList limits field
    pure (.prefixes prefixes,{})

def RuleExtraction.append (left right : RuleExtraction) : RuleExtraction where
  domains := left.domains ++ right.domains
  suffixes := left.suffixes ++ right.suffixes
  cidrs := left.cidrs ++ right.cidrs

def RuleExtraction.isEmpty (extraction : RuleExtraction) : Bool :=
  extraction.domains.isEmpty && extraction.suffixes.isEmpty && extraction.cidrs.isEmpty

/- The locals of read_default_rule: has_condition is that there are items. -/
structure Collected where
  items : List (RuleItem × ItemContent) := []
  seen : List UInt8 := []
  extracted : RuleExtraction := {}
  supportedDestinationFields : Nat := 0
  blockingConstraints : Nat := 0

def Collected.add (collected : Collected) (raw : UInt8) (item : RuleItem) (content : ItemContent) (extraction : RuleExtraction) :
    Collected where
  items := collected.items ++ [(item,content)]
  seen := raw :: collected.seen
  extracted := collected.extracted.append extraction
  supportedDestinationFields := collected.supportedDestinationFields + if item.role = .supportedDestination then 1 else 0
  blockingConstraints := collected.blockingConstraints + if item.role = .blockingConstraint then 1 else 0

def countSkipped : Decode zlib Unit := modify fun decoder => { decoder with skippedRules := decoder.skippedRules + 1 }

def countInverted : Decode zlib Unit :=
  modify fun decoder => { decoder with invertedRules := decoder.invertedRules + 1, skippedRules := decoder.skippedRules + 1 }

def countUnsupported (item : RuleItem) : Decode zlib Unit :=
  modify fun decoder => { decoder with
    unsupportedFields := decoder.unsupportedFields + if item.role = .supportedDestination then 0 else 1 }

def finishDefault (context : String) (collected : Collected) : Decode zlib (SrsRule × RuleExtraction) := do
  let invert ← readBool limits (context ++ " invert")
  if invert then
    countInverted
    pure (.default collected.items invert,{})
  else if collected.items.isEmpty || collected.blockingConstraints ≠ 0 || collected.supportedDestinationFields = 0 ||
      collected.extracted.isEmpty then
    countSkipped
    pure (.default collected.items invert,{})
  else pure (.default collected.items invert,collected.extracted)

def readItemOf (context : String) (raw : UInt8) : Decode zlib (RuleItem × ItemContent × RuleExtraction) :=
  match RuleItem.ofByte raw with
  | none => fail (context ++ " contains unknown rule item type " ++ toString raw.toNat)
  | some item => do
    let (content,extraction) ← readItem limits version context (context ++ " item " ++ toString raw.toNat) item
    countUnsupported item
    pure (item,content,extraction)

/- The loop over the items; the first argument is how many the limit still allows. -/
def readItems (context : String) : Nat → Collected → Decode zlib (SrsRule × RuleExtraction)
  | 0, collected => do
    let raw ← readByte limits (context ++ " item type")
    if raw = finalItem then finishDefault limits context collected else fail (context ++ " item count exceeds limit")
  | left + 1, collected => do
    let raw ← readByte limits (context ++ " item type")
    if raw = finalItem then finishDefault limits context collected
    else do
      failIf (raw ∈ collected.seen) (context ++ " contains duplicate item type " ++ toString raw.toNat)
      let (item,content,extraction) ← readItemOf limits version context raw
      readItems context left (collected.add raw item content extraction)

def readDefaultRule (context : String) : Decode zlib (SrsRule × RuleExtraction) :=
  readItems limits version context limits.maxRuleItems {}

def combine (children : List (SrsRule × RuleExtraction)) : RuleExtraction :=
  children.foldl (fun combined child => combined.append child.2) {}

def finishLogical (context : String) (or : Bool) (children : List (SrsRule × RuleExtraction)) :
    Decode zlib (SrsRule × RuleExtraction) := do
  let invert ← readBool limits (context ++ " invert")
  if invert then
    countInverted
    pure (.logical or (children.map Prod.fst) invert,{})
  else if !or && children.length != 1 then
    countSkipped
    pure (.logical or (children.map Prod.fst) invert,{})
  else pure (.logical or (children.map Prod.fst) invert,combine children)

def countRule : Decode zlib Unit := do
  let decoder ← get
  failIf (decoder.totalRules ≥ limits.maxRules) "SRS total rule count exceeds limit"
  modify fun decoder => { decoder with totalRules := decoder.totalRules + 1 }

/- read_rule and read_logical_rule; the first argument is the number of nesting levels that are left,
this one included. -/
def readRule : Nat → String → Decode zlib (SrsRule × RuleExtraction)
  | 0, context => fail (context ++ " exceeds logical nesting limit")
  | levels + 1, context => do
    countRule limits
    let type ← readByte limits (context ++ " type")
    if type = 0 then readDefaultRule limits version context
    else if type = 1 then do
      let mode ← readByte limits (context ++ " logical mode")
      failIf (mode > 1) (context ++ " has unknown logical mode " ++ toString mode.toNat)
      let childCount ← readCount limits limits.maxRules (context ++ " child count")
      failIf (childCount = 0) (context ++ " has no child rules")
      let children ← readMany (fun index => readRule levels (context ++ ".rules[" ++ toString index ++ "]")) 0 childCount
      finishLogical limits context (mode == 1) children
    else fail (context ++ " has unknown rule type " ++ toString type.toNat)

structure SrsDecodeResult where
  version : UInt8
  domains : List Bytes
  domainSuffixes : List Bytes
  ipCidrs : List Text
  unsupportedFields : Nat
  skippedRules : Nat
  invertedRules : Nat
  deriving DecidableEq, Repr

def textLess : Text → Text → Bool
  | _, [] => false
  | [], _ :: _ => true
  | a :: left, b :: right => if a < b then true else if b < a then false else textLess left right

def decode : Decode zlib (List SrsRule × SrsDecodeResult) := do
  let topLevelRules ← readCount limits limits.maxRules "top-level rule count"
  let rules ← readMany (fun index => readRule limits version (limits.maxLogicalDepth + 1) ("rule[" ++ toString index ++ "]")) 0
    topLevelRules
  requireCleanEnd limits
  let decoder ← get
  let collected := combine rules
  pure (rules.map Prod.fst,
    { version,
      domains := sortUnique addressLess collected.domains,
      domainSuffixes := sortUnique addressLess collected.suffixes,
      ipCidrs := sortUnique textLess collected.cidrs,
      unsupportedFields := decoder.unsupportedFields,
      skippedRules := decoder.skippedRules,
      invertedRules := decoder.invertedRules })

end Reading

def SrsDecodeLimits.positive (limits : SrsDecodeLimits) : Bool :=
  [limits.maxCompressedBytes,limits.maxDecompressedBytes,limits.maxRules,limits.maxLogicalDepth,limits.maxRuleItems,
    limits.maxValues,limits.maxStringBytes,limits.maxTotalStringBytes,limits.maxTrieWords,limits.maxTrieLabels,
    limits.maxTrieNodes,limits.maxIpRanges,limits.maxOutputEntries,limits.maxOutputStringBytes].all (· > 0)

def decodeSrs (zlib : Zlib) (limits : SrsDecodeLimits) (input : Bytes) : Except SrsDecodeError (List SrsRule × SrsDecodeResult) :=
  match input with
  | a :: b :: c :: version :: source =>
    if [a,b,c] ≠ [0x53,0x52,0x53] then .error { message := "invalid SRS magic" }
    else if version < 1 then .error { message := "invalid SRS version " ++ toString version.toNat ++ " (supported: 1-5)" }
    else if version > 5 then
      .error { message := "unsupported SRS version " ++ toString version.toNat ++ " (supported: 1-5)",
               kind := .unsupportedVersion,
               version }
    else if !limits.positive then .error { message := "SRS decode limits must be greater than zero" }
    else if limits.maxTrieNodes > 2 ^ 32 - 1 then .error { message := "SRS trie node limit exceeds decoder index range" }
    else
      match zlib.inflateInit with
      | none => .error { message := "failed to initialize zlib decoder" }
      | some stream =>
        match decode limits version { reader := { source, stream } } with
        | .ok answer _ => .ok answer
        | .error error _ => .error error
  | _ => .error { message := "SRS header is truncated" }

end KeenPbr.Srs

import KeenPbr.ListParser

/-! The claims of keenetic/ndms_native_ownership_store.cpp: which records are valid, the text that holds
one, and what a record may be replaced with. -/
namespace KeenPbr.Ownership
open Fields

inductive Kind where
  | wireguard
  | amneziaWireguard
  deriving DecidableEq, Repr

inductive Lifecycle where
  | activeRunningOnly
  | activeSaveAcknowledgedUnverified
  | deletedSaveAcknowledgedUnverified
  deriving DecidableEq, Repr

structure ObservationBinding where
  authorityId : Text
  mutationEpoch : UInt64
  baselineSequence : UInt64
  deriving DecidableEq

structure LifecycleEvidence where
  transactionId : Text
  observationBinding : ObservationBinding
  runtimeCatalogRevision : Text
  runtimeSequence : UInt64
  runningConfigCatalogRevision : Text
  runningConfigSequence : UInt64
  deletedKernelInterfaceName : Option Text
  deriving DecidableEq

structure Record where
  schemaVersion : UInt32
  interfaceName : Text
  transactionId : Text
  marker : Text
  kind : Kind
  snapshotRevision : Text
  targetFullRevision : Text
  lifecycle : Lifecycle
  lifecycleEvidence : Option LifecycleEvidence
  deriving DecidableEq

def kNdmsNativeOwnershipSchemaVersion : UInt32 := 3

def kNdmsNativeOwnershipTombstoneSchemaVersion : UInt32 := 4

section Validity

def lowerHex (value : Text) (size : Nat) : Bool :=
  value.length == size && value.all fun c => ('0' ≤ c && c ≤ '9') || ('a' ≤ c && c ≤ 'f')

def taggedDigest (tag value : Text) : Bool :=
  value.length == tag.length + 64 && value.take tag.length == tag && lowerHex (value.drop tag.length) 64

def rciFullRevision (value : Text) : Bool := taggedDigest (text "ndms-rci-full-v1-") value

def snapshotRevision (value : Text) : Bool := taggedDigest (text "ndms-native-import-v1-") value

def observationCatalogRevision (value : Text) : Bool := taggedDigest (text "ndms-native-catalog-v1-") value

def kernelCharacter (c : Char) : Bool :=
  ('a' ≤ c && c ≤ 'z') || ('A' ≤ c && c ≤ 'Z') || ('0' ≤ c && c ≤ '9') || c == '_' || c == '-' || c == '.' || c == ':'

def kernelInterfaceName (value : Text) : Bool :=
  !(value.isEmpty || value.length > 15 || value == text "." || value == text "..") && value.all kernelCharacter

def decimalText (value : Nat) : Text := (toString value).toList

/- parse_ndms_wireguard_identity -/
def parseNdmsWireguardIdentity (value : Text) : Option Nat :=
  let tag := text "Wireguard"
  let suffix := value.drop tag.length
  if value.length ≤ tag.length || value.take tag.length != tag then none
  else if suffix.isEmpty || suffix.length > 3 || (suffix.length > 1 && suffix.head? == some '0') then none
  else if !suffix.all isDigit then none
  else if Nat.ofDigitChars 10 suffix 0 > 126 then none
  else some (Nat.ofDigitChars 10 suffix 0)

def canonicalName (slot : Nat) : Text := text "Wireguard" ++ decimalText slot

def claimableInterface (name : Text) : Bool :=
  match parseNdmsWireguardIdentity name with
  | none => false
  | some slot => slot ≤ 126 && canonicalName slot == name

def validNdmsNativeObservationBinding (binding : ObservationBinding) : Bool :=
  lowerHex binding.authorityId 32 && binding.mutationEpoch != 0 && binding.baselineSequence != 0

def lifecycleEvidenceValid (evidence : LifecycleEvidence) (lifecycle : Lifecycle) (schemaVersion : UInt32) : Bool :=
  (if schemaVersion = kNdmsNativeOwnershipTombstoneSchemaVersion then
      lifecycle == .deletedSaveAcknowledgedUnverified && evidence.deletedKernelInterfaceName.any kernelInterfaceName
    else evidence.deletedKernelInterfaceName.isNone) &&
  lowerHex evidence.transactionId 32 && validNdmsNativeObservationBinding evidence.observationBinding &&
  observationCatalogRevision evidence.runtimeCatalogRevision &&
  decide (evidence.runtimeSequence > evidence.observationBinding.baselineSequence) &&
  observationCatalogRevision evidence.runningConfigCatalogRevision &&
  decide (evidence.runningConfigSequence > evidence.runtimeSequence)

def recordFieldsValid (record : Record) : Bool :=
  (record.schemaVersion == 2 || record.schemaVersion == kNdmsNativeOwnershipSchemaVersion ||
    record.schemaVersion == kNdmsNativeOwnershipTombstoneSchemaVersion) &&
  (record.schemaVersion != 2 || (record.lifecycle == .activeRunningOnly && record.lifecycleEvidence.isNone)) &&
  (record.schemaVersion != kNdmsNativeOwnershipTombstoneSchemaVersion || record.lifecycle == .deletedSaveAcknowledgedUnverified) &&
  (if record.lifecycle = .activeRunningOnly then record.lifecycleEvidence.isNone
    else record.lifecycleEvidence.any fun evidence => lifecycleEvidenceValid evidence record.lifecycle record.schemaVersion) &&
  claimableInterface record.interfaceName && lowerHex record.transactionId 32 &&
  record.marker == text "kpbr-ni-v1-" ++ record.transactionId && snapshotRevision record.snapshotRevision &&
  rciFullRevision record.targetFullRevision

def validLifecycleTransition (before after : Record) : Bool :=
  let deleting := after.lifecycle == .deletedSaveAcknowledgedUnverified
  if before = after then true
  else if before.schemaVersion = kNdmsNativeOwnershipTombstoneSchemaVersion then false
  else if (deleting && after.schemaVersion != kNdmsNativeOwnershipTombstoneSchemaVersion &&
        after.schemaVersion != kNdmsNativeOwnershipSchemaVersion) ||
      (!deleting && after.schemaVersion != kNdmsNativeOwnershipSchemaVersion) then false
  else if before.lifecycle = .deletedSaveAcknowledgedUnverified then false
  else if before.lifecycle = after.lifecycle then false
  else if before.targetFullRevision ≠ after.targetFullRevision then false
  else if before.lifecycle = .activeRunningOnly then
    after.lifecycle == .activeSaveAcknowledgedUnverified || after.lifecycle == .deletedSaveAcknowledgedUnverified
  else before.lifecycle == .activeSaveAcknowledgedUnverified && after.lifecycle == .deletedSaveAcknowledgedUnverified

end Validity

section Format

def kindName : Kind → Text
  | .wireguard => text "wireguard"
  | .amneziaWireguard => text "amnezia_wireguard"

def lifecycleName : Lifecycle → Text
  | .activeRunningOnly => text "active_running_only"
  | .activeSaveAcknowledgedUnverified => text "active_save_acknowledged_unverified"
  | .deletedSaveAcknowledgedUnverified => text "deleted_save_acknowledged_unverified"

def kLegacyHeader : Text := text "keen-pbr-native-ownership-v2"

def kHeader : Text := text "keen-pbr-native-ownership-v3"

def kTombstoneHeader : Text := text "keen-pbr-native-ownership-v4"

def headerOf (schemaVersion : UInt32) : Text :=
  if schemaVersion = 2 then kLegacyHeader
  else if schemaVersion = kNdmsNativeOwnershipTombstoneSchemaVersion then kTombstoneHeader
  else kHeader

def evidenceLines (schemaVersion : UInt32) : Option LifecycleEvidence → List Text
  | none => List.replicate (if schemaVersion = kNdmsNativeOwnershipTombstoneSchemaVersion then 9 else 8) (text "-")
  | some evidence =>
    [evidence.transactionId,evidence.observationBinding.authorityId,decimalText evidence.observationBinding.mutationEpoch.toNat,
      decimalText evidence.observationBinding.baselineSequence.toNat,evidence.runtimeCatalogRevision,decimalText
        evidence.runtimeSequence.toNat,
      evidence.runningConfigCatalogRevision,decimalText evidence.runningConfigSequence.toNat] ++
    if schemaVersion = kNdmsNativeOwnershipTombstoneSchemaVersion then [evidence.deletedKernelInterfaceName.getD []] else []

def recordLines (record : Record) : List Text :=
  [headerOf record.schemaVersion,record.interfaceName,record.transactionId,record.marker,kindName record.kind,record.snapshotRevision,
    record.targetFullRevision] ++
  if record.schemaVersion = 2 then [] else lifecycleName record.lifecycle :: evidenceLines record.schemaVersion record.lifecycleEvidence

/- The text of a record, and `serialize`, which throws for one that is not valid. -/
def recordText (record : Record) : Text := (recordLines record).flatMap fun line => line ++ ['\n']

def serialize (record : Record) : Option Text := if recordFieldsValid record then some (recordText record) else none

/- std::stoull throws beyond 64 bits. -/
def parseCanonicalNumber (value : Text) : Option UInt64 :=
  if value.isEmpty || (value.length > 1 && value.head? == some '0') || !value.all isDigit then none
  else if Nat.ofDigitChars 10 value 0 ≥ 2 ^ 64 then none
  else if decimalText (Nat.ofDigitChars 10 value 0) ≠ value then none
  else some (UInt64.ofNat (Nat.ofDigitChars 10 value 0))

def parseKind (kind : Text) : Option Kind :=
  if kind = text "wireguard" then some .wireguard
  else if kind = text "amnezia_wireguard" then some .amneziaWireguard
  else none

def parseLifecycle (lifecycle : Text) : Option Lifecycle :=
  if lifecycle = text "active_running_only" then some .activeRunningOnly
  else if lifecycle = text "active_save_acknowledged_unverified" then some .activeSaveAcknowledgedUnverified
  else if lifecycle = text "deleted_save_acknowledged_unverified" then some .deletedSaveAcknowledgedUnverified
  else none

def readEvidence (fields : List Text) (kernel : Option Text) : Option LifecycleEvidence :=
  match fields with
  | [transactionId,authorityId,epoch,baseline,runtimeRevision,runtime,runningRevision,running] => do
    let mutationEpoch ← parseCanonicalNumber epoch
    let baselineSequence ← parseCanonicalNumber baseline
    let runtimeSequence ← parseCanonicalNumber runtime
    let runningConfigSequence ← parseCanonicalNumber running
    some ⟨transactionId,⟨authorityId,mutationEpoch,baselineSequence⟩,runtimeRevision,runtimeSequence,runningRevision,
      runningConfigSequence,kernel⟩
  | _ => none

def evidenceFields (tombstone : Bool) : Nat := if tombstone then 9 else 8

def parseEvidence (tombstone : Bool) (fields : List Text) : Option (Option LifecycleEvidence) :=
  if fields.length ≠ evidenceFields tombstone then none
  else if fields.all (· == text "-") then some none
  else if fields.any (· == text "-") then none
  else (readEvidence (fields.take 8) (if tombstone then fields[8]? else none)).map some

def parseLifecycleFields (header : Text) (rest : List Text) : Option (UInt32 × Lifecycle × Option LifecycleEvidence) :=
  if header = kLegacyHeader then
    if rest.isEmpty then some (2,.activeRunningOnly,none) else none
  else if header = kHeader ∨ header = kTombstoneHeader then
    match rest with
    | [] => none
    | lifecycleText :: fields => do
      let evidence ← parseEvidence (decide (header = kTombstoneHeader)) fields
      let lifecycle ← parseLifecycle lifecycleText
      some (if header = kTombstoneHeader then kNdmsNativeOwnershipTombstoneSchemaVersion
        else kNdmsNativeOwnershipSchemaVersion,lifecycle,evidence)
  else none

def parseFields : List Text → Option Record
  | header :: interfaceName :: transactionId :: marker :: kindText :: snapshot :: target :: rest => do
    let kind ← parseKind kindText
    let (schemaVersion,lifecycle,evidence) ← parseLifecycleFields header rest
    let record : Record := ⟨schemaVersion,interfaceName,transactionId,marker,kind,snapshot,target,lifecycle,evidence⟩
    if recordFieldsValid record then some record else none
  | _ => none

def parse (body : Text) : Option Record := parseFields (lines (· == '\n') body)

end Format

section Revision

/- The digest of a list of fields, each hashed behind its length. -/
structure Digest where
  hash : List Text → Text

def revisionTag (schemaVersion : UInt32) : Text :=
  if schemaVersion = 2 then text "keen-pbr.ndms-native-ownership.revision.v2"
  else if schemaVersion = kNdmsNativeOwnershipTombstoneSchemaVersion then text "keen-pbr.ndms-native-ownership.revision.v4"
  else text "keen-pbr.ndms-native-ownership.revision.v3"

def ndmsNativeOwnershipRevision (digest : Digest) (record : Record) : Text :=
  (if record.lifecycle = .deletedSaveAcknowledgedUnverified then text "ndms-native-owner-tombstone-v1-"
    else if record.schemaVersion = 2 then text "ndms-native-owner-v2-"
    else text "ndms-native-owner-v3-") ++
  digest.hash ([revisionTag record.schemaVersion] ++ (if record.schemaVersion = 2 then [] else [decimalText record.schemaVersion.toNat]) ++
    [record.interfaceName,record.transactionId,record.marker,kindName record.kind,record.snapshotRevision,record.targetFullRevision] ++
    if record.schemaVersion = 2 then []
    else lifecycleName record.lifecycle ::
      match record.lifecycleEvidence with
      | none => [text "absent"]
      | some evidence => text "present" :: evidenceLines record.schemaVersion (some evidence))

end Revision

section RoundTrip

def Plain (line : Text) : Prop := ∀ c ∈ line, (c == '\n') = false

theorem plainAppend {first second : Text} (left : Plain first) (right : Plain second) : Plain (first ++ second) := by
  intro c mem
  rcases List.mem_append.mp mem with early | late
  · exact left c early
  · exact right c late

theorem plainHex {value : Text} {size : Nat} (hex : lowerHex value size = true) : Plain value := by
  intro c mem
  rw [lowerHex,Bool.and_eq_true,List.all_eq_true] at hex
  have digit := hex.2 c mem
  by_contra broken
  rw [Bool.not_eq_false,beq_iff_eq] at broken
  rw [broken] at digit
  revert digit
  decide

theorem plainTagged {tag value : Text} (plain : Plain tag) (tagged : taggedDigest tag value = true) : Plain value := by
  simp only [taggedDigest,Bool.and_eq_true,beq_iff_eq] at tagged
  rw [← List.take_append_drop tag.length value]
  refine plainAppend ?_ (plainHex tagged.2)
  rw [tagged.1.2]
  exact plain

theorem plainDecimal (value : Nat) : Plain (decimalText value) := by
  intro c mem
  have digits := (toStringDigits value).1
  rw [List.all_eq_true] at digits
  have digit := digits c mem
  by_contra broken
  rw [Bool.not_eq_false,beq_iff_eq] at broken
  rw [broken] at digit
  revert digit
  decide

theorem plainText {line : Text} (plain : line.all (fun c => !(c == '\n')) = true) : Plain line := by
  intro c mem
  simpa using List.all_eq_true.mp plain c mem

theorem plainKernel {value : Text} (kernel : kernelInterfaceName value = true) : Plain value := by
  intro c mem
  rw [kernelInterfaceName,Bool.and_eq_true,List.all_eq_true] at kernel
  have allowed := kernel.2 c mem
  by_contra broken
  rw [Bool.not_eq_false,beq_iff_eq] at broken
  rw [broken] at allowed
  revert allowed
  decide

theorem plainClaimable {name : Text} (claimable : claimableInterface name = true) : Plain name := by
  rw [claimableInterface] at claimable
  split at claimable
  · cases claimable
  · rename_i slot found
    simp only [Bool.and_eq_true,beq_iff_eq] at claimable
    rw [← claimable.2,canonicalName]
    exact plainAppend (plainText (by decide)) (plainDecimal slot)

structure ValidRecord (record : Record) : Prop where
  schema : record.schemaVersion = 2 ∧ record.lifecycleEvidence = none ∧ record.lifecycle = .activeRunningOnly ∨
    record.schemaVersion = 3 ∨ record.schemaVersion = 4
  evidence : ∀ evidence, record.lifecycleEvidence = some evidence →
    lifecycleEvidenceValid evidence record.lifecycle record.schemaVersion = true
  tombstone : record.schemaVersion = 4 → record.lifecycle = .deletedSaveAcknowledgedUnverified ∧ record.lifecycleEvidence.isSome = true
  claimable : claimableInterface record.interfaceName = true
  transaction : lowerHex record.transactionId 32 = true
  marker : record.marker = text "kpbr-ni-v1-" ++ record.transactionId
  snapshot : snapshotRevision record.snapshotRevision = true
  target : rciFullRevision record.targetFullRevision = true

theorem validRecord {record : Record} (valid : recordFieldsValid record = true) : ValidRecord record := by
  simp only [recordFieldsValid,Bool.and_eq_true,beq_iff_eq,Bool.or_eq_true,bne_iff_ne,Option.isNone_iff_eq_none] at valid
  obtain ⟨⟨⟨⟨⟨⟨⟨⟨schema,legacy⟩,deleted⟩,evidence⟩,claimable⟩,transaction⟩,marker⟩,snapshot⟩,target⟩ := valid
  refine ⟨?_,?_,?_,claimable,transaction,marker,snapshot,target⟩
  · rcases schema with (two | three) | four
    · rcases legacy with not_ | ⟨running,none_⟩
      · exact absurd two not_
      · exact .inl ⟨two,none_,running⟩
    · exact .inr (.inl three)
    · exact .inr (.inr four)
  · intro given found
    rw [found] at evidence
    split at evidence
    · cases evidence
    · simpa using evidence
  · intro four
    rcases deleted with not_ | deleted
    · exact absurd four not_
    · refine ⟨deleted,?_⟩
      rw [if_neg (by rw [deleted]; decide)] at evidence
      cases found : record.lifecycleEvidence with
      | none =>
        rw [found] at evidence
        cases evidence
      | some given => rfl

structure ValidEvidence (evidence : LifecycleEvidence) (schemaVersion : UInt32) : Prop where
  kernel : if schemaVersion = 4 then ∃ name, evidence.deletedKernelInterfaceName = some name ∧ kernelInterfaceName name = true
    else evidence.deletedKernelInterfaceName = none
  transaction : lowerHex evidence.transactionId 32 = true
  authority : lowerHex evidence.observationBinding.authorityId 32 = true
  runtime : observationCatalogRevision evidence.runtimeCatalogRevision = true
  running : observationCatalogRevision evidence.runningConfigCatalogRevision = true

theorem validEvidence {evidence : LifecycleEvidence} {lifecycle : Lifecycle} {schemaVersion : UInt32}
    (valid : lifecycleEvidenceValid evidence lifecycle schemaVersion = true) : ValidEvidence evidence schemaVersion := by
  simp only [lifecycleEvidenceValid,validNdmsNativeObservationBinding,Bool.and_eq_true] at valid
  obtain ⟨⟨⟨⟨⟨⟨kernel,transaction⟩,⟨authority,-⟩,-⟩,runtime⟩,-⟩,running⟩,-⟩ := valid
  refine ⟨?_,transaction,authority,runtime,running⟩
  split
  · rename_i four
    rw [if_pos (show schemaVersion = kNdmsNativeOwnershipTombstoneSchemaVersion from four),Bool.and_eq_true] at kernel
    exact (Option.any_eq_true ..).mp kernel.2
  · rename_i other
    rw [if_neg (show schemaVersion ≠ kNdmsNativeOwnershipTombstoneSchemaVersion from other)] at kernel
    exact Option.isNone_iff_eq_none.mp kernel

inductive RecordLine : Text → Prop where
  | word {line : Text} (plain : line.all (fun c => !(c == '\n')) = true) (short : line.length ≤ 100) : RecordLine line
  | claimable {line : Text} (named : claimableInterface line = true) : RecordLine line
  | hex {line : Text} (digits : lowerHex line 32 = true) : RecordLine line
  | marker {tag line : Text} (plain : tag.all (fun c => !(c == '\n')) = true) (short : tag.length ≤ 36) (digits : lowerHex line 32 = true) :
      RecordLine (tag ++ line)
  | tagged {tag line : Text} (plain : tag.all (fun c => !(c == '\n')) = true) (short : tag.length ≤ 36)
    (digest : taggedDigest tag line = true) :
      RecordLine line
  | decimal (value : UInt64) : RecordLine (decimalText value.toNat)
  | kernel {line : Text} (named : kernelInterfaceName line = true) : RecordLine line

theorem RecordLine.plain {line : Text} (kind : RecordLine line) : Plain line := by
  cases kind with
  | word plain short => exact plainText plain
  | claimable named => exact plainClaimable named
  | hex digits => exact plainHex digits
  | marker plain short digits => exact plainAppend (plainText plain) (plainHex digits)
  | tagged plain short digest => exact plainTagged (plainText plain) digest
  | decimal value => exact plainDecimal _
  | kernel named => exact plainKernel named

theorem evidenceKinds {record : Record} (valid : ValidRecord record) :
    ∀ line ∈ evidenceLines record.schemaVersion record.lifecycleEvidence, RecordLine line := by
  intro line mem
  cases found : record.lifecycleEvidence with
  | none =>
    rw [found,evidenceLines] at mem
    rw [List.eq_of_mem_replicate mem]
    exact .word (by decide) (by decide)
  | some evidence =>
    have given := validEvidence (valid.evidence evidence found)
    rw [found,evidenceLines] at mem
    rcases List.mem_append.mp mem with main | kernel
    · simp only [List.mem_cons,List.not_mem_nil,or_false] at main
      rcases main with rfl | rfl | rfl | rfl | rfl | rfl | rfl | rfl
      · exact .hex given.transaction
      · exact .hex given.authority
      · exact .decimal _
      · exact .decimal _
      · exact .tagged (by decide) (by decide) given.runtime
      · exact .decimal _
      · exact .tagged (by decide) (by decide) given.running
      · exact .decimal _
    · split at kernel
      · rename_i four
        have named := given.kernel
        rw [if_pos (show record.schemaVersion = 4 from four)] at named
        obtain ⟨name,same,allowed⟩ := named
        rw [same] at kernel
        cases List.mem_singleton.mp kernel
        exact .kernel allowed
      · cases kernel

theorem lineKinds {record : Record} (valid : ValidRecord record) : ∀ line ∈ recordLines record, RecordLine line := by
  intro line mem
  rw [recordLines] at mem
  rcases List.mem_append.mp mem with main | more
  · simp only [List.mem_cons,List.not_mem_nil,or_false] at main
    rcases main with rfl | rfl | rfl | rfl | rfl | rfl | rfl
    · rw [headerOf]
      split
      · exact .word (by decide) (by decide)
      · split
        · exact .word (by decide) (by decide)
        · exact .word (by decide) (by decide)
    · exact .claimable valid.claimable
    · exact .hex valid.transaction
    · rw [valid.marker]
      exact .marker (by decide) (by decide) valid.transaction
    · cases record.kind with
      | wireguard | amneziaWireguard => exact .word (by decide) (by decide)
    · exact .tagged (by decide) (by decide) valid.snapshot
    · exact .tagged (by decide) (by decide) valid.target
  · split at more
    · cases more
    · rcases List.mem_cons.mp more with rfl | mem
      · cases record.lifecycle with
        | activeRunningOnly | activeSaveAcknowledgedUnverified | deletedSaveAcknowledgedUnverified => exact .word (by decide) (by decide)
      · exact evidenceKinds valid line mem

theorem linesText {record : Record} (valid : ValidRecord record) : lines (· == '\n') (recordText record) = recordLines record := by
  have ended : fields (· == '\n') (recordText record) = recordLines record ++ [[]] :=
    fieldsEnded (· == '\n') rfl fun line mem => (lineKinds valid line mem).plain
  rw [lines,ended,List.getLast?_append]
  simp only [List.getLast?_singleton,Option.some_or,List.dropLast_concat]

theorem parseKindName (kind : Kind) : parseKind (kindName kind) = some kind := by
  cases kind with
  | wireguard | amneziaWireguard => decide

theorem parseLifecycleName (lifecycle : Lifecycle) : parseLifecycle (lifecycleName lifecycle) = some lifecycle := by
  cases lifecycle with
  | activeRunningOnly | activeSaveAcknowledgedUnverified | deletedSaveAcknowledgedUnverified => decide

theorem numberBack {value found : UInt64} (parsed : parseCanonicalNumber (decimalText value.toNat) = some found) : found = value := by
  have read : Nat.ofDigitChars 10 (decimalText value.toNat) 0 = value.toNat := (toStringDigits value.toNat).2.2
  rw [parseCanonicalNumber,read] at parsed
  split at parsed
  · cases parsed
  · split at parsed
    · cases parsed
    · split at parsed
      · cases parsed
      · cases parsed
        exact UInt64.ofNat_toNat

theorem readBack {evidence found : LifecycleEvidence} {schemaVersion : UInt32} {kernel : Option Text}
    (parsed : readEvidence ((evidenceLines schemaVersion (some evidence)).take 8) kernel = some found)
    (same : evidence.deletedKernelInterfaceName = kernel) : found = evidence := by
  simp only [evidenceLines,List.cons_append,List.nil_append,List.take_succ_cons,List.take_zero,readEvidence,bind,
    Option.bind_eq_some_iff] at parsed
  obtain ⟨epoch,first,baseline,second,runtime,third,running,fourth,parsed⟩ := parsed
  cases numberBack first
  cases numberBack second
  cases numberBack third
  cases numberBack fourth
  cases parsed
  rw [← same]

theorem evidenceBack {record : Record} (valid : ValidRecord record) {found : Option LifecycleEvidence}
    (parsed : parseEvidence (decide (record.schemaVersion = 4))
    (evidenceLines record.schemaVersion record.lifecycleEvidence) = some found) :
    found = record.lifecycleEvidence := by
  rw [parseEvidence] at parsed
  split at parsed
  · cases parsed
  · split at parsed
    · rename_i dashes
      cases given : record.lifecycleEvidence with
      | none =>
        cases parsed
        rfl
      | some evidence =>
        -- a transaction id is no dash
        have hex := (validEvidence (valid.evidence evidence given)).transaction
        rw [given,List.all_eq_true] at dashes
        have dash := dashes evidence.transactionId (by simp [evidenceLines])
        rw [beq_iff_eq] at dash
        rw [dash] at hex
        exact absurd hex (by decide)
    · split at parsed
      · cases parsed
      · rename_i whole _
        obtain ⟨evidence,read,rfl⟩ := Option.map_eq_some_iff.mp parsed
        cases given : record.lifecycleEvidence with
        | none =>
          rw [given,evidenceLines] at whole
          exact absurd (List.all_eq_true.mpr fun line mem => beq_iff_eq.mpr (List.eq_of_mem_replicate mem)) whole
        | some original =>
          have kernel := (validEvidence (valid.evidence original given)).kernel
          rw [given] at read
          congr 1
          refine readBack read ?_
          split at kernel
          · rename_i four
            obtain ⟨name,same,-⟩ := kernel
            simp [evidenceLines,four,kNdmsNativeOwnershipTombstoneSchemaVersion,same]
          · rename_i other
            simp [other,kernel]

theorem newerHeader {schemaVersion : UInt32} (newer : schemaVersion = 3 ∨ schemaVersion = 4) :
    schemaVersion ≠ 2 ∧ (headerOf schemaVersion = kTombstoneHeader ↔ schemaVersion = 4) ∧
      (headerOf schemaVersion = kHeader ∨ headerOf schemaVersion = kTombstoneHeader) ∧ headerOf schemaVersion ≠ kLegacyHeader := by
  rcases newer with rfl | rfl
  · decide
  · decide

theorem newerVersion {schemaVersion : UInt32} (newer : schemaVersion = 3 ∨ schemaVersion = 4) :
    (if schemaVersion = 4 then kNdmsNativeOwnershipTombstoneSchemaVersion else kNdmsNativeOwnershipSchemaVersion) = schemaVersion := by
  rcases newer with rfl | rfl
  · rfl
  · rfl

theorem lifecycleBack {record : Record} (valid : ValidRecord record) {found : UInt32 × Lifecycle × Option LifecycleEvidence}
    (parsed : parseLifecycleFields (headerOf record.schemaVersion)
      (if record.schemaVersion = 2 then []
        else lifecycleName record.lifecycle :: evidenceLines record.schemaVersion record.lifecycleEvidence) = some found) :
    found = (record.schemaVersion,record.lifecycle,record.lifecycleEvidence) := by
  unfold parseLifecycleFields at parsed
  rcases valid.schema with ⟨two,none_,running⟩ | newer
  · rw [headerOf,if_pos two,if_pos rfl,if_pos two] at parsed
    cases parsed
    rw [two,none_,running]
  · obtain ⟨versions,headers,known,legacy⟩ := newerHeader newer
    rw [if_neg legacy,if_pos known,if_neg versions] at parsed
    simp only [bind,Option.bind_eq_some_iff,parseLifecycleName,Option.bind_some,headers] at parsed
    obtain ⟨evidence,back,read⟩ := parsed
    rw [newerVersion newer,evidenceBack valid back] at read
    exact (Option.some.inj read).symm

theorem parseBack {record found : Record} (valid : recordFieldsValid record = true) (parsed : parse (recordText record) = some found) :
    found = record := by
  have fields := validRecord valid
  rw [parse,linesText fields,recordLines] at parsed
  simp only [List.cons_append,List.nil_append,parseFields,parseKindName,bind,Option.bind_some,Option.bind_eq_some_iff] at parsed
  obtain ⟨middle,read,parsed⟩ := parsed
  cases lifecycleBack fields read
  obtain ⟨-,same⟩ := Option.ite_none_right_eq_some.mp parsed
  exact (Option.some.inj same).symm

end RoundTrip

end KeenPbr.Ownership

import KeenPbr.OwnershipHistory
import KeenPbr.Splices
import Mathlib.Algebra.Order.BigOperators.Group.List
import Mathlib.Algebra.Order.Group.Nat

/-! What the text of a record is read back as, and the text of a record that was read. -/
namespace KeenPbr.Ownership
open Fields

section Numbers

theorem digitLead : ∀ {digit : Nat}, digit < 10 → digit ≠ 0 → Nat.digitChar digit ≠ '0' := by
  decide

theorem digitsLead {value : Nat} (positive : value ≠ 0) : (Nat.toDigits 10 value).head? ≠ some '0' := by
  induction value using Nat.strongRecOn with
  | ind value ih =>
    rw [Nat.toDigits_eq_if (by decide)]
    split
    · rename_i small
      rw [List.head?_cons,ne_eq,Option.some.injEq]
      exact digitLead small positive
    · rename_i large
      rw [List.head?_append_of_ne_nil _ Nat.toDigits_ne_nil]
      exact ih (value / 10) (by omega) (by omega)

theorem decimalDigits (value : Nat) : decimalText value = Nat.toDigits 10 value := by
  rw [decimalText,Nat.toString_eq_ofList_toDigits,String.toList_ofList]

theorem decimalLead (value : Nat) : (decide ((decimalText value).length > 1) && (decimalText value).head? == some '0') = false := by
  rw [decimalDigits]
  by_cases zero : value = 0
  · rw [zero]
    decide
  · have front := digitsLead zero
    rw [← beq_eq_false_iff_ne] at front
    rw [front,Bool.and_false]

theorem numberWhole (value : UInt64) : parseCanonicalNumber (decimalText value.toNat) = some value := by
  obtain ⟨digits,nonempty,number⟩ := toStringDigits value.toNat
  change (decimalText value.toNat).all isDigit = true at digits
  change (decimalText value.toNat).isEmpty = false at nonempty
  change Nat.ofDigitChars 10 (decimalText value.toNat) 0 = value.toNat at number
  rw [parseCanonicalNumber,digits,nonempty,decimalLead,number,if_neg (by decide),if_neg (Nat.not_le.mpr value.toNat_lt),
    if_neg (not_not.mpr rfl),
    UInt64.ofNat_toNat]

theorem numberWritten {value : Text} {found : UInt64} (parsed : parseCanonicalNumber value = some found) :
    decimalText found.toNat = value := by
  rw [parseCanonicalNumber] at parsed
  split at parsed
  · cases parsed
  · split at parsed
    · cases parsed
    · rename_i fits
      split at parsed
      · cases parsed
      · rename_i same
        cases parsed
        rw [UInt64.toNat_ofNat_of_lt' (Nat.not_le.mp fits)]
        exact not_not.mp same

end Numbers

section Reading
variable {record : Record} {evidence : LifecycleEvidence}

/- A deleted interface whose name is the dash that stands for a field without evidence. -/
def DashNamed (record : Record) : Prop :=
  ∃ evidence, record.lifecycleEvidence = some evidence ∧ evidence.deletedKernelInterfaceName = some (text "-")

theorem hexDash {value : Text} (hex : lowerHex value 32 = true) : value ≠ text "-" := by
  rintro rfl
  revert hex
  decide

theorem taggedDash {tag value : Text} (tagged : taggedDigest tag value = true) : value ≠ text "-" := by
  rintro rfl
  simp only [taggedDigest,Bool.and_eq_true,beq_iff_eq] at tagged
  have length : 1 = tag.length + 64 := tagged.1.1
  omega

theorem decimalDash (value : Nat) : decimalText value ≠ text "-" := by
  intro same
  have digits := (toStringDigits value).1
  rw [show (toString value).toList = text "-" from same] at digits
  revert digits
  decide

theorem evidenceDash (valid : ValidEvidence evidence record.schemaVersion) :
    text "-" ∈ evidenceLines record.schemaVersion (some evidence) ↔ evidence.deletedKernelInterfaceName = some (text "-") := by
  rw [evidenceLines]
  constructor
  · intro mem
    rcases List.mem_append.mp mem with main | kernel
    · simp only [List.mem_cons,List.not_mem_nil,or_false] at main
      rcases main with same | same | same | same | same | same | same | same
      · exact absurd same.symm (hexDash valid.transaction)
      · exact absurd same.symm (hexDash valid.authority)
      · exact absurd same.symm (decimalDash _)
      · exact absurd same.symm (decimalDash _)
      · exact absurd same.symm (taggedDash valid.runtime)
      · exact absurd same.symm (decimalDash _)
      · exact absurd same.symm (taggedDash valid.running)
      · exact absurd same.symm (decimalDash _)
    · split at kernel
      · rename_i four
        have named := valid.kernel
        rw [if_pos (show record.schemaVersion = 4 from four)] at named
        obtain ⟨name,given,-⟩ := named
        rw [given,Option.getD_some,List.mem_singleton] at kernel
        rw [given,kernel]
      · cases kernel
  · intro dash
    have named := valid.kernel
    split at named
    · rename_i four
      rw [if_pos (show record.schemaVersion = kNdmsNativeOwnershipTombstoneSchemaVersion from four),dash]
      exact List.mem_append_right _ List.mem_cons_self
    · rw [dash] at named
      cases named

theorem evidenceFilled (valid : ValidEvidence evidence record.schemaVersion) :
    ¬ (evidenceLines record.schemaVersion (some evidence)).all (· == text "-") = true := by
  intro whole
  have first : evidence.transactionId ∈ evidenceLines record.schemaVersion (some evidence) := List.mem_cons_self
  exact hexDash valid.transaction (beq_iff_eq.mp (List.all_eq_true.mp whole _ first))

theorem evidenceCount (schemaVersion : UInt32) (evidence : Option LifecycleEvidence) :
    (evidenceLines schemaVersion evidence).length = evidenceFields (decide (schemaVersion = 4)) := by
  by_cases four : schemaVersion = 4
  · subst four
    cases evidence with
    | none | some => rfl
  · have other : schemaVersion ≠ kNdmsNativeOwnershipTombstoneSchemaVersion := four
    cases evidence with
    | none =>
      rw [evidenceLines,if_neg other,List.length_replicate,evidenceFields,decide_eq_false four]
      exact rfl
    | some evidence =>
      rw [evidenceLines,if_neg other,evidenceFields,decide_eq_false four]
      exact rfl

theorem evidenceRead (valid : ValidRecord record) (named : ¬ DashNamed record) :
    parseEvidence (decide (record.schemaVersion = 4)) (evidenceLines record.schemaVersion record.lifecycleEvidence) = some
      record.lifecycleEvidence := by
  rw [parseEvidence,if_neg (not_not.mpr (evidenceCount ..))]
  cases given : record.lifecycleEvidence with
  | none =>
    rw [if_pos (List.all_eq_true.mpr fun line mem => beq_iff_eq.mpr (List.eq_of_mem_replicate mem))]
  | some evidence =>
    have fields := validEvidence (valid.evidence evidence given)
    have free : ¬ (evidenceLines record.schemaVersion (some evidence)).any (· == text "-") = true := by
      rw [List.any_beq',List.contains_iff_mem,evidenceDash fields]
      exact fun dash => named ⟨evidence,given,dash⟩
    have kernel : (if decide (record.schemaVersion = 4) = true then (evidenceLines record.schemaVersion (some evidence))[8]? else none) =
        evidence.deletedKernelInterfaceName := by
      have own := fields.kernel
      split at own
      · rename_i four
        obtain ⟨name,same,-⟩ := own
        simp [evidenceLines,four,kNdmsNativeOwnershipTombstoneSchemaVersion,same]
      · rename_i other
        simp [other,own]
    rw [if_neg (evidenceFilled fields),if_neg free,kernel]
    simp only [evidenceLines,List.cons_append,List.nil_append,List.take_succ_cons,List.take_zero,readEvidence,numberWhole,
      bind,Option.bind_some,
      Option.map_some]

theorem lifecycleRead (valid : ValidRecord record) (named : ¬ DashNamed record) :
    parseLifecycleFields (headerOf record.schemaVersion)
      (if record.schemaVersion = 2 then []
        else lifecycleName record.lifecycle :: evidenceLines record.schemaVersion record.lifecycleEvidence) =
    some (record.schemaVersion,record.lifecycle,record.lifecycleEvidence) := by
  unfold parseLifecycleFields
  rcases valid.schema with ⟨two,none_,running⟩ | newer
  · rw [headerOf,if_pos two,if_pos rfl,if_pos two,two,none_,running]
    exact rfl
  · obtain ⟨versions,headers,known,legacy⟩ := newerHeader newer
    rw [if_neg legacy,if_pos known,if_neg versions]
    simp only [headers,evidenceRead valid named,parseLifecycleName,bind,Option.bind_some,newerVersion newer]

theorem recordRead (valid : recordFieldsValid record = true) (named : ¬ DashNamed record) : parse (recordText record) = some record := by
  have fields := validRecord valid
  rw [parse,linesText fields,recordLines]
  simp only [List.cons_append,List.nil_append,parseFields,parseKindName,bind,Option.bind_some,lifecycleRead fields named]
  exact if_pos valid

theorem dashRefused (valid : recordFieldsValid record = true) (named : DashNamed record) : parse (recordText record) = none := by
  obtain ⟨evidence,given,dash⟩ := named
  have fields := validRecord valid
  have own := validEvidence (fields.evidence evidence given)
  have kernel := own.kernel
  have four : record.schemaVersion = 4 := by
    by_contra other
    rw [if_neg other,dash] at kernel
    cases kernel
  have some_ : (evidenceLines record.schemaVersion (some evidence)).any (· == text "-") = true := by
    rw [List.any_beq',List.contains_iff_mem,evidenceDash own]
    exact dash
  have refused : parseEvidence (decide (record.schemaVersion = 4))
    (evidenceLines record.schemaVersion record.lifecycleEvidence) = none := by
    rw [given,parseEvidence,if_neg (not_not.mpr (evidenceCount ..)),if_neg (evidenceFilled own),if_pos some_]
  obtain ⟨versions,headers,known,legacy⟩ := newerHeader (.inr four)
  rw [parse,linesText fields,recordLines,if_neg versions]
  simp only [List.cons_append,List.nil_append,parseFields,parseKindName,bind,Option.bind_some,parseLifecycleFields,
    if_neg legacy,if_pos known,
    decide_eq_decide.mpr headers,refused,Option.bind_none]

end Reading

section Writing
variable {record : Record}

theorem kindWritten {written : Text} {kind : Kind} (parsed : parseKind written = some kind) : kindName kind = written := by
  rw [parseKind] at parsed
  split at parsed
  · rename_i same
    cases parsed
    exact same.symm
  · split at parsed
    · rename_i same
      cases parsed
      exact same.symm
    · cases parsed

theorem lifecycleNamed {written : Text} {lifecycle : Lifecycle} (parsed : parseLifecycle written = some lifecycle) :
    lifecycleName lifecycle = written := by
  rw [parseLifecycle] at parsed
  split at parsed
  · rename_i same
    cases parsed
    exact same.symm
  · split at parsed
    · rename_i same
      cases parsed
      exact same.symm
    · split at parsed
      · rename_i same
        cases parsed
        exact same.symm
      · cases parsed

theorem evidenceWritten {tombstone : Bool} {fields : List Text} {found : Option LifecycleEvidence}
    (parsed : parseEvidence tombstone fields = some found) : evidenceLines (if tombstone then 4 else 3) found = fields := by
  rw [parseEvidence] at parsed
  split at parsed
  · cases parsed
  · rename_i count
    rw [ne_eq,not_not] at count
    split at parsed
    · rename_i dashes
      cases parsed
      have same := List.eq_replicate_iff.mpr ⟨count,fun line mem => beq_iff_eq.mp (List.all_eq_true.mp dashes line mem)⟩
      rw [same]
      cases tombstone with
      | false | true => rfl
    · split at parsed
      · cases parsed
      · obtain ⟨evidence,read,rfl⟩ := Option.map_eq_some_iff.mp parsed
        have parts := List.take_append_drop 8 fields
        have tail : fields.drop 8 = if tombstone then [(fields[8]?).getD []] else [] := by
          cases tombstone with
          | false => exact List.drop_eq_nil_of_le (Nat.le_of_eq count)
          | true =>
            have bound : 8 < fields.length := Nat.lt_of_lt_of_eq (by decide) count.symm
            have ended : fields.drop 9 = [] := List.drop_eq_nil_of_le (Nat.le_of_eq count)
            rw [List.drop_eq_getElem_cons bound,ended,List.getElem?_eq_getElem bound]
            exact rfl
        unfold readEvidence at read
        split at read
        · rename_i shape
          simp only [bind,Option.bind_eq_some_iff] at read
          obtain ⟨epoch,first,baseline,second,runtime,third,running,fourth,read⟩ := read
          cases read
          rw [shape,tail] at parts
          rw [← parts,evidenceLines,numberWritten first,numberWritten second,numberWritten third,numberWritten fourth]
          cases tombstone with
          | false | true => rfl
        · cases read

theorem lifecycleWritten {header : Text} {rest : List Text} {schemaVersion : UInt32} {lifecycle : Lifecycle}
    {evidence : Option LifecycleEvidence}
    (parsed : parseLifecycleFields header rest = some (schemaVersion,lifecycle,evidence)) :
    headerOf schemaVersion = header ∧
      (if schemaVersion = 2 then [] else lifecycleName lifecycle :: evidenceLines schemaVersion evidence) = rest := by
  unfold parseLifecycleFields at parsed
  split at parsed
  · rename_i legacy
    split at parsed
    · rename_i empty
      cases parsed
      exact ⟨legacy.symm,(List.isEmpty_iff.mp empty).symm⟩
    · cases parsed
  · split at parsed
    · rename_i known
      split at parsed
      · cases parsed
      · rename_i lifecycleText fields
        simp only [bind,Option.bind_eq_some_iff] at parsed
        obtain ⟨found,read,named,told,same⟩ := parsed
        cases same
        have lines := evidenceWritten read
        rw [lifecycleNamed told]
        by_cases tombstone : header = kTombstoneHeader
        · rw [decide_eq_true tombstone,if_pos rfl] at lines
          rw [if_pos tombstone]
          refine ⟨tombstone.symm,?_⟩
          rw [if_neg (by decide)]
          exact congrArg _ lines
        · rw [decide_eq_false tombstone,if_neg (by decide)] at lines
          rw [if_neg tombstone]
          refine ⟨(known.resolve_right tombstone).symm,?_⟩
          rw [if_neg (by decide)]
          exact congrArg _ lines
    · cases parsed

theorem fieldsWritten {cut : List Text} (parsed : parseFields cut = some record) :
    recordLines record = cut ∧ recordFieldsValid record = true := by
  unfold parseFields at parsed
  split at parsed
  · simp only [bind,Option.bind_eq_some_iff] at parsed
    obtain ⟨kind,kinds,⟨schemaVersion,lifecycle,evidence⟩,behind,parsed⟩ := parsed
    obtain ⟨valid,same⟩ := Option.ite_none_right_eq_some.mp parsed
    cases same
    obtain ⟨headed,rest⟩ := lifecycleWritten behind
    refine ⟨?_,valid⟩
    rw [recordLines,kindWritten kinds,headed,rest]
    exact rfl
  · cases parsed

theorem bodyWritten {body : Text} (parsed : parse body = some record) : recordText record = body ∨ recordText record = body ++ ['\n'] := by
  rw [recordText,(fieldsWritten parsed).1]
  exact linesJoined (fun d cut => beq_iff_eq.mp cut) body

end Writing

section Sizes
variable {record : Record}

theorem decimalShort (value : UInt64) : (decimalText value.toNat).length ≤ 20 := by
  rw [decimalDigits]
  exact (Nat.length_toDigits_le_iff (by decide) (by decide)).mpr (Nat.lt_trans value.toNat_lt (by decide))

theorem hexLength {value : Text} {size : Nat} (hex : lowerHex value size = true) : value.length = size := by
  rw [lowerHex,Bool.and_eq_true,beq_iff_eq] at hex
  exact hex.1

theorem taggedLength {tag value : Text} (tagged : taggedDigest tag value = true) : value.length = tag.length + 64 := by
  simp only [taggedDigest,Bool.and_eq_true,beq_iff_eq] at tagged
  exact tagged.1.1

theorem claimableShort {name : Text} (claimable : claimableInterface name = true) : name.length ≤ 12 := by
  rw [claimableInterface] at claimable
  split at claimable
  · cases claimable
  · rename_i slot found
    simp only [Bool.and_eq_true,beq_iff_eq,decide_eq_true_eq] at claimable
    rw [← claimable.2,canonicalName,List.length_append,decimalDigits]
    have digits : (Nat.toDigits 10 slot).length ≤ 3 :=
      (Nat.length_toDigits_le_iff (by decide) (by decide)).mpr (Nat.lt_of_le_of_lt claimable.1 (by decide))
    have tag : (text "Wireguard").length = 9 := by
      decide
    omega

theorem RecordLine.short {line : Text} (kind : RecordLine line) : line.length ≤ 100 := by
  cases kind with
  | word plain short => exact short
  | claimable named => exact Nat.le_trans (claimableShort named) (by decide)
  | hex digits => exact Nat.le_trans (Nat.le_of_eq (hexLength digits)) (by decide)
  | marker plain short digits =>
    rw [List.length_append,hexLength digits]
    omega
  | tagged plain short digest =>
    rw [taggedLength digest]
    omega
  | decimal value => exact Nat.le_trans (decimalShort value) (by decide)
  | kernel named =>
    simp only [kernelInterfaceName,Bool.and_eq_true,Bool.not_eq_true',Bool.or_eq_false_iff,decide_eq_false_iff_not] at named
    omega

theorem linesFew (record : Record) : (recordLines record).length ≤ 17 := by
  have count := evidenceCount record.schemaVersion record.lifecycleEvidence
  have most : evidenceFields (decide (record.schemaVersion = 4)) ≤ 9 := by
    cases decide (record.schemaVersion = 4) with
    | false | true => decide
  rw [recordLines]
  split
  · exact Nat.le_add_right 7 10
  · simp only [List.cons_append,List.nil_append,List.length_cons,count]
    omega

theorem textShort (valid : recordFieldsValid record = true) : (recordText record).length ≤ kMaximumRecordBytes := by
  have each : ∀ size ∈ (recordLines record).map (fun line => (line ++ ['\n']).length), size ≤ 101 := by
    intro size mem
    obtain ⟨line,listed,rfl⟩ := List.mem_map.mp mem
    rw [List.length_append]
    exact Nat.succ_le_succ (lineKinds (validRecord valid) line listed).short
  have sum := List.sum_le_card_nsmul _ 101 each
  have few := linesFew record
  rw [List.length_map,nsmul_eq_mul,Nat.cast_id] at sum
  rw [recordText,List.length_flatMap,kMaximumRecordBytes]
  omega

theorem textFilled : (recordText record).isEmpty = false := by
  rw [recordText,recordLines,List.cons_append,List.flatMap_cons]
  simp

theorem recordFileRead (valid : recordFieldsValid record = true) {w : World} {inode : Nat}
    (found : w.lookup (.claim record.interfaceName) = some inode) (linked : w.links inode = 1)
    (content : (w.files inode).content = recordText record) :
    readLocked w record.interfaceName false =
      match parse (recordText record) with
      | none => .unsafe_
      | some read => if read.interfaceName = record.interfaceName then .valid read inode else .unsafe_ := by
  have sized : ¬ (false || w.links inode != 1 || (recordText record).isEmpty ||
    decide ((recordText record).length > kMaximumRecordBytes)) = true := by
    rw [linked,textFilled,decide_eq_false (Nat.not_lt.mpr (textShort valid))]
    decide
  unfold readLocked
  rw [found]
  simp only [content]
  exact if_neg sized

end Sizes

section Result

def dashTombstone : Record :=
  { sampleTombstone with
    lifecycleEvidence := sampleTombstone.lifecycleEvidence.map fun evidence =>
      { evidence with deletedKernelInterfaceName := some (text "-") } }

def dashRun : List Act :=
  [Act.makeDirectory,.syncParent] ++ untilRename (.publish sampleClaim) [] 0 ++ [Act.advance {},.advance {}] ++
    untilRename (.replaceExact sampleClaim dashTombstone) [.claim (text "Wireguard0")] 1 ++ [Act.advance {},.advance {}] ++
    readsClaim [.claim (text "Wireguard0")]

/- A valid record is read from its text unless the placeholder is taken for its interface, and then its file stays unreadable; and
every body that is read is the text of what was read, but for a missing line break at its end. -/
theorem recordsReadable (record : Record) :
    (recordFieldsValid record = true → ((serialize record).bind parse = some record ↔ ¬ DashNamed record) ∧
      ∀ (w : World) (inode : Nat), w.lookup (.claim record.interfaceName) = some inode → w.links inode = 1 →
        (w.files inode).content = recordText record →
        (readLocked w record.interfaceName false = .valid record inode ↔ ¬ DashNamed record) ∧
        (readLocked w record.interfaceName false = .unsafe_ ↔ DashNamed record)) ∧
    ∀ body, parse body = some record → serialize record = some body ∨ serialize record = some (body ++ ['\n']) := by
  constructor
  · intro valid
    have written : serialize record = some (recordText record) := if_pos valid
    refine ⟨?_,fun w inode found linked content => ?_⟩
    · rw [written,Option.bind_some]
      by_cases named : DashNamed record
      · rw [dashRefused valid named]
        exact ⟨nofun,fun other => absurd named other⟩
      · rw [recordRead valid named]
        exact ⟨fun _ => named,fun _ => rfl⟩
    · have read := recordFileRead valid found linked content
      by_cases named : DashNamed record
      · rw [read,dashRefused valid named]
        exact ⟨⟨fun other => (nomatch other),fun other => absurd named other⟩,⟨fun _ => named,fun _ => rfl⟩⟩
      · have own : readLocked w record.interfaceName false = .valid record inode := by
          rw [read,recordRead valid named]
          exact if_pos rfl
        rw [own]
        exact ⟨⟨fun _ => named,fun _ => rfl⟩,⟨fun other => (nomatch other),fun other => absurd other named⟩⟩
  · intro body parsed
    have valid := (fieldsWritten parsed).2
    rcases bodyWritten parsed with same | ended
    · exact .inl ((if_pos valid).trans (congrArg some same))
    · exact .inr ((if_pos valid).trans (congrArg some ended))

theorem sampleTombstoneReadable :
    recordFieldsValid sampleTombstone = true ∧ (serialize sampleTombstone).bind parse = some sampleTombstone := by
  have valid : recordFieldsValid sampleTombstone = true := by
    decide +kernel
  refine ⟨valid,((recordsReadable sampleTombstone).1 valid).1.mpr ?_⟩
  rintro ⟨evidence,given,dash⟩
  cases given
  revert dash
  decide

theorem dashUnread : recordFieldsValid dashTombstone = true ∧ (serialize dashTombstone).bind parse = none ∧
    (worldAfter ⟨fun _ => []⟩ dashRun).body (text "Wireguard0") = some (recordText dashTombstone) ∧
    (worldAfter ⟨fun _ => []⟩ dashRun).reports = [⟨.publish sampleClaim,.done⟩,⟨.replaceExact sampleClaim dashTombstone,.refused⟩,
      ⟨.read (text "Wireguard0"),.found .unreadable⟩] := by
  refine ⟨by decide +kernel,by decide +kernel,by decide +kernel,by decide +kernel⟩

end Result

end KeenPbr.Ownership

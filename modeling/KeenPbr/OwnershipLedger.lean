import KeenPbr.OwnershipStore

/-! The ownership ledger over every run: what the file of a claim may hold after any calls, failures and
losses of power. -/
namespace KeenPbr.Ownership
open Tables Durable

section Records

structure SameClaim (before after : Record) : Prop where
  interfaceName : after.interfaceName = before.interfaceName
  transactionId : after.transactionId = before.transactionId
  marker : after.marker = before.marker
  kind : after.kind = before.kind
  snapshotRevision : after.snapshotRevision = before.snapshotRevision
  targetFullRevision : after.targetFullRevision = before.targetFullRevision

def Lifecycle.rank : Lifecycle → Nat
  | .activeRunningOnly => 0
  | .activeSaveAcknowledgedUnverified => 1
  | .deletedSaveAcknowledgedUnverified => 2

structure Grows (before after : Record) : Prop where
  same : SameClaim before after
  forward : before.lifecycle.rank ≤ after.lifecycle.rank

theorem Grows.refl (record : Record) : Grows record record := ⟨⟨rfl,rfl,rfl,rfl,rfl,rfl⟩,Nat.le_refl _⟩

theorem Grows.trans {first second third : Record} (left : Grows first second) (right : Grows second third) : Grows first third where
  same := {
    interfaceName := right.same.interfaceName.trans left.same.interfaceName
    transactionId := right.same.transactionId.trans left.same.transactionId
    marker := right.same.marker.trans left.same.marker
    kind := right.same.kind.trans left.same.kind
    snapshotRevision := right.same.snapshotRevision.trans left.same.snapshotRevision
    targetFullRevision := right.same.targetFullRevision.trans left.same.targetFullRevision }
  forward := Nat.le_trans left.forward right.forward

theorem transitionForward {before after : Record} (valid : validLifecycleTransition before after = true) :
    before = after ∨ after.targetFullRevision = before.targetFullRevision ∧ before.lifecycle.rank < after.lifecycle.rank := by
  simp only [validLifecycleTransition] at valid
  split at valid
  · rename_i same
    exact .inl same
  · refine .inr ?_
    split at valid
    · cases valid
    · split at valid
      · cases valid
      · split at valid
        · cases valid
        · split at valid
          · cases valid
          · split at valid
            · cases valid
            · rename_i target
              rw [ne_eq,Decidable.not_not] at target
              refine ⟨target.symm,?_⟩
              split at valid
              · rename_i running
                rw [running]
                simp only [Bool.or_eq_true,beq_iff_eq] at valid
                rcases valid with saved | deleted
                · rw [saved]
                  decide
                · rw [deleted]
                  decide
              · simp only [Bool.and_eq_true,beq_iff_eq] at valid
                rw [valid.1,valid.2]
                decide

theorem replacementForward {expected replacement : Record} (admissible : (Call.replaceExact expected replacement).admissible = true) :
    SameClaim expected replacement ∧ (expected = replacement ∨ expected.lifecycle.rank < replacement.lifecycle.rank) := by
  simp only [Call.admissible,Bool.and_eq_true,beq_iff_eq] at admissible
  obtain ⟨⟨⟨⟨⟨⟨⟨-,-⟩,name⟩,transaction⟩,marker⟩,kind⟩,snapshot⟩,transition⟩ := admissible
  rcases transitionForward transition with same | ⟨target,forward⟩
  · rw [same]
    exact ⟨(Grows.refl replacement).same,.inl rfl⟩
  · exact ⟨⟨name.symm,transaction.symm,marker.symm,kind.symm,snapshot.symm,target⟩,.inr forward⟩

theorem writtenValid {call : Call} (admissible : call.admissible = true) {record : Record} (written : call.written = some record) :
    recordFieldsValid record = true := by
  cases call with
  | publish own =>
    cases written
    exact (Bool.and_eq_true_iff.mp admissible).1
  | replaceExact expected replacement =>
    cases written
    simp only [Call.admissible,Bool.and_eq_true] at admissible
    exact admissible.1.1.1.1.1.1.2
  | removeExact | removeV4TombstoneExact | read => cases written

end Records

section Invariant
variable {digest : Digest} {acts : List Act} {w after : World}

def Given (acts : List Act) (record : Record) : Prop :=
  ∃ call listing, Act.begin call listing ∈ acts ∧ call.written = some record

def World.body (w : World) (interface : Text) : Option Text := (w.lookup (.claim interface)).map fun inode => (w.files inode).content

structure Whole (acts : List Act) (w : World) (interface : Text) (inode : Nat) : Prop where
  below : inode < w.next
  flushed : (w.files inode).flushed = true
  record : ∃ record, Given acts record ∧ recordFieldsValid record = true ∧ record.interfaceName = interface ∧
    (w.files inode).content = recordText record

/- A name of create_temporary. -/
def Name.isTemporary : Name → Bool
  | .claim _ => false
  | .temporary _ _ _ => true

def Removable (digest : Digest) (call : Call) (record : Record) : Prop :=
  match call with
  | .removeExact expected => record = expected
  | .removeV4TombstoneExact _ revision => forgettable record = true ∧ ndmsNativeOwnershipRevision digest record = revision
  | _ => False

def StageOk (digest : Digest) (w : World) (call : Call) : Stage → Prop
  | .writing temporary inode _ =>
    temporary.isTemporary = true ∧ inode < w.next ∧ ∀ interface, ¬w.disk.Possible (.claim interface) (some inode)
  | .naming temporary inode _ =>
    temporary.isTemporary = true ∧ inode < w.next ∧ (w.files inode).flushed = true ∧
      ∃ record, call.written = some record ∧ (w.files inode).content = recordText record
  | .retiring temporary | .discarding temporary => temporary.isTemporary = true
  | .unlinking record _ => Removable digest call record
  | .confirming => call.written.isSome = true ∧ w.body call.interface = call.written.map recordText
  | .verifying => w.disk.unsynced = []
  | _ => True

structure JobOk (digest : Digest) (acts : List Act) (w : World) (job : Job) : Prop where
  admissible : job.call.admissible = true
  given : ∀ record, job.call.written = some record → Given acts record
  stage : StageOk digest w job.call job.stage

structure Sound (digest : Digest) (acts : List Act) (w : World) : Prop where
  whole : ∀ interface inode, w.disk.Possible (.claim interface) (some inode) → Whole acts w interface inode
  job : ∀ job, w.active = some job → JobOk digest acts w job

structure Quiet (w after : World) : Prop where
  lookup : ∀ interface, after.lookup (.claim interface) = w.lookup (.claim interface)
  possible : ∀ interface file, after.disk.Possible (.claim interface) file → w.disk.Possible (.claim interface) file
  files : ∀ interface inode, w.disk.Possible (.claim interface) (some inode) → after.files inode = w.files inode
  next : w.next ≤ after.next
  home : w.home = .kept → after.home = .kept

structure Loud (w after : World) (interface : Text) (file : Option Nat) : Prop where
  own : after.lookup (.claim interface) = file
  others : ∀ other, other ≠ interface → after.lookup (.claim other) = w.lookup (.claim other)
  possible : ∀ other found, after.disk.Possible (.claim other) found → w.disk.Possible (.claim other) found ∨
    other = interface ∧ found = file
  files : after.files = w.files
  next : after.next = w.next
  home : after.home = w.home

inductive Moves (digest : Digest) : Call → Option Text → Option Text → Prop
  | publish {record : Record} : Moves digest (.publish record) none (some (recordText record))
  | replace {expected replacement : Record} (read : parse (recordText expected) = some expected) (same : SameClaim expected replacement)
      (forward : expected = replacement ∨ expected.lifecycle.rank < replacement.lifecycle.rank)
        (valid : recordFieldsValid replacement = true) :
      Moves digest (.replaceExact expected replacement) (some (recordText expected)) (some (recordText replacement))
  | remove {expected : Record} (read : parse (recordText expected) = some expected)
    (active : expected.lifecycle ≠ .deletedSaveAcknowledgedUnverified) :
      Moves digest (.removeExact expected) (some (recordText expected)) none
  | forget {record : Record} (read : parse (recordText record) = some record) (tombstone : forgettable record = true) :
      Moves digest (.removeV4TombstoneExact record.interfaceName (ndmsNativeOwnershipRevision digest record))
        (some (recordText record)) none

inductive Turn (digest : Digest) (acts : List Act) (w : World) (call : Call) (after : World) : Prop
  | quiet (quiet : Quiet w after)
  | loud {file : Option Nat} (loud : Loud w after call.interface file)
    (whole : ∀ inode, file = some inode → Whole acts w call.interface inode)
      (moves : Moves digest call (w.body call.interface) (file.map fun inode => (w.files inode).content))

def AnswerOk (acts : List Act) (w after : World) (call : Call) : Answer → Prop
  | .done => call.admissible = true ∧ after.disk.unsynced = [] ∧ after.body call.interface = call.written.map recordText
  | .found (.valid record) => w.body call.interface = some (recordText record) ∧ Given acts record ∧ record.interfaceName = call.interface
  | _ => True

structure Outcome (digest : Digest) (acts : List Act) (w : World) (call : Call) (after : World) : Prop where
  turn : Turn digest acts w call after
  next : ∀ job, after.active = some job → JobOk digest acts after job
  reports : after.reports = w.reports ∨ ∃ answer, after.reports = w.reports ++ [⟨call,answer⟩] ∧ AnswerOk acts w after call answer

theorem Quiet.refl (w : World) : Quiet w w := ⟨fun _ => rfl,fun _ _ h => h,fun _ _ _ => rfl,Nat.le_refl _,id⟩

theorem quietTemporary {change : Change Name Nat} (apart : ∀ interface, change.on (.claim interface) = none) :
    Quiet w (w.change change) where
  lookup := by
    intro interface
    rw [World.lookup,World.change,visibleChange,apart]
    rfl
  possible := by
    intro interface file possible
    rcases possibleChange possible with old | made
    · exact old
    · rw [apart] at made
      cases made
  files := fun _ _ _ => rfl
  next := Nat.le_refl _
  home := id

theorem dropTemporary {temporary : Name} (named : temporary.isTemporary = true) (interface : Text) :
    (Change.drop temporary : Change Name Nat).on (.claim interface) = none := by
  cases temporary with
  | claim other => cases named
  | temporary pid sequence target => rfl

theorem quietSync : Quiet w w.sync where
  lookup := fun _ => rfl
  possible := by
    intro interface file possible
    rw [possibleSync possible]
    exact possibleVisible
  files := fun _ _ _ => rfl
  next := Nat.le_refl _
  home := id

theorem quietWrite {inode : Nat} {file : File} (unnamed : ∀ interface, ¬w.disk.Possible (.claim interface) (some inode)) :
    Quiet w (w.write inode file) where
  lookup := fun _ => rfl
  possible := fun _ _ possible => possible
  files := by
    intro interface other possible
    refine Function.update_of_ne ?_ ..
    rintro rfl
    exact unnamed interface possible
  next := Nat.le_refl _
  home := id

section Steps
variable {call : Call} {input : Input}

theorem Turn.same {other : World} (turn : Turn digest acts w call after) (disk : other.disk = after.disk)
    (files : other.files = after.files)
    (next : other.next = after.next) (home : other.home = after.home) : Turn digest acts w call other := by
  have lookup (name : Name) : other.lookup name = after.lookup name := by
    rw [World.lookup,disk]
    rfl
  cases turn with
  | quiet quiet =>
    refine .quiet ⟨fun interface => (lookup _).trans (quiet.lookup interface),fun interface file possible =>
      ?_,fun interface inode possible => ?_,?_,?_⟩
    · rw [disk] at possible
      exact quiet.possible interface file possible
    · rw [files]
      exact quiet.files interface inode possible
    · rw [next]
      exact quiet.next
    · rw [home]
      exact quiet.home
  | loud loud whole moves =>
    refine .loud ⟨(lookup _).trans loud.own,fun interface differs => (lookup _).trans (loud.others interface differs),
      fun interface file possible => ?_,
      files.trans loud.files,next.trans loud.next,home.trans loud.home⟩ whole moves
    rw [disk] at possible
    exact loud.possible interface file possible

theorem Outcome.goOn {stage : Stage} (turn : Turn digest acts w call after) (reports : after.reports = w.reports)
    (admissible : call.admissible = true) (given : ∀ record, call.written = some record → Given acts record)
    (ok : StageOk digest (after.goOn call stage) call stage) : Outcome digest acts w call (after.goOn call stage) where
  turn := turn.same rfl rfl rfl rfl
  next := by
    intro job found
    cases found
    exact ⟨admissible,given,ok⟩
  reports := .inl reports

theorem Outcome.finish {answer : Answer} (turn : Turn digest acts w call after) (reports : after.reports = w.reports)
    (ok : AnswerOk acts w (after.finish call answer) call answer) : Outcome digest acts w call (after.finish call answer) where
  turn := turn.same rfl rfl rfl rfl
  next := by
    intro job found
    cases found
  reports := by
    refine .inr ⟨answer,?_,ok⟩
    rw [World.finish,reports]

theorem readValid {interface : Text} {fails : Bool} {record : Record} {inode : Nat}
    (read : readLocked w interface fails = .valid record inode) :
    w.lookup (.claim interface) = some inode ∧ parse (w.files inode).content = some record ∧ record.interfaceName = interface := by
  rw [readLocked] at read
  split at read
  · split at read
    · cases read
    · cases read
  · rename_i found looked
    split at read
    · cases read
    · split at read
      · cases read
      · rename_i parsed same
        split at read
        · rename_i named
          cases read
          exact ⟨looked,same,named⟩
        · cases read

theorem readAbsent {interface : Text} {fails : Bool} (read : readLocked w interface fails = .absent) :
    w.lookup (.claim interface) = none := by
  rw [readLocked] at read
  split at read
  · assumption
  · split at read
    · cases read
    · split at read
      · cases read
      · split at read
        · cases read
        · cases read

variable (sound : Sound digest acts w)
include sound

theorem readWhole {interface : Text} {fails : Bool} {record : Record} {inode : Nat}
    (read : readLocked w interface fails = .valid record inode) :
    w.body interface = some (recordText record) ∧ parse (recordText record) = some record ∧ Given acts record ∧
      record.interfaceName = interface := by
  obtain ⟨found,parsed,named⟩ := readValid read
  have possible : w.disk.Possible (.claim interface) (some inode) := by
    rw [← found]
    exact possibleVisible
  obtain ⟨original,given,valid,-,content⟩ := (sound.whole interface inode possible).record
  rw [content] at parsed
  have same := parseBack valid parsed
  subst same
  refine ⟨?_,parsed,given,named⟩
  rw [World.body,found]
  exact congrArg some content

section OneCall
variable (admissible : call.admissible = true) (given : ∀ record, call.written = some record → Given acts record)
include admissible given

omit sound admissible given in
theorem refusing (answer : Answer) (plain : answer = .refused ∨ answer = .found .absent ∨ answer = .found .unreadable) :
    Outcome digest acts w call (w.finish call answer) := by
  refine Outcome.finish (.quiet (Quiet.refl w)) rfl ?_
  rcases plain with rfl | rfl | rfl
  · trivial
  · trivial
  · trivial

omit sound admissible given in
theorem failing (quiet : Quiet w after) (reports : after.reports = w.reports) :
    Outcome digest acts w call (after.finish call call.failure) := by
  refine Outcome.finish (.quiet quiet) reports ?_
  cases call with
  | publish | replaceExact | removeExact | removeV4TombstoneExact | read => trivial

omit sound in
theorem onward {stage : Stage} (ok : StageOk digest (w.goOn call stage) call stage) : Outcome digest acts w call (w.goOn call stage) :=
  Outcome.goOn (.quiet (Quiet.refl w)) rfl admissible given ok

omit sound admissible given in
theorem cleanEntryQuiet (w : World) (input : Input) (name : Name) :
    Quiet w (cleanEntry w name input).1 ∧ (cleanEntry w name input).1.reports = w.reports := by
  cases name with
  | claim interface => exact ⟨Quiet.refl w,rfl⟩
  | temporary pid sequence target =>
    have dropped : Quiet w (w.change (.drop (.temporary pid sequence target))) := quietTemporary (dropTemporary rfl)
    rw [cleanEntry]
    split
    · exact ⟨Quiet.refl w,rfl⟩
    · split
      · exact ⟨Quiet.refl w,rfl⟩
      · simp only
        split
        · exact ⟨dropped,rfl⟩
        · split
          · exact ⟨dropped,rfl⟩
          · exact ⟨dropped,rfl⟩

omit sound in
theorem cleaningOutcome (left : List Name) (entries : Nat) (changed : Bool) :
    Outcome digest acts w call (stepCleaning w call input left entries changed) := by
  cases left with
  | nil =>
    rw [stepCleaning]
    split
    · exact failing (Quiet.refl w) rfl
    · refine onward admissible given ?_
      split
      · trivial
      · trivial
  | cons name rest =>
    obtain ⟨quiet,reports⟩ := cleanEntryQuiet w input name
    rw [stepCleaning]
    split
    · exact failing (Quiet.refl w) rfl
    · split
      · rename_i cleaned same
        rw [same] at quiet reports
        exact failing quiet reports
      · rename_i cleaned dropped same
        rw [same] at quiet reports
        exact Outcome.goOn (.quiet quiet) reports admissible given trivial

theorem examiningOutcome : Outcome digest acts w call (stepExamining digest w call input) := by
  cases call with
  | publish record =>
    simp only [stepExamining]
    split
    · rename_i found inode read
      split
      · rename_i same
        obtain ⟨body,-⟩ := readWhole sound read
        rw [same] at body
        exact onward admissible given ⟨rfl,body⟩
      · exact refusing .refused (.inl rfl)
    · exact refusing .refused (.inl rfl)
    · exact onward admissible given trivial
  | replaceExact expected replacement =>
    simp only [stepExamining]
    split
    · rename_i found inode read
      split
      · rename_i same
        obtain ⟨body,-⟩ := readWhole sound read
        rw [same] at body
        exact onward admissible given ⟨rfl,body⟩
      · split
        · exact refusing .refused (.inl rfl)
        · exact onward admissible given trivial
    · exact refusing .refused (.inl rfl)
  | removeExact expected =>
    simp only [stepExamining]
    split
    · split
      · rename_i same
        exact onward admissible given same
      · exact refusing .refused (.inl rfl)
    · exact refusing .refused (.inl rfl)
  | removeV4TombstoneExact interface revision =>
    simp only [stepExamining]
    split
    · split
      · rename_i matching
        simp only [Bool.and_eq_true,beq_iff_eq] at matching
        exact onward admissible given matching
      · exact refusing .refused (.inl rfl)
    · exact refusing .refused (.inl rfl)
  | read interface =>
    simp only [stepExamining]
    split
    · exact refusing _ (.inr (.inl rfl))
    · rename_i found inode read
      obtain ⟨body,-,rest⟩ := readWhole sound read
      exact Outcome.finish (.quiet (Quiet.refl w)) rfl ⟨body,rest⟩
    · exact refusing _ (.inr (.inr rfl))

theorem creatingOutcome (current : Option Nat) : Outcome digest acts w call (stepCreating w call input current) := by
  rw [stepCreating]
  split
  · exact refusing .refused (.inl rfl)
  · rename_i name found
    have named : name.isTemporary = true := by
      obtain ⟨⟨pid,sequence⟩,-,rfl⟩ := List.mem_map.mp (List.mem_of_find?_eq_some found)
      rfl
    have apart (interface : Text) : (Change.put name w.next).on (.claim interface) = none := by
      cases name with
      | claim other => cases named
      | temporary pid sequence target => rfl
    have unnamed (interface : Text) : ¬w.disk.Possible (.claim interface) (some w.next) :=
      fun possible => Nat.lt_irrefl _ (sound.whole interface w.next possible).below
    have put := quietTemporary (w := w) apart
    have quiet : Quiet w { (w.change (.put name w.next)).write w.next {} with next := w.next + 1 } := by
      refine ⟨put.lookup,put.possible,fun interface inode possible => ?_,Nat.le_succ _,put.home⟩
      refine Function.update_of_ne ?_ ..
      rintro rfl
      exact unnamed interface possible
    split
    · exact refusing .refused (.inl rfl)
    · simp only
      split
      · exact Outcome.finish (.quiet quiet) rfl trivial
      · refine Outcome.goOn (.quiet quiet) rfl admissible given ⟨named,Nat.lt_succ_self _,fun interface possible => ?_⟩
        exact unnamed interface (put.possible interface _ possible)

omit sound in
theorem writingOutcome {temporary : Name} {inode : Nat} {current : Option Nat}
    (ok : StageOk digest w call (.writing temporary inode current)) :
    Outcome digest acts w call (stepWriting w call input temporary inode current) := by
  obtain ⟨named,below,unnamed⟩ := ok
  rw [stepWriting]
  split
  · exact onward admissible given named
  · rename_i body found
    split
    · exact Outcome.goOn (.quiet (quietWrite unnamed)) rfl admissible given named
    · obtain ⟨record,written,serialized⟩ := Option.bind_eq_some_iff.mp found
      rw [serialize] at serialized
      split at serialized
      · cases serialized
        refine Outcome.goOn (.quiet (quietWrite unnamed)) rfl admissible given ⟨named,below,?_,record,written,?_⟩
        · simp only [World.goOn,World.write,Function.update_self]
        · simp only [World.goOn,World.write,Function.update_self]
      · cases serialized

/- A change that gives a call's claim a file, or none. -/
omit sound admissible given in
theorem loudChange {change : Change Name Nat} {file : Option Nat} (own : change.on (.claim call.interface) = some file)
    (others : ∀ other, other ≠ call.interface → change.on (.claim other) = none) : Loud w (w.change change) call.interface file where
  own := by
    rw [World.lookup,World.change,visibleChange,own]
    rfl
  others := by
    intro other differs
    rw [World.lookup,World.change,visibleChange,others other differs]
    rfl
  possible := by
    intro other found possible
    rcases possibleChange possible with old | made
    · exact .inl old
    · by_cases same : other = call.interface
      · rw [same,own] at made
        exact .inr ⟨same,(Option.some.inj made).symm⟩
      · rw [others other same] at made
        cases made
  files := rfl
  next := rfl
  home := rfl

omit sound admissible given in
theorem moveOn {temporary : Name} (named : temporary.isTemporary = true) (inode : Nat) (interface other : Text) :
    (Change.move temporary (.claim interface) inode).on (.claim other) = if other = interface then some (some inode) else none := by
  cases temporary with
  | claim own => cases named
  | temporary pid sequence target =>
    rw [Change.on]
    split
    · rename_i same
      rw [if_pos (Name.claim.inj same)]
    · rename_i differs
      rw [if_neg (fun same => differs (congrArg Name.claim same))]
      rfl

/- The file of a call's own record takes the place of the claim's. -/
omit sound admissible in
theorem namingTurn {inode : Nat} {record : Record} {change : Change Name Nat} (written : call.written = some record)
    (valid : recordFieldsValid record = true) (own : record.interfaceName = call.interface) (below : inode < w.next)
    (flushed : (w.files inode).flushed = true) (content : (w.files inode).content = recordText record)
    (effect : ∀ other, change.on (.claim other) = if other = call.interface then some (some inode) else none)
    (moves : Moves digest call (w.body call.interface) (some (recordText record))) : Turn digest acts w call (w.change change) := by
  refine .loud (loudChange ((effect call.interface).trans (if_pos rfl)) fun other differs => (effect other).trans (if_neg differs)) ?_ ?_
  · intro other same
    cases same
    exact ⟨below,flushed,record,given record written,valid,own,content⟩
  · rw [Option.map_some,content]
    exact moves

theorem namingOutcome {temporary : Name} {inode : Nat} {current : Option Nat}
    (ok : StageOk digest w call (.naming temporary inode current)) :
    Outcome digest acts w call (stepNaming w call input temporary inode current) := by
  obtain ⟨named,below,flushed,record,written,content⟩ := ok
  cases call with
  | publish own =>
    cases written
    have valid : recordFieldsValid record = true := writtenValid admissible rfl
    simp only [stepNaming]
    split
    · exact onward admissible given named
    · rename_i free
      rw [Bool.or_eq_true,not_or,Bool.not_eq_true,Bool.not_eq_true,Option.isSome_eq_false_iff,Option.isNone_iff_eq_none] at free
      have before : w.body record.interfaceName = none := by
        rw [World.body]
        exact Option.map_eq_none_iff.mpr free.2
      have moves : Moves digest (.publish record) (w.body (Call.publish record).interface) (some (recordText record)) := by
        rw [Call.interface,before]
        exact .publish
      split
      · refine Outcome.goOn (namingTurn given rfl valid rfl below flushed content (fun other => ?_) moves)
          rfl admissible given named
        rw [Change.on]
        simp only [Name.claim.injEq]
      · exact Outcome.goOn (namingTurn given rfl valid rfl below flushed content
          (moveOn named inode record.interfaceName) moves) rfl
          admissible given trivial
  | replaceExact expected replacement =>
    cases written
    have forward := replacementForward admissible
    have valid : recordFieldsValid record = true := writtenValid admissible rfl
    simp only [stepNaming]
    split
    · rename_i rebound found read
      split
      · exact onward admissible given named
      · rename_i same
        rw [not_or,ne_eq,Decidable.not_not] at same
        obtain ⟨body,parsed,-⟩ := readWhole sound read
        rw [same.1] at body parsed
        have moves : Moves digest (.replaceExact expected record) (w.body (Call.replaceExact expected record).interface)
          (some (recordText record)) := by
          rw [body]
          exact .replace parsed forward.1 forward.2 valid
        exact Outcome.goOn (namingTurn given rfl valid forward.1.interfaceName below flushed content
          (moveOn named inode expected.interfaceName) moves) rfl admissible given trivial
    · exact onward admissible given named
  | removeExact | removeV4TombstoneExact | read => cases written

theorem unlinkingOutcome {record : Record} {current : Nat} (removable : Removable digest call record) :
    Outcome digest acts w call (stepUnlinking w call input record current) := by
  rw [stepUnlinking]
  split
  · rename_i rebound inode read
    split
    · exact refusing .refused (.inl rfl)
    · rename_i same
      rw [not_or,ne_eq,Decidable.not_not] at same
      obtain ⟨body,parsed,-,name⟩ := readWhole sound read
      rw [same.1] at body parsed name
      have moves : Moves digest call (w.body call.interface) none := by
        rw [body]
        cases call with
        | removeExact expected =>
          cases removable
          refine .remove parsed ?_
          simpa [Call.admissible] using (Bool.and_eq_true_iff.mp admissible).2
        | removeV4TombstoneExact interface revision =>
          obtain ⟨tombstone,rfl⟩ := removable
          cases name
          exact .forget parsed tombstone
        | publish | replaceExact | read => cases removable
      have loud : Loud w (w.change (.drop (.claim call.interface))) call.interface none := by
        refine loudChange ?_ fun other differs => ?_
        · rw [Change.on,if_pos rfl]
        · rw [Change.on,if_neg (fun same => differs (Name.claim.inj same))]
      exact Outcome.goOn (.loud loud (fun _ same => by cases same) moves) rfl admissible given trivial
  · exact refusing .refused (.inl rfl)

omit given in
theorem verifyingOutcome (settled : w.disk.unsynced = []) : Outcome digest acts w call (stepVerifying w call input) := by
  rw [stepVerifying]
  split
  · rename_i found inode read
    obtain ⟨body,-⟩ := readWhole sound read
    split
    · rename_i same
      refine Outcome.finish (.quiet (Quiet.refl w)) rfl ⟨admissible,settled,?_⟩
      rw [same]
      exact body
    · exact refusing .refused (.inl rfl)
  · rename_i read
    split
    · rename_i none_
      refine Outcome.finish (.quiet (Quiet.refl w)) rfl ⟨admissible,settled,?_⟩
      rw [Option.isNone_iff_eq_none.mp none_]
      exact Option.map_eq_none_iff.mpr (readAbsent read)
    · exact refusing .refused (.inl rfl)
  · exact refusing .refused (.inl rfl)

theorem stageOutcome {stage : Stage} (ok : StageOk digest w call stage) :
    Outcome digest acts w call (advance digest w ⟨call,stage⟩ input) := by
  cases stage with
  | cleaning left entries changed => exact cleaningOutcome admissible given left entries changed
  | settling =>
    simp only [advance]
    split
    · exact failing (Quiet.refl w) rfl
    · exact Outcome.goOn (.quiet quietSync) rfl admissible given trivial
  | examining => exact examiningOutcome sound admissible given
  | confirming =>
    simp only [advance]
    split
    · exact refusing .refused (.inl rfl)
    · exact Outcome.finish (.quiet quietSync) rfl ⟨admissible,rfl,ok.2⟩
  | creating current => exact creatingOutcome sound admissible given current
  | writing temporary inode current => exact writingOutcome admissible given ok
  | naming temporary inode current => exact namingOutcome sound admissible given ok
  | retiring temporary =>
    simp only [advance]
    split
    · exact refusing .refused (.inl rfl)
    · exact Outcome.goOn (.quiet (quietTemporary (dropTemporary ok))) rfl admissible given trivial
  | unlinking record current => exact unlinkingOutcome sound admissible given ok
  | syncing =>
    simp only [advance]
    split
    · exact refusing .refused (.inl rfl)
    · exact Outcome.goOn (.quiet quietSync) rfl admissible given rfl
  | verifying => exact verifyingOutcome sound admissible ok
  | discarding temporary =>
    simp only [advance]
    split
    · exact refusing .refused (.inl rfl)
    · exact Outcome.finish (.quiet (quietTemporary (dropTemporary ok))) rfl trivial

end OneCall

end Steps

section Runs

theorem Given.mono {more : List Act} {record : Record} (given : Given acts record) : Given (acts ++ more) record := by
  obtain ⟨call,listing,mem,written⟩ := given
  exact ⟨call,listing,List.mem_append_left _ mem,written⟩

theorem Whole.mono {more : List Act} {interface : Text} {inode : Nat} (whole : Whole acts w interface inode) :
    Whole (acts ++ more) w interface inode := by
  obtain ⟨record,given,rest⟩ := whole.record
  exact ⟨whole.below,whole.flushed,record,given.mono,rest⟩

theorem Sound.mono (sound : Sound digest acts w) (more : List Act) : Sound digest (acts ++ more) w where
  whole := fun interface inode possible => (sound.whole interface inode possible).mono
  job := by
    intro job found
    have ok := sound.job job found
    exact ⟨ok.admissible,fun record written => (ok.given record written).mono,ok.stage⟩

theorem Whole.kept {interface : Text} {inode : Nat} (whole : Whole acts w interface inode) (files : after.files inode = w.files inode)
    (next : w.next ≤ after.next) : Whole acts after interface inode := by
  refine ⟨Nat.lt_of_lt_of_le whole.below next,?_,?_⟩
  · rw [files]
    exact whole.flushed
  · rw [files]
    exact whole.record

theorem turnWhole {call : Call} (turn : Turn digest acts w call after)
    (whole : ∀ interface inode, w.disk.Possible (.claim interface) (some inode) → Whole acts w interface inode) :
    ∀ interface inode, after.disk.Possible (.claim interface) (some inode) → Whole acts after interface inode := by
  intro interface inode possible
  cases turn with
  | quiet quiet =>
    have before := quiet.possible interface _ possible
    exact (whole interface inode before).kept (quiet.files interface inode before) quiet.next
  | loud loud own moves =>
    have kept {other : Text} (before : Whole acts w other inode) : Whole acts after other inode :=
      before.kept (congrFun loud.files inode) (Nat.le_of_eq loud.next.symm)
    rcases loud.possible interface _ possible with before | ⟨rfl,same⟩
    · exact kept (whole interface inode before)
    · exact kept (own inode same.symm)

theorem soundFramed (sound : Sound digest acts w) (disk : after.disk = w.disk) (files : after.files = w.files) (next : after.next = w.next)
    (active : ∀ job, after.active = some job → w.active = some job) : Sound digest acts after where
  whole := by
    intro interface inode possible
    rw [disk] at possible
    exact (sound.whole interface inode possible).kept (congrFun files inode) (Nat.le_of_eq next.symm)
  job := by
    intro job found
    have ok := sound.job job (active job found)
    refine ⟨ok.admissible,ok.given,?_⟩
    have stage := ok.stage
    have body (interface : Text) : after.body interface = w.body interface := by
      rw [World.body,World.body,World.lookup,disk,files]
      rfl
    cases kind : job.stage with
    | cleaning | settling | examining | creating | syncing => trivial
    | confirming =>
      rw [kind] at stage
      refine ⟨stage.1,?_⟩
      rw [body]
      exact stage.2
    | writing temporary inode current =>
      rw [kind] at stage
      refine ⟨stage.1,?_,?_⟩
      · rw [next]
        exact stage.2.1
      · rw [disk]
        exact stage.2.2
    | naming temporary inode current =>
      rw [kind] at stage
      refine ⟨stage.1,?_,?_⟩
      · rw [next]
        exact stage.2.1
      · rw [files]
        exact stage.2.2
    | retiring temporary | discarding temporary =>
      rw [kind] at stage
      exact stage
    | unlinking record current =>
      rw [kind] at stage
      exact stage
    | verifying =>
      rw [kind] at stage
      show after.disk.unsynced = []
      rw [disk]
      exact stage

theorem lostFiles {keep : List Bool} {home : Bool} {torn : Nat → Text} {inode : Nat} (flushed : (w.files inode).flushed = true) :
    (w.losePower keep home torn).files inode = w.files inode := by
  simp only [World.losePower]
  exact if_pos flushed

theorem lostPossible {keep : List Bool} {home : Bool} {torn : Nat → Text} {interface : Text} {file : Option Nat}
    (possible : (w.losePower keep home torn).disk.Possible (.claim interface) file) :
    w.disk.Possible (.claim interface) file ∨ file = none ∧ w.home = .made := by
  simp only [World.losePower] at possible
  split at possible
  · rename_i gone
    refine .inr ⟨?_,gone.1⟩
    rcases possible with durable | ⟨change,mem,-⟩
    · exact durable
    · cases mem
  · exact .inl (possibleLose possible)

theorem actSound (sound : Sound digest acts w) (step : Act) : Sound digest (acts ++ [step]) (act digest w step) := by
  have later := sound.mono [step]
  cases step with
  | makeDirectory =>
    rw [act]
    split
    · exact soundFramed later rfl rfl rfl (fun _ found => found)
    · exact later
  | syncParent =>
    rw [act]
    split
    · exact soundFramed later rfl rfl rfl (fun _ found => found)
    · exact later
  | begin call listing =>
    rw [act]
    split
    · exact later
    · split
      · exact soundFramed later rfl rfl rfl (fun _ found => found)
      · rename_i admissible
        split
        · exact soundFramed later rfl rfl rfl (fun _ found => found)
        · refine ⟨fun interface inode possible => (later.whole interface inode possible).kept rfl (Nat.le_refl _),fun job found => ?_⟩
          cases found
          refine ⟨by simpa using admissible,fun record written => ?_,trivial⟩
          exact ⟨call,listing,List.mem_append_right _ (List.mem_singleton.mpr rfl),written⟩
  | advance input =>
    rw [act]
    split
    · exact later
    · rename_i job running
      have ok := later.job job running
      have outcome : Outcome digest (acts ++ [.advance input]) w job.call (advance digest w job input) :=
        stageOutcome later ok.admissible ok.given ok.stage
      exact ⟨turnWhole outcome.turn later.whole,outcome.next⟩
  | kill =>
    rw [act]
    exact soundFramed later rfl rfl rfl (fun _ found => by cases found)
  | losePower keep home torn =>
    rw [act]
    refine ⟨fun interface inode possible => ?_,fun job found => by cases found⟩
    rcases lostPossible possible with before | ⟨same,-⟩
    · have whole := later.whole interface inode before
      exact whole.kept (lostFiles whole.flushed) (Nat.le_refl _)
    · cases same

theorem worldNext (digest : Digest) (acts : List Act) (step : Act) :
    worldAfter digest (acts ++ [step]) = act digest (worldAfter digest acts) step := by
  simp only [worldAfter,List.foldl_append,List.foldl_cons,List.foldl_nil]

theorem worldSound (digest : Digest) (acts : List Act) : Sound digest acts (worldAfter digest acts) := by
  induction acts using List.reverseRecOn with
  | nil =>
    refine ⟨fun interface inode possible => ?_,fun job found => by cases found⟩
    rcases possible with durable | ⟨change,mem,-⟩
    · cases durable
    · cases mem
  | append_singleton acts step ih =>
    rw [worldNext]
    exact actSound ih step

end Runs

section Claims

def Act.isLoss : Act → Bool
  | .losePower _ _ _ => true
  | _ => false

/- A step without a loss of power: no claim notices, or the call under way does to its claim what it may. -/
theorem stepTurn (sound : Sound digest acts w) {step : Act} (powered : step.isLoss = false) :
    Quiet w (act digest w step) ∨ ∃ job input, step = .advance input ∧ w.active = some job ∧
      Outcome digest (acts ++ [step]) w job.call (act digest w step) := by
  have later := sound.mono [step]
  cases step with
  | makeDirectory =>
    rw [act]
    split
    · rename_i absent
      exact .inl ⟨fun _ => rfl,fun _ _ possible => possible,fun _ _ _ => rfl,Nat.le_refl _,fun kept => by rw [absent] at kept; cases kept⟩
    · exact .inl (Quiet.refl w)
  | syncParent =>
    rw [act]
    split
    · exact .inl ⟨fun _ => rfl,fun _ _ possible => possible,fun _ _ _ => rfl,Nat.le_refl _,fun _ => rfl⟩
    · exact .inl (Quiet.refl w)
  | begin call listing =>
    rw [act]
    refine .inl ?_
    split
    · exact Quiet.refl w
    · split
      · exact ⟨fun _ => rfl,fun _ _ possible => possible,fun _ _ _ => rfl,Nat.le_refl _,id⟩
      · split
        · exact ⟨fun _ => rfl,fun _ _ possible => possible,fun _ _ _ => rfl,Nat.le_refl _,id⟩
        · exact ⟨fun _ => rfl,fun _ _ possible => possible,fun _ _ _ => rfl,Nat.le_refl _,id⟩
  | advance input =>
    rw [act]
    split
    · exact .inl (Quiet.refl w)
    · rename_i job running
      have ok := later.job job running
      exact .inr ⟨job,input,rfl,running,stageOutcome later ok.admissible ok.given ok.stage⟩
  | kill => exact .inl ⟨fun _ => rfl,fun _ _ possible => possible,fun _ _ _ => rfl,Nat.le_refl _,id⟩
  | losePower => cases powered

def World.MayHold (w : World) (interface : Text) (body : Option Text) : Prop :=
  ∃ file, w.disk.Possible (.claim interface) file ∧ body = file.map fun inode => (w.files inode).content

theorem mayHoldBody (interface : Text) : w.MayHold interface (w.body interface) := ⟨_,possibleVisible,rfl⟩

theorem Quiet.body (quiet : Quiet w after) (interface : Text) : after.body interface = w.body interface := by
  rw [World.body,World.body,quiet.lookup]
  cases found : w.lookup (.claim interface) with
  | none => rfl
  | some inode =>
    have possible : w.disk.Possible (.claim interface) (some inode) := by
      rw [← found]
      exact possibleVisible
    simp only [Option.map_some,quiet.files interface inode possible]

theorem Quiet.mayHold (quiet : Quiet w after) {interface : Text} {body : Option Text} (may : after.MayHold interface body) :
    w.MayHold interface body := by
  obtain ⟨file,possible,rfl⟩ := may
  have before := quiet.possible interface file possible
  refine ⟨file,before,?_⟩
  cases file with
  | none => rfl
  | some inode => simp only [Option.map_some,quiet.files interface inode before]

theorem Loud.body {interface : Text} {file : Option Nat} (loud : Loud w after interface file) :
    after.body interface = file.map fun inode => (w.files inode).content := by
  rw [World.body,loud.own,loud.files]

theorem Loud.bodyOther {interface other : Text} {file : Option Nat} (loud : Loud w after interface file) (differs : other ≠ interface) :
    after.body other = w.body other := by
  rw [World.body,World.body,loud.others other differs,loud.files]

theorem Loud.mayHold {interface other : Text} {file : Option Nat} (loud : Loud w after interface file) {body : Option Text}
    (may : after.MayHold other body) : w.MayHold other body ∨ body = after.body other := by
  obtain ⟨found,possible,rfl⟩ := may
  rcases loud.possible other found possible with before | ⟨rfl,rfl⟩
  · refine .inl ⟨found,before,?_⟩
    rw [loud.files]
  · refine .inr ?_
    rw [loud.body,loud.files]

theorem Turn.home {call : Call} (turn : Turn digest acts w call after) (kept : w.home = .kept) : after.home = .kept := by
  cases turn with
  | quiet quiet => exact quiet.home kept
  | loud loud whole moves => exact loud.home.trans kept

theorem Turn.mayHold {call : Call} (turn : Turn digest acts w call after) {interface : Text} {body : Option Text}
    (may : after.MayHold interface body) : w.MayHold interface body ∨ body = after.body interface := by
  cases turn with
  | quiet quiet => exact .inl (quiet.mayHold may)
  | loud loud whole moves => exact loud.mayHold may

theorem Turn.moves {call : Call} (turn : Turn digest acts w call after) (interface : Text) :
    after.body interface = w.body interface ∨ call.interface = interface ∧ Moves digest call (w.body interface) (after.body interface) := by
  cases turn with
  | quiet quiet => exact .inl (quiet.body interface)
  | loud loud whole moves =>
    by_cases same : interface = call.interface
    · subst same
      refine .inr ⟨rfl,?_⟩
      rw [loud.body]
      exact moves
    · exact .inl (loud.bodyOther same)

theorem poweredStep (sound : Sound digest acts w) {step : Act} (powered : step.isLoss = false) (interface : Text) :
    (∀ body, (act digest w step).MayHold interface body → w.MayHold interface body ∨ body = (act digest w step).body interface) ∧
      ((act digest w step).body interface = w.body interface ∨ ∃ job input, step = .advance input ∧ w.active = some job ∧
        job.call.interface = interface ∧ Moves digest job.call (w.body interface) ((act digest w step).body interface)) ∧
      (w.home = .kept → (act digest w step).home = .kept) := by
  rcases stepTurn sound powered with quiet | ⟨job,input,same,running,outcome⟩
  · exact ⟨fun body may => .inl (quiet.mayHold may),.inl (quiet.body interface),quiet.home⟩
  · refine ⟨fun body may => outcome.turn.mayHold may,?_,outcome.turn.home⟩
    rcases outcome.turn.moves interface with unchanged | ⟨own,moves⟩
    · exact .inl unchanged
    · exact .inr ⟨job,input,same,running,own,moves⟩

theorem lostStep (sound : Sound digest acts w) (kept : w.home = .kept) {step : Act} (loss : step.isLoss = true) (interface : Text) :
    (∀ body, (act digest w step).MayHold interface body → w.MayHold interface body) ∧ (act digest w step).home = .kept := by
  cases step with
  | losePower keep home torn =>
    rw [act]
    refine ⟨fun body may => ?_,?_⟩
    · obtain ⟨file,possible,rfl⟩ := may
      rcases lostPossible possible with before | ⟨-,made⟩
      · refine ⟨file,before,?_⟩
        cases file with
        | none => rfl
        | some inode => simp only [Option.map_some,lostFiles (sound.whole interface inode before).flushed]
      · rw [kept] at made
        cases made
    · simp only [World.losePower]
      rw [if_neg (by rw [kept]; decide),kept]
  | makeDirectory | syncParent | begin | advance | kill => cases loss

end Claims

end Invariant

end KeenPbr.Ownership

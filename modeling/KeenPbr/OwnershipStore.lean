import KeenPbr.OwnershipRecord
import KeenPbr.Durable

/-! keenetic/ndms_native_ownership_store.cpp: one file per claimed interface. Every call works under an
exclusive lock of the directory, so the calls of all processes stand one after the other; a step is what
happens up to the next change of the directory, and what the system calls answer is its input. A process
may be killed after any step, and the power may go. The directory itself is made before the lock is taken.
Owner, mode and descriptor checks hold of every file the store made and are left out. -/
namespace KeenPbr.Ownership
open Tables Durable

inductive Name where
  | claim (interface : Text)
  | temporary (pid sequence : Nat) (target : Text)
  deriving DecidableEq, Repr

structure File where
  content : Text := []
  flushed : Bool := false

inductive Call where
  | publish (record : Record)
  | replaceExact (expected replacement : Record)
  | removeExact (expected : Record)
  | removeV4TombstoneExact (interface expectedOwnershipRevision : Text)
  | read (interface : Text)
  deriving DecidableEq

def Call.interface : Call → Text
  | .publish record => record.interfaceName
  | .replaceExact expected _ => expected.interfaceName
  | .removeExact expected => expected.interfaceName
  | .removeV4TombstoneExact interface _ => interface
  | .read interface => interface

inductive ReadResult where
  | absent
  | valid (record : Record)
  | unreadable
  deriving DecidableEq

inductive Answer where
  | done
  | refused
  | found (result : ReadResult)
  deriving DecidableEq

structure Report where
  call : Call
  answer : Answer
  deriving DecidableEq

inductive Stage where
  | cleaning (left : List Name) (entries : Nat) (changed : Bool)
  | settling
  | examining
  | confirming
  | creating (current : Option Nat)
  | writing (temporary : Name) (inode : Nat) (current : Option Nat)
  | naming (temporary : Name) (inode : Nat) (current : Option Nat)
  | retiring (temporary : Name)
  | unlinking (record : Record) (current : Nat)
  | syncing
  | verifying
  | discarding (temporary : Name)
  deriving DecidableEq

structure Job where
  call : Call
  stage : Stage
  deriving DecidableEq

inductive Home where
  | absent
  | made
  | kept
  deriving DecidableEq, Repr

structure World where
  home : Home := .absent
  disk : Disk Name Nat := {}
  files : Nat → File := fun _ => {}
  next : Nat := 0
  active : Option Job := none
  reports : List Report := []

structure Input where
  fails : Bool := false
  /- A file was created but could not be protected. -/
  unprotected : Bool := false
  readFails : Bool := false
  /- rename_noreplace is not supported and linkat is used. -/
  links : Bool := false
  candidates : List (Nat × Nat) := []
  torn : Text := []

section Reading
variable (w : World)

def World.lookup (name : Name) : Option Nat := find w.disk.visible name

def World.links (inode : Nat) : Nat := w.disk.visible.countP fun entry => entry.2 = inode

def kMaximumRecordBytes : Nat := 4096

inductive FileRead where
  | absent
  | valid (record : Record) (inode : Nat)
  | unsafe_
  deriving DecidableEq

def readLocked (interface : Text) (fails : Bool) : FileRead :=
  match w.lookup (.claim interface) with
  | none => if fails then .unsafe_ else .absent
  | some inode =>
    if fails || w.links inode != 1 || (w.files inode).content.isEmpty || (w.files inode).content.length > kMaximumRecordBytes then .unsafe_
    else match parse (w.files inode).content with
      | none => .unsafe_
      | some record => if record.interfaceName = interface then .valid record inode else .unsafe_

end Reading

section Steps
variable (digest : Digest) (w : World)

def tombstoneRevision (revision : Text) : Bool := taggedDigest (text "ndms-native-owner-tombstone-v1-") revision

def Call.admissible : Call → Bool
  | .publish record => recordFieldsValid record && record.schemaVersion == kNdmsNativeOwnershipSchemaVersion
  | .replaceExact expected replacement =>
    recordFieldsValid expected && recordFieldsValid replacement && expected.interfaceName == replacement.interfaceName &&
      expected.transactionId == replacement.transactionId && expected.marker == replacement.marker && expected.kind == replacement.kind &&
      expected.snapshotRevision == replacement.snapshotRevision && validLifecycleTransition expected replacement
  | .removeExact expected => recordFieldsValid expected && expected.lifecycle != .deletedSaveAcknowledgedUnverified
  | .removeV4TombstoneExact interface revision => claimableInterface interface && tombstoneRevision revision
  | .read interface => claimableInterface interface

def Call.failure : Call → Answer
  | .read _ => .found .unreadable
  | _ => .refused

def Call.nowhere : Call → Answer
  | .read _ => .found .absent
  | _ => .refused

def World.finish (call : Call) (answer : Answer) : World := { w with active := none, reports := w.reports ++ [⟨call,answer⟩] }

def World.goOn (call : Call) (stage : Stage) : World := { w with active := some ⟨call,stage⟩ }

def World.change (change : Change Name Nat) : World := { w with disk := w.disk.change change }

def World.sync : World := { w with disk := w.disk.sync }

def World.write (inode : Nat) (file : File) : World := { w with files := Function.update w.files inode file }

/- One directory entry of cleanup_ownership_temporaries: the world after it, or nothing where the inventory is unsafe. -/
def cleanEntry (name : Name) (input : Input) : World × Option Bool :=
  match name with
  | .claim interface => (w,if claimableInterface interface then some false else none)
  | .temporary _ _ target =>
    match w.lookup name with
    | none => (w,none)
    | some inode =>
      if !claimableInterface target || input.fails || !(w.links inode == 1 || w.links inode == 2) ||
          (w.links inode == 2 && w.lookup (.claim target) != some inode) then (w,none)
      else
        let after := w.change (.drop name)
        if w.links inode == 1 then (after,some true)
        else match readLocked after target input.readFails with
          | .valid _ _ => (after,some true)
          | _ => (after,none)

def stepCleaning (call : Call) (input : Input) (left : List Name) (entries : Nat) (changed : Bool) : World :=
  match left with
  | [] => if input.fails then w.finish call call.failure else w.goOn call (if changed then .settling else .examining)
  | name :: rest =>
    if entries + 1 > 128 then w.finish call call.failure
    else match cleanEntry w name input with
      | (after,none) => after.finish call call.failure
      | (after,some dropped) => after.goOn call (.cleaning rest (entries + 1) (changed || dropped))

def forgettable (record : Record) : Bool :=
  record.schemaVersion == kNdmsNativeOwnershipTombstoneSchemaVersion && record.lifecycle == .deletedSaveAcknowledgedUnverified &&
    record.lifecycleEvidence.any fun evidence => evidence.deletedKernelInterfaceName.isSome

def stepExamining (call : Call) (input : Input) : World :=
  let current := readLocked w call.interface input.readFails
  match call with
  | .publish record =>
    match current with
    | .valid found _ => if found = record then w.goOn call .confirming else w.finish call .refused
    | .unsafe_ => w.finish call .refused
    | .absent => w.goOn call (.creating none)
  | .replaceExact expected replacement =>
    match current with
    | .valid found inode =>
      if found = replacement then w.goOn call .confirming
      else if found ≠ expected then w.finish call .refused
      else w.goOn call (.creating (some inode))
    | _ => w.finish call .refused
  | .removeExact expected =>
    match current with
    | .valid found inode => if found = expected then w.goOn call (.unlinking found inode) else w.finish call .refused
    | _ => w.finish call .refused
  | .removeV4TombstoneExact _ revision =>
    match current with
    | .valid found inode =>
      if forgettable found && ndmsNativeOwnershipRevision digest found == revision then w.goOn call (.unlinking found inode)
      else w.finish call .refused
    | _ => w.finish call .refused
  | .read _ =>
    match current with
    | .absent => w.finish call (.found .absent)
    | .valid found _ => w.finish call (.found (.valid found))
    | .unsafe_ => w.finish call (.found .unreadable)

/- create_temporary: the first of at most 128 names that is not taken. -/
def temporaryName (target : Text) (input : Input) : Option Name :=
  ((input.candidates.take 128).map fun (pid,sequence) => Name.temporary pid sequence target).find? fun name => (w.lookup name).isNone

def stepCreating (call : Call) (input : Input) (current : Option Nat) : World :=
  match temporaryName w call.interface input with
  | none => w.finish call .refused
  | some name =>
    if input.fails then w.finish call .refused
    else
      let created := { (w.change (.put name w.next)).write w.next {} with next := w.next + 1 }
      if input.unprotected then created.finish call .refused
      else created.goOn call (.writing name w.next current)

def Call.written : Call → Option Record
  | .publish record => some record
  | .replaceExact _ replacement => some replacement
  | _ => none

def stepWriting (call : Call) (input : Input) (temporary : Name) (inode : Nat) (current : Option Nat) : World :=
  match call.written.bind serialize with
  | none => w.goOn call (.discarding temporary)
  | some body =>
    if input.fails then (w.write inode ⟨input.torn,false⟩).goOn call (.discarding temporary)
    else (w.write inode ⟨body,true⟩).goOn call (.naming temporary inode current)

def stepNaming (call : Call) (input : Input) (temporary : Name) (inode : Nat) (current : Option Nat) : World :=
  let target := Name.claim call.interface
  match call with
  | .publish _ =>
    if input.fails || (w.lookup target).isSome then w.goOn call (.discarding temporary)
    else if input.links then (w.change (.put target inode)).goOn call (.retiring temporary)
    else (w.change (.move temporary target inode)).goOn call .syncing
  | .replaceExact expected _ =>
    match readLocked w call.interface input.readFails with
    | .valid rebound found =>
      if rebound ≠ expected ∨ current ≠ some found ∨ input.fails then w.goOn call (.discarding temporary)
      else (w.change (.move temporary target inode)).goOn call .syncing
    | _ => w.goOn call (.discarding temporary)
  | _ => w.finish call call.failure

def stepUnlinking (call : Call) (input : Input) (record : Record) (current : Nat) : World :=
  match readLocked w call.interface input.readFails with
  | .valid rebound inode =>
    if rebound ≠ record ∨ inode ≠ current ∨ input.fails then w.finish call .refused
    else (w.change (.drop (.claim call.interface))).goOn call .syncing
  | _ => w.finish call .refused

def stepVerifying (call : Call) (input : Input) : World :=
  match readLocked w call.interface input.readFails with
  | .valid found _ => w.finish call (if call.written = some found then .done else .refused)
  | .absent => w.finish call (if call.written.isNone then .done else .refused)
  | .unsafe_ => w.finish call .refused

def advance (job : Job) (input : Input) : World :=
  match job.stage with
  | .cleaning left entries changed => stepCleaning w job.call input left entries changed
  | .settling => if input.fails then w.finish job.call job.call.failure else w.sync.goOn job.call .examining
  | .examining => stepExamining digest w job.call input
  | .confirming => if input.fails then w.finish job.call .refused else w.sync.finish job.call .done
  | .creating current => stepCreating w job.call input current
  | .writing temporary inode current => stepWriting w job.call input temporary inode current
  | .naming temporary inode current => stepNaming w job.call input temporary inode current
  | .retiring temporary =>
    if input.fails then w.finish job.call .refused else (w.change (.drop temporary)).goOn job.call .syncing
  | .unlinking record current => stepUnlinking w job.call input record current
  | .syncing => if input.fails then w.finish job.call .refused else w.sync.goOn job.call .verifying
  | .verifying => stepVerifying w job.call input
  | .discarding temporary =>
    (if input.fails then w else w.change (.drop temporary)).finish job.call .refused

end Steps

section Runs
variable (digest : Digest)

/- `listing` is what readdir returns. A loss of power tells which unsynced changes are on the disk, whether a directory
that was only made is, and what files that were not synced hold. -/
inductive Act where
  | makeDirectory
  | syncParent
  | begin (call : Call) (listing : List Name)
  | advance (input : Input)
  | kill
  | losePower (keep : List Bool) (home : Bool) (torn : Nat → Text)

def World.losePower (w : World) (keep : List Bool) (home : Bool) (torn : Nat → Text) : World :=
  { w with
    home := if w.home = .made then (if home then .kept else .absent) else w.home
    disk := if w.home = .made ∧ home = false then {} else w.disk.lose keep
    files := fun inode => if (w.files inode).flushed then w.files inode else { content := torn inode }
    active := none }

def act (w : World) : Act → World
  | .makeDirectory => if w.home = .absent then { w with home := .made } else w
  | .syncParent => if w.home = .made then { w with home := .kept } else w
  | .begin call listing =>
    if w.active.isSome then w
    else if !call.admissible then { w with reports := w.reports ++ [⟨call,call.failure⟩] }
    else if w.home = .absent then { w with reports := w.reports ++ [⟨call,call.nowhere⟩] }
    else { w with active := some ⟨call,.cleaning listing 0 false⟩ }
  | .advance input =>
    match w.active with
    | none => w
    | some job => KeenPbr.Ownership.advance digest w job input
  | .kill => { w with active := none }
  | .losePower keep home torn => w.losePower keep home torn

def worldAfter (acts : List Act) : World := acts.foldl (act digest) {}

end Runs

end KeenPbr.Ownership

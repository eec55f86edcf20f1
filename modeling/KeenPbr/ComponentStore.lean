import KeenPbr.FileSteps
import KeenPbr.Fields
import KeenPbr.NfqwsParser

/-! The slots of update/component_ipk_store.cpp and finish_interrupted_promotion of
component_package_transaction.cpp. An operation looks at the slots first and then is a straight
program of file steps. The digest and the JSON library are parameters; the store's directory and
its mode are left out. -/
namespace KeenPbr.ComponentStore
open FileSteps

inductive IpkSlot where
  | current
  | previous
  | candidate
  deriving DecidableEq, Repr

inductive FilePart where
  | ipk
  | sidecar
  | manifest
  deriving DecidableEq, Repr

abbrev File := IpkSlot × FilePart

abbrev Store := Files File Text

structure FeedPackageEntry where
  package : String
  version : String
  filename : String
  size : Nat := 0
  sha256 : Text
  deriving DecidableEq, Repr

structure RetainedIpk where
  version : String
  sha256 : Text
  size : Nat
  filename : String
  deriving DecidableEq, Repr

/- What adopt writes beside the time, and what the fields of a document that is an object give: a field that is
missing or of another type is empty. -/
structure Manifest where
  package : String := ""
  version : String := ""
  filename : String := ""
  size : Nat := 0
  sha256 : Text := []
  deriving DecidableEq, Repr

inductive ManifestDocument where
  | notJson
  | notObject
  | object (fields : Manifest)
  deriving DecidableEq, Repr

structure Library where
  sha256 : Text → Text
  parse : Text → ManifestDocument
  dump : Manifest → Int → Text

inductive IpkSlotState where
  | absent
  | usable
  | corrupt
  deriving DecidableEq, Repr

structure IpkSlotInspection where
  state : IpkSlotState := .absent
  retained : Option RetainedIpk := none
  detail : String := ""
  deriving DecidableEq, Repr

section Inspect
variable (lib : Library) (package : String)

def kMaxManifestBytes : Nat := 4 * 1024

def versionChar (c : Char) : Bool := c.isAlphanum || c == '.' || c == '-' || c == '+' || c == '~' || c == ':' || c == '_'

def validVersion (value : String) : Bool := !value.isEmpty && value.length ≤ 64 && value.toList.all versionChar

def validSha256Hex (value : Text) : Bool := value.length == 64 && value.all fun c => ('0' ≤ c && c ≤ '9') || ('a' ≤ c && c ≤ 'f')

def regularNonemptyFile : Option (Node Text) → Option Text
  | some (.file content) => if content.isEmpty then none else some content
  | _ => none

def readStrictSingleLine (node : Option (Node Text)) : Option Text :=
  match (regularNonemptyFile node).map (Fields.lines (· == '\n')) with
  | some [value] => if value.isEmpty then none else some value
  | _ => none

def readManifest (node : Option (Node Text)) : Except String RetainedIpk :=
  match regularNonemptyFile node with
  | none => .error "manifest is not a regular file"
  | some body =>
    if body.length > kMaxManifestBytes then .error "manifest is oversized"
    else
      match lib.parse body with
      | .notJson => .error "manifest is not JSON"
      | .notObject => .error "manifest is not an object"
      | .object fields =>
        if fields.package ≠ package then .error "manifest names a different package"
        else if !validVersion fields.version || !validSha256Hex fields.sha256 || fields.filename.isEmpty || fields.size == 0 then
          .error "manifest is incomplete"
        else .ok ⟨fields.version,fields.sha256,fields.size,fields.filename⟩

def corrupt (detail : String) : IpkSlotInspection := { state := .corrupt, detail }

def inspect (store : Store) (slot : IpkSlot) : IpkSlotInspection :=
  if store (slot,.manifest) = none then {}
  else
    match readManifest lib package (store (slot,.manifest)) with
    | .error detail => corrupt detail
    | .ok retained =>
      match regularNonemptyFile (store (slot,.ipk)) with
      | none => corrupt "ipk is missing or not a regular file"
      | some bytes =>
        if bytes.length ≠ retained.size then corrupt "ipk size differs from the manifest"
        else if lib.sha256 bytes ≠ retained.sha256 then corrupt "ipk digest differs from the manifest"
        else if readStrictSingleLine (store (slot,.sidecar)) ≠ some retained.sha256 then corrupt "sha256 sidecar differs from the manifest"
        else { state := .usable, retained := some retained }

end Inspect

section Programs
variable (lib : Library) (package : String)

def FeedPackageEntry.identifiesIpk (entry : FeedPackageEntry) : Bool :=
  !entry.package.isEmpty && !entry.version.isEmpty && !entry.filename.isEmpty && entry.size != 0 && entry.sha256.length == 64

def adoptedManifest (bytes : Text) (entry : FeedPackageEntry) : Manifest :=
  { package, version := entry.version, filename := entry.filename, size := entry.size, sha256 := lib.sha256 bytes }

def adopt (slot : IpkSlot) (bytes : Text) (entry : FeedPackageEntry) (now : Int) : Except String (List (Step File Text)) :=
  if !entry.identifiesIpk || entry.package != package then .error "feed entry does not identify this package"
  else if !validVersion entry.version then .error "feed entry version is not usable"
  else if bytes.length ≠ entry.size then
    .error ("ipk size is " ++ toString bytes.length ++ ", the feed promised " ++ toString entry.size)
  else if lib.sha256 bytes ≠ entry.sha256 then .error "ipk digest differs from what the feed promised"
  else
    .ok [.remove (slot,.manifest),.sync,.write (slot,.ipk) bytes,.write (slot,.sidecar) (lib.sha256 bytes ++ ['\n']),
      .write (slot,.manifest) (lib.dump (adoptedManifest lib package bytes entry) now ++ ['\n'])]

def moveSlot (source target : IpkSlot) : List (Step File Text) :=
  [.remove (target,.manifest),.sync,.remove (target,.ipk),.link (source,.ipk) (target,.ipk),.remove (target,.sidecar),
    .link (source,.sidecar) (target,.sidecar),.sync,.rename (source,.manifest) (target,.manifest),.sync,.remove (source,.ipk),
    .remove (source,.sidecar),.sync]

def discard (slot : IpkSlot) : List (Step File Text) :=
  [.remove (slot,.manifest),.sync,.remove (slot,.sidecar),.remove (slot,.ipk),.sync]

def ipkSlotStateName : IpkSlotState → String
  | .absent => "absent"
  | .usable => "usable"
  | .corrupt => "corrupt"

def promoteCandidate (store : Store) : Except String (List (Step File Text)) :=
  let candidate := inspect lib package store .candidate
  if candidate.state ≠ .usable then
    .error ("candidate slot is " ++ ipkSlotStateName candidate.state ++ if candidate.detail.isEmpty then "" else ": " ++ candidate.detail)
  else if (inspect lib package store .current).state = .usable then .ok (moveSlot .current .previous ++ moveSlot .candidate .current)
  else .ok (discard .current ++ moveSlot .candidate .current)

def usableVersion (inspection : IpkSlotInspection) : Option String := inspection.retained.map (·.version)

def finishInterruptedPromotion (store : Store) (installedVersion : String) : List (Step File Text) :=
  if installedVersion.isEmpty then []
  else
    let candidate := inspect lib package store .candidate
    if candidate.state ≠ .usable ∨ usableVersion candidate ≠ some installedVersion then []
    else
      let current := inspect lib package store .current
      if current.state = .usable ∧ usableVersion current = some installedVersion then discard .candidate
      else
        match promoteCandidate lib package store with
        | .ok program => program
        | .error _ => []

end Programs

end KeenPbr.ComponentStore

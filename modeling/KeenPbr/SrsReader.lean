import KeenPbr.SrsAddress
import KeenPbr.Wp

/-! The reading half of srs_decoder.cpp: the inflating reader over zlib and the primitive readers of the
decoder with their budgets. The skip functions return what they pass over; the source drops it, and
here it is the ruleset that was read. -/
namespace KeenPbr.Srs

abbrev Bytes := List UInt8

structure SrsDecodeLimits where
  maxCompressedBytes : Nat := 16 * 1024 * 1024
  maxDecompressedBytes : Nat := 64 * 1024 * 1024
  maxRules : Nat := 100000
  maxLogicalDepth : Nat := 32
  maxRuleItems : Nat := 64
  maxValues : Nat := 1000000
  maxStringBytes : Nat := 4096
  maxTotalStringBytes : Nat := 16 * 1024 * 1024
  maxTrieWords : Nat := 262144
  maxTrieLabels : Nat := 4000000
  maxTrieNodes : Nat := 4000001
  maxIpRanges : Nat := 1000000
  maxOutputEntries : Nat := 1000000
  maxOutputStringBytes : Nat := 16 * 1024 * 1024
  deriving DecidableEq, Repr

inductive SrsDecodeErrorKind where
  | invalidData
  | unsupportedVersion
  deriving DecidableEq, Repr

structure SrsDecodeError where
  message : String
  kind : SrsDecodeErrorKind := .invalidData
  version : UInt8 := 0
  deriving DecidableEq, Repr

inductive InflateStatus where
  | ok
  | streamEnd
  | failed (message : Option String)
  deriving DecidableEq, Repr

structure InflateCall (State : Type) where
  stream : State
  rest : Bytes
  produced : Bytes
  status : InflateStatus

/- zlib. A call takes a part of the input from its front and writes at most the room it is given;
Z_OK means that it did one of the two. -/
structure Zlib where
  State : Type
  inflateInit : Option State
  inflate : State → Bytes → Nat → InflateCall State
  taken : ∀ stream input room, (inflate stream input room).rest.length ≤ input.length
  written : ∀ stream input room, (inflate stream input room).produced.length ≤ room
  progress : ∀ stream input room, (inflate stream input room).status = .ok →
    (inflate stream input room).produced ≠ [] ∨ (inflate stream input room).rest.length < input.length

/- `source` is what the stream has not delivered yet, `output` what read_exact has not copied yet. -/
structure InflateReader (zlib : Zlib) where
  source : Bytes
  stream : zlib.State
  availIn : Bytes := []
  inputEof : Bool := false
  streamFinished : Bool := false
  compressedBytes : Nat := 0
  decompressedBytes : Nat := 0
  output : Bytes := []

def bufferSize : Nat := 8192

section Inflate
variable {zlib : Zlib} (limits : SrsDecodeLimits)

def loadInput (reader : InflateReader zlib) : Except SrsDecodeError (InflateReader zlib × Bool) :=
  if reader.inputEof then .ok (reader,false)
  else if reader.compressedBytes ≥ limits.maxCompressedBytes then .error { message := "SRS compressed payload exceeds limit" }
  else
    let request := min bufferSize (limits.maxCompressedBytes - reader.compressedBytes)
    let chunk := reader.source.take request
    if chunk.isEmpty then .ok ({ reader with inputEof := true },false)
    else .ok ({ reader with source := reader.source.drop request,
                            availIn := chunk,
                            compressedBytes := reader.compressedBytes + chunk.length },true)

/- After the input has been refilled: one inflate call and what follows from it. `none` asks for
another round. -/
def inflateRound (reader : InflateReader zlib) : Except SrsDecodeError (InflateReader zlib × Option Bool) :=
  let call := zlib.inflate reader.stream reader.availIn bufferSize
  if call.produced.length > limits.maxDecompressedBytes - reader.decompressedBytes then
    .error { message := "SRS decompressed payload exceeds limit" }
  else
    let next := { reader with stream := call.stream,
                              availIn := call.rest,
                              decompressedBytes := reader.decompressedBytes + call.produced.length,
                              output := call.produced }
    match call.status with
    | .failed detail => .error { message := "invalid SRS zlib stream" ++ (detail.map (": " ++ ·)).getD "" }
    | .streamEnd => .ok ({ next with streamFinished := true },some !call.produced.isEmpty)
    | .ok => .ok (next,if call.produced.isEmpty then none else some true)

/- The loop of fill_output. A round without output has taken input, so that the number of bytes left is
fuel enough. -/
def fillLoop : Nat → InflateReader zlib → Except SrsDecodeError (InflateReader zlib × Bool)
  | 0, _ => .error { message := "SRS zlib stream is truncated" }
  | fuel + 1, reader => do
    let (loaded,more) ← if reader.availIn.isEmpty then loadInput limits reader else .ok (reader,true)
    if !more then .error { message := "SRS zlib stream is truncated" }
    else
      let (next,outcome) ← inflateRound limits loaded
      match outcome with
      | some answer => .ok (next,answer)
      | none => fillLoop fuel next

def fillOutput (reader : InflateReader zlib) : Except SrsDecodeError (InflateReader zlib × Bool) :=
  if reader.streamFinished then .ok (reader,false)
  else fillLoop limits (reader.source.length + reader.availIn.length + 1) { reader with output := [] }

variable {limits} in
/- What loading input and a round without output keep holds when the loop goes on, and what the last round makes of it when
it ends. -/
theorem fillLoopRule {I Q : InflateReader zlib → Prop}
    (load : ∀ reader next more, I reader → loadInput limits reader = .ok (next,more) → I next)
    (round : ∀ reader next outcome, I reader → inflateRound limits reader = .ok (next,outcome) → if outcome = none then I next else Q next)
    (fuel : Nat) : ∀ {reader next : InflateReader zlib} {answer : Bool}, I reader →
      fillLoop limits fuel reader = .ok (next,answer) → Q next := by
  induction fuel with
  | zero =>
    intro reader next answer _ loop
    cases loop
  | succ fuel ih =>
    intro reader next answer before loop
    -- what follows once there is input
    have goOn : ∀ (loaded : InflateReader zlib) (more : Bool), I loaded →
        (if (!more) = true then .error ⟨"SRS zlib stream is truncated",.invalidData,0⟩ else do
          let (after,outcome) ← inflateRound limits loaded
          match outcome with
          | some answer => .ok (after,answer)
          | none => fillLoop limits fuel after) = .ok (next,answer) → Q next := by
      intro loaded more kept loop
      split at loop
      · cases loop
      · obtain ⟨⟨after,outcome⟩,ran,loop⟩ := bindOk loop
        have kind := round loaded after outcome kept ran
        cases outcome with
        | some found =>
          cases loop
          exact kind
        | none => exact ih kind loop
    rw [fillLoop] at loop
    split at loop
    · obtain ⟨⟨loaded,more⟩,loading,loop⟩ := bindOk loop
      exact goOn loaded more (load reader loaded more before loading) loop
    · exact goOn reader true before loop

end Inflate

/- The running totals of the decoder and the counters of its result. -/
structure Decoder (zlib : Zlib) where
  reader : InflateReader zlib
  totalRules : Nat := 0
  totalValues : Nat := 0
  totalStringBytes : Nat := 0
  decodedOutputEntries : Nat := 0
  decodedOutputStringBytes : Nat := 0
  unsupportedFields : Nat := 0
  skippedRules : Nat := 0
  invertedRules : Nat := 0

abbrev Decode (zlib : Zlib) := EStateM SrsDecodeError (Decoder zlib)

section Readers
variable {zlib : Zlib} (limits : SrsDecodeLimits)

def fail {α : Type} (message : String) : Decode zlib α := throw { message }

def failIf (condition : Prop) [Decidable condition] (message : String) : Decode zlib Unit :=
  if condition then fail message else pure ()

def fillReader : Decode zlib Bool := do
  let decoder ← get
  match fillOutput limits decoder.reader with
  | .error error => throw error
  | .ok (reader,more) =>
    modify fun decoder => { decoder with reader }
    pure more

def takeOutput : Decode zlib (Option UInt8) := do
  let decoder ← get
  match decoder.reader.output with
  | [] => pure none
  | byte :: rest =>
    modify fun decoder => { decoder with reader := { decoder.reader with output := rest } }
    pure (some byte)

def tryReadByte : Decode zlib (Option UInt8) := do
  match ← takeOutput with
  | some byte => pure (some byte)
  | none => if ← fillReader limits then takeOutput else pure none

def readByte (what : String) : Decode zlib UInt8 := do
  match ← tryReadByte limits with
  | some byte => pure byte
  | none => fail (what ++ " is truncated")

def readExact (what : String) : Nat → Decode zlib Bytes
  | 0 => pure []
  | size + 1 => do
    let byte ← readByte limits what
    let rest ← readExact what size
    pure (byte :: rest)

def requireCleanEnd : Decode zlib Unit := do
  let extra ← tryReadByte limits
  failIf (extra.isSome) "SRS payload contains trailing decompressed data"
  let decoder ← get
  failIf (!decoder.reader.streamFinished) "SRS zlib stream is truncated"
  failIf (!decoder.reader.availIn.isEmpty || !decoder.reader.source.isEmpty) "SRS file contains trailing compressed data"

/- A limit is a size_t, so that a value up to it always fits in memory. -/
def checkedSize (value limit : Nat) (what : String) : Decode zlib Nat :=
  if value > limit then fail (what ++ " exceeds limit (" ++ toString value ++ " > " ++ toString limit ++ ")") else pure value

def readUvarintFrom (what : String) : Nat → Nat → UInt64 → Decode zlib UInt64
  | 0, _, _ => fail (what ++ " has an overflowing varint")
  | left + 1, index, value => do
    let byte ← readByte limits what
    failIf (index = 9 ∧ byte > 1) (what ++ " has an overflowing varint")
    let value := value ||| ((byte &&& 0x7f).toUInt64 <<< UInt64.ofNat (index * 7))
    if byte &&& 0x80 = 0 then
      failIf (index ≠ 0 ∧ byte &&& 0x7f = 0) (what ++ " has a non-canonical varint")
      pure value
    else readUvarintFrom what left (index + 1) value

def readUvarint (what : String) : Decode zlib UInt64 := readUvarintFrom limits what 10 0 0

def readCount (limit : Nat) (what : String) : Decode zlib Nat := do
  let value ← readUvarint limits what
  checkedSize value.toNat limit what

def readBeU64 (what : String) : Decode zlib UInt64 := do
  let bytes ← readExact limits what 8
  pure (bytes.foldl (fun value byte => (value <<< 8) ||| byte.toUInt64) 0)

def readBeU16 (what : String) : Decode zlib UInt16 := do
  let bytes ← readExact limits what 2
  pure (bytes.foldl (fun value byte => (value <<< 8) ||| byte.toUInt16) 0)

def readBool (what : String) : Decode zlib Bool := do
  let value ← readByte limits what
  failIf (value > 1) (what ++ " is not a canonical boolean")
  pure (value != 0)

def accountValues (count : Nat) (what : String) : Decode zlib Unit := do
  let decoder ← get
  failIf (count > limits.maxValues - decoder.totalValues) (what ++ " makes total value count exceed limit")
  modify fun decoder => { decoder with totalValues := decoder.totalValues + count }

def accountStringBytes (count : Nat) : Decode zlib Unit := do
  let decoder ← get
  failIf (count > limits.maxTotalStringBytes - decoder.totalStringBytes) "SRS total string data exceeds limit"
  modify fun decoder => { decoder with totalStringBytes := decoder.totalStringBytes + count }

def accountOutput (count : Nat) : Decode zlib Unit := do
  let decoder ← get
  failIf (count > limits.maxOutputEntries - decoder.decodedOutputEntries) "SRS decoded output entry count exceeds limit"
  modify fun decoder => { decoder with decodedOutputEntries := decoder.decodedOutputEntries + count }

def accountOutputStringBytes (count : Nat) : Decode zlib Unit := do
  let decoder ← get
  failIf (count > limits.maxOutputStringBytes - decoder.decodedOutputStringBytes)
    "SRS decoded output string data exceeds limit"
  modify fun decoder => { decoder with decodedOutputStringBytes := decoder.decodedOutputStringBytes + count }

def readMany {α : Type} (read : Nat → Decode zlib α) : Nat → Nat → Decode zlib (List α)
  | _, 0 => pure []
  | index, left + 1 => do
    let first ← read index
    let rest ← readMany read (index + 1) left
    pure (first :: rest)

def skipStringList (context : String) : Decode zlib (List Bytes) := do
  let count ← readCount limits limits.maxValues (context ++ " count")
  accountValues limits count context
  readMany (fun index => do
    let length ← readCount limits limits.maxStringBytes (context ++ "[" ++ toString index ++ "] length")
    accountStringBytes limits length
    readExact limits context length) 0 count

def skipU16List (context : String) : Decode zlib (List UInt16) := do
  let count ← readCount limits limits.maxValues (context ++ " count")
  accountValues limits count context
  readMany (fun _ => readBeU16 limits context) 0 count

def skipU8List (context : String) : Decode zlib Bytes := do
  let count ← readCount limits limits.maxValues (context ++ " count")
  accountValues limits count context
  readExact limits context count

def readAddress (context : String) : Decode zlib IpAddress := do
  let length ← readCount limits 16 (context ++ " address length")
  failIf (length ≠ 4 ∧ length ≠ 16) (context ++ " address length must be 4 or 16 bytes")
  readExact limits context length

def skipPrefix (context : String) : Decode zlib (IpAddress × UInt8) := do
  let address ← readAddress limits context
  let bits ← readByte limits (context ++ " prefix length")
  failIf (bits.toNat > address.length * 8) (context ++ " prefix length is out of range")
  pure (address,bits)

def readWordVector (context : String) : Decode zlib (List UInt64) := do
  let count ← readCount limits limits.maxTrieWords (context ++ " word count")
  readMany (fun _ => readBeU64 limits context) 0 count

def readByteVector (limit : Nat) (context : String) : Decode zlib Bytes := do
  let count ← readCount limits limit (context ++ " byte count")
  readExact limits context count

abbrev Reads {α : Type} (m : Decode zlib α) (P : α → Prop) : Prop := Wp.Passes Decoder.unsupportedFields m P

abbrev Yields {α : Type} (m : Decode zlib α) (P : α → Prop) : Prop := Wp.Passes (fun _ : Decoder zlib => ()) m P

theorem Reads.yields {α : Type} {m : Decode zlib α} {P : α → Prop} (reads : Reads m P) : Yields m P :=
  Wp.passesThrough (fun _ => ()) reads

open Wp

variable {limits} {α : Type} {P : α → Prop} {what : String}

theorem failReads {message : String} : Reads (fail message : Decode zlib α) P := passesThrow

theorem failIfReads {condition : Prop} [Decidable condition] {message : String} :
    Reads (failIf condition message : Decode zlib Unit) fun _ => ¬condition :=
  passesIte (fun _ => failReads) fun holds => passesPure holds

theorem takeOutputReads : Reads (takeOutput : Decode zlib (Option UInt8)) fun _ => True := by
  refine passesGet fun decoder => ?_
  split
  · exact passesPure trivial
  · exact passesBind (passesModify fun _ => rfl) fun _ _ => passesPure trivial

theorem fillReaderReads : Reads (fillReader limits : Decode zlib Bool) fun _ => True := by
  refine passesGet fun decoder => ?_
  split
  · exact passesThrow
  · exact passesBind (passesModify fun _ => rfl) fun _ _ => passesPure trivial

theorem tryReadByteReads : Reads (tryReadByte limits : Decode zlib (Option UInt8)) fun _ => True := by
  refine passesBind takeOutputReads fun taken _ => ?_
  cases taken with
  | some byte => exact passesPure trivial
  | none => exact passesBind fillReaderReads fun more _ => passesIte (fun _ => takeOutputReads) fun _ => passesPure trivial

theorem readByteReads : Reads (readByte limits what : Decode zlib UInt8) fun _ => True := by
  refine passesBind tryReadByteReads fun taken _ => ?_
  cases taken with
  | some byte => exact passesPure trivial
  | none => exact failReads

theorem readExactReads {size : Nat} : Reads (readExact limits what size : Decode zlib Bytes) fun bytes => bytes.length = size := by
  induction size with
  | zero => exact passesPure rfl
  | succ size ih =>
    refine passesBind readByteReads fun byte _ => passesBind ih fun rest length => passesPure ?_
    rw [List.length_cons,length]

theorem checkedSizeReads {value limit : Nat} : Reads (checkedSize value limit what : Decode zlib Nat) fun size => size ≤ limit := by
  refine passesIte (fun _ => failReads) fun few => passesPure ?_
  omega

theorem readUvarintReads : Reads (readUvarint limits what : Decode zlib UInt64) fun _ => True := by
  suffices ∀ left index value, Reads (readUvarintFrom limits what left index value : Decode zlib UInt64) fun _ => True from
    this 10 0 0
  intro left
  induction left with
  | zero => exact fun _ _ => failReads
  | succ left ih =>
    intro index value
    refine passesBind readByteReads fun byte _ => passesBind failIfReads fun _ _ => passesIte (fun _ => ?_) fun _ => ih _ _
    exact passesBind failIfReads fun _ _ => passesPure trivial

theorem readCountReads {limit : Nat} : Reads (readCount limits limit what : Decode zlib Nat) fun count => count ≤ limit :=
  passesBind readUvarintReads fun _ _ => checkedSizeReads

theorem readBeU64Reads : Reads (readBeU64 limits what : Decode zlib UInt64) fun _ => True :=
  passesBind readExactReads fun _ _ => passesPure trivial

theorem readBeU16Reads : Reads (readBeU16 limits what : Decode zlib UInt16) fun _ => True :=
  passesBind readExactReads fun _ _ => passesPure trivial

theorem readBoolReads : Reads (readBool limits what : Decode zlib Bool) fun _ => True :=
  passesBind readByteReads fun _ _ => passesBind failIfReads fun _ _ => passesPure trivial

theorem accountValuesReads {count : Nat} : Reads (accountValues limits count what : Decode zlib Unit) fun _ => True :=
  passesGet fun _ => passesBind failIfReads fun _ _ => passesModify fun _ => rfl

theorem accountStringBytesReads {count : Nat} : Reads (accountStringBytes limits count : Decode zlib Unit) fun _ => True :=
  passesGet fun _ => passesBind failIfReads fun _ _ => passesModify fun _ => rfl

theorem accountOutputReads {count : Nat} : Reads (accountOutput limits count : Decode zlib Unit) fun _ => True :=
  passesGet fun _ => passesBind failIfReads fun _ _ => passesModify fun _ => rfl

theorem accountOutputStringBytesReads {count : Nat} :
    Reads (accountOutputStringBytes limits count : Decode zlib Unit) fun _ => True :=
  passesGet fun _ => passesBind failIfReads fun _ _ => passesModify fun _ => rfl

theorem readManyPasses {ν : Type} {view : Decoder zlib → ν} {read : Nat → Decode zlib α}
    (each : ∀ index, Passes view (read index) P) {count : Nat} :
    ∀ {index : Nat}, Passes view (readMany read index count) fun all => all.length = count ∧ ∀ a ∈ all, P a := by
  induction count with
  | zero => exact passesPure ⟨rfl,fun _ none => by cases none⟩
  | succ count ih =>
    intro index
    refine passesBind (each index) fun first kind => passesBind ih fun rest kinds => passesPure ⟨?_,?_⟩
    · rw [List.length_cons,kinds.1]
    · exact List.forall_mem_cons.mpr ⟨kind,kinds.2⟩

theorem skipStringListReads : Reads (skipStringList limits what : Decode zlib (List Bytes)) fun _ => True := by
  refine passesBind readCountReads fun count _ => passesBind accountValuesReads fun _ _ => ?_
  refine passesMono (readManyPasses (P := fun _ => True) fun index => ?_) fun _ _ => trivial
  refine passesBind readCountReads fun _ _ => passesBind accountStringBytesReads fun _ _ => ?_
  exact passesMono readExactReads fun _ _ => trivial

theorem skipU16ListReads : Reads (skipU16List limits what : Decode zlib (List UInt16)) fun _ => True := by
  refine passesBind readCountReads fun count _ => passesBind accountValuesReads fun _ _ => ?_
  exact passesMono (readManyPasses fun index => readBeU16Reads) fun _ _ => trivial

theorem skipU8ListReads : Reads (skipU8List limits what : Decode zlib Bytes) fun _ => True :=
  passesBind readCountReads fun _ _ => passesBind accountValuesReads fun _ _ => passesMono readExactReads fun _ _ => trivial

theorem readAddressReads :
    Reads (readAddress limits what : Decode zlib IpAddress) fun address => address.length = 4 ∨ address.length = 16 := by
  refine passesBind readCountReads fun length _ => passesBind failIfReads fun _ sized => ?_
  refine passesMono readExactReads fun bytes size => ?_
  rw [size]
  omega

theorem skipPrefixReads : Reads (skipPrefix limits what : Decode zlib (IpAddress × UInt8)) fun _ => True :=
  passesBind readAddressReads fun _ _ => passesBind readByteReads fun _ _ => passesBind failIfReads fun _ _ => passesPure trivial

theorem readWordVectorReads : Reads (readWordVector limits what : Decode zlib (List UInt64)) fun _ => True :=
  passesBind readCountReads fun _ _ => passesMono (readManyPasses fun _ => readBeU64Reads) fun _ _ => trivial

theorem readByteVectorReads {limit : Nat} : Reads (readByteVector limits limit what : Decode zlib Bytes) fun _ => True :=
  passesBind readCountReads fun _ _ => passesMono readExactReads fun _ _ => trivial

end Readers

def idleZlib : Zlib where
  State := Unit
  inflateInit := some ()
  inflate := fun _ input _ => ⟨(),input,[],.streamEnd⟩
  taken := fun _ _ _ => Nat.le_refl _
  written := fun _ _ room => Nat.zero_le room
  progress := fun _ _ _ none => by cases none

def buffered (payload : Bytes) : Decoder idleZlib where
  reader := { source := [], stream := (), streamFinished := true, output := payload }

end KeenPbr.Srs

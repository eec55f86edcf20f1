import KeenPbr.Conntrack
import KeenPbr.Destinations

/-! No deletion of runtime/conntrack_manager.cpp is broader than the flows it was asked for. -/
namespace KeenPbr.Conntrack
open Blocks

section Bits

theorem insideAgrees {bits address : Bits} {length : Nat} (same : ∀ place < length, bits[place]? = address[place]?) :
    inside (bits.take length) address = true := by
  rw [takeAgrees same]
  exact insideIff.mpr (List.take_prefix _ _)

theorem byteMaskBit : ∀ remaining < 8, ∀ place < remaining, (byteMask remaining).toNat.testBit (7 - place) = true := by
  decide

theorem maskedBit {remaining place : Nat} (few : remaining < 8) (before : place < remaining) (byte : UInt8) :
    (byte &&& byteMask remaining).toNat.testBit (7 - place) = byte.toNat.testBit (7 - place) := by
  rw [UInt8.toNat_and,Nat.testBit_and,byteMaskBit remaining few place before,Bool.and_true]

theorem maskedIpv6Bit {bytes : List UInt8} {length place : Nat} (before : place < length) :
    (bitsOf (maskedIpv6 bytes length))[place]? = (bitsOf bytes)[place]? := by
  rw [bitsOfAt,bitsOfAt,maskedIpv6,List.getElem?_mapIdx]
  cases bytes[place / 8]? with
  | none => rfl
  | some byte =>
    simp only [Option.map_some,Option.some.injEq]
    split
    · rfl
    · rename_i after
      have last : length % 8 ≠ 0 ∧ place / 8 = length / 8 := by omega
      rw [if_pos last]
      exact maskedBit (by omega) (by omega) byte

theorem ipv4MaskBit {length place : Nat} (fits : length ≤ 32) (before : place < length) :
    (ipv4Mask length).testBit (31 - place) = true := by
  have every (index : Nat) (low : index < 32) : Nat.testBit 0xFFFFFFFF index = true := by
    rw [show 0xFFFFFFFF = 2 ^ 32 - 1 from rfl,Nat.testBit_two_pow_sub_one]
    exact decide_eq_true low
  rw [ipv4Mask]
  split
  · exact every _ (by omega)
  · rw [Nat.testBit_mod_two_pow,Nat.testBit_shiftLeft,every _ (by omega)]
    simp only [ge_iff_le,Bool.and_true,Bool.and_eq_true,decide_eq_true_eq]
    omega

theorem ipv4NumberBit {bytes : List UInt8} (four : bytes.length = 4) {place : Nat} (inside : place < 32) :
    bytes[place / 8]?.map (fun byte => byte.toNat.testBit (7 - place % 8)) = some ((ipv4Number bytes).testBit (31 - place)) := by
  obtain ⟨a,b,c,d,rfl⟩ : ∃ a b c d, bytes = [a,b,c,d] := by
    match bytes,four with
    | [a,b,c,d],_ => exact ⟨a,b,c,d,rfl⟩
  have number : ipv4Number [a,b,c,d] = (((0 * 256 + a.toNat) * 256 + b.toNat) * 256 + c.toNat) * 256 + d.toNat := rfl
  have boundA := a.toNat_lt
  have boundB := b.toNat_lt
  have boundC := c.toNat_lt
  have boundD := d.toNat_lt
  have byteAt (shift : Nat) (byte : UInt8) (low : 31 - place = shift + (7 - place % 8))
    (same : ipv4Number [a,b,c,d] >>> shift % 2 ^ 8 = byte.toNat) :
      byte.toNat.testBit (7 - place % 8) = (ipv4Number [a,b,c,d]).testBit (31 - place) := by
    rw [← same,Nat.testBit_mod_two_pow,Nat.testBit_shiftRight,low,decide_eq_true (by omega : 7 - place % 8 < 8),Bool.true_and]
  have cases : place / 8 = 0 ∨ place / 8 = 1 ∨ place / 8 = 2 ∨ place / 8 = 3 := by omega
  rcases cases with at0 | at1 | at2 | at3
  · rw [at0]
    exact congrArg some (byteAt 24 a (by omega) (by rw [Nat.shiftRight_eq_div_pow,number]; omega))
  · rw [at1]
    exact congrArg some (byteAt 16 b (by omega) (by rw [Nat.shiftRight_eq_div_pow,number]; omega))
  · rw [at2]
    exact congrArg some (byteAt 8 c (by omega) (by rw [Nat.shiftRight_eq_div_pow,number]; omega))
  · rw [at3]
    exact congrArg some (byteAt 0 d (by omega) (by rw [Nat.shiftRight_eq_div_pow,number]; omega))

theorem ipv4BytesBit (number : Nat) {place : Nat} (inside : place < 32) :
    (bitsOf (ipv4Bytes number))[place]? = some (number.testBit (31 - place)) := by
  have byteAt (shift : Nat) (low : 31 - place = shift + (7 - place % 8)) :
      (UInt8.ofNat (number >>> shift)).toNat.testBit (7 - place % 8) = number.testBit (31 - place) := by
    rw [UInt8.toNat_ofNat',Nat.testBit_mod_two_pow,Nat.testBit_shiftRight,low,decide_eq_true (by omega : 7 - place % 8 < 8),Bool.true_and]
  rw [bitsOfAt]
  have cases : place / 8 = 0 ∨ place / 8 = 1 ∨ place / 8 = 2 ∨ place / 8 = 3 := by omega
  rcases cases with at0 | at1 | at2 | at3
  · rw [at0]
    exact congrArg some (byteAt 24 (by omega))
  · rw [at1]
    exact congrArg some (byteAt 16 (by omega))
  · rw [at2]
    exact congrArg some (byteAt 8 (by omega))
  · rw [at3]
    exact congrArg some (byteAt 0 (by omega))

theorem maskedIpv4Bit {bytes : List UInt8} (four : bytes.length = 4) {length place : Nat} (fits : length ≤ 32) (before : place < length) :
    (bitsOf (maskedIpv4 bytes length))[place]? = (bitsOf bytes)[place]? := by
  rw [maskedIpv4,ipv4BytesBit _ (by omega),Nat.testBit_and,ipv4MaskBit fits before,Bool.and_true,bitsOfAt bytes,
    ipv4NumberBit four (by omega)]

end Bits

section Normalized
variable {inet : Inet} {raw : Text} {cidr other : NormalizedTargetCidr} {host : NormalizedHostAddress}

def byteCount (ipv6 : Bool) : Nat := if ipv6 then 16 else 4

theorem readLength (spelled : inet.Spelled) {ipv6 : Bool} {address : String} {bytes : List UInt8}
    (read : inet.pton (familyOf ipv6) address = some bytes) : bytes.length = byteCount ipv6 := by
  cases ipv6 with
  | true => exact (spelled.documented.v6 address bytes read).1
  | false => exact (spelled.documented.v4 address bytes read).1

theorem isIpv6Of (ipv6 : Bool) : (if ipv6 = true then TargetAddressFamily.ipv6 else .ipv4).isIpv6 = ipv6 := by
  cases ipv6 <;> rfl

theorem isIpv6Injective {a b : TargetAddressFamily} (same : a.isIpv6 = b.isIpv6) : a = b := by
  cases a <;> cases b <;> first | rfl | cases same

structure Targeted (inet : Inet) (raw : Text) (cidr : NormalizedTargetCidr) : Prop where
  block : ∃ address, cidrBlock inet cidr.family.isIpv6 (trimAsciiWhitespace raw) = some ((bitsOf address).take cidr.length) ∧
    ∀ place < cidr.length, (bitsOf cidr.network)[place]? = (bitsOf address)[place]?
  size : cidr.network.length = byteCount cidr.family.isIpv6
  fits : cidr.length ≤ 8 * byteCount cidr.family.isIpv6
  value : ∃ normalized, inet.ntop (familyOf cidr.family.isIpv6) cidr.network = some normalized ∧
    cidr.value = normalized ++ "/" ++ toString cidr.length

theorem targetedBlock {ipv6 : Bool} {text : Text} {length : Int} (read : targetedPrefix ipv6 text = some length) :
    cidrBlock inet ipv6 text = prefixBlock inet ipv6 (hostPart text) length := by
  unfold targetedPrefix at read
  cases shape : text.dropWhile (· != '/') with
  | nil =>
    obtain ⟨plain,whole⟩ := noSlash shape
    rw [shape] at read
    cases read
    rw [cidrBlock,plain,if_neg Bool.false_ne_true,whole]
    cases ipv6 <;> rfl
  | cons slash digits =>
    rw [shape] at read
    dsimp only at read
    split at read
    · cases read
    · have slashed : text.contains '/' = true := (slashTail shape).1
      rw [cidrBlock,slashed,if_pos rfl,prefixNumber,shape]
      dsimp only
      rw [read]
      rfl

theorem targeted (spelled : inet.Spelled) (read : normalizeTargetedCidr inet raw = some cidr) : Targeted inet raw cidr := by
  unfold normalizeTargetedCidr at read
  dsimp only at read
  split at read
  · cases read
  · generalize (hostPart (trimAsciiWhitespace raw)).contains ':' = ipv6 at read
    simp only [Option.bind_eq_bind,Option.bind_eq_some_iff] at read
    obtain ⟨length,lengthRead,read⟩ := read
    split at read
    · cases read
    · rename_i range
      simp only [not_or,not_le,not_lt] at range
      simp only [Option.bind_eq_some_iff,Option.some.injEq] at read
      obtain ⟨address,addressRead,normalized,written,rfl⟩ := read
      have size := readLength spelled addressRead
      have fits : length.toNat ≤ 8 * byteCount ipv6 := by
        have most := range.2
        unfold maxPrefix at most
        unfold byteCount
        cases ipv6 <;> simp only [Bool.false_eq_true,if_false,if_true] at most ⊢ <;> omega
      have block : cidrBlock inet ipv6 (trimAsciiWhitespace raw) = some ((bitsOf address).take length.toNat) := by
        rw [targetedBlock lengthRead,prefixBlock,addressRead]
        rfl
      refine ⟨⟨address,?_,?_⟩,?_,?_,⟨normalized,?_,rfl⟩⟩
      · rw [isIpv6Of]
        exact block
      · intro place before
        cases ipv6 with
        | true => exact maskedIpv6Bit before
        | false => exact maskedIpv4Bit size fits before
      · rw [isIpv6Of]
        cases ipv6 with
        | true =>
          simp only [if_true,maskedIpv6,List.length_mapIdx]
          exact size
        | false => rfl
      · rw [isIpv6Of]
        exact fits
      · rw [isIpv6Of]
        exact written

structure Hosted (inet : Inet) (raw : Text) (host : NormalizedHostAddress) : Prop where
  read : inet.pton (familyOf host.family.isIpv6) (cString (hostPart (trimAsciiWhitespace raw))) = some host.bytes
  family : host.family.isIpv6 = (hostPart (trimAsciiWhitespace raw)).contains ':'
  written : inet.ntop (familyOf host.family.isIpv6) host.bytes = some host.value

theorem hosted (read : normalizeHostAddress inet raw = some host) : Hosted inet raw host := by
  unfold normalizeHostAddress at read
  dsimp only at read
  split at read
  · cases read
  · simp only [Option.bind_eq_bind,Option.bind_eq_some_iff,Option.some.injEq] at read
    obtain ⟨bytes,bytesRead,normalized,written,rfl⟩ := read
    refine ⟨?_,isIpv6Of _,?_⟩
    · rw [isIpv6Of]
      exact bytesRead
    · rw [isIpv6Of]
      exact written

theorem containsBits (contains : cidrContains cidr host = true) (size : cidr.network.length = byteCount cidr.family.isIpv6)
    (hostSize : host.bytes.length = byteCount cidr.family.isIpv6) (fits : cidr.length ≤ 8 * byteCount cidr.family.isIpv6) :
    cidr.family = host.family ∧ ∀ place < cidr.length, (bitsOf cidr.network)[place]? = (bitsOf host.bytes)[place]? := by
  unfold cidrContains at contains
  split at contains
  · cases contains
  · rename_i family
    rw [not_not] at family
    dsimp only at contains
    split at contains
    · cases contains
    · rename_i front
      rw [not_not] at front
      refine ⟨family,fun place before => ?_⟩
      rw [bitsOfAt,bitsOfAt]
      by_cases complete : place / 8 < cidr.length / 8
      · have same := congrArg (·[place / 8]?) front
        simp only [List.getElem?_take,complete,if_true] at same
        rw [same]
      · have last : place / 8 = cidr.length / 8 := by omega
        have inside : cidr.length / 8 < byteCount cidr.family.isIpv6 := by omega
        have bytes : (if cidr.family = .ipv6 then 16 else 4) = byteCount cidr.family.isIpv6 := by
          cases cidr.family <;> rfl
        rw [if_neg (by rw [bytes]; omega),beq_iff_eq] at contains
        rw [last]
        have inNetwork : cidr.length / 8 < cidr.network.length := by omega
        have inHost : cidr.length / 8 < host.bytes.length := by omega
        simp only [List.getD_eq_getElem?_getD,List.getElem?_eq_getElem inNetwork,List.getElem?_eq_getElem inHost,
          Option.getD_some] at contains
        rw [List.getElem?_eq_getElem inNetwork,List.getElem?_eq_getElem inHost,Option.map_some,Option.map_some,
          ← maskedBit (by omega : cidr.length % 8 < 8) (by omega : place % 8 < cidr.length % 8),contains,
          maskedBit (by omega : cidr.length % 8 < 8) (by omega : place % 8 < cidr.length % 8)]

theorem containedIn (spelled : inet.Spelled) (target : Targeted inet raw cidr) {address : String}
    (read : inet.pton (familyOf host.family.isIpv6) address = some host.bytes) (contains : cidrContains cidr host = true) :
    cidr.family = host.family ∧ inCidr inet host.family.isIpv6 (trimAsciiWhitespace raw) (bitsOf host.bytes) = true := by
  have family : cidr.family = host.family := by
    unfold cidrContains at contains
    split at contains
    · cases contains
    · rename_i family
      exact not_not.mp family
  have hostSize : host.bytes.length = byteCount cidr.family.isIpv6 := by
    rw [family]
    exact readLength spelled read
  obtain ⟨_,bits⟩ := containsBits contains target.size hostSize target.fits
  obtain ⟨address,block,kept⟩ := target.block
  refine ⟨family,?_⟩
  rw [← family,inCidr,block]
  exact insideAgrees fun place before => (kept place before).symm.trans (bits place before)

theorem ntopInjective (spelled : inet.Spelled) {ipv6 : Bool} {a b : List UInt8} {text : String} (aSize : a.length = byteCount ipv6)
    (bSize : b.length = byteCount ipv6) (aText : inet.ntop (familyOf ipv6) a = some text)
    (bText : inet.ntop (familyOf ipv6) b = some text) :
    a = b := by
  have width (bytes : List UInt8) (size : bytes.length = byteCount ipv6) : 8 * bytes.length = addressWidth ipv6 := by
    rw [size]
    cases ipv6 <;> rfl
  exact Option.some.inj ((spelled.back ipv6 a text (width a aSize) aText).symm.trans (spelled.back ipv6 b text (width b bSize) bText))

theorem readNoSlash (spelled : inet.Spelled) {ipv6 : Bool} {address : String} {bytes : List UInt8}
    (read : inet.pton (familyOf ipv6) address = some bytes) : '/' ∉ address.toList := by
  have chars : ∀ c ∈ address.toList, addressChar c = true := by
    cases ipv6 with
    | true => exact ipv6ReadChars (readsV6 spelled read).2
    | false => exact ipv4Chars (readsV4 spelled read)
  intro mem
  exact absurd (chars '/' mem) (by decide)

theorem familyKeyInjective {a b : Bool} {left right : String} (same : familyKey a left = familyKey b right) : a = b ∧ left = right := by
  have texts := congrArg String.toList same
  unfold familyKey at texts
  cases a <;> cases b <;> simp only [Bool.false_eq_true,if_false,if_true,String.toList_append] at texts
  · exact ⟨rfl,String.toList_inj.mp (List.append_cancel_left texts)⟩
  · cases texts
  · cases texts
  · exact ⟨rfl,String.toList_inj.mp (List.append_cancel_left texts)⟩

theorem cidrTextInjective {left right : String} {m n : Nat} (leftPlain : '/' ∉ left.toList) (rightPlain : '/' ∉ right.toList)
    (same : left ++ "/" ++ toString m = right ++ "/" ++ toString n) : left = right ∧ m = n := by
  have texts := congrArg String.toList same
  simp only [String.toList_append,List.append_assoc] at texts
  have free (text : Text) (plain : '/' ∉ text) : ∀ c ∈ text, (c != '/') = true := fun c mem => bne_iff_ne.mpr fun slash =>
    plain (slash ▸ mem)
  have addresses := congrArg (List.takeWhile (· != '/')) texts
  rw [takeRun (free _ leftPlain) rfl,takeRun (free _ rightPlain) rfl] at addresses
  have lengths := congrArg (List.dropWhile (· != '/')) texts
  rw [dropRun (free _ leftPlain) rfl,dropRun (free _ rightPlain) rfl] at lengths
  have digits := congrArg (fun text => Nat.ofDigitChars 10 text 0) (List.append_cancel_left lengths)
  rw [(toStringDigits m).2.2,(toStringDigits n).2.2] at digits
  exact ⟨String.toList_inj.mp addresses,digits⟩

theorem writtenNoSlash (spelled : inet.Spelled) {ipv6 : Bool} {bytes : List UInt8} {text : String} (size : bytes.length = byteCount ipv6)
    (written : inet.ntop (familyOf ipv6) bytes = some text) : '/' ∉ text.toList := by
  have width : 8 * bytes.length = addressWidth ipv6 := by
    rw [size]
    cases ipv6 <;> rfl
  exact readNoSlash spelled (spelled.back ipv6 bytes text width written)

theorem sameTarget (spelled : inet.Spelled) {text : Text} (target : Targeted inet raw cidr) (again : Targeted inet text other)
    (same : selectorKey cidr = selectorKey other) :
    cidr.family = other.family ∧ cidr.network = other.network ∧ cidr.length = other.length := by
  obtain ⟨ipv6,values⟩ := familyKeyInjective same
  have family := isIpv6Injective ipv6
  obtain ⟨left,leftText,leftValue⟩ := target.value
  obtain ⟨right,rightText,rightValue⟩ := again.value
  rw [← ipv6] at rightText
  have otherSize : other.network.length = byteCount cidr.family.isIpv6 := by
    rw [ipv6]
    exact again.size
  rw [leftValue,rightValue] at values
  obtain ⟨addresses,lengths⟩ := cidrTextInjective (writtenNoSlash spelled target.size leftText)
    (writtenNoSlash spelled otherSize rightText) values
  refine ⟨family,ntopInjective spelled target.size otherSize leftText ?_,lengths⟩
  rw [addresses]
  exact rightText

theorem sameContains (family : cidr.family = other.family) (network : cidr.network = other.network) (length : cidr.length = other.length) :
    cidrContains cidr host = cidrContains other host := by
  unfold cidrContains
  rw [family,network,length]

end Normalized

section Lines
variable {inet : Inet}

inductive MarkText : Text → UInt32 → Prop where
  | decimal {digits : Text} {mark : UInt32} (filled : digits ≠ []) (plain : ∀ c ∈ digits, isDigit c = true)
      (value : Nat.ofDigitChars 10 digits 0 = mark.toNat) : MarkText digits mark
  | hexadecimal {x : Char} {digits : Text} {mark : UInt32} (lead : x = 'x' ∨ x = 'X') (filled : digits ≠ [])
    (plain : ∀ c ∈ digits, isHex c = true)
      (value : digits.foldl (fun value c => value * 16 + (hexDigit c).getD 0) 0 = mark.toNat) : MarkText ('0' :: x :: digits) mark

theorem wordRead {hex : Bool} {value : Text} {mark : UInt32} (read : fromCharsWord hex value = some mark) :
    value ≠ [] ∧ (∀ c ∈ value, (if hex then isHex else isDigit) c = true) ∧
      (if hex then hexNumber value else Nat.ofDigitChars 10 value 0) = mark.toNat := by
  unfold fromCharsWord at read
  dsimp only at read
  generalize (if hex then isHex else isDigit) = digit at read ⊢
  generalize (if hex then hexNumber value else Nat.ofDigitChars 10 value 0) = number at read ⊢
  split at read
  · cases read
  · rename_i plain
    simp only [Bool.or_eq_true,List.isEmpty_iff,Bool.not_eq_true',decide_eq_true_eq,not_or,Bool.not_eq_false,List.all_eq_true] at plain
    obtain ⟨⟨filled,digits⟩,fits⟩ := plain
    cases read
    rw [UInt32.toNat_ofNat',Nat.mod_eq_of_lt (Nat.not_le.mp fits)]
    exact ⟨filled,digits,rfl⟩

theorem markWritten {value : Text} {mark : UInt32} (read : parseExplicitConntrackMark value = some mark) : MarkText value mark := by
  have decimal {value : Text} (read : fromCharsWord false value = some mark) : MarkText value mark := by
    obtain ⟨filled,plain,number⟩ := wordRead read
    exact .decimal filled plain number
  unfold parseExplicitConntrackMark at read
  split at read
  · split at read
    · rename_i lead
      obtain ⟨filled,plain,number⟩ := wordRead read
      rw [Bool.or_eq_true,beq_iff_eq,beq_iff_eq] at lead
      exact .hexadecimal lead filled plain number
    · exact decimal read
  · exact decimal read

/- A line of the snapshot shows a flow: its first word names the family, the first source and the
first destination are the addresses, and the one mark is the flow's. -/
structure Shows (inet : Inet) (line : Text) (ipv6 : Bool) (source destination : List UInt8) (mark : UInt32) : Prop where
  words : ∃ tokens, splitFields line = text (if ipv6 then "ipv6" else "ipv4") :: tokens ∧
    (∃ address, tokens.find? (startsWith · "src=") = some (text "src=" ++ address) ∧
      inet.pton (familyOf ipv6) (cString address) = some source) ∧
    (∃ address, tokens.find? (startsWith · "dst=") = some (text "dst=" ++ address) ∧
      inet.pton (familyOf ipv6) (cString address) = some destination) ∧
    ∃ value, tokens.filter (startsWith · "mark=") = [text "mark=" ++ value] ∧ MarkText value mark

theorem splitFree {p : Char → Bool} {value field : Text} (mem : field ∈ value.splitOnP p) : ∀ c ∈ field, p c = false := by
  induction value generalizing field with
  | nil =>
    rw [List.splitOnP_nil,List.mem_singleton] at mem
    rw [mem]
    exact fun _ impossible => by cases impossible
  | cons c rest ih =>
    rw [List.splitOnP_cons_eq_if_modifyHead] at mem
    split at mem
    · rcases List.mem_cons.mp mem with rfl | later
      · exact fun _ impossible => by cases impossible
      · exact ih later
    · rename_i plain
      rw [Bool.not_eq_true] at plain
      cases shape : rest.splitOnP p with
      | nil => exact absurd shape (List.splitOnP_ne_nil p rest)
      | cons first later =>
        rw [shape,List.modifyHead_cons,List.mem_cons] at mem
        rcases mem with rfl | other
        · intro d inside
          rcases List.mem_cons.mp inside with rfl | old
          · exact plain
          · exact ih (shape ▸ List.mem_cons_self) d old
        · exact ih (shape ▸ List.mem_cons_of_mem _ other)

theorem fieldFree {line token : Text} (mem : token ∈ splitFields line) : ∀ c ∈ token, isSpace c = false :=
  splitFree (List.mem_of_mem_filter mem)

theorem trimmedFree {value : Text} (free : ∀ c ∈ value, isSpace c = false) : trimAsciiWhitespace value = value := by
  have blank (c : Char) (plain : isSpace c = false) : (c == ' ' || c == '\t' || c == '\r' || c == '\n') = false := by
    simp only [isSpace,Bool.or_eq_false_iff] at plain ⊢
    exact ⟨⟨⟨plain.1.1.1.1.1,plain.1.1.1.1.2⟩,plain.2⟩,plain.1.1.1.2⟩
  have start (chars : Text) (same : ∀ c ∈ chars, isSpace c = false) :
      chars.dropWhile (fun c => c == ' ' || c == '\t' || c == '\r' || c == '\n') = chars := by
    cases chars with
    | nil => rfl
    | cons c rest => exact List.dropWhile_cons_of_neg (by rw [blank c (same c List.mem_cons_self)]; exact Bool.false_ne_true)
  unfold trimAsciiWhitespace Fields.strip
  rw [start value free,start value.reverse fun c mem => free c (List.mem_reverse.mp mem),List.reverse_reverse]

structure Endpoint (inet : Inet) (address : Text) (host : NormalizedHostAddress) : Prop where
  read : inet.pton (familyOf host.family.isIpv6) (cString address) = some host.bytes
  written : inet.ntop (familyOf host.family.isIpv6) host.bytes = some host.value

theorem endpointRead {address : Text} {host : NormalizedHostAddress} (free : ∀ c ∈ address, isSpace c = false)
    (read : endpoint inet address = some host) : Endpoint inet address host := by
  unfold endpoint at read
  split at read
  · cases read
  · rename_i plain
    have own := hosted read
    have slashless : hostPart address = address := by
      refine List.takeWhile_eq_self_iff.mpr fun c mem => bne_iff_ne.mpr fun slash => plain ?_
      rw [List.contains_iff_mem,← slash]
      exact mem
    refine ⟨?_,own.written⟩
    have text := own.read
    rwa [trimmedFree free,slashless] at text

structure WordsRead (inet : Inet) (done : List Text) (words : PairWords) : Prop where
  sourceMissing : words.source = none → done.find? (startsWith · "src=") = none
  source : ∀ host, words.source = some host → ∃ address, done.find? (startsWith · "src=") = some (text "src=" ++ address) ∧
    Endpoint inet address host
  destinationMissing : words.destination = none → done.find? (startsWith · "dst=") = none
  destination : ∀ host, words.destination = some host →
    ∃ address, done.find? (startsWith · "dst=") = some (text "dst=" ++ address) ∧ Endpoint inet address host
  ordered : words.source = none → words.destination = none
  markMissing : words.mark = none → done.filter (startsWith · "mark=") = []
  mark : ∀ mark, words.mark = some mark →
    ∃ value, done.filter (startsWith · "mark=") = [text "mark=" ++ value] ∧ MarkText value mark

theorem findKept {p : Text → Bool} {done : List Text} {found : Text} (first : done.find? p = some found) (token : Text) :
    (done ++ [token]).find? p = some found := by
  rw [List.find?_append,first]
  rfl

theorem findOther {p : Text → Bool} (done : List Text) {token : Text} (other : p token = false) :
    (done ++ [token]).find? p = done.find? p := by
  rw [List.find?_append,List.find?_cons_of_neg (by rw [other]; exact Bool.false_ne_true),List.find?_nil,Option.or_none]

theorem findFirst {p : Text → Bool} {done : List Text} {token : Text} (missing : done.find? p = none) (own : p token = true) :
    (done ++ [token]).find? p = some token := by
  rw [List.find?_append,missing,List.find?_cons_of_pos own]
  rfl

theorem filterOther {p : Text → Bool} (done : List Text) {token : Text} (other : p token = false) :
    (done ++ [token]).filter p = done.filter p := by
  rw [List.filter_append,List.filter_cons_of_neg (by rw [other]; exact Bool.false_ne_true),List.filter_nil,List.append_nil]

theorem startsShape {token : Text} {start : String} (starts : startsWith token start = true) : ∃ rest, token = text start ++ rest := by
  obtain ⟨rest,same⟩ := List.isPrefixOf_iff_prefix.mp starts
  exact ⟨rest,same.symm⟩

variable {done : List Text} {words next : PairWords} {token : Text}

theorem sourceWord (read : WordsRead inet done words) {address : Text} {host : NormalizedHostAddress} (first : words.source = none)
    (own : Endpoint inet address host) : WordsRead inet (done ++ [text "src=" ++ address]) { words with source := some host } where
  sourceMissing impossible := by cases impossible
  source other same := by
    cases same
    exact ⟨address,findFirst (read.sourceMissing first) rfl,own⟩
  destinationMissing missing := (findOther done rfl).trans (read.destinationMissing missing)
  destination other same := by
    rw [findOther done rfl]
    exact read.destination other same
  ordered impossible := by cases impossible
  markMissing missing := (filterOther done rfl).trans (read.markMissing missing)
  mark value same := by
    rw [filterOther done rfl]
    exact read.mark value same

theorem destinationWord (read : WordsRead inet done words) {address : Text} {host : NormalizedHostAddress}
    (first : words.destination = none)
    (after : words.source ≠ none) (own : Endpoint inet address host) :
    WordsRead inet (done ++ [text "dst=" ++ address]) { words with destination := some host } where
  sourceMissing missing := absurd missing after
  source other same := by
    rw [findOther done rfl]
    exact read.source other same
  destinationMissing impossible := by cases impossible
  destination other same := by
    cases same
    exact ⟨address,findFirst (read.destinationMissing first) rfl,own⟩
  ordered missing := absurd missing after
  markMissing missing := (filterOther done rfl).trans (read.markMissing missing)
  mark value same := by
    rw [filterOther done rfl]
    exact read.mark value same

theorem markWord (read : WordsRead inet done words) {value : Text} {mark : UInt32} (first : words.mark = none)
    (own : MarkText value mark) : WordsRead inet (done ++ [text "mark=" ++ value]) { words with mark := some mark } where
  sourceMissing missing := (findOther done rfl).trans (read.sourceMissing missing)
  source other same := by
    rw [findOther done rfl]
    exact read.source other same
  destinationMissing missing := (findOther done rfl).trans (read.destinationMissing missing)
  destination other same := by
    rw [findOther done rfl]
    exact read.destination other same
  ordered := read.ordered
  markMissing impossible := by cases impossible
  mark other same := by
    cases same
    refine ⟨value,?_,own⟩
    rw [List.filter_append,read.markMissing first]
    rfl

theorem otherWord (read : WordsRead inet done words) (source : startsWith token "src=" = true → words.destination ≠ none)
    (destination : startsWith token "dst=" = true → words.destination ≠ none) (mark : startsWith token "mark=" = false) :
    WordsRead inet (done ++ [token]) words where
  sourceMissing missing := by
    have silent : startsWith token "src=" = false := Bool.eq_false_iff.mpr fun starts => source starts (read.ordered missing)
    exact (findOther done silent).trans (read.sourceMissing missing)
  source host same := by
    obtain ⟨address,found,own⟩ := read.source host same
    exact ⟨address,findKept found token,own⟩
  destinationMissing missing := by
    have silent : startsWith token "dst=" = false := Bool.eq_false_iff.mpr fun starts => destination starts missing
    exact (findOther done silent).trans (read.destinationMissing missing)
  destination host same := by
    obtain ⟨address,found,own⟩ := read.destination host same
    exact ⟨address,findKept found token,own⟩
  ordered := read.ordered
  markMissing missing := (filterOther done mark).trans (read.markMissing missing)
  mark number same := by
    obtain ⟨value,kept,own⟩ := read.mark number same
    exact ⟨value,(filterOther done mark).trans kept,own⟩

theorem readWordKeeps (read : WordsRead inet done words) (free : ∀ c ∈ token, isSpace c = false)
    (word : readWord inet words token = some next) :
    WordsRead inet (done ++ [token]) next := by
  have freeAfter {start address : Text} (shape : token = start ++ address) : ∀ c ∈ address, isSpace c = false :=
    fun c mem => free c (shape ▸ List.mem_append_right _ mem)
  unfold readWord at word
  split at word
  · rename_i isSource
    rw [Bool.and_eq_true] at isSource
    obtain ⟨address,rfl⟩ := startsShape isSource.1
    split at word
    · cases word
    · rename_i first
      obtain ⟨host,own,rfl⟩ := Option.map_eq_some_iff.mp word
      exact sourceWord read (Option.not_isSome_iff_eq_none.mp first) (endpointRead (freeAfter rfl) own)
  · rename_i notSource
    split at word
    · rename_i isDestination
      rw [Bool.and_eq_true] at isDestination
      obtain ⟨address,rfl⟩ := startsShape isDestination.1
      split at word
      · cases word
      · rename_i after
        obtain ⟨host,own,rfl⟩ := Option.map_eq_some_iff.mp word
        exact destinationWord read (Option.isNone_iff_eq_none.mp isDestination.2)
          (fun missing => after (Option.isNone_iff_eq_none.mpr missing))
          (endpointRead (freeAfter rfl) own)
    · rename_i notDestination
      split at word
      · rename_i isMark
        obtain ⟨value,rfl⟩ := startsShape isMark
        split at word
        · cases word
        · rename_i first
          obtain ⟨mark,own,rfl⟩ := Option.map_eq_some_iff.mp word
          exact markWord read (Option.not_isSome_iff_eq_none.mp first) (markWritten own)
      · rename_i notMark
        cases word
        refine otherWord read (fun starts missing => notSource ?_) (fun starts missing => notDestination ?_) (Bool.eq_false_iff.mpr notMark)
        · rw [starts,missing]
          rfl
        · rw [starts,missing]
          rfl

theorem readWords {tokens : List Text} (read : WordsRead inet done words) (free : ∀ token ∈ tokens, ∀ c ∈ token, isSpace c = false)
    (all : tokens.foldlM (readWord inet) words = some next) : WordsRead inet (done ++ tokens) next := by
  induction tokens generalizing done words with
  | nil =>
    cases all
    rwa [List.append_nil]
  | cons token rest ih =>
    rw [List.foldlM_cons] at all
    obtain ⟨middle,word,later⟩ := Option.bind_eq_some_iff.mp all
    have step := readWordKeeps read (free token List.mem_cons_self) word
    rw [List.append_cons]
    exact ih step (fun other mem => free other (List.mem_cons_of_mem token mem)) later

theorem parsedShows {line : Text} {parsed : ParsedConntrackOriginalPair} (read : parseConntrackOriginalPair inet line = some parsed) :
    parsed.source.family = parsed.destination.family ∧
    Shows inet line parsed.source.family.isIpv6 parsed.source.bytes parsed.destination.bytes parsed.mark ∧
    inet.ntop (familyOf parsed.source.family.isIpv6) parsed.source.bytes = some parsed.source.value ∧
    inet.ntop (familyOf parsed.source.family.isIpv6) parsed.destination.bytes = some parsed.destination.value := by
  unfold parseConntrackOriginalPair at read
  split at read
  · cases read
  · rename_i familyToken tokens shape
    split at read
    · cases read
    · rename_i known
      simp only [Option.bind_eq_bind,Option.bind_eq_some_iff] at read
      obtain ⟨words,all,source,isSource,destination,isDestination,mark,isMark,read⟩ := read
      split at read
      · cases read
      · rename_i families
        split at read
        · cases read
        · rename_i named
          cases read
          rw [not_not] at families named
          have start : WordsRead inet [] {} :=
            ⟨fun _ => rfl,(fun _ same => by cases same),fun _ => rfl,(fun _ same => by cases same),fun _ => rfl,
            fun _ => rfl,fun _ same => by cases same⟩
          have free : ∀ token ∈ tokens, ∀ c ∈ token, isSpace c = false :=
            fun token mem => fieldFree (shape ▸ List.mem_cons_of_mem familyToken mem)
          have final := readWords start free all
          rw [List.nil_append] at final
          obtain ⟨first,firstFound,firstRead⟩ := final.source source isSource
          obtain ⟨second,secondFound,secondRead⟩ := final.destination destination isDestination
          have token : familyToken = text (if source.family.isIpv6 then "ipv6" else "ipv4") := by
            rw [← named]
            rw [not_and_or,not_not,not_not] at known
            rcases known with rfl | rfl <;> rfl
          have secondText := secondRead.read
          have secondWritten := secondRead.written
          rw [← families] at secondText secondWritten
          exact ⟨families,⟨tokens,by rw [shape,token],⟨first,firstFound,firstRead.read⟩,⟨second,secondFound,secondText⟩,
            final.mark mark isMark⟩,
            firstRead.written,secondWritten⟩

end Lines

section Selection
variable {inet : Inet} {options : ConntrackForwardedFlowCleanupOptions} {normals aggressives : List Text} {known : Selectors}

structure Given (inet : Inet) (all aggressives : List Text) (known : Selectors) : Prop where
  given : ∀ selector ∈ known.selectors, ∃ raw ∈ all, Targeted inet raw selector.cidr
  owned : ∀ selector ∈ known.selectors, selector.allowOwnedMark = true →
    ∃ raw ∈ aggressives, ∃ cidr, Targeted inet raw cidr ∧ selectorKey cidr = selectorKey selector.cidr

theorem appendSelectorGiven (spelled : inet.Spelled) {allowUnmarked allowOwnedMark : Bool} {all : List Text} {raw : Text} (mem : raw ∈ all)
    (aggressive : allowOwnedMark = true → raw ∈ aggressives) (given : Given inet all aggressives known) :
    Given inet all aggressives (appendSelector inet options allowUnmarked allowOwnedMark known raw) := by
  unfold appendSelector
  split
  · exact ⟨given.given,given.owned⟩
  · rename_i normalized read
    have target := targeted spelled read
    split
    · exact given
    · split
      · refine ⟨fun selector listed => ?_,fun selector listed owned => ?_⟩
        · obtain ⟨before,old,rfl⟩ := List.mem_map.mp listed
          obtain ⟨text,textMem,same⟩ := given.given before old
          refine ⟨text,textMem,?_⟩
          split <;> exact same
        · obtain ⟨before,old,rfl⟩ := List.mem_map.mp listed
          split at owned
          · rename_i same
            rw [if_pos same]
            rcases Bool.or_eq_true_iff.mp owned with already | now
            · exact given.owned before old already
            · exact ⟨raw,aggressive now,normalized,target,same.symm⟩
          · rename_i other
            rw [if_neg other]
            exact given.owned before old owned
      · split
        · exact ⟨given.given,given.owned⟩
        · refine ⟨fun selector listed => ?_,fun selector listed owned => ?_⟩
          · rcases List.mem_append.mp listed with old | new
            · exact given.given selector old
            · cases List.mem_singleton.mp new
              exact ⟨raw,mem,target⟩
          · rcases List.mem_append.mp listed with old | new
            · exact given.owned selector old owned
            · cases List.mem_singleton.mp new
              exact ⟨raw,aggressive owned,normalized,target,rfl⟩

theorem appendSelectorsGiven (spelled : inet.Spelled) {allowUnmarked allowOwnedMark : Bool} {all inputs : List Text}
    (mem : ∀ raw ∈ inputs, raw ∈ all) (aggressive : allowOwnedMark = true → ∀ raw ∈ inputs, raw ∈ aggressives)
    (given : Given inet all aggressives known) :
    Given inet all aggressives (appendSelectors inet options allowUnmarked allowOwnedMark known inputs) := by
  have fold (list : List Text) (part : ∀ raw ∈ list, raw ∈ inputs) (known : Selectors) (given : Given inet all aggressives known) :
      Given inet all aggressives (list.foldl (appendSelector inet options allowUnmarked allowOwnedMark) known) := by
    induction list generalizing known with
    | nil => exact given
    | cons raw rest ih =>
      have own := part raw List.mem_cons_self
      exact ih (fun other later => part other (List.mem_cons_of_mem raw later)) _
        (appendSelectorGiven spelled (mem raw own) (fun owned => aggressive owned raw own) given)
  unfold appendSelectors
  refine fold _ (fun raw taken => List.mem_of_mem_take taken) _ ?_
  split
  · exact ⟨given.given,given.owned⟩
  · exact given

variable {ownedMask : UInt32} {locals : List String} {selectors : List NormalizedForwardedDestinationSelector}

structure Scoped (inet : Inet) (ownedMask : UInt32) (selectors : List NormalizedForwardedDestinationSelector)
    (locals : List String) (lines : List Text)
    (flow : ConntrackForwardedFlowPair) (parsed : ParsedConntrackOriginalPair) : Prop where
  line : ∃ line ∈ lines, parseConntrackOriginalPair inet line = some parsed
  same : flow = ⟨parsed.source.value,parsed.destination.value,parsed.source.family.isIpv6,parsed.mark⟩
  source : familyKey parsed.source.family.isIpv6 parsed.source.value ∉ locals
  destination : familyKey parsed.source.family.isIpv6 parsed.destination.value ∉ locals
  selected : ∃ selector ∈ selectors, selectorAllows ownedMask parsed selector = true

structure Found (inet : Inet) (ownedMask : UInt32) (options : ConntrackForwardedFlowCleanupOptions)
    (selectors : List NormalizedForwardedDestinationSelector) (locals : List String) (lines : List Text) (scan : FlowScan) : Prop where
  each : ∀ flow ∈ scan.flows, ∃ parsed, Scoped inet ownedMask selectors locals lines flow parsed
  few : scan.flows.length ≤ options.maxFlows

theorem scanLineFound {lines : List Text} {line : Text} (mem : line ∈ lines) {scan : FlowScan}
    (found : Found inet ownedMask options selectors locals lines scan) :
    Found inet ownedMask options selectors locals lines (scanLine inet ownedMask options selectors locals scan line) := by
  unfold scanLine
  split
  · exact found
  · rename_i parsed read
    dsimp only
    split
    · exact found
    · split
      · exact found
      · rename_i foreign
        rw [Bool.or_eq_true,not_or,List.contains_iff_mem,List.contains_iff_mem] at foreign
        split
        · exact found
        · rename_i selected
          simp only [Bool.not_eq_true',Bool.not_eq_false] at selected
          obtain ⟨selector,listed,allows⟩ := List.any_eq_true.mp selected
          split
          · exact found
          · split
            · exact ⟨found.each,found.few⟩
            · rename_i room
              refine ⟨fun flow inside => ?_,?_⟩
              · rcases List.mem_append.mp inside with old | new
                · exact found.each flow old
                · cases List.mem_singleton.mp new
                  exact ⟨parsed,⟨line,mem,read⟩,rfl,foreign.1,foreign.2,⟨selector,listed,allows⟩⟩
              · dsimp only at room ⊢
                rw [List.length_append,List.length_singleton]
                omega

theorem scanLinesFound {env : Environment} {lines rest : List Text} (part : ∀ line ∈ rest, line ∈ lines) {scan : FlowScan} (lineCount : Nat)
    (found : Found inet ownedMask options selectors locals lines scan) :
    Found inet ownedMask options selectors locals lines (scanLines inet env ownedMask options selectors locals lineCount rest scan) := by
  induction rest generalizing lineCount scan with
  | nil => exact found
  | cons line rest ih =>
    unfold scanLines
    split
    · exact ⟨found.each,found.few⟩
    · split
      · exact ⟨found.each,found.few⟩
      · exact ih (fun other mem => part other (List.mem_cons_of_mem line mem)) _ (scanLineFound (part line List.mem_cons_self) found)

theorem deleteFlowsIssued (env : Environment) (flows : List ConntrackForwardedFlowPair) (commands : List Command)
    (summary : ConntrackForwardedFlowCleanupSummary) :
    ∃ issued, issued <+: flows ∧ (deleteFlows env flows commands summary).1 = commands ++ issued.map flowCommand := by
  induction flows generalizing commands summary with
  | nil => exact ⟨[],List.prefix_refl _,(List.append_nil _).symm⟩
  | cons flow rest ih =>
    have first : [flow] <+: flow :: rest := ⟨rest,rfl⟩
    unfold deleteFlows
    dsimp only
    split
    · exact ⟨[],List.nil_prefix,(List.append_nil _).symm⟩
    · split
      · exact ⟨[flow],first,rfl⟩
      · split
        · exact ⟨[flow],first,rfl⟩
        · have later (summary : ConntrackForwardedFlowCleanupSummary) : ∃ issued, issued <+: flow :: rest ∧
              (deleteFlows env rest (commands ++ [flowCommand flow]) summary).1 = commands ++ issued.map flowCommand := by
            obtain ⟨issued,before,same⟩ := ih (commands ++ [flowCommand flow]) summary
            refine ⟨flow :: issued,List.cons_prefix_cons.mpr ⟨rfl,before⟩,?_⟩
            rw [same,List.append_assoc]
            rfl
          split
          · exact later _
          · exact later _

end Selection

section Marks
variable {env : Environment} {ownedMask : UInt32} {options : ConntrackCleanupOptions}

/- A deletion by mark that selects no more than the mark's owned bits. -/
def OwnedMarkCommand (ownedMask : UInt32) (command : Command) : Prop :=
  ∃ family value, command = ["conntrack","-D","-f",family,"--mark",toString value.toNat ++ "/" ++ toString ownedMask.toNat] ∧
    value ≠ (0 : UInt32) ∧ value &&& ownedMask = value

theorem markCommandOwned {mark : UInt32} (family : String) (owned : mark &&& ownedMask ≠ 0) :
    OwnedMarkCommand ownedMask (markCommand ownedMask family mark) :=
  ⟨family,mark &&& ownedMask,rfl,owned,by rw [UInt32.and_assoc,UInt32.and_self]⟩

theorem withCommand {commands : List Command} {command : Command} (before : ∀ old ∈ commands, OwnedMarkCommand ownedMask old)
    (own : OwnedMarkCommand ownedMask command) : ∀ issued ∈ commands ++ [command], OwnedMarkCommand ownedMask issued := by
  intro issued mem
  rcases List.mem_append.mp mem with old | new
  · exact before issued old
  · cases List.mem_singleton.mp new
    exact own

theorem markLoopOwned (marks : List UInt32) {index : Nat} {loop : MarkLoop}
    (before : ∀ command ∈ loop.commands, OwnedMarkCommand ownedMask command) :
    ∀ command ∈ (deleteMarkLoop env ownedMask options index marks loop).commands, OwnedMarkCommand ownedMask command := by
  induction marks generalizing index loop with
  | nil => exact before
  | cons mark rest ih =>
    unfold deleteMarkLoop
    split
    · exact before
    · split
      · exact ih before
      · rename_i owned
        rw [not_or] at owned
        have ipv4 := withCommand before (markCommandOwned "ipv4" owned.2)
        have both := withCommand ipv4 (markCommandOwned "ipv6" owned.2)
        split
        · exact before
        · dsimp only
          split
          · exact ipv4
          · split
            · refine ih ?_
              split <;> exact ipv4
            · split
              · exact ipv4
              · split
                · exact both
                · refine ih ?_
                  split <;> exact both

end Marks

section Deletions
variable {inet : Inet} {env : Environment}

def NotLocal (inet : Inet) (localInterfaceAddresses : List Text) (ipv6 : Bool) (address : List UInt8) : Prop :=
  ∀ raw ∈ localInterfaceAddresses, inet.pton (familyOf ipv6) (cString (hostPart (trimAsciiWhitespace raw))) ≠ some address

/- An entry whose text before the slash is no address of either family. -/
def Malformed (inet : Inet) (raw : Text) : Prop := ∀ ipv6, inet.pton (familyOf ipv6) (cString (hostPart (trimAsciiWhitespace raw))) = none

def DeletesFlow (inet : Inet) (command : Command) (ipv6 : Bool) (source destination : List UInt8) (mark : UInt32) : Prop :=
  ∃ sourceText destinationText, command = ["conntrack","-D","-f",if ipv6 then "ipv6"
    else "ipv4","-s",sourceText,"-d",destinationText,"--mark",
      toString mark.toNat ++ "/4294967295"] ∧
    inet.pton (familyOf ipv6) sourceText = some source ∧ inet.pton (familyOf ipv6) destinationText = some destination

def coveredBy (inet : Inet) (cidrs : List Text) (ipv6 : Bool) (address : List UInt8) : Prop :=
  ∃ raw ∈ cidrs, inCidr inet ipv6 (trimAsciiWhitespace raw) (bitsOf address) = true

theorem malformedUnread {raw : Text} (malformed : Malformed inet raw) : normalizeHostAddress inet raw = none := by
  cases read : normalizeHostAddress inet raw with
  | none => rfl
  | some host =>
    have own := (hosted read).read
    rw [malformed] at own
    cases own

theorem localKeysMem {locals : List Text} {keys : List String} (read : localKeys inet locals = some keys) {raw : Text}
    (mem : raw ∈ locals) :
    ∃ host, normalizeHostAddress inet raw = some host ∧ familyKey host.family.isIpv6 host.value ∈ keys := by
  induction locals generalizing keys with
  | nil => cases mem
  | cons first rest ih =>
    unfold localKeys at read
    rw [List.mapM_cons] at read
    simp only [Option.pure_def,Option.bind_eq_bind,Option.bind_eq_some_iff,Option.map_eq_some_iff,Option.some.injEq] at read
    obtain ⟨key,⟨host,hostRead,rfl⟩,others,othersRead,rfl⟩ := read
    rcases List.mem_cons.mp mem with rfl | later
    · exact ⟨host,hostRead,List.mem_cons_self⟩
    · obtain ⟨other,otherRead,listed⟩ := ih othersRead later
      exact ⟨other,otherRead,List.mem_cons_of_mem _ listed⟩

theorem notLocal (spelled : inet.Spelled) {locals : List Text} {keys : List String} (read : localKeys inet locals = some keys) {ipv6 : Bool}
    {address : List UInt8} {value : String} (written : inet.ntop (familyOf ipv6) address = some value)
    (foreign : familyKey ipv6 value ∉ keys) :
    NotLocal inet locals ipv6 address := by
  intro raw mem same
  obtain ⟨host,hostRead,listed⟩ := localKeysMem read mem
  have own := hosted hostRead
  have family : host.family.isIpv6 = ipv6 := by
    cases ipv6 with
    | true =>
      have colon := (spelled.documented.v6 _ _ same).2
      rw [own.family,List.contains_iff_mem]
      rw [cString,String.toList_ofList] at colon
      exact (List.takeWhile_subset _) colon
    | false =>
      have plain := (spelled.documented.v4 _ _ same).2
      cases other : host.family.isIpv6 with
      | false => rfl
      | true =>
        have six := own.read
        rw [other] at six
        exact absurd (spelled.documented.v6 _ _ six).2 plain
  have bytes := own.read
  rw [family,same] at bytes
  have text := own.written
  rw [family,← Option.some.inj bytes,written] at text
  rw [family,← Option.some.inj text] at listed
  exact foreign listed

/- What the scan of a snapshot deletes. -/
structure Deletes (inet : Inet) (ownedMask : UInt32) (normals aggressives locals : List Text) (lines : List Text)
    (command : Command) : Prop where
  flow : ∃ line ∈ lines, ∃ ipv6 source destination mark, Shows inet line ipv6 source destination mark ∧
    DeletesFlow inet command ipv6 source destination mark ∧ NotLocal inet locals ipv6 source ∧ NotLocal inet locals ipv6 destination ∧
    coveredBy inet (normals ++ aggressives) ipv6 destination ∧ (mark &&& ownedMask ≠ 0 → coveredBy inet aggressives ipv6 destination)

theorem selectedCovers (spelled : inet.Spelled) {ownedMask : UInt32} {normals aggressives : List Text} {known : Selectors}
    (given : Given inet (normals ++ aggressives) aggressives known) {parsed : ParsedConntrackOriginalPair} {text : Text}
    (own : Endpoint inet text parsed.destination) {selector : NormalizedForwardedDestinationSelector} (listed : selector ∈ known.selectors)
    (allows : selectorAllows ownedMask parsed selector = true) :
    coveredBy inet (normals ++ aggressives) parsed.destination.family.isIpv6 parsed.destination.bytes ∧
      (parsed.mark &&& ownedMask ≠ 0 → coveredBy inet aggressives parsed.destination.family.isIpv6 parsed.destination.bytes) := by
  unfold selectorAllows at allows
  split at allows
  · cases allows
  · rename_i contains
    rw [Bool.not_eq_true',Bool.not_eq_false] at contains
    obtain ⟨raw,mem,target⟩ := given.given selector listed
    refine ⟨⟨raw,mem,(containedIn spelled target own.read contains).2⟩,fun owned => ?_⟩
    split at allows
    · rename_i unmarked
      rw [unmarked,UInt32.zero_and] at owned
      exact absurd rfl owned
    · rw [Bool.and_eq_true] at allows
      obtain ⟨text,textMem,cidr,again,same⟩ := given.owned selector listed allows.1
      obtain ⟨family,network,length⟩ := sameTarget spelled again target same
      rw [← sameContains family network length] at contains
      exact ⟨text,textMem,(containedIn spelled again own.read contains).2⟩

theorem flowDeletes (spelled : inet.Spelled) {ownedMask : UInt32} {normals aggressives locals lines : List Text} {keys : List String}
    (read : localKeys inet locals = some keys) {known : Selectors} (given : Given inet (normals ++ aggressives) aggressives known)
    {flow : ConntrackForwardedFlowPair} {parsed : ParsedConntrackOriginalPair}
    (flowScope : Scoped inet ownedMask known.selectors keys lines flow parsed) :
    Deletes inet ownedMask normals aggressives locals lines (flowCommand flow) := by
  obtain ⟨line,mem,parsedLine⟩ := flowScope.line
  obtain ⟨families,shows,sourceText,destinationText⟩ := parsedShows parsedLine
  obtain ⟨selector,listed,allows⟩ := flowScope.selected
  obtain ⟨tokens,_,⟨first,_,firstRead⟩,⟨second,_,secondRead⟩,_⟩ := shows.words
  have own : Endpoint inet second parsed.destination := ⟨families ▸ secondRead,families ▸ destinationText⟩
  obtain ⟨covered,owned⟩ := selectedCovers spelled given own listed allows
  rw [← families] at covered owned
  have width (bytes : List UInt8) (size : bytes.length = byteCount parsed.source.family.isIpv6) :
      8 * bytes.length = addressWidth parsed.source.family.isIpv6 := by
    rw [size]
    cases parsed.source.family <;> rfl
  refine ⟨line,mem,parsed.source.family.isIpv6,parsed.source.bytes,parsed.destination.bytes,parsed.mark,shows,
    ⟨parsed.source.value,parsed.destination.value,?_,?_,?_⟩,notLocal spelled read sourceText flowScope.source,
    notLocal spelled read destinationText flowScope.destination,covered,owned⟩
  · rw [flowScope.same]
    rfl
  · exact spelled.back _ _ _ (width _ (readLength spelled firstRead)) sourceText
  · exact spelled.back _ _ _ (width _ (readLength spelled secondRead)) destinationText

theorem forwardedDeletes (spelled : inet.Spelled) (env : Environment) (ownedMask : UInt32) (options : ConntrackForwardedFlowCleanupOptions)
    (normals aggressives locals : List Text) :
    (deleteForwardedDestinationFlows inet env ownedMask options normals aggressives locals).1 = [] ∨
    ownedMask ≠ 0 ∧ locals ≠ [] ∧ (∀ raw ∈ locals, ¬ Malformed inet raw) ∧
    (deleteForwardedDestinationFlows inet env ownedMask options normals aggressives locals).1.length ≤ options.maxFlows ∧
    ∃ snapshot, env.readSnapshot options.maxSnapshotBytes = some snapshot ∧
      ∀ command ∈ (deleteForwardedDestinationFlows inet env ownedMask options normals aggressives locals).1,
        Deletes inet ownedMask normals aggressives locals (Fields.lines (· == '\n') snapshot.content) command := by
  unfold deleteForwardedDestinationFlows
  split
  · exact .inl rfl
  · rename_i masked
    dsimp only
    have start : Given inet (normals ++ aggressives) aggressives {} :=
      ⟨(fun _ impossible => by cases impossible),fun _ impossible => by cases impossible⟩
    have normal : Given inet (normals ++ aggressives) aggressives (appendSelectors inet options true false {} normals) :=
      appendSelectorsGiven spelled (fun _ mem => List.mem_append_left _ mem) (fun impossible => by cases impossible) start
    have given : Given inet (normals ++ aggressives) aggressives
        (appendSelectors inet options true true (appendSelectors inet options true false {} normals) aggressives) :=
      appendSelectorsGiven spelled (fun _ mem => List.mem_append_right _ mem) (fun _ _ mem => mem) normal
    generalize appendSelectors inet options true true (appendSelectors inet options true false {} normals) aggressives = known at given ⊢
    split
    · exact .inl rfl
    · split
      · exact .inl rfl
      · rename_i inventory
        split
        · exact .inl rfl
        · rename_i keys read
          split
          · exact .inl rfl
          · rename_i snapshot taken
            have found : Found inet ownedMask options known.selectors keys (Fields.lines (· == '\n') snapshot.content)
                (scanLines inet env ownedMask options known.selectors keys 0 (Fields.lines (· == '\n') snapshot.content)
                  { summary := { known.summary with snapshotTruncated := snapshot.truncated } }) :=
              scanLinesFound (fun line mem => mem) 0 ⟨(fun _ impossible => by cases impossible),Nat.zero_le _⟩
            generalize scanLines inet env ownedMask options known.selectors keys 0 (Fields.lines (· == '\n') snapshot.content)
              { summary := { known.summary with snapshotTruncated := snapshot.truncated } } = scan at found ⊢
            obtain ⟨issued,front,same⟩ := deleteFlowsIssued env scan.flows [] scan.summary
            rw [same,List.nil_append]
            refine .inr ⟨masked,fun empty => inventory (by rw [empty]; rfl),fun raw mem malformed =>
              ?_,?_,snapshot,taken,fun command mem => ?_⟩
            · obtain ⟨host,hostRead,_⟩ := localKeysMem read mem
              rw [malformedUnread malformed] at hostRead
              cases hostRead
            · rw [List.length_map]
              exact Nat.le_trans front.length_le found.few
            · obtain ⟨flow,inside,rfl⟩ := List.mem_map.mp mem
              obtain ⟨parsed,flowScope⟩ := found.each flow (front.subset inside)
              exact flowDeletes spelled read given flowScope

/- Every deletion by mark selects owned bits of a mark and nothing else; every deletion of a forwarded
flow names a flow of the snapshot between foreign endpoints, covered by a given CIDR, by an aggressive
one if it has owned bits. Without a mask or a complete inventory there is none, and never more than the limit. -/
theorem deletionsInScope (spelled : inet.Spelled) (env : Environment) :
    (∀ ownedMask options marks, ∀ command ∈ (deleteMarksOrdered env ownedMask options marks).1, OwnedMarkCommand ownedMask command) ∧
    ∀ ownedMask options normals aggressives locals,
      (deleteForwardedDestinationFlows inet env ownedMask options normals aggressives locals).1.length ≤ options.maxFlows ∧
      (ownedMask = 0 ∨ locals = [] ∨ (∃ raw ∈ locals, Malformed inet raw) →
        (deleteForwardedDestinationFlows inet env ownedMask options normals aggressives locals).1 = []) ∧
      ∀ command ∈ (deleteForwardedDestinationFlows inet env ownedMask options normals aggressives locals).1,
        ∃ snapshot, env.readSnapshot options.maxSnapshotBytes = some snapshot ∧
          Deletes inet ownedMask normals aggressives locals (Fields.lines (· == '\n') snapshot.content) command := by
  refine ⟨fun ownedMask options marks => markLoopOwned _ (fun _ impossible => by cases impossible),
    fun ownedMask options normals aggressives locals => ?_⟩
  rcases forwardedDeletes spelled env ownedMask options normals aggressives locals
    with idle | ⟨masked,inventory,formed,few,snapshot,taken,each⟩
  · rw [idle]
    exact ⟨Nat.zero_le _,fun _ => rfl,fun _ impossible => by cases impossible⟩
  · refine ⟨few,fun closed => ?_,fun command mem => ⟨snapshot,taken,each command mem⟩⟩
    rcases closed with none_owned | empty | ⟨raw,mem,malformed⟩
    · exact absurd none_owned masked
    · exact absurd empty inventory
    · exact absurd malformed (formed raw mem)

end Deletions

section Samples

def quadString (a b c d : UInt8) : String :=
  toString a.toNat ++ "." ++ toString b.toNat ++ "." ++ toString c.toNat ++ "." ++ toString d.toNat

theorem decimalByte (byte : UInt8) : DecimalByte (toString byte.toNat).toList where
  digits := List.all_eq_true.mp (toStringDigits byte.toNat).1
  nonempty := List.isEmpty_eq_false_iff.mp (toStringDigits byte.toNat).2.1
  byte := by
    rw [decimal,(toStringDigits byte.toNat).2.2]
    exact Nat.le_of_lt_succ byte.toNat_lt

theorem quadStringQuad (a b c d : UInt8) : DottedQuad (quadString a b c d).toList [a,b,c,d] := by
  have quad := DottedQuad.quad (decimalByte a) (decimalByte b) (decimalByte c) (decimalByte d)
  simp only [List.map_cons,List.map_nil,decimal,(toStringDigits _).2.2,UInt8.ofNat_toNat] at quad
  unfold quadString
  simp only [String.toList_append,List.append_assoc]
  exact quad

def officeAddresses : List (UInt8 × UInt8 × UInt8 × UInt8) := [(192,0,2,1),(192,0,2,10),(198,51,100,7),(198,51,100,0)]

def officeInet : Inet where
  pton family address :=
    (officeAddresses.find? fun (a,b,c,d) => family == afInet && quadString a b c d == address).map fun (a,b,c,d) => [a,b,c,d]
  ntop family bytes :=
    (officeAddresses.find? fun (a,b,c,d) => family == afInet && [a,b,c,d] == bytes).map fun (a,b,c,d) => quadString a b c d

theorem officeSpelled : officeInet.Spelled where
  v4 text bytes read := by
    obtain ⟨⟨a,b,c,d⟩,found,rfl⟩ := Option.map_eq_some_iff.mp read
    have held := List.find?_some found
    simp only [Bool.and_eq_true,beq_iff_eq] at held
    rw [← held.2]
    exact quadStringQuad a b c d
  v6 text bytes read := by
    simp only [officeInet,Option.map_eq_some_iff] at read
    obtain ⟨⟨a,b,c,d⟩,found,_⟩ := read
    have held := List.find?_some found
    simp only [Bool.and_eq_true,beq_iff_eq] at held
    exact absurd held.1 (by decide)
  back ipv6 bytes text _ written := by
    obtain ⟨⟨a,b,c,d⟩,found,rfl⟩ := Option.map_eq_some_iff.mp written
    have held := List.find?_some found
    have listed := List.mem_of_find?_eq_some found
    simp only [Bool.and_eq_true,beq_iff_eq] at held
    rw [held.1,← held.2]
    simp only [officeAddresses,List.mem_cons,Prod.mk.injEq,List.not_mem_nil,or_false] at listed
    rcases listed with ⟨rfl,rfl,rfl,rfl⟩ | ⟨rfl,rfl,rfl,rfl⟩ | ⟨rfl,rfl,rfl,rfl⟩ | ⟨rfl,rfl,rfl,rfl⟩ <;> decide

def officeEnvironment : Environment where
  run _ _ := some { exitCode := 0 }
  deadlineReached _ := false
  scanDeadlineReached _ := false
  readSnapshot _ := some { content := text ("ipv4 2 tcp 6 100 ESTABLISHED src=192.0.2.10 dst=198.51.100.7 sport=5 dport=443 " ++
    "src=198.51.100.7 dst=192.0.2.1 sport=443 dport=5 [ASSURED] mark=65536 use=1\n") }

def officeCommand : Command :=
  ["conntrack","-D","-f","ipv4","-s","192.0.2.10","-d","198.51.100.7","--mark","65536/4294967295"]

theorem officeInScope : ∃ snapshot, officeEnvironment.readSnapshot (2 * 1024 * 1024) = some snapshot ∧
    Deletes officeInet 0xff0000 [] [text "198.51.100.0/24"] [text "192.0.2.1/24"]
      (Fields.lines (· == '\n') snapshot.content) officeCommand := by
  have issued : officeCommand ∈ (deleteForwardedDestinationFlows officeInet officeEnvironment 0xff0000 {} [] [text "198.51.100.0/24"]
      [text "192.0.2.1/24"]).1 := by decide +kernel
  exact ((deletionsInScope officeSpelled officeEnvironment).2 0xff0000 {} [] [text "198.51.100.0/24"] [text "192.0.2.1/24"]).2.2
    officeCommand issued

end Samples

end KeenPbr.Conntrack

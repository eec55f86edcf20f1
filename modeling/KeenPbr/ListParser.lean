import KeenPbr.AddressRules
import KeenPbr.AddressTexts

/-! config/list_parser.cpp: a line of a list becomes one entry, an address or a CIDR in the spelling
of inet_ntop or a domain, and IpSet takes every such address. A list is the sequence of lines that
ListStreamer hands to parse_line: the cached file, the local file and the inline values. -/
namespace KeenPbr
open Blocks Fields

inductive EntryType where
  | ip
  | cidr
  | domain
  deriving DecidableEq, Repr

def listBlank (c : Char) : Bool := c == ' ' || c == '\t' || c == '\r'

def dotChar (c : Char) : Bool := c == '.'

def leadingZeros (host : Text) : Bool :=
  host.contains '.' && (fields dotChar (afterLastColon host)).any fun part =>
    part.length > 1 && part.head? == some '0' && part.all isDigit

/- The loop over the bytes: those behind the prefix are cleared. -/
def maskBytes : List UInt8 → Nat → List UInt8
  | [], _ => []
  | byte :: rest, length =>
    (if length = 0 then 0 else if length < 8 then byte &&& UInt8.ofNat (255 * 2 ^ (8 - length)) else byte) ::
      maskBytes rest (length - 8)

def normalizeIpOrCidr (inet : Inet) (line : Text) : Option Text :=
  let entry := strip listBlank line
  if entry.isEmpty || entry.contains '\x00' then none
  else
    let host := hostPart entry
    let ipv6 := host.contains ':'
    if !ipv6 && host.any (fun c => !isDigit c && c != '.') then none
    else if leadingZeros host then none
    else
      match inet.pton (familyOf ipv6) (String.ofList host) with
      | none => none
      | some address =>
        let length := match entry.dropWhile (· != '/') with
          | [] => some (addressWidth ipv6)
          | _ :: suffix => (fromCharsUnsigned suffix).filter fun length => length ≤ addressWidth ipv6
        match length with
        | none => none
        | some length =>
          match inet.ntop (familyOf ipv6) (maskBytes address length) with
          | none => none
          | some text =>
            some (if length ≠ addressWidth ipv6 then text.toList ++ '/' :: (toString length).toList else text.toList)

def asciiLetter (c : Char) : Bool := ('a' ≤ c && c ≤ 'z') || ('A' ≤ c && c ≤ 'Z')

def domainLabel (label : Text) : Bool :=
  !label.isEmpty && label.length ≤ 63 && label.head? != some '-' && label.getLast? != some '-' &&
    label.all fun c => asciiLetter c || isDigit c || c == '-' || c == '_'

def normalizeDomain (entry : Text) : Option Text :=
  let starless := if text "*." <+: entry then entry.drop 2 else entry
  let s := if starless.getLast? = some '.' then starless.dropLast else starless
  if s.isEmpty || s.getLast? == some '.' || s.length > 253 then none
  else if !(fields dotChar s).all domainLabel then none
  else if !s.any asciiLetter then none
  else some s

def classifyEntry (inet : Inet) (entry : Text) : Option (EntryType × Text) :=
  match normalizeIpOrCidr inet entry with
  | some normalized => some (if normalized.contains '/' then .cidr else .ip,normalized)
  | none => (normalizeDomain entry).map fun domain => (.domain,domain)

def parseLine (inet : Inet) (line : Text) : Option (EntryType × Text) :=
  let value := strip listBlank line
  if value.isEmpty || value.head? == some '#' then none else classifyEntry inet value

def listEntries (inet : Inet) (lines : List Text) : List (EntryType × Text) := lines.filterMap (parseLine inet)

section Chars

def addressChar (c : Char) : Bool := isHex c || c == ':' || c == '.'

variable {text : Text} {bytes : List UInt8}

theorem decimalChars {part : Text} (byte : DecimalByte part) : ∀ c ∈ part, addressChar c = true := by
  intro c mem
  have digit := byte.digits c mem
  rw [isDigit] at digit
  rw [addressChar,isHex,hexDigit,if_pos digit]
  rfl

theorem quadChars (quad : DottedQuad text bytes) : ∀ c ∈ text, addressChar c = true := by
  obtain ⟨a,b,c,d⟩ := quad
  intro x mem
  simp only [List.mem_append,List.mem_cons] at mem
  rcases mem with inA | rfl | inB | rfl | inC | rfl | inD
  · exact decimalChars a x inA
  · rfl
  · exact decimalChars b x inB
  · rfl
  · exact decimalChars c x inC
  · rfl
  · exact decimalChars d x inD

theorem colonChars {groups : List Text} (hex : ∀ group ∈ groups, HexGroup group) : ∀ c ∈ colonText groups, addressChar c = true := by
  intro c mem
  obtain ⟨group,listed,inside⟩ := List.mem_flatMap.mp mem
  rcases List.mem_cons.mp inside with rfl | digit
  · rfl
  · rw [addressChar,(hex group listed).digits c digit]
    rfl

theorem joinedChars {groups : List Text} (hex : ∀ group ∈ groups, HexGroup group) : ∀ c ∈ joined groups, addressChar c = true := by
  intro c mem
  by_cases empty : groups = []
  · rw [empty] at mem
    cases mem
  · exact colonChars hex c (by rw [colonJoined empty]; exact List.mem_cons_of_mem _ mem)

theorem ipv6Chars (spelled : Ipv6Text text bytes) : ∀ c ∈ text, addressChar c = true := by
  cases spelled with
  | full hex eight => exact joinedChars hex
  | @short left right hex fewer =>
    intro c mem
    simp only [List.mem_append,List.mem_cons] at mem
    rcases mem with front | rfl | rfl | back
    · exact joinedChars (fun group listed => hex group (List.mem_append_left _ listed)) c front
    · rfl
    · rfl
    · exact joinedChars (fun group listed => hex group (List.mem_append_right _ listed)) c back
  | @fullQuad groups quad last hex six dotted =>
    intro c mem
    simp only [List.mem_append,List.mem_cons] at mem
    rcases mem with front | rfl | back
    · exact joinedChars hex c front
    · rfl
    · exact quadChars dotted c back
  | @shortQuad left right quad last hex fewer dotted =>
    intro c mem
    simp only [List.mem_append,List.mem_cons] at mem
    rcases mem with front | rfl | middle | rfl | back
    · exact joinedChars (fun group listed => hex group (List.mem_append_left _ listed)) c front
    · rfl
    · exact colonChars (fun group listed => hex group (List.mem_append_right _ listed)) c middle
    · rfl
    · exact quadChars dotted c back

theorem addressChars {inet : Inet} (spelled : inet.Spelled) {ipv6 : Bool} {address : String}
    (read : inet.pton (familyOf ipv6) address = some bytes) : ∀ c ∈ address.toList, addressChar c = true := by
  cases ipv6 with
  | true => exact ipv6Chars (spelled.v6 address bytes read)
  | false => exact quadChars (spelled.v4 address bytes read)

end Chars

section Numbers

theorem digitsNumberEq (digits : Text) (value : Nat) :
    digits.foldl (fun (value : Int) c => value * 10 + (c.toNat - '0'.toNat : Nat)) value = (Nat.ofDigitChars 10 digits value : Nat) := by
  induction digits generalizing value with
  | nil => rfl
  | cons c rest ih =>
    rw [List.foldl_cons,Nat.ofDigitChars_cons,← ih]
    congr 1
    push_cast
    omega

theorem charDigit (c : Char) : c.isDigit = isDigit c := by
  rw [Char.isDigit,isDigit]
  rfl

theorem fromCharsDigits {digits : Text} (all : digits.all isDigit = true) (nonempty : digits.isEmpty = false)
    (small : Nat.ofDigitChars 10 digits 0 ≤ 128) :
    fromCharsInt digits = some ((Nat.ofDigitChars 10 digits 0 : Nat) : Int) ∧
      fromCharsUnsigned digits = some (Nat.ofDigitChars 10 digits 0) := by
  have number : fromCharsInt.digitsNumber digits = (Nat.ofDigitChars 10 digits 0 : Nat) := digitsNumberEq digits 0
  have plain : (digits.all (·.isDigit)) = true := by
    rw [← all]
    exact congrArg digits.all (funext charDigit)
  constructor
  · unfold fromCharsInt
    split
    · exact absurd (List.all_eq_true.mp all '-' List.mem_cons_self) (by decide)
    · have fits : ¬ (false || !true || decide ((Nat.ofDigitChars 10 digits 0 : Int) > 2147483647)) = true := by
        simp only [Bool.not_true,Bool.or_self,Bool.false_or,decide_eq_true_eq]
        omega
      rw [plain,nonempty,number,if_neg fits]
  · have fits : ¬ (false || !true || decide (Nat.ofDigitChars 10 digits 0 ≥ 2 ^ 32)) = true := by
      simp only [Bool.not_true,Bool.or_self,Bool.false_or,decide_eq_true_eq]
      omega
    rw [fromCharsUnsigned,nonempty,all,if_neg fits]

theorem toStringDigits (value : Nat) : ((toString value).toList).all isDigit = true ∧ ((toString value).toList).isEmpty = false ∧
    Nat.ofDigitChars 10 (toString value).toList 0 = value := by
  rw [Nat.toString_eq_ofList_toDigits,String.toList_ofList]
  refine ⟨?_,List.isEmpty_eq_false_iff.mpr Nat.toDigits_ne_nil,Nat.ofDigitChars_ten_toDigits⟩
  rw [List.all_eq_true]
  intro c mem
  rw [← charDigit]
  exact Nat.isDigit_of_mem_toDigits (by decide) (by decide) mem

end Numbers

section Normalized
variable {inet : Inet} {entry : Text}

theorem hostWhole {host : Text} (bare : '/' ∉ host) (rest : Text) :
    hostPart (host ++ '/' :: rest) = host ∧ (host ++ '/' :: rest).dropWhile (· != '/') = '/' :: rest := by
  have inside : ∀ c ∈ host, (c != '/') = true := by
    intro c mem
    rw [bne_iff_ne]
    rintro rfl
    exact bare mem
  exact ⟨takeRun inside rfl,dropRun inside rfl⟩

theorem hostBare {host : Text} (bare : '/' ∉ host) : hostPart host = host ∧ host.dropWhile (· != '/') = [] := by
  have inside : ∀ c ∈ host, (c != '/') = true := by
    intro c mem
    rw [bne_iff_ne]
    rintro rfl
    exact bare mem
  exact ⟨List.takeWhile_eq_self_iff.mpr inside,List.dropWhile_eq_nil_iff.mpr inside⟩

theorem validateHost (spelled : inet.Spelled) {ipv6 : Bool} {host : Text} {bytes : List UInt8}
    (read : inet.pton (familyOf ipv6) (String.ofList host) = some bytes) :
    (∀ c ∈ host, addressChar c = true) ∧ '\x00' ∉ host ∧ '/' ∉ host ∧ '-' ∉ host ∧
      (inet.pton afInet (String.ofList host)).isSome = !ipv6 ∧ (ipv6 = true → (inet.pton afInet6 (String.ofList host)).isSome = true) := by
  have chars := addressChars spelled read
  rw [String.toList_ofList] at chars
  have absent {c : Char} (other : addressChar c = false) : c ∉ host := by
    intro mem
    rw [chars c mem] at other
    cases other
  refine ⟨chars,absent (by decide),absent (by decide),absent (by decide),?_,?_⟩
  · cases ipv6 with
    | false =>
      rw [show inet.pton afInet (String.ofList host) = some bytes from read]
      rfl
    | true =>
      have colon := (spelled.documented.v6 _ _ read).2
      cases four : inet.pton afInet (String.ofList host) with
      | none => rfl
      | some other => exact absurd colon (spelled.documented.v4 _ _ four).2
  · rintro rfl
    rw [show inet.pton afInet6 (String.ofList host) = some bytes from read]
    rfl

theorem maskLength (bytes : List UInt8) (length : Nat) : (maskBytes bytes length).length = bytes.length := by
  induction bytes generalizing length with
  | nil => rfl
  | cons byte rest ih => rw [maskBytes,List.length_cons,ih,List.length_cons]

theorem addressLength (spelled : inet.Spelled) {ipv6 : Bool} {address : String} {bytes : List UInt8}
    (read : inet.pton (familyOf ipv6) address = some bytes) : 8 * bytes.length = addressWidth ipv6 := by
  cases ipv6 with
  | true => rw [(spelled.documented.v6 _ _ read).1]; rfl
  | false => rw [(spelled.documented.v4 _ _ read).1]; rfl

end Normalized

end KeenPbr

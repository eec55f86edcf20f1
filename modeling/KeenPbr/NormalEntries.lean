import KeenPbr.AddressGrammar
import KeenPbr.SrsFormat
import Mathlib.Tactic.IntervalCases

/-! config/list_parser.cpp: what normalize_ip_or_cidr writes is a canonical form. An entry stands for a set of
addresses of one family; entries of one set, and only they, are written alike. -/
namespace KeenPbr
open Blocks Fields

/- What is documented of the two functions together: inet_ntop writes texts that inet_pton reads as the same bytes, and
writes no number with a leading zero. -/
structure Inet.Canonical (inet : Inet) : Prop extends inet.Spelled where
  zeros : ∀ (ipv6 : Bool) bytes text, 8 * bytes.length = addressWidth ipv6 → inet.ntop (familyOf ipv6) bytes = some text →
    leadingZeros text.toList = false

section Meaning
variable (inet : Inet)

def entryLength (ipv6 : Bool) (entry : Text) : Option Nat :=
  match entry.dropWhile (· != '/') with
  | [] => some (addressWidth ipv6)
  | _ :: suffix => (fromCharsUnsigned suffix).filter fun length => length ≤ addressWidth ipv6

def entryBlock (line : Text) : Option (Bool × Bits) :=
  let entry := strip listBlank line
  let ipv6 := (hostPart entry).contains ':'
  match inet.pton (familyOf ipv6) (String.ofList (hostPart entry)),entryLength ipv6 entry with
  | some bytes,some length => some (ipv6,(bitsOf bytes).take length)
  | _,_ => none

def entryAddresses (line : Text) : Set (Bool × Bits) :=
  {address | ∃ block, entryBlock inet line = some (address.1,block) ∧ address.2.length = addressWidth address.1 ∧
    inside block address.2 = true}

end Meaning

section Masks

theorem maskBit : ∀ length < 8, ∀ place < 8, (UInt8.ofNat (255 * 2 ^ (8 - length))).toNat.testBit (7 - place) = decide
    (place < length) := by
  decide

theorem maskedByte (byte : UInt8) : ∀ length < 8,
    ((List.range 8).map fun place => (byte &&& UInt8.ofNat (255 * 2 ^ (8 - length))).toNat.testBit (7 - place)) =
      (((List.range 8).map fun place => byte.toNat.testBit (7 - place)).take length) ++ List.replicate (8 - length) false := by
  intro length short
  have bits : ((List.range 8).map fun place => (byte &&& UInt8.ofNat (255 * 2 ^ (8 - length))).toNat.testBit (7 - place)) =
      (List.range 8).map fun place => decide (place < length) && byte.toNat.testBit (7 - place) := by
    refine List.map_congr_left fun place mem => ?_
    rw [UInt8.toNat_and,Nat.testBit_and,maskBit length short place (List.mem_range.mp mem),Bool.and_comm]
  rw [bits]
  interval_cases length <;> rfl

theorem bitsCons (byte : UInt8) (rest : List UInt8) :
    bitsOf (byte :: rest) = ((List.range 8).map fun place => byte.toNat.testBit (7 - place)) ++ bitsOf rest := by
  rw [bitsOf,List.flatMap_cons]
  rfl

theorem bitsMasked (bytes : List UInt8) (length : Nat) :
    bitsOf (maskBytes bytes length) = (bitsOf bytes).take length ++ List.replicate (8 * bytes.length - length) false := by
  induction bytes generalizing length with
  | nil => simp [maskBytes,bitsOf]
  | cons byte rest ih =>
    rw [maskBytes,bitsCons,bitsCons,ih,List.length_cons]
    have size : ((List.range 8).map fun place => byte.toNat.testBit (7 - place)).length = 8 := by simp
    by_cases none_ : length = 0
    · subst none_
      rw [if_pos rfl,List.take_zero,List.take_zero,List.nil_append,List.nil_append]
      have zeros : ((List.range 8).map fun place => (0 : UInt8).toNat.testBit (7 - place)) = List.replicate 8 false := by decide
      rw [zeros,List.replicate_append_replicate]
      congr 1
      omega
    · rw [if_neg none_]
      by_cases short : length < 8
      · rw [if_pos short,maskedByte byte length short,show length - 8 = 0 by omega,List.take_zero,List.nil_append,
          List.take_append_of_le_length (by rw [size]; omega),List.append_assoc,List.replicate_append_replicate]
        congr 2
        omega
      · have whole : ((List.range 8).map fun place => byte.toNat.testBit (7 - place)).take length =
            (List.range 8).map fun place => byte.toNat.testBit (7 - place) := List.take_of_length_le (by rw [size]; omega)
        rw [if_neg short,List.take_append,size,whole,List.append_assoc]
        congr 3
        omega

theorem byteOfBits {byte other : UInt8} (same : ((List.range 8).map fun place => byte.toNat.testBit (7 - place)) =
    (List.range 8).map fun place => other.toNat.testBit (7 - place)) : byte = other := by
  refine UInt8.toNat_inj.mp (Nat.eq_of_testBit_eq fun place => ?_)
  by_cases inside : place < 8
  · have bit := List.map_inj_left.mp same (7 - place) (List.mem_range.mpr (by omega))
    rwa [show 7 - (7 - place) = place by omega] at bit
  · have wide : 2 ^ 8 ≤ 2 ^ place := Nat.pow_le_pow_right (by decide) (by omega)
    rw [Nat.testBit_lt_two_pow (Nat.lt_of_lt_of_le byte.toNat_lt wide),Nat.testBit_lt_two_pow (Nat.lt_of_lt_of_le other.toNat_lt wide)]

theorem bytesOfBits {bytes others : List UInt8} (same : bitsOf bytes = bitsOf others) : bytes = others := by
  have sizes : bytes.length = others.length := by
    have both := congrArg List.length same
    rw [bitsLength,bitsLength] at both
    omega
  induction bytes generalizing others with
  | nil => exact (List.eq_nil_of_length_eq_zero sizes.symm).symm
  | cons byte rest ih =>
    cases others with
    | nil => cases sizes
    | cons other later =>
      rw [bitsCons,bitsCons] at same
      obtain ⟨first,more⟩ := List.append_inj same (by simp)
      rw [byteOfBits first,ih more (Nat.succ.inj sizes)]

theorem bitsTake {bytes : List UInt8} {length : Nat} (fits : length ≤ 8 * bytes.length) :
    (bitsOf (maskBytes bytes length)).take length = (bitsOf bytes).take length := by
  rw [bitsMasked,List.take_append_of_le_length (by rw [List.length_take,bitsLength]; omega),List.take_take,Nat.min_self]

theorem maskedOf {bytes others : List UInt8} {length : Nat} (sizes : bytes.length = others.length)
    (same : (bitsOf bytes).take length = (bitsOf others).take length) : maskBytes bytes length = maskBytes others length := by
  refine bytesOfBits ?_
  rw [bitsMasked,bitsMasked,same,sizes]

end Masks

section Written
variable {inet : Inet} {line entry : Text}

structure Accepted (inet : Inet) (line entry : Text) (ipv6 : Bool) (bytes : List UInt8) (length : Nat) (shown : String) : Prop where
  family : (hostPart (strip listBlank line)).contains ':' = ipv6
  read : inet.pton (familyOf ipv6) (String.ofList (hostPart (strip listBlank line))) = some bytes
  prefixed : entryLength ipv6 (strip listBlank line) = some length
  fits : length ≤ addressWidth ipv6
  written : inet.ntop (familyOf ipv6) (maskBytes bytes length) = some shown
  result : entry = if length ≠ addressWidth ipv6 then shown.toList ++ '/' :: (toString length).toList else shown.toList

theorem lengthFits {ipv6 : Bool} {text : Text} {length : Nat} (found : entryLength ipv6 text = some length) :
    length ≤ addressWidth ipv6 := by
  unfold entryLength at found
  split at found
  · cases found
    exact Nat.le_refl _
  · exact of_decide_eq_true (Option.mem_filter_iff.mp found).2

theorem acceptedOf (normal : normalizeIpOrCidr inet line = some entry) :
    ∃ ipv6 bytes length shown, Accepted inet line entry ipv6 bytes length shown := by
  unfold normalizeIpOrCidr at normal
  simp only at normal
  split at normal
  · cases normal
  · split at normal
    · cases normal
    · split at normal
      · cases normal
      · split at normal
        · cases normal
        · rename_i bytes read
          split at normal
          · cases normal
          · rename_i length found
            split at normal
            · cases normal
            · rename_i shown written
              cases normal
              exact ⟨_,bytes,length,shown,rfl,read,found,lengthFits found,written,rfl⟩

variable {ipv6 : Bool} {bytes : List UInt8} {length : Nat} {shown : String}

theorem Accepted.block (accepted : Accepted inet line entry ipv6 bytes length shown) :
    entryBlock inet line = some (ipv6,(bitsOf bytes).take length) := by
  obtain ⟨rfl,read,found,-,-,-⟩ := accepted
  unfold entryBlock
  simp only [read,found]

theorem Accepted.size (spelled : inet.Spelled) (accepted : Accepted inet line entry ipv6 bytes length shown) :
    8 * bytes.length = addressWidth ipv6 :=
  addressLength spelled accepted.read

theorem Accepted.back (spelled : inet.Spelled) (accepted : Accepted inet line entry ipv6 bytes length shown) :
    inet.pton (familyOf ipv6) (String.ofList shown.toList) = some (maskBytes bytes length) := by
  rw [String.ofList_toList]
  exact spelled.back ipv6 _ _ (by rw [maskLength]; exact accepted.size spelled) accepted.written

end Written

section Again
variable {inet : Inet} {line entry : Text} {ipv6 : Bool} {bytes : List UInt8} {length : Nat} {shown : String}

theorem stripSolid {text : Text} (solid : ∀ c ∈ text, listBlank c = false) : strip listBlank text = text := by
  have drop {part : Text} (solid : ∀ c ∈ part, listBlank c = false) : part.dropWhile listBlank = part := by
    cases part with
    | nil => rfl
    | cons c rest => rw [List.dropWhile_cons,solid c List.mem_cons_self,if_neg Bool.false_ne_true]
  rw [strip,drop solid,drop fun c mem => solid c (List.mem_reverse.mp mem),List.reverse_reverse]

theorem quadDigits {text : Text} (quad : DottedQuad text bytes) : (text.any fun c => !isDigit c && c != '.') = false := by
  obtain ⟨a,b,c,d⟩ := quad
  rw [List.any_eq_false]
  intro x mem
  have plain {part : Text} (byte : DecimalByte part) (mem : x ∈ part) : ¬(!isDigit x && x != '.') = true := by
    rw [byte.digits x mem]
    exact Bool.false_ne_true
  simp only [List.mem_append,List.mem_cons] at mem
  rcases mem with inA | rfl | inB | rfl | inC | rfl | inD
  · exact plain a inA
  · decide
  · exact plain b inB
  · decide
  · exact plain c inC
  · decide
  · exact plain d inD

structure Plain (inet : Inet) (text host : Text) (ipv6 : Bool) (bytes : List UInt8) : Prop where
  solid : ∀ c ∈ text, listBlank c = false
  nonempty : text ≠ []
  clean : '\x00' ∉ text
  bare : hostPart text = host
  read : inet.pton (familyOf ipv6) (String.ofList host) = some bytes
  zeros : leadingZeros host = false

theorem Plain.family (spelled : inet.Spelled) {text host : Text} (plain : Plain inet text host ipv6 bytes) :
    host.contains ':' = ipv6 ∧ (!ipv6 && host.any fun c => !isDigit c && c != '.') = false := by
  have read := plain.read
  cases ipv6 with
  | true =>
    have colon := (spelled.documented.v6 _ _ read).2
    rw [String.toList_ofList] at colon
    exact ⟨List.contains_iff_mem.mpr colon,rfl⟩
  | false =>
    have colon := (spelled.documented.v4 _ _ read).2
    have quad := spelled.v4 _ _ read
    rw [String.toList_ofList] at colon quad
    refine ⟨?_,quadDigits quad⟩
    rw [Bool.eq_false_iff,ne_eq,List.contains_iff_mem]
    exact colon

theorem Plain.normalized (spelled : inet.Spelled) {text host : Text} (plain : Plain inet text host ipv6 bytes)
    (found : entryLength ipv6 text = some length) (written : inet.ntop (familyOf ipv6) (maskBytes bytes length) = some shown) :
    normalizeIpOrCidr inet text =
      some (if length ≠ addressWidth ipv6 then shown.toList ++ '/' :: (toString length).toList else shown.toList) := by
  obtain ⟨family,digits⟩ := plain.family spelled
  have full : (text.isEmpty || text.contains '\x00') = false := by
    rw [Bool.or_eq_false_iff,List.isEmpty_eq_false_iff,Bool.eq_false_iff]
    exact ⟨plain.nonempty,fun zero => plain.clean (List.contains_iff_mem.mp zero)⟩
  have read := plain.read
  unfold entryLength at found
  unfold normalizeIpOrCidr
  simp only [stripSolid plain.solid,full,plain.bare,family,digits,plain.zeros,read]
  cases tail : text.dropWhile (· != '/') with
  | nil =>
    rw [tail] at found
    cases found
    simp only [written]
    rfl
  | cons slash suffix =>
    rw [tail] at found
    simp only at found
    simp only [found,written]
    rfl

theorem Accepted.plain (canonical : inet.Canonical) (accepted : Accepted inet line entry ipv6 bytes length shown) :
    Plain inet entry shown.toList ipv6 (maskBytes bytes length) ∧ entryLength ipv6 entry = some length := by
  have back := accepted.back canonical.toSpelled
  obtain ⟨chars,zero,slash,-,-,-⟩ := validateHost canonical.toSpelled back
  have zeros := canonical.zeros ipv6 _ _ (by rw [maskLength]; exact accepted.size canonical.toSpelled) accepted.written
  have solid : ∀ c ∈ shown.toList, listBlank c = false := by
    intro c mem
    have inside := chars c mem
    rw [Bool.eq_false_iff]
    intro blank
    simp only [listBlank,Bool.or_eq_true,beq_iff_eq] at blank
    rcases blank with (rfl | rfl) | rfl <;> exact absurd inside (by decide)
  have some_ : shown.toList ≠ [] := by
    intro empty
    rw [empty] at back
    cases ipv6 with
    | true => exact absurd (canonical.toSpelled.documented.v6 _ _ back).2 (by decide)
    | false =>
      have quad := canonical.v4 _ _ back
      have dot := (quadShape quad).2.1
      exact absurd dot (by decide)
  obtain ⟨digits,nonempty,number⟩ := toStringDigits length
  have width : addressWidth ipv6 ≤ 128 := by cases ipv6 <;> decide
  have fits := accepted.fits
  obtain ⟨-,unsigned⟩ := fromCharsDigits digits nonempty (by rw [number]; omega)
  rw [number] at unsigned
  have result := accepted.result
  split at result
  · subst result
    obtain ⟨whole,tail⟩ := hostWhole slash (toString length).toList
    have digit : ∀ c ∈ (toString length).toList, isDigit c = true := fun c mem => List.all_eq_true.mp digits c mem
    refine ⟨⟨?_,by simp,?_,whole,back,zeros⟩,?_⟩
    · intro c mem
      rcases List.mem_append.mp mem with inHost | rest
      · exact solid c inHost
      · rcases List.mem_cons.mp rest with rfl | inDigits
        · rfl
        · have number := digit c inDigits
          rw [Bool.eq_false_iff]
          intro blank
          simp only [listBlank,Bool.or_eq_true,beq_iff_eq] at blank
          rcases blank with (rfl | rfl) | rfl <;> exact absurd number (by decide)
    · intro mem
      rcases List.mem_append.mp mem with inHost | rest
      · exact zero inHost
      · rcases List.mem_cons.mp rest with same | inDigits
        · exact absurd same (by decide)
        · exact absurd (digit _ inDigits) (by decide)
    · rw [entryLength,tail]
      simp only [unsigned]
      rw [Option.filter_some,if_pos (decide_eq_true fits)]
  · rename_i host
    subst result
    obtain ⟨whole,tail⟩ := hostBare slash
    refine ⟨⟨solid,some_,zero,whole,back,zeros⟩,?_⟩
    rw [entryLength,tail,not_not.mp host]

theorem Accepted.again (canonical : inet.Canonical) (accepted : Accepted inet line entry ipv6 bytes length shown) :
    normalizeIpOrCidr inet entry = some entry := by
  obtain ⟨plain,found⟩ := accepted.plain canonical
  have masked : maskBytes (maskBytes bytes length) length = maskBytes bytes length := by
    refine maskedOf (maskLength bytes length) (bitsTake ?_)
    rw [accepted.size canonical.toSpelled]
    exact accepted.fits
  have written := accepted.written
  rw [← masked] at written
  rw [plain.normalized canonical.toSpelled found written,← accepted.result]

theorem Accepted.sameBlock (canonical : inet.Canonical) (accepted : Accepted inet line entry ipv6 bytes length shown) :
    entryBlock inet entry = entryBlock inet line := by
  obtain ⟨plain,found⟩ := accepted.plain canonical
  have fits : length ≤ 8 * bytes.length := by
    rw [accepted.size canonical.toSpelled]
    exact accepted.fits
  have read := plain.read
  rw [accepted.block,entryBlock]
  simp only [stripSolid plain.solid,plain.bare,(plain.family canonical.toSpelled).1,read,found,bitsTake fits]

end Again

section Canonical
variable {inet : Inet} {line other entry text : Text}

theorem Accepted.width (spelled : inet.Spelled) {ipv6 : Bool} {bytes : List UInt8} {length : Nat} {shown : String}
    (accepted : Accepted inet line entry ipv6 bytes length shown) : ((bitsOf bytes).take length).length = length := by
  have fits := accepted.fits
  rw [List.length_take,bitsLength,accepted.size spelled]
  omega

theorem addressesEqIff (spelled : inet.Spelled) (accepted : normalizeIpOrCidr inet line = some entry)
    (otherAccepted : normalizeIpOrCidr inet other = some text) :
    entryAddresses inet line = entryAddresses inet other ↔ entryBlock inet line = entryBlock inet other := by
  obtain ⟨ipv6,bytes,length,shown,read⟩ := acceptedOf accepted
  obtain ⟨ipv6',bytes',length',shown',read'⟩ := acceptedOf otherAccepted
  constructor
  · intro same
    have size := read.width spelled
    have fits : ((bitsOf bytes).take length).length ≤ addressWidth ipv6 := by
      rw [size]
      exact read.fits
    have fits' : ((bitsOf bytes').take length').length ≤ addressWidth ipv6' := by
      rw [read'.width spelled]
      exact read'.fits
    have first : (ipv6,pad (addressWidth ipv6) ((bitsOf bytes).take length)) ∈ entryAddresses inet line :=
      ⟨_,read.block,padLength fits,insidePad _ _⟩
    rw [same] at first
    obtain ⟨block,found,-,-⟩ := first
    rw [read'.block] at found
    cases found
    rw [read.block,read'.block]
    by_contra differ
    have blocks : (bitsOf bytes).take length ≠ (bitsOf bytes').take length' := fun equal => differ (by rw [equal])
    obtain ⟨address,wide,apart⟩ := separated blocks fits fits'
    have both := Set.ext_iff.mp same (ipv6,address)
    have inLine : (ipv6,address) ∈ entryAddresses inet line ↔ inside ((bitsOf bytes).take length) address = true := by
      refine ⟨fun mem => ?_,fun within => ⟨_,read.block,wide,within⟩⟩
      obtain ⟨block,found,-,within⟩ := mem
      rw [read.block] at found
      cases found
      exact within
    have inOther : (ipv6,address) ∈ entryAddresses inet other ↔ inside ((bitsOf bytes').take length') address = true := by
      refine ⟨fun mem => ?_,fun within => ⟨_,read'.block,wide,within⟩⟩
      obtain ⟨block,found,-,within⟩ := mem
      rw [read'.block] at found
      cases found
      exact within
    rw [inLine,inOther] at both
    exact apart (Bool.eq_iff_iff.mpr both)
  · intro same
    rw [entryAddresses,entryAddresses,same]

theorem entriesEqIff (canonical : inet.Canonical) (accepted : normalizeIpOrCidr inet line = some entry)
    (otherAccepted : normalizeIpOrCidr inet other = some text) : entry = text ↔ entryBlock inet line = entryBlock inet other := by
  obtain ⟨ipv6,bytes,length,shown,read⟩ := acceptedOf accepted
  obtain ⟨ipv6',bytes',length',shown',read'⟩ := acceptedOf otherAccepted
  constructor
  · rintro rfl
    rw [← read.sameBlock canonical,read'.sameBlock canonical]
  · intro same
    have sizes := read.width canonical.toSpelled
    have sizes' := read'.width canonical.toSpelled
    rw [read.block,read'.block] at same
    simp only [Option.some.injEq,Prod.mk.injEq] at same
    obtain ⟨rfl,blocks⟩ := same
    have lengths : length = length' := by rw [← sizes,← sizes',blocks]
    subst lengths
    have bytesSize : bytes.length = bytes'.length := by
      have one := read.size canonical.toSpelled
      have two := read'.size canonical.toSpelled
      omega
    have written := read.written
    rw [maskedOf bytesSize blocks,read'.written] at written
    cases written
    rw [read.result,read'.result]

theorem slashIff (canonical : inet.Canonical) (accepted : normalizeIpOrCidr inet line = some entry) :
    '/' ∈ entry ↔ ∃ ipv6 block, entryBlock inet line = some (ipv6,block) ∧ block.length < addressWidth ipv6 := by
  obtain ⟨ipv6,bytes,length,shown,read⟩ := acceptedOf accepted
  have slash := (validateHost canonical.toSpelled (read.back canonical.toSpelled)).2.2.1
  have size := read.width canonical.toSpelled
  have fits := read.fits
  have shorter : (∃ family block, entryBlock inet line = some (family,block) ∧ block.length < addressWidth family) ↔
    length < addressWidth ipv6 := by
    refine ⟨fun found => ?_,fun less => ⟨ipv6,_,read.block,by rw [size]; exact less⟩⟩
    obtain ⟨family,block,found,less⟩ := found
    rw [read.block] at found
    cases found
    rwa [size] at less
  rw [shorter,read.result]
  split
  · rename_i part
    exact ⟨fun _ => by omega,fun _ => List.mem_append_right _ List.mem_cons_self⟩
  · rename_i host
    exact ⟨fun mem => absurd mem slash,fun less => absurd (Nat.ne_of_lt less) host⟩

theorem normalizationCanonical (canonical : inet.Canonical) (accepted : normalizeIpOrCidr inet line = some entry) :
    normalizeIpOrCidr inet entry = some entry ∧ entryAddresses inet entry = entryAddresses inet line ∧
    (∀ other text, normalizeIpOrCidr inet other = some text → (entry = text ↔ entryAddresses inet line = entryAddresses inet other)) ∧
    ('/' ∈ entry ↔ ∃ ipv6 block, entryBlock inet line = some (ipv6,block) ∧ block.length < addressWidth ipv6) := by
  obtain ⟨ipv6,bytes,length,shown,read⟩ := acceptedOf accepted
  refine ⟨read.again canonical,?_,fun other text otherAccepted => ?_,slashIff canonical accepted⟩
  · rw [entryAddresses,entryAddresses,read.sameBlock canonical]
  · rw [entriesEqIff canonical accepted otherAccepted,addressesEqIff canonical.toSpelled accepted otherAccepted]

end Canonical

section Instance
open Srs

/- inet_pton without the texts of IPv6 that inet_ntop does not write. -/
def plainPton (family : Int) (address : String) : Option (List UInt8) :=
  if family = afInet then (if leadingZeros address.toList then none else parseIpv4 address.toList)
  else (parseIpv6 address.toList).filter fun bytes => decide (family = afInet6) && bytes.length == 16 && formatIpv6 bytes == address.toList

def plainNtop (family : Int) (bytes : List UInt8) : Option String :=
  if family = afInet ∧ bytes.length = 4 then some (String.ofList (formatIpv4 bytes))
  else if family = afInet6 ∧ bytes.length = 16 then some (String.ofList (formatIpv6 bytes))
  else none

def plainInet : Inet := ⟨plainPton,plainNtop⟩

theorem decimalZeros : ∀ byte < 256,
    ((decimalText byte).length > 1 && (decimalText byte).head? == some '0' && (decimalText byte).all isDigit) = false := by
  decide +kernel

theorem quadZeros {bytes : List UInt8} (four : bytes.length = 4) : leadingZeros (formatIpv4 bytes) = false := by
  match bytes,four with
  | [a,b,c,d],_ =>
    have free (byte : UInt8) : ∀ x ∈ decimalText byte.toNat, dotChar x = false := by
      intro x mem
      have digit := (decimalByte byte).1.digits x mem
      rw [Bool.eq_false_iff]
      intro dot
      rw [beq_iff_eq.mp dot] at digit
      exact absurd digit (by decide)
    have quad : DottedQuad (formatIpv4 [a,b,c,d]) [a,b,c,d] := ipv4Spelled rfl
    have tail : afterLastColon (formatIpv4 [a,b,c,d]) = formatIpv4 [a,b,c,d] := by
      rw [afterLastColon,List.takeWhile_eq_self_iff.mpr,List.reverse_reverse]
      intro x mem
      rw [bne_iff_ne]
      rintro rfl
      exact (quadShape quad).1 (List.mem_reverse.mp mem)
    have shape : formatIpv4 [a,b,c,d] = decimalText a.toNat ++
      '.' :: (decimalText b.toNat ++ '.' :: (decimalText c.toNat ++ '.' :: decimalText d.toNat)) := by
      simp [formatIpv4]
    rw [leadingZeros,tail,shape,fieldsNext dotChar (free a) rfl,fieldsNext dotChar (free b) rfl,fieldsNext dotChar (free c) rfl,
      fieldsWhole dotChar (free d)]
    simp only [List.any_cons,List.any_nil,decimalZeros a.toNat a.toNat_lt,decimalZeros b.toNat b.toNat_lt,decimalZeros c.toNat c.toNat_lt,
      decimalZeros d.toNat d.toNat_lt,Bool.or_self,Bool.and_false]

theorem writtenDot (best : Nat × Nat) (index : Nat) (groups : List Nat) : '.' ∉ writeGroups best index groups := by
  induction groups generalizing index with
  | nil => exact List.not_mem_nil
  | cons group rest ih =>
    have digits : '.' ∉ hexText group := fun mem => absurd ((hexTextDigits group).1 '.' mem) (by decide)
    rw [writeGroups,List.mem_append,not_or]
    refine ⟨?_,ih (index + 1)⟩
    split
    · decide
    · split
      · exact List.not_mem_nil
      · rw [List.mem_append,not_or]
        refine ⟨?_,digits⟩
        split <;> decide

theorem plainWrites {bytes : List UInt8} {shown : String} {ipv6 : Bool} (size : 8 * bytes.length = addressWidth ipv6)
    (written : plainNtop (familyOf ipv6) bytes = some shown) :
    ipv6 = true ∧ bytes.length = 16 ∧ shown.toList = formatIpv6 bytes ∨ ipv6 = false ∧ bytes.length = 4 ∧
      shown.toList = formatIpv4 bytes := by
  cases ipv6 with
  | true =>
    have sixteen : bytes.length = 16 := by
      change 8 * bytes.length = 128 at size
      omega
    have apart : ¬(familyOf true = afInet ∧ bytes.length = 4) := fun both => absurd both.1 (by decide)
    rw [plainNtop,if_neg apart,if_pos ⟨rfl,sixteen⟩] at written
    cases written
    exact .inl ⟨rfl,sixteen,String.toList_ofList⟩
  | false =>
    have four : bytes.length = 4 := by
      change 8 * bytes.length = 32 at size
      omega
    rw [plainNtop,if_pos ⟨rfl,four⟩] at written
    cases written
    exact .inr ⟨rfl,four,String.toList_ofList⟩

theorem plainCanonical : plainInet.Canonical where
  v4 := by
    intro text bytes read
    change plainPton afInet text = some bytes at read
    rw [plainPton,if_pos rfl] at read
    split at read
    · cases read
    · exact quadRead read
  v6 := by
    intro text bytes read
    change plainPton afInet6 text = some bytes at read
    rw [plainPton,if_neg (by decide)] at read
    obtain ⟨_,checked⟩ := Option.mem_filter_iff.mp read
    simp only [Bool.and_eq_true,beq_iff_eq] at checked
    rw [← checked.2]
    exact ipv6Spelled checked.1.2
  back := by
    intro ipv6 bytes shown size written
    rcases plainWrites size written with ⟨rfl,sixteen,shape⟩ | ⟨rfl,four,shape⟩
    · have other : ¬familyOf true = afInet := by decide
      change plainPton (familyOf true) shown = some bytes
      rw [plainPton,if_neg other,shape,ipv6Parsed (ipv6Spelled sixteen),Option.filter_some,sixteen,beq_self_eq_true,beq_self_eq_true]
      rfl
    · change plainPton afInet shown = some bytes
      rw [plainPton,if_pos rfl,shape,quadZeros four,quadParsed (ipv4Spelled four)]
      rfl
  zeros := by
    intro ipv6 bytes shown size written
    rcases plainWrites size written with ⟨rfl,sixteen,shape⟩ | ⟨rfl,four,shape⟩
    · rw [shape]
      exact plainZeros (writtenDot _ _ _)
    · rw [shape]
      exact quadZeros four

theorem networkNormalized : normalizeIpOrCidr plainInet (text "10.1.2.3/8") = some (text "10.0.0.0/8") ∧
    normalizeIpOrCidr plainInet (text "10.0.0.0/8") = some (text "10.0.0.0/8") ∧
    entryAddresses plainInet (text "10.0.0.0/8") = entryAddresses plainInet (text "10.1.2.3/8") := by
  have accepted : normalizeIpOrCidr plainInet (text "10.1.2.3/8") = some (text "10.0.0.0/8") := by decide
  obtain ⟨again,same,-,-⟩ := normalizationCanonical plainCanonical accepted
  exact ⟨accepted,again,same⟩

end Instance

end KeenPbr

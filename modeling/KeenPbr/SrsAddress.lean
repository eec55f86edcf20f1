import KeenPbr.Dyadic
import KeenPbr.AddressTexts

/-! The address arithmetic of srs_decoder.cpp. An IpAddress is its bytes in network order; the loops
that run from the last byte to the first run over the reversed bytes here. -/
namespace KeenPbr.Srs

abbrev IpAddress := List UInt8

/- std::lexicographical_compare. -/
def addressLess : IpAddress → IpAddress → Bool
  | _, [] => false
  | [], _ :: _ => true
  | a :: lhs, b :: rhs => if a < b then true else if b < a then false else addressLess lhs rhs

def addressEqual (lhs rhs : IpAddress) : Bool := lhs == rhs

/- The inner while loop; a byte other than zero stops it within eight rounds. -/
def shiftCount : Nat → UInt8 → Nat
  | 0, _ => 0
  | rounds + 1, copy => if copy &&& 1 = 0 then shiftCount rounds (copy >>> 1) + 1 else 0

def trailingZeroBits : List UInt8 → Nat
  | [] => 0
  | value :: rest => if value = 0 then trailingZeroBits rest + 8 else shiftCount 8 value

def addressTrailingZeroBits (address : IpAddress) : Nat := trailingZeroBits address.reverse

def setBit (bytes : List UInt8) (offset : Nat) : List UInt8 :=
  bytes.modify (offset / 8) fun value => value ||| (1 <<< UInt8.ofNat (offset % 8))

def blockEnd (address : IpAddress) (hostBits : Nat) : IpAddress :=
  ((List.range hostBits).foldl setBit address.reverse).reverse

def increment : List UInt8 → Option (List UInt8)
  | [] => none
  | value :: rest => if value ≠ 0xff then some ((value + 1) :: rest) else (increment rest).map (0 :: ·)

def incrementAddress (address : IpAddress) : Option IpAddress := (increment address.reverse).map List.reverse

def decimalText (value : Nat) : Text := Nat.toDigits 10 value

def formatIpv4 : IpAddress → Text
  | [] => []
  | first :: rest => decimalText first.toNat ++ rest.flatMap fun byte => '.' :: decimalText byte.toNat

def addressGroups : IpAddress → List Nat
  | high :: low :: rest => (high.toNat * 256 + low.toNat) :: addressGroups rest
  | _ => []

def bestRun : Nat → Nat → List Nat → Nat × Nat → Nat × Nat
  | 0, _, _, best => best
  | _, _, [], best => best
  | fuel + 1, index, group :: rest, best =>
    if group ≠ 0 then bestRun fuel (index + 1) rest best
    else
      let run := ((group :: rest).takeWhile (· == 0)).length
      bestRun fuel (index + run) ((group :: rest).drop run)
        (if run > best.2 ∧ run ≥ 2 then (index,run) else best)

def writeGroups (best : Nat × Nat) : Nat → List Nat → Text
  | _, [] => []
  | index, group :: rest =>
    (if index = best.1 then [':',':']
     else if best.1 < index ∧ index < best.1 + best.2 then []
     else (if index ≠ 0 ∧ index ≠ best.1 + best.2 then [':'] else []) ++ hexText group) ++
    writeGroups best (index + 1) rest

def formatIpv6 (address : IpAddress) : Text :=
  let groups := addressGroups address
  writeGroups (bestRun (groups.length + 1) 0 groups (groups.length,0)) 0 groups

def formatAddress (address : IpAddress) : Text := if address.length = 4 then formatIpv4 address else formatIpv6 address

def number : List UInt8 → Nat
  | [] => 0
  | value :: rest => value.toNat + 256 * number rest

def value (address : IpAddress) : Nat := number address.reverse

theorem numberLt (bytes : List UInt8) : number bytes < 2 ^ (8 * bytes.length) := by
  induction bytes with
  | nil => exact Nat.one_pos
  | cons byte rest ih =>
    have small := byte.toNat_lt
    rw [number,List.length_cons,Nat.mul_succ,Nat.pow_add]
    omega

theorem valueLt (address : IpAddress) : value address < 2 ^ (8 * address.length) := by
  rw [← List.length_reverse]
  exact numberLt _

theorem numberAppend (low high : List UInt8) : number (low ++ high) = number low + 2 ^ (8 * low.length) * number high := by
  induction low with
  | nil => simp [number]
  | cons byte rest ih =>
    rw [List.cons_append,number,number,ih,List.length_cons,Nat.mul_succ,Nat.pow_add,Nat.mul_add,Nat.mul_comm (2 ^ _) (2 ^ 8),
      Nat.mul_assoc]
    omega

theorem valueCons (byte : UInt8) (rest : IpAddress) : value (byte :: rest) = byte.toNat * 2 ^ (8 * rest.length) + value rest := by
  rw [value,List.reverse_cons,numberAppend,List.length_reverse,number,number,Nat.mul_zero,Nat.add_zero,Nat.mul_comm,Nat.add_comm]
  rfl

theorem lessValue {lhs rhs : IpAddress} (same : lhs.length = rhs.length) : addressLess lhs rhs = true ↔ value lhs < value rhs := by
  induction lhs generalizing rhs with
  | nil =>
    cases rhs with
    | nil => simp [addressLess]
    | cons => cases same
  | cons a lhs ih =>
    cases rhs with
    | nil => cases same
    | cons b rhs =>
      have lengths : lhs.length = rhs.length := Nat.succ.inj same
      have left := valueLt lhs
      have right := valueLt rhs
      rw [addressLess,valueCons,valueCons,lengths]
      rw [lengths] at left
      split
      · rename_i less
        have less := UInt8.lt_iff_toNat_lt.mp less
        have product := Nat.mul_le_mul_right (2 ^ (8 * rhs.length)) (Nat.succ_le_of_lt less)
        rw [Nat.succ_mul] at product
        simp only [true_iff]
        omega
      · rename_i notLess
        split
        · rename_i greater
          have greater := UInt8.lt_iff_toNat_lt.mp greater
          have product := Nat.mul_le_mul_right (2 ^ (8 * rhs.length)) (Nat.succ_le_of_lt greater)
          rw [Nat.succ_mul] at product
          simp only [Bool.false_eq_true,false_iff]
          omega
        · rename_i notGreater
          have equal : a = b := UInt8.le_antisymm (UInt8.not_lt.mp notGreater) (UInt8.not_lt.mp notLess)
          rw [ih lengths,equal]
          omega

theorem valueInj {lhs rhs : IpAddress} (same : lhs.length = rhs.length) (equal : value lhs = value rhs) : lhs = rhs := by
  induction lhs generalizing rhs with
  | nil =>
    cases rhs with
    | nil => rfl
    | cons => cases same
  | cons a lhs ih =>
    cases rhs with
    | nil => cases same
    | cons b rhs =>
      have lengths : lhs.length = rhs.length := Nat.succ.inj same
      have left := valueLt lhs
      have right := valueLt rhs
      rw [valueCons,valueCons,lengths] at equal
      rw [lengths] at left
      have first : a.toNat = b.toNat := by
        have pow := Nat.two_pow_pos (8 * rhs.length)
        have high := congrArg (· / 2 ^ (8 * rhs.length)) equal
        simp only [Nat.mul_comm _ (2 ^ _),Nat.mul_add_div pow,Nat.div_eq_of_lt left,Nat.div_eq_of_lt right] at high
        omega
      rw [first] at equal
      rw [UInt8.toNat_inj.mp first,ih lengths (by omega)]

theorem shiftCountSpec : ∀ byte < 256, byte ≠ 0 → shiftCount 8 (UInt8.ofNat byte) < 8 ∧
    byte % 2 ^ shiftCount 8 (UInt8.ofNat byte) = 0 ∧ byte / 2 ^ shiftCount 8 (UInt8.ofNat byte) % 2 = 1 := by
  decide +kernel

theorem oddPart {t n h : Nat} (odd : n % 2 = 1) : 2 ^ h ∣ 2 ^ t * n ↔ h ≤ t := by
  constructor
  · intro divides
    by_contra more
    have step : 2 ^ (t + 1) ∣ 2 ^ t * n := (Nat.pow_dvd_pow 2 (by omega)).trans divides
    rw [Nat.pow_succ] at step
    have even := Nat.dvd_of_mul_dvd_mul_left (Nat.two_pow_pos t) step
    omega
  · intro few
    exact (Nat.pow_dvd_pow 2 few).mul_right n

theorem trailingSpec (bytes : List UInt8) : trailingZeroBits bytes ≤ 8 * bytes.length ∧
    ∀ h ≤ 8 * bytes.length, 2 ^ h ∣ number bytes ↔ h ≤ trailingZeroBits bytes := by
  induction bytes with
  | nil =>
    refine ⟨Nat.le_refl 0,fun h few => ?_⟩
    have none : h = 0 := Nat.le_zero.mp few
    rw [none]
    exact ⟨fun _ => Nat.le_refl 0,fun _ => Nat.one_dvd _⟩
  | cons byte rest ih =>
    obtain ⟨bound,divides⟩ := ih
    rw [trailingZeroBits,List.length_cons,number]
    split
    · rename_i zero
      refine ⟨by omega,fun h few => ?_⟩
      rw [zero,UInt8.toNat_zero,Nat.zero_add]
      by_cases low : h ≤ 8
      · have whole : 2 ^ h ∣ 256 * number rest := (Nat.pow_dvd_pow 2 low).mul_right (number rest)
        exact ⟨fun _ => by omega,fun _ => whole⟩
      · obtain ⟨k,rfl⟩ : ∃ k, h = 8 + k := ⟨h - 8,by omega⟩
        rw [Nat.pow_add,show 256 = 2 ^ 8 from rfl,Nat.mul_dvd_mul_iff_left (by decide : 0 < 2 ^ 8),divides k (by omega)]
        omega
    · rename_i nonzero
      have nonzero : byte.toNat ≠ 0 := fun zero => nonzero (UInt8.toNat_inj.mp zero)
      obtain ⟨small,whole,odd⟩ := shiftCountSpec byte.toNat byte.toNat_lt nonzero
      rw [UInt8.ofNat_toNat] at small whole odd
      refine ⟨by omega,fun h _ => ?_⟩
      -- the byte's own power of two comes out of the higher bytes too and leaves an odd number
      obtain ⟨b,split⟩ : ∃ b, shiftCount 8 byte + (b + 1) = 8 := ⟨7 - shiftCount 8 byte,by omega⟩
      have power : 256 = 2 ^ shiftCount 8 byte * (2 ^ b * 2) := by
        rw [← Nat.pow_succ,← Nat.pow_add,split]
      have parts := Nat.div_add_mod byte.toNat (2 ^ shiftCount 8 byte)
      rw [whole,Nat.add_zero] at parts
      have product : byte.toNat + 256 * number rest =
          2 ^ shiftCount 8 byte * (byte.toNat / 2 ^ shiftCount 8 byte + 2 * (2 ^ b * number rest)) := by
        rw [Nat.mul_add,parts,power,Nat.mul_assoc,Nat.mul_assoc,Nat.mul_left_comm (2 ^ b)]
      rw [product]
      apply oddPart
      omega

theorem orBit : ∀ offset < 8, ∀ byte < 256, byte.testBit offset = false →
    (UInt8.ofNat byte ||| (1 <<< UInt8.ofNat offset)).toNat = byte + 2 ^ offset := by
  decide +kernel

theorem setBitNumber {bytes : List UInt8} {offset : Nat} (inside : offset < 8 * bytes.length)
    (clear : (number bytes).testBit offset = false) :
    number (setBit bytes offset) = number bytes + 2 ^ offset ∧ (setBit bytes offset).length = bytes.length := by
  refine ⟨?_,List.length_modify ..⟩
  induction bytes generalizing offset with
  | nil => cases inside
  | cons byte rest ih =>
    rw [List.length_cons] at inside
    have bit := Nat.testBit_two_pow_mul_add (number rest) (i := 8) byte.toNat_lt offset
    rw [number,Nat.add_comm,show 256 = 2 ^ 8 from rfl,bit] at clear
    split at clear
    · rename_i low
      have first : offset / 8 = 0 := Nat.div_eq_of_lt low
      have value := orBit offset low byte.toNat byte.toNat_lt clear
      rw [UInt8.ofNat_toNat] at value
      rw [setBit,first,List.modify_zero_cons,Nat.mod_eq_of_lt low,number,number,value]
      omega
    · rename_i high
      obtain ⟨k,rfl⟩ : ∃ k, offset = k + 8 := ⟨offset - 8,by omega⟩
      rw [Nat.add_sub_cancel] at clear
      have later := ih (by omega) clear
      have place : (k + 8) / 8 = k / 8 + 1 := Nat.add_div_right k (by decide)
      rw [setBit] at later
      rw [setBit,place,Nat.add_mod_right,List.modify_succ_cons,number,number,later,Nat.pow_add]
      omega

theorem setBitsNumber {bytes : List UInt8} {h : Nat} (inside : h ≤ 8 * bytes.length) (aligned : 2 ^ h ∣ number bytes) :
    number ((List.range h).foldl setBit bytes) + 1 = number bytes + 2 ^ h ∧
      ((List.range h).foldl setBit bytes).length = bytes.length := by
  have partly : ∀ o ≤ h, number ((List.range o).foldl setBit bytes) + 1 = number bytes + 2 ^ o ∧
      ((List.range o).foldl setBit bytes).length = bytes.length := by
    intro o few
    induction o with
    | zero => exact ⟨rfl,rfl⟩
    | succ o ih =>
      obtain ⟨sum,size⟩ := ih (by omega)
      obtain ⟨q,multiple⟩ := (Nat.pow_dvd_pow 2 few).trans aligned
      have clear : (number ((List.range o).foldl setBit bytes)).testBit o = false := by
        have value : number ((List.range o).foldl setBit bytes) = 2 ^ (o + 1) * q + (2 ^ o - 1) := by
          have := Nat.two_pow_pos o
          omega
        have small : 2 ^ o - 1 < 2 ^ (o + 1) := by
          have := Nat.pow_succ 2 o
          omega
        rw [value,Nat.testBit_two_pow_mul_add _ small,if_pos (Nat.lt_succ_self o)]
        simp
      have next := setBitNumber (by omega) clear
      rw [List.range_succ,List.foldl_append,List.foldl_cons,List.foldl_nil,next.1,next.2,Nat.pow_succ]
      exact ⟨by omega,size⟩
  exact partly h (Nat.le_refl h)

theorem incrementNumber (bytes : List UInt8) :
    match increment bytes with
    | some next => number next = number bytes + 1 ∧ next.length = bytes.length
    | none => number bytes + 1 = 2 ^ (8 * bytes.length) := by
  induction bytes with
  | nil => rfl
  | cons byte rest ih =>
    rw [increment]
    split
    · rename_i next found
      split at found
      · rename_i notFull
        cases found
        have below : byte.toNat < 255 := by
          have := byte.toNat_lt
          have : byte.toNat ≠ 255 := fun full => notFull (UInt8.toNat_inj.mp full)
          omega
        refine ⟨?_,rfl⟩
        rw [number,number,UInt8.toNat_add]
        simp only [UInt8.reduceToNat]
        omega
      · rename_i full
        have full : byte = 255 := not_not.mp full
        cases later : increment rest with
        | none =>
          rw [later] at found
          cases found
        | some bytes =>
          rw [later] at found ih
          cases found
          refine ⟨?_,by rw [List.length_cons,List.length_cons,ih.2]⟩
          rw [number,number,ih.1,full]
          simp only [UInt8.reduceToNat]
          omega
    · rename_i failed
      split at failed
      · cases failed
      · rename_i full
        have full : byte = 255 := not_not.mp full
        cases later : increment rest with
        | some bytes =>
          rw [later] at failed
          cases failed
        | none =>
          rw [later] at ih
          rw [number,List.length_cons,Nat.mul_succ,Nat.pow_add,← ih,full]
          simp only [UInt8.reduceToNat]
          omega

/- The blocks of one address width. -/
structure Cidr where
  address : IpAddress
  length : Nat
  deriving DecidableEq, Repr

def Cidr.text (cidr : Cidr) : Text := formatAddress cidr.address ++ '/' :: decimalText cidr.length

def Cidr.hostBits (cidr : Cidr) : Nat := 8 * cidr.address.length - cidr.length

/- The addresses of the family that agree with the block's in its first `length` bits. -/
def Cidr.Covers (cidr : Cidr) (address : IpAddress) : Prop :=
  address.length = cidr.address.length ∧ value address / 2 ^ cidr.hostBits = value cidr.address / 2 ^ cidr.hostBits

/- The inner while loop over host_bits. -/
def fitHostBits (from_ to_ : IpAddress) : Nat → Nat
  | 0 => 0
  | hostBits + 1 => if addressLess to_ (blockEnd from_ (hostBits + 1)) then fitHostBits from_ to_ hostBits else hostBits + 1

def rangeHostBits (from_ to_ : IpAddress) : Nat := fitHostBits from_ to_ (addressTrailingZeroBits from_)

inductive RangeNext where
  | done
  | overflow
  | next (address : IpAddress)
  deriving DecidableEq, Repr

def rangeStep (from_ to_ : IpAddress) : Cidr × RangeNext :=
  let hostBits := rangeHostBits from_ to_
  let stop := blockEnd from_ hostBits
  (⟨from_,8 * from_.length - hostBits⟩,
    if addressEqual stop to_ then .done
    else match incrementAddress stop with
      | none => .overflow
      | some next => .next next)

section Rounds
variable {left right : IpAddress}

theorem blockEndValue {h : Nat} (fits : h ≤ addressTrailingZeroBits left) :
    value (blockEnd left h) + 1 = value left + 2 ^ h ∧ (blockEnd left h).length = left.length := by
  obtain ⟨bound,divides⟩ := trailingSpec left.reverse
  have inside : h ≤ 8 * left.reverse.length := Nat.le_trans fits bound
  obtain ⟨sum,size⟩ := setBitsNumber inside ((divides h inside).mpr fits)
  rw [value,blockEnd,List.reverse_reverse]
  exact ⟨sum,by rw [List.length_reverse,size,List.length_reverse]⟩

theorem fitSpec (same : left.length = right.length) (ordered : value left ≤ value right) {bits : Nat}
    (asked : bits ≤ addressTrailingZeroBits left) :
    fitHostBits left right bits ≤ bits ∧ value left + 2 ^ fitHostBits left right bits ≤ value right + 1 ∧
      ∀ h ≤ bits, value left + 2 ^ h ≤ value right + 1 → h ≤ fitHostBits left right bits := by
  induction bits with
  | zero => exact ⟨Nat.le_refl 0,Nat.succ_le_succ ordered,fun h few _ => few⟩
  | succ bits ih =>
    obtain ⟨few,fits,largest⟩ := ih (by omega)
    obtain ⟨sum,size⟩ := blockEndValue asked
    have less : addressLess right (blockEnd left (bits + 1)) = true ↔ value right < value (blockEnd left (bits + 1)) :=
      lessValue (by rw [size,same])
    rw [fitHostBits]
    split
    · rename_i beyond
      have beyond := less.mp beyond
      refine ⟨by omega,fits,fun h most inside => ?_⟩
      have not_all : h ≠ bits + 1 := by
        intro all
        rw [all] at inside
        omega
      exact largest h (by omega) inside
    · rename_i within
      have within : ¬value right < value (blockEnd left (bits + 1)) := fun beyond => within (less.mpr beyond)
      exact ⟨Nat.le_refl _,by omega,fun h most _ => most⟩

theorem alignedIff {h : Nat} (inside : h ≤ 8 * left.length) : 2 ^ h ∣ value left ↔ h ≤ addressTrailingZeroBits left := by
  rw [← List.length_reverse] at inside
  exact (trailingSpec left.reverse).2 h inside

theorem rangeLargest (same : left.length = right.length) (ordered : value left ≤ value right) :
    ∃ aligned, Dyadic.Largest (value left) (value right) ⟨value left,rangeHostBits left right,aligned⟩ := by
  obtain ⟨few,fits,largest⟩ := fitSpec same ordered (Nat.le_refl (addressTrailingZeroBits left))
  have bound : addressTrailingZeroBits left ≤ 8 * left.length := by
    rw [← List.length_reverse]
    exact (trailingSpec left.reverse).1
  refine ⟨(alignedIff (Nat.le_trans few bound)).mpr few,rfl,fits,?_⟩
  intro other start stop
  have word := valueLt right
  unfold Dyadic.Block.stop at stop
  rw [start] at stop
  have inside : other.order ≤ 8 * left.length := by
    apply (Nat.pow_le_pow_iff_right (by decide : 1 < 2)).mp
    rw [same]
    omega
  exact largest other.order ((alignedIff inside).mp (start ▸ other.aligned)) stop

end Rounds

end KeenPbr.Srs

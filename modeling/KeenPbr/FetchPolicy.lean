import KeenPbr.Dyadic
import KeenPbr.Packets

/-! config/subscription_fetch_policy.cpp: which destinations a subscription may be fetched from. -/
namespace KeenPbr.FetchPolicy
open Dyadic

inductive SubscriptionDestinationVerdict where
  | allowed | loopback | privateNetwork | linkLocal | uniqueLocal | multicastOrBroadcast | unspecified | reserved | unparsable
  deriving DecidableEq, Repr

section Judging

def hostOrder (bytes : List UInt8) : UInt32 := bytes.foldl (fun raw byte => (raw <<< 8) ||| byte.toUInt32) 0

def octet (host shift : UInt32) : UInt8 := ((host >>> shift) &&& 0xFF).toUInt8

def judgeIpv4 (host : UInt32) : SubscriptionDestinationVerdict :=
  let first := octet host 24
  let second := octet host 16
  let third := octet host 8
  if host = 0 then .unspecified
  else if first = 127 then .loopback
  else if first = 10 then .privateNetwork
  else if first = 172 ∧ second ≥ 16 ∧ second ≤ 31 then .privateNetwork
  else if first = 192 ∧ second = 168 then .privateNetwork
  else if first = 169 ∧ second = 254 then .linkLocal
  else if first = 100 ∧ second ≥ 64 ∧ second ≤ 127 then .privateNetwork
  else if first ≥ 224 ∧ first ≤ 239 then .multicastOrBroadcast
  else if host = 0xFFFFFFFF then .multicastOrBroadcast
  else if first = 0 then .reserved
  else if first = 192 ∧ second = 0 ∧ (third = 0 ∨ third = 2) then .reserved
  else if first = 192 ∧ second = 88 ∧ third = 99 then .reserved
  else if first = 198 ∧ (second = 18 ∨ second = 19) then .reserved
  else if first = 198 ∧ second = 51 ∧ third = 100 then .reserved
  else if first = 203 ∧ second = 0 ∧ third = 113 then .reserved
  else if first ≥ 240 then .reserved
  else .allowed

def allZeroPrefix (bytes : List UInt8) (count : Nat) : Bool := (bytes.take count).all (· == 0)

def embedded (bytes : List UInt8) (offset : Nat) : UInt32 := hostOrder ((bytes.drop offset).take 4)

def judgeIpv6 (bytes : List UInt8) : SubscriptionDestinationVerdict :=
  let byte (i : Nat) : UInt8 := bytes.getD i 0
  if allZeroPrefix bytes 16 then .unspecified
  else if allZeroPrefix bytes 15 ∧ byte 15 = 1 then .loopback
  else if byte 0 = 0xFF then .multicastOrBroadcast
  else if byte 0 = 0xFE ∧ byte 1 &&& 0xC0 = 0x80 then .linkLocal
  else if byte 0 &&& 0xFE = 0xFC then .uniqueLocal
  else if allZeroPrefix bytes 10 ∧ byte 10 = 0xFF ∧ byte 11 = 0xFF then judgeIpv4 (embedded bytes 12)
  else if byte 0 = 0x20 ∧ byte 1 = 0x02 then judgeIpv4 (embedded bytes 2)
  -- Of the prefix 64:ff9b::/96 only the first four bytes are compared.
  else if byte 0 = 0 ∧ byte 1 = 0x64 ∧ byte 2 = 0xFF ∧ byte 3 = 0x9B then judgeIpv4 (embedded bytes 12)
  else if byte 0 &&& 0xE0 ≠ 0x20 then .reserved
  else if byte 0 = 0x20 ∧ byte 1 = 0x01 ∧ (byte 2 ≤ 0x01 ∨ byte 2 = 0x0D ∧ byte 3 = 0xB8) then .reserved
  else if byte 0 = 0x3F ∧ byte 1 = 0xFE then .reserved
  else if byte 0 = 0x3F ∧ byte 1 = 0xFF ∧ byte 2 &&& 0xF0 = 0 then .reserved
  else .allowed

def inet6AddrStrLen : Nat := 46

def bareAddress (address : Text) : Option Text :=
  if address.isEmpty then none
  else
    let bare := address.takeWhile (· != '%')
    if bare.length = address.length then some address
    else if bare.length = 0 ∨ bare.length ≥ inet6AddrStrLen then none
    else some bare

def subscriptionDestinationPermitted (inet : Inet) (address : Text) : SubscriptionDestinationVerdict :=
  match bareAddress address with
  | none => .unparsable
  | some bare =>
    match inet.pton afInet (cString bare) with
    | some bytes => judgeIpv4 (hostOrder bytes)
    | none =>
      match inet.pton afInet6 (cString bare) with
      | some bytes => judgeIpv6 bytes
      | none => .unparsable

end Judging

section Purpose

instance (block : Block) (number : Nat) : Decidable (block.Covers number) := inferInstanceAs (Decidable (_ ∧ _))

def addressNumber (bytes : List UInt8) : Nat := bytes.foldl (fun number byte => number * 256 + byte.toNat) 0

def leading (bits count : Nat) (parts : List Nat) : Nat :=
  parts.foldl (fun number part => number * 2 ^ bits + part) 0 * 2 ^ (bits * (count - parts.length))

def prefixIpv4 (octets : List Nat) (length : Nat) (aligned : 2 ^ (32 - length) ∣ leading 8 4 octets := by decide) : Block :=
  ⟨leading 8 4 octets,32 - length,aligned⟩

def prefixIpv6 (groups : List Nat) (length : Nat) (aligned : 2 ^ (128 - length) ∣ leading 16 8 groups := by decide) : Block :=
  ⟨leading 16 8 groups,128 - length,aligned⟩

def specialIpv4 : List Block :=
  [prefixIpv4 [0] 8,prefixIpv4 [10] 8,prefixIpv4 [100,64] 10,prefixIpv4 [127] 8,prefixIpv4 [169,254] 16,prefixIpv4 [172,16] 12,
    prefixIpv4 [192,0,0] 24,prefixIpv4 [192,0,2] 24,prefixIpv4 [192,88,99] 24,prefixIpv4 [192,168] 16,prefixIpv4 [198,18] 15,
    prefixIpv4 [198,51,100] 24,prefixIpv4 [203,0,113] 24,prefixIpv4 [224] 4,prefixIpv4 [240] 4]

def PublicIpv4 (number : Nat) : Prop := ∀ block ∈ specialIpv4, ¬ block.Covers number

instance (number : Nat) : Decidable (PublicIpv4 number) := inferInstanceAs (Decidable (∀ block ∈ specialIpv4, ¬ block.Covers number))

def specialIpv6 : List Block :=
  [prefixIpv6 [0x2001] 23,prefixIpv6 [0x2001,0x0db8] 32,prefixIpv6 [0x2002] 16,prefixIpv6 [0x3ffe] 16,prefixIpv6 [0x3fff] 20]

def PublicIpv6 (number : Nat) : Prop := (prefixIpv6 [0x2000] 3).Covers number ∧ ∀ block ∈ specialIpv6, ¬ block.Covers number

def nat64 : Block := prefixIpv6 [0x64,0xff9b] 96

inductive Translates : Nat → Nat → Prop
  | mapped {number : Nat} (inside : (prefixIpv6 [0,0,0,0,0,0xffff] 96).Covers number) : Translates number (number % 2 ^ 32)
  | sixToFour {number : Nat} (inside : (prefixIpv6 [0x2002] 16).Covers number) : Translates number (number / 2 ^ 80 % 2 ^ 32)
  | nat64 {number : Nat} (inside : nat64.Covers number) : Translates number (number % 2 ^ 32)

/- What a permitted destination has to be. -/
inductive Destination (inet : Inet) (address : Text) : Prop
  | ipv4 {bytes : List UInt8} (read : inet.pton afInet (cString (address.takeWhile (· != '%'))) = some bytes)
      (open_ : PublicIpv4 (addressNumber bytes))
  | ipv6 {bytes : List UInt8} (read : inet.pton afInet6 (cString (address.takeWhile (· != '%'))) = some bytes)
      (open_ : PublicIpv6 (addressNumber bytes))
  | translated {bytes : List UInt8} {host : Nat} (read : inet.pton afInet6 (cString (address.takeWhile (· != '%'))) = some bytes)
      (stands : Translates (addressNumber bytes) host) (open_ : PublicIpv4 host)

/- An address of 64:ff9b::/32 that is none of 64:ff9b::/96 and ends in the bytes of a public IPv4 address. -/
structure Slipped (inet : Inet) (address : Text) : Prop where
  kept : (bareAddress address).isSome = true
  read : ∃ bytes, inet.pton afInet6 (cString (address.takeWhile (· != '%'))) = some bytes ∧
    (prefixIpv6 [0x64,0xff9b] 32).Covers (addressNumber bytes) ∧ ¬ nat64.Covers (addressNumber bytes) ∧
    PublicIpv4 (addressNumber bytes % 2 ^ 32)

end Purpose

section Numbers

theorem octetNumber (host : UInt32) {shift : UInt32} (few : shift.toNat < 32) :
    (octet host shift).toNat = host.toNat / 2 ^ shift.toNat % 256 := by
  have mask : ∀ n : Nat, n &&& 255 = n % 256 := fun n => Nat.and_two_pow_sub_one_eq_mod n 8
  simp [octet,Nat.shiftRight_eq_div_pow,mask,Nat.mod_eq_of_lt few]

theorem hostOrderStep {raw : UInt32} (byte : UInt8) (room : raw.toNat < 2 ^ 24) :
    ((raw <<< 8) ||| byte.toUInt32).toNat = raw.toNat * 256 + byte.toNat := by
  have shifted : (raw <<< 8).toNat = raw.toNat <<< 8 := by
    rw [UInt32.toNat_shiftLeft]
    exact Nat.mod_eq_of_lt (by rw [Nat.shiftLeft_eq]; exact Nat.mul_lt_mul_of_pos_right room (by decide))
  rw [UInt32.toNat_or,shifted,UInt8.toNat_toUInt32,← Nat.shiftLeft_add_eq_or_of_lt byte.toNat_lt,Nat.shiftLeft_eq]

theorem hostOrderFrom (bytes : List UInt8) (few : bytes.length ≤ 4) : ∀ raw : UInt32, raw.toNat < 256 ^ (4 - bytes.length) →
    (bytes.foldl (fun (raw : UInt32) byte => (raw <<< 8) ||| byte.toUInt32) raw).toNat = bytes.foldl
    (fun number byte => number * 256 + byte.toNat) raw.toNat := by
  induction bytes with
  | nil => exact fun _ _ => rfl
  | cons byte rest ih =>
    intro raw room
    rw [List.length_cons] at few room
    have place : 4 - rest.length = (4 - (rest.length + 1)) + 1 := by omega
    have below : raw.toNat < 2 ^ 24 := room.trans_le (Nat.pow_le_pow_right (by decide) (by omega : 4 - (rest.length + 1) ≤ 3))
    have small := byte.toNat_lt
    have step := hostOrderStep byte below
    have next : ((raw <<< 8) ||| byte.toUInt32).toNat < 256 ^ (4 - rest.length) := by
      rw [step,place,Nat.pow_succ]
      omega
    rw [List.foldl_cons,List.foldl_cons,ih (by omega) _ next,step]

theorem hostOrderNumber {bytes : List UInt8} (four : bytes.length = 4) : (hostOrder bytes).toNat = addressNumber bytes :=
  hostOrderFrom bytes four.le 0 (Nat.pow_pos (by decide))

end Numbers

section Ipv4

theorem guardAllowed {c : Prop} [Decidable c] {verdict rest : SubscriptionDestinationVerdict} (other : verdict ≠ .allowed) :
    (if c then verdict else rest) = .allowed ↔ ¬ c ∧ rest = .allowed := by
  by_cases holds : c
  · simp [holds,other]
  · simp [holds]

theorem publicDigits {a b c d : Nat} (first : a < 256) (second : b < 256) (third : c < 256) (fourth : d < 256) :
    PublicIpv4 (a * 16777216 + b * 65536 + c * 256 + d) ↔
    ¬ (a = 0) ∧
    ¬ (a = 10) ∧
    ¬ (a = 100 ∧ 64 ≤ b ∧ b ≤ 127) ∧
    ¬ (a = 127) ∧
    ¬ (a = 169 ∧ b = 254) ∧
    ¬ (a = 172 ∧ 16 ≤ b ∧ b ≤ 31) ∧
    ¬ (a = 192 ∧ b = 0 ∧ c = 0) ∧
    ¬ (a = 192 ∧ b = 0 ∧ c = 2) ∧
    ¬ (a = 192 ∧ b = 88 ∧ c = 99) ∧
    ¬ (a = 192 ∧ b = 168) ∧
    ¬ (a = 198 ∧ (b = 18 ∨ b = 19)) ∧
    ¬ (a = 198 ∧ b = 51 ∧ c = 100) ∧
    ¬ (a = 203 ∧ b = 0 ∧ c = 113) ∧
    ¬ (224 ≤ a ∧ a ≤ 239) ∧
    ¬ (240 ≤ a) := by
  simp only [PublicIpv4,specialIpv4,List.forall_mem_cons,List.not_mem_nil,false_imp_iff,implies_true,and_true,Block.Covers,
    Block.stop,prefixIpv4,
    leading,List.foldl_cons,List.foldl_nil,List.length_cons,List.length_nil,Nat.reduceMul,Nat.reduceAdd,Nat.reduceSub,Nat.reducePow]
  iterate 14 refine and_congr (not_congr (by omega)) ?_
  exact not_congr (by omega)

theorem judgedIpv4 (host : UInt32) : judgeIpv4 host = .allowed ↔ PublicIpv4 host.toNat := by
  have first := octetNumber host (by decide : (24 : UInt32).toNat < 32)
  have second := octetNumber host (by decide : (16 : UInt32).toNat < 32)
  have third := octetNumber host (by decide : (8 : UInt32).toNat < 32)
  have all := host.toNat_lt
  simp only [UInt32.reduceToNat] at first second third
  have digits : host.toNat = (octet host 24).toNat * 16777216 + (octet host 16).toNat * 65536 + (octet host 8).toNat
    * 256 + host.toNat % 256 := by omega
  have second' := (octet host 16).toNat_lt
  have third' := (octet host 8).toNat_lt
  clear first second third
  rw [digits,publicDigits (octet host 24).toNat_lt (octet host 16).toNat_lt (octet host 8).toNat_lt (Nat.mod_lt _ (by decide))]
  unfold judgeIpv4
  dsimp only
  iterate 16 rw [guardAllowed]
  all_goals first | decide | skip
  simp only [← UInt32.toNat_inj,← UInt8.toNat_inj,UInt8.le_iff_toNat_le,ge_iff_le,UInt8.reduceToNat,UInt32.reduceToNat]
  generalize (octet host 24).toNat = a at *
  generalize (octet host 16).toNat = b at *
  generalize (octet host 8).toNat = c at *
  constructor
  · rintro ⟨-,h127,h10,h172,h168,h169,h100,h224,-,h0,h192,h88,h18,h51,h203,h240,-⟩
    exact ⟨h0,h10,h100,h127,h169,h172,fun h => h192 ⟨h.1,h.2.1,.inl h.2.2⟩,fun h =>
      h192 ⟨h.1,h.2.1,.inr h.2.2⟩,h88,h168,h18,h51,h203,h224,h240⟩
  · rintro ⟨h0,h10,h100,h127,h169,h172,h192,h192',h88,h168,h18,h51,h203,h224,h240⟩
    refine ⟨fun zero => h0 ?_,h127,h10,h172,h168,h169,h100,h224,fun last => h240 ?_,h0,?_,h88,h18,h51,h203,h240,trivial⟩
    · clear h0 h10 h100 h127 h169 h172 h192 h192' h88 h168 h18 h51 h203 h224 h240
      omega
    · clear h0 h10 h100 h127 h169 h172 h192 h192' h88 h168 h18 h51 h203 h224 h240
      omega
    · rintro ⟨one,two,three | three⟩
      · exact h192 ⟨one,two,three⟩
      · exact h192' ⟨one,two,three⟩

end Ipv4

section Ipv6

theorem addressFrom (bytes : List UInt8) : ∀ number : Nat, bytes.foldl (fun number byte => number * 256 + byte.toNat) number =
    number * 256 ^ bytes.length + addressNumber bytes := by
  induction bytes with
  | nil => intro number; simp [addressNumber]
  | cons byte rest ih =>
    intro number
    rw [addressNumber,List.foldl_cons,List.foldl_cons,ih,ih,List.length_cons,Nat.pow_succ',Nat.zero_mul,Nat.zero_add,
      Nat.add_mul,Nat.mul_assoc,Nat.add_assoc]

theorem addressAppend (front back : List UInt8) :
    addressNumber (front ++ back) = addressNumber front * 256 ^ back.length + addressNumber back := by
  rw [addressNumber,List.foldl_append,addressFrom back]
  rfl

theorem addressBelow (bytes : List UInt8) : addressNumber bytes < 256 ^ bytes.length := by
  induction bytes with
  | nil => exact Nat.one_pos
  | cons byte rest ih =>
    have small := byte.toNat_lt
    have one : addressNumber [byte] = byte.toNat := Nat.zero_add _
    calc addressNumber (byte :: rest)
      _ = byte.toNat * 256 ^ rest.length + addressNumber rest := by rw [← List.singleton_append,addressAppend,one]
      _ < (byte.toNat + 1) * 256 ^ rest.length := by rw [Nat.add_mul,Nat.one_mul]; omega
      _ ≤ 256 * 256 ^ rest.length := Nat.mul_le_mul_right _ small
      _ = 256 ^ (byte :: rest).length := by rw [List.length_cons,Nat.pow_succ']

theorem addressZero {bytes : List UInt8} (zero : bytes.all (· == 0) = true) : addressNumber bytes = 0 := by
  induction bytes with
  | nil => rfl
  | cons byte rest ih =>
    rw [List.all_cons,Bool.and_eq_true,beq_iff_eq] at zero
    rw [← List.singleton_append,addressAppend,ih zero.2,zero.1]
    simp [addressNumber]

theorem numberSplit (bytes : List UInt8) (k : Nat) :
    addressNumber bytes = addressNumber (bytes.take k) * 256 ^ (bytes.length - k) + addressNumber (bytes.drop k) ∧
      addressNumber (bytes.drop k) < 256 ^ (bytes.length - k) := by
  rw [← List.length_drop,← addressAppend,List.take_append_drop]
  exact ⟨rfl,addressBelow _⟩

theorem numberNext {bytes : List UInt8} {k : Nat} (inside : k < bytes.length) :
    addressNumber (bytes.take (k + 1)) = addressNumber (bytes.take k) * 256 + (bytes.getD k 0).toNat := by
  rw [List.take_succ_eq_append_getElem inside,addressAppend,List.getD_eq_getElem?_getD,List.getElem?_eq_getElem inside]
  simp [addressNumber]

theorem embeddedNumber {bytes : List UInt8} {k : Nat} (inside : k + 4 ≤ bytes.length) :
    (embedded bytes k).toNat = addressNumber (bytes.drop k) / 256 ^ (bytes.length - (k + 4)) := by
  have parts := numberSplit (bytes.drop k) 4
  rw [List.length_drop,List.drop_drop,Nat.sub_sub] at parts
  have four : ((bytes.drop k).take 4).length = 4 := by rw [List.length_take,List.length_drop]; omega
  rw [embedded,hostOrderNumber four,parts.1,Nat.mul_comm,Nat.mul_add_div (Nat.pow_pos (by decide)),Nat.div_eq_of_lt parts.2,Nat.add_zero]

theorem maskHigh (n low high : Nat) : n &&& ((2 ^ high - 1) <<< low) = n / 2 ^ low % 2 ^ high * 2 ^ low := by
  have moved : n &&& ((2 ^ high - 1) <<< low) = ((n >>> low) &&& (2 ^ high - 1)) <<< low := by
    apply Nat.eq_of_testBit_eq
    intro i
    rw [Nat.testBit_and,Nat.testBit_shiftLeft,Nat.testBit_shiftLeft,Nat.testBit_and,Nat.testBit_shiftRight]
    by_cases above : i ≥ low
    · simp [above]
    · simp [above]
  rw [moved,Nat.and_two_pow_sub_one_eq_mod,Nat.shiftRight_eq_div_pow,Nat.shiftLeft_eq]

theorem globalByte {byte : UInt8} : byte &&& 0xE0 = 0x20 ↔ byte.toNat / 32 = 1 := by
  have small := byte.toNat_lt
  have mask := maskHigh byte.toNat 5 3
  rw [← UInt8.toNat_inj,UInt8.toNat_and]
  simp only [UInt8.reduceToNat] at *
  simp only [Nat.reducePow,Nat.reduceSub,Nat.reduceShiftLeft] at mask
  omega

theorem documentationByte {byte : UInt8} : byte &&& 0xF0 = 0 ↔ byte.toNat / 16 = 0 := by
  have small := byte.toNat_lt
  have mask := maskHigh byte.toNat 4 4
  rw [← UInt8.toNat_inj,UInt8.toNat_and]
  simp only [UInt8.reduceToNat] at *
  simp only [Nat.reducePow,Nat.reduceSub,Nat.reduceShiftLeft] at mask
  omega

section Parts
variable {bytes : List UInt8} (sixteen : bytes.length = 16)
include sixteen

theorem leadingBytes : ∃ rest < 2 ^ 96, addressNumber bytes =
    (bytes.getD 0 0).toNat * 2 ^ 120 + (bytes.getD 1 0).toNat * 2 ^ 112 + (bytes.getD 2 0).toNat * 2 ^ 104 +
    (bytes.getD 3 0).toNat * 2 ^ 96 + rest := by
  obtain ⟨whole,below⟩ := numberSplit bytes 4
  have n1 := @numberNext bytes 0 (by omega)
  have n2 := @numberNext bytes 1 (by omega)
  have n3 := @numberNext bytes 2 (by omega)
  have n4 := @numberNext bytes 3 (by omega)
  have none : addressNumber (bytes.take 0) = 0 := rfl
  rw [sixteen] at whole below
  simp only [Nat.reduceAdd,Nat.reduceSub,Nat.reducePow] at *
  rw [n4,n3,n2,n1,none] at whole
  refine ⟨addressNumber (bytes.drop 4),below,?_⟩
  rw [whole]
  generalize addressNumber (bytes.drop 4) = rest
  omega

theorem mappedNumber (zero : allZeroPrefix bytes 10 = true) (ten : bytes.getD 10 0 = 0xFF) (eleven : bytes.getD 11 0 = 0xFF) :
    (prefixIpv6 [0,0,0,0,0,0xffff] 96).Covers (addressNumber bytes) ∧ (embedded bytes 12).toNat = addressNumber bytes % 2 ^ 32 := by
  obtain ⟨whole,below⟩ := numberSplit bytes 12
  have n11 := @numberNext bytes 10 (by omega)
  have n12 := @numberNext bytes 11 (by omega)
  have nothing := @addressZero (bytes.take 10) zero
  have host := @embeddedNumber bytes 12 (by omega)
  rw [ten] at n11
  rw [eleven] at n12
  rw [sixteen] at whole below host
  simp only [Nat.reduceAdd,Nat.reduceSub,Nat.reducePow,UInt8.reduceToNat,Nat.div_one] at *
  simp only [prefixIpv6,leading,Block.Covers,Block.stop,List.foldl_cons,List.foldl_nil,List.length_cons,List.length_nil,
    Nat.reduceAdd,Nat.reduceSub,Nat.reduceMul,Nat.reducePow]
  omega

theorem sixToFourNumber (zero : bytes.getD 0 0 = 0x20) (one : bytes.getD 1 0 = 0x02) :
    (prefixIpv6 [0x2002] 16).Covers (addressNumber bytes) ∧ (embedded bytes 2).toNat = addressNumber bytes / 2 ^ 80 % 2 ^ 32 := by
  obtain ⟨whole,below⟩ := numberSplit bytes 2
  have n1 := @numberNext bytes 0 (by omega)
  have n2 := @numberNext bytes 1 (by omega)
  have nothing : addressNumber (bytes.take 0) = 0 := rfl
  have host := @embeddedNumber bytes 2 (by omega)
  rw [zero] at n1
  rw [one] at n2
  rw [sixteen] at whole below host
  simp only [Nat.reduceAdd,Nat.reduceSub,Nat.reducePow,UInt8.reduceToNat] at *
  simp only [prefixIpv6,leading,Block.Covers,Block.stop,List.foldl_cons,List.foldl_nil,List.length_cons,List.length_nil,
    Nat.reduceAdd,Nat.reduceSub,Nat.reduceMul,Nat.reducePow]
  omega

theorem nat64Number : (prefixIpv6 [0x64,0xff9b] 32).Covers (addressNumber bytes) ↔
    bytes.getD 0 0 = 0 ∧ bytes.getD 1 0 = 0x64 ∧ bytes.getD 2 0 = 0xFF ∧ bytes.getD 3 0 = 0x9B := by
  obtain ⟨rest,below,whole⟩ := leadingBytes sixteen
  have s0 := (bytes.getD 0 0).toNat_lt
  have s1 := (bytes.getD 1 0).toNat_lt
  have s2 := (bytes.getD 2 0).toNat_lt
  have s3 := (bytes.getD 3 0).toNat_lt
  rw [whole,← UInt8.toNat_inj,← UInt8.toNat_inj,← UInt8.toNat_inj,← UInt8.toNat_inj]
  simp only [prefixIpv6,leading,Block.Covers,Block.stop,List.foldl_cons,List.foldl_nil,List.length_cons,List.length_nil,
    Nat.reduceAdd,Nat.reduceSub,Nat.reduceMul,Nat.reducePow,
    UInt8.reduceToNat] at *
  omega

theorem lastNumber : (embedded bytes 12).toNat = addressNumber bytes % 2 ^ 32 := by
  obtain ⟨whole,below⟩ := numberSplit bytes 12
  rw [embeddedNumber (by omega)]
  rw [sixteen] at *
  simp only [Nat.reduceAdd,Nat.reduceSub,Nat.reducePow,Nat.div_one] at *
  omega

theorem judgedIpv6 (allowed : judgeIpv6 bytes = .allowed) :
    PublicIpv6 (addressNumber bytes) ∨ (∃ host, Translates (addressNumber bytes) host ∧ PublicIpv4 host) ∨
      (prefixIpv6 [0x64,0xff9b] 32).Covers (addressNumber bytes) ∧ PublicIpv4 (addressNumber bytes % 2 ^ 32) := by
  unfold judgeIpv6 at allowed
  dsimp only at allowed
  iterate 5 rw [guardAllowed] at allowed
  all_goals first | decide | skip
  obtain ⟨-,-,-,-,-,allowed⟩ := allowed
  split at allowed
  · rename_i mapped
    obtain ⟨inside,host⟩ := mappedNumber sixteen mapped.1 mapped.2.1 mapped.2.2
    rw [judgedIpv4,host] at allowed
    exact .inr (.inl ⟨_,.mapped inside,allowed⟩)
  split at allowed
  · rename_i relayed
    obtain ⟨inside,host⟩ := sixToFourNumber sixteen relayed.1 relayed.2
    rw [judgedIpv4,host] at allowed
    exact .inr (.inl ⟨_,.sixToFour inside,allowed⟩)
  rename_i native
  split at allowed
  · rename_i wide
    rw [judgedIpv4,lastNumber sixteen] at allowed
    exact .inr (.inr ⟨(nat64Number sixteen).mpr wide,allowed⟩)
  iterate 4 rw [guardAllowed] at allowed
  all_goals first | decide | skip
  obtain ⟨unicast,protocol,bone,documentation,-⟩ := allowed
  rw [ne_eq,not_not,globalByte] at unicast
  rw [documentationByte] at documentation
  obtain ⟨rest,below,whole⟩ := leadingBytes sixteen
  have s1 := (bytes.getD 1 0).toNat_lt
  have s2 := (bytes.getD 2 0).toNat_lt
  have s3 := (bytes.getD 3 0).toNat_lt
  simp only [← UInt8.toNat_inj,UInt8.le_iff_toNat_le,UInt8.reduceToNat] at native protocol bone documentation
  refine .inl ?_
  rw [whole]
  clear whole
  generalize (bytes.getD 0 0).toNat = a at *
  generalize (bytes.getD 1 0).toNat = b at *
  generalize (bytes.getD 2 0).toNat = c at *
  generalize (bytes.getD 3 0).toNat = d at *
  simp only [PublicIpv6,specialIpv6,List.forall_mem_cons,List.not_mem_nil,false_imp_iff,implies_true,and_true,prefixIpv6,
    leading,Block.Covers,Block.stop,
    List.foldl_cons,List.foldl_nil,List.length_cons,List.length_nil,Nat.reduceAdd,Nat.reduceSub,Nat.reduceMul,Nat.reducePow] at *
  refine ⟨?_,?_,?_,?_,?_,?_⟩
  · clear native protocol bone documentation
    omega
  · clear native bone documentation
    omega
  · clear native bone documentation
    omega
  · clear protocol bone documentation
    omega
  · clear native protocol documentation
    omega
  · clear native protocol bone
    omega

end Parts

theorem slippedIpv6 {bytes : List UInt8} (sixteen : bytes.length = 16) (wide : (prefixIpv6 [0x64,0xff9b] 32).Covers (addressNumber bytes))
    (open_ : PublicIpv4 (addressNumber bytes % 2 ^ 32)) : judgeIpv6 bytes = .allowed := by
  have front := (nat64Number sixteen).mp wide
  obtain ⟨zero,one,two,three⟩ := front
  have busy : ∀ count, 2 ≤ count → allZeroPrefix bytes count = false := by
    intro count some_
    refine Bool.eq_false_iff.mpr fun all => ?_
    have mem : bytes.getD 1 0 ∈ bytes.take count := by
      rw [List.getD_eq_getElem?_getD,List.getElem?_eq_getElem (by omega),Option.getD_some]
      exact List.mem_take_iff_getElem.mpr ⟨1,by omega,rfl⟩
    have none := List.all_eq_true.mp all _ mem
    rw [one] at none
    cases none
  unfold judgeIpv6
  dsimp only
  simp only [busy 16 (by decide),busy 15 (by decide),busy 10 (by decide),zero,one,two,three]
  simpa [judgedIpv4,lastNumber sixteen] using open_

end Ipv6

section Destinations

theorem wideApart {number : Nat} (wide : (prefixIpv6 [0x64,0xff9b] 32).Covers number) :
    ¬ (prefixIpv6 [0x2000] 3).Covers number ∧ ¬ (prefixIpv6 [0,0,0,0,0,0xffff] 96).Covers number ∧
      ¬ (prefixIpv6 [0x2002] 16).Covers number := by
  simp only [prefixIpv6,leading,Block.Covers,Block.stop,List.foldl_cons,List.foldl_nil,List.length_cons,List.length_nil,
    Nat.reduceAdd,Nat.reduceSub,Nat.reduceMul,Nat.reducePow] at *
  omega

variable {inet : Inet} {address : Text}

theorem bareText {bare : Text} (kept : bareAddress address = some bare) : bare = address.takeWhile (· != '%') := by
  unfold bareAddress at kept
  split at kept
  · cases kept
  dsimp only at kept
  split at kept
  · rename_i whole
    cases kept
    exact ((List.takeWhile_prefix _).eq_of_length whole).symm
  split at kept
  · cases kept
  · exact (Option.some.inj kept).symm

theorem slippedAllowed (documented : inet.Documented) (slipped : Slipped inet address) :
    subscriptionDestinationPermitted inet address = .allowed ∧ ¬ Destination inet address := by
  obtain ⟨kept,bytes,read,wide,narrow,open_⟩ := slipped
  obtain ⟨bare,named⟩ := Option.isSome_iff_exists.mp kept
  obtain ⟨sixteen,colon⟩ := documented.v6 _ _ read
  have noIpv4 : inet.pton afInet (cString (address.takeWhile (· != '%'))) = none := by
    cases other : inet.pton afInet (cString (address.takeWhile (· != '%'))) with
    | none => rfl
    | some _ => exact absurd colon (documented.v4 _ _ other).2
  constructor
  · rw [subscriptionDestinationPermitted,named]
    simp only [bareText named,noIpv4,read]
    exact slippedIpv6 sixteen wide open_
  · intro destination
    cases destination with
    | ipv4 other =>
      rw [noIpv4] at other
      cases other
    | ipv6 same native =>
      cases read.symm.trans same
      exact (wideApart wide).1 native.1
    | translated same stands =>
      cases read.symm.trans same
      cases stands with
      | mapped inside => exact (wideApart wide).2.1 inside
      | sixToFour inside => exact (wideApart wide).2.2 inside
      | nat64 inside => exact narrow inside

theorem allowedDestination (documented : inet.Documented) :
    (subscriptionDestinationPermitted inet address = .allowed → Destination inet address) ↔ ¬ Slipped inet address := by
  constructor
  · intro only slipped
    obtain ⟨allowed,elsewhere⟩ := slippedAllowed documented slipped
    exact elsewhere (only allowed)
  · intro steady allowed
    unfold subscriptionDestinationPermitted at allowed
    split at allowed
    · cases allowed
    · rename_i bare named
      have front := bareText named
      subst front
      split at allowed
      · rename_i bytes read
        rw [judgedIpv4,hostOrderNumber (documented.v4 _ _ read).1] at allowed
        exact .ipv4 read allowed
      · split at allowed
        · rename_i bytes read
          rcases judgedIpv6 (documented.v6 _ _ read).1 allowed with native | ⟨host,stands,open_⟩ | ⟨wide,open_⟩
          · exact .ipv6 read native
          · exact .translated read stands open_
          · by_cases narrow : nat64.Covers (addressNumber bytes)
            · exact .translated read (.nat64 narrow) open_
            · exact absurd ⟨by rw [named]; rfl,bytes,read,wide,narrow,open_⟩ steady
        · cases allowed

/- inet_pton on a public address and on one of the prefix that is set aside for local translators. -/
def localInet : Inet where
  pton family address :=
    if family = afInet ∧ address = "8.8.8.8" then some [8,8,8,8]
    else if family = afInet6 ∧ address = "64:ff9b:1::808:808" then some [0,0x64,0xff,0x9b,0,1,0,0,0,0,0,0,8,8,8,8]
    else none
  ntop _ _ := none

theorem localDocumented : localInet.Documented where
  v4 text bytes read := by
    simp only [localInet] at read
    split at read
    · rename_i here
      cases read
      rw [here.2]
      decide
    · simp [afInet,afInet6] at read
  v6 text bytes read := by
    simp only [localInet] at read
    split at read
    · rename_i here
      cases here.1
    split at read
    · rename_i here
      cases read
      rw [here.2]
      decide
    · cases read

theorem publicPermitted : Destination localInet (text "8.8.8.8%br0") := by
  refine (allowedDestination localDocumented).mpr ?_ (by decide)
  rintro ⟨-,bytes,read,-⟩
  cases read

theorem localSlipped : Slipped localInet (text "64:ff9b:1::808:808") where
  kept := by decide
  read := ⟨[0,0x64,0xff,0x9b,0,1,0,0,0,0,0,0,8,8,8,8],by decide,by decide,by decide,by decide⟩

/- 64:ff9b:1::/48 is no part of 64:ff9b::/96. -/
theorem localTranslatorAllowed : ∃ inet : Inet, ∃ address, inet.Documented ∧ subscriptionDestinationPermitted inet address = .allowed ∧
    ¬ Destination inet address :=
  ⟨localInet,_,localDocumented,slippedAllowed localDocumented localSlipped⟩

end Destinations

end KeenPbr.FetchPolicy

import KeenPbr.Blocks
import KeenPbr.RuleCriteria

/-! What a packet shows the two packet filters, and how both read an address or a CIDR. -/
namespace KeenPbr
open Blocks

def familyOf (ipv6 : Bool) : Int := if ipv6 then afInet6 else afInet

theorem familyOfIpv6 (ipv6 : Bool) : (familyOf ipv6 == afInet6) = ipv6 := by
  cases ipv6 <;> rfl

def addressWidth (ipv6 : Bool) : Nat := if ipv6 then 128 else 32

/- The fields the matches read. The ports are the first two words of the transport header and are
missing where a packet carries none; both filters then take a port match, negated or not, as
failed. -/
structure Header where
  ipv6 : Bool
  iif : Text
  physdevIn : Option Text := none
  src : Bits
  dst : Bits
  dscp : UInt8 := 0
  l4proto : UInt8
  ports : Option (UInt16 × UInt16) := none
  ctOriginal : Bool := true
  ctDnat : Bool := false
  srcWidth : src.length = addressWidth ipv6
  dstWidth : dst.length = addressWidth ipv6

/- The packet as a chain sees it; only the marks change on the way. -/
structure Skb where
  header : Header
  mark : UInt32
  ctMark : UInt32

/- The kernel sets, which both backends fill from the same lists. -/
structure KernelSets where
  member : String → Bits → Bool
  peer : String → Bits → UInt16 → Bits → Bool

def ipprotoTcp : UInt8 := 6
def ipprotoUdp : UInt8 := 17

def bitsOf (bytes : List UInt8) : Bits := bytes.flatMap fun byte => (List.range 8).map fun place => byte.toNat.testBit (7 - place)

/- What inet_pton documents of the two families. -/
structure Inet.Documented (inet : Inet) : Prop where
  v4 : ∀ text bytes, inet.pton afInet text = some bytes → bytes.length = 4 ∧ ':' ∉ text.toList
  v6 : ∀ text bytes, inet.pton afInet6 text = some bytes → bytes.length = 16 ∧ ':' ∈ text.toList

def hostPart (cidr : Text) : Text := cidr.takeWhile (· != '/')

/- The number after the slash; the decoders of the tools and std::stoi read every text that
validate_cidr accepts alike. -/
def prefixNumber (cidr : Text) : Option Int :=
  match cidr.dropWhile (· != '/') with
  | [] => none
  | _ :: digits => fromCharsInt digits

section Cidr
variable (inet : Inet)

def prefixBlock (ipv6 : Bool) (addr : Text) (length : Int) : Option Bits :=
  (inet.pton (familyOf ipv6) (cString addr)).map fun bytes => (bitsOf bytes).take length.toNat

def cidrBlock (ipv6 : Bool) (cidr : Text) : Option Bits :=
  if cidr.contains '/' then (prefixNumber cidr).bind (prefixBlock inet ipv6 (hostPart cidr))
  else prefixBlock inet ipv6 cidr (addressWidth ipv6)

def inBlock (block : Option Bits) (address : Bits) : Bool := block.any (inside · address)

def inCidr (ipv6 : Bool) (cidr : Text) (address : Bits) : Bool := inBlock (cidrBlock inet ipv6 cidr) address

end Cidr

theorem bitsLength (bytes : List UInt8) : (bitsOf bytes).length = 8 * bytes.length := by
  induction bytes with
  | nil => rfl
  | cons byte rest ih =>
    rw [bitsOf,List.flatMap_cons,List.length_append,List.length_map,List.length_range,List.length_cons]
    change 8 + (bitsOf rest).length = _
    omega

theorem bitsOfAt (bytes : List UInt8) (place : Nat) :
    (bitsOf bytes)[place]? = bytes[place / 8]?.map fun byte => byte.toNat.testBit (7 - place % 8) := by
  induction bytes generalizing place with
  | nil => rfl
  | cons byte rest ih =>
    have split : bitsOf (byte :: rest) = ((List.range 8).map fun index => byte.toNat.testBit (7 - index)) ++ bitsOf rest := rfl
    by_cases first : place < 8
    · have width : place < ((List.range 8).map fun index => byte.toNat.testBit (7 - index)).length := by simpa using first
      rw [split,List.getElem?_append_left width,List.getElem?_map,List.getElem?_range first,Nat.div_eq_of_lt first,Nat.mod_eq_of_lt first]
      rfl
    · have width : ((List.range 8).map fun index => byte.toNat.testBit (7 - index)).length ≤ place := by
        simp only [List.length_map,List.length_range]
        omega
      have index : place / 8 = (place - 8) / 8 + 1 := by omega
      have bit : place % 8 = (place - 8) % 8 := by omega
      rw [split,List.getElem?_append_right width,List.length_map,List.length_range,ih,index,List.getElem?_cons_succ,bit]

theorem takeAgrees {left right : Bits} {length : Nat} (same : ∀ place < length, left[place]? = right[place]?) :
    left.take length = right.take length := by
  refine List.ext_getElem? fun place => ?_
  rw [List.getElem?_take,List.getElem?_take]
  split
  · rename_i before
    exact same place before
  · rfl

/- Interface options: iptables reads a trailing plus sign as any rest of the name, nftables a
trailing asterisk; a leading at sign names an nftables set, and no set of interfaces is declared. -/
def iptablesNames (name iif : Text) : Bool := if name.getLast? = some '+' then name.dropLast.isPrefixOf iif else name == iif

def nftNames (name iif : Text) : Bool :=
  if name.head? = some '@' then false
  else if name.getLast? = some '*' then name.dropLast.isPrefixOf iif
  else name == iif

end KeenPbr

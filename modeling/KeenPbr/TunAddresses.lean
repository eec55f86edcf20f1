import KeenPbr.SrsFormat

/-! AllocateNewTunAddresses of internal/transport/tun_address_allocation.go. Go's IPv6 parser is a parameter: an address it reads is never
admitted. -/
namespace KeenPbr.TunAddresses
open Srs Fields

structure TransportSpec where
  tag : List UInt8
  type : Text
  tunAddress : Text := []
  deriving DecidableEq, Repr

def isManagedSingBoxSpec (spec : TransportSpec) : Bool := spec.type == text "sing-box" || spec.type == text "sing-box-vless-reality"

def hasTunAddress (spec : TransportSpec) : Bool := !spec.tunAddress.isEmpty

section Generated

def generatedTunSubnetCount : UInt32 := 16384

def sum32 (bytes : List UInt8) : UInt32 := bytes.foldl (fun hash byte => (hash ^^^ byte.toUInt32) * 16777619) 2166136261

def generatedTunSlot (tag : List UInt8) : UInt32 := sum32 tag % generatedTunSubnetCount

def generatedTunAddress (slot : UInt32) : Text :=
  text "172.19." ++ decimalText (slot >>> 6).toNat ++ '.' :: decimalText ((slot &&& 63) * 4 + 1).toNat ++ text "/30"

end Generated

inductive Ip where
  | v4 (a b c d : UInt8)
  | v6 (bytes : List UInt8)
  deriving DecidableEq, Repr

def Ip.bits : Ip → Nat
  | .v4 .. => 32
  | .v6 _ => 128

def Ip.to4 : Ip → Option (List UInt8)
  | .v4 a b c d => some [a,b,c,d]
  | .v6 bytes => if bytes.take 12 = List.replicate 10 0 ++ [0xff,0xff] then some (bytes.drop 12) else none

def octet (part : Text) : Option UInt8 :=
  if part.isEmpty || !part.all isDigit || part.length > 1 && part.head? == some '0' || decimal part > 255 then none
  else some (UInt8.ofNat (decimal part))

def parseAddr4 (s : Text) : Option Ip :=
  match fields (· == '.') s with
  | [a,b,c,d] => do
    let a ← octet a
    let b ← octet b
    let c ← octet c
    let d ← octet d
    some (.v4 a b c d)
  | _ => none

inductive AddressError where
  | notIpv4 (address : Text)
  | notPrefix30 (address : Text)
  | notUsable (address : Text)
  deriving DecidableEq, Repr

inductive AllocateError where
  | invalid (tag : List UInt8) (error : AddressError)
  | sameSubnet (previous tag : List UInt8) (subnet : Text)
  | noFree (tag : List UInt8)
  deriving DecidableEq, Repr

abbrev Used := List (Text × List UInt8)

section Allocate
variable (parse6 : Text → Option (List UInt8))

def parseAddr (s : Text) : Option Ip :=
  match s.find? fun c => c == '.' || c == ':' || c == '%' with
  | some '.' => parseAddr4 s
  | some ':' => (parse6 s).map .v6
  | _ => none

def parseCIDR (s : Text) : Option (Ip × Nat) :=
  match s.dropWhile (· != '/') with
  | [] => none
  | _ :: mask => do
    let ip ← parseAddr parse6 (s.takeWhile (· != '/'))
    if mask.isEmpty || !mask.all isDigit || decimal mask > ip.bits then none else some (ip,decimal mask)

def maskByte (ones place : Nat) : UInt8 := UInt8.ofNat (0xFF <<< (8 - min 8 (ones - 8 * place)))

def networkBytes (ones : Nat) (quad : List UInt8) : List UInt8 := quad.mapIdx fun place byte => byte &&& maskByte ones place

def networkString (address : Text) : Text :=
  match parseCIDR parse6 address with
  | some (.v4 a b c d,ones) => formatIpv4 (networkBytes ones [a,b,c,d]) ++ '/' :: decimalText ones
  | _ => text "<nil>"

def tunAddressForSpec (spec : TransportSpec) : Except AddressError Text :=
  if spec.tunAddress.isEmpty then .ok (generatedTunAddress (generatedTunSlot spec.tag))
  else
    match parseCIDR parse6 spec.tunAddress with
    | none => .error (.notIpv4 spec.tunAddress)
    | some (ip,ones) =>
      match ip.to4 with
      | none => .error (.notIpv4 spec.tunAddress)
      | some quad =>
        if ip.bits ≠ 32 ∨ ones ≠ 30 then .error (.notPrefix30 spec.tunAddress)
        else
          let host := quad.getD 3 0 &&& 3
          if host = 0 ∨ host = 3 then .error (.notUsable spec.tunAddress) else .ok spec.tunAddress

def reserve (used : Used) (spec : TransportSpec) : Except AllocateError Used :=
  if !isManagedSingBoxSpec spec then .ok used
  else
    match tunAddressForSpec parse6 spec with
    | .error error => .error (.invalid spec.tag error)
    | .ok address =>
      match used.lookup (networkString parse6 address) with
      | some previous => .error (.sameSubnet previous spec.tag (networkString parse6 address))
      | none => .ok (used ++ [(networkString parse6 address,spec.tag)])

/- The probing loop; the first argument is how many slots it still tries. -/
def probe (used : Used) (first : UInt32) : Nat → UInt32 → Option Text
  | 0, _ => none
  | left + 1, offset =>
    let address := generatedTunAddress ((first + offset) % generatedTunSubnetCount)
    if (used.lookup (networkString parse6 address)).isSome then probe used first left (offset + 1) else some address

/- The last loop, over the additions. -/
def assign : List TransportSpec → Used → Except AllocateError (List TransportSpec)
  | [], _ => .ok []
  | spec :: rest, used =>
    if !isManagedSingBoxSpec spec || hasTunAddress spec then do
      let later ← assign rest used
      .ok (spec :: later)
    else
      match probe parse6 used (generatedTunSlot spec.tag) generatedTunSubnetCount.toNat 0 with
      | none => .error (.noFree spec.tag)
      | some address => do
        let later ← assign rest (used ++ [(networkString parse6 address,spec.tag)])
        .ok ({ spec with tunAddress := address } :: later)

def allocateNewTunAddresses (existing additions : List TransportSpec) : Except AllocateError (List TransportSpec) := do
  let used ← existing.foldlM (reserve parse6) []
  let used ← (additions.filter hasTunAddress).foldlM (reserve parse6) used
  assign parse6 additions used

end Allocate

section Texts
variable {parse6 : Text → Option (List UInt8)} {a b c d : UInt8}

set_option maxRecDepth 4000 in
theorem octetRead : ∀ n < 256, octet (decimalText n) = some (UInt8.ofNat n) := by
  decide +kernel

theorem decimalChars (n : Nat) : ∀ c ∈ decimalText n, isDigit c = true := by
  intro c mem
  rw [← charDigit]
  exact Nat.isDigit_of_mem_toDigits (by decide) (by decide) mem

theorem digitOther {c : Char} (digit : isDigit c = true) :
    (c == '.') = false ∧ (c == ':') = false ∧ (c == '%') = false ∧ (c != '/') = true := by
  unfold isDigit at digit
  rw [Bool.and_eq_true_iff,decide_eq_true_eq,decide_eq_true_eq] at digit
  refine ⟨?_,?_,?_,?_⟩
  all_goals
    simp only [beq_eq_false_iff_ne,bne_iff_ne,ne_eq]
    rintro rfl
    revert digit
    decide

theorem formatFields : fields (· == '.')
    (formatIpv4 [a,b,c,d]) = [decimalText a.toNat,decimalText b.toNat,decimalText c.toNat,decimalText d.toNat] := by
  have free (n : Nat) : ∀ c ∈ decimalText n, (c == '.') = false := fun c mem => (digitOther (decimalChars n c mem)).1
  change fields (· == '.') (decimalText a.toNat ++
    '.' :: (decimalText b.toNat ++ '.' :: (decimalText c.toNat ++ '.' :: (decimalText d.toNat ++ [])))) = _
  rw [List.append_nil,fieldsNext _ (free _) rfl,fieldsNext _ (free _) rfl,fieldsNext _ (free _) rfl,fieldsWhole _ (free _)]

theorem formatAddr4 : parseAddr4 (formatIpv4 [a,b,c,d]) = some (.v4 a b c d) := by
  have read (byte : UInt8) : octet (decimalText byte.toNat) = some byte := by
    rw [octetRead _ byte.toNat_lt,UInt8.ofNat_toNat]
  unfold parseAddr4
  rw [formatFields]
  simp [read]

theorem formatParsed : parseCIDR parse6 (formatIpv4 [a,b,c,d] ++ text "/30") = some (.v4 a b c d,30) := by
  have plain : ∀ e ∈ formatIpv4 [a,b,c,d], (e != '/') = true := by
    intro e mem
    rcases memFields (· == '.') mem with dot | ⟨part,listed,inside⟩
    · rw [beq_iff_eq.mp dot]
      decide
    · rw [formatFields] at listed
      have digit : isDigit e = true := by
        simp only [List.mem_cons,List.not_mem_nil,or_false] at listed
        rcases listed with rfl | rfl | rfl | rfl
        all_goals exact decimalChars _ e inside
      exact (digitOther digit).2.2.2
  have found : (formatIpv4 [a,b,c,d]).find? (fun e => e == '.' || e == ':' || e == '%') = some '.' := by
    change (decimalText a.toNat ++ '.' :: _).find? _ = _
    rw [List.find?_append,List.find?_eq_none.mpr]
    · exact rfl
    · intro e mem
      obtain ⟨dot,colon,percent,_⟩ := digitOther (decimalChars _ e mem)
      rw [dot,colon,percent]
      exact Bool.false_ne_true
  unfold parseCIDR parseAddr
  rw [dropRun plain (by rfl),takeRun plain (by rfl),found,formatAddr4]
  exact rfl

theorem formatInjective {left right : List UInt8} (four : left.length = 4) (four' : right.length = 4)
    (same : formatIpv4 left ++ text "/30" = formatIpv4 right ++ text "/30") : left = right := by
  have parsed := quadParsed (ipv4Spelled four)
  rw [List.append_cancel_right same,quadParsed (ipv4Spelled four')] at parsed
  exact (Option.some.inj parsed).symm

def slotQuad (slot : Nat) : List UInt8 := [172,19,UInt8.ofNat (slot / 64),UInt8.ofNat (slot % 64 * 4 + 1)]

theorem generatedText {slot : UInt32} (small : slot.toNat < 16384) :
    generatedTunAddress slot = formatIpv4 (slotQuad slot.toNat) ++ text "/30" := by
  have high : (slot >>> 6).toNat = slot.toNat / 64 := by
    rw [UInt32.toNat_shiftRight]
    exact Nat.shiftRight_eq_div_pow _ 6
  have low : ((slot &&& 63) * 4 + 1).toNat = slot.toNat % 64 * 4 + 1 := by
    have masked : (slot &&& 63).toNat = slot.toNat % 64 := by
      rw [UInt32.toNat_and]
      exact Nat.and_two_pow_sub_one_eq_mod _ 6
    rw [UInt32.toNat_add,UInt32.toNat_mul,masked]
    have fits := Nat.mod_lt slot.toNat (show 0 < 64 by decide)
    change (slot.toNat % 64 * 4 % 2 ^ 32 + 1) % 2 ^ 32 = _
    omega
  have highByte : (UInt8.ofNat (slot.toNat / 64)).toNat = slot.toNat / 64 := UInt8.toNat_ofNat_of_lt' (show slot.toNat / 64 < 256 by omega)
  have lowByte : (UInt8.ofNat (slot.toNat % 64 * 4 + 1)).toNat = slot.toNat % 64 * 4 + 1 :=
    UInt8.toNat_ofNat_of_lt' (show slot.toNat % 64 * 4 + 1 < 256 by omega)
  rw [generatedTunAddress,high,low,slotQuad,formatIpv4]
  simp only [List.flatMap_cons,List.flatMap_nil,highByte,lowByte,List.append_assoc,List.cons_append,List.append_nil]
  exact rfl

end Texts

def quadOf (parse6 : Text → Option (List UInt8)) (address : Text) : Option (List UInt8) :=
  match parseCIDR parse6 address with
  | some (.v4 a b c d,30) => some [a,b,c,d]
  | _ => none

def hostOf (parse6 : Text → Option (List UInt8)) (spec : TransportSpec) : Option (List UInt8) :=
  match tunAddressForSpec parse6 spec with
  | .ok address => quadOf parse6 address
  | .error _ => none

def subnetOf (parse6 : Text → Option (List UInt8)) (spec : TransportSpec) :
    Option (List UInt8) := (hostOf parse6 spec).map (networkBytes 30)

def Usable (quad : List UInt8) : Prop := quad.length = 4 ∧ (quad.getD 3 0 &&& 3 = 1 ∨ quad.getD 3 0 &&& 3 = 2)

def Covers (quad host : List UInt8) : Prop := host.length = 4 ∧ networkBytes 30 host = networkBytes 30 quad

def slotSubnet (slot : Nat) : List UInt8 := networkBytes 30 (slotQuad slot)

section Specs
variable {parse6 : Text → Option (List UInt8)} {spec : TransportSpec} {address : Text}

theorem slotUsable (slot : Nat) : Usable (slotQuad slot) := by
  refine ⟨rfl,.inl (UInt8.toNat_inj.mp ?_)⟩
  change (UInt8.ofNat (slot % 64 * 4 + 1) &&& 3).toNat = 1
  have low : (UInt8.ofNat (slot % 64 * 4 + 1)).toNat = slot % 64 * 4 + 1 := UInt8.toNat_ofNat_of_lt' (show slot % 64 * 4 + 1 < 256 by omega)
  rw [UInt8.toNat_and,low]
  change (slot % 64 * 4 + 1) &&& (2 ^ 2 - 1) = 1
  rw [Nat.and_two_pow_sub_one_eq_mod]
  omega

theorem networkLength {quad : List UInt8} (four : quad.length = 4) : (networkBytes 30 quad).length = 4 := by
  rw [networkBytes,List.length_mapIdx,four]

theorem generatedQuad {slot : UInt32} (small : slot.toNat < 16384) :
    quadOf parse6 (generatedTunAddress slot) = some (slotQuad slot.toNat) := by
  simp only [quadOf,generatedText small,slotQuad,formatParsed]

theorem quadNetwork {quad : List UInt8} (reads : quadOf parse6 address = some quad) :
    quad.length = 4 ∧ networkString parse6 address = formatIpv4 (networkBytes 30 quad) ++ text "/30" := by
  unfold quadOf at reads
  unfold networkString
  split at reads
  · rename_i parsed
    cases reads
    rw [parsed]
    exact ⟨rfl,rfl⟩
  · cases reads

theorem slotSmall (tag : List UInt8) : (generatedTunSlot tag).toNat < 16384 := by
  rw [generatedTunSlot,UInt32.toNat_mod]
  exact Nat.mod_lt _ (by decide)

set_option maxRecDepth 4000 in
theorem lastBits : ∀ n < 256, UInt8.ofNat n &&& 3 = 0 ∨ UInt8.ofNat n &&& 3 = 1 ∨ UInt8.ofNat n &&& 3 = 2 ∨ UInt8.ofNat n &&& 3 = 3 := by
  decide +kernel

theorem admitted (ok : tunAddressForSpec parse6 spec = .ok address) :
    ∃ quad, Usable quad ∧ hostOf parse6 spec = some quad ∧
      networkString parse6 address = formatIpv4 (networkBytes 30 quad) ++ text "/30" := by
  have host {quad : List UInt8} (usable : Usable quad) (reads : quadOf parse6 address = some quad) :
      ∃ quad, Usable quad ∧ hostOf parse6 spec = some quad ∧
        networkString parse6 address = formatIpv4 (networkBytes 30 quad) ++ text "/30" := by
    refine ⟨quad,usable,?_,(quadNetwork reads).2⟩
    rw [hostOf,ok]
    exact reads
  unfold tunAddressForSpec at ok
  split at ok
  · cases ok
    exact host (slotUsable _) (generatedQuad (slotSmall spec.tag))
  split at ok
  · cases ok
  rename_i ip ones parsed
  split at ok
  · cases ok
  rename_i quad four
  split at ok
  · cases ok
  rename_i prefix30
  rw [not_or,not_not,not_not] at prefix30
  dsimp only at ok
  split at ok
  · cases ok
  rename_i usable
  cases ok
  cases ip with
  | v6 bytes => cases prefix30.1
  | v4 a b c d =>
    cases four
    rw [not_or] at usable
    have reads : quadOf parse6 spec.tunAddress = some [a,b,c,d] := by
      simp only [quadOf,parsed,prefix30.2]
    refine host ⟨rfl,?_⟩ reads
    have cases := lastBits d.toNat d.toNat_lt
    rw [UInt8.ofNat_toNat] at cases
    change d &&& 3 = 1 ∨ d &&& 3 = 2
    have first : ¬d &&& 3 = 0 := usable.1
    have last : ¬d &&& 3 = 3 := usable.2
    tauto

end Specs

section Reserving
variable {parse6 : Text → Option (List UInt8)} {spec other : TransportSpec} {specs : List TransportSpec} {used used' : Used}

variable (parse6) in
def keyOf (spec : TransportSpec) : Text :=
  match tunAddressForSpec parse6 spec with
  | .ok address => networkString parse6 address
  | .error _ => []

theorem keySubnet {address address' : Text} (ok : tunAddressForSpec parse6 spec = .ok address)
    (ok' : tunAddressForSpec parse6 other = .ok address') :
    keyOf parse6 spec = keyOf parse6 other ↔ subnetOf parse6 spec = subnetOf parse6 other := by
  obtain ⟨quad,usable,host,key⟩ := admitted ok
  obtain ⟨quad',usable',host',key'⟩ := admitted ok'
  rw [keyOf,keyOf,ok,ok',subnetOf,subnetOf,host,host',Option.map_some,Option.map_some,Option.some.injEq]
  dsimp only
  rw [key,key']
  constructor
  · exact formatInjective (networkLength usable.1) (networkLength usable'.1)
  · intro same
    rw [same]

structure Reserved (parse6 : Text → Option (List UInt8)) (specs : List TransportSpec) (used : Used) : Prop where
  managed : ∀ spec ∈ specs, isManagedSingBoxSpec spec = true
  keys : used.map Prod.fst = specs.map (keyOf parse6)
  apart : (specs.map (keyOf parse6)).Nodup
  valid : ∀ spec ∈ specs, ∃ address, tunAddressForSpec parse6 spec = .ok address

theorem lookupNone {key : Text} : used.lookup key = none ↔ key ∉ used.map Prod.fst := by
  induction used with
  | nil => simp
  | cons entry rest ih =>
    rw [List.lookup_cons,List.map_cons,List.mem_cons]
    cases same : key == entry.1 with
    | true => simp [beq_iff_eq.mp same]
    | false =>
      rw [ih]
      simp [beq_eq_false_iff_ne.mp same]

theorem Reserved.snoc {address : Text} (reserved : Reserved parse6 specs used) (managed : isManagedSingBoxSpec spec = true)
    (ok : tunAddressForSpec parse6 spec = .ok address) (free : used.lookup (networkString parse6 address) = none) :
    Reserved parse6 (specs ++ [spec]) (used ++ [(networkString parse6 address,spec.tag)]) := by
  have key : keyOf parse6 spec = networkString parse6 address := by rw [keyOf,ok]
  rw [lookupNone,reserved.keys] at free
  refine ⟨?_,?_,?_,?_⟩
  · exact List.forall_mem_append.mpr ⟨reserved.managed,List.forall_mem_singleton.mpr managed⟩
  · rw [List.map_append,List.map_append,reserved.keys,List.map_singleton,List.map_singleton,key]
  · rw [List.map_append,List.map_singleton,List.nodup_append_comm,List.singleton_append,List.nodup_cons,key]
    exact ⟨free,reserved.apart⟩
  · exact List.forall_mem_append.mpr ⟨reserved.valid,List.forall_mem_singleton.mpr ⟨address,ok⟩⟩

inductive Refused (parse6 : Text → Option (List UInt8)) (specs : List TransportSpec) (spec : TransportSpec) : Prop where
  | invalid {error : AddressError} (refused : tunAddressForSpec parse6 spec = .error error)
  | conflict {holder : TransportSpec} {subnet : List UInt8} (listed : holder ∈ specs)
      (held : subnetOf parse6 holder = some subnet) (same : subnetOf parse6 spec = some subnet)

theorem reserveCases (reserved : Reserved parse6 specs used) (spec : TransportSpec) :
    (∃ used', reserve parse6 used spec = .ok used' ∧ Reserved parse6 (specs ++ [spec].filter isManagedSingBoxSpec) used') ∨
    (∃ error, reserve parse6 used spec = .error error) ∧ isManagedSingBoxSpec spec = true ∧ Refused parse6 specs spec := by
  unfold reserve
  cases managed : isManagedSingBoxSpec spec with
  | false =>
    refine .inl ⟨used,rfl,?_⟩
    rw [List.filter_cons_of_neg (by rw [managed]; exact Bool.false_ne_true),List.filter_nil,List.append_nil]
    exact reserved
  | true =>
    rw [Bool.not_true,if_neg Bool.false_ne_true,List.filter_cons_of_pos managed,List.filter_nil]
    cases ok : tunAddressForSpec parse6 spec with
    | error error => exact .inr ⟨⟨_,rfl⟩,rfl,.invalid ok⟩
    | ok address =>
      dsimp only
      cases found : used.lookup (networkString parse6 address) with
      | none => exact .inl ⟨_,rfl,reserved.snoc managed ok found⟩
      | some previous =>
        refine .inr ⟨⟨_,rfl⟩,rfl,?_⟩
        have taken : networkString parse6 address ∈ used.map Prod.fst := by
          by_contra free
          rw [lookupNone.mpr free] at found
          cases found
        rw [reserved.keys] at taken
        obtain ⟨holder,listed,key⟩ := List.mem_map.mp taken
        obtain ⟨address',ok'⟩ := reserved.valid holder listed
        obtain ⟨quad,_,host,_⟩ := admitted ok
        have same : subnetOf parse6 spec = some (networkBytes 30 quad) := by
          rw [subnetOf,host,Option.map_some]
        refine .conflict listed (((keySubnet ok' ok).mp ?_).trans same) same
        rw [key,keyOf,ok]

theorem foldCases (list : List TransportSpec) : ∀ {specs : List TransportSpec} {used : Used}, Reserved parse6 specs used →
    (∃ used', list.foldlM (reserve parse6) used = .ok used' ∧ Reserved parse6 (specs ++ list.filter isManagedSingBoxSpec) used') ∨
    (∃ error, list.foldlM (reserve parse6) used = .error error) ∧ ∃ front spec back, list = front ++ spec :: back ∧
      isManagedSingBoxSpec spec = true ∧ Refused parse6 (specs ++ front.filter isManagedSingBoxSpec) spec := by
  induction list with
  | nil =>
    intro specs used reserved
    refine .inl ⟨used,rfl,?_⟩
    rw [List.filter_nil,List.append_nil]
    exact reserved
  | cons spec rest ih =>
    intro specs used reserved
    rw [List.foldlM_cons]
    obtain ⟨used',ok,next⟩ | ⟨⟨error,failed⟩,managed,why⟩ := reserveCases reserved spec
    · have first : [spec].filter isManagedSingBoxSpec ++ rest.filter isManagedSingBoxSpec = (spec :: rest).filter isManagedSingBoxSpec := by
        rw [← List.filter_append]
        exact rfl
      rw [ok]
      obtain ⟨last,done,reserved⟩ | ⟨failed,front,other,back,cut,managed,why⟩ := ih next
      · rw [List.append_assoc,first] at reserved
        exact .inl ⟨last,done,reserved⟩
      · refine .inr ⟨failed,spec :: front,other,back,by rw [cut]; exact rfl,managed,?_⟩
        rwa [List.append_assoc,← List.filter_append,List.singleton_append] at why
    · rw [failed]
      refine .inr ⟨⟨error,rfl⟩,[],spec,rest,rfl,managed,?_⟩
      rwa [List.filter_nil,List.append_nil]

end Reserving

section Probing
variable {parse6 : Text → Option (List UInt8)} {used : Used} {first : UInt32}

theorem slotNumber {offset : UInt32} (small : first.toNat < 16384) (few : offset.toNat < 16384) :
    ((first + offset) % generatedTunSubnetCount).toNat = (first.toNat + offset.toNat) % 16384 := by
  rw [UInt32.toNat_mod,UInt32.toNat_add]
  change (first.toNat + offset.toNat) % 2 ^ 32 % 16384 = _
  have fits : first.toNat + offset.toNat < 2 ^ 32 := by omega
  rw [Nat.mod_eq_of_lt fits]

variable (parse6 used) in
def Occupied (slot : UInt32) : Prop := (used.lookup (networkString parse6 (generatedTunAddress slot))).isSome = true

theorem probeSome (small : first.toNat < 16384) (left : Nat) : ∀ {offset : UInt32} {address : Text}, offset.toNat + left ≤ 16384 →
    probe parse6 used first left offset = some address →
    ∃ slot : UInt32, slot.toNat < 16384 ∧ address = generatedTunAddress slot ∧ used.lookup (networkString parse6 address) = none := by
  induction left with
  | zero =>
    intro offset address _ found
    cases found
  | succ left ih =>
    intro offset address room found
    rw [probe] at found
    split at found
    · refine ih ?_ found
      rw [UInt32.toNat_add]
      change (offset.toNat + 1) % 2 ^ 32 + left ≤ 16384
      omega
    · rename_i free
      cases found
      refine ⟨_,?_,rfl,Option.not_isSome_iff_eq_none.mp free⟩
      rw [slotNumber small (by omega)]
      exact Nat.mod_lt _ (by decide)

theorem probeNone (small : first.toNat < 16384) (left : Nat) : ∀ {offset : UInt32}, offset.toNat + left ≤ 16384 →
    probe parse6 used first left offset = none →
    ∀ slot : UInt32, ∀ k < left, slot.toNat = (first.toNat + offset.toNat + k) % 16384 → Occupied parse6 used slot := by
  induction left with
  | zero => exact fun _ _ slot k none_ => absurd none_ (Nat.not_lt_zero k)
  | succ left ih =>
    intro offset room missing slot k before place
    rw [probe] at missing
    split at missing
    · rename_i taken
      cases k with
      | zero =>
        have same : slot = (first + offset) % generatedTunSubnetCount := by
          refine UInt32.toNat_inj.mp ?_
          rw [slotNumber small (by omega),place,Nat.add_zero]
        rw [same]
        exact taken
      | succ k =>
        have next : (offset + 1).toNat = offset.toNat + 1 := by
          rw [UInt32.toNat_add]
          change (offset.toNat + 1) % 2 ^ 32 = _
          omega
        refine ih (by omega) missing slot k (by omega) ?_
        rw [next,place]
        congr 1
        omega
    · cases missing

theorem probedAll (small : first.toNat < 16384) (missing : probe parse6 used first generatedTunSubnetCount.toNat 0 = none) {slot : UInt32}
    (inside : slot.toNat < 16384) : Occupied parse6 used slot := by
  refine probeNone small 16384 (by decide) missing slot ((slot.toNat + 16384 - first.toNat) % 16384) (Nat.mod_lt _ (by decide)) ?_
  change slot.toNat = (first.toNat + 0 + _) % 16384
  omega

end Probing

section Assigning
variable {parse6 : Text → Option (List UInt8)}

/- An addition as it is given, or one without an address with the address of a slot. -/
def Kept (given out : TransportSpec) : Prop :=
  out = given ∨ given.tunAddress = [] ∧ isManagedSingBoxSpec given = true ∧
    ∃ slot : UInt32, slot.toNat < 16384 ∧ out = { given with tunAddress := generatedTunAddress slot }

theorem generatedAdmitted (spec : TransportSpec) {slot : UInt32} (small : slot.toNat < 16384) :
    tunAddressForSpec parse6 { spec with tunAddress := generatedTunAddress slot } = .ok (generatedTunAddress slot) := by
  have named : (generatedTunAddress slot).isEmpty = false := rfl
  have parsed : parseCIDR parse6 (generatedTunAddress slot) =
      some (.v4 172 19 (UInt8.ofNat (slot.toNat / 64)) (UInt8.ofNat (slot.toNat % 64 * 4 + 1)),30) := by
    rw [generatedText small,slotQuad,formatParsed]
  have host : UInt8.ofNat (slot.toNat % 64 * 4 + 1) &&& 3 = 1 ∨ UInt8.ofNat (slot.toNat % 64 * 4 + 1) &&& 3 = 2 := (slotUsable slot.toNat).2
  have usable : ¬(UInt8.ofNat (slot.toNat % 64 * 4 + 1) &&& 3 = 0 ∨ UInt8.ofNat (slot.toNat % 64 * 4 + 1) &&& 3 = 3) := by
    rcases host with one | two
    · rw [one]
      decide
    · rw [two]
      decide
  unfold tunAddressForSpec
  dsimp only
  rw [named,if_neg Bool.false_ne_true,parsed]
  exact if_neg usable

theorem occupiedHolder {specs : List TransportSpec} {used : Used} (reserved : Reserved parse6 specs used) {slot : UInt32}
    (inside : slot.toNat < 16384)
    (occupied : Occupied parse6 used slot) :
    ∃ holder ∈ specs, isManagedSingBoxSpec holder = true ∧ subnetOf parse6 holder = some (slotSubnet slot.toNat) := by
  have taken : networkString parse6 (generatedTunAddress slot) ∈ used.map Prod.fst := by
    by_contra free
    rw [Occupied,lookupNone.mpr free] at occupied
    cases occupied
  rw [reserved.keys] at taken
  obtain ⟨holder,listed,key⟩ := List.mem_map.mp taken
  obtain ⟨address,ok⟩ := reserved.valid holder listed
  obtain ⟨quad,usable,host,network⟩ := admitted ok
  refine ⟨holder,listed,reserved.managed holder listed,?_⟩
  rw [subnetOf,host,Option.map_some,slotSubnet]
  rw [keyOf,ok] at key
  dsimp only at key
  rw [network,(quadNetwork (generatedQuad inside)).2] at key
  exact congrArg some (formatInjective (networkLength usable.1) (networkLength rfl) key)

/- How the loop over the additions ends: with the specs that got a generated address, or at one for which every slot is held. -/
theorem assignCases (list : List TransportSpec) : ∀ {specs : List TransportSpec} {used : Used}, Reserved parse6 specs used →
    (∃ out fresh used', assign parse6 list used = .ok out ∧ List.Forall₂ Kept list out ∧
      (out.filter isManagedSingBoxSpec).Perm ((list.filter hasTunAddress).filter isManagedSingBoxSpec ++ fresh) ∧
      Reserved parse6 (specs ++ fresh) used') ∨
    (∃ error, assign parse6 list used = .error error) ∧ ∃ front spec back out, list = front ++ spec :: back ∧
      isManagedSingBoxSpec spec = true ∧ spec.tunAddress = [] ∧ assign parse6 front used = .ok out ∧ List.Forall₂ Kept front out ∧
      ∀ slot : UInt32, slot.toNat < 16384 → ∃ holder ∈ specs ++ out, isManagedSingBoxSpec holder = true ∧
        subnetOf parse6 holder = some (slotSubnet slot.toNat) := by
  induction list with
  | nil =>
    intro specs used reserved
    refine .inl ⟨[],[],used,rfl,.nil,.nil,?_⟩
    rw [List.append_nil]
    exact reserved
  | cons spec rest ih =>
    intro specs used reserved
    rw [assign]
    split
    · rename_i passes
      obtain ⟨out,fresh,used',done,kept,perm,reserved⟩ | ⟨⟨error,failed⟩,front,last,back,out,cut,managed,implicit,done,
        kept,full⟩ := ih reserved
      · rw [done]
        refine .inl ⟨spec :: out,fresh,used',rfl,.cons (.inl rfl) kept,?_,reserved⟩
        cases managed : isManagedSingBoxSpec spec with
        | false =>
          have skipped : ¬isManagedSingBoxSpec spec = true := by
            rw [managed]
            exact Bool.false_ne_true
          rw [List.filter_cons_of_neg skipped]
          refine perm.trans (List.Perm.of_eq ?_)
          rw [List.filter_cons]
          split
          · rw [List.filter_cons_of_neg skipped]
          · exact rfl
        | true =>
          have explicit : hasTunAddress spec = true := by simpa [managed] using passes
          rw [List.filter_cons_of_pos managed,List.filter_cons_of_pos explicit,List.filter_cons_of_pos managed]
          exact perm.cons spec
      · rw [failed]
        refine .inr ⟨⟨error,rfl⟩,spec :: front,last,back,spec :: out,by rw [cut]; exact rfl,managed,implicit,?_,
          .cons (.inl rfl) kept,fun slot inside => ?_⟩
        · rw [assign,if_pos passes,done]
          exact rfl
        · obtain ⟨holder,listed,holds⟩ := full slot inside
          exact ⟨holder,(List.mem_append.mp listed).elim (List.mem_append_left _) fun new =>
            List.mem_append_right _ (List.mem_cons_of_mem _ new),holds⟩
    · rename_i generated
      obtain ⟨managed,implicit⟩ : isManagedSingBoxSpec spec = true ∧ spec.tunAddress = [] := by simpa [hasTunAddress] using generated
      split
      · rename_i missing
        refine .inr ⟨⟨_,rfl⟩,[],spec,rest,[],rfl,managed,implicit,rfl,.nil,fun slot inside => ?_⟩
        rw [List.append_nil]
        exact occupiedHolder reserved inside (probedAll (slotSmall spec.tag) missing inside)
      · rename_i address found
        have probed := found
        obtain ⟨slot,small,rfl,free⟩ := probeSome (slotSmall spec.tag) _ (by decide) found
        have origin : Kept spec { spec with tunAddress := generatedTunAddress slot } := .inr ⟨implicit,managed,slot,small,rfl⟩
        have next : Reserved parse6 (specs ++ [{ spec with tunAddress := generatedTunAddress slot }]) _ :=
          reserved.snoc managed (generatedAdmitted spec small) free
        obtain ⟨out,fresh,used',done,kept,perm,reserved⟩ | ⟨⟨error,failed⟩,front,last,back,out,cut,managed',implicit',
          done,kept,full⟩ := ih next
        · rw [done]
          rw [List.append_assoc] at reserved
          refine .inl ⟨_,{ spec with tunAddress := generatedTunAddress slot } :: fresh,used',rfl,.cons origin kept,?_,reserved⟩
          have emptied : ¬hasTunAddress spec = true := by
            rw [hasTunAddress,implicit]
            exact Bool.false_ne_true
          have same : isManagedSingBoxSpec { spec with tunAddress := generatedTunAddress slot } = true := managed
          rw [List.filter_cons_of_pos same,List.filter_cons_of_neg emptied]
          exact (perm.cons _).trans List.perm_middle.symm
        · rw [failed]
          refine .inr ⟨⟨error,rfl⟩,spec :: front,last,back,{ spec with tunAddress := generatedTunAddress slot } :: out,
            by rw [cut]; exact rfl,
            managed',implicit',?_,.cons origin kept,fun slot inside => ?_⟩
          · rw [assign,if_neg generated,probed]
            dsimp only
            rw [done]
            exact rfl
          · obtain ⟨holder,listed,holds⟩ := full slot inside
            rw [List.append_assoc,List.singleton_append] at listed
            exact ⟨holder,listed,holds⟩

end Assigning

def Apart (parse6 : Text → Option (List UInt8)) (left right : TransportSpec) : Prop :=
  ∀ quad quad' host, hostOf parse6 left = some quad → hostOf parse6 right = some quad' → ¬(Covers quad host ∧ Covers quad' host)

/- What the specs hold when the allocation succeeds. -/
structure Allocated (parse6 : Text → Option (List UInt8)) (existing additions assigned : List TransportSpec) : Prop where
  kept : List.Forall₂ Kept additions assigned
  usable : ∀ spec ∈ (existing ++ assigned).filter isManagedSingBoxSpec, ∃ quad, hostOf parse6 spec = some quad ∧ Usable quad
  apart : ((existing ++ assigned).filter isManagedSingBoxSpec).Pairwise (Apart parse6)

/- Why an allocation fails: an explicit address is not admitted, two specs with an address of their own share a subnet, or every slot
is the subnet of such a spec or of one to which the loop has assigned it before it comes to a spec without an address. -/
inductive Unallocated (parse6 : Text → Option (List UInt8)) (existing additions : List TransportSpec) : Prop where
  | invalid {spec : TransportSpec} {error : AddressError} (listed : spec ∈ existing ++ additions)
    (managed : isManagedSingBoxSpec spec = true)
      (explicit : spec.tunAddress ≠ []) (refused : tunAddressForSpec parse6 spec = .error error)
  | conflict {front back : List TransportSpec} {spec holder : TransportSpec} {subnet : List UInt8}
      (cut : existing ++ (additions.filter hasTunAddress) = front ++ spec :: back)
      (managed : isManagedSingBoxSpec spec = true) (earlier : holder ∈ front) (managed' : isManagedSingBoxSpec holder = true)
      (held : subnetOf parse6 holder = some subnet) (same : subnetOf parse6 spec = some subnet)
  | full {front back out : List TransportSpec} {spec : TransportSpec} {used : Used} (cut : additions = front ++ spec :: back)
      (managed : isManagedSingBoxSpec spec = true) (implicit : spec.tunAddress = [])
      (reserved : (existing ++ additions.filter hasTunAddress).foldlM (reserve parse6) [] = .ok used)
      (assigned : assign parse6 front used = .ok out) (kept : List.Forall₂ Kept front out)
      (occupied : ∀ slot < 16384, ∃ holder ∈ existing ++ additions.filter hasTunAddress ++ out,
        isManagedSingBoxSpec holder = true ∧ subnetOf parse6 holder = some (slotSubnet slot))

section Allocation
variable {parse6 : Text → Option (List UInt8)} {existing additions : List TransportSpec}

theorem reservedApart {specs all : List TransportSpec} {used : Used} (reserved : Reserved parse6 specs used) (perm : all.Perm specs) :
    (∀ spec ∈ all, ∃ quad, hostOf parse6 spec = some quad ∧ Usable quad) ∧ all.Pairwise (Apart parse6) := by
  have valid (spec : TransportSpec) (listed : spec ∈ all) := reserved.valid spec (perm.mem_iff.mp listed)
  constructor
  · intro spec listed
    obtain ⟨address,ok⟩ := valid spec listed
    obtain ⟨quad,usable,host,_⟩ := admitted ok
    exact ⟨quad,host,usable⟩
  · have distinct : (all.map (keyOf parse6)).Nodup := (perm.map _).nodup_iff.mpr reserved.apart
    refine (List.pairwise_map.mp distinct).imp_of_mem ?_
    intro left right listed listed' other quad quad' host found found' both
    obtain ⟨address,ok⟩ := valid left listed
    obtain ⟨address',ok'⟩ := valid right listed'
    refine other ((keySubnet ok ok').mpr ?_)
    rw [subnetOf,subnetOf,found,found',Option.map_some,Option.map_some]
    exact congrArg some (both.1.2.symm.trans both.2.2)

theorem refusedWhy {front back : List TransportSpec} {spec : TransportSpec}
    (cut : existing ++ (additions.filter hasTunAddress) = front ++ spec :: back) (managed : isManagedSingBoxSpec spec = true)
    (why : Refused parse6 (front.filter isManagedSingBoxSpec) spec) : Unallocated parse6 existing additions := by
  cases why with
  | @invalid error refused =>
    have listed : spec ∈ existing ++ (additions.filter hasTunAddress) := by
      rw [cut]
      exact List.mem_append_right _ List.mem_cons_self
    refine .invalid ?_ managed ?_ refused
    · rcases List.mem_append.mp listed with old | new
      · exact List.mem_append_left _ old
      · exact List.mem_append_right _ (List.mem_filter.mp new).1
    · intro empty
      rw [tunAddressForSpec,empty] at refused
      cases refused
  | @conflict holder subnet listed held same =>
    obtain ⟨earlier,managed'⟩ := List.mem_filter.mp listed
    exact .conflict cut managed earlier managed' held same

end Allocation

theorem allocationExact (parse6 : Text → Option (List UInt8)) (existing additions : List TransportSpec) :
    (∀ assigned, allocateNewTunAddresses parse6 existing additions = .ok assigned → Allocated parse6 existing additions assigned) ∧
    ∀ error, allocateNewTunAddresses parse6 existing additions = .error error → Unallocated parse6 existing additions := by
  have start : Reserved parse6 [] [] := ⟨nofun,rfl,.nil,nofun⟩
  unfold allocateNewTunAddresses
  obtain ⟨used,done,reserved⟩ | ⟨⟨error,failed⟩,front,spec,back,cut,managed,why⟩ := foldCases existing start
  · rw [done]
    obtain ⟨used',done',reserved'⟩ | ⟨⟨error,failed⟩,front,spec,back,cut,managed,why⟩ :=
      foldCases (additions.filter hasTunAddress) reserved
    · obtain ⟨out,fresh,used'',ok,kept,perm,last⟩ | ⟨⟨error,failed⟩,front,spec,back,out,cut,managed,implicit,ok,kept,full⟩ :=
        assignCases additions reserved'
      · constructor
        · intro assigned same
          have outIs : out = assigned := by
            simpa [done',ok,bind,Except.bind] using same
          subst outIs
          have all : ((existing ++ out).filter isManagedSingBoxSpec).Perm
              ([] ++ existing.filter isManagedSingBoxSpec ++
                (additions.filter hasTunAddress).filter isManagedSingBoxSpec ++ fresh) := by
            rw [List.filter_append,List.nil_append,List.append_assoc]
            exact perm.append_left _
          obtain ⟨usable,apart⟩ := reservedApart last all
          exact ⟨kept,usable,apart⟩
        · intro error same
          simp [done',ok,bind,Except.bind] at same
      · constructor
        · intro assigned same
          simp [done',failed,bind,Except.bind] at same
        · intro _ _
          have both : (existing ++ additions.filter hasTunAddress).foldlM (reserve parse6) [] = .ok used' := by
            rw [List.foldlM_append,done]
            exact done'
          refine .full cut managed implicit both ok kept fun slot inside => ?_
          have number : (UInt32.ofNat slot).toNat = slot := UInt32.toNat_ofNat_of_lt' (inside.trans (by decide))
          obtain ⟨holder,listed,holds⟩ := full (UInt32.ofNat slot) (by rwa [number])
          rw [number] at holds
          refine ⟨holder,?_,holds⟩
          rw [List.nil_append,List.mem_append,List.mem_append,List.mem_filter,List.mem_filter] at listed
          rw [List.mem_append,List.mem_append]
          exact listed.imp (Or.imp And.left And.left) id
    · constructor
      · intro assigned same
        simp [failed,bind,Except.bind] at same
      · intro _ _
        refine @refusedWhy parse6 existing additions (existing ++ front) back spec (by rw [cut,List.append_assoc]) managed ?_
        rwa [List.nil_append,← List.filter_append] at why
  · rw [failed]
    constructor
    · intro assigned same
      simp [bind,Except.bind] at same
    · intro _ _
      refine refusedWhy (by rw [cut,List.append_assoc]; exact rfl) managed ?_
      rwa [List.nil_append] at why

end KeenPbr.TunAddresses

import KeenPbr.SrsReader

/-! read_ip_set: the ranges of an address set and their conversion to blocks. -/
namespace KeenPbr.Srs

section Reading
variable {zlib : Zlib} (limits : SrsDecodeLimits)

def emitCidr (cidr : Cidr) : Decode zlib Unit := do
  accountOutput limits 1
  accountOutputStringBytes limits cidr.text.length

/- The while loop over one range. Each round moves the start up, so that the number of addresses is fuel
enough. -/
def convertRange (item : String) : Nat → IpAddress → IpAddress → Decode zlib (List Cidr)
  | 0, _, _ => fail (item ++ " conversion did not end")
  | fuel + 1, from_, to_ =>
    if addressLess to_ from_ then pure []
    else do
      emitCidr limits (rangeStep from_ to_).1
      match (rangeStep from_ to_).2 with
      | .done => pure [(rangeStep from_ to_).1]
      | .overflow => fail (item ++ " overflows while converting to CIDRs")
      | .next address => do
        let rest ← convertRange item fuel address to_
        pure ((rangeStep from_ to_).1 :: rest)

def rangeRounds (from_ to_ : IpAddress) : Nat := value to_ - value from_ + 1

def rangeCidrs (item : String) (extract : Bool) (from_ to_ : IpAddress) : Decode zlib (List Cidr) :=
  if extract then convertRange limits item (rangeRounds from_ to_) from_ to_ else pure []

/- The loop over the ranges: the ranges read and the blocks made of them. -/
def readRanges (context : String) (extract : Bool) :
    Nat → Nat → Option IpAddress → Decode zlib (List (IpAddress × IpAddress) × List Cidr)
  | 0, _, _ => pure ([],[])
  | left + 1, index, previousEnd => do
    let item := context ++ " range[" ++ toString index ++ "]"
    let from_ ← readAddress limits (item ++ " start")
    let to_ ← readAddress limits (item ++ " end")
    failIf (from_.length ≠ to_.length) (item ++ " mixes IPv4 and IPv6")
    failIf (addressLess to_ from_) (item ++ " ends before it starts")
    failIf (previousEnd.any fun previous =>
      previous.length > from_.length || previous.length == from_.length && !addressLess previous from_)
      (item ++ " is not strictly ordered")
    let cidrs ← rangeCidrs limits item extract from_ to_
    let (ranges,later) ← readRanges context extract left (index + 1) (some to_)
    pure ((from_,to_) :: ranges,cidrs ++ later)

def readIpSet (context : String) (extract : Bool) : Decode zlib (List (IpAddress × IpAddress) × List Cidr) := do
  let setVersion ← readByte limits (context ++ " set version")
  failIf (setVersion ≠ 1) (context ++ " uses unsupported IP set version " ++ toString setVersion.toNat)
  let count ← readBeU64 limits (context ++ " range count")
  let rangeCount ← checkedSize count.toNat limits.maxIpRanges (context ++ " range count")
  accountValues limits rangeCount context
  readRanges limits context extract rangeCount 0 none

def emitAll (cidrs : List Cidr) : Decode zlib (List Cidr) := do
  cidrs.forM (emitCidr limits)
  pure cidrs

end Reading

def Cidr.block (cidr : Cidr) : Dyadic.Block :=
  ⟨value cidr.address / 2 ^ cidr.hostBits * 2 ^ cidr.hostBits,cidr.hostBits,Nat.dvd_mul_left _ _⟩

theorem coversIff {cidr : Cidr} {address : IpAddress} (same : address.length = cidr.address.length) :
    cidr.Covers address ↔ cidr.block.Covers (value address) := by
  unfold Cidr.Covers Dyadic.Block.Covers Dyadic.Block.stop Cidr.block
  have positive := Nat.two_pow_pos cidr.hostBits
  rw [Nat.div_eq_iff positive]
  simp only [same,true_and]
  omega

theorem blockInside (cidr : Cidr) : cidr.block.stop ≤ 2 ^ (8 * cidr.address.length) := by
  have word := valueLt cidr.address
  obtain ⟨rest,width⟩ : ∃ rest, 8 * cidr.address.length = cidr.hostBits + rest :=
    ⟨8 * cidr.address.length - cidr.hostBits,by unfold Cidr.hostBits; omega⟩
  change value cidr.address / 2 ^ cidr.hostBits * 2 ^ cidr.hostBits + 2 ^ cidr.hostBits ≤ _
  rw [width,Nat.pow_add] at word ⊢
  have quotient := Nat.div_lt_of_lt_mul word
  rw [← Nat.succ_mul,Nat.mul_comm]
  exact Nat.mul_le_mul_left _ quotient

theorem valueSurjective {width x : Nat} (small : x < 2 ^ (8 * width)) : ∃ address :
    IpAddress, address.length = width ∧ value address = x := by
  induction width generalizing x with
  | zero => exact ⟨[],rfl,by change 0 = x; simp at small; omega⟩
  | succ width ih =>
    rw [Nat.mul_succ,Nat.pow_add] at small
    obtain ⟨rest,length,low⟩ := ih (Nat.mod_lt x (Nat.two_pow_pos (8 * width)))
    have high := Nat.div_lt_of_lt_mul small
    refine ⟨UInt8.ofNat (x / 2 ^ (8 * width)) :: rest,by rw [List.length_cons,length],?_⟩
    rw [valueCons,length,low,UInt8.toNat_ofNat_of_lt' high,Nat.mul_comm]
    exact Nat.div_add_mod x _

section Conversion
variable {zlib : Zlib} {limits : SrsDecodeLimits} {item : String} {left right : IpAddress}

theorem incrementValue (address : IpAddress) :
    match incrementAddress address with
    | some next => value next = value address + 1 ∧ next.length = address.length
    | none => value address + 1 = 2 ^ (8 * address.length) := by
  have numbers := incrementNumber address.reverse
  unfold incrementAddress value
  cases found : increment address.reverse with
  | none =>
    rw [found,List.length_reverse] at numbers
    exact numbers
  | some next =>
    rw [found,List.length_reverse] at numbers
    change number next.reverse.reverse = _ ∧ next.reverse.length = _
    rw [List.reverse_reverse,List.length_reverse]
    exact numbers

structure Round (left right : IpAddress) (cidr : Cidr) (next : RangeNext) : Prop where
  address : cidr.address = left
  length : cidr.length ≤ 8 * left.length
  largest : Dyadic.Largest (value left) (value right) cidr.block
  goes : match next with
    | .done => cidr.block.stop = value right + 1
    | .overflow => False
    | .next address => address.length = left.length ∧ value address = cidr.block.stop ∧ cidr.block.stop ≤ value right

theorem rangeRound (same : left.length = right.length) (ordered : value left ≤ value right) :
    Round left right (rangeStep left right).1 (rangeStep left right).2 := by
  obtain ⟨aligned,largest⟩ := rangeLargest same ordered
  have few : rangeHostBits left right ≤ addressTrailingZeroBits left := (fitSpec same ordered (Nat.le_refl _)).1
  have bound : addressTrailingZeroBits left ≤ 8 * left.length := by
    rw [← List.length_reverse]
    exact (trailingSpec left.reverse).1
  obtain ⟨sum,size⟩ := blockEndValue few
  have bits : (rangeStep left right).1.hostBits = rangeHostBits left right := by
    change 8 * left.length - (8 * left.length - rangeHostBits left right) = _
    omega
  have block : (rangeStep left right).1.block = ⟨value left,rangeHostBits left right,aligned⟩ := by
    unfold Cidr.block
    simp only [bits,Dyadic.Block.mk.injEq,and_true]
    exact Nat.div_mul_cancel aligned
  have stop : (rangeStep left right).1.block.stop = value (blockEnd left (rangeHostBits left right)) + 1 := by
    rw [block]
    exact sum.symm
  rw [← block] at largest
  refine ⟨rfl,Nat.sub_le _ _,largest,?_⟩
  change match (if addressEqual (blockEnd left (rangeHostBits left right)) right then RangeNext.done else _) with
    | .done => _
    | .overflow => _
    | .next address => _
  split
  · rename_i done
    split at done
    · rename_i equal
      rw [stop,eq_of_beq equal]
    · split at done <;> cases done
  · rename_i overflow
    split at overflow
    · cases overflow
    · -- the block stays in the range, so that its end is the last address only if the range ends there
      rename_i unequal
      have next := incrementValue (blockEnd left (rangeHostBits left right))
      split at overflow
      · rename_i carried
        rw [carried,size,same] at next
        have word := valueLt right
        have fits := largest.fits
        rw [stop] at fits
        exact unequal (beq_iff_eq.mpr (valueInj (by rw [size,same]) (by omega)))
      · cases overflow
  · rename_i address found
    split at found
    · cases found
    · rename_i unequal
      have next := incrementValue (blockEnd left (rangeHostBits left right))
      split at found
      · cases found
      · rename_i following incremented
        cases found
        rw [incremented] at next
        have fits := largest.fits
        have differ : value (blockEnd left (rangeHostBits left right)) ≠ value right :=
          fun equal => unequal (beq_iff_eq.mpr (valueInj (by rw [size,same]) equal))
        refine ⟨by rw [next.2,size],by rw [next.1,stop],?_⟩
        rw [stop] at fits ⊢
        omega

theorem convertGreedy {bound : Nat} (same : left.length = right.length) (ordered : value left ≤ value right)
    (short : value right - value left < bound) :
    ∃ cidrs : List Cidr, (∀ fuel, value right - value left < fuel →
        (convertRange limits item fuel left right : Decode zlib (List Cidr)) = emitAll limits cidrs) ∧
      (∀ cidr ∈ cidrs, cidr.address.length = left.length ∧ cidr.length ≤ 8 * left.length) ∧
      Dyadic.Greedy (value left) (value right) (cidrs.map Cidr.block) := by
  induction bound generalizing left with
  | zero => omega
  | succ bound ih =>
    have round := rangeRound same ordered
    have going : ¬addressLess right left = true := by
      rw [lessValue same.symm]
      omega
    have unfolded (fuel : Nat) (enough : value right - value left < fuel) :
        ∃ less, fuel = less + 1 ∧ value right - value left ≤ less := ⟨fuel - 1,by omega,by omega⟩
    have kind : (rangeStep left right).1.address.length = left.length ∧ (rangeStep left right).1.length ≤ 8 * left.length :=
      ⟨by rw [round.address],round.length⟩
    have goes := round.goes
    cases step : (rangeStep left right).2 with
    | overflow =>
      rw [step] at goes
      exact goes.elim
    | done =>
      rw [step] at goes
      refine ⟨[(rangeStep left right).1],fun fuel enough => ?_,?_,.last round.largest goes⟩
      · obtain ⟨less,rfl,_⟩ := unfolded fuel enough
        rw [convertRange,if_neg going,step]
        simp [emitAll]
      · intro other listed
        rw [List.mem_singleton.mp listed]
        exact kind
    | next address =>
      rw [step] at goes
      obtain ⟨length,start,inside⟩ := goes
      have moved := (rangeStep left right).1.block.startBelow
      rw [round.largest.start] at moved
      obtain ⟨rest,run,kinds,greedy⟩ := ih (by rw [length,same]) (by omega) (by omega)
      refine ⟨(rangeStep left right).1 :: rest,fun fuel enough => ?_,?_,.more round.largest inside (start ▸ greedy)⟩
      · obtain ⟨less,rfl,few⟩ := unfolded fuel enough
        rw [convertRange,if_neg going,step]
        simp only [run less (by omega),emitAll,List.forM_eq_forM,List.forM_cons,bind_assoc,pure_bind]
      · intro other listed
        cases List.mem_cons.mp listed with
        | inl first =>
          rw [first]
          exact kind
        | inr later =>
          rw [← length]
          exact kinds other later

theorem coverNumbers {width low high : Nat} (word : high < 2 ^ (8 * width)) {cover : List Cidr}
    (covers : ∀ address : IpAddress, address.length = width →
      ((∃ cidr ∈ cover, cidr.Covers address) ↔ low ≤ value address ∧ value address ≤ high)) :
    Dyadic.CoversRange ((cover.filter fun cidr => cidr.address.length == width).map Cidr.block) low high := by
  intro x
  constructor
  · rintro ⟨block,listed,inBlock⟩
    obtain ⟨cidr,kept,rfl⟩ := List.mem_map.mp listed
    obtain ⟨member,size⟩ := List.mem_filter.mp kept
    have size : cidr.address.length = width := eq_of_beq size
    have stop := blockInside cidr
    rw [size] at stop
    obtain ⟨address,length,rfl⟩ := valueSurjective (Nat.lt_of_lt_of_le inBlock.2 stop)
    exact (covers address length).mp ⟨cidr,member,(coversIff (by rw [length,size])).mpr inBlock⟩
  · rintro ⟨from_,to_⟩
    obtain ⟨address,length,rfl⟩ := valueSurjective (Nat.lt_of_le_of_lt to_ word)
    obtain ⟨cidr,member,covered⟩ := (covers address length).mpr ⟨from_,to_⟩
    have size : cidr.address.length = width := by rw [← covered.1,length]
    refine ⟨cidr.block,List.mem_map.mpr ⟨cidr,List.mem_filter.mpr ⟨member,beq_iff_eq.mpr size⟩,rfl⟩,?_⟩
    exact (coversIff covered.1).mp covered

open Wp in
theorem emitAllReads {cidrs : List Cidr} : Reads (emitAll limits cidrs : Decode zlib (List Cidr)) fun emitted => emitted = cidrs := by
  have each : Reads (cidrs.forM (emitCidr limits) : Decode zlib PUnit) fun _ => True := by
    induction cidrs with
    | nil => exact passesPure trivial
    | cons cidr rest ih =>
      change Reads (emitCidr limits cidr >>= fun _ => rest.forM (emitCidr limits)) _
      refine passesBind (passesBind accountOutputReads fun _ _ => accountOutputStringBytesReads) fun _ _ => ih
  exact passesBind each fun _ _ => passesPure rfl

open Wp in
theorem convertReads (same : left.length = right.length) (ordered : ¬addressLess right left = true) :
    Reads (convertRange limits item (rangeRounds left right) left right : Decode zlib (List Cidr)) fun cidrs =>
      ∀ cidr ∈ cidrs, ∀ address, cidr.Covers address →
        address.length = left.length ∧ value left ≤ value address ∧ value address ≤ value right := by
  have values : value left ≤ value right := by
    apply Nat.le_of_not_lt
    rw [← lessValue same.symm]
    exact ordered
  obtain ⟨cidrs,run,kinds,greedy⟩ := convertGreedy same values (Nat.lt_succ_self _)
  rw [run _ (by unfold rangeRounds; omega)]
  refine passesMono emitAllReads fun emitted all => ?_
  rw [all]
  intro cidr listed address covers
  refine ⟨by rw [covers.1,(kinds cidr listed).1],(greedy.covers (value address)).mp ⟨cidr.block,List.mem_map_of_mem listed,?_⟩⟩
  exact (coversIff covers.1).mp covers

open Wp in
theorem rangeCidrsReads {extract : Bool} (same : left.length = right.length) (ordered : ¬addressLess right left = true) :
    Reads (rangeCidrs limits item extract left right : Decode zlib (List Cidr)) fun cidrs =>
      ∀ cidr ∈ cidrs, ∀ address, cidr.Covers address →
        address.length = left.length ∧ value left ≤ value address ∧ value address ≤ value right :=
  passesIte (fun _ => convertReads same ordered) fun _ => passesPure fun _ none => by cases none

theorem rangeConverted (same : left.length = right.length) (ordered : addressLess right left = false) :
    ∃ cidrs : List Cidr,
      (∀ more, (convertRange limits item (rangeRounds left right + more) left right : Decode zlib (List Cidr)) = emitAll limits cidrs) ∧
      (∀ cidr ∈ cidrs, cidr.address.length = left.length ∧ cidr.length ≤ 8 * left.length) ∧
      cidrs.Pairwise (fun earlier later => ∀ address, earlier.Covers address → ¬later.Covers address) ∧
      (∀ address : IpAddress, address.length = left.length →
        ((∃ cidr ∈ cidrs, cidr.Covers address) ↔ value left ≤ value address ∧ value address ≤ value right)) ∧
      ∀ cover : List Cidr, (∀ address : IpAddress, address.length = left.length →
        ((∃ cidr ∈ cover, cidr.Covers address) ↔ value left ≤ value address ∧ value address ≤ value right)) →
          cidrs.length ≤ cover.length := by
  have values : value left ≤ value right := by
    apply Nat.le_of_not_lt
    rw [← lessValue same.symm,ordered]
    exact Bool.false_ne_true
  obtain ⟨cidrs,run,kinds,greedy⟩ := convertGreedy same values (Nat.lt_succ_self _)
  have covered (cidr : Cidr) (listed : cidr ∈ cidrs) (address : IpAddress) (covers : cidr.Covers address) :
      cidr.block.Covers (value address) := (coversIff covers.1).mp covers
  refine ⟨cidrs,fun more => run _ (by unfold rangeRounds; omega),kinds,?_,?_,?_⟩
  · have disjoint := List.pairwise_map.mp greedy.disjoint
    refine disjoint.imp_of_mem fun first second apart address inFirst inSecond => ?_
    exact apart (value address) (covered _ first address inFirst) (covered _ second address inSecond)
  · intro address length
    rw [← greedy.covers (value address)]
    constructor
    · rintro ⟨cidr,listed,covers⟩
      exact ⟨cidr.block,List.mem_map_of_mem listed,covered cidr listed address covers⟩
    · rintro ⟨block,listed,covers⟩
      obtain ⟨cidr,member,rfl⟩ := List.mem_map.mp listed
      exact ⟨cidr,member,(coversIff (by rw [length,(kinds cidr member).1])).mpr covers⟩
  · intro cover covers
    have word := valueLt right
    rw [← same] at word
    have fewest := greedy.fewest (coverNumbers word covers)
    rw [List.length_map,List.length_map] at fewest
    exact Nat.le_trans fewest (List.length_filter_le _ _)

def InRanges (ranges : List (IpAddress × IpAddress)) (address : IpAddress) : Prop :=
  ∃ range ∈ ranges, address.length = range.1.length ∧ value range.1 ≤ value address ∧ value address ≤ value range.2

open Wp in
theorem readRangesReads {context : String} {extract : Bool} {count : Nat} : ∀ {index : Nat} {previous : Option IpAddress},
    Reads (readRanges limits context extract count index previous : Decode zlib (List (IpAddress × IpAddress) × List Cidr))
      fun read => ∀ cidr ∈ read.2, ∀ address, cidr.Covers address → InRanges read.1 address := by
  induction count with
  | zero => exact passesPure fun _ none => by cases none
  | succ count ih =>
    intro index previous
    refine passesBind readAddressReads fun from_ _ => passesBind readAddressReads fun to_ _ => ?_
    refine passesBind failIfReads fun _ same => passesBind failIfReads fun _ ordered => passesBind failIfReads fun _ _ => ?_
    refine passesBind (rangeCidrsReads (not_not.mp same) ordered) fun cidrs inside => passesBind ih fun later rest => passesPure ?_
    intro cidr listed address covers
    cases List.mem_append.mp listed with
    | inl first => exact ⟨(from_,to_),List.mem_cons_self,inside cidr first address covers⟩
    | inr further =>
      obtain ⟨range,member,place⟩ := rest cidr further address covers
      exact ⟨range,List.mem_cons_of_mem _ member,place⟩

open Wp in
theorem readIpSetReads {context : String} {extract : Bool} :
    Reads (readIpSet limits context extract : Decode zlib (List (IpAddress × IpAddress) × List Cidr))
      fun read => ∀ cidr ∈ read.2, ∀ address, cidr.Covers address → InRanges read.1 address := by
  refine passesBind readByteReads fun _ _ => passesBind failIfReads fun _ _ => passesBind readBeU64Reads fun _ _ => ?_
  exact passesBind checkedSizeReads fun _ _ => passesBind accountValuesReads fun _ _ => readRangesReads

end Conversion

/- A range that ends with the last address. -/
theorem lastRange :
    ∃ cidrs : List Cidr, (convertRange {} "range" (rangeRounds [255,255,255,253] [255,255,255,255]) [255,255,255,253]
        [255,255,255,255] : Decode idleZlib (List Cidr)) = emitAll {} cidrs ∧ ∃ cidr ∈ cidrs, cidr.Covers [255,255,255,255] := by
  have ordered : addressLess [255,255,255,255] [255,255,255,253] = false := by decide
  have same : ([255,255,255,253] : IpAddress).length = ([255,255,255,255] : IpAddress).length := rfl
  obtain ⟨cidrs,run,_,_,covers,_⟩ := rangeConverted same ordered
  exact ⟨cidrs,run 0,(covers [255,255,255,255] rfl).mpr (by decide)⟩

end KeenPbr.Srs

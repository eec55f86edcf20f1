import KeenPbr.IpSet

/-! lists/ipset.cpp: IpTrie::insert and IpTrie::contains over the bytes of an address, and a trie after any
sequence of insertions. -/
namespace KeenPbr
open Blocks

/- std::array<uint8_t, width> -/
abbrev AddressBytes (width : Nat) := {bytes : List UInt8 // bytes.length = width}

def bitAt (bits : List UInt8) (i : Nat) : Bool := ((bits.getD (i / 8) 0).toNat >>> (7 - i % 8)) &&& 1 == 1

namespace IpTrie

def insertPrefix (trie : IpTrie) (bits : List UInt8) (prefixLen maxBits : Int) : Except String IpTrie :=
  if prefixLen < 0 ∨ prefixLen > maxBits then .error "invalid prefix length"
  else .ok (trie.insert ((List.range prefixLen.toNat).map (bitAt bits)))

def containsAddress (trie : IpTrie) (bits : List UInt8) (maxBits : Nat) : Bool := trie.contains ((List.range maxBits).map (bitAt bits))

/- One insertion of a sequence. A prefix length that is none of the family's throws and leaves the trie as it is. -/
def inserted {width : Nat} (trie : IpTrie) (block : AddressBytes width × Int) : IpTrie :=
  match trie.insertPrefix block.1.val block.2 (8 * width) with
  | .ok trie => trie
  | .error _ => trie

end IpTrie

/- A prefix of the family whose bits the address begins with. -/
def PrefixCovers {width : Nat} (block : AddressBytes width × Int) (address : AddressBytes width) : Prop :=
  0 ≤ block.2 ∧ block.2 ≤ 8 * width ∧ ∀ i : Nat, (i : Int) < block.2 → bitAt block.1.val i = bitAt address.val i

section Sequences
variable {width : Nat}

theorem rangePrefix {n m : Nat} (fits : n ≤ m) (f g : Nat → Bool) :
    inside ((List.range n).map f) ((List.range m).map g) = true ↔ ∀ i < n, f i = g i := by
  rw [insideIff,List.prefix_iff_eq_take,List.length_map,List.length_range,← List.map_take,List.take_range,Nat.min_eq_left fits]
  constructor
  · intro same i below
    exact List.map_inj_left.mp same i (List.mem_range.mpr below)
  · intro same
    exact List.map_congr_left fun i mem => same i (List.mem_range.mp mem)

theorem insertedContains (trie : IpTrie) (block : AddressBytes width × Int) (address : AddressBytes width) :
    (trie.inserted block).containsAddress address.val (8 * width) = true ↔
      trie.containsAddress address.val (8 * width) = true ∨ PrefixCovers block address := by
  unfold IpTrie.inserted IpTrie.insertPrefix
  split
  · rename_i next made
    split at made
    · cases made
    · rename_i valid
      cases made
      have lower : 0 ≤ block.2 := by omega
      have upper : block.2 ≤ 8 * width := by omega
      have fits : block.2.toNat ≤ 8 * width := by omega
      rw [IpTrie.containsAddress,IpTrie.containsInsert,Bool.or_eq_true,rangePrefix fits]
      refine or_congr Iff.rfl ⟨fun same => ⟨lower,upper,fun i below => same i ?_⟩,fun covers i below => covers.2.2 i ?_⟩
      · omega
      · omega
  · rename_i refused
    split at refused
    · rename_i invalid
      refine ⟨Or.inl,fun either => either.resolve_right fun covers => ?_⟩
      obtain ⟨lower,upper,-⟩ := covers
      omega
    · cases refused

theorem trieContainsIff (blocks : List (AddressBytes width × Int)) (address : AddressBytes width) :
    (blocks.foldl IpTrie.inserted IpTrie.fresh).containsAddress address.val (8 * width) = true ↔
      ∃ block ∈ blocks, PrefixCovers block address := by
  -- the invariant of the sequence: what a trie covers, and what the blocks still to come cover
  have run (trie : IpTrie) : (blocks.foldl IpTrie.inserted trie).containsAddress address.val (8 * width) = true ↔
      trie.containsAddress address.val (8 * width) = true ∨ ∃ block ∈ blocks, PrefixCovers block address := by
    induction blocks generalizing trie with
    | nil =>
      rw [List.foldl_nil]
      refine ⟨Or.inl,fun either => either.resolve_right ?_⟩
      rintro ⟨block,mem,-⟩
      cases mem
    | cons block rest ih =>
      rw [List.foldl_cons,ih,insertedContains,or_assoc]
      refine or_congr Iff.rfl ?_
      rw [List.exists_mem_cons_iff]
  rw [run,IpTrie.containsAddress,IpTrie.freshContains]
  exact ⟨fun either => either.resolve_left Bool.false_ne_true,Or.inr⟩

example : (([(⟨[10,0,0,0],rfl⟩,8),(⟨[10,1,0,0],rfl⟩,16),(⟨[192,168,0,0],rfl⟩,33)] : List (AddressBytes 4 × Int)).foldl
    IpTrie.inserted IpTrie.fresh).containsAddress [10,200,3,4] 32 = true := by decide

end Sequences

end KeenPbr

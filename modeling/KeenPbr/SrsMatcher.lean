import KeenPbr.SrsDomains

/-! What the lists of read_domain_matcher match, in terms of the keys of the trie. -/
namespace KeenPbr.Srs
open Wp

/- The name itself or a name below it. -/
def AtOrBelow (root name : Bytes) : Prop := name = root ∨ ∃ front, name = front ++ 0x2e :: root

def RuleExtraction.MatchesName (extraction : RuleExtraction) (name : Bytes) : Prop :=
  name ∈ extraction.domains ∨ ∃ suffix ∈ extraction.suffixes, AtOrBelow suffix name

def Trie.Key (trie : Trie) (key : Bytes) : Prop :=
  ∃ node path, trie.Reaches node path ∧ trie.leaf node = true ∧ reverseUtf8Codepoints path = .ok key

def Trie.ExactKey (trie : Trie) (name : Bytes) : Prop := trie.Key name ∧ plainKey name = true

def Trie.RootSuffix (trie : Trie) (root : Bytes) : Prop := trie.Key (kDomainRootLabel :: root)

def Trie.SubdomainOnly (trie : Trie) (value : Bytes) : Prop := trie.Key (kDomainPrefixLabel :: value)

/- Both the key and the subdomain-only key for it. -/
def Trie.Paired (trie : Trie) (root : Bytes) : Prop := trie.ExactKey root ∧ trie.SubdomainOnly (0x2e :: root)

section Lists
variable {α : Type} [DecidableEq α] {less : α → α → Bool} {values : List α} {a : α}

@[simp] theorem memSortUnique : a ∈ sortUnique less values ↔ a ∈ values := by
  rw [sortUnique,List.mem_insertionSort,List.mem_dedup]

theorem nodupSortUnique : (sortUnique less values).Nodup :=
  (List.perm_insertionSort _ _).nodup_iff.mpr (List.nodup_dedup values)

end Lists

theorem labelledIff {label : UInt8} {key tail : Bytes} : labelled label key = some tail ↔ key = label :: tail := by
  unfold labelled
  cases key with
  | nil => simp
  | cons first rest =>
    rw [List.head?_cons,List.tail_cons]
    split
    · rename_i same
      cases same
      simp
    · rename_i other
      constructor
      · intro none
        cases none
      · intro same
        cases same
        exact absurd rfl other

theorem promotedIff {exactDomains : List Bytes} {raw root : Bytes} :
    promotedRoot exactDomains raw = some root ↔ raw = 0x2e :: root ∧ root ≠ [] ∧ root ∈ exactDomains := by
  unfold promotedRoot
  split
  · rename_i rest
    have long : (!rest.isEmpty && exactDomains.contains rest) = true ↔ rest ≠ [] ∧ rest ∈ exactDomains := by
      rw [Bool.and_eq_true,Bool.not_eq_true',List.isEmpty_eq_false_iff,List.contains_iff_mem]
    split
    · rename_i found
      constructor
      · intro same
        cases same
        exact ⟨rfl,long.mp found⟩
      · rintro ⟨same,_⟩
        cases same
        rfl
    · rename_i missing
      constructor
      · intro none
        cases none
      · rintro ⟨same,found⟩
        cases same
        exact absurd (long.mpr found) missing
  · rename_i other
    constructor
    · intro none
      cases none
    · rintro ⟨same,_⟩
      exact absurd same (other root)

section Keys
variable {trie : Trie} {emitted : List Bytes} (all : ∀ key, key ∈ emitted ↔ trie.Key key)
include all

theorem exactListed {name : Bytes} : name ∈ (DomainKeys.ofKeys emitted).exactDomains ↔ trie.ExactKey name := by
  rw [DomainKeys.ofKeys,List.mem_filter,all,Trie.ExactKey]

theorem labelledListed {label : UInt8} {value : Bytes} : value ∈ emitted.filterMap (labelled label) ↔ trie.Key (label :: value) := by
  rw [List.mem_filterMap]
  constructor
  · rintro ⟨key,listed,same⟩
    rw [labelledIff] at same
    rw [← same,← all]
    exact listed
  · intro key
    exact ⟨_,(all _).mpr key,labelledIff.mpr rfl⟩

variable (nonempty : [] ∉ emitted)
include nonempty

theorem promotedListed {raw root : Bytes} :
    promotedRoot (sortUnique addressLess (DomainKeys.ofKeys emitted).exactDomains) raw = some root ↔
      raw = 0x2e :: root ∧ trie.ExactKey root := by
  rw [promotedIff,memSortUnique,exactListed all]
  refine and_congr_right fun _ => ⟨fun both => both.2,fun exact_ => ⟨?_,exact_⟩⟩
  intro empty
  rw [empty] at exact_
  exact nonempty ((all _).mpr exact_.1)

theorem promotedMem {root : Bytes} :
    root ∈ (sortUnique addressLess (DomainKeys.ofKeys emitted).legacyPrefixes).filterMap
        (promotedRoot (sortUnique addressLess (DomainKeys.ofKeys emitted).exactDomains)) ↔ trie.Paired root := by
  rw [List.mem_filterMap]
  constructor
  · rintro ⟨raw,listed,found⟩
    obtain ⟨rfl,exact_⟩ := (promotedListed all nonempty).mp found
    exact ⟨exact_,(labelledListed all).mp (memSortUnique.mp listed)⟩
  · rintro ⟨exact_,only⟩
    exact ⟨0x2e :: root,memSortUnique.mpr ((labelledListed all).mpr only),(promotedListed all nonempty).mpr ⟨rfl,exact_⟩⟩

theorem listsMatch (name : Bytes) : (matcherLists (.ofKeys emitted)).1.MatchesName name ↔
    trie.ExactKey name ∨ (∃ root, trie.RootSuffix root ∧ AtOrBelow root name) ∨
      ∃ root, trie.Paired root ∧ AtOrBelow root name := by
  unfold RuleExtraction.MatchesName matcherLists
  simp only [List.mem_filter,memSortUnique,Bool.not_eq_true',← Bool.not_eq_true,List.contains_iff_mem,List.mem_append,exactListed all,
    promotedMem all nonempty]
  have roots (root : Bytes) : root ∈ (DomainKeys.ofKeys emitted).rootSuffixes ↔ trie.RootSuffix root := labelledListed all
  simp only [roots]
  constructor
  · rintro (⟨exact_,_⟩ | ⟨root,rooted | paired,under⟩)
    · exact .inl exact_
    · exact .inr (.inl ⟨root,rooted,under⟩)
    · exact .inr (.inr ⟨root,paired,under⟩)
  · rintro (exact_ | ⟨root,rooted,under⟩ | ⟨root,paired,under⟩)
    · -- an exact key that was promoted is matched by its suffix
      by_cases paired : trie.Paired name
      · exact .inr ⟨name,.inr paired,.inl rfl⟩
      · exact .inl ⟨exact_,paired⟩
    · exact .inr ⟨root,.inl rooted,under⟩
    · exact .inr ⟨root,.inr paired,under⟩

theorem listsOmit : ∃ omitted : List Bytes, omitted.Nodup ∧
    (∀ value, value ∈ omitted ↔ trie.SubdomainOnly value ∧ ¬∃ root, value = 0x2e :: root ∧ trie.ExactKey root) ∧
    (matcherLists (.ofKeys emitted)).2 = omitted.length := by
  refine ⟨(sortUnique addressLess (DomainKeys.ofKeys emitted).legacyPrefixes).filter fun raw =>
    (promotedRoot (sortUnique addressLess (DomainKeys.ofKeys emitted).exactDomains) raw).isNone,?_,?_,?_⟩
  · exact nodupSortUnique.filter _
  · intro value
    have listed : value ∈ (DomainKeys.ofKeys emitted).legacyPrefixes ↔ trie.SubdomainOnly value := labelledListed all
    rw [List.mem_filter,memSortUnique,listed,Option.isNone_iff_eq_none,Option.eq_none_iff_forall_ne_some]
    refine and_congr_right fun _ => ⟨?_,?_⟩
    · rintro none ⟨root,same,exact_⟩
      exact none root ((promotedListed all nonempty).mpr ⟨same,exact_⟩)
    · intro none root found
      exact none ⟨root,(promotedListed all nonempty).mp found⟩
  · rw [← List.countP_eq_length_filter]
    rfl

end Keys

theorem leafKeysListed {trie : Trie} {numbering : LevelOrder.Numbering} (numbered : trie.Numbered numbering)
    {emitted : List Bytes} (spelled : leafKeys trie (walkVisits trie numbering) = emitted.map .ok) (key : Bytes) :
    key ∈ emitted ↔ trie.Key key := by
  have listed : key ∈ emitted ↔ .ok key ∈ leafKeys trie (walkVisits trie numbering) := by
    rw [spelled,List.mem_map_of_injective]
    intro a b same
    cases same
    rfl
  rw [listed,leafKeys,List.mem_map]
  constructor
  · rintro ⟨⟨node,path⟩,visited,reversed⟩
    obtain ⟨visited,leaf⟩ := List.mem_filter.mp visited
    exact ⟨node,path,(memVisits numbered).mp visited,leaf,reversed⟩
  · rintro ⟨node,path,reached,leaf,reversed⟩
    exact ⟨(node,path),List.mem_filter.mpr ⟨(memVisits numbered).mpr reached,leaf⟩,reversed⟩

variable {zlib : Zlib} {limits : SrsDecodeLimits} {context : String}

theorem matcherSeen (before : Nat) :
    seen Decoder.unsupportedFields (readDomainMatcher limits context : Decode zlib (Trie × RuleExtraction))
      (fun result after => ∃ emitted, (∀ key, key ∈ emitted ↔ result.1.Key key) ∧ [] ∉ emitted ∧
        result.2 = (matcherLists (.ofKeys emitted)).1 ∧ after = before + (matcherLists (.ofKeys emitted)).2)
      (fun _ _ => True) before := by
  refine seenBind (seenMono (readTrieReads before) ?_ fun _ _ _ => trivial)
  rintro trie _ ⟨⟨numbering,numbered⟩,rfl⟩
  refine seenBind (seenMono (walkReads numbered _) ?_ fun _ _ _ => trivial)
  rintro keys _ ⟨⟨emitted,spelled,nonempty,rfl⟩,rfl⟩
  refine seenBind (seenModify (g := (· + (matcherLists (.ofKeys emitted)).2)) (fun _ => rfl) ?_)
  exact seenPure ⟨emitted,leafKeysListed numbered spelled,nonempty,rfl,rfl⟩

theorem matcherRead {s s' : Decoder zlib} {trie : Trie} {extraction : RuleExtraction}
    (read : readDomainMatcher limits context s = .ok (trie,extraction) s') :
    (∀ name, extraction.MatchesName name ↔ trie.ExactKey name ∨ (∃ root, trie.RootSuffix root ∧ AtOrBelow root name) ∨
      ∃ root, trie.Paired root ∧ AtOrBelow root name) ∧
    ∃ omitted : List Bytes, omitted.Nodup ∧
      (∀ value, value ∈ omitted ↔ trie.SubdomainOnly value ∧ ¬∃ root, value = 0x2e :: root ∧ trie.ExactKey root) ∧
      s'.unsupportedFields = s.unsupportedFields + omitted.length := by
  have result : wp (readDomainMatcher limits context) _ _ s := matcherSeen s.unsupportedFields s rfl
  unfold wp at result
  rw [read] at result
  obtain ⟨emitted,all,nonempty,lists,after⟩ := result
  obtain ⟨omitted,once,kinds,count⟩ := listsOmit all nonempty
  change extraction = _ at lists
  rw [lists]
  exact ⟨listsMatch all nonempty,omitted,once,kinds,by rw [after,count]⟩

/- The key "a" with the subdomain-only key for it, the subdomain-only key ".c" alone, and the suffix "b". -/
def pairedPayload : Bytes :=
  [0] ++ [1] ++ [0,0,0,0,0,0,0x01,0xa2] ++ [1] ++ [0,0,0,0,0,0x01,0xda,0xa8] ++ [8] ++ [0x61,0x62,0x63,0x2e,0x0a,0x2e,0x0d,0x0d]

def pairedTrie : Trie where
  leaves := [0x01a2]
  bitmap := [0x01daa8]
  labels := [0x61,0x62,0x63,0x2e,0x0a,0x2e,0x0d,0x0d]
  firstChild := [1,4,5,6,7,8,8,9,9]
  childCount := [3,1,1,1,1,0,1,0,0]

theorem pairedMatched : ∃ after, readDomainMatcher {} "rule" (buffered pairedPayload) =
      .ok (pairedTrie,{ suffixes := [[0x61],[0x62]] }) after ∧
    (pairedTrie.ExactKey [0x78,0x2e,0x61] ∨ (∃ root, pairedTrie.RootSuffix root ∧ AtOrBelow root [0x78,0x2e,0x61]) ∨
      ∃ root, pairedTrie.Paired root ∧ AtOrBelow root [0x78,0x2e,0x61]) := by
  have answered : answer (readDomainMatcher {} "rule" (buffered pairedPayload)) = some (pairedTrie,{ suffixes := [[0x61],[0x62]] }) := by
    decide +kernel
  obtain ⟨after,run⟩ := answerRun answered
  refine ⟨after,run,((matcherRead run).1 _).mp (.inr ⟨[0x61],List.mem_cons_self,.inr ⟨[0x78],rfl⟩⟩)⟩

end KeenPbr.Srs

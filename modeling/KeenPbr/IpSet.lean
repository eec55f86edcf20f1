import KeenPbr.Packets

/-! lists/ipset.cpp: the binary trie of address blocks and the two address readers of IpSet, which
read a text themselves instead of asking inet_pton. -/
namespace KeenPbr
open Blocks

/- A node that is not there is absent; `stored` is is_prefix of the source. -/
inductive IpTrie where
  | absent
  | node (stored : Bool) (zero one : IpTrie)
  deriving DecidableEq, Repr

namespace IpTrie

def fresh : IpTrie := .node false .absent .absent

def stored : IpTrie → Bool
  | absent => false
  | node stored _ _ => stored

def made : IpTrie → IpTrie
  | absent => fresh
  | found => found

def insert : IpTrie → Bits → IpTrie
  | absent, [] => .node true .absent .absent
  | node _ zero one, [] => .node true zero one
  | trie, bit :: rest =>
    let (stored,zero,one) := match trie with
      | absent => (false,absent,absent)
      | node stored zero one => (stored,zero,one)
    let child := (if bit then one else zero).made
    -- a stored block that covers this one ends the walk
    let below := if child.stored then child else child.insert rest
    if bit then .node stored zero below else .node stored below one

def contains : IpTrie → Bits → Bool
  | absent, _ => false
  | node stored _ _, [] => stored
  | node stored zero one, bit :: rest => stored || (if bit then one else zero).contains rest

theorem storedContains {trie : IpTrie} (stored : trie.stored = true) (address : Bits) : trie.contains address = true := by
  cases trie with
  | absent => cases stored
  | node here zero one =>
    have marked : here = true := stored
    cases address with
    | nil => exact marked
    | cons bit rest => rw [contains,marked,Bool.true_or]

@[simp] theorem absentContains (address : Bits) : absent.contains address = false := by
  rw [contains]

@[simp] theorem freshContains (address : Bits) : fresh.contains address = false := by
  cases address with
  | nil => rfl
  | cons bit rest => cases bit <;> exact absentContains rest

@[simp] theorem madeContains (trie : IpTrie) (address : Bits) : trie.made.contains address = trie.contains address := by
  cases trie with
  | absent => rw [made,freshContains,absentContains]
  | node stored zero one => rfl

theorem containsInsert (trie : IpTrie) (block address : Bits) :
    (trie.insert block).contains address = (trie.contains address || inside block address) := by
  induction block generalizing trie address with
  | nil =>
    rw [insideWhole,Bool.or_true]
    cases trie <;> cases address <;> rfl
  | cons bit rest ih =>
    -- the walk goes on in a child that covers what was below before
    have child (below : IpTrie) (later : Bits) :
        (if below.made.stored then below.made else below.made.insert rest).contains later =
          (below.contains later || inside rest later) := by
      split
      · rename_i ended
        have covered := storedContains ended later
        rw [covered,← madeContains,covered,Bool.true_or]
      · rw [ih,madeContains]
    cases trie with
    | absent =>
      cases address with
      | nil => cases bit <;> rfl
      | cons first later =>
        have below := child absent later
        rw [absentContains,Bool.false_or] at below
        rw [absentContains,Bool.false_or]
        cases bit <;> cases first
        · exact below
        · exact absentContains later
        · exact absentContains later
        · exact below
    | node stored zero one =>
      cases address with
      | nil => cases bit <;> exact (Bool.or_false stored).symm
      | cons first later =>
        have below := child (if bit then one else zero) later
        cases bit <;> cases first
        · change (stored || _) = (stored || _ || _)
          rw [Bool.or_assoc]
          exact congrArg (stored || ·) below
        · exact (Bool.or_false _).symm
        · exact (Bool.or_false _).symm
        · change (stored || _) = (stored || _ || _)
          rw [Bool.or_assoc]
          exact congrArg (stored || ·) below

end IpTrie

section Texts

def parseOctet (s : Text) : Option (UInt8 × Text) :=
  let digits := s.takeWhile isDigit
  if digits.isEmpty then none
  else if Nat.ofDigitChars 10 digits 0 > 255 then none
  else some (UInt8.ofNat (Nat.ofDigitChars 10 digits 0),s.dropWhile isDigit)

def parseOctets : Nat → Text → Option (List UInt8)
  | 0, s => if s.isEmpty then some [] else none
  | left + 1, s =>
    match s with
    | '.' :: rest => do
      let (octet,after) ← parseOctet rest
      let octets ← parseOctets left after
      some (octet :: octets)
    | _ => none

def parseIpv4 (s : Text) : Option (List UInt8) := do
  let (octet,after) ← parseOctet s
  let octets ← parseOctets 3 after
  some (octet :: octets)

def isHex (c : Char) : Bool := (hexDigit c).isSome

def parseHexGroup (s : Text) : Option (Nat × Text) :=
  let digits := (s.take 4).takeWhile isHex
  if digits.isEmpty then none else some (hexNumber digits,s.drop digits.length)

/- The while loop. Every round takes a character, so that the length of the text is fuel enough. -/
def scanGroups : Nat → Text → Option Nat → List Nat → Option (Option Nat × List Nat)
  | 0, _, _, _ => none
  | fuel + 1, s, doubleColonPos, groups =>
    let group := fun s =>
      match parseHexGroup s with
      | none => none
      | some (value,after) =>
        if after.head?.any (· != ':') then none else scanGroups fuel after doubleColonPos (groups ++ [value])
    match s with
    | [] => some (doubleColonPos,groups)
    | ':' :: ':' :: rest =>
      if doubleColonPos.isSome then none
      else if rest.isEmpty then some (some groups.length,groups)
      else scanGroups fuel rest (some groups.length) groups
    | ':' :: rest => group rest
    | s => group s

def groupBytes (groups : List Nat) : List UInt8 :=
  groups.flatMap fun value => [UInt8.ofNat (value / 256),UInt8.ofNat (value % 256)]

def expandGroups (doubleColonPos : Option Nat) (groups : List Nat) : Option (List UInt8) :=
  match doubleColonPos with
  | some pos =>
    if groups.length > 8 then none
    else some (groupBytes (groups.take pos ++ List.replicate (8 - groups.length) 0 ++ groups.drop pos))
  | none => if groups.length = 8 then some (groupBytes groups) else none

def parseIpv6Groups (s : Text) : Option (List UInt8) :=
  match s with
  | [':',':'] => some (groupBytes (List.replicate 8 0))
  | ':' :: ':' :: rest => do
    let (pos,groups) ← scanGroups (s.length + 1) rest (some 0) []
    expandGroups pos groups
  | _ => do
    let (pos,groups) ← scanGroups (s.length + 1) s none []
    expandGroups pos groups

def afterLastColon (s : Text) : Text := (s.reverse.takeWhile (· != ':')).reverse

def hexText (value : Nat) : Text := Nat.toDigits 16 value

/- The dotted tail is written over as two groups; the source calls itself on that text, whose tail
has no dot any more. -/
def parseIpv6 (s : Text) : Option (List UInt8) :=
  let tail := afterLastColon s
  if s.contains ':' && tail.contains '.' then
    match parseIpv4 tail with
    | some [a,b,c,d] =>
      parseIpv6Groups (s.take (s.length - tail.length) ++ hexText (a.toNat * 256 + b.toNat) ++
        ':' :: hexText (c.toNat * 256 + d.toNat))
    | _ => none
  else parseIpv6Groups s

end Texts

/- std::from_chars over an unsigned int that must take the whole text. -/
def fromCharsUnsigned (text : Text) : Option Nat :=
  if text.isEmpty || !text.all isDigit || Nat.ofDigitChars 10 text 0 ≥ 2 ^ 32 then none else some (Nat.ofDigitChars 10 text 0)

end KeenPbr

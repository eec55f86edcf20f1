import KeenPbr.DnsmasqGen
import KeenPbr.NfqwsValidator

/-! nfqws/list_match.cpp: which entry of a list covers a name or an address. -/
namespace KeenPbr.ListMatch
open Blocks Dnsmasq

structure HostlistMatch where
  entry : Text
  exact_ : Bool := false
  deriving DecidableEq, Repr

def trim (value : Text) : Text := Fields.strip isSpace value

def lower (value : Text) : Text := value.map asciiLower

structure ParsedPrefix where
  family : Int
  bytes : List UInt8
  bits : Nat
  deriving DecidableEq, Repr

/- The array of sixteen bytes that inet_pton writes into. -/
def stored (written : List UInt8) : List UInt8 := (written ++ List.replicate 16 0).take 16

def familyBits (family : Int) : Nat := if family = afInet6 then 128 else 32

def readBits : Nat → Text → Option Nat
  | bits, [] => some bits
  | bits, c :: rest =>
    if c < '0' ∨ c > '9' then none
    else
      let next := bits * 10 + (c.toNat - '0'.toNat)
      if next > 128 then none else readBits next rest

def parseAddress (inet : Inet) (address : Text) : Option ParsedPrefix :=
  let family := if ':' ∈ address then afInet6 else afInet
  (inet.pton family (cString address)).map fun written => { family, bytes := stored written, bits := familyBits family }

def parsePrefix (inet : Inet) (entry : Text) : Option ParsedPrefix :=
  let address := entry.takeWhile (· != '/')
  if address.isEmpty then none
  else do
    let parsed ← parseAddress inet address
    match entry.dropWhile (· != '/') with
    | [] => some parsed
    | _ :: digits =>
      if digits.isEmpty then none
      else do
        let bits ← readBits 0 digits
        if bits > familyBits parsed.family then none else some { parsed with bits }

def spareMask (spareBits : Nat) : UInt8 := UInt8.ofNat (0xFF <<< (8 - spareBits))

def prefixContains (range address : ParsedPrefix) : Bool :=
  let wholeBytes := range.bits / 8
  let spareBits := range.bits % 8
  if range.family ≠ address.family then false
  else if wholeBytes > 0 ∧ range.bytes.take wholeBytes ≠ address.bytes.take wholeBytes then false
  else if spareBits = 0 then true
  else (range.bytes.getD wholeBytes 0 &&& spareMask spareBits) == (address.bytes.getD wholeBytes 0 &&& spareMask spareBits)

/- An entry without its mark, in small letters; a leading ^ marks an entry that covers its own name only. -/
def exactOnly (raw : Text) : Bool := (lower raw).head? == some '^'

def entryName (raw : Text) : Text := if exactOnly raw then (lower raw).drop 1 else lower raw

def entryCovers (needle raw : Text) : Bool :=
  let entry := entryName raw
  entry == needle || !exactOnly raw && needle.length > entry.length && needle.drop (needle.length - entry.length) == entry &&
    needle[needle.length - entry.length - 1]? == some '.'

/- The loop of match_hostlist over the entries that are left. -/
def hostlistLoop (needle : Text) : List Text → Option HostlistMatch → Option HostlistMatch
  | [], best => best
  | raw :: rest, best =>
    let entry := entryName raw
    if entry.isEmpty then hostlistLoop needle rest best
    else
      let exact_ := entry == needle
      if !entryCovers needle raw then hostlistLoop needle rest best
      else if best.isNone || exact_ || best.any fun best => !best.exact_ && raw.length > best.entry.length then
        if exact_ then some ⟨raw,true⟩ else hostlistLoop needle rest (some ⟨raw,false⟩)
      else hostlistLoop needle rest best

def matchHostlist (entries : List Text) (domain : Text) : Option HostlistMatch :=
  let needle := lower (trim domain)
  if needle.isEmpty then none else hostlistLoop needle entries none

/- The loop of match_ipset; best_bits is -1 as long as there is no match. -/
def ipsetLoop (inet : Inet) (address : ParsedPrefix) : List Text → Int → Option HostlistMatch → Option HostlistMatch
  | [], _, best => best
  | raw :: rest, bestBits, best =>
    match parsePrefix inet (trim raw) with
    | none => ipsetLoop inet address rest bestBits best
    | some range =>
      if !prefixContains range address then ipsetLoop inet address rest bestBits best
      else if (range.bits : Int) > bestBits then ipsetLoop inet address rest range.bits (some ⟨raw,range.bits == familyBits range.family⟩)
      else ipsetLoop inet address rest bestBits best

def queried (inet : Inet) (ip : Text) : Option ParsedPrefix :=
  (parsePrefix inet (trim ip)).filter fun address => address.bits == familyBits address.family

def matchIpset (inet : Inet) (entries : List Text) (ip : Text) : Option HostlistMatch :=
  (queried inet ip).bind fun address => ipsetLoop inet address entries (-1) none

section Best
variable {α : Type} {rank : α → Option Nat} {seen : List α} {best : Option α} {a : α} {k : Nat}

def Top (rank : α → Option Nat) (seen : List α) : Option α → Prop
  | none => ∀ a ∈ seen, rank a = none
  | some best => best ∈ seen ∧ ∃ k, rank best = some k ∧ ∀ a ∈ seen, ∀ j, rank a = some j → j ≤ k

theorem topSkip (top : Top rank seen best) (unranked : rank a = none) : Top rank (a :: seen) best := by
  cases best with
  | none => exact List.forall_mem_cons.mpr ⟨unranked,top⟩
  | some best =>
    obtain ⟨listed,k,ranked,most⟩ := top
    refine ⟨List.mem_cons_of_mem _ listed,k,ranked,List.forall_mem_cons.mpr ⟨?_,most⟩⟩
    intro j other
    rw [unranked] at other
    cases other

theorem topTake (top : Top rank seen best) (ranked : rank a = some k) (more : ∀ b ∈ best, ∀ j, rank b = some j → j ≤ k) :
    Top rank (a :: seen) (some a) := by
  refine ⟨List.mem_cons_self,k,ranked,List.forall_mem_cons.mpr ⟨?_,?_⟩⟩
  · intro j same
    rw [ranked] at same
    exact (Option.some.inj same).ge
  · intro b listed j other
    cases best with
    | none =>
      rw [top b listed] at other
      cases other
    | some best =>
      obtain ⟨_,top,ranked,most⟩ := top
      exact (most b listed j other).trans (more best rfl top ranked)

theorem topKeep {b : α} {j : Nat} (top : Top rank seen (some b)) (held : rank b = some j) (ranked : rank a = some k) (less : k ≤ j) :
    Top rank (a :: seen) (some b) := by
  obtain ⟨listed,_,same,most⟩ := top
  rw [held] at same
  cases same
  refine ⟨List.mem_cons_of_mem _ listed,j,held,List.forall_mem_cons.mpr ⟨?_,most⟩⟩
  intro i other
  rw [ranked] at other
  exact (Option.some.inj other).ge.trans less

theorem topCongr {other : List α} (top : Top rank seen best) (same : ∀ a, a ∈ other ↔ a ∈ seen) : Top rank other best := by
  cases best with
  | none => exact fun a listed => top a ((same a).mp listed)
  | some best =>
    obtain ⟨listed,k,ranked,most⟩ := top
    exact ⟨(same best).mpr listed,k,ranked,fun a listed => most a ((same a).mp listed)⟩

end Best

section Hostlist
variable {needle raw : Text}

/- The entry is the name or, unless it is marked, a parent domain of it. -/
def HostCovers (needle raw : Text) : Prop :=
  entryName raw ≠ [] ∧ (entryName raw = needle ∨ exactOnly raw = false ∧ '.' :: entryName raw <:+ needle)

instance : Decidable (HostCovers needle raw) := by unfold HostCovers; infer_instance

def hostRank (needle raw : Text) : Option Nat := if HostCovers needle raw then some (entryName raw).length else none

theorem hostRankIff {k : Nat} : hostRank needle raw = some k ↔ HostCovers needle raw ∧ (entryName raw).length = k := by
  simp [hostRank]

theorem hostRankNone : hostRank needle raw = none ↔ ¬HostCovers needle raw := by
  simp [hostRank]

theorem parentIff {name : Text} : (needle.length > name.length ∧ needle.drop (needle.length - name.length) = name) ∧
    needle[needle.length - name.length - 1]? = some '.' ↔ '.' :: name <:+ needle := by
  constructor
  · rintro ⟨⟨longer,same⟩,dot⟩
    refine ⟨needle.take (needle.length - name.length - 1),?_⟩
    have inside : needle.length - name.length - 1 < needle.length := by omega
    have next : needle.length - name.length - 1 + 1 = needle.length - name.length := by omega
    have split := List.drop_eq_getElem_cons inside
    rw [next,same] at split
    rw [List.getElem?_eq_getElem inside,Option.some.injEq] at dot
    rw [← dot,← split,List.take_append_drop]
  · rintro ⟨front,rfl⟩
    have length : (front ++ '.' :: name).length - name.length = front.length + 1 := by
      rw [List.length_append,List.length_cons]
      omega
    refine ⟨⟨?_,?_⟩,?_⟩
    · rw [List.length_append,List.length_cons]
      omega
    · rw [length]
      simp
    · rw [length,Nat.add_sub_cancel,List.getElem?_append_right (Nat.le_refl _),Nat.sub_self]
      rfl

theorem entryCoversIff (named : entryName raw ≠ []) : entryCovers needle raw = true ↔ HostCovers needle raw := by
  simp only [entryCovers,HostCovers,← parentIff,Bool.or_eq_true,Bool.and_eq_true,beq_iff_eq,Bool.not_eq_true',decide_eq_true_eq]
  tauto

theorem coversShorter (covers : HostCovers needle raw) : (entryName raw).length ≤ needle.length := by
  rcases covers.2 with same | ⟨_,parent⟩
  · rw [same]
  · exact (Nat.le_succ _).trans parent.length_le

theorem unmarkedLength (unmarked : exactOnly raw = false) : (entryName raw).length = raw.length := by
  simp [entryName,unmarked,lower]

theorem parentLength (covers : HostCovers needle raw) (other : entryName raw ≠ needle) : (entryName raw).length = raw.length := by
  rcases covers.2 with same | ⟨unmarked,_⟩
  · exact absurd same other
  · exact unmarkedLength unmarked

theorem hostlistTop (entries : List Text) : ∀ {seen : List Text} {best : Option HostlistMatch},
    Top (hostRank needle) seen (best.map HostlistMatch.entry) → (∀ old ∈ best, old.exact_ = false ∧ entryName old.entry ≠ needle) →
    Top (hostRank needle) (entries ++ seen) ((hostlistLoop needle entries best).map HostlistMatch.entry) ∧
      ∀ hit ∈ hostlistLoop needle entries best, hit.exact_ = (entryName hit.entry == needle) := by
  induction entries with
  | nil =>
    intro seen best top parents
    refine ⟨top,fun hit found => ?_⟩
    rw [(parents hit found).1]
    exact (beq_false_of_ne (parents hit found).2).symm
  | cons raw rest ih =>
    intro seen best top parents
    have goOn {next : Option HostlistMatch} (top : Top (hostRank needle) (raw :: seen) (next.map HostlistMatch.entry))
        (parents : ∀ old ∈ next, old.exact_ = false ∧ entryName old.entry ≠ needle) :
        Top (hostRank needle) (raw :: rest ++ seen) ((hostlistLoop needle rest next).map HostlistMatch.entry) ∧
          ∀ hit ∈ hostlistLoop needle rest next, hit.exact_ = (entryName hit.entry == needle) := by
      obtain ⟨later,exact_⟩ := ih top parents
      exact ⟨topCongr later fun a => by simp only [List.cons_append,List.mem_cons,List.mem_append]; tauto,exact_⟩
    rw [hostlistLoop]
    dsimp only
    split
    · rename_i empty
      exact goOn (topSkip top (hostRankNone.mpr fun covers => covers.1 (List.isEmpty_iff.mp empty))) parents
    rename_i named
    rw [List.isEmpty_iff] at named
    split
    · rename_i uncovered
      refine goOn (topSkip top (hostRankNone.mpr fun covers => ?_)) parents
      rw [(entryCoversIff named).mpr covers] at uncovered
      cases uncovered
    rename_i covered
    have covers : HostCovers needle raw := (entryCoversIff named).mp (by simpa using covered)
    have ranked : hostRank needle raw = some (entryName raw).length := hostRankIff.mpr ⟨covers,rfl⟩
    split
    · rename_i taken
      split
      · -- nothing is longer than the name itself
        rename_i same
        rw [beq_iff_eq] at same
        refine ⟨⟨List.mem_cons_self,_,ranked,fun other _ j held => ?_⟩,fun hit found => ?_⟩
        · obtain ⟨covers,rfl⟩ := hostRankIff.mp held
          rw [same]
          exact coversShorter covers
        · cases found
          exact (beq_iff_eq.mpr same).symm
      · rename_i other
        rw [beq_iff_eq] at other
        refine goOn (topTake top ranked fun old held j rank => ?_) fun old held => by cases held; exact ⟨rfl,other⟩
        obtain ⟨hit,same,rfl⟩ := Option.map_eq_some_iff.mp held
        obtain ⟨covered,rfl⟩ := hostRankIff.mp rank
        subst same
        simp only [Option.isNone_some,Bool.false_or,Option.any_some,Bool.or_eq_true,beq_iff_eq,other,false_or,Bool.and_eq_true,
          decide_eq_true_eq] at taken
        rw [parentLength covers other,parentLength covered (parents hit rfl).2]
        exact taken.2.le
    · rename_i kept
      cases best with
      | none => simp at kept
      | some old =>
        obtain ⟨flag,different⟩ := parents old rfl
        obtain ⟨listed,k,held,most⟩ := top
        obtain ⟨covered,rfl⟩ := hostRankIff.mp held
        simp only [Option.isNone_some,Bool.false_or,Option.any_some,Bool.or_eq_true,beq_iff_eq,Bool.and_eq_true,decide_eq_true_eq,flag,
          Bool.not_false,true_and,not_or,Nat.not_lt] at kept
        refine goOn (topKeep ⟨listed,_,held,most⟩ held ranked ?_) parents
        rw [parentLength covers kept.1,parentLength covered different]
        exact kept.2

theorem matchHostlistSpec (entries : List Text) (domain : Text) :
    ((matchHostlist entries domain).isSome = true ↔ lower (trim domain) ≠ [] ∧ ∃ raw ∈ entries, HostCovers (lower (trim domain)) raw) ∧
    ∀ hit, matchHostlist entries domain = some hit → hit.entry ∈ entries ∧ HostCovers (lower (trim domain)) hit.entry ∧
      (hit.exact_ = true ↔ entryName hit.entry = lower (trim domain)) ∧
      ∀ raw ∈ entries, HostCovers (lower (trim domain)) raw → (entryName raw).length ≤ (entryName hit.entry).length := by
  unfold matchHostlist
  dsimp only
  generalize lower (trim domain) = needle
  split
  · rename_i empty
    rw [List.isEmpty_iff] at empty
    exact ⟨⟨nofun,fun both => absurd empty both.1⟩,nofun⟩
  · rename_i named
    rw [List.isEmpty_iff] at named
    obtain ⟨top,flags⟩ := @hostlistTop needle entries [] none nofun nofun
    rw [List.append_nil] at top
    cases found : hostlistLoop needle entries none with
    | none =>
      rw [found] at top
      refine ⟨⟨nofun,?_⟩,nofun⟩
      rintro ⟨_,raw,listed,covers⟩
      exact absurd covers (hostRankNone.mp (top raw listed))
    | some hit =>
      rw [found] at top flags
      obtain ⟨listed,k,held,most⟩ := top
      obtain ⟨covers,rfl⟩ := hostRankIff.mp held
      refine ⟨⟨fun _ => ⟨named,hit.entry,listed,covers⟩,fun _ => rfl⟩,?_⟩
      intro other same
      cases same
      refine ⟨listed,covers,by rw [flags hit rfl,beq_iff_eq],fun raw listed covers => most raw listed _ (hostRankIff.mpr ⟨covers,rfl⟩)⟩

end Hostlist

section Ipset
variable {inet : Inet} {range address : ParsedPrefix} {raw : Text}

/- The prefix is of the address's family, and the address begins with its bits. -/
def ParsedPrefix.Covers (range address : ParsedPrefix) : Prop :=
  range.family = address.family ∧ (bitsOf range.bytes).take range.bits = (bitsOf address.bytes).take range.bits

theorem storedLength (written : List UInt8) : (stored written).length = 16 := by
  simp [stored]

theorem bitsRead (digits : Text) : ∀ {start bits : Nat}, start ≤ 128 →
    (readBits start digits = some bits ↔ (∀ c ∈ digits, isDigit c = true) ∧ Nat.ofDigitChars 10 digits start = bits ∧ bits ≤ 128) := by
  induction digits with
  | nil =>
    intro start bits few
    rw [readBits,Nat.ofDigitChars_nil,Option.some.injEq]
    exact ⟨fun same => ⟨List.forall_mem_nil _,same,same ▸ few⟩,fun all => all.2.1⟩
  | cons c rest ih =>
    intro start bits few
    have digit : isDigit c = true ↔ ¬(c < '0' ∨ c > '9') := by
      rw [isDigit,Bool.and_eq_true,decide_eq_true_eq,decide_eq_true_eq,not_or,Char.not_lt,gt_iff_lt,Char.not_lt]
    rw [readBits,List.forall_mem_cons,Nat.ofDigitChars_cons,Nat.mul_comm 10 start,digit]
    split
    · rename_i other
      exact iff_of_false (Option.some_ne_none bits).symm fun all => absurd other all.1.1
    · rename_i plain
      dsimp only
      split
      · rename_i many
        refine iff_of_false (Option.some_ne_none bits).symm fun all => ?_
        have most := all.2.2
        rw [← all.2.1,Nat.ofDigitChars_eq_ofDigitChars_zero] at most
        have grown := Nat.le_mul_of_pos_left (start * 10 + (c.toNat - '0'.toNat)) (Nat.pow_pos (n := rest.length) (show 0 < 10 by decide))
        omega
      · rename_i fits
        rw [ih (Nat.not_lt.mp fits)]
        exact and_congr_left fun _ => (and_iff_right plain).symm

/- An entry: an address that inet_pton reads in the family its colons tell, alone or with a length in bits. -/
structure Reads (inet : Inet) (address : Text) (range : ParsedPrefix) : Prop where
  named : address ≠ []
  single : '/' ∉ address
  family : range.family = if ':' ∈ address then afInet6 else afInet
  bytes : ∃ written, inet.pton range.family (cString address) = some written ∧ range.bytes = stored written

def Sized (range : ParsedPrefix) : Text → Prop
  | [] => range.bits = familyBits range.family
  | _ :: digits => digits ≠ [] ∧ (∀ c ∈ digits, isDigit c = true) ∧ Nat.ofDigitChars 10 digits 0 = range.bits ∧
    range.bits ≤ familyBits range.family

theorem familyBitsLe (family : Int) : familyBits family ≤ 128 := by
  unfold familyBits
  split <;> decide

theorem addressReads {text : Text} (named : text ≠ []) (single : '/' ∉ text) : parseAddress inet text = some range ↔
    Reads inet text range ∧ range.bits = familyBits range.family := by
  unfold parseAddress
  dsimp only
  rw [Option.map_eq_some_iff]
  constructor
  · rintro ⟨written,read,rfl⟩
    exact ⟨⟨named,single,rfl,written,read,rfl⟩,rfl⟩
  · rintro ⟨⟨-,-,family,written,read,bytes⟩,bits⟩
    obtain ⟨kind,held,count⟩ := range
    dsimp only at family bytes bits read
    subst bits
    subst bytes
    subst family
    exact ⟨written,read,rfl⟩

theorem prefixReads {entry : Text} : parsePrefix inet entry = some range ↔
    Reads inet (entry.takeWhile (· != '/')) range ∧ Sized range (entry.dropWhile (· != '/')) := by
  have single : '/' ∉ entry.takeWhile (· != '/') := fun mem => absurd (List.mem_takeWhile_imp mem) (by decide)
  unfold parsePrefix
  generalize entry.takeWhile (· != '/') = text at single
  generalize entry.dropWhile (· != '/') = tail
  dsimp only
  split
  · rename_i empty
    exact ⟨nofun,fun both => absurd (List.isEmpty_iff.mp empty) both.1.named⟩
  rename_i some_
  have named : text ≠ [] := fun empty => some_ (List.isEmpty_iff.mpr empty)
  rw [Option.bind_eq_bind,Option.bind_eq_some_iff]
  cases tail with
  | nil =>
    constructor
    · rintro ⟨parsed,read,same⟩
      cases same
      exact (addressReads named single).mp read
    · exact fun both => ⟨range,(addressReads named single).mpr both,rfl⟩
  | cons slash digits =>
    dsimp only
    constructor
    · rintro ⟨parsed,read,sized⟩
      split at sized
      · cases sized
      rename_i filled
      obtain ⟨bits,counted,sized⟩ := Option.bind_eq_some_iff.mp sized
      obtain ⟨plain,value,-⟩ := (bitsRead digits (by decide)).mp counted
      split at sized
      · cases sized
      rename_i fits
      cases sized
      obtain ⟨reads,-⟩ := (addressReads named single).mp read
      exact ⟨⟨named,single,reads.family,reads.bytes⟩,fun empty => filled (List.isEmpty_iff.mpr empty),plain,value,Nat.not_lt.mp fits⟩
    · rintro ⟨reads,filled,plain,value,fits⟩
      refine ⟨{ range with bits := familyBits range.family },(addressReads named single).mpr
        ⟨⟨named,single,reads.family,reads.bytes⟩,rfl⟩,?_⟩
      have counted := (bitsRead digits (by decide)).mpr ⟨plain,value,fits.trans (familyBitsLe _)⟩
      rw [if_neg (fun empty => filled (List.isEmpty_iff.mp empty)),counted,Option.bind_eq_bind,Option.bind_some,
        if_neg (Nat.not_lt.mpr fits)]

theorem prefixParsed {entry : Text} (parses : parsePrefix inet entry = some range) :
    range.bytes.length = 16 ∧ range.bits ≤ familyBits range.family := by
  obtain ⟨reads,sized⟩ := prefixReads.mp parses
  obtain ⟨written,-,bytes⟩ := reads.bytes
  refine ⟨bytes ▸ storedLength written,?_⟩
  cases tail : entry.dropWhile (· != '/') with
  | nil =>
    rw [tail] at sized
    exact sized.le
  | cons slash digits =>
    rw [tail] at sized
    exact sized.2.2.2

theorem spareMaskBit : ∀ spare ≤ 8, ∀ place < 8, (spareMask spare).toNat.testBit place = decide (8 - spare ≤ place) := by
  decide

theorem maskedEqIff {spare : Nat} (few : spare ≤ 8) (left right : UInt8) :
    left &&& spareMask spare = right &&& spareMask spare ↔
      ∀ place < spare, left.toNat.testBit (7 - place) = right.toNat.testBit (7 - place) := by
  constructor
  · intro same place before
    have bit := congrArg (fun byte : UInt8 => byte.toNat.testBit (7 - place)) same
    simp only [UInt8.toNat_and,Nat.testBit_and,spareMaskBit spare few (7 - place) (by omega)] at bit
    simpa [show 8 - spare ≤ 7 - place by omega] using bit
  · intro same
    refine UInt8.toNat_inj.mp (Nat.eq_of_testBit_eq fun place => ?_)
    rw [UInt8.toNat_and,UInt8.toNat_and,Nat.testBit_and,Nat.testBit_and]
    by_cases low : place < 8
    · rw [spareMaskBit spare few place low]
      by_cases kept : 8 - spare ≤ place
      · have bit := same (7 - place) (by omega)
        rw [show 7 - (7 - place) = place by omega] at bit
        rw [bit]
      · simp [kept]
    · have outside : (spareMask spare).toNat.testBit place = false :=
        Nat.testBit_lt_two_pow ((spareMask spare).toNat_lt.trans_le (Nat.pow_le_pow_right (by decide) (Nat.not_lt.mp low)))
      rw [outside,Bool.and_false,Bool.and_false]

theorem wholeMask (byte : UInt8) : byte &&& spareMask 8 = byte := by
  refine UInt8.toNat_inj.mp ?_
  rw [UInt8.toNat_and,show (spareMask 8).toNat = 2 ^ 8 - 1 from rfl,Nat.and_two_pow_sub_one_eq_mod]
  exact Nat.mod_eq_of_lt byte.toNat_lt

section Bytes
variable {left right : List UInt8} (leftSize : left.length = 16) (rightSize : right.length = 16)
include leftSize rightSize

theorem takeEqIff {count : Nat} (few : count ≤ 16) :
    left.take count = right.take count ↔ ∀ place < count, left.getD place 0 = right.getD place 0 := by
  simp only [List.getD_eq_getElem?_getD]
  constructor
  · intro same place before
    have element := congrArg (fun bytes : List UInt8 => bytes[place]?) same
    simp only [List.getElem?_take,if_pos before] at element
    rw [element]
  · intro same
    refine List.ext_getElem? fun place => ?_
    rw [List.getElem?_take,List.getElem?_take]
    split
    · rename_i before
      have bytes := same place before
      rw [List.getElem?_eq_getElem (by omega),List.getElem?_eq_getElem (by omega)] at bytes ⊢
      exact congrArg some bytes
    · exact rfl

theorem bitsEqIff {count : Nat} (few : count ≤ 128) : (bitsOf left).take count = (bitsOf right).take count ↔
    ∀ place < count, (left.getD (place / 8) 0).toNat.testBit (7 - place % 8) = (right.getD (place / 8) 0).toNat.testBit
      (7 - place % 8) := by
  have bit {bytes : List UInt8} (size : bytes.length = 16) {place : Nat} (before : place < count) :
      (bitsOf bytes)[place]? = some ((bytes.getD (place / 8) 0).toNat.testBit (7 - place % 8)) := by
    rw [bitsOfAt,List.getD_eq_getElem?_getD,List.getElem?_eq_getElem (by omega)]
    exact rfl
  constructor
  · intro same place before
    have element := congrArg (fun bits : Bits => bits[place]?) same
    simp only [List.getElem?_take,if_pos before] at element
    rw [bit leftSize before,bit rightSize before] at element
    exact Option.some.inj element
  · intro same
    refine takeAgrees fun place before => ?_
    rw [bit leftSize before,bit rightSize before,same place before]

end Bytes

theorem containsIff (left : range.bytes.length = 16) (right : address.bytes.length = 16) (fits : range.bits ≤ 128) :
    prefixContains range address = true ↔ range.Covers address := by
  have spare : range.bits % 8 ≤ 8 := by omega
  have parts : (bitsOf range.bytes).take range.bits = (bitsOf address.bytes).take range.bits ↔
      range.bytes.take (range.bits / 8) = address.bytes.take (range.bits / 8) ∧
        range.bytes.getD (range.bits / 8) 0 &&& spareMask (range.bits % 8) = address.bytes.getD (range.bits / 8) 0 &&& spareMask
          (range.bits % 8) := by
    rw [bitsEqIff left right fits,takeEqIff left right (by omega),maskedEqIff spare]
    constructor
    · intro same
      refine ⟨fun byte before => ?_,fun place before => ?_⟩
      · rw [← wholeMask (range.bytes.getD byte 0),← wholeMask (address.bytes.getD byte 0),maskedEqIff (Nat.le_refl 8)]
        intro place before
        have bit := same (8 * byte + place) (by omega)
        rwa [show (8 * byte + place) / 8 = byte by omega,show (8 * byte + place) % 8 = place by omega] at bit
      · have bit := same (8 * (range.bits / 8) + place) (by omega)
        rwa [show (8 * (range.bits / 8) + place) / 8 = range.bits / 8 by
          omega,show (8 * (range.bits / 8) + place) % 8 = place by omega] at bit
    · rintro ⟨whole,rest⟩ place before
      by_cases inside : place / 8 < range.bits / 8
      · rw [whole _ inside]
      · have last : place / 8 = range.bits / 8 := by omega
        rw [last]
        exact rest (place % 8) (by omega)
  unfold ParsedPrefix.Covers prefixContains
  dsimp only
  rw [parts]
  split
  · rename_i other
    exact ⟨nofun,fun both => absurd both.1 other⟩
  rename_i family
  rw [not_not] at family
  split
  · rename_i differ
    exact ⟨nofun,fun both => absurd both.2.1 differ.2⟩
  rename_i whole
  have whole : range.bytes.take (range.bits / 8) = address.bytes.take (range.bits / 8) := by
    by_cases some_ : range.bits / 8 > 0
    · by_contra differ
      exact whole ⟨some_,differ⟩
    · rw [Nat.eq_zero_of_not_pos some_]
      exact rfl
  split
  · rename_i none_
    refine ⟨fun _ => ⟨family,whole,(maskedEqIff spare _ _).mpr fun place before => ?_⟩,fun _ => rfl⟩
    rw [none_] at before
    exact absurd before (Nat.not_lt_zero _)
  · rw [beq_iff_eq]
    exact ⟨fun same => ⟨family,whole,same⟩,fun both => both.2.2⟩

def ipRank (inet : Inet) (address : ParsedPrefix) (raw : Text) : Option Nat :=
  (parsePrefix inet (trim raw)).bind fun range => if prefixContains range address then some range.bits else none

theorem ipRankIff (whole : address.bytes.length = 16) {k : Nat} : ipRank inet address raw = some k ↔
    ∃ range, parsePrefix inet (trim raw) = some range ∧ range.Covers address ∧ range.bits = k := by
  rw [ipRank,Option.bind_eq_some_iff]
  refine exists_congr fun range => and_congr_right fun parses => ?_
  obtain ⟨length,fits⟩ := prefixParsed parses
  rw [← containsIff length whole (fits.trans (familyBitsLe _))]
  simp

theorem rankBits {k : Nat} (parses : parsePrefix inet (trim raw) = some range) (ranked : ipRank inet address raw = some k) :
    range.bits = k := by
  rw [ipRank,parses,Option.bind_some] at ranked
  split at ranked
  · exact Option.some.inj ranked
  · cases ranked

/- What the loop of match_ipset holds of its best entry. -/
def Held (inet : Inet) (bestBits : Int) : Option HostlistMatch → Prop
  | none => bestBits = -1
  | some hit => ∃ range, parsePrefix inet (trim hit.entry) = some range ∧ bestBits = range.bits ∧
      hit.exact_ = (range.bits == familyBits range.family)

theorem ipsetTop (entries : List Text) : ∀ {seen : List Text} {bestBits : Int} {best : Option HostlistMatch},
    Top (ipRank inet address) seen (best.map HostlistMatch.entry) → Held inet bestBits best →
    Top (ipRank inet address) (entries ++ seen) ((ipsetLoop inet address entries bestBits best).map HostlistMatch.entry) ∧
      ∃ bits, Held inet bits (ipsetLoop inet address entries bestBits best) := by
  induction entries with
  | nil => exact fun {_ bestBits _} top held => ⟨top,bestBits,held⟩
  | cons raw rest ih =>
    intro seen bestBits best top held
    have goOn {bits : Int} {next : Option HostlistMatch} (top : Top (ipRank inet address) (raw :: seen) (next.map HostlistMatch.entry))
        (held : Held inet bits next) :
        Top (ipRank inet address) (raw :: rest ++ seen) ((ipsetLoop inet address rest bits next).map HostlistMatch.entry) ∧
          ∃ bits', Held inet bits' (ipsetLoop inet address rest bits next) := by
      obtain ⟨later,bits',held⟩ := ih top held
      exact ⟨topCongr later fun a => by simp only [List.cons_append,List.mem_cons,List.mem_append]; tauto,bits',held⟩
    rw [ipsetLoop]
    split
    · rename_i unparsed
      exact goOn (topSkip top (by simp [ipRank,unparsed])) held
    rename_i range parses
    split
    · rename_i outside
      exact goOn (topSkip top (by simpa [ipRank,parses] using outside)) held
    rename_i inside
    have ranked : ipRank inet address raw = some range.bits := by simpa [ipRank,parses] using inside
    split
    · rename_i narrower
      refine goOn (topTake top ranked fun old mem j rank => ?_) ⟨range,parses,rfl,rfl⟩
      obtain ⟨hit,rfl,rfl⟩ := Option.map_eq_some_iff.mp mem
      obtain ⟨other,spelled,bits,_⟩ := held
      have same := rankBits spelled rank
      omega
    · rename_i wider
      cases best with
      | none =>
        cases held
        exact absurd (by omega : (range.bits : Int) > -1) wider
      | some hit =>
        obtain ⟨other,spelled,bits,flag⟩ := held
        obtain ⟨listed,k,rank,most⟩ := top
        have same := rankBits spelled rank
        exact goOn (topKeep ⟨listed,k,rank,most⟩ rank ranked (by omega)) ⟨other,spelled,bits,flag⟩

theorem matchIpsetSpec (inet : Inet) (entries : List Text) (ip : Text) :
    ((matchIpset inet entries ip).isSome = true ↔ ∃ address, queried inet ip = some address ∧
      ∃ raw ∈ entries, ∃ range, parsePrefix inet (trim raw) = some range ∧ range.Covers address) ∧
    ∀ hit, matchIpset inet entries ip = some hit → ∃ address range, queried inet ip = some address ∧ hit.entry ∈ entries ∧
      parsePrefix inet (trim hit.entry) = some range ∧ range.Covers address ∧ (hit.exact_ = true ↔ range.bits = familyBits range.family) ∧
      ∀ raw ∈ entries, ∀ other, parsePrefix inet (trim raw) = some other → other.Covers address → other.bits ≤ range.bits := by
  unfold matchIpset
  cases query : queried inet ip with
  | none => exact ⟨⟨nofun,nofun⟩,nofun⟩
  | some address =>
    have whole : address.bytes.length = 16 := (prefixParsed (Option.filter_eq_some_iff.mp query).1).1
    obtain ⟨top,bits,held⟩ := @ipsetTop inet address entries [] (-1) none nofun rfl
    rw [List.append_nil] at top
    rw [Option.bind_some]
    cases found : ipsetLoop inet address entries (-1) none with
    | none =>
      rw [found] at top
      refine ⟨⟨nofun,?_⟩,nofun⟩
      rintro ⟨_,same,raw,listed,range,parses,covers⟩
      cases same
      have ranked := (ipRankIff whole).mpr ⟨range,parses,covers,rfl⟩
      rw [top raw listed] at ranked
      cases ranked
    | some hit =>
      rw [found] at top held
      obtain ⟨listed,k,rank,most⟩ := top
      obtain ⟨range,parses,covers,rfl⟩ := (ipRankIff whole).mp rank
      obtain ⟨_,spelled,_,flag⟩ := held
      rw [parses] at spelled
      cases spelled
      refine ⟨⟨fun _ => ⟨address,rfl,hit.entry,listed,range,parses,covers⟩,fun _ => rfl⟩,?_⟩
      intro other same
      cases same
      exact ⟨address,range,rfl,listed,parses,covers,by rw [flag,beq_iff_eq],
        fun raw listed other parses covers => most raw listed _ ((ipRankIff whole).mpr ⟨other,parses,covers,rfl⟩)⟩

end Ipset

end KeenPbr.ListMatch

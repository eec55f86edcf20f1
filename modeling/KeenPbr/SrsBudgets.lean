import KeenPbr.SrsRules

/-! The budgets of the decoder: every state it writes keeps every running total within its limit, and what it returns has
been accounted for. -/
namespace KeenPbr.Srs
open Wp

/- None of the totals is past its limit, so that no limit minus its total underflows. -/
structure Within {zlib : Zlib} (limits : SrsDecodeLimits) (d : Decoder zlib) : Prop where
  compressed : d.reader.compressedBytes ≤ limits.maxCompressedBytes
  decompressed : d.reader.decompressedBytes ≤ limits.maxDecompressedBytes
  rules : d.totalRules ≤ limits.maxRules
  values : d.totalValues ≤ limits.maxValues
  strings : d.totalStringBytes ≤ limits.maxTotalStringBytes
  entries : d.decodedOutputEntries ≤ limits.maxOutputEntries
  entryBytes : d.decodedOutputStringBytes ≤ limits.maxOutputStringBytes

@[ext] structure Produced where
  rules : Nat := 0
  entries : Nat := 0
  bytes : Nat := 0

def Produced.add (made more : Produced) : Produced := ⟨made.rules + more.rules,made.entries + more.entries,made.bytes + more.bytes⟩

structure Accounts {zlib : Zlib} (limits : SrsDecodeLimits) (made : Produced) (d : Decoder zlib) : Prop extends Within limits d where
  enoughRules : made.rules ≤ d.totalRules
  enoughEntries : made.entries ≤ d.decodedOutputEntries
  enoughBytes : made.bytes ≤ d.decodedOutputStringBytes

section Frames
variable {zlib : Zlib} (limits : SrsDecodeLimits) {α β : Type}

def Spends (m : Decode zlib α) (cost : α → Produced) : Prop :=
  ∀ made : Produced, Always (Within limits) (Accounts limits made) m fun a => Accounts limits (made.add (cost a))

abbrev Saves (m : Decode zlib α) : Prop := Spends limits m fun _ => {}

variable {limits} {m : Decode zlib α} {cost : α → Produced}

theorem Accounts.less {made other : Produced} {d : Decoder zlib} (accounts : Accounts limits made d) (rules : other.rules ≤ made.rules)
    (entries : other.entries ≤ made.entries) (bytes : other.bytes ≤ made.bytes) : Accounts limits other d :=
  ⟨accounts.toWithin,rules.trans accounts.enoughRules,entries.trans accounts.enoughEntries,bytes.trans accounts.enoughBytes⟩

theorem spendsPure {a : α} (free : cost a = {}) : Spends limits (pure a : Decode zlib α) cost := by
  intro made
  refine .pure fun d accounts => ?_
  rw [free]
  exact accounts

theorem spendsFail {message : String} : Spends limits (fail message : Decode zlib α) cost := fun _ => .throw

theorem spendsBind {f : α → Decode zlib β} {more : α → β → Produced} {total : β → Produced} (first : Spends limits m cost)
    (rest : ∀ a, Spends limits (f a) (more a))
    (rules : ∀ a b, (total b).rules ≤ (cost a).rules + (more a b).rules)
    (entries : ∀ a b, (total b).entries ≤ (cost a).entries + (more a b).entries)
    (bytes : ∀ a b, (total b).bytes ≤ (cost a).bytes + (more a b).bytes) : Spends limits (m >>= f) total := by
  intro made
  refine .bind (first made) fun a => (rest a (made.add (cost a))).weaken fun b d accounts => ?_
  have one := rules a b
  have two := entries a b
  have three := bytes a b
  refine accounts.less ?_ ?_ ?_
  · simp only [Produced.add]
    omega
  · simp only [Produced.add]
    omega
  · simp only [Produced.add]
    omega

theorem savesThen {f : α → Decode zlib β} {total : β → Produced} (first : Saves limits m) (rest : ∀ a, Spends limits (f a) total) :
    Spends limits (m >>= f) total :=
  spendsBind first rest (fun _ _ => by simp) (fun _ _ => by simp) fun _ _ => by simp

theorem spendsIte {c : Prop} [Decidable c] {n : Decode zlib α} (yes : c → Spends limits m cost) (no : ¬c → Spends limits n cost) :
    Spends limits (if c then m else n) cost := fun made => alwaysIte (fun h => yes h made) fun h => no h made

theorem alwaysBindFailIf {c : Prop} [Decidable c] {message : String} {P : Decoder zlib → Prop} {f : Unit → Decode zlib β}
    {Q : β → Decoder zlib → Prop}
    (rest : ¬c → Always (Within limits) P (f ()) Q) : Always (Within limits) P (failIf c message >>= f) Q := by
  refine .bind (R := fun _ d => ¬c ∧ P d) (alwaysIte (fun _ => .throw) fun no => .pure fun _ before => ⟨no,before⟩) fun _ => ?_
  by_cases holds : c
  · exact .never fun _ before => before.1 holds
  · exact (rest holds).strengthen fun _ before => before.2

theorem savesFailIf {c : Prop} [Decidable c] {message : String} : Saves limits (failIf c message : Decode zlib Unit) :=
  spendsIte (fun _ => spendsFail) fun _ => spendsPure rfl

theorem savesModify {f : Decoder zlib → Decoder zlib} (reader : ∀ d, (f d).reader = d.reader) (rules : ∀ d, (f d).totalRules = d.totalRules)
    (values : ∀ d, (f d).totalValues = d.totalValues) (strings : ∀ d, (f d).totalStringBytes = d.totalStringBytes)
    (entries : ∀ d, (f d).decodedOutputEntries = d.decodedOutputEntries)
    (bytes : ∀ d, (f d).decodedOutputStringBytes = d.decodedOutputStringBytes) : Saves limits (modify f : Decode zlib PUnit) := by
  intro made
  refine .modify fun d accounts => ?_
  have kept : Accounts limits made (f d) := by
    refine ⟨⟨?_,?_,?_,?_,?_,?_,?_⟩,?_,?_,?_⟩
    · rw [reader]; exact accounts.compressed
    · rw [reader]; exact accounts.decompressed
    · rw [rules]; exact accounts.rules
    · rw [values]; exact accounts.values
    · rw [strings]; exact accounts.strings
    · rw [entries]; exact accounts.entries
    · rw [bytes]; exact accounts.entryBytes
    · rw [rules]; exact accounts.enoughRules
    · rw [entries]; exact accounts.enoughEntries
    · rw [bytes]; exact accounts.enoughBytes
  exact ⟨kept.toWithin,kept⟩

end Frames

section Reading
variable {zlib : Zlib} {limits : SrsDecodeLimits} {what : String} {α : Type}

theorem loadWithin {reader loaded : InflateReader zlib} {more : Bool} (few : reader.compressedBytes ≤ limits.maxCompressedBytes)
    (load : loadInput limits reader = .ok (loaded,more)) :
    loaded.compressedBytes ≤ limits.maxCompressedBytes ∧ loaded.decompressedBytes = reader.decompressedBytes := by
  unfold loadInput at load
  split at load
  · cases load
    exact ⟨few,rfl⟩
  split at load
  · cases load
  dsimp only at load
  split at load
  · cases load
    exact ⟨few,rfl⟩
  · cases load
    have short := List.length_take_le (min bufferSize (limits.maxCompressedBytes - reader.compressedBytes)) reader.source
    exact ⟨show reader.compressedBytes + _ ≤ _ by omega,rfl⟩

theorem roundWithin {reader next : InflateReader zlib} {outcome : Option Bool} (few : reader.compressedBytes ≤ limits.maxCompressedBytes)
    (small : reader.decompressedBytes ≤ limits.maxDecompressedBytes) (round : inflateRound limits reader = .ok (next,outcome)) :
    next.compressedBytes ≤ limits.maxCompressedBytes ∧ next.decompressedBytes ≤ limits.maxDecompressedBytes := by
  unfold inflateRound at round
  dsimp only at round
  split at round
  · cases round
  · rename_i room
    split at round
    · cases round
    · cases round
      exact ⟨few,show reader.decompressedBytes + _ ≤ _ by omega⟩
    · cases round
      exact ⟨few,show reader.decompressedBytes + _ ≤ _ by omega⟩

theorem fillWithin {reader next : InflateReader zlib} {answer : Bool} (few : reader.compressedBytes ≤ limits.maxCompressedBytes)
    (small : reader.decompressedBytes ≤ limits.maxDecompressedBytes) (fill : fillOutput limits reader = .ok (next,answer)) :
    next.compressedBytes ≤ limits.maxCompressedBytes ∧ next.decompressedBytes ≤ limits.maxDecompressedBytes := by
  unfold fillOutput at fill
  split at fill
  · cases fill
    exact ⟨few,small⟩
  · let kept (reader : InflateReader zlib) : Prop := reader.compressedBytes ≤ limits.maxCompressedBytes ∧
      reader.decompressedBytes ≤ limits.maxDecompressedBytes
    refine @fillLoopRule zlib limits kept kept ?_ ?_ _ { reader with output := [] } next answer ⟨few,small⟩ fill
    · rintro loading loaded more ⟨few,small⟩ load
      obtain ⟨fewer,same⟩ := loadWithin few load
      exact ⟨fewer,same.le.trans small⟩
    · rintro before after outcome ⟨few,small⟩ round
      rw [ite_self]
      exact roundWithin few small round

theorem Accounts.read {made : Produced} {d : Decoder zlib} (accounts : Accounts limits made d) {reader : InflateReader zlib}
    (few : reader.compressedBytes ≤ limits.maxCompressedBytes) (small : reader.decompressedBytes ≤ limits.maxDecompressedBytes) :
    Accounts limits made { d with reader } :=
  ⟨⟨few,small,accounts.rules,accounts.values,accounts.strings,accounts.entries,accounts.entryBytes⟩,accounts.enoughRules,
    accounts.enoughEntries,
    accounts.enoughBytes⟩

theorem savesFillReader : Saves limits (fillReader limits : Decode zlib Bool) := by
  intro made
  refine alwaysRead fun at_ => ?_
  split
  · exact .throw
  · rename_i reader more fill
    refine .bind (R := fun _ => Accounts limits made) (.modify ?_) fun _ => .pure fun _ accounts => accounts
    rintro d ⟨rfl,accounts⟩
    obtain ⟨few,small⟩ := fillWithin accounts.compressed accounts.decompressed fill
    have kept := accounts.read few small
    exact ⟨kept.toWithin,kept⟩

theorem savesTakeOutput : Saves limits (takeOutput : Decode zlib (Option UInt8)) := by
  intro made
  refine alwaysRead fun at_ => ?_
  split
  · exact .pure fun _ before => before.2
  · rename_i byte rest stored
    refine .bind (R := fun _ => Accounts limits made) (.modify ?_) fun _ => .pure fun _ accounts => accounts
    rintro d ⟨rfl,accounts⟩
    have kept := @Accounts.read zlib limits made d accounts { d.reader with output := rest } accounts.compressed accounts.decompressed
    exact ⟨kept.toWithin,kept⟩

theorem savesTryReadByte : Saves limits (tryReadByte limits : Decode zlib (Option UInt8)) := by
  refine savesThen savesTakeOutput fun taken => ?_
  cases taken with
  | some byte => exact spendsPure rfl
  | none => exact savesThen savesFillReader fun more => spendsIte (fun _ => savesTakeOutput) fun _ => spendsPure rfl

theorem savesReadByte : Saves limits (readByte limits what : Decode zlib UInt8) := by
  refine savesThen savesTryReadByte fun taken => ?_
  cases taken with
  | some byte => exact spendsPure rfl
  | none => exact spendsFail

theorem savesReadExact {size : Nat} : Saves limits (readExact limits what size : Decode zlib Bytes) := by
  induction size with
  | zero => exact spendsPure rfl
  | succ size ih => exact savesThen savesReadByte fun _ => savesThen ih fun _ => spendsPure rfl

theorem savesRequireCleanEnd : Saves limits (requireCleanEnd limits : Decode zlib Unit) := by
  refine savesThen savesTryReadByte fun _ => savesThen savesFailIf fun _ => ?_
  intro made
  refine alwaysRead fun at_ => ?_
  exact ((savesThen savesFailIf fun _ => savesFailIf) made).strengthen fun _ before => before.2

theorem savesCheckedSize {value limit : Nat} : Saves limits (checkedSize value limit what : Decode zlib Nat) :=
  spendsIte (fun _ => spendsFail) fun _ => spendsPure rfl

theorem savesReadUvarint : Saves limits (readUvarint limits what : Decode zlib UInt64) := by
  suffices ∀ left index value, Saves limits (readUvarintFrom limits what left index value : Decode zlib UInt64) from this 10 0 0
  intro left
  induction left with
  | zero => exact fun _ _ => spendsFail
  | succ left ih =>
    exact fun index value => savesThen savesReadByte fun _ => savesThen savesFailIf fun _ =>
      spendsIte (fun _ => savesThen savesFailIf fun _ => spendsPure rfl) fun _ => ih _ _

theorem savesReadCount {limit : Nat} : Saves limits (readCount limits limit what : Decode zlib Nat) :=
  savesThen savesReadUvarint fun _ => savesCheckedSize

theorem savesReadBeU64 : Saves limits (readBeU64 limits what : Decode zlib UInt64) := savesThen savesReadExact fun _ => spendsPure rfl

theorem savesReadBeU16 : Saves limits (readBeU16 limits what : Decode zlib UInt16) := savesThen savesReadExact fun _ => spendsPure rfl

theorem savesReadBool : Saves limits (readBool limits what : Decode zlib Bool) :=
  savesThen savesReadByte fun _ => savesThen savesFailIf fun _ => spendsPure rfl

theorem spendsAccount {full : Decoder zlib → Prop} [DecidablePred full] {message : String} {count : Decoder zlib → Decoder zlib}
    {spent : Produced}
    (counts : ∀ {made d}, ¬full d → Accounts limits made d → Accounts limits (made.add spent) (count d)) :
    Spends limits (do let decoder ← get; failIf (full decoder) message; modify count : Decode zlib Unit) fun _ => spent := by
  intro made
  refine alwaysRead fun at_ => alwaysBindFailIf fun room => .modify ?_
  rintro d ⟨rfl,accounts⟩
  have kept := counts room accounts
  exact ⟨kept.toWithin,kept⟩

theorem savesAccountValues {count : Nat} : Saves limits (accountValues limits count what : Decode zlib Unit) :=
  spendsAccount fun {_ d} _ accounts => { accounts with values := show d.totalValues + count ≤ _ by have := accounts.values; omega }

theorem savesAccountStringBytes {count : Nat} : Saves limits (accountStringBytes limits count : Decode zlib Unit) :=
  spendsAccount fun {_ d} _ accounts => { accounts with strings := show d.totalStringBytes + count ≤ _ by have := accounts.strings; omega }

theorem spendsAccountOutput {count : Nat} : Spends limits (accountOutput limits count : Decode zlib Unit) fun _ => { entries := count } :=
  spendsAccount fun {_ d} _ accounts =>
    { accounts with
      entries := show d.decodedOutputEntries + count ≤ _ by have := accounts.entries; omega
      enoughEntries := Nat.add_le_add_right accounts.enoughEntries count }

theorem spendsAccountOutputStringBytes {count : Nat} :
    Spends limits (accountOutputStringBytes limits count : Decode zlib Unit) fun _ => { bytes := count } :=
  spendsAccount fun {_ d} _ accounts =>
    { accounts with
      entryBytes := show d.decodedOutputStringBytes + count ≤ _ by have := accounts.entryBytes; omega
      enoughBytes := Nat.add_le_add_right accounts.enoughBytes count }

theorem spendsCountRule : Spends limits (countRule limits : Decode zlib Unit) fun _ => { rules := 1 } :=
  spendsAccount fun {_ d} _ accounts =>
    { accounts with
      rules := show d.totalRules + 1 ≤ _ by omega
      enoughRules := Nat.add_le_add_right accounts.enoughRules 1 }

theorem savesReadMany {read : Nat → Decode zlib α} (each : ∀ index, Saves limits (read index)) {count : Nat} :
    ∀ index, Saves limits (readMany read index count) := by
  induction count with
  | zero => exact fun _ => spendsPure rfl
  | succ count ih => exact fun index => savesThen (each index) fun _ => savesThen (ih (index + 1)) fun _ => spendsPure rfl

theorem savesSkipStringList : Saves limits (skipStringList limits what : Decode zlib (List Bytes)) :=
  savesThen savesReadCount fun _ => savesThen savesAccountValues fun _ => savesReadMany (fun _ =>
    savesThen savesReadCount fun _ => savesThen savesAccountStringBytes fun _ => savesReadExact) 0

theorem savesSkipU16List : Saves limits (skipU16List limits what : Decode zlib (List UInt16)) :=
  savesThen savesReadCount fun _ => savesThen savesAccountValues fun _ => savesReadMany (fun _ => savesReadBeU16) 0

theorem savesSkipU8List : Saves limits (skipU8List limits what : Decode zlib Bytes) :=
  savesThen savesReadCount fun _ => savesThen savesAccountValues fun _ => savesReadExact

theorem savesReadAddress : Saves limits (readAddress limits what : Decode zlib IpAddress) :=
  savesThen savesReadCount fun _ => savesThen savesFailIf fun _ => savesReadExact

theorem savesSkipPrefix : Saves limits (skipPrefix limits what : Decode zlib (IpAddress × UInt8)) :=
  savesThen savesReadAddress fun _ => savesThen savesReadByte fun _ => savesThen savesFailIf fun _ => spendsPure rfl

theorem savesReadWordVector : Saves limits (readWordVector limits what : Decode zlib (List UInt64)) :=
  savesThen savesReadCount fun _ => savesReadMany (fun _ => savesReadBeU64) 0

theorem savesReadByteVector {limit : Nat} : Saves limits (readByteVector limits limit what : Decode zlib Bytes) :=
  savesThen savesReadCount fun _ => savesReadExact

theorem savesLiftExcept {outcome : Except String α} : Saves limits (liftExcept outcome : Decode zlib α) := by
  cases outcome with
  | ok a => exact spendsPure rfl
  | error message => exact spendsFail

theorem savesReadTrie : Saves limits (readTrie limits what : Decode zlib Trie) :=
  savesThen savesReadByte fun _ => savesThen savesFailIf fun _ => savesThen savesReadWordVector fun _ =>
    savesThen savesReadWordVector fun _ =>
    savesThen savesReadByteVector fun _ => savesThen savesFailIf fun _ => savesThen savesFailIf fun _ => savesThen savesFailIf fun _ =>
    savesThen savesFailIf fun _ => savesThen savesLiftExcept fun _ => savesThen savesFailIf fun _ => savesThen savesFailIf fun _ =>
    savesThen savesFailIf fun _ => spendsPure rfl

theorem savesSkipInterfaces (left : Nat) : ∀ seen, Saves limits (skipInterfaces limits what left seen : Decode zlib _) := by
  induction left with
  | zero => exact fun _ => spendsPure rfl
  | succ left ih =>
    exact fun seen => savesThen savesReadByte fun _ => savesThen savesFailIf fun _ => savesThen savesReadCount fun _ =>
      savesThen savesAccountValues fun _ => savesThen (savesReadMany (fun _ => savesSkipPrefix) 0) fun _ =>
        savesThen (ih _) fun _ => spendsPure rfl

theorem savesSkipPrefixList : Saves limits (skipPrefixList limits what : Decode zlib (List (IpAddress × UInt8))) :=
  savesThen savesReadCount fun _ => savesThen savesAccountValues fun _ => savesReadMany (fun _ => savesSkipPrefix) 0

end Reading

section Results
variable {zlib : Zlib} {limits : SrsDecodeLimits} {context field : String} {version : UInt8} {α β : Type}

instance : LE Produced := ⟨fun less more => less.rules ≤ more.rules ∧ less.entries ≤ more.entries ∧ less.bytes ≤ more.bytes⟩

variable (limits) in
def Grows (held : Produced) (m : Decode zlib α) (total : α → Produced) : Prop :=
  ∀ made : Produced, Always (Within limits) (Accounts limits (made.add held)) m fun a => Accounts limits (made.add (total a))

theorem growsLess {held : Produced} {m : Decode zlib α} {total less : α → Produced} (grows : Grows limits held m total)
    (le : ∀ a, less a ≤ total a) : Grows limits held m less :=
  fun made => (grows made).weaken fun a _ accounts => accounts.less (Nat.add_le_add_left (le a).1 made.rules)
    (Nat.add_le_add_left (le a).2.1 made.entries) (Nat.add_le_add_left (le a).2.2 made.bytes)

theorem growsPure {held : Produced} {a : α} {total : α → Produced} (le : total a ≤ held) :
    Grows limits held (pure a : Decode zlib α) total :=
  fun made => .pure fun _ accounts => accounts.less (Nat.add_le_add_left le.1 made.rules) (Nat.add_le_add_left le.2.1 made.entries)
    (Nat.add_le_add_left le.2.2 made.bytes)

theorem growsThen {held : Produced} {m : Decode zlib α} {f : α → Decode zlib β} {middle : α → Produced} {total : β → Produced}
    (first : Grows limits held m middle) (rest : ∀ a, Grows limits (middle a) (f a) total) : Grows limits held (m >>= f) total :=
  fun made => .bind (first made) fun a => rest a made

theorem growsSpends {held : Produced} {m : Decode zlib α} {cost : α → Produced} (spends : Spends limits m cost) :
    Grows limits held m fun a => held.add (cost a) := by
  intro made
  refine (spends (made.add held)).weaken fun a d accounts => ?_
  simpa only [Produced.add,Nat.add_assoc] using accounts

theorem growsSaves {held : Produced} {m : Decode zlib α} {f : α → Decode zlib β} {total : β → Produced} (first : Saves limits m)
    (rest : ∀ a, Grows limits held (f a) total) : Grows limits held (m >>= f) total := growsThen (growsSpends first) rest

theorem growsIte {c : Prop} [Decidable c] {held : Produced} {m n : Decode zlib α} {total : α → Produced} (yes : Grows limits held m total)
    (no : Grows limits held n total) :
    Grows limits held (if c then m else n) total := fun made => alwaysIte (fun _ => yes made) fun _ => no made

theorem growsFail {held : Produced} {message : String} {total : α → Produced} : Grows limits held (fail message : Decode zlib α) total :=
  fun _ => .throw

theorem growsStart {m : Decode zlib α} {total : α → Produced} (grows : Grows limits {} m total) : Spends limits m total := grows

def weight {γ : Type} (values : List (List γ)) : Nat := (values.map List.length).sum

@[simp] theorem weightNil {γ : Type} : weight ([] : List (List γ)) = 0 := rfl

@[simp] theorem weightCons {γ : Type} {value : List γ} {rest : List (List γ)} : weight (value :: rest) = value.length + weight rest := rfl

@[simp] theorem weightAppend {γ : Type} {left right : List (List γ)} : weight (left ++ right) = weight left + weight right := by
  simp [weight]

theorem weightSublist {γ : Type} {less more : List (List γ)} (sub : less.Sublist more) : weight less ≤ weight more := by
  induction sub with
  | slnil => exact Nat.le_refl _
  | cons value sub ih =>
    rw [weightCons]
    exact ih.trans (Nat.le_add_left _ _)
  | cons_cons value sub ih =>
    rw [weightCons,weightCons]
    exact Nat.add_le_add_left ih _

theorem sortUniqueLength {γ : Type} [DecidableEq γ] {less : γ → γ → Bool} {values : List γ} :
    (sortUnique less values).length ≤ values.length := by
  rw [sortUnique,List.length_insertionSort]
  exact (List.dedup_sublist values).length_le

theorem sortUniqueWeight {γ : Type} [DecidableEq γ] {less : List γ → List γ → Bool} {values : List (List γ)} :
    weight (sortUnique less values) ≤ weight values := by
  have same : weight (sortUnique less values) = weight values.dedup := ((List.perm_insertionSort _ _).map _).sum_nat
  rw [same]
  exact weightSublist (List.dedup_sublist values)

def cidrCost (cidrs : List Cidr) : Produced := { entries := cidrs.length, bytes := weight (cidrs.map Cidr.text) }

def RuleExtraction.cost (extraction : RuleExtraction) : Produced where
  entries := extraction.domains.length + extraction.suffixes.length + extraction.cidrs.length
  bytes := weight extraction.domains + weight extraction.suffixes + weight extraction.cidrs

def DomainKeys.cost (keys : DomainKeys) : Produced where
  entries := keys.exactDomains.length + keys.legacyPrefixes.length + keys.rootSuffixes.length
  bytes := weight keys.exactDomains + weight keys.legacyPrefixes + weight keys.rootSuffixes

theorem spendsEmitCidr {cidr : Cidr} : Spends limits (emitCidr limits cidr : Decode zlib Unit) fun _ => cidrCost [cidr] :=
  growsStart (growsThen (growsSpends spendsAccountOutput) fun _ => growsLess (growsSpends spendsAccountOutputStringBytes) fun _ =>
    ⟨Nat.le_refl _,Nat.le_refl _,by simp [cidrCost,Produced.add]⟩)

theorem spendsConvertRange {item : String} {fuel : Nat} {left right : IpAddress} :
    Spends limits (convertRange limits item fuel left right : Decode zlib (List Cidr)) cidrCost := by
  induction fuel generalizing left with
  | zero => exact spendsFail
  | succ fuel ih =>
    rw [convertRange]
    refine spendsIte (fun _ => spendsPure rfl) fun _ => growsStart (growsThen (growsSpends spendsEmitCidr) fun _ => ?_)
    split
    · exact growsPure ⟨Nat.le_refl _,Nat.le_refl _,by simp [Produced.add]⟩
    · exact growsFail
    · refine growsThen (growsSpends ih) fun rest => growsPure ?_
      change 0 ≤ 0 ∧ _ ≤ _ ∧ _ ≤ _
      simp only [Produced.add,cidrCost,List.length_cons,List.length_nil,List.map_cons,List.map_nil,weightCons,weightNil]
      omega

theorem spendsRangeCidrs {item : String} {extract : Bool} {left right : IpAddress} :
    Spends limits (rangeCidrs limits item extract left right : Decode zlib (List Cidr)) cidrCost :=
  spendsIte (fun _ => spendsConvertRange) fun _ => spendsPure rfl

theorem spendsReadRanges {extract : Bool} {left index : Nat} {previousEnd : Option IpAddress} :
    Spends limits (readRanges limits context extract left index previousEnd : Decode zlib _) fun read => cidrCost read.2 := by
  induction left generalizing index previousEnd with
  | zero => exact spendsPure rfl
  | succ left ih =>
    refine savesThen savesReadAddress fun _ => savesThen savesReadAddress fun _ => savesThen savesFailIf fun _ =>
      savesThen savesFailIf fun _ =>
      savesThen savesFailIf fun _ =>
        growsStart (growsThen (growsSpends spendsRangeCidrs) fun cidrs => growsThen (growsSpends ih) fun later => growsPure ?_)
    change 0 ≤ 0 ∧ _ ≤ _ ∧ _ ≤ _
    simp only [Produced.add,cidrCost,List.length_append,List.map_append,weightAppend]
    omega

theorem spendsReadIpSet {extract : Bool} :
    Spends limits (readIpSet limits context extract : Decode zlib _) fun read => cidrCost read.2 :=
  savesThen savesReadByte fun _ => savesThen savesFailIf fun _ => savesThen savesReadBeU64 fun _ => savesThen savesCheckedSize fun _ =>
    savesThen savesAccountValues fun _ => spendsReadRanges

theorem growsEmitLeaf {reversedKey : Bytes} {keys : DomainKeys} :
    Grows limits keys.cost (emitLeaf limits context reversedKey keys : Decode zlib DomainKeys) DomainKeys.cost := by
  refine growsSaves savesFailIf fun _ => growsSaves savesLiftExcept fun key => growsThen (growsSpends spendsAccountOutput) fun _ =>
    growsThen (growsSpends spendsAccountOutputStringBytes) fun _ => ?_
  have shorter := key.length_tail
  refine growsIte (growsSaves savesLiftExcept fun _ => growsPure ?_) (growsIte (growsSaves savesLiftExcept fun _ => growsPure ?_)
    (growsSaves savesLiftExcept fun _ => growsPure ?_))
  all_goals
    change 0 ≤ 0 ∧ _ ≤ _ ∧ _ ≤ _
    simp only [Produced.add,DomainKeys.cost,List.length_append,List.length_cons,List.length_nil,weightAppend,weightCons,weightNil]
    omega

theorem growsWalkTrie {trie : Trie} {fuel : Nat} {stack : List Frame} {reversedKey : Bytes} {keys : DomainKeys} :
    Grows limits keys.cost (walkTrie limits context trie fuel stack reversedKey keys : Decode zlib DomainKeys) DomainKeys.cost := by
  induction fuel generalizing stack reversedKey keys with
  | zero => exact growsFail
  | succ fuel ih =>
    cases stack with
    | nil => exact growsPure ⟨Nat.le_refl _,Nat.le_refl _,Nat.le_refl _⟩
    | cons frame below =>
      have same (keys : DomainKeys) : Grows limits keys.cost (pure keys : Decode zlib DomainKeys) DomainKeys.cost :=
        growsPure ⟨Nat.le_refl _,Nat.le_refl _,Nat.le_refl _⟩
      have visit : Grows limits keys.cost (visitNode limits context trie frame.node reversedKey keys : Decode zlib DomainKeys)
        DomainKeys.cost :=
        growsIte growsEmitLeaf (same keys)
      rw [walkTrie]
      exact growsIte (growsThen (same keys) fun _ => growsIte (growsSaves savesFailIf fun _ => ih) ih)
        (growsThen visit fun _ => growsIte (growsSaves savesFailIf fun _ => ih) ih)

theorem promotedLength {exactDomains : List Bytes} {raw root : Bytes} (found : promotedRoot exactDomains raw = some root) :
    root.length ≤ raw.length := by
  obtain ⟨rfl,_⟩ := promotedIff.mp found
  exact Nat.le_succ _

theorem promotedWeight {exactDomains : List Bytes} (raws : List Bytes) :
    (raws.filterMap (promotedRoot exactDomains)).length ≤ raws.length ∧
      weight (raws.filterMap (promotedRoot exactDomains)) ≤ weight raws := by
  induction raws with
  | nil => exact ⟨Nat.le_refl _,Nat.le_refl _⟩
  | cons raw rest ih =>
    rw [List.filterMap_cons]
    split
    · rw [List.length_cons,weightCons]
      omega
    · rename_i root found
      have shorter := promotedLength found
      rw [List.length_cons,List.length_cons,weightCons,weightCons]
      omega

theorem matcherCost (keys : DomainKeys) : (matcherLists keys).1.cost ≤ keys.cost := by
  obtain ⟨fewPromoted,lightPromoted⟩ := @promotedWeight (sortUnique addressLess keys.exactDomains)
    (sortUnique addressLess keys.legacyPrefixes)
  have kept := @List.filter_sublist _ (fun domain => !((sortUnique addressLess keys.legacyPrefixes).filterMap
    (promotedRoot (sortUnique addressLess keys.exactDomains))).contains domain) (sortUnique addressLess keys.exactDomains)
  have fewKept := kept.length_le
  have lightKept := weightSublist kept
  have fewExact := @sortUniqueLength _ _ addressLess keys.exactDomains
  have lightExact := @sortUniqueWeight _ _ addressLess keys.exactDomains
  have fewLegacy := @sortUniqueLength _ _ addressLess keys.legacyPrefixes
  have lightLegacy := @sortUniqueWeight _ _ addressLess keys.legacyPrefixes
  have fewRoots := @sortUniqueLength _ _ addressLess keys.rootSuffixes
  have lightRoots := @sortUniqueWeight _ _ addressLess keys.rootSuffixes
  have fewSuffixes := @sortUniqueLength _ _ addressLess (sortUnique addressLess keys.rootSuffixes ++
    (sortUnique addressLess keys.legacyPrefixes).filterMap (promotedRoot (sortUnique addressLess keys.exactDomains)))
  have lightSuffixes := @sortUniqueWeight _ _ addressLess (sortUnique addressLess keys.rootSuffixes ++
    (sortUnique addressLess keys.legacyPrefixes).filterMap (promotedRoot (sortUnique addressLess keys.exactDomains)))
  rw [List.length_append] at fewSuffixes
  rw [weightAppend] at lightSuffixes
  refine ⟨Nat.le_refl _,?_,?_⟩
  · calc (matcherLists keys).1.cost.entries
      _ = (matcherLists keys).1.domains.length + (matcherLists keys).1.suffixes.length := Nat.add_zero _
      _ ≤ _ := Nat.add_le_add fewKept fewSuffixes
      _ ≤ keys.exactDomains.length + (keys.rootSuffixes.length + keys.legacyPrefixes.length) :=
        Nat.add_le_add fewExact (Nat.add_le_add fewRoots (fewPromoted.trans fewLegacy))
      _ = keys.cost.entries := by simp only [DomainKeys.cost]; omega
  · calc (matcherLists keys).1.cost.bytes
      _ = weight (matcherLists keys).1.domains + weight (matcherLists keys).1.suffixes := Nat.add_zero _
      _ ≤ _ := Nat.add_le_add lightKept lightSuffixes
      _ ≤ weight keys.exactDomains + (weight keys.rootSuffixes + weight keys.legacyPrefixes) :=
        Nat.add_le_add lightExact (Nat.add_le_add lightRoots (lightPromoted.trans lightLegacy))
      _ = keys.cost.bytes := by simp only [DomainKeys.cost]; omega

theorem spendsReadDomainMatcher :
    Spends limits (readDomainMatcher limits context : Decode zlib (Trie × RuleExtraction)) fun read => read.2.cost := by
  refine savesThen savesReadTrie fun trie =>
    growsStart (growsThen (show Grows limits ({} : DomainKeys).cost _ _ from growsWalkTrie) fun keys => growsSaves ?_ fun _ =>
    growsPure (matcherCost keys))
  exact savesModify (fun _ => rfl) (fun _ => rfl) (fun _ => rfl) (fun _ => rfl) (fun _ => rfl) fun _ => rfl

theorem savesSkipInterfaceAddressMap : Saves limits (skipInterfaceAddressMap limits context : Decode zlib _) :=
  savesThen savesReadCount fun _ => savesThen savesAccountValues fun _ => savesSkipInterfaces _ _

theorem spendsSkipTexts : Spends limits (skipTexts limits field : Decode zlib _) fun read => read.2.cost :=
  savesThen savesSkipStringList fun _ => spendsPure rfl

theorem spendsSkipWords : Spends limits (skipWords limits field : Decode zlib _) fun read => read.2.cost :=
  savesThen savesSkipU16List fun _ => spendsPure rfl

theorem spendsReadItem (item : RuleItem) :
    Spends limits (readItem limits version context field item : Decode zlib _) fun read => read.2.cost := by
  cases item with
  | domain =>
    refine growsStart (growsThen (growsSpends spendsReadDomainMatcher) fun read => growsPure ⟨Nat.le_refl _,?_,?_⟩)
    · simp [Produced.add,RuleExtraction.cost]
    · simp [Produced.add,RuleExtraction.cost]
  | ipCidr =>
    refine growsStart (growsThen (growsSpends spendsReadIpSet) fun read => growsPure ⟨Nat.le_refl _,?_,?_⟩)
    · simp [Produced.add,RuleExtraction.cost,cidrCost]
    · simp [Produced.add,RuleExtraction.cost,cidrCost]
  | sourceIpCidr =>
    exact growsStart (growsThen (growsSpends spendsReadIpSet) fun read => growsPure ⟨Nat.le_refl _,Nat.zero_le _,Nat.zero_le _⟩)
  | queryType | sourcePort | port => exact spendsSkipWords
  | network | sourcePortRange | portRange | processName | processPath | packageName | wifiSsid | wifiBssid | processPathRegex | domainKeyword
  | domainRegex => exact spendsSkipTexts
  | packageNameRegex => exact savesThen savesFailIf fun _ => spendsSkipTexts
  | adGuardDomain => exact savesThen savesFailIf fun _ => savesThen savesReadTrie fun _ => spendsPure rfl
  | networkType => exact savesThen savesFailIf fun _ => savesThen savesSkipU8List fun _ => spendsPure rfl
  | networkIsExpensive | networkIsConstrained => exact savesThen savesFailIf fun _ => spendsPure rfl
  | networkInterfaceAddress => exact savesThen savesFailIf fun _ => savesThen savesSkipInterfaceAddressMap fun _ => spendsPure rfl
  | defaultInterfaceAddress => exact savesThen savesFailIf fun _ => savesThen savesSkipPrefixList fun _ => spendsPure rfl

theorem appendCost (left right : RuleExtraction) : (left.append right).cost = left.cost.add right.cost := by
  refine Produced.ext rfl ?_ ?_
  · simp only [RuleExtraction.cost,RuleExtraction.append,Produced.add,List.length_append]
    omega
  · simp only [RuleExtraction.cost,RuleExtraction.append,Produced.add,weightAppend]
    omega

mutual

def SrsRule.size : SrsRule → Nat
  | .default _ _ => 1
  | .logical _ children _ => sizes children + 1

def sizes : List SrsRule → Nat
  | [] => 0
  | rule :: rest => rule.size + sizes rest

end

mutual

def SrsRule.nesting : SrsRule → Nat
  | .default _ _ => 0
  | .logical _ children _ => nestings children

def nestings : List SrsRule → Nat
  | [] => 0
  | rule :: rest => max (rule.nesting + 1) (nestings rest)

end

abbrev Read := SrsRule × RuleExtraction

def ruleCost (read : Read) : Produced := { read.2.cost with rules := read.1.size }

def innerCost (read : Read) : Produced := { read.2.cost with rules := read.1.size - 1 }

def rulesCost : List Read → Produced
  | [] => {}
  | read :: rest => (ruleCost read).add (rulesCost rest)

theorem rulesCostEq (children : List Read) :
    rulesCost children = { (combine children).cost with rules := sizes (children.map Prod.fst) } := by
  suffices ∀ combined : RuleExtraction, combined.cost.add (rulesCost children) =
      { (children.foldl (fun combined child => combined.append child.2) combined).cost with rules := sizes (children.map Prod.fst) } by
    have nothing := this {}
    rw [Produced.ext_iff] at nothing ⊢
    simpa [Produced.add,RuleExtraction.cost,combine] using nothing
  induction children with
  | nil => exact fun _ => rfl
  | cons read rest ih =>
    intro combined
    rw [List.foldl_cons,List.map_cons,sizes]
    have later := ih (combined.append read.2)
    rw [appendCost] at later
    rw [Produced.ext_iff] at later ⊢
    simp only [Produced.add,rulesCost,ruleCost,RuleExtraction.cost] at later ⊢
    omega

theorem spendsReadMany {read : Nat → Decode zlib Read} (each : ∀ index, Spends limits (read index) ruleCost) {count : Nat} :
    ∀ index, Spends limits (readMany read index count) rulesCost := by
  induction count with
  | zero => exact fun _ => spendsPure rfl
  | succ count ih =>
    exact fun index => growsStart (growsThen (growsSpends (each index)) fun first => growsThen (growsSpends (ih (index + 1))) fun rest =>
      growsPure ⟨by simp [Produced.add,rulesCost],by simp [Produced.add,rulesCost],by simp [Produced.add,rulesCost]⟩)

theorem savesCountInverted : Saves limits (countInverted : Decode zlib Unit) :=
  savesModify (fun _ => rfl) (fun _ => rfl) (fun _ => rfl) (fun _ => rfl) (fun _ => rfl) fun _ => rfl

theorem savesCountSkipped : Saves limits (countSkipped : Decode zlib Unit) :=
  savesModify (fun _ => rfl) (fun _ => rfl) (fun _ => rfl) (fun _ => rfl) (fun _ => rfl) fun _ => rfl

theorem savesCountUnsupported {item : RuleItem} : Saves limits (countUnsupported item : Decode zlib Unit) :=
  savesModify (fun _ => rfl) (fun _ => rfl) (fun _ => rfl) (fun _ => rfl) (fun _ => rfl) fun _ => rfl

theorem growsFinishDefault {collected : Collected} :
    Grows limits collected.extracted.cost (finishDefault limits context collected : Decode zlib Read) innerCost := by
  refine growsSaves savesReadBool fun invert => growsIte (growsSaves savesCountInverted fun _ => growsPure ?_)
    (growsIte (growsSaves savesCountSkipped fun _ => growsPure ?_) (growsPure ?_))
  · exact ⟨Nat.zero_le _,Nat.zero_le _,Nat.zero_le _⟩
  · exact ⟨Nat.zero_le _,Nat.zero_le _,Nat.zero_le _⟩
  · exact ⟨Nat.zero_le _,Nat.le_refl _,Nat.le_refl _⟩

theorem spendsReadItemOf {raw : UInt8} :
    Spends limits (readItemOf limits version context raw : Decode zlib _) fun read => read.2.2.cost := by
  unfold readItemOf
  split
  · exact spendsFail
  · exact growsStart (growsThen (growsSpends (spendsReadItem _)) fun read => growsSaves savesCountUnsupported fun _ =>
      growsPure ⟨Nat.zero_le _,by simp [Produced.add],by simp [Produced.add]⟩)

theorem growsReadItems {left : Nat} {collected : Collected} :
    Grows limits collected.extracted.cost (readItems limits version context left collected : Decode zlib Read) innerCost := by
  induction left generalizing collected with
  | zero => exact growsSaves savesReadByte fun raw => growsIte growsFinishDefault growsFail
  | succ left ih =>
    refine growsSaves savesReadByte fun raw => growsIte growsFinishDefault (growsSaves savesFailIf fun _ =>
      growsThen (growsSpends spendsReadItemOf) fun read => ?_)
    have next := @ih (collected.add raw read.1 read.2.1 read.2.2)
    rw [Collected.add,appendCost] at next
    exact next

theorem growsFinishLogical {or : Bool} {children : List Read} :
    Grows limits (rulesCost children) (finishLogical limits context or children : Decode zlib Read) innerCost := by
  rw [rulesCostEq]
  refine growsSaves savesReadBool fun invert => growsIte (growsSaves savesCountInverted fun _ => growsPure ?_)
    (growsIte (growsSaves savesCountSkipped fun _ => growsPure ?_) (growsPure ?_))
  · exact ⟨Nat.le_refl _,Nat.zero_le _,Nat.zero_le _⟩
  · exact ⟨Nat.le_refl _,Nat.zero_le _,Nat.zero_le _⟩
  · exact ⟨Nat.le_refl _,Nat.le_refl _,Nat.le_refl _⟩

theorem growsCounted {m : Decode zlib Read} (inner : Grows limits {} m innerCost) : Grows limits { rules := 1 } m ruleCost := by
  intro made
  refine (inner (made.add { rules := 1 })).weaken fun read d accounts => accounts.less ?_ (Nat.le_refl _) (Nat.le_refl _)
  simp only [Produced.add,ruleCost,innerCost]
  omega

theorem spendsReadRule {levels : Nat} :
    ∀ {context : String}, Spends limits (readRule limits version levels context : Decode zlib Read) ruleCost := by
  induction levels with
  | zero => exact fun {_} => spendsFail
  | succ levels ih =>
    intro context
    rw [readRule]
    refine growsStart (growsThen (growsSpends spendsCountRule) fun _ => growsCounted ?_)
    refine growsSaves savesReadByte fun type => growsIte (show Grows limits ({} : Collected).extracted.cost _ _ from growsReadItems)
      (growsIte ?_ growsFail)
    exact growsSaves savesReadByte fun mode => growsSaves savesFailIf fun _ => growsSaves savesReadCount fun _ =>
      growsSaves savesFailIf fun _ =>
      growsThen (spendsReadMany (fun _ => ih) 0) fun _ => growsFinishLogical

theorem nestingsLe {children : List SrsRule} {levels : Nat} (each : ∀ child ∈ children, child.nesting < levels) :
    nestings children ≤ levels := by
  induction children with
  | nil => exact Nat.zero_le _
  | cons child rest ih =>
    rw [nestings]
    exact Nat.max_le.mpr ⟨each child List.mem_cons_self,ih fun other listed => each other (List.mem_cons_of_mem _ listed)⟩

theorem yieldsAny {m : Decode zlib α} : Yields m fun _ => True := by
  intro v s same
  unfold wp
  cases m s with
  | ok a after => exact ⟨trivial,rfl⟩
  | error e after => exact trivial

theorem yieldsThen {m : Decode zlib α} {f : α → Decode zlib β} {P : β → Prop} (rest : ∀ a, Yields (f a) P) : Yields (m >>= f) P :=
  passesBind yieldsAny fun a _ => rest a

theorem finishDefaultNesting {collected : Collected} :
    Yields (finishDefault limits context collected : Decode zlib Read) fun read => read.1.nesting = 0 :=
  yieldsThen fun _ => passesIte (fun _ => yieldsThen fun _ => passesPure rfl) fun _ =>
    passesIte (fun _ => yieldsThen fun _ => passesPure rfl) fun _ => passesPure rfl

theorem readItemsNesting {left : Nat} {collected : Collected} :
    Yields (readItems limits version context left collected : Decode zlib Read) fun read => read.1.nesting = 0 := by
  induction left generalizing collected with
  | zero => exact yieldsThen fun _ => passesIte (fun _ => finishDefaultNesting) fun _ => passesThrow
  | succ left ih => exact yieldsThen fun _ => passesIte (fun _ => finishDefaultNesting) fun _ => yieldsThen fun _ => yieldsThen fun _ => ih

theorem finishLogicalNesting {or : Bool} {children : List Read} :
    Yields (finishLogical limits context or children : Decode zlib Read) fun read => read.1.nesting = nestings (children.map Prod.fst) :=
  yieldsThen fun _ => passesIte (fun _ => yieldsThen fun _ => passesPure rfl) fun _ =>
    passesIte (fun _ => yieldsThen fun _ => passesPure rfl) fun _ => passesPure rfl

theorem readRuleNesting {levels : Nat} : ∀ {context : String},
    Yields (readRule limits version levels context : Decode zlib Read) fun read => read.1.nesting < levels := by
  induction levels with
  | zero => exact fun {_} => passesThrow
  | succ levels ih =>
    intro context
    rw [readRule]
    refine yieldsThen fun _ => yieldsThen fun type => passesIte (fun _ => ?_) fun _ => passesIte (fun _ => ?_) fun _ => passesThrow
    · exact passesMono readItemsNesting fun read flat => flat.trans_lt (Nat.succ_pos levels)
    · refine yieldsThen fun mode => yieldsThen fun _ => yieldsThen fun count => yieldsThen fun _ =>
        passesBind (readManyPasses fun _ => ih) fun children each => passesMono finishLogicalNesting fun read same => ?_
      rw [same]
      refine Nat.lt_succ_of_le (nestingsLe fun child listed => ?_)
      obtain ⟨read,member,rfl⟩ := List.mem_map.mp listed
      exact each.2 read member

def SrsDecodeResult.entries (result : SrsDecodeResult) : Nat := result.domains.length + result.domainSuffixes.length + result.ipCidrs.length

def SrsDecodeResult.bytes (result : SrsDecodeResult) : Nat := weight result.domains + weight result.domainSuffixes + weight result.ipCidrs

def answerCost (answer : List SrsRule × SrsDecodeResult) : Produced := ⟨sizes answer.1,answer.2.entries,answer.2.bytes⟩

theorem spendsDecode : Spends limits (decode limits version : Decode zlib _) answerCost := by
  refine savesThen savesReadCount fun count => growsStart (growsThen (spendsReadMany (fun _ => spendsReadRule) 0) fun rules =>
    growsSaves savesRequireCleanEnd fun _ => ?_)
  intro made
  refine alwaysRead fun at_ => ((growsPure ?_ : Grows limits (rulesCost rules) (pure _ : Decode zlib _) answerCost) made).strengthen
    fun _ before => before.2
  rw [rulesCostEq]
  refine ⟨Nat.le_refl _,?_,?_⟩
  · exact Nat.add_le_add (Nat.add_le_add sortUniqueLength sortUniqueLength) sortUniqueLength
  · exact Nat.add_le_add (Nat.add_le_add sortUniqueWeight sortUniqueWeight) sortUniqueWeight

theorem decodeNesting : Yields (decode limits version : Decode zlib _) fun answer => ∀ rule ∈ answer.1,
    rule.nesting ≤ limits.maxLogicalDepth := by
  refine yieldsThen fun count => passesBind (readManyPasses fun _ => readRuleNesting) fun rules each => yieldsThen fun _ =>
    yieldsThen fun _ => passesPure ?_
  intro rule listed
  obtain ⟨read,member,rfl⟩ := List.mem_map.mp listed
  exact Nat.lt_succ_iff.mp (each.2 read member)

/- A decoder as decode_srs makes it. -/
def fresh (source : Bytes) (stream : zlib.State) : Decoder zlib := { reader := { source, stream } }

theorem freshAccounts (source : Bytes) (stream : zlib.State) : Accounts limits {} (fresh source stream) :=
  ⟨⟨Nat.zero_le _,Nat.zero_le _,Nat.zero_le _,Nat.zero_le _,Nat.zero_le _,Nat.zero_le _,Nat.zero_le _⟩,Nat.zero_le _,
    Nat.zero_le _,Nat.zero_le _⟩

theorem decodeSrsRuns {input : Bytes} {answer : List SrsRule × SrsDecodeResult} (decoded : decodeSrs zlib limits input = .ok answer) :
    ∃ version source stream after, decode limits version (fresh source stream : Decoder zlib) = .ok answer after := by
  unfold decodeSrs at decoded
  split at decoded
  · rename_i version source
    iterate 5
      split at decoded
      · cases decoded
    split at decoded
    · cases decoded
    · rename_i stream init
      split at decoded
      · rename_i found after run
        cases decoded
        exact ⟨version,source,stream,after,run⟩
      · cases decoded
  · cases decoded

end Results

/- What a decoder has produced, against its limits. -/
structure Bounded (limits : SrsDecodeLimits) (answer : List SrsRule × SrsDecodeResult) : Prop where
  rules : sizes answer.1 ≤ limits.maxRules
  nesting : ∀ rule ∈ answer.1, rule.nesting ≤ limits.maxLogicalDepth
  entries : answer.2.entries ≤ limits.maxOutputEntries
  bytes : answer.2.bytes ≤ limits.maxOutputStringBytes

end KeenPbr.Srs

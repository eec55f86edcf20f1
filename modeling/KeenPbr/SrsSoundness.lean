import KeenPbr.SrsRules

/-! Decoding never broadens a ruleset: an entry of the lists stands only for destinations that the ruleset
matches whatever the rest of the connection is. -/
namespace KeenPbr.Srs

structure Destination where
  name : Option Bytes
  address : Option IpAddress

/- What the decoder has no use for: the other constraints over the rest of the connection, and the other
ways to name a destination. -/
structure Meaning (Context : Type) where
  constraint : RuleItem → ItemContent → Context → Prop
  alternative : RuleItem → ItemContent → Destination → Prop

/- A name is matched by an exact key, at or below a root-inclusive key, or by ending in a subdomain-only key. -/
def Trie.MatchesName (trie : Trie) (name : Bytes) : Prop :=
  trie.ExactKey name ∨ (∃ root, trie.RootSuffix root ∧ AtOrBelow root name) ∨ ∃ value, trie.SubdomainOnly value ∧ value <:+ name

section Semantics
variable {Context : Type} (meaning : Meaning Context) (context : Context) (destination : Destination)

def destinationHolds : RuleItem × ItemContent → Prop
  | (.domain,.trie trie) => ∃ name, destination.name = some name ∧ trie.MatchesName name
  | (.ipCidr,.ranges ranges) => ∃ address, destination.address = some address ∧ InRanges ranges address
  | (item,content) => meaning.alternative item content destination

def itemsHold (items : List (RuleItem × ItemContent)) : Prop :=
  ((∃ item ∈ items, item.1.role ≠ .blockingConstraint) →
    ∃ item ∈ items, item.1.role ≠ .blockingConstraint ∧ destinationHolds meaning destination item) ∧
  ∀ item ∈ items, item.1.role = .blockingConstraint → meaning.constraint item.1 item.2 context

mutual

def SrsRule.Holds : SrsRule → Prop
  | .default items invert => Xor (itemsHold meaning context destination items) (invert = true)
  | .logical or children invert => Xor (if or then anyHolds children else allHold children) (invert = true)

def anyHolds : List SrsRule → Prop
  | [] => False
  | rule :: rest => rule.Holds ∨ anyHolds rest

def allHold : List SrsRule → Prop
  | [] => True
  | rule :: rest => rule.Holds ∧ allHold rest

end

end Semantics

/- Every entry of an extraction stands only for destinations of one kind. -/
structure Sound (holds : Destination → Prop) (extraction : RuleExtraction) : Prop where
  domains : ∀ domain ∈ extraction.domains, ∀ destination : Destination, destination.name = some domain → holds destination
  suffixes : ∀ suffix ∈ extraction.suffixes, ∀ destination : Destination, ∀ name, destination.name = some name →
    AtOrBelow suffix name → holds destination
  cidrs : ∀ text ∈ extraction.cidrs, ∃ cidr : Cidr, cidr.text = text ∧ ∀ destination : Destination, ∀ address,
    destination.address = some address → cidr.Covers address → holds destination

section Extractions
variable {holds other : Destination → Prop} {left right : RuleExtraction}

theorem soundEmpty : Sound holds {} where
  domains := fun _ none => by cases none
  suffixes := fun _ none => by cases none
  cidrs := fun _ none => by cases none

theorem soundMono (sound : Sound holds left) (wider : ∀ destination, holds destination → other destination) : Sound other left where
  domains := fun domain listed destination named => wider _ (sound.domains domain listed destination named)
  suffixes := fun suffix listed destination name named under => wider _ (sound.suffixes suffix listed destination name named under)
  cidrs := by
    intro text listed
    obtain ⟨cidr,spelled,covers⟩ := sound.cidrs text listed
    exact ⟨cidr,spelled,fun destination address at_ covered => wider _ (covers destination address at_ covered)⟩

theorem soundAppend (first : Sound holds left) (second : Sound holds right) : Sound holds (left.append right) where
  domains := fun domain listed => (List.mem_append.mp listed).elim (first.domains domain) (second.domains domain)
  suffixes := fun suffix listed => (List.mem_append.mp listed).elim (first.suffixes suffix) (second.suffixes suffix)
  cidrs := fun text listed => (List.mem_append.mp listed).elim (first.cidrs text) (second.cidrs text)

end Extractions

section Items
variable {zlib : Zlib} {limits : SrsDecodeLimits} {version : UInt8} {Context : Type} (meaning : Meaning Context)
open Wp

def NamedBy (item : RuleItem × ItemContent) (destination : Destination) : Prop :=
  item.1.role ≠ .blockingConstraint ∧ destinationHolds meaning destination item

theorem matchedName {trie : Trie} {name : Bytes} (matched : trie.ExactKey name ∨
    (∃ root, trie.RootSuffix root ∧ AtOrBelow root name) ∨ ∃ root, trie.Paired root ∧ AtOrBelow root name) : trie.MatchesName name := by
  rcases matched with exact_ | rooted | ⟨root,⟨exact_,only⟩,same | ⟨front,under⟩⟩
  · exact .inl exact_
  · exact .inr (.inl rooted)
  · rw [same]
    exact .inl exact_
  · exact .inr (.inr ⟨0x2e :: root,only,front,under.symm⟩)

theorem matcherYields {field : String} : Yields (readDomainMatcher limits field : Decode zlib (Trie × RuleExtraction)) fun read =>
  Sound (NamedBy meaning (.domain,.trie read.1)) { read.2 with cidrs := [] } := by
  refine passesSeen (fun before => matcherSeen before) ?_
  rintro _ ⟨trie,extraction⟩ _ ⟨emitted,all,nonempty,lists,_⟩
  change extraction = _ at lists
  have matched (name : Bytes) (found : extraction.MatchesName name) : trie.MatchesName name := by
    rw [lists] at found
    exact matchedName ((listsMatch all nonempty name).mp found)
  have role : RuleItem.domain.role ≠ .blockingConstraint := by decide
  refine ⟨fun domain listed destination named => ?_,fun suffix listed destination name named under => ?_,fun _ none => by cases none⟩
  · exact ⟨role,domain,named,matched domain (.inl listed)⟩
  · exact ⟨role,name,named,matched name (.inr ⟨suffix,listed,under⟩)⟩

theorem ipSetYields {field : String} :
    Yields (readIpSet limits field true : Decode zlib (List (IpAddress × IpAddress) × List Cidr)) fun read =>
      Sound (NamedBy meaning (.ipCidr,.ranges read.1)) { cidrs := read.2.map Cidr.text } := by
  refine passesMono readIpSetReads.yields fun read inside => ?_
  have role : RuleItem.ipCidr.role ≠ .blockingConstraint := by decide
  refine ⟨(fun _ none => by cases none),(fun _ none => by cases none),fun text listed => ?_⟩
  obtain ⟨cidr,member,spelled⟩ := List.mem_map.mp listed
  exact ⟨cidr,spelled,fun destination address at_ covers => ⟨role,address,at_,inside cidr member address covers⟩⟩

theorem requireItemVersionReads {minimum : UInt8} {item context : String} :
    Reads (requireItemVersion version minimum item context : Decode zlib Unit) fun _ => True :=
  passesMono failIfReads fun _ _ => trivial

theorem skipInterfacesReads {field : String} {count : Nat} : ∀ {seen : List UInt8},
    Reads (skipInterfaces limits field count seen : Decode zlib _) fun _ => True := by
  induction count with
  | zero => exact passesPure trivial
  | succ count ih =>
    intro seen
    refine passesBind readByteReads fun _ _ => passesBind failIfReads fun _ _ => passesBind readCountReads fun _ _ => ?_
    refine passesBind accountValuesReads fun _ _ => passesBind (readManyPasses fun _ => skipPrefixReads) fun _ _ => ?_
    exact passesBind ih fun _ _ => passesPure trivial

theorem skipInterfaceAddressMapReads {field : String} : Reads (skipInterfaceAddressMap limits field : Decode zlib _) fun _ => True :=
  passesBind readCountReads fun _ _ => passesBind accountValuesReads fun _ _ => skipInterfacesReads

theorem skipPrefixListReads {field : String} : Reads (skipPrefixList limits field : Decode zlib _) fun _ => True :=
  passesBind readCountReads fun _ _ => passesBind accountValuesReads fun _ _ =>
    passesMono (readManyPasses fun _ => skipPrefixReads) fun _ _ => trivial

theorem skippedYields {α : Type} {item : RuleItem} {m : Decode zlib α} {content : α → ItemContent} (reads : Reads m fun _ => True) :
    Yields (do let a ← m; pure (content a,({} : RuleExtraction))) fun read => Sound (NamedBy meaning (item,read.1)) read.2 :=
  passesBind reads.yields fun _ _ => passesPure soundEmpty

theorem readItemYields {context field : String} (item : RuleItem) :
    Yields (readItem limits version context field item : Decode zlib _) fun read => Sound (NamedBy meaning (item,read.1)) read.2 := by
  have texts {kind : RuleItem} : Yields (skipTexts limits field : Decode zlib _) fun read => Sound (NamedBy meaning (kind,read.1)) read.2 :=
    skippedYields meaning skipStringListReads
  have words {kind : RuleItem} : Yields (skipWords limits field : Decode zlib _) fun read => Sound (NamedBy meaning (kind,read.1)) read.2 :=
    skippedYields meaning skipU16ListReads
  cases item with
  | domain => exact passesBind (matcherYields meaning) fun read sound => passesPure sound
  | ipCidr => exact passesBind (ipSetYields meaning) fun read sound => passesPure sound
  | queryType | sourcePort | port => exact words
  | network | sourcePortRange | portRange | processName | processPath | packageName | wifiSsid | wifiBssid
  | processPathRegex | domainKeyword | domainRegex => exact texts
  | packageNameRegex => exact passesBind requireItemVersionReads.yields fun _ _ => texts
  | sourceIpCidr => exact passesBind readIpSetReads.yields fun _ _ => passesPure soundEmpty
  | adGuardDomain =>
    refine passesBind requireItemVersionReads.yields fun _ _ => ?_
    exact passesBind readTrieReads.yields fun _ _ => passesPure soundEmpty
  | networkType => exact passesBind requireItemVersionReads.yields fun _ _ => skippedYields meaning skipU8ListReads
  | networkIsExpensive | networkIsConstrained => exact passesBind requireItemVersionReads.yields fun _ _ => passesPure soundEmpty
  | networkInterfaceAddress =>
    exact passesBind requireItemVersionReads.yields fun _ _ => skippedYields meaning skipInterfaceAddressMapReads
  | defaultInterfaceAddress => exact passesBind requireItemVersionReads.yields fun _ _ => skippedYields meaning skipPrefixListReads

theorem readItemOfYields {context : String} {raw : UInt8} :
    Yields (readItemOf limits version context raw : Decode zlib _) fun read =>
      Sound (NamedBy meaning (read.1,read.2.1)) read.2.2 := by
  unfold readItemOf
  split
  · exact passesThrow
  · exact passesBind (readItemYields meaning _) fun read sound => passesBind (passesModify fun _ => rfl) fun _ _ => passesPure sound

/- The loop invariant of read_default_rule. -/
structure CollectedSound (collected : Collected) : Prop where
  sound : Sound (fun destination => ∃ item ∈ collected.items, NamedBy meaning item destination) collected.extracted
  blocking : collected.blockingConstraints = 0 → ∀ item ∈ collected.items, item.1.role ≠ .blockingConstraint

theorem collectedAdd {collected : Collected} (before : CollectedSound meaning collected) {raw : UInt8} {item : RuleItem}
    {content : ItemContent} {extraction : RuleExtraction} (sound : Sound (NamedBy meaning (item,content)) extraction) :
    CollectedSound meaning (collected.add raw item content extraction) where
  sound := by
    refine soundAppend (soundMono before.sound ?_) (soundMono sound ?_)
    · rintro destination ⟨other,listed,named⟩
      exact ⟨other,List.mem_append_left _ listed,named⟩
    · intro destination named
      exact ⟨(item,content),List.mem_append_right _ (List.mem_singleton.mpr rfl),named⟩
  blocking := by
    intro none other listed
    obtain ⟨noneBefore,noneAdded⟩ := Nat.add_eq_zero_iff.mp none
    cases List.mem_append.mp listed with
    | inl old => exact before.blocking noneBefore other old
    | inr new =>
      rw [List.mem_singleton.mp new]
      intro blocking
      rw [if_pos blocking] at noneAdded
      cases noneAdded

def RuleSound (read : SrsRule × RuleExtraction) : Prop :=
  ∀ context, Sound (fun destination => read.1.Holds meaning context destination) read.2

theorem finishDefaultYields {context : String} {collected : Collected} (kept : CollectedSound meaning collected) :
    Yields (finishDefault limits context collected : Decode zlib _) (RuleSound meaning) := by
  refine passesBind readBoolReads.yields fun invert _ => passesIte (fun _ => ?_) fun upright => passesIte (fun _ => ?_) fun passed => ?_
  · exact passesBind (passesModify fun _ => rfl) fun _ _ => passesPure fun _ => soundEmpty
  · exact passesBind (passesModify fun _ => rfl) fun _ _ => passesPure fun _ => soundEmpty
  · refine passesPure fun connection => soundMono kept.sound fun destination named => ?_
    simp only [Bool.or_eq_true,decide_eq_true_eq,not_or,not_not] at passed
    have free := kept.blocking passed.1.1.2
    obtain ⟨item,listed,role,holds⟩ := named
    rw [SrsRule.Holds]
    exact .inl ⟨⟨fun _ => ⟨item,listed,role,holds⟩,fun other member blocking => absurd blocking (free other member)⟩,upright⟩

theorem readItemsYields {context : String} {left : Nat} : ∀ {collected : Collected}, CollectedSound meaning collected →
    Yields (readItems limits version context left collected : Decode zlib _) (RuleSound meaning) := by
  induction left with
  | zero =>
    intro collected kept
    exact passesBind readByteReads.yields fun raw _ => passesIte (fun _ => finishDefaultYields meaning kept) fun _ => passesThrow
  | succ left ih =>
    intro collected kept
    refine passesBind readByteReads.yields fun raw _ => passesIte (fun _ => finishDefaultYields meaning kept) fun _ => ?_
    refine passesBind failIfReads.yields fun _ _ => passesBind (readItemOfYields meaning) fun read sound => ?_
    exact ih (collectedAdd meaning kept sound)

theorem combineSound (connection : Context) {children : List (SrsRule × RuleExtraction)}
    (each : ∀ child ∈ children, RuleSound meaning child) :
    Sound (fun destination => anyHolds meaning connection destination (children.map Prod.fst)) (combine children) := by
  suffices ∀ (holds : Destination → Prop) (before : RuleExtraction), Sound holds before →
      Sound (fun destination => holds destination ∨ anyHolds meaning connection destination (children.map Prod.fst))
        (children.foldl (fun combined child => combined.append child.2) before) from
    soundMono (this (fun _ => False) {} soundEmpty) fun _ either => either.resolve_left id
  induction children with
  | nil => exact fun holds before sound => soundMono sound fun _ => .inl
  | cons child rest ih =>
    intro holds before sound
    have first := each child List.mem_cons_self connection
    have later := ih (fun other listed => each other (List.mem_cons_of_mem _ listed))
      (fun destination => holds destination ∨ child.1.Holds meaning connection destination) (before.append child.2)
      (soundAppend (soundMono sound fun _ => .inl) (soundMono first fun _ => .inr))
    refine soundMono later fun destination either => ?_
    rw [List.map_cons,anyHolds]
    tauto

theorem finishLogicalYields {context : String} {or : Bool} {children : List (SrsRule × RuleExtraction)}
    (each : ∀ child ∈ children, RuleSound meaning child) :
    Yields (finishLogical limits context or children : Decode zlib _) (RuleSound meaning) := by
  refine passesBind readBoolReads.yields fun invert _ => passesIte (fun _ => ?_) fun upright => passesIte (fun _ => ?_) fun passed => ?_
  · exact passesBind (passesModify fun _ => rfl) fun _ _ => passesPure fun _ => soundEmpty
  · exact passesBind (passesModify fun _ => rfl) fun _ _ => passesPure fun _ => soundEmpty
  · refine passesPure fun connection => soundMono (combineSound meaning connection each) fun destination any => ?_
    rw [SrsRule.Holds]
    refine .inl ⟨?_,upright⟩
    cases or with
    | true => exact any
    | false =>
      -- the only child of an "and" is the rule itself
      have single : children.length = 1 := by simpa using passed
      obtain ⟨child,rfl⟩ := List.length_eq_one_iff.mp single
      rw [List.map_cons,List.map_nil,anyHolds,anyHolds] at any
      rw [if_neg Bool.false_ne_true,List.map_cons,List.map_nil,allHold,allHold]
      exact ⟨any.resolve_right id,trivial⟩

theorem readRuleYields {levels : Nat} : ∀ {context : String},
    Yields (readRule limits version levels context : Decode zlib _) (RuleSound meaning) := by
  induction levels with
  | zero => exact passesThrow
  | succ levels ih =>
    intro context
    have counted : Yields (countRule limits : Decode zlib Unit) fun _ => True :=
      passesGet fun _ => passesBind failIfReads.yields fun _ _ => passesModify fun _ => rfl
    refine passesBind counted fun _ _ => passesBind readByteReads.yields fun type _ => ?_
    refine passesIte (fun _ => ?_) fun _ => passesIte (fun _ => ?_) fun _ => passesThrow
    · refine readItemsYields meaning ⟨soundEmpty,fun _ _ none => by cases none⟩
    · refine passesBind readByteReads.yields fun mode _ => passesBind failIfReads.yields fun _ _ => ?_
      refine passesBind readCountReads.yields fun count _ => passesBind failIfReads.yields fun _ _ => ?_
      exact passesBind (readManyPasses fun _ => ih) fun children each => finishLogicalYields meaning each.2

theorem decodeYields : Yields (decode limits version : Decode zlib _) fun read => ∀ connection,
    Sound (fun destination => anyHolds meaning connection destination read.1)
      { domains := read.2.domains, suffixes := read.2.domainSuffixes, cidrs := read.2.ipCidrs } := by
  refine passesBind readCountReads.yields fun count _ => ?_
  refine passesBind (readManyPasses fun _ => readRuleYields meaning) fun rules each => ?_
  have clean : Yields (requireCleanEnd limits : Decode zlib Unit) fun _ => True := by
    refine passesBind tryReadByteReads.yields fun _ _ => passesBind failIfReads.yields fun _ _ => passesGet fun _ => ?_
    exact passesBind failIfReads.yields fun _ _ => passesMono failIfReads.yields fun _ _ => trivial
  refine passesBind clean fun _ _ => passesGet fun decoder => passesPure fun connection => ?_
  have sound := combineSound meaning connection each.2
  exact ⟨fun domain listed => sound.domains domain (memSortUnique.mp listed),
    fun suffix listed => sound.suffixes suffix (memSortUnique.mp listed),
    fun text listed => sound.cidrs text (memSortUnique.mp listed)⟩

end Items

theorem decodeSrsRun {zlib : Zlib} {limits : SrsDecodeLimits} {input : Bytes} {answer : List SrsRule × SrsDecodeResult}
    (accepted : decodeSrs zlib limits input = .ok answer) :
    ∃ version before after, decode limits version (before : Decoder zlib) = .ok answer after := by
  unfold decodeSrs at accepted
  split at accepted
  · rename_i version source
    split at accepted
    · cases accepted
    · split at accepted
      · cases accepted
      · split at accepted
        · cases accepted
        · split at accepted
          · cases accepted
          · split at accepted
            · cases accepted
            · split at accepted
              · cases accepted
              · split at accepted
                · rename_i run
                  cases accepted
                  exact ⟨version,_,_,run⟩
                · cases accepted
  · cases accepted

def oneStream (compressed payload : Bytes) : Zlib where
  State := Unit
  inflateInit := some ()
  inflate := fun _ input room =>
    if input = compressed ∧ payload.length ≤ room then ⟨(),[],payload,.streamEnd⟩ else ⟨(),input,[],.failed none⟩
  taken := by
    intro _ input room
    split
    · exact Nat.zero_le _
    · exact Nat.le_refl _
  written := by
    intro _ input room
    split
    · rename_i fits
      exact fits.2
    · exact Nat.zero_le _
  progress := by
    intro _ input room ok
    split at ok <;> cases ok

def onePayload : Bytes := [1,0,2] ++ twoKeys ++ [0xff,0]

def oneCompressed : Bytes :=
  [0x78,0xda,0x63,0x64,0x60,0x62,0x60,0x64,0x80,0x00,0x2e,0x18,0x23,0x87,0x39,0x31,0x89,0xeb,0x3f,0x03,0x00,0x09,0xc2,0x02] ++
    [0x4b]

end KeenPbr.Srs

import KeenPbr.Document
import KeenPbr.NormalEntries

/-! config.cpp's normalize_changed_list_ip_cidrs: the addresses of every list that a candidate
configuration changes are normalized before it is validated, or none of them is. -/
namespace KeenPbr.ListNormalization
open Fields Blocks Documents

inductive IpCidrError where
  | leadingZeros
  | invalidAddress
  | invalidPrefix
  deriving DecidableEq, Repr

def ipCidrErrorMessage : IpCidrError → String
  | .leadingZeros => "IPv4 addresses must not contain leading zeros"
  | .invalidAddress => "IP/CIDR address is invalid"
  | .invalidPrefix => "IP/CIDR prefix length is invalid"

def ipCidrErrorCode : IpCidrError → String
  | .leadingZeros => "config.ip_cidr.leading_zeros"
  | .invalidAddress => "config.ip_cidr.invalid_address"
  | .invalidPrefix => "config.ip_cidr.invalid_prefix"

/- normalize_ip_or_cidr with the reason it gives. -/
def normalizeIpOrCidrReason (inet : Inet) (line : Text) : Except IpCidrError Text :=
  let entry := strip listBlank line
  if entry.isEmpty || entry.contains '\x00' then .error .invalidAddress
  else
    let host := hostPart entry
    let ipv6 := host.contains ':'
    if !ipv6 && host.any (fun c => !isDigit c && c != '.') then .error .invalidAddress
    else if leadingZeros host then .error .leadingZeros
    else
      match inet.pton (familyOf ipv6) (String.ofList host) with
      | none => .error .invalidAddress
      | some address =>
        let length := match entry.dropWhile (· != '/') with
          | [] => some (addressWidth ipv6)
          | _ :: suffix => (fromCharsUnsigned suffix).filter fun length => length ≤ addressWidth ipv6
        match length with
        | none => .error .invalidPrefix
        | some length =>
          match inet.ntop (familyOf ipv6) (maskBytes address length) with
          | none => .error .invalidAddress
          | some text =>
            .ok (if length ≠ addressWidth ipv6 then text.toList ++ '/' :: (toString length).toList else text.toList)

def skippedEntry (entry : Text) : Bool :=
  match entry.dropWhile listBlank with
  | [] => true
  | first :: _ => first == '#'

def entryPath (name : String) (index : Nat) : String := "lists." ++ name ++ ".ip_cidrs[" ++ toString index ++ "]"

/- The loop over the entries of one list; seen holds the texts of normalized. -/
def prepareEntries (inet : Inet) (name : String) : Nat → List String → List String → List String × Issues
  | _, [], normalized => (normalized,[])
  | index, entry :: rest, normalized =>
    if skippedEntry entry.toList then prepareEntries inet name (index + 1) rest normalized
    else
      match normalizeIpOrCidrReason inet entry.toList with
      | .error reason =>
        let later := prepareEntries inet name (index + 1) rest normalized
        (later.1,oneIssue (entryPath name index) (ipCidrErrorMessage reason) (ipCidrErrorCode reason) ++ later.2)
      | .ok value =>
        if normalized.contains (String.ofList value) then prepareEntries inet name (index + 1) rest normalized
        else prepareEntries inet name (index + 1) rest (normalized ++ [String.ofList value])

section Function
variable {ω : Type} (inet : Inet) (previous : Document ω)

def changedList (name : String) (list : ListConfig) : Bool :=
  list.ipCidrs.isSome && !((previous.lists.bind (·.lookup name)).any fun old => old.ipCidrs == list.ipCidrs)

def preparedList (entry : String × ListConfig) : Option (List String × Issues) :=
  if changedList previous entry.1 entry.2 then some (prepareEntries inet entry.1 0 (entry.2.ipCidrs.getD []) []) else none

/- The names of a std::map differ, so at(name) is the list that was prepared. -/
def assignPrepared (entry : String × ListConfig) : String × ListConfig :=
  match preparedList inet previous entry with
  | none => entry
  | some prepared => (entry.1,{ entry.2 with ipCidrs := some prepared.1 })

def preparedIssues (lists : List (String × ListConfig)) : Issues :=
  lists.flatMap fun entry => ((preparedList inet previous entry).map (·.2)).getD []

/- The candidate as the call leaves it, and what it throws. -/
def normalizeChangedListIpCidrs (candidate : Document ω) : Document ω × Option Issues :=
  match candidate.lists with
  | none => (candidate,none)
  | some lists =>
    if !(preparedIssues inet previous lists).isEmpty then (candidate,some (preparedIssues inet previous lists))
    else ({ candidate with lists := some (lists.map (assignPrepared inet previous)) },none)

end Function

section Entries
variable {inet : Inet}

theorem normalizeReasonOption (line : Text) : (normalizeIpOrCidrReason inet line).toOption = normalizeIpOrCidr inet line := by
  unfold normalizeIpOrCidrReason normalizeIpOrCidr
  dsimp only
  by_cases empty : ((strip listBlank line).isEmpty || (strip listBlank line).contains '\x00') = true
  · rw [if_pos empty,if_pos empty]
    rfl
  · rw [if_neg empty,if_neg empty]
    by_cases worded : (!(hostPart (strip listBlank line)).contains ':' && (hostPart (strip listBlank line)).any fun c =>
      !isDigit c && c != '.') = true
    · rw [if_pos worded,if_pos worded]
      rfl
    · rw [if_neg worded,if_neg worded]
      by_cases zeros : leadingZeros (hostPart (strip listBlank line)) = true
      · rw [if_pos zeros,if_pos zeros]
        rfl
      · rw [if_neg zeros,if_neg zeros]
        cases inet.pton (familyOf ((hostPart (strip listBlank line)).contains ':')) (String.ofList (hostPart (strip listBlank line))) with
        | none => rfl
        | some address =>
          have written (length : Nat) :
            ((match inet.ntop (familyOf ((hostPart (strip listBlank line)).contains ':')) (maskBytes address length) with
              | none => Except.error IpCidrError.invalidAddress
              | some text => .ok (if length ≠ addressWidth ((hostPart (strip listBlank line)).contains ':') then
                  text.toList ++ '/' :: (toString length).toList else text.toList)).toOption) =
              match inet.ntop (familyOf ((hostPart (strip listBlank line)).contains ':')) (maskBytes address length) with
              | none => none
              | some text => some (if length ≠ addressWidth ((hostPart (strip listBlank line)).contains ':') then
                  text.toList ++ '/' :: (toString length).toList else text.toList) := by
            cases inet.ntop (familyOf ((hostPart (strip listBlank line)).contains ':')) (maskBytes address length) with
            | none => rfl
            | some text => rfl
          cases (strip listBlank line).dropWhile (· != '/') with
          | nil => exact written _
          | cons slash suffix =>
            dsimp only
            cases (fromCharsUnsigned suffix).filter fun length =>
              length ≤ addressWidth ((hostPart (strip listBlank line)).contains ':') with
            | none => rfl
            | some length => exact written length

theorem reasonOk {line value : Text} (normal : normalizeIpOrCidrReason inet line = .ok value) :
    normalizeIpOrCidr inet line = some value := by
  rw [← normalizeReasonOption,normal]
  rfl

def listAddresses (inet : Inet) (entries : List String) :
    Set (Bool × Bits) := { address | ∃ entry ∈ entries, address ∈ entryAddresses inet entry.toList }

theorem hostChars (spelled : inet.Spelled) {line : Text} {found : Bool × Bits} (read : entryBlock inet line = some found) :
    hostPart (strip listBlank line) ≠ [] ∧ ∀ c ∈ hostPart (strip listBlank line), addressChar c = true := by
  unfold entryBlock at read
  dsimp only at read
  cases parsed : inet.pton (familyOf ((hostPart (strip listBlank line)).contains ':'))
    (String.ofList (hostPart (strip listBlank line))) with
  | none =>
    rw [parsed] at read
    cases read
  | some bytes =>
    have chars := (validateHost spelled parsed).1
    refine ⟨fun empty => ?_,chars⟩
    rw [empty] at parsed
    have quad := spelled.v4 _ _ parsed
    exact absurd (quadShape quad).2.1 (by decide)

theorem skippedBlock (spelled : inet.Spelled) {line : Text} (skipped : skippedEntry line = true) : entryBlock inet line = none := by
  cases read : entryBlock inet line with
  | none => rfl
  | some found =>
    obtain ⟨filled,chars⟩ := hostChars spelled read
    unfold skippedEntry at skipped
    cases shape : line.dropWhile listBlank with
    | nil =>
      have empty : strip listBlank line = [] := by
        rw [stripEq,shape]
        rfl
      rw [empty] at filled
      exact absurd rfl filled
    | cons first rest =>
      rw [shape] at skipped
      have hash : first = '#' := beq_iff_eq.mp skipped
      have ended : stripEnd listBlank (['#'] ++ rest) = ['#'] ++ stripEnd listBlank rest := stripEndTrail rfl rfl
      have mem : '#' ∈ hostPart (strip listBlank line) := by
        rw [stripEq,shape,hash,show '#' :: rest = ['#'] ++ rest from rfl,ended]
        exact List.mem_cons_self
      exact absurd (chars '#' mem) (by decide)

theorem skippedAddresses (spelled : inet.Spelled) {line : Text} (skipped : skippedEntry line = true) : entryAddresses inet line = ∅ := by
  refine Set.eq_empty_of_forall_notMem fun address mem => ?_
  obtain ⟨block,read,-,-⟩ := mem
  rw [skippedBlock spelled skipped] at read
  cases read

theorem normalKept (spelled : inet.Spelled) {line value : Text} (normal : normalizeIpOrCidr inet line = some value) :
    skippedEntry line = false := by
  obtain ⟨ipv6,bytes,length,shown,read⟩ := acceptedOf normal
  rw [Bool.eq_false_iff]
  intro skipped
  have block := read.block
  rw [skippedBlock spelled skipped] at block
  cases block

end Entries

section Kept

def keepNew (held values : List String) :
    List String := values.foldl (fun kept value => if kept.contains value then kept else kept ++ [value]) held

theorem keepNewMem {held values : List String} {value : String} : value ∈ keepNew held values ↔ value ∈ held ∨ value ∈ values := by
  induction values generalizing held with
  | nil => simp [keepNew]
  | cons first rest ih =>
    rw [keepNew,List.foldl_cons,← keepNew,ih]
    by_cases seen : held.contains first = true
    · rw [if_pos seen]
      have mem := List.contains_iff_mem.mp seen
      constructor
      · rintro (old | new)
        · exact .inl old
        · exact .inr (List.mem_cons_of_mem _ new)
      · rintro (old | new)
        · exact .inl old
        · rcases List.mem_cons.mp new with rfl | later
          · exact .inl mem
          · exact .inr later
    · rw [if_neg seen]
      simp [or_assoc]

theorem keepNewNodup {held values : List String} (distinct : held.Nodup) : (keepNew held values).Nodup := by
  induction values generalizing held with
  | nil => exact distinct
  | cons first rest ih =>
    rw [keepNew,List.foldl_cons,← keepNew]
    by_cases seen : held.contains first = true
    · rw [if_pos seen]
      exact ih distinct
    · rw [if_neg seen]
      refine ih (List.nodup_append.mpr ⟨distinct,List.nodup_singleton _,?_⟩)
      intro value mem other single same
      rw [List.mem_singleton.mp single] at same
      exact seen (List.contains_iff_mem.mpr (same ▸ mem))

theorem keepNewFresh {held values : List String} (fresh : (held ++ values).Nodup) : keepNew held values = held ++ values := by
  induction values generalizing held with
  | nil => rw [List.append_nil]; rfl
  | cons first rest ih =>
    have new : ¬held.contains first = true := by
      intro seen
      exact (List.nodup_append.mp fresh).2.2 first (List.contains_iff_mem.mp seen) first List.mem_cons_self rfl
    rw [keepNew,List.foldl_cons,← keepNew,if_neg new]
    rw [← List.singleton_append,← List.append_assoc] at fresh
    rw [ih fresh,List.append_assoc,List.singleton_append]

end Kept

section Lists
variable {inet : Inet} {name : String} {entries : List String}

def entryValue (inet : Inet) (entry : String) : Option String :=
  if skippedEntry entry.toList then none else (normalizeIpOrCidr inet entry.toList).map String.ofList

def InvalidEntry (inet : Inet) (entry : String) : Prop := skippedEntry entry.toList = false ∧ normalizeIpOrCidr inet entry.toList = none

theorem prepareValues (index : Nat) (normalized : List String) :
    (prepareEntries inet name index entries normalized).1 = keepNew normalized (entries.filterMap (entryValue inet)) := by
  induction entries generalizing index normalized with
  | nil => rfl
  | cons entry rest ih =>
    rw [prepareEntries]
    by_cases skipped : skippedEntry entry.toList = true
    · have absent : entryValue inet entry = none := if_pos skipped
      rw [if_pos skipped,ih,List.filterMap_cons_none absent]
    · have value : entryValue inet entry = (normalizeIpOrCidrReason inet entry.toList).toOption.map String.ofList := by
        rw [entryValue,if_neg skipped,normalizeReasonOption]
      rw [if_neg skipped]
      cases normal : normalizeIpOrCidrReason inet entry.toList with
      | error reason =>
        rw [normal] at value
        rw [List.filterMap_cons_none value]
        exact ih _ _
      | ok found =>
        rw [normal] at value
        rw [List.filterMap_cons_some value,keepNew,List.foldl_cons,← keepNew]
        dsimp only
        split
        · exact ih _ _
        · exact ih _ _

theorem prepareIssues (index : Nat) (normalized : List String) :
    (prepareEntries inet name index entries normalized).2 = [] ↔ ∀ entry ∈ entries, ¬InvalidEntry inet entry := by
  induction entries generalizing index normalized with
  | nil => simp [prepareEntries]
  | cons entry rest ih =>
    rw [prepareEntries,List.forall_mem_cons]
    by_cases skipped : skippedEntry entry.toList = true
    · have valid : ¬InvalidEntry inet entry := fun invalid => absurd skipped (Bool.eq_false_iff.mp invalid.1)
      rw [if_pos skipped,ih]
      exact ⟨fun later => ⟨valid,later⟩,And.right⟩
    · rw [if_neg skipped]
      cases normal : normalizeIpOrCidrReason inet entry.toList with
      | error reason =>
        have invalid : InvalidEntry inet entry := by
          refine ⟨Bool.eq_false_iff.mpr skipped,?_⟩
          rw [← normalizeReasonOption,normal]
          rfl
        refine ⟨fun clean => ?_,fun valid => absurd invalid valid.1⟩
        cases clean
      | ok found =>
        have valid : ¬InvalidEntry inet entry := by
          intro invalid
          have none_ := invalid.2
          rw [reasonOk normal] at none_
          cases none_
        dsimp only
        split
        · rw [ih]
          exact ⟨fun later => ⟨valid,later⟩,And.right⟩
        · rw [ih]
          exact ⟨fun later => ⟨valid,later⟩,And.right⟩

theorem entryValueNormal {entry value : String} (found : entryValue inet entry = some value) :
    normalizeIpOrCidr inet entry.toList = some value.toList := by
  unfold entryValue at found
  split at found
  · cases found
  · obtain ⟨text,normal,rfl⟩ := Option.map_eq_some_iff.mp found
    rw [normal,String.toList_ofList]

theorem entryValueFixed (canonical : inet.Canonical) {entry value : String} (found : entryValue inet entry = some value) :
    entryValue inet value = some value := by
  have again := (normalizationCanonical canonical (entryValueNormal found)).1
  rw [entryValue,normalKept canonical.toSpelled again,if_neg Bool.false_ne_true,again,Option.map_some,String.ofList_toList]

structure NormalForm (inet : Inet) (entries result : List String) : Prop where
  distinct : result.Nodup
  fixed : ∀ entry ∈ result, normalizeIpOrCidr inet entry.toList = some entry.toList
  apart : result.Pairwise fun one two => entryAddresses inet one.toList ≠ entryAddresses inet two.toList
  addresses : listAddresses inet result = listAddresses inet entries

theorem entriesAddresses (canonical : inet.Canonical) (valid : ∀ entry ∈ entries, ¬InvalidEntry inet entry) :
    listAddresses inet (entries.filterMap (entryValue inet)) = listAddresses inet entries := by
  ext address
  constructor
  · rintro ⟨value,mem,inside⟩
    obtain ⟨entry,among,found⟩ := List.mem_filterMap.mp mem
    refine ⟨entry,among,?_⟩
    rwa [(normalizationCanonical canonical (entryValueNormal found)).2.1] at inside
  · rintro ⟨entry,among,inside⟩
    have counted : skippedEntry entry.toList = false := by
      rw [Bool.eq_false_iff]
      intro skipped
      rw [skippedAddresses canonical.toSpelled skipped] at inside
      exact inside
    cases normal : normalizeIpOrCidr inet entry.toList with
    | none => exact absurd ⟨counted,normal⟩ (valid entry among)
    | some value =>
      have found : entryValue inet entry = some (String.ofList value) := by
        rw [entryValue,counted,if_neg Bool.false_ne_true,normal]
        rfl
      refine ⟨String.ofList value,List.mem_filterMap.mpr ⟨entry,among,found⟩,?_⟩
      rw [String.toList_ofList,(normalizationCanonical canonical normal).2.1]
      exact inside

theorem preparedNormal (canonical : inet.Canonical) (valid : ∀ entry ∈ entries, ¬InvalidEntry inet entry) (index : Nat) :
    NormalForm inet entries (prepareEntries inet name index entries []).1 := by
  rw [prepareValues]
  have held (value : String) : value ∈ keepNew [] (entries.filterMap (entryValue inet)) ↔ value ∈ entries.filterMap (entryValue inet) := by
    rw [keepNewMem]
    simp
  have fixed : ∀ value ∈ keepNew [] (entries.filterMap (entryValue inet)), normalizeIpOrCidr inet value.toList = some value.toList := by
    intro value mem
    obtain ⟨entry,-,found⟩ := List.mem_filterMap.mp ((held value).mp mem)
    exact entryValueNormal (entryValueFixed canonical found)
  have distinct : (keepNew [] (entries.filterMap (entryValue inet))).Nodup := keepNewNodup List.nodup_nil
  refine ⟨distinct,fixed,?_,?_⟩
  · refine distinct.pairwise_of_forall_ne fun one first two second differ same => differ ?_
    -- two fixed texts of one set are one text
    exact String.toList_inj.mp (((normalizationCanonical canonical (fixed one first)).2.2.1 _ _ (fixed two second)).mpr same)
  · rw [← entriesAddresses canonical valid]
    ext address
    simp only [listAddresses,held]

theorem normalPrepared (canonical : inet.Canonical) {result : List String} (normal : NormalForm inet entries result) (index : Nat) :
    prepareEntries inet name index result [] = (result,[]) := by
  have value : ∀ entry ∈ result, entryValue inet entry = some entry := by
    intro entry mem
    have same := normal.fixed entry mem
    rw [entryValue,normalKept canonical.toSpelled same,if_neg Bool.false_ne_true,same,Option.map_some,String.ofList_toList]
  have kept : result.filterMap (entryValue inet) = result := by
    rw [List.filterMap_congr value]
    exact List.filterMap_some
  have clean : (prepareEntries inet name index result []).2 = [] := by
    refine (prepareIssues index []).mpr fun entry mem invalid => ?_
    have none_ := invalid.2
    rw [normal.fixed entry mem] at none_
    cases none_
  refine Prod.ext ?_ clean
  rw [prepareValues,kept]
  exact keepNewFresh normal.distinct

end Lists

section Candidate
variable {ω : Type} {inet : Inet} {previous : Document ω}

def Differs (previous : Document ω) (name : String) (list : ListConfig) : Prop :=
  list.ipCidrs ≠ none ∧ (previous.lists.bind (·.lookup name)).bind (·.ipCidrs) ≠ list.ipCidrs

def Invalid (inet : Inet) (previous candidate : Document ω) : Prop :=
  ∃ name list, (name,list) ∈ candidate.listEntries ∧ Differs previous name list ∧ ∃ entry ∈ list.ipCidrs.getD [], InvalidEntry inet entry

theorem changedIff {name : String} {list : ListConfig} : changedList previous name list = true ↔ Differs previous name list := by
  unfold changedList Differs
  rw [Bool.and_eq_true,Option.isSome_iff_ne_none,Bool.not_eq_true']
  refine and_congr_right fun some_ => ?_
  cases previous.lists.bind (·.lookup name) with
  | none =>
    simp only [Option.any_none,Option.bind_none,ne_eq,true_iff]
    exact fun same => some_ same.symm
  | some old =>
    simp only [Option.any_some,Option.bind_some,ne_eq]
    exact beq_eq_false_iff_ne

theorem preparedChanged {name : String} {list : ListConfig} (changed : Differs previous name list) :
    preparedList inet previous (name,list) = some (prepareEntries inet name 0 (list.ipCidrs.getD []) []) := if_pos (changedIff.mpr changed)

theorem preparedSame {name : String} {list : ListConfig} (same : ¬Differs previous name list) :
    preparedList inet previous (name,list) = none :=
  if_neg fun changed => same (changedIff.mp changed)

theorem preparedIssuesIff {lists : List (String × ListConfig)} : preparedIssues inet previous lists = [] ↔
    ∀ name list, (name,list) ∈ lists → Differs previous name list → ∀ entry ∈ list.ipCidrs.getD [], ¬InvalidEntry inet entry := by
  rw [preparedIssues,List.flatMap_eq_nil_iff]
  constructor
  · intro clean name list mem changed
    have none_ := clean (name,list) mem
    rw [preparedChanged changed] at none_
    exact (prepareIssues 0 []).mp none_
  · intro valid entry mem
    by_cases changed : Differs previous entry.1 entry.2
    · rw [show entry = (entry.1,entry.2) from rfl,preparedChanged changed]
      exact (prepareIssues 0 []).mpr (valid entry.1 entry.2 mem changed)
    · rw [show entry = (entry.1,entry.2) from rfl,preparedSame changed]
      rfl

/- One list of the candidate before and after. -/
structure Rewritten (inet : Inet) (previous : Document ω) (old new : String × ListConfig) : Prop where
  name : new.1 = old.1
  others : { new.2 with ipCidrs := old.2.ipCidrs } = old.2
  same : ¬Differs previous old.1 old.2 → new = old
  normal : Differs previous old.1 old.2 → ∃ result, new.2.ipCidrs = some result ∧ NormalForm inet (old.2.ipCidrs.getD []) result

theorem assignRewritten (canonical : inet.Canonical) {entry : String × ListConfig}
    (valid : Differs previous entry.1 entry.2 → ∀ text ∈ entry.2.ipCidrs.getD [], ¬InvalidEntry inet text) :
    Rewritten inet previous entry (assignPrepared inet previous entry) := by
  obtain ⟨name,list⟩ := entry
  by_cases changed : Differs previous name list
  · have assigned : assignPrepared inet previous (name,list) =
        (name,{ list with ipCidrs := some (prepareEntries inet name 0 (list.ipCidrs.getD []) []).1 }) := by
      rw [assignPrepared,preparedChanged changed]
    rw [assigned]
    exact ⟨rfl,rfl,fun same => absurd changed same,fun _ => ⟨_,rfl,preparedNormal canonical (valid changed) 0⟩⟩
  · have assigned : assignPrepared inet previous (name,list) = (name,list) := by rw [assignPrepared,preparedSame changed]
    rw [assigned]
    exact ⟨rfl,rfl,fun _ => rfl,fun differs => absurd differs changed⟩

theorem rewrittenAgain (canonical : inet.Canonical) {old new : String × ListConfig} (rewritten : Rewritten inet previous old new) :
    assignPrepared inet previous new = new ∧ (Differs previous new.1 new.2 → ∀ text ∈ new.2.ipCidrs.getD [], ¬InvalidEntry inet text) := by
  by_cases changed : Differs previous old.1 old.2
  · obtain ⟨result,holds,normal⟩ := rewritten.normal changed
    have valid : ∀ text ∈ new.2.ipCidrs.getD [], ¬InvalidEntry inet text := by
      intro text mem invalid
      rw [holds] at mem
      have none_ := invalid.2
      rw [normal.fixed text mem] at none_
      cases none_
    refine ⟨?_,fun _ => valid⟩
    by_cases again : Differs previous new.1 new.2
    · rw [assignPrepared,show new = (new.1,new.2) from rfl,preparedChanged again]
      dsimp only
      rw [holds,Option.getD_some,normalPrepared canonical normal 0,← holds]
    · rw [assignPrepared,show new = (new.1,new.2) from rfl,preparedSame again]
  · rw [rewritten.same changed]
    refine ⟨?_,fun differs => absurd differs changed⟩
    rw [assignPrepared,show old = (old.1,old.2) from rfl,preparedSame changed]

theorem invalidKept {candidate : Document ω} (invalid : Invalid inet previous candidate) :
    ∃ issues, issues ≠ [] ∧ normalizeChangedListIpCidrs inet previous candidate = (candidate,some issues) := by
  obtain ⟨name,list,mem,changed,entry,among,wrong⟩ := invalid
  cases holds : candidate.lists with
  | none =>
    rw [Document.listEntries,holds] at mem
    cases mem
  | some lists =>
    rw [Document.listEntries,holds] at mem
    have some_ : preparedIssues inet previous lists ≠ [] := fun clean => preparedIssuesIff.mp clean name list mem changed entry among wrong
    refine ⟨_,some_,?_⟩
    rw [normalizeChangedListIpCidrs,holds]
    dsimp only
    rw [List.isEmpty_eq_false_iff.mpr some_]
    rfl

/- The candidate as the call leaves it when it throws nothing. -/
def assigned (inet : Inet) (previous candidate : Document ω) : Document ω :=
  { candidate with lists := candidate.lists.map (·.map (assignPrepared inet previous)) }

theorem validAssigned {candidate : Document ω} (valid : ¬Invalid inet previous candidate) :
    normalizeChangedListIpCidrs inet previous candidate = (assigned inet previous candidate,none) := by
  rw [normalizeChangedListIpCidrs,assigned]
  cases holds : candidate.lists with
  | none =>
    cases candidate
    cases holds
    rfl
  | some lists =>
    have clean : preparedIssues inet previous lists = [] := by
      refine preparedIssuesIff.mpr fun name list mem changed entry among wrong => valid ⟨name,list,?_,changed,entry,among,wrong⟩
      rw [Document.listEntries,holds]
      exact mem
    dsimp only
    rw [clean]
    rfl

theorem assignedEntries (candidate : Document ω) :
    (assigned inet previous candidate).listEntries = candidate.listEntries.map (assignPrepared inet previous) := by
  unfold assigned Document.listEntries
  cases candidate.lists <;> rfl

theorem entriesRewritten (canonical : inet.Canonical) {candidate : Document ω} (valid : ¬Invalid inet previous candidate)
    {entry : String × ListConfig} (mem : entry ∈ candidate.listEntries) :
    Rewritten inet previous entry (assignPrepared inet previous entry) :=
  assignRewritten canonical fun changed text among wrong => valid ⟨entry.1,entry.2,mem,changed,text,among,wrong⟩

theorem assignedAgain (canonical : inet.Canonical) {candidate : Document ω} (valid : ¬Invalid inet previous candidate) :
    normalizeChangedListIpCidrs inet previous (assigned inet previous candidate) = (assigned inet previous candidate,none) := by
  have again : ∀ entry ∈ candidate.listEntries, assignPrepared inet previous
    (assignPrepared inet previous entry) = assignPrepared inet previous entry :=
    fun entry mem => (rewrittenAgain canonical (entriesRewritten canonical valid mem)).1
  have clean : ¬Invalid inet previous (assigned inet previous candidate) := by
    rintro ⟨name,list,mem,changed,text,among,wrong⟩
    rw [assignedEntries] at mem
    obtain ⟨entry,held,new⟩ := List.mem_map.mp mem
    have fine := (rewrittenAgain canonical (entriesRewritten canonical valid held)).2
    rw [new] at fine
    exact fine changed text among wrong
  rw [validAssigned clean]
  refine Prod.ext ?_ rfl
  unfold assigned
  unfold Document.listEntries at again
  cases holds : candidate.lists with
  | none => rfl
  | some lists =>
    rw [holds] at again
    have same : lists.map (assignPrepared inet previous ∘ assignPrepared inet previous) = lists.map (assignPrepared inet previous) :=
      List.map_congr_left again
    simp only [Option.map_some,List.map_map,same]

/- All the changed lists are normalized, or the candidate is as it was. -/
theorem changedListsNormalized (canonical : inet.Canonical) (previous candidate : Document ω) :
    (Invalid inet previous candidate → ∃ issues, issues ≠ [] ∧
      normalizeChangedListIpCidrs inet previous candidate = (candidate,some issues)) ∧
    (¬Invalid inet previous candidate → ∃ after, normalizeChangedListIpCidrs inet previous candidate = (after,none) ∧
      { after with lists := candidate.lists } = candidate ∧ after.lists.isSome = candidate.lists.isSome ∧
      List.Forall₂ (Rewritten inet previous) candidate.listEntries after.listEntries ∧
      normalizeChangedListIpCidrs inet previous after = (after,none)) := by
  refine ⟨invalidKept,fun valid =>
    ⟨assigned inet previous candidate,validAssigned valid,rfl,Option.isSome_map,?_,assignedAgain canonical valid⟩⟩
  rw [assignedEntries,List.forall₂_map_right_iff,List.forall₂_same]
  exact fun entry mem => entriesRewritten canonical valid mem

def respelled : Document Unit := { rest := (), lists := some [("office",{ ipCidrs := some ["#","10.1.2.3/8"] })] }

theorem respelledNormalized : ∃ after, normalizeChangedListIpCidrs plainInet { rest := () } respelled = (after,none) ∧
    List.Forall₂ (Rewritten plainInet { rest := () }) respelled.listEntries after.listEntries ∧
    normalizeChangedListIpCidrs plainInet { rest := () } after = (after,none) := by
  have normal : normalizeIpOrCidr plainInet "10.1.2.3/8".toList = some (text "10.0.0.0/8") := by decide
  have valid : ¬Invalid plainInet { rest := () } respelled := by
    rintro ⟨name,list,mem,-,entry,among,counted,wrong⟩
    cases List.mem_singleton.mp mem
    rcases List.mem_cons.mp among with rfl | last
    · exact absurd counted (by decide)
    · rw [List.mem_singleton.mp last,normal] at wrong
      cases wrong
  obtain ⟨after,done,-,-,lists,again⟩ := (changedListsNormalized plainCanonical { rest := () } respelled).2 valid
  exact ⟨after,done,lists,again⟩

end Candidate
end KeenPbr.ListNormalization

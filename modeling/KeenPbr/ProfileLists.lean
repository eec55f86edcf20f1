import Mathlib.Data.List.Dedup
import KeenPbr.ListMatch
import KeenPbr.NormalEntries

/-! evaluate_profile_lists of nfqws/list_match.cpp: what the lists of a profile decide about a name and its addresses. -/
namespace KeenPbr.ListMatch
open Dnsmasq

inductive ListRole where
  | hostlist
  | hostlistAuto
  | hostlistExclude
  | ipset
  | ipsetExclude
  deriving DecidableEq, Repr

def roleIncludes (role : ListRole) : Bool := role == .hostlist || role == .hostlistAuto || role == .ipset

def roleIsHostlist (role : ListRole) : Bool := role == .hostlist || role == .hostlistAuto || role == .hostlistExclude

structure ListReference where
  path : Text
  role : ListRole := .hostlist
  inlineValues : Bool := false
  entries : List Text := []
  deriving DecidableEq, Repr

/- What evaluate_profile_lists reads of a profile. -/
structure ProfileReference where
  lists : List ListReference := []
  supported : Bool := true
  deriving DecidableEq, Repr

structure ProfileListMatch where
  reference : ListReference
  hit : HostlistMatch
  matched : Text
  deriving DecidableEq, Repr

inductive Outcome where
  | unknown
  | ipRequired
  | excluded
  | unmatched
  | hostnameRequired
  | autoPending
  | matched
  | unrestricted
  | mixed
  deriving DecidableEq, Repr

structure ProfileListEvaluation where
  result : Outcome := .unknown
  hostnameRequired : Bool := false
  autoHostlist : Bool := false
  found : List ProfileListMatch := []
  deriving DecidableEq, Repr

/- An empty std::function loads nothing. -/
abbrev ListLoader := Option (Text → Option (List Text))

structure Hits where
  host : Bool := false
  ip : Bool := false
  hostExcluded : Bool := false
  ipExcluded : Bool := false
  deriving DecidableEq, Repr

structure Row where
  ip : Text
  hits : Hits := {}
  deriving DecidableEq, Repr

structure Progress where
  evaluation : ProfileListEvaluation := {}
  rows : List Row
  hostInclude : Bool := false
  ipInclude : Bool := false
  anyIpEntries : Bool := false
  deriving DecidableEq, Repr

section Evaluate
variable (inet : Inet) (domain : Text) (load : ListLoader)

def Hits.mark (hits : Hits) (role : ListRole) : Hits :=
  match roleIsHostlist role, roleIncludes role with
  | true, true => { hits with host := true }
  | true, false => { hits with hostExcluded := true }
  | false, true => { hits with ip := true }
  | false, false => { hits with ipExcluded := true }

def hitOf (role : ListRole) (entries : List Text) (ip : Text) : Option HostlistMatch :=
  if roleIsHostlist role then (if domain.isEmpty then none else matchHostlist entries domain)
  else if ip.isEmpty then none else matchIpset inet entries ip

def record (found : List ProfileListMatch) (reference : ListReference) (hit : HostlistMatch) (target : Text) : List ProfileListMatch :=
  if found.any fun previous => previous.reference.path == reference.path && previous.reference.role == reference.role &&
      previous.hit.entry == hit.entry && previous.matched == target then found
  else found ++ [⟨reference,hit,target⟩]

/- The inner loop, over the addresses. -/
def markRows (reference : ListReference) (entries : List Text) : List Row → List ProfileListMatch → List Row × List ProfileListMatch
  | [], found => ([],found)
  | row :: rest, found =>
    match hitOf inet domain reference.role entries row.ip with
    | none =>
      let (rows,found) := markRows reference entries rest found
      (row :: rows,found)
    | some hit =>
      let target := if roleIsHostlist reference.role then domain else row.ip
      let (rows,found) := markRows reference entries rest (record found reference hit target)
      ({ row with hits := row.hits.mark reference.role } :: rows,found)

def visitReference (reference : ListReference) (entries : List Text) (progress : Progress) : Progress :=
  let automatic := reference.role == .hostlistAuto
  let host := roleIsHostlist reference.role
  let includes := roleIncludes reference.role
  let (rows,found) := markRows inet domain reference entries progress.rows progress.evaluation.found
  { evaluation := { progress.evaluation with
      autoHostlist := progress.evaluation.autoHostlist || automatic,
      hostnameRequired := progress.evaluation.hostnameRequired || host && (automatic || !entries.isEmpty),
      found },
    rows,
    hostInclude := progress.hostInclude || host && includes && (automatic || !entries.isEmpty),
    ipInclude := progress.ipInclude || !host && includes && !entries.isEmpty,
    anyIpEntries := progress.anyIpEntries || !host && !entries.isEmpty }

def entriesOf (reference : ListReference) : Option (List Text) :=
  if reference.inlineValues then some reference.entries else load.bind fun load => load reference.path

/- The outer loop, over the references; a list that cannot be loaded ends it. -/
def visitReferences : List ListReference → Progress → Except ProfileListEvaluation Progress
  | [], progress => .ok progress
  | reference :: rest, progress =>
    match entriesOf load reference with
    | none => .error { progress.evaluation with found := [] }
    | some entries => visitReferences rest (visitReference inet domain reference entries progress)

def Progress.outcome (progress : Progress) (row : Row) : Outcome :=
  if row.ip.isEmpty && progress.anyIpEntries then .ipRequired
  else if row.hits.ipExcluded then .excluded
  else if progress.ipInclude && !row.hits.ip then .unmatched
  else if domain.isEmpty && progress.evaluation.hostnameRequired then .hostnameRequired
  else if row.hits.hostExcluded then .excluded
  else if progress.hostInclude && !row.hits.host then (if progress.evaluation.autoHostlist then .autoPending else .unmatched)
  else if row.hits.host || row.hits.ip then .matched
  else .unrestricted

def single (outcomes : List Outcome) : Outcome :=
  match outcomes.dedup with
  | [outcome] => outcome
  | _ => .mixed

def queriedIps (addresses : List Text) : List Text := if (textSet addresses).isEmpty then [[]] else textSet addresses

def evaluateProfileLists (profile : ProfileReference) (addresses : List Text) : ProfileListEvaluation :=
  if !profile.supported then {}
  else
    match visitReferences inet domain load profile.lists { rows := (queriedIps addresses).map fun ip => { ip } } with
    | .error evaluation => evaluation
    | .ok progress => { progress.evaluation with result := single (progress.rows.map (progress.outcome domain)) }

end Evaluate

section Facts
variable {inet : Inet} {domain : Text} {load load' : ListLoader}

abbrev Loaded := ListRole × List Text

def automatic (list : Loaded) : Bool := list.1 == .hostlistAuto

def hostDemands (list : Loaded) : Bool := roleIsHostlist list.1 && (list.1 == .hostlistAuto || !list.2.isEmpty)

def hostRestricts (list : Loaded) : Bool := roleIsHostlist list.1 && roleIncludes list.1 && (list.1 == .hostlistAuto || !list.2.isEmpty)

def ipRestricts (list : Loaded) : Bool := !roleIsHostlist list.1 && roleIncludes list.1 && !list.2.isEmpty

def ipDemands (list : Loaded) : Bool := !roleIsHostlist list.1 && !list.2.isEmpty

variable (inet domain) in
def hits (ip : Text) (host includes : Bool) (list : Loaded) : Bool :=
  roleIsHostlist list.1 == host && roleIncludes list.1 == includes && (hitOf inet domain list.1 list.2 ip).isSome

variable (inet domain) in
def rowOf (lists : List Loaded) (ip : Text) : Row where
  ip
  hits := { host := lists.any (hits inet domain ip true true),
            ip := lists.any (hits inet domain ip false true),
            hostExcluded := lists.any (hits inet domain ip true false),
            ipExcluded := lists.any (hits inet domain ip false false) }

structure Shows (inet : Inet) (domain : Text) (ips : List Text) (lists : List Loaded) (progress : Progress) : Prop where
  autoHostlist : progress.evaluation.autoHostlist = lists.any automatic
  hostnameRequired : progress.evaluation.hostnameRequired = lists.any hostDemands
  hostInclude : progress.hostInclude = lists.any hostRestricts
  ipInclude : progress.ipInclude = lists.any ipRestricts
  anyIpEntries : progress.anyIpEntries = lists.any ipDemands
  rows : progress.rows = ips.map (rowOf inet domain lists)
  unknown : progress.evaluation.result = .unknown

theorem markedHits (before : Hits) (role : ListRole) : before.mark role =
    { host := before.host || roleIsHostlist role == true && roleIncludes role == true,
      ip := before.ip || roleIsHostlist role == false && roleIncludes role == true,
      hostExcluded := before.hostExcluded || roleIsHostlist role == true && roleIncludes role == false,
      ipExcluded := before.ipExcluded || roleIsHostlist role == false && roleIncludes role == false } := by
  unfold Hits.mark
  cases roleIsHostlist role <;> cases roleIncludes role <;> simp

theorem rowsMarked (reference : ListReference) (entries : List Text) (lists : List Loaded) (ips : List Text) : ∀ found :
    List ProfileListMatch,
    (markRows inet domain reference entries (ips.map (rowOf inet domain lists)) found).1 =
      ips.map (rowOf inet domain (lists ++ [(reference.role,entries)])) := by
  induction ips with
  | nil => exact fun _ => rfl
  | cons ip rest ih =>
    intro found
    rw [List.map_cons,List.map_cons,markRows]
    cases hit : hitOf inet domain reference.role entries (rowOf inet domain lists ip).ip with
    | none =>
      have none_ : hitOf inet domain reference.role entries ip = none := hit
      dsimp only
      rw [ih]
      congr 1
      simp [rowOf,hits,none_]
    | some found =>
      have some_ : hitOf inet domain reference.role entries ip = some found := hit
      dsimp only
      rw [ih,markedHits]
      congr 1
      simp [rowOf,hits,some_]

theorem visitShows {ips : List Text} {lists : List Loaded} {progress : Progress} (shows : Shows inet domain ips lists progress)
    (reference : ListReference) (entries : List Text) :
    Shows inet domain ips (lists ++ [(reference.role,entries)]) (visitReference inet domain reference entries progress) where
  autoHostlist := by
    change (progress.evaluation.autoHostlist || automatic (reference.role,entries)) = _
    rw [shows.autoHostlist]
    simp
  hostnameRequired := by
    change (progress.evaluation.hostnameRequired || hostDemands (reference.role,entries)) = _
    rw [shows.hostnameRequired]
    simp
  hostInclude := by
    change (progress.hostInclude || hostRestricts (reference.role,entries)) = _
    rw [shows.hostInclude]
    simp
  ipInclude := by
    change (progress.ipInclude || ipRestricts (reference.role,entries)) = _
    rw [shows.ipInclude]
    simp
  anyIpEntries := by
    change (progress.anyIpEntries || ipDemands (reference.role,entries)) = _
    rw [shows.anyIpEntries]
    simp
  rows := by
    change (markRows inet domain reference entries progress.rows progress.evaluation.found).1 = _
    rw [shows.rows,rowsMarked]
  unknown := shows.unknown

def loadedLists (load : ListLoader) : List ListReference → Option (List Loaded)
  | [] => some []
  | reference :: rest =>
    match entriesOf load reference, loadedLists load rest with
    | some entries, some later => some ((reference.role,entries) :: later)
    | _, _ => none

/- How the loop ends: with what all the lists say, or without a result. -/
def Ended (inet : Inet) (domain : Text) (ips : List Text) : Option (List Loaded) → Except ProfileListEvaluation Progress → Prop
  | some lists, .ok last => Shows inet domain ips lists last
  | none, .error evaluation => evaluation.result = .unknown
  | _, _ => False

theorem visitAll (references : List ListReference) : ∀ {ips : List Text} {lists : List Loaded} {progress : Progress},
    Shows inet domain ips lists progress →
    Ended inet domain ips ((loadedLists load references).map (lists ++ ·)) (visitReferences inet domain load references progress) := by
  induction references with
  | nil =>
    intro ips lists progress shows
    change Shows inet domain ips (lists ++ []) progress
    rw [List.append_nil]
    exact shows
  | cons reference rest ih =>
    intro ips lists progress shows
    rw [loadedLists,visitReferences]
    cases entriesOf load reference with
    | none => exact shows.unknown
    | some entries =>
      have later := ih (visitShows shows reference entries)
      cases loaded : loadedLists load rest with
      | none =>
        rw [loaded] at later
        exact later
      | some following =>
        rw [loaded,Option.map_some,List.append_assoc] at later
        exact later

/- The same members, whatever the order and however often: a list against any permutation or duplication of it. -/
def SameMembers {α : Type} (left right : List α) : Prop := ∀ a, a ∈ left ↔ a ∈ right

structure Alike (load load' : ListLoader) (left right : ListReference) : Prop where
  role : left.role = right.role
  there : ∀ entries, entriesOf load left = some entries → ∃ other, entriesOf load' right = some other ∧ SameMembers entries other
  back : ∀ other, entriesOf load' right = some other → ∃ entries, entriesOf load left = some entries ∧ SameMembers entries other

structure SameLists (load load' : ListLoader) (left right : List ListReference) : Prop where
  there : ∀ reference ∈ left, ∃ other ∈ right, Alike load load' reference other
  back : ∀ other ∈ right, ∃ reference ∈ left, Alike load load' reference other

structure AlikeLoaded (left right : List Loaded) : Prop where
  there : ∀ list ∈ left, ∃ other ∈ right, list.1 = other.1 ∧ SameMembers list.2 other.2
  back : ∀ other ∈ right, ∃ list ∈ left, list.1 = other.1 ∧ SameMembers list.2 other.2

theorem loadedMem {references : List ListReference} {lists : List Loaded} (loaded : loadedLists load references = some lists)
    (list : Loaded) :
    list ∈ lists ↔ ∃ reference ∈ references, reference.role = list.1 ∧ entriesOf load reference = some list.2 := by
  induction references generalizing lists with
  | nil =>
    cases loaded
    simp
  | cons reference rest ih =>
    rw [loadedLists] at loaded
    split at loaded
    · rename_i entries later found following
      cases loaded
      rw [List.mem_cons,ih following,List.exists_mem_cons_iff,found]
      refine or_congr_left ?_
      rw [Prod.ext_iff,Option.some.injEq]
      exact and_congr eq_comm eq_comm
    · cases loaded

theorem loadedNone {references : List ListReference} :
    loadedLists load references = none ↔ ∃ reference ∈ references, entriesOf load reference = none := by
  induction references with
  | nil => simp [loadedLists]
  | cons reference rest ih =>
    rw [loadedLists,List.exists_mem_cons_iff,← ih]
    cases entriesOf load reference with
    | none => simp
    | some entries =>
      cases loadedLists load rest with
      | none => simp
      | some later => simp

theorem anyAlike {left right : List Loaded} (same : AlikeLoaded left right) {holds : Loaded → Bool}
    (respects : ∀ list other : Loaded, list.1 = other.1 → SameMembers list.2 other.2 → holds list = holds other) :
    left.any holds = right.any holds := by
  rw [Bool.eq_iff_iff,List.any_eq_true,List.any_eq_true]
  constructor
  · rintro ⟨list,listed,yes⟩
    obtain ⟨other,found,role,members⟩ := same.there list listed
    exact ⟨other,found,respects list other role members ▸ yes⟩
  · rintro ⟨other,listed,yes⟩
    obtain ⟨list,found,role,members⟩ := same.back other listed
    exact ⟨list,found,(respects list other role members).symm ▸ yes⟩

theorem emptyAlike {left right : List Text} (same : SameMembers left right) : left.isEmpty = right.isEmpty := by
  rw [Bool.eq_iff_iff,List.isEmpty_iff,List.isEmpty_iff,List.eq_nil_iff_forall_not_mem,List.eq_nil_iff_forall_not_mem]
  exact forall_congr' fun entry => not_congr (same entry)

theorem hitAlike {role : ListRole} {left right : List Text} (same : SameMembers left right) (ip : Text) :
    (hitOf inet domain role left ip).isSome = (hitOf inet domain role right ip).isSome := by
  unfold hitOf
  split
  · split
    · exact rfl
    · rw [Bool.eq_iff_iff,(matchHostlistSpec left domain).1,(matchHostlistSpec right domain).1]
      exact and_congr_right fun _ => exists_congr fun raw => and_congr_left fun _ => same raw
  · split
    · exact rfl
    · rw [Bool.eq_iff_iff,(matchIpsetSpec inet left ip).1,(matchIpsetSpec inet right ip).1]
      exact exists_congr fun address => and_congr_right fun _ => exists_congr fun raw => and_congr_left fun _ => same raw

theorem singleAlike {left right : List Outcome} (same : SameMembers left right) : single left = single right := by
  have perm : left.dedup.Perm right.dedup :=
    (List.perm_ext_iff_of_nodup (List.nodup_dedup left) (List.nodup_dedup right)).mpr fun outcome => by
      rw [List.mem_dedup,List.mem_dedup]
      exact same outcome
  unfold single
  split
  · rename_i outcome one
    rw [one] at perm
    rw [List.perm_singleton.mp perm.symm]
  · rename_i many
    split
    · rename_i outcome one
      rw [one] at perm
      exact absurd (List.perm_singleton.mp perm) (many outcome)
    · exact rfl

theorem ipsAlike {left right : List Text} (same : SameMembers left right) : SameMembers (queriedIps left) (queriedIps right) := by
  have sorted : SameMembers (textSet left) (textSet right) := by
    intro ip
    rw [textSet,textSet,List.mem_insertionSort,List.mem_insertionSort,List.mem_dedup,List.mem_dedup]
    exact same ip
  unfold queriedIps
  rw [emptyAlike sorted]
  split
  · exact fun _ => Iff.rfl
  · exact sorted

section Same
variable {left right : List Loaded} (same : AlikeLoaded left right)
include same

theorem rowAlike (ip : Text) : rowOf inet domain left ip = rowOf inet domain right ip := by
  have any (host includes : Bool) : left.any (hits inet domain ip host includes) = right.any (hits inet domain ip host includes) := by
    refine anyAlike same fun list other role members => ?_
    rw [hits,hits,role,hitAlike members]
  rw [rowOf,rowOf,any,any,any,any]

theorem progressAlike {ips ips' : List Text} (members : SameMembers ips ips') {last last' : Progress}
    (shows : Shows inet domain ips left last)
    (shows' : Shows inet domain ips' right last') :
    single (last.rows.map (last.outcome domain)) = single (last'.rows.map (last'.outcome domain)) ∧
      last.evaluation.hostnameRequired = last'.evaluation.hostnameRequired ∧
        last.evaluation.autoHostlist = last'.evaluation.autoHostlist := by
  have automatics : last.evaluation.autoHostlist = last'.evaluation.autoHostlist := by
    rw [shows.autoHostlist,shows'.autoHostlist]
    exact anyAlike same fun list other role _ => by rw [automatic,automatic,role]
  have required : last.evaluation.hostnameRequired = last'.evaluation.hostnameRequired := by
    rw [shows.hostnameRequired,shows'.hostnameRequired]
    exact anyAlike same fun list other role entries => by rw [hostDemands,hostDemands,role,emptyAlike entries]
  have hosts : last.hostInclude = last'.hostInclude := by
    rw [shows.hostInclude,shows'.hostInclude]
    exact anyAlike same fun list other role entries => by rw [hostRestricts,hostRestricts,role,emptyAlike entries]
  have restricted : last.ipInclude = last'.ipInclude := by
    rw [shows.ipInclude,shows'.ipInclude]
    exact anyAlike same fun list other role entries => by rw [ipRestricts,ipRestricts,role,emptyAlike entries]
  have demanded : last.anyIpEntries = last'.anyIpEntries := by
    rw [shows.anyIpEntries,shows'.anyIpEntries]
    exact anyAlike same fun list other role entries => by rw [ipDemands,ipDemands,role,emptyAlike entries]
  have outcomes : last.outcome domain = last'.outcome domain := by
    funext row
    rw [Progress.outcome,Progress.outcome,automatics,required,hosts,restricted,demanded]
  refine ⟨singleAlike fun outcome => ?_,required,automatics⟩
  rw [shows.rows,shows'.rows,outcomes,List.map_map,List.map_map,List.mem_map,List.mem_map]
  exact exists_congr fun ip => and_congr (members ip) (by rw [Function.comp_apply,Function.comp_apply,rowAlike same])

end Same

theorem alikeNone {reference other : ListReference} (alike : Alike load load' reference other) :
    entriesOf load reference = none ↔ entriesOf load' other = none := by
  rw [Option.eq_none_iff_forall_ne_some,Option.eq_none_iff_forall_ne_some]
  constructor
  · intro missing entries found
    obtain ⟨held,loads,_⟩ := alike.back entries found
    exact missing held loads
  · intro missing entries found
    obtain ⟨held,loads,_⟩ := alike.there entries found
    exact missing held loads

theorem loadedNoneAlike {references others : List ListReference} (same : SameLists load load' references others) :
    loadedLists load references = none ↔ loadedLists load' others = none := by
  rw [loadedNone,loadedNone]
  constructor
  · rintro ⟨reference,listed,missing⟩
    obtain ⟨other,found,alike⟩ := same.there reference listed
    exact ⟨other,found,(alikeNone alike).mp missing⟩
  · rintro ⟨other,listed,missing⟩
    obtain ⟨reference,found,alike⟩ := same.back other listed
    exact ⟨reference,found,(alikeNone alike).mpr missing⟩

theorem loadedAlike {references others : List ListReference} (same : SameLists load load' references others) {lists lists' : List Loaded}
    (left : loadedLists load references = some lists) (right : loadedLists load' others = some lists') : AlikeLoaded lists lists' := by
  constructor
  · intro list listed
    obtain ⟨reference,found,role,entries⟩ := (loadedMem left list).mp listed
    obtain ⟨other,found',alike⟩ := same.there reference found
    obtain ⟨held,loads,members⟩ := alike.there list.2 entries
    exact ⟨(other.role,held),(loadedMem right _).mpr ⟨other,found',rfl,loads⟩,role.symm.trans alike.role,members⟩
  · intro list listed
    obtain ⟨other,found,role,entries⟩ := (loadedMem right list).mp listed
    obtain ⟨reference,found',alike⟩ := same.back other found
    obtain ⟨held,loads,members⟩ := alike.back list.2 entries
    exact ⟨(reference.role,held),(loadedMem left _).mpr ⟨reference,found',rfl,loads⟩,alike.role.trans role,members⟩

theorem evaluationAlike {profile profile' : ProfileReference} (supported : profile.supported = profile'.supported)
    (lists : SameLists load load' profile.lists profile'.lists) {addresses addresses' : List Text}
    (members : SameMembers addresses addresses') :
    (evaluateProfileLists inet domain load profile addresses).result = (evaluateProfileLists inet domain load' profile' addresses').result ∧
    (loadedLists load profile.lists ≠ none →
      (evaluateProfileLists inet domain load profile addresses).hostnameRequired =
        (evaluateProfileLists inet domain load' profile' addresses').hostnameRequired ∧
      (evaluateProfileLists inet domain load profile addresses).autoHostlist =
        (evaluateProfileLists inet domain load' profile' addresses').autoHostlist) := by
  have start (ips : List Text) : Shows inet domain ips [] { rows := ips.map fun ip => { ip } } := ⟨rfl,rfl,rfl,rfl,rfl,rfl,rfl⟩
  have ends := @visitAll inet domain load profile.lists _ _ _ (start (queriedIps addresses))
  have ends' := @visitAll inet domain load' profile'.lists _ _ _ (start (queriedIps addresses'))
  unfold evaluateProfileLists
  rw [supported]
  split
  · exact ⟨rfl,fun _ => ⟨rfl,rfl⟩⟩
  cases loaded : loadedLists load profile.lists with
  | none =>
    have loaded' := (loadedNoneAlike lists).mp loaded
    rw [loaded] at ends
    rw [loaded'] at ends'
    split
    · rename_i evaluation stopped
      rw [stopped] at ends
      split
      · rename_i evaluation' stopped'
        rw [stopped'] at ends'
        exact ⟨Eq.trans ends ends'.symm,fun some_ => absurd rfl some_⟩
      · rename_i last' went'
        rw [went'] at ends'
        exact ends'.elim
    · rename_i last went
      rw [went] at ends
      exact ends.elim
  | some read =>
    cases loaded' : loadedLists load' profile'.lists with
    | none =>
      rw [(loadedNoneAlike lists).mpr loaded'] at loaded
      cases loaded
    | some read' =>
      rw [loaded] at ends
      rw [loaded'] at ends'
      split
      · rename_i evaluation stopped
        rw [stopped] at ends
        exact ends.elim
      · rename_i last went
        rw [went] at ends
        split
        · rename_i evaluation' stopped'
          rw [stopped'] at ends'
          exact ends'.elim
        · rename_i last' went'
          rw [went'] at ends'
          obtain ⟨result,flags⟩ := progressAlike (loadedAlike lists loaded loaded') (ipsAlike members) ends ends'
          exact ⟨result,fun _ => flags⟩

end Facts

/- The two matchers exactly, and the decision over the lists whatever the order and the repetitions. -/
theorem listsMatched (inet : Inet) :
    (∀ entries domain,
      ((matchHostlist entries domain).isSome = true ↔ lower (trim domain) ≠ [] ∧ ∃ raw ∈ entries, HostCovers (lower (trim domain)) raw) ∧
      ∀ hit, matchHostlist entries domain = some hit → hit.entry ∈ entries ∧ HostCovers (lower (trim domain)) hit.entry ∧
        (hit.exact_ = true ↔ entryName hit.entry = lower (trim domain)) ∧
        ∀ raw ∈ entries, HostCovers (lower (trim domain)) raw → (entryName raw).length ≤ (entryName hit.entry).length) ∧
    (∀ entries ip,
      ((matchIpset inet entries ip).isSome = true ↔ ∃ address, queried inet ip = some address ∧
        ∃ raw ∈ entries, ∃ range, parsePrefix inet (trim raw) = some range ∧ range.Covers address) ∧
      ∀ hit, matchIpset inet entries ip = some hit → ∃ address range, queried inet ip = some address ∧ hit.entry ∈ entries ∧
        parsePrefix inet (trim hit.entry) = some range ∧ range.Covers address ∧ (hit.exact_ = true ↔ range.bits = familyBits range.family) ∧
        ∀ raw ∈ entries, ∀ other, parsePrefix inet (trim raw) = some other → other.Covers address → other.bits ≤ range.bits) ∧
    ∀ domain load load' (profile profile' : ProfileReference) addresses addresses', profile.supported = profile'.supported →
      SameLists load load' profile.lists profile'.lists → SameMembers addresses addresses' →
      (evaluateProfileLists inet domain load profile addresses).result =
        (evaluateProfileLists inet domain load' profile' addresses').result :=
  ⟨matchHostlistSpec,matchIpsetSpec inet,fun _ _ _ _ _ _ _ supported lists members => (evaluationAlike supported lists members).1⟩

/- A profile with a list of names and one of excluded addresses, and the same with everything in another order and twice. -/
def namesOf (entries : List Text) : ListReference := { path := text "names", inlineValues := true, entries }

def blockedOf (entries : List Text) : ListReference := { path := text "blocked", role := .ipsetExclude, inlineValues := true, entries }

def plainProfile : ProfileReference :=
  { lists := [namesOf [text "a.example",text "b.example"],blockedOf [text "10.0.0.0/8",text "10.1.0.0/16"]] }

def shuffledProfile : ProfileReference :=
  { lists := [blockedOf [text "10.1.0.0/16",text "10.0.0.0/8"],namesOf [text "b.example",text "a.example",text "b.example"]] }

theorem inlineAlike {left right : ListReference} (role : left.role = right.role) (here : left.inlineValues = true)
    (there : right.inlineValues = true)
    (members : SameMembers left.entries right.entries) : Alike none none left right where
  role := role
  there entries found := by
    rw [entriesOf,if_pos here] at found
    exact ⟨right.entries,by rw [entriesOf,if_pos there],Option.some.inj found ▸ members⟩
  back other found := by
    rw [entriesOf,if_pos there] at found
    exact ⟨left.entries,by rw [entriesOf,if_pos here],Option.some.inj found ▸ members⟩

theorem swapped {α : Type} (a b : α) : SameMembers [a,b] [b,a] := by
  intro c
  rw [List.mem_pair,List.mem_pair,or_comm]

theorem swappedTwice {α : Type} (a b : α) : SameMembers [a,b] [b,a,b] := by
  intro c
  simp only [List.mem_cons,List.not_mem_nil,or_false]
  tauto

theorem shuffledLists (a b c d : Text) : SameLists none none [namesOf [a,b],blockedOf [c,d]] [blockedOf [d,c],namesOf [b,a,b]] := by
  have names : Alike none none (namesOf [a,b]) (namesOf [b,a,b]) := inlineAlike rfl rfl rfl (swappedTwice a b)
  have blocked : Alike none none (blockedOf [c,d]) (blockedOf [d,c]) := inlineAlike rfl rfl rfl (swapped c d)
  constructor
  · refine List.forall_mem_cons.mpr ⟨⟨_,List.mem_cons_of_mem _ List.mem_cons_self,names⟩,?_⟩
    exact List.forall_mem_singleton.mpr ⟨_,List.mem_cons_self,blocked⟩
  · refine List.forall_mem_cons.mpr ⟨⟨_,List.mem_cons_of_mem _ List.mem_cons_self,blocked⟩,?_⟩
    exact List.forall_mem_singleton.mpr ⟨_,List.mem_cons_self,names⟩

theorem shuffledMatched :
    (evaluateProfileLists plainInet (text "www.a.example") none plainProfile [text "8.8.8.8",text "10.1.2.3"]).result = .mixed ∧
    (evaluateProfileLists plainInet (text "www.a.example") none shuffledProfile
    [text "10.1.2.3",text "8.8.8.8",text "10.1.2.3"]).result = .mixed := by
  have mixed : (evaluateProfileLists plainInet (text "www.a.example") none plainProfile [text "8.8.8.8",text "10.1.2.3"]).result
    = .mixed := by decide
  have same := (listsMatched plainInet).2.2 (text "www.a.example") none none plainProfile shuffledProfile _ _ rfl (shuffledLists _ _ _ _)
    (swappedTwice (text "8.8.8.8") (text "10.1.2.3"))
  exact ⟨mixed,same.symm.trans mixed⟩

end KeenPbr.ListMatch

import KeenPbr.Document
import Mathlib.Data.List.Induction

/-! config/route_rule_retirement.hpp: the DNS rules that were bound to route rules lose the lists of those
that a new configuration removes. The fields of a rule that the schema does not know are left out. -/
namespace KeenPbr.RuleRetirement
open Documents
variable {ω : Type}

section Function
variable (next previous : Document ω)

def routeRuleStillPresent (rule : RouteRule) : Bool :=
  (next.routeRules.getD []).any fun candidate => if rule.id.isSome && candidate.id.isSome then rule.id == candidate.id
    else rule == candidate

/- A binding from before route_rule_ids: catalogue lists of the rule, on a server with the rule's detour. -/
def legacyLinked (dns : DnsRule) (route : RouteRule) : Bool :=
  (((previous.dns.bind (·.servers)).getD []).find? fun item => item.tag == dns.server).any
    (fun server => server.detour == some route.outbound) &&
    !dns.list.isEmpty && dns.list.all fun id =>
      ((previous.lists.bind (·.lookup id)).any fun list => list.catalogIdentity.isSome) && (routeRuleLists route).contains id

def linked (dns : DnsRule) (owners : List String) (route : RouteRule) : Bool :=
  if dns.routeRuleIds.isNone && previous.lists.isSome then legacyLinked previous dns route else route.id.any owners.contains

def retireOwner (dns : DnsRule) (state : List String × List String) (route : RouteRule) : List String × List String :=
  if routeRuleStillPresent next route then state
  else if !linked previous dns state.2 route then state
  else (state.1 ++ routeRuleLists route,state.2.filter fun owner => route.id != some owner)

/- A list that a rule of the next configuration names is affected no more, and the rule owns the binding. -/
def keepList (route : RouteRule) (state : List String × List String) (list : String) : List String × List String :=
  if state.1.contains list then
    (state.1.filter (· != list),
      match route.id with
      | some id => if state.2.contains id then state.2 else state.2 ++ [id]
      | none => state.2)
  else state

def keepLists (state : List String × List String) (route : RouteRule) :
    List String × List String := (routeRuleLists route).foldl (keepList route) state

def affectedBy (dns : DnsRule) : List String × List String :=
  (previous.routeRules.getD []).foldl (retireOwner next previous dns) ([],dns.routeRuleIds.getD [])

def usedBy (dns : DnsRule) : List String × List String := (next.routeRules.getD []).foldl keepLists (affectedBy next previous dns)

def retireRule (dns : DnsRule) : Option DnsRule :=
  if (affectedBy next previous dns).1.isEmpty then some dns
  else
    let used := usedBy next previous dns
    let list := dns.list.filter fun id => !used.1.contains id
    if list.isEmpty then none else some { dns with list, routeRuleIds := if used.2.isEmpty then none else some used.2 }

def retireRouteDnsBindings : Document ω :=
  match previous.routeRules,next.dns.bind (·.rules) with
  | some _,some rules => { next with dns := next.dns.map fun dns => { dns with rules := some (rules.filterMap
    (retireRule next previous)) } }
  | _,_ => next

end Function

section Affected
variable {next previous : Document ω} {dns : DnsRule}

def Removed (next : Document ω) (route : RouteRule) : Prop := routeRuleStillPresent next route = false

def Bound (next previous : Document ω) (dns : DnsRule) (earlier : List RouteRule) (route : RouteRule) : Prop :=
  if dns.routeRuleIds.isNone && previous.lists.isSome then legacyLinked previous dns route = true
  else ∃ id ∈ dns.routeRuleIds.getD [], route.id = some id ∧ ∀ other ∈ earlier, Removed next other → other.id ≠ some id

/- A removed rule that the DNS rule was bound to names the list. -/
def Affected (next previous : Document ω) (dns : DnsRule) (list : String) : Prop :=
  ∃ earlier route later, previous.routeRules.getD [] = earlier ++ route :: later ∧ Removed next route ∧
    Bound next previous dns earlier route ∧
    list ∈ routeRuleLists route

def Unused (next : Document ω) (list : String) : Prop := ∀ route ∈ next.routeRules.getD [], list ∉ routeRuleLists route

structure Found (next previous : Document ω) (dns : DnsRule) (done : List RouteRule) (state : List String × List String) : Prop where
  affected : ∀ list, list ∈ state.1 ↔ ∃ earlier route later, done = earlier ++ route :: later ∧ Removed next route ∧
    Bound next previous dns earlier route ∧
    list ∈ routeRuleLists route
  owners : ∃ stays : String → Bool, (∀ id, stays id = true ↔ ∀ route ∈ done, Removed next route → route.id ≠ some id) ∧
    state.2 = (dns.routeRuleIds.getD []).filter stays

theorem Found.ownersIff {done : List RouteRule} {state : List String × List String} (found : Found next previous dns done state)
    (id : String) :
    id ∈ state.2 ↔ id ∈ dns.routeRuleIds.getD [] ∧ ∀ route ∈ done, Removed next route → route.id ≠ some id := by
  obtain ⟨stays,left,same⟩ := found.owners
  rw [same,List.mem_filter,left]

theorem linkedBound {done : List RouteRule} {state : List String × List String} (found : Found next previous dns done state)
    (route : RouteRule) :
    linked previous dns state.2 route = true ↔ Bound next previous dns done route := by
  unfold linked Bound
  cases legacy : dns.routeRuleIds.isNone && previous.lists.isSome with
  | true => rfl
  | false =>
    rw [if_neg Bool.false_ne_true,if_neg Bool.false_ne_true]
    cases named : route.id with
    | none => simp
    | some id =>
      rw [Option.any_some,List.contains_iff_mem,found.ownersIff]
      constructor
      · intro both
        exact ⟨id,both.1,rfl,both.2⟩
      · rintro ⟨other,mem,same,fresh⟩
        cases same
        exact ⟨mem,fresh⟩

theorem splitSnoc {α : Type} {done : List α} {last : α} {P : List α → α → Prop} :
    (∃ earlier item later, done ++ [last] = earlier ++ item :: later ∧ P earlier item) ↔
      (∃ earlier item later, done = earlier ++ item :: later ∧ P earlier item) ∨ P done last := by
  constructor
  · rintro ⟨earlier,item,later,shape,holds⟩
    rcases List.eq_nil_or_concat later with rfl | ⟨front,end_,rfl⟩
    · obtain ⟨rfl,same⟩ := List.append_inj' shape rfl
      cases same
      exact .inr holds
    · rw [List.concat_eq_append,← List.cons_append,← List.append_assoc] at shape
      exact .inl ⟨earlier,item,front,(List.append_inj' shape rfl).1,holds⟩
  · rintro (⟨earlier,item,later,rfl,holds⟩ | holds)
    · exact ⟨earlier,item,later ++ [last],by rw [List.append_assoc,List.cons_append],holds⟩
    · exact ⟨done,last,[],rfl,holds⟩

theorem foundStep {done : List RouteRule} {state : List String × List String} (found : Found next previous dns done state)
    (route : RouteRule) :
    Found next previous dns (done ++ [route]) (retireOwner next previous dns state route) := by
  have same (apart : ¬(Removed next route ∧ Bound next previous dns done route)) (list : String) : list ∈ state.1 ↔
      ∃ earlier other later, done ++ [route] = earlier ++ other :: later ∧ Removed next other ∧ Bound next previous dns earlier other ∧
        list ∈ routeRuleLists other := by
    rw [splitSnoc,← found.affected list]
    exact ⟨.inl,fun either => either.elim id fun both => absurd ⟨both.1,both.2.1⟩ apart⟩
  have seen {id : String} : (∀ other ∈ done ++ [route], Removed next other → other.id ≠ some id) ↔
      (∀ other ∈ done, Removed next other → other.id ≠ some id) ∧ (Removed next route → route.id ≠ some id) := by
    rw [List.forall_mem_append]
    exact and_congr_right fun _ => List.forall_mem_singleton
  obtain ⟨stays,left,kept⟩ := found.owners
  -- no owner is this rule, so that the owners are as they were
  have unmoved (other : ∀ id ∈ state.2, Removed next route → route.id ≠ some id) :
      ∃ stays : String → Bool, (∀ id, stays id = true ↔ ∀ other ∈ done ++ [route], Removed next other → other.id ≠ some id) ∧
        state.2 = (dns.routeRuleIds.getD []).filter stays := by
    classical
    refine ⟨fun id => decide (Removed next route → route.id ≠ some id) && stays id,fun id => ?_,?_⟩
    · rw [Bool.and_eq_true,left,decide_eq_true_eq,seen,and_comm]
    · rw [← List.filter_filter,← kept]
      exact (List.filter_eq_self.mpr fun id mem => decide_eq_true (other id mem)).symm
  unfold retireOwner
  cases present : routeRuleStillPresent next route with
  | true =>
    have stillThere : ¬Removed next route := fun removed => by
      rw [Removed,present] at removed
      cases removed
    exact ⟨same fun both => stillThere both.1,unmoved fun _ _ removed => absurd removed stillThere⟩
  | false =>
    rw [if_neg Bool.false_ne_true]
    cases link : linked previous dns state.2 route with
    | false =>
      have unbound : ¬Bound next previous dns done route := fun bound => by
        rw [(linkedBound found route).mpr bound] at link
        cases link
      refine ⟨same fun both => unbound both.2,unmoved fun id mem _ named => ?_⟩
      unfold linked at link
      split at link
      · rename_i legacy
        -- without route_rule_ids there is no owner
        have none_ := ((found.ownersIff id).mp mem).1
        rw [Bool.and_eq_true,Option.isNone_iff_eq_none] at legacy
        rw [legacy.1] at none_
        cases none_
      · rw [named,Option.any_some,List.contains_iff_mem.mpr mem] at link
        cases link
    | true =>
      have bound := (linkedBound found route).mp link
      rw [Bool.not_true,if_neg Bool.false_ne_true]
      refine ⟨fun list => ?_,fun id => stays id && route.id != some id,fun id => ?_,?_⟩
      · rw [List.mem_append,splitSnoc,found.affected]
        exact or_congr_right ⟨fun mem => ⟨present,bound,mem⟩,fun both => both.2.2⟩
      · rw [Bool.and_eq_true,left,bne_iff_ne,seen]
        exact and_congr_right fun _ => ⟨fun other _ => other,fun other => other present⟩
      · rw [kept,List.filter_filter]
        exact List.filter_congr fun id _ => Bool.and_comm _ _

theorem foundAll (dns : DnsRule) : Found next previous dns (previous.routeRules.getD []) (affectedBy next previous dns) := by
  unfold affectedBy
  generalize previous.routeRules.getD [] = routes
  induction routes using List.reverseRecOn with
  | nil => exact ⟨fun list => by simp,fun _ => true,fun id => by simp,(List.filter_eq_self.mpr fun _ _ => rfl).symm⟩
  | append_singleton front route ih =>
    rw [List.foldl_append]
    exact foundStep ih route

theorem affectedIff (list : String) :
    list ∈ (affectedBy next previous dns).1 ↔ Affected next previous dns list := (foundAll dns).affected list

end Affected

section Kept
variable {next previous : Document ω} {dns : DnsRule}

theorem keepListsMem (route : RouteRule) (names : List String) (state : List String × List String) (list : String) :
    list ∈ (names.foldl (keepList route) state).1 ↔ list ∈ state.1 ∧ list ∉ names := by
  induction names generalizing state with
  | nil => simp
  | cons name rest ih =>
    rw [List.foldl_cons,ih,List.mem_cons,not_or,← and_assoc]
    refine and_congr_left fun _ => ?_
    unfold keepList
    by_cases held : state.1.contains name = true
    · rw [if_pos held,List.mem_filter,bne_iff_ne]
    · rw [if_neg held]
      refine ⟨fun mem => ⟨mem,fun same => held ?_⟩,And.left⟩
      rw [List.contains_iff_mem,← same]
      exact mem

theorem keepListsOwners (route : RouteRule) (names : List String) (state : List String × List String) :
    (names.foldl (keepList route) state).2 =
      if ∃ name ∈ names, name ∈ state.1 then state.2 ++ (route.id.toList.filter fun id => !state.2.contains id) else state.2 := by
  induction names generalizing state with
  | nil => rw [if_neg (by simp)]; rfl
  | cons name rest ih =>
    rw [List.foldl_cons,ih]
    unfold keepList
    by_cases held : state.1.contains name = true
    · have here : ∃ other ∈ name :: rest, other ∈ state.1 := ⟨name,List.mem_cons_self,List.contains_iff_mem.mp held⟩
      rw [if_pos held,if_pos here]
      cases route.id with
      | none => simp
      | some id =>
        by_cases own : state.2.contains id = true
        · simp [List.contains_iff_mem.mp own]
        · have fresh : id ∉ state.2 := fun mem => own (List.contains_iff_mem.mpr mem)
          simp [fresh]
    · have apart : name ∉ state.1 := fun mem => held (List.contains_iff_mem.mpr mem)
      rw [if_neg held]
      simp only [List.exists_mem_cons_iff,apart,false_or]

theorem usedMem (routes : List RouteRule) (state : List String × List String) (list : String) :
    list ∈ (routes.foldl keepLists state).1 ↔ list ∈ state.1 ∧ ∀ route ∈ routes, list ∉ routeRuleLists route := by
  induction routes generalizing state with
  | nil => simp
  | cons route rest ih => rw [List.foldl_cons,ih,keepLists,keepListsMem,List.forall_mem_cons,and_assoc]

def FirstNames (lists : List String) (earlier : List RouteRule) (route : RouteRule) (id : String) : Prop :=
  route.id = some id ∧ ∃ list ∈ routeRuleLists route, list ∈ lists ∧ ∀ other ∈ earlier, list ∉ routeRuleLists other

theorem usedOwners (routes : List RouteRule) (state : List String × List String) :
    ∃ gained, (routes.foldl keepLists state).2 = state.2 ++ gained ∧ gained.Nodup ∧ gained.Sublist (routes.filterMap (·.id)) ∧
      ∀ id, id ∈ gained ↔ (∃ earlier route later, routes = earlier ++ route :: later ∧ FirstNames state.1 earlier route id) ∧
        id ∉ state.2 := by
  induction routes using List.reverseRecOn with
  | nil => exact ⟨[],(List.append_nil _).symm,List.nodup_nil,List.Sublist.refl _,fun id => by simp⟩
  | append_singleton done route ih =>
    obtain ⟨gained,owners,distinct,ordered,ids⟩ := ih
    have lists : (∃ name ∈ routeRuleLists route, name ∈ (done.foldl keepLists state).1) ↔
        ∃ list ∈ routeRuleLists route, list ∈ state.1 ∧ ∀ other ∈ done, list ∉ routeRuleLists other := by
      simp only [usedMem]
    rw [List.foldl_append,List.foldl_cons,List.foldl_nil,keepLists,keepListsOwners,List.filterMap_append]
    have longer : gained.Sublist (done.filterMap (·.id) ++ [route].filterMap (·.id)) := ordered.trans (List.sublist_append_left _ _)
    -- the rule adds nobody
    have unmoved (held : ∀ id, FirstNames state.1 done route id → id ∈ state.2 ++ gained) (id : String) :
        id ∈ gained ↔ (∃ earlier other later, done ++ [route] = earlier ++ other :: later ∧ FirstNames state.1 earlier other id) ∧
          id ∉ state.2 := by
      rw [splitSnoc,ids]
      refine and_congr_left fun fresh => ⟨.inl,fun either => either.elim (fun old => old) fun first_ => ?_⟩
      exact ((ids id).mp ((List.mem_append.mp (held id first_)).resolve_left fresh)).1
    split
    · rename_i named
      have first := lists.mp named
      cases own : route.id with
      | none =>
        refine ⟨gained,by simpa using owners,distinct,longer,unmoved fun id first_ => ?_⟩
        cases own.symm.trans first_.1
      | some owner =>
        by_cases held : owner ∈ state.2 ++ gained
        · have known : ((some owner).toList.filter fun id => !(state.2 ++ gained).contains id) = [] := by
            rw [Option.toList_some,List.filter_cons,List.contains_iff_mem.mpr held]
            rfl
          refine ⟨gained,by rw [owners,known,List.append_nil],distinct,longer,unmoved fun id first_ => ?_⟩
          cases own.symm.trans first_.1
          exact held
        · rw [List.mem_append,not_or] at held
          refine ⟨gained ++ [owner],by simp [owners,held.1,held.2],?_,?_,fun id => ?_⟩
          · exact List.nodup_append.mpr ⟨distinct,List.nodup_singleton _,by
              rintro a mem b last rfl
              exact held.2 (List.mem_singleton.mp last ▸ mem)⟩
          · exact ordered.append (by simp [own])
          · rw [List.mem_append,List.mem_singleton,splitSnoc,ids,or_and_right]
            refine or_congr_right ⟨?_,fun both => ?_⟩
            · rintro rfl
              exact ⟨⟨own,first⟩,held.1⟩
            · have named := both.1.1
              rw [own] at named
              exact (Option.some.inj named).symm
    · rename_i unnamed
      exact ⟨gained,owners,distinct,longer,unmoved fun id first_ => absurd (lists.mpr first_.2) unnamed⟩

theorem goneIff (list : String) : list ∈ (usedBy next previous dns).1 ↔ Affected next previous dns list ∧ Unused next list := by
  rw [usedBy,usedMem,affectedIff]
  rfl

/- The owners of a narrowed rule: its own but for the removed rules, and behind them the rules of the next configuration
that are the first to name an affected list, each once and in their order. -/
def Owners (next previous : Document ω) (dns : DnsRule) (owners : List String) : Prop :=
  ∃ stays : String → Bool, ∃ gained,
    (∀ id, stays id = true ↔ ∀ route ∈ previous.routeRules.getD [], Removed next route → route.id ≠ some id) ∧
    owners = (dns.routeRuleIds.getD []).filter stays ++ gained ∧
    gained.Nodup ∧ gained.Sublist ((next.routeRules.getD []).filterMap (·.id)) ∧
    ∀ id, id ∈ gained ↔ (∃ earlier route later, next.routeRules.getD [] = earlier ++ route :: later ∧ route.id = some id ∧
      ∃ list ∈ routeRuleLists route, Affected next previous dns list ∧ ∀ other ∈ earlier, list ∉ routeRuleLists other) ∧
      id ∉ (dns.routeRuleIds.getD []).filter stays

theorem ownersExact : Owners next previous dns (usedBy next previous dns).2 := by
  have found : Found next previous dns _ _ := foundAll dns
  obtain ⟨stays,left,kept⟩ := found.owners
  obtain ⟨gained,owners,distinct,ordered,ids⟩ := usedOwners (next.routeRules.getD []) (affectedBy next previous dns)
  rw [kept] at owners
  refine ⟨stays,gained,left,owners,distinct,ordered,fun id => ?_⟩
  rw [ids,kept]
  simp only [FirstNames,affectedIff]

theorem Owners.left {owners : List String} (exact_ : Owners next previous dns owners) {id : String} (mem : id ∈ owners) :
    ∀ route ∈ previous.routeRules.getD [], Removed next route → route.id ≠ some id := by
  obtain ⟨stays,gained,left,rfl,-,-,ids⟩ := exact_
  intro route listed removed named
  rcases List.mem_append.mp mem with old | new
  · exact (left id).mp (List.mem_filter.mp old).2 route listed removed named
  · obtain ⟨⟨earlier,candidate,later,shape,own,-⟩,-⟩ := (ids id).mp new
    have present : routeRuleStillPresent next route = true := by
      refine List.any_eq_true.mpr ⟨candidate,shape ▸ List.mem_append_right _ List.mem_cons_self,?_⟩
      rw [named,own]
      simp
    rw [Removed,present] at removed
    cases removed

end Kept

section Retired
variable {next previous : Document ω} {dns : DnsRule}

/- What becomes of one DNS rule. -/
structure Narrowed (next previous : Document ω) (dns : DnsRule) (result : Option DnsRule) : Prop where
  untouched : (∀ list, ¬Affected next previous dns list) → result = some dns
  narrowed : (∃ list, Affected next previous dns list) → ∃ keep : String → Bool,
    (∀ list, keep list = false ↔ Affected next previous dns list ∧ Unused next list) ∧
    ((dns.list.filter keep = [] ∧ result = none) ∨
      (dns.list.filter keep ≠ [] ∧ ∃ owners, Owners next previous dns owners ∧
        result = some { dns with list := dns.list.filter keep, routeRuleIds := if owners.isEmpty then none else some owners }))

theorem emptyIff : (affectedBy next previous dns).1.isEmpty = true ↔ ∀ list, ¬Affected next previous dns list := by
  rw [List.isEmpty_iff,List.eq_nil_iff_forall_not_mem]
  exact forall_congr' fun list => not_congr (affectedIff list)

theorem retireNarrowed (dns : DnsRule) : Narrowed next previous dns (retireRule next previous dns) := by
  unfold retireRule
  refine ⟨fun free => if_pos (emptyIff.mpr free),fun touched => ?_⟩
  have some_ : ¬(affectedBy next previous dns).1.isEmpty = true := fun empty => by
    obtain ⟨list,affected⟩ := touched
    exact emptyIff.mp empty list affected
  rw [if_neg some_]
  refine ⟨fun id => !(usedBy next previous dns).1.contains id,fun list => ?_,?_⟩
  · rw [Bool.not_eq_false',List.contains_iff_mem,goneIff]
  · dsimp only
    split
    · rename_i empty
      exact .inl ⟨List.isEmpty_iff.mp empty,rfl⟩
    · rename_i filled
      exact .inr ⟨fun empty => filled (List.isEmpty_iff.mpr empty),_,ownersExact,rfl⟩

theorem retireCongr {other : Document ω} (same : other.routeRules = next.routeRules) :
    retireRule other previous = retireRule next previous := by
  funext dns
  have present : routeRuleStillPresent other = routeRuleStillPresent next := by
    funext rule
    unfold routeRuleStillPresent
    rw [same]
  unfold retireRule usedBy affectedBy
  have owner : retireOwner other previous dns = retireOwner next previous dns := by
    funext state route
    unfold retireOwner
    rw [present]
  rw [owner,same]

/- The rule is bound to no removed rule any more. -/
def Settled (next previous : Document ω) (rule : DnsRule) : Prop :=
  rule.routeRuleIds.isSome = true ∨ ∀ route ∈ previous.routeRules.getD [], Removed next route → legacyLinked previous rule route = false

theorem settledKept {result : DnsRule} (retired : retireRule next previous dns = some result) (settled : Settled next previous result) :
    retireRule next previous result = some result := by
  refine (retireNarrowed result).untouched ?_
  have narrowed : Narrowed next previous dns (retireRule next previous dns) := retireNarrowed dns
  rw [retired] at narrowed
  by_cases touched : ∃ list, Affected next previous dns list
  · obtain ⟨keep,-,gone | ⟨-,owners,exact_,same⟩⟩ := narrowed.narrowed touched
    · cases gone.2
    · have held : ∀ id ∈ (if owners.isEmpty then none else some owners).getD [], id ∈ owners := by
        intro id mem
        split at mem
        · cases mem
        · exact mem
      generalize (if owners.isEmpty then none else some owners) = ids at same held
      cases same
      rintro list ⟨earlier,route,later,shape,removed,bound,-⟩
      have listed : route ∈ previous.routeRules.getD [] := by
        rw [shape]
        exact List.mem_append_right _ List.mem_cons_self
      unfold Bound at bound
      split at bound
      · rename_i legacy
        rw [Bool.and_eq_true,Option.isNone_iff_eq_none] at legacy
        rcases settled with some_ | unlinked
        · rw [legacy.1] at some_
          cases some_
        · rw [unlinked route listed removed] at bound
          cases bound
      · obtain ⟨id,mem,named,-⟩ := bound
        exact exact_.left (held id mem) route listed removed named
  · have free : ∀ list, ¬Affected next previous dns list := fun list affected => touched ⟨list,affected⟩
    cases narrowed.untouched free
    exact free

theorem retireAgain (rules : List DnsRule) (settled : ∀ rule ∈ rules.filterMap (retireRule next previous), Settled next previous rule) :
    (rules.filterMap (retireRule next previous)).filterMap (retireRule next previous) = rules.filterMap (retireRule next previous) := by
  have kept : ∀ rule ∈ rules.filterMap (retireRule next previous), retireRule next previous rule = some rule := by
    intro rule mem
    obtain ⟨old,-,retired⟩ := List.mem_filterMap.mp mem
    exact settledKept retired (settled rule mem)
  rw [List.filterMap_congr kept]
  exact List.filterMap_some

theorem retireEq {routes : List RouteRule} {dns : DnsConfig} {rules : List DnsRule} (given : previous.routeRules = some routes)
    (held : next.dns = some dns)
    (listed : dns.rules = some rules) : retireRouteDnsBindings next previous =
      { next with dns := some { dns with rules := some (rules.filterMap (retireRule next previous)) } } := by
  unfold retireRouteDnsBindings
  rw [given,held,Option.bind_some,listed]
  rfl

/- Only the DNS rules change: each is narrowed in its place, and narrowed for good where it is settled. -/
theorem bindingsRetired (next previous : Document ω) :
    ((previous.routeRules = none ∨ next.dns.bind (·.rules) = none) → retireRouteDnsBindings next previous = next) ∧
    ∀ dns rules, previous.routeRules ≠ none → next.dns = some dns → dns.rules = some rules → ∃ result : DnsRule → Option DnsRule,
      (∀ rule, Narrowed next previous rule (result rule)) ∧
      retireRouteDnsBindings next previous = { next with dns := some { dns with rules := some (rules.filterMap result) } } ∧
      ((∀ rule ∈ rules.filterMap result, Settled next previous rule) →
        retireRouteDnsBindings (retireRouteDnsBindings next previous) previous = retireRouteDnsBindings next previous) := by
  constructor
  · intro absent
    unfold retireRouteDnsBindings
    rcases absent with none_ | none_
    · rw [none_]
    · rw [none_]
      cases previous.routeRules <;> rfl
  · intro dns rules some_ held listed
    obtain ⟨routes,given⟩ := Option.ne_none_iff_exists'.mp some_
    have once := retireEq given held listed
    refine ⟨retireRule next previous,retireNarrowed,once,fun settled => ?_⟩
    have same : retireRule { next with dns := some { dns with rules := some (rules.filterMap (retireRule next previous)) } } previous =
        retireRule next previous := retireCongr rfl
    rw [once,retireEq given rfl rfl,same,retireAgain rules settled]

def replacedRule : Document Unit where
  rest := ()
  routeRules := some [{ outbound := "vpn", id := some "replacement", list := some ["music"] }]
  dns := some { rules := some [{ server := "vpn_dns", list := ["music"], routeRuleIds := some ["music"] }] }

def beforeReplaced : Document Unit :=
  { replacedRule with routeRules := some [{ outbound := "vpn", id := some "music", list := some ["music"] }] }

theorem ownerReplaced : retireRouteDnsBindings replacedRule beforeReplaced =
    { replacedRule with dns := some { rules := some [{ server := "vpn_dns", list := ["music"], routeRuleIds := some ["replacement"] }] } } := by
  decide

theorem replacedNarrowed : ∃ result : DnsRule → Option DnsRule, (∀ rule, Narrowed replacedRule beforeReplaced rule (result rule)) ∧
    (retireRouteDnsBindings replacedRule beforeReplaced).dns.bind (·.rules) =
      some ([{ server := "vpn_dns", list := ["music"], routeRuleIds := some ["music"] }].filterMap result) := by
  obtain ⟨result,narrowed,once,-⟩ := (bindingsRetired replacedRule beforeReplaced).2 _ _ (by decide) rfl rfl
  exact ⟨result,narrowed,by rw [once]; rfl⟩

/- The last owner of a rule went with its list, and another removed rule, which did not own it, names the list that
is left: read as a binding of the old kind, that list goes too. -/
def ownerless : Document Unit where
  rest := ()
  lists := some [("films",{ catalogIdentity := some "b2" })]
  routeRules := some []
  dns := some
    { servers := some [{ tag := "vpn_dns", detour := some "vpn" }]
      rules := some [{ server := "vpn_dns", list := ["music","films"], routeRuleIds := some ["music"] }] }

def beforeOwnerless : Document Unit :=
  { ownerless with routeRules := some [{ outbound := "vpn", id := some "music", list := some ["music"] },
      { outbound := "vpn", id := some "films", list := some ["films"] }] }

example : ((retireRouteDnsBindings ownerless beforeOwnerless).dns.bind (·.rules)) = some [{ server := "vpn_dns", list := ["films"] }] ∧
    ((retireRouteDnsBindings (retireRouteDnsBindings ownerless beforeOwnerless) beforeOwnerless).dns.bind (·.rules)) = some [] := by
  decide

end Retired
end KeenPbr.RuleRetirement

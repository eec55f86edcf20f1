import KeenPbr.ConfigValidation

/-! What an accepted configuration promises to the code that reads it afterwards. -/
namespace KeenPbr

theorem oneIssueNotNil (path message code : String) (params : List (String × String)) :
    oneIssue path message code params ≠ [] := List.cons_ne_nil _ _

theorem lookupAppend (seen : List (String × Nat)) (tag other : String) (index : Nat) :
    (seen ++ [(tag,index)]).lookup other = (seen.lookup other).or (if other = tag then some index else none) := by
  induction seen with
  | nil =>
    by_cases same : other = tag
    · simp [same]
    · have differs : (other == tag) = false := by simpa using same
      simp [List.lookup_cons,differs,same]
  | cons entry rest ih =>
    rw [List.cons_append,List.lookup_cons,List.lookup_cons,ih]
    cases other == entry.1 <;> simp

theorem distinctTags {outbounds : List Outbound} {index : Nat} {seen : List (String × Nat)}
    (clean : duplicateTags outbounds index seen = []) :
    (outbounds.map (·.tag)).Nodup ∧ ∀ ob ∈ outbounds, seen.lookup ob.tag = none := by
  induction outbounds generalizing index seen with
  | nil => simp
  | cons ob rest ih =>
    rw [duplicateTags] at clean
    split at clean
    · exact absurd (List.append_eq_nil_iff.mp clean).1 (oneIssueNotNil _ _ _ _)
    · rename_i fresh
      obtain ⟨distinct,unseen⟩ := ih clean
      have later : ∀ other ∈ rest, seen.lookup other.tag = none ∧ other.tag ≠ ob.tag := by
        intro other mem
        have absent := unseen other mem
        rw [lookupAppend,Option.or_eq_none_iff] at absent
        exact ⟨absent.1,by simpa using absent.2⟩
      rw [List.map_cons,List.nodup_cons]
      refine ⟨⟨?_,distinct⟩,?_⟩
      · intro mem
        obtain ⟨other,listed,same⟩ := List.mem_map.mp mem
        exact (later other listed).2 same
      · intro other mem
        cases List.mem_cons.mp mem with
        | inl first =>
          subst first
          exact fresh
        | inr listed => exact (later other listed).1

theorem tagValid {path kind value : String} (clean : validateTag path kind value = []) : isValidTag value = true := by
  unfold validateTag at clean
  split at clean
  · exact absurd clean (oneIssueNotNil _ _ _ _)
  · have named := (List.append_eq_nil_iff.mp clean).2
    split at named
    · exact absurd named (oneIssueNotNil _ _ _ _)
    · rename_i valid
      simpa using valid

structure AcceptedConfig (inet : Inet) (cfg : Config) : Prop where
  lists : ∀ name ∈ cfg.lists, isValidTag name = true
  distinct : (cfg.outboundList.map (·.tag)).Nodup
  outbounds : ∀ ob ∈ cfg.outboundList, outboundIssues inet cfg.outboundList ob = []
  acyclic : validateUrltestCycles (urltestGraph cfg.outboundList) = []
  rules : routeRuleIssues cfg cfg.routeRules 0 [] = []
  marked : ∃ marks, allocateOutboundMarks cfg.fwmark cfg.outboundList = .ok marks
  freeStart : isReservedTable cfg.tableStartValue = false

theorem allocated {cfg : Config} (clean : fwmarkIssues cfg = []) :
    ∃ marks, allocateOutboundMarks cfg.fwmark cfg.outboundList = .ok marks := by
  unfold fwmarkIssues at clean
  simp only [List.append_eq_nil_iff] at clean
  obtain ⟨⟨start,mask⟩,allocation⟩ := clean
  cases hs : parseFwmarkStartOrThrow cfg.fwmark with
  | error message =>
    rw [hs] at start
    exact absurd start (oneIssueNotNil _ _ _ _)
  | ok first =>
    split at mask
    · exact absurd mask (oneIssueNotNil _ _ _ _)
    · rename_i valid
      rw [hs,valid] at allocation
      simp only at allocation
      split at allocation
      · exact absurd allocation (oneIssueNotNil _ _ _ _)
      · rename_i marks found
        exact ⟨marks,found⟩

theorem acceptedConfig {inet : Inet} {cfg : Config} (accepted : validateConfig inet cfg = []) : AcceptedConfig inet cfg := by
  unfold validateConfig at accepted
  simp only [List.append_eq_nil_iff] at accepted
  obtain ⟨⟨⟨⟨⟨⟨lists,tags⟩,outbounds⟩,cycles⟩,rules⟩,fwmark⟩,start⟩ := accepted
  have names : ∀ name ∈ cfg.lists, isValidTag name = true := fun name mem => tagValid (List.flatMap_eq_nil_iff.mp lists name mem)
  refine ⟨names,(distinctTags tags).1,List.flatMap_eq_nil_iff.mp outbounds,cycles,rules,allocated fwmark,?_⟩
  unfold tableStartIssues at start
  split at start
  · exact absurd start (oneIssueNotNil _ _ _ _)
  · rename_i free
    simpa using free

theorem outboundTagValid {inet : Inet} {cfg : Config} (accepted : AcceptedConfig inet cfg) {ob : Outbound}
    (listed : ob ∈ cfg.outboundList) : isValidTag ob.tag = true := by
  have clean := accepted.outbounds ob listed
  unfold outboundIssues at clean
  simp only [List.append_eq_nil_iff] at clean
  exact tagValid clean.1.1.1.1

theorem childrenDistinct {outbounds : List Outbound} {ob : Outbound} {path : String} {children : List String} {index : Nat}
    {seen : List (String × String)} (clean : (childIssues outbounds ob path children index seen).1 = []) :
    children.Nodup ∧ (∀ child ∈ children, seen.lookup child = none) ∧
      ∀ tag, ((childIssues outbounds ob path children index seen).2.lookup tag).isSome = true ↔
        (seen.lookup tag).isSome = true ∨ tag ∈ children := by
  induction children generalizing index seen with
  | nil => exact ⟨List.nodup_nil,nofun,by simp [childIssues]⟩
  | cons ref rest ih =>
    rw [childIssues] at clean ⊢
    dsimp only at clean ⊢
    obtain ⟨⟨repeated,_⟩,later⟩ := by
      rw [List.append_eq_nil_iff,List.append_eq_nil_iff] at clean
      exact clean
    have fresh : seen.lookup ref = none := by
      split at repeated
      · exact absurd repeated (oneIssueNotNil _ _ _ _)
      · assumption
    rw [fresh] at later ⊢
    simp only [Option.isSome_none,Bool.false_eq_true,if_false] at later ⊢
    obtain ⟨distinct,unseen,known⟩ := ih later
    have apart : ∀ child ∈ rest, child ≠ ref ∧ seen.lookup child = none := by
      intro child mem
      have nothing := unseen child mem
      rw [List.lookup_append] at nothing
      obtain ⟨old,last⟩ := Option.or_eq_none_iff.mp nothing
      refine ⟨?_,old⟩
      rintro rfl
      simp at last
    refine ⟨List.nodup_cons.mpr ⟨fun mem => (apart ref mem).1 rfl,distinct⟩,?_,?_⟩
    · intro child mem
      cases List.mem_cons.mp mem with
      | inl same => rw [same,fresh]
      | inr more => exact (apart child more).2
    · intro tag
      rw [known tag,List.lookup_append]
      by_cases same : tag = ref
      · subst same
        simp
      · have differs : (tag == ref) = false := beq_false_of_ne same
        simp [List.lookup_cons,differs,same]

theorem groupsDistinct {outbounds : List Outbound} {ob : Outbound} {groups : List OutboundGroup} {index : Nat}
    {seen : List (String × String)} (clean : groupIssues outbounds ob groups index seen = []) :
    (groups.flatMap (·.outbounds)).Nodup ∧ ∀ child ∈ groups.flatMap (·.outbounds), seen.lookup child = none := by
  induction groups generalizing index seen with
  | nil => exact ⟨List.nodup_nil,nofun⟩
  | cons group rest ih =>
    rw [groupIssues] at clean
    dsimp only at clean
    rw [List.append_eq_nil_iff,List.append_eq_nil_iff] at clean
    obtain ⟨⟨_,children⟩,later⟩ := clean
    obtain ⟨distinct,unseen,known⟩ := childrenDistinct children
    obtain ⟨restDistinct,restUnseen⟩ := ih later
    have apart : ∀ child ∈ rest.flatMap (·.outbounds), seen.lookup child = none ∧ child ∉ group.outbounds := by
      intro child mem
      have nothing := restUnseen child mem
      have unknown : ¬ ((seen.lookup child).isSome = true ∨ child ∈ group.outbounds) := by
        rw [← known child,nothing]
        exact Bool.false_ne_true
      obtain ⟨old,new⟩ := not_or.mp unknown
      exact ⟨Option.not_isSome_iff_eq_none.mp old,new⟩
    rw [List.flatMap_cons]
    refine ⟨List.nodup_append.mpr ⟨distinct,restDistinct,?_⟩,?_⟩
    · rintro child mem other otherMem rfl
      exact (apart child otherMem).2 mem
    · intro child mem
      cases List.mem_append.mp mem with
      | inl own => exact unseen child own
      | inr more => exact (apart child more).1

theorem integerRange {path : String} {value : Option Int} {minimum maximum : Int}
    (clean : validateOptionalIntegerRange path value minimum maximum = []) {number : Int} (given : value = some number) :
    minimum ≤ number ∧ number ≤ maximum := by
  subst given
  rw [validateOptionalIntegerRange] at clean
  split at clean
  · exact absurd clean (oneIssueNotNil _ _ _ _)
  · rename_i inside
    simp only [Bool.or_eq_true,decide_eq_true_eq,not_or,not_lt] at inside
    exact ⟨inside.1,inside.2⟩

theorem acceptedUrltest {inet : Inet} {cfg : Config} (accepted : AcceptedConfig inet cfg) {ob : Outbound}
    (listed : ob ∈ cfg.outboundList) (type : ob.type = .urltest) :
    ((ob.outboundGroups.getD []).flatMap (·.outbounds)).Nodup ∧
      1 ≤ (toUint32 ((ob.circuitBreaker.getD {}).halfOpenMaxRequests.getD 1)).toNat := by
  have clean := accepted.outbounds ob listed
  unfold outboundIssues at clean
  rw [List.append_eq_nil_iff] at clean
  have own := clean.2
  rw [type] at own
  simp only [beq_self_eq_true,if_true] at own
  unfold urltestIssues at own
  dsimp only at own
  rw [List.append_eq_nil_iff] at own
  obtain ⟨numbers,groups⟩ := own
  refine ⟨?_,?_⟩
  · split at groups
    · exact absurd groups (oneIssueNotNil _ _ _ _)
    · exact (groupsDistinct groups).1
  · simp only [List.append_eq_nil_iff] at numbers
    have range := numbers.2
    cases given : (ob.circuitBreaker.getD {}).halfOpenMaxRequests with
    | none => decide
    | some limit =>
      obtain ⟨low,high⟩ := integerRange range given
      rw [kMaxUrltestUint32Value] at high
      rw [Option.getD_some,toUint32,UInt32.toNat_ofNat']
      omega

theorem dropNothing {p : Char → Bool} {chars : Text} (none : ∀ c ∈ chars, p c = false) : chars.dropWhile p = chars := by
  cases chars with
  | nil => rfl
  | cons c rest => rw [List.dropWhile_cons_of_neg (by simp [none c List.mem_cons_self])]

theorem trimTextSelf {chars : Text} (none : ∀ c ∈ chars, trimmed c = false) : trimText chars = chars := by
  rw [trimText,dropNothing none,dropNothing fun c mem => none c (List.mem_reverse.mp mem),List.reverse_reverse]

theorem tagLetter {c : Char} (letter : (('a' ≤ c && c ≤ 'z') || isDigit c || c == '_') = true) : trimmed c = false := by
  cases blank : trimmed c with
  | false => rfl
  | true =>
    simp only [trimmed,Bool.or_eq_true,beq_iff_eq] at blank
    obtain ((((same | same) | same) | same) | same) | same := blank <;> (subst same; exact absurd letter (by decide))

theorem trimValidTag {value : String} (valid : isValidTag value = true) : trimCopy value = value := by
  have clear : ∀ c ∈ value.toList, trimmed c = false := by
    unfold isValidTag at valid
    intro c mem
    cases chars : value.toList with
    | nil =>
      rw [chars] at mem
      cases mem
    | cons first rest =>
      rw [chars] at mem valid
      simp only [Bool.and_eq_true] at valid
      obtain ⟨⟨⟨_,low⟩,high⟩,others⟩ := valid
      cases List.mem_cons.mp mem with
      | inl same =>
        subst same
        exact tagLetter (by simp [low,high])
      | inr later => exact tagLetter (List.all_eq_true.mp others c later)
  rw [trimCopy,trimTextSelf clear,String.ofList_toList]

structure AcceptedRule (cfg : Config) (rule : RouteRule) : Prop where
  outbound : trimCopy rule.outbound ∈ cfg.outboundList.map (·.tag)
  policy : ∃ path, failurePolicyIssues cfg.outboundList path rule = []
  lists : ∀ name ∈ routeRuleLists rule, trimCopy name ∈ cfg.lists

theorem referenceKnown {known : List String} {path owner value kind code : String}
    (clean : validateRequiredReference known path owner value kind code = []) : trimCopy value ∈ known := by
  unfold validateRequiredReference at clean
  simp only at clean
  split at clean
  · exact absurd clean (oneIssueNotNil _ _ _ _)
  · split at clean
    · exact absurd clean (oneIssueNotNil _ _ _ _)
    · rename_i found
      simpa using found

theorem acceptedRules {cfg : Config} {rules : List RouteRule} {index : Nat} {ids : List (String × Nat)}
    (clean : routeRuleIssues cfg rules index ids = []) : ∀ rule ∈ rules, AcceptedRule cfg rule := by
  induction rules generalizing index ids with
  | nil =>
    intro rule mem
    cases mem
  | cons first rest ih =>
    rw [routeRuleIssues] at clean
    simp only [List.append_eq_nil_iff] at clean
    obtain ⟨⟨⟨⟨⟨_,_⟩,outbound⟩,policy⟩,lists⟩,later⟩ := clean
    intro rule mem
    cases List.mem_cons.mp mem with
    | inr mem => exact ih later rule mem
    | inl same =>
      subst same
      refine ⟨referenceKnown outbound,⟨_,policy⟩,?_⟩
      intro name listed
      obtain ⟨place,at_place⟩ := List.mem_iff_getElem?.mp listed
      have pair : (name,place) ∈ (routeRuleLists rule).zipIdx := List.mem_zipIdx_iff_getElem?.mpr at_place
      exact referenceKnown (List.flatMap_eq_nil_iff.mp lists (name,place) pair)

end KeenPbr

import KeenPbr.ConntrackScope
import KeenPbr.RtnetlinkCodec

/-! What exact_identity_representable promises: two messages that decode to one exact value describe one
kernel object. The identity is read off the message itself, with the defaults of Linux filled in. -/
namespace KeenPbr.Rtnetlink

section Attributes
variable (platform : Platform)

def collect (views : List AttributeView) (view : AttributeView) : Option (List AttributeView) := some (views ++ [view])

def attributesOf (bytes : List UInt8) : Option (List AttributeView) := visitAttributes platform collect bytes []

/- Linux attribute parsers retain the last duplicate. -/
def lastOf (type : UInt16) (views : List AttributeView) : Option AttributeView := views.reverse.find? fun view => view.type == type

theorem lastOfSnoc (type : UInt16) (views : List AttributeView) (view : AttributeView) :
    lastOf type (views ++ [view]) = if view.type = type then some view else lastOf type views := by
  unfold lastOf
  rw [List.reverse_append,List.reverse_singleton,List.singleton_append,List.find?_cons]
  by_cases own : view.type = type
  · rw [if_pos own,beq_iff_eq.mpr own]
  · rw [if_neg own,beq_eq_false_iff_ne.mpr own]

theorem lastOfMem {type : UInt16} {views : List AttributeView} {view : AttributeView} (found : lastOf type views = some view) :
    view ∈ views ∧ view.type = type := by
  have holds := List.find?_some (p := fun view : AttributeView => view.type == type) found
  exact ⟨List.mem_reverse.mp (List.mem_of_find?_eq_some found),beq_iff_eq.mp holds⟩

section Folding
variable {σ : Type} (visitor : σ → AttributeView → Option σ)

theorem visitStep (rounds : Nat) (rest : List UInt8) :
    (∀ state : σ, visitFrom platform visitor (rounds + 1) rest state = none) ∧
    (∀ views, visitFrom platform collect (rounds + 1) rest views = none) ∨
    (∀ state : σ, visitFrom platform visitor (rounds + 1) rest state = some state) ∧
      (∀ views, visitFrom platform collect (rounds + 1) rest views = some views) ∨
    ∃ view left, (∀ state : σ, visitFrom platform visitor (rounds + 1) rest state = (visitor state view).bind
      (visitFrom platform visitor rounds left)) ∧
      ∀ views, visitFrom platform collect (rounds + 1) rest views = visitFrom platform collect rounds left (views ++ [view]) := by
  simp only [visitFrom,collect]
  by_cases ended : rest.isEmpty = true
  · exact .inr (.inl ⟨fun _ => if_pos ended,fun _ => if_pos ended⟩)
  · by_cases short : rest.length < 4
    · exact .inl ⟨fun _ => by rw [if_neg ended,if_pos short],fun _ => by rw [if_neg ended,if_pos short]⟩
    · by_cases framed : ((platform.u16 rest 0).toNat < 4 || rest.length < (platform.u16 rest 0).toNat) = true
      · exact .inl ⟨fun _ => by rw [if_neg ended,if_neg short,if_pos framed],fun _ => by rw [if_neg ended,if_neg short,if_pos framed]⟩
      · by_cases cut : rest.length < rtaAlign (platform.u16 rest 0).toNat
        · by_cases last : (platform.u16 rest 0).toNat = rest.length
          · refine .inr (.inr ⟨attributeView platform rest (platform.u16 rest 0).toNat,[],fun state => ?_,fun views => ?_⟩)
            · rw [if_neg ended,if_neg short,if_neg framed]
              cases visitor state (attributeView platform rest (platform.u16 rest 0).toNat) with
              | none => rfl
              | some next => simp only [if_pos cut,if_pos last,Option.bind_some]
            · rw [if_neg ended,if_neg short,if_neg framed,if_pos cut,if_pos last]
          · refine .inl ⟨fun state => ?_,fun views => ?_⟩
            · rw [if_neg ended,if_neg short,if_neg framed]
              cases visitor state (attributeView platform rest (platform.u16 rest 0).toNat) with
              | none => rfl
              | some next => simp only [if_pos cut,if_neg last]
            · rw [if_neg ended,if_neg short,if_neg framed,if_pos cut,if_neg last]
        · refine .inr (.inr ⟨attributeView platform rest (platform.u16 rest 0).toNat,rest.drop
            (rtaAlign (platform.u16 rest 0).toNat),fun state => ?_,fun views => ?_⟩)
          · rw [if_neg ended,if_neg short,if_neg framed]
            cases visitor state (attributeView platform rest (platform.u16 rest 0).toNat) with
            | none => rfl
            | some next => simp only [if_neg cut,Option.bind_some]
          · rw [if_neg ended,if_neg short,if_neg framed,if_neg cut]

theorem collectFrom (rounds : Nat) (rest : List UInt8) (views : List AttributeView) :
    visitFrom platform collect rounds rest views = (visitFrom platform collect rounds rest []).map (views ++ ·) := by
  induction rounds generalizing rest views with
  | zero =>
    simp only [visitFrom]
    split
    · rw [Option.map_some,List.append_nil]
    · rfl
  | succ rounds ih =>
    rcases visitStep platform collect rounds rest with ⟨_,none_⟩ | ⟨_,same⟩ | ⟨view,left,_,goes⟩
    · rw [none_,none_]
      rfl
    · rw [same,same,Option.map_some,List.append_nil]
    · rw [goes,goes,ih,ih left ([] ++ [view]),Option.map_map]
      refine congrArg (fun f => Option.map f _) (funext fun later => ?_)
      simp

/- A visitor sees the attributes one after the other, and a walk that it or the framing stops gives nothing. -/
theorem visitFromFolds (rounds : Nat) (rest : List UInt8) (state : σ) :
    visitFrom platform visitor rounds rest state = (visitFrom platform collect rounds rest []).bind fun views =>
      views.foldlM visitor state := by
  induction rounds generalizing rest state with
  | zero =>
    simp only [visitFrom]
    split
    · rfl
    · rfl
  | succ rounds ih =>
    rcases visitStep platform visitor rounds rest with ⟨stops,none_⟩ | ⟨ends,same⟩ | ⟨view,left,goes,collects⟩
    · rw [stops,none_]
      rfl
    · rw [ends,same]
      rfl
    · rw [goes,collects,List.nil_append,collectFrom]
      have first : ∀ later, ([view] ++ later).foldlM visitor state = (visitor state view).bind fun next => later.foldlM visitor next :=
        fun _ => List.foldlM_cons
      cases taken : visitor state view with
      | none =>
        cases visitFrom platform collect rounds left [] with
        | none => rfl
        | some later => rw [Option.map_some,Option.bind_some,first,taken,Option.bind_none,Option.bind_none]
      | some next =>
        rw [Option.bind_some,ih]
        cases visitFrom platform collect rounds left [] with
        | none => rfl
        | some later => rw [Option.map_some,Option.bind_some,Option.bind_some,first,taken,Option.bind_some]

theorem visitFolds (bytes : List UInt8) (state : σ) :
    visitAttributes platform visitor bytes state = (attributesOf platform bytes).bind fun views => views.foldlM visitor state :=
  visitFromFolds platform visitor bytes.length bytes state

variable {visitor} {platform}

theorem foldKeeps {keeps : List AttributeView → σ → Prop}
    (step : ∀ views state view next, keeps views state → visitor state view = some next → keeps (views ++ [view]) next)
    {early views : List AttributeView}
    {start last : σ} (begun : keeps early start) (walked : views.foldlM visitor start = some last) : keeps (early ++ views) last := by
  induction views generalizing early start with
  | nil =>
    rw [List.foldlM_nil] at walked
    cases walked
    rw [List.append_nil]
    exact begun
  | cons view rest ih =>
    rw [List.foldlM_cons] at walked
    obtain ⟨next,taken,later⟩ := Option.bind_eq_some_iff.mp walked
    rw [List.append_cons]
    exact ih (step early start view next begun taken) later

end Folding

def Shows {β : Type} (type : UInt16) (read : AttributeView → β → Prop) (absent : β → Prop) (views : List AttributeView)
    (field : Bool × β) : Prop :=
  match lastOf type views with
  | none => field.1 = false ∧ absent field.2
  | some view => field.1 = true ∧ read view field.2

def Takes {β : Type} (type : UInt16) (read : AttributeView → β → Prop) (view : AttributeView) (old new : Bool × β) : Prop :=
  if view.type = type then new.1 = true ∧ read view new.2 else new = old

theorem Shows.step {β : Type} {type : UInt16} {read : AttributeView → β → Prop} {absent : β → Prop} {views : List AttributeView}
    {view : AttributeView}
    {old new : Bool × β} (shows_ : Shows type read absent views old) (takes : Takes type read view old new) :
    Shows type read absent (views ++ [view]) new := by
  unfold Shows
  rw [lastOfSnoc]
  unfold Takes at takes
  by_cases own : view.type = type
  · rw [if_pos own] at takes ⊢
    exact takes
  · rw [if_neg own] at takes ⊢
    rw [takes]
    exact shows_

end Attributes

section Routes
variable {platform : Platform} {inet : Inet} {options : RawRtnetlinkDumpOptions} {message : Rtmsg}

def ReadsDestination (inet : Inet) (message : Rtmsg) (view : AttributeView) (destination : String) : Prop :=
  ∃ address, addressString inet message.addressFamily view = some address ∧
    destination = if message.dstLen = 0 then "default" else address ++ "/" ++ toString message.dstLen.toNat

def ReadsInterface (platform : Platform) (options : RawRtnetlinkDumpOptions) (view : AttributeView) (interface : Option String) : Prop :=
  ∃ index, readU32 platform view = some index ∧ interface = (interfaceName index options).1

def ReadsGateway (inet : Inet) (message : Rtmsg) (view : AttributeView) (gateway : Option String) : Prop :=
  ∃ address, addressString inet message.addressFamily view = some address ∧ gateway = some address

def ReadsU32 (platform : Platform) (view : AttributeView) (value : UInt32) : Prop := readU32 platform view = some value

def RouteAttribute (platform : Platform) (options : RawRtnetlinkDumpOptions) (view : AttributeView) : Prop :=
  view.type ∈ [rtaDst,rtaTable,rtaGateway,rtaPriority] ∨ (view.type = rtaCacheinfo ∧ view.payload.length = sizeofRtaCacheinfo) ∨
    (view.type = rtaOif ∧ ∃ index, readU32 platform view = some index ∧ (interfaceName index options).2 = true) ∨
    (view.type = kRouteAttributePreference ∧ readU8 view = some 0)

structure RouteStep (platform : Platform) (inet : Inet) (options : RawRtnetlinkDumpOptions) (message : Rtmsg)
    (view : AttributeView) (old new : RouteWalk) : Prop where
  destination : Takes rtaDst (ReadsDestination inet message) view (old.sawDestination,old.output.destination)
    (new.sawDestination,new.output.destination)
  table : Takes rtaTable (ReadsU32 platform) view (old.sawTable,old.tableAttribute) (new.sawTable,new.tableAttribute)
  interface : Takes rtaOif (ReadsInterface platform options) view (old.sawInterface,old.output.interface)
    (new.sawInterface,new.output.interface)
  gateway : Takes rtaGateway (ReadsGateway inet message) view (old.sawGateway,old.output.gateway) (new.sawGateway,new.output.gateway)
  metric : Takes rtaPriority (ReadsU32 platform) view (old.sawMetric,old.output.metric) (new.sawMetric,new.output.metric)
  fixed : new.output.family = old.output.family ∧ new.output.protocol = old.output.protocol ∧ new.output.blackhole = old.output.blackhole ∧
    new.output.unreachable = old.output.unreachable ∧ new.output.table = old.output.table
  cached : new.sawCacheInfo = (old.sawCacheInfo || view.type == rtaCacheinfo)
  exact : new.output.exactIdentityRepresentable = true →
    old.output.exactIdentityRepresentable = true ∧ RouteAttribute platform options view ∧ new.sawMultipath = old.sawMultipath ∧
      (old.sawCacheInfo = true → view.type ≠ rtaCacheinfo)

theorem routeStep {view : AttributeView} {old new : RouteWalk} (stepped : routeVisitor platform inet options message old view = some new) :
    RouteStep platform inet options message view old new := by
  unfold routeVisitor at stepped
  dsimp only at stepped
  -- one branch for each attribute that is taken
  iterate 5
    split at stepped
    · rename_i own
      obtain ⟨value,read,rfl⟩ := Option.map_eq_some_iff.mp stepped
      constructor
      all_goals simp +contextual [Takes,own,ReadsDestination,ReadsU32,ReadsInterface,ReadsGateway,read,RouteWalk.inexactIf,
        RouteAttribute,rtaDst,rtaTable,
        rtaOif,rtaGateway,rtaPriority,rtaCacheinfo]
  rename_i noDst noTable noOif noGateway noPriority
  split at stepped
  · rename_i own
    cases stepped
    constructor
    all_goals simp [Takes,own,RouteWalk.inexactIf,rtaDst,rtaTable,rtaOif,rtaGateway,rtaPriority,rtaMultipath,rtaCacheinfo]
  · split at stepped
    · rename_i own
      cases stepped
      constructor
      all_goals simp +contextual [Takes,own,RouteWalk.inexactIf,RouteAttribute,rtaDst,rtaTable,rtaOif,rtaGateway,rtaPriority,rtaCacheinfo]
    · split at stepped
      · rename_i own
        obtain ⟨preference,read,rfl⟩ := Option.map_eq_some_iff.mp stepped
        constructor
        all_goals simp +contextual [Takes,own,read,RouteWalk.inexactIf,RouteAttribute,rtaDst,rtaTable,rtaOif,rtaGateway,rtaPriority,
          rtaCacheinfo,kRouteAttributePreference]
      · rename_i noCache _
        cases stepped
        constructor
        all_goals simp [Takes,noDst,noTable,noOif,noGateway,noPriority,noCache,RouteWalk.inexactIf]

structure WalkedRoute (platform : Platform) (inet : Inet) (options : RawRtnetlinkDumpOptions) (message : Rtmsg)
    (views : List AttributeView) (walk : RouteWalk) : Prop where
  destination : Shows rtaDst (ReadsDestination inet message) (fun text => message.dstLen = 0 → text = "default") views
    (walk.sawDestination,walk.output.destination)
  table : Shows rtaTable (ReadsU32 platform) (fun _ => True) views (walk.sawTable,walk.tableAttribute)
  interface : Shows rtaOif (ReadsInterface platform options) (· = none) views (walk.sawInterface,walk.output.interface)
  gateway : Shows rtaGateway (ReadsGateway inet message) (· = none) views (walk.sawGateway,walk.output.gateway)
  metric : Shows rtaPriority (ReadsU32 platform) (· = 0) views (walk.sawMetric,walk.output.metric)
  fixed : walk.output.family = message.addressFamily ∧ walk.output.protocol = message.protocol ∧ walk.output.blackhole = message.blackhole ∧
    walk.output.unreachable = message.unreachable ∧ walk.output.table = message.table.toUInt32
  cached : walk.sawCacheInfo = views.any (·.type == rtaCacheinfo)
  exact : walk.output.exactIdentityRepresentable = true → (RouteWalk.start message).output.exactIdentityRepresentable = true ∧
    (∀ view ∈ views, RouteAttribute platform options view) ∧ walk.sawMultipath = false ∧ (views.filter (·.type == rtaCacheinfo)).tail = []

theorem walkedStart : WalkedRoute platform inet options message [] (RouteWalk.start message) where
  destination := ⟨rfl,fun default => if_pos default⟩
  table := ⟨rfl,trivial⟩
  interface := ⟨rfl,rfl⟩
  gateway := ⟨rfl,rfl⟩
  metric := ⟨rfl,rfl⟩
  fixed := ⟨rfl,rfl,rfl,rfl,rfl⟩
  cached := rfl
  exact := fun kept => ⟨kept,fun _ absent => (by cases absent),rfl,rfl⟩

theorem WalkedRoute.step {views : List AttributeView} {walk next : RouteWalk} {view : AttributeView}
    (walked : WalkedRoute platform inet options message views walk)
    (stepped : routeVisitor platform inet options message walk view = some next) :
    WalkedRoute platform inet options message (views ++ [view]) next := by
  have step := routeStep stepped
  obtain ⟨family,protocol,blackhole,unreachable,table⟩ := step.fixed
  refine ⟨walked.destination.step step.destination,walked.table.step step.table,walked.interface.step step.interface,
    walked.gateway.step step.gateway,walked.metric.step step.metric,?_,?_,fun kept => ?_⟩
  · rw [family,protocol,blackhole,unreachable,table]
    exact walked.fixed
  · rw [step.cached,walked.cached,List.any_append,List.any_cons,List.any_nil,Bool.or_false]
  · obtain ⟨before,allowed,multipath,once⟩ := step.exact kept
    obtain ⟨start,all,single,lone⟩ := walked.exact before
    refine ⟨start,List.forall_mem_append.mpr ⟨all,List.forall_mem_singleton.mpr allowed⟩,multipath ▸ single,?_⟩
    rw [List.filter_append]
    by_cases own : view.type = rtaCacheinfo
    · have fresh : views.filter (·.type == rtaCacheinfo) = [] := by
        refine List.filter_eq_nil_iff.mpr fun other mem same => once ?_ own
        rw [walked.cached]
        exact List.any_eq_true.mpr ⟨other,mem,same⟩
      have taken : [view].filter (·.type == rtaCacheinfo) = [view] := List.filter_cons_of_pos (beq_iff_eq.mpr own)
      rw [fresh,taken]
      rfl
    · have other : [view].filter (·.type == rtaCacheinfo) = [] := List.filter_cons_of_neg fun same => own (beq_iff_eq.mp same)
      rw [other,List.append_nil]
      exact lone

theorem walkedRoute {views : List AttributeView} {walk : RouteWalk}
    (walked : views.foldlM (routeVisitor platform inet options message) (RouteWalk.start message) = some walk) :
    WalkedRoute platform inet options message views walk :=
  foldKeeps (fun _ _ _ _ kept stepped => kept.step stepped) walkedStart walked

/- The loopback device that Linux shows on an IPv6 reject route. -/
def kernelLoopback (message : Rtmsg) (interface : Option String) (gateway : Bool) : Bool :=
  (message.blackhole || message.unreachable) && message.addressFamily == afInet6 && interface == some "lo" && !gateway

theorem finishKeeps {walk : RouteWalk} (blackhole : walk.output.blackhole = message.blackhole)
    (unreachable : walk.output.unreachable = message.unreachable)
    (single : walk.sawMultipath = false) :
    (walk.finish message).destination = walk.output.destination ∧ (walk.finish message).gateway = walk.output.gateway ∧
      (walk.finish message).metric = walk.output.metric ∧ (walk.finish message).family = walk.output.family ∧
      (walk.finish message).protocol = walk.output.protocol ∧ (walk.finish message).blackhole = walk.output.blackhole ∧
      (walk.finish message).unreachable = walk.output.unreachable ∧
      (walk.finish message).table = (if walk.sawTable then walk.tableAttribute else walk.output.table) ∧
      (walk.finish message).interface = if kernelLoopback message walk.output.interface walk.sawGateway then none
        else walk.output.interface := by
  unfold RouteWalk.finish kernelLoopback
  rw [blackhole,unreachable,single]
  cases (message.blackhole || message.unreachable) with
  | false => cases walk.sawTable <;> simp [RouteWalk.inexactIf,blackhole,unreachable]
  | true =>
    by_cases loop : (message.addressFamily == afInet6 && walk.output.interface == some "lo" && !walk.sawGateway) = true
    · cases walk.sawTable <;> simp [RouteWalk.inexactIf,blackhole,unreachable,loop]
    · cases walk.sawTable <;> simp [RouteWalk.inexactIf,blackhole,unreachable,loop]

theorem finishExact {walk : RouteWalk} (kept : (walk.finish message).exactIdentityRepresentable = true) :
    walk.output.exactIdentityRepresentable = true ∧ (message.dstLen ≠ 0 → walk.sawDestination = true) := by
  unfold RouteWalk.finish at kept
  cases rejects : (walk.output.blackhole || walk.output.unreachable) with
  | false =>
    cases saw : walk.sawTable <;> simp [RouteWalk.inexactIf,rejects,saw] at kept <;> tauto
  | true =>
    by_cases loop : (message.addressFamily == afInet6 && walk.output.interface == some "lo" && !walk.sawGateway &&
      !walk.sawMultipath) = true
    · cases saw : walk.sawTable <;> simp [RouteWalk.inexactIf,rejects,saw,loop] at kept <;> tauto
    · cases saw : walk.sawTable <;> simp [RouteWalk.inexactIf,rejects,saw,loop] at kept <;> tauto

/- A route as the kernel tells it: the header, the attributes that say where it leads, and whatever else
is there. -/
structure RouteIdentity where
  family : UInt8
  type : UInt8
  scope : UInt8
  protocol : UInt8
  tos : UInt8
  srcLen : UInt8
  flags : UInt32
  table : UInt32
  destination : Option (UInt8 × Option (List UInt8))
  metric : UInt32
  interface : Option UInt32
  gateway : Option (List UInt8)
  others : List AttributeView
  deriving DecidableEq, Repr

/- The attributes a route identity is read from, the statistics of RTA_CACHEINFO, and the default preference. -/
def describedRoute (view : AttributeView) : Bool :=
  [rtaDst,rtaTable,rtaOif,rtaGateway,rtaPriority].contains view.type ||
    (view.type == rtaCacheinfo && view.payload.length == sizeofRtaCacheinfo) ||
    (view.type == kRouteAttributePreference && readU8 view == some 0)

def interfaceOf (platform : Platform) (options : RawRtnetlinkDumpOptions) (message : Rtmsg) (views : List AttributeView) : Option UInt32 :=
  let index := (lastOf rtaOif views).bind (readU32 platform)
  if kernelLoopback message (index.bind fun index => (interfaceName index options).1) (lastOf rtaGateway views).isSome then none else index

def identityOf (platform : Platform) (options : RawRtnetlinkDumpOptions) (message : Rtmsg) (views : List AttributeView) :
    RouteIdentity where
  family := message.family
  type := message.type
  scope := message.scope
  protocol := message.protocol
  tos := message.tos
  srcLen := message.srcLen
  flags := message.flags
  table := ((lastOf rtaTable views).bind (readU32 platform)).getD message.table.toUInt32
  destination := if message.dstLen = 0 then none else some (message.dstLen,(lastOf rtaDst views).map (·.payload))
  metric := ((lastOf rtaPriority views).bind (readU32 platform)).getD 0
  interface := interfaceOf platform options message views
  gateway := (lastOf rtaGateway views).map (·.payload)
  others := (views.filter fun view => !describedRoute view) ++ (views.filter (·.type == rtaCacheinfo)).tail

def routeIdentity (platform : Platform) (options : RawRtnetlinkDumpOptions) (payload : List UInt8) : Option RouteIdentity :=
  (attributesOf platform (payload.drop 12)).map (identityOf platform options (rtmsg platform payload))

def Told {β : Type} (absent : Prop) (present : β → Prop) : Option β → Prop
  | none => absent
  | some part => present part

def Spells (inet : Inet) (family : UInt8) (address : List UInt8) (text : String) : Prop :=
  ∃ ipv6, (family.toNat : Int) = familyOf ipv6 ∧ address.length = Conntrack.byteCount ipv6 ∧ inet.ntop (familyOf ipv6) address = some text

structure Represents (inet : Inet) (options : RawRtnetlinkDumpOptions) (route : DumpedRoute) (identity : RouteIdentity) : Prop where
  family : route.family = identity.family.toNat
  type : identity.type = if route.blackhole then rtnBlackhole else if route.unreachable then rtnUnreachable else rtnUnicast
  plain : identity.scope = rtScopeUniverse ∧ identity.tos = 0 ∧ identity.srcLen = 0 ∧ identity.flags = 0 ∧ identity.others = []
  protocol : identity.protocol = route.protocol
  table : identity.table = route.table
  metric : identity.metric = route.metric
  destination : Told (route.destination = "default") (fun (length,address) => ∃ bytes text, address = some bytes ∧
    Spells inet identity.family bytes text ∧ route.destination = text ++ "/" ++ toString length.toNat) identity.destination
  interface : Told (route.interface = none) (fun index => (interfaceName index options).1.isSome = true ∧
    route.interface = (interfaceName index options).1)
    identity.interface
  gateway : Told (route.gateway = none) (fun bytes => ∃ text, Spells inet identity.family bytes text ∧
    route.gateway = some text) identity.gateway

theorem addressSpells {view : AttributeView} {text : String} (written : addressString inet message.addressFamily view = some text) :
    Spells inet message.family view.payload text := by
  unfold addressString at written
  split at written
  · rename_i v4
    split at written
    · rename_i four
      exact ⟨false,v4,four,written⟩
    · cases written
  · split at written
    · rename_i v6
      split at written
      · rename_i sixteen
        exact ⟨true,v6,sixteen,written⟩
      · cases written
    · cases written

theorem startExact (kept : (RouteWalk.start message).output.exactIdentityRepresentable = true) :
    (message.type = rtnUnicast ∨ message.blackhole = true ∨ message.unreachable = true) ∧
      message.scope = rtScopeUniverse ∧ message.tos = 0 ∧ message.srcLen = 0 ∧ message.flags = 0 := by
  simp only [RouteWalk.start,Bool.and_eq_true,Bool.or_eq_true,beq_iff_eq] at kept
  tauto

theorem routeAttributeDescribed {view : AttributeView} (allowed : RouteAttribute platform options view) : describedRoute view = true := by
  unfold describedRoute
  simp only [Bool.or_eq_true,Bool.and_eq_true,beq_iff_eq,List.contains_iff_mem]
  rcases allowed with listed | statistics | ⟨own,_⟩ | medium
  · refine .inl (.inl ?_)
    simp only [List.mem_cons,List.not_mem_nil,or_false] at listed ⊢
    tauto
  · exact .inl (.inr statistics)
  · refine .inl (.inl ?_)
    rw [own]
    decide
  · exact .inr medium

theorem walkedInterface {views : List AttributeView} {walk : RouteWalk} (walked : WalkedRoute platform inet options message views walk)
    (allowed : ∀ view ∈ views, RouteAttribute platform options view) :
    Told ((if kernelLoopback message walk.output.interface walk.sawGateway then none else walk.output.interface) = none)
      (fun index => (interfaceName index options).1.isSome = true ∧
        (if kernelLoopback message walk.output.interface walk.sawGateway then none
          else walk.output.interface) = (interfaceName index options).1)
      (interfaceOf platform options message views) := by
  have gateway : walk.sawGateway = (lastOf rtaGateway views).isSome := by
    have met := walked.gateway
    unfold Shows at met
    cases found : lastOf rtaGateway views with
    | none =>
      rw [found] at met
      exact met.1
    | some view =>
      rw [found] at met
      exact met.1
  have met := walked.interface
  unfold Shows at met
  unfold interfaceOf
  rw [gateway]
  cases found : lastOf rtaOif views with
  | none =>
    rw [found] at met
    have none_ : walk.output.interface = none := met.2
    rw [none_]
    simp [Told]
  | some view =>
    rw [found] at met
    obtain ⟨_,index,read,named⟩ := met
    obtain ⟨mem,own⟩ := lastOfMem found
    have unambiguous : (interfaceName index options).2 = true := by
      rcases allowed view mem with listed | ⟨other,_⟩ | ⟨_,other,again,clear_⟩ | ⟨other,_⟩
      · rw [own] at listed
        exact absurd listed (by decide)
      · rw [own] at other
        exact absurd other (by decide)
      · rw [read] at again
        rw [Option.some.inj again]
        exact clear_
      · rw [own] at other
        exact absurd other (by decide)
    have some_ : (interfaceName index options).1.isSome = true := by
      unfold interfaceName at unambiguous ⊢
      split at unambiguous
      · cases unambiguous
      · rename_i nonzero
        rw [if_neg nonzero]
        exact (Bool.and_eq_true_iff.mp unambiguous).2
    dsimp only at named
    rw [named,Option.bind_some,read]
    dsimp only [Option.bind_some]
    by_cases loop : kernelLoopback message (interfaceName index options).1 (lastOf rtaGateway views).isSome = true
    · rw [if_pos loop,if_pos loop]
      exact rfl
    · rw [if_neg loop,if_neg loop]
      exact ⟨some_,rfl⟩

theorem walkedU32 {type : UInt16} {absent : UInt32 → Prop} {views : List AttributeView} {field : Bool × UInt32} (fallback : UInt32)
    (met : Shows type (ReadsU32 platform) absent views field) :
    ((lastOf type views).bind (readU32 platform)).getD fallback = if field.1 then field.2 else fallback := by
  unfold Shows at met
  cases found : lastOf type views with
  | none =>
    rw [found] at met
    rw [Option.bind_none,Option.getD_none,met.1,if_neg Bool.false_ne_true]
  | some view =>
    rw [found] at met
    obtain ⟨seen,read⟩ := met
    rw [Option.bind_some,seen,if_pos rfl,show readU32 platform view = some field.2 from read,Option.getD_some]

theorem walkedZero {type : UInt16} {views : List AttributeView} {field : Bool × UInt32}
    (met : Shows type (ReadsU32 platform) (· = 0) views field) :
    ((lastOf type views).bind (readU32 platform)).getD 0 = field.2 := by
  rw [walkedU32 0 met]
  unfold Shows at met
  cases found : lastOf type views with
  | none =>
    rw [found] at met
    rw [met.1,met.2,if_neg Bool.false_ne_true]
  | some view =>
    rw [found] at met
    rw [met.1,if_pos rfl]

theorem walkedGateway {views : List AttributeView} {walk : RouteWalk} (walked : WalkedRoute platform inet options message views walk) :
    Told (walk.output.gateway = none) (fun bytes => ∃ text, Spells inet message.family bytes text ∧ walk.output.gateway = some text)
      ((lastOf rtaGateway views).map (·.payload)) := by
  have met := walked.gateway
  unfold Shows at met
  cases found : lastOf rtaGateway views with
  | none =>
    rw [found] at met
    exact met.2
  | some view =>
    rw [found] at met
    obtain ⟨_,text,written,shown⟩ := met
    exact ⟨text,addressSpells written,shown⟩

theorem walkedDestination {views : List AttributeView} {walk : RouteWalk} (walked : WalkedRoute platform inet options message views walk)
    (placed : message.dstLen ≠ 0 → walk.sawDestination = true) :
    Told (walk.output.destination = "default") (fun ((length,address) : UInt8 × Option (List UInt8)) => ∃ bytes text, address = some bytes ∧
        Spells inet message.family bytes text ∧ walk.output.destination = text ++ "/" ++ toString length.toNat)
      (if message.dstLen = 0 then none else some (message.dstLen,(lastOf rtaDst views).map (·.payload))) := by
  have met := walked.destination
  unfold Shows at met
  by_cases default : message.dstLen = 0
  · rw [if_pos default]
    change walk.output.destination = "default"
    cases found : lastOf rtaDst views with
    | none =>
      rw [found] at met
      exact met.2 default
    | some view =>
      rw [found] at met
      obtain ⟨_,_,_,shown⟩ := met
      rw [if_pos default] at shown
      exact shown
  · rw [if_neg default]
    cases found : lastOf rtaDst views with
    | none =>
      rw [found] at met
      have unseen : walk.sawDestination = false := met.1
      rw [placed default] at unseen
      cases unseen
    | some view =>
      rw [found] at met
      obtain ⟨_,text,written,shown⟩ := met
      rw [if_neg default] at shown
      exact ⟨view.payload,text,rfl,addressSpells written,shown⟩

theorem typeOfFlags (types : message.type = rtnUnicast ∨ message.blackhole = true ∨ message.unreachable = true) :
    message.type = if message.blackhole then rtnBlackhole else if message.unreachable then rtnUnreachable else rtnUnicast := by
  unfold Rtmsg.blackhole Rtmsg.unreachable at *
  rw [beq_iff_eq,beq_iff_eq] at types
  rcases types with own | own | own
  · rw [own]
    rfl
  · rw [own]
    rfl
  · rw [own]
    rfl

theorem walkedRepresents {views : List AttributeView} {walk : RouteWalk} (walked : WalkedRoute platform inet options message views walk)
    (kept : (walk.finish message).exactIdentityRepresentable = true) :
    Represents inet options (walk.finish message) (identityOf platform options message views) := by
  obtain ⟨exact_,placed⟩ := finishExact kept
  obtain ⟨start,allowed,single,lone⟩ := walked.exact exact_
  obtain ⟨types,scope,tos,src,flags⟩ := startExact start
  obtain ⟨family,protocol,blackhole,unreachable,table⟩ := walked.fixed
  obtain ⟨destination',gateway',metric',family',protocol',blackhole',unreachable',table',interface'⟩ :=
    finishKeeps blackhole unreachable single
  refine ⟨?_,?_,⟨scope,tos,src,flags,?_⟩,?_,?_,?_,?_,?_,?_⟩
  · rw [family',family]
    rfl
  · rw [blackhole',unreachable',blackhole,unreachable]
    exact typeOfFlags types
  · refine List.append_eq_nil_iff.mpr ⟨List.filter_eq_nil_iff.mpr fun view mem => ?_,lone⟩
    rw [routeAttributeDescribed (allowed view mem)]
    decide
  · rw [protocol',protocol]
    rfl
  · rw [table',table]
    exact walkedU32 _ walked.table
  · rw [metric']
    exact walkedZero walked.metric
  · rw [destination']
    exact walkedDestination walked placed
  · rw [interface']
    exact walkedInterface walked allowed
  · rw [gateway']
    exact walkedGateway walked

theorem routeRepresented {payload : List UInt8} {route : DumpedRoute} (decoded : decodeRoute platform inet options payload = some route)
    (kept : route.exactIdentityRepresentable = true) :
    ∃ identity, routeIdentity platform options payload = some identity ∧ Represents inet options route identity := by
  unfold decodeRoute at decoded
  dsimp only at decoded
  split at decoded
  · cases decoded
  · split at decoded
    · cases decoded
    · obtain ⟨walk,visited,rfl⟩ := Option.map_eq_some_iff.mp decoded
      rw [visitFolds] at visited
      obtain ⟨views,collected,walked⟩ := Option.bind_eq_some_iff.mp visited
      refine ⟨identityOf platform options (rtmsg platform payload) views,?_,walkedRepresents (walkedRoute walked) kept⟩
      rw [routeIdentity,collected,Option.map_some]

end Routes

section Names
variable {options : RawRtnetlinkDumpOptions}

/- if_nameindex gives no name to two interfaces. -/
def NamesDistinct (options : RawRtnetlinkDumpOptions) : Prop :=
  ∀ one ∈ options.interfaceNames, ∀ two ∈ options.interfaceNames, ∀ name, one.name = some name → two.name = some name →
    one.index = two.index

theorem considerFound {index : UInt32} {names : List RawRtnetlinkInterfaceName} {found : Option String × Bool} {name : String}
    (shown : (names.foldl (considerName index) found).1 = some name) :
    found.1 = some name ∨ ∃ candidate ∈ names, candidate.index = index ∧ candidate.name = some name := by
  induction names generalizing found with
  | nil => exact .inl shown
  | cons candidate rest ih =>
    rcases ih shown with early | ⟨other,mem,own⟩
    · unfold considerName at early
      split at early
      · exact .inl early
      · rename_i same
        split at early
        · exact .inl early
        · rename_i text named
          split at early
          · exact .inl early
          · exact .inr ⟨candidate,List.mem_cons_self,not_not.mp same,named.trans early⟩
    · exact .inr ⟨other,List.mem_cons_of_mem candidate mem,own⟩

theorem interfaceNameInjective (distinct : NamesDistinct options) {one two : UInt32} (some_ : (interfaceName one options).1.isSome = true)
    (same : (interfaceName one options).1 = (interfaceName two options).1) : one = two := by
  obtain ⟨name,named⟩ := Option.isSome_iff_exists.mp some_
  have listed : ∀ index, (interfaceName index options).1 = some name →
      ∃ candidate ∈ options.interfaceNames, candidate.index = index ∧ candidate.name = some name := by
    intro index shown
    unfold interfaceName at shown
    split at shown
    · cases shown
    · exact (considerFound shown).resolve_left fun absent => by cases absent
  obtain ⟨first,firstMem,rfl,firstName⟩ := listed one named
  obtain ⟨second,secondMem,rfl,secondName⟩ := listed two (same.symm.trans named)
  exact distinct first firstMem second secondMem name firstName secondName

end Names

section Unique
variable {inet : Inet} {options : RawRtnetlinkDumpOptions} {family : UInt8}

theorem spellsInjective (spelled : inet.Spelled) {one two : List UInt8} {text : String} (first : Spells inet family one text)
    (second : Spells inet family two text) :
    one = two := by
  obtain ⟨ipv6,own,size,written⟩ := first
  obtain ⟨other,again,otherSize,otherWritten⟩ := second
  have same : ipv6 = other := by
    rw [own] at again
    cases ipv6 <;> cases other <;> first | rfl | cases again
  subst same
  exact Conntrack.ntopInjective spelled size otherSize written otherWritten

theorem spellsPlain (spelled : inet.Spelled) {address : List UInt8} {text : String} (spells : Spells inet family address text) :
    '/' ∉ text.toList := by
  obtain ⟨ipv6,_,size,written⟩ := spells
  exact Conntrack.writtenNoSlash spelled size written

theorem slashed (text : String) (length : Nat) : text ++ "/" ++ toString length ≠ "default" := by
  intro same
  have mem : '/' ∈ (text ++ "/" ++ toString length).toList := by
    rw [String.toList_append,String.toList_append]
    exact List.mem_append_left _ (List.mem_append_right _ (List.mem_singleton.mpr rfl))
  rw [same] at mem
  revert mem
  decide

/- Two accounts of a part that may be missing agree where they cannot say both that it is and that it is not there. -/
theorem toldUnique {β : Type} {absent absent' : Prop} {present present' : β → Prop} {one two : Option β} (first : Told absent present one)
    (second : Told absent' present' two) (apart : absent → ∀ part, ¬ present' part) (apart' : absent' → ∀ part, ¬ present part)
    (same : ∀ part other, present part → present' other → part = other) : one = two := by
  cases one with
  | none =>
    cases two with
    | none => rfl
    | some other => exact absurd second (apart first other)
  | some part =>
    cases two with
    | none => exact absurd first (apart' second part)
    | some other => exact congrArg some (same part other first second)

theorem representsUnique (spelled : inet.Spelled) (distinct : NamesDistinct options) {route : DumpedRoute} {one two : RouteIdentity}
    (first : Represents inet options route one) (second : Represents inet options route two) : one = two := by
  have family : one.family = two.family := UInt8.toNat.inj (Int.ofNat.inj (first.family.symm.trans second.family))
  obtain ⟨scope,tos,src,flags,others⟩ := first.plain
  obtain ⟨scope',tos',src',flags',others'⟩ := second.plain
  have destination : one.destination = two.destination := by
    refine toldUnique first.destination second.destination ?_ ?_ ?_
    · rintro default ⟨length,address⟩ ⟨_,text,_,_,shown⟩
      exact slashed text _ (shown.symm.trans default)
    · rintro default ⟨length,address⟩ ⟨_,text,_,_,shown⟩
      exact slashed text _ (shown.symm.trans default)
    · rintro ⟨length,address⟩ ⟨length',address'⟩ ⟨bytes,text,rfl,spells,shown⟩ ⟨bytes',text',rfl,spells',shown'⟩
      obtain ⟨rfl,lengths⟩ := Conntrack.cidrTextInjective (spellsPlain spelled spells) (spellsPlain spelled spells')
        (shown.symm.trans shown')
      rw [← family] at spells'
      rw [UInt8.toNat.inj lengths,spellsInjective spelled spells spells']
  have interface : one.interface = two.interface := by
    refine toldUnique first.interface second.interface ?_ ?_ ?_
    · rintro none_ index ⟨some_,shown⟩
      rw [← shown,none_] at some_
      cases some_
    · rintro none_ index ⟨some_,shown⟩
      rw [← shown,none_] at some_
      cases some_
    · rintro index other ⟨some_,shown⟩ ⟨_,shown'⟩
      exact interfaceNameInjective distinct some_ (shown.symm.trans shown')
  have gateway : one.gateway = two.gateway := by
    refine toldUnique first.gateway second.gateway ?_ ?_ ?_
    · rintro none_ bytes ⟨text,_,shown⟩
      cases none_.symm.trans shown
    · rintro none_ bytes ⟨text,_,shown⟩
      cases none_.symm.trans shown
    · rintro bytes bytes' ⟨text,spells,shown⟩ ⟨text',spells',shown'⟩
      rw [← Option.some.inj (shown.symm.trans shown'),← family] at spells'
      exact spellsInjective spelled spells spells'
  have type := first.type.trans second.type.symm
  have protocol := first.protocol.trans second.protocol.symm
  have table := first.table.trans second.table.symm
  have metric := first.metric.trans second.metric.symm
  have others_ := others.trans others'.symm
  cases one
  cases two
  simp_all

end Unique

section Rules
variable {platform : Platform} {message : FibRuleHdr}

def RuleAttribute (platform : Platform) (view : AttributeView) : Prop :=
  view.type ∈ [fraPriority,fraFwmark,fraFwmask,fraTable] ∨
    (view.type ∈ [kRuleAttributeSuppressIfgroup,kRuleAttributeSuppressPrefix] ∧ readU32 platform view = some 0xFFFFFFFF) ∨
    (view.type = kRuleAttributeProtocol ∧ readU8 view = some rtprotUnspec)

structure RuleStep (platform : Platform) (view : AttributeView) (old new : RuleWalk) : Prop where
  priority : Takes fraPriority (ReadsU32 platform) view (old.sawPriority,old.output.priority) (new.sawPriority,new.output.priority)
  mark : Takes fraFwmark (ReadsU32 platform) view (old.sawMark,old.output.fwmark) (new.sawMark,new.output.fwmark)
  mask : Takes fraFwmask (ReadsU32 platform) view (old.sawMask,old.output.fwmask) (new.sawMask,new.output.fwmask)
  table : Takes fraTable (ReadsU32 platform) view (old.sawTable,old.tableAttribute) (new.sawTable,new.tableAttribute)
  fixed : new.output.family = old.output.family ∧ new.output.table = old.output.table
  exact : new.output.exactIdentityRepresentable = true → old.output.exactIdentityRepresentable = true ∧ RuleAttribute platform view

theorem ruleStep {view : AttributeView} {old new : RuleWalk} (stepped : ruleVisitor platform old view = some new) :
    RuleStep platform view old new := by
  unfold ruleVisitor at stepped
  dsimp only at stepped
  -- one branch for each attribute the visitor knows
  iterate 7
    split at stepped
    · rename_i own
      obtain ⟨value,read,rfl⟩ := Option.map_eq_some_iff.mp stepped
      constructor
      all_goals simp +contextual [Takes,own,ReadsU32,read,RuleWalk.inexactIf,RuleAttribute,fraPriority,fraFwmark,fraFwmask,fraTable,
        kRuleAttributeSuppressIfgroup,kRuleAttributeSuppressPrefix,kRuleAttributeProtocol]
  rename_i noPriority noMark noMask noTable _ _ _
  cases stepped
  constructor
  all_goals simp [Takes,noPriority,noMark,noMask,noTable,RuleWalk.inexactIf]

structure WalkedRule (platform : Platform) (message : FibRuleHdr) (views : List AttributeView) (walk : RuleWalk) : Prop where
  priority : Shows fraPriority (ReadsU32 platform) (· = 0) views (walk.sawPriority,walk.output.priority)
  mark : Shows fraFwmark (ReadsU32 platform) (· = 0) views (walk.sawMark,walk.output.fwmark)
  mask : Shows fraFwmask (ReadsU32 platform) (fun _ => True) views (walk.sawMask,walk.output.fwmask)
  table : Shows fraTable (ReadsU32 platform) (fun _ => True) views (walk.sawTable,walk.tableAttribute)
  fixed : walk.output.family = message.addressFamily ∧ walk.output.table = message.table.toUInt32
  exact : walk.output.exactIdentityRepresentable = true →
    (RuleWalk.start message).output.exactIdentityRepresentable = true ∧ ∀ view ∈ views, RuleAttribute platform view

theorem walkedRuleStart : WalkedRule platform message [] (RuleWalk.start message) where
  priority := ⟨rfl,rfl⟩
  mark := ⟨rfl,rfl⟩
  mask := ⟨rfl,trivial⟩
  table := ⟨rfl,trivial⟩
  fixed := ⟨rfl,rfl⟩
  exact := fun kept => ⟨kept,fun _ absent => by cases absent⟩

theorem WalkedRule.step {views : List AttributeView} {walk next : RuleWalk} {view : AttributeView}
    (walked : WalkedRule platform message views walk)
    (stepped : ruleVisitor platform walk view = some next) : WalkedRule platform message (views ++ [view]) next := by
  have step := ruleStep stepped
  obtain ⟨family,table⟩ := step.fixed
  refine ⟨walked.priority.step step.priority,walked.mark.step step.mark,walked.mask.step step.mask,walked.table.step step.table,
    ?_,fun kept => ?_⟩
  · rw [family,table]
    exact walked.fixed
  · obtain ⟨before,allowed⟩ := step.exact kept
    obtain ⟨start,all⟩ := walked.exact before
    exact ⟨start,List.forall_mem_append.mpr ⟨all,List.forall_mem_singleton.mpr allowed⟩⟩

/- A rule as the kernel tells it. -/
structure RuleIdentity where
  header : FibRuleHdr
  table : UInt32
  priority : UInt32
  fwmark : UInt32
  fwmask : UInt32
  others : List AttributeView
  deriving DecidableEq, Repr

def describedRule (platform : Platform) (view : AttributeView) : Bool :=
  [fraPriority,fraFwmark,fraFwmask,fraTable].contains view.type ||
    ([kRuleAttributeSuppressIfgroup,kRuleAttributeSuppressPrefix].contains view.type && readU32 platform view == some 0xFFFFFFFF) ||
    (view.type == kRuleAttributeProtocol && readU8 view == some rtprotUnspec)

def ruleIdentityOf (platform : Platform) (message : FibRuleHdr) (views : List AttributeView) : RuleIdentity where
  header := { message with table := 0 }
  table := ((lastOf fraTable views).bind (readU32 platform)).getD message.table.toUInt32
  priority := ((lastOf fraPriority views).bind (readU32 platform)).getD 0
  fwmark := ((lastOf fraFwmark views).bind (readU32 platform)).getD 0
  fwmask := ((lastOf fraFwmask views).bind (readU32 platform)).getD (if (lastOf fraFwmark views).isSome then 0xFFFFFFFF else 0)
  others := views.filter fun view => !describedRule platform view

def ruleIdentity (platform : Platform) (payload : List UInt8) : Option RuleIdentity :=
  (attributesOf platform (payload.drop 12)).map (ruleIdentityOf platform (fibRuleHdr platform payload))

def DumpedRule.identity (rule : DumpedRule) : RuleIdentity where
  header := ⟨UInt8.ofNat rule.family.toNat,0,0,0,0,0,0,frActToTbl,0⟩
  table := rule.table
  priority := rule.priority
  fwmark := rule.fwmark
  fwmask := rule.fwmask
  others := []

theorem ruleAttributeDescribed {view : AttributeView} (allowed : RuleAttribute platform view) : describedRule platform view = true := by
  unfold describedRule
  rw [Bool.or_eq_true,Bool.or_eq_true,Bool.and_eq_true,Bool.and_eq_true,beq_iff_eq,beq_iff_eq,beq_iff_eq,List.contains_iff_mem,
    List.contains_iff_mem]
  rcases allowed with listed | suppressed | protocol
  · exact .inl (.inl listed)
  · exact .inl (.inr suppressed)
  · exact .inr protocol

theorem finishRule (message : FibRuleHdr) (walk : RuleWalk) :
    (walk.finish message).priority = walk.output.priority ∧ (walk.finish message).fwmark = walk.output.fwmark ∧
      (walk.finish message).family = walk.output.family ∧
      (walk.finish message).table = (if walk.sawTable then walk.tableAttribute else walk.output.table) ∧
      (walk.finish message).fwmask = (if walk.sawMask then walk.output.fwmask else if walk.sawMark then 0xFFFFFFFF else 0) ∧
      ((walk.finish message).exactIdentityRepresentable = true → walk.output.exactIdentityRepresentable = true) := by
  unfold RuleWalk.finish
  cases walk.sawTable <;> cases walk.sawMask <;> simp +contextual [RuleWalk.inexactIf]

theorem startRuleExact (kept : (RuleWalk.start message).output.exactIdentityRepresentable = true) :
    { message with table := 0 } = (⟨message.family,0,0,0,0,0,0,frActToTbl,0⟩ : FibRuleHdr) := by
  simp only [RuleWalk.start,Bool.and_eq_true,beq_iff_eq] at kept
  obtain ⟨⟨⟨⟨⟨⟨⟨_,dst⟩,src⟩,tos⟩,res1⟩,res2⟩,action⟩,flags⟩ := kept
  rw [dst,src,tos,res1,res2,action,flags]

theorem ruleRepresented {payload : List UInt8} {rule : DumpedRule} (decoded : decodeRule platform payload = some rule)
    (kept : rule.exactIdentityRepresentable = true) : ruleIdentity platform payload = some (DumpedRule.identity rule) := by
  unfold decodeRule at decoded
  dsimp only at decoded
  split at decoded
  · cases decoded
  · obtain ⟨walk,visited,rfl⟩ := Option.map_eq_some_iff.mp decoded
    rw [visitFolds] at visited
    obtain ⟨views,collected,folded⟩ := Option.bind_eq_some_iff.mp visited
    have walked : WalkedRule platform (fibRuleHdr platform payload) ([] ++ views) walk :=
      foldKeeps (fun _ _ _ _ kept stepped => WalkedRule.step kept stepped) walkedRuleStart folded
    rw [List.nil_append] at walked
    obtain ⟨priority,fwmark,family,table,fwmask,exact_⟩ := finishRule (fibRuleHdr platform payload) walk
    obtain ⟨start,allowed⟩ := walked.exact (exact_ kept)
    obtain ⟨family',table'⟩ := walked.fixed
    rw [ruleIdentity,collected,Option.map_some]
    refine congrArg some ?_
    have marked : (lastOf fraFwmark views).isSome = walk.sawMark := by
      have met := walked.mark
      unfold Shows at met
      cases found : lastOf fraFwmark views with
      | none =>
        rw [found] at met
        exact met.1.symm
      | some view =>
        rw [found] at met
        exact met.1.symm
    have others : (views.filter fun view => !describedRule platform view) = [] := by
      refine List.filter_eq_nil_iff.mpr fun view mem => ?_
      rw [ruleAttributeDescribed (allowed view mem)]
      decide
    unfold ruleIdentityOf DumpedRule.identity
    rw [startRuleExact start,walkedU32 _ walked.table,walkedZero walked.priority,walkedZero walked.mark,walkedU32 _ walked.mask,
      others,marked,
      priority,fwmark,family,table,fwmask,family',table']
    have back : UInt8.ofNat (fibRuleHdr platform payload).addressFamily.toNat = (fibRuleHdr platform payload).family := UInt8.ofNat_toNat
    rw [back]

end Rules

/- No two kernel objects behind one exact value. -/
theorem exactNeverAliases (platform : Platform) {inet : Inet} (spelled : inet.Spelled) {options : RawRtnetlinkDumpOptions}
    (distinct : NamesDistinct options) :
    (∀ one two route, decodeRoute platform inet options one = some route → decodeRoute platform inet options two = some route →
      route.exactIdentityRepresentable = true → ∃ identity, routeIdentity platform options one = some identity ∧
        routeIdentity platform options two = some identity ∧ identity.others = []) ∧
    (∀ one two rule, decodeRule platform one = some rule → decodeRule platform two = some rule →
      rule.exactIdentityRepresentable = true → ∃ identity, ruleIdentity platform one = some identity ∧
        ruleIdentity platform two = some identity ∧ identity.others = []) := by
  constructor
  · intro one two route first second kept
    obtain ⟨identity,shown,represents⟩ := routeRepresented first kept
    obtain ⟨other,shown',represents'⟩ := routeRepresented second kept
    rw [representsUnique spelled distinct represents' represents] at shown'
    exact ⟨identity,shown,shown',represents.plain.2.2.2.2⟩
  · intro one two rule first second kept
    exact ⟨DumpedRule.identity rule,ruleRepresented first kept,ruleRepresented second kept,rfl⟩

section Samples

def mips : Platform := ⟨.big,132⟩

def wanNames : RawRtnetlinkDumpOptions := { interfaceNames := [⟨1,some "lo"⟩,⟨2,some "eth0"⟩] }

theorem wanNamesDistinct : NamesDistinct wanNames := by
  have apart : ∀ one ∈ wanNames.interfaceNames, ∀ two ∈ wanNames.interfaceNames, one.name = two.name → one.index = two.index := by decide
  exact fun one first two second name named named' => apart one first two second (named.trans named'.symm)

def wanDefault : List UInt8 := [2,0,0,0,254,186,0,1,0,0,0,0] ++ [0,8,0,4,0,0,0,2] ++ [0,8,0,5,192,0,2,1]

def wanTabled : List UInt8 := [2,0,0,0,254,186,0,1,0,0,0,0] ++ [0,8,0,15,0,0,0,254] ++ [0,8,0,5,192,0,2,1] ++ [0,8,0,4,0,0,0,2]

def wanCached : List UInt8 := wanDefault ++ [0,36,0,12] ++ List.replicate 32 7

def wanRoute : DumpedRoute :=
  { destination := "default", table := 254, interface := some "eth0", gateway := some "192.0.2.1", family := afInet, protocol := 186 }

theorem wanDecoded : decodeRoute mips Conntrack.officeInet wanNames wanDefault = some wanRoute ∧
    decodeRoute mips Conntrack.officeInet wanNames wanTabled = some wanRoute ∧
      decodeRoute mips Conntrack.officeInet wanNames wanCached = some wanRoute := by
  decide

theorem wanIdentified : ∃ identity, routeIdentity mips wanNames wanDefault = some identity ∧
    routeIdentity mips wanNames wanTabled = some identity ∧
    identity.others = [] :=
  (exactNeverAliases mips Conntrack.officeSpelled wanNamesDistinct).1 wanDefault wanTabled wanRoute wanDecoded.1 wanDecoded.2.1 rfl

/- One exact value for a route with and one without the attribute RTA_CACHEINFO. -/
theorem cacheInfoUntold : decodeRoute mips Conntrack.officeInet wanNames wanDefault = some wanRoute ∧
    decodeRoute mips Conntrack.officeInet wanNames wanCached = some wanRoute ∧ wanRoute.exactIdentityRepresentable = true ∧
    (attributesOf mips (wanDefault.drop 12)).map (·.map (·.type)) = some [rtaOif,rtaGateway] ∧
    (attributesOf mips (wanCached.drop 12)).map (·.map (·.type)) = some [rtaOif,rtaGateway,rtaCacheinfo] :=
  ⟨wanDecoded.1,wanDecoded.2.2,rfl,by decide,by decide⟩

end Samples

end KeenPbr.Rtnetlink

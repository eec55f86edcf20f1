import KeenPbr.DocumentAccepted

/-! validate_urltest_cycles reports nothing exactly when the groups can be ranked. -/
namespace KeenPbr

abbrev UrltestGraph := List (String × List UrltestReference)

namespace UrltestGraph
variable (graph : UrltestGraph)

def references (tag : String) : List UrltestReference := (graph.lookup tag).getD []

def known (tag : String) : Prop := tag ∈ graph.map (·.1)

def RankedBy (rank : String → Nat) : Prop :=
  ∀ tag, ∀ reference ∈ graph.references tag, graph.known reference.target → rank reference.target < rank tag

end UrltestGraph

namespace CycleWalk
variable {graph : UrltestGraph} {walk : CycleWalk} {tag other : String} {state : VisitState}

theorem lookupSetState : (walk.setState tag state).states.lookup other =
    if other = tag then (walk.states.lookup other).map fun _ => state else walk.states.lookup other := by
  unfold setState
  dsimp only
  induction walk.states with
  | nil => simp
  | cons entry rest ih =>
    obtain ⟨key,stored⟩ := entry
    rw [List.map_cons,List.lookup_cons,List.lookup_cons]
    by_cases here : other = key
    · by_cases target : key = tag
      · simp [here,target]
      · simp [here,target]
    · rw [beq_eq_false_iff_ne.mpr here]
      by_cases target : key = tag
      · rw [if_pos (beq_iff_eq.mpr target)]
        rw [target] at here
        rw [beq_eq_false_iff_ne.mpr here]
        exact ih
      · rw [if_neg (by simpa using target),beq_eq_false_iff_ne.mpr here]
        exact ih

theorem setStateKeys : (walk.setState tag state).states.map (·.1) = walk.states.map (·.1) := by
  unfold setState
  rw [List.map_map]
  refine List.map_congr_left fun entry _ => ?_
  dsimp only [Function.comp]
  split
  · rename_i here
    exact (beq_iff_eq.mp here).symm
  · rfl

/- What one round does with the frame on top: it leaves the tag for good, or it takes a reference that
needs no visit, meets a tag on the stack, or begins a visit. -/
theorem stepCases (graph : UrltestGraph) {next : Nat} {below : List (String × Nat)} (top : walk.stack = (tag,next) :: below) :
    ((graph.references tag)[next]? = none ∧ walk.step graph = { walk.setState tag .visited with stack := below }) ∨
    ∃ reference, (graph.references tag)[next]? = some reference ∧
      (((walk.states.lookup reference.target = none ∨ walk.states.lookup reference.target = some .visited) ∧
          walk.step graph = { walk with stack := (tag,next + 1) :: below }) ∨
        (walk.states.lookup reference.target = some .visiting ∧ (walk.step graph).issues ≠ [] ∧
          (walk.step graph).stack = (tag,next + 1) :: below ∧ (walk.step graph).states = walk.states) ∨
        (walk.states.lookup reference.target = some .unvisited ∧
          walk.step graph = { walk.setState reference.target .visiting with stack := (reference.target,0) :: (tag,
            next + 1) :: below })) := by
  unfold step
  rw [top]
  dsimp only
  cases taken : (graph.references tag)[next]? with
  | none =>
    left
    change ((graph.lookup tag).getD [])[next]? = none at taken
    rw [taken]
    exact ⟨rfl,rfl⟩
  | some reference =>
    right
    refine ⟨reference,rfl,?_⟩
    change ((graph.lookup tag).getD [])[next]? = some reference at taken
    rw [taken]
    dsimp only
    cases found : walk.states.lookup reference.target with
    | none => exact .inl ⟨.inl rfl,rfl⟩
    | some state =>
      cases state with
      | visiting => exact .inr (.inl ⟨rfl,by simp [oneIssue],rfl,rfl⟩)
      | visited => exact .inl ⟨.inr rfl,rfl⟩
      | unvisited => exact .inr (.inr ⟨rfl,rfl⟩)

section Rounds

def weight (graph : UrltestGraph) (tag : String) : Nat := 1 + (graph.references tag).length

def unvisitedWeight (graph : UrltestGraph) (states : List (String × VisitState)) : Nat :=
  ((states.filter fun entry => entry.2 == .unvisited).map fun entry => weight graph entry.1).sum

def left (graph : UrltestGraph) (walk : CycleWalk) : Nat :=
  unvisitedWeight graph walk.states + (walk.stack.map fun frame => 1 + ((graph.references frame.1).length - frame.2)).sum

theorem unvisitedCons {entry : String × VisitState} {states : List (String × VisitState)} :
    unvisitedWeight graph (entry :: states) = (if entry.2 = .unvisited then weight graph entry.1
      else 0) + unvisitedWeight graph states := by
  unfold unvisitedWeight
  rw [List.filter_cons]
  by_cases fresh : entry.2 = .unvisited
  · simp [fresh]
  · simp [fresh]

def marked (tag : String) (state : VisitState) (states : List (String × VisitState)) : List (String × VisitState) :=
  states.map fun entry => if entry.1 == tag then (tag,state) else entry

theorem markedLighter (graph : UrltestGraph) (tag : String) (states : List (String × VisitState)) (begun : state ≠ .unvisited) :
    unvisitedWeight graph (marked tag state states) ≤ unvisitedWeight graph states := by
  induction states with
  | nil => exact Nat.le_refl _
  | cons entry rest ih =>
    rw [marked,List.map_cons,unvisitedCons,unvisitedCons]
    change _ + unvisitedWeight graph (marked tag state rest) ≤ _
    by_cases here : (entry.1 == tag) = true
    · rw [if_pos here,if_neg begun]
      omega
    · rw [if_neg here]
      omega

theorem visitLighter (graph : UrltestGraph) {states : List (String × VisitState)} (begun : state ≠ .unvisited)
    (fresh : states.lookup tag = some .unvisited) :
    unvisitedWeight graph (marked tag state states) + weight graph tag ≤ unvisitedWeight graph states := by
  induction states with
  | nil => cases fresh
  | cons entry rest ih =>
    rw [List.lookup_cons] at fresh
    rw [marked,List.map_cons,unvisitedCons,unvisitedCons]
    change _ + unvisitedWeight graph (marked tag state rest) + _ ≤ _
    by_cases here : (entry.1 == tag) = true
    · have same := beq_iff_eq.mp here
      rw [same,beq_self_eq_true] at fresh
      have unvisited : entry.2 = .unvisited := Option.some.inj fresh
      have lighter := markedLighter graph tag rest begun
      rw [if_pos here,if_neg begun,if_pos unvisited,same]
      omega
    · have apart : (tag == entry.1) = false := beq_eq_false_iff_ne.mpr fun same => here (beq_iff_eq.mpr same.symm)
      rw [apart] at fresh
      have lighter := ih fresh
      rw [if_neg here]
      omega

theorem stepShorter (graph : UrltestGraph) (busy : walk.stack ≠ []) : left graph (walk.step graph) + 1 ≤ left graph walk := by
  obtain ⟨⟨tag,next⟩,below,top⟩ := List.exists_cons_of_ne_nil busy
  unfold left
  rw [top,List.map_cons,List.sum_cons]
  have taking : ∀ {reference}, (graph.references tag)[next]? = some reference → next < (graph.references tag).length :=
    fun taken => (List.getElem?_eq_some_iff.mp taken).1
  rcases stepCases graph top with ⟨_,step⟩ | ⟨reference,taken,⟨_,step⟩ | ⟨_,_,stack,states⟩ | ⟨fresh,step⟩⟩
  · have lighter := markedLighter graph tag walk.states (nofun : VisitState.visited ≠ .unvisited)
    rw [step]
    change unvisitedWeight graph (marked tag .visited walk.states) + (below.map fun frame =>
      1 + ((graph.references frame.1).length - frame.2)).sum + 1 ≤ _
    omega
  · have room := taking taken
    rw [step]
    simp only [List.map_cons,List.sum_cons]
    omega
  · have room := taking taken
    rw [stack,states]
    simp only [List.map_cons,List.sum_cons]
    omega
  · have room := taking taken
    have lighter := visitLighter graph (nofun : VisitState.visiting ≠ .unvisited) fresh
    unfold weight at lighter
    rw [step]
    simp only [List.map_cons,List.sum_cons]
    change unvisitedWeight graph (marked reference.target .visiting walk.states) + _ + 1 ≤ _
    omega

theorem runRest {rounds : Nat} (rest : walk.stack = []) : CycleWalk.run graph rounds walk = walk := by
  induction rounds with
  | zero => rfl
  | succ rounds ih =>
    rw [run,step,rest]
    exact ih

theorem runShorter {rounds : Nat} : left graph (CycleWalk.run graph rounds walk) ≤ left graph walk := by
  induction rounds generalizing walk with
  | zero => exact Nat.le_refl _
  | succ rounds ih =>
    by_cases rest : walk.stack = []
    · rw [runRest rest]
    · have one := stepShorter graph rest
      have later : left graph (CycleWalk.run graph rounds (walk.step graph)) ≤ left graph (walk.step graph) := ih
      rw [run]
      omega

theorem runEnds {rounds : Nat} (enough : left graph walk ≤ rounds) : (CycleWalk.run graph rounds walk).stack = [] := by
  induction rounds generalizing walk with
  | zero =>
    unfold left at enough
    cases top : walk.stack with
    | nil => exact top
    | cons frame below =>
      rw [top,List.map_cons,List.sum_cons] at enough
      omega
  | succ rounds ih =>
    by_cases rest : walk.stack = []
    · rw [runRest rest]
      exact rest
    · have one := stepShorter graph rest
      rw [run]
      exact ih (by omega)

theorem runKeeps {P : CycleWalk → Prop} {rounds : Nat} (step : ∀ walk, P walk → P (walk.step graph)) (start : P walk) :
    P (CycleWalk.run graph rounds walk) := by
  induction rounds generalizing walk with
  | zero => exact start
  | succ rounds ih => exact ih (step walk start)

end Rounds

structure Walking (graph : UrltestGraph) (walk : CycleWalk) : Prop where
  keys : walk.states.map (·.1) = graph.map (·.1)
  visiting : ∀ tag, walk.states.lookup tag = some .visiting ↔ tag ∈ walk.stack.map (·.1)
  distinct : (walk.stack.map (·.1)).Nodup

theorem lookupSome {entries : List (String × VisitState)} : (∃ state, entries.lookup tag = some state) ↔ tag ∈ entries.map (·.1) := by
  constructor
  · rintro ⟨state,found⟩
    exact List.mem_map.mpr ⟨_,Documents.lookupMem found,rfl⟩
  · intro mem
    cases found : entries.lookup tag with
    | some state => exact ⟨state,rfl⟩
    | none =>
      obtain ⟨entry,inside,rfl⟩ := List.mem_map.mp mem
      exact absurd rfl (bne_iff_ne.mp (List.lookup_eq_none_iff.mp found entry inside))

theorem Walking.known (walking : Walking graph walk) : (∃ state, walk.states.lookup tag = some state) ↔ graph.known tag := by
  rw [lookupSome,walking.keys]
  rfl

theorem Walking.pop (walking : Walking graph walk) {next : Nat} {below : List (String × Nat)} (top : walk.stack = (tag,next) :: below) :
    walk.states.lookup tag = some .visiting ∧ tag ∉ below.map (·.1) := by
  have distinct := walking.distinct
  rw [top,List.map_cons,List.nodup_cons] at distinct
  refine ⟨(walking.visiting tag).mpr ?_,distinct.1⟩
  rw [top]
  exact List.mem_cons_self

theorem Walking.begin (walking : Walking graph walk) (fresh : walk.states.lookup tag = some .unvisited) :
    Walking graph { walk.setState tag .visiting with stack := (tag,0) :: walk.stack } := by
  have apart : tag ∉ walk.stack.map (·.1) := by
    intro mem
    have open_ := (walking.visiting tag).mpr mem
    rw [fresh] at open_
    cases open_
  refine ⟨setStateKeys.trans walking.keys,fun other => ?_,List.nodup_cons.mpr ⟨apart,walking.distinct⟩⟩
  change (walk.setState tag .visiting).states.lookup other = _ ↔ other ∈ tag :: walk.stack.map (·.1)
  rw [lookupSetState,List.mem_cons]
  by_cases same : other = tag
  · simp [same,fresh]
  · rw [if_neg same,walking.visiting]
    simp [same]

theorem Walking.frame (walking : Walking graph walk) {changed : CycleWalk} {next later : Nat} {below : List (String × Nat)}
    (top : walk.stack = (tag,next) :: below) (states : changed.states = walk.states)
    (stack : changed.stack = (tag,later) :: below) : Walking graph changed := by
  have tags : changed.stack.map (·.1) = walk.stack.map (·.1) := by rw [stack,top,List.map_cons,List.map_cons]
  refine ⟨states ▸ walking.keys,fun other => ?_,tags ▸ walking.distinct⟩
  rw [states,tags]
  exact walking.visiting other

theorem stepWalking (walk : CycleWalk) (walking : Walking graph walk) : Walking graph (walk.step graph) := by
  cases top : walk.stack with
  | nil =>
    rw [step,top]
    exact walking
  | cons frame below =>
    obtain ⟨tag,next⟩ := frame
    rcases stepCases graph top with ⟨_,step⟩ | ⟨reference,taken,⟨_,step⟩ | ⟨_,_,stack,states⟩ | ⟨fresh,step⟩⟩
    · obtain ⟨open_,apart⟩ := walking.pop top
      have distinct := walking.distinct
      rw [top,List.map_cons,List.nodup_cons] at distinct
      rw [step]
      refine ⟨setStateKeys.trans walking.keys,fun other => ?_,distinct.2⟩
      change (walk.setState tag .visited).states.lookup other = _ ↔ other ∈ below.map (·.1)
      rw [lookupSetState]
      by_cases same : other = tag
      · rw [if_pos same,same,open_]
        simp [apart]
      · rw [if_neg same,walking.visiting,top,List.map_cons,List.mem_cons]
        simp [same]
    · rw [step]
      exact walking.frame top rfl rfl
    · exact walking.frame top states stack
    · have moved : Walking graph { walk with stack := (tag,next + 1) :: below } := walking.frame top rfl rfl
      rw [step]
      exact moved.begin fresh

section Ranked
variable {rank : String → Nat}

structure Descending (rank : String → Nat) (walk : CycleWalk) : Prop where
  silent : walk.issues = []
  ranks : (walk.stack.map (·.1)).Pairwise fun upper lower => rank upper < rank lower

theorem stepDescending (ranked : graph.RankedBy rank) (walking : Walking graph walk) (descending : Descending rank walk) :
    Descending rank (walk.step graph) := by
  cases top : walk.stack with
  | nil =>
    rw [step,top]
    exact descending
  | cons frame below =>
    obtain ⟨tag,next⟩ := frame
    have ranks := descending.ranks
    rw [top,List.map_cons,List.pairwise_cons] at ranks
    have lower : ∀ {reference}, (graph.references tag)[next]? = some reference →
      (∃ state, walk.states.lookup reference.target = some state) →
        rank reference.target < rank tag :=
      fun taken found => ranked tag _ (List.mem_of_getElem? taken) (walking.known.mp found)
    rcases stepCases graph top with ⟨_,step⟩ | ⟨reference,taken,⟨_,step⟩ | ⟨open_,_⟩ | ⟨fresh,step⟩⟩
    · rw [step]
      exact ⟨descending.silent,ranks.2⟩
    · rw [step]
      exact ⟨descending.silent,List.pairwise_cons.mpr ranks⟩
    · have below := lower taken ⟨_,open_⟩
      have mem := (walking.visiting _).mp open_
      rw [top,List.map_cons,List.mem_cons] at mem
      rcases mem with same | later
      · rw [same] at below
        exact absurd below (Nat.lt_irrefl _)
      · exact absurd (below.trans (ranks.1 _ later)) (Nat.lt_irrefl _)
    · have below := lower taken ⟨_,fresh⟩
      rw [step]
      refine ⟨descending.silent,List.pairwise_cons.mpr ⟨fun other mem => ?_,List.pairwise_cons.mpr ranks⟩⟩
      rcases List.mem_cons.mp mem with same | later
      · rw [same]
        exact below
      · exact below.trans (ranks.1 other later)

end Ranked

section Finished

def Ordered (graph : UrltestGraph) : List String → Prop
  | [] => True
  | tag :: earlier => tag ∉ earlier ∧
    (∀ reference ∈ graph.references tag, graph.known reference.target → reference.target ∈ earlier) ∧ Ordered graph earlier

/- The references a frame has taken lead to ended visits, or to the frame above it. -/
def Covered (graph : UrltestGraph) (ended : List String) : Option String → List (String × Nat) → Prop
  | _, [] => True
  | above, (tag,next) :: below =>
    (∀ reference ∈ (graph.references tag).take next, graph.known reference.target → reference.target ∈ ended ∨
      above = some reference.target) ∧
      Covered graph ended (some tag) below

structure Finished (graph : UrltestGraph) (walk : CycleWalk) (ended : List String) : Prop where
  ordered : Ordered graph ended
  visited : ∀ tag, walk.states.lookup tag = some .visited ↔ tag ∈ ended
  covered : Covered graph ended none walk.stack

theorem coveredPopped {ended : List String} {below : List (String × Nat)} {above : String}
    (covered : Covered graph ended (some above) below) :
    Covered graph (above :: ended) none below := by
  have weaken : ∀ {frames : List (String × Nat)} {owner : Option String}, Covered graph ended owner frames →
    Covered graph (above :: ended) owner frames := by
    intro frames
    induction frames with
    | nil => exact fun _ => trivial
    | cons frame rest ih =>
      rintro owner ⟨taken,later⟩
      refine ⟨fun reference mem known => ?_,ih later⟩
      exact (taken reference mem known).imp (List.mem_cons_of_mem above) id
  cases below with
  | nil => trivial
  | cons frame rest =>
    obtain ⟨taken,later⟩ := covered
    refine ⟨fun reference mem known => .inl ?_,weaken later⟩
    rcases taken reference mem known with old | top
    · exact List.mem_cons_of_mem above old
    · rw [Option.some.inj top]
      exact List.mem_cons_self

theorem coveredTaken {ended : List String} {next : Nat} {below : List (String × Nat)} {above : Option String} {reference : UrltestReference}
    (covered : Covered graph ended none ((tag,next) :: below)) (taken : (graph.references tag)[next]? = some reference)
    (led : graph.known reference.target → reference.target ∈ ended ∨ above = some reference.target) :
    Covered graph ended above ((tag,next + 1) :: below) := by
  obtain ⟨before,later⟩ := covered
  refine ⟨fun other mem known => ?_,later⟩
  rw [List.take_add_one,taken,List.mem_append,Option.toList_some,List.mem_singleton] at mem
  rcases mem with old | new
  · exact .inl ((before other old known).resolve_right nofun)
  · rw [new] at known ⊢
    exact led known

theorem stepFinished (walking : Walking graph walk) {ended : List String} (finished : Finished graph walk ended)
    (silent : (walk.step graph).issues = []) :
    ∃ ended, Finished graph (walk.step graph) ended := by
  cases top : walk.stack with
  | nil =>
    rw [step,top]
    exact ⟨ended,finished⟩
  | cons frame below =>
    obtain ⟨tag,next⟩ := frame
    have covered := finished.covered
    rw [top] at covered
    rcases stepCases graph top with ⟨done,step⟩ | ⟨reference,taken,⟨found,step⟩ | ⟨_,noise,_⟩ | ⟨fresh,step⟩⟩
    · obtain ⟨open_,apart⟩ := walking.pop top
      rw [step]
      refine ⟨tag :: ended,⟨?_,?_,finished.ordered⟩,fun other => ?_,coveredPopped covered.2⟩
      · intro mem
        have closed := (finished.visited tag).mpr mem
        rw [open_] at closed
        cases closed
      · intro reference mem known
        have all := List.take_of_length_le (List.getElem?_eq_none_iff.mp done)
        exact (covered.1 reference (all.symm ▸ mem) known).resolve_right nofun
      · change (walk.setState tag .visited).states.lookup other = _ ↔ _
        rw [lookupSetState,List.mem_cons]
        by_cases same : other = tag
        · simp [same,open_]
        · rw [if_neg same,finished.visited]
          simp [same]
    · rw [step]
      refine ⟨ended,finished.ordered,finished.visited,coveredTaken covered taken fun known => ?_⟩
      rcases found with absent | closed
      · obtain ⟨state,stored⟩ := walking.known.mpr known
        rw [absent] at stored
        cases stored
      · exact .inl ((finished.visited _).mp closed)
    · exact absurd silent noise
    · rw [step]
      refine ⟨ended,finished.ordered,fun other => ?_,⟨nofun,coveredTaken covered taken fun _ => .inr rfl⟩⟩
      change (walk.setState reference.target .visiting).states.lookup other = _ ↔ _
      rw [lookupSetState,← finished.visited]
      by_cases same : other = reference.target
      · simp [same,fresh]
      · rw [if_neg same]

end Finished

section Visits

/- One round of the outer loop. -/
def visit (graph : UrltestGraph) (walk : CycleWalk) (entry : String × List UrltestReference) : CycleWalk :=
  if walk.states.lookup entry.1 != some .unvisited then walk
  else CycleWalk.run graph (cycleRounds graph) { walk.setState entry.1 .visiting with stack := [(entry.1,0)] }

def start (graph : UrltestGraph) : CycleWalk := { states := graph.map fun entry => (entry.1,.unvisited) }

structure Between (graph : UrltestGraph) (walk : CycleWalk) : Prop where
  walking : Walking graph walk
  rest : walk.stack = []
  light : left graph walk ≤ cycleRounds graph

theorem visitsKeep {P : CycleWalk → Prop} (step : ∀ walk, Walking graph walk → P walk → P (walk.step graph))
    (begin_ : ∀ walk tag, Between graph walk → walk.states.lookup tag = some .unvisited → P walk →
      P { walk.setState tag .visiting with stack := [(tag,0)] })
    (entries : List (String × List UrltestReference)) (between : Between graph walk) (holds : P walk) :
    Between graph (entries.foldl (visit graph) walk) ∧ P (entries.foldl (visit graph) walk) := by
  induction entries generalizing walk with
  | nil => exact ⟨between,holds⟩
  | cons entry others ih =>
    rw [List.foldl_cons]
    have visited : Between graph (visit graph walk entry) ∧ P (visit graph walk entry) := by
      unfold visit
      split
      · exact ⟨between,holds⟩
      · rename_i fresh
        rw [bne_iff_ne,not_not] at fresh
        have begun : Walking graph { walk.setState entry.1 .visiting with stack := [(entry.1,0)] } := by
          have started := between.walking.begin fresh
          rw [between.rest] at started
          exact started
        have lighter : left graph { walk.setState entry.1 .visiting with stack := [(entry.1,0)] } ≤ cycleRounds graph := by
          have marks := visitLighter graph (nofun : VisitState.visiting ≠ .unvisited) fresh
          have light := between.light
          unfold left weight at *
          rw [between.rest] at light
          simp only [List.map_cons,List.map_nil,List.sum_cons,List.sum_nil] at light ⊢
          change unvisitedWeight graph (marked entry.1 .visiting walk.states) + _ ≤ _
          omega
        have kept : Walking graph (CycleWalk.run graph (cycleRounds graph)
          { walk.setState entry.1 .visiting with stack := [(entry.1,0)] }) ∧
            P (CycleWalk.run graph (cycleRounds graph) { walk.setState entry.1 .visiting with stack := [(entry.1,0)] }) :=
          runKeeps (P := fun walk => Walking graph walk ∧ P walk) (fun walk both => ⟨stepWalking walk both.1,step walk both.1 both.2⟩)
            ⟨begun,begin_ walk entry.1 between fresh holds⟩
        exact ⟨⟨kept.1,runEnds lighter,runShorter.trans lighter⟩,kept.2⟩
    exact ih visited.1 visited.2

theorem lookupNodup {β : Type} {entries : List (String × β)} (distinct : (entries.map (·.1)).Nodup) {entry : String × β}
    (mem : entry ∈ entries) :
    entries.lookup entry.1 = some entry.2 := by
  induction entries with
  | nil => cases mem
  | cons head tail ih =>
    rw [List.map_cons,List.nodup_cons] at distinct
    rw [List.lookup_cons]
    rcases List.mem_cons.mp mem with rfl | later
    · rw [beq_self_eq_true]
    · have apart : (entry.1 == head.1) = false := by
        refine beq_eq_false_iff_ne.mpr fun same => distinct.1 ?_
        rw [← same]
        exact List.mem_map_of_mem later
      rw [apart]
      exact ih distinct.2 later

theorem startUnmarked (found : (start graph).states.lookup tag = some state) : state = .unvisited := by
  obtain ⟨entry,_,same⟩ := List.mem_map.mp (Documents.lookupMem found)
  cases same
  rfl

theorem startBetween (distinct : (graph.map (·.1)).Nodup) : Between graph (start graph) := by
  have keys : (start graph).states.map (·.1) = graph.map (·.1) := by
    unfold start
    rw [List.map_map]
    rfl
  refine ⟨⟨keys,fun tag => ?_,List.nodup_nil⟩,rfl,?_⟩
  · refine ⟨fun found => ?_,fun absent => by cases absent⟩
    cases startUnmarked found
  · unfold left cycleRounds
    have all : ∀ entries : UrltestGraph, (∀ entry ∈ entries, graph.lookup entry.1 = some entry.2) →
        unvisitedWeight graph (entries.map fun entry => (entry.1,.unvisited)) = entries.length + (entries.map fun entry =>
          entry.2.length).sum := by
      intro entries
      induction entries with
      | nil => exact fun _ => rfl
      | cons entry rest ih =>
        intro found
        obtain ⟨here,later⟩ := List.forall_mem_cons.mp found
        rw [List.map_cons,unvisitedCons,ih later,if_pos rfl,weight,UrltestGraph.references,here,List.length_cons,
          List.map_cons,List.sum_cons,Option.getD_some]
        omega
    have total := all graph fun entry mem => lookupNodup distinct mem
    change unvisitedWeight graph (graph.map fun entry => (entry.1,.unvisited)) + 0 ≤ _
    omega

theorem stepSilent (silent : (walk.step graph).issues = []) : walk.issues = [] := by
  cases top : walk.stack with
  | nil =>
    rw [step,top] at silent
    exact silent
  | cons frame below =>
    rcases stepCases graph top with ⟨_,step⟩ | ⟨reference,_,⟨_,step⟩ | ⟨_,noise,_⟩ | ⟨_,step⟩⟩
    · rw [step] at silent
      exact silent
    · rw [step] at silent
      exact silent
    · exact absurd silent noise
    · rw [step] at silent
      exact silent

theorem stepBegun (begun : walk.states.lookup other ≠ some .unvisited) : (walk.step graph).states.lookup other ≠ some .unvisited := by
  have marks : ∀ {tag state}, state ≠ .unvisited → (walk.setState tag state).states.lookup other ≠ some .unvisited := by
    intro tag state started
    rw [lookupSetState]
    split
    · cases walk.states.lookup other with
      | none => exact nofun
      | some old => exact fun same => started (Option.some.inj same)
    · exact begun
  cases top : walk.stack with
  | nil =>
    rw [step,top]
    exact begun
  | cons frame below =>
    rcases stepCases graph top with ⟨_,step⟩ | ⟨reference,_,⟨_,step⟩ | ⟨_,_,_,states⟩ | ⟨_,step⟩⟩
    · rw [step]
      exact marks nofun
    · rw [step]
      exact begun
    · rw [states]
      exact begun
    · rw [step]
      exact marks nofun

theorem beginMarks (fresh : walk.states.lookup tag = some .unvisited) (open_ : other = tag ∨ walk.states.lookup other ≠ some .unvisited) :
    (walk.setState tag .visiting).states.lookup other ≠ some .unvisited := by
  rw [lookupSetState]
  split
  · rename_i same
    rw [same,fresh]
    exact nofun
  · rename_i apart
    exact open_.resolve_left apart

theorem visitedAll (entries : List (String × List UrltestReference)) (between : Between graph walk) :
    ∀ entry ∈ entries, (entries.foldl (visit graph) walk).states.lookup entry.1 ≠ some .unvisited := by
  induction entries generalizing walk with
  | nil => exact fun _ absent => by cases absent
  | cons entry others ih =>
    have one : Between graph (visit graph walk entry) ∧ True :=
      visitsKeep (P := fun _ => True) (fun _ _ _ => trivial) (fun _ _ _ _ _ => trivial) [entry] between trivial
    refine List.forall_mem_cons.mpr ⟨?_,ih one.1⟩
    have begun : (visit graph walk entry).states.lookup entry.1 ≠ some .unvisited := by
      unfold visit
      split
      · rename_i open_
        exact bne_iff_ne.mp open_
      · rename_i fresh
        rw [bne_iff_ne,not_not] at fresh
        exact runKeeps (P := fun walk => walk.states.lookup entry.1 ≠ some .unvisited) (fun _ => stepBegun) (beginMarks fresh (.inl rfl))
    exact (visitsKeep (P := fun walk => walk.states.lookup entry.1 ≠ some .unvisited) (fun _ _ => stepBegun)
      (fun _ _ _ fresh open_ => beginMarks fresh (.inr open_)) others one.1 begun).2

end Visits

section Ranking
variable {ended : List String}

def rankIn (ended : List String) (tag : String) : Nat := (ended.dropWhile (· != tag)).length

theorem orderedInside (ordered : Ordered graph ended) (mem : tag ∈ ended) {reference : UrltestReference}
    (taken : reference ∈ graph.references tag)
    (known : graph.known reference.target) : reference.target ∈ ended := by
  induction ended with
  | nil => cases mem
  | cons head earlier ih =>
    obtain ⟨_,targets,before⟩ := ordered
    rcases List.mem_cons.mp mem with rfl | later
    · exact List.mem_cons_of_mem _ (targets reference taken known)
    · exact List.mem_cons_of_mem _ (ih before later)

theorem rankInCons {head : String} (apart : head ≠ tag) : rankIn (head :: ended) tag = rankIn ended tag := by
  unfold rankIn
  rw [List.dropWhile_cons,if_pos (bne_iff_ne.mpr apart)]

theorem orderedRanks (ordered : Ordered graph ended) (mem : tag ∈ ended) {reference : UrltestReference}
    (taken : reference ∈ graph.references tag)
    (known : graph.known reference.target) : rankIn ended reference.target < rankIn ended tag := by
  induction ended with
  | nil => cases mem
  | cons head earlier ih =>
    obtain ⟨fresh,targets,before⟩ := ordered
    by_cases first : head = tag
    · have apart : head ≠ reference.target := by
        rintro same
        exact fresh (same ▸ targets reference (first ▸ taken) known)
      have whole : rankIn (head :: earlier) tag = earlier.length + 1 := by
        unfold rankIn
        rw [List.dropWhile_cons,if_neg (by simp [first]),List.length_cons]
      have short : rankIn earlier reference.target ≤ earlier.length := (List.dropWhile_sublist _).length_le
      rw [rankInCons apart,whole]
      omega
    · have later := (List.mem_cons.mp mem).resolve_left (Ne.symm first)
      have apart : head ≠ reference.target := by
        rintro same
        exact fresh (same ▸ orderedInside before later taken known)
      rw [rankInCons apart,rankInCons first]
      exact ih before later

end Ranking

end CycleWalk

open CycleWalk

theorem startFinished {graph : UrltestGraph} : Finished graph (start graph) [] := by
  refine ⟨trivial,fun tag => ⟨fun found => ?_,fun absent => by cases absent⟩,trivial⟩
  cases startUnmarked found

theorem beginFinished {graph : UrltestGraph} {walk : CycleWalk} {tag : String} {ended : List String}
    (fresh : walk.states.lookup tag = some .unvisited)
    (finished : Finished graph walk ended) : Finished graph { walk.setState tag .visiting with stack := [(tag,0)] } ended := by
  refine ⟨finished.ordered,fun other => ?_,⟨(fun _ absent => by cases absent),trivial⟩⟩
  change (walk.setState tag .visiting).states.lookup other = _ ↔ _
  rw [lookupSetState,← finished.visited]
  by_cases same : other = tag
  · simp [same,fresh]
  · rw [if_neg same]

theorem silentRanked {graph : UrltestGraph} (distinct : (graph.map (·.1)).Nodup) (silent : validateUrltestCycles graph = []) :
    ∃ rank, graph.RankedBy rank := by
  have between := startBetween distinct
  obtain ⟨after,finished⟩ := visitsKeep (P := fun walk => walk.issues = [] → ∃ ended, Finished graph walk ended)
    (fun walk walking finished quiet => by
      obtain ⟨ended,before⟩ := finished (stepSilent quiet)
      exact stepFinished walking before quiet)
    (fun walk tag between fresh finished quiet => by
      obtain ⟨ended,before⟩ := finished quiet
      exact ⟨ended,beginFinished fresh before⟩)
    graph between (fun _ => ⟨[],startFinished⟩)
  obtain ⟨ended,finished⟩ := finished silent
  refine ⟨rankIn ended,fun tag reference taken known => orderedRanks finished.ordered ?_ taken known⟩
  cases found : graph.lookup tag with
  | none =>
    rw [UrltestGraph.references,found] at taken
    cases taken
  | some references =>
    have mem := Documents.lookupMem found
    obtain ⟨state,stored⟩ := after.walking.known.mpr (List.mem_map_of_mem mem)
    refine (finished.visited tag).mp ?_
    cases state with
    | unvisited => exact absurd stored (visitedAll graph between _ mem)
    | visited => exact stored
    | visiting =>
      have opened := (after.walking.visiting _).mp stored
      rw [after.rest] at opened
      cases opened

theorem rankedSilent {graph : UrltestGraph} {rank : String → Nat} (distinct : (graph.map (·.1)).Nodup) (ranked : graph.RankedBy rank) :
    validateUrltestCycles graph = [] := by
  have kept := visitsKeep (P := Descending rank) (fun _ walking => stepDescending ranked walking)
    (fun _ _ _ _ descending => ⟨descending.silent,List.pairwise_singleton _ _⟩) graph (startBetween distinct) ⟨rfl,List.Pairwise.nil⟩
  exact kept.2.silent

section Outbounds
variable {outbounds : List Outbound}

theorem foundOutbound {tag : String} {ob : Outbound} (found : findOutbound outbounds tag = some ob) : ob ∈ outbounds ∧ ob.tag = tag := by
  refine ⟨List.mem_of_find?_eq_some found,?_⟩
  have named := List.find?_some (p := fun outbound : Outbound => outbound.tag == tag) found
  exact beq_iff_eq.mp named

theorem graphKeysNodup : ((urltestGraph outbounds).map (·.1)).Nodup := by
  unfold urltestGraph
  dsimp only
  rw [List.map_map]
  change (List.map id _).Nodup
  rw [List.map_id]
  exact (List.perm_insertionSort _ _).nodup_iff.mpr (List.nodup_dedup _)

theorem graphKnown {tag : String} : UrltestGraph.known (urltestGraph outbounds) tag ↔ ∃ ob ∈ outbounds, ob.type = .urltest ∧
    ob.tag = tag := by
  unfold UrltestGraph.known urltestGraph
  dsimp only
  rw [List.map_map]
  change tag ∈ List.map id _ ↔ _
  rw [List.map_id,List.mem_insertionSort,List.mem_dedup,List.mem_map]
  constructor
  · rintro ⟨ob,mem,same⟩
    obtain ⟨mem,group⟩ := List.mem_filter.mp mem
    exact ⟨ob,mem,beq_iff_eq.mp group,same⟩
  · rintro ⟨ob,mem,group,same⟩
    exact ⟨ob,List.mem_filter.mpr ⟨mem,beq_iff_eq.mpr group⟩,same⟩

theorem memReferences {ob : Outbound} {child : String} : (∃ reference ∈ urltestReferences outbounds ob, reference.target = child) ↔
    child ∈ Documents.Outbound.children ob ∧ ∃ target, findOutbound outbounds child = some target ∧ target.type = .urltest := by
  unfold urltestReferences Documents.Outbound.children groupReferences
  constructor
  · rintro ⟨reference,mem,rfl⟩
    obtain ⟨⟨group,index⟩,listed,taken⟩ := List.mem_flatMap.mp mem
    obtain ⟨⟨child,place⟩,inside,made⟩ := List.mem_filterMap.mp taken
    have groupMem := List.mem_iff_getElem?.mpr ⟨_,List.mem_zipIdx_iff_getElem?.mp listed⟩
    have childMem := List.mem_iff_getElem?.mpr ⟨_,List.mem_zipIdx_iff_getElem?.mp inside⟩
    dsimp only at made groupMem childMem
    cases found : findOutbound outbounds child with
    | none =>
      rw [found] at made
      cases made
    | some target =>
      rw [found] at made
      dsimp only at made
      split at made
      · rename_i nested
        cases made
        exact ⟨List.mem_flatMap.mpr ⟨group,groupMem,childMem⟩,target,found,beq_iff_eq.mp nested⟩
      · cases made
  · rintro ⟨mem,target,found,nested⟩
    obtain ⟨group,listed,inside⟩ := List.mem_flatMap.mp mem
    obtain ⟨index,groupAt⟩ := List.mem_iff_getElem?.mp listed
    obtain ⟨place,childAt⟩ := List.mem_iff_getElem?.mp inside
    refine ⟨⟨child,"outbounds." ++ ob.tag ++ ".outbound_groups[" ++ toString index ++ "].outbounds[" ++ toString place ++ "]"⟩,
      List.mem_flatMap.mpr ⟨(group,index),List.mem_zipIdx_iff_getElem?.mpr groupAt,
        List.mem_filterMap.mpr ⟨(child,place),List.mem_zipIdx_iff_getElem?.mpr childAt,?_⟩⟩,rfl⟩
    dsimp only
    rw [found]
    simp [nested]

theorem memGraphReferences {tag : String} {reference : UrltestReference} :
    reference ∈ UrltestGraph.references (urltestGraph outbounds) tag ↔
    ∃ ob ∈ outbounds, ob.type = .urltest ∧ ob.tag = tag ∧ reference ∈ urltestReferences outbounds ob := by
  have entry : ∀ stored ∈ urltestGraph outbounds,
      stored.2 = ((outbounds.filter fun ob => ob.type == .urltest).filter fun ob => ob.tag == stored.1).flatMap
        (urltestReferences outbounds) := by
    intro stored mem
    obtain ⟨_,_,rfl⟩ := List.mem_map.mp mem
    rfl
  unfold UrltestGraph.references
  constructor
  · intro taken
    cases found : List.lookup tag (urltestGraph outbounds) with
    | none =>
      rw [found] at taken
      cases taken
    | some stored =>
      have shape := entry _ (Documents.lookupMem found)
      dsimp only at shape
      rw [found,Option.getD_some,shape] at taken
      obtain ⟨ob,mem,inside⟩ := List.mem_flatMap.mp taken
      obtain ⟨mem,named⟩ := List.mem_filter.mp mem
      obtain ⟨mem,group⟩ := List.mem_filter.mp mem
      exact ⟨ob,mem,beq_iff_eq.mp group,beq_iff_eq.mp named,inside⟩
  · rintro ⟨ob,mem,group,named,inside⟩
    obtain ⟨stored,listed,same⟩ := List.mem_map.mp (graphKnown.mpr ⟨ob,mem,group,named⟩)
    have found := lookupNodup graphKeysNodup listed
    rw [same] at found
    rw [found,Option.getD_some,entry stored listed,same]
    exact List.mem_flatMap.mpr ⟨ob,List.mem_filter.mpr ⟨List.mem_filter.mpr ⟨mem,beq_iff_eq.mpr group⟩,beq_iff_eq.mpr named⟩,inside⟩

theorem cyclesNil : validateUrltestCycles (urltestGraph outbounds) = [] ↔
    ∃ rank : String → Nat, ∀ ob ∈ outbounds, ob.type = .urltest → ∀ child ∈ Documents.Outbound.children ob,
      (∃ target, findOutbound outbounds child = some target ∧ target.type = .urltest) → rank child < rank ob.tag := by
  constructor
  · intro silent
    obtain ⟨rank,ranked⟩ := silentRanked graphKeysNodup silent
    refine ⟨rank,fun ob mem group child inside nested => ?_⟩
    obtain ⟨reference,taken,rfl⟩ := memReferences.mpr ⟨inside,nested⟩
    obtain ⟨target,found,type⟩ := nested
    obtain ⟨listed,named⟩ := foundOutbound found
    exact ranked ob.tag reference (memGraphReferences.mpr ⟨ob,mem,group,rfl,taken⟩) (graphKnown.mpr ⟨target,listed,type,named⟩)
  · rintro ⟨rank,ranked⟩
    refine rankedSilent graphKeysNodup (?_ : UrltestGraph.RankedBy _ rank)
    intro tag reference taken _
    obtain ⟨ob,mem,group,rfl,listed⟩ := memGraphReferences.mp taken
    obtain ⟨inside,nested⟩ := memReferences.mp ⟨reference,listed,rfl⟩
    exact ranked ob mem group _ inside nested

end Outbounds

end KeenPbr

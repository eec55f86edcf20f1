import KeenPbr.ConfigAccepted
import KeenPbr.RoutingPlanView

/-! The table ids of a plan beside the two places that compute them again: outbound_table_id of
health/runtime_outbound_state.cpp, and infer_urltest_selections of cmd/status.cpp, which adds the
offset to table_start without leaving out reserved ids. -/
namespace KeenPbr

def outboundTableIdFrom (tableStart : UInt32) (outboundTag : String) : List Outbound → UInt32 → Option UInt32
  | [], _ => none
  | outbound :: rest, offset =>
    if !outbound.routable then outboundTableIdFrom tableStart outboundTag rest offset
    else
      let tableId := if outbound.type == .table then toUint32 (outbound.table.getD 0) else safeTableId tableStart offset
      if outbound.tag == outboundTag then some tableId
      else outboundTableIdFrom tableStart outboundTag rest (offset + 1)

def outboundTableId (cfg : Config) (outbounds : List Outbound) (outboundTag : String) : Option UInt32 :=
  outboundTableIdFrom cfg.tableStartValue outboundTag outbounds 0

def statusTables (tableStart : UInt32) : List Outbound → UInt32 → List (Outbound × UInt32)
  | [], _ => []
  | ob :: rest, offset =>
    if !ob.routable then statusTables tableStart rest offset
    else
      let tableId := if ob.type == .table then toUint32 (ob.table.getD 0) else tableStart + offset
      if ob.type != .urltest then statusTables tableStart rest (offset + 1)
      else (ob,tableId) :: statusTables tableStart rest (offset + 1)

def PlannedOutbound.installedTable (entry : PlannedOutbound) : UInt32 :=
  if entry.outbound.type == .table then toUint32 (entry.outbound.table.getD 0) else entry.tableId

theorem offsetNext (offset : UInt32) (i : Nat) : offset + 1 + UInt32.ofNat i = offset + UInt32.ofNat (i + 1) := by
  rw [UInt32.ofNat_add,UInt32.add_assoc,UInt32.add_comm 1]
  rfl

theorem outboundTableIdAt {outbounds : List Outbound} (distinct : (outbounds.map (·.tag)).Nodup)
    (tableStart offset : UInt32) {i : Nat} {ob : Outbound} (found : (routableOutbounds outbounds)[i]? = some ob) :
    outboundTableIdFrom tableStart ob.tag outbounds offset =
      some (if ob.type == .table then toUint32 (ob.table.getD 0) else safeTableId tableStart (offset + UInt32.ofNat i)) := by
  induction outbounds generalizing offset i with
  | nil => simp [routableOutbounds] at found
  | cons first rest ih =>
    rw [List.map_cons,List.nodup_cons] at distinct
    rw [outboundTableIdFrom]
    cases routable : first.routable with
    | false =>
      rw [routableOutbounds,List.filter_cons_of_neg (by simp [routable])] at found
      simpa using ih distinct.2 offset found
    | true =>
      rw [routableOutbounds,List.filter_cons_of_pos (by simp [routable])] at found
      cases i with
      | zero =>
        rw [List.getElem?_cons_zero,Option.some.injEq] at found
        subst found
        simp
      | succ i =>
        rw [List.getElem?_cons_succ] at found
        have later : ob ∈ rest := (List.mem_filter.mp (List.mem_of_getElem? found)).1
        have apart : first.tag ≠ ob.tag := fun same => distinct.1 (same ▸ List.mem_map_of_mem later)
        have next := ih distinct.2 (offset + 1) found
        rw [offsetNext] at next
        simpa [apart] using next

theorem memStatusTables {tableStart : UInt32} {outbounds : List Outbound} {offset : UInt32} {pair : Outbound × UInt32} :
    pair ∈ statusTables tableStart outbounds offset ↔
      ∃ i, (routableOutbounds outbounds)[i]? = some pair.1 ∧ pair.1.type = .urltest ∧
        pair.2 = tableStart + (offset + UInt32.ofNat i) := by
  induction outbounds generalizing offset with
  | nil => simp [statusTables,routableOutbounds]
  | cons first rest ih =>
    rw [statusTables]
    cases routable : first.routable with
    | false =>
      rw [routableOutbounds,List.filter_cons_of_neg (by simp [routable]),← routableOutbounds]
      simpa using ih
    | true =>
      rw [routableOutbounds,List.filter_cons_of_pos (by simp [routable]),← routableOutbounds]
      have later : pair ∈ statusTables tableStart rest (offset + 1) ↔ ∃ i, (routableOutbounds rest)[i]? = some pair.1 ∧
          pair.1.type = .urltest ∧ pair.2 = tableStart + (offset + UInt32.ofNat (i + 1)) := by
        rw [ih]
        simp only [offsetNext]
      constructor
      · intro mem
        by_cases group : first.type = .urltest
        · simp only [Bool.not_true,Bool.false_eq_true,if_false,group,bne_self_eq_false,List.mem_cons] at mem
          cases mem with
          | inl same =>
            subst same
            exact ⟨0,rfl,group,by simp⟩
          | inr mem =>
            obtain ⟨i,found,type,value⟩ := later.mp mem
            exact ⟨i + 1,found,type,value⟩
        · have mem : pair ∈ statusTables tableStart rest (offset + 1) := by simpa [group] using mem
          obtain ⟨i,found,type,value⟩ := later.mp mem
          exact ⟨i + 1,found,type,value⟩
      · intro found
        obtain ⟨i,found,type,value⟩ := found
        cases i with
        | zero =>
          rw [List.getElem?_cons_zero,Option.some.injEq] at found
          have same : pair = (first,tableStart + offset) := Prod.ext found.symm (by simpa using value)
          subst same
          simp only at type
          simp [type]
        | succ i =>
          have mem := later.mpr ⟨i,found,type,value⟩
          by_cases group : first.type = .urltest
          · simp only [Bool.not_true,Bool.false_eq_true,if_false,group,bne_self_eq_false]
            exact List.mem_cons_of_mem _ mem
          · simpa [group] using mem

/- A plan made from an accepted configuration with its own marks. -/
structure PlannedFrom (inet : Inet) (input : PlanInput) (entries : List PlannedOutbound) : Prop where
  accepted : validateConfig inet input.cfg = []
  allocated : allocateOutboundMarks input.cfg.fwmark input.cfg.outboundList = .ok input.marks
  planned : plannedEntries input = .ok entries

section Planned
variable {inet : Inet} {input : PlanInput} {entries : List PlannedOutbound}

theorem PlannedFrom.tabled (from_config : PlannedFrom inet input entries) :
    input.outbounds.filter input.tabled = routableOutbounds input.cfg.outboundList := by
  apply List.filter_congr
  intro ob listed
  cases routable : ob.routable with
  | false => simp [PlanInput.tabled,routable]
  | true =>
    have marked := (allocateMarks from_config.allocated).1 ob listed routable
    simp [PlanInput.tabled,routable,marked]

theorem PlannedFrom.entryAt (from_config : PlannedFrom inet input entries) : ∃ mask, ∀ i : Nat,
    entries[i]? = (routableOutbounds input.cfg.outboundList)[i]?.map fun ob => plannedOutbound input mask ob (UInt32.ofNat i) := by
  have planned := from_config.planned
  unfold plannedEntries at planned
  cases parsed : fwmarkMaskValue input.cfg.fwmark with
  | error message =>
    rw [parsed] at planned
    cases planned
  | ok mask =>
    rw [parsed] at planned
    cases planned
    refine ⟨mask,fun i => ?_⟩
    have entry := planEntriesAt input mask input.outbounds 0 i
    simpa only [from_config.tabled,UInt32.zero_add] using entry

theorem PlannedFrom.few (from_config : PlannedFrom inet input entries) :
    (routableOutbounds input.cfg.outboundList).length < 2 ^ 32 := (allocateMarks from_config.allocated).2

theorem PlannedFrom.routableNodup (from_config : PlannedFrom inet input entries) :
    ((routableOutbounds input.cfg.outboundList).map (·.tag)).Nodup :=
  (acceptedConfig from_config.accepted).distinct.sublist (List.Sublist.map _ List.filter_sublist)

end Planned

def skippedBelow (id : Nat) : Nat := (if 128 < id then 1 else 0) + if 260 < id then 11 else 0

theorem tableRankSkipped {id : UInt32} (free : isReservedTable id = false) :
    tableRank id + 1 + skippedBelow id.toNat = id.toNat ∧ skippedBelow id.toNat ≤ 12 := by
  rw [freeIff] at free
  unfold tableRank skippedBelow
  split_ifs <;> omega

theorem nothingSkipped {first last middle : Nat} (same : skippedBelow first = skippedBelow last) (positive : 1 ≤ first)
    (ends : last < 32000) (_ : first ≠ 128 ∧ (first < 250 ∨ 260 < first))
    (freeLast : last ≠ 128 ∧ (last < 250 ∨ 260 < last)) (between : first ≤ middle ∧ middle ≤ last) :
    1 ≤ middle ∧ middle < 32000 ∧ middle ≠ 128 ∧ (middle < 250 ∨ 260 < middle) := by
  unfold skippedBelow at same
  split_ifs at same <;> omega

theorem addedOffset {tableStart : UInt32} (free : isReservedTable tableStart = false) {i : Nat} (small : i < 2 ^ 32) :
    safeTableId tableStart (UInt32.ofNat i) = tableStart + UInt32.ofNat i ↔
      ∀ n ≤ i, isReservedTable (tableStart + UInt32.ofNat n) = false := by
  have offset : (UInt32.ofNat i).toNat = i := by rw [UInt32.toNat_ofNat']; omega
  rw [safeTableIdEq,offset]
  constructor
  · intro same n before
    have rank := tableRankNth tableStart i
    have lastFree := nthFreeFree tableStart i
    rw [nextFreeOfFree free] at rank
    rw [same] at rank lastFree
    obtain ⟨startRank,startSkipped⟩ := tableRankSkipped free
    obtain ⟨lastRank,lastSkipped⟩ := tableRankSkipped lastFree
    have sum : (tableStart + UInt32.ofNat i).toNat = (tableStart.toNat + i) % 2 ^ 32 := by
      rw [UInt32.toNat_add,offset]
    rw [freeIff] at free lastFree
    -- wrapping the 32-bit range would move the rank by 8832, the reserved ids by at most 12
    have straight : (tableStart + UInt32.ofNat i).toNat = tableStart.toNat + i := by omega
    have none : skippedBelow tableStart.toNat = skippedBelow (tableStart + UInt32.ofNat i).toNat := by omega
    have middle : (tableStart + UInt32.ofNat n).toNat = tableStart.toNat + n := by
      rw [UInt32.toNat_add,UInt32.toNat_ofNat']
      omega
    rw [freeIff]
    exact nothingSkipped none free.1 lastFree.2.1 free.2.2 lastFree.2.2 (by omega)
  · intro clear
    have along : ∀ n ≤ i, nthFree tableStart n = tableStart + UInt32.ofNat n := by
      intro n
      induction n with
      | zero =>
        intro _
        rw [nthFree,nextFreeOfFree free]
        exact (UInt32.add_zero tableStart).symm
      | succ n ih =>
        intro before
        have next : tableStart + UInt32.ofNat n + 1 = tableStart + UInt32.ofNat (n + 1) := by
          rw [UInt32.ofNat_add,UInt32.add_assoc]
          rfl
        rw [nthFree,ih (by omega),next,nextFreeOfFree (clear (n + 1) before)]
    exact along i (Nat.le_refl i)

section Agreement
variable {inet : Inet} {input : PlanInput} {entries : List PlannedOutbound}

/- The three places name one table for every routable outbound. -/
def TablesAgree (cfg : Config) (entries : List PlannedOutbound) : Prop :=
  ∀ ob ∈ cfg.outboundList, ob.routable = true → ∃ entry ∈ entries, entry.outbound = ob ∧
    outboundTableId cfg cfg.outboundList ob.tag = some entry.installedTable ∧
    (ob.type = .urltest → (ob,entry.installedTable) ∈ statusTables cfg.tableStartValue cfg.outboundList 0)

theorem plannedInstalled (input : PlanInput) (mask : UInt32) (ob : Outbound) (offset : UInt32) :
    (plannedOutbound input mask ob offset).installedTable =
      if ob.type == .table then toUint32 (ob.table.getD 0) else safeTableId input.cfg.tableStartValue offset := by
  obtain ⟨outbound,tableId⟩ := plannedOutboundOf input mask ob offset
  rw [PlannedOutbound.installedTable,outbound,tableId]

theorem ruleInstalled (input : PlanInput) (mask : UInt32) (ob : Outbound) (offset : UInt32) {rule : RuleSpec}
    (mem : rule ∈ (plannedOutbound input mask ob offset).rules) :
    rule.table = (plannedOutbound input mask ob offset).installedTable ∧
      rule.priority = (plannedOutbound input mask ob offset).tableId := by
  rw [plannedInstalled,(plannedOutboundOf input mask ob offset).2]
  unfold plannedOutbound planOutbound at mem
  cases type : ob.type with
  | interface =>
    simp only [type,interfaceRules] at mem
    split at mem
    · cases mem
    · cases List.mem_singleton.mp mem
      exact ⟨rfl,rfl⟩
  | table =>
    simp only [type] at mem
    cases List.mem_singleton.mp mem
    exact ⟨rfl,rfl⟩
  | urltest =>
    simp only [type] at mem
    cases List.mem_singleton.mp mem
    exact ⟨rfl,rfl⟩
  | blackhole =>
    simp only [type] at mem
    cases mem
  | ignore =>
    simp only [type] at mem
    cases mem

theorem PlannedFrom.reported (from_config : PlannedFrom inet input entries) {mask : UInt32} {i : Nat} {ob : Outbound}
    (found : (routableOutbounds input.cfg.outboundList)[i]? = some ob) :
    outboundTableId input.cfg input.cfg.outboundList ob.tag =
      some (plannedOutbound input mask ob (UInt32.ofNat i)).installedTable := by
  rw [plannedInstalled,outboundTableId,
    outboundTableIdAt (acceptedConfig from_config.accepted).distinct input.cfg.tableStartValue 0 found,UInt32.zero_add]

theorem PlannedFrom.sameIndex (from_config : PlannedFrom inet input entries) {i j : Nat} {ob : Outbound}
    (at_i : (routableOutbounds input.cfg.outboundList)[i]? = some ob)
    (at_j : (routableOutbounds input.cfg.outboundList)[j]? = some ob) : i = j := by
  have distinct := List.Nodup.of_map _ from_config.routableNodup
  obtain ⟨inside,value⟩ := List.getElem?_eq_some_iff.mp at_i
  obtain ⟨inside',value'⟩ := List.getElem?_eq_some_iff.mp at_j
  exact (distinct.getElem_inj_iff).mp (value.trans value'.symm)

theorem PlannedFrom.entryIndex (from_config : PlannedFrom inet input entries) {entry : PlannedOutbound}
    (mem : entry ∈ entries) : ∃ mask i, (routableOutbounds input.cfg.outboundList)[i]? = some entry.outbound ∧
      entry = plannedOutbound input mask entry.outbound (UInt32.ofNat i) := by
  obtain ⟨mask,entryAt⟩ := from_config.entryAt
  obtain ⟨i,at_i⟩ := List.mem_iff_getElem?.mp mem
  rw [entryAt,Option.map_eq_some_iff] at at_i
  obtain ⟨ob,found,rfl⟩ := at_i
  rw [(plannedOutboundOf input mask ob (UInt32.ofNat i)).1]
  exact ⟨mask,i,found,rfl⟩

def groupsBeforeReserved (cfg : Config) : Prop :=
  ∀ i ob, (routableOutbounds cfg.outboundList)[i]? = some ob → ob.type = .urltest →
    ∀ n ≤ i, isReservedTable (cfg.tableStartValue + UInt32.ofNat n) = false

theorem PlannedFrom.groupOffset (from_config : PlannedFrom inet input entries) {i : Nat} {ob : Outbound}
    (found : (routableOutbounds input.cfg.outboundList)[i]? = some ob) :
    safeTableId input.cfg.tableStartValue (UInt32.ofNat i) = input.cfg.tableStartValue + UInt32.ofNat i ↔
      ∀ n ≤ i, isReservedTable (input.cfg.tableStartValue + UInt32.ofNat n) = false := by
  have inside := (List.getElem?_eq_some_iff.mp found).1
  have few := from_config.few
  exact addedOffset (acceptedConfig from_config.accepted).freeStart (by omega)

theorem agreeGroups (from_config : PlannedFrom inet input entries) (agree : TablesAgree input.cfg entries) :
    groupsBeforeReserved input.cfg := by
  intro i ob found type
  obtain ⟨listed,routable⟩ := List.mem_filter.mp (List.mem_of_getElem? found)
  obtain ⟨entry,mem,same,_,inferred⟩ := agree ob listed routable
  obtain ⟨mask,j,found_j,planned⟩ := from_config.entryIndex mem
  rw [same] at found_j planned
  cases from_config.sameIndex found found_j
  obtain ⟨k,found_k,_,value⟩ := memStatusTables.mp (inferred type)
  cases from_config.sameIndex found found_k
  have notTable : (ob.type == .table) = false := by simp [type]
  rw [planned,plannedInstalled,notTable,UInt32.zero_add] at value
  exact (from_config.groupOffset found).mp value

theorem groupsAgree (from_config : PlannedFrom inet input entries) (before : groupsBeforeReserved input.cfg) :
    TablesAgree input.cfg entries := by
  intro ob listed routable
  obtain ⟨mask,entryAt⟩ := from_config.entryAt
  obtain ⟨i,found⟩ := List.mem_iff_getElem?.mp (List.mem_filter.mpr ⟨listed,routable⟩)
  have entry := entryAt i
  rw [routableOutbounds,found] at entry
  refine ⟨_,List.mem_of_getElem? entry,(plannedOutboundOf input mask ob (UInt32.ofNat i)).1,from_config.reported found,?_⟩
  intro type
  have notTable : (ob.type == .table) = false := by simp [type]
  apply memStatusTables.mpr
  refine ⟨i,found,type,?_⟩
  rw [plannedInstalled,notTable,UInt32.zero_add]
  exact (from_config.groupOffset found).mpr (before i ob found type)

/- The planner and outbound_table_id always agree; status agrees while it passes no reserved id. -/
theorem tablesAgreeIff (from_config : PlannedFrom inet input entries) :
    TablesAgree input.cfg entries ↔ groupsBeforeReserved input.cfg := by
  constructor
  · exact agreeGroups from_config
  · exact groupsAgree from_config

end Agreement

section Generated
variable {inet : Inet} {input : PlanInput} {entries : List PlannedOutbound}

structure GeneratedId (cfg : Config) (id : UInt32) : Prop where
  free : isReservedTable id = false
  fromStart : cfg.tableStart.getD 150 ≤ id.toNat
  below : id < 32000

structure GeneratedIdsOrdered (cfg : Config) (entries : List PlannedOutbound) : Prop where
  tables : (entries.map (·.tableId)).Pairwise (· < ·)
  priorities : ((joinEntries entries).rules.map (·.priority)).Pairwise (· < ·)
  distinct : (entries.map (·.tableId)).Nodup ∧ ((joinEntries entries).rules.map (·.priority)).Nodup
  each : ∀ id, id ∈ entries.map (·.tableId) ∨ id ∈ (joinEntries entries).rules.map (·.priority) → GeneratedId cfg id

def freeTablesFrom (id : UInt32) : Nat := 31987 - tableRank id

/- Every routable outbound finds a free id at or after table_start. -/
def startFits (cfg : Config) : Prop :=
  routableOutbounds cfg.outboundList = [] ∨
    cfg.tableStart.getD 150 < 2 ^ 32 ∧ (routableOutbounds cfg.outboundList).length ≤ freeTablesFrom cfg.tableStartValue

theorem PlannedFrom.idAt (from_config : PlannedFrom inet input entries) (i : Nat) :
    (entries.map (·.tableId))[i]? = (routableOutbounds input.cfg.outboundList)[i]?.map fun _ =>
      safeTableId input.cfg.tableStartValue (UInt32.ofNat i) := by
  obtain ⟨mask,entryAt⟩ := from_config.entryAt
  rw [List.getElem?_map,entryAt,Option.map_map]
  congr 1
  funext ob
  exact (plannedOutboundOf input mask ob (UInt32.ofNat i)).2

theorem PlannedFrom.idRank (from_config : PlannedFrom inet input entries) {i : Nat}
    (inside : i < (routableOutbounds input.cfg.outboundList).length) :
    tableRank (safeTableId input.cfg.tableStartValue (UInt32.ofNat i)) =
      (tableRank input.cfg.tableStartValue + i) % 31987 := by
  have few := from_config.few
  have offset : (UInt32.ofNat i).toNat = i := by rw [UInt32.toNat_ofNat']; omega
  rw [safeTableIdEq,offset,tableRankNth,nextFreeOfFree (acceptedConfig from_config.accepted).freeStart]

theorem prioritySublist (entries : List PlannedOutbound)
    (own : ∀ entry ∈ entries, entry.rules.map (·.priority) = [] ∨ entry.rules.map (·.priority) = [entry.tableId]) :
    ((joinEntries entries).rules.map (·.priority)).Sublist (entries.map (·.tableId)) := by
  induction entries with
  | nil => exact List.Sublist.slnil
  | cons entry rest ih =>
    have later := ih fun other mem => own other (List.mem_cons_of_mem entry mem)
    simp only [joinEntries,List.flatMap_cons,List.map_append,List.map_cons] at later ⊢
    cases own entry List.mem_cons_self with
    | inl none =>
      rw [none]
      exact later.cons _
    | inr one =>
      rw [one]
      exact later.cons_cons _

theorem PlannedFrom.priorities (from_config : PlannedFrom inet input entries) :
    ((joinEntries entries).rules.map (·.priority)).Sublist (entries.map (·.tableId)) := by
  apply prioritySublist
  intro entry mem
  obtain ⟨mask,i,_,planned⟩ := from_config.entryIndex mem
  rw [planned,(plannedOutboundOf input mask entry.outbound (UInt32.ofNat i)).2]
  cases plannedRulesShape input mask entry.outbound (UInt32.ofNat i) with
  | inl none => exact Or.inl (by rw [none]; rfl)
  | inr one =>
    obtain ⟨rule,only,priority⟩ := one
    exact Or.inr (by rw [only,List.map_cons,priority]; rfl)

theorem tableStartNat {cfg : Config} (small : cfg.tableStart.getD 150 < 2 ^ 32) :
    cfg.tableStart.getD 150 ≤ cfg.tableStartValue.toNat := by
  rw [Config.tableStartValue,toUint32,UInt32.toNat_ofNat']
  omega

theorem tableStartAbove {cfg : Config} (free : isReservedTable cfg.tableStartValue = false)
    (under : cfg.tableStart.getD 150 ≤ cfg.tableStartValue.toNat) : cfg.tableStart.getD 150 < 2 ^ 32 := by
  rw [freeIff] at free
  omega

theorem PlannedFrom.placed (from_config : PlannedFrom inet input entries) (fits : startFits input.cfg) {i : Nat} {id : UInt32}
    (found : (entries.map (·.tableId))[i]? = some id) : isReservedTable id = false ∧
      tableRank id = tableRank input.cfg.tableStartValue + i ∧ input.cfg.tableStart.getD 150 < 2 ^ 32 := by
  rw [from_config.idAt,Option.map_eq_some_iff] at found
  obtain ⟨ob,at_i,rfl⟩ := found
  have inside := (List.getElem?_eq_some_iff.mp at_i).1
  cases fits with
  | inl empty =>
    rw [empty] at inside
    cases inside
  | inr fits =>
    have room := fits.2
    have start := tableRankLt (acceptedConfig from_config.accepted).freeStart
    unfold freeTablesFrom at room
    refine ⟨safeTableIdFree _ _,?_,fits.1⟩
    rw [from_config.idRank inside,Nat.mod_eq_of_lt (by omega)]

theorem orderedOfFits (from_config : PlannedFrom inet input entries) (fits : startFits input.cfg) :
    GeneratedIdsOrdered input.cfg entries := by
  have tables : (entries.map (·.tableId)).Pairwise (· < ·) := by
    rw [List.pairwise_iff_getElem]
    intro i j inside_i inside_j before
    obtain ⟨free_i,rank_i,_⟩ := from_config.placed fits (List.getElem?_eq_getElem inside_i)
    obtain ⟨free_j,rank_j,_⟩ := from_config.placed fits (List.getElem?_eq_getElem inside_j)
    exact (tableRankLtIff free_i free_j).mp (by omega)
  have distinct : (entries.map (·.tableId)).Nodup := tables.imp fun less => UInt32.ne_of_lt less
  refine ⟨tables,tables.sublist from_config.priorities,⟨distinct,distinct.sublist from_config.priorities⟩,?_⟩
  intro id mem
  have mem : id ∈ entries.map (·.tableId) := mem.elim (fun table => table) fun priority => from_config.priorities.mem priority
  obtain ⟨i,found⟩ := List.mem_iff_getElem?.mp mem
  obtain ⟨free,rank,small⟩ := from_config.placed fits found
  have start := (acceptedConfig from_config.accepted).freeStart
  have notBelow : ¬ id < input.cfg.tableStartValue := by
    rw [← tableRankLtIff free start]
    omega
  rw [UInt32.lt_iff_toNat_lt] at notBelow
  have configured := tableStartNat small
  refine ⟨free,by omega,?_⟩
  rw [freeIff] at free
  exact UInt32.lt_iff_toNat_lt.mpr free.2.1

theorem fitsOfOrdered (from_config : PlannedFrom inet input entries) (ordered : GeneratedIdsOrdered input.cfg entries) :
    startFits input.cfg := by
  have start := (acceptedConfig from_config.accepted).freeStart
  by_contra crowded
  obtain ⟨some_ob,crowded⟩ := not_or.mp crowded
  have positive : 0 < (routableOutbounds input.cfg.outboundList).length := List.length_pos_iff.mpr some_ob
  have idAt : ∀ i < (routableOutbounds input.cfg.outboundList).length, (entries.map (·.tableId))[i]? =
      some (safeTableId input.cfg.tableStartValue (UInt32.ofNat i)) := by
    intro i inside
    rw [from_config.idAt,List.getElem?_eq_getElem inside]
    rfl
  have first : safeTableId input.cfg.tableStartValue (UInt32.ofNat 0) = input.cfg.tableStartValue := by
    rw [safeTableIdEq]
    exact nextFreeOfFree start
  have least := (ordered.each _ (Or.inl (List.mem_of_getElem? (idAt 0 positive)))).fromStart
  rw [first] at least
  have few : freeTablesFrom input.cfg.tableStartValue < (routableOutbounds input.cfg.outboundList).length := by
    have small := tableStartAbove start least
    have room := not_and.mp crowded small
    omega
  -- the id after the last free one is the first free id, below table_start or equal to it
  have rank := from_config.idRank few
  have startRank := tableRankLt start
  unfold freeTablesFrom at few rank
  have wrapped : tableRank (safeTableId input.cfg.tableStartValue (UInt32.ofNat (31987 - tableRank input.cfg.tableStartValue))) = 0 := by
    rw [rank]
    omega
  have later : 0 < 31987 - tableRank input.cfg.tableStartValue := by omega
  obtain ⟨inside_0,value_0⟩ := List.getElem?_eq_some_iff.mp (idAt 0 positive)
  obtain ⟨inside_n,value_n⟩ := List.getElem?_eq_some_iff.mp (idAt _ few)
  have less := List.pairwise_iff_getElem.mp ordered.tables 0 _ inside_0 inside_n later
  rw [value_0,value_n,first,← tableRankLtIff start (safeTableIdFree _ _)] at less
  omega

/- The ids are in order exactly when the free ids from table_start on are enough. -/
theorem generatedIdsOrderedIff (from_config : PlannedFrom inet input entries) :
    GeneratedIdsOrdered input.cfg entries ↔ startFits input.cfg := by
  constructor
  · exact fitsOfOrdered from_config
  · exact orderedOfFits from_config

end Generated

def wanOutbound : Outbound := { tag := "wan", type := .interface, interface := some "eth0" }

def autoOutbound : Outbound :=
  { tag := "auto", type := .urltest, url := some "http://host/", outboundGroups := some [{ outbounds := ["wan"] }] }

def startedInput (tableStart : Int) : PlanInput :=
  { cfg := { outbounds := some [wanOutbound,autoOutbound], tableStart := some tableStart }
    marks := [("wan",0x20000),("auto",0x10000)] }

def noInet : Inet := ⟨fun _ _ => none,fun _ _ => none⟩

def startedEntries (tableStart : Int) : List PlannedOutbound :=
  planEntries (startedInput tableStart) 0x00FF0000 [wanOutbound,autoOutbound] 0

theorem startedAccepted : validateConfig noInet (startedInput 150).cfg = [] ∧
    validateConfig noInet (startedInput 249).cfg = [] ∧ validateConfig noInet (startedInput 31999).cfg = [] ∧
    allocateOutboundMarks {} [wanOutbound,autoOutbound] = .ok [("wan",0x20000),("auto",0x10000)] := by decide

theorem startedAt150 : PlannedFrom noInet (startedInput 150) (startedEntries 150) :=
  ⟨startedAccepted.1,startedAccepted.2.2.2,rfl⟩

theorem startedAt249 : PlannedFrom noInet (startedInput 249) (startedEntries 249) :=
  ⟨startedAccepted.2.1,startedAccepted.2.2.2,rfl⟩

theorem tablesAgreeAt150 : TablesAgree (startedInput 150).cfg (startedEntries 150) := by
  refine (tablesAgreeIff startedAt150).mpr ?_
  intro i ob found _ n before
  have inside : i < 2 := (List.getElem?_eq_some_iff.mp found).1
  have clear : ∀ n < 2, isReservedTable (150 + UInt32.ofNat n) = false := by decide
  exact clear n (by omega)

/- The group takes table 261; status reads table 250. -/
theorem statusReads250 : PlannedFrom noInet (startedInput 249) (startedEntries 249) ∧
    ¬ TablesAgree (startedInput 249).cfg (startedEntries 249) := by
  refine ⟨startedAt249,fun agree => ?_⟩
  have clear := agreeGroups startedAt249 agree 1 autoOutbound rfl rfl 1 (Nat.le_refl 1)
  exact absurd clear (by decide)

theorem startedAt31999 : PlannedFrom noInet (startedInput 31999) (startedEntries 31999) :=
  ⟨startedAccepted.2.2.1,startedAccepted.2.2.2,rfl⟩

theorem generatedIdsAt150 : GeneratedIdsOrdered (startedInput 150).cfg (startedEntries 150) := by
  refine (generatedIdsOrderedIff startedAt150).mpr (Or.inr ⟨by decide,?_⟩)
  exact (by decide : (routableOutbounds [wanOutbound,autoOutbound]).length ≤ freeTablesFrom (toUint32 150))

/- The second outbound goes on from table 1. -/
theorem lastIdWraps : PlannedFrom noInet (startedInput 31999) (startedEntries 31999) ∧
    ¬ GeneratedIdsOrdered (startedInput 31999).cfg (startedEntries 31999) := by
  refine ⟨startedAt31999,fun ordered => ?_⟩
  have fits := fitsOfOrdered startedAt31999 ordered
  have crowded : ¬ (routableOutbounds [wanOutbound,autoOutbound]).length ≤ freeTablesFrom (toUint32 31999) := by decide
  cases fits with
  | inl empty => exact absurd empty (by decide)
  | inr fits => exact crowded fits.2

end KeenPbr

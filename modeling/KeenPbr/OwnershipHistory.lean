import KeenPbr.OwnershipLedger

/-! Whole runs of the ownership store: what is read was given, a claim keeps its identity and only grows,
and what a call reported as done outlives every later loss of power. -/
namespace KeenPbr.Ownership
open Tables Durable

section Reports
variable {digest : Digest} {acts : List Act} {w : World}

theorem stepReports (sound : Sound digest acts w) (step : Act) : (act digest w step).reports = w.reports ∨
    ∃ call answer, (act digest w step).reports = w.reports ++ [⟨call,answer⟩] ∧
      AnswerOk (acts ++ [step]) w (act digest w step) call answer := by
  have later := sound.mono [step]
  cases step with
  | makeDirectory =>
    rw [act]
    split
    · exact .inl rfl
    · exact .inl rfl
  | syncParent =>
    rw [act]
    split
    · exact .inl rfl
    · exact .inl rfl
  | begin call listing =>
    rw [act]
    split
    · exact .inl rfl
    · split
      · refine .inr ⟨call,call.failure,rfl,?_⟩
        cases call with
        | publish | replaceExact | removeExact | removeV4TombstoneExact | read => trivial
      · split
        · refine .inr ⟨call,call.nowhere,rfl,?_⟩
          cases call with
          | publish | replaceExact | removeExact | removeV4TombstoneExact | read => trivial
        · exact .inl rfl
  | advance input =>
    rw [act]
    split
    · exact .inl rfl
    · rename_i job running
      have ok := later.job job running
      have outcome : Outcome digest (acts ++ [.advance input]) w job.call (advance digest w job input) :=
        stageOutcome later ok.admissible ok.given ok.stage
      rcases outcome.reports with same | ⟨answer,more,says_⟩
      · exact .inl same
      · exact .inr ⟨job.call,answer,more,says_⟩
  | kill => exact .inl rfl
  | losePower => exact .inl rfl

theorem readsGiven (digest : Digest) (acts : List Act) {interface : Text} {record : Record}
    (reported : ⟨.read interface,.found (.valid record)⟩ ∈ (worldAfter digest acts).reports) :
    Given acts record ∧ record.interfaceName = interface := by
  induction acts using List.reverseRecOn with
  | nil => cases reported
  | append_singleton acts step ih =>
    rw [worldNext] at reported
    have earlier (old : ⟨.read interface,.found (.valid record)⟩ ∈ (worldAfter digest acts).reports) :
        Given (acts ++ [step]) record ∧ record.interfaceName = interface := by
      obtain ⟨given,name⟩ := ih old
      exact ⟨given.mono,name⟩
    rcases stepReports (worldSound digest acts) step with same | ⟨call,answer,more,ok⟩
    · rw [same] at reported
      exact earlier reported
    · rw [more] at reported
      rcases List.mem_append.mp reported with old | new
      · exact earlier old
      · cases List.mem_singleton.mp new
        exact ok.2

end Reports

section Stretches
variable {digest : Digest} {start later : List Act} {interface : Text}

def Stretch (digest : Digest) (start later : List Act) (interface : Text) (does : Option Text → Option Text → Prop) : Prop :=
  ∀ (before : List Act) (step : Act) (rest : List Act), later = before ++ step :: rest → step.isLoss = false →
    does ((worldAfter digest (start ++ before)).body interface) ((worldAfter digest (start ++ (before ++ [step]))).body interface)

theorem Stretch.init {does : Option Text → Option Text → Prop} {step : Act}
    (stretch : Stretch digest start (later ++ [step]) interface does) :
    Stretch digest start later interface does := by
  intro before other rest same powered
  exact stretch before other (rest ++ [step]) (by rw [same,List.append_assoc,List.cons_append]) powered

/- What holds of everything a claim may hold at a settled moment holds over a stretch, if its powered steps keep it. -/
theorem stretchKeeps (keeps : Option Text → Prop) {does : Option Text → Option Text → Prop}
    (step : ∀ before after, keeps before → does before after → (after = before ∨ ∃ call, Moves digest call before after) → keeps after)
    (kept : (worldAfter digest start).home = .kept) (settled : (worldAfter digest start).disk.unsynced = [])
    (first : keeps ((worldAfter digest start).body interface)) (stretch : Stretch digest start later interface does) :
    (worldAfter digest (start ++ later)).home = .kept ∧ ∀ body, (worldAfter digest (start ++ later)).MayHold interface body →
      keeps body := by
  induction later using List.reverseRecOn with
  | nil =>
    rw [List.append_nil]
    refine ⟨kept,fun body may => ?_⟩
    obtain ⟨file,possible,rfl⟩ := may
    rw [possibleSettled settled possible]
    exact first
  | append_singleton later act' ih =>
    obtain ⟨home,holds⟩ := ih stretch.init
    have sound := worldSound digest (start ++ later)
    have next : worldAfter digest (start ++ (later ++ [act'])) = act digest (worldAfter digest (start ++ later)) act' := by
      rw [← List.append_assoc]
      exact worldNext digest (start ++ later) act'
    rw [next]
    cases loss : act'.isLoss with
    | true =>
      obtain ⟨fewer,home'⟩ := lostStep sound home loss interface
      exact ⟨home',fun body may => holds body (fewer body may)⟩
    | false =>
      obtain ⟨more,moves,home'⟩ := poweredStep sound loss interface
      refine ⟨home' home,fun body may => ?_⟩
      rcases more body may with old | rfl
      · exact holds body old
      · have done := stretch later act' [] rfl loss
        rw [next] at done
        refine step _ _ (holds _ (mayHoldBody interface)) done ?_
        rcases moves with same | ⟨job,-,-,-,-,moved⟩
        · exact .inl same
        · exact .inr ⟨job.call,moved⟩

theorem stretchUnchanged (kept : (worldAfter digest start).home = .kept) (settled : (worldAfter digest start).disk.unsynced = [])
    (stretch : Stretch digest start later interface fun before after => after = before) :
    (worldAfter digest (start ++ later)).body interface = (worldAfter digest start).body interface := by
  refine (stretchKeeps (· = (worldAfter digest start).body interface) ?_ kept settled rfl stretch).2 _ (mayHoldBody interface)
  intro before after same does _
  exact does.trans same

theorem stretchGrows {record : Record} (valid : recordFieldsValid record = true) (kept : (worldAfter digest start).home = .kept)
    (settled : (worldAfter digest start).disk.unsynced = []) (first : (worldAfter digest start).body interface = some (recordText record))
    (stretch : Stretch digest start later interface fun before after => before.isSome → after.isSome) :
    ∃ now, (worldAfter digest (start ++ later)).body interface = some (recordText now) ∧ Grows record now := by
  have holds := stretchKeeps (fun body => ∃ now, recordFieldsValid now = true ∧ body = some (recordText now) ∧
    Grows record now) ?_ kept settled
    ⟨record,valid,first,Grows.refl record⟩ stretch
  · obtain ⟨now,-,same,grows⟩ := holds.2 _ (mayHoldBody interface)
    exact ⟨now,same,grows⟩
  · rintro before after ⟨now,nowValid,rfl,grows⟩ survives moved
    rcases moved with rfl | ⟨call,moves⟩
    · exact ⟨now,nowValid,rfl,grows⟩
    · cases moves' : after with
      | none =>
        rw [moves'] at survives
        cases survives rfl
      | some text' =>
        rw [moves'] at moves
        generalize seen : some (recordText now) = before at moves
        cases moves with
        | publish => cases seen
        | @replace expected replacement read same forward valid' =>
          have own : expected = now := by
            rw [← Option.some.inj seen] at read
            exact parseBack nowValid read
          subst own
          refine ⟨replacement,valid',rfl,grows.trans ⟨same,?_⟩⟩
          rcases forward with rfl | further
          · exact Nat.le_refl _
          · exact Nat.le_of_lt further

end Stretches

section Safety
variable {digest : Digest} {acts : List Act}

theorem tombstoneMoves {call : Call} {record : Record} {after : Option Text} (valid : recordFieldsValid record = true)
    (tombstone : record.lifecycle = .deletedSaveAcknowledgedUnverified) (changed : after ≠ some (recordText record))
    (moves : Moves digest call (some (recordText record)) after) :
    call = .removeV4TombstoneExact record.interfaceName (ndmsNativeOwnershipRevision digest record) ∧ after = none := by
  generalize seen : some (recordText record) = before at moves changed
  have own {other : Record} (same : some (recordText record) = some (recordText other)) (read : parse (recordText other) = some other) :
      other = record := by
    rw [← Option.some.inj same] at read
    exact parseBack valid read
  cases moves with
  | publish => cases seen
  | @replace expected replacement read same forward valid' =>
    cases own seen read
    rcases forward with rfl | further
    · exact absurd rfl changed
    · rw [tombstone] at further
      cases later : replacement.lifecycle <;> rw [later] at further <;> exact absurd further (by decide)
  | remove read active =>
    cases own seen read
    exact absurd tombstone active
  | forget read tombstone' =>
    cases own seen read
    exact ⟨rfl,rfl⟩

/- What the ledger promises after any run: `steps` and `tombstones` while the power stays, `done` over losses of power too, once the
store's directory is on the disk. -/
structure LedgerSafe (digest : Digest) (acts : List Act) : Prop where
  reads : ∀ (interface : Text) (record : Record), Report.mk (.read interface) (.found (.valid record)) ∈ (worldAfter digest acts).reports →
    Given acts record ∧ record.interfaceName = interface
  steps : ∀ step : Act, step.isLoss = false → ∀ interface : Text,
    (worldAfter digest (acts ++ [step])).body interface = (worldAfter digest acts).body interface ∨
      ∃ job, (worldAfter digest acts).active = some job ∧ job.call.interface = interface ∧
        Moves digest job.call ((worldAfter digest acts).body interface) ((worldAfter digest (acts ++ [step])).body interface)
  tombstones : ∀ step : Act, step.isLoss = false → ∀ (interface : Text) (record : Record), recordFieldsValid record = true →
    record.lifecycle = .deletedSaveAcknowledgedUnverified → (worldAfter digest acts).body interface = some (recordText record) →
    (worldAfter digest (acts ++ [step])).body interface ≠ some (recordText record) →
    ∃ job, (worldAfter digest acts).active = some job ∧
      job.call = .removeV4TombstoneExact interface (ndmsNativeOwnershipRevision digest record)
  done : ∀ (step : Act) (call : Call), (worldAfter digest (acts ++ [step])).reports = (worldAfter digest acts).reports ++
    [Report.mk call .done] →
    (worldAfter digest (acts ++ [step])).body call.interface = call.written.map recordText ∧
    ((worldAfter digest (acts ++ [step])).home = .kept → ∀ later : List Act,
      (∀ interface : Text, Stretch digest (acts ++ [step]) later interface (fun before after => after = before) →
        (worldAfter digest (acts ++ [step] ++ later)).body interface = (worldAfter digest (acts ++ [step])).body interface) ∧
      (∀ record, call.written = some record →
        Stretch digest (acts ++ [step]) later call.interface (fun before after => before.isSome → after.isSome) →
        ∃ now, (worldAfter digest (acts ++ [step] ++ later)).body call.interface = some (recordText now) ∧ Grows record now))

theorem ledgerDone (digest : Digest) (acts : List Act) {step : Act} {call : Call}
    (reported : (worldAfter digest (acts ++ [step])).reports = (worldAfter digest acts).reports ++ [⟨call,.done⟩]) :
    call.admissible = true ∧ (worldAfter digest (acts ++ [step])).disk.unsynced = [] ∧
      (worldAfter digest (acts ++ [step])).body call.interface = call.written.map recordText := by
  rw [worldNext] at reported ⊢
  rcases stepReports (worldSound digest acts) step with same | ⟨other,answer,more,ok⟩
  · rw [same] at reported
    exact absurd reported (by simp)
  · rw [more] at reported
    cases List.append_cancel_left reported
    exact ok

theorem ownershipLedger (digest : Digest) (acts : List Act) : LedgerSafe digest acts where
  reads := fun interface record reported => readsGiven digest acts reported
  steps := by
    intro step powered interface
    rw [worldNext]
    rcases (poweredStep (worldSound digest acts) powered interface).2.1 with same | ⟨job,-,-,running,own,moves⟩
    · exact .inl same
    · exact .inr ⟨job,running,own,moves⟩
  tombstones := by
    intro step powered interface record valid tombstone before changed
    rw [worldNext] at changed
    rcases (poweredStep (worldSound digest acts) powered interface).2.1 with same | ⟨job,-,-,running,own,moves⟩
    · exact absurd (same.trans before) changed
    · rw [before] at moves
      obtain ⟨forgets,-⟩ := tombstoneMoves valid tombstone changed moves
      refine ⟨job,running,?_⟩
      rw [forgets] at own ⊢
      rw [← own]
      rfl
  done := by
    intro step call reported
    obtain ⟨admissible,settled,body⟩ := ledgerDone digest acts reported
    refine ⟨body,fun kept later => ⟨fun interface stretch => stretchUnchanged kept settled stretch,fun record written stretch => ?_⟩⟩
    rw [written] at body
    exact stretchGrows (writtenValid admissible written) kept settled body stretch

end Safety

section Undone

def sampleClaim : Record where
  schemaVersion := 3
  interfaceName := text "Wireguard0"
  transactionId := List.replicate 32 'a'
  marker := text "kpbr-ni-v1-" ++ List.replicate 32 'a'
  kind := .wireguard
  snapshotRevision := text "ndms-native-import-v1-" ++ List.replicate 64 '0'
  targetFullRevision := text "ndms-rci-full-v1-" ++ List.replicate 64 '0'
  lifecycle := .activeRunningOnly
  lifecycleEvidence := none

def sampleTombstone : Record :=
  { sampleClaim with
    schemaVersion := 4
    lifecycle := .deletedSaveAcknowledgedUnverified
    lifecycleEvidence := some ⟨List.replicate 32 'b',⟨List.replicate 32 'c',1,1⟩,text "ndms-native-catalog-v1-" ++ List.replicate 64 '1',2,
      text "ndms-native-catalog-v1-" ++ List.replicate 64 '2',3,some (text "nwg0")⟩ }

def untilRename (call : Call) (listing : List Name) (sequence : Nat) : List Act :=
  Act.begin call listing :: List.replicate listing.length (Act.advance {}) ++
    [Act.advance {},.advance {},.advance { candidates := [(1,sequence)] },.advance {},.advance {}]

def readsClaim (listing : List Name) : List Act :=
  Act.begin (.read (text "Wireguard0")) listing :: List.replicate listing.length (Act.advance {}) ++ [Act.advance {},Act.advance {}]

/- A claim is published and its deletion renamed into place, but the directory sync fails; then the power goes. -/
def undoneRun : List Act :=
  [Act.makeDirectory,.syncParent] ++ untilRename (.publish sampleClaim) [] 0 ++ [Act.advance {},.advance {}] ++
    untilRename (.replaceExact sampleClaim sampleTombstone) [.claim (text "Wireguard0")] 1 ++ [Act.advance { fails := true }] ++
    readsClaim [.claim (text "Wireguard0")] ++ [Act.losePower [] true fun _ => []] ++ readsClaim [.claim (text "Wireguard0")]

def forgottenRun : List Act :=
  [Act.makeDirectory] ++ untilRename (.publish sampleClaim) [] 0 ++ [Act.advance {},.advance {},.losePower [] false fun _ => []] ++
    [Act.begin (.read (text "Wireguard0")) []]

/- A tombstone that was read disappears without any removal, and with it the claim's life goes back; and a publication that was
reported done is gone with the directory it was written to. -/
theorem lossUndoes :
    (worldAfter ⟨fun _ => []⟩ undoneRun).reports = [⟨.publish sampleClaim,.done⟩,⟨.replaceExact sampleClaim sampleTombstone,.refused⟩,
      ⟨.read (text "Wireguard0"),.found (.valid sampleTombstone)⟩,⟨.read (text "Wireguard0"),.found (.valid sampleClaim)⟩] ∧
    (worldAfter ⟨fun _ => []⟩ forgottenRun).reports = [⟨.publish sampleClaim,.done⟩,⟨.read (text "Wireguard0"),.found .absent⟩] := by
  constructor
  · decide +kernel
  · decide +kernel

end Undone

end KeenPbr.Ownership

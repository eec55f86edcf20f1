import KeenPbr.ComponentStore

/-! The promotion of a candidate under interruptions, and what a usable slot vouches for. -/
namespace KeenPbr.ComponentStore
open FileSteps

section Phases

structure Package where
  part : FilePart → Text

def Full (slot : IpkSlot) (package : Package) (store : Store) : Prop := ∀ part, store (slot,part) = some (.file (package.part part))

variable (new old : Package)

/- What is known of the slots: the candidate and the current package before the first move commits, the
previous package after it, the current one after the second. -/
def beforeMoves : Facts File Text
  | (.candidate,part) => some (some (.file (new.part part)))
  | (.current,part) => some (some (.file (old.part part)))
  | (.previous,_) => none

def betweenMoves : Facts File Text
  | (.candidate,part) => some (some (.file (new.part part)))
  | (.previous,part) => some (some (.file (old.part part)))
  | (.current,.manifest) => some none
  | (.current,_) => none

def afterMoves : Facts File Text
  | (.current,part) => some (some (.file (new.part part)))
  | (.previous,part) => some (some (.file (old.part part)))
  | (.candidate,.manifest) => some none
  | (.candidate,_) => none

def Promoting (store : Store) : Prop := Holds (beforeMoves new old) store ∨ Holds (betweenMoves new old) store ∨
    Holds (afterMoves new old) store

variable {new old} {store last : Store}

theorem promotingBefore {facts : Facts File Text} (weaker : ∀ name, beforeMoves new old name = none ∨ beforeMoves new old name = facts name)
    (files : Store) (holds : Holds facts files) : Promoting new old files := .inl (holdsWeaker weaker holds)

theorem promotingBetween {facts : Facts File Text} (weaker : ∀ name, betweenMoves new old name = none ∨
    betweenMoves new old name = facts name)
    (files : Store) (holds : Holds facts files) : Promoting new old files := .inr (.inl (holdsWeaker weaker holds))

theorem promotingAfter {facts : Facts File Text} (weaker : ∀ name, afterMoves new old name = none ∨ afterMoves new old name = facts name)
    (files : Store) (holds : Holds facts files) : Promoting new old files := .inr (.inr (holdsWeaker weaker holds))

theorem firstMove (stops : Stops (moveSlot .current .previous) store last) (start : Holds (beforeMoves new old) store) :
    Promoting new old last := by
  have outline : Outline (Promoting new old) (beforeMoves new old) (moveSlot .current .previous) := by
    simp only [moveSlot,Outline]
    refine ⟨promotingBefore ?_,promotingBefore ?_,promotingBefore ?_,promotingBefore ?_,promotingBefore ?_,promotingBefore ?_,
      promotingBefore ?_,
      promotingBefore ?_,promotingBetween ?_,promotingBetween ?_,promotingBetween ?_,promotingBetween ?_,promotingBetween ?_⟩
    all_goals
      rintro ⟨slot,part⟩
      cases slot <;> cases part <;> first | exact .inl rfl | exact .inr rfl
  exact outlineStops outline stops start

theorem secondMove (stops : Stops (moveSlot .candidate .current) store last) (start : Holds (betweenMoves new old) store) :
    Promoting new old last := by
  have outline : Outline (Promoting new old) (betweenMoves new old) (moveSlot .candidate .current) := by
    simp only [moveSlot,Outline]
    refine ⟨promotingBetween ?_,promotingBetween ?_,promotingBetween ?_,promotingBetween ?_,promotingBetween ?_,promotingBetween ?_,
      promotingBetween ?_,promotingBetween ?_,promotingAfter ?_,promotingAfter ?_,promotingAfter ?_,promotingAfter ?_,promotingAfter ?_⟩
    all_goals
      rintro ⟨slot,part⟩
      cases slot <;> cases part <;> first | exact .inl rfl | exact .inr rfl
  exact outlineStops outline stops start

theorem leftoversDiscarded (stops : Stops (discard .current) store last) (start : Holds (betweenMoves new old) store) :
    Promoting new old last := by
  have outline : Outline (Promoting new old) (betweenMoves new old) (discard .current) := by
    simp only [discard,Outline]
    refine ⟨promotingBetween ?_,promotingBetween ?_,promotingBetween ?_,promotingBetween ?_,promotingBetween ?_,promotingBetween ?_⟩
    all_goals
      rintro ⟨slot,part⟩
      cases slot <;> cases part <;> first | exact .inl rfl | exact .inr rfl
  exact outlineStops outline stops start

theorem endsKnown {program : List (Step File Text)} {facts weak : Facts File Text} (ends : Ends program store last)
    (start : Holds facts store)
    (weaker : ∀ slot part, weak (slot,part) = none ∨ weak (slot,part) = program.foldl after facts (slot,part)) : Holds weak last :=
  holdsWeaker (fun ⟨slot,part⟩ => weaker slot part) (holdsEnd ends start)

theorem firstMoved (ends : Ends (moveSlot .current .previous) store last) (start : Holds (beforeMoves new old) store) :
    Holds (betweenMoves new old) last := by
  refine endsKnown ends start fun slot part => ?_
  cases slot <;> cases part <;> first | exact .inl rfl | exact .inr rfl

theorem secondMoved (ends : Ends (moveSlot .candidate .current) store last) (start : Holds (betweenMoves new old) store) :
    Holds (afterMoves new old) last := by
  refine endsKnown ends start fun slot part => ?_
  cases slot <;> cases part <;> first | exact .inl rfl | exact .inr rfl

theorem discarded (ends : Ends (discard .current) store last) (start : Holds (betweenMoves new old) store) :
    Holds (betweenMoves new old) last := by
  refine endsKnown ends start fun slot part => ?_
  cases slot <;> cases part <;> first | exact .inl rfl | exact .inr rfl

end Phases

section Runs
variable {lib : Library} {package : String} {store last : Store}

/- The slot is usable with these bytes. -/
structure UsableAs (lib : Library) (package : String) (store : Store) (slot : IpkSlot) (retained : RetainedIpk) (bytes : Text) : Prop where
  state : inspect lib package store slot = { state := .usable, retained := some retained }
  bytes : store (slot,.ipk) = some (.file bytes)

theorem regularFile {node : Option (Node Text)} {content : Text} (read : regularNonemptyFile node = some content) :
    node = some (.file content) := by
  unfold regularNonemptyFile at read
  split at read
  · split at read
    · cases read
    · cases read
      rfl
  · cases read

theorem inspectUsable {slot : IpkSlot} (usable : (inspect lib package store slot).state = .usable) :
    ∃ retained bytes, UsableAs lib package store slot retained bytes ∧ readManifest lib package (store (slot,.manifest)) = .ok retained ∧
      lib.sha256 bytes = retained.sha256 ∧ readStrictSingleLine (store (slot,.sidecar)) = some retained.sha256 := by
  cases shape : inspect lib package store slot with
  | mk state kept detail =>
    rw [shape] at usable
    dsimp only at usable
    subst usable
    have read := shape
    unfold inspect at read
    split at read
    · cases read
    · split at read
      · cases read
      · rename_i retained manifest
        split at read
        · cases read
        · rename_i bytes regular
          split at read
          · cases read
          · split at read
            · cases read
            · rename_i digest
              split at read
              · cases read
              · rename_i sidecar
                cases read
                exact ⟨retained,bytes,⟨shape,regularFile regular⟩,manifest,not_not.mp digest,not_not.mp sidecar⟩

theorem usableFull {slot : IpkSlot} (usable : (inspect lib package store slot).state = .usable) : ∃ package, Full slot package store := by
  obtain ⟨retained,bytes,own,manifest,_,sidecar⟩ := inspectUsable usable
  have manifestFile : ∃ content, store (slot,.manifest) = some (.file content) := by
    unfold readManifest at manifest
    split at manifest
    · cases manifest
    · rename_i body regular
      exact ⟨body,regularFile regular⟩
  have sidecarFile : ∃ content, store (slot,.sidecar) = some (.file content) := by
    unfold readStrictSingleLine at sidecar
    split at sidecar
    · rename_i value line
      obtain ⟨content,regular,_⟩ := Option.map_eq_some_iff.mp line
      exact ⟨content,regularFile regular⟩
    · cases sidecar
  obtain ⟨manifestText,manifestHeld⟩ := manifestFile
  obtain ⟨sidecarText,sidecarHeld⟩ := sidecarFile
  refine ⟨⟨fun | .manifest => manifestText | .ipk => bytes | .sidecar => sidecarText⟩,fun part => ?_⟩
  cases part with
  | manifest => exact manifestHeld
  | ipk => exact own.bytes
  | sidecar => exact sidecarHeld

theorem usableMoved {slot target : IpkSlot} {content : Package} {retained : RetainedIpk} {bytes : Text}
    (usable : UsableAs lib package store slot retained bytes) (here : Full slot content store) (there : Full target content last) :
    UsableAs lib package last target retained bytes := by
  have same (part : FilePart) : last (target,part) = store (slot,part) := (there part).trans (here part).symm
  refine ⟨?_,(same .ipk).trans usable.bytes⟩
  rw [← usable.state]
  unfold inspect
  rw [same,same,same]

/- Runs of the promotion one after another, each interrupted somewhere or complete; one may be started by
finish_interrupted_promotion for a version the old package does not have. -/
inductive Attempts (lib : Library) (package : String) (oldVersion : String) (store : Store) : Store → Prop where
  | rest : Attempts lib package oldVersion store store
  | promote {before last : Store} {program : List (Step File Text)} (earlier : Attempts lib package oldVersion store before)
      (planned : promoteCandidate lib package before = .ok program) (stops : Stops program before last) :
        Attempts lib package oldVersion store last
  | finish {before last : Store} {installedVersion : String} (earlier : Attempts lib package oldVersion store before)
      (apart : installedVersion ≠ oldVersion) (stops : Stops (finishInterruptedPromotion lib package before installedVersion) before last) :
      Attempts lib package oldVersion store last

variable {new old : Package} {newIpk oldIpk : RetainedIpk} {newBytes oldBytes : Text}

structure Started (lib : Library) (package : String) (store : Store) (newIpk oldIpk : RetainedIpk) (newBytes oldBytes : Text)
    (new old : Package) : Prop where
  candidate : UsableAs lib package store .candidate newIpk newBytes
  current : UsableAs lib package store .current oldIpk oldBytes
  candidateFiles : Full .candidate new store
  currentFiles : Full .current old store

theorem emptySlot {slot : IpkSlot} (none_there : store (slot,.manifest) = none) : (inspect lib package store slot).state = .absent := by
  unfold inspect
  rw [if_pos none_there]

theorem promotionPlanned (started : Started lib package store newIpk oldIpk newBytes oldBytes new old) {program : List (Step File Text)}
    (planned : promoteCandidate lib package last = .ok program) (promoting : Promoting new old last) :
    (Holds (beforeMoves new old) last ∧ program = moveSlot .current .previous ++ moveSlot .candidate .current) ∨
    (Holds (betweenMoves new old) last ∧ program = discard .current ++ moveSlot .candidate .current) := by
  unfold promoteCandidate at planned
  dsimp only at planned
  split at planned
  · cases planned
  · rename_i usable
    rw [not_not] at usable
    rcases promoting with before | between | finished
    · have current : (inspect lib package last .current).state = .usable := by
        rw [(usableMoved started.current started.currentFiles (fun part => before (.current,part) _ rfl)).state]
      rw [if_pos current] at planned
      cases planned
      exact .inl ⟨before,rfl⟩
    · have current : (inspect lib package last .current).state ≠ .usable := by
        rw [emptySlot (between (.current,.manifest) _ rfl)]
        exact fun same => by cases same
      rw [if_neg current] at planned
      cases planned
      exact .inr ⟨between,rfl⟩
    · rw [emptySlot (finished (.candidate,.manifest) _ rfl)] at usable
      cases usable

theorem promotionKept (started : Started lib package store newIpk oldIpk newBytes oldBytes new old) {program : List (Step File Text)}
    {before : Store} (planned : promoteCandidate lib package before = .ok program) (promoting : Promoting new old before) :
    (∀ last, Stops program before last → Promoting new old last) ∧ ∀ last, Ends program before last → Holds (afterMoves new old) last := by
  rcases promotionPlanned started planned promoting with ⟨held,rfl⟩ | ⟨held,rfl⟩
  · refine ⟨fun last stops => ?_,fun last ends => ?_⟩
    · rcases stopsAppend stops with inside | ⟨middle,ends,beyond⟩
      · exact firstMove inside held
      · exact secondMove beyond (firstMoved ends held)
    · obtain ⟨middle,first,second⟩ := endsAppend ends
      exact secondMoved second (firstMoved first held)
  · refine ⟨fun last stops => ?_,fun last ends => ?_⟩
    · rcases stopsAppend stops with inside | ⟨middle,ends,beyond⟩
      · exact leftoversDiscarded inside held
      · exact secondMove beyond (discarded ends held)
    · obtain ⟨middle,first,second⟩ := endsAppend ends
      exact secondMoved second (discarded first held)

theorem finishPlanned (started : Started lib package store newIpk oldIpk newBytes oldBytes new old) {before : Store}
    {installedVersion : String}
    (apart : installedVersion ≠ oldIpk.version) (promoting : Promoting new old before) :
    finishInterruptedPromotion lib package before installedVersion = [] ∨
      promoteCandidate lib package before = .ok (finishInterruptedPromotion lib package before installedVersion) := by
  unfold finishInterruptedPromotion
  dsimp only
  split
  · exact .inl rfl
  · split
    · exact .inl rfl
    · rename_i candidate
      rw [not_or,not_not] at candidate
      split
      · rename_i both
        rcases promoting with held | between | finished
        · have current := (usableMoved started.current started.currentFiles (fun part => held (.current,part) _ rfl)).state
          rw [current] at both
          exact absurd (Option.some.inj both.2).symm apart
        · rw [emptySlot (between (.current,.manifest) _ rfl)] at both
          cases both.1
        · rw [emptySlot (finished (.candidate,.manifest) _ rfl)] at candidate
          cases candidate.1
      · cases planned : promoteCandidate lib package before with
        | error detail => exact .inl rfl
        | ok program => exact .inr rfl

theorem stopsNothing {before : Store} (stops : Stops [] before last) : last = before := by
  cases stops
  rfl

theorem attemptsKept (started : Started lib package store newIpk oldIpk newBytes oldBytes new old)
    (attempts : Attempts lib package oldIpk.version store last) : Promoting new old last := by
  induction attempts with
  | rest =>
    refine .inl ?_
    rintro ⟨slot,part⟩ node told
    cases slot with
    | candidate =>
      cases told
      exact started.candidateFiles part
    | current =>
      cases told
      exact started.currentFiles part
    | previous => cases told
  | promote earlier planned stops ih => exact (promotionKept started planned ih).1 _ stops
  | finish earlier apart stops ih =>
    rcases finishPlanned started apart ih with idle | planned
    · rw [idle] at stops
      rw [stopsNothing stops]
      exact ih
    · exact (promotionKept started planned ih).1 _ stops

end Runs

section Provenance
variable {lib : Library} {package : String}

/- The store with what was ever adopted into it. -/
structure World where
  store : Store := fun _ => none
  adopted : List (Text × FeedPackageEntry) := []

/- Every run of the store's operations from an empty one, each interrupted somewhere or complete. -/
inductive Reached (lib : Library) (package : String) : World → Prop where
  | empty : Reached lib package {}
  | adopt {w : World} {slot : IpkSlot} {bytes : Text} {entry : FeedPackageEntry} {now : Int} {program : List (Step File Text)}
    {last : Store}
      (earlier : Reached lib package w) (planned : adopt lib package slot bytes entry now = .ok program)
        (stops : Stops program w.store last) :
      Reached lib package ⟨last,(bytes,entry) :: w.adopted⟩
  | promote {w : World} {program : List (Step File Text)} {last : Store} (earlier : Reached lib package w)
      (planned : promoteCandidate lib package w.store = .ok program) (stops : Stops program w.store last) :
        Reached lib package { w with store := last }
  | discard {w : World} {slot : IpkSlot} {last : Store} (earlier : Reached lib package w) (stops : Stops (discard slot) w.store last) :
      Reached lib package { w with store := last }
  | finish {w : World} {installedVersion : String} {last : Store} (earlier : Reached lib package w)
      (stops : Stops (finishInterruptedPromotion lib package w.store installedVersion) w.store last) :
        Reached lib package { w with store := last }

structure Adopted (lib : Library) (package : String) (adopted : List (Text × FeedPackageEntry)) (store : Store) : Prop where
  manifests : ∀ slot content, store (slot,.manifest) = some (.file content) → ∃ bytes entry now, (bytes,entry) ∈ adopted ∧
    content = lib.dump (adoptedManifest lib package bytes entry) now ++ ['\n']
  bytes : ∀ slot content, store (slot,.ipk) = some (.file content) → ∃ entry, (content,entry) ∈ adopted

def movesParts : Step File Text → Bool
  | .link source target => source.2 == target.2
  | .rename source target => source.2 == target.2
  | .write _ _ => false
  | _ => true

variable {adopted : List (Text × FeedPackageEntry)} {store next : Store}

theorem removedAdopted {name : File} (known : Adopted lib package adopted store) : Adopted lib package adopted (place store name none) where
  manifests slot content held := by
    unfold place at held
    split at held
    · cases held
    · exact known.manifests slot content held
  bytes slot content held := by
    unfold place at held
    split at held
    · cases held
    · exact known.bytes slot content held

theorem copiedAdopted {source target : File} (part : source.2 = target.2) (known : Adopted lib package adopted store) {node : Node Text}
    (found : store source = some node) {base : Store} (kept : Adopted lib package adopted base) :
    Adopted lib package adopted (place base target (some node)) where
  manifests slot content held := by
    unfold place at held
    split at held
    · rename_i same
      refine known.manifests source.1 content ?_
      have shape : source = (source.1,FilePart.manifest) := by rw [← show target.2 = FilePart.manifest from same ▸ rfl,← part]
      rw [← shape,found]
      exact held
    · exact kept.manifests slot content held
  bytes slot content held := by
    unfold place at held
    split at held
    · rename_i same
      refine known.bytes source.1 content ?_
      have shape : source = (source.1,FilePart.ipk) := by rw [← show target.2 = FilePart.ipk from same ▸ rfl,← part]
      rw [← shape,found]
      exact held
    · exact kept.bytes slot content held

theorem stepAdopted {step : Step File Text} (moves : movesParts step = true) (does : Does step store next)
    (known : Adopted lib package adopted store) : Adopted lib package adopted next := by
  cases step with
  | remove name =>
    rcases does with rfl | rfl
    · exact known
    · exact removedAdopted known
  | link source target =>
    obtain ⟨node,found,_,_,rfl⟩ := does
    exact copiedAdopted (beq_iff_eq.mp moves) known found known
  | rename source target =>
    obtain ⟨node,found,_,_,rfl⟩ := does
    exact copiedAdopted (beq_iff_eq.mp moves) known found (removedAdopted known)
  | write name content => cases moves
  | sync =>
    cases does
    exact known

theorem moveStops {program : List (Step File Text)} (moves : program.all movesParts = true) (stops : Stops program store next)
    (known : Adopted lib package adopted store) : Adopted lib package adopted next :=
  stops.keeps (fun step mem _ _ does held => stepAdopted (List.all_eq_true.mp moves step mem) does held) known

theorem writtenAdopted {slot : IpkSlot} {part : FilePart} {content : Text} (does : Does (.write (slot,part) content) store next)
    (manifest : part = .manifest → ∃ bytes entry now, (bytes,entry) ∈ adopted ∧
      content = lib.dump (adoptedManifest lib package bytes entry) now ++ ['\n'])
    (bytes : part = .ipk → ∃ entry, (content,entry) ∈ adopted) (known : Adopted lib package adopted store) :
    Adopted lib package adopted next := by
  obtain ⟨_,rfl⟩ := does
  refine ⟨fun other text held => ?_,fun other text held => ?_⟩
  · unfold place at held
    split at held
    · rename_i same
      cases held
      exact manifest (Prod.mk.inj same).2.symm
    · exact known.manifests other text held
  · unfold place at held
    split at held
    · rename_i same
      cases held
      exact bytes (Prod.mk.inj same).2.symm
    · exact known.bytes other text held

theorem adoptStops {slot : IpkSlot} {bytes : Text} {entry : FeedPackageEntry} {now : Int} {program : List (Step File Text)}
    (planned : adopt lib package slot bytes entry now = .ok program) (stops : Stops program store next) (mem : (bytes,entry) ∈ adopted)
    (known : Adopted lib package adopted store) : Adopted lib package adopted next := by
  unfold adopt at planned
  split at planned
  · cases planned
  · split at planned
    · cases planned
    · split at planned
      · cases planned
      · split at planned
        · cases planned
        · cases planned
          refine stops.keeps (fun step listed files after does held => ?_) known
          simp only [List.mem_cons,List.not_mem_nil,or_false] at listed
          rcases listed with rfl | rfl | rfl | rfl | rfl
          · exact stepAdopted rfl does held
          · exact stepAdopted rfl does held
          · exact writtenAdopted does (fun other => by cases other) (fun _ => ⟨entry,mem⟩) held
          · exact writtenAdopted does (fun other => by cases other) (fun other => by cases other) held
          · exact writtenAdopted does (fun _ => ⟨bytes,entry,now,mem,rfl⟩) (fun other => by cases other) held

theorem promoteMoves {program : List (Step File Text)} (planned : promoteCandidate lib package store = .ok program) :
    program.all movesParts = true := by
  unfold promoteCandidate at planned
  dsimp only at planned
  split at planned
  · cases planned
  · split at planned <;> cases planned <;> rfl

theorem finishMoves (installedVersion : String) :
    (finishInterruptedPromotion lib package store installedVersion).all movesParts = true := by
  unfold finishInterruptedPromotion
  dsimp only
  split
  · rfl
  · split
    · rfl
    · split
      · rfl
      · cases planned : promoteCandidate lib package store with
        | error detail => rfl
        | ok program => exact promoteMoves planned

theorem reachedAdopted {w : World} (reached : Reached lib package w) : Adopted lib package w.adopted w.store := by
  induction reached with
  | empty => exact ⟨(fun _ _ held => by cases held),fun _ _ held => by cases held⟩
  | @adopt w slot bytes entry now program last earlier planned stops ih =>
    have more : Adopted lib package ((bytes,entry) :: w.adopted) w.store := by
      refine ⟨fun slot content held => ?_,fun slot content held => ?_⟩
      · obtain ⟨old,oldEntry,time,mem,same⟩ := ih.manifests slot content held
        exact ⟨old,oldEntry,time,List.mem_cons_of_mem _ mem,same⟩
      · obtain ⟨oldEntry,mem⟩ := ih.bytes slot content held
        exact ⟨oldEntry,List.mem_cons_of_mem _ mem⟩
    exact adoptStops planned stops List.mem_cons_self more
  | promote earlier planned stops ih => exact moveStops (promoteMoves planned) stops ih
  | @discard w slot last earlier stops ih =>
    exact moveStops (show (discard slot).all movesParts = true from rfl) stops ih
  | finish earlier stops ih => exact moveStops (finishMoves _) stops ih

/- No two of the byte strings have one digest. -/
def NoCollisions (lib : Library) (adopted : List (Text × FeedPackageEntry)) : Prop :=
  ∀ a ∈ adopted, ∀ b ∈ adopted, lib.sha256 a.1 = lib.sha256 b.1 → a.1 = b.1

/- The JSON library reads the manifests it wrote. -/
def ReadsBack (lib : Library) (package : String) (adopted : List (Text × FeedPackageEntry)) : Prop :=
  ∀ a ∈ adopted, ∀ now, lib.parse (lib.dump (adoptedManifest lib package a.1 a.2) now ++ ['\n']) = .object
    (adoptedManifest lib package a.1 a.2)

theorem usableAdopted {w : World} (reads : ReadsBack lib package w.adopted) (reached : Reached lib package w)
    (free : NoCollisions lib w.adopted)
    {slot : IpkSlot}
    {retained : RetainedIpk} {bytes : Text} (usable : UsableAs lib package w.store slot retained bytes) :
    ∃ entry, (bytes,entry) ∈ w.adopted ∧ entry.version = retained.version := by
  obtain ⟨own,content,again,manifest,digest,_⟩ :=
    inspectUsable (show (inspect lib package w.store slot).state = .usable by rw [usable.state])
  have sameRetained : own = retained := by
    have states := again.state.symm.trans usable.state
    cases states
    rfl
  have sameBytes : content = bytes := by
    have files := again.bytes.symm.trans usable.bytes
    cases files
    rfl
  subst sameRetained sameBytes
  have known := reachedAdopted reached
  unfold readManifest at manifest
  split at manifest
  · cases manifest
  · rename_i body regular
    obtain ⟨original,entry,now,mem,text⟩ := known.manifests slot body (regularFile regular)
    rw [text,reads (original,entry) mem] at manifest
    split at manifest
    · cases manifest
    · dsimp only at manifest
      split at manifest
      · cases manifest
      · split at manifest
        · cases manifest
        · cases manifest
          obtain ⟨other,otherMem⟩ := known.bytes slot content again.bytes
          have same := free _ otherMem _ mem digest
          dsimp only at same
          subst same
          exact ⟨entry,mem,rfl⟩

/- Whatever interrupts the runs of a promotion, the new package is usable as candidate or current and the old one as current or
previous; a run that completes leaves the new one current and the old one previous; and a usable slot pairs a version with the bytes
adopted under it. -/
theorem promotionSurvives (lib : Library) (package : String) :
    (∀ store newIpk oldIpk newBytes oldBytes, UsableAs lib package store .candidate newIpk newBytes →
      UsableAs lib package store .current oldIpk oldBytes → ∀ last, Attempts lib package oldIpk.version store last →
        (UsableAs lib package last .candidate newIpk newBytes ∨ UsableAs lib package last .current newIpk newBytes) ∧
        (UsableAs lib package last .current oldIpk oldBytes ∨ UsableAs lib package last .previous oldIpk oldBytes) ∧
        ∀ program final, promoteCandidate lib package last = .ok program → Ends program last final →
          UsableAs lib package final .current newIpk newBytes ∧ UsableAs lib package final .previous oldIpk oldBytes) ∧
    (∀ w, Reached lib package w → NoCollisions lib w.adopted → ReadsBack lib package w.adopted →
      ∀ slot retained bytes, UsableAs lib package w.store slot retained bytes →
      ∃ entry, (bytes,entry) ∈ w.adopted ∧ entry.version = retained.version) := by
  refine ⟨fun store newIpk oldIpk newBytes oldBytes candidate current last attempts => ?_,
    fun w reached free reads slot retained bytes usable => usableAdopted reads reached free usable⟩
  obtain ⟨new,newFiles⟩ := usableFull (show (inspect lib package store .candidate).state = .usable by rw [candidate.state])
  obtain ⟨old,oldFiles⟩ := usableFull (show (inspect lib package store .current).state = .usable by rw [current.state])
  have started : Started lib package store newIpk oldIpk newBytes oldBytes new old := ⟨candidate,current,newFiles,oldFiles⟩
  have newAt {last : Store} {slot : IpkSlot} (files : Full slot new last) : UsableAs lib package last slot newIpk newBytes :=
    usableMoved candidate newFiles files
  have oldAt {last : Store} {slot : IpkSlot} (files : Full slot old last) : UsableAs lib package last slot oldIpk oldBytes :=
    usableMoved current oldFiles files
  have promoting := attemptsKept started attempts
  refine ⟨?_,?_,fun program final planned ends => ?_⟩
  · rcases promoting with before | between | finished
    · exact .inl (newAt fun part => before (.candidate,part) _ rfl)
    · exact .inl (newAt fun part => between (.candidate,part) _ rfl)
    · exact .inr (newAt fun part => finished (.current,part) _ rfl)
  · rcases promoting with before | between | finished
    · exact .inl (oldAt fun part => before (.current,part) _ rfl)
    · exact .inr (oldAt fun part => between (.previous,part) _ rfl)
    · exact .inr (oldAt fun part => finished (.previous,part) _ rfl)
  · have moved := (promotionKept started planned promoting).2 final ends
    exact ⟨newAt fun part => moved (.current,part) _ rfl,oldAt fun part => moved (.previous,part) _ rfl⟩

end Provenance

section Samples

def oldEntry : FeedPackageEntry :=
  { package := "nfqws2-keenetic", version := "1.0", filename := "a.ipk", size := 1
    sha256 := text "6b86b273ff34fce19d6b804eff5a3f5747ada4eaa22f1d49c01e52ddb7875b4b" }

def newEntry : FeedPackageEntry :=
  { package := "nfqws2-keenetic", version := "1.1", filename := "b.ipk", size := 1
    sha256 := text "d4735e3a265e16eee03f59718b9b5d03019c07d8b6c51f90da3a666eec13ab35" }

def manifestHead (filename : String) : Text := text "\x7b\n  \"filename\": \"" ++ text filename

def manifestTail (fields : Manifest) (now : Int) : Text :=
  text "\",\n  \"package\": \"" ++ text fields.package ++ text "\",\n  \"retained_at\": " ++ text (toString now) ++
    text ",\n  \"sha256\": \"" ++
    fields.sha256 ++ text "\",\n  \"size\": " ++ text (toString fields.size) ++ text ",\n  \"version\": \"" ++
      text fields.version ++ text "\"\n\x7d"

def entryManifest (entry : FeedPackageEntry) : Manifest :=
  { package := entry.package, version := entry.version, filename := entry.filename, size := entry.size, sha256 := entry.sha256 }

def upgradeLibrary : Library where
  sha256 bytes := if bytes = text "1" then oldEntry.sha256 else if bytes = text "2" then newEntry.sha256 else []
  parse body :=
    if (manifestHead "a.ipk").isPrefixOf body then .object (entryManifest oldEntry)
    else if (manifestHead "b.ipk").isPrefixOf body then .object (entryManifest newEntry)
    else .notJson
  dump fields now := manifestHead fields.filename ++ manifestTail fields now

def slotFiles (store : Store) (slot : IpkSlot) (bytes : Text) (entry : FeedPackageEntry) : Store :=
  place (place (place (place store (slot,.manifest) none) (slot,.ipk) (some (.file bytes))) (slot,.sidecar)
    (some (.file (entry.sha256 ++ ['\n']))))
    (slot,.manifest) (some (.file (upgradeLibrary.dump (entryManifest entry) 0 ++ ['\n'])))

def oldStore : Store := slotFiles (fun _ => none) .current (text "1") oldEntry

def upgradeWorld : World := ⟨slotFiles oldStore .candidate (text "2") newEntry,[(text "2",newEntry),(text "1",oldEntry)]⟩

def adoptProgram (slot : IpkSlot) (bytes : Text) (entry : FeedPackageEntry) : List (Step File Text) :=
  [.remove (slot,.manifest),.sync,.write (slot,.ipk) bytes,.write (slot,.sidecar) (entry.sha256 ++ ['\n']),
    .write (slot,.manifest) (upgradeLibrary.dump (entryManifest entry) 0 ++ ['\n'])]

theorem upgradeReached : Reached upgradeLibrary "nfqws2-keenetic" upgradeWorld := by
  have first : adopt upgradeLibrary "nfqws2-keenetic" .current (text "1") oldEntry 0 = .ok
    (adoptProgram .current (text "1") oldEntry) := by decide +kernel
  have second : adopt upgradeLibrary "nfqws2-keenetic" .candidate (text "2") newEntry 0 = .ok
    (adoptProgram .candidate (text "2") newEntry) := by
    decide +kernel
  have installed : Reached upgradeLibrary "nfqws2-keenetic" ⟨oldStore,[(text "1",oldEntry)]⟩ :=
    .adopt .empty first (.later (.inr rfl) (.later rfl (.later ⟨by decide,rfl⟩ (.later ⟨by decide,rfl⟩ (.later ⟨by decide,rfl⟩ .here)))))
  exact .adopt installed second
    (.later (.inr rfl) (.later rfl (.later ⟨by decide,rfl⟩ (.later ⟨by decide,rfl⟩ (.later ⟨by decide,rfl⟩ .here)))))

theorem upgradeReads : ReadsBack upgradeLibrary "nfqws2-keenetic" upgradeWorld.adopted := by
  intro a mem now
  have adopted : a = (text "2",newEntry) ∨ a = (text "1",oldEntry) := by simpa [upgradeWorld] using mem
  rcases adopted with rfl | rfl <;> rfl

/- The first move has committed when the run stops. -/
theorem upgradeSurvives : (∃ last, Attempts upgradeLibrary "nfqws2-keenetic" "1.0" upgradeWorld.store last ∧
    last (.current,.manifest) = none ∧
      (UsableAs upgradeLibrary "nfqws2-keenetic" last .current ⟨"1.0",oldEntry.sha256,1,"a.ipk"⟩ (text "1") ∨
        UsableAs upgradeLibrary "nfqws2-keenetic" last .previous ⟨"1.0",oldEntry.sha256,1,"a.ipk"⟩ (text "1"))) ∧
    ∃ entry, (text "2",entry) ∈ upgradeWorld.adopted ∧ entry.version = "1.1" := by
  have candidate : UsableAs upgradeLibrary "nfqws2-keenetic" upgradeWorld.store .candidate ⟨"1.1",newEntry.sha256,1,"b.ipk"⟩ (text "2") :=
    ⟨by decide +kernel,rfl⟩
  have current : UsableAs upgradeLibrary "nfqws2-keenetic" upgradeWorld.store .current ⟨"1.0",oldEntry.sha256,1,"a.ipk"⟩ (text "1") :=
    ⟨by decide +kernel,rfl⟩
  have planned : promoteCandidate upgradeLibrary "nfqws2-keenetic" upgradeWorld.store =
      .ok (moveSlot .current .previous ++ moveSlot .candidate .current) := by decide +kernel
  have attempts : Attempts upgradeLibrary "nfqws2-keenetic" "1.0" upgradeWorld.store _ :=
    .promote .rest planned (.later (.inr rfl) (.later rfl (.later (.inr rfl) (.later ⟨_,rfl,by decide,rfl,rfl⟩ (.later (.inr rfl)
      (.later ⟨_,rfl,by decide,rfl,rfl⟩ (.later rfl (.later ⟨_,rfl,by decide,by decide,rfl⟩ .here))))))))
  have free : NoCollisions upgradeLibrary upgradeWorld.adopted := by
    unfold NoCollisions
    decide
  have theorems := promotionSurvives upgradeLibrary "nfqws2-keenetic"
  exact ⟨⟨_,attempts,rfl,(theorems.1 _ _ _ _ _ candidate current _ attempts).2.1⟩,
    theorems.2 upgradeWorld upgradeReached free upgradeReads .candidate _ _ candidate⟩

end Samples

end KeenPbr.ComponentStore

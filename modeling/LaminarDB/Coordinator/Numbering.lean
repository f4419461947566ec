import LaminarDB.Coordinator.Checksum
import LaminarDB.Coordinator.RecoveryChoice

/-!
# Checkpoint numbers

The coordinator takes its numbers from the checkpoint it finds at the start, and advances them only
after all sinks have committed.
-/

namespace LaminarDB.Coordinator

open Library RecoveryManager
open Storage
open Checkpoint (SinkCommitStatus)

variable {Store : Type} (methods : StoreMethods Store)

def CheckpointCoordinator.new (store : Store) : CheckpointCoordinator Store :=
  match (methods.reads store).loadLatest with
  | .ok (some manifest) => ⟨manifest.checkpointId + 1, manifest.epoch + 1, store, []⟩
  | _ => ⟨1, 1, store, []⟩

variable (sha256Hex : Bytes → String)

def CheckpointCoordinator.recover (methods : StoreMethods Store)
    (sinks : List RegisteredSink) (coordinator : CheckpointCoordinator Store) :
    CheckpointCoordinator Store :=
  match (RecoveryManager.new sha256Hex (methods.reads coordinator.store) [] sinks []).recover with
  | some (.ok (some recovered), _) =>
    { coordinator with
      epoch := recovered.manifest.epoch + 1
      nextCheckpointId := recovered.manifest.checkpointId + 1 }
  | _ => coordinator

/-- A coordinator, if one is running, its store, and the numbers of the manifests that were
ever put in place there. -/
structure Run (Store : Type) where
  running : Bool
  coordinator : CheckpointCoordinator Store
  persisted : List (U64 × U64)

inductive Event (Outcomes : Type) where
  /-- The process starts, after a crash if it was running. -/
  | start
  | recover (sinks : List RegisteredSink)
  | checkpoint (config : CheckpointConfig) (sinks : List RegisteredSink) (input : CheckpointInput)
      (environment : Environment Outcomes)
  /-- A write that was not waited for takes effect. -/
  | land (position : Nat) (outcomes : Outcomes)

/-- The manifest that a save puts in place by the time it is no longer waited for. -/
def putByWaiting (manifest : CheckpointManifest)
    (stateData : Option Bytes) (store : Store) : Waiting methods.Outcomes → Bool
  | .returned outcomes => methods.writesManifest outcomes manifest stateData store
  | .lost _ (some outcomes) => methods.writesManifest outcomes manifest stateData store
  | .elapsed (some outcomes) => methods.writesManifest outcomes manifest stateData store
  | .lost _ none => false
  | .elapsed none => false

variable (coordinator : CheckpointCoordinator Store) {manifest : CheckpointManifest}

def persistedBy :
    Event methods.Outcomes → List (U64 × U64)
  | .start => []
  | .recover _ => []
  | .checkpoint config sinks input environment =>
    match prepareManifest config sinks input environment coordinator with
    | .error _ => []
    | .ok (manifest, stateData) =>
      if putByWaiting methods manifest stateData coordinator.store environment.persist then
        [(manifest.checkpointId, manifest.epoch)]
      else []
  | .land position outcomes =>
    match coordinator.background[position]? with
    | some (.save manifest stateData) =>
      if methods.writesManifest outcomes manifest stateData coordinator.store then
        [(manifest.checkpointId, manifest.epoch)]
      else []
    | _ => []

def landed (outcomes : methods.Outcomes) (store : Store) :
    Option BackgroundWrite → Store
  | some (.save manifest stateData) => (methods.saveWithState outcomes manifest stateData store).1
  | some (.update manifest) => (methods.updateManifest outcomes manifest store).1
  | none => store

def advance (methods : StoreMethods Store) (coordinator : CheckpointCoordinator Store) :
    Event methods.Outcomes → CheckpointCoordinator Store
  | .start => .new methods coordinator.store
  | .recover sinks => coordinator.recover sha256Hex methods sinks
  | .checkpoint config sinks input environment =>
    (checkpointInner methods config sinks input environment coordinator).1
  | .land position outcomes =>
    { coordinator with
      store := landed methods outcomes coordinator.store coordinator.background[position]?
      background := coordinator.background.eraseIdx position }

def isEnabled {Outcomes : Type} (run : Run Store) : Event Outcomes → Bool
  | .start => true
  | _ => run.running

def coordinatorRuns (methods : StoreMethods Store) :
    TransitionSystem (Run Store) (Event methods.Outcomes) where
  initial run := run.running = false
  step run event :=
    if isEnabled run event then
      some ⟨true, advance sha256Hex methods run.coordinator event,
        persistedBy methods run.coordinator event ++ run.persisted⟩
    else none

/-- The numbers of a manifest are at least all those persisted, and can be advanced. -/
structure Covers (persisted : List (U64 × U64)) (manifest : CheckpointManifest) : Prop where
  ids : ∀ older ∈ persisted, older.1 ≤ manifest.checkpointId
  epochs : ∀ older ∈ persisted, older.2 ≤ manifest.epoch
  idNotLast : manifest.checkpointId.val + 1 < 2 ^ 64
  epochNotLast : manifest.epoch.val + 1 < 2 ^ 64

/-- A save that puts its manifest in place is reported as a success, and then every
exactly-once sink commits. -/
structure Completes (sinks : List RegisteredSink)
    (environment : Environment methods.Outcomes) (manifest : CheckpointManifest)
    (stateData : Option Bytes) (store : Store) : Prop where
  saved : ∃ outcomes saved, environment.persist = .returned outcomes ∧
    methods.saveWithState outcomes manifest stateData store = (saved, .ok ())
  inTime : environment.commit.elapsed = false
  commits : ∀ sink ∈ exactlyOnceSinks sinks, environment.commit.answer sink.2 = .ok ()

/-- The steps in which the numbers stay fresh: at the start and in a recovery the latest manifest
is readable and has the largest numbers, a manifest that is put in place is reported and
followed by all commits, and no save takes effect that was not waited for. -/
def KeepsNumbers (methods : StoreMethods Store) (run : Run Store) :
    Event methods.Outcomes → Prop
  | .start => run.persisted ≠ [] →
      ∃ manifest, (methods.reads run.coordinator.store).loadLatest = .ok (some manifest) ∧
        Covers run.persisted manifest
  | .recover sinks =>
    (methods.reads run.coordinator.store).loadLatest = .ok none ∨
      ∃ manifest, (methods.reads run.coordinator.store).loadLatest = .ok (some manifest) ∧
        (new sha256Hex (methods.reads run.coordinator.store) [] sinks []).Passes manifest ∧
        Covers run.persisted manifest
  | .checkpoint config sinks input environment =>
    run.coordinator.nextCheckpointId.val + 1 < 2 ^ 64 ∧ run.coordinator.epoch.val + 1 < 2 ^ 64 ∧
      ∀ manifest stateData, prepareManifest config sinks input environment run.coordinator =
          .ok (manifest, stateData) →
        putByWaiting methods manifest stateData run.coordinator.store environment.persist = true →
          Completes methods sinks environment manifest stateData run.coordinator.store
  | .land position outcomes =>
    ∀ manifest stateData, run.coordinator.background[position]? = some (.save manifest stateData) →
      methods.writesManifest outcomes manifest stateData run.coordinator.store = false

def CheckpointCoordinator.numbers : U64 × U64 :=
  (coordinator.nextCheckpointId, coordinator.epoch)

def Fresh (persisted : List (U64 × U64)) (numbers : U64 × U64) : Prop :=
  ∀ older ∈ persisted, older.1 < numbers.1 ∧ older.2 < numbers.2

theorem lt_add_one_of_le {older latest : U64} (atMost : older ≤ latest)
    (notLast : latest.val + 1 < 2 ^ 64) : older < latest + 1 := by
  have added := Fin.val_add_one_of_lt' notLast
  exact Fin.lt_def.mpr (added ▸ Nat.lt_succ_of_le atMost)

section Numbers

variable {methods : StoreMethods Store} {config : CheckpointConfig} {sinks : List RegisteredSink}
  {input : CheckpointInput} {environment : Environment methods.Outcomes}
  {coordinator : CheckpointCoordinator Store}

theorem advanced_congr {other : CheckpointCoordinator Store}
    (same : other.numbers = coordinator.numbers) :
    (other.nextCheckpointId + 1, other.epoch + 1) =
      (coordinator.nextCheckpointId + 1, coordinator.epoch + 1) :=
  congrArg (fun numbers : U64 × U64 => (numbers.1 + 1, numbers.2 + 1)) same

theorem numbers_awaitTask {Outcomes : Type} {task : Outcomes → Step Store}
    {write : BackgroundWrite} (word timedOut : String) {waiting : Waiting Outcomes} :
    (awaitTask task write word timedOut waiting coordinator).1.numbers = coordinator.numbers := by
  unfold awaitTask
  split
  · split <;> rfl
  · rfl
  · rfl
  · rfl

variable {stateData : Option Bytes}
  (prepared : prepareManifest config sinks input environment coordinator =
    .ok (manifest, stateData))

include prepared in
theorem numbers_of_prepared : (manifest.checkpointId, manifest.epoch) = coordinator.numbers := by
  unfold prepareManifest at prepared
  split at prepared
  · cases prepared
  · split at prepared
    · cases prepared
    · dsimp only at prepared
      split at prepared
      · cases prepared
      · have built := congrArg Prod.fst (Except.ok.inj prepared)
        subst built
        rfl

theorem numbers_commitCheckpoint (manifest : CheckpointManifest) :
    (commitCheckpoint methods config sinks environment manifest coordinator).1.numbers =
      if (commitSinksTracked config sinks environment.commit).entries.any
        (fun entry => entry.2.isFailed) then coordinator.numbers
      else (coordinator.nextCheckpointId + 1, coordinator.epoch + 1) := by
  have kept : (recordStatuses methods config environment
      (commitSinksTracked config sinks environment.commit) manifest coordinator).numbers =
        coordinator.numbers := by
    unfold recordStatuses
    split
    · rfl
    · exact numbers_awaitTask _ _
  unfold commitCheckpoint
  dsimp only
  split
  · exact kept
  · exact advanced_congr kept

theorem numbers_checkpointInner :
    (checkpointInner methods config sinks input environment coordinator).1.numbers =
        coordinator.numbers ∨
      (checkpointInner methods config sinks input environment coordinator).1.numbers =
        (coordinator.nextCheckpointId + 1, coordinator.epoch + 1) := by
  unfold checkpointInner
  split
  · exact .inl rfl
  · rename_i manifest stateData prepared
    have kept : (saveManifest methods config manifest stateData environment.persist
        coordinator).1.numbers = coordinator.numbers := numbers_awaitTask _ _
    split
    · rename_i saved _ isSaved
      rw [isSaved] at kept
      exact .inl kept
    · rename_i saved isSaved
      rw [isSaved] at kept
      have committed := @numbers_commitCheckpoint _ methods config sinks environment saved manifest
      rw [committed]
      split
      · exact .inl kept
      · exact .inr (advanced_congr kept)

include prepared in
theorem numbers_of_completes
    (completes : Completes methods sinks environment manifest stateData coordinator.store) :
    (checkpointInner methods config sinks input environment coordinator).1.numbers =
      (coordinator.nextCheckpointId + 1, coordinator.epoch + 1) := by
  obtain ⟨⟨outcomes, store, isReturned, written⟩, inTime, commits⟩ := completes
  have persisted : saveManifest methods config manifest stateData environment.persist
      coordinator = ({ coordinator with store := store }, .ok ()) := by
    simp only [saveManifest, awaitTask, isReturned, written]
  unfold checkpointInner
  rw [prepared]
  dsimp only
  rw [persisted]
  rw [numbers_commitCheckpoint, noneFailed_of_commits inTime commits]
  rfl

end Numbers

variable {persisted : List (U64 × U64)}

theorem Fresh.advance {numbers : U64 × U64} (fresh : Fresh persisted numbers)
    (idNotLast : numbers.1.val + 1 < 2 ^ 64) (epochNotLast : numbers.2.val + 1 < 2 ^ 64) :
    Fresh (numbers :: persisted) (numbers.1 + 1, numbers.2 + 1) := by
  intro older mem
  rcases List.mem_cons.mp mem with rfl | earlier
  · exact ⟨lt_add_one_of_le le_rfl idNotLast, lt_add_one_of_le le_rfl epochNotLast⟩
  · exact ⟨lt_add_one_of_le (fresh older earlier).1.le idNotLast,
      lt_add_one_of_le (fresh older earlier).2.le epochNotLast⟩

theorem Covers.fresh (covers : Covers persisted manifest) :
    Fresh persisted (manifest.checkpointId + 1, manifest.epoch + 1) := by
  intro older mem
  exact ⟨lt_add_one_of_le (covers.ids older mem) covers.idNotLast,
    lt_add_one_of_le (covers.epochs older mem) covers.epochNotLast⟩

section Runs

variable {sha256Hex : Bytes → String} {methods : StoreMethods Store} {run : Run Store}

theorem fresh_start (keeps : run.persisted ≠ [] →
      ∃ manifest, (methods.reads run.coordinator.store).loadLatest = .ok (some manifest) ∧
        Covers run.persisted manifest) :
    Fresh run.persisted (CheckpointCoordinator.new methods run.coordinator.store).numbers := by
  by_cases nothing : run.persisted = []
  · intro older mem
    rw [nothing] at mem
    cases mem
  · obtain ⟨manifest, loaded, covers⟩ := keeps nothing
    unfold CheckpointCoordinator.new
    rw [loaded]
    exact covers.fresh

variable {sinks : List RegisteredSink}

theorem fresh_recover (fresh : Fresh run.persisted run.coordinator.numbers)
    (keeps : KeepsNumbers sha256Hex methods run (.recover sinks)) :
    Fresh run.persisted (run.coordinator.recover sha256Hex methods sinks).numbers := by
  unfold CheckpointCoordinator.recover
  rcases keeps with missing | ⟨manifest, loaded, passes, covers⟩
  · rw [recover_of_missing missing]
    exact fresh
  · obtain ⟨restored, isRestored, recovered⟩ := recover_of_passes rfl loaded passes
    rw [recovered]
    have freshNumbers := covers.fresh
    rw [← (numbers_restoreFrom isRestored).1, ← (numbers_restoreFrom isRestored).2] at freshNumbers
    exact freshNumbers

theorem fresh_checkpoint {config : CheckpointConfig}
    {input : CheckpointInput} {environment : Environment methods.Outcomes}
    (fresh : Fresh run.persisted run.coordinator.numbers)
    (keeps : KeepsNumbers sha256Hex methods run (.checkpoint config sinks input environment)) :
    Fresh (persistedBy methods run.coordinator (.checkpoint config sinks input environment) ++
        run.persisted)
      (checkpointInner methods config sinks input environment run.coordinator).1.numbers := by
  obtain ⟨idNotLast, epochNotLast, completes⟩ := keeps
  have advanced := fresh.advance idNotLast epochNotLast
  have unpersisted : Fresh run.persisted
      (checkpointInner methods config sinks input environment run.coordinator).1.numbers := by
    rcases @numbers_checkpointInner _ methods config sinks input environment run.coordinator with
      same | next
    · rw [same]
      exact fresh
    · rw [next]
      exact (List.forall_mem_cons.mp advanced).2
  simp only [persistedBy]
  cases prepared : prepareManifest config sinks input environment run.coordinator with
  | error result => exact unpersisted
  | ok built =>
    obtain ⟨manifest, stateData⟩ := built
    by_cases put : putByWaiting methods manifest stateData run.coordinator.store
        environment.persist = true
    · simp only [put, if_true]
      rw [numbers_of_prepared prepared,
        numbers_of_completes prepared (completes manifest stateData prepared put)]
      exact advanced
    · simp only [put]
      exact unpersisted

theorem persistedBy_land {position : Nat} {outcomes : methods.Outcomes}
    (keeps : KeepsNumbers sha256Hex methods run (.land position outcomes)) :
    persistedBy methods run.coordinator (.land position outcomes) = [] := by
  simp only [persistedBy]
  split
  · rename_i manifest stateData isWrite
    rw [keeps manifest stateData isWrite]
    rfl
  · rfl

theorem step_eq_some_iff {event : Event methods.Outcomes} {next : Run Store} :
    (coordinatorRuns sha256Hex methods).step run event = some next ↔
      isEnabled run event = true ∧
        next = ⟨true, advance sha256Hex methods run.coordinator event,
          persistedBy methods run.coordinator event ++ run.persisted⟩ := by
  simp only [coordinatorRuns]
  by_cases enabled : isEnabled run event = true
  · rw [if_pos enabled, Option.some_inj]
    exact ⟨fun same => ⟨enabled, same.symm⟩, fun both => both.2.symm⟩
  · rw [if_neg enabled]
    exact iff_of_false (nofun) fun both => enabled both.1

theorem fresh_of_reaches
    (reached : (coordinatorRuns sha256Hex methods).Reaches (KeepsNumbers sha256Hex methods) run) :
    run.running = true → Fresh run.persisted run.coordinator.numbers := by
  induction reached with
  | initial isInitial =>
    intro running
    exact absurd (isInitial.symm.trans running) Bool.false_ne_true
  | @step state event next reached keeps stepped ih =>
    obtain ⟨enabled, rfl⟩ := step_eq_some_iff.mp stepped
    intro _
    cases event with
    | start => exact fresh_start keeps
    | recover sinks => exact fresh_recover (ih enabled) keeps
    | checkpoint config sinks input environment =>
      exact fresh_checkpoint (ih enabled) keeps
    | land position outcomes =>
      rw [persistedBy_land keeps]
      exact ih enabled

variable (sha256Hex methods) in
/-- Whenever a manifest is put in place, its numbers are larger than all before. -/
def NeverReuses (admits : Run Store → Event methods.Outcomes → Prop) : Prop :=
  ∀ run event next, (coordinatorRuns sha256Hex methods).Reaches admits run → admits run event →
    (coordinatorRuns sha256Hex methods).step run event = some next →
      ∀ numbers ∈ persistedBy methods run.coordinator event, Fresh run.persisted numbers

end Runs

/-- In every run whose steps keep the numbers no checkpoint number is used again. -/
theorem numbers_never_reused (sha256Hex : Bytes → String) (methods : StoreMethods Store) :
    NeverReuses sha256Hex methods (KeepsNumbers sha256Hex methods) := by
  intro run event next reached keeps stepped numbers put
  obtain ⟨enabled, _⟩ := step_eq_some_iff.mp stepped
  cases event with
  | start | recover => cases put
  | checkpoint config sinks input environment =>
    simp only [persistedBy] at put
    cases prepared : prepareManifest config sinks input environment run.coordinator with
        rw [prepared] at put
    | error => cases put
    | ok built =>
      dsimp only at put
      split at put
      · rw [List.mem_singleton.mp put, numbers_of_prepared prepared]
        exact fresh_of_reaches reached enabled
      · cases put
  | land position outcomes =>
    rw [persistedBy_land keeps] at put
    cases put

def noHash (_ : Bytes) : String := ""

def emptyRun : Run FileStore := ⟨false, emptyFiles, []⟩

def quietCheckpoint : Event (fileMethods noHash).Outcomes :=
  .checkpoint externalConfig [] oneState (@quietEnvironment FileStore.Outcomes FileStore.allDone)

theorem keepsNumbers_quietCheckpoint {run : Run FileStore}
    (idNotLast : run.coordinator.nextCheckpointId.val + 1 < 2 ^ 64)
    (epochNotLast : run.coordinator.epoch.val + 1 < 2 ^ 64) :
    KeepsNumbers noHash (fileMethods noHash) run quietCheckpoint := by
  refine ⟨idNotLast, epochNotLast, ?_⟩
  intro manifest stateData _ _
  obtain ⟨saved, isSaved⟩ :=
    FileStore.saveWithState_allDone noHash manifest stateData run.coordinator.store
  exact ⟨⟨_, saved, rfl, isSaved⟩, rfl, fun _ _ => rfl⟩

theorem keepsNumbers_firstStart : KeepsNumbers noHash (fileMethods noHash) emptyRun .start :=
  fun nonempty => absurd rfl nonempty

theorem numbers_never_reused_second : Fresh [(1, 1)] (2, 2) := by
  have initially : (coordinatorRuns noHash (fileMethods noHash)).Reaches
      (KeepsNumbers noHash (fileMethods noHash)) emptyRun := .initial rfl
  have started := initially.step keepsNumbers_firstStart rfl
  have first := started.step (keepsNumbers_quietCheckpoint (by decide) (by decide)) rfl
  exact numbers_never_reused noHash (fileMethods noHash) _ quietCheckpoint _ first
    (keepsNumbers_quietCheckpoint (by decide) (by decide)) rfl (2, 2) List.mem_cons_self

def corruptLatestRun : Run FileStore where
  running := false
  coordinator :=
    { emptyFiles with
      store :=
        { maxRetained := 3
          directories := (KeyedMap.empty.insert (checkpointName 1)
            ⟨some (.ok (.new 1 1 1000)), none⟩).insert (checkpointName 2) corruptDirectory
          latest := some (.ok (checkpointName 2)) } }
  persisted := [(2, 2), (1, 1)]

/-- Numbers are used again after a recovery from an older checkpoint. -/
theorem numbers_reused : ¬NeverReuses noHash (fileMethods noHash) fun _ _ => True := by
  intro neverReuses
  have ran : ((coordinatorRuns noHash (fileMethods noHash)).run corruptLatestRun
      [.start, .recover []]).map (fun run => isEnabled run quietCheckpoint &&
        run.persisted.contains (2, 2) && (persistedBy (fileMethods noHash) run.coordinator
          quietCheckpoint).contains (2, 2)) = some true := by
    decide +kernel
  obtain ⟨run, isRun, checked⟩ := Option.map_eq_some_iff.mp ran
  rw [Bool.and_eq_true, Bool.and_eq_true, List.contains_iff_mem, List.contains_iff_mem] at checked
  obtain ⟨⟨enabled, known⟩, put⟩ := checked
  have reached := (TransitionSystem.Reaches.initial (rfl : corruptLatestRun.running = false)).of_run
    (fun _ _ => trivial) isRun
  have fresh := neverReuses run quietCheckpoint _ reached trivial
    (step_eq_some_iff.mpr ⟨enabled, rfl⟩) (2, 2) put
  exact lt_irrefl _ (fresh (2, 2) known).1

end LaminarDB.Coordinator

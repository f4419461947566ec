import LaminarDB.Storage.WalReopen

/-!
# Merging the segments

`PerCoreWalManager::merge_segments` sorts the entries of all segments by epoch, time, core and
sequence number. The writers of a manager that was opened start again at epoch and sequence
number zero, and what they append before the epoch advances can sort before what was there.
-/

namespace LaminarDB.Storage

open Library Result List PerCoreWalEntry Function
open FramedLog

def mergeSegments (format : WalFormat) (numCores : Nat) (segments : Nat → Option Bytes) :
    Except PerCoreWalError (List PerCoreWalEntry) :=
  (readAllSegments format numCores segments []).map Prod.fst

/-- A manager with the entries of each core since the last reset that no restart lost, the cores
whose writers were opened in the present epoch, and the clock. -/
structure WalRun where
  manager : PerCoreWalManager
  appended : Nat → List PerCoreWalEntry
  behind : Nat → Bool
  clock : Int

inductive WalEvent where
  | append (core elapsed : Nat) (operation : WalOperation)
  | advanceEpoch
  | reset
  | restart (kept : Nat → Nat)

namespace WalRun

variable (format : WalFormat) (kept : Nat → Nat) (run : WalRun) (core : Nat)

/-- The file of a core when that many of its buffered bytes have reached it. -/
def disk : Bytes :=
  (run.manager.writers[core]?.map fun writer =>
    writer.file ++ writer.buffered.take (kept core)).getD []

/-- The entries of a core whose records stand whole in its file. -/
def durable : List PerCoreWalEntry :=
  (run.appended core).take (wholeIn format.framing (run.disk kept core).length
    ((run.appended core).map format.serialize))

end WalRun

variable (format : WalFormat)

def walRuns (numCores : Nat) : TransitionSystem WalRun WalEvent where
  initial run := run.manager = .new numCores (fun _ => []) ∧ run.appended = fun _ => []
  step run
    | .append core elapsed operation => run.manager.writers[core]?.map fun writer =>
      { run with
        manager := run.manager.modifyWriter core fun writer =>
          (writer.appendOperation format (run.clock + elapsed) operation).1
        appended := update run.appended core
          (run.appended core ++ [writer.entryOf (run.clock + elapsed) operation])
        clock := run.clock + elapsed }
    | .advanceEpoch => some { run with
        manager := run.manager.advanceEpoch.1.setEpochAll run.manager.advanceEpoch.2
        behind := fun _ => false }
    | .reset => some { run with
        manager := run.manager.resetAll
        appended := fun _ => []
        behind := fun _ => false }
    | .restart kept =>
      match PerCoreWalManager.open format numCores (run.disk kept) with
      | .error _ => none
      | .ok manager => some { run with
          manager := manager
          appended := run.durable format kept
          behind := fun _ => true }

/-- The merged list has the entries of every core in the order in which they were appended. -/
def MergesInOrder (numCores : Nat) (run : WalRun) : Prop :=
  ∀ kept, ∃ merged, mergeSegments format numCores (fun core => some (run.disk kept core)) =
      .ok merged ∧
    merged.Perm ((range numCores).flatMap (run.durable format kept)) ∧
    ∀ core < numCores, (run.durable format kept core).Sublist merged

variable (run : WalRun)

def Fits : WalEvent → Prop
  | .append core elapsed operation => ∀ writer, run.manager.writers[core]? = some writer →
    format.Accepts (writer.entryOf (run.clock + elapsed) operation)
  | _ => True

/-- What a writer appends after it was opened, before the epoch advances, does not sort before an
entry of its segment. -/
def InTurn : WalEvent → Prop
  | .append core elapsed operation => run.behind core = true →
    ∀ writer, run.manager.writers[core]? = some writer → ∀ entry ∈ run.appended core,
      entry.Precedes (writer.entryOf (run.clock + elapsed) operation)
  | _ => True

theorem merge_of_decoded {format : WalFormat} {numCores : Nat} {segment : Nat → Bytes}
    {entries : Nat → List PerCoreWalEntry} (decoded : ∀ core < numCores, collect format.decode
      (scan format.framing (segment core)).1 = .ok (entries core)) :
    mergeSegments format numCores (fun core => some (segment core)) =
      .ok (((range numCores).flatMap entries).insertionSort Precedes) := by
  have each : ∀ cores : List Nat, (∀ core ∈ cores, core < numCores) → ∃ reads,
      collect (readSegment format (fun core => some (segment core)) []) cores = .ok reads ∧
        reads.flatMap Prod.fst = cores.flatMap entries := by
    intro cores
    induction cores with
    | nil => exact fun _ => ⟨[], rfl, rfl⟩
    | cons core cores ih =>
      intro areCores
      obtain ⟨isCore, others⟩ := forall_mem_cons.mp areCores
      obtain ⟨first, isFirst, same⟩ := map_eq_ok
        ((@PerCoreWalReader.readAll_eq format _).trans (decoded core isCore))
      obtain ⟨reads, areReads, sames⟩ := ih others
      refine ⟨(first.1, first.2.position) :: reads, ?_, ?_⟩
      · simp only [collect, readSegment, getElem?_nil, Option.getD_none, isFirst, areReads]
        rfl
      · rw [flatMap_cons, flatMap_cons, same, sames]
  obtain ⟨reads, areReads, sames⟩ := each _ fun _ => mem_range.mp
  rw [mergeSegments, readAllSegments, areReads, ← sames]
  rfl

structure Behind (core : Nat) (writer : CoreWalWriter) (entry : PerCoreWalEntry) : Prop where
  accepted : format.Accepts entry
  isCore : entry.coreId = core % 2 ^ 16
  time : entry.timestampNs ≤ run.clock
  epoch : entry.epoch ≤ run.manager.globalEpoch
  ahead : run.behind core = false →
    entry.epoch < writer.epoch ∨ entry.epoch = writer.epoch ∧ entry.sequence < writer.sequence

structure Tracks (core : Nat) (writer : CoreWalWriter) : Prop where
  isCore : writer.coreId = core
  contents : writer.contents = format.records (run.appended core)
  epoch : writer.epoch ≤ run.manager.globalEpoch
  entries : ∀ entry ∈ run.appended core, Behind format run core writer entry

def WalRun.Tracked (numCores : Nat) (run : WalRun) : Prop :=
  ∀ core < numCores, ∃ writer, run.manager.writers[core]? = some writer ∧
    Tracks format run core writer

section

variable {format : WalFormat} {run next : WalRun} {core : Nat} {writer : CoreWalWriter}
  (tracks : Tracks format run core writer)

include tracks

theorem Tracks.accepted : ∀ entry ∈ run.appended core, format.Accepts entry :=
  fun entry among => (tracks.entries entry among).accepted

theorem Tracks.append {elapsed : Nat} {operation : WalOperation}
    (accepts : format.Accepts (writer.entryOf (run.clock + elapsed) operation))
    (appended : next.appended core =
      run.appended core ++ [writer.entryOf (run.clock + elapsed) operation])
    (manager : next.manager.globalEpoch = run.manager.globalEpoch)
    (behind : next.behind = run.behind) (clock : next.clock = run.clock + elapsed) :
    Tracks format next core (writer.appendOperation format (run.clock + elapsed) operation).1 := by
  refine ⟨tracks.isCore, ?_, manager ▸ tracks.epoch, ?_⟩
  · rw [appended, format.records_concat, ← tracks.contents]
    exact CoreWalWriter.contents_append ..
  · rw [appended]
    refine forall_mem_append.mpr ⟨fun entry among => ?_, forall_mem_singleton.mpr ?_⟩
    · obtain ⟨accepted, isCore, time, epoch, ahead⟩ := tracks.entries entry among
      refine ⟨accepted, isCore, by omega, manager ▸ epoch, fun fresh => ?_⟩
      exact (ahead (behind ▸ fresh)).imp_right fun ⟨same, less⟩ => ⟨same, Nat.lt_succ_of_lt less⟩
    · exact ⟨accepts, congrArg (· % 2 ^ 16) tracks.isCore, clock.ge, manager ▸ tracks.epoch,
        fun _ => .inr ⟨rfl, Nat.lt_succ_self _⟩⟩

theorem Tracks.of_same {after : CoreWalWriter} (isCore : after.coreId = writer.coreId)
    (contents : after.contents = writer.contents)
    (appended : next.appended core = run.appended core) (clock : run.clock ≤ next.clock)
    (globalEpoch : run.manager.globalEpoch ≤ next.manager.globalEpoch)
    (epoch : after.epoch ≤ next.manager.globalEpoch)
    (ahead : next.behind core = false → ∀ entry ∈ run.appended core,
      entry.epoch < after.epoch ∨ entry.epoch = after.epoch ∧ entry.sequence < after.sequence) :
    Tracks format next core after := by
  refine ⟨isCore.trans tracks.isCore, ?_, epoch, ?_⟩
  · rw [appended]
    exact contents.trans tracks.contents
  · rw [appended]
    intro entry among
    obtain ⟨accepted, isCore, time, before, _⟩ := tracks.entries entry among
    exact ⟨accepted, isCore, time.trans clock, before.trans globalEpoch,
      fun fresh => ahead fresh entry among⟩

variable (isWriter : run.manager.writers[core]? = some writer) (kept : Nat → Nat)

include isWriter

theorem Tracks.scan_disk : (scan format.framing (run.disk kept core)).1 =
    (run.durable format kept core).map format.serialize := by
  have isPrefix : run.disk kept core <+: format.records (run.appended core) := by
    rw [← tracks.contents, WalRun.disk, isWriter]
    exact (prefix_append_right_inj _).mpr <| take_prefix _ _
  rw [WalRun.durable, map_take, ← scan_take (forall_mem_map.mpr tracks.accepted)]
  exact congrArg (fun log => (scan format.framing log).1) (prefix_iff_eq_take.mp isPrefix)

theorem Tracks.decoded_disk :
    collect format.decode (scan format.framing (run.disk kept core)).1 =
      .ok (run.durable format kept core) := by
  rw [tracks.scan_disk isWriter, format.collect_decode_serialize]

theorem Tracks.durable_all (all : writer.buffered.length ≤ kept core) :
    run.durable format kept core = run.appended core := by
  have isDisk : run.disk kept core = format.records (run.appended core) := by
    rw [← tracks.contents, WalRun.disk, isWriter, Option.map_some, take_of_length_le all]
    rfl
  rw [WalRun.durable, isDisk, WalFormat.records, wholeIn_frames, length_map, take_length]

variable {kept} in
theorem Tracks.restart {numCores : Nat} {manager : PerCoreWalManager} (isCore : core < numCores)
    (opened : PerCoreWalManager.open format numCores (run.disk kept) = .ok manager) :
    ∃ after, manager.writers[core]? = some after ∧ Tracks format
      { run with manager, appended := run.durable format kept, behind := fun _ => true }
      core after := by
  obtain ⟨⟨entries, decoded, epochs⟩, isAfter⟩ := open_spec opened isCore
  cases decoded.symm.trans (tracks.decoded_disk isWriter kept)
  refine ⟨_, isAfter, rfl, ?_, Nat.zero_le _, fun entry among => ?_⟩
  · rw [contents_openAt, tracks.scan_disk isWriter]
    rfl
  · obtain ⟨accepted, isCore, time, _, _⟩ := tracks.entries entry (mem_of_mem_take among)
    exact ⟨accepted, isCore, time, epochs entry among, nofun⟩

end

section

variable {format : WalFormat} {numCores : Nat} {run next : WalRun} {event : WalEvent}

theorem tracked_initial (initial : (walRuns format numCores).initial run) :
    run.Tracked format numCores := by
  obtain ⟨isManager, isAppended⟩ := initial
  intro core isCore
  refine ⟨.new core [], ?_, rfl, ?_, Nat.zero_le _, ?_⟩
  · rw [isManager]
    simp only [PerCoreWalManager.new, getElem?_map, getElem?_range isCore, Option.map_some]
  · rw [isAppended]
    rfl
  · rw [isAppended]
    exact forall_mem_nil _

theorem WalRun.Tracked.mapWriters (tracked : run.Tracked format numCores)
    {change : CoreWalWriter → CoreWalWriter}
    (changed : next.manager.writers = run.manager.writers.mapIdx fun _ => change)
    (each : ∀ core writer, Tracks format run core writer →
      Tracks format next core (change writer)) : next.Tracked format numCores := by
  intro core isCore
  obtain ⟨writer, isWriter, before⟩ := tracked core isCore
  refine ⟨change writer, ?_, each core writer before⟩
  rw [changed, getElem?_mapIdx, isWriter]
  rfl

theorem tracked_step (tracked : run.Tracked format numCores) (fits : Fits format run event)
    (stepped : (walRuns format numCores).step run event = some next) :
    next.Tracked format numCores := by
  cases event with
  | append core elapsed operation =>
    obtain ⟨writer, isWriter, rfl⟩ := Option.map_eq_some_iff.mp stepped
    intro other isOther
    obtain ⟨found, isFound, before⟩ := tracked other isOther
    simp only [PerCoreWalManager.modifyWriter, getElem?_modify, isFound]
    refine ⟨_, rfl, ?_⟩
    by_cases same : core = other
    · subst same
      cases isWriter.symm.trans isFound
      simp only [if_true]
      exact before.append (fits writer isWriter) (update_self ..) rfl rfl rfl
    · simp only [same, if_false]
      have later : run.clock ≤ run.clock + elapsed := by omega
      exact before.of_same rfl rfl (update_of_ne (Ne.symm same) ..) later le_rfl
        before.epoch fun fresh entry among => (before.entries entry among).ahead fresh
  | advanceEpoch =>
    cases stepped
    refine tracked.mapWriters rfl fun core writer before => ?_
    exact before.of_same rfl rfl rfl le_rfl (Nat.le_succ _) le_rfl fun _ entry among =>
      .inl (Nat.lt_succ_of_le (before.entries entry among).epoch)
  | reset =>
    cases stepped
    refine tracked.mapWriters rfl fun core writer before => ?_
    exact ⟨before.isCore, CoreWalWriter.contents_truncate (Nat.zero_le _), before.epoch,
      forall_mem_nil _⟩
  | restart kept =>
    simp only [walRuns] at stepped
    split at stepped <;> cases stepped
    rename_i manager opened
    intro core isCore
    obtain ⟨writer, isWriter, before⟩ := tracked core isCore
    exact before.restart isWriter isCore opened

theorem tracked_of_reaches (reached : (walRuns format numCores).Reaches (Fits format) run) :
    run.Tracked format numCores :=
  reached.invariant (fun _ => tracked_initial) fun _ _ _ => tracked_step

theorem PerCoreWalEntry.precedes_of_epoch {first second : PerCoreWalEntry}
    (epochs : first.epoch < second.epoch) : first.Precedes second := by
  simp only [Precedes, cmp, compareLex, compareOn, Ordering.isLE_then_iff_or]
  exact .inl (Std.compare_eq_lt.mpr epochs)

instance : Std.TransCmp cmp := inferInstanceAs (Std.TransCmp (compareLex _ _))

instance : IsTrans PerCoreWalEntry Precedes where
  trans _ _ _ := Std.TransCmp.isLE_trans

instance : Std.Total Precedes where
  total first second := by
    rw [Precedes, Precedes, @Std.OrientedCmp.eq_swap _ cmp _ second first]
    cases first.cmp second <;> decide

def WalRun.Sorted (numCores : Nat) (run : WalRun) : Prop :=
  ∀ core < numCores, (run.appended core).Pairwise Precedes

theorem mergesInOrder_iff (tracked : run.Tracked format numCores) :
    MergesInOrder format numCores run ↔ run.Sorted numCores := by
  have merges := fun kept => @merge_of_decoded format numCores (run.disk kept)
    (run.durable format kept) fun core isCore =>
      let ⟨_, isWriter, before⟩ := tracked core isCore
      before.decoded_disk isWriter kept
  constructor
  · intro inOrder core isCore
    obtain ⟨writer, isWriter, before⟩ := tracked core isCore
    obtain ⟨merged, isMerged, _, each⟩ := inOrder fun _ => writer.buffered.length
    cases isMerged.symm.trans (merges _)
    rw [← before.durable_all isWriter (fun _ => writer.buffered.length) le_rfl]
    exact (pairwise_insertionSort _ _).sublist (each core isCore)
  · intro sorted kept
    refine ⟨_, merges kept, perm_insertionSort .., fun core isCore => ?_⟩
    apply sublist_insertionSort ((sorted core isCore).sublist (take_sublist _ _))
    exact sublist_flatten_of_mem (mem_map_of_mem (mem_range.mpr isCore))

theorem sorted_step (tracked : run.Tracked format numCores)
    (sorted : run.Sorted numCores) (inTurn : InTurn run event)
    (stepped : (walRuns format numCores).step run event = some next) : next.Sorted numCores := by
  cases event with
  | append core elapsed operation =>
    obtain ⟨writer, isWriter, rfl⟩ := Option.map_eq_some_iff.mp stepped
    intro other isOther
    by_cases same : other = core
    · subst same
      obtain ⟨found, isFound, tracks⟩ := tracked other isOther
      cases isWriter.symm.trans isFound
      simp only [update_self]
      refine pairwise_append.mpr ⟨sorted other isOther, pairwise_singleton _ _,
        fun entry among _ isNew => mem_singleton.mp isNew ▸ ?_⟩
      cases isBehind : run.behind other with
      | true => exact inTurn isBehind writer isWriter entry among
      | false =>
        obtain ⟨_, isCore, time, _, ahead⟩ := tracks.entries entry among
        rcases ahead isBehind with earlier | ⟨sameEpoch, less⟩
        · exact precedes_of_epoch earlier
        · exact precedes_of_sequence sameEpoch
            (isCore.trans (congrArg (· % 2 ^ 16) tracks.isCore.symm))
            (time.trans (Int.le_add_of_nonneg_right (Int.natCast_nonneg _))) less.le
    · simp only [update_of_ne same]
      exact sorted other isOther
  | advanceEpoch =>
    cases stepped
    exact sorted
  | reset =>
    cases stepped
    exact fun _ _ => .nil
  | restart kept =>
    simp only [walRuns] at stepped
    split at stepped <;> cases stepped
    exact fun core isCore => (sorted core isCore).sublist (take_sublist _ _)

theorem mergesInOrder_of_reaches (reached : (walRuns format numCores).Reaches
      (fun run event => Fits format run event ∧ InTurn run event) run) :
    MergesInOrder format numCores run := by
  have both := @TransitionSystem.Reaches.invariant _ _ _ _
    (fun run => run.Tracked format numCores ∧ run.Sorted numCores)
    (fun _ initial => ⟨tracked_initial initial, fun _ _ => initial.2 ▸ .nil⟩)
    (fun _ _ _ before keeps stepped => ⟨tracked_step before.1 keeps.1 stepped,
      sorted_step before.1 before.2 keeps.2 stepped⟩) run reached
  exact (mergesInOrder_iff both.1).mpr both.2

end

def put (value : UInt8) : WalOperation := .put [7] [value]

def started : WalRun := ⟨.new 1 fun _ => [], fun _ => [], fun _ => false, 0⟩

def logged : WalRun :=
  ((walRuns markedFormat 1).run started [.advanceEpoch, .append 0 5 (put 1)]).getD started

theorem logged_reaches : (walRuns markedFormat 1).Reaches
    (fun run event => Fits markedFormat run event ∧ InTurn run event) logged := by
  have initially : (walRuns markedFormat 1).Reaches
    (fun run event => Fits markedFormat run event ∧ InTurn run event) started := .initial ⟨rfl, rfl⟩
  have advanced := initially.next .advanceEpoch ⟨trivial, trivial⟩ rfl
  refine advanced.next (.append 0 5 (put 1)) ⟨fun writer isWriter => ?_, nofun⟩ rfl
  cases isWriter
  decide +kernel

theorem mergesInOrder_of_reaches_put :
    logged.appended 0 = [⟨1, 0, 0, 5, put 1⟩] ∧ MergesInOrder markedFormat 1 logged :=
  ⟨rfl, mergesInOrder_of_reaches logged_reaches⟩

/-- The manager is opened again and the key is put again: the second put is merged first. -/
theorem not_mergesInOrder : ∃ run, (walRuns markedFormat 1).Reaches (Fits markedFormat) run ∧
    ¬MergesInOrder markedFormat 1 run := by
  have reached : (walRuns markedFormat 1).Reaches (Fits markedFormat) logged :=
    logged_reaches.invariant (fun _ => .initial) fun _ _ _ reached keeps => reached.step keeps.1
  have tracked := tracked_of_reaches reached
  obtain ⟨writer, isWriter, before⟩ := tracked 0 Nat.one_pos
  let kept : Nat → Nat := fun _ => writer.buffered.length
  obtain ⟨manager, opened⟩ := @open_of_decoded markedFormat (logged.disk kept) 1
    fun core isCore => let ⟨_, isWriter, before⟩ := tracked core isCore
      ⟨_, before.decoded_disk isWriter kept⟩
  let reopened : WalRun := ⟨manager, logged.durable markedFormat kept, fun _ => true, 5⟩
  have isOpened : (walRuns markedFormat 1).step logged (.restart kept) = some reopened := by
    simp only [walRuns, opened]
    rfl
  have isAfter := (open_spec opened Nat.one_pos).2
  have fits : Fits markedFormat reopened (.append 0 1 (put 2)) := by
    intro writer isWriter
    cases isAfter.symm.trans isWriter
    show markedFormat.Accepts ⟨0, 0, 0, 6, put 2⟩
    decide +kernel
  have again := (reached.next (.restart kept) trivial isOpened).next _ fits
    (Option.map_eq_some_iff.mpr ⟨_, isAfter, rfl⟩)
  refine ⟨_, again, fun inOrder => ?_⟩
  have sorted := (mergesInOrder_iff (tracked_of_reaches again)).mp inOrder 0 Nat.one_pos
  simp only [update_self, reopened, before.durable_all isWriter kept le_rfl] at sorted
  change Pairwise Precedes [⟨1, 0, 0, 5, put 1⟩, ⟨0, 0, 0, 6, put 2⟩] at sorted
  exact absurd sorted (by decide)

end LaminarDB.Storage

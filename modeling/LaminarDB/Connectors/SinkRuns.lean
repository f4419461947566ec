import LaminarDB.Library.Transition

/-!
# Runs of an exactly-once sink

The calls that one exactly-once sink receives from its task and the checkpoint coordinator, with
the failures of the other sinks, of the checkpoint store and of the process as choices of the
environment.

The task handles its commands in the order in which the coordinator sends them, so a command
that the coordinator gives up waiting for is one whose result it does not use. Result rows are
told apart; a row that a checkpoint does not cover is produced again after a restart.
-/

namespace LaminarDB.Connectors.Sinks

open Library

inductive SinkCall (Row : Type) where
  | writeBatch (batch : List Row)
  | flush
  | beginEpoch (epoch : Nat)
  | preCommit (epoch : Nat)
  | commitEpoch (epoch : Nat)
  | rollbackEpoch (epoch : Nat)
  | close
deriving DecidableEq

/-- What a call leaves in the external system, the connector after it and whether it succeeds. -/
structure Effect (Target Sink : Type) where
  target : Target
  sink : Sink
  ok : Bool

/-- A sink connector over an external system. `Answers` is what the system answers in a call. -/
structure Connector (Row : Type) where
  Target : Type
  Sink : Type
  Answers : Type
  empty : Target
  /-- `open`, on a connector that has just been built. -/
  openSink : Target → Answers → Option Sink
  call : Target → Sink → SinkCall Row → Answers → Effect Target Sink

/-- A stored manifest: its epoch, the rows up to its source offsets and whether the sink is marked
as committed. -/
structure Saved (Row : Type) where
  epoch : Nat
  accepted : List Row
  committed : Bool
deriving DecidableEq

inductive Phase where
  /-- The sink is open, and the epoch of the recovered manifest is to be rolled back. -/
  | recovering (epoch : Nat)
  | starting
  | running
  | preCommitted
  | persisted
  | decided (committed : Bool)
  /-- The pipeline could not start. -/
  | stopping
deriving DecidableEq

variable {Row : Type} (connector : Connector Row)

/-- A running process: the connector, its task and the coordinator. Accepted rows are those of the
recovered manifest and of `write_batch`, pending ones those since the last commit or rollback. -/
structure Process where
  sink : connector.Sink
  epochPoisoned : Bool
  epoch : Nat
  phase : Phase
  accepted : List Row
  pending : List Row

/-- What outlives a process: the external system and the last manifest; with the rows that
`rollback_epoch` has discarded and the last call with its result. -/
structure World where
  target : connector.Target
  saved : Option (Saved Row)
  discarded : List Row
  last : Option (SinkCall Row × Bool)

structure SinkRun where
  world : World connector
  process : Option (Process connector)

/-- What the coordinator, the task and their environment do while a process runs. -/
inductive Command (connector : Connector Row) where
  /-- Recovery rolls back a sink that the manifest does not mark as committed. -/
  | rollbackRecovered (answers : connector.Answers)
  /-- `begin_initial_epoch`; the epoch is rolled back if another sink cannot begin it. -/
  | beginInitial (answers : connector.Answers) (undo : Option connector.Answers)
  | write (batch : List Row) (answers : connector.Answers)
  /-- The flush timer of the task. -/
  | tick (answers : connector.Answers)
  | preCommit (answers : connector.Answers)
  /-- The checkpoint fails before its manifest is stored. -/
  | abandon
  | save
  /-- The manifest could not be stored, or was stored too late for the coordinator. -/
  | saveFails (stored : Bool) (answers : connector.Answers)
  | commit (answers : connector.Answers)
  /-- All sinks have committed. The next epoch is begun, and rolled back if another sink cannot
  begin it. -/
  | finish (updated : Bool) (answers : connector.Answers) (undo : Option connector.Answers)
  /-- A sink has not committed. The manifest may be updated with what became of this one. -/
  | fallShort (status : Option Bool)
  /-- The channel of the task is closed. -/
  | close (flushing closing : connector.Answers)

inductive SinkEvent (connector : Connector Row) where
  | start (answers : connector.Answers)
  | command (command : Command connector)
  | crash

variable {connector : Connector Row}

namespace Process

def start (saved : Option (Saved Row)) (sink : connector.Sink) : Process connector :=
  match saved with
  | none =>
    { sink, epochPoisoned := false, epoch := 1, phase := .starting, accepted := [], pending := [] }
  | some saved =>
    { sink
      epochPoisoned := false
      epoch := saved.epoch + 1
      phase := if saved.committed then .starting else .recovering saved.epoch
      accepted := saved.accepted
      pending := [] }

variable (process : Process connector)

/-- The rows that a call has taken or settled, and the poison of the epoch. -/
def record : SinkCall Row → Bool → Process connector
  | .writeBatch batch, true =>
    { process with accepted := process.accepted ++ batch, pending := process.pending ++ batch }
  | .writeBatch _, false => { process with epochPoisoned := true }
  | .beginEpoch _, true => { process with epochPoisoned := false }
  | .commitEpoch _, true => { process with pending := [] }
  | .rollbackEpoch _, _ => { process with pending := [] }
  | _, _ => process

def refuses : SinkCall Row → Bool
  | .preCommit _ => process.epochPoisoned
  | .commitEpoch _ => process.epochPoisoned
  | _ => false

end Process

/-- The rows of a batch are produced for the first time since the manifest. -/
def Fresh [DecidableEq Row] (accepted batch : List Row) : Prop :=
  batch.Nodup ∧ ∀ row ∈ batch, row ∉ accepted

instance [DecidableEq Row] (accepted batch : List Row) : Decidable (Fresh accepted batch) :=
  inferInstanceAs (Decidable (_ ∧ _))

namespace World

variable (world : World connector)

def savedEpoch : Nat :=
  match world.saved with
  | none => 0
  | some saved => saved.epoch

def covered : List Row :=
  match world.saved with
  | none => []
  | some saved => saved.accepted

/-- `save_manifest`: the sinks are pending. -/
def store (process : Process connector) : World connector :=
  { world with saved := some ⟨process.epoch, process.accepted, false⟩ }

variable (committed : Bool)

/-- `update_manifest_only`. -/
def mark : World connector :=
  { world with saved := world.saved.map fun saved => { saved with committed } }

@[simp]
theorem mark_savedEpoch : (world.mark committed).savedEpoch = world.savedEpoch := by
  unfold savedEpoch mark
  cases world.saved <;> rfl

@[simp]
theorem mark_covered : (world.mark committed).covered = world.covered := by
  unfold covered mark
  cases world.saved <;> rfl

end World

structure Handled (connector : Connector Row) where
  world : World connector
  process : Process connector
  ok : Bool

def Handled.goto {connector : Connector Row} (handled : Handled connector) (phase : Phase) :
    SinkRun connector where
  world := handled.world
  process := some { handled.process with phase }

theorem Process.start_eq {world : World connector} {sink : connector.Sink} :
    ∃ phase, (phase = .starting ∨ phase = .recovering world.savedEpoch) ∧
      start world.saved sink =
        { sink
          epochPoisoned := false
          epoch := world.savedEpoch + 1
          phase
          accepted := world.covered
          pending := [] } := by
  unfold World.savedEpoch World.covered Process.start
  cases world.saved with
  | none => exact ⟨.starting, .inl rfl, rfl⟩
  | some saved =>
    cases committed : saved.committed with
    | false => exact ⟨.recovering saved.epoch, .inr rfl, by simp [committed]⟩
    | true => exact ⟨.starting, .inl rfl, by simp [committed]⟩

section Steps

variable [DecidableEq Row]

def discardedBy (discarded pending : List Row) : SinkCall Row → Bool → List Row
  | .writeBatch batch, true => discarded.filter fun row => row ∉ batch
  | .rollbackEpoch _, _ => discarded ++ pending
  | _, _ => discarded

variable (world : World connector) (process : Process connector)

/-- One turn of `run_sink_task`. -/
def handle (call : SinkCall Row) (answers : connector.Answers) : Handled connector :=
  if process.refuses call then
    { world := { world with last := some (call, false) }, process, ok := false }
  else
    let effect := connector.call world.target process.sink call answers
    { world :=
        { target := effect.target
          saved := world.saved
          discarded := discardedBy world.discarded process.pending call effect.ok
          last := some (call, effect.ok) }
      process := { process with sink := effect.sink }.record call effect.ok
      ok := effect.ok }

/-- `begin_epoch`, and `rollback_epoch` if another sink cannot begin the epoch. -/
def beginEpoch
    (answers : connector.Answers) (undo : Option connector.Answers) : Handled connector :=
  let begun := handle world process (.beginEpoch process.epoch) answers
  match begun.ok, undo with
  | true, some undoing =>
    { handle begun.world begun.process (.rollbackEpoch process.epoch) undoing with ok := false }
  | _, _ => begun

def Process.step :
    Command connector → Option (SinkRun connector)
  | .rollbackRecovered answers =>
    match process.phase with
    | .recovering epoch =>
      some ((handle world process (.rollbackEpoch epoch) answers).goto .starting)
    | _ => none
  | .beginInitial answers undo =>
    if process.phase = .starting then
      let begun := beginEpoch world process answers undo
      some (begun.goto (if begun.ok then .running else .stopping))
    else none
  | .write batch answers =>
    if process.phase = .running ∧ Fresh process.accepted batch then
      some ((handle world process (.writeBatch batch) answers).goto .running)
    else none
  | .tick answers => some ((handle world process .flush answers).goto process.phase)
  | .preCommit answers =>
    if process.phase = .running then
      let prepared := handle world process (.preCommit process.epoch) answers
      some (prepared.goto (if prepared.ok then .preCommitted else .running))
    else none
  | .abandon =>
    if process.phase = .preCommitted then
      some ⟨world, some { process with phase := .running }⟩
    else none
  | .save =>
    if process.phase = .preCommitted then
      some ⟨world.store process, some { process with phase := .persisted }⟩
    else none
  | .saveFails stored answers =>
    if process.phase = .preCommitted then
      let world := if stored then world.store process else world
      some ((handle world process (.rollbackEpoch process.epoch) answers).goto .running)
    else none
  | .commit answers =>
    if process.phase = .persisted then
      let decided := handle world process (.commitEpoch process.epoch) answers
      some (decided.goto (.decided decided.ok))
    else none
  | .finish updated answers undo =>
    if process.phase = .decided true then
      let world := if updated then world.mark true else world
      let process := { process with epoch := process.epoch + 1 }
      some ((beginEpoch world process answers undo).goto .running)
    else none
  | .fallShort status =>
    let committed := process.phase = .decided true
    if process.phase = .persisted ∨ committed ∨ process.phase = .decided false then
      let world :=
        match status with
        | none => world
        | some marked => world.mark (marked && committed)
      some ⟨world, some { process with phase := .running }⟩
    else none
  | .close flushing closing =>
    if process.phase = .running ∨ process.phase = .stopping then
      let flushed := handle world process .flush flushing
      let closed := handle flushed.world flushed.process .close closing
      some ⟨{ closed.world with last := none }, none⟩
    else none

inductive Process.Steps (world : World connector) (process : Process connector) :
    Command connector → SinkRun connector → Prop where
  | rollbackRecovered {epoch answers} (phase : process.phase = .recovering epoch) :
      Steps world process (.rollbackRecovered answers)
        ((handle world process (.rollbackEpoch epoch) answers).goto .starting)
  | beginInitial {answers undo} (phase : process.phase = .starting) :
      Steps world process (.beginInitial answers undo)
        ((beginEpoch world process answers undo).goto
          (if (beginEpoch world process answers undo).ok then .running else .stopping))
  | write {batch answers} (phase : process.phase = .running)
      (fresh : Fresh process.accepted batch) :
      Steps world process (.write batch answers)
        ((handle world process (.writeBatch batch) answers).goto .running)
  | tick {answers} :
      Steps world process (.tick answers) ((handle world process .flush answers).goto process.phase)
  | preCommit {answers} (phase : process.phase = .running) :
      Steps world process (.preCommit answers)
        ((handle world process (.preCommit process.epoch) answers).goto
          (if (handle world process (.preCommit process.epoch) answers).ok then .preCommitted
            else .running))
  | abandon (phase : process.phase = .preCommitted) :
      Steps world process .abandon ⟨world, some { process with phase := .running }⟩
  | save (phase : process.phase = .preCommitted) :
      Steps world process .save ⟨world.store process, some { process with phase := .persisted }⟩
  | saveFails {stored answers} (phase : process.phase = .preCommitted) :
      Steps world process (.saveFails stored answers)
        ((handle (if stored then world.store process else world) process
          (.rollbackEpoch process.epoch) answers).goto .running)
  | commit {answers} (phase : process.phase = .persisted) :
      Steps world process (.commit answers)
        ((handle world process (.commitEpoch process.epoch) answers).goto
          (.decided (handle world process (.commitEpoch process.epoch) answers).ok))
  | finish {updated answers undo} (phase : process.phase = .decided true) :
      Steps world process (.finish updated answers undo)
        ((beginEpoch (if updated then world.mark true else world)
          { process with epoch := process.epoch + 1 } answers undo).goto .running)
  | fallShort {status} {marked : Option Bool}
      (phase : process.phase = .persisted ∨ ∃ committed, process.phase = .decided committed) :
      Steps world process (.fallShort status)
        ⟨marked.elim world world.mark, some { process with phase := .running }⟩
  | close {flushing closing} (phase : process.phase = .running ∨ process.phase = .stopping) :
      Steps world process (.close flushing closing)
        ⟨{ (handle (handle world process .flush flushing).world
            (handle world process .flush flushing).process .close closing).world with
            last := none }, none⟩

variable {world : World connector} {process : Process connector}

theorem Process.steps_of_step {command : Command connector} {next : SinkRun connector}
    (stepped : process.step world command = some next) : process.Steps world command next := by
  cases command with
  | rollbackRecovered answers =>
    simp only [step] at stepped
    split at stepped <;> cases stepped
    rename_i epoch phase
    exact .rollbackRecovered phase
  | fallShort status =>
    obtain ⟨phase, isNext⟩ := Option.ite_none_right_eq_some.mp stepped
    cases isNext
    have inPhase : process.phase = .persisted ∨
        ∃ committed, process.phase = .decided committed := by
      rcases phase with persisted | committed | failed
      · exact .inl persisted
      · exact .inr ⟨_, committed⟩
      · exact .inr ⟨_, failed⟩
    cases status with
    | none => exact @Steps.fallShort _ _ _ _ _ none none inPhase
    | some marked => exact @Steps.fallShort _ _ _ _ _ _ (some _) inPhase
  | tick answers =>
    cases stepped
    exact .tick
  | write batch answers =>
    obtain ⟨⟨phase, fresh⟩, isNext⟩ := Option.ite_none_right_eq_some.mp stepped
    cases isNext
    exact .write phase fresh
  | beginInitial | preCommit | abandon | save | saveFails | commit | finish | close =>
    obtain ⟨phase, isNext⟩ := Option.ite_none_right_eq_some.mp stepped
    cases isNext
    constructor
    exact phase

def SinkRun.step (run : SinkRun connector) : SinkEvent connector → Option (SinkRun connector)
  | .start answers =>
    match run.process with
    | some _ => none
    | none =>
      match connector.openSink run.world.target answers with
      | none => some run
      | some sink => some { run with process := some (.start run.world.saved sink) }
  | .command command => run.process.bind fun process => process.step run.world command
  | .crash =>
    match run.process with
    | none => none
    | some _ => some ⟨{ run.world with last := none }, none⟩

def SinkRun.initial (connector : Connector Row) : SinkRun connector where
  world := { target := connector.empty, saved := none, discarded := [], last := none }
  process := none

/-- The runs of a sink, from an empty external system and an empty store. -/
def sinkRuns (connector : Connector Row) :
    TransitionSystem (SinkRun connector) (SinkEvent connector) where
  initial run := run = .initial connector
  step := SinkRun.step

variable {answers : connector.Answers} {call : SinkCall Row}

theorem handle_eq
    {effect : Effect connector.Target connector.Sink} (accepts : process.refuses call = false)
    (called : connector.call world.target process.sink call answers = effect) :
    handle world process call answers =
      { world :=
          { target := effect.target
            saved := world.saved
            discarded := discardedBy world.discarded process.pending call effect.ok
            last := some (call, effect.ok) }
        process := { process with sink := effect.sink }.record call effect.ok
        ok := effect.ok } := by
  simp [handle, accepts, called]

theorem handle_refused (refused : process.refuses call = true) :
    handle world process call answers =
      ⟨{ world with last := some (call, false) }, process, false⟩ := by
  simp [handle, refused]

variable (world process) in
theorem beginEpoch_cases {undo : Option connector.Answers} :
    beginEpoch world process answers undo =
        handle world process (.beginEpoch process.epoch) answers ∨
      ∃ undoing, undo = some undoing ∧ beginEpoch world process answers undo =
        { handle (handle world process (.beginEpoch process.epoch) answers).world
            (handle world process (.beginEpoch process.epoch) answers).process
            (.rollbackEpoch process.epoch) undoing with ok := false } := by
  unfold beginEpoch
  cases begun : (handle world process (.beginEpoch process.epoch) answers).ok with
  | false => exact .inl (by simp only [begun])
  | true =>
    cases undo with
    | none => exact .inl (by simp only [begun])
    | some undoing => exact .inr ⟨undoing, rfl, by simp only [begun]⟩

theorem close_unchanged {flushing closing : connector.Answers} {after : connector.Sink}
    {flushed closed : Bool} (flush : connector.call world.target process.sink .flush flushing =
      ⟨world.target, process.sink, flushed⟩)
    (close : connector.call world.target process.sink .close closing =
      ⟨world.target, after, closed⟩) :
    { (handle (handle world process .flush flushing).world
        (handle world process .flush flushing).process .close closing).world with last := none } =
      { world with last := none } := by
  have first : handle world process .flush flushing =
      ⟨{ world with last := some (.flush, flushed) }, process, flushed⟩ := by
    rw [handle_eq rfl flush]
    rfl
  have second : (handle { world with last := some (.flush, flushed) } process .close
      closing).world = { world with last := some (.close, closed) } := by
    simp [handle, Process.refuses, close, discardedBy]
  rw [first, second]

def SinkRun.Holds (idle : World connector → Prop)
    (busy : World connector → Process connector → Prop) (run : SinkRun connector) : Prop :=
  match run.process with
  | none => idle run.world
  | some process => busy run.world process

theorem holds_of_reaches {admits : SinkRun connector → SinkEvent connector → Prop}
    {idle : World connector → Prop} {busy : World connector → Process connector → Prop}
    (initially : idle (SinkRun.initial connector).world)
    (started : ∀ world answers sink, idle world →
      admits ⟨world, none⟩ (.start answers) →
      connector.openSink world.target answers = some sink → busy world (.start world.saved sink))
    (commanded : ∀ world process command next, busy world process →
      admits ⟨world, some process⟩ (.command command) → process.Steps world command next →
      next.Holds idle busy)
    (crashed : ∀ world process, busy world process → admits ⟨world, some process⟩ .crash →
      idle { world with last := none })
    {run : SinkRun connector} (reached : (sinkRuns connector).Reaches admits run) :
    run.Holds idle busy := by
  refine reached.invariant ?_ ?_
  · rintro run rfl
    exact initially
  · rintro ⟨world, process⟩ event next holds admitted stepped
    cases event with
    | start answers =>
      cases process with
      | some process => exact nomatch stepped
      | none =>
        cases opened : connector.openSink world.target answers with
            (simp only [sinkRuns, SinkRun.step, opened] at stepped; cases stepped)
        | none => exact holds
        | some sink =>
          exact started world answers sink holds admitted opened
    | command command =>
      cases process with
      | none => exact nomatch stepped
      | some process =>
        exact commanded world process command next holds admitted (Process.steps_of_step stepped)
    | crash =>
      cases process with cases stepped
      | some process => exact crashed world process holds admitted

end Steps

end LaminarDB.Connectors.Sinks

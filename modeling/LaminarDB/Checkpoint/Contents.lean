import LaminarDB.Checkpoint.Queue

/-!
# What an exactly-once sink contains

`Exact` says that a list holds the output of every record below some offsets
once and nothing else. `Accounted` relates the contents of a sink to the
offsets of the latest manifest and to the input that has been processed: what
is visible is exact for the manifest, except while the epoch of that manifest
is not committed, and an open epoch without a failed write lacks only what is
queued or still to be sent.
-/

namespace LaminarDB.Checkpoint

open Library List SinkTask SinkCommand EpochLedger

def Exact (routes : Record → Bool) (offsets : Nat → Nat) (items : List Record) : Prop :=
  ∀ record, items.count record =
    if routes record = true ∧ record.index < offsets record.source then 1 else 0

variable {routes : Record → Bool}

theorem count_cycle {source count start : Nat} (record : Record) :
    let cycle := (List.range count).map fun step => ({ source, index := start + step } : Record)
    (cycle.filter routes).count record =
      if routes record = true ∧ record.source = source ∧ start ≤ record.index ∧
        record.index < start + count then 1 else 0 := by
  intro cycle
  have distinct : (cycle.filter routes).Nodup := by
    refine (nodup_range.map ?_).filter _
    intro left right same
    simpa using same
  have mem : record ∈ cycle.filter routes ↔
      routes record = true ∧ record.source = source ∧ start ≤ record.index ∧
        record.index < start + count := by
    rw [mem_filter, mem_map, and_comm]
    refine and_congr_right fun _ => ⟨?_, ?_⟩
    · rintro ⟨step, inRange, rfl⟩
      rw [mem_range] at inRange
      exact ⟨rfl, Nat.le_add_right start step, Nat.add_lt_add_left inRange start⟩
    · rintro ⟨rfl, above, below⟩
      refine ⟨record.index - start, by rw [mem_range]; omega, ?_⟩
      rw [Nat.add_sub_cancel' above]
  rw [List.Nodup.count distinct]
  simp only [mem]

theorem Exact.cycle {offsets : Nat → Nat} {items : List Record}
    (exact : Exact routes offsets items) (source count : Nat) :
    Exact routes (Function.update offsets source (offsets source + count))
      (items ++ ((List.range count).map fun step =>
        ({ source, index := offsets source + step } : Record)).filter routes) := by
  intro record
  rw [count_append, exact record, count_cycle]
  by_cases same : record.source = source
  · subst source
    rw [Function.update_self]
    by_cases routed : routes record = true
    · simp only [routed, true_and]
      split <;> split <;> split <;> omega
    · simp [routed]
  · simp [same]

def View.base (view : View) : Nat → Nat :=
  view.latest.elim (fun _ => 0) CheckpointManifest.sourceOffsets

def View.total (view : View) : List Record :=
  view.task.ledger.contents ++ view.task.queuedBatches.flatten ++ view.pending.flatten

variable (routes : Record → Bool) (view : View)

/-- The open epoch is complete up to what is queued or still to be sent, unless
a write has failed. -/
structure Filling : Prop where
  complete : view.task.running = true → view.task.epochPoisoned = false →
    view.task.ledger.openEpoch = some view.epoch → Exact routes view.consumed view.total
  fresh : view.task.ledger.openEpoch = some view.epoch → view.epoch ∉ view.task.ledger.committed

def Complete : Prop :=
  view.task.ledger.openEpoch = some view.epoch →
    Exact routes view.consumed view.task.ledger.contents ∧ view.epoch ∉ view.task.ledger.committed

def StoredNow : Prop :=
  ∃ manifest, view.latest = some manifest ∧ manifest.epoch = view.epoch ∧
    manifest.sourceOffsets = view.consumed

/-- The sink stands where the sources are positioned, and a new epoch follows. -/
structure Restarted : Prop where
  visible : Exact routes view.base view.task.ledger.visible
  positioned : view.base = view.consumed
  later : ∀ manifest, view.latest = some manifest → manifest.epoch < view.epoch

def Begun : Prop :=
  view.task.ledger.openEpoch = some view.epoch ∧ view.task.ledger.staged = []

structure Closed : Prop where
  visible : Exact routes view.base view.task.ledger.visible
  closed : view.task.ledger.current = none

/-- What a sink contains at a stage, by whether the awaited command has succeeded. -/
def Stage.Contains : Stage → Bool → Prop
  | .down, _ => Exact routes view.base view.task.ledger.visible
  | .starting startup _, false =>
    Restarted routes view ∧ (startup = false → view.task.ledger.current = none)
  | .starting _ _, true => Restarted routes view ∧ Begun view
  | .started, _ => Restarted routes view ∧ Begun view
  | .free, _ => Filling routes view
  | .preparing _, false => Filling routes view
  | .preparing _, true => Complete routes view
  | .prepared, _ => Complete routes view
  | .deciding _, false =>
    StoredNow view ∧ Complete routes view ∧ view.task.ledger.openEpoch = some view.epoch
  | .deciding _, true => StoredNow view ∧ Closed routes view
  | .decided true, _ => StoredNow view ∧ Closed routes view
  | .decided false, _ =>
    StoredNow view ∧ Complete routes view ∧ view.task.queuedBatches = []

/-- The contents of a sink, its queue and the latest manifest fit together. -/
structure Accounted : Prop where
  settled : Exact routes view.base view.task.ledger.visible ∨
    ∃ manifest, view.latest = some manifest ∧ manifest.epoch ∉ view.task.ledger.committed
  below : ∀ epoch ∈ view.task.ledger.committed,
    ∃ manifest, view.latest = some manifest ∧ epoch ≤ manifest.epoch
  commits : ∀ epoch ticket queue, view.task.queue = .commitEpoch epoch ticket :: queue →
    (∃ manifest, view.latest = some manifest ∧ manifest.epoch = epoch) ∧
      (view.task.ledger.openEpoch = some epoch → Exact routes view.base view.task.ledger.contents)
  single : ∀ command ∈ view.task.queue.tail, command.isCommit = false
  recent : view.stage ≠ .down →
    ∀ manifest, view.latest = some manifest → manifest.epoch ≤ view.epoch
  sent : view.stage ≠ .free → view.pending = []
  contains : view.stage.Contains routes view view.succeeded

variable {stage : Stage} {succeeded : Bool} {routes : Record → Bool} {command : SinkCommand Record}
  {view : View}

section Moves

theorem StoredNow.base_eq (stored : StoredNow view) : view.base = view.consumed := by
  obtain ⟨manifest, isLatest, _, offsets⟩ := stored
  simp [View.base, isLatest, offsets]

theorem Filling.of_complete (complete : Complete routes view)
    (drained : view.task.queuedBatches = []) (sent : view.pending = []) : Filling routes view := by
  refine ⟨fun _ _ isOpen => ?_, fun isOpen => (complete isOpen).2⟩
  simp only [View.total, drained, sent, flatten_nil, append_nil]
  exact (complete isOpen).1

theorem Complete.of_closed (closed : view.task.ledger.current = none) : Complete routes view := by
  intro isOpen
  simp [openEpoch, closed] at isOpen

theorem Filling.of_closed (closed : view.task.ledger.current = none) : Filling routes view := by
  have notOpen : view.task.ledger.openEpoch ≠ some view.epoch := by
    simp [openEpoch, closed]
  exact ⟨fun _ _ isOpen => absurd isOpen notOpen, fun isOpen => absurd isOpen notOpen⟩

theorem Restarted.complete (restarted : Restarted routes view) (begun : Begun view)
    (below : ∀ epoch ∈ view.task.ledger.committed,
      ∃ manifest, view.latest = some manifest ∧ epoch ≤ manifest.epoch) : Complete routes view := by
  intro _
  refine ⟨?_, ?_⟩
  · rw [contents, begun.2, append_nil, ← restarted.positioned]
    exact restarted.visible
  · intro twice
    obtain ⟨manifest, isLatest, notLater⟩ := below view.epoch twice
    have later := restarted.later manifest isLatest
    omega

theorem Filling.enqueue (filling : Filling routes view) (noBatch : command.batch? = none)
    {stage : Stage} {ack : Option CallResult} :
    Filling routes { view with stage, task := view.task.enqueue command, ack } := by
  refine ⟨?_, filling.fresh⟩
  simp only [View.total, queuedBatches_enqueue, noBatch, Option.toList_none, append_nil]
  exact filling.complete

theorem Stage.Contains.abort (contains : stage.Contains routes view succeeded)
    {ack : Option CallResult} :
    stage.Contains routes { view with task := view.task.abort, ack } succeeded := by
  have halted : Filling routes view → Filling routes { view with task := view.task.abort, ack } :=
    fun filling => ⟨nofun, filling.fresh⟩
  cases stage with
  | down | prepared => exact contains
  | free => exact halted contains
  | starting startup waiting => cases succeeded <;> exact ⟨{ contains.1 with }, contains.2⟩
  | started => exact ⟨{ contains.1 with }, contains.2⟩
  | preparing waiting =>
    cases succeeded with
    | false => exact halted contains
    | true => exact contains
  | deciding waiting =>
    cases succeeded with
    | false => exact contains
    | true => exact ⟨contains.1, { contains.2 with }⟩
  | decided committed =>
    cases committed with
    | true => exact ⟨contains.1, { contains.2 with }⟩
    | false => exact ⟨contains.1, contains.2.1, rfl⟩

end Moves

namespace Accounted

section

variable (accounted : Accounted routes view) {ack : Option CallResult}

include accounted

theorem goto (busy : view.stage ≠ .down ∧ view.stage ≠ .free)
    (contains : stage.Contains routes { view with stage, ack } (ack.any Except.isOk)) :
    Accounted routes { view with stage, ack } :=
  { accounted with
    recent := fun _ => accounted.recent busy.1
    sent := fun _ => accounted.sent busy.2
    contains }

theorem enqueue {handed pending : List (List Record)} (notCommit : command.isCommit = false)
    (up : stage ≠ .down → view.stage ≠ .down) (sent : stage ≠ .free → pending = [])
    (contains : stage.Contains routes
      { view with stage, task := view.task.enqueue command, ack, handed, pending }
      (ack.any Except.isOk)) :
    Accounted routes
      { view with stage, task := view.task.enqueue command, ack, handed, pending } := by
  refine
    { accounted with
      commits := ?_
      single := ?_
      recent := fun isUp => accounted.recent (up isUp)
      sent
      contains }
  · intro epoch ticket queue isHead
    rw [enqueue_queue] at isHead
    cases before : view.task.queue with (rw [before] at isHead; cases isHead)
    | nil => cases notCommit
    | cons first rest => exact accounted.commits epoch ticket rest before
  · intro later mem
    rw [enqueue_queue] at mem
    cases before : view.task.queue with
    | nil => simp [before] at mem
    | cons first rest =>
      rw [before, cons_append, tail_cons, mem_append, mem_singleton] at mem
      rcases mem with earlier | rfl
      · exact accounted.single later (by rw [before]; exact earlier)
      · exact notCommit

end

end Accounted

section Handling

variable {queue : List (SinkCommand Record)} {result : CallResult} {ack : Option CallResult}

theorem Filling.handled (filling : Filling routes view) (running : view.task.running = true)
    (notBegin : command.isBegin = false) (pending : view.task.queue = command :: queue) :
    Filling routes (view.handle queue result command ack) := by
  refine ⟨?_, ?_⟩
  · intro _ unpoisoned isOpen
    obtain ⟨before, _, contents⟩ := handle_open _ _ notBegin isOpen
    have clean := (handle_clean _ _ notBegin unpoisoned).1
    have same : View.total (view.handle queue result command ack) = view.total := by
      simp only [View.total, contents (.inr unpoisoned), queuedBatches_cons pending,
        handle_queuedBatches, flatten_append, append_assoc]
      rfl
    rw [same]
    exact filling.complete running clean before
  · intro isOpen
    obtain ⟨before, committed, _⟩ := handle_open _ _ notBegin isOpen
    rw [committed]
    exact filling.fresh before

theorem Complete.handled (complete : Complete routes view)
    (notBegin : command.isBegin = false) (noBatch : command.batch? = none) :
    Complete routes (view.handle queue result command ack) := by
  intro isOpen
  obtain ⟨before, committed, contents⟩ := handle_open _ _ notBegin isOpen
  rw [committed, contents (.inl noBatch), noBatch, Option.toList_none, flatten_nil, append_nil]
  exact complete before

namespace Accounted

section

variable (accounted : Accounted routes view)

include accounted

theorem ledger_handled (pending : view.task.queue = command :: queue)
    (inEpoch : ∀ batch, command = .writeBatch batch → view.task.ledger.current.isSome = true)
    {ledger : EpochLedger Record}
    (isAfter : ledger = ((view.task.setQueue queue).handle result command).1.ledger) :
    (Exact routes view.base view.task.ledger.visible → Exact routes view.base ledger.visible) ∧
      (Exact routes view.base ledger.visible ∨
        ∃ manifest, view.latest = some manifest ∧ manifest.epoch ∉ ledger.committed) ∧
      ∀ epoch ∈ ledger.committed,
        ∃ manifest, view.latest = some manifest ∧ epoch ≤ manifest.epoch := by
  subst isAfter
  rcases handle_visible (view.task.setQueue queue) result inEpoch with
    ⟨same, committed⟩ | ⟨epoch, ticket, rfl, opened, _, isVisible, committed⟩
  · rw [same, committed]
    exact ⟨id, accounted.settled, accounted.below⟩
  · obtain ⟨⟨manifest, isLatest, isEpoch⟩, contents⟩ := accounted.commits epoch ticket queue pending
    rw [isVisible, committed]
    refine ⟨fun _ => contents opened, .inl (contents opened), forall_mem_cons.mpr ⟨?_, ?_⟩⟩
    · exact ⟨manifest, isLatest, Nat.le_of_eq isEpoch.symm⟩
    · exact accounted.below

theorem complete_of_clean (filling : Filling routes view) (running : view.task.running = true)
    (clean : view.task.epochPoisoned = false) (drained : view.task.queuedBatches = [])
    (waiting : view.stage ≠ .free) : Complete routes view := by
  intro isOpen
  have exact := filling.complete running clean isOpen
  simp only [View.total, drained, accounted.sent waiting, flatten_nil, append_nil] at exact
  exact ⟨exact, filling.fresh isOpen⟩

theorem contains_owed (running : view.task.running = true) (pending : view.task.queue = [command])
    (isStage : view.stage = stage) (awaits : stage.awaited view.epoch = some command)
    (contains : stage.Contains routes view false) {ticket : Nat} {reply : CallResult}
    (replied : ((view.task.setQueue []).handle result command).2 = some (ticket, reply)) :
    stage.Contains routes (view.handle [] result command ack) reply.isOk := by
  cases stage with
      first | obtain ⟨other, _, rfl⟩ := Option.map_eq_some_iff.mp awaits | cases awaits
  | starting =>
    cases replied
    obtain ⟨⟨visible, positioned, later⟩, closed⟩ := contains
    cases succeeded : result.isOk with
    | false =>
      have same : ((view.task.setQueue []).handle result
          (.beginEpoch view.epoch ticket)).1.ledger = view.task.ledger := by
        simp only [handle, call, succeeded]
        rfl
      refine ⟨⟨?_, positioned, later⟩, ?_⟩
      · rw [same]
        exact visible
      · rw [same]
        exact closed
    | true =>
      refine ⟨⟨?_, positioned, later⟩, ?_⟩
      · simp only [handle, call, succeeded]
        exact visible
      · simp only [View.handle, handle, call, succeeded]
        exact ⟨rfl, rfl⟩
  | preparing =>
    cases succeeded : reply.isOk with
    | false => exact contains.handled running rfl pending
    | true =>
      have clean := preCommit_clean replied succeeded
      have drained : view.task.queuedBatches = [] := by
        simp [queuedBatches, pending, batch?]
      exact (accounted.complete_of_clean contains running clean drained
        (by simp [isStage])).handled rfl rfl
  | deciding =>
    obtain ⟨stored, complete, isOpen⟩ := contains
    rcases handle_cases (view.task.setQueue []) result
      (.commitEpoch view.epoch other) with ⟨same, refused⟩ | ⟨_, ledger, answered⟩
    · cases replied.symm.trans refused
      rw [View.handle, same]
      exact ⟨stored, complete, isOpen⟩
    · cases replied.symm.trans answered
      cases succeeded : result.isOk with rw [succeeded] at ledger
      | false =>
        refine ⟨stored, ?_, by rw [ledger]; exact isOpen⟩
        rw [Complete, ledger]
        exact complete
      | true =>
        have committed := ledger.trans (apply_commit isOpen)
        refine ⟨stored, ?_, by rw [committed]⟩
        show Exact routes view.base _
        rw [committed, stored.base_eq]
        exact (complete isOpen).1

variable (inEpoch : ∀ batch, command = .writeBatch batch →
    view.task.ledger.current.isSome = true) (pending : view.task.queue = command :: queue)

include inEpoch pending

theorem contains_left (running : view.task.running = true) (left : stage.leaves command = true)
    (contains : stage.Contains routes view false) :
    stage.Contains routes (view.handle queue result command ack) false := by
  have notBegin := Stage.leaves_notBegin left
  cases stage with
  | down => exact (accounted.ledger_handled pending inEpoch rfl).1 contains
  | starting startup waiting =>
    obtain ⟨⟨visible, positioned, later⟩, closed⟩ := contains
    exact ⟨⟨(accounted.ledger_handled pending inEpoch rfl).1 visible, positioned, later⟩,
      fun notStartup => handle_closed _ _ notBegin (closed notStartup)⟩
  | free | preparing => exact contains.handled running notBegin pending
  | decided committed =>
    cases committed with
    | true => simp [Stage.leaves] at left
    | false =>
      obtain ⟨stored, complete, drained⟩ := contains
      rw [queuedBatches_cons pending] at drained
      obtain ⟨noBatch, rest⟩ := append_eq_nil_iff.mp drained
      refine ⟨stored, complete.handled notBegin (by simpa using noBatch), ?_⟩
      rw [handle_queuedBatches]
      exact rest
  | started | prepared | deciding => simp [Stage.leaves] at left

theorem handled (shaped : Shaped view) : Accounted routes (view.handled queue result command) := by
  have running := shaped.running pending
  have single := accounted.single
  rw [pending, tail_cons] at single
  obtain ⟨_, settled, below⟩ := accounted.ledger_handled pending inEpoch rfl
  refine
    { accounted with
      settled
      below
      commits := ?_
      single := ?_
      contains := ?_ }
  · intro epoch ticket rest isHead
    rw [handle_queue, setQueue_queue] at isHead
    have notCommit := single (.commitEpoch epoch ticket) (by simp [isHead])
    simp [isCommit] at notCommit
  · intro later mem
    rw [handle_queue, setQueue_queue] at mem
    exact single later (mem_of_mem_tail mem)
  · have contains := accounted.contains
    rcases shaped.first_cases pending with ⟨owed, rfl⟩ | ⟨left, noAck, other, _⟩
    · obtain ⟨noAck, awaits⟩ := View.owed_some owed
      obtain ⟨ticket, reply, _, replied, acked⟩ := View.acked_owed owed
      simp only [View.succeeded, noAck, Option.any_none] at contains
      rw [View.handled, acked]
      exact accounted.contains_owed running pending rfl awaits contains replied
    · rw [View.handled, View.acked_other shaped.quiet other, noAck]
      simp only [View.succeeded, noAck, Option.any_none] at contains
      exact accounted.contains_left inEpoch pending running left contains

end

end Accounted

end Handling

end LaminarDB.Checkpoint

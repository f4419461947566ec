import LaminarDB.Checkpoint.Steps

/-!
# Tickets and bookkeeping

What holds in every run: the ticket a loop waits for belongs to the sink it
was sent to, a sink task that has ended has an empty queue, and the lists a
loop works on split the exactly-once sinks into those that are done and those
that are left.
-/

namespace LaminarDB.Checkpoint

open Library List SinkTask Function

/-- The lists of a loop over sinks, and the data of the running checkpoint. -/
def Booked (config : Config) (state : State) : Prop :=
  match state.point with
  | .round (.beginning _ started) todo _ => started ++ todo = config.exactlyOnceSinks
  | .round .preCommitting todo _ => todo <:+ config.exactlyOnceSinks
  | .round (.committing manifest statuses) todo _ =>
    manifest.epoch = state.epoch ∧ manifest.sourceOffsets = state.offsets ∧
      statuses.map Prod.fst ++ todo = config.exactlyOnceSinks ∧
      ∀ entry ∈ statuses, entry.2 ≠ .pending
  | .persisting manifest =>
    manifest.epoch = state.epoch ∧ manifest.sourceOffsets = state.offsets
  | .updating manifest =>
    manifest.epoch = state.epoch ∧ manifest.sourceOffsets = state.offsets ∧
      manifest.sinkCommitStatuses.map Prod.fst = config.exactlyOnceSinks ∧
      ∀ entry ∈ manifest.sinkCommitStatuses, entry.2 ≠ .pending
  | _ => True

structure Wired (config : Config) (state : State) : Prop where
  queued : ∀ sink, ∀ command ∈ (state.sinks sink).queue, ∀ ticket,
    command.ticket? = some ticket → ticket < state.nextTicket
  acked : ∀ ticket, (state.acks ticket).isSome = true → ticket < state.nextTicket
  owner : ∀ phase sink todo ticket,
    state.point = .round phase (sink :: todo) (some ticket) →
    ticket < state.nextTicket ∧
      ∀ other, ∀ command ∈ (state.sinks other).queue, command.ticket? = some ticket → other = sink
  halted : ∀ sink, (state.sinks sink).running = false → (state.sinks sink).queue = []
  booked : Booked config state

variable {state next : State} {config : Config} {sink : Nat} {result : CallResult}
  {statuses : List (Nat × SinkCommitStatus)}

theorem wired_initial (initial : Initial state) : Wired config state := by
  obtain ⟨point, _, _, sinks, _, acks⟩ := initial
  refine
    { queued := ?_
      acked := by simp [acks]
      owner := by simp [point]
      halted := ?_
      booked := by simp [Booked, point] }
  · intro sink command mem
    rw [sinks sink] at mem
    simp [spawn] at mem
  · intro sink _
    rw [sinks sink]
    rfl

theorem handle_answered {command : SinkCommand Record} {queue : List (SinkCommand Record)}
    (pending : (state.sinks sink).queue = command :: queue) :
    ∀ reply ∈ (((state.sinks sink).setQueue queue).handle result command).2.toList,
      ∃ command ∈ (state.sinks sink).queue, command.ticket? = some reply.1 := by
  intro reply mem
  have isTicket := handle_ticket ((state.sinks sink).setQueue queue) result command
  rw [Option.mem_toList] at mem
  rw [mem, Option.map_some] at isTicket
  exact ⟨command, by simp [pending], isTicket.symm⟩

namespace Wired

section

variable (wired : Wired config state)

include wired

theorem frame (frame : Frame state next)
    (notWaiting : ∀ phase sink todo ticket, next.point ≠ .round phase (sink :: todo) (some ticket))
    (booked : Booked config next) : Wired config next where
  queued := by
    rw [frame.sinks, frame.nextTicket]
    exact wired.queued
  acked := by
    rw [frame.acks, frame.nextTicket]
    exact wired.acked
  owner := fun phase sink todo ticket point => absurd point (notWaiting phase sink todo ticket)
  halted := by
    rw [frame.sinks]
    exact wired.halted
  booked := booked

variable {command : SinkCommand Record}

theorem enqueue (running : (state.sinks sink).running = true)
    {handed : Nat → List (List Record)} {nextTicket : Nat} {point : Point}
    (tickets : state.nextTicket ≤ nextTicket)
    (fresh : ∀ ticket, command.ticket? = some ticket → ticket < nextTicket)
    (owner : ∀ phase owner todo ticket, point = .round phase (owner :: todo) (some ticket) →
      ticket < nextTicket ∧ ∀ other, ∀ queued ∈ ((state.enqueue sink command).sinks other).queue,
        queued.ticket? = some ticket → other = owner)
    (booked : Booked config { state.enqueue sink command with handed, nextTicket, point }) :
    Wired config { state.enqueue sink command with handed, nextTicket, point } where
  queued := by
    intro other queued mem ticket hasTicket
    by_cases same : other = sink
    · subst other
      simp only [State.enqueue, State.setSink, update_self,
        enqueue_queue, mem_append, mem_singleton] at mem
      rcases mem with earlier | new
      · exact Nat.lt_of_lt_of_le (wired.queued sink queued earlier ticket hasTicket) tickets
      · subst queued
        exact fresh ticket hasTicket
    · simp only [State.enqueue, State.setSink, update_of_ne same] at mem
      exact Nat.lt_of_lt_of_le (wired.queued other queued mem ticket hasTicket) tickets
  acked := fun ticket isAcked => Nat.lt_of_lt_of_le (wired.acked ticket isAcked) tickets
  owner := owner
  halted := by
    intro other ended
    by_cases same : other = sink
    · subst other
      simp [State.enqueue, State.setSink, SinkTask.enqueue, running] at ended
    · simp only [State.enqueue, State.setSink, update_of_ne same] at ended ⊢
      exact wired.halted other ended
  booked := booked

theorem setSink {task : SinkTask Record} {replies : List (Nat × CallResult)}
    (shorter : ∀ command ∈ task.queue, command ∈ (state.sinks sink).queue)
    (halted : task.running = false → task.queue = []) (answered : ∀ reply ∈ replies,
      ∃ command ∈ (state.sinks sink).queue, command.ticket? = some reply.1) :
    Wired config ((state.setSink sink task).acknowledge replies) := by
  have fewer : ∀ other, ∀ command ∈
      (((state.setSink sink task).acknowledge replies).sinks other).queue,
      command ∈ (state.sinks other).queue := by
    intro other command mem
    simp only [State.acknowledge, State.setSink] at mem
    by_cases same : other = sink
    · subst other
      rw [update_self] at mem
      exact shorter command mem
    · rw [update_of_ne same] at mem
      exact mem
  refine
    { queued := fun other command mem => wired.queued other command (fewer other command mem)
      acked := ?_
      owner := ?_
      halted := ?_
      booked := wired.booked }
  · intro ticket isAcked
    simp only [State.acknowledge, State.setSink, Option.isSome_or, Bool.or_eq_true] at isAcked
    rcases isAcked with isNew | earlier
    · obtain ⟨reply, mem, isTicket⟩ := lookup_isSome_iff.mp isNew
      rcases answered reply mem with ⟨command, queued, hasTicket⟩
      rw [← eq_of_beq isTicket] at hasTicket
      exact wired.queued sink command queued ticket hasTicket
    · exact wired.acked ticket earlier
  · intro phase owner todo ticket point
    rcases wired.owner phase owner todo ticket point with ⟨below, only⟩
    exact ⟨below, fun other command mem => only other command (fewer other command mem)⟩
  · intro other ended
    simp only [State.acknowledge, State.setSink] at ended ⊢
    by_cases same : other = sink
    · subst other
      rw [update_self] at ended ⊢
      exact halted ended
    · rw [update_of_ne same] at ended ⊢
      exact wired.halted other ended

theorem handled
    {queue : List (SinkCommand Record)} (pending : (state.sinks sink).queue = command :: queue) :
    Wired config
      ((state.setSink sink
          (((state.sinks sink).setQueue queue).handle result command).1).acknowledge
        (((state.sinks sink).setQueue queue).handle result command).2.toList) := by
  refine wired.setSink ?_ ?_ ?_
  · intro other mem
    rw [handle_queue, setQueue_queue] at mem
    rw [pending]
    exact mem_cons_of_mem _ mem
  · intro ended
    rw [handle_running, setQueue_running] at ended
    have empty := wired.halted sink ended
    simp [pending] at empty
  · exact handle_answered pending

theorem panicked (sink : Nat) :
    Wired config ((state.setSink sink (state.sinks sink).abort).acknowledge
      ((state.sinks sink).queue.filterMap (droppedAck (config.sinkName sink)))) :=
  wired.setSink (by simp [abort]) (by simp [abort]) (droppedAck_ticket (config.sinkName sink))

end

end Wired

theorem booked_finish : Booked config (finish config state statuses) := by
  unfold finish
  split <;> simp [Booked]

theorem finish_notWaiting (phase : Phase) (sink : Nat) {todo : List Nat} (ticket : Nat) :
    (finish config state statuses).point ≠ .round phase (sink :: todo) (some ticket) := by
  unfold finish
  split <;> simp

variable {waiting : Option Nat} {phase : Phase} {todo : List Nat}

theorem booked_reply (booked : Booked config state)
    (point : state.point = .round phase (sink :: todo) waiting) :
    Booked config (reply config state sink result todo phase) := by
  cases phase with simp only [Booked, point] at booked
  | beginning startup started =>
    simp only [reply]
    split
    · simpa [Booked] using booked
    · trivial
  | preCommitting =>
    simp only [reply]
    split
    · exact (suffix_cons sink todo).trans booked
    · trivial
  | committing manifest statuses =>
    rcases booked with ⟨epoch, offsets, split, settled⟩
    refine ⟨epoch, offsets, ?_, ?_⟩
    · simpa using split
    · refine forall_mem_append.mpr ⟨settled, forall_mem_singleton.mpr ?_⟩
      cases result <;> simp [commitStatus]

theorem reply_notWaiting :
    ∀ other first rest ticket, (reply config state sink result todo phase).point ≠
      .round other (first :: rest) (some ticket) := by
  intro other first rest ticket
  cases phase with
  | beginning | preCommitting =>
    simp only [reply]
    split <;> simp
  | committing manifest statuses => simp [reply]

theorem booked_complete (booked : Booked config state)
    (point : state.point = .round phase [] waiting) :
    Booked config (complete config state phase) := by
  cases phase with
  | beginning startup started => trivial
  | preCommitting => exact ⟨rfl, rfl⟩
  | committing manifest statuses =>
    simp only [Booked, point, append_nil] at booked
    simp only [complete]
    split
    · exact booked_finish
    · exact booked

theorem complete_notWaiting :
    ∀ other first rest ticket, (complete config state phase).point ≠
      .round other (first :: rest) (some ticket) := by
  intro other first rest ticket
  cases phase with
  | beginning | preCommitting => simp [complete]
  | committing manifest statuses =>
    simp only [complete]
    split
    · exact finish_notWaiting other first ticket
    · simp

theorem wired_advance (wired : Wired config state)
    (advanced : Advance config state next) : Wired config next := by
  cases advanced with
  | written | writeLost | rollbackSkipped =>
    exact { wired with owner := by simp, booked := trivial }
  | writeSent _ running | rollbackSent _ running =>
    exact wired.enqueue running (Nat.le_refl _) (by simp [SinkCommand.ticket?]) (by simp) trivial
  | completed point =>
    exact wired.frame (complete_frame _ _) complete_notWaiting (booked_complete wired.booked point)
  | @replied phase sink todo ticket result point acked =>
    exact wired.frame (reply_frame _ _) reply_notWaiting (booked_reply wired.booked point)
  | @sent phase sink todo point running =>
    have isTicket : (phase.command state.epoch state.nextTicket).ticket? =
        some state.nextTicket := by
      cases phase <;> rfl
    refine wired.enqueue running (Nat.le_succ _) ?_ ?_ ?_
    · intro ticket hasTicket
      cases isTicket.symm.trans hasTicket
      exact Nat.lt_succ_self _
    · intro other owner rest ticket moved
      cases moved
      refine ⟨Nat.lt_succ_self _, ?_⟩
      intro otherSink queued mem hasTicket
      by_contra different
      simp only [State.enqueue, State.setSink, update_of_ne different] at mem
      exact absurd (wired.queued otherSink queued mem _ hasTicket) (Nat.lt_irrefl _)
    · have booked := wired.booked
      cases phase <;>
        simpa only [Booked, point, State.enqueue, State.setSink] using booked
  | @closed phase sink todo point ended =>
    exact wired.frame (reply_frame _ _) reply_notWaiting (booked_reply wired.booked point)
  | @undone startup epoch point =>
    cases startup <;> exact { wired with owner := by simp, booked := trivial }

theorem wired_crash : Wired config (crash state) where
  queued := by simp [crash, spawn]
  acked := by simp [crash]
  owner := by simp [crash]
  halted := by simp [crash, spawn]
  booked := trivial

theorem wired_recover (wired : Wired config state) {manifest : Option CheckpointManifest} :
    Wired config (recover config state manifest) := by
  have rollbacks : ∀ sink, ∀ command ∈ ((recover config state manifest).sinks sink).queue,
      ∃ epoch, command = .rollbackEpoch epoch := by
    intro sink command mem
    cases manifest with
    | none => simp [recover, spawn] at mem
    | some manifest =>
      simp only [recover] at mem
      split at mem
      · simp only [enqueue_queue, spawn, nil_append, mem_singleton] at mem
        exact ⟨manifest.epoch, mem⟩
      · simp [spawn] at mem
  refine
    { queued := ?_
      acked := wired.acked
      owner := by simp [recover]
      halted := ?_
      booked := by simp [Booked, recover] }
  · intro sink command mem ticket hasTicket
    rcases rollbacks sink command mem with ⟨epoch, rfl⟩
    simp [SinkCommand.ticket?] at hasTicket
  · intro sink ended
    have running : ((recover config state manifest).sinks sink).running = true := by
      cases manifest with
      | none => rfl
      | some manifest =>
        simp only [recover]
        split <;> rfl
    rw [running] at ended
    exact absurd ended (by simp)

theorem wired_step {label : Label}
    (wired : Wired config state) (stepped : Step config state label next) : Wired config next := by
  cases stepped with
  | started point => exact wired_recover wired
  | @recovered position manifest point found => exact wired_recover wired
  | crashed => exact wired_crash
  | cycled | preCommitTimedOut | rejected | notSaved =>
    exact { wired with owner := by simp, booked := trivial }
  | checkpointed point =>
    exact { wired with owner := by simp, booked := suffix_refl _ }
  | advanced advanced => exact wired_advance wired advanced
  | commitTimedOut point =>
    have booked := wired.booked
    simp only [Booked, point] at booked
    refine { wired with owner := by simp, booked := ⟨booked.1, booked.2.1, ?_, ?_⟩ }
    · simp [timedOutStatuses, comp_def]
    · simp [timedOutStatuses]
  | saved point | found point =>
    have booked := wired.booked
    simp only [Booked, point] at booked
    exact { wired with owner := by simp, booked := ⟨booked.1, booked.2, by simp, by simp⟩ }
  | @updated manifest point =>
    have stored : Wired config (state.update manifest) := { wired with }
    exact stored.frame (finish_frame _ _) finish_notWaiting booked_finish
  | @notUpdated manifest outcome background point =>
    have stored : Wired config { state with background } := { wired with }
    exact stored.frame (finish_frame _ _) finish_notWaiting booked_finish
  | landed => exact { wired with }
  | handled pending => exact wired.handled pending
  | panicked running => exact wired.panicked _

theorem wired_of_reaches {admits : State → Label → Prop}
    (reached : (system config).Reaches admits state) : Wired config state := by
  refine reached.invariant ?_ ?_
  · intro start initial
    exact wired_initial initial
  · intro before label next wired _ stepped
    exact wired_step wired (step_cases stepped)

end LaminarDB.Checkpoint

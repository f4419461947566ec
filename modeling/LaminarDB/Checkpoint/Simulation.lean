import LaminarDB.Checkpoint.SinkView

/-!
# Every step of the system is a step of every exactly-once sink
-/

namespace LaminarDB.Checkpoint

open Library List Phase SinkTask Function

theorem exactlyOnceSinks_nodup (config : Config) : config.exactlyOnceSinks.Nodup :=
  List.Nodup.filter _ nodup_range

variable {manifest : CheckpointManifest} {waiting : Option Nat}
  {statuses : List (Nat × SinkCommitStatus)} {todo : List Nat} {phase : Phase} {sink first : Nat}
  {config : Config} {state next : State}

theorem todo_nodup (booked : Booked config state)
    (point : state.point = .round phase todo waiting) : todo.Nodup := by
  have distinct := exactlyOnceSinks_nodup config
  cases phase with simp only [Booked, point] at booked
  | beginning startup started =>
    rw [← booked] at distinct
    exact distinct.of_append_right
  | preCommitting => exact distinct.sublist booked.sublist
  | committing manifest statuses =>
    rw [← booked.2.2.1] at distinct
    exact distinct.of_append_right

theorem statuses_nodup (booked : Booked config state)
    (point : state.point = .round (.committing manifest statuses) (sink :: todo) waiting) :
    statuses.lookup sink = none := by
  have distinct := exactlyOnceSinks_nodup config
  simp only [Booked, point] at booked
  rw [← booked.2.2.1] at distinct
  rw [lookup_eq_none_iff]
  intro entry mem
  have apart := (nodup_append.mp distinct).2.2 entry.1 (mem_map_of_mem mem) sink mem_cons_self
  simpa using apart.symm

section Views

theorem stageOf_round_head :
    stageOf sink (.round phase (sink :: todo) waiting) = phase.waitingStage waiting := by
  simp [stageOf]

theorem stageOf_round_tail (different : first ≠ sink) (mem : sink ∈ todo) :
    stageOf sink (.round phase (first :: todo) waiting) = phase.waitingStage none := by
  simp [stageOf, different, mem]

theorem stageOf_round_done (done : sink ∉ todo) :
    stageOf sink (.round phase todo waiting) = phase.doneStage sink := by
  have notHead : todo.head? ≠ some sink := by
    intro isHead
    exact done (mem_of_mem_head? isHead)
  simp [stageOf, notHead, done]

theorem stageOf_round_all (mem : sink ∈ todo) :
    stageOf sink (.round phase todo none) = phase.waitingStage none := by
  simp [stageOf, mem]

end Views

theorem SinkStep.of_eq {routes : Record → Bool} {event : Event} {view next other : View}
    (stepped : SinkStep routes event view next) (same : other = next) :
    SinkStep routes event view other :=
  same ▸ stepped

abbrev SeenStep (config : Config) (sink : Nat) (event : Event) (state next : State) : Prop :=
  SinkStep (config.routes sink) event (viewOf state sink) (viewOf next sink)

section Simulation

variable {stored : List CheckpointManifest} {background : List StoreWrite}

variable (mem : sink ∈ config.exactlyOnceSinks)

include mem in
theorem finish_simulates
    (stage : stageOf sink state.point = .decided (statuses.lookup sink == some .committed))
    (pending : pendingOf sink state.point = [])
    (keys : statuses.map Prod.fst = config.exactlyOnceSinks)
    (settled : ∀ entry ∈ statuses, entry.2 ≠ .pending)
    (latest : stored.head? = state.stored.head? ∨ ∃ manifest, stored.head? = some manifest ∧
      manifest.epoch = state.epoch ∧ manifest.sourceOffsets = state.offsets) :
    ∃ event,
      (event = .quiet ∨
        event = .commitFailed ∧ (statuses.any fun entry => entry.2.isFailed) = true) ∧
      SeenStep config sink event state
        (finish config { state with stored, background } statuses) := by
  have decided := stage
  have noTicket : (stageOf sink state.point).ticket? = none := by rw [stage]; rfl
  by_cases failed : (statuses.any fun entry => entry.2.isFailed) = true
  · refine ⟨.commitFailed, .inr ⟨rfl, failed⟩, ?_⟩
    refine .of_eq (.commitFailed decided latest) ?_
    simp [viewOf, finish, failed, pending, noTicket]
  · have committed : (statuses.lookup sink == some .committed) = true := by
      rw [← keys, mem_map] at mem
      rcases mem with ⟨entry, isEntry, isSink⟩
      have found : (statuses.lookup sink).isSome = true :=
        lookup_isSome_iff.mpr ⟨entry, isEntry, by simp [isSink]⟩
      rcases Option.isSome_iff_exists.mp found with ⟨status, isStatus⟩
      rcases lookup_eq_some_iff.mp isStatus with ⟨left, right, split, _⟩
      have inList : (sink, status) ∈ statuses := by simp [split]
      rw [isStatus]
      cases status with
      | pending => exact absurd rfl (settled _ inList)
      | committed => rfl
      | failed message =>
        exact absurd (any_eq_true.mpr ⟨_, inList, rfl⟩) failed
    refine ⟨.quiet, .inl rfl, ?_⟩
    rw [committed] at decided
    refine .of_eq (.finished decided latest) ?_
    simp [viewOf, finish, failed, stageOf_round_all mem, waitingStage, pending, noTicket]

variable {startup : Bool}

theorem reply_other {moved : Phase} (point : state.point = .round phase (first :: todo) waiting)
    (different : first ≠ sink) (waits : moved.waitingStage none = phase.waitingStage none)
    (done : moved.doneStage sink = phase.doneStage sink) :
    viewOf { state with point := .round moved todo none } sink = viewOf state sink := by
  have stage : stageOf sink (.round moved todo none) = stageOf sink state.point := by
    rw [point]
    by_cases mem : sink ∈ todo
    · rw [stageOf_round_tail different mem, ← waits]
      by_cases isHead : todo.head? = some sink <;> simp [stageOf, isHead, mem]
    · have notLeft : sink ∉ first :: todo := by
        simp [mem, different.symm]
      rw [stageOf_round_done mem, stageOf_round_done notLeft, done]
  have pending : pendingOf sink (.round moved todo none) = pendingOf sink state.point := by
    rw [point]
    rfl
  simp only [viewOf, stage, pending]

theorem view_round (sink : Nat) (point : state.point = .round phase todo waiting) :
    ((∃ other, (viewOf state sink).stage = phase.waitingStage other) ∨
      (viewOf state sink).stage = phase.doneStage sink) ∧ pendingOf sink state.point = [] := by
  refine ⟨?_, ?_⟩
  · show (∃ other, stageOf sink state.point = _) ∨ stageOf sink state.point = _
    rw [point]
    simp only [stageOf]
    split
    · exact .inl ⟨waiting, rfl⟩
    · split
      · exact .inl ⟨none, rfl⟩
      · exact .inr rfl
  · rw [point]
    rfl

theorem view_first (point : state.point = .round phase (sink :: todo) waiting) :
    (viewOf state sink).stage = phase.waitingStage waiting ∧
      (viewOf state sink).ack = waiting.bind state.acks := by
  have stage : stageOf sink state.point = phase.waitingStage waiting := by
    rw [point, stageOf_round_head]
  refine ⟨stage, ?_⟩
  show (stageOf sink state.point).ticket?.bind state.acks = _
  rw [stage]
  cases phase <;> rfl

/-- The reply of a sink: the acknowledgment of its command, or the error of a
task that has ended. -/
def Answered (state : State) (first : Nat) (result : CallResult) (waiting : Option Nat) : Prop :=
  waiting = none ∧ (state.sinks first).running = false ∧ result.isOk = false ∨
    ∃ ticket, waiting = some ticket ∧ state.acks ticket = some result

section

variable {result : CallResult} (answered : Answered state first result waiting)
  (wired : Wired config state)

include answered

theorem Answered.of_ok (succeeded : result.isOk = true) :
    ∃ ticket, waiting = some ticket ∧ state.acks ticket = some result := by
  rcases answered with ⟨_, _, failed⟩ | acked
  · rw [succeeded] at failed
    exact absurd failed (by simp)
  · exact acked

theorem reply_beginning_simulates {started : List Nat}
    (point : state.point = .round (.beginning startup started) (first :: todo) waiting)
    (gone : first ∉ todo) :
    ∃ event, Caused state sink .advance event ∧
      SeenStep config sink event state
        (reply config state first result todo (.beginning startup started)) := by
  have noPending := (view_round sink point).2
  cases succeeded : result.isOk with
      simp only [reply, succeeded, if_true, Bool.false_eq_true, if_false]
  | true =>
    refine ⟨.quiet, .quiet, ?_⟩
    by_cases same : first = sink
    · subst first
      obtain ⟨ticket, rfl, acked⟩ := answered.of_ok succeeded
      obtain ⟨stage, ack⟩ := view_first point
      refine .of_eq (.begun stage (ack.trans acked) succeeded) ?_
      simp [viewOf, stageOf_round_done gone, doneStage, noPending]
    · exact .of_eq .same (reply_other point same rfl rfl)
  | false =>
    refine ⟨.beginFailed, .beginFailed point ?_, ?_⟩
    · rcases answered with ⟨unsent, ended, _⟩ | ⟨ticket, waits, acked⟩
      · exact .inl ⟨unsent, ended⟩
      · exact .inr ⟨ticket, result, waits, acked, succeeded⟩
    · refine .of_eq (@SinkStep.beginFailed _ _ startup ?_)
        (by cases startup <;> simp [viewOf, noPending])
      by_cases same : first = sink
      · subst first
        obtain ⟨stage, ack⟩ := view_first point
        rcases answered with ⟨rfl, _, _⟩ | ⟨ticket, rfl, acked⟩
        · exact .inl stage
        · exact .inr (.inl ⟨ticket, result, stage, ack.trans acked, succeeded⟩)
      · by_cases mem : sink ∈ todo
        · left
          show stageOf sink state.point = _
          rw [point, stageOf_round_tail same mem]
          rfl
        · right
          right
          show stageOf sink state.point = _
          rw [point, stageOf_round_done (by simp [mem, Ne.symm same])]
          rfl

theorem reply_preCommitting_simulates
    (point : state.point = .round .preCommitting (first :: todo) waiting)
    (gone : first ∉ todo) :
    SeenStep config sink .quiet state
      (reply config state first result todo .preCommitting) := by
  have noPending := (view_round sink point).2
  cases succeeded : result.isOk with
      simp only [reply, succeeded, if_true, Bool.false_eq_true, if_false]
  | true =>
    by_cases same : first = sink
    · subst first
      obtain ⟨ticket, rfl, acked⟩ := answered.of_ok succeeded
      obtain ⟨stage, ack⟩ := view_first point
      refine .of_eq (.preCommitted stage (ack.trans acked) succeeded) ?_
      simp [viewOf, stageOf_round_done gone, doneStage, noPending]
    · exact .of_eq .same (reply_other point same rfl rfl)
  | false =>
    refine .of_eq (.abandoned (view_round sink point).1) ?_
    simp [viewOf, noPending]

theorem reply_committing_simulates
    (point : state.point = .round (.committing manifest statuses) (first :: todo) waiting)
    (gone : first ∉ todo) (unlisted : statuses.lookup first = none) :
    SeenStep config sink .quiet state
      (reply config state first result todo (.committing manifest statuses)) := by
  have noPending := (view_round sink point).2
  simp only [reply]
  by_cases same : first = sink
  · subst first
    obtain ⟨stage, ack⟩ := view_first point
    have isCommitted : ((statuses ++ [(sink, commitStatus config sink result)]).lookup
        sink == some .committed) = result.isOk := by
      rw [lookup_append, unlisted]
      cases result <;> simp [List.lookup, commitStatus, Except.isOk, Except.toBool]
    have after : viewOf { state with
        point := .round (.committing manifest
          (statuses ++ [(sink, commitStatus config sink result)])) todo none } sink =
        { viewOf state sink with stage := .decided result.isOk, ack := none } := by
      simp [viewOf, stageOf_round_done gone, doneStage, noPending, isCommitted]
    rw [SeenStep, after]
    rcases answered with ⟨rfl, ended, failed⟩ | ⟨ticket, rfl, acked⟩
    · rw [failed, ← show (viewOf state sink).ack = none from ack]
      exact .unreachable stage ended
    · exact .decided stage (ack.trans acked)
  · have others : ([(first, commitStatus config first result)] :
        List (Nat × SinkCommitStatus)).lookup sink = none := by
      simp [lookup_eq_none_iff, Ne.symm same]
    exact .of_eq .same (reply_other point same rfl (by simp [doneStage, lookup_append, others]))

include wired in
theorem reply_simulates (point : state.point = .round phase (first :: todo) waiting) :
    ∃ event, Caused state sink .advance event ∧
      SeenStep config sink event state (reply config state first result todo phase) := by
  have gone : first ∉ todo := (nodup_cons.mp (todo_nodup wired.booked point)).1
  cases phase with
  | beginning startup started => exact reply_beginning_simulates answered point gone
  | preCommitting =>
    exact ⟨.quiet, .quiet, reply_preCommitting_simulates answered point gone⟩
  | committing manifest statuses =>
    exact ⟨.quiet, .quiet, reply_committing_simulates answered point gone
      (statuses_nodup wired.booked point)⟩

end

variable (wired : Wired config state) {replies : List (Nat × CallResult)}

include mem wired in
theorem complete_simulates (point : state.point = .round phase [] waiting) :
    SeenStep config sink .quiet state (complete config state phase) := by
  have noPending := (view_round sink point).2
  have stage : stageOf sink state.point = phase.doneStage sink := by
    rw [point, stageOf_round_done (by simp)]
  cases phase with
  | beginning startup started =>
    refine .of_eq (.ready stage) ?_
    simp [viewOf, complete, stage, doneStage, noPending]
  | preCommitting =>
    refine .of_eq .same ?_
    simp [viewOf, complete, stage, doneStage, noPending]
  | committing manifest statuses =>
    have booked := wired.booked
    simp only [Booked, point, append_nil] at booked
    have listed : statuses.isEmpty = false := by
      cases statuses with
      | nil =>
        rw [← booked.2.2.1] at mem
        simp at mem
      | cons => rfl
    refine .of_eq .same ?_
    simp [viewOf, complete, listed, stage, doneStage, noPending]

include wired in
theorem sent_simulates (point : state.point = .round phase (first :: todo) none)
    (running : (state.sinks first).running = true) :
    SeenStep config sink .quiet state
      { state.enqueue first (phase.command state.epoch state.nextTicket) with
          nextTicket := state.nextTicket + 1
          point := .round phase (first :: todo) (some state.nextTicket) } := by
  have noPending := (view_round sink point).2
  by_cases same : first = sink
  · subst first
    have stage := (view_first point).1
    have fresh : ∀ queued ∈ (state.sinks sink).queue, queued.ticket? ≠ some state.nextTicket := by
      intro queued mem hasTicket
      exact absurd (wired.queued sink queued mem _ hasTicket) (Nat.lt_irrefl _)
    have unanswered : state.acks state.nextTicket = none := by
      rw [← Option.not_isSome_iff_eq_none]
      intro isAcked
      exact absurd (wired.acked _ isAcked) (Nat.lt_irrefl _)
    cases phase
    case' beginning => refine .of_eq (.beginSent stage fresh running) ?_
    case' preCommitting => refine .of_eq (.preCommitSent stage fresh running) ?_
    case' committing => refine .of_eq (.commitSent stage fresh running) ?_
    all_goals
      simp [viewOf, stageOf_round_head, State.enqueue, State.setSink, noPending, unanswered,
        waitingStage, command]
  · refine .of_eq .same ?_
    have stage : stageOf sink (.round phase (first :: todo) (some state.nextTicket)) =
        stageOf sink state.point := by
      rw [point]
      simp [stageOf, same]
    simp [viewOf, stage, noPending, State.enqueue, State.setSink, update_of_ne (Ne.symm same)]

section

variable {batch : List Record} {pending : List (Nat × List Record)}
  (point : state.point = .writing ((first, batch) :: pending))

include point

variable (sink) in
theorem view_writing : stageOf sink state.point = .free ∧ pendingOf sink state.point =
    (if first = sink then [batch] else []) ++ pendingOf sink (.writing pending) := by
  rw [point]
  by_cases same : first = sink <;> simp [pendingOf, same]

theorem writeSent_simulates (running : (state.sinks first).running = true) :
    SeenStep config sink .quiet state { state.enqueue first (.writeBatch batch) with
          handed := update state.handed first (state.handed first ++ [batch])
          point := .writing pending } := by
  obtain ⟨stage, batches⟩ := view_writing sink point
  by_cases same : first = sink
  · subst first
    rw [if_pos rfl] at batches
    refine .of_eq (.writeSent stage batches running) ?_
    simp [viewOf, stage, State.enqueue, State.setSink]
  · rw [if_neg same, nil_append] at batches
    refine .of_eq .same ?_
    simp [viewOf, stage, batches, State.enqueue, State.setSink, update_of_ne (Ne.symm same)]

theorem writeLost_simulates (ended : (state.sinks first).running = false) :
    SeenStep config sink .quiet state { state with
          handed := update state.handed first (state.handed first ++ [batch])
          point := .writing pending } := by
  obtain ⟨stage, batches⟩ := view_writing sink point
  by_cases same : first = sink
  · subst first
    rw [if_pos rfl] at batches
    refine .of_eq (.writeLost stage batches ended) ?_
    simp [viewOf, stage]
  · rw [if_neg same, nil_append] at batches
    refine .of_eq .same ?_
    simp [viewOf, stage, batches, update_of_ne (Ne.symm same)]

end

theorem rollbackSent_simulates {epoch : Nat}
    (point : state.point = .undoing startup epoch (first :: todo))
    (running : (state.sinks first).running = true) :
    ∃ event, Caused state sink .advance event ∧
      SeenStep config sink event state { state.enqueue first (.rollbackEpoch epoch) with
            point := .undoing startup epoch todo } := by
  have stage : stageOf sink state.point = if startup then .down else .free := by
    rw [point]
    rfl
  have isDone : stageOf sink state.point = .free ∨ stageOf sink state.point = .down := by
    cases startup <;> simp [stage]
  have noPending : pendingOf sink state.point = [] := by
    rw [point]
    rfl
  by_cases same : first = sink
  · subst first
    refine ⟨.rolledBack, .rolledBack point, .of_eq (@SinkStep.rolledBack _ _ epoch isDone
      noPending running) ?_⟩
    cases startup <;> simp [viewOf, stage, noPending, State.enqueue, State.setSink]
  · refine ⟨.quiet, .quiet, .of_eq .same ?_⟩
    simp [viewOf, stage, noPending, State.enqueue, State.setSink, update_of_ne (Ne.symm same)]

theorem move_simulates {point : Point} (stage : stageOf sink point = stageOf sink state.point)
    (pending : pendingOf sink point = pendingOf sink state.point) :
    SeenStep config sink .quiet state { state with point } :=
  .of_eq .same (by simp only [viewOf, stage, pending])

include mem wired in
theorem advance_simulates (advanced : Advance config state next) :
    ∃ event, Caused state sink .advance event ∧ SeenStep config sink event state next := by
  cases advanced with
  | written point =>
    exact ⟨.quiet, .quiet, move_simulates (by simp [point]) (by simp [point, pendingOf])⟩
  | writeSent point running =>
    exact ⟨.quiet, .quiet, writeSent_simulates point running⟩
  | writeLost point ended => exact ⟨.quiet, .quiet, writeLost_simulates point ended⟩
  | completed point => exact ⟨.quiet, .quiet, complete_simulates mem wired point⟩
  | replied point acked => exact reply_simulates (.inr ⟨_, rfl, acked⟩) wired point
  | sent point running => exact ⟨.quiet, .quiet, sent_simulates wired point running⟩
  | closed point ended => exact reply_simulates (.inl ⟨rfl, ended, rfl⟩) wired point
  | @undone startup epoch point =>
    refine ⟨.quiet, .quiet, move_simulates ?_ ?_⟩
    · cases startup <;> simp [point]
    · cases startup <;> simp [point]
  | rollbackSent point running => exact rollbackSent_simulates point running
  | rollbackSkipped point ended =>
    exact ⟨.quiet, .quiet, move_simulates (by simp [point]) (by simp [point])⟩

theorem view_acknowledged :
    (stageOf sink state.point).ticket?.bind
        (fun ticket => (replies.lookup ticket).or (state.acks ticket)) =
      (viewOf state sink).acked replies := by
  show _ = (stageOf sink state.point).ticket?.bind fun ticket =>
    (replies.lookup ticket).or ((stageOf sink state.point).ticket?.bind state.acks)
  cases waits : (stageOf sink state.point).ticket? with
  | none | some => rfl

variable {other : Nat}

include wired in
theorem unanswered (different : other ≠ sink) (answered : ∀ reply ∈ replies,
      ∃ command ∈ (state.sinks other).queue, command.ticket? = some reply.1) {ticket : Nat}
    (waits : (stageOf sink state.point).ticket? = some ticket) : replies.lookup ticket = none := by
  rw [lookup_eq_none_iff]
  intro reply mem
  rcases answered reply mem with ⟨command, queued, hasTicket⟩
  cases point : state.point with rw [point] at waits
  | round phase todo waiting =>
    by_cases isHead : todo.head? = some sink
    · obtain ⟨rest, rfl⟩ := List.head?_eq_some_iff.mp isHead
      have isWaiting : waiting = some ticket := by
        rw [stageOf_round_head] at waits
        cases phase <;> exact waits
      subst waiting
      simp only [bne_iff_ne]
      rintro rfl
      exact different ((wired.owner phase sink rest _ point).2 other command queued hasTicket)
    · simp only [stageOf, isHead, if_false] at waits
      split at waits <;> cases phase <;>
        simp [waitingStage, doneStage] at waits
  | undoing startup epoch todo =>
    cases startup <;> simp at waits
  | stopped | idle | writing | persisting | updating =>
    simp at waits

include wired in
theorem view_other (different : other ≠ sink) (answered : ∀ reply ∈ replies,
      ∃ command ∈ (state.sinks other).queue, command.ticket? = some reply.1)
    {task : SinkTask Record} :
    viewOf ((state.setSink other task).acknowledge replies) sink = viewOf state sink := by
  have ack : (stageOf sink state.point).ticket?.bind
      ((state.setSink other task).acknowledge replies).acks =
        (stageOf sink state.point).ticket?.bind state.acks := by
    cases waits : (stageOf sink state.point).ticket? with
    | none => rfl
    | some ticket =>
      simp [State.acknowledge, State.setSink, unanswered wired different answered waits]
  unfold viewOf
  congr 1
  exact update_of_ne (Ne.symm different) _ _

include wired in
theorem handled_simulates {command : SinkCommand Record}
    {queue : List (SinkCommand Record)} (pending : (state.sinks other).queue = command :: queue) :
    ∃ event, Caused state sink (.handle other result) event ∧
      SeenStep config sink event state ((state.setSink other
            (((state.sinks other).setQueue queue).handle result command).1).acknowledge
          (((state.sinks other).setQueue queue).handle result command).2.toList) := by
  by_cases same : other = sink
  · subst other
    refine ⟨.handled command result, .handled pending, ?_⟩
    refine .of_eq (.handled pending) ?_
    rw [← view_acknowledged]
    simp [viewOf, State.acknowledge, State.setSink]
  · exact ⟨.quiet, .quiet, .of_eq .same (view_other wired same (handle_answered pending))⟩

include wired in
theorem panicked_simulates (running : (state.sinks other).running = true) :
    SeenStep config sink .quiet state ((state.setSink other (state.sinks other).abort).acknowledge
        ((state.sinks other).queue.filterMap (droppedAck (config.sinkName other)))) := by
  by_cases same : other = sink
  · subst other
    refine .of_eq (@SinkStep.panicked _ _ (config.sinkName sink) running) ?_
    rw [← view_acknowledged]
    simp [viewOf, State.acknowledge, State.setSink]
  · exact .of_eq .same (view_other wired same (droppedAck_ticket (config.sinkName other)))

include mem in
theorem recover_simulates {manifest : Option CheckpointManifest} (point : state.point = .stopped) :
    SeenStep config sink (.recovered manifest) state (recover config state manifest) := by
  have waits : stageOf sink (.round (.beginning true []) config.exactlyOnceSinks none) =
      .starting true none := stageOf_round_all mem
  have exactlyOnce := (mem_filter.mp mem).2
  have stage : (viewOf state sink).stage = .down := by simp [viewOf, point]
  refine .of_eq (@SinkStep.recovered _ _
    ((manifest <|> state.stored.head?).elim 1 fun latest => latest.epoch + 1) manifest
    (manifest.any fun recovered => !recovered.alreadyCommitted sink) stage ?_) ?_
  · rintro recovered rfl
    rfl
  · cases manifest with
    | none => simp [viewOf, recover, waits, setQueue, spawn]
    | some manifest =>
      by_cases committed : manifest.alreadyCommitted sink = true
      · simp [viewOf, recover, waits, committed, setQueue, spawn]
      · simp [viewOf, recover, waits, committed, exactlyOnce, enqueue, setQueue, spawn]

theorem pendingOf_others {route : Nat → Option (Nat × List Record)} {sinks : List Nat}
    (own : ∀ other entry, route other = some entry → entry.1 = other)
    (absent : sink ∉ sinks) : pendingOf sink (.writing (sinks.filterMap route)) = [] := by
  simp only [pendingOf, filterMap_eq_nil_iff, mem_filterMap]
  rintro entry ⟨other, mem, routed⟩
  have isOther := own other entry routed
  rw [if_neg]
  rintro rfl
  rw [isOther] at absent
  exact absent mem

theorem pendingOf_routedBatches {records : List Record} {filterErrors : List Nat}
    (registered : sink < config.sinks) :
    pendingOf sink (.writing (routedBatches config records filterErrors)) =
      if decide (sink ∈ filterErrors) = true ∨ records.filter (config.routes sink) = [] then []
      else [records.filter (config.routes sink)] := by
  obtain ⟨left, right, split⟩ := append_of_mem (mem_range.mpr registered)
  have distinct := split ▸ nodup_range
  have notLeft : sink ∉ left := fun inLeft =>
    (nodup_append.mp distinct).2.2 sink inLeft sink mem_cons_self rfl
  have notRight : sink ∉ right := (nodup_cons.mp (nodup_append.mp distinct).2.1).1
  have own : ∀ other entry,
      (if other ∈ filterErrors ∨ records.filter (config.routes other) = [] then none
        else some (other, records.filter (config.routes other))) = some entry →
      entry.1 = other := by
    intro other entry routed
    split at routed <;> cases routed
    rfl
  have before := pendingOf_others own notLeft
  have after := pendingOf_others own notRight
  simp only [pendingOf] at before after
  simp only [pendingOf, routedBatches, split, filterMap_append, before,
    nil_append, decide_eq_true_eq]
  by_cases skipped : sink ∈ filterErrors ∨ records.filter (config.routes sink) = []
  · simp only [filterMap_cons, if_pos skipped, after]
  · simp only [filterMap_cons, if_neg skipped, if_true, after]

theorem abandoned_simulates (stage : (∃ waiting, stageOf sink state.point = .preparing waiting) ∨
      stageOf sink state.point = .prepared) (noPending : pendingOf sink state.point = []) :
    SeenStep config sink .quiet state { state with point := .idle } := by
  refine .of_eq (.abandoned stage) ?_
  simp [viewOf, noPending]

theorem timedOutStatuses_notCommitted :
    ((timedOutStatuses config).lookup sink == some .committed) = false := by
  rw [beq_eq_false_iff_ne]
  intro found
  rcases lookup_eq_some_iff.mp found with ⟨left, right, split, _⟩
  have inList : (sink, SinkCommitStatus.committed) ∈ timedOutStatuses config := by
    simp [split]
  simp [timedOutStatuses] at inList

include mem wired in
theorem update_simulates {outcome : StoreOutcome} (point : state.point = .updating manifest)
    (latest : stored.head? = state.stored.head? ∨ stored.head? = some manifest) :
    ∃ event, Caused state sink (.update outcome) event ∧
      SeenStep config sink event state (finish config { state with stored, background }
          manifest.sinkCommitStatuses) := by
  have booked := wired.booked
  simp only [Booked, point] at booked
  obtain ⟨epoch, offsets, keys, settled⟩ := booked
  have stage : stageOf sink state.point =
      .decided (manifest.sinkCommitStatuses.lookup sink == some .committed) := by
    rw [point]
    rfl
  have noPending : pendingOf sink state.point = [] := by simp [point]
  have kept : stored.head? = state.stored.head? ∨ ∃ latest, stored.head? = some latest ∧
      latest.epoch = state.epoch ∧ latest.sourceOffsets = state.offsets :=
    latest.imp_right fun isLatest => ⟨manifest, isLatest, epoch, offsets⟩
  obtain ⟨event, quietOrFailed, moved⟩ := finish_simulates mem stage noPending keys settled kept
  refine ⟨event, ?_, moved⟩
  rcases quietOrFailed with rfl | ⟨rfl, failed⟩
  · exact .quiet
  · exact .commitFailed point failed

theorem update_latest :
    (state.update manifest).stored.head? = state.stored.head? ∨
      (state.update manifest).stored.head? = some manifest := by
  simp only [State.update, List.head?_map]
  cases state.stored.head? with
  | none => exact .inl rfl
  | some latest =>
    simp only [Option.map_some]
    split
    · exact .inr rfl
    · exact .inl rfl

include mem wired in
theorem simulates {label : Label} (stepped : Step config state label next) :
    ∃ event, Caused state sink label event ∧ SeenStep config sink event state next := by
  cases stepped with
  | started point => exact ⟨_, .started, recover_simulates mem point⟩
  | recovered point found =>
    exact ⟨_, .recovered found, recover_simulates mem point⟩
  | crashed =>
    refine ⟨.crashed, .crashed, ?_⟩
    exact .crashed
  | cycled point =>
    have registered : sink < config.sinks := mem_range.mp (mem_filter.mp mem).1
    have stage : stageOf sink state.point = .free := by simp [point]
    have noPending : pendingOf sink state.point = [] := by simp [point]
    refine ⟨_, .cycled, .of_eq (.cycled stage noPending rfl) ?_⟩
    rw [← pendingOf_routedBatches registered]
    simp [viewOf, stage, cycleRecords]
  | checkpointed point =>
    have stage : (viewOf state sink).stage = .free := by simp [viewOf, point]
    refine ⟨_, .prepared, .of_eq (.prepare stage (by simp [viewOf, point])) ?_⟩
    simp [viewOf, stageOf_round_all mem, waitingStage, point]
  | advanced advanced => exact advance_simulates mem wired advanced
  | preCommitTimedOut point =>
    obtain ⟨stage, noPending⟩ := view_round sink point
    exact ⟨.quiet, .quiet, abandoned_simulates stage noPending⟩
  | commitTimedOut point =>
    have deciding : (∃ waiting, (viewOf state sink).stage = .deciding waiting) ∨
        ∃ committed, (viewOf state sink).stage = .decided committed :=
      (view_round sink point).1.imp_right fun done => ⟨_, done⟩
    refine ⟨_, .commitTimedOut point, .of_eq (.commitTimedOut deciding) ?_⟩
    simp [viewOf, timedOutStatuses_notCommitted, (view_round sink point).2]
  | rejected point =>
    exact ⟨.quiet, .quiet, abandoned_simulates (.inr (by simp [point])) (by simp [point])⟩
  | saved point =>
    have booked := wired.booked
    simp only [Booked, point] at booked
    refine ⟨_, .saved point, .of_eq (.saved (by simp [viewOf, point]) booked.1 booked.2) ?_⟩
    simp [viewOf, stageOf_round_all mem, waitingStage, point, State.save]
  | found point =>
    refine ⟨_, .found, .of_eq (.found (by simp [viewOf, point])) ?_⟩
    simp [viewOf, stageOf_round_all mem, waitingStage, point]
  | notSaved point outcome =>
    refine ⟨_, .notSaved outcome, .of_eq (.notSaved (by simp [viewOf, point])) ?_⟩
    simp [viewOf, point]
  | updated point =>
    exact update_simulates mem wired point update_latest
  | notUpdated point => exact update_simulates mem wired point (.inl rfl)
  | landed => exact ⟨.landed, .landed, .landed⟩
  | handled pending => exact handled_simulates wired pending
  | panicked running => exact ⟨.quiet, .quiet, panicked_simulates wired running⟩

end Simulation

end LaminarDB.Checkpoint

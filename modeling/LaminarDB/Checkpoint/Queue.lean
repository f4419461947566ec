import LaminarDB.Checkpoint.Simulation

/-!
# The queue of a sink at each stage

A loop over sinks waits for the last command in a queue. What can stand
before that command depends on the stage: nothing once a pre-commit has been
acknowledged, only the rollback of recovery before the first epoch, and no
`begin_epoch` at any other time.
-/

namespace LaminarDB.Checkpoint

open Library List SinkTask SinkCommand Stage View

variable {stage : Stage} {command : SinkCommand Record}

namespace Stage

def leaves : Stage → SinkCommand Record → Bool
  | .down, command => !command.isBegin
  | .free, command => !command.isBegin
  | .starting _ _, command => command.isRollback
  | .started, _ => false
  | .preparing _, command => !command.isBegin
  | .prepared, _ => false
  | .deciding _, _ => false
  | .decided true, _ => false
  | .decided false, command => !command.isBegin

def awaited (epoch : Nat) : Stage → Option (SinkCommand Record)
  | .starting _ waiting => waiting.map (.beginEpoch epoch)
  | .preparing waiting => waiting.map (.preCommit epoch)
  | .deciding waiting => waiting.map (.commitEpoch epoch)
  | _ => none

theorem awaited_ticket (epoch : Nat) (stage : Stage) :
    (stage.awaited epoch).bind SinkCommand.ticket? = stage.ticket? := by
  cases stage with
  | starting _ waiting | preparing waiting | deciding waiting =>
    cases waiting <;> rfl
  | down | free | started | prepared | decided => rfl

theorem awaited_none {epoch : Nat} (noTicket : stage.ticket? = none) :
    stage.awaited epoch = none := by
  cases stage with
  | starting _ waiting | preparing waiting | deciding waiting =>
    simp only [ticket?] at noTicket
    subst waiting
    rfl
  | down | free | started | prepared | decided => rfl

theorem leaves_notBegin (left : stage.leaves command = true) : command.isBegin = false := by
  cases stage with
  | down | free | preparing => simpa [leaves] using left
  | starting startup waiting => cases command <;> simp_all [leaves, isRollback, isBegin]
  | decided committed => cases committed <;> simp_all [leaves]
  | started | prepared | deciding => simp [leaves] at left

end Stage

variable (view : View)

def View.owed : Option (SinkCommand Record) :=
  match view.ack with
  | none => view.stage.awaited view.epoch
  | some _ => none

def View.succeeded : Bool :=
  view.ack.any Except.isOk

/-- The queue of a sink is what its stage finds there and the command it waits
for. -/
structure Shaped : Prop where
  halted : view.task.running = false → view.task.queue = []
  quiet : view.stage.ticket? = none → view.ack = none
  queue : ∃ left, view.task.queue = left ++ view.owed.toList ∧
    (∀ command ∈ left, view.stage.leaves command = true ∧
      ∀ ticket, view.stage.ticket? = some ticket → command.ticket? ≠ some ticket) ∧
    (view.ack.isSome = true → left = [])

variable {result : CallResult} {ticket sink : Nat} {queue : List (SinkCommand Record)}
  {view next : View} {task : SinkTask Record}

namespace Shaped

theorem of_leaves (halted : next.task.running = false → next.task.queue = [])
    (noTicket : next.stage.ticket? = none) (noAck : next.ack = none)
    (left : ∀ command ∈ next.task.queue, next.stage.leaves command = true) : Shaped next := by
  refine ⟨halted, fun _ => noAck, next.task.queue, ?_, ?_, by simp [noAck]⟩
  · simp [owed, noAck, awaited_none noTicket]
  · intro command mem
    exact ⟨left command mem, by simp [noTicket]⟩

section

variable (shaped : Shaped view)

include shaped

theorem running (pending : view.task.queue = command :: queue) : view.task.running = true := by
  cases running : view.task.running with
  | true => rfl
  | false => simp [shaped.halted running] at pending

theorem notSucceeded (noTicket : view.stage.ticket? = none) : view.succeeded = false := by
  simp [succeeded, shaped.quiet noTicket]

theorem all_leaves (noTicket : view.stage.ticket? = none) :
    ∀ command ∈ view.task.queue, view.stage.leaves command = true := by
  obtain ⟨left, split, found, _⟩ := shaped.queue
  have notOwed : view.owed = none := by
    simp [owed, shaped.quiet noTicket, awaited_none noTicket]
  rw [split, notOwed]
  intro command mem
  exact (found command (by simpa using mem)).1

theorem empty_of_leaves (isStage : view.stage = stage)
    (noTicket : stage.ticket? = none) (nothing : ∀ command, stage.leaves command = false) :
    view.task.queue = [] := by
  subst isStage
  rw [eq_nil_iff_forall_not_mem]
  intro command mem
  have left := shaped.all_leaves noTicket command mem
  simp [nothing command] at left

theorem empty_of_ack (acked : view.ack = some result) : view.task.queue = [] := by
  obtain ⟨left, split, _, empty⟩ := shaped.queue
  rw [split, empty (by simp [acked])]
  simp [owed, acked]

theorem empty_of_succeeded (succeeded : view.succeeded = true) : view.task.queue = [] := by
  cases acked : view.ack with
  | none => simp [View.succeeded, acked] at succeeded
  | some result => exact shaped.empty_of_ack acked

theorem notBegin (notStarting : ∀ startup waiting, view.stage ≠ .starting startup waiting) :
    ∀ command ∈ view.task.queue, command.isBegin = false := by
  obtain ⟨left, split, found, _⟩ := shaped.queue
  rw [split]
  intro command mem
  rcases mem_append.mp mem with isLeft | isOwed
  · exact leaves_notBegin (found command isLeft).1
  · rw [Option.mem_toList] at isOwed
    simp only [owed] at isOwed
    cases acked : view.ack with
    | some result => simp [acked] at isOwed
    | none =>
      rw [acked] at isOwed
      cases stage : view.stage with
      | starting startup waiting => exact absurd stage (notStarting startup waiting)
      | preparing waiting | deciding waiting =>
        rw [stage] at isOwed
        rcases Option.map_eq_some_iff.mp isOwed with ⟨ticket, _, rfl⟩
        rfl
      | down | free | started | prepared | decided =>
        rw [stage] at isOwed
        simp [awaited] at isOwed

theorem first_cases (pending : view.task.queue = command :: queue) :
    (view.owed = some command ∧ queue = []) ∨
      (view.stage.leaves command = true ∧ view.ack = none ∧
        (∀ ticket, view.stage.ticket? = some ticket → command.ticket? ≠ some ticket) ∧
        ∃ left, queue = left ++ view.owed.toList ∧
          ∀ command ∈ left, view.stage.leaves command = true ∧
            ∀ ticket, view.stage.ticket? = some ticket → command.ticket? ≠ some ticket) := by
  obtain ⟨left, split, found, empty⟩ := shaped.queue
  rw [pending] at split
  cases left with
  | nil =>
    left
    cases owed : view.owed with (rw [owed] at split; cases split)
    | some => exact ⟨rfl, rfl⟩
  | cons first left =>
    right
    cases split
    have noAck : view.ack = none := by
      cases acked : view.ack with
      | none => rfl
      | some result => simp [acked] at empty
    exact ⟨(found _ mem_cons_self).1, noAck, (found _ mem_cons_self).2, left, rfl,
      (forall_mem_cons.mp found).2⟩

theorem send (noTicket : view.stage.ticket? = none) (waits : next.stage.ticket? = some ticket)
    (awaits : next.stage.awaited next.epoch = some command)
    (leaves : ∀ command, view.stage.leaves command = true → next.stage.leaves command = true)
    (fresh : ∀ queued ∈ view.task.queue, queued.ticket? ≠ some ticket)
    (running : view.task.running = true) (task : next.task = view.task.enqueue command)
    (noAck : next.ack = none) : Shaped next := by
  refine ⟨?_, by simp [waits], view.task.queue, ?_, ?_, by simp [noAck]⟩
  · rw [task]
    intro ended
    simp [enqueue, running] at ended
  · simp [task, owed, noAck, awaits]
  · intro queued mem
    refine ⟨leaves queued (shaped.all_leaves noTicket queued mem), ?_⟩
    intro other isTicket
    cases waits.symm.trans isTicket
    exact fresh queued mem

end

end Shaped

theorem View.acked_other (quiet : view.stage.ticket? = none → view.ack = none)
    (other : ∀ ticket, view.stage.ticket? = some ticket → command.ticket? ≠ some ticket) :
    view.acked (task.handle result command).2.toList = view.ack := by
  cases waits : view.stage.ticket? with
  | none => simp [acked, waits, quiet waits]
  | some ticket =>
    simp only [acked, waits, Option.bind_some]
    have isTicket := handle_ticket task result command
    cases replied : (task.handle result command).2 with
    | none => simp
    | some reply =>
      rw [replied, Option.map_some] at isTicket
      have different : ticket ≠ reply.1 := by
        rintro rfl
        exact other reply.1 waits isTicket.symm
      have notFound : [reply].lookup ticket = none := by
        simpa [lookup_eq_none_iff] using different
      simp [notFound]

theorem View.owed_some (owed : view.owed = some command) :
    view.ack = none ∧ view.stage.awaited view.epoch = some command := by
  unfold View.owed at owed
  split at owed
  · exact ⟨‹_›, owed⟩
  · simp at owed

theorem View.acked_owed (owed : view.owed = some command) :
    ∃ ticket reply, view.stage.ticket? = some ticket ∧
      (task.handle result command).2 = some (ticket, reply) ∧
      view.acked (task.handle result command).2.toList = some reply := by
  obtain ⟨noAck, awaits⟩ := owed_some owed
  have waits := awaited_ticket view.epoch view.stage
  have isTicket := handle_ticket task result command
  rw [awaits, Option.bind_some] at waits
  have hasTicket : command.ticket?.isSome = true := by
    cases stage : view.stage with rw [stage] at awaits
    | starting _ waiting | preparing waiting | deciding waiting =>
      rcases Option.map_eq_some_iff.mp awaits with ⟨ticket, _, rfl⟩
      rfl
    | down | free | started | prepared | decided =>
      simp [awaited] at awaits
  cases replied : (task.handle result command).2 with
  | none =>
    rw [replied, Option.map_none] at isTicket
    simp [← isTicket] at hasTicket
  | some reply =>
    rw [replied, Option.map_some] at isTicket
    refine ⟨reply.1, reply.2, by rw [← waits, ← isTicket], rfl, ?_⟩
    rw [acked, ← waits, ← isTicket]
    simp [lookup]

variable {state : State}

namespace Shaped

section

variable (shaped : Shaped view)

include shaped

theorem handled (pending : view.task.queue = command :: queue) :
    Shaped (view.handled queue result command) := by
  have running := shaped.running pending
  rcases shaped.first_cases pending with ⟨owed, rfl⟩ | ⟨_, noAck, other, left, rest, found⟩
  · obtain ⟨ticket, reply, waits, _, acked⟩ := acked_owed owed
    rw [handled, acked]
    exact ⟨by simp [running], by simp [waits], [], by simp [View.owed], by simp, by simp⟩
  · rw [View.handled, acked_other shaped.quiet other]
    refine ⟨by simp [running], shaped.quiet, left, ?_, found, by simp [noAck]⟩
    rw [handle_queue, setQueue_queue, rest]
    rfl

variable (name : String)

theorem dropped_ack (waits : view.stage.ticket? = some ticket) :
    ∃ reply,
      view.acked (view.task.queue.filterMap (droppedAck name)) = some reply ∧
        (view.ack = some reply ∨ view.ack = none ∧ reply.isOk = false) := by
  obtain ⟨left, split, found, empty⟩ := shaped.queue
  simp only [acked, waits, Option.bind_some]
  cases acked : view.ack with
  | some result =>
    rw [shaped.empty_of_ack acked]
    exact ⟨result, by simp, .inl rfl⟩
  | none =>
    have hasTicket := awaited_ticket view.epoch view.stage
    cases awaits : view.stage.awaited view.epoch with
    | none => simp [awaits, waits] at hasTicket
    | some command =>
      rw [awaits, waits, Option.bind_some] at hasTicket
      obtain ⟨reply, dropped, failed⟩ := exists_droppedAck name hasTicket
      have unanswered : (left.filterMap (droppedAck name)).lookup ticket =
          none := by
        rw [lookup_eq_none_iff]
        intro other mem
        obtain ⟨queued, isLeft, isTicket⟩ := droppedAck_ticket name other mem
        have different := (found queued isLeft).2 ticket waits
        rw [isTicket] at different
        simp only [bne_iff_ne]
        rintro rfl
        exact different rfl
      refine ⟨reply, ?_, .inr ⟨rfl, failed⟩⟩
      rw [split]
      simp [owed, acked, awaits, filterMap_append, lookup_append, unanswered, dropped, lookup]

theorem succeeded_panicked : (view.panicked name).succeeded = view.succeeded := by
  cases waits : view.stage.ticket? with
  | none => simp [acked, succeeded, waits, shaped.quiet waits]
  | some ticket =>
    obtain ⟨reply, acked, earlier | ⟨noAck, failed⟩⟩ := shaped.dropped_ack name waits
    · simp [acked, succeeded, earlier]
    · simp [acked, succeeded, noAck, failed]

theorem panicked : Shaped (view.panicked name) := by
  cases waits : view.stage.ticket? with
  | none =>
    have noAck : view.acked (view.task.queue.filterMap (droppedAck name)) =
        none := by
      simp [acked, waits]
    rw [View.panicked, noAck]
    exact .of_leaves (fun _ => rfl) waits rfl (by simp [abort])
  | some ticket =>
    obtain ⟨reply, acked, _⟩ := shaped.dropped_ack name waits
    rw [View.panicked, acked]
    exact ⟨fun _ => rfl, by simp [waits], [], by simp [owed, abort], by simp, by simp⟩

theorem enqueue (noTicket : view.stage.ticket? = none) (running : view.task.running = true)
    (left : view.stage.leaves command = true) {handed pending : List (List Record)} :
    Shaped { view with task := view.task.enqueue command, handed, pending } := by
  refine .of_leaves (by simp [SinkTask.enqueue, running]) noTicket (shaped.quiet noTicket) ?_
  rw [enqueue_queue]
  exact forall_mem_append.mpr ⟨shaped.all_leaves noTicket, forall_mem_singleton.mpr left⟩

theorem settle (empty : view.task.queue = []) (task : next.task = view.task)
    (noTicket : next.stage.ticket? = none) (noAck : next.ack = none) : Shaped next := by
  refine .of_leaves ?_ noTicket noAck ?_
  · rw [task]
    exact shaped.halted
  · simp [task, empty]

theorem relax (notStarting : ∀ startup waiting, view.stage ≠ .starting startup waiting)
    (task : next.task = view.task) (noTicket : next.stage.ticket? = none) (noAck : next.ack = none)
    (leaves : ∀ command, command.isBegin = false → next.stage.leaves command = true) :
    Shaped next := by
  refine .of_leaves ?_ noTicket noAck ?_
  · rw [task]
    exact shaped.halted
  · rw [task]
    intro command mem
    exact leaves command (shaped.notBegin notStarting command mem)

end

end Shaped

theorem shaped_step {routes : Record → Bool} {event : Event}
    (shaped : Shaped view) (stepped : SinkStep routes event view next) : Shaped next := by
  cases stepped with
  | same => exact shaped
  | handled pending => exact shaped.handled pending
  | panicked running => exact shaped.panicked _
  | crashed => exact .of_leaves (fun _ => rfl) rfl rfl (by simp [spawn])
  | @recovered _ epoch manifest rollback stage =>
    refine .of_leaves (by simp [spawn, setQueue]) rfl rfl ?_
    cases rollback <;> simp [leaves, isRollback]
  | cycled | writeLost | landed => exact { shaped with }
  | writeSent stage pending running =>
    exact shaped.enqueue (by simp [stage]) running (by simp [stage, leaves, isBegin])
  | rolledBack stage pending running =>
    rcases stage with stage | stage <;>
      exact shaped.enqueue (by simp [stage]) running (by simp [stage, leaves, isBegin])
  | prepare stage | commitFailed stage | ready stage =>
    exact shaped.relax (by simp [stage]) rfl rfl (shaped.quiet (by simp [stage])) (by simp [leaves])
  | beginSent stage fresh running | preCommitSent stage fresh running
  | commitSent stage fresh running =>
    exact shaped.send (by simp [stage]) rfl rfl (by simp [stage, leaves]) fresh running rfl rfl
  | preCommitted _ acked | begun _ acked | decided _ acked =>
    exact shaped.settle (shaped.empty_of_ack acked) rfl rfl rfl
  | abandoned stage =>
    refine shaped.relax ?_ rfl rfl rfl (by simp [leaves])
    rcases stage with ⟨waiting, stage⟩ | stage <;> simp [stage]
  | saved stage | found stage | notSaved stage | finished stage =>
    exact shaped.settle (shaped.empty_of_leaves stage rfl fun _ => rfl) rfl rfl
      (shaped.quiet (by simp [stage]))
  | unreachable stage ended =>
    exact shaped.settle (shaped.halted ended) rfl rfl (shaped.quiet (by simp [stage]))
  | commitTimedOut stage =>
    refine shaped.relax ?_ rfl rfl rfl (by simp [leaves])
    rcases stage with ⟨waiting, stage⟩ | ⟨committed, stage⟩ <;> simp [stage]
  | @beginFailed _ startup stage =>
    have notBegin : ∀ command ∈ view.task.queue, command.isBegin = false := by
      rcases stage with stage | ⟨ticket, result, stage, acked, _⟩ | stage
      · intro command mem
        exact leaves_notBegin (shaped.all_leaves (by simp [stage]) command mem)
      · simp [shaped.empty_of_ack acked]
      · exact shaped.notBegin (by simp [stage])
    refine .of_leaves shaped.halted (by cases startup <;> rfl) rfl ?_
    intro command mem
    cases startup <;> simp [leaves, notBegin command mem]

theorem shaped_initial (initial : Initial state) : Shaped (viewOf state sink) := by
  obtain ⟨point, _, _, sinks, _, _⟩ := initial
  have stage : (viewOf state sink).stage = .down := by simp [viewOf, point]
  have empty : (viewOf state sink).task.queue = [] := by
    simp [viewOf, sinks sink, spawn]
  exact .of_leaves (fun _ => empty) (by rw [stage]; rfl) (by simp [viewOf, point]) (by simp [empty])

section Runs

variable {config : Config} {admits : State → Label → Prop}

theorem shaped_of_reaches (mem : sink ∈ config.exactlyOnceSinks)
    (reached : (system config).Reaches admits state) : Shaped (viewOf state sink) := by
  induction reached with
  | initial initial => exact shaped_initial initial
  | step earlier _ stepped shaped =>
    obtain ⟨event, _, moved⟩ := simulates mem (wired_of_reaches earlier) (step_cases stepped)
    exact shaped_step shaped moved

theorem view_invariant {holds : View → Prop} (mem : sink ∈ config.exactlyOnceSinks)
    (initially : ∀ start, Initial start → holds (viewOf start sink))
    (kept : ∀ before label event next, (system config).Reaches admits before →
      admits before label → Caused before sink label event →
      SinkStep (config.routes sink) event (viewOf before sink) next →
      Shaped (viewOf before sink) → holds (viewOf before sink) → holds next)
    (reached : (system config).Reaches admits state) : holds (viewOf state sink) := by
  induction reached with
  | initial initial => exact initially _ initial
  | step earlier admitted stepped known =>
    obtain ⟨event, caused, moved⟩ := simulates mem (wired_of_reaches earlier) (step_cases stepped)
    exact kept _ _ event _ earlier admitted caused moved (shaped_of_reaches mem earlier) known

end Runs

end LaminarDB.Checkpoint

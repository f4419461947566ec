import LaminarDB.Checkpoint.Coordinator

/-!
# The steps of the checkpoint system

`Step` and `Advance` list what one step can do, with its guard and the state
after it. Every invariant is a case analysis over them.
-/

namespace LaminarDB.Checkpoint

open Library

/-- `next` differs from `state` only in where the coordinator stands. -/
structure Frame (state next : State) : Prop where
  sinks : next.sinks = state.sinks
  handed : next.handed = state.handed
  nextTicket : next.nextTicket = state.nextTicket
  acks : next.acks = state.acks
  consumed : next.consumed = state.consumed
  offsets : next.offsets = state.offsets
  stored : next.stored = state.stored

variable (config : Config) (state : State) {phase : Phase}

theorem finish_frame {statuses : List (Nat × SinkCommitStatus)} :
    Frame state (finish config state statuses) := by
  unfold finish
  split <;> exact ⟨rfl, rfl, rfl, rfl, rfl, rfl, rfl⟩

theorem reply_frame {sink : Nat} {result : CallResult} {todo : List Nat} :
    Frame state (reply config state sink result todo phase) := by
  cases phase with
  | beginning | preCommitting =>
    simp only [reply]
    split <;> exact ⟨rfl, rfl, rfl, rfl, rfl, rfl, rfl⟩
  | committing manifest statuses => exact ⟨rfl, rfl, rfl, rfl, rfl, rfl, rfl⟩

theorem complete_frame : Frame state (complete config state phase) := by
  cases phase with
  | beginning | preCommitting => exact ⟨rfl, rfl, rfl, rfl, rfl, rfl, rfl⟩
  | committing manifest statuses =>
    simp only [complete]
    split
    · exact finish_frame config state
    · exact ⟨rfl, rfl, rfl, rfl, rfl, rfl, rfl⟩

inductive Advance (config : Config) (state : State) : State → Prop where
  | written :
      state.point = .writing [] →
      Advance config state { state with point := .idle }
  | writeSent {sink batch pending} :
      state.point = .writing ((sink, batch) :: pending) →
      (state.sinks sink).running = true →
      Advance config state
        { state.enqueue sink (.writeBatch batch) with
          handed := Function.update state.handed sink (state.handed sink ++ [batch])
          point := .writing pending }
  | writeLost {sink batch pending} :
      state.point = .writing ((sink, batch) :: pending) →
      (state.sinks sink).running = false →
      Advance config state
        { state with
          handed := Function.update state.handed sink (state.handed sink ++ [batch])
          point := .writing pending }
  | completed {phase waiting} :
      state.point = .round phase [] waiting →
      Advance config state (complete config state phase)
  | replied {phase sink todo ticket result} :
      state.point = .round phase (sink :: todo) (some ticket) →
      state.acks ticket = some result →
      Advance config state (reply config state sink result todo phase)
  | sent {phase sink todo} :
      state.point = .round phase (sink :: todo) none →
      (state.sinks sink).running = true →
      Advance config state
        { state.enqueue sink (phase.command state.epoch state.nextTicket) with
          nextTicket := state.nextTicket + 1
          point := .round phase (sink :: todo) (some state.nextTicket) }
  | closed {phase sink todo} :
      state.point = .round phase (sink :: todo) none →
      (state.sinks sink).running = false →
      Advance config state
        (reply config state sink (SinkTask.closedError (config.sinkName sink)) todo phase)
  | undone {startup epoch} :
      state.point = .undoing startup epoch [] →
      Advance config state { state with point := if startup then .stopped else .idle }
  | rollbackSent {startup epoch sink todo} :
      state.point = .undoing startup epoch (sink :: todo) →
      (state.sinks sink).running = true →
      Advance config state
        { state.enqueue sink (.rollbackEpoch epoch) with
          point := .undoing startup epoch todo }
  | rollbackSkipped {startup epoch sink todo} :
      state.point = .undoing startup epoch (sink :: todo) →
      (state.sinks sink).running = false →
      Advance config state { state with point := .undoing startup epoch todo }

variable {config : Config}

theorem advance_cases {state next : State}
    (advanced : advance config state = some next) : Advance config state next := by
  unfold advance at advanced
  split at advanced
  case h_1 point =>
    cases advanced
    exact .written point
  case h_2 sink batch pending point =>
    split at advanced
    · rename_i running
      split at advanced <;> cases advanced
      exact .writeSent point running
    · rename_i stopped
      cases advanced
      exact .writeLost point (Bool.eq_false_iff.mpr stopped)
  case h_3 phase waiting point =>
    cases advanced
    exact .completed point
  case h_4 phase sink todo ticket point =>
    rw [Option.map_eq_some_iff] at advanced
    rcases advanced with ⟨result, acked, rfl⟩
    exact .replied point acked
  case h_5 phase sink todo point =>
    split at advanced
    · rename_i running
      split at advanced <;> cases advanced
      exact .sent point running
    · rename_i stopped
      cases advanced
      exact .closed point (Bool.eq_false_iff.mpr stopped)
  case h_6 startup epoch point =>
    cases advanced
    exact .undone point
  case h_7 startup epoch sink todo point =>
    split at advanced
    · rename_i running
      split at advanced <;> cases advanced
      exact .rollbackSent point running
    · rename_i stopped
      cases advanced
      exact .rollbackSkipped point (Bool.eq_false_iff.mpr stopped)
  all_goals simp at advanced

inductive Step (config : Config) (state : State) : Label → State → Prop where
  | started :
      state.point = .stopped →
      Step config state (.recover none) (recover config state none)
  | recovered {position manifest} :
      state.point = .stopped →
      state.stored[position]? = some manifest →
      Step config state (.recover (some position)) (recover config state (some manifest))
  | crashed : Step config state .crash (crash state)
  | cycled {source count filterErrors} :
      state.point = .idle →
      Step config state (.cycle source count filterErrors)
        { state with
          point := .writing (routedBatches config (cycleRecords state source count) filterErrors)
          consumed := Function.update state.consumed source (state.consumed source + count) }
  | checkpointed {offsets} :
      state.point = .idle →
      Step config state (.checkpoint offsets)
        { state with
          point := .round .preCommitting config.exactlyOnceSinks none
          offsets := offsets.getD state.consumed }
  | advanced {next} : Advance config state next → Step config state .advance next
  | preCommitTimedOut {sink todo waiting} :
      state.point = .round .preCommitting (sink :: todo) waiting →
      Step config state .timeOut { state with point := .idle }
  | commitTimedOut {manifest statuses sink todo waiting} :
      state.point = .round (.committing manifest statuses) (sink :: todo) waiting →
      Step config state .timeOut
        { state with
          point := .updating { manifest with sinkCommitStatuses := timedOutStatuses config } }
  | rejected {manifest} :
      state.point = .persisting manifest →
      Step config state .reject { state with point := .idle }
  | saved {manifest} :
      state.point = .persisting manifest →
      Step config state (.persist .written)
        { state.save manifest with
          point := .round (.committing manifest []) config.exactlyOnceSinks none }
  | found {manifest} :
      state.point = .persisting manifest →
      Step config state (.persist .alreadyExists)
        { state with
          point := .round (.committing manifest []) config.exactlyOnceSinks none }
  | notSaved {manifest outcome background} :
      state.point = .persisting manifest →
      outcome = .failed ∨ outcome = .unconfirmed →
      Step config state (.persist outcome)
        { state with
          point := .undoing false manifest.epoch config.exactlyOnceSinks
          background }
  | updated {manifest} :
      state.point = .updating manifest →
      Step config state (.update .written)
        (finish config (state.update manifest) manifest.sinkCommitStatuses)
  | notUpdated {manifest outcome background} :
      state.point = .updating manifest →
      Step config state (.update outcome)
        (finish config { state with background } manifest.sinkCommitStatuses)
  | landed {position stored background} :
      Step config state (.land position) { state with stored, background }
  | handled {sink result command queue} :
      (state.sinks sink).queue = command :: queue →
      Step config state (.handle sink result)
        ((state.setSink sink
            (((state.sinks sink).setQueue queue).handle result command).1).acknowledge
          (((state.sinks sink).setQueue queue).handle result command).2.toList)
  | panicked {sink} :
      (state.sinks sink).running = true →
      Step config state (.panic sink)
        ((state.setSink sink (state.sinks sink).abort).acknowledge
          ((state.sinks sink).queue.filterMap (SinkTask.droppedAck (config.sinkName sink))))

theorem step_cases {state next : State} {label : Label}
    (stepped : step config state label = some next) : Step config state label next := by
  cases label
  case crash =>
    cases stepped
    exact .crashed
  case advance => exact .advanced (advance_cases stepped)
  all_goals simp only [step] at stepped
  case recover =>
    split at stepped
    case h_1 point =>
      cases stepped
      exact .started point
    case h_2 point =>
      obtain ⟨manifest, found, rfl⟩ := Option.map_eq_some_iff.mp stepped
      exact .recovered point found
    case h_3 => cases stepped
  case timeOut =>
    split at stepped <;> cases stepped
    case h_1 point => exact .preCommitTimedOut point
    case h_2 point => exact .commitTimedOut point
  case persist outcome =>
    split at stepped
    case h_1 point =>
      cases outcome with
      | written =>
        cases stepped
        exact .saved point
      | failed | unconfirmed =>
        cases stepped
        exact .notSaved point (by simp)
      | alreadyExists =>
        simp only [persist] at stepped
        split at stepped <;> cases stepped
        exact .found point
    case h_2 => cases stepped
  case update outcome =>
    split at stepped
    case h_1 point =>
      cases outcome with cases stepped
      | written => exact .updated point
      | failed | unconfirmed => exact .notUpdated point
    case h_2 => cases stepped
  case land => split at stepped <;> cases stepped <;> exact .landed
  -- What is left is enabled at one point each.
  all_goals
    split at stepped <;> cases stepped
    rename_i enabled
  · exact .cycled enabled
  · exact .checkpointed enabled
  · exact .rejected enabled
  · exact .handled enabled
  · exact .panicked enabled

end LaminarDB.Checkpoint

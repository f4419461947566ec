import LaminarDB.Checkpoint.Contents
import LaminarDB.Checkpoint.Delivery

/-!
# Atomic commitment across crashes

If a crash finds the epoch of the latest manifest committed in every exactly-once sink, and every
write falls into the epoch that is open for it, then recovery positions the sources exactly behind
what is visible in these sinks.
-/

namespace LaminarDB.Checkpoint

open Library List SinkTask View

def Event.Safe (view : View) : Event → Prop
  | .handled (.writeBatch _) _ => view.task.ledger.current.isSome = true
  | .crashed => ∀ manifest, view.latest = some manifest →
      manifest.epoch ∈ view.task.ledger.committed
  | .recovered manifest => manifest = view.latest
  | .cycled _ _ filterFailed => filterFailed = false
  | .prepared passed => passed = none
  | .saved manifest => view.task.ledger.openEpoch = some manifest.epoch
  | .found => False
  | .landed => False
  | _ => True

def Stage.inCheckpoint : Stage → Bool
  | .preparing _ => true
  | .prepared => true
  | .deciding _ => true
  | .decided _ => true
  | _ => false

/-- The offsets of a running checkpoint are those of the input that was processed. -/
def View.Aligned (view : View) : Prop :=
  view.stage.inCheckpoint = true → view.offsets = view.consumed

variable {routes : Record → Bool} {event : Event}

theorem aligned_step {view next : View} (safe : event.Safe view) (aligned : view.Aligned)
    (stepped : SinkStep routes event view next) : next.Aligned := by
  cases stepped with
  | same | handled | panicked | landed | rolledBack => exact aligned
  | prepare =>
    obtain rfl : _ = none := safe
    exact fun _ => rfl
  | cycled stage | writeSent stage | writeLost stage =>
    intro inCheckpoint
    rw [stage] at inCheckpoint
    cases inCheckpoint
  | preCommitSent stage | commitSent stage | preCommitted stage | saved stage | found stage
  | decided stage | unreachable stage => exact fun _ => aligned (by rw [stage]; rfl)
  | commitTimedOut stage =>
    rcases stage with ⟨_, stage⟩ | ⟨_, stage⟩ <;> exact fun _ => aligned (by rw [stage]; rfl)
  | @beginFailed _ startup => cases startup <;> exact nofun
  | crashed | recovered | beginSent | abandoned | notSaved | commitFailed | finished | begun
  | ready => exact nofun

namespace Accounted

variable {view next : View}

section

variable (accounted : Accounted routes view)

include accounted

theorem panicked (shaped : Shaped view) (name : String) :
    Accounted routes (view.panicked name) := by
  refine
    { accounted with
      commits := by simp [abort]
      single := by simp [abort]
      contains := ?_ }
  rw [shaped.succeeded_panicked name]
  exact accounted.contains.abort

theorem crashed
    (safe : ∀ manifest, view.latest = some manifest → manifest.epoch ∈ view.task.ledger.committed)
    (stepped : SinkStep routes .crashed view next) : Accounted routes next := by
  have visible : Exact routes view.base view.task.ledger.visible := by
    rcases accounted.settled with exact | ⟨manifest, isLatest, missing⟩
    · exact exact
    · exact absurd (safe manifest isLatest) missing
  cases stepped
  exact
    { accounted with
      settled := .inl visible
      commits := by simp [spawn]
      single := by simp [spawn]
      recent := by simp
      sent := fun _ => rfl
      contains := visible }

theorem recovered (stepped : SinkStep routes (.recovered view.latest) view next) :
    Accounted routes next := by
  cases stepped with
  | @recovered _ epoch _ rollback stage later =>
    have visible := accounted.contains
    rw [stage] at visible
    have below : ∀ manifest, view.latest = some manifest → manifest.epoch < epoch := by
      intro manifest isLatest
      rw [later manifest isLatest]
      exact Nat.lt_succ_self _
    refine
      { accounted with
        commits := ?_
        single := by cases rollback <;> simp
        recent := fun _ manifest isLatest => Nat.le_of_lt (below manifest isLatest)
        sent := fun _ => rfl
        contains := ⟨⟨visible, rfl, below⟩, by simp⟩ }
    intro other ticket queue isHead
    cases rollback <;> simp at isHead

theorem cycled {source count : Nat}
    (stepped : SinkStep routes (.cycled source count false) view next) : Accounted routes next := by
  cases stepped with
  | cycled stage noPending isRecords =>
    have filling := accounted.contains
    rw [stage] at filling
    refine { accounted with sent := fun other => absurd stage other, contains := ?_ }
    rw [stage]
    refine ⟨?_, filling.fresh⟩
    intro running clean isOpen
    have before := (filling.complete running clean isOpen).cycle source count
    rw [← isRecords] at before
    simp only [total, noPending, flatten_nil, append_nil, Bool.false_eq_true, false_or] at before ⊢
    split
    · next empty => simpa [empty] using before
    · simpa using before

theorem saved (shaped : Shaped view) (aligned : view.Aligned) {manifest : CheckpointManifest}
    (isOpen : view.task.ledger.openEpoch = some manifest.epoch)
    (stepped : SinkStep routes (.saved manifest) view next) : Accounted routes next := by
  cases stepped with
  | saved stage epoch isOffsets =>
    have offsets := isOffsets.trans (aligned (by rw [stage]; rfl))
    have complete := accounted.contains
    rw [stage] at complete
    rw [epoch] at isOpen
    have empty := shaped.empty_of_leaves stage rfl fun _ => rfl
    refine
      { settled := .inr ⟨manifest, rfl, by rw [epoch]; exact (complete isOpen).2⟩
        below := ?_
        commits := by simp [empty]
        single := by simp [empty]
        recent := ?_
        sent := fun _ => accounted.sent (by simp [stage])
        contains := ?_ }
    · intro earlier mem
      obtain ⟨latest, isLatest, notLater⟩ := accounted.below earlier mem
      refine ⟨manifest, rfl, ?_⟩
      rw [epoch]
      exact Nat.le_trans notLater (accounted.recent (by simp [stage]) latest isLatest)
    · rintro _ latest isLatest
      obtain rfl := Option.some.inj isLatest
      exact Nat.le_of_eq epoch
    · simp only [succeeded, shaped.quiet (by simp [stage])]
      exact ⟨⟨manifest, rfl, epoch, offsets⟩, complete, isOpen⟩

theorem updated (stored : StoredNow view) {stage : Stage} {epoch : Nat}
    (later : view.epoch ≤ epoch) {latest : Option CheckpointManifest}
    (isLatest : latest = view.latest ∨ ∃ manifest, latest = some manifest ∧
      manifest.epoch = view.epoch ∧ manifest.sourceOffsets = view.consumed)
    (sent : stage ≠ .free → view.pending = [])
    (contains : stage.Contains routes { view with stage, epoch, latest } view.succeeded) :
    Accounted routes { view with stage, epoch, latest } := by
  obtain ⟨before, isBefore, sameEpoch, sameOffsets⟩ := stored
  obtain ⟨after, rfl, itsEpoch, itsOffsets⟩ : ∃ manifest, latest = some manifest ∧
      manifest.epoch = view.epoch ∧ manifest.sourceOffsets = view.consumed := by
    rcases isLatest with same | replaced
    · exact ⟨before, same.trans isBefore, sameEpoch, sameOffsets⟩
    · exact replaced
  have base : after.sourceOffsets = view.base := by
    simp [base, isBefore, sameOffsets, itsOffsets]
  have epochs : after.epoch = before.epoch := itsEpoch.trans sameEpoch.symm
  refine
    { settled := ?_
      below := ?_
      commits := ?_
      single := accounted.single
      recent := ?_
      sent
      contains }
  · refine accounted.settled.imp (fun visible => ?_) ?_
    · show Exact routes after.sourceOffsets _
      rw [base]
      exact visible
    · rintro ⟨manifest, isLatest, missing⟩
      cases isBefore.symm.trans isLatest
      exact ⟨after, rfl, by rw [epochs]; exact missing⟩
  · intro earlier mem
    obtain ⟨manifest, isLatest, notLater⟩ := accounted.below earlier mem
    cases isBefore.symm.trans isLatest
    exact ⟨after, rfl, by rw [epochs]; exact notLater⟩
  · intro other ticket queue isHead
    obtain ⟨⟨manifest, isLatest, isEpoch⟩, exact⟩ := accounted.commits other ticket queue isHead
    cases isBefore.symm.trans isLatest
    rw [← base] at exact
    exact ⟨⟨after, rfl, epochs.trans isEpoch⟩, exact⟩
  · rintro _ manifest isLatest
    cases isLatest
    rw [itsEpoch]
    exact later

section

variable (shaped : Shaped view)

include shaped

theorem of_decided {committed : Bool} (stage : view.stage = .decided committed) :
    StoredNow view ∧ Complete routes view ∧ view.task.queuedBatches = [] := by
  have contains := accounted.contains
  rw [stage] at contains
  cases committed with
  | false => exact contains
  | true =>
    have empty := shaped.empty_of_leaves stage rfl fun _ => rfl
    exact ⟨contains.1, .of_closed contains.2.closed, by simp [queuedBatches, empty]⟩

variable {waiting : Option Nat}

theorem of_deciding (stage : view.stage = .deciding waiting) :
    StoredNow view ∧ Complete routes view ∧ view.task.queuedBatches = [] := by
  have contains := accounted.contains
  rw [stage] at contains
  have drained : view.task.queuedBatches = [] := by
    obtain ⟨left, split, found, _⟩ := shaped.queue
    have nothing : left = [] := by
      rw [eq_nil_iff_forall_not_mem]
      intro command mem
      have isLeft := (found command mem).1
      simp [stage, Stage.leaves] at isLeft
    rw [queuedBatches, split, nothing, owed, stage]
    cases view.ack <;> cases waiting <;> rfl
  cases succeeded : view.succeeded with rw [succeeded] at contains
  | false =>
    exact ⟨contains.1, contains.2.1, drained⟩
  | true =>
    exact ⟨contains.1, .of_closed contains.2.closed, drained⟩

theorem of_preparing
    (stage : (∃ waiting, view.stage = .preparing waiting) ∨ view.stage = .prepared) :
    Filling routes view := by
  have contains := accounted.contains
  have sent : view.pending = [] := by
    apply accounted.sent
    rcases stage with ⟨waiting, stage⟩ | stage <;> simp [stage]
  rcases stage with ⟨waiting, stage⟩ | stage
  · rw [stage] at contains
    cases succeeded : view.succeeded with rw [succeeded] at contains
    | false =>
      exact contains
    | true =>
      have empty := shaped.empty_of_succeeded succeeded
      exact .of_complete contains (by simp [queuedBatches, empty]) sent
  · rw [stage] at contains
    have empty := shaped.empty_of_leaves stage rfl fun _ => rfl
    exact .of_complete contains (by simp [queuedBatches, empty]) sent

theorem of_started (stage : view.stage = .started) : Filling routes view := by
  have contains := accounted.contains
  rw [stage] at contains
  have empty := shaped.empty_of_leaves stage rfl fun _ => rfl
  exact .of_complete (contains.1.complete contains.2 accounted.below)
    (by simp [queuedBatches, empty]) (accounted.sent (by simp [stage]))

end

theorem of_starting {startup : Bool}
    (stage : view.stage = .starting startup waiting) (failed : view.succeeded = false) :
    Restarted routes view ∧ (startup = false → view.task.ledger.current = none) := by
  have contains := accounted.contains
  rw [stage, failed] at contains
  exact contains

theorem beginFailed (shaped : Shaped view) (stepped : SinkStep routes .beginFailed view next) :
    Accounted routes next := by
  cases stepped with
  | @beginFailed _ startup stage =>
    have busy : view.stage ≠ .down ∧ view.stage ≠ .free := by
      rcases stage with stage | ⟨_, _, stage, _⟩ | stage <;> simp [stage]
    have failed : view.stage = .started ∨
        (Restarted routes view ∧ (startup = false → view.task.ledger.current = none)) := by
      rcases stage with stage | ⟨ticket, result, stage, acked, failed⟩ | stage
      · exact .inr (accounted.of_starting stage (shaped.notSucceeded (by simp [stage])))
      · exact .inr (accounted.of_starting stage (by simp [succeeded, acked, failed]))
      · exact .inl stage
    cases startup with
    | true =>
      have visible : Exact routes view.base view.task.ledger.visible := by
        rcases failed with stage | ⟨restarted, _⟩
        · have contains := accounted.contains
          rw [stage] at contains
          exact contains.1.visible
        · exact restarted.visible
      exact accounted.goto busy visible
    | false =>
      have filling : Filling routes view := by
        rcases failed with stage | ⟨_, closed⟩
        · exact accounted.of_started shaped stage
        · exact .of_closed (closed rfl)
      exact accounted.goto busy { filling with }

theorem finished (shaped : Shaped view)
    {latest : Option CheckpointManifest} (stage : view.stage = .decided true)
    (isLatest : latest = view.latest ∨ ∃ manifest, latest = some manifest ∧
      manifest.epoch = view.epoch ∧ manifest.sourceOffsets = view.consumed) :
    Accounted routes
      { view with stage := .starting false none, epoch := view.epoch + 1, latest } := by
  have contains := accounted.contains
  rw [stage] at contains
  obtain ⟨stored, closed⟩ := contains
  have after : ∃ manifest, latest = some manifest ∧ manifest.epoch = view.epoch ∧
      manifest.sourceOffsets = view.consumed := by
    rcases isLatest with rfl | replaced
    · exact stored
    · exact replaced
  obtain ⟨manifest, isManifest, epoch, offsets⟩ := after
  have visible := closed.visible
  rw [stored.base_eq] at visible
  refine accounted.updated stored (Nat.le_succ _) isLatest
    (fun _ => accounted.sent (by simp [stage])) ?_
  rw [shaped.notSucceeded (by simp [stage])]
  refine ⟨⟨?_, ?_, ?_⟩, fun _ => closed.closed⟩
  · simp only [base, isManifest, Option.elim_some, offsets]
    exact visible
  · simp [base, isManifest, offsets]
  · intro other isOther
    cases isManifest.symm.trans isOther
    rw [epoch]
    exact Nat.lt_succ_self _

end

end Accounted

theorem accounted_step {view next : View} (safe : event.Safe view) (shaped : Shaped view)
    (aligned : view.Aligned) (accounted : Accounted routes view)
    (stepped : SinkStep routes event view next) : Accounted routes next := by
  have contains := accounted.contains
  have current : ∀ {committed : Bool} {latest : Option CheckpointManifest},
      view.stage = .decided committed →
      (latest = view.latest ∨ ∃ manifest, latest = some manifest ∧
        manifest.epoch = view.epoch ∧ manifest.sourceOffsets = view.offsets) →
      latest = view.latest ∨ ∃ manifest, latest = some manifest ∧
        manifest.epoch = view.epoch ∧ manifest.sourceOffsets = view.consumed := by
    intro committed latest stage isLatest
    rwa [aligned (by rw [stage]; rfl)] at isLatest
  cases stepped with
  | same => exact accounted
  | handled pending =>
    refine accounted.handled ?_ pending shaped
    rintro batch rfl
    exact safe
  | panicked running => exact accounted.panicked shaped _
  | crashed => exact accounted.crashed safe .crashed
  | recovered stage later =>
    obtain rfl : _ = view.latest := safe
    exact accounted.recovered (.recovered stage later)
  | cycled stage noPending isRecords =>
    obtain rfl : _ = false := safe
    exact accounted.cycled (.cycled stage noPending isRecords)
  | writeSent stage isPending running =>
    rw [stage] at contains
    have complete := contains.complete
    simp only [total, isPending, flatten_cons] at complete
    refine accounted.enqueue rfl id (fun other => absurd stage other) ?_
    rw [stage]
    refine ⟨?_, contains.fresh⟩
    simp only [total, queuedBatches_enqueue, SinkCommand.batch?, Option.toList_some,
      flatten_concat, append_assoc] at complete ⊢
    exact complete
  | writeLost stage isPending ended =>
    rw [stage] at contains
    refine { accounted with sent := fun other => absurd stage other, contains := ?_ }
    rw [stage]
    refine ⟨?_, contains.fresh⟩
    intro running
    simp [ended] at running
  | prepare stage noPending =>
    rw [stage] at contains
    have unanswered := shaped.notSucceeded (by simp [stage])
    refine
      { accounted with
        recent := fun _ => accounted.recent (by simp [stage])
        sent := fun _ => noPending
        contains := ?_ }
    simp only [succeeded] at unanswered ⊢
    rw [unanswered]
    exact { contains with }
  | beginSent stage =>
    rw [shaped.notSucceeded (by simp [stage]), stage] at contains
    exact accounted.enqueue rfl (by simp [stage]) (fun _ => accounted.sent (by simp [stage]))
      ⟨{ contains.1 with }, contains.2⟩
  | preCommitSent stage =>
    rw [shaped.notSucceeded (by simp [stage]), stage] at contains
    exact accounted.enqueue rfl (by simp [stage]) (fun _ => accounted.sent (by simp [stage]))
      (contains.enqueue rfl)
  | @commitSent _ ticket stage fresh running =>
    rw [shaped.notSucceeded (by simp [stage]), stage] at contains
    obtain ⟨stored, complete, isOpen⟩ := contains
    have empty := shaped.empty_of_leaves stage rfl fun _ => rfl
    have exact := (complete isOpen).1
    rw [← stored.base_eq] at exact
    refine
      { accounted with
        commits := ?_
        single := by simp [empty]
        recent := fun _ => accounted.recent (by simp [stage])
        sent := fun _ => accounted.sent (by simp [stage])
        contains := ⟨stored, complete, isOpen⟩ }
    intro epoch other queue isHead
    rw [enqueue_queue, empty] at isHead
    cases isHead
    obtain ⟨manifest, isLatest, isEpoch, _⟩ := stored
    exact ⟨⟨manifest, isLatest, isEpoch⟩, fun _ => exact⟩
  | preCommitted stage acked succeeded =>
    simp only [stage, View.succeeded, acked, Option.any_some, succeeded] at contains
    exact accounted.goto (by simp [stage]) contains
  | abandoned stage =>
    refine accounted.goto ?_ { accounted.of_preparing shaped stage with }
    rcases stage with ⟨waiting, stage⟩ | stage <;> simp [stage]
  | saved stage epoch offsets =>
    exact accounted.saved shaped aligned safe (.saved stage epoch offsets)
  | found | landed => exact absurd safe id
  | notSaved stage =>
    exact accounted.goto (by simp [stage]) { accounted.of_preparing shaped (.inr stage) with }
  | @decided _ ticket result stage acked =>
    cases succeeded : result.isOk with
    | false => exact accounted.goto (by simp [stage]) (accounted.of_deciding shaped stage)
    | true =>
      simp only [stage, View.succeeded, acked, Option.any_some, succeeded] at contains
      exact accounted.goto (by simp [stage]) ⟨contains.1, { contains.2 with }⟩
  | unreachable stage ended =>
    exact accounted.goto (by simp [stage]) (accounted.of_deciding shaped stage)
  | commitTimedOut stage =>
    rcases stage with ⟨waiting, stage⟩ | ⟨committed, stage⟩
    · exact accounted.goto (by simp [stage]) (accounted.of_deciding shaped stage)
    · exact accounted.goto (by simp [stage]) (accounted.of_decided shaped stage)
  | commitFailed stage latest =>
    obtain ⟨stored, complete, drained⟩ := accounted.of_decided shaped stage
    have filling := Filling.of_complete complete drained (accounted.sent (by simp [stage]))
    exact accounted.updated stored (Nat.le_refl _) (current stage latest) (by simp) { filling with }
  | finished stage latest => exact accounted.finished shaped stage (current stage latest)
  | begun stage acked succeeded =>
    simp only [stage, View.succeeded, acked, Option.any_some, succeeded] at contains
    exact accounted.goto (by simp [stage]) ⟨{ contains.1 with }, contains.2⟩
  | beginFailed stage => exact accounted.beginFailed shaped (.beginFailed stage)
  | ready stage =>
    exact accounted.goto (by simp [stage]) { accounted.of_started shaped stage with }
  | rolledBack stage noPending running =>
    refine accounted.enqueue rfl id (fun _ => noPending) ?_
    rcases stage with stage | stage
    · rw [stage] at contains ⊢
      exact contains.enqueue rfl
    · rw [stage] at contains ⊢
      exact contains

/-- The steps that keep commitment atomic: an exactly-once sink writes inside an
epoch and has the epoch of a manifest open when it is stored, the manifest is
stored by this very write and no write to the store takes effect later, a crash
finds the latest manifest committed everywhere, recovery takes that manifest,
no filter fails, and a checkpoint is handed the offsets of the processed input. -/
def KeepsAtomic (config : Config) (state : State) : Label → Bool
  | .recover none => state.stored.isEmpty
  | .recover (some position) => position == 0
  | .crash =>
    state.stored.head?.all fun manifest =>
      config.exactlyOnceSinks.all fun sink =>
        decide (manifest.epoch ∈ (state.sinks sink).ledger.committed)
  | .cycle _ _ filterErrors =>
    config.exactlyOnceSinks.all fun sink => decide (sink ∉ filterErrors)
  | .checkpoint offsets => offsets.isNone
  | .persist .written =>
    match state.point with
    | .persisting manifest =>
      config.exactlyOnceSinks.all fun sink =>
        (state.sinks sink).ledger.openEpoch == some manifest.epoch
    | _ => true
  | .persist .alreadyExists => false
  | .land _ => false
  | .handle sink _ =>
    match (state.sinks sink).queue with
    | .writeBatch _ :: _ =>
      !config.exactlyOnce sink || (state.sinks sink).ledger.current.isSome
    | _ => true
  | _ => true

section Runs

variable {config : Config} {state next : State} {sink : Nat} (mem : sink ∈ config.exactlyOnceSinks)

include mem in
theorem safe_of_caused {label : Label} (keeps : KeepsAtomic config state label = true)
    (caused : Caused state sink label event) : event.Safe (viewOf state sink) := by
  cases caused with
  | @handled command queue result pending =>
    cases command with
    | writeBatch batch =>
      have exactlyOnce := (mem_filter.mp mem).2
      show (state.sinks sink).ledger.current.isSome = true
      simpa [KeepsAtomic, pending, exactlyOnce] using keeps
    | beginEpoch | preCommit | commitEpoch | rollbackEpoch => trivial
  | crashed =>
    intro manifest isLatest
    have isHead : state.stored.head? = some manifest := isLatest
    simp only [KeepsAtomic, isHead, Option.all_some, all_eq_true, decide_eq_true_eq] at keeps
    exact keeps sink mem
  | started =>
    have empty : state.stored = [] := by simpa [KeepsAtomic] using keeps
    simp [Event.Safe, viewOf, empty]
  | @recovered position manifest found =>
    have newest : position = 0 := by simpa [KeepsAtomic] using keeps
    subst newest
    show some manifest = state.stored.head?
    rw [head?_eq_getElem?, found]
  | @cycled source count filterErrors =>
    simp only [KeepsAtomic, all_eq_true, decide_eq_true_eq] at keeps
    exact decide_eq_false (keeps sink mem)
  | prepared => exact Option.isNone_iff_eq_none.mp keeps
  | saved point =>
    simp only [KeepsAtomic, point, all_eq_true, beq_iff_eq] at keeps
    exact keeps sink mem
  | found | landed => simp [KeepsAtomic] at keeps
  | quiet | beginFailed | rolledBack | notSaved | commitTimedOut | commitFailed => trivial

theorem accounted_initial (initial : Initial state) : Accounted routes (viewOf state sink) := by
  obtain ⟨point, stored, _, sinks, _, _⟩ := initial
  have task : (viewOf state sink).task = { spawn .empty with running := false } := sinks sink
  have latest : (viewOf state sink).latest = none := by simp [viewOf, stored]
  have stage : (viewOf state sink).stage = .down := by simp [viewOf, point]
  have visible : Exact routes (viewOf state sink).base (viewOf state sink).task.ledger.visible := by
    rw [task, base, latest]
    intro record
    simp [spawn, EpochLedger.empty]
  refine
    { settled := .inl visible
      below := by simp [task, spawn, EpochLedger.empty]
      commits := by simp [task, spawn]
      single := by simp [task, spawn]
      recent := by simp [stage]
      sent := by simp [viewOf, point]
      contains := ?_ }
  rw [stage]
  exact visible

include mem in
theorem accounted_of_reaches (reached : (system config).Reaches
      (fun before label => KeepsAtomic config before label = true) state) :
    Accounted (config.routes sink) (viewOf state sink) := by
  have both : (viewOf state sink).Aligned ∧ Accounted (config.routes sink) (viewOf state sink) := by
    refine @view_invariant _ _ _ _ (fun view => view.Aligned ∧ Accounted _ view) mem ?_ ?_ reached
    · intro start initial
      refine ⟨?_, accounted_initial initial⟩
      simp [View.Aligned, viewOf, initial.1, Stage.inCheckpoint]
    · rintro before label event next _ keeps caused stepped shaped ⟨aligned, accounted⟩
      have safe := safe_of_caused mem keeps caused
      exact ⟨aligned_step safe aligned stepped,
        accounted_step safe shaped aligned accounted stepped⟩
  exact both.2

/-- Each record before the position of its source is committed in the sink
exactly once, and no other record is. -/
def State.CommittedOnce (config : Config) (state : State) (sink : Nat) : Prop :=
  Exact (config.routes sink) state.consumed (state.sinks sink).ledger.visible

include mem in
theorem recover_stage {choice : Option Nat}
    (recovered : step config state (.recover choice) = some next) :
    (viewOf next sink).stage = .starting true none := by
  cases step_cases recovered with
  | started | recovered => exact stageOf_round_all mem

theorem recover_committedOnce (config : Config) {state next : State}
    (reached : (system config).Reaches
      (fun before label => KeepsAtomic config before label = true) state)
    {choice : Option Nat} (keeps : KeepsAtomic config state (.recover choice) = true)
    (recovered : step config state (.recover choice) = some next) {sink : Nat}
    (membership : sink ∈ config.exactlyOnceSinks) : next.CommittedOnce config sink := by
  have accounted := accounted_of_reaches membership (.step reached keeps recovered)
  have stage := recover_stage membership recovered
  have unanswered : (viewOf next sink).succeeded = false := by
    simp [succeeded, viewOf, show stageOf sink next.point = _ from stage]
  obtain ⟨⟨visible, positioned, _⟩, _⟩ := accounted.of_starting stage unanswered
  rw [positioned] at visible
  exact visible

end Runs

section OneSink

def crashAfter (ending : List Label) : State :=
  ((system (oneSink true)).run fresh
    (startUp true ++ writeOne (.ok ()) ++ prepareCheckpoint true ++ ending ++ [.crash])).getD fresh

def recoverLatest (state : State) : State :=
  (step (oneSink true) state (.recover (some 0))).getD fresh

theorem recover_committedOnce_oneSink :
    ((recoverLatest (crashAfter commitCheckpoint)).sinks 0).ledger.visible = [⟨0, 0⟩] ∧
      (recoverLatest (crashAfter commitCheckpoint)).consumed 0 = 1 ∧
      (recoverLatest (crashAfter commitCheckpoint)).CommittedOnce (oneSink true) 0 := by
  have reached : (system (oneSink true)).Reaches
      (fun before label => KeepsAtomic (oneSink true) before label = true)
      (crashAfter commitCheckpoint) :=
    .of_checkRun (fun _ _ keeps => keeps) (.initial fresh_initial) (by decide +kernel)
  have recovered : step (oneSink true) (crashAfter commitCheckpoint) (.recover (some 0)) =
      some (recoverLatest (crashAfter commitCheckpoint)) := rfl
  exact ⟨by decide +kernel, by decide +kernel,
    recover_committedOnce (oneSink true) reached rfl recovered (by decide +kernel)⟩

/-- A crash between the store of the manifest and the commit: the record is
behind the recovered offsets and in no epoch. -/
theorem recover_not_committedOnce :
    (system (oneSink true)).Reaches (fun _ _ => True) (crashAfter [.persist .written]) ∧
      step (oneSink true) (crashAfter [.persist .written]) (.recover (some 0)) =
        some (recoverLatest (crashAfter [.persist .written])) ∧
      (recoverLatest (crashAfter [.persist .written])).consumed 0 = 1 ∧
      ((recoverLatest (crashAfter [.persist .written])).sinks 0).ledger.visible = [] ∧
      ((recoverLatest (crashAfter [.persist .written])).sinks 0).queue = [.rollbackEpoch 1] ∧
      ¬ (recoverLatest (crashAfter [.persist .written])).CommittedOnce (oneSink true) 0 := by
  have reached : (system (oneSink true)).Reaches (fun _ _ => True)
      (crashAfter [.persist .written]) :=
    .of_checkRun (fun _ _ (_ : true = true) => trivial) (.initial fresh_initial) (by decide +kernel)
  refine ⟨reached, rfl, by decide +kernel, by decide +kernel, by decide +kernel, ?_⟩
  intro committed
  have once := committed ⟨0, 0⟩
  have lost : ((recoverLatest (crashAfter [.persist .written])).sinks 0).ledger.visible.count
      ⟨0, 0⟩ = 0 := by decide +kernel
  have covered : (recoverLatest (crashAfter [.persist .written])).consumed 0 = 1 := by
    decide +kernel
  rw [lost, covered] at once
  simp [oneSink] at once

end OneSink

end LaminarDB.Checkpoint

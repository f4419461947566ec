import LaminarDB.Library.Saturating
import LaminarDB.Library.Transition

/-!
# Sorting between watermarks

`WatermarkBoundedSortOperator` holds the events since the last watermark and emits them in the
order of their keys when a timer advances it. A full buffer is emitted with a watermark of its
own: the timestamp of the event that finds no room, which is then held. An event without rows has no
key: it panics and ends the run.
-/

namespace LaminarDB.Operator

open Library List

structure Event (Data : Type) where
  timestamp : I64
  data : Data

inductive Output (Data : Type) where
  | event (emitted : Event Data)
  | watermark (timestamp : I64)

structure WatermarkBoundedSortOperator (Data Key Cache : Type) where
  buffer : List (Key × Event Data)
  maxBufferSize : Nat
  lastWatermark : I64
  lateEventsDropped : Nat
  cachedSortIndices : Cache

namespace WatermarkBoundedSortOperator

variable {Data Key Cache : Type} [LinearOrder Key]
  (extractSortKey : Cache → Event Data → Option (Key × Cache))
  (operator : WatermarkBoundedSortOperator Data Key Cache)

def sorted : List (Event Data) :=
  (operator.buffer.insertionSort fun left right => left.1 ≤ right.1).map Prod.snd

def onWatermarkAdvance (newWatermark : I64) :
    WatermarkBoundedSortOperator Data Key Cache × List (Output Data) :=
  if newWatermark ≤ operator.lastWatermark then (operator, [])
  else
    ({ operator with buffer := [], lastWatermark := newWatermark },
      operator.sorted.map .event ++ [.watermark newWatermark])

def push (event : Event Data) : Option (WatermarkBoundedSortOperator Data Key Cache) :=
  (extractSortKey operator.cachedSortIndices event).map fun (sortKey, cachedSortIndices) =>
    { operator with buffer := operator.buffer ++ [(sortKey, event)], cachedSortIndices }

inductive Call (Data : Type) where
  | process (event : Event Data)
  | onTimer (timestamp : I64)

def step : Call Data → Option (WatermarkBoundedSortOperator Data Key Cache × List (Output Data))
  | .process event =>
    if event.timestamp ≤ operator.lastWatermark then
      some ({ operator with lateEventsDropped := operator.lateEventsDropped + 1 }, [])
    else if operator.maxBufferSize ≤ operator.buffer.length then
      let (emptied, outputs) := operator.onWatermarkAdvance event.timestamp
      (emptied.push extractSortKey event).map (·, outputs)
    else (operator.push extractSortKey event).map (·, [])
  | .onTimer timestamp => some (operator.onWatermarkAdvance timestamp)

structure Run (Data Key Cache : Type) where
  operator : WatermarkBoundedSortOperator Data Key Cache
  calls : List (Call Data)
  outputs : List (Output Data)

def runs : TransitionSystem (Run Data Key Cache) (Call Data) where
  initial run := ∃ maxBufferSize > 0, ∃ cache,
    run = ⟨⟨[], maxBufferSize, .minValue, 0, cache⟩, [], []⟩
  step run call := (run.operator.step extractSortKey call).map fun after =>
    ⟨after.1, run.calls ++ [call], run.outputs ++ after.2⟩

/-- A timer at or above the event was delivered before it. -/
def IsLate (calls : List (Call Data)) (event : Event Data) : Prop :=
  ∃ timestamp, event.timestamp ≤ timestamp ∧ [.onTimer timestamp, .process event] <+ calls

def Call.event? : Call Data → Option (Event Data)
  | .process event => some event
  | .onTimer _ => none

def emitted? : Output Data → Option (Event Data)
  | .event emitted => some emitted
  | .watermark _ => none

/-- After a watermark come only events above it. -/
def Allows : Output Data → Output Data → Prop
  | .watermark last, .event emitted => last < emitted.timestamp
  | _, _ => True

variable {extractSortKey} (run : Run Data Key Cache) {event : Event Data}

/-- Every event of the calls is emitted, held or counted, the last only if it is late. -/
def Accounted : Prop :=
  ∃ dropped : List (Event Data), dropped.length = run.operator.lateEventsDropped ∧
    (∀ event ∈ dropped, IsLate run.calls event) ∧
    (run.calls.filterMap Call.event?).Perm
      (run.outputs.filterMap emitted? ++ (run.operator.buffer.map Prod.snd ++ dropped))

structure KeepsPromise : Prop where
  promise : run.outputs.Pairwise Allows
  once : Accounted run

/-- An event is above the least `i64`, and finds room unless it is late. -/
def FindsRoom : Call Data → Prop
  | .process event => .minValue < event.timestamp ∧
      (run.operator.lastWatermark < event.timestamp →
        run.operator.buffer.length < run.operator.maxBufferSize)
  | .onTimer _ => True

structure Sound : Prop extends KeepsPromise run where
  passed : ∀ watermark, .watermark watermark ∈ run.outputs → watermark ≤ run.operator.lastWatermark
  held : ∀ entry ∈ run.operator.buffer, run.operator.lastWatermark < entry.2.timestamp
  timed : .minValue < run.operator.lastWatermark → .onTimer run.operator.lastWatermark ∈ run.calls

theorem IsLate.append {calls : List (Call Data)} (isLate : IsLate calls event)
    (more : List (Call Data)) : IsLate (calls ++ more) event := by
  obtain ⟨timestamp, above, before⟩ := isLate
  exact ⟨timestamp, above, before.trans (sublist_append_left _ _)⟩

variable {run} (sound : Sound run)

include sound

theorem Sound.process (room : FindsRoom run (.process event))
    {after : WatermarkBoundedSortOperator Data Key Cache × List (Output Data)}
    (stepped : run.operator.step extractSortKey (.process event) = some after) :
    Sound ⟨after.1, run.calls ++ [.process event], run.outputs ++ after.2⟩ := by
  obtain ⟨dropped, counted, late, once⟩ := sound.once
  have timed := fun started => mem_append_left [Call.process event] (sound.timed started)
  have called : ((run.calls ++ [Call.process event]).filterMap Call.event?).Perm
      (event :: (run.outputs.filterMap emitted? ++
        (run.operator.buffer.map Prod.snd ++ dropped))) := by
    rw [filterMap_append]
    exact (perm_append_singleton _ _).trans (once.cons event)
  by_cases isLate : event.timestamp ≤ run.operator.lastWatermark
  · rw [step, if_pos isLate] at stepped
    cases stepped
    rw [append_nil]
    refine ⟨⟨sound.promise, event :: dropped, congrArg (· + 1) counted,
      forall_mem_cons.mpr ⟨⟨_, isLate, ?_⟩, fun other mem => (late other mem).append _⟩,
      called.trans ?_⟩, sound.passed, sound.held, timed⟩
    · exact (singleton_sublist.mpr (sound.timed (room.1.trans_le isLate))).append_right _
    · exact perm_middle.symm.trans (perm_middle.symm.append_left _)
  · have fits := room.2 (not_le.mp isLate)
    simp only [step, if_neg isLate, if_neg (Nat.not_le.mpr fits), push, Option.map_map,
      Option.map_eq_some_iff] at stepped
    obtain ⟨key, -, rfl⟩ := stepped
    simp only [Function.comp_apply, append_nil]
    refine ⟨⟨sound.promise, dropped, counted, fun other mem => (late other mem).append _,
      called.trans ?_⟩, sound.passed, forall_mem_append.mpr
        ⟨sound.held, forall_mem_singleton.mpr (not_le.mp isLate)⟩, timed⟩
    simp only [map_append, append_assoc]
    exact perm_middle.symm.trans (perm_middle.symm.append_left _)

theorem Sound.onTimer (timestamp : I64) :
    let after := run.operator.onWatermarkAdvance timestamp
    Sound ⟨after.1, run.calls ++ [.onTimer timestamp], run.outputs ++ after.2⟩ := by
  obtain ⟨dropped, counted, late, once⟩ := sound.once
  have stillLate := fun event mem => (late event mem).append [.onTimer timestamp]
  have called : (run.calls ++ [Call.onTimer timestamp]).filterMap Call.event? =
      run.calls.filterMap Call.event? := by
    rw [filterMap_append]
    exact append_nil _
  simp only [onWatermarkAdvance]
  split
  · rw [append_nil]
    exact ⟨⟨sound.promise, dropped, counted, stillLate, called ▸ once⟩, sound.passed, sound.held,
      fun started => mem_append_left _ (sound.timed started)⟩
  · rename_i advances
    have sorted : run.operator.sorted.Perm (run.operator.buffer.map Prod.snd) :=
      (perm_insertionSort _ _).map _
    refine ⟨⟨?_, dropped, counted, stillLate, ?_⟩, ?_, forall_mem_nil _,
      fun _ => mem_append_right _ (mem_singleton_self _)⟩
    · refine pairwise_append.mpr ⟨sound.promise, pairwise_append.mpr ⟨pairwise_map.mpr
        (pairwise_of_forall fun _ _ => trivial), pairwise_singleton _ _, ?_⟩, ?_⟩
      · simp [Allows]
      · rintro (_ | last) isBefore later isLater
        · trivial
        rcases mem_append.mp isLater with isEvent | isMark
        · obtain ⟨event, mem, rfl⟩ := mem_map.mp isEvent
          obtain ⟨entry, among, rfl⟩ := mem_map.mp (sorted.mem_iff.mp mem)
          exact (sound.passed last isBefore).trans_lt (sound.held entry among)
        · rw [mem_singleton.mp isMark]
          trivial
    · have areEvents : (run.operator.sorted.map Output.event).filterMap emitted? =
          run.operator.sorted := by
        rw [filterMap_map]
        exact filterMap_some
      rw [called, filterMap_append, filterMap_append, areEvents, append_assoc, append_assoc]
      exact once.trans ((sorted.symm.append_right _).append_left _)
    · intro watermark mem
      rcases mem_append.mp mem with before | isNew
      · exact (sound.passed watermark before).trans (not_le.mp advances).le
      · have isTimestamp : watermark = timestamp := by simpa using isNew
        exact isTimestamp.le

omit sound

theorem keepsPromise_of_reaches (reached : (runs extractSortKey).Reaches FindsRoom run) :
    KeepsPromise run := by
  have sound : Sound run := by
    refine reached.invariant ?_ ?_
    · rintro run ⟨maxBufferSize, _, cache, rfl⟩
      exact ⟨⟨.nil, [], rfl, forall_mem_nil _, .nil⟩, fun _ => (nomatch ·), forall_mem_nil _,
        fun started => absurd started (lt_irrefl _)⟩
    · intro run call next sound room stepped
      obtain ⟨after, isAfter, rfl⟩ := Option.map_eq_some_iff.mp stepped
      cases call with
      | process event => exact sound.process room isAfter
      | onTimer timestamp =>
        cases isAfter
        exact sound.onTimer timestamp
  exact sound.toKeepsPromise

def oneEvent (timestamp : Int) : Call Unit :=
  .process ⟨.clamp timestamp, ()⟩

def keyless : Unit → Event Unit → Option (Nat × Unit) := fun _ _ => some (0, ())

theorem keepsPromise_of_reaches_timer : ∃ run : Run Unit Nat Unit, run.outputs ≠ [] ∧
    KeepsPromise run :=
  ⟨_, cons_ne_nil _ _, keepsPromise_of_reaches <| @TransitionSystem.Reaches.next _ _
    (runs keyless) _ _ _ (.next (.initial ⟨1, Nat.one_pos, (), rfl⟩) (oneEvent 1)
      ⟨by decide, fun _ => Nat.one_pos⟩ rfl) (.onTimer (.clamp 2)) trivial rfl⟩

theorem not_keepsPromise_full : ∃ run, (runs keyless).Reaches (fun _ _ => True) run ∧
    ¬KeepsPromise run := by
  refine ⟨_, @TransitionSystem.Reaches.of_run _ _ _ _
    [oneEvent 1, oneEvent 2, .onTimer (.clamp 3)] (fun _ _ => trivial) _ _
      (.initial ⟨1, Nat.one_pos, (), rfl⟩) rfl, fun kept => ?_⟩
  have broken := (pairwise_cons.mp (pairwise_cons.mp kept.promise).2).1 _ mem_cons_self
  exact absurd broken (lt_irrefl _)

end WatermarkBoundedSortOperator

end LaminarDB.Operator

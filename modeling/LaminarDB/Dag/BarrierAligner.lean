import LaminarDB.Pipeline.Coordinator

/-!
# Barrier alignment

`BarrierAligner` holds back the events of inputs that have delivered their barrier until all inputs
have. The inputs are numbered. A hash map is iterated in any order, which a call is given.
-/

namespace LaminarDB.Dag

open List Function

open Pipeline (CheckpointBarrier)

variable {inputs : Nat} {Data : Type} {input : Fin inputs} {order : Equiv.Perm (Fin inputs)}

structure Event (Data : Type) where
  timestamp : Int
  data : Data
deriving DecidableEq

/-- An input without an entry in `buffered_events` has no events there. -/
structure BarrierAligner (inputs : Nat) (Data : Type) where
  expectedInputs : Nat
  barriersReceived : Fin inputs → Option CheckpointBarrier
  bufferedEvents : Fin inputs → List (Event Data)

inductive AlignmentResult (inputs : Nat) (Data : Type) where
  | pending
  | aligned (barrier : CheckpointBarrier) (bufferedEvents : List (Fin inputs × Event Data))

namespace BarrierAligner

def new (expectedInputs : Nat) : BarrierAligner inputs Data where
  expectedInputs := expectedInputs
  barriersReceived := fun _ => none
  bufferedEvents := fun _ => []

def labelled (order : List (Fin inputs)) (events : Fin inputs → List (Event Data)) :
    List (Fin inputs × Event Data) :=
  order.flatMap fun input => (events input).map (Prod.mk input)

def sortByTimestamp (events : List (Fin inputs × Event Data)) : List (Fin inputs × Event Data) :=
  events.insertionSort fun first second => first.2.timestamp ≤ second.2.timestamp

def iteration (order : Equiv.Perm (Fin inputs)) : List (Fin inputs) :=
  (finRange inputs).map order

variable (aligner : BarrierAligner inputs Data)

def received (input : Fin inputs)
    (barrier : CheckpointBarrier) : Fin inputs → Option CheckpointBarrier :=
  update aligner.barriersReceived input (some barrier)

def Complete (input : Fin inputs) (barrier : CheckpointBarrier) : Prop :=
  aligner.expectedInputs ≤
    ((finRange inputs).filter fun other => (aligner.received input barrier other).isSome).length

instance (aligner : BarrierAligner inputs Data) (input : Fin inputs)
    (barrier : CheckpointBarrier) : Decidable (aligner.Complete input barrier) :=
  Nat.decLe _ _

/-- `on_barrier`. The barrier of the result is the last one of the map. -/
def onBarrier (order : Equiv.Perm (Fin inputs)) (input : Fin inputs) (barrier : CheckpointBarrier)
    (aligner : BarrierAligner inputs Data) :
    BarrierAligner inputs Data × AlignmentResult inputs Data :=
  let received := aligner.received input barrier
  if aligner.Complete input barrier then
    (⟨aligner.expectedInputs, received, fun _ => []⟩,
      .aligned (((iteration order).filterMap received).getLast?.getD barrier)
        (sortByTimestamp (labelled (iteration order) aligner.bufferedEvents)))
  else ({ aligner with barriersReceived := received }, .pending)

def bufferIfAligned (input : Fin inputs) (event : Event Data)
    (aligner : BarrierAligner inputs Data) : BarrierAligner inputs Data × Bool :=
  if (aligner.barriersReceived input).isSome then
    ({ aligner with
        bufferedEvents := update aligner.bufferedEvents input
          (aligner.bufferedEvents input ++ [event]) }, true)
  else (aligner, false)

def completeCheckpoint : BarrierAligner inputs Data :=
  new aligner.expectedInputs

end BarrierAligner

open BarrierAligner

inductive AlignerCall (inputs : Nat) (Data : Type) where
  | onBarrier (order : Equiv.Perm (Fin inputs)) (input : Fin inputs) (barrier : CheckpointBarrier)
  | bufferIfAligned (input : Fin inputs) (event : Event Data)
  | completeCheckpoint

/-- An aligner, with the events that it has taken and handed back and the last barrier of each
input. -/
structure Alignment (inputs : Nat) (Data : Type) where
  aligner : BarrierAligner inputs Data
  taken : Fin inputs → List (Event Data)
  handedBack : Fin inputs → List (Event Data)
  latest : Fin inputs → Option CheckpointBarrier

open Dag.Alignment

namespace Alignment

def start : Alignment inputs Data := ⟨.new inputs, fun _ => [], fun _ => [], fun _ => none⟩

def eventsOf (events : List (Fin inputs × Event Data)) (input : Fin inputs) : List (Event Data) :=
  (events.filter (·.1 = input)).map Prod.snd

section

variable (alignment : Alignment inputs Data)

def perform : AlignerCall inputs Data →
    Alignment inputs Data × Option CheckpointBarrier
  | .onBarrier order input barrier =>
    let latest := update alignment.latest input (some barrier)
    match alignment.aligner.onBarrier order input barrier with
    | (aligner, .pending) => ({ alignment with aligner, latest }, none)
    | (aligner, .aligned barrier events) =>
      ({ alignment with
          aligner, latest
          handedBack := fun input => alignment.handedBack input ++ eventsOf events input },
        some barrier)
  | .bufferIfAligned input event =>
    match alignment.aligner.bufferIfAligned input event with
    | (aligner, true) =>
      ({ alignment with
          aligner
          taken := update alignment.taken input (alignment.taken input ++ [event]) },
        none)
    | (aligner, false) => ({ alignment with aligner }, none)
  | .completeCheckpoint =>
    ({ alignment with aligner := alignment.aligner.completeCheckpoint }, none)

/-- Every event that was taken has been handed back, once and in order, or is still held. -/
def Conserves : Prop :=
  ∀ input, alignment.taken input =
    alignment.handedBack input ++ alignment.aligner.bufferedEvents input

/-- The last barrier of every input is of the checkpoint that is returned as aligned. -/
def Unmixed (aligned : Option CheckpointBarrier) : Prop :=
  ∀ barrier ∈ aligned, ∀ input, ∃ own ∈ alignment.latest input,
    own.checkpointId = barrier.checkpointId

end

def HoldsThroughout : Alignment inputs Data → List (AlignerCall inputs Data) → Prop
  | _, [] => True
  | alignment, call :: calls =>
    let (next, aligned) := alignment.perform call
    (next.Conserves ∧ next.Unmixed aligned) ∧ next.HoldsThroughout calls

/-- The barriers that complete an alignment are of one checkpoint, and the events of each input
are held in the order of their times; no event is held when a checkpoint completes. -/
def Keeps (aligner : BarrierAligner inputs Data) : AlignerCall inputs Data → Prop
  | .onBarrier _ input barrier =>
    aligner.Complete input barrier →
      (∀ other, ∀ own ∈ aligner.received input barrier other,
        own.checkpointId = barrier.checkpointId) ∧
      ∀ other, (aligner.bufferedEvents other).Pairwise (·.timestamp ≤ ·.timestamp)
  | .bufferIfAligned _ _ => True
  | .completeCheckpoint => ∀ input, aligner.bufferedEvents input = []

def KeepsThroughout : Alignment inputs Data → List (AlignerCall inputs Data) → Prop
  | _, [] => True
  | alignment, call :: calls =>
    Keeps alignment.aligner call ∧ (alignment.perform call).1.KeepsThroughout calls

theorem filter_labelled {order : List (Fin inputs)} (events : Fin inputs → List (Event Data))
    (unique : order.Nodup) (listed : input ∈ order) :
    (labelled order events).filter (·.1 = input) = (events input).map (Prod.mk input) := by
  induction order with
  | nil => cases listed
  | cons first order ih =>
    obtain ⟨fresh, unique⟩ := nodup_cons.mp unique
    have own : ((events first).map (Prod.mk first)).filter (·.1 = input) =
        if first = input then (events first).map (Prod.mk first) else [] := by
      rw [filter_map]
      split
      · next same => simp [comp_def, same]
      · next differs => simp [comp_def, differs]
    rw [labelled, flatMap_cons, filter_append, own]
    by_cases same : first = input
    · subst same
      have others : (labelled order events).filter (·.1 = first) = [] := by
        rw [filter_eq_nil_iff]
        intro item among
        obtain ⟨other, isOther, labelled⟩ := mem_flatMap.mp among
        obtain ⟨event, -, rfl⟩ := mem_map.mp labelled
        exact fun isFirst => fresh (of_decide_eq_true isFirst ▸ isOther)
      rw [if_pos rfl]
      exact (congrArg _ others).trans (append_nil _)
    · rw [if_neg same, nil_append]
      exact ih unique ((mem_cons.mp listed).resolve_left fun isFirst => same isFirst.symm)

theorem eventsOf_sortByTimestamp_iff {events : Fin inputs → List (Event Data)} :
    eventsOf (sortByTimestamp (labelled (iteration order) events)) input = events input ↔
      (events input).Pairwise (·.timestamp ≤ ·.timestamp) := by
  let earlier : Fin inputs × Event Data → Fin inputs × Event Data → Prop :=
    fun first second => first.2.timestamp ≤ second.2.timestamp
  have unique : (iteration order).Nodup := (nodup_finRange _).map order.injective
  have listed := mem_map.mpr ⟨order.symm input, mem_finRange _, order.apply_symm_apply input⟩
  have own := filter_labelled events unique listed
  constructor
  · intro same
    have sorted := (pairwise_insertionSort earlier (labelled (iteration order) events)).filter
      (fun item => decide (item.1 = input))
    rw [← same]
    exact pairwise_map.mpr sorted
  · intro ordered
    have sorted : ((events input).map (Prod.mk input)).Pairwise earlier := pairwise_map.mpr ordered
    have inside : ((events input).map (Prod.mk input)).Sublist
        (sortByTimestamp (labelled (iteration order) events)) := by
      apply sublist_insertionSort sorted
      rw [← own]
      exact filter_sublist
    have whole : ((events input).map (Prod.mk input)).filter (·.1 = input) =
        (events input).map (Prod.mk input) := by
      rw [filter_eq_self]
      intro item among
      obtain ⟨event, -, rfl⟩ := mem_map.mp among
      exact decide_eq_true rfl
    have counts := ((perm_insertionSort earlier (labelled (iteration order) events)).filter
      (·.1 = input)).length_eq
    rw [own] at counts
    have kept := inside.filter (·.1 = input)
    rw [whole] at kept
    rw [eventsOf, ← kept.eq_of_length counts.symm, map_map]
    exact map_id _

/-- The barriers that are held are the last ones of their inputs, and all inputs are expected. -/
structure Tracks (alignment : Alignment inputs Data) : Prop where
  expected : alignment.aligner.expectedInputs = inputs
  held : ∀ input, ∀ barrier ∈ alignment.aligner.barriersReceived input,
    barrier ∈ alignment.latest input

variable {alignment : Alignment inputs Data} {barrier : CheckpointBarrier}

theorem Tracks.received (tracks : alignment.Tracks) (other : Fin inputs) :
    ∀ own ∈ alignment.aligner.received input barrier other,
      own ∈ update alignment.latest input (some barrier) other := by
  unfold BarrierAligner.received
  by_cases same : other = input
  · subst same
    simp only [update_self]
    exact fun _ => id
  · simp only [update_of_ne same]
    exact tracks.held other

theorem Tracks.isSome (tracks : alignment.Tracks)
    (complete : alignment.aligner.Complete input barrier) (other : Fin inputs) :
    (alignment.aligner.received input barrier other).isSome := by
  rw [Complete, tracks.expected] at complete
  have whole := (filter_sublist (l := finRange inputs)
    (p := fun other => (alignment.aligner.received input barrier other).isSome)).eq_of_length_le
      (by rwa [length_finRange])
  exact filter_eq_self.mp whole other (mem_finRange other)

theorem perform_pending (incomplete : ¬alignment.aligner.Complete input barrier) :
    alignment.perform (.onBarrier order input barrier) =
      ({ alignment with
          aligner := { alignment.aligner with
            barriersReceived := alignment.aligner.received input barrier }
          latest := update alignment.latest input (some barrier) }, none) := by
  simp only [perform, onBarrier, if_neg incomplete]

theorem perform_aligned (complete : alignment.aligner.Complete input barrier) :
    ∃ aligned, (∃ other, aligned ∈ alignment.aligner.received input barrier other) ∧
      alignment.perform (.onBarrier order input barrier) =
        (⟨⟨alignment.aligner.expectedInputs, alignment.aligner.received input barrier,
            fun _ => []⟩,
          alignment.taken,
          fun input => alignment.handedBack input ++ eventsOf (sortByTimestamp
            (labelled (iteration order) alignment.aligner.bufferedEvents)) input,
          update alignment.latest input (some barrier)⟩, some aligned) := by
  refine ⟨((iteration order).filterMap
    (alignment.aligner.received input barrier)).getLast?.getD barrier, ?_, ?_⟩
  · cases found : ((iteration order).filterMap
        (alignment.aligner.received input barrier)).getLast? with
    | none => exact ⟨input, update_self ..⟩
    | some last =>
      obtain ⟨other, -, isLast⟩ := mem_filterMap.mp (mem_of_getLast? found)
      exact ⟨other, isLast⟩
  · simp only [perform, onBarrier, if_pos complete]

theorem perform_bufferIfAligned {event : Event Data} :
    alignment.perform (.bufferIfAligned input event) = (alignment, none) ∨
      alignment.perform (.bufferIfAligned input event) =
        ({ alignment with
            aligner := { alignment.aligner with
              bufferedEvents := update alignment.aligner.bufferedEvents input
                (alignment.aligner.bufferedEvents input ++ [event]) }
            taken := update alignment.taken input (alignment.taken input ++ [event]) },
          none) := by
  by_cases isAligned : (alignment.aligner.barriersReceived input).isSome
  · right
    simp only [perform, bufferIfAligned, if_pos isAligned]
  · left
    simp only [perform, bufferIfAligned, if_neg isAligned]

theorem Tracks.perform (tracks : alignment.Tracks) (call : AlignerCall inputs Data) :
    (alignment.perform call).1.Tracks := by
  cases call with
  | onBarrier order input barrier =>
    by_cases complete : alignment.aligner.Complete input barrier
    · obtain ⟨aligned, -, performed⟩ := perform_aligned complete
      rw [performed]
      exact ⟨tracks.expected, tracks.received⟩
    · rw [perform_pending complete]
      exact ⟨tracks.expected, tracks.received⟩
  | bufferIfAligned input event =>
    rcases perform_bufferIfAligned with performed | performed
    · rw [performed]
      exact tracks
    · rw [performed]
      exact ⟨tracks.expected, tracks.held⟩
  | completeCheckpoint => exact ⟨tracks.expected, nofun⟩

theorem perform_iff (tracks : alignment.Tracks) (conserves : alignment.Conserves)
    {call : AlignerCall inputs Data} :
    ((alignment.perform call).1.Conserves ∧
        (alignment.perform call).1.Unmixed (alignment.perform call).2) ↔
      Keeps alignment.aligner call := by
  cases call with
  | onBarrier order input barrier =>
    by_cases complete : alignment.aligner.Complete input barrier
    · obtain ⟨aligned, ⟨holder, isHeld⟩, performed⟩ := perform_aligned complete
      rw [performed, Keeps, and_comm, forall_prop_of_true complete]
      refine and_congr ⟨fun unmixed other own held => ?_, fun same => ?_⟩ (forall_congr' ?_)
      · obtain ⟨last, isLast, isAligned⟩ := unmixed aligned rfl other
        obtain ⟨own', isOwn', isAligned'⟩ := unmixed aligned rfl input
        rw [Option.mem_unique (tracks.received other own held) isLast, isAligned, ← isAligned']
        change update alignment.latest input (some barrier) input = some own' at isOwn'
        rw [update_self, Option.some.injEq] at isOwn'
        rw [isOwn']
      · rintro _ ⟨⟩ other
        obtain ⟨own, isOwn⟩ := Option.isSome_iff_exists.mp (tracks.isSome complete other)
        refine ⟨own, tracks.received other own isOwn, ?_⟩
        rw [same other own isOwn, same holder aligned isHeld]
      · intro other
        rw [← eventsOf_sortByTimestamp_iff]
        rw [conserves other, append_nil, append_cancel_left_eq, eq_comm]
    · rw [perform_pending complete, Keeps, forall_prop_of_false complete]
      exact ⟨fun _ => trivial, fun _ => ⟨conserves, nofun⟩⟩
  | bufferIfAligned input event =>
    rcases perform_bufferIfAligned with performed | performed
    · rw [performed]
      exact ⟨fun _ => trivial, fun _ => ⟨conserves, nofun⟩⟩
    · rw [performed]
      refine ⟨fun _ => trivial, fun _ => ⟨fun other => ?_, nofun⟩⟩
      by_cases same : other = input
      · subst same
        simp only [update_self, conserves other, append_assoc]
      · simp only [update_of_ne same]
        exact conserves other
  | completeCheckpoint =>
    refine ⟨fun holds input => ?_, fun none => ⟨fun input => ?_, nofun⟩⟩
    · have same := holds.1 input
      change alignment.taken input = alignment.handedBack input ++ [] at same
      rwa [conserves input, append_cancel_left_eq] at same
    · change alignment.taken input = alignment.handedBack input ++ []
      rw [conserves input, none input]

theorem holdsThroughout_iff (tracks : alignment.Tracks) (conserves : alignment.Conserves)
    {calls : List (AlignerCall inputs Data)} :
    alignment.HoldsThroughout calls ↔ alignment.KeepsThroughout calls := by
  induction calls generalizing alignment with
  | nil => exact Iff.rfl
  | cons call calls ih =>
    rw [HoldsThroughout, KeepsThroughout, ← perform_iff tracks conserves]
    refine and_congr_right fun holds => ?_
    exact ih (tracks.perform call) holds.1

theorem tracks_start : (start : Alignment inputs Data).Tracks where
  expected := rfl
  held := nofun

end Alignment

/-- After every call of a run each event that was taken has been handed back once and in order or
is still held, and what is returned as aligned is of one checkpoint, exactly if every call of the
run meets its condition. -/
theorem alignment_holds_iff (calls : List (AlignerCall inputs Data)) :
    (start : Alignment inputs Data).HoldsThroughout calls ↔
      (start : Alignment inputs Data).KeepsThroughout calls :=
  holdsThroughout_iff tracks_start (fun _ => rfl)

def barrierOf (checkpointId : UInt64) : CheckpointBarrier := ⟨checkpointId, 0, 0⟩

/-- An event that arrives between the alignment and the completion of a checkpoint is dropped, and
an input that runs ahead is aligned with a barrier of another checkpoint. -/
theorem alignment_not_holds :
    ¬(start : Alignment 2 Nat).HoldsThroughout
        [.onBarrier 1 0 (barrierOf 1), .onBarrier 1 1 (barrierOf 1), .bufferIfAligned 0 ⟨5, 7⟩,
          .completeCheckpoint] ∧
      ¬(start : Alignment 2 Nat).HoldsThroughout
        [.onBarrier 1 0 (barrierOf 1), .onBarrier 1 0 (barrierOf 2),
          .onBarrier 1 1 (barrierOf 1)] := by
  constructor
  · rintro ⟨-, -, -, ⟨conserves, -⟩, -⟩
    exact absurd (conserves 0) (by decide)
  · rintro ⟨-, -, ⟨-, unmixed⟩, -⟩
    obtain ⟨own, isOwn, same⟩ := unmixed (barrierOf 1) rfl 0
    cases isOwn
    exact absurd same (by decide)

end LaminarDB.Dag

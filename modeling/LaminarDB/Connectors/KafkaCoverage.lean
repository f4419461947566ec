import LaminarDB.Connectors.KafkaRuns

/-!
# Checkpoints of the Kafka source

The tracker of a partition is the mark of its log: `Progress` holds for every partition
that has been owned, from the start of its latest ownership on.
-/

namespace LaminarDB.Connectors.Kafka

open Library List OffsetTracker KafkaSource Kafka.System

variable {Data Row : Type} {broker : Broker Data} {config : KafkaSourceConfig Data Row}
  {state next : System Data} {source : KafkaSource} {partition : TopicPartition}
  {registry : Nat → Option String} {drained : List (KafkaPayload Data)}

section Queues

variable {payloads more : List (KafkaPayload Data)}

theorem offsetsOf_append : offsetsOf partition (payloads ++ more) =
    offsetsOf partition payloads ++ offsetsOf partition more := by
  simp [offsetsOf, filter_append]

theorem track_offsets :
    (source.track drained).offsets partition =
      (offsetsOf partition drained).foldl advance (source.offsets partition) := by
  unfold track
  generalize source.offsets = tracker
  induction drained generalizing tracker with
  | nil => rfl
  | cons payload drained ih =>
    rw [foldl_cons, ih]
    by_cases same : payload.partition = partition
    · simp [offsetsOf, update, same]
    · have notSame := Ne.symm same
      simp [offsetsOf, update, same, notSame]

end Queues

theorem purge_of_assigned (isAssigned : partition ∈ source.rebalanceState.assigned) :
    source.purge.offsets partition = source.offsets partition := by
  unfold purge
  split
  next => simp [retainAssigned, isAssigned]
  next => rfl

variable (source partition) in
theorem purge_offsets :
    source.purge.offsets partition = source.offsets partition ∨
      source.purge.offsets partition = none := by
  unfold purge
  split
  next =>
    by_cases isAssigned : partition ∈ source.rebalanceState.assigned
    · exact .inl (by simp [retainAssigned, isAssigned])
    · exact .inr (by simp [retainAssigned, isAssigned])
  next => exact .inl rfl

theorem purge_rebalanceState : source.purge.rebalanceState = source.rebalanceState := by
  unfold purge
  split <;> rfl

section Delivery

theorem appendMetadata_of_fits {rows : List Row} (isFit : fits config drained (.ok rows) = true) :
    ∃ metadata, appendMetadata config drained rows = .ok metadata := by
  unfold appendMetadata
  split
  next included =>
    have sameLength : rows.length = drained.length := by
      simpa [fits, included] using isFit
    rw [if_pos sameLength]
    exact ⟨_, rfl⟩
  next => exact ⟨none, rfl⟩

theorem skipped_of_undecodable
    (noneDecodable : drained.filter (decodable config.deserializer) = []) :
    drained.filter (fun payload => !decodable config.deserializer payload) = drained := by
  rw [filter_eq_self]
  rw [filter_eq_nil_iff] at noneDecodable
  intro payload isDrained
  simpa using noneDecodable payload isDrained

theorem deserialize_of_delivers (delivers : Delivers config registry drained) :
    (∃ rows skipped, deserialize config.deserializer drained = (.ok rows, skipped) ∧
      fits config drained (.ok rows) = true) ∨
    ∃ error, deserialize config.deserializer drained = (.error error, drained) := by
  obtain ⟨_, decodes⟩ := delivers
  unfold deserialize
  split
  next rows together =>
    rw [together] at decodes
    exact .inl ⟨rows, [], rfl, decodes.resolve_right fun failed => by cases failed.1⟩
  next batchError together =>
    rw [together] at decodes
    have ofGood := (decodes.resolve_left fun fitsAll => by cases fitsAll).2
    dsimp only
    split
    next noneGood => exact .inr ⟨_, by rw [skipped_of_undecodable noneGood]⟩
    next someGood =>
      have isFit := ofGood.resolve_left fun noneDecodable => someGood (by
        rw [filter_eq_nil_iff]
        intro payload isDrained
        simp [noneDecodable payload isDrained])
      split
      next rows ofGood =>
        rw [ofGood] at isFit
        exact .inl ⟨rows, _, rfl, isFit⟩
      next error ofGood => simp [ofGood, fits] at isFit

theorem buildBatch_of_delivers (delivers : drained ≠ [] → Delivers config registry drained) :
    (∃ batch, (buildBatch config registry drained).1 = .ok batch) ∨
      (buildBatch config registry drained).2 = drained := by
  unfold buildBatch
  split
  next => exact .inl ⟨none, rfl⟩
  next hasRecords =>
    simp only [(delivers hasRecords).1]
    rcases deserialize_of_delivers (delivers hasRecords) with
      ⟨rows, skipped, isDeserialized, isFit⟩ | ⟨error, isDeserialized⟩
    · obtain ⟨metadata, isAppended⟩ := appendMetadata_of_fits isFit
      simp only [isDeserialized, isAppended]
      exact .inl ⟨_, rfl⟩
    · exact .inr (by simp only [isDeserialized])

end Delivery

variable {message : Message Data}

theorem PartitionLog.next_spec {log : PartitionLog Data} {position : Int}
    (isNext : log.next position = some message) :
    ∀ record ∈ log.records, position ≤ record → record ≤ message.offset →
      record = message.offset ∧ message.payload.isSome = true := by
  obtain ⟨_, before, after, isSplit, notBefore⟩ := find?_eq_some_iff_append.mp isNext
  have ascending := log.ascending
  rw [isSplit, pairwise_append, pairwise_cons] at ascending
  intro record isRecord fromPosition upToMessage
  obtain ⟨other, isOther, rfl⟩ := mem_map.mp isRecord
  obtain ⟨isMessage, hasPayload⟩ := mem_filter.mp isOther
  rw [isSplit, mem_append, mem_cons] at isMessage
  rcases isMessage with isEarlier | rfl | isLater
  · have isPassed := notBefore other isEarlier
    simp [fromPosition] at isPassed
  · exact ⟨rfl, hasPayload⟩
  · exact absurd (ascending.2.1.1 other isLater) (not_lt.mpr upToMessage)

theorem offsetsOf_toPayload (other : TopicPartition) :
    offsetsOf other (message.toPayload partition).toList =
      if other = partition ∧ message.payload.isSome = true then [message.offset] else [] := by
  cases hasPayload : message.payload with
  | none => simp [Message.toPayload, hasPayload, offsetsOf]
  | some data =>
    by_cases same : other = partition
    · simp [Message.toPayload, hasPayload, offsetsOf, same]
    · simp [Message.toPayload, hasPayload, offsetsOf, same, Ne.symm same]

variable {maxRecords : Nat}

theorem pollBatch_of_delivers (source : KafkaSource) {channel : List (KafkaPayload Data)}
    (delivers : drain config channel maxRecords ≠ [] →
      Delivers config registry (drain config channel maxRecords)) :
    (pollBatch config source channel registry false maxRecords).handled =
      drain config channel maxRecords := by
  unfold Polled.handled
  rcases buildBatch_of_delivers delivers with ⟨batch, isOk⟩ | allSkipped
  · simp only [pollBatch, Bool.false_eq_true, if_false, isOk]
  · split
    next => rfl
    next => exact allSkipped

structure Invariant (broker : Broker Data) (state : System Data) : Prop where
  unstarted : state.started = false → state.channel = []
  untouched : ∀ partition, state.lastStart partition = none →
    state.source.offsets partition = none ∧ offsetsOf partition state.channel = []
  progress : ∀ partition start, state.lastStart partition = some start →
    Progress (broker partition).records start (state.handled partition)
      (offsetsOf partition state.channel) (state.source.offsets partition)
  started : ∀ partition ownership, state.owned partition = some ownership →
    state.lastStart partition = some ownership.start
  fetched : ∀ partition ownership, state.owned partition = some ownership →
    Fetched (broker partition).records ownership.start ownership.position
      (state.handled partition) (offsetsOf partition state.channel)
  tracked : ∀ partition ownership, state.owned partition = some ownership →
    ∀ record ∈ ownership.handled,
      partition ∈ state.source.rebalanceState.assigned ∧
        ∃ last, state.source.offsets partition = some last ∧ record ≤ last

namespace Invariant

theorem covers (invariant : Invariant broker state) : Covers broker state := by
  constructor
  · intro partition ownership isOwned hasHandled
    obtain ⟨record, isHandled⟩ := exists_mem_of_ne_nil _ hasHandled
    obtain ⟨isAssigned, last, isLast, _⟩ :=
      invariant.tracked partition ownership isOwned record isHandled
    simp [checkpoint, toCheckpointFiltered, retainAssigned, isAssigned, isLast]
  · intro partition ownership offset isOwned isCheckpoint
    have isTracked : state.source.offsets partition = some offset :=
      (Option.ite_none_right_eq_some.mp isCheckpoint).2
    exact (invariant.progress partition _
      (invariant.started partition ownership isOwned)).marked offset isTracked
  · intro partition ownership offset isOwned isCheckpoint record isHandled
    obtain ⟨isAssigned, last, isLast, recordLe⟩ :=
      invariant.tracked partition ownership isOwned record isHandled
    rw [checkpoint, toCheckpointFiltered, retainAssigned, if_pos isAssigned, isLast] at isCheckpoint
    cases isCheckpoint
    exact recordLe

theorem own {positions : TopicPartition → Option Int}
    (unstarted : state.started = false → state.channel = [])
    (untouched : ∀ partition, positions partition = none →
      state.lastStart partition = none →
      state.source.offsets partition = none ∧ offsetsOf partition state.channel = [])
    (progress : ∀ partition start, positions partition = none →
      state.lastStart partition = some start →
      Progress (broker partition).records start (state.handled partition)
        (offsetsOf partition state.channel) (state.source.offsets partition))
    (restarted : ∀ partition start, positions partition = some start →
      Progress (broker partition).records start (state.handled partition)
        (offsetsOf partition state.channel) (state.source.offsets partition)) :
    Invariant broker (state.own positions) := by
  have isNew : ∀ partition ownership, (state.own positions).owned partition = some ownership →
      ∃ start, positions partition = some start ∧ ownership = .new start := by
    intro partition ownership isOwned
    obtain ⟨start, isStart, rfl⟩ := Option.map_eq_some_iff.mp isOwned
    exact ⟨start, isStart, rfl⟩
  refine ⟨unstarted, ?_, ?_, ?_, ?_, ?_⟩
  · intro partition neverOwned
    obtain ⟨noPosition, noStart⟩ := Option.or_eq_none_iff.mp neverOwned
    exact untouched partition noPosition noStart
  · intro partition start isStart
    cases isPosition : positions partition with
    | none =>
      apply progress partition start isPosition
      simpa [System.own, isPosition] using isStart
    | some position =>
      have isSame : position = start := by simpa [System.own, isPosition] using isStart
      subst isSame
      exact restarted partition position isPosition
  · intro partition ownership isOwned
    obtain ⟨start, isStart, rfl⟩ := isNew partition ownership isOwned
    simp [System.own, isStart, Ownership.new]
  · intro partition ownership isOwned
    obtain ⟨start, isStart, rfl⟩ := isNew partition ownership isOwned
    exact Fetched.atStart _ _
  · intro partition ownership isOwned record isHandled
    obtain ⟨start, isStart, rfl⟩ := isNew partition ownership isOwned
    cases isHandled

theorem start (positions : TopicPartition → Option Int) :
    Invariant broker (start.own positions) := by
  apply own
  · exact fun _ => rfl
  · exact fun _ _ _ => ⟨rfl, rfl⟩
  · intro partition start _ isStart
    cases isStart
  · exact fun partition start _ => .unread _ start _

theorem restore (invariant : Invariant broker state) (isUnstarted : state.started = false)
    (checkpoint : OffsetTracker) :
    Invariant broker ({ state with source := state.source.restore checkpoint }.own
      (resumePosition checkpoint)) := by
  have noRecords : ∀ partition, offsetsOf partition state.channel = [] := by
    intro partition
    rw [invariant.unstarted isUnstarted]
    rfl
  have noOffset : ∀ partition, resumePosition checkpoint partition = none →
      checkpoint partition = none := fun partition => Option.map_eq_none_iff.mp
  apply own
  · exact invariant.unstarted
  · exact fun partition noPosition _ => ⟨noOffset partition noPosition, noRecords partition⟩
  · intro partition start noPosition _
    change Progress _ _ _ (offsetsOf partition state.channel) (checkpoint partition)
    rw [noRecords partition, noOffset partition noPosition]
    exact .unread _ start _
  · intro partition start isStart
    obtain ⟨offset, isOffset, rfl⟩ := Option.map_eq_some_iff.mp isStart
    change Progress _ _ _ (offsetsOf partition state.channel) (checkpoint partition)
    rw [noRecords partition, isOffset]
    exact .resumed (Int.lt_succ offset)

variable {positions : List (TopicPartition × Int)}

theorem assign (invariant : Invariant broker state)
    (notEarlier : ∀ partition position, positions.lookup partition = some position →
      NotEarlier state partition position) :
    Invariant broker
      ({ state with source := state.source.onAssign (positions.map Prod.fst) }.own
        fun partition => positions.lookup partition) := by
  apply own
  · exact invariant.unstarted
  · exact fun partition _ => invariant.untouched partition
  · exact fun partition start _ => invariant.progress partition start
  · intro partition position isPosition
    have unread (isClear : state.source.offsets partition = none ∧
        offsetsOf partition state.channel = []) :
        Progress (broker partition).records position (state.handled partition)
          (offsetsOf partition state.channel) (state.source.offsets partition) := by
      rw [isClear.1, isClear.2]
      exact .unread _ position _
    rcases notEarlier partition position isPosition with isLater | isClear
    · cases isStart : state.lastStart partition with
      | none => exact unread (invariant.untouched partition isStart)
      | some start =>
        exact (invariant.progress partition start isStart).restart (isLater start isStart)
    · exact unread isClear

theorem add_eq_own (lists : ∀ partition, (state.owned partition).isSome = true →
      partition ∈ positions.map Prod.fst) :
    state.add positions = state.own fun partition => positions.lookup partition := by
  have sameOwned : (state.add positions).owned =
      (state.own fun partition => positions.lookup partition).owned := by
    funext partition
    simp only [System.add, System.own]
    cases isListed : positions.lookup partition with
    | some position => rfl
    | none =>
      cases isOwned : state.owned partition with
      | none => rfl
      | some ownership =>
        obtain ⟨entry, isEntry, isPartition⟩ := mem_map.mp (lists partition (by rw [isOwned]; rfl))
        have isMissing := lookup_eq_none_iff.mp isListed entry isEntry
        simp [isPartition] at isMissing
  simp only [System.add, System.own] at sameOwned ⊢
  rw [sameOwned]

section

variable (invariant : Invariant broker state)

include invariant

theorem revoke (partitions : List TopicPartition) :
    Invariant broker { state with
      source := state.source.onRevoke partitions
      owned := fun partition =>
        if partition ∈ partitions then none else state.owned partition } := by
  have wasOwned : ∀ partition ownership,
      (if partition ∈ partitions then none else state.owned partition) = some ownership →
        partition ∉ partitions ∧ state.owned partition = some ownership := by
    intro partition ownership isOwned
    exact Option.ite_none_left_eq_some.mp isOwned
  refine ⟨invariant.unstarted, invariant.untouched, invariant.progress, ?_, ?_, ?_⟩
  · intro partition ownership isOwned
    exact invariant.started partition ownership (wasOwned _ _ isOwned).2
  · intro partition ownership isOwned
    exact invariant.fetched partition ownership (wasOwned _ _ isOwned).2
  · intro partition ownership isOwned record isHandled
    obtain ⟨notRevoked, isStill⟩ := wasOwned _ _ isOwned
    obtain ⟨isAssigned, isTracked⟩ := invariant.tracked partition ownership isStill record isHandled
    refine ⟨?_, isTracked⟩
    simp [onRevoke, RebalanceState.onRevoke, isAssigned, notRevoked]

theorem fetch {ownership : Ownership} (isOwned : state.owned partition = some ownership)
    (isStarted : state.started = true)
    (isNext : (broker partition).next ownership.position = some message) :
    Invariant broker (state.fetch partition ownership message) := by
  have only := PartitionLog.next_spec isNext
  have queue (other : TopicPartition) :
      offsetsOf other (state.fetch partition ownership message).channel =
        offsetsOf other state.channel ++
          (if other = partition ∧ message.payload.isSome = true then [message.offset]
            else []) := by
    rw [← offsetsOf_toPayload, ← offsetsOf_append]
    rfl
  have isFetched := invariant.fetched partition ownership isOwned
  have owned : ∀ other current,
      (state.fetch partition ownership message).owned other = some current →
      (other = partition ∧ current = { ownership with position := message.offset + 1 }) ∨
        (other ≠ partition ∧ state.owned other = some current) := by
    intro other current isCurrent
    by_cases same : other = partition
    · exact .inl ⟨same, by simpa [System.fetch, same, eq_comm] using isCurrent⟩
    · exact .inr ⟨same, by simpa [System.fetch, same] using isCurrent⟩
  refine ⟨?_, ?_, ?_, ?_, ?_, ?_⟩
  · exact fun isUnstarted => nomatch isUnstarted.symm.trans isStarted
  · intro other noStart
    have different : other ≠ partition := by
      rintro rfl
      exact Option.some_ne_none _ ((invariant.started _ _ isOwned).symm.trans noStart)
    rw [queue, if_neg fun both => different both.1, append_nil]
    exact invariant.untouched other noStart
  · intro other start isStart
    have before := invariant.progress other start isStart
    rw [queue]
    split
    next both =>
      obtain ⟨rfl, _⟩ := both
      have sameStart := Option.some.inj (isStart.symm.trans (invariant.started _ _ isOwned))
      subst sameStart
      exact before.fetch isFetched fun record inLog fromPosition upToNext =>
        (only record inLog fromPosition upToNext).1
    next =>
      rw [append_nil]
      exact before
  · intro other current isCurrent
    rcases owned other current isCurrent with ⟨rfl, rfl⟩ | ⟨_, isOther⟩
    · exact invariant.started _ ownership isOwned
    · exact invariant.started other current isOther
  · intro other current isCurrent
    rw [queue]
    rcases owned other current isCurrent with ⟨rfl, rfl⟩ | ⟨different, isOther⟩
    · apply isFetched.move
      intro record inLog fromPosition isBefore
      obtain ⟨rfl, hasPayload⟩ := only record inLog fromPosition (Int.le_of_lt_add_one isBefore)
      simp [hasPayload]
    · rw [if_neg fun both => different both.1, append_nil]
      exact invariant.fetched other current isOther
  · intro other current isCurrent record isHandled
    rcases owned other current isCurrent with ⟨rfl, rfl⟩ | ⟨_, isOther⟩
    · exact invariant.tracked _ ownership isOwned record isHandled
    · exact invariant.tracked other current isOther record isHandled

theorem poll (delivers : drain config state.channel maxRecords ≠ [] →
      Delivers config registry (drain config state.channel maxRecords))
    (assigned : ∀ payload ∈ drain config state.channel maxRecords,
      (state.owned payload.partition).isSome = true →
        payload.partition ∈ state.source.rebalanceState.assigned) :
    Invariant broker (state.afterPoll
      (pollBatch config state.source state.channel registry false maxRecords) false) := by
  have isHandled := pollBatch_of_delivers state.source delivers
  generalize isDrained : drain config state.channel maxRecords = drained at *
  have isPolled : state.afterPoll
      (pollBatch config state.source state.channel registry false maxRecords) false =
      { state with
        source := (state.source.track drained).purge
        channel := state.channel.drop (min maxRecords config.maxPollRecords)
        started := true
        owned := fun partition => (state.owned partition).map fun ownership =>
          { ownership with handled := ownership.handled ++ offsetsOf partition drained }
        handled := fun partition => state.handled partition ++ offsetsOf partition drained } := by
    simp only [System.afterPoll, isHandled, Bool.not_false, Bool.or_true, System.mk.injEq,
      and_self, and_true]
    simp [pollBatch, isDrained]
  rw [isPolled]
  have isQueue (other : TopicPartition) : offsetsOf other state.channel =
      offsetsOf other drained ++
        offsetsOf other (state.channel.drop (min maxRecords config.maxPollRecords)) := by
    rw [← offsetsOf_append, ← isDrained, drain, take_append_drop]
  have isTracked (other : TopicPartition) : (state.source.track drained).offsets other =
      (offsetsOf other drained).foldl advance (state.source.offsets other) :=
    track_offsets
  have sameAssigned : (state.source.track drained).purge.rebalanceState =
      state.source.rebalanceState := purge_rebalanceState
  refine ⟨nofun, ?_, ?_, ?_, ?_, ?_⟩
  · intro other noStart
    obtain ⟨noOffset, noQueue⟩ := invariant.untouched other noStart
    rw [isQueue, append_eq_nil_iff] at noQueue
    refine ⟨?_, noQueue.2⟩
    rcases purge_offsets (state.source.track drained) other with isSame | isNone
    · rw [isSame, isTracked, noQueue.1, foldl_nil, noOffset]
    · exact isNone
  · intro other start isStart
    have before := invariant.progress other start isStart
    rw [isQueue] at before
    have after := before.take
    rw [← isTracked] at after
    rcases purge_offsets (state.source.track drained) other with isSame | isNone
    · rw [isSame]
      exact after
    · rw [isNone]
      exact after.unmark
  · intro other current isCurrent
    obtain ⟨earlier, isEarlier, rfl⟩ := Option.map_eq_some_iff.mp isCurrent
    exact invariant.started other earlier isEarlier
  · intro other current isCurrent
    obtain ⟨earlier, isEarlier, rfl⟩ := Option.map_eq_some_iff.mp isCurrent
    have before := invariant.fetched other earlier isEarlier
    rw [isQueue] at before
    exact before.take
  · intro other current isCurrent record isRecord
    obtain ⟨earlier, isEarlier, rfl⟩ := Option.map_eq_some_iff.mp isCurrent
    have isAssigned : other ∈ state.source.rebalanceState.assigned := by
      rcases mem_append.mp isRecord with wasHandled | isNow
      · exact (invariant.tracked other earlier isEarlier record wasHandled).1
      · simp only [offsetsOf, mem_map, mem_filter, decide_eq_true_eq] at isNow
        obtain ⟨payload, ⟨isPayload, rfl⟩, _⟩ := isNow
        exact assigned payload isPayload (by rw [isEarlier]; rfl)
    refine ⟨sameAssigned ▸ isAssigned, ?_⟩
    have isKept : (state.source.track drained).purge.offsets other =
        (state.source.track drained).offsets other := purge_of_assigned isAssigned
    rw [isKept, isTracked]
    rcases mem_append.mp isRecord with wasHandled | isNow
    · obtain ⟨_, last, isLast, recordLe⟩ :=
        invariant.tracked other earlier isEarlier record wasHandled
      obtain ⟨final, isFinal, lastLe⟩ := le_foldl_advance isLast
      exact ⟨final, isFinal, recordLe.trans lastLe⟩
    · exact mem_le_foldl_advance isNow

theorem paused :
    Invariant broker (state.afterPoll
      (pollBatch config state.source state.channel registry true maxRecords) true) := by
  have unchanged : state.afterPoll
      (pollBatch config state.source state.channel registry true maxRecords) true = state := by
    simp [afterPoll, pollBatch, Polled.handled, offsetsOf]
  rw [unchanged]
  exact invariant

theorem step {action : Action} (tracks : Tracks config state action)
    (stepped : state.step broker config action = some next) : Invariant broker next := by
  cases action with
  | restore checkpoint =>
    obtain ⟨isUnstarted, isNext⟩ := Option.ite_none_left_eq_some.mp stepped
    cases isNext
    exact invariant.restore (by simpa using isUnstarted) checkpoint
  | assign positions incremental =>
    obtain ⟨lists, notEarlier⟩ := tracks
    cases incremental with cases stepped
    | true =>
      have isReplaced := @add_eq_own Data
        { state with source := state.source.onAssign (positions.map Prod.fst) } positions
        (lists rfl)
      rw [isReplaced]
      exact invariant.assign notEarlier
    | false => exact invariant.assign notEarlier
  | revoke partitions =>
    cases stepped
    exact invariant.revoke partitions
  | read partition =>
    simp only [System.step] at stepped
    split at stepped
    next => cases stepped
    next ownership isOwned =>
      obtain ⟨isStarted, isRead⟩ := Option.ite_none_right_eq_some.mp stepped
      obtain ⟨message, isNext, rfl⟩ := Option.map_eq_some_iff.mp isRead
      exact invariant.fetch isOwned isStarted isNext
  | poll registry isPaused maxRecords =>
    cases stepped
    cases isPaused with
    | true => exact invariant.paused
    | false => exact invariant.poll tracks.1 tracks.2

end

end Invariant

theorem covers_of_tracks (reached : (system broker config).Reaches (Tracks config) state) :
    Covers broker state := by
  have invariant : Invariant broker state := by
    apply reached.invariant
    · rintro initial ⟨positions, rfl⟩
      exact .start positions
    · intro before action after holds tracks stepped
      exact holds.step tracks stepped
  exact invariant.covers

/-- A record `0` cannot be decoded; one above `99` names its schema. -/
def numbers : Deserializer Nat Nat where
  deserializeBatch data := if 0 ∈ data then .error "invalid record" else .ok data
  confluentId data := if 99 < data then some data else none

def numbersConfig (includeMetadata : Bool) : KafkaSourceConfig Nat Nat where
  maxPollRecords := 10
  includeMetadata := includeMetadata
  includeHeaders := false
  deserializer := numbers

def events (partition : Int) : TopicPartition :=
  ⟨"events", partition⟩

/-- Partition `0` has a record, one that cannot be decoded, a message without a payload
and a record with a schema. -/
def eventsBroker : Broker Nat := fun partition =>
  if partition = events 0 then
    { messages :=
        [⟨0, some 5, none, none⟩, ⟨1, some 0, none, none⟩, ⟨2, none, none, none⟩,
          ⟨3, some 105, none, none⟩]
      ascending := by decide }
  else ⟨[], .nil⟩

def registered : Nat → Option String := fun _ => none

def unreachable : Nat → Option String := fun _ => some "schema registry unavailable"

variable (config : KafkaSourceConfig Nat Nat)

def checkTracks (state : System Nat) : Action → Bool
  | .assign positions incremental =>
    !incremental && positions.all fun entry => (state.lastStart entry.1).isNone
  | .poll registry false maxRecords =>
    decide (Delivers config registry (drain config state.channel maxRecords)) &&
      (drain config state.channel maxRecords).all fun payload =>
        decide (payload.partition ∈ state.source.rebalanceState.assigned)
  | _ => true

theorem checkTracks_sound (state : System Nat)
    {action : Action} (checked : checkTracks config state action = true) :
    Tracks config state action := by
  cases action with
  | assign positions incremental =>
    simp only [checkTracks, Bool.and_eq_true, Bool.not_eq_true', all_eq_true] at checked
    refine ⟨fun isIncremental => ?_, fun partition position isPosition => .inl ?_⟩
    · exact nomatch checked.1.symm.trans isIncremental
    · intro earlier isEarlier
      obtain ⟨before, after, rfl, _⟩ := lookup_eq_some_iff.mp isPosition
      have isNew := checked.2 (partition, position) (by simp)
      rw [isEarlier] at isNew
      cases isNew
  | poll registry paused maxRecords =>
    cases paused with
    | true => trivial
    | false =>
      simp only [checkTracks, Bool.and_eq_true, decide_eq_true_eq, all_eq_true] at checked
      exact ⟨fun _ => checked.1, fun payload isDrained _ => checked.2 payload isDrained⟩
  | _ => trivial

def eventsRun : List Action :=
  [.assign [(events 0, 0)] false, .poll registered false 10, .read (events 0),
    .read (events 0), .poll registered false 10]

theorem covers_events :
    ∃ state, (system eventsBroker (numbersConfig false)).run (start.own fun _ => none)
        eventsRun = some state ∧
      state.handled (events 0) = [0, 1] ∧
      state.source.checkpoint (events 0) = some 1 ∧ Covers eventsBroker state := by
  have reached : (system eventsBroker (numbersConfig false)).Reaches (Tracks (numbersConfig false))
      (((system eventsBroker (numbersConfig false)).run (start.own fun _ => none)
        eventsRun).getD .start) :=
    .of_checkRun (checkTracks_sound (numbersConfig false)) (.initial ⟨_, rfl⟩) (by decide)
  exact ⟨_, rfl, rfl, rfl, covers_of_tracks reached⟩

/-- An owned partition with handled records that has no offset in the checkpoint. -/
def isMissing (state : System Nat) (partition : TopicPartition) : Bool :=
  (state.owned partition).any (fun ownership => !ownership.handled.isEmpty) &&
    (state.source.checkpoint partition).isNone

/-- A record of an owned partition that the checkpoint covers and that was not handled. -/
def isLost (state : System Nat) (partition : TopicPartition) (record : Int) : Bool :=
  (state.owned partition).any (fun ownership => ownership.start ≤ record) &&
    (state.source.checkpoint partition).any (fun offset => record ≤ offset) &&
    decide (record ∉ state.handled partition)

variable {state : System Nat} {partition : TopicPartition}

theorem not_covers_of_isMissing
    (missing : isMissing state partition = true) : ¬Covers eventsBroker state := by
  intro covers
  rw [isMissing, Bool.and_eq_true] at missing
  obtain ⟨ownership, isOwned, hasHandled⟩ := (Option.any_eq_true _ _).mp missing.1
  have isPresent := covers.present partition ownership isOwned (by simpa using hasHandled)
  rw [Option.isNone_iff_eq_none.mp missing.2] at isPresent
  cases isPresent

theorem not_covers_of_isLost {record : Int} (inLog : record ∈ (eventsBroker partition).records)
    (lost : isLost state partition record = true) : ¬Covers eventsBroker state := by
  intro covers
  simp only [isLost, Bool.and_eq_true, decide_eq_true_eq] at lost
  obtain ⟨⟨ofOwned, ofCheckpoint⟩, unhandled⟩ := lost
  obtain ⟨ownership, isOwned, fromStart⟩ := (Option.any_eq_true _ _).mp ofOwned
  obtain ⟨offset, isCheckpoint, upToOffset⟩ := (Option.any_eq_true _ _).mp ofCheckpoint
  exact unhandled (covers.complete partition ownership offset isOwned isCheckpoint record inLog
    (by simpa using fromStart) (by simpa using upToOffset))

/-- A run from a fresh start after which the checkpoint does not cover exactly the handled
records. -/
def Breaks (actions : List Action) : Prop :=
  ∃ state, (system eventsBroker config).run (start.own fun _ => none) actions =
    some state ∧ ¬Covers eventsBroker state

/-- Checkpoints miss the partitions of a restored source and those kept by an incremental
rebalance, and cover records that a failed poll has drained: when the schema registry
does not answer, and when metadata columns are added to a batch with a skipped record. -/
theorem checkpoints_not_covers :
    Breaks (numbersConfig false)
      [.restore (fun partition => if partition = events 0 then some (-1) else none),
        .poll registered false 10, .read (events 0), .poll registered false 10] ∧
    Breaks (numbersConfig false)
      [.assign [(events 0, 0)] false, .poll registered false 10, .read (events 0),
        .poll registered false 10, .assign [(events 1, 0)] true] ∧
    Breaks (numbersConfig false)
      [.assign [(events 0, 3)] false, .poll registered false 10, .read (events 0),
        .poll unreachable false 10] ∧
    Breaks (numbersConfig true)
      [.assign [(events 0, 0)] false, .poll registered false 10, .read (events 0),
        .read (events 0), .poll registered false 10] := by
  refine ⟨⟨_, rfl, ?_⟩, ⟨_, rfl, ?_⟩, ⟨_, rfl, ?_⟩, ⟨_, rfl, ?_⟩⟩
  · exact @not_covers_of_isMissing _ (events 0) rfl
  · exact @not_covers_of_isMissing _ (events 0) rfl
  · exact @not_covers_of_isLost _ (events 0) 3 (by decide) rfl
  · exact @not_covers_of_isLost _ (events 0) 0 (by decide) rfl

end LaminarDB.Connectors.Kafka

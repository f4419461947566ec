import LaminarDB.Connectors.Kafka

/-!
# The rows of a Kafka batch

The rows of a batch are those of the records that can be decoded. Its metadata columns are made
of all the records that were drained.
-/

namespace LaminarDB.Connectors.Kafka

open List KafkaPayload

variable {Data Row : Type} (decode : Data → Option Row)

/-- Each payload has a row of its own or none, and a batch with one that has none fails. -/
structure Decodes (deserializer : Deserializer Data Row) : Prop where
  ok : ∀ {payloads}, (∀ data ∈ payloads, (decode data).isSome = true) →
    deserializer.deserializeBatch payloads = .ok (payloads.filterMap decode)
  fails : ∀ {payloads data}, data ∈ payloads → (decode data).isSome = false →
    ∃ error, deserializer.deserializeBatch payloads = .error error

def decoded (drained : List (KafkaPayload Data)) : List (KafkaPayload Data) :=
  drained.filter fun payload => (decode payload.data).isSome

variable (config : KafkaSourceConfig Data Row)

/-- The batch has the row of each decoded record, with the values of the columns asked for. -/
def Isolates (drained : List (KafkaPayload Data)) :
    Except ConnectorError (Option (SourceBatch Row)) → Prop
  | .error _ => False
  | .ok none => decoded decode drained = []
  | .ok (some batch) =>
    let good := decoded decode drained
    batch.rows = (good.map data).filterMap decode ∧
      (batch.metadata.map fun columns =>
          (columns.partitions, columns.offsets, columns.timestamps)) =
        (if config.includeMetadata then
          some (good.map (·.partition.partition), good.map offset, good.map timestampMs)
        else none) ∧
      batch.metadata.bind MetadataColumns.headers =
        if config.includeHeaders then some (good.map headersJson) else none

/-- The registry resolves the schemas, headers come with the other metadata, and some record can
be decoded: all of them, if there is metadata. -/
def Isolable (registry : Nat → Option String) (drained : List (KafkaPayload Data)) : Prop :=
  drained = [] ∨
    unresolved config.deserializer registry drained = none ∧
      (config.includeHeaders = true → config.includeMetadata = true) ∧
      decoded decode drained ≠ [] ∧
      (config.includeMetadata = true → decoded decode drained = drained)

variable {decode config} {drained : List (KafkaPayload Data)}
  {deserializer : Deserializer Data Row} (decodes : Decodes decode deserializer)

include decodes in
theorem filter_decodable : drained.filter (decodable deserializer) = decoded decode drained := by
  refine filter_congr fun payload _ => ?_
  unfold decodable
  cases isRow : (decode payload.data).isSome with
  | true =>
    rw [decodes.ok (by simpa using isRow)]
    rfl
  | false =>
    obtain ⟨error, failed⟩ := decodes.fails (mem_singleton_self _) isRow
    rw [failed]
    rfl

theorem isSome_of_mem_decoded {data : Data}
    (mem : data ∈ (decoded decode drained).map KafkaPayload.data) :
    (decode data).isSome = true := by
  obtain ⟨payload, isGood, rfl⟩ := mem_map.mp mem
  exact (mem_filter.mp isGood).2

include decodes in
theorem deserialize_spec (hasRecords : drained ≠ []) :
    (decoded decode drained = [] ∧ ∃ error skipped,
      deserialize deserializer drained = (.error error, skipped)) ∨
    decoded decode drained ≠ [] ∧ ∃ skipped, deserialize deserializer drained =
      (.ok (((decoded decode drained).map data).filterMap decode), skipped) := by
  unfold deserialize
  rw [filter_decodable decodes]
  by_cases all : decoded decode drained = drained
  · rw [all, decodes.ok (all ▸ fun _ => isSome_of_mem_decoded)]
    exact .inr ⟨hasRecords, [], rfl⟩
  · obtain ⟨payload, mem, bad⟩ : ∃ payload ∈ drained, (decode payload.data).isSome = false := by
      simpa [decoded] using all
    obtain ⟨error, failed⟩ := decodes.fails (mem_map_of_mem mem) bad
    rw [failed]
    by_cases noneGood : decoded decode drained = []
    · simp only [if_pos noneGood]
      exact .inl ⟨noneGood, _, _, rfl⟩
    · simp only [if_neg noneGood, decodes.ok fun _ => isSome_of_mem_decoded]
      exact .inr ⟨noneGood, _, rfl⟩

theorem isolates_buildBatch_iff (decodes : Decodes decode config.deserializer)
    {registry : Nat → Option String} :
    Isolates decode config drained (buildBatch config registry drained).1 ↔
      Isolable decode config registry drained := by
  unfold buildBatch Isolable
  by_cases hasRecords : drained = []
  · subst hasRecords
    exact iff_of_true rfl (.inl rfl)
  · rw [if_neg hasRecords, or_iff_right hasRecords]
    cases unresolved config.deserializer registry drained with
    | some error => exact iff_of_false id fun isolable => nomatch isolable.1
    | none =>
      rcases deserialize_spec decodes hasRecords with ⟨noneGood, error, skipped, failed⟩ |
        ⟨someGood, skipped, deserialized⟩
      · simp only [failed]
        exact iff_of_false id fun isolable => isolable.2.2.1 noneGood
      · have sameLength := filterMap_length_eq_length.mpr
          fun data => @isSome_of_mem_decoded _ _ decode drained data
        rw [length_map] at sameLength
        simp only [deserialized, appendMetadata, sameLength]
        cases included : config.includeMetadata with
        | false => simp [Isolates, included, someGood]
        | true =>
          by_cases all : decoded decode drained = drained
          · simp [Isolates, included, all, hasRecords, metadataColumns]
          · have shorter : (decoded decode drained).length ≠ drained.length :=
              fun same => all (filter_sublist.eq_of_length same)
            simp [Isolates, shorter, all]

/-- A poll isolates the records that cannot be decoded exactly if what it drains is isolable. -/
theorem isolates_iff (decodes : Decodes decode config.deserializer) (source : KafkaSource)
    (channel : List (KafkaPayload Data)) (registry : Nat → Option String) (paused : Bool)
    (maxRecords : Nat) :
    let polled := pollBatch config source channel registry paused maxRecords
    Isolates decode config polled.drained polled.result ↔
      Isolable decode config registry polled.drained := by
  cases paused with
  | true => exact iff_of_true rfl (.inl rfl)
  | false => exact isolates_buildBatch_iff decodes

/-- A payload is its row, if it has one. -/
def optional (includeMetadata : Bool) : KafkaSourceConfig (Option Nat) Nat where
  maxPollRecords := 10
  includeMetadata
  includeHeaders := false
  deserializer :=
    { deserializeBatch := fun payloads =>
        if ∀ data ∈ payloads, data.isSome = true then .ok (payloads.filterMap id)
        else .error "invalid record"
      confluentId := fun _ => none }

def polled (includeMetadata : Bool) (channel : List (Option Nat)) : Polled (Option Nat) Nat :=
  pollBatch (optional includeMetadata) .new
    (channel.map fun data => ⟨data, ⟨"events", 0⟩, 0, none, none⟩) (fun _ => none) false 10

theorem decodes_optional {includeMetadata : Bool} :
    Decodes id (optional includeMetadata).deserializer where
  ok all := if_pos all
  fails mem bad := ⟨_, if_neg fun all => Bool.false_ne_true (bad.symm.trans (all _ mem))⟩

/-- Without metadata, one record of three is skipped. -/
theorem isolates_iff_decoded :
    Isolates id (optional false) (polled false [some 5, none, some 7]).drained
      (polled false [some 5, none, some 7]).result :=
  (isolates_iff decodes_optional _ _ _ _ _).mpr (.inr ⟨rfl, nofun, cons_ne_nil _ _, nofun⟩)

/-- With metadata, one record that cannot be decoded fails the batch. -/
theorem not_isolates_poisoned :
    ¬Isolates id (optional true) (polled true [some 5, none]).drained
      (polled true [some 5, none]).result :=
  id

end LaminarDB.Connectors.Kafka

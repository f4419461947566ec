import LaminarDB.Connectors.FileSink

/-!
# The temporary files of an epoch

`Segments` says that the temporary files and the writer of a sink hold exactly given
rows, in their order. Every part of a call keeps it, provided that a new segment is
opened under a name that is not in use.
-/

namespace LaminarDB.Connectors.Files

open Library List Directory FileSink

variable {Row : Type} {sink : FileSink Row}

structure Segments (sink : FileSink Row) (directory : Directory FileName Row)
    (rows : List Row) : Prop where
  names : ∀ name ∈ sink.activeTmpFiles, name.temporary = true ∧
    name.epoch = sink.currentEpoch ∧ name.segment ≤ sink.currentSegment
  distinct : sink.activeTmpFiles.Nodup
  writing : ∀ writer, sink.writer = some writer →
    (directory.find? writer.path).isSome = true ∧
      ∃ earlier, sink.activeTmpFiles = earlier ++ [writer.path]
  held : sink.activeTmpFiles.flatMap directory.read ++ sink.buffered = rows

def OnTemporary (operations : List (Operation Row)) : Prop :=
  ∀ operation ∈ operations, ∀ name ∈ operation.touches, name.temporary = true

theorem OnTemporary.append {first second : List (Operation Row)} (ofFirst : OnTemporary first)
    (ofSecond : OnTemporary second) : OnTemporary (first ++ second) := by
  intro operation isMember
  rcases mem_append.mp isMember with inFirst | inSecond
  · exact ofFirst operation inFirst
  · exact ofSecond operation inSecond

theorem OnTemporary.take {operations : List (Operation Row)} (all : OnTemporary operations)
    (count : Nat) : OnTemporary (operations.take count) := fun operation isMember =>
  all operation (mem_of_mem_take isMember)

def WritesTemporary (sink : FileSink Row) : Prop :=
  ∀ writer, sink.writer = some writer → writer.path.temporary = true

theorem OnTemporary.nil : OnTemporary ([] : List (Operation Row)) := fun _ isMember =>
  (not_mem_nil isMember).elim

theorem OnTemporary.single {operation : Operation Row}
    (temporary : ∀ name ∈ operation.touches, name.temporary = true) : OnTemporary [operation] := by
  intro other isMember
  rw [mem_singleton.mp isMember]
  exact temporary

theorem OnTemporary.removeAll {names : List FileName}
    (temporary : ∀ name ∈ names, name.temporary = true) :
    OnTemporary (names.map .remove : List (Operation Row)) := by
  intro operation isMember name isTouched
  obtain ⟨removed, isRemoved, rfl⟩ := mem_map.mp isMember
  rw [mem_singleton.mp isTouched]
  exact temporary removed isRemoved

namespace WritesTemporary

section

variable (writes : WritesTemporary sink)

include writes

theorem closeWriter : OnTemporary sink.closeWriter.2 := by
  unfold FileSink.closeWriter
  split
  next => exact .nil
  next writer isWriter =>
    exact .single (by simpa [FileOperation.touches] using writes writer isWriter)

theorem ensureWriter : OnTemporary sink.ensureWriter.2 ∧ WritesTemporary sink.ensureWriter.1 := by
  unfold FileSink.ensureWriter
  split
  next =>
    refine ⟨.single (by simp [FileOperation.touches, segmentPath]), ?_⟩
    intro writer isWriter
    cases isWriter
    rfl
  next => exact ⟨.nil, writes⟩

theorem writeAll (rows : List Row) (spilled : Nat) :
    OnTemporary (sink.writeAll rows spilled).2 ∧
      WritesTemporary (sink.writeAll rows spilled).1 := by
  unfold FileSink.writeAll
  split
  next => exact ⟨.nil, writes⟩
  next writer isWriter =>
    have isTemporary := writes writer isWriter
    refine ⟨.single (by simpa [FileOperation.touches] using isTemporary), ?_⟩
    intro next isNext
    cases isNext
    exact isTemporary

variable (config : FileSinkConfig Row)

theorem rotate : OnTemporary (sink.rotate config).2 := by
  unfold FileSink.rotate
  split
  next => exact .nil
  next =>
    split
    next => exact writes.closeWriter
    next => exact .nil

theorem writeBatch (batch : List Row) (spilled : Nat) :
    OnTemporary (sink.writeBatch config batch spilled).operations := by
  unfold FileSink.writeBatch
  split
  next => exact .nil
  next =>
    split
    next =>
      split
      next => exact .nil
      next => exact .nil
    next =>
      split
      next => exact .nil
      next records _ =>
        obtain ⟨ready, stillWrites⟩ := writes.ensureWriter
        obtain ⟨written, writesAfter⟩ := stillWrites.writeAll (records.flatMap Encoded.rows) spilled
        have counted : WritesTemporary
            ((sink.ensureWriter.1.writeAll (records.flatMap Encoded.rows) spilled).1.countBytes
              (recordBytes records)) := writesAfter
        exact (ready.append written).append (counted.rotate config)

end

end WritesTemporary

namespace Segments

variable {directory : Directory FileName Row} {rows : List Row}

section

variable (segments : Segments sink directory rows)

include segments

section

variable {writer : Writer Row} (isWriter : sink.writer = some writer)

include isWriter

theorem path_mem : writer.path ∈ sink.activeTmpFiles := by
  obtain ⟨_, earlier, isLast⟩ := segments.writing writer isWriter
  simp [isLast]

theorem append_held (items : List Row) :
    sink.activeTmpFiles.flatMap (directory.apply (.append writer.path items)).read =
      sink.activeTmpFiles.flatMap directory.read ++ items := by
  obtain ⟨isFile, earlier, isLast⟩ := segments.writing writer isWriter
  have distinct := segments.distinct
  rw [isLast, nodup_append] at distinct
  have sameEarlier : earlier.flatMap (directory.apply (.append writer.path items)).read =
      earlier.flatMap directory.read := by
    apply flatMap_congr
    intro name isEarlier
    have different : name ≠ writer.path := distinct.2.2 name isEarlier _ (by simp)
    rw [Directory.read, Directory.find?_append, if_neg different, Directory.read]
  rw [isLast, flatMap_append, flatMap_append, sameEarlier, append_assoc]
  simp [read_append_self isFile]

end

theorem openSegment (more : List Row)
    (noWriter : sink.writer = none) (isNew : sink.segmentPath ∉ sink.activeTmpFiles) :
    Segments (sink.openSegment more) (directory.apply (.create sink.segmentPath))
      (rows ++ more) := by
  constructor
  · intro name isMember
    rcases mem_append.mp isMember with isActive | isPath
    · exact segments.names name isActive
    · rw [mem_singleton.mp isPath]
      exact ⟨rfl, rfl, Nat.le_refl _⟩
  · change (sink.activeTmpFiles ++ [sink.segmentPath]).Nodup
    rw [← concat_eq_append]
    exact segments.distinct.concat isNew
  · intro writer isWriter
    cases isWriter
    refine ⟨?_, sink.activeTmpFiles, rfl⟩
    rw [Directory.apply, find?_put_self, Option.isSome_some]
  · have sameReads : sink.activeTmpFiles.flatMap
        (directory.apply (.create sink.segmentPath)).read =
          sink.activeTmpFiles.flatMap directory.read := by
      apply flatMap_congr
      intro name isActive
      have different : name ≠ sink.segmentPath := by
        rintro rfl
        exact isNew isActive
      rw [Directory.read, Directory.apply, Directory.find?_put_of_ne _ different, Directory.read]
    have before := segments.held
    simp only [buffered, noWriter, append_nil] at before
    simp only [FileSink.openSegment, buffered, flatMap_append, sameReads, before,
      flatMap_cons, flatMap_nil, read_create_self, append_nil]

theorem ensureWriter (isNew : sink.writer = none → sink.segmentPath ∉ sink.activeTmpFiles) :
    let after := sink.ensureWriter
    Segments after.1 (directory.applyAll after.2) rows ∧
      after.1.writer.isSome = true ∧ after.1.currentSegment = sink.currentSegment ∧
      after.1.currentEpoch = sink.currentEpoch ∧ after.1.epochBatches = sink.epochBatches := by
  unfold FileSink.ensureWriter
  split
  next noWriter =>
    refine ⟨?_, rfl, rfl, rfl, rfl⟩
    simpa [applyAll] using segments.openSegment [] noWriter (isNew noWriter)
  next writer isWriter =>
    exact ⟨segments, by rw [isWriter, Option.isSome_some], rfl, rfl, rfl⟩

theorem writeAll (more : List Row) (spilled : Nat) (hasWriter : sink.writer.isSome = true) :
    let after := sink.writeAll more spilled
    Segments after.1 (directory.applyAll after.2) (rows ++ more) ∧
      after.1.writer.isSome = true ∧ after.1.currentSegment = sink.currentSegment ∧
      after.1.currentEpoch = sink.currentEpoch ∧ after.1.epochBatches = sink.epochBatches := by
  obtain ⟨writer, isWriter⟩ := Option.isSome_iff_exists.mp hasWriter
  simp only [FileSink.writeAll, isWriter]
  refine ⟨⟨segments.names, segments.distinct, ?_, ?_⟩, rfl, trivial, trivial, trivial⟩
  · intro next isNext
    cases isNext
    obtain ⟨isFile, isLast⟩ := segments.writing writer isWriter
    refine ⟨?_, isLast⟩
    simp [applyAll, Directory.find?_append, isFile]
  · have before := segments.held
    simp only [buffered, isWriter] at before
    simp only [applyAll, foldl_cons, foldl_nil, buffered,
      segments.append_held isWriter, append_assoc, take_append_drop]
    rw [← before, append_assoc]

theorem closeWriter : Segments sink.closeWriter.1 (directory.applyAll sink.closeWriter.2) rows := by
  unfold FileSink.closeWriter
  split
  next noWriter => exact segments
  next writer isWriter =>
    have before := segments.held
    simp only [buffered, isWriter] at before
    refine ⟨segments.names, segments.distinct, ?_, ?_⟩
    · intro next isNext
      cases isNext
    · simp only [applyAll, foldl_cons, foldl_nil, buffered,
        segments.append_held isWriter, append_nil]
      exact before

theorem writesTemporary : WritesTemporary sink :=
  fun writer isWriter => (segments.names writer.path (segments.path_mem isWriter)).1

end

theorem closeWriter_writer (sink : FileSink Row) : sink.closeWriter.1.writer = none := by
  unfold FileSink.closeWriter
  split
  next noWriter => exact noWriter
  next => rfl

section

variable (segments : Segments sink directory rows)

include segments

variable (config : FileSinkConfig Row)

theorem rotate (hasWriter : sink.writer.isSome = true) :
    let after := sink.rotate config
    Segments after.1 (directory.applyAll after.2) rows ∧
      (after.1.writer = none →
        ∀ name ∈ after.1.activeTmpFiles, name.segment < after.1.currentSegment) ∧
      after.1.currentEpoch = sink.currentEpoch ∧ after.1.epochBatches = sink.epochBatches := by
  have unchanged : Segments sink (directory.applyAll []) rows ∧
      (sink.writer = none → ∀ name ∈ sink.activeTmpFiles, name.segment < sink.currentSegment) ∧
      sink.currentEpoch = sink.currentEpoch ∧ sink.epochBatches = sink.epochBatches := by
    refine ⟨segments, ?_, rfl, rfl⟩
    intro noWriter
    rw [noWriter] at hasWriter
    cases hasWriter
  unfold FileSink.rotate
  split
  next => exact unchanged
  next maxSize isLimit =>
    split
    next reached =>
      obtain ⟨writer, isWriter⟩ := Option.isSome_iff_exists.mp hasWriter
      have closed := segments.closeWriter
      simp only [FileSink.closeWriter, isWriter] at closed ⊢
      refine ⟨{ closed with names := ?_ }, ?_, trivial, trivial⟩
      · intro name isActive
        obtain ⟨isTemporary, sameEpoch, below⟩ := segments.names name isActive
        exact ⟨isTemporary, sameEpoch, Nat.le_succ_of_le below⟩
      · intro _ name isActive
        exact Nat.lt_succ_of_le (segments.names name isActive).2.2
    next => exact unchanged

theorem countBytes (bytes : Nat) : Segments (sink.countBytes bytes) directory rows :=
  { segments with }

theorem writeRecords (records : List (Encoded Row)) (spilled : Nat)
    (isNew : sink.writer = none → sink.segmentPath ∉ sink.activeTmpFiles) :
    let after := sink.writeRecords config records spilled
    Segments after.1 (directory.applyAll after.2) (rows ++ records.flatMap Encoded.rows) ∧
      (after.1.writer = none →
        ∀ name ∈ after.1.activeTmpFiles, name.segment < after.1.currentSegment) ∧
      after.1.currentEpoch = sink.currentEpoch ∧ after.1.epochBatches = sink.epochBatches := by
  obtain ⟨ready, hasWriter, _, readyEpoch, readyBatches⟩ := segments.ensureWriter isNew
  obtain ⟨written, stillWriter, _, writtenEpoch, writtenBatches⟩ :=
    ready.writeAll (records.flatMap Encoded.rows) spilled hasWriter
  obtain ⟨rotated, isFresh, rotatedEpoch, rotatedBatches⟩ :=
    (written.countBytes (recordBytes records)).rotate config stillWriter
  refine ⟨?_, isFresh, ?_, ?_⟩
  · simp only [FileSink.writeRecords, applyAll_append]
    exact rotated
  · exact rotatedEpoch.trans (writtenEpoch.trans readyEpoch)
  · exact rotatedBatches.trans (writtenBatches.trans readyBatches)

end

end Segments

end LaminarDB.Connectors.Files

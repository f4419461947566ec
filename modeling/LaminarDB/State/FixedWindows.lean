import LaminarDB.State.EmittedRows

/-!
# Windows of a fixed size are emitted once

A tumbling or hopping window takes the rows assigned to it until a watermark reaches its end and the
allowed lateness. It is then emitted and forgotten, with one row for each of its groups.
-/

namespace LaminarDB.State

open Library Result List SlidingWindowAssigner KeyedMap Windows

variable {Acc Input Row : Type} {watermark start sizeMs : I64} {engine : Engine Acc Input}
  {query : WindowQuery Acc Input Row} {left windows : Windows Acc} {assign : I64 → List I64}
  {rows fed : List Row} {key : GroupKey} {time : Row → I64}
  {emitted : List ((I64 × GroupKey) × List Acc)} {entries : List (I64 × Groups Acc)}
  {marks : List I64} {batches : List RecordBatch} {accs : List Acc}

namespace Windows

section Run

variable (engine query assign time) in
def Roomy (start : I64) (rows : List Row) : Prop :=
  ∃ keys, Room query keys ∧ ∀ row ∈ rows, time row ≠ nullTimestamp → start ∈ assign (time row) →
    groupKey engine query row ∈ keys

variable (query assign time) in
def OnTime (sizeMs : I64) (marks : List I64) (rows : List Row) : Prop :=
  ∀ row ∈ rows, time row ≠ nullTimestamp → ∀ start ∈ assign (time row), ∀ mark ∈ marks,
    mark < closesAt query sizeMs start

/-- A window and group has these accumulators, or has been emitted with them. -/
def Held (windows : Windows Acc) (emitted : List ((I64 × GroupKey) × List Acc)) (start : I64)
    (key : GroupKey) (accs : List Acc) : Prop :=
  (windows.groupsOf start).find? key = some accs ∨ ((start, key), accs) ∈ emitted

variable (engine query assign time) in
/-- What the windows and the emissions so far hold of the rows and watermarks so far. -/
structure Tracks (sizeMs : I64) (fed : List Row) (marks : List I64) (windows : Windows Acc)
    (emitted : List ((I64 × GroupKey) × List Acc)) : Prop where
  sound : ∀ start, Sound engine query.aggSpecs query.groupTypes.length (windows.groupsOf start)
  opened : ∀ entry ∈ windows.entries, ∀ mark ∈ marks, mark < closesAt query sizeMs entry.1
  closed : ∀ entry ∈ emitted, ∃ mark ∈ marks, closesAt query sizeMs entry.1.1 ≤ mark
  once : (emitted.map Prod.fst).Nodup
  present : ∀ start, Roomy engine query assign time start fed → ∀ key,
    received engine query assign time start key fed ≠ [] →
      ∃ accs, Held windows emitted start key accs
  holds : ∀ start, Roomy engine query assign time start fed → ∀ key accs,
    Held windows emitted start key accs →
      received engine query assign time start key fed ≠ [] ∧
        Holds engine query.aggSpecs (received engine query assign time start key fed) accs

theorem tracks_empty : Tracks engine query assign time sizeMs [] [] (.empty : Windows Acc) [] where
  sound := fun _ _ _ found => nomatch found
  opened := forall_mem_nil _
  closed := forall_mem_nil _
  once := nodup_nil
  present := fun _ _ _ someRows => absurd rfl someRows
  holds := by
    rintro start - key accs (found | mem)
    · cases found
    · cases mem

theorem received_append :
    received engine query assign time start key (fed ++ rows) =
      received engine query assign time start key fed ++
        received engine query assign time start key rows :=
  filter_append ..

theorem Roomy.of_append (roomy : Roomy engine query assign time start (fed ++ rows)) :
    Roomy engine query assign time start fed := by
  obtain ⟨keys, room, known⟩ := roomy
  exact ⟨keys, room, (forall_mem_append.mp known).1⟩

theorem Tracks.groupsHold
    (tracks : Tracks engine query assign time sizeMs fed marks windows emitted)
    (roomy : Roomy engine query assign time start fed)
    (isOpen : ∀ mark ∈ marks, mark < closesAt query sizeMs start) :
    GroupsHold engine query.aggSpecs
      (fun key => received engine query assign time start key fed) (windows.groupsOf start) := by
  intro key
  refine ⟨fun missing => ?_, fun accs found => tracks.holds start roomy key accs (.inl found)⟩
  by_contra someRows
  obtain ⟨accs, found | mem⟩ := tracks.present start roomy key someRows
  · cases missing.symm.trans found
  · obtain ⟨mark, isMark, isClosed⟩ := tracks.closed _ mem
    exact absurd isClosed (not_le.mpr (isOpen mark isMark))

theorem Tracks.updateWindows
    (tracks : Tracks engine query assign time sizeMs fed marks windows emitted)
    (unique : ∀ instant, (assign instant).Nodup)
    (keyed : ∀ row, (query.key row).length = query.groupTypes.length)
    (onTime : OnTime query assign time sizeMs marks rows)
    (updated : updateWindows engine query windows (assignRows query assign time rows) =
      (left, none)) : Tracks engine query assign time sizeMs (fed ++ rows) marks left emitted := by
  have openStart : ∀ group ∈ assignRows query assign time rows, ∀ mark ∈ marks,
      mark < closesAt query sizeMs group.1.1 := by
    intro group mem
    obtain ⟨-, row, inRows, timed, assigned, -⟩ := mem_assignRows mem
    exact onTime row inRows timed _ assigned
  have step : ∀ start, Roomy engine query assign time start (fed ++ rows) →
      (GroupsHold engine query.aggSpecs
        (fun key => received engine query assign time start key (fed ++ rows))
          (left.groupsOf start) ∧ ∀ mark ∈ marks, mark < closesAt query sizeMs start) ∨
      left.groupsOf start = windows.groupsOf start ∧
        ∀ key, received engine query assign time start key (fed ++ rows) =
          received engine query assign time start key fed := by
    intro start roomy
    by_cases touched : ∃ group ∈ assignRows query assign time rows, group.1.1 = start
    · obtain ⟨group, mem, rfl⟩ := touched
      have isOpen := openStart group mem
      obtain ⟨keys, room, known⟩ := roomy
      have before := tracks.groupsHold (Roomy.of_append ⟨keys, room, known⟩) isOpen
      refine .inl ⟨(before.updateWindows room ?_ ?_ ?_ updated).of_perm fun key => ?_, isOpen⟩
      · intro key someRows
        obtain ⟨row, isReceived⟩ := exists_mem_of_ne_nil _ someRows
        obtain ⟨inFed, timed, assigned, isKey⟩ := mem_received.mp isReceived
        exact isKey ▸ known row (mem_append_left _ inFed) timed assigned
      · exact fun other mem => (mem_assignRows mem).1
      · intro other mem same
        obtain ⟨-, row, inRows, timed, assigned, isKey⟩ := mem_assignRows mem
        rw [same] at assigned
        exact isKey ▸ known row (mem_append_right _ inRows) timed assigned
      · rw [received_append]
        exact (routed_assignRows unique).append_left _
    · refine .inr ⟨groupsOf_updateWindows (fun group mem same =>
        touched ⟨group, mem, same⟩) updated, fun key => ?_⟩
      have noRows : received engine query assign time start key rows = [] := by
        refine perm_nil.mp ((routed_assignRows unique).symm.trans (.of_eq ?_))
        unfold routed
        rw [flatMap_eq_nil_iff]
        intro group mem
        obtain ⟨inGroups, goes⟩ := mem_filter.mp mem
        exact absurd ⟨group, inGroups, of_decide_eq_true (Bool.and_eq_true_iff.mp goes).1⟩ touched
      rw [received_append, noRows, append_nil]
  refine ⟨?_, ?_, tracks.closed, tracks.once, ?_, ?_⟩
  · refine updateWindows_sound tracks.sound (fun group mem => ?_) updated
    obtain ⟨-, row, -, -, -, isKey⟩ := mem_assignRows mem
    rw [← isKey, rowToScalarKeyWithTypes, length_zipWith, keyed row, Nat.min_self]
  · intro entry mem
    rcases mem_updateWindows updated mem with ⟨before, present, same⟩ | ⟨group, inGroups, same⟩
    · exact same ▸ tracks.opened before present
    · exact same ▸ openStart group inGroups
  · intro start roomy key someRows
    rcases step start roomy with ⟨holds, -⟩ | ⟨sameGroups, sameRows⟩
    · cases found : (left.groupsOf start).find? key with
      | none => exact absurd ((holds key).1 found) someRows
      | some accs => exact ⟨accs, .inl found⟩
    · rw [sameRows] at someRows
      obtain ⟨accs, held⟩ := tracks.present start roomy.of_append key someRows
      exact ⟨accs, held.imp_left fun found => sameGroups ▸ found⟩
  · intro start roomy key accs held
    rcases step start roomy with ⟨holds, isOpen⟩ | ⟨sameGroups, sameRows⟩
    · rcases held with found | mem
      · exact (holds key).2 accs found
      · obtain ⟨mark, isMark, isClosed⟩ := tracks.closed _ mem
        exact absurd isClosed (not_le.mpr (isOpen mark isMark))
    · rw [sameRows]
      exact tracks.holds start roomy.of_append key accs
        (held.imp_left fun found => sameGroups ▸ found)

theorem mem_of_groupsOf (found : (windows.groupsOf start).find? key = some accs) :
    (start, windows.groupsOf start) ∈ windows.entries := by
  unfold groupsOf at found ⊢
  cases present : windows.find? start with
  | none =>
    rw [present] at found
    cases found
  | some groups => exact SortedMap.mem_of_find? present

theorem groupsOf_of_mem
    (mem : (start, groups) ∈ windows.entries) : windows.groupsOf start = groups := by
  rw [groupsOf, SortedMap.find?_of_mem mem]
  rfl

theorem Tracks.closeFixedWindows
    (tracks : Tracks engine query assign time sizeMs fed marks windows emitted)
    (rendering : Rendering engine query)
    (closed : closeFixedWindows engine query sizeMs windows watermark = (left, .ok batches)) :
    ∃ new, Forall₂ (rendering.Renders sizeMs) new (batches.flatMap batchRows) ∧
      Tracks engine query assign time sizeMs fed (marks ++ [watermark]) left (emitted ++ new) := by
  have isClosing := @mem_closing Acc Input Row query sizeMs windows watermark
  have isSound : ∀ entry ∈ windows.entries,
      Sound engine query.aggSpecs query.groupTypes.length entry.2 := fun entry mem =>
    groupsOf_of_mem mem ▸ tracks.sound entry.1
  obtain ⟨rows, areLeft⟩ := closeEach_ok rendering
    (fun entry mem => isSound entry (isClosing.mp mem).1) closed
  have isLeft : ∀ entry, entry ∈ left.entries ↔
      entry ∈ windows.entries ∧ watermark < closesAt query sizeMs entry.1 := by
    intro entry
    rw [areLeft, ← not_le]
    refine and_congr_right fun mem => ⟨fun differs early => ?_, fun late other isOther same => ?_⟩
    · exact differs entry (isClosing.mpr ⟨mem, early⟩) rfl
    · obtain ⟨inWindows, early⟩ := isClosing.mp isOther
      exact late (SortedMap.eq_of_mem mem inWindows same ▸ early)
  have sameHeld : ∀ start key accs,
      Held left (emitted ++ cells (windows.entries.takeWhile
        fun entry => decide (closesAt query sizeMs entry.1 ≤ watermark))) start key accs ↔
      Held windows emitted start key accs := by
    intro start key accs
    unfold Held
    rw [mem_append, mem_cells]
    constructor
    · rintro (found | before | ⟨groups, closing, found⟩)
      · have inWindows := ((isLeft _).mp (mem_of_groupsOf found)).1
        exact .inl (groupsOf_of_mem inWindows ▸ found)
      · exact .inr before
      · exact .inl (groupsOf_of_mem (isClosing.mp closing).1 ▸ found)
    · rintro (found | before)
      · have inWindows := mem_of_groupsOf found
        by_cases early : closesAt query sizeMs start ≤ watermark
        · exact .inr (.inr ⟨_, isClosing.mpr ⟨inWindows, early⟩, found⟩)
        · have stays := (isLeft _).mpr ⟨inWindows, not_le.mp early⟩
          exact .inl (groupsOf_of_mem stays ▸ found)
      · exact .inr (.inl before)
  have closedNow : ∀ entry ∈ cells (windows.entries.takeWhile
      fun entry => decide (closesAt query sizeMs entry.1 ≤ watermark)),
      (∃ groups, (entry.1.1, groups) ∈ windows.entries) ∧
        closesAt query sizeMs entry.1.1 ≤ watermark := by
    rintro ⟨⟨start, key⟩, accs⟩ mem
    obtain ⟨groups, closing, -⟩ := mem_cells.mp mem
    exact ⟨⟨groups, (isClosing.mp closing).1⟩, (isClosing.mp closing).2⟩
  refine ⟨_, rows, ?_, ?_, ?_, ?_, ?_, ?_⟩
  · intro start key accs found
    have inLeft := mem_of_groupsOf found
    exact isSound _ ((isLeft _).mp inLeft).1 key accs found
  · intro entry mem mark isMark
    obtain ⟨inWindows, late⟩ := (isLeft entry).mp mem
    rcases mem_append.mp isMark with before | isLast
    · exact tracks.opened entry inWindows mark before
    · exact mem_singleton.mp isLast ▸ late
  · intro entry mem
    rcases mem_append.mp mem with before | isNew
    · obtain ⟨mark, isMark, early⟩ := tracks.closed entry before
      exact ⟨mark, mem_append_left _ isMark, early⟩
    · exact ⟨watermark, mem_append_right _ (mem_singleton_self _), (closedNow entry isNew).2⟩
  · rw [map_append, nodup_append']
    refine ⟨tracks.once, nodup_cells ?_, fun name before isNew => ?_⟩
    · exact (windows.sorted.imp ne_of_lt).sublist ((takeWhile_sublist _).map _)
    · obtain ⟨old, wasEmitted, rfl⟩ := mem_map.mp before
      obtain ⟨entry, inNew, same⟩ := mem_map.mp isNew
      obtain ⟨mark, isMark, early⟩ := tracks.closed old wasEmitted
      obtain ⟨⟨groups, inWindows⟩, -⟩ := closedNow entry inNew
      rw [same] at inWindows
      exact absurd early (not_le.mpr (tracks.opened _ inWindows mark isMark))
  · intro start roomy key someRows
    obtain ⟨accs, held⟩ := tracks.present start roomy key someRows
    exact ⟨accs, (sameHeld start key accs).mpr held⟩
  · intro start roomy key accs held
    exact tracks.holds start roomy key accs ((sameHeld start key accs).mp held)

end Run

end Windows

namespace CoreWindowAssigner

def windowsAt : CoreWindowAssigner → I64 → List I64
  | .tumbling assigner, instant => [assigner.assign instant]
  | .hopping assigner, instant => assigner.assignWindows instant
  | .session _, _ => []

def windowSizeMs : CoreWindowAssigner → I64
  | .tumbling assigner => assigner.sizeMs
  | .hopping assigner => assigner.sizeMs
  | .session gapMs => gapMs

def IsFixed : CoreWindowAssigner → Prop
  | .session _ => False
  | _ => True

theorem nodup_windowsAt (assigner : CoreWindowAssigner) (instant : I64) :
    (assigner.windowsAt instant).Nodup := by
  cases assigner with
  | tumbling assigner => exact nodup_singleton _
  | hopping assigner => exact nodup_reverse.mpr (sorted_walkBack.imp ne_of_gt)
  | session gapMs => exact nodup_nil

end CoreWindowAssigner

namespace CoreWindowState

open Windows

def fedBy : List (WindowInput Row) → List Row
  | [] => []
  | .rows rows :: inputs => rows ++ fedBy inputs
  | .watermark _ :: inputs => fedBy inputs

def marksOf : List (WindowInput Row) → List I64
  | [] => []
  | .rows _ :: inputs => marksOf inputs
  | .watermark watermark :: inputs => watermark :: marksOf inputs

/-- The calls of a run up to the first error: the state, and all that was emitted. -/
def runCalls (engine : Engine Acc Input) (query : WindowQuery Acc Input Row)
    (assigner : CoreWindowAssigner) : CoreWindowState Acc → List (WindowInput Row) →
      Except DbError (CoreWindowState Acc × List RecordBatch)
  | state, [] => .ok (state, [])
  | state, .rows rows :: inputs =>
    match updateBatch engine query assigner state rows with
    | (_, some error) => .error error
    | (state, none) => runCalls engine query assigner state inputs
  | state, .watermark watermark :: inputs =>
    match closeWindows engine query assigner state watermark with
    | (_, .error error) => .error error
    | (state, .ok batches) => (runCalls engine query assigner state inputs).map fun result =>
      (result.1, batches ++ result.2)

/-- No row of the run goes to a window that an earlier watermark has closed. -/
def OnTimeRun (query : WindowQuery Acc Input Row) (assigner : CoreWindowAssigner)
    (time : Row → I64) (marks : List I64) : List (WindowInput Row) → Prop
  | [] => True
  | .rows rows :: inputs =>
    OnTime query assigner.windowsAt time assigner.windowSizeMs marks rows ∧
      OnTimeRun query assigner time marks inputs
  | .watermark watermark :: inputs =>
    OnTimeRun query assigner time (marks ++ [watermark]) inputs

variable (rendering : Rendering engine query)

def Emits (sizeMs : I64) (entry : (I64 × GroupKey) × List Acc) (row : List ScalarValue) : Prop :=
  ∃ values, Forall₂ (fun acc value => engine.evaluate acc = .ok value) entry.2 values ∧
    row = rendering.project (rendering.windowRow sizeMs entry.1.1 entry.1.2 values)

/-- What the calls emit: one row for each window and group that has a row and whose window
some watermark has closed, made of accumulators that hold exactly its rows. This is said
of the windows that are asked about; no window and group is emitted twice in any case. -/
def EmitsOnce (assigner : CoreWindowAssigner)
    (time : Row → I64) (inputs : List (WindowInput Row)) (batches : List RecordBatch)
    (Asked : I64 → Prop) : Prop :=
  ∃ emitted : List ((I64 × GroupKey) × List Acc),
    Forall₂ (Emits rendering assigner.windowSizeMs) emitted (batches.flatMap batchRows) ∧
    (emitted.map Prod.fst).Nodup ∧
    ∀ start, Asked start → ∀ key,
      ((∃ accs, ((start, key), accs) ∈ emitted) ↔
        received engine query assigner.windowsAt time start key (fedBy inputs) ≠ [] ∧
          ∃ mark ∈ marksOf inputs, closesAt query assigner.windowSizeMs start ≤ mark) ∧
      ∀ accs, ((start, key), accs) ∈ emitted → Holds engine query.aggSpecs
        (received engine query assigner.windowsAt time start key (fedBy inputs)) accs

section Run

variable {assigner : CoreWindowAssigner} {state : CoreWindowState Acc}

theorem updateBatch_fixed (fixed : assigner.IsFixed) :
    updateBatch engine query assigner state rows = ({ state with windows :=
          (Windows.updateBatch engine query assigner.windowsAt state.windows rows).1 },
        (Windows.updateBatch engine query assigner.windowsAt state.windows rows).2) := by
  cases assigner with
  | tumbling | hopping => rfl
  | session gapMs => exact fixed.elim

theorem closeWindows_fixed (fixed : assigner.IsFixed) :
    closeWindows engine query assigner state watermark = ({ state with windows :=
          (closeFixedWindows engine query assigner.windowSizeMs state.windows watermark).1 },
        (closeFixedWindows engine query assigner.windowSizeMs state.windows watermark).2.bind
          query.postProjection) := by
  cases assigner with
  | tumbling | hopping => rfl
  | session gapMs => exact fixed.elim

variable {left : CoreWindowState Acc}

theorem tracks_updateBatch
    (tracks : Tracks engine query assigner.windowsAt time assigner.windowSizeMs fed marks
      state.windows emitted) (fixed : assigner.IsFixed) (hasTime : query.time = .ok time)
    (keyed : ∀ row, (query.key row).length = query.groupTypes.length)
    (onTime : OnTime query assigner.windowsAt time assigner.windowSizeMs marks rows)
    (updated : updateBatch engine query assigner state rows = (left, none)) :
    Tracks engine query assigner.windowsAt time assigner.windowSizeMs (fed ++ rows) marks
      left.windows emitted := by
  rw [updateBatch_fixed fixed] at updated
  obtain ⟨rfl, isNone⟩ := Prod.mk.inj updated
  generalize isResult : Windows.updateBatch engine query assigner.windowsAt state.windows rows =
    result at isNone ⊢
  obtain ⟨windows, error⟩ := result
  cases isNone
  unfold Windows.updateBatch at isResult
  split at isResult
  · rename_i noRows
    cases isResult
    rwa [isEmpty_iff.mp noRows, append_nil]
  · rw [hasTime] at isResult
    exact tracks.updateWindows assigner.nodup_windowsAt keyed onTime isResult

section

variable (tracks : Tracks engine query assigner.windowsAt time assigner.windowSizeMs fed marks
    state.windows emitted) {rendering : Rendering engine query}

include tracks

theorem tracks_closeWindows (fixed : assigner.IsFixed)
    (closed : closeWindows engine query assigner state watermark = (left, .ok batches)) :
    ∃ new, Forall₂ (Emits rendering assigner.windowSizeMs) new (batches.flatMap batchRows) ∧
      Tracks engine query assigner.windowsAt time assigner.windowSizeMs fed (marks ++ [watermark])
        left.windows (emitted ++ new) := by
  rw [closeWindows_fixed fixed] at closed
  obtain ⟨rfl, isOk⟩ := Prod.mk.inj closed
  generalize isResult :
    closeFixedWindows engine query assigner.windowSizeMs state.windows watermark = result at isOk ⊢
  obtain ⟨windows, outcome⟩ := result
  obtain ⟨built, rfl, projected⟩ := bind_eq_ok isOk
  obtain ⟨new, rows, tracked⟩ := tracks.closeFixedWindows rendering isResult
  refine ⟨new, ?_, tracked⟩
  rw [rendering.projected projected, forall₂_map_right_iff]
  refine rows.imp fun entry row renders => ?_
  obtain ⟨values, evaluates, rfl⟩ := renders
  exact ⟨values, evaluates, rfl⟩

theorem tracks_runCalls {inputs : List (WindowInput Row)} (fixed : assigner.IsFixed)
    (hasTime : query.time = .ok time)
    (keyed : ∀ row, (query.key row).length = query.groupTypes.length)
    (onTime : OnTimeRun query assigner time marks inputs)
    (ran : runCalls engine query assigner state inputs = .ok (left, batches)) :
    ∃ new, Forall₂ (Emits rendering assigner.windowSizeMs) new (batches.flatMap batchRows) ∧
      Tracks engine query assigner.windowsAt time assigner.windowSizeMs (fed ++ fedBy inputs)
        (marks ++ marksOf inputs) left.windows (emitted ++ new) := by
  induction inputs generalizing state fed marks emitted batches with
  | nil =>
    cases ran
    refine ⟨[], .nil, ?_⟩
    simpa [fedBy, marksOf] using tracks
  | cons input inputs ih =>
    cases input with rw [runCalls] at ran
    | rows rows =>
      split at ran
      · cases ran
      · rename_i next isNext
        have step := tracks_updateBatch tracks fixed hasTime keyed onTime.1 isNext
        obtain ⟨new, areRows, tracked⟩ := ih step onTime.2 ran
        rw [append_assoc] at tracked
        exact ⟨new, areRows, tracked⟩
    | watermark watermark =>
      split at ran
      · cases ran
      · rename_i next emittedNow isNext
        obtain ⟨⟨last, later⟩, isLater, same⟩ := map_eq_ok ran
        cases same
        obtain ⟨first, areFirst, step⟩ := tracks_closeWindows tracks fixed isNext
        obtain ⟨new, areRows, tracked⟩ := ih step onTime isLater
        rw [append_assoc, append_assoc] at tracked
        refine ⟨first ++ new, ?_, tracked⟩
        rw [flatMap_append]
        exact rel_append areFirst areRows

end

theorem emitsOnce_of_roomy (engine : Engine Acc Input) (query : WindowQuery Acc Input Row)
    (assigner : CoreWindowAssigner) (fixed : assigner.IsFixed)
    (rendering : Rendering engine query) (time : Row → I64) (hasTime : query.time = .ok time)
    (keyed : ∀ row, (query.key row).length = query.groupTypes.length)
    (inputs : List (WindowInput Row)) (onTime : OnTimeRun query assigner time [] inputs)
    (state : CoreWindowState Acc) (batches : List RecordBatch)
    (ran : runCalls engine query assigner .fresh inputs = .ok (state, batches)) :
    EmitsOnce rendering assigner time inputs batches
      fun start => Roomy engine query assigner.windowsAt time start (fedBy inputs) := by
  obtain ⟨emitted, rows, tracked⟩ := tracks_runCalls tracks_empty fixed hasTime keyed onTime ran
  refine ⟨emitted, rows, tracked.once, fun start roomy key => ⟨⟨?_, ?_⟩, ?_⟩⟩
  · rintro ⟨accs, mem⟩
    have held := tracked.holds start roomy key accs (.inr mem)
    exact ⟨held.1, tracked.closed ((start, key), accs) mem⟩
  · rintro ⟨someRows, mark, isMark, isClosed⟩
    obtain ⟨accs, found | mem⟩ := tracked.present start roomy key someRows
    · have isOpen :=
        tracked.opened (start, state.windows.groupsOf start) (mem_of_groupsOf found) mark isMark
      exact absurd isClosed (not_le_of_gt isOpen)
    · exact ⟨accs, mem⟩
  · intro accs mem
    exact (tracked.holds start roomy key accs (.inr mem)).2

theorem sum_buildColumn {dataType : DataType} {scalars : List ScalarValue}
    {column : Column} (built : buildColumn sumEngine label dataType scalars = .ok column) :
    column.values = scalars := by
  unfold buildColumn at built
  split at built
  · cases built
  · rename_i made isMade
    have values : made.values = scalars := by
      cases scalars with
      | nil => cases isMade
      | cons first rest =>
        simp only [sumEngine] at isMade
        split at isMade <;> cases isMade
        rfl
    cases built
    split <;> exact values

def sumRendering (groupType : DataType) : Rendering sumEngine (windowQuery groupType) where
  coerce _ scalar := scalar
  project row := row
  column built := by rw [sum_buildColumn built, map_id']
  batch made := (Except.ok.inj made).symm
  projected projected := by
    cases projected
    rw [map_id']

def tenMillis : CoreWindowAssigner := .tumbling ⟨.clamp 10, .clamp 0⟩

def sumCalls : List (WindowInput (ScalarValue × Int64)) :=
  [.rows [rowAt 5, rowAt 12], .watermark (.clamp 10), .rows [rowAt 13], .watermark (.clamp 20)]

theorem emitsOnce_sum :
    ∃ (state : CoreWindowState Int64) (batches : List RecordBatch),
      runCalls sumEngine (windowQuery .int64) tenMillis .fresh sumCalls = .ok (state, batches) ∧
        EmitsOnce (sumRendering .int64) tenMillis (fun row => .clamp row.2.toInt) sumCalls batches
          fun start => Roomy sumEngine (windowQuery .int64) tenMillis.windowsAt
            (fun row => .clamp row.2.toInt) start (fedBy sumCalls) := by
  refine ⟨_, _, rfl, ?_⟩
  refine emitsOnce_of_roomy sumEngine (windowQuery .int64) tenMillis trivial (sumRendering .int64) _
    rfl (fun _ => rfl) sumCalls ⟨?_, ?_, trivial⟩ _ _ rfl
  · intro row _ _ start _ mark isMark
    cases isMark
  · unfold OnTime
    decide

def plainEngine : Engine Unit Unit where
  update acc _ := (acc, none)
  state _ := .ok []
  merge acc _ := .ok acc
  evaluate _ := .ok (int64Scalar (.clamp 0))
  toArray scalar := .ok ⟨.int64, [scalar]⟩
  iterToArray scalars := .ok ⟨.int64, scalars⟩
  castScalar _ _ := none
  castColumn _ _ := none
  tryNew _ columns := .ok columns

def crowdQuery : WindowQuery Unit Unit Nat where
  key row := [.primitive (.int64 (some (.ofNat row)))]
  time := .ok fun _ => .clamp 0
  groupTypes := [.int64]
  aggSpecs := [⟨"plain", .ok (), fun _ => (), none, .int64⟩]
  outputTypes := [.int64, .int64, .int64, .int64]
  maxGroupsPerWindow := 1000000
  allowedLatenessMs := .clamp 0
  postProjection batches := .ok batches

def crowdRendering : Rendering plainEngine crowdQuery where
  coerce _ scalar := scalar
  project row := row
  column built := by
    simp only [buildColumn, plainEngine, Option.getD_none, ite_self] at built
    cases built
    rw [map_id']
  batch made := (Except.ok.inj made).symm
  projected projected := by
    cases projected
    rw [map_id']

theorem updateWindows_size {left : Windows Acc} (grouped : query.groupTypes.isEmpty = false)
    {groups : List ((I64 × GroupKey) × List Row)}
    (bounded : ∀ start, (windows.groupsOf start).size ≤ query.maxGroupsPerWindow)
    (updated : updateWindows engine query windows groups = (left, none)) :
    ∀ start, (left.groupsOf start).size ≤ query.maxGroupsPerWindow := by
  induction groups generalizing windows with
  | nil =>
    cases updated
    exact bounded
  | cons group groups ih =>
    obtain ⟨result, isResult, updated⟩ := updateWindows_cons updated
    refine ih (fun start => ?_) updated
    rw [groupsOf_insert]
    split
    · have before := bounded group.1.1
      rcases updateGroup_cases isResult with
        ⟨accs, after, found | ⟨missing, fits, -⟩, -, rfl⟩ | ⟨-, -, rfl⟩
      · have known := mem_map_of_mem (f := Prod.fst) (mem_of_find? found)
        exact (length_upsert_of_mem known).le.trans before
      · have room : (windows.groupsOf group.1.1).size < query.maxGroupsPerWindow := by
          simpa [hasRoom, grouped] using fits
        simp only [KeyedMap.size, KeyedMap.insert, upsert_of_notMem (notMem_of_find? missing),
          length_append, length_singleton]
        exact room
      · exact before
    · exact bounded start

theorem plain_updateWindows (windows : Windows Unit) (groups : List ((I64 × GroupKey) × List Nat)) :
    ∃ left, updateWindows plainEngine crowdQuery windows groups = (left, none) := by
  induction groups generalizing windows with
  | nil => exact ⟨windows, rfl⟩
  | cons group groups ih =>
    have updates : ∀ accs : List Unit,
        (updateGroupAccumulators plainEngine group.2 crowdQuery.aggSpecs accs).2 = none := by
      intro accs
      cases accs with
      | nil | cons => rfl
    have succeeds : (updateGroup plainEngine crowdQuery.aggSpecs (hasRoom crowdQuery)
        (windows.groupsOf group.1.1)
        (rowToScalarKeyWithTypes plainEngine group.1.2 crowdQuery.groupTypes) group.2).2 =
          none := by
      unfold updateGroup
      split
      · exact updates _
      · split
        · exact updates [()]
        · rfl
    simp only [updateWindows, updateWindow]
    unfold groupsOf at succeeds
    generalize updateGroup plainEngine crowdQuery.aggSpecs (hasRoom crowdQuery)
      ((windows.find? group.1.1).getD .empty)
      (rowToScalarKeyWithTypes plainEngine group.1.2 crowdQuery.groupTypes) group.2 = result
      at succeeds ⊢
    obtain ⟨result, error⟩ := result
    cases succeeds
    exact ih _

theorem plain_emitWindowBatch (start stop : I64) (groups : Groups Unit) :
    ∃ batch, emitWindowBatch plainEngine crowdQuery start stop groups = .ok batch := by
  unfold emitWindowBatch
  split
  · exact ⟨none, rfl⟩
  · have evaluates : ∀ group : GroupKey × List Unit, ∃ values, collect
        (evaluateAccumulator plainEngine "accumulator evaluate") group.2 = .ok values :=
      fun group => collect_isOk_iff.mpr fun acc _ => ⟨_, rfl⟩
    obtain ⟨evaluated, areEvaluated⟩ := collect_isOk_iff.mpr
      fun group (_ : group ∈ groups.entries) => evaluates group
    rw [areEvaluated]
    exact ⟨_, rfl⟩

theorem plain_closeEach (windows : Windows Unit) {closing : List (I64 × Groups Unit)} :
    ∃ left batches,
      closeEach plainEngine crowdQuery sizeMs windows closing = (left, .ok batches) := by
  induction closing generalizing windows with
  | nil => exact ⟨windows, [], rfl⟩
  | cons first closing ih =>
    obtain ⟨batch, isBatch⟩ := plain_emitWindowBatch first.1 (first.1.saturatingAdd sizeMs) first.2
    obtain ⟨left, batches, isRest⟩ := ih (windows.erase first.1)
    refine ⟨left, batch.toList ++ batches, ?_⟩
    simp only [closeEach, isBatch, isRest]
    rfl

theorem length_cells_le (included : entries.Sublist windows.entries)
    (one : ∀ entry ∈ windows.entries, entry.1 = start) :
    (cells entries).length ≤ (windows.groupsOf start).size := by
  cases entries with
  | nil => exact Nat.zero_le _
  | cons first rest =>
    have mem := included.mem mem_cons_self
    have isFirst : windows.groupsOf start = first.2 := by
      rw [← one first mem]
      exact groupsOf_of_mem mem
    have sorted := (pairwise_map.mp windows.sorted).sublist included
    have noMore : rest = [] := by
      cases rest with
      | nil => rfl
      | cons second rest =>
        have ordered := (pairwise_cons.mp sorted).1 second mem_cons_self
        have second_mem := included.mem (mem_cons_of_mem _ mem_cons_self)
        rw [one first mem, one second second_mem] at ordered
        exact absurd ordered (lt_irrefl _)
    subst noMore
    rw [isFirst]
    simp [cells, size]

theorem tenMillis_isFixed : tenMillis.IsFixed := trivial

def crowdState (windows : Windows Unit) : CoreWindowState Unit := { fresh with windows }

theorem crowd_emits {numbers : List Nat} :
    ∃ state batches, runCalls plainEngine crowdQuery tenMillis .fresh
        [.rows numbers, .watermark (.clamp 10)] = .ok (state, batches) ∧
      (batches.flatMap batchRows).length ≤ 1000000 := by
  obtain ⟨windows, updated⟩ := plain_updateWindows .empty
    (assignRows crowdQuery tenMillis.windowsAt (fun _ => .clamp 0) numbers)
  have isUpdated : updateBatch plainEngine crowdQuery tenMillis .fresh numbers =
      (crowdState windows, none) := by
    rw [updateBatch_fixed tenMillis_isFixed, Windows.updateBatch]
    split
    · rename_i noRows
      rw [isEmpty_iff.mp noRows] at updated
      cases updated
      rfl
    · exact congrArg (fun result : Windows Unit × Option DbError =>
        (crowdState result.1, result.2)) updated
  obtain ⟨left, batches, closed⟩ := plain_closeEach windows
  have isClosed : closeWindows plainEngine crowdQuery tenMillis (crowdState windows)
      (.clamp 10) = (crowdState left, .ok batches) := by
    exact congrArg (fun result : Windows Unit × Except DbError (List RecordBatch) =>
      (crowdState result.1, result.2.bind crowdQuery.postProjection)) closed
  refine ⟨crowdState left, batches ++ [], ?_, ?_⟩
  · simp only [runCalls, isUpdated, isClosed]
    rfl
  · have wide : ∀ group ∈ assignRows crowdQuery tenMillis.windowsAt (fun _ => .clamp 0) numbers,
        (rowToScalarKeyWithTypes plainEngine group.1.2 crowdQuery.groupTypes).length = 1 := by
      intro group mem
      obtain ⟨-, row, -, -, -, isKey⟩ := mem_assignRows mem
      rw [← isKey]
      rfl
    have started : ∀ start, Sound plainEngine crowdQuery.aggSpecs 1
        (groupsOf .empty start) := fun _ _ _ found => by cases found
    have sound := updateWindows_sound started wide updated
    have rows := (closeEach_ok crowdRendering (fun entry mem =>
      groupsOf_of_mem ((takeWhile_sublist _).mem mem) ▸ sound entry.1) closed).1
    have one : ∀ entry ∈ windows.entries, entry.1 = .clamp 0 := by
      intro entry mem
      rcases mem_updateWindows updated mem with ⟨before, present, -⟩ | ⟨group, inGroups, same⟩
      · cases present
      · obtain ⟨-, row, -, -, assigned, -⟩ := mem_assignRows inGroups
        rw [← same, mem_singleton.mp assigned]
        decide
    have bounded := updateWindows_size rfl (fun _ => Nat.zero_le _) updated (.clamp 0)
    rw [append_nil, ← rows.length_eq]
    exact (length_cells_le (takeWhile_sublist _) one).trans bounded

theorem number_injective {left right : Nat} (leftSmall : left < 1000001)
    (rightSmall : right < 1000001) (same : Int64.ofNat left = Int64.ofNat right) :
    left = right := by
  have ints := congrArg Int64.toInt same
  rw [Int64.toInt_ofNat_of_lt (by omega), Int64.toInt_ofNat_of_lt (by omega)] at ints
  exact Int.ofNat.inj ints

/-- Of a million and one groups of one window, one is never emitted. -/
theorem crowd_not_emitsOnce :
    ∃ (state : CoreWindowState Unit) (batches : List RecordBatch),
      runCalls plainEngine crowdQuery tenMillis .fresh
          [.rows (range 1000001), .watermark (.clamp 10)] = .ok (state, batches) ∧
        OnTimeRun crowdQuery tenMillis (fun _ => .clamp 0) []
          [.rows (range 1000001), .watermark (.clamp 10)] ∧
        ¬EmitsOnce crowdRendering tenMillis (fun _ => .clamp 0)
          [.rows (range 1000001), .watermark (.clamp 10)] batches fun _ => True := by
  obtain ⟨state, batches, ran, bounded⟩ := crowd_emits
  refine ⟨state, batches, ran, ⟨?_, trivial⟩, ?_⟩
  · intro row _ _ start _ mark isMark
    cases isMark
  · rintro ⟨emitted, rows, -, each⟩
    have isEmitted : (range 1000001).map (fun number : Nat =>
        ((.clamp 0, [.primitive (.int64 (some (.ofNat number)))]) : I64 × GroupKey)) ⊆
          emitted.map Prod.fst := by
      intro name mem
      obtain ⟨number, inRange, rfl⟩ := mem_map.mp mem
      have isReceived : number ∈ received plainEngine crowdQuery tenMillis.windowsAt
          (fun _ => .clamp 0) (.clamp 0) [.primitive (.int64 (some (.ofNat number)))]
          (fedBy [.rows (range 1000001), .watermark (.clamp 10)]) := by
        refine mem_received.mpr ⟨?_, by decide, by decide, rfl⟩
        rwa [fedBy, fedBy, fedBy, append_nil]
      obtain ⟨accs, among⟩ := (each (.clamp 0) trivial
        [.primitive (.int64 (some (.ofNat number)))]).1.mpr
          ⟨ne_nil_of_mem isReceived, .clamp 10, mem_singleton_self _, by decide⟩
      exact mem_map.mpr ⟨_, among, rfl⟩
    have distinct : ((range 1000001).map fun number : Nat =>
        ((.clamp 0, [.primitive (.int64 (some (.ofNat number)))]) : I64 × GroupKey)).Nodup := by
      refine Nodup.map_on (fun left inLeft right inRight same => ?_) nodup_range
      simp only [Prod.mk.injEq, cons.injEq, ScalarValue.primitive.injEq, true_and, and_true,
        Primitive.int64.injEq, Option.some.injEq] at same
      exact number_injective (mem_range.mp inLeft) (mem_range.mp inRight) same
    have enough := (subperm_of_subset distinct isEmitted).length_le
    rw [length_map, length_map, length_range, rows.length_eq] at enough
    exact absurd (enough.trans bounded) (by decide)

end Run

end CoreWindowState

end LaminarDB.State

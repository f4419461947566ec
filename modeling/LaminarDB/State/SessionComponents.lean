import LaminarDB.Library.GapRuns
import LaminarDB.State.Feeding

/-!
# Session windows are components

The sessions of a group are the components of the times of its rows under the gap: a session starts
with its first row and ends a gap after its last one, and its accumulators hold its rows.
-/

namespace LaminarDB.State

open Library Library.Gaps List SortedMap Sessions I64

namespace Sessions

variable {Acc Input Row : Type}

def times (time : Row → I64) (rows : List Row) : Set Int :=
  {instant | ∃ row ∈ rows, (time row).toInt = instant}

def within (time : Row → I64) (session : SessionAccState Acc) (row : Row) : Bool :=
  session.start ≤ time row && time row ≤ session.stop

section Definitions

variable (engine : Engine Acc Input) (specs : List (AggFuncSpec Acc Input Row))
  (time : Row → I64) (gapMs : I64)

/-- The session goes from the first of the rows to a gap after the last. -/
def Bounds (rows : List Row) (session : SessionAccState Acc) : Prop :=
  ∃ last : I64, IsRun gapMs.toInt (times time rows) session.start.toInt last.toInt ∧
    session.stop = last.saturatingAdd gapMs

structure Spans (rows : List Row) (session : SessionAccState Acc) : Prop where
  bounds : Bounds time gapMs rows session
  accs : Holds engine specs rows session.accs

structure Covers (fed : List Row) (sessions : Sessions Acc) : Prop where
  keyed : ∀ entry ∈ sessions.entries, entry.2.start = entry.1
  spans : ∀ entry ∈ sessions.entries,
    Spans engine specs time gapMs (fed.filter (within time entry.2)) entry.2
  apart : ∀ left ∈ sessions.entries, ∀ right ∈ sessions.entries, left.1 < right.1 →
    left.2.stop < right.1
  complete : ∀ row ∈ fed, ∃ entry ∈ sessions.entries, within time entry.2 row = true

open Classical in
noncomputable def componentRows (fed : List Row) (instant : I64) : List Row :=
  fed.filter fun row => Connected gapMs.toInt (times time fed) instant.toInt (time row).toInt

structure Components (fed : List Row) (sessions : Sessions Acc) : Prop where
  keyed : ∀ entry ∈ sessions.entries, entry.2.start = entry.1
  least : ∀ entry ∈ sessions.entries,
    IsLeast (times time (componentRows time gapMs fed entry.1)) entry.1.toInt
  greatest : ∀ entry ∈ sessions.entries, ∃ last : I64,
    IsGreatest (times time (componentRows time gapMs fed entry.1)) last.toInt ∧
      entry.2.stop = last.saturatingAdd gapMs
  accs : ∀ entry ∈ sessions.entries,
    Holds engine specs (componentRows time gapMs fed entry.1) entry.2.accs
  complete : ∀ row ∈ fed, ∃ entry ∈ sessions.entries, row ∈ componentRows time gapMs fed entry.1
  apart : sessions.entries.Pairwise fun left right => left.2.stop < right.2.start

end Definitions

variable {engine : Engine Acc Input} {specs : List (AggFuncSpec Acc Input Row)}
  {session merged other : SessionAccState Acc} {rows fed others : List Row} {row : Row}
  {instant right : I64}

section Spans

variable {time : Row → I64} {gapMs : I64}

theorem within_iff :
    within time session row = true ↔ session.start ≤ time row ∧ time row ≤ session.stop := by
  simp [within]

theorem mem_times (mem : row ∈ rows) : (time row).toInt ∈ times time rows :=
  ⟨row, mem, rfl⟩

theorem times_append : times time (rows ++ others) = times time rows ∪ times time others := by
  ext instant
  simp [times, or_and_right, exists_or]

theorem times_singleton : times time [row] = {(time row).toInt} := by
  ext instant
  simp [times, eq_comm]

theorem times_of_perm (perm : rows.Perm others) : times time rows = times time others := by
  ext instant
  simp [times, perm.mem_iff]

theorem Spans.of_perm
    (spans : Spans engine specs time gapMs rows session) (perm : rows.Perm others) :
    Spans engine specs time gapMs others session := by
  obtain ⟨last, run, isStop⟩ := spans.bounds
  exact ⟨⟨last, times_of_perm perm ▸ run, isStop⟩, spans.accs.of_perm perm⟩

theorem le_saturatingAdd (nonneg : 0 ≤ gapMs.toInt) : instant ≤ instant.saturatingAdd gapMs := by
  have upper := instant.upper
  rw [le_iff]
  simp only [saturatingAdd, clamp]
  omega

section

variable (bounds : Bounds time gapMs rows session)

include bounds

theorem Bounds.within (nonneg : 0 ≤ gapMs.toInt)
    (mem : row ∈ rows) : within time session row = true := by
  obtain ⟨last, run, isStop⟩ := bounds
  refine within_iff.mpr ⟨run.least.2 (mem_times mem), ?_⟩
  have notAfter : time row ≤ last := run.greatest.2 (mem_times mem)
  exact isStop ▸ notAfter.trans (le_saturatingAdd nonneg)

theorem Bounds.ends :
    (∃ row ∈ rows, time row = session.start) ∧
      ∃ row ∈ rows, session.stop = (time row).saturatingAdd gapMs := by
  obtain ⟨last, run, isStop⟩ := bounds
  obtain ⟨firstRow, inRows, isFirst⟩ := run.least.1
  obtain ⟨lastRow, alsoInRows, isLast⟩ := run.greatest.1
  exact ⟨⟨firstRow, inRows, ext isFirst⟩, lastRow, alsoInRows, ext isLast ▸ isStop⟩

theorem Bounds.start_le_stop (nonneg : 0 ≤ gapMs.toInt) : session.start ≤ session.stop := by
  obtain ⟨row, mem, isStart⟩ := bounds.ends.1
  exact isStart ▸ (within_iff.mp (bounds.within nonneg mem)).2

end

end Spans

variable {removed : List (I64 × SessionAccState Acc)} {left sessions : Sessions Acc}
  {query : WindowQuery Acc Input Row} {time : Row → I64} {gapMs : I64}

section Growth

theorem Bounds.exists_near (bounds : Bounds time gapMs rows session) (nonneg : 0 ≤ gapMs.toInt)
    (notAfter : session.start ≤ instant.saturatingAdd gapMs) (notBefore : instant ≤ session.stop) :
    ∃ member ∈ times time rows, |member - instant.toInt| ≤ gapMs.toInt := by
  obtain ⟨last, run, isStop⟩ := bounds
  rw [isStop] at notBefore
  rw [le_iff] at notAfter notBefore
  simp only [saturatingAdd, clamp] at notAfter notBefore
  have instantLower := instant.lower
  have lastLower := last.lower
  exact run.exists_near nonneg (by omega) (by omega)

variable (engine specs time gapMs) in
/-- The session that a row and the sessions merged so far will be; its accumulators do
not hold the row yet. -/
structure Grows (row : Row) (rows : List Row) (session : SessionAccState Acc) : Prop where
  bounds : Bounds time gapMs (row :: rows) session
  accs : Holds engine specs rows session.accs

theorem saturatingAdd_max {left : I64} :
    (max left right).saturatingAdd gapMs =
      max (left.saturatingAdd gapMs) (right.saturatingAdd gapMs) :=
  Monotone.map_max (f := fun instant : I64 => instant.saturatingAdd gapMs)
    fun _ _ ordered => saturatingAdd_mono ordered

theorem toInt_min {left : I64} : (min left right).toInt = min left.toInt right.toInt :=
  Monotone.map_min (f := toInt) fun _ _ ordered => ordered

theorem toInt_max {left : I64} : (max left right).toInt = max left.toInt right.toInt :=
  Monotone.map_max (f := toInt) fun _ _ ordered => ordered

theorem Bounds.union (bounds : Bounds time gapMs rows session)
    (otherBounds : Bounds time gapMs others other) {member otherMember : Int}
    (inRows : member ∈ times time rows) (inOthers : otherMember ∈ times time others)
    (close : |member - otherMember| ≤ gapMs.toInt) (accs : List Acc) :
    Bounds time gapMs (rows ++ others)
      { start := min session.start other.start, stop := max session.stop other.stop, accs } := by
  obtain ⟨last, run, isStop⟩ := bounds
  obtain ⟨otherLast, otherRun, isOtherStop⟩ := otherBounds
  refine ⟨max last otherLast, ?_, ?_⟩
  · rw [times_append, toInt_max]
    simp only [toInt_min]
    exact run.union otherRun inRows inOthers close
  · rw [saturatingAdd_max, isStop, isOtherStop]

theorem bounds_singleton (accs : List Acc) :
    Bounds time gapMs [row] { start := time row, stop := (time row).saturatingAdd gapMs, accs } :=
  ⟨time row, times_singleton ▸ isRun_singleton, rfl⟩

theorem Bounds.cons (bounds : Bounds time gapMs rows session) (nonneg : 0 ≤ gapMs.toInt)
    (notAfter : session.start ≤ (time row).saturatingAdd gapMs)
    (notBefore : time row ≤ session.stop) (accs : List Acc) :
    Bounds time gapMs (row :: rows)
      { start := min (time row) session.start
        stop := max ((time row).saturatingAdd gapMs) session.stop, accs } := by
  obtain ⟨member, inRows, close⟩ := bounds.exists_near nonneg notAfter notBefore
  exact (bounds_singleton session.accs).union bounds (mem_times mem_cons_self) inRows
    (abs_sub_comm member _ ▸ close) accs

variable {accs : List Acc}

theorem Grows.merge (grows : Grows engine specs time gapMs row rows merged)
    (nonneg : 0 ≤ gapMs.toInt) (merges : ∀ spec ∈ specs, MergeFeeds engine spec)
    (spans : Spans engine specs time gapMs others other)
    (notAfter : other.start ≤ (time row).saturatingAdd gapMs) (notBefore : time row ≤ other.stop)
    (isMerged : mergeAccs engine merged.accs other.accs = .ok accs) :
    Grows engine specs time gapMs row (rows ++ others)
      { start := min merged.start other.start, stop := max merged.stop other.stop, accs } := by
  obtain ⟨member, inOthers, close⟩ := spans.bounds.exists_near nonneg notAfter notBefore
  refine ⟨?_, ?_⟩
  · exact grows.bounds.union spans.bounds (mem_times mem_cons_self) inOthers
      (abs_sub_comm member _ ▸ close) accs
  · obtain ⟨chunks, areRows, fed⟩ := grows.accs
    obtain ⟨otherChunks, areOthers, otherFed⟩ := spans.accs
    refine ⟨chunks ++ otherChunks, ?_, allFed_merge merges fed otherFed isMerged⟩
    rw [flatten_append]
    exact areRows.append areOthers

theorem Grows.update (grows : Grows engine specs time gapMs row rows session)
    (updated : updateGroupAccumulators engine [row] specs session.accs = (accs, none)) :
    Spans engine specs time gapMs (row :: rows) { session with accs } := by
  obtain ⟨chunks, areRows, fed⟩ := grows.accs
  refine ⟨grows.bounds, chunks ++ [[row]], ?_, allFed_update fed updated⟩
  rw [flatten_append]
  exact (areRows.append_right [row]).trans perm_append_comm

theorem Grows.mergeSessions (grows : Grows engine specs time gapMs row rows merged)
    (nonneg : 0 ≤ gapMs.toInt) (merges : ∀ spec ∈ specs, MergeFeeds engine spec)
    {result : SessionAccState Acc} (spans : ∀ entry ∈ removed,
      Spans engine specs time gapMs (fed.filter (within time entry.2)) entry.2)
    (overlap : ∀ entry ∈ removed, entry.2.start ≤ (time row).saturatingAdd gapMs ∧
      time row ≤ entry.2.stop)
    (isResult : mergeSessions engine sessions merged removed = (left, .ok result)) :
    Grows engine specs time gapMs row
        (rows ++ removed.flatMap fun entry => fed.filter (within time entry.2)) result ∧
      ∀ entry, entry ∈ left.entries ↔
        entry ∈ sessions.entries ∧ ∀ other ∈ removed, entry.1 ≠ other.1 := by
  induction removed generalizing sessions merged rows with
  | nil =>
    cases isResult
    simpa using grows
  | cons first removed ih =>
    simp only [mergeSessions] at isResult
    split at isResult
    · cases isResult
    · rename_i accs isMerged
      have ofFirst := overlap first mem_cons_self
      have grown := grows.merge nonneg merges (spans first mem_cons_self) ofFirst.1 ofFirst.2
        isMerged
      obtain ⟨grows, isLeft⟩ := ih grown (forall_mem_cons.mp spans).2
        (forall_mem_cons.mp overlap).2 isResult
      refine ⟨?_, fun entry => ?_⟩
      · rw [append_assoc] at grows
        exact grows
      · rw [isLeft, mem_erase_iff, forall_mem_cons, and_assoc]

end Growth

section Step

abbrev touched (sessions : Sessions Acc) (time : Row → I64) (gapMs : I64) (row : Row) :
    List (I64 × SessionAccState Acc) :=
  sessions.overlapping (time row) ((time row).saturatingAdd gapMs)

abbrev joined (sessions : Sessions Acc) (time : Row → I64) (gapMs : I64) (fed : List Row)
    (row : Row) : List Row :=
  row :: (sessions.touched time gapMs row).flatMap fun entry => fed.filter (within time entry.2)

theorem mem_overlapping {newStart newEnd : I64} {entry : I64 × SessionAccState Acc} :
    entry ∈ sessions.overlapping newStart newEnd ↔
      entry ∈ sessions.entries ∧ entry.1 ≤ newEnd ∧ newStart ≤ entry.2.stop := by
  simp [overlapping]

theorem Covers.disjoint (covers : Covers engine specs time gapMs fed sessions)
    {left right : I64 × SessionAccState Acc} (inLeft : left ∈ sessions.entries)
    (inRight : right ∈ sessions.entries) (ordered : left.1 < right.1) (row : Row)
    (held : within time left.2 row = true) : within time right.2 row = false := by
  apply Bool.eq_false_iff.mpr
  intro alsoHeld
  have before := covers.apart left inLeft right inRight ordered
  rw [← covers.keyed right inRight] at before
  exact absurd ((within_iff.mp held).2.trans_lt before) (not_lt.mpr (within_iff.mp alsoHeld).1)

section

variable (covers : Covers engine specs time gapMs fed sessions) (nonneg : 0 ≤ gapMs.toInt)
  {row : Row} (bounds : Bounds time gapMs (sessions.joined time gapMs fed row) merged)

include covers nonneg

include bounds in
theorem Covers.separate {entry : I64 × SessionAccState Acc} (mem : entry ∈ sessions.entries)
    (notRemoved : entry ∉ sessions.touched time gapMs row) :
    entry.2.stop < merged.start ∨ merged.stop < entry.1 := by
  obtain ⟨⟨firstRow, isFirstRow, isStart⟩, lastRow, isLastRow, isStop⟩ := bounds.ends
  have ofRows : ∀ {other : Row}, other ∈ sessions.joined time gapMs fed row →
      other = row ∨ ∃ removed ∈ sessions.entries, removed.1 ≤ (time row).saturatingAdd gapMs ∧
        time row ≤ removed.2.stop ∧ removed ≠ entry ∧
        other ∈ fed.filter (within time removed.2) := by
    intro other isOther
    rcases mem_cons.mp isOther with isRow | inRemoved
    · exact .inl isRow
    · obtain ⟨removed, isRemoved, inRows⟩ := mem_flatMap.mp inRemoved
      obtain ⟨inSessions, notAfter, notBefore⟩ := mem_overlapping.mp isRemoved
      exact .inr ⟨removed, inSessions, notAfter, notBefore,
        fun same => notRemoved (same ▸ isRemoved), inRows⟩
  have entryOrdered := (covers.spans entry mem).bounds.start_le_stop nonneg
  rw [covers.keyed entry mem] at entryOrdered
  have order : ∀ removed ∈ sessions.entries, removed ≠ entry →
      entry.2.stop < removed.1 ∨ removed.2.stop < entry.1 := by
    intro removed isRemoved differs
    rcases lt_trichotomy entry.1 removed.1 with before | same | after
    · exact .inl (covers.apart entry mem removed isRemoved before)
    · exact absurd (eq_of_mem isRemoved mem same.symm) differs
    · exact .inr (covers.apart removed isRemoved entry mem after)
  rw [mem_overlapping, not_and, not_and_or, not_le, not_le] at notRemoved
  rcases notRemoved mem with after | before
  · right
    rcases ofRows isLastRow with rfl | ⟨removed, inSessions, notAfter, -, differs, inRows⟩
    · exact isStop ▸ after
    · have removedBounds := (covers.spans removed inSessions).bounds
      have ends : merged.stop ≤ removed.2.stop := by
        obtain ⟨last, run, isLast⟩ := removedBounds
        rw [isStop, isLast]
        exact saturatingAdd_mono (run.greatest.2 (mem_times inRows))
      rcases order removed inSessions differs with earlier | later
      · exact absurd (earlier.trans_le (notAfter.trans after.le)) (not_lt.mpr entryOrdered)
      · exact ends.trans_lt later
  · left
    rcases ofRows isFirstRow with rfl | ⟨removed, inSessions, -, notBefore, differs, inRows⟩
    · exact isStart ▸ before
    · have begins : removed.1 ≤ merged.start := by
        rw [← isStart, ← covers.keyed removed inSessions]
        exact (within_iff.mp (mem_filter.mp inRows).2).1
      rcases order removed inSessions differs with earlier | later
      · exact earlier.trans_le begins
      · exact absurd ((before.trans_le notBefore).trans later) (not_lt.mpr entryOrdered)

include bounds in
theorem Covers.rows_perm :
    (sessions.joined time gapMs fed row).Perm ((fed ++ [row]).filter (within time merged)) := by
  have inside := bounds.within nonneg mem_cons_self
  have sorted : (sessions.touched time gapMs row).Pairwise
      fun left right => left.1 < right.1 :=
    (pairwise_map.mp sessions.sorted).sublist filter_sublist
  have disjoint : (sessions.touched time gapMs row).Pairwise
      fun left right => ∀ item ∈ fed, within time left.2 item = true →
        within time right.2 item = false := by
    refine sorted.imp_of_mem fun {left right} inLeft inRight ordered item _ held => ?_
    exact covers.disjoint (mem_overlapping.mp inLeft).1 (mem_overlapping.mp inRight).1 ordered item
      held
  have held : ∀ item ∈ fed, within time merged item =
      (sessions.touched time gapMs row).any (fun entry => within time entry.2 item) := by
    intro item isFed
    rw [Bool.eq_iff_iff, any_eq_true]
    constructor
    · intro inMerged
      obtain ⟨entry, mem, inEntry⟩ := covers.complete item isFed
      by_cases isRemoved : entry ∈ sessions.touched time gapMs row
      · exact ⟨entry, isRemoved, inEntry⟩
      · obtain ⟨begins, ends⟩ := within_iff.mp inMerged
        obtain ⟨entryBegins, entryEnds⟩ := within_iff.mp inEntry
        rw [covers.keyed entry mem] at entryBegins
        rcases covers.separate nonneg bounds mem isRemoved with before | after
        · exact absurd (entryEnds.trans_lt before) (not_lt.mpr begins)
        · exact absurd (ends.trans_lt after) (not_lt.mpr entryBegins)
    · rintro ⟨entry, isRemoved, inEntry⟩
      apply bounds.within nonneg
      exact mem_cons_of_mem _ (mem_flatMap.mpr ⟨entry, isRemoved, mem_filter.mpr ⟨isFed, inEntry⟩⟩)
  rw [filter_append, filter_congr held, filter_cons_of_pos inside, filter_nil]
  exact ((filter_any_perm disjoint).symm.cons row).trans (perm_append_singleton row _).symm

theorem Covers.replace (areRemoved : sessions.touched time gapMs row = removed)
    (spans : Spans engine specs time gapMs
      (row :: removed.flatMap fun entry => fed.filter (within time entry.2)) merged)
    (isLeft : ∀ entry, entry ∈ left.entries ↔ entry = (merged.start, merged) ∨
      (entry ∈ sessions.entries ∧ entry ∉ removed) ∧ entry.1 ≠ merged.start) :
    Covers engine specs time gapMs (fed ++ [row]) left := by
  subst areRemoved
  have separate := fun entry mem notRemoved =>
    @separate _ _ _ _ _ _ _ _ _ _ covers nonneg _ spans.bounds entry mem notRemoved
  have mergedOrdered := spans.bounds.start_le_stop nonneg
  have entryOrdered : ∀ entry ∈ sessions.entries, entry.1 ≤ entry.2.stop := by
    intro entry mem
    have ordered := (covers.spans entry mem).bounds.start_le_stop nonneg
    rwa [covers.keyed entry mem] at ordered
  have inMerged := spans.bounds.within nonneg mem_cons_self
  refine ⟨fun entry mem => ?_, fun entry mem => ?_,
    fun first inFirst second inSecond ordered => ?_, fun item isFed => ?_⟩
  · rcases (isLeft entry).mp mem with rfl | ⟨⟨inSessions, -⟩, -⟩
    · rfl
    · exact covers.keyed entry inSessions
  · rcases (isLeft entry).mp mem with rfl | ⟨⟨inSessions, notRemoved⟩, -⟩
    · exact spans.of_perm (covers.rows_perm nonneg spans.bounds)
    · have outside : within time entry.2 row = false := by
        apply Bool.eq_false_iff.mpr
        intro inEntry
        apply notRemoved
        obtain ⟨begins, ends⟩ := within_iff.mp inEntry
        rw [covers.keyed entry inSessions] at begins
        exact mem_overlapping.mpr ⟨inSessions, begins.trans (le_saturatingAdd nonneg), ends⟩
      rw [filter_append, filter_cons_of_neg (by simp [outside]), filter_nil, append_nil]
      exact covers.spans entry inSessions
  · rcases (isLeft first).mp inFirst with rfl | ⟨⟨firstIn, firstKept⟩, -⟩
    · rcases (isLeft second).mp inSecond with rfl | ⟨⟨secondIn, secondKept⟩, -⟩
      · exact absurd ordered (lt_irrefl _)
      · rcases separate second secondIn secondKept with before | after
        · exact absurd ((entryOrdered second secondIn).trans_lt before) (not_lt.mpr ordered.le)
        · exact after
    · rcases (isLeft second).mp inSecond with rfl | ⟨⟨secondIn, secondKept⟩, -⟩
      · rcases separate first firstIn firstKept with before | after
        · exact before
        · exact absurd (mergedOrdered.trans_lt after) (not_lt.mpr ordered.le)
      · exact covers.apart first firstIn second secondIn ordered
  · rcases mem_append.mp isFed with wasFed | isRow
    · obtain ⟨entry, inSessions, inEntry⟩ := covers.complete item wasFed
      by_cases isRemoved : entry ∈ sessions.touched time gapMs row
      · refine ⟨(merged.start, merged), (isLeft _).mpr (.inl rfl), ?_⟩
        apply spans.bounds.within nonneg
        exact mem_cons_of_mem _ (mem_flatMap.mpr
          ⟨entry, isRemoved, mem_filter.mpr ⟨wasFed, inEntry⟩⟩)
      · refine ⟨entry, (isLeft entry).mpr (.inr ⟨⟨inSessions, isRemoved⟩, ?_⟩), inEntry⟩
        rintro same
        rcases separate entry inSessions isRemoved with before | after
        · exact absurd ((entryOrdered entry inSessions).trans_lt before) (same ▸ lt_irrefl _)
        · exact absurd (mergedOrdered.trans_lt after) (same ▸ lt_irrefl _)
    · cases mem_singleton.mp isRow
      exact ⟨(merged.start, merged), (isLeft _).mpr (.inl rfl), inMerged⟩

end

end Step

section Update

variable {left : Sessions Acc} {row : Row}
  (covers : Covers engine query.aggSpecs time gapMs fed sessions) (nonneg : 0 ≤ gapMs.toInt)

include covers nonneg

theorem Covers.openSession (none : sessions.touched time gapMs row = [])
    (updated : openSession engine query sessions (time row) ((time row).saturatingAdd gapMs) row =
      (left, .none)) : Covers engine query.aggSpecs time gapMs (fed ++ [row]) left := by
  unfold Sessions.openSession at updated
  split at updated
  · cases updated
  · rename_i accs created
    split at updated <;> cases updated
    rename_i result isResult
    have grows : Grows engine query.aggSpecs time gapMs row []
        { start := time row, stop := (time row).saturatingAdd gapMs, accs } :=
      ⟨bounds_singleton accs, [], .refl _, allFed_create created⟩
    refine covers.replace nonneg none (grows.update isResult) fun entry => ?_
    rw [SortedMap.mem_insert_iff]
    simp

variable {start : I64}

variable (merges : ∀ spec ∈ query.aggSpecs, MergeFeeds engine spec)

include merges

theorem Covers.joinSessions {rest : List (I64 × SessionAccState Acc)}
    (several : sessions.touched time gapMs row = (start, session) :: rest)
    (updated : joinSessions engine query sessions start session rest (time row)
      ((time row).saturatingAdd gapMs) row = (left, none)) :
    Covers engine query.aggSpecs time gapMs (fed ++ [row]) left := by
  have overlap : ∀ entry ∈ (start, session) :: rest, entry ∈ sessions.entries ∧
      entry.2.start ≤ (time row).saturatingAdd gapMs ∧ time row ≤ entry.2.stop := by
    intro entry isRemoved
    obtain ⟨mem, notAfter, notBefore⟩ := mem_overlapping.mp (several ▸ isRemoved)
    exact ⟨mem, covers.keyed entry mem ▸ notAfter, notBefore⟩
  obtain ⟨mem, notAfter, notBefore⟩ := overlap _ mem_cons_self
  simp only [Sessions.joinSessions] at updated
  split at updated
  · cases updated
  · rename_i remaining merged isMerged
    split at updated <;> cases updated
    rename_i accs isUpdated
    have spans := covers.spans _ mem
    have first : Grows engine query.aggSpecs time gapMs row (fed.filter (within time session))
        { start := min (time row) session.start
          stop := max ((time row).saturatingAdd gapMs) session.stop, accs := session.accs } :=
      ⟨spans.bounds.cons nonneg notAfter notBefore _, spans.accs⟩
    obtain ⟨grows, areRemaining⟩ := first.mergeSessions nonneg merges
      (fun entry inRest => covers.spans entry (overlap entry (mem_cons_of_mem _ inRest)).1)
      (fun entry inRest => (overlap entry (mem_cons_of_mem _ inRest)).2) isMerged
    refine covers.replace nonneg several (grows.update isUpdated) fun entry => ?_
    rw [SortedMap.mem_insert_iff, areRemaining, mem_erase_iff]
    refine or_congr_right (and_congr_left fun _ => ?_)
    rw [and_assoc]
    refine and_congr_right fun inSessions => ?_
    constructor
    · rintro ⟨notFirst, notRest⟩ isRemoved
      rcases mem_cons.mp isRemoved with rfl | inRest
      · exact notFirst rfl
      · exact notRest entry inRest rfl
    · intro notRemoved
      have differs : ∀ other ∈ (start, session) :: rest, entry.1 ≠ other.1 := by
        intro other isRemoved same
        have isOther := eq_of_mem inSessions (overlap other isRemoved).1 same
        exact notRemoved (isOther ▸ isRemoved)
      exact ⟨differs _ mem_cons_self, (forall_mem_cons.mp differs).2⟩

theorem Covers.extendSession (one : sessions.touched time gapMs row = [(start, session)])
    (updated : extendSession engine query sessions start session (time row)
      ((time row).saturatingAdd gapMs) row = (left, none)) :
    Covers engine query.aggSpecs time gapMs (fed ++ [row]) left := by
  refine covers.joinSessions nonneg merges one ?_
  simp only [Sessions.extendSession] at updated
  split at updated <;> cases updated
  rename_i accs isUpdated
  rw [min_comm, max_comm]
  simp only [Sessions.joinSessions, Sessions.mergeSessions, isUpdated]

theorem Covers.update (updated : update engine query sessions (time row) gapMs row = (left, none)) :
    Covers engine query.aggSpecs time gapMs (fed ++ [row]) left := by
  simp only [Sessions.update] at updated
  split at updated
  · rename_i isNone
    exact covers.openSession nonneg isNone updated
  · rename_i start session isOne
    exact covers.extendSession nonneg merges isOne updated
  · rename_i start session rest _ areSeveral
    exact covers.joinSessions nonneg merges areSeveral updated

end Update

def fedRows (query : WindowQuery Acc Input Row) (time : Row → I64) (key : GroupKey)
    (rows : List Row) : List Row :=
  rows.filter fun row => time row ≠ nullTimestamp && query.key row = key

section Run

variable {groups : SessionGroups Acc}

theorem covers_empty : Covers engine query.aggSpecs time gapMs [] (.empty : Sessions Acc) := by
  constructor <;> exact forall_mem_nil _

theorem fedRows_append {key : GroupKey} :
    fedRows query time key (rows ++ [row]) = fedRows query time key rows ++
      if time row ≠ nullTimestamp ∧ query.key row = key then [row] else [] := by
  simp [fedRows, filter_append, filter_cons]

variable (engine query time gapMs) in
def AllCover (rows : List Row) (groups : SessionGroups Acc) : Prop :=
  ∀ key, Covers engine query.aggSpecs time gapMs (fedRows query time key rows)
    ((groups.find? key).getD .empty)

theorem AllCover.insert (cover : AllCover engine query time gapMs rows groups)
    (timed : time row ≠ nullTimestamp) (covers : Covers engine query.aggSpecs time gapMs
      (fedRows query time (query.key row) rows ++ [row]) sessions) :
    AllCover engine query time gapMs (rows ++ [row]) (groups.insert (query.key row) sessions) := by
  intro key
  rw [KeyedMap.find?_insert, fedRows_append]
  by_cases same : key = query.key row
  · subst same
    rw [if_pos ⟨timed, rfl⟩, if_pos rfl]
    exact covers
  · rw [if_neg fun added => same added.2.symm, if_neg same, append_nil]
    exact cover key

variable {left : SessionGroups Acc}

theorem AllCover.updateRow
    (cover : AllCover engine query time gapMs rows groups) (nonneg : 0 ≤ gapMs.toInt)
    (merges : ∀ spec ∈ query.aggSpecs, MergeFeeds engine spec) (timed : time row ≠ nullTimestamp)
    (updated : updateRow engine query groups (time row) gapMs row = (left, none)) :
    AllCover engine query time gapMs (rows ++ [row]) left := by
  have covers := cover (query.key row)
  simp only [Sessions.updateRow] at updated
  split at updated
  · rename_i sessions found
    generalize isResult : update engine query sessions (time row) gapMs row = result at updated
    obtain ⟨result, error⟩ := result
    cases updated
    rw [found] at covers
    exact cover.insert timed (covers.update nonneg merges isResult)
  · rename_i missing
    rw [missing] at covers
    split at updated <;> cases updated
    rename_i result isResult
    exact cover.insert timed (covers.update nonneg merges isResult)

theorem AllCover.updateRows (cover : AllCover engine query time gapMs fed groups)
    (nonneg : 0 ≤ gapMs.toInt) (merges : ∀ spec ∈ query.aggSpecs, MergeFeeds engine spec)
    (updated : updateRows engine query gapMs time groups rows = (left, none)) :
    AllCover engine query time gapMs (fed ++ rows) left := by
  induction rows generalizing fed groups with
  | nil =>
    cases updated
    rwa [append_nil]
  | cons row rows ih =>
    rw [append_cons]
    rw [updateRows] at updated
    split at updated
    · rename_i untimed
      refine ih (fun key => ?_) updated
      rw [fedRows_append, if_neg fun added => added.1 untimed, append_nil]
      exact cover key
    · rename_i timed
      split at updated
      · cases updated
      · rename_i result isResult
        exact ih (cover.updateRow nonneg merges timed isResult) updated

end Run

section Components

variable (covers : Covers engine specs time gapMs fed sessions) (nonneg : 0 ≤ gapMs.toInt)

include covers nonneg

theorem Covers.far {left right : I64 × SessionAccState Acc}
    (inLeft : left ∈ sessions.entries) (inRight : right ∈ sessions.entries)
    (ordered : left.1 < right.1) {other : Row} (isFed : row ∈ fed)
    (held : within time left.2 row = true) (otherHeld : within time right.2 other = true) :
    (time row).toInt + gapMs.toInt < (time other).toInt := by
  obtain ⟨last, run, isStop⟩ := (covers.spans left inLeft).bounds
  have notAfter := run.greatest.2 (mem_times (mem_filter.mpr ⟨isFed, held⟩))
  have before := covers.apart left inLeft right inRight ordered
  have begins := (within_iff.mp otherHeld).1
  rw [covers.keyed right inRight] at begins
  have less := lt_iff.mp (before.trans_le begins)
  rw [isStop] at less
  simp only [saturatingAdd, clamp] at less
  have lower := last.lower
  have upper := (time other).upper
  omega

theorem Covers.componentRows_eq {entry : I64 × SessionAccState Acc}
    (mem : entry ∈ sessions.entries) :
    componentRows time gapMs fed entry.1 = fed.filter (within time entry.2) := by
  obtain ⟨last, run, isStop⟩ := (covers.spans entry mem).bounds
  rw [covers.keyed entry mem] at run
  have included : times time (fed.filter (within time entry.2)) ⊆ times time fed := by
    rintro instant ⟨row, inRows, rfl⟩
    exact mem_times (mem_filter.mp inRows).1
  have alone : ∀ member ∈ times time (fed.filter (within time entry.2)),
      ∀ other ∈ times time fed, |member - other| ≤ gapMs.toInt →
        other ∈ times time (fed.filter (within time entry.2)) := by
    rintro member ⟨row, inRows, rfl⟩ other ⟨otherRow, isFed, rfl⟩ close
    obtain ⟨otherEntry, inSessions, inOther⟩ := covers.complete otherRow isFed
    have inEntry := (mem_filter.mp inRows).2
    have near := abs_le.mp close
    have same : otherEntry = entry := by
      rcases lt_trichotomy otherEntry.1 entry.1 with before | isKey | after
      · have := covers.far nonneg inSessions mem before isFed inOther inEntry
        omega
      · exact eq_of_mem inSessions mem isKey
      · have := covers.far nonneg mem inSessions after (mem_filter.mp inRows).1 inEntry
          inOther
        omega
    exact mem_times (mem_filter.mpr ⟨isFed, same ▸ inOther⟩)
  classical
  apply filter_congr
  intro row isFed
  rw [Bool.eq_iff_iff, decide_eq_true_iff, run.connected_iff included alone]
  constructor
  · rintro ⟨other, inRows, sameTime⟩
    have inEntry := (mem_filter.mp inRows).2
    rw [within_iff] at inEntry ⊢
    rwa [ext sameTime] at inEntry
  · intro inEntry
    exact mem_times (mem_filter.mpr ⟨isFed, inEntry⟩)

theorem Covers.components : Components engine specs time gapMs fed sessions := by
  refine ⟨covers.keyed, fun entry mem => ?_, fun entry mem => ?_,
    fun entry mem => ?_, fun row isFed => ?_, ?_⟩
  · obtain ⟨last, run, isStop⟩ := (covers.spans entry mem).bounds
    rw [covers.componentRows_eq nonneg mem]
    exact covers.keyed entry mem ▸ run.least
  · obtain ⟨last, run, isStop⟩ := (covers.spans entry mem).bounds
    rw [covers.componentRows_eq nonneg mem]
    exact ⟨last, run.greatest, isStop⟩
  · rw [covers.componentRows_eq nonneg mem]
    exact (covers.spans entry mem).accs
  · obtain ⟨entry, mem, inEntry⟩ := covers.complete row isFed
    refine ⟨entry, mem, ?_⟩
    rw [covers.componentRows_eq nonneg mem]
    exact mem_filter.mpr ⟨isFed, inEntry⟩
  · refine (pairwise_map.mp sessions.sorted).imp_of_mem
      fun {left right} inLeft inRight ordered => ?_
    rw [covers.keyed right inRight]
    exact covers.apart left inLeft right inRight ordered

end Components

end Sessions

namespace CoreWindowState

variable {Acc Input Row : Type} (engine : Engine Acc Input) (query : WindowQuery Acc Input Row)

def updateBatches (assigner : CoreWindowAssigner) :
    CoreWindowState Acc → List (List Row) → CoreWindowState Acc × Option DbError
  | state, [] => (state, none)
  | state, rows :: batches =>
    match updateBatch engine query assigner state rows with
    | (state, some error) => (state, some error)
    | (state, none) => updateBatches assigner state batches

variable {engine query} {time : Row → I64} {gapMs : I64} {state left : CoreWindowState Acc}
  {fed : List Row} (cover : AllCover engine query time gapMs fed state.sessionGroups)
  (nonneg : 0 ≤ gapMs.toInt) (merges : ∀ spec ∈ query.aggSpecs, MergeFeeds engine spec)
  (hasTime : query.time = .ok time)

include cover nonneg merges hasTime

theorem updateBatch_session {rows : List Row}
    (updated : updateBatch engine query (.session gapMs) state rows = (left, none)) :
    Sessions.AllCover engine query time gapMs (fed ++ rows) left.sessionGroups := by
  simp only [updateBatch, Sessions.updateBatch, hasTime] at updated
  by_cases noRows : rows.isEmpty
  · simp only [noRows, if_true] at updated
    cases updated
    rwa [isEmpty_iff.mp noRows, append_nil]
  · simp only [noRows, Bool.false_eq_true, if_false] at updated
    generalize isResult : Sessions.updateRows engine query gapMs time state.sessionGroups rows =
      result at updated
    obtain ⟨groups, error⟩ := result
    cases updated
    exact cover.updateRows nonneg merges isResult

theorem updateBatches_session {batches : List (List Row)}
    (updated : updateBatches engine query (.session gapMs) state batches = (left, none)) :
    AllCover engine query time gapMs (fed ++ batches.flatten) left.sessionGroups := by
  induction batches generalizing state fed with
  | nil =>
    cases updated
    rwa [flatten_nil, append_nil]
  | cons rows batches ih =>
    rw [updateBatches] at updated
    split at updated
    · cases updated
    · rename_i next isNext
      rw [flatten_cons, ← append_assoc]
      exact ih (updateBatch_session cover nonneg merges hasTime isNext) updated

omit cover nonneg merges hasTime

theorem sessions_are_components (engine : Engine Acc Input) (query : WindowQuery Acc Input Row)
    (gapMs : I64) (nonneg : 0 ≤ gapMs.toInt)
    (merges : ∀ spec ∈ query.aggSpecs, MergeFeeds engine spec) (time : Row → I64)
    (hasTime : query.time = .ok time) (batches : List (List Row)) (state : CoreWindowState Acc)
    (updated : updateBatches engine query (.session gapMs) .fresh batches = (state, none))
    (key : GroupKey) :
    Components engine query.aggSpecs time gapMs
      (fedRows query time key batches.flatten)
      ((state.sessionGroups.find? key).getD .empty) := by
  have started : AllCover engine query time gapMs []
      (fresh : CoreWindowState Acc).sessionGroups := fun _ => covers_empty
  have cover := updateBatches_session started nonneg merges hasTime updated
  exact (cover key).components nonneg

theorem sum_fed {chunks : List (List (ScalarValue × Int64))} {acc : Int64} :
    Fed sumEngine sumSpec chunks acc ↔ acc = (chunks.flatten.map Prod.snd).foldl (· + ·) 0 := by
  have isFold : ∀ start : Int64, chunks.foldl
      (fun acc rows => (sumEngine.update acc (sumSpec.inputs rows)).1) start =
        (chunks.flatten.map Prod.snd).foldl (· + ·) start := by
    intro start
    induction chunks generalizing start with
    | nil => rfl
    | cons rows chunks ih =>
      rw [foldl_cons, ih, flatten_cons, map_append, foldl_append]
      rfl
  constructor
  · rintro ⟨fresh, created, rfl⟩
    cases created
    exact isFold 0
  · rintro rfl
    exact ⟨0, rfl, isFold 0⟩

theorem sum_mergeFeeds : MergeFeeds sumEngine sumSpec := by
  intro chunks others acc other scalars arrays merged fed otherFed isState areArrays isMerged
  cases isState
  cases areArrays
  cases isMerged
  rw [sum_fed] at fed otherFed ⊢
  rw [flatten_append, map_append, foldl_append, fed, otherFed]
  exact foldl_assoc.symm.trans (by rw [Int64.add_zero])

theorem sessions_are_components_sum :
    ∃ state : CoreWindowState Int64,
      updateBatches sumEngine (windowQuery .int64) (.session (.clamp 5)) .fresh
          [[rowAt 0, rowAt 10], [rowAt 5]] = (state, none) ∧
        Components sumEngine (windowQuery .int64).aggSpecs
          (fun row => .clamp row.2.toInt) (.clamp 5)
          (fedRows (windowQuery .int64) (fun row => .clamp row.2.toInt)
            [.primitive (.int64 (some 5))] [rowAt 0, rowAt 10, rowAt 5])
          ((state.sessionGroups.find? [.primitive (.int64 (some 5))]).getD .empty) := by
  refine ⟨_, rfl, ?_⟩
  refine sessions_are_components sumEngine (windowQuery .int64) (.clamp 5) (by decide) ?_ _ rfl
    [[rowAt 0, rowAt 10], [rowAt 5]] _ rfl _
  intro spec mem
  exact mem_singleton.mp mem ▸ sum_mergeFeeds

/-- The least instant is read as it is, but it is the mark of a null: its row is in no session. -/
theorem sessions_not_components :
    extractI64Timestamps .int64 [some .minValue] = .ok [.minValue] ∧
      ∃ state : CoreWindowState Int64,
        updateBatches sumEngine (windowQuery .int64) (.session (.clamp 5)) .fresh
            [[rowAt Int64.minValue]] = (state, none) ∧
          ¬Components sumEngine (windowQuery .int64).aggSpecs
            (fun row => .clamp row.2.toInt) (.clamp 5) [rowAt Int64.minValue]
            ((state.sessionGroups.find? [.primitive (.int64 (some 5))]).getD .empty) := by
  refine ⟨rfl, _, rfl, fun components => ?_⟩
  obtain ⟨entry, isEntry, -⟩ := components.complete _ mem_cons_self
  cases isEntry

end CoreWindowState

end LaminarDB.State

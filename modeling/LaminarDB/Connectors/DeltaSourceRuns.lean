import LaminarDB.Connectors.DeltaSource
import LaminarDB.Library.Transition

/-!
# Runs of the Delta Lake source

The table grows by commits that add rows and by compactions; the source is started, polled and
crashes, and is started again from its last checkpoint.

The rows that polls return are counted as completed when the version they were loaded for has
been returned as a whole, and as drained before that.
-/

namespace LaminarDB.Connectors.Delta

open Library List DeltaSource Commit

variable {Row : Type}

def Commit.rowsAdded (commit : Commit Row) : List Row :=
  if commit.removed = [] then filesRows commit.added else []

def added (log : Log Row) (lower upper : Int) : List Row :=
  ((log.take (upper + 1).toNat).drop (lower + 1).toNat).flatMap rowsAdded

/-- A commit only adds files, or it rewrites files without changing the rows. -/
def Commit.Valid (files : List (DataFile Row)) (commit : Commit Row) : Prop :=
  commit.removed = [] ∨
    (filesRows commit.added).Perm (filesRows (files.filter fun file => file.path ∈ commit.removed))

instance [DecidableEq Row] (files : List (DataFile Row)) (commit : Commit Row) :
    Decidable (commit.Valid files) :=
  inferInstanceAs (Decidable (_ ∨ _))

/-- The table, the source if it runs, the rows it has returned, and the last checkpoint with the
rows completed at it. -/
structure DeltaRun (Row : Type) where
  log : Log Row
  source : Option (DeltaSource Row)
  completed : List Row
  drained : List Row
  saved : Option (Int × List Row)

inductive DeltaEvent (Row : Type) where
  | commit (commit : Commit Row)
  /-- The source is opened, and restored if there is a checkpoint. -/
  | start (scan : Scan Row)
  | poll (maxRecords : Nat) (environment : PollEnvironment Row)
  | checkpoint
  | crash

def returnedRows : Except String (Option (List Row)) → List Row
  | .ok (some batch) => batch
  | _ => []

namespace DeltaRun

def empty : DeltaRun Row := ⟨[], none, [], [], none⟩

variable (source : DeltaSource Row)

def count (rows : List Row) (run : DeltaRun Row) : DeltaRun Row :=
  match source.inflightVersion with
  | none =>
    { run with source := some source, completed := run.completed ++ (run.drained ++ rows)
               drained := [] }
  | some _ => { run with source := some source, drained := run.drained ++ rows }

def started (run : DeltaRun Row) : DeltaRun Row :=
  match run.saved with
  | none => { run with source := some source, completed := [], drained := [] }
  | some (version, rows) =>
    { run with source := some (source.restore version), completed := rows, drained := [] }

def polled (maxRecords : Nat) (environment : PollEnvironment Row)
    (source : DeltaSource Row) (run : DeltaRun Row) : DeltaRun Row :=
  let result := source.pollBatch run.log maxRecords environment
  run.count result.1 (returnedRows result.2)

end DeltaRun

/-- Runs of a source with a starting version, or without one. A table is there from its first
commit on. -/
def deltaRuns [DecidableEq Row] (startingVersion : Option Int) :
    TransitionSystem (DeltaRun Row) (DeltaEvent Row) where
  initial run := run = .empty
  step run event :=
    match event with
    | .commit commit =>
      if commit.Valid (live run.log) then some { run with log := run.log ++ [commit] } else none
    | .start scan =>
      if run.source.isNone ∧ run.log ≠ [] then
        match openTable startingVersion run.log scan with
        | .error _ => none
        | .ok source => some (run.started source)
      else none
    | .poll maxRecords environment =>
      run.source.map fun source => run.polled maxRecords environment source
    | .checkpoint =>
      run.source.map fun source => { run with saved := some (source.checkpoint, run.completed) }
    | .crash => some { run with source := none, drained := [] }

variable (startingVersion : Option Int) {log : Log Row} {version : Int}

def startPosition : Int := startingVersion.getD (-1)

/-- The rows up to the version that a checkpoint reports have been returned once each, and no
rows but of later versions besides, each at most once. -/
structure ReturnsOnce (run : DeltaRun Row) (source : DeltaSource Row) : Prop where
  upTo : run.completed.Perm (added run.log (startPosition startingVersion) source.checkpoint)
  beyond : run.drained.Subperm (added run.log source.checkpoint (latestVersion run.log))

/-- The version that is read does not rewrite rows, and its rows are no more than may be
returned. -/
structure ReadKeeps (maxRecords : Nat) (commit : Commit Row) : Prop where
  appends : commit.removed = [] ∨ filesRows commit.netAdded = []
  fits : (filesRows commit.netAdded).length ≤ maxRecords

/-- The steps that keep every row. A source without a starting version is not opened for the
first time at version 0 if that version has rows, and not restored if rows up to the restored
version are read again as those of the table. -/
def KeepsRows (run : DeltaRun Row) : DeltaEvent Row → Prop
  | .start _ => startingVersion = none →
      match run.saved with
      | none => latestVersion run.log = 0 → added run.log (-1) 0 = []
      | some (version, _) => 0 < latestVersion run.log → added run.log (-1) version = []
  | .poll maxRecords environment => ∀ source commit, run.source = some source →
      source.pendingBatches = [] → (source.refresh run.log environment).2 = true →
      run.log[(source.currentVersion + 1).toNat]? = some commit → ReadKeeps maxRecords commit
  | _ => True

@[simp]
theorem added_self : added log version version = [] := by
  rw [added, drop_eq_nil_of_le (length_take_le _ _)]
  rfl

variable {commit : Commit Row}

theorem added_append {lower middle upper : Int} (first : lower ≤ middle) (second : middle ≤ upper) :
    added log lower middle ++ added log middle upper = added log lower upper := by
  have lengths : (upper + 1).toNat - (lower + 1).toNat =
      ((middle + 1).toNat - (lower + 1).toNat) + ((upper + 1).toNat - (middle + 1).toNat) := by
    omega
  have rest : log.drop (middle + 1).toNat =
      (log.drop (lower + 1).toNat).drop ((middle + 1).toNat - (lower + 1).toNat) := by
    rw [drop_drop]
    congr 1
    omega
  rw [added, added, added, drop_take, drop_take, drop_take, ← flatMap_append,
    lengths, take_add, rest]

theorem added_grow {lower upper : Int} (within : upper = lower ∨ upper ≤ latestVersion log) :
    added (log ++ [commit]) lower upper = added log lower upper := by
  rcases within with rfl | within
  · rw [added_self, added_self]
  · have inLog : (upper + 1).toNat ≤ log.length := by
      rw [latestVersion] at within
      omega
    rw [added, added, take_append_of_le_length inLog]

theorem added_next (after : -1 ≤ version) (committed : log[(version + 1).toNat]? = some commit) :
    added log version (version + 1) = commit.rowsAdded := by
  have next : (version + 1 + 1).toNat = (version + 1).toNat + 1 := by omega
  obtain ⟨within, isCommit⟩ := List.getElem?_eq_some_iff.mp committed
  rw [added, next, take_succ_eq_append_getElem within, drop_left' (by simp; omega),
    isCommit, flatMap_singleton]

def Consistent (log : Log Row) : Prop :=
  ∀ size, (filesRows (live (log.take size))).Perm ((log.take size).flatMap rowsAdded)

theorem live_concat : live (log ++ [commit]) = commit.apply (live log) := by
  rw [live, foldl_concat]
  rfl

theorem filesRows_append (first second : List (DataFile Row)) :
    filesRows (first ++ second) = filesRows first ++ filesRows second :=
  flatMap_append

theorem Commit.Valid.perm {files : List (DataFile Row)} (valid : commit.Valid files) :
    (filesRows (commit.apply files)).Perm (filesRows files ++ commit.rowsAdded) := by
  rw [apply, filesRows_append, rowsAdded]
  split
  · rename_i appends
    rw [appends, filter_eq_self.mpr (by simp)]
  · rename_i rewrites
    have kept := filter_append_perm (fun file : DataFile Row => decide
      (file.path ∉ commit.removed)) files
    have both : (filesRows (files.filter fun file => file.path ∉ commit.removed) ++
        filesRows (files.filter fun file => file.path ∈ commit.removed)).Perm
          (filesRows files) := by
      rw [← filesRows_append]
      refine Perm.flatMap_right _ ?_
      simpa using kept
    rw [append_nil]
    exact ((valid.resolve_left rewrites).append_left _).trans both

theorem Consistent.grow (consistent : Consistent log)
    (valid : commit.Valid (live log)) : Consistent (log ++ [commit]) := by
  intro size
  by_cases within : size ≤ log.length
  · rw [take_append_of_le_length within]
    exact consistent size
  · rw [take_of_length_le (by simp; omega), live_concat, flatMap_append, flatMap_singleton]
    have all := consistent log.length
    rw [take_length] at all
    exact valid.perm.trans (all.append_right _)

variable {scan : Scan Row} {batches : List (List Row)}

theorem readBatchesAtVersion_ok {limit : Option Nat}
    (isRead : readBatchesAtVersion log scan version limit = .ok batches) :
    0 ≤ version ∧ version ≤ latestVersion log ∧
      batches.flatten = limit.elim (scan.order (filesRows (live (log.take (version.toNat + 1)))))
        (scan.order (filesRows (live (log.take (version.toNat + 1))))).take := by
  rw [readBatchesAtVersion] at isRead
  split at isRead <;> cases isRead
  rename_i within
  exact ⟨within.1, within.2, scan.whole _⟩

theorem Consistent.order_perm (consistent : Consistent log) (isVersion : 0 ≤ version) :
    (scan.order (filesRows (live (log.take (version.toNat + 1))))).Perm
      (added log (-1) version) := by
  have size : (version + 1).toNat = version.toNat + 1 := by omega
  rw [added, size]
  exact (scan.complete _).trans (consistent _)

variable {maxRecords : Nat}

theorem ReadKeeps.rowsAdded_eq
    (keeps : ReadKeeps maxRecords commit) : commit.rowsAdded = filesRows commit.netAdded := by
  rw [rowsAdded]
  split
  · rename_i appends
    rw [netAdded, appends, filter_eq_self.mpr (by simp)]
  · next rewrites => exact (keeps.appends.resolve_left rewrites).symm

theorem readVersionDiff_ok (consistent : Consistent log)
    (isRead : readVersionDiff log scan (version + 1) maxRecords = .ok batches)
    (keeps : ∀ commit, log[(version + 1).toNat]? = some commit → ReadKeeps maxRecords commit) :
    version + 1 ≤ latestVersion log ∧ batches.flatten.Perm (added log version (version + 1)) := by
  rw [readVersionDiff] at isRead
  split at isRead
  · rename_i first
    obtain ⟨isVersion, within, rows⟩ := readBatchesAtVersion_ok isRead
    have isFirst : version = -1 := by omega
    subst isFirst
    have inLog : (-1 + 1 : Int).toNat < log.length := by
      rw [latestVersion] at within
      omega
    have committed := getElem?_eq_getElem inLog
    have keepsFirst := keeps _ committed
    have ordered := @Consistent.order_perm _ _ _ scan consistent isVersion
    have few := keepsFirst.fits
    rw [← keepsFirst.rowsAdded_eq, ← added_next (Int.le_refl _) committed, ← ordered.length_eq]
      at few
    refine ⟨within, ?_⟩
    rw [rows, Option.elim_some, take_of_length_le few]
    exact ordered
  · rename_i later
    split at isRead <;> cases isRead
    rename_i commit committed
    have keepsCommit := keeps commit committed
    obtain ⟨within, _⟩ := List.getElem?_eq_some_iff.mp committed
    refine ⟨by rw [latestVersion]; omega, ?_⟩
    rw [scan.whole, take_of_length_le keepsCommit.fits, ← keepsCommit.rowsAdded_eq,
      added_next (by omega) committed]

/-- What the buffer of a source holds: nothing, or the rest of the version that is loaded. -/
inductive Loading (log : Log Row) (source : DeltaSource Row) (drained : List Row) : Prop where
  | idle : source.inflightVersion = none → source.pendingBatches = [] → drained = [] →
      Loading log source drained
  | load (version : Int) : source.inflightVersion = some version →
      source.pendingBatches ≠ [] → source.currentVersion ≤ version →
      version ≤ latestVersion log →
      (drained ++ source.pendingBatches.flatten).Perm (added log source.currentVersion version) →
      Loading log source drained

/-- The completed rows are those up to the current version, and the drained and buffered ones
those of the version that is loaded. -/
structure Tracks (start : Int) (run : DeltaRun Row) (source : DeltaSource Row) : Prop where
  upTo : run.completed.Perm (added run.log start source.currentVersion)
  loading : Loading run.log source run.drained
  after : start ≤ source.currentVersion
  within : source.currentVersion = start ∨ source.currentVersion ≤ latestVersion run.log
  known : source.knownLatestVersion ≤ latestVersion run.log

variable {run : DeltaRun Row} {source : DeltaSource Row}

theorem Tracks.buffer {start : Int} (tracks : Tracks start run source)
    (idle : source.inflightVersion = none) (drained : run.drained = [])
    (later : source.currentVersion ≤ version) (within : version ≤ latestVersion run.log)
    (rows : batches.flatten.Perm (added run.log source.currentVersion version)) :
    Tracks start run (source.buffer version batches) := by
  rw [DeltaSource.buffer]
  split
  · rename_i empty
    have noRows : batches.flatten = [] := by
      rw [← flatten_filter_not_isEmpty, isEmpty_iff.mp empty]
      rfl
    rw [noRows] at rows
    refine ⟨?_, .idle idle rfl drained, Int.le_trans tracks.after later, .inr within, tracks.known⟩
    rw [← added_append tracks.after later, rows.symm.eq_nil, append_nil]
    exact tracks.upTo
  · rename_i pending
    refine { tracks with loading := .load version rfl ?_ later within ?_ }
    · exact fun none => pending (isEmpty_iff.mpr none)
    · rw [drained, nil_append, flatten_filter_not_isEmpty]
      exact rows

theorem Tracks.take {start : Int} {taken : DeltaSource Row} {batch : List Row}
    (tracks : Tracks start run source) (isTaken : source.takePending = some (batch, taken)) :
    Tracks start (run.count taken batch) taken := by
  cases tracks.loading with
  | idle _ empty _ =>
    rw [takePending, empty] at isTaken
    cases isTaken
  | load version inflight pending later within rows =>
    cases isPending : source.pendingBatches with
    | nil => exact absurd isPending pending
    | cons first rest =>
      rw [isPending, flatten_cons] at rows
      cases rest with
      | nil =>
        simp only [takePending, isPending, inflight] at isTaken
        cases isTaken
        rw [flatten_nil, append_nil] at rows
        refine ⟨?_, .idle rfl rfl rfl, Int.le_trans tracks.after later, .inr within, tracks.known⟩
        have whole := tracks.upTo.append rows
        rw [added_append tracks.after later] at whole
        exact whole
      | cons second rest =>
        simp only [takePending, isPending] at isTaken
        cases isTaken
        simp only [DeltaRun.count, inflight]
        refine { tracks with loading := .load version rfl (cons_ne_nil _ _) later within ?_ }
        rw [append_assoc]
        exact rows

variable {after : DeltaSource Row}

theorem Tracks.count_nil {start : Int} (tracks : Tracks start run source) :
    Tracks start (run.count source []) source := by
  cases tracks.loading with
  | idle idle empty drained =>
    simp only [DeltaRun.count, idle, drained, append_nil]
    exact { tracks with loading := .idle idle empty rfl }
  | load version inflight pending later within rows =>
    simp only [DeltaRun.count, inflight, append_nil]
    exact { tracks with loading := .load version inflight pending later within rows }

theorem takePending_eq_none (isNone : source.takePending = none) : source.pendingBatches = [] := by
  cases isPending : source.pendingBatches with
  | nil => rfl
  | cons first rest =>
    cases rest with
    | nil =>
      cases inflight : source.inflightVersion with
      | none | some =>
        simp only [takePending, isPending, inflight] at isNone
        cases isNone
    | cons second rest =>
      simp only [takePending, isPending] at isNone
      cases isNone

structure Refreshed (log : Log Row) (before after : DeltaSource Row) : Prop where
  version : after.currentVersion = before.currentVersion
  inflight : after.inflightVersion = before.inflightVersion
  pending : after.pendingBatches = before.pendingBatches
  known : after.knownLatestVersion ≤ latestVersion log

theorem refreshed (environment : PollEnvironment Row)
    (known : source.knownLatestVersion ≤ latestVersion log) :
    Refreshed log source (source.refresh log environment).1 := by
  rw [refresh]
  split
  · exact ⟨rfl, rfl, rfl, known⟩
  · split
    · split
      · exact ⟨rfl, rfl, rfl, known⟩
      · split
        · exact ⟨rfl, rfl, rfl, known⟩
        · exact ⟨rfl, rfl, rfl, Int.le_refl _⟩
    · exact ⟨rfl, rfl, rfl, known⟩

theorem Tracks.of_refreshed {start : Int} (tracks : Tracks start run source)
    (refreshed : Refreshed run.log source after) : Tracks start run after := by
  obtain ⟨version, inflight, pending, known⟩ := refreshed
  refine ⟨version ▸ tracks.upTo, ?_, version ▸ tracks.after, version ▸ tracks.within, known⟩
  cases tracks.loading with
  | idle isNone empty drained => exact .idle (inflight.trans isNone) (pending.trans empty) drained
  | load loaded isLoaded notEmpty later within rows =>
    refine .load loaded (inflight.trans isLoaded) (pending ▸ notEmpty) (version ▸ later) within ?_
    rw [version, pending]
    exact rows

variable {environment : PollEnvironment Row}

theorem Tracks.read {start : Int}
    (tracks : Tracks start run source) (consistent : Consistent run.log)
    (idle : source.inflightVersion = none) (drained : run.drained = [])
    (keeps : ∀ commit, run.log[(source.currentVersion + 1).toNat]? = some commit →
      ReadKeeps maxRecords commit) :
    let read := source.readTarget run.log maxRecords environment
    Tracks start (run.count read.1 (returnedRows read.2)) read.1 := by
  rw [readTarget]
  split
  · exact tracks.count_nil
  · split
    · exact tracks.count_nil
    · rename_i batches isRead
      obtain ⟨within, rows⟩ := readVersionDiff_ok consistent isRead keeps
      have buffered := tracks.buffer idle drained (by omega) within rows
      cases isTaken : (source.buffer (source.currentVersion + 1) batches).takePending with
          simp only [isTaken]
      | none => exact buffered.count_nil
      | some result => exact buffered.take isTaken

variable {startingVersion : Option Int}

theorem Tracks.poll (tracks : Tracks (startPosition startingVersion) run source)
    (consistent : Consistent run.log) (isSource : run.source = some source)
    (keeps : KeepsRows startingVersion run (.poll maxRecords environment)) :
    let polled := source.pollBatch run.log maxRecords environment
    Tracks (startPosition startingVersion) (run.count polled.1 (returnedRows polled.2))
      polled.1 := by
  rw [pollBatch]
  split
  · next batch taken isTaken => exact tracks.take isTaken
  · rename_i isNone
    have empty := takePending_eq_none isNone
    have isRefreshed := refreshed environment tracks.known
    cases tracks.loading with
    | load _ _ pending _ _ _ => exact absurd empty pending
    | idle idle _ drained =>
      split
      · rename_i after found
        rw [found] at isRefreshed
        exact (tracks.of_refreshed isRefreshed).count_nil
      · rename_i after found
        have isNew : (source.refresh run.log environment).2 = true := by rw [found]
        rw [found] at isRefreshed
        refine (tracks.of_refreshed isRefreshed).read consistent
          (isRefreshed.inflight.trans idle) drained ?_
        rw [isRefreshed.version]
        exact fun commit => keeps source commit isSource empty isNew

structure Saved (start : Int) (log : Log Row) (version : Int) (rows : List Row) : Prop where
  upTo : rows.Perm (added log start version)
  after : start ≤ version
  within : version = start ∨ version ≤ latestVersion log

/-- What `open` leaves: a source with an empty buffer, or one that has buffered the rows of the
table. -/
inductive Opened (startingVersion : Option Int) (log : Log Row) (source : DeltaSource Row) :
    Prop where
  | idle : source.inflightVersion = none → source.pendingBatches = [] →
      (∀ start, startingVersion = some start → source.currentVersion = start) →
      (startingVersion = none → source.currentVersion = latestVersion log ∧
        (0 < latestVersion log → added log (-1) (latestVersion log) = [])) →
      Opened startingVersion log source
  | snapshot : startingVersion = none → 0 < latestVersion log → source.currentVersion = -1 →
      source.inflightVersion = some (latestVersion log) → source.pendingBatches ≠ [] →
      source.pendingBatches.flatten.Perm (added log (-1) (latestVersion log)) →
      Opened startingVersion log source

theorem opened_of_openTable (consistent : Consistent log)
    (isOpened : openTable startingVersion log scan = .ok source) :
    Opened startingVersion log source ∧ source.knownLatestVersion = -1 := by
  cases startingVersion with
  | some start =>
    cases isOpened
    refine ⟨.idle rfl rfl ?_ nofun, rfl⟩
    rintro _ ⟨⟩
    rfl
  | none =>
    simp only [openTable] at isOpened
    split at isOpened
    · rename_i positive
      cases isRead : readBatchesAtVersion log scan (latestVersion log) none with
          (rw [isRead] at isOpened; cases isOpened)
      | ok batches =>
        obtain ⟨isVersion, _, rows⟩ := readBatchesAtVersion_ok isRead
        have perm : batches.flatten.Perm (added log (-1) (latestVersion log)) := by
          rw [rows]
          exact consistent.order_perm isVersion
        simp only [buffer]
        split
        · rename_i empty
          rw [← flatten_filter_not_isEmpty, isEmpty_iff.mp empty] at perm
          exact ⟨.idle rfl rfl nofun
            fun _ => ⟨rfl, fun _ => perm.symm.eq_nil⟩, rfl⟩
        · rename_i pending
          refine ⟨.snapshot rfl positive rfl rfl ?_ ?_, rfl⟩
          · exact fun isNil => pending (isEmpty_iff.mpr isNil)
          · rw [← flatten_filter_not_isEmpty] at perm
            exact perm
    · rename_i first
      cases isOpened
      exact ⟨.idle rfl rfl nofun
        fun _ => ⟨rfl, fun positive => absurd positive first⟩, rfl⟩

theorem Tracks.start (notEmpty : run.log ≠ [])
    (opened : Opened startingVersion run.log source) (known : source.knownLatestVersion = -1)
    (saved : ∀ version rows, run.saved = some (version, rows) →
      Saved (startPosition startingVersion) run.log version rows)
    (keeps : KeepsRows startingVersion run (.start scan)) :
    ∃ after, (run.started source).source = some after ∧
      Tracks (startPosition startingVersion) (run.started source) after := by
  have hasVersion : 0 ≤ latestVersion run.log := by
    have length := length_pos_iff.mpr notEmpty
    rw [latestVersion]
    omega
  have isKnown : source.knownLatestVersion ≤ latestVersion run.log := by omega
  rw [DeltaRun.started]
  cases isSaved : run.saved with
  | none =>
    refine ⟨source, rfl, ?_⟩
    cases opened with
    | idle idle empty atStart atLatest =>
      cases startingVersion with
      | some start =>
        have version := atStart start rfl
        refine ⟨?_, .idle idle empty rfl, ?_, .inl version, isKnown⟩
        · rw [version]
          simp [startPosition]
        · rw [version]
          exact Int.le_refl _
      | none =>
        obtain ⟨version, noRows⟩ := atLatest rfl
        have nothing : added run.log (-1) (latestVersion run.log) = [] := by
          rcases Int.lt_or_eq_of_le hasVersion with positive | zero
          · exact noRows positive
          · have first := keeps rfl
            rw [isSaved] at first
            rw [← zero]
            exact first zero.symm
        refine ⟨?_, .idle idle empty rfl, ?_, .inr (Int.le_of_eq version), isKnown⟩
        · rw [version]
          exact Perm.of_eq nothing.symm
        · simp only [startPosition, Option.getD_none]
          omega
    | snapshot isNone positive version inflight pending rows =>
      subst isNone
      refine ⟨?_, .load _ inflight pending (by omega) (Int.le_refl _) ?_, ?_, .inl version, isKnown⟩
      · rw [version]
        simp [startPosition]
      · rw [version]
        exact rows
      · rw [version]
        exact Int.le_refl _
  | some checkpoint =>
    obtain ⟨version, rows⟩ := checkpoint
    have isCheckpoint := saved version rows isSaved
    refine ⟨source.restore version, rfl, isCheckpoint.upTo, ?_, isCheckpoint.after,
      isCheckpoint.within, isKnown⟩
    cases opened with
    | idle idle empty _ _ => exact .idle idle empty rfl
    | snapshot isNone positive _ inflight pending snapshot =>
      subst isNone
      have notAgain := keeps rfl
      rw [isSaved] at notAgain
      have after : -1 ≤ version := isCheckpoint.after
      have within : version ≤ latestVersion run.log := by
        rcases isCheckpoint.within with atStart | within
        · rw [atStart, startPosition, Option.getD_none]
          omega
        · exact within
      refine .load _ inflight pending within (Int.le_refl _) ?_
      rw [← added_append after within] at snapshot
      rw [notAgain positive, nil_append] at snapshot
      exact snapshot

structure Invariant (startingVersion : Option Int) (run : DeltaRun Row) : Prop where
  consistent : Consistent run.log
  saved : ∀ version rows, run.saved = some (version, rows) →
    Saved (startPosition startingVersion) run.log version rows
  tracks : ∀ source, run.source = some source → Tracks (startPosition startingVersion) run source

theorem latestVersion_le_concat (log : Log Row) (commit : Commit Row) :
    latestVersion log ≤ latestVersion (log ++ [commit]) := by
  simp only [latestVersion, length_append, length_singleton]
  omega

theorem Tracks.grow {start : Int} (tracks : Tracks start run source) (commit : Commit Row) :
    Tracks start { run with log := run.log ++ [commit] } source := by
  have later := latestVersion_le_concat run.log commit
  refine ⟨?_, ?_, tracks.after, ?_, Int.le_trans tracks.known later⟩
  · rw [added_grow tracks.within]
    exact tracks.upTo
  · cases tracks.loading with
    | idle idle empty drained => exact .idle idle empty drained
    | load version inflight pending isLater within rows =>
      refine .load version inflight pending isLater (Int.le_trans within later) ?_
      rw [added_grow (.inr within)]
      exact rows
  · exact tracks.within.imp_right fun within => Int.le_trans within later

theorem Saved.grow {start : Int} {rows : List Row} (saved : Saved start log version rows)
    (commit : Commit Row) : Saved start (log ++ [commit]) version rows := by
  have later := latestVersion_le_concat log commit
  refine ⟨?_, saved.after, saved.within.imp_right fun within => Int.le_trans within later⟩
  rw [added_grow saved.within]
  exact saved.upTo

theorem Invariant.follow {before after : DeltaRun Row}
    (invariant : Invariant startingVersion before)
    (log : after.log = before.log) (saved : after.saved = before.saved)
    (isSource : after.source = some source)
    (tracks : Tracks (startPosition startingVersion) after source) :
    Invariant startingVersion after := by
  refine ⟨log ▸ invariant.consistent, ?_, ?_⟩
  · rw [saved, log]
    exact invariant.saved
  · intro other isOther
    cases isSource.symm.trans isOther
    exact tracks

variable [DecidableEq Row]

theorem Invariant.of_reaches
    (reached : (deltaRuns startingVersion).Reaches (KeepsRows startingVersion) run) :
    Invariant startingVersion run := by
  refine reached.invariant ?_ ?_
  · rintro _ rfl
    refine ⟨fun size => ?_, nofun, nofun⟩
    rw [DeltaRun.empty, take_nil]
    exact .refl _
  · intro before event after invariant keeps stepped
    cases event with
    | commit commit =>
      obtain ⟨valid, grown⟩ := Option.ite_none_right_eq_some.mp stepped
      cases grown
      refine ⟨invariant.consistent.grow valid, ?_, ?_⟩
      · exact fun version rows isSaved => (invariant.saved version rows isSaved).grow commit
      · exact fun source isSource => (invariant.tracks source isSource).grow commit
    | start scan =>
      obtain ⟨⟨_, notEmpty⟩, started⟩ := Option.ite_none_right_eq_some.mp stepped
      cases isOpened : openTable startingVersion before.log scan with rw [isOpened] at started
      | error error =>
        cases started
      | ok source =>
        cases started
        obtain ⟨opened, known⟩ := opened_of_openTable invariant.consistent isOpened
        obtain ⟨restored, isRestored, tracks⟩ :=
          Tracks.start notEmpty opened known invariant.saved keeps
        obtain ⟨sameLog, sameSaved⟩ : (before.started source).log = before.log ∧
            (before.started source).saved = before.saved := by
          rw [DeltaRun.started]
          split <;> exact ⟨rfl, rfl⟩
        exact invariant.follow sameLog sameSaved isRestored tracks
    | poll maxRecords environment =>
      obtain ⟨source, isSource, rfl⟩ := Option.map_eq_some_iff.mp stepped
      have tracks := (invariant.tracks source isSource).poll invariant.consistent isSource keeps
      obtain ⟨sameLog, sameSaved, isPolled⟩ :
          (before.polled maxRecords environment source).log = before.log ∧
            (before.polled maxRecords environment source).saved = before.saved ∧
            (before.polled maxRecords environment source).source =
              some (source.pollBatch before.log maxRecords environment).1 := by
        rw [DeltaRun.polled, DeltaRun.count]
        split <;> exact ⟨rfl, rfl, rfl⟩
      exact invariant.follow sameLog sameSaved isPolled tracks
    | checkpoint =>
      obtain ⟨source, isSource, rfl⟩ := Option.map_eq_some_iff.mp stepped
      have tracks := invariant.tracks source isSource
      refine ⟨invariant.consistent, ?_, ?_⟩
      · rintro _ _ ⟨⟩
        exact ⟨tracks.upTo, tracks.after, tracks.within⟩
      · intro other isOther
        exact { invariant.tracks other isOther with }
    | crash =>
      cases stepped
      exact ⟨invariant.consistent, invariant.saved, nofun⟩

def plainScan : Scan Nat where
  order := id
  complete := fun _ => .refl _
  cut := fun rows => [rows]
  whole := fun _ => append_nil _

def quietPoll : PollEnvironment Nat := ⟨true, true, true, none, plainScan⟩

def created : Commit Nat := ⟨[], []⟩

def firstRows : Commit Nat := ⟨[⟨"first", [1]⟩], []⟩

def secondRows : Commit Nat := ⟨[⟨"second", [2, 3]⟩], []⟩

end LaminarDB.Connectors.Delta

import LaminarDB.Library.Maps
import LaminarDB.Library.Transition

/-!
# The memory-mapped state store

A persistent `MmapStateStore` writes its values into a data file, one behind the other, and
`flush` saves beside it where they stand. `clear`, `restore` and `compact` go back to the
start of the data file while the saved index still points into what they write over.
-/

namespace LaminarDB.State.Mmap

open Library List SortedMap

variable {Key : Type} [LinearOrder Key]

/-- The data region of the file, which grows as far as it is written. -/
abbrev Region := Nat → UInt8

structure ValueEntry where
  offset : Nat
  len : Nat

namespace Region

variable (region : Region)

def read (entry : ValueEntry) : List UInt8 :=
  (range' entry.offset entry.len).map region

def write (offset : Nat) (data : List UInt8) : Region := fun position =>
  if position < offset then region position
  else (data[position - offset]?).getD (region position)

end Region

/-- `MmapStateStore` over a file. A write that cannot grow the file changes nothing. -/
structure Store (Key : Type) [LinearOrder Key] where
  index : SortedMap Key ValueEntry
  region : Region
  writePos : Nat
  deletesSinceCompact : Nat

namespace Store

variable (store : Store Key)

def get (key : Key) : Option (List UInt8) := (store.index.find? key).map store.region.read

/-- A value is written behind the others and entered into the index. -/
def insert (entry : Key × List UInt8) : Store Key :=
  { store with
    index := store.index.insert entry.1 ⟨store.writePos, entry.2.length⟩
    region := store.region.write store.writePos entry.2
    writePos := store.writePos + entry.2.length }

def clear : Store Key :=
  { store with index := .empty, writePos := 0, deletesSinceCompact := 0 }

/-- `restore`; one that panics has written the first values of its snapshot. -/
def restore (data : List (Key × List UInt8)) : Store Key := data.foldl insert store.clear

def compact : Store Key :=
  store.restore (store.index.entries.map fun entry => (entry.1, store.region.read entry.2))

/-- The condition of the compaction in `put`: more than half of the used bytes are dead. -/
def fragmented : Bool :=
  0 < store.deletesSinceCompact && store.index.size / 4 < store.deletesSinceCompact &&
    2 * (store.index.entries.map fun entry => entry.2.len).sum < store.writePos

def put (entry : Key × List UInt8) : Store Key :=
  if (store.insert entry).fragmented then (store.insert entry).compact else store.insert entry

def delete (key : Key) : Store Key :=
  if (store.index.find? key).isSome then
    { store with
      index := store.index.erase key, deletesSinceCompact := store.deletesSinceCompact + 1 }
  else store

end Store

/-- The index file: `save_index` truncates it before it writes, and may fail in between. -/
inductive IndexFile (Key : Type) [LinearOrder Key] where
  | unreadable
  | saved (index : SortedMap Key ValueEntry) (writePos : Nat)

inductive FlushOutcome where
  | written
  | notFlushed
  | torn

inductive Call (Key : Type) where
  | put (entry : Key × List UInt8)
  | delete (key : Key)
  | clear
  | restore (data : List (Key × List UInt8))
  | compact
  | flush (outcome : FlushOutcome)
  /-- A crash and `MmapStateStore::persistent` after it. -/
  | reopen

/-- The store, the file of its index, and its map at the last flush that returned `Ok`. -/
structure Run (Key : Type) [LinearOrder Key] where
  store : Store Key
  file : IndexFile Key
  flushed : Key → Option (List UInt8)

namespace Run

variable (run : Run Key)

/-- What `persistent` finds: without a readable index it fails. -/
def reopened : Option (Store Key) :=
  match run.file with
  | .unreadable => none
  | .saved index writePos => some ⟨index, run.store.region, writePos, 0⟩

def step : Call Key → Option (Run Key)
  | .put entry => some { run with store := run.store.put entry }
  | .delete key => some { run with store := run.store.delete key }
  | .clear => some { run with store := run.store.clear }
  | .restore data => some { run with store := run.store.restore data }
  | .compact => some { run with store := run.store.compact }
  | .flush .written => some ⟨run.store, .saved run.store.index run.store.writePos, run.store.get⟩
  | .flush .notFlushed => some run
  | .flush .torn => some { run with file := .unreadable }
  | .reopen => run.reopened.map fun store => { run with store }

/-- The bytes behind which the next write of a call starts. -/
def writesFrom : Call Key → Option Nat
  | .put entry => some (if (run.store.insert entry).fragmented then 0 else run.store.writePos)
  | .restore _ | .compact => some 0
  | _ => none

def savedPos : Nat :=
  match run.file with
  | .unreadable => 0
  | .saved _ writePos => writePos

/-- The writes of a call start behind the bytes that the saved index covers. -/
def KeepsSaved (call : Call Key) : Prop :=
  ∀ position, run.writesFrom call = some position → run.savedPos ≤ position

/-- A reopened store has the map of the last flush. -/
def Recovers : Prop :=
  ∀ store, run.reopened = some store → store.get = run.flushed

end Run

def mmapRuns (Key : Type) [LinearOrder Key] : TransitionSystem (Run Key) (Call Key) where
  initial run := run.store.index = .empty ∧ run.store.writePos = 0 ∧ run.file = .unreadable
  step := Run.step

variable {store : Store Key}

namespace Store

def Within (store : Store Key) : Prop :=
  ∀ entry ∈ store.index.entries, entry.2.offset + entry.2.len ≤ store.writePos

theorem foldl_insert (within : store.Within) (data : List (Key × List UInt8)) :
    (data.foldl insert store).Within ∧ ∀ position < store.writePos,
      (data.foldl insert store).region position = store.region position := by
  induction data generalizing store with
  | nil => exact ⟨within, fun _ _ => rfl⟩
  | cons value data ih =>
    have inserted : (store.insert value).Within := by
      intro entry among
      obtain rfl | earlier := mem_insert among
      · exact le_rfl
      · exact (within entry earlier).trans (Nat.le_add_right _ _)
    refine ⟨(ih inserted).1, fun position below => ?_⟩
    exact ((ih inserted).2 position (Nat.lt_add_right _ below)).trans (if_pos below)

theorem within_restore {data : List (Key × List UInt8)} : (store.restore data).Within :=
  (@foldl_insert _ _ store.clear (forall_mem_nil _) data).1

end Store

structure Sound (run : Run Key) : Prop where
  within : run.store.Within
  reopened : ∀ store, run.reopened = some store → store.Within ∧ store.get = run.flushed

theorem Sound.write {run : Run Key} (sound : Sound run)
    (within : store.Within) (frame : ∀ position < run.savedPos,
      store.region position = run.store.region position) : Sound { run with store } := by
  refine ⟨within, fun reopened isReopened => ?_⟩
  obtain ⟨before, file, flushed⟩ := run
  cases file with cases isReopened
  | saved =>
    obtain ⟨covered, isFlushed⟩ := sound.reopened _ rfl
    refine ⟨covered, .trans (funext fun key => ?_) isFlushed⟩
    refine Option.map_congr fun entry found => map_congr_left fun position among =>
      frame position ?_
    exact (mem_range'_1.mp among).2.trans_le (covered _ (mem_of_find? found))

theorem Sound.step {run next : Run Key} {call : Call Key} (sound : Sound run)
    (keeps : run.KeepsSaved call) (stepped : run.step call = some next) : Sound next := by
  have unsaved (atStart : run.savedPos ≤ 0) (store : Store Key) (position : Nat)
      (below : position < run.savedPos) : store.region position = run.store.region position :=
    absurd below (Nat.not_lt.mpr (atStart.trans (Nat.zero_le _)))
  cases call with
  | put entry =>
    cases stepped
    have behind := keeps _ rfl
    rw [Store.put]
    split at behind
    · rename_i fragmented
      rw [if_pos fragmented]
      exact sound.write Store.within_restore (unsaved behind _)
    · rename_i compact
      rw [if_neg compact]
      obtain ⟨within, frame⟩ := Store.foldl_insert sound.within [entry]
      exact sound.write within fun position below => frame position (below.trans_le behind)
  | restore | compact =>
    cases stepped
    exact sound.write Store.within_restore (unsaved (keeps _ rfl) _)
  | delete key =>
    cases stepped
    rw [Store.delete]
    split
    · exact sound.write (fun entry among => sound.within entry (mem_of_mem_erase among))
        fun _ _ => rfl
    · exact sound
  | clear =>
    cases stepped
    exact sound.write (forall_mem_nil _) fun _ _ => rfl
  | flush outcome =>
    cases outcome with cases stepped
    | written =>
      exact ⟨sound.within, fun store isStore => by cases isStore; exact ⟨sound.within, rfl⟩⟩
    | notFlushed =>
      exact sound
    | torn =>
      exact ⟨sound.within, nofun⟩
  | reopen =>
    obtain ⟨store, isStore, rfl⟩ := Option.map_eq_some_iff.mp stepped
    refine sound.write (sound.reopened store isStore).1 fun _ _ => ?_
    unfold Run.reopened at isStore
    split at isStore <;> cases isStore
    rfl

theorem recovers_of_reaches {run : Run Key}
    (reached : (mmapRuns Key).Reaches Run.KeepsSaved run) : run.Recovers := by
  have sound : Sound run := by
    refine reached.invariant ?_ fun _ _ _ sound keeps stepped => sound.step keeps stepped
    rintro start ⟨noEntries, -, noFile⟩
    refine ⟨fun entry among => ?_, fun store isStore => ?_⟩
    · rw [noEntries] at among
      cases among
    · rw [Run.reopened, noFile] at isStore
      cases isStore
  exact fun store isStore => (sound.reopened store isStore).2

def fresh : Run Nat := ⟨⟨.empty, fun _ => 0, 0, 0⟩, .unreadable, fun _ => none⟩

/-- The value is written anew after the flush. -/
theorem recovers_of_reaches_flushed : ∃ run : Run Nat,
    run.flushed 1 = some [7] ∧ run.store.get 1 = some [9] ∧ run.Recovers :=
  have start : (mmapRuns Nat).Reaches Run.KeepsSaved fresh := .initial ⟨rfl, rfl, rfl⟩
  have put := start.next (.put (1, [7])) (fun _ _ => Nat.zero_le _) rfl
  have flushed := put.next (.flush .written) nofun rfl
  ⟨_, rfl, rfl, recovers_of_reaches
    (flushed.next (.put (1, [9])) (fun _ isWritten => (Option.some.inj isWritten).le) rfl)⟩

/-- After `clear` the next value is written over the flushed one. -/
theorem not_recovers_cleared :
    ∃ run, (mmapRuns Nat).Reaches (fun _ _ => True) run ∧ ¬ run.Recovers :=
  ⟨_, .of_run (fun _ _ => trivial) (.initial ⟨rfl, rfl, rfl⟩)
    (rfl : (mmapRuns Nat).run fresh
      [.put (1, [7]), .flush .written, .clear, .put (2, [9])] = some _),
    fun recovers => absurd (congrFun (recovers _ rfl) 1) (by decide)⟩

/-- The entries of the store in the order of their keys. -/
def Store.snapshot (store : Store Key) : List (Key × List UInt8) :=
  store.index.entries.map fun entry => (entry.1, store.region.read entry.2)

/-- What a call makes of a map that keeps its entries in order. -/
def Call.onMap (map : SortedMap Key (List UInt8)) : Call Key → SortedMap Key (List UInt8)
  | .put entry => map.insert entry.1 entry.2
  | .delete key => map.erase key
  | .clear => .empty
  | .restore data => .ofEntries data
  | _ => map

structure Holds (store : Store Key) (map : SortedMap Key (List UInt8)) : Prop where
  within : store.Within
  snapshot : store.snapshot = map.entries

variable {map : SortedMap Key (List UInt8)}

theorem Holds.insert (holds : Holds store map) (entry : Key × List UInt8) :
    Holds (store.insert entry) (map.insert entry.1 entry.2) := by
  obtain ⟨within, frame⟩ := Store.foldl_insert holds.within [entry]
  refine ⟨within, ?_⟩
  have kept : store.index.entries.map (fun old => (old.1, (store.insert entry).region.read old.2)) =
      map.entries := by
    rw [← holds.snapshot]
    refine map_congr_left fun old among => congrArg (Prod.mk old.1) ?_
    refine map_congr_left fun position covered => frame position ?_
    exact (mem_range'_1.mp covered).2.trans_le (holds.within old among)
  have written : (store.insert entry).region.read ⟨store.writePos, entry.2.length⟩ = entry.2 := by
    refine ext_getElem (by simp [Region.read]) fun position _ inside => ?_
    simp [Region.read, Store.insert, Region.write, inside]
  show (place _ _ _).map _ = place _ _ _
  rw [← kept]
  generalize store.index.entries = entries
  induction entries with
  | nil => simp [place, written]
  | cons old entries ih =>
    simp only [place, map_cons]
    split_ifs <;> simp [written, ih]

theorem Holds.foldl (holds : Holds store map) (data : List (Key × List UInt8)) :
    Holds (data.foldl Store.insert store)
      (data.foldl (fun map entry => map.insert entry.1 entry.2) map) := by
  induction data generalizing store map with
  | nil => exact holds
  | cons entry data ih => exact ih (holds.insert entry)

theorem holds_restore (store : Store Key) (data : List (Key × List UInt8)) :
    Holds (store.restore data) (.ofEntries data) :=
  @Holds.foldl _ _ store.clear .empty ⟨forall_mem_nil _, rfl⟩ data

theorem Holds.compact (holds : Holds store map) : Holds store.compact map := by
  have rewritten := holds_restore store store.snapshot
  rwa [holds.snapshot, ofEntries_entries, ← holds.snapshot] at rewritten

theorem Holds.step {run next : Run Key} {call : Call Key} (holds : Holds run.store map)
    (stays : call ≠ .reopen) (stepped : run.step call = some next) :
    Holds next.store (call.onMap map) := by
  cases call with
  | reopen => exact absurd rfl stays
  | put entry =>
    cases stepped
    have inserted := holds.insert entry
    simp only [Store.put]
    split
    · exact inserted.compact
    · exact inserted
  | delete key =>
    cases stepped
    have erased : (map.erase key).entries = _ := congrArg (filter _) holds.snapshot.symm
    simp only [Store.delete]
    split
    · refine ⟨fun entry among => holds.within entry (mem_of_mem_erase among), ?_⟩
      exact (erased.trans filter_map).symm
    · rename_i missing
      refine ⟨holds.within, (erased.trans (filter_eq_self.mpr ?_)).symm⟩
      intro _ among
      obtain ⟨entry, isEntry, rfl⟩ := mem_map.mp among
      refine decide_eq_true fun same => missing ?_
      rw [← same, find?_of_mem isEntry, Option.isSome_some]
  | clear => cases stepped; exact ⟨forall_mem_nil _, rfl⟩
  | restore data => cases stepped; exact holds_restore _ data
  | compact => cases stepped; exact holds.compact
  | flush outcome => cases outcome <;> cases stepped <;> exact holds

theorem Holds.run {start run : Run Key} {calls : List (Call Key)} (stays : .reopen ∉ calls)
    (holds : Holds start.store map) (ran : (mmapRuns Key).run start calls = some run) :
    Holds run.store (calls.foldl Call.onMap map) := by
  induction calls generalizing start map with
  | nil =>
    cases ran
    exact holds
  | cons call calls ih =>
    obtain ⟨next, stepped, ran⟩ := Option.bind_eq_some_iff.mp ran
    rw [mem_cons, not_or] at stays
    exact ih stays.2 (holds.step (Ne.symm stays.1) stepped) ran

/-- Between two openings a store is the ordered map of its calls, whenever it compacts. -/
theorem snapshot_run {start run : Run Key} (fresh : (mmapRuns Key).initial start)
    {calls : List (Call Key)} (stays : .reopen ∉ calls)
    (ran : (mmapRuns Key).run start calls = some run) :
    run.store.snapshot = (calls.foldl Call.onMap .empty).entries ∧
      run.store.get = (calls.foldl Call.onMap .empty).find? := by
  have started : Holds start.store .empty := by
    constructor <;> simp [Store.Within, Store.snapshot, fresh.1, SortedMap.empty]
  have same := (started.run stays ran).snapshot
  refine ⟨same, funext fun key => ?_⟩
  simp only [Store.get, SortedMap.find?, ← same, Store.snapshot]
  induction run.store.index.entries with
  | nil => rfl
  | cons entry entries ih =>
    obtain ⟨other, entry⟩ := entry
    cases isKey : key == other <;> simp [lookup_cons, isKey, ih]

theorem snapshot_run_compacted :
    ∃ calls run, (mmapRuns Nat).run fresh calls = some run ∧ run.store.snapshot = [(2, [9])] :=
  have ran : (mmapRuns Nat).run fresh [.put (1, [7, 7]), .delete 1, .put (2, [9])] = some _ := rfl
  ⟨_, _, ran, (snapshot_run ⟨rfl, rfl, rfl⟩ (by simp) ran).1⟩

end LaminarDB.State.Mmap

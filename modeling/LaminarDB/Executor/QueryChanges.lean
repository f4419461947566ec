import LaminarDB.Executor.Cycle
import LaminarDB.Library.Transition

/-!
# Queries that come and go

Queries are added and removed between the cycles of an executor, and a query meets its first
cycle without state. Its states and its compiled projection are kept under its index, which
no other query ever has, the entries of a restored checkpoint under its name.
-/

namespace LaminarDB.Executor

open Library List

/-- The maps of a `StreamExecutorCheckpoint`. -/
inductive StateKind where
  | agg
  | eowc
  | coreWindow
  | join
  | rawEowc
deriving DecidableEq

/-- The indices under which an executor has a state or a compiled projection, the names with an
entry to restore, and the queries to which restored entries were applied. -/
structure QueryTable where
  queries : List StreamQuery
  states : StateKind → List Nat
  compiled : List Nat
  allQueriesCompiled : Option Bool
  pendingRestore : StateKind → List String
  applied : List ((StateKind × String) × Nat)

namespace QueryTable

def new : QueryTable := ⟨[], fun _ => [], [], none, fun _ => [], []⟩

/-- A cycle is its beginning and what the executions of its queries create. -/
inductive Event where
  | addQuery (name : String) (tableRefs : List String)
  | removeQuery (name : String)
  | restoreState (entries : StateKind → List String)
  | beginCycle
  | createState (kind : StateKind) (idx : Nat)
  | compile (idx : Nat)

section

variable (table : QueryTable)

def addQuery (name : String) (tableRefs : List String) : QueryTable :=
  { table with queries := table.queries ++ [⟨name, tableRefs, false⟩] }

def removeQuery (name : String) : QueryTable :=
  match table.queries.findIdx? fun query => query.name = name && !query.removed with
  | none => table
  | some idx =>
    { table with
      queries := table.queries.modify idx ({ · with removed := true })
      states := fun kind => (table.states kind).filter (· ≠ idx)
      compiled := table.compiled.filter (· ≠ idx)
      allQueriesCompiled := none }

/-- `restore_state`: the entries of states that exist are applied at once, and all are kept. A
restore that fails at one of them is left out. -/
def restoreState (entries : StateKind → List String) : QueryTable :=
  { table with
    pendingRestore := entries
    applied := [.agg, .eowc, .coreWindow, .rawEowc].flatMap fun kind =>
      (entries kind).filterMap fun name =>
        ((nameToIdx table.queries name).filter fun idx =>
          kind = .rawEowc ∨ idx ∈ table.states kind).map ((kind, name), ·) }

/-- The source tables are not registered in a cycle that begins with this. -/
def skipsRegistration : Bool :=
  table.allQueriesCompiled = some true || (computeTopoOrder table.queries).all (· ∈ table.compiled)

/-- The first execution of a query, with `try_restore_pending_agg` and its like. A raw EOWC
state has none. -/
def createState (kind : StateKind) (idx : Nat) (query : StreamQuery) : QueryTable :=
  if idx ∈ table.states kind then table
  else
    { table with
      states := Function.update table.states kind (idx :: table.states kind)
      applied := if kind ≠ .rawEowc ∧ query.name ∈ table.pendingRestore kind then
        ((kind, query.name), idx) :: table.applied else table.applied }

def live (idx : Nat) : Option StreamQuery :=
  table.queries[idx]?.filter (!·.removed)

def step : Event → Option QueryTable
  | .addQuery name tableRefs => table.addQuery name tableRefs
  | .removeQuery name => table.removeQuery name
  | .restoreState entries => table.restoreState entries
  | .beginCycle => some { table with allQueriesCompiled := some table.skipsRegistration }
  | .createState kind idx => (table.live idx).map (table.createState kind idx)
  | .compile idx => (table.live idx).map fun _ => { table with compiled := idx :: table.compiled }

/-- A cycle that begins now registers the sources, or every query has a compiled projection. -/
def SeesSources : Prop :=
  table.skipsRegistration = true → ∀ idx query, table.live idx = some query → idx ∈ table.compiled

def KeepsFlag (table : QueryTable) : Event → Prop
  | .addQuery _ _ => table.allQueriesCompiled ≠ some true
  | _ => True

/-- No entry of the checkpoint has been applied to two queries. -/
def AppliedOnce : Prop :=
  ∀ entry first second, (entry, first) ∈ table.applied → (entry, second) ∈ table.applied →
    first = second

/-- A query is added under a name that no query has now and for which no entry is kept. -/
def NewName (table : QueryTable) : Event → Prop
  | .addQuery name _ => (∀ idx query, table.live idx = some query → query.name ≠ name) ∧
      ∀ kind, name ∉ table.pendingRestore kind
  | _ => True

end

end QueryTable

open QueryTable

def queryChanges : TransitionSystem QueryTable Event where
  initial table := table = .new
  step := step

variable {table next : QueryTable} {event : Event}

def Flagged (table : QueryTable) : Prop :=
  table.allQueriesCompiled = some true → ∀ idx < table.queries.length, idx ∈ table.compiled

theorem Flagged.compiled (flagged : Flagged table) (skips : table.skipsRegistration = true) :
    ∀ idx < table.queries.length, idx ∈ table.compiled := by
  rcases Bool.or_eq_true_iff.mp skips with flag | all
  · exact flagged (of_decide_eq_true flag)
  · intro idx inside
    have isIdx : idx ∈ computeTopoOrder table.queries :=
      Kahn.order_perm.mem_iff.mpr (mem_range.mpr inside)
    exact of_decide_eq_true (all_eq_true.mp all idx isIdx)

theorem Flagged.step (flagged : Flagged table) (keeps : table.KeepsFlag event)
    (stepped : table.step event = some next) : Flagged next := by
  cases event with
  | addQuery =>
    cases stepped
    exact fun isTrue => absurd isTrue keeps
  | removeQuery name =>
    cases stepped
    unfold removeQuery
    split
    · exact flagged
    · exact nofun
  | restoreState =>
    cases stepped
    exact flagged
  | beginCycle =>
    cases stepped
    exact fun isTrue => flagged.compiled (Option.some.inj isTrue)
  | createState kind idx =>
    obtain ⟨query, _, rfl⟩ := Option.map_eq_some_iff.mp stepped
    unfold createState
    split <;> exact flagged
  | compile idx =>
    obtain ⟨query, _, rfl⟩ := Option.map_eq_some_iff.mp stepped
    exact fun isTrue other inside => mem_cons_of_mem _ (flagged isTrue other inside)

theorem queries_of_live {idx : Nat} {query : StreamQuery} (isLive : table.live idx = some query) :
    table.queries[idx]? = some query :=
  (Option.filter_eq_some_iff.mp isLive).1

/-- A cycle skips the registration only if all queries are compiled, as long as no query is
added while the flag is set. -/
theorem seesSources_of_reaches (reached : queryChanges.Reaches KeepsFlag table) :
    table.SeesSources := by
  have flagged : Flagged table :=
    reached.invariant (by rintro _ rfl; exact nofun) fun _ _ _ flagged keeps stepped =>
      flagged.step keeps stepped
  intro skips idx query isLive
  exact flagged.compiled skips idx (List.getElem?_eq_some_iff.mp (queries_of_live isLive)).1

/-- The queries `a` and `b` over one source; `a` is compiled in its first cycle. -/
def compiledFirst : List Event :=
  [.addQuery "a" ["trades"], .beginCycle, .compile 0, .beginCycle]

theorem seesSources_of_reaches_first :
    ∃ table, queryChanges.run .new compiledFirst = some table ∧ table.SeesSources :=
  have added := (TransitionSystem.Reaches.initial rfl : queryChanges.Reaches KeepsFlag .new).next
    (.addQuery "a" ["trades"]) nofun rfl
  have compiled := (added.next .beginCycle trivial rfl).next (.compile 0) trivial rfl
  ⟨_, rfl, seesSources_of_reaches (compiled.next .beginCycle trivial rfl)⟩

theorem not_seesSources_second :
    ∃ table, queryChanges.run .new (compiledFirst ++ [.addQuery "b" ["trades"]]) = some table ∧
      ¬table.SeesSources :=
  ⟨_, rfl, fun sees => absurd (sees rfl 1 _ rfl) (by decide)⟩

/-- A query in use is the last of its name, and entries went to the last query of their name. -/
structure Named (table : QueryTable) : Prop where
  latest : ∀ idx query, table.live idx = some query →
    nameToIdx table.queries query.name = some idx
  applied : ∀ entry ∈ table.applied, entry.1.2 ∈ table.pendingRestore entry.1.1 ∧
    nameToIdx table.queries entry.1.2 = some entry.2

theorem Named.addQuery (named : Named table) {name : String} {tableRefs : List String}
    (new : table.NewName (.addQuery name tableRefs)) : Named (table.addQuery name tableRefs) := by
  refine ⟨fun idx query isLive => ?_, fun entry among => ?_⟩ <;>
    rw [QueryTable.addQuery, nameToIdx_snoc]
  · by_cases before : idx < table.queries.length
    · have wasLive : table.live idx = some query := by
        rw [← isLive, live, live, QueryTable.addQuery, getElem?_append_left before]
      rw [if_neg (new.1 idx query wasLive).symm, named.latest idx query wasLive]
    · have isAdded := queries_of_live isLive
      rw [QueryTable.addQuery, getElem?_append_right (Nat.not_lt.mp before),
        getElem?_singleton] at isAdded
      obtain ⟨isLast, isQuery⟩ := Option.ite_none_right_eq_some.mp isAdded
      cases isQuery
      rw [if_pos rfl]
      congr 1
      omega
  · obtain ⟨pending, isIdx⟩ := named.applied entry among
    refine ⟨pending, ?_⟩
    rw [if_neg fun same : name = entry.1.2 => new.2 entry.1.1 (same ▸ pending), isIdx]

theorem Named.removeQuery (named : Named table) (name : String) :
    Named (table.removeQuery name) := by
  unfold QueryTable.removeQuery
  split
  · exact named
  · rename_i removed _
    have sameNames : nameAt (table.queries.modify removed ({ · with removed := true })) =
        nameAt table.queries := by
      funext idx
      rw [nameAt, nameAt, getElem?_modify, Option.map_eq_map, Option.map_map]
      refine Option.map_congr fun query _ => ?_
      split <;> rfl
    have sameIdx : nameToIdx (table.queries.modify removed ({ · with removed := true })) =
        nameToIdx table.queries := by
      funext name
      refine Option.ext fun idx => ?_
      rw [nameToIdx_eq_some_iff, nameToIdx_eq_some_iff, sameNames]
    refine ⟨fun idx query isLive => ?_, sameIdx ▸ named.applied⟩
    rw [sameIdx]
    refine named.latest idx query ?_
    obtain ⟨found, inUse⟩ := Option.filter_eq_some_iff.mp isLive
    rw [getElem?_modify] at found
    obtain ⟨before, wasFound, rfl⟩ := Option.map_eq_some_iff.mp found
    split at inUse
    · cases inUse
    · rename_i other
      rw [if_neg other]
      exact Option.filter_eq_some_iff.mpr ⟨wasFound, inUse⟩

theorem Named.step (named : Named table) (new : table.NewName event)
    (stepped : table.step event = some next) : Named next := by
  cases event with
  | addQuery name tableRefs =>
    cases stepped
    exact named.addQuery new
  | removeQuery name =>
    cases stepped
    exact named.removeQuery name
  | restoreState entries =>
    cases stepped
    refine ⟨named.latest, fun entry among => ?_⟩
    obtain ⟨kind, _, inEntries⟩ := mem_flatMap.mp among
    obtain ⟨name, isEntry, found⟩ := mem_filterMap.mp inEntries
    obtain ⟨idx, kept, rfl⟩ := Option.map_eq_some_iff.mp found
    exact ⟨isEntry, (Option.filter_eq_some_iff.mp kept).1⟩
  | beginCycle =>
    cases stepped
    exact ⟨named.latest, named.applied⟩
  | createState kind idx =>
    obtain ⟨query, isLive, rfl⟩ := Option.map_eq_some_iff.mp stepped
    unfold createState
    split
    · exact named
    · refine ⟨named.latest, fun entry among => ?_⟩
      split at among
      · rename_i restores
        rcases mem_cons.mp among with rfl | before
        · exact ⟨restores.2, named.latest idx query isLive⟩
        · exact named.applied entry before
      · exact named.applied entry among
  | compile idx =>
    obtain ⟨query, _, rfl⟩ := Option.map_eq_some_iff.mp stepped
    exact ⟨named.latest, named.applied⟩

/-- No entry is applied twice as long as names with an entry are not used again. -/
theorem appliedOnce_of_reaches (reached : queryChanges.Reaches NewName table) :
    table.AppliedOnce := by
  have named : Named table := by
    refine reached.invariant ?_ fun _ _ _ named new stepped => named.step new stepped
    rintro _ rfl
    exact ⟨nofun, forall_mem_nil _⟩
  intro entry first second isFirst isSecond
  exact Option.some.inj ((named.applied _ isFirst).2.symm.trans (named.applied _ isSecond).2)

def restored : List Event :=
  [.addQuery "a" ["trades"], .restoreState fun _ => ["a"], .createState .agg 0]

theorem appliedOnce_of_reaches_restored :
    ∃ table, queryChanges.run .new restored = some table ∧ table.AppliedOnce :=
  have added := (TransitionSystem.Reaches.initial rfl : queryChanges.Reaches NewName .new).next
    (.addQuery "a" ["trades"]) ⟨nofun, nofun⟩ rfl
  have pending := added.next (.restoreState fun _ => ["a"]) trivial rfl
  ⟨_, rfl, appliedOnce_of_reaches (pending.next (.createState .agg 0) trivial rfl)⟩

/-- A query that is removed and added again takes the entry once more. -/
theorem not_appliedOnce_again :
    ∃ table, queryChanges.run .new (restored ++
        [.removeQuery "a", .addQuery "a" ["trades"], .createState .agg 1]) = some table ∧
      ¬table.AppliedOnce :=
  ⟨_, rfl, fun once => absurd (once (.agg, "a") 0 1 (by decide) (by decide)) (by decide)⟩

end LaminarDB.Executor

import LaminarDB.Library.Maps
import LaminarDB.Library.Transition

/-!
# Dispatching notifications

`SubscriptionDispatcher` drains the notification rings in rounds while their producers push.
Every round empties the rings. What it pops after the limit of the round or of a batch is
reached is neither sent nor counted.
-/

namespace LaminarDB.Subscription

open Library List KeyedMap Function

structure NotificationRef where
  sourceId : Nat
  sequence : Nat
deriving DecidableEq

inductive SubscriptionState where
  | active
  | paused
  | cancelled
deriving DecidableEq

/-- The subscriptions by id. A subscription is listed once for its source. -/
structure SubscriptionRegistry where
  bySource : KeyedMap Nat (List Nat)
  subscriptions : KeyedMap Nat SubscriptionState
  distinct : ∀ sourceId, ((bySource.find? sourceId).getD []).Nodup

def SubscriptionRegistry.getSendersForSource (registry : SubscriptionRegistry) (sourceId : Nat) :
    List Nat :=
  ((registry.bySource.find? sourceId).getD []).filter fun id =>
    registry.subscriptions.find? id = some .active

structure DispatcherConfig where
  maxDrainPerCycle : Nat
  batchBySource : Bool
  maxBatchPerSource : Nat

inductive DispatchPoint where
  | idle
  | draining (ring : Nat)
  | dispatching

/-- A notification with the ring it was popped from. -/
abbrev Popped := Nat × NotificationRef

/-- The rings, what was pushed to them with success, the round and what it has dispatched. -/
structure Dispatcher where
  rings : Nat → List NotificationRef
  pushed : Nat → List NotificationRef
  point : DispatchPoint
  totalDrained : Nat
  batchBuffer : KeyedMap Nat (List Popped)
  dispatched : List Popped

def Dispatcher.initial : Dispatcher := ⟨fun _ => [], fun _ => [], .idle, 0, .empty, []⟩

namespace Dispatcher

variable (config : DispatcherConfig) (registry : SubscriptionRegistry) (numRings capacity : Nat)
  (dispatcher : Dispatcher) (ring : Nat) (notif : NotificationRef)

/-- A ring has one producer and one consumer: it is a queue that a push extends with its store
to `write_pos`, unless it is full, and a pop shortens with its store to `read_pos`. -/
def push : Dispatcher :=
  if (dispatcher.rings ring).length < capacity then
    { dispatcher with
      rings := update dispatcher.rings ring (dispatcher.rings ring ++ [notif])
      pushed := update dispatcher.pushed ring (dispatcher.pushed ring ++ [notif]) }
  else dispatcher

/-- A full batch stays as it is. -/
def addToBatch (batches : KeyedMap Nat (List Popped)) : KeyedMap Nat (List Popped) :=
  match batches.find? notif.sourceId with
  | some batch =>
    if batch.length < config.maxBatchPerSource then
      batches.insert notif.sourceId (batch ++ [(ring, notif)])
    else batches
  | none => batches.insert notif.sourceId [(ring, notif)]

/-- What `drain_and_dispatch` does with a notification that it has popped. -/
def receive : Dispatcher :=
  if config.maxDrainPerCycle ≤ dispatcher.totalDrained then dispatcher
  else
    let dispatcher := { dispatcher with totalDrained := dispatcher.totalDrained + 1 }
    if config.batchBySource then
      { dispatcher with batchBuffer := addToBatch config ring notif dispatcher.batchBuffer }
    else { dispatcher with dispatched := dispatcher.dispatched ++ [(ring, notif)] }

/-- One step of `drain_and_dispatch`: a pop from a ring, or the dispatch of a batch. -/
def advance : Dispatcher :=
  match dispatcher.point with
  | .idle => { dispatcher with point := .draining 0, totalDrained := 0, batchBuffer := .empty }
  | .draining ring =>
    if ring < numRings then
      match dispatcher.rings ring with
      | [] => { dispatcher with point := .draining (ring + 1) }
      | notif :: rest =>
        receive config { dispatcher with rings := update dispatcher.rings ring rest } ring notif
    else { dispatcher with point := .dispatching }
  | .dispatching =>
    match dispatcher.batchBuffer.entries with
    | [] => { dispatcher with point := .idle }
    | (sourceId, notifs) :: _ => { dispatcher with
        batchBuffer := dispatcher.batchBuffer.erase sourceId
        dispatched := dispatcher.dispatched ++ notifs }

/-- The next pop, if any, is below the limit of the round and that of the batch it joins. -/
def Fits : Prop :=
  ∀ ring < numRings, ∀ notif rest,
    dispatcher.point = .draining ring → dispatcher.rings ring = notif :: rest →
    dispatcher.totalDrained < config.maxDrainPerCycle ∧
      (config.batchBySource = true →
        ∀ batch, dispatcher.batchBuffer.find? notif.sourceId = some batch →
          batch.length < config.maxBatchPerSource)

variable (sourceId sub : Nat)

def comesFrom (popped : Popped) : Bool :=
  popped.1 = ring ∧ popped.2.sourceId = sourceId

/-- What a subscription is sent of the notifications of a source on a ring: whatever is
dispatched goes to each sender of its source. -/
def received : List Popped :=
  ((dispatcher.dispatched.flatMap fun popped =>
    (registry.getSendersForSource popped.2.sourceId).map (·, popped)).filter fun sent =>
      sent.1 = sub && comesFrom ring sourceId sent.2).map Prod.snd

def buffered : List Popped :=
  ((dispatcher.batchBuffer.find? sourceId).getD []).filter (comesFrom ring sourceId)

def among (notifs : Nat → List NotificationRef) : List Popped :=
  ((notifs ring).map (ring, ·)).filter (comesFrom ring sourceId)

/-- Every notification whose push returned true is once either sent to the subscription, in a
batch of the current round or in its ring, in the order of the pushes. -/
def Delivered : Prop :=
  ∀ ring sourceId, ∀ sub ∈ registry.getSendersForSource sourceId,
    dispatcher.received registry ring sourceId sub ++ dispatcher.buffered ring sourceId ++
        among ring sourceId dispatcher.rings = among ring sourceId dispatcher.pushed ∧
      (dispatcher.point = .idle → dispatcher.buffered ring sourceId = [])

structure Accounted : Prop where
  all : ∀ ring sourceId,
    dispatcher.dispatched.filter (comesFrom ring sourceId) ++ dispatcher.buffered ring sourceId ++
      among ring sourceId dispatcher.rings = among ring sourceId dispatcher.pushed
  keyed : ∀ sourceId batch, dispatcher.batchBuffer.find? sourceId = some batch →
    ∀ popped ∈ batch, popped.2.sourceId = sourceId
  unbatched : dispatcher.point = .idle ∨ config.batchBySource = false →
    dispatcher.batchBuffer = .empty

variable {config registry numRings capacity dispatcher ring notif sourceId sub}

theorem received_eq (active : sub ∈ registry.getSendersForSource sourceId) :
    dispatcher.received registry ring sourceId sub =
      dispatcher.dispatched.filter (comesFrom ring sourceId) := by
  have once : (registry.getSendersForSource sourceId).filter (· = sub) = [sub] := by
    have distinct : (registry.getSendersForSource sourceId).Nodup :=
      (registry.distinct sourceId).filter _
    rw [filter_eq, count_eq_one_of_mem distinct active]
    rfl
  unfold received
  induction dispatcher.dispatched with
  | nil => rfl
  | cons popped rest ih =>
    rw [flatMap_cons, filter_append, map_append, ih, filter_cons]
    by_cases comes : popped.1 = ring ∧ popped.2.sourceId = sourceId
    · simp [filter_map, comp_def, comesFrom, comes, once]
    · simp [filter_map, comp_def, comesFrom, comes]

theorem Accounted.push (accounted : dispatcher.Accounted config) :
    (dispatcher.push capacity ring notif).Accounted config := by
  unfold Dispatcher.push
  split
  · refine { accounted with all := fun other sourceId => ?_ }
    have before := accounted.all other sourceId
    by_cases same : other = ring
    · subst same
      simp only [among, update_self, map_append, filter_append] at before ⊢
      rw [← before]
      exact (append_assoc ..).symm
    · simpa [among, buffered, update_of_ne same] using before
  · exact accounted

theorem addToBatch_of_room {batches : KeyedMap Nat (List Popped)}
    (room : ∀ batch, batches.find? notif.sourceId = some batch →
      batch.length < config.maxBatchPerSource) :
    addToBatch config ring notif batches = batches.insert notif.sourceId
      ((batches.find? notif.sourceId).getD [] ++ [(ring, notif)]) := by
  unfold addToBatch
  split
  case _ batch found => simp [found, room batch found]
  case _ missing => simp [missing]

theorem Accounted.pop {rest : List NotificationRef} (accounted : dispatcher.Accounted config)
    (inRange : ring < numRings) (fits : dispatcher.Fits config numRings)
    (draining : dispatcher.point = .draining ring) (front : dispatcher.rings ring = notif :: rest) :
    (receive config { dispatcher with
      rings := update dispatcher.rings ring rest } ring notif).Accounted config := by
  obtain ⟨room, fitsBatch⟩ := fits ring inRange notif rest draining front
  have popped (other sourceId : Nat) : among other sourceId dispatcher.rings =
      [(ring, notif)].filter (comesFrom other sourceId) ++
        among other sourceId (update dispatcher.rings ring rest) := by
    by_cases same : other = ring
    · subst same
      rw [among, among, front, update_self, ← filter_append]
      rfl
    · simp [among, same, comesFrom, Ne.symm same]
  simp only [receive, Nat.not_le.mpr room, if_false]
  cases batching : config.batchBySource with
  | false =>
    have noBatch := accounted.unbatched (.inr batching)
    refine { accounted with all := fun other sourceId => ?_, unbatched := fun _ => noBatch }
    have before := accounted.all other sourceId
    rw [popped] at before
    simpa [buffered, noBatch] using before
  | true =>
    rw [if_pos rfl, addToBatch_of_room (fitsBatch batching)]
    refine ⟨fun other sourceId => ?_, fun sourceId batch found popped mem => ?_, ?_⟩
    · have before := accounted.all other sourceId
      rw [popped] at before
      simp only [buffered, find?_insert]
      by_cases same : sourceId = notif.sourceId
      · simpa [buffered, same] using before
      · simpa [buffered, same, comesFrom, Ne.symm same] using before
    · rw [find?_insert] at found
      split_ifs at found with same
      · cases found
        cases known : dispatcher.batchBuffer.find? notif.sourceId with
        | none => simp_all
        | some batch =>
          rw [known, Option.getD_some, mem_append, mem_singleton] at mem
          rcases mem with old | rfl
          · exact (accounted.keyed _ _ known _ old).trans same.symm
          · exact same.symm
      · exact accounted.keyed _ _ found popped mem
    · simp [draining, batching]

theorem Accounted.advance (accounted : dispatcher.Accounted config)
    (fits : dispatcher.Fits config numRings) :
    (dispatcher.advance config numRings).Accounted config := by
  unfold Dispatcher.advance
  split
  case _ idle =>
    refine ⟨fun ring sourceId => ?_, nofun, fun _ => rfl⟩
    have before := accounted.all ring sourceId
    rwa [buffered, accounted.unbatched (.inl idle)] at before
  case _ ring draining =>
    have moves (point : DispatchPoint) (busy : point ≠ .idle) :
        { dispatcher with point }.Accounted config :=
      { accounted with
        unbatched := fun none => accounted.unbatched (.inr (none.resolve_left busy)) }
    split_ifs with inRange
    · split
      · exact moves _ nofun
      · exact accounted.pop inRange fits draining ‹_›
    · exact moves _ nofun
  case _ dispatching =>
    split
    case _ isEmpty => exact { accounted with unbatched := fun _ => KeyedMap.ext isEmpty }
    case _ source notifs rest first =>
      have found : dispatcher.batchBuffer.find? source = some notifs :=
        find?_of_mem (by simp [first])
      refine ⟨fun ring sourceId => ?_, fun sourceId batch kept => ?_, ?_⟩
      · rw [← accounted.all ring sourceId, filter_append,
          append_assoc (dispatcher.dispatched.filter _)]
        simp only [buffered, find?_erase]
        by_cases same : sourceId = source
        · simp [same, found]
        · have others : notifs.filter (comesFrom ring sourceId) = [] :=
            filter_eq_nil_iff.mpr fun popped mem => by
              simp [comesFrom, accounted.keyed _ _ found popped mem, Ne.symm same]
          rw [others, if_neg same, nil_append]
      · rw [find?_erase] at kept
        split_ifs at kept
        exact accounted.keyed _ _ kept
      · intro empty
        rw [accounted.unbatched (.inr (empty.resolve_left (by simp [dispatching])))] at found
        cases found

end Dispatcher

inductive DispatchLabel where
  | push (ring : Nat) (notif : NotificationRef)
  | advance

open Dispatcher

def dispatches (config : DispatcherConfig) (numRings capacity : Nat) :
    TransitionSystem Dispatcher DispatchLabel where
  initial dispatcher := dispatcher = .initial
  step dispatcher
    | .push ring notif => some (dispatcher.push capacity ring notif)
    | .advance => some (dispatcher.advance config numRings)

theorem delivered_of_fits {config : DispatcherConfig} {numRings capacity : Nat}
    (registry : SubscriptionRegistry) {dispatcher : Dispatcher}
    (reached : (dispatches config numRings capacity).Reaches
      (fun dispatcher label => label = .advance → dispatcher.Fits config numRings) dispatcher) :
    dispatcher.Delivered registry := by
  have accounted : dispatcher.Accounted config := by
    refine reached.invariant ?_ fun dispatcher label next accounted fits stepped => ?_
    · rintro _ rfl
      exact ⟨fun _ _ => rfl, nofun, fun _ => rfl⟩
    · cases label with
      | push ring notif =>
        cases stepped
        exact accounted.push
      | advance =>
        cases stepped
        exact accounted.advance (fits rfl)
  intro ring sourceId sub active
  rw [received_eq active]
  refine ⟨accounted.all ring sourceId, fun idle => ?_⟩
  rw [buffered, accounted.unbatched (.inl idle)]
  rfl

def oneSubscriber : SubscriptionRegistry where
  bySource := .insert .empty 5 [0]
  subscriptions := .insert .empty 0 .active
  distinct sourceId := by
    rw [find?_insert]
    split <;> simp

theorem delivered_of_fits_one :
    ∃ dispatcher : Dispatcher, dispatcher.received oneSubscriber 0 5 0 = [(0, ⟨5, 0⟩)] ∧
      dispatcher.Delivered oneSubscriber := by
  have initially : (dispatches ⟨1, false, 1⟩ 1 8).Reaches
      (fun dispatcher label => label = .advance → dispatcher.Fits ⟨1, false, 1⟩ 1) .initial :=
    .initial rfl
  have pushed := initially.next (.push 0 ⟨5, 0⟩) nofun rfl
  have begun := pushed.next .advance (fun _ => nofun) rfl
  have popped := begun.next .advance (by rintro - _ _ _ _ ⟨⟩ ⟨⟩; exact ⟨by decide, nofun⟩) rfl
  exact ⟨_, rfl, delivered_of_fits oneSubscriber popped⟩

def twoPushes : List DispatchLabel :=
  [.push 0 ⟨5, 0⟩, .push 0 ⟨5, 1⟩, .advance, .advance, .advance]

/-- A limit of one for the round, or for a batch, costs the second notification. -/
theorem not_delivered_two :
    ∃ limited batched, (dispatches ⟨1, false, 8⟩ 1 8).run .initial twoPushes = some limited ∧
      (dispatches ⟨8, true, 1⟩ 1 8).run .initial twoPushes = some batched ∧
      ¬limited.Delivered oneSubscriber ∧ ¬batched.Delivered oneSubscriber := by
  refine ⟨_, _, rfl, rfl, ?_, ?_⟩
  · intro delivered
    exact absurd (delivered 0 5 0 (by decide)).1 (by decide)
  · intro delivered
    exact absurd (delivered 0 5 0 (by decide)).1 (by decide)

end LaminarDB.Subscription

import LaminarDB.Library.CountedRing
import LaminarDB.Library.Transition

/-!
# The multicast buffer

`MulticastBuffer` is a ring of slots between one publisher and several consumers. A slot has a
count of the consumers that still have to read it. Each load, store and decrement of `publish`
and of `consume` is a step of its own, and the steps of all threads interleave.

Counts have thirty-two bits and positions sixty-four, both of which wrap around.
-/

namespace LaminarDB.Dag

open Library Function

variable {Value : Type} {consumers : Nat} {index : Fin consumers}

structure MulticastBuffer (Value : Type) (consumers : Nat) where
  capacity : Nat
  slots : Nat → Option Value
  refcounts : Nat → Nat
  writePos : Nat
  readPositions : Fin consumers → Nat
  powerOfTwo : ∃ exponent < 64, capacity = 2 ^ exponent

namespace MulticastBuffer

/-- `MulticastBuffer::new`. It panics unless the capacity is a power of two. -/
def new (capacity : Nat) (powerOfTwo : ∃ exponent < 64, capacity = 2 ^ exponent) :
    MulticastBuffer Value consumers where
  capacity := capacity
  slots := fun _ => none
  refcounts := fun _ => 0
  writePos := 0
  readPositions := fun _ => 0
  powerOfTwo := powerOfTwo

variable (buffer : MulticastBuffer Value consumers)

theorem capacity_pos : 0 < buffer.capacity := by
  obtain ⟨exponent, -, isPower⟩ := buffer.powerOfTwo
  rw [isPower]
  exact Nat.two_pow_pos exponent

theorem wrapped_mod_capacity (position : Nat) :
    position % 2 ^ 64 % buffer.capacity = position % buffer.capacity := by
  obtain ⟨exponent, small, isPower⟩ := buffer.powerOfTwo
  rw [isPower]
  exact Nat.mod_mod_of_dvd position (Nat.pow_dvd_pow 2 small.le)

end MulticastBuffer

/-- Where the publisher is in `publish`, with the position that it has loaded. -/
inductive Publisher (Value : Type) where
  | idle
  | checking (value : Value) (pos : Nat)
  | writing (value : Value) (pos : Nat)
  | counting (value : Value) (pos : Nat)
  | advancing (value : Value) (pos : Nat)

/-- Where a consumer is in `consume`. It panics if it finds a slot empty. -/
inductive Consumer where
  | idle
  | comparing (readPos : Nat)
  | reading (readPos : Nat)
  | storing (readPos : Nat)
  | releasing (readPos : Nat)
  | panicked
deriving DecidableEq

/-- The buffer and its threads, with the values that were published and those that each consumer
has taken. -/
structure Multicast (Value : Type) (consumers : Nat) where
  buffer : MulticastBuffer Value consumers
  publisher : Publisher Value
  consumer : Fin consumers → Consumer
  published : List Value
  obtained : Fin consumers → List Value

/-- One atomic step. A call of `publish` or `consume` begins with the load of a position. -/
inductive Turn (Value : Type) (consumers : Nat) where
  | publish (value : Value)
  | publisher
  | consume (index : Fin consumers)
  | consumer (index : Fin consumers)

namespace Multicast

def start (buffer : MulticastBuffer Value consumers) : Multicast Value consumers where
  buffer := buffer
  publisher := .idle
  consumer := fun _ => .idle
  published := []
  obtained := fun _ => []

def goto (index : Fin consumers) (consumer : Consumer) (state : Multicast Value consumers) :
    Multicast Value consumers :=
  { state with consumer := update state.consumer index consumer }

variable (state : Multicast Value consumers)

/-- `publish`, behind the load of the write position. -/
def publisherStep : Option (Multicast Value consumers) :=
  let buffer := state.buffer
  match state.publisher with
  | .idle => none
  | .checking value pos =>
    if buffer.refcounts (pos % buffer.capacity) ≠ 0 then
      some { state with publisher := .idle }
    else some { state with publisher := .writing value pos }
  | .writing value pos =>
    some { state with
      buffer := { buffer with
        slots := update buffer.slots (pos % buffer.capacity) (some value) }
      publisher := .counting value pos }
  | .counting value pos =>
    some { state with
      buffer := { buffer with
        refcounts := update buffer.refcounts (pos % buffer.capacity) (consumers % 2 ^ 32) }
      publisher := .advancing value pos }
  | .advancing value pos =>
    some { state with
      buffer := { buffer with writePos := (pos + 1) % 2 ^ 64 }
      publisher := .idle
      published := state.published ++ [value] }

/-- `consume`, behind the load of the read position. -/
def consumerStep (index : Fin consumers) (state : Multicast Value consumers) :
    Option (Multicast Value consumers) :=
  let buffer := state.buffer
  match state.consumer index with
  | .idle | .panicked => none
  | .comparing readPos =>
    some (state.goto index (if readPos ≥ buffer.writePos then .idle else .reading readPos))
  | .reading readPos =>
    match buffer.slots (readPos % buffer.capacity) with
    | none => some (state.goto index .panicked)
    | some value =>
      some { state.goto index (.storing readPos) with
        obtained := update state.obtained index (state.obtained index ++ [value]) }
  | .storing readPos =>
    some { state.goto index (.releasing readPos) with
      buffer := { buffer with
        readPositions := update buffer.readPositions index ((readPos + 1) % 2 ^ 64) } }
  | .releasing readPos =>
    some { state.goto index .idle with
      buffer := { buffer with
        refcounts := update buffer.refcounts (readPos % buffer.capacity)
          ((buffer.refcounts (readPos % buffer.capacity) + (2 ^ 32 - 1)) % 2 ^ 32) } }

def step : Turn Value consumers →
    Option (Multicast Value consumers)
  | .publish value =>
    match state.publisher with
    | .idle => some { state with publisher := .checking value state.buffer.writePos }
    | _ => none
  | .publisher => state.publisherStep
  | .consume index =>
    match state.consumer index with
    | .idle => some (state.goto index (.comparing (state.buffer.readPositions index)))
    | _ => none
  | .consumer index => state.consumerStep index

end Multicast

def multicastRuns (Value : Type) (consumers : Nat) :
    TransitionSystem (Multicast Value consumers) (Turn Value consumers) where
  initial state := ∃ capacity powerOfTwo, state = .start (.new capacity powerOfTwo)
  step := Multicast.step

/-- Each consumer has obtained the first values that were published, in their order, and a slot
that is about to be written holds only values that every consumer has taken. -/
structure Lossless (state : Multicast Value consumers) : Prop where
  ordered : ∀ index, state.obtained index <+: state.published
  taken : ∀ value pos, state.publisher = .writing value pos →
    ∀ number < state.published.length,
      number % state.buffer.capacity = pos % state.buffer.capacity →
      ∀ index, number < (state.obtained index).length
  noPanic : ∀ index, state.consumer index ≠ .panicked

namespace Publisher

def loaded? : Publisher Value → Option Nat
  | .idle => none
  | .checking _ pos | .writing _ pos | .counting _ pos | .advancing _ pos => some pos

/-- How many values have a slot, of those that are published and the one that is not yet. -/
def reserved (published : Nat) : Publisher Value → Nat
  | .idle | .checking _ _ => published
  | .writing _ _ | .counting _ _ | .advancing _ _ => published + 1

def log (published : List Value) : Publisher Value → List Value
  | .idle | .checking _ _ | .writing _ _ => published
  | .counting value _ | .advancing value _ => published ++ [value]

def counted (published : Nat) : Publisher Value → Nat
  | .idle | .checking _ _ | .writing _ _ | .counting _ _ => published
  | .advancing _ _ => published + 1

theorem le_counted (publisher : Publisher Value) (published : Nat) :
    published ≤ publisher.counted published := by
  cases publisher with
  | advancing => exact Nat.le_succ published
  | _ => exact Nat.le_refl published

end Publisher

namespace Consumer

/-- How many values a consumer has released of those that it has taken. -/
def released (taken : Nat) : Consumer → Nat
  | .storing _ | .releasing _ => taken - 1
  | _ => taken

theorem released_le (consumer : Consumer) (taken : Nat) : consumer.released taken ≤ taken := by
  cases consumer with
  | storing | releasing => exact Nat.sub_le taken 1
  | _ => exact Nat.le_refl taken

def Sound (taken published readPosition : Nat) : Consumer → Prop
  | .idle => readPosition = taken
  | .comparing readPos => readPosition = taken ∧ readPos = taken
  | .reading readPos => readPos = taken ∧ taken < published ∧ taken + 1 < 2 ^ 64
  | .storing readPos => taken = readPos + 1 ∧ taken < 2 ^ 64
  | .releasing readPos => readPosition = taken ∧ taken = readPos + 1
  | .panicked => False

theorem Sound.mono {consumer : Consumer} {taken published later readPosition : Nat}
    (sound : consumer.Sound taken published readPosition) (grown : published ≤ later) :
    consumer.Sound taken later readPosition := by
  cases consumer with
  | reading readPos => exact ⟨sound.1, sound.2.1.trans_le grown, sound.2.2⟩
  | _ => exact sound

end Consumer

structure Agree (buffer : MulticastBuffer Value consumers) (publisher : Publisher Value)
    (consumer : Fin consumers → Consumer) (published : List Value)
    (obtained : Fin consumers → List Value) : Prop where
  position : buffer.writePos = published.length % 2 ^ 64
  loaded : ∀ pos ∈ publisher.loaded?, pos = published.length % 2 ^ 64
  ordered : ∀ index, obtained index <+: published
  sound : ∀ index, (consumer index).Sound (obtained index).length published.length
    (buffer.readPositions index)
  ring : CountedRing buffer.capacity buffer.slots buffer.refcounts
    (fun index => (consumer index).released (obtained index).length) (publisher.log published)
    (publisher.reserved published.length) (publisher.counted published.length)

open Agree

namespace Agree

variable {buffer : MulticastBuffer Value consumers} {publisher : Publisher Value}
  {consumer : Fin consumers → Consumer} {published : List Value}
  {obtained : Fin consumers → List Value} {value : Value} {pos : Nat}

section

variable (agree : Agree buffer publisher consumer published obtained)

include agree

theorem slot_eq (isLoaded : publisher.loaded? = some pos) :
    pos % buffer.capacity = published.length % buffer.capacity := by
  rw [agree.loaded pos isLoaded, buffer.wrapped_mod_capacity]

theorem released_le (index : Fin consumers) :
    (consumer index).released (obtained index).length ≤ published.length :=
  ((consumer index).released_le _).trans (agree.ordered index).length_le

end

theorem check (agree : Agree buffer .idle consumer published obtained) (value : Value) :
    Agree buffer (.checking value buffer.writePos) consumer published obtained := by
  refine { agree with loaded := ?_ }
  intro pos isLoaded
  cases isLoaded
  exact agree.position

section

variable (agree : Agree buffer (.checking value pos) consumer published obtained)

include agree

theorem refuse : Agree buffer .idle consumer published obtained :=
  { agree with loaded := nofun }

theorem reserve (free : buffer.refcounts (pos % buffer.capacity) = 0) :
    Agree buffer (.writing value pos) consumer published obtained := by
  rw [agree.slot_eq rfl] at free
  exact { agree with ring := agree.ring.reserve buffer.capacity_pos free }

end

theorem write (agree : Agree buffer (.writing value pos) consumer published obtained) :
    Agree { buffer with
        slots := update buffer.slots (pos % buffer.capacity) (some value) }
      (.counting value pos) consumer published obtained := by
  refine { agree with ring := ?_ }
  rw [agree.slot_eq rfl]
  exact agree.ring.write buffer.capacity_pos value

theorem count (agree : Agree buffer (.counting value pos) consumer published obtained)
    (few : consumers < 2 ^ 32) :
    Agree { buffer with
        refcounts := update buffer.refcounts (pos % buffer.capacity) (consumers % 2 ^ 32) }
      (.advancing value pos) consumer published obtained := by
  refine { agree with ring := ?_ }
  have ring := agree.ring.count List.length_append buffer.capacity_pos agree.released_le
  rw [Fintype.card_fin] at ring
  rw [agree.slot_eq rfl, Nat.mod_eq_of_lt few]
  exact ring

theorem advance (agree : Agree buffer (.advancing value pos) consumer published obtained) :
    Agree { buffer with writePos := (pos + 1) % 2 ^ 64 } .idle consumer (published ++ [value])
      obtained := by
  have longer : (published ++ [value]).length = published.length + 1 := List.length_append
  constructor
  · rw [longer, agree.loaded pos rfl, Nat.mod_add_mod]
  · exact nofun
  · exact fun index => (agree.ordered index).trans (List.prefix_append _ _)
  · exact fun index => (agree.sound index).mono (longer ▸ Nat.le_succ _)
  · rw [longer]
    exact agree.ring

section

variable (agree : Agree buffer publisher consumer published obtained)

include agree

section

variable (next : Consumer) (readPosition : Nat) {taken : List Value} (ordered : taken <+: published)
  (sound : next.Sound taken.length published.length readPosition)

include ordered sound

theorem move {counts : Nat → Nat} (ring : CountedRing buffer.capacity buffer.slots counts
      (update (fun index => (consumer index).released (obtained index).length) index
        (next.released taken.length))
      (publisher.log published) (publisher.reserved published.length)
      (publisher.counted published.length)) :
    Agree { buffer with
        refcounts := counts
        readPositions := update buffer.readPositions index readPosition }
      publisher (update consumer index next) published
      (update obtained index taken) := by
  refine ⟨agree.position, agree.loaded, ?_, ?_, ?_⟩
  · rw [forall_update_iff obtained fun _ taken => taken <+: published]
    exact ⟨ordered, fun other _ => agree.ordered other⟩
  · intro other
    by_cases isIndex : other = index
    · subst isIndex
      simp only [update_self]
      exact sound
    · simp only [update_of_ne isIndex]
      exact agree.sound other
  · convert ring using 1
    exact funext fun _ => apply_update₂ (fun _ (next : Consumer) (taken : List Value) =>
      next.released taken.length) ..

theorem goto
    (released : next.released taken.length = (consumer index).released (obtained index).length) :
    Agree { buffer with
        readPositions := update buffer.readPositions index readPosition }
      publisher (update consumer index next) published
      (update obtained index taken) := by
  apply agree.move next readPosition ordered sound
  rw [released, update_eq_self]
  exact agree.ring

end

variable {readPos : Nat}

theorem release (few : consumers < 2 ^ 32) (isAt : consumer index = .releasing readPos) :
    Agree { buffer with
        refcounts := update buffer.refcounts (readPos % buffer.capacity)
          ((buffer.refcounts (readPos % buffer.capacity) + (2 ^ 32 - 1)) % 2 ^ 32) }
      publisher (update consumer index .idle) published obtained := by
  have sound := agree.sound index
  rw [isAt] at sound
  obtain ⟨stored, taken⟩ := sound
  have released : (consumer index).released (obtained index).length = readPos := by
    rw [isAt, taken]
    rfl
  have unreleased : (consumer index).released (obtained index).length <
      publisher.counted published.length := by
    have published_le := publisher.le_counted published.length
    have taken_le := (agree.ordered index).length_le
    omega
  have isRing := agree.ring.release index unreleased
  have counted := agree.ring.counted_pos unreleased
  rw [Fintype.card_fin] at counted
  rw [released] at isRing counted
  have decremented : (buffer.refcounts (readPos % buffer.capacity) + (2 ^ 32 - 1)) % 2 ^ 32 =
      buffer.refcounts (readPos % buffer.capacity) - 1 := by
    omega
  rw [← taken] at isRing
  have moved := agree.move .idle _ (agree.ordered index) stored isRing
  rw [decremented]
  simpa only [update_eq_self] using moved

theorem turn {next : Consumer}
    (sound : next.Sound (obtained index).length published.length (buffer.readPositions index))
    (released : next.released (obtained index).length =
      (consumer index).released (obtained index).length) :
    Agree buffer publisher (update consumer index next) published obtained := by
  have moved := agree.goto next _ (agree.ordered index) sound released
  simpa only [update_eq_self] using moved

theorem take (isAt : consumer index = .reading readPos) :
    ∃ value, buffer.slots (readPos % buffer.capacity) = some value ∧
      Agree buffer publisher (update consumer index (.storing readPos)) published
        (update obtained index (obtained index ++ [value])) := by
  have sound := agree.sound index
  rw [isAt] at sound
  obtain ⟨rfl, below, small⟩ := sound
  have released : (consumer index).released (obtained index).length = (obtained index).length := by
    rw [isAt]
    rfl
  obtain ⟨rest, isRest⟩ := agree.ordered index
  cases rest with
  | nil =>
    rw [List.append_nil] at isRest
    rw [isRest] at below
    exact absurd below (Nat.lt_irrefl _)
  | cons value rest =>
    have longer : (obtained index ++ [value]).length = (obtained index).length + 1 :=
      List.length_append
    have ordered : obtained index ++ [value] <+: published := ⟨rest, by simpa using isRest⟩
    have found : (publisher.log published)[(obtained index).length]? = some value := by
      rw [← isRest]
      cases publisher <;> simp [Publisher.log]
    refine ⟨value, agree.ring.read released.le found, ?_⟩
    have moved := agree.goto (.storing (obtained index).length) (buffer.readPositions index) ordered
      ⟨longer, by omega⟩ (by rw [released, longer]; rfl)
    simpa only [update_eq_self] using moved

theorem store (isAt : consumer index = .storing readPos) :
    Agree { buffer with
        readPositions := update buffer.readPositions index ((readPos + 1) % 2 ^ 64) }
      publisher (update consumer index (.releasing readPos)) published obtained := by
  have sound := agree.sound index
  rw [isAt] at sound
  obtain ⟨taken, small⟩ := sound
  have wrapped : (readPos + 1) % 2 ^ 64 = (obtained index).length := by
    rw [← taken, Nat.mod_eq_of_lt small]
  have moved := agree.goto (.releasing readPos) _ (agree.ordered index) ⟨wrapped, taken⟩
    (by rw [isAt]; rfl)
  simpa only [update_eq_self] using moved

end

end Agree

namespace Multicast

def Sound (state : Multicast Value consumers) : Prop :=
  Agree state.buffer state.publisher state.consumer state.published state.obtained

theorem sound_start (capacity : Nat) (powerOfTwo : ∃ exponent < 64, capacity = 2 ^ exponent) :
    (start (.new capacity powerOfTwo) : Multicast Value consumers).Sound where
  position := rfl
  loaded := nofun
  ordered := fun _ => List.nil_prefix
  sound := fun _ => rfl
  ring := .empty

variable {state next : Multicast Value consumers}

section

variable (sound : state.Sound)

include sound

section

variable (few : consumers < 2 ^ 32)

include few

theorem Sound.publisherStep (stepped : state.publisherStep = some next) : next.Sound := by
  obtain ⟨buffer, publisher, consumer, published, obtained⟩ := state
  cases publisher with
  | idle => cases stepped
  | checking value pos =>
    simp only [publisherStep] at stepped
    split at stepped
    · cases stepped
      exact refuse sound
    · rename_i free
      cases stepped
      exact reserve sound (not_not.mp free)
  | writing value pos =>
    cases stepped
    exact write sound
  | counting value pos =>
    cases stepped
    exact count sound few
  | advancing value pos =>
    cases stepped
    exact advance sound

theorem Sound.consumerStep (stepped : state.consumerStep index = some next) : next.Sound := by
  simp only [Multicast.consumerStep] at stepped
  cases isAt : state.consumer index with rw [isAt] at stepped
  | idle | panicked => cases stepped
  | comparing readPos =>
    cases stepped
    have agrees := Agree.sound sound index
    rw [isAt] at agrees
    apply turn sound
    · split
      · exact agrees.1
      · rename_i behind
        rw [position sound, not_le] at behind
        rw [agrees.2] at behind ⊢
        exact ⟨rfl, by omega, by omega⟩
    · rw [isAt]
      split <;> rfl
  | reading readPos =>
    obtain ⟨value, found, agree⟩ := take sound isAt
    simp only [found] at stepped
    cases stepped
    exact agree
  | storing readPos =>
    cases stepped
    exact store sound isAt
  | releasing readPos =>
    cases stepped
    exact release sound few isAt

theorem Sound.step
    {turn : Turn Value consumers} (stepped : state.step turn = some next) : next.Sound := by
  cases turn with
  | publish value =>
    obtain ⟨buffer, publisher, consumer, published, obtained⟩ := state
    cases publisher with
    | idle =>
      cases stepped
      exact check sound value
    | _ => cases stepped
  | publisher => exact sound.publisherStep few stepped
  | consume index =>
    simp only [Multicast.step] at stepped
    split at stepped <;> cases stepped
    rename_i isIdle
    have agrees := Agree.sound sound index
    rw [isIdle] at agrees
    exact turn sound ⟨agrees, agrees⟩ (by rw [isIdle]; rfl)
  | consumer index => exact sound.consumerStep few stepped

end

theorem Sound.lossless : Lossless state where
  ordered := ordered sound
  taken := by
    intro value pos isAt number below same index
    have ring := ring sound
    have isLoaded := slot_eq sound (by rw [isAt]; rfl)
    have room := ring.room index
    have released := (state.consumer index).released_le (state.obtained index).length
    rw [isAt] at room
    rw [isLoaded] at same
    by_contra untaken
    simp only [Publisher.reserved] at room
    have equal := eq_of_mod_eq same (by omega) (by omega)
    omega
  noPanic := by
    intro index panicked
    have agrees := Agree.sound sound index
    rw [panicked] at agrees
    exact agrees

end

end Multicast

theorem lossless_of_reaches (few : consumers < 2 ^ 32) {state : Multicast Value consumers}
    (reached : (multicastRuns Value consumers).Reaches (fun _ _ => True) state) :
    Lossless state := by
  have sound : state.Sound := by
    apply reached.invariant
    · rintro _ ⟨capacity, powerOfTwo, rfl⟩
      exact Multicast.sound_start capacity powerOfTwo
    · intro _ _ _ sound _ stepped
      exact sound.step few stepped
  exact sound.lossless

def oneSlot (consumers : Nat) : Multicast Nat consumers :=
  .start (.new 1 ⟨0, by decide, rfl⟩)

theorem oneSlot_initial :
    (multicastRuns Nat consumers).Reaches (fun _ _ => True) (oneSlot consumers) :=
  .initial ⟨1, ⟨0, by decide, rfl⟩, rfl⟩

theorem lossless_of_reaches_taken : ∃ state : Multicast Nat 1, state.obtained 0 = [5] ∧
    Lossless state :=
  ⟨_, rfl, lossless_of_reaches (by decide) (oneSlot_initial.of_run (fun _ _ => trivial)
    (show (multicastRuns Nat 1).run _ [.publish 5, .publisher, .publisher, .publisher, .publisher,
      .consume 0, .consumer 0, .consumer 0] = some _ from rfl))⟩

/-- A count of 2³² consumers is cut to zero, and a slot is overwritten that nobody has read. -/
theorem not_lossless : ∃ state : Multicast Nat (2 ^ 32),
    (multicastRuns Nat (2 ^ 32)).Reaches (fun _ _ => True) state ∧ ¬Lossless state := by
  refine ⟨_, oneSlot_initial.of_run (fun _ _ => trivial)
    (show (multicastRuns Nat (2 ^ 32)).run _ [.publish 5, .publisher, .publisher, .publisher,
      .publisher, .publish 6, .publisher] = some _ from rfl), ?_⟩
  intro lossless
  exact absurd (lossless.taken 6 1 rfl 0 (by decide) rfl ⟨0, by decide⟩) (Nat.lt_irrefl 0)

end LaminarDB.Dag

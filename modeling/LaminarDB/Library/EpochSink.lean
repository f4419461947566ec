import Mathlib

/-!
# Sinks with epochs

The calls of a transactional sink and what they do to its contents. Writes inside an open epoch
become visible when the epoch is committed and are discarded when it is rolled back; writes outside
an epoch are visible at once. Of an epoch that is open when its process dies, only a prepared one is
left.
-/

namespace LaminarDB.Library

open List

universe u

inductive EpochCall (Item : Type u) where
  | write (items : List Item) (ok : Bool)
  | beginEpoch (epoch : Nat) (ok : Bool)
  | preCommit (epoch : Nat) (ok : Bool)
  | commit (epoch : Nat) (ok : Bool)
  | rollback (epoch : Nat) (ok : Bool)
deriving DecidableEq

structure OpenEpoch (Item : Type u) where
  epoch : Nat
  items : List Item
  prepared : Bool
deriving DecidableEq

structure EpochLedger (Item : Type u) where
  current : Option (OpenEpoch Item)
  visible : List Item
  committed : List Nat
deriving DecidableEq

variable {Item : Type u}

namespace EpochLedger

def empty : EpochLedger Item where
  current := none
  visible := []
  committed := []

section

variable (ledger : EpochLedger Item)

def openEpoch : Option Nat :=
  ledger.current.map OpenEpoch.epoch

def staged : List Item :=
  match ledger.current with
  | none => []
  | some current => current.items

def contents : List Item :=
  ledger.visible ++ ledger.staged

def apply : EpochCall Item → EpochLedger Item
  | .write items true =>
    match ledger.current with
    | none => { ledger with visible := ledger.visible ++ items }
    | some current =>
      { ledger with current := some { current with items := current.items ++ items } }
  | .beginEpoch epoch true =>
    { ledger with current := some { epoch, items := [], prepared := false } }
  | .preCommit epoch true =>
    match ledger.current with
    | none => ledger
    | some current =>
      if current.epoch = epoch then
        { ledger with current := some { current with prepared := true } }
      else ledger
  | .commit epoch true =>
    match ledger.current with
    | none => ledger
    | some current =>
      if current.epoch = epoch then
        { current := none
          visible := ledger.visible ++ current.items
          committed := epoch :: ledger.committed }
      else ledger
  | .rollback epoch true =>
    if ledger.openEpoch = some epoch then { ledger with current := none } else ledger
  | .write _ false => ledger
  | .beginEpoch _ false => ledger
  | .preCommit _ false => ledger
  | .commit _ false => ledger
  | .rollback _ false => ledger

def restart : EpochLedger Item :=
  { ledger with current := ledger.current.filter OpenEpoch.prepared }

/-- The transaction protocol: writes, pre-commits and commits belong to the
open epoch, a commit follows a pre-commit, and no epoch is committed twice. -/
def Allows : EpochCall Item → Prop
  | .write _ _ => ledger.current.isSome = true
  | .preCommit epoch _ => ledger.openEpoch = some epoch
  | .commit epoch _ =>
    ledger.openEpoch = some epoch ∧
      ledger.current.any OpenEpoch.prepared = true ∧ epoch ∉ ledger.committed
  | .beginEpoch _ _ => True
  | .rollback _ _ => True

end

instance (ledger : EpochLedger Item) (call : EpochCall Item) :
    Decidable (ledger.Allows call) :=
  match call with
  | .write _ _ => inferInstanceAs (Decidable (_ = true))
  | .preCommit _ _ => inferInstanceAs (Decidable (_ = some _))
  | .commit _ _ => inferInstanceAs (Decidable (_ = some _ ∧ _ = true ∧ _ ∉ _))
  | .beginEpoch _ _ => inferInstanceAs (Decidable True)
  | .rollback _ _ => inferInstanceAs (Decidable True)

def ConformsFrom : EpochLedger Item → List (EpochCall Item) → Prop
  | _, [] => True
  | ledger, call :: calls =>
    ledger.Allows call ∧ ConformsFrom (ledger.apply call) calls

instance decidableConformsFrom :
    (ledger : EpochLedger Item) → (calls : List (EpochCall Item)) →
      Decidable (ConformsFrom ledger calls)
  | _, [] => inferInstanceAs (Decidable True)
  | ledger, call :: calls =>
    @instDecidableAnd _ _ inferInstance (decidableConformsFrom (ledger.apply call) calls)

variable (ledger : EpochLedger Item) {epoch : Nat}

theorem conformsFrom_concat {calls : List (EpochCall Item)} {call : EpochCall Item} :
    ConformsFrom ledger (calls ++ [call]) ↔
      ConformsFrom ledger calls ∧ (calls.foldl apply ledger).Allows call := by
  induction calls generalizing ledger with
  | nil => simp [ConformsFrom]
  | cons first calls ih =>
    simp [ConformsFrom, ih, and_assoc]

def added : EpochCall Item → List Item
  | .write items true => items
  | _ => []

theorem apply_commit {ledger : EpochLedger Item} (isOpen : ledger.openEpoch = some epoch) :
    ledger.apply (.commit epoch true) =
      { current := none
        visible := ledger.contents
        committed := epoch :: ledger.committed } := by
  obtain ⟨current, isCurrent, isEpoch⟩ := Option.map_eq_some_iff.mp isOpen
  simp [apply, isCurrent, isEpoch, contents, staged]

variable {call : EpochCall Item}

theorem apply_visible
    (inEpoch : ∀ items ok, call = .write items ok → ledger.current.isSome = true) :
    ((ledger.apply call).visible = ledger.visible ∧
        (ledger.apply call).committed = ledger.committed) ∨
      ∃ epoch, call = .commit epoch true ∧ ledger.openEpoch = some epoch ∧
        (ledger.apply call).current = none ∧
        (ledger.apply call).visible = ledger.contents ∧
        (ledger.apply call).committed = epoch :: ledger.committed := by
  match call with
  | .write _ false | .beginEpoch _ false | .preCommit _ false | .commit _ false
  | .rollback _ false | .beginEpoch _ true => exact .inl ⟨rfl, rfl⟩
  | .write items true =>
    obtain ⟨current, isCurrent⟩ := Option.isSome_iff_exists.mp (inEpoch items true rfl)
    simp [apply, isCurrent]
  | .preCommit epoch true =>
    left
    simp only [apply]
    split
    · exact ⟨rfl, rfl⟩
    · split <;> exact ⟨rfl, rfl⟩
  | .commit epoch true =>
    by_cases isOpen : ledger.openEpoch = some epoch
    · rw [apply_commit isOpen]
      exact .inr ⟨epoch, rfl, isOpen, rfl, rfl, rfl⟩
    · left
      cases isCurrent : ledger.current with
      | none => simp [apply, isCurrent]
      | some current =>
        have different : current.epoch ≠ epoch := by
          rintro rfl
          exact isOpen (by simp [openEpoch, isCurrent])
        simp [apply, isCurrent, different]
  | .rollback epoch true =>
    left
    simp only [apply]
    split <;> exact ⟨rfl, rfl⟩

theorem open_of_apply (notBegin : ∀ other ok, call ≠ .beginEpoch other ok)
    (isOpen : (ledger.apply call).openEpoch = some epoch) :
    ledger.openEpoch = some epoch ∧
      (ledger.apply call).committed = ledger.committed ∧
      (ledger.apply call).contents = ledger.contents ++ added call := by
  match call with
  | .beginEpoch other ok => exact absurd rfl (notBegin other ok)
  | .write _ false | .preCommit _ false | .commit _ false | .rollback _ false =>
    exact ⟨isOpen, rfl, (append_nil _).symm⟩
  | .write items true =>
    cases isCurrent : ledger.current with
    | none => simp [apply, isCurrent, openEpoch] at isOpen
    | some current =>
      simp only [apply, isCurrent, openEpoch, Option.map_some] at isOpen ⊢
      exact ⟨isOpen, trivial, by simp [contents, staged, isCurrent, added]⟩
  | .preCommit other true =>
    cases isCurrent : ledger.current with
    | none => simp [apply, isCurrent, openEpoch] at isOpen
    | some current =>
      simp only [apply, isCurrent] at isOpen ⊢
      split at isOpen
      · rename_i same
        simp only [openEpoch, isCurrent, Option.map_some] at isOpen ⊢
        exact ⟨isOpen, by simp [same], by simp [same, contents, staged, isCurrent, added]⟩
      · next different => exact ⟨isOpen, by simp [different], by simp [different, added]⟩
  | .commit other true =>
    cases isCurrent : ledger.current with
    | none => simp [apply, isCurrent, openEpoch] at isOpen
    | some current =>
      simp only [apply, isCurrent] at isOpen ⊢
      split at isOpen
      · simp [openEpoch] at isOpen
      · next different => exact ⟨isOpen, by simp [different], by simp [different, added]⟩
  | .rollback other true =>
    simp only [apply] at isOpen ⊢
    split at isOpen
    · simp [openEpoch] at isOpen
    · next different => exact ⟨isOpen, by simp [different], by simp [different, added]⟩

variable (epoch : Nat)

structure ClosedBelow : Prop where
  closed : ledger.current = none
  below : ∀ earlier ∈ ledger.committed, earlier < epoch

structure OpenAt : Prop where
  isOpen : ledger.openEpoch = some epoch
  below : ∀ earlier ∈ ledger.committed, earlier < epoch

structure PreparedAt : Prop extends OpenAt ledger epoch where
  prepared : ledger.current.any OpenEpoch.prepared = true

section Protocol

variable {ledger : EpochLedger Item} {epoch}

theorem OpenAt.current (opened : ledger.OpenAt epoch) :
    ∃ current, ledger.current = some current ∧ current.epoch = epoch :=
  Option.map_eq_some_iff.mp opened.isOpen

theorem ClosedBelow.beginEpoch (closed : ledger.ClosedBelow epoch) :
    (ledger.apply (.beginEpoch epoch true)).OpenAt epoch :=
  ⟨rfl, closed.below⟩

theorem ClosedBelow.rollback (closed : ledger.ClosedBelow epoch) (other : Nat) (ok : Bool) :
    ledger.apply (.rollback other ok) = ledger := by
  cases ok with
  | false => rfl
  | true => simp [apply, openEpoch, closed.closed]

section

variable (opened : ledger.OpenAt epoch)

include opened

theorem OpenAt.allows_write {items : List Item} {ok : Bool} : ledger.Allows (.write items ok) := by
  obtain ⟨current, isCurrent, _⟩ := opened.current
  simp [Allows, isCurrent]

theorem OpenAt.write (items : List Item) (ok : Bool) :
    (ledger.apply (.write items ok)).OpenAt epoch := by
  obtain ⟨current, isCurrent, isEpoch⟩ := opened.current
  cases ok with
  | false => exact opened
  | true => exact ⟨by simp [apply, isCurrent, openEpoch, isEpoch],
      by simpa [apply, isCurrent] using opened.below⟩

theorem OpenAt.preCommit : (ledger.apply (.preCommit epoch true)).PreparedAt epoch := by
  obtain ⟨current, isCurrent, isEpoch⟩ := opened.current
  exact ⟨⟨by simp [apply, isCurrent, openEpoch, isEpoch],
    by simpa [apply, isCurrent, isEpoch] using opened.below⟩, by simp [apply, isCurrent, isEpoch]⟩

end

theorem PreparedAt.allows_commit (prepared : ledger.PreparedAt epoch) {ok : Bool} :
    ledger.Allows (.commit epoch ok) := by
  refine ⟨prepared.isOpen, prepared.prepared, ?_⟩
  intro twice
  exact Nat.lt_irrefl epoch (prepared.below epoch twice)

theorem PreparedAt.commit (prepared : ledger.PreparedAt epoch) :
    (ledger.apply (.commit epoch true)).ClosedBelow (epoch + 1) := by
  obtain ⟨current, isCurrent, isEpoch⟩ := prepared.current
  refine ⟨by simp [apply, isCurrent, isEpoch], ?_⟩
  intro earlier mem
  simp only [apply, isCurrent, isEpoch, if_true, mem_cons] at mem
  rcases mem with rfl | before
  · exact Nat.lt_succ_self _
  · exact Nat.lt_succ_of_lt (prepared.below earlier before)

end Protocol

end EpochLedger

namespace EpochCall

variable (calls : List (EpochCall Item))

def Conforms : Prop :=
  EpochLedger.ConformsFrom .empty calls

instance (calls : List (EpochCall Item)) : Decidable (Conforms calls) :=
  inferInstanceAs (Decidable (EpochLedger.ConformsFrom .empty calls))

def accepted : List (List Item) :=
  calls.filterMap fun call =>
    match call with
    | .write items true => some items
    | _ => none

def rejected : List (List Item) :=
  calls.filterMap fun call =>
    match call with
    | .write items false => some items
    | _ => none

def written : List (List Item) :=
  calls.filterMap fun call =>
    match call with
    | .write items _ => some items
    | _ => none

@[simp]
theorem rejected_append (left right : List (EpochCall Item)) :
    rejected (left ++ right) = rejected left ++ rejected right := by
  simp [rejected]

@[simp]
theorem written_append {left right : List (EpochCall Item)} :
    written (left ++ right) = written left ++ written right := by
  simp [written]

theorem accepted_of_rejected_nil {calls : List (EpochCall Item)}
    (clean : rejected calls = []) : accepted calls = written calls := by
  induction calls with
  | nil => rfl
  | cons call calls ih =>
    have split := rejected_append [call] calls
    rw [singleton_append, clean] at split
    obtain ⟨first, rest⟩ := append_eq_nil_iff.mp split.symm
    have later := ih rest
    cases call with
    | write items ok =>
      cases ok with
      | false => simp [rejected] at first
      | true =>
        simp only [accepted, written, filterMap_cons] at later ⊢
        rw [later]
    | beginEpoch | preCommit | commit | rollback => exact later

end EpochCall

end LaminarDB.Library

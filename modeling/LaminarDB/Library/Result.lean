import Mathlib

/-!
# Fallible computations over lists

`collect` applies a fallible function to the elements of a list and stops at the first
error.
-/

namespace LaminarDB.Library.Result

variable {Error Before After Source Target : Type} {result : Except Error Before}
  {after : After} {change : Before → After}

theorem map_eq_ok (mapped : result.map change = .ok after) :
    ∃ before, result = .ok before ∧ change before = after := by
  cases result with
  | error error => cases mapped
  | ok before => exact ⟨before, rfl, Except.ok.inj mapped⟩

theorem map_isOk_iff :
    (∃ after, result.map change = .ok after) ↔ ∃ before, result = .ok before := by
  cases result <;> simp [Except.map]

variable {next : Before → Except Error After}

theorem bind_eq_ok (bound : (result >>= next) = .ok after) :
    ∃ before, result = .ok before ∧ next before = .ok after := by
  cases result with
  | error error => cases bound
  | ok before => exact ⟨before, rfl, bound⟩

theorem bind_eq_ok_iff : (result >>= next) = .ok after ↔
      ∃ before, result = .ok before ∧ next before = .ok after := by
  refine ⟨bind_eq_ok, ?_⟩
  rintro ⟨before, rfl, isAfter⟩
  exact isAfter

theorem mapError_eq_ok {Other : Type} {change : Error → Other} {result : Except Error After} :
    result.mapError change = .ok after ↔ result = .ok after := by
  cases result <;> simp [Except.mapError]

def collect (convert : Source → Except Error Target) : List Source → Except Error (List Target)
  | [] => .ok []
  | source :: sources =>
    match convert source with
    | .error error => .error error
    | .ok target => (collect convert sources).map (target :: ·)

variable {convert : Source → Except Error Target} {targets : List Target} {sources : List Source}

theorem collect_eq_ok_iff :
    collect convert sources = .ok targets ↔
      List.Forall₂ (fun source target => convert source = .ok target) sources targets := by
  induction sources generalizing targets with
  | nil =>
    constructor
    · intro collected
      cases collected
      exact .nil
    · intro converted
      cases converted
      rfl
  | cons source sources ih =>
    cases first : convert source with
    | error error =>
      constructor
      · intro collected
        rw [collect, first] at collected
        cases collected
      · intro converted
        cases converted with
        | cons isFirst _ =>
          cases first.symm.trans isFirst
    | ok target =>
      rw [collect, first]
      constructor
      · intro collected
        obtain ⟨rest, isRest, rfl⟩ := map_eq_ok collected
        exact .cons first (ih.mp isRest)
      · intro converted
        cases converted with
        | cons isFirst isRest =>
          cases first.symm.trans isFirst
          rw [ih.mpr isRest]
          rfl

theorem collect_isOk_iff :
    (∃ targets, collect convert sources = .ok targets) ↔
      ∀ source ∈ sources, ∃ target, convert source = .ok target := by
  constructor
  · rintro ⟨targets, collected⟩ source among
    obtain ⟨index, bound, rfl⟩ := List.mem_iff_getElem.mp among
    obtain ⟨sized, each⟩ := List.forall₂_iff_get.mp (collect_eq_ok_iff.mp collected)
    exact ⟨_, each index bound (sized ▸ bound)⟩
  · intro each
    induction sources with
    | nil => exact ⟨[], rfl⟩
    | cons source sources ih =>
      obtain ⟨target, isTarget⟩ := each source List.mem_cons_self
      obtain ⟨targets, areTargets⟩ := ih (List.forall_mem_cons.mp each).2
      exact ⟨target :: targets, by rw [collect, isTarget, areTargets]; rfl⟩

theorem collect_append {later : List Source} (collected : collect convert sources = .ok targets) :
    collect convert (sources ++ later) = (collect convert later).map (targets ++ ·) := by
  rw [collect_eq_ok_iff] at collected
  induction collected with
  | nil => cases isLater : collect convert later <;> exact isLater
  | @cons source target sources targets isTarget _ ih =>
    rw [List.cons_append, collect, isTarget, ih]
    cases collect convert later with
    | error | ok => rfl

end LaminarDB.Library.Result

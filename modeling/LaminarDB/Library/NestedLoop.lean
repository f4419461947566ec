import Mathlib

/-!
# The nested-loop join

All pairs of two lists that match, with their multiplicities. The join of a longer list
is the join of its parts, on either side and up to the order of the pairs.
-/

namespace LaminarDB.Library

open List

variable {Left Right : Type}

def joined (matching : Left → Right → Bool) (lefts : List Left) (rights : List Right) :
    List (Left × Right) :=
  lefts.flatMap fun left => (rights.filter (matching left)).map fun right => (left, right)

variable {matching : Left → Right → Bool} {rights : List Right} {lefts : List Left}

@[simp]
theorem joined_nil_left : joined matching [] rights = [] := rfl

theorem joined_append_left {others : List Left} :
    joined matching (lefts ++ others) rights =
      joined matching lefts rights ++ joined matching others rights :=
  flatMap_append

theorem joined_append_right {others : List Right} :
    (joined matching lefts (rights ++ others)).Perm
      (joined matching lefts rights ++ joined matching lefts others) := by
  unfold joined
  simp only [filter_append, map_append]
  exact flatMap_append_perm lefts _ _ |>.symm

theorem joined_perm {lefts' : List Left} {rights' : List Right}
    (permLeft : lefts.Perm lefts') (permRight : rights.Perm rights') :
    (joined matching lefts rights).Perm (joined matching lefts' rights') :=
  (permLeft.flatMap_right _).trans
    (List.Perm.flatMap_left lefts' fun left _ => (permRight.filter (matching left)).map _)

theorem joined_congr {other : Left → Right → Bool}
    (agree : ∀ left ∈ lefts, ∀ right ∈ rights, matching left right = other left right) :
    joined matching lefts rights = joined other lefts rights :=
  flatMap_congr fun left mem =>
    congrArg (List.map _) (filter_congr (agree left mem))

theorem joined_filter_right {keep : Right → Bool}
    (kept : ∀ left ∈ lefts, ∀ right ∈ rights, matching left right = true → keep right = true) :
    joined matching lefts (rights.filter keep) = joined matching lefts rights := by
  refine flatMap_congr fun left mem => ?_
  rw [filter_filter]
  congr 1
  refine filter_congr fun right inRights => ?_
  cases isMatch : matching left right with
  | false => rfl
  | true => simp [kept left mem right inRights isMatch]

theorem joined_filter_left {keep : Left → Bool}
    (kept : ∀ left ∈ lefts, ∀ right ∈ rights, matching left right = true → keep left = true) :
    joined matching (lefts.filter keep) rights = joined matching lefts rights := by
  induction lefts with
  | nil => rfl
  | cons left lefts ih =>
    have rest := ih (forall_mem_cons.mp kept).2
    rw [filter_cons]
    split
    · exact congrArg (_ ++ ·) rest
    · rename_i dropped
      have none : rights.filter (matching left) = [] := by
        refine filter_eq_nil_iff.mpr fun right inRights isMatch => dropped ?_
        exact kept left mem_cons_self right inRights isMatch
      rw [rest, joined, joined, flatMap_cons, none, map_nil, nil_append]

theorem joined_singleton (left : Left) :
    joined matching [left] rights =
      (joined (fun right left => matching left right) rights [left]).map Prod.swap := by
  induction rights with
  | nil => rfl
  | cons right rights ih =>
    have rest : ((rights.filter (matching left)).map fun right => (left, right)) =
        (joined (fun right left => matching left right) rights [left]).map Prod.swap := by
      rw [← ih, joined, flatMap_singleton]
    rw [joined, flatMap_singleton, joined, flatMap_cons, map_append, filter_cons]
    cases isMatch : matching left right with
    | false =>
      have none : ([left].filter fun left => matching left right) = [] := by simp [isMatch]
      rw [if_neg (by simp), none]
      exact rest
    | true =>
      have one : ([left].filter fun left => matching left right) = [left] := by simp [isMatch]
      rw [if_pos rfl, one]
      exact congrArg ((left, right) :: ·) rest

theorem joined_swap :
    (joined matching lefts rights).Perm
      ((joined (fun right left => matching left right) rights lefts).map Prod.swap) := by
  induction lefts with
  | nil => simp [joined]
  | cons left lefts ih =>
    have split : ((joined (fun right left => matching left right) rights
        ([left] ++ lefts)).map Prod.swap).Perm
        ((joined (fun right left => matching left right) rights [left]).map Prod.swap ++
          (joined (fun right left => matching left right) rights lefts).map Prod.swap) := by
      rw [← map_append]
      exact joined_append_right.map Prod.swap
    rw [← singleton_append, joined_append_left, joined_singleton]
    exact (ih.append_left _).trans split.symm

end LaminarDB.Library

import Mathlib

/-!
# Filters over batches of a stream

A stream is cut into batches. A row is judged by all the rows up to the end of its own batch: it is
dropped if one of them makes it late.
-/

namespace LaminarDB.Library

open List

variable {Row : Type*} (late : Row → Row → Bool)

namespace BatchedFilter

/-- No row of `rows` makes `row` late. -/
def onTime (rows : List Row) (row : Row) : Bool := rows.all fun other => !late other row

def keepBatch (seen batch : List Row) : List Row := batch.filter (onTime late (seen ++ batch))

/-- The rows kept of a stream of batches that follows the rows `seen`. -/
def keepFrom (seen : List Row) : List (List Row) → List Row
  | [] => []
  | batch :: rest => keepBatch late seen batch ++ keepFrom (seen ++ batch) rest

def keepSingly (seen : List Row) : List Row → List Row
  | [] => []
  | row :: rest => keepBatch late seen [row] ++ keepSingly (seen ++ [row]) rest

def Settled (rows : List Row) : Prop :=
  ∀ before row behind, rows = before ++ row :: behind →
    onTime late (before ++ [row]) row = true → onTime late behind row = true

variable {late}

@[simp]
theorem onTime_append (left right : List Row) (row : Row) :
    onTime late (left ++ right) row = (onTime late left row && onTime late right row) :=
  all_append

variable {row : Row} {rows : List Row}

theorem onTime_iff : onTime late rows row = true ↔ ∀ other ∈ rows, late other row = false := by
  simp [onTime]

theorem not_onTime_iff : onTime late rows row = false ↔ ∃ other ∈ rows, late other row = true := by
  simp [onTime]

theorem keepSingly_append {seen left right : List Row} :
    keepSingly late seen (left ++ right) =
      keepSingly late seen left ++ keepSingly late (seen ++ left) right := by
  induction left generalizing seen with
  | nil => simp [keepSingly]
  | cons row left ih =>
    simp [keepSingly, ih, append_assoc]

theorem Settled.left {more : List Row} (settled : Settled late (rows ++ more)) :
    Settled late rows := by
  intro before row behind isRows arrives
  have whole := settled before row (behind ++ more) (by simp [isRows]) arrives
  rw [onTime_append, Bool.and_eq_true] at whole
  exact whole.1

theorem Settled.onTime_iff {before behind : List Row}
    (settled : Settled late rows) (isRows : rows = before ++ row :: behind) :
    onTime late rows row = onTime late (before ++ [row]) row := by
  have split : rows = (before ++ [row]) ++ behind := by simp [isRows]
  rw [split, onTime_append]
  cases arrives : onTime late (before ++ [row]) row with
  | false => rfl
  | true => rw [settled before row behind isRows arrives, Bool.and_true]

theorem Settled.filter_eq_keepSingly (settled : Settled late rows)
    {before behind : List Row} (isRows : rows = before ++ behind) :
    behind.filter (onTime late rows) = keepSingly late before behind := by
  induction behind generalizing before with
  | nil => rfl
  | cons row behind ih =>
    have rest := @ih (before ++ [row]) (by simp [isRows])
    rw [keepSingly, ← rest, keepBatch, filter_cons, filter_cons,
      settled.onTime_iff isRows, filter_nil]
    split <;> rfl

theorem Settled.keepFrom_eq_keepSingly {seen : List Row} {batches : List (List Row)}
    (settled : Settled late rows) (isRows : rows = seen ++ batches.flatten) :
    keepFrom late seen batches = keepSingly late seen batches.flatten := by
  induction batches generalizing seen with
  | nil => rfl
  | cons batch rest ih =>
    rw [flatten_cons, ← append_assoc] at isRows
    have front := (isRows ▸ settled).left
    rw [keepFrom, flatten_cons, keepSingly_append, ih isRows,
      keepBatch, front.filter_eq_keepSingly rfl]

theorem settled_of_same
    (same : ∀ left right : List (List Row), left.flatten = rows → right.flatten = rows →
      keepFrom late [] left = keepFrom late [] right) : Settled late rows := by
  intro before row behind isRows arrives
  have cuts := same [before, [row], behind] [before, row :: behind]
    (by simp [isRows]) (by simp [isRows])
  simp only [keepFrom, nil_append, append_nil] at cuts
  have tails := append_cancel_left cuts
  simp only [keepBatch, filter_cons, filter_nil, arrives, if_true,
    append_assoc, cons_append, nil_append] at tails
  by_contra notBehind
  have dropped : onTime late (before ++ row :: behind) row = false := by
    rw [show before ++ row :: behind = (before ++ [row]) ++ behind by simp, onTime_append,
      arrives, Bool.true_and]
    exact Bool.eq_false_iff.mpr notBehind
  rw [dropped] at tails
  exact cons_ne_self _ _ tails

theorem same_iff_settled :
    (∀ left right : List (List Row), left.flatten = rows → right.flatten = rows →
      keepFrom late [] left = keepFrom late [] right) ↔ Settled late rows := by
  refine ⟨settled_of_same, fun settled left right isLeft isRight => ?_⟩
  rw [settled.keepFrom_eq_keepSingly isLeft.symm, settled.keepFrom_eq_keepSingly isRight.symm,
    isLeft, isRight]

end BatchedFilter

end LaminarDB.Library

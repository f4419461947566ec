import LaminarDB.State.Window

/-!
# The rows that accumulators hold

An accumulator holds the rows with which it was updated since it was made. What merging
does is a matter of the aggregate function: it is asked that merging the state of one
accumulator into another is the same as feeding it the rows of the first.
-/

namespace LaminarDB.State

open Library Result

variable {Acc Input Row : Type} (engine : Engine Acc Input)

def AggFuncSpec.inputs (spec : AggFuncSpec Acc Input Row) (rows : List Row) : List Input :=
  (spec.filter.elim rows rows.filter).map spec.input

/-- The accumulator that is made and then updated with the chunks of rows in turn. -/
def Fed (spec : AggFuncSpec Acc Input Row) (chunks : List (List Row)) (acc : Acc) : Prop :=
  ∃ fresh, spec.create = .ok fresh ∧
    chunks.foldl (fun acc rows => (engine.update acc (spec.inputs rows)).1) fresh = acc

variable (specs : List (AggFuncSpec Acc Input Row))

abbrev AllFed (chunks : List (List Row)) (accs : List Acc) : Prop :=
  List.Forall₂ (fun spec acc => Fed engine spec chunks acc) specs accs

/-- The accumulators hold the rows: they were fed each of them once, in some order. -/
def Holds (rows : List Row) (accs : List Acc) : Prop :=
  ∃ chunks : List (List Row), chunks.flatten.Perm rows ∧ AllFed engine specs chunks accs

/-- Merging the state of an accumulator is the same as being fed its rows. -/
def MergeFeeds (spec : AggFuncSpec Acc Input Row) : Prop :=
  ∀ chunks others acc other scalars arrays merged, Fed engine spec chunks acc →
    Fed engine spec others other → engine.state other = .ok scalars →
    collect engine.toArray scalars = .ok arrays → engine.merge acc arrays = .ok merged →
    Fed engine spec (chunks ++ others) merged

variable {engine} {specs : List (AggFuncSpec Acc Input Row)} {accs : List Acc}
  {chunks : List (List Row)}

theorem Holds.of_perm {rows others : List Row}
    (holds : Holds engine specs rows accs) (perm : rows.Perm others) :
    Holds engine specs others accs := by
  obtain ⟨chunks, isRows, fed⟩ := holds
  exact ⟨chunks, isRows.trans perm, fed⟩

theorem allFed_create (created : createAccumulators specs = .ok accs) :
    AllFed engine specs [] accs := by
  refine (collect_eq_ok_iff.mp created).imp fun spec acc isCreated => ?_
  exact ⟨acc, mapError_eq_ok.mp isCreated, rfl⟩

theorem Fed.update {spec : AggFuncSpec Acc Input Row} {acc : Acc}
    (fed : Fed engine spec chunks acc) (rows : List Row) :
    Fed engine spec (chunks ++ [rows]) (engine.update acc (spec.inputs rows)).1 := by
  obtain ⟨fresh, created, rfl⟩ := fed
  exact ⟨fresh, created, by rw [List.foldl_append]; rfl⟩

theorem allFed_update {rows : List Row} {updated : List Acc} (fed : AllFed engine specs chunks accs)
    (isUpdated : updateGroupAccumulators engine rows specs accs = (updated, none)) :
    AllFed engine specs (chunks ++ [rows]) updated := by
  induction fed generalizing updated with
  | nil =>
    cases isUpdated
    exact .nil
  | @cons spec acc specs accs isFed rest ih =>
    simp only [updateGroupAccumulators] at isUpdated
    have first := isFed.update rows
    unfold AggFuncSpec.inputs at first
    split at isUpdated
    · cases isUpdated
    · rename_i result isResult
      rw [isResult] at first
      generalize isRest : updateGroupAccumulators engine rows specs accs = others at isUpdated
      obtain ⟨others, error⟩ := others
      cases isUpdated
      exact .cons first (ih isRest)

theorem allFed_merge {others : List (List Row)} {otherAccs merged : List Acc}
    (merges : ∀ spec ∈ specs, MergeFeeds engine spec) (fed : AllFed engine specs chunks accs)
    (otherFed : AllFed engine specs others otherAccs)
    (isMerged : Sessions.mergeAccs engine accs otherAccs = .ok merged) :
    AllFed engine specs (chunks ++ others) merged := by
  induction fed generalizing otherAccs merged with
  | nil =>
    cases isMerged
    exact .nil
  | @cons spec acc specs accs isFed rest ih =>
    cases otherFed with
    | @cons _ other _ otherAccs isOther areOthers =>
      obtain ⟨scalars, isState, isMerged⟩ := bind_eq_ok isMerged
      obtain ⟨arrays, areArrays, isMerged⟩ := bind_eq_ok isMerged
      obtain ⟨first, isFirst, isMerged⟩ := bind_eq_ok isMerged
      obtain ⟨remaining, areRemaining, isMerged⟩ := bind_eq_ok isMerged
      cases isMerged
      have converted : collect engine.toArray scalars = .ok arrays := by
        rw [collect_eq_ok_iff] at areArrays ⊢
        exact areArrays.imp fun _ _ isArray => mapError_eq_ok.mp isArray
      refine .cons ?_ (ih (List.forall_mem_cons.mp merges).2 areOthers areRemaining)
      exact merges spec List.mem_cons_self chunks others acc other scalars arrays first isFed
        isOther (mapError_eq_ok.mp isState) converted (mapError_eq_ok.mp isFirst)

theorem filter_any_perm {Source Item : Type} {holds : Source → Item → Bool} {items : List Item}
    {sources : List Source} (disjoint : sources.Pairwise fun left right => ∀ item ∈ items,
      holds left item = true → holds right item = false) :
    (items.filter fun item => sources.any (holds · item)).Perm
      (sources.flatMap fun source => items.filter (holds source)) := by
  induction sources with
  | nil => simp
  | cons source sources ih =>
    rw [List.pairwise_cons] at disjoint
    refine .trans ?_ ((ih disjoint.2).append_left _)
    refine (List.filter_append_perm (holds source) _).symm.trans (.of_eq ?_)
    rw [List.filter_filter, List.filter_filter]
    congr 1
    · apply List.filter_congr
      intro item _
      cases held : holds source item <;> simp [held]
    · apply List.filter_congr
      intro item mem
      cases held : holds source item with
      | false => simp [held]
      | true =>
        have elsewhere : sources.any (holds · item) = false := by
          rw [List.any_eq_false]
          intro other inSources
          exact Bool.eq_false_iff.mp (disjoint.1 other inSources item mem held)
        simp [elsewhere]

end LaminarDB.State

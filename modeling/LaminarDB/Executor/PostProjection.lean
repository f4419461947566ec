import LaminarDB.Library.Result

/-!
# The compiled projection behind a join

What an ASOF or temporal join returns goes through `SELECT items FROM tmp [WHERE p]`.
`try_compile_post_projection` takes the items out of the plan of that query, and
`apply_compiled_post_projection` evaluates them on the joined batch. Nothing looks at the
filter below the projection.
-/

namespace LaminarDB.Executor

open List Library.Result

variable {Expr PhysicalExpr Row Value Error : Type}

/-- A batch by its columns, each with its name. -/
abbrev Columns (Value : Type) := List (String × List Value)

inductive LogicalPlan (Expr : Type) where
  | projection (expr : List (Expr × String)) (input : LogicalPlan Expr)
  | subqueryAlias (input : LogicalPlan Expr)
  | filter (predicate : Expr) (input : LogicalPlan Expr)
  | tableScan

/-- The expressions of the SQL engine; a physical one has the values of the one it was created from.
-/
structure ExprEngine (Expr PhysicalExpr Row Value Error : Type) where
  value : Expr → Row → Except Error Value
  isTrue : Value → Bool
  createPhysicalExpr : Expr → Except Error PhysicalExpr
  evaluate : PhysicalExpr → List Row → Except Error (List Value)
  evaluate_eq : ∀ {expr physical}, createPhysicalExpr expr = .ok physical → ∀ rows,
    evaluate physical rows = collect (value expr) rows

/-- `SELECT items FROM tmp [WHERE p]`, every item with the name of its column. -/
structure ProjectionSql (Expr : Type) where
  items : List (Expr × String)
  selection : Option Expr
  items_ne_nil : items ≠ []

def ProjectionSql.logicalPlan (sql : ProjectionSql Expr) : LogicalPlan Expr :=
  .projection sql.items (sql.selection.elim .tableScan (.filter · .tableScan))

variable (engine : ExprEngine Expr PhysicalExpr Row Value Error)

def extractProjectionExprs : LogicalPlan Expr → Option (List (PhysicalExpr × String))
  | .projection expr _ => (collect (fun item =>
      (engine.createPhysicalExpr item.1).map (·, item.2)) expr).toOption
  | .subqueryAlias input => extractProjectionExprs input
  | _ => none

def tryCompilePostProjection (sql : ProjectionSql Expr) : Option (List (PhysicalExpr × String)) :=
  extractProjectionExprs engine sql.logicalPlan

def applyCompiledPostProjection (proj : List (PhysicalExpr × String)) (batch : List Row) :
    Except Error (Columns Value) :=
  if batch.isEmpty then .ok (proj.map fun expr => (expr.2, []))
  else collect (fun expr => (engine.evaluate expr.1 batch).map (expr.2, ·)) proj

/-- The projection of the SQL engine: the items on every row. -/
def project (items : List (Expr × String)) (rows : List Row) : Except Error (Columns Value) :=
  collect (fun item => (collect (engine.value item.1) rows).map (item.2, ·)) items

namespace ProjectionSql

variable (sql : ProjectionSql Expr)

def keeps (row : Row) : Except Error Bool :=
  sql.selection.elim (.ok true) fun predicate => (engine.value predicate row).map engine.isTrue

def kept (rows : List Row) : List Row :=
  rows.filter fun row => (sql.keeps engine row).toOption = some true

/-- The query over the registered batch: the filter, then the projection. -/
def run (rows : List Row) : Except Error (Columns Value) := do
  let _ ← collect (sql.keeps engine) rows
  project engine sql.items (sql.kept engine rows)

def Evaluates (row : Row) : Prop :=
  ∀ item ∈ sql.items, ∃ value, engine.value item.1 row = .ok value

/-- The query does not fail at the row: it is filtered out, or its items have values. -/
def Passes (row : Row) : Prop :=
  ∃ keep, sql.keeps engine row = .ok keep ∧ (keep = true → sql.Evaluates engine row)

end ProjectionSql

variable {engine} {sql : ProjectionSql Expr} {proj : List (PhysicalExpr × String)} {rows : List Row}

theorem applyCompiledPostProjection_eq
    (accepted : tryCompilePostProjection engine sql = some proj) :
    applyCompiledPostProjection engine proj rows = project engine sql.items rows := by
  have created : collect (fun item => (engine.createPhysicalExpr item.1).map (·, item.2))
      sql.items = .ok proj := by
    rw [tryCompilePostProjection, ProjectionSql.logicalPlan, extractProjectionExprs] at accepted
    cases collected : collect _ sql.items <;> rw [collected] at accepted <;> cases accepted
    rfl
  rw [collect_eq_ok_iff] at created
  unfold project
  clear accepted
  generalize sql.items = items at created
  induction created with
  | nil => cases rows <;> rfl
  | cons first _ ih =>
    obtain ⟨physical, isPhysical, rfl⟩ := map_eq_ok first
    rw [collect, ← ih, ← engine.evaluate_eq isPhysical]
    cases rows with
    | nil =>
      rw [engine.evaluate_eq isPhysical]
      rfl
    | cons => rfl

theorem project_isOk_iff : (∃ batch, project engine sql.items rows = .ok batch) ↔
    ∀ row ∈ rows, sql.Evaluates engine row := by
  simp only [project, collect_isOk_iff, map_isOk_iff]
  exact ⟨fun each row among item isItem => each item isItem row among,
    fun each item isItem row among => each row among item isItem⟩

theorem length_eq_of_project {others : List Row} {batch : Columns Value}
    (all : project engine sql.items rows = .ok batch)
    (some : project engine sql.items others = .ok batch) : others.length = rows.length := by
  obtain ⟨item, items, isItems⟩ := exists_cons_of_ne_nil sql.items_ne_nil
  rw [project, isItems, collect_eq_ok_iff] at all some
  cases all with
  | cons first _ =>
    cases some with
    | cons other _ =>
      obtain ⟨values, areValues, rfl⟩ := map_eq_ok first
      obtain ⟨_, others, same⟩ := map_eq_ok other
      cases same
      rw [(collect_eq_ok_iff.mp areValues).length_eq, (collect_eq_ok_iff.mp others).length_eq]

theorem mem_kept {row : Row} : row ∈ sql.kept engine rows ↔
    row ∈ rows ∧ sql.keeps engine row = .ok true := by
  rw [ProjectionSql.kept, mem_filter, decide_eq_true_eq]
  cases sql.keeps engine row <;> simp [Except.toOption]

theorem run_isOk_iff : (∃ batch, sql.run engine rows = .ok batch) ↔
    ∀ row ∈ rows, sql.Passes engine row := by
  simp only [ProjectionSql.run, bind_eq_ok_iff]
  simp only [exists_and_left, exists_and_right, collect_isOk_iff, project_isOk_iff]
  constructor
  · rintro ⟨decided, fine⟩ row among
    obtain ⟨keep, isKeep⟩ := decided row among
    refine ⟨keep, isKeep, ?_⟩
    rintro rfl
    exact fine row (mem_kept.mpr ⟨among, isKeep⟩)
  · intro passes
    refine ⟨fun row among => (passes row among).imp fun _ => And.left, fun row isKept => ?_⟩
    obtain ⟨among, isTrue⟩ := mem_kept.mp isKept
    obtain ⟨keep, isKeep, fine⟩ := passes row among
    exact fine (Except.ok.inj (isKeep.symm.trans isTrue))

/-- The compiled projection agrees with its query exactly on the batches whose rows all pass
the condition, and on those where an item fails on a row and the query fails as well. -/
theorem postProjection_agrees_iff (accepted : tryCompilePostProjection engine sql = some proj) :
    (∀ batch, applyCompiledPostProjection engine proj rows = .ok batch ↔
      sql.run engine rows = .ok batch) ↔
      (∀ row ∈ rows, sql.keeps engine row = .ok true) ∨
        (∃ row ∈ rows, ¬ sql.Evaluates engine row) ∧ ∃ row ∈ rows, ¬ sql.Passes engine row := by
  rw [applyCompiledPostProjection_eq accepted]
  constructor
  · intro agrees
    by_cases projects : ∃ batch, project engine sql.items rows = .ok batch
    · obtain ⟨batch, projected⟩ := projects
      obtain ⟨_, _, filtered⟩ := bind_eq_ok ((agrees batch).mp projected)
      have all := length_filter_eq_length_iff.mp (length_eq_of_project projected filtered)
      exact .inl fun row among => (mem_kept.mp (mem_filter.mpr ⟨among, all row among⟩)).2
    · have fails := projects
      rw [exists_congr agrees, run_isOk_iff] at fails
      rw [project_isOk_iff] at projects
      push Not at projects fails
      exact .inr ⟨projects, fails⟩
  · rintro (all | ⟨⟨row, among, noValue⟩, other, isOther, fails⟩) batch
    · have whole : sql.kept engine rows = rows :=
        filter_eq_self.mpr fun row among => by rw [all row among]; rfl
      obtain ⟨mask, masked⟩ := collect_isOk_iff.mpr fun row among => ⟨true, all row among⟩
      rw [ProjectionSql.run, masked, whole]
      rfl
    · exact ⟨fun projected => absurd (project_isOk_iff.mp ⟨batch, projected⟩ row among) noValue,
        fun ran => absurd (run_isOk_iff.mp ⟨batch, ran⟩ other isOther) fails⟩

/-- Expressions over rows of integers that are their own physical expressions. -/
def integers : ExprEngine (Int → Except String Int) (Int → Except String Int) Int Int String where
  value := id
  isTrue value := value = 1
  createPhysicalExpr := .ok
  evaluate := collect
  evaluate_eq created _ := by cases created; rfl

def unitPrices : ProjectionSql (Int → Except String Int) := ⟨[(.ok, "price")], some .ok, by simp⟩

theorem postProjection_agrees_iff_unit :
    tryCompilePostProjection integers unitPrices = some [(.ok, "price")] ∧
      ∀ batch, applyCompiledPostProjection integers [(.ok, "price")] [1] = .ok batch ↔
        unitPrices.run integers [1] = .ok batch :=
  ⟨rfl, (postProjection_agrees_iff rfl).mpr (.inl (by simp [unitPrices]; rfl))⟩

/-- The price 2 fails the condition and is returned by the compiled projection alone. -/
theorem not_postProjection_agrees :
    tryCompilePostProjection integers unitPrices = some [(.ok, "price")] ∧
      applyCompiledPostProjection integers [(.ok, "price")] [2] = .ok [("price", [2])] ∧
        unitPrices.run integers [2] = .ok [("price", [])] :=
  ⟨rfl, rfl, rfl⟩

end LaminarDB.Executor

import Mathlib

/-!
# Orders of a dependency graph

Kahn's algorithm over the nodes below `size`. A node is visited when all its
dependencies are; the nodes of a cycle, which are never visited, follow at the end.
Every node occurs exactly once, and without cycles after all that it depends on.
-/

namespace LaminarDB.Library.Kahn

open List Relation

variable (edges : Nat → List Nat) (size : Nat)

def inDegrees : List Nat := (range size).map fun node => (edges node).length

/-- The nodes that depend on a node, once for each of their edges to it. -/
def dependents (dependency : Nat) : List Nat :=
  (range size).flatMap fun node => replicate ((edges node).count dependency) node

/-- The degrees of the nodes are lowered one after the other; those that reach zero are
returned. -/
def relax : List Nat → List Nat → List Nat × List Nat
  | degrees, [] => (degrees, [])
  | degrees, node :: rest =>
    let lowered := degrees.modify node (· - 1)
    let (left, ready) := relax lowered rest
    (left, if lowered[node]? = some 0 then node :: ready else ready)

/-- The loop over the queue, with the order so far; no loop has more turns than there
are nodes. -/
def visit : Nat → List Nat → List Nat → List Nat → List Nat × List Nat
  | turns + 1, node :: queue, degrees, order =>
    let (left, ready) := relax degrees (dependents edges size node)
    visit turns (queue ++ ready) left (order ++ [node])
  | _, queue, _, order => (order, queue)

def visited : List Nat :=
  (visit edges size size
    ((range size).filter fun node => (inDegrees edges size)[node]? = some 0)
    (inDegrees edges size) []).1

def order : List Nat :=
  if (visited edges size).length < size then
    visited edges size ++ (range size).filter (· ∉ visited edges size)
  else visited edges size

variable {edges size}

theorem count_dependents (dependency node : Nat) :
    (dependents edges size dependency).count node =
      if node < size then (edges node).count dependency else 0 := by
  have general : ∀ nodes : List Nat, nodes.Nodup →
      (nodes.flatMap fun other => replicate ((edges other).count dependency) other).count
        node = if node ∈ nodes then (edges node).count dependency else 0 := by
    intro nodes distinct
    induction nodes with
    | nil => rfl
    | cons other nodes ih =>
      have rest := ih distinct.of_cons
      rw [flatMap_cons, count_append, rest]
      by_cases same : other = node
      · subst same
        simp [(nodup_cons.mp distinct).1]
      · simp [count_replicate, same, Ne.symm same]
  unfold dependents
  rw [general _ nodup_range]
  simp only [mem_range]

theorem relax_spec {degrees nodes : List Nat}
    (enough : ∀ node ∈ nodes, ∃ degree, degrees[node]? = some degree ∧ nodes.count node ≤ degree) :
    (∀ node, (relax degrees nodes).1[node]? =
      degrees[node]?.map fun degree => degree - nodes.count node) ∧
    ∀ node, (relax degrees nodes).2.count node =
      if 0 < nodes.count node ∧ degrees[node]? = some (nodes.count node) then 1 else 0 := by
  induction nodes generalizing degrees with
  | nil => simp [relax]
  | cons first nodes ih =>
    obtain ⟨degree, isDegree, atLeast⟩ := enough first mem_cons_self
    rw [count_cons_self] at atLeast
    have lowered : ∀ node, (degrees.modify first (· - 1))[node]? =
        if first = node then some (degree - 1) else degrees[node]? := by
      intro node
      by_cases same : first = node
      · subst same
        rw [getElem?_modify_eq, isDegree, if_pos rfl]
        rfl
      · rw [getElem?_modify_ne _ _ same, if_neg same]
    have enoughLeft : ∀ node ∈ nodes, ∃ degree,
        (degrees.modify first (· - 1))[node]? = some degree ∧ nodes.count node ≤ degree := by
      intro node mem
      rw [lowered]
      by_cases same : first = node
      · subst same
        exact ⟨degree - 1, if_pos rfl, by omega⟩
      · obtain ⟨other, isOther, atMost⟩ := enough node (mem_cons_of_mem _ mem)
        rw [count_cons_of_ne same] at atMost
        exact ⟨other, by rw [if_neg same, isOther], atMost⟩
    obtain ⟨left, ready⟩ := ih enoughLeft
    simp only [lowered] at left ready
    simp only [relax, lowered, if_true, Option.some.injEq]
    refine ⟨fun node => ?_, fun node => ?_⟩
    · rw [left]
      by_cases same : first = node
      · subst same
        rw [if_pos rfl, isDegree, count_cons_self]
        simp only [Option.map_some, Option.some.injEq]
        omega
      · rw [if_neg same, count_cons_of_ne same]
    · by_cases same : first = node
      · subst same
        have isReady := ready first
        rw [isDegree, count_cons_self]
        simp only [if_true, Option.some.injEq] at isReady ⊢
        by_cases none_left : degree - 1 = 0
        · rw [if_pos none_left, count_cons_self, isReady, if_neg (by omega), if_pos (by omega)]
        · rw [if_neg none_left, isReady]
          exact if_congr (by omega) rfl rfl
      · rw [apply_ite (count node), count_cons_of_ne same, ite_self, ready, if_neg same,
          count_cons_of_ne same]

/-- What the loop keeps: the degree of a node counts its edges to nodes that are not
visited, and nothing is left to count for a node that is visited or queued. -/
structure Progress (edges : Nat → List Nat) (size : Nat) (queue degrees order : List Nat) :
    Prop where
  distinct : (order ++ queue).Nodup
  inside : ∀ node ∈ order ++ queue, node < size
  degrees : ∀ node < size, degrees[node]? = some ((edges node).countP (· ∉ order))
  settled : ∀ node ∈ order ++ queue, ∀ dependency ∈ edges node, dependency ∈ order

theorem progress_start : Progress edges size
    ((range size).filter fun node => (inDegrees edges size)[node]? = some 0)
    (inDegrees edges size) [] where
  distinct := nodup_range.filter _
  inside := fun node mem => mem_range.mp (mem_of_mem_filter mem)
  degrees := by
    intro node inside
    simp [inDegrees, inside]
  settled := by
    intro node mem dependency isEdge
    have inside := mem_range.mp (mem_of_mem_filter mem)
    have noEdge := (mem_filter.mp mem).2
    simp only [inDegrees, getElem?_map, getElem?_range inside, Option.map_some,
      Option.some.injEq, decide_eq_true_eq, length_eq_zero_iff] at noEdge
    rw [noEdge] at isEdge
    cases isEdge

theorem countP_snoc {edges : List Nat} {order : List Nat} {node : Nat} (fresh : node ∉ order) :
    edges.countP (· ∉ order ++ [node]) + edges.count node = edges.countP (· ∉ order) := by
  induction edges with
  | nil => rfl
  | cons edge edges ih =>
    by_cases same : edge = node
    · subst same
      have visited : edge ∈ order ++ [edge] := by simp
      rw [countP_cons_of_neg (by simp [visited]), countP_cons_of_pos (by simp [fresh]),
        count_cons_self]
      omega
    · have alike : edge ∉ order ++ [node] ↔ edge ∉ order := by simp [same]
      simp only [countP_cons, count_cons_of_ne same, alike]
      omega

theorem mem_dependents {node other : Nat} :
    other ∈ dependents edges size node ↔ other < size ∧ node ∈ edges other := by
  rw [← count_pos_iff, count_dependents]
  split
  · rename_i below
    rw [count_pos_iff, and_iff_right below]
  · rename_i above
    exact ⟨fun none => absurd none (Nat.lt_irrefl 0), fun below => absurd below.1 above⟩

theorem pos_ite_iff {holds : Prop} [Decidable holds] : (0 < if holds then 1 else 0) ↔ holds := by
  split <;> simp [*]

section Visit

variable {node : Nat} {queue degrees order : List Nat}

section

variable (progress : Progress edges size (node :: queue) degrees order)

include progress

theorem Progress.relax :
    (∀ other < size, (relax degrees (dependents edges size node)).1[other]? =
      some ((edges other).countP (· ∉ order ++ [node]))) ∧
    (∀ other, other ∈ (relax degrees (dependents edges size node)).2 ↔
      (other < size ∧ node ∈ edges other) ∧ ∀ dependency ∈ edges other,
        dependency ∈ order ++ [node]) ∧
    (relax degrees (dependents edges size node)).2.Nodup := by
  have fresh : node ∉ order := fun again =>
    (nodup_append'.mp progress.distinct).2.2 again mem_cons_self
  have occurrences : ∀ other < size, (dependents edges size node).count other =
      (edges other).count node := fun other below => by rw [count_dependents, if_pos below]
  obtain ⟨left, ready⟩ := @relax_spec degrees (dependents edges size node) (by
    intro other mem
    have below := (mem_dependents.mp mem).1
    refine ⟨_, progress.degrees other below, ?_⟩
    rw [occurrences other below]
    have counted := @countP_snoc (edges other) order node fresh
    omega)
  refine ⟨fun other below => ?_, fun other => ?_, nodup_iff_count_le_one.mpr fun other => ?_⟩
  · rw [left, progress.degrees other below, occurrences other below]
    have counted := @countP_snoc (edges other) order node fresh
    simp only [Option.map_some, Option.some.injEq]
    omega
  · have isZero : (edges other).countP (· ∉ order ++ [node]) = 0 ↔
        ∀ dependency ∈ edges other, dependency ∈ order ++ [node] := by
      simp only [countP_eq_zero, decide_eq_true_eq, not_not]
    rw [← count_pos_iff, ready, pos_ite_iff, count_pos_iff, mem_dependents]
    refine and_congr_right fun ⟨below, _⟩ => ?_
    have counted := @countP_snoc (edges other) order node fresh
    rw [progress.degrees other below, occurrences other below, Option.some.injEq, ← isZero]
    omega
  · rw [ready]
    split <;> omega

theorem Progress.visit :
    Progress edges size (queue ++ (Kahn.relax degrees (dependents edges size node)).2)
      (Kahn.relax degrees (dependents edges size node)).1 (order ++ [node]) := by
  obtain ⟨left, ready, distinct⟩ := progress.relax
  have whole : order ++ [node] ++ (queue ++ (Kahn.relax degrees (dependents edges size node)).2) =
      (order ++ node :: queue) ++ (Kahn.relax degrees (dependents edges size node)).2 := by simp
  refine ⟨?_, ?_, left, ?_⟩
  · rw [whole]
    refine nodup_append'.mpr ⟨progress.distinct, distinct, fun other before isReady => ?_⟩
    have again := progress.settled other before node ((ready other).mp isReady).1.2
    exact (nodup_append'.mp progress.distinct).2.2 again mem_cons_self
  · rw [whole]
    refine forall_mem_append.mpr ⟨progress.inside, fun other isReady => ?_⟩
    exact ((ready other).mp isReady).1.1
  · rw [whole]
    refine forall_mem_append.mpr ⟨fun other before dependency isEdge => ?_, fun other isReady => ?_⟩
    · exact mem_append_left _ (progress.settled other before dependency isEdge)
    · exact ((ready other).mp isReady).2

end

/-- No node is visited before one that it depends on, and none is forgotten. -/
structure Ordered (edges : Nat → List Nat) (size : Nat) (queue degrees order : List Nat) : Prop
    extends Progress edges size queue degrees order where
  sorted : order.Pairwise fun node later => later ∉ edges node
  complete : ∀ node < size, (∀ dependency ∈ edges node, dependency ∈ order) → node ∈ order ++ queue

theorem ordered_start : Ordered edges size
    ((range size).filter fun node => (inDegrees edges size)[node]? = some 0)
    (inDegrees edges size) [] where
  toProgress := progress_start
  sorted := .nil
  complete := by
    intro node inside noEdge
    have isNil := eq_nil_iff_forall_not_mem.mpr fun edge mem => not_mem_nil (noEdge edge mem)
    exact mem_filter.mpr ⟨mem_range.mpr inside, by simp [inDegrees, inside, isNil]⟩

theorem Ordered.visit (ordered : Ordered edges size (node :: queue) degrees order) :
    Ordered edges size (queue ++ (relax degrees (dependents edges size node)).2)
      (relax degrees (dependents edges size node)).1 (order ++ [node]) where
  toProgress := ordered.toProgress.visit
  sorted := by
    refine pairwise_append.mpr ⟨ordered.sorted, pairwise_singleton _ _, ?_⟩
    intro earlier before last isLast isEdge
    rw [mem_singleton.mp isLast] at isEdge
    have again := ordered.settled earlier (mem_append_left _ before) node isEdge
    exact (nodup_append'.mp ordered.distinct).2.2 again mem_cons_self
  complete := by
    intro other inside known
    by_cases isEdge : node ∈ edges other
    · have isReady := (ordered.relax.2.1 other).mpr ⟨⟨inside, isEdge⟩, known⟩
      exact mem_append_right _ (mem_append_right _ isReady)
    · have before := ordered.complete other inside fun dependency mem =>
        (mem_append.mp (known dependency mem)).resolve_right fun isNode =>
          isEdge (mem_singleton.mp isNode ▸ mem)
      simp only [mem_append, mem_cons] at before ⊢
      tauto

end Visit

theorem visit_spec {turns : Nat} {queue degrees order : List Nat}
    (ordered : Ordered edges size queue degrees order) :
    ∃ left, Ordered edges size (visit edges size turns queue degrees order).2 left
      (visit edges size turns queue degrees order).1 ∧
      (size ≤ order.length + turns → (visit edges size turns queue degrees order).2 = []) := by
  induction turns generalizing queue degrees order with
  | zero =>
    refine ⟨degrees, ordered, fun all => ?_⟩
    have bounded := (subperm_of_subset ordered.distinct
      (fun node mem => mem_range.mpr (ordered.inside node mem))).length_le
    rw [length_append, length_range] at bounded
    exact length_eq_zero_iff.mp (show queue.length = 0 by omega)
  | succ turns ih =>
    cases queue with
    | nil => exact ⟨degrees, ordered, fun _ => rfl⟩
    | cons node queue =>
      obtain ⟨left, further, emptied⟩ := ih ordered.visit
      refine ⟨left, further, fun all => emptied ?_⟩
      rw [length_append, length_singleton]
      omega

theorem visited_spec : ∃ left, Ordered edges size [] left (visited edges size) := by
  obtain ⟨left, ordered, emptied⟩ := @visit_spec edges size size _ _ _ ordered_start
  rw [emptied (Nat.le_add_left _ _)] at ordered
  exact ⟨left, ordered⟩

theorem order_perm : (order edges size).Perm (range size) := by
  obtain ⟨left, ordered⟩ := @visited_spec edges size
  have distinct := (nodup_append'.mp ordered.distinct).1
  have known : visited edges size ⊆ range size := fun node mem =>
    mem_range.mpr (ordered.inside node (mem_append_left _ mem))
  unfold order
  split
  · refine (perm_ext_iff_of_nodup ?_ nodup_range).mpr fun node => ?_
    · refine nodup_append'.mpr ⟨distinct, nodup_range.filter _, ?_⟩
      intro node before missing
      exact of_decide_eq_true (mem_filter.mp missing).2 before
    · simp only [mem_append, mem_filter, decide_eq_true_eq]
      refine ⟨fun either => either.elim (fun before => known before) And.left, fun isNode => ?_⟩
      by_cases before : node ∈ visited edges size
      · exact .inl before
      · exact .inr ⟨isNode, before⟩
  · rename_i complete
    refine (subperm_of_subset distinct known).perm_of_length_le ?_
    rw [length_range]
    exact Nat.not_lt.mp complete

/-- Without cycles no node stands before one that it depends on. -/
theorem sorted_order (inside : ∀ node < size, ∀ dependency ∈ edges node, dependency < size)
    (acyclic : ∀ node, ¬TransGen (fun dependency node => dependency ∈ edges node) node node) :
    (order edges size).Pairwise fun node later => later ∉ edges node := by
  obtain ⟨left, ordered⟩ := @visited_spec edges size
  have : Std.Irrefl (TransGen fun dependency node => dependency ∈ edges node) := ⟨acyclic⟩
  have : IsStrictOrder Nat (TransGen fun dependency node => dependency ∈ edges node) := {}
  have rounds : {node | node < size}.WellFoundedOn
      (TransGen fun dependency node => dependency ∈ edges node) :=
    (Set.finite_lt_nat size).wellFoundedOn
  have all : ∀ node < size, node ∈ visited edges size := fun node below =>
    rounds.induction below fun node below ih => by
      have isVisited := ordered.complete node below fun dependency isEdge =>
        ih dependency (inside node below dependency isEdge) (.single isEdge)
      rwa [append_nil] at isVisited
  have long := (subperm_of_subset nodup_range fun node mem => all node (mem_range.mp mem)).length_le
  rw [length_range] at long
  rw [order, if_neg (Nat.not_lt.mpr long)]
  exact ordered.sorted

end LaminarDB.Library.Kahn

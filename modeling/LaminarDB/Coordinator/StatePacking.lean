import LaminarDB.Coordinator.Recovery

/-!
# Packed operator states

`pack_operator_states` appends each state that does not fit into the manifest to the sidecar, and
`resolve_external_states` reads it back from there.
-/

namespace LaminarDB.Coordinator

open Storage List

/-- `base64`, of which a manifest in the model holds the decoded bytes. -/
structure Base64 where
  encode : Bytes → String
  decode : String → Option Bytes
  /-- What was encoded is decoded as it was. -/
  roundTrip : ∀ bytes, decode (encode bytes) = some bytes

def decodeInline (base64 : Base64) (state : OperatorCheckpoint) : Option Bytes :=
  state.stateB64.bind fun bytes => base64.decode (base64.encode bytes)

@[simp]
theorem decodeInline_inlined {base64 : Base64} {bytes : Bytes} :
    decodeInline base64 (.inlined bytes) = some bytes :=
  base64.roundTrip bytes

def EndsBefore (first second : String × OperatorCheckpoint) : Prop :=
  first.2.external = true → second.2.external = true →
    first.2.externalOffset + first.2.externalLength ≤ second.2.externalOffset

/-- States that have been packed are resolved from the sidecar, also after it has grown. -/
structure Packed (states : List (String × Bytes))
    (packed : List (String × OperatorCheckpoint) × Bytes) : Prop where
  resolves : ∀ more,
    packed.1.map (fun entry => (entry.1, resolveState (packed.2 ++ more) entry.2)) =
      states.map fun state => (state.1, .inlined state.2, true)
  inside : ∀ entry ∈ packed.1, entry.2.external = true → 0 < entry.2.externalLength ∧
    entry.2.externalOffset + entry.2.externalLength ≤ packed.2.length
  ordered : packed.1.Pairwise EndsBefore

variable {states : List (String × Bytes)} {threshold : Nat}

theorem Packed.append {packed : List (String × OperatorCheckpoint) × Bytes} {blob : Bytes}
    {checkpoint : OperatorCheckpoint} {state : String × Bytes} (before : Packed states packed)
    (resolves : ∀ more,
      resolveState (packed.2 ++ (blob ++ more)) checkpoint = (.inlined state.2, true))
    (placed : checkpoint.external = true → checkpoint.externalOffset = packed.2.length ∧
      checkpoint.externalLength = blob.length ∧ 0 < blob.length) :
    Packed (states ++ [state]) (packed.1 ++ [(state.1, checkpoint)], packed.2 ++ blob) where
  resolves more := by
    rw [map_append, map_append, append_assoc, before.resolves, map_singleton, resolves]
    rfl
  inside := by
    simp only [forall_mem_append, forall_mem_singleton, length_append]
    refine ⟨fun entry among isExternal => ?_, fun isExternal => ?_⟩
    · have inside := before.inside entry among isExternal
      omega
    · have := placed isExternal
      omega
  ordered := by
    refine pairwise_append.mpr ⟨before.ordered, pairwise_singleton _ _, ?_⟩
    rintro entry among _ isLast isExternal
    cases mem_singleton.mp isLast
    intro lastExternal
    exact (placed lastExternal).1 ▸ (before.inside entry among isExternal).2

theorem packed_foldl : Packed states (states.foldl (packOperatorState threshold) ([], [])) := by
  induction states using reverseRecOn with
  | nil => exact ⟨fun _ => rfl, forall_mem_nil _, .nil⟩
  | append_singleton states state ih =>
    rw [foldl_append, foldl_cons, foldl_nil, packOperatorState, OperatorCheckpoint.fromBytes]
    by_cases fits : state.2.length ≤ threshold
    · rw [if_pos fits]
      exact ih.append (fun _ => rfl) (absurd · Bool.false_ne_true)
    · rw [if_neg fits]
      refine ih.append (fun more => ?_) fun _ => ⟨rfl, rfl, Nat.zero_lt_of_lt (Nat.not_le.mp fits)⟩
      simp [resolveState, OperatorCheckpoint.externalAt]

/-- What is packed is resolved from the sidecar and decoded as it was, and the ranges of the
states lie in the sidecar one behind the other. -/
theorem packed_states_resolved (base64 : Base64) (states : List (String × Bytes))
    (threshold : Nat) (manifest : CheckpointManifest) (store : StoreReads) :
    let (checkpoints, sidecar) := packOperatorStates states threshold
    (∃ resolved, resolveExternalStates { store with loadStateData := fun _ => .ok sidecar }
        { manifest with operatorStates := checkpoints } = some (resolved, true) ∧
      (resolved.operatorStates.map fun entry => (entry.1, decodeInline base64 entry.2)) =
        states.map fun state => (state.1, some state.2)) ∧
      (∀ entry ∈ checkpoints, entry.2.external = true → ∃ bytes, sidecar = some bytes ∧
        entry.2.externalOffset + entry.2.externalLength ≤ bytes.length) ∧
      checkpoints.Pairwise EndsBefore := by
  have packed := @packed_foldl states threshold
  simp only [packOperatorStates]
  generalize states.foldl (packOperatorState threshold) ([], []) = result at packed
  obtain ⟨checkpoints, sidecar⟩ := result
  have decoded := congrArg
    (map fun entry => (entry.1, decodeInline base64 entry.2.1)) (packed.resolves [])
  simp only [append_nil, map_map, Function.comp_def, decodeInline_inlined] at decoded
  have written : ∀ entry ∈ checkpoints, entry.2.external = true →
      (if sidecar.isEmpty then none else some sidecar) = some sidecar := by
    intro entry among isExternal
    refine if_neg fun isEmpty => ?_
    have inside := packed.inside entry among isExternal
    rw [isEmpty_iff.mp isEmpty, length_nil] at inside
    omega
  refine ⟨?_, fun entry among isExternal => ⟨sidecar, written entry among isExternal,
    (packed.inside entry among isExternal).2⟩, packed.ordered⟩
  obtain ⟨resolved, isResolved⟩ := @resolveExternalStates_of_resolves
    { store with loadStateData := fun _ => .ok (if sidecar.isEmpty then none else some sidecar) }
    { manifest with operatorStates := checkpoints } fun entry among isExternal =>
      ⟨sidecar, congrArg Except.ok (written entry among isExternal),
        (packed.inside entry among isExternal).2⟩
  refine ⟨resolved, isResolved, Eq.trans ?_ decoded⟩
  unfold resolveExternalStates at isResolved
  split at isResolved
  · rename_i someExternal
    obtain ⟨entry, among, isExternal⟩ := any_eq_true.mp someExternal
    simp only [written entry among isExternal] at isResolved
    split at isResolved
    · cases isResolved
    · cases (Prod.mk.inj (Option.some.inj isResolved)).1
      simp only [map_map]
      rfl
  · rename_i noneExternal
    cases isResolved
    refine map_congr_left fun entry among => ?_
    have isInline : ¬entry.2.external = true := fun isExternal =>
      noneExternal (any_eq_true.mpr ⟨entry, among, isExternal⟩)
    rw [resolveState, if_neg isInline]

end LaminarDB.Coordinator

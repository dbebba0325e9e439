import AlloyPort.Context.Store
import Mathlib.Data.List.Perm.Subperm

/-! The calls of a decoded turn and the results that are appended for them: the loops that go through either with the
identities they have met, and when what they let through fits together. -/

namespace AlloyPort.Codec

/-- The errors of a codec that calls and results can meet. -/
inductive CallError where
  | codec (error : CodecError)
  | emptyToolName
  | unknownTool (name : String)
  | emptyToolResult (id : String)
  | toolResultMismatch

def ensureBound (field : String) (actual maximum : Nat) : Except CallError Unit :=
  if actual > maximum then .error (.codec (.limitExceeded field actual maximum)) else .ok ()

/-- A loop that checks each item and keeps it, unless one with its identity has been kept. -/
def keepDistinct {α : Type} (id : α → String) (check : α → Except CallError Unit) (repeated : String → CallError) :
    List α → List α → Except CallError (List α)
  | [], kept => .ok kept
  | item :: items, kept => do
    check item
    if id item ∈ kept.map id then .error (repeated (id item))
    else keepDistinct id check repeated items (kept ++ [item])

def checkCall (offered : List String) (limits : CodecLimits) (call : GatewayToolCall) : Except CallError Unit :=
  if isBlank call.nativeCallId then .error (.codec .emptyCallId)
  else if isBlank call.name then .error .emptyToolName
  else if call.name ∉ offered then .error (.unknownTool call.name)
  else ensureBound "tool arguments" call.rawArguments.length limits.maxToolArgumentBytes

def validateCalls (calls : List GatewayToolCall) (offered : List String) (limits : CodecLimits) :
    Except CallError (List String) := do
  ensureBound "tool calls" calls.length limits.maxToolCalls
  let kept ← keepDistinct (·.nativeCallId) (checkCall offered limits) (fun id => .codec (.duplicateCallId id)) calls []
  return kept.map (·.nativeCallId)

def checkResult (pending : List String) (limits : CodecLimits) (result : OwnedToolResult) : Except CallError Unit := do
  if result.output = "" then .error (.emptyToolResult result.nativeCallId)
  ensureBound "tool result" result.output.utf8ByteSize limits.maxToolResultBytes
  if result.nativeCallId ∉ pending then .error .toolResultMismatch

def correlateResults (continuation : NativeContinuation) (results : List OwnedToolResult) (limits : CodecLimits) :
    Except CallError (List OwnedToolResult) :=
  if continuation.pendingCallIds.length ≠ results.length then .error .toolResultMismatch
  else keepDistinct (·.nativeCallId) (checkResult continuation.pendingCallIds limits) (fun _ =>
    .toolResultMismatch) results []

/-- `correlated[call_id]`, which panics where the call has no result. -/
def outputOf (correlated : List OwnedToolResult) (id : String) : Option String :=
  (correlated.find? (·.nativeCallId = id)).map (·.output)

variable {limits : CodecLimits} {results correlated : List OwnedToolResult}

theorem ensureBound_ok_iff {field : String} {actual maximum : Nat} {u : Unit} :
    ensureBound field actual maximum = .ok u ↔ actual ≤ maximum := by
  unfold ensureBound
  split_ifs with h <;> simpa using h

theorem keepDistinct_ok_iff {α : Type} {id : α → String} {check : α → Except CallError Unit}
    {repeated : String → CallError} {items kept all : List α} : keepDistinct id check repeated items kept = .ok all ↔
      (∀ item ∈ items, check item = .ok () ∧ id item ∉ kept.map id) ∧ (items.map id).Nodup ∧ all = kept ++ items := by
  induction items generalizing kept with
  | nil => simp [keepDistinct, eq_comm]
  | cons item items ih =>
    simp only [keepDistinct, Effect.bind_eq_ok, List.forall_mem_cons, List.map_cons, List.nodup_cons]
    by_cases hmem : id item ∈ kept.map id
    · simp [hmem]
    · simp only [if_neg hmem, ih, List.map_append, List.map_cons, List.map_nil, List.mem_append, List.mem_singleton]
      grind

/-- The calls of a turn are let through just where each is a call of an offered tool within the bounds and no two have
the same identity. -/
theorem validateCalls_ok_iff {calls : List GatewayToolCall} {offered ids : List String} :
    validateCalls calls offered limits = .ok ids ↔ calls.length ≤ limits.maxToolCalls ∧
      (∀ call ∈ calls, isBlank call.nativeCallId = false ∧ isBlank call.name = false ∧ call.name ∈ offered ∧
        call.rawArguments.length ≤ limits.maxToolArgumentBytes) ∧
          (calls.map (·.nativeCallId)).Nodup ∧ calls.map (·.nativeCallId) = ids := by
  have hcall (call : GatewayToolCall) : checkCall offered limits call = .ok () ↔ isBlank call.nativeCallId = false ∧
      isBlank call.name = false ∧ call.name ∈ offered ∧ call.rawArguments.length ≤ limits.maxToolArgumentBytes := by
    unfold checkCall
    split_ifs <;> simp_all [ensureBound_ok_iff]
  simp only [validateCalls, Effect.bind_eq_ok, ensureBound_ok_iff, keepDistinct_ok_iff, hcall]
  simp [Pure.pure, Except.pure, and_assoc]

theorem checkResult_ok_iff {pending : List String} {result : OwnedToolResult} :
    checkResult pending limits result = .ok () ↔
    (result.output ≠ "" ∧ result.output.utf8ByteSize ≤ limits.maxToolResultBytes) ∧ result.nativeCallId ∈ pending := by
  unfold checkResult
  split_ifs <;> simp_all [Effect.bind_eq_ok, ensureBound_ok_iff, Pure.pure, Except.pure]

theorem outputOf_result (hnodup : (results.map (·.nativeCallId)).Nodup) : ∀ result ∈ results,
    outputOf results result.nativeCallId = some result.output := by
  induction results with
  | nil => simp
  | cons other results ih =>
    obtain ⟨hother, hrest⟩ := List.nodup_cons.mp hnodup
    intro result h
    rcases List.mem_cons.mp h with rfl | h
    · simp [outputOf]
    · have hne : other.nativeCallId ≠ result.nativeCallId := fun heq => hother (List.mem_map.mpr ⟨result, h, heq.symm⟩)
      simpa [outputOf, hne] using ih hrest result h

/-- Results are let through just where every pending call has one of its own and no other call has any; each is then
found under its call. -/
theorem correlateResults_ok_iff (continuation : NativeContinuation) :
    correlateResults continuation results limits = .ok correlated ↔
      (∀ result ∈ results, result.output ≠ "" ∧ result.output.utf8ByteSize ≤ limits.maxToolResultBytes) ∧
        (results.map (·.nativeCallId)).Perm continuation.pendingCallIds ∧ continuation.pendingCallIds.Nodup ∧
          correlated = results ∧ ∀ result ∈ results, outputOf correlated result.nativeCallId = some result.output := by
  unfold correlateResults
  constructor
  · intro h
    split_ifs at h with hlength
    obtain ⟨hall, hnodup, rfl⟩ := keepDistinct_ok_iff.mp h
    simp only [checkResult_ok_iff] at hall
    have hpending : correlated.map (·.nativeCallId) ⊆ continuation.pendingCallIds := by
      intro id hid
      obtain ⟨result, hresult, rfl⟩ := List.mem_map.mp hid
      exact (hall result hresult).1.2
    have hperm := (hnodup.subperm hpending).perm_of_length_le (by simp [not_not.mp hlength])
    exact ⟨fun result hresult => (hall result hresult).1.1, hperm, hperm.nodup_iff.mp hnodup, rfl,
      outputOf_result hnodup⟩
  · rintro ⟨hall, hperm, hnodup, rfl, _⟩
    have hlength : continuation.pendingCallIds.length = correlated.length := by simpa using hperm.length_eq.symm
    rw [if_neg (not_not.mpr hlength), keepDistinct_ok_iff]
    refine ⟨fun result hresult => ⟨checkResult_ok_iff.mpr ?_, by simp⟩, hperm.nodup_iff.mpr hnodup, rfl⟩
    exact ⟨hall result hresult, hperm.mem_iff.mp (List.mem_map_of_mem hresult)⟩

end AlloyPort.Codec

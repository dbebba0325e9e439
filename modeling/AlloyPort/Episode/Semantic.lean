import AlloyPort.Episode.Record
import AlloyPort.Library.Framing

/-! What is hashed of a semantic turn, and what can be read back from it. -/

namespace AlloyPort

open Framing

/-- What `digest_semantic_turn` hashes. -/
def GatewayTurn.preimage (turn : GatewayTurn) : List UInt8 :=
  let text (t : String) := pushLen (utf8 t).length ++ utf8 t
  utf8 "alloyport-semantic-turn-v1" ++ turn.narrative.flatMap text ++
    turn.toolCalls.flatMap (fun call => text call.nativeCallId ++ text call.name ++
      (pushLen call.rawArguments.length ++ call.rawArguments)) ++ utf8 turn.stopReason.debug

theorem digestSemanticTurn_eq [Sha256] (turn : GatewayTurn) :
    digestSemanticTurn turn = Sha256.digestBytes turn.preimage :=
  rfl

def pushText (bytes : List UInt8) : List UInt8 := pushLen bytes.length ++ bytes

def GatewayToolCall.texts (call : GatewayToolCall) : List (List UInt8) :=
  [utf8 call.nativeCallId, utf8 call.name, call.rawArguments]

def GatewayTurn.texts (turn : GatewayTurn) : List (List UInt8) :=
  turn.narrative.map utf8 ++ turn.toolCalls.flatMap GatewayToolCall.texts

theorem calls_pushed (calls : List GatewayToolCall) :
    (calls.flatMap GatewayToolCall.texts).flatMap pushText = calls.flatMap fun call => pushText
      (utf8 call.nativeCallId) ++ pushText (utf8 call.name) ++ pushText call.rawArguments := by
  rw [List.flatMap_assoc]
  congr 1
  funext call
  simp only [GatewayToolCall.texts, List.flatMap_cons, List.flatMap_nil, List.append_nil, List.append_assoc]

theorem GatewayTurn.preimage_eq (turn : GatewayTurn) :
    turn.preimage =
      utf8 "alloyport-semantic-turn-v1" ++ (turn.texts.flatMap pushText ++ utf8 turn.stopReason.debug) := by
  rw [texts, List.flatMap_append, List.flatMap_map, calls_pushed, ← List.append_assoc, ← List.append_assoc]
  rfl

theorem pushLen_eq {n : Nat} (h : n < 256 ^ 8) : pushLen n = beBytes 8 n := by
  have hlt : n < 2 ^ 64 := h
  rw [beBytes_eq_map, pushLen, if_pos hlt]

theorem pushLen_length (n : Nat) : (pushLen n).length = 8 := rfl

/-- A list of texts that fits into memory is hashed in frames. -/
theorem pushed_eq_frames {l : List (List UInt8)} (h : Addressable (l.flatMap pushText)) :
    l.flatMap pushText = l.flatMap frame := by
  induction l with
  | nil => rfl
  | cons text texts ih =>
    unfold Addressable at h ih
    rw [List.flatMap_cons, List.length_append, pushText, List.length_append, pushLen_length] at h
    rw [List.flatMap_cons, List.flatMap_cons, ih (by omega), pushText, pushLen_eq (by omega), frame]

theorem debug_ends (reason : NormalizedStopReason) : Ends (utf8 reason.debug) := by
  have hhead : ∃ byte rest, utf8 reason.debug = byte :: rest ∧ byte ≠ 0 ∧ rest.length < 100 := by
    cases reason <;> exact ⟨_, _, rfl, by decide, by decide⟩
  obtain ⟨byte, rest, heq, hbyte, hlength⟩ := hhead
  rw [heq]
  refine ends_of_head hbyte ?_
  unfold Fits
  rw [List.length_cons]
  omega

theorem NormalizedStopReason.debug_inj {reason reason' : NormalizedStopReason} (h : reason.debug = reason'.debug) :
    reason = reason' := by
  revert h
  cases reason <;> cases reason' <;> decide

theorem calls_inj {calls calls' : List GatewayToolCall}
    (h : calls.flatMap GatewayToolCall.texts = calls'.flatMap GatewayToolCall.texts) : calls = calls' := by
  induction calls generalizing calls' with
  | nil =>
    cases calls' with
    | nil => rfl
    | cons call' rest' => cases h
  | cons call rest ih =>
    cases calls' with
    | nil => cases h
    | cons call' rest' =>
      obtain ⟨id, name, arguments⟩ := call
      obtain ⟨id', name', arguments'⟩ := call'
      simp only [List.flatMap_cons, GatewayToolCall.texts, List.cons_append, List.nil_append, List.cons.injEq] at h
      rw [utf8_inj h.1, utf8_inj h.2.1, h.2.2.1, ih h.2.2.2]

theorem utf8_map_inj {l l' : List String} (h : l.map utf8 = l'.map utf8) : l = l' :=
  List.map_injective_iff.mpr (fun _ _ => utf8_inj) h

/-- Turns that are hashed alike have the same texts in the same order and stop for the same reason. -/
theorem turn_preimages_agree {turn turn' : GatewayTurn} (hsize : Addressable turn.preimage)
    (h : turn.preimage = turn'.preimage) : turn.texts = turn'.texts ∧ turn.stopReason = turn'.stopReason := by
  have hsize' : Addressable turn'.preimage := h ▸ hsize
  rw [GatewayTurn.preimage_eq] at h hsize
  rw [GatewayTurn.preimage_eq] at h hsize'
  have hbehind := List.append_cancel_left h
  unfold Addressable at hsize hsize'
  simp only [List.length_append] at hsize hsize'
  have hpushed : Addressable (turn.texts.flatMap pushText) := by
    unfold Addressable
    omega
  have hpushed' : Addressable (turn'.texts.flatMap pushText) := by
    unfold Addressable
    omega
  rw [pushed_eq_frames hpushed] at hbehind hsize
  rw [pushed_eq_frames hpushed'] at hbehind
  have hframes : Addressable (turn.texts.flatMap frame ++ utf8 turn.stopReason.debug) := by
    unfold Addressable
    rw [List.length_append]
    omega
  obtain ⟨htexts, hreason⟩ := frames_end_inj hframes (debug_ends _) (debug_ends _) hbehind
  exact ⟨htexts, NormalizedStopReason.debug_inj (utf8_inj hreason)⟩

/-- Turns that are hashed alike are the same just when they have equally many narrative texts. -/
theorem turn_preimages_identify {turn turn' : GatewayTurn} (hsize : Addressable turn.preimage)
    (h : turn.preimage = turn'.preimage) :
    turn.narrative = turn'.narrative ∧ turn.toolCalls = turn'.toolCalls ∧ turn.stopReason = turn'.stopReason ↔
      turn.narrative.length = turn'.narrative.length := by
  obtain ⟨htexts, hreason⟩ := turn_preimages_agree hsize h
  constructor
  · intro hsame
    rw [hsame.1]
  · intro hlength
    have hsame : (turn.narrative.map utf8).length = (turn'.narrative.map utf8).length := by
      rw [List.length_map, List.length_map, hlength]
    obtain ⟨hnarrative, hcalls⟩ := List.append_inj htexts hsame
    exact ⟨utf8_map_inj hnarrative, calls_inj hcalls, hreason⟩

def readCall : GatewayToolCall := ⟨"c1", "read", utf8 "\x7b\x7d"⟩

def writeCall : GatewayToolCall := ⟨"c2", "write", utf8 "\x7b\x7d"⟩

def callingTurn : GatewayTurn := ⟨[], [readCall, writeCall], .toolCalls, none⟩

def tellingTurn : GatewayTurn := ⟨["c1", "read", "\x7b\x7d"], [writeCall], .toolCalls, none⟩

theorem callingTurn_preimage : callingTurn.preimage = tellingTurn.preimage := by decide +kernel

theorem callingTurn_addressable : Addressable callingTurn.preimage := by
  have hlength : callingTurn.preimage.length < 1000 := by decide +kernel
  exact Nat.lt_trans hlength (by decide)

theorem turn_preimages_sample :
    callingTurn.narrative = tellingTurn.narrative ∧ callingTurn.toolCalls = tellingTurn.toolCalls ∧
      callingTurn.stopReason = tellingTurn.stopReason ↔ callingTurn.narrative.length = tellingTurn.narrative.length :=
  turn_preimages_identify callingTurn_addressable callingTurn_preimage

/-- A call may be told as narrative. -/
theorem turn_preimages_collide : callingTurn.validate = .ok () ∧ tellingTurn.validate = .ok () ∧
    callingTurn.preimage = tellingTurn.preimage ∧ callingTurn.toolCalls ≠ tellingTurn.toolCalls :=
  ⟨by decide +kernel, by decide +kernel, callingTurn_preimage, by decide⟩

end AlloyPort

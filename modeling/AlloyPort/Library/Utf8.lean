import Mathlib.Data.List.Basic
import Mathlib.Data.Nat.Digits.Defs

/-! Texts as the bytes of their UTF-8 encoding. A byte below 128 stands for the one character that has its number. -/

namespace Utf8

def bytesOf (text : String) : List UInt8 := text.toByteArray.data.toList

theorem bytesOf_ofList (cs : List Char) : bytesOf (String.ofList cs) = cs.flatMap String.utf8EncodeChar := by
  rw [bytesOf, String.toByteArray_ofList, List.utf8Encode]
  simp

theorem bytesOf_eq (text : String) : bytesOf text = text.toList.flatMap String.utf8EncodeChar := by
  rw [← bytesOf_ofList, String.ofList_toList]

@[simp] theorem bytesOf_append (a b : String) : bytesOf (a ++ b) = bytesOf a ++ bytesOf b := by
  rw [bytesOf_eq, bytesOf_eq, bytesOf_eq, String.toList_append, List.flatMap_append]

variable {c : Char}

theorem encode_ascii (h : c.toNat < 128) : String.utf8EncodeChar c = [UInt8.ofNat c.toNat] := by
  have hsmall : c.val.toNat ≤ 0x7f := Nat.le_of_lt_succ h
  unfold String.utf8EncodeChar
  exact if_pos hsmall

theorem encode_wide (h : 128 ≤ c.toNat) : ∀ b ∈ String.utf8EncodeChar c, 128 ≤ b.toNat := by
  have hlarge : ¬ c.val.toNat ≤ 0x7f := Nat.not_le_of_lt h
  unfold String.utf8EncodeChar
  intro b hb
  simp only [if_neg hlarge] at hb
  split at hb
  · simp only [List.mem_cons, List.not_mem_nil, or_false] at hb
    rcases hb with rfl | rfl <;> rw [UInt8.toNat_ofNat'] <;> omega
  · split at hb
    · simp only [List.mem_cons, List.not_mem_nil, or_false] at hb
      rcases hb with rfl | rfl | rfl <;> rw [UInt8.toNat_ofNat'] <;> omega
    · simp only [List.mem_cons, List.not_mem_nil, or_false] at hb
      rcases hb with rfl | rfl | rfl | rfl <;> rw [UInt8.toNat_ofNat'] <;> omega

theorem bytesOf_ascii {cs : List Char} (h : ∀ c ∈ cs, c.toNat < 128) :
    bytesOf (String.ofList cs) = cs.map fun c => UInt8.ofNat c.toNat := by
  rw [bytesOf_ofList]
  induction cs with
  | nil => rfl
  | cons c cs ih =>
    rw [List.flatMap_cons, encode_ascii (h c List.mem_cons_self), ih fun d hd => h d (List.mem_cons_of_mem c hd)]
    rfl

variable {b : UInt8} {cs : List Char}

theorem mem_encode (hb : b.toNat < 128) : b ∈ String.utf8EncodeChar c ↔ c.toNat = b.toNat := by
  by_cases h : c.toNat < 128
  · rw [encode_ascii h, List.mem_singleton, ← UInt8.toNat_inj, UInt8.toNat_ofNat']
    omega
  · constructor
    · intro hmem
      have hwide := encode_wide (Nat.le_of_not_lt h) b hmem
      omega
    · intro heq
      omega

theorem mem_bytesOf {text : String} (hb : b.toNat < 128) :
    b ∈ bytesOf text ↔ ∃ c ∈ text.toList, c.toNat = b.toNat := by
  simp only [bytesOf_eq, List.mem_flatMap, mem_encode hb]

theorem splitOn_append {l m : List UInt8} (h : b ∉ l) : (l ++ m).splitOn b = (m.splitOn b).modifyHead (l ++ ·) := by
  induction l with
  | nil =>
    rw [List.nil_append]
    cases m.splitOn b with
    | nil => rfl
    | cons part parts => rfl
  | cons c l ih =>
    have hc : ¬ (c == b) = true := by
      intro heq
      exact h (by rw [← eq_of_beq heq]; exact List.mem_cons_self)
    have hrest := ih fun hmem => h (List.mem_cons_of_mem c hmem)
    rw [List.cons_append, List.splitOn_cons_eq_if_modifyHead, if_neg hc, hrest]
    cases m.splitOn b with
    | nil => rfl
    | cons part parts => rfl

theorem splitOn_encode {separator : Char} (hb : b.toNat < 128) (hsep : separator.toNat = b.toNat) (cs : List Char) :
    (cs.flatMap String.utf8EncodeChar).splitOn b = (cs.splitOn separator).map fun part =>
    part.flatMap String.utf8EncodeChar := by
  have hone : String.utf8EncodeChar separator = [b] := by
    rw [encode_ascii (by omega), hsep, UInt8.ofNat_toNat]
  induction cs with
  | nil => rfl
  | cons c cs ih =>
    rw [List.flatMap_cons, List.splitOn_cons_eq_if_modifyHead]
    by_cases hc : c = separator
    · subst hc
      rw [if_pos (beq_self_eq_true c), hone, List.singleton_append, List.splitOn_cons_eq_if_modifyHead,
        if_pos (beq_self_eq_true b), ih]
      rfl
    · have hother : b ∉ String.utf8EncodeChar c := by
        intro hmem
        have hvalue := (mem_encode hb).mp hmem
        exact hc (Char.toNat_inj.mp (hvalue.trans hsep.symm))
      rw [if_neg (fun heq => hc (eq_of_beq heq)), splitOn_append hother, ih]
      cases cs.splitOn separator with
      | nil => rfl
      | cons part parts => rfl

theorem encode_inj {ds : List Char} (h : cs.flatMap String.utf8EncodeChar = ds.flatMap String.utf8EncodeChar) :
    cs = ds := by
  have hbytes : (String.ofList cs).toByteArray = (String.ofList ds).toByteArray := by
    rw [String.toByteArray_ofList, String.toByteArray_ofList, List.utf8Encode, List.utf8Encode, h]
  exact String.ofList_injective (String.toByteArray_inj.mp hbytes)

def IsContinuation (b : UInt8) : Prop := 128 ≤ b.toNat ∧ b.toNat < 192

theorem encode_cons (c : Char) : ∃ first rest, String.utf8EncodeChar c = first :: rest ∧ ¬ IsContinuation first ∧
    (∀ b ∈ rest, IsContinuation b) ∧ rest.length ≤ 3 := by
  have hvalid : c.val.toNat < 0xd800 ∨ 0xdfff < c.val.toNat ∧ c.val.toNat < 0x110000 := c.valid
  unfold String.utf8EncodeChar IsContinuation
  by_cases hone : c.val.toNat ≤ 0x7f
  · refine ⟨_, [], if_pos hone, ?_, nofun, by simp⟩
    rw [UInt8.toNat_ofNat']
    omega
  · simp only [if_neg hone]
    split
    · refine ⟨_, _, rfl, ?_, ?_, by simp⟩
      · rw [UInt8.toNat_ofNat']
        omega
      · simp only [List.mem_cons, List.not_mem_nil, or_false, forall_eq, UInt8.toNat_ofNat']
        omega
    · split
      · refine ⟨_, _, rfl, ?_, ?_, by simp⟩
        · rw [UInt8.toNat_ofNat']
          omega
        · simp only [List.mem_cons, List.not_mem_nil, or_false, forall_eq_or_imp, forall_eq, UInt8.toNat_ofNat']
          omega
      · refine ⟨_, _, rfl, ?_, ?_, by simp⟩
        · rw [UInt8.toNat_ofNat']
          omega
        · simp only [List.mem_cons, List.not_mem_nil, or_false, forall_eq_or_imp, forall_eq, UInt8.toNat_ofNat']
          omega

/-- The text can be cut at the index, in front of a character or at its end. -/
def CharBoundary (cs : List Char) (index : Nat) : Prop :=
  ∃ before, before <+: cs ∧ (before.flatMap String.utf8EncodeChar).length = index

theorem charBoundary_zero : CharBoundary cs 0 := ⟨[], List.nil_prefix, rfl⟩

theorem charBoundary_iff {index : Nat} (h : index ≤ (cs.flatMap String.utf8EncodeChar).length) :
    CharBoundary cs index ↔ ∀ b, (cs.flatMap String.utf8EncodeChar)[index]? = some b → ¬ IsContinuation b := by
  induction cs generalizing index with
  | nil =>
    obtain rfl : index = 0 := Nat.le_zero.mp h
    exact iff_of_true charBoundary_zero nofun
  | cons c cs ih =>
    obtain ⟨first, rest, hc, hfirst, hrest, -⟩ := encode_cons c
    rw [List.flatMap_cons] at h ⊢
    by_cases hzero : index = 0
    · subst hzero
      refine iff_of_true charBoundary_zero fun b hb => ?_
      rw [hc, List.cons_append, List.getElem?_cons_zero] at hb
      exact Option.some.inj hb ▸ hfirst
    · by_cases hin : index < (String.utf8EncodeChar c).length
      · refine iff_of_false ?_ fun hcut => ?_
        · rintro ⟨before, hbefore, hlength⟩
          cases before with
          | nil => exact hzero hlength.symm
          | cons d before =>
            obtain ⟨rfl, -⟩ := List.cons_prefix_cons.mp hbefore
            rw [List.flatMap_cons, List.length_append] at hlength
            omega
        · rw [List.getElem?_append_left hin, List.getElem?_eq_getElem hin] at hcut
          refine hcut _ rfl (hrest _ ?_)
          obtain ⟨inner, rfl⟩ := Nat.exists_eq_succ_of_ne_zero hzero
          simp only [hc, List.getElem_cons_succ]
          exact List.getElem_mem _
      · rw [List.length_append] at h
        rw [List.getElem?_append_right (Nat.le_of_not_lt hin), ← ih (by omega)]
        constructor
        · rintro ⟨before, hbefore, hlength⟩
          cases before with
          | nil => exact absurd hlength.symm hzero
          | cons d before =>
            obtain ⟨rfl, htail⟩ := List.cons_prefix_cons.mp hbefore
            rw [List.flatMap_cons, List.length_append] at hlength
            exact ⟨before, htail, by omega⟩
        · rintro ⟨before, hbefore, hlength⟩
          refine ⟨c :: before, List.cons_prefix_cons.mpr ⟨rfl, hbefore⟩, ?_⟩
          rw [List.flatMap_cons, List.length_append]
          omega

/-- A boundary that does not end the text is followed by another one, behind a character of at most four bytes. -/
theorem CharBoundary.next {cs : List Char} {index : Nat} (h : CharBoundary cs index)
    (hlt : index < (cs.flatMap String.utf8EncodeChar).length) : ∃ after, CharBoundary cs after ∧ index < after ∧
      after ≤ index + 4 ∧ after ≤ (cs.flatMap String.utf8EncodeChar).length := by
  obtain ⟨before, ⟨behind, rfl⟩, rfl⟩ := h
  cases behind with
  | nil => simp at hlt
  | cons c behind =>
    obtain ⟨first, rest, hc, -, -, hlength⟩ := encode_cons c
    have hcut : (before ++ [c]).flatMap String.utf8EncodeChar = before.flatMap String.utf8EncodeChar ++
      first :: rest := by
      rw [List.flatMap_append, List.flatMap_singleton, hc]
    refine ⟨_, ⟨before ++ [c], ⟨behind, (List.append_cons ..).symm⟩, rfl⟩, ?_, ?_, ?_⟩
    · rw [hcut, List.length_append, List.length_cons]
      omega
    · rw [hcut, List.length_append, List.length_cons]
      omega
    · rw [hcut, List.flatMap_append, List.flatMap_cons, hc]
      simp only [List.length_append]
      omega

end Utf8

import Mathlib.Data.List.Basic
import Mathlib.Data.Nat.Digits.Defs
import Mathlib.Data.List.Infix

/-! Reading back delimited texts: decimal numbers next to a character that is no digit, and
two-character hexadecimal bytes. -/

namespace Text

theorem append_cons_inj {α : Type} {c : α} {l l' r r' : List α} (hl : c ∉ l) (hl' : c ∉ l')
    (h : l ++ c :: r = l' ++ c :: r') : l = l' ∧ r = r' := by
  induction l generalizing l' with
  | nil =>
    cases l' with
    | nil => simpa using h
    | cons x l' =>
      simp only [List.nil_append, List.cons_append, List.cons.injEq] at h
      exact absurd (h.1 ▸ List.mem_cons_self) hl'
  | cons x l ih =>
    cases l' with
    | nil =>
      simp only [List.nil_append, List.cons_append, List.cons.injEq] at h
      exact absurd (h.1 ▸ List.mem_cons_self) hl
    | cons x' l' =>
      simp only [List.cons_append, List.cons.injEq] at h
      obtain ⟨rfl, h⟩ := h
      obtain ⟨rfl, rfl⟩ := ih (fun hm => hl (List.mem_cons_of_mem _ hm))
        (fun hm => hl' (List.mem_cons_of_mem _ hm)) h
      exact ⟨rfl, rfl⟩

variable {c : Char}

theorem not_mem_repr (hc : c.isDigit = false) (n : Nat) : c ∉ n.repr.toList := by
  intro hm
  rw [Nat.toList_repr] at hm
  have hd := Nat.isDigit_of_mem_toDigits (by decide) (by decide) hm
  rw [hc] at hd
  cases hd

variable {a b : Nat}

theorem repr_toList_inj (h : a.repr.toList = b.repr.toList) : a = b := by
  rw [Nat.toList_repr, Nat.toList_repr] at h
  rw [← Nat.ofDigitChars_ten_toDigits (n := a), h, Nat.ofDigitChars_ten_toDigits]

theorem repr_append_cons_inj (hc : c.isDigit = false) {x y : List Char}
    (h : a.repr.toList ++ c :: x = b.repr.toList ++ c :: y) : a = b ∧ x = y := by
  obtain ⟨hr, hx⟩ := append_cons_inj (not_mem_repr hc a) (not_mem_repr hc b) h
  exact ⟨repr_toList_inj hr, hx⟩

theorem append_cons_repr_inj (hc : c.isDigit = false) {x y : List Char}
    (h : x ++ c :: a.repr.toList = y ++ c :: b.repr.toList) : x = y ∧ a = b := by
  have hh := congrArg List.reverse h
  simp only [List.reverse_append, List.reverse_cons, List.append_assoc, List.singleton_append] at hh
  obtain ⟨hr, hx⟩ := append_cons_inj (by simpa using not_mem_repr hc a) (by simpa using not_mem_repr hc b) hh
  exact ⟨List.reverse_injective hx, repr_toList_inj (List.reverse_injective hr)⟩

def hexByte (byte : UInt8) : List Char :=
  [Nat.digitChar (byte.toNat / 16), Nat.digitChar (byte.toNat % 16)]

theorem digitChar_inj (ha : a < 16) (hb : b < 16) (h : a.digitChar = b.digitChar) : a = b := by
  have hh : ∀ x : Fin 16, ∀ y : Fin 16, Nat.digitChar x = Nat.digitChar y → x = y := by decide
  have := hh ⟨a, ha⟩ ⟨b, hb⟩ h
  simpa using this

theorem hexByte_inj {a b : UInt8} (h : hexByte a = hexByte b) : a = b := by
  have ha := UInt8.toNat_lt a
  have hb := UInt8.toNat_lt b
  simp only [hexByte, List.cons.injEq, and_true] at h
  have hq := digitChar_inj (by omega) (by omega) h.1
  have hr := digitChar_inj (by omega) (by omega) h.2
  exact UInt8.toNat_inj.mp (by omega)

theorem flatMap_hexByte_inj {x y : List UInt8} (h : x.flatMap hexByte = y.flatMap hexByte) : x = y := by
  induction x generalizing y with
  | nil =>
    cases y with
    | nil => rfl
    | cons b y => simp [hexByte] at h
  | cons a x ih =>
    cases y with
    | nil => simp [hexByte] at h
    | cons b y =>
      rw [List.flatMap_cons, List.flatMap_cons] at h
      obtain ⟨hb, hrest⟩ := List.append_inj h rfl
      rw [hexByte_inj hb, ih hrest]

end Text

/-! Texts under keys, one behind the other, with a delimiter between neighbours that their keys fix. The texts can be
read back from the whole just where no delimiter can be read in another place in the two texts around it. -/

namespace Delimited

variable {K α : Type} {between : K → K → List α} {final : K → List α}

def behind (between : K → K → List α) (final : K → List α) : K → List (K × List α) → List α
  | key, [] => final key
  | key, (next, text) :: blocks => between key next ++ (text ++ behind between final next blocks)

/-- The delimiter can be read elsewhere in the texts around it. -/
def Misread (text delimiter next : List α) : Prop :=
  ∃ u v, text ++ delimiter ++ next = u ++ delimiter ++ v ∧ u ≠ text

def Clear (between : K → K → List α) (blocks : List (K × List α)) : Prop :=
  ∀ x y, [x, y] <:+: blocks → ¬ Misread x.2 (between x.1 y.1) y.2

variable {blocks others : List (K × List α)} {key : K} {text other : List α}

theorem Clear.tail {block : K × List α} (h : Clear between (block :: blocks)) : Clear between blocks :=
  fun x y hin => h x y (hin.trans (List.suffix_cons block blocks).isInfix)

theorem Clear.eq_of_prefix {key' : K} {next : List α} (h : Clear between ((key, text) :: (key', next) :: blocks))
    (hbegins : other ++ between key key' <+: text ++ between key key' ++ next) : other = text := by
  obtain ⟨v, hv⟩ := hbegins
  by_contra hne
  exact h (key, text) (key', next) ⟨[], blocks, rfl⟩ ⟨other, v, hv.symm, hne⟩

/-- A longer text in front of a delimiter pushes a later delimiter out of its place. -/
theorem Clear.not_longer
    (h : Clear between ((key, text) :: blocks)) (hkeys : others.map Prod.fst = blocks.map Prod.fst)
    (heq : other ++ behind between final key others = text ++ behind between final key blocks) :
    other.length ≤ text.length := by
  induction blocks generalizing key text other others with
  | nil =>
    obtain rfl := List.map_eq_nil_iff.mp hkeys
    exact (congrArg List.length (List.append_cancel_right heq)).le
  | cons block blocks ih =>
    obtain ⟨key', next⟩ := block
    obtain ⟨⟨key'', next'⟩, others, rfl, rfl, htail⟩ := List.map_eq_cons_iff.mp hkeys
    simp only [behind, ← List.append_assoc] at heq
    by_contra hlonger
    by_cases hin : (other ++ between key key'').length ≤ (text ++ between key key'' ++ next).length
    · -- the delimiter stands in the two texts once more
      have hwithin : other ++ between key key'' <+:
          text ++ between key key'' ++ next ++ behind between final key'' blocks := by
        rw [← heq, List.append_assoc _ next']
        exact List.prefix_append _ _
      have hsame := h.eq_of_prefix (List.prefix_of_prefix_length_le hwithin (List.prefix_append _ _) hin)
      exact hlonger (congrArg List.length hsame).le
    · -- the next text of the other reading is too long as well
      have hwithin : text ++ between key key'' <+:
          other ++ between key key'' ++ next' ++ behind between final key'' others := by
        rw [heq, List.append_assoc _ next]
        exact List.prefix_append _ _
      have hlength : (text ++ between key key'').length ≤ (other ++ between key key'' ++ next').length := by
        simp only [List.length_append]
        omega
      obtain ⟨v, hv⟩ := List.prefix_of_prefix_length_le hwithin (List.prefix_append _ _) hlength
      rw [← hv, List.append_assoc _ v, List.append_assoc _ next] at heq
      have hshort := ih h.tail htail (List.append_cancel_left heq)
      have hsize := congrArg List.length hv
      simp only [List.length_append] at hsize hin
      omega

theorem Clear.not_shorter
    (h : Clear between ((key, text) :: blocks)) (hkeys : others.map Prod.fst = blocks.map Prod.fst)
    (heq : other ++ behind between final key others = text ++ behind between final key blocks) :
    text.length ≤ other.length := by
  cases blocks with
  | nil =>
    obtain rfl := List.map_eq_nil_iff.mp hkeys
    exact (congrArg List.length (List.append_cancel_right heq)).ge
  | cons block blocks =>
    obtain ⟨key', next⟩ := block
    obtain ⟨⟨key'', next'⟩, others, rfl, rfl, -⟩ := List.map_eq_cons_iff.mp hkeys
    simp only [behind, ← List.append_assoc] at heq
    by_contra hshorter
    have hwithin : other ++ between key key'' <+:
        text ++ between key key'' ++ next ++ behind between final key'' blocks := by
      rw [← heq, List.append_assoc _ next']
      exact List.prefix_append _ _
    have hlength : (other ++ between key key'').length ≤ (text ++ between key key'' ++ next).length := by
      simp only [List.length_append]
      omega
    have hsame := h.eq_of_prefix (List.prefix_of_prefix_length_le hwithin (List.prefix_append _ _) hlength)
    exact hshorter (congrArg List.length hsame).ge

theorem Clear.texts_eq (h : Clear between ((key, text) :: blocks)) (hkeys : others.map Prod.fst = blocks.map Prod.fst)
    (heq : other ++ behind between final key others = text ++ behind between final key blocks) :
    other = text ∧ others = blocks := by
  induction blocks generalizing key text other others with
  | nil =>
    obtain rfl := List.map_eq_nil_iff.mp hkeys
    exact ⟨List.append_cancel_right heq, rfl⟩
  | cons block blocks ih =>
    have hlength := Nat.le_antisymm (h.not_longer hkeys heq) (h.not_shorter hkeys heq)
    obtain ⟨hsame, hrest⟩ := List.append_inj heq hlength
    obtain ⟨key', next⟩ := block
    obtain ⟨⟨key'', next'⟩, others, rfl, rfl, htail⟩ := List.map_eq_cons_iff.mp hkeys
    obtain ⟨rfl, rfl⟩ := ih h.tail htail (List.append_cancel_left hrest)
    exact ⟨hsame, rfl⟩

/-- Between two neighbours whose delimiter is misread the whole can be cut in another place. -/
theorem exists_other
    (h : ¬ Clear between ((key, text) :: blocks)) : ∃ other others, others.map Prod.fst = blocks.map Prod.fst ∧
      other ++ behind between final key others = text ++ behind between final key blocks ∧
      (key, other) :: others ≠ (key, text) :: blocks := by
  induction blocks generalizing key text with
  | nil =>
    refine absurd (fun x y hin => ?_) h
    have hlength := hin.length_le
    simp at hlength
  | cons block blocks ih =>
    obtain ⟨key', next⟩ := block
    by_cases hmisread : Misread text (between key key') next
    · obtain ⟨u, v, heq, hne⟩ := hmisread
      refine ⟨u, (key', v) :: blocks, rfl, ?_, fun hsame => hne ?_⟩
      · simp only [behind, ← List.append_assoc, ← heq]
      · exact (Prod.mk.inj (List.cons.inj hsame).1).2
    · have htail : ¬ Clear between ((key', next) :: blocks) := by
        refine fun htail => h fun x y hin => ?_
        rcases List.infix_cons_iff.mp hin with hhead | hin
        · simp only [List.cons_prefix_cons, List.nil_prefix, and_true] at hhead
          obtain ⟨rfl, rfl⟩ := hhead
          exact hmisread
        · exact htail x y hin
      obtain ⟨other, others, hkeys, heq, hne⟩ := ih htail
      refine ⟨text, (key', other) :: others, by rw [List.map_cons, List.map_cons, hkeys], ?_, fun hsame => ?_⟩
      · rw [behind, behind, heq]
      · exact hne (List.cons.inj hsame).2

end Delimited

import Mathlib.Data.List.Basic

/-! Lists that are made of literals with a mark between each two of them: how they are cut, filtered and compared, and
how the marks are replaced. -/

namespace Replacement

variable {α : Type}

section marks

/-- What is left of the literals when the list is cut, and how much is left of the mark behind the last of them. -/
def cutAt (size : Nat) : Nat → List (List α) → List (List α) × Nat
  | _, [] => ([], 0)
  | limit, [literal] => ([literal.take limit], 0)
  | limit, literal :: next :: rest =>
    if limit ≤ literal.length then ([literal.take limit], 0)
    else if limit - literal.length < size then ([literal], limit - literal.length)
    else
      let cut := cutAt size (limit - literal.length - size) (next :: rest)
      (literal :: cut.1, cut.2)

variable {size limit : Nat} {literals : List (List α)}

theorem cutAt_ne_nil (h : literals ≠ []) : (cutAt size limit literals).1 ≠ [] := by
  fun_cases cutAt size limit literals <;> simp_all

theorem cutAt_lt (h : 0 < size) : (cutAt size limit literals).2 < size := by
  induction literals generalizing limit with
  | nil => exact h
  | cons literal rest ih =>
    cases rest with
    | nil => exact h
    | cons next rest =>
      rw [cutAt]
      by_cases hend : limit ≤ literal.length
      · rw [if_pos hend]
        exact h
      · rw [if_neg hend]
        by_cases hmark : limit - literal.length < size
        · rw [if_pos hmark]
          exact hmark
        · rw [if_neg hmark]
          exact ih

theorem lt_length_of_cutAt {mark : List α} (h : (cutAt mark.length limit literals).2 ≠ 0) :
    limit < (mark.intercalate literals).length := by
  induction literals generalizing limit with
  | nil => exact absurd rfl h
  | cons literal rest ih =>
    cases rest with
    | nil => exact absurd rfl h
    | cons next rest =>
      rw [cutAt] at h
      rw [List.intercalate_cons_cons, List.length_append, List.length_append]
      by_cases hend : limit ≤ literal.length
      · rw [if_pos hend] at h
        exact absurd rfl h
      · rw [if_neg hend] at h
        by_cases hmark : limit - literal.length < mark.length
        · omega
        · rw [if_neg hmark] at h
          have hrest := ih h
          omega

theorem take_intercalate (mark : List α) (limit : Nat) (literals : List (List α)) :
    (mark.intercalate literals).take limit =
      mark.intercalate (cutAt mark.length limit literals).1 ++ mark.take (cutAt mark.length limit literals).2 := by
  induction literals generalizing limit with
  | nil => simp [cutAt]
  | cons literal rest ih =>
    cases rest with
    | nil => simp [cutAt]
    | cons next rest =>
      rw [cutAt, List.intercalate_cons_cons, List.append_assoc]
      by_cases hend : limit ≤ literal.length
      · rw [if_pos hend, List.take_append_of_le_length hend, List.intercalate_singleton, List.take_zero,
          List.append_nil]
      · have hlong : literal.take limit = literal := List.take_of_length_le (by omega)
        rw [if_neg hend, List.take_append, hlong]
        by_cases hmark : limit - literal.length < mark.length
        · rw [if_pos hmark, List.intercalate_singleton, List.take_append_of_le_length (Nat.le_of_lt hmark)]
        · have hwhole : mark.take (limit - literal.length) = mark := List.take_of_length_le (by omega)
          rw [if_neg hmark, List.take_append, hwhole, ih]
          have hne := @cutAt_ne_nil _ mark.length (limit - literal.length - mark.length) (next :: rest)
            (List.cons_ne_nil _ _)
          cases hcut : (cutAt mark.length (limit - literal.length - mark.length) (next :: rest)).1 with
          | nil => exact absurd hcut hne
          | cons first others => simp only [List.intercalate_cons_cons, hcut, List.append_assoc]

theorem mem_cutAt {left : List α} (h : left ∈ (cutAt size limit literals).1) :
    ∃ literal ∈ literals, left <+: literal := by
  induction literals generalizing limit with
  | nil => cases h
  | cons literal rest ih =>
    cases rest with
    | nil =>
      rw [cutAt, List.mem_singleton] at h
      exact ⟨literal, List.mem_cons_self, h ▸ List.take_prefix _ _⟩
    | cons next rest =>
      rw [cutAt] at h
      by_cases hend : limit ≤ literal.length
      · rw [if_pos hend, List.mem_singleton] at h
        exact ⟨literal, List.mem_cons_self, h ▸ List.take_prefix _ _⟩
      · rw [if_neg hend] at h
        by_cases hmark : limit - literal.length < size
        · rw [if_pos hmark, List.mem_singleton] at h
          exact ⟨literal, List.mem_cons_self, h ▸ List.prefix_rfl⟩
        · rw [if_neg hmark, List.mem_cons] at h
          rcases h with rfl | h
          · exact ⟨left, List.mem_cons_self, List.prefix_rfl⟩
          · obtain ⟨literal', hmem, hbegins⟩ := ih h
            exact ⟨literal', List.mem_cons_of_mem _ hmem, hbegins⟩

theorem length_intercalate {mark mark' : List α} (h : mark.length = mark'.length) (literals : List (List α)) :
    (mark.intercalate literals).length = (mark'.intercalate literals).length := by
  induction literals with
  | nil => rfl
  | cons literal rest ih =>
    cases rest with
    | nil => simp
    | cons next rest =>
      rw [List.intercalate_cons_cons, List.intercalate_cons_cons, List.length_append, List.length_append,
        List.length_append, List.length_append, ih, h]

theorem filter_intercalate {p : α → Bool} {mark : List α} (h : ∀ a ∈ mark, p a = true) (literals : List (List α)) :
    (mark.intercalate literals).filter p = mark.intercalate (literals.map (List.filter p)) := by
  have hmark : mark.filter p = mark := List.filter_eq_self.mpr h
  induction literals with
  | nil => rfl
  | cons literal rest ih =>
    cases rest with
    | nil => simp
    | cons next rest =>
      rw [List.intercalate_cons_cons, List.filter_append, List.filter_append, hmark, ih]
      simp only [List.map_cons, List.intercalate_cons_cons]

end marks

section replacing

variable [DecidableEq α]

/-- Occurrences of a pattern that is not empty are replaced from left to right; `skip` symbols of the last one are
still to be passed over. -/
def replaceFrom (pattern substitute : List α) : (skip : Nat) → List α → List α
  | _, [] => []
  | skip + 1, _ :: rest => replaceFrom pattern substitute skip rest
  | 0, a :: rest =>
    if pattern.isPrefixOf (a :: rest) = true then substitute ++ replaceFrom pattern substitute (pattern.length - 1) rest
    else a :: replaceFrom pattern substitute 0 rest

def replace (pattern substitute text : List α) : List α :=
  if pattern = [] then substitute ++ text.flatMap (fun a => a :: substitute) else replaceFrom pattern substitute 0 text

variable {pattern substitute : List α}

theorem replaceFrom_skip (passed text : List α) :
    replaceFrom pattern substitute passed.length (passed ++ text) = replaceFrom pattern substitute 0 text := by
  induction passed with
  | nil => rfl
  | cons a passed ih => exact ih

theorem replaceFrom_pattern (h : pattern ≠ []) (text : List α) :
    replaceFrom pattern substitute 0 (pattern ++ text) = substitute ++ replaceFrom pattern substitute 0 text := by
  obtain ⟨a, rest, rfl⟩ := List.exists_cons_of_ne_nil h
  have hbegins : (a :: rest).isPrefixOf (a :: (rest ++ text)) = true :=
    List.isPrefixOf_iff_prefix.mpr (List.prefix_append (a :: rest) text)
  rw [List.cons_append, replaceFrom, if_pos hbegins, List.length_cons, Nat.add_sub_cancel, replaceFrom_skip]

theorem replaceFrom_literal (h : pattern ≠ []) {literal : List α} (hfree : ∀ a ∈ literal, a ∉ pattern) (text : List α) :
    replaceFrom pattern substitute 0 (literal ++ text) = literal ++ replaceFrom pattern substitute 0 text := by
  induction literal with
  | nil => rfl
  | cons a literal ih =>
    have hnot : ¬ pattern.isPrefixOf (a :: (literal ++ text)) = true := by
      intro hbegins
      obtain ⟨first, rest, rfl⟩ := List.exists_cons_of_ne_nil h
      have heq := (List.cons_prefix_cons.mp (List.isPrefixOf_iff_prefix.mp hbegins)).1
      exact hfree a List.mem_cons_self (heq ▸ List.mem_cons_self)
    rw [List.cons_append, replaceFrom, if_neg hnot, ih fun b hb => hfree b (List.mem_cons_of_mem a hb),
      List.cons_append]

theorem replaceFrom_short {text : List α} (h : text.length < pattern.length) :
    replaceFrom pattern substitute 0 text = text := by
  induction text with
  | nil => rfl
  | cons a rest ih =>
    have hnot : ¬ pattern.isPrefixOf (a :: rest) = true := by
      intro hbegins
      have hlength := (List.isPrefixOf_iff_prefix.mp hbegins).length_le
      omega
    rw [List.length_cons] at h
    rw [replaceFrom, if_neg hnot, ih (by omega)]

theorem replace_intercalate {literals : List (List α)} {rest : List α} (h : pattern ≠ [])
    (hfree : ∀ literal ∈ literals, ∀ a ∈ literal, a ∉ pattern) (hrest : rest.length < pattern.length) :
    replace pattern substitute (pattern.intercalate literals ++ rest) = substitute.intercalate literals ++ rest := by
  rw [replace, if_neg h]
  induction literals with
  | nil => exact replaceFrom_short hrest
  | cons literal literals ih =>
    have hliteral : ∀ a ∈ literal, a ∉ pattern := hfree literal List.mem_cons_self
    cases literals with
    | nil =>
      rw [List.intercalate_singleton, List.intercalate_singleton, replaceFrom_literal h hliteral,
        replaceFrom_short hrest]
    | cons next others =>
      have hothers := ih fun literal' hmem => hfree literal' (List.mem_cons_of_mem literal hmem)
      simp only [List.intercalate_cons_cons, List.append_assoc]
      rw [replaceFrom_literal h hliteral, replaceFrom_pattern h, hothers]

end replacing

section marked

/-- Outside of the marks that stand in the text there is nothing of what is kept back. -/
inductive Marked (mark hidden : List α) : List α → Prop where
  | nil : Marked mark hidden []
  | letter {a text} (ha : a ∉ hidden) (h : Marked mark hidden text) : Marked mark hidden (a :: text)
  | mark {text} (h : Marked mark hidden text) : Marked mark hidden (mark ++ text)

variable {mark hidden text text' literal : List α} {a : α}

theorem Marked.append (h : Marked mark hidden text) (h' : Marked mark hidden text') :
    Marked mark hidden (text ++ text') := by
  induction h with
  | nil => exact h'
  | letter ha _ ih => exact .letter ha ih
  | mark _ ih =>
    rw [List.append_assoc]
    exact .mark ih

theorem Marked.of_literal (h : ∀ a ∈ literal, a ∉ hidden) : Marked mark hidden literal := by
  induction literal with
  | nil => exact .nil
  | cons a literal ih => exact .letter (h a List.mem_cons_self) (ih fun b hb => h b (List.mem_cons_of_mem a hb))

theorem Marked.intercalate {literals : List (List α)} (h : ∀ literal ∈ literals, ∀ a ∈ literal, a ∉ hidden) :
    Marked mark hidden (mark.intercalate literals) := by
  induction literals with
  | nil => exact .nil
  | cons literal rest ih =>
    have hliteral : Marked mark hidden literal := .of_literal (h literal List.mem_cons_self)
    cases rest with
    | nil => simpa using hliteral
    | cons next rest =>
      rw [List.intercalate_cons_cons, List.append_assoc]
      exact hliteral.append (.mark (ih fun other hmem => h other (List.mem_cons_of_mem literal hmem)))

theorem Marked.reverse (h : Marked mark hidden text) : Marked mark.reverse hidden text.reverse := by
  induction h with
  | nil => exact .nil
  | letter ha _ ih =>
    rw [List.reverse_cons]
    exact ih.append (.letter ha .nil)
  | mark _ ih =>
    have hlast : Marked mark.reverse hidden (mark.reverse ++ []) := .mark .nil
    rw [List.append_nil] at hlast
    rw [List.reverse_append]
    exact ih.append hlast

/-- What is trimmed from the front are no marks, where marks begin with something else. -/
theorem Marked.dropWhile {p : α → Bool} (h : Marked mark hidden text) (hmark : ∀ a ∈ mark.head?, p a = false) :
    Marked mark hidden (text.dropWhile p) := by
  induction h with
  | nil => exact .nil
  | @letter a text ha h ih =>
    by_cases hp : p a = true
    · rw [List.dropWhile_cons_of_pos hp]
      exact ih
    · rw [List.dropWhile_cons_of_neg hp]
      exact .letter ha h
  | @mark text h ih =>
    cases mark with
    | nil => exact ih
    | cons first rest =>
      have hfirst : ¬ p first = true := by simp [hmark first rfl]
      rw [List.cons_append, List.dropWhile_cons_of_neg hfirst]
      exact .mark h

/-- What is kept back is seen within a mark only, and then the rest of the mark follows it. -/
theorem Marked.within (h : Marked mark hidden (text ++ a :: text')) (ha : a ∈ hidden) :
    ∃ before after, mark = before ++ a :: after ∧ after <+: text' := by
  generalize hwhole : text ++ a :: text' = whole at h
  induction h generalizing text with
  | nil => simp at hwhole
  | @letter b rest hb _ ih =>
    cases text with
    | nil =>
      obtain ⟨rfl, -⟩ := List.cons.inj hwhole
      exact absurd ha hb
    | cons first text => exact ih (List.cons.inj hwhole).2
  | @mark rest _ ih =>
    rcases List.append_eq_append_iff.mp hwhole with ⟨inside, hmark, hrest⟩ | ⟨beyond, -, hrest⟩
    · cases inside with
      | nil => exact @ih [] hrest
      | cons first after =>
        obtain ⟨rfl, rfl⟩ := List.cons.inj hrest
        exact ⟨text, after, hmark, List.prefix_append after rest⟩
    · exact ih hrest.symm

end marked

end Replacement

import Mathlib.Algebra.GroupWithZero.Nat
import Mathlib.Algebra.Order.BigOperators.Group.List
import Mathlib.Algebra.Order.Group.Nat
import Mathlib.Data.List.Nodup
import Mathlib.Data.List.Perm.Basic

/-! Tables whose rows are told apart by a primary key, with the statements that change and sum them. -/

namespace Database

structure Table {K : Type} (V : Type) (key : V → K) where
  rows : List V
  nodup : (rows.map key).Nodup
  deriving DecidableEq

structure RowUpdate {K V : Type} (key : V → K) where
  apply : V → V
  keeps : ∀ v, key (apply v) = key v

namespace Table

variable {K V : Type} {key : V → K}

def empty : Table V key := ⟨[], List.nodup_nil⟩

/-- `UPDATE … WHERE` on the primary key. -/
def update [DecidableEq K] (t : Table V key) (k : K) (g : RowUpdate key) : Table V key where
  rows := t.rows.map fun v => if key v = k then g.apply v else v
  nodup := by
    have hkeys : (t.rows.map fun v => if key v = k then g.apply v else v).map key = t.rows.map key := by
      rw [List.map_map]
      apply List.map_congr_left
      intro v _
      show key (if key v = k then g.apply v else v) = key v
      by_cases h : key v = k
      · rw [if_pos h, g.keeps]
      · rw [if_neg h]
    rw [hkeys]
    exact t.nodup

def deleteWhere (t : Table V key) (p : V → Bool) : Table V key where
  rows := t.rows.filter fun v => !p v
  nodup := t.nodup.sublist (List.filter_sublist.map key)

/-- `SELECT COALESCE(SUM(…), 0) … WHERE`. -/
def sumWhere (t : Table V key) (p : V → Bool) (f : V → Nat) : Nat := ((t.rows.filter p).map f).sum

variable [DecidableEq K]

def find (t : Table V key) (k : K) : Option V := t.rows.find? fun v => key v = k

def insertOrIgnore (t : Table V key) (v : V) : Table V key :=
  if h : key v ∈ t.rows.map key then t
  else ⟨t.rows ++ [v], by
    rw [List.map_append]
    exact List.Nodup.append t.nodup (List.nodup_singleton _) (by simpa using h)⟩

variable {t : Table V key} {k : K} {u v : V} {p q : V → Bool} {f : V → Nat} {g : RowUpdate key} {k' : K}

omit [DecidableEq K] in
theorem eq_of_key (hu : u ∈ t.rows) (hv : v ∈ t.rows) (h : key u = key v) : u = v :=
  List.inj_on_of_nodup_map t.nodup hu hv h

theorem find_eq_some : t.find k = some v ↔ v ∈ t.rows ∧ key v = k := by
  constructor
  · intro h
    have hk := List.find?_some h
    exact ⟨List.mem_of_find?_eq_some h, by simpa using hk⟩
  · intro h
    cases hf : t.find k with
    | none =>
      have hh := List.find?_eq_none.mp hf v h.1
      simp [h.2] at hh
    | some w =>
      have hw : key w = k := by simpa using List.find?_some hf
      rw [eq_of_key (List.mem_of_find?_eq_some hf) h.1 (hw.trans h.2.symm)]

theorem find_eq_none : t.find k = none ↔ ∀ v ∈ t.rows, key v ≠ k := by
  simp [find, List.find?_eq_none]

theorem find_isSome : (t.find k).isSome ↔ ∃ v ∈ t.rows, key v = k := by
  simp [find, List.find?_isSome]

theorem mem_map_key : k ∈ t.rows.map key ↔ t.find k ≠ none := by
  rw [Ne, find_eq_none]
  simp

theorem insertOrIgnore_absent (h : t.find (key v) = none) : (t.insertOrIgnore v).rows = t.rows ++ [v] := by
  have hh : ¬ key v ∈ t.rows.map key := by simp [mem_map_key, h]
  simp only [insertOrIgnore, dif_neg hh]

theorem insertOrIgnore_present (h : t.find (key v) = some u) : t.insertOrIgnore v = t := by
  have hh : key v ∈ t.rows.map key := by simp [mem_map_key, h]
  simp only [insertOrIgnore, dif_pos hh]

theorem mem_insertOrIgnore :
    u ∈ (t.insertOrIgnore v).rows ↔ u ∈ t.rows ∨ t.find (key v) = none ∧ u = v := by
  cases h : t.find (key v) with
  | none => simp [insertOrIgnore_absent h]
  | some w => simp [insertOrIgnore_present h]

theorem find_insertOrIgnore : (t.insertOrIgnore v).find (key v) = some ((t.find (key v)).getD v) := by
  cases h : t.find (key v) with
  | none => exact find_eq_some.mpr ⟨mem_insertOrIgnore.mpr (.inr ⟨h, rfl⟩), rfl⟩
  | some w => rw [insertOrIgnore_present h, h, Option.getD_some]

theorem find_insertOrIgnore_ne (h : key v ≠ k) : (t.insertOrIgnore v).find k = t.find k := by
  cases hv : t.find (key v) with
  | none => simp [find, insertOrIgnore_absent hv, h]
  | some w => rw [insertOrIgnore_present hv]

theorem mem_update : u ∈ (t.update k g).rows ↔ ∃ v ∈ t.rows, u = if key v = k then g.apply v else v := by
  simp [update, eq_comm]

theorem update_cases (h : u ∈ (t.update k g).rows) : (∃ v, t.find k = some v ∧ u = g.apply v) ∨ u ∈ t.rows := by
  obtain ⟨v, hv, rfl⟩ := mem_update.mp h
  by_cases hk : key v = k
  · rw [if_pos hk]
    exact .inl ⟨v, find_eq_some.mpr ⟨hv, hk⟩, rfl⟩
  · rw [if_neg hk]
    exact .inr hv

theorem find_update : (t.update k g).find k' = (t.find k').map fun v => if key v = k then g.apply v else v := by
  simp only [find, update, List.find?_map]
  congr 2
  funext v
  have hh : key (if key v = k then g.apply v else v) = key v := by
    by_cases h : key v = k
    · rw [if_pos h, g.keeps]
    · rw [if_neg h]
  simp [hh]

theorem find_update_ne (h : k' ≠ k) : (t.update k g).find k' = t.find k' := by
  rw [find_update]
  cases hf : t.find k' with
  | none => rfl
  | some v =>
    have hk := (find_eq_some.mp hf).2
    rw [Option.map_some, if_neg (by rw [hk]; exact h)]

omit [DecidableEq K] in
theorem mem_deleteWhere : u ∈ (t.deleteWhere p).rows ↔ u ∈ t.rows ∧ p u = false := by
  simp [deleteWhere]

theorem find_deleteWhere : (t.deleteWhere p).find k = (t.find k).filter fun v => !p v := by
  cases h : t.find k with
  | none =>
    refine find_eq_none.mpr fun v hv => find_eq_none.mp h v (mem_deleteWhere.mp hv).1
  | some v =>
    obtain ⟨hv, hk⟩ := find_eq_some.mp h
    by_cases hp : p v = true
    · simp only [Option.filter_some, hp, Bool.not_true]
      refine find_eq_none.mpr fun u hu hku => ?_
      obtain ⟨hu, hpu⟩ := mem_deleteWhere.mp hu
      rw [eq_of_key hu hv (hku.trans hk.symm), hp] at hpu
      cases hpu
    · rw [Bool.not_eq_true] at hp
      simp only [Option.filter_some, hp, Bool.not_false, if_true]
      exact find_eq_some.mpr ⟨mem_deleteWhere.mpr ⟨hv, hp⟩, hk⟩

theorem find_update_self : (t.update k g).find k = (t.find k).map g.apply := by
  rw [find_update]
  cases hf : t.find k with
  | none => rfl
  | some v => rw [Option.map_some, Option.map_some, if_pos (find_eq_some.mp hf).2]

theorem find_of_mem (h : v ∈ t.rows) : t.find (key v) = some v := find_eq_some.mpr ⟨h, rfl⟩

variable {P : V → Prop}

theorem forall_insert (h : ∀ v ∈ t.rows, P v) (hv : P v) : ∀ u ∈ (t.insertOrIgnore v).rows, P u := by
  intro u hu
  rcases mem_insertOrIgnore.mp hu with hu | ⟨_, rfl⟩
  · exact h u hu
  · exact hv

theorem forall_update (h : ∀ v ∈ t.rows, P v) (hk : ∀ v, t.find k = some v → P (g.apply v)) :
    ∀ u ∈ (t.update k g).rows, P u := by
  intro u hu
  obtain ⟨v, hv, rfl⟩ := mem_update.mp hu
  by_cases hkey : key v = k
  · rw [if_pos hkey]
    exact hk v (find_eq_some.mpr ⟨hv, hkey⟩)
  · rw [if_neg hkey]
    exact h v hv

omit [DecidableEq K] in
theorem forall_deleteWhere (h : ∀ v ∈ t.rows, P v) : ∀ u ∈ (t.deleteWhere p).rows, P u :=
  fun u hu => h u (mem_deleteWhere.mp hu).1

omit [DecidableEq K] in
theorem sumWhere_eq : t.sumWhere p f = (t.rows.map fun v => if p v then f v else 0).sum := by
  simp only [sumWhere]
  induction t.rows with
  | nil => rfl
  | cons v rest ih => by_cases h : p v = true <;> simp [h, ih]

omit [DecidableEq K] in
theorem sumWhere_mono (h : ∀ v ∈ t.rows, p v = true → q v = true) : t.sumWhere p f ≤ t.sumWhere q f := by
  rw [sumWhere_eq, sumWhere_eq]
  apply List.sum_le_sum
  intro v hv
  by_cases hp : p v = true
  · rw [if_pos hp, if_pos (h v hv hp)]
  · rw [if_neg hp]
    exact Nat.zero_le _

theorem sumWhere_insert (h : t.find (key v) = none) :
    (t.insertOrIgnore v).sumWhere p f = t.sumWhere p f + if p v then f v else 0 := by
  simp [sumWhere_eq, insertOrIgnore_absent h]

theorem sumWhere_insertOrIgnore_le :
    (t.insertOrIgnore v).sumWhere p f ≤ t.sumWhere p f + if p v then f v else 0 := by
  cases h : t.find (key v) with
  | none => rw [sumWhere_insert h]
  | some w =>
    rw [insertOrIgnore_present h]
    exact Nat.le_add_right _ _

omit [DecidableEq K] in
theorem sumWhere_deleteWhere_le : (t.deleteWhere q).sumWhere p f ≤ t.sumWhere p f := by
  have hsub : ((t.deleteWhere q).rows.filter p).Sublist (t.rows.filter p) := List.filter_sublist.filter p
  exact (hsub.map f).sum_le_sum (fun _ _ => Nat.zero_le _)

theorem sumWhere_update (h : t.find k = some v) :
    (t.update k g).sumWhere p f + (if p v then f v else 0) =
      t.sumWhere p f + if p (g.apply v) then f (g.apply v) else 0 := by
  obtain ⟨hv, hk⟩ := find_eq_some.mp h
  obtain ⟨before, after, hrows⟩ := List.append_of_mem hv
  have hnodup := t.nodup
  rw [hrows, List.map_append, List.map_cons] at hnodup
  have hbefore : ∀ u ∈ before, key u ≠ k := fun u hu hku =>
    (List.nodup_append.mp hnodup).2.2 (key u) (List.mem_map_of_mem hu) (key v) (List.mem_cons_self ..)
    (hku.trans hk.symm)
  have hafter : ∀ u ∈ after, key u ≠ k := fun u hu hku =>
    (List.nodup_cons.mp (List.nodup_append.mp hnodup).2.1).1
      ((hku.trans hk.symm) ▸ List.mem_map_of_mem (f := key) hu)
  have hsame : ∀ l : List V, (∀ u ∈ l, key u ≠ k) → (l.map fun v => if key v = k then g.apply v else v) = l :=
    fun l hl =>
    (List.map_congr_left fun u hu => if_neg (hl u hu)).trans (List.map_id l)
  have hupdate : (t.update k g).rows = before ++ g.apply v :: after := by
    simp only [update, hrows, List.map_append, List.map_cons, if_pos hk, hsame before hbefore, hsame after hafter]
  simp only [sumWhere_eq, hupdate, hrows, List.map_append, List.map_cons, List.sum_append, List.sum_cons]
  omega

theorem sumWhere_update_le (h : ∀ v, t.find k = some v →
    (if p (g.apply v) then f (g.apply v) else 0) ≤ if p v then f v else 0) :
    (t.update k g).sumWhere p f ≤ t.sumWhere p f := by
  cases hf : t.find k with
  | none =>
    have hrows : (t.update k g).rows = t.rows :=
      (List.map_congr_left fun u hu => if_neg (find_eq_none.mp hf u hu)).trans (List.map_id _)
    simp only [sumWhere, hrows, Nat.le_refl]
  | some v =>
    have hsum := sumWhere_update (p := p) (f := f) (g := g) hf
    have hle := h v hf
    omega

end Table

end Database

/-! First match by key in a list whose keys may repeat: what a lookup can read in some order of the
list, and when a search over several keys answers alike in every order. -/

namespace Lookup

variable {α β : Type} [DecidableEq β] {key : α → β} {xs ys : List α} {b : β} {o : Option α}

def first (key : α → β) (xs : List α) (b : β) : Option α := xs.find? (fun x => key x == b)

/-- Where no key stands twice, the first match is the only one. -/
theorem find_key_iff (hnodup : (xs.map key).Nodup) {x : α} :
    (xs.find? fun y => key y = b) = some x ↔ x ∈ xs ∧ key x = b := by
  constructor
  · intro h
    exact ⟨List.mem_of_find?_eq_some h, by simpa using List.find?_some h⟩
  · rintro ⟨hx, rfl⟩
    cases h : xs.find? fun y => key y = key x with
    | none =>
      have hnone := List.find?_eq_none.mp h x hx
      simp at hnone
    | some y =>
      have hkey : key y = key x := by simpa using List.find?_some h
      rw [List.inj_on_of_nodup_map hnodup (List.mem_of_find?_eq_some h) hx hkey]

/-- What the lookup of a key gives in some order of the list. -/
def CanRead (key : α → β) (xs : List α) (b : β) : Option α → Prop
  | none => ∀ x ∈ xs, key x ≠ b
  | some x => x ∈ xs ∧ key x = b

theorem canRead_first : CanRead key xs b (first key xs b) := by
  cases h : first key xs b with
  | none => exact fun x hx => by simpa using List.find?_eq_none.mp h x hx
  | some x => exact ⟨List.mem_of_find?_eq_some h, by simpa using List.find?_some h⟩

omit [DecidableEq β] in
theorem CanRead.perm (h : CanRead key ys b o) (hperm : xs.Perm ys) : CanRead key xs b o := by
  cases o with
  | none => exact fun x hx => h x (hperm.mem_iff.mp hx)
  | some x => exact ⟨hperm.mem_iff.mpr h.1, h.2⟩

theorem exists_perm_preferring (key : α → β) (xs : List α) (P : Option α → Bool) :
    ∃ ys, xs.Perm ys ∧ ∀ b o, CanRead key xs b o → P o = true → P (first key ys b) = true := by
  have hperm : xs.Perm (xs.filter (fun x => P (some x)) ++ xs.filter (fun x => !P (some x))) :=
    (List.filter_append_perm _ xs).symm
  refine ⟨_, hperm, fun b o hread hP => ?_⟩
  cases o with
  | none =>
    have habsent : first key (xs.filter (fun x => P (some x)) ++ xs.filter (fun x => !P (some x))) b = none := by
      refine List.find?_eq_none.mpr fun x hx => ?_
      simpa using hread x (hperm.mem_iff.mpr hx)
    rw [habsent]
    exact hP
  | some x =>
    have hx : x ∈ xs.filter (fun x => P (some x)) := List.mem_filter.mpr ⟨hread.1, hP⟩
    have hsome : ((xs.filter (fun x => P (some x))).find? (fun x => key x == b)).isSome := by
      simp only [List.find?_isSome]
      exact ⟨x, hx, by simp [hread.2]⟩
    obtain ⟨y, hy⟩ := Option.isSome_iff_exists.mp hsome
    have hfirst : first key (xs.filter (fun x => P (some x)) ++ xs.filter (fun x => !P (some x))) b = some y := by
      rw [first, List.find?_append, hy]
      rfl
    rw [hfirst]
    exact (List.mem_filter.mp (List.mem_of_find?_eq_some hy)).2

/-- A property is settled over some keys when one key reads it in every order, or none in any. -/
def Settled (key : α → β) (xs : List α) (bs : List β) (P : Option α → Bool) : Prop :=
  (∃ b ∈ bs, ∀ o, CanRead key xs b o → P o = true) ∨ ∀ b ∈ bs, ∀ o, CanRead key xs b o → P o = false

variable {P : Option α → Bool} {bs : List β}

theorem Settled.any_eq (h : Settled key xs bs P) (hperm : xs.Perm ys) :
    bs.any (fun b => P (first key ys b)) = bs.any (fun b => P (first key xs b)) := by
  rcases h with ⟨b, hb, halways⟩ | hnever
  · rw [List.any_eq_true.mpr ⟨b, hb, halways _ (canRead_first.perm hperm)⟩,
      List.any_eq_true.mpr ⟨b, hb, halways _ canRead_first⟩]
  · have hys : bs.any (fun b => P (first key ys b)) = false :=
      List.any_eq_false.mpr fun b hb => by simp [hnever b hb _ (canRead_first.perm hperm)]
    have hxs : bs.any (fun b => P (first key xs b)) = false :=
      List.any_eq_false.mpr fun b hb => by simp [hnever b hb _ canRead_first]
    rw [hys, hxs]

theorem settled_iff : Settled key xs bs P ↔
      ∀ ys, xs.Perm ys → bs.any (fun b => P (first key ys b)) = bs.any (fun b => P (first key xs b)) := by
  constructor
  · intro h ys hperm
    exact h.any_eq hperm
  · intro h
    by_cases hfound : bs.any (fun b => P (first key xs b)) = true
    · obtain ⟨ys, hperm, hprefer⟩ := exists_perm_preferring key xs (fun o => !P o)
      have hany := (h ys hperm).trans hfound
      obtain ⟨b, hb, hread⟩ := List.any_eq_true.mp hany
      refine .inl ⟨b, hb, fun o ho => ?_⟩
      by_cases hP : P o = true
      · exact hP
      · have hnot := hprefer b o ho (by simp [hP])
        rw [hread] at hnot
        cases hnot
    · obtain ⟨ys, hperm, hprefer⟩ := exists_perm_preferring key xs P
      refine .inr fun b hb o ho => ?_
      by_cases hP : P o = true
      · have hany : bs.any (fun b => P (first key ys b)) = true := List.any_eq_true.mpr ⟨b, hb, hprefer b o ho hP⟩
        exact absurd ((h ys hperm).symm.trans hany) hfound
      · simpa using hP

end Lookup

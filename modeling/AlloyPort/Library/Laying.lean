import AlloyPort.Library.Crash
import AlloyPort.Library.FileTree

/-! Laying out files below a root, step by step: a directory after the other, and a file empty at first, then with more
and more of its contents. What a crash leaves of it, and when it can be taken up again. -/

namespace FileTree

open Crashing

namespace Tree

variable {N B : Type} [DecidableEq N] [DecidableEq B]

section steps

variable {t t' : Tree N (List B)} {path : List N} {name : N} {contents : List B}

def write (path : List N) (contents : List B) (t : Tree N (List B)) : Tree N (List B) :=
  match h : t.node path with
  | some (.file _) =>
    { node := Function.update t.node path (some (.file contents))
      root := by
        have hne : [] ≠ path := by
          rintro rfl
          rw [t.root] at h
          cases h
        rw [Function.update_of_ne hne]
        exact t.root
      closed := by
        intro path' name' hentry
        have hentry' : t.node (path' ++ [name']) ≠ none := by
          by_cases heq : path' ++ [name'] = path
          · rw [heq, h]
            nofun
          · rwa [Function.update_of_ne heq] at hentry
        have hparent := t.closed path' name' hentry'
        have hne : path' ≠ path := by
          rintro rfl
          rw [h] at hparent
          cases hparent
        rw [Function.update_of_ne hne]
        exact hparent }
  | _ => t

omit [DecidableEq B] in
theorem write_node {old : List B} (h : t.node path = some (.file old)) (p : List N) :
    (t.write path contents).node p = if p = path then some (.file contents) else t.node p := by
  unfold write
  split
  · exact Function.update_apply ..
  · rename_i hother
    exact absurd h (hother old)

omit [DecidableEq N] [DecidableEq B] in
theorem ext_node (h : ∀ p, t.node p = t'.node p) : t = t' := by
  cases t
  cases t'
  obtain rfl := funext h
  rfl

end steps

end Tree

class Volume (D : Type) (N B : outParam Type) [DecidableEq N] [DecidableEq B] where
  tree : D → Tree N (List B)
  add : List N → N → Node (List B) → D → D
  write : List N → List B → D → D
  tree_add : ∀ path name entry d, tree (add path name entry d) = (tree d).add path name entry
  tree_write : ∀ path contents d, tree (write path contents d) = (tree d).write path contents

instance {N B : Type} [DecidableEq N] [DecidableEq B] : Volume (Tree N (List B)) N B where
  tree t := t
  add path name entry t := t.add path name entry
  write := Tree.write
  tree_add _ _ _ _ := rfl
  tree_write _ _ _ := rfl

namespace Tree

variable {N B : Type} [DecidableEq N] [DecidableEq B]

section programs

variable {D : Type} [Volume D N B]

def makeDirsFrom (above : List N) : List N → Crashing D Unit Unit
  | [] => pure ()
  | name :: rest => do
    let d ← Crashing.get
    match (Volume.tree d).node (above ++ [name]) with
    | none => do
      Crashing.step (Volume.add above name .directory)
      makeDirsFrom (above ++ [name]) rest
    | some .directory => makeDirsFrom (above ++ [name]) rest
    | some (.file _) => Crashing.raise ()

def makeDirs (path : List N) : Crashing D Unit Unit := makeDirsFrom [] path

/-- `create_new`, then `write_all` in parts of any length. -/
def createFile (path : List N) (name : N) (contents : List B) : Crashing D WriteError Unit := do
  Crashing.step (Volume.add path name (.file []))
  Crashing.steps (fun written => Volume.write (path ++ [name]) (contents.take written))
    (List.range (contents.length + 1))

def layOnce (path : List N) (name : N) (contents : List B) : Crashing D WriteError Unit := do
  let d ← Crashing.get
  if (Volume.tree d).node path = some .directory then
    match (Volume.tree d).node (path ++ [name]) with
    | none => createFile path name contents
    | some .directory => Crashing.raise .notAFile
    | some (.file existing) => if existing = contents then pure () else Crashing.raise .conflictingContents
  else Crashing.raise .missingDirectory

theorem shows_makeDirsFrom (above path : List N) :
    Shows Volume.tree (makeDirsFrom above path : Crashing D Unit Unit)
      (makeDirsFrom above path : Crashing (Tree N (List B)) Unit Unit) := by
  induction path generalizing above with
  | nil => exact shows_pure
  | cons name rest ih =>
    apply shows_get_bind
    intro d
    change Shows _ _ (match (Volume.tree d).node (above ++ [name]) with
      | none => _
      | some .directory => _
      | some (.file _) => _)
    cases (Volume.tree d).node (above ++ [name]) with
    | none => exact shows_bind (shows_step fun d => (Volume.tree_add ..).symm) fun _ => ih _
    | some entry =>
      cases entry with
      | directory => exact ih _
      | file contents => exact shows_raise

theorem shows_layOnce (path : List N) (name : N) (contents : List B) :
    Shows Volume.tree (layOnce path name contents : Crashing D WriteError Unit)
      (layOnce path name contents : Crashing (Tree N (List B)) WriteError Unit) := by
  apply shows_get_bind
  intro d
  change Shows _ (if (Volume.tree d).node path = some .directory then _ else _)
    (if (Volume.tree d).node path = some .directory then _ else _)
  by_cases hparent : (Volume.tree d).node path = some .directory
  · rw [if_pos hparent, if_pos hparent]
    change Shows _ _ (match (Volume.tree d).node (path ++ [name]) with
      | none => _
      | some .directory => _
      | some (.file _) => _)
    cases (Volume.tree d).node (path ++ [name]) with
    | none =>
      apply shows_bind (shows_step fun d => (Volume.tree_add ..).symm)
      exact fun _ => shows_steps fun _ d => (Volume.tree_write ..).symm
    | some entry =>
      cases entry with
      | directory => exact shows_raise
      | file existing =>
        by_cases hsame : existing = contents
        · simp only [if_pos hsame]
          exact shows_pure
        · simp only [if_neg hsame]
          exact shows_raise
  · rw [if_neg hparent, if_neg hparent]
    exact shows_raise

end programs

section steps

variable {t t' : Tree N (List B)} {path : List N} {name : N} {contents : List B}

@[simp] theorem volume_tree : Volume.tree t = t := rfl

@[simp] theorem volume_add {entry : Node (List B)} : Volume.add path name entry t = t.add path name entry := rfl

@[simp] theorem volume_write : Volume.write path contents t = t.write path contents := rfl

theorem makeDirsFrom_run {above : List N} :
    (makeDirsFrom above path).run t = match t.createDirsFrom above path with
      | some t' => .ok ((), t')
      | none => .error () := by
  induction path generalizing t above with
  | nil => rfl
  | cons name rest ih =>
    simp only [makeDirsFrom, createDirsFrom, run_bind, run_get, volume_tree]
    cases hnode : t.node (above ++ [name]) with
    | none => simp [ih]
    | some entry =>
      cases entry with
      | directory => exact ih
      | file contents => rfl

theorem makeDirs_run : (makeDirs path).run t = match t.createDirs path with
    | some t' => .ok ((), t')
    | none => .error () := makeDirsFrom_run

omit [DecidableEq B] in
theorem writes_node {l : List Nat} (h : ∃ old, t.node path = some (.file old)) (last : Nat) (p : List N) :
    ((l ++ [last]).foldl (fun t written => t.write path (contents.take written)) t).node p =
      if p = path then some (.file (contents.take last)) else t.node p := by
  obtain ⟨old, hold⟩ := h
  induction l generalizing t old with
  | nil => exact write_node hold p
  | cons written rest ih =>
    have hnode : ∀ p, (t.write path (contents.take written)).node p =
        if p = path then some (.file (contents.take written)) else t.node p := write_node hold
    have hwritten : (t.write path (contents.take written)).node path = some (.file (contents.take written)) := by
      rw [hnode, if_pos rfl]
    rw [List.cons_append, List.foldl_cons, ih _ hwritten, hnode]
    by_cases hp : p = path
    · rw [if_pos hp, if_pos hp]
    · rw [if_neg hp, if_neg hp, if_neg hp]

theorem createFile_run (hparent : t.node path = some .directory) (hnone : t.node (path ++ [name]) = none) :
    (createFile path name contents).run t = .ok ((), t.add path name (.file contents)) := by
  have hadd := fun q => @add_node _ _ _ _ t path name (Node.file ([] : List B)) hparent hnone q
  have hfull := fun q => @add_node _ _ _ _ t path name (Node.file contents) hparent hnone q
  simp only [createFile, run_bind, run_step, run_steps, volume_add, volume_write]
  congr 2
  refine ext_node fun p => ?_
  rw [List.range_succ, writes_node ⟨[], by rw [hadd, if_pos rfl]⟩, hfull, hadd, List.take_length]
  by_cases hp : p = path ++ [name]
  · rw [if_pos hp, if_pos hp]
  · rw [if_neg hp, if_neg hp, if_neg hp]

theorem layOnce_run : (layOnce path name contents).run t = (t.writeOnce path name contents).map fun t' => ((), t') := by
  simp only [layOnce, writeOnce, run_bind, run_get, volume_tree]
  by_cases hparent : t.node path = some .directory
  · rw [if_pos hparent, if_pos hparent]
    cases hnode : t.node (path ++ [name]) with
    | none => exact createFile_run hparent hnode
    | some entry =>
      cases entry with
      | directory => rfl
      | file existing =>
        by_cases hsame : existing = contents
        · simp [hsame, Except.map]
        · simp [hsame, Except.map]
  · rw [if_neg hparent, if_neg hparent]
    rfl

end steps

section partly

/-- What is below a root has come from these files, of which any part may be missing. -/
structure Partly (root : List N) (files : List (List N × List B)) (t₀ t : Tree N (List B)) : Prop where
  way : ∀ p, p <+: root → ∀ contents, t.node p ≠ some (.file contents)
  content : ∀ rel contents, t.node (root ++ rel) = some (.file contents) →
    ∃ file ∈ files, file.1 = rel ∧ contents <+: file.2
  directories : ∀ rel, rel ≠ [] → t.node (root ++ rel) = some .directory → ∃ file ∈ files, rel <+: file.1 ∧ rel ≠ file.1
  elsewhere : ∀ p, ¬ root <+: p → ∀ contents, t.node p = some (.file contents) ↔ t₀.node p = some (.file contents)

variable {root path above : List N} {name : N} {files : List (List N × List B)} {t₀ t t' : Tree N (List B)}
variable {contents : List B} {rel : List N}

def Leads (root : List N) (files : List (List N × List B)) (p : List N) : Prop :=
  p <+: root ∨ ∃ rel, p = root ++ rel ∧ ∃ file ∈ files, rel <+: file.1 ∧ rel ≠ file.1

omit [DecidableEq N] [DecidableEq B] in
theorem leads_above (hmem : (above ++ [name], contents) ∈ files) {p : List N} (hp : p <+: root ++ above) :
    Leads root files p := by
  rcases List.prefix_or_prefix_of_prefix hp (List.prefix_append root above) with hup | ⟨rel, rfl⟩
  · exact .inl hup
  · have hrel := (List.prefix_append_right_inj root).mp hp
    refine .inr ⟨rel, rfl, _, hmem, hrel.trans (List.prefix_append above [name]), ?_⟩
    rintro rfl
    have hlength := hrel.length_le
    rw [List.length_append, List.length_singleton] at hlength
    omega

theorem Partly.add_directory (h : Partly root files t₀ t) (hleads : Leads root files (path ++ [name])) :
    Partly root files t₀ (t.add path name .directory) := by
  by_cases hfits : t.node path = some .directory ∧ t.node (path ++ [name]) = none
  · have hnode := fun p => @add_node _ _ _ _ t path name (Node.directory (F := List B)) hfits.1 hfits.2 p
    have hfile : ∀ p contents, (t.add path name .directory).node p = some (.file contents) ↔
        t.node p = some (.file contents) := by
      intro p contents
      rw [hnode]
      by_cases hp : p = path ++ [name]
      · simp [hp, hfits.2]
      · rw [if_neg hp]
    refine ⟨fun p hp contents hf => h.way p hp contents ((hfile p contents).mp hf),
      fun rel contents hf => h.content rel contents ((hfile _ contents).mp hf), fun rel hne hdirectory => ?_,
      fun p hp contents => (hfile p contents).trans (h.elsewhere p hp contents)⟩
    rw [hnode] at hdirectory
    by_cases hp : root ++ rel = path ++ [name]
    · rw [← hp] at hleads
      rcases hleads with hup | ⟨rel', heq, hfile⟩
      · have hlength := hup.length_le
        rw [List.length_append] at hlength
        exact absurd (List.length_eq_zero_iff.mp (by omega)) hne
      · rw [List.append_cancel_left heq]
        exact hfile
    · rw [if_neg hp] at hdirectory
      exact h.directories rel hne hdirectory
  · rw [add, dif_neg hfits]
    exact h

omit [DecidableEq B] in
theorem Partly.set_file (h : Partly root files t₀ t) {whole : List B} (hmem : (rel, whole) ∈ files)
    (hpart : contents <+: whole) (hne : rel ≠ [])
    (hnode : ∀ p, t'.node p = if p = root ++ rel then some (.file contents) else t.node p) :
    Partly root files t₀ t' := by
  refine ⟨fun p hp other hf => ?_, fun rel' other hf => ?_, fun rel' hne' hdirectory => ?_, fun p hp other => ?_⟩
  · have hother : p ≠ root ++ rel := by
      rintro rfl
      have hlength := hp.length_le
      rw [List.length_append] at hlength
      exact hne (List.length_eq_zero_iff.mp (by omega))
    rw [hnode, if_neg hother] at hf
    exact h.way p hp other hf
  · rw [hnode] at hf
    by_cases hsame : root ++ rel' = root ++ rel
    · rw [if_pos hsame] at hf
      cases hf
      exact ⟨_, hmem, (List.append_cancel_left hsame).symm, hpart⟩
    · rw [if_neg hsame] at hf
      exact h.content rel' other hf
  · rw [hnode] at hdirectory
    by_cases hsame : root ++ rel' = root ++ rel
    · rw [if_pos hsame] at hdirectory
      cases hdirectory
    · rw [if_neg hsame] at hdirectory
      exact h.directories rel' hne' hdirectory
  · have hother : p ≠ root ++ rel := by
      rintro rfl
      exact hp (List.prefix_append root rel)
    rw [hnode, if_neg hother]
    exact h.elsewhere p hp other

theorem partly_makeDirsFrom {rest : List N} (hleads : ∀ p, p <+: above ++ rest → Leads root files p) :
    Preserves (Partly root files t₀) (makeDirsFrom above rest) := by
  induction rest generalizing above with
  | nil => exact preserves_pure
  | cons name rest ih =>
    rw [List.append_cons] at hleads
    have hfirst : Leads root files (above ++ [name]) := hleads _ (List.prefix_append _ _)
    apply preserves_bind preserves_get
    intro t
    split
    · apply preserves_bind (preserves_step fun t h => h.add_directory hfirst)
      exact fun _ => ih hleads
    · exact ih hleads
    · exact preserves_raise

theorem partly_makeDirs (hleads : ∀ p, p <+: path → Leads root files p) :
    Preserves (Partly root files t₀) (makeDirs path) := partly_makeDirsFrom hleads

theorem partly_layOnce (hpath : path ++ [name] = root ++ rel) (hmem : (rel, contents) ∈ files)
    (hne : rel ≠ []) : Preserves (Partly root files t₀) (layOnce path name contents) := by
  apply preserves_bind preserves_get
  intro t
  apply preserves_ite
  · split
    · apply preserves_bind
      · apply preserves_step
        intro t h
        by_cases hfits : t.node path = some .directory ∧ t.node (path ++ [name]) = none
        · apply h.set_file hmem List.nil_prefix hne
          rw [← hpath]
          exact add_node hfits.1 hfits.2
        · rw [volume_add, add, dif_neg hfits]
          exact h
      · intro _
        apply preserves_steps
        intro written _ t h
        by_cases hfile : ∃ old, t.node (path ++ [name]) = some (.file old)
        · obtain ⟨old, hold⟩ := hfile
          apply h.set_file hmem (List.take_prefix written contents) hne
          rw [← hpath]
          exact write_node hold
        · have hsame : t.write (path ++ [name]) (contents.take written) = t := by
            unfold write
            split
            · rename_i old hold
              exact absurd ⟨old, hold⟩ hfile
            · rfl
          rw [volume_write, hsame]
          exact h
    · exact preserves_raise
    · exact preserves_ite preserves_pure preserves_raise
  · exact preserves_raise

end partly

section resuming

variable {root above : List N} {name : N} {files : List (List N × List B)} {t₀ t t₁ t' : Tree N (List B)}
  {contents : List B} {path : List N}

/-- No file stands where another needs a directory, or its own place. -/
def Crossless (files : List (List N × List B)) : Prop :=
  ∀ file ∈ files, ∀ other ∈ files, file.1 <+: other.1 → file = other

def Whole (root : List N) (files : List (List N × List B)) (t : Tree N (List B)) : Prop :=
  ∀ file ∈ files, ∀ contents, t.node (root ++ file.1) = some (.file contents) → contents = file.2

omit [DecidableEq N] in
theorem whole_of_all (h : files.all (fun file => match t.node (root ++ file.1) with
    | some (.file contents) => contents = file.2
    | _ => true) = true) : Whole root files t := by
  intro file hfile contents hnode
  have hsame := List.all_eq_true.mp h file hfile
  rw [hnode] at hsame
  exact of_decide_eq_true hsame

def Grows (t t' : Tree N (List B)) : Prop := ∀ p entry, t.node p = some entry → t'.node p = some entry

omit [DecidableEq N] [DecidableEq B] in
theorem Grows.trans {t'' : Tree N (List B)} (h : Grows t t') (h' : Grows t' t'') : Grows t t'' :=
  fun p entry hentry => h' p entry (h p entry hentry)

theorem add_grows (path : List N) (entry : Node (List B)) : Grows t (t.add path name entry) := by
  intro p held hp
  by_cases hfits : t.node path = some .directory ∧ t.node (path ++ [name]) = none
  · have hne : p ≠ path ++ [name] := by
      rintro rfl
      cases hp.symm.trans hfits.2
    rw [add_node hfits.1 hfits.2, if_neg hne]
    exact hp
  · rw [add, dif_neg hfits]
    exact hp

theorem createDirsFrom_grows (h : t.createDirsFrom above path = some t') : Grows t t' := by
  induction path generalizing t above with
  | nil =>
    cases h
    exact fun _ _ hp => hp
  | cons name rest ih =>
    rw [createDirsFrom] at h
    cases hnode : t.node (above ++ [name]) with
    | none =>
      rw [hnode] at h
      exact (add_grows above .directory).trans (ih h)
    | some entry =>
      rw [hnode] at h
      cases entry with
      | directory => exact ih h
      | file contents => cases h

theorem createDirs_grows (h : t.createDirs path = some t') : Grows t t' := createDirsFrom_grows h

theorem writeOnce_grows (h : t.writeOnce path name contents = .ok t') : Grows t t' := by
  unfold writeOnce at h
  by_cases hparent : t.node path = some .directory
  · rw [if_pos hparent] at h
    cases hnode : t.node (path ++ [name]) with
    | none =>
      rw [hnode] at h
      cases h
      intro p entry hentry
      rw [add_node hparent hnode]
      by_cases hp : p = path ++ [name]
      · rw [hp, hnode] at hentry
        cases hentry
      · rw [if_neg hp]
        exact hentry
    | some entry =>
      rw [hnode] at h
      cases entry with
      | directory => cases h
      | file existing =>
        simp only at h
        by_cases hsame : existing = contents
        · rw [if_pos hsame] at h
          cases h
          exact fun p entry hentry => hentry
        · rw [if_neg hsame] at h
          cases h
  · rw [if_neg hparent] at h
    cases h

theorem Partly.resume (h : Partly root files t₀ t) (hwhole : Whole root files t) (hapart : Crossless files)
    (hmem : (above ++ [name], contents) ∈ files) : ∃ t₁ t', t.createDirs (root ++ above) = some t₁ ∧
      t₁.writeOnce (root ++ above) name contents = .ok t' ∧ Partly root files t₀ t' ∧ Whole root files t' ∧ Grows t t' ∧
      t'.node (root ++ above ++ [name]) = some (.file contents) := by
  have hsome : (t.createDirs (root ++ above)).isSome = true := by
    rw [createDirs_isSome]
    intro p hp other hf
    rcases List.prefix_or_prefix_of_prefix hp (List.prefix_append root above) with hup | ⟨rel, rfl⟩
    · exact h.way p hup other hf
    · obtain ⟨file, hfile, hrel, _⟩ := h.content rel other hf
      have hbegins : file.1 <+: above := by
        rw [hrel]
        exact (List.prefix_append_right_inj root).mp hp
      have heq := congrArg Prod.fst (hapart file hfile _ hmem (hbegins.trans (List.prefix_append above [name])))
      have hlength := hbegins.length_le
      rw [heq, List.length_append, List.length_singleton] at hlength
      omega
  obtain ⟨t₁, hdirs⟩ := Option.isSome_iff_exists.mp hsome
  have hplace : t.node (root ++ above ++ [name]) = none ∨ t.node (root ++ above ++ [name]) = some (.file contents) := by
    cases hnode : t.node (root ++ above ++ [name]) with
    | none => exact .inl rfl
    | some entry =>
      rw [List.append_assoc] at hnode
      cases entry with
      | directory =>
        obtain ⟨file, hfile, hbegins, hne⟩ := h.directories _ (by simp) hnode
        exact absurd (congrArg Prod.fst (hapart _ hmem file hfile hbegins)) hne
      | file existing =>
        rw [hwhole _ hmem existing hnode]
        exact .inr rfl
  obtain ⟨t', hwrite⟩ := (writeOnce_ok_iff hdirs).mpr hplace
  have hgrows : Grows t t' := (createDirs_grows hdirs).trans (writeOnce_grows hwrite)
  have hnode := place_node hdirs hwrite
  have hleads : ∀ p, p <+: root ++ above → Leads root files p := fun p hp => leads_above hmem hp
  have hpartly₁ : Partly root files t₀ t₁ := (partly_makeDirs hleads).run h (by rw [makeDirs_run, hdirs])
  have hpartly : Partly root files t₀ t' :=
    (partly_layOnce (List.append_assoc _ _ _) hmem (by simp)).run hpartly₁ (by rw [layOnce_run, hwrite]; rfl)
  refine ⟨t₁, t', hdirs, hwrite, hpartly, ?_, hgrows, by rw [hnode, if_pos rfl]⟩
  intro file hfile other hf
  rw [hnode] at hf
  by_cases hself : root ++ file.1 = root ++ above ++ [name]
  · rw [if_pos hself] at hf
    cases hf
    rw [List.append_assoc] at hself
    have hsame : file.1 = above ++ [name] := List.append_cancel_left hself
    have heq := hapart file hfile _ hmem (by rw [hsame])
    rw [heq]
  · rw [if_neg hself] at hf
    by_cases hup : root ++ file.1 <+: root ++ above
    · rw [if_pos hup] at hf
      cases hf
    · rw [if_neg hup] at hf
      exact hwhole file hfile other hf

end resuming

section laying

variable {D ε : Type} [Volume D N B] {root above q : List N} {name : N} {files : List (List N × List B)}
variable {t t' t₀ : Tree N (List B)} {contents : List B} {path : List N} {g : WriteError → ε} {d : D}

theorem createDirs_below (h : t.node root = some .directory) (rest : List N) :
    t.createDirs (root ++ rest) = t.createDirsFrom root rest := by
  have hfrom : ∀ below start, start ++ below = root →
      t.createDirsFrom start (below ++ rest) = t.createDirsFrom root rest := by
    intro below
    induction below with
    | nil =>
      intro start hroot
      rw [← hroot, List.append_nil, List.nil_append]
    | cons name below ih =>
      intro start hroot
      rw [List.append_cons] at hroot
      have hdirectory : t.node (start ++ [name]) = some .directory := by
        by_cases hend : start ++ [name] = root
        · rw [hend, h]
        · exact above (by rw [h]; nofun) ⟨below, hroot⟩ hend
      rw [List.cons_append, createDirsFrom, hdirectory]
      exact ih _ hroot
  exact hfrom root [] rfl

omit [DecidableEq B] in
theorem write_stays (h : t.node q = some .directory) (path : List N) :
    (t.write path contents).node q = some .directory := by
  by_cases hfile : ∃ old, t.node path = some (.file old)
  · obtain ⟨old, hold⟩ := hfile
    have hne : q ≠ path := by
      rintro rfl
      cases h.symm.trans hold
    rw [write_node hold, if_neg hne]
    exact h
  · unfold write
    split
    · rename_i old hold
      exact absurd ⟨old, hold⟩ hfile
    · exact h

theorem add_stays (h : t.node q = some .directory) (path : List N) (entry : Node (List B)) :
    (t.add path name entry).node q = some .directory := by
  by_cases hfits : t.node path = some .directory ∧ t.node (path ++ [name]) = none
  · have hne : q ≠ path ++ [name] := by
      rintro rfl
      cases h.symm.trans hfits.2
    rw [add_node hfits.1 hfits.2, if_neg hne]
    exact h
  · rw [add, dif_neg hfits]
    exact h

def Stays (p : Crashing D ε Unit) : Prop :=
  ∀ q, Preserves (fun d => (Volume.tree d).node q = some .directory) p

theorem stays_makeDirsFrom (above path : List N) : Stays (makeDirsFrom above path : Crashing D Unit Unit) := by
  intro q
  refine Shows.preserves (I := fun t : Tree N (List B) => t.node q = some .directory)
    (shows_makeDirsFrom above path) ?_
  induction path generalizing above with
  | nil => exact preserves_pure
  | cons name rest ih =>
    apply preserves_bind preserves_get
    intro t
    split
    · apply preserves_bind (preserves_step fun t h => add_stays h _ _)
      exact fun _ => ih _
    · exact ih _
    · exact preserves_raise

theorem stays_layOnce (path : List N) (name : N) (contents : List B) :
    Stays (layOnce path name contents : Crashing D WriteError Unit) := by
  intro q
  refine Shows.preserves (I := fun t : Tree N (List B) => t.node q = some .directory)
    (shows_layOnce path name contents) ?_
  apply preserves_bind preserves_get
  intro t
  apply preserves_ite
  · split
    · apply preserves_bind (preserves_step fun t h => add_stays h _ _)
      exact fun _ => preserves_steps fun _ _ t h => write_stays h _
    · exact preserves_raise
    · exact preserves_ite preserves_pure preserves_raise
  · exact preserves_raise

/-- A program that puts some of the files to their places: what it leaves when it is stopped, what its end says, and
that it goes through where no file is in the way of another and all are whole. -/
structure Lays (root : List N) (files laid : List (List N × List B)) (p : Crashing D ε Unit) : Prop where
  partly : ∀ t₀, Preserves (fun d => Partly root files t₀ (Volume.tree d)) p
  stays : Stays p
  grows : ∀ d d', p.run d = .ok ((), d') → Grows (Volume.tree d) (Volume.tree d')
  placed : ∀ d d', p.run d = .ok ((), d') → ∀ file ∈ laid, (Volume.tree d').node (root ++ file.1) = some (.file file.2)
  resumes : Crossless files → ∀ t₀ d, Partly root files t₀ (Volume.tree d) → Whole root files (Volume.tree d) →
    (Volume.tree d).node root = some .directory → ∃ d', p.run d = .ok ((), d') ∧ Whole root files (Volume.tree d')

theorem lays_nothing : Lays root files [] (pure () : Crashing D ε Unit) where
  partly _ := preserves_pure
  stays _ := preserves_pure
  grows _ _ h := by
    cases h
    exact fun _ _ hentry => hentry
  placed _ _ _ _ hfile := by cases hfile
  resumes _ _ d _ hwhole _ := ⟨d, rfl, hwhole⟩

theorem Lays.bind {laid laid' : List (List N × List B)} {p p' : Crashing D ε Unit} (h : Lays root files laid p)
    (h' : Lays root files laid' p') : Lays root files (laid ++ laid') (p >>= fun _ => p') where
  partly t₀ := preserves_bind (h.partly t₀) fun _ => h'.partly t₀
  stays q := preserves_bind (h.stays q) fun _ => h'.stays q
  grows d d' hrun := by
    obtain ⟨_, d₁, hrun₁, hrun₂⟩ := run_bind_ok.mp hrun
    exact (h.grows _ _ hrun₁).trans (h'.grows _ _ hrun₂)
  placed d d' hrun file hfile := by
    obtain ⟨_, d₁, hrun₁, hrun₂⟩ := run_bind_ok.mp hrun
    rcases List.mem_append.mp hfile with hfile | hfile
    · exact h'.grows _ _ hrun₂ _ _ (h.placed _ _ hrun₁ file hfile)
    · exact h'.placed _ _ hrun₂ file hfile
  resumes hapart t₀ d hpartly hwhole hroot := by
    obtain ⟨d₁, hrun₁, hwhole₁⟩ := h.resumes hapart t₀ d hpartly hwhole hroot
    obtain ⟨d', hrun', hwhole'⟩ := h'.resumes hapart t₀ d₁ ((h.partly t₀).run hpartly hrun₁) hwhole₁
      ((h.stays root).run hroot hrun₁)
    exact ⟨d', run_bind_ok.mpr ⟨(), d₁, hrun₁, hrun'⟩, hwhole'⟩

def layEach {F : Type} (place : F → Crashing D ε Unit) : List F → Crashing D ε Unit
  | [] => pure ()
  | file :: rest => do
    place file
    layEach place rest

theorem lays_each {F : Type} {place : F → Crashing D ε Unit} {entry : F → List N × List B} {l : List F}
    (h : ∀ file ∈ l, Lays root files [entry file] (place file)) : Lays root files (l.map entry) (layEach place l) := by
  induction l with
  | nil => exact lays_nothing
  | cons file rest ih =>
    exact (h file List.mem_cons_self).bind (ih fun later hlater => h later (List.mem_cons_of_mem file hlater))

theorem makeDirsFrom_run_iff {t' : Tree N (List B)} :
    (∃ d', (makeDirsFrom above path).run d = .ok ((), d') ∧ Volume.tree d' = t') ↔
      (Volume.tree d).createDirsFrom above path = some t' := by
  rw [← (shows_makeDirsFrom above path).run_ok_iff, makeDirsFrom_run]
  cases (Volume.tree d).createDirsFrom above path with
  | none => simp
  | some t₁ => simp

theorem layOnce_run_iff {t' : Tree N (List B)} :
    (∃ d', (layOnce path name contents).run d = .ok ((), d') ∧ Volume.tree d' = t') ↔
      (Volume.tree d).writeOnce path name contents = .ok t' := by
  rw [← (shows_layOnce path name contents).run_ok_iff, layOnce_run]
  cases (Volume.tree d).writeOnce path name contents with
  | error | ok => simp [Except.map]

theorem run_mapError_ok {ε' : Type} {p : Crashing D ε Unit} {g : ε → ε'} {d' : D} :
    (p.mapError g).run d = .ok ((), d') ↔ p.run d = .ok ((), d') := by
  rw [run_mapError]
  cases p.run d with
  | error | ok => constructor <;> intro h <;> cases h <;> rfl

theorem writeOnce_node (h : t.writeOnce path name contents = .ok t') :
    t'.node (path ++ [name]) = some (.file contents) := by
  unfold writeOnce at h
  by_cases hparent : t.node path = some .directory
  · rw [if_pos hparent] at h
    cases hnode : t.node (path ++ [name]) with
    | none =>
      rw [hnode] at h
      cases h
      rw [add_node hparent hnode, if_pos rfl]
    | some entry =>
      rw [hnode] at h
      cases entry with
      | directory => cases h
      | file existing =>
        by_cases hsame : existing = contents
        · simp only [if_pos hsame] at h
          cases h
          rw [hnode, hsame]
        · simp only [if_neg hsame] at h
          cases h
  · rw [if_neg hparent] at h
    cases h

theorem lays_here (hmem : ([name], contents) ∈ files) :
    Lays root files [([name], contents)] ((layOnce root name contents).mapError g : Crashing D ε Unit) where
  partly t₀ := by
    apply preserves_mapError
    exact (shows_layOnce root name contents).preserves (partly_layOnce rfl hmem (by simp))
  stays q := preserves_mapError (stays_layOnce root name contents q)
  grows d d' h := writeOnce_grows (layOnce_run_iff.mp ⟨d', run_mapError_ok.mp h, rfl⟩)
  placed d d' h file hfile := by
    obtain rfl := List.mem_singleton.mp hfile
    exact writeOnce_node (layOnce_run_iff.mp ⟨d', run_mapError_ok.mp h, rfl⟩)
  resumes hapart t₀ d hpartly hwhole hroot := by
    have hplace : (([] : List N) ++ [name], contents) ∈ files := hmem
    obtain ⟨t₁, t', hdirs, hwrite, _, hwhole', _⟩ := hpartly.resume hwhole hapart hplace
    rw [createDirs_below hroot] at hdirs
    obtain rfl : Volume.tree d = t₁ := Option.some.inj hdirs
    rw [List.append_nil] at hwrite
    obtain ⟨d', hrun, rfl⟩ := layOnce_run_iff.mpr hwrite
    exact ⟨d', run_mapError_ok.mpr hrun, hwhole'⟩

theorem lays_below {f : Unit → ε} (hmem : (above ++ [name], contents) ∈ files) :
    Lays root files [(above ++ [name], contents)] (do
      (makeDirsFrom root above).mapError f
      (layOnce (root ++ above) name contents).mapError g : Crashing D ε Unit) where
  partly t₀ := by
    apply preserves_bind
    · apply preserves_mapError
      exact (shows_makeDirsFrom root above).preserves (partly_makeDirsFrom fun p hp => leads_above hmem hp)
    · intro _
      apply preserves_mapError
      exact (shows_layOnce (root ++ above) name contents).preserves
        (partly_layOnce (List.append_assoc root above [name]) hmem (by simp))
  stays q := preserves_bind (preserves_mapError (stays_makeDirsFrom root above q))
    fun _ => preserves_mapError (stays_layOnce (root ++ above) name contents q)
  grows d d' h := by
    obtain ⟨_, d₁, hdirs, hwrite⟩ := run_bind_ok.mp h
    have hgrows := createDirsFrom_grows (makeDirsFrom_run_iff.mp ⟨d₁, run_mapError_ok.mp hdirs, rfl⟩)
    exact hgrows.trans (writeOnce_grows (layOnce_run_iff.mp ⟨d', run_mapError_ok.mp hwrite, rfl⟩))
  placed d d' h file hfile := by
    obtain rfl := List.mem_singleton.mp hfile
    obtain ⟨_, d₁, hdirs, hwrite⟩ := run_bind_ok.mp h
    have hnode := writeOnce_node (layOnce_run_iff.mp ⟨d', run_mapError_ok.mp hwrite, rfl⟩)
    rwa [List.append_assoc] at hnode
  resumes hapart t₀ d hpartly hwhole hroot := by
    obtain ⟨t₁, t', hdirs, hwrite, _, hwhole', _⟩ := hpartly.resume hwhole hapart hmem
    rw [createDirs_below hroot] at hdirs
    obtain ⟨d₁, hrun₁, rfl⟩ := makeDirsFrom_run_iff.mpr hdirs
    obtain ⟨d', hrun', rfl⟩ := layOnce_run_iff.mpr hwrite
    exact ⟨d', run_bind_ok.mpr ⟨(), d₁, run_mapError_ok.mpr hrun₁, run_mapError_ok.mpr hrun'⟩, hwhole'⟩

def Exactly (root : List N) (files : List (List N × List B)) (t : Tree N (List B)) : Prop :=
  ∀ rel contents, t.node (root ++ rel) = some (.file contents) ↔ (rel, contents) ∈ files

omit [DecidableEq N] [DecidableEq B] in
theorem Exactly.crossless (h : Exactly root files t) : Crossless files := by
  intro file hfile other hother hup
  have hnode := (h file.1 file.2).mpr hfile
  have hnode' := (h other.1 other.2).mpr hother
  have hpath : file.1 = other.1 := by
    by_contra hne
    have hdirectory := above (by rw [hnode']; nofun) ((List.prefix_append_right_inj root).mpr hup)
      fun heq => hne (List.append_cancel_left heq)
    cases hnode.symm.trans hdirectory
  rw [hpath, hnode'] at hnode
  exact Prod.ext hpath (Node.file.inj (Option.some.inj hnode)).symm

omit [DecidableEq N] [DecidableEq B] in
theorem Exactly.whole (h : Exactly root files t') (hgrows : Grows t t') : Whole root files t := by
  intro file hfile contents hnode
  have hkept := hgrows _ _ hnode
  rw [(h file.1 file.2).mpr hfile] at hkept
  exact (Node.file.inj (Option.some.inj hkept)).symm

end laying

end Tree

variable {N B : Type} [DecidableEq N] [DecidableEq B]

structure Folder (N B : Type) where
  tree : Tree N (List B)
  paths : List (List N)
  covers : ∀ p, tree.node p ≠ none → p ∈ paths

namespace Folder

def empty : Folder N B where
  tree := Tree.empty
  paths := [[]]
  covers p h := by
    by_contra hne
    simp only [List.mem_singleton] at hne
    exact h (if_neg hne)

instance : Volume (Folder N B) N B where
  tree := Folder.tree
  add path name entry d :=
    { tree := d.tree.add path name entry
      paths := (path ++ [name]) :: d.paths
      covers := by
        intro p hp
        by_cases hfits : d.tree.node path = some .directory ∧ d.tree.node (path ++ [name]) = none
        · rw [Tree.add_node hfits.1 hfits.2] at hp
          by_cases hnew : p = path ++ [name]
          · exact hnew ▸ List.mem_cons_self
          · rw [if_neg hnew] at hp
            exact List.mem_cons_of_mem _ (d.covers p hp)
        · rw [Tree.add, dif_neg hfits] at hp
          exact List.mem_cons_of_mem _ (d.covers p hp) }
  write path contents d :=
    { tree := d.tree.write path contents
      paths := d.paths
      covers := by
        intro p hp
        apply d.covers p
        by_cases hfile : ∃ old, d.tree.node path = some (.file old)
        · obtain ⟨old, hold⟩ := hfile
          rw [Tree.write_node hold] at hp
          by_cases hsame : p = path
          · rw [hsame, hold]
            nofun
          · rwa [if_neg hsame] at hp
        · unfold Tree.write at hp
          split at hp
          · rename_i old hold
            exact absurd ⟨old, hold⟩ hfile
          · exact hp }
  tree_add _ _ _ _ := rfl
  tree_write _ _ _ := rfl

def isFile (d : Folder N B) (p : List N) : Bool :=
  match d.tree.node p with
  | some (.file _) => true
  | _ => false

def files (root : List N) (d : Folder N B) : List (List N) :=
  (d.paths.filter fun p => root <+: p && d.isFile p).map (List.drop root.length)

variable {d : Folder N B} {root rel : List N}

theorem makeDirsFrom_run_iff {above path : List N} {t' : Tree N (List B)} :
    (∃ d', (Tree.makeDirsFrom above path).run d = .ok ((), d') ∧ d'.tree = t') ↔
      d.tree.createDirsFrom above path = some t' := Tree.makeDirsFrom_run_iff

omit [DecidableEq N] [DecidableEq B] in
theorem isFile_iff {p : List N} : d.isFile p = true ↔ ∃ contents, d.tree.node p = some (.file contents) := by
  unfold isFile
  cases d.tree.node p with
  | none => simp
  | some entry => cases entry <;> simp

omit [DecidableEq B] in
theorem mem_files : rel ∈ d.files root ↔ ∃ contents, d.tree.node (root ++ rel) = some (.file contents) := by
  simp only [files, List.mem_map, List.mem_filter, Bool.and_eq_true, decide_eq_true_eq, isFile_iff]
  constructor
  · rintro ⟨p, ⟨_, ⟨rest, rfl⟩, hfile⟩, hrel⟩
    rw [List.drop_left] at hrel
    exact hrel ▸ hfile
  · rintro ⟨contents, hfile⟩
    exact ⟨root ++ rel, ⟨d.covers _ (by rw [hfile]; nofun), List.prefix_append root rel, contents, hfile⟩,
      List.drop_left⟩

end Folder

end FileTree

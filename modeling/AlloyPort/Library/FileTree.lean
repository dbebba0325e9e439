import Mathlib.Data.List.Infix

/-! Trees of directories and files without links. A path is the list of the names on the way from the root. -/

namespace FileTree

inductive Node (F : Type) where
  | directory
  | file (contents : F)
  deriving DecidableEq

structure Tree (N F : Type) where
  node : List N → Option (Node F)
  root : node [] = some .directory
  closed : ∀ path name, node (path ++ [name]) ≠ none → node path = some .directory

namespace Tree

variable {N F : Type}

def empty [DecidableEq N] : Tree N F where
  node path := if path = [] then some .directory else none
  root := if_pos rfl
  closed path name h := by simp at h

section closed

variable {t : Tree N F} {path : List N}

theorem above {start : List N} (h : t.node path ≠ none) (hbegins : start <+: path) (hne : start ≠ path) :
    t.node start = some .directory := by
  obtain ⟨rest, rfl⟩ := hbegins
  induction rest using List.reverseRecOn with
  | nil => exact absurd (List.append_nil _).symm hne
  | append_singleton rest name ih =>
    have hparent := t.closed (start ++ rest) name (by rwa [List.append_assoc])
    by_cases hrest : rest = []
    · rwa [hrest, List.append_nil] at hparent
    · exact ih (by rw [hparent]; simp) (by simpa using hrest)

end closed

variable [DecidableEq N] [DecidableEq F]

def add (t : Tree N F) (path : List N) (name : N) (entry : Node F) : Tree N F :=
  if h : t.node path = some .directory ∧ t.node (path ++ [name]) = none then
    { node := Function.update t.node (path ++ [name]) (some entry)
      root := by
        rw [Function.update_of_ne (by simp)]
        exact t.root
      closed := by
        intro path' name' hentry
        have hparent : t.node path' = some .directory := by
          by_cases heq : path' ++ [name'] = path ++ [name]
          · rw [(List.append_inj' heq rfl).1]
            exact h.1
          · rw [Function.update_of_ne heq] at hentry
            exact t.closed path' name' hentry
        have hother : path' ≠ path ++ [name] := by
          rintro rfl
          rw [h.2] at hparent
          cases hparent
        rw [Function.update_of_ne hother]
        exact hparent }
  else t

variable {t t' : Tree N F} {path : List N} {name : N} {entry : Node F}

theorem add_node (hparent : t.node path = some .directory) (hnone : t.node (path ++ [name]) = none) (other : List N) :
    (t.add path name entry).node other = if other = path ++ [name] then some entry else t.node other := by
  rw [add, dif_pos ⟨hparent, hnone⟩]
  exact Function.update_apply ..

/-- `create_dir_all` below a directory; it fails at a file. -/
def createDirsFrom (t : Tree N F) (above : List N) : List N → Option (Tree N F)
  | [] => some t
  | name :: rest => match t.node (above ++ [name]) with
    | none => createDirsFrom (t.add above name .directory) (above ++ [name]) rest
    | some .directory => createDirsFrom t (above ++ [name]) rest
    | some (.file _) => none

def createDirs (t : Tree N F) (path : List N) : Option (Tree N F) := t.createDirsFrom [] path

inductive WriteError where
  | missingDirectory
  | notAFile
  | conflictingContents

def writeOnce (t : Tree N F) (path : List N) (name : N) (contents : F) : Except WriteError (Tree N F) :=
  if t.node path = some .directory then
    match t.node (path ++ [name]) with
    | none => .ok (t.add path name (.file contents))
    | some .directory => .error .notAFile
    | some (.file existing) => if existing = contents then .ok t else .error .conflictingContents
  else .error .missingDirectory

section directories

variable {above : List N} {t₁ : Tree N F} {contents : F}

omit [DecidableEq N] [DecidableEq F] in
theorem prefix_antisymm {p q : List N} (h : p <+: q) (h' : q <+: p) : p = q :=
  h.eq_of_length (Nat.le_antisymm h.length_le h'.length_le)

omit [DecidableEq N] [DecidableEq F] in
theorem between_cons {rest p : List N} :
    above <+: p ∧ p <+: above ++ name :: rest ↔ p = above ∨ above ++ [name] <+: p ∧ p <+: above ++ [name] ++ rest := by
  constructor
  · rintro ⟨⟨more, rfl⟩, h⟩
    rw [List.prefix_append_right_inj] at h
    cases more with
    | nil => exact .inl (List.append_nil _)
    | cons first more =>
      obtain ⟨rfl, hrest⟩ := List.cons_prefix_cons.mp h
      rw [List.append_cons]
      exact .inr ⟨List.prefix_append _ _, (List.prefix_append_right_inj _).mpr hrest⟩
  · intro h
    rw [List.append_cons]
    rcases h with rfl | ⟨hbegins, hends⟩
    · exact ⟨List.prefix_rfl, (List.prefix_append _ _).trans (List.prefix_append _ _)⟩
    · exact ⟨(List.prefix_append _ _).trans hbegins, hends⟩

theorem createDirsFrom_node (habove : t.node above = some .directory) (h : t.createDirsFrom above path = some t')
    (p : List N) : t'.node p = if above <+: p ∧ p <+: above ++ path then some .directory else t.node p := by
  induction path generalizing t above with
  | nil =>
    cases h
    by_cases hp : above <+: p ∧ p <+: above ++ []
    · rw [if_pos hp]
      rw [List.append_nil] at hp
      rw [← prefix_antisymm hp.1 hp.2]
      exact habove
    · rw [if_neg hp]
  | cons name rest ih =>
    have hnext : ∀ t₁ : Tree N F, t₁.node (above ++ [name]) = some .directory →
        t₁.createDirsFrom (above ++ [name]) rest = some t' → (∀ q, q ≠ above ++ [name] → t₁.node q = t.node q) →
        t'.node p = if above <+: p ∧ p <+: above ++ name :: rest then some .directory else t.node p := by
      intro t₁ hdirectory h₁ hsame
      rw [ih hdirectory h₁, if_congr between_cons rfl rfl]
      by_cases hbelow : above ++ [name] <+: p ∧ p <+: above ++ [name] ++ rest
      · rw [if_pos hbelow, if_pos (.inr hbelow)]
      · have hother : p ≠ above ++ [name] := by
          rintro rfl
          exact hbelow ⟨List.prefix_rfl, List.prefix_append _ _⟩
        rw [if_neg hbelow, hsame p hother]
        by_cases heq : p = above
        · rw [if_pos (.inl heq), heq, habove]
        · rw [if_neg (not_or.mpr ⟨heq, hbelow⟩)]
    rw [createDirsFrom] at h
    cases hnode : t.node (above ++ [name]) with
    | none =>
      rw [hnode] at h
      have hadd := fun q => @add_node _ _ _ _ _ _ _ .directory habove hnode q
      refine hnext _ ?_ h fun q hq => ?_
      · rw [hadd, if_pos rfl]
      · rw [hadd, if_neg hq]
    | some entry =>
      cases entry with
      | directory =>
        rw [hnode] at h
        exact hnext t hnode h fun _ _ => rfl
      | file contents =>
        rw [hnode] at h
        cases h

theorem createDirsFrom_isSome (habove : t.node above = some .directory) :
    (t.createDirsFrom above path).isSome = true ↔
      ∀ p, above <+: p → p <+: above ++ path → ∀ contents, t.node p ≠ some (.file contents) := by
  induction path generalizing t above with
  | nil =>
    refine ⟨fun _ p hbegins hends contents hfile => ?_, fun _ => rfl⟩
    rw [List.append_nil] at hends
    rw [← prefix_antisymm hbegins hends, habove] at hfile
    cases hfile
  | cons name rest ih =>
    have hnext : ∀ t₁ : Tree N F, t₁.node (above ++ [name]) = some .directory →
        (∀ q, q ≠ above ++ [name] → t₁.node q = t.node q) →
        (∀ contents, t.node (above ++ [name]) ≠ some (.file contents)) →
        ((t₁.createDirsFrom (above ++ [name]) rest).isSome = true ↔
          ∀ p, above <+: p → p <+: above ++ name :: rest → ∀ contents, t.node p ≠ some (.file contents)) := by
      intro t₁ hdirectory hsame hclear
      rw [ih hdirectory]
      constructor
      · intro hfree p hbegins hends contents
        rcases between_cons.mp ⟨hbegins, hends⟩ with rfl | ⟨hbelow, hends⟩
        · rw [habove]
          simp
        · by_cases heq : p = above ++ [name]
          · rw [heq]
            exact hclear contents
          · rw [← hsame p heq]
            exact hfree p hbelow hends contents
      · intro hfree p hbegins hends contents
        by_cases heq : p = above ++ [name]
        · rw [heq, hdirectory]
          simp
        · rw [hsame p heq]
          have hbetween := between_cons.mpr (.inr ⟨hbegins, hends⟩)
          exact hfree p hbetween.1 hbetween.2 contents
    rw [createDirsFrom]
    cases hnode : t.node (above ++ [name]) with
    | none =>
      have hadd := fun q => @add_node _ _ _ _ _ _ _ .directory habove hnode q
      refine hnext _ ?_ (fun q hq => ?_) fun contents => ?_
      · rw [hadd, if_pos rfl]
      · rw [hadd, if_neg hq]
      · rw [hnode]
        simp
    | some entry =>
      cases entry with
      | directory =>
        refine hnext t hnode (fun _ _ => rfl) fun contents => ?_
        rw [hnode]
        simp
      | file contents =>
        have hbetween : above <+: above ++ [name] ∧ above ++ [name] <+: above ++ name :: rest :=
          between_cons.mpr (.inr ⟨List.prefix_rfl, List.prefix_append _ rest⟩)
        simp only [Option.isSome_none, Bool.false_eq_true, false_iff]
        exact fun hfree => hfree _ hbetween.1 hbetween.2 contents hnode

theorem createDirs_node (h : t.createDirs path = some t') (p : List N) :
    t'.node p = if p <+: path then some .directory else t.node p := by
  have hnode := createDirsFrom_node t.root h p
  rw [List.nil_append] at hnode
  rw [hnode]
  exact if_congr (and_iff_right List.nil_prefix) rfl rfl

theorem createDirs_isSome :
    (t.createDirs path).isSome = true ↔ ∀ p, p <+: path → ∀ contents, t.node p ≠ some (.file contents) := by
  rw [createDirs, createDirsFrom_isSome t.root, List.nil_append]
  exact ⟨fun h p => h p List.nil_prefix, fun h p _ => h p⟩

theorem place_node (hdirs : t.createDirs path = some t₁)
    (hwrite : t₁.writeOnce path name contents = .ok t') (p : List N) :
    t'.node p = if p = path ++ [name] then some (.file contents) else if p <+: path then some .directory
      else t.node p := by
  have hparent : t₁.node path = some .directory := by
    rw [createDirs_node hdirs, if_pos List.prefix_rfl]
  rw [writeOnce, if_pos hparent] at hwrite
  rw [← createDirs_node hdirs p]
  cases hnode : t₁.node (path ++ [name]) with
  | none =>
    rw [hnode] at hwrite
    cases hwrite
    exact add_node hparent hnode p
  | some entry =>
    cases entry with
    | directory =>
      rw [hnode] at hwrite
      cases hwrite
    | file existing =>
      simp only [hnode] at hwrite
      by_cases hsame : existing = contents
      · rw [if_pos hsame] at hwrite
        cases hwrite
        by_cases hp : p = path ++ [name]
        · rw [if_pos hp, hp, hnode, hsame]
        · rw [if_neg hp]
      · rw [if_neg hsame] at hwrite
        cases hwrite

theorem writeOnce_ok_iff (hdirs : t.createDirs path = some t₁) :
    (∃ t', t₁.writeOnce path name contents = .ok t') ↔
      t.node (path ++ [name]) = none ∨ t.node (path ++ [name]) = some (.file contents) := by
  have hparent : t₁.node path = some .directory := by
    rw [createDirs_node hdirs, if_pos List.prefix_rfl]
  have hsame : t₁.node (path ++ [name]) = t.node (path ++ [name]) := by
    rw [createDirs_node hdirs, if_neg]
    intro hlonger
    have hlength := hlonger.length_le
    rw [List.length_append, List.length_singleton] at hlength
    omega
  rw [writeOnce, if_pos hparent, ← hsame]
  cases hnode : t₁.node (path ++ [name]) with
  | none => exact ⟨fun _ => .inl rfl, fun _ => ⟨_, rfl⟩⟩
  | some entry =>
    cases entry with
    | directory => simp
    | file existing =>
      by_cases heq : existing = contents
      · simp [heq]
      · simp [heq]

end directories

section layout

/-- The files below a root are these, the directories below it lead to them, and elsewhere the files are as
they were. -/
structure Laid (root : List N) (t₀ t : Tree N F) (files : List (List N × F)) : Prop where
  base : t.node root = some .directory
  content : ∀ rel contents, t.node (root ++ rel) = some (.file contents) ↔ (rel, contents) ∈ files
  directories : ∀ rel, rel ≠ [] → t.node (root ++ rel) = some .directory → ∃ file ∈ files, rel <+: file.1 ∧ rel ≠ file.1
  elsewhere : ∀ p, ¬ root <+: p → ∀ contents, t.node p = some (.file contents) ↔ t₀.node p = some (.file contents)

variable {root above : List N} {t₀ t₁ : Tree N F} {files : List (List N × F)} {contents : F}

omit [DecidableEq F] in
theorem Laid.way (h : Laid root t₀ t files) {p : List N} (hp : p <+: root) : t.node p = some .directory := by
  by_cases heq : p = root
  · rw [heq]
    exact h.base
  · refine Tree.above ?_ hp heq
    rw [h.base]
    simp

theorem Laid.createDirs_isSome (h : Laid root t₀ t files) :
    (t.createDirs (root ++ above)).isSome = true ↔ ∀ file ∈ files, ¬ file.1 <+: above := by
  rw [Tree.createDirs_isSome]
  constructor
  · intro hfree file hfile hbegins
    have hnode := (h.content file.1 file.2).mpr hfile
    exact hfree (root ++ file.1) ((List.prefix_append_right_inj root).mpr hbegins) file.2 hnode
  · intro hfree p hp contents hnode
    rcases List.prefix_or_prefix_of_prefix hp (List.prefix_append root above) with hshort | ⟨rel, rfl⟩
    · rw [h.way hshort] at hnode
      cases hnode
    · exact hfree _ ((h.content rel contents).mp hnode) ((List.prefix_append_right_inj root).mp hp)

theorem Laid.writeOnce_ok (h : Laid root t₀ t files) (hdirs : t.createDirs (root ++ above) = some t₁) :
    (∃ t', t₁.writeOnce (root ++ above) name contents = .ok t') ↔
      ∀ file ∈ files, above ++ [name] <+: file.1 → file = (above ++ [name], contents) := by
  rw [writeOnce_ok_iff hdirs, List.append_assoc]
  constructor
  · intro hnode file hfile hbegins
    have hown := (h.content file.1 file.2).mpr hfile
    by_cases heq : above ++ [name] = file.1
    · rw [← heq] at hown
      rw [hown] at hnode
      simp only [reduceCtorEq, Option.some.injEq, Node.file.injEq, false_or] at hnode
      exact Prod.ext heq.symm hnode
    · have hdirectory := Tree.above (by rw [hown]; simp) ((List.prefix_append_right_inj root).mpr hbegins)
        (by simpa using heq)
      rw [hdirectory] at hnode
      simp at hnode
  · intro hfree
    cases hnode : t.node (root ++ (above ++ [name])) with
    | none => exact .inl rfl
    | some entry =>
      cases entry with
      | directory =>
        obtain ⟨file, hfile, hbegins, hne⟩ := h.directories _ (by simp) hnode
        exact absurd (congrArg Prod.fst (hfree file hfile hbegins)).symm hne
      | file existing =>
        have heq := hfree _ ((h.content _ _).mp hnode) List.prefix_rfl
        rw [(Prod.mk.inj heq).2]
        exact .inr rfl

theorem Laid.place (h : Laid root t₀ t files) (hdirs : t.createDirs (root ++ above) = some t₁)
    (hwrite : t₁.writeOnce (root ++ above) name contents = .ok t') :
    Laid root t₀ t' ((above ++ [name], contents) :: files) := by
  have hnode := place_node hdirs hwrite
  have hway := h.createDirs_isSome.mp (by rw [hdirs]; rfl)
  have hfree := (h.writeOnce_ok hdirs).mp ⟨t', hwrite⟩
  have hbelow : ∀ rel, t'.node (root ++ rel) = if rel = above ++
      [name] then some (.file contents) else if rel <+: above then some .directory else t.node (root ++ rel) := by
    intro rel
    rw [hnode, List.append_assoc]
    exact if_congr (List.append_right_inj root) rfl (if_congr (List.prefix_append_right_inj root) rfl rfl)
  constructor
  · have hroot := hbelow []
    rw [List.append_nil] at hroot
    rw [hroot, if_neg (by simp), if_pos List.nil_prefix]
  · intro rel other
    rw [hbelow, List.mem_cons]
    by_cases hself : rel = above ++ [name]
    · rw [if_pos hself, hself]
      constructor
      · intro heq
        cases heq
        exact .inl rfl
      · rintro (heq | hmem)
        · rw [(Prod.mk.inj heq).2]
        · rw [(Prod.mk.inj (hfree _ hmem List.prefix_rfl)).2]
    · have hother : (rel, other) ≠ (above ++ [name], contents) := fun heq => hself (Prod.mk.inj heq).1
      rw [if_neg hself]
      by_cases hdirectory : rel <+: above
      · rw [if_pos hdirectory]
        constructor
        · intro heq
          cases heq
        · rintro (heq | hmem)
          · exact absurd heq hother
          · exact absurd hdirectory (hway _ hmem)
      · rw [if_neg hdirectory, h.content]
        exact ⟨.inr, fun hmem => hmem.resolve_left hother⟩
  · intro rel hne hdirectory
    rw [hbelow] at hdirectory
    by_cases hself : rel = above ++ [name]
    · rw [if_pos hself] at hdirectory
      cases hdirectory
    · rw [if_neg hself] at hdirectory
      by_cases hup : rel <+: above
      · exact ⟨_, List.mem_cons_self, hup.trans (List.prefix_append above [name]), hself⟩
      · rw [if_neg hup] at hdirectory
        obtain ⟨file, hfile, hleads⟩ := h.directories rel hne hdirectory
        exact ⟨file, List.mem_cons_of_mem _ hfile, hleads⟩
  · intro p hout other
    rw [← h.elsewhere p hout other, hnode]
    have hself : p ≠ root ++ above ++ [name] := by
      rintro rfl
      exact hout ((List.prefix_append root above).trans (List.prefix_append _ _))
    rw [if_neg hself]
    by_cases hup : p <+: root ++ above
    · rcases List.prefix_or_prefix_of_prefix hup (List.prefix_append root above) with hshort | hlong
      · rw [if_pos hup, h.way hshort]
      · exact absurd hlong hout
    · rw [if_neg hup]

end layout

end Tree

end FileTree

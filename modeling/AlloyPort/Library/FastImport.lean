import AlloyPort.Library.Utf8

/-! The streams of `git fast-import` as far as they build a history, read byte by byte as the importer reads them,
and the repository that they leave. Merges, tags, notes, copies and queries are refused. -/

namespace FastImport

open Utf8

abbrev Bytes := List UInt8

def LF : UInt8 := 10

def SPACE : UInt8 := 32

section lines

def nextLine (bytes : Bytes) : Bytes × Bytes :=
  (bytes.takeWhile (· ≠ LF), (bytes.dropWhile (· ≠ LF)).drop 1)

def skipComments : Nat → Bytes → Bytes
  | 0, bytes => bytes
  | fuel + 1, bytes => if bytes.head? = some 35 then skipComments fuel (nextLine bytes).2 else bytes

def nextCommand (bytes : Bytes) : Bytes × Bytes := nextLine (skipComments bytes.length bytes)

def stripKey (key line : Bytes) : Option Bytes := if key.isPrefixOf line then some (line.drop key.length) else none

def field (key bytes : Bytes) : Option (Bytes × Bytes) :=
  (stripKey key (nextCommand bytes).1).map fun value => (value, (nextCommand bytes).2)

def optional (key bytes : Bytes) : Option Bytes × Bytes :=
  match field key bytes with
  | some (value, rest) => (some value, rest)
  | none => (none, bytes)

def skipOptionalLF (bytes : Bytes) : Bytes := if bytes.head? = some LF then bytes.drop 1 else bytes

def nextWord (text : Bytes) : Bytes × Bytes := (text.takeWhile (· ≠ SPACE), (text.dropWhile (· ≠ SPACE)).drop 1)

def isDigit (b : UInt8) : Bool := 48 ≤ b && b ≤ 57

def decimal (digits : Bytes) : Option Nat :=
  if digits ≠ [] ∧ digits.all isDigit = true then some (digits.foldl (fun n b => 10 * n + (b.toNat - 48)) 0) else none

end lines

section fields

structure Ident where
  name : Bytes
  email : Bytes
  seconds : Nat
  zone : Bytes

def isAngle (b : UInt8) : Bool := b = 60 || b = 62

def isZone : Bytes → Bool
  | [] => false
  | sign :: digits => (sign = 43 || sign = 45) && (decimal digits).any (· ≤ 1400)

def parseIdent (text : Bytes) : Option Ident := do
  let name := text.takeWhile (!isAngle ·)
  let behind ← stripKey (bytesOf "<") (text.dropWhile (!isAngle ·))
  let email := behind.takeWhile (!isAngle ·)
  let date ← stripKey (bytesOf "> ") (behind.dropWhile (!isAngle ·))
  let seconds ← decimal (nextWord date).1
  if (name = [] ∨ name.getLast? = some SPACE) ∧ isZone (nextWord date).2 = true then
    some ⟨name, email, seconds, (nextWord date).2⟩
  else none

def parseMark (bytes : Bytes) : Option (Option Nat × Bytes) :=
  match optional (bytesOf "mark :") bytes with
  | (none, rest) => some (none, rest)
  | (some digits, rest) => (decimal digits).map fun mark => (some mark, rest)

def readUntil (delimiter : Bytes) : Nat → Bytes → Bytes → Option (Bytes × Bytes)
  | 0, _, _ => none
  | fuel + 1, data, bytes =>
    if bytes = [] then none
    else if (nextLine bytes).1 = delimiter then some (data, (nextLine bytes).2)
    else readUntil delimiter fuel (data ++ (nextLine bytes).1 ++ [LF]) (nextLine bytes).2

def parseData (bytes : Bytes) : Option (Bytes × Bytes) := do
  let (size, rest) ← field (bytesOf "data ") bytes
  match stripKey (bytesOf "<<") size with
  | some delimiter => do
    let (data, rest) ← readUntil delimiter (rest.length + 1) [] rest
    return (data, skipOptionalLF rest)
  | none => do
    let length ← decimal size
    if rest.length < length then none else some (rest.take length, skipOptionalLF (rest.drop length))

/-- The bytes that follow a backslash in a quoted text, with what they stand for. -/
def escapes : List (UInt8 × UInt8) :=
  [(97, 7), (98, 8), (102, 12), (110, 10), (114, 13), (116, 9), (118, 11), (34, 34), (92, 92)]

def octal (high middle low : UInt8) : Option UInt8 :=
  if 48 ≤ high ∧ high ≤ 51 ∧ 48 ≤ middle ∧ middle ≤ 55 ∧ 48 ≤ low ∧ low ≤ 55 then
    some (64 * (high - 48) + 8 * (middle - 48) + (low - 48))
  else none

def prepend (b : UInt8) (found : Option (Bytes × Bytes)) : Option (Bytes × Bytes) :=
  found.map fun (text, rest) => (b :: text, rest)

def unquote : Bytes → Option (Bytes × Bytes)
  | [] => none
  | b :: rest =>
    if b = 34 then some ([], rest)
    else if b = 92 then
      match rest with
      | [] => none
      | e :: rest => match escapes.lookup e with
        | some c => prepend c (unquote rest)
        | none => match rest with
          | middle :: low :: rest => match octal e middle low with
            | some c => prepend c (unquote rest)
            | none => none
          | _ => none
    else prepend b (unquote rest)

def parsePath (text : Bytes) : Option Bytes :=
  if text.head? = some 34 then
    match unquote (text.drop 1) with
    | some (path, []) => some path
    | _ => none
  else some text

end fields

section commands

inductive Source where
  | mark (number : Nat)
  | data (bytes : Bytes)

inductive FileChange where
  | modify (mode : Bytes) (source : Source) (path : Bytes)
  | delete (path : Bytes)
  | deleteAll

inductive CommitIsh where
  | mark (number : Nat)
  | name (text : Bytes)

structure CommitCommand where
  reference : Bytes
  mark : Option Nat
  author : Option Ident
  committer : Ident
  message : Bytes
  source : Option CommitIsh
  changes : List FileChange

inductive Command where
  | blob (mark : Option Nat) (data : Bytes)
  | commit (command : CommitCommand)
  | reset (reference : Bytes) (source : Option CommitIsh)
  | checkpoint
  | progress (text : Bytes)

def parseCommitIsh (text : Bytes) : Option CommitIsh :=
  match stripKey (bytesOf ":") text with
  | some digits => (decimal digits).map .mark
  | none => some (.name text)

def parseModify (text rest : Bytes) : Option (FileChange × Bytes) := do
  let (mode, text) := nextWord text
  let (source, text) := nextWord text
  let path ← parsePath text
  if source = bytesOf "inline" then do
    let (data, rest) ← parseData rest
    return (.modify mode (.data data) path, rest)
  else do
    let digits ← stripKey (bytesOf ":") source
    let mark ← decimal digits
    return (.modify mode (.mark mark) path, rest)

def refusedChanges : List Bytes := ["R ", "C ", "N ", "ls ", "cat-blob "].map bytesOf

/-- The changes of a commit end with an empty line, or where a line is no change. -/
def parseChanges : Nat → Bytes → Option (List FileChange × Bytes)
  | 0, _ => none
  | fuel + 1, bytes =>
    let line := (nextCommand bytes).1
    let rest := (nextCommand bytes).2
    if line = [] then some ([], rest)
    else if line = bytesOf "deleteall" then do
      let (changes, rest) ← parseChanges fuel rest
      return (.deleteAll :: changes, rest)
    else match stripKey (bytesOf "M ") line, stripKey (bytesOf "D ") line with
      | some text, _ => do
        let (change, rest) ← parseModify text rest
        let (changes, rest) ← parseChanges fuel rest
        return (change :: changes, rest)
      | none, some text => do
        let path ← parsePath text
        let (changes, rest) ← parseChanges fuel rest
        return (.delete path :: changes, rest)
      | none, none => if refusedChanges.any (fun key => key.isPrefixOf line) = true then none else some ([], bytes)

def parseCommit (reference bytes : Bytes) : Option (Command × Bytes) := do
  let (mark, bytes) ← parseMark bytes
  let (_, bytes) := optional (bytesOf "original-oid ") bytes
  let (author, bytes) := optional (bytesOf "author ") bytes
  let author ← author.mapM parseIdent
  let (committer, bytes) ← field (bytesOf "committer ") bytes
  let committer ← parseIdent committer
  let (_, bytes) := optional (bytesOf "encoding ") bytes
  let (message, bytes) ← parseData bytes
  let (source, bytes) := optional (bytesOf "from ") bytes
  let source ← source.mapM parseCommitIsh
  let (changes, bytes) ← parseChanges (bytes.length + 1) bytes
  return (.commit ⟨reference, mark, author, committer, message, source, changes⟩, bytes)

def parseBlob (bytes : Bytes) : Option (Command × Bytes) := do
  let (mark, bytes) ← parseMark bytes
  let (_, bytes) := optional (bytesOf "original-oid ") bytes
  let (data, bytes) ← parseData bytes
  return (.blob mark data, bytes)

def parseReset (reference bytes : Bytes) : Option (Command × Bytes) := do
  let (source, bytes) := optional (bytesOf "from ") bytes
  let source ← source.mapM parseCommitIsh
  return (.reset reference source, if (nextCommand bytes).1 = [] then (nextCommand bytes).2 else bytes)

def parseCommand (line rest : Bytes) : Option (Command × Bytes) :=
  if line = bytesOf "blob" then parseBlob rest
  else if line = bytesOf "checkpoint" then some (.checkpoint, skipOptionalLF rest)
  else match stripKey (bytesOf "commit ") line, stripKey (bytesOf "reset ") line,
    stripKey (bytesOf "progress ") line with
    | some reference, _, _ => parseCommit reference rest
    | none, some reference, _ => parseReset reference rest
    | none, none, some text => some (.progress text, skipOptionalLF rest)
    | none, none, none => none

def parseStream : Nat → Bytes → Option (List Command)
  | 0, _ => none
  | fuel + 1, bytes =>
    if skipComments bytes.length bytes = [] ∨ (nextCommand bytes).1 = bytesOf "done" then some []
    else do
      let (command, rest) ← parseCommand (nextCommand bytes).1 (nextCommand bytes).2
      let commands ← parseStream fuel rest
      return command :: commands

def parse (bytes : Bytes) : Option (List Command) := parseStream (bytes.length + 1) bytes

end commands

section repositories

abbrev Tree := List (Bytes × Bytes)

inductive Object where
  | blob (data : Bytes)
  | commit (index : Nat)

structure Commit where
  reference : Bytes
  author : Option Ident
  committer : Ident
  message : Bytes
  parent : Option Nat
  tree : Tree

/-- The commits in the order of the stream. Marks and references name them by their place. -/
structure Repository where
  marks : List (Nat × Object)
  commits : List Commit
  references : List (Bytes × Nat)

def Repository.empty : Repository := ⟨[], [], []⟩

def SLASH : UInt8 := 47

def isComponent (component : Bytes) : Bool := component ≠ [] && component ≠ [46] && component ≠ [46, 46]

def isCanonical (path : Bytes) : Bool := (path.splitOn SLASH).all isComponent && !path.contains 0

def isBelow (directory path : Bytes) : Bool := (directory ++ [SLASH]).isPrefixOf path

/-- A file takes the place of what is at its path, below it, or a file where it needs a directory. -/
def Tree.set (tree : Tree) (path data : Bytes) : Tree :=
  (tree.filter fun entry => entry.1 ≠ path && !isBelow path entry.1 && !isBelow entry.1 path) ++ [(path, data)]

def Tree.delete (tree : Tree) (path : Bytes) : Tree := tree.filter fun entry => entry.1 ≠ path && !isBelow path entry.1

def FILE_MODES : List Bytes := ["644", "755", "100644", "100755"].map bytesOf

def blobOf (marks : List (Nat × Object)) : Source → Option Bytes
  | .data bytes => some bytes
  | .mark number => match marks.lookup number with
    | some (.blob data) => some data
    | _ => none

local instance bytes_lawful : LawfulBEq Bytes := inferInstance

def applyChange (marks : List (Nat × Object)) (tree : Tree) : FileChange → Option Tree
  | .deleteAll => some []
  | .delete path => some (tree.delete path)
  | .modify mode source path =>
    if mode ∈ FILE_MODES ∧ isCanonical path = true then (blobOf marks source).map (tree.set path) else none

def refusedInNames : Bytes := bytesOf "~^:?*[\\" ++ [127]

def isNameComponent (component : Bytes) : Bool :=
  component ≠ [] && component.head? ≠ some 46 && !(bytesOf ".lock").isSuffixOf component &&
    component.all (fun b => 32 < b && !refusedInNames.contains b) &&
    !component.tails.any fun tail => (bytesOf "..").isPrefixOf tail || (bytesOf "@\x7b").isPrefixOf tail

def isReference (name : Bytes) : Bool :=
  (name.splitOn SLASH).all isNameComponent && name.getLast? ≠ some 46 && name ≠ bytesOf "@"

namespace Repository

variable (repository : Repository)

def remember (mark : Option Nat) (object : Object) : Option (List (Nat × Object)) :=
  match mark with
  | none => some repository.marks
  | some 0 => none
  | some number => some ((number, object) :: repository.marks)

def resolve : CommitIsh → Option Nat
  | .mark number => match repository.marks.lookup number with
    | some (.commit index) => some index
    | _ => none
  | .name text => repository.references.lookup text

/-- The commit that a new one follows: the one that it names, or the last one of its reference. -/
def parentOf (command : CommitCommand) : Option (Option Nat) :=
  match command.source with
  | none => some (repository.references.lookup command.reference)
  | some source => (repository.resolve source).map some

def treeOf (parent : Option Nat) : Tree := ((parent.bind fun index =>
    repository.commits[index]?).map Commit.tree).getD []

def point (reference : Bytes) (index : Nat) : List (Bytes × Nat) :=
  (reference, index) :: repository.references.filter fun entry => entry.1 ≠ reference

def applyCommit (command : CommitCommand) : Option Repository := do
  if isReference command.reference = false then none
  else do
    let parent ← repository.parentOf command
    let tree ← command.changes.foldlM (applyChange repository.marks) (repository.treeOf parent)
    let marks ← repository.remember command.mark (.commit repository.commits.length)
    return {
      marks := marks
      commits := repository.commits ++
        [⟨command.reference, command.author, command.committer, command.message, parent, tree⟩]
      references := repository.point command.reference repository.commits.length }

def apply : Command → Option Repository
  | .blob mark data => (repository.remember mark (.blob data)).map fun marks => { repository with marks := marks }
  | .commit command => repository.applyCommit command
  | .reset reference none => some { repository with
    references := repository.references.filter fun entry => entry.1 ≠ reference }
  | .reset reference (some source) =>
    if isReference reference = false then none
    else (repository.resolve source).map fun index => { repository with references := repository.point reference index }
  | .checkpoint | .progress _ => some repository

end Repository

def run (commands : List Command) (repository : Repository) : Option Repository :=
  commands.foldlM Repository.apply repository

def decode (bytes : Bytes) : Option Repository := (parse bytes).bind fun commands => run commands .empty

end repositories

section reading

variable {key other line text value rest bytes : Bytes}

theorem split_at {b : UInt8} (h : b ∉ text) : (text ++ b :: rest).takeWhile (· ≠ b) = text ∧
    (text ++ b :: rest).dropWhile (· ≠ b) = b :: rest := by
  have hkeep : ∀ c ∈ text, decide (c ≠ b) = true := fun c hc => decide_eq_true fun heq => h (heq ▸ hc)
  rw [List.takeWhile_append_of_pos hkeep, List.dropWhile_append_of_pos hkeep]
  simp

theorem nextLine_line (h : LF ∉ line) : nextLine (line ++ LF :: rest) = (line, rest) := by
  rw [nextLine, (split_at h).1, (split_at h).2]
  rfl

theorem nextCommand_line (h : LF ∉ line) (hplain : line.head? ≠ some 35) :
    nextCommand (line ++ LF :: rest) = (line, rest) := by
  have hhead : (line ++ LF :: rest).head? ≠ some 35 := by
    cases line with
    | nil => exact fun heq => absurd (Option.some.inj heq) (by decide)
    | cons b line => exact hplain
  have hskip : ∀ fuel, skipComments fuel (line ++ LF :: rest) = line ++ LF :: rest := by
    intro fuel
    cases fuel with
    | zero => rfl
    | succ fuel => rw [skipComments, if_neg hhead]
  rw [nextCommand, hskip, nextLine_line h]

theorem stripKey_append : stripKey key (key ++ text) = some text := by
  rw [stripKey, if_pos (List.isPrefixOf_iff_prefix.mpr (List.prefix_append _ _)), List.drop_left]

theorem key_append_ne (h : key.isPrefixOf line = false) : key ++ text ≠ line := by
  intro heq
  rw [← heq, List.isPrefixOf_iff_prefix.mpr (List.prefix_append _ _)] at h
  cases h

structure Key (key : Bytes) : Prop where
  nonempty : key ≠ []
  oneLine : LF ∉ key
  plain : key.head? ≠ some 35

theorem Key.head (h : Key key) : ∃ b, key.head? = some b ∧ b ≠ LF ∧ b ≠ 35 := by
  cases key with
  | nil => exact absurd rfl h.nonempty
  | cons b key =>
    refine ⟨b, rfl, fun heq => h.oneLine (by rw [heq]; exact List.mem_cons_self), fun heq => h.plain (by rw [heq]; rfl)⟩

theorem Key.head_append (h : Key key) : (key ++ text).head? = key.head? := by
  cases key with
  | nil => exact absurd rfl h.nonempty
  | cons b key => rfl

theorem Key.nextCommand (h : Key key) (hvalue : LF ∉ value) :
    nextCommand (key ++ (value ++ LF :: rest)) = (key ++ value, rest) := by
  have hline : LF ∉ key ++ value := fun hmem => (List.mem_append.mp hmem).elim h.oneLine hvalue
  rw [← List.append_assoc]
  exact nextCommand_line hline (h.head_append ▸ h.plain)

theorem Key.field (h : Key key) (hvalue : LF ∉ value) :
    field key (key ++ (value ++ LF :: rest)) = some (value, rest) := by
  rw [FastImport.field, h.nextCommand hvalue, stripKey_append]
  rfl

theorem Key.optional (h : Key key) (hvalue : LF ∉ value) :
    optional key (key ++ (value ++ LF :: rest)) = (some value, rest) := by
  rw [FastImport.optional, h.field hvalue]

theorem Key.absent (h : Key key) (hother : Key other) (hne : key.head? ≠ other.head?) :
    FastImport.optional key (other ++ bytes) = (none, other ++ bytes) := by
  obtain ⟨b, hb, hlf, hcomment⟩ := hother.head
  have hhead : (other ++ bytes).head? = some b := hother.head_append.trans hb
  have hline : (FastImport.nextCommand (other ++ bytes)).1.head? = some b := by
    generalize other ++ bytes = stream at hhead
    cases stream with
    | nil => cases hhead
    | cons c stream =>
      obtain rfl : c = b := Option.some.inj hhead
      have hskip : ∀ fuel, skipComments fuel (c :: stream) = c :: stream := by
        intro fuel
        cases fuel with
        | zero => rfl
        | succ fuel => exact if_neg fun heq => hcomment (Option.some.inj heq)
      rw [FastImport.nextCommand, hskip, nextLine]
      simp [hlf]
  have hstrip : stripKey key (FastImport.nextCommand (other ++ bytes)).1 = none := by
    rw [stripKey, if_neg]
    intro hprefix
    obtain ⟨k, hk, _⟩ := h.head
    obtain ⟨tail, htail⟩ := List.isPrefixOf_iff_prefix.mp hprefix
    rw [← htail, h.head_append] at hline
    exact hne (hline.trans hb.symm)
  rw [FastImport.optional, FastImport.field, hstrip]
  rfl

theorem nextWord_space (h : SPACE ∉ text) : nextWord (text ++ SPACE :: rest) = (text, rest) := by
  rw [nextWord, (split_at h).1, (split_at h).2]
  rfl

end reading

section numbers

def digits (n : Nat) : Bytes := (Nat.toDigits 10 n).map fun c => UInt8.ofNat c.toNat

variable {n : Nat} {c : Char}

theorem digit_bounds (hc : c ∈ Nat.toDigits 10 n) : 48 ≤ c.toNat ∧ c.toNat ≤ 57 := by
  have hdigit := Nat.isDigit_of_mem_toDigits (by decide) (by decide) hc
  simp only [Char.isDigit, Bool.and_eq_true, decide_eq_true_eq] at hdigit
  exact ⟨UInt32.le_iff_toNat_le.mp hdigit.1, UInt32.le_iff_toNat_le.mp hdigit.2⟩

theorem toNat_digit (hc : c ∈ Nat.toDigits 10 n) : (UInt8.ofNat c.toNat).toNat = c.toNat := by
  have hbounds := digit_bounds hc
  rw [UInt8.toNat_ofNat']
  omega

theorem digits_isDigit : ∀ b ∈ digits n, isDigit b = true := by
  intro b hb
  obtain ⟨c, hc, rfl⟩ := List.mem_map.mp hb
  have hbounds := digit_bounds hc
  have hvalue := toNat_digit hc
  simp only [isDigit, Bool.and_eq_true, decide_eq_true_eq, UInt8.le_iff_toNat_le, hvalue]
  exact hbounds

theorem digits_ne_nil (n : Nat) : digits n ≠ [] := by
  intro hnil
  exact Nat.toDigits_ne_nil (List.map_eq_nil_iff.mp hnil)

theorem foldl_digits (l : List Char) (hl : ∀ c ∈ l, (UInt8.ofNat c.toNat).toNat = c.toNat) (start : Nat) :
    (l.map fun c => UInt8.ofNat c.toNat).foldl (fun n b => 10 * n + (b.toNat - 48)) start =
    Nat.ofDigitChars 10 l start := by
  induction l generalizing start with
  | nil => rfl
  | cons c l ih =>
    rw [List.map_cons, List.foldl_cons, Nat.ofDigitChars_cons, hl c List.mem_cons_self]
    exact ih (fun d hd => hl d (List.mem_cons_of_mem c hd)) _

theorem decimal_digits (n : Nat) : decimal (digits n) = some n := by
  have hall : (digits n).all isDigit = true := List.all_eq_true.mpr digits_isDigit
  rw [decimal, if_pos ⟨digits_ne_nil n, hall⟩, digits, foldl_digits _ (fun c hc => toNat_digit hc),
    Nat.ofDigitChars_ten_toDigits]

theorem not_mem_digits {b : UInt8} (h : isDigit b = false) : b ∉ digits n := by
  intro hmem
  rw [digits_isDigit b hmem] at h
  cases h

theorem not_mem_reference {b : UInt8} (hcolon : b ∉ bytesOf ":") (h : isDigit b = false) :
    b ∉ bytesOf ":" ++ digits n :=
  fun hmem => (List.mem_append.mp hmem).elim hcolon (not_mem_digits h)

theorem bytesOf_repr (n : Nat) : bytesOf n.repr = digits n := by
  rw [← String.ofList_toList (s := n.repr), Nat.toList_repr, bytesOf_ascii, digits]
  intro c hc
  have hbounds := digit_bounds hc
  omega

end numbers

section writing

variable {rest : Bytes} {ident : Ident}

def renderMark (mark : Nat) : Bytes := bytesOf "mark :" ++ (digits mark ++ [LF])

theorem parseMark_written (mark : Nat) : parseMark (renderMark mark ++ rest) = some (some mark, rest) := by
  have hkey : Key (bytesOf "mark :") := ⟨by decide, by decide, by decide⟩
  have hfield : optional (bytesOf "mark :") (bytesOf "mark :" ++ (digits mark ++ LF :: rest)) =
    (some (digits mark), rest) :=
    hkey.optional (not_mem_digits (by decide))
  simp only [renderMark, List.append_assoc, List.cons_append, List.nil_append, parseMark, hfield, decimal_digits,
    Option.map_some]

def renderData (data : Bytes) : Bytes := bytesOf "data " ++ (digits data.length ++ LF :: (data ++ [LF]))

theorem parseData_written (data : Bytes) : parseData (renderData data ++ rest) = some (data, rest) := by
  have hkey : Key (bytesOf "data ") := ⟨by decide, by decide, by decide⟩
  have hcounted : stripKey (bytesOf "<<") (digits data.length) = none := by
    rw [stripKey, if_neg]
    intro hprefix
    obtain ⟨tail, htail⟩ := List.isPrefixOf_iff_prefix.mp hprefix
    have hmem : (60 : UInt8) ∈ digits data.length := by
      rw [← htail]
      exact List.mem_append_left _ (by decide)
    exact not_mem_digits (by decide) hmem
  have hlong : ¬ (data ++ LF :: rest).length < data.length := by
    rw [List.length_append]
    omega
  simp only [renderData, List.append_assoc, List.cons_append, List.nil_append, parseData, Option.bind_eq_bind]
  rw [hkey.field (not_mem_digits (by decide))]
  simp only [Option.bind_some, hcounted, decimal_digits, if_neg hlong, List.take_left, List.drop_left]
  rfl

structure Ident.Plain (ident : Ident) : Prop where
  name : ∀ b ∈ ident.name, isAngle b = false ∧ b ≠ LF
  spaced : ident.name = [] ∨ ident.name.getLast? = some SPACE
  email : ∀ b ∈ ident.email, isAngle b = false ∧ b ≠ LF
  zone : isZone ident.zone = true
  oneLine : LF ∉ ident.zone

def renderIdent (ident : Ident) : Bytes :=
  ident.name ++ (bytesOf "<" ++ (ident.email ++ (bytesOf "> " ++ (digits ident.seconds ++ SPACE :: ident.zone))))

theorem splitAngle (rest : Bytes) {text : Bytes} {b : UInt8} (htext : ∀ c ∈ text, isAngle c = false)
    (hb : isAngle b = true) :
    (text ++ b :: rest).takeWhile (!isAngle ·) = text ∧ (text ++ b :: rest).dropWhile (!isAngle ·) = b :: rest := by
  have hkeep : ∀ c ∈ text, (!isAngle c) = true := by
    intro c hc
    rw [htext c hc]
    rfl
  constructor
  · rw [List.takeWhile_append_of_pos hkeep]
    simp [hb]
  · rw [List.dropWhile_append_of_pos hkeep]
    simp [hb]

theorem parseIdent_written (h : ident.Plain) : parseIdent (renderIdent ident) = some ident := by
  have hrender : renderIdent ident =
      ident.name ++ 60 :: (ident.email ++ 62 :: (SPACE :: (digits ident.seconds ++ SPACE :: ident.zone))) := by
    have hopen : bytesOf "<" = [60] := by decide
    have hclose : bytesOf "> " = [62, SPACE] := by decide
    simp [renderIdent, hopen, hclose]
  obtain ⟨hname, hbehind⟩ := splitAngle (ident.email ++ 62 :: (SPACE :: (digits ident.seconds ++ SPACE :: ident.zone)))
    (fun c hc => (h.name c hc).1) (show isAngle 60 = true by decide)
  obtain ⟨hemail, hdate⟩ := splitAngle (SPACE :: (digits ident.seconds ++ SPACE :: ident.zone))
    (fun c hc => (h.email c hc).1) (show isAngle 62 = true by decide)
  have hopens : ∀ text : Bytes, stripKey (bytesOf "<") (60 :: text) = some text := fun text =>
    show stripKey _ (bytesOf "<" ++ text) = _ from stripKey_append
  have hcloses : ∀ text : Bytes, stripKey (bytesOf "> ") (62 :: SPACE :: text) = some text := fun text =>
    show stripKey _ (bytesOf "> " ++ text) = _ from stripKey_append
  have hword : nextWord (digits ident.seconds ++ SPACE :: ident.zone) = (digits ident.seconds, ident.zone) :=
    nextWord_space (not_mem_digits (by decide))
  rw [parseIdent, hrender]
  simp only [hname, hbehind, hopens, hemail, hdate, hcloses, hword, decimal_digits, Option.bind_eq_bind,
    Option.bind_some]
  exact if_pos ⟨h.spaced, h.zone⟩

structure Quoting (quote : Bytes → Bytes) : Prop where
  reads : ∀ path, parsePath (quote path) = some path
  oneLine : ∀ path, LF ∉ quote path

/-- A commit as a writer of whole trees has it: its files by the marks of their contents. -/
structure Revision where
  reference : Bytes
  mark : Nat
  author : Ident
  committer : Ident
  message : Bytes
  parent : Option Nat
  files : List (Nat × Bytes)

inductive Entry where
  | blob (mark : Nat) (data : Bytes)
  | revision (written : Revision)

def MODE : Bytes := bytesOf "100644"

def fileChange (file : Nat × Bytes) : FileChange := .modify MODE (.mark file.1) file.2

def Revision.command (revision : Revision) : CommitCommand where
  reference := revision.reference
  mark := some revision.mark
  author := some revision.author
  committer := revision.committer
  message := revision.message
  source := revision.parent.map .mark
  changes := .deleteAll :: revision.files.map fileChange

def Entry.command : Entry → Command
  | .blob mark data => .blob (some mark) data
  | .revision written => .commit written.command

variable (quote : Bytes → Bytes)

def renderFile (file : Nat × Bytes) : Bytes :=
  bytesOf "M " ++ (MODE ++ SPACE :: (bytesOf ":" ++ (digits file.1 ++ SPACE :: (quote file.2 ++ [LF]))))

def renderParent : Option Nat → Bytes
  | none => []
  | some mark => bytesOf "from " ++ (bytesOf ":" ++ (digits mark ++ [LF]))

def Revision.render (revision : Revision) : Bytes :=
  bytesOf "commit " ++ (revision.reference ++ LF :: (renderMark revision.mark ++
    (bytesOf "author " ++ (renderIdent revision.author ++
      LF :: (bytesOf "committer " ++ (renderIdent revision.committer ++
      LF :: (renderData revision.message ++ (renderParent revision.parent ++ (bytesOf "deleteall" ++
        LF :: (revision.files.flatMap (renderFile quote) ++ [LF]))))))))))

def Entry.render : Entry → Bytes
  | .blob mark data => bytesOf "blob" ++ LF :: (renderMark mark ++ renderData data)
  | .revision written => written.render quote

def renderReset (reference : Bytes) (mark : Nat) : Bytes :=
  bytesOf "reset " ++ (reference ++ LF :: (bytesOf "from " ++ (bytesOf ":" ++ (digits mark ++ LF :: [LF]))))

variable {quote} {parent : Option Nat} {file : Nat × Bytes}

theorem parseFile_written (h : Quoting quote) :
    parseModify (MODE ++ SPACE :: (bytesOf ":" ++ (digits file.1 ++ SPACE :: quote file.2))) rest =
      some (fileChange file, rest) := by
  have hmark : ¬ (bytesOf ":" ++ digits file.1 = bytesOf "inline") := key_append_ne (by decide)
  have hsource : SPACE ∉ bytesOf ":" ++ digits file.1 := not_mem_reference (by decide) (by decide)
  have hword : nextWord (bytesOf ":" ++ (digits file.1 ++ SPACE :: quote file.2)) =
      (bytesOf ":" ++ digits file.1, quote file.2) := by
    rw [← List.append_assoc]
    exact nextWord_space hsource
  simp only [parseModify, nextWord_space (show SPACE ∉ MODE by decide), hword, h.reads, if_neg hmark, stripKey_append,
    decimal_digits, Option.bind_eq_bind, Option.bind_some]
  rfl

theorem oneLine_file (h : Quoting quote) :
    LF ∉ MODE ++ SPACE :: (bytesOf ":" ++ (digits file.1 ++ SPACE :: quote file.2)) := by
  have hmode : LF ∉ MODE := by decide
  have hmark : LF ∉ bytesOf ":" := by decide
  have hdigits : LF ∉ digits file.1 := not_mem_digits (by decide)
  have hspace : LF ≠ SPACE := by decide
  simp [hmode, hmark, hdigits, hspace, h.oneLine]

theorem parseChanges_files (h : Quoting quote) (files : List (Nat × Bytes)) (fuel : Nat) (hfuel : files.length < fuel) :
    parseChanges fuel (files.flatMap (renderFile quote) ++ LF :: rest) = some (files.map fileChange, rest) := by
  induction files generalizing fuel with
  | nil =>
    obtain ⟨fuel, rfl⟩ := Nat.exists_eq_add_one_of_ne_zero (Nat.ne_of_gt hfuel)
    have hblank : nextCommand ([] ++ LF :: rest) = ([], rest) := nextCommand_line (by decide) (by decide)
    rw [List.flatMap_nil, parseChanges, hblank]
    rfl
  | cons file files ih =>
    obtain ⟨fuel, rfl⟩ := Nat.exists_eq_add_one_of_ne_zero (Nat.ne_of_gt (Nat.zero_lt_of_lt hfuel))
    have hkey : Key (bytesOf "M ") := ⟨by decide, by decide, by decide⟩
    have hline : nextCommand ((file :: files).flatMap (renderFile quote) ++ LF :: rest) =
        (bytesOf "M " ++ (MODE ++ SPACE :: (bytesOf ":" ++ (digits file.1 ++ SPACE :: quote file.2))),
          files.flatMap (renderFile quote) ++ LF :: rest) := by
      have hcommand : nextCommand (bytesOf "M " ++
          ((MODE ++ SPACE :: (bytesOf ":" ++ (digits file.1 ++ SPACE :: quote file.2))) ++
          LF :: (files.flatMap (renderFile quote) ++ LF :: rest))) = (_, _) := hkey.nextCommand (oneLine_file h)
      simpa only [List.flatMap_cons, renderFile, List.append_assoc, List.cons_append, List.nil_append] using hcommand
    have hnonempty : ¬ (bytesOf "M " ++ (MODE ++ SPACE :: (bytesOf ":" ++ (digits file.1 ++ SPACE :: quote file.2))) =
      []) :=
      key_append_ne (by decide)
    have hother : ¬ (bytesOf "M " ++ (MODE ++ SPACE :: (bytesOf ":" ++ (digits file.1 ++ SPACE :: quote file.2))) =
        bytesOf "deleteall") := key_append_ne (by decide)
    have hrest := ih fuel (by simpa using hfuel)
    rw [parseChanges, hline]
    simp only [if_neg hnonempty, if_neg hother, stripKey_append, parseFile_written h, hrest, Option.bind_eq_bind,
      Option.bind_some]
    rfl

theorem parseParent_written {other : Bytes} (hother : Key other)
    (hne : other.head? ≠ (bytesOf "from ").head?) :
    optional (bytesOf "from ") (renderParent parent ++ (other ++ rest)) =
      (parent.map fun mark => bytesOf ":" ++ digits mark, other ++ rest) := by
  have hkey : Key (bytesOf "from ") := ⟨by decide, by decide, by decide⟩
  cases parent with
  | none =>
    rw [renderParent, List.nil_append]
    exact hkey.absent hother hne.symm
  | some mark =>
    have hvalue : LF ∉ bytesOf ":" ++ digits mark := not_mem_reference (by decide) (by decide)
    have hfield : optional (bytesOf "from ") (bytesOf "from " ++
        ((bytesOf ":" ++ digits mark) ++ LF :: (other ++ rest))) = (_, _) := hkey.optional hvalue
    simpa only [renderParent, List.append_assoc, List.cons_append, List.nil_append, Option.map_some] using hfield

theorem parseCommitIsh_marks :
    (parent.map fun mark => bytesOf ":" ++ digits mark).mapM parseCommitIsh = some (parent.map .mark) := by
  cases parent with
  | none => rfl
  | some mark =>
    have hmark : parseCommitIsh (bytesOf ":" ++ digits mark) = some (.mark mark) := by
      rw [parseCommitIsh, stripKey_append]
      simp only [decimal_digits, Option.map_some]
    simp [hmark]

structure Revision.Plain (revision : Revision) : Prop where
  reference : LF ∉ revision.reference
  author : revision.author.Plain
  committer : revision.committer.Plain

theorem oneLine_ident (h : ident.Plain) : LF ∉ renderIdent ident := by
  have hname : LF ∉ ident.name := fun hmem => (h.name _ hmem).2 rfl
  have hemail : LF ∉ ident.email := fun hmem => (h.email _ hmem).2 rfl
  have hdigits : LF ∉ digits ident.seconds := not_mem_digits (by decide)
  have hopen : LF ∉ bytesOf "<" := by decide
  have hclose : LF ∉ bytesOf "> " := by decide
  have hspace : LF ≠ SPACE := by decide
  simp [renderIdent, hname, hemail, hdigits, hopen, hclose, hspace, h.oneLine]

theorem flatMap_length_le {files : List (Nat × Bytes)} : files.length ≤ (files.flatMap (renderFile quote)).length := by
  induction files with
  | nil => exact Nat.le_refl 0
  | cons file files ih =>
    have hone : 1 ≤ (renderFile quote file).length := by
      rw [renderFile, List.length_append]
      have hkey : (bytesOf "M ").length = 2 := by decide
      omega
    rw [List.flatMap_cons, List.length_append, List.length_cons]
    omega

variable {revision : Revision} {mark : Nat} {data reference : Bytes} {entries : List Entry} {command : Command}

theorem parseChanges_written (h : Quoting quote) (fuel : Nat) (hfuel : revision.files.length + 1 < fuel) :
    parseChanges fuel (bytesOf "deleteall" ++ LF :: (revision.files.flatMap (renderFile quote) ++ LF :: rest)) =
      some (revision.command.changes, rest) := by
  obtain ⟨fuel, rfl⟩ := Nat.exists_eq_add_one_of_ne_zero (Nat.ne_of_gt (Nat.zero_lt_of_lt hfuel))
  have hline : nextCommand (bytesOf "deleteall" ++ LF :: (revision.files.flatMap (renderFile quote) ++ LF :: rest)) =
      (bytesOf "deleteall", revision.files.flatMap (renderFile quote) ++ LF :: rest) :=
    nextCommand_line (by decide) (by decide)
  have hnonempty : ¬ bytesOf "deleteall" = [] := by decide
  have hrest : parseChanges fuel (revision.files.flatMap (renderFile quote) ++ LF :: rest) =
      some (revision.files.map fileChange, rest) := parseChanges_files h _ fuel (by omega)
  rw [parseChanges, hline]
  simp only [if_neg hnonempty, if_true, hrest, Option.bind_eq_bind, Option.bind_some]
  rfl

theorem parseCommit_written (h : Quoting quote) (hplain : revision.Plain) :
    parseCommit revision.reference (renderMark revision.mark ++
      (bytesOf "author " ++ (renderIdent revision.author ++
        LF :: (bytesOf "committer " ++ (renderIdent revision.committer ++
        LF :: (renderData revision.message ++ (renderParent revision.parent ++ (bytesOf "deleteall" ++
          LF :: (revision.files.flatMap (renderFile quote) ++ LF :: rest))))))))) =
      some (.commit revision.command, rest) := by
  have hauthor : Key (bytesOf "author ") := ⟨by decide, by decide, by decide⟩
  have hcommitter : Key (bytesOf "committer ") := ⟨by decide, by decide, by decide⟩
  have horiginal : Key (bytesOf "original-oid ") := ⟨by decide, by decide, by decide⟩
  have hencoding : Key (bytesOf "encoding ") := ⟨by decide, by decide, by decide⟩
  have hdata : Key (bytesOf "data ") := ⟨by decide, by decide, by decide⟩
  have hdelete : Key (bytesOf "deleteall") := ⟨by decide, by decide, by decide⟩
  have hnoEncoding : ∀ rest : Bytes, optional (bytesOf "encoding ") (renderData revision.message ++ rest) =
      (none, renderData revision.message ++ rest) := by
    intro rest
    rw [renderData, List.append_assoc]
    exact hencoding.absent hdata (by decide)
  have hfuel : revision.files.length + 1 <
      (bytesOf "deleteall" ++ LF :: (revision.files.flatMap (renderFile quote) ++ LF :: rest)).length + 1 := by
    have hfiles : revision.files.length ≤ (revision.files.flatMap (renderFile quote)).length := flatMap_length_le
    rw [List.length_append, List.length_cons, List.length_append]
    omega
  rw [parseCommit, parseMark_written]
  simp only [Option.bind_eq_bind, Option.bind_some, horiginal.absent hauthor (by decide),
    hauthor.optional (oneLine_ident hplain.author), hcommitter.field (oneLine_ident hplain.committer), Option.mapM_some,
    parseIdent_written hplain.author, parseIdent_written hplain.committer, hnoEncoding, parseData_written,
    parseParent_written hdelete (by decide), parseCommitIsh_marks, parseChanges_written h _ hfuel, Option.map_eq_map,
    Option.map_some]
  rfl

theorem parseBlob_written :
    parseBlob (renderMark mark ++ (renderData data ++ rest)) = some (.blob (some mark) data, rest) := by
  have horiginal : Key (bytesOf "original-oid ") := ⟨by decide, by decide, by decide⟩
  have hdata : Key (bytesOf "data ") := ⟨by decide, by decide, by decide⟩
  have hnoOriginal : optional (bytesOf "original-oid ") (renderData data ++ rest) =
    (none, renderData data ++ rest) := by
    rw [renderData, List.append_assoc]
    exact horiginal.absent hdata (by decide)
  simp only [parseBlob, parseMark_written, hnoOriginal, parseData_written, Option.bind_eq_bind, Option.bind_some]
  rfl

theorem parseReset_written :
    parseReset reference (bytesOf "from " ++ (bytesOf ":" ++ (digits mark ++ LF :: LF :: rest))) =
      some (.reset reference (some (.mark mark)), rest) := by
  have hkey : Key (bytesOf "from ") := ⟨by decide, by decide, by decide⟩
  have hvalue : LF ∉ bytesOf ":" ++ digits mark := not_mem_reference (by decide) (by decide)
  have hfield : optional (bytesOf "from ") (bytesOf "from " ++ (bytesOf ":" ++ (digits mark ++ LF :: LF :: rest))) =
      (some (bytesOf ":" ++ digits mark), LF :: rest) := by
    rw [← List.append_assoc (bytesOf ":")]
    exact hkey.optional hvalue
  have hblank : nextCommand ([] ++ LF :: rest) = ([], rest) := nextCommand_line (by decide) (by decide)
  have hcommit : parseCommitIsh (bytesOf ":" ++ digits mark) = some (.mark mark) := by
    rw [parseCommitIsh, stripKey_append]
    simp only [decimal_digits, Option.map_some]
  rw [List.nil_append] at hblank
  simp only [parseReset, hfield, Option.mapM_some, hcommit, hblank, Option.bind_eq_bind, Option.bind_some,
    Option.map_eq_map, Option.map_some]
  rfl

def Entry.Plain : Entry → Prop
  | .blob _ _ => True
  | .revision written => written.Plain

structure Next (bytes : Bytes) (command : Command) (rest : Bytes) : Prop where
  more : ¬ (skipComments bytes.length bytes = [] ∨ (nextCommand bytes).1 = bytesOf "done")
  parsed : parseCommand (nextCommand bytes).1 (nextCommand bytes).2 = some (command, rest)

theorem Next.of_line {bytes line behind : Bytes} (hline : nextCommand bytes = (line, behind)) (hnonempty : line ≠ [])
    (hmore : line ≠ bytesOf "done") (hparsed : parseCommand line behind = some (command, rest)) :
    Next bytes command rest where
  more := by
    rintro (hempty | hdone)
    · refine hnonempty ?_
      rw [nextCommand, hempty] at hline
      exact (Prod.mk.inj hline).1.symm
    · rw [hline] at hdone
      exact hmore hdone
  parsed := by
    rw [hline]
    exact hparsed

theorem next_blob :
    Next (bytesOf "blob" ++ LF :: (renderMark mark ++ (renderData data ++ rest))) (.blob (some mark) data) rest := by
  refine .of_line (nextCommand_line (by decide) (by decide)) (by decide) (by decide) ?_
  rw [parseCommand, if_pos rfl, parseBlob_written]

theorem next_revision (h : Quoting quote) (hplain : revision.Plain) :
    Next (revision.render quote ++ rest) (.commit revision.command) rest := by
  have hkey : Key (bytesOf "commit ") := ⟨by decide, by decide, by decide⟩
  have hparsed : parseCommit revision.reference (_ ++ (_ ++ (_ ++ LF :: (_ ++ (_ ++ LF :: (_ ++ (_ ++ (_ ++ LF :: (_ ++
      LF :: rest))))))))) = some (.commit revision.command, rest) := parseCommit_written h hplain
  simp only [Revision.render, List.append_assoc, List.cons_append, List.nil_append]
  refine .of_line (hkey.nextCommand hplain.reference) (key_append_ne (by decide)) (key_append_ne (by decide)) ?_
  rw [parseCommand, if_neg (key_append_ne (by decide)), if_neg (key_append_ne (by decide)), stripKey_append]
  exact hparsed

theorem next_reset (hreference : LF ∉ reference) :
    Next (renderReset reference mark ++ rest) (.reset reference (some (.mark mark))) rest := by
  have hkey : Key (bytesOf "reset ") := ⟨by decide, by decide, by decide⟩
  have hother : stripKey (bytesOf "commit ") (bytesOf "reset " ++ reference) = none := by
    rw [stripKey, if_neg]
    intro hprefix
    obtain ⟨tail, htail⟩ := List.isPrefixOf_iff_prefix.mp hprefix
    have hcommit : Key (bytesOf "commit ") := ⟨by decide, by decide, by decide⟩
    have hhead := congrArg List.head? htail
    rw [hcommit.head_append, hkey.head_append] at hhead
    exact absurd hhead (by decide)
  simp only [renderReset, List.append_assoc, List.cons_append, List.nil_append]
  refine .of_line (hkey.nextCommand hreference) (key_append_ne (by decide)) (key_append_ne (by decide)) ?_
  rw [parseCommand, if_neg (key_append_ne (by decide)), if_neg (key_append_ne (by decide)), hother, stripKey_append]
  exact parseReset_written

theorem next_entry (h : Quoting quote) {entry : Entry} (hplain : entry.Plain) :
    Next (entry.render quote ++ rest) entry.command rest := by
  cases entry with
  | blob mark data =>
    have hblob : Next (bytesOf "blob" ++ LF :: (renderMark mark ++ (renderData data ++ rest)))
      (.blob (some mark) data) rest :=
      next_blob
    simpa only [Entry.render, Entry.command, List.append_assoc, List.cons_append] using hblob
  | revision written => exact next_revision h hplain

theorem Next.stream {bytes : Bytes} (h : Next bytes command rest) (fuel : Nat) :
    parseStream (fuel + 1) bytes = (parseStream fuel rest).map (command :: ·) := by
  rw [parseStream, if_neg h.more, h.parsed]
  simp only [Option.bind_eq_bind, Option.bind_some]
  cases parseStream fuel rest with
  | none => rfl
  | some commands => rfl

theorem parseStream_entries (h : Quoting quote) (hplain : ∀ entry ∈ entries, entry.Plain) (fuel : Nat) :
    parseStream (entries.length + fuel) (entries.flatMap (Entry.render quote) ++ rest) =
      (parseStream fuel rest).map (entries.map Entry.command ++ ·) := by
  induction entries with
  | nil => simp
  | cons entry entries ih =>
    have hnext : Next (entry.render quote ++ (entries.flatMap (Entry.render quote) ++ rest)) entry.command _ :=
      next_entry h (hplain entry List.mem_cons_self)
    have hlength : (entry :: entries).length + fuel = entries.length + fuel + 1 := by
      rw [List.length_cons]
      omega
    rw [List.flatMap_cons, List.append_assoc, hlength, hnext.stream,
      ih fun other hother => hplain other (List.mem_cons_of_mem entry hother), Option.map_map]
    rfl

theorem entries_length_le : entries.length ≤ (entries.flatMap (Entry.render quote)).length := by
  induction entries with
  | nil => exact Nat.le_refl 0
  | cons entry entries ih =>
    have hone : 1 ≤ (entry.render quote).length := by
      cases entry with
      | blob mark data =>
        rw [Entry.render, List.length_append, List.length_cons]
        omega
      | revision written =>
        rw [Entry.render, Revision.render, List.length_append, List.length_append, List.length_cons]
        omega
    rw [List.flatMap_cons, List.length_append, List.length_cons]
    omega

theorem parse_written (h : Quoting quote) (hplain : ∀ entry ∈ entries, entry.Plain) (hreference : LF ∉ reference) :
    parse (entries.flatMap (Entry.render quote) ++ (renderReset reference mark ++ (bytesOf "done" ++ [LF]))) =
      some (entries.map Entry.command ++ [Command.reset reference (some (.mark mark))]) := by
  have hdone : nextCommand (bytesOf "done" ++ [LF]) = (bytesOf "done", []) := nextCommand_line (by decide) (by decide)
  have hended : ∀ fuel, parseStream (fuel + 1) (bytesOf "done" ++ [LF]) = some [] := by
    intro fuel
    rw [parseStream, if_pos (.inr (by rw [hdone]))]
  have hlength : (entries.flatMap (Entry.render quote) ++
      (renderReset reference mark ++ (bytesOf "done" ++ [LF]))).length + 1 =
      entries.length + (((entries.flatMap (Entry.render quote)).length - entries.length +
        (renderReset reference mark).length + (bytesOf "done").length) + 1 + 1) := by
    have hentries : entries.length ≤ (entries.flatMap (Entry.render quote)).length := entries_length_le
    rw [List.length_append, List.length_append, List.length_append, List.length_singleton]
    omega
  rw [parse, hlength, parseStream_entries h hplain, (next_reset hreference).stream, hended]
  rfl

end writing

/-! The history that a writer of whole trees leaves: what one of its commits does to the repository, and when the tree
of a commit has just the files that were given for it. -/

section trees

/-- Every path has one content, and no path is a directory of another one. -/
def Tree.Plain (tree : Tree) : Prop :=
  ∀ entry ∈ tree, ∀ other ∈ tree, (entry.1 = other.1 → entry.2 = other.2) ∧ isBelow entry.1 other.1 = false

def Tree.ofFiles (files : Tree) : Tree := files.foldl (fun tree file => tree.set file.1 file.2) []

theorem isBelow_self (path : Bytes) : isBelow path path = false := by
  rw [isBelow, Bool.eq_false_iff]
  intro h
  have hlength := (List.isPrefixOf_iff_prefix.mp h).length_le
  rw [List.length_append, List.length_singleton] at hlength
  omega

variable {tree files : Tree}

theorem Tree.mem_set {path data : Bytes} {entry : Bytes × Bytes} : entry ∈ tree.set path data ↔ entry ∈ tree ∧
      entry.1 ≠ path ∧ isBelow path entry.1 = false ∧ isBelow entry.1 path = false ∨ entry = (path, data) := by
  rw [Tree.set, List.mem_append, List.mem_filter, List.mem_singleton]
  simp [and_assoc]

theorem Tree.Plain.set (h : tree.Plain) (path data : Bytes) : (tree.set path data).Plain := by
  intro entry hentry other hother
  rcases Tree.mem_set.mp hentry with ⟨hentry, hpath, _, hbelow⟩ | rfl
  · rcases Tree.mem_set.mp hother with ⟨hother, _⟩ | rfl
    · exact h entry hentry other hother
    · exact ⟨fun heq => absurd heq hpath, hbelow⟩
  · rcases Tree.mem_set.mp hother with ⟨hother, hpath, hbelow, _⟩ | rfl
    · exact ⟨fun heq => absurd heq.symm hpath, hbelow⟩
    · exact ⟨fun _ => rfl, isBelow_self _⟩

theorem Tree.Plain.mono {smaller : Tree} (h : tree.Plain) (hsub : ∀ entry ∈ smaller, entry ∈ tree) : smaller.Plain :=
  fun entry hentry other hother => h entry (hsub entry hentry) other (hsub other hother)

theorem Tree.Plain.foldl (h : tree.Plain) (files : Tree) :
    (files.foldl (fun tree file => tree.set file.1 file.2) tree).Plain := by
  induction files generalizing tree with
  | nil => exact h
  | cons file files ih => exact ih (h.set file.1 file.2)

theorem Tree.mem_foldl (h : Tree.Plain (tree ++ files)) (entry : Bytes × Bytes) :
    entry ∈ files.foldl (fun tree file => tree.set file.1 file.2) tree ↔ entry ∈ tree ∨ entry ∈ files := by
  induction files generalizing tree with
  | nil => simp
  | cons file files ih =>
    have hfile : file ∈ tree ++ file :: files := List.mem_append_right _ List.mem_cons_self
    have hset : ∀ entry, entry ∈ tree.set file.1 file.2 ↔ entry ∈ tree ∨ entry = file := by
      intro entry
      rw [Tree.mem_set]
      constructor
      · rintro (⟨hentry, _⟩ | heq)
        · exact .inl hentry
        · exact .inr heq
      · rintro (hentry | heq)
        · have hmem : entry ∈ tree ++ file :: files := List.mem_append_left _ hentry
          obtain ⟨hdata, hbelow⟩ := h entry hmem file hfile
          by_cases hpath : entry.1 = file.1
          · exact .inr (Prod.ext hpath (hdata hpath))
          · exact .inl ⟨hentry, hpath, (h file hfile entry hmem).2, hbelow⟩
        · exact .inr heq
    have hsub : ∀ entry ∈ tree.set file.1 file.2 ++ files, entry ∈ tree ++ file :: files := by
      intro entry hentry
      rcases List.mem_append.mp hentry with hentry | hentry
      · rcases (hset entry).mp hentry with hentry | rfl
        · exact List.mem_append_left _ hentry
        · exact hfile
      · exact List.mem_append_right _ (List.mem_cons_of_mem _ hentry)
    rw [List.foldl_cons, ih (h.mono hsub), hset, List.mem_cons, or_assoc]

theorem Tree.ofFiles_mem_iff : (∀ entry, entry ∈ Tree.ofFiles files ↔ entry ∈ files) ↔ files.Plain := by
  constructor
  · intro h
    have hempty : Tree.Plain [] := nofun
    exact (hempty.foldl files).mono fun entry hentry => (h entry).mpr hentry
  · intro h entry
    have hmem : entry ∈ Tree.ofFiles files ↔ entry ∈ [] ∨ entry ∈ files := @Tree.mem_foldl [] files h entry
    simpa using hmem

end trees

section commits

variable {repository : Repository}
variable {files : List ((Nat × Bytes) × Bytes)}

theorem applyFiles {marks : List (Nat × Object)}
    (h : ∀ file ∈ files, marks.lookup file.1.1 = some (.blob file.2)) (tree : Tree) :
    (files.map fun file => fileChange file.1).foldlM (applyChange marks) tree =
      if ∀ file ∈ files, isCanonical file.1.2 = true then
        some ((files.map fun file => (file.1.2, file.2)).foldl (fun tree file => tree.set file.1 file.2) tree)
      else none := by
  induction files generalizing tree with
  | nil => rfl
  | cons file files ih =>
    have hblob : blobOf marks (.mark file.1.1) = some file.2 := by
      rw [blobOf, h file List.mem_cons_self]
    have hmode : MODE ∈ FILE_MODES := by decide
    rw [List.map_cons, List.foldlM_cons, fileChange, applyChange, hblob]
    by_cases hcanonical : isCanonical file.1.2 = true
    · rw [if_pos ⟨hmode, hcanonical⟩, Option.map_some, Option.bind_eq_bind, Option.bind_some,
        ih fun other hother => h other (List.mem_cons_of_mem _ hother)]
      have hall : (∀ other ∈ file :: files, isCanonical other.1.2 = true) ↔
        ∀ other ∈ files, isCanonical other.1.2 = true := by
        rw [List.forall_mem_cons]
        exact and_iff_right hcanonical
      simp only [hall]
      rfl
    · rw [if_neg fun hboth => hcanonical hboth.2, if_neg fun hall => hcanonical (hall file List.mem_cons_self)]
      rfl

theorem remember_some {mark : Nat} {object : Object} :
    repository.remember (some mark) object = if mark = 0 then none else some ((mark, object) :: repository.marks) := by
  cases mark with
  | zero => rfl
  | succ mark => rfl

/-- A commit of whole files is taken where its mark is not zero, its parent is a commit, and its paths are canonical. -/
theorem applyCommit_written {revision : Revision} (hreference : isReference revision.reference = true)
    (hfresh : repository.references.lookup revision.reference = none) (hfiles : revision.files = files.map Prod.fst)
    (hblobs : ∀ file ∈ files, repository.marks.lookup file.1.1 = some (.blob file.2)) :
    repository.applyCommit revision.command =
      if revision.mark ≠ 0 ∧ ∀ file ∈ files, isCanonical file.1.2 = true then
        (revision.parent.mapM fun mark => repository.resolve (.mark mark)).map fun parent => {
          marks := (revision.mark, .commit repository.commits.length) :: repository.marks
          commits := repository.commits ++ [⟨revision.reference, some revision.author, revision.committer,
            revision.message, parent, Tree.ofFiles (files.map fun file => (file.1.2, file.2))⟩]
          references := repository.point revision.reference repository.commits.length }
      else none := by
  have hparent : repository.parentOf revision.command =
      revision.parent.mapM fun mark => repository.resolve (.mark mark) := by
    cases hsource : revision.parent with
    | none => simp [Repository.parentOf, Revision.command, hsource, hfresh]
    | some mark => simp [Repository.parentOf, Revision.command, hsource]
  have hchanges : ∀ tree, revision.command.changes.foldlM (applyChange repository.marks) tree =
      if ∀ file ∈ files, isCanonical file.1.2 = true then
        some (Tree.ofFiles (files.map fun file => (file.1.2, file.2)))
      else none := by
    intro tree
    have hset := applyFiles hblobs []
    rw [Revision.command, hfiles, List.map_map, List.foldlM_cons]
    exact hset
  have hreference' : isReference revision.command.reference = true := hreference
  rw [Repository.applyCommit, if_neg (by rw [hreference']; decide), hparent]
  simp only [hchanges, Option.bind_eq_bind]
  have hmark : revision.command.mark = some revision.mark := rfl
  rw [hmark, remember_some]
  cases revision.parent.mapM fun mark => repository.resolve (.mark mark) with
  | none => simp
  | some parent =>
    by_cases hcanonical : ∀ file ∈ files, isCanonical file.1.2 = true
    · by_cases hzero : revision.mark = 0
      · simp [hzero]
      · rw [if_pos hcanonical, if_neg hzero, if_pos ⟨hzero, hcanonical⟩]
        rfl
    · have hnot : ¬ (revision.mark ≠ 0 ∧ ∀ file ∈ files, isCanonical file.1.2 = true) := fun hboth => hcanonical hboth.2
      rw [if_neg hcanonical, if_neg hnot]
      rfl

theorem lookup_point {reference name : Bytes} {index : Nat} :
    (repository.point reference index).lookup name =
      if name = reference then some index else repository.references.lookup name := by
  have hkept : ∀ references : List (Bytes × Nat), name ≠ reference →
      (references.filter fun entry => entry.1 ≠ reference).lookup name = references.lookup name := by
    intro references hname
    induction references with
    | nil => rfl
    | cons entry references ih =>
      by_cases hentry : entry.1 = reference
      · have hother : (name == entry.1) = false := by simpa [hentry] using hname
        rw [List.filter_cons_of_neg (by simpa using hentry), ih, List.lookup_cons, hother]
      · rw [List.filter_cons_of_pos (by simpa using hentry), List.lookup_cons, List.lookup_cons, ih]
  rw [Repository.point, List.lookup_cons]
  by_cases hname : name = reference
  · simp [hname]
  · have hother : (name == reference) = false := by simpa using hname
    rw [if_neg hname, hother]
    exact hkept _ hname

end commits

end FastImport

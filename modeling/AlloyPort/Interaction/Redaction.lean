import Mathlib.Data.List.DropRight
import AlloyPort.Identity
import AlloyPort.Events.Record

/-! The display policy for what a worker reports. Texts are the lists of their characters. -/

namespace AlloyPort.Interaction

open Events

def ESCAPE : Char := Char.ofNat 0x1b

def BELL : Char := Char.ofNat 0x7

def BACKSLASH : Char := Char.ofNat 0x5c

/-- The test `char::is_control`. -/
def isControl (c : Char) : Bool := c.toNat < 0x20 || 0x7f ≤ c.toNat && c.toNat < 0xa0

inductive StripState where
  | text
  | escape
  | controlSequence
  | operatingSystemCommand
  | operatingSystemCommandEscape
  deriving DecidableEq

def StripState.step (state : StripState) (character : Char) : StripState × List Char :=
  match state with
  | .text =>
    if character = ESCAPE then (.escape, [])
    else (.text, if isControl character = false ∨ character = '\n' ∨ character = '\t' then [character] else [])
  | .escape =>
    if character = '[' then (.controlSequence, [])
    else if character = ']' then (.operatingSystemCommand, [])
    else (.text, [])
  | .controlSequence => if '@' ≤ character ∧ character ≤ '~' then (.text, []) else (.controlSequence, [])
  | .operatingSystemCommand =>
    if character = BELL then (.text, [])
    else if character = ESCAPE then (.operatingSystemCommandEscape, [])
    else (.operatingSystemCommand, [])
  | .operatingSystemCommandEscape =>
    if character = BACKSLASH then (.text, [])
    else if character = ESCAPE then (.operatingSystemCommandEscape, [])
    else (.operatingSystemCommand, [])

def StripState.run (state : StripState) : List Char → StripState × List Char
  | [] => (state, [])
  | character :: rest =>
    let (next, shown) := state.step character
    let (final, more) := next.run rest
    (final, shown ++ more)

def stripTerminalSequences (input : List Char) : List Char := (StripState.text.run input).2

def splitInclusive : List Char → List (List Char)
  | [] => []
  | character :: rest =>
    if isWhiteSpace character = true then [character] :: splitInclusive rest
    else match splitInclusive rest with
      | [] => [[character]]
      | segment :: segments => (character :: segment) :: segments

def wordOf (segment : List Char) : List Char := segment.rdropWhile isWhiteSpace

def splitOnce (separator : Char) (word : List Char) : Option (List Char × List Char) :=
  match word.dropWhile (· ≠ separator) with
  | [] => none
  | _ :: value => some (word.takeWhile (· ≠ separator), value)

def SENSITIVE : List (List Char) :=
  ["password", "passwd", "token", "secret", "api_key", "apikey", "access_key", "private_key", "authorization",
    "cookie"].map String.toList

def containsText (text part : List Char) : Bool := text.tails.any fun tail => part.isPrefixOf tail

def isSensitiveKey (value : List Char) : Bool :=
  let trimmed (c : Char) : Bool := !c.isAlphanum && c ≠ '_'
  let normalized := ((value.dropWhile trimmed).rdropWhile trimmed).map Char.toLower
  SENSITIVE.any fun sensitive => containsText normalized sensitive

def looksLikeSensitiveLabel (value : List Char) : Bool :=
  isSensitiveKey value &&
    (value.head? = some '-' || value.getLast? = some ':' || value.all fun c => c.isUpper || c = '_')

def isBearer (word : List Char) : Bool := word.map Char.toLower = "bearer".toList

def REDACTED : List Char := "[REDACTED]".toList

def sanitizeSegment (redactNext : Bool) (segment : List Char) : List Char × Bool :=
  let word := wordOf segment
  let whitespace := segment.drop word.length
  if word = [] then (segment, redactNext)
  else if redactNext = true then (REDACTED ++ whitespace, false)
  else if isBearer word = true then (word ++ whitespace, true)
  else match splitOnce '=' word with
    | some (key, _) =>
      if isSensitiveKey key = true then (key ++ '=' :: REDACTED ++ whitespace, false) else (word ++ whitespace, false)
    | none => (word ++ whitespace, looksLikeSensitiveLabel word)

def sanitizeSegments (redactNext : Bool) : List (List Char) → List Char × Bool
  | [] => ([], redactNext)
  | segment :: segments =>
    let (shown, next) := sanitizeSegment redactNext segment
    let (more, final) := sanitizeSegments next segments
    (shown ++ more, final)

def sanitizeDisplayText (input : List Char) : List Char :=
  (sanitizeSegments false (splitInclusive (stripTerminalSequences input))).1

def sanitizeString (input : String) : String := String.ofList (sanitizeDisplayText input.toList)

def redactWorkerEvent : Event → Event
  | .commandStarted command cwd executionSite description =>
    .commandStarted (sanitizeString command)
      (cwd.map fun cwd => String.ofList (stripTerminalSequences cwd.toList)) executionSite
      (description.map sanitizeString)
  | .commandOutput stream byteOffset text _ => .commandOutput stream byteOffset (sanitizeString text) true
  | .warning message => .warning (sanitizeString message)
  | .error message => .error (sanitizeString message)
  | event => event

example : sanitizeString "--token abc API_KEY=xyz done" =
  "--token [REDACTED] API_KEY=[REDACTED] done" := by decide +kernel

/-! What the sanitizer hides. A scheme word or a label redacts the word behind it, unless it is redacted itself: a
credential is hidden when an odd number of them stands before it, or when its word begins with a sensitive key. -/

section stripping

variable {state : StripState} {a b : List Char}

theorem run_append : state.run (a ++ b) =
    (((state.run a).1.run b).1, (state.run a).2 ++ ((state.run a).1.run b).2) := by
  induction a generalizing state with
  | nil => rfl
  | cons c a ih => simp only [List.cons_append, StripState.run, ih, List.append_assoc]

abbrev shown (text : List Char) : List Char := stripTerminalSequences text

end stripping

section words

def Spaceless (text : List Char) : Prop := ∀ c ∈ text, isWhiteSpace c = false

/-- Nothing of a word is open at the end of the text. -/
def Closed (text : List Char) : Prop := ∀ c, text.getLast? = some c → isWhiteSpace c = true

def Delimited (text : List Char) : Prop := ∀ c, text.head? = some c → isWhiteSpace c = true

variable {a b word : List Char}

theorem splitInclusive_append (h : Closed a) : splitInclusive (a ++ b) = splitInclusive a ++ splitInclusive b := by
  induction a with
  | nil => rfl
  | cons c a ih =>
    have hrest : a ≠ [] → Closed a := by
      intro hne d hd
      apply h d
      rw [List.getLast?_cons, hd]
      rfl
    by_cases hc : isWhiteSpace c = true
    · simp only [List.cons_append, splitInclusive, if_pos hc]
      by_cases ha : a = []
      · rw [ha]
        rfl
      · rw [ih (hrest ha)]
    · have ha : a ≠ [] := by
        intro heq
        rw [heq] at h
        exact hc (h c rfl)
      have hsome : splitInclusive a ≠ [] := by
        cases a with
        | nil => exact absurd rfl ha
        | cons d a =>
          unfold splitInclusive
          split
          · exact nofun
          · split <;> exact nofun
      simp only [List.cons_append, splitInclusive, if_neg hc, ih (hrest ha)]
      cases hsegments : splitInclusive a with
      | nil => exact absurd hsegments hsome
      | cons segment segments => rfl

theorem splitInclusive_word (hword : Spaceless word) (hne : word ≠ []) (hb : Delimited b) :
    splitInclusive (word ++ b) = (word ++ b.take 1) :: splitInclusive (b.drop 1) := by
  induction word with
  | nil => exact absurd rfl hne
  | cons c word ih =>
    have hc : ¬ isWhiteSpace c = true := by
      rw [hword c List.mem_cons_self]
      exact Bool.false_ne_true
    have hrest : Spaceless word := fun d hd => hword d (List.mem_cons_of_mem c hd)
    simp only [List.cons_append, splitInclusive, if_neg hc]
    by_cases hempty : word = []
    · subst hempty
      cases b with
      | nil => rfl
      | cons d b =>
        have hd := hb d rfl
        simp only [List.nil_append, splitInclusive, if_pos hd]
        rfl
    · rw [ih hrest hempty]

theorem wordOf_append (hword : Spaceless word) (hb : Delimited b) (hlength : b.length ≤ 1) :
    wordOf (word ++ b) = word := by
  unfold wordOf
  have hkeep : word.rdropWhile isWhiteSpace = word := by
    rw [List.rdropWhile_eq_self_iff]
    intro hne
    rw [hword _ (List.getLast_mem hne)]
    exact Bool.false_ne_true
  match b, hlength with
  | [], _ => rw [List.append_nil, hkeep]
  | [d], _ => rw [List.rdropWhile_concat_pos _ _ _ (hb d rfl), hkeep]

end words

section scanning

variable {flag : Bool} {word : List Char}

theorem sanitizeSegments_append {a b : List (List Char)} : sanitizeSegments flag (a ++ b) =
    ((sanitizeSegments flag a).1 ++ (sanitizeSegments (sanitizeSegments flag a).2 b).1,
      (sanitizeSegments (sanitizeSegments flag a).2 b).2) := by
  induction a generalizing flag with
  | nil => rfl
  | cons segment a ih => simp only [List.cons_append, sanitizeSegments, ih, List.append_assoc]

theorem sanitizeSegment_append {space : List Char} (hword : Spaceless word) (hne : word ≠ []) (hspace : Delimited space)
    (hlength : space.length ≤ 1) : sanitizeSegment flag (word ++ space) =
      ((sanitizeSegment flag word).1 ++ space, (sanitizeSegment flag word).2) := by
  have hwhole := wordOf_append hword hspace hlength
  have hself : wordOf word = word := by
    have hnil := @wordOf_append [] word hword nofun (Nat.zero_le 1)
    rwa [List.append_nil] at hnil
  unfold sanitizeSegment
  simp only [hwhole, hself, if_neg hne, List.drop_left, List.drop_length, List.append_nil]
  by_cases hflag : flag = true
  · simp only [if_pos hflag]
  by_cases hbearer : isBearer word = true
  · simp only [if_neg hflag, if_pos hbearer]
  simp only [if_neg hflag, if_neg hbearer]
  cases splitOnce '=' word with
  | none => rfl
  | some pair =>
    by_cases hkey : isSensitiveKey pair.1 = true
    · simp only [if_pos hkey]
    · simp only [if_neg hkey]

def arms (word : List Char) : Bool :=
  isBearer word || (splitOnce '=' word).isNone && looksLikeSensitiveLabel word

def wordsOf (text : List Char) : List (List Char) := ((splitInclusive text).map wordOf).filter (· ≠ [])

def armingRun (words : List (List Char)) : Nat := (words.reverse.takeWhile arms).length

theorem sanitizeSegment_flag {segment : List Char} : (sanitizeSegment flag segment).2 =
    if wordOf segment = [] then flag else !flag && arms (wordOf segment) := by
  unfold sanitizeSegment arms
  dsimp only
  by_cases hempty : wordOf segment = []
  · rw [if_pos hempty, if_pos hempty]
  rw [if_neg hempty, if_neg hempty]
  by_cases hflag : flag = true
  · rw [if_pos hflag, hflag]
    rfl
  have hfalse : flag = false := by simpa using hflag
  rw [if_neg hflag, hfalse]
  by_cases hbearer : isBearer (wordOf segment) = true
  · rw [if_pos hbearer, hbearer]
    rfl
  have hother : isBearer (wordOf segment) = false := by simpa using hbearer
  rw [if_neg hbearer, hother]
  cases splitOnce '=' (wordOf segment) with
  | none => rfl
  | some pair =>
    by_cases hkey : isSensitiveKey pair.1 = true
    · simp only [if_pos hkey]
      rfl
    · simp only [if_neg hkey]
      rfl

theorem sanitizeSegments_flag {segments : List (List Char)} : (sanitizeSegments flag segments).2 =
    ((segments.map wordOf).filter (· ≠ [])).foldl (fun flag word => !flag && arms word) flag := by
  induction segments generalizing flag with
  | nil => rfl
  | cons segment segments ih =>
    simp only [sanitizeSegments, ih, sanitizeSegment_flag, List.map_cons]
    by_cases hempty : wordOf segment = []
    · rw [if_pos hempty, List.filter_cons_of_neg (by simpa using hempty)]
    · rw [if_neg hempty, List.filter_cons_of_pos (by simpa using hempty), List.foldl_cons]

theorem armed_iff_odd {words : List (List Char)} :
    words.foldl (fun flag word => !flag && arms word) false = true ↔ Odd (armingRun words) := by
  induction words using List.reverseRecOn with
  | nil => simp [armingRun]
  | append_singleton words word ih =>
    rw [List.foldl_concat]
    unfold armingRun at ih ⊢
    rw [List.reverse_append, List.reverse_singleton, List.singleton_append]
    by_cases harms : arms word = true
    · rw [List.takeWhile_cons_of_pos harms, List.length_cons, Nat.odd_add_one, ← ih, harms]
      simp
    · have hno : arms word = false := by simpa using harms
      rw [List.takeWhile_cons_of_neg harms, hno]
      simp

theorem flag_iff_odd {text : List Char} :
    (sanitizeSegments false (splitInclusive text)).2 = true ↔ Odd (armingRun (wordsOf text)) := by
  rw [sanitizeSegments_flag, wordsOf]
  exact armed_iff_odd

end scanning

section shielding

variable {word part : List Char}
variable {separator : Char} {flag : Bool}

theorem splitOnce_some {key value : List Char} :
    splitOnce separator word = some (key, value) ↔ word = key ++ separator :: value ∧ separator ∉ key := by
  constructor
  · intro h
    unfold splitOnce at h
    cases hdrop : word.dropWhile (· ≠ separator) with
    | nil =>
      rw [hdrop] at h
      cases h
    | cons c rest =>
      rw [hdrop] at h
      simp only [Option.some.injEq, Prod.mk.injEq] at h
      obtain ⟨rfl, rfl⟩ := h
      have hhead : c = separator := by
        have hfails := List.head?_dropWhile_not (fun d => decide (d ≠ separator)) word
        rw [hdrop] at hfails
        simpa using hfails
      refine ⟨?_, fun hmem => ?_⟩
      · conv => lhs; rw [← List.takeWhile_append_dropWhile (p := fun d => decide (d ≠ separator)) (l := word), hdrop,
          hhead]
      · simpa using List.mem_takeWhile_imp hmem
  · rintro ⟨rfl, hkey⟩
    have hall : ∀ c ∈ key, decide (c ≠ separator) = true := by
      intro c hc
      exact decide_eq_true fun heq => hkey (heq ▸ hc)
    unfold splitOnce
    rw [List.dropWhile_append_of_pos hall, List.takeWhile_append_of_pos hall]
    simp

theorem splitOnce_none : splitOnce separator word = none ↔ separator ∉ word := by
  unfold splitOnce
  cases hdrop : word.dropWhile (· ≠ separator) with
  | nil =>
    have hall := List.dropWhile_eq_nil_iff.mp hdrop
    simp only [true_iff]
    intro hmem
    simpa using hall separator hmem
  | cons c rest =>
    have hhead : c = separator := by
      have hfails := List.head?_dropWhile_not (fun d => decide (d ≠ separator)) word
      rw [hdrop] at hfails
      simpa using hfails
    simp only [reduceCtorEq, false_iff, not_not]
    rw [← List.takeWhile_append_dropWhile (p := fun d => decide (d ≠ separator)) (l := word), hdrop, hhead]
    exact List.mem_append_right _ List.mem_cons_self

theorem splitOnce_append {key value : List Char} (h : splitOnce separator word = some (key, value)) :
    splitOnce separator (word ++ part) = some (key, value ++ part) := by
  obtain ⟨rfl, hkey⟩ := splitOnce_some.mp h
  refine splitOnce_some.mpr ⟨?_, hkey⟩
  rw [List.append_assoc, List.cons_append]

theorem isBearer_mem {c : Char} (h : isBearer word = true) (hc : c ∈ word) : c.toLower ∈ "bearer".toList := by
  have heq : word.map Char.toLower = "bearer".toList := of_decide_eq_true h
  rw [← heq]
  exact List.mem_map_of_mem hc

/-- The beginning of a word that hides how the word goes on: one after a label, or one with a sensitive key. -/
def Hides (flag : Bool) (word : List Char) : Prop :=
  flag = true ∨ ∃ key value, splitOnce '=' word = some (key, value) ∧ isSensitiveKey key = true

theorem wordOf_self (hword : Spaceless word) : wordOf word = word := by
  have hnil := @wordOf_append [] word hword nofun (Nat.zero_le 1)
  rwa [List.append_nil] at hnil

theorem Hides.same {part' : List Char} (h : Hides flag word) (hpart : Spaceless (word ++ part))
    (hpart' : Spaceless (word ++ part')) (hne : word ++ part ≠ []) (hne' : word ++ part' ≠ []) :
    sanitizeSegment flag (word ++ part) = sanitizeSegment flag (word ++ part') := by
  have hsegment : ∀ {x}, Spaceless (word ++ x) → word ++ x ≠ [] → sanitizeSegment flag (word ++ x) =
      if flag = true then (REDACTED, false) else
        ((splitOnce '=' word).elim [] fun pair => pair.1 ++ '=' :: REDACTED, false) := by
    intro x hx hnil
    unfold sanitizeSegment
    simp only [wordOf_self hx, if_neg hnil, List.drop_length, List.append_nil]
    by_cases hflag : flag = true
    · simp only [if_pos hflag]
    · rcases h with harmed | ⟨key, value, hsplit, hkey⟩
      · exact absurd harmed hflag
      · have hbearer : ¬ isBearer (word ++ x) = true := by
          intro hb
          obtain ⟨hwhole, -⟩ := splitOnce_some.mp (@splitOnce_append _ x _ _ _ hsplit)
          have hmem := isBearer_mem hb (c := '=') (by rw [hwhole]; simp)
          revert hmem
          decide
        simp only [if_neg hflag, if_neg hbearer, splitOnce_append hsplit, if_pos hkey, hsplit, Option.elim_some]
  rw [hsegment hpart hne, hsegment hpart' hne']

theorem digit_ne {digit : Char} (h : digit = '1' ∨ digit = '2') : digit ≠ '=' := by
  rcases h with rfl | rfl <;> decide

/-- What does not hide how a word goes on shows how it does. -/
theorem sanitizeSegment_digit {digit : Char} (h : ¬ Hides flag word) (hword : Spaceless (word ++ digit :: part))
    (hdigit : digit = '1' ∨ digit = '2') :
    ∃ rest, (sanitizeSegment flag (word ++ digit :: part)).1 = word ++ digit :: rest := by
  have hflag : ¬ flag = true := fun harmed => h (.inl harmed)
  have hnil : word ++ digit :: part ≠ [] := by simp
  unfold sanitizeSegment
  simp only [wordOf_self hword, if_neg hnil, List.drop_length, List.append_nil, if_neg hflag]
  split
  · exact ⟨part, rfl⟩
  cases hsplit : splitOnce '=' (word ++ digit :: part) with
  | none => exact ⟨part, rfl⟩
  | some pair =>
    obtain ⟨key, value⟩ := pair
    dsimp only
    split
    · -- a sensitive key ends behind the digit, since the word in front of it has none
      rename_i hkey
      obtain ⟨heq, -⟩ := splitOnce_some.mp hsplit
      cases hbefore : splitOnce '=' word with
      | some pair =>
        have hsame := hsplit.symm.trans (@splitOnce_append _ (digit :: part) _ pair.1 pair.2 hbefore)
        cases hsame
        exact absurd (.inr ⟨_, _, hbefore, hkey⟩) h
      | none =>
        have hfree : '=' ∉ word := splitOnce_none.mp hbefore
        rcases List.append_eq_append_iff.mp heq with ⟨rest, hlong, hrest⟩ | ⟨rest, hshort, hrest⟩
        · cases rest with
          | nil => exact absurd (List.cons.inj hrest).1 (digit_ne hdigit)
          | cons c rest =>
            rw [hlong, ← (List.cons.inj hrest).1]
            exact ⟨rest ++ '=' :: REDACTED, by simp⟩
        · cases rest with
          | nil => exact absurd (List.cons.inj hrest).1.symm (digit_ne hdigit)
          | cons c rest =>
            refine absurd ?_ hfree
            rw [hshort, ← (List.cons.inj hrest).1]
            simp
    · exact ⟨part, rfl⟩

end shielding

section texts

variable {text before after : List Char} {digit : Char}

def closedPart (text : List Char) : List Char := text.rdropWhile fun c => !isWhiteSpace c

def openPart (text : List Char) : List Char := text.rtakeWhile fun c => !isWhiteSpace c

theorem closedPart_append_openPart : closedPart text ++ openPart text = text := List.rdropWhile_append_rtakeWhile

theorem closed_closedPart : Closed (closedPart text) := by
  intro c hc
  have hne : closedPart text ≠ [] := by
    intro heq
    rw [heq] at hc
    cases hc
  have hlast : ¬ (!isWhiteSpace ((closedPart text).getLast hne)) = true := List.rdropWhile_last_not _ text hne
  rw [List.getLast?_eq_some_getLast hne] at hc
  rw [← Option.some.inj hc]
  simpa using hlast

theorem spaceless_openPart : Spaceless (openPart text) := by
  intro c hc
  simpa using List.mem_rtakeWhile_imp hc

def Shielded (text : List Char) : Prop :=
  Odd (armingRun (wordsOf (closedPart text))) ∨
    ∃ key value, splitOnce '=' (openPart text) = some (key, value) ∧ isSensitiveKey key = true

theorem shielded_iff : Shielded text ↔
    Hides (sanitizeSegments false (splitInclusive (closedPart text))).2 (openPart text) := by
  unfold Shielded Hides
  rw [flag_iff_odd]

theorem Spaceless.append {a b : List Char} (ha : Spaceless a) (hb : Spaceless b) : Spaceless (a ++ b) := by
  intro c hc
  rcases List.mem_append.mp hc with hc | hc
  · exact ha c hc
  · exact hb c hc

abbrev displayed (text : List Char) : List Char := (sanitizeSegments false (splitInclusive text)).1

theorem sanitizeSegments_token {token : List Char} (htoken : Spaceless token) (hne : openPart before ++ token ≠ [])
    (hafter : Delimited after) : displayed (before ++ token ++ after) =
      displayed (closedPart before) ++
        ((sanitizeSegment (sanitizeSegments false (splitInclusive (closedPart before))).2
          (openPart before ++ token)).1 ++ after.take 1 ++
        (sanitizeSegments (sanitizeSegment (sanitizeSegments false (splitInclusive (closedPart before))).2
          (openPart before ++ token)).2 (splitInclusive (after.drop 1))).1) := by
  have hword : Spaceless (openPart before ++ token) := spaceless_openPart.append htoken
  have hsplit : before ++ token ++ after = closedPart before ++ (openPart before ++ token ++ after) := by
    conv => lhs; rw [← @closedPart_append_openPart before]
    simp only [List.append_assoc]
  have hspace : Delimited (after.take 1) := by
    intro c hc
    cases after with
    | nil => cases hc
    | cons d after => exact hafter c hc
  have hlength : (after.take 1).length ≤ 1 := by
    rw [List.length_take]
    omega
  rw [displayed, hsplit, splitInclusive_append closed_closedPart, splitInclusive_word hword hne hafter,
    sanitizeSegments_append]
  simp only [sanitizeSegments, sanitizeSegment_append hword hne hspace hlength]

theorem leading_word (text : List Char) : ∃ lead rest, text = lead ++ rest ∧ Spaceless lead ∧ Delimited rest := by
  refine ⟨_, _, (@List.takeWhile_append_dropWhile _ (fun c => !isWhiteSpace c) text).symm, fun c hc => ?_,
    fun c hc => ?_⟩
  · simpa using List.mem_takeWhile_imp hc
  · have hfails := List.head?_dropWhile_not (fun c => !isWhiteSpace c) text
    rw [hc] at hfails
    simpa using hfails

theorem Shielded.same {token token' : List Char} (h : Shielded before) (htoken : Spaceless token)
    (hne : token ≠ []) (htoken' : Spaceless token') (hne' : token' ≠ []) :
    displayed (before ++ token ++ after) = displayed (before ++ token' ++ after) := by
  obtain ⟨lead, rest, rfl, hlead, hrest⟩ := leading_word after
  have hnil : openPart before ++ (token ++ lead) ≠ [] := by simp [hne]
  have hnil' : openPart before ++ (token' ++ lead) ≠ [] := by simp [hne']
  have hword := htoken.append hlead
  have hword' := htoken'.append hlead
  rw [← List.append_assoc, ← List.append_assoc, List.append_assoc before, List.append_assoc before token',
    sanitizeSegments_token hword hnil hrest, sanitizeSegments_token hword' hnil' hrest,
    (shielded_iff.mp h).same (spaceless_openPart.append hword) (spaceless_openPart.append hword') hnil hnil']

theorem spaceless_digit (h : digit = '1' ∨ digit = '2') : Spaceless [digit] := by
  intro c hc
  rw [List.mem_singleton.mp hc]
  rcases h with rfl | rfl <;> decide

theorem shielded_of_digits (h : displayed (before ++ ['1'] ++ after) = displayed (before ++ ['2'] ++ after)) :
    Shielded before := by
  rw [shielded_iff]
  by_contra hopen
  obtain ⟨lead, rest, rfl, hlead, hrest⟩ := leading_word after
  have hshows : ∀ digit, digit = '1' ∨ digit = '2' → ∃ text, displayed (before ++ [digit] ++ (lead ++ rest)) =
      displayed (closedPart before) ++ (openPart before ++ digit :: text) := by
    intro digit hdigit
    have hword : Spaceless ([digit] ++ lead) := (spaceless_digit hdigit).append hlead
    obtain ⟨text, htext⟩ := sanitizeSegment_digit hopen (spaceless_openPart.append hword) hdigit
    have hsplit : before ++ [digit] ++ (lead ++ rest) = before ++ ([digit] ++ lead) ++ rest := by simp
    rw [hsplit, sanitizeSegments_token hword (by simp) hrest]
    erw [htext]
    exact ⟨_, by simp only [List.append_assoc, List.cons_append]; rfl⟩
  obtain ⟨text, htext⟩ := hshows '1' (.inl rfl)
  obtain ⟨text', htext'⟩ := hshows '2' (.inr rfl)
  rw [htext, htext', List.append_cancel_left_eq, List.append_cancel_left_eq] at h
  exact absurd (List.cons.inj h).1 (by decide)

/-- A digit in a place that is shielded is not seen, unless it is a word of its own. -/
theorem Shielded.absorbs_iff (h : Shielded before) :
    displayed (before ++ after) = displayed (before ++ ['1'] ++ after) ↔
    (openPart before = [] → ¬ Delimited after) := by
  obtain ⟨lead, rest, rfl, hlead, hrest⟩ := leading_word after
  have hword : Spaceless (['1'] ++ lead) := (spaceless_digit (.inl rfl)).append hlead
  have hone : openPart before ++ (['1'] ++ lead) ≠ [] := by simp
  have hdigit : displayed (before ++ ['1'] ++ (lead ++ rest)) = displayed (before ++ (['1'] ++ lead) ++ rest) := by simp
  rw [hdigit]
  by_cases hnil : openPart before ++ lead = []
  · obtain ⟨hopen, rfl⟩ := List.append_eq_nil_iff.mp hnil
    refine iff_of_false (fun hsame => ?_) fun hcut => hcut hopen hrest
    have hclosed : closedPart before = before := by
      have hparts := @closedPart_append_openPart before
      rwa [hopen, List.append_nil] at hparts
    have harmed : (sanitizeSegments false (splitInclusive before)).2 = true := by
      rcases shielded_iff.mp h with harmed | ⟨key, value, hsplit, -⟩
      · rwa [hclosed] at harmed
      · rw [hopen] at hsplit
        cases hsplit
    have hbehind : splitInclusive (before ++ rest) = splitInclusive before ++ splitInclusive rest :=
      splitInclusive_append (hclosed ▸ closed_closedPart)
    rw [sanitizeSegments_token hword hone hrest, hclosed, hopen, harmed, List.nil_append, displayed, hbehind,
      sanitizeSegments_append, harmed, List.append_cancel_left_eq] at hsame
    have hredacted : (sanitizeSegment true ([] ++ (['1'] ++ []))).1 = '[' :: "REDACTED]".toList := by decide
    rw [hredacted, List.cons_append, List.cons_append] at hsame
    cases rest with
    | nil => cases hsame
    | cons c rest =>
      have hspace := hrest c rfl
      have hempty : wordOf [c] = [] := List.rdropWhile_concat_pos _ [] c hspace
      simp only [splitInclusive, if_pos hspace, sanitizeSegments, sanitizeSegment, hempty, if_true] at hsame
      rw [(List.cons.inj hsame).1] at hspace
      revert hspace
      decide
  · refine iff_of_true ?_ fun hopen hcut => hnil ?_
    · rw [← List.append_assoc, sanitizeSegments_token hlead hnil hrest, sanitizeSegments_token hword hone hrest,
        (shielded_iff.mp h).same (spaceless_openPart.append hlead) (spaceless_openPart.append hword) hnil hone]
    · cases lead with
      | nil => rw [hopen, List.append_nil]
      | cons c lead =>
        have hspace := hcut c rfl
        rw [hlead c List.mem_cons_self] at hspace
        cases hspace

/-- A piece of text that displays one token, whatever terminal sequences it holds. -/
structure IsCredential (text : List Char) : Prop where
  complete : (StripState.text.run text).1 = .text
  nonempty : shown text ≠ []
  spaceless : Spaceless (shown text)

theorem isCredential_digit (h : digit = '1' ∨ digit = '2') :
    IsCredential [digit] ∧ shown [digit] = [digit] := by
  have hshown : (StripState.text.run [digit]).1 = .text ∧ shown [digit] = [digit] := by
    rcases h with rfl | rfl <;> decide
  refine ⟨⟨hshown.1, ?_, ?_⟩, hshown.2⟩
  · rw [hshown.2]
    exact nofun
  · rw [hshown.2]
    exact spaceless_digit h

theorem sanitizeDisplayText_append {credential : List Char} (hbefore : (StripState.text.run before).1 = .text)
    (hcredential : IsCredential credential) : sanitizeDisplayText (before ++ credential ++ after) =
      displayed (shown before ++ shown credential ++ shown after) := by
  unfold sanitizeDisplayText displayed
  rw [List.append_assoc]
  simp only [shown, stripTerminalSequences, run_append, hbefore, hcredential.complete, List.append_assoc]

def HidesBetween (before after : List Char) : Prop :=
  ∀ credential credential', IsCredential credential → IsCredential credential' →
    sanitizeDisplayText (before ++ credential ++ after) = sanitizeDisplayText (before ++ credential' ++ after)

theorem hidesBetween_iff (hbefore : (StripState.text.run before).1 = .text) :
    HidesBetween before after ↔ Shielded (shown before) := by
  constructor
  · intro hhides
    obtain ⟨hone, hshown⟩ := isCredential_digit (.inl rfl : '1' = '1' ∨ '1' = '2')
    obtain ⟨htwo, hshown'⟩ := isCredential_digit (.inr rfl : '2' = '1' ∨ '2' = '2')
    have hsame := hhides ['1'] ['2'] hone htwo
    rw [sanitizeDisplayText_append hbefore hone, sanitizeDisplayText_append hbefore htwo, hshown, hshown'] at hsame
    exact shielded_of_digits hsame
  · intro hshielded credential credential' hc hc'
    rw [sanitizeDisplayText_append hbefore hc, sanitizeDisplayText_append hbefore hc']
    exact hshielded.same hc.spaceless hc.nonempty hc'.spaceless hc'.nonempty

end texts

section credentials

variable {text before after : List Char}

/-- The text ends with a sensitive key and `=`. -/
def Keyed (text : List Char) : Prop :=
  ∃ key, openPart text = key ++ ['='] ∧ '=' ∉ key ∧ isSensitiveKey key = true

/-- The last word of the text is a scheme word or a label, and whitespace stands behind it. -/
def Labelled (text : List Char) : Prop :=
  openPart text = [] ∧ ∃ word, (wordsOf text).getLast? = some word ∧ arms word = true

theorem Keyed.shielded (h : Keyed text) : Shielded text := by
  obtain ⟨key, hopen, hkey, hsensitive⟩ := h
  exact .inr ⟨key, [], splitOnce_some.mpr ⟨hopen, hkey⟩, hsensitive⟩

theorem Labelled.shielded_iff (h : Labelled text) : Shielded text ↔ Odd (armingRun (wordsOf text)) := by
  have hclosed : closedPart text = text := by
    have hparts := @closedPart_append_openPart text
    rwa [h.1, List.append_nil] at hparts
  unfold Shielded
  rw [hclosed, h.1]
  simp [splitOnce]

/-- A credential behind a scheme word, a label or a sensitive key is hidden if its word has the key or the number of
scheme words and labels in a row before it is odd. -/
theorem sanitizer_hides_credential_iff (hbefore : (StripState.text.run before).1 = .text)
    (hplace : Labelled (shown before) ∨ Keyed (shown before)) :
    HidesBetween before after ↔ Keyed (shown before) ∨ Odd (armingRun (wordsOf (shown before))) := by
  rw [hidesBetween_iff hbefore]
  constructor
  · intro hshielded
    rcases hplace with hlabelled | hkeyed
    · exact .inr (hlabelled.shielded_iff.mp hshielded)
    · exact .inl hkeyed
  · rintro (hkeyed | hodd)
    · exact hkeyed.shielded
    · rcases hplace with hlabelled | hkeyed
      · exact hlabelled.shielded_iff.mpr hodd
      · exact hkeyed.shielded

theorem sanitizer_hides_credential_sample :
    HidesBetween "--token ".toList [] ↔ Keyed (shown "--token ".toList) ∨
    Odd (armingRun (wordsOf (shown "--token ".toList))) := by
  refine sanitizer_hides_credential_iff (by decide) (.inl ⟨by decide, "--token".toList, ?_, ?_⟩)
  · decide
  · decide

/-- The label before the scheme word redacts the scheme word. -/
theorem authorization_header_leaks :
    ¬ ∀ before after, (StripState.text.run before).1 = .text → Labelled (shown before) ∨ Keyed (shown before) →
      Delimited (shown after) → HidesBetween before after := by
  intro hhides
  have hlabelled : Labelled (shown "Authorization: Bearer ".toList) :=
    ⟨by decide, "Bearer".toList, by decide, by decide⟩
  have hsame := hhides "Authorization: Bearer ".toList [] (by decide) (.inl hlabelled) nofun "1".toList "2".toList
    (isCredential_digit (.inl rfl)).1 (isCredential_digit (.inr rfl)).1
  revert hsame
  decide +kernel

end credentials

section tokens

/-- Characters that a terminal displays, none of them whitespace. -/
def Printable (text : List Char) : Prop := ∀ c ∈ text, isControl c = false ∧ isWhiteSpace c = false

structure IsToken (text : List Char) : Prop where
  nonempty : text ≠ []
  printable : Printable text

namespace StripState

/-- The states in which a token may end of which a terminal sequence has swallowed everything. -/
def swallows : StripState → List StripState
  | text => []
  | escape => [controlSequence, operatingSystemCommand]
  | controlSequence => [controlSequence]
  | operatingSystemCommand | operatingSystemCommandEscape => [operatingSystemCommand]

end StripState

open StripState

variable {token before after : List Char} {c : Char} {state : StripState}

theorem Printable.tail (h : Printable (c :: token)) : Printable token := fun d hd => h d (List.mem_cons_of_mem c hd)

theorem Printable.ne (h : Printable (c :: token)) {control : Char} (hcontrol : isControl control = true) :
    c ≠ control := by
  rintro rfl
  have hc := (h c List.mem_cons_self).1
  rw [hcontrol] at hc
  cases hc

theorem Printable.spaceless (h : Printable token) : Spaceless token := fun c hc => (h c hc).2

theorem run_text (h : Printable token) : text.run token = (text, token) := by
  induction token with
  | nil => rfl
  | cons c token ih =>
    have hescape : c ≠ ESCAPE := h.ne (by decide)
    simp only [StripState.run, StripState.step, if_neg hescape, if_pos (Or.inl (h c List.mem_cons_self).1), ih h.tail,
      List.singleton_append]

theorem run_operatingSystemCommand (h : Printable token) :
    operatingSystemCommand.run token = (operatingSystemCommand, []) := by
  induction token with
  | nil => rfl
  | cons c token ih =>
    have hbell : c ≠ BELL := h.ne (by decide)
    have hescape : c ≠ ESCAPE := h.ne (by decide)
    simp only [StripState.run, StripState.step, if_neg hbell, if_neg hescape, ih h.tail, List.nil_append]

theorem run_controlSequence (h : Printable token) : controlSequence.run token = (controlSequence, []) ∨
    ∃ rest, Printable rest ∧ controlSequence.run token = (text, rest) := by
  induction token with
  | nil => exact .inl rfl
  | cons c token ih =>
    by_cases hfinal : '@' ≤ c ∧ c ≤ '~'
    · refine .inr ⟨token, h.tail, ?_⟩
      simp only [StripState.run, StripState.step, if_pos hfinal, run_text h.tail, List.nil_append]
    · simpa only [StripState.run, StripState.step, if_neg hfinal, List.nil_append] using ih h.tail

/-- A token is swallowed, or what is left of it is displayed. -/
theorem run_token (h : IsToken token) : (∃ final ∈ state.swallows, state.run token = (final, [])) ∨
    ∃ rest, Printable rest ∧ state.run token = (text, rest) := by
  have hprintable := h.printable
  cases state with
  | text => exact .inr ⟨token, hprintable, run_text hprintable⟩
  | controlSequence =>
    exact (run_controlSequence hprintable).imp_left fun hrun => ⟨_, List.mem_singleton_self _, hrun⟩
  | operatingSystemCommand => exact .inl ⟨_, List.mem_singleton_self _, run_operatingSystemCommand hprintable⟩
  | escape | operatingSystemCommandEscape =>
    cases token with
    | nil => exact absurd rfl h.nonempty
    | cons c token =>
      have htext := run_text hprintable.tail
      have hcommand := run_operatingSystemCommand hprintable.tail
      have hescape : c ≠ ESCAPE := hprintable.ne (by decide)
      simp only [StripState.run, StripState.step, swallows, if_neg hescape]
      grind [run_controlSequence hprintable.tail, hprintable.tail]

theorem sanitizeDisplayText_token : sanitizeDisplayText (before ++ token ++ after) = displayed (shown before ++
    ((text.run before).1.run token).2 ++ (((text.run before).1.run token).1.run after).2) := by
  unfold sanitizeDisplayText displayed
  simp only [shown, stripTerminalSequences, run_append, List.append_assoc]

/-- Whatever the token is, the same is displayed. -/
def Conceals (before after : List Char) : Prop :=
  ∀ token token', IsToken token → IsToken token' →
    sanitizeDisplayText (before ++ token ++ after) = sanitizeDisplayText (before ++ token' ++ after)

/-- The place between the two texts is in an operating system command, or shielded. If it is shielded in the midst of
another sequence, then a word is open or follows, and what follows reads the same whether the sequence ends
or goes on. -/
def Hidden (before after : List Char) : Prop :=
  (text.run before).1 = operatingSystemCommand ∨ Shielded (shown before) ∧ ((text.run before).1 ≠ text →
    (openPart (shown before) = [] → ¬ Delimited (shown after)) ∧ ∀ final ∈ (text.run before).1.swallows,
      displayed (shown before ++ (final.run after).2) = displayed (shown before ++ shown after))

theorem isToken_of_forall (hne : token ≠ []) (h : token.all fun c => !isControl c && !isWhiteSpace c) : IsToken token :=
  ⟨hne, fun c hc => by simpa using List.all_eq_true.mp h c hc⟩

/-- In the midst of a sequence but an operating system command a character ends it, and one leads to each state that
swallows. -/
theorem run_char : (state ≠ text → state ≠ operatingSystemCommand → ∃ c, IsToken [c] ∧ state.run [c] = (text, [])) ∧
    ∀ final ∈ state.swallows, ∃ c, IsToken [c] ∧ state.run [c] = (final, []) := by
  have htoken : ∀ c, (!isControl c && !isWhiteSpace c) = true → IsToken [c] := fun c hc =>
    isToken_of_forall nofun (by simpa using hc)
  cases state with
  | text => exact ⟨fun h => absurd rfl h, nofun⟩
  | escape =>
    refine ⟨fun _ _ => ⟨'1', htoken _ (by decide), by decide⟩, fun final hfinal => ?_⟩
    rcases List.mem_cons.mp hfinal with rfl | hfinal
    · exact ⟨'[', htoken _ (by decide), by decide⟩
    · rw [List.mem_singleton.mp hfinal]
      exact ⟨']', htoken _ (by decide), by decide⟩
  | controlSequence =>
    refine ⟨fun _ _ => ⟨'m', htoken _ (by decide), by decide⟩, fun final hfinal => ?_⟩
    rw [List.mem_singleton.mp hfinal]
    exact ⟨'1', htoken _ (by decide), by decide⟩
  | operatingSystemCommand =>
    refine ⟨fun _ h => absurd rfl h, fun final hfinal => ?_⟩
    rw [List.mem_singleton.mp hfinal]
    exact ⟨'1', htoken _ (by decide), by decide⟩
  | operatingSystemCommandEscape =>
    refine ⟨fun _ _ => ⟨BACKSLASH, htoken _ (by decide), by decide⟩, fun final hfinal => ?_⟩
    rw [List.mem_singleton.mp hfinal]
    exact ⟨'1', htoken _ (by decide), by decide⟩

theorem isToken_digit {digit : Char} (h : digit = '1' ∨ digit = '2') : IsToken [digit] := by
  rcases h with rfl | rfl <;> exact isToken_of_forall nofun (by decide)

theorem IsToken.append {other : List Char} (h : IsToken token) (hother : IsToken other) : IsToken (token ++ other) := by
  refine ⟨by simp [h.nonempty], fun c hc => ?_⟩
  rcases List.mem_append.mp hc with hc | hc
  · exact h.printable c hc
  · exact hother.printable c hc

theorem Hidden.conceals (h : Hidden before after) : Conceals before after := by
  suffices hsame : ∃ result, ∀ token, IsToken token → sanitizeDisplayText (before ++ token ++ after) = result by
    obtain ⟨result, hresult⟩ := hsame
    exact fun token token' htoken htoken' => (hresult token htoken).trans (hresult token' htoken').symm
  simp only [sanitizeDisplayText_token]
  rcases h with hcommand | ⟨hshielded, hmidst⟩
  · refine ⟨displayed (shown before ++ [] ++ (operatingSystemCommand.run after).2), fun token htoken => ?_⟩
    rw [hcommand, run_operatingSystemCommand htoken.printable]
  · have hdigit := spaceless_digit (.inl rfl : '1' = '1' ∨ '1' = '2')
    refine ⟨displayed (shown before ++ ['1'] ++ shown after), fun token htoken => ?_⟩
    by_cases htext : (text.run before).1 = text
    · rw [htext, run_text htoken.printable]
      exact hshielded.same htoken.printable.spaceless htoken.nonempty hdigit nofun
    · obtain ⟨hopen, hgoes⟩ := hmidst htext
      have habsorbed := hshielded.absorbs_iff.mpr hopen
      rcases @run_token token (text.run before).1 htoken with ⟨final, hfinal, hrun⟩ | ⟨rest, hrest, hrun⟩
      · rw [hrun, List.append_nil, hgoes final hfinal]
        exact habsorbed
      · rw [hrun]
        by_cases hnil : rest = []
        · rw [hnil, List.append_nil]
          exact habsorbed
        · exact hshielded.same hrest.spaceless hnil hdigit nofun

theorem Conceals.hidden (h : Conceals before after) : Hidden before after := by
  have hone := isToken_digit (.inl rfl : '1' = '1' ∨ '1' = '2')
  have htwo := isToken_digit (.inr rfl : '2' = '1' ∨ '2' = '2')
  have hsame : ∀ {token token' : List Char} {final final' : StripState} {rest rest' : List Char},
      IsToken token → IsToken token' → (text.run before).1.run token = (final, rest) →
      (text.run before).1.run token' = (final', rest') →
      displayed (shown before ++ rest ++ (final.run after).2) =
        displayed (shown before ++ rest' ++ (final'.run after).2) := by
    intro token token' final final' rest rest' htoken htoken' hrun hrun'
    have heq := h token token' htoken htoken'
    rwa [sanitizeDisplayText_token, sanitizeDisplayText_token, hrun, hrun'] at heq
  by_cases hcommand : (text.run before).1 = operatingSystemCommand
  · exact .inl hcommand
  by_cases htext : (text.run before).1 = text
  · have hshown : ∀ {digit}, IsToken [digit] → (text.run before).1.run [digit] = (text, [digit]) := by
      intro digit hdigit
      rw [htext]
      exact run_text hdigit.printable
    have hshielded := shielded_of_digits (hsame hone htwo (hshown hone) (hshown htwo))
    exact .inr ⟨hshielded, fun hmidst => absurd htext hmidst⟩
  · -- a character ends the sequence, and what comes behind it is displayed
    obtain ⟨c, hc, hends⟩ := run_char.1 htext hcommand
    have hbehind : ∀ {digit}, IsToken [digit] → (text.run before).1.run ([c] ++ [digit]) = (text, [digit]) := by
      intro digit hdigit
      rw [run_append, hends, run_text hdigit.printable]
      rfl
    have hshielded := shielded_of_digits (hsame (hc.append hone) (hc.append htwo) (hbehind hone) (hbehind htwo))
    have habsorbed := hsame hc (hc.append hone) hends (hbehind hone)
    rw [List.append_nil] at habsorbed
    refine .inr ⟨hshielded, fun _ => ⟨hshielded.absorbs_iff.mp habsorbed, fun final hfinal => ?_⟩⟩
    obtain ⟨d, hd, hswallowed⟩ := run_char.2 final hfinal
    have hgoes := hsame hd hc hswallowed hends
    rwa [List.append_nil] at hgoes

theorem conceals_iff : Conceals before after ↔ Hidden before after := ⟨Conceals.hidden, Hidden.conceals⟩

end tokens

section chunks

variable {left right pieces : List (List Char)} {front back : List Char} {count : Nat}

def redactChunks (chunks : List (List Char)) : List Char := chunks.flatMap sanitizeDisplayText

/-- The chunks in which the pieces of a credential lie; the first has the text in front of it, the last what follows. -/
def carve (front back : List Char) : List (List Char) → List (List Char)
  | [] => [front ++ back]
  | [piece] => [front ++ piece ++ back]
  | piece :: next :: pieces => (front ++ piece) :: carve [] back (next :: pieces)

def HidesCut (left : List (List Char)) (front : List Char) (count : Nat) (back : List Char) (right : List (List Char)) :
    Prop :=
  ∀ pieces pieces' : List (List Char), pieces.length = count → pieces'.length = count →
    IsToken pieces.flatten → IsToken pieces'.flatten →
    redactChunks (left ++ carve front back pieces ++ right) = redactChunks (left ++ carve front back pieces' ++ right)

theorem carve_last {piece last : List Char} :
    carve front back (piece :: (pieces ++ [last])) = (front ++ piece) :: (pieces ++ [last ++ back]) := by
  induction pieces generalizing front piece with
  | nil => simp [carve]
  | cons next pieces ih =>
    rw [List.cons_append, carve, ih]
    simp

theorem redactChunks_cancel {middle middle' : List (List Char)}
    (h : redactChunks (left ++ middle ++ right) = redactChunks (left ++ middle' ++ right)) :
    redactChunks middle = redactChunks middle' := by
  unfold redactChunks at h ⊢
  simp only [List.flatMap_append, List.append_assoc, List.append_cancel_left_eq] at h
  exact List.append_cancel_right h

theorem hidesCut_one : HidesCut left front 1 back right ↔ Conceals front back := by
  have hcarve : ∀ piece, carve front back [piece] = [front ++ piece ++ back] := fun _ => rfl
  constructor
  · intro hhides token token' htoken htoken'
    have hsame := hhides [token] [token'] rfl rfl (by simpa using htoken) (by simpa using htoken')
    have hchunk := redactChunks_cancel hsame
    rw [hcarve, hcarve] at hchunk
    simpa only [redactChunks, List.flatMap_cons, List.flatMap_nil, List.append_nil] using hchunk
  · intro hconceals pieces pieces' hlength hlength' htoken htoken'
    obtain ⟨piece, rfl⟩ := List.length_eq_one_iff.mp hlength
    obtain ⟨piece', rfl⟩ := List.length_eq_one_iff.mp hlength'
    rw [List.flatten_singleton] at htoken htoken'
    have hsame := hconceals piece piece' htoken htoken'
    rw [hcarve, hcarve]
    simp only [redactChunks, List.flatMap_append, List.flatMap_cons, List.flatMap_nil, hsame]

theorem not_shielded_nil : ¬ Shielded [] := by
  rintro (hodd | ⟨key, value, hsplit, -⟩)
  · revert hodd
    decide
  · cases hsplit

theorem not_hidesCut (hcount : 2 ≤ count) : ¬ HidesCut left front count back right := by
  intro hhides
  let digits (last : Char) : List (List Char) := ['1'] :: (List.replicate (count - 2) ['1'] ++ [[last]])
  have hlength : ∀ last, (digits last).length = count := by
    intro last
    simp only [digits, List.length_cons, List.length_append, List.length_replicate, List.length_nil]
    omega
  have htoken : ∀ last, last = '1' ∨ last = '2' → IsToken (digits last).flatten := by
    intro last hlast
    refine ⟨by simp [digits], fun c hc => ?_⟩
    obtain ⟨piece, hpiece, hmem⟩ := List.mem_flatten.mp hc
    have hpieces : piece = ['1'] ∨ piece = [last] := by
      rcases List.mem_cons.mp hpiece with rfl | hpiece
      · exact .inl rfl
      · rcases List.mem_append.mp hpiece with hpiece | hpiece
        · exact .inl (List.eq_of_mem_replicate hpiece)
        · exact .inr (List.mem_singleton.mp hpiece)
    rcases hpieces with rfl | rfl
    · exact (isToken_digit (.inl rfl)).printable c hmem
    · exact (isToken_digit hlast).printable c hmem
  have hsame := hhides (digits '1') (digits '2') (hlength _) (hlength _) (htoken _ (.inl rfl)) (htoken _ (.inr rfl))
  have hchunks := redactChunks_cancel hsame
  simp only [digits, carve_last, redactChunks, List.flatMap_cons, List.flatMap_append, List.flatMap_nil,
    List.append_nil, List.append_cancel_left_eq] at hchunks
  -- the last piece stands first in a chunk of its own
  have hlast : ∀ digit, IsToken [digit] → sanitizeDisplayText ([digit] ++ back) =
    displayed ([] ++ [digit] ++ shown back) := by
    intro digit hdigit
    have hsplit := @sanitizeDisplayText_token [digit] [] back
    rwa [StripState.run, run_text hdigit.printable] at hsplit
  rw [hlast _ (isToken_digit (.inl rfl)), hlast _ (isToken_digit (.inr rfl))] at hchunks
  exact not_shielded_nil (shielded_of_digits hchunks)

/-- What the whole text hides, the chunks hide. -/
def ChunksHide (left : List (List Char)) (front : List Char) (count : Nat) (back : List Char)
    (right : List (List Char)) : Prop :=
  Conceals (left.flatten ++ front) (back ++ right.flatten) → HidesCut left front count back right

/-- A hidden credential stays hidden in the chunks just if no cut falls into it and its own chunk hides its place. -/
theorem chunks_hide_credential_iff (hcount : 1 ≤ count) : ChunksHide left front count back right ↔
    (Hidden (left.flatten ++ front) (back ++ right.flatten) → count = 1 ∧ Hidden front back) := by
  unfold ChunksHide
  rw [conceals_iff]
  refine imp_congr_right fun _ => ?_
  by_cases hone : count = 1
  · subst hone
    rw [hidesCut_one, conceals_iff]
    simp
  · exact iff_of_false (not_hidesCut (by omega)) fun h => hone h.1

theorem chunks_hide_credential_sample :
    ChunksHide ["cmd ".toList] "--token ".toList 1 " done".toList [] :=
  (chunks_hide_credential_iff le_rfl).mpr fun _ =>
    ⟨rfl, .inr ⟨.inl (by decide), fun hmidst => absurd (by decide) hmidst⟩⟩

theorem cut_output_leaks :
    Conceals "--token ".toList [] ∧ ¬ HidesCut [] "--token ".toList 2 [] [] ∧
      ¬ "abcdef".toList <:+: sanitizeDisplayText ["--token ".toList, "abcdef".toList].flatten ∧
      "abcdef".toList <:+: redactChunks ["--token ".toList, "abcdef".toList] := by
  refine ⟨Hidden.conceals (.inr ⟨.inl (by decide), fun hmidst => absurd (by decide) hmidst⟩), not_hidesCut le_rfl, ?_,
    ?_⟩
  · decide +kernel
  · decide +kernel

end chunks

end AlloyPort.Interaction

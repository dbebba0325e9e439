import AlloyPort.Library.Replacement
import AlloyPort.Library.Utf8
import AlloyPort.Projection.Producer

/-! The diagnostic that the HTTP transport keeps of an error response, and the credential that it must not show. -/

namespace AlloyPort.Transport

open Interaction Projection Replacement Utf8

def MAX_SECRET_BYTES : Nat := 512

structure SecretMetadata where
  isSymlink : Bool
  isFile : Bool
  mode : Nat
  len : Nat

structure SecretFile where
  metadata : Except String SecretMetadata
  contents : Except String (List UInt8)

def isSecretByte (byte : UInt8) : Bool :=
  (0x30 ≤ byte && byte ≤ 0x39) || (0x41 ≤ byte && byte ≤ 0x5A) ||
    (0x61 ≤ byte && byte ≤ 0x7A) || byte == 0x2D || byte == 0x5F

/-- `trim_end_matches(['\r', '\n'])`. -/
def trimLineEnds (value : String) : String :=
  String.ofList (value.toList.reverse.dropWhile fun c => c == '\r' || c == '\n').reverse

def readSecret (file : SecretFile) : Except String String := do
  let metadata ← file.metadata.mapError fun error => s!"cannot inspect secret file: {error}"
  if metadata.isSymlink = true ∨ metadata.isFile = false then
    throw "secret path must be a regular non-symlink file"
  if metadata.mode &&& 0o077 ≠ 0 then
    throw "secret file must not grant group or other permissions"
  if metadata.len = 0 ∨ metadata.len > MAX_SECRET_BYTES then
    throw s!"secret file must contain 1..={MAX_SECRET_BYTES} bytes"
  let bytes ← file.contents.mapError fun error => s!"cannot read secret file: {error}"
  match String.fromUTF8? ⟨bytes.toArray⟩ with
  | none => throw "secret must be UTF-8"
  | some text =>
    let value := trimLineEnds text
    if value = "" ∨ (bytesOf value).any (fun byte => !isSecretByte byte) = true then
      throw "secret contains unsupported characters"
    else return value

def isShown (character : Char) : Bool := isControl character = false ∨ character = '\n' ∨ character = '\t'

/-- `str::trim`. -/
def trimText (text : List Char) : List Char :=
  ((text.dropWhile isWhiteSpace).reverse.dropWhile isWhiteSpace).reverse

def REDACTED : List Char := "[REDACTED]".toList

def sanitizeText (value : List Char) (secret : String) : List Char :=
  trimText (replace secret.toList REDACTED (value.filter isShown))

def boundedResponseDiagnostic (body : List UInt8) (limit : Nat) (secret : String) : String :=
  let retained := body.take (min body.length limit)
  let diagnostic := sanitizeText (decodeLossy retained.length retained) secret ++
    (if limit < body.length then " [truncated]".toList else [])
  if diagnostic = [] then "provider returned an empty error body" else String.ofList diagnostic

section decoding

variable {a b : List UInt8}

def decoded (bytes : List UInt8) : List Char := decodeLossy bytes.length bytes

theorem takeSequence_length (more low high value : Nat) (bytes : List UInt8) :
    (takeSequence more low high value bytes).2.length ≤ bytes.length := by
  induction more generalizing low high value bytes with
  | zero => exact Nat.le_refl _
  | succ more ih =>
    cases bytes with
    | nil => exact Nat.le_refl _
    | cons byte rest =>
      rw [takeSequence]
      by_cases hrange : low ≤ byte.toNat ∧ byte.toNat ≤ high
      · rw [if_pos hrange]
        exact Nat.le_succ_of_le (ih _ _ _ rest)
      · rw [if_neg hrange]

variable {n low high more first value : Nat} {byte : UInt8} {bytes : List UInt8}

theorem mem_takeSequence
    (h : byte ∈ (takeSequence more low high value bytes).2) : byte ∈ bytes := by
  induction more generalizing low high value bytes with
  | zero => exact h
  | succ more ih =>
    cases bytes with
    | nil => exact h
    | cons first rest =>
      rw [takeSequence] at h
      by_cases hrange : low ≤ first.toNat ∧ first.toNat ≤ high
      · rw [if_pos hrange] at h
        exact List.mem_cons_of_mem first (ih h)
      · rw [if_neg hrange] at h
        exact h

theorem decodeLossy_fuel {fuel : Nat} (h : bytes.length ≤ fuel) : decodeLossy fuel bytes = decoded bytes := by
  unfold decoded
  induction hn : bytes.length using Nat.strong_induction_on generalizing bytes fuel with
  | _ n ih =>
    cases bytes with
    | nil => cases fuel <;> cases n <;> simp_all [decodeLossy]
    | cons byte rest =>
      rw [List.length_cons] at h hn
      obtain ⟨fuel, rfl⟩ : ∃ more, fuel = more + 1 := ⟨fuel - 1, by omega⟩
      obtain ⟨m, rfl⟩ : ∃ m, n = m + 1 := ⟨n - 1, by omega⟩
      have hany : ∀ bytes : List UInt8, bytes.length ≤ rest.length → decodeLossy fuel bytes = decodeLossy m bytes := by
        intro bytes hle
        rw [ih bytes.length (by omega) (by omega : bytes.length ≤ fuel) rfl,
          ih bytes.length (by omega) (by omega : bytes.length ≤ m) rfl]
      rw [decodeLossy, decodeLossy]
      by_cases hascii : byte.toNat < 0x80
      · rw [if_pos hascii, if_pos hascii, hany rest (Nat.le_refl _)]
      · rw [if_neg hascii, if_neg hascii]
        cases hseq : sequenceOf byte.toNat with
        | none =>
          simp only
          rw [hany rest (Nat.le_refl _)]
        | some sequence =>
          obtain ⟨more, low, high, value⟩ := sequence
          simp only
          rw [hany _ (takeSequence_length more low high value rest)]

theorem decoded_cons_ascii (h : byte.toNat < 0x80) (rest : List UInt8) :
    decoded (byte :: rest) = Char.ofNat byte.toNat :: decoded rest := by
  rw [decoded, List.length_cons, decodeLossy, if_pos h, decoded]

theorem takeSequence_ascii (h : byte.toNat < 0x80) (hlow : 0x80 ≤ low) :
    takeSequence more low high value (a ++ byte :: b) =
      ((takeSequence more low high value a).1, (takeSequence more low high value a).2 ++ byte :: b) := by
  induction more generalizing low high value a with
  | zero => rfl
  | succ more ih =>
    cases a with
    | nil =>
      have hrange : ¬ (low ≤ byte.toNat ∧ byte.toNat ≤ high) := by omega
      simp only [List.nil_append, takeSequence, if_neg hrange]
    | cons first rest =>
      rw [List.cons_append, takeSequence, takeSequence]
      by_cases hrange : low ≤ first.toNat ∧ first.toNat ≤ high
      · rw [if_pos hrange, if_pos hrange, ih (Nat.le_refl _)]
      · rw [if_neg hrange, if_neg hrange, List.cons_append]

theorem sequenceOf_low (h : sequenceOf first = some (more, low, high, value)) : 0x80 ≤ low := by
  unfold sequenceOf at h
  repeat' split at h
  all_goals cases h
  all_goals decide

theorem decoded_ascii (h : byte.toNat < 0x80) :
    decoded (a ++ byte :: b) = decoded a ++ Char.ofNat byte.toNat :: decoded b := by
  induction hn : a.length using Nat.strong_induction_on generalizing a with
  | _ n ih =>
    cases a with
    | nil => exact decoded_cons_ascii h b
    | cons first rest =>
      rw [List.length_cons] at hn
      rw [List.cons_append]
      by_cases hascii : first.toNat < 0x80
      · rw [decoded_cons_ascii hascii, decoded_cons_ascii hascii, ih rest.length (by omega) rfl, List.cons_append]
      · have hleft : ∀ bytes : List UInt8, bytes.length ≤ rest.length →
            decodeLossy (rest ++ byte :: b).length (bytes ++ byte :: b) =
              decodeLossy rest.length bytes ++ Char.ofNat byte.toNat :: decoded b := by
          intro bytes hle
          rw [decodeLossy_fuel (by simp only [List.length_append]; omega), decodeLossy_fuel hle,
            ih bytes.length (by omega) rfl]
        rw [decoded, List.length_cons, decodeLossy, if_neg hascii, decoded, List.length_cons, decodeLossy,
          if_neg hascii]
        cases hseq : sequenceOf first.toNat with
        | none =>
          simp only
          rw [hleft rest (Nat.le_refl _), List.cons_append]
        | some sequence =>
          obtain ⟨more, low, high, value⟩ := sequence
          simp only
          rw [takeSequence_ascii h (sequenceOf_low hseq), hleft _ (takeSequence_length more low high value rest),
            List.cons_append]

theorem decoded_ascii_first (h : ∀ byte ∈ a, byte.toNat < 0x80) :
    decoded (a ++ b) = a.map (fun byte => Char.ofNat byte.toNat) ++ decoded b := by
  induction a with
  | nil => rfl
  | cons byte a ih =>
    rw [List.cons_append, decoded_cons_ascii (h byte List.mem_cons_self), ih fun c hc =>
      h c (List.mem_cons_of_mem byte hc)]
    rfl

theorem decoded_append {ascii : List UInt8} (h : ∀ byte ∈ ascii, byte.toNat < 0x80) (hne : ascii ≠ [] ∨ b = []) :
    decoded (a ++ (ascii ++ b)) = decoded a ++ (ascii.map (fun byte => Char.ofNat byte.toNat) ++ decoded b) := by
  cases ascii with
  | nil =>
    have hb : b = [] := by simpa using hne
    simp [hb, decoded, decodeLossy]
  | cons byte ascii =>
    have hrest : ∀ c ∈ ascii, c.toNat < 0x80 := fun c hc => h c (List.mem_cons_of_mem byte hc)
    rw [List.cons_append, decoded_ascii (h byte List.mem_cons_self), decoded_ascii_first hrest, List.map_cons,
      List.cons_append]

theorem decoded_intercalate {mark rest : List UInt8} (hmark : ∀ byte ∈ mark, byte.toNat < 0x80) (hne : mark ≠ [])
    (hrest : ∀ byte ∈ rest, byte.toNat < 0x80) (literals : List (List UInt8)) :
    decoded (mark.intercalate literals ++ rest) =
      (mark.map fun byte => Char.ofNat byte.toNat).intercalate (literals.map decoded) ++
        rest.map fun byte => Char.ofNat byte.toNat := by
  induction literals with
  | nil => simpa [decoded, decodeLossy] using decoded_ascii_first (b := []) hrest
  | cons literal literals ih =>
    cases literals with
    | nil =>
      have hend := decoded_append (a := literal) (b := []) hrest (.inr rfl)
      simpa [decoded, decodeLossy] using hend
    | cons next others =>
      rw [List.intercalate_cons_cons, List.append_assoc, List.append_assoc, decoded_append hmark (.inl hne), ih]
      simp only [List.map_cons, List.intercalate_cons_cons, List.append_assoc]

theorem toNat_ofNat_valid (h : n.isValidChar) : (Char.ofNat n).toNat = n := by
  rw [Char.ofNat, dif_pos h]
  rfl

theorem ofNat_wide (h : 128 ≤ n) : 128 ≤ (Char.ofNat n).toNat ∨ (Char.ofNat n).toNat = 0 := by
  by_cases hvalid : n.isValidChar
  · rw [toNat_ofNat_valid hvalid]
    exact .inl h
  · rw [Char.ofNat, dif_neg hvalid]
    exact .inr rfl

theorem replacement_wide : 128 ≤ replacement.toNat := by decide

/-- What a longer character has read so far leads beyond ASCII. -/
def LeadsBeyond (more low high value : Nat) : Prop :=
  (more = 0 → 128 ≤ value) ∧ (more = 1 → 2 ≤ value) ∧ (2 ≤ more → 1 ≤ value ∨ 0x90 ≤ low ∧ high ≤ 0xBF)

theorem takeSequence_wide (hlow : 0x80 ≤ low) (h : LeadsBeyond more low high value) (bytes : List UInt8) :
    128 ≤ (takeSequence more low high value bytes).1.toNat ∨ (takeSequence more low high value bytes).1.toNat = 0 := by
  induction more generalizing low high value bytes with
  | zero => exact ofNat_wide (h.1 rfl)
  | succ more ih =>
    cases bytes with
    | nil => exact .inl replacement_wide
    | cons byte rest =>
      rw [takeSequence]
      by_cases hrange : low ≤ byte.toNat ∧ byte.toNat ≤ high
      · rw [if_pos hrange]
        refine ih (Nat.le_refl _) ?_ rest
        obtain ⟨_, hone, hmore⟩ := h
        unfold LeadsBeyond
        omega
      · rw [if_neg hrange]
        exact .inl replacement_wide

theorem sequenceOf_beyond (h : sequenceOf first = some (more, low, high, value)) :
    LeadsBeyond more low high value := by
  unfold LeadsBeyond
  unfold sequenceOf at h
  repeat' split at h
  all_goals cases h
  all_goals omega

theorem mem_decoded {character : Char} (h : character ∈ decoded a) (hascii : character.toNat < 128)
    (hpos : character.toNat ≠ 0) : ∃ byte ∈ a, byte.toNat = character.toNat := by
  induction hn : a.length using Nat.strong_induction_on generalizing a with
  | _ n ih =>
    cases a with
    | nil => cases h
    | cons first rest =>
      rw [List.length_cons] at hn
      have hdeep : ∀ bytes : List UInt8, bytes.length ≤ rest.length → (∀ byte ∈ bytes, byte ∈ rest) →
          character ∈ decodeLossy rest.length bytes → ∃ byte ∈ first :: rest, byte.toNat = character.toNat := by
        intro bytes hle hsub hmem
        rw [decodeLossy_fuel hle] at hmem
        obtain ⟨byte, hbyte, heq⟩ := ih bytes.length (by omega) hmem rfl
        exact ⟨byte, List.mem_cons_of_mem first (hsub byte hbyte), heq⟩
      have hwide : ∀ c : Char, 128 ≤ c.toNat ∨ c.toNat = 0 → character ≠ c := by
        rintro c hc rfl
        omega
      rw [decoded, List.length_cons, decodeLossy] at h
      by_cases hfirst : first.toNat < 0x80
      · rw [if_pos hfirst, List.mem_cons] at h
        rcases h with rfl | h
        · refine ⟨first, List.mem_cons_self, ?_⟩
          exact (toNat_ofNat_valid (Or.inl (by omega))).symm
        · exact hdeep rest (Nat.le_refl _) (fun _ hb => hb) h
      · rw [if_neg hfirst] at h
        cases hseq : sequenceOf first.toNat with
        | none =>
          simp only [hseq, List.mem_cons] at h
          rcases h with heq | h
          · exact absurd heq (hwide replacement (.inl replacement_wide))
          · exact hdeep rest (Nat.le_refl _) (fun _ hb => hb) h
        | some sequence =>
          obtain ⟨more, low, high, value⟩ := sequence
          simp only [hseq, List.mem_cons] at h
          rcases h with heq | h
          · exact absurd heq (hwide _ (takeSequence_wide (sequenceOf_low hseq) (sequenceOf_beyond hseq) rest))
          · exact hdeep _ (takeSequence_length more low high value rest) (fun _ hb => mem_takeSequence hb) h

end decoding

section secrets

variable {file : SecretFile} {secret : String} {byte : UInt8}

theorem readSecret_ok (h : readSecret file = .ok secret) :
    secret ≠ "" ∧ ∀ byte ∈ bytesOf secret, isSecretByte byte = true := by
  simp only [readSecret, Effect.bind_eq_ok] at h
  obtain ⟨metadata, _, h⟩ := h
  by_cases hregular : metadata.isSymlink = true ∨ metadata.isFile = false
  · rw [if_pos hregular] at h
    cases h
  · rw [if_neg hregular] at h
    by_cases hmode : metadata.mode &&& 0o077 ≠ 0
    · rw [if_pos hmode] at h
      cases h
    · rw [if_neg hmode] at h
      by_cases hlen : metadata.len = 0 ∨ metadata.len > MAX_SECRET_BYTES
      · rw [if_pos hlen] at h
        cases h
      · rw [if_neg hlen] at h
        obtain ⟨bytes, _, h⟩ := Effect.bind_eq_ok.mp h
        cases htext : String.fromUTF8? ⟨bytes.toArray⟩ with
        | none =>
          rw [htext] at h
          cases h
        | some text =>
          simp only [htext] at h
          by_cases hvalue : trimLineEnds text = "" ∨
            (bytesOf (trimLineEnds text)).any (fun byte => !isSecretByte byte) = true
          · rw [if_pos hvalue] at h
            cases h
          · rw [if_neg hvalue] at h
            cases h
            rw [not_or] at hvalue
            refine ⟨hvalue.1, fun byte hbyte => ?_⟩
            by_contra hother
            exact hvalue.2 (List.any_eq_true.mpr ⟨byte, hbyte, by simpa using hother⟩)

theorem isSecretByte_bounds (h : isSecretByte byte = true) : 0x2D ≤ byte.toNat ∧ byte.toNat < 0x7F := by
  simp only [isSecretByte, Bool.or_eq_true, Bool.and_eq_true, decide_eq_true_eq, beq_iff_eq, UInt8.le_iff_toNat_le] at h
  rcases h with (((⟨h, h'⟩ | ⟨h, h'⟩) | ⟨h, h'⟩) | rfl) | rfl
  · exact ⟨Nat.le_trans (by decide) h, Nat.lt_of_le_of_lt h' (by decide)⟩
  · exact ⟨Nat.le_trans (by decide) h, Nat.lt_of_le_of_lt h' (by decide)⟩
  · exact ⟨Nat.le_trans (by decide) h, Nat.lt_of_le_of_lt h' (by decide)⟩
  · decide
  · decide

/-- A credential that `read_secret` has accepted. -/
structure Credential (secret : String) : Prop where
  nonempty : secret ≠ ""
  characters : ∀ character ∈ secret.toList, 0x2D ≤ character.toNat ∧ character.toNat < 0x7F
  unbracketed : ']' ∉ secret.toList

theorem credential_of_readSecret (h : readSecret file = .ok secret) : Credential secret where
  nonempty := (readSecret_ok h).1
  characters := by
    intro character hmem
    have hbytes : ∀ byte ∈ String.utf8EncodeChar character, isSecretByte byte = true := by
      intro byte hbyte
      refine (readSecret_ok h).2 byte ?_
      rw [bytesOf_eq]
      exact List.mem_flatMap.mpr ⟨character, hmem, hbyte⟩
    by_cases hascii : character.toNat < 128
    · rw [encode_ascii hascii] at hbytes
      have hbounds := isSecretByte_bounds (hbytes _ List.mem_cons_self)
      rw [UInt8.toNat_ofNat'] at hbounds
      omega
    · have hwide := encode_wide (Nat.le_of_not_lt hascii)
      obtain ⟨byte, hbyte⟩ := List.exists_mem_of_ne_nil _ String.utf8EncodeChar_ne_nil
      have hbounds := isSecretByte_bounds (hbytes byte hbyte)
      have hlarge := hwide byte hbyte
      omega
  unbracketed := by
    intro hmem
    have hbracket : isSecretByte 0x5D = true := by
      refine (readSecret_ok h).2 0x5D ?_
      rw [bytesOf_eq]
      exact List.mem_flatMap.mpr ⟨']', hmem, by decide⟩
    cases hbracket

theorem Credential.bytes (h : Credential secret) : bytesOf secret = secret.toList.map fun c => UInt8.ofNat c.toNat := by
  have hascii := @bytesOf_ascii secret.toList fun c hc => by
    have hbounds := h.characters c hc
    omega
  rwa [String.ofList_toList] at hascii

theorem Credential.mem_bytes (h : Credential secret) {character : Char} (hmem : character ∈ secret.toList)
    (hbyte : byte.toNat = character.toNat) : byte ∈ bytesOf secret := by
  rw [h.bytes]
  refine List.mem_map.mpr ⟨character, hmem, ?_⟩
  rw [← hbyte, UInt8.ofNat_toNat]

theorem Credential.bytes_ascii (h : Credential secret) : ∀ byte ∈ bytesOf secret, byte.toNat < 0x80 := by
  intro byte hbyte
  rw [h.bytes] at hbyte
  obtain ⟨character, hmem, rfl⟩ := List.mem_map.mp hbyte
  have hbounds := h.characters character hmem
  rw [UInt8.toNat_ofNat']
  omega

theorem Credential.decoded_bytes (h : Credential secret) :
    (bytesOf secret).map (fun byte => Char.ofNat byte.toNat) = secret.toList := by
  have hone : ∀ c ∈ secret.toList, Char.ofNat (UInt8.ofNat c.toNat).toNat = c := by
    intro c hc
    have hbounds := h.characters c hc
    have hsmall : c.toNat % 2 ^ 8 = c.toNat := by omega
    rw [UInt8.toNat_ofNat', hsmall, Char.ofNat_toNat]
  rw [h.bytes, List.map_map]
  exact (List.map_congr_left hone).trans (List.map_id _)

theorem Credential.shown (h : Credential secret) : ∀ character ∈ secret.toList, isShown character = true := by
  intro character hmem
  have hbounds := h.characters character hmem
  have hcontrol : isControl character = false := by
    simp only [isControl, Bool.or_eq_false_iff, decide_eq_false_iff_not, Bool.and_eq_false_iff]
    omega
  simp [isShown, hcontrol]

theorem Credential.not_space (h : Credential secret) : ∀ character ∈ secret.toList, isWhiteSpace character = false := by
  intro character hmem
  have hbounds := h.characters character hmem
  simp only [isWhiteSpace, Bool.or_eq_false_iff, decide_eq_false_iff_not, Bool.and_eq_false_iff, beq_eq_false_iff_ne]
  omega

theorem Credential.ne_nil (h : Credential secret) : secret.toList ≠ [] := by
  intro hnil
  exact h.nonempty (String.toList_eq_nil_iff.mp hnil)

theorem Credential.length_bytes (h : Credential secret) : (bytesOf secret).length = secret.toList.length := by
  rw [h.bytes, List.length_map]

/-- The body of a response that echoes the credential between each two literals of the template. -/
def echo (template : List (List UInt8)) (secret : String) : List UInt8 := (bytesOf secret).intercalate template

/-- No character of the credential stands in the rest of the template. -/
def Foreign (secret : String) (template : List (List UInt8)) : Prop :=
  ∀ literal ∈ template, ∀ byte ∈ literal, byte ∉ bytesOf secret

/-- How many bytes of an echo the limit leaves at the end of what is retained, when it cuts one. -/
def echoCut (template : List (List UInt8)) (limit size : Nat) : Nat := (cutAt size limit template).2

def shownLiterals (template : List (List UInt8)) (limit size : Nat) : List (List Char) :=
  ((cutAt size limit template).1.map decoded).map (List.filter isShown)

variable {template : List (List UInt8)}

theorem Foreign.shownLiterals (hforeign : Foreign secret template) (h : Credential secret)
    (limit size : Nat) : ∀ literal ∈ shownLiterals template limit size, ∀ c ∈ literal, c ∉ secret.toList := by
  intro literal hliteral c hc hmem
  simp only [Transport.shownLiterals, List.map_map, List.mem_map, Function.comp_apply] at hliteral
  obtain ⟨left, hleft, rfl⟩ := hliteral
  obtain ⟨whole, hwhole, hbegins⟩ := mem_cutAt hleft
  have hbounds := h.characters c hmem
  obtain ⟨byte, hbyte, heq⟩ := mem_decoded (List.mem_filter.mp hc).1 (by omega) (by omega)
  exact hforeign whole hwhole byte (hbegins.subset hbyte) (h.mem_bytes hmem heq)

theorem sanitizeText_echo (h : Credential secret) (hforeign : Foreign secret template) (limit : Nat) :
    sanitizeText (decoded ((echo template secret).take limit)) secret =
      trimText (REDACTED.intercalate (shownLiterals template limit secret.toList.length) ++
        secret.toList.take (echoCut template limit secret.toList.length)) := by
  have hne : bytesOf secret ≠ [] := by
    intro hnil
    have hlength := h.length_bytes
    rw [hnil] at hlength
    exact h.ne_nil (List.length_eq_zero_iff.mp hlength.symm)
  have hpos : 0 < secret.toList.length := List.length_pos_iff.mpr h.ne_nil
  have hrest : ∀ byte ∈ (bytesOf secret).take (echoCut template limit secret.toList.length), byte.toNat < 0x80 :=
    fun byte hbyte => h.bytes_ascii byte (List.mem_of_mem_take hbyte)
  have htake : ∀ c ∈ secret.toList.take (echoCut template limit secret.toList.length), isShown c = true :=
    fun c hc => h.shown c (List.mem_of_mem_take hc)
  have hshort : (secret.toList.take (echoCut template limit secret.toList.length)).length < secret.toList.length := by
    rw [List.length_take]
    have hcut : echoCut template limit secret.toList.length < secret.toList.length := cutAt_lt hpos
    omega
  rw [sanitizeText, echo, take_intercalate, h.length_bytes]
  change trimText (replace secret.toList REDACTED ((decoded ((bytesOf secret).intercalate _ ++
    (bytesOf secret).take (echoCut template limit secret.toList.length))).filter isShown)) = _
  rw [decoded_intercalate h.bytes_ascii hne hrest, List.map_take, h.decoded_bytes, List.filter_append,
    filter_intercalate h.shown, List.filter_eq_self.mpr htake]
  exact congrArg trimText (replace_intercalate h.ne_nil (hforeign.shownLiterals h limit _) hshort)

theorem trimText_append {text tail : List Char} (hne : tail ≠ []) (h : ∀ c ∈ tail, isWhiteSpace c = false) :
    trimText (text ++ tail) = text.dropWhile isWhiteSpace ++ tail := by
  have hstart : (text ++ tail).dropWhile isWhiteSpace = text.dropWhile isWhiteSpace ++ tail := by
    rw [List.dropWhile_append]
    by_cases hempty : (text.dropWhile isWhiteSpace).isEmpty = true
    · obtain ⟨first, rest, rfl⟩ := List.exists_cons_of_ne_nil hne
      have hfirst : ¬ isWhiteSpace first = true := by simp [h first List.mem_cons_self]
      rw [if_pos hempty, List.dropWhile_cons_of_neg hfirst, List.isEmpty_iff.mp hempty, List.nil_append]
    · rw [if_neg hempty]
  rcases List.eq_nil_or_concat tail with hnil | ⟨init, last, rfl⟩
  · exact absurd hnil hne
  · have hlast : ¬ isWhiteSpace last = true := by simp [h last (by simp)]
    rw [trimText, hstart, List.concat_eq_append, ← List.append_assoc, List.reverse_append, List.reverse_singleton,
      List.singleton_append, List.dropWhile_cons_of_neg hlast, List.reverse_cons, List.reverse_reverse]

theorem boundedResponseDiagnostic_eq (body : List UInt8) (limit : Nat) :
    boundedResponseDiagnostic body limit secret = if sanitizeText
      (decoded (body.take limit)) secret ++ (if limit < body.length then " [truncated]".toList else []) = []
      then "provider returned an empty error body"
      else String.ofList (sanitizeText (decoded (body.take limit)) secret ++
        (if limit < body.length then " [truncated]".toList else [])) := by
  have htake : body.take (min body.length limit) = body.take limit := by
    rw [List.take_eq_take_min (i := limit), Nat.min_comm]
  simp only [boundedResponseDiagnostic, htake, decoded]
  exact if_congr Iff.rfl rfl rfl

/-- The credential is seen nowhere but in the marks and in what the transport says itself. -/
def Withheld (secret diagnostic : String) : Prop :=
  ∃ text ending, diagnostic = String.ofList (text ++ ending) ∧ Marked REDACTED secret.toList text ∧
    (ending = [] ∨ ending = " [truncated]".toList ∨ text = [] ∧ ending = "provider returned an empty error body".toList)

theorem Credential.marked_echo (h : Credential secret) (hforeign : Foreign secret template) (limit : Nat) :
    Marked REDACTED secret.toList
      (trimText (REDACTED.intercalate (shownLiterals template limit secret.toList.length))) := by
  have hwhole : Marked REDACTED secret.toList
    (REDACTED.intercalate (shownLiterals template limit secret.toList.length)) :=
    Marked.intercalate (hforeign.shownLiterals h limit secret.toList.length)
  have hopening : ∀ a ∈ REDACTED.head?, isWhiteSpace a = false := by
    intro a ha
    obtain rfl : '[' = a := Option.some.inj ha
    decide
  have hclosing : ∀ a ∈ REDACTED.reverse.head?, isWhiteSpace a = false := by
    intro a ha
    obtain rfl : ']' = a := Option.some.inj ha
    decide
  have hboth := ((hwhole.dropWhile hopening).reverse.dropWhile hclosing).reverse
  rw [List.reverse_reverse] at hboth
  exact hboth

theorem Credential.withheld (h : Credential secret) (hforeign : Foreign secret template) {limit : Nat}
    (hcut : echoCut template limit secret.toList.length = 0) :
    Withheld secret (boundedResponseDiagnostic (echo template secret) limit secret) := by
  have hmarked := h.marked_echo hforeign limit
  rw [boundedResponseDiagnostic_eq, sanitizeText_echo h hforeign, hcut, List.take_zero, List.append_nil]
  by_cases hempty : trimText (REDACTED.intercalate (shownLiterals template limit secret.toList.length)) ++
      (if limit < (echo template secret).length then " [truncated]".toList else []) = []
  · rw [if_pos hempty]
    exact ⟨[], _, rfl, .nil, .inr (.inr ⟨rfl, rfl⟩)⟩
  · rw [if_neg hempty]
    refine ⟨_, _, rfl, hmarked, ?_⟩
    split
    · exact .inr (.inl rfl)
    · exact .inl rfl

/-- A mark that shows a character of the credential goes on, and not as the note of the cut does. -/
theorem Credential.unmarked (h : Credential secret) {before after : List Char} {c : Char} (hc : c ∈ secret.toList)
    (hmark : REDACTED = before ++ c :: after) : ¬ after <+: " [truncated]".toList := by
  intro hafter
  cases after with
  | nil =>
    have hlast : REDACTED.getLast? = some c := by rw [hmark, List.getLast?_concat]
    have hbracket : c = ']' := Option.some.inj (hlast.symm.trans (by decide))
    exact h.unbracketed (hbracket ▸ hc)
  | cons next rest =>
    have hspace : next = ' ' := (List.cons_prefix_cons.mp hafter).1
    have hmem : ' ' ∈ REDACTED := by
      rw [hmark, ← hspace]
      simp
    exact absurd hmem (by decide)

theorem Credential.shown_cut (h : Credential secret) (hforeign : Foreign secret template) {limit : Nat}
    (hcut : echoCut template limit secret.toList.length ≠ 0) :
    ¬ Withheld secret (boundedResponseDiagnostic (echo template secret) limit secret) := by
  have hne : secret.toList.take (echoCut template limit secret.toList.length) ≠ [] := by
    intro hnil
    rcases List.take_eq_nil_iff.mp hnil with hzero | hempty
    · exact hcut hzero
    · exact h.ne_nil hempty
  have hlimit : limit < (echo template secret).length := by
    rw [echoCut, ← h.length_bytes] at hcut
    exact lt_length_of_cutAt hcut
  have hspace : ∀ c ∈ secret.toList.take (echoCut template limit secret.toList.length), isWhiteSpace c = false :=
    fun c hc => h.not_space c (List.mem_of_mem_take hc)
  obtain ⟨left, last, htail⟩ := (List.eq_nil_or_concat _).resolve_left hne
  rw [List.concat_eq_append] at htail
  have hlast : last ∈ secret.toList := List.mem_of_mem_take
    (htail ▸ List.mem_append_right left (List.mem_singleton_self last))
  rintro ⟨text, ending, hdiagnostic, hmarked, hending⟩
  rw [boundedResponseDiagnostic_eq, sanitizeText_echo h hforeign, trimText_append hne hspace, if_pos hlimit, htail,
    if_neg (by simp), String.ofList_inj, ← List.append_assoc] at hdiagnostic
  rcases hending with rfl | rfl | ⟨rfl, rfl⟩
  · rw [List.append_nil, List.append_assoc] at hdiagnostic
    obtain ⟨before, after, hmark, hafter⟩ := (hdiagnostic ▸ hmarked).within hlast
    exact h.unmarked hlast hmark hafter
  · obtain ⟨before, after, hmark, hafter⟩ := (List.append_cancel_right hdiagnostic ▸ hmarked).within hlast
    exact h.unmarked hlast hmark (hafter.trans (List.nil_prefix))
  · have hsuffix : " [truncated]".toList <:+ "provider returned an empty error body".toList := ⟨_, hdiagnostic⟩
    exact absurd hsuffix (by decide)

/-- Two credentials give the same diagnostic, and it shows nothing of the one or the other, just when the limit does
not fall inside of an echo. -/
theorem diagnostic_independent_iff {file₁ file₂ : SecretFile} {secret₁ secret₂ : String}
    (h₁ : readSecret file₁ = .ok secret₁) (h₂ : readSecret file₂ = .ok secret₂)
    (hlength : secret₁.length = secret₂.length)
    {template : List (List UInt8)} (hforeign₁ : Foreign secret₁ template) (hforeign₂ : Foreign secret₂ template)
    (limit : Nat) : boundedResponseDiagnostic (echo template secret₁) limit secret₁ =
        boundedResponseDiagnostic (echo template secret₂) limit secret₂ ∧
      Withheld secret₁ (boundedResponseDiagnostic (echo template secret₁) limit secret₁) ∧
      Withheld secret₂ (boundedResponseDiagnostic (echo template secret₂) limit secret₂) ↔
      echoCut template limit secret₁.length = 0 := by
  have hcredential₁ := credential_of_readSecret h₁
  have hcredential₂ := credential_of_readSecret h₂
  have hsize₁ : secret₁.toList.length = secret₁.length := String.length_toList
  have hsize₂ : secret₂.toList.length = secret₁.length := String.length_toList.trans hlength.symm
  constructor
  · rintro ⟨-, hwithheld, -⟩
    by_contra hcut
    rw [← hsize₁] at hcut
    exact hcredential₁.shown_cut hforeign₁ hcut hwithheld
  · intro hcut
    have hcut₁ : echoCut template limit secret₁.toList.length = 0 := by rw [hsize₁, hcut]
    have hcut₂ : echoCut template limit secret₂.toList.length = 0 := by rw [hsize₂, hcut]
    refine ⟨?_, hcredential₁.withheld hforeign₁ hcut₁, hcredential₂.withheld hforeign₂ hcut₂⟩
    have hbody : (echo template secret₁).length = (echo template secret₂).length :=
      length_intercalate (by rw [hcredential₁.length_bytes, hcredential₂.length_bytes, hsize₁, hsize₂]) template
    rw [boundedResponseDiagnostic_eq, boundedResponseDiagnostic_eq, sanitizeText_echo hcredential₁ hforeign₁,
      sanitizeText_echo hcredential₂ hforeign₂, hcut₁, hcut₂, hsize₁, hsize₂, hbody, List.take_zero, List.take_zero]

def secretFile (contents : List UInt8) : SecretFile := ⟨.ok ⟨false, true, 0o600, contents.length⟩, .ok contents⟩

def onesFile : SecretFile := secretFile (List.replicate 8 0x31)

def twosFile : SecretFile := secretFile (List.replicate 8 0x32)

def rejection : List (List UInt8) := [[0x72, 0x65, 0x6A, 0x65, 0x63, 0x74, 0x65, 0x64, 0x3A, 0x20], [0x2E]]

theorem diagnostic_independent_whole :
    boundedResponseDiagnostic (echo rejection "11111111") 64 "11111111" =
        boundedResponseDiagnostic (echo rejection "22222222") 64 "22222222" ∧
      Withheld "11111111" (boundedResponseDiagnostic (echo rejection "11111111") 64 "11111111") ∧
      Withheld "22222222" (boundedResponseDiagnostic (echo rejection "22222222") 64 "22222222") := by
  have hones : readSecret onesFile = .ok "11111111" := by decide
  have htwos : readSecret twosFile = .ok "22222222" := by decide
  have hforeign : ∀ secret ∈ ["11111111", "22222222"], Foreign secret rejection := by
    unfold Foreign
    decide +kernel
  refine (diagnostic_independent_iff hones htwos (by decide) (hforeign _ List.mem_cons_self)
    (hforeign _ (List.mem_cons_of_mem _ List.mem_cons_self)) 64).mpr ?_
  decide

/-- A limit of fourteen bytes cuts the echo: four bytes of the credential are not recognised, and the diagnostic
shows them. -/
theorem diagnostic_shows_cut_credential :
    readSecret onesFile = .ok "11111111" ∧ readSecret twosFile = .ok "22222222" ∧
    Foreign "11111111" rejection ∧ Foreign "22222222" rejection ∧
    boundedResponseDiagnostic (echo rejection "11111111") 14 "11111111" = "rejected: 1111 [truncated]" ∧
    boundedResponseDiagnostic (echo rejection "22222222") 14 "22222222" = "rejected: 2222 [truncated]" ∧
    boundedResponseDiagnostic (echo rejection "11111111") 14 "11111111" ≠
      boundedResponseDiagnostic (echo rejection "22222222") 14 "22222222" := by
  unfold Foreign
  decide +kernel

end secrets

end AlloyPort.Transport

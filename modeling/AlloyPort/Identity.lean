import AlloyPort.Library.Text

/-! Validated identities and content digests shared by the records. SHA-256 is a parameter: the
width of a digest is left open, since a collision-free function into 32 bytes does not exist. -/

namespace AlloyPort

/-- Unicode `White_Space`, the class that `str::trim` removes. -/
def isWhiteSpace (c : Char) : Bool :=
  let n := c.toNat
  (9 ≤ n && n ≤ 13) || n == 0x20 || n == 0x85 || n == 0xA0 || n == 0x1680 || (0x2000 ≤ n && n ≤ 0x200A) ||
    n == 0x2028 || n == 0x2029 || n == 0x202F || n == 0x205F || n == 0x3000

/-- The test `text.trim().is_empty()`. -/
def isBlank (text : String) : Bool :=
  text.toList.all isWhiteSpace

inductive IdKind where
  | attempt
  | assignment
  | task
  | candidate
  | searchRun
  | episode
  | turn
  | modelAttempt
  | toolOperation

structure ValidatedId (kind : IdKind) where
  text : String
  nonblank : isBlank text = false
  deriving DecidableEq

abbrev AttemptId := ValidatedId .attempt
abbrev AssignmentId := ValidatedId .assignment
abbrev TaskId := ValidatedId .task
abbrev CandidateId := ValidatedId .candidate
abbrev SearchRunId := ValidatedId .searchRun
abbrev EpisodeId := ValidatedId .episode
abbrev TurnId := ValidatedId .turn
abbrev ModelAttemptId := ValidatedId .modelAttempt
abbrev ToolOperationId := ValidatedId .toolOperation

instance {kind : IdKind} : ToString (ValidatedId kind) := ⟨ValidatedId.text⟩

def ValidatedId.tryFrom {kind : IdKind} (value : String) : Option (ValidatedId kind) :=
  if h : isBlank value = true then none else some ⟨value, by simpa using h⟩

theorem ValidatedId.tryFrom_text {kind : IdKind} {value : String} {id : ValidatedId kind}
    (h : ValidatedId.tryFrom value = some id) : id.text = value := by
  simp only [tryFrom] at h
  split at h
  · cases h
  · cases h
    rfl

theorem ValidatedId.ext_text {kind : IdKind} {a b : ValidatedId kind} (h : a.text = b.text) : a = b := by
  cases a
  cases b
  cases h
  rfl

structure Sha256Digest where
  bytes : List UInt8
  deriving DecidableEq

def Sha256Digest.hexadecimal (digest : Sha256Digest) : String :=
  String.ofList (digest.bytes.flatMap Text.hexByte)

instance : ToString Sha256Digest := ⟨fun digest => "sha256:" ++ digest.hexadecimal⟩

theorem Sha256Digest.toString_inj {a b : Sha256Digest} (h : toString a = toString b) : a = b := by
  have hh := congrArg String.toList h
  simp only [ToString.toString, hexadecimal, String.toList_append, String.toList_ofList] at hh
  have hb := Text.flatMap_hexByte_inj (List.append_cancel_left hh)
  cases a
  cases b
  cases hb
  rfl

inductive DigestParseError where
  | missingPrefix
  | wrongLength (length : Nat)
  | nonHexadecimal

def DigestParseError.display : DigestParseError → String
  | .missingPrefix => "digest must start with sha256:"
  | .wrongLength length => s!"SHA-256 hexadecimal length is {length}, expected 64"
  | .nonHexadecimal => "SHA-256 digest contains non-hex data"

def hexNibble (c : Char) : Option Nat :=
  if '0' ≤ c ∧ c ≤ '9' then some (c.toNat - '0'.toNat)
  else if 'a' ≤ c ∧ c ≤ 'f' then some (c.toNat - 'a'.toNat + 10)
  else if 'A' ≤ c ∧ c ≤ 'F' then some (c.toNat - 'A'.toNat + 10)
  else none

def hexPairs : List Nat → List UInt8
  | high :: low :: rest => UInt8.ofNat (high * 16 + low) :: hexPairs rest
  | _ => []

def Sha256Digest.fromStr (value : String) : Except DigestParseError Sha256Digest :=
  match "sha256:".toList.isPrefixOf? value.toList with
  | none => .error .missingPrefix
  | some hexadecimal =>
    if (String.ofList hexadecimal).utf8ByteSize ≠ 64 then
      .error (.wrongLength (String.ofList hexadecimal).utf8ByteSize)
    else match hexadecimal.mapM hexNibble with
    | none => .error .nonHexadecimal
    | some nibbles => .ok ⟨hexPairs nibbles⟩

theorem hexNibble_spec {c : Char} {n : Nat} (h : hexNibble c = some n) :
    n < 16 ∧ n.digitChar = c.toLower ∧ c.utf8Size = 1 := by
  have hsmall : c.toNat < 128 := by
    simp only [hexNibble] at h
    by_contra hc
    have hlarge : ∀ d : Char, d.toNat < 128 → ¬ c ≤ d := by
      intro d hd hle
      have : c.toNat ≤ d.toNat := hle
      omega
    simp [hlarge '9' (by decide), hlarge 'f' (by decide), hlarge 'F' (by decide)] at h
  have hh : ∀ x : Fin 128, ∀ n ∈ hexNibble (Char.ofNat x),
      n < 16 ∧ n.digitChar = (Char.ofNat x).toLower ∧ (Char.ofNat x).utf8Size = 1 := by decide +kernel
  have := hh ⟨c.toNat, hsmall⟩ n
  simp only [Char.ofNat_toNat] at this
  exact this h

theorem mapM_hexNibble {cs : List Char} {ns : List Nat} (h : cs.mapM hexNibble = some ns) :
    ns.length = (String.ofList cs).utf8ByteSize ∧ (∀ n ∈ ns, n < 16) ∧
      ns.map Nat.digitChar = cs.map Char.toLower := by
  induction cs generalizing ns with
  | nil =>
    cases h
    exact ⟨rfl, by simp, rfl⟩
  | cons c cs ih =>
    rw [List.mapM_cons] at h
    obtain ⟨n, hn, h⟩ := Option.bind_eq_some_iff.mp h
    obtain ⟨rest, hrest, h⟩ := Option.bind_eq_some_iff.mp h
    cases h
    obtain ⟨hlt, hc, hsize⟩ := hexNibble_spec hn
    obtain ⟨hlength, hall, hmap⟩ := ih hrest
    refine ⟨?_, ?_, ?_⟩
    · have hcons : String.ofList (c :: cs) = String.ofList [c] ++ String.ofList cs := by
        rw [← String.ofList_append, List.singleton_append]
      have hone : (String.ofList [c]).utf8ByteSize = 1 := by simpa using hsize
      rw [hcons, String.utf8ByteSize_append, ← hlength, hone, List.length_cons, Nat.add_comm]
    · simpa [hlt] using hall
    · simp [hc, hmap]

theorem flatMap_hexPairs {ns : List Nat} (heven : ns.length % 2 = 0) (h : ∀ n ∈ ns, n < 16) :
    (hexPairs ns).flatMap Text.hexByte = ns.map Nat.digitChar := by
  induction ns using hexPairs.induct with
  | case1 high low rest ih =>
    have hhigh := h high (by simp)
    have hlow := h low (by simp)
    have hrest := ih (by simp only [List.length_cons] at heven; omega) (fun n hn => h n (by simp [hn]))
    have hdiv : (high * 16 + low) % 256 / 16 = high := by omega
    have hmod : (high * 16 + low) % 16 = low := by omega
    simp [hexPairs, Text.hexByte, hdiv, hmod, hrest]
  | case2 ns hne =>
    cases ns with
    | nil => rfl
    | cons a ns =>
      cases ns with
      | nil => simp at heven
      | cons b ns => exact absurd rfl (hne a b ns)

variable {digest : Sha256Digest}

theorem Sha256Digest.fromStr_toLower {value : String}
    (h : Sha256Digest.fromStr value = .ok digest) : toString digest = value.toLower := by
  unfold Sha256Digest.fromStr at h
  split at h
  · cases h
  · rename_i hexadecimal hstart
    have hvalue := List.isPrefixOf?_eq_some_iff_append_eq.mp hstart
    split at h
    · cases h
    · rename_i hsize
      split at h
      · cases h
      · rename_i nibbles hnibbles
        cases h
        obtain ⟨hlength, hall, hmap⟩ := mapM_hexNibble hnibbles
        have hflat := flatMap_hexPairs (by omega) hall
        apply String.toList_inj.mp
        have hlower : "sha256:".toList.map Char.toLower = "sha256:".toList := by decide
        change _ = (value.map Char.toLower).toList
        simp only [ToString.toString, Sha256Digest.hexadecimal, String.toList_append, String.toList_ofList,
          String.toList_map, ← hvalue, List.map_append, hflat, hmap, hlower]

theorem hexNibble_digitChar {n : Nat} (h : n < 16) : hexNibble n.digitChar = some n := by
  have hh : ∀ x : Fin 16, hexNibble (Nat.digitChar x) = some x := by decide
  exact hh ⟨n, h⟩

theorem mapM_hexByte (bytes : List UInt8) :
    (bytes.flatMap Text.hexByte).mapM hexNibble = some (bytes.flatMap fun b => [b.toNat / 16, b.toNat % 16]) := by
  induction bytes with
  | nil => rfl
  | cons b bytes ih =>
    have hb := UInt8.toNat_lt b
    have hhigh := hexNibble_digitChar (n := b.toNat / 16) (by omega)
    have hlow := hexNibble_digitChar (n := b.toNat % 16) (by omega)
    simp [Text.hexByte, hhigh, hlow, ih]

theorem hexPairs_flatMap (bytes : List UInt8) :
    hexPairs (bytes.flatMap fun b => [b.toNat / 16, b.toNat % 16]) = bytes := by
  induction bytes with
  | nil => rfl
  | cons b bytes ih =>
    have hb : b.toNat / 16 * 16 + b.toNat % 16 = b.toNat := Nat.div_add_mod' _ _
    simp [hexPairs, ih, hb]

theorem Sha256Digest.fromStr_toString (h : digest.bytes.length = 32) :
    Sha256Digest.fromStr (toString digest) = .ok digest := by
  have hstart : "sha256:".toList.isPrefixOf? (toString digest).toList =
      some (digest.bytes.flatMap Text.hexByte) := by
    rw [List.isPrefixOf?_eq_some_iff_append_eq]
    simp [ToString.toString, Sha256Digest.hexadecimal]
  have hsize := (mapM_hexNibble (mapM_hexByte digest.bytes)).1
  have hlength : (digest.bytes.flatMap fun b => [b.toNat / 16, b.toNat % 16]).length = 64 := by
    simp [List.length_flatMap, h]
  unfold Sha256Digest.fromStr
  rw [hstart]
  simp only [← hsize, hlength, mapM_hexByte, hexPairs_flatMap]
  rfl

/-- The SHA-256 implementation the code links against. -/
class Sha256 where
  digestBytes : List UInt8 → Sha256Digest

def Sha256.CollisionFree [Sha256] : Prop := Function.Injective Sha256.digestBytes

def utf8 (text : String) : List UInt8 := text.toByteArray.data.toList

theorem utf8_inj {a b : String} (h : utf8 a = utf8 b) : a = b := by
  refine String.toByteArray_inj.mp ?_
  exact ByteArray.ext (Array.toList_inj.mp h)

@[reducible] def transparentSha256 : Sha256 := ⟨Sha256Digest.mk⟩

theorem transparentSha256_collisionFree : @Sha256.CollisionFree transparentSha256 := by
  intro a b h
  cases h
  rfl

end AlloyPort

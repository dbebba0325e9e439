import Mathlib.Algebra.BigOperators.Group.List.Basic
import Mathlib.Algebra.GroupWithZero.Nat

/-! Sizes of messages in the Protocol Buffers encoding. A scalar or a text at its default is left out,
and whatever has a length of its own is written behind that length. -/

namespace Protobuf

def varintLenFrom : Nat → Nat → Nat
  | 0, _ => 1
  | more + 1, value => if value < 128 then 1 else 1 + varintLenFrom more (value / 128)

/-- Seven bits go into a byte, and an unsigned 64-bit number into ten bytes at most. -/
def varintLen (value : Nat) : Nat := varintLenFrom 9 value

def keyLen (tag : Nat) : Nat := varintLen (8 * tag)

def uintLen (tag value : Nat) : Nat := if value = 0 then 0 else keyLen tag + varintLen value

def enumLen (tag : Nat) (value : Int) : Nat := uintLen tag (value % 2 ^ 64).toNat

def messageLen (tag size : Nat) : Nat := keyLen tag + varintLen size + size

def textLen (tag : Nat) (text : String) : Nat :=
  if text.utf8ByteSize = 0 then 0 else messageLen tag text.utf8ByteSize

def bytesLen (tag : Nat) (bytes : List UInt8) : Nat := if bytes = [] then 0 else messageLen tag bytes.length

def repeatedLen {M : Type} (tag : Nat) (size : M → Nat) (messages : List M) : Nat :=
  (messages.map fun message => messageLen tag (size message)).sum

section encoding

def varintFrom : Nat → Nat → List UInt8
  | 0, value => [UInt8.ofNat value]
  | more + 1, value =>
    if value < 128 then [UInt8.ofNat value] else UInt8.ofNat (128 + value % 128) :: varintFrom more (value / 128)

def varint (value : Nat) : List UInt8 := varintFrom 9 value

def message (tag : Nat) (body : List UInt8) : List UInt8 := varint (8 * tag + 2) ++ varint body.length ++ body

def bytesField (tag : Nat) (bytes : List UInt8) : List UInt8 := if bytes = [] then [] else message tag bytes

theorem length_varintFrom (more value : Nat) : (varintFrom more value).length = varintLenFrom more value := by
  induction more generalizing value with
  | zero => rfl
  | succ more ih =>
    by_cases hlast : value < 128
    · simp [varintFrom, varintLenFrom, hlast]
    · simp [varintFrom, varintLenFrom, hlast, ih, Nat.add_comm]

theorem length_message {tag : Nat} (htag : tag < 16) (body : List UInt8) :
    (message tag body).length = messageLen tag body.length := by
  have hkey : keyLen tag = 1 := if_pos (by omega)
  have hwire : varintLenFrom 9 (8 * tag + 2) = 1 := if_pos (by omega)
  simp [message, messageLen, varint, varintLen, length_varintFrom, hkey, hwire, Nat.add_assoc]

theorem length_bytesField {tag : Nat} (htag : tag < 16) (bytes : List UInt8) :
    (bytesField tag bytes).length = bytesLen tag bytes := by
  by_cases hempty : bytes = []
  · simp [bytesField, bytesLen, hempty]
  · simp [bytesField, bytesLen, hempty, length_message htag]

end encoding

theorem varintLen_pos (value : Nat) : 0 < varintLen value := by
  unfold varintLen varintLenFrom
  split
  · exact Nat.one_pos
  · omega

theorem varintLenFrom_le (more value : Nat) : varintLenFrom more value ≤ more + 1 := by
  induction more generalizing value with
  | zero => exact Nat.le_refl _
  | succ more ih =>
    have hrest := ih (value / 128)
    unfold varintLenFrom
    split
    · omega
    · omega

theorem uintLen_le {tag value : Nat} (htag : tag < 16) : uintLen tag value ≤ 11 := by
  have hkey : keyLen tag = 1 := if_pos (by omega)
  have hvalue : varintLen value ≤ 10 := varintLenFrom_le 9 value
  unfold uintLen
  split
  · omega
  · omega

theorem varintLen_le_three {value : Nat} (h : value < 2 ^ 21) : varintLen value ≤ 3 := by
  unfold varintLen
  iterate 3
    unfold varintLenFrom
    split
    · omega
  omega

theorem three_le_varintLen {value : Nat} (h : 2 ^ 14 ≤ value) : 3 ≤ varintLen value := by
  unfold varintLen varintLenFrom varintLenFrom varintLenFrom
  split
  · omega
  · split
    · omega
    · split
      · omega
      · omega

theorem messageLen_le_iff {tag size limit : Nat} (htag : tag < 16) (hlow : 2 ^ 14 + 4 ≤ limit)
    (hhigh : limit < 2 ^ 21) : messageLen tag size ≤ limit ↔ size + 4 ≤ limit := by
  have hkey : keyLen tag = 1 := if_pos (by omega)
  unfold messageLen
  constructor
  · intro h
    by_contra hlarge
    have hlength := @three_le_varintLen size (by omega)
    omega
  · intro h
    have hlength := @varintLen_le_three size (by omega)
    omega

variable {M N : Type} {tag : Nat} {size : M → Nat} {messages : List M}

theorem two_add_le_messageLen (tag size : Nat) : 2 + size ≤ messageLen tag size := by
  have hkey := varintLen_pos (8 * tag)
  have hlength := varintLen_pos size
  unfold messageLen keyLen
  omega

theorem three_le_textLen {text : String} (h : text.utf8ByteSize ≠ 0) : 3 ≤ textLen tag text := by
  have hlen := two_add_le_messageLen tag text.utf8ByteSize
  unfold textLen
  rw [if_neg h]
  omega

theorem mul_length_le_repeatedLen {least : Nat} (h : ∀ message ∈ messages, least ≤ size message) :
    (2 + least) * messages.length ≤ repeatedLen tag size messages := by
  induction messages with
  | nil => exact Nat.le_refl _
  | cons message rest ih =>
    have hrest := ih fun other hother => h other (List.mem_cons_of_mem _ hother)
    have hfirst := h message List.mem_cons_self
    have hlen := two_add_le_messageLen tag (size message)
    simp only [repeatedLen, List.map_cons, List.sum_cons, List.length_cons, Nat.mul_add] at hrest ⊢
    omega

theorem repeatedLen_map {f : N → M} {sources : List N} :
    repeatedLen tag size (sources.map f) = repeatedLen tag (fun source => size (f source)) sources := by
  simp [repeatedLen, Function.comp_def]

end Protobuf

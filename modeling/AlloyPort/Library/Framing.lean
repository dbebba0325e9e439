import Mathlib.Algebra.Group.Nat.Defs

/-! Big-endian lengths, and texts that are framed by them. -/

namespace Framing

/-- The last `width` bytes of a number, the highest first. -/
def beBytes : Nat → Nat → List UInt8
  | 0, _ => []
  | width + 1, n => UInt8.ofNat (n / 256 ^ width) :: beBytes width (n % 256 ^ width)

theorem beBytes_length (width n : Nat) : (beBytes width n).length = width := by
  induction width generalizing n with
  | zero => rfl
  | succ width ih => rw [beBytes, List.length_cons, ih]

theorem ofNat_inj {a b : Nat} (ha : a < 256) (hb : b < 256) (h : UInt8.ofNat a = UInt8.ofNat b) : a = b := by
  have htoNat := congrArg UInt8.toNat h
  rwa [UInt8.toNat_ofNat_of_lt' ha, UInt8.toNat_ofNat_of_lt' hb] at htoNat

theorem div_lt_256 {width n : Nat} (h : n < 256 ^ (width + 1)) : n / 256 ^ width < 256 := by
  rw [Nat.div_lt_iff_lt_mul (Nat.pow_pos (by decide)), Nat.mul_comm, ← Nat.pow_succ]
  exact h

theorem beBytes_inj {width m n : Nat} (hm : m < 256 ^ width) (hn : n < 256 ^ width)
    (h : beBytes width m = beBytes width n) : m = n := by
  induction width generalizing m n with
  | zero => omega
  | succ width ih =>
    rw [beBytes, beBytes, List.cons.injEq] at h
    have hpos : 0 < 256 ^ width := Nat.pow_pos (by decide)
    have hhigh := ofNat_inj (div_lt_256 hm) (div_lt_256 hn) h.1
    have hlow := ih (Nat.mod_lt m hpos) (Nat.mod_lt n hpos) h.2
    rw [← Nat.div_add_mod m (256 ^ width), ← Nat.div_add_mod n (256 ^ width), hhigh, hlow]

def frame (bytes : List UInt8) : List UInt8 := beBytes 8 bytes.length ++ bytes

def Fits (bytes : List UInt8) : Prop := bytes.length < 2 ^ 56

variable {a b x y : List UInt8} {l l' : List (List UInt8)}

theorem frame_append_inj_of_lt (ha : a.length < 256 ^ 8) (hb : b.length < 256 ^ 8)
    (h : frame a ++ x = frame b ++ y) : a = b ∧ x = y := by
  simp only [frame, List.append_assoc] at h
  have hsame : (beBytes 8 a.length).length = (beBytes 8 b.length).length := by
    rw [beBytes_length, beBytes_length]
  obtain ⟨hlength, hrest⟩ := List.append_inj h hsame
  exact List.append_inj hrest (beBytes_inj ha hb hlength)

theorem frame_append_inj (ha : Fits a) (hb : Fits b) (h : frame a ++ x = frame b ++ y) : a = b ∧ x = y := by
  have hlt : ∀ {c : List UInt8}, Fits c → c.length < 256 ^ 8 := by
    intro c hc
    unfold Fits at hc
    omega
  exact frame_append_inj_of_lt (hlt ha) (hlt hb) h

/-- A text whose whole length can be counted in eight bytes. -/
def Addressable (bytes : List UInt8) : Prop := bytes.length < 256 ^ 8

theorem frame_length (bytes : List UInt8) : (frame bytes).length = 8 + bytes.length := by
  rw [frame, List.length_append, beBytes_length]

/-- The first frame of an addressable text can be taken off. -/
theorem frame_split (hsize : Addressable (frame a ++ x)) (h : frame a ++ x = frame b ++ y) :
    a = b ∧ x = y ∧ Addressable x := by
  have hboth := congrArg List.length h
  unfold Addressable at hsize ⊢
  simp only [List.length_append, frame_length] at hsize hboth
  obtain ⟨rfl, rfl⟩ := frame_append_inj_of_lt (by omega) (by omega) h
  exact ⟨rfl, rfl, by omega⟩

def counted (texts : List (List UInt8)) : List UInt8 := beBytes 8 texts.length ++ texts.flatMap frame

theorem length_le_frames (texts : List (List UInt8)) : texts.length ≤ (texts.flatMap frame).length := by
  induction texts with
  | nil => exact Nat.le_refl 0
  | cons text texts ih =>
    rw [List.flatMap_cons, List.length_append, List.length_cons, frame_length]
    omega

theorem frames_split (hsize : Addressable (l.flatMap frame ++ x))
    (hlength : l.length = l'.length) (h : l.flatMap frame ++ x = l'.flatMap frame ++ y) :
    l = l' ∧ x = y ∧ Addressable x := by
  induction l generalizing l' with
  | nil =>
    obtain rfl := List.length_eq_zero_iff.mp hlength.symm
    exact ⟨rfl, h, hsize⟩
  | cons text texts ih =>
    obtain ⟨text', texts', rfl⟩ := List.exists_cons_of_length_eq_add_one hlength.symm
    simp only [List.flatMap_cons, List.append_assoc] at h hsize
    obtain ⟨rfl, hrest, hsize⟩ := frame_split hsize h
    obtain ⟨rfl, hbehind⟩ := ih hsize (Nat.succ.inj hlength) hrest
    exact ⟨rfl, hbehind⟩

theorem counted_split (hsize : Addressable (counted l ++ x))
    (h : counted l ++ x = counted l' ++ y) : l = l' ∧ x = y ∧ Addressable x := by
  simp only [counted, List.append_assoc] at h hsize
  have hboth := congrArg List.length h
  unfold Addressable at hsize
  simp only [List.length_append, beBytes_length] at hsize hboth
  have hle := length_le_frames l
  have hle' := length_le_frames l'
  have hsame : (beBytes 8 l.length).length = (beBytes 8 l'.length).length := by
    rw [beBytes_length, beBytes_length]
  obtain ⟨hcount, hrest⟩ := List.append_inj h hsame
  have hlength := beBytes_inj (by omega) (by omega) hcount
  refine frames_split ?_ hlength hrest
  unfold Addressable
  rw [List.length_append]
  omega

theorem frame_head {bytes : List UInt8} (h : Fits bytes) : ∃ rest, frame bytes = 0 :: rest := by
  unfold Fits at h
  have hzero : bytes.length / 256 ^ 7 = 0 := Nat.div_eq_of_lt (by omega)
  refine ⟨beBytes 7 (bytes.length % 256 ^ 7) ++ bytes, ?_⟩
  rw [frame, beBytes, hzero]
  rfl

/-- Bytes that do not begin with a frame. -/
def Ends (bytes : List UInt8) : Prop := ∀ text rest, bytes ≠ frame text ++ rest

theorem ends_of_head {byte : UInt8} {rest : List UInt8} (hbyte : byte ≠ 0) (h : Fits (byte :: rest)) :
    Ends (byte :: rest) := by
  intro text behind heq
  have hlength := congrArg List.length heq
  rw [List.length_append, frame_length] at hlength
  have hfits : Fits text := by
    unfold Fits at h ⊢
    omega
  obtain ⟨tail, htail⟩ := frame_head hfits
  rw [htail, List.cons_append] at heq
  exact hbyte (List.cons.inj heq).1

/-- Framed texts can be told from what ends them. -/
theorem frames_end_inj (hsize : Addressable (l.flatMap frame ++ x))
    (hx : Ends x) (hy : Ends y) (h : l.flatMap frame ++ x = l'.flatMap frame ++ y) : l = l' ∧ x = y := by
  induction l generalizing l' with
  | nil =>
    cases l' with
    | nil => exact ⟨rfl, h⟩
    | cons text' texts' =>
      rw [List.flatMap_cons, List.append_assoc] at h
      exact absurd h (hx text' _)
  | cons text texts ih =>
    cases l' with
    | nil =>
      rw [List.flatMap_cons, List.append_assoc] at h
      exact absurd h.symm (hy text _)
    | cons text' texts' =>
      simp only [List.flatMap_cons, List.append_assoc] at h hsize
      obtain ⟨rfl, hrest, hsize⟩ := frame_split hsize h
      obtain ⟨rfl, hend⟩ := ih hsize hrest
      exact ⟨rfl, hend⟩

/-- A byte of a number is the same one after the bytes above it have been taken off. -/
theorem ofNat_mod_div {width i : Nat} (hi : i < width) (n : Nat) :
    UInt8.ofNat (n % 256 ^ width / 256 ^ i) = UInt8.ofNat (n / 256 ^ i) := by
  obtain ⟨k, rfl⟩ := Nat.exists_eq_add_of_lt hi
  have hpow : 256 ^ (i + k + 1) = 256 ^ i * 256 ^ (k + 1) := by rw [← Nat.pow_add, Nat.add_assoc]
  have hdvd : 256 ∣ 256 ^ (k + 1) := ⟨256 ^ k, by rw [Nat.pow_succ, Nat.mul_comm]⟩
  apply UInt8.toNat_inj.mp
  rw [UInt8.toNat_ofNat', UInt8.toNat_ofNat', hpow, Nat.mod_mul_right_div_self]
  exact Nat.mod_mod_of_dvd _ hdvd

theorem beBytes_eq_map (width n : Nat) :
    beBytes width n = (List.range width).reverse.map fun i => UInt8.ofNat (n / 256 ^ i) := by
  induction width generalizing n with
  | zero => rfl
  | succ width ih =>
    rw [beBytes, ih, List.range_succ, List.reverse_append, List.reverse_singleton, List.singleton_append, List.map_cons]
    congr 1
    refine List.map_congr_left fun i hi => ofNat_mod_div ?_ n
    exact List.mem_range.mp (List.mem_reverse.mp hi)

end Framing

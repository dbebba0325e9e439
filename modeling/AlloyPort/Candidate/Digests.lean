import AlloyPort.Identity
import AlloyPort.Library.Framing

/-! Digests that stand one after another, and a hash under which the ones of known texts are short. -/

namespace AlloyPort

theorem hexadecimal_inj {a b : Sha256Digest} (h : a.hexadecimal = b.hexadecimal) : a = b := by
  apply Sha256Digest.toString_inj
  show "sha256:" ++ a.hexadecimal = "sha256:" ++ b.hexadecimal
  rw [h]

/-- No digest is the beginning of another, all of them being of one length. -/
def DigestsDelimited [Sha256] : Prop :=
  ∀ a b x y, (Sha256.digestBytes a).bytes ++ x = (Sha256.digestBytes b).bytes ++ y →
    Sha256.digestBytes a = Sha256.digestBytes b

def lengthMark (n : Nat) : List UInt8 := List.replicate (n / 200) 255 ++ [UInt8.ofNat (n % 200)]

theorem replicate_append_inj {j k : Nat} {p q : UInt8} {x y : List UInt8} (hp : p ≠ 255) (hq : q ≠ 255)
    (h : List.replicate j 255 ++ p :: x = List.replicate k 255 ++ q :: y) : j = k ∧ p = q ∧ x = y := by
  induction j generalizing k with
  | zero => cases k with
    | zero =>
      rw [List.replicate_zero, List.nil_append, List.nil_append, List.cons.injEq] at h
      exact ⟨rfl, h⟩
    | succ k =>
      rw [List.replicate_zero, List.nil_append, List.replicate_succ, List.cons_append, List.cons.injEq] at h
      exact absurd h.1 hp
  | succ j ih => cases k with
    | zero =>
      rw [List.replicate_zero, List.nil_append, List.replicate_succ, List.cons_append, List.cons.injEq] at h
      exact absurd h.1.symm hq
    | succ k =>
      rw [List.replicate_succ, List.replicate_succ, List.cons_append, List.cons_append, List.cons.injEq] at h
      obtain ⟨hcount, hrest⟩ := ih h.2
      exact ⟨by rw [hcount], hrest⟩

theorem lengthMark_append_inj {m n : Nat} {x y : List UInt8} (h : lengthMark m ++ x = lengthMark n ++ y) :
    m = n ∧ x = y := by
  have hsmall : ∀ n, UInt8.ofNat (n % 200) ≠ 255 := by
    intro n heq
    have hn : n % 200 < 200 := Nat.mod_lt n (by decide)
    have htoNat := congrArg UInt8.toNat heq
    rw [UInt8.toNat_ofNat_of_lt' (show n % 200 < UInt8.size from Nat.lt_trans hn (by decide))] at htoNat
    rw [show n % 200 = 255 from htoNat] at hn
    exact absurd hn (by decide)
  simp only [lengthMark, List.append_assoc, List.cons_append, List.nil_append] at h
  obtain ⟨hcount, hlast, hrest⟩ := replicate_append_inj (hsmall m) (hsmall n) h
  have hm : m % 200 < 256 := Nat.lt_trans (Nat.mod_lt m (by decide)) (by decide)
  have hn : n % 200 < 256 := Nat.lt_trans (Nat.mod_lt n (by decide)) (by decide)
  have hmod := Framing.ofNat_inj hm hn hlast
  exact ⟨by omega, hrest⟩

def tableBytes (known : List (List UInt8)) (bytes : List UInt8) : List UInt8 :=
  if bytes ∈ known then [UInt8.ofNat (known.idxOf bytes)] else 255 :: lengthMark bytes.length ++ bytes

@[reducible] def tableSha256 (known : List (List UInt8)) : Sha256 := ⟨fun bytes => ⟨tableBytes known bytes⟩⟩

variable {known : List (List UInt8)}

theorem tableBytes_append_inj {a b x y : List UInt8} (hfew : known.length ≤ 200)
    (h : tableBytes known a ++ x = tableBytes known b ++ y) : a = b := by
  have hsmall : ∀ bytes ∈ known, known.idxOf bytes < 200 := by
    intro bytes hmem
    have hlt := List.idxOf_lt_length_of_mem hmem
    omega
  have hplace : ∀ bytes ∈ known, UInt8.ofNat (known.idxOf bytes) ≠ 255 := by
    intro bytes hmem heq
    have hlt := hsmall bytes hmem
    have hbyte := Framing.ofNat_inj (by omega) (by decide) (heq.trans (show (255 : UInt8) = UInt8.ofNat 255 from rfl))
    omega
  unfold tableBytes at h
  by_cases ha : a ∈ known
  · by_cases hb : b ∈ known
    · rw [if_pos ha, if_pos hb, List.cons_append, List.cons_append, List.cons.injEq] at h
      have hla := hsmall a ha
      have hlb := hsmall b hb
      have hindex := Framing.ofNat_inj (by omega) (by omega) h.1
      exact (List.idxOf_inj ha).mp hindex
    · rw [if_pos ha, if_neg hb] at h
      simp only [List.cons_append, List.cons.injEq] at h
      exact absurd h.1 (hplace a ha)
  · by_cases hb : b ∈ known
    · rw [if_neg ha, if_pos hb] at h
      simp only [List.cons_append, List.cons.injEq] at h
      exact absurd h.1.symm (hplace b hb)
    · simp only [if_neg ha, if_neg hb, List.cons_append, List.cons.injEq, List.append_assoc] at h
      obtain ⟨hlength, hrest⟩ := lengthMark_append_inj h.2
      exact (List.append_inj hrest hlength).1

theorem tableSha256_collisionFree (hfew : known.length ≤ 200) : @Sha256.CollisionFree (tableSha256 known) := by
  intro a b h
  refine tableBytes_append_inj (x := []) (y := []) hfew ?_
  rw [List.append_nil, List.append_nil]
  exact Sha256Digest.mk.inj h

theorem tableSha256_delimited (hfew : known.length ≤ 200) : @DigestsDelimited (tableSha256 known) := by
  intro a b x y h
  rw [tableBytes_append_inj hfew h]

end AlloyPort

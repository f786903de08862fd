import Mathlib.Data.List.Basic
set_option autoImplicit false

/-!
Byte strings that begin with a length: four bytes, the most significant first,
then that many bytes of a head, then everything else.
-/

namespace Cinder.Streams

abbrev Octets := List UInt8

def bigEndian (n : Nat) : Octets :=
  [.ofNat (n/16777216), .ofNat (n/65536), .ofNat (n/256), .ofNat n]

def readBigEndian : Octets → Option Nat
  | [a, b, c, d] => some (a.toNat*16777216 + b.toNat*65536 + c.toNat*256 + d.toNat)
  | _ => none

@[simp] theorem length_bigEndian (n : Nat) : (bigEndian n).length = 4 := rfl

theorem readBigEndian_bigEndian {n : Nat} (h : n < 4294967296) :
    readBigEndian (bigEndian n) = some n := by
  have hvalue : n/16777216%256*16777216 + n/65536%256*65536 + n/256%256*256 + n%256 = n := by
    omega
  simp only [readBigEndian, bigEndian, UInt8.toNat_ofNat', Nat.reducePow, hvalue]

theorem readBigEndian_eq_some {bytes : Octets} {n : Nat} (h : readBigEndian bytes = some n) :
    n < 4294967296 ∧ bytes = bigEndian n := by
  unfold readBigEndian at h
  split at h
  case h_2 => cases h
  case h_1 a b c d =>
    have ha := a.toNat_lt
    have hb := b.toNat_lt
    have hc := c.toNat_lt
    have hd := d.toNat_lt
    cases h
    refine ⟨by omega, ?_⟩
    have hbyte : ∀ (x : UInt8) (m : Nat), m%256 = x.toNat → x = .ofNat m := fun x m hm => by
      rw [← UInt8.toNat_inj, UInt8.toNat_ofNat']
      exact hm.symm
    simp only [bigEndian, List.cons.injEq, and_true]
    exact ⟨hbyte _ _ (by omega), hbyte _ _ (by omega), hbyte _ _ (by omega), hbyte _ _ (by omega)⟩

def prefixed (head body : Octets) : Octets := bigEndian head.length ++ head ++ body

section Prefixed
variable (head body : Octets)

theorem prefixed_eq : prefixed head body = bigEndian head.length ++ (head ++ body) :=
  List.append_assoc ..

@[simp] theorem take_prefixed : (prefixed head body).take 4 = bigEndian head.length := by
  rw [prefixed_eq, List.take_left' (length_bigEndian _)]

@[simp] theorem length_prefixed : (prefixed head body).length = 4 + head.length + body.length := by
  simp [prefixed, Nat.add_assoc]

theorem drop_four_prefixed : (prefixed head body).drop 4 = head ++ body := by
  rw [prefixed_eq, List.drop_left' (length_bigEndian _)]

@[simp] theorem head_prefixed : ((prefixed head body).drop 4).take head.length = head := by
  rw [drop_four_prefixed, List.take_left' rfl]

@[simp] theorem body_prefixed : (prefixed head body).drop (4 + head.length) = body := by
  rw [← List.drop_drop, drop_four_prefixed, List.drop_left' rfl]

end Prefixed

theorem eq_prefixed {bytes : Octets} {n : Nat} (hread : readBigEndian (bytes.take 4) = some n)
    (hlong : 4 + n ≤ bytes.length) :
    bytes = prefixed ((bytes.drop 4).take n) (bytes.drop (4 + n)) := by
  have hlen : ((bytes.drop 4).take n).length = n := by
    rw [List.length_take, List.length_drop]
    omega
  rw [prefixed_eq, hlen, ← (readBigEndian_eq_some hread).2, ← List.drop_drop,
    List.take_append_drop, List.take_append_drop]

end Cinder.Streams

import Afpfs.Lib.Wire
import Mathlib.Tactic.Ring

/-!
# Numbers and their bytes

What the bytes of a big endian number are worth by their place, from the first on.

* `ofBE_append`: the bytes in front are worth more by the width of those behind.
* `ofBE_inj`, `toBE_ofBE`: bytes of one length are given by their value.
* `high_part`, `mod_high_part`: what a division by the width of the lower bytes leaves.
-/

set_option autoImplicit false

namespace Afpfs
namespace Wire

theorem ofBE_cons (c : UInt8) (bytes : List UInt8) :
    ofBE (c :: bytes) = c.toNat * 256 ^ bytes.length + ofBE bytes := by
  induction bytes using List.reverseRecOn with
  | nil => rfl
  | append_singleton bytes b ih =>
    rw [← List.cons_append, ofBE_concat, ofBE_concat, ih, List.length_append, List.length_singleton,
      Nat.pow_succ]
    ring

theorem ofBE_append (l m : List UInt8) : ofBE (l ++ m) = ofBE l * 256 ^ m.length + ofBE m := by
  induction l with
  | nil =>
    have hnil : ofBE [] = 0 := rfl
    rw [List.nil_append, hnil, Nat.zero_mul, Nat.zero_add]
  | cons c l ih =>
    rw [List.cons_append, ofBE_cons, ofBE_cons, ih, List.length_append, Nat.pow_add]
    ring

theorem ofBE_lt (bytes : List UInt8) : ofBE bytes < 256 ^ bytes.length := by
  induction bytes with
  | nil => exact Nat.one_pos
  | cons c bytes ih =>
    have hc : c.toNat < 256 := c.toNat_lt
    rw [ofBE_cons, List.length_cons, Nat.pow_succ']
    calc c.toNat * 256 ^ bytes.length + ofBE bytes
        < (c.toNat + 1) * 256 ^ bytes.length := by rw [Nat.add_one_mul]; omega
      _ ≤ 256 * 256 ^ bytes.length := Nat.mul_le_mul_right _ hc

theorem high_part {n P : ℕ} (q : ℕ) (hn : n < P) : (q * P + n) / P = q := by
  rw [Nat.mul_comm, Nat.mul_add_div (by omega), Nat.div_eq_of_lt hn, Nat.add_zero]

theorem mod_high_part {n P : ℕ} (q : ℕ) (hn : n < P) :
    (q * P + n) % (P * 256) = q % 256 * P + n := by
  rw [Nat.mod_mul, high_part q hn, Nat.mul_add_mod_of_lt hn, Nat.mul_comm P, Nat.add_comm]

/-- Bytes of one length are given by their value. -/
theorem ofBE_inj {l m : List UInt8} (hlen : l.length = m.length) : ofBE l = ofBE m ↔ l = m := by
  refine ⟨fun h => ?_, congrArg ofBE⟩
  induction l generalizing m with
  | nil => exact (List.length_eq_zero_iff.mp hlen.symm).symm
  | cons c l ih =>
    obtain ⟨d, m, rfl⟩ := List.exists_cons_of_length_eq_add_one hlen.symm
    have hlen : l.length = m.length := Nat.succ.inj hlen
    have hl := ofBE_lt l
    have hm := ofBE_lt m
    rw [ofBE_cons, ofBE_cons, hlen] at h
    rw [hlen] at hl
    have hhead : c.toNat = d.toNat := by rw [← high_part c.toNat hl, h, high_part d.toNat hm]
    rw [UInt8.toNat_inj.mp hhead, ih hlen (by rw [hhead] at h; omega)]

theorem toBE_ofBE {w : ℕ} {l : List UInt8} (hlen : l.length = w) : toBE w (ofBE l) = l := by
  have hvalue : ofBE (toBE w (ofBE l)) = ofBE l := ofBE_toBE_of_lt (hlen ▸ ofBE_lt l)
  exact (ofBE_inj ((length_toBE w _).trans hlen.symm)).mp hvalue

end Wire
end Afpfs

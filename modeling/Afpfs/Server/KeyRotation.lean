import Afpfs.Lib.ByteShift
import Afpfs.Server.Login

/-!
# The rotation of the key

`randnum2_login()` rotates the key by shifting each of its bytes in place.  The bit that moves to
the byte in front is taken with `>> 7` from a signed character, so that it comes with copies of
itself that fill all of the byte.

* `rotateLoop_eq`: the loop in place is `rotate`.
* `carries_agree_iff`: between which two bytes the copies do no harm.
* `rotateLoop_rotates_iff`: the keys that are rotated by one bit.
-/

set_option autoImplicit false

namespace Afpfs
namespace Server
namespace Login

open Wire
open ByteShift

/-- The loop over `key_buffer`, from index `i` on with `n` bytes behind it, and the assignment
after the loop. -/
def rotateFrom (carry : UInt8) (key : List UInt8) (i : ℕ) : ℕ → List UInt8
  | 0 => key.set i (key.getD i 0 <<< 1 ||| carry)
  | n + 1 =>
    rotateFrom carry (key.set i (key.getD i 0 <<< 1 ||| signBits (key.getD (i + 1) 0))) (i + 1) n

/-- The rotation of `key_buffer[8]` in `randnum2_login()`. -/
def rotateLoop (key : List UInt8) : List UInt8 := rotateFrom (signBits (key.getD 0 0)) key 0 7

/-- A byte with its top bit set stands behind one that has all of its other bits set. -/
def SignsFit (key : List UInt8) : Prop :=
  ∀ p ∈ neighbours key, p.2 < 128 ∨ p.1 &&& 127 = 127

/-! ## The loop -/

theorem rotate_eq_rotated (key : List UInt8) : rotate key = rotated signBits key := by
  rw [rotated_eq_map, rotate, neighbours, List.zip, List.map_zipWith]

/-- What stands in front of the loop stays, and it takes every sign before it is shifted. -/
theorem rotateFrom_append (carry c : UInt8) (front rest : List UInt8) :
    rotateFrom carry (front ++ c :: rest) front.length rest.length =
      front ++ shifted signBits carry (c :: rest) := by
  induction rest generalizing c front with
  | nil => simp [rotateFrom, shifted]
  | cons next rest ih =>
    have hfront : (front ++ [c <<< 1 ||| signBits next]).length = front.length + 1 := by simp
    have hnext := ih next (front ++ [c <<< 1 ||| signBits next])
    rw [hfront, List.append_assoc, List.append_assoc] at hnext
    have hset : (front ++ c :: next :: rest).set front.length (c <<< 1 ||| signBits next) =
        front ++ ([c <<< 1 ||| signBits next] ++ next :: rest) := by simp
    have hbyte : (front ++ c :: next :: rest).getD front.length 0 = c := by simp
    have hbehind : (front ++ c :: next :: rest).getD (front.length + 1) 0 = next := by simp
    rw [List.length_cons, rotateFrom, hbyte, hbehind, hset, hnext]
    rfl

/-- The loop in place is the rotation of the login. -/
theorem rotateLoop_eq {key : List UInt8} (hlen : key.length = 8) : rotateLoop key = rotate key := by
  obtain ⟨c, rest, rfl⟩ := List.exists_cons_of_length_eq_add_one hlen
  have hloop := rotateFrom_append (signBits c) c [] rest
  rw [Nat.succ.inj hlen] at hloop
  rw [rotate_eq_rotated]
  exact hloop

/-! ## The carry -/

theorem shiftLeft_or_eq_iff : ∀ n < 256,
    (UInt8.ofNat n <<< (1 : UInt8) ||| 255 = UInt8.ofNat n <<< (1 : UInt8) ||| 1 ↔
      UInt8.ofNat n &&& 127 = 127) := by
  decide +kernel

/-- **The copies of the sign do no harm** where there is no sign, and where all the bits they
overwrite are set. -/
theorem carries_agree_iff (c next : UInt8) :
    c <<< 1 ||| signBits next = c <<< 1 ||| topBit next ↔ next < 128 ∨ c &&& 127 = 127 := by
  have htop : (topBit next).toNat = next.toNat / 128 := toNat_topBit next
  have hlt : next.toNat < 256 := next.toNat_lt
  by_cases hnext : 128 ≤ next
  · have hle : 128 ≤ next.toNat := UInt8.le_iff_toNat_le.mp hnext
    have hone : topBit next = 1 := UInt8.toNat_inj.mp (by rw [htop]; change _ = 1; omega)
    have hiff := shiftLeft_or_eq_iff c.toNat c.toNat_lt
    rw [UInt8.ofNat_toNat] at hiff
    rw [signBits, if_pos hnext, hone, hiff]
    exact ⟨Or.inr, fun h => h.resolve_left (UInt8.not_lt.mpr hnext)⟩
  · have hsmall : next < 128 := UInt8.not_le.mp hnext
    have hnat : next.toNat < 128 := UInt8.lt_iff_toNat_lt.mp hsmall
    have hzero : topBit next = 0 := UInt8.toNat_inj.mp (by rw [htop]; change _ = 0; omega)
    rw [signBits, if_neg hnext, hzero]
    exact ⟨fun _ => Or.inl hsmall, fun _ => rfl⟩

/-! ## The keys -/

/-- **The keys that are rotated** by one bit, as a number of 64 bits, are those in which every byte
with its top bit set stands behind one with all other bits set. -/
theorem rotateLoop_rotates_iff (key : List UInt8) (hlen : key.length = 8) :
    BitVec.ofNat 64 (ofBE (rotateLoop key)) = (BitVec.ofNat 64 (ofBE key)).rotateLeft 1 ↔
      SignsFit key := by
  have hlenRotated (carry : UInt8 → UInt8) : (rotated carry key).length = 8 :=
    (length_shifted _ _ _).trans hlen
  have hlt : ofBE (rotated signBits key) < 2 ^ 64 := by
    have hlt := ofBE_lt (rotated signBits key)
    rw [hlenRotated] at hlt
    exact hlt
  have hfits : ofBE (rotated signBits key) % 2 ^ 64 = ofBE (rotated signBits key) :=
    Nat.mod_eq_of_lt hlt
  rw [rotateLoop_eq hlen, rotate_eq_rotated, ← BitVec.toNat_inj, BitVec.toNat_ofNat, hfits,
    ← ofBE_rotated hlen, ofBE_inj ((hlenRotated _).trans (hlenRotated _).symm),
    rotated_eq_rotated_iff]
  exact forall₂_congr fun p _ => carries_agree_iff p.1 p.2

/-- A password of letters is rotated. -/
theorem rotateLoop_rotates_letters :
    ([112, 97, 115, 115, 119, 111, 114, 100] : List UInt8).length = 8 ∧
    (BitVec.ofNat 64 (ofBE (rotateLoop [112, 97, 115, 115, 119, 111, 114, 100])) =
        (BitVec.ofNat 64 (ofBE [112, 97, 115, 115, 119, 111, 114, 100])).rotateLeft 1 ↔
      SignsFit [112, 97, 115, 115, 119, 111, 114, 100]) :=
  ⟨rfl, rotateLoop_rotates_iff [112, 97, 115, 115, 119, 111, 114, 100] rfl⟩

/-- The key of the password "é" is not: its second byte fills the first with ones. -/
theorem rotateLoop_of_accent :
    rotateLoop [195, 169, 0, 0, 0, 0, 0, 0] = [255, 82, 0, 0, 0, 0, 0, 255] ∧
    BitVec.ofNat 64 (ofBE (rotateLoop [195, 169, 0, 0, 0, 0, 0, 0])) ≠
      (BitVec.ofNat 64 (ofBE [195, 169, 0, 0, 0, 0, 0, 0])).rotateLeft 1 := by
  decide

end Login
end Server
end Afpfs

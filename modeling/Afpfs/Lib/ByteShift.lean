import Afpfs.Lib.Bytes

/-!
# Shifting a number byte by byte

A big endian number is shifted to the left by one bit when each byte is, with the top bit of the
next byte put in at the bottom.

* `ofBE_shifted`: the value of the shifted bytes, whatever is put in at the end.
* `ofBE_rotated`: eight bytes that get their own top bit at the end are rotated.
* `shifted_eq_shifted_iff`: two ways to carry agree when they agree between all neighbours.
-/

set_option autoImplicit false

namespace Afpfs
namespace ByteShift

open Wire

/-- The bytes, each shifted to the left by one bit: `carry` of the next byte is put in, and `last`
in the last byte. -/
def shifted (carry : UInt8 → UInt8) (last : UInt8) : List UInt8 → List UInt8
  | [] => []
  | [c] => [c <<< 1 ||| last]
  | c :: next :: rest => (c <<< 1 ||| carry next) :: shifted carry last (next :: rest)

/-- The top bit of a byte. -/
def topBit (c : UInt8) : UInt8 := c >>> 7

/-! ## One byte -/

theorem toNat_topBit (c : UInt8) : (topBit c).toNat = c.toNat / 128 := by
  rw [topBit, UInt8.toNat_shiftRight, Nat.shiftRight_eq_div_pow]
  rfl

/-- A byte shifted to the left, with one bit put in. -/
theorem toNat_shiftLeft_or {c bit : UInt8} (hbit : bit.toNat < 2) :
    (c <<< 1 ||| bit).toNat = 2 * c.toNat % 256 + bit.toNat := by
  have hshift : (c <<< 1).toNat = (c.toNat % 128) <<< 1 := by
    rw [UInt8.toNat_shiftLeft, Nat.shiftLeft_eq, Nat.shiftLeft_eq]
    change c.toNat * 2 % 256 = c.toNat % 128 * 2
    omega
  rw [UInt8.toNat_or, hshift, ← Nat.shiftLeft_add_eq_or_of_lt (by simpa using hbit),
    Nat.shiftLeft_eq]
  omega

/-! ## All bytes -/

theorem length_shifted (carry : UInt8 → UInt8) (last : UInt8) (l : List UInt8) :
    (shifted carry last l).length = l.length := by
  induction l with
  | nil => rfl
  | cons c l ih =>
    cases l with
    | nil => rfl
    | cons next rest => rw [shifted, List.length_cons, ih]; rfl

/-- The top bit of the first byte is what does not fit when the number is doubled. -/
theorem toNat_topBit_eq {bit : ℕ} (hbit : bit < 2) (c : UInt8) (rest : List UInt8) :
    (topBit c).toNat = (2 * ofBE (c :: rest) + bit) / 256 ^ (rest.length + 1) := by
  have hrest := ofBE_lt rest
  have hhalf : 2 * ofBE (c :: rest) + bit = c.toNat * (2 * 256 ^ rest.length) +
      (2 * ofBE rest + bit) := by
    rw [ofBE_cons]
    ring
  have hpow : 256 ^ (rest.length + 1) = 2 * 256 ^ rest.length * 128 := by
    rw [Nat.pow_succ]
    ring
  rw [toNat_topBit, hpow, ← Nat.div_div_eq_div_mul, hhalf, high_part _ (by omega)]

/-- **The value of the shifted bytes** is twice the value, with the last bit added, as far as it
fits. -/
theorem ofBE_shifted {last : UInt8} (hlast : last.toNat < 2) (l : List UInt8) :
    ofBE (shifted topBit last l) = (2 * ofBE l + last.toNat) % 256 ^ l.length := by
  induction l with
  | nil => exact (Nat.mod_one _).symm
  | cons c l ih =>
    cases l with
    | nil =>
      have hc : ofBE [c] = c.toNat := by simp [ofBE]
      have hshift : ofBE (shifted topBit last [c]) = (c <<< 1 ||| last).toNat := by
        simp [shifted, ofBE]
      rw [hshift, toNat_shiftLeft_or hlast, hc, List.length_singleton, Nat.pow_one]
      omega
    | cons next rest =>
      have htop : (topBit next).toNat < 2 := by
        have hnext : next.toNat < 256 := next.toNat_lt
        rw [toNat_topBit]
        omega
      -- doubling the tail leaves the top bit of its first byte over
      have htail := Nat.div_add_mod (2 * ofBE (next :: rest) + last.toNat)
        (256 ^ (rest.length + 1))
      rw [← toNat_topBit_eq hlast] at htail
      have hlow := Nat.mod_lt (2 * ofBE (next :: rest) + last.toNat)
        (Nat.pow_pos (by decide) : 0 < 256 ^ (rest.length + 1))
      have hdigit : (2 * c.toNat + (topBit next).toNat) % 256 =
          2 * c.toNat % 256 + (topBit next).toNat := by omega
      have hsum : 2 * ofBE (c :: next :: rest) + last.toNat =
          (2 * c.toNat + (topBit next).toNat) * 256 ^ (rest.length + 1) +
            (2 * ofBE (next :: rest) + last.toNat) % 256 ^ (rest.length + 1) := by
        rw [ofBE_cons c, List.length_cons, Nat.add_mul, Nat.add_assoc,
          Nat.mul_comm (topBit next).toNat, htail]
        ring
      have hpow : 256 ^ (c :: next :: rest).length = 256 ^ (rest.length + 1) * 256 :=
        Nat.pow_succ _ _
      rw [shifted, ofBE_cons, ih, length_shifted, toNat_shiftLeft_or htop, hsum, hpow,
        mod_high_part _ hlow, hdigit, List.length_cons]

/-! ## Rotation -/

/-- The bytes, each shifted to the left, with the carry of the first in the last byte. -/
def rotated (carry : UInt8 → UInt8) (l : List UInt8) : List UInt8 :=
  shifted carry (carry (l.headD 0)) l

/-- **Eight bytes are rotated** as the 64 bits they are. -/
theorem ofBE_rotated {l : List UInt8} (hlen : l.length = 8) :
    ofBE (rotated topBit l) = ((BitVec.ofNat 64 (ofBE l)).rotateLeft 1).toNat := by
  obtain ⟨c, rest, rfl⟩ := List.exists_cons_of_length_eq_add_one hlen
  have hrest : rest.length = 7 := Nat.succ.inj hlen
  have hlt := ofBE_lt (c :: rest)
  have htop := @toNat_topBit_eq 0 (by decide) c rest
  rw [hlen] at hlt
  rw [hrest, Nat.add_zero] at htop
  have hbit : (topBit c).toNat < 2 := by omega
  have hdouble : ofBE (c :: rest) <<< 1 % 2 ^ 64 = (ofBE (c :: rest) % 2 ^ 63) <<< 1 := by
    rw [Nat.shiftLeft_eq, Nat.shiftLeft_eq]
    omega
  have htopBit : ofBE (c :: rest) >>> 63 = (topBit c).toNat := by
    rw [Nat.shiftRight_eq_div_pow]
    omega
  have hvalue : ofBE (c :: rest) % 2 ^ 64 = ofBE (c :: rest) := Nat.mod_eq_of_lt hlt
  rw [rotated, List.headD_cons, ofBE_shifted hbit, hlen, BitVec.toNat_rotateLeft,
    BitVec.toNat_ofNat, hvalue]
  change _ = ofBE (c :: rest) <<< 1 % 2 ^ 64 ||| ofBE (c :: rest) >>> 63
  rw [hdouble, htopBit, ← Nat.shiftLeft_add_eq_or_of_lt (by omega), Nat.shiftLeft_eq]
  omega

/-- The bytes that stand next to each other, the last in front of the first. -/
def neighbours (l : List UInt8) : List (UInt8 × UInt8) := l.zip (l.tail ++ l.take 1)

theorem shifted_eq_map (carry : UInt8 → UInt8) (x : UInt8) (l : List UInt8) :
    shifted carry (carry x) l =
      (l.zip (l.tail ++ [x])).map fun p : UInt8 × UInt8 => p.1 <<< 1 ||| carry p.2 := by
  induction l with
  | nil => rfl
  | cons c l ih =>
    cases l with
    | nil => rfl
    | cons next rest => rw [shifted, ih]; rfl

theorem rotated_eq_map (carry : UInt8 → UInt8) (l : List UInt8) :
    rotated carry l = (neighbours l).map fun p : UInt8 × UInt8 => p.1 <<< 1 ||| carry p.2 := by
  cases l with
  | nil => rfl
  | cons c rest => exact shifted_eq_map carry c (c :: rest)

/-- **Two ways to carry agree** when they do between all neighbours. -/
theorem rotated_eq_rotated_iff (f g : UInt8 → UInt8) (l : List UInt8) :
    rotated f l = rotated g l ↔
      ∀ p ∈ neighbours l, p.1 <<< 1 ||| f p.2 = p.1 <<< 1 ||| g p.2 := by
  rw [rotated_eq_map, rotated_eq_map, List.map_inj_left]

end ByteShift
end Afpfs

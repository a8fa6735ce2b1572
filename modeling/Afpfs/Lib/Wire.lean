import Mathlib.Algebra.Order.Group.Nat
import Mathlib.Data.List.Infix

/-!
# Fields of a message

Messages are lists of bytes, and their numbers are big endian.  `toBE` and `ofBE` write and read a
number of a given width.

A block of optional fields is a sequence: each field is there or not, and a cursor moves over those
that are.  `put` is how one field is written and `field` how it is read: it takes the bytes of the
field from the front of what is left and hands them to `store`.

* `ofBE_toBE`: a number that fits comes back.
* `field_put`: reading a field in front of anything stores its bytes and leaves the rest.
-/

set_option autoImplicit false

namespace Afpfs
namespace Wire

/-! ## Numbers -/

/-- The `w` bytes of a number, the most significant first.  What does not fit is dropped. -/
def toBE : ℕ → ℕ → List UInt8
  | 0, _ => []
  | w + 1, n => toBE w (n / 256) ++ [UInt8.ofNat n]

/-- The number with these bytes. -/
def ofBE (bytes : List UInt8) : ℕ := bytes.foldl (fun n b => 256 * n + b.toNat) 0

@[simp] theorem length_toBE (w n : ℕ) : (toBE w n).length = w := by
  induction w generalizing n with
  | zero => rfl
  | succ w ih => rw [toBE, List.length_append, ih, List.length_singleton]

theorem ofBE_concat (bytes : List UInt8) (b : UInt8) :
    ofBE (bytes ++ [b]) = 256 * ofBE bytes + b.toNat := by
  rw [ofBE, List.foldl_append, List.foldl_cons, List.foldl_nil]
  rfl

/-- **Reading what was written** gives the number, as far as it fits. -/
theorem ofBE_toBE (w n : ℕ) : ofBE (toBE w n) = n % 256 ^ w := by
  induction w generalizing n with
  | zero => rw [toBE, Nat.pow_zero, Nat.mod_one]; rfl
  | succ w ih =>
    have hbyte : (UInt8.ofNat n).toNat = n % 256 := UInt8.toNat_ofNat'
    rw [toBE, ofBE_concat, ih, hbyte, Nat.pow_succ', Nat.mod_mul, Nat.add_comm]

theorem ofBE_toBE_of_lt {w n : ℕ} (h : n < 256 ^ w) : ofBE (toBE w n) = n := by
  rw [ofBE_toBE, Nat.mod_eq_of_lt h]

theorem uint16_toBE (x : UInt16) : UInt16.ofNat (ofBE (toBE 2 x.toNat)) = x := by
  rw [ofBE_toBE_of_lt x.toNat_lt, UInt16.ofNat_toNat]

theorem uint32_toBE (x : UInt32) : UInt32.ofNat (ofBE (toBE 4 x.toNat)) = x := by
  rw [ofBE_toBE_of_lt x.toNat_lt, UInt32.ofNat_toNat]

theorem uint64_toBE (x : UInt64) : UInt64.ofNat (ofBE (toBE 8 x.toNat)) = x := by
  rw [ofBE_toBE_of_lt x.toNat_lt, UInt64.ofNat_toNat]

/-! ## Optional fields -/

variable {σ : Type*}

/-- The bytes of a field, if it is there. -/
def put (present : Bool) (bytes : List UInt8) : List UInt8 := if present then bytes else []

/-- Read a field of `width` bytes, if it is there, and move the cursor over it.  `none` is a field
that is not all there, or one that cannot be stored. -/
def field (present : Bool) (width : ℕ) (store : σ → List UInt8 → Option σ) :
    σ × List UInt8 → Option (σ × List UInt8)
  | (s, p) =>
    if present then
      if width ≤ p.length then (store s (p.take width)).map fun s => (s, p.drop width) else none
    else some (s, p)

/-- Move the cursor over a field that nothing is read of. -/
def skip (present : Bool) (width : ℕ) : σ × List UInt8 → σ × List UInt8
  | (s, p) => if present then (s, p.drop width) else (s, p)

/-- Store the value of a field that can always be stored. -/
def storing {α : Type*} (set : σ → α → σ) (dec : List UInt8 → α) : σ → List UInt8 → Option σ :=
  fun s bytes => some (set s (dec bytes))

theorem length_put (present : Bool) (bytes : List UInt8) :
    (put present bytes).length = if present then bytes.length else 0 := by
  cases present <;> rfl

/-- **A field is read as it was written**, and the cursor is behind it. -/
theorem field_put {present : Bool} {width : ℕ} {store : σ → List UInt8 → Option σ} {s s' : σ}
    {bytes : List UInt8} (rest : List UInt8) (hwidth : bytes.length = width)
    (hstore : present = true → store s bytes = some s') :
    field present width store (s, put present bytes ++ rest) =
      some (if present then s' else s, rest) := by
  cases present with
  | false => rfl
  | true =>
    subst hwidth
    have hle : bytes.length ≤ (bytes ++ rest).length := by
      rw [List.length_append]
      exact Nat.le_add_right ..
    simp only [field, put, if_true, if_pos hle, List.take_left, List.drop_left, hstore rfl,
      Option.map_some]

/-- The same for a field with a setter: what the record holds there is the value if the field is
there, and what it was if not. -/
theorem field_set {α : Type*} (get : σ → α) (set : σ → α → σ) {present : Bool} {width : ℕ}
    {store : σ → List UInt8 → Option σ} {s : σ} {bytes : List UInt8} (x : α) (rest : List UInt8)
    (hset : set s (get s) = s) (hwidth : bytes.length = width)
    (hstore : present = true → store s bytes = some (set s x)) :
    field present width store (s, put present bytes ++ rest) =
      some (set s (if present then x else get s), rest) := by
  rw [field_put rest hwidth hstore]
  cases present with
  | false => simp only [Bool.false_eq_true, if_false, hset]
  | true => rfl

theorem field_storing {α : Type*} (get : σ → α) {set : σ → α → σ} {dec : List UInt8 → α}
    {present : Bool} {width : ℕ} {s : σ} {bytes : List UInt8} (x : α) (rest : List UInt8)
    (hset : set s (get s) = s) (hwidth : bytes.length = width) (hdec : dec bytes = x) :
    field present width (storing set dec) (s, put present bytes ++ rest) =
      some (set s (if present then x else get s), rest) :=
  field_set get set x rest hset hwidth fun _ => by rw [storing, hdec]

theorem skip_put {present : Bool} {width : ℕ} {s : σ} {bytes : List UInt8} (rest : List UInt8)
    (hwidth : bytes.length = width) : skip present width (s, put present bytes ++ rest) = (s, rest) := by
  cases present with
  | false => rfl
  | true =>
    subst hwidth
    simp only [skip, put, if_true, List.drop_left]

/-! ## More bytes -/

/-- A field that is read is read the same when there is more behind it. -/
theorem field_prefix {present : Bool} {width : ℕ} {store store' : σ → List UInt8 → Option σ}
    {s s' : σ} {p p' q : List UInt8} (hpq : p <+: q)
    (hstore : ∀ bytes s', store s bytes = some s' → store' s bytes = some s')
    (h : field present width store (s, p) = some (s', p')) :
    ∃ q', field present width store' (s, q) = some (s', q') ∧ p' <+: q' := by
  cases present with
  | false =>
    obtain ⟨rfl, rfl⟩ := Prod.mk.inj (Option.some.inj h)
    exact ⟨q, rfl, hpq⟩
  | true =>
    obtain ⟨rest, rfl⟩ := hpq
    simp only [field, if_true] at h ⊢
    by_cases hwidth : width ≤ p.length
    · rw [if_pos hwidth] at h
      obtain ⟨s₁, hs₁, heq⟩ := Option.map_eq_some_iff.mp h
      obtain ⟨rfl, rfl⟩ := Prod.mk.inj heq
      refine ⟨p.drop width ++ rest, ?_, List.prefix_append _ _⟩
      rw [if_pos (by rw [List.length_append]; omega), List.take_append_of_le_length hwidth,
        List.drop_append_of_le_length hwidth, hstore _ _ hs₁]
      rfl
    · rw [if_neg hwidth] at h
      cases h

end Wire
end Afpfs

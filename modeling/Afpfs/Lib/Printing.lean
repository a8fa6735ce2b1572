import Afpfs.Lib.Memory
import Mathlib.Algebra.Order.Ring.Int

/-!
# Printing into a buffer

A text that is printed piece by piece, each with `snprintf()` to the end of the one before.
`snprintf()` answers the number of bytes that the piece has, whether or not they fit, so the
position may run past the end of the buffer; the size that remains is converted to a `size_t`.

The buffer is the memory behind an address, and what every call is given is recorded.

* `inside_callsFrom_iff`: the calls stay inside of the buffer exactly if the pieces before the last
  fit.
* `isString_prints`: pieces that fit are a string behind what was there.
-/

set_option autoImplicit false

namespace Afpfs
namespace Printing

open Memory

/-- What a call of `snprintf()` is given. -/
structure Call where
  position : ℕ
  size : ℕ

/-- A buffer, and the calls that were made to print there. -/
structure Text where
  memory : ℕ → UInt8
  calls : List Call

/-- The conversion of an `int` to `size_t`. -/
def sizeT (n : ℤ) : ℕ := (n % 2 ^ 64).toNat

/-- `memset()` of the start of a buffer to 0. -/
def Text.memset (t : Text) (size : ℤ) : Text :=
  { t with memory := fun i => if i < sizeT size then 0 else t.memory i }

/-- `snprintf()`: as much of the piece as fits in front of a terminator. -/
def Text.snprintf (t : Text) (position : ℕ) (size : ℤ) (s : List UInt8) : Text where
  memory :=
    if sizeT size = 0 then t.memory else store t.memory position (s.take (sizeT size - 1) ++ [0])
  calls := t.calls ++ [⟨position, sizeT size⟩]

/-- A buffer with the position where the next piece is printed. -/
structure Printer where
  text : Text
  pos : ℕ

/-- Print a piece, in a buffer of some length. -/
def Printer.print (len : ℤ) (p : Printer) (s : List UInt8) : Printer where
  text := p.text.snprintf p.pos (len - p.pos) s
  pos := p.pos + s.length

/-- Print pieces, one behind the other. -/
def Printer.prints (len : ℤ) (p : Printer) (pieces : List (List UInt8)) : Printer :=
  pieces.foldl (Printer.print len) p

/-- The calls that print pieces from a position on. -/
def callsFrom (len : ℤ) : ℕ → List (List UInt8) → List Call
  | _, [] => []
  | pos, s :: pieces => ⟨pos, sizeT (len - pos)⟩ :: callsFrom len (pos + s.length) pieces

/-- No call is given a position behind the end of the buffer, or more than there is room for. -/
def Inside (room : ℕ) (calls : List Call) : Prop :=
  ∀ c ∈ calls, c.position ≤ room ∧ c.size ≤ room - c.position

/-- The string at the start of a buffer. -/
structure IsString (m : ℕ → UInt8) (s : List UInt8) : Prop where
  bytes : load m 0 s.length = s
  terminator : m s.length = 0
  noNul : 0 ∉ s

/-! ## Pieces -/

section Pieces

variable {len : ℤ} {p : Printer} {room pos : ℕ} {pieces : List (List UInt8)} {s : List UInt8}

@[simp] theorem prints_nil : p.prints len [] = p := rfl

theorem prints_cons : p.prints len (s :: pieces) = (p.print len s).prints len pieces := rfl

theorem prints_singleton : p.prints len [s] = p.print len s := rfl

theorem prints_append (l r : List (List UInt8)) :
    p.prints len (l ++ r) = (p.prints len l).prints len r := List.foldl_append

/-- A loop that prints one piece each time. -/
theorem foldl_print {α : Type*} (piece : α → List UInt8) (l : List α) :
    l.foldl (fun p a => p.print len (piece a)) p = p.prints len (l.map piece) :=
  List.foldl_map.symm

theorem pos_prints : (p.prints len pieces).pos = p.pos + pieces.flatten.length := by
  induction pieces generalizing p with
  | nil => rfl
  | cons s pieces ih =>
    rw [prints_cons, ih, List.flatten_cons, List.length_append, ← Nat.add_assoc]
    rfl

theorem calls_prints :
    (p.prints len pieces).text.calls = p.text.calls ++ callsFrom len p.pos pieces := by
  induction pieces generalizing p with
  | nil => rw [callsFrom, List.append_nil, prints_nil]
  | cons s pieces ih =>
    rw [prints_cons, ih, callsFrom, List.append_cons]
    rfl

theorem inside_append {l r : List Call} :
    Inside room (l ++ r) ↔ Inside room l ∧ Inside room r := List.forall_mem_append

theorem inside_nil : Inside room [] := fun _ hc => absurd hc List.not_mem_nil

theorem inside_cons {c : Call} {l : List Call} :
    Inside room (c :: l) ↔ (c.position ≤ room ∧ c.size ≤ room - c.position) ∧ Inside room l :=
  List.forall_mem_cons

theorem sizeT_natCast {n : ℕ} (h : n < 2 ^ 64) : sizeT n = n := by
  rw [sizeT]
  omega

theorem sizeT_sub {n : ℕ} (hpos : pos ≤ n) (h : n < 2 ^ 64) : sizeT ((n : ℤ) - pos) = n - pos := by
  rw [← Int.natCast_sub hpos, sizeT_natCast (Nat.lt_of_le_of_lt (Nat.sub_le _ _) h)]

/-- **The calls stay inside** if all pieces before the last fit, and only then: the last call is
given their end for a position. -/
theorem inside_callsFrom_iff {n : ℕ} (hlen : n < 2 ^ 64) (hpos : pos ≤ n) :
    Inside n (callsFrom n pos pieces) ↔ pos + pieces.dropLast.flatten.length ≤ n := by
  induction pieces generalizing pos with
  | nil => exact iff_of_true inside_nil hpos
  | cons s pieces ih =>
    rw [callsFrom, inside_cons, sizeT_sub hpos hlen]
    refine (and_iff_right ⟨hpos, Nat.le_refl _⟩).trans ?_
    cases pieces with
    | nil => exact iff_of_true inside_nil hpos
    | cons s' pieces =>
      rw [List.dropLast_cons_of_ne_nil (List.cons_ne_nil _ _), List.flatten_cons,
        List.length_append, ← Nat.add_assoc]
      by_cases hnext : pos + s.length ≤ n
      · exact ih hnext
      · refine iff_of_false (fun h => hnext ?_) (by omega)
        exact (h _ List.mem_cons_self).1

/-- The calls stay inside of a larger buffer too. -/
theorem Inside.mono {room' : ℕ} {calls : List Call} (h : Inside room calls) (hle : room ≤ room') :
    Inside room' calls := by
  intro c hc
  obtain ⟨hposition, hsize⟩ := h c hc
  omega

theorem inside_callsFrom {n : ℕ} (hlen : n < 2 ^ 64) (hfits : pos + pieces.flatten.length ≤ n) :
    Inside n (callsFrom n pos pieces) := by
  refine (inside_callsFrom_iff hlen (by omega)).mpr (Nat.le_trans ?_ hfits)
  obtain ⟨last, hlast⟩ := List.dropLast_prefix pieces
  have hlength := congrArg (fun l => l.flatten.length) hlast
  simp only [List.flatten_append, List.length_append] at hlength
  omega

end Pieces

/-! ## What is in the buffer -/

section Contents

variable {p : Printer} {n : ℕ} {pieces : List (List UInt8)} {s s' : List UInt8} {m : ℕ → UInt8}

/-- A piece that fits. -/
theorem print_of_fits (hlen : n < 2 ^ 64) (hfits : p.pos + s.length < n) :
    (p.print n s).text.memory = store p.text.memory p.pos (s ++ [0]) := by
  have hsize : sizeT ((n : ℤ) - p.pos) = n - p.pos := sizeT_sub (by omega) hlen
  rw [Printer.print, Text.snprintf]
  simp only [hsize]
  rw [if_neg (by omega), List.take_of_length_le (by omega)]

/-- **Pieces that fit** are behind one another, with a terminator behind them. -/
theorem memory_prints (hlen : n < 2 ^ 64) (hfits : p.pos + pieces.flatten.length < n)
    (hend : p.text.memory p.pos = 0) :
    load (p.prints n pieces).text.memory 0 (p.pos + pieces.flatten.length) =
        load p.text.memory 0 p.pos ++ pieces.flatten ∧
      (p.prints n pieces).text.memory (p.pos + pieces.flatten.length) = 0 := by
  induction pieces generalizing p with
  | nil => exact ⟨(List.append_nil _).symm, hend⟩
  | cons s pieces ih =>
    rw [List.flatten_cons, List.length_append, ← Nat.add_assoc] at hfits ⊢
    have hmemory := print_of_fits hlen (Nat.lt_of_le_of_lt (Nat.le_add_right _ _) hfits)
    have hterminator : (p.print n s).text.memory (p.print n s).pos = 0 := by
      rw [hmemory, ← store_store]
      exact (getElem?_load _ (Nat.lt_succ_self 0)).symm.trans
        (congrArg (·[0]?) (load_store _ _ [0])) |> Option.some.inj
    obtain ⟨hload, hzero⟩ := ih hfits hterminator
    refine ⟨?_, hzero⟩
    have hfront : load (p.print n s).text.memory 0 (p.pos + s.length) =
        load p.text.memory 0 p.pos ++ s := by
      rw [hmemory, ← store_store, load_store_of_le _ _ (by omega), load_store_append]
    rw [← List.append_assoc, ← hfront]
    exact hload

/-- **There is one string** at the start of a buffer. -/
theorem IsString.unique (h : IsString m s) (h' : IsString m s') : s = s' := by
  have hle : ∀ {l r : List UInt8}, IsString m l → IsString m r → l.length ≤ r.length := by
    intro l r hl hr
    by_contra hlt
    -- the terminator of the shorter one would be a byte of the longer one
    have hget : l[r.length]? = some (m (0 + r.length)) := by
      rw [← hl.bytes]
      exact getElem?_load m (Nat.lt_of_not_le hlt)
    rw [Nat.zero_add, hr.terminator] at hget
    exact hl.noNul (List.mem_of_getElem? hget)
  rw [← h.bytes, ← h'.bytes, Nat.le_antisymm (hle h h') (hle h' h)]

/-- **Pieces that fit into a cleared buffer** are the string there. -/
theorem isString_prints {t : Text} (hlen : n < 2 ^ 64) (hfits : pieces.flatten.length < n)
    (hnul : 0 ∉ pieces.flatten) :
    IsString (Printer.prints n ⟨t.memset n, 0⟩ pieces).text.memory pieces.flatten := by
  have hclear : (t.memset n).memory 0 = 0 := by
    refine if_pos ?_
    rw [sizeT_natCast hlen]
    omega
  obtain ⟨hload, hzero⟩ := @memory_prints ⟨t.memset n, 0⟩ n pieces hlen (by simpa using hfits) hclear
  simp only [Nat.zero_add, load_zero, List.nil_append] at hload hzero
  exact ⟨hload, hzero, hnul⟩

end Contents

end Printing
end Afpfs

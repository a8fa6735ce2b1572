import Mathlib.Data.List.Basic
import Mathlib.Data.Nat.Notation

/-!
# Files as lists

The contents of a file are a list.  `pread` takes a range out of it, and `pwrite` puts one in: what
is behind it stays, and a gap in front of it is filled.

* `pread_eq_of_length_le`: a read that comes to the end has all that there is.
* `pwrite_append`: two writes, one behind the other, are one.
-/

set_option autoImplicit false

namespace Afpfs
namespace File

variable {α : Type*}

/-- The elements from `offset` on, `size` of them at most. -/
def pread (content : List α) (offset size : ℕ) : List α := (content.drop offset).take size

@[simp] theorem pread_zero (content : List α) (offset : ℕ) : pread content offset 0 = [] :=
  List.take_zero

theorem length_pread (content : List α) (offset size : ℕ) :
    (pread content offset size).length = min size (content.length - offset) := by
  rw [pread, List.length_take, List.length_drop]

/-- A read for as many elements as there are. -/
theorem pread_length (content : List α) (offset size : ℕ) :
    pread content offset (pread content offset size).length = pread content offset size := by
  rw [length_pread, pread, pread, ← List.length_drop, List.take_eq_take_iff]
  omega

/-- A read that comes to the end has all that there is from its start on. -/
theorem pread_eq_of_length_le {content : List α} {offset size n : ℕ}
    (h : content.length ≤ offset + size) (hn : size ≤ n) :
    pread content offset size = pread content offset n := by
  have hlen : (content.drop offset).length ≤ size := by
    rw [List.length_drop]
    omega
  rw [pread, pread, List.take_of_length_le hlen,
    List.take_of_length_le (Nat.le_trans hlen hn)]

variable [Inhabited α]

/-- The contents up to `offset`, with a gap filled. -/
def upTo (content : List α) (offset : ℕ) : List α :=
  content.take offset ++ List.replicate (offset - content.length) default

/-- The elements are put in from `offset` on. -/
def pwrite (content : List α) (offset : ℕ) (data : List α) : List α :=
  if data = [] then content
  else upTo content offset ++ data ++ content.drop (offset + data.length)

@[simp] theorem length_upTo (content : List α) (offset : ℕ) :
    (upTo content offset).length = offset := by
  rw [upTo, List.length_append, List.length_take, List.length_replicate]
  omega

@[simp] theorem pwrite_nil (content : List α) (offset : ℕ) : pwrite content offset [] = content :=
  if_pos rfl

theorem pwrite_of_ne_nil (content : List α) (offset : ℕ) {data : List α} (h : data ≠ []) :
    pwrite content offset data =
      upTo content offset ++ data ++ content.drop (offset + data.length) := if_neg h

theorem pwrite_cons (content : List α) (offset : ℕ) (a : α) (data : List α) :
    pwrite content offset (a :: data) =
      upTo content offset ++ (a :: data) ++ content.drop (offset + (a :: data).length) :=
  if_neg (List.cons_ne_nil a data)

theorem length_pwrite (content : List α) (offset : ℕ) {data : List α} (h : data ≠ []) :
    (pwrite content offset data).length = max content.length (offset + data.length) := by
  rw [pwrite_of_ne_nil content offset h, List.length_append, List.length_append, length_upTo,
    List.length_drop]
  omega

/-- **Two writes, one behind the other, are one.** -/
theorem pwrite_append (content : List α) (offset : ℕ) (data more : List α) :
    pwrite content offset (data ++ more) =
      pwrite (pwrite content offset data) (offset + data.length) more := by
  cases data with
  | nil => rw [List.nil_append, pwrite_nil, List.length_nil, Nat.add_zero]
  | cons a data =>
    cases more with
    | nil => rw [List.append_nil, pwrite_nil]
    | cons b more =>
      have hfront : (upTo content offset ++ (a :: data)).length = offset + (a :: data).length := by
        rw [List.length_append, length_upTo]
      have hupTo : upTo (pwrite content offset (a :: data)) (offset + (a :: data).length) =
          upTo content offset ++ (a :: data) := by
        have hle : offset + (a :: data).length ≤ (pwrite content offset (a :: data)).length := by
          rw [length_pwrite content offset (List.cons_ne_nil a data)]
          omega
        rw [upTo, Nat.sub_eq_zero_of_le hle, List.replicate_zero, List.append_nil, pwrite_cons,
          ← hfront, List.take_left]
      have hdrop : (pwrite content offset (a :: data)).drop
          (offset + (a :: data).length + (b :: more).length) =
          content.drop (offset + (a :: data ++ b :: more).length) := by
        rw [pwrite_cons, ← List.drop_drop, List.drop_left' hfront, List.drop_drop, List.length_append,
          Nat.add_assoc]
      rw [pwrite_cons _ (offset + (a :: data).length), hupTo, hdrop, List.cons_append, pwrite_cons,
        ← List.cons_append, List.append_assoc, List.append_assoc, List.append_assoc,
        List.append_assoc]

/-- Writing at the start leaves what was behind it. -/
theorem pwrite_zero (content data : List α) :
    pwrite content 0 data = data ++ content.drop data.length := by
  cases data with
  | nil => rfl
  | cons a data =>
    rw [pwrite_cons, upTo, List.take_zero, Nat.zero_sub, List.replicate_zero, Nat.zero_add,
      List.nil_append, List.nil_append]

/-- Writing at the end appends. -/
theorem pwrite_length (content data : List α) : pwrite content content.length data = content ++ data := by
  cases data with
  | nil => rw [pwrite_nil, List.append_nil]
  | cons a data =>
    rw [pwrite_cons, upTo, List.take_length, Nat.sub_self, List.replicate_zero, List.append_nil,
      List.drop_of_length_le (Nat.le_add_right ..), List.append_nil]

end File
end Afpfs

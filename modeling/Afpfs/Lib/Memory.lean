import Mathlib.Data.Nat.Notation
import Mathlib.Data.List.Basic

/-!
# Memory behind an address

A buffer without its bound: the elements at and after an address.  Storing past the end of the
real buffer is then visible as a position, not as a failure.

* `load_store_append`: storing behind what was loaded appends to it.
* `store_store`: two stores, one behind the other, are one.
* `store_of_lt` and `store_of_le`: nothing else changes.
-/

set_option autoImplicit false

namespace Afpfs
namespace Memory

variable {β : Type*}

/-- The `n` elements from position `i` on. -/
def load (m : ℕ → β) (i n : ℕ) : List β := (List.range n).map fun j => m (i + j)

/-- Store elements from position `i` on. -/
def store (m : ℕ → β) (i : ℕ) (bytes : List β) : ℕ → β :=
  fun j => if i ≤ j then (bytes[j - i]?).getD (m j) else m j

@[simp] theorem length_load (m : ℕ → β) (i n : ℕ) : (load m i n).length = n := by
  rw [load, List.length_map, List.length_range]

@[simp] theorem load_zero (m : ℕ → β) (i : ℕ) : load m i 0 = [] := rfl

theorem load_add (m : ℕ → β) (i n k : ℕ) : load m i (n + k) = load m i n ++ load m (i + n) k := by
  rw [load, load, load, List.range_add, List.map_append, List.map_map]
  congr 1
  refine List.map_congr_left fun j _ => ?_
  rw [Function.comp_apply, Nat.add_assoc]

theorem drop_load (m : ℕ → β) (i n k : ℕ) : (load m i n).drop k = load m (i + k) (n - k) := by
  by_cases hk : k ≤ n
  · obtain ⟨r, rfl⟩ := Nat.exists_eq_add_of_le hk
    rw [load_add, List.drop_left' (length_load m i k), Nat.add_sub_cancel_left]
  · rw [List.drop_of_length_le (by rw [length_load]; omega), Nat.sub_eq_zero_of_le (by omega),
      load_zero]

theorem load_congr {m m' : ℕ → β} {i n : ℕ} (h : ∀ j, i ≤ j → j < i + n → m j = m' j) :
    load m i n = load m' i n := by
  refine List.map_congr_left fun j hj => h (i + j) (Nat.le_add_right i j) ?_
  exact Nat.add_lt_add_left (List.mem_range.mp hj) i

theorem store_of_lt (m : ℕ → β) {i j : ℕ} (bytes : List β) (h : j < i) : store m i bytes j = m j :=
  if_neg (Nat.not_le.mpr h)

theorem store_of_le (m : ℕ → β) {i j : ℕ} {bytes : List β} (h : i + bytes.length ≤ j) :
    store m i bytes j = m j := by
  rw [store, if_pos (by omega), List.getElem?_eq_none (by omega), Option.getD_none]

/-- Memory that has one value everywhere. -/
theorem load_eq_replicate {m : ℕ → β} {i n : ℕ} {b : β}
    (h : ∀ j, i ≤ j → j < i + n → m j = b) : load m i n = List.replicate n b := by
  refine List.ext_getElem (by simp) fun j h₁ h₂ => ?_
  rw [length_load] at h₁
  rw [List.getElem_replicate]
  simp only [load, List.getElem_map, List.getElem_range]
  exact h (i + j) (Nat.le_add_right i j) (Nat.add_lt_add_left h₁ i)

theorem load_store (m : ℕ → β) (i : ℕ) (bytes : List β) :
    load (store m i bytes) i bytes.length = bytes := by
  refine List.ext_getElem (length_load _ _ _) fun j h₁ h₂ => ?_
  simp only [load, List.getElem_map, List.getElem_range]
  rw [store, if_pos (Nat.le_add_right i j), Nat.add_sub_cancel_left,
    List.getElem?_eq_getElem h₂, Option.getD_some]

/-- **Appending.**  Elements stored behind the first `i` ones are loaded behind them. -/
theorem load_store_append (m : ℕ → β) (i : ℕ) (bytes : List β) :
    load (store m i bytes) 0 (i + bytes.length) = load m 0 i ++ bytes := by
  have hfront : load (store m i bytes) 0 i = load m 0 i :=
    load_congr fun j _ hj => store_of_lt m bytes (by omega)
  rw [load_add, hfront, Nat.zero_add, load_store]

/-- Two stores, one behind the other. -/
theorem store_store (m : ℕ → β) (i : ℕ) (bytes more : List β) :
    store (store m i bytes) (i + bytes.length) more = store m i (bytes ++ more) := by
  ext j
  simp only [store]
  by_cases hi : i ≤ j
  · by_cases hj : i + bytes.length ≤ j
    · rw [if_pos hj, if_pos hi, if_pos hi, List.getElem?_eq_none (by omega : bytes.length ≤ j - i),
        Option.getD_none, List.getElem?_append_right (by omega), Nat.sub_sub]
    · rw [if_neg hj, if_pos hi, if_pos hi, List.getElem?_append_left (by omega)]
  · rw [if_neg hi, if_neg hi, if_neg (by omega)]

theorem store_cons (m : ℕ → β) (i : ℕ) (b : β) (bytes : List β) :
    store (store m i [b]) (i + 1) bytes = store m i (b :: bytes) :=
  store_store m i [b] bytes

/-- Loading from memory that a store did not touch. -/
theorem load_store_of_le (m : ℕ → β) {i j n : ℕ} (bytes : List β) (h : j + n ≤ i) :
    load (store m i bytes) j n = load m j n :=
  load_congr fun k _ hk => store_of_lt m bytes (by omega)

/-- What is loaded from the middle of what was stored. -/
theorem load_store_middle (m : ℕ → β) (i : ℕ) (front bytes rest : List β) :
    load (store m i (front ++ (bytes ++ rest))) (i + front.length) bytes.length = bytes := by
  rw [← store_store, ← store_store, @load_congr _ _ (store (store m i front)
    (i + front.length) bytes) _ _ fun j _ hj => store_of_lt _ _ hj, load_store]

/-- An element of what is loaded. -/
theorem getElem?_load (m : ℕ → β) {i n j : ℕ} (h : j < n) : (load m i n)[j]? = some (m (i + j)) := by
  rw [load, List.getElem?_map, List.getElem?_range h, Option.map_some]

end Memory
end Afpfs

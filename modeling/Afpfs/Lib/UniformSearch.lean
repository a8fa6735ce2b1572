import Mathlib.Algebra.BigOperators.Group.List.Basic
import Mathlib.Algebra.Order.Ring.Int

/-!
# Uniform binary search

A binary search that keeps no interval: it moves by strides that are fixed in advance, and a
comparison decides the direction only.

* `near_of_mem_probes`: the search looks no farther away than the sum of its strides.
* `Covers`: every stride is at most one more than the sum of the later ones.
* `search_eq_some_iff`: on values that increase, strides that cover find exactly the positions
  that hold the value.
-/

set_option autoImplicit false

namespace Afpfs
namespace UniformSearch

variable {α : Type*} [LinearOrder α] {a : ℤ → α} {x : α}

/-- The search for `x` among the values `a`, from position `i` on with the strides that are
left. -/
def search (a : ℤ → α) (x : α) : List ℕ → ℤ → Option ℤ
  | [], i => if a i = x then some i else none
  | d :: ds, i =>
    if x < a i then search a x ds (i - d)
    else if a i < x then search a x ds (i + d)
    else some i

/-- The positions the search looks at. -/
def probes (a : ℤ → α) (x : α) : List ℕ → ℤ → List ℤ
  | [], i => [i]
  | d :: ds, i =>
    i :: if x < a i then probes a x ds (i - d)
      else if a i < x then probes a x ds (i + d)
      else []

/-- The strides leave no gap: a step is at most one longer than all that may follow. -/
def Covers : List ℕ → Prop
  | [] => True
  | d :: ds => d ≤ ds.sum + 1 ∧ Covers ds

/-- The position is within reach of the strides from `i`. -/
def Near (ds : List ℕ) (i j : ℤ) : Prop := i - ds.sum ≤ j ∧ j ≤ i + ds.sum

/-- The values increase within reach of the strides. -/
def Increasing (a : ℤ → α) (ds : List ℕ) (i : ℤ) : Prop :=
  ∀ j k, Near ds i j → Near ds i k → j < k → a j < a k

/-! ## Reach -/

theorem near_self (ds : List ℕ) (i : ℤ) : Near ds i i := ⟨by omega, by omega⟩

/-- What is near after a step is near before it. -/
theorem near_of_near_sub {d : ℕ} {ds : List ℕ} {i j : ℤ} (h : Near ds (i - d) j) :
    Near (d :: ds) i j := by
  obtain ⟨hlow, hhigh⟩ := h
  rw [Near, List.sum_cons, Int.natCast_add]
  omega

theorem near_of_near_add {d : ℕ} {ds : List ℕ} {i j : ℤ} (h : Near ds (i + d) j) :
    Near (d :: ds) i j := by
  obtain ⟨hlow, hhigh⟩ := h
  rw [Near, List.sum_cons, Int.natCast_add]
  omega

/-- **The search stays near.**  No position it looks at is farther away than its strides reach. -/
theorem near_of_mem_probes {ds : List ℕ} {i j : ℤ} (h : j ∈ probes a x ds i) : Near ds i j := by
  induction ds generalizing i with
  | nil =>
    rw [probes, List.mem_singleton] at h
    rw [h]
    exact near_self [] i
  | cons d ds ih =>
    rw [probes, List.mem_cons] at h
    rcases h with rfl | h
    · exact near_self _ _
    · split_ifs at h
      · exact near_of_near_sub (ih h)
      · exact near_of_near_add (ih h)
      · exact absurd h List.not_mem_nil

/-! ## Exactness -/

/-- What the search finds holds the value, and it looked there. -/
theorem search_sound {ds : List ℕ} {i k : ℤ} (h : search a x ds i = some k) :
    a k = x ∧ k ∈ probes a x ds i := by
  induction ds generalizing i with
  | nil =>
    rw [search] at h
    split_ifs at h with hx
    obtain rfl := Option.some.inj h
    exact ⟨hx, List.mem_cons_self⟩
  | cons d ds ih =>
    rw [search] at h
    rw [probes]
    split_ifs at h ⊢ with hlt hgt
    · exact (ih h).imp_right (List.mem_cons_of_mem _)
    · exact (ih h).imp_right (List.mem_cons_of_mem _)
    · obtain rfl := Option.some.inj h
      exact ⟨le_antisymm (not_lt.mp hlt) (not_lt.mp hgt), List.mem_cons_self⟩

/-- **Nothing within reach is missed.**  A comparison leaves the half with the value, and what is
left of the strides reaches all of this half. -/
theorem search_complete {ds : List ℕ} (hcovers : Covers ds) {i k : ℤ} (hmono : Increasing a ds i)
    (hk : Near ds i k) : search a (a k) ds i = some k := by
  induction ds generalizing i with
  | nil =>
    obtain ⟨hlow, hhigh⟩ := hk
    obtain rfl : k = i := by
      rw [List.sum_nil] at hlow hhigh
      omega
    rw [search, if_pos rfl]
  | cons d ds ih =>
    obtain ⟨hd, hcovers⟩ := hcovers
    have hi : Near (d :: ds) i i := near_self _ i
    have ⟨hlow, hhigh⟩ := hk
    rw [List.sum_cons, Int.natCast_add] at hlow hhigh
    rw [search]
    rcases Int.lt_trichotomy k i with hki | rfl | hik
    · rw [if_pos (hmono k i hk hi hki)]
      exact ih hcovers
        (fun j l hj hl => hmono j l (near_of_near_sub hj) (near_of_near_sub hl))
        ⟨by omega, by omega⟩
    · rw [if_neg (lt_irrefl _), if_neg (lt_irrefl _)]
    · rw [if_neg (not_lt_of_gt (hmono i k hi hk hik)), if_pos (hmono i k hi hk hik)]
      exact ih hcovers
        (fun j l hj hl => hmono j l (near_of_near_add hj) (near_of_near_add hl))
        ⟨by omega, by omega⟩

/-- **The search is exact** on values that increase. -/
theorem search_eq_some_iff {ds : List ℕ} (hcovers : Covers ds) {i : ℤ} (hmono : Increasing a ds i)
    (k : ℤ) : search a x ds i = some k ↔ Near ds i k ∧ a k = x := by
  constructor
  · intro h
    obtain ⟨hk, hprobe⟩ := search_sound h
    exact ⟨near_of_mem_probes hprobe, hk⟩
  · rintro ⟨hk, rfl⟩
    exact search_complete hcovers hmono hk

end UniformSearch
end Afpfs

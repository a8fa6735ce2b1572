import Afpfs.Lib.UniformSearch
import Afpfs.Unicode.Precompose

/-!
# The composition table is searched exactly

The strides of `delta[]` leave no gap and add up to the distance from the middle of the table to
both of its ends, and the patterns of the table increase.  So `UCS2precompose()` is a uniform
binary search in `table[1]` to `table[997]` that misses no entry and never leaves them.

* `searchFrom_eq`: the loop is the uniform search in the patterns.
* `mem_probes_of_mem_indices`: the loop looks where the uniform search looks.
* `ucs2precompose_lookup`: what is found, what is not, and where the loop looks.
-/

set_option autoImplicit false

namespace Afpfs
namespace Unicode

open UniformSearch

/-- The values of `i` in the loop of `UCS2precompose()`, one for each time its condition is
checked. -/
def indices (needle : ℕ) : List ℕ → ℤ → List ℤ
  | [], i => [i]
  | d :: ds, i =>
    i :: if d = 0 then [] else
      match tableAt i with
      | none => []
      | some e =>
        if needle < e.pattern then ds.head?.elim [] fun d' => indices needle ds (i - d')
        else if e.pattern < needle then ds.head?.elim [] fun d' => indices needle ds (i + d')
        else []

/-- `table[i].pattern`. -/
def patternAt (i : ℤ) : ℕ := (tableAt i).elim 0 Entry.pattern

/-- What the loop returns when it stops at an index, or without one. -/
def composedAt (found : Option ℤ) : ℤ :=
  (found.bind tableAt).elim (-1) fun e => e.precomposed

/-- The strides that follow `delta[0]`, without the 0 at the end. -/
def strides : List ℕ := [249, 125, 62, 31, 16, 8, 4, 2, 1]

theorem delta_eq : delta = 499 :: (strides ++ [0]) := rfl

theorem sum_strides : strides.sum = 498 := rfl

theorem covers_strides : Covers strides := by
  simp only [Covers, strides]
  decide

/-! ## The patterns -/

theorem table_sorted : (table.map Entry.pattern).Pairwise (· < ·) :=
  List.isChain_iff_pairwise.mp (by decide +kernel)

theorem tableAt_natCast (k : ℕ) : tableAt k = table[k]? := by
  rw [tableAt, if_pos (Int.natCast_nonneg k), Int.toNat_natCast]

theorem patternAt_of_tableAt {i : ℤ} {e : Entry} (h : tableAt i = some e) :
    patternAt i = e.pattern := by
  rw [patternAt, h, Option.elim_some]

/-- **The patterns increase** in all of the table. -/
theorem patternAt_lt {i j : ℤ} (hlow : 1 ≤ i) (hij : i < j) (hhigh : j ≤ 997) :
    patternAt i < patternAt j := by
  obtain ⟨m, rfl⟩ := Int.eq_ofNat_of_zero_le (a := i) (by omega)
  obtain ⟨n, rfl⟩ := Int.eq_ofNat_of_zero_le (a := j) (by omega)
  have hlen := length_table
  have hm : m < table.length := by omega
  have hn : n < table.length := by omega
  have hsorted := List.pairwise_iff_getElem.mp table_sorted m n (by rwa [List.length_map])
    (by rwa [List.length_map]) (by omega)
  rw [List.getElem_map, List.getElem_map] at hsorted
  simp only [patternAt, tableAt_natCast, List.getElem?_eq_getElem hm, List.getElem?_eq_getElem hn,
    Option.elim_some]
  exact hsorted

/-! ## The loop -/

/-- **The loop is a uniform search in the patterns.**  The first stride has been taken. -/
theorem searchFrom_eq (n : ℕ) {d : ℕ} {ds : List ℕ} (hd : d ≠ 0) (hds : 0 ∉ ds) {i : ℤ}
    (hlow : 1 ≤ i - ds.sum) (hhigh : i + ds.sum ≤ 997) :
    searchFrom n (d :: (ds ++ [0])) i = some (composedAt (search patternAt n ds i)) := by
  induction ds generalizing d i with
  | nil =>
    obtain ⟨e, he⟩ := @tableAt_isSome i (by simp at hlow; omega) (by simp at hhigh; omega)
    rw [searchFrom, if_neg hd, search, patternAt_of_tableAt he]
    simp only [he, List.nil_append, List.head?_cons, Option.bind_some, searchFrom, if_true]
    rcases lt_trichotomy n e.pattern with hlt | rfl | hgt
    · rw [if_pos hlt, if_neg (by omega)]
      rfl
    · simp [composedAt, he]
    · rw [if_neg (by omega), if_pos hgt, if_neg (by omega)]
      rfl
  | cons d' ds ih =>
    rw [List.sum_cons, Nat.cast_add] at hlow hhigh
    obtain ⟨hd', hds⟩ := List.ne_and_not_mem_of_not_mem_cons hds
    obtain ⟨e, he⟩ := @tableAt_isSome i (by omega) (by omega)
    rw [searchFrom, if_neg hd, search, patternAt_of_tableAt he]
    simp only [he, List.cons_append, List.head?_cons, Option.bind_some]
    split_ifs
    · exact ih (Ne.symm hd') hds (by omega) (by omega)
    · exact ih (Ne.symm hd') hds (by omega) (by omega)
    · rw [composedAt, Option.bind_some, he, Option.elim_some]

/-- The loop looks where the uniform search looks. -/
theorem mem_probes_of_mem_indices (n : ℕ) {d : ℕ} {ds : List ℕ} (hd : d ≠ 0) (hds : 0 ∉ ds)
    {i j : ℤ} (h : j ∈ indices n (d :: (ds ++ [0])) i) : j ∈ probes patternAt n ds i := by
  induction ds generalizing d i with
  | nil =>
    rw [probes, List.mem_singleton]
    rw [indices, if_neg hd] at h
    cases he : tableAt i with
    | none => simpa [he] using h
    | some e =>
      simp only [he, List.nil_append, List.head?_cons, Option.elim_some, indices, if_true,
        List.mem_cons] at h
      split_ifs at h <;> simpa using h
  | cons d' ds ih =>
    obtain ⟨hd', hds⟩ := List.ne_and_not_mem_of_not_mem_cons hds
    rw [indices, if_neg hd] at h
    rw [probes]
    cases he : tableAt i with
    | none =>
      rw [he] at h
      exact List.mem_cons.mpr (Or.inl (by simpa using h))
    | some e =>
      rw [patternAt_of_tableAt he]
      simp only [he, List.cons_append, List.head?_cons, Option.elim_some, List.mem_cons] at h ⊢
      refine h.imp_right fun h => ?_
      by_cases hlt : n < e.pattern
      · rw [if_pos hlt] at h ⊢
        exact ih (Ne.symm hd') hds h
      · rw [if_neg hlt] at h ⊢
        by_cases hgt : e.pattern < n
        · rw [if_pos hgt] at h ⊢
          exact ih (Ne.symm hd') hds h
        · rw [if_neg hgt] at h
          exact absurd h List.not_mem_nil

/-! ## The lookup -/

/-- The strides reach all of the table but the dummy. -/
theorem near_strides_iff (i : ℤ) : Near strides 499 i ↔ 1 ≤ i ∧ i ≤ 997 := by
  rw [Near, sum_strides]
  omega

theorem increasing_patternAt : Increasing patternAt strides 499 := fun i j hi hj hij =>
  patternAt_lt ((near_strides_iff i).mp hi).1 hij ((near_strides_iff j).mp hj).2

/-- `UCS2precompose()` is a uniform search from the middle of the table. -/
theorem ucs2precompose_eq (first second : UInt16) :
    ucs2precompose first second =
      some (composedAt (search patternAt (needle first second) strides 499)) := by
  rw [ucs2precompose, delta_eq]
  exact searchFrom_eq _ (by decide) (by decide) (by decide) (by decide)

/-- **The search is exact** in all entries but the dummy. -/
theorem search_strides_iff (n : ℕ) (k : ℤ) :
    search patternAt n strides 499 = some k ↔ (1 ≤ k ∧ k ≤ 997) ∧ patternAt k = n := by
  rw [search_eq_some_iff covers_strides increasing_patternAt, near_strides_iff]

/-- A pair with an entry has the composition of this entry. -/
theorem ucs2precompose_of_entry {first second : UInt16} {k : ℕ} {e : Entry} (hlow : 1 ≤ k)
    (hhigh : k ≤ 997) (he : table[k]? = some e) (hpattern : e.pattern = needle first second) :
    ucs2precompose first second = some (e.precomposed : ℤ) := by
  have hat : tableAt k = some e := (tableAt_natCast k).trans he
  have hfound := (search_strides_iff (needle first second) k).mpr
    ⟨⟨by omega, by omega⟩, (patternAt_of_tableAt hat).trans hpattern⟩
  rw [ucs2precompose_eq, hfound, composedAt, Option.bind_some, hat, Option.elim_some]

/-- A pair without an entry has no composition. -/
theorem ucs2precompose_of_no_entry {first second : UInt16}
    (hnone : ∀ k e, 1 ≤ k → k ≤ 997 → table[k]? = some e → e.pattern ≠ needle first second) :
    ucs2precompose first second = some (-1) := by
  rw [ucs2precompose_eq]
  cases hfound : search patternAt (needle first second) strides 499 with
  | none => rfl
  | some i =>
    obtain ⟨⟨hlow, hhigh⟩, hpattern⟩ := (search_strides_iff _ i).mp hfound
    obtain ⟨k, rfl⟩ := Int.eq_ofNat_of_zero_le (a := i) (by omega)
    obtain ⟨e, he⟩ := @tableAt_isSome k (by omega) (by omega)
    rw [patternAt_of_tableAt he] at hpattern
    exact absurd hpattern (hnone k e (by omega) (by omega) ((tableAt_natCast k).symm.trans he))

/-- **The index stays in the table**, without the dummy, whatever the loop looks for. -/
theorem bounds_of_mem_indices {n : ℕ} {i : ℤ} (h : i ∈ indices n delta (delta.headD 0)) :
    1 ≤ i ∧ i ≤ 997 := by
  rw [delta_eq] at h
  have hprobe := @mem_probes_of_mem_indices n 499 strides (by decide) (by decide) 499 i h
  exact (near_strides_iff i).mp (near_of_mem_probes hprobe)

/-- **The composition lookup.**  A pair with an entry in `table[1]` to `table[997]` gives the
composition of this entry, any other pair gives -1, and the index never leaves these entries. -/
theorem ucs2precompose_lookup (first second : UInt16) :
    (∀ k e, 1 ≤ k → k ≤ 997 → table[k]? = some e → e.pattern = needle first second →
      ucs2precompose first second = some (e.precomposed : ℤ)) ∧
    ((∀ k e, 1 ≤ k → k ≤ 997 → table[k]? = some e → e.pattern ≠ needle first second) →
      ucs2precompose first second = some (-1)) ∧
    ∀ i ∈ indices (needle first second) delta (delta.headD 0), 1 ≤ i ∧ i ≤ 997 :=
  ⟨fun _ _ => ucs2precompose_of_entry, ucs2precompose_of_no_entry,
    fun _ => bounds_of_mem_indices⟩

end Unicode
end Afpfs

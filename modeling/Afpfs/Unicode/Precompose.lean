import Afpfs.Unicode.Table
import Mathlib.Algebra.GroupWithZero.Nat
import Mathlib.Data.Int.Notation
import Mathlib.Data.Nat.Notation

/-!
# Composing two characters

`UCS2precompose()` of `lib/unicode.c`: a uniform binary search in the composition table.  The
strides are fixed in `delta[]` and only their sign depends on the comparison, so the index stays
within the sum of the remaining strides around where it is (`isSome_searchFrom`) and the search
never leaves the table.

* `ucs2precompose_cases`: the search answers -1 or the composition of an entry with that pattern.
* `ucs2precompose_of_not_composes`: a pair without an entry gives -1.
-/

set_option autoImplicit false

namespace Afpfs
namespace Unicode

/-- `table[i]`. -/
def tableAt (i : ℤ) : Option Entry :=
  if 0 ≤ i then table[i.toNat]? else none

/-- The loop of `UCS2precompose()`, from the strides `delta[j]` on and at the index `i`.  `none`
when it leaves one of the two arrays. -/
def searchFrom (needle : ℕ) : List ℕ → ℤ → Option ℤ
  | [], _ => none
  | d :: ds, i =>
    if d = 0 then some (-1)
    else
      match tableAt i with
      | none => none
      | some e =>
        if needle < e.pattern then ds.head?.bind fun d' => searchFrom needle ds (i - d')
        else if e.pattern < needle then ds.head?.bind fun d' => searchFrom needle ds (i + d')
        else some e.precomposed

/-- The pattern of a pair of characters. -/
def needle (first second : UInt16) : ℕ := first.toNat <<< 16 ||| second.toNat

/-- `UCS2precompose()`. -/
def ucs2precompose (first second : UInt16) : Option ℤ :=
  searchFrom (needle first second) delta (delta.headD 0)

/-- The pair has an entry in the table. -/
def Composes (first second : UInt16) : Prop :=
  ∃ e ∈ table, e.pattern = needle first second

instance (first second : UInt16) : Decidable (Composes first second) :=
  inferInstanceAs (Decidable (∃ e ∈ table, e.pattern = needle first second))

theorem needle_mod (first second : UInt16) : needle first second % 65536 = second.toNat := by
  have hlt : second.toNat < 2 ^ 16 := second.toNat_lt
  rw [needle, ← Nat.shiftLeft_add_eq_or_of_lt hlt, Nat.shiftLeft_eq]
  omega

theorem length_table : table.length = 998 := by decide +kernel

theorem tableAt_isSome {i : ℤ} (hlow : 0 ≤ i) (hhigh : i ≤ 997) : ∃ e, tableAt i = some e := by
  have hlen : i.toNat < table.length := by
    rw [length_table]
    omega
  exact ⟨table[i.toNat], by rw [tableAt, if_pos hlow, List.getElem?_eq_getElem hlen]⟩

/-- **The search stays in the table.**  The index can move by the remaining strides at most. -/
theorem isSome_searchFrom (n : ℕ) {ds : List ℕ} (hzero : ds.getLast? = some 0) (i : ℤ)
    (hlow : 1 ≤ i - ds.tail.sum) (hhigh : i + ds.tail.sum ≤ 997) :
    ∃ r, searchFrom n ds i = some r := by
  induction ds generalizing i with
  | nil => exact absurd hzero (by simp)
  | cons d ds ih =>
    rw [searchFrom]
    by_cases hd : d = 0
    · exact ⟨-1, if_pos hd⟩
    rw [if_neg hd]
    cases ds with
    | nil =>
      rw [List.getLast?_singleton, Option.some.injEq] at hzero
      exact absurd hzero hd
    | cons d' ds =>
      rw [List.tail_cons, List.sum_cons] at hlow hhigh
      obtain ⟨e, he⟩ := @tableAt_isSome i (by omega) (by omega)
      rw [List.getLast?_cons_cons] at hzero
      simp only [he, List.head?_cons, Option.bind_some]
      split
      · exact ih hzero _ (by rw [List.tail_cons]; omega) (by rw [List.tail_cons]; omega)
      · split
        · exact ih hzero _ (by rw [List.tail_cons]; omega) (by rw [List.tail_cons]; omega)
        · exact ⟨e.precomposed, rfl⟩

/-- Whatever the strides, what the search finds has the pattern it looks for. -/
theorem searchFrom_cases {n : ℕ} {ds : List ℕ} {i r : ℤ} (h : searchFrom n ds i = some r) :
    r = -1 ∨ ∃ e ∈ table, e.pattern = n ∧ r = e.precomposed := by
  induction ds generalizing i with
  | nil => exact absurd h (by simp [searchFrom])
  | cons d ds ih =>
    rw [searchFrom] at h
    by_cases hd : d = 0
    · rw [if_pos hd, Option.some.injEq] at h
      exact Or.inl h.symm
    rw [if_neg hd] at h
    cases he : tableAt i with
    | none => simp [he] at h
    | some e =>
      simp only [he] at h
      split at h
      · obtain ⟨d', -, hrest⟩ := Option.bind_eq_some_iff.mp h
        exact ih hrest
      · split at h
        · obtain ⟨d', -, hrest⟩ := Option.bind_eq_some_iff.mp h
          exact ih hrest
        · rw [Option.some.injEq] at h
          refine Or.inr ⟨e, ?_, by omega, h.symm⟩
          rw [tableAt] at he
          split at he
          · exact List.mem_of_getElem? he
          · exact absurd he (by simp)

/-- What `UCS2precompose()` answers: an entry of the table, or -1. -/
theorem ucs2precompose_cases (first second : UInt16) :
    ucs2precompose first second = some (-1) ∨
    ∃ e ∈ table, e.pattern = needle first second ∧
      ucs2precompose first second = some (e.precomposed : ℤ) := by
  obtain ⟨r, hr⟩ := @isSome_searchFrom (needle first second) delta (by decide)
    499 (by decide) (by decide)
  rcases searchFrom_cases hr with rfl | ⟨e, he, hpattern, rfl⟩
  · exact Or.inl hr
  · exact Or.inr ⟨e, he, hpattern, hr⟩

/-- **A pair without an entry does not compose.** -/
theorem ucs2precompose_of_not_composes {first second : UInt16} (h : ¬ Composes first second) :
    ucs2precompose first second = some (-1) := by
  rcases ucs2precompose_cases first second with hr | ⟨e, he, hpattern, -⟩
  · exact hr
  · exact absurd ⟨e, he, hpattern⟩ h

/-- The second character of every composition is a combining mark, never `a`. -/
theorem not_composes_letter_a (first : UInt16) : ¬ Composes first 0x61 := by
  rintro ⟨e, he, hpattern⟩
  have hmark : ∀ e ∈ table, e.pattern % 65536 ≠ 0x61 := by decide +kernel
  refine hmark e he ?_
  rw [hpattern, needle_mod]
  rfl

/-- `a` with a diaeresis is `ä`. -/
theorem ucs2precompose_a_diaeresis : ucs2precompose 0x61 0x308 = some 0xE4 := by decide +kernel

end Unicode
end Afpfs

import Afpfs.Volume

/-!
# The limits of file names

`invalid_filename()` of `lib/utils.c` goes through a path from one separator to the next and
measures what is between them; what is behind the last one is measured by another expression, and
there is an exit of its own for a position behind the terminator, which is never taken.

* `invalidFrom_iff`: from a position on, the loop finds a part that is too long.
* `invalidFilename_iff`: an absolute path is invalid exactly if one of its components is too long.
-/

set_option autoImplicit false

namespace Afpfs
namespace FileNames

open Scan Codepage Unicode

/-- The limit for a component of a path. -/
def nameLimit (server : AfpServer) : ℕ :=
  if server.avNumber < 30 then 31
  else if server.pathEncoding = .kFPUTF8Name then 1024
  else 255

/-- A round of the loop: the part up to the next separator. -/
theorem invalidFrom_append {front part rest : CString} (hpart : slash ∉ part) (maxlen : ℕ) :
    invalidFrom maxlen (front ++ (part ++ slash :: rest)) front.length =
      (decide (maxlen < part.length) || invalidFrom maxlen (front ++ (part ++ slash :: rest))
        (front ++ (part ++ [slash])).length) := by
  have hfound : strchr (front ++ (part ++ slash :: rest)) front.length slash =
      some (front.length + part.length) := strchr_append hpart
  have hnext : (front ++ (part ++ [slash])).length = front.length + part.length + 1 := by
    simp only [List.length_append, List.length_singleton, Nat.add_assoc]
  have hend : ¬ (front ++ (part ++ slash :: rest)).length < front.length + part.length + 1 := by
    simp only [List.length_append, List.length_cons]
    omega
  rw [invalidFrom]
  split
  next h => exact absurd (hfound.symm.trans h) (Option.some_ne_none _)
  next q h =>
    obtain rfl : front.length + part.length = q := Option.some.inj (hfound.symm.trans h)
    rw [if_neg hend, hnext]
    by_cases hlong : maxlen < part.length
    · rw [if_pos (by omega), decide_eq_true hlong, Bool.true_or]
    · rw [if_neg (by omega), decide_eq_false hlong, Bool.false_or]

/-- The last part. -/
theorem invalidFrom_last {front part : CString} (hpart : slash ∉ part) (maxlen : ℕ) :
    invalidFrom maxlen (front ++ part) front.length = decide (maxlen < part.length) := by
  have hnone : strchr (front ++ part) front.length slash = none := strchr_eq_none hpart
  rw [invalidFrom]
  split
  next h => rw [List.length_append, Nat.add_sub_cancel_left]
  next q h => exact absurd (h.symm.trans hnone) (Option.some_ne_none _)

/-- **The loop finds a part that is too long.** -/
theorem invalidFrom_iff (maxlen : ℕ) (front rest : CString) :
    invalidFrom maxlen (front ++ rest) front.length = true ↔
      ∃ name ∈ split slash rest, maxlen < name.length := by
  induction hlength : rest.length using Nat.strong_induction_on generalizing front rest with
  | _ n ih =>
    by_cases hmem : slash ∈ rest
    · obtain ⟨part, rest', rfl, hpart⟩ := List.eq_append_cons_of_mem hmem
      have hlt : rest'.length < n := by
        rw [← hlength, List.length_append, List.length_cons]
        omega
      have hrest := ih _ hlt (front ++ (part ++ [slash])) rest' rfl
      have happend : front ++ (part ++ [slash]) ++ rest' = front ++ (part ++ slash :: rest') := by
        simp only [List.append_assoc, List.singleton_append]
      rw [happend] at hrest
      rw [invalidFrom_append hpart, Bool.or_eq_true, decide_eq_true_eq, hrest, split_append hpart,
        List.exists_mem_cons_iff]
    · rw [invalidFrom_last hmem, decide_eq_true_eq, split_of_not_mem hmem]
      simp only [List.mem_singleton, exists_eq_left]

/-- **Which paths are invalid.**  An absolute path is invalid exactly if one of its components is
longer than the limit. -/
theorem invalidFilename_iff (server : AfpServer) (filename : CString)
    (habsolute : filename.head? = some slash) :
    invalidFilename server filename = true ↔
      ∃ name ∈ components slash filename, nameLimit server < name.length := by
  obtain ⟨rest, rfl⟩ : ∃ rest, filename = slash :: rest := List.head?_eq_some_iff.mp habsolute
  have hcomponents : components slash (slash :: rest) = split slash rest := by
    rw [components, split, if_pos rfl, List.tail_cons]
  rw [hcomponents, invalidFilename, if_neg (List.cons_ne_nil slash rest)]
  by_cases hroot : slash :: rest = [slash]
  · obtain rfl : rest = [] := (List.cons.inj hroot).2
    rw [if_pos rfl]
    refine iff_of_false Bool.false_ne_true ?_
    rintro ⟨name, hname, hlong⟩
    obtain rfl : name = [] := List.mem_singleton.mp hname
    exact absurd hlong (Nat.not_lt_zero _)
  · rw [if_neg hroot]
    exact invalidFrom_iff (nameLimit server) [slash] rest

/-- A path with an empty component and a separator at its end. -/
theorem invalidFilename_iff_of_path :
    invalidFilename Volume.plain.server [slash, 0x61, slash, slash, 0x62, slash] = true ↔
      ∃ name ∈ components slash [slash, 0x61, slash, slash, 0x62, slash],
        nameLimit Volume.plain.server < name.length :=
  invalidFilename_iff Volume.plain.server [slash, 0x61, slash, slash, 0x62, slash] rfl

end FileNames
end Afpfs

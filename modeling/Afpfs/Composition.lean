import Afpfs.Codepage
import Afpfs.Protocol
import Afpfs.Unicode.Canonical
import Afpfs.Unicode.Decoding

/-!
# Composing a name

The loop of `convert_utf8dec_to_utf8pre()` is the fold of the decoded characters with
`UCS2precompose()` (`precomposeFrom_eq`).  For a text of at most 383 characters of the Basic
Multilingual Plane

* `composition_canonical`: the result decomposes to what the text decomposes to, and converting it
  again changes nothing;
* `composition_never_grows`: the result fits wherever the text does.

`path16pre[384]` is another matter: a name may have up to 767 bytes.

* `storesWithin_iff`: the conversion of a name stays in it exactly if no sequence leads behind the
  terminator and the characters can be divided into at most 383 runs that compose to one each.
-/

set_option autoImplicit false

namespace Afpfs
namespace Composition

open Unicode Codepage

/-! ## The loop -/

/-- How a round treats a character behind another. -/
theorem combine_of_ne_zero {prev : UInt16} (hprev : prev ≠ 0) (c : UInt16) :
    combine prev c =
      some ((composition prev c).elim ([prev], c) fun comp => ([], comp)) := by
  have hpos : prev > 0 := UInt16.pos_iff_ne_zero.mpr hprev
  have hsome : ∃ r, ucs2precompose prev c = some r := by
    rcases ucs2precompose_cases prev c with hr | ⟨e, -, -, hr⟩
    · exact ⟨_, hr⟩
    · exact ⟨_, hr⟩
  obtain ⟨r, hr⟩ := hsome
  rw [combine, if_pos hpos, composition, hr, Option.map_some, Option.bind_some]
  split_ifs <;> rfl

/-- With a character that is kept, the loop is the fold. -/
theorem continueFrom_eq {prev : UInt16} {us : List UInt16} (hprev : prev ≠ 0)
    (hus : ∀ u ∈ us, u ≠ 0) : continueFrom prev us = some (Fold.fold composition prev us) := by
  induction us generalizing prev with
  | nil => exact continueFrom_nil prev
  | cons c us ih =>
    obtain ⟨hc, hus⟩ := List.forall_mem_cons.mp hus
    rw [continueFrom_cons, precomposeFrom, combine_of_ne_zero hprev, Option.bind_some]
    cases hcomp : composition prev c with
    | none =>
      have hrest := congrArg (Option.map (prev :: ·)) (ih hc hus)
      rw [continueFrom, Option.map_map] at hrest
      rw [Fold.fold_cons_of_none hcomp]
      exact hrest
    | some d =>
      have hrest := ih (composition_ne_zero hcomp) hus
      rw [continueFrom] at hrest
      rw [Fold.fold_cons_of_some hcomp]
      exact hrest

/-- **The loop is the fold.** -/
theorem precomposeFrom_eq {us : List UInt16} (hus : ∀ u ∈ us, u ≠ 0) :
    precomposeFrom 0 us = some (Fold.foldAll composition us) := by
  cases us with
  | nil => rfl
  | cons c us =>
    obtain ⟨hc, hus⟩ := List.forall_mem_cons.mp hus
    rw [precomposeFrom_first, continueFrom_eq hc hus, Fold.foldAll]

theorem foldAll_ne_zero {us : List UInt16} (hus : ∀ u ∈ us, u ≠ 0) :
    ∀ u ∈ Fold.foldAll composition us, u ≠ 0 :=
  Fold.forall_mem_foldAll (fun _ _ _ => composition_ne_zero) hus

/-- The conversion of decoded characters. -/
theorem convertUtf8decToUtf8pre_of_units {src : CString} {us : List UInt16}
    (hdecode : utf8ToUcs2 src = some us) (hus : ∀ u ∈ us, u ≠ 0) (hlen : us.length ≤ 383) :
    convertUtf8decToUtf8pre src = some (ucs2ToUtf8 (Fold.foldAll composition us)) := by
  have hfold : (Fold.foldAll composition us).length ≤ us.length := Fold.length_foldAll_le_length us
  have hsize : (Fold.foldAll composition us).length < path16preSize :=
    Nat.lt_of_le_of_lt (hfold.trans hlen) (by decide)
  rw [convertUtf8decToUtf8pre, hdecode, Option.bind_some, precomposeFrom_eq hus, Option.bind_some,
    if_pos hsize]

theorem unit_ne_zero_of_mem {cs : List Char} (hcs : ∀ c ∈ cs, InBmp c) :
    ∀ u ∈ cs.map unit, u ≠ 0 := by
  intro u hu
  obtain ⟨c, hc, rfl⟩ := List.mem_map.mp hu
  exact unit_ne_zero (hcs c hc)

/-! ## Texts of at most 383 characters -/

/-- The conversion of a text. -/
theorem convertUtf8decToUtf8pre_utf8 {cs : List Char} (hcs : ∀ c ∈ cs, InBmp c)
    (hlen : cs.length ≤ 383) :
    convertUtf8decToUtf8pre (utf8 cs) =
      some (ucs2ToUtf8 (Fold.foldAll composition (cs.map unit))) := by
  refine convertUtf8decToUtf8pre_of_units (utf8ToUcs2_utf8 hcs) (unit_ne_zero_of_mem hcs) ?_
  rwa [List.length_map]

/-- **Composition is canonical.**  The result decomposes to what the text decomposes to, and
converting it again changes nothing. -/
theorem composition_canonical (cs : List Char) (hcs : ∀ c ∈ cs, InBmp c) (hlen : cs.length ≤ 383) :
    ∃ (dest : CString) (units : List UInt16), convertUtf8decToUtf8pre (utf8 cs) = some dest ∧
      utf8ToUcs2 dest = some units ∧ expandUnits units = expandUnits (cs.map unit) ∧
      convertUtf8decToUtf8pre dest = some dest := by
  have hnonzero := foldAll_ne_zero (unit_ne_zero_of_mem hcs)
  have hdecode := utf8ToUcs2_ucs2ToUtf8 hnonzero
  have hshort : (Fold.foldAll composition (cs.map unit)).length ≤ 383 := by
    refine (Fold.length_foldAll_le_length _).trans ?_
    rwa [List.length_map]
  refine ⟨_, _, convertUtf8decToUtf8pre_utf8 hcs hlen, hdecode,
    Fold.flatMap_foldAll (fun _ _ _ => expandUnit_composition) _, ?_⟩
  rw [convertUtf8decToUtf8pre_of_units hdecode hnonzero hshort,
    Fold.foldAll_foldAll closed_composition]

/-- A letter with two marks, a lone pair of marks that compose, and a letter that ends the text. -/
theorem composition_canonical_of_marks :
    ∃ (dest : CString) (units : List UInt16),
      convertUtf8decToUtf8pre (utf8 ['u', '\u0308', '\u0301', 'x', '\u0308', '\u0301', 'e']) =
        some dest ∧ utf8ToUcs2 dest = some units ∧
      expandUnits units =
        expandUnits (['u', '\u0308', '\u0301', 'x', '\u0308', '\u0301', 'e'].map unit) ∧
      convertUtf8decToUtf8pre dest = some dest :=
  composition_canonical ['u', '\u0308', '\u0301', 'x', '\u0308', '\u0301', 'e'] (by simp [InBmp])
    (by decide)

theorem length_ucs2ToUtf8 (us : List UInt16) :
    (ucs2ToUtf8 us).length = (us.map fun u => (encodeUnit u).length).sum :=
  List.length_flatMap

/-- **The conversion never grows.**  The result and its terminator take no more bytes than the text
and its terminator, so that they fit wherever those do. -/
theorem composition_never_grows (cs : List Char) (hcs : ∀ c ∈ cs, InBmp c)
    (hlen : cs.length ≤ 383) :
    ∃ dest, convertUtf8decToUtf8pre (utf8 cs) = some dest ∧
      dest.length + 1 ≤ (utf8 cs).length + 1 ∧
      ∀ destLen, (utf8 cs).length + 1 ≤ destLen →
        convertPathToUnix .kFPUTF8Name (utf8 cs) destLen = some (0, dest) := by
  have hconvert := convertUtf8decToUtf8pre_utf8 hcs hlen
  have hle : (ucs2ToUtf8 (Fold.foldAll composition (cs.map unit))).length ≤ (utf8 cs).length := by
    rw [← ucs2ToUtf8_map_unit hcs, length_ucs2ToUtf8, length_ucs2ToUtf8]
    exact Fold.sum_map_foldAll_le (fun _ _ _ => length_encodeUnit_composition) _
  refine ⟨_, hconvert, Nat.succ_le_succ hle, fun destLen hdest => ?_⟩
  rw [convertPathToUnix, hconvert, Option.bind_some, fit, if_pos (Nat.lt_of_le_of_lt hle hdest)]

/-- Three characters of two bytes become one of three. -/
theorem composition_never_grows_of_marks :
    ∃ dest, convertUtf8decToUtf8pre (utf8 ['α', '\u0313', '\u0300']) = some dest ∧
      dest.length + 1 ≤ (utf8 ['α', '\u0313', '\u0300']).length + 1 ∧
      ∀ destLen, (utf8 ['α', '\u0313', '\u0300']).length + 1 ≤ destLen →
        convertPathToUnix .kFPUTF8Name (utf8 ['α', '\u0313', '\u0300']) destLen = some (0, dest) :=
  composition_never_grows ['α', '\u0313', '\u0300'] (by simp [InBmp]) (by decide)

/-! ## Names of any bytes -/

/-- Whatever is in the memory behind the name, its characters and the terminator fit
`path16pre`. -/
def StoresWithin (name : CString) : Prop :=
  ∀ beyond : CString, ∃ units stored, utf8ToUcs2 (name ++ 0 :: beyond) = some units ∧
    precomposeFrom 0 units = some stored ∧ stored.length + 1 ≤ path16preSize

/-- No sequence leads behind the terminator, and the characters can be divided into at most 383
runs that compose to one character each. -/
def FewRuns (name : CString) : Prop :=
  ∃ units, utf8ToUcs2 name = some units ∧ ∃ runs : List (List UInt16), runs.flatten = units ∧
    (∀ run ∈ runs, Fold.Run composition run) ∧ runs.length ≤ 383

/-- Nothing composes to the left with `a`. -/
theorem composition_letter_a (first : UInt16) : composition first 0x61 = none := by
  rw [composition, ucs2precompose_of_not_composes (not_composes_letter_a first)]
  rfl

/-- Letters behind the terminator are stored. -/
theorem length_le_foldAll_letters (us : List UInt16) (m : ℕ) :
    m ≤ (Fold.foldAll composition (us ++ List.replicate m 0x61)).length := by
  have hletters : ∀ c ∈ List.replicate m (0x61 : UInt16), ∀ d, composition d c = none := by
    intro c hc d
    rw [(List.mem_replicate.mp hc).2]
    exact composition_letter_a d
  cases us with
  | cons c us =>
    have hlt := @Fold.length_lt_length_fold _ composition c us _ hletters
    rw [List.length_replicate] at hlt
    exact Nat.le_of_lt hlt
  | nil =>
    cases m with
    | zero => exact Nat.zero_le _
    | succ m =>
      have hlt := @Fold.length_lt_length_fold _ composition 0x61 [] (List.replicate m 0x61)
        fun c hc => hletters c (List.mem_cons_of_mem _ hc)
      rwa [List.length_replicate] at hlt

/-- **Which names stay in `path16pre`.** -/
theorem storesWithin_iff (name : CString) : StoresWithin name ↔ FewRuns name := by
  constructor
  · intro h
    cases hdecode : utf8ToUcs2 name with
    | some units =>
      obtain ⟨units', stored, hunits, hstored, hle⟩ := h []
      obtain rfl : units = units' :=
        Option.some.inj ((utf8ToUcs2_append_zero hdecode []).symm.trans hunits)
      rw [precomposeFrom_eq (utf8ToUcs2_ne_zero hdecode), Option.some.injEq] at hstored
      rw [← hstored] at hle
      have hruns := (Fold.length_foldAll_le_iff shallow_composition units 383).mp
        (Nat.le_of_succ_le_succ hle)
      exact ⟨units, hdecode, hruns⟩
    | none =>
      -- behind the terminator there may be letters
      obtain ⟨us, m, hm, hunits⟩ := utf8ToUcs2_of_none hdecode (show 8 ≤ 392 by decide)
      obtain ⟨units, stored, hunits', hstored, hle⟩ := h (List.replicate 392 0x61)
      obtain rfl : us ++ List.replicate m 0x61 = units :=
        Option.some.inj (hunits.symm.trans hunits')
      rw [precomposeFrom_eq (utf8ToUcs2_ne_zero hunits), Option.some.injEq] at hstored
      have hlong := length_le_foldAll_letters us m
      rw [hstored] at hlong
      have hsize : path16preSize = 384 := rfl
      omega
  · rintro ⟨units, hdecode, hruns⟩ beyond
    have hnonzero := utf8ToUcs2_ne_zero hdecode
    refine ⟨units, _, utf8ToUcs2_append_zero hdecode beyond, precomposeFrom_eq hnonzero, ?_⟩
    exact Nat.succ_le_succ ((Fold.length_foldAll_le_iff shallow_composition units 383).mpr hruns)

/-- **A name of 384 letters is stored behind the end of `path16pre`.** -/
theorem long_name_leaves_path16pre : ¬ ∀ name : CString, (0 : UInt8) ∉ name →
    name.length < AFP_MAX_PATH → StoresWithin name := by
  intro h
  obtain ⟨units, stored, hunits, hstored, hle⟩ := h (List.replicate 384 0x61)
    (fun hmem => absurd (List.mem_replicate.mp hmem).2 (by decide))
    (by rw [List.length_replicate]; decide) []
  obtain rfl : List.replicate 384 0x61 = units :=
    Option.some.inj ((utf8ToUcs2_append_zero (utf8ToUcs2_replicate 384) []).symm.trans hunits)
  rw [precomposeFrom_eq (utf8ToUcs2_ne_zero hunits), Option.some.injEq] at hstored
  have hlong := length_le_foldAll_letters [] 384
  rw [List.nil_append, hstored] at hlong
  exact absurd (hlong.trans_lt hle) (by decide)

end Composition
end Afpfs

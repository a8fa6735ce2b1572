import Afpfs.Server.VolumeList

/-!
# Looking a volume up by its name

`find_volume_by_name()` of `lib/afp.c` decomposes the name it is given and compares the result with
the printable names, which are composed.  The only character it decomposes is `ä`, and no printable
name has it in two parts, so that a volume with an `ä` in its name is never found.

* `not_decomposed`: in what `convert_utf8dec_to_utf8pre()` gives, `a` is never followed by a
  diaeresis.
* `named_of_reply`: the printable names of a reply are such texts, with a terminator.
* `findVolumeByName_eq`: what the search comes to.
* `finds_iff`: the names that are looked up as they should be.
-/

set_option autoImplicit false

namespace Afpfs
namespace VolumeList

open Unicode Codepage

/-! ## The function -/

/-- Whether `strcmp()` of two arrays is 0.  `none` is a read behind one of them. -/
def strcmpIsZero : List UInt8 → List UInt8 → Option Bool
  | a :: s, b :: t => if a = b then if a = 0 then some true else strcmpIsZero s t else some false
  | _, _ => none

/-- The loop: which of the volumes has this name, `some none` if there is none. -/
def findFrom (name : List UInt8) : List AfpVolume → Option (Option ℕ)
  | [] => some none
  | vol :: volumes =>
    (strcmpIsZero name vol.volumeNamePrintable).bind fun equal =>
      if equal then some (some 0) else (findFrom name volumes).map (Option.map (· + 1))

/-- `find_volume_by_name()`: the index of the volume, or `some none` for `NULL`.  `none` when
`converted_volname` is too short for what is stored there, or a string has no terminator. -/
def findVolumeByName (server : AfpServer) (volname : CString) : Option (Option ℕ) :=
  let converted := convertUtf8preToUtf8dec volname
  if AFP_VOLUME_NAME_UTF8_LEN < converted.length then none
  else findFrom (fieldOf converted) (server.volumes.take server.numVolumes.toNat)

/-- The string in the field for the printable name. -/
def AfpVolume.shown (vol : AfpVolume) : CString := vol.volumeNamePrintable.takeWhile (· ≠ 0)

/-- The names that the volumes show. -/
def shownNames (server : AfpServer) : List CString := server.volumes.map AfpVolume.shown

/-- **The lookup is right**: nothing is stored behind the buffer, the volume that is returned shows
the name, and there is none exactly if no volume shows it. -/
def Finds (server : AfpServer) (volname : CString) : Prop :=
  ∃ found, findVolumeByName server volname = some found ∧
    (∀ i, found = some i → (shownNames server)[i]? = some volname) ∧
    (found = none ↔ volname ∉ shownNames server)

/-! ## Decomposing a name -/

/-- How often the name has the two bytes of `ä`. -/
def umlauts : CString → ℕ
  | [] => 0
  | 0xc3 :: 0xa4 :: src => umlauts src + 1
  | _ :: src => umlauts src

theorem length_convert (src : CString) :
    (convertUtf8preToUtf8dec src).length = src.length + umlauts src := by
  fun_induction convertUtf8preToUtf8dec src with
  | case1 => rfl
  | case2 src ih =>
    rw [umlauts]
    simp only [List.length_cons, ih]
    omega
  | case3 b src hne ih =>
    rw [umlauts]
    · simp only [List.length_cons, ih]
      omega
    · exact hne

/-- Without an `ä` the name stays as it is. -/
theorem convert_of_umlauts_eq_zero {src : CString} (h : umlauts src = 0) :
    convertUtf8preToUtf8dec src = src := by
  fun_induction convertUtf8preToUtf8dec src with
  | case1 => rfl
  | case2 src ih =>
    rw [umlauts] at h
    exact absurd h (Nat.succ_ne_zero _)
  | case3 b src hne ih =>
    rw [umlauts] at h
    · rw [ih h]
    · exact hne

/-- With one, its two parts are in the result. -/
theorem infix_convert_of_umlauts_ne_zero {src : CString} (h : umlauts src ≠ 0) :
    [0x61, 0xcc, 0x88] <:+: convertUtf8preToUtf8dec src := by
  fun_induction convertUtf8preToUtf8dec src with
  | case1 => exact absurd rfl h
  | case2 src ih => exact ⟨[], convertUtf8preToUtf8dec src, rfl⟩
  | case3 b src hne ih =>
    rw [umlauts] at h
    · exact List.infix_cons (ih h)
    · exact hne

theorem zero_notMem_convert {src : CString} (h : (0 : UInt8) ∉ src) :
    (0 : UInt8) ∉ convertUtf8preToUtf8dec src := by
  intro hmem
  have hkept : ∀ b ∈ [(0 : UInt8)], Kept b := List.forall_mem_singleton.mpr (by decide)
  exact h ((List.singleton_infix_iff 0 src).mp
    ((infix_convertUtf8preToUtf8dec_iff hkept src).mp ((List.singleton_infix_iff 0 _).mpr hmem)))

/-! ## What the conversion to the printable name gives -/

/-- The bytes of a character are zero only if it is. -/
theorem zero_notMem_encodeUnit {u : UInt16} (hu : u ≠ 0) : (0 : UInt8) ∉ encodeUnit u := by
  have hlt := u.toNat_lt
  have hpos : u.toNat ≠ 0 := fun h => hu (UInt16.toNat_inj.mp h)
  have hne : ∀ n, n < 256 → n ≠ 0 → (0 : UInt8) ≠ .ofNat n := by
    intro n hn h
    exact (@ofNat_ne n 0 hn (by decide) h).symm
  rcases encodeUnit_cases u with ⟨hlow, henc⟩ | ⟨-, hlow, henc⟩ | ⟨-, henc⟩
  · rw [henc, List.mem_singleton]
    exact hne _ (by omega) hpos
  · rw [henc, List.mem_cons, List.mem_singleton, not_or]
    exact ⟨hne _ (by omega) (by omega), hne _ (by omega) (by omega)⟩
  · rw [henc, List.mem_cons, List.mem_cons, List.mem_singleton, not_or, not_or]
    exact ⟨hne _ (by omega) (by omega), hne _ (by omega) (by omega), hne _ (by omega) (by omega)⟩

theorem zero_notMem_ucs2ToUtf8 {us : List UInt16} (hus : ∀ u ∈ us, u ≠ 0) :
    (0 : UInt8) ∉ ucs2ToUtf8 us := by
  intro hmem
  obtain ⟨u, hu, hzero⟩ := List.mem_flatMap.mp hmem
  exact zero_notMem_encodeUnit (hus u hu) hzero

/-- Behind a byte that does not begin it the pattern is in what follows. -/
theorem infix_of_infix_cons {w s : CString} {a b : UInt8} (hne : b ≠ a) (h : a :: w <:+: b :: s) :
    a :: w <:+: s := by
  rcases List.infix_cons_iff.mp h with hprefix | hinfix
  · exact absurd (List.cons_prefix_cons.mp hprefix).1.symm hne
  · exact hinfix

/-- The two bytes of the diaeresis begin only its own encoding. -/
theorem eq_diaeresis_of_bytes {u : UInt16} {s : CString} (h : [0xcc, 0x88] <+: encodeUnit u ++ s) :
    u = 0x308 := by
  have hlt := u.toNat_lt
  rcases encodeUnit_cases u with ⟨hlow, henc⟩ | ⟨-, hlow, henc⟩ | ⟨hhigh, henc⟩
  · rw [henc, List.singleton_append, List.cons_prefix_cons] at h
    exact absurd h.1.symm (@ofNat_ne _ 0xcc (by omega) (by decide) (by omega))
  · rw [henc, List.cons_append, List.singleton_append, List.cons_prefix_cons,
      List.cons_prefix_cons] at h
    have hfirst := congrArg UInt8.toNat h.1
    have hsecond := congrArg UInt8.toNat h.2.1
    rw [toNat_ofNat_byte (by omega)] at hfirst hsecond
    change 204 = _ at hfirst
    change 136 = _ at hsecond
    refine UInt16.toNat_inj.mp ?_
    change _ = 776
    omega
  · rw [henc, List.cons_append, List.cons_prefix_cons] at h
    exact absurd h.1.symm (@ofNat_ne _ 0xcc (by omega) (by decide) (by omega))

/-- The bytes of `a` and a diaeresis stand for these two characters. -/
theorem units_of_bytes {us : List UInt16} (h : [0x61, 0xcc, 0x88] <:+: ucs2ToUtf8 us) :
    [0x61, 0x308] <:+: us := by
  induction us with
  | nil => exact absurd (List.infix_nil.mp h) (List.cons_ne_nil _ _)
  | cons u us ih =>
    have hlt := u.toNat_lt
    rw [ucs2ToUtf8, List.flatMap_cons] at h
    rcases encodeUnit_cases u with ⟨hlow, henc⟩ | ⟨-, hlow, henc⟩ | ⟨hhigh, henc⟩
    · rw [henc, List.singleton_append, List.infix_cons_iff, List.cons_prefix_cons] at h
      rcases h with ⟨hfirst, hrest⟩ | h
      · -- this is the letter, and the next character the diaeresis
        have hnat := congrArg UInt8.toNat hfirst
        rw [toNat_ofNat_byte (by omega)] at hnat
        obtain rfl : u = 0x61 := UInt16.toNat_inj.mp hnat.symm
        cases us with
        | nil => exact absurd (List.prefix_nil.mp hrest) (List.cons_ne_nil _ _)
        | cons v us =>
          rw [List.flatMap_cons] at hrest
          rw [eq_diaeresis_of_bytes hrest]
          exact ⟨[], us, rfl⟩
      · exact List.infix_cons (ih h)
    · rw [henc, List.cons_append, List.singleton_append] at h
      refine List.infix_cons (ih (infix_of_infix_cons ?_ (infix_of_infix_cons ?_ h)))
      · exact @ofNat_ne _ 0x61 (by omega) (by decide) (by omega)
      · exact @ofNat_ne _ 0x61 (by omega) (by decide) (by omega)
    · rw [henc, List.cons_append, List.cons_append, List.singleton_append] at h
      refine List.infix_cons
        (ih (infix_of_infix_cons ?_ (infix_of_infix_cons ?_ (infix_of_infix_cons ?_ h))))
      · exact @ofNat_ne _ 0x61 (by omega) (by decide) (by omega)
      · exact @ofNat_ne _ 0x61 (by omega) (by decide) (by omega)
      · exact @ofNat_ne _ 0x61 (by omega) (by decide) (by omega)

/-- **What has been composed has no decomposed `ä`.** -/
theorem not_decomposed (us : List UInt16) :
    ¬ [0x61, 0xcc, 0x88] <:+: ucs2ToUtf8 (Fold.foldAll composition us) := by
  intro h
  have hchain : [0x61, 0x308].IsChain (Fold.Apart composition) :=
    List.IsChain.infix (Fold.isChain_foldAll closed_composition us) (units_of_bytes h)
  have hapart : Fold.Apart composition 0x61 0x308 := List.isChain_pair.mp hchain
  rw [Fold.Apart, composition, ucs2precompose_a_diaeresis, Option.bind_some] at hapart
  exact absurd hapart (by decide)

/-- A string that can be the printable name of a volume. -/
structure Composed (name : CString) : Prop where
  fits : name.length < AFP_VOLUME_NAME_UTF8_LEN
  zero_notMem : (0 : UInt8) ∉ name
  no_decomposed : ¬ [0x61, 0xcc, 0x88] <:+: name

/-- The field of the printable name has a composed string. -/
def Named (vol : AfpVolume) : Prop := ∃ name, Composed name ∧ vol.volumeNamePrintable = fieldOf name

theorem exists_composed_of_printableOf {name printable : List UInt8}
    (h : printableOf name = some printable) :
    ∃ dest, Composed dest ∧ printable = fieldOf dest := by
  obtain ⟨dest, hconvert, hfit⟩ := Option.bind_eq_some_iff.mp h
  obtain ⟨hlt, heq⟩ := Option.ite_none_right_eq_some.mp hfit
  obtain ⟨us, hdecode, hconvert⟩ := Option.bind_eq_some_iff.mp hconvert
  have hus := utf8ToUcs2_ne_zero hdecode
  obtain ⟨path16pre, hpre, hstored⟩ := Option.bind_eq_some_iff.mp hconvert
  obtain rfl : Fold.foldAll composition us = path16pre :=
    Option.some.inj ((Composition.precomposeFrom_eq hus).symm.trans hpre)
  obtain ⟨-, hdest⟩ := Option.ite_none_right_eq_some.mp hstored
  obtain rfl := Option.some.inj hdest
  exact ⟨_, ⟨hlt, zero_notMem_ucs2ToUtf8 (Composition.foldAll_ne_zero hus),
    not_decomposed us⟩, (Option.some.inj heq).symm⟩

theorem named_of_readVolume {avNumber : ℕ} (hnew : ¬ avNumber < 30) {bytes p : List UInt8}
    {vol : AfpVolume} (h : readVolume avNumber bytes = some (vol, p)) : Named vol := by
  cases bytes with
  | nil => exact absurd h.symm (Option.some_ne_none _)
  | cons flags bytes =>
    rw [readVolume, if_neg hnew] at h
    obtain ⟨⟨name, len⟩, -, h⟩ := Option.bind_eq_some_iff.mp h
    obtain ⟨printable, hprintable, heq⟩ := Option.map_eq_some_iff.mp h
    obtain ⟨rfl, -⟩ := Prod.mk.inj heq
    exact exists_composed_of_printableOf hprintable

theorem named_of_readVolumes {avNumber : ℕ} (hnew : ¬ avNumber < 30) {n : ℕ} {bytes : List UInt8}
    {vols : List AfpVolume} (h : readVolumes avNumber n bytes = some vols) :
    vols.length = n ∧ ∀ vol ∈ vols, Named vol := by
  induction n generalizing bytes vols with
  | zero =>
    obtain rfl : [] = vols := Option.some.inj h
    exact ⟨rfl, fun _ hmem => absurd hmem List.not_mem_nil⟩
  | succ n ih =>
    rw [readVolumes] at h
    obtain ⟨⟨vol, p⟩, hvol, h⟩ := Option.bind_eq_some_iff.mp h
    obtain ⟨vols, hvols, rfl⟩ := Option.map_eq_some_iff.mp h
    obtain ⟨hlen, hall⟩ := ih hvols
    exact ⟨congrArg (· + 1) hlen,
      List.forall_mem_cons.mpr ⟨named_of_readVolume hnew hvol, hall⟩⟩

/-- **The volumes of a reply from AFP 3.0 on** have printable names that are composed. -/
theorem named_of_reply {avNumber : ℕ} (hnew : ¬ avNumber < 30) {msg : List UInt8} {size : ℕ}
    {before server : AfpServer}
    (h : afpGetsrvrparmsReply avNumber msg size before = some (0, server)) :
    server.volumes.length = server.numVolumes.toNat ∧ ∀ vol ∈ server.volumes, Named vol := by
  rw [afpGetsrvrparmsReply] at h
  split_ifs at h with hsize
  · obtain ⟨hrc, -⟩ := Prod.mk.inj (Option.some.inj h)
    exact absurd hrc (by decide)
  · obtain ⟨numvolumes, -, h⟩ := Option.bind_eq_some_iff.mp h
    obtain ⟨vols, hvols, heq⟩ := Option.map_eq_some_iff.mp h
    obtain ⟨-, rfl⟩ := Prod.mk.inj heq
    exact named_of_readVolumes hnew hvols

/-! ## The search -/

theorem takeWhile_fieldOf {name : List UInt8} (h : (0 : UInt8) ∉ name) :
    (fieldOf name).takeWhile (· ≠ 0) = name := by
  have hall : ∀ b ∈ name, decide (b ≠ 0) = true :=
    fun b hb => decide_eq_true fun hzero => h (hzero ▸ hb)
  rw [fieldOf, List.takeWhile_append_of_pos hall, List.takeWhile_replicate]
  exact List.append_nil name

/-- `strcmp()` of two strings, the second one with a terminator. -/
theorem strcmpIsZero_of {s t : List UInt8} (hs : (0 : UInt8) ∉ s) (ht : (0 : UInt8) ∉ t) {m n : ℕ}
    (hlen : t.length < s.length + m) (hn : 0 < n) :
    strcmpIsZero (s ++ List.replicate m 0) (t ++ List.replicate n 0) = some (decide (s = t)) := by
  obtain ⟨n, rfl⟩ := Nat.exists_eq_succ_of_ne_zero hn.ne'
  induction t generalizing s m with
  | nil =>
    cases s with
    | nil =>
      obtain ⟨m, rfl⟩ := Nat.exists_eq_succ_of_ne_zero (Nat.ne_of_gt (by simpa using hlen))
      rfl
    | cons a s =>
      have ha : a ≠ 0 := fun h => hs (h ▸ List.mem_cons_self)
      rw [List.cons_append, List.nil_append, List.replicate_succ, strcmpIsZero, if_neg ha,
        decide_eq_false (List.cons_ne_nil a s)]
  | cons b t ih =>
    have hb : b ≠ 0 := fun h => ht (h ▸ List.mem_cons_self)
    have ht : (0 : UInt8) ∉ t := fun h => ht (List.mem_cons_of_mem b h)
    cases s with
    | nil =>
      obtain ⟨m, rfl⟩ := Nat.exists_eq_succ_of_ne_zero
        (show m ≠ 0 by simp only [List.length_cons, List.length_nil] at hlen; omega)
      rw [List.nil_append, List.replicate_succ, List.cons_append, strcmpIsZero, if_neg hb.symm,
        decide_eq_false (List.cons_ne_nil b t).symm]
    | cons a s =>
      have ha : a ≠ 0 := fun h => hs (h ▸ List.mem_cons_self)
      have hs : (0 : UInt8) ∉ s := fun h => hs (List.mem_cons_of_mem a h)
      rw [List.cons_append, List.cons_append, strcmpIsZero]
      by_cases heq : a = b
      · rw [if_pos heq, if_neg ha, ih hs ht (by simp only [List.length_cons] at hlen; omega), heq]
        simp
      · rw [if_neg heq, decide_eq_false fun h => heq (List.cons.inj h).1]

/-- The search finds the first volume that shows the name. -/
theorem findFrom_eq {name : CString} (hzero : (0 : UInt8) ∉ name)
    (hlen : name.length ≤ AFP_VOLUME_NAME_UTF8_LEN) {volumes : List AfpVolume}
    (hnamed : ∀ vol ∈ volumes, Named vol) :
    findFrom (fieldOf name) volumes = some ((volumes.map AfpVolume.shown).idxOf? name) := by
  induction volumes with
  | nil => rfl
  | cons vol volumes ih =>
    obtain ⟨⟨printable, hcomposed, hfield⟩, hnamed⟩ := List.forall_mem_cons.mp hnamed
    have hshown : vol.shown = printable := by
      rw [AfpVolume.shown, hfield, takeWhile_fieldOf hcomposed.zero_notMem]
    have hfits := hcomposed.fits
    have hequal : strcmpIsZero (fieldOf name) vol.volumeNamePrintable =
        some (decide (name = printable)) := by
      rw [hfield]
      exact strcmpIsZero_of hzero hcomposed.zero_notMem (by omega) (by omega)
    rw [findFrom, hequal, Option.bind_some, List.map_cons, List.idxOf?_cons, hshown, ih hnamed]
    by_cases heq : name = printable
    · rw [if_pos (decide_eq_true heq), if_pos (by rw [heq]; exact beq_self_eq_true _)]
    · rw [if_neg (by simpa using heq), if_neg (by simpa using Ne.symm heq), Option.map_some]

/-- **What the lookup comes to**: the first volume that shows the decomposed name. -/
theorem findVolumeByName_eq {server : AfpServer}
    (hcount : server.volumes.length = server.numVolumes.toNat)
    (hnamed : ∀ vol ∈ server.volumes, Named vol) {volname : CString}
    (hvolname : (0 : UInt8) ∉ volname) :
    findVolumeByName server volname =
      if AFP_VOLUME_NAME_UTF8_LEN < volname.length + umlauts volname then none
      else some ((shownNames server).idxOf? (convertUtf8preToUtf8dec volname)) := by
  rw [findVolumeByName, length_convert, ← hcount, List.take_length]
  split_ifs with hlong
  · rfl
  · refine findFrom_eq (zero_notMem_convert hvolname) ?_ hnamed
    rw [length_convert]
    exact Nat.not_lt.mp hlong

/-- A printable name has no decomposed `ä`. -/
theorem convert_notMem_shownNames {server : AfpServer} (hnamed : ∀ vol ∈ server.volumes, Named vol)
    {volname : CString} (h : umlauts volname ≠ 0) :
    convertUtf8preToUtf8dec volname ∉ shownNames server := by
  intro hmem
  obtain ⟨vol, hvol, hshown⟩ := List.mem_map.mp hmem
  obtain ⟨name, hcomposed, hfield⟩ := hnamed vol hvol
  rw [AfpVolume.shown, hfield, takeWhile_fieldOf hcomposed.zero_notMem] at hshown
  rw [hshown] at hcomposed
  exact hcomposed.no_decomposed (infix_convert_of_umlauts_ne_zero h)

/-- **When the lookup is right**, in the volumes of any reply from AFP 3.0 on: the name fits the
buffer when it is decomposed, and it has no `ä` if a volume shows it. -/
theorem finds_iff {avNumber : ℕ} (hnew : ¬ avNumber < 30) {msg : List UInt8} {size : ℕ}
    {before server : AfpServer}
    (hreply : afpGetsrvrparmsReply avNumber msg size before = some (0, server))
    {volname : CString} (hvolname : (0 : UInt8) ∉ volname) :
    Finds server volname ↔
      volname.length + umlauts volname ≤ AFP_VOLUME_NAME_UTF8_LEN ∧
        (volname ∈ shownNames server → umlauts volname = 0) := by
  obtain ⟨hcount, hnamed⟩ := named_of_reply hnew hreply
  rw [Finds, findVolumeByName_eq hcount hnamed hvolname]
  split_ifs with hlong
  · refine iff_of_false ?_ fun h => absurd h.1 (Nat.not_le.mpr hlong)
    rintro ⟨found, hfound, -⟩
    cases hfound
  · have hfits := Nat.not_lt.mp hlong
    by_cases humlauts : umlauts volname = 0
    · rw [convert_of_umlauts_eq_zero humlauts]
      refine iff_of_true ⟨_, rfl, ?_, List.idxOf?_eq_none_iff⟩ ⟨hfits, fun _ => humlauts⟩
      intro i hi
      obtain ⟨hlt, hget, -⟩ := List.idxOf?_eq_some_iff.mp hi
      rw [List.getElem?_eq_getElem hlt]
      exact congrArg some hget
    · have hnone := List.idxOf?_eq_none_iff.mpr (convert_notMem_shownNames hnamed humlauts)
      rw [hnone]
      constructor
      · rintro ⟨found, hfound, -, hnull⟩
        exact ⟨hfits, fun hmem => absurd hmem (hnull.mp (Option.some.inj hfound).symm)⟩
      · rintro ⟨-, hshown⟩
        refine ⟨none, rfl, fun i hi => absurd hi.symm (Option.some_ne_none i), ?_⟩
        exact iff_of_true rfl fun hmem => humlauts (hshown hmem)

/-! ## A volume of one text -/

/-- The printable name of a text is the text, composed. -/
theorem printableOf_utf8 {cs : List Char} (hcs : ∀ c ∈ cs, InBmp c)
    (hlen : (utf8 cs).length < AFP_VOLUME_NAME_UTF8_LEN) :
    printableOf (fieldOf (utf8 cs)) =
      some (fieldOf (ucs2ToUtf8 (Fold.foldAll composition (cs.map unit)))) := by
  have hdecode : utf8ToUcs2 (fieldOf (utf8 cs) ++ List.replicate AFP_VOLUME_NAME_UTF8_LEN 0) =
      some (cs.map unit) := by
    obtain ⟨n, hn⟩ := Nat.exists_eq_succ_of_ne_zero (Nat.sub_pos_of_lt hlen).ne'
    rw [fieldOf, hn, List.replicate_succ, List.append_assoc, List.cons_append]
    exact utf8ToUcs2_append_zero (utf8ToUcs2_utf8 hcs) _
  refine printableOf_of_units hdecode ?_
  rwa [ucs2ToUtf8_map_unit hcs]

/-- A server with one volume, as it is after the reply. -/
def serverOf (cs : List Char) : AfpServer :=
  ⟨adDateToUnix [0, 0, 0, 0], 1, [⟨0, fieldOf (utf8 cs),
    fieldOf (ucs2ToUtf8 (Fold.foldAll composition (cs.map unit)))⟩]⟩

theorem reply_serverOf {cs : List Char} (hcs : ∀ c ∈ cs, InBmp c)
    (hlen : (utf8 cs).length < AFP_VOLUME_NAME_UTF8_LEN) {size : ℕ} (hsize : 21 ≤ size) :
    afpGetsrvrparmsReply 30 (reply (List.replicate 16 0) 0 [⟨0, utf8 cs⟩] ++ []) size
      ⟨0, 0, []⟩ = some (0, serverOf cs) := by
  obtain ⟨hcount, hdrop⟩ := @reply_append (List.replicate 16 0) List.length_replicate 0
    [⟨0, utf8 cs⟩] []
  have hvolumes : readVolumes 30 1 ([(⟨0, utf8 cs⟩ : Entry)].flatMap Entry.encode ++ []) =
      some (serverOf cs).volumes := by
    rw [List.flatMap_singleton, readVolumes, readVolume_new (by decide) hlen.le,
      printableOf_utf8 hcs hlen]
    rfl
  rw [afpGetsrvrparmsReply, if_neg (Nat.not_lt.mpr hsize), hcount, Option.bind_some, hdrop]
  exact congrArg (Option.map _) hvolumes

/-- A plain name. -/
theorem finds_iff_of_letter :
    afpGetsrvrparmsReply 30 (reply (List.replicate 16 0) 0 [⟨0, utf8 ['H']⟩] ++ []) 24 ⟨0, 0, []⟩ =
        some (0, serverOf ['H']) ∧
      (Finds (serverOf ['H']) [0x48] ↔ [(0x48 : UInt8)].length + umlauts [0x48] ≤
        AFP_VOLUME_NAME_UTF8_LEN ∧
          ([0x48] ∈ shownNames (serverOf ['H']) → umlauts [0x48] = 0)) :=
  have hreply := @reply_serverOf ['H'] (by simp [InBmp]) (by decide) 24 (by decide)
  ⟨hreply, finds_iff (by decide) hreply (by decide)⟩

/-- The server has the volume `ä`, and a lookup of its printable name comes to `NULL`; and a name of
256 bytes is stored behind the end of `converted_volname`. -/
theorem umlaut_is_not_found :
    afpGetsrvrparmsReply 30 (reply (List.replicate 16 0) 0 [⟨0, utf8 ['a', '\u0308']⟩] ++ []) 26
        ⟨0, 0, []⟩ = some (0, serverOf ['a', '\u0308']) ∧
      shownNames (serverOf ['a', '\u0308']) = [[0xc3, 0xa4]] ∧
      findVolumeByName (serverOf ['a', '\u0308']) [0xc3, 0xa4] = some none ∧
      ¬ Finds (serverOf ['a', '\u0308']) [0xc3, 0xa4] ∧
      findVolumeByName (serverOf ['a', '\u0308']) (List.replicate 256 0x61) = none := by
  have hreply := @reply_serverOf ['a', '\u0308'] (by simp [InBmp]) (by decide) 26 (by decide)
  obtain ⟨hcount, hnamed⟩ := named_of_reply (by decide) hreply
  have hunits : ['a', '\u0308'].map unit = [0x61, 0x308] := by decide
  have hjoin : composition 0x61 0x308 = some 0xe4 := by
    rw [composition, ucs2precompose_a_diaeresis]
    decide
  have hshown : shownNames (serverOf ['a', '\u0308']) = [[0xc3, 0xa4]] := by
    rw [shownNames, serverOf, hunits, Fold.foldAll, Fold.fold_cons_of_some hjoin]
    decide
  have hfind : findVolumeByName (serverOf ['a', '\u0308']) [0xc3, 0xa4] = some none := by
    rw [findVolumeByName_eq hcount hnamed (by decide), hshown]
    decide
  refine ⟨hreply, hshown, hfind, ?_, ?_⟩
  · rintro ⟨found, hfound, -, hnull⟩
    obtain rfl := Option.some.inj (hfind.symm.trans hfound)
    rw [hshown] at hnull
    exact hnull.mp rfl List.mem_cons_self
  · have hnot : (0 : UInt8) ∉ List.replicate 256 0x61 := fun hmem =>
      absurd (List.eq_of_mem_replicate hmem) (by decide)
    rw [findVolumeByName_eq hcount hnamed hnot, if_pos]
    rw [List.length_replicate]
    exact Nat.lt_of_lt_of_le (by decide) (Nat.le_add_right 256 _)

end VolumeList
end Afpfs

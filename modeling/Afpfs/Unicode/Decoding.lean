import Afpfs.Unicode.Codec
import Mathlib.Data.List.GetD
import Mathlib.Tactic.SplitIfs

/-!
# Decoding arbitrary bytes

The comments of `lib/unicode.c` say what `UTF8toUCS2()` makes of any string (`Documented`): a `~`
for a character beyond 0xffff, and a `*` for an illegal code, where `mbStrLen()` counts illegal
bytes as one character per byte.

The functions trust the first byte of a character.  A byte that cannot be a first one ends the
string, and otherwise as many bytes are taken as it announces.

* `length_le_of_documented`: so they never come to more characters than documented, and to fewer
  from within the string on.
* `decodes_iff`: they do what is documented exactly for strings that are UTF-8.
-/

set_option autoImplicit false

namespace Afpfs
namespace Unicode

/-! ## What is documented -/

/-- The unit for a character. -/
def documentedUnit (c : Char) : UInt16 :=
  if c.toNat < 0x10000 then unit c else .ofNat '~'.toNat

/-- The units for a string: one for each character, and a `*` for each byte with which no character
begins. -/
inductive Documented : CString → List UInt16 → Prop
  | nil : Documented [] []
  | char (c : Char) {s : CString} {us : List UInt16} (h : Documented s us) :
      Documented (String.utf8EncodeChar c ++ s) (documentedUnit c :: us)
  | illegal (b : UInt8) {s : CString} {us : List UInt16}
      (hb : ∀ c, ¬ String.utf8EncodeChar c <+: b :: s) (h : Documented s us) :
      Documented (b :: s) (.ofNat '*'.toNat :: us)

/-- The whole string is decoded as documented, without a look behind its terminator, and the units
and theirs fit the allocation. -/
def Decodes (s : CString) : Prop :=
  ∃ us, utf8ToUcs2 s = some us ∧ Documented s us ∧ allocated s = some (us.length + 1)

/-! ## The first byte of a character -/

theorem mbCharLen_tail : ∀ q : Fin 64, mbCharLen (.ofNat (q + 0x80)) = 0 := by decide

theorem mbCharLen_four : ∀ q : Fin 8, mbCharLen (.ofNat (q + 0xf0)) = 4 := by decide

theorem mbCharLen_of_mod (n : ℕ) : mbCharLen (.ofNat (n % 64 + 0x80)) = 0 :=
  mbCharLen_tail ⟨n % 64, Nat.mod_lt n (by decide)⟩

theorem leadingBits_le (c : UInt8) (k : ℕ) : leadingBits c k ≤ k := by
  induction k with
  | zero => exact Nat.le_refl 0
  | succ k ih =>
    rw [leadingBits]
    split
    · exact Nat.succ_le_succ ih
    · exact Nat.zero_le _

/-- At most 8 bytes are taken for a character. -/
theorem mbCharLen_le (c : UInt8) : mbCharLen c ≤ 8 := by
  have hle := leadingBits_le c 8
  rw [mbCharLen]
  split
  · split <;> omega
  · exact Nat.zero_le 8

set_option maxRecDepth 2000 in
/-- A byte that announces itself only is an ASCII character. -/
theorem lt_of_mbCharLen_eq_one : ∀ q : Fin 256, mbCharLen (.ofNat q) = 1 → q.val < 0x80 := by
  decide

set_option maxRecDepth 2000 in
theorem utf8EncodeChar_ascii :
    ∀ q : Fin 128, String.utf8EncodeChar (Char.ofNat q) = [.ofNat q] := by
  decide

/-- A character beyond 0xffff takes four bytes. -/
theorem utf8EncodeChar_of_le {c : Char} (hc : 0x10000 ≤ c.toNat) :
    String.utf8EncodeChar c = [.ofNat (c.toNat / 262144 % 8 + 0xf0),
      .ofNat (c.toNat / 4096 % 64 + 0x80), .ofNat (c.toNat / 64 % 64 + 0x80),
      .ofNat (c.toNat % 64 + 0x80)] := by
  have hval : c.val.toNat = c.toNat := rfl
  unfold String.utf8EncodeChar
  simp only [hval]
  rw [if_neg (by omega), if_neg (by omega), if_neg (by omega)]

/-- **A character of the string.**  Its first byte announces its length, no other byte of it can be
a first one, and it is decoded as documented. -/
theorem decode_utf8EncodeChar {c : Char} (hc : c.toNat ≠ 0) (s : CString) :
    ∃ b l, String.utf8EncodeChar c = b :: l ∧ mbCharLen b = l.length + 1 ∧
      (∀ x ∈ l, mbCharLen x = 0) ∧ decodeUnit (l.length + 1) (b :: l ++ s) = documentedUnit c := by
  by_cases hlarge : 0x10000 ≤ c.toNat
  · refine ⟨_, _, utf8EncodeChar_of_le hlarge, ?_, ?_, ?_⟩
    · exact mbCharLen_four ⟨c.toNat / 262144 % 8, Nat.mod_lt _ (by decide)⟩
    · exact List.forall_mem_cons.mpr ⟨mbCharLen_of_mod _, List.forall_mem_cons.mpr
        ⟨mbCharLen_of_mod _, List.forall_mem_singleton.mpr (mbCharLen_of_mod _)⟩⟩
    · rw [documentedUnit, if_neg (Nat.not_lt.mpr hlarge)]
      rfl
  · have hbmp : InBmp c := ⟨hc, Nat.not_le.mp hlarge⟩
    obtain ⟨b, l, henc, hlen, hunit⟩ := decode_encodeUnit (unit_ne_zero hbmp) s
    rw [encodeUnit_unit hbmp] at henc
    refine ⟨b, l, henc, hlen, ?_, ?_⟩
    · rcases utf8EncodeChar_cases hbmp with ⟨-, hform⟩ | ⟨-, -, hform⟩ | ⟨-, hform⟩ <;>
        obtain ⟨-, rfl⟩ := List.cons.inj (henc.symm.trans hform)
      · exact fun _ h => absurd h List.not_mem_nil
      · exact List.forall_mem_singleton.mpr (mbCharLen_of_mod _)
      · exact List.forall_mem_cons.mpr
          ⟨mbCharLen_of_mod _, List.forall_mem_singleton.mpr (mbCharLen_of_mod _)⟩
    · rw [hunit, documentedUnit, if_pos hbmp.2]

/-! ## Both ways -/

/-- A character is taken off the front. -/
theorem utf8ToUcs2_utf8EncodeChar {c : Char} (hc : c.toNat ≠ 0) (s : CString) :
    utf8ToUcs2 (String.utf8EncodeChar c ++ s) =
      (utf8ToUcs2 s).map (documentedUnit c :: ·) := by
  obtain ⟨b, l, henc, hlen, -, hunit⟩ := decode_utf8EncodeChar hc s
  rw [henc, List.cons_append, utf8ToUcs2, hlen, if_neg (by omega),
    if_neg (by rw [List.length_append]; omega), ← List.cons_append, hunit, Nat.add_sub_cancel,
    List.drop_left]

/-- From within a character on nothing is decoded. -/
theorem utf8ToUcs2_drop_utf8EncodeChar {c : Char} (hc : c.toNat ≠ 0) {s : CString} {k : ℕ}
    (hpos : 0 < k) (hlt : k < (String.utf8EncodeChar c).length) :
    utf8ToUcs2 ((String.utf8EncodeChar c ++ s).drop k) = some [] := by
  obtain ⟨b, l, henc, -, htail, -⟩ := decode_utf8EncodeChar hc s
  obtain ⟨j, rfl⟩ : ∃ j, k = j + 1 := ⟨k - 1, by omega⟩
  rw [henc, List.length_cons] at hlt
  have hj : j < l.length := Nat.lt_of_succ_lt_succ hlt
  rw [henc, List.cons_append, List.drop_succ_cons, List.drop_append_of_le_length (Nat.le_of_lt hj),
    List.drop_eq_getElem_cons hj, List.cons_append, utf8ToUcs2,
    if_pos (htail _ (List.getElem_mem hj))]

theorem toNat_ne_zero_of_notMem {c : Char} {s : CString}
    (hs : (0 : UInt8) ∉ String.utf8EncodeChar c ++ s) : c.toNat ≠ 0 := by
  intro hzero
  obtain rfl : c = Char.ofNat 0 := Char.toNat_inj.mp hzero
  exact hs List.mem_cons_self

/-- A byte that announces itself only is a character. -/
theorem utf8EncodeChar_prefix_of_mbCharLen {b : UInt8} (h : mbCharLen b = 1) (s : CString) :
    ∃ c, String.utf8EncodeChar c <+: b :: s := by
  have hlt : b.toNat < 128 := by
    refine lt_of_mbCharLen_eq_one ⟨b.toNat, b.toNat_lt⟩ ?_
    rwa [UInt8.ofNat_toNat]
  have henc := utf8EncodeChar_ascii ⟨b.toNat, hlt⟩
  rw [UInt8.ofNat_toNat] at henc
  exact ⟨Char.ofNat b.toNat, henc ▸ ⟨s, rfl⟩⟩

/-- With an illegal byte there are fewer. -/
theorem length_lt_of_illegal {b : UInt8} {s : CString} {us : List UInt16}
    (hb : ∀ c, ¬ String.utf8EncodeChar c <+: b :: s)
    (hrest : ∀ k vs, 0 < k → k ≤ s.length → utf8ToUcs2 (s.drop k) = some vs →
      vs.length < us.length) {vs : List UInt16} (hdecode : utf8ToUcs2 (b :: s) = some vs) :
    vs.length < us.length + 1 := by
  rw [utf8ToUcs2] at hdecode
  by_cases hzero : mbCharLen b = 0
  · rw [if_pos hzero] at hdecode
    rw [← Option.some.inj hdecode]
    exact Nat.succ_pos _
  · rw [if_neg hzero] at hdecode
    split at hdecode
    · exact absurd hdecode.symm (Option.some_ne_none _)
    · next hle =>
      obtain ⟨vs, hvs, rfl⟩ := Option.map_eq_some_iff.mp hdecode
      have hone : mbCharLen b ≠ 1 := fun hone =>
        (utf8EncodeChar_prefix_of_mbCharLen hone s).elim hb
      exact Nat.succ_lt_succ (hrest _ vs (by omega) (by omega) hvs)

/-- **Never more characters than documented**, and fewer from within the string on. -/
theorem length_le_of_documented {s : CString} {us : List UInt16} (h : Documented s us)
    (hs : (0 : UInt8) ∉ s) {k : ℕ} (hk : k ≤ s.length) {vs : List UInt16}
    (hdecode : utf8ToUcs2 (s.drop k) = some vs) :
    vs.length ≤ us.length ∧ (0 < k → vs.length < us.length) := by
  induction h generalizing k vs with
  | nil =>
    obtain rfl := Nat.le_zero.mp hk
    rw [List.drop_nil, utf8ToUcs2] at hdecode
    rw [← Option.some.inj hdecode]
    exact ⟨Nat.le_refl _, fun h => absurd h (Nat.lt_irrefl 0)⟩
  | @char c s us h ih =>
    have hc := toNat_ne_zero_of_notMem hs
    have hrest : (0 : UInt8) ∉ s := fun hmem => hs (List.mem_append_right _ hmem)
    rw [List.length_cons]
    rcases Nat.lt_or_ge k (String.utf8EncodeChar c).length with hlt | hge
    · rcases Nat.eq_zero_or_pos k with rfl | hpos
      · rw [List.drop_zero, utf8ToUcs2_utf8EncodeChar hc] at hdecode
        obtain ⟨vs, hvs, rfl⟩ := Option.map_eq_some_iff.mp hdecode
        have hle := (@ih hrest 0 (Nat.zero_le _) vs hvs).1
        exact ⟨Nat.succ_le_succ hle, fun h => absurd h (Nat.lt_irrefl 0)⟩
      · rw [utf8ToUcs2_drop_utf8EncodeChar hc hpos hlt] at hdecode
        rw [← Option.some.inj hdecode]
        exact ⟨Nat.zero_le _, fun _ => Nat.succ_pos _⟩
    · rw [List.drop_append, List.drop_eq_nil_of_le hge, List.nil_append] at hdecode
      rw [List.length_append] at hk
      have hle := (ih hrest (by omega) hdecode).1
      exact ⟨Nat.le_succ_of_le hle, fun _ => Nat.lt_succ_of_le hle⟩
  | @illegal b s us hb h ih =>
    have hrest : (0 : UInt8) ∉ s := fun hmem => hs (List.mem_cons_of_mem b hmem)
    rw [List.length_cons]
    cases k with
    | succ k =>
      rw [List.drop_succ_cons] at hdecode
      have hle := (ih hrest (Nat.le_of_succ_le_succ hk) hdecode).1
      exact ⟨Nat.le_succ_of_le hle, fun _ => Nat.lt_succ_of_le hle⟩
    | zero =>
      rw [List.drop_zero] at hdecode
      have hlt := length_lt_of_illegal hb (fun k vs hpos hle hvs => (ih hrest hle hvs).2 hpos) hdecode
      exact ⟨Nat.le_of_lt hlt, fun h => absurd h (Nat.lt_irrefl 0)⟩

/-- A string that comes to as many characters as documented is UTF-8. -/
theorem exists_utf8_of_length_eq {s : CString} {us : List UInt16} (h : Documented s us)
    (hs : (0 : UInt8) ∉ s) {vs : List UInt16} (hdecode : utf8ToUcs2 s = some vs)
    (hlen : vs.length = us.length) : ∃ cs, s = utf8 cs := by
  induction h generalizing vs with
  | nil => exact ⟨[], rfl⟩
  | @char c s us h ih =>
    have hc := toNat_ne_zero_of_notMem hs
    rw [utf8ToUcs2_utf8EncodeChar hc] at hdecode
    obtain ⟨vs, hvs, rfl⟩ := Option.map_eq_some_iff.mp hdecode
    obtain ⟨cs, rfl⟩ := ih (fun hmem => hs (List.mem_append_right _ hmem)) hvs
      (Nat.succ.inj hlen)
    exact ⟨c :: cs, rfl⟩
  | @illegal b s us hb h ih =>
    have hrest : (0 : UInt8) ∉ s := fun hmem => hs (List.mem_cons_of_mem b hmem)
    have hlt := length_lt_of_illegal hb
      (fun k vs hpos hle hvs => (length_le_of_documented h hrest hle hvs).2 hpos) hdecode
    exact absurd hlen (Nat.ne_of_lt hlt)

/-- A text is decoded as documented. -/
theorem documented_utf8 (cs : List Char) : Documented (utf8 cs) (cs.map documentedUnit) := by
  induction cs with
  | nil => exact .nil
  | cons c cs ih => exact .char c ih

theorem utf8ToUcs2_of_utf8 {cs : List Char} (hs : (0 : UInt8) ∉ utf8 cs) :
    utf8ToUcs2 (utf8 cs) = some (cs.map documentedUnit) := by
  induction cs with
  | nil => rw [utf8, List.flatMap_nil, utf8ToUcs2, List.map_nil]
  | cons c cs ih =>
    rw [utf8, List.flatMap_cons, ← utf8] at hs ⊢
    have hrest := ih fun hmem => hs (List.mem_append_right _ hmem)
    rw [utf8ToUcs2_utf8EncodeChar (toNat_ne_zero_of_notMem hs), hrest]
    rfl

/-- **Which strings are decoded as documented.** -/
theorem decodes_iff (s : CString) (hs : (0 : UInt8) ∉ s) : Decodes s ↔ ∃ cs, s = utf8 cs := by
  constructor
  · rintro ⟨us, hdecode, hdocumented, -⟩
    exact exists_utf8_of_length_eq hdocumented hs hdecode rfl
  · rintro ⟨cs, rfl⟩
    have hdecode := utf8ToUcs2_of_utf8 hs
    refine ⟨_, hdecode, documented_utf8 cs, ?_⟩
    rw [allocated, ← length_utf8ToUcs2, hdecode]
    rfl

/-- A character of four bytes. -/
theorem decodes_iff_of_astral :
    Decodes (utf8 ['a', '𝄞']) ↔ ∃ cs, utf8 ['a', '𝄞'] = utf8 cs :=
  decodes_iff (utf8 ['a', '𝄞']) (by decide)

/-- **A name is dropped from its first illegal byte on.** -/
theorem illegal_byte_drops_the_name : ¬ ∀ s : CString, (0 : UInt8) ∉ s → Decodes s := by
  intro h
  obtain ⟨us, hdecode, hdocumented, -⟩ := h [0x80, 0x61] (by decide)
  rw [utf8ToUcs2, if_pos (by decide), Option.some.injEq] at hdecode
  rw [← hdecode] at hdocumented
  have hend : utf8ToUcs2 (([0x80, 0x61] : CString).drop 2) = some [] := by
    show utf8ToUcs2 [] = some []
    rw [utf8ToUcs2]
  have hlt := (length_le_of_documented hdocumented (by decide) (Nat.le_refl 2) hend).2 (by decide)
  exact absurd hlt (Nat.lt_irrefl 0)

/-! ## What is behind the terminator -/

/-- A character is decoded from its own bytes. -/
theorem decodeUnit_append {n : ℕ} {s : CString} (hn : n ≤ s.length) (t : CString) :
    decodeUnit n (s ++ t) = decodeUnit n s := by
  have hbyte : ∀ i, i < n → (s ++ t).getD i 0 = s.getD i 0 := fun i hi =>
    List.getD_append _ _ _ _ (Nat.lt_of_lt_of_le hi hn)
  unfold decodeUnit
  simp only
  split
  · rw [hbyte 0 (by decide)]
  · rw [hbyte 0 (by decide), hbyte 1 (by decide)]
  · rw [hbyte 0 (by decide), hbyte 1 (by decide), hbyte 2 (by decide)]
  · rfl

/-- Where the string is not left, what is behind its terminator does not matter. -/
theorem utf8ToUcs2_append_zero {s : CString} {us : List UInt16} (h : utf8ToUcs2 s = some us)
    (beyond : CString) : utf8ToUcs2 (s ++ 0 :: beyond) = some us := by
  fun_induction utf8ToUcs2 s generalizing us with
  | case1 => rw [List.nil_append, utf8ToUcs2, if_pos (by decide), h]
  | case2 c s hzero => rw [List.cons_append, utf8ToUcs2, if_pos hzero, h]
  | case3 c s hzero hover => exact absurd h.symm (Option.some_ne_none _)
  | case4 c s hzero hover ih =>
    obtain ⟨rest, hrest, rfl⟩ := Option.map_eq_some_iff.mp h
    have hle : mbCharLen c ≤ (c :: s).length := Nat.not_lt.mp hover
    have hover' : ¬ (s ++ 0 :: beyond).length + 1 < mbCharLen c := by
      rw [List.length_append]
      omega
    have hdrop : (s ++ 0 :: beyond).drop (mbCharLen c - 1) =
        s.drop (mbCharLen c - 1) ++ 0 :: beyond :=
      List.drop_append_of_le_length (by rw [List.length_cons] at hle; omega)
    rw [List.cons_append, utf8ToUcs2, if_neg hzero, if_neg hover', hdrop, ih hrest,
      ← List.cons_append, decodeUnit_append hle]
    rfl

theorem utf8ToUcs2_replicate (n : ℕ) :
    utf8ToUcs2 (List.replicate n 0x61) = some (List.replicate n 0x61) := by
  have hletter : ∀ s, utf8ToUcs2 (0x61 :: s) = (utf8ToUcs2 s).map (0x61 :: ·) := by
    intro s
    have hlen : mbCharLen 0x61 = 1 := by decide
    rw [utf8ToUcs2, hlen, if_neg (by decide), if_neg (by omega)]
    rfl
  induction n with
  | zero => rw [List.replicate_zero, List.replicate_zero, utf8ToUcs2]
  | succ n ih =>
    rw [List.replicate_succ, hletter, ih]
    rfl

/-- Where the string is left, it goes on with what is behind its terminator. -/
theorem utf8ToUcs2_of_none {s : CString} (h : utf8ToUcs2 s = none) {n : ℕ} (hn : 8 ≤ n) :
    ∃ us m, n ≤ m + 8 ∧ utf8ToUcs2 (s ++ 0 :: List.replicate n 0x61) =
      some (us ++ List.replicate m 0x61) := by
  fun_induction utf8ToUcs2 s with
  | case1 => exact absurd h (Option.some_ne_none _)
  | case2 c s hzero => exact absurd h (Option.some_ne_none _)
  | case3 c s hzero hover =>
    have hle := mbCharLen_le c
    have hover' : ¬ (s ++ 0 :: List.replicate n 0x61).length + 1 < mbCharLen c := by
      rw [List.length_append, List.length_cons, List.length_replicate]
      omega
    obtain ⟨j, hj⟩ : ∃ j, mbCharLen c - 1 - s.length = j + 1 :=
      ⟨mbCharLen c - 1 - s.length - 1, by omega⟩
    have hdrop : (s ++ 0 :: List.replicate n (0x61 : UInt8)).drop (mbCharLen c - 1) =
        List.replicate (n - j) 0x61 := by
      rw [List.drop_append, List.drop_eq_nil_of_le (by omega), List.nil_append, hj,
        List.drop_succ_cons, List.drop_replicate]
    refine ⟨[decodeUnit (mbCharLen c) (c :: (s ++ 0 :: List.replicate n 0x61))], n - j, by omega, ?_⟩
    rw [List.cons_append, utf8ToUcs2, if_neg hzero, if_neg hover', hdrop, utf8ToUcs2_replicate]
    rfl
  | case4 c s hzero hover ih =>
    obtain ⟨us, m, hm, hrest⟩ := ih (Option.map_eq_none_iff.mp h)
    have hover' : ¬ (s ++ 0 :: List.replicate n 0x61).length + 1 < mbCharLen c := by
      rw [List.length_append]
      omega
    have hdrop : (s ++ 0 :: List.replicate n (0x61 : UInt8)).drop (mbCharLen c - 1) =
        s.drop (mbCharLen c - 1) ++ 0 :: List.replicate n 0x61 :=
      List.drop_append_of_le_length (by omega)
    refine ⟨decodeUnit (mbCharLen c) (c :: (s ++ 0 :: List.replicate n 0x61)) :: us, m, hm, ?_⟩
    rw [List.cons_append, utf8ToUcs2, if_neg hzero, if_neg hover', hdrop, hrest]
    rfl

/-! ## No terminator is decoded -/

theorem ofNat_ne_zero_of_lt {n : ℕ} (hpos : 0 < n) (hlt : n < 65536) : UInt16.ofNat n ≠ 0 := by
  intro h
  have hnat := congrArg UInt16.toNat h
  rw [UInt16.toNat_ofNat_of_lt' hlt] at hnat
  exact absurd hnat (Nat.ne_of_gt hpos)

/-- No character is decoded to the terminator. -/
theorem decodeUnit_ne_zero {c : UInt8} (h : mbCharLen c ≠ 0) (s : CString) :
    decodeUnit (mbCharLen c) (c :: s) ≠ 0 := by
  have hc : 0 < c.toNat := by
    refine Nat.pos_of_ne_zero fun hzero => h ?_
    obtain rfl : c = 0 := UInt8.toNat_inj.mp hzero
    rfl
  have hstar : UInt16.ofNat '*'.toNat ≠ 0 := by decide
  unfold decodeUnit
  simp only
  split
  · exact ofNat_ne_zero_of_lt hc (Nat.lt_trans c.toNat_lt (by decide))
  · split_ifs with hcode
    · refine ofNat_ne_zero_of_lt (Nat.lt_of_le_of_lt (Nat.zero_le _) hcode.1) ?_
      have hlow := @Nat.and_le_right (((c :: s).getD 1 0).toNat) 0x3f
      have hhigh := @Nat.and_le_right (((c :: s).getD 0 0).toNat) 0x1f
      rw [Nat.shiftLeft_eq]
      omega
    · exact hstar
  · split_ifs with hcode
    · refine ofNat_ne_zero_of_lt (Nat.lt_of_le_of_lt (Nat.zero_le _) hcode.1) ?_
      have hlow := @Nat.and_le_right (((c :: s).getD 2 0).toNat) 0x3f
      have hmid := @Nat.and_le_right (((c :: s).getD 1 0).toNat) 0x3f
      have hhigh := @Nat.and_le_right (((c :: s).getD 0 0).toNat) 0xf
      rw [Nat.shiftLeft_eq, Nat.shiftLeft_eq]
      omega
    · exact hstar
  · decide

theorem utf8ToUcs2_ne_zero {s : CString} {us : List UInt16} (h : utf8ToUcs2 s = some us) :
    ∀ u ∈ us, u ≠ 0 := by
  fun_induction utf8ToUcs2 s generalizing us with
  | case1 => rw [← Option.some.inj h]; exact fun _ h => absurd h List.not_mem_nil
  | case2 c s hzero => rw [← Option.some.inj h]; exact fun _ h => absurd h List.not_mem_nil
  | case3 c s hzero hover => exact absurd h.symm (Option.some_ne_none _)
  | case4 c s hzero hover ih =>
    obtain ⟨rest, hrest, rfl⟩ := Option.map_eq_some_iff.mp h
    exact List.forall_mem_cons.mpr ⟨decodeUnit_ne_zero hzero s, ih hrest⟩

end Unicode
end Afpfs

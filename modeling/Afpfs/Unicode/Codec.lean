import Mathlib.Data.Nat.Notation
import Mathlib.Logic.Basic

/-!
# UTF-8 and UCS-2

The conversions of `lib/unicode.c` between NUL-terminated UTF-8 and zero-terminated 16 bit
strings.  A string is the list of its elements before the terminator.  `mbStrLen()` and
`UTF8toUCS2()` trust the length that the first byte of a character announces; where that leads
behind the terminator the model gives up (`none`).

`unit` is the 16 bit unit of a character of the Basic Multilingual Plane and `utf8` the encoding
of a text.

* `length_utf8ToUcs2`: the conversion writes as many units as `mbStrLen()` counted.
* `utf8ToUcs2_ucs2ToUtf8`: it takes back what `UCS2toUTF8()` does to any units.
* `utf8ToUcs2_utf8` and `ucs2ToUtf8_map_unit`: on such characters the two are the decoder and the
  encoder of UTF-8.
-/

set_option autoImplicit false

namespace Afpfs
namespace Unicode

/-- A NUL-terminated string, without its terminator. -/
abbrev CString := List UInt8

/-! ## The functions -/

/-- The loop of `mbCharLen()`: the set bits of `c` from bit `k - 1` downwards. -/
def leadingBits (c : UInt8) : ℕ → ℕ
  | 0 => 0
  | k + 1 => if c.toNat &&& 1 <<< k ≠ 0 then leadingBits c k + 1 else 0

/-- `mbCharLen()`, at the byte `c`. -/
def mbCharLen (c : UInt8) : ℕ :=
  if c ≠ 0 then
    match leadingBits c 8 with
    | 0 => 1
    | 1 => 0
    | count => count
  else 0

/-- `mbStrLen()`. -/
def mbStrLen : CString → Option ℕ
  | [] => some 0
  | c :: s =>
    if mbCharLen c = 0 then some 0
    else if s.length + 1 < mbCharLen c then none
    else (mbStrLen (s.drop (mbCharLen c - 1))).map (· + 1)
  termination_by s => s.length

/-- The unit that `UTF8toUCS2()` stores for the character of length `clen` at `p`. -/
def decodeUnit (clen : ℕ) (p : CString) : UInt16 :=
  let byte i := (p.getD i 0).toNat
  match clen with
  | 1 => .ofNat (byte 0)
  | 2 =>
    let c16 := (byte 1 &&& 0x3f) + (byte 0 &&& 0x1f) <<< 6
    if c16 > 0x7f ∧ byte 1 &&& 0xC0 = 0x80 then .ofNat c16 else .ofNat '*'.toNat
  | 3 =>
    let c16 := (byte 2 &&& 0x3f) + (byte 1 &&& 0x3f) <<< 6 + (byte 0 &&& 0xf) <<< 12
    if c16 > 0x7ff ∧ byte 1 &&& 0xC0 = 0x80 ∧ byte 2 &&& 0xC0 = 0x80 then .ofNat c16
    else .ofNat '*'.toNat
  | _ => .ofNat '~'.toNat

/-- `UTF8toUCS2()`. -/
def utf8ToUcs2 : CString → Option (List UInt16)
  | [] => some []
  | c :: s =>
    if mbCharLen c = 0 then some []
    else if s.length + 1 < mbCharLen c then none
    else (utf8ToUcs2 (s.drop (mbCharLen c - 1))).map (decodeUnit (mbCharLen c) (c :: s) :: ·)
  termination_by s => s.length

/-- The bytes that `UCS2toUTF8()` stores for a unit, read as a low byte `p0` and a high byte
`p1`. -/
def encodeUnit (u : UInt16) : CString :=
  let p0 := u.toNat % 256
  let p1 := u.toNat / 256
  if u.toNat < 0x0080 then [.ofNat p0]
  else if u.toNat < 0x0800 then
    [.ofNat (0xc0 ||| (p1 &&& 0x7) <<< 2 ||| (p0 &&& 0xc0) >>> 6), .ofNat (0x80 ||| p0 &&& 0x3f)]
  else
    [.ofNat (0xe0 ||| (p1 &&& 0xf0) >>> 4),
      .ofNat (0x80 ||| (p1 &&& 0xf) <<< 2 ||| (p0 &&& 0xc0) >>> 6),
      .ofNat (0x80 ||| p0 &&& 0x3f)]

/-- `UCS2toUTF8()`. -/
def ucs2ToUtf8 (str16 : List UInt16) : CString :=
  str16.flatMap encodeUnit

/-- The conversion writes as many units as the allocation was made for. -/
theorem length_utf8ToUcs2 (s : CString) :
    (utf8ToUcs2 s).map List.length = mbStrLen s := by
  fun_induction utf8ToUcs2 s with
  | case1 => rw [mbStrLen]; rfl
  | case2 c s hzero => rw [mbStrLen, if_pos hzero]; rfl
  | case3 c s hzero hover => rw [mbStrLen, if_neg hzero, if_pos hover]; rfl
  | case4 c s hzero hover ih =>
    rw [mbStrLen, if_neg hzero, if_neg hover, ← ih, Option.map_map, Option.map_map]
    rfl

/-! ## Characters -/

/-- The 16 bit unit of a character. -/
def unit (c : Char) : UInt16 := .ofNat c.toNat

/-- A character other than NUL that has a 16 bit unit. -/
def InBmp (c : Char) : Prop := c.toNat ≠ 0 ∧ c.toNat < 0x10000

instance (c : Char) : Decidable (InBmp c) := inferInstanceAs (Decidable (_ ∧ _))

/-- The UTF-8 encoding of a text. -/
def utf8 (cs : List Char) : CString := cs.flatMap String.utf8EncodeChar

theorem toNat_unit {c : Char} (hc : InBmp c) : (unit c).toNat = c.toNat :=
  UInt16.toNat_ofNat_of_lt' hc.2

theorem toNat_ofNat_byte {n : ℕ} (h : n < 256) : (UInt8.ofNat n).toNat = n :=
  UInt8.toNat_ofNat_of_lt' h

section Bits

/-! The masks and shifts of the two conversions, as arithmetic. -/

theorem mbCharLen_one : ∀ q : Fin 128, q.val ≠ 0 → mbCharLen (.ofNat q) = 1 := by decide

theorem mbCharLen_two : ∀ q : Fin 32, mbCharLen (.ofNat (q + 0xc0)) = 2 := by decide

theorem mbCharLen_three : ∀ q : Fin 16, mbCharLen (.ofNat (q + 0xe0)) = 3 := by decide

theorem tail_and_c0 : ∀ q : Fin 64, (q + 0x80 : ℕ) &&& 0xC0 = 0x80 := by decide

theorem tail_and_3f : ∀ q : Fin 64, (q + 0x80 : ℕ) &&& 0x3f = q := by decide

theorem lead_and_1f : ∀ q : Fin 32, (q + 0xc0 : ℕ) &&& 0x1f = q := by decide

theorem lead_and_f : ∀ q : Fin 16, (q + 0xe0 : ℕ) &&& 0xf = q := by decide

set_option maxRecDepth 2000

theorem low_byte_tail : ∀ p : Fin 256, 0x80 ||| (p.val &&& 0x3f) = p % 64 + 0x80 := by decide

theorem low_byte_top : ∀ p : Fin 256, (p.val &&& 0xc0) >>> 6 = p / 64 := by decide

theorem lead_two : ∀ (p : Fin 8) (q : Fin 4),
    0xc0 ||| (p.val &&& 0x7) <<< 2 ||| q.val = p * 4 + q + 0xc0 := by decide

theorem lead_three : ∀ p : Fin 256, 0xe0 ||| (p.val &&& 0xf0) >>> 4 = p / 16 + 0xe0 := by decide

theorem middle_three : ∀ (p : Fin 256) (q : Fin 4),
    0x80 ||| (p.val &&& 0xf) <<< 2 ||| q.val = p % 16 * 4 + q + 0x80 := by decide

end Bits

/-- The three forms of the encoding of a character with a 16 bit unit. -/
theorem utf8EncodeChar_cases {c : Char} (hc : InBmp c) :
    (c.toNat < 0x80 ∧ String.utf8EncodeChar c = [.ofNat c.toNat]) ∨
    (0x80 ≤ c.toNat ∧ c.toNat < 0x800 ∧ String.utf8EncodeChar c =
      [.ofNat (c.toNat / 64 + 0xc0), .ofNat (c.toNat % 64 + 0x80)]) ∨
    (0x800 ≤ c.toNat ∧ String.utf8EncodeChar c =
      [.ofNat (c.toNat / 4096 + 0xe0), .ofNat (c.toNat / 64 % 64 + 0x80),
        .ofNat (c.toNat % 64 + 0x80)]) := by
  obtain ⟨-, hlt⟩ := hc
  have hval : c.val.toNat = c.toNat := rfl
  unfold String.utf8EncodeChar
  simp only [hval]
  by_cases h₁ : c.toNat ≤ 0x7f
  · rw [if_pos h₁]
    exact Or.inl ⟨by omega, rfl⟩
  rw [if_neg h₁]
  by_cases h₂ : c.toNat ≤ 0x7ff
  · rw [if_pos h₂, show c.toNat / 64 % 32 = c.toNat / 64 by omega]
    exact Or.inr (Or.inl ⟨by omega, by omega, rfl⟩)
  · rw [if_neg h₂, if_pos (by omega), show c.toNat / 4096 % 16 = c.toNat / 4096 by omega]
    exact Or.inr (Or.inr ⟨by omega, rfl⟩)

/-! ## Units -/

/-- The three forms of the bytes that `UCS2toUTF8()` stores. -/
theorem encodeUnit_cases (u : UInt16) :
    (u.toNat < 0x80 ∧ encodeUnit u = [.ofNat u.toNat]) ∨
    (0x80 ≤ u.toNat ∧ u.toNat < 0x800 ∧ encodeUnit u =
      [.ofNat (u.toNat / 64 + 0xc0), .ofNat (u.toNat % 64 + 0x80)]) ∨
    (0x800 ≤ u.toNat ∧ encodeUnit u =
      [.ofNat (u.toNat / 4096 + 0xe0), .ofNat (u.toNat / 64 % 64 + 0x80),
        .ofNat (u.toNat % 64 + 0x80)]) := by
  have hlt := u.toNat_lt
  have hlow : u.toNat % 256 < 256 := by omega
  have hhigh : u.toNat / 256 < 256 := by omega
  have htop := low_byte_top ⟨_, hlow⟩
  have htail := low_byte_tail ⟨_, hlow⟩
  simp only at htop htail
  unfold encodeUnit
  by_cases h₁ : u.toNat < 0x80
  · rw [if_pos h₁, show u.toNat % 256 = u.toNat by omega]
    exact .inl ⟨h₁, rfl⟩
  by_cases h₂ : u.toNat < 0x800
  · have hlead := lead_two ⟨u.toNat / 256, by omega⟩ ⟨u.toNat % 256 / 64, by omega⟩
    simp only at hlead
    refine .inr (.inl ⟨Nat.not_lt.mp h₁, h₂, ?_⟩)
    rw [if_neg h₁, if_pos h₂, htop, htail, hlead,
      show u.toNat / 256 * 4 + u.toNat % 256 / 64 = u.toNat / 64 by omega,
      show u.toNat % 256 % 64 = u.toNat % 64 by omega]
  · have hlead := lead_three ⟨_, hhigh⟩
    have hmid := middle_three ⟨_, hhigh⟩ ⟨u.toNat % 256 / 64, by omega⟩
    simp only at hlead hmid
    refine .inr (.inr ⟨Nat.not_lt.mp h₂, ?_⟩)
    rw [if_neg h₁, if_neg h₂, htop, htail, hlead, hmid,
      show u.toNat / 256 / 16 = u.toNat / 4096 by omega,
      show u.toNat / 256 % 16 * 4 + u.toNat % 256 / 64 = u.toNat / 64 % 64 by omega,
      show u.toNat % 256 % 64 = u.toNat % 64 by omega]

/-- What `UTF8toUCS2()` decodes at the start of an encoded unit: its length and the unit. -/
theorem decode_encodeUnit {u : UInt16} (hu : u ≠ 0) (s : CString) :
    ∃ b l, encodeUnit u = b :: l ∧ mbCharLen b = l.length + 1 ∧
      decodeUnit (l.length + 1) (b :: l ++ s) = u := by
  have hlt := u.toNat_lt
  have hne : u.toNat ≠ 0 := fun h => hu (UInt16.toNat_inj.mp h)
  have hofNat : UInt16.ofNat u.toNat = u := UInt16.ofNat_toNat
  rcases encodeUnit_cases u with ⟨hlt, henc⟩ | ⟨hle, hlt, henc⟩ | ⟨hle, henc⟩
  · refine ⟨_, _, henc, mbCharLen_one ⟨u.toNat, hlt⟩ hne, ?_⟩
    have hb : (UInt8.ofNat u.toNat).toNat = u.toNat := toNat_ofNat_byte (by omega)
    change UInt16.ofNat (UInt8.ofNat u.toNat).toNat = u
    rw [hb, hofNat]
  · have hhead : u.toNat / 64 < 32 := by omega
    have htail : u.toNat % 64 < 64 := by omega
    refine ⟨_, _, henc, mbCharLen_two ⟨_, hhead⟩, ?_⟩
    have hb₀ : (UInt8.ofNat (u.toNat / 64 + 0xc0)).toNat = u.toNat / 64 + 0xc0 :=
      toNat_ofNat_byte (by omega)
    have hb₁ : (UInt8.ofNat (u.toNat % 64 + 0x80)).toNat = u.toNat % 64 + 0x80 :=
      toNat_ofNat_byte (by omega)
    have hlead := lead_and_1f ⟨_, hhead⟩
    have hmark := tail_and_c0 ⟨_, htail⟩
    have hlow := tail_and_3f ⟨_, htail⟩
    simp only at hlead hmark hlow
    have hsum : u.toNat % 64 + (u.toNat / 64) <<< 6 = u.toNat := by
      rw [Nat.shiftLeft_eq]; omega
    change decodeUnit 2 (_ :: _ :: s) = u
    simp only [decodeUnit, List.getD_cons_zero, List.getD_cons_succ, hb₀, hb₁, hlead, hmark, hlow,
      hsum]
    rw [if_pos ⟨by omega, trivial⟩, hofNat]
  · have hhead : u.toNat / 4096 < 16 := by omega
    have hmid : u.toNat / 64 % 64 < 64 := by omega
    have htail : u.toNat % 64 < 64 := by omega
    refine ⟨_, _, henc, mbCharLen_three ⟨_, hhead⟩, ?_⟩
    have hb₀ : (UInt8.ofNat (u.toNat / 4096 + 0xe0)).toNat = u.toNat / 4096 + 0xe0 :=
      toNat_ofNat_byte (by omega)
    have hb₁ : (UInt8.ofNat (u.toNat / 64 % 64 + 0x80)).toNat = u.toNat / 64 % 64 + 0x80 :=
      toNat_ofNat_byte (by omega)
    have hb₂ : (UInt8.ofNat (u.toNat % 64 + 0x80)).toNat = u.toNat % 64 + 0x80 :=
      toNat_ofNat_byte (by omega)
    have hlead := lead_and_f ⟨_, hhead⟩
    have hmark₁ := tail_and_c0 ⟨_, hmid⟩
    have hlow₁ := tail_and_3f ⟨_, hmid⟩
    have hmark₂ := tail_and_c0 ⟨_, htail⟩
    have hlow₂ := tail_and_3f ⟨_, htail⟩
    simp only at hlead hmark₁ hlow₁ hmark₂ hlow₂
    have hsum : u.toNat % 64 + (u.toNat / 64 % 64) <<< 6 + (u.toNat / 4096) <<< 12 = u.toNat := by
      rw [Nat.shiftLeft_eq, Nat.shiftLeft_eq]; omega
    change decodeUnit 3 (_ :: _ :: _ :: s) = u
    simp only [decodeUnit, List.getD_cons_zero, List.getD_cons_succ, hb₀, hb₁, hb₂, hlead, hmark₁,
      hlow₁, hmark₂, hlow₂, hsum]
    rw [if_pos ⟨by omega, trivial, trivial⟩, hofNat]

/-- `UTF8toUCS2()` takes one encoded unit off the front. -/
theorem utf8ToUcs2_encodeUnit {u : UInt16} (hu : u ≠ 0) (s : CString) :
    utf8ToUcs2 (encodeUnit u ++ s) = (utf8ToUcs2 s).map (u :: ·) := by
  obtain ⟨b, l, henc, hlen, hunit⟩ := decode_encodeUnit hu s
  rw [henc, List.cons_append, utf8ToUcs2, hlen, if_neg (by omega),
    if_neg (by rw [List.length_append]; omega), ← List.cons_append, hunit, Nat.add_sub_cancel,
    List.drop_left]

/-- **Decoding undoes encoding**, also of units that are half of a surrogate pair. -/
theorem utf8ToUcs2_ucs2ToUtf8 {us : List UInt16} (hus : ∀ u ∈ us, u ≠ 0) :
    utf8ToUcs2 (ucs2ToUtf8 us) = some us := by
  induction us with
  | nil => rw [ucs2ToUtf8, List.flatMap_nil, utf8ToUcs2]
  | cons u us ih =>
    obtain ⟨hu, hus⟩ := List.forall_mem_cons.mp hus
    rw [ucs2ToUtf8, List.flatMap_cons, utf8ToUcs2_encodeUnit hu, ← ucs2ToUtf8, ih hus]
    rfl

/-! ## Texts -/

/-- `UCS2toUTF8()` encodes the unit of a character as the character. -/
theorem encodeUnit_unit {c : Char} (hc : InBmp c) :
    encodeUnit (unit c) = String.utf8EncodeChar c := by
  have henc := encodeUnit_cases (unit c)
  rw [toNat_unit hc] at henc
  rcases utf8EncodeChar_cases hc with ⟨hlt, hchar⟩ | ⟨hle, hlt, hchar⟩ | ⟨hle, hchar⟩
  · rw [hchar, ((or_iff_left (by omega)).mp henc).2]
  · rw [hchar, ((or_iff_left (by omega)).mp ((or_iff_right (by omega)).mp henc)).2.2]
  · rw [hchar, ((or_iff_right (by omega)).mp ((or_iff_right (by omega)).mp henc)).2]

theorem unit_ne_zero {c : Char} (hc : InBmp c) : unit c ≠ 0 := fun h =>
  hc.1 ((toNat_unit hc).symm.trans (congrArg UInt16.toNat h))

/-- **Encoding.** -/
theorem ucs2ToUtf8_map_unit {cs : List Char} (hcs : ∀ c ∈ cs, InBmp c) :
    ucs2ToUtf8 (cs.map unit) = utf8 cs := by
  induction cs with
  | nil => rfl
  | cons c cs ih =>
    obtain ⟨hc, hcs⟩ := List.forall_mem_cons.mp hcs
    rw [List.map_cons, ucs2ToUtf8, List.flatMap_cons, encodeUnit_unit hc, ← ucs2ToUtf8, ih hcs]
    rfl

/-- **Decoding.** -/
theorem utf8ToUcs2_utf8 {cs : List Char} (hcs : ∀ c ∈ cs, InBmp c) :
    utf8ToUcs2 (utf8 cs) = some (cs.map unit) := by
  rw [← ucs2ToUtf8_map_unit hcs]
  refine utf8ToUcs2_ucs2ToUtf8 fun u hu => ?_
  obtain ⟨c, hc, rfl⟩ := List.mem_map.mp hu
  exact unit_ne_zero (hcs c hc)

/-- What `UTF8toUCS2()` writes into its allocation, the terminator included. -/
def written (s : CString) : Option (List UInt16) := (utf8ToUcs2 s).map (· ++ [0])

/-- The size of the allocation, in units. -/
def allocated (s : CString) : Option ℕ := (mbStrLen s).map (· + 1)

theorem length_written (s : CString) : (written s).map List.length = allocated s := by
  rw [written, allocated, ← length_utf8ToUcs2, Option.map_map, Option.map_map]
  exact congrArg (Option.map · _) (funext fun us => List.length_append)

/-- **The round trips.** -/
theorem roundTrips :
    (∀ us : List UInt16, (∀ u ∈ us, u ≠ 0) → utf8ToUcs2 (ucs2ToUtf8 us) = some us) ∧
      ∀ cs : List Char, (∀ c ∈ cs, InBmp c) →
        ∃ us, utf8ToUcs2 (utf8 cs) = some us ∧ ucs2ToUtf8 us = utf8 cs ∧ us.length = cs.length ∧
          (written (utf8 cs)).map List.length = allocated (utf8 cs) ∧
          allocated (utf8 cs) = some (cs.length + 1) := by
  refine ⟨fun us hus => utf8ToUcs2_ucs2ToUtf8 hus, fun cs hcs => ?_⟩
  have hdecode := utf8ToUcs2_utf8 hcs
  refine ⟨cs.map unit, hdecode, ucs2ToUtf8_map_unit hcs, List.length_map unit, length_written _, ?_⟩
  rw [← length_written, written, hdecode]
  exact congrArg some (by simp)

/-- A lone surrogate, and a text with characters of all three lengths. -/
theorem roundTrips_of_mixed :
    utf8ToUcs2 (ucs2ToUtf8 [0xd800, 0x7f, 0x80]) = some [0xd800, 0x7f, 0x80] ∧
      ∃ us, utf8ToUcs2 (utf8 ['a', 'é', '€']) = some us ∧ ucs2ToUtf8 us = utf8 ['a', 'é', '€'] ∧
        us.length = 3 ∧
        (written (utf8 ['a', 'é', '€'])).map List.length = allocated (utf8 ['a', 'é', '€']) ∧
        allocated (utf8 ['a', 'é', '€']) = some (3 + 1) :=
  ⟨roundTrips.1 [0xd800, 0x7f, 0x80] (by simp),
    roundTrips.2 ['a', 'é', '€'] (by simp [InBmp])⟩

end Unicode
end Afpfs

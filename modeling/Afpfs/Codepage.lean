import Afpfs.Unicode.Codec
import Afpfs.Unicode.Precompose
import Mathlib.Data.List.Chain

/-!
# Code page conversions

`lib/codepage.c`: how a path is converted to the encoding of the server and back.  With
`kFPUTF8Name` the way to the server decomposes, for `ä` only, and the way back composes whatever
the table of `lib/unicode.c` composes.  A conversion that would write behind its destination, the
intermediate `path16pre[384]` included, has no result here.

`expand` is the decomposition on characters.  The round trip needs that nothing composes but the
pairs `expand` made:

* `convertUtf8preToUtf8dec_utf8`: the byte pattern of `ä` never straddles two characters, so the
  byte loop is `expand`.
* `precomposeFrom_expand`: composing undoes `expand` when no two neighbours compose.
* `convertPath_roundTrip`: the conversion to the server and back is the identity.
-/

set_option autoImplicit false

namespace Afpfs
namespace Codepage

open Unicode

/-- The path encodings of the protocol. -/
inductive PathEncoding where
  | kFPShortName
  | kFPLongName
  | kFPUTF8Name
  deriving DecidableEq

/-! ## The functions -/

/-- The number of units `path16pre` holds, the terminator included. -/
def path16preSize : ℕ := 384

/-- How a round of the loop of `convert_utf8dec_to_utf8pre()` treats the character `c`: what it
stores in `path16pre` and what it keeps to combine with the next character. -/
def combine (prev c : UInt16) : Option (List UInt16 × UInt16) :=
  if prev > 0 then
    (ucs2precompose prev c).map fun comp =>
      if comp ≠ -1 then ([], .ofInt comp) else ([prev], c)
  else some ([], c)

/-- The loop of `convert_utf8dec_to_utf8pre()`: what it stores in `path16pre`. -/
def precomposeFrom (prev : UInt16) : List UInt16 → Option (List UInt16)
  | [] => some []
  | c :: rest =>
    (combine prev c).bind fun (stored, prev) =>
      (precomposeFrom prev rest).map fun more =>
        stored ++ (if rest = [] then [prev] else []) ++ more

/-- `convert_utf8dec_to_utf8pre()`.  It does not look at the size of its destination. -/
def convertUtf8decToUtf8pre (src : CString) : Option CString :=
  (utf8ToUcs2 src).bind fun path16dec =>
    (precomposeFrom 0 path16dec).bind fun path16pre =>
      if path16pre.length < path16preSize then some (ucs2ToUtf8 path16pre) else none

/-- `convert_utf8pre_to_utf8dec()`.  It does not look at the size of its destination. -/
def convertUtf8preToUtf8dec : CString → CString
  | [] => []
  | 0xc3 :: 0xa4 :: src => 0x61 :: 0xcc :: 0x88 :: convertUtf8preToUtf8dec src
  | b :: src => b :: convertUtf8preToUtf8dec src

/-- A conversion result in a destination of `destLen` bytes. -/
def fit (destLen : ℕ) (dest : CString) : Option (ℤ × CString) :=
  if dest.length < destLen then some (0, dest) else none

/-- `convert_path_to_unix()`: the result and the string in `dest`. -/
def convertPathToUnix (encoding : PathEncoding) (src : CString) (destLen : ℕ) :
    Option (ℤ × CString) :=
  match encoding with
  | .kFPUTF8Name => (convertUtf8decToUtf8pre src).bind (fit destLen)
  | .kFPLongName => fit destLen src
  | .kFPShortName => some (-1, [])

/-- `convert_path_to_afp()`: the result and the string in `dest`. -/
def convertPathToAfp (encoding : PathEncoding) (src : CString) (destLen : ℕ) :
    Option (ℤ × CString) :=
  match encoding with
  | .kFPUTF8Name => fit destLen (convertUtf8preToUtf8dec src)
  | .kFPLongName => fit destLen src
  | .kFPShortName => some (-1, [])

/-! ## Decomposing -/

/-- The decomposition of a character: only `ä` has one. -/
def expandChar (c : Char) : List Char :=
  if c = 'ä' then ['a', '\u0308'] else [c]

/-- The decomposition of a text. -/
def expand (cs : List Char) : List Char := cs.flatMap expandChar

theorem expand_cons_umlaut (cs : List Char) : expand ('ä' :: cs) = 'a' :: '\u0308' :: expand cs :=
  rfl

theorem expand_cons_of_ne {c : Char} (hc : c ≠ 'ä') (cs : List Char) :
    expand (c :: cs) = c :: expand cs := by
  rw [expand, List.flatMap_cons, expandChar, if_neg hc, List.singleton_append, ← expand]

theorem inBmp_of_mem_expand {cs : List Char} (hcs : ∀ c ∈ cs, InBmp c) :
    ∀ c ∈ expand cs, InBmp c := by
  intro c hc
  obtain ⟨d, hd, hcd⟩ := List.mem_flatMap.mp hc
  by_cases hdä : d = 'ä'
  · rw [expandChar, if_pos hdä, List.mem_cons, List.mem_singleton] at hcd
    rcases hcd with rfl | rfl <;> decide
  · rw [expandChar, if_neg hdä, List.mem_singleton] at hcd
    exact hcd ▸ hcs d hd

theorem ofNat_ne {n m : ℕ} (hn : n < 256) (hm : m < 256) (h : n ≠ m) :
    UInt8.ofNat n ≠ UInt8.ofNat m := fun heq => by
  have hnat := congrArg UInt8.toNat heq
  rw [toNat_ofNat_byte hn, toNat_ofNat_byte hm] at hnat
  exact h hnat

theorem ofNat_ne_c3 {n : ℕ} (hn : n < 256) (h : n ≠ 0xc3) : UInt8.ofNat n ≠ 0xc3 :=
  @ofNat_ne n 0xc3 hn (by decide) h

theorem ofNat_ne_a4 {n : ℕ} (hn : n < 256) (h : n ≠ 0xa4) : UInt8.ofNat n ≠ 0xa4 :=
  @ofNat_ne n 0xa4 hn (by decide) h

theorem convertUtf8preToUtf8dec_cons_of_ne {b : UInt8} (hb : b ≠ 0xc3) (src : CString) :
    convertUtf8preToUtf8dec (b :: src) = b :: convertUtf8preToUtf8dec src := by
  rw [convertUtf8preToUtf8dec]
  exact fun _ h _ => hb h

theorem convertUtf8preToUtf8dec_cons_cons_of_ne {b b' : UInt8} (hb' : b' ≠ 0xa4)
    (src : CString) :
    convertUtf8preToUtf8dec (b :: b' :: src) = b :: convertUtf8preToUtf8dec (b' :: src) := by
  rw [convertUtf8preToUtf8dec]
  intro src' _ h
  exact hb' (List.cons.inj h).1

/-- **The byte pattern of `ä` never straddles two characters**: one step of the byte loop over a
character is its decomposition. -/
theorem convertUtf8preToUtf8dec_utf8EncodeChar {c : Char} (hc : InBmp c) (src : CString) :
    convertUtf8preToUtf8dec (String.utf8EncodeChar c ++ src) =
      utf8 (expandChar c) ++ convertUtf8preToUtf8dec src := by
  by_cases hä : c = 'ä'
  · subst hä
    rfl
  have hlt := hc.2
  have hne : c.toNat ≠ 0xe4 := fun h => hä (Char.toNat_inj.mp h)
  rw [expandChar, if_neg hä, utf8, List.flatMap_singleton]
  rcases utf8EncodeChar_cases hc with ⟨hlt, henc⟩ | ⟨hle, hlt, henc⟩ | ⟨hle, henc⟩
  · rw [henc, List.singleton_append,
      convertUtf8preToUtf8dec_cons_of_ne (ofNat_ne_c3 (by omega) (by omega)),
      List.singleton_append]
  · have htail : UInt8.ofNat (c.toNat % 64 + 0x80) ≠ 0xc3 :=
      ofNat_ne_c3 (by omega) (by omega)
    rw [henc, List.cons_append, List.singleton_append, List.cons_append, List.singleton_append]
    -- the lead byte of `ä` is shared by the characters from U+00C0 to U+00FF
    by_cases hlead : c.toNat / 64 + 0xc0 = 0xc3
    · have hsecond : UInt8.ofNat (c.toNat % 64 + 0x80) ≠ 0xa4 :=
        ofNat_ne_a4 (by omega) (by omega)
      rw [convertUtf8preToUtf8dec_cons_cons_of_ne hsecond,
        convertUtf8preToUtf8dec_cons_of_ne htail]
    · rw [convertUtf8preToUtf8dec_cons_of_ne (ofNat_ne_c3 (by omega) hlead),
        convertUtf8preToUtf8dec_cons_of_ne htail]
  · have hmid : UInt8.ofNat (c.toNat / 64 % 64 + 0x80) ≠ 0xc3 :=
      ofNat_ne_c3 (by omega) (by omega)
    have htail : UInt8.ofNat (c.toNat % 64 + 0x80) ≠ 0xc3 :=
      ofNat_ne_c3 (by omega) (by omega)
    have hlead : UInt8.ofNat (c.toNat / 4096 + 0xe0) ≠ 0xc3 :=
      ofNat_ne_c3 (by omega) (by omega)
    rw [henc]
    simp only [List.cons_append, List.nil_append]
    rw [convertUtf8preToUtf8dec_cons_of_ne hlead, convertUtf8preToUtf8dec_cons_of_ne hmid,
      convertUtf8preToUtf8dec_cons_of_ne htail]

/-- The byte loop decomposes the text. -/
theorem convertUtf8preToUtf8dec_utf8 {cs : List Char} (hcs : ∀ c ∈ cs, InBmp c) :
    convertUtf8preToUtf8dec (utf8 cs) = utf8 (expand cs) := by
  induction cs with
  | nil => rfl
  | cons c cs ih =>
    obtain ⟨hc, hcs⟩ := List.forall_mem_cons.mp hcs
    rw [utf8, List.flatMap_cons, convertUtf8preToUtf8dec_utf8EncodeChar hc, ← utf8, ih hcs]
    simp only [utf8, expand, List.flatMap_cons, List.flatMap_append]

/-- The byte is not one that the decomposition takes away or puts in. -/
def Kept (b : UInt8) : Prop := b ∉ ([0x61, 0x88, 0xa4, 0xc3, 0xcc] : List UInt8)

instance (b : UInt8) : Decidable (Kept b) := inferInstanceAs (Decidable (¬ _))

theorem prefix_cons_iff_of_notMem {w s : CString} {b : UInt8} (hb : b ∉ w) :
    w <+: b :: s ↔ w = [] := by
  cases w with
  | nil => exact iff_of_true List.nil_prefix rfl
  | cons x w =>
    refine iff_of_false (fun h => ?_) (List.cons_ne_nil x w)
    obtain ⟨hx, -⟩ := List.cons_prefix_cons.mp h
    exact hb (hx ▸ List.mem_cons_self)

theorem infix_cons_iff_of_notMem {w s : CString} {b : UInt8} (hb : b ∉ w) :
    w <:+: b :: s ↔ w <:+: s := by
  rw [List.infix_cons_iff, prefix_cons_iff_of_notMem hb]
  refine or_iff_right_of_imp fun h => ?_
  rw [h]
  exact List.nil_infix

theorem prefix_convertUtf8preToUtf8dec_iff {w : CString} (hw : ∀ b ∈ w, Kept b) (src : CString) :
    w <+: convertUtf8preToUtf8dec src ↔ w <+: src := by
  have hnot : ∀ b : UInt8, ¬ Kept b → b ∉ w := fun b hb hmem => hb (hw b hmem)
  fun_induction convertUtf8preToUtf8dec src generalizing w with
  | case1 => exact Iff.rfl
  | case2 src ih =>
    rw [prefix_cons_iff_of_notMem (hnot 0x61 (by decide)),
      prefix_cons_iff_of_notMem (hnot 0xc3 (by decide))]
  | case3 b src hne ih =>
    cases w with
    | nil => exact iff_of_true List.nil_prefix List.nil_prefix
    | cons x w =>
      obtain ⟨-, hw⟩ := List.forall_mem_cons.mp hw
      have hrest : w <+: convertUtf8preToUtf8dec src ↔ w <+: src :=
        ih hw fun b hb hmem => hb (hw b hmem)
      rw [List.cons_prefix_cons, List.cons_prefix_cons, hrest]

/-- **Where the conversion changes nothing**, nothing appears and nothing goes. -/
theorem infix_convertUtf8preToUtf8dec_iff {w : CString} (hw : ∀ b ∈ w, Kept b) (src : CString) :
    w <:+: convertUtf8preToUtf8dec src ↔ w <:+: src := by
  have hnot : ∀ b : UInt8, ¬ Kept b → b ∉ w := fun b hb hmem => hb (hw b hmem)
  fun_induction convertUtf8preToUtf8dec src with
  | case1 => exact Iff.rfl
  | case2 src ih =>
    have hrest : w <:+: convertUtf8preToUtf8dec src ↔ w <:+: src := ih
    rw [infix_cons_iff_of_notMem (hnot 0x61 (by decide)),
      infix_cons_iff_of_notMem (hnot 0xcc (by decide)),
      infix_cons_iff_of_notMem (hnot 0x88 (by decide)),
      infix_cons_iff_of_notMem (hnot 0xc3 (by decide)),
      infix_cons_iff_of_notMem (hnot 0xa4 (by decide)), hrest]
  | case3 b src hne ih =>
    have hrest : w <:+: convertUtf8preToUtf8dec src ↔ w <:+: src := ih
    have hprefix := prefix_convertUtf8preToUtf8dec_iff hw (b :: src)
    rw [convertUtf8preToUtf8dec] at hprefix
    · rw [List.infix_cons_iff, List.infix_cons_iff, hprefix, hrest]
    · exact hne

/-- The conversion leaves the path as it is, or decomposes it. -/
theorem convertPathToAfp_cases {encoding : PathEncoding} {src dest : CString} {destLen : ℕ}
    (h : convertPathToAfp encoding src destLen = some (0, dest)) :
    dest.length < destLen ∧ (dest = src ∨ dest = convertUtf8preToUtf8dec src) := by
  have hfit : ∀ {path : CString}, fit destLen path = some (0, dest) →
      dest.length < destLen ∧ dest = path := by
    intro path hpath
    rw [fit] at hpath
    split at hpath
    next hlt =>
      obtain rfl : path = dest := (Prod.mk.inj (Option.some.inj hpath)).2
      exact ⟨hlt, rfl⟩
    · exact absurd hpath (by simp)
  cases encoding with
  | kFPUTF8Name => exact ⟨(hfit h).1, .inr (hfit h).2⟩
  | kFPLongName => exact ⟨(hfit h).1, .inl (hfit h).2⟩
  | kFPShortName => exact absurd h (by simp [convertPathToAfp])

/-- The conversion leaves a separator at the front of a path alone. -/
theorem head?_convertPathToAfp {encoding : PathEncoding} {src dest : CString} {destLen : ℕ}
    {b : UInt8} (hb : b ≠ 0xc3) (hsrc : src.head? = some b)
    (h : convertPathToAfp encoding src destLen = some (0, dest)) : dest.head? = some b := by
  obtain ⟨rest, rfl⟩ : ∃ rest, src = b :: rest := by
    cases src with
    | nil => exact absurd hsrc (by simp)
    | cons b' rest => exact ⟨rest, by rw [Option.some.inj hsrc]⟩
  rcases (convertPathToAfp_cases h).2 with rfl | rfl
  · exact hsrc
  · rw [convertUtf8preToUtf8dec_cons_of_ne hb]
    rfl

/-! ## Composing -/

/-- No two neighbours of the text have a composition in the table. -/
def NothingComposes (cs : List Char) : Prop :=
  cs.IsChain fun a b => ¬ Composes (unit a) (unit b)

/-- The rest of a round of the loop: the last character is stored, or the loop goes on. -/
def continueFrom (prev : UInt16) (rest : List UInt16) : Option (List UInt16) :=
  (precomposeFrom prev rest).map ((if rest = [] then [prev] else []) ++ ·)

theorem continueFrom_nil (prev : UInt16) : continueFrom prev [] = some [prev] := rfl

theorem continueFrom_cons (prev c : UInt16) (rest : List UInt16) :
    continueFrom prev (c :: rest) = precomposeFrom prev (c :: rest) := by
  rw [continueFrom, if_neg (List.cons_ne_nil c rest)]
  cases precomposeFrom prev (c :: rest) <;> rfl

/-- The first character is kept for the next round. -/
theorem precomposeFrom_first (c : UInt16) (rest : List UInt16) :
    precomposeFrom 0 (c :: rest) = continueFrom c rest := by
  rw [precomposeFrom, combine, if_neg (by decide), continueFrom, Option.bind_some]
  rfl

/-- A character that does not compose with the one before it: that one is stored. -/
theorem precomposeFrom_store {prev c : UInt16} (hprev : prev > 0) (hcomp : ¬ Composes prev c)
    (rest : List UInt16) :
    precomposeFrom prev (c :: rest) = (continueFrom c rest).map (prev :: ·) := by
  rw [precomposeFrom, combine, if_pos hprev, ucs2precompose_of_not_composes hcomp, continueFrom,
    Option.map_map]
  rfl

/-- `a` and a diaeresis are kept as `ä`. -/
theorem precomposeFrom_umlaut (rest : List UInt16) :
    precomposeFrom 0x61 (0x308 :: rest) = continueFrom 0xE4 rest := by
  rw [precomposeFrom, combine, if_pos (by decide), ucs2precompose_a_diaeresis, continueFrom]
  rfl

theorem unit_letter_a : unit 'a' = 0x61 := by decide

theorem unit_diaeresis : unit '\u0308' = 0x308 := by decide

theorem unit_umlaut : unit 'ä' = 0xE4 := by decide

theorem unit_pos {c : Char} (hc : InBmp c) : unit c > 0 :=
  UInt16.lt_iff_toNat_lt.mpr (by rw [toNat_unit hc]; exact Nat.pos_of_ne_zero hc.1)

/-- One round after another: with `p` kept and nothing to compose in front, the loop stores `p`
and the text before its decomposition. -/
theorem continueFrom_expand {p : Char} {cs : List Char} (hp : InBmp p)
    (hcs : ∀ c ∈ cs, InBmp c) (hchain : NothingComposes (p :: cs)) :
    continueFrom (unit p) ((expand cs).map unit) = some ((p :: cs).map unit) := by
  induction cs generalizing p with
  | nil => exact continueFrom_nil _
  | cons c cs ih =>
    obtain ⟨hc, hcs⟩ := List.forall_mem_cons.mp hcs
    obtain ⟨hpc, hchain⟩ := List.isChain_cons_cons.mp hchain
    have ih := ih hc hcs hchain
    by_cases hä : c = 'ä'
    · -- `a` does not compose with `p`, and the diaeresis composes with `a`
      subst hä
      rw [expand_cons_umlaut, List.map_cons, List.map_cons, unit_letter_a, unit_diaeresis,
        continueFrom_cons, precomposeFrom_store (unit_pos hp) (not_composes_letter_a _),
        continueFrom_cons, precomposeFrom_umlaut, ← unit_umlaut, ih]
      rfl
    · rw [expand_cons_of_ne hä, List.map_cons, continueFrom_cons,
        precomposeFrom_store (unit_pos hp) hpc, ih]
      rfl

/-- **Composing undoes the decomposition** of a text in which no two neighbours compose. -/
theorem precomposeFrom_expand {cs : List Char} (hcs : ∀ c ∈ cs, InBmp c)
    (hchain : NothingComposes cs) :
    precomposeFrom 0 ((expand cs).map unit) = some (cs.map unit) := by
  cases cs with
  | nil => rfl
  | cons c cs =>
    obtain ⟨hc, htail⟩ := List.forall_mem_cons.mp hcs
    by_cases hä : c = 'ä'
    · subst hä
      rw [expand_cons_umlaut, List.map_cons, List.map_cons, unit_letter_a, unit_diaeresis,
        precomposeFrom_first, continueFrom_cons, precomposeFrom_umlaut, ← unit_umlaut]
      exact continueFrom_expand hc htail hchain
    · rw [expand_cons_of_ne hä, List.map_cons, precomposeFrom_first]
      exact continueFrom_expand hc htail hchain

/-! ## There and back -/

/-- The way back: decomposed text of at most 383 characters becomes the text again. -/
theorem convertUtf8decToUtf8pre_expand {cs : List Char} (hcs : ∀ c ∈ cs, InBmp c)
    (hlen : cs.length ≤ 383) (hchain : NothingComposes cs) :
    convertUtf8decToUtf8pre (utf8 (expand cs)) = some (utf8 cs) := by
  rw [convertUtf8decToUtf8pre, utf8ToUcs2_utf8 (inBmp_of_mem_expand hcs), Option.bind_some,
    precomposeFrom_expand hcs hchain, Option.bind_some, List.length_map, path16preSize,
    if_pos (by omega), ucs2ToUtf8_map_unit hcs]

/-- **Round trip.**  A text of at most 383 characters with 16 bit units, no two neighbours of
which compose, survives the conversion to the server and back, whenever the two destinations hold
what is written to them. -/
theorem convertPath_roundTrip (cs : List Char) (afpLen unixLen : ℕ) (hcs : ∀ c ∈ cs, InBmp c)
    (hlen : cs.length ≤ 383) (hchain : NothingComposes cs)
    (hafp : (convertUtf8preToUtf8dec (utf8 cs)).length < afpLen)
    (hunix : (utf8 cs).length < unixLen) :
    ∃ afp, convertPathToAfp .kFPUTF8Name (utf8 cs) afpLen = some (0, afp) ∧
      convertPathToUnix .kFPUTF8Name afp unixLen = some (0, utf8 cs) := by
  refine ⟨convertUtf8preToUtf8dec (utf8 cs), if_pos hafp, ?_⟩
  rw [convertPathToUnix, convertUtf8preToUtf8dec_utf8 hcs,
    convertUtf8decToUtf8pre_expand hcs hlen hchain, Option.bind_some]
  exact if_pos hunix

/-- A name with two umlauts in a row and a letter that a later mark could have composed with. -/
theorem convertPath_roundTrip_of_name :
    ∃ afp, convertPathToAfp .kFPUTF8Name (utf8 ['B', 'ä', 'ä', 'e', 'β', '\u20AC']) 768 =
        some (0, afp) ∧
      convertPathToUnix .kFPUTF8Name afp 768 =
        some (0, utf8 ['B', 'ä', 'ä', 'e', 'β', '\u20AC']) :=
  convertPath_roundTrip ['B', 'ä', 'ä', 'e', 'β', '\u20AC'] 768 768 (by simp [InBmp]) (by decide)
    (by unfold NothingComposes; decide +kernel) (by decide) (by decide)

end Codepage
end Afpfs

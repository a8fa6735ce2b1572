import Afpfs.Lib.Memory
import Afpfs.Lib.Wire
import Afpfs.Volume

/-!
# Path names in messages

`lib/utils.c`: a path name is sent as a block, which is a type, for UTF-8 names a hint, a length and
the name with zero bytes between its components.  `copyPath` writes the block through a temporary
buffer of 255 bytes and `unixpathToAfppath` replaces the separators in place.  The message is the
memory behind an address; `none` is a write behind the end of the temporary buffer.

`afpMoveandrename` of `lib/proto_directory.c` puts three blocks behind one another.

* `writePath_eq`: what the two functions together write.
* `block_iff`: it is the block of the name, and nothing else, if and only if the name and its length
  fit in the temporary buffer.
* `moveandrename_iff`: the message decodes to its three names if and only if each of them does.
-/

set_option autoImplicit false

namespace Afpfs
namespace PathBlock

open Unicode Codepage Memory Wire

/-! ## Writing a block -/

/-- The value of an encoding in the protocol. -/
def encodingByte : PathEncoding → UInt8
  | .kFPShortName => 1
  | .kFPLongName => 2
  | .kFPUTF8Name => 3

/-- The hint about the encoding of a UTF-8 name. -/
def textEncodingHint : ℕ := 0x08000103

/-- The size of `tmppathname`. -/
def tmpSize : ℕ := 255

/-- `copy_to_pascal()`: the bytes it writes and its result. -/
def copyToPascal (src : CString) : List UInt8 × UInt8 :=
  let len := UInt8.ofNat src.length
  (len :: src.take len.toNat, len)

/-- `copy_to_pascal_two()`: the bytes it writes and its result. -/
def copyToPascalTwo (src : CString) : List UInt8 × UInt16 :=
  let len := UInt16.ofNat src.length
  (toBE 2 len.toNat ++ src.take len.toNat, len)

/-- `sizeof_path_header()`. -/
def sizeofPathHeader : PathEncoding → ℕ
  | .kFPUTF8Name => 7
  | .kFPLongName => 2
  | .kFPShortName => 0

/-- `copy_path()` to the address `dest`.  The length of the name is an `unsigned char` there. -/
def copyPath (encoding : PathEncoding) (m : ℕ → UInt8) (dest : ℕ) (pathname : CString) :
    Option (ℕ → UInt8) :=
  match encoding with
  | .kFPUTF8Name =>
    let m := store m dest [encodingByte encoding]
    let m := store m (dest + 1) (toBE 4 textEncodingHint)
    let (tmppathname, len) := copyToPascalTwo pathname
    let namelen := len.toUInt8
    if tmpSize < tmppathname.length then none
    else some (store m (dest + 5) (tmppathname.take (namelen.toNat + 2)))
  | .kFPLongName =>
    let m := store m dest [encodingByte encoding]
    let (tmppathname, namelen) := copyToPascal pathname
    if tmpSize < tmppathname.length then none
    else some (store m (dest + 1) (tmppathname.take (namelen.toNat + 1)))
  | .kFPShortName => some m

/-- The loop of `unixpath_to_afppath()` over the `n` bytes from `p` on. -/
def replaceSlashes (m : ℕ → UInt8) (p : ℕ) : ℕ → ℕ → UInt8
  | 0 => m
  | n + 1 => replaceSlashes (if m p = slash then store m p [0] else m) (p + 1) n

/-- `unixpath_to_afppath()` on the block at `buf`. -/
def unixpathToAfppath (encoding : PathEncoding) (m : ℕ → UInt8) (buf : ℕ) : Option (ℕ → UInt8) :=
  match encoding with
  | .kFPUTF8Name => some (replaceSlashes m (buf + 7) (ofBE (load m (buf + 5) 2)))
  | .kFPLongName => some (replaceSlashes m (buf + 2) (m (buf + 1)).toNat)
  -- neither the position nor the length is set
  | .kFPShortName => none

/-- The two calls, which always follow one another. -/
def writePath (encoding : PathEncoding) (m : ℕ → UInt8) (dest : ℕ) (pathname : CString) :
    Option (ℕ → UInt8) := do
  let m ← copyPath encoding m dest pathname
  unixpathToAfppath encoding m dest

/-! ## What a block is -/

/-- A separator is a zero byte in a message. -/
def toAfp (b : UInt8) : UInt8 := if b = slash then 0 else b

/-- And back. -/
def toUnix (b : UInt8) : UInt8 := if b = 0 then slash else b

/-- The block of a path name. -/
def block (encoding : PathEncoding) (pathname : CString) : List UInt8 :=
  match encoding with
  | .kFPUTF8Name => encodingByte encoding ::
      (toBE 4 textEncodingHint ++ (toBE 2 pathname.length ++ pathname.map toAfp))
  | .kFPLongName =>
      encodingByte encoding :: UInt8.ofNat pathname.length :: pathname.map toAfp
  | .kFPShortName => []

/-- The name of `len` bytes at the front, and what is behind it. -/
def takeName (len : ℕ) (data : List UInt8) : Option (CString × List UInt8) :=
  if len ≤ data.length then some ((data.take len).map toUnix, data.drop len) else none

/-- A block at the front: its name, and what is behind it. -/
def decodeBlock (encoding : PathEncoding) (bytes : List UInt8) : Option (CString × List UInt8) :=
  match encoding with
  | .kFPUTF8Name =>
    if bytes.take 5 = encodingByte encoding :: toBE 4 textEncodingHint ∧ 7 ≤ bytes.length then
      takeName (ofBE ((bytes.drop 5).take 2)) (bytes.drop 7)
    else none
  | .kFPLongName =>
    match bytes with
    | type :: len :: data =>
      if type = encodingByte encoding then takeName len.toNat data else none
    | _ => none
  | .kFPShortName => none

/-! ## What is written -/

/-- The loop replaces the separators of what was stored. -/
theorem replaceSlashes_store (m : ℕ → UInt8) (p : ℕ) (data : List UInt8) :
    replaceSlashes (store m p data) p data.length = store m p (data.map toAfp) := by
  induction data generalizing m p with
  | nil => rfl
  | cons b data ih =>
    have hfirst : store m p (b :: data) p = b := by
      rw [store, if_pos (Nat.le_refl p), Nat.sub_self]
      rfl
    have hsplit (c : UInt8) (rest : List UInt8) :
        store m p (c :: rest) = store (store m p [c]) (p + 1) rest := (store_cons ..).symm
    have hreplaced : (if store m p (b :: data) p = slash then store (store m p (b :: data)) p [0]
        else store m p (b :: data)) = store (store m p [toAfp b]) (p + 1) data := by
      rw [hfirst, toAfp]
      split
      · rw [← hsplit]
        ext j
        simp only [store]
        by_cases hj : j = p
        · subst hj
          simp
        · by_cases hle : p ≤ j
          · have hne : j - p ≠ 0 := by omega
            simp [hle, hne, List.getElem?_cons]
          · simp [hle]
      · exact hsplit b data
    rw [List.length_cons, replaceSlashes, hreplaced, ih, List.map_cons, ← hsplit]

variable {encoding : PathEncoding}

/-- The name and its length fit in the temporary buffer. -/
def FitsTmp (encoding : PathEncoding) (pathname : CString) : Prop :=
  match encoding with
  | .kFPUTF8Name => (copyToPascalTwo pathname).1.length ≤ tmpSize
  | .kFPLongName => (copyToPascal pathname).1.length ≤ tmpSize
  | .kFPShortName => False

theorem copyToPascalTwo_eq {pathname : CString}
    (hfits : (copyToPascalTwo pathname).1.length ≤ tmpSize) :
    copyToPascalTwo pathname = (toBE 2 (pathname.length % 256) ++
      pathname.take (pathname.length % 256), UInt16.ofNat (pathname.length % 256)) := by
  have hlen : (UInt16.ofNat pathname.length).toNat = pathname.length % 256 := by
    rw [copyToPascalTwo, List.length_append, length_toBE, List.length_take,
      UInt16.toNat_ofNat'] at hfits
    rw [UInt16.toNat_ofNat']
    unfold tmpSize at hfits
    omega
  rw [copyToPascalTwo, hlen, ← hlen, UInt16.ofNat_toNat]

theorem copyToPascal_eq (pathname : CString) :
    copyToPascal pathname = (UInt8.ofNat (pathname.length % 256) ::
      pathname.take (pathname.length % 256), UInt8.ofNat (pathname.length % 256)) := by
  have hlen : (UInt8.ofNat pathname.length).toNat = pathname.length % 256 := UInt8.toNat_ofNat'
  rw [copyToPascal, hlen, ← hlen, UInt8.ofNat_toNat]

/-- A header and a name behind it, and then the separators in the name are replaced. -/
theorem replaceSlashes_header (m : ℕ → UInt8) (dest : ℕ) (header name : List UInt8) :
    replaceSlashes (store m dest (header ++ name)) (dest + header.length) name.length =
      store m dest (header ++ name.map toAfp) := by
  rw [← store_store, replaceSlashes_store, store_store]

/-- **What is written** is the block of what is left of the name by an 8 bit length. -/
theorem writePath_eq {pathname : CString} (hfits : FitsTmp encoding pathname) (m : ℕ → UInt8)
    (dest : ℕ) : writePath encoding m dest pathname =
      some (store m dest (block encoding (pathname.take (pathname.length % 256)))) := by
  have hle : pathname.length % 256 ≤ pathname.length := Nat.mod_le ..
  have hlt : pathname.length % 256 < 256 := Nat.mod_lt _ (by decide)
  have htake : (pathname.take (pathname.length % 256)).length = pathname.length % 256 := by
    rw [List.length_take, Nat.min_eq_left hle]
  generalize hn : pathname.length % 256 = n at *
  cases encoding with
  | kFPShortName => exact hfits.elim
  | kFPUTF8Name =>
    have hpascal := copyToPascalTwo_eq hfits
    rw [hn] at hpascal
    have hfits' : (toBE 2 n ++ pathname.take n).length ≤ tmpSize := by
      have h : (copyToPascalTwo pathname).1.length ≤ tmpSize := hfits
      rwa [hpascal] at h
    have hnamelen : (UInt16.ofNat n).toUInt8.toNat + 2 = (toBE 2 n ++ pathname.take n).length := by
      rw [List.length_append, length_toBE, htake, UInt16.toNat_toUInt8, UInt16.toNat_ofNat']
      omega
    have hheader : (encodingByte .kFPUTF8Name :: toBE 4 textEncodingHint).length = 5 := by simp
    have hcopy : copyPath .kFPUTF8Name m dest pathname =
        some (store m dest ((encodingByte .kFPUTF8Name :: toBE 4 textEncodingHint) ++
          (toBE 2 n ++ pathname.take n))) := by
      simp only [copyPath, hpascal, if_neg (Nat.not_lt.mpr hfits'), hnamelen, List.take_length]
      rw [← store_store m dest (encodingByte .kFPUTF8Name :: toBE 4 textEncodingHint), hheader,
        store_cons]
    have hload := load_store_middle m dest (encodingByte .kFPUTF8Name :: toBE 4 textEncodingHint)
      (toBE 2 n) (pathname.take n)
    rw [hheader, length_toBE] at hload
    have hword : ofBE (toBE 2 n) = (pathname.take n).length := by
      rw [htake, ofBE_toBE_of_lt (by omega)]
    have hreplace := replaceSlashes_header m dest
      ((encodingByte .kFPUTF8Name :: toBE 4 textEncodingHint) ++ toBE 2 n) (pathname.take n)
    rw [List.length_append, hheader, length_toBE, List.append_assoc, List.append_assoc] at hreplace
    rw [writePath, hcopy, Option.bind_eq_bind, Option.bind_some, unixpathToAfppath, hload, hword,
      hreplace, block, htake]
    rfl
  | kFPLongName =>
    have hpascal := copyToPascal_eq pathname
    rw [hn] at hpascal
    have hfits' : (UInt8.ofNat n :: pathname.take n).length ≤ tmpSize := by
      have h : (copyToPascal pathname).1.length ≤ tmpSize := hfits
      rwa [hpascal] at h
    have hword : (UInt8.ofNat n).toNat = n := by
      rw [UInt8.toNat_ofNat']
      omega
    have hnamelen : (UInt8.ofNat n).toNat + 1 = (UInt8.ofNat n :: pathname.take n).length := by
      rw [List.length_cons, htake, hword]
    have hcopy : copyPath .kFPLongName m dest pathname =
        some (store m dest ([encodingByte .kFPLongName, UInt8.ofNat n] ++ pathname.take n)) := by
      simp only [copyPath, hpascal, if_neg (Nat.not_lt.mpr hfits'), hnamelen, List.take_length]
      rw [store_cons]
      rfl
    have hload : store m dest ([encodingByte .kFPLongName, UInt8.ofNat n] ++ pathname.take n)
        (dest + 1) = UInt8.ofNat n := by
      rw [store, if_pos (Nat.le_add_right ..), Nat.add_sub_cancel_left]
      rfl
    have hreplace := replaceSlashes_header m dest [encodingByte .kFPLongName, UInt8.ofNat n]
      (pathname.take n)
    rw [htake] at hreplace
    rw [writePath, hcopy, Option.bind_eq_bind, Option.bind_some, unixpathToAfppath, hload, hword,
      block, htake]
    exact congrArg some hreplace

/-- A name that does not fit. -/
theorem writePath_none {pathname : CString} (hfits : ¬ FitsTmp encoding pathname) (m : ℕ → UInt8)
    (dest : ℕ) : writePath encoding m dest pathname = none := by
  cases encoding with
  | kFPShortName => rfl
  | kFPUTF8Name =>
    have hlt : tmpSize < (copyToPascalTwo pathname).1.length := Nat.lt_of_not_le hfits
    simp only [writePath, copyPath, if_pos hlt]
    rfl
  | kFPLongName =>
    have hlt : tmpSize < (copyToPascal pathname).1.length := Nat.lt_of_not_le hfits
    simp only [writePath, copyPath, if_pos hlt]
    rfl

/-! ## What is read -/

theorem toUnix_toAfp {b : UInt8} (hb : b ≠ 0) : toUnix (toAfp b) = b := by
  rw [toAfp]
  split
  · rename_i hslash
    rw [hslash]
    rfl
  · rw [toUnix, if_neg hb]

theorem map_toUnix_toAfp {name : CString} (hname : (0 : UInt8) ∉ name) :
    (name.map toAfp).map toUnix = name := by
  rw [List.map_map]
  refine (List.map_congr_left fun b hb => ?_).trans (List.map_id name)
  exact toUnix_toAfp fun hzero => hname (hzero ▸ hb)

theorem takeName_append {name : CString} (hname : (0 : UInt8) ∉ name) (rest : List UInt8) :
    takeName name.length (name.map toAfp ++ rest) = some (name, rest) := by
  have hlen : name.length = (name.map toAfp).length := (List.length_map _).symm
  have hle : name.length ≤ (name.map toAfp ++ rest).length := by
    rw [List.length_append, ← hlen]
    exact Nat.le_add_right ..
  rw [takeName, if_pos hle, hlen, List.take_left, List.drop_left, map_toUnix_toAfp hname]

/-- **Reading a block**: its name, and what is behind it. -/
theorem decodeBlock_block {name : CString} (hencoding : encoding ≠ .kFPShortName)
    (hname : (0 : UInt8) ∉ name) (hlen : name.length < 256) (rest : List UInt8) :
    decodeBlock encoding (block encoding name ++ rest) = some (name, rest) := by
  cases encoding with
  | kFPShortName => exact absurd rfl hencoding
  | kFPUTF8Name =>
    have hheader : (encodingByte .kFPUTF8Name :: toBE 4 textEncodingHint).length = 5 := by simp
    have hblock : block .kFPUTF8Name name ++ rest =
        (encodingByte .kFPUTF8Name :: toBE 4 textEncodingHint) ++
          (toBE 2 name.length ++ (name.map toAfp ++ rest)) := by
      simp only [block, List.cons_append, List.append_assoc]
    have hseven : 7 ≤ ((encodingByte .kFPUTF8Name :: toBE 4 textEncodingHint) ++
        (toBE 2 name.length ++ (name.map toAfp ++ rest))).length := by
      rw [List.length_append, hheader, List.length_append, length_toBE]
      omega
    have hdrop : ((encodingByte .kFPUTF8Name :: toBE 4 textEncodingHint) ++
        (toBE 2 name.length ++ (name.map toAfp ++ rest))).drop 5 =
        toBE 2 name.length ++ (name.map toAfp ++ rest) := List.drop_left' hheader
    rw [hblock, decodeBlock, if_pos ⟨List.take_left' hheader, hseven⟩, hdrop,
      List.take_left' (length_toBE 2 _), ofBE_toBE_of_lt (by omega), ← List.drop_drop (i := 2),
      hdrop, List.drop_left' (length_toBE 2 _), takeName_append hname]
  | kFPLongName =>
    have hword : (UInt8.ofNat name.length).toNat = name.length := by
      rw [UInt8.toNat_ofNat']
      omega
    simp only [block, List.cons_append, decodeBlock, if_true, hword, takeName_append hname]

theorem takeName_length {len : ℕ} {data rest : List UInt8} {name : CString}
    (h : takeName len data = some (name, rest)) : name.length = len := by
  rw [takeName] at h
  split at h
  · rename_i hle
    rw [← (Prod.mk.inj (Option.some.inj h)).1, List.length_map, List.length_take,
      Nat.min_eq_left hle]
  · exact nomatch h

/-! ## One block -/

/-- The longest name that fits in the temporary buffer with its length. -/
def maxName : PathEncoding → ℕ
  | .kFPUTF8Name => 253
  | .kFPLongName => 254
  | .kFPShortName => 0

/-- A path name as its users have it: no zero byte, not longer than a path buffer, and
`invalid_filename()` does not object. -/
structure Acceptable (server : AfpServer) (pathname : CString) : Prop where
  nonzero : (0 : UInt8) ∉ pathname
  length : pathname.length < AFP_MAX_PATH
  valid : invalidFilename server pathname = false

/-- The block at `dest` is that of the name and decodes to it, and no other byte is written. -/
def WritesBlock (encoding : PathEncoding) (m : ℕ → UInt8) (dest : ℕ) (pathname : CString) : Prop :=
  ∃ m', writePath encoding m dest pathname = some m' ∧
    load m' dest (sizeofPathHeader encoding + pathname.length) = block encoding pathname ∧
    decodeBlock encoding (block encoding pathname) = some (pathname, []) ∧
    ∀ j, j < dest ∨ dest + (sizeofPathHeader encoding + pathname.length) ≤ j → m' j = m j

theorem length_block (hencoding : encoding ≠ .kFPShortName) (pathname : CString) :
    (block encoding pathname).length = sizeofPathHeader encoding + pathname.length := by
  cases encoding with
  | kFPShortName => exact absurd rfl hencoding
  | kFPUTF8Name =>
    rw [block, List.length_cons, List.length_append, List.length_append, length_toBE, length_toBE,
      List.length_map, sizeofPathHeader]
    omega
  | kFPLongName =>
    rw [block, List.length_cons, List.length_cons, List.length_map, sizeofPathHeader]
    omega

theorem fitsTmp_of_le {pathname : CString} (hencoding : encoding ≠ .kFPShortName)
    (hle : pathname.length ≤ maxName encoding) : FitsTmp encoding pathname := by
  cases encoding with
  | kFPShortName => exact absurd rfl hencoding
  | kFPUTF8Name =>
    simp only [maxName] at hle
    rw [FitsTmp, copyToPascalTwo, List.length_append, length_toBE, List.length_take, tmpSize]
    omega
  | kFPLongName =>
    simp only [maxName] at hle
    rw [FitsTmp, copyToPascal, List.length_cons, List.length_take, tmpSize]
    omega

/-- What fits and keeps its length is not longer than that. -/
theorem FitsTmp.le {pathname : CString} (hfits : FitsTmp encoding pathname)
    (hlen : pathname.length < 256) : pathname.length ≤ maxName encoding := by
  cases encoding with
  | kFPShortName => exact hfits.elim
  | kFPUTF8Name =>
    have hword : (UInt16.ofNat pathname.length).toNat = pathname.length := by
      rw [UInt16.toNat_ofNat']
      omega
    rw [FitsTmp, copyToPascalTwo, hword, List.take_length, List.length_append, length_toBE,
      tmpSize] at hfits
    simp only [maxName]
    omega
  | kFPLongName =>
    have hword : (UInt8.ofNat pathname.length).toNat = pathname.length := by
      rw [UInt8.toNat_ofNat']
      omega
    rw [FitsTmp, copyToPascal, hword, List.take_length, List.length_cons, tmpSize] at hfits
    simp only [maxName]
    omega

/-- Blocks that decode to what they were made of have short names, or long lengths. -/
theorem length_lt_of_fits_of_decodes {pathname : CString} (hfits : FitsTmp encoding pathname)
    (hlen : pathname.length < AFP_MAX_PATH)
    (hdecodes : decodeBlock encoding (block encoding pathname) = some (pathname, [])) :
    pathname.length < 256 := by
  cases encoding with
  | kFPShortName => exact hfits.elim
  | kFPUTF8Name =>
    unfold AFP_MAX_PATH at hlen
    have hword : (UInt16.ofNat pathname.length).toNat = pathname.length := by
      rw [UInt16.toNat_ofNat']
      omega
    rw [FitsTmp, copyToPascalTwo, hword, List.take_length, List.length_append, length_toBE,
      tmpSize] at hfits
    omega
  | kFPLongName =>
    simp only [block, decodeBlock, if_true] at hdecodes
    have hname := takeName_length hdecodes
    rw [hname]
    exact UInt8.toNat_lt _

/-- **One block** is right if and only if the name fits. -/
theorem writesBlock_iff (hencoding : encoding ≠ .kFPShortName) {pathname : CString}
    (hname : (0 : UInt8) ∉ pathname) (hlen : pathname.length < AFP_MAX_PATH) (m : ℕ → UInt8)
    (dest : ℕ) : WritesBlock encoding m dest pathname ↔ pathname.length ≤ maxName encoding := by
  constructor
  · rintro ⟨m', hwrite, -, hdecodes, -⟩
    have hfits : FitsTmp encoding pathname := by
      by_contra hfits
      rw [writePath_none hfits] at hwrite
      exact nomatch hwrite
    exact hfits.le (length_lt_of_fits_of_decodes hfits hlen hdecodes)
  · intro hle
    have hlt : pathname.length < 256 := by
      cases encoding <;> exact Nat.lt_of_le_of_lt hle (by decide)
    have hwrite := writePath_eq (fitsTmp_of_le hencoding hle) m dest
    rw [Nat.mod_eq_of_lt hlt, List.take_length] at hwrite
    have hblock := length_block hencoding pathname
    refine ⟨_, hwrite, ?_, ?_, fun j hj => ?_⟩
    · rw [← hblock, load_store]
    · have h := decodeBlock_block hencoding hname hlt []
      rwa [List.append_nil] at h
    · rcases hj with hj | hj
      · exact store_of_lt m _ hj
      · exact store_of_le m (hblock ▸ hj)

/-! ## Three blocks -/

/-- `afpMoveAndRename`. -/
def moveAndRename : UInt8 := 23

/-- The size of the fixed part of the message. -/
def fixedSize : ℕ := 28

/-- The message of `afp_moveandrename()`.  `dsiHeader` is what `dsi_setup_header()` writes, and
`garbage` what `malloc()` returns. -/
def afpMoveandrename (encoding : PathEncoding) (volid : UInt16) (dsiHeader : List UInt8)
    (garbage : ℕ → UInt8) (srcDid dstDid : UInt32) (srcPath : CString) (dstPath : Option CString)
    (newName : CString) : Option (List UInt8) := do
  let dstPath := dstPath.getD []
  let headerLen := sizeofPathHeader encoding
  let len := fixedSize + 3 * headerLen + dstPath.length + srcPath.length + newName.length
  let m := store garbage 0 (dsiHeader ++ [moveAndRename, 0] ++ toBE 2 volid.toNat ++
    toBE 4 srcDid.toNat ++ toBE 4 dstDid.toNat)
  let p := fixedSize
  let m ← writePath encoding m p srcPath
  let m ← writePath encoding m (p + headerLen + srcPath.length) dstPath
  let m ← writePath encoding m (p + headerLen + srcPath.length + headerLen + dstPath.length) newName
  return load m 0 len

/-- Block after block, the message decodes to three names. -/
def Decodes (encoding : PathEncoding) (msg : List UInt8) (srcPath dstPath newName : CString) :
    Prop :=
  ∃ rest rest', decodeBlock encoding (msg.drop fixedSize) = some (srcPath, rest) ∧
    decodeBlock encoding rest = some (dstPath, rest') ∧
    decodeBlock encoding rest' = some (newName, [])

/-- What is left of a name by an 8 bit length. -/
def cut (pathname : CString) : CString := pathname.take (pathname.length % 256)

theorem length_cut (pathname : CString) : (cut pathname).length = pathname.length % 256 := by
  rw [cut, List.length_take, Nat.min_eq_left (Nat.mod_le ..)]

theorem cut_eq_self {pathname : CString} (hlen : pathname.length < 256) : cut pathname = pathname := by
  rw [cut, Nat.mod_eq_of_lt hlen, List.take_length]

theorem zero_notMem_cut {pathname : CString} (hname : (0 : UInt8) ∉ pathname) :
    (0 : UInt8) ∉ cut pathname := fun h => hname (List.mem_of_mem_take h)

theorem length_block_cut_le (hencoding : encoding ≠ .kFPShortName) (pathname : CString) :
    (block encoding (cut pathname)).length ≤ sizeofPathHeader encoding + pathname.length := by
  rw [length_block hencoding, length_cut]
  exact Nat.add_le_add_left (Nat.mod_le ..) _

/-- Reading a block in memory. -/
theorem decodeBlock_load (hencoding : encoding ≠ .kFPShortName) {m : ℕ → UInt8} {p n : ℕ}
    {name : CString} (hname : (0 : UInt8) ∉ name) (hlen : name.length < 256)
    (hload : load m p (block encoding name).length = block encoding name)
    (hn : (block encoding name).length ≤ n) :
    decodeBlock encoding (load m p n) = some (name,
      load m (p + (block encoding name).length) (n - (block encoding name).length)) := by
  obtain ⟨k, rfl⟩ := Nat.exists_eq_add_of_le hn
  rw [load_add, hload, Nat.add_sub_cancel_left, decodeBlock_block hencoding hname hlen]

/-- A block of which a name may have been cut decodes to the whole name only if it is short. -/
theorem decodeBlock_cut_iff (hencoding : encoding ≠ .kFPShortName) {m : ℕ → UInt8} {p n : ℕ}
    {name : CString} (hname : (0 : UInt8) ∉ name)
    (hload : load m p (block encoding (cut name)).length = block encoding (cut name))
    (hn : sizeofPathHeader encoding + name.length ≤ n) (rest : List UInt8) :
    decodeBlock encoding (load m p n) = some (name, rest) ↔
      name.length < 256 ∧ rest = load m (p + (sizeofPathHeader encoding + name.length))
        (n - (sizeofPathHeader encoding + name.length)) := by
  have hlt : (cut name).length < 256 := length_cut name ▸ Nat.mod_lt _ (by decide)
  rw [decodeBlock_load hencoding (zero_notMem_cut hname) hlt hload
    ((length_block_cut_le hencoding name).trans hn)]
  constructor
  · intro h
    obtain ⟨hcut, hrest⟩ := Prod.mk.inj (Option.some.inj h)
    rw [hcut] at hlt hrest
    exact ⟨hlt, by rw [← hrest, length_block hencoding]⟩
  · rintro ⟨hshort, rfl⟩
    rw [cut_eq_self hshort, length_block hencoding]

/-- Three stores, each behind the one before. -/
theorem load_three {m : ℕ → UInt8} {p q r : ℕ} {a b c : List UInt8} (hq : p + a.length ≤ q)
    (hr : q + b.length ≤ r) :
    load (store (store (store m p a) q b) r c) p a.length = a ∧
      load (store (store (store m p a) q b) r c) q b.length = b ∧
      load (store (store (store m p a) q b) r c) r c.length = c := by
  refine ⟨?_, ?_, load_store _ _ _⟩
  · rw [load_store_of_le _ _ (by omega), load_store_of_le _ _ hq, load_store]
  · rw [load_store_of_le _ _ hr, load_store]

section Message

variable {volid : UInt16} {dsiHeader : List UInt8} {garbage : ℕ → UInt8} {srcDid dstDid : UInt32}
  {srcPath newName : CString} {dstPath : Option CString}

/-- A message is built only if the three names fit. -/
theorem fitsTmp_of_message {msg : List UInt8}
    (h : afpMoveandrename encoding volid dsiHeader garbage srcDid dstDid srcPath dstPath newName =
      some msg) :
    FitsTmp encoding srcPath ∧ FitsTmp encoding (dstPath.getD []) ∧ FitsTmp encoding newName := by
  simp only [afpMoveandrename, Option.bind_eq_bind] at h
  by_cases hsrc : FitsTmp encoding srcPath
  · rw [writePath_eq hsrc, Option.bind_some] at h
    by_cases hdst : FitsTmp encoding (dstPath.getD [])
    · rw [writePath_eq hdst, Option.bind_some] at h
      by_cases hnew : FitsTmp encoding newName
      · exact ⟨hsrc, hdst, hnew⟩
      · rw [writePath_none hnew] at h
        exact nomatch h
    · rw [writePath_none hdst] at h
      exact nomatch h
  · rw [writePath_none hsrc] at h
    exact nomatch h

/-- What the message is then: three blocks at the places that the lengths of the names give. -/
theorem message_of_fitsTmp (hencoding : encoding ≠ .kFPShortName)
    (hsrc : FitsTmp encoding srcPath) (hdst : FitsTmp encoding (dstPath.getD []))
    (hnew : FitsTmp encoding newName) :
    ∃ m p q r len, p = fixedSize ∧ q = p + (sizeofPathHeader encoding + srcPath.length) ∧
      r = q + (sizeofPathHeader encoding + (dstPath.getD []).length) ∧
      len = r + (sizeofPathHeader encoding + newName.length) ∧
      load m p (block encoding (cut srcPath)).length = block encoding (cut srcPath) ∧
      load m q (block encoding (cut (dstPath.getD []))).length =
        block encoding (cut (dstPath.getD [])) ∧
      load m r (block encoding (cut newName)).length = block encoding (cut newName) ∧
      afpMoveandrename encoding volid dsiHeader garbage srcDid dstDid srcPath dstPath newName =
        some (load m 0 len) := by
  generalize hdstPath : dstPath.getD [] = dst at *
  have hq := Nat.add_le_add_left (length_block_cut_le hencoding srcPath) fixedSize
  have hr := Nat.add_le_add_left (length_block_cut_le hencoding dst)
    (fixedSize + (sizeofPathHeader encoding + srcPath.length))
  obtain ⟨h₁, h₂, h₃⟩ := @load_three (store garbage 0 (dsiHeader ++ [moveAndRename, 0] ++
    toBE 2 volid.toNat ++ toBE 4 srcDid.toNat ++ toBE 4 dstDid.toNat)) _ _ _ _ _
    (block encoding (cut newName)) hq hr
  refine ⟨_, _, _, _, _, rfl, rfl, rfl, rfl, h₁, h₂, h₃, ?_⟩
  simp only [afpMoveandrename, Option.bind_eq_bind, hdstPath]
  rw [writePath_eq hsrc, Option.bind_some, writePath_eq hdst, Option.bind_some, writePath_eq hnew,
    Option.bind_some]
  have hlen : fixedSize + 3 * sizeofPathHeader encoding + dst.length + srcPath.length +
      newName.length = fixedSize + (sizeofPathHeader encoding + srcPath.length) +
        (sizeofPathHeader encoding + dst.length) +
        (sizeofPathHeader encoding + newName.length) := by
    omega
  have hmid : fixedSize + sizeofPathHeader encoding + srcPath.length =
      fixedSize + (sizeofPathHeader encoding + srcPath.length) := Nat.add_assoc ..
  have hend : fixedSize + sizeofPathHeader encoding + srcPath.length + sizeofPathHeader encoding +
      dst.length = fixedSize + (sizeofPathHeader encoding + srcPath.length) +
        (sizeofPathHeader encoding + dst.length) := by
    omega
  rw [hlen, hend, hmid]
  rfl

/-- **The message** decodes to its three names if and only if each of them fits. -/
theorem moveandrename_iff (hencoding : encoding ≠ .kFPShortName) (hsrc : (0 : UInt8) ∉ srcPath)
    (hdst : (0 : UInt8) ∉ dstPath.getD []) (hnew : (0 : UInt8) ∉ newName) :
    (∃ msg, afpMoveandrename encoding volid dsiHeader garbage srcDid dstDid srcPath dstPath newName =
        some msg ∧ Decodes encoding msg srcPath (dstPath.getD []) newName) ↔
      srcPath.length ≤ maxName encoding ∧ (dstPath.getD []).length ≤ maxName encoding ∧
        newName.length ≤ maxName encoding := by
  -- in a message of names that fit, the blocks decode if and only if the lengths have 8 bits
  have hdecodes (h₁ : FitsTmp encoding srcPath) (h₂ : FitsTmp encoding (dstPath.getD []))
      (h₃ : FitsTmp encoding newName) : ∃ msg,
        afpMoveandrename encoding volid dsiHeader garbage srcDid dstDid srcPath dstPath newName =
          some msg ∧ (Decodes encoding msg srcPath (dstPath.getD []) newName ↔
            srcPath.length < 256 ∧ (dstPath.getD []).length < 256 ∧ newName.length < 256) := by
    obtain ⟨m, p, q, r, len, rfl, rfl, rfl, rfl, hp, hq, hr, hmsg⟩ :=
      @message_of_fitsTmp _ volid dsiHeader garbage srcDid dstDid _ _ _ hencoding h₁ h₂ h₃
    refine ⟨_, hmsg, ?_⟩
    have hsecond : ∀ a b c d : ℕ, a + b + c + d - a - b - c = d := fun a b c d => by omega
    rw [Decodes, drop_load, Nat.zero_add]
    constructor
    · rintro ⟨rest, rest', hfirst, hrest, hrest'⟩
      rw [decodeBlock_cut_iff hencoding hsrc hp (by omega)] at hfirst
      obtain ⟨hlt, rfl⟩ := hfirst
      rw [decodeBlock_cut_iff hencoding hdst hq (by omega)] at hrest
      obtain ⟨hlt', rfl⟩ := hrest
      rw [decodeBlock_cut_iff hencoding hnew hr (by omega)] at hrest'
      exact ⟨hlt, hlt', hrest'.1⟩
    · rintro ⟨hlt, hlt', hlt''⟩
      refine ⟨_, _, (decodeBlock_cut_iff hencoding hsrc hp (by omega) _).mpr ⟨hlt, rfl⟩,
        (decodeBlock_cut_iff hencoding hdst hq (by omega) _).mpr ⟨hlt', rfl⟩,
        (decodeBlock_cut_iff hencoding hnew hr (by omega) _).mpr ⟨hlt'', ?_⟩⟩
      rw [hsecond, Nat.sub_self, load_zero]
  constructor
  · rintro ⟨msg, hmsg, hmsgDecodes⟩
    obtain ⟨h₁, h₂, h₃⟩ := fitsTmp_of_message hmsg
    obtain ⟨msg', hmsg', hiff⟩ := hdecodes h₁ h₂ h₃
    have hsame : msg = msg' := Option.some.inj (hmsg.symm.trans hmsg')
    subst hsame
    obtain ⟨hlt, hlt', hlt''⟩ := hiff.mp hmsgDecodes
    exact ⟨h₁.le hlt, h₂.le hlt', h₃.le hlt''⟩
  · rintro ⟨hle, hle', hle''⟩
    have hshort {n : ℕ} (hn : n ≤ maxName encoding) : n < 256 := by
      cases encoding <;> exact Nat.lt_of_le_of_lt hn (by decide)
    obtain ⟨msg, hmsg, hiff⟩ := hdecodes (fitsTmp_of_le hencoding hle)
      (fitsTmp_of_le hencoding hle') (fitsTmp_of_le hencoding hle'')
    exact ⟨msg, hmsg, hiff.mpr ⟨hshort hle, hshort hle', hshort hle''⟩⟩

end Message

/-- **Names on the wire.**  For names that `invalid_filename()` accepts, one block and the message
with three of them are right if and only if the names fit in the temporary buffer. -/
theorem pathBlock_iff (server : AfpServer) (hencoding : server.pathEncoding ≠ .kFPShortName) :
    (∀ pathname, Acceptable server pathname → ∀ m dest,
      (WritesBlock server.pathEncoding m dest pathname ↔
        pathname.length ≤ maxName server.pathEncoding)) ∧
    ∀ volid dsiHeader garbage srcDid dstDid srcPath dstPath newName, Acceptable server srcPath →
      Acceptable server (dstPath.getD []) → Acceptable server newName →
      ((∃ msg, afpMoveandrename server.pathEncoding volid dsiHeader garbage srcDid dstDid srcPath
          dstPath newName = some msg ∧
          Decodes server.pathEncoding msg srcPath (dstPath.getD []) newName) ↔
        srcPath.length ≤ maxName server.pathEncoding ∧
          (dstPath.getD []).length ≤ maxName server.pathEncoding ∧
          newName.length ≤ maxName server.pathEncoding) := by
  constructor
  · intro pathname hname m dest
    exact writesBlock_iff hencoding hname.nonzero hname.length m dest
  · intro volid dsiHeader garbage srcDid dstDid srcPath dstPath newName hsrc hdst hnew
    exact moveandrename_iff hencoding hsrc.nonzero hdst.nonzero hnew.nonzero

/-- A name of one component, for the server of the examples. -/
theorem acceptable_component {name : CString} (hzero : (0 : UInt8) ∉ name) (hslash : slash ∉ name)
    (hlen : name.length < AFP_MAX_PATH) : Acceptable Volume.plain.server name where
  nonzero := hzero
  length := hlen
  valid := by
    cases name with
    | nil => rfl
    | cons b name =>
      rw [List.mem_cons, not_or] at hslash
      have hnone : Scan.strchr (b :: name) 1 slash = none :=
        @Scan.strchr_eq_none _ slash _ [b] name hslash.2
      have hroot : b :: name ≠ [slash] := fun h => hslash.1 (List.cons.inj h).1.symm
      have hmax : ¬ 1024 < (b :: name).length - 1 := by
        unfold AFP_MAX_PATH at hlen
        omega
      rw [invalidFilename, if_neg (List.cons_ne_nil b name), if_neg hroot]
      change invalidFrom 1024 (b :: name) 1 = false
      rw [invalidFrom]
      split
      · exact decide_eq_false hmax
      · rename_i heq
        exact absurd (hnone.symm.trans heq) (by simp)

/-- Names of one byte. -/
theorem pathBlock_iff_of_letters :
    WritesBlock .kFPUTF8Name (fun _ => 0) 0 [0x61] ∧
    ∃ msg, afpMoveandrename .kFPUTF8Name 1 (List.replicate 16 0) (fun _ => 0) 2 2 [0x61] none
      [0x62] = some msg ∧ Decodes .kFPUTF8Name msg [0x61] [] [0x62] := by
  have ha := @acceptable_component [0x61] (by decide) (by decide) (by decide)
  have hb := @acceptable_component [0x62] (by decide) (by decide) (by decide)
  have hroot := @acceptable_component [] (by decide) (by decide) (by decide)
  obtain ⟨hone, hthree⟩ := pathBlock_iff Volume.plain.server (by decide)
  refine ⟨(hone _ ha _ _).mpr (by decide), ?_⟩
  exact (hthree 1 (List.replicate 16 0) (fun _ => 0) 2 2 [0x61] none [0x62] ha hroot hb).mpr
    (by decide)

/-- **A name of 254 bytes overruns the temporary buffer.** -/
theorem long_name_overruns : ¬ ∀ (server : AfpServer) (pathname : CString) (m : ℕ → UInt8)
    (dest : ℕ), server.pathEncoding ≠ .kFPShortName → Acceptable server pathname →
      WritesBlock server.pathEncoding m dest pathname := by
  intro h
  have hletters (n : ℕ) (hn : n < AFP_MAX_PATH) :
      Acceptable Volume.plain.server (List.replicate n 0x61) :=
    acceptable_component (by simp) (by simp [slash]) (by rwa [List.length_replicate])
  have hname := hletters 254 (by decide)
  have hwrites := h Volume.plain.server _ (fun _ => 0) 0 (by decide) hname
  have hle := (writesBlock_iff (by decide) hname.nonzero hname.length _ _).mp hwrites
  rw [List.length_replicate] at hle
  exact absurd hle (by decide)

end PathBlock
end Afpfs

import Afpfs.PathBlock
import Afpfs.ReplyBlock

/-!
# Setting parameters

`afp_setparms_lowlevel()` of `lib/proto_files.c`: the message has a path name and, on the next even
address, a block of the parameters that a bitmap selects.  The cursor `p` is a `char *`.

* `setparms_sent`: what is sent.
* `setparms_iff`: `parse_reply_block()` reads the parameters back from the block, which ends with
  the message, if and only if the low byte of the attributes is zero or they are not selected: the
  attributes are stored through the `char *`, one byte of them.
-/

set_option autoImplicit false

namespace Afpfs
namespace SetParms

open Unicode Codepage Memory Wire PathBlock ReplyBlock

/-! ## The message -/

/-- `htons()` on a little endian machine. -/
def htons (x : UInt16) : UInt16 := UInt16.ofNat (x.toNat % 256 * 256 + x.toNat / 256)

/-- Store a parameter at the cursor, if it is selected, and move the cursor over `width` bytes. -/
def setField (present : Bool) (width : ℕ) (bytes : List UInt8) :
    (ℕ → UInt8) × ℕ → (ℕ → UInt8) × ℕ
  | (m, p) => if present then (store m p bytes, p + width) else (m, p)

/-- Where the path name is. -/
def pathOffset : ℕ := 26

/-- The message of `afp_setparms_lowlevel()` at the address `msg`: where its parameters are, and what
is sent.  `dsiHeader` is what `dsi_setup_header()` writes. -/
def afpSetparmsLowlevel (encoding : PathEncoding) (volid : UInt16) (dsiHeader : Vector UInt8 16)
    (msg : ℕ) (dirid : UInt32) (pathname : CString) (bitmap : UInt16) (fp : AfpFileInfo)
    (command : UInt8) : Option (ℕ × List UInt8) := do
  let p := pathOffset + sizeofPathHeader encoding + pathname.length
  let p := if (msg + p) % 2 = 1 then p + 1 else p
  let m := store (fun _ => 0) 0 (dsiHeader.toList ++ ([command, 0] ++ (toBE 2 volid.toNat ++
    (toBE 4 dirid.toNat ++ toBE 2 bitmap.toNat))))
  let m ← writePath encoding m pathOffset pathname
  let q := (m, p)
  -- the other byte is still zero
  let q := setField (has bitmap kFPAttributeBit) 2 [(htons fp.attributes).toUInt8] q
  let q := setField (has bitmap kFPCreateDateBit) 4 (putDate fp.creationDate) q
  let q := setField (has bitmap kFPModDateBit) 4 (putDate fp.modificationDate) q
  let q := setField (has bitmap kFPBackupDateBit) 4 (putDate fp.backupDate) q
  let q := setField (has bitmap kFPFinderInfoBit) 32 fp.finderinfo q
  let q := setField (has bitmap kFPUnixPrivsBit) 16 (putUnixprivs fp.unixprivs) q
  return (p, load q.1 0 q.2)

/-! ## What is expected -/

/-- The parameters that can be set. -/
def settable : ℕ :=
  kFPAttributeBit ||| kFPCreateDateBit ||| kFPModDateBit ||| kFPBackupDateBit |||
    kFPFinderInfoBit ||| kFPUnixPrivsBit

/-- The size of the selected parameters. -/
def parmsSize (bitmap : UInt16) : ℕ :=
  (if has bitmap kFPAttributeBit then 2 else 0) + (if has bitmap kFPCreateDateBit then 4 else 0) +
    (if has bitmap kFPModDateBit then 4 else 0) + (if has bitmap kFPBackupDateBit then 4 else 0) +
    (if has bitmap kFPFinderInfoBit then 32 else 0) + if has bitmap kFPUnixPrivsBit then 16 else 0

/-- The selected fields are the same. -/
structure SameFields (bitmap : UInt16) (fi fp : AfpFileInfo) : Prop where
  attributes : has bitmap kFPAttributeBit = true → fi.attributes = fp.attributes
  creationDate : has bitmap kFPCreateDateBit = true → fi.creationDate = fp.creationDate
  modificationDate : has bitmap kFPModDateBit = true → fi.modificationDate = fp.modificationDate
  backupDate : has bitmap kFPBackupDateBit = true → fi.backupDate = fp.backupDate
  finderinfo : has bitmap kFPFinderInfoBit = true → fi.finderinfo = fp.finderinfo
  unixprivs : has bitmap kFPUnixPrivsBit = true → fi.unixprivs = fp.unixprivs

/-- **Set and get agree**: behind the path name, on the next even address, is a block that decodes
to the same fields, and the message ends with it. -/
structure Agrees (encoding : PathEncoding) (msg : ℕ) (pathname : CString) (bitmap : UInt16)
    (fp : AfpFileInfo) (off : ℕ) (sent : List UInt8) : Prop where
  path : ∃ rest, decodeBlock encoding (sent.drop pathOffset) = some (pathname, rest)
  even : (msg + off) % 2 = 0
  behind : pathOffset + sizeofPathHeader encoding + pathname.length ≤ off ∧
    off ≤ pathOffset + sizeofPathHeader encoding + pathname.length + 1
  size : sent.length = off + parmsSize bitmap
  decodes : ∀ isdir, ∃ fi,
    parseReplyBlock (sent.drop off) isdir bitmap.toUInt32 bitmap.toUInt32 = some fi ∧
      SameFields bitmap fi fp

/-! ## What is sent -/

theorem load_setField {present : Bool} {width : ℕ} {bytes : List UInt8}
    (hwidth : bytes.length = width) (q : (ℕ → UInt8) × ℕ) :
    load (setField present width bytes q).1 0 (setField present width bytes q).2 =
      load q.1 0 q.2 ++ put present bytes := by
  cases present with
  | false => exact (List.append_nil _).symm
  | true =>
    subst hwidth
    exact load_store_append q.1 q.2 bytes

/-- Two bytes of which one is stored, where the other is zero already. -/
theorem load_setField_two {present : Bool} {b : UInt8} {q : (ℕ → UInt8) × ℕ}
    (hzero : q.1 (q.2 + 1) = 0) :
    load (setField present 2 [b] q).1 0 (setField present 2 [b] q).2 =
      load q.1 0 q.2 ++ put present [b, 0] := by
  cases present with
  | false => exact (List.append_nil _).symm
  | true =>
    have hsecond : load (store q.1 q.2 [b]) (0 + (q.2 + 1)) 1 = [0] := by
      have hkept : store q.1 q.2 [b] (q.2 + 1) = q.1 (q.2 + 1) := store_of_le q.1 (Nat.le_refl _)
      simp only [load, List.range_one, List.map_cons, List.map_nil, Nat.zero_add, Nat.add_zero,
        hkept, hzero]
    have hfirst := load_store_append q.1 q.2 [b]
    rw [List.length_singleton] at hfirst
    change load (store q.1 q.2 [b]) 0 (q.2 + 1 + 1) = load q.1 0 q.2 ++ [b, 0]
    rw [load_add, hfirst, hsecond, List.append_assoc]
    rfl

/-- The attributes that arrive. -/
def cutAttributes (attributes : UInt16) : UInt16 := UInt16.ofNat (attributes.toNat / 256 * 256)

theorem toBE_cutAttributes (attributes : UInt16) :
    toBE 2 (cutAttributes attributes).toNat = [(htons attributes).toUInt8, 0] := by
  have hlt := attributes.toNat_lt
  have hnat : (cutAttributes attributes).toNat = attributes.toNat / 256 * 256 := by
    rw [cutAttributes, UInt16.toNat_ofNat']
    omega
  have hlow : UInt8.ofNat (attributes.toNat / 256 * 256) = 0 := by
    refine UInt8.toNat_inj.mp ?_
    rw [UInt8.toNat_ofNat', Nat.mul_mod_left]
    rfl
  have hhigh : UInt8.ofNat (attributes.toNat / 256 * 256 / 256) = (htons attributes).toUInt8 := by
    refine UInt8.toNat_inj.mp ?_
    rw [UInt8.toNat_ofNat', UInt16.toNat_toUInt8, htons, UInt16.toNat_ofNat']
    omega
  rw [hnat, toBE, toBE, toBE, hlow, hhigh]
  rfl

/-- The attributes arrive if and only if their low byte is zero. -/
theorem cutAttributes_eq_iff (attributes : UInt16) :
    cutAttributes attributes = attributes ↔ attributes.toNat % 256 = 0 := by
  have hlt := attributes.toNat_lt
  rw [← UInt16.toNat_inj, cutAttributes, UInt16.toNat_ofNat']
  omega

/-- The values that the block encodes. -/
def sentParms (fp : AfpFileInfo) (hfinderinfo : fp.finderinfo.length = 32) : Parms where
  attributes := cutAttributes fp.attributes
  did := 0
  creationDate := fp.creationDate
  modificationDate := fp.modificationDate
  backupDate := fp.backupDate
  finderinfo := fp.finderinfo
  longName := []
  fileid := 0
  offspring := 0
  ownerId := 0
  groupId := 0
  accessrights := 0
  dataForkLen := 0
  rsrcForkLen := 0
  extDataForkLen := 0
  launchLimit := 0
  utf8Name := []
  extRsrcForkLen := 0
  unixprivs := fp.unixprivs
  finderinfo_length := hfinderinfo
  longName_length := Nat.zero_le _
  utf8Name_length := by decide

/-- The bitmap selects nothing else. -/
theorem has_eq_false {bitmap : UInt16} (hbitmap : bitmap.toNat &&& settable = bitmap.toNat)
    {bit : ℕ} (hbit : settable &&& bit = 0) : has bitmap bit = false := by
  rw [has, ← hbitmap, Nat.and_assoc, hbit, Nat.and_zero]
  rfl

/-- The parameters that can be set, as an encoding of all parameters has them. -/
theorem putParms_settable {bitmap : UInt16} (hbitmap : bitmap.toNat &&& settable = bitmap.toNat)
    (isdir : Bool) (v : Parms) (l : Layout) :
    putParms isdir bitmap v l [] =
      put (has bitmap kFPAttributeBit) (toBE 2 v.attributes.toNat) ++
      (put (has bitmap kFPCreateDateBit) (putDate v.creationDate) ++
      (put (has bitmap kFPModDateBit) (putDate v.modificationDate) ++
      (put (has bitmap kFPBackupDateBit) (putDate v.backupDate) ++
      (put (has bitmap kFPFinderInfoBit) v.finderinfo ++
      put (has bitmap kFPUnixPrivsBit) (putUnixprivs v.unixprivs))))) := by
  have h {bit : ℕ} (hbit : settable &&& bit = 0) := has_eq_false hbitmap hbit
  have hput (bytes : List UInt8) : put false bytes = [] := rfl
  cases isdir <;>
    simp only [putParms, putDir, putFile, putLast, if_true, Bool.false_eq_true, if_false,
      @h kFPParentDirIDBit (by decide), @h kFPLongNameBit (by decide),
      @h kFPShortNameBit (by decide), @h kFPNodeIDBit (by decide),
      @h kFPOffspringCountBit (by decide), @h kFPOwnerIDBit (by decide),
      @h kFPGroupIDBit (by decide), @h kFPAccessRightsBit (by decide),
      @h kFPDataForkLenBit (by decide), @h kFPRsrcForkLenBit (by decide),
      @h kFPExtDataForkLenBit (by decide), @h kFPLaunchLimitBit (by decide),
      @h kFPUTF8NameBit (by decide), @h kFPExtRsrcForkLenBit (by decide), hput, List.nil_append,
      List.append_nil]

section Sent

variable {encoding : PathEncoding} {volid : UInt16} {dsiHeader : Vector UInt8 16} {msg : ℕ}
  {dirid : UInt32} {pathname : CString} {bitmap : UInt16} {fp : AfpFileInfo} {command : UInt8}

/-- The block is what the fields add to the message. -/
theorem load_fields {m : ℕ → UInt8} {p : ℕ} (hzero : m (p + 1) = 0)
    (hfinderinfo : fp.finderinfo.length = 32)
    (hbitmap : bitmap.toNat &&& settable = bitmap.toNat) (isdir : Bool) :
    let q := setField (has bitmap kFPAttributeBit) 2 [(htons fp.attributes).toUInt8] (m, p)
    let q := setField (has bitmap kFPCreateDateBit) 4 (putDate fp.creationDate) q
    let q := setField (has bitmap kFPModDateBit) 4 (putDate fp.modificationDate) q
    let q := setField (has bitmap kFPBackupDateBit) 4 (putDate fp.backupDate) q
    let q := setField (has bitmap kFPFinderInfoBit) 32 fp.finderinfo q
    let q := setField (has bitmap kFPUnixPrivsBit) 16 (putUnixprivs fp.unixprivs) q
    load q.1 0 q.2 = load m 0 p ++
      putParms isdir bitmap (sentParms fp hfinderinfo) ⟨0, 0, 0, 0⟩ [] := by
  have hdate (date : UInt32) : (putDate date).length = 4 := length_toBE 4 _
  have hattributes : toBE 2 (sentParms fp hfinderinfo).attributes.toNat =
      [(htons fp.attributes).toUInt8, 0] := toBE_cutAttributes fp.attributes
  intro q₁ q₂ q₃ q₄ q₅ q₆
  rw [load_setField (length_putUnixprivs _), load_setField hfinderinfo, load_setField (hdate _),
    load_setField (hdate _), load_setField (hdate _), load_setField_two hzero,
    putParms_settable hbitmap, hattributes]
  simp only [List.append_assoc]
  rfl

/-- **What is sent**: the fixed part, the path name, at most one byte, and the block. -/
theorem setparms_sent (hencoding : encoding ≠ .kFPShortName) (hlen : pathname.length ≤ 250)
    (hfinderinfo : fp.finderinfo.length = 32)
    (hbitmap : bitmap.toNat &&& settable = bitmap.toNat) :
    ∃ fixed pad off, fixed.length = pathOffset ∧ pad.length ≤ 1 ∧
      off = pathOffset + (sizeofPathHeader encoding + pathname.length) + pad.length ∧
      (msg + off) % 2 = 0 ∧ ∀ isdir,
      afpSetparmsLowlevel encoding volid dsiHeader msg dirid pathname bitmap fp command =
        some (off, fixed ++ (block encoding pathname ++ (pad ++
          putParms isdir bitmap (sentParms fp hfinderinfo) ⟨0, 0, 0, 0⟩ []))) := by
  have hfits : FitsTmp encoding pathname := by
    refine fitsTmp_of_le hencoding (hlen.trans ?_)
    cases encoding with
    | kFPShortName => exact absurd rfl hencoding
    | _ => decide
  have hcut : pathname.take (pathname.length % 256) = pathname := by
    rw [Nat.mod_eq_of_lt (by omega), List.take_length]
  have hblock := length_block hencoding pathname
  obtain ⟨fixed, hfixedLength, hfixed⟩ : ∃ fixed : List UInt8, fixed.length = pathOffset ∧
      fixed = dsiHeader.toList ++ ([command, 0] ++ (toBE 2 volid.toNat ++
        (toBE 4 dirid.toNat ++ toBE 2 bitmap.toNat))) :=
    ⟨_, by simp [pathOffset], rfl⟩
  generalize hsize : sizeofPathHeader encoding + pathname.length = size at *
  -- the memory with the fixed part and the path name
  have hmem : store (store (fun _ => (0 : UInt8)) 0 fixed) pathOffset (block encoding pathname) =
      store (fun _ => 0) 0 (fixed ++ block encoding pathname) := by
    have h := store_store (fun _ => (0 : UInt8)) 0 fixed (block encoding pathname)
    rwa [Nat.zero_add, hfixedLength] at h
  have hrest (j : ℕ) (hj : pathOffset + size ≤ j) :
      store (fun _ => (0 : UInt8)) 0 (fixed ++ block encoding pathname) j = 0 := by
    refine store_of_le _ ?_
    rw [List.length_append, hfixedLength, hblock, Nat.zero_add]
    exact hj
  have hfront : load (store (fun _ => (0 : UInt8)) 0 (fixed ++ block encoding pathname)) 0
      (pathOffset + size) = fixed ++ block encoding pathname := by
    have h := load_store (fun _ => (0 : UInt8)) 0 (fixed ++ block encoding pathname)
    rwa [List.length_append, hfixedLength, hblock] at h
  have hend : pathOffset + sizeofPathHeader encoding + pathname.length = pathOffset + size := by
    rw [Nat.add_assoc, hsize]
  have hwrite := writePath_eq hfits (store (fun _ => 0) 0 fixed) pathOffset
  rw [hcut, hmem] at hwrite
  obtain ⟨k, hk, heven, hoff⟩ : ∃ k, k ≤ 1 ∧ (msg + (pathOffset + size + k)) % 2 = 0 ∧
      (if (msg + (pathOffset + size)) % 2 = 1 then pathOffset + size + 1 else pathOffset + size) =
        pathOffset + size + k := by
    by_cases hodd : (msg + (pathOffset + size)) % 2 = 1
    · exact ⟨1, Nat.le_refl 1, by omega, if_pos hodd⟩
    · exact ⟨0, Nat.zero_le 1, by omega, if_neg hodd⟩
  refine ⟨fixed, load (store (fun _ => 0) 0 (fixed ++ block encoding pathname))
    (pathOffset + size) k, _, hfixedLength, by rw [length_load]; exact hk, rfl,
    by rw [length_load]; exact heven, fun isdir => ?_⟩
  have hload := load_fields (hrest (pathOffset + size + k + 1) (by omega)) hfinderinfo hbitmap isdir
  rw [load_add, Nat.zero_add, hfront] at hload
  simp only [afpSetparmsLowlevel, hend, hoff, ← hfixed, hwrite, Option.bind_eq_bind,
    Option.bind_some, length_load]
  rw [hload]
  simp only [List.append_assoc]
  rfl

theorem length_putParms_settable (hbitmap : bitmap.toNat &&& settable = bitmap.toNat)
    (isdir : Bool) (hfinderinfo : fp.finderinfo.length = 32) :
    (putParms isdir bitmap (sentParms fp hfinderinfo) ⟨0, 0, 0, 0⟩ []).length =
      parmsSize bitmap := by
  have hinfo : (sentParms fp hfinderinfo).finderinfo.length = 32 := hfinderinfo
  rw [putParms_settable hbitmap]
  simp only [List.length_append, length_put, length_toBE, putDate, hinfo, length_putUnixprivs,
    parmsSize]
  omega

/-- What is read back: the selected fields, with the attributes cut. -/
theorem sameFields_iff (isdir : Bool) (hfinderinfo : fp.finderinfo.length = 32) :
    SameFields bitmap (stored isdir bitmap (sentParms fp hfinderinfo)) fp ↔
      (has bitmap kFPAttributeBit = true → fp.attributes.toNat % 256 = 0) := by
  have hattributes (h : has bitmap kFPAttributeBit = true) :
      (stored isdir bitmap (sentParms fp hfinderinfo)).attributes = cutAttributes fp.attributes :=
    if_pos h
  constructor
  · intro hsame h
    rw [← cutAttributes_eq_iff, ← hattributes h]
    exact hsame.attributes h
  · intro hzero
    constructor
    · intro h
      rw [hattributes h, cutAttributes_eq_iff]
      exact hzero h
    · exact fun h => if_pos h
    · exact fun h => if_pos h
    · exact fun h => if_pos h
    · exact fun h => if_pos h
    · exact fun h => if_pos h

/-- What the server reads from the block. -/
theorem parse_sent (hbitmap : bitmap.toNat &&& settable = bitmap.toNat) (isdir : Bool)
    (hfinderinfo : fp.finderinfo.length = 32) :
    parseReplyBlock (putParms isdir bitmap (sentParms fp hfinderinfo) ⟨0, 0, 0, 0⟩ []) isdir
        bitmap.toUInt32 bitmap.toUInt32 =
      some (stored isdir bitmap (sentParms fp hfinderinfo)) := by
  have hsame : (if isdir then bitmap.toUInt32 else bitmap.toUInt32).toUInt16 = bitmap := by
    rw [ite_self, UInt16.toUInt16_toUInt32]
  have hlong := @has_eq_false _ hbitmap kFPLongNameBit (by decide)
  have hutf8 := @has_eq_false _ hbitmap kFPUTF8NameBit (by decide)
  have h := @parseReplyBlock_encodes isdir bitmap.toUInt32 bitmap.toUInt32
    (sentParms fp hfinderinfo) (putParms isdir bitmap (sentParms fp hfinderinfo) ⟨0, 0, 0, 0⟩ [])
  rw [hsame] at h
  refine h ⟨⟨0, 0, 0, 0⟩, [], rfl, fun hbit => ?_, fun hbit => ?_⟩
  · rw [hlong] at hbit
    exact nomatch hbit
  · rw [hutf8] at hbit
    exact nomatch hbit

/-- **Set and get agree if and only if** the attributes are not selected or their low byte is
zero. -/
theorem setparms_iff (hencoding : encoding ≠ .kFPShortName) (hpath : (0 : UInt8) ∉ pathname)
    (hlen : pathname.length ≤ 250) (hfinderinfo : fp.finderinfo.length = 32)
    (hbitmap : bitmap.toNat &&& settable = bitmap.toNat) :
    (∃ off sent,
      afpSetparmsLowlevel encoding volid dsiHeader msg dirid pathname bitmap fp command =
        some (off, sent) ∧ Agrees encoding msg pathname bitmap fp off sent) ↔
      (has bitmap kFPAttributeBit = true → fp.attributes.toNat % 256 = 0) := by
  obtain ⟨fixed, pad, off, hfixed, hpad, hoff, heven, hsent⟩ :=
    @setparms_sent encoding volid dsiHeader msg dirid pathname bitmap fp command hencoding hlen
      hfinderinfo hbitmap
  have hblock := length_block hencoding pathname
  -- the block is what is left behind its offset
  have hdrop (isdir : Bool) : (fixed ++ (block encoding pathname ++ (pad ++
      putParms isdir bitmap (sentParms fp hfinderinfo) ⟨0, 0, 0, 0⟩ []))).drop off =
      putParms isdir bitmap (sentParms fp hfinderinfo) ⟨0, 0, 0, 0⟩ [] := by
    rw [← List.append_assoc, ← List.append_assoc]
    refine List.drop_left' ?_
    rw [List.length_append, List.length_append, hfixed, hblock, hoff]
  have hparse (isdir : Bool) {sent : List UInt8}
      (h : afpSetparmsLowlevel encoding volid dsiHeader msg dirid pathname bitmap fp command =
        some (off, sent)) :
      parseReplyBlock (sent.drop off) isdir bitmap.toUInt32 bitmap.toUInt32 =
        some (stored isdir bitmap (sentParms fp hfinderinfo)) := by
    have hsame := Option.some.inj (h.symm.trans (hsent isdir))
    rw [(Prod.mk.inj hsame).2, hdrop, parse_sent hbitmap]
  constructor
  · rintro ⟨off', sent, hsome, hagrees⟩
    have hoff' : off' = off := (Prod.mk.inj (Option.some.inj (hsome.symm.trans (hsent false)))).1
    subst hoff'
    obtain ⟨fi, hfi, hsame⟩ := hagrees.decodes false
    have hstored := Option.some.inj (hfi.symm.trans (hparse false hsome))
    rw [hstored] at hsame
    exact (sameFields_iff false hfinderinfo).mp hsame
  · intro hzero
    refine ⟨off, _, hsent false, ?_⟩
    constructor
    · rw [List.drop_left' hfixed]
      exact ⟨_, decodeBlock_block hencoding hpath (by omega) _⟩
    · exact heven
    · omega
    · rw [List.length_append, List.length_append, List.length_append, hfixed, hblock,
        length_putParms_settable hbitmap, hoff]
      omega
    · intro isdir
      exact ⟨_, hparse isdir (hsent false), (sameFields_iff isdir hfinderinfo).mpr hzero⟩

end Sent

/-- Parameters of a file that are all set. -/
def dated : AfpFileInfo :=
  { AfpFileInfo.zero with
    attributes := 0x100
    creationDate := 0x10203040
    modificationDate := 0x50607080
    backupDate := 0x80000000
    finderinfo := List.replicate 32 0x41
    unixprivs := ⟨501, 20, 0o644, 0x87⟩ }

/-- All parameters that can be set. -/
theorem setparms_iff_of_dated : ∃ off sent,
    afpSetparmsLowlevel .kFPUTF8Name 1 (Vector.replicate 16 0) 0 2 [0x66] (.ofNat settable) dated 30 =
        some (off, sent) ∧
      Agrees .kFPUTF8Name 0 [0x66] (.ofNat settable) dated off sent :=
  (setparms_iff (by decide) (by decide) (by decide) rfl (by decide)).mpr fun _ => by decide

/-- **The low byte of the attributes is lost.** -/
theorem low_byte_is_lost : ¬ ∀ (encoding : PathEncoding) (volid : UInt16)
    (dsiHeader : Vector UInt8 16) (msg : ℕ) (dirid : UInt32) (pathname : CString) (bitmap : UInt16)
    (fp : AfpFileInfo) (command : UInt8), encoding ≠ .kFPShortName → (0 : UInt8) ∉ pathname →
      pathname.length ≤ 250 → fp.finderinfo.length = 32 →
      bitmap.toNat &&& settable = bitmap.toNat → ∃ off sent,
        afpSetparmsLowlevel encoding volid dsiHeader msg dirid pathname bitmap fp command =
          some (off, sent) ∧ Agrees encoding msg pathname bitmap fp off sent := by
  intro h
  have hagrees := h .kFPUTF8Name 1 (Vector.replicate 16 0) 0 2 [0x66] 0x1
    { AfpFileInfo.zero with attributes := 1 } 30 (by decide) (by decide) (by decide) rfl (by decide)
  have hzero := (setparms_iff (by decide) (by decide) (by decide) rfl (by decide)).mp hagrees
  exact absurd (hzero (by decide)) (by decide)

end SetParms
end Afpfs

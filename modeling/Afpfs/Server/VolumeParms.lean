import Afpfs.Lib.Bytes
import Afpfs.ReplyBlock

/-!
# The parameters of a volume

`parse_volbitmap_reply()` of `lib/proto_volume.c`: the server describes a volume by a bitmap and
the parameters that it selects, in the order of the bits.  Those that change with time go to an
`afp_volume_stats` of the caller, the others to the volume.  The numbers of 64 bits are swapped by
macros made from `htonl()`.

* `hton64_load64`: the macros give the number that was sent.
* `parseVolbitmapReply_put`: what is stored.
* `getvolparms_stores`: the same for the reply to FPGetVolParms.
-/

set_option autoImplicit false

namespace Afpfs
namespace VolumeParms

open Wire
open ReplyBlock (has ntohs ntohl adDateToUnix putDate ntohs_toBE ntohl_toBE adDateToUnix_putDate)

/-! ## Data -/

def kFPVolAttributeBit : ℕ := 0x1
def kFPVolSignatureBit : ℕ := 0x2
def kFPVolCreateDateBit : ℕ := 0x4
def kFPVolModDateBit : ℕ := 0x8
def kFPVolBackupDateBit : ℕ := 0x10
def kFPVolIDBit : ℕ := 0x20
def kFPVolBytesFreeBit : ℕ := 0x40
def kFPVolBytesTotalBit : ℕ := 0x80
def kFPVolNameBit : ℕ := 0x100
def kFPVolExtBytesFreeBit : ℕ := 0x200
def kFPVolExtBytesTotalBit : ℕ := 0x400
def kFPVolBlockSizeBit : ℕ := 0x800

/-- `struct afp_volume`, with everything that has nothing to do with the parameters in `others`. -/
structure AfpVolume (β : Type*) where
  attributes : UInt16
  signature : UInt16
  creationDate : UInt32
  modificationDate : UInt32
  backupDate : UInt32
  volid : UInt16
  others : β
  deriving DecidableEq

/-- `struct afp_volume_stats`. -/
structure AfpVolumeStats where
  bytesfree : UInt64
  bytestotal : UInt64
  blocksize : UInt32
  deriving DecidableEq

/-! ## Numbers of 64 bits -/

/-- A number of 64 bits as a little-endian machine loads it. -/
def load64 (bytes : List UInt8) : UInt64 := UInt64.ofNat (ofBE bytes.reverse)

/-- `htonl()` on such a machine. -/
def htonl (x : UInt32) : UInt32 := UInt32.ofNat (ofBE (toBE 4 x.toNat).reverse)

/-- The macro `hton64()`, and `ntoh64()`. -/
def hton64 (x : UInt64) : UInt64 :=
  (htonl (x >>> 32 &&& 0xffffffff).toUInt32).toUInt64 |||
    ((htonl x.toUInt32).toUInt64 &&& 0xffffffff) <<< 32

/-! ## Reading -/

section Reading

variable {β : Type*}

/-- Store a parameter of the volume. -/
def inVolume {α : Type*} (set : AfpVolume β → α → AfpVolume β) :
    AfpVolume β × Option AfpVolumeStats → α → AfpVolume β × Option AfpVolumeStats :=
  fun s x => (set s.1 x, s.2)

/-- `if (stat)`: store a parameter for the caller, if it wants any. -/
def inStats {α : Type*} (set : AfpVolumeStats → α → AfpVolumeStats) :
    AfpVolume β × Option AfpVolumeStats → α → AfpVolume β × Option AfpVolumeStats :=
  fun s x => (s.1, s.2.map (set · x))

/-- `parse_volbitmap_reply()`.  The one check of the size is made before the cursor moves.  `none`
is a read outside the message. -/
def parseVolbitmapReply (bitmap : UInt16) (msg : List UInt8) (tmpvol : AfpVolume β)
    (stat : Option AfpVolumeStats) : Option (AfpVolume β × Option AfpVolumeStats) := do
  let p ← field (has bitmap kFPVolAttributeBit) 2
    (storing (inVolume fun v x => { v with attributes := x }) ntohs) ((tmpvol, stat), msg)
  let p ← field (has bitmap kFPVolSignatureBit) 2
    (storing (inVolume fun v x => { v with signature := x }) ntohs) p
  let p ← field (has bitmap kFPVolCreateDateBit) 4
    (storing (inVolume fun v x => { v with creationDate := x }) adDateToUnix) p
  let p ← field (has bitmap kFPVolModDateBit) 4
    (storing (inVolume fun v x => { v with modificationDate := x }) adDateToUnix) p
  let p ← field (has bitmap kFPVolBackupDateBit) 4
    (storing (inVolume fun v x => { v with backupDate := x }) adDateToUnix) p
  let p ← field (has bitmap kFPVolIDBit) 2
    (storing (inVolume fun v x => { v with volid := x }) ntohs) p
  let p ← field (has bitmap kFPVolBytesFreeBit) 4
    (storing (inStats fun st x => { st with bytesfree := x }) fun b => (ntohl b).toUInt64) p
  let p ← field (has bitmap kFPVolBytesTotalBit) 4
    (storing (inStats fun st x => { st with bytestotal := x }) fun b => (ntohl b).toUInt64) p
  -- the offset of the name is read to a variable that is not used
  let p ← field (has bitmap kFPVolNameBit) 2 (storing (fun s _ => s) ntohs) p
  let p ← field (has bitmap kFPVolExtBytesFreeBit) 8
    (storing (inStats fun st x => { st with bytesfree := x }) fun b => hton64 (load64 b)) p
  let p ← field (has bitmap kFPVolExtBytesTotalBit) 8
    (storing (inStats fun st x => { st with bytestotal := x }) fun b => hton64 (load64 b)) p
  let p ← field (has bitmap kFPVolBlockSizeBit) 4
    (storing (inStats fun st x => { st with blocksize := x }) ntohl) p
  return p.1

/-- `afp_getvolparms_reply()`, with what it returns. -/
def afpGetvolparmsReply (buf : List UInt8) (volume : AfpVolume β) (stat : Option AfpVolumeStats) :
    Option (ℤ × AfpVolume β × Option AfpVolumeStats) :=
  if buf.length < 18 then some (-1, volume, stat)
  else
    let bitmap := ntohs ((buf.drop 16).take 2)
    (parseVolbitmapReply bitmap (buf.drop 18) volume stat).map fun r => (0, r)

end Reading

/-! ## The encoding -/

/-- The values of all parameters.  Dates are those of Unix. -/
structure VolParms where
  attributes : UInt16
  signature : UInt16
  creationDate : UInt32
  modificationDate : UInt32
  backupDate : UInt32
  volid : UInt16
  bytesFree : UInt32
  bytesTotal : UInt32
  nameOffset : UInt16
  extBytesFree : UInt64
  extBytesTotal : UInt64
  blockSize : UInt32
  deriving DecidableEq

/-- The parameters that a bitmap selects, in the order of its bits, in front of `rest`. -/
def putVolParms (bitmap : UInt16) (v : VolParms) (rest : List UInt8) : List UInt8 :=
  put (has bitmap kFPVolAttributeBit) (toBE 2 v.attributes.toNat) ++
  (put (has bitmap kFPVolSignatureBit) (toBE 2 v.signature.toNat) ++
  (put (has bitmap kFPVolCreateDateBit) (putDate v.creationDate) ++
  (put (has bitmap kFPVolModDateBit) (putDate v.modificationDate) ++
  (put (has bitmap kFPVolBackupDateBit) (putDate v.backupDate) ++
  (put (has bitmap kFPVolIDBit) (toBE 2 v.volid.toNat) ++
  (put (has bitmap kFPVolBytesFreeBit) (toBE 4 v.bytesFree.toNat) ++
  (put (has bitmap kFPVolBytesTotalBit) (toBE 4 v.bytesTotal.toNat) ++
  (put (has bitmap kFPVolNameBit) (toBE 2 v.nameOffset.toNat) ++
  (put (has bitmap kFPVolExtBytesFreeBit) (toBE 8 v.extBytesFree.toNat) ++
  (put (has bitmap kFPVolExtBytesTotalBit) (toBE 8 v.extBytesTotal.toNat) ++
  (put (has bitmap kFPVolBlockSizeBit) (toBE 4 v.blockSize.toNat) ++ rest)))))))))))

/-- The volume with the values that are there. -/
def VolParms.toVolume {β : Type*} (v : VolParms) (bitmap : UInt16) (volume : AfpVolume β) :
    AfpVolume β where
  attributes := if has bitmap kFPVolAttributeBit then v.attributes else volume.attributes
  signature := if has bitmap kFPVolSignatureBit then v.signature else volume.signature
  creationDate := if has bitmap kFPVolCreateDateBit then v.creationDate else volume.creationDate
  modificationDate :=
    if has bitmap kFPVolModDateBit then v.modificationDate else volume.modificationDate
  backupDate := if has bitmap kFPVolBackupDateBit then v.backupDate else volume.backupDate
  volid := if has bitmap kFPVolIDBit then v.volid else volume.volid
  others := volume.others

/-- The statistics with the values that are there: of the two forms of a size the one of 64
bits. -/
def VolParms.toStats (v : VolParms) (bitmap : UInt16) (stat : AfpVolumeStats) : AfpVolumeStats where
  bytesfree := if has bitmap kFPVolExtBytesFreeBit then v.extBytesFree
    else if has bitmap kFPVolBytesFreeBit then v.bytesFree.toUInt64 else stat.bytesfree
  bytestotal := if has bitmap kFPVolExtBytesTotalBit then v.extBytesTotal
    else if has bitmap kFPVolBytesTotalBit then v.bytesTotal.toUInt64 else stat.bytestotal
  blocksize := if has bitmap kFPVolBlockSizeBit then v.blockSize else stat.blocksize

/-! ## Swapping -/

/-- A number of four bytes as it is loaded, in the order of the network. -/
theorem htonl_reverse {bytes : List UInt8} (hlen : bytes.length = 4) :
    htonl (UInt32.ofNat (ofBE bytes.reverse)) = ntohl bytes := by
  have hlen' : bytes.reverse.length = 4 := List.length_reverse.trans hlen
  have hlt := ofBE_lt bytes.reverse
  rw [hlen'] at hlt
  have hload : (UInt32.ofNat (ofBE bytes.reverse)).toNat = ofBE bytes.reverse :=
    UInt32.toNat_ofNat_of_lt' hlt
  rw [htonl, hload, toBE_ofBE hlen', List.reverse_reverse, ntohl]

/-- The two halves of a number of 64 bits as it is loaded. -/
theorem load64_append {lo hi : List UInt8} (hlo : lo.length = 4) (hhi : hi.length = 4) :
    (load64 (lo ++ hi) >>> 32 &&& 0xffffffff).toUInt32 = UInt32.ofNat (ofBE hi.reverse) ∧
    (load64 (lo ++ hi)).toUInt32 = UInt32.ofNat (ofBE lo.reverse) := by
  have hltLo := ofBE_lt lo.reverse
  have hltHi := ofBE_lt hi.reverse
  rw [List.length_reverse, hlo] at hltLo
  rw [List.length_reverse, hhi] at hltHi
  have hload : (load64 (lo ++ hi)).toNat = ofBE hi.reverse * 256 ^ 4 + ofBE lo.reverse := by
    rw [load64, List.reverse_append, ofBE_append, List.length_reverse, hlo]
    exact UInt64.toNat_ofNat_of_lt' (by change _ < 2 ^ 64; omega)
  constructor
  · apply UInt32.toNat_inj.mp
    rw [UInt64.toNat_toUInt32, UInt64.toNat_and, UInt64.toNat_shiftRight, hload,
      UInt32.toNat_ofNat_of_lt' hltHi, Nat.shiftRight_eq_div_pow]
    have hmask : (0xffffffff : UInt64).toNat = 2 ^ 32 - 1 := rfl
    have hwidth : (32 : UInt64).toNat % 64 = 32 := rfl
    rw [hmask, hwidth, Nat.and_two_pow_sub_one_eq_mod]
    omega
  · apply UInt32.toNat_inj.mp
    rw [UInt64.toNat_toUInt32, hload, UInt32.toNat_ofNat_of_lt' hltLo]
    omega

/-- **The home-made swap** gives the number that the bytes are. -/
theorem hton64_load64 {bytes : List UInt8} (hlen : bytes.length = 8) :
    hton64 (load64 bytes) = UInt64.ofNat (ofBE bytes) := by
  obtain ⟨lo, hi, rfl, hlo, hhi⟩ : ∃ lo hi, bytes = lo ++ hi ∧ lo.length = 4 ∧ hi.length = 4 :=
    ⟨bytes.take 4, bytes.drop 4, (List.take_append_drop 4 bytes).symm,
      by rw [List.length_take]; omega, by rw [List.length_drop]; omega⟩
  obtain ⟨hhigh, hlow⟩ := load64_append hlo hhi
  have hltLo : ofBE lo < 2 ^ 32 := by
    have hlt := ofBE_lt lo
    rwa [hlo] at hlt
  have hltHi : ofBE hi < 2 ^ 32 := by
    have hlt := ofBE_lt hi
    rwa [hhi] at hlt
  rw [hton64, hhigh, hlow, htonl_reverse hhi, htonl_reverse hlo]
  apply UInt64.toNat_inj.mp
  rw [UInt64.toNat_or, UInt64.toNat_shiftLeft, UInt64.toNat_and, UInt32.toNat_toUInt64,
    UInt32.toNat_toUInt64, ntohl, ntohl, UInt32.toNat_ofNat_of_lt' hltHi,
    UInt32.toNat_ofNat_of_lt' hltLo]
  have hmask : (0xffffffff : UInt64).toNat = 2 ^ 32 - 1 := rfl
  have hwidth : (32 : UInt64).toNat % 64 = 32 := rfl
  have hvalue : ofBE (lo ++ hi) < 2 ^ 64 := by
    rw [ofBE_append, hhi]
    omega
  have hfits : ofBE lo <<< 32 % 2 ^ 64 = ofBE lo <<< 32 := by
    rw [Nat.shiftLeft_eq]
    omega
  rw [hmask, hwidth, Nat.and_two_pow_sub_one_eq_mod, Nat.mod_eq_of_lt hltLo, hfits, Nat.or_comm,
    ← Nat.shiftLeft_add_eq_or_of_lt hltHi, Nat.shiftLeft_eq, UInt64.toNat_ofNat_of_lt' hvalue,
    ofBE_append, hhi]
  omega

@[simp] theorem hton64_load64_toBE (x : UInt64) : hton64 (load64 (toBE 8 x.toNat)) = x := by
  rw [hton64_load64 (length_toBE 8 _), uint64_toBE]

/-! ## What is stored -/

section Stored

variable {β : Type*} (bitmap : UInt16) (v : VolParms)

/-- **What is stored** of an encoding, whatever follows it: every value that is there, and nothing
else. -/
theorem parseVolbitmapReply_put (volume : AfpVolume β) (stat : Option AfpVolumeStats)
    (rest : List UInt8) :
    parseVolbitmapReply bitmap (putVolParms bitmap v rest) volume stat =
      some (v.toVolume bitmap volume, stat.map (v.toStats bitmap)) := by
  let bytesfree (s : AfpVolume β × Option AfpVolumeStats) := s.2.elim 0 AfpVolumeStats.bytesfree
  let bytestotal (s : AfpVolume β × Option AfpVolumeStats) := s.2.elim 0 AfpVolumeStats.bytestotal
  let blocksize (s : AfpVolume β × Option AfpVolumeStats) := s.2.elim 0 AfpVolumeStats.blocksize
  rw [parseVolbitmapReply, putVolParms,
    field_storing (fun s => s.1.attributes) v.attributes _ rfl (by simp) (by simp),
    Option.bind_eq_bind, Option.bind_some,
    field_storing (fun s => s.1.signature) v.signature _ rfl (by simp) (by simp),
    Option.bind_some,
    field_storing (fun s => s.1.creationDate) v.creationDate _ rfl (by simp [putDate]) (by simp),
    Option.bind_some,
    field_storing (fun s => s.1.modificationDate) v.modificationDate _ rfl (by simp [putDate])
      (by simp),
    Option.bind_some,
    field_storing (fun s => s.1.backupDate) v.backupDate _ rfl (by simp [putDate]) (by simp),
    Option.bind_some,
    field_storing (fun s => s.1.volid) v.volid _ rfl (by simp) (by simp),
    Option.bind_some]
  cases stat <;>
  rw [field_storing bytesfree v.bytesFree.toUInt64 _ rfl (by simp) (by simp),
    Option.bind_some,
    field_storing bytestotal v.bytesTotal.toUInt64 _ rfl (by simp) (by simp),
    Option.bind_some,
    field_storing (fun _ => v.nameOffset) v.nameOffset _ rfl (by simp) (by simp),
    Option.bind_some,
    field_storing bytesfree v.extBytesFree _ rfl (by simp) (by simp),
    Option.bind_some,
    field_storing bytestotal v.extBytesTotal _ rfl (by simp) (by simp),
    Option.bind_some,
    field_storing blocksize v.blockSize _ rfl (by simp) (by simp)] <;>
  rfl

/-- **The reply to FPGetVolParms**: the volume and the statistics get exactly the values that the
bitmap selects, and nothing else is changed. -/
theorem getvolparms_stores (header rest : List UInt8) (hheader : header.length = 16)
    (volume : AfpVolume β) (stat : Option AfpVolumeStats) :
    afpGetvolparmsReply (header ++ (toBE 2 bitmap.toNat ++ putVolParms bitmap v rest)) volume stat =
      some (0, v.toVolume bitmap volume, stat.map (v.toStats bitmap)) := by
  have hlen : ¬ (header ++ (toBE 2 bitmap.toNat ++ putVolParms bitmap v rest)).length < 18 := by
    rw [List.length_append, List.length_append, length_toBE]
    omega
  have hbehind : (header ++ (toBE 2 bitmap.toNat ++ putVolParms bitmap v rest)).drop 16 =
      toBE 2 bitmap.toNat ++ putVolParms bitmap v rest := List.drop_left' hheader
  have hblock : (header ++ (toBE 2 bitmap.toNat ++ putVolParms bitmap v rest)).drop 18 =
      putVolParms bitmap v rest := by
    rw [← List.drop_drop (i := 2) (j := 16), hbehind]
    exact List.drop_left' (length_toBE 2 _)
  have hbitmap : ntohs ((toBE 2 bitmap.toNat ++ putVolParms bitmap v rest).take 2) = bitmap := by
    rw [List.take_left' (length_toBE 2 _), ntohs_toBE]
  simp only [afpGetvolparmsReply, if_neg hlen, hbehind, hblock, hbitmap, parseVolbitmapReply_put,
    Option.map_some]

/-- A reply with all parameters, for a caller that wants the statistics. -/
theorem getvolparms_stores_all :
    (List.replicate 16 (0 : UInt8)).length = 16 ∧
    afpGetvolparmsReply
        (List.replicate 16 0 ++ (toBE 2 (0xfff : UInt16).toNat ++
          putVolParms 0xfff ⟨1, 2, 3, 4, 5, 6, 7, 8, 9, 10, 11, 12⟩ []))
        (⟨0, 0, 0, 0, 0, 0, ()⟩ : AfpVolume Unit) (some ⟨0, 0, 0⟩) =
      some (0, (⟨1, 2, 3, 4, 5, 6, ()⟩ : AfpVolume Unit), some ⟨10, 11, 12⟩) :=
  ⟨List.length_replicate, getvolparms_stores 0xfff ⟨1, 2, 3, 4, 5, 6, 7, 8, 9, 10, 11, 12⟩
    (List.replicate 16 0) [] List.length_replicate ⟨0, 0, 0, 0, 0, 0, ()⟩ (some ⟨0, 0, 0⟩)⟩

end Stored

end VolumeParms
end Afpfs

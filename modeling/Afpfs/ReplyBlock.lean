import Afpfs.Lib.Wire
import Afpfs.Volume

/-!
# The parameters of a file or a directory

`lib/proto_replyblock.c`: the server describes a file or a directory by a bitmap and the parameters
that it selects, in the order of the bits.  A name is not in its place; there is its offset from the
start of the parameters.  `parseReplyBlock` moves a cursor over the parameters and stores them in
an `afp_file_info`.  `none` is a read outside the block, which the code does not guard against.

`Parms` are the values of all parameters, and `Encodes` says that a block is their encoding.

* `parseReplyBlock_encodes`: what the code stores.
* `stores_iff`: every value is stored exactly if and only if the values are `Storable`: the length
  of a resource fork fits in the 16 bits of `resourcesize`, and two parameters that go into the same
  field of the structure agree.
* `resource_fork_is_cut`: a resource fork of 65536 bytes.
-/

set_option autoImplicit false

namespace Afpfs
namespace ReplyBlock

open Unicode Wire

/-! ## Reading -/

/-- `ntohs()` of the two bytes of a field. -/
def ntohs (bytes : List UInt8) : UInt16 := UInt16.ofNat (ofBE bytes)

/-- `ntohl()` of four bytes. -/
def ntohl (bytes : List UInt8) : UInt32 := UInt32.ofNat (ofBE bytes)

/-- `ntoh64()` of eight bytes. -/
def ntoh64 (bytes : List UInt8) : UInt64 := UInt64.ofNat (ofBE bytes)

/-- The seconds from the epoch of Unix to that of AFP. -/
def AD_DATE_DELTA : UInt32 := 946684800

/-- `AD_DATE_TO_UNIX()`. -/
def adDateToUnix (bytes : List UInt8) : UInt32 := ntohl bytes + AD_DATE_DELTA

/-- A bit of a bitmap is set. -/
def has (bitmap : UInt16) (bit : ℕ) : Bool := bitmap.toNat &&& bit ≠ 0

/-- `copy_from_pascal()`: the bytes it leaves in the zeroed buffer. -/
def copyFromPascal (pascal : List UInt8) (maxLen : ℕ) : Option (List UInt8) :=
  match pascal with
  | [] => none
  | b :: data =>
    let len := min b.toNat maxLen
    if len ≤ data.length then some (data.take len) else none

/-- `copy_from_pascal_two()` into a buffer that holds `dest`. -/
def copyFromPascalTwo (dest pascal : List UInt8) (maxLen : ℕ) : Option (List UInt8) :=
  if 2 ≤ pascal.length then
    let len := min (ntohs (pascal.take 2)).toNat maxLen
    let data := pascal.drop 2
    if len = 0 then some dest
    else if len ≤ data.length then some (data.take len)
    else none
  else none

/-- The parameters of directories alone. -/
def parseDir (bitmap : UInt16) (p : AfpFileInfo × List UInt8) :
    Option (AfpFileInfo × List UInt8) := do
  let p ← field (has bitmap kFPOffspringCountBit) 2
    (storing (fun fi x => { fi with offspring := x }) ntohs) p
  let p ← field (has bitmap kFPOwnerIDBit) 4
    (storing (fun fi x => { fi with unixprivs.uid := x }) ntohl) p
  let p ← field (has bitmap kFPGroupIDBit) 4
    (storing (fun fi x => { fi with unixprivs.gid := x }) ntohl) p
  field (has bitmap kFPAccessRightsBit) 4
    (storing (fun fi x => { fi with accessrights := x }) ntohl) p

/-- The parameters of files alone. -/
def parseFile (bitmap : UInt16) (p : AfpFileInfo × List UInt8) :
    Option (AfpFileInfo × List UInt8) := do
  let p ← field (has bitmap kFPDataForkLenBit) 4
    (storing (fun fi x => { fi with size := x }) fun bytes => (ntohl bytes).toUInt64) p
  let p ← field (has bitmap kFPRsrcForkLenBit) 4
    (storing (fun fi x => { fi with resourcesize := x }) fun bytes => (ntohl bytes).toUInt16) p
  let p ← field (has bitmap kFPExtDataForkLenBit) 8
    (storing (fun fi x => { fi with size := x }) ntoh64) p
  return skip (has bitmap kFPLaunchLimitBit) 2 p

/-- The four words of `struct afp_unixprivs`. -/
def unixprivs (bytes : List UInt8) : AfpUnixprivs where
  uid := ntohl (bytes.take 4)
  gid := ntohl ((bytes.drop 4).take 4)
  permissions := ntohl ((bytes.drop 8).take 4)
  uaPermissions := ntohl ((bytes.drop 12).take 4)

/-- The name at an offset in the block. -/
def storeLongName (buf : List UInt8) (fi : AfpFileInfo) (offset : List UInt8) :
    Option AfpFileInfo := do
  let name ← copyFromPascal (buf.drop (ntohs offset).toNat) AFP_MAX_PATH
  return { fi with name := name }

/-- The same for a UTF-8 name, which is behind a text encoding hint. -/
def storeUtf8Name (buf : List UInt8) (fi : AfpFileInfo) (offset : List UInt8) :
    Option AfpFileInfo := do
  let name ← copyFromPascalTwo fi.name (buf.drop ((ntohs offset).toNat + 4)) AFP_MAX_PATH
  return { fi with name := name }

/-- The parameters from the UTF-8 name on. -/
def parseLast (buf : List UInt8) (bitmap : UInt16) (p : AfpFileInfo × List UInt8) :
    Option AfpFileInfo := do
  let p ← field (has bitmap kFPUTF8NameBit) 2 (storeUtf8Name buf) p
  let p ← field (has bitmap kFPExtRsrcForkLenBit) 8
    (storing (fun fi x => { fi with resourcesize := x }) fun bytes => (ntoh64 bytes).toUInt16)
    (skip (has bitmap kFPUTF8NameBit) 4 p)
  let p ← field (has bitmap kFPUnixPrivsBit) 16
    (storing (fun fi x => { fi with unixprivs := x }) unixprivs) p
  return p.1

/-- The cursor moves over the parameters.  Offsets count from the start of the block `buf`. -/
def parseParms (buf : List UInt8) (isdir : Bool) (bitmap : UInt16) (p : AfpFileInfo × List UInt8) :
    Option AfpFileInfo := do
  let p ← field (has bitmap kFPAttributeBit) 2
    (storing (fun fi x => { fi with attributes := x }) ntohs) p
  let p ← field (has bitmap kFPParentDirIDBit) 4
    (storing (fun fi x => { fi with did := x }) ntohl) p
  let p ← field (has bitmap kFPCreateDateBit) 4
    (storing (fun fi x => { fi with creationDate := x }) adDateToUnix) p
  let p ← field (has bitmap kFPModDateBit) 4
    (storing (fun fi x => { fi with modificationDate := x }) adDateToUnix) p
  let p ← field (has bitmap kFPBackupDateBit) 4
    (storing (fun fi x => { fi with backupDate := x }) adDateToUnix) p
  let p ← field (has bitmap kFPFinderInfoBit) 32
    (storing (fun fi x => { fi with finderinfo := x }) id) p
  let p ← field (has bitmap kFPLongNameBit) 2 (storeLongName buf) p
  let p ← field (has bitmap kFPNodeIDBit) 4
    (storing (fun fi x => { fi with fileid := x }) ntohl) (skip (has bitmap kFPShortNameBit) 2 p)
  let p ← (if isdir then parseDir bitmap p else parseFile bitmap p)
  parseLast buf bitmap p

/-- `parse_reply_block()`. -/
def parseReplyBlock (buf : List UInt8) (isdir : Bool) (filebitmap dirbitmap : UInt32) :
    Option AfpFileInfo :=
  let bitmap := (if isdir then dirbitmap else filebitmap).toUInt16
  parseParms buf isdir bitmap ({ AfpFileInfo.zero with isdir := isdir }, buf)

/-! ## The encoding -/

/-- The values of all parameters.  Dates are those of Unix. -/
structure Parms where
  attributes : UInt16
  did : UInt32
  creationDate : UInt32
  modificationDate : UInt32
  backupDate : UInt32
  finderinfo : List UInt8
  longName : List UInt8
  fileid : UInt32
  offspring : UInt16
  ownerId : UInt32
  groupId : UInt32
  accessrights : UInt32
  dataForkLen : UInt32
  rsrcForkLen : UInt32
  extDataForkLen : UInt64
  launchLimit : UInt16
  utf8Name : List UInt8
  extRsrcForkLen : UInt64
  unixprivs : AfpUnixprivs
  finderinfo_length : finderinfo.length = 32
  longName_length : longName.length ≤ 255
  utf8Name_length : utf8Name.length < AFP_MAX_PATH

/-- Where the names are, and what the parameters hold that means nothing. -/
structure Layout where
  longOffset : UInt16
  shortOffset : UInt16
  utf8Offset : UInt16
  pad : UInt32

/-- A date as the server sends it. -/
def putDate (date : UInt32) : List UInt8 := toBE 4 (date - AD_DATE_DELTA).toNat

/-- The words of `struct afp_unixprivs` in the order of the network. -/
def putUnixprivs (privs : AfpUnixprivs) : List UInt8 :=
  toBE 4 privs.uid.toNat ++ (toBE 4 privs.gid.toNat ++
    (toBE 4 privs.permissions.toNat ++ toBE 4 privs.uaPermissions.toNat))

/-- The parameters of directories alone, in front of `rest`. -/
def putDir (bitmap : UInt16) (v : Parms) (rest : List UInt8) : List UInt8 :=
  put (has bitmap kFPOffspringCountBit) (toBE 2 v.offspring.toNat) ++
  (put (has bitmap kFPOwnerIDBit) (toBE 4 v.ownerId.toNat) ++
  (put (has bitmap kFPGroupIDBit) (toBE 4 v.groupId.toNat) ++
  (put (has bitmap kFPAccessRightsBit) (toBE 4 v.accessrights.toNat) ++ rest)))

/-- The parameters of files alone. -/
def putFile (bitmap : UInt16) (v : Parms) (rest : List UInt8) : List UInt8 :=
  put (has bitmap kFPDataForkLenBit) (toBE 4 v.dataForkLen.toNat) ++
  (put (has bitmap kFPRsrcForkLenBit) (toBE 4 v.rsrcForkLen.toNat) ++
  (put (has bitmap kFPExtDataForkLenBit) (toBE 8 v.extDataForkLen.toNat) ++
  (put (has bitmap kFPLaunchLimitBit) (toBE 2 v.launchLimit.toNat) ++ rest)))

/-- The parameters from the UTF-8 name on. -/
def putLast (bitmap : UInt16) (v : Parms) (l : Layout) (rest : List UInt8) : List UInt8 :=
  put (has bitmap kFPUTF8NameBit) (toBE 2 l.utf8Offset.toNat) ++
  (put (has bitmap kFPUTF8NameBit) (toBE 4 l.pad.toNat) ++
  (put (has bitmap kFPExtRsrcForkLenBit) (toBE 8 v.extRsrcForkLen.toNat) ++
  (put (has bitmap kFPUnixPrivsBit) (putUnixprivs v.unixprivs) ++ rest)))

/-- The parameters that a bitmap selects, in increasing order of the bits, in front of `rest`. -/
def putParms (isdir : Bool) (bitmap : UInt16) (v : Parms) (l : Layout) (rest : List UInt8) :
    List UInt8 :=
  put (has bitmap kFPAttributeBit) (toBE 2 v.attributes.toNat) ++
  (put (has bitmap kFPParentDirIDBit) (toBE 4 v.did.toNat) ++
  (put (has bitmap kFPCreateDateBit) (putDate v.creationDate) ++
  (put (has bitmap kFPModDateBit) (putDate v.modificationDate) ++
  (put (has bitmap kFPBackupDateBit) (putDate v.backupDate) ++
  (put (has bitmap kFPFinderInfoBit) v.finderinfo ++
  (put (has bitmap kFPLongNameBit) (toBE 2 l.longOffset.toNat) ++
  (put (has bitmap kFPShortNameBit) (toBE 2 l.shortOffset.toNat) ++
  (put (has bitmap kFPNodeIDBit) (toBE 4 v.fileid.toNat) ++
  (if isdir then putDir bitmap v (putLast bitmap v l rest)
    else putFile bitmap v (putLast bitmap v l rest))))))))))

/-- A long name at its offset. -/
def pascal (name : List UInt8) : List UInt8 := UInt8.ofNat name.length :: name

/-- A UTF-8 name at its offset, behind its text encoding hint. -/
def pascalTwo (hint : UInt32) (name : List UInt8) : List UInt8 :=
  toBE 4 hint.toNat ++ (toBE 2 name.length ++ name)

/-- **The block encodes the values**: the selected parameters come first, and the selected names are
at their offsets. -/
def Encodes (isdir : Bool) (bitmap : UInt16) (v : Parms) (buf : List UInt8) : Prop :=
  ∃ l rest, buf = putParms isdir bitmap v l rest ∧
    (has bitmap kFPLongNameBit = true → pascal v.longName <+: buf.drop l.longOffset.toNat) ∧
    (has bitmap kFPUTF8NameBit = true →
      ∃ hint, pascalTwo hint v.utf8Name <+: buf.drop l.utf8Offset.toNat)

/-! ## What is expected -/

/-- The values are in the structure, and its other fields are zero. -/
structure Stores (isdir : Bool) (bitmap : UInt16) (v : Parms) (fi : AfpFileInfo) : Prop where
  kind : fi.isdir = isdir
  attributes : fi.attributes = if has bitmap kFPAttributeBit then v.attributes else 0
  did : fi.did = if has bitmap kFPParentDirIDBit then v.did else 0
  creationDate : fi.creationDate = if has bitmap kFPCreateDateBit then v.creationDate else 0
  modificationDate :
    fi.modificationDate = if has bitmap kFPModDateBit then v.modificationDate else 0
  backupDate : fi.backupDate = if has bitmap kFPBackupDateBit then v.backupDate else 0
  finderinfo :
    fi.finderinfo = if has bitmap kFPFinderInfoBit then v.finderinfo else List.replicate 32 0
  longName : has bitmap kFPLongNameBit = true → fi.name = v.longName
  utf8Name : has bitmap kFPUTF8NameBit = true → fi.name = v.utf8Name
  noName : has bitmap kFPLongNameBit = false → has bitmap kFPUTF8NameBit = false → fi.name = []
  fileid : fi.fileid = if has bitmap kFPNodeIDBit then v.fileid else 0
  offspring : fi.offspring = if isdir && has bitmap kFPOffspringCountBit then v.offspring else 0
  ownerId : isdir = true → has bitmap kFPOwnerIDBit = true → fi.unixprivs.uid = v.ownerId
  groupId : isdir = true → has bitmap kFPGroupIDBit = true → fi.unixprivs.gid = v.groupId
  unixprivs : has bitmap kFPUnixPrivsBit = true → fi.unixprivs = v.unixprivs
  noOwner : (isdir && has bitmap kFPOwnerIDBit) = false → has bitmap kFPUnixPrivsBit = false →
    fi.unixprivs.uid = 0
  noGroup : (isdir && has bitmap kFPGroupIDBit) = false → has bitmap kFPUnixPrivsBit = false →
    fi.unixprivs.gid = 0
  noPermissions : has bitmap kFPUnixPrivsBit = false →
    fi.unixprivs.permissions = 0 ∧ fi.unixprivs.uaPermissions = 0
  accessrights :
    fi.accessrights = if isdir && has bitmap kFPAccessRightsBit then v.accessrights else 0
  dataForkLen : isdir = false → has bitmap kFPDataForkLenBit = true →
    fi.size.toNat = v.dataForkLen.toNat
  extDataForkLen : isdir = false → has bitmap kFPExtDataForkLenBit = true →
    fi.size = v.extDataForkLen
  noDataForkLen : (!isdir && has bitmap kFPDataForkLenBit) = false →
    (!isdir && has bitmap kFPExtDataForkLenBit) = false → fi.size = 0
  rsrcForkLen : isdir = false → has bitmap kFPRsrcForkLenBit = true →
    fi.resourcesize.toNat = v.rsrcForkLen.toNat
  extRsrcForkLen : has bitmap kFPExtRsrcForkLenBit = true →
    fi.resourcesize.toNat = v.extRsrcForkLen.toNat
  noRsrcForkLen : (!isdir && has bitmap kFPRsrcForkLenBit) = false →
    has bitmap kFPExtRsrcForkLenBit = false → fi.resourcesize = 0
  others : fi.sync = false ∧ fi.basename = [] ∧ fi.resource = .none ∧ fi.forkid = 0 ∧
    fi.icon = false ∧ fi.eof = false

/-! ## What the code stores -/

@[simp] theorem ntohs_toBE (x : UInt16) : ntohs (toBE 2 x.toNat) = x := uint16_toBE x

@[simp] theorem ntohl_toBE (x : UInt32) : ntohl (toBE 4 x.toNat) = x := uint32_toBE x

@[simp] theorem ntoh64_toBE (x : UInt64) : ntoh64 (toBE 8 x.toNat) = x := uint64_toBE x

@[simp] theorem adDateToUnix_putDate (date : UInt32) : adDateToUnix (putDate date) = date := by
  rw [adDateToUnix, putDate, ntohl_toBE, UInt32.sub_add_cancel]

@[simp] theorem length_putUnixprivs (privs : AfpUnixprivs) : (putUnixprivs privs).length = 16 := by
  simp [putUnixprivs]

@[simp] theorem unixprivs_putUnixprivs (privs : AfpUnixprivs) :
    unixprivs (putUnixprivs privs) = privs := by
  have hdrop (x : UInt32) (rest : List UInt8) : (toBE 4 x.toNat ++ rest).drop 4 = rest :=
    List.drop_left' (length_toBE 4 _)
  have htake (x : UInt32) (rest : List UInt8) : (toBE 4 x.toNat ++ rest).take 4 = toBE 4 x.toNat :=
    List.take_left' (length_toBE 4 _)
  have h8 : (putUnixprivs privs).drop 8 =
      toBE 4 privs.permissions.toNat ++ toBE 4 privs.uaPermissions.toNat := by
    rw [putUnixprivs, ← List.drop_drop (i := 4) (j := 4), hdrop, hdrop]
  have h12 : (putUnixprivs privs).drop 12 = toBE 4 privs.uaPermissions.toNat := by
    rw [← List.drop_drop (i := 4) (j := 8), h8, hdrop]
  rw [unixprivs, h8, h12, htake, putUnixprivs, htake, hdrop, htake,
    List.take_of_length_le (by simp)]
  simp only [ntohl_toBE]

theorem parseDir_put (bitmap : UInt16) (v : Parms) (fi : AfpFileInfo) (rest : List UInt8) :
    parseDir bitmap (fi, putDir bitmap v rest) = some ({ fi with
      offspring := if has bitmap kFPOffspringCountBit then v.offspring else fi.offspring
      unixprivs := { fi.unixprivs with
        uid := if has bitmap kFPOwnerIDBit then v.ownerId else fi.unixprivs.uid
        gid := if has bitmap kFPGroupIDBit then v.groupId else fi.unixprivs.gid }
      accessrights := if has bitmap kFPAccessRightsBit then v.accessrights else fi.accessrights },
      rest) := by
  rw [parseDir, putDir,
    field_storing AfpFileInfo.offspring v.offspring _ rfl (by simp) (by simp), Option.bind_eq_bind,
    Option.bind_some,
    field_storing (fun fi => fi.unixprivs.uid) v.ownerId _ rfl (by simp) (by simp),
    Option.bind_some,
    field_storing (fun fi => fi.unixprivs.gid) v.groupId _ rfl (by simp) (by simp),
    Option.bind_some,
    field_storing AfpFileInfo.accessrights v.accessrights _ rfl (by simp) (by simp)]

theorem parseFile_put (bitmap : UInt16) (v : Parms) (fi : AfpFileInfo) (rest : List UInt8) :
    parseFile bitmap (fi, putFile bitmap v rest) = some ({ fi with
      size := if has bitmap kFPExtDataForkLenBit then v.extDataForkLen
        else if has bitmap kFPDataForkLenBit then v.dataForkLen.toUInt64 else fi.size
      resourcesize := if has bitmap kFPRsrcForkLenBit then v.rsrcForkLen.toUInt16
        else fi.resourcesize }, rest) := by
  rw [parseFile, putFile,
    field_storing AfpFileInfo.size v.dataForkLen.toUInt64 _ rfl (by simp) (by simp),
    Option.bind_eq_bind, Option.bind_some,
    field_storing AfpFileInfo.resourcesize v.rsrcForkLen.toUInt16 _ rfl (by simp) (by simp),
    Option.bind_some,
    field_storing AfpFileInfo.size v.extDataForkLen _ rfl (by simp) (by simp),
    Option.bind_some, skip_put _ (by simp)]
  rfl

/-- What the parameters between the node id and the UTF-8 name leave. -/
def middle (isdir : Bool) (bitmap : UInt16) (v : Parms) (fi : AfpFileInfo) : AfpFileInfo :=
  { fi with
    offspring := if isdir && has bitmap kFPOffspringCountBit then v.offspring else fi.offspring
    unixprivs := { fi.unixprivs with
      uid := if isdir && has bitmap kFPOwnerIDBit then v.ownerId else fi.unixprivs.uid
      gid := if isdir && has bitmap kFPGroupIDBit then v.groupId else fi.unixprivs.gid }
    accessrights :=
      if isdir && has bitmap kFPAccessRightsBit then v.accessrights else fi.accessrights
    size := if !isdir && has bitmap kFPExtDataForkLenBit then v.extDataForkLen
      else if !isdir && has bitmap kFPDataForkLenBit then v.dataForkLen.toUInt64 else fi.size
    resourcesize := if !isdir && has bitmap kFPRsrcForkLenBit then v.rsrcForkLen.toUInt16
      else fi.resourcesize }

theorem parse_middle (isdir : Bool) (bitmap : UInt16) (v : Parms) (fi : AfpFileInfo)
    (rest : List UInt8) :
    (if isdir then parseDir bitmap (fi, if isdir then putDir bitmap v rest else putFile bitmap v rest)
      else parseFile bitmap (fi, if isdir then putDir bitmap v rest else putFile bitmap v rest)) =
      some (middle isdir bitmap v fi, rest) := by
  cases isdir with
  | false => exact parseFile_put bitmap v fi rest
  | true => exact parseDir_put bitmap v fi rest

theorem copyFromPascal_pascal {name mem : List UInt8} (hlen : name.length ≤ 255)
    (hmem : pascal name <+: mem) : copyFromPascal mem AFP_MAX_PATH = some name := by
  obtain ⟨rest, rfl⟩ := hmem
  have hbyte : min (UInt8.ofNat name.length).toNat AFP_MAX_PATH = name.length := by
    rw [UInt8.toNat_ofNat', AFP_MAX_PATH]
    omega
  have hle : name.length ≤ (name ++ rest).length := by
    rw [List.length_append]
    exact Nat.le_add_right ..
  simp only [pascal, List.cons_append, copyFromPascal, hbyte, if_pos hle, List.take_left]

theorem copyFromPascalTwo_pascalTwo {hint : UInt32} {dest name mem : List UInt8}
    (hlen : name.length < AFP_MAX_PATH) (hmem : pascalTwo hint name <+: mem) :
    copyFromPascalTwo dest (mem.drop 4) AFP_MAX_PATH = some (if name = [] then dest else name) := by
  obtain ⟨rest, rfl⟩ := hmem
  have hhint : (pascalTwo hint name ++ rest).drop 4 = toBE 2 name.length ++ (name ++ rest) := by
    rw [pascalTwo, List.append_assoc, List.append_assoc]
    exact List.drop_left' (length_toBE 4 _)
  have hword : (ntohs (toBE 2 name.length)).toNat = name.length := by
    unfold AFP_MAX_PATH at hlen
    rw [ntohs, ofBE_toBE, UInt16.toNat_ofNat']
    omega
  have hmin : min name.length AFP_MAX_PATH = name.length := Nat.min_eq_left hlen.le
  have htwo : 2 ≤ (toBE 2 name.length ++ (name ++ rest)).length := by
    rw [List.length_append, length_toBE]
    exact Nat.le_add_right ..
  have hle : name.length ≤ (name ++ rest).length := by
    rw [List.length_append]
    exact Nat.le_add_right ..
  rw [hhint, copyFromPascalTwo, if_pos htwo, List.take_left' (length_toBE 2 _),
    List.drop_left' (length_toBE 2 _), hword, hmin]
  simp only [List.length_eq_zero_iff, if_pos hle, List.take_left]
  split <;> rfl

/-- What the parameters from the UTF-8 name on leave. -/
def last (bitmap : UInt16) (v : Parms) (fi : AfpFileInfo) : AfpFileInfo :=
  { fi with
    name := if has bitmap kFPUTF8NameBit then if v.utf8Name = [] then fi.name else v.utf8Name
      else fi.name
    resourcesize := if has bitmap kFPExtRsrcForkLenBit then v.extRsrcForkLen.toUInt16
      else fi.resourcesize
    unixprivs := if has bitmap kFPUnixPrivsBit then v.unixprivs else fi.unixprivs }

theorem parseLast_put {bitmap : UInt16} {v : Parms} {l : Layout} {buf rest : List UInt8}
    (hname : has bitmap kFPUTF8NameBit = true →
      ∃ hint, pascalTwo hint v.utf8Name <+: buf.drop l.utf8Offset.toNat) (fi : AfpFileInfo) :
    parseLast buf bitmap (fi, putLast bitmap v l rest) = some (last bitmap v fi) := by
  have hutf8Name (h : has bitmap kFPUTF8NameBit = true) :
      storeUtf8Name buf fi (toBE 2 l.utf8Offset.toNat) =
        some { fi with name := if v.utf8Name = [] then fi.name else v.utf8Name } := by
    obtain ⟨hint, hname⟩ := hname h
    rw [storeUtf8Name, ntohs_toBE, ← List.drop_drop,
      copyFromPascalTwo_pascalTwo v.utf8Name_length hname]
    rfl
  rw [parseLast, putLast,
    field_set AfpFileInfo.name (fun fi name => { fi with name := name })
      (if v.utf8Name = [] then fi.name else v.utf8Name) _ rfl (length_toBE 2 _) hutf8Name,
    Option.bind_eq_bind, Option.bind_some, skip_put _ (length_toBE 4 _),
    field_storing AfpFileInfo.resourcesize v.extRsrcForkLen.toUInt16 _ rfl (by simp) (by simp),
    Option.bind_some,
    field_storing AfpFileInfo.unixprivs v.unixprivs _ rfl (by simp) (by simp), Option.bind_some]
  rfl

/-- What the parameters up to the node id leave. -/
def first (isdir : Bool) (bitmap : UInt16) (v : Parms) : AfpFileInfo :=
  { AfpFileInfo.zero with
    isdir := isdir
    attributes := if has bitmap kFPAttributeBit then v.attributes else 0
    did := if has bitmap kFPParentDirIDBit then v.did else 0
    creationDate := if has bitmap kFPCreateDateBit then v.creationDate else 0
    modificationDate := if has bitmap kFPModDateBit then v.modificationDate else 0
    backupDate := if has bitmap kFPBackupDateBit then v.backupDate else 0
    finderinfo := if has bitmap kFPFinderInfoBit then v.finderinfo else List.replicate 32 0
    name := if has bitmap kFPLongNameBit then v.longName else []
    fileid := if has bitmap kFPNodeIDBit then v.fileid else 0 }

/-- What the code stores. -/
def stored (isdir : Bool) (bitmap : UInt16) (v : Parms) : AfpFileInfo :=
  last bitmap v (middle isdir bitmap v (first isdir bitmap v))

/-- The parameters up to the node id, and the others from what they leave. -/
theorem parseParms_put {isdir : Bool} {bitmap : UInt16} {v : Parms} {l : Layout}
    {buf rest : List UInt8}
    (hname : has bitmap kFPLongNameBit = true →
      pascal v.longName <+: buf.drop l.longOffset.toNat) :
    parseParms buf isdir bitmap
        ({ AfpFileInfo.zero with isdir := isdir }, putParms isdir bitmap v l rest) =
      parseLast buf bitmap (middle isdir bitmap v (first isdir bitmap v),
        putLast bitmap v l rest) := by
  have hlongName (fi : AfpFileInfo) (h : has bitmap kFPLongNameBit = true) :
      storeLongName buf fi (toBE 2 l.longOffset.toNat) = some { fi with name := v.longName } := by
    rw [storeLongName, ntohs_toBE, copyFromPascal_pascal v.longName_length (hname h)]
    rfl
  rw [parseParms, putParms,
    field_storing AfpFileInfo.attributes v.attributes _ rfl (by simp) (by simp),
    Option.bind_eq_bind, Option.bind_some,
    field_storing AfpFileInfo.did v.did _ rfl (by simp) (by simp), Option.bind_some,
    field_storing AfpFileInfo.creationDate v.creationDate _ rfl (by simp [putDate]) (by simp),
    Option.bind_some,
    field_storing AfpFileInfo.modificationDate v.modificationDate _ rfl (by simp [putDate])
      (by simp), Option.bind_some,
    field_storing AfpFileInfo.backupDate v.backupDate _ rfl (by simp [putDate]) (by simp),
    Option.bind_some,
    field_storing AfpFileInfo.finderinfo v.finderinfo _ rfl v.finderinfo_length rfl,
    Option.bind_some,
    field_set AfpFileInfo.name (fun fi name => { fi with name := name }) v.longName _ (by rfl)
      (by simp) (by exact hlongName _), Option.bind_some, skip_put _ (length_toBE 2 _),
    field_storing AfpFileInfo.fileid v.fileid _ rfl (by simp) (by simp), Option.bind_some,
    parse_middle, Option.bind_some]
  rfl

/-- **What the code stores** when it is given an encoding. -/
theorem parseReplyBlock_encodes {isdir : Bool} {filebitmap dirbitmap : UInt32} {v : Parms}
    {buf : List UInt8}
    (hbuf : Encodes isdir (if isdir then dirbitmap else filebitmap).toUInt16 v buf) :
    parseReplyBlock buf isdir filebitmap dirbitmap =
      some (stored isdir (if isdir then dirbitmap else filebitmap).toUInt16 v) := by
  obtain ⟨l, rest, hparms, hlong, hutf8⟩ := hbuf
  have hcursor : ({ AfpFileInfo.zero with isdir := isdir }, buf) =
      (({ AfpFileInfo.zero with isdir := isdir } : AfpFileInfo),
        putParms isdir (if isdir then dirbitmap else filebitmap).toUInt16 v l rest) := by
    rw [← hparms]
  rw [parseReplyBlock, hcursor, parseParms_put hlong, parseLast_put hutf8, stored]

/-! ## When every value is stored -/

/-- The length of a resource fork fits in `resourcesize`, and parameters that share a field of the
structure agree. -/
structure Storable (isdir : Bool) (bitmap : UInt16) (v : Parms) : Prop where
  name : has bitmap kFPLongNameBit = true → has bitmap kFPUTF8NameBit = true →
    v.longName = v.utf8Name
  owner : isdir = true → has bitmap kFPOwnerIDBit = true → has bitmap kFPUnixPrivsBit = true →
    v.ownerId = v.unixprivs.uid
  group : isdir = true → has bitmap kFPGroupIDBit = true → has bitmap kFPUnixPrivsBit = true →
    v.groupId = v.unixprivs.gid
  dataFork : isdir = false → has bitmap kFPDataForkLenBit = true →
    has bitmap kFPExtDataForkLenBit = true → v.dataForkLen.toNat = v.extDataForkLen.toNat
  rsrcFork : isdir = false → has bitmap kFPRsrcForkLenBit = true → v.rsrcForkLen.toNat < 2 ^ 16
  extRsrcFork : has bitmap kFPExtRsrcForkLenBit = true → v.extRsrcForkLen.toNat < 2 ^ 16
  bothRsrcForks : isdir = false → has bitmap kFPRsrcForkLenBit = true →
    has bitmap kFPExtRsrcForkLenBit = true → v.rsrcForkLen.toNat = v.extRsrcForkLen.toNat

variable {isdir : Bool} {bitmap : UInt16} {v : Parms}

/-- Two names go into one field, the second only if it is not empty. -/
theorem stored_name : (stored isdir bitmap v).name =
    if has bitmap kFPUTF8NameBit then
      if v.utf8Name = [] then if has bitmap kFPLongNameBit then v.longName else [] else v.utf8Name
    else if has bitmap kFPLongNameBit then v.longName else [] := rfl

theorem stored_size : (stored isdir bitmap v).size =
    if !isdir && has bitmap kFPExtDataForkLenBit then v.extDataForkLen
    else if !isdir && has bitmap kFPDataForkLenBit then v.dataForkLen.toUInt64 else 0 := rfl

/-- Both lengths of a resource fork are cut to 16 bits. -/
theorem stored_resourcesize : (stored isdir bitmap v).resourcesize =
    if has bitmap kFPExtRsrcForkLenBit then v.extRsrcForkLen.toUInt16
    else if !isdir && has bitmap kFPRsrcForkLenBit then v.rsrcForkLen.toUInt16 else 0 := rfl

theorem stored_unixprivs : (stored isdir bitmap v).unixprivs =
    if has bitmap kFPUnixPrivsBit then v.unixprivs
    else ⟨if isdir && has bitmap kFPOwnerIDBit then v.ownerId else 0,
      if isdir && has bitmap kFPGroupIDBit then v.groupId else 0, 0, 0⟩ := rfl

/-- The values are all stored if they are storable. -/
theorem Storable.stores (h : Storable isdir bitmap v) :
    Stores isdir bitmap v (stored isdir bitmap v) where
  kind := rfl
  attributes := rfl
  did := rfl
  creationDate := rfl
  modificationDate := rfl
  backupDate := rfl
  finderinfo := rfl
  longName := by
    intro hlong
    rw [stored_name]
    split
    · rename_i hutf8
      split
      · rfl
      · exact (h.name hlong hutf8).symm
    · rfl
  utf8Name := by
    intro hutf8
    rw [stored_name, if_pos hutf8]
    split
    · rename_i hempty
      split
      · rename_i hlong
        exact h.name hlong hutf8
      · exact hempty.symm
    · rfl
  noName := by
    intro hlong hutf8
    rw [stored_name, hutf8, hlong]
    rfl
  fileid := rfl
  offspring := rfl
  ownerId := by
    intro hdir howner
    rw [stored_unixprivs]
    split
    · rename_i hprivs
      exact (h.owner hdir howner hprivs).symm
    · rw [hdir, howner]
      rfl
  groupId := by
    intro hdir hgroup
    rw [stored_unixprivs]
    split
    · rename_i hprivs
      exact (h.group hdir hgroup hprivs).symm
    · rw [hdir, hgroup]
      rfl
  unixprivs := by
    intro hprivs
    rw [stored_unixprivs, if_pos hprivs]
  noOwner := by
    intro howner hprivs
    rw [stored_unixprivs, hprivs, howner]
    rfl
  noGroup := by
    intro hgroup hprivs
    rw [stored_unixprivs, hprivs, hgroup]
    rfl
  noPermissions := by
    intro hprivs
    rw [stored_unixprivs, hprivs]
    exact ⟨rfl, rfl⟩
  accessrights := rfl
  dataForkLen := by
    intro hfile hlen
    rw [stored_size, hfile, hlen]
    split
    · rename_i hext
      exact (h.dataFork hfile hlen (by simpa using hext)).symm
    · exact UInt32.toNat_toUInt64 _
  extDataForkLen := by
    intro hfile hext
    rw [stored_size, hfile, hext]
    rfl
  noDataForkLen := by
    intro hlen hext
    rw [stored_size, hlen, hext]
    rfl
  rsrcForkLen := by
    intro hfile hlen
    rw [stored_resourcesize]
    split
    · rename_i hext
      rw [h.bothRsrcForks hfile hlen hext, UInt64.toNat_toUInt16,
        Nat.mod_eq_of_lt (h.extRsrcFork hext)]
    · rw [hfile, hlen]
      exact (UInt32.toNat_toUInt16 _).trans (Nat.mod_eq_of_lt (h.rsrcFork hfile hlen))
  extRsrcForkLen := by
    intro hext
    rw [stored_resourcesize, if_pos hext, UInt64.toNat_toUInt16,
      Nat.mod_eq_of_lt (h.extRsrcFork hext)]
  noRsrcForkLen := by
    intro hlen hext
    rw [stored_resourcesize, hlen, hext]
    rfl
  others := ⟨rfl, rfl, rfl, rfl, rfl, rfl⟩

/-- What is stored says that the values are storable. -/
theorem Stores.storable {fi : AfpFileInfo} (h : Stores isdir bitmap v fi) :
    Storable isdir bitmap v where
  name := by
    intro hlong hutf8
    rw [← h.longName hlong, h.utf8Name hutf8]
  owner := by
    intro hdir howner hprivs
    rw [← h.ownerId hdir howner, h.unixprivs hprivs]
  group := by
    intro hdir hgroup hprivs
    rw [← h.groupId hdir hgroup, h.unixprivs hprivs]
  dataFork := by
    intro hfile hlen hext
    rw [← h.dataForkLen hfile hlen, h.extDataForkLen hfile hext]
  rsrcFork := by
    intro hfile hlen
    rw [← h.rsrcForkLen hfile hlen]
    exact UInt16.toNat_lt _
  extRsrcFork := by
    intro hext
    rw [← h.extRsrcForkLen hext]
    exact UInt16.toNat_lt _
  bothRsrcForks := by
    intro hfile hlen hext
    rw [← h.rsrcForkLen hfile hlen, h.extRsrcForkLen hext]

/-- **Every value is stored exactly if and only if the values are storable.** -/
theorem stores_iff {filebitmap dirbitmap : UInt32} {buf : List UInt8}
    (hbitmap : bitmap = (if isdir then dirbitmap else filebitmap).toUInt16)
    (hbuf : Encodes isdir bitmap v buf) :
    (∃ fi, parseReplyBlock buf isdir filebitmap dirbitmap = some fi ∧ Stores isdir bitmap v fi) ↔
      Storable isdir bitmap v := by
  subst hbitmap
  constructor
  · rintro ⟨fi, -, hstores⟩
    exact hstores.storable
  · intro h
    exact ⟨_, parseReplyBlock_encodes hbuf, h.stores⟩

/-- The values of a small file: 7 bytes of data, `rsrcForkLen` bytes in the resource fork. -/
def fileParms (rsrcForkLen : UInt32) : Parms where
  attributes := 0x0102
  did := 2
  creationDate := 946684800
  modificationDate := 1000000000
  backupDate := 0
  finderinfo := List.replicate 32 0x20
  longName := [0x66]
  fileid := 9
  offspring := 0
  ownerId := 0
  groupId := 0
  accessrights := 0
  dataForkLen := 7
  rsrcForkLen := rsrcForkLen
  extDataForkLen := 7
  launchLimit := 0
  utf8Name := [0x66]
  extRsrcForkLen := rsrcForkLen.toUInt64
  unixprivs := ⟨501, 20, 0o644, 0⟩
  finderinfo_length := rfl
  longName_length := by decide
  utf8Name_length := by decide

/-- The long name and the two lengths of a file. -/
def fileBitmap : UInt16 := 0x0640

/-- Their encoding: the name is at offset 10. -/
def fileBlock (rsrcForkLen : UInt32) : List UInt8 :=
  [0x00, 0x0a] ++ (toBE 4 7 ++ (toBE 4 rsrcForkLen.toNat ++ [0x01, 0x66]))

theorem encodes_fileBlock (rsrcForkLen : UInt32) :
    Encodes false fileBitmap (fileParms rsrcForkLen) (fileBlock rsrcForkLen) := by
  refine ⟨⟨10, 0, 0, 0⟩, [0x01, 0x66], rfl, fun _ => ?_, fun h => nomatch h⟩
  have hdrop : (fileBlock rsrcForkLen).drop 10 = [0x01, 0x66] := by
    rw [fileBlock, ← List.drop_drop (i := 8) (j := 2), ← List.drop_drop (i := 4) (j := 4)]
    rfl
  exact hdrop.symm ▸ List.prefix_rfl

/-- A resource fork of 65535 bytes. -/
theorem stores_iff_of_file :
    ∃ fi, parseReplyBlock (fileBlock 65535) false 0x0640 0 = some fi ∧
      Stores false fileBitmap (fileParms 65535) fi :=
  (stores_iff rfl (encodes_fileBlock 65535)).mpr
    ⟨nofun, nofun, nofun, nofun, fun _ _ => by decide, nofun, nofun⟩

/-- **A resource fork of 65536 bytes is reported to be empty.** -/
theorem resource_fork_is_cut :
    ¬ ∀ (isdir : Bool) (bitmap : UInt16) (v : Parms) (filebitmap dirbitmap : UInt32)
      (buf : List UInt8), bitmap = (if isdir then dirbitmap else filebitmap).toUInt16 →
      Encodes isdir bitmap v buf →
      ∃ fi, parseReplyBlock buf isdir filebitmap dirbitmap = some fi ∧ Stores isdir bitmap v fi := by
  intro h
  obtain ⟨fi, -, hstores⟩ :=
    h false fileBitmap (fileParms 65536) 0x0640 0 (fileBlock 65536) rfl (encodes_fileBlock 65536)
  have hlt := hstores.storable.rsrcFork rfl rfl
  exact absurd hlt (by decide)

end ReplyBlock
end Afpfs

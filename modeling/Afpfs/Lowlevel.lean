import Afpfs.Did

/-!
# Low level operations

`lib/lowlevel.c`: the operations that the ordinary files and the AppleDouble files share.  A loop
that the source does not bound has fuel, and a program that runs out of it is stuck.

`ll_open()` creates files through the middle level and is in `Afpfs.Open`.
-/

set_option autoImplicit false

namespace Afpfs

open Unicode Codepage Interaction

/-! ## Byte range locks -/

/-- A lock or unlock request, in the form for the version of the protocol. -/
def byteRangeLock (volume : Volume) (unlock : Bool) (forkid : UInt16)
    (offset sizetorequest : ℕ) : AfpM ℤ :=
  if volume.server.avNumber < 30 then
    requestRc (.byteRangeLock unlock forkid (.ofNat offset) (.ofNat sizetorequest))
  else
    requestRc (.byteRangeLockExt unlock forkid (.ofNat offset) (.ofNat sizetorequest))

/-- `ll_handle_unlocking()`. -/
def llHandleUnlocking (volume : Volume) (forkid : UInt16) (offset sizetorequest : ℕ) : AfpM ℤ :=
  if volume.has VOLUME_EXTRA_FLAGS_NO_LOCKING then return 0
  else do
    let rc ← byteRangeLock volume true forkid offset sizetorequest
    if rc = kFPNoErr then return 0 else return -1

/-- `MAX_LOCKTRYCOUNT`. -/
def maxLocktrycount : ℕ := 10

/-- The loop of `ll_handle_locking()`.  Running out of tries is no error. -/
def lockLoop (volume : Volume) (forkid : UInt16) (offset sizetorequest : ℕ) : ℕ → AfpM ℤ
  | 0 => return 0
  | tries + 1 => do
    let rc ← byteRangeLock volume false forkid offset sizetorequest
    if rc = kFPNoErr then return 0
    else if rc = kFPNoMoreLocks ∨ rc = kFPLockErr then do
      sleep
      lockLoop volume forkid offset sizetorequest tries
    else return -1

/-- `ll_handle_locking()`. -/
def llHandleLocking (volume : Volume) (forkid : UInt16) (offset sizetorequest : ℕ) : AfpM ℤ :=
  if volume.has VOLUME_EXTRA_FLAGS_NO_LOCKING then return 0
  else lockLoop volume forkid offset sizetorequest maxLocktrycount

/-! ## Writing -/

/-- A write request, in the form for the version of the protocol. -/
def writeRequest (volume : Volume) (forkid : UInt16) (offset sizetowrite : ℕ)
    (data : List UInt8) : AfpM ℤ :=
  if volume.server.avNumber < 30 then
    requestRc (.write forkid (.ofNat offset) (.ofNat sizetowrite) data)
  else
    requestRc (.writeExt forkid (.ofNat offset) (.ofNat sizetowrite) data)

/-- The error that the loop of `ll_write()` makes of a result. -/
def writeErr (ret : ℤ) : ℤ :=
  if ret = kFPAccessDenied then EACCES
  else if ret = kFPDiskFull then ENOSPC
  else if ret = kFPLockErr ∨ ret = kFPMiscErr ∨ ret = kFPParamErr then EINVAL
  else 0

/-- The loop of `ll_write()`: the value of `err` and `*totalwritten` after it. -/
def writeLoop (volume : Volume) (data : List UInt8) (offset : ℕ) (forkid : UInt16) :
    ℕ → ℕ → ℕ → AfpM (ℤ × ℕ)
  | fuel, totalwritten, o =>
    if totalwritten < data.length then
      match fuel with
      | 0 => .stuck
      | fuel + 1 => do
        let maxPacketSize := volume.server.txQuantum.toNat
        let sizetowrite :=
          if data.length - totalwritten < maxPacketSize then data.length - totalwritten
          else maxPacketSize
        let _ ← writeRequest volume forkid (offset + o) sizetowrite
          ((data.drop o).take sizetowrite)
        -- the result of the request is overwritten before it is looked at
        let ret : ℤ := 0
        let totalwritten := totalwritten + sizetowrite
        if writeErr ret ≠ 0 then return (writeErr ret, totalwritten)
        else writeLoop volume data offset forkid fuel totalwritten (o + sizetowrite)
    else return (0, totalwritten)

/-- `ll_write()` of `data`: its result and `*totalwritten`. -/
def llWrite (volume : Volume) (data : List UInt8) (offset : ℕ) (forkid : UInt16) (fuel : ℕ) :
    AfpM (ℤ × ℕ) := do
  -- a failure of the lock or the unlock sets `ret`, and `err` is returned
  let locked ← llHandleLocking volume forkid offset data.length
  if locked ≠ 0 then return (0, 0)
  else do
    let (err, totalwritten) ← writeLoop volume data offset forkid fuel 0 0
    if err ≠ 0 then return (-err, totalwritten)
    else do
      let unlocked ← llHandleUnlocking volume forkid offset data.length
      if unlocked ≠ 0 then return (0, totalwritten)
      else return (0, totalwritten)

/-! ## Reading -/

/-- A read request into a buffer of `maxsize` bytes, in the form for the version of the
protocol. -/
def readRequest (volume : Volume) (forkid : UInt16) (offset size : ℕ) (maxsize : UInt32) :
    AfpM (Reply (List UInt8)) :=
  if volume.server.avNumber < 30 then afpRead forkid (.ofNat offset) (.ofNat size) maxsize
  else afpReadext forkid (.ofNat offset) (.ofNat size) maxsize

/-- `ll_read()`: its result, the bytes stored in the buffer and `*eof`. -/
def llRead (volume : Volume) (size offset : ℕ) (forkid : UInt16) :
    AfpM (ℤ × List UInt8 × Bool) := do
  let bufsize : UInt32 := if volume.server.rxQuantum.toNat < size then volume.server.rxQuantum
    else .ofNat size
  let locked ← llHandleLocking volume forkid offset size
  if locked ≠ 0 then return (-EBUSY, [], false)
  else do
    let reply ← readRequest volume forkid offset size bufsize
    let buffer := reply.stored.getD []
    let unlocked ← llHandleUnlocking volume forkid offset size
    if unlocked ≠ 0 then return (- EIO, buffer, false)
    else if reply.rc = kFPAccessDenied then return (-EACCES, buffer, false)
    else if reply.rc = kFPLockErr then return (-EBUSY, buffer, false)
    else if reply.rc = kFPMiscErr ∨ reply.rc = kFPParamErr then return (- EIO, buffer, false)
    else return (buffer.length, buffer, reply.rc = kFPEOFErr)

/-! ## Parameters -/

/-- `ll_zero_file()`. -/
def llZeroFile (volume : Volume) (forkid : UInt16) (resource : Bool) : AfpM ℤ := do
  let bitmap :=
    if volume.server.avNumber < 30 ∨ volume.server.serverType = .netatalk then
      if resource then kFPRsrcForkLenBit else kFPDataForkLenBit
    else if resource then kFPExtRsrcForkLenBit else kFPExtDataForkLenBit
  let ret ← requestRc (.setForkParms forkid bitmap 0)
  if ret = kFPAccessDenied then return EACCES
  else if ret = kFPVolLocked ∨ ret = kFPLockErr then return EBUSY
  else if ret = kFPDiskFull then return ENOSPC
  else if ret = kFPBitmapErr ∨ ret = kFPMiscErr ∨ ret = kFPParamErr then return EIO
  else return 0

/-- `ll_get_directory_entry()`: its result and the structure, whose `basename` is kept. -/
def llGetDirectoryEntry (basename : CString) (dirid : UInt32) (filebitmap dirbitmap : ℕ)
    (p : AfpFileInfo) : AfpM (ℤ × AfpFileInfo) := do
  let reply ← afpGetfiledirparms dirid filebitmap dirbitmap basename
  return (reply.rc, { reply.stored.getD p with basename := p.basename })

/-- `set_nonunix_perms()`. -/
def setNonunixPerms (fp : AfpFileInfo) : UInt32 :=
  if fp.isdir then .ofNat (0o700 ||| S_IFDIR) else .ofNat (0o600 ||| S_IFREG)

/-- What `ll_getattr()` fills in of `struct stat`. -/
structure Stat where
  stMode : ℕ
  stNlink : ℕ
  stUid : UInt32
  stGid : UInt32
  stSize : ℕ
  stCtime : UInt32
  stMtime : UInt32
  deriving DecidableEq

/-- A `struct stat` after `memset()` to zero. -/
def Stat.zero : Stat where
  stMode := 0
  stNlink := 0
  stUid := 0
  stGid := 0
  stSize := 0
  stCtime := 0
  stMtime := 0

/-- The result that the `switch` of `ll_getattr()`, `get_unixprivs()` and `ll_open()` makes of the
reply to a lookup. -/
def lookupErr (rc : ℤ) : ℤ :=
  if rc = kFPAccessDenied then EACCES
  else if rc = kFPObjectNotFound then ENOENT
  else if rc = kFPNoErr then 0
  else EIO

/-- `ll_getattr()`: its result and `*stbuf`. -/
def llGetattr (volume : Volume) (path : CString) (resource : Bool) : AfpM (ℤ × Stat) :=
  if invalidFilename volume.server path then return (-ENAMETOOLONG, .zero)
  else do
    let fp ← uninitFileInfo
    let (ret, basename, dirid) ← resolve path
    if ret < 0 then return (-ENOENT, .zero)
    else do
      let old : Bool := volume.server.avNumber < 30
      let unix := volume.has VOLUME_EXTRA_FLAGS_VOL_SUPPORTS_UNIX
      -- for AFP 2 the root is a file with the name of the volume
      let root : Bool := old && path = [slash]
      let basename := if root then volume.volumeName.take (AFP_MAX_PATH - 1) else basename
      let dirid := if root then 1 else dirid
      let privbits := if unix then kFPUnixPrivsBit else 0
      let idbits := if unix then 0 else kFPOwnerIDBit ||| kFPGroupIDBit
      let forkbit :=
        if old then if resource then kFPRsrcForkLenBit else kFPDataForkLenBit
        else if resource then kFPExtRsrcForkLenBit else kFPExtDataForkLenBit
      let dirbitmap := kFPAttributeBit ||| kFPCreateDateBit ||| kFPModDateBit ||| kFPNodeIDBit |||
        kFPParentDirIDBit ||| kFPOffspringCountBit ||| privbits ||| idbits
      let filebitmap := kFPAttributeBit ||| kFPCreateDateBit ||| kFPModDateBit ||| kFPNodeIDBit |||
        kFPFinderInfoBit ||| kFPParentDirIDBit ||| forkbit ||| privbits
      let reply ← afpGetfiledirparms dirid filebitmap dirbitmap basename
      let fp := reply.stored.getD fp
      if lookupErr reply.rc ≠ 0 then return (-lookupErr reply.rc, .zero)
      else do
        let mode := if unix then fp.unixprivs.permissions.toNat else (setNonunixPerms fp).toNat
        let (ret, uid, gid) :=
          translateUidgidToClient volume fp.unixprivs.uid fp.unixprivs.gid
        if ret ≠ 0 then
          return (- EIO, { Stat.zero with
            stMode := mode, stUid := fp.unixprivs.uid, stGid := fp.unixprivs.gid })
        else do
          let isdir : Bool := mode &&& S_IFDIR ≠ 0
          let nodates := old && isdir
          return (0, {
            stMode := mode
            stNlink := if isdir then fp.offspring.toNat + 2 else 1
            stUid := uid
            stGid := gid
            stSize :=
              if isdir then fp.offspring.toNat * 34 + 24
              else if resource then fp.resourcesize.toNat else fp.size.toNat
            stCtime := if nodates then volume.server.connectTime else fp.creationDate
            stMtime := if nodates then volume.server.connectTime else fp.modificationDate })

/-- `afp_opendt()` for the volume, whose reply is stored in `dtrefnum`: its result. -/
def openDesktop : AfpM ℤ := do
  let reply ← afpOpendt
  match (reply.stored : Option UInt16) with
  | some refnum => setDtrefnum refnum
  | none => pure ()
  return reply.rc

/-! ## Listing a directory -/

/-- An Enumerate request, in the form for the version of the protocol. -/
def enumerateRequest (volume : Volume) (dirid : UInt32) (filebitmap dirbitmap : ℕ)
    (startindex : ℕ) (basename : CString) : AfpM (Reply (List AfpFileInfo)) :=
  if volume.server.avNumber < 30 then
    afpEnumerate dirid filebitmap dirbitmap 20 (.ofNat startindex) basename
  else
    afpEnumerateext2 dirid filebitmap dirbitmap 20 (.ofNat startindex) basename

/-- The loop of `ll_readdir()`: `ret` if the function returns from it, and the entries. -/
def readdirLoop (volume : Volume) (dirid : UInt32) (filebitmap dirbitmap : ℕ)
    (basename : CString) : ℕ → ℕ → List AfpFileInfo → AfpM (ℤ × List AfpFileInfo)
  | 0, _, _ => .stuck
  | fuel + 1, startindex, filebase => do
    let reply ← enumerateRequest volume dirid filebitmap dirbitmap startindex basename
    let base := reply.stored.getD []
    let rc := reply.rc
    if rc = -1 then return ( EIO, filebase)
    else if rc = 0 then
      readdirLoop volume dirid filebitmap dirbitmap basename fuel (startindex + base.length)
        (filebase ++ base)
    else if rc = kFPObjectNotFound then return (0, filebase ++ base)
    else if rc = kFPAccessDenied then return (EACCES, filebase)
    else if rc = kFPDirNotFound then return (0, filebase)
    else if rc = kFPBitmapErr ∨ rc = kFPMiscErr ∨ rc = kFPObjectTypeErr ∨ rc = kFPParamErr ∨
        rc = kFPCallNotSupported then return ( EIO, filebase)
    else readdirLoop volume dirid filebitmap dirbitmap basename fuel startindex filebase

/-- `ll_readdir()`: its result and the list stored in `*fb`, if one is stored. -/
def llReaddir (volume : Volume) (path : CString) (resource : Bool) (fuel : ℕ) :
    AfpM (ℤ × Option (List AfpFileInfo)) :=
  if invalidFilename volume.server path then return (-ENAMETOOLONG, none)
  else do
    let (ret, basename, dirid) ← resolve path
    if ret < 0 then return (-ENOENT, none)
    else do
      let old : Bool := volume.server.avNumber < 30
      let privbits :=
        if volume.has VOLUME_EXTRA_FLAGS_VOL_SUPPORTS_UNIX then kFPUnixPrivsBit else 0
      let namebits :=
        if volume.attributes &&& kSupportsUTF8Names ≠ 0 then kFPUTF8NameBit
        else kFPLongNameBit ||| kFPShortNameBit
      let forkbit :=
        if resource then kFPRsrcForkLenBit
        else if old then kFPDataForkLenBit else kFPExtDataForkLenBit
      let common := kFPAttributeBit ||| kFPParentDirIDBit ||| kFPCreateDateBit ||| kFPModDateBit |||
        kFPBackupDateBit ||| kFPNodeIDBit ||| privbits ||| namebits
      let filebitmap := common ||| forkbit
      let dirbitmap := common ||| kFPOffspringCountBit ||| kFPOwnerIDBit ||| kFPGroupIDBit
      let (ret, filebase) ← readdirLoop volume dirid filebitmap dirbitmap basename fuel 1 []
      if ret ≠ 0 then return (-ret, none)
      else do
        let filebase ← ofOption <| filebase.mapM fun p => do
          let (_, name) ← convertPathToUnix volume.server.pathEncoding p.name AFP_MAX_PATH
          return { p with name := name }
        let filebase :=
          if old then filebase.map fun p =>
            { p with unixprivs := { p.unixprivs with permissions := setNonunixPerms p } }
          else filebase
        return (0, some filebase)

end Afpfs

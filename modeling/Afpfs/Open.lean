import Afpfs.Create

/-!
# Opening files

`ll_open()` of `lib/lowlevel.c` and the functions that open a file through it, `appledouble_open()`
and `afp_ml_open()`.
-/

set_option autoImplicit false

namespace Afpfs

open Unicode Codepage Interaction Translate

/-- The error that `ll_open()` makes of the result of the request to open the fork. -/
def openErr (rc : ℤ) : ℤ :=
  if rc = kFPAccessDenied then EACCES
  else if rc = kFPObjectNotFound then ENOENT
  else if rc = kFPObjectLocked then EROFS
  else if rc = kFPObjectTypeErr then EISDIR
  else if rc = kFPParamErr then EACCES
  else if rc = kFPTooManyFilesOpen then EMFILE
  else if rc = 0 then 0
  else EFAULT

/-- The loop at `try_again` of `ll_open()`: `ret`, and the structure with the fork in it. -/
def openLoop (volume : Volume) (path : CString) (flags aflags : ℕ) :
    ℕ → AfpFileInfo → AfpM (ℤ × AfpFileInfo)
  | 0, _ => .stuck
  | fuel + 1, fp => do
    let reply ← afpOpenfork (fp.resource ≠ .none) fp.did aflags fp.basename
    let fp := { fp with forkid := reply.stored.getD fp.forkid }
    if reply.rc = kFPObjectNotFound ∧ flags &&& O_CREAT ≠ 0 then do
      let created ← afpMlCreat volume path 0o644
      if created = 0 then openLoop volume path flags aflags fuel fp
      else return (ENOENT, fp)
    else return (openErr reply.rc, fp)

/-- The access mode that `ll_open()` asks for. -/
def accessMode (flags : ℕ) : ℕ :=
  AFP_OPENFORK_ALLOWREAD |||
    (if flags &&& O_RDONLY ≠ 0 then AFP_OPENFORK_ALLOWREAD else 0) |||
    (if flags &&& O_WRONLY ≠ 0 then AFP_OPENFORK_ALLOWWRITE else 0) |||
    (if flags &&& O_RDWR ≠ 0 then AFP_OPENFORK_ALLOWREAD ||| AFP_OPENFORK_ALLOWWRITE else 0)

/-- The check of `ll_open()` that AFP 2 can open the file, for which `*fp` is read again: `ret`,
and the structure. -/
def checkSize (volume : Volume) (flags : ℕ) (fp : AfpFileInfo) : AfpM (ℤ × AfpFileInfo) :=
  if flags &&& O_LARGEFILE ≠ 0 ∧ volume.server.avNumber < 30 then do
    let forkbit := if fp.resource ≠ .none then kFPRsrcForkLenBit else kFPDataForkLenBit
    let (rc, fp) ← llGetDirectoryEntry fp.basename fp.did
      (kFPParentDirIDBit ||| kFPNodeIDBit ||| forkbit) 0 fp
    let size := if fp.resource ≠ .none then fp.resourcesize.toNat else fp.size.toNat
    if lookupErr rc ≠ 0 then return (lookupErr rc, fp)
    else if AFP_MAX_AFP2_FILESIZE - 1 ≤ size then return (EOVERFLOW, fp)
    else return (0, fp)
  else return (0, fp)

/-- `ll_open()` with the structure at `handle`: its result and the structure. -/
def llOpen (volume : Volume) (path : CString) (flags : ℕ) (handle : Handle) (fp : AfpFileInfo)
    (fuel : ℕ) : AfpM (ℤ × AfpFileInfo) := do
  let createFile : Bool := false
  let aflags := accessMode flags
  -- a bit mask and a truth value, combined bit by bit
  if aflags &&& AFP_OPENFORK_ALLOWWRITE &&& (volumeIsReadonly volume).toNat ≠ 0 then
    return (-EPERM, fp)
  else do
    let fp := { fp with sync := (flags &&& (O_SYNC ||| O_DIRECT)) % 256 ≠ 0 }
    if aflags &&& AFP_OPENFORK_ALLOWWRITE ≠ 0 ∧ createFile ∧ flags &&& O_EXCL ≠ 0 then
      return (-EEXIST, fp)
    else do
      let _ ←
        (if aflags &&& AFP_OPENFORK_ALLOWWRITE ≠ 0 ∧ createFile then
          requestRc (.createFile kFPSoftCreate fp.did fp.basename)
        else pure 0)
      let (ret, fp) ← checkSize volume flags fp
      if ret ≠ 0 then return (-ret, fp)
      else do
        let (ret, fp) ← openLoop volume path flags aflags fuel fp
        if ret ≠ 0 then return (-ret, fp)
        else do
          addOpenedFork handle fp.forkid
          if flags &&& O_TRUNC ≠ 0 ∧ !createFile then do
            let ret ← llZeroFile volume fp.forkid (fp.resource ≠ .none)
            return (-ret, fp)
          else return (0, fp)

/-- `appledouble_open()` with the structure at `handle`: its result and the structure. -/
def appledoubleOpen (volume : Volume) (path : CString) (flags : ℕ) (handle : Handle)
    (fp : AfpFileInfo) (fuel : ℕ) : AfpM (ℤ × AfpFileInfo) := do
  let (kind, newpath) ← translated volume path
  let fp := { fp with resource := kind }
  match kind with
  | .none => return (0, fp)
  | .resource => do
    let (ret, basename, did) ← getDirid newpath fp.basename fp.did
    let fp := { fp with basename := basename, did := did }
    if ret < 0 then return (-ENOENT, fp)
    else do
      let (ret, fp) ← llOpen volume newpath flags handle fp fuel
      if ret < 0 then return (ret, fp) else return (1, fp)
  | .appledouble => return (-EISDIR, fp)
  | .finderinfo => do
    let (ret, basename, did) ← getDirid newpath fp.basename fp.did
    let fp := { fp with basename := basename, did := did }
    if ret < 0 then return (-ENOENT, fp) else return (1, fp)
  | .comment => do
    let (ret, basename, did) ← getDirid newpath fp.basename fp.did
    let fp := { fp with basename := basename, did := did }
    if ret < 0 then return (-ENOENT, fp)
    else do
      let refnum ← dtrefnum
      if refnum = 0 then do
        let rc ← openDesktop
        if rc = kFPParamErr ∨ rc = kFPMiscErr then return (- EIO, fp) else return (1, fp)
      else return (1, fp)
  | .serverIcon => return (1, fp)

/-- `afp_ml_open()`: its result and what is stored in `*newfp`, if anything is. -/
def afpMlOpen (volume : Volume) (path : CString) (flags fuel : ℕ) :
    AfpM (ℤ × Option (Handle × AfpFileInfo)) := do
  let (ret, convertedPath) ← ofOption
    (convertPathToAfp volume.server.pathEncoding path AFP_MAX_PATH)
  if ret ≠ 0 then return (-EINVAL, none)
  else if invalidFilename volume.server convertedPath then return (-ENAMETOOLONG, none)
  else if volumeIsReadonly volume ∧
      flags &&& (O_WRONLY ||| O_RDWR ||| O_TRUNC ||| O_APPEND ||| O_CREAT) ≠ 0 then
    return (-EACCES, none)
  else do
    let allocated ← malloc
    match allocated with
    | none => return (-1, none)
    | some handle => do
      let (ret, fp) ← appledoubleOpen volume path flags handle .zero fuel
      if ret < 0 then return (ret, some (handle, fp))
      else if ret = 1 then return (0, some (handle, fp))
      else do
        let (ret, basename, dirid) ← getDirid convertedPath fp.basename (← uninitInt)
        let fp := { fp with basename := basename }
        if ret < 0 then return (-ENOENT, some (handle, fp))
        else do
          let (ret, fp) ← llOpen volume convertedPath flags handle { fp with did := dirid } fuel
          if ret < 0 then do
            free handle
            return (ret, some (handle, fp))
          else return (0, some (handle, fp))

end Afpfs

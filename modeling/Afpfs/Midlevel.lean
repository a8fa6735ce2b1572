import Afpfs.Resource

/-!
# Middle level operations

`lib/midlevel.c`: the operations that the clients call, apart from `afp_ml_creat()`
(`Afpfs.Create`) and `afp_ml_open()` (`Afpfs.Open`).  Each keeps the order of its checks: the
conversion of the path, the length of the names, the read-only check and the AppleDouble hook come
in a different order in almost every one of them.
-/

set_option autoImplicit false

namespace Afpfs

open Unicode Codepage Interaction Translate

/-! ## Listing and reading -/

/-- `afp_ml_readdir()`: its result and the list stored in `*fb`, if one is stored. -/
def afpMlReaddir (volume : Volume) (path : CString) (fuel : ℕ) :
    AfpM (ℤ × Option (List AfpFileInfo)) := do
  let (ret, convertedPath) ← ofOption
    (convertPathToAfp volume.server.pathEncoding path AFP_MAX_PATH)
  if ret ≠ 0 then return (-EINVAL, none)
  else do
    let (ret, fb) ← appledoubleReaddir volume convertedPath fuel
    if ret < 0 then return (ret, fb)
    else if ret = 1 then return (0, fb)
    else llReaddir volume convertedPath false fuel

/-- `afp_ml_read()` into `buf`, which has the size asked for. -/
def afpMlRead (volume : Volume) (path : CString) (buf : List UInt8) (offset : ℕ)
    (fp : AfpFileInfo) : AfpM ReadResult := do
  let start : ReadResult := { ret := 0, buf := buf, amountRead := 0, eof := false, fp := fp }
  let (ret, _) ← ofOption (convertPathToAfp volume.server.pathEncoding path AFP_MAX_PATH)
  if ret ≠ 0 then return { start with ret := -EINVAL }
  else do
    let result ←
      (if fp.resource ≠ .none then appledoubleRead volume fp buf offset else pure start)
    if result.ret < 0 then return result
    else if fp.resource ≠ .none ∧ result.ret = 1 then
      return { result with ret := result.amountRead }
    else do
      let (ret, bytes, eof) ← llRead volume buf.length offset result.fp.forkid
      return { result with ret := ret, buf := patch result.buf 0 bytes, eof := eof }

/-- `afp_ml_getattr()`: its result and `*stbuf`. -/
def afpMlGetattr (volume : Volume) (path : CString) : AfpM (ℤ × Stat) := do
  let (ret, convertedPath) ← ofOption
    (convertPathToAfp volume.server.pathEncoding path AFP_MAX_PATH)
  if ret ≠ 0 then return (-EINVAL, .zero)
  else do
    let (ret, stbuf) ← appledoubleGetattr volume convertedPath
    if ret < 0 then return (ret, stbuf)
    else if 0 < ret then return (0, stbuf)
    else llGetattr volume path false

/-- The error that `afp_ml_readlink()` makes of the result of the request to open the fork. -/
def readlinkErr (rc : ℤ) : ℤ :=
  if rc = kFPAccessDenied then EACCES
  else if rc = kFPObjectNotFound then ENOENT
  else if rc = kFPObjectLocked then EROFS
  else if rc = kFPObjectTypeErr then EISDIR
  else if rc = kFPParamErr then EACCES
  else if rc = kFPTooManyFilesOpen then EMFILE
  else if rc = kFPVolLocked ∨ rc = kFPDenyConflict ∨ rc = kFPMiscErr ∨ rc = kFPBitmapErr ∨
      rc = 0 then 0
  else EFAULT

/-- `afp_ml_readlink()` with room for `size` bytes: its result and `buf`. -/
def afpMlReadlink (vol : Volume) (path : CString) (size : ℕ) : AfpM (ℤ × CString) := do
  let (ret, convertedPath) ← ofOption
    (convertPathToAfp vol.server.pathEncoding path AFP_MAX_PATH)
  if ret ≠ 0 then return (-EINVAL, [])
  else do
    let handle ← automatic
    let fp ← uninitFileInfo
    let (_, basename, dirid) ← resolve convertedPath
    let reply ← afpOpenfork false dirid (AFP_OPENFORK_ALLOWWRITE ||| AFP_OPENFORK_ALLOWREAD) basename
    let fp := { fp with forkid := reply.stored.getD fp.forkid }
    if readlinkErr reply.rc ≠ 0 then return (-readlinkErr reply.rc, [])
    else do
      addOpenedFork handle fp.forkid
      let reply ← readRequest vol fp.forkid 0 size (.ofNat size)
      let linkPath := (reply.stored.getD []).takeWhile (· ≠ 0)
      if reply.rc = kFPAccessDenied then return (-EACCES, [])
      else if reply.rc = kFPLockErr then return (-EBUSY, [])
      else if reply.rc = kFPMiscErr ∨ reply.rc = kFPParamErr then return (- EIO, [])
      else do
        let rc ← requestRc (.closeFork fp.forkid)
        if rc ≠ kFPNoErr then return (- EIO, [])
        else do
          removeOpenedFork handle
          let (_, buf) ← ofOption (convertPathToUnix vol.server.pathEncoding linkPath AFP_MAX_PATH)
          return (0, buf)

/-- `afp_ml_close()` of the structure at a handle, or of none. -/
def afpMlClose (volume : Volume) (path : CString) (file : Option (Handle × AfpFileInfo)) :
    AfpM ℤ := do
  let (ret, convertedPath) ← ofOption
    (convertPathToAfp volume.server.pathEncoding path AFP_MAX_PATH)
  if ret ≠ 0 then return -EINVAL
  else if invalidFilename volume.server convertedPath then return -ENAMETOOLONG
  else
    match file with
    | none => return EBADF
    | some (handle, fp) =>
      if fp.resource ≠ .none then appledoubleClose fp
      else do
        let rc ← requestRc (.closeFork fp.forkid)
        if rc ≠ kFPNoErr then return EIO
        else do
          removeOpenedFork handle
          return 0

/-! ## Modes, owners and times -/

/-- What `afp_ml_chmod()` and `afp_ml_chown()` do on a volume without Unix privileges. -/
def ignoreUnixprivs (vol : Volume) (path : CString) : AfpM ℤ :=
  if vol.has VOLUME_EXTRA_FLAGS_IGNORE_UNIXPRIVS then do
    let (ret, _) ← llGetattr vol path false
    return ret
  else return -ENOSYS

/-- `mode&(~S_IFDIR)`. -/
def clearDir (mode : UInt32) : UInt32 := mode &&& ~~~ UInt32.ofNat S_IFDIR

/-- `afp_ml_chmod()`. -/
def afpMlChmod (vol : Volume) (path : CString) (mode : UInt32) : AfpM ℤ :=
  if invalidFilename vol.server path then return -ENAMETOOLONG
  else if volumeIsReadonly vol then return -EACCES
  else if vol.has VOLUME_EXTRA_FLAGS_VOL_SUPPORTS_UNIX = false then ignoreUnixprivs vol path
  else do
    let (ret, convertedPath) ← ofOption
      (convertPathToAfp vol.server.pathEncoding path AFP_MAX_PATH)
    if ret ≠ 0 then return -EINVAL
    else do
      let ret ← appledoubleChmod vol path
      if ret < 0 then return ret
      else if ret = 1 then return 0
      else do
        let fp ← uninitFileInfo
        let (_, basename, dirid) ← resolve convertedPath
        let (rc, fp) ← getUnixprivs dirid basename fp
        if rc ≠ 0 then return rc
        else if clearDir fp.unixprivs.permissions = clearDir mode then return 0
        else do
          let (failed, uid, gid) :=
            translateUidgidToClient vol fp.unixprivs.uid fp.unixprivs.gid
          if failed ≠ 0 then return - EIO
          else if gid ≠ (← getgid) ∧ uid ≠ (← geteuid) then return -EPERM
          else do
            let (rc, _) ← setUnixprivs vol dirid basename (fp.setPermissions (clearDir mode))
            if rc = -ENOSYS then return -ENOSYS else return -ret

/-- `afp_ml_chown()`, which does not use the new ids. -/
def afpMlChown (vol : Volume) (path : CString) : AfpM ℤ := do
  let (ret, convertedPath) ← ofOption
    (convertPathToAfp vol.server.pathEncoding path AFP_MAX_PATH)
  if ret ≠ 0 then return -EINVAL
  else if invalidFilename vol.server convertedPath then return -ENAMETOOLONG
  else if volumeIsReadonly vol then return -EACCES
  else do
    let ret ← appledoubleChown vol path
    if ret < 0 then return ret
    else if ret = 1 then return 0
    else if vol.has VOLUME_EXTRA_FLAGS_VOL_SUPPORTS_UNIX = false then ignoreUnixprivs vol path
    else do
      let fp ← uninitFileInfo
      let (_, basename, dirid) ← resolve convertedPath
      let (rc, fp) ← getUnixprivs dirid basename fp
      if rc ≠ 0 then return rc
      else do
        let (rc, _) ← setUnixprivs vol dirid basename fp
        if rc = -ENOSYS then return -ENOSYS
        else if rc = kFPAccessDenied then return -EACCES
        else if rc = kFPObjectNotFound then return -ENOENT
        else return 0

/-- `afp_ml_utime()` with the new modification time. -/
def afpMlUtime (vol : Volume) (path : CString) (modtime : UInt32) : AfpM ℤ :=
  if volumeIsReadonly vol then return -EACCES
  else if invalidFilename vol.server path then return -ENAMETOOLONG
  else do
    let fp := { AfpFileInfo.zero with modificationDate := modtime }
    let (ret, convertedPath) ← ofOption
      (convertPathToAfp vol.server.pathEncoding path AFP_MAX_PATH)
    if ret ≠ 0 then return -EINVAL
    else do
      let ret ← appledoubleUtime vol path
      if ret < 0 then return ret
      else if ret = 1 then return 0
      else do
        let (_, basename, dirid) ← resolve convertedPath
        let directory ← isDir dirid basename
        let rc ←
          (if directory then requestRc (.setDirParms dirid basename kFPModDateBit fp)
          else requestRc (.setFileParms dirid basename kFPModDateBit fp))
        if rc = kFPAccessDenied then return -EACCES
        else if rc = kFPObjectNotFound then return -ENOENT
        else return -ret

/-! ## Removing and creating -/

/-- The error that `afp_ml_unlink()` makes of the result of the request. -/
def unlinkErr (rc : ℤ) : ℤ :=
  if rc = kFPAccessDenied then EACCES
  else if rc = kFPObjectLocked then EBUSY
  else if rc = kFPObjectNotFound then ENOENT
  else if rc = kFPVolLocked then EACCES
  else if rc = kFPObjectTypeErr ∨ rc = kFPDirNotEmpty ∨ rc = kFPMiscErr ∨ rc = kFPParamErr ∨
      rc = -1 then EINVAL
  else 0

/-- `afp_ml_unlink()`. -/
def afpMlUnlink (vol : Volume) (path : CString) : AfpM ℤ := do
  let (ret, convertedPath) ← ofOption
    (convertPathToAfp vol.server.pathEncoding path AFP_MAX_PATH)
  if ret ≠ 0 then return -EINVAL
  else if volumeIsReadonly vol then return -EACCES
  else do
    let ret ← appledoubleUnlink vol path
    if ret < 0 then return ret
    else if ret = 1 then return 0
    else do
      let (_, basename, dirid) ← resolve convertedPath
      let directory ← isDir dirid basename
      if directory then return -EISDIR
      else if invalidFilename vol.server convertedPath then return -ENAMETOOLONG
      else do
        let rc ← requestRc (.delete dirid basename)
        return -unlinkErr rc

/-- The error that `afp_ml_mkdir()` makes of the result of the request. -/
def mkdirErr (rc : ℤ) : ℤ :=
  if rc = kFPAccessDenied then EACCES
  else if rc = kFPDiskFull then ENOSPC
  else if rc = kFPObjectNotFound then ENOENT
  else if rc = kFPObjectExists then EEXIST
  else if rc = kFPVolLocked then EBUSY
  else if rc = kFPFlatVol ∨ rc = kFPMiscErr ∨ rc = kFPParamErr ∨ rc = -1 then EFAULT
  else 0

/-- `afp_ml_mkdir()`, which does not use the mode. -/
def afpMlMkdir (vol : Volume) (path : CString) : AfpM ℤ := do
  let (ret, convertedPath) ← ofOption
    (convertPathToAfp vol.server.pathEncoding path AFP_MAX_PATH)
  if ret ≠ 0 then return -EINVAL
  else if invalidFilename vol.server path then return -ENAMETOOLONG
  else if volumeIsReadonly vol then return -EACCES
  else do
    let ret ← appledoubleMkdir vol path
    if ret < 0 then return ret
    else if ret = 1 then return 0
    else do
      let (_, basename, dirid) ← resolve convertedPath
      let rc ← requestRc (.createDir dirid basename)
      return -mkdirErr rc

/-- The error that `afp_ml_rmdir()` makes of the result of the request. -/
def rmdirErr (rc : ℤ) : ℤ :=
  if rc = kFPAccessDenied then EACCES
  else if rc = kFPObjectLocked then EBUSY
  else if rc = kFPObjectNotFound then ENOENT
  else if rc = kFPVolLocked then EACCES
  else if rc = kFPDirNotEmpty then ENOTEMPTY
  else if rc = kFPObjectTypeErr ∨ rc = kFPMiscErr ∨ rc = kFPParamErr ∨ rc = -1 then EINVAL
  else 0

/-- `afp_ml_rmdir()`. -/
def afpMlRmdir (vol : Volume) (path : CString) : AfpM ℤ :=
  if invalidFilename vol.server path then return -ENAMETOOLONG
  else do
    let (ret, convertedPath) ← ofOption
      (convertPathToAfp vol.server.pathEncoding path AFP_MAX_PATH)
    if ret ≠ 0 then return -EINVAL
    else if volumeIsReadonly vol then return -EACCES
    else do
      let ret ← appledoubleRmdir vol path
      if ret < 0 then return ret
      else if ret = 1 then return 0
      else do
        let (_, basename, dirid) ← resolve convertedPath
        let directory ← isDir dirid basename
        if directory = false then return -ENOTDIR
        else do
          let rc ← requestRc (.delete dirid basename)
          if rmdirErr rc = 0 then do
            removeDid convertedPath
            return 0
          else return -rmdirErr rc

/-! ## Writing -/

/-- `afp_ml_write()` of `data`: its result and the structure. -/
def afpMlWrite (volume : Volume) (path : CString) (data : List UInt8) (offset : ℕ)
    (fp : AfpFileInfo) (uid gid : UInt32) (fuel : ℕ) : AfpM (ℤ × AfpFileInfo) :=
  if volume.server.avNumber < 30 ∧ AFP_MAX_AFP2_FILESIZE < data.length then return (-EFBIG, fp)
  else do
    let (ret, _) ← ofOption (convertPathToAfp volume.server.pathEncoding path AFP_MAX_PATH)
    if ret ≠ 0 then return (-EINVAL, fp)
    else if volumeIsReadonly volume then return (-EACCES, fp)
    else do
      let (ret, totalwritten, fp) ← appledoubleWrite volume fp data offset 0 fuel
      if ret < 0 then return (ret, fp)
      else if ret = 1 then return (totalwritten, fp)
      else do
        let (_, newuid, newgid) := translateUidgidToServer volume uid gid
        let fp :=
          if volume.has VOLUME_EXTRA_FLAGS_VOL_SUPPORTS_UNIX then
            { fp with unixprivs := { fp.unixprivs with
              uid := newuid, gid := newgid, permissions := .ofNat 0o100644 } }
          else fp
        let now ← gettimeofday
        let fp := { fp with modificationDate := now }
        let (ret, totalwritten) ← llWrite volume data offset fp.forkid fuel
        if ret < 0 then return (ret, fp) else return (totalwritten, fp)

/-- `afp_ml_truncate()`, which does not use the length. -/
def afpMlTruncate (vol : Volume) (path : CString) (fuel : ℕ) : AfpM ℤ := do
  let (ret, convertedPath) ← ofOption
    (convertPathToAfp vol.server.pathEncoding path AFP_MAX_PATH)
  if ret ≠ 0 then return -EINVAL
  else if invalidFilename vol.server convertedPath then return -ENAMETOOLONG
  else if volumeIsReadonly vol then return -EACCES
  else do
    let ret ← appledoubleTruncate vol path
    if ret < 0 then return ret
    else if ret = 1 then return 0
    else do
      let (failed, newfp) ← afpMlOpen vol path O_WRONLY fuel
      match newfp with
      | none => return ret
      | some (handle, fp) =>
        if failed ≠ 0 then return ret
        else do
          let ret ← llZeroFile vol fp.forkid false
          if ret ≠ 0 then return -ret
          else do
            let _ ← requestRc (.closeFork fp.forkid)
            removeOpenedFork handle
            free handle
            return -ret

/-- The Finder info of a symbolic link. -/
def symlinkFinderinfo : List UInt8 :=
  ascii ['s', 'l', 'n', 'k', 'r', 'h', 'a', 'p'] ++ List.replicate 24 0

/-- The error that `afp_ml_symlink()` makes of the result of its last request. -/
def symlinkErr (rc : ℤ) : ℤ :=
  if rc = kFPAccessDenied then EPERM
  else if rc = kFPBitmapErr then ENOSYS
  else if rc = kFPObjectNotFound then ENOENT
  else if rc = 0 then 0
  else EIO

/-- `afp_ml_symlink()`. -/
def afpMlSymlink (vol : Volume) (path1 path2 : CString) : AfpM ℤ :=
  if vol.server.avNumber < 30 then return -ENOSYS
  else do
    let (ret, convertedPath1) ← ofOption
      (convertPathToAfp vol.server.pathEncoding path1 AFP_MAX_PATH)
    if ret ≠ 0 then return -EINVAL
    else do
      let (ret, convertedPath2) ← ofOption
        (convertPathToAfp vol.server.pathEncoding path2 AFP_MAX_PATH)
      if ret ≠ 0 then return -EINVAL
      else if volumeIsReadonly vol then return -EACCES
      else do
        let ret ← appledoubleSymlink vol path1 path2
        if ret < 0 then return ret
        else if ret = 1 then return 0
        else do
          let (_, basename2, dirid2) ← resolve convertedPath2
          let rc ← requestRc (.createFile kFPHardCreate dirid2 basename2)
          if createErr rc ≠ 0 then return -createErr rc
          else do
            let handle ← automatic
            let fp ← uninitFileInfo
            let reply ← afpOpenfork false dirid2
              (AFP_OPENFORK_ALLOWWRITE ||| AFP_OPENFORK_ALLOWREAD) basename2
            -- the result of the request is not looked at
            let fp := { fp with forkid := reply.stored.getD fp.forkid }
            addOpenedFork handle fp.forkid
            let _ ← requestRc (.writeExt fp.forkid 0 (.ofNat convertedPath1.length) convertedPath1)
            let rc ← requestRc (.closeFork fp.forkid)
            if rc ≠ kFPNoErr then return - EIO
            else do
              removeOpenedFork handle
              let fp := { fp with finderinfo := symlinkFinderinfo }
              let rc ← requestRc (.setFileDirParms dirid2 basename2 kFPFinderInfoBit fp)
              return -symlinkErr rc

/-! ## Renaming -/

/-- The error that `afp_ml_rename()` makes of the result of the second move. -/
def moveAgainErr (rc : ℤ) : ℤ :=
  if rc = kFPObjectLocked ∨ rc = kFPAccessDenied then EACCES
  else if rc = kFPCantRename then EROFS
  else if rc = kFPObjectExists ∨ rc = kFPObjectNotFound then ENOENT
  else 0

/-- `afp_ml_rename()`. -/
def afpMlRename (vol : Volume) (pathFrom pathTo : CString) : AfpM ℤ := do
  let (ret, convertedPathFrom) ← ofOption
    (convertPathToAfp vol.server.pathEncoding pathFrom AFP_MAX_PATH)
  if ret ≠ 0 then return -EINVAL
  else do
    let (ret, convertedPathTo) ← ofOption
      (convertPathToAfp vol.server.pathEncoding pathTo AFP_MAX_PATH)
    if ret ≠ 0 then return -EINVAL
    else if volumeIsReadonly vol then return -EACCES
    else do
      let (_, basenameFrom, diridFrom) ← resolve convertedPathFrom
      let (_, basenameTo, diridTo) ← resolve convertedPathTo
      -- the whole path is looked up in the directory it leads to
      let directory ← isDir diridTo convertedPathTo
      let rc ←
        (if directory then
          requestRc (.moveAndRename diridFrom diridTo basenameFrom (some basenameTo) basenameFrom)
        else requestRc (.moveAndRename diridFrom diridTo basenameFrom none basenameTo))
      if rc = kFPObjectLocked ∨ rc = kFPAccessDenied then return -EACCES
      else if rc = kFPCantRename then return -EROFS
      else if rc = kFPObjectExists then do
        let _ ← requestRc (.delete diridTo basenameTo)
        let rc ← requestRc (.moveAndRename diridFrom diridTo basenameFrom none basenameTo)
        return -moveAgainErr rc
      else if rc = kFPObjectNotFound ∨ rc = kFPNoErr then return 0
      else return - EIO

end Afpfs

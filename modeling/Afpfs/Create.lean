import Afpfs.Lowlevel
import Afpfs.Translate

/-!
# Unix privileges and creating files

`get_unixprivs()`, `set_unixprivs()` and `afp_ml_creat()` of `lib/midlevel.c`, with the AppleDouble
hook of the latter.  They come before the other middle level operations because `ll_open()` creates
files through them.
-/

set_option autoImplicit false

namespace Afpfs

open Unicode Codepage Interaction Translate

/-! ## Unix privileges -/

/-- `get_unixprivs()`: its result and the structure. -/
def getUnixprivs (dirid : UInt32) (path : CString) (fp : AfpFileInfo) :
    AfpM (ℤ × AfpFileInfo) := do
  let (rc, fp) ← llGetDirectoryEntry path dirid kFPUnixPrivsBit kFPUnixPrivsBit fp
  return (-lookupErr rc, fp)

/-- `permissions & ~AFP_CHMOD_ALLOWED_BITS_22`: bits that AFP 2.2 cannot change. -/
def hasExtraBits (permissions : UInt32) : Bool :=
  permissions &&& ~~~ UInt32.ofNat AFP_CHMOD_ALLOWED_BITS_22 ≠ 0

/-- The error that `set_unixprivs()` makes of a result. -/
def setUnixprivsErr (rc : ℤ) : ℤ :=
  if rc = kFPAccessDenied then EPERM
  else if rc = kFPBitmapErr then ENOSYS
  else if rc = kFPObjectNotFound then ENOENT
  else if rc = 0 then 0
  else EIO

/-- `fp->basic.unixprivs.permissions=permissions`. -/
def AfpFileInfo.setPermissions (fp : AfpFileInfo) (permissions : UInt32) : AfpFileInfo :=
  { fp with unixprivs := { fp.unixprivs with permissions := permissions } }

/-- `set_unixprivs()`: its result and the structure. -/
def setUnixprivs (vol : Volume) (dirid : UInt32) (basename : CString) (fp : AfpFileInfo) :
    AfpM (ℤ × AfpFileInfo) := do
  let fp := { fp with unixprivs := { fp.unixprivs with uaPermissions := 0 } }
  -- `!vol->extra_flags & VOLUME_EXTRA_FLAGS_VOL_SUPPORTS_UNIX`, and `!` binds tighter
  if (if vol.extraFlags = 0 then 1 else 0) &&& VOLUME_EXTRA_FLAGS_VOL_SUPPORTS_UNIX ≠ 0 then
    return (0, fp)
  else do
    let netatalk : Bool := vol.server.serverType = .netatalk
    let flags ← chmodFlags
    let fp :=
      if !fp.isdir && hasExtraBits fp.unixprivs.permissions && netatalk && flags.known &&
          flags.broken then
        fp.setPermissions (fp.unixprivs.permissions &&& .ofNat AFP_CHMOD_ALLOWED_BITS_22)
      else fp
    let rc ←
      (if fp.isdir then requestRc (.setDirParms dirid basename kFPUnixPrivsBit fp)
      else requestRc (.setFileDirParms dirid basename kFPUnixPrivsBit fp))
    let flags ← chmodFlags
    -- see whether the server kept the bits, once for a volume
    if hasExtraBits fp.unixprivs.permissions && !flags.known && netatalk then do
      let fp2 ← uninitFileInfo
      let (rc2, fp2) ← getUnixprivs dirid basename fp2
      if rc2 ≠ 0 then return (rc2, fp)
      else do
        let flags ← chmodFlags
        setChmodFlags { flags with known := true }
        let flags ← chmodFlags
        if fp2.unixprivs.permissions &&& .ofNat TOCHECK_BITS =
            fp.unixprivs.permissions &&& .ofNat TOCHECK_BITS then do
          setChmodFlags { flags with broken := false }
          return (-setUnixprivsErr rc, fp)
        else do
          setChmodFlags { flags with broken := true }
          return (-EFAULT, fp)
    else return (-setUnixprivsErr rc, fp)

/-! ## AppleDouble -/

/-- `extra_translate()` on a path in memory: its result and `*newpath_p`. -/
def translated (volume : Volume) (path : CString) : AfpM (AfpMeta × CString) := do
  let beyond ← uninitPath
  let (kind, newpath) := extraTranslate volume path beyond
  return (kind, newpath.getD [])

/-- `appledouble_creat()`. -/
def appledoubleCreat (volume : Volume) (path : CString) : AfpM ℤ := do
  let (kind, _) ← translated volume path
  match kind with
  | .resource => return 1
  | .appledouble => return -EBADF
  | .serverIcon => return -EPERM
  | .finderinfo => return 1
  | _ => return 0

/-! ## Creating files -/

/-- The error that `afp_ml_creat()` and `afp_ml_symlink()` make of the result of the request to
create the file. -/
def createErr (rc : ℤ) : ℤ :=
  if rc = kFPAccessDenied then EACCES
  else if rc = kFPDiskFull then ENOSPC
  else if rc = kFPObjectExists then EEXIST
  else if rc = kFPObjectNotFound then ENOENT
  else if rc = kFPFileBusy ∨ rc = kFPVolLocked then EBUSY
  else if rc = kFPNoErr then 0
  else EIO

/-- `afp_ml_creat()`. -/
def afpMlCreat (volume : Volume) (path : CString) (mode : UInt32) : AfpM ℤ := do
  let (ret, convertedPath) ← ofOption
    (convertPathToAfp volume.server.pathEncoding path AFP_MAX_PATH)
  if ret ≠ 0 then return -EINVAL
  else if volumeIsReadonly volume then return -EACCES
  else do
    let ret ← appledoubleCreat volume path
    if ret < 0 then return ret
    else if ret = 1 then return 0
    else if invalidFilename volume.server convertedPath then return -ENAMETOOLONG
    else do
      let (_, basename, dirid) ← resolve convertedPath
      let rc ← requestRc (.createFile kFPSoftCreate dirid basename)
      if createErr rc ≠ 0 then return -createErr rc
      else if volume.has VOLUME_EXTRA_FLAGS_VOL_SUPPORTS_UNIX = false then return 0
      else do
        let fp ← uninitFileInfo
        let (ret, fp) ← getUnixprivs dirid basename fp
        -- the result of the request is returned, not that of the lookup
        if ret ≠ 0 then return rc
        else if fp.unixprivs.permissions = mode then return 0
        else do
          let fp := { fp with
            unixprivs := { fp.unixprivs with uaPermissions := 0, permissions := mode }
            isdir := false }
          let (rc, _) ← setUnixprivs volume dirid basename fp
          if rc = kFPAccessDenied then return -EPERM
          else if rc = kFPObjectNotFound then return -ENOENT
          else if rc = 0 then return 0
          else return - EIO

end Afpfs

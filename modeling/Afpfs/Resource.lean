import Afpfs.Open
import Afpfs.PathBlock

/-!
# AppleDouble hooks

`lib/resource.c`: what the middle level operations do first.  Each hook returns 0 if the path is an
ordinary one, a positive value if it has done the operation, and a negative value if that failed.

`newpath` is the caller's to free; that is left out.  The hooks that refuse every virtual path are
`refuseVirtual`.
-/

set_option autoImplicit false

namespace Afpfs

open Unicode Codepage Interaction Translate

/-! ## Comments -/

/-- `ensure_dt_opened()`. -/
def ensureDtOpened : AfpM ℤ := do
  let refnum ← dtrefnum
  if 0 < refnum then return 0 else openDesktop

/-- `get_comment_size()`. -/
def getCommentSize (basename : CString) (did : UInt32) : AfpM ℤ := do
  let refnum ← dtrefnum
  let opened ← (if refnum = 0 then openDesktop else pure 0)
  if opened < 0 then return - EIO
  else do
    let reply ← afpGetcomment did basename 1024
    if reply.rc = kFPAccessDenied then return -EACCES
    else if reply.rc = kFPMiscErr ∨ reply.rc = kFPParamErr then return - EIO
    else if reply.rc = kFPItemNotFound ∨ reply.rc = kFPObjectNotFound then return -ENOENT
    else if reply.rc = kFPNoErr then return (reply.stored.getD []).length
    else return reply.rc

/-- `afp_addcomment()`: its result and `*size`.  `copy_to_pascal()` puts the comment into the message,
behind its length. -/
def afpAddcomment (did : UInt32) (pathname comment : CString) : AfpM (ℤ × ℕ) := do
  let rc ← requestRc (.addComment did pathname (PathBlock.copyToPascal comment).1.tail)
  return (rc, comment.length)

/-! ## Refusals -/

/-- No virtual path can be operated on. -/
def refuseVirtual (volume : Volume) (path : CString) : AfpM ℤ := do
  let (kind, _) ← translated volume path
  if kind = .none then return 0 else return -EPERM

/-- `appledouble_chmod()`. -/
def appledoubleChmod (volume : Volume) (path : CString) : AfpM ℤ := refuseVirtual volume path

/-- `appledouble_unlink()`. -/
def appledoubleUnlink (volume : Volume) (path : CString) : AfpM ℤ := refuseVirtual volume path

/-- `appledouble_mkdir()`. -/
def appledoubleMkdir (volume : Volume) (path : CString) : AfpM ℤ := refuseVirtual volume path

/-- `appledouble_rmdir()`. -/
def appledoubleRmdir (volume : Volume) (path : CString) : AfpM ℤ := refuseVirtual volume path

/-- `appledouble_chown()`. -/
def appledoubleChown (volume : Volume) (path : CString) : AfpM ℤ := refuseVirtual volume path

/-- `appledouble_utime()`. -/
def appledoubleUtime (volume : Volume) (path : CString) : AfpM ℤ := refuseVirtual volume path

/-- `appledouble_symlink()`, which looks at the text of the link only. -/
def appledoubleSymlink (vol : Volume) (path1 _path2 : CString) : AfpM ℤ := refuseVirtual vol path1

/-! ## Open files -/

/-- `appledouble_close()`. -/
def appledoubleClose (fp : AfpFileInfo) : AfpM ℤ :=
  match fp.resource with
  | .resource => do
    let rc ← requestRc (.closeFork fp.forkid)
    if rc = kFPNoErr then return 0 else return - EIO
  | .appledouble => return -EBADF
  | .serverIcon => return 1
  | _ => return 0

/-- `memcpy(buf+offset,bytes,..)`.  A list that becomes longer has been overrun. -/
def patch (buf : List UInt8) (offset : ℕ) (bytes : List UInt8) : List UInt8 :=
  if bytes = [] then buf
  else (buf ++ List.replicate (offset - buf.length) 0).take offset ++ bytes ++
    buf.drop (offset + bytes.length)

/-- `appledouble_write()`: its result, `*totalwritten` and the structure.  `towrite` is an `int`, and a
`memcpy()` of a negative number of bytes has no defined behaviour. -/
def appledoubleWrite (volume : Volume) (fp : AfpFileInfo) (data : List UInt8) (offset : ℕ)
    (totalwritten fuel : ℕ) : AfpM (ℤ × ℕ × AfpFileInfo) :=
  match fp.resource with
  | .resource => do
    let (ret, totalwritten) ← llWrite volume data offset fp.forkid fuel
    return (ret, totalwritten, fp)
  | .appledouble => return (-EBADF, totalwritten, fp)
  | .finderinfo =>
    if 32 ≤ offset then return (-EINVAL, totalwritten, fp)
    else do
      let towrite := min (UInt32.ofNat data.length).toInt32.toInt (32 - offset)
      let fp2 ← uninitFileInfo
      let (ret, _) ← llGetDirectoryEntry fp.basename fp.did kFPFinderInfoBit kFPFinderInfoBit fp2
      if ret < 0 then return (ret, totalwritten, fp)
      else if towrite < 0 then .stuck
      else do
        -- into the finder info of the open file, not into the one just read
        let fp := { fp with finderinfo := patch fp.finderinfo offset (data.take towrite.toNat) }
        let rc ← requestRc (.setFileDirParms fp.did fp.basename kFPFinderInfoBit fp)
        if rc = kFPAccessDenied then return (-EACCES, totalwritten, fp)
        else if rc = kFPObjectNotFound then return (-ENOENT, totalwritten, fp)
        else return (1, towrite.toNat, fp)
  | .comment => do
    -- the string ends where there happens to be a zero
    let beyond ← uninitPath
    let (rc, totalwritten) ←
      afpAddcomment fp.did fp.basename ((data ++ beyond).takeWhile (· ≠ 0))
    if rc = kFPAccessDenied then return (-EACCES, totalwritten, fp)
    else if rc = kFPObjectNotFound then return (-ENOENT, totalwritten, fp)
    else if rc = kFPNoErr then return (1, data.length, fp)
    else return (- EIO, totalwritten, fp)
  | .serverIcon => return (-EPERM, totalwritten, fp)
  | .none => return (0, totalwritten, fp)

/-- What `appledouble_read()` leaves: its result, the buffer, `*amount_read`, `*eof` and the
structure. -/
structure ReadResult where
  ret : ℤ
  buf : List UInt8
  amountRead : ℕ
  eof : Bool
  fp : AfpFileInfo

/-- The comment case of `appledouble_read()`, which the case of the Finder info runs into. -/
def readComment (result : ReadResult) (size : ℕ) : AfpM ReadResult :=
  if result.fp.eof then return { result with ret := 1 }
  else do
    let reply ← afpGetcomment result.fp.did result.fp.basename (.ofNat size)
    if reply.rc = kFPAccessDenied then return { result with ret := -EACCES }
    else if reply.rc = kFPMiscErr ∨ reply.rc = kFPParamErr then return { result with ret := - EIO }
    else if reply.rc = kFPItemNotFound ∨ reply.rc = kFPObjectNotFound then
      return { result with ret := -ENOENT }
    else if reply.rc = kFPNoErr then
      let comment := reply.stored.getD []
      return {
        ret := 1
        buf := patch result.buf 0 comment
        amountRead := comment.length
        eof := true
        fp := { result.fp with eof := true } }
    else return result

/-- `appledouble_read()` into `buf`, which has the size asked for. -/
def appledoubleRead (volume : Volume) (fp : AfpFileInfo) (buf : List UInt8) (offset : ℕ) :
    AfpM ReadResult := do
  let garbage ← uninitInt
  let start : ReadResult :=
    { ret := garbage.toInt32.toInt, buf := buf, amountRead := 0, eof := false, fp := fp }
  match fp.resource with
  | .resource => do
    let (ret, bytes, eof) ← llRead volume buf.length offset fp.forkid
    return { start with ret := ret, buf := patch buf 0 bytes, eof := eof }
  | .appledouble => return { start with ret := -EBADF }
  | .finderinfo =>
    if 32 < offset then return { start with ret := -EFAULT }
    else do
      let (ret, fp) ← llGetDirectoryEntry fp.basename fp.did kFPFinderInfoBit kFPFinderInfoBit fp
      if ret < 0 then return { start with ret := ret, fp := fp }
      else do
        let tocopy := min buf.length (32 - offset)
        readComment {
          ret := ret
          buf := patch buf offset (fp.finderinfo.take tocopy)
          amountRead := tocopy
          eof := offset + tocopy = 32
          fp := fp } buf.length
  | .comment => readComment start buf.length
  | .serverIcon =>
    if 256 < offset then return { start with ret := -EFAULT }
    else do
      let tocopy := min buf.length (256 - offset)
      return {
        ret := 1
        buf := patch buf offset (volume.server.icon.take tocopy)
        amountRead := tocopy
        eof := true
        fp := { fp with eof := true } }
  | .none => return { start with ret := 0 }

/-- `appledouble_truncate()`.  Its call of `remove_opened_fork()` passes a structure where a pointer
is expected, and what happens then is undefined. -/
def appledoubleTruncate (volume : Volume) (path : CString) : AfpM ℤ := do
  let (kind, newpath) ← translated volume path
  match kind with
  | .none => return 0
  | .resource => do
    let fp ← uninitFileInfo
    let (_, basename, dirid) ← resolve newpath
    let reply ← afpOpenfork true dirid O_WRONLY basename
    let fp := { fp with forkid := reply.stored.getD fp.forkid }
    let _ ← llZeroFile volume fp.forkid false
    let _ ← requestRc (.closeFork fp.forkid)
    .stuck
  | .appledouble => return -EISDIR
  | .finderinfo => return 1
  | .comment => return 1
  | .serverIcon => return -EPERM

/-! ## Attributes and listings -/

/-- `appledouble_getattr()`: its result and `*stbuf`, which is zero before. -/
def appledoubleGetattr (volume : Volume) (path : CString) : AfpM (ℤ × Stat) := do
  let (kind, newpath) ← translated volume path
  match kind with
  | .none => return (0, .zero)
  | .resource => do
    let (_, stbuf) ← llGetattr volume newpath true
    return (1, stbuf)
  | .appledouble => return (1, { Stat.zero with stMode := 0o700 ||| S_IFDIR })
  | .finderinfo => do
    let (_, stbuf) ← llGetattr volume newpath false
    return (1, { stbuf with stMode := stbuf.stMode ||| S_IFREG, stSize := 32 })
  | .comment => do
    let (ret, stbuf) ← llGetattr volume newpath false
    if ret < 0 then return (ret, stbuf)
    else do
      let (ret, basename, did) ← resolve newpath
      if ret < 0 then return (ret, stbuf)
      else do
        let size ← getCommentSize basename did
        if size < 0 then return (size, stbuf)
        else return (1, { stbuf with
          stMode := stbuf.stMode ||| S_IFREG, stSize := size.toNat })
  | .serverIcon => return (1, { Stat.zero with stMode := S_IFREG ||| 0o444, stSize := 256 })

/-- `add_fp()`: the copy that it puts in front of the new chain. -/
def addFp (fp : AfpFileInfo) (suffix : CString) (size : UInt16) : AfpFileInfo :=
  { fp with
    name := fp.name ++ suffix
    resourcesize := size
    unixprivs := { fp.unixprivs with
      permissions := fp.unixprivs.permissions ||| .ofNat S_IFREG } }

/-- The entry is a file with a resource fork; the others are removed. -/
def keepsEntry (fp : AfpFileInfo) : Bool :=
  fp.unixprivs.permissions &&& .ofNat S_IFREG ≠ 0 && fp.resourcesize ≠ 0

/-- The entry for the comment of `fp`, if it has one. -/
def addComment (fp : AfpFileInfo) (newchain : List AfpFileInfo) : AfpM (List AfpFileInfo) := do
  let size ← getCommentSize fp.name fp.did
  if 0 < size then return addFp fp commentString 32 :: newchain else return newchain

/-- The loop of `appledouble_readdir()`: what `*base` holds of the entries visited, and the new
chain.  `remove_fp()` never advances `prev`, so the removal of an entry makes the list start
behind it.  An entry is read after it was removed and freed. -/
def listLoop : List AfpFileInfo → List AfpFileInfo → List AfpFileInfo →
    AfpM (List AfpFileInfo × List AfpFileInfo)
  | [], kept, newchain => return (kept, newchain)
  | fp :: rest, kept, newchain => do
    let newchain := addFp fp finderinfoString 32 :: newchain
    let opened ← ensureDtOpened
    let newchain ← (if opened = 0 then addComment fp newchain else pure newchain)
    listLoop rest (if keepsEntry fp then kept ++ [fp] else []) newchain

/-- `appledouble_readdir()`: its result and the list stored in `*base`, if one is stored. -/
def appledoubleReaddir (volume : Volume) (path : CString) (fuel : ℕ) :
    AfpM (ℤ × Option (List AfpFileInfo)) := do
  let (kind, newpath) ← translated volume path
  match kind with
  | .appledouble => do
    let (_, base) ← llReaddir volume newpath true fuel
    let (kept, newchain) ← listLoop (base.getD []) [] []
    -- the chain is appended to the last entry, and lost with it
    return (1, base.map fun _ => if kept = [] then [] else kept ++ newchain)
  | .resource => return (-ENOTDIR, none)
  | .serverIcon => return (-ENOTDIR, none)
  | .comment => return (-ENOTDIR, none)
  | _ => return (0, none)

end Afpfs

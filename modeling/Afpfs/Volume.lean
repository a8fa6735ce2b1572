import Afpfs.Codepage
import Afpfs.Lib.Interaction
import Afpfs.Lib.Scan
import Afpfs.Protocol

/-!
# Volumes, requests and effects

The functions of `lib/` that work on a mounted volume send AFP requests and wait for the reply,
and use what the threads of a volume share: the cache of directory ids, the list of open forks,
two flags about `chmod`, the reference number of the desktop database.  `Effect` lists these
interactions and a function is a program over them (`AfpM`), so that one definition can be run
against a server, against any replies at all, or beside other threads.

A `Volume` holds what does not change while the volume is mounted.  The two bits
`VOL_CHMOD_KNOWN` and `VOL_CHMOD_BROKEN` are the only part of `extra_flags` that these functions
write; they are behind an effect and not in `Volume.extraFlags`.

An automatic variable that is read before it is written has whatever value it has: such a value is
the answer to an effect of its own.
-/

set_option autoImplicit false

namespace Afpfs

open Unicode Codepage Interaction

/-! ## Data -/

/-- The separator of path components. -/
def slash : UInt8 := 0x2f

/-- `struct afp_unixprivs`. -/
structure AfpUnixprivs where
  uid : UInt32
  gid : UInt32
  permissions : UInt32
  uaPermissions : UInt32
  deriving DecidableEq

/-- `struct afp_file_info`, with the fields of its `basic` part inlined and without its links. -/
structure AfpFileInfo where
  name : CString
  creationDate : UInt32
  modificationDate : UInt32
  unixprivs : AfpUnixprivs
  size : UInt64
  backupDate : UInt32
  attributes : UInt16
  did : UInt32
  fileid : UInt32
  offspring : UInt16
  sync : Bool
  finderinfo : List UInt8
  basename : CString
  accessrights : UInt32
  isdir : Bool
  resourcesize : UInt16
  resource : AfpMeta
  forkid : UInt16
  icon : Bool
  eof : Bool
  deriving DecidableEq

/-- An `afp_file_info` after `memset()` to zero. -/
def AfpFileInfo.zero : AfpFileInfo where
  name := []
  creationDate := 0
  modificationDate := 0
  unixprivs := ⟨0, 0, 0, 0⟩
  size := 0
  backupDate := 0
  attributes := 0
  did := 0
  fileid := 0
  offspring := 0
  sync := false
  finderinfo := List.replicate 32 0
  basename := []
  accessrights := 0
  isdir := false
  resourcesize := 0
  resource := .none
  forkid := 0
  icon := false
  eof := false

/-- What the functions read of `struct afp_server`. -/
structure AfpServer where
  avNumber : ℕ
  pathEncoding : PathEncoding
  serverType : ServerType
  txQuantum : UInt32
  rxQuantum : UInt32
  connectTime : UInt32
  icon : List UInt8
  serverUid : UInt32
  serverGid : UInt32
  pwUid : UInt32
  pwGid : UInt32

/-- What the functions read of `struct afp_volume`. -/
structure Volume where
  server : AfpServer
  attributes : ℕ
  extraFlags : ℕ
  volumeName : CString
  mapping : AfpMapping

/-- A volume without flags on a server for AFP 3.1, the one of the examples. -/
def Volume.plain : Volume where
  server := {
    avNumber := 31
    pathEncoding := .kFPUTF8Name
    serverType := .unknown
    txQuantum := 4096
    rxQuantum := 4096
    connectTime := 0
    icon := []
    serverUid := 0
    serverGid := 0
    pwUid := 0
    pwGid := 0 }
  attributes := 0
  extraFlags := 0
  volumeName := []
  mapping := .common

/-- A bit of `extra_flags` is set. -/
def Volume.has (volume : Volume) (flag : ℕ) : Bool :=
  volume.extraFlags &&& flag ≠ 0

/-- `volume_is_readonly()`. -/
def volumeIsReadonly (volume : Volume) : Bool :=
  volume.attributes &&& kReadOnly ≠ 0 || volume.has VOLUME_EXTRA_FLAGS_READONLY

/-- The bits of `extra_flags` that change while the volume is mounted. -/
structure ChmodFlags where
  known : Bool
  broken : Bool
  deriving DecidableEq

/-! ## Requests -/

/-- The AFP requests, with the arguments that the function sending them is given. -/
inductive Request where
  | getFileDirParms (did : UInt32) (filebitmap dirbitmap : ℕ) (pathname : CString)
  | setFileParms (dirid : UInt32) (pathname : CString) (bitmap : ℕ) (fp : AfpFileInfo)
  | setDirParms (dirid : UInt32) (pathname : CString) (bitmap : ℕ) (fp : AfpFileInfo)
  | setFileDirParms (dirid : UInt32) (pathname : CString) (bitmap : ℕ) (fp : AfpFileInfo)
  | delete (dirid : UInt32) (pathname : CString)
  | createFile (flag : ℕ) (did : UInt32) (pathname : CString)
  | createDir (dirid : UInt32) (pathname : CString)
  | moveAndRename (srcDid dstDid : UInt32) (srcPath : CString) (dstPath : Option CString)
      (newName : CString)
  | openFork (resourceFork : Bool) (dirid : UInt32) (accessmode : ℕ) (filename : CString)
  | closeFork (forkid : UInt16)
  | setForkParms (forkid : UInt16) (bitmap : ℕ) (len : UInt64)
  | byteRangeLock (unlock : Bool) (forkid : UInt16) (offset len : UInt32)
  | byteRangeLockExt (unlock : Bool) (forkid : UInt16) (offset len : UInt64)
  | read (forkid : UInt16) (offset count : UInt32) (maxsize : UInt32)
  | readExt (forkid : UInt16) (offset count : UInt64) (maxsize : UInt32)
  | write (forkid : UInt16) (offset reqcount : UInt32) (data : List UInt8)
  | writeExt (forkid : UInt16) (offset reqcount : UInt64) (data : List UInt8)
  | enumerate (dirid : UInt32) (filebitmap dirbitmap : ℕ) (reqcount startindex : UInt16)
      (pathname : CString)
  | enumerateExt2 (dirid : UInt32) (filebitmap dirbitmap : ℕ) (reqcount : UInt16)
      (startindex : UInt64) (pathname : CString)
  | openDT
  | getComment (did : UInt32) (pathname : CString) (maxsize : UInt32)
  | addComment (did : UInt32) (pathname : CString) (comment : CString)

/-- The AFP function that a request calls. -/
def Request.command : Request → AFPFunction
  | .getFileDirParms .. => .afpGetFileDirParms
  | .setFileParms .. => .afpSetFileParms
  | .setDirParms .. => .afpSetDirParms
  | .setFileDirParms .. => .afpSetFileDirParms
  | .delete .. => .afpDelete
  | .createFile .. => .afpCreateFile
  | .createDir .. => .afpCreateDir
  | .moveAndRename .. => .afpMoveAndRename
  | .openFork .. => .afpOpenFork
  | .closeFork .. => .afpCloseFork
  | .setForkParms .. => .afpSetForkParms
  | .byteRangeLock .. => .afpByteRangeLock
  | .byteRangeLockExt .. => .afpByteRangeLockExt
  | .read .. => .afpRead
  | .readExt .. => .afpReadExt
  | .write .. => .afpWrite
  | .writeExt .. => .afpWriteExt
  | .enumerate .. => .afpEnumerate
  | .enumerateExt2 .. => .afpEnumerateExt2
  | .openDT => .afpOpenDT
  | .getComment .. => .afpGetComment
  | .addComment .. => .afpAddComment

/-- What the reply handler of a request stores for its caller. -/
def Request.Payload : Request → Type
  | .getFileDirParms .. => AfpFileInfo
  | .openFork .. => UInt16
  | .read .. => List UInt8
  | .readExt .. => List UInt8
  | .enumerate .. => List AfpFileInfo
  | .enumerateExt2 .. => List AfpFileInfo
  | .openDT => UInt16
  | .getComment .. => List UInt8
  | _ => Unit

/-- The outcome of a request: what `dsi_send()` returns, and what the reply handler stored, if it
stored anything. -/
structure Reply (α : Type) where
  rc : ℤ
  stored : Option α

/-! ## Effects -/

/-- The address of a `struct afp_file_info`. -/
abbrev Handle := ℕ

/-- The interactions of a function with the server, the other threads and the system. -/
inductive Effect where
  /-- Send a request and wait for its outcome. -/
  | request (r : Request)
  /-- `find_dirid_by_fullname()`. -/
  | findDirid (path : CString)
  /-- `add_did_cache_entry()`. -/
  | addDid (did : UInt32) (path : CString)
  /-- `remove_did_entry()`. -/
  | removeDid (path : CString)
  /-- Read `VOL_CHMOD_KNOWN` and `VOL_CHMOD_BROKEN`. -/
  | chmodFlags
  /-- Write them. -/
  | setChmodFlags (flags : ChmodFlags)
  /-- Read `dtrefnum`. -/
  | dtrefnum
  /-- Write it. -/
  | setDtrefnum (refnum : UInt16)
  /-- `malloc()` of an `afp_file_info`, which can fail. -/
  | malloc
  /-- `free()` of it. -/
  | free (fp : Handle)
  /-- The address of an automatic `afp_file_info`. -/
  | automatic
  /-- `add_opened_fork()`. -/
  | addOpenedFork (fp : Handle) (forkid : UInt16)
  /-- `remove_opened_fork()`. -/
  | removeOpenedFork (fp : Handle)
  /-- `gettimeofday()`, the seconds. -/
  | gettimeofday
  /-- `sleep(1)`. -/
  | sleep
  /-- `getgid()`. -/
  | getgid
  /-- `geteuid()`. -/
  | geteuid
  /-- The value of an automatic variable that was not written. -/
  | uninitInt
  /-- The string in memory that was not written: an automatic path buffer, or what is behind the end
  of another string. -/
  | uninitPath
  /-- The contents of an automatic `afp_file_info` that was not written. -/
  | uninitFileInfo

/-- The answer to an effect. -/
def Effect.Answer : Effect → Type
  | .request r => Reply r.Payload
  | .findDirid _ => UInt32
  | .chmodFlags => ChmodFlags
  | .dtrefnum => UInt16
  | .malloc => Option Handle
  | .automatic => Handle
  | .gettimeofday => UInt32
  | .getgid => UInt32
  | .geteuid => UInt32
  | .uninitInt => UInt32
  | .uninitPath => CString
  | .uninitFileInfo => AfpFileInfo
  | _ => Unit

/-- The answer of a system in which nothing is stored, every request fails and all else is zero. -/
def Effect.zeroAnswer : (e : Effect) → e.Answer
  | .request _ => ⟨-1, none⟩
  | .findDirid _ => (0 : UInt32)
  | .addDid _ _ => ()
  | .removeDid _ => ()
  | .chmodFlags => ⟨false, false⟩
  | .setChmodFlags _ => ()
  | .dtrefnum => (0 : UInt16)
  | .setDtrefnum _ => ()
  | .malloc => (none : Option Handle)
  | .free _ => ()
  | .automatic => (0 : ℕ)
  | .addOpenedFork _ _ => ()
  | .removeOpenedFork _ => ()
  | .gettimeofday => (0 : UInt32)
  | .sleep => ()
  | .getgid => (0 : UInt32)
  | .geteuid => (0 : UInt32)
  | .uninitInt => (0 : UInt32)
  | .uninitPath => ([] : CString)
  | .uninitFileInfo => AfpFileInfo.zero

/-- A function that works on a volume. -/
abbrev AfpM (α : Type) := Prog Effect Effect.Answer α

/-- Perform one effect. -/
def perform (e : Effect) : AfpM e.Answer := .act e .done

/-- Send a request. -/
def request (r : Request) : AfpM (Reply r.Payload) := perform (.request r)

/-- `find_dirid_by_fullname()`. -/
def findDirid (path : CString) : AfpM UInt32 := perform (.findDirid path)

/-- `add_did_cache_entry()`. -/
def addDid (did : UInt32) (path : CString) : AfpM Unit := perform (.addDid did path)

/-- `remove_did_entry()`. -/
def removeDid (path : CString) : AfpM Unit := perform (.removeDid path)

/-- The two flags about `chmod`. -/
def chmodFlags : AfpM ChmodFlags := perform .chmodFlags

/-- Write them. -/
def setChmodFlags (flags : ChmodFlags) : AfpM Unit := perform (.setChmodFlags flags)

/-- `dtrefnum` of the volume. -/
def dtrefnum : AfpM UInt16 := perform .dtrefnum

/-- Write it. -/
def setDtrefnum (refnum : UInt16) : AfpM Unit := perform (.setDtrefnum refnum)

/-- `malloc()` of an `afp_file_info`. -/
def malloc : AfpM (Option Handle) := perform .malloc

/-- `free()` of it. -/
def free (fp : Handle) : AfpM Unit := perform (.free fp)

/-- The address of an automatic `afp_file_info`. -/
def automatic : AfpM Handle := perform .automatic

/-- `add_opened_fork()`. -/
def addOpenedFork (fp : Handle) (forkid : UInt16) : AfpM Unit := perform (.addOpenedFork fp forkid)

/-- `remove_opened_fork()`. -/
def removeOpenedFork (fp : Handle) : AfpM Unit := perform (.removeOpenedFork fp)

/-- `gettimeofday()`, the seconds. -/
def gettimeofday : AfpM UInt32 := perform .gettimeofday

/-- `getgid()`. -/
def getgid : AfpM UInt32 := perform .getgid

/-- `geteuid()`. -/
def geteuid : AfpM UInt32 := perform .geteuid

/-- `sleep(1)`. -/
def sleep : AfpM Unit := perform .sleep

/-- An `unsigned int` that was not written. -/
def uninitInt : AfpM UInt32 := perform .uninitInt

/-- A path buffer that was not written. -/
def uninitPath : AfpM CString := perform .uninitPath

/-- An `afp_file_info` that was not written. -/
def uninitFileInfo : AfpM AfpFileInfo := perform .uninitFileInfo

/-- Send a request of which only the result code matters. -/
def requestRc (r : Request) : AfpM ℤ := do
  let reply ← request r
  return reply.rc

/-- `afp_getfiledirparms()`. -/
def afpGetfiledirparms (did : UInt32) (filebitmap dirbitmap : ℕ) (pathname : CString) :
    AfpM (Reply AfpFileInfo) :=
  request (.getFileDirParms did filebitmap dirbitmap pathname)

/-- `afp_openfork()`. -/
def afpOpenfork (resourceFork : Bool) (dirid : UInt32) (accessmode : ℕ) (filename : CString) :
    AfpM (Reply UInt16) :=
  request (.openFork resourceFork dirid accessmode filename)

/-- `afp_read()`. -/
def afpRead (forkid : UInt16) (offset count maxsize : UInt32) : AfpM (Reply (List UInt8)) :=
  request (.read forkid offset count maxsize)

/-- `afp_readext()`. -/
def afpReadext (forkid : UInt16) (offset count : UInt64) (maxsize : UInt32) :
    AfpM (Reply (List UInt8)) :=
  request (.readExt forkid offset count maxsize)

/-- `afp_enumerate()`. -/
def afpEnumerate (dirid : UInt32) (filebitmap dirbitmap : ℕ) (reqcount startindex : UInt16)
    (pathname : CString) : AfpM (Reply (List AfpFileInfo)) :=
  request (.enumerate dirid filebitmap dirbitmap reqcount startindex pathname)

/-- `afp_enumerateext2()`. -/
def afpEnumerateext2 (dirid : UInt32) (filebitmap dirbitmap : ℕ) (reqcount : UInt16)
    (startindex : UInt64) (pathname : CString) : AfpM (Reply (List AfpFileInfo)) :=
  request (.enumerateExt2 dirid filebitmap dirbitmap reqcount startindex pathname)

/-- `afp_opendt()`. -/
def afpOpendt : AfpM (Reply UInt16) := request .openDT

/-- `afp_getcomment()`. -/
def afpGetcomment (did : UInt32) (pathname : CString) (maxsize : UInt32) :
    AfpM (Reply (List UInt8)) :=
  request (.getComment did pathname maxsize)

/-- A conversion that overruns its destination has no defined behaviour. -/
def ofOption {α : Type} : Option α → AfpM α
  | some a => pure a
  | none => .stuck

theorem ofOption_some_bind {α β : Type} (a : α) (f : α → AfpM β) : ofOption (some a) >>= f = f a :=
  rfl

theorem ofOption_none_bind {α β : Type} (f : α → AfpM β) : ofOption none >>= f = .stuck := rfl

/-! ## File names -/

/-- The loop of `invalid_filename()`, from the position `p` on. -/
def invalidFrom (maxlen : ℕ) (filename : CString) (p : ℕ) : Bool :=
  match _h : Scan.strchr filename p slash with
  | none => maxlen < filename.length - p
  | some q =>
    if p + maxlen < q then true
    else if filename.length < q + 1 then false
    else invalidFrom maxlen filename (q + 1)
  termination_by filename.length - p
  decreasing_by
    have hbounds := Scan.strchr_bounds _h
    omega

/-- `invalid_filename()`. -/
def invalidFilename (server : AfpServer) (filename : CString) : Bool :=
  if filename = [] then false
  else if filename = [slash] then false
  else
    let maxlen :=
      if server.avNumber < 30 then 31
      else if server.pathEncoding = .kFPUTF8Name then 1024
      else 255
    invalidFrom maxlen filename 1

/-! ## User and group ids -/

/-- `translate_uidgid_to_server()`: its result and the two ids. -/
def translateUidgidToServer (volume : Volume) (uid gid : UInt32) : ℤ × UInt32 × UInt32 :=
  match volume.mapping with
  | .common => (0, uid, gid)
  | .loginids => (0, volume.server.serverUid, volume.server.serverGid)
  | _ => (-1, uid, gid)

/-- `translate_uidgid_to_client()`: its result and the two ids. -/
def translateUidgidToClient (volume : Volume) (uid gid : UInt32) : ℤ × UInt32 × UInt32 :=
  match volume.mapping with
  | .common => (0, uid, gid)
  | .loginids => (0, volume.server.pwUid, volume.server.pwGid)
  | _ => (-1, uid, gid)

end Afpfs

import Mathlib.Data.Int.Notation
import Mathlib.Data.Nat.Notation

/-!
# Constants of the protocol and of the C library

The constants of `include/afp_protocol.h`, `include/afp.h`, `lib/resource.h` and the system
headers that the modelled functions use, under their names there.  Bit masks are natural numbers;
results and error numbers are integers, since a function returns one or the negative of the other.
-/

set_option autoImplicit false

namespace Afpfs

/-- The maximum length of any path description, the terminator included. -/
def AFP_MAX_PATH : ℕ := 768

/-- The directory id of the root of a volume. -/
def AFP_ROOT_DID : UInt32 := 2

/-- The maximum size of a file for AFP 2. -/
def AFP_MAX_AFP2_FILESIZE : ℕ := 4294967296

/-! ## AFP result codes -/

def kFPNoErr : ℤ := 0
def kFPAccessDenied : ℤ := -5000
def kFPAuthContinue : ℤ := -5001
def kFPBadUAM : ℤ := -5002
def kFPBadVersNum : ℤ := -5003
def kFPBitmapErr : ℤ := -5004
def kFPDenyConflict : ℤ := -5006
def kFPDirNotEmpty : ℤ := -5007
def kFPDiskFull : ℤ := -5008
def kFPEOFErr : ℤ := -5009
def kFPFileBusy : ℤ := -5010
def kFPFlatVol : ℤ := -5011
def kFPItemNotFound : ℤ := -5012
def kFPLockErr : ℤ := -5013
def kFPMiscErr : ℤ := -5014
def kFPNoMoreLocks : ℤ := -5015
def kFPNoServer : ℤ := -5016
def kFPObjectExists : ℤ := -5017
def kFPObjectNotFound : ℤ := -5018
def kFPParamErr : ℤ := -5019
def kFPUserNotAuth : ℤ := -5023
def kFPCallNotSupported : ℤ := -5024
def kFPObjectTypeErr : ℤ := -5025
def kFPTooManyFilesOpen : ℤ := -5026
def kFPServerGoingDown : ℤ := -5027
def kFPCantRename : ℤ := -5028
def kFPDirNotFound : ℤ := -5029
def kFPVolLocked : ℤ := -5031
def kFPObjectLocked : ℤ := -5032
def kFPPwdExpiredErr : ℤ := -5042
def kFPPwdNeedsChangeErr : ℤ := -5045

/-! ## Error numbers -/

def EPERM : ℤ := 1
def ENOENT : ℤ := 2
def EIO : ℤ := 5
def EBADF : ℤ := 9
def EACCES : ℤ := 13
def EFAULT : ℤ := 14
def EBUSY : ℤ := 16
def EEXIST : ℤ := 17
def ENOTDIR : ℤ := 20
def EISDIR : ℤ := 21
def EINVAL : ℤ := 22
def EMFILE : ℤ := 24
def EFBIG : ℤ := 27
def ENOSPC : ℤ := 28
def EROFS : ℤ := 30
def ENAMETOOLONG : ℤ := 36
def ENOSYS : ℤ := 38
def ENOTEMPTY : ℤ := 39
def ENONET : ℤ := 64
def EOVERFLOW : ℤ := 75
def ENOPROTOOPT : ℤ := 92
def EPROTONOSUPPORT : ℤ := 93
def ETIMEDOUT : ℤ := 110

/-! ## Flags of `open()` -/

def O_RDONLY : ℕ := 0o0
def O_WRONLY : ℕ := 0o1
def O_RDWR : ℕ := 0o2
def O_CREAT : ℕ := 0o100
def O_EXCL : ℕ := 0o200
def O_TRUNC : ℕ := 0o1000
def O_APPEND : ℕ := 0o2000
def O_DIRECT : ℕ := 0o40000
def O_LARGEFILE : ℕ := 0o100000
def O_SYNC : ℕ := 0o4010000

/-! ## File modes -/

def S_IFDIR : ℕ := 0o040000
def S_IFREG : ℕ := 0o100000

/-- The permission bits. -/
def TOCHECK_BITS : ℕ := 0o777

/-- The mode bits that AFP 2.2 can change. -/
def AFP_CHMOD_ALLOWED_BITS_22 : ℕ := 0o666 ||| S_IFREG

/-! ## Bitmaps of file and directory parameters -/

def kFPAttributeBit : ℕ := 0x1
def kFPParentDirIDBit : ℕ := 0x2
def kFPCreateDateBit : ℕ := 0x4
def kFPModDateBit : ℕ := 0x8
def kFPBackupDateBit : ℕ := 0x10
def kFPFinderInfoBit : ℕ := 0x20
def kFPLongNameBit : ℕ := 0x40
def kFPShortNameBit : ℕ := 0x80
def kFPNodeIDBit : ℕ := 0x100
def kFPOffspringCountBit : ℕ := 0x0200
def kFPOwnerIDBit : ℕ := 0x0400
def kFPGroupIDBit : ℕ := 0x0800
def kFPAccessRightsBit : ℕ := 0x1000
def kFPUTF8NameBit : ℕ := 0x2000
def kFPUnixPrivsBit : ℕ := 0x8000
def kFPDataForkLenBit : ℕ := 0x0200
def kFPRsrcForkLenBit : ℕ := 0x0400
def kFPExtDataForkLenBit : ℕ := 0x0800
def kFPLaunchLimitBit : ℕ := 0x1000
def kFPExtRsrcForkLenBit : ℕ := 0x4000

/-! ## Volumes, forks and files -/

/-- Volume attributes. -/
def kReadOnly : ℕ := 0x01
def kSupportsUTF8Names : ℕ := 0x40

/-- The `extra_flags` of a volume. -/
def VOLUME_EXTRA_FLAGS_SHOW_APPLEDOUBLE : ℕ := 0x4
def VOLUME_EXTRA_FLAGS_VOL_SUPPORTS_UNIX : ℕ := 0x8
def VOLUME_EXTRA_FLAGS_NO_LOCKING : ℕ := 0x10
def VOLUME_EXTRA_FLAGS_IGNORE_UNIXPRIVS : ℕ := 0x20
def VOLUME_EXTRA_FLAGS_READONLY : ℕ := 0x40

/-- File creation constants. -/
def kFPSoftCreate : ℕ := 0
def kFPHardCreate : ℕ := 0x80

/-- Access modes of a fork. -/
def AFP_OPENFORK_ALLOWREAD : ℕ := 1
def AFP_OPENFORK_ALLOWWRITE : ℕ := 2

/-- What an AppleDouble path stands for. -/
inductive AfpMeta where
  | none
  | resource
  | appledouble
  | finderinfo
  | comment
  | serverIcon
  deriving DecidableEq

/-- The kinds of servers that `afp_server_identify()` tells apart. -/
inductive ServerType where
  | unknown
  | netatalk
  | airport
  | macintosh
  deriving DecidableEq

/-- How user and group ids are translated. -/
inductive AfpMapping where
  | unknown
  | common
  | loginids
  | name
  deriving DecidableEq

/-- The AFP functions behind the modelled requests. -/
inductive AFPFunction where
  | afpByteRangeLock
  | afpByteRangeLockExt
  | afpCloseFork
  | afpCreateDir
  | afpCreateFile
  | afpDelete
  | afpEnumerate
  | afpEnumerateExt2
  | afpGetFileDirParms
  | afpMoveAndRename
  | afpRename
  | afpOpenFork
  | afpRead
  | afpReadExt
  | afpSetDirParms
  | afpSetFileParms
  | afpSetFileDirParms
  | afpSetForkParms
  | afpWrite
  | afpWriteExt
  | afpOpenDT
  | afpAddComment
  | afpGetComment
  deriving DecidableEq

end Afpfs

import Afpfs.Dsi.Send
import Afpfs.Lib.Record
import Afpfs.SetParms

/-!
# Requests on the wire

`lib/proto_directory.c`, `lib/proto_files.c`, `lib/proto_fork.c` and `lib/proto_desktop.c` build the
messages of the requests in `Request`.  A message is a DSI header, a packed record that begins with
the AFP command, and behind it nothing, names, a block of parameters or the data to write.
`message` is what is built for a request.

`decodeRequest` is what a server makes of a packet: the fields of the record at their widths, and
what is behind them.  A request `Arrives` if the server makes the same request of it.  `Fits` is
what this takes: names that fit in the temporary buffer of `copy_path()`, numbers that fit in their
fields, a comment that fits in a Pascal string.  A fork length of 64 bits is sent in 32, and the
attributes in 8.
-/

set_option autoImplicit false

namespace Afpfs
namespace RequestWire

open Unicode Codepage Memory Wire Record PathBlock Dsi

/-! ## Commands -/

/-- `enum AFPFunction`. -/
def code : AFPFunction → ℕ
  | .afpByteRangeLock => 1
  | .afpCloseFork => 4
  | .afpCreateDir => 6
  | .afpCreateFile => 7
  | .afpDelete => 8
  | .afpEnumerate => 9
  | .afpMoveAndRename => 23
  | .afpOpenFork => 26
  | .afpRead => 27
  | .afpRename => 28
  | .afpSetDirParms => 29
  | .afpSetFileParms => 30
  | .afpSetForkParms => 31
  | .afpWrite => 33
  | .afpGetFileDirParms => 34
  | .afpSetFileDirParms => 35
  | .afpOpenDT => 48
  | .afpAddComment => 56
  | .afpGetComment => 58
  | .afpByteRangeLockExt => 59
  | .afpReadExt => 60
  | .afpWriteExt => 61
  | .afpEnumerateExt2 => 68

/-- The command with a code. -/
def ofCode (n : ℕ) : Option AFPFunction :=
  [.afpByteRangeLock, .afpCloseFork, .afpCreateDir, .afpCreateFile, .afpDelete, .afpEnumerate,
    .afpMoveAndRename, .afpOpenFork, .afpRead, .afpRename, .afpSetDirParms, .afpSetFileParms,
    .afpSetForkParms, .afpWrite, .afpGetFileDirParms, .afpSetFileDirParms, .afpOpenDT,
    .afpAddComment, .afpGetComment, .afpByteRangeLockExt, .afpReadExt, .afpWriteExt,
    .afpEnumerateExt2].find? fun f => code f = n

theorem ofCode_code (f : AFPFunction) : ofCode (code f) = some f := by
  cases f <;> rfl

/-- `AFP_FORKTYPE_DATA` and `AFP_FORKTYPE_RESOURCE`. -/
def forktype (resourceFork : Bool) : ℕ := if resourceFork then 0x80 else 0

/-- `ByteRangeLock_Lock` and `ByteRangeLock_Unlock`. -/
def lockFlag (unlock : Bool) : ℕ := if unlock then 1 else 0

/-- The size of a reply to an enumeration. -/
def maxreplysize : ℕ := 5280

/-! ## Messages -/

/-- What `dsi_setup_header()` writes, with the data offset that only the messages with data set.  The
length is set by `dsi_send()`. -/
def dsiSetupHeader (requestid : UInt16) (command : UInt8) (dataOffset : ℕ) : List UInt8 :=
  bytes [(1, 0), (1, command.toNat), (2, requestid.toNat), (4, dataOffset), (4, 0), (4, 0)]

/-- What the messages depend on besides the request: the volume, the header, what `malloc()`
returns, and where. -/
structure Sender where
  encoding : PathEncoding
  volid : UInt16
  dtrefnum : UInt16
  requestid : UInt16
  garbage : ℕ → UInt8
  address : ℕ

namespace Sender

variable (c : Sender)

/-- A header and a record. -/
def packet (fields : List (ℕ × ℕ)) : List UInt8 :=
  dsiSetupHeader c.requestid DSI_DSICommand 0 ++ bytes fields

/-- A header and a record, and behind it a name in memory of the right size. -/
def withPath (fields : List (ℕ × ℕ)) (pathname : CString) : Option (List UInt8) := do
  let request := c.packet fields
  let m ← writePath c.encoding (store c.garbage 0 request) request.length pathname
  return load m 0 (request.length + sizeofPathHeader c.encoding + pathname.length)

/-- `afp_getfiledirparms()`. -/
def afpGetfiledirparms (did : UInt32) (filebitmap dirbitmap : ℕ) (pathname : CString) :
    Option (List UInt8) :=
  c.withPath [(1, code .afpGetFileDirParms), (1, 0), (2, c.volid.toNat), (4, did.toNat),
    (2, filebitmap), (2, dirbitmap)] pathname

/-- `afp_delete()`. -/
def afpDelete (dirid : UInt32) (pathname : CString) : Option (List UInt8) :=
  c.withPath [(1, code .afpDelete), (1, 0), (2, c.volid.toNat), (4, dirid.toNat)] pathname

/-- `afp_createfile()`. -/
def afpCreatefile (flag : ℕ) (did : UInt32) (pathname : CString) : Option (List UInt8) :=
  c.withPath [(1, code .afpCreateFile), (1, flag), (2, c.volid.toNat), (4, did.toNat)] pathname

/-- `afp_createdir()`. -/
def afpCreatedir (dirid : UInt32) (pathname : CString) : Option (List UInt8) :=
  c.withPath [(1, code .afpCreateDir), (1, 0), (2, c.volid.toNat), (4, dirid.toNat)] pathname

/-- `afp_openfork()`. -/
def afpOpenfork (resourceFork : Bool) (dirid : UInt32) (accessmode : ℕ) (filename : CString) :
    Option (List UInt8) :=
  c.withPath [(1, code .afpOpenFork), (1, forktype resourceFork), (2, c.volid.toNat),
    (4, dirid.toNat), (2, 0), (2, accessmode)] filename

/-- `afp_closefork()`. -/
def afpClosefork (forkid : UInt16) : List UInt8 :=
  c.packet [(1, code .afpCloseFork), (1, 0), (2, forkid.toNat)]

/-- `afp_setforkparms()`.  A long length is `htonl()` of it in a field of 64 bits. -/
def afpSetforkparms (forkid : UInt16) (bitmap : ℕ) (len : UInt64) : List UInt8 :=
  let fields := [(1, code .afpSetForkParms), (1, 0), (2, forkid.toNat), (2, bitmap)]
  if bitmap &&& (kFPExtDataForkLenBit ||| kFPExtRsrcForkLenBit) ≠ 0 then
    c.packet (fields ++ [(4, len.toNat), (4, 0)])
  else c.packet (fields ++ [(4, len.toNat)])

/-- `afp_byterangelock()`. -/
def afpByterangelock (flag : ℕ) (forkid : UInt16) (offset len : UInt32) : List UInt8 :=
  c.packet [(1, code .afpByteRangeLock), (1, flag), (2, forkid.toNat), (4, offset.toNat),
    (4, len.toNat)]

/-- `afp_byterangelockext()`. -/
def afpByterangelockext (flag : ℕ) (forkid : UInt16) (offset len : UInt64) : List UInt8 :=
  c.packet [(1, code .afpByteRangeLockExt), (1, flag), (2, forkid.toNat), (8, offset.toNat),
    (8, len.toNat)]

/-- `afp_read()`. -/
def afpRead (forkid : UInt16) (offset count : UInt32) : List UInt8 :=
  c.packet [(1, code .afpRead), (1, 0), (2, forkid.toNat), (4, offset.toNat), (4, count.toNat),
    (1, 0), (1, 0)]

/-- `afp_readext()`. -/
def afpReadext (forkid : UInt16) (offset count : UInt64) : List UInt8 :=
  c.packet [(1, code .afpReadExt), (1, 0), (2, forkid.toNat), (8, offset.toNat), (8, count.toNat)]

/-- A record with data behind it.  Its size is an `unsigned int`: `none` if the data does not fit in
the memory that is allocated, or is not all there. -/
def withData (fields : List (ℕ × ℕ)) (data : List UInt8) (reqcount : ℕ) : Option (List UInt8) :=
  let record := bytes fields
  if 2 ^ 32 ≤ headerSize + record.length + reqcount ∨ data.length < reqcount then none
  else some (dsiSetupHeader c.requestid DSI_DSIWrite record.length ++ record ++ data.take reqcount)

/-- `afp_write()`. -/
def afpWrite (forkid : UInt16) (offset reqcount : UInt32) (data : List UInt8) :
    Option (List UInt8) :=
  c.withData [(1, code .afpWrite), (1, 0), (2, forkid.toNat), (4, offset.toNat),
    (4, reqcount.toNat)] data reqcount.toNat

/-- `afp_writeext()`. -/
def afpWriteext (forkid : UInt16) (offset reqcount : UInt64) (data : List UInt8) :
    Option (List UInt8) :=
  c.withData [(1, code .afpWriteExt), (1, 0), (2, forkid.toNat), (8, offset.toNat),
    (8, reqcount.toNat)] data reqcount.toNat

/-- `afp_enumerate()`. -/
def afpEnumerate (dirid : UInt32) (filebitmap dirbitmap : ℕ) (reqcount startindex : UInt16)
    (pathname : CString) : Option (List UInt8) :=
  c.withPath [(1, code .afpEnumerate), (1, 0), (2, c.volid.toNat), (4, dirid.toNat),
    (2, filebitmap), (2, dirbitmap), (2, reqcount.toNat), (2, startindex.toNat),
    (2, maxreplysize)] pathname

/-- `afp_enumerateext2()`. -/
def afpEnumerateext2 (dirid : UInt32) (filebitmap dirbitmap : ℕ) (reqcount : UInt16)
    (startindex : UInt64) (pathname : CString) : Option (List UInt8) :=
  c.withPath [(1, code .afpEnumerateExt2), (1, 0), (2, c.volid.toNat), (4, dirid.toNat),
    (2, filebitmap), (2, dirbitmap), (2, reqcount.toNat), (4, startindex.toNat),
    (4, maxreplysize)] pathname

/-- `afp_opendt()`. -/
def afpOpendt : List UInt8 := c.packet [(1, code .afpOpenDT), (1, 0), (2, c.volid.toNat)]

/-- `afp_getcomment()`. -/
def afpGetcomment (did : UInt32) (pathname : CString) : Option (List UInt8) :=
  c.withPath [(1, code .afpGetComment), (1, 0), (2, c.dtrefnum.toNat), (4, did.toNat)] pathname

/-- `afp_addcomment()`.  The comment begins on an even address, in memory that is zero. -/
def afpAddcomment (did : UInt32) (pathname comment : CString) : Option (List UInt8) := do
  let request := c.packet [(1, code .afpAddComment), (1, 0), (2, c.dtrefnum.toNat), (4, did.toNat)]
  let len := request.length + sizeofPathHeader c.encoding + pathname.length + comment.length + 1
  let m ← writePath c.encoding (store (fun _ => 0) 0 request) request.length pathname
  let p := request.length + sizeofPathHeader c.encoding + pathname.length
  let (p, len) := if (c.address + p) % 2 = 1 then (p + 1, len + 1) else (p, len)
  return load (store m p (copyToPascal comment).1) 0 len

/-- `afp_setfileparms()`, `afp_setdirparms()` and `afp_setfiledirparms()`. -/
def afpSetparms (function : AFPFunction) (dirid : UInt32) (pathname : CString) (bitmap : ℕ)
    (fp : AfpFileInfo) : Option (List UInt8) :=
  (SetParms.afpSetparmsLowlevel c.encoding c.volid
    ⟨(dsiSetupHeader c.requestid DSI_DSICommand 0).toArray, rfl⟩ c.address dirid pathname
    (UInt16.ofNat bitmap) fp (UInt8.ofNat (code function))).map Prod.snd

/-- The message of a request. -/
def message : Request → Option (List UInt8)
  | .getFileDirParms did filebitmap dirbitmap pathname =>
    c.afpGetfiledirparms did filebitmap dirbitmap pathname
  | .setFileParms dirid pathname bitmap fp => c.afpSetparms .afpSetFileParms dirid pathname bitmap fp
  | .setDirParms dirid pathname bitmap fp => c.afpSetparms .afpSetDirParms dirid pathname bitmap fp
  | .setFileDirParms dirid pathname bitmap fp =>
    c.afpSetparms .afpSetFileDirParms dirid pathname bitmap fp
  | .delete dirid pathname => c.afpDelete dirid pathname
  | .createFile flag did pathname => c.afpCreatefile flag did pathname
  | .createDir dirid pathname => c.afpCreatedir dirid pathname
  | .moveAndRename srcDid dstDid srcPath dstPath newName =>
    afpMoveandrename c.encoding c.volid (dsiSetupHeader c.requestid DSI_DSICommand 0) c.garbage
      srcDid dstDid srcPath dstPath newName
  | .openFork resourceFork dirid accessmode filename =>
    c.afpOpenfork resourceFork dirid accessmode filename
  | .closeFork forkid => some (c.afpClosefork forkid)
  | .setForkParms forkid bitmap len => some (c.afpSetforkparms forkid bitmap len)
  | .byteRangeLock unlock forkid offset len =>
    some (c.afpByterangelock (lockFlag unlock) forkid offset len)
  | .byteRangeLockExt unlock forkid offset len =>
    some (c.afpByterangelockext (lockFlag unlock) forkid offset len)
  | .read forkid offset count _ => some (c.afpRead forkid offset count)
  | .readExt forkid offset count _ => some (c.afpReadext forkid offset count)
  | .write forkid offset reqcount data => c.afpWrite forkid offset reqcount data
  | .writeExt forkid offset reqcount data => c.afpWriteext forkid offset reqcount data
  | .enumerate dirid filebitmap dirbitmap reqcount startindex pathname =>
    c.afpEnumerate dirid filebitmap dirbitmap reqcount startindex pathname
  | .enumerateExt2 dirid filebitmap dirbitmap reqcount startindex pathname =>
    c.afpEnumerateext2 dirid filebitmap dirbitmap reqcount startindex pathname
  | .openDT => some c.afpOpendt
  | .getComment did pathname _ => c.afpGetcomment did pathname
  | .addComment did pathname comment => c.afpAddcomment did pathname comment

end Sender

/-! ## What a server reads -/

/-- A DSI packet. -/
structure Packet where
  flags : UInt8
  command : UInt8
  requestid : UInt16
  dataOffset : ℕ
  payload : List UInt8

/-- The packet at the front, if it is there completely, and what is behind it. -/
def nextPacket (p : List UInt8) : Option (Packet × List UInt8) :=
  match read [1, 1, 2, 4, 4, 4] p with
  | some ([flags, command, requestid, dataOffset, length, _], rest) =>
    if length ≤ rest.length then
      some (⟨.ofNat flags, .ofNat command, .ofNat requestid, dataOffset, rest.take length⟩,
        rest.drop length)
    else none
  | _ => none

/-- A name that the message ends with. -/
def decodeName (encoding : PathEncoding) (p : List UInt8) : Option CString :=
  match decodeBlock encoding p with
  | some (name, []) => some name
  | _ => none

/-- What begins at the next even position: `rest` is what is left of `p`, which begins at one. -/
def even (p rest : List UInt8) : List UInt8 :=
  if (p.length - rest.length) % 2 = 1 then rest.drop 1 else rest

/-- A name, and what begins at the next even position behind it. -/
def decodeEven {α : Type} (encoding : PathEncoding) (decode : List UInt8 → Option α)
    (p : List UInt8) : Option (CString × α) :=
  match decodeBlock encoding p with
  | some (name, rest) => (decode (even p rest)).map fun x => (name, x)
  | none => none

/-- The parameters that `bitmap` selects, up to the end. -/
def decodeParms (bitmap : UInt16) (p : List UInt8) : Option AfpFileInfo :=
  if p.length = SetParms.parmsSize bitmap then
    ReplyBlock.parseReplyBlock p false bitmap.toUInt32 bitmap.toUInt32
  else none

/-- A Pascal string, up to the end. -/
def decodePascal : List UInt8 → Option CString
  | len :: comment => if comment.length = len.toNat then some comment else none
  | [] => none

/-- Three names that the message ends with. -/
def decodeNames (encoding : PathEncoding) (p : List UInt8) :
    Option (CString × CString × CString) := do
  let (srcPath, p) ← decodeBlock encoding p
  let (dstPath, p) ← decodeBlock encoding p
  let newName ← decodeName encoding p
  return (srcPath, dstPath, newName)

/-- The data of a packet, of which there must be so many bytes. -/
def Packet.data (packet : Packet) (reqcount : ℕ) : Option (List UInt8) :=
  let data := packet.payload.drop packet.dataOffset
  if packet.command = DSI_DSIWrite ∧ data.length = reqcount then some data else none

/-- A request, with the volume or the desktop database that it is about. -/
abbrev Referred := Option UInt16 × Request

/-- What is behind the command of a packet. -/
def decodeBody (encoding : PathEncoding) (packet : Packet) (p : List UInt8) :
    AFPFunction → Option Referred
  | .afpByteRangeLock =>
    match read [1, 2, 4, 4] p with
    | some ([flag, forkid, offset, len], []) =>
      some (none, .byteRangeLock (flag = 1) (.ofNat forkid) (.ofNat offset) (.ofNat len))
    | _ => none
  | .afpByteRangeLockExt =>
    match read [1, 2, 8, 8] p with
    | some ([flag, forkid, offset, len], []) =>
      some (none, .byteRangeLockExt (flag = 1) (.ofNat forkid) (.ofNat offset) (.ofNat len))
    | _ => none
  | .afpCloseFork =>
    match read [1, 2] p with
    | some ([_, forkid], []) => some (none, .closeFork (.ofNat forkid))
    | _ => none
  | .afpCreateDir =>
    match read [1, 2, 4] p with
    | some ([_, volid, dirid], p) =>
      (decodeName encoding p).map fun name => (some (.ofNat volid), .createDir (.ofNat dirid) name)
    | _ => none
  | .afpCreateFile =>
    match read [1, 2, 4] p with
    | some ([flag, volid, did], p) =>
      (decodeName encoding p).map fun name =>
        (some (.ofNat volid), .createFile flag (.ofNat did) name)
    | _ => none
  | .afpDelete =>
    match read [1, 2, 4] p with
    | some ([_, volid, dirid], p) =>
      (decodeName encoding p).map fun name => (some (.ofNat volid), .delete (.ofNat dirid) name)
    | _ => none
  | .afpEnumerate =>
    match read [1, 2, 4, 2, 2, 2, 2, 2] p with
    | some ([_, volid, dirid, filebitmap, dirbitmap, reqcount, startindex, _], p) =>
      (decodeName encoding p).map fun name => (some (.ofNat volid),
        .enumerate (.ofNat dirid) filebitmap dirbitmap (.ofNat reqcount) (.ofNat startindex) name)
    | _ => none
  | .afpEnumerateExt2 =>
    match read [1, 2, 4, 2, 2, 2, 4, 4] p with
    | some ([_, volid, dirid, filebitmap, dirbitmap, reqcount, startindex, _], p) =>
      (decodeName encoding p).map fun name => (some (.ofNat volid),
        .enumerateExt2 (.ofNat dirid) filebitmap dirbitmap (.ofNat reqcount) (.ofNat startindex)
          name)
    | _ => none
  | .afpGetFileDirParms =>
    match read [1, 2, 4, 2, 2] p with
    | some ([_, volid, did, filebitmap, dirbitmap], p) =>
      (decodeName encoding p).map fun name =>
        (some (.ofNat volid), .getFileDirParms (.ofNat did) filebitmap dirbitmap name)
    | _ => none
  | .afpMoveAndRename =>
    match read [1, 2, 4, 4] p with
    | some ([_, volid, srcDid, dstDid], p) =>
      (decodeNames encoding p).map fun (srcPath, dstPath, newName) => (some (.ofNat volid),
        .moveAndRename (.ofNat srcDid) (.ofNat dstDid) srcPath (some dstPath) newName)
    | _ => none
  | .afpRename => none
  | .afpOpenFork =>
    match read [1, 2, 4, 2, 2] p with
    | some ([forktype, volid, dirid, _, accessmode], p) =>
      (decodeName encoding p).map fun name =>
        (some (.ofNat volid), .openFork (forktype = 0x80) (.ofNat dirid) accessmode name)
    | _ => none
  | .afpRead =>
    match read [1, 2, 4, 4, 1, 1] p with
    | some ([_, forkid, offset, count, _, _], []) =>
      some (none, .read (.ofNat forkid) (.ofNat offset) (.ofNat count) 0)
    | _ => none
  | .afpReadExt =>
    match read [1, 2, 8, 8] p with
    | some ([_, forkid, offset, count], []) =>
      some (none, .readExt (.ofNat forkid) (.ofNat offset) (.ofNat count) 0)
    | _ => none
  | .afpSetDirParms =>
    match read [1, 2, 4, 2] p with
    | some ([_, volid, dirid, bitmap], p) =>
      (decodeEven encoding (decodeParms (.ofNat bitmap)) p).map fun (name, fp) =>
        (some (.ofNat volid), .setDirParms (.ofNat dirid) name bitmap fp)
    | _ => none
  | .afpSetFileParms =>
    match read [1, 2, 4, 2] p with
    | some ([_, volid, dirid, bitmap], p) =>
      (decodeEven encoding (decodeParms (.ofNat bitmap)) p).map fun (name, fp) =>
        (some (.ofNat volid), .setFileParms (.ofNat dirid) name bitmap fp)
    | _ => none
  | .afpSetFileDirParms =>
    match read [1, 2, 4, 2] p with
    | some ([_, volid, dirid, bitmap], p) =>
      (decodeEven encoding (decodeParms (.ofNat bitmap)) p).map fun (name, fp) =>
        (some (.ofNat volid), .setFileDirParms (.ofNat dirid) name bitmap fp)
    | _ => none
  | .afpSetForkParms =>
    match read [1, 2, 2] p with
    | some ([_, forkid, bitmap], p) =>
      let width := if bitmap &&& (kFPExtDataForkLenBit ||| kFPExtRsrcForkLenBit) ≠ 0 then 8 else 4
      match read [width] p with
      | some ([len], []) => some (none, .setForkParms (.ofNat forkid) bitmap (.ofNat len))
      | _ => none
    | _ => none
  | .afpWrite =>
    match read [1, 2, 4, 4] p with
    | some ([_, forkid, offset, reqcount], _) =>
      (packet.data reqcount).map fun data =>
        (none, .write (.ofNat forkid) (.ofNat offset) (.ofNat reqcount) data)
    | _ => none
  | .afpWriteExt =>
    match read [1, 2, 8, 8] p with
    | some ([_, forkid, offset, reqcount], _) =>
      (packet.data reqcount).map fun data =>
        (none, .writeExt (.ofNat forkid) (.ofNat offset) (.ofNat reqcount) data)
    | _ => none
  | .afpOpenDT =>
    match read [1, 2] p with
    | some ([_, volid], []) => some (some (.ofNat volid), .openDT)
    | _ => none
  | .afpAddComment =>
    match read [1, 2, 4] p with
    | some ([_, dtrefnum, did], p) =>
      (decodeEven encoding decodePascal p).map fun (name, comment) =>
        (some (.ofNat dtrefnum), .addComment (.ofNat did) name comment)
    | _ => none
  | .afpGetComment =>
    match read [1, 2, 4] p with
    | some ([_, dtrefnum, did], p) =>
      (decodeName encoding p).map fun name =>
        (some (.ofNat dtrefnum), .getComment (.ofNat did) name 0)
    | _ => none

/-- The request in a packet, with its id. -/
def decodeRequest (encoding : PathEncoding) (packet : Packet) : Option (UInt16 × Referred) :=
  match packet.payload with
  | [] => none
  | command :: p => do
    let function ← ofCode command.toNat
    let referred ← decodeBody encoding packet p function
    return (packet.requestid, referred)

/-! ## What should arrive -/

/-- The parameters that are selected. -/
def selected (bitmap : UInt16) (fp : AfpFileInfo) : AfpFileInfo :=
  let pick {α : Type} (bit : ℕ) (x none : α) := if ReplyBlock.has bitmap bit then x else none
  { AfpFileInfo.zero with
    attributes := pick kFPAttributeBit fp.attributes 0
    creationDate := pick kFPCreateDateBit fp.creationDate 0
    modificationDate := pick kFPModDateBit fp.modificationDate 0
    backupDate := pick kFPBackupDateBit fp.backupDate 0
    finderinfo := pick kFPFinderInfoBit fp.finderinfo (List.replicate 32 0)
    unixprivs := pick kFPUnixPrivsBit fp.unixprivs ⟨0, 0, 0, 0⟩ }

/-- A request without what is not for the server: the sizes of buffers for the reply, and the
parameters that are not selected. -/
def onWire : Request → Request
  | .setFileParms dirid pathname bitmap fp =>
    .setFileParms dirid pathname bitmap (selected (.ofNat bitmap) fp)
  | .setDirParms dirid pathname bitmap fp =>
    .setDirParms dirid pathname bitmap (selected (.ofNat bitmap) fp)
  | .setFileDirParms dirid pathname bitmap fp =>
    .setFileDirParms dirid pathname bitmap (selected (.ofNat bitmap) fp)
  | .moveAndRename srcDid dstDid srcPath dstPath newName =>
    .moveAndRename srcDid dstDid srcPath (some (dstPath.getD [])) newName
  | .read forkid offset count _ => .read forkid offset count 0
  | .readExt forkid offset count _ => .readExt forkid offset count 0
  | .getComment did pathname _ => .getComment did pathname 0
  | r => r

/-- What a request is about. -/
def Sender.reference (c : Sender) : Request → Option UInt16
  | .closeFork .. | .setForkParms .. | .byteRangeLock .. | .byteRangeLockExt .. | .read ..
  | .readExt .. | .write .. | .writeExt .. => none
  | .getComment .. | .addComment .. => some c.dtrefnum
  | _ => some c.volid

/-- The server makes of the message what was asked. -/
def Sender.Arrives (c : Sender) (r : Request) : Prop :=
  ∃ msg packet, c.message r = some msg ∧ nextPacket (withLength msg) = some (packet, []) ∧
    decodeRequest c.encoding packet = some (c.requestid, c.reference r, onWire r)

/-- What the types and the callers see to: names are C strings, and only what can be set is. -/
def Typed : Request → Prop
  | .getFileDirParms _ _ _ pathname | .delete _ pathname | .createFile _ _ pathname
  | .createDir _ pathname | .openFork _ _ _ pathname | .enumerate _ _ _ _ _ pathname
  | .enumerateExt2 _ _ _ _ _ pathname | .getComment _ pathname _ | .addComment _ pathname _ =>
    (0 : UInt8) ∉ pathname
  | .setFileParms _ pathname bitmap fp | .setDirParms _ pathname bitmap fp
  | .setFileDirParms _ pathname bitmap fp =>
    (0 : UInt8) ∉ pathname ∧ bitmap &&& SetParms.settable = bitmap ∧ fp.finderinfo.length = 32
  | .moveAndRename _ _ srcPath dstPath newName =>
    (0 : UInt8) ∉ srcPath ∧ (0 : UInt8) ∉ dstPath.getD [] ∧ (0 : UInt8) ∉ newName
  | _ => True

/-- The fields of a request fit in its message. -/
def Fits (encoding : PathEncoding) : Request → Prop
  | .getFileDirParms _ filebitmap dirbitmap pathname =>
    filebitmap < 2 ^ 16 ∧ dirbitmap < 2 ^ 16 ∧ pathname.length ≤ maxName encoding
  | .setFileParms _ pathname bitmap fp | .setDirParms _ pathname bitmap fp
  | .setFileDirParms _ pathname bitmap fp =>
    pathname.length ≤ maxName encoding ∧
      (ReplyBlock.has (.ofNat bitmap) kFPAttributeBit = true → fp.attributes.toNat % 256 = 0)
  | .delete _ pathname | .createDir _ pathname | .getComment _ pathname _ =>
    pathname.length ≤ maxName encoding
  | .createFile flag _ pathname => flag < 2 ^ 8 ∧ pathname.length ≤ maxName encoding
  | .moveAndRename _ _ srcPath dstPath newName => srcPath.length ≤ maxName encoding ∧
      (dstPath.getD []).length ≤ maxName encoding ∧ newName.length ≤ maxName encoding
  | .openFork _ _ accessmode filename =>
    accessmode < 2 ^ 16 ∧ filename.length ≤ maxName encoding
  | .setForkParms _ bitmap len => bitmap < 2 ^ 16 ∧
      if bitmap &&& (kFPExtDataForkLenBit ||| kFPExtRsrcForkLenBit) ≠ 0 then len = 0
      else len.toNat < 2 ^ 32
  | .write _ _ reqcount data => headerSize + 12 + reqcount.toNat < 2 ^ 32 ∧
      data.length = reqcount.toNat
  | .writeExt _ _ reqcount data => headerSize + 20 + reqcount.toNat < 2 ^ 32 ∧
      data.length = reqcount.toNat
  | .enumerate _ filebitmap dirbitmap _ _ pathname =>
    filebitmap < 2 ^ 16 ∧ dirbitmap < 2 ^ 16 ∧ pathname.length ≤ maxName encoding
  | .enumerateExt2 _ filebitmap dirbitmap _ startindex pathname =>
    filebitmap < 2 ^ 16 ∧ dirbitmap < 2 ^ 16 ∧ startindex.toNat < 2 ^ 32 ∧
      pathname.length ≤ maxName encoding
  | .addComment _ pathname comment =>
    pathname.length ≤ maxName encoding ∧ comment.length < 2 ^ 8
  | _ => True

end RequestWire
end Afpfs

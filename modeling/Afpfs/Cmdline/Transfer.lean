import Afpfs.Cmdline.EscapePaths
import Afpfs.FileAccess
import Mathlib.Data.List.DropRight

/-!
# Getting and putting files

The commands `get` and `put` of `cmdline/cmdline_afp.c` copy a file from the server and to it, piece
by piece, with a local file at the other end.  Their programs have the effects of the library and those
of local system calls.  The server is one of `Afpfs.FileServer`, and the local system reads and writes
files in the same way, where a read may be short.

* `attains_retrieveFile`: `get` copies the whole file, whatever the pieces are.
* `attains_comPut`: `put` writes the local file over the one of the server, which is not truncated.
* `run_refines`: every sequence of the two does what it should.
-/

set_option autoImplicit false

namespace Afpfs
namespace Cmdline
namespace Transfer

open Interaction Unicode Codepage FileServer Placement
open PathResolution (lastComponent)

/-! ## Local system calls -/

/-- The local system calls of the commands. -/
inductive LocalCall where
  | mkdir (path : CString) (mode : ℕ)
  | chdir (path : CString)
  | access (path : CString)
  | stat (path : CString)
  | openRead (path : CString)
  | openWrite (path : CString) (mode : ℕ)
  | chmod (path : CString) (mode : ℕ)
  | chown (path : CString) (uid gid : UInt32)
  | read (fd : ℤ) (size : ℕ)
  | write (fd : ℤ) (data : List UInt8)
  | close (fd : ℤ)
  | getuid
  | getgid

/-- What they return.  `access()` answers whether the file may be written or does not exist, `stat()`
the mode in the structure, and `read()` nothing if it fails. -/
abbrev LocalCall.Answer : LocalCall → Type
  | .mkdir _ _ => ℤ
  | .chdir _ => ℤ
  | .access _ => Bool
  | .stat _ => UInt32
  | .openRead _ => ℤ
  | .openWrite _ _ => ℤ
  | .chmod _ _ => Unit
  | .chown _ _ _ => Unit
  | .read _ _ => Option (List UInt8)
  | .write _ _ => ℤ
  | .close _ => Unit
  | .getuid => UInt32
  | .getgid => UInt32

/-- Programs with local system calls. -/
abbrev CommandM := Prog (Effect ⊕ LocalCall) (Sum.elim Effect.Answer LocalCall.Answer)

/-- A local system call. -/
def call (c : LocalCall) : CommandM c.Answer := .act (.inr c) .done

/-- `PATH_MAX`. -/
def PATH_MAX : ℕ := 4096

/-- `PUT_BUFSIZE` and `BUF_SIZE`. -/
def BUF_SIZE : ℕ := 102400

/-! ## The commands -/

/-- What `get_server_path()` prints, for a buffer of `PATH_MAX` bytes. -/
def serverPath (curdir filename : CString) : CString :=
  (if filename.head? ≠ some slash then
    if curdir.length = 1 then slash :: filename else curdir ++ slash :: filename
  else filename).take (PATH_MAX - 1)

/-- `get_server_path()` into a buffer of `room` bytes. -/
def getServerPath (curdir filename : CString) (room : ℕ) : Option CString :=
  if room ≤ (serverPath curdir filename).length then none else some (serverPath curdir filename)

/-- `escape_paths()` into a buffer of `AFP_MAX_PATH` bytes: what it returns, and nothing if the buffer
overflows. -/
def argumentPath (arg : CString) : Option (Option CString) :=
  match escapePaths false arg with
  | none => some none
  | some (filename, _) => if AFP_MAX_PATH ≤ filename.length then none else some (some filename)

/-- `basename()`: what it makes of its argument, and the name. -/
def basename (path : CString) : CString × CString :=
  let stripped := path.rdropWhile (· = slash)
  if path = [] then ([], [0x2e])
  else if stripped = [] then (path, [slash])
  else
    (stripped, match Scan.strrchr stripped slash with
      | none => stripped
      | some p => stripped.drop (p + 1))

/-- The library code of a command. -/
def ofOption {α : Type} : Option α → CommandM α
  | some a => pure a
  | none => .stuck

/-- The loop of `retrieve_file()`: the total after it, and the structure. -/
def retrieveLoop (vol : Volume) (path : CString) (fd : ℤ) :
    ℕ → ℕ → UInt64 → AfpFileInfo → CommandM (UInt64 × AfpFileInfo)
  | 0, _, _, _ => .stuck
  | fuel + 1, offset, total, fp => do
    let res ← (afpMlRead vol path (List.replicate BUF_SIZE 0) offset fp).lift
    if res.ret ≤ 0 then return (total, res.fp)
    else do
      let written ← call (.write fd (res.buf.take res.ret.toNat))
      let total := total + .ofInt written
      let offset := offset + res.ret.toNat
      if res.eof then return (total, res.fp)
      else retrieveLoop vol path fd fuel offset total res.fp

/-- `if (fd>1) close(fd);` -/
def closeOpened (fd : ℤ) : CommandM Unit := if 1 < fd then call (.close fd) else pure ()

/-- `retrieve_file()`: its result and `*amount_written`. -/
def retrieveFile (vol : Volume) (curdir arg : CString) (fd : ℤ) (fuel : ℕ) : CommandM (ℤ × UInt64) := do
  let path ← ofOption (getServerPath curdir arg PATH_MAX)
  let (ret, _) ← (afpMlGetattr vol path).lift
  if ret ≠ 0 then return (-1, 0)
  else do
    let (ret, opened) ← (afpMlOpen vol path O_RDONLY fuel).lift
    if ret ≠ 0 then return (-1, 0)
    else do
      let (handle, fp) ← ofOption opened
      let (total, fp) ← retrieveLoop vol path fd fuel 0 0 fp
      closeOpened fd
      let _ ← (afpMlClose vol path (some (handle, fp))).lift
      (free handle).lift
      return (0, total)

/-- `com_get_file()` from the call of `access()` on. -/
def getNamed (vol : Volume) (curdir filename localfilename : CString) (fuel : ℕ) :
    CommandM (ℤ × Option UInt64) := do
  let accessible ← call (.access localfilename)
  if !accessible then return (-1, none)
  else do
    let getattrPath ← ofOption (getServerPath curdir filename AFP_MAX_PATH)
    let (ret, stat) ← (afpMlGetattr vol getattrPath).lift
    if ret ≠ 0 then return (-1, none)
    else do
      let fd ← call (.openWrite localfilename stat.stMode)
      if fd < 0 then return (-1, none)
      else do
        call (.chmod localfilename stat.stMode)
        call (.chown localfilename stat.stUid stat.stGid)
        let (_, total) ← retrieveFile vol curdir filename fd fuel
        call (.close fd)
        return (0, some total)

/-- `com_get_file()`: its result and what it stores in `*total`. -/
def comGetFile (vol : Volume) (curdir arg : CString) (fuel : ℕ) : CommandM (ℤ × Option UInt64) := do
  let parsed ← ofOption (argumentPath arg)
  match parsed with
  | none => return (-1, none)
  | some filename => getNamed vol curdir (basename filename).1 (basename filename).2 fuel

/-- The loop of `com_put()`, whose `offset` is an `int`. -/
def putLoop (vol : Volume) (path : CString) (fd : ℤ) (uid gid : UInt32) (wfuel : ℕ) :
    ℕ → ℕ → AfpFileInfo → CommandM AfpFileInfo
  | 0, _, _ => .stuck
  | fuel + 1, offset, fp => do
    let read ← call (.read fd BUF_SIZE)
    match read with
    | none => return fp
    | some data =>
      if data = [] then return fp
      else do
        let (ret, fp) ← (afpMlWrite vol path data offset fp uid gid wfuel).lift
        let offset := offset + data.length
        if 0x80000000 ≤ offset then .stuck
        else if ret < 0 then return fp
        else putLoop vol path fd uid gid wfuel fuel offset fp

/-- `com_put()`. -/
def comPut (vol : Volume) (curdir arg : CString) (fuel : ℕ) : CommandM ℤ := do
  let parsed ← ofOption (argumentPath arg)
  match parsed with
  | none => return -1
  | some filename => do
    let path ← ofOption (getServerPath curdir filename AFP_MAX_PATH)
    let uid ← call .getuid
    let gid ← call .getgid
    let mode ← call (.stat filename)
    let fd ← call (.openRead filename)
    if fd < 0 then return -1
    else do
      let (ret, opened) ← (afpMlOpen vol path (O_CREAT ||| O_RDWR) fuel).lift
      -- the structure is used where there may be none, or one that was freed
      if ret < 0 then .stuck
      else do
        let (handle, fp) ← ofOption opened
        let _ ← (afpMlChmod vol path mode).lift
        let fp ← putLoop vol path fd uid gid fuel fuel 0 fp
        call (.close fd)
        let _ ← (afpMlClose vol path (some (handle, fp))).lift
        return 0

/-! ## The local system -/

/-- What is at a local path. -/
inductive Node where
  | file (content : List UInt8)
  | directory
  deriving DecidableEq

/-- The files and directories of the local system by the names of their paths, the names of the working
directory, and the file and the position of each descriptor. -/
structure Disk where
  nodes : List CString → Option Node
  cwd : List CString
  fds : ℤ → Option (List CString × ℕ)

/-- `"."`. -/
def dot : UInt8 := 0x2e

/-- One name of a path. -/
def follow (p : List CString) (name : CString) : List CString :=
  if name = [] ∨ name = [dot] then p else if name = [dot, dot] then p.dropLast else p ++ [name]

/-- The names of what a path leads to from a directory. -/
def locate (cwd : List CString) (path : CString) : List CString :=
  (Scan.split slash path).foldl follow (if path.head? = some slash then [] else cwd)

/-- The names of what a path leads to. -/
def Disk.place (d : Disk) (path : CString) : List CString := locate d.cwd path

/-- What is in the file at a path. -/
def contentAt (nodes : List CString → Option Node) (p : List CString) : Option (List UInt8) :=
  match nodes p with
  | some (.file content) => some content
  | _ => none

/-- What is in the file of a descriptor, and the position. -/
def Disk.at (d : Disk) (fd : ℤ) : Option (List UInt8 × ℕ) :=
  (d.fds fd).bind fun (p, pos) => (contentAt d.nodes p).map (·, pos)

/-- A descriptor, at a position of a file with these contents. -/
def Disk.store (d : Disk) (fd : ℤ) (p : List CString) (content : List UInt8) (pos : ℕ) : Disk :=
  { d with
    nodes := Function.update d.nodes p (some (.file content))
    fds := Function.update d.fds fd (some (p, pos)) }

/-- A file can be at a path: there is no directory, but one that it can be in. -/
def FileCanBe (nodes : List CString → Option Node) (p : List CString) : Prop :=
  nodes p ≠ some .directory ∧ nodes p.dropLast = some .directory

instance (nodes : List CString → Option Node) (p : List CString) : Decidable (FileCanBe nodes p) :=
  inferInstanceAs (Decidable (_ ∧ _))

/-- The answers of the local system, where nothing fails without a reason.  A read may be short. -/
def Disk.Answers (d : Disk) : (c : LocalCall) → c.Answer → Prop
  | .mkdir path _, ret =>
    if d.nodes (d.place path) = none ∧ d.nodes (d.place path).dropLast = some .directory then ret = 0
    else ret = -1
  | .chdir path, ret => if d.nodes (d.place path) = some .directory then ret = 0 else ret = -1
  | .access _, accessible => accessible = true
  | .openRead path, fd => if (d.nodes (d.place path)).isSome then 0 ≤ fd ∧ d.fds fd = none else fd < 0
  | .openWrite path _, fd => if FileCanBe d.nodes (d.place path) then 0 ≤ fd ∧ d.fds fd = none else fd < 0
  | .read fd size, data =>
    match d.at fd with
    | some (content, pos) => ∃ n ≤ size, data = some (File.pread content pos n) ∧
      (File.pread content pos n = [] → size = 0 ∨ content.length ≤ pos)
    | none => data = none
  | .write fd data, written => if (d.at fd).isSome then written = data.length else written = -1
  | _, _ => True

/-- What becomes of the local system. -/
def Disk.next (d : Disk) : (c : LocalCall) → c.Answer → Disk
  | .mkdir path _, ret =>
    if ret = 0 then { d with nodes := Function.update d.nodes (d.place path) (some .directory) } else d
  | .chdir path, ret => if ret = 0 then { d with cwd := d.place path } else d
  | .openRead path, fd =>
    if 0 ≤ fd then { d with fds := Function.update d.fds fd (some (d.place path, 0)) } else d
  | .openWrite path _, fd => if 0 ≤ fd then d.store fd (d.place path) [] 0 else d
  | .read fd _, data =>
    match d.fds fd with
    | some (p, pos) =>
      { d with fds := Function.update d.fds fd (some (p, pos + (Option.getD data []).length)) }
    | none => d
  | .write fd data, _ =>
    match d.fds fd, d.at fd with
    | some (p, _), some (content, pos) =>
      d.store fd p (File.pwrite content pos data) (pos + data.length)
    | _, _ => d
  | .close fd, _ => { d with fds := Function.update d.fds fd none }
  | _, _ => d

/-- The server and the local system. -/
structure System (ι : Type) where
  server : Server ι
  disk : Disk

/-- The events of a command. -/
abbrev CommandEvent := (e : Effect ⊕ LocalCall) × Sum.elim Effect.Answer LocalCall.Answer e

section System

variable {ι : Type} [DecidableEq ι] {names : Names ι} {sv : Server ι} {d : Disk} {volume : Volume}
  {fd : ℤ} {path : CString} {out : List CString} {content : List UInt8} {pos : ℕ}

/-- What both answer. -/
def System.Answers (names : Names ι) (s : System ι) : CommandEvent → Prop
  | ⟨.inl e, r⟩ => FileServer.Answers names s.server ⟨e, r⟩
  | ⟨.inr c, r⟩ => s.disk.Answers c r

/-- What becomes of both. -/
def System.next (names : Names ι) (s : System ι) : CommandEvent → System ι
  | ⟨.inl e, r⟩ => { s with server := FileServer.next names s.server ⟨e, r⟩ }
  | ⟨.inr c, r⟩ => { s with disk := s.disk.next c r }

/-- The programs of the library leave the local system alone. -/
theorem attains_lift_of {α : Type} {ok : System ι → CommandEvent → Prop}
    {serves : Server ι → FileServer.Event → Prop} {Q : Server ι → α → Prop} {p : AfpM α}
    (hp : Prog.Attains serves (FileServer.next names) Q sv p)
    (h : ∀ s e r, ok s ⟨.inl e, r⟩ → serves s.server ⟨e, r⟩) :
    Prog.Attains ok (System.next names) (fun s' a => ∃ sv', s' = ⟨sv', d⟩ ∧ Q sv' a) ⟨sv, d⟩ p.lift := by
  have hlift : Prog.Attains ok (System.next names) (fun s' a => Q s'.server a ∧ s'.disk = d) ⟨sv, d⟩
      p.lift :=
    Prog.Attains.lift hp rfl fun _ _ _ hsame hok => ⟨h _ _ _ hok, rfl, hsame⟩
  exact hlift.mono fun s' a h => ⟨s'.server, congrArg (System.mk s'.server) h.2, h.1⟩

theorem attains_lift {α : Type} {Q : Server ι → α → Prop} {p : AfpM α}
    (hp : Prog.Attains (FileServer.Answers names) (FileServer.next names) Q sv p) :
    Prog.Attains (System.Answers names) (System.next names)
      (fun s' a => ∃ sv', s' = ⟨sv', d⟩ ∧ Q sv' a) ⟨sv, d⟩ p.lift :=
  attains_lift_of hp fun _ _ _ h => h

/-! ## Descriptors -/

@[simp] theorem contentAt_store : contentAt (d.store fd out content pos).nodes out = some content := by
  simp [contentAt, Disk.store]

theorem contentAt_eq_some {nodes : List CString → Option Node} :
    contentAt nodes out = some content ↔ nodes out = some (.file content) := by
  rw [contentAt]
  cases nodes out with
  | none => simp
  | some node => cases node <;> simp

@[simp] theorem fds_store : (d.store fd out content pos).fds fd = some (out, pos) :=
  Function.update_self ..

@[simp] theorem at_store : (d.store fd out content pos).at fd = some (content, pos) := by
  simp [Disk.at]

@[simp] theorem store_store (content' : List UInt8) (pos' : ℕ) :
    (d.store fd out content pos).store fd out content' pos' = d.store fd out content' pos' := by
  simp [Disk.store]

/-- Writing at the end. -/
theorem attains_write (data : List UInt8) :
    Prog.Attains (System.Answers names) (System.next names)
      (fun s' (written : ℤ) => s' = ⟨sv, d.store fd out (content ++ data)
        (content.length + data.length)⟩ ∧ written = data.length)
      ⟨sv, d.store fd out content content.length⟩ (call (.write fd data)) := by
  intro (written : ℤ) hwritten
  have hanswer : if ((d.store fd out content content.length).at fd).isSome then
      written = data.length else written = -1 := hwritten
  rw [at_store, Option.isSome_some, if_pos rfl] at hanswer
  have hnext : (d.store fd out content content.length).next (.write fd data) written =
      d.store fd out (content ++ data) (content.length + data.length) := by
    simp only [Disk.next, fds_store, at_store, store_store, File.pwrite_length]
  exact ⟨congrArg (System.mk sv) hnext, hanswer⟩

/-! ## Getting a file -/

/-- `total+=write(...)` counts the bytes. -/
theorem ofInt_natCast (n : ℕ) : UInt64.ofInt n = UInt64.ofNat n := by
  rw [UInt64.ofInt, show (2 : ℤ) ^ 64 = ((2 ^ 64 : ℕ) : ℤ) by norm_num, ← Int.natCast_mod,
    Int.toNat_natCast]
  exact UInt64.ofNat_mod_size

/-- The path of a file that `retrieve_file()` can read whole. -/
structure Readable (volume : Volume) (path : CString) (length : ℕ) : Prop where
  spelled : Spelled volume path
  room : BUF_SIZE ≤ volume.server.rxQuantum.toNat
  position : length < positions volume

omit [DecidableEq ι] in
theorem Readable.fits {length offset : ℕ} (h : Readable volume path length) (hle : offset ≤ length) :
    ReadFits volume path offset (List.replicate BUF_SIZE (0 : UInt8)).length where
  path := ⟨path, h.spelled.converted⟩
  room := by
    rw [List.length_replicate]
    exact h.room
  position := Nat.lt_of_le_of_lt hle h.position

/-- **The loop copies what is left of the file.** -/
theorem attains_retrieveLoop {i : ι} (hread : Readable volume path (sv.content i).length)
    (out : List CString) {fp : AfpFileInfo} (hopen : sv.opened fp.forkid = some i)
    (hplain : fp.resource = .none) {offset : ℕ} (hle : offset ≤ (sv.content i).length)
    {fuel : ℕ} (hfuel : (sv.content i).length - offset < fuel) :
    Prog.Attains (System.Answers names) (System.next names)
      (fun s' res => s' = ⟨sv, d.store fd out (sv.content i) (sv.content i).length⟩ ∧
        res.1 = .ofNat (sv.content i).length ∧ res.2 = fp)
      ⟨sv, d.store fd out ((sv.content i).take offset) offset⟩
      (retrieveLoop volume path fd fuel offset (.ofNat offset) fp) := by
  induction fuel generalizing offset with
  | zero => exact absurd hfuel (Nat.not_lt_zero _)
  | succ fuel ih =>
    rw [retrieveLoop]
    refine Prog.Attains.bind (attains_lift (attains_afpMlRead hopen hplain (hread.fits hle)))
      fun s' res h => ?_
    obtain ⟨sv, rfl, rfl, hfp, bytes, hreads, hbuf⟩ := h
    have hgot : res.buf.take res.ret.toNat = bytes := by
      rw [hbuf, hreads.count, Int.toNat_natCast, File.pwrite_zero, List.take_left]
    have hsplit : (sv.content i).take offset ++ bytes =
        (sv.content i).take (offset + bytes.length) := by
      rw [List.take_add, ← File.pread, ← hreads.range]
    have hlength : ((sv.content i).take offset).length = offset := List.length_take_of_le hle
    refine Prog.attains_ite (fun hnone => ?_) fun hsome => ?_
    · have hnil : bytes = [] := by
        rw [hreads.count] at hnone
        exact List.length_eq_zero_iff.mp (by omega)
      have heof : res.eof = true := (hreads.progress hnil).resolve_left (by
        rw [List.length_replicate]
        decide)
      have hall := hreads.ended heof
      rw [hnil, List.length_nil] at hall
      have hoffset : offset = (sv.content i).length := Nat.le_antisymm hle hall
      refine ⟨?_, congrArg UInt64.ofNat hoffset, hfp⟩
      rw [hoffset, List.take_length]
    · have hwrite := @attains_write ι _ names sv d fd out ((sv.content i).take offset) bytes
      rw [hlength] at hwrite
      rw [hgot, hreads.count, Int.toNat_natCast]
      refine hwrite.bind fun s' written h => ?_
      obtain ⟨rfl, rfl⟩ := h
      rw [hsplit, hfp]
      have htotal : UInt64.ofNat offset + UInt64.ofInt bytes.length =
          .ofNat (offset + bytes.length) := by
        rw [UInt64.ofNat_add, ofInt_natCast]
      have hle' : offset + bytes.length ≤ (sv.content i).length := by
        have hlen := congrArg List.length hreads.range
        rw [File.length_pread] at hlen
        omega
      rw [htotal]
      refine Prog.attains_ite (fun heof => ?_) fun hmore => ?_
      · have hall := Nat.le_antisymm hle' (hreads.ended heof)
        rw [hall, List.take_length]
        exact ⟨rfl, rfl, rfl⟩
      · have hpos : 0 < bytes.length := by
          rw [hreads.count] at hsome
          omega
        exact ih hle' (by omega)

/-- A path on the server that leads to a directory. -/
structure PathTo (volume : Volume) (names : Names ι) (path : CString) (did : UInt32) : Prop where
  spelled : Spelled volume path
  notRoot : path ≠ [slash]
  leads : LeadsTo names path did

/-- The data fork that a path stands for. -/
def file (names : Names ι) (path : CString) (did : UInt32) : ι :=
  names.fork false did (lastComponent path)

/-- The descriptor is closed. -/
def Disk.shut (d : Disk) (fd : ℤ) : Disk := { d with fds := Function.update d.fds fd none }

/-- What `retrieve_file()` leaves of the descriptor. -/
def Disk.left (d : Disk) (fd : ℤ) : Disk := if 1 < fd then d.shut fd else d

theorem attains_closeOpened :
    Prog.Attains (System.Answers names) (System.next names) (fun s' _ => s' = ⟨sv, d.left fd⟩)
      ⟨sv, d⟩ (closeOpened fd) := by
  rw [closeOpened, Disk.left]
  refine Prog.attains_ite (fun h _ _ => ?_) fun h => ?_
  · rw [if_pos h]
    rfl
  · rw [if_neg h]
    exact rfl

/-- **`retrieve_file()` copies the whole file.** -/
theorem attains_retrieveFile {did : UInt32} {i : ι} (hpath : PathTo volume names path did)
    (hi : i = file names path did) (hpresent : sv.present i = true) (hmapped : Mapped volume)
    (hread : Readable volume path (sv.content i).length)
    {curdir arg : CString} (harg : getServerPath curdir arg PATH_MAX = some path) (out : List CString)
    {fuel : ℕ} (hfuel : (sv.content i).length < fuel) (hfuel' : 2 ≤ fuel) :
    Prog.Attains (System.Answers names) (System.next names)
      (fun s' res => s' = ⟨sv, (d.store fd out (sv.content i) (sv.content i).length).left fd⟩ ∧
        res = (0, .ofNat (sv.content i).length))
      ⟨sv, d.store fd out [] 0⟩ (retrieveFile volume curdir arg fd fuel) := by
  obtain ⟨hspelled, hroot, hpath⟩ := hpath
  obtain rfl : i = names.fork false did (lastComponent path) := hi
  rw [retrieveFile, harg]
  show Prog.Attains _ _ _ _ ((afpMlGetattr volume path).lift >>= _)
  refine Prog.Attains.bind (attains_lift (attains_afpMlGetattr hpath hspelled hroot hmapped
    (.inr hpresent))) fun s' res h => ?_
  obtain ⟨ret, stat⟩ := res
  obtain ⟨sv, rfl, rfl, rfl⟩ := h
  show Prog.Attains _ _ _ _ (if (0 : ℤ) ≠ 0 then _ else _)
  rw [if_neg (not_not.mpr rfl)]
  obtain ⟨n, rfl⟩ := Nat.exists_eq_add_of_le' hfuel'
  have hflags : FlagsFit volume O_RDONLY := ⟨by decide, by decide, fun _ => by decide⟩
  refine Prog.Attains.bind (attains_lift (attains_afpMlOpen hpath hspelled (.inl hpresent) hflags))
    fun s' res h => ?_
  obtain ⟨ret, opened⟩ := res
  obtain ⟨sv', rfl, rfl, handle, fp, rfl, ⟨hfree, rfl⟩, hplain⟩ := h
  show Prog.Attains _ _ _ _ (if (0 : ℤ) ≠ 0 then _ else _)
  rw [if_neg (not_not.mpr rfl), Server.ensure, if_pos hpresent]
  have hloop := @attains_retrieveLoop ι _ names (sv.refer fp.forkid (some _)) d volume fd path _
    hread out fp opened_refer hplain 0 (Nat.zero_le _) (n + 2) hfuel
  refine hloop.bind fun s' res h => ?_
  obtain ⟨total, fp'⟩ := res
  obtain ⟨rfl, htotal, hfp⟩ := h
  obtain rfl : fp' = fp := hfp
  obtain rfl : total = _ := htotal
  refine attains_closeOpened.bind fun s' _ h => ?_
  obtain rfl := h
  have hopen : (sv.refer fp'.forkid (some (names.fork false did (lastComponent path)))).opened
      fp'.forkid ≠ none := by
    rw [opened_refer]
    exact Option.some_ne_none _
  refine Prog.Attains.bind (attains_lift (attains_afpMlClose hspelled hplain hopen handle))
    fun s' ret h => ?_
  obtain ⟨sv', rfl, rfl, -⟩ := h
  rw [refer_refer hfree]
  exact fun _ _ => ⟨rfl, rfl⟩

omit [DecidableEq ι] in
/-- A path that fits into the smaller buffer fits into the larger one. -/
theorem getServerPath_mono {curdir filename : CString}
    (h : getServerPath curdir filename AFP_MAX_PATH = some path) :
    getServerPath curdir filename PATH_MAX = some path := by
  have hle : AFP_MAX_PATH ≤ PATH_MAX := by decide
  rw [getServerPath] at h ⊢
  by_cases hroom : AFP_MAX_PATH ≤ (serverPath curdir filename).length
  · rw [if_pos hroom] at h
    cases h
  · rw [if_neg hroom] at h
    rw [if_neg (by omega), h]

/-- What the argument of a command stands for: a path on the server, and a local name. -/
structure Argument (curdir arg path localfilename : CString) : Prop where
  parsed : ∃ filename, argumentPath arg = some (some filename) ∧
    (basename filename).2 = localfilename ∧
    getServerPath curdir (basename filename).1 AFP_MAX_PATH = some path

/-- A descriptor that was not in use is closed. -/
theorem shut_store (h : d.fds fd = none) (content : List UInt8) (pos : ℕ) :
    (d.store fd out content pos).shut fd =
      { d with nodes := Function.update d.nodes out (some (.file content)) } := by
  rw [Disk.shut, Disk.store, Function.update_idem, ← h, Function.update_eq_self]

/-- It may be closed twice. -/
theorem shut_left_store (h : d.fds fd = none) (content : List UInt8) (pos : ℕ) :
    ((d.store fd out content pos).left fd).shut fd =
      { d with nodes := Function.update d.nodes out (some (.file content)) } := by
  have htwice : ∀ d : Disk, (d.shut fd).shut fd = d.shut fd := fun d => by
    rw [Disk.shut, Disk.shut, Function.update_idem]
  rw [Disk.left]
  by_cases hfd : 1 < fd
  · rw [if_pos hfd, htwice, shut_store h]
  · rw [if_neg hfd, shut_store h]

/-- **`get` copies the file of the server**, whatever the pieces are in which it is read. -/
theorem attains_comGetFile {did : UInt32} {i : ι} (hpath : PathTo volume names path did)
    (hi : i = file names path did) (hpresent : sv.present i = true) (hmapped : Mapped volume)
    (hread : Readable volume path (sv.content i).length)
    {curdir arg localfilename : CString} (harg : Argument curdir arg path localfilename)
    (hlocal : FileCanBe d.nodes (d.place localfilename)) {fuel : ℕ} (hfuel : (sv.content i).length + 1 < fuel) :
    Prog.Attains (System.Answers names) (System.next names)
      (fun s' res => s' = ⟨sv, { d with
          nodes := Function.update d.nodes (d.place localfilename) (some (.file (sv.content i))) }⟩ ∧
        res = (0, some (.ofNat (sv.content i).length)))
      ⟨sv, d⟩ (comGetFile volume curdir arg fuel) := by
  obtain ⟨filename, hparsed, rfl, hserver⟩ := harg.parsed
  have hhas : sv.Has names did (lastComponent path) := by
    rw [hi] at hpresent
    exact .inr hpresent
  rw [comGetFile, hparsed]
  show Prog.Attains _ _ _ _ (getNamed volume curdir (basename filename).1 (basename filename).2 fuel)
  rw [getNamed]
  intro (accessible : Bool) (haccess : accessible = true)
  subst haccess
  rw [hserver]
  show Prog.Attains _ _ _ (System.mk sv d) ((afpMlGetattr volume path).lift >>= _)
  refine Prog.Attains.bind (attains_lift (attains_afpMlGetattr hpath.leads hpath.spelled
    hpath.notRoot hmapped hhas)) fun s' res h => ?_
  obtain ⟨ret, stat⟩ := res
  obtain ⟨sv, rfl, rfl, rfl⟩ := h
  show Prog.Attains _ _ _ _ (if (0 : ℤ) ≠ 0 then _ else _)
  rw [if_neg (not_not.mpr rfl)]
  intro (fd : ℤ) (hopened : if FileCanBe d.nodes (d.place (basename filename).2) then _ else _)
  have hfd : 0 ≤ fd ∧ d.fds fd = none := by rwa [if_pos hlocal] at hopened
  have hnext : d.next (.openWrite (basename filename).2 stat.stMode) fd =
      d.store fd (d.place (basename filename).2) [] 0 := if_pos hfd.1
  show Prog.Attains _ _ _ (System.mk sv (d.next (.openWrite (basename filename).2 stat.stMode) fd))
    (if fd < 0 then _ else _)
  rw [hnext, if_neg (Int.not_lt.mpr hfd.1)]
  intro _ _ _ _
  refine (attains_retrieveFile hpath hi hpresent hmapped hread (getServerPath_mono hserver) _
    (by omega) (by omega)).bind fun s' res h => ?_
  obtain ⟨rfl, rfl⟩ := h
  intro _ _
  exact ⟨congrArg (System.mk sv) (shut_left_store hfd.2 ..), rfl⟩

/-! ## Putting a file -/

/-- A read of a file that is open. -/
theorem attains_read (size : ℕ) :
    Prog.Attains (System.Answers names) (System.next names)
      (fun s' (data : Option (List UInt8)) => ∃ n ≤ size, data = some (File.pread content pos n) ∧
        (File.pread content pos n = [] → size = 0 ∨ content.length ≤ pos) ∧
        s' = ⟨sv, d.store fd out content (pos + (File.pread content pos n).length)⟩)
      ⟨sv, d.store fd out content pos⟩ (call (.read fd size)) := by
  intro (data : Option (List UInt8)) hdata
  have hanswer : match (d.store fd out content pos).at fd with
      | some (content, pos) => ∃ n ≤ size, data = some (File.pread content pos n) ∧
        (File.pread content pos n = [] → size = 0 ∨ content.length ≤ pos)
      | none => data = none := hdata
  rw [at_store] at hanswer
  obtain ⟨n, hn, rfl, hend⟩ := hanswer
  have hnext : (d.store fd out content pos).next (.read fd size)
      (some (File.pread content pos n)) =
      d.store fd out content (pos + (File.pread content pos n).length) := by
    simp only [Disk.next, fds_store, Option.getD_some]
    rw [Disk.store, Disk.store, Function.update_idem]
  exact ⟨n, hn, rfl, hend, congrArg (System.mk sv) hnext⟩

/-- The path of a file that `com_put()` can write. -/
structure Writable (volume : Volume) (path : CString) : Prop where
  spelled : Spelled volume path
  allowed : volumeIsReadonly volume = false
  quantum : 0 < volume.server.txQuantum.toNat
  room : headerLen volume + volume.server.txQuantum.toNat < 0x80000000

omit [DecidableEq ι] in
theorem Writable.fits (h : Writable volume path) {offset : ℕ} {data : List UInt8}
    (hsize : data.length ≤ BUF_SIZE) (hend : offset + data.length < 0x80000000) :
    WriteAllowed volume path offset data where
  path := ⟨path, h.spelled.converted⟩
  writable := h.allowed
  size _ := Nat.le_trans hsize (by decide)
  fits := by
    refine .inr ⟨h.quantum, h.room, ?_⟩
    rw [positions]
    split <;> omega

/-- **The loop writes what is left of the local file.** -/
theorem attains_putLoop {i : ι} (hwrite : Writable volume path) (old : List UInt8)
    {source : List CString} {fp : AfpFileInfo} (hopen : sv.opened fp.forkid = some i)
    (hplain : fp.resource = .none) {offset : ℕ} (hle : offset ≤ content.length)
    (hlen : content.length < 0x80000000) (uid gid : UInt32) {wfuel fuel : ℕ}
    (hwfuel : BUF_SIZE ≤ wfuel) (hfuel : content.length - offset < fuel) :
    Prog.Attains (System.Answers names) (System.next names)
      (fun s' fp' => s' = ⟨sv.put i (File.pwrite old 0 content),
          d.store fd source content content.length⟩ ∧
        fp'.forkid = fp.forkid ∧ fp'.resource = .none)
      ⟨sv.put i (File.pwrite old 0 (content.take offset)), d.store fd source content offset⟩
      (putLoop volume path fd uid gid wfuel fuel offset fp) := by
  induction fuel generalizing offset fp with
  | zero => exact absurd hfuel (Nat.not_lt_zero _)
  | succ fuel ih =>
    rw [putLoop]
    refine Prog.Attains.bind (attains_read BUF_SIZE) fun s' data h => ?_
    obtain ⟨n, hn, rfl, hend, rfl⟩ := h
    have hlength : (content.take offset).length = offset := List.length_take_of_le hle
    have hdata := File.length_pread content offset n
    show Prog.Attains _ _ _ _ (if File.pread content offset n = [] then _ else _)
    refine Prog.attains_ite (fun hnil => ?_) fun hsome => ?_
    · have hall : offset = content.length :=
        Nat.le_antisymm hle ((hend hnil).resolve_left (by decide))
      rw [hnil, List.length_nil, Nat.add_zero, hall, List.take_length]
      exact ⟨rfl, rfl, hplain⟩
    · have hpos := List.length_pos_of_ne_nil hsome
      have hle' : offset + (File.pread content offset n).length ≤ content.length := by omega
      have hallowed : WriteAllowed volume path offset (File.pread content offset n) :=
        hwrite.fits (by omega) (by omega)
      have hpiece : File.pwrite (File.pwrite old 0 (content.take offset)) offset
          (File.pread content offset n) =
            File.pwrite old 0 (content.take (offset + (File.pread content offset n).length)) := by
        have hsplit : content.take (offset + (File.pread content offset n).length) =
            content.take offset ++ File.pread content offset n := by
          rw [List.take_add, ← File.pread, File.pread_length]
        rw [hsplit, File.pwrite_append, Nat.zero_add, hlength]
      refine Prog.Attains.bind (attains_lift (attains_afpMlWrite (s := sv.put i _) hopen hplain
        hallowed uid gid (by omega))) fun s' res h => ?_
      obtain ⟨ret, fp'⟩ := res
      obtain ⟨sv', rfl, rfl, hret, hforkid, hplain'⟩ := h
      rw [FileServer.put_put, content_put, hpiece]
      show Prog.Attains _ _ _ _ (if 0x80000000 ≤ offset + (File.pread content offset n).length then _
        else if ret < 0 then _ else _)
      rw [if_neg (by omega), if_neg (by omega)]
      have hrest := @ih fp' (hforkid ▸ hopen) hplain' _ hle' (by omega)
      rw [hforkid] at hrest
      exact hrest

/-- The file on the server after the data has been written over it, where it is created if it is not
there. -/
def written (names : Names ι) (sv : Server ι) (path : CString) (did : UInt32)
    (content : List UInt8) : Server ι :=
  let made := sv.ensure names did (lastComponent path)
  made.put (file names path did) (File.pwrite (made.content (file names path did)) 0 content)

/-- **`put` writes the local file over the one on the server**, in whatever pieces it is read and
sent. -/
theorem attains_comPut {did : UInt32} (hpath : PathTo volume names path did)
    (hwrite : Writable volume path) {curdir arg filename : CString}
    (hparsed : argumentPath arg = some (some filename))
    (hserver : getServerPath curdir filename AFP_MAX_PATH = some path)
    (hlocal : d.nodes (d.place filename) = some (.file content)) (hlen : content.length < 0x80000000) {fuel : ℕ}
    (hfuel : BUF_SIZE ≤ fuel) (hfuel' : content.length < fuel) :
    Prog.Attains (System.Answers names) (System.next names)
      (fun s' ret => s' = ⟨written names sv path did content, d⟩ ∧ ret = 0) ⟨sv, d⟩
      (comPut volume curdir arg fuel) := by
  rw [comPut, hparsed]
  show Prog.Attains _ _ _ _ (ofOption (getServerPath curdir filename AFP_MAX_PATH) >>= _)
  rw [hserver]
  intro (uid : UInt32) _ (gid : UInt32) _ (mode : UInt32) _ (fd : ℤ) hfd
  have hopened : if (d.nodes (d.place filename)).isSome then 0 ≤ fd ∧ d.fds fd = none else fd < 0 := hfd
  rw [hlocal, Option.isSome_some, if_pos rfl] at hopened
  have hnext : d.next (.openRead filename) fd = d.store fd (d.place filename) content 0 := by
    rw [Disk.next, if_pos hopened.1, Disk.store, ← hlocal, Function.update_eq_self]
  show Prog.Attains _ _ _ (System.mk sv (d.next (.openRead filename) fd)) (if fd < 0 then _ else _)
  rw [hnext, if_neg (Int.not_lt.mpr hopened.1)]
  obtain ⟨n, rfl⟩ := Nat.exists_eq_add_of_le' (Nat.le_trans (by decide : 2 ≤ BUF_SIZE) hfuel)
  have hflags : FlagsFit volume (O_CREAT ||| O_RDWR) :=
    ⟨by decide, by decide, fun h => absurd (h.symm.trans hwrite.allowed) (by decide)⟩
  refine Prog.Attains.bind (attains_lift (attains_afpMlOpen hpath.leads hpath.spelled
    (.inr ⟨by decide, hwrite.allowed⟩) hflags)) fun s' res h => ?_
  obtain ⟨ret, opened⟩ := res
  obtain ⟨sv', rfl, rfl, handle, fp, rfl, ⟨hfree, rfl⟩, hplain⟩ := h
  show Prog.Attains _ _ _ _ (if (0 : ℤ) < 0 then _ else _)
  rw [if_neg (lt_irrefl 0)]
  show Prog.Attains _ _ _ _ ((afpMlChmod volume path mode).lift >>= _)
  refine Prog.Attains.bind (attains_lift (attains_afpMlChmod hpath.leads hpath.spelled
    hpath.notRoot mode)) fun s' _ h => ?_
  obtain ⟨sv', rfl, rfl⟩ := h
  let made := sv.ensure names did (lastComponent path)
  have hloop := @attains_putLoop ι _ names (made.refer fp.forkid (some (file names path did))) d
    volume fd path content (file names path did) hwrite (made.content (file names path did)) (d.place filename)
    fp opened_refer hplain 0 (Nat.zero_le _) hlen uid gid (n + 2) (n + 2) hfuel hfuel'
  rw [List.take_zero, File.pwrite_nil] at hloop
  have hput : (made.refer fp.forkid (some (file names path did))).put (file names path did)
      (made.content (file names path did)) = made.refer fp.forkid (some (file names path did)) :=
    put_self _
  rw [hput] at hloop
  refine hloop.bind fun s' fp' h => ?_
  obtain ⟨rfl, hforkid, hplain'⟩ := h
  intro _ _
  have hopen : ((made.refer fp.forkid (some (file names path did))).put (file names path did)
      (File.pwrite (made.content (file names path did)) 0 content)).opened fp'.forkid ≠ none := by
    rw [opened_put, hforkid, opened_refer]
    exact Option.some_ne_none _
  show Prog.Attains _ _ _ (System.mk _ ((d.store fd (d.place filename) content content.length).shut fd))
    ((afpMlClose volume path (some (handle, fp'))).lift >>= _)
  refine Prog.Attains.bind (attains_lift (attains_afpMlClose hpath.spelled hplain' hopen handle))
    fun s' ret h => ?_
  obtain ⟨sv', rfl, rfl, -⟩ := h
  have hclosed : (((made.refer fp.forkid (some (file names path did))).put (file names path did)
      (File.pwrite (made.content (file names path did)) 0 content)).refer fp'.forkid none) =
        written names sv path did content := by
    rw [hforkid]
    have hfree' : (written names sv path did content).opened fp.forkid = none := by
      rw [written, opened_put, opened_ensure]
      exact hfree
    exact refer_refer hfree' (some (file names path did))
  rw [hclosed, shut_store hopened.2, ← hlocal, Function.update_eq_self]
  exact ⟨rfl, rfl⟩

/-! ## Sequences of commands -/

/-- One of the two commands, with the path on the server and the local name that its argument stands
for. -/
structure Job where
  put : Bool
  arg : CString
  path : CString
  did : UInt32
  name : CString

/-- Perform it. -/
def Job.run (volume : Volume) (curdir : CString) (fuel : ℕ) (t : Job) : CommandM Unit :=
  if t.put then do
    let _ ← comPut volume curdir t.arg fuel
  else do
    let _ ← comGetFile volume curdir t.arg fuel

/-- One command after the other. -/
def run (volume : Volume) (curdir : CString) (fuel : ℕ) : List Job → CommandM Unit
  | [] => pure ()
  | t :: ts => do
    t.run volume curdir fuel
    run volume curdir fuel ts

/-- The files on the server, each in a directory, and what there is locally. -/
structure Files where
  remote : UInt32 × CString → Option (List UInt8)
  disk : List CString → Option Node
  cwd : List CString

/-- What a command should do, where the file is there that it copies and the other one can be. -/
def Files.step (v : Files) (t : Job) : Option Files :=
  let place := (t.did, lastComponent t.path)
  let here := locate v.cwd t.name
  if t.put then
    (contentAt v.disk here).map fun content => { v with
      remote := Function.update v.remote place
        (some (File.pwrite ((v.remote place).getD []) 0 content)) }
  else if FileCanBe v.disk here then
    (v.remote place).map fun content => { v with
      disk := Function.update v.disk here (some (.file content)) }
  else none

/-- The files are not longer than that. -/
def Files.Bounded (v : Files) (bound : ℕ) : Prop :=
  (∀ place, ∀ content ∈ v.remote place, content.length ≤ bound) ∧
    ∀ p, ∀ content ∈ contentAt v.disk p, content.length ≤ bound

/-- The files of a system. -/
def System.files (names : Names ι) (s : System ι) : Files where
  remote place :=
    if s.server.present (names.fork false place.1 place.2) then
      some (s.server.content (names.fork false place.1 place.2))
    else none
  disk := s.disk.nodes
  cwd := s.disk.cwd

/-- What the code asks of a command. -/
structure Job.Fits (volume : Volume) (names : Names ι) (curdir : CString) (t : Job) : Prop
    where
  path : PathTo volume names t.path t.did
  parsed : ∃ filename, argumentPath t.arg = some (some filename) ∧
    if t.put then filename = t.name ∧ getServerPath curdir filename AFP_MAX_PATH = some t.path
    else (basename filename).2 = t.name ∧
      getServerPath curdir (basename filename).1 AFP_MAX_PATH = some t.path

/-- Different names stand for different forks. -/
def Distinct (names : Names ι) : Prop :=
  ∀ r did name r' did' name', names.fork r did name = names.fork r' did' name' →
    r = r' ∧ did = did' ∧ name = name'

/-- What has been written, as it is seen. -/
theorem files_written (hdistinct : Distinct names) (did : UInt32) :
    (System.mk (written names sv path did content) d).files names =
      { (System.mk sv d).files names with
        remote := Function.update ((System.mk sv d).files names).remote (did, lastComponent path)
          (some (File.pwrite
            ((((System.mk sv d).files names).remote (did, lastComponent path)).getD []) 0
              content)) } := by
  refine congrArg (Files.mk · d.nodes d.cwd) (funext fun ⟨did', name'⟩ => ?_)
  show (if (written names sv path did content).present (names.fork false did' name') then
    some ((written names sv path did content).content (names.fork false did' name')) else none) = _
  rw [written, present_put]
  by_cases hplace : (did', name') = (did, lastComponent path)
  · obtain ⟨rfl, rfl⟩ := Prod.mk.inj hplace
    rw [Function.update_self, present_ensure, if_pos rfl, file, content_put, content_ensure]
    show some (File.pwrite _ 0 content) = some (File.pwrite (Option.getD (if _ then _ else _) []) 0 content)
    split <;> rfl
  · have hdata : names.fork false did' name' ≠ names.fork false did (lastComponent path) := fun h =>
      hplace (Prod.ext (hdistinct _ _ _ _ _ _ h).2.1 (hdistinct _ _ _ _ _ _ h).2.2)
    have hrsrc : names.fork false did' name' ≠ names.fork true did (lastComponent path) := fun h =>
      Bool.false_ne_true (hdistinct _ _ _ _ _ _ h).1
    obtain ⟨hpresent, hcontent⟩ := @ensure_of_ne ι _ names sv did (lastComponent path) _ hrsrc hdata
    have hput : ((sv.ensure names did (lastComponent path)).put (file names path did)
        (File.pwrite ((sv.ensure names did (lastComponent path)).content (file names path did)) 0
          content)).content (names.fork false did' name') =
        sv.content (names.fork false did' name') := by
      rw [← hcontent]
      exact Function.update_of_ne hdata ..
    rw [Function.update_of_ne hplace, hpresent, hput]
    rfl

omit [DecidableEq ι] in
theorem Readable.mono {bound length : ℕ} (h : Readable volume path bound) (hle : length ≤ bound) :
    Readable volume path length :=
  ⟨h.spelled, h.room, Nat.lt_of_le_of_lt hle h.position⟩

/-- A bound is kept where something is put in that is not longer. -/
theorem bounded_update {κ : Type} [DecidableEq κ] {f : κ → Option (List UInt8)} {bound : ℕ}
    (h : ∀ k, ∀ content ∈ f k, content.length ≤ bound) (k : κ) {new : List UInt8}
    (hnew : new.length ≤ bound) :
    ∀ k', ∀ content ∈ Function.update f k (some new) k', content.length ≤ bound := by
  intro k' content hcontent
  by_cases hk : k' = k
  · rw [hk, Function.update_self, Option.mem_some_iff] at hcontent
    exact hcontent ▸ hnew
  · rw [Function.update_of_ne hk] at hcontent
    exact h k' content hcontent

/-- What is in the files, after one was written. -/
theorem contentAt_update (nodes : List CString → Option Node) (out : List CString)
    (content : List UInt8) :
    contentAt (Function.update nodes out (some (.file content))) =
      Function.update (contentAt nodes) out (some content) := by
  funext p
  by_cases hp : p = out
  · rw [hp, Function.update_self, contentAt, Function.update_self]
  · rw [Function.update_of_ne hp, contentAt, Function.update_of_ne hp, contentAt]

/-- The bound is kept. -/
theorem Files.Bounded.step {v v' : Files} {t : Job} {bound : ℕ} (h : v.Bounded bound)
    (hstep : v.step t = some v') : v'.Bounded bound := by
  obtain ⟨hremote, hdisk⟩ := h
  rw [Files.step] at hstep
  split at hstep
  · obtain ⟨content, hcontent, rfl⟩ := Option.map_eq_some_iff.mp hstep
    refine ⟨bounded_update hremote _ ?_, hdisk⟩
    have hlen := hdisk _ content hcontent
    have hold : ((v.remote (t.did, lastComponent t.path)).getD []).length ≤ bound := by
      cases hold : v.remote (t.did, lastComponent t.path) with
      | none => exact Nat.zero_le _
      | some old => exact hremote _ old hold
    rw [File.pwrite_zero, List.length_append, List.length_drop]
    omega
  · split at hstep
    · obtain ⟨content, hcontent, rfl⟩ := Option.map_eq_some_iff.mp hstep
      refine ⟨hremote, ?_⟩
      rw [contentAt_update]
      exact bounded_update hdisk _ (hremote _ content hcontent)
    · cases hstep

/-- What the code asks of the volume, where no file is longer than the bound. -/
structure Suits (volume : Volume) (names : Names ι) (bound fuel : ℕ) : Prop where
  distinct : Distinct names
  mapped : Mapped volume
  allowed : volumeIsReadonly volume = false
  quantum : 0 < volume.server.txQuantum.toNat
  room : headerLen volume + volume.server.txQuantum.toNat < 0x80000000
  rxRoom : BUF_SIZE ≤ volume.server.rxQuantum.toNat
  limit : bound < 0x80000000
  fuel : BUF_SIZE ≤ fuel ∧ bound + 1 < fuel

omit [DecidableEq ι] in
theorem Suits.readable {bound fuel length : ℕ} (h : Suits volume names bound fuel)
    (hspelled : Spelled volume path) (hle : length ≤ bound) : Readable volume path length where
  spelled := hspelled
  room := h.rxRoom
  position := by
    have hlimit := h.limit
    rw [positions]
    split <;> omega

/-- **One command does what it should.** -/
theorem attains_run {s : System ι} {v' : Files} {curdir : CString} {t : Job} {bound fuel : ℕ}
    (hsuits : Suits volume names bound fuel) (hfits : t.Fits volume names curdir)
    (hbound : (s.files names).Bounded bound) (hstep : (s.files names).step t = some v') :
    Prog.Attains (System.Answers names) (System.next names) (fun s' _ => s'.files names = v') s
      (t.run volume curdir fuel) := by
  obtain ⟨hpath, filename, hparsed, harg⟩ := hfits
  obtain ⟨hfuel, hfuel'⟩ := hsuits.fuel
  have hlimit := hsuits.limit
  rw [Files.step] at hstep
  rw [Job.run]
  split at hstep
  · rename_i hput
    rw [if_pos hput] at harg
    obtain ⟨rfl, hserver⟩ := harg
    obtain ⟨content, hlocal, rfl⟩ := Option.map_eq_some_iff.mp hstep
    have hlen := hbound.2 _ content hlocal
    have hlocal := contentAt_eq_some.mp hlocal
    rw [if_pos hput]
    refine Prog.Attains.bind (attains_comPut hpath
      ⟨hpath.spelled, hsuits.allowed, hsuits.quantum, hsuits.room⟩ hparsed hserver hlocal
      (by omega) hfuel (by omega)) fun s' ret h => ?_
    obtain ⟨rfl, -⟩ := h
    exact files_written hsuits.distinct t.did
  · rename_i hput
    rw [if_neg hput] at harg
    split at hstep
    case isFalse => cases hstep
    rename_i hlocal
    obtain ⟨content, hremote, rfl⟩ := Option.map_eq_some_iff.mp hstep
    have hlen := hbound.1 _ content hremote
    have hthere : s.server.present (file names t.path t.did) = true ∧
        s.server.content (file names t.path t.did) = content := by
      by_cases hpresent : s.server.present (file names t.path t.did) = true
      · exact ⟨hpresent, Option.some.inj ((if_pos hpresent).symm.trans hremote)⟩
      · exact absurd ((if_neg hpresent).symm.trans hremote) (by simp)
    obtain ⟨hpresent, rfl⟩ := hthere
    rw [if_neg hput]
    refine Prog.Attains.bind (attains_comGetFile hpath rfl hpresent hsuits.mapped
      (hsuits.readable hpath.spelled hlen) ⟨filename, hparsed, harg⟩ hlocal (by omega)) fun s' res h => ?_
    obtain ⟨rfl, -⟩ := h
    rfl

/-- **Every sequence of `get` and `put` does what it should**, whatever the pieces are in which the
files are read and written at both ends: a `get` makes a copy of the file, and a `put` writes over the
file that is there and leaves what is behind. -/
theorem run_refines {s : System ι} {curdir : CString} {ts : List Job} {bound fuel : ℕ} {v' : Files}
    (hsuits : Suits volume names bound fuel) (hfits : ∀ t ∈ ts, t.Fits volume names curdir)
    (hbound : (s.files names).Bounded bound)
    (hsteps : ts.foldlM Files.step (s.files names) = some v') :
    Prog.Attains (System.Answers names) (System.next names) (fun s' _ => s'.files names = v') s
      (run volume curdir fuel ts) := by
  induction ts generalizing s with
  | nil => exact Option.some.inj hsteps
  | cons t ts ih =>
    obtain ⟨ht, hts⟩ := List.forall_mem_cons.mp hfits
    obtain ⟨v, hstep, hrest⟩ := Option.bind_eq_some_iff.mp (List.foldlM_cons.symm.trans hsteps)
    have hbound' := hbound.step hstep
    refine (attains_run hsuits ht hbound hstep).bind fun s' _ h => ?_
    subst h
    exact ih hts hbound' hrest

end System

/-! ## A file that comes back -/

/-- A volume of a server for AFP 3.1, as the client connects to it. -/
def connected : Volume :=
  { Volume.plain with
    server := { Volume.plain.server with rxQuantum := 131072 }
    mapping := .loginids }

/-- A server without directories, where each name stands for forks of its own. -/
def flat : Names (Bool × UInt32 × CString) where
  tree _ _ := .error kFPObjectNotFound
  fork resource did name := (resource, did, name)

/-- `put a` and `get a`. -/
def jobs : List Job :=
  [⟨true, [0x61], [slash, 0x61], AFP_ROOT_DID, [0x61]⟩,
    ⟨false, [0x61], [slash, 0x61], AFP_ROOT_DID, [0x61]⟩]

/-- A file `a` of two bytes, and one of three bytes on the server. -/
def local2remote3 : System (Bool × UInt32 × CString) where
  server := ⟨fun i => i = (false, AFP_ROOT_DID, [0x61]), fun _ => [7, 8, 9], fun _ => none⟩
  disk :=
    { nodes p := if p = [] then some .directory else if p = [[0x61]] then some (.file [1, 2]) else none
      cwd := []
      fds _ := none }

theorem spelled_a : Spelled connected [slash, 0x61] where
  converted := rfl
  plain _ := rfl
  valid := by
    have hnone : Scan.strchr [slash, 0x61] 1 slash = none := rfl
    rw [invalidFilename, if_neg (by decide), if_neg (by decide), invalidFrom]
    split
    next => decide
    next heq => exact absurd (hnone.symm.trans heq) (by simp)

/-- The file on the server keeps its third byte, and comes back with it. -/
theorem run_refines_of_longer :
    Prog.Attains (System.Answers flat) (System.next flat)
      (fun s' _ => s'.files flat = ⟨Function.update (local2remote3.files flat).remote
          (AFP_ROOT_DID, lastComponent [slash, 0x61]) (some [1, 2, 9]),
        Function.update (local2remote3.files flat).disk [[0x61]] (some (.file [1, 2, 9])), []⟩)
      local2remote3 (run connected [slash] BUF_SIZE jobs) := by
  have hpath : PathTo connected flat [slash, 0x61] AFP_ROOT_DID :=
    ⟨spelled_a, by decide, rfl, ⟨by decide, by decide⟩, rfl⟩
  have hsuits : Suits connected flat 3 BUF_SIZE :=
    ⟨fun _ _ _ _ _ _ h => by simpa [flat] using h, fun _ _ => rfl, by decide, by decide, by decide,
      by decide, by decide, by decide, by decide⟩
  have hbound : (local2remote3.files flat).Bounded 3 := by
    refine ⟨fun place content hcontent => ?_, fun p content hcontent => ?_⟩
    · have hcontent : (if decide _ = true then some [7, 8, 9] else none) = some content := hcontent
      split at hcontent
      · exact Option.some.inj hcontent ▸ (by decide)
      · cases hcontent
    · have hnode : (if p = [] then some Node.directory
          else if p = [[0x61]] then some (.file [1, 2]) else none) = some (.file content) :=
        contentAt_eq_some.mp hcontent
      split at hnode
      · cases hnode
      · split at hnode <;> cases hnode
        decide
  refine run_refines hsuits ?_ hbound rfl
  refine List.forall_mem_cons.mpr ⟨⟨hpath, [0x61], by decide, by decide⟩, ?_⟩
  exact List.forall_mem_singleton.mpr ⟨hpath, [0x61], by decide, by decide⟩

end Transfer
end Cmdline
end Afpfs

import Afpfs.Lib.File
import Afpfs.Midlevel
import Afpfs.PathResolution
import Afpfs.Placement
import Mathlib.Logic.Function.Basic

/-!
# Files on a server

What the reads and writes of `afp_ml_read()` and `afp_ml_write()` come to when a server keeps the
contents of forks.  The server grants locks and takes what is written; a read it may answer with as
many bytes as it likes, as long as there are some, and it may report the end of the fork when it has
been reached.

The abstract file system has an array of bytes for each file, with `pread` and `pwrite` on it.  A
session is any number of reads and writes through any number of open files, where two of them may be
of one file.

* `attains_llRead`, `attains_llWrite`: what the two functions come to, however the data is cut into
  requests.
* `session_refines`: every session comes to what the abstract file system allows.
-/

set_option autoImplicit false

namespace Afpfs
namespace FileServer

open Interaction Unicode Codepage Placement Writing
open PathResolution hiding positions

/-! ## The server -/

/-- An effect with its answer. -/
abbrev Event := (e : Effect) × e.Answer

/-- The names that a server knows: the directories, and which forks the files in them have. -/
structure Names (ι : Type) where
  tree : Tree
  fork : Bool → UInt32 → CString → ι

/-- The forks of a server that are there, with their contents, and what the references of the open
ones stand for. -/
structure Server (ι : Type) where
  present : ι → Bool
  content : ι → List UInt8
  opened : UInt16 → Option ι

variable {ι : Type} [DecidableEq ι] {names : Names ι} {s : Server ι}

/-- The contents of a fork are replaced. -/
def Server.put (s : Server ι) (i : ι) (content : List UInt8) : Server ι :=
  { s with content := Function.update s.content i content }

/-- What a write request does that is accepted. -/
def Server.write (s : Server ι) (forkid : UInt16) (r : Request) : Server ι :=
  match s.opened forkid, placed r with
  | some i, some (position, bytes) => s.put i (File.pwrite (s.content i) position bytes)
  | _, _ => s

/-- A length is set that is accepted. -/
def Server.setLength (s : Server ι) (forkid : UInt16) (len : ℕ) : Server ι :=
  match s.opened forkid with
  | some i => s.put i (File.upTo (s.content i) len)
  | none => s

/-- An empty fork is there. -/
def Server.create (s : Server ι) (i : ι) : Server ι :=
  { s.put i [] with present := Function.update s.present i true }

/-- A file is there, and both of its forks are empty. -/
def Server.createFile (names : Names ι) (s : Server ι) (did : UInt32) (name : CString) : Server ι :=
  (s.create (names.fork true did name)).create (names.fork false did name)

/-- A reference stands for a fork, or for none. -/
def Server.refer (s : Server ι) (forkid : UInt16) (fork : Option ι) : Server ι :=
  { s with opened := Function.update s.opened forkid fork }

/-- The reply to a request for `count` bytes of an open fork from `offset` on: some of them if there
are some, or the end of the fork. -/
def ReadAnswer (content : List UInt8) (offset count : ℕ) (reply : Reply (List UInt8)) : Prop :=
  ∃ n ≤ count, reply.stored = some (File.pread content offset n) ∧
    (reply.rc = kFPNoErr ∧ (count = 0 ∨ File.pread content offset n ≠ []) ∨
      reply.rc = kFPEOFErr ∧ content.length ≤ offset + n)

/-- The reply to a read request: no more is sent than the client has room for. -/
def Server.Reads (s : Server ι) (forkid : UInt16) (offset count maxsize : ℕ)
    (reply : Reply (List UInt8)) : Prop :=
  match s.opened forkid with
  | some i => count ≤ maxsize → ReadAnswer (s.content i) offset count reply
  | none => reply.rc = kFPParamErr ∧ reply.stored = none

/-- The reply to a request to open a fork: a reference that is not in use, for a fork that is
there. -/
def Server.Opens (s : Server ι) (fork : ι) (reply : Reply UInt16) : Prop :=
  if s.present fork then
    reply.rc = kFPNoErr ∧ ∃ ref, reply.stored = some ref ∧ s.opened ref = none
  else reply.rc = kFPObjectNotFound ∧ reply.stored = none

/-- The reply to a lookup. -/
def Server.Finds (names : Names ι) (s : Server ι) (did : UInt32) (name : CString)
    (reply : Reply AfpFileInfo) : Prop :=
  match names.tree did name with
  | .ok node =>
    reply.rc = kFPNoErr ∧ ∃ fi, reply.stored = some fi ∧ fi.isdir = node.isdir ∧ fi.fileid = node.id
  | .error e =>
    if s.present (names.fork false did name) then
      reply.rc = kFPNoErr ∧ ∃ fi, reply.stored = some fi ∧ fi.isdir = false
    else reply.rc = e ∧ reply.stored = none

/-- What the server answers, and the cache of directory ids.  Files are created, and other changes of
the names are refused.  The rest is answered in any way. -/
def Answers (names : Names ι) (s : Server ι) : Event → Prop
  | ⟨.request (.read forkid offset count maxsize), reply⟩ =>
    s.Reads forkid offset.toNat count.toNat maxsize.toNat reply
  | ⟨.request (.readExt forkid offset count maxsize), reply⟩ =>
    s.Reads forkid offset.toNat count.toNat maxsize.toNat reply
  | ⟨.request (.write ..), reply⟩ => Reply.rc reply = kFPNoErr
  | ⟨.request (.writeExt ..), reply⟩ => Reply.rc reply = kFPNoErr
  | ⟨.request (.byteRangeLock ..), reply⟩ => Reply.rc reply = kFPNoErr
  | ⟨.request (.byteRangeLockExt ..), reply⟩ => Reply.rc reply = kFPNoErr
  | ⟨.request (.openFork resource did _ name), reply⟩ => s.Opens (names.fork resource did name) reply
  | ⟨.request (.closeFork forkid), reply⟩ => s.opened forkid ≠ none → Reply.rc reply = kFPNoErr
  | ⟨.request (.createFile _ did name), reply⟩ =>
    Reply.rc reply =
      if s.present (names.fork false did name) then kFPObjectExists else kFPNoErr
  | ⟨.request (.setFileParms ..), reply⟩ => Reply.rc reply = kFPNoErr
  | ⟨.request (.setDirParms ..), reply⟩ => Reply.rc reply = kFPNoErr
  | ⟨.request (.setFileDirParms ..), reply⟩ => Reply.rc reply = kFPNoErr
  | ⟨.request (.createDir ..), reply⟩ => Reply.rc reply ≠ kFPNoErr
  | ⟨.request (.delete ..), reply⟩ => Reply.rc reply ≠ kFPNoErr
  | ⟨.request (.moveAndRename ..), reply⟩ => Reply.rc reply ≠ kFPNoErr
  | ⟨.request (.getFileDirParms did _ _ name), reply⟩ =>
    s.Finds names did (requestedName name) reply
  | ⟨.findDirid path, did⟩ =>
    did = (0 : UInt32) ∨ descend names.tree AFP_ROOT_DID (Scan.components slash path) = some did
  | ⟨.malloc, handle⟩ => (handle : Option Handle) ≠ none
  | _ => True

/-- What becomes of the server. -/
def next (names : Names ι) (s : Server ι) : Event → Server ι
  | ⟨.request (.write forkid offset reqcount data), reply⟩ =>
    if Reply.rc reply = kFPNoErr then s.write forkid (.write forkid offset reqcount data) else s
  | ⟨.request (.writeExt forkid offset reqcount data), reply⟩ =>
    if Reply.rc reply = kFPNoErr then s.write forkid (.writeExt forkid offset reqcount data) else s
  | ⟨.request (.setForkParms forkid _ len), reply⟩ =>
    if Reply.rc reply = kFPNoErr then s.setLength forkid len.toNat else s
  | ⟨.request (.openFork resource did _ name), reply⟩ =>
    (Reply.stored reply).elim s fun ref => s.refer ref (some (names.fork resource did name))
  | ⟨.request (.closeFork forkid), reply⟩ =>
    if Reply.rc reply = kFPNoErr then s.refer forkid none else s
  | ⟨.request (.createFile _ did name), reply⟩ =>
    if Reply.rc reply = kFPNoErr then s.createFile names did name else s
  | _ => s

/-! ## The abstract file system -/

/-- A read of at most `size` bytes from `offset` on: what it returns, the bytes, and whether it
reports the end of the file. -/
structure Reads (content : List UInt8) (offset size : ℕ) (ret : ℤ) (bytes : List UInt8)
    (eof : Bool) : Prop where
  count : ret = bytes.length
  atMost : bytes.length ≤ size
  range : bytes = File.pread content offset bytes.length
  ended : eof = true → content.length ≤ offset + bytes.length
  progress : bytes = [] → size = 0 ∨ eof = true

/-! ## The messages -/

theorem patch_eq_pwrite (buf : List UInt8) (offset : ℕ) (bytes : List UInt8) :
    patch buf offset bytes = File.pwrite buf offset bytes := by
  rw [patch, File.pwrite, File.upTo, List.take_append, List.take_replicate, Nat.min_self]
  rfl

/-- A write fits: its messages have lengths that are `int`s, and its range has positions that can be
sent. -/
def WriteFits (volume : Volume) (offset : ℕ) (data : List UInt8) : Prop :=
  data = [] ∨ 0 < volume.server.txQuantum.toNat ∧
    headerLen volume + volume.server.txQuantum.toNat < 0x80000000 ∧
    offset + data.length ≤ positions volume

theorem placed_writeOf {volume : Volume} {offset : ℕ} {data : List UInt8} (forkid : UInt16) (n : ℕ)
    (hlen : headerLen volume + data.length < 0x80000000) (hpos : offset < positions volume) :
    placed (writeOf volume forkid offset n data) = some (offset, data) := by
  have hdelivered : delivered (headerLen volume) data = some data := by
    rcases delivered_cases (headerLen_lt volume) data with ⟨-, hsome⟩ | ⟨hlong, -⟩
    · exact hsome
    · exact absurd hlen (Nat.not_lt.mpr hlong)
  rw [headerLen] at hdelivered
  rw [positions] at hpos
  rw [writeOf]
  by_cases hold : volume.server.avNumber < 30
  · rw [if_pos hold] at hdelivered hpos ⊢
    rw [placed, hdelivered, Option.map_some, UInt32.toNat_ofNat', Nat.mod_eq_of_lt hpos]
  · rw [if_neg hold] at hdelivered hpos ⊢
    rw [placed, hdelivered, Option.map_some, UInt64.toNat_ofNat', Nat.mod_eq_of_lt hpos]

@[simp] theorem opened_put (i : ι) (content : List UInt8) : (s.put i content).opened = s.opened := rfl

@[simp] theorem content_put (i : ι) (content : List UInt8) : (s.put i content).content i = content :=
  Function.update_self ..

@[simp] theorem put_put (i : ι) (content content' : List UInt8) :
    (s.put i content).put i content' = s.put i content' := by
  rw [Server.put, Server.put, Server.put]
  exact congrArg (Server.mk s.present · s.opened) (Function.update_idem ..)

@[simp] theorem put_self (i : ι) : s.put i (s.content i) = s := by
  rw [Server.put, Function.update_eq_self]

omit [DecidableEq ι] in
@[simp] theorem opened_refer {ref : UInt16} {fork : Option ι} : (s.refer ref fork).opened ref = fork :=
  Function.update_self ..

omit [DecidableEq ι] in
/-- A reference that was not in use is given back. -/
theorem refer_refer {ref : UInt16} (h : s.opened ref = none) (fork : Option ι) :
    (s.refer ref fork).refer ref none = s := by
  rw [Server.refer, Server.refer, Function.update_idem, ← h, Function.update_eq_self]

/-! ## Locks -/

section DataPath

variable {volume : Volume} {forkid : UInt16} {i : ι} {offset : ℕ}

/-- A lock or an unlock is granted, and that is all. -/
theorem attains_byteRangeLock (unlock : Bool) (size : ℕ) :
    Prog.Attains (Answers names) (next names) (fun s' rc => s' = s ∧ rc = kFPNoErr) s
      (byteRangeLock volume unlock forkid offset size) := by
  rw [byteRangeLock]
  exact Prog.attains_ite (fun _ reply hreply => ⟨rfl, hreply⟩) fun _ reply hreply => ⟨rfl, hreply⟩

theorem attains_llHandleLocking (size : ℕ) :
    Prog.Attains (Answers names) (next names) (fun s' ret => s' = s ∧ ret = 0) s
      (llHandleLocking volume forkid offset size) := by
  rw [llHandleLocking]
  refine Prog.attains_ite (fun _ => ⟨rfl, rfl⟩) fun _ => ?_
  refine (attains_byteRangeLock false size).bind fun s' rc h => ?_
  obtain ⟨rfl, rfl⟩ := h
  rw [if_pos rfl]
  exact ⟨rfl, rfl⟩

theorem attains_llHandleUnlocking (size : ℕ) :
    Prog.Attains (Answers names) (next names) (fun s' ret => s' = s ∧ ret = 0) s
      (llHandleUnlocking volume forkid offset size) := by
  rw [llHandleUnlocking]
  refine Prog.attains_ite (fun _ => ⟨rfl, rfl⟩) fun _ => ?_
  refine (attains_byteRangeLock true size).bind fun s' rc h => ?_
  obtain ⟨rfl, rfl⟩ := h
  rw [if_pos rfl]
  exact ⟨rfl, rfl⟩

/-! ## Reading -/

omit [DecidableEq ι] in
theorem Server.Reads.answer {size maxsize : ℕ} {reply : Reply (List UInt8)}
    (h : s.Reads forkid offset size maxsize reply) (hopen : s.opened forkid = some i)
    (hsize : size ≤ maxsize) : ReadAnswer (s.content i) offset size reply := by
  rw [Server.Reads, hopen] at h
  exact h hsize

/-- A read request comes to a reply of the server. -/
theorem attains_readRequest (hopen : s.opened forkid = some i) {size : ℕ} {maxsize : UInt32}
    (hsize : size ≤ maxsize.toNat) (hpos : offset < positions volume) :
    Prog.Attains (Answers names) (next names)
      (fun s' reply => s' = s ∧ ReadAnswer (s.content i) offset size reply) s
      (readRequest volume forkid offset size maxsize) := by
  have hlt : size < 4294967296 := Nat.lt_of_le_of_lt hsize maxsize.toNat_lt
  rw [positions] at hpos
  rw [readRequest]
  refine Prog.attains_ite (fun hold reply hreply => ⟨rfl, ?_⟩) fun hold reply hreply => ⟨rfl, ?_⟩
  · rw [if_pos hold] at hpos
    have hanswer : s.Reads forkid (UInt32.ofNat offset).toNat (UInt32.ofNat size).toNat
        maxsize.toNat reply := hreply
    rw [UInt32.toNat_ofNat', UInt32.toNat_ofNat', Nat.mod_eq_of_lt hpos,
      Nat.mod_eq_of_lt hlt] at hanswer
    exact hanswer.answer hopen hsize
  · rw [if_neg hold] at hpos
    have hanswer : s.Reads forkid (UInt64.ofNat offset).toNat (UInt64.ofNat size).toNat
        maxsize.toNat reply := hreply
    rw [UInt64.toNat_ofNat', UInt64.toNat_ofNat', Nat.mod_eq_of_lt hpos,
      Nat.mod_eq_of_lt (by omega : size < 2 ^ 64)] at hanswer
    exact hanswer.answer hopen hsize

/-- The result of a read that is answered is none of the errors that `ll_read()` knows. -/
theorem ReadAnswer.rc_ne {content : List UInt8} {size : ℕ} {reply : Reply (List UInt8)}
    (h : ReadAnswer content offset size reply) :
    reply.rc ≠ kFPAccessDenied ∧ reply.rc ≠ kFPLockErr ∧ reply.rc ≠ kFPMiscErr ∧
      reply.rc ≠ kFPParamErr := by
  obtain ⟨n, -, -, hcase⟩ := h
  have hrc : reply.rc = kFPNoErr ∨ reply.rc = kFPEOFErr := hcase.imp And.left And.left
  rcases hrc with hrc | hrc <;> rw [hrc] <;> decide

/-- What a reply to a read request comes to. -/
theorem ReadAnswer.reads {content : List UInt8} {size : ℕ} {reply : Reply (List UInt8)}
    (h : ReadAnswer content offset size reply) :
    Reads content offset size (reply.stored.getD []).length (reply.stored.getD [])
      (reply.rc = kFPEOFErr) := by
  obtain ⟨n, hn, hstored, hcase⟩ := h
  have hlen := File.length_pread content offset n
  rw [hstored, Option.getD_some]
  refine ⟨rfl, by omega, ?_, fun heof => ?_, fun hnil => ?_⟩
  · rw [hlen]
    by_cases hle : n ≤ content.length - offset
    · rw [Nat.min_eq_left hle]
    · rw [Nat.min_eq_right (by omega)]
      exact (File.pread_eq_of_length_le (by omega) (by omega)).symm
  · rcases hcase with ⟨hrc, -⟩ | ⟨-, hend⟩
    · exact absurd (hrc.symm.trans (of_decide_eq_true heof)) (by decide)
    · omega
  · rcases hcase with ⟨-, hsome⟩ | ⟨hrc, -⟩
    · exact .inl (hsome.resolve_right fun hne => hne hnil)
    · exact .inr (decide_eq_true hrc)

/-- **`ll_read()` is a read of the fork.** -/
theorem attains_llRead (hopen : s.opened forkid = some i) {size : ℕ}
    (hsize : size ≤ volume.server.rxQuantum.toNat) (hpos : offset < positions volume) :
    Prog.Attains (Answers names) (next names)
      (fun s' res => s' = s ∧ Reads (s.content i) offset size res.1 res.2.1 res.2.2) s
      (llRead volume size offset forkid) := by
  have hlt := volume.server.rxQuantum.toNat_lt
  rw [llRead]
  refine (attains_llHandleLocking size).bind fun s' locked h => ?_
  obtain ⟨rfl, rfl⟩ := h
  rw [if_neg (not_not.mpr rfl), if_neg (Nat.not_lt.mpr hsize)]
  have hmax : (UInt32.ofNat size).toNat = size :=
    UInt32.toNat_ofNat_of_lt' (Nat.lt_of_le_of_lt hsize hlt)
  refine (attains_readRequest hopen hmax.ge hpos).bind fun s' reply h => ?_
  obtain ⟨rfl, hanswer⟩ := h
  refine (attains_llHandleUnlocking size).bind fun s' unlocked h => ?_
  obtain ⟨rfl, rfl⟩ := h
  rw [if_neg (not_not.mpr rfl)]
  obtain ⟨h₁, h₂, h₃, h₄⟩ := hanswer.rc_ne
  rw [if_neg h₁, if_neg h₂, if_neg (not_or.mpr ⟨h₃, h₄⟩)]
  exact ⟨rfl, hanswer.reads⟩

/-! ## Writing -/

/-- A write request puts its data in place. -/
theorem attains_writeRequest (hopen : s.opened forkid = some i) {data : List UInt8}
    (hlen : headerLen volume + data.length < 0x80000000) (hpos : offset < positions volume) (n : ℕ) :
    Prog.Attains (Answers names) (next names)
      (fun s' _ => s' = s.put i (File.pwrite (s.content i) offset data)) s
      (writeRequest volume forkid offset n data) := by
  have hplaced := placed_writeOf forkid n hlen hpos
  rw [writeOf] at hplaced
  have hwrite : ∀ r, placed r = some (offset, data) →
      s.write forkid r = s.put i (File.pwrite (s.content i) offset data) := by
    intro r hr
    rw [Server.write, hopen, hr]
  rw [writeRequest]
  refine Prog.attains_ite (fun hold reply hreply => ?_) fun hold reply hreply => ?_
  · rw [if_pos hold] at hplaced
    have hrc : Reply.rc reply = kFPNoErr := hreply
    exact (if_pos hrc).trans (hwrite _ hplaced)
  · rw [if_neg hold] at hplaced
    have hrc : Reply.rc reply = kFPNoErr := hreply
    exact (if_pos hrc).trans (hwrite _ hplaced)

/-- A round of the loop of `ll_write()`. -/
theorem writeLoop_of_lt {data : List UInt8} {o fuel : ℕ} (hlt : o < data.length) :
    writeLoop volume data offset forkid (fuel + 1) o o =
      (writeRequest volume forkid (offset + o)
        (min (data.length - o) volume.server.txQuantum.toNat)
        ((data.drop o).take (min (data.length - o) volume.server.txQuantum.toNat)) >>= fun _ =>
      writeLoop volume data offset forkid fuel
        (o + min (data.length - o) volume.server.txQuantum.toNat)
        (o + min (data.length - o) volume.server.txQuantum.toNat)) := by
  have hmin : (if data.length - o < volume.server.txQuantum.toNat then data.length - o
      else volume.server.txQuantum.toNat) = min (data.length - o) volume.server.txQuantum.toNat := by
    rw [Nat.min_def]
    split <;> split <;> omega
  rw [writeLoop, if_pos hlt]
  simp only [hmin]
  rfl

theorem length_piece_at {q o : ℕ} {data : List UInt8} :
    ((data.drop o).take (min (data.length - o) q)).length = min (data.length - o) q := by
  rw [List.length_take, List.length_drop]
  omega

/-- What has been written so far and the next piece are what has been written then. -/
theorem pwrite_piece {content data : List UInt8} {o n : ℕ} (ho : o ≤ data.length) :
    File.pwrite (File.pwrite content offset (data.take o)) (offset + o) ((data.drop o).take n) =
      File.pwrite content offset (data.take (o + n)) := by
  rw [List.take_add, File.pwrite_append, List.length_take, Nat.min_eq_left ho]

/-- **The loop of `ll_write()`** goes on where the data that has been written ends. -/
theorem attains_writeLoop (hopen : s.opened forkid = some i) {data : List UInt8}
    (hfits : WriteFits volume offset data) (fuel : ℕ) {o : ℕ} (ho : o ≤ data.length)
    (hfuel : data.length ≤ fuel + o) :
    Prog.Attains (Answers names) (next names)
      (fun s' res => s' = s.put i (File.pwrite (s.content i) offset data) ∧ res = (0, data.length))
      (s.put i (File.pwrite (s.content i) offset (data.take o)))
      (writeLoop volume data offset forkid fuel o o) := by
  induction fuel generalizing o with
  | zero =>
    obtain rfl : o = data.length := by omega
    rw [writeLoop, if_neg (lt_irrefl _), List.take_length]
    exact ⟨rfl, rfl⟩
  | succ fuel ih =>
    by_cases hlt : o < data.length
    swap
    · obtain rfl : o = data.length := by omega
      rw [writeLoop, if_neg hlt, List.take_length]
      exact ⟨rfl, rfl⟩
    have hne : data ≠ [] := fun hnil => by simp [hnil] at hlt
    obtain ⟨hq, hlen, hpos⟩ := hfits.resolve_left hne
    have hpiece := @length_piece_at volume.server.txQuantum.toNat o data
    rw [writeLoop_of_lt hlt]
    refine (attains_writeRequest (s := s.put i _) hopen ?_ ?_ _).bind fun s' _ hs' => ?_
    · rw [hpiece]
      omega
    · omega
    · rw [hs', put_put, content_put, pwrite_piece ho]
      exact ih (by omega) (by omega)

/-- **`ll_write()` is a write to the fork.** -/
theorem attains_llWrite (hopen : s.opened forkid = some i) {data : List UInt8}
    (hfits : WriteFits volume offset data) {fuel : ℕ} (hfuel : data.length ≤ fuel) :
    Prog.Attains (Answers names) (next names)
      (fun s' res => s' = s.put i (File.pwrite (s.content i) offset data) ∧ res = (0, data.length)) s
      (llWrite volume data offset forkid fuel) := by
  rw [llWrite]
  refine (attains_llHandleLocking data.length).bind fun s' locked h => ?_
  obtain ⟨rfl, rfl⟩ := h
  rw [if_neg (not_not.mpr rfl)]
  have hloop := @attains_writeLoop ι _ names _ volume forkid i offset hopen data hfits fuel 0
    (Nat.zero_le _) (by omega)
  rw [List.take_zero, File.pwrite_nil, put_self] at hloop
  refine hloop.bind fun s'' res h => ?_
  obtain ⟨rfl, rfl⟩ := h
  show Prog.Attains _ _ _ _ (if (0 : ℤ) ≠ 0 then _ else _)
  rw [if_neg (not_not.mpr rfl)]
  refine (attains_llHandleUnlocking data.length).bind fun s'' unlocked h => ?_
  obtain ⟨rfl, rfl⟩ := h
  rw [if_neg (not_not.mpr rfl)]
  exact ⟨rfl, rfl⟩

/-! ## The middle level -/

/-- A read of an ordinary file: its range, and room for it. -/
structure ReadFits (volume : Volume) (path : CString) (offset size : ℕ) : Prop where
  path : ∃ converted, convertPathToAfp volume.server.pathEncoding path AFP_MAX_PATH =
    some (0, converted)
  room : size ≤ volume.server.rxQuantum.toNat
  position : offset < positions volume

/-- **`afp_ml_read()` is a read of the file.** -/
theorem attains_afpMlRead {fp : AfpFileInfo} (hopen : s.opened fp.forkid = some i)
    (hplain : fp.resource = .none) {path : CString} {buf : List UInt8}
    (hfits : ReadFits volume path offset buf.length) :
    Prog.Attains (Answers names) (next names)
      (fun s' res => s' = s ∧ res.fp = fp ∧
        ∃ bytes, Reads (s.content i) offset buf.length res.ret bytes res.eof ∧
          res.buf = File.pwrite buf 0 bytes) s
      (afpMlRead volume path buf offset fp) := by
  obtain ⟨converted, hconvert⟩ := hfits.path
  rw [afpMlRead, hconvert, ofOption_some_bind]
  simp only [hplain, ne_eq, not_true_eq_false, if_false, false_and, Prog.pure_eq, Prog.done_bind,
    lt_self_iff_false]
  refine (attains_llRead hopen hfits.room hfits.position).bind fun s' res h => ?_
  obtain ⟨rfl, hreads⟩ := h
  exact ⟨rfl, rfl, res.2.1, hreads, patch_eq_pwrite buf 0 res.2.1⟩

/-- A write to an ordinary file is not refused by the client. -/
structure WriteAllowed (volume : Volume) (path : CString) (offset : ℕ) (data : List UInt8) : Prop
    where
  path : ∃ converted, convertPathToAfp volume.server.pathEncoding path AFP_MAX_PATH =
    some (0, converted)
  writable : volumeIsReadonly volume = false
  size : volume.server.avNumber < 30 → data.length ≤ AFP_MAX_AFP2_FILESIZE
  fits : WriteFits volume offset data

/-- **`afp_ml_write()` is a write to the file.** -/
theorem attains_afpMlWrite {fp : AfpFileInfo} (hopen : s.opened fp.forkid = some i)
    (hplain : fp.resource = .none) {path : CString} {data : List UInt8}
    (hallowed : WriteAllowed volume path offset data) (uid gid : UInt32) {fuel : ℕ}
    (hfuel : data.length ≤ fuel) :
    Prog.Attains (Answers names) (next names)
      (fun s' res => s' = s.put i (File.pwrite (s.content i) offset data) ∧
        res.1 = (data.length : ℤ) ∧ res.2.forkid = fp.forkid ∧ res.2.resource = .none) s
      (afpMlWrite volume path data offset fp uid gid fuel) := by
  obtain ⟨converted, hconvert⟩ := hallowed.path
  have hsize : ¬(volume.server.avNumber < 30 ∧ AFP_MAX_AFP2_FILESIZE < data.length) := fun h =>
    Nat.not_lt.mpr (hallowed.size h.1) h.2
  have hdouble : appledoubleWrite volume fp data offset 0 fuel = pure (0, 0, fp) := by
    rw [appledoubleWrite, hplain]
  -- the structure is changed before the data is written, but not in what matters here
  have hwrite : ∀ fp' : AfpFileInfo, fp'.forkid = fp.forkid → fp'.resource = .none →
      Prog.Attains (Answers names) (next names)
        (fun s' res => s' = s.put i (File.pwrite (s.content i) offset data) ∧
          res.1 = (data.length : ℤ) ∧ res.2.forkid = fp.forkid ∧ res.2.resource = .none) s
        (llWrite volume data offset fp'.forkid fuel >>= fun res =>
          if res.1 < 0 then pure (res.1, fp') else pure ((res.2 : ℤ), fp')) := by
    intro fp' hforkid hresource
    rw [hforkid]
    refine (attains_llWrite hopen hallowed.fits hfuel).bind fun s' res h => ?_
    obtain ⟨rfl, rfl⟩ := h
    exact ⟨rfl, rfl, hforkid, hresource⟩
  rw [afpMlWrite, if_neg hsize, hconvert, ofOption_some_bind]
  simp only [ne_eq, not_true_eq_false, if_false, hallowed.writable, Bool.false_eq_true, hdouble]
  cases hunix : volume.has VOLUME_EXTRA_FLAGS_VOL_SUPPORTS_UNIX with
  | false => exact fun now _ => hwrite { fp with modificationDate := now } rfl hplain
  | true =>
    exact fun now _ => hwrite { fp with
      modificationDate := now
      unixprivs := { fp.unixprivs with
        uid := (translateUidgidToServer volume uid gid).2.1
        gid := (translateUidgidToServer volume uid gid).2.2
        permissions := .ofNat 0o100644 } } rfl hplain

end DataPath

/-! ## Sessions -/

section Sessions

variable {κ : Type} [DecidableEq κ] {volume : Volume} {file : κ → ι} {path : κ → CString} {fuel : ℕ}

/-- An open file of a client. -/
structure OpenFile where
  path : CString
  fp : AfpFileInfo

/-- A read or a write through an open file. -/
inductive Op (κ : Type) where
  | read (h : κ) (offset : ℕ) (buf : List UInt8)
  | write (h : κ) (offset : ℕ) (data : List UInt8) (uid gid : UInt32)

/-- What it comes to. -/
inductive Outcome where
  | read (ret : ℤ) (buf : List UInt8) (eof : Bool)
  | written (ret : ℤ)

/-- An operation, with what it does to the structure of the open file. -/
def Op.run (volume : Volume) (fuel : ℕ) (files : κ → OpenFile) :
    Op κ → AfpM (Outcome × (κ → OpenFile))
  | .read h offset buf => do
    let res ← afpMlRead volume (files h).path buf offset (files h).fp
    return (.read res.ret res.buf res.eof, Function.update files h { files h with fp := res.fp })
  | .write h offset data uid gid => do
    let (ret, fp) ← afpMlWrite volume (files h).path data offset (files h).fp uid gid fuel
    return (.written ret, Function.update files h { files h with fp := fp })

/-- One operation after the other. -/
def session (volume : Volume) (fuel : ℕ) : List (Op κ) → (κ → OpenFile) → AfpM (List Outcome)
  | [], _ => return []
  | op :: ops, files => do
    let (outcome, files) ← op.run volume fuel files
    let outcomes ← session volume fuel ops files
    return outcome :: outcomes

/-- What an operation does to the contents of the files, and what it comes to. -/
def Op.Does (file : κ → ι) (content : ι → List UInt8) :
    Op κ → Outcome → (ι → List UInt8) → Prop
  | .read h offset buf, .read ret buf' eof, content' =>
    content' = content ∧
      ∃ bytes, Reads (content (file h)) offset buf.length ret bytes eof ∧
        buf' = File.pwrite buf 0 bytes
  | .write h offset data _ _, .written ret, content' =>
    ret = data.length ∧ content' =
      Function.update content (file h) (File.pwrite (content (file h)) offset data)
  | _, _, _ => False

/-- What a session does to the contents of the files, and what its operations come to. -/
inductive Runs (file : κ → ι) :
    (ι → List UInt8) → List (Op κ) → List Outcome → (ι → List UInt8) → Prop
  | nil (content : ι → List UInt8) : Runs file content [] [] content
  | cons {content content' content'' : ι → List UInt8} {op : Op κ} {outcome : Outcome}
      {ops : List (Op κ)} {outcomes : List Outcome} :
      op.Does file content outcome content' → Runs file content' ops outcomes content'' →
      Runs file content (op :: ops) (outcome :: outcomes) content''

/-- What the code asks of an operation, which the client and the protocol limit. -/
def Op.Fits (volume : Volume) (path : κ → CString) (fuel : ℕ) : Op κ → Prop
  | .read h offset buf => ReadFits volume (path h) offset buf.length
  | .write h offset data _ _ => WriteAllowed volume (path h) offset data ∧ data.length ≤ fuel

/-- The open files of the client are open on the server. -/
structure Ready (path : κ → CString) (file : κ → ι) (files : κ → OpenFile) (s : Server ι) : Prop where
  path : ∀ h, (files h).path = path h
  opened : ∀ h, s.opened (files h).fp.forkid = some (file h)
  plain : ∀ h, (files h).fp.resource = .none

omit [DecidableEq ι] in
/-- Another structure for an open file, of the same fork. -/
theorem Ready.update {files : κ → OpenFile} (hready : Ready path file files s) {h : κ}
    {fp : AfpFileInfo} (hforkid : fp.forkid = (files h).fp.forkid) (hplain : fp.resource = .none)
    {s' : Server ι} (hopened : s'.opened = s.opened) :
    Ready path file (Function.update files h { files h with fp := fp }) s' := by
  refine ⟨fun k => ?_, fun k => ?_, fun k => ?_⟩ <;> by_cases hk : k = h
  · subst hk
    rw [Function.update_self]
    exact hready.path k
  · rw [Function.update_of_ne hk]
    exact hready.path k
  · subst hk
    rw [Function.update_self, hopened, hforkid]
    exact hready.opened k
  · rw [Function.update_of_ne hk, hopened]
    exact hready.opened k
  · subst hk
    rw [Function.update_self]
    exact hplain
  · rw [Function.update_of_ne hk]
    exact hready.plain k

/-- An operation does what the abstract one does. -/
theorem attains_run {files : κ → OpenFile} (hready : Ready path file files s) {op : Op κ}
    (hfits : op.Fits volume path fuel) :
    Prog.Attains (Answers names) (next names)
      (fun s' res => op.Does file s.content res.1 s'.content ∧ Ready path file res.2 s') s
      (op.run volume fuel files) := by
  cases op with
  | read h offset buf =>
    have hpath : ReadFits volume (files h).path offset buf.length := hready.path h ▸ hfits
    refine (attains_afpMlRead (hready.opened h) (hready.plain h) hpath).bind fun s' res hres => ?_
    obtain ⟨rfl, hfp, hreads⟩ := hres
    exact ⟨⟨rfl, hreads⟩, hready.update (congrArg _ hfp) (hfp ▸ hready.plain h) rfl⟩
  | write h offset data uid gid =>
    have hpath : WriteAllowed volume (files h).path offset data := hready.path h ▸ hfits.1
    refine (attains_afpMlWrite (hready.opened h) (hready.plain h) hpath uid gid hfits.2).bind
      fun s' res hres => ?_
    obtain ⟨rfl, hret, hforkid, hplain⟩ := hres
    exact ⟨⟨hret, rfl⟩, hready.update hforkid hplain rfl⟩

/-- **Every session comes to what the abstract file system allows**: it ends, and the contents of the
files and all that the reads and writes return are those of `pread` and `pwrite`, one operation
after the other, however the data was cut into requests and the replies were cut short. -/
theorem session_refines {files : κ → OpenFile} (hready : Ready path file files s) {ops : List (Op κ)}
    (hfits : ∀ op ∈ ops, op.Fits volume path fuel) :
    Prog.Attains (Answers names) (next names)
      (fun s' outcomes => Runs file s.content ops outcomes s'.content) s
      (session volume fuel ops files) := by
  induction ops generalizing s files with
  | nil => exact .nil s.content
  | cons op ops ih =>
    obtain ⟨hop, hops⟩ := List.forall_mem_cons.mp hfits
    refine (attains_run hready hop).bind fun s' res hres => ?_
    obtain ⟨hdoes, hready'⟩ := hres
    refine (ih hready' hops).bind fun s'' outcomes hruns => ?_
    exact .cons hdoes hruns

/-- A file that two handles have open, on a server for AFP 3.1. -/
theorem session_refines_of_two : Prog.Attains
    (Answers (ι := Unit) ⟨fun _ _ => .error kFPObjectNotFound, fun _ _ _ => ()⟩)
    (next ⟨fun _ _ => .error kFPObjectNotFound, fun _ _ _ => ()⟩)
    (fun s' outcomes => Runs (fun _ : Bool => ()) (fun _ => [9])
      [.write true 3 [1, 2] 0 0, .read false 0 [0, 0]] outcomes s'.content)
    ⟨fun _ => true, fun _ => [9], fun _ => some ()⟩
    (session Volume.plain 2 [.write true 3 [1, 2] 0 0, .read false 0 [0, 0]]
      fun _ => ⟨[slash, 0x61], .zero⟩) := by
  have hpath : ∃ converted, convertPathToAfp Volume.plain.server.pathEncoding [slash, 0x61]
      AFP_MAX_PATH = some (0, converted) := ⟨[slash, 0x61], by decide⟩
  have hready : Ready (fun _ : Bool => [slash, 0x61]) (fun _ => ())
      (fun _ => ⟨[slash, 0x61], .zero⟩) ⟨fun _ => true, fun _ => [9], fun _ => some ()⟩ :=
    ⟨fun _ => rfl, fun _ => rfl, fun _ => rfl⟩
  have hwrite : Op.Fits Volume.plain (fun _ : Bool => [slash, 0x61]) 2 (.write true 3 [1, 2] 0 0) :=
    ⟨⟨hpath, by decide, fun _ => by decide, .inr ⟨by decide, by decide, by decide⟩⟩, le_rfl⟩
  have hread : Op.Fits Volume.plain (fun _ : Bool => [slash, 0x61]) 2 (.read false 0 [0, 0]) :=
    ⟨hpath, by decide, by decide⟩
  exact session_refines hready (List.forall_mem_cons.mpr ⟨hwrite, List.forall_mem_singleton.mpr hread⟩)

end Sessions

end FileServer
end Afpfs

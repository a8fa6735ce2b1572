import Afpfs.Midlevel
import Afpfs.Locking

/-!
# Reading the virtual files

`appledouble_read()` serves four kinds of files in one `switch`.  The cases differ in what they do
with the offset and when they report the end of the file, and the case of the Finder info runs into
the one of the comment.  `afp_ml_read()` takes the result 1 for a read that is done and any other
result that is not negative for one that is still to be done.

A server has some contents for a virtual file, and answers what it is asked with it or with one of the
errors of the protocol (`Serves`).

* `pread_iff`: for each kind, offset and size, whether every read that succeeds returns what `pread()`
  would, and why successive ranges then make up the contents.
* `second_half_of_a_comment`: a comment that is read from the middle.
-/

set_option autoImplicit false

namespace Afpfs
namespace MetadataRead

open Interaction Unicode Codepage Locking

/-! ## What is expected -/

/-- What a read leaves is what `pread()` would leave: the bytes of the range, nothing outside of the
buffer, and the end of the file only where it is. -/
structure Pread (C : List UInt8) (offset size : ℕ) (res : ReadResult) : Prop where
  count : res.ret = ((C.drop offset).take size).length
  bytes : res.buf.take res.ret.toNat = (C.drop offset).take size
  inside : res.buf.length = size
  eof : res.eof = true → C.length ≤ offset + res.ret.toNat

/-- The reply to a read request of a fork with some contents. -/
def ServesRead (C : List UInt8) (offset count maxsize : ℕ) (reply : Reply (List UInt8)) : Prop :=
  reply.rc = kFPAccessDenied ∨ reply.rc = kFPLockErr ∨ reply.rc = kFPMiscErr ∨
    reply.rc = kFPParamErr ∨
    (reply.rc = kFPNoErr ∨ reply.rc = kFPEOFErr ∧ C.length ≤ offset + min count maxsize) ∧
      reply.stored = some ((C.drop offset).take (min count maxsize))

/-- The reply to a request for a comment.  What it is known to be if the file is not a comment is only
that it fits. -/
def ServesComment (kind : AfpMeta) (C : List UInt8) (maxsize : ℕ) (reply : Reply (List UInt8)) :
    Prop :=
  reply.rc = kFPAccessDenied ∨ reply.rc = kFPMiscErr ∨ reply.rc = kFPParamErr ∨
    reply.rc = kFPItemNotFound ∨ reply.rc = kFPObjectNotFound ∨
    reply.rc = kFPNoErr ∧ ∃ text, reply.stored = some text ∧ text.length ≤ maxsize ∧
      (kind = .comment → text = C.take maxsize)

/-- The reply to a request for the Finder info. -/
def ServesFinderinfo (C : List UInt8) (reply : Reply AfpFileInfo) : Prop :=
  reply.rc < 0 ∨ reply.rc = kFPNoErr ∧ ∃ isdir,
    reply.stored = some { AfpFileInfo.zero with isdir := isdir, finderinfo := C }

/-- The server has the contents `C` for a file of some kind. -/
def Serves (kind : AfpMeta) (C : List UInt8) : (e : Effect) × e.Answer → Prop
  | ⟨.request (.read _ offset count maxsize), reply⟩ =>
    ServesRead C offset.toNat count.toNat maxsize.toNat reply
  | ⟨.request (.readExt _ offset count maxsize), reply⟩ =>
    ServesRead C offset.toNat count.toNat maxsize.toNat reply
  | ⟨.request (.getComment _ _ maxsize), reply⟩ => ServesComment kind C maxsize.toNat reply
  | ⟨.request (.getFileDirParms ..), reply⟩ => ServesFinderinfo C reply
  | _ => True

/-- The contents are those of a file of this kind. -/
def Contents (volume : Volume) (C : List UInt8) : AfpMeta → Prop
  | .finderinfo => C.length = 32
  | .serverIcon => C = volume.server.icon ∧ C.length = 256
  | .comment => True
  | .resource => True
  | _ => False

/-- Every read that succeeds is a `pread()`. -/
def Correct (volume : Volume) (path : CString) (kind : AfpMeta) (C : List UInt8) (fp : AfpFileInfo)
    (offset size : ℕ) : Prop :=
  ∀ buf : List UInt8, buf.length = size →
    Prog.Ensures (Serves kind C) (fun res => 0 ≤ res.ret → Pread C offset size res)
      (afpMlRead volume path buf offset fp)

/-! ## When it is so -/

/-- A number in a read request, which has 32 bits in AFP 2. -/
def cut (volume : Volume) (n : ℕ) : ℕ :=
  if volume.server.avNumber < 30 then n % 0x100000000 else n % 0x10000000000000000

/-- The part of the contents that a read request asks for. -/
def asked (volume : Volume) (C : List UInt8) (offset size : ℕ) : List UInt8 :=
  (C.drop (cut volume offset)).take (min (cut volume size) (min volume.server.rxQuantum.toNat size))

/-- The case that goes right for a kind, given whether the comment has been read before. -/
def Meets (volume : Volume) (C : List UInt8) (eof : Bool) (offset size : ℕ) : AfpMeta → Prop
  | .resource =>
    (if (asked volume C offset size).length = 1 then [] else asked volume C offset size) =
      (C.drop offset).take size
  | .comment =>
    if eof then (C.drop offset).take size = []
    else C.take (size % 0x100000000) = (C.drop offset).take size ∧
      C.length ≤ offset + ((C.drop offset).take size).length
  | .finderinfo => 32 < offset ∨ offset = 32 ∧ size % 0x100000000 = 0
  | .serverIcon => 256 ≤ offset ∨ offset = 0 ∧ 256 ≤ size
  | _ => False

/-! ## Buffers -/

theorem patch_nil (buf : List UInt8) (offset : ℕ) : patch buf offset [] = buf := if_pos rfl

theorem patch_zero (buf bytes : List UInt8) : patch buf 0 bytes = bytes ++ buf.drop bytes.length := by
  rw [patch]
  split
  next h => rw [h]; rfl
  next => rw [List.take_zero, List.nil_append, Nat.zero_add]

theorem length_patch_zero {buf bytes : List UInt8} (h : bytes.length ≤ buf.length) :
    (patch buf 0 bytes).length = buf.length := by
  rw [patch_zero, List.length_append, List.length_drop]
  omega

theorem take_patch_zero (buf bytes : List UInt8) :
    (patch buf 0 bytes).take bytes.length = bytes := by
  rw [patch_zero, List.take_left]

/-! ## Reading a fork -/

section

variable {volume : Volume} {kind : AfpMeta} {C : List UInt8} {forkid : UInt16} {size offset : ℕ}

theorem length_asked_le : (asked volume C offset size).length ≤ size := by
  rw [asked, List.length_take]
  omega

/-- The bytes that fit in the buffer of the request. -/
theorem bufsize_toNat (volume : Volume) (size : ℕ) :
    (if volume.server.rxQuantum.toNat < size then volume.server.rxQuantum
      else .ofNat size : UInt32).toNat = min volume.server.rxQuantum.toNat size := by
  by_cases h : volume.server.rxQuantum.toNat < size
  · rw [if_pos h]
    exact (Nat.min_eq_left (Nat.le_of_lt h)).symm
  · have hlt : size < 0x100000000 := by
      have := volume.server.rxQuantum.toNat_lt
      omega
    rw [if_neg h, UInt32.toNat_ofNat_of_lt' hlt]
    omega

theorem ensures_readRequest {maxsize : UInt32} :
    Prog.Ensures (Serves kind C)
      (ServesRead C (cut volume offset) (cut volume size) maxsize.toNat)
      (readRequest volume forkid offset size maxsize) := by
  rw [readRequest, cut, cut]
  split
  next h =>
    intro reply hreply
    have hread : ServesRead C (UInt32.ofNat offset).toNat (UInt32.ofNat size).toNat maxsize.toNat
        reply := hreply
    rwa [UInt32.toNat_ofNat', UInt32.toNat_ofNat'] at hread
  next h =>
    intro reply hreply
    have hread : ServesRead C (UInt64.ofNat offset).toNat (UInt64.ofNat size).toNat maxsize.toNat
        reply := hreply
    rwa [UInt64.toNat_ofNat', UInt64.toNat_ofNat'] at hread

theorem ensures_llRead :
    Prog.Ensures (Serves kind C) (fun res => res.1 < 0 ∨
        res.1 = ((asked volume C offset size).length : ℤ) ∧ res.2.1 = asked volume C offset size ∧
          (res.2.2 = true → C.length ≤ cut volume offset +
            min (cut volume size) (min volume.server.rxQuantum.toNat size)))
      (llRead volume size offset forkid) := by
  rw [llRead]
  refine (Prog.ensures_of_forall (Q := fun _ => True) (fun _ => trivial) _).bind fun _ _ => ?_
  refine Prog.ensures_ite (fun _ => .inl (by decide)) fun _ => ?_
  refine ensures_readRequest.bind fun reply hreply => ?_
  rw [bufsize_toNat] at hreply
  refine (Prog.ensures_of_forall (Q := fun _ => True) (fun _ => trivial) _).bind fun _ _ => ?_
  refine Prog.ensures_ite (fun _ => .inl (show (- EIO : ℤ) < 0 by decide)) fun _ =>
    Prog.ensures_ite (fun _ => .inl (show (-EACCES : ℤ) < 0 by decide)) fun hdenied =>
      Prog.ensures_ite (fun _ => .inl (show (-EBUSY : ℤ) < 0 by decide)) fun hlock =>
        Prog.ensures_ite (fun _ => .inl (show (- EIO : ℤ) < 0 by decide)) fun hmisc => ?_
  rcases hreply with h | h | h | h | ⟨hrc, hstored⟩
  · exact absurd h hdenied
  · exact absurd h hlock
  · exact absurd (.inl h) hmisc
  · exact absurd (.inr h) hmisc
  · have hbuffer : reply.stored.getD [] = asked volume C offset size := by
      rw [hstored, Option.getD_some, asked]
    refine .inr ⟨by rw [hbuffer], hbuffer, fun heof => ?_⟩
    rcases hrc with hrc | ⟨-, hend⟩
    · exact absurd (hrc.symm.trans (of_decide_eq_true heof)) (by decide)
    · exact hend

/-- A lock can be granted, and taken back. -/
theorem reaches_byteRangeLock (unlock : Bool) :
    Prog.Reaches (Serves kind C) (byteRangeLock volume unlock forkid offset size) kFPNoErr := by
  rw [byteRangeLock]
  split
  next => exact ⟨⟨kFPNoErr, none⟩, trivial, rfl⟩
  next => exact ⟨⟨kFPNoErr, none⟩, trivial, rfl⟩

theorem reaches_llHandleLocking :
    Prog.Reaches (Serves kind C) (llHandleLocking volume forkid offset size) 0 := by
  rw [llHandleLocking]
  split
  next => rfl
  next => exact (reaches_byteRangeLock false).bind rfl

theorem reaches_llHandleUnlocking :
    Prog.Reaches (Serves kind C) (llHandleUnlocking volume forkid offset size) 0 := by
  rw [llHandleUnlocking]
  split
  next => rfl
  next => exact (reaches_byteRangeLock true).bind rfl

theorem reaches_readRequest {maxsize : UInt32} :
    Prog.Reaches (Serves kind C) (readRequest volume forkid offset size maxsize)
      ⟨kFPNoErr, some ((C.drop (cut volume offset)).take (min (cut volume size) maxsize.toNat))⟩ := by
  rw [readRequest, cut, cut]
  split
  next h =>
    refine ⟨_, ?_, rfl⟩
    refine .inr (.inr (.inr (.inr ⟨.inl rfl, ?_⟩)))
    rw [UInt32.toNat_ofNat', UInt32.toNat_ofNat']
  next h =>
    refine ⟨_, ?_, rfl⟩
    refine .inr (.inr (.inr (.inr ⟨.inl rfl, ?_⟩)))
    rw [UInt64.toNat_ofNat', UInt64.toNat_ofNat']

/-- The whole of what is asked for can be read. -/
theorem reaches_llRead :
    Prog.Reaches (Serves kind C) (llRead volume size offset forkid)
      ((asked volume C offset size).length, asked volume C offset size, false) := by
  rw [llRead]
  refine reaches_llHandleLocking.bind (reaches_readRequest.bind
    (reaches_llHandleUnlocking.bind ?_))
  rw [bufsize_toNat]
  rfl

end

/-! ## The hook and what follows -/

/-- What `afp_ml_read()` makes of the result of the hook. -/
def afterHook (volume : Volume) (size offset : ℕ) (result : ReadResult) : AfpM ReadResult :=
  if result.ret < 0 then return result
  else if result.ret = 1 then return { result with ret := result.amountRead }
  else do
    let (ret, bytes, eof) ← llRead volume size offset result.fp.forkid
    return { result with ret := ret, buf := patch result.buf 0 bytes, eof := eof }

section Kinds

variable {volume : Volume} {path dst : CString} {C buf : List UInt8} {fp : AfpFileInfo}
  {size offset : ℕ}

theorem afpMlRead_eq (hpath : convertPathToAfp volume.server.pathEncoding path AFP_MAX_PATH =
    some (0, dst)) (hkind : fp.resource ≠ .none) :
    afpMlRead volume path buf offset fp =
      (appledoubleRead volume fp buf offset >>= afterHook volume buf.length offset) := by
  rw [afpMlRead, hpath]
  show ((if fp.resource ≠ .none then appledoubleRead volume fp buf offset else _) >>= _) = _
  rw [if_pos hkind]
  refine congrArg (appledoubleRead volume fp buf offset >>= ·) (funext fun result => ?_)
  simp only [afterHook, and_iff_right hkind]

theorem afterHook_of_neg {result : ReadResult} (h : result.ret < 0) :
    afterHook volume size offset result = pure result := if_pos h

theorem afterHook_of_one {result : ReadResult} (h : result.ret = 1) :
    afterHook volume size offset result = pure { result with ret := result.amountRead } := by
  rw [afterHook, if_neg (h ▸ by decide), if_pos h]

theorem afterHook_of_more {result : ReadResult} (hle : 0 ≤ result.ret) (hne : result.ret ≠ 1) :
    afterHook volume size offset result = (llRead volume size offset result.fp.forkid >>=
      fun res => pure { result with ret := res.1, buf := patch result.buf 0 res.2.1, eof := res.2.2 }) := by
  rw [afterHook, if_neg (Int.not_lt.mpr hle), if_neg hne]

/-- A path that cannot be converted is refused. -/
theorem ensures_of_not_converts {kind : AfpMeta} {Q : ReadResult → Prop}
    (hpath : ¬ ∃ dst, convertPathToAfp volume.server.pathEncoding path AFP_MAX_PATH = some (0, dst)) :
    Prog.Ensures (Serves kind C) (fun res => 0 ≤ res.ret → Q res)
      (afpMlRead volume path buf offset fp) := by
  rw [afpMlRead]
  cases hconvert : convertPathToAfp volume.server.pathEncoding path AFP_MAX_PATH with
  | none => trivial
  | some res =>
    obtain ⟨ret, dst⟩ := res
    have hret : ret ≠ 0 := fun h => hpath ⟨dst, h ▸ hconvert⟩
    show Prog.Ensures _ _ (if ret ≠ 0 then _ else _)
    rw [if_pos hret]
    exact fun hle => absurd hle (show ¬ (0 : ℤ) ≤ -EINVAL by decide)

/-! ### The resource fork -/

/-- The hook reads the fork. -/
theorem ensures_hook_resource (hkind : fp.resource = .resource) :
    Prog.Ensures (Serves .resource C) (fun result => result.ret < 0 ∨
        result.ret = ((asked volume C offset buf.length).length : ℤ) ∧
        result.buf = patch buf 0 (asked volume C offset buf.length) ∧ result.amountRead = 0 ∧
          (result.eof = true → C.length ≤ cut volume offset +
            min (cut volume buf.length) (min volume.server.rxQuantum.toNat buf.length)))
      (appledoubleRead volume fp buf offset) := by
  rw [appledoubleRead, hkind]
  intro garbage _
  refine ensures_llRead.bind fun res hres => ?_
  obtain ⟨ret, bytes, eof⟩ := res
  rcases hres with hneg | ⟨hret, hbytes, heof⟩
  · exact .inl hneg
  · exact .inr ⟨hret, congrArg (patch buf 0) hbytes, rfl, heof⟩

/-- The hook can read all that it asks for. -/
theorem reaches_hook_resource (hkind : fp.resource = .resource) :
    Prog.Reaches (Serves .resource C) (appledoubleRead volume fp buf offset)
      { ret := ((asked volume C offset buf.length).length : ℤ)
        buf := patch buf 0 (asked volume C offset buf.length)
        amountRead := 0
        eof := false
        fp := fp } := by
  rw [appledoubleRead, hkind]
  exact ⟨(0 : UInt32), trivial, reaches_llRead.bind rfl⟩

theorem cut_le (volume : Volume) (n : ℕ) : cut volume n ≤ n := by
  rw [cut]
  split
  · exact Nat.mod_le ..
  · exact Nat.mod_le ..

/-- The fork is read a second time, unless one byte has been read. -/
theorem correct_resource_iff (hpath : convertPathToAfp volume.server.pathEncoding path AFP_MAX_PATH =
    some (0, dst)) (hkind : fp.resource = .resource) :
    Correct volume path .resource C fp offset size ↔
      Meets volume C fp.eof offset size .resource := by
  have hne : fp.resource ≠ .none := by rw [hkind]; decide
  rw [Meets]
  constructor
  · intro h
    have hens := h (List.replicate size 0) (List.length_replicate ..)
    have hreach := @reaches_hook_resource volume C (List.replicate size 0) fp offset hkind
    rw [afpMlRead_eq hpath hne] at hens
    rw [List.length_replicate] at hens hreach
    by_cases hone : (asked volume C offset size).length = 1
    · -- the result 1 is taken for the sign that the read is done
      have hret : ((asked volume C offset size).length : ℤ) = 1 := congrArg Nat.cast hone
      have hpread := hens.of_reaches (hreach.bind (by
        rw [afterHook_of_one hret]
        rfl)) (Int.le_refl 0)
      rw [if_pos hone]
      exact hpread.bytes
    · have hret : ((asked volume C offset size).length : ℤ) ≠ 1 := fun h => hone (by omega)
      have hpread := hens.of_reaches (hreach.bind (by
        rw [afterHook_of_more (Int.natCast_nonneg _) hret]
        exact reaches_llRead.bind rfl)) (Int.natCast_nonneg _)
      rw [if_neg hone]
      have hbytes := hpread.bytes
      rwa [Int.toNat_natCast, take_patch_zero] at hbytes
  · rintro hmeets buf rfl
    rw [afpMlRead_eq hpath hne]
    refine (ensures_hook_resource hkind).bind fun result hresult => ?_
    rcases hresult with hneg | ⟨hret, hbuf, hamount, heof⟩
    · rw [afterHook_of_neg hneg]
      exact fun hle => absurd hle (Int.not_le.mpr hneg)
    have hlen := @length_asked_le volume C buf.length offset
    have hlen' : result.buf.length = buf.length := by rw [hbuf, length_patch_zero hlen]
    have hcut := cut_le volume offset
    by_cases hone : (asked volume C offset buf.length).length = 1
    · rw [if_pos hone] at hmeets
      rw [afterHook_of_one (hret.trans (congrArg Nat.cast hone)), hamount]
      refine fun _ => ⟨by rw [← hmeets]; rfl, hmeets, hlen', fun _ => ?_⟩
      have hempty := congrArg List.length hmeets
      rw [List.length_nil, List.length_take, List.length_drop] at hempty
      rw [hone] at hlen
      show C.length ≤ offset + 0
      omega
    · rw [if_neg hone] at hmeets
      rw [afterHook_of_more (hret ▸ Int.natCast_nonneg _) fun h => hone (by omega)]
      refine ensures_llRead.bind fun res hres hle => ?_
      obtain ⟨ret, bytes, eof⟩ := res
      rcases hres with hneg | ⟨hret', hbytes, heof'⟩
      · exact absurd hle (Int.not_le.mpr hneg)
      obtain rfl : ret = ((asked volume C offset buf.length).length : ℤ) := hret'
      obtain rfl : bytes = asked volume C offset buf.length := hbytes
      refine ⟨congrArg (fun l : List UInt8 => (l.length : ℤ)) hmeets, ?_, ?_, fun h => ?_⟩
      · show (patch result.buf 0 (asked volume C offset buf.length)).take
          ((asked volume C offset buf.length).length : ℤ).toNat = _
        rw [Int.toNat_natCast, take_patch_zero, hmeets]
      · exact (length_patch_zero (hlen' ▸ hlen)).trans hlen'
      · have hend := heof' h
        show C.length ≤ offset + ((asked volume C offset buf.length).length : ℤ).toNat
        rw [Int.toNat_natCast, asked, List.length_take, List.length_drop]
        omega

/-! ### The comment -/

/-- What is left of a read when the comment is copied. -/
def withComment (result : ReadResult) (text : List UInt8) : ReadResult where
  ret := 1
  buf := patch result.buf 0 text
  amountRead := text.length
  eof := true
  fp := { result.fp with eof := true }

theorem ensures_readComment {kind : AfpMeta} {result : ReadResult} (heof : result.fp.eof = false) :
    Prog.Ensures (Serves kind C) (fun res => res.ret < 0 ∨ ∃ text : List UInt8,
        text.length ≤ size % 0x100000000 ∧ (kind = .comment → text = C.take (size % 0x100000000)) ∧
          res = withComment result text)
      (readComment result size) := by
  rw [readComment, if_neg (by rw [heof]; decide)]
  intro reply hreply
  have hserves : ServesComment kind C (UInt32.ofNat size).toNat reply := hreply
  rw [UInt32.toNat_ofNat'] at hserves
  refine Prog.ensures_ite (fun _ => .inl (show (-EACCES : ℤ) < 0 by decide)) fun hdenied =>
    Prog.ensures_ite (fun _ => .inl (show (- EIO : ℤ) < 0 by decide)) fun hmisc =>
      Prog.ensures_ite (fun _ => .inl (show (-ENOENT : ℤ) < 0 by decide)) fun hnone => ?_
  rcases hserves with h | h | h | h | h | ⟨hrc, text, hstored, hfits, htext⟩
  · exact absurd h hdenied
  · exact absurd (.inl h) hmisc
  · exact absurd (.inr h) hmisc
  · exact absurd (.inl h) hnone
  · exact absurd (.inr h) hnone
  · refine Prog.ensures_ite (fun _ => .inr ⟨text, hfits, htext, ?_⟩) fun h => absurd hrc h
    rw [hstored]
    rfl

theorem reaches_readComment {kind : AfpMeta} {result : ReadResult} {text : List UInt8}
    (heof : result.fp.eof = false) (hfits : text.length ≤ size % 0x100000000)
    (htext : kind = .comment → text = C.take (size % 0x100000000)) :
    Prog.Reaches (Serves kind C) (readComment result size) (withComment result text) := by
  rw [readComment, if_neg (by rw [heof]; decide)]
  have hmax : (UInt32.ofNat size).toNat = size % 0x100000000 := UInt32.toNat_ofNat'
  refine ⟨⟨kFPNoErr, some text⟩, ?_, rfl⟩
  exact .inr (.inr (.inr (.inr (.inr ⟨rfl, text, rfl, hmax ▸ hfits, fun h => hmax ▸ htext h⟩))))

/-- The hook has done what there is to do: the result is what was read, or an error. -/
theorem afterHook_withComment (result : ReadResult) (text : List UInt8) :
    afterHook volume size offset (withComment result text) =
      pure { withComment result text with ret := text.length } := afterHook_of_one rfl

/-- A comment is read from its start, whatever the offset, and once. -/
theorem correct_comment_iff (hpath : convertPathToAfp volume.server.pathEncoding path AFP_MAX_PATH =
    some (0, dst)) (hkind : fp.resource = .comment) :
    Correct volume path .comment C fp offset size ↔
      Meets volume C fp.eof offset size .comment := by
  have hne : fp.resource ≠ .none := by rw [hkind]; decide
  rw [Meets]
  cases heof : fp.eof with
  | true =>
    have heq : ∀ buf : List UInt8, afpMlRead volume path buf offset fp =
        .act .uninitInt fun _ => pure
          { ret := ((0 : ℕ) : ℤ), buf := buf, amountRead := 0, eof := false, fp := fp } := by
      intro buf
      rw [afpMlRead_eq hpath hne, appledoubleRead, hkind]
      refine congrArg (Prog.act Effect.uninitInt) (funext fun garbage => ?_)
      show (readComment ⟨garbage.toInt32.toInt, buf, 0, false, fp⟩ buf.length >>=
        afterHook volume buf.length offset) = _
      rw [readComment, if_pos heof]
      show afterHook volume buf.length offset ⟨1, buf, 0, false, fp⟩ = _
      exact afterHook_of_one rfl
    rw [if_pos rfl]
    constructor
    · intro h
      have hens := h (List.replicate size 0) (List.length_replicate ..)
      rw [heq] at hens
      have hpread := hens (0 : UInt32) trivial (Int.le_refl 0)
      exact hpread.bytes.symm
    · rintro hempty buf rfl
      rw [heq]
      refine fun garbage _ _ => ⟨by rw [hempty]; rfl, hempty.symm, rfl, nofun⟩
  | false =>
    rw [if_neg (by decide)]
    constructor
    · intro h
      have hens := h (List.replicate size 0) (List.length_replicate ..)
      rw [afpMlRead_eq hpath hne, appledoubleRead, hkind] at hens
      have hreach := @reaches_readComment C size .comment
        ⟨(0 : UInt32).toInt32.toInt, List.replicate size 0, 0, false, fp⟩ (C.take (size % 0x100000000)) heof (List.length_take_le ..)
          fun _ => rfl
      rw [List.length_replicate] at hens
      have hpread := (hens (0 : UInt32) trivial).of_reaches (hreach.bind (by
        rw [afterHook_withComment]
        rfl)) (Int.natCast_nonneg _)
      have hbytes := hpread.bytes
      have hend := hpread.eof rfl
      rw [Int.toNat_natCast] at hend
      rw [Int.toNat_natCast, withComment, take_patch_zero] at hbytes
      exact ⟨hbytes, by rwa [← hbytes]⟩
    · rintro ⟨hbytes, hend⟩ buf rfl
      rw [afpMlRead_eq hpath hne, appledoubleRead, hkind]
      intro garbage _
      refine (ensures_readComment heof).bind fun result hresult => ?_
      rcases hresult with hneg | ⟨text, hfits, htext, rfl⟩
      · rw [afterHook_of_neg hneg]
        exact fun hle => absurd hle (Int.not_le.mpr hneg)
      · have htext := (htext rfl).trans hbytes
        have hle : text.length ≤ buf.length := Nat.le_trans hfits (Nat.mod_le ..)
        rw [afterHook_withComment]
        refine fun _ => ⟨by rw [htext], ?_, length_patch_zero hle, fun _ => ?_⟩
        · rw [Int.toNat_natCast, withComment, take_patch_zero, htext]
        · rwa [Int.toNat_natCast, htext]

/-! ### The Finder info -/

/-- The structure as the reply to a request for the Finder info leaves it: nothing is left of the open
file but its name. -/
def filledIn (C : List UInt8) (fp : AfpFileInfo) (isdir : Bool) : AfpFileInfo :=
  { AfpFileInfo.zero with isdir := isdir, finderinfo := C, basename := fp.basename }

theorem ensures_llGetDirectoryEntry {kind : AfpMeta} {basename : CString} {did : UInt32}
    {filebitmap dirbitmap : ℕ} :
    Prog.Ensures (Serves kind C) (fun res => res.1 < 0 ∨ ∃ isdir, res = (0, filledIn C fp isdir))
      (llGetDirectoryEntry basename did filebitmap dirbitmap fp) := by
  intro reply hreply
  rcases hreply with hneg | ⟨hrc, isdir, hstored⟩
  · exact .inl hneg
  · refine .inr ⟨isdir, Prod.ext hrc ?_⟩
    show { reply.stored.getD fp with basename := fp.basename } = _
    rw [hstored]
    rfl

theorem reaches_llGetDirectoryEntry {kind : AfpMeta} {basename : CString} {did : UInt32}
    {filebitmap dirbitmap : ℕ} :
    Prog.Reaches (Serves kind C) (llGetDirectoryEntry basename did filebitmap dirbitmap fp)
      (0, filledIn C fp false) :=
  ⟨⟨kFPNoErr, some { AfpFileInfo.zero with finderinfo := C }⟩, .inr ⟨rfl, false, rfl⟩, rfl⟩

/-- Once the Finder info has been copied, any comment may follow. -/
theorem reaches_hook_finderinfo (hkind : fp.resource = .finderinfo) (hoffset : ¬ 32 < offset)
    {text : List UInt8} (hfits : text.length ≤ buf.length % 0x100000000) :
    ∃ result, Prog.Reaches (Serves .finderinfo C) (appledoubleRead volume fp buf offset)
      (withComment result text) := by
  rw [appledoubleRead, hkind]
  simp only [if_neg hoffset]
  refine ⟨⟨0, patch buf offset (C.take (min buf.length (32 - offset))),
    min buf.length (32 - offset), offset + min buf.length (32 - offset) = 32,
    filledIn C fp false⟩, (0 : UInt32), trivial, reaches_llGetDirectoryEntry.bind ?_⟩
  show Prog.Reaches _ (if (0 : ℤ) < 0 then _ else readComment _ _) _
  rw [if_neg (by decide)]
  exact reaches_readComment rfl hfits nofun

/-- Behind the end there is nothing to copy. -/
theorem ensures_hook_finderinfo (hkind : fp.resource = .finderinfo)
    (hmeets : 32 < offset ∨ offset = 32 ∧ buf.length % 0x100000000 = 0) :
    Prog.Ensures (Serves .finderinfo C) (fun result => result.ret < 0 ∨ ∃ fi,
        offset = 32 ∧ result = withComment ⟨0, buf, 0, true, fi⟩ [])
      (appledoubleRead volume fp buf offset) := by
  rw [appledoubleRead, hkind]
  intro garbage _
  refine Prog.ensures_ite (fun _ => .inl (show (-EFAULT : ℤ) < 0 by decide)) fun hoffset => ?_
  obtain ⟨rfl, hzero⟩ := hmeets.resolve_left hoffset
  refine ensures_llGetDirectoryEntry.bind fun res hres => ?_
  obtain ⟨ret, fi⟩ := res
  rcases hres with hneg | ⟨isdir, heq⟩
  · exact Prog.ensures_ite (fun _ => .inl hneg) fun h => absurd hneg h
  obtain ⟨rfl, rfl⟩ := Prod.mk.inj heq
  refine Prog.ensures_ite (fun h => absurd h (by decide)) fun _ => ?_
  refine Prog.Ensures.mono (fun result hresult => hresult.imp_right ?_) (ensures_readComment rfl)
  rintro ⟨text, hfits, -, rfl⟩
  rw [hzero, Nat.le_zero, List.length_eq_zero_iff] at hfits
  subst hfits
  refine ⟨filledIn C fp isdir, rfl, ?_⟩
  rw [withComment, withComment, patch_nil, patch_nil, Nat.sub_self, Nat.min_zero, List.take_zero,
    patch_nil]

/-- The Finder info is read from its start to the offset, and then comes the comment of nothing. -/
theorem correct_finderinfo_iff (hpath : convertPathToAfp volume.server.pathEncoding path AFP_MAX_PATH =
    some (0, dst)) (hkind : fp.resource = .finderinfo) (hlen : C.length = 32) :
    Correct volume path .finderinfo C fp offset size ↔
      Meets volume C fp.eof offset size .finderinfo := by
  have hne : fp.resource ≠ .none := by rw [hkind]; decide
  rw [Meets]
  constructor
  · intro h
    by_contra hmeets
    have hoffset : ¬ 32 < offset := fun h => hmeets (.inl h)
    have hens := h (List.replicate size 0) (List.length_replicate ..)
    rw [afpMlRead_eq hpath hne] at hens
    have hany : ∀ text : List UInt8, text.length ≤ size % 0x100000000 →
        ∃ result, Pread C offset size { withComment result text with ret := text.length } := by
      intro text hfits
      rw [← List.length_replicate (n := size) (a := (0 : UInt8))] at hfits
      obtain ⟨result, hreach⟩ :=
        @reaches_hook_finderinfo volume C _ fp offset hkind hoffset text hfits
      exact ⟨result, hens.of_reaches (hreach.bind (by
        rw [afterHook_withComment]
        rfl)) (Int.natCast_nonneg _)⟩
    by_cases hend : offset = 32
    · have hsize : size % 0x100000000 ≠ 0 := fun h => hmeets (.inr ⟨hend, h⟩)
      obtain ⟨result, hpread⟩ := hany [0] (by
        show 1 ≤ _
        omega)
      have hcount := hpread.count
      rw [List.drop_eq_nil_of_le (by omega), List.take_nil] at hcount
      exact absurd hcount (show ¬ (1 : ℤ) = 0 by decide)
    · obtain ⟨result, hpread⟩ := hany [] (Nat.zero_le _)
      have heof := hpread.eof rfl
      rw [hlen] at heof
      change 32 ≤ offset + 0 at heof
      omega
  · rintro hmeets buf rfl
    rw [afpMlRead_eq hpath hne]
    refine (ensures_hook_finderinfo hkind hmeets).bind fun result hresult => ?_
    rcases hresult with hneg | ⟨fi, rfl, rfl⟩
    · rw [afterHook_of_neg hneg]
      exact fun hle => absurd hle (Int.not_le.mpr hneg)
    · rw [afterHook_withComment]
      have hempty : (C.drop 32).take buf.length = [] := by
        rw [List.drop_eq_nil_of_le (by omega), List.take_nil]
      refine fun _ => ⟨by rw [hempty], hempty.symm, ?_, fun _ => Nat.le_of_eq hlen⟩
      rw [withComment, patch_nil]

/-! ### The icon -/

theorem afpMlRead_serverIcon (hpath : convertPathToAfp volume.server.pathEncoding path AFP_MAX_PATH =
    some (0, dst)) (hkind : fp.resource = .serverIcon) (hoffset : ¬ 256 < offset) :
    afpMlRead volume path buf offset fp = .act .uninitInt fun _ => pure
      ⟨(min buf.length (256 - offset) : ℕ),
        patch buf offset (volume.server.icon.take (min buf.length (256 - offset))),
        min buf.length (256 - offset), true, { fp with eof := true }⟩ := by
  rw [afpMlRead_eq hpath (by rw [hkind]; decide), appledoubleRead, hkind]
  refine congrArg (Prog.act Effect.uninitInt) (funext fun garbage => ?_)
  simp only [if_neg hoffset]
  show afterHook volume buf.length offset ⟨1, _, _, _, _⟩ = _
  exact afterHook_of_one rfl

/-- What is copied behind the first byte of a buffer leaves that byte alone. -/
theorem head?_patch {bytes : List UInt8} {b : UInt8} (hoffset : 0 < offset) :
    (patch (b :: buf) offset bytes).head? = some b := by
  obtain ⟨o, rfl⟩ := Nat.exists_eq_succ_of_ne_zero (Nat.ne_of_gt hoffset)
  rw [patch]
  split
  · rfl
  · rfl

/-- The icon is copied from its start to the offset, and the end is reported always. -/
theorem correct_serverIcon_iff (hpath : convertPathToAfp volume.server.pathEncoding path AFP_MAX_PATH =
    some (0, dst)) (hkind : fp.resource = .serverIcon) (hicon : C = volume.server.icon)
    (hlen : C.length = 256) :
    Correct volume path .serverIcon C fp offset size ↔
      Meets volume C fp.eof offset size .serverIcon := by
  rw [Meets]
  subst hicon
  constructor
  · intro h
    by_contra hmeets
    have hoffset : offset < 256 := by omega
    have hpread : ∀ buf : List UInt8, buf.length = size →
        Pread volume.server.icon offset size ⟨(min buf.length (256 - offset) : ℕ),
          patch buf offset (volume.server.icon.take (min buf.length (256 - offset))),
          min buf.length (256 - offset), true, { fp with eof := true }⟩ := by
      intro buf hbuf
      have hens := h buf hbuf
      rw [afpMlRead_serverIcon hpath hkind (by omega)] at hens
      exact hens (0 : UInt32) trivial (Int.natCast_nonneg _)
    -- the end of the file can be reported only by a read that comes to it
    have hend := (hpread (List.replicate size 0) (List.length_replicate ..)).eof rfl
    rw [hlen, List.length_replicate, Int.toNat_natCast] at hend
    have hpos : 0 < offset := by omega
    obtain ⟨n, rfl⟩ := Nat.exists_eq_succ_of_ne_zero (show size ≠ 0 by omega)
    have hget : offset < volume.server.icon.length := by omega
    -- the byte at the start of the buffer is not written
    have hbytes := (hpread (List.replicate (n + 1) (volume.server.icon[offset] + 1))
      (List.length_replicate ..)).bytes
    have hhead := congrArg List.head? hbytes
    rw [List.length_replicate, Int.toNat_natCast, List.replicate_succ, List.head?_take,
      List.head?_take, if_neg (by omega), if_neg (by omega), head?_patch hpos,
      List.drop_eq_getElem_cons hget, List.head?_cons, Option.some.injEq] at hhead
    exact absurd hhead (by simp)
  · rintro hmeets buf rfl
    by_cases hoffset : 256 < offset
    · rw [afpMlRead_eq hpath (by rw [hkind]; decide), appledoubleRead, hkind]
      intro garbage _
      simp only [if_pos hoffset]
      refine fun hle => absurd hle (show ¬ (0 : ℤ) ≤ -EFAULT by decide)
    rw [afpMlRead_serverIcon hpath hkind hoffset]
    intro garbage _ _
    rcases hmeets with hend | ⟨rfl, hsize⟩
    · obtain rfl : offset = 256 := by omega
      rw [Nat.sub_self, Nat.min_zero, List.take_zero, patch_nil]
      have hempty : (volume.server.icon.drop 256).take buf.length = [] := by
        rw [List.drop_eq_nil_of_le (Nat.le_of_eq hlen), List.take_nil]
      exact ⟨by rw [hempty]; rfl, hempty.symm, rfl, fun _ => Nat.le_of_eq hlen⟩
    · have hmin : min buf.length (256 - 0) = 256 := by omega
      have hall : volume.server.icon.take 256 = volume.server.icon :=
        List.take_of_length_le (Nat.le_of_eq hlen)
      have hrange : (volume.server.icon.drop 0).take buf.length = volume.server.icon := by
        rw [List.drop_zero, List.take_of_length_le (by omega)]
      rw [hmin, hall]
      refine ⟨by rw [hrange, hlen], ?_, length_patch_zero (by omega), fun _ => ?_⟩
      · rw [hrange, Int.toNat_natCast, ← hlen, take_patch_zero]
      · rw [hlen, Int.toNat_natCast, Nat.zero_add]

end Kinds

/-! ## Successive reads -/

/-- One read of several: the offset, the size of the buffer, the structure before it, and what it
leaves. -/
structure Step where
  offset : ℕ
  size : ℕ
  before : AfpFileInfo
  result : ReadResult

/-- Read one range behind the other, each into a buffer of its own, as long as no read fails. -/
def readRanges (volume : Volume) (path : CString) :
    List (List UInt8) → ℕ → AfpFileInfo → AfpM (List Step)
  | [], _, _ => return []
  | buf :: bufs, offset, fp => do
    let result ← afpMlRead volume path buf offset fp
    let steps ←
      (if result.ret < 0 then pure []
      else readRanges volume path bufs (offset + result.ret.toNat) result.fp)
    return ⟨offset, buf.length, fp, result⟩ :: steps

/-- The bytes that some reads have returned. -/
def returned (steps : List Step) : List UInt8 :=
  steps.flatMap fun s => s.result.buf.take s.result.ret.toNat

/-- What is taken behind what was taken. -/
theorem take_append_take (l : List UInt8) (m n : ℕ) :
    l.take m ++ (l.drop (l.take m).length).take n = l.take (m + n) := by
  rcases Nat.le_total m l.length with hle | hle
  · rw [List.length_take, Nat.min_eq_left hle, ← List.take_add]
  · rw [List.take_of_length_le hle, List.drop_length, List.take_nil, List.append_nil,
      List.take_of_length_le (Nat.le_trans hle (Nat.le_add_right m n))]

section

variable {volume : Volume} {path : CString} {kind : AfpMeta} {C : List UInt8}

/-- **One read**, of any kind. -/
theorem correct_iff (hcontents : Contents volume C kind) {fp : AfpFileInfo} {offset size : ℕ}
    (hkind : fp.resource = kind) :
    Correct volume path kind C fp offset size ↔
      ((∃ dst, convertPathToAfp volume.server.pathEncoding path AFP_MAX_PATH = some (0, dst)) →
        Meets volume C fp.eof offset size kind) := by
  by_cases hpath : ∃ dst,
      convertPathToAfp volume.server.pathEncoding path AFP_MAX_PATH = some (0, dst)
  swap
  · exact iff_of_true (fun _ _ => ensures_of_not_converts hpath) fun h => absurd h hpath
  rw [forall_prop_of_true hpath]
  obtain ⟨dst, hpath⟩ := hpath
  cases kind with
  | resource => exact correct_resource_iff hpath hkind
  | comment => exact correct_comment_iff hpath hkind
  | finderinfo => exact correct_finderinfo_iff hpath hkind hcontents
  | serverIcon => exact correct_serverIcon_iff hpath hkind hcontents.1 hcontents.2
  | none => exact hcontents.elim
  | appledouble => exact hcontents.elim

/-- **Successive reads**, each of which meets the condition, return the contents from the first offset
on. -/
theorem ensures_readRanges (hcontents : Contents volume C kind) (bufs : List (List UInt8))
    (offset : ℕ) (fp : AfpFileInfo) :
    Prog.Ensures (Serves kind C) (fun steps =>
        (∀ s ∈ steps, s.before.resource = kind ∧
          Meets volume C s.before.eof s.offset s.size kind ∧ 0 ≤ s.result.ret) →
        returned steps = (C.drop offset).take (bufs.map List.length).sum)
      (readRanges volume path bufs offset fp) := by
  induction bufs generalizing offset fp with
  | nil => exact fun _ => by rw [List.map_nil, List.sum_nil, List.take_zero]; rfl
  | cons buf bufs ih =>
    have hread : Prog.Ensures (Serves kind C) (fun result => fp.resource = kind →
        Meets volume C fp.eof offset buf.length kind → 0 ≤ result.ret →
          Pread C offset buf.length result) (afpMlRead volume path buf offset fp) := by
      by_cases hmeets : fp.resource = kind ∧ Meets volume C fp.eof offset buf.length kind
      · exact ((correct_iff hcontents hmeets.1).mpr (fun _ => hmeets.2) buf rfl).mono
          fun result h _ _ => h
      · exact Prog.ensures_of_forall (fun result hkind hm => absurd ⟨hkind, hm⟩ hmeets) _
    refine hread.bind fun result hresult => ?_
    by_cases hret : result.ret < 0
    · rw [if_pos hret]
      refine fun hall => absurd (hall _ List.mem_cons_self).2.2 (Int.not_le.mpr hret)
    · rw [if_neg hret]
      refine (ih (offset + result.ret.toNat) result.fp).bind fun steps hsteps hall => ?_
      obtain ⟨⟨hkind, hmeets, hle⟩, hrest⟩ := List.forall_mem_cons.mp hall
      have hpread := hresult hkind hmeets hle
      have hcount : result.ret.toNat = ((C.drop offset).take buf.length).length := by
        rw [hpread.count, Int.toNat_natCast]
      have hnext := hsteps hrest
      rw [← List.drop_drop, hcount] at hnext
      rw [returned, List.flatMap_cons, List.map_cons, List.sum_cons, ← take_append_take]
      exact congrArg₂ (· ++ ·) hpread.bytes hnext

end

/-- **Exactly then every read is a `pread()`**, and then successive reads return the contents. -/
theorem pread_iff {volume : Volume} {kind : AfpMeta} {C : List UInt8}
    (hcontents : Contents volume C kind) (path : CString) :
    (∀ (fp : AfpFileInfo) (offset size : ℕ), fp.resource = kind →
      (Correct volume path kind C fp offset size ↔
        ((∃ dst, convertPathToAfp volume.server.pathEncoding path AFP_MAX_PATH = some (0, dst)) →
          Meets volume C fp.eof offset size kind))) ∧
    ∀ (bufs : List (List UInt8)) (offset : ℕ) (fp : AfpFileInfo),
      Prog.Ensures (Serves kind C) (fun steps =>
          (∀ s ∈ steps, s.before.resource = kind ∧
            Meets volume C s.before.eof s.offset s.size kind ∧ 0 ≤ s.result.ret) →
          returned steps = (C.drop offset).take (bufs.map List.length).sum)
        (readRanges volume path bufs offset fp) :=
  ⟨fun _ _ _ hkind => correct_iff hcontents hkind, ensures_readRanges hcontents⟩

/-- The path "/f". -/
def shortPath : CString := [0x2f, 0x66]

/-- An open comment that has not been read. -/
def openComment : AfpFileInfo := { AfpFileInfo.zero with resource := .comment }

/-- A comment of two bytes, from the first on. -/
theorem pread_iff_of_comment :
    Correct Volume.plain shortPath .comment [0x61, 0x62] openComment 0 2 ↔
      ((∃ dst, convertPathToAfp Volume.plain.server.pathEncoding shortPath AFP_MAX_PATH =
        some (0, dst)) → Meets Volume.plain [0x61, 0x62] false 0 2 .comment) :=
  (pread_iff (show Contents Volume.plain [0x61, 0x62] .comment from trivial) shortPath).1
    openComment 0 2 rfl

/-- **The second half of a comment.**  A read of its second byte returns the first. -/
theorem second_half_of_a_comment :
    ¬ ∀ (volume : Volume) (path : CString) (kind : AfpMeta) (C : List UInt8) (fp : AfpFileInfo)
        (offset size : ℕ), Contents volume C kind → fp.resource = kind →
      Correct volume path kind C fp offset size := by
  intro h
  have hcorrect := h Volume.plain shortPath .comment [0x61, 0x62] openComment 1 1 trivial rfl
  have hpath : convertPathToAfp Volume.plain.server.pathEncoding shortPath AFP_MAX_PATH =
      some (0, shortPath) := rfl
  have hmeets := (correct_comment_iff hpath rfl).mp hcorrect
  have hbytes : ([0x61] : List UInt8) = [0x62] := hmeets.1
  exact absurd hbytes (by decide)

end MetadataRead
end Afpfs

import Afpfs.ReadOnly

/-!
# Success

Seven operations that change something on the server: what their result says of the answers to the
requests that change something.

`outcomes` are the result codes of these requests in a trace.  An operation is `Faithful` if it
fails or if there are such requests and all were answered `kFPNoErr`; where the object has what is
asked for already, there may be none.

The operations translate the codes one by one, and what they do with a code that they do not list
is different: `afp_ml_creat()` and `afp_ml_symlink()` fail, while `afp_ml_unlink()`,
`afp_ml_mkdir()`, `afp_ml_rmdir()` and `afp_ml_utime()` are successful, also if the request timed
out.  `afp_ml_chmod()` does not return what `set_unixprivs()` returned, and `afp_ml_symlink()`
overwrites the result of writing.

* `faithful_iff`: the answers for which each operation is faithful.
* `unwritten_symlink_succeeds`: a symbolic link is made although its text could not be written.
-/

set_option autoImplicit false

namespace Afpfs
namespace Success

open Unicode Codepage Interaction Translate ReadOnly

/-! ## Outcomes -/

/-- The events of a trace. -/
abbrev Event := (e : Effect) × e.Answer

/-- The result code of a request that changes something on the server. -/
def outcome : Event → Option ℤ
  | ⟨.request r, reply⟩ => if mutates r.command then some reply.rc else none
  | _ => none

/-- The result codes of the requests that change something. -/
def outcomes (tr : List Event) : List ℤ := tr.filterMap outcome

/-- Something was changed, and everything that should be. -/
def Succeeded (codes : List ℤ) : Prop := codes ≠ [] ∧ ∀ rc ∈ codes, rc = kFPNoErr

/-- The operation fails, or it was done, or it was not needed. -/
def Faithful (already : Prop) (tr : List Event) (ret : ℤ) : Prop :=
  ret < 0 ∨ ret = 0 ∧ (Succeeded (outcomes tr) ∨ outcomes tr = [] ∧ already)

/-! ## Operations -/

/-- The operations with their arguments. -/
inductive Operation where
  | creat (path : CString) (mode : UInt32)
  | chmod (path : CString) (mode : UInt32)
  | unlink (path : CString)
  | mkdir (path : CString)
  | rmdir (path : CString)
  | utime (path : CString) (modtime : UInt32)
  | symlink (path1 path2 : CString)

/-- Perform an operation. -/
def Operation.run (vol : Volume) : Operation → AfpM ℤ
  | .creat path mode => afpMlCreat vol path mode
  | .chmod path mode => afpMlChmod vol path mode
  | .unlink path => afpMlUnlink vol path
  | .mkdir path => afpMlMkdir vol path
  | .rmdir path => afpMlRmdir vol path
  | .utime path modtime => afpMlUtime vol path modtime
  | .symlink path1 path2 => afpMlSymlink vol path1 path2

/-- A lookup of the Unix privileges of an object. -/
def privsRequest (did : UInt32) (path : CString) : Effect :=
  .request (.getFileDirParms did kFPUnixPrivsBit kFPUnixPrivsBit path)

/-- The trace ends with a lookup that answers these Unix privileges. -/
def EndsWithMode (mode : UInt32) (tr : List Event) : Prop :=
  ∃ did path, ∃ fi : AfpFileInfo,
    tr.getLast? = some ⟨privsRequest did path, (⟨kFPNoErr, some fi⟩ : Reply AfpFileInfo)⟩ ∧
      clearDir fi.unixprivs.permissions = clearDir mode

/-- The object has what is asked for already: only `chmod` asks for something that it may have. -/
def Operation.Already (vol : Volume) (tr : List Event) : Operation → Prop
  | .chmod _ mode => vol.has VOLUME_EXTRA_FLAGS_VOL_SUPPORTS_UNIX = true ∧ EndsWithMode mode tr
  | _ => False

/-! ## The answers -/

/-- What `afp_ml_unlink()` and `afp_ml_rmdir()` list of the answers to FPDelete. -/
def deleteCodes : List ℤ :=
  [kFPNoErr, kFPAccessDenied, kFPObjectLocked, kFPObjectNotFound, kFPVolLocked, kFPObjectTypeErr,
    kFPDirNotEmpty, kFPMiscErr, kFPParamErr, -1]

/-- What `afp_ml_mkdir()` lists of the answers to FPCreateDir. -/
def createDirCodes : List ℤ :=
  [kFPNoErr, kFPAccessDenied, kFPDiskFull, kFPObjectNotFound, kFPObjectExists, kFPVolLocked,
    kFPFlatVol, kFPMiscErr, kFPParamErr, -1]

/-- What `afp_ml_utime()` lists and does not ignore. -/
def utimeCodes : List ℤ := [kFPNoErr, kFPAccessDenied, kFPObjectNotFound]

/-- The path is the virtual file of a resource fork or of the Finder info of another file; the
memory behind the path is part of it. -/
def CreatesVirtual (vol : Volume) (path : CString) (tr : List Event) : Prop :=
  ∃ beyond : CString, tr.head? = some ⟨.uninitPath, beyond⟩ ∧
    ((extraTranslate vol path beyond).1 = .resource ∨
      (extraTranslate vol path beyond).1 = .finderinfo)

/-- The trace ends with a lookup that the server answered. -/
def EndsInLookup (tr : List Event) : Prop :=
  ∃ did filebitmap dirbitmap path, ∃ stored : Option AfpFileInfo,
    tr.getLast? = some ⟨.request (.getFileDirParms did filebitmap dirbitmap path),
      (⟨kFPNoErr, stored⟩ : Reply AfpFileInfo)⟩

/-- The trace ends with a lookup of Unix privileges whose reply does not have them, and what was in
the structure before is what is asked for. -/
def EndsUnread (mode : UInt32) (tr : List Event) : Prop :=
  ∃ beyond : CString, ∃ fi : AfpFileInfo, ∃ tr' did path,
    tr = ⟨.uninitPath, beyond⟩ :: ⟨.uninitFileInfo, fi⟩ :: tr' ∧
      tr'.getLast? = some ⟨privsRequest did path, (⟨kFPNoErr, none⟩ : Reply AfpFileInfo)⟩ ∧
        clearDir fi.unixprivs.permissions = clearDir mode

/-- The first lookup, if there is one, is answered, and the structure has the bits that were set. -/
def Checked (wanted : UInt32) : List Event → Prop
  | [] => True
  | ⟨.uninitFileInfo, garbage⟩ :: ⟨.request (.getFileDirParms ..), reply⟩ :: _ =>
    lookupErr (Reply.rc reply) = 0 ∧
      ((Reply.stored reply).getD garbage : AfpFileInfo).unixprivs.permissions &&& .ofNat TOCHECK_BITS =
        wanted &&& .ofNat TOCHECK_BITS
  | _ :: tr => Checked wanted tr

/-- The first request sets Unix privileges, and they are looked up behind it or not. -/
def CheckedSet : List Event → Prop
  | ⟨.request (.setDirParms _ _ _ fp), _⟩ :: tr => Checked fp.unixprivs.permissions tr
  | ⟨.request (.setFileDirParms _ _ _ fp), _⟩ :: tr => Checked fp.unixprivs.permissions tr
  | _ => True

/-- No lookup behind the request that sets the mode fails or shows that bits of it were lost. -/
def Kept (tr : List Event) : Prop := CheckedSet (tr.dropWhile fun ev => (outcome ev).isNone)

/-- The answers for which `afp_ml_chmod()` is faithful. -/
structure ChmodAnswered (vol : Volume) (mode : UInt32) (tr : List Event) : Prop where
  /-- On a volume without Unix privileges the file is not found. -/
  ignored : vol.has VOLUME_EXTRA_FLAGS_VOL_SUPPORTS_UNIX = false →
    (translateUidgidToClient vol 0 0).1 = 0 → ¬ EndsInLookup tr
  /-- The mode that is asked for is not garbage. -/
  read : vol.has VOLUME_EXTRA_FLAGS_VOL_SUPPORTS_UNIX = true → ¬ EndsUnread mode tr
  /-- The privileges are set, or the server does not know them. -/
  set : ∀ rc, outcomes tr = [rc] → rc = kFPNoErr ∨ rc = kFPBitmapErr ∧ Kept tr

/-- The answers for which an operation is faithful. -/
def Operation.Answered (vol : Volume) (tr : List Event) : Operation → Prop
  | .creat path _ => ¬ CreatesVirtual vol path tr
  | .chmod _ mode => ChmodAnswered vol mode tr
  | .unlink _ => ∀ rc ∈ outcomes tr, rc ∈ deleteCodes
  | .mkdir _ => ∀ rc ∈ outcomes tr, rc ∈ createDirCodes
  | .rmdir _ => ∀ rc ∈ outcomes tr, rc ∈ deleteCodes
  | .utime _ _ => ∀ rc ∈ outcomes tr, rc ∈ utimeCodes
  | .symlink _ _ => ∀ rc, outcomes tr = [kFPNoErr, rc, kFPNoErr] → rc = kFPNoErr

/-! ## Outcomes of programs -/

theorem outcomes_append (tr tr' : List Event) : outcomes (tr ++ tr') = outcomes tr ++ outcomes tr' :=
  List.filterMap_append

theorem outcome_of_permitted {ev : Event} (h : Permitted ev.1) : outcome ev = none := by
  obtain ⟨e, r⟩ := ev
  cases e with
  | request r => exact if_neg (ne_true_of_eq_false h)
  | _ => rfl

theorem outcomes_of_permitted {tr : List Event} (h : ∀ ev ∈ tr, Permitted ev.1) :
    outcomes tr = [] :=
  List.filterMap_eq_nil_iff.mpr fun ev hev => outcome_of_permitted (h ev hev)

/-- What a program returns, with the outcomes of its requests, satisfies `R`. -/
def Outcomes {α : Type} (R : List ℤ → α → Prop) (p : AfpM α) : Prop :=
  Prog.Returns (fun tr a => R (outcomes tr) a) p

section Outcomes

variable {α β : Type} {R : List ℤ → β → Prop} {p : AfpM α} {f : α → AfpM β}

theorem outcomes_ite {c : Prop} [Decidable c] {p q : AfpM β} (hp : c → Outcomes R p)
    (hq : ¬ c → Outcomes R q) : Outcomes R (if c then p else q) :=
  Prog.returns_ite hp hq

theorem outcomes_bind {S : List ℤ → α → Prop} (hp : Outcomes S p)
    (hf : ∀ codes a, S codes a → Outcomes (fun codes' b => R (codes ++ codes') b) (f a)) :
    Outcomes R (p >>= f) := by
  refine .bind (hp.mono fun tr a hS => (hf _ a hS).mono fun tr' b hR => ?_)
  rw [outcomes_append]
  exact hR

/-- What changes nothing has no outcome. -/
theorem outcomes_of_harmless (hp : Harmless p) : Outcomes (fun codes _ => codes = []) p :=
  hp.returns.mono fun _ _ h => outcomes_of_permitted h

theorem outcomes_bind_harmless (hp : Harmless p) (hf : ∀ a, Outcomes R (f a)) :
    Outcomes R (p >>= f) :=
  outcomes_bind (outcomes_of_harmless hp) fun _ a hcodes => by
    subst hcodes
    exact hf a

/-- A request that changes something has one outcome. -/
theorem outcomes_bind_request {r : Request} {f : ℤ → AfpM β} (h : mutates r.command = true)
    (hf : ∀ rc, Outcomes (fun codes b => R (rc :: codes) b) (f rc)) :
    Outcomes R (requestRc r >>= f) := by
  refine outcomes_bind (S := fun codes rc => codes = [rc]) ?_ fun codes rc hcodes => ?_
  · intro reply
    exact congrArg Option.toList (if_pos h : outcome ⟨.request r, reply⟩ = some reply.rc)
  · subst hcodes
    exact hf rc

/-- A refusing hook lets the path pass, or the operation fails. -/
theorem outcomes_bind_hook {vol : Volume} {path : CString} {p : ℤ → AfpM ℤ}
    {R : List ℤ → ℤ → Prop} (hfail : R [] (-EPERM)) (hp : Outcomes R (p 0)) :
    Outcomes R (do
      let ret ← refuseVirtual vol path
      if ret < 0 then return ret else if ret = 1 then return 0 else p ret) := by
  refine outcomes_bind (S := fun codes ret => codes = [] ∧ (ret = 0 ∨ ret = -EPERM)) ?_ ?_
  · intro beyond
    exact Prog.returns_ite (fun _ => ⟨rfl, .inl rfl⟩) fun _ => ⟨rfl, .inr rfl⟩
  · rintro codes ret ⟨rfl, rfl | rfl⟩
    · exact hp
    · exact outcomes_ite (fun _ => hfail) fun h => absurd (by decide) h

end Outcomes

/-! ## Operations with one request -/

/-- The operation fails before its request, or translates the result code. -/
def Translates (err : ℤ → ℤ) (codes : List ℤ) (ret : ℤ) : Prop :=
  codes = [] ∧ ret < 0 ∨ ∃ rc, codes = [rc] ∧ ret = -err rc

/-- An operation with one request is faithful if the code is listed: then it is success or an
error. -/
theorem faithful_iff_of_translates {err : ℤ → ℤ} {codes : List ℤ} {tr : List Event} {ret : ℤ}
    (hlisted : ∀ rc ∈ codes, rc = kFPNoErr ∨ 0 < err rc) (hsuccess : err kFPNoErr = 0)
    (hother : ∀ rc, rc ∉ codes → err rc = 0) (hne : kFPNoErr ∈ codes)
    (h : Translates err (outcomes tr) ret) :
    Faithful False tr ret ↔ ∀ rc ∈ outcomes tr, rc ∈ codes := by
  rcases h with ⟨hcodes, hret⟩ | ⟨rc, hcodes, rfl⟩
  · rw [hcodes]
    exact ⟨fun _ rc hrc => absurd hrc List.not_mem_nil, fun _ => .inl hret⟩
  · rw [Faithful, hcodes, List.forall_mem_singleton]
    constructor
    · rintro (hneg | ⟨-, ⟨-, hall⟩ | ⟨-, hfalse⟩⟩)
      · by_contra hrc
        rw [hother rc hrc] at hneg
        exact absurd hneg (by decide)
      · rw [List.forall_mem_singleton.mp hall]
        exact hne
      · exact hfalse.elim
    · intro hrc
      rcases hlisted rc hrc with rfl | hpos
      · rw [hsuccess]
        exact .inr ⟨rfl, .inl ⟨List.cons_ne_nil _ _, List.forall_mem_singleton.mpr rfl⟩⟩
      · exact .inl (Int.neg_neg_of_pos hpos)

section

variable (vol : Volume) (path : CString)

theorem translates_afpMlUnlink : Outcomes (Translates unlinkErr) (afpMlUnlink vol path) := by
  refine outcomes_bind_harmless (harmless_ofOption _) fun converted => ?_
  refine outcomes_ite (fun _ => .inl ⟨rfl, by decide⟩) fun _ => ?_
  refine outcomes_ite (fun _ => .inl ⟨rfl, by decide⟩) fun _ => ?_
  refine outcomes_bind_hook (.inl ⟨rfl, by decide⟩) ?_
  refine outcomes_bind_harmless (harmless_resolve _) fun found => ?_
  refine outcomes_bind_harmless (harmless_isDir _ _) fun directory => ?_
  refine outcomes_ite (fun _ => .inl ⟨rfl, by decide⟩) fun _ => ?_
  refine outcomes_ite (fun _ => .inl ⟨rfl, by decide⟩) fun _ => ?_
  exact outcomes_bind_request rfl fun rc => .inr ⟨rc, rfl, rfl⟩

theorem translates_afpMlMkdir : Outcomes (Translates mkdirErr) (afpMlMkdir vol path) := by
  refine outcomes_bind_harmless (harmless_ofOption _) fun converted => ?_
  refine outcomes_ite (fun _ => .inl ⟨rfl, by decide⟩) fun _ => ?_
  refine outcomes_ite (fun _ => .inl ⟨rfl, by decide⟩) fun _ => ?_
  refine outcomes_ite (fun _ => .inl ⟨rfl, by decide⟩) fun _ => ?_
  refine outcomes_bind_hook (.inl ⟨rfl, by decide⟩) ?_
  refine outcomes_bind_harmless (harmless_resolve _) fun found => ?_
  exact outcomes_bind_request rfl fun rc => .inr ⟨rc, rfl, rfl⟩

theorem translates_afpMlRmdir : Outcomes (Translates rmdirErr) (afpMlRmdir vol path) := by
  refine outcomes_ite (fun _ => .inl ⟨rfl, by decide⟩) fun _ => ?_
  refine outcomes_bind_harmless (harmless_ofOption _) fun converted => ?_
  refine outcomes_ite (fun _ => .inl ⟨rfl, by decide⟩) fun _ => ?_
  refine outcomes_ite (fun _ => .inl ⟨rfl, by decide⟩) fun _ => ?_
  refine outcomes_bind_hook (.inl ⟨rfl, by decide⟩) ?_
  refine outcomes_bind_harmless (harmless_resolve _) fun found => ?_
  refine outcomes_bind_harmless (harmless_isDir _ _) fun directory => ?_
  refine outcomes_ite (fun _ => .inl ⟨rfl, by decide⟩) fun _ => ?_
  refine outcomes_bind_request rfl fun rc => ?_
  refine outcomes_ite (fun hrc => ?_) fun _ => .inr ⟨rc, rfl, rfl⟩
  exact fun _ => .inr ⟨rc, rfl, by rw [hrc]; rfl⟩

/-- The error that `afp_ml_utime()` makes of the result of its request. -/
def utimeErr (rc : ℤ) : ℤ :=
  if rc = kFPAccessDenied then EACCES else if rc = kFPObjectNotFound then ENOENT else 0

theorem translates_afpMlUtime (modtime : UInt32) :
    Outcomes (Translates utimeErr) (afpMlUtime vol path modtime) := by
  refine outcomes_ite (fun _ => .inl ⟨rfl, by decide⟩) fun _ => ?_
  refine outcomes_ite (fun _ => .inl ⟨rfl, by decide⟩) fun _ => ?_
  refine outcomes_bind_harmless (harmless_ofOption _) fun converted => ?_
  refine outcomes_ite (fun _ => .inl ⟨rfl, by decide⟩) fun _ => ?_
  refine outcomes_bind_hook (.inl ⟨rfl, by decide⟩) ?_
  refine outcomes_bind_harmless (harmless_resolve _) fun found => ?_
  refine outcomes_bind_harmless (harmless_isDir _ _) fun directory => ?_
  have hreturn : ∀ rc, Outcomes (fun codes ret => Translates utimeErr (rc :: codes) ret)
      (if rc = kFPAccessDenied then return -EACCES
      else if rc = kFPObjectNotFound then return -ENOENT
      else return -0 : AfpM ℤ) := by
    intro rc
    refine outcomes_ite (fun h => ?_) fun h => outcomes_ite (fun h' => ?_) fun h' => ?_
    · exact .inr ⟨rc, rfl, by rw [utimeErr, if_pos h]⟩
    · exact .inr ⟨rc, rfl, by rw [utimeErr, if_neg h, if_pos h']⟩
    · exact .inr ⟨rc, rfl, by rw [utimeErr, if_neg h, if_neg h']⟩
  cases directory with
  | true => exact outcomes_bind_request rfl hreturn
  | false => exact outcomes_bind_request rfl hreturn

end

theorem unlinkErr_of_not_mem {rc : ℤ} (h : rc ∉ deleteCodes) : unlinkErr rc = 0 := by
  simp only [deleteCodes, List.mem_cons, List.not_mem_nil, or_false, not_or] at h
  simp [unlinkErr, h]

theorem rmdirErr_of_not_mem {rc : ℤ} (h : rc ∉ deleteCodes) : rmdirErr rc = 0 := by
  simp only [deleteCodes, List.mem_cons, List.not_mem_nil, or_false, not_or] at h
  simp [rmdirErr, h]

theorem mkdirErr_of_not_mem {rc : ℤ} (h : rc ∉ createDirCodes) : mkdirErr rc = 0 := by
  simp only [createDirCodes, List.mem_cons, List.not_mem_nil, or_false, not_or] at h
  simp [mkdirErr, h]

theorem utimeErr_of_not_mem {rc : ℤ} (h : rc ∉ utimeCodes) : utimeErr rc = 0 := by
  simp only [utimeCodes, List.mem_cons, List.not_mem_nil, or_false, not_or] at h
  simp [utimeErr, h]

/-! ## Symbolic links -/

/-- What `afp_ml_symlink()` does: it fails before the last request, or returns the result of it. -/
def SymlinkOutcome (codes : List ℤ) (ret : ℤ) : Prop :=
  codes.length ≤ 2 ∧ ret < 0 ∨
    ∃ rc rc', codes = [kFPNoErr, rc, rc'] ∧ ret = -symlinkErr rc'

theorem createErr_cases (rc : ℤ) : createErr rc = 0 ∧ rc = kFPNoErr ∨ 0 < createErr rc := by
  unfold createErr
  split_ifs with h1 h2 h3 h4 h5 h6
  · exact .inr (by decide)
  · exact .inr (by decide)
  · exact .inr (by decide)
  · exact .inr (by decide)
  · exact .inr (by decide)
  · exact .inl ⟨rfl, h6⟩
  · exact .inr (by decide)

theorem symlinkErr_cases (rc : ℤ) : symlinkErr rc = 0 ∧ rc = kFPNoErr ∨ 0 < symlinkErr rc := by
  unfold symlinkErr
  split_ifs with h1 h2 h3 h4
  · exact .inr (by decide)
  · exact .inr (by decide)
  · exact .inr (by decide)
  · exact .inl ⟨rfl, h4⟩
  · exact .inr (by decide)

theorem symlinkOutcome_afpMlSymlink (vol : Volume) (path1 path2 : CString) :
    Outcomes SymlinkOutcome (afpMlSymlink vol path1 path2) := by
  have hfail : ∀ {ret : ℤ}, ret < 0 → SymlinkOutcome [] ret := fun h => .inl ⟨Nat.zero_le 2, h⟩
  refine outcomes_ite (fun _ => hfail (by decide)) fun _ => ?_
  refine outcomes_bind_harmless (harmless_ofOption _) fun converted1 => ?_
  refine outcomes_ite (fun _ => hfail (by decide)) fun _ => ?_
  refine outcomes_bind_harmless (harmless_ofOption _) fun converted2 => ?_
  refine outcomes_ite (fun _ => hfail (by decide)) fun _ => ?_
  refine outcomes_ite (fun _ => hfail (by decide)) fun _ => ?_
  refine outcomes_bind_hook (hfail (by decide)) ?_
  refine outcomes_bind_harmless (harmless_resolve _) fun found => ?_
  refine outcomes_bind_request rfl fun rc => ?_
  rcases createErr_cases rc with ⟨hcreated, rfl⟩ | herr
  · refine outcomes_ite (fun h => absurd hcreated h) fun _ => ?_
    refine outcomes_bind_harmless (p := automatic) (harmless_perform trivial) fun handle => ?_
    refine outcomes_bind_harmless (p := uninitFileInfo) (harmless_perform trivial) fun fp => ?_
    refine outcomes_bind_harmless (p := afpOpenfork ..) (harmless_perform rfl) fun reply => ?_
    refine outcomes_bind_harmless (p := addOpenedFork ..) (harmless_perform trivial) fun _ => ?_
    refine outcomes_bind_request rfl fun rc => ?_
    refine outcomes_bind_harmless (harmless_requestRc rfl) fun closed => ?_
    refine outcomes_ite (fun _ => .inl ⟨Nat.le_refl 2, by decide⟩) fun _ => ?_
    refine outcomes_bind_harmless (p := removeOpenedFork ..) (harmless_perform trivial) fun _ => ?_
    exact outcomes_bind_request rfl fun rc' => .inr ⟨rc, rc', rfl, rfl⟩
  · exact outcomes_ite (fun _ => .inl ⟨Nat.le_succ 1, Int.neg_neg_of_pos herr⟩)
      fun h => absurd (not_not.mp h) (Int.ne_of_gt herr)

theorem faithful_iff_of_symlinkOutcome {tr : List Event} {ret : ℤ}
    (h : SymlinkOutcome (outcomes tr) ret) :
    Faithful False tr ret ↔ ∀ rc, outcomes tr = [kFPNoErr, rc, kFPNoErr] → rc = kFPNoErr := by
  rcases h with ⟨hlength, hret⟩ | ⟨rc, rc', hcodes, rfl⟩
  · refine ⟨fun _ rc hrc => ?_, fun _ => .inl hret⟩
    rw [hrc] at hlength
    exact absurd hlength (by decide : ¬ 3 ≤ 2)
  · rw [Faithful, hcodes]
    rcases symlinkErr_cases rc' with ⟨hsuccess, rfl⟩ | herr
    · rw [hsuccess]
      constructor
      · rintro (hneg | ⟨-, ⟨-, hall⟩ | ⟨-, hfalse⟩⟩) rc'' hrc
        · exact absurd hneg (by decide)
        · cases hrc
          exact hall rc (by simp)
        · exact hfalse.elim
      · intro hrc
        exact .inr ⟨rfl, .inl ⟨List.cons_ne_nil _ _, by simp [hrc rc rfl]⟩⟩
    · refine ⟨fun _ rc'' hrc => ?_, fun _ => .inl (Int.neg_neg_of_pos herr)⟩
      cases hrc
      exact absurd herr (by decide)

/-! ## Setting Unix privileges -/

/-- What `set_unixprivs()` does: one request, and for some servers a check whether it kept the
bits. -/
inductive SetUnixprivs (tr : List Event) (ret : ℤ) : Prop where
  | unchecked (rc : ℤ) (flags : ChmodFlags) (hcodes : outcomes tr = [rc])
    (hlast : tr.getLast? = some ⟨.chmodFlags, flags⟩) (hkept : Kept tr) (hret : ret = -setUnixprivsErr rc)
  | unread (rc : ℤ) (did : UInt32) (path : CString) (reply : Reply AfpFileInfo)
    (hcodes : outcomes tr = [rc]) (hlast : tr.getLast? = some ⟨privsRequest did path, reply⟩)
    (hreply : lookupErr reply.rc ≠ 0) (hkept : ¬ Kept tr) (hret : ret = -lookupErr reply.rc)
  | kept (rc : ℤ) (flags : ChmodFlags) (hcodes : outcomes tr = [rc])
    (hlast : tr.getLast? = some ⟨.setChmodFlags flags, ()⟩) (hkept : Kept tr)
    (hret : ret = -setUnixprivsErr rc)
  | lost (rc : ℤ) (flags : ChmodFlags) (hcodes : outcomes tr = [rc])
    (hlast : tr.getLast? = some ⟨.setChmodFlags flags, ()⟩) (hkept : ¬ Kept tr) (hret : ret = -EFAULT)

/-- The test for a volume without Unix privileges is never true. -/
theorem not_supports_eq_zero (flags : ℕ) :
    (if flags = 0 then 1 else 0) &&& VOLUME_EXTRA_FLAGS_VOL_SUPPORTS_UNIX = 0 := by
  split <;> rfl

theorem returns_bind_ofOption {α β : Type} {T : List Event → β → Prop} {o : Option α}
    {f : α → AfpM β} (hf : ∀ a, Prog.Returns T (f a)) : Prog.Returns T (ofOption o >>= f) := by
  cases o with
  | none => trivial
  | some a => exact hf a

/-- What changes nothing is a prefix of the trace without outcomes. -/
theorem returns_bind_harmless {α β : Type} {T : List Event → β → Prop} {p : AfpM α}
    {f : α → AfpM β} (hp : Harmless p)
    (hf : ∀ tr a, outcomes tr = [] → Prog.Returns (fun tr' b => T (tr ++ tr') b) (f a)) :
    Prog.Returns T (p >>= f) :=
  .bind (hp.returns.mono fun tr a h => hf tr a (outcomes_of_permitted h))

theorem getLast?_of_tail {ev last : Event} {tr tr' : List Event} (h : tr'.getLast? = some last) :
    (ev :: (tr ++ tr')).getLast? = some last := by
  rw [List.getLast?_cons, List.getLast?_append, h]
  rfl

theorem getLast?_of_tail' {ev last : Event} {tr : List Event} (h : tr.getLast? = some last) :
    (ev :: (tr ++ [])).getLast? = some last := by
  rw [List.append_nil, List.getLast?_cons, h]
  rfl

/-- What comes before the request does not matter. -/
theorem kept_append {tr tr' : List Event} (h : outcomes tr = []) : Kept (tr ++ tr') ↔ Kept tr' := by
  have hnone : ∀ ev ∈ tr, (outcome ev).isNone = true := fun ev hev =>
    Option.isNone_iff_eq_none.mpr (List.filterMap_eq_nil_iff.mp h ev hev)
  rw [Kept, List.dropWhile_append_of_pos hnone]
  exact Iff.rfl

/-- A request that sets Unix privileges. -/
theorem returns_setPrivs (dirid : UInt32) (basename : CString) (fp : AfpFileInfo) :
    Prog.Returns (fun tr rc => outcomes tr = [rc] ∧
        ∀ tr', Kept (tr ++ tr') ↔ Checked fp.unixprivs.permissions tr')
      (if fp.isdir then requestRc (.setDirParms dirid basename kFPUnixPrivsBit fp)
      else requestRc (.setFileDirParms dirid basename kFPUnixPrivsBit fp)) :=
  Prog.returns_ite (fun _ _ => ⟨rfl, fun _ => Iff.rfl⟩) fun _ _ => ⟨rfl, fun _ => Iff.rfl⟩

theorem returns_setUnixprivs (vol : Volume) (dirid : UInt32) (basename : CString)
    (fp : AfpFileInfo) :
    Prog.Returns (fun tr res => SetUnixprivs tr res.1) (setUnixprivs vol dirid basename fp) := by
  unfold setUnixprivs
  refine Prog.returns_ite (fun h => absurd (not_supports_eq_zero _) h) fun _ => ?_
  refine Prog.returns_bind_perform (e := Effect.chmodFlags) fun flags => ?_
  extract_lets unixprivs fp'
  clear_value fp'
  refine .bind ((returns_setPrivs ..).mono fun tr rc h => ?_)
  obtain ⟨hcodes, hkept⟩ := h
  have hcodes' : ∀ {tr' : List Event}, outcomes tr' = [] →
      outcomes (⟨.chmodFlags, flags⟩ :: (tr ++ tr')) = [rc] := by
    intro tr' htr'
    rw [show outcomes (⟨.chmodFlags, flags⟩ :: (tr ++ tr')) = outcomes (tr ++ tr') from rfl,
      outcomes_append, hcodes, htr', List.append_nil]
  have hkept' : ∀ tr', Kept (⟨.chmodFlags, flags⟩ :: (tr ++ tr')) ↔
      Checked fp'.unixprivs.permissions tr' := hkept
  refine Prog.returns_bind_perform (e := Effect.chmodFlags) fun flags' => ?_
  refine Prog.returns_ite (fun _ => ?_) fun _ => ?_
  · refine Prog.returns_bind_perform (e := Effect.uninitFileInfo) fun fp2 => ?_
    intro reply
    refine Prog.returns_ite (fun hreply => ?_) fun hreply => ?_
    · have hlookup : lookupErr reply.rc ≠ 0 := fun h => hreply (by rw [h]; rfl)
      exact .unread rc dirid basename reply (hcodes' rfl) (getLast?_of_tail rfl) hlookup
        (fun h => hlookup ((hkept' _).mp h).1) rfl
    · have hlookup : lookupErr reply.rc = 0 := Int.neg_eq_zero.mp (not_not.mp hreply)
      refine Prog.returns_bind_perform (e := Effect.chmodFlags) fun flags3 => ?_
      refine Prog.returns_bind_perform (e := Effect.setChmodFlags _) fun _ => ?_
      refine Prog.returns_bind_perform (e := Effect.chmodFlags) fun flags4 => ?_
      refine Prog.returns_ite (fun hbits => ?_) fun hbits => ?_
      · refine Prog.returns_bind_perform (e := Effect.setChmodFlags _) fun _ => ?_
        exact .kept rc _ (hcodes' rfl) (getLast?_of_tail rfl) ((hkept' _).mpr ⟨hlookup, hbits⟩) rfl
      · refine Prog.returns_bind_perform (e := Effect.setChmodFlags _) fun _ => ?_
        exact .lost rc _ (hcodes' rfl) (getLast?_of_tail rfl) (fun h => hbits ((hkept' _).mp h).2) rfl
  · exact .unchecked rc flags' (hcodes' rfl) (getLast?_of_tail rfl) ((hkept' _).mpr trivial) rfl

/-! ## Creating a file -/

/-- What `afp_ml_creat()` does on a path that is not virtual. -/
def CreatOutcome (codes : List ℤ) (ret : ℤ) : Prop := ret < 0 ∨ ret = 0 ∧ Succeeded codes

theorem succeeded_one : Succeeded [kFPNoErr] :=
  ⟨List.cons_ne_nil _ _, List.forall_mem_singleton.mpr rfl⟩

theorem succeeded_two : Succeeded [kFPNoErr, kFPNoErr] :=
  ⟨List.cons_ne_nil _ _, List.forall_mem_cons.mpr ⟨rfl, List.forall_mem_singleton.mpr rfl⟩⟩

theorem setUnixprivsErr_cases (rc : ℤ) :
    setUnixprivsErr rc = 0 ∧ rc = kFPNoErr ∨ 0 < setUnixprivsErr rc := by
  unfold setUnixprivsErr
  split_ifs with h1 h2 h3 h4
  · exact .inr (by decide)
  · exact .inr (by decide)
  · exact .inr (by decide)
  · exact .inl ⟨rfl, h4⟩
  · exact .inr (by decide)

theorem lookupErr_cases (rc : ℤ) : lookupErr rc = 0 ∧ rc = kFPNoErr ∨ 0 < lookupErr rc := by
  unfold lookupErr
  split_ifs with h1 h2 h3
  · exact .inr (by decide)
  · exact .inr (by decide)
  · exact .inl ⟨rfl, h3⟩
  · exact .inr (by decide)

/-- The privileges are set if `set_unixprivs()` returns 0. -/
theorem outcomes_setUnixprivs (vol : Volume) (dirid : UInt32) (basename : CString)
    (fp : AfpFileInfo) :
    Outcomes (fun codes res => ∃ rc, codes = [rc] ∧ (res.1 = 0 → rc = kFPNoErr))
      (setUnixprivs vol dirid basename fp) := by
  have hzero : ∀ {rc : ℤ}, -setUnixprivsErr rc = 0 → rc = kFPNoErr := by
    intro rc h
    rcases setUnixprivsErr_cases rc with ⟨-, hrc⟩ | hpos
    · exact hrc
    · exact absurd (Int.neg_eq_zero.mp h) (Int.ne_of_gt hpos)
  refine (returns_setUnixprivs vol dirid basename fp).mono fun tr res h => ?_
  cases h with
  | unchecked rc flags hcodes hlast hkept hret => exact ⟨rc, hcodes, fun h => hzero (hret ▸ h)⟩
  | unread rc did path reply hcodes hlast hreply hkept hret =>
    exact ⟨rc, hcodes, fun h => absurd (Int.neg_eq_zero.mp (hret ▸ h)) hreply⟩
  | kept rc flags hcodes hlast hkept hret => exact ⟨rc, hcodes, fun h => hzero (hret ▸ h)⟩
  | lost rc flags hcodes hlast hkept hret =>
    exact ⟨rc, hcodes, fun h => absurd (hret ▸ h) (by decide)⟩

theorem returns_translated (vol : Volume) (path : CString) :
    Prog.Returns (fun tr found => ∃ beyond : CString, tr = [⟨.uninitPath, beyond⟩] ∧
      found.1 = (extraTranslate vol path beyond).1) (translated vol path) :=
  fun beyond => ⟨beyond, rfl, rfl⟩

/-- The hook takes over for two kinds of virtual files, and fails or lets the path pass. -/
theorem returns_appledoubleCreat (vol : Volume) (path : CString) :
    Prog.Returns (fun tr ret => outcomes tr = [] ∧
      (ret = 1 ∧ CreatesVirtual vol path tr ∨ (ret = 0 ∨ ret < 0) ∧
        ∀ tr', ¬ CreatesVirtual vol path (tr ++ tr'))) (appledoubleCreat vol path) := by
  have hother : ∀ {beyond : CString}, (extraTranslate vol path beyond).1 ≠ .resource →
      (extraTranslate vol path beyond).1 ≠ .finderinfo →
        ∀ tr', ¬ CreatesVirtual vol path (⟨.uninitPath, beyond⟩ :: tr') := by
    rintro beyond hresource hfinderinfo tr' ⟨_, hhead, hkind⟩
    cases hhead
    exact hkind.elim hresource hfinderinfo
  refine .bind ((returns_translated vol path).mono ?_)
  rintro tr ⟨kind, newpath⟩ ⟨beyond, rfl, hkind⟩
  cases kind with
  | resource => exact ⟨rfl, .inl ⟨rfl, beyond, rfl, .inl hkind.symm⟩⟩
  | finderinfo => exact ⟨rfl, .inl ⟨rfl, beyond, rfl, .inr hkind.symm⟩⟩
  | none =>
    exact ⟨rfl, .inr ⟨.inl rfl, hother (fun h => by cases hkind.trans h)
      fun h => by cases hkind.trans h⟩⟩
  | comment =>
    exact ⟨rfl, .inr ⟨.inl rfl, hother (fun h => by cases hkind.trans h)
      fun h => by cases hkind.trans h⟩⟩
  | appledouble =>
    exact ⟨rfl, .inr ⟨.inr (by decide), hother (fun h => by cases hkind.trans h)
      fun h => by cases hkind.trans h⟩⟩
  | serverIcon =>
    exact ⟨rfl, .inr ⟨.inr (by decide), hother (fun h => by cases hkind.trans h)
      fun h => by cases hkind.trans h⟩⟩

theorem returns_afpMlCreat (vol : Volume) (path : CString) (mode : UInt32) :
    Prog.Returns (fun tr ret => Faithful False tr ret ↔ ¬ CreatesVirtual vol path tr)
      (afpMlCreat vol path mode) := by
  have hnil : ¬ CreatesVirtual vol path [] := by
    rintro ⟨beyond, hhead, -⟩
    cases hhead
  refine returns_bind_ofOption fun converted => ?_
  refine Prog.returns_ite (fun _ => iff_of_true (.inl (by decide)) hnil) fun _ => ?_
  refine Prog.returns_ite (fun _ => iff_of_true (.inl (by decide)) hnil) fun _ => ?_
  refine .bind ((returns_appledoubleCreat vol path).mono ?_)
  rintro tr ret ⟨htr, ⟨rfl, hvirtual⟩ | ⟨rfl | hneg, hother⟩⟩
  · refine Prog.returns_ite (fun h => absurd h (by decide)) fun _ => ?_
    refine Prog.returns_ite (fun _ => ?_) fun h => absurd rfl h
    refine iff_of_false ?_ (not_not.mpr ((List.append_nil tr).symm ▸ hvirtual))
    rintro (h | ⟨-, ⟨hne, -⟩ | ⟨-, hfalse⟩⟩)
    · exact absurd h (by decide)
    · rw [List.append_nil] at hne
      exact hne htr
    · exact hfalse
  · refine Prog.returns_ite (fun h => absurd h (by decide)) fun _ => ?_
    refine Prog.returns_ite (fun h => absurd h (by decide)) fun _ => ?_
    refine .mono (Q := fun tr ret => CreatOutcome (outcomes tr) ret) ?_ fun tr' ret h => ?_
    · -- the file is created, and its mode is set if it has to be
      change Outcomes CreatOutcome _
      refine outcomes_ite (fun _ => .inl (by decide)) fun _ => ?_
      refine outcomes_bind_harmless (harmless_resolve _) fun found => ?_
      refine outcomes_bind_request rfl fun rc => ?_
      rcases createErr_cases rc with ⟨hcreated, rfl⟩ | herr
      · refine outcomes_ite (fun h => absurd hcreated h) fun _ => ?_
        refine outcomes_ite (fun _ => .inr ⟨rfl, succeeded_one⟩) fun _ => ?_
        refine outcomes_bind_harmless (p := uninitFileInfo) (harmless_perform trivial) fun fp => ?_
        refine outcomes_bind_harmless (harmless_getUnixprivs ..) fun privs => ?_
        refine outcomes_ite (fun _ => .inr ⟨rfl, succeeded_one⟩) fun _ => ?_
        refine outcomes_ite (fun _ => .inr ⟨rfl, succeeded_one⟩) fun _ => ?_
        refine outcomes_bind (outcomes_setUnixprivs ..) ?_
        rintro codes ⟨ret, fp'⟩ ⟨rc, rfl, hret⟩
        refine outcomes_ite (fun _ => .inl (by decide)) fun _ => ?_
        refine outcomes_ite (fun _ => .inl (by decide)) fun _ => ?_
        refine outcomes_ite (fun h => ?_) fun _ => .inl (by decide)
        rw [hret h]
        exact .inr ⟨rfl, succeeded_two⟩
      · exact outcomes_ite (fun _ => .inl (Int.neg_neg_of_pos herr))
          fun h => absurd (not_not.mp h) (Int.ne_of_gt herr)
    · refine iff_of_true ?_ (hother tr')
      rw [Faithful, outcomes_append, htr, List.nil_append]
      exact h.imp_right fun h => ⟨h.1, .inl h.2⟩
  · exact Prog.returns_ite (fun _ => iff_of_true (.inl hneg) (hother [])) fun h => absurd hneg h

/-! ## Looking up -/

/-- A path that is not resolved is not looked up. -/
theorem returns_getDirid (path basename : CString) (dirid : UInt32) :
    Prog.Returns (fun tr found => found.1 < 0 → tr = []) (getDirid path basename dirid) := by
  have hzero : ¬ (0 : ℤ) < 0 := by decide
  unfold getDirid
  refine Prog.returns_ite (fun _ h => absurd h hzero) fun _ => ?_
  split
  next => exact fun _ => rfl
  next p _ =>
    refine Prog.returns_ite (fun _ => trivial) fun _ => ?_
    refine Prog.returns_ite (fun _ h => absurd h hzero) fun _ => ?_
    refine Prog.returns_ite (fun _ => trivial) fun _ => ?_
    refine returns_bind_harmless (p := findDirid _) (harmless_perform trivial) fun tr newdid _ => ?_
    refine Prog.returns_ite (fun _ h => absurd h hzero) fun _ => ?_
    refine returns_bind_harmless (harmless_topmostParent _) fun tr' parent _ => ?_
    refine returns_bind_harmless (p := uninitFileInfo) (harmless_perform trivial) fun _ fi _ => ?_
    exact returns_bind_harmless (harmless_walkForward ..) fun _ _ _ h => absurd h hzero

theorem returns_resolve (path : CString) :
    Prog.Returns (fun tr found => found.1 < 0 →
      ∃ dirid : UInt32, tr.getLast? = some ⟨.uninitInt, dirid⟩) (resolve path) := by
  intro basename dirid
  refine (returns_getDirid path basename dirid).mono fun tr found h hneg => ?_
  rw [h hneg]
  exact ⟨dirid, rfl⟩

/-- The result of the translation of ids depends on the volume only. -/
theorem translateUidgidToClient_fst (vol : Volume) (uid gid : UInt32) :
    (translateUidgidToClient vol uid gid).1 = (translateUidgidToClient vol 0 0).1 := by
  unfold translateUidgidToClient
  split <;> rfl

/-- The attributes of a file are known if the last lookup is answered and the ids can be
translated. -/
theorem returns_llGetattr (vol : Volume) (path : CString) :
    Prog.Returns (fun tr found => found.1 < 0 ∧ ¬ ((translateUidgidToClient vol 0 0).1 = 0 ∧
      EndsInLookup tr) ∨ found.1 = 0 ∧ (translateUidgidToClient vol 0 0).1 = 0 ∧ EndsInLookup tr)
      (llGetattr vol path false) := by
  have hnil : ¬ EndsInLookup [] := by
    rintro ⟨did, fb, db, path, stored, hlast⟩
    cases hlast
  refine Prog.returns_ite (fun _ => .inl ⟨by decide, fun h => hnil h.2⟩) fun _ => ?_
  refine Prog.returns_bind_perform (e := Effect.uninitFileInfo) fun fp => ?_
  refine .bind ((returns_resolve path).mono fun tr found hfound => ?_)
  refine Prog.returns_ite (fun hneg => .inl ⟨by decide, fun h => ?_⟩) fun _ => ?_
  · obtain ⟨dirid, hlast⟩ := hfound hneg
    obtain ⟨did, fb, db, path', stored, hlookup⟩ := h.2
    rw [getLast?_of_tail' hlast] at hlookup
    cases hlookup
  · intro reply
    rcases lookupErr_cases reply.rc with ⟨hzero, hreply⟩ | hpos
    · refine Prog.returns_ite (fun h => absurd hzero h) fun _ => ?_
      have hids := translateUidgidToClient_fst vol (reply.stored.getD fp).unixprivs.uid
        (reply.stored.getD fp).unixprivs.gid
      have hneg : - EIO < 0 := by decide
      refine Prog.returns_ite (fun h => .inl ⟨hneg, fun h' => h (hids.trans h'.1)⟩)
        fun h => .inr ⟨rfl, hids.symm.trans (not_not.mp h), ?_⟩
      obtain ⟨rc, stored⟩ := reply
      cases hreply
      exact ⟨_, _, _, _, stored, getLast?_of_tail rfl⟩
    · refine Prog.returns_ite (fun _ => .inl ⟨Int.neg_neg_of_pos hpos, fun h => ?_⟩)
        fun h => absurd (not_not.mp h) (Int.ne_of_gt hpos)
      obtain ⟨did, fb, db, path', stored, hlookup⟩ := h.2
      rw [getLast?_of_tail rfl] at hlookup
      cases hlookup
      exact absurd hpos (show ¬ 0 < lookupErr kFPNoErr by decide)

/-- A refusing hook looks at the memory behind the path, and lets the path pass or fails. -/
theorem returns_refuseVirtual (vol : Volume) (path : CString) :
    Prog.Returns (fun tr ret => ∃ beyond : CString, tr = [⟨.uninitPath, beyond⟩] ∧
      (ret = 0 ∨ ret = -EPERM)) (refuseVirtual vol path) := fun beyond =>
  Prog.returns_ite (fun _ => ⟨beyond, rfl, .inl rfl⟩) fun _ => ⟨beyond, rfl, .inr rfl⟩

theorem returns_bind_getUnixprivs {β : Type} {T : List Event → β → Prop} {dirid : UInt32}
    {path : CString} {fp : AfpFileInfo} {f : ℤ × AfpFileInfo → AfpM β}
    (hf : ∀ reply : Reply AfpFileInfo, Prog.Returns (fun tr b => T (⟨privsRequest dirid path, reply⟩ :: tr) b)
      (f (-lookupErr reply.rc, { reply.stored.getD fp with basename := fp.basename }))) :
    Prog.Returns T (getUnixprivs dirid path fp >>= f) := hf

/-! ## Changing the mode -/

section Chmod

variable {vol : Volume} {mode : UInt32} {already : Prop}

/-- An operation without outcomes is faithful if it fails or was not needed. -/
theorem faithful_iff_of_nil {tr : List Event} {ret : ℤ} (h : outcomes tr = []) :
    Faithful already tr ret ↔ ret < 0 ∨ ret = 0 ∧ already := by
  rw [Faithful, h]
  refine or_congr_right (and_congr_right fun _ => ⟨?_, fun h => .inr ⟨rfl, h⟩⟩)
  rintro (⟨hne, -⟩ | ⟨-, halready⟩)
  · exact absurd rfl hne
  · exact halready

theorem chmodAnswered_nil : ChmodAnswered vol mode [] := by
  refine ⟨fun _ _ h => ?_, fun _ h => ?_, fun _ h => ?_⟩
  · obtain ⟨did, fb, db, path, stored, hlast⟩ := h
    cases hlast
  · obtain ⟨beyond, fi, tr', did, path, htr, -⟩ := h
    cases htr
  · exact absurd h (List.cons_ne_nil _ _).symm

/-- A trace without outcomes on a volume without Unix privileges. -/
theorem chmodAnswered_iff_of_ignored {tr : List Event} (h : outcomes tr = [])
    (hunix : vol.has VOLUME_EXTRA_FLAGS_VOL_SUPPORTS_UNIX = false) :
    ChmodAnswered vol mode tr ↔
      ¬ ((translateUidgidToClient vol 0 0).1 = 0 ∧ EndsInLookup tr) := by
  constructor
  · rintro hanswered ⟨hids, hends⟩
    exact hanswered.ignored hunix hids hends
  · intro hnot
    exact ⟨fun _ hids hends => hnot ⟨hids, hends⟩, fun hunix' => absurd (hunix.symm.trans hunix')
      Bool.false_ne_true, fun rc hrc => absurd (h.symm.trans hrc) (List.cons_ne_nil _ _).symm⟩

/-- A trace on a volume with Unix privileges. -/
theorem chmodAnswered_iff {tr : List Event}
    (hunix : vol.has VOLUME_EXTRA_FLAGS_VOL_SUPPORTS_UNIX = true) :
    ChmodAnswered vol mode tr ↔ ¬ EndsUnread mode tr ∧
      ∀ rc, outcomes tr = [rc] → rc = kFPNoErr ∨ rc = kFPBitmapErr ∧ Kept tr :=
  ⟨fun h => ⟨h.read hunix, h.set⟩, fun h =>
    ⟨fun hunix' => absurd (hunix'.symm.trans hunix) Bool.false_ne_true, fun _ => h.1, h.2⟩⟩

theorem chmodAnswered_of_nil {tr : List Event} (h : outcomes tr = [])
    (hunix : vol.has VOLUME_EXTRA_FLAGS_VOL_SUPPORTS_UNIX = true) (hread : ¬ EndsUnread mode tr) :
    ChmodAnswered vol mode tr :=
  (chmodAnswered_iff hunix).mpr
    ⟨hread, fun _ hrc => absurd (h.symm.trans hrc) (List.cons_ne_nil _ _).symm⟩

/-- A trace ends unread only with a lookup without a result. -/
theorem not_endsUnread {tr : List Event} {last : Event} (hlast : tr.getLast? = some last)
    (h : ∀ did path, last ≠ ⟨privsRequest did path, (⟨kFPNoErr, none⟩ : Reply AfpFileInfo)⟩) :
    ¬ EndsUnread mode tr := by
  rintro ⟨beyond, fi, tr', did, path, rfl, hends, -⟩
  rw [List.getLast?_cons, List.getLast?_cons, hends] at hlast
  exact h did path (Option.some.inj hlast).symm

theorem setUnixprivsErr_eq_ENOSYS_iff (rc : ℤ) :
    -setUnixprivsErr rc = -ENOSYS ↔ rc = kFPBitmapErr := by
  unfold setUnixprivsErr
  split_ifs with h1 h2 h3 h4
  · exact iff_of_false (by decide) (by rw [h1]; decide)
  · exact iff_of_true rfl h2
  · exact iff_of_false (by decide) h2
  · exact iff_of_false (by decide) h2
  · exact iff_of_false (by decide) h2

theorem lookupErr_ne_ENOSYS (rc : ℤ) : -lookupErr rc ≠ -ENOSYS := by
  unfold lookupErr
  split_ifs <;> decide

/-- After the request to set the mode, the result is right if it is an error for exactly what may be
an error. -/
theorem faithful_iff_of_set {tr : List Event} {rc ret : ℤ}
    (hunix : vol.has VOLUME_EXTRA_FLAGS_VOL_SUPPORTS_UNIX = true) (hcodes : outcomes tr = [rc])
    (hread : ¬ EndsUnread mode tr) (hret : ret = -ENOSYS ↔ rc = kFPBitmapErr ∧ Kept tr) :
    Faithful already tr (if ret = -ENOSYS then -ENOSYS else -0) ↔ ChmodAnswered vol mode tr := by
  rw [chmodAnswered_iff hunix, Faithful, hcodes]
  constructor
  · intro h
    refine ⟨hread, fun rc' hrc' => ?_⟩
    cases hrc'
    by_cases hENOSYS : ret = -ENOSYS
    · exact .inr (hret.mp hENOSYS)
    · rw [if_neg hENOSYS] at h
      rcases h with h | ⟨-, ⟨-, hall⟩ | ⟨hnil, -⟩⟩
      · exact absurd h (by decide)
      · exact .inl (hall rc List.mem_cons_self)
      · exact absurd hnil (List.cons_ne_nil _ _)
  · rintro ⟨-, hset⟩
    by_cases hENOSYS : ret = -ENOSYS
    · rw [if_pos hENOSYS]
      exact .inl (by decide)
    · rw [if_neg hENOSYS]
      rcases hset rc rfl with rfl | hkept
      · exact .inr ⟨rfl, .inl succeeded_one⟩
      · exact absurd (hret.mpr hkept) hENOSYS

theorem faithful_iff_of_setUnixprivs {pre tr : List Event} {ret : ℤ}
    (hunix : vol.has VOLUME_EXTRA_FLAGS_VOL_SUPPORTS_UNIX = true) (hpre : outcomes pre = [])
    (h : SetUnixprivs tr ret) :
    Faithful already (pre ++ tr) (if ret = -ENOSYS then -ENOSYS else -0) ↔
      ChmodAnswered vol mode (pre ++ tr) := by
  have hcodes' : ∀ {rc : ℤ}, outcomes tr = [rc] → outcomes (pre ++ tr) = [rc] := by
    intro rc hcodes
    rw [outcomes_append, hpre, hcodes, List.nil_append]
  have hlast' : ∀ {last : Event}, tr.getLast? = some last →
      (pre ++ tr).getLast? = some last := by
    intro last hlast
    rw [List.getLast?_append, hlast]
    rfl
  have hpass : Kept (pre ++ tr) ↔ Kept tr := kept_append hpre
  cases h with
  | unchecked rc flags hcodes hlast hkept hret =>
    refine faithful_iff_of_set hunix (hcodes' hcodes) ?_ ?_
    · exact not_endsUnread (hlast' hlast) fun did path h => by cases h
    · rw [hret, setUnixprivsErr_eq_ENOSYS_iff, hpass]
      exact ⟨fun h => ⟨h, hkept⟩, And.left⟩
  | unread rc did path reply hcodes hlast hreply hkept hret =>
    refine faithful_iff_of_set hunix (hcodes' hcodes) ?_ ?_
    · refine not_endsUnread (hlast' hlast) fun did' path' h => ?_
      cases h
      exact hreply rfl
    · rw [hret, hpass]
      exact iff_of_false (lookupErr_ne_ENOSYS _) fun h => hkept h.2
  | kept rc flags hcodes hlast hkept hret =>
    refine faithful_iff_of_set hunix (hcodes' hcodes) ?_ ?_
    · exact not_endsUnread (hlast' hlast) fun did path h => by cases h
    · rw [hret, setUnixprivsErr_eq_ENOSYS_iff, hpass]
      exact ⟨fun h => ⟨h, hkept⟩, And.left⟩
  | lost rc flags hcodes hlast hkept hret =>
    refine faithful_iff_of_set hunix (hcodes' hcodes) ?_ ?_
    · exact not_endsUnread (hlast' hlast) fun did path h => by cases h
    · rw [hret, hpass]
      exact iff_of_false (by decide) fun h => hkept h.2

/-- The trace of `afp_ml_chmod()` up to the lookup of the privileges, and after it. -/
def lookedUp (beyond : CString) (fi : AfpFileInfo) (tr : List Event) (did : UInt32)
    (path : CString) (reply : Reply AfpFileInfo) (tr' : List Event) : List Event :=
  ⟨.uninitPath, beyond⟩ :: ⟨.uninitFileInfo, fi⟩ :: (tr ++ ⟨privsRequest did path, reply⟩ :: tr')

section LookedUp

variable {beyond : CString} {fi : AfpFileInfo} {tr tr' : List Event} {did : UInt32}
  {path : CString} {reply : Reply AfpFileInfo}

theorem outcomes_lookedUp (htr : outcomes tr = []) :
    outcomes (lookedUp beyond fi tr did path reply tr') = outcomes tr' := by
  change outcomes (tr ++ ⟨privsRequest did path, reply⟩ :: tr') = outcomes tr'
  rw [outcomes_append, htr]
  rfl

theorem getLast?_lookedUp :
    (lookedUp beyond fi tr did path reply []).getLast? = some ⟨privsRequest did path, reply⟩ := by
  rw [lookedUp, List.getLast?_cons, List.getLast?_cons, List.getLast?_append]
  rfl

theorem getLast?_lookedUp_of_last {last : Event} (h : tr'.getLast? = some last) :
    (lookedUp beyond fi tr did path reply tr').getLast? = some last := by
  rw [lookedUp, List.getLast?_cons, List.getLast?_cons, List.getLast?_append, List.getLast?_cons, h]
  rfl

theorem lookedUp_append (tr'' : List Event) :
    lookedUp beyond fi tr did path reply tr' ++ tr'' =
      lookedUp beyond fi tr did path reply (tr' ++ tr'') := by
  simp only [lookedUp, List.cons_append, List.append_assoc]

/-- The lookup of the trace, and what was in the structure before. -/
theorem endsUnread_lookedUp_iff :
    EndsUnread mode (lookedUp beyond fi tr did path reply []) ↔
      reply = ⟨kFPNoErr, none⟩ ∧ clearDir fi.unixprivs.permissions = clearDir mode := by
  constructor
  · rintro ⟨_, fi', tr'', did', path', htr, hlast, hmode⟩
    cases htr
    rw [List.getLast?_append] at hlast
    cases hlast
    exact ⟨rfl, hmode⟩
  · rintro ⟨rfl, hmode⟩
    exact ⟨beyond, fi, _, did, path, rfl, by rw [List.getLast?_append]; rfl, hmode⟩

end LookedUp

/-- If the mode is what is asked for, it must not be garbage. -/
theorem faithful_iff_of_equal {beyond : CString} {fi : AfpFileInfo} {tr : List Event}
    {did : UInt32} {path : CString} {stored : Option AfpFileInfo}
    (hunix : vol.has VOLUME_EXTRA_FLAGS_VOL_SUPPORTS_UNIX = true) (htr : outcomes tr = [])
    (hequal : clearDir (stored.getD fi).unixprivs.permissions = clearDir mode) :
    Faithful (vol.has VOLUME_EXTRA_FLAGS_VOL_SUPPORTS_UNIX = true ∧
        EndsWithMode mode (lookedUp beyond fi tr did path ⟨kFPNoErr, stored⟩ []))
      (lookedUp beyond fi tr did path ⟨kFPNoErr, stored⟩ []) 0 ↔
      ChmodAnswered vol mode (lookedUp beyond fi tr did path ⟨kFPNoErr, stored⟩ []) := by
  have hcodes : outcomes (lookedUp beyond fi tr did path ⟨kFPNoErr, stored⟩ []) = [] :=
    outcomes_lookedUp htr
  rw [faithful_iff_of_nil hcodes]
  cases stored with
  | none =>
    refine iff_of_false ?_ fun h => h.read hunix (endsUnread_lookedUp_iff.mpr ⟨rfl, hequal⟩)
    rintro (hneg | ⟨-, -, did', path', fi', hlast, -⟩)
    · exact absurd hneg (by decide)
    · rw [getLast?_lookedUp] at hlast
      cases hlast
  | some fi' =>
    refine iff_of_true (.inr ⟨rfl, hunix, did, path, fi', getLast?_lookedUp, hequal⟩) ?_
    refine chmodAnswered_of_nil hcodes hunix fun h => ?_
    cases (endsUnread_lookedUp_iff.mp h).1

/-- On a volume without Unix privileges nothing is changed. -/
theorem returns_ignoreUnixprivs (path : CString)
    (hunix : vol.has VOLUME_EXTRA_FLAGS_VOL_SUPPORTS_UNIX = false) :
    Prog.Returns (fun tr ret => Faithful
      (vol.has VOLUME_EXTRA_FLAGS_VOL_SUPPORTS_UNIX = true ∧ EndsWithMode mode tr) tr ret ↔
        ChmodAnswered vol mode tr) (ignoreUnixprivs vol path) := by
  have hfalse : ∀ {tr : List Event}, ¬ (vol.has VOLUME_EXTRA_FLAGS_VOL_SUPPORTS_UNIX = true ∧
      EndsWithMode mode tr) := fun h => absurd (hunix.symm.trans h.1) Bool.false_ne_true
  refine Prog.returns_ite (fun _ => ?_) fun _ => ?_
  · refine .bind (((returns_llGetattr vol path).and
      (harmless_llGetattr vol path false).returns).mono ?_)
    rintro tr ⟨ret, stbuf⟩ ⟨h, hpermitted⟩
    have hnil : outcomes (tr ++ []) = [] := by
      rw [List.append_nil, outcomes_of_permitted hpermitted]
    change Faithful _ (tr ++ []) ret ↔ ChmodAnswered vol mode (tr ++ [])
    rw [faithful_iff_of_nil hnil, chmodAnswered_iff_of_ignored hnil hunix, List.append_nil]
    rcases h with ⟨hneg, hnot⟩ | ⟨hzero, hends⟩
    · exact iff_of_true (.inl hneg) hnot
    · refine iff_of_false ?_ (not_not.mpr hends)
      rintro (hneg | ⟨-, halready⟩)
      · exact absurd hneg (Int.not_lt.mpr (Int.le_of_eq hzero.symm))
      · exact hfalse halready
  · exact iff_of_true (.inl (by decide)) chmodAnswered_nil

theorem returns_afpMlChmod (path : CString) :
    Prog.Returns (fun tr ret => Faithful
      (vol.has VOLUME_EXTRA_FLAGS_VOL_SUPPORTS_UNIX = true ∧ EndsWithMode mode tr) tr ret ↔
        ChmodAnswered vol mode tr) (afpMlChmod vol path mode) := by
  refine Prog.returns_ite (fun _ => iff_of_true (.inl (by decide)) chmodAnswered_nil) fun _ => ?_
  refine Prog.returns_ite (fun _ => iff_of_true (.inl (by decide)) chmodAnswered_nil) fun _ => ?_
  refine Prog.returns_ite (fun hunix => returns_ignoreUnixprivs path hunix) fun hunix => ?_
  have hunix := eq_true_of_ne_false hunix
  refine returns_bind_ofOption fun converted => ?_
  refine Prog.returns_ite (fun _ => iff_of_true (.inl (by decide)) chmodAnswered_nil) fun _ => ?_
  refine .bind ((returns_refuseVirtual vol path).mono ?_)
  rintro tr ret ⟨beyond, rfl, rfl | rfl⟩
  · refine Prog.returns_ite (fun h => absurd h (by decide)) fun _ => ?_
    refine Prog.returns_ite (fun h => absurd h (by decide)) fun _ => ?_
    refine Prog.returns_bind_perform (e := Effect.uninitFileInfo) fun fi => ?_
    refine returns_bind_harmless (harmless_resolve _) fun tr found htr => ?_
    refine returns_bind_getUnixprivs fun ⟨rc, stored⟩ => ?_
    rcases lookupErr_cases rc with ⟨hzero, rfl⟩ | hpos
    · refine Prog.returns_ite (fun h => absurd (Int.neg_eq_zero.mpr hzero) h) fun _ => ?_
      refine Prog.returns_ite (fun hequal => ?_) fun hne => ?_
      · change Faithful (_ ∧ EndsWithMode mode (lookedUp beyond fi tr _ _ ⟨kFPNoErr, stored⟩ []))
          (lookedUp beyond fi tr _ _ ⟨kFPNoErr, stored⟩ []) 0 ↔
            ChmodAnswered vol mode (lookedUp beyond fi tr _ _ ⟨kFPNoErr, stored⟩ [])
        exact faithful_iff_of_equal hunix htr hequal
      · refine Prog.returns_ite (fun _ => ?_) fun _ => ?_
        · refine iff_of_true (.inl (by decide : - EIO < 0)) (chmodAnswered_of_nil
            (outcomes_lookedUp htr) hunix fun h => ?_)
          obtain ⟨hreply, hmode⟩ := endsUnread_lookedUp_iff.mp h
          cases hreply
          exact hne hmode
        refine Prog.returns_bind_perform (e := Effect.getgid) fun (gid : UInt32) => ?_
        refine Prog.returns_bind_perform (e := Effect.geteuid) fun (uid : UInt32) => ?_
        refine Prog.returns_ite (fun _ => ?_) fun _ => ?_
        · refine iff_of_true (.inl (by decide : -EPERM < 0)) (chmodAnswered_of_nil
            (outcomes_lookedUp htr) hunix ?_)
          exact not_endsUnread (getLast?_lookedUp_of_last rfl) fun did path h => by cases h
        refine .bind ((returns_setUnixprivs ..).mono fun tr' res hset => ?_)
        let pre := lookedUp beyond fi tr found.2.2 found.2.1 ⟨kFPNoErr, stored⟩
          [⟨.getgid, gid⟩, ⟨.geteuid, uid⟩]
        have hfaithful : Faithful (vol.has VOLUME_EXTRA_FLAGS_VOL_SUPPORTS_UNIX = true ∧
            EndsWithMode mode (pre ++ tr')) (pre ++ tr') (if res.1 = -ENOSYS then -ENOSYS else -0) ↔
              ChmodAnswered vol mode (pre ++ tr') :=
          faithful_iff_of_setUnixprivs hunix (outcomes_lookedUp htr) hset
        rw [show pre ++ tr' = _ from lookedUp_append tr', ← List.append_nil tr'] at hfaithful
        refine Prog.returns_ite (fun h => ?_) fun h => ?_
        · rw [if_pos h] at hfaithful
          exact hfaithful
        · rw [if_neg h] at hfaithful
          exact hfaithful
    · have hneg := Int.neg_neg_of_pos hpos
      refine Prog.returns_ite (fun _ => ?_) fun h => absurd (not_not.mp h) (Int.ne_of_lt hneg)
      refine iff_of_true (.inl hneg) (chmodAnswered_of_nil (outcomes_lookedUp htr) hunix fun h => ?_)
      cases (endsUnread_lookedUp_iff.mp h).1
      exact absurd hpos (show ¬ 0 < lookupErr kFPNoErr by decide)
  · refine Prog.returns_ite (fun _ => ?_) fun h => absurd (by decide) h
    refine iff_of_true (.inl (by decide)) (chmodAnswered_of_nil rfl hunix ?_)
    have hlast : [(⟨.uninitPath, beyond⟩ : Event)].getLast? = some ⟨.uninitPath, beyond⟩ := rfl
    exact not_endsUnread hlast fun did path h => by cases h

end Chmod

/-! ## All operations -/

/-- **Success is faithful** for exactly these answers. -/
theorem faithful_iff (vol : Volume) (op : Operation) (tr : List Event) (ret : ℤ)
    (h : Prog.Steps (op.run vol) tr (.done ret)) :
    Faithful (op.Already vol tr) tr ret ↔ op.Answered vol tr := by
  cases op with
  | creat path mode => exact (returns_afpMlCreat vol path mode).steps h
  | chmod path mode => exact (returns_afpMlChmod path).steps h
  | unlink path =>
    exact faithful_iff_of_translates (by decide) (by decide) (fun _ => unlinkErr_of_not_mem)
      (by decide) ((translates_afpMlUnlink vol path).steps h)
  | mkdir path =>
    exact faithful_iff_of_translates (by decide) (by decide) (fun _ => mkdirErr_of_not_mem)
      (by decide) ((translates_afpMlMkdir vol path).steps h)
  | rmdir path =>
    exact faithful_iff_of_translates (by decide) (by decide) (fun _ => rmdirErr_of_not_mem)
      (by decide) ((translates_afpMlRmdir vol path).steps h)
  | utime path modtime =>
    exact faithful_iff_of_translates (by decide) (by decide) (fun _ => utimeErr_of_not_mem)
      (by decide) ((translates_afpMlUtime vol path modtime).steps h)
  | symlink path1 path2 =>
    exact faithful_iff_of_symlinkOutcome ((symlinkOutcome_afpMlSymlink vol path1 path2).steps h)

/-- The trace of a symbolic link "/b" to "a", with the answer to the write. -/
def symlinkTrace (rc : ℤ) : List Event :=
  [⟨.uninitPath, ([] : CString)⟩, ⟨.uninitPath, ([] : CString)⟩, ⟨.uninitInt, (0 : UInt32)⟩,
    ⟨.request (.createFile kFPHardCreate 2 [0x62]), (⟨kFPNoErr, none⟩ : Reply Unit)⟩,
    ⟨.automatic, (0 : ℕ)⟩, ⟨.uninitFileInfo, AfpFileInfo.zero⟩,
    ⟨.request (.openFork false 2 (AFP_OPENFORK_ALLOWWRITE ||| AFP_OPENFORK_ALLOWREAD) [0x62]),
      (⟨kFPNoErr, some 0⟩ : Reply UInt16)⟩,
    ⟨.addOpenedFork 0 0, ()⟩,
    ⟨.request (.writeExt 0 0 1 [0x61]), (⟨rc, none⟩ : Reply Unit)⟩,
    ⟨.request (.closeFork 0), (⟨kFPNoErr, none⟩ : Reply Unit)⟩, ⟨.removeOpenedFork 0, ()⟩,
    ⟨.request (.setFileDirParms 2 [0x62] kFPFinderInfoBit
      { AfpFileInfo.zero with finderinfo := symlinkFinderinfo }),
      (⟨kFPNoErr, none⟩ : Reply Unit)⟩]

theorem steps_symlinkTrace (rc : ℤ) :
    Prog.Steps ((Operation.symlink [0x61] [slash, 0x62]).run Volume.plain) (symlinkTrace rc)
      (.done 0) :=
  .act (.act (.act (.act (.act (.act (.act (.act (.act (.act (.act (.act (.refl _))))))))))))

theorem faithful_iff_of_symlink :
    Prog.Steps ((Operation.symlink [0x61] [slash, 0x62]).run Volume.plain) (symlinkTrace kFPNoErr)
      (.done 0) ∧
    (Faithful ((Operation.symlink [0x61] [slash, 0x62]).Already Volume.plain
        (symlinkTrace kFPNoErr)) (symlinkTrace kFPNoErr) 0 ↔
      (Operation.symlink [0x61] [slash, 0x62]).Answered Volume.plain (symlinkTrace kFPNoErr)) :=
  ⟨steps_symlinkTrace kFPNoErr, faithful_iff _ _ _ _ (steps_symlinkTrace kFPNoErr)⟩

/-- A symbolic link whose text could not be written is made. -/
theorem unwritten_symlink_succeeds :
    Prog.Steps ((Operation.symlink [0x61] [slash, 0x62]).run Volume.plain)
      (symlinkTrace kFPDiskFull) (.done 0) ∧
    outcomes (symlinkTrace kFPDiskFull) = [kFPNoErr, kFPDiskFull, kFPNoErr] ∧
      ¬ Faithful False (symlinkTrace kFPDiskFull) 0 := by
  refine ⟨steps_symlinkTrace kFPDiskFull, rfl, ?_⟩
  rintro (hneg | ⟨-, ⟨-, hall⟩ | ⟨-, hfalse⟩⟩)
  · exact absurd hneg (by decide)
  · exact absurd (hall kFPDiskFull (by decide)) (by decide)
  · exact hfalse

end Success
end Afpfs

import Afpfs.Midlevel

/-!
# Read-only volumes

No operation on a volume for which `volume_is_readonly()` holds sends a request that changes
something on the server.

Most of what an operation calls never changes anything (`Harmless`), whatever the server answers:
looking up, locking, reading, listing.  The operations that can change something all check the
volume before their first request.  The exception is opening: `ll_open()` has a check that never
fails, because it combines a bit mask with a truth value bit by bit.  It creates and truncates
files only on flags that `afp_ml_open()` refuses on such a volume (`harmless_llOpen`,
`harmless_afpMlOpen`).

* `harmless_run`: no operation is harmful on such a volume.
* `readonly_never_modified`: hence no trace of any sequence of operations holds a request that
  changes something.
-/

set_option autoImplicit false

namespace Afpfs
namespace ReadOnly

open Unicode Codepage Interaction Translate

/-- The AFP functions that change something on the server. -/
def mutates : AFPFunction → Bool
  | .afpCreateFile => true
  | .afpCreateDir => true
  | .afpDelete => true
  | .afpMoveAndRename => true
  | .afpRename => true
  | .afpWrite => true
  | .afpWriteExt => true
  | .afpSetForkParms => true
  | .afpSetFileParms => true
  | .afpSetDirParms => true
  | .afpSetFileDirParms => true
  | .afpAddComment => true
  | _ => false

/-- The effect changes nothing on the server. -/
def Permitted : Effect → Prop
  | .request r => mutates r.command = false
  | _ => True

/-- The program changes nothing on the server, whatever it is answered. -/
abbrev Harmless {α : Type} (p : AfpM α) : Prop := Prog.AllActs Permitted p

/-! ## What changes nothing at all -/

theorem harmless_perform {e : Effect} (h : Permitted e) : Harmless (perform e) :=
  ⟨h, fun _ => trivial⟩

theorem harmless_ofOption {α : Type} (o : Option α) : Harmless (ofOption o) := by
  cases o with
  | none => exact trivial
  | some a => exact trivial

theorem harmless_requestRc {r : Request} (h : mutates r.command = false) :
    Harmless (requestRc r) :=
  .bind (harmless_perform h) fun _ => trivial

/-- Resolving a path changes nothing. -/
theorem permitted_of_looksUp {e : Effect} (h : LooksUp e) : Permitted e := by
  cases e with
  | request r =>
    cases r with
    | getFileDirParms did filebitmap dirbitmap pathname => rfl
    | _ => exact h.elim
  | _ => trivial

theorem harmless_topmostParent (copy : CString) : Harmless (topmostParent copy) :=
  (looksUp_topmostParent copy).mono fun _ => permitted_of_looksUp

theorem harmless_walkForward (path : CString) (parentDid : UInt32) (p2 : ℕ) (fi : AfpFileInfo) :
    Harmless (walkForward path parentDid p2 fi) :=
  (looksUp_walkForward path parentDid p2 fi).mono fun _ => permitted_of_looksUp

theorem harmless_getDirid (path basename : CString) (dirid : UInt32) :
    Harmless (getDirid path basename dirid) :=
  (looksUp_getDirid path basename dirid).mono fun _ => permitted_of_looksUp

theorem harmless_resolve (path : CString) : Harmless (resolve path) :=
  (looksUp_resolve path).mono fun _ => permitted_of_looksUp

theorem harmless_isDir (parentdid : UInt32) (path : CString) : Harmless (isDir parentdid path) := by
  refine .bind (harmless_perform trivial) fun fi => ?_
  refine .bind (harmless_perform rfl) fun reply => ?_
  exact Prog.allActs_ite.mpr ⟨fun _ => trivial, fun _ => trivial⟩

theorem harmless_byteRangeLock (volume : Volume) (unlock : Bool) (forkid : UInt16)
    (offset size : ℕ) : Harmless (byteRangeLock volume unlock forkid offset size) :=
  Prog.allActs_ite.mpr ⟨fun _ => harmless_requestRc rfl, fun _ => harmless_requestRc rfl⟩

theorem harmless_lockLoop (volume : Volume) (forkid : UInt16) (offset size tries : ℕ) :
    Harmless (lockLoop volume forkid offset size tries) := by
  induction tries with
  | zero => exact trivial
  | succ tries ih =>
    refine .bind (harmless_byteRangeLock volume false forkid offset size) fun rc => ?_
    simp only [Prog.allActs_ite]
    exact ⟨fun _ => trivial, fun _ => ⟨fun _ => .bind (harmless_perform trivial) fun _ => ih,
      fun _ => trivial⟩⟩

theorem harmless_llHandleLocking (volume : Volume) (forkid : UInt16) (offset size : ℕ) :
    Harmless (llHandleLocking volume forkid offset size) :=
  Prog.allActs_ite.mpr ⟨fun _ => trivial, fun _ => harmless_lockLoop ..⟩

theorem harmless_llHandleUnlocking (volume : Volume) (forkid : UInt16) (offset size : ℕ) :
    Harmless (llHandleUnlocking volume forkid offset size) := by
  refine Prog.allActs_ite.mpr ⟨fun _ => trivial, fun _ => ?_⟩
  refine .bind (harmless_byteRangeLock volume true forkid offset size) fun rc => ?_
  exact Prog.allActs_ite.mpr ⟨fun _ => trivial, fun _ => trivial⟩

theorem harmless_readRequest (volume : Volume) (forkid : UInt16) (offset size : ℕ)
    (maxsize : UInt32) : Harmless (readRequest volume forkid offset size maxsize) :=
  Prog.allActs_ite.mpr ⟨fun _ => harmless_perform rfl, fun _ => harmless_perform rfl⟩

theorem harmless_llRead (volume : Volume) (size offset : ℕ) (forkid : UInt16) :
    Harmless (llRead volume size offset forkid) := by
  refine .bind (harmless_llHandleLocking volume forkid offset size) fun locked => ?_
  refine Prog.allActs_ite.mpr ⟨fun _ => trivial, fun _ => ?_⟩
  refine .bind (harmless_readRequest volume forkid offset size _) fun reply => ?_
  refine .bind (harmless_llHandleUnlocking volume forkid offset size) fun unlocked => ?_
  simp [Prog.allActs_ite]

theorem harmless_llGetDirectoryEntry (basename : CString) (dirid : UInt32)
    (filebitmap dirbitmap : ℕ) (p : AfpFileInfo) :
    Harmless (llGetDirectoryEntry basename dirid filebitmap dirbitmap p) :=
  .bind (harmless_perform rfl) fun _ => trivial

theorem harmless_llGetattr (volume : Volume) (path : CString) (resource : Bool) :
    Harmless (llGetattr volume path resource) := by
  refine Prog.allActs_ite.mpr ⟨fun _ => trivial, fun _ => ?_⟩
  refine .bind (harmless_perform trivial) fun fp => ?_
  refine .bind (harmless_resolve path) fun found => ?_
  refine Prog.allActs_ite.mpr ⟨fun _ => trivial, fun _ => ?_⟩
  refine .bind (harmless_perform rfl) fun reply => ?_
  simp [Prog.allActs_ite]

theorem harmless_enumerateRequest (volume : Volume) (dirid : UInt32) (filebitmap dirbitmap : ℕ)
    (startindex : ℕ) (basename : CString) :
    Harmless (enumerateRequest volume dirid filebitmap dirbitmap startindex basename) :=
  Prog.allActs_ite.mpr ⟨fun _ => harmless_perform rfl, fun _ => harmless_perform rfl⟩

theorem harmless_readdirLoop (volume : Volume) (dirid : UInt32) (filebitmap dirbitmap : ℕ)
    (basename : CString) (fuel startindex : ℕ) (filebase : List AfpFileInfo) :
    Harmless (readdirLoop volume dirid filebitmap dirbitmap basename fuel startindex filebase) := by
  induction fuel generalizing startindex filebase with
  | zero => exact trivial
  | succ fuel ih =>
    refine .bind (harmless_enumerateRequest ..) fun reply => ?_
    simp [Prog.allActs_ite, ih]

theorem harmless_llReaddir (volume : Volume) (path : CString) (resource : Bool) (fuel : ℕ) :
    Harmless (llReaddir volume path resource fuel) := by
  refine Prog.allActs_ite.mpr ⟨fun _ => trivial, fun _ => ?_⟩
  refine .bind (harmless_resolve path) fun found => ?_
  refine Prog.allActs_ite.mpr ⟨fun _ => trivial, fun _ => ?_⟩
  refine .bind (harmless_readdirLoop ..) fun listed => ?_
  refine Prog.allActs_ite.mpr ⟨fun _ => trivial, fun _ => ?_⟩
  exact .bind (harmless_ofOption _) fun _ => trivial

theorem harmless_openDesktop : Harmless openDesktop := by
  refine .bind (harmless_perform rfl) fun reply => ?_
  split
  · exact .bind (harmless_perform trivial) fun _ => trivial
  · exact trivial

theorem harmless_getUnixprivs (dirid : UInt32) (path : CString) (fp : AfpFileInfo) :
    Harmless (getUnixprivs dirid path fp) :=
  .bind (harmless_llGetDirectoryEntry ..) fun _ => trivial

theorem harmless_translated (volume : Volume) (path : CString) :
    Harmless (translated volume path) :=
  .bind (harmless_perform trivial) fun _ => trivial

/-! ## AppleDouble -/

theorem harmless_ensureDtOpened : Harmless ensureDtOpened := by
  refine .bind (harmless_perform trivial) fun refnum => ?_
  exact Prog.allActs_ite.mpr ⟨fun _ => trivial, fun _ => harmless_openDesktop⟩

theorem harmless_getCommentSize (basename : CString) (did : UInt32) :
    Harmless (getCommentSize basename did) := by
  refine .bind (harmless_perform trivial) fun refnum => ?_
  refine .bind ?_ fun opened => ?_
  · exact Prog.allActs_ite.mpr ⟨fun _ => harmless_openDesktop, fun _ => trivial⟩
  refine Prog.allActs_ite.mpr ⟨fun _ => trivial, fun _ => ?_⟩
  refine .bind (harmless_perform rfl) fun reply => ?_
  simp [Prog.allActs_ite]

theorem harmless_appledoubleClose (fp : AfpFileInfo) : Harmless (appledoubleClose fp) := by
  unfold appledoubleClose
  split
  · refine .bind (harmless_requestRc rfl) fun rc => ?_
    exact Prog.allActs_ite.mpr ⟨fun _ => trivial, fun _ => trivial⟩
  all_goals exact trivial

theorem harmless_readComment (result : ReadResult) (size : ℕ) :
    Harmless (readComment result size) := by
  refine Prog.allActs_ite.mpr ⟨fun _ => trivial, fun _ => ?_⟩
  refine .bind (harmless_perform rfl) fun reply => ?_
  simp [Prog.allActs_ite]

theorem harmless_appledoubleRead (volume : Volume) (fp : AfpFileInfo) (buf : List UInt8)
    (offset : ℕ) : Harmless (appledoubleRead volume fp buf offset) := by
  refine .bind (harmless_perform trivial) fun garbage => ?_
  dsimp only
  split
  case h_1 => exact .bind (harmless_llRead ..) fun _ => trivial
  case h_2 => exact trivial
  case h_3 =>
    refine Prog.allActs_ite.mpr ⟨fun _ => trivial, fun _ => ?_⟩
    refine .bind (harmless_llGetDirectoryEntry ..) fun entry => ?_
    exact Prog.allActs_ite.mpr ⟨fun _ => trivial, fun _ => harmless_readComment ..⟩
  case h_4 => exact harmless_readComment ..
  case h_5 => exact Prog.allActs_ite.mpr ⟨fun _ => trivial, fun _ => trivial⟩
  case h_6 => exact trivial

theorem harmless_appledoubleGetattr (volume : Volume) (path : CString) :
    Harmless (appledoubleGetattr volume path) := by
  refine .bind (harmless_translated volume path) fun found => ?_
  dsimp only
  split
  case h_1 => exact trivial
  case h_2 => exact .bind (harmless_llGetattr ..) fun _ => trivial
  case h_3 => exact trivial
  case h_4 => exact .bind (harmless_llGetattr ..) fun _ => trivial
  case h_5 =>
    refine .bind (harmless_llGetattr ..) fun attributes => ?_
    refine Prog.allActs_ite.mpr ⟨fun _ => trivial, fun _ => ?_⟩
    refine .bind (harmless_resolve _) fun found => ?_
    refine Prog.allActs_ite.mpr ⟨fun _ => trivial, fun _ => ?_⟩
    refine .bind (harmless_getCommentSize ..) fun size => ?_
    exact Prog.allActs_ite.mpr ⟨fun _ => trivial, fun _ => trivial⟩
  case h_6 => exact trivial

theorem harmless_addComment (fp : AfpFileInfo) (newchain : List AfpFileInfo) :
    Harmless (addComment fp newchain) := by
  refine .bind (harmless_getCommentSize ..) fun size => ?_
  exact Prog.allActs_ite.mpr ⟨fun _ => trivial, fun _ => trivial⟩

theorem harmless_listLoop (entries kept newchain : List AfpFileInfo) :
    Harmless (listLoop entries kept newchain) := by
  induction entries generalizing kept newchain with
  | nil => exact trivial
  | cons fp rest ih =>
    refine .bind harmless_ensureDtOpened fun opened => ?_
    refine .bind ?_ fun newchain => ih _ newchain
    exact Prog.allActs_ite.mpr ⟨fun _ => harmless_addComment .., fun _ => trivial⟩

theorem harmless_appledoubleReaddir (volume : Volume) (path : CString) (fuel : ℕ) :
    Harmless (appledoubleReaddir volume path fuel) := by
  refine .bind (harmless_translated volume path) fun found => ?_
  dsimp only
  split
  · refine .bind (harmless_llReaddir ..) fun listed => ?_
    exact .bind (harmless_listLoop ..) fun _ => trivial
  all_goals exact trivial

/-! ## Opening -/

/-- The flags neither create nor truncate a file. -/
def Gentle (flags : ℕ) : Prop := flags &&& O_CREAT = 0 ∧ flags &&& O_TRUNC = 0

theorem harmless_checkSize (volume : Volume) (flags : ℕ) (fp : AfpFileInfo) :
    Harmless (checkSize volume flags fp) := by
  refine Prog.allActs_ite.mpr ⟨fun _ => ?_, fun _ => trivial⟩
  refine .bind (harmless_llGetDirectoryEntry ..) fun entry => ?_
  simp [Prog.allActs_ite]

/-- Without `O_CREAT` the fork is asked for once. -/
theorem harmless_openLoop (volume : Volume) (path : CString) {flags : ℕ} (hflags : Gentle flags)
    (aflags fuel : ℕ) (fp : AfpFileInfo) : Harmless (openLoop volume path flags aflags fuel fp) := by
  cases fuel with
  | zero => exact trivial
  | succ fuel =>
    refine .bind (harmless_perform rfl) fun reply => ?_
    refine Prog.allActs_ite.mpr ⟨fun h => absurd hflags.1 h.2, fun _ => trivial⟩

/-- **Opening with gentle flags** changes nothing, on any volume. -/
theorem harmless_llOpen (volume : Volume) (path : CString) {flags : ℕ} (hflags : Gentle flags)
    (handle : Handle) (fp : AfpFileInfo) (fuel : ℕ) :
    Harmless (llOpen volume path flags handle fp fuel) := by
  unfold llOpen
  simp only [Prog.allActs_ite]
  refine ⟨fun _ => trivial, fun _ => ⟨fun h => absurd h.2.1 (by decide), fun _ => ?_⟩⟩
  refine .bind (Prog.allActs_ite.mpr ⟨fun h => absurd h.2 (by decide), fun _ => trivial⟩)
    fun _ => ?_
  refine .bind (harmless_checkSize ..) fun checked => ?_
  refine Prog.allActs_ite.mpr ⟨fun _ => trivial, fun _ => ?_⟩
  refine .bind (harmless_openLoop volume path hflags ..) fun opened => ?_
  refine Prog.allActs_ite.mpr ⟨fun _ => trivial, fun _ => ?_⟩
  refine .bind (harmless_perform trivial) fun _ => ?_
  exact Prog.allActs_ite.mpr ⟨fun h => absurd hflags.2 h.1, fun _ => trivial⟩

theorem harmless_appledoubleOpen (volume : Volume) (path : CString) {flags : ℕ}
    (hflags : Gentle flags) (handle : Handle) (fp : AfpFileInfo) (fuel : ℕ) :
    Harmless (appledoubleOpen volume path flags handle fp fuel) := by
  refine .bind (harmless_translated volume path) fun found => ?_
  dsimp only
  split
  case h_1 => exact trivial
  case h_2 =>
    refine .bind (harmless_getDirid ..) fun parent => ?_
    refine Prog.allActs_ite.mpr ⟨fun _ => trivial, fun _ => ?_⟩
    refine .bind (harmless_llOpen volume _ hflags ..) fun opened => ?_
    exact Prog.allActs_ite.mpr ⟨fun _ => trivial, fun _ => trivial⟩
  case h_3 => exact trivial
  case h_4 =>
    refine .bind (harmless_getDirid ..) fun parent => ?_
    exact Prog.allActs_ite.mpr ⟨fun _ => trivial, fun _ => trivial⟩
  case h_5 =>
    refine .bind (harmless_getDirid ..) fun parent => ?_
    refine Prog.allActs_ite.mpr ⟨fun _ => trivial, fun _ => ?_⟩
    refine .bind (harmless_perform trivial) fun refnum => ?_
    refine Prog.allActs_ite.mpr ⟨fun _ => ?_, fun _ => trivial⟩
    refine .bind harmless_openDesktop fun rc => ?_
    exact Prog.allActs_ite.mpr ⟨fun _ => trivial, fun _ => trivial⟩
  case h_6 => exact trivial

/-- The flags that pass the check of `afp_ml_open()`. -/
theorem gentle_of_masked {flags : ℕ}
    (h : flags &&& (O_WRONLY ||| O_RDWR ||| O_TRUNC ||| O_APPEND ||| O_CREAT) = 0) :
    Gentle flags := by
  have hbit : ∀ i, (O_WRONLY ||| O_RDWR ||| O_TRUNC ||| O_APPEND ||| O_CREAT).testBit i = true →
      flags.testBit i = false := by
    intro i hi
    have hand := congrArg (fun n => n.testBit i) h
    simpa [Nat.testBit_and, hi] using hand
  constructor
  · refine Nat.eq_of_testBit_eq fun i => ?_
    rw [Nat.testBit_and, Nat.zero_testBit, show O_CREAT = 2 ^ 6 from rfl, Nat.testBit_two_pow]
    by_cases hi : 6 = i
    · rw [← hi, hbit 6 (by decide), Bool.false_and]
    · rw [decide_eq_false hi, Bool.and_false]
  · refine Nat.eq_of_testBit_eq fun i => ?_
    rw [Nat.testBit_and, Nat.zero_testBit, show O_TRUNC = 2 ^ 9 from rfl, Nat.testBit_two_pow]
    by_cases hi : 9 = i
    · rw [← hi, hbit 9 (by decide), Bool.false_and]
    · rw [decide_eq_false hi, Bool.and_false]

/-! ## The operations -/

/-- The middle level operations with their arguments. -/
inductive Op where
  | mlOpen (path : CString) (flags : ℕ)
  | mlCreat (path : CString) (mode : UInt32)
  | mlReaddir (path : CString)
  | mlRead (path : CString) (buf : List UInt8) (offset : ℕ) (fp : AfpFileInfo)
  | mlGetattr (path : CString)
  | mlReadlink (path : CString) (size : ℕ)
  | mlClose (path : CString) (file : Option (Handle × AfpFileInfo))
  | mlChmod (path : CString) (mode : UInt32)
  | mlChown (path : CString)
  | mlUtime (path : CString) (modtime : UInt32)
  | mlUnlink (path : CString)
  | mlMkdir (path : CString)
  | mlRmdir (path : CString)
  | mlWrite (path : CString) (data : List UInt8) (offset : ℕ) (fp : AfpFileInfo)
      (uid gid : UInt32)
  | mlTruncate (path : CString)
  | mlSymlink (path1 path2 : CString)
  | mlRename (pathFrom pathTo : CString)

/-- An operation, without its results. -/
def Op.run (volume : Volume) (fuel : ℕ) : Op → AfpM Unit
  | .mlOpen path flags => do let _ ← afpMlOpen volume path flags fuel
  | .mlCreat path mode => do let _ ← afpMlCreat volume path mode
  | .mlReaddir path => do let _ ← afpMlReaddir volume path fuel
  | .mlRead path buf offset fp => do let _ ← afpMlRead volume path buf offset fp
  | .mlGetattr path => do let _ ← afpMlGetattr volume path
  | .mlReadlink path size => do let _ ← afpMlReadlink volume path size
  | .mlClose path file => do let _ ← afpMlClose volume path file
  | .mlChmod path mode => do let _ ← afpMlChmod volume path mode
  | .mlChown path => do let _ ← afpMlChown volume path
  | .mlUtime path modtime => do let _ ← afpMlUtime volume path modtime
  | .mlUnlink path => do let _ ← afpMlUnlink volume path
  | .mlMkdir path => do let _ ← afpMlMkdir volume path
  | .mlRmdir path => do let _ ← afpMlRmdir volume path
  | .mlWrite path data offset fp uid gid => do
    let _ ← afpMlWrite volume path data offset fp uid gid fuel
  | .mlTruncate path => do let _ ← afpMlTruncate volume path fuel
  | .mlSymlink path1 path2 => do let _ ← afpMlSymlink volume path1 path2
  | .mlRename pathFrom pathTo => do let _ ← afpMlRename volume pathFrom pathTo

/-- A sequence of operations. -/
def runOps (volume : Volume) (fuel : ℕ) : List Op → AfpM Unit
  | [] => pure ()
  | op :: ops => do
    op.run volume fuel
    runOps volume fuel ops

/-! ### Operations that change nothing on any volume -/

theorem harmless_afpMlReaddir (volume : Volume) (path : CString) (fuel : ℕ) :
    Harmless (afpMlReaddir volume path fuel) := by
  refine .bind (harmless_ofOption _) fun converted => ?_
  refine Prog.allActs_ite.mpr ⟨fun _ => trivial, fun _ => ?_⟩
  refine .bind (harmless_appledoubleReaddir ..) fun listed => ?_
  simp only [Prog.allActs_ite]
  exact ⟨fun _ => trivial, fun _ => ⟨fun _ => trivial, fun _ => harmless_llReaddir ..⟩⟩

theorem harmless_afpMlRead (volume : Volume) (path : CString) (buf : List UInt8) (offset : ℕ)
    (fp : AfpFileInfo) : Harmless (afpMlRead volume path buf offset fp) := by
  refine .bind (harmless_ofOption _) fun converted => ?_
  refine Prog.allActs_ite.mpr ⟨fun _ => trivial, fun _ => ?_⟩
  refine .bind (Prog.allActs_ite.mpr ⟨fun _ => harmless_appledoubleRead .., fun _ => trivial⟩)
    fun result => ?_
  simp only [Prog.allActs_ite]
  refine ⟨fun _ => trivial, fun _ => ⟨fun _ => trivial, fun _ => ?_⟩⟩
  exact .bind (harmless_llRead ..) fun _ => trivial

theorem harmless_afpMlGetattr (volume : Volume) (path : CString) :
    Harmless (afpMlGetattr volume path) := by
  refine .bind (harmless_ofOption _) fun converted => ?_
  refine Prog.allActs_ite.mpr ⟨fun _ => trivial, fun _ => ?_⟩
  refine .bind (harmless_appledoubleGetattr ..) fun attributes => ?_
  simp only [Prog.allActs_ite]
  exact ⟨fun _ => trivial, fun _ => ⟨fun _ => trivial, fun _ => harmless_llGetattr ..⟩⟩

/-- The fork is opened for writing, and only read. -/
theorem harmless_afpMlReadlink (vol : Volume) (path : CString) (size : ℕ) :
    Harmless (afpMlReadlink vol path size) := by
  refine .bind (harmless_ofOption _) fun converted => ?_
  refine Prog.allActs_ite.mpr ⟨fun _ => trivial, fun _ => ?_⟩
  refine .bind (harmless_perform trivial) fun handle => ?_
  refine .bind (harmless_perform trivial) fun fp => ?_
  refine .bind (harmless_resolve _) fun parent => ?_
  refine .bind (harmless_perform rfl) fun opened => ?_
  refine Prog.allActs_ite.mpr ⟨fun _ => trivial, fun _ => ?_⟩
  refine .bind (harmless_perform trivial) fun _ => ?_
  refine .bind (harmless_readRequest ..) fun reply => ?_
  simp only [Prog.allActs_ite]
  refine ⟨fun _ => trivial, fun _ => ⟨fun _ => trivial, fun _ => ⟨fun _ => trivial, fun _ => ?_⟩⟩⟩
  refine .bind (harmless_requestRc rfl) fun closed => ?_
  refine Prog.allActs_ite.mpr ⟨fun _ => trivial, fun _ => ?_⟩
  refine .bind (harmless_perform trivial) fun _ => ?_
  exact .bind (harmless_ofOption _) fun _ => trivial

theorem harmless_afpMlClose (volume : Volume) (path : CString)
    (file : Option (Handle × AfpFileInfo)) : Harmless (afpMlClose volume path file) := by
  refine .bind (harmless_ofOption _) fun converted => ?_
  simp only [Prog.allActs_ite]
  refine ⟨fun _ => trivial, fun _ => ⟨fun _ => trivial, fun _ => ?_⟩⟩
  cases file with
  | none => exact trivial
  | some file =>
    refine Prog.allActs_ite.mpr ⟨fun _ => harmless_appledoubleClose _, fun _ => ?_⟩
    refine .bind (harmless_requestRc rfl) fun closed => ?_
    refine Prog.allActs_ite.mpr ⟨fun _ => trivial, fun _ => ?_⟩
    exact .bind (harmless_perform trivial) fun _ => trivial

/-! ### Operations that check the volume -/

section

variable {volume : Volume} (hreadonly : volumeIsReadonly volume = true)

include hreadonly

/-- What follows the check of a volume. -/
theorem harmless_checked {α : Type} (refusal : α) (p : AfpM α) :
    Harmless (if volumeIsReadonly volume then pure refusal else p) :=
  Prog.allActs_ite.mpr ⟨fun _ => trivial, fun h => absurd hreadonly h⟩

/-- **Opening**: the flags that pass the check are gentle. -/
theorem harmless_afpMlOpen (path : CString) (flags fuel : ℕ) :
    Harmless (afpMlOpen volume path flags fuel) := by
  refine .bind (harmless_ofOption _) fun converted => ?_
  simp only [Prog.allActs_ite]
  refine ⟨fun _ => trivial, fun _ => ⟨fun _ => trivial, fun _ => ⟨fun _ => trivial, ?_⟩⟩⟩
  intro hpassed
  have hflags : Gentle flags := by
    refine gentle_of_masked (Classical.not_not.mp fun h => hpassed ⟨hreadonly, h⟩)
  refine .bind (harmless_perform trivial) fun allocated => ?_
  cases allocated with
  | none => exact trivial
  | some handle =>
    refine .bind (harmless_appledoubleOpen volume path hflags ..) fun opened => ?_
    simp only [Prog.allActs_ite]
    refine ⟨fun _ => trivial, fun _ => ⟨fun _ => trivial, fun _ => ?_⟩⟩
    refine .bind (harmless_perform trivial) fun dirid => ?_
    refine .bind (harmless_getDirid ..) fun parent => ?_
    refine Prog.allActs_ite.mpr ⟨fun _ => trivial, fun _ => ?_⟩
    refine .bind (harmless_llOpen volume _ hflags ..) fun opened => ?_
    refine Prog.allActs_ite.mpr ⟨fun _ => ?_, fun _ => trivial⟩
    exact .bind (harmless_perform trivial) fun _ => trivial

theorem harmless_afpMlCreat (path : CString) (mode : UInt32) :
    Harmless (afpMlCreat volume path mode) := by
  refine .bind (harmless_ofOption _) fun converted => ?_
  exact Prog.allActs_ite.mpr ⟨fun _ => trivial, fun _ => harmless_checked hreadonly _ _⟩

theorem harmless_afpMlChmod (path : CString) (mode : UInt32) :
    Harmless (afpMlChmod volume path mode) :=
  Prog.allActs_ite.mpr ⟨fun _ => trivial, fun _ => harmless_checked hreadonly _ _⟩

theorem harmless_afpMlChown (path : CString) : Harmless (afpMlChown volume path) := by
  refine .bind (harmless_ofOption _) fun converted => ?_
  refine Prog.allActs_ite.mpr ⟨fun _ => trivial, fun _ => ?_⟩
  exact Prog.allActs_ite.mpr ⟨fun _ => trivial, fun _ => harmless_checked hreadonly _ _⟩

theorem harmless_afpMlUtime (path : CString) (modtime : UInt32) :
    Harmless (afpMlUtime volume path modtime) :=
  harmless_checked hreadonly _ _

theorem harmless_afpMlUnlink (path : CString) : Harmless (afpMlUnlink volume path) := by
  refine .bind (harmless_ofOption _) fun converted => ?_
  exact Prog.allActs_ite.mpr ⟨fun _ => trivial, fun _ => harmless_checked hreadonly _ _⟩

theorem harmless_afpMlMkdir (path : CString) : Harmless (afpMlMkdir volume path) := by
  refine .bind (harmless_ofOption _) fun converted => ?_
  refine Prog.allActs_ite.mpr ⟨fun _ => trivial, fun _ => ?_⟩
  exact Prog.allActs_ite.mpr ⟨fun _ => trivial, fun _ => harmless_checked hreadonly _ _⟩

theorem harmless_afpMlRmdir (path : CString) : Harmless (afpMlRmdir volume path) := by
  refine Prog.allActs_ite.mpr ⟨fun _ => trivial, fun _ => ?_⟩
  refine .bind (harmless_ofOption _) fun converted => ?_
  exact Prog.allActs_ite.mpr ⟨fun _ => trivial, fun _ => harmless_checked hreadonly _ _⟩

theorem harmless_afpMlWrite (path : CString) (data : List UInt8) (offset : ℕ) (fp : AfpFileInfo)
    (uid gid : UInt32) (fuel : ℕ) :
    Harmless (afpMlWrite volume path data offset fp uid gid fuel) := by
  refine Prog.allActs_ite.mpr ⟨fun _ => trivial, fun _ => ?_⟩
  refine .bind (harmless_ofOption _) fun converted => ?_
  exact Prog.allActs_ite.mpr ⟨fun _ => trivial, fun _ => harmless_checked hreadonly _ _⟩

theorem harmless_afpMlTruncate (path : CString) (fuel : ℕ) :
    Harmless (afpMlTruncate volume path fuel) := by
  refine .bind (harmless_ofOption _) fun converted => ?_
  refine Prog.allActs_ite.mpr ⟨fun _ => trivial, fun _ => ?_⟩
  exact Prog.allActs_ite.mpr ⟨fun _ => trivial, fun _ => harmless_checked hreadonly _ _⟩

theorem harmless_afpMlSymlink (path1 path2 : CString) :
    Harmless (afpMlSymlink volume path1 path2) := by
  refine Prog.allActs_ite.mpr ⟨fun _ => trivial, fun _ => ?_⟩
  refine .bind (harmless_ofOption _) fun converted => ?_
  refine Prog.allActs_ite.mpr ⟨fun _ => trivial, fun _ => ?_⟩
  refine .bind (harmless_ofOption _) fun converted => ?_
  exact Prog.allActs_ite.mpr ⟨fun _ => trivial, fun _ => harmless_checked hreadonly _ _⟩

theorem harmless_afpMlRename (pathFrom pathTo : CString) :
    Harmless (afpMlRename volume pathFrom pathTo) := by
  refine .bind (harmless_ofOption _) fun converted => ?_
  refine Prog.allActs_ite.mpr ⟨fun _ => trivial, fun _ => ?_⟩
  refine .bind (harmless_ofOption _) fun converted => ?_
  exact Prog.allActs_ite.mpr ⟨fun _ => trivial, fun _ => harmless_checked hreadonly _ _⟩

/-- **One operation** changes nothing. -/
theorem harmless_run (fuel : ℕ) (op : Op) : Harmless (op.run volume fuel) := by
  cases op with
  | mlOpen path flags => exact .bind (harmless_afpMlOpen hreadonly ..) fun _ => trivial
  | mlCreat path mode => exact .bind (harmless_afpMlCreat hreadonly ..) fun _ => trivial
  | mlReaddir path => exact .bind (harmless_afpMlReaddir ..) fun _ => trivial
  | mlRead path buf offset fp => exact .bind (harmless_afpMlRead ..) fun _ => trivial
  | mlGetattr path => exact .bind (harmless_afpMlGetattr ..) fun _ => trivial
  | mlReadlink path size => exact .bind (harmless_afpMlReadlink ..) fun _ => trivial
  | mlClose path file => exact .bind (harmless_afpMlClose ..) fun _ => trivial
  | mlChmod path mode => exact .bind (harmless_afpMlChmod hreadonly ..) fun _ => trivial
  | mlChown path => exact .bind (harmless_afpMlChown hreadonly ..) fun _ => trivial
  | mlUtime path modtime => exact .bind (harmless_afpMlUtime hreadonly ..) fun _ => trivial
  | mlUnlink path => exact .bind (harmless_afpMlUnlink hreadonly ..) fun _ => trivial
  | mlMkdir path => exact .bind (harmless_afpMlMkdir hreadonly ..) fun _ => trivial
  | mlRmdir path => exact .bind (harmless_afpMlRmdir hreadonly ..) fun _ => trivial
  | mlWrite path data offset fp uid gid =>
    exact .bind (harmless_afpMlWrite hreadonly ..) fun _ => trivial
  | mlTruncate path => exact .bind (harmless_afpMlTruncate hreadonly ..) fun _ => trivial
  | mlSymlink path1 path2 => exact .bind (harmless_afpMlSymlink hreadonly ..) fun _ => trivial
  | mlRename pathFrom pathTo => exact .bind (harmless_afpMlRename hreadonly ..) fun _ => trivial

theorem harmless_runOps (fuel : ℕ) (ops : List Op) : Harmless (runOps volume fuel ops) := by
  induction ops with
  | nil => exact trivial
  | cons op ops ih => exact .bind (harmless_run hreadonly fuel op) fun _ => ih

end

/-- **A read-only volume is never modified.**  Whatever the operations, and whatever the server and
the rest of the environment answer, no request of the trace changes something. -/
theorem readonly_never_modified (volume : Volume) (hreadonly : volumeIsReadonly volume = true)
    (fuel : ℕ) (ops : List Op) (tr : List ((e : Effect) × e.Answer)) (q : AfpM Unit)
    (h : Prog.Steps (runOps volume fuel ops) tr q) :
    ∀ ev ∈ tr, ∀ r, ev.1 = .request r → mutates r.command = false := by
  intro ev hev r hr
  have hpermitted := (harmless_runOps hreadonly fuel ops).steps h ev hev
  rw [hr] at hpermitted
  exact hpermitted

/-- A read-only volume. -/
def archive : Volume := { Volume.plain with attributes := kReadOnly }

/-- The trace of a refused `utime` and of a lookup of the root. -/
def lookupTrace : List ((e : Effect) × e.Answer) :=
  [⟨.uninitPath, ([] : CString)⟩, ⟨.uninitFileInfo, AfpFileInfo.zero⟩,
    ⟨.uninitPath, ([] : CString)⟩, ⟨.uninitInt, (0 : UInt32)⟩,
    ⟨.request (.getFileDirParms 2 0x92f 0xf0f []), (⟨kFPNoErr, none⟩ : Reply AfpFileInfo)⟩]

theorem readonly_never_modified_of_lookup :
    volumeIsReadonly archive = true ∧
      ∀ ev ∈ lookupTrace, ∀ r, ev.1 = .request r → mutates r.command = false :=
  ⟨by decide, readonly_never_modified archive (by decide) 0
    [.mlUtime [slash] 0, .mlGetattr [slash]] _ _ (.act (.act (.act (.act (.act (.refl _))))))⟩

end ReadOnly
end Afpfs

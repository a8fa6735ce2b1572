import Mathlib.Data.List.Nodup
import Afpfs.Truncate
import Afpfs.Lib.Transition

/-!
# The list of open forks

A volume lists the forks that it has open, so that they are closed when it is unmounted.  The entries
are the structures of the callers: `afp_ml_open()` allocates one, and the ones of `afp_ml_readlink()`
and `afp_ml_symlink()` are automatic variables.

A `World` is the list, what the server has open and what is allocated.  A run is any sequence of
operations; what the server answers is part of it.

* `leads_call`: what an operation does to the world, whatever it is answered.
* `kept_run`: in which runs there is one entry for each open fork, and each entry is allocated.
* `refused_close_is_forgotten`: a fork that the server does not close.
-/

set_option autoImplicit false

namespace Afpfs
namespace Forks

open Interaction Unicode Codepage Translate Truncate Locking Transition

/-! ## The world -/

/-- The list of the volume, each entry with the fork it is for; the forks that the server has open; the
structures that are allocated; and the files that the client has open. -/
structure World where
  openForks : List (Handle × UInt16)
  server : List UInt16
  heap : List Handle
  files : List (Handle × AfpFileInfo)

/-- A volume that has just been mounted. -/
def World.start : World := ⟨[], [], [], []⟩

/-- What an event does. -/
def World.step (w : World) : Event → World
  | ⟨.request (.openFork ..), reply⟩ =>
    if reply.rc = kFPNoErr then { w with server := @Option.toList UInt16 reply.stored ++ w.server } else w
  | ⟨.request (.closeFork forkid), reply⟩ =>
    if reply.rc = kFPNoErr then { w with server := w.server.erase forkid } else w
  | ⟨.malloc, handle⟩ => { w with heap := Option.toList handle ++ w.heap }
  | ⟨.free handle, _⟩ => { w with heap := w.heap.erase handle }
  | ⟨.addOpenedFork handle forkid, _⟩ => { w with openForks := (handle, forkid) :: w.openForks }
  | ⟨.removeOpenedFork handle, _⟩ => { w with openForks := w.openForks.eraseP (·.1 == handle) }
  | _ => w

/-- A fork that is opened gets an id that no open fork has, and no two variables have the same
address. -/
def Legal (w : World) : Event → Prop
  | ⟨.request (.openFork ..), reply⟩ =>
    reply.rc = kFPNoErr → ∃ forkid, reply.stored = some forkid ∧ forkid ∉ w.server
  | ⟨.malloc, handle⟩ => ∀ h, (handle : Option Handle) = some h → h ∉ w.heap
  | ⟨.automatic, handle⟩ => (handle : Handle) ∉ w.heap
  | _ => True

/-- There is exactly one entry for each fork that is open and none for any other, and the structures are
allocated. -/
structure Kept (w : World) : Prop where
  one : ∀ forkid ∈ w.server, (w.openForks.map Prod.snd).count forkid = 1
  opened : ∀ entry ∈ w.openForks, entry.2 ∈ w.server
  allocated : ∀ entry ∈ w.openForks, entry.1 ∈ w.heap

/-! ## Operations -/

/-- The operations that open and close forks, with their arguments. -/
inductive Op where
  | mlOpen (path : CString) (flags fuel : ℕ)
  | mlClose (path : CString) (file : Option (Handle × AfpFileInfo))
  | mlReadlink (path : CString) (size : ℕ)
  | mlSymlink (path1 path2 : CString)
  | mlTruncate (path : CString) (fuel : ℕ)

/-- The function that is called: its result, and what it stores in `*newfp`. -/
def Op.call (vol : Volume) : Op → AfpM (ℤ × Option (Handle × AfpFileInfo))
  | .mlOpen path flags fuel => afpMlOpen vol path flags fuel
  | .mlClose path file => do
    let ret ← afpMlClose vol path file
    return (ret, none)
  | .mlReadlink path size => do
    let (ret, _) ← afpMlReadlink vol path size
    return (ret, none)
  | .mlSymlink path1 path2 => do
    let ret ← afpMlSymlink vol path1 path2
    return (ret, none)
  | .mlTruncate path fuel => do
    let ret ← afpMlTruncate vol path fuel
    return (ret, none)

/-- A client closes what it has opened. -/
def Op.Allowed (w : World) : Op → Prop
  | .mlClose _ file => ∀ f, file = some f → f ∈ w.files
  | _ => True

/-- The files of the client after an operation. -/
def World.returned (w : World) (op : Op) (result : ℤ × Option (Handle × AfpFileInfo)) : World :=
  if result.1 ≠ 0 then w
  else
    match op with
    | .mlOpen .. => { w with files := result.2.toList ++ w.files }
    | .mlClose _ file => { w with files := w.files.filter fun f => file ≠ some f }
    | _ => w

/-- A world, or that the behaviour is not defined any more. -/
inductive Config where
  | up (w : World)
  | undefined

/-- An operation with what happens in it.  The one that ends without a result is the truncation of a
resource fork, when `appledouble_truncate()` passes a structure for a pointer. -/
inductive Step (vol : Volume) : Config → Op × List Event → Config → Prop
  | returns {w : World} {op : Op} {tr : List Event} {result : ℤ × Option (Handle × AfpFileInfo)} :
      op.Allowed w → Prog.Steps (op.call vol) tr (.done result) → Prog.Admits Legal World.step w tr →
      Step vol (.up w) (op, tr) (.up ((tr.foldl World.step w).returned op result))
  | breaks {w : World} {path : CString} {fuel : ℕ} {tr : List Event} :
      Prog.Steps (afpMlTruncate vol path fuel) tr .stuck →
      Prog.Steps (appledoubleTruncate vol path) tr .stuck → Prog.Admits Legal World.step w tr →
      Step vol (.up w) (.mlTruncate path fuel, tr) .undefined

/-- The list is right. -/
def Consistent : Config → Prop
  | .up w => Kept w
  | .undefined => False

/-! ## When it is so -/

/-- The errors that `afp_ml_readlink()` takes for an open fork. -/
def Overlooked (rc : ℤ) : Prop :=
  rc = kFPVolLocked ∨ rc = kFPDenyConflict ∨ rc = kFPMiscErr ∨ rc = kFPBitmapErr

/-- The errors of reading that it returns. -/
def ReadFails (rc : ℤ) : Prop :=
  rc = kFPAccessDenied ∨ rc = kFPLockErr ∨ rc = kFPMiscErr ∨ rc = kFPParamErr

/-- What goes right in an operation. -/
def MeetsEvent : Op → Event → Prop
  | .mlClose _ file, ⟨.request (.closeFork _), reply⟩ =>
    (∀ handle fp, file = some (handle, fp) → fp.resource = .resource → reply.rc ≠ kFPNoErr)
  | .mlReadlink .., ⟨.request (.openFork ..), reply⟩ => ¬ Overlooked reply.rc
  | .mlReadlink .., ⟨.request (.read ..), reply⟩ => ¬ ReadFails reply.rc
  | .mlReadlink .., ⟨.request (.readExt ..), reply⟩ => ¬ ReadFails reply.rc
  | .mlReadlink .., ⟨.request (.closeFork _), reply⟩ => reply.rc = kFPNoErr
  | .mlSymlink .., ⟨.request (.openFork ..), reply⟩ => reply.rc = kFPNoErr
  | .mlSymlink .., ⟨.request (.closeFork _), reply⟩ => reply.rc = kFPNoErr
  | .mlTruncate .., ⟨.request (.closeFork _), reply⟩ => reply.rc = kFPNoErr
  | _, _ => True

/-- What an event has read in memory behind a path. -/
def behind : Event → Option CString
  | ⟨.uninitPath, beyond⟩ => some beyond
  | _ => none

/-- What is behind the path in memory, as it was read, does not change what it stands for. -/
def Stands (vol : Volume) (path : CString) (kind : AfpMeta) (read : List CString) : Prop :=
  ∀ beyond ∈ read, (extraTranslate vol path beyond).1 = kind

/-- A request to set the length of a fork fails with an error that is listed. -/
def ZeroFails : Event → Prop
  | ⟨.request (.setForkParms ..), reply⟩ => Listed reply.rc
  | _ => False

/-- Everything goes right in an operation; a file that is opened can be emptied unless it is a resource
fork; and none of those is truncated.  `afp_ml_open()` asks once what the path stands for, and
`afp_ml_truncate()` does before it opens the file; what is read later is behind other paths. -/
def Meets (vol : Volume) (op : Op) (tr : List Event) : Prop :=
  (∀ ev ∈ tr, MeetsEvent op ev) ∧
    match op with
    | .mlOpen path .. =>
      Stands vol path .resource ((tr.filterMap behind).take 1) ∨ ∀ ev ∈ tr, ¬ ZeroFails ev
    | .mlTruncate path _ =>
      ∃ kind, kind ≠ .resource ∧ Stands vol path kind ((tr.filterMap behind).take 2)
    | _ => True

/-! ## Effects that do not matter -/

/-- The effect opens and closes no fork, and leaves the list and what is allocated alone. -/
def quiet : Effect → Bool
  | .request (.openFork ..) => false
  | .request (.closeFork _) => false
  | .malloc => false
  | .free _ => false
  | .addOpenedFork .. => false
  | .removeOpenedFork _ => false
  | _ => true

/-- No effect of the program matters. -/
abbrev Quiet {α : Type} (p : AfpM α) : Prop := Prog.AllActs (fun e => quiet e = true) p

theorem step_quiet (w : World) {ev : Event} (h : quiet ev.1 = true) : w.step ev = w := by
  obtain ⟨e, r⟩ := ev
  cases e with
  | request q => cases q <;> first | rfl | exact absurd h Bool.false_ne_true
  | _ => first | rfl | exact absurd h Bool.false_ne_true

theorem quiet_of_looksUp {e : Effect} (h : LooksUp e) : quiet e = true := by
  cases e with
  | request q => cases q <;> first | rfl | exact h.elim
  | _ => first | rfl | exact h.elim

theorem quiet_perform {e : Effect} (h : quiet e = true) : Quiet (perform e) := ⟨h, fun _ => trivial⟩

theorem quiet_requestRc {r : Request} (h : quiet (.request r) = true) : Quiet (requestRc r) :=
  .bind (quiet_perform h) fun _ => trivial

theorem quiet_getDirid (path basename : CString) (dirid : UInt32) :
    Quiet (getDirid path basename dirid) :=
  (looksUp_getDirid path basename dirid).mono fun _ => quiet_of_looksUp

theorem quiet_resolve (path : CString) : Quiet (resolve path) :=
  (looksUp_resolve path).mono fun _ => quiet_of_looksUp

theorem quiet_ofOption {α : Type} (o : Option α) : Quiet (ofOption o) := by
  cases o with
  | none => exact trivial
  | some a => exact trivial

theorem quiet_openDesktop : Quiet openDesktop := by
  refine .bind (quiet_perform rfl) fun reply => ?_
  cases reply.stored with
  | none => exact trivial
  | some refnum => exact .bind (quiet_perform rfl) fun _ => trivial

theorem quiet_translated (vol : Volume) (path : CString) : Quiet (translated vol path) :=
  .bind (quiet_perform rfl) fun _ => trivial

theorem quiet_getUnixprivs (dirid : UInt32) (path : CString) (fp : AfpFileInfo) :
    Quiet (getUnixprivs dirid path fp) :=
  .bind (.bind (quiet_perform rfl) fun _ => trivial) fun _ => trivial

theorem quiet_setUnixprivs (vol : Volume) (dirid : UInt32) (basename : CString) (fp : AfpFileInfo) :
    Quiet (setUnixprivs vol dirid basename fp) := by
  refine Prog.allActs_ite.mpr ⟨fun _ => trivial, fun _ => ?_⟩
  refine .bind (quiet_perform rfl) fun flags => ?_
  refine .bind ?_ fun rc => .bind (quiet_perform rfl) fun flags => ?_
  · exact Prog.allActs_ite.mpr ⟨fun _ => quiet_requestRc rfl, fun _ => quiet_requestRc rfl⟩
  refine Prog.allActs_ite.mpr ⟨fun _ => ?_, fun _ => trivial⟩
  refine .bind (quiet_perform rfl) fun fp2 => .bind (quiet_getUnixprivs ..) fun learned => ?_
  refine Prog.allActs_ite.mpr ⟨fun _ => trivial, fun _ => ?_⟩
  refine .bind (quiet_perform rfl) fun flags => .bind (quiet_perform rfl) fun _ => ?_
  refine .bind (quiet_perform rfl) fun flags => ?_
  exact Prog.allActs_ite.mpr ⟨fun _ => .bind (quiet_perform rfl) fun _ => trivial,
    fun _ => .bind (quiet_perform rfl) fun _ => trivial⟩

theorem quiet_appledoubleCreat (vol : Volume) (path : CString) : Quiet (appledoubleCreat vol path) := by
  refine .bind (quiet_translated vol path) fun found => ?_
  obtain ⟨kind, newpath⟩ := found
  cases kind <;> exact trivial

theorem quiet_refuseVirtual (vol : Volume) (path : CString) : Quiet (refuseVirtual vol path) := by
  refine .bind (quiet_translated vol path) fun found => ?_
  exact Prog.allActs_ite.mpr ⟨fun _ => trivial, fun _ => trivial⟩

/-- Creating a file does not matter. -/
theorem quiet_afpMlCreat (vol : Volume) (path : CString) (mode : UInt32) :
    Quiet (afpMlCreat vol path mode) := by
  refine .bind (quiet_ofOption _) fun converted => ?_
  refine Prog.allActs_ite.mpr ⟨fun _ => trivial, fun _ => ?_⟩
  refine Prog.allActs_ite.mpr ⟨fun _ => trivial, fun _ => ?_⟩
  refine .bind (quiet_appledoubleCreat vol path) fun ret => ?_
  refine Prog.allActs_ite.mpr ⟨fun _ => trivial, fun _ => ?_⟩
  refine Prog.allActs_ite.mpr ⟨fun _ => trivial, fun _ => ?_⟩
  refine Prog.allActs_ite.mpr ⟨fun _ => trivial, fun _ => ?_⟩
  refine .bind (quiet_resolve _) fun found => .bind (quiet_requestRc rfl) fun rc => ?_
  refine Prog.allActs_ite.mpr ⟨fun _ => trivial, fun _ => ?_⟩
  refine Prog.allActs_ite.mpr ⟨fun _ => trivial, fun _ => ?_⟩
  refine .bind (quiet_perform rfl) fun fp => .bind (quiet_getUnixprivs ..) fun learned => ?_
  refine Prog.allActs_ite.mpr ⟨fun _ => trivial, fun _ => ?_⟩
  refine Prog.allActs_ite.mpr ⟨fun _ => trivial, fun _ => ?_⟩
  refine .bind (quiet_setUnixprivs ..) fun set => ?_
  refine Prog.allActs_ite.mpr ⟨fun _ => trivial, fun _ => ?_⟩
  refine Prog.allActs_ite.mpr ⟨fun _ => trivial, fun _ => ?_⟩
  exact Prog.allActs_ite.mpr ⟨fun _ => trivial, fun _ => trivial⟩

/-! ## Opening a fork -/

/-- A fork is opened, and the structure at `handle` is its entry. -/
def World.opened (w : World) (handle : Handle) (forkid : UInt16) : World :=
  { w with openForks := (handle, forkid) :: w.openForks, server := forkid :: w.server }

/-- With answers that are legal and that `M` is true of, a program leads from `w` to a world and a
result that `Q` relates. -/
abbrev LeadsTo {α : Type} (M : Event → Prop) (Q : World → α → Prop) (w : World) (p : AfpM α) : Prop :=
  Prog.Leads (fun w ev => Legal w ev ∧ M ev) World.step Q w p

section Opening

variable {α β : Type} {M : Event → Prop} {Q : World → β → Prop} {w : World} {vol : Volume}

theorem leads_quiet {p : AfpM α} {f : α → AfpM β} (hp : Quiet p) (hf : ∀ a, LeadsTo M Q w (f a)) :
    LeadsTo M Q w (p >>= f) :=
  hp.leads_bind (fun w _ h => step_quiet w h) hf

theorem leads_perform {e : Effect} {f : e.Answer → AfpM β} (hf : ∀ r, Legal w ⟨e, r⟩ → M ⟨e, r⟩ →
    LeadsTo M Q (w.step ⟨e, r⟩) (f r)) : LeadsTo M Q w (perform e >>= f) :=
  fun r hr => hf r hr.1 hr.2

theorem leads_requestRc {r : Request} {f : ℤ → AfpM β} (hf : ∀ reply, Legal w ⟨.request r, reply⟩ →
    M ⟨.request r, reply⟩ → LeadsTo M Q (w.step ⟨.request r, reply⟩) (f reply.rc)) :
    LeadsTo M Q w (requestRc r >>= f) :=
  fun reply h => hf reply h.1 h.2

section Steps

variable {resource : Bool} {did : UInt32} {mode : ℕ} {name : CString} {opened : Reply UInt16}
  {closed : Reply Unit} {forkid : UInt16}

theorem step_openFork (hrc : opened.rc = kFPNoErr) (hstored : opened.stored = some forkid) :
    w.step ⟨.request (.openFork resource did mode name), opened⟩ =
      { w with server := forkid :: w.server } := by
  show (if opened.rc = kFPNoErr then _ else _) = _
  rw [if_pos hrc, hstored]
  rfl

theorem step_openFork_of_ne (hrc : opened.rc ≠ kFPNoErr) :
    w.step ⟨.request (.openFork resource did mode name), opened⟩ = w :=
  if_neg hrc

theorem step_closeFork (hrc : closed.rc = kFPNoErr) :
    w.step ⟨.request (.closeFork forkid), closed⟩ = { w with server := w.server.erase forkid } :=
  if_pos hrc

theorem step_closeFork_of_ne (hrc : closed.rc ≠ kFPNoErr) :
    w.step ⟨.request (.closeFork forkid), closed⟩ = w :=
  if_neg hrc

end Steps

/-- A fork is opened, or the result is an error and nothing has changed. -/
def Opened (w s : World) (opened : ℤ × AfpFileInfo) : Prop :=
  (0 < opened.1 ∧ s = w) ∨
    (opened.1 = 0 ∧ opened.2.forkid ∉ w.server ∧ s = { w with server := opened.2.forkid :: w.server })

theorem leads_openLoop (path : CString) (flags aflags fuel : ℕ) (fp : AfpFileInfo) :
    LeadsTo M (Opened w) w (openLoop vol path flags aflags fuel fp) := by
  induction fuel generalizing fp with
  | zero => trivial
  | succ fuel ih =>
    refine leads_perform fun reply hlegal _ => ?_
    by_cases hrc : reply.rc = kFPNoErr
    · obtain ⟨forkid, hstored, hfresh⟩ := hlegal hrc
      rw [step_openFork hrc hstored]
      refine Prog.leads_ite (fun h => absurd (hrc.symm.trans h.1) (by decide)) fun _ => ?_
      have hforkid : reply.stored.getD fp.forkid = forkid := by rw [hstored]; rfl
      refine .inr ⟨by rw [hrc]; rfl, ?_, ?_⟩
      · show reply.stored.getD fp.forkid ∉ w.server
        rwa [hforkid]
      · show _ = { w with server := reply.stored.getD fp.forkid :: w.server }
        rw [hforkid]
    · rw [step_openFork_of_ne hrc]
      refine Prog.leads_ite (fun _ => ?_) fun _ => .inl ⟨openErr_pos hrc, rfl⟩
      refine leads_quiet (quiet_afpMlCreat vol path _) fun created => ?_
      exact Prog.leads_ite (fun _ => ih _) fun _ => .inl ⟨(by decide : 0 < ENOENT), rfl⟩

theorem lookupErr_nonneg (rc : ℤ) : 0 ≤ lookupErr rc := by
  rw [lookupErr]
  split_ifs <;> decide

theorem leads_checkSize (flags : ℕ) (fp : AfpFileInfo) :
    LeadsTo M (fun s checked => s = w ∧ 0 ≤ checked.1) w (checkSize vol flags fp) := by
  refine Prog.leads_ite (fun _ => ?_) fun _ => ⟨rfl, le_rfl⟩
  refine leads_perform fun reply _ _ => ?_
  refine Prog.leads_ite (fun _ => ⟨rfl, lookupErr_nonneg _⟩) fun _ => ?_
  exact Prog.leads_ite (fun _ => ⟨rfl, (by decide : 0 ≤ EOVERFLOW)⟩) fun _ => ⟨rfl, le_rfl⟩

/-- No request to set a length fails. -/
def NeverFails (M : Event → Prop) : Prop := ∀ ev, M ev → ¬ ZeroFails ev

theorem zeroErr_nonneg (rc : ℤ) : 0 ≤ zeroErr rc := by
  rw [zeroErr]
  split_ifs <;> decide

theorem leads_llZeroFile (forkid : UInt16) (resource : Bool) :
    LeadsTo M (fun s ret => s = w ∧ 0 ≤ ret ∧ (NeverFails M → ret = 0)) w
      (llZeroFile vol forkid resource) := by
  refine leads_perform fun reply _ hM => ?_
  show LeadsTo M _ w (if reply.rc = kFPAccessDenied then _ else _)
  rw [ite_eq_pure_zeroErr]
  exact ⟨rfl, zeroErr_nonneg _, fun h => zeroErr_eq_zero (h _ hM)⟩

/-- The structure has become the entry of a fork, or the result is an error and nothing has changed.
There is no error behind an open fork in a run that is `safe`. -/
def Entered (w : World) (handle : Handle) (safe : Prop) (s : World) (entered : ℤ × AfpFileInfo) : Prop :=
  (entered.1 < 0 ∧ s = w) ∨
    (entered.1 ≤ 0 ∧ (safe → entered.1 = 0) ∧ entered.2.forkid ∉ w.server ∧
      s = w.opened handle entered.2.forkid)

theorem leads_llOpen (path : CString) (flags : ℕ) (handle : Handle) (fp : AfpFileInfo) (fuel : ℕ) :
    LeadsTo M (Entered w handle (flags &&& O_TRUNC = 0 ∨ NeverFails M)) w
      (llOpen vol path flags handle fp fuel) := by
  refine Prog.leads_ite (fun _ => .inl ⟨(by decide : -EPERM < 0), rfl⟩) fun _ => ?_
  refine Prog.leads_ite (fun h => absurd h.2.1 (by decide)) fun _ => ?_
  refine leads_quiet (Prog.allActs_ite.mpr ⟨fun _ => quiet_requestRc rfl, fun _ => trivial⟩) fun _ => ?_
  refine (leads_checkSize flags _).bind ?_
  rintro _ ⟨ret, fp⟩ ⟨rfl, hret⟩
  refine Prog.leads_ite (fun h => .inl ⟨?_, rfl⟩) fun _ => ?_
  · exact Int.neg_neg_of_pos (lt_of_le_of_ne hret (Ne.symm h))
  refine (leads_openLoop path flags _ fuel _).bind ?_
  rintro s ⟨ret, fp⟩ (⟨hpos, rfl⟩ | ⟨hzero, hfresh, rfl⟩)
  · refine Prog.leads_ite (fun _ => .inl ⟨Int.neg_neg_of_pos hpos, rfl⟩) fun h => ?_
    exact absurd (not_not.mp h) (Int.ne_of_gt hpos)
  · refine Prog.leads_ite (fun h => absurd hzero h) fun _ => ?_
    refine leads_perform fun _ _ _ => ?_
    refine Prog.leads_ite (fun htrunc => ?_) fun _ => .inr ⟨le_rfl, fun _ => rfl, hfresh, rfl⟩
    refine (leads_llZeroFile _ _).bind ?_
    rintro _ ret ⟨rfl, hret, hsafe⟩
    refine .inr ⟨Int.neg_nonpos_of_nonneg hret, fun h => ?_, hfresh, rfl⟩
    exact neg_eq_zero.mpr (hsafe (h.resolve_left htrunc.1))

/-! ## Opening a file -/

/-- What a program leads to along a trace, of which `rest` is left. -/
abbrev LeadsAlong {α : Type} (M : Event → Prop) (Q : World × List Event → α → Prop) (w : World)
    (rest : List Event) (p : AfpM α) : Prop :=
  Prog.Leads (Prog.along fun w ev => Legal w ev ∧ M ev) (Prog.alongNext World.step) Q (w, rest) p

theorem along_ofOption {α β : Type} {Q : World × List Event → β → Prop} {rest : List Event}
    {o : Option α} {f : α → AfpM β} (hf : ∀ a, LeadsAlong M Q w rest (f a)) :
    LeadsAlong M Q w rest (ofOption o >>= f) := by
  cases o with
  | none => exact trivial
  | some a => exact hf a

/-- What a path is taken for depends on what is read first. -/
theorem along_translated {Q : World × List Event → β → Prop} {path : CString} {rest : List Event}
    {f : AfpMeta × CString → AfpM β}
    (hf : ∀ beyond left kind newpath, rest = ⟨.uninitPath, beyond⟩ :: left →
      (extraTranslate vol path beyond).1 = kind → LeadsAlong M Q w left (f (kind, newpath))) :
    LeadsAlong M Q w rest (translated vol path >>= f) := by
  rintro beyond ⟨-, hhead⟩
  obtain ⟨left, rfl⟩ := List.head?_eq_some_iff.mp hhead
  exact hf beyond left _ _ rfl rfl

/-- What `appledouble_open()` has done: nothing, with an error or because the path is not one of its
own; it has opened a file without a fork; or it has opened a resource fork, perhaps with an error
behind that.  The path was taken for something `seen`. -/
inductive Hooked (seen : AfpMeta → Prop) (w : World) (handle : Handle) :
    World → ℤ × AfpFileInfo → Prop
  | refused {ret : ℤ} {fp : AfpFileInfo} : ret < 0 → Hooked seen w handle w (ret, fp)
  | plain {fp : AfpFileInfo} : seen .none → Hooked seen w handle w (0, fp)
  | metadata {kind : AfpMeta} {fp : AfpFileInfo} : kind ≠ .none → fp.resource = kind →
      seen kind → Hooked seen w handle w (1, fp)
  | fork {ret : ℤ} {fp : AfpFileInfo} : ret < 0 ∨ ret = 1 → fp.forkid ∉ w.server →
      Hooked seen w handle (w.opened handle fp.forkid) (ret, fp)

theorem along_appledoubleOpen (path : CString) (flags : ℕ) (handle : Handle) (fp : AfpFileInfo)
    (fuel : ℕ) {seen : AfpMeta → Prop} {rest : List Event}
    (hread : ∀ beyond ∈ (rest.filterMap behind).take 1, seen (extraTranslate vol path beyond).1) :
    LeadsAlong M (fun x => Hooked seen w handle x.1) w rest
      (appledoubleOpen vol path flags handle fp fuel) := by
  refine along_translated fun beyond left kind newpath hrest hkind => ?_
  have hseen : seen kind := by
    subst hrest hkind
    exact hread beyond List.mem_cons_self
  refine Prog.Leads.along ?_ left
  cases kind with
  | none => exact .plain hseen
  | resource =>
    refine leads_quiet (quiet_getDirid ..) fun found => ?_
    obtain ⟨ret, basename, did⟩ := found
    refine Prog.leads_ite (fun _ => .refused (by decide : -ENOENT < 0)) fun _ => ?_
    refine (leads_llOpen newpath flags handle _ fuel).bind ?_
    rintro s ⟨ret, fp⟩ (⟨hneg, rfl⟩ | ⟨-, -, hfresh, rfl⟩)
    · exact Prog.leads_ite (fun _ => .refused hneg) fun h => absurd hneg h
    · exact Prog.leads_ite (fun h => .fork (.inl h) hfresh) fun _ => .fork (.inr rfl) hfresh
  | appledouble => exact .refused (by decide : -EISDIR < 0)
  | finderinfo =>
    refine leads_quiet (quiet_getDirid ..) fun found => ?_
    obtain ⟨ret, basename, did⟩ := found
    refine Prog.leads_ite (fun _ => .refused (by decide : -ENOENT < 0)) fun _ => ?_
    exact .metadata (by decide : AfpMeta.finderinfo ≠ .none) rfl hseen
  | comment =>
    refine leads_quiet (quiet_getDirid ..) fun found => ?_
    obtain ⟨ret, basename, did⟩ := found
    refine Prog.leads_ite (fun _ => .refused (by decide : -ENOENT < 0)) fun _ => ?_
    refine leads_quiet (quiet_perform rfl) fun refnum => ?_
    have hkind : AfpMeta.comment ≠ .none := by decide
    refine Prog.leads_ite (fun _ => ?_) fun _ => .metadata hkind rfl hseen
    refine leads_quiet quiet_openDesktop fun rc => ?_
    exact Prog.leads_ite (fun _ => .refused (by decide : - EIO < 0))
      fun _ => .metadata hkind rfl hseen
  | serverIcon => exact .metadata (by decide : AfpMeta.serverIcon ≠ .none) rfl hseen

/-- A structure is allocated. -/
def World.alloc (w : World) (handle : Handle) : World := { w with heap := handle :: w.heap }

theorem step_free_alloc (w : World) (handle : Handle) (r : (Effect.free handle).Answer) :
    (w.alloc handle).step ⟨.free handle, r⟩ = w := by
  show { w with heap := (handle :: w.heap).erase handle } = w
  rw [List.erase_cons_head]

/-- What `afp_ml_open()` has done: nothing; it has allocated a structure, for a file without a fork if
the result is 0; or the structure is the entry of a fork. -/
inductive MlOpened (seen : AfpMeta → Prop) (w : World) :
    World → ℤ × Option (Handle × AfpFileInfo) → Prop
  | refused {ret : ℤ} {newfp : Option (Handle × AfpFileInfo)} : ret ≠ 0 →
      MlOpened seen w w (ret, newfp)
  | metadata {ret : ℤ} {handle : Handle} {fp : AfpFileInfo} : handle ∉ w.heap →
      (ret = 0 → fp.resource ≠ .none ∧ seen fp.resource) →
      MlOpened seen w (w.alloc handle) (ret, some (handle, fp))
  | fork {ret : ℤ} {handle : Handle} {fp : AfpFileInfo} : handle ∉ w.heap → fp.forkid ∉ w.server →
      MlOpened seen w ((w.alloc handle).opened handle fp.forkid) (ret, some (handle, fp))

theorem along_afpMlOpen (path : CString) (flags fuel : ℕ) {seen : AfpMeta → Prop} {rest : List Event}
    (hread : ∀ beyond ∈ (rest.filterMap behind).take 1, seen (extraTranslate vol path beyond).1)
    (hsafe : flags &&& O_TRUNC = 0 ∨ NeverFails M ∨ ¬ seen .none) :
    LeadsAlong M (fun x => MlOpened seen w x.1) w rest (afpMlOpen vol path flags fuel) := by
  refine along_ofOption fun converted => ?_
  obtain ⟨ret, convertedPath⟩ := converted
  refine Prog.leads_ite (fun _ => .refused (by decide : -EINVAL ≠ 0)) fun _ => ?_
  refine Prog.leads_ite (fun _ => .refused (by decide : -ENAMETOOLONG ≠ 0)) fun _ => ?_
  refine Prog.leads_ite (fun _ => .refused (by decide : -EACCES ≠ 0)) fun _ => ?_
  rintro allocated ⟨⟨hlegal, -⟩, hhead⟩
  obtain ⟨left, rfl⟩ := List.head?_eq_some_iff.mp hhead
  cases allocated with
  | none => exact .refused (by decide : (-1 : ℤ) ≠ 0)
  | some handle =>
    have hfresh : handle ∉ w.heap := hlegal handle rfl
    show LeadsAlong M _ (w.alloc handle) left (appledoubleOpen vol path flags handle .zero fuel >>= _)
    have hleft : ∀ beyond ∈ (left.filterMap behind).take 1, seen (extraTranslate vol path beyond).1 :=
      hread
    refine (along_appledoubleOpen path flags handle .zero fuel hleft).bind ?_
    rintro ⟨s, left⟩ ⟨ret, fp⟩ hhooked
    refine Prog.Leads.along ?_ left
    cases hhooked with
    | refused hneg =>
      exact Prog.leads_ite (fun _ => .metadata hfresh fun h => absurd h (Int.ne_of_lt hneg))
        fun h => absurd hneg h
    | metadata hkind hfp hseen =>
      subst hfp
      refine Prog.leads_ite (fun h => absurd h (by decide)) fun _ => ?_
      exact Prog.leads_ite (fun _ => .metadata hfresh fun _ => ⟨hkind, hseen⟩)
        fun h => absurd rfl h
    | fork hret hfork =>
      refine Prog.leads_ite (fun _ => .fork hfresh hfork) fun hneg => ?_
      exact Prog.leads_ite (fun _ => .fork hfresh hfork) fun h => absurd (hret.resolve_left hneg) h
    | plain hseen =>
      refine Prog.leads_ite (fun h => absurd h (by decide)) fun _ => ?_
      refine Prog.leads_ite (fun h => absurd h (by decide)) fun _ => ?_
      refine leads_quiet (quiet_perform rfl) fun garbage => ?_
      refine leads_quiet (quiet_getDirid ..) fun found => ?_
      obtain ⟨ret, basename, dirid⟩ := found
      refine Prog.leads_ite (fun _ => .metadata hfresh fun h => absurd h (by decide)) fun _ => ?_
      refine (leads_llOpen convertedPath flags handle _ fuel).bind ?_
      rintro s ⟨ret, fp⟩ (⟨hneg, rfl⟩ | ⟨-, hzero, hfork, rfl⟩)
      · refine Prog.leads_ite (fun _ => ?_) fun h => absurd hneg h
        refine leads_perform fun r _ _ => ?_
        show LeadsTo M _ ((w.alloc handle).step ⟨.free handle, r⟩) _
        rw [step_free_alloc]
        exact .refused (Int.ne_of_lt hneg)
      · have hret : ret = 0 := hzero (hsafe.imp_right fun h => h.resolve_right (not_not.mpr hseen))
        exact Prog.leads_ite (fun h => absurd hret (Int.ne_of_lt h)) fun _ => .fork hfresh hfork

/-! ## Closing -/

/-- A fork is closed, and its entry is removed. -/
def World.closed (w : World) (handle : Handle) (forkid : UInt16) : World :=
  { w with
    openForks := w.openForks.eraseP (·.1 == handle)
    server := w.server.erase forkid }

theorem closed_opened (w : World) (handle : Handle) (forkid : UInt16) :
    (w.opened handle forkid).closed handle forkid = w := by
  simp only [World.closed, World.opened, List.eraseP_cons, beq_self_eq_true, cond_true,
    List.erase_cons_head]

/-- What `afp_ml_close()` has done: nothing, or it has closed the fork of an ordinary file. -/
inductive MlClosed (w : World) (file : Option (Handle × AfpFileInfo)) : World → ℤ → Prop
  | same {ret : ℤ} : MlClosed w file w ret
  | closed {handle : Handle} {fp : AfpFileInfo} : file = some (handle, fp) → fp.resource = .none →
      MlClosed w file (w.closed handle fp.forkid) 0

theorem leads_afpMlClose (path : CString) (file : Option (Handle × AfpFileInfo))
    (hM : ∀ ev, M ev → MeetsEvent (.mlClose path file) ev) :
    LeadsTo M (MlClosed w file) w (afpMlClose vol path file) := by
  refine leads_quiet (quiet_ofOption _) fun converted => ?_
  refine Prog.leads_ite (fun _ => .same) fun _ => ?_
  refine Prog.leads_ite (fun _ => .same) fun _ => ?_
  cases file with
  | none => exact .same
  | some file =>
    obtain ⟨handle, fp⟩ := file
    refine Prog.leads_ite (fun hvirtual => ?_) fun hplain => ?_
    · rw [appledoubleClose]
      cases hkind : fp.resource with
      | none => exact absurd hkind hvirtual
      | resource =>
        refine leads_requestRc fun closed _ hev => ?_
        have hrefused : closed.rc ≠ kFPNoErr := hM _ hev handle fp rfl hkind
        rw [step_closeFork_of_ne hrefused]
        exact Prog.leads_ite (fun _ => .same) fun _ => .same
      | appledouble => exact .same
      | finderinfo => exact .same
      | comment => exact .same
      | serverIcon => exact .same
    · refine leads_requestRc fun closed _ _ => ?_
      by_cases hrc : closed.rc = kFPNoErr
      · rw [step_closeFork hrc]
        refine Prog.leads_ite (fun h => absurd hrc h) fun _ => ?_
        exact leads_perform fun _ _ _ => .closed rfl (not_not.mp hplain)
      · rw [step_closeFork_of_ne hrc]
        exact Prog.leads_ite (fun _ => .same) fun h => absurd (not_not.mp h) hrc

/-! ## Symbolic links -/

theorem leads_readRequest {forkid : UInt16} {offset size : ℕ} {maxsize : UInt32}
    {f : Reply (List UInt8) → AfpM β} {path : CString} {room : ℕ}
    (hM : ∀ ev, M ev → MeetsEvent (.mlReadlink path room) ev)
    (hf : ∀ reply : Reply (List UInt8), ¬ ReadFails reply.rc → LeadsTo M Q w (f reply)) :
    LeadsTo M Q w (readRequest vol forkid offset size maxsize >>= f) := by
  by_cases hversion : vol.server.avNumber < 30
  · rw [readRequest, if_pos hversion]
    exact leads_perform fun reply _ hev => hf reply (hM _ hev)
  · rw [readRequest, if_neg hversion]
    exact leads_perform fun reply _ hev => hf reply (hM _ hev)

theorem readlinkErr_ne_zero {rc : ℤ} (hrc : rc ≠ kFPNoErr) (h : ¬ Overlooked rc) :
    readlinkErr rc ≠ 0 := by
  have hzero : rc ≠ 0 := hrc
  rw [Overlooked] at h
  push Not at h
  obtain ⟨hvol, hdeny, hmisc, hbitmap⟩ := h
  rw [readlinkErr]
  split_ifs with _ _ _ _ _ _ hlist
  · decide
  · decide
  · decide
  · decide
  · decide
  · decide
  · rcases hlist with h | h | h | h | h
    · exact absurd h hvol
    · exact absurd h hdeny
    · exact absurd h hmisc
    · exact absurd h hbitmap
    · exact absurd h hzero
  · decide

theorem leads_afpMlReadlink (path : CString) (size : ℕ)
    (hM : ∀ ev, M ev → MeetsEvent (.mlReadlink path size) ev) :
    LeadsTo M (fun s _ => s = w) w (afpMlReadlink vol path size) := by
  refine leads_quiet (quiet_ofOption _) fun converted => ?_
  obtain ⟨ret, convertedPath⟩ := converted
  refine Prog.leads_ite (fun _ => rfl) fun _ => ?_
  refine leads_quiet (quiet_perform rfl) fun handle => ?_
  refine leads_quiet (quiet_perform rfl) fun fp => ?_
  refine leads_quiet (quiet_resolve _) fun found => ?_
  obtain ⟨ret, basename, dirid⟩ := found
  refine leads_perform fun reply hlegal hev => ?_
  have hseen : ¬ Overlooked reply.rc := hM _ hev
  by_cases hrc : reply.rc = kFPNoErr
  · obtain ⟨forkid, hstored, -⟩ := hlegal hrc
    rw [step_openFork hrc hstored]
    obtain ⟨rc, stored⟩ := reply
    obtain rfl : rc = kFPNoErr := hrc
    obtain rfl : stored = some forkid := hstored
    refine Prog.leads_ite (fun h => ?_) fun _ => ?_
    · exact absurd (rfl : readlinkErr kFPNoErr = 0) h
    refine leads_perform fun _ _ _ => ?_
    show LeadsTo M _ (w.opened handle forkid) _
    refine leads_readRequest hM fun read hread => ?_
    rw [ReadFails] at hread
    push Not at hread
    obtain ⟨hdenied, hlock, hmisc, hparam⟩ := hread
    refine Prog.leads_ite (fun h => absurd h hdenied) fun _ => ?_
    refine Prog.leads_ite (fun h => absurd h hlock) fun _ => ?_
    refine Prog.leads_ite (fun h => absurd h (not_or.mpr ⟨hmisc, hparam⟩)) fun _ => ?_
    refine leads_requestRc fun closed _ hev => ?_
    have hclosed : closed.rc = kFPNoErr := hM _ hev
    rw [step_closeFork hclosed]
    refine Prog.leads_ite (fun h => absurd hclosed h) fun _ => ?_
    refine leads_perform fun _ _ _ => ?_
    exact leads_quiet (quiet_ofOption _) fun _ => closed_opened w handle forkid
  · rw [step_openFork_of_ne hrc]
    exact Prog.leads_ite (fun _ => rfl) fun h => absurd (not_not.mp h) (readlinkErr_ne_zero hrc hseen)

theorem leads_afpMlSymlink (path1 path2 : CString)
    (hM : ∀ ev, M ev → MeetsEvent (.mlSymlink path1 path2) ev) :
    LeadsTo M (fun s _ => s = w) w (afpMlSymlink vol path1 path2) := by
  refine Prog.leads_ite (fun _ => rfl) fun _ => ?_
  refine leads_quiet (quiet_ofOption _) fun converted => ?_
  obtain ⟨ret, convertedPath1⟩ := converted
  refine Prog.leads_ite (fun _ => rfl) fun _ => ?_
  refine leads_quiet (quiet_ofOption _) fun converted => ?_
  obtain ⟨ret, convertedPath2⟩ := converted
  refine Prog.leads_ite (fun _ => rfl) fun _ => ?_
  refine Prog.leads_ite (fun _ => rfl) fun _ => ?_
  refine leads_quiet (quiet_refuseVirtual vol path1) fun ret => ?_
  refine Prog.leads_ite (fun _ => rfl) fun _ => ?_
  refine Prog.leads_ite (fun _ => rfl) fun _ => ?_
  refine leads_quiet (quiet_resolve _) fun found => ?_
  obtain ⟨ret, basename2, dirid2⟩ := found
  refine leads_quiet (quiet_requestRc rfl) fun rc => ?_
  refine Prog.leads_ite (fun _ => rfl) fun _ => ?_
  refine leads_quiet (quiet_perform rfl) fun handle => ?_
  refine leads_quiet (quiet_perform rfl) fun fp => ?_
  refine leads_perform fun reply hlegal hev => ?_
  have hrc : reply.rc = kFPNoErr := hM _ hev
  obtain ⟨forkid, hstored, -⟩ := hlegal hrc
  rw [step_openFork hrc hstored]
  obtain ⟨rc, stored⟩ := reply
  obtain rfl : stored = some forkid := hstored
  refine leads_perform fun _ _ _ => ?_
  show LeadsTo M _ (w.opened handle forkid) _
  refine leads_quiet (quiet_requestRc rfl) fun _ => ?_
  refine leads_requestRc fun closed _ hev => ?_
  have hclosed : closed.rc = kFPNoErr := hM _ hev
  rw [step_closeFork hclosed]
  refine Prog.leads_ite (fun h => absurd hclosed h) fun _ => ?_
  refine leads_perform fun _ _ _ => ?_
  exact leads_quiet (quiet_requestRc rfl) fun _ => closed_opened w handle forkid

/-! ## Truncating -/

/-- `appledouble_truncate()` leaves everything as it is, and with 0 the path is one of the file
itself. -/
theorem along_appledoubleTruncate (path : CString) {kind : AfpMeta} {rest : List Event}
    (hkind : kind ≠ .resource) (hstands : Stands vol path kind ((rest.filterMap behind).take 2)) :
    LeadsAlong M (fun x ret => x.1 = w ∧ (ret < 0 ∨ ret = 1 ∨ ret = 0 ∧ kind = .none ∧
        Stands vol path kind ((x.2.filterMap behind).take 1))) w rest
      (appledoubleTruncate vol path) := by
  refine along_translated fun beyond left found newpath hrest hfound => ?_
  subst hrest
  obtain ⟨hfirst, hleft⟩ := List.forall_mem_cons.mp hstands
  obtain rfl : found = kind := hfound.symm.trans hfirst
  cases found with
  | none => exact ⟨rfl, .inr (.inr ⟨rfl, rfl, hleft⟩)⟩
  | resource => exact absurd rfl hkind
  | appledouble => exact ⟨rfl, .inl (by decide : -EISDIR < 0)⟩
  | finderinfo => exact ⟨rfl, .inr (.inl rfl)⟩
  | comment => exact ⟨rfl, .inr (.inl rfl)⟩
  | serverIcon => exact ⟨rfl, .inl (by decide : -EPERM < 0)⟩

/-- What `afp_ml_truncate()` leaves: what was there, a structure besides, or an entry for an open fork
besides. -/
inductive MlTruncated (w : World) : World → Prop
  | same : MlTruncated w w
  | allocated {handle : Handle} : handle ∉ w.heap → MlTruncated w (w.alloc handle)
  | fork {handle : Handle} {forkid : UInt16} : handle ∉ w.heap → forkid ∉ w.server →
      MlTruncated w ((w.alloc handle).opened handle forkid)

theorem along_afpMlTruncate (path : CString) (fuel : ℕ) {kind : AfpMeta} {rest : List Event}
    (hkind : kind ≠ .resource) (hstands : Stands vol path kind ((rest.filterMap behind).take 2))
    (hM : ∀ ev, M ev → MeetsEvent (.mlTruncate path fuel) ev) :
    LeadsAlong M (fun x _ => MlTruncated w x.1) w rest (afpMlTruncate vol path fuel) := by
  refine along_ofOption fun converted => ?_
  obtain ⟨ret, convertedPath⟩ := converted
  refine Prog.leads_ite (fun _ => .same) fun _ => ?_
  refine Prog.leads_ite (fun _ => .same) fun _ => ?_
  refine Prog.leads_ite (fun _ => .same) fun _ => ?_
  refine (along_appledoubleTruncate path hkind hstands).bind ?_
  rintro ⟨w, left⟩ ret ⟨rfl, hret⟩
  refine Prog.leads_ite (fun _ => .same) fun hneg => ?_
  refine Prog.leads_ite (fun _ => .same) fun hone => ?_
  obtain ⟨-, rfl, hleft⟩ := (hret.resolve_left hneg).resolve_left hone
  refine (@along_afpMlOpen M w vol path O_WRONLY fuel (· = .none) left hleft (.inl (by decide))).bind ?_
  rintro ⟨s, left⟩ ⟨failed, newfp⟩ hopened
  refine Prog.Leads.along (Q := fun s _ => MlTruncated w s) ?_ left
  cases hopened with
  | refused hfailed =>
    cases newfp with
    | none => exact .same
    | some file => exact Prog.leads_ite (fun _ => .same) fun h => absurd hfailed h
  | metadata hfresh hmeta =>
    refine Prog.leads_ite (fun _ => .allocated hfresh) fun h => ?_
    obtain ⟨hvirtual, hplain⟩ := hmeta (not_not.mp h)
    exact absurd hplain hvirtual
  | @fork _ handle fp hfresh hfork =>
    refine Prog.leads_ite (fun _ => .fork hfresh hfork) fun _ => ?_
    refine (leads_llZeroFile _ _).bind ?_
    rintro _ ret ⟨rfl, -, -⟩
    refine Prog.leads_ite (fun _ => .fork hfresh hfork) fun _ => ?_
    refine leads_requestRc fun closed _ hev => ?_
    have hclosed : closed.rc = kFPNoErr := hM _ hev
    rw [step_closeFork hclosed]
    refine leads_perform fun _ _ _ => leads_perform fun r _ _ => ?_
    show MlTruncated w ((((w.alloc handle).opened handle fp.forkid).closed handle fp.forkid).step ⟨.free handle, r⟩)
    rw [closed_opened, step_free_alloc]
    exact .same

end Opening

/-! ## The invariant -/

/-- The ids in the list are those of the open forks, all handles are different and allocated, and an
ordinary file of the client has its entry. -/
structure Inv (w : World) : Prop where
  forks : (w.openForks.map Prod.snd).Perm w.server
  server : w.server.Nodup
  handles : (w.openForks.map Prod.fst).Nodup
  allocated : ∀ entry ∈ w.openForks, entry.1 ∈ w.heap
  files : (w.files.map Prod.fst).Nodup
  filesAllocated : ∀ file ∈ w.files, file.1 ∈ w.heap
  listed : ∀ file ∈ w.files, file.2.resource = .none → (file.1, file.2.forkid) ∈ w.openForks

theorem Inv.start : Inv World.start where
  forks := .nil
  server := List.nodup_nil
  handles := List.nodup_nil
  allocated := fun _ h => absurd h List.not_mem_nil
  files := List.nodup_nil
  filesAllocated := fun _ h => absurd h List.not_mem_nil
  listed := fun _ h => absurd h List.not_mem_nil

/-- The entry of a handle is the one that is removed. -/
theorem perm_cons_eraseP {l : List (Handle × UInt16)} (hnodup : (l.map Prod.fst).Nodup)
    {entry : Handle × UInt16} (hmem : entry ∈ l) :
    l.Perm (entry :: l.eraseP (·.1 == entry.1)) := by
  obtain ⟨found, l₁, l₂, -, hfound, hl, herase⟩ :=
    @List.exists_of_eraseP _ (fun e => e.1 == entry.1) _ _ hmem (beq_self_eq_true entry.1)
  have hmem' : found ∈ l := hl ▸ List.mem_append_cons_self
  obtain rfl : found = entry :=
    List.inj_on_of_nodup_map hnodup hmem' hmem (beq_iff_eq.mp hfound)
  rw [herase]
  exact (List.Perm.of_eq hl).trans List.perm_middle

namespace Inv

variable {w : World} {handle : Handle} {forkid : UInt16} {fp : AfpFileInfo}

theorem kept (h : Inv w) : Kept w where
  one := fun forkid hmem => by
    rw [h.forks.count_eq]
    exact List.count_eq_one_of_mem h.server hmem
  opened := fun entry hentry => h.forks.mem_iff.mp (List.mem_map_of_mem hentry)
  allocated := h.allocated

theorem alloc (h : Inv w) (handle : Handle) : Inv (w.alloc handle) where
  forks := h.forks
  server := h.server
  handles := h.handles
  allocated := fun entry hentry => List.mem_cons_of_mem _ (h.allocated entry hentry)
  files := h.files
  filesAllocated := fun file hfile => List.mem_cons_of_mem _ (h.filesAllocated file hfile)
  listed := h.listed

theorem not_mem_files (h : Inv w) (hfresh : handle ∉ w.heap) : handle ∉ w.files.map Prod.fst := by
  intro hmem
  obtain ⟨file, hfile, rfl⟩ := List.mem_map.mp hmem
  exact hfresh (h.filesAllocated file hfile)

/-- The structure that was allocated becomes the entry of a fork. -/
theorem alloc_opened (h : Inv w) (hfresh : handle ∉ w.heap) (hfork : forkid ∉ w.server) :
    Inv ((w.alloc handle).opened handle forkid) where
  forks := h.forks.cons forkid
  server := List.nodup_cons.mpr ⟨hfork, h.server⟩
  handles := List.nodup_cons.mpr ⟨fun hmem => by
    obtain ⟨entry, hentry, heq⟩ := List.mem_map.mp hmem
    obtain rfl : entry.1 = handle := heq
    exact hfresh (h.allocated entry hentry), h.handles⟩
  allocated := List.forall_mem_cons.mpr ⟨List.mem_cons_self, (h.alloc handle).allocated⟩
  files := h.files
  filesAllocated := (h.alloc handle).filesAllocated
  listed := fun file hfile hplain => List.mem_cons_of_mem _ (h.listed file hfile hplain)

/-- The client opens a file. -/
theorem addFile (h : Inv w) (hheap : handle ∈ w.heap) (hfresh : handle ∉ w.files.map Prod.fst)
    (hlisted : fp.resource = .none → (handle, fp.forkid) ∈ w.openForks) :
    Inv { w with files := (handle, fp) :: w.files } where
  forks := h.forks
  server := h.server
  handles := h.handles
  allocated := h.allocated
  files := List.nodup_cons.mpr ⟨hfresh, h.files⟩
  filesAllocated := List.forall_mem_cons.mpr ⟨hheap, h.filesAllocated⟩
  listed := List.forall_mem_cons.mpr ⟨hlisted, h.listed⟩

/-- The client forgets files. -/
theorem filterFiles (h : Inv w) (keep : Handle × AfpFileInfo → Bool) :
    Inv { w with files := w.files.filter keep } where
  forks := h.forks
  server := h.server
  handles := h.handles
  allocated := h.allocated
  files := h.files.sublist (List.filter_sublist.map _)
  filesAllocated := fun file hfile => h.filesAllocated file (List.mem_of_mem_filter hfile)
  listed := fun file hfile => h.listed file (List.mem_of_mem_filter hfile)

/-- An ordinary file of the client is closed. -/
theorem closed (h : Inv w) (hfile : (handle, fp) ∈ w.files) (hplain : fp.resource = .none) :
    Inv { w.closed handle fp.forkid with
      files := w.files.filter fun file => some (handle, fp) ≠ some file } := by
  have hentry := h.listed _ hfile hplain
  have hperm := perm_cons_eraseP h.handles hentry
  refine ⟨?_, h.server.erase _, ?_, ?_, ?_, ?_, ?_⟩
  · have hids := ((hperm.map Prod.snd).symm.trans h.forks).erase fp.forkid
    rwa [List.map_cons, List.erase_cons_head] at hids
  · exact h.handles.sublist (List.eraseP_sublist.map _)
  · exact fun entry hmem => h.allocated entry (List.mem_of_mem_eraseP hmem)
  · exact h.files.sublist (List.filter_sublist.map _)
  · exact fun file hmem => h.filesAllocated file (List.mem_of_mem_filter hmem)
  · intro file hmem hordinary
    obtain ⟨hold, hne⟩ := List.mem_filter.mp hmem
    have hother : file ≠ (handle, fp) := fun heq => of_decide_eq_true hne (heq ▸ rfl)
    refine (List.mem_cons.mp (hperm.mem_iff.mp (h.listed file hold hordinary))).resolve_left ?_
    intro heq
    exact hother (List.inj_on_of_nodup_map h.files hold hfile (Prod.mk.inj heq).1)

end Inv

/-! ## Runs -/

section Runs

variable {vol : Volume} {op : Op} {tr : List Event} {w s : World}
  {out : ℤ × Option (Handle × AfpFileInfo)}

/-- What an operation does to the world in a run of the kind that is meant. -/
def Result (w : World) : Op → World → ℤ × Option (Handle × AfpFileInfo) → Prop
  | .mlOpen .., s, result => ∃ seen, MlOpened seen w s result
  | .mlClose _ file, s, result => MlClosed w file s result.1
  | .mlReadlink .., s, _ => s = w
  | .mlSymlink .., s, _ => s = w
  | .mlTruncate .., s, _ => MlTruncated w s

/-- **What an operation does**, whatever it is answered. -/
theorem along_call (hmeets : Meets vol op tr) :
    LeadsAlong (· ∈ tr) (fun x => Result w op x.1) w tr (op.call vol) := by
  obtain ⟨hevents, hop⟩ := hmeets
  cases op with
  | mlOpen path flags fuel =>
    rcases hop with hresource | hnever
    · have hopened := @along_afpMlOpen (· ∈ tr) w vol path flags fuel (· = .resource) tr hresource
        (.inr (.inr (by decide)))
      exact hopened.mono fun _ _ h => ⟨_, h⟩
    · have hopened := @along_afpMlOpen (· ∈ tr) w vol path flags fuel (fun _ => True) tr
        (fun _ _ => trivial) (.inr (.inl hnever))
      exact hopened.mono fun _ _ h => ⟨_, h⟩
  | mlClose path file =>
    have hclosed : LeadsTo (· ∈ tr) (Result w (.mlClose path file)) w
        (Op.call vol (.mlClose path file)) := by
      refine (leads_afpMlClose path file hevents).bind ?_
      exact fun _ _ h => h
    exact hclosed.along tr
  | mlReadlink path size =>
    have hread : LeadsTo (· ∈ tr) (Result w (.mlReadlink path size)) w
        (Op.call vol (.mlReadlink path size)) := by
      refine (leads_afpMlReadlink path size hevents).bind ?_
      exact fun _ _ h => h
    exact hread.along tr
  | mlSymlink path1 path2 =>
    have hlinked : LeadsTo (· ∈ tr) (Result w (.mlSymlink path1 path2)) w
        (Op.call vol (.mlSymlink path1 path2)) := by
      refine (leads_afpMlSymlink path1 path2 hevents).bind ?_
      exact fun _ _ h => h
    exact hlinked.along tr
  | mlTruncate path fuel =>
    obtain ⟨kind, hkind, hstands⟩ := hop
    exact (along_afpMlTruncate path fuel hkind hstands hevents).bind fun _ _ h => h

theorem returned_of_ne (hret : out.1 ≠ 0) : w.returned op out = w := if_pos hret

/-- What the client remembers of a file that was closed. -/
theorem Inv.returned_mlClose (h : Inv w) (path : CString) (file : Option (Handle × AfpFileInfo)) :
    Inv (w.returned (.mlClose path file) out) := by
  by_cases hret : out.1 ≠ 0
  · rwa [returned_of_ne hret]
  · rw [World.returned, if_neg hret]
    exact h.filterFiles _

/-- **What an operation does keeps the invariant.** -/
theorem Inv.result (h : Inv w) (hallowed : op.Allowed w) (hresult : Result w op s out) :
    Inv (s.returned op out) := by
  cases op with
  | mlOpen path flags fuel =>
    obtain ⟨seen, hopened⟩ := hresult
    cases hopened with
    | refused hret =>
      rw [returned_of_ne hret]
      exact h
    | @metadata ret handle fp hfresh hkind =>
      have hnew : handle ∉ w.files.map Prod.fst := h.not_mem_files hfresh
      by_cases hret : ret = 0
      · rw [World.returned, if_neg (not_not.mpr hret)]
        exact (h.alloc handle).addFile List.mem_cons_self hnew
          fun hplain => absurd hplain (hkind hret).1
      · rw [returned_of_ne hret]
        exact h.alloc handle
    | @fork ret handle fp hfresh hfork =>
      have hnew : handle ∉ w.files.map Prod.fst := h.not_mem_files hfresh
      have hopened := h.alloc_opened hfresh hfork
      by_cases hret : ret = 0
      · rw [World.returned, if_neg (not_not.mpr hret)]
        exact hopened.addFile List.mem_cons_self hnew fun _ => List.mem_cons_self
      · rw [returned_of_ne hret]
        exact hopened
  | mlClose path file =>
    obtain ⟨ret, newfp⟩ := out
    cases hresult with
    | same => exact h.returned_mlClose path file
    | @closed handle fp hfile hplain =>
      subst hfile
      exact h.closed (hallowed _ rfl) hplain
  | mlReadlink path size =>
    obtain rfl : s = w := hresult
    show Inv (if out.1 ≠ 0 then s else s)
    rwa [ite_self]
  | mlSymlink path1 path2 =>
    obtain rfl : s = w := hresult
    show Inv (if out.1 ≠ 0 then s else s)
    rwa [ite_self]
  | mlTruncate path fuel =>
    show Inv (if out.1 ≠ 0 then s else s)
    rw [ite_self]
    cases hresult with
    | same => exact h
    | allocated _ => exact h.alloc _
    | fork hfresh hfork => exact h.alloc_opened hfresh hfork

/-- Where the path does not stand for a resource fork, the hook returns. -/
theorem not_stuck_appledoubleTruncate {path : CString} {kind : AfpMeta} (hkind : kind ≠ .resource)
    (hstands : Stands vol path kind ((tr.filterMap behind).take 2)) :
    ¬ Prog.Steps (appledoubleTruncate vol path) tr .stuck := by
  intro hstuck
  obtain ⟨beyond, left, rfl, hleft⟩ := (Prog.steps_act_iff (q := .stuck) trivial).mp hstuck
  obtain ⟨hfirst, -⟩ := List.forall_mem_cons.mp hstands
  revert hleft
  show ¬ Prog.Steps (Prog.done ((extraTranslate vol path beyond).1, _) >>= _) left .stuck
  cases hseen : (extraTranslate vol path beyond).1 with
  | resource => exact absurd (hfirst.symm.trans hseen) hkind
  | none => exact Prog.not_steps_done_stuck
  | appledouble => exact Prog.not_steps_done_stuck
  | finderinfo => exact Prog.not_steps_done_stuck
  | comment => exact Prog.not_steps_done_stuck
  | serverIcon => exact Prog.not_steps_done_stuck

/-- **A step keeps the invariant.** -/
theorem inv_step {cfg : Config} {act : Op × List Event} (h : Inv w)
    (hstep : Step vol (.up w) act cfg) (hmeets : Meets vol act.1 act.2) :
    ∃ w', cfg = .up w' ∧ Inv w' := by
  cases hstep with
  | @returns _ op tr out hallowed hsteps hlegal =>
    have hresult : Result w op (tr.foldl World.step w) out :=
      (along_call hmeets).steps_along hsteps (hlegal.and_forall fun _ h => h)
    exact ⟨_, rfl, h.result hallowed hresult⟩
  | breaks _ hstuck _ =>
    obtain ⟨-, kind, hkind, hstands⟩ := hmeets
    exact absurd hstuck (not_stuck_appledoubleTruncate hkind hstands)

/-- **In which runs the list is right.** -/
theorem kept_run (vol : Volume) {acts : List (Op × List Event)} {cfg : Config}
    (hrun : Run (Guarded (fun _ act => Meets vol act.1 act.2) (Step vol)) (.up .start) acts cfg) :
    Consistent cfg := by
  have hinv : ∃ w, cfg = .up w ∧ Inv w := by
    refine hrun.invariant (fun cfg => ∃ w, cfg = .up w ∧ Inv w) ?_ ⟨.start, rfl, .start⟩
    rintro _ act cfg ⟨hmeets, hstep⟩ ⟨w, rfl, hinv⟩
    exact inv_step hinv hstep hmeets
  obtain ⟨w, rfl, hinv⟩ := hinv
  exact hinv.kept

end Runs

/-! ## A truncation -/

/-- The truncation of "/f", as it is called. -/
abbrev truncation : Op := .mlTruncate [0x2f, 0x66] 1

theorem admits_emptiedBy (closed : Reply Unit) :
    Prog.Admits Legal World.step .start (emptiedBy closed) :=
  ⟨trivial, fun _ _ => List.not_mem_nil, trivial, trivial, fun _ => ⟨(1 : UInt16), rfl, List.not_mem_nil⟩,
    trivial, trivial, trivial, trivial, trivial, trivial⟩

theorem step_truncation (closed : Reply Unit) :
    Step Volume.plain (.up .start) (truncation, emptiedBy closed)
      (.up ((emptiedBy closed).foldl World.step .start)) := by
  have hallowed : truncation.Allowed .start := trivial
  have hsteps : Prog.Steps (truncation.call Volume.plain) (emptiedBy closed ++ [])
      (.done ((0 : ℤ), (none : Option (Handle × AfpFileInfo)))) :=
    Prog.Steps.bind (steps_emptiedBy closed) (.refl _)
  rw [List.append_nil] at hsteps
  have hstep := Step.returns hallowed hsteps (admits_emptiedBy closed)
  exact hstep

theorem meets_emptiedBy {closed : Reply Unit} (hclosed : closed.rc = kFPNoErr) :
    Meets Volume.plain truncation (emptiedBy closed) := by
  refine ⟨?_, .none, by decide, fun _ _ => rfl⟩
  exact List.forall_mem_cons.mpr ⟨trivial, List.forall_mem_cons.mpr ⟨trivial,
    List.forall_mem_cons.mpr ⟨trivial, List.forall_mem_cons.mpr ⟨trivial,
    List.forall_mem_cons.mpr ⟨trivial, List.forall_mem_cons.mpr ⟨trivial,
    List.forall_mem_cons.mpr ⟨trivial, List.forall_mem_cons.mpr ⟨hclosed,
    List.forall_mem_cons.mpr ⟨trivial, List.forall_mem_singleton.mpr trivial⟩⟩⟩⟩⟩⟩⟩⟩⟩

/-- A truncation after which the list is empty again. -/
theorem kept_run_of_truncation :
    Consistent (.up ((emptiedBy ⟨kFPNoErr, none⟩).foldl World.step .start)) :=
  kept_run Volume.plain (.cons ⟨meets_emptiedBy rfl, step_truncation _⟩ (.nil _))

/-- **A fork that the server does not close is forgotten.**  `afp_ml_truncate()` removes the entry
although the request to close the fork has failed. -/
theorem refused_close_is_forgotten :
    ¬ ∀ (vol : Volume) (acts : List (Op × List Event)) (cfg : Config),
      Run (Step vol) (.up .start) acts cfg → Consistent cfg := by
  intro h
  have hkept : Kept _ :=
    h Volume.plain _ _ (.cons (step_truncation ⟨kFPMiscErr, none⟩) (.nil _))
  exact absurd (hkept.one 1 List.mem_cons_self) (by decide)

end Forks
end Afpfs

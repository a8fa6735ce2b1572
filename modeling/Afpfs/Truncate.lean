import Afpfs.Midlevel
import Afpfs.Locking
import Afpfs.PathResolution

/-!
# Truncating files

`afp_ml_truncate()` is given a length, and sets the length of the fork to zero.  The result of
`afp_ml_open()` decides whether it goes on, but is not what it returns.  `appledouble_truncate()` looks
at no result, and ends in a call with a structure for a pointer.

* `truncate_iff`: in which runs a result of 0 says that the fork has the length, and a negative one
  that nothing was changed.
* `longer_file_is_emptied`: a file that is truncated to one byte.
-/

set_option autoImplicit false

namespace Afpfs
namespace Truncate

open Interaction Unicode Codepage Translate Locking

/-! ## What is expected -/

/-- The forks of the file that is opened, and the references to them that are open. -/
structure Forks where
  data : List UInt8
  rsrc : List UInt8
  refs : List (UInt16 × Bool)

/-- Contents that are cut or filled up to a length. -/
def resize (content : List UInt8) (len : ℕ) : List UInt8 :=
  content.take len ++ List.replicate (len - content.length) 0

/-- A fork is opened. -/
def Forks.opened (forks : Forks) (resource : Bool) (reply : Reply UInt16) : Forks :=
  match reply.stored with
  | some ref => if reply.rc = kFPNoErr then { forks with refs := (ref, resource) :: forks.refs } else forks
  | none => forks

/-- The length of a fork is set, if the bitmap is one for that fork. -/
def Forks.setLength (forks : Forks) (ref : UInt16) (bitmap len : ℕ) (rc : ℤ) : Forks :=
  if rc ≠ kFPNoErr then forks
  else
    match forks.refs.lookup ref with
    | some false =>
      if bitmap &&& (kFPDataForkLenBit ||| kFPExtDataForkLenBit) ≠ 0 then
        { forks with data := resize forks.data len }
      else forks
    | some true =>
      if bitmap &&& (kFPRsrcForkLenBit ||| kFPExtRsrcForkLenBit) ≠ 0 then
        { forks with rsrc := resize forks.rsrc len }
      else forks
    | none => forks

/-- The forks after an event. -/
def Forks.step (forks : Forks) : Event → Forks
  | ⟨.request (.openFork resource _ _ _), reply⟩ => forks.opened resource reply
  | ⟨.request (.setForkParms ref bitmap len), reply⟩ => forks.setLength ref bitmap len.toNat reply.rc
  | _ => forks

/-- The forks after a trace. -/
def forksAfter (D R : List UInt8) (tr : List Event) : Forks := tr.foldl Forks.step ⟨D, R, []⟩

/-- A request to open a fork or to set its length fails. -/
def Fails : Event → Prop
  | ⟨.request (.openFork ..), reply⟩ => reply.rc ≠ kFPNoErr
  | ⟨.request (.setForkParms ..), reply⟩ => reply.rc ≠ kFPNoErr
  | _ => False

/-- A fork has the length `n`, and is otherwise what it was. -/
def HasLength (n : ℕ) (before after : List UInt8) : Prop :=
  after.length = n ∧ after.take (min n before.length) = before.take (min n before.length)

/-- The result says what happened: after 0 the fork that the path stands for has the length, and the
data fork is unchanged if it is not that one; a request that failed gives a negative result, and
nothing was changed. -/
structure Truncated (resource : Bool) (D R : List UInt8) (n : ℕ) (tr : List Event) (ret : ℤ) :
    Prop where
  success : ret = 0 → if resource then
      HasLength n R (forksAfter D R tr).rsrc ∧ (forksAfter D R tr).data = D
    else HasLength n D (forksAfter D R tr).data
  failure : (∃ ev ∈ tr, Fails ev) → ret < 0 ∧ (forksAfter D R tr).data = D ∧
    (forksAfter D R tr).rsrc = R

/-- A run that has come to an end has come to such a result. -/
def Truncates (resource : Bool) (D R : List UInt8) (n : ℕ) (tr : List Event) (q : AfpM ℤ) : Prop :=
  ∃ ret, q = .done ret ∧ Truncated resource D R n tr ret

/-- A fork that was opened has a reference. -/
def Serves : Event → Prop
  | ⟨.request (.openFork ..), reply⟩ => reply.rc = kFPNoErr → reply.stored ≠ none
  | _ => True

/-! ## When it is so -/

/-- The errors in the `switch` of `ll_zero_file()`. -/
def Listed (rc : ℤ) : Prop :=
  rc = kFPAccessDenied ∨ rc = kFPVolLocked ∨ rc = kFPLockErr ∨ rc = kFPDiskFull ∨
    rc = kFPBitmapErr ∨ rc = kFPMiscErr ∨ rc = kFPParamErr

/-- What goes right: the fork is opened, and its length is set where it is to be zero, or that fails
with an error that is listed.  Without memory nothing is done, which is right for a fork that has the
length. -/
def MeetsEvent (D : List UInt8) (n : ℕ) : Event → Prop
  | ⟨.malloc, handle⟩ => (handle : Option Handle) = none → D.length = n
  | ⟨.request (.openFork ..), reply⟩ => reply.rc = kFPNoErr
  | ⟨.request (.setForkParms ..), reply⟩ =>
    if reply.rc = kFPNoErr then n = 0 else Listed reply.rc
  | _ => True

/-- The call is refused before anything is done, or the path stands for a data fork and everything
goes right. -/
def Meets (vol : Volume) (ret : ℤ) (dst : CString) (resource : Bool) (D : List UInt8) (n : ℕ)
    (tr : List Event) : Prop :=
  ret ≠ 0 ∨ invalidFilename vol.server dst = true ∨ volumeIsReadonly vol = true ∨
    resource = false ∧ ∀ ev ∈ tr, MeetsEvent D n ev

/-! ## Events that matter -/

/-- The effect opens a fork, sets its length, or asks for memory. -/
def loud : Effect → Bool
  | .request (.openFork ..) => true
  | .request (.setForkParms ..) => true
  | .malloc => true
  | _ => false

/-- The result of a run is right exactly if everything goes right. -/
def Right (D R : List UInt8) (n : ℕ) (tr : List Event) (ret : ℤ) : Prop :=
  (∀ ev ∈ tr, Serves ev) →
    (Truncated false D R n tr ret ↔ ∀ ev ∈ tr, MeetsEvent D n ev)

section Quiet

variable {D R : List UInt8} {n : ℕ} {tr : List Event} {ev : Event} {ret : ℤ}

theorem step_quiet (h : loud ev.1 = false) (forks : Forks) : forks.step ev = forks := by
  obtain ⟨e, r⟩ := ev
  cases e with
  | request q => cases q <;> first | rfl | exact absurd h.symm Bool.false_ne_true
  | _ => rfl

theorem not_fails_of_quiet (h : loud ev.1 = false) : ¬ Fails ev := by
  obtain ⟨e, r⟩ := ev
  cases e with
  | request q => cases q <;> first | exact id | exact absurd h.symm Bool.false_ne_true
  | _ => exact id

theorem serves_of_quiet (h : loud ev.1 = false) : Serves ev := by
  obtain ⟨e, r⟩ := ev
  cases e with
  | request q => cases q <;> trivial
  | _ => trivial

theorem meetsEvent_of_quiet (h : loud ev.1 = false) : MeetsEvent D n ev := by
  obtain ⟨e, r⟩ := ev
  cases e with
  | request q => cases q <;> trivial
  | _ => trivial

/-- The events of a trace that matter. -/
def louds (tr : List Event) : List Event := tr.filter fun ev => loud ev.1

theorem forksAfter_louds : forksAfter D R (louds tr) = forksAfter D R tr := by
  rw [forksAfter, forksAfter]
  generalize (⟨D, R, []⟩ : Forks) = forks
  induction tr generalizing forks with
  | nil => rfl
  | cons ev tr ih =>
    rw [louds, List.filter_cons]
    cases h : loud ev.1 with
    | true => exact ih _
    | false =>
      rw [if_neg Bool.false_ne_true, List.foldl_cons, step_quiet h]
      exact ih _

theorem forall_louds {P : Event → Prop} (h : ∀ ev, loud ev.1 = false → P ev) :
    (∀ ev ∈ louds tr, P ev) ↔ ∀ ev ∈ tr, P ev := by
  refine ⟨fun hall ev hev => ?_, fun hall ev hev => hall ev (List.mem_of_mem_filter hev)⟩
  cases hloud : loud ev.1 with
  | true => exact hall ev (List.mem_filter.mpr ⟨hev, hloud⟩)
  | false => exact h ev hloud

theorem exists_louds : (∃ ev ∈ louds tr, Fails ev) ↔ ∃ ev ∈ tr, Fails ev := by
  rw [← not_iff_not]
  push Not
  exact forall_louds fun _ => not_fails_of_quiet

/-- **Only the events that matter decide.** -/
theorem right_louds_iff : Right D R n (louds tr) ret ↔ Right D R n tr ret := by
  have htruncated : Truncated false D R n (louds tr) ret ↔ Truncated false D R n tr ret := by
    constructor
    · exact fun h => ⟨forksAfter_louds ▸ h.success, fun hfails =>
        forksAfter_louds ▸ h.failure (exists_louds.mpr hfails)⟩
    · exact fun h => ⟨forksAfter_louds.symm ▸ h.success, fun hfails =>
        forksAfter_louds.symm ▸ h.failure (exists_louds.mp hfails)⟩
  rw [Right, Right, htruncated, forall_louds fun _ => serves_of_quiet,
    forall_louds fun _ => meetsEvent_of_quiet]

theorem louds_append (tr tr' : List Event) : louds (tr ++ tr') = louds tr ++ louds tr' :=
  List.filter_append ..

theorem louds_eq_nil (h : ∀ ev ∈ tr, loud ev.1 = false) : louds tr = [] :=
  List.filter_eq_nil_iff.mpr fun ev hev => Bool.eq_false_iff.mp (h ev hev)

end Quiet

/-! ## The ends of a run -/

section Ends

variable {D R : List UInt8} {n : ℕ} {handle : Handle} {did : UInt32} {mode : ℕ} {name : CString}
  {opened : Reply UInt16}

theorem hasLength_self : HasLength n D D ↔ D.length = n := and_iff_left rfl

theorem hasLength_nil : HasLength n D [] ↔ n = 0 := by
  constructor
  · exact fun h => h.1.symm
  · rintro rfl
    exact ⟨rfl, by rw [Nat.zero_min, List.take_zero, List.take_zero]⟩

theorem resize_zero (content : List UInt8) : resize content 0 = [] := by
  rw [resize, List.take_zero, Nat.zero_sub]
  rfl

theorem not_listed_noErr : ¬ Listed kFPNoErr := by
  rw [Listed]
  decide

theorem truncated_iff {tr : List Event} {ret : ℤ} {forks : Forks} {F : Prop}
    (hforks : forksAfter D R tr = forks) (hfails : (∃ ev ∈ tr, Fails ev) ↔ F) :
    Truncated false D R n tr ret ↔
      (ret = 0 → HasLength n D forks.data) ∧ (F → ret < 0 ∧ forks.data = D ∧ forks.rsrc = R) := by
  subst hforks
  rw [← hfails]
  exact ⟨fun h => ⟨h.success, h.failure⟩, fun h => ⟨h.1, h.2⟩⟩

/-- There is no memory, and the result is 0. -/
theorem right_malloc : Right D R n [⟨.malloc, (none : Option Handle)⟩] 0 := by
  intro _
  rw [List.forall_mem_singleton]
  constructor
  · exact fun h _ => hasLength_self.mp (h.success rfl)
  · refine fun h => ⟨fun _ => hasLength_self.mpr (h rfl), ?_⟩
    rintro ⟨ev, hev, hfails⟩
    rw [List.mem_singleton] at hev
    exact (hev ▸ hfails : Fails ⟨.malloc, (none : Option Handle)⟩).elim

/-- The fork is not opened, and the result is 0. -/
theorem right_openFork (h : opened.rc ≠ kFPNoErr) :
    Right D R n [⟨.malloc, some handle⟩, ⟨.request (.openFork false did mode name), opened⟩] 0 := by
  intro _
  refine iff_of_false (fun htruncated => ?_) fun hmeets => ?_
  · have hfails : ∃ ev ∈ [(⟨.malloc, some handle⟩ : Event),
        ⟨.request (.openFork false did mode name), opened⟩], Fails ev :=
      ⟨_, List.mem_cons_of_mem _ List.mem_cons_self, h⟩
    exact absurd (htruncated.failure hfails).1 (by decide)
  · exact h (hmeets _ (List.mem_cons_of_mem _ List.mem_cons_self))

/-- The length is set, or not. -/
theorem right_setForkParms (hopened : opened.rc = kFPNoErr) {ref : UInt16}
    (href : ref = opened.stored.getD 0) {bitmap : ℕ}
    (hbit : bitmap &&& (kFPDataForkLenBit ||| kFPExtDataForkLenBit) ≠ 0) {set : Reply Unit} {ret : ℤ}
    (hlisted : Listed set.rc → ret < 0) (hother : ¬ Listed set.rc → ret = 0) :
    Right D R n [⟨.malloc, some handle⟩, ⟨.request (.openFork false did mode name), opened⟩,
      ⟨.request (.setForkParms ref bitmap 0), set⟩] ret := by
  intro hserves
  have hstored : opened.stored ≠ none :=
    hserves _ (List.mem_cons_of_mem _ List.mem_cons_self) hopened
  obtain ⟨ref', href'⟩ := Option.ne_none_iff_exists'.mp hstored
  rw [href', Option.getD_some] at href
  subst href
  have hforks : forksAfter D R [⟨.malloc, some handle⟩,
      ⟨.request (.openFork false did mode name), opened⟩,
      ⟨.request (.setForkParms ref bitmap 0), set⟩] =
        ⟨if set.rc = kFPNoErr then [] else D, R, [(ref, false)]⟩ := by
    show ((⟨D, R, []⟩ : Forks).opened false opened).setLength ref bitmap 0 set.rc = _
    have hrefs : (⟨D, R, []⟩ : Forks).opened false opened = ⟨D, R, [(ref, false)]⟩ := by
      rw [Forks.opened, href']
      exact if_pos hopened
    rw [hrefs, Forks.setLength]
    by_cases hset : set.rc = kFPNoErr
    · rw [if_neg (not_not.mpr hset), if_pos hset, List.lookup_cons, beq_self_eq_true]
      exact (if_pos hbit).trans (congrArg (fun data => Forks.mk data R _) (resize_zero D))
    · rw [if_pos hset, if_neg hset]
  have hfails : (∃ ev ∈ [(⟨.malloc, some handle⟩ : Event),
      ⟨.request (.openFork false did mode name), opened⟩,
      ⟨.request (.setForkParms ref bitmap 0), set⟩], Fails ev) ↔ set.rc ≠ kFPNoErr := by
    rw [List.exists_mem_cons_iff, List.exists_mem_cons_iff, List.exists_mem_cons_iff]
    constructor
    · rintro (h | h | h | ⟨ev, hev, -⟩)
      · exact h.elim
      · exact absurd hopened h
      · exact h
      · exact absurd hev List.not_mem_nil
    · exact fun h => .inr (.inr (.inl h))
  have hmeets : (∀ ev ∈ [(⟨.malloc, some handle⟩ : Event),
      ⟨.request (.openFork false did mode name), opened⟩,
      ⟨.request (.setForkParms ref bitmap 0), set⟩], MeetsEvent D n ev) ↔
        if set.rc = kFPNoErr then n = 0 else Listed set.rc := by
    rw [List.forall_mem_cons, List.forall_mem_cons, List.forall_mem_singleton]
    exact ⟨fun h => h.2.2, fun h => ⟨fun hnone => absurd hnone (Option.some_ne_none handle),
      hopened, h⟩⟩
  rw [truncated_iff hforks hfails, hmeets]
  by_cases hset : set.rc = kFPNoErr
  · rw [if_pos hset, if_pos hset, forall_prop_of_true (hother (hset ▸ not_listed_noErr)),
      and_iff_left (fun h => absurd hset h)]
    exact hasLength_nil
  · rw [if_neg hset, if_neg hset, forall_prop_of_true hset]
    by_cases hcode : Listed set.rc
    · have hneg := hlisted hcode
      exact iff_of_true ⟨fun hzero => absurd hzero (Int.ne_of_lt hneg), hneg, rfl, rfl⟩ hcode
    · refine iff_of_false (fun h => ?_) hcode
      exact absurd (hother hcode) (Int.ne_of_lt h.2.1)

end Ends

/-! ## Runs -/

section Runs

variable {vol : Volume} {path dst : CString} {D R : List UInt8} {n fuel : ℕ}

/-- The path is not one of `.AppleDouble`. -/
def Plain (vol : Volume) (path : CString) : Prop :=
  ∀ beyond, (extraTranslate vol path beyond).1 = .none

/-- Behind what has happened, a program does not get stuck and its result is right. -/
structure Sound (D R : List UInt8) (n : ℕ) (tr : List Event) (p : AfpM ℤ) : Prop where
  yields : Prog.Yields (fun _ => True) (fun _ => True) p
  returns : Prog.Returns (fun tr' ret => Right D R n (tr ++ tr') ret) p

theorem Sound.done {tr : List Event} {ret : ℤ} (h : Right D R n tr ret) :
    Sound D R n tr (pure ret) := by
  refine ⟨trivial, ?_⟩
  show Right D R n (tr ++ []) ret
  rwa [List.append_nil]

/-- A part without events that matter. -/
theorem Sound.quiet_bind {α : Type} {p : AfpM α} {f : α → AfpM ℤ} {Q : α → Prop} {tr : List Event}
    (hp : Prog.AllActs (fun e => loud e = false) p) (hQ : Prog.Yields (fun _ => True) Q p)
    (hf : ∀ a, Q a → Sound D R n tr (f a)) : Sound D R n tr (p >>= f) := by
  refine ⟨hQ.bind fun a ha => (hf a ha).yields, ?_⟩
  refine Prog.Returns.bind ((hp.returns.and hQ.ensures.returns).mono ?_)
  rintro quiet a ⟨hquiet, hQa⟩
  refine (hf a (hQa fun _ _ => trivial)).returns.mono fun tr' ret hright => ?_
  rw [← right_louds_iff, louds_append, louds_append, louds_eq_nil hquiet, List.nil_append,
    ← louds_append]
  exact right_louds_iff.mpr hright

/-- An event that matters. -/
theorem Sound.loud {e : Effect} {f : e.Answer → AfpM ℤ} {tr : List Event}
    (hf : ∀ r, Sound D R n (tr ++ [⟨e, r⟩]) (f r)) : Sound D R n tr (.act e f) := by
  refine ⟨fun r _ => (hf r).yields, fun r => (hf r).returns.mono fun tr' ret hright => ?_⟩
  rwa [List.append_assoc, List.singleton_append] at hright

theorem translated_eq {kind : AfpMeta} (hkind : ∀ beyond, (extraTranslate vol path beyond).1 = kind) :
    translated vol path =
      uninitPath >>= fun beyond => pure (kind, (extraTranslate vol path beyond).2.getD []) := by
  refine congrArg (Prog.act Effect.uninitPath) (funext fun beyond => ?_)
  show Prog.done ((extraTranslate vol path beyond).1, _) = _
  rw [hkind beyond]
  rfl

theorem appledoubleTruncate_plain (hplain : Plain vol path) :
    appledoubleTruncate vol path = uninitPath >>= fun _ => pure 0 := by
  rw [appledoubleTruncate, translated_eq hplain]
  rfl

theorem appledoubleOpen_plain (hplain : Plain vol path) {flags fuel : ℕ} {handle : Handle}
    {fp : AfpFileInfo} (hfp : fp.resource = .none) :
    appledoubleOpen vol path flags handle fp fuel = uninitPath >>= fun _ => pure (0, fp) := by
  rw [appledoubleOpen, translated_eq hplain]
  refine congrArg (Prog.act Effect.uninitPath) (funext fun beyond => ?_)
  have heta : { fp with resource := .none } = fp := by rw [← hfp]
  exact congrArg (fun fp => Prog.done ((0 : ℤ), fp)) heta

theorem quiet_of_looksUp {e : Effect} (h : LooksUp e) : loud e = false := by
  cases e with
  | request q => cases q <;> first | rfl | exact h.elim
  | _ => first | rfl | exact h.elim

/-- The structure of an open data fork. -/
def openedFork (fp : AfpFileInfo) (reply : Reply UInt16) : AfpFileInfo :=
  { fp with sync := false, forkid := reply.stored.getD fp.forkid }

/-- Without `O_CREAT` a fork is opened once. -/
theorem openLoop_plain {aflags : ℕ} {fp : AfpFileInfo} (hfp : fp.resource = .none) :
    openLoop vol path O_WRONLY aflags (fuel + 1) fp =
      (afpOpenfork false fp.did aflags fp.basename >>= fun reply =>
        pure (openErr reply.rc, { fp with forkid := reply.stored.getD fp.forkid })) := by
  have hdata : decide (fp.resource ≠ .none) = false := by rw [hfp]; decide
  rw [openLoop, hdata]
  refine congrArg (afpOpenfork false fp.did aflags fp.basename >>= ·) (funext fun reply => ?_)
  exact if_neg fun h => h.2 (by decide)

/-- `ll_open()` of a data fork, for writing. -/
theorem llOpen_plain (hwrite : volumeIsReadonly vol = false) {handle : Handle} {fp : AfpFileInfo}
    (hfp : fp.resource = .none) :
    llOpen vol path O_WRONLY handle fp (fuel + 1) =
      (afpOpenfork false fp.did (accessMode O_WRONLY) fp.basename >>= fun reply =>
        if openErr reply.rc ≠ 0 then pure (-openErr reply.rc, openedFork fp reply)
        else addOpenedFork handle (openedFork fp reply).forkid >>= fun _ =>
          pure (0, openedFork fp reply)) := by
  have hlarge : ¬ (O_WRONLY &&& O_LARGEFILE ≠ 0 ∧ vol.server.avNumber < 30) := fun h =>
    absurd h.1 (by decide)
  rw [llOpen, hwrite, if_neg (by decide), if_neg (by decide), if_neg (by decide), pure_bind,
    checkSize, if_neg hlarge, pure_bind]
  show (openLoop vol path O_WRONLY (accessMode O_WRONLY) (fuel + 1) { fp with sync := false } >>= _) = _
  have hloop := @openLoop_plain vol path fuel (accessMode O_WRONLY) { fp with sync := false } hfp
  rw [hloop, bind_assoc]
  rfl

theorem openErr_pos {rc : ℤ} (h : rc ≠ kFPNoErr) : 0 < openErr rc := by
  have hzero : rc ≠ 0 := h
  rw [openErr, if_neg hzero]
  split_ifs <;> decide

/-- The structure of a file that was found. -/
def foundFile (found : ℤ × CString × UInt32) : AfpFileInfo :=
  { AfpFileInfo.zero with basename := found.2.1, did := found.2.2 }

/-- `afp_ml_open()` of a data fork, for writing. -/
theorem afpMlOpen_plain (hconvert : convertPathToAfp vol.server.pathEncoding path AFP_MAX_PATH =
    some (0, dst)) (hplain : Plain vol path) (hvalid : invalidFilename vol.server dst = false)
    (hwrite : volumeIsReadonly vol = false) :
    afpMlOpen vol path O_WRONLY (fuel + 1) = malloc >>= fun allocated =>
      allocated.elim (pure (-1, none)) fun handle =>
        (uninitPath >>= fun _ => uninitInt >>= getDirid dst []) >>= fun found =>
          if found.1 < 0 then
            pure (-ENOENT, some (handle, { AfpFileInfo.zero with basename := found.2.1 }))
          else
            llOpen vol dst O_WRONLY handle (foundFile found) (fuel + 1) >>= fun opened =>
              if opened.1 < 0 then
                free handle >>= fun _ => pure (opened.1, some (handle, opened.2))
              else pure (0, some (handle, opened.2)) := by
  have hreadonly : ¬ (volumeIsReadonly vol = true ∧
      O_WRONLY &&& (O_WRONLY ||| O_RDWR ||| O_TRUNC ||| O_APPEND ||| O_CREAT) ≠ 0) := fun h =>
    Bool.noConfusion (hwrite.symm.trans h.1)
  rw [afpMlOpen, hconvert, ofOption_some_bind]
  show (if (0 : ℤ) ≠ 0 then _ else if invalidFilename vol.server dst = true then _ else _) = _
  rw [if_neg (by decide), hvalid, if_neg Bool.false_ne_true, if_neg hreadonly]
  refine congrArg (malloc >>= ·) (funext fun allocated => ?_)
  cases allocated with
  | none => rfl
  | some handle =>
    show appledoubleOpen vol path O_WRONLY handle .zero (fuel + 1) >>= _ = _
    rw [appledoubleOpen_plain hplain rfl]
    rfl

/-- What `ll_zero_file()` makes of the result of its request. -/
def zeroErr (ret : ℤ) : ℤ :=
  if ret = kFPAccessDenied then EACCES
  else if ret = kFPVolLocked ∨ ret = kFPLockErr then EBUSY
  else if ret = kFPDiskFull then ENOSPC
  else if ret = kFPBitmapErr ∨ ret = kFPMiscErr ∨ ret = kFPParamErr then EIO
  else 0

theorem zeroErr_pos {rc : ℤ} (h : Listed rc) : 0 < zeroErr rc := by
  rcases h with rfl | rfl | rfl | rfl | rfl | rfl | rfl <;> decide

theorem zeroErr_eq_zero {rc : ℤ} (h : ¬ Listed rc) : zeroErr rc = 0 := by
  rw [Listed] at h
  push Not at h
  obtain ⟨hdenied, hvol, hlock, hfull, hbitmap, hmisc, hparam⟩ := h
  rw [zeroErr, if_neg hdenied, if_neg (not_or.mpr ⟨hvol, hlock⟩), if_neg hfull,
    if_neg (not_or.mpr ⟨hbitmap, not_or.mpr ⟨hmisc, hparam⟩⟩)]

theorem ite_eq_pure_zeroErr (ret : ℤ) :
    (if ret = kFPAccessDenied then pure EACCES
      else if ret = kFPVolLocked ∨ ret = kFPLockErr then pure EBUSY
      else if ret = kFPDiskFull then pure ENOSPC
      else if ret = kFPBitmapErr ∨ ret = kFPMiscErr ∨ ret = kFPParamErr then pure EIO
      else pure 0 : AfpM ℤ) = pure (zeroErr ret) := by
  rw [zeroErr]
  split_ifs <;> rfl

/-- `ll_zero_file()` of a data fork. -/
theorem llZeroFile_data (vol : Volume) (forkid : UInt16) :
    ∃ bitmap, bitmap &&& (kFPDataForkLenBit ||| kFPExtDataForkLenBit) ≠ 0 ∧
      llZeroFile vol forkid false =
        (request (.setForkParms forkid bitmap 0) >>= fun reply => pure (zeroErr reply.rc)) := by
  refine ⟨if vol.server.avNumber < 30 ∨ vol.server.serverType = .netatalk then kFPDataForkLenBit
    else kFPExtDataForkLenBit, ?_, ?_⟩
  · split <;> decide
  · rw [llZeroFile, requestRc]
    refine congrArg (Prog.act _) (funext fun reply => ?_)
    exact ite_eq_pure_zeroErr reply.rc

/-- What is done to a fork that was opened. -/
theorem sound_llZeroFile {handle : Handle} {did : UInt32} {name : CString} {opened : Reply UInt16}
    (hopened : opened.rc = kFPNoErr) {ref : UInt16} (href : ref = opened.stored.getD 0) :
    Sound D R n [⟨.malloc, some handle⟩,
        ⟨.request (.openFork false did (accessMode O_WRONLY) name), opened⟩]
      (llZeroFile vol ref false >>= fun ret =>
        if ret ≠ 0 then pure (-ret)
        else requestRc (.closeFork ref) >>= fun _ => removeOpenedFork handle >>= fun _ =>
          free handle >>= fun _ => pure (-ret)) := by
  obtain ⟨bitmap, hbit, hset⟩ := llZeroFile_data vol ref
  rw [hset, bind_assoc]
  refine Sound.loud fun set => ?_
  have hright {ret : ℤ} (hlisted : Listed set.rc → ret < 0) (hother : ¬ Listed set.rc → ret = 0) :
      Right D R n [⟨.malloc, some handle⟩,
        ⟨.request (.openFork false did (accessMode O_WRONLY) name), opened⟩,
        ⟨.request (.setForkParms ref bitmap 0), set⟩] ret :=
    right_setForkParms hopened href hbit hlisted hother
  show Sound D R n _ (if zeroErr set.rc ≠ 0 then _ else _)
  by_cases hcode : Listed set.rc
  · have hpos := zeroErr_pos hcode
    rw [if_pos (Int.ne_of_gt hpos)]
    exact .done (hright (fun _ => Int.neg_neg_of_pos hpos) fun h => absurd hcode h)
  · rw [zeroErr_eq_zero hcode, if_neg (not_not.mpr rfl)]
    have hzero := @hright 0 (fun h => absurd h hcode) fun _ => rfl
    refine Sound.quiet_bind (Q := fun _ => True) ⟨rfl, fun _ => trivial⟩ (fun _ _ => trivial)
      fun _ _ => ?_
    refine Sound.quiet_bind (Q := fun _ => True) ⟨rfl, fun _ => trivial⟩ (fun _ _ => trivial)
      fun _ _ => ?_
    refine Sound.quiet_bind (Q := fun _ => True) ⟨rfl, fun _ => trivial⟩ (fun _ _ => trivial)
      fun _ _ => ?_
    exact .done hzero

/-- **The call for a data fork**: it does not get stuck, and its result is right exactly if everything
goes right. -/
theorem sound_afpMlTruncate (hconvert : convertPathToAfp vol.server.pathEncoding path AFP_MAX_PATH =
    some (0, dst)) (hpath : dst.head? = some slash) (hfits : PathResolution.Fits dst)
    (hplain : Plain vol path) (hvalid : invalidFilename vol.server dst = false)
    (hwrite : volumeIsReadonly vol = false) :
    Sound D R n [] (afpMlTruncate vol path (fuel + 1)) := by
  rw [afpMlTruncate, hconvert, ofOption_some_bind]
  show Sound D R n [] (if (0 : ℤ) ≠ 0 then _ else if invalidFilename vol.server dst = true then _ else
    if volumeIsReadonly vol = true then _ else _)
  rw [if_neg (by decide), hvalid, if_neg Bool.false_ne_true, hwrite, if_neg Bool.false_ne_true,
    appledoubleTruncate_plain hplain]
  refine Sound.quiet_bind (Q := (· = 0)) ⟨rfl, fun _ => trivial⟩ (fun _ _ => rfl) ?_
  rintro _ rfl
  rw [if_neg (by decide), if_neg (by decide), afpMlOpen_plain hconvert hplain hvalid hwrite,
    bind_assoc]
  refine Sound.loud fun allocated => ?_
  cases allocated with
  | none => exact .done right_malloc
  | some handle =>
    show Sound D R n [⟨.malloc, some handle⟩]
      (((uninitPath >>= fun _ => uninitInt >>= getDirid dst []) >>= _) >>= _)
    rw [bind_assoc]
    have hquiet : Prog.AllActs (fun e => loud e = false)
        (uninitPath >>= fun _ => uninitInt >>= getDirid dst []) :=
      ⟨rfl, fun _ => ⟨rfl, fun garbage =>
        (looksUp_getDirid dst [] garbage).mono fun _ => quiet_of_looksUp⟩⟩
    refine Sound.quiet_bind hquiet (fun _ _ garbage _ =>
      PathResolution.yields_getDirid hpath hfits [] garbage) ?_
    rintro found hfound
    rw [if_neg (Int.not_lt.mpr (Int.le_of_eq hfound.symm)), llOpen_plain hwrite rfl, bind_assoc,
      bind_assoc]
    refine Sound.loud fun reply => ?_
    by_cases hopened : reply.rc = kFPNoErr
    · have herr : ¬ openErr reply.rc ≠ 0 := by rw [hopened]; decide
      show Sound D R n _ ((if openErr reply.rc ≠ 0 then _ else _) >>= _)
      rw [if_neg herr, bind_assoc]
      refine Sound.quiet_bind (Q := fun _ => True) ⟨rfl, fun _ => trivial⟩ (fun _ _ => trivial) ?_
      intro _ _
      exact sound_llZeroFile hopened rfl
    · have hneg : -openErr reply.rc < 0 := Int.neg_neg_of_pos (openErr_pos hopened)
      have herr : openErr reply.rc ≠ 0 := Int.ne_of_gt (openErr_pos hopened)
      show Sound D R n _ ((if openErr reply.rc ≠ 0 then _ else _) >>= _)
      rw [if_pos herr]
      show Sound D R n _ ((if -openErr reply.rc < 0 then _ else _) >>= _)
      rw [if_pos hneg, bind_assoc]
      refine Sound.quiet_bind (Q := fun _ => True) ⟨rfl, fun _ => trivial⟩ (fun _ _ => trivial) ?_
      intro _ _
      show Sound D R n _ (if -openErr reply.rc ≠ 0 then _ else _)
      rw [if_pos (Int.ne_of_lt hneg)]
      exact .done (right_openFork hopened)

/-- What follows a part of a run does not return. -/
theorem returns_false_bind {α β : Type} {p : AfpM α} {f : α → AfpM β}
    (hf : ∀ a, Prog.Returns (fun _ _ => False) (f a)) : Prog.Returns (fun _ _ => False) (p >>= f) :=
  Prog.Returns.bind ((Prog.returns_true p).mono fun _ a _ => hf a)

/-- The call for a resource fork does not return. -/
theorem returns_resource (hresource : ∀ beyond, (extraTranslate vol path beyond).1 = .resource) :
    Prog.Returns (fun _ _ => False) (appledoubleTruncate vol path) := by
  rw [appledoubleTruncate, translated_eq hresource, bind_assoc]
  refine returns_false_bind fun beyond => ?_
  show Prog.Returns _ (uninitFileInfo >>= _)
  refine returns_false_bind fun fp => returns_false_bind fun found => ?_
  obtain ⟨ret, basename, dirid⟩ := found
  exact returns_false_bind fun reply => returns_false_bind fun _ => returns_false_bind fun _ => trivial

/-- A call that is refused sends nothing. -/
theorem afpMlTruncate_refused {ret : ℤ} (hconvert : convertPathToAfp vol.server.pathEncoding path
    AFP_MAX_PATH = some (ret, dst)) (hrefused : ret ≠ 0 ∨ invalidFilename vol.server dst = true ∨
      volumeIsReadonly vol = true) :
    ∃ errno : ℤ, errno < 0 ∧ afpMlTruncate vol path fuel = .done errno := by
  rw [afpMlTruncate, hconvert, ofOption_some_bind]
  show ∃ errno : ℤ, errno < 0 ∧ (if ret ≠ 0 then _ else if invalidFilename vol.server dst = true then _
    else if volumeIsReadonly vol = true then _ else _) = _
  by_cases hret : ret ≠ 0
  · exact ⟨-EINVAL, by decide, by rw [if_pos hret]; rfl⟩
  rw [if_neg hret]
  by_cases hname : invalidFilename vol.server dst = true
  · exact ⟨-ENAMETOOLONG, by decide, by rw [if_pos hname]; rfl⟩
  rw [if_neg hname]
  have hreadonly := (hrefused.resolve_left hret).resolve_left hname
  exact ⟨-EACCES, by decide, by rw [if_pos hreadonly]; rfl⟩

/-- A call that is not refused, up to what is done about the path. -/
theorem afpMlTruncate_resource (hconvert : convertPathToAfp vol.server.pathEncoding path AFP_MAX_PATH =
    some (0, dst)) (hvalid : invalidFilename vol.server dst = false)
    (hwrite : volumeIsReadonly vol = false)
    (hresource : ∀ beyond, (extraTranslate vol path beyond).1 = .resource) :
    Prog.Returns (fun _ _ => False) (afpMlTruncate vol path fuel) := by
  rw [afpMlTruncate, hconvert, ofOption_some_bind]
  show Prog.Returns _ (if (0 : ℤ) ≠ 0 then _ else if invalidFilename vol.server dst = true then _ else
    if volumeIsReadonly vol = true then _ else _)
  rw [if_neg (by decide), hvalid, if_neg Bool.false_ne_true, hwrite, if_neg Bool.false_ne_true]
  exact Prog.Returns.bind ((returns_resource hresource).mono fun _ _ h => h.elim)

end Runs

/-- **In which runs a truncation is right.** -/
theorem truncate_iff (vol : Volume) (path dst : CString) (ret : ℤ) (resource : Bool) (D R : List UInt8)
    (n fuel : ℕ) (hconvert : convertPathToAfp vol.server.pathEncoding path AFP_MAX_PATH =
      some (ret, dst))
    (habsolute : ret = 0 → dst.head? = some slash ∧ PathResolution.Fits dst)
    (hkind : ∀ beyond, (extraTranslate vol path beyond).1 = if resource then .resource else .none)
    {tr : List Event} {q : AfpM ℤ} (hrun : Prog.Steps (afpMlTruncate vol path (fuel + 1)) tr q)
    (hfinal : Prog.Final q) (hserves : ∀ ev ∈ tr, Serves ev) :
    Truncates resource D R n tr q ↔ Meets vol ret dst resource D n tr := by
  by_cases hrefused : ret ≠ 0 ∨ invalidFilename vol.server dst = true ∨ volumeIsReadonly vol = true
  · obtain ⟨errno, hneg, hcall⟩ := @afpMlTruncate_refused vol path dst (fuel + 1) ret hconvert hrefused
    rw [hcall] at hrun
    obtain ⟨rfl, rfl⟩ := Prog.steps_done_iff.mp hrun
    refine iff_of_true ⟨errno, rfl, fun hzero => absurd hzero (Int.ne_of_lt hneg), ?_⟩ ?_
    · rintro ⟨ev, hev, -⟩
      exact absurd hev List.not_mem_nil
    · rcases hrefused with h | h | h
      · exact .inl h
      · exact .inr (.inl h)
      · exact .inr (.inr (.inl h))
  · obtain ⟨hret, hname, hreadonly⟩ : ¬ ret ≠ 0 ∧ _ ∧ _ := by
      rwa [not_or, not_or] at hrefused
    obtain rfl := not_not.mp hret
    have hvalid := Bool.eq_false_iff.mpr hname
    have hwrite := Bool.eq_false_iff.mpr hreadonly
    rw [Meets, or_iff_right hret, or_iff_right hname, or_iff_right hreadonly]
    cases resource with
    | true =>
      refine iff_of_false ?_ fun h => Bool.noConfusion h.1
      rintro ⟨ret, rfl, -⟩
      exact (afpMlTruncate_resource hconvert hvalid hwrite hkind).steps hrun
    | false =>
      obtain ⟨hpath, hfits⟩ := habsolute rfl
      have hsound : Sound D R n [] (afpMlTruncate vol path (fuel + 1)) :=
        sound_afpMlTruncate hconvert hpath hfits hkind hvalid hwrite
      have hyields := hsound.yields.steps hrun fun _ _ => trivial
      rw [and_iff_right rfl]
      cases q with
      | act e k => exact hfinal.elim
      | stuck => exact hyields.elim
      | done ret =>
        have hright : Right D R n tr ret := hsound.returns.steps hrun
        rw [← hright hserves]
        constructor
        · rintro ⟨ret', heq, htruncated⟩
          obtain rfl : ret = ret' := by injection heq
          exact htruncated
        · exact fun h => ⟨ret, rfl, h⟩

/-- The file "/f" is opened and its length is set. -/
def emptied : List Event :=
  [⟨.uninitPath, ([] : CString)⟩, ⟨.malloc, some (0 : ℕ)⟩, ⟨.uninitPath, ([] : CString)⟩,
    ⟨.uninitInt, (0 : UInt32)⟩,
    ⟨.request (.openFork false AFP_ROOT_DID (accessMode O_WRONLY) [0x66]),
      ⟨kFPNoErr, some (1 : UInt16)⟩⟩,
    ⟨.addOpenedFork 0 1, ()⟩, ⟨.request (.setForkParms 1 kFPExtDataForkLenBit 0), ⟨kFPNoErr, none⟩⟩,
    ⟨.request (.closeFork 1), ⟨kFPNoErr, none⟩⟩, ⟨.removeOpenedFork 0, ()⟩, ⟨.free 0, ()⟩]

theorem invalidFilename_f : invalidFilename Volume.plain.server [0x2f, 0x66] = false := by
  rw [invalidFilename, if_neg (by decide), if_neg (by decide)]
  show invalidFrom 1024 [0x2f, 0x66] 1 = false
  rw [invalidFrom]
  rfl

/-- The same with any result of closing the fork. -/
def emptiedBy (closed : Reply Unit) : List Event :=
  emptied.take 7 ++ [⟨.request (.closeFork 1), closed⟩, ⟨.removeOpenedFork 0, ()⟩, ⟨.free 0, ()⟩]

theorem steps_emptiedBy (closed : Reply Unit) :
    Prog.Steps (afpMlTruncate Volume.plain [0x2f, 0x66] 1) (emptiedBy closed) (.done 0) := by
  have hconvert : convertPathToAfp Volume.plain.server.pathEncoding [0x2f, 0x66] AFP_MAX_PATH =
      some (0, [0x2f, 0x66]) := rfl
  have hplain : Plain Volume.plain [0x2f, 0x66] := fun _ => rfl
  have hopen : llOpen Volume.plain [0x2f, 0x66] O_WRONLY 0
      (foundFile (0, [0x66], AFP_ROOT_DID)) 1 = _ := llOpen_plain rfl rfl
  rw [afpMlTruncate, hconvert, ofOption_some_bind]
  show Prog.Steps (if (0 : ℤ) ≠ 0 then _ else if invalidFilename Volume.plain.server [0x2f, 0x66] = true
    then _ else if volumeIsReadonly Volume.plain = true then _ else _) _ _
  rw [if_neg (by decide), invalidFilename_f, if_neg Bool.false_ne_true, if_neg (by decide),
    appledoubleTruncate_plain hplain]
  refine .act ?_
  show Prog.Steps (afpMlOpen Volume.plain [0x2f, 0x66] O_WRONLY 1 >>= _) _ _
  rw [afpMlOpen_plain hconvert hplain invalidFilename_f rfl]
  refine .act ?_
  refine .act ?_
  refine .act ?_
  show Prog.Steps ((llOpen Volume.plain [0x2f, 0x66] O_WRONLY 0
    (foundFile (0, [0x66], AFP_ROOT_DID)) 1 >>= _) >>= _) _ _
  rw [hopen]
  refine .act ?_
  refine .act ?_
  refine .act ?_
  refine .act ?_
  refine .act ?_
  refine .act ?_
  exact .refl _

theorem steps_emptied :
    Prog.Steps (afpMlTruncate Volume.plain [0x2f, 0x66] 1) emptied (.done 0) :=
  steps_emptiedBy ⟨kFPNoErr, none⟩

theorem serves_emptied : ∀ ev ∈ emptied, Serves ev := by
  rw [← forall_louds fun _ => serves_of_quiet]
  refine List.forall_mem_cons.mpr ⟨trivial, List.forall_mem_cons.mpr ⟨fun _ => ?_, ?_⟩⟩
  · exact Option.some_ne_none _
  · exact List.forall_mem_singleton.mpr trivial

/-- A file of two bytes. -/
theorem truncate_iff_of_emptied :
    Truncates false [1, 2] [] 1 emptied (.done 0) ↔
      Meets Volume.plain 0 [0x2f, 0x66] false [1, 2] 1 emptied :=
  truncate_iff Volume.plain [0x2f, 0x66] [0x2f, 0x66] 0 false [1, 2] [] 1 0 rfl
    (fun _ => ⟨rfl, by decide, by decide⟩) (fun _ => rfl) steps_emptied trivial serves_emptied

/-- **A longer file is emptied.**  It is to have one byte, and has none after a result of 0. -/
theorem longer_file_is_emptied :
    ¬ ∀ (vol : Volume) (path dst : CString) (ret : ℤ) (resource : Bool) (D R : List UInt8) (n fuel : ℕ),
      convertPathToAfp vol.server.pathEncoding path AFP_MAX_PATH = some (ret, dst) →
      (ret = 0 → dst.head? = some slash ∧ PathResolution.Fits dst) →
      (∀ beyond, (extraTranslate vol path beyond).1 = if resource then .resource else .none) →
      ∀ (tr : List Event) (q : AfpM ℤ), Prog.Steps (afpMlTruncate vol path (fuel + 1)) tr q →
        Prog.Final q → (∀ ev ∈ tr, Serves ev) → Truncates resource D R n tr q := by
  intro h
  obtain ⟨ret, heq, htruncated⟩ := h Volume.plain [0x2f, 0x66] [0x2f, 0x66] 0 false [1, 2] [] 1 0 rfl
    (fun _ => ⟨rfl, by decide, by decide⟩) (fun _ => rfl) emptied (.done 0) steps_emptied trivial serves_emptied
  obtain rfl : 0 = ret := by injection heq
  have hlength := (htruncated.success rfl).1
  exact absurd hlength (by decide)

end Truncate
end Afpfs

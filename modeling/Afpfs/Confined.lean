import Afpfs.RealFiles

/-!
# Which operations on AppleDouble paths are confined

An operation is `Confined` if it is sealed and acts on the object its path stands for, or fails.  The
rest of the argument: for each operation that strays, a run in which it succeeds and does not act.

Such a run sends nothing (`Idle`), or it acts on another path.  There the directory of that path is
found in the cache, under an id that no other path is found under (`Misses`), so that no real path of the
virtual one is resolved to it (`not_actsOn_of_misses`).

* `not_actsOrFails_of_strays`: what strays does not act.
* `confined_iff`: the operations that are confined.
* `rename_sends_appledouble`: a rename in the virtual directory reaches the server.
-/

set_option autoImplicit false

namespace Afpfs
namespace AppleDouble

open Unicode Codepage Interaction Scan Translate PathResolution

/-! ## The runs that stray -/

section Strays

variable {vol : Volume} {op : Operation} {path q target : CString} {d did : UInt32}
  {place : Request → Option (UInt32 × CString)} {file : Option AfpFileInfo}
  {tr : List ((e : Effect) × e.Answer)} {α β : Type} {ok : (e : Effect) × e.Answer → Prop}

/-- The directory of a path, where the cache has `d` for it. -/
def foundAt (path : CString) (d : UInt32) : UInt32 := if parents path = [] then AFP_ROOT_DID else d

/-- Requests are about the object of the path `target`, and no other directory is found where that is. -/
def Misses (place : Request → Option (UInt32 × CString)) (target : CString) (did : UInt32)
    (ev : (e : Effect) × e.Answer) : Prop :=
  (∀ path (parent : UInt32), ev = ⟨.findDirid path, parent⟩ → parent ≠ 0 ∧
      (parent = did → parents target ≠ [] ∧ path = joinPath slash (parents target))) ∧
    ∀ object ∈ about place ev.1, object = (did, lastComponent target)

/-- A path is its directories and its last component. -/
theorem eq_of_parents_of_lastComponent (hq : q.head? = some slash)
    (htarget : target.head? = some slash) (hparents : parents q = parents target)
    (hlast : lastComponent q = lastComponent target) : q = target := by
  obtain ⟨names, last, hsep, rfl⟩ := exists_names hq
  obtain ⟨names', last', hsep', rfl⟩ := exists_names htarget
  rw [parents_joinPath hsep, parents_joinPath hsep'] at hparents
  rw [lastComponent_joinPath hsep, lastComponent_joinPath hsep'] at hlast
  rw [hparents, hlast]

theorem eq_of_joinPath_parents (hq : q.head? = some slash) (htarget : target.head? = some slash)
    (h : joinPath slash (parents q) = joinPath slash (parents target)) :
    parents q = parents target := by
  obtain ⟨names, last, hsep, rfl⟩ := exists_names hq
  obtain ⟨names', last', hsep', rfl⟩ := exists_names htarget
  rw [parents_joinPath hsep, parents_joinPath hsep'] at h ⊢
  have hnames : Separated slash names := fun part hpart => hsep part (by simp [hpart])
  have hnames' : Separated slash names' := fun part hpart => hsep' part (by simp [hpart])
  rw [← components_joinPath hnames, h, components_joinPath hnames']

/-- What the resolution of a path finds, it finds in the cache, at the root, or step by step. -/
theorem directory_of_steps (hq : q.head? = some slash) {basename name : CString} {dirid : UInt32}
    {ret : ℤ} (h : Prog.Steps (getDirid q basename dirid) tr (.done (ret, name, did))) :
    (parents q = [] ∧ did = AFP_ROOT_DID) ∨ ∃ parent : UInt32, parents q ≠ [] ∧
      (⟨.findDirid (joinPath slash (parents q)), parent⟩ : (e : Effect) × e.Answer) ∈ tr ∧
        (parent ≠ 0 → did = parent) := by
  obtain ⟨names, last, hsep, rfl⟩ := exists_names hq
  rw [getDirid_joinPath hsep] at h
  rw [parents_joinPath hsep]
  split at h
  · exact absurd (Prog.steps_stuck_iff.mp h).2 (by simp)
  split at h
  next hnil =>
    have hdone := Prog.done.inj (Prog.steps_done_iff.mp h).2
    exact .inl ⟨hnil, congrArg (·.2.2) hdone⟩
  next hnil =>
  split at h
  · exact absurd (Prog.steps_stuck_iff.mp h).2 (by simp)
  obtain ⟨(parent : UInt32), tr', rfl, hrest⟩ := (Prog.steps_act_iff (q := .done _) trivial).mp h
  refine .inr ⟨parent, hnil, List.mem_cons_self, fun hparent => ?_⟩
  change Prog.Steps (if parent ≠ 0 then pure (0, last, parent) else _) _ _ at hrest
  rw [if_pos hparent] at hrest
  exact congrArg (·.2.2) (Prog.done.inj (Prog.steps_done_iff.mp hrest).2)

/-- **Another path is not acted on.** -/
theorem not_actsOn_of_misses (hq : q.head? = some slash) (htarget : target.head? = some slash)
    (hne : q ≠ target) (hroot : d ≠ AFP_ROOT_DID) (hone : d ≠ 1)
    (htr : ∀ ev ∈ tr, Misses place target (foundAt target d) ev) : ¬ ActsOn vol place q none tr := by
  rintro ⟨did, ⟨before, ev, after, rfl, hfound, object, hobject, hdenotes⟩ | ⟨-, fp, hfp, -⟩⟩
  · have hev : object = (foundAt target d, lastComponent target) :=
      (htr ev (by simp)).2 object hobject
    cases hdenotes with
    | root =>
      have hdid : (1 : UInt32) = foundAt target d := (Prod.mk.inj hev).1
      rw [foundAt] at hdid
      split at hdid
      · exact absurd hdid (by decide)
      · exact hone hdid.symm
    | last =>
      obtain ⟨hdid, hlast⟩ := Prod.mk.inj hev
      refine hne (eq_of_parents_of_lastComponent hq htarget ?_ hlast)
      obtain ⟨first, search, last, basename, dirid, rfl, hsteps⟩ := hfound
      rcases directory_of_steps hq hsteps with ⟨hnil, hdirectory⟩ | ⟨parent, hparents, hmem, hdirectory⟩
      · rw [hdid, foundAt] at hdirectory
        split at hdirectory
        next htop => rw [hnil, htop]
        next => exact absurd hdirectory hroot
      · have hev' : (⟨.findDirid (joinPath slash (parents q)), parent⟩ : (e : Effect) × e.Answer) ∈
            first ++ search ++ last ++ ev :: after := by simp [hmem]
        obtain ⟨hzero, hsame⟩ := (htr _ hev').1 _ _ rfl
        obtain ⟨-, hjoin⟩ := hsame ((hdirectory hzero).symm.trans hdid)
        exact eq_of_joinPath_parents hq htarget hjoin
  · exact absurd hfp (by simp)

/-- The directory of the path is in the cache. -/
theorem reaches_resolve (hpath : path.head? = some slash) (hfits : Fits path) (hd : d ≠ 0)
    (hname : ok ⟨.uninitPath, ([] : CString)⟩) (hdirid : ok ⟨.uninitInt, (0 : UInt32)⟩)
    (hfound : parents path ≠ [] → ok ⟨.findDirid (joinPath slash (parents path)), d⟩) :
    Prog.Reaches ok (resolve path) (0, lastComponent path, foundAt path d) := by
  refine ⟨([] : CString), hname, (0 : UInt32), hdirid, ?_⟩
  change Prog.Reaches ok (getDirid path [] 0) _
  obtain ⟨names, last, hsep, rfl⟩ := exists_names hpath
  rw [Fits, lastComponent_joinPath hsep, parents_joinPath hsep] at hfits
  rw [parents_joinPath hsep] at hfound
  rw [foundAt, lastComponent_joinPath hsep, parents_joinPath hsep, getDirid_joinPath hsep,
    if_neg (Nat.not_le.mpr hfits.1)]
  by_cases hnil : names = []
  · rw [if_pos hnil, if_pos hnil]
    rfl
  · rw [if_neg hnil, if_neg hnil, if_neg (Nat.not_le.mpr hfits.2)]
    refine ⟨d, hfound hnil, ?_⟩
    change Prog.Reaches ok (if d ≠ 0 then pure (0, last, d) else _) _
    rw [if_pos hd]
    rfl

theorem reaches_ofOption_bind {o : Option α} {a : α} (ho : o = some a) {f : α → AfpM β} {b : β}
    (hf : Prog.Reaches ok (f a) b) : Prog.Reaches ok (ofOption o >>= f) b := by
  rw [ho]
  exact hf

theorem reaches_of_not {c : Prop} [Decidable c] {p r : AfpM α} {a : α} (hc : ¬ c)
    (h : Prog.Reaches ok r a) : Prog.Reaches ok (if c then p else r) a := by
  rw [if_neg hc]
  exact h

theorem reaches_of_pos {c : Prop} [Decidable c] {p r : AfpM α} {a : α} (hc : c)
    (h : Prog.Reaches ok p a) : Prog.Reaches ok (if c then p else r) a := by
  rw [if_pos hc]
  exact h

/-- What a hook finds out about a path. -/
theorem reaches_translated (beyond : CString) (hok : ok ⟨.uninitPath, beyond⟩) :
    Prog.Reaches ok (translated vol path)
      ((extraTranslate vol path beyond).1, (extraTranslate vol path beyond).2.getD []) :=
  ⟨beyond, hok, rfl⟩

/-- A run that succeeds and has not acted. -/
theorem not_actsOrFails_of_reaches {ret : ℤ} (hplace : (path, place) ∈ op.places)
    (hvirtual : Virtual vol path) (hrun : Prog.Reaches ok (op.run vol 1) (ret, file)) (hret : 0 ≤ ret)
    (hacted : ∀ tr, (∀ ev ∈ tr, ok ev) → ¬ Acted vol path place file tr) : ¬ ActsOrFails vol op := by
  intro h
  obtain ⟨tr, hsteps, htr⟩ := hrun.exists_steps
  rcases h.returns path place hplace hvirtual 0 tr ret file hsteps with hneg | hacts
  · omega
  · exact hacted tr htr hacts

/-- Nothing is sent. -/
def Idle (ev : (e : Effect) × e.Answer) : Prop := ∀ r, ev.1 ≠ .request r

theorem not_acted_of_idle (htr : ∀ ev ∈ tr, Idle ev) : ¬ Acted vol path place none tr := by
  rintro ⟨q, -, did, ⟨before, ev, after, rfl, -, object, hobject, -⟩ | ⟨-, fp, hfp, -⟩⟩
  · have hidle := htr ev (by simp)
    obtain ⟨e, answer⟩ := ev
    cases e with
    | request r => exact hidle r rfl
    | _ => exact absurd hobject (by simp [about])
  · exact absurd hfp (by simp)

/-- **Another path is acted on**, which is not a real one. -/
theorem not_acted_of_misses (hpath : path.head? = some slash) (htarget : target.head? = some slash)
    (hnot : ¬ RealPath vol path target) (hroot : d ≠ AFP_ROOT_DID) (hone : d ≠ 1)
    (htr : ∀ ev ∈ tr, Misses place target (foundAt target d) ev) :
    ¬ Acted vol path place none tr := by
  rintro ⟨q, hreal, hacts⟩
  refine not_actsOn_of_misses (head?_of_realPath hpath hreal) htarget ?_ hroot hone htr hacts
  rintro rfl
  exact hnot hreal

/-- An effect that is neither a request nor a question to the cache. -/
theorem misses_of_quiet {e : Effect} {answer : e.Answer} (hcache : ∀ path, e ≠ .findDirid path)
    (hquiet : about place e = none) : Misses place target did ⟨e, answer⟩ := by
  refine ⟨fun path parent heq => absurd (congrArg Sigma.fst heq) (hcache path), fun object hobject => ?_⟩
  rw [hquiet] at hobject
  exact absurd hobject (by simp)

theorem misses_of_request {r : Request} {answer : Effect.Answer (.request r)}
    (h : place r = some (did, lastComponent target)) :
    Misses place target did ⟨.request r, answer⟩ := by
  refine ⟨fun path parent heq => absurd (congrArg Sigma.fst heq) (by simp), fun object hobject => ?_⟩
  exact (Option.some.inj (h.symm.trans hobject)).symm

theorem three_ne : (3 : UInt32) ≠ 0 := by decide

/-- The path itself is resolved. -/
theorem reaches_resolve_of_misses (htarget : target.head? = some slash) (hfits : Fits target)
    (hd : d ≠ 0) : Prog.Reaches (Misses place target (foundAt target d)) (resolve target)
      (0, lastComponent target, foundAt target d) := by
  refine reaches_resolve htarget hfits hd (misses_of_quiet (by simp) rfl)
    (misses_of_quiet (by simp) rfl) fun hne => ⟨fun path parent heq => ?_, fun object hobject => ?_⟩
  · cases heq
    exact ⟨hd, fun _ => ⟨hne, rfl⟩⟩
  · exact absurd hobject (by simp [about])

/-! ### The hooks that do nothing -/

theorem reaches_afpMlOpen_servericon {flags : ℕ} {dst beyond : CString} (hdst : Converts vol path dst)
    (hinvalid : invalidFilename vol.server dst = false)
    (hreadonly : ¬ (volumeIsReadonly vol ∧
      flags &&& (O_WRONLY ||| O_RDWR ||| O_TRUNC ||| O_APPEND ||| O_CREAT) ≠ 0))
    (hkind : (extraTranslate vol path beyond).1 = .serverIcon) :
    Prog.Reaches (fun _ => True) (afpMlOpen vol path flags 1)
      (0, some (0, { AfpFileInfo.zero with resource := .serverIcon })) := by
  have hhook : Prog.Reaches (fun _ => True) (appledoubleOpen vol path flags 0 .zero 1)
      (1, { AfpFileInfo.zero with resource := .serverIcon }) := by
    refine .bind (reaches_translated beyond trivial) ?_
    rw [hkind]
    rfl
  refine reaches_ofOption_bind hdst (reaches_of_not (not_not.mpr rfl) ?_)
  refine reaches_of_not (ne_true_of_eq_false hinvalid) (reaches_of_not hreadonly ?_)
  have hmalloc : Prog.Reaches (fun _ => True) malloc (some 0) := ⟨some (0 : Handle), trivial, rfl⟩
  exact .bind hmalloc (.bind hhook rfl)

theorem reaches_afpMlCreat_idle {dst beyond : CString} {mode : UInt32} (hdst : Converts vol path dst)
    (hreadonly : volumeIsReadonly vol = false)
    (hkind : (extraTranslate vol path beyond).1 = .resource ∨
      (extraTranslate vol path beyond).1 = .finderinfo) :
    Prog.Reaches Idle (afpMlCreat vol path mode) 0 := by
  refine reaches_ofOption_bind hdst (reaches_of_not (not_not.mpr rfl) ?_)
  refine reaches_of_not (ne_true_of_eq_false hreadonly) ?_
  have hhook : Prog.Reaches Idle (appledoubleCreat vol path) 1 := by
    refine .bind (reaches_translated beyond fun _ h => Effect.noConfusion h) ?_
    rcases hkind with hkind | hkind <;> rw [hkind] <;> rfl
  exact .bind hhook rfl

theorem reaches_afpMlTruncate_idle {dst beyond : CString} (hdst : Converts vol path dst)
    (hinvalid : invalidFilename vol.server dst = false) (hreadonly : volumeIsReadonly vol = false)
    (hkind : (extraTranslate vol path beyond).1 = .finderinfo ∨
      (extraTranslate vol path beyond).1 = .comment) :
    Prog.Reaches Idle (afpMlTruncate vol path 1) 0 := by
  refine reaches_ofOption_bind hdst (reaches_of_not (not_not.mpr rfl) ?_)
  refine reaches_of_not (ne_true_of_eq_false hinvalid) ?_
  refine reaches_of_not (ne_true_of_eq_false hreadonly) ?_
  have hhook : Prog.Reaches Idle (appledoubleTruncate vol path) 1 := by
    refine .bind (reaches_translated beyond fun _ h => Effect.noConfusion h) ?_
    rcases hkind with hkind | hkind <;> rw [hkind] <;> rfl
  exact .bind hhook rfl

theorem reaches_afpMlGetattr_idle {dst beyond : CString} (hdst : Converts vol path dst)
    (hkind : (extraTranslate vol dst beyond).1 = .appledouble ∨
      (extraTranslate vol dst beyond).1 = .serverIcon ∨
      ∃ q, (extraTranslate vol dst beyond = (.resource, some q) ∨
        extraTranslate vol dst beyond = (.finderinfo, some q)) ∧
          invalidFilename vol.server q = true) :
    ∃ stbuf, Prog.Reaches Idle (afpMlGetattr vol path) (0, stbuf) := by
  have hhook : ∃ stbuf, Prog.Reaches Idle (appledoubleGetattr vol dst) (1, stbuf) := by
    have htranslated := @reaches_translated vol dst Idle beyond fun _ h => Effect.noConfusion h
    rcases hkind with hkind | hkind | ⟨q, heq, hinvalid⟩
    · rw [hkind] at htranslated
      exact ⟨{ Stat.zero with stMode := 0o700 ||| S_IFDIR }, .bind htranslated rfl⟩
    · rw [hkind] at htranslated
      exact ⟨{ Stat.zero with stMode := S_IFREG ||| 0o444, stSize := 256 }, .bind htranslated rfl⟩
    have hlookup : ∀ resource, Prog.Reaches Idle (llGetattr vol q resource) (-ENAMETOOLONG, .zero) :=
      fun resource => by
        rw [llGetattr, if_pos hinvalid]
        rfl
    rcases heq with heq | heq
    · rw [heq] at htranslated
      exact ⟨.zero, .bind htranslated (.bind (hlookup true) rfl)⟩
    · rw [heq] at htranslated
      exact ⟨{ Stat.zero with stMode := S_IFREG, stSize := 32 },
        .bind htranslated (.bind (hlookup false) rfl)⟩
  obtain ⟨stbuf, hhook⟩ := hhook
  exact ⟨stbuf, reaches_ofOption_bind hdst (reaches_of_not (not_not.mpr rfl) (.bind hhook rfl))⟩

theorem reaches_afpMlReaddir_idle {dst beyond : CString} (hdst : Converts vol path dst)
    (heq : extraTranslate vol dst beyond = (.appledouble, some q))
    (hinvalid : invalidFilename vol.server q = true) :
    Prog.Reaches Idle (afpMlReaddir vol path 1) (0, none) := by
  have hhook : Prog.Reaches Idle (appledoubleReaddir vol dst 1) (1, none) := by
    refine .bind (reaches_translated beyond fun _ h => Effect.noConfusion h) ?_
    rw [heq]
    refine .bind (a := (-ENAMETOOLONG, none)) ?_ ?_
    · rw [Option.getD_some, llReaddir, if_pos hinvalid]
      rfl
    · rfl
  exact reaches_ofOption_bind hdst (reaches_of_not (not_not.mpr rfl) (.bind hhook rfl))

/-! ### The paths that pass -/

/-- A request about the object of the path, and its result. -/
theorem reaches_requestRc {r : Request} (rc : ℤ) (h : place r = some (did, lastComponent target)) :
    Prog.Reaches (Misses place target did) (requestRc r) rc :=
  ⟨⟨rc, none⟩, misses_of_request h, rfl⟩

theorem reaches_lookup {filebitmap dirbitmap : ℕ} (rc : ℤ) :
    Prog.Reaches (Misses subject target did)
      (afpGetfiledirparms did filebitmap dirbitmap (lastComponent target)) ⟨rc, none⟩ :=
  ⟨⟨rc, none⟩, misses_of_request rfl, rfl⟩

theorem reaches_perform {e : Effect} (answer : e.Answer) (hok : ok ⟨e, answer⟩) :
    Prog.Reaches ok (perform e) answer := ⟨answer, hok, rfl⟩

theorem reaches_uninitFileInfo : Prog.Reaches (Misses place target did) uninitFileInfo .zero :=
  ⟨AfpFileInfo.zero, misses_of_quiet (by simp) rfl, rfl⟩

theorem reaches_afpMlCreat_misses {dst beyond : CString} {mode : UInt32}
    (hpath : path.head? = some slash) (hdst : Converts vol path dst)
    (hreadonly : volumeIsReadonly vol = false)
    (hkind : (extraTranslate vol path beyond).1 = .comment)
    (hinvalid : invalidFilename vol.server dst = false) :
    Prog.Reaches (Misses subject dst (foundAt dst 3)) (afpMlCreat vol path mode) 0 := by
  have hhead := head?_of_converts hpath hdst
  have hhook : Prog.Reaches (Misses subject dst (foundAt dst 3)) (appledoubleCreat vol path) 0 := by
    refine .bind (reaches_translated beyond (misses_of_quiet (by simp) rfl)) ?_
    rw [hkind]
    rfl
  -- the lookup of the new file is refused
  have hrefused : Prog.Reaches (Misses subject dst (foundAt dst 3))
      (getUnixprivs (foundAt dst 3) (lastComponent dst) .zero) (-lookupErr (-1), .zero) :=
    .bind (.bind (reaches_lookup (-1)) rfl) rfl
  refine reaches_ofOption_bind hdst (reaches_of_not (not_not.mpr rfl) ?_)
  refine reaches_of_not (ne_true_of_eq_false hreadonly) (.bind hhook ?_)
  refine reaches_of_not (lt_irrefl 0) (reaches_of_not (by decide) ?_)
  refine reaches_of_not (ne_true_of_eq_false hinvalid) ?_
  refine .bind (reaches_resolve_of_misses hhead (fits_of_converts hpath hdst) three_ne) ?_
  refine .bind (reaches_requestRc 0 rfl) (reaches_of_not (by decide) ?_)
  by_cases hunix : vol.has VOLUME_EXTRA_FLAGS_VOL_SUPPORTS_UNIX = false
  · exact reaches_of_pos hunix rfl
  · refine reaches_of_not hunix (.bind reaches_uninitFileInfo (.bind hrefused ?_))
    exact reaches_of_pos (by decide) rfl

/-- A lookup that is answered, of a path other than the root. -/
theorem reaches_llGetattr_misses (hpath : path.head? = some slash) (hfits : Fits path)
    (hinvalid : invalidFilename vol.server path = false) (hroot : path ≠ [slash])
    (hmapped : (translateUidgidToClient vol 0 0).1 = 0) :
    ∃ stbuf, Prog.Reaches (Misses subject path (foundAt path 3)) (llGetattr vol path false)
      (0, stbuf) := by
  have hbind : ∀ {α : Type} {p : AfpM α} {f : α → AfpM (ℤ × Stat)} {a : α},
      Prog.Reaches (Misses subject path (foundAt path 3)) p a →
      (∃ stbuf, Prog.Reaches (Misses subject path (foundAt path 3)) (f a) (0, stbuf)) →
      ∃ stbuf, Prog.Reaches (Misses subject path (foundAt path 3)) (p >>= f) (0, stbuf) :=
    fun hp ⟨stbuf, hf⟩ => ⟨stbuf, hp.bind hf⟩
  rw [llGetattr, if_neg (ne_true_of_eq_false hinvalid)]
  refine hbind reaches_uninitFileInfo (hbind (reaches_resolve_of_misses hpath hfits three_ne) ?_)
  simp only [lt_irrefl, if_false, hroot, decide_false, Bool.and_false, Bool.false_eq_true]
  refine hbind (reaches_lookup 0) ?_
  have hids : ¬ (translateUidgidToClient vol (AfpFileInfo.zero.unixprivs.uid)
      AfpFileInfo.zero.unixprivs.gid).1 ≠ 0 := not_not.mpr hmapped
  rw [if_neg (by decide), Option.getD_none, if_neg hids]
  exact ⟨_, rfl⟩

theorem reaches_afpMlReaddir_misses {dst beyond : CString} (hpath : path.head? = some slash)
    (hdst : Converts vol path dst) (hkind : (extraTranslate vol dst beyond).1 = .finderinfo)
    (hinvalid : invalidFilename vol.server dst = false) :
    ∃ fb, Prog.Reaches (Misses subject dst (foundAt dst 3)) (afpMlReaddir vol path 1) (0, fb) := by
  have hhead := head?_of_converts hpath hdst
  have hhook : Prog.Reaches (Misses subject dst (foundAt dst 3)) (appledoubleReaddir vol dst 1)
      (0, none) := by
    refine .bind (reaches_translated beyond (misses_of_quiet (by simp) rfl)) ?_
    rw [hkind]
    rfl
  have hloop : ∀ filebitmap dirbitmap, Prog.Reaches (Misses subject dst (foundAt dst 3))
      (readdirLoop vol (foundAt dst 3) filebitmap dirbitmap (lastComponent dst) 1 1 []) (0, []) := by
    intro filebitmap dirbitmap
    by_cases hold : vol.server.avNumber < 30
    · rw [readdirLoop, enumerateRequest, if_pos hold]
      exact ⟨(⟨kFPObjectNotFound, none⟩ : Reply (List AfpFileInfo)), misses_of_request rfl, rfl⟩
    · rw [readdirLoop, enumerateRequest, if_neg hold]
      exact ⟨(⟨kFPObjectNotFound, none⟩ : Reply (List AfpFileInfo)), misses_of_request rfl, rfl⟩
  refine ⟨some [], reaches_ofOption_bind hdst (reaches_of_not (not_not.mpr rfl) (.bind hhook ?_))⟩
  refine reaches_of_not (lt_irrefl 0) (reaches_of_not (by decide) ?_)
  refine reaches_of_not (ne_true_of_eq_false hinvalid) ?_
  refine .bind (reaches_resolve_of_misses hhead (fits_of_converts hpath hdst) three_ne) ?_
  refine reaches_of_not (lt_irrefl 0) (.bind (hloop _ _) ?_)
  by_cases hold : vol.server.avNumber < 30
  · simp [hold, ofOption]
  · simp [hold, ofOption]

theorem reaches_afpMlSymlink_misses {path1 path2 src dst beyond : CString}
    (hpath : path2.head? = some slash) (hnew : 30 ≤ vol.server.avNumber)
    (hsrc : Converts vol path1 src) (hdst : Converts vol path2 dst)
    (hreadonly : volumeIsReadonly vol = false)
    (hkind : (extraTranslate vol path1 beyond).1 = .none) :
    Prog.Reaches (Misses subject dst (foundAt dst 3)) (afpMlSymlink vol path1 path2) 0 := by
  have hhead := head?_of_converts hpath hdst
  have hhook : Prog.Reaches (Misses subject dst (foundAt dst 3)) (appledoubleSymlink vol path1 path2)
      0 := by
    refine .bind (reaches_translated beyond (misses_of_quiet (by simp) rfl)) ?_
    rw [hkind]
    rfl
  have hquiet : ∀ {r : Request}, subject r = none →
      Prog.Reaches (Misses subject dst (foundAt dst 3)) (requestRc r) 0 :=
    fun hr => ⟨⟨0, none⟩, misses_of_quiet (by simp) hr, rfl⟩
  have hopen : Prog.Reaches (Misses subject dst (foundAt dst 3)) (afpOpenfork false (foundAt dst 3)
      (AFP_OPENFORK_ALLOWWRITE ||| AFP_OPENFORK_ALLOWREAD) (lastComponent dst)) ⟨-1, none⟩ :=
    ⟨⟨-1, none⟩, misses_of_request rfl, rfl⟩
  refine reaches_of_not (Nat.not_lt.mpr hnew) ?_
  refine reaches_ofOption_bind hsrc (reaches_of_not (not_not.mpr rfl) ?_)
  refine reaches_ofOption_bind hdst (reaches_of_not (not_not.mpr rfl) ?_)
  refine reaches_of_not (ne_true_of_eq_false hreadonly) (.bind hhook ?_)
  refine reaches_of_not (lt_irrefl 0) (reaches_of_not (by decide) ?_)
  refine .bind (reaches_resolve_of_misses hhead (fits_of_converts hpath hdst) three_ne) ?_
  refine .bind (reaches_requestRc 0 rfl) (reaches_of_not (by decide) ?_)
  refine .bind (reaches_perform (e := .automatic) (0 : Handle) (misses_of_quiet (by simp) rfl)) ?_
  refine .bind reaches_uninitFileInfo (.bind hopen ?_)
  refine .bind (reaches_perform (e := .addOpenedFork _ _) () (misses_of_quiet (by simp) rfl)) ?_
  refine .bind (hquiet rfl) (.bind (hquiet rfl) (reaches_of_not (by decide) ?_))
  refine .bind (reaches_perform (e := .removeOpenedFork _) () (misses_of_quiet (by simp) rfl)) ?_
  exact .bind (reaches_requestRc 0 rfl) rfl

theorem reaches_afpMlChmod_misses {mode : UInt32} (hpath : path.head? = some slash)
    (hfits : Fits path) (hinvalid : invalidFilename vol.server path = false)
    (hreadonly : volumeIsReadonly vol = false)
    (hunix : vol.has VOLUME_EXTRA_FLAGS_VOL_SUPPORTS_UNIX = false)
    (hignore : vol.has VOLUME_EXTRA_FLAGS_IGNORE_UNIXPRIVS = true)
    (hmapped : (translateUidgidToClient vol 0 0).1 = 0) (hroot : path ≠ [slash]) :
    Prog.Reaches (Misses subject path (foundAt path 3)) (afpMlChmod vol path mode) 0 := by
  obtain ⟨stbuf, hlookup⟩ := reaches_llGetattr_misses hpath hfits hinvalid hroot hmapped
  refine reaches_of_not (ne_true_of_eq_false hinvalid) ?_
  refine reaches_of_not (ne_true_of_eq_false hreadonly) (reaches_of_pos hunix ?_)
  exact reaches_of_pos hignore (.bind hlookup rfl)

/-- A rename to a path that is not a directory. -/
theorem reaches_afpMlRename {pathFrom pathTo src dst : CString} {didFrom didTo : UInt32}
    (hsrc : Converts vol pathFrom src) (hdst : Converts vol pathTo dst)
    (hreadonly : volumeIsReadonly vol = false)
    (hfrom : Prog.Reaches ok (resolve src) (0, lastComponent src, didFrom))
    (hto : Prog.Reaches ok (resolve dst) (0, lastComponent dst, didTo))
    (hisDir : Prog.Reaches ok (isDir didTo dst) false)
    (hmove : Prog.Reaches ok (requestRc (.moveAndRename didFrom didTo (lastComponent src) none
      (lastComponent dst))) 0) :
    Prog.Reaches ok (afpMlRename vol pathFrom pathTo) 0 := by
  refine reaches_ofOption_bind hsrc (reaches_of_not (not_not.mpr rfl) ?_)
  refine reaches_ofOption_bind hdst (reaches_of_not (not_not.mpr rfl) ?_)
  refine reaches_of_not (ne_true_of_eq_false hreadonly) (.bind hfrom (.bind hto ?_))
  exact .bind hisDir (.bind hmove rfl)

/-- The other path of a rename is resolved to another directory. -/
theorem reaches_resolve_of_ne (hpath : path.head? = some slash) (hfits : Fits path) (hd : d ≠ 0)
    (hne : d ≠ did) :
    Prog.Reaches (Misses place target did) (resolve path) (0, lastComponent path, foundAt path d) := by
  refine reaches_resolve hpath hfits hd (misses_of_quiet (by simp) rfl)
    (misses_of_quiet (by simp) rfl) fun _ => ⟨fun path parent heq => ?_, fun object hobject => ?_⟩
  · cases heq
    exact ⟨hd, fun hdid => absurd hdid hne⟩
  · exact absurd hobject (by simp [about])

theorem reaches_isDir {dst : CString} {didTo : UInt32}
    (hnone : ∀ filebitmap dirbitmap, place (.getFileDirParms didTo filebitmap dirbitmap dst) = none) :
    Prog.Reaches (Misses place target did) (isDir didTo dst) false :=
  .bind reaches_uninitFileInfo (.bind (reaches_perform (e := .request (.getFileDirParms ..))
    (⟨-1, none⟩ : Reply AfpFileInfo) (misses_of_quiet (by simp) (hnone ..)))
    (reaches_of_pos (by decide) rfl))

theorem foundAt_ne {d d' : UInt32} (hd : d ≠ d') (hroot : d ≠ AFP_ROOT_DID) : d ≠ foundAt path d' := by
  rw [foundAt]
  split
  · exact hroot
  · exact hd

/-- A rename of an object that a path does not stand for, or to a place that it does not. -/
theorem not_actsOrFails_rename {pathFrom pathTo src dst : CString} (hfrom : pathFrom.head? = some slash)
    (hto : pathTo.head? = some slash) (hsrc : Converts vol pathFrom src)
    (hdst : Converts vol pathTo dst) (hreadonly : volumeIsReadonly vol = false)
    (hnot : ¬ RealPath vol pathFrom src ∨ ¬ RealPath vol pathTo dst) :
    ¬ ActsOrFails vol (.rename pathFrom pathTo) := by
  have hthree : (3 : UInt32) ≠ AFP_ROOT_DID := by decide
  have hfour : (4 : UInt32) ≠ AFP_ROOT_DID := by decide
  have hheadSrc := head?_of_converts hfrom hsrc
  have hheadDst := head?_of_converts hto hdst
  have hfitsSrc := fits_of_converts hfrom hsrc
  have hfitsDst := fits_of_converts hto hdst
  rcases hnot with hnot | hnot
  · have hplace : (pathFrom, moved) ∈ (Operation.rename pathFrom pathTo).places :=
      List.mem_cons_self
    have hrun : Prog.Reaches (Misses moved src (foundAt src 3)) (afpMlRename vol pathFrom pathTo) 0 :=
      reaches_afpMlRename hsrc hdst hreadonly (reaches_resolve_of_misses hheadSrc hfitsSrc three_ne)
        (reaches_resolve_of_ne hheadDst hfitsDst (d := 4) (by decide) (foundAt_ne (by decide) hfour))
        (reaches_isDir fun _ _ => rfl) (reaches_requestRc 0 rfl)
    exact not_actsOrFails_of_reaches hplace (virtual_of_not_realPath hsrc hnot) (.bind hrun rfl) le_rfl
      fun tr htr => not_acted_of_misses hfrom hheadSrc hnot hthree (by decide) htr
  · have hplace : (pathTo, destination) ∈ (Operation.rename pathFrom pathTo).places :=
      List.mem_cons_of_mem _ List.mem_cons_self
    have hrun : Prog.Reaches (Misses destination dst (foundAt dst 4))
        (afpMlRename vol pathFrom pathTo) 0 :=
      reaches_afpMlRename hsrc hdst hreadonly
        (reaches_resolve_of_ne hheadSrc hfitsSrc (d := 3) (by decide) (foundAt_ne (by decide) hthree))
        (reaches_resolve_of_misses hheadDst hfitsDst (d := 4) (by decide))
        (reaches_isDir fun _ _ => rfl) (reaches_requestRc 0 rfl)
    exact not_actsOrFails_of_reaches hplace (virtual_of_not_realPath hdst hnot) (.bind hrun rfl) le_rfl
      fun tr htr => not_acted_of_misses hto hheadDst hnot hfour (by decide) htr

/-- **What strays does not act.** -/
theorem not_actsOrFails_of_strays (habs : ∀ path ∈ op.paths, path.head? = some slash)
    (h : Strays vol op) : ¬ ActsOrFails vol op := by
  have hthree : (3 : UInt32) ≠ AFP_ROOT_DID := by decide
  cases op with
  | «open» path flags =>
    obtain ⟨dst, beyond, hdst, hinvalid, hreadonly, hkind⟩ := h
    refine not_actsOrFails_of_reaches (List.mem_singleton_self _) ⟨beyond, by rw [hkind]; decide⟩
      (.bind (reaches_afpMlOpen_servericon hdst hinvalid hreadonly hkind) rfl) le_rfl ?_
    rintro tr - ⟨q, hreal, -⟩
    exact not_realPath_of_serverIcon hkind hreal
  | creat path mode =>
    obtain ⟨dst, beyond, hdst, hreadonly, hkind⟩ := h
    have hpath : path.head? = some slash := habs path (List.mem_singleton_self path)
    rw [← or_assoc] at hkind
    rcases hkind with hidle | ⟨hcomment, hinvalid, hnot⟩
    · refine not_actsOrFails_of_reaches (List.mem_singleton_self _) ⟨beyond, ?_⟩
        (.bind (reaches_afpMlCreat_idle hdst hreadonly hidle) rfl) le_rfl
        fun tr htr => not_acted_of_idle htr
      rcases hidle with hkind | hkind <;> rw [hkind] <;> decide
    · exact not_actsOrFails_of_reaches (List.mem_singleton_self _)
        ⟨beyond, by rw [hcomment]; decide⟩
        (.bind (reaches_afpMlCreat_misses hpath hdst hreadonly hcomment hinvalid) rfl) le_rfl
        fun tr htr => not_acted_of_misses hpath (head?_of_converts hpath hdst) hnot hthree (by decide) htr
  | chmod path mode =>
    obtain ⟨hinvalid, hreadonly, hunix, hignore, hfits, hmapped, hnot⟩ := h
    have hpath : path.head? = some slash := habs path (List.mem_singleton_self path)
    have hroot : path ≠ [slash] := by
      rintro rfl
      exact hnot (.translated (.plain (kind_root vol)))
    exact not_actsOrFails_of_reaches (List.mem_singleton_self _)
      (virtual_of_not_realPath_self hnot)
      (.bind (reaches_afpMlChmod_misses hpath hfits hinvalid hreadonly hunix hignore hmapped hroot) rfl)
      le_rfl fun tr htr => not_acted_of_misses hpath hpath hnot hthree (by decide) htr
  | truncate path =>
    obtain ⟨dst, beyond, hdst, hinvalid, hreadonly, hkind⟩ := h
    refine not_actsOrFails_of_reaches (List.mem_singleton_self _) ⟨beyond, ?_⟩
      (.bind (reaches_afpMlTruncate_idle hdst hinvalid hreadonly hkind) rfl) le_rfl
      fun tr htr => not_acted_of_idle htr
    rcases hkind with hkind | hkind <;> rw [hkind] <;> decide
  | getattr path =>
    obtain ⟨dst, beyond, hdst, hkind⟩ := h
    have hpath : path.head? = some slash := habs path (List.mem_singleton_self path)
    obtain ⟨stbuf, hrun⟩ := reaches_afpMlGetattr_idle hdst hkind
    refine not_actsOrFails_of_reaches (List.mem_singleton_self _)
      (virtual_of_converts hpath hdst ⟨beyond, ?_⟩) (.bind hrun rfl) le_rfl
      fun tr htr => not_acted_of_idle htr
    rcases hkind with hkind | hkind | ⟨q, heq | heq, -⟩
    · rw [hkind]
      decide
    · rw [hkind]
      decide
    · rw [heq]
      exact fun h => AfpMeta.noConfusion h
    · rw [heq]
      exact fun h => AfpMeta.noConfusion h
  | readdir path =>
    obtain ⟨dst, beyond, hdst, ⟨hkind, hinvalid, hnot⟩ | ⟨q, heq, hinvalid⟩⟩ := h
    · have hpath : path.head? = some slash := habs path (List.mem_singleton_self path)
      obtain ⟨fb, hrun⟩ := reaches_afpMlReaddir_misses hpath hdst hkind hinvalid
      exact not_actsOrFails_of_reaches (List.mem_singleton_self _)
        (virtual_of_not_realPath hdst hnot) (.bind hrun rfl) le_rfl
        fun tr htr => not_acted_of_misses hpath (head?_of_converts hpath hdst) hnot hthree (by decide) htr
    · have hpath : path.head? = some slash := habs path (List.mem_singleton_self path)
      refine not_actsOrFails_of_reaches (List.mem_singleton_self _)
        (virtual_of_converts hpath hdst ⟨beyond, ?_⟩)
        (.bind (reaches_afpMlReaddir_idle hdst heq hinvalid) rfl) le_rfl
        fun tr htr => not_acted_of_idle htr
      rw [heq]
      exact fun h => AfpMeta.noConfusion h
  | rename pathFrom pathTo =>
    obtain ⟨src, dst, hsrc, hdst, hreadonly, hnot⟩ := h
    have hfrom : pathFrom.head? = some slash := habs pathFrom (by simp [Operation.paths])
    have hto : pathTo.head? = some slash := habs pathTo (by simp [Operation.paths])
    exact not_actsOrFails_rename hfrom hto hsrc hdst hreadonly hnot
  | symlink path1 path2 =>
    obtain ⟨hnew, src, dst, beyond, hsrc, hdst, hreadonly, hkind, hnot⟩ := h
    have hpath : path2.head? = some slash := habs path2 (List.mem_singleton_self path2)
    exact not_actsOrFails_of_reaches (List.mem_singleton_self _) (virtual_of_not_realPath hdst hnot)
      (.bind (reaches_afpMlSymlink_misses hpath hnew hsrc hdst hreadonly hkind) rfl) le_rfl
      fun tr htr => not_acted_of_misses hpath (head?_of_converts hpath hdst) hnot hthree (by decide) htr
  | _ => exact h.elim

end Strays

/-! ## Which operations are confined -/

section Confined

variable {vol : Volume} {op : Operation}

theorem actsOrFails_iff (habs : ∀ path ∈ op.paths, path.head? = some slash) :
    ActsOrFails vol op ↔ ¬ Strays vol op :=
  ⟨fun hacts hstrays => not_actsOrFails_of_strays habs hstrays hacts, actsOrFails_of_not_strays habs⟩

/-- A path that stands for one path only, neither of which the conversion changes. -/
theorem realPath_eq {path q₀ q : CString} (hstands : ∀ q, StandsFor vol path q → q = q₀)
    (hpath : ∀ dst, Converts vol path dst → dst = path)
    (hq₀ : ∀ dst, Converts vol q₀ dst → dst = q₀) (h : RealPath vol path q) : q = q₀ := by
  induction h with
  | translated h => exact hstands _ h
  | encoded _ hdst ih =>
    rw [ih] at hdst
    exact hq₀ _ hdst
  | converted hdst h =>
    rw [hpath _ hdst] at h
    exact hstands _ h

/-- The virtual directory of the root stands for the root. -/
theorem standsFor_appledouble {q : CString} (h : StandsFor showing (slash :: appledouble) q) :
    q = [slash] := by
  have hvirtual : ∀ beyond, extraTranslate showing (slash :: appledouble) beyond =
      (.appledouble, some [slash]) := fun _ => rfl
  cases h with
  | @virtual beyond _ h =>
    rw [hvirtual] at h
    exact (Option.some.inj h).symm
  | @plain beyond h =>
    rw [hvirtual] at h
    exact AfpMeta.noConfusion h

theorem standsFor_short {q : CString} (h : StandsFor showing (slash :: ascii ['x']) q) :
    q = slash :: ascii ['x'] := by
  have hplain : ∀ beyond, extraTranslate showing (slash :: ascii ['x']) beyond = (.none, none) :=
    fun _ => rfl
  cases h with
  | @virtual beyond _ h =>
    rw [hplain] at h
    exact absurd h (by simp)
  | plain => rfl

end Confined

end AppleDouble
end Afpfs

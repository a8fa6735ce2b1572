import Afpfs.AppleDouble

/-!
# What operations on AppleDouble paths act on

`Afpfs.AppleDouble` bounds the names that an operation sends.  Here is the other half: an operation on
a virtual path acts on the object that the path stands for, or it fails (`ActsOrFails`).  To act on an
object is to resolve a path it really has, and to send a request about what was found, or to open a
file on it.

`Strays` are the exceptions.  Some hooks report success and do nothing: `appledouble_creat()` for a
resource fork or a Finder info, `appledouble_truncate()` for a Finder info or a comment,
`appledouble_getattr()` for the virtual directory and the icon of the server, and the lookups and
listings whose own error the hook does not look at.  The others let a virtual path pass as it is.

* `Acted`, `Proper`: what a run has done, and the rule for programs.
* `proper_bind_getDirid`: once a real path is resolved, it is what is done with its object that counts.
* `actsOrFails_of_not_strays`: there are no other exceptions.

That each exception is one is in `Afpfs.Confined`.
-/

set_option autoImplicit false

namespace Afpfs
namespace AppleDouble

open Unicode Codepage Interaction Scan Translate PathResolution

/-! ## Objects -/

/-- The directory and the pathname of the object that a request is about.  A move is about two. -/
def subject : Request → Option (UInt32 × CString)
  | .getFileDirParms did _ _ pathname => some (did, pathname)
  | .setFileParms dirid pathname _ _ => some (dirid, pathname)
  | .setDirParms dirid pathname _ _ => some (dirid, pathname)
  | .setFileDirParms dirid pathname _ _ => some (dirid, pathname)
  | .delete dirid pathname => some (dirid, pathname)
  | .createFile _ did pathname => some (did, pathname)
  | .createDir dirid pathname => some (dirid, pathname)
  | .openFork _ dirid _ filename => some (dirid, filename)
  | .enumerate dirid _ _ _ _ pathname => some (dirid, pathname)
  | .enumerateExt2 dirid _ _ _ _ pathname => some (dirid, pathname)
  | .getComment did pathname _ => some (did, pathname)
  | .addComment did pathname _ => some (did, pathname)
  | _ => none

/-- The object that is moved. -/
def moved : Request → Option (UInt32 × CString)
  | .moveAndRename srcDid _ srcPath _ _ => some (srcDid, srcPath)
  | _ => none

/-- What it is moved to: a directory, or a new name in one. -/
def destination : Request → Option (UInt32 × CString)
  | .moveAndRename _ dstDid _ dstPath newName => some (dstDid, dstPath.getD newName)
  | _ => none

/-- The paths of an operation, each with the place where requests have its object. -/
def Operation.places : Operation → List (CString × (Request → Option (UInt32 × CString)))
  | .rename pathFrom pathTo => [(pathFrom, moved), (pathTo, destination)]
  | op => op.paths.map fun path => (path, subject)

/-- What an effect is about. -/
def about (place : Request → Option (UInt32 × CString)) : Effect → Option (UInt32 × CString)
  | .request r => place r
  | _ => none

/-- The object of the path `q`, whose directory is `did`.  For AFP 2 the root is a file with the name
of the volume. -/
inductive Denotes (vol : Volume) (q : CString) (did : UInt32) : UInt32 × CString → Prop
  | last : Denotes vol q did (did, lastComponent q)
  | root (hold : vol.server.avNumber < 30) (hq : q = [slash]) :
      Denotes vol q did (1, vol.volumeName.take (AFP_MAX_PATH - 1))

/-! ## To act or to fail -/

/-- The run has resolved the path `q` and found the directory `did`. -/
def Found (q : CString) (did : UInt32) (tr : List ((e : Effect) × e.Answer)) : Prop :=
  ∃ before search after basename dirid, tr = before ++ search ++ after ∧
    Prog.Steps (getDirid q basename dirid) search (.done (0, lastComponent q, did))

/-- The run has found the object of the path `q`, and then sent a request about it, or it has opened a
file on it. -/
def ActsOn (vol : Volume) (place : Request → Option (UInt32 × CString)) (q : CString)
    (file : Option AfpFileInfo) (tr : List ((e : Effect) × e.Answer)) : Prop :=
  ∃ did, (∃ before ev after, tr = before ++ ev :: after ∧ Found q did before ∧
      ∃ object ∈ about place ev.1, Denotes vol q did object) ∨
    (Found q did tr ∧ ∃ fp ∈ file, fp.did = did ∧ fp.basename = lastComponent q)

/-- The run has acted on the object that the path stands for. -/
def Acted (vol : Volume) (path : CString) (place : Request → Option (UInt32 × CString))
    (file : Option AfpFileInfo) (tr : List ((e : Effect) × e.Answer)) : Prop :=
  ∃ q, RealPath vol path q ∧ ActsOn vol place q file tr

/-- Nothing was sent. -/
def Silent (tr : List ((e : Effect) × e.Answer)) : Prop := ∀ ev ∈ tr, ∀ r, ev.1 ≠ .request r

/-- The path is virtual. -/
def Virtual (vol : Volume) (path : CString) : Prop :=
  ∃ beyond, (extraTranslate vol path beyond).1 ≠ .none

/-- On a virtual path the operation acts on the object that the path stands for, or it fails, in every
run to its end.  A loop that the source does not bound is run at least once. -/
structure ActsOrFails (vol : Volume) (op : Operation) : Prop where
  /-- Where it returns and does not report an error, it has acted. -/
  returns : ∀ path place, (path, place) ∈ op.places → Virtual vol path → ∀ fuel tr ret file,
    Prog.Steps (op.run vol (fuel + 1)) tr (.done (ret, file)) →
      ret < 0 ∨ Acted vol path place file tr
  /-- Where its behaviour becomes undefined, it has acted, or not sent anything yet. -/
  stuck : ∀ path place, (path, place) ∈ op.places → Virtual vol path → ∀ fuel tr,
    Prog.Steps (op.run vol (fuel + 1)) tr .stuck → Silent tr ∨ Acted vol path place none tr

/-- The operation can succeed without acting on what one of its paths stands for. -/
def Strays (vol : Volume) (op : Operation) : Prop :=
  match op with
  | .open path flags => ∃ dst beyond, Converts vol path dst ∧ invalidFilename vol.server dst = false ∧
      ¬ (volumeIsReadonly vol ∧ flags &&& (O_WRONLY ||| O_RDWR ||| O_TRUNC ||| O_APPEND ||| O_CREAT) ≠ 0) ∧
      (extraTranslate vol path beyond).1 = .serverIcon
  | .creat path _ => ∃ dst beyond, Converts vol path dst ∧ volumeIsReadonly vol = false ∧
      ((extraTranslate vol path beyond).1 = .resource ∨
        (extraTranslate vol path beyond).1 = .finderinfo ∨
        (extraTranslate vol path beyond).1 = .comment ∧ invalidFilename vol.server dst = false ∧
          ¬ RealPath vol path dst)
  | .chmod path _ => invalidFilename vol.server path = false ∧ volumeIsReadonly vol = false ∧
      vol.has VOLUME_EXTRA_FLAGS_VOL_SUPPORTS_UNIX = false ∧
      vol.has VOLUME_EXTRA_FLAGS_IGNORE_UNIXPRIVS = true ∧ Fits path ∧
      (translateUidgidToClient vol 0 0).1 = 0 ∧ ¬ RealPath vol path path
  | .truncate path => ∃ dst beyond, Converts vol path dst ∧ invalidFilename vol.server dst = false ∧
      volumeIsReadonly vol = false ∧ ((extraTranslate vol path beyond).1 = .finderinfo ∨
        (extraTranslate vol path beyond).1 = .comment)
  | .getattr path => ∃ dst beyond, Converts vol path dst ∧
      ((extraTranslate vol dst beyond).1 = .appledouble ∨
        (extraTranslate vol dst beyond).1 = .serverIcon ∨
        ∃ q, (extraTranslate vol dst beyond = (.resource, some q) ∨
          extraTranslate vol dst beyond = (.finderinfo, some q)) ∧
            invalidFilename vol.server q = true)
  | .readdir path => ∃ dst beyond, Converts vol path dst ∧
      ((extraTranslate vol dst beyond).1 = .finderinfo ∧ invalidFilename vol.server dst = false ∧
          ¬ RealPath vol path dst ∨
        ∃ q, extraTranslate vol dst beyond = (.appledouble, some q) ∧
          invalidFilename vol.server q = true)
  | .rename pathFrom pathTo => ∃ src dst, Converts vol pathFrom src ∧ Converts vol pathTo dst ∧
      volumeIsReadonly vol = false ∧ (¬ RealPath vol pathFrom src ∨ ¬ RealPath vol pathTo dst)
  | .symlink path1 path2 => 30 ≤ vol.server.avNumber ∧ ∃ src dst beyond,
      Converts vol path1 src ∧ Converts vol path2 dst ∧ volumeIsReadonly vol = false ∧
      (extraTranslate vol path1 beyond).1 = .none ∧ ¬ RealPath vol path2 dst
  | _ => False

/-- The operation is sealed, and acts or fails. -/
structure Confined (vol : Volume) (op : Operation) : Prop where
  names : Sealed vol op
  acts : ActsOrFails vol op

/-! ## Virtual paths -/

section Virtual

variable {vol : Volume} {path dst q : CString}

/-- A path is virtual whatever is behind it in memory. -/
theorem Virtual.kind_ne (hpath : path.head? = some slash) (h : Virtual vol path) (beyond : CString) :
    (extraTranslate vol path beyond).1 ≠ .none := by
  obtain ⟨beyond', hne⟩ := h
  cases hshow : vol.has VOLUME_EXTRA_FLAGS_SHOW_APPLEDOUBLE with
  | false => exact absurd (by rw [extraTranslate, if_pos hshow]) hne
  | true =>
    intro hnone
    exact hne ((extraTranslate_eq_none_iff hshow hpath beyond').mpr
      ((extraTranslate_eq_none_iff hshow hpath beyond).mp hnone))

/-- A path that is not a real path of its own is virtual. -/
theorem virtual_of_not_realPath (hdst : Converts vol path dst) (h : ¬ RealPath vol path dst) :
    Virtual vol path :=
  ⟨[], fun hnone => h (.encoded (.translated (.plain hnone)) hdst)⟩

theorem virtual_of_not_realPath_self (h : ¬ RealPath vol path path) : Virtual vol path :=
  ⟨[], fun hnone => h (.translated (.plain hnone))⟩

theorem Virtual.converted (hpath : path.head? = some slash) (hdst : Converts vol path dst)
    (h : Virtual vol path) : Virtual vol dst := by
  obtain ⟨beyond, hne⟩ := h
  exact ⟨[], fun hnone => hne (plain_of_converts hpath hdst hnone beyond)⟩

/-- The conversion does not make the name of the icon. -/
theorem eq_servericon_of_converts (hdst : Converts vol path servericonString) :
    path = servericonString := by
  have hlength : ∀ s : CString, s.length ≤ (convertUtf8preToUtf8dec s).length := fun s => by
    fun_induction convertUtf8preToUtf8dec s with
    | case1 => exact le_rfl
    | case2 s ih => simp only [List.length_cons]; omega
    | case3 b s hne ih => simp only [List.length_cons]; omega
  rcases (convertPathToAfp_cases hdst).2 with heq | heq
  · exact heq.symm
  have hbefore : servericonString <+: path :=
    (prefix_convertUtf8preToUtf8dec_iff (List.forall_iff_forall_mem.mp (by decide)) path).mp
      (heq ▸ List.prefix_rfl)
  have hle := hlength path
  rw [← heq] at hle
  exact (hbefore.eq_of_length_le hle).symm

/-- **A path is virtual if its conversion is.** -/
theorem virtual_of_converts (hpath : path.head? = some slash) (hdst : Converts vol path dst)
    (h : Virtual vol dst) : Virtual vol path := by
  obtain ⟨beyond, hne⟩ := h
  refine ⟨[], fun hnone => hne ?_⟩
  cases hshow : vol.has VOLUME_EXTRA_FLAGS_SHOW_APPLEDOUBLE with
  | false => rw [extraTranslate, if_pos hshow]
  | true =>
    obtain ⟨hicon, hinfix⟩ := (extraTranslate_eq_none_iff hshow hpath []).mp hnone
    refine (extraTranslate_eq_none_iff hshow (head?_of_converts hpath hdst) beyond).mpr ⟨?_, ?_⟩
    · rintro rfl
      exact hicon (eq_servericon_of_converts hdst)
    · intro hoccurs
      rcases (convertPathToAfp_cases hdst).2 with rfl | rfl
      · exact hinfix hoccurs
      · refine hinfix ((infix_convertUtf8preToUtf8dec_iff ?_ path).mp hoccurs)
        exact List.forall_iff_forall_mem.mp (by decide)

/-- What a virtual path can be. -/
theorem Virtual.cases (hpath : path.head? = some slash) (h : Virtual vol path) (beyond : CString) :
    extraTranslate vol path beyond = (.serverIcon, none) ∨
      ∃ kind q, extraTranslate vol path beyond = (kind, some q) ∧ kind ≠ .none ∧
        q.head? = some slash := by
  have hne := h.kind_ne hpath beyond
  rcases extraTranslate_cases hpath vol beyond with heq | heq | ⟨kind, q, heq, hq⟩
  · rw [heq] at hne
    exact absurd rfl hne
  · exact .inl heq
  · rw [heq] at hne
    exact .inr ⟨kind, q, heq, hne, hq⟩

/-- A real path is absolute. -/
theorem head?_of_realPath (hpath : path.head? = some slash) (h : RealPath vol path q) :
    q.head? = some slash := by
  have hstands : ∀ {path q}, path.head? = some slash → StandsFor vol path q → q.head? = some slash := by
    intro path q hpath h
    cases h with
    | @virtual beyond q h =>
      rcases extraTranslate_cases hpath vol beyond with heq | heq | ⟨kind, q', heq, hq⟩
      · rw [heq] at h
        exact absurd h (by simp)
      · rw [heq] at h
        exact absurd h (by simp)
      · rw [heq] at h
        exact Option.some.inj h ▸ hq
    | plain => exact hpath
  induction h with
  | translated h => exact hstands hpath h
  | encoded _ hdst ih => exact head?_of_converts ih hdst
  | converted hdst h => exact hstands (head?_of_converts hpath hdst) h

theorem tagEnding_ne_serverIcon (newpath : CString) : (tagEnding newpath).1 ≠ .serverIcon := by
  rw [tagEnding]
  split
  · exact fun h => AfpMeta.noConfusion h
  · split <;> exact fun h => AfpMeta.noConfusion h

theorem eq_servericon_of_kind {beyond : CString}
    (h : (extraTranslate vol path beyond).1 = .serverIcon) : path = servericonString := by
  rw [extraTranslate] at h
  split at h
  · exact AfpMeta.noConfusion h
  split at h
  next heq => exact heq
  split at h
  · exact AfpMeta.noConfusion h
  split at h
  · exact AfpMeta.noConfusion h
  split at h
  · exact AfpMeta.noConfusion h
  split at h
  · exact absurd h (tagEnding_ne_serverIcon _)
  · exact AfpMeta.noConfusion h

/-- The icon of the server stands for no path. -/
theorem not_realPath_of_serverIcon {beyond : CString}
    (h : (extraTranslate vol path beyond).1 = .serverIcon) : ¬ RealPath vol path q := by
  have hshow : vol.has VOLUME_EXTRA_FLAGS_SHOW_APPLEDOUBLE = true := by
    by_contra hnot
    rw [extraTranslate, if_pos (eq_false_of_ne_true hnot)] at h
    exact AfpMeta.noConfusion h
  have hicon : ∀ beyond, extraTranslate vol servericonString beyond = (.serverIcon, none) :=
    fun beyond => by rw [extraTranslate, if_neg (by simp [hshow]), if_pos rfl]
  have hstands : ∀ {q}, ¬ StandsFor vol servericonString q := by
    rintro q (@⟨beyond, _, h⟩ | @⟨beyond, h⟩)
    · rw [hicon] at h
      exact absurd h (by simp)
    · rw [hicon] at h
      exact AfpMeta.noConfusion h
  obtain rfl := eq_servericon_of_kind h
  intro hreal
  induction hreal with
  | translated h => exact hstands h
  | encoded _ _ ih => exact ih
  | converted hdst h =>
    rcases (convertPathToAfp_cases hdst).2 with rfl | rfl
    · exact hstands h
    · rw [show convertUtf8preToUtf8dec servericonString = servericonString by decide] at h
      exact hstands h

end Virtual

/-! ## What a run has done -/

section Done

variable {vol : Volume} {path q : CString} {did : UInt32} {file : Option AfpFileInfo}
  {place : Request → Option (UInt32 × CString)} {tr : List ((e : Effect) × e.Answer)}
  {α β : Type} {fails : α → Prop} {files : α → Option AfpFileInfo}

theorem Found.append (h : Found q did tr) (ev : (e : Effect) × e.Answer) :
    Found q did (tr ++ [ev]) := by
  obtain ⟨before, search, after, basename, dirid, rfl, hsteps⟩ := h
  exact ⟨before, search, after ++ [ev], basename, dirid, by simp, hsteps⟩

theorem Acted.append (h : Acted vol path place none tr) (ev : (e : Effect) × e.Answer) :
    Acted vol path place none (tr ++ [ev]) := by
  obtain ⟨q, hreal, did, ⟨before, ev', after, rfl, hfound⟩ | ⟨-, fp, hfp, -⟩⟩ := h
  · exact ⟨q, hreal, did, .inl ⟨before, ev', after ++ [ev], by simp, hfound⟩⟩
  · exact absurd hfp (by simp)

theorem Acted.of_none (h : Acted vol path place none tr) : Acted vol path place file tr := by
  obtain ⟨q, hreal, did, hsent | ⟨-, fp, hfp, -⟩⟩ := h
  · exact ⟨q, hreal, did, .inl hsent⟩
  · exact absurd hfp (by simp)

theorem Silent.append (h : Silent tr) {e : Effect} (he : ∀ r, e ≠ .request r) (answer : e.Answer) :
    Silent (tr ++ [⟨e, answer⟩]) :=
  List.forall_mem_append.mpr ⟨h, fun ev hev => by rw [List.mem_singleton.mp hev]; exact he⟩

/-- The variables that a resolution starts from. -/
theorem Silent.resolved (h : Silent tr) (basename : CString) (dirid : UInt32) :
    Silent (tr ++ [⟨.uninitPath, basename⟩] ++ [⟨.uninitInt, dirid⟩]) :=
  (h.append (e := .uninitPath) (by simp) basename).append (e := .uninitInt) (by simp) dirid

theorem silent_nil : Silent [] := fun _ hev => absurd hev List.not_mem_nil

/-- Where an operation may get stuck. -/
abbrev Harmless (vol : Volume) (path : CString) (place : Request → Option (UInt32 × CString))
    (tr : List ((e : Effect) × e.Answer)) : Prop :=
  Silent tr ∨ Acted vol path place none tr

/-- After the history `tr` the program acts on what the path stands for before it comes to an end, or
it fails. -/
abbrev Proper (vol : Volume) (path : CString) (place : Request → Option (UInt32 × CString))
    (fails : α → Prop) (files : α → Option AfpFileInfo) (tr : List ((e : Effect) × e.Answer))
    (p : AfpM α) : Prop :=
  Prog.Tracks (fun _ _ => True) (Harmless vol path place)
    (fun tr a => fails a ∨ Acted vol path place (files a) tr) tr p

/-- It is about the object of the path `q`, whose directory is `did`. -/
abbrev Concerns (vol : Volume) (place : Request → Option (UInt32 × CString)) (q : CString)
    (did : UInt32) (e : Effect) : Prop :=
  ∃ object ∈ about place e, Denotes vol q did object

/-- The file is the one of the path `q`. -/
def Holds (q : CString) (did : UInt32) (file : Option AfpFileInfo) : Prop :=
  ∃ fp ∈ file, fp.did = did ∧ fp.basename = lastComponent q

/-- What does not concern the server. -/
theorem proper_bind_perform {e : Effect} (he : ∀ r, e ≠ .request r) (htr : Silent tr)
    {f : e.Answer → AfpM α}
    (hf : ∀ answer tr, Silent tr → Proper vol path place fails files tr (f answer)) :
    Proper vol path place fails files tr (perform e >>= f) :=
  ⟨trivial, fun answer => hf answer _ (htr.append he answer)⟩

theorem proper_bind_ofOption {o : Option β} (htr : Silent tr) {f : β → AfpM α}
    (hf : ∀ b, o = some b → Proper vol path place fails files tr (f b)) :
    Proper vol path place fails files tr (ofOption o >>= f) := by
  cases o with
  | none => exact .inl htr
  | some b => exact hf b rfl

theorem proper_bind_translated {path' : CString} (htr : Silent tr) {f : AfpMeta × CString → AfpM α}
    (hf : ∀ beyond tr, Silent tr → Proper vol path place fails files tr
      (f ((extraTranslate vol path' beyond).1, (extraTranslate vol path' beyond).2.getD []))) :
    Proper vol path place fails files tr (translated vol path' >>= f) :=
  ⟨trivial, fun beyond => hf beyond _ (htr.append (by simp) beyond)⟩

/-- **Finding the object.**  Once the real path is resolved, it is what is done with its object that
counts. -/
theorem proper_bind_getDirid (hreal : RealPath vol path q) (hq : q.head? = some slash)
    (htr : Silent tr ∨ Fits q) {basename : CString} {dirid : UInt32}
    {f : ℤ × CString × UInt32 → AfpM α}
    (hf : ∀ did, Prog.Does (Concerns vol place q did) (fun a => fails a ∨ Holds q did (files a))
      (f (0, lastComponent q, did))) :
    Proper vol path place fails files tr (getDirid q basename dirid >>= f) := by
  by_cases hfits : Fits q
  · refine (yields_getDirid hq hfits basename dirid).tracks.bind ?_
    rintro _ ⟨ret, name, did⟩ ⟨hret, search, rfl, hsteps⟩
    obtain rfl : ret = 0 := hret
    obtain rfl : name = lastComponent q :=
      (@named_getDirid (fun _ => True) q hq (fun _ _ => trivial) basename dirid).2.steps hsteps
        fun _ _ => trivial
    have hfound : Found q did (tr ++ search) :=
      ⟨tr, search, [], basename, dirid, (List.append_nil _).symm, hsteps⟩
    refine ((hf did).tracks (I := Found q did) (J := Acted vol path place none) hfound
      (fun _ ev h => h.append ev) (fun _ ev h => h.append ev) ?_ fun _ => .inr).mono ?_
    · rintro tr e r hfound ⟨object, hobject⟩
      exact ⟨q, hreal, did, .inl ⟨tr, ⟨e, r⟩, [], rfl, hfound, object, hobject⟩⟩
    · rintro tr a (⟨hfound, hfails | hfile⟩ | hacted)
      · exact .inl hfails
      · exact .inr ⟨q, hreal, did, .inr ⟨hfound, hfile⟩⟩
      · exact .inr hacted.of_none
  · rw [getDirid_of_not_fits hq hfits]
    exact .inl (htr.resolve_right hfits)

theorem proper_bind_resolve (hreal : RealPath vol path q) (hq : q.head? = some slash)
    (htr : Silent tr ∨ Fits q) {f : ℤ × CString × UInt32 → AfpM α}
    (hf : ∀ did, Prog.Does (Concerns vol place q did) (fun a => fails a ∨ Holds q did (files a))
      (f (0, lastComponent q, did))) :
    Proper vol path place fails files tr (resolve q >>= f) := by
  refine ⟨trivial, fun (basename : CString) => ⟨trivial, fun (dirid : UInt32) => ?_⟩⟩
  refine proper_bind_getDirid hreal hq (htr.imp (fun h => ?_) id) hf
  exact h.resolved basename dirid

theorem proper_bind_resolve_of_not_fits (hq : q.head? = some slash) (hfits : ¬ Fits q)
    (htr : Silent tr) {f : ℤ × CString × UInt32 → AfpM α} :
    Proper vol path place fails files tr (resolve q >>= f) := by
  refine ⟨trivial, fun (basename : CString) => ⟨trivial, fun (dirid : UInt32) => ?_⟩⟩
  change Proper vol path place fails files _ (getDirid q basename dirid >>= f)
  rw [getDirid_of_not_fits hq hfits]
  exact .inl (htr.resolved basename dirid)

/-- A request with a pathname about the last component of the path. -/
theorem concerns_last {r : Request} (h : place r = some (did, lastComponent q)) :
    Concerns vol place q did (.request r) := ⟨_, h, .last⟩

end Done

/-! ## The operations -/

section Operations

variable {vol : Volume} {path q : CString} {did : UInt32} {tr : List ((e : Effect) × e.Answer)}
  {place : Request → Option (UInt32 × CString)} {α : Type} {fails : α → Prop}
  {files : α → Option AfpFileInfo}

/-- A hook that refuses every virtual path. -/
theorem proper_bind_refuseVirtual (hpath : path.head? = some slash) (hvirtual : Virtual vol path)
    (htr : Silent tr) {f : ℤ → AfpM α}
    (hf : ∀ tr, Silent tr → Proper vol path place fails files tr (f (-EPERM))) :
    Proper vol path place fails files tr (refuseVirtual vol path >>= f) := by
  rw [refuseVirtual, bind_assoc]
  refine proper_bind_translated htr fun beyond tr htr => ?_
  change Proper vol path place fails files tr
    ((if (extraTranslate vol path beyond).1 = .none then pure 0 else pure (-EPERM)) >>= f)
  rw [if_neg (hvirtual.kind_ne hpath beyond)]
  exact hf tr htr

theorem proper_hook (hpath : path.head? = some slash) (hvirtual : Virtual vol path)
    (htr : Silent tr) (p : ℤ → AfpM ℤ) :
    Proper vol path place (· < 0) (fun _ => none) tr (do
      let ret ← refuseVirtual vol path
      if ret < 0 then return ret else if ret = 1 then return 0 else p ret) :=
  proper_bind_refuseVirtual hpath hvirtual htr fun _ _ =>
    Prog.tracks_ite (fun h => .inl h) fun h => absurd (by decide) h

/-- A lookup of a real path, if its names are not too long. -/
theorem proper_bind_llGetattr (hreal : RealPath vol path q) (hq : q.head? = some slash)
    (htr : Silent tr) {resource : Bool} {f : ℤ × Stat → AfpM α}
    (hf : invalidFilename vol.server q = true →
      Proper vol path subject fails files tr (f (-ENAMETOOLONG, .zero))) :
    Proper vol path subject fails files tr (llGetattr vol q resource >>= f) := by
  by_cases hinvalid : invalidFilename vol.server q = true
  · rw [llGetattr, if_pos hinvalid]
    exact hf hinvalid
  rw [llGetattr, if_neg hinvalid, bind_assoc]
  refine proper_bind_perform (by simp) htr fun (fp : AfpFileInfo) tr htr => ?_
  rw [bind_assoc]
  refine proper_bind_resolve hreal hq (.inl htr) fun did => ?_
  refine Prog.Does.bind (Q := fun _ => False) ?_ fun _ h => h.elim
  refine Prog.does_ite (fun h => absurd h (lt_irrefl 0)) fun _ => .inl ?_
  by_cases hroot : (decide (vol.server.avNumber < 30) && decide (q = [slash])) = true
  · rw [Bool.and_eq_true, decide_eq_true_iff, decide_eq_true_iff] at hroot
    refine ⟨_, rfl, ?_⟩
    simp only [hroot.1, hroot.2, decide_true, Bool.and_self, if_true]
    exact .root hroot.1 rfl
  · refine ⟨_, rfl, ?_⟩
    simp only [hroot]
    exact .last

theorem proper_bind_llReaddir (hreal : RealPath vol path q) (hq : q.head? = some slash)
    (htr : Silent tr) {resource : Bool} {fuel : ℕ} {f : ℤ × Option (List AfpFileInfo) → AfpM α}
    (hf : invalidFilename vol.server q = true →
      Proper vol path subject fails files tr (f (-ENAMETOOLONG, none))) :
    Proper vol path subject fails files tr (llReaddir vol q resource (fuel + 1) >>= f) := by
  by_cases hinvalid : invalidFilename vol.server q = true
  · rw [llReaddir, if_pos hinvalid]
    exact hf hinvalid
  rw [llReaddir, if_neg hinvalid, bind_assoc]
  refine proper_bind_resolve hreal hq (.inl htr) fun did => ?_
  refine Prog.Does.bind (Q := fun _ => False) ?_ fun _ h => h.elim
  refine Prog.does_ite (fun h => absurd h (lt_irrefl 0)) fun _ => ?_
  refine Prog.Does.bind (Q := fun _ => False) ?_ fun _ h => h.elim
  refine Prog.Does.bind (Q := fun _ => False) ?_ fun _ h => h.elim
  exact Prog.does_ite (fun _ => .inl (concerns_last rfl)) fun _ => .inl (concerns_last rfl)

/-- A file is opened by a request about the object that the structure names. -/
theorem does_llOpen {flags fuel : ℕ} {handle : Handle} {fp : AfpFileInfo} (hdid : fp.did = did)
    (hname : fp.basename = lastComponent q) {newpath : CString} :
    Prog.Does (Concerns vol subject q did) (fun res => res.1 < 0)
      (llOpen vol newpath flags handle fp (fuel + 1)) := by
  have hfp : some (fp.did, fp.basename) = some (did, lastComponent q) := by rw [hdid, hname]
  refine Prog.does_ite (fun _ => (by decide : -EPERM < 0)) fun _ => ?_
  refine Prog.does_ite (fun _ => (by decide : -EEXIST < 0)) fun _ => ?_
  refine Prog.Does.bind (Q := fun _ => True) ?_ fun _ _ => ?_
  · exact Prog.does_ite (fun _ => .inl (concerns_last hfp)) fun _ => trivial
  refine Prog.Does.bind (Q := fun res => res.1 = 0 ∧ (res.2.did, res.2.basename) =
    (did, lastComponent q)) ?_ fun res hres => ?_
  · exact Prog.does_ite (fun _ => .inl (concerns_last hfp)) fun _ => ⟨rfl, Option.some.inj hfp⟩
  refine Prog.does_ite (fun h => absurd hres.1 h) fun _ => ?_
  exact Prog.Does.bind (Q := fun _ => False) (.inl (concerns_last (congrArg some hres.2)))
    fun _ h => h.elim

theorem does_openDesktop {P : Effect → Prop} : Prog.Does P (fun _ => True) openDesktop := by
  refine .inr fun (reply : Reply UInt16) => ?_
  obtain ⟨rc, stored⟩ := reply
  cases stored with
  | none => exact trivial
  | some refnum => exact .inr fun _ => trivial

theorem proper_afpMlOpen {flags : ℕ} (hpath : path.head? = some slash) (hvirtual : Virtual vol path)
    (h : ¬ Strays vol (.open path flags)) (htr : Silent tr) (fuel : ℕ) :
    Proper vol path subject (fun res => res.1 < 0) (fun res => res.2.map Prod.snd) tr
      (afpMlOpen vol path flags (fuel + 1)) := by
  refine proper_bind_ofOption htr fun ⟨ret, dst⟩ hconvert => ?_
  refine Prog.tracks_ite (fun _ => .inl (by decide : -EINVAL < 0)) fun hret => ?_
  obtain rfl : ret = 0 := not_not.mp hret
  refine Prog.tracks_ite (fun _ => .inl (by decide : -ENAMETOOLONG < 0)) fun hinvalid => ?_
  refine Prog.tracks_ite (fun _ => .inl (by decide : -EACCES < 0)) fun hreadonly => ?_
  refine proper_bind_perform (by simp) htr fun (allocated : Option Handle) tr htr => ?_
  cases allocated with
  | none => exact .inl (by decide : (-1 : ℤ) < 0)
  | some handle =>
    simp only
    rw [appledoubleOpen, bind_assoc]
    refine proper_bind_translated htr fun beyond tr htr => ?_
    rcases hvirtual.cases hpath beyond with heq | ⟨kind, q, heq, hne, hq⟩
    · exact absurd ⟨dst, beyond, hconvert, eq_false_of_ne_true hinvalid, hreadonly, by rw [heq]⟩ h
    have hreal : RealPath vol path q := .translated (.virtual (congrArg Prod.snd heq))
    rw [heq]
    cases kind with
    | none => exact absurd rfl hne
    | serverIcon =>
      exact absurd ⟨dst, beyond, hconvert, eq_false_of_ne_true hinvalid, hreadonly, by rw [heq]⟩ h
    | appledouble => exact .inl (by decide : -EISDIR < 0)
    | resource =>
      simp only [bind_assoc]
      refine proper_bind_getDirid hreal hq (.inl htr) fun did => ?_
      refine Prog.Does.bind (Q := fun res => res.1 < 0) ?_ fun res hres => ?_
      · refine Prog.does_ite (fun h => absurd h (lt_irrefl 0)) fun _ => ?_
        refine Prog.Does.bind (does_llOpen (by rfl) (by rfl)) fun res hres => ?_
        exact Prog.does_ite (fun _ => hres) fun h => absurd hres h
      · exact Prog.does_ite (fun _ => .inl hres) fun h => absurd hres h
    | finderinfo =>
      simp only [bind_assoc]
      refine proper_bind_getDirid hreal hq (.inl htr) fun did => ?_
      refine Prog.Does.bind (Q := fun res => res.1 = 1 ∧ res.2.did = did ∧
        res.2.basename = lastComponent q) ?_ fun res hres => ?_
      · exact Prog.does_ite (fun h => absurd h (lt_irrefl 0)) fun _ => ⟨rfl, rfl, rfl⟩
      · refine Prog.does_ite (fun h => by omega) fun _ => ?_
        exact Prog.does_ite (fun _ => .inr ⟨res.2, rfl, hres.2⟩) fun h => absurd hres.1 h
    | comment =>
      simp only [bind_assoc]
      refine proper_bind_getDirid hreal hq (.inl htr) fun did => ?_
      refine Prog.Does.bind (Q := fun res => res.1 < 0 ∨ res.1 = 1 ∧ res.2.did = did ∧
        res.2.basename = lastComponent q) ?_ fun res hres => ?_
      · refine Prog.does_ite (fun h => absurd h (lt_irrefl 0)) fun _ => .inr fun (refnum : UInt16) => ?_
        refine Prog.does_ite (fun _ => ?_) fun _ => .inr ⟨rfl, rfl, rfl⟩
        refine does_openDesktop.bind fun rc _ => ?_
        exact Prog.does_ite (fun _ => .inl (by decide : - EIO < 0)) fun _ => .inr ⟨rfl, rfl, rfl⟩
      · refine Prog.does_ite .inl fun hneg => ?_
        obtain ⟨hone, hfile⟩ := hres.resolve_left hneg
        exact Prog.does_ite (fun _ => .inr ⟨res.2, rfl, hfile⟩) fun h => absurd hone h

theorem proper_afpMlCreat {mode : UInt32} (hpath : path.head? = some slash)
    (hvirtual : Virtual vol path) (h : ¬ Strays vol (.creat path mode)) (htr : Silent tr) :
    Proper vol path subject (· < 0) (fun _ => none) tr (afpMlCreat vol path mode) := by
  refine proper_bind_ofOption htr fun ⟨ret, dst⟩ hconvert => ?_
  refine Prog.tracks_ite (fun _ => .inl (by decide : -EINVAL < 0)) fun hret => ?_
  obtain rfl : ret = 0 := not_not.mp hret
  refine Prog.tracks_ite (fun _ => .inl (by decide : -EACCES < 0)) fun hreadonly => ?_
  rw [appledoubleCreat, bind_assoc]
  refine proper_bind_translated htr fun beyond tr htr => ?_
  have hstrays : ∀ {P : Prop}, (extraTranslate vol path beyond).1 = .resource ∨
      (extraTranslate vol path beyond).1 = .finderinfo ∨
      (extraTranslate vol path beyond).1 = .comment ∧ invalidFilename vol.server dst = false ∧
        ¬ RealPath vol path dst → P :=
    fun hkind => absurd ⟨dst, beyond, hconvert, eq_false_of_ne_true hreadonly, hkind⟩ h
  cases hkind : (extraTranslate vol path beyond).1 with
  | none => exact absurd hkind (hvirtual.kind_ne hpath beyond)
  | resource => exact hstrays (.inl hkind)
  | finderinfo => exact hstrays (.inr (.inl hkind))
  | appledouble => exact .inl (by decide : -EBADF < 0)
  | serverIcon => exact .inl (by decide : -EPERM < 0)
  | comment =>
    refine Prog.tracks_ite (fun _ => .inl (by decide : -ENAMETOOLONG < 0)) fun hinvalid => ?_
    have hreal : RealPath vol path dst := by_contra fun hnot =>
      hstrays (.inr (.inr ⟨hkind, eq_false_of_ne_true hinvalid, hnot⟩))
    refine proper_bind_resolve hreal (head?_of_converts hpath hconvert) (.inl htr) fun did => ?_
    exact .inl (concerns_last rfl)

/-- Without a mapping of the owners every lookup fails. -/
theorem yields_llGetattr_of_unmapped (hpath : path.head? = some slash) (hfits : Fits path)
    (h : (translateUidgidToClient vol 0 0).1 ≠ 0) (resource : Bool) :
    Prog.Yields (fun _ => True) (fun res => res.1 < 0) (llGetattr vol path resource) := by
  have hunmapped : ∀ uid gid, (translateUidgidToClient vol uid gid).1 ≠ 0 := fun uid gid => by
    revert h
    cases hmapping : vol.mapping <;> simp [translateUidgidToClient, hmapping]
  refine Prog.yields_ite (fun _ => (by decide : -ENAMETOOLONG < 0)) fun _ => ?_
  intro (fp : AfpFileInfo) _
  refine (yields_resolve hpath hfits).bind fun found hfound => ?_
  refine Prog.yields_ite (fun _ => (by decide : -ENOENT < 0)) fun _ => ?_
  intro (reply : Reply AfpFileInfo) _
  refine Prog.yields_ite (fun hrc => ?_) fun _ => ?_
  · change -lookupErr reply.rc < 0
    revert hrc
    rw [lookupErr]
    split
    · exact fun _ => by decide
    split
    · exact fun _ => by decide
    split
    · exact fun h => absurd rfl h
    · exact fun _ => by decide
  · exact Prog.yields_ite (fun _ => (by decide : - EIO < 0)) fun hmapped =>
      absurd hmapped (not_not.mpr (hunmapped _ _))

theorem proper_afpMlChmod {mode : UInt32} (hpath : path.head? = some slash)
    (hvirtual : Virtual vol path) (h : ¬ Strays vol (.chmod path mode)) (htr : Silent tr) :
    Proper vol path subject (· < 0) (fun _ => none) tr (afpMlChmod vol path mode) := by
  refine Prog.tracks_ite (fun _ => .inl (by decide : -ENAMETOOLONG < 0)) fun hinvalid => ?_
  refine Prog.tracks_ite (fun _ => .inl (by decide : -EACCES < 0)) fun hreadonly => ?_
  refine Prog.tracks_ite (fun hunix => Prog.tracks_ite (fun hignore => ?_) fun _ => ?_) fun _ => ?_
  · by_cases hreal : RealPath vol path path
    · exact proper_bind_llGetattr hreal hpath htr fun hinvalid' => absurd hinvalid' hinvalid
    by_cases hfits : Fits path
    · have hunmapped : (translateUidgidToClient vol 0 0).1 ≠ 0 := fun hmapped =>
        h ⟨eq_false_of_ne_true hinvalid, eq_false_of_ne_true hreadonly, hunix, hignore, hfits,
          hmapped, hreal⟩
      exact (yields_llGetattr_of_unmapped hpath hfits hunmapped false).tracks.bind
        fun _ _ hres => .inl hres.1
    · rw [llGetattr, if_neg hinvalid, bind_assoc]
      refine proper_bind_perform (by simp) htr fun (fp : AfpFileInfo) tr htr => ?_
      rw [bind_assoc]
      exact proper_bind_resolve_of_not_fits hpath hfits htr
  · exact .inl (by decide : -ENOSYS < 0)
  refine proper_bind_ofOption htr fun ⟨ret, dst⟩ hconvert => ?_
  refine Prog.tracks_ite (fun _ => .inl (by decide : -EINVAL < 0)) fun hret => ?_
  exact proper_hook hpath hvirtual htr _

theorem proper_afpMlChown (hpath : path.head? = some slash) (hvirtual : Virtual vol path)
    (htr : Silent tr) :
    Proper vol path subject (· < 0) (fun _ => none) tr (afpMlChown vol path) := by
  refine proper_bind_ofOption htr fun ⟨ret, dst⟩ hconvert => ?_
  refine Prog.tracks_ite (fun _ => .inl (by decide : -EINVAL < 0)) fun _ => ?_
  refine Prog.tracks_ite (fun _ => .inl (by decide : -ENAMETOOLONG < 0)) fun _ => ?_
  refine Prog.tracks_ite (fun _ => .inl (by decide : -EACCES < 0)) fun _ => ?_
  exact proper_hook hpath hvirtual htr _

theorem proper_afpMlUtime (hpath : path.head? = some slash) (hvirtual : Virtual vol path)
    (htr : Silent tr) (modtime : UInt32) :
    Proper vol path subject (· < 0) (fun _ => none) tr (afpMlUtime vol path modtime) := by
  refine Prog.tracks_ite (fun _ => .inl (by decide : -EACCES < 0)) fun _ => ?_
  refine Prog.tracks_ite (fun _ => .inl (by decide : -ENAMETOOLONG < 0)) fun _ => ?_
  refine proper_bind_ofOption htr fun ⟨ret, dst⟩ hconvert => ?_
  refine Prog.tracks_ite (fun _ => .inl (by decide : -EINVAL < 0)) fun _ => ?_
  exact proper_hook hpath hvirtual htr _

theorem proper_afpMlUnlink (hpath : path.head? = some slash) (hvirtual : Virtual vol path)
    (htr : Silent tr) :
    Proper vol path subject (· < 0) (fun _ => none) tr (afpMlUnlink vol path) := by
  refine proper_bind_ofOption htr fun ⟨ret, dst⟩ hconvert => ?_
  refine Prog.tracks_ite (fun _ => .inl (by decide : -EINVAL < 0)) fun _ => ?_
  refine Prog.tracks_ite (fun _ => .inl (by decide : -EACCES < 0)) fun _ => ?_
  exact proper_hook hpath hvirtual htr _

theorem proper_afpMlMkdir (hpath : path.head? = some slash) (hvirtual : Virtual vol path)
    (htr : Silent tr) :
    Proper vol path subject (· < 0) (fun _ => none) tr (afpMlMkdir vol path) := by
  refine proper_bind_ofOption htr fun ⟨ret, dst⟩ hconvert => ?_
  refine Prog.tracks_ite (fun _ => .inl (by decide : -EINVAL < 0)) fun _ => ?_
  refine Prog.tracks_ite (fun _ => .inl (by decide : -ENAMETOOLONG < 0)) fun _ => ?_
  refine Prog.tracks_ite (fun _ => .inl (by decide : -EACCES < 0)) fun _ => ?_
  exact proper_hook hpath hvirtual htr _

theorem proper_afpMlRmdir (hpath : path.head? = some slash) (hvirtual : Virtual vol path)
    (htr : Silent tr) :
    Proper vol path subject (· < 0) (fun _ => none) tr (afpMlRmdir vol path) := by
  refine Prog.tracks_ite (fun _ => .inl (by decide : -ENAMETOOLONG < 0)) fun _ => ?_
  refine proper_bind_ofOption htr fun ⟨ret, dst⟩ hconvert => ?_
  refine Prog.tracks_ite (fun _ => .inl (by decide : -EINVAL < 0)) fun _ => ?_
  refine Prog.tracks_ite (fun _ => .inl (by decide : -EACCES < 0)) fun _ => ?_
  exact proper_hook hpath hvirtual htr _

theorem proper_afpMlTruncate (hpath : path.head? = some slash) (hvirtual : Virtual vol path)
    (h : ¬ Strays vol (.truncate path)) (htr : Silent tr) (fuel : ℕ) :
    Proper vol path subject (· < 0) (fun _ => none) tr (afpMlTruncate vol path fuel) := by
  refine proper_bind_ofOption htr fun ⟨ret, dst⟩ hconvert => ?_
  refine Prog.tracks_ite (fun _ => .inl (by decide : -EINVAL < 0)) fun hret => ?_
  obtain rfl : ret = 0 := not_not.mp hret
  refine Prog.tracks_ite (fun _ => .inl (by decide : -ENAMETOOLONG < 0)) fun hinvalid => ?_
  refine Prog.tracks_ite (fun _ => .inl (by decide : -EACCES < 0)) fun hreadonly => ?_
  rw [appledoubleTruncate, bind_assoc]
  refine proper_bind_translated htr fun beyond tr htr => ?_
  rcases hvirtual.cases hpath beyond with heq | ⟨kind, q, heq, hne, hq⟩
  · rw [heq]
    exact .inl (by decide : -EPERM < 0)
  have hreal : RealPath vol path q := .translated (.virtual (congrArg Prod.snd heq))
  have hstrays : ∀ {P : Prop}, kind = .finderinfo ∨ kind = .comment → P := fun hkind =>
    absurd ⟨dst, beyond, hconvert, eq_false_of_ne_true hinvalid, eq_false_of_ne_true hreadonly,
      by rw [heq]; exact hkind⟩ h
  rw [heq]
  cases kind with
  | none => exact absurd rfl hne
  | serverIcon => exact .inl (by decide : -EPERM < 0)
  | appledouble => exact .inl (by decide : -EISDIR < 0)
  | finderinfo => exact hstrays (.inl rfl)
  | comment => exact hstrays (.inr rfl)
  | resource =>
    simp only [bind_assoc]
    refine proper_bind_perform (by simp) htr fun (fp : AfpFileInfo) tr htr => ?_
    exact proper_bind_resolve hreal hq (.inl htr) fun did => .inl (concerns_last rfl)

theorem proper_afpMlGetattr (hpath : path.head? = some slash) (hvirtual : Virtual vol path)
    (h : ¬ Strays vol (.getattr path)) (htr : Silent tr) :
    Proper vol path subject (fun res => res.1 < 0) (fun _ => none) tr (afpMlGetattr vol path) := by
  refine proper_bind_ofOption htr fun ⟨ret, dst⟩ hconvert => ?_
  refine Prog.tracks_ite (fun _ => .inl (by decide : -EINVAL < 0)) fun hret => ?_
  obtain rfl : ret = 0 := not_not.mp hret
  have hdst := head?_of_converts hpath hconvert
  rw [appledoubleGetattr, bind_assoc]
  refine proper_bind_translated htr fun beyond tr htr => ?_
  rcases (hvirtual.converted hpath hconvert).cases hdst beyond with heq | ⟨kind, q, heq, hne, hq⟩
  · exact absurd ⟨dst, beyond, hconvert, .inr (.inl (congrArg Prod.fst heq))⟩ h
  have hreal : RealPath vol path q := .converted hconvert (.virtual (congrArg Prod.snd heq))
  have hstrays : ∀ {P : Prop}, (kind = .appledouble ∨ kind = .serverIcon ∨
      (kind = .resource ∨ kind = .finderinfo) ∧ invalidFilename vol.server q = true) → P := by
    rintro P (hkind | hkind | ⟨hkind, hinvalid⟩)
    · exact absurd ⟨dst, beyond, hconvert, .inl (by rw [heq]; exact hkind)⟩ h
    · exact absurd ⟨dst, beyond, hconvert, .inr (.inl (by rw [heq]; exact hkind))⟩ h
    · refine absurd ⟨dst, beyond, hconvert, .inr (.inr ⟨q, ?_, hinvalid⟩)⟩ h
      exact hkind.imp (fun hkind => by rw [heq, hkind]) fun hkind => by rw [heq, hkind]
  rw [heq]
  cases kind with
  | none => exact absurd rfl hne
  | serverIcon => exact hstrays (.inr (.inl rfl))
  | appledouble => exact hstrays (.inl rfl)
  | resource =>
    simp only [bind_assoc]
    exact proper_bind_llGetattr hreal hq htr fun hinvalid => hstrays (.inr (.inr ⟨.inl rfl, hinvalid⟩))
  | finderinfo =>
    simp only [bind_assoc]
    exact proper_bind_llGetattr hreal hq htr fun hinvalid => hstrays (.inr (.inr ⟨.inr rfl, hinvalid⟩))
  | comment =>
    simp only [bind_assoc]
    exact proper_bind_llGetattr hreal hq htr fun _ => .inl (by decide : -ENAMETOOLONG < 0)

theorem proper_afpMlReaddir (hpath : path.head? = some slash) (hvirtual : Virtual vol path)
    (h : ¬ Strays vol (.readdir path)) (htr : Silent tr) (fuel : ℕ) :
    Proper vol path subject (fun res => res.1 < 0) (fun _ => none) tr
      (afpMlReaddir vol path (fuel + 1)) := by
  refine proper_bind_ofOption htr fun ⟨ret, dst⟩ hconvert => ?_
  refine Prog.tracks_ite (fun _ => .inl (by decide : -EINVAL < 0)) fun hret => ?_
  obtain rfl : ret = 0 := not_not.mp hret
  have hdst := head?_of_converts hpath hconvert
  rw [appledoubleReaddir, bind_assoc]
  refine proper_bind_translated htr fun beyond tr htr => ?_
  rcases (hvirtual.converted hpath hconvert).cases hdst beyond with heq | ⟨kind, q, heq, hne, hq⟩
  · rw [heq]
    exact .inl (by decide : -ENOTDIR < 0)
  have hreal : RealPath vol path q := .converted hconvert (.virtual (congrArg Prod.snd heq))
  cases kind with
  | none => exact absurd rfl hne
  | serverIcon => rw [heq]; exact .inl (by decide : -ENOTDIR < 0)
  | resource => rw [heq]; exact .inl (by decide : -ENOTDIR < 0)
  | comment => rw [heq]; exact .inl (by decide : -ENOTDIR < 0)
  | appledouble =>
    rw [heq]
    simp only [bind_assoc]
    exact proper_bind_llReaddir hreal hq htr fun hinvalid =>
      absurd ⟨dst, beyond, hconvert, .inr ⟨q, heq, hinvalid⟩⟩ h
  | finderinfo =>
    rw [heq]
    change Proper vol path subject (fun res => res.1 < 0) (fun _ => none) tr
      (llReaddir vol dst false (fuel + 1))
    rw [← bind_pure (llReaddir vol dst false (fuel + 1))]
    by_cases hself : RealPath vol path dst
    · exact proper_bind_llReaddir hself hdst htr fun _ => .inl (by decide : -ENAMETOOLONG < 0)
    · have hinvalid : invalidFilename vol.server dst = true := by_contra fun hvalid => h ⟨dst, beyond,
        hconvert, .inl ⟨congrArg Prod.fst heq, eq_false_of_ne_true hvalid, hself⟩⟩
      rw [llReaddir, if_pos hinvalid]
      exact .inl (by decide : -ENAMETOOLONG < 0)

theorem proper_afpMlSymlink {path1 path2 : CString} (hpath : path2.head? = some slash)
    (h : ¬ Strays vol (.symlink path1 path2)) (htr : Silent tr) :
    Proper vol path2 subject (· < 0) (fun _ => none) tr (afpMlSymlink vol path1 path2) := by
  refine Prog.tracks_ite (fun _ => .inl (by decide : -ENOSYS < 0)) fun hold => ?_
  refine proper_bind_ofOption htr fun ⟨ret1, src⟩ hsrc => ?_
  refine Prog.tracks_ite (fun _ => .inl (by decide : -EINVAL < 0)) fun hret1 => ?_
  refine proper_bind_ofOption htr fun ⟨ret2, dst⟩ hdst => ?_
  refine Prog.tracks_ite (fun _ => .inl (by decide : -EINVAL < 0)) fun hret2 => ?_
  obtain rfl : ret1 = 0 := not_not.mp hret1
  obtain rfl : ret2 = 0 := not_not.mp hret2
  refine Prog.tracks_ite (fun _ => .inl (by decide : -EACCES < 0)) fun hreadonly => ?_
  rw [appledoubleSymlink, refuseVirtual, bind_assoc]
  refine proper_bind_translated htr fun beyond tr htr => ?_
  change Proper vol path2 subject (· < 0) (fun _ => none) tr
    ((if (extraTranslate vol path1 beyond).1 = .none then pure 0 else pure (-EPERM)) >>= _)
  by_cases hkind : (extraTranslate vol path1 beyond).1 = .none
  · rw [if_pos hkind]
    have hreal : RealPath vol path2 dst := by_contra fun hnot => h ⟨Nat.not_lt.mp hold, src, dst,
      beyond, hsrc, hdst, eq_false_of_ne_true hreadonly, hkind, hnot⟩
    exact proper_bind_resolve hreal (head?_of_converts hpath hdst) (.inl htr)
      fun did => .inl (concerns_last rfl)
  · rw [if_neg hkind]
    exact .inl (by decide : -EPERM < 0)

/-- **Both paths of a rename** are resolved before the move, and it is about the object of each of
them. -/
theorem proper_afpMlRename {pathFrom pathTo : CString} (hfrom : pathFrom.head? = some slash)
    (hto : pathTo.head? = some slash) (h : ¬ Strays vol (.rename pathFrom pathTo)) (htr : Silent tr) :
    Proper vol pathFrom moved (· < 0) (fun _ => none) tr (afpMlRename vol pathFrom pathTo) ∧
      Proper vol pathTo destination (· < 0) (fun _ => none) tr (afpMlRename vol pathFrom pathTo) := by
  have hisDir : ∀ did path, Prog.Yields (fun _ => True) (fun _ => True) (isDir did path) :=
    fun did path _ _ _ _ => Prog.yields_ite (fun _ => trivial) fun _ => trivial
  -- the paths are the real ones once the move is reached
  have hreal : ∀ {src dst}, Converts vol pathFrom src → Converts vol pathTo dst →
      ¬ volumeIsReadonly vol = true → RealPath vol pathFrom src ∧ RealPath vol pathTo dst := by
    intro src dst hsrc hdst hreadonly
    by_contra hnot
    exact h ⟨src, dst, hsrc, hdst, eq_false_of_ne_true hreadonly, not_and_or.mp hnot⟩
  constructor
  · refine proper_bind_ofOption htr fun ⟨ret1, src⟩ hsrc => ?_
    refine Prog.tracks_ite (fun _ => .inl (by decide : -EINVAL < 0)) fun hret1 => ?_
    refine proper_bind_ofOption htr fun ⟨ret2, dst⟩ hdst => ?_
    refine Prog.tracks_ite (fun _ => .inl (by decide : -EINVAL < 0)) fun hret2 => ?_
    obtain rfl : ret1 = 0 := not_not.mp hret1
    obtain rfl : ret2 = 0 := not_not.mp hret2
    refine Prog.tracks_ite (fun _ => .inl (by decide : -EACCES < 0)) fun hreadonly => ?_
    have hhead := head?_of_converts hto hdst
    refine proper_bind_resolve (hreal hsrc hdst hreadonly).1 (head?_of_converts hfrom hsrc)
      (.inl htr) fun did => ?_
    refine (yields_resolve hhead (fits_of_converts hto hdst)).does.bind fun found _ => ?_
    refine (hisDir _ _).does.bind fun directory _ => Prog.Does.bind (Q := fun _ => False) ?_
      fun _ h => h.elim
    exact Prog.does_ite (fun _ => .inl (concerns_last rfl)) fun _ => .inl (concerns_last rfl)
  · refine proper_bind_ofOption htr fun ⟨ret1, src⟩ hsrc => ?_
    refine Prog.tracks_ite (fun _ => .inl (by decide : -EINVAL < 0)) fun hret1 => ?_
    refine proper_bind_ofOption htr fun ⟨ret2, dst⟩ hdst => ?_
    refine Prog.tracks_ite (fun _ => .inl (by decide : -EINVAL < 0)) fun hret2 => ?_
    obtain rfl : ret1 = 0 := not_not.mp hret1
    obtain rfl : ret2 = 0 := not_not.mp hret2
    refine Prog.tracks_ite (fun _ => .inl (by decide : -EACCES < 0)) fun hreadonly => ?_
    refine (yields_resolve (head?_of_converts hfrom hsrc) (fits_of_converts hfrom hsrc)).tracks.bind
      fun tr found _ => ?_
    refine proper_bind_resolve (hreal hsrc hdst hreadonly).2 (head?_of_converts hto hdst)
      (.inr (fits_of_converts hto hdst)) fun did => ?_
    refine (hisDir _ _).does.bind fun directory _ => Prog.Does.bind (Q := fun _ => False) ?_
      fun _ h => h.elim
    exact Prog.does_ite (fun _ => .inl (concerns_last rfl)) fun _ => .inl (concerns_last rfl)

/-- The result of an operation that opens no file. -/
theorem proper_run {p : AfpM α} {ret : α → ℤ}
    (hp : Proper vol path place (fun a => ret a < 0) (fun _ => none) tr p) :
    Proper vol path place (fun res => res.1 < 0) (fun res => res.2) tr
      (p >>= fun a => pure (ret a, none)) :=
  Prog.Tracks.bind hp fun _ _ h => h

end Operations

/-! ## Which operations act -/

section Acts

variable {vol : Volume} {op : Operation}

/-- **An operation that does not stray** acts on what its virtual paths stand for, or fails. -/
theorem proper_of_not_strays (habs : ∀ path ∈ op.paths, path.head? = some slash)
    (h : ¬ Strays vol op) {path : CString} {place : Request → Option (UInt32 × CString)}
    (hplace : (path, place) ∈ op.places) (hvirtual : Virtual vol path) (fuel : ℕ) :
    Proper vol path place (fun res => res.1 < 0) (fun res => res.2) [] (op.run vol (fuel + 1)) := by
  cases op with
  | «open» path' flags =>
    obtain ⟨rfl, rfl⟩ := Prod.mk.inj (List.mem_singleton.mp hplace)
    have hpath : path.head? = some slash := habs path (List.mem_singleton_self path)
    exact Prog.Tracks.bind (proper_afpMlOpen hpath hvirtual h silent_nil fuel) fun _ _ h => h
  | creat path' mode =>
    obtain ⟨rfl, rfl⟩ := Prod.mk.inj (List.mem_singleton.mp hplace)
    have hpath : path.head? = some slash := habs path (List.mem_singleton_self path)
    exact proper_run (proper_afpMlCreat hpath hvirtual h silent_nil)
  | chmod path' mode =>
    obtain ⟨rfl, rfl⟩ := Prod.mk.inj (List.mem_singleton.mp hplace)
    have hpath : path.head? = some slash := habs path (List.mem_singleton_self path)
    exact proper_run (proper_afpMlChmod hpath hvirtual h silent_nil)
  | chown path' =>
    obtain ⟨rfl, rfl⟩ := Prod.mk.inj (List.mem_singleton.mp hplace)
    have hpath : path.head? = some slash := habs path (List.mem_singleton_self path)
    exact proper_run (proper_afpMlChown hpath hvirtual silent_nil)
  | unlink path' =>
    obtain ⟨rfl, rfl⟩ := Prod.mk.inj (List.mem_singleton.mp hplace)
    have hpath : path.head? = some slash := habs path (List.mem_singleton_self path)
    exact proper_run (proper_afpMlUnlink hpath hvirtual silent_nil)
  | mkdir path' =>
    obtain ⟨rfl, rfl⟩ := Prod.mk.inj (List.mem_singleton.mp hplace)
    have hpath : path.head? = some slash := habs path (List.mem_singleton_self path)
    exact proper_run (proper_afpMlMkdir hpath hvirtual silent_nil)
  | rmdir path' =>
    obtain ⟨rfl, rfl⟩ := Prod.mk.inj (List.mem_singleton.mp hplace)
    have hpath : path.head? = some slash := habs path (List.mem_singleton_self path)
    exact proper_run (proper_afpMlRmdir hpath hvirtual silent_nil)
  | truncate path' =>
    obtain ⟨rfl, rfl⟩ := Prod.mk.inj (List.mem_singleton.mp hplace)
    have hpath : path.head? = some slash := habs path (List.mem_singleton_self path)
    exact proper_run (proper_afpMlTruncate hpath hvirtual h silent_nil (fuel + 1))
  | utime path' modtime =>
    obtain ⟨rfl, rfl⟩ := Prod.mk.inj (List.mem_singleton.mp hplace)
    have hpath : path.head? = some slash := habs path (List.mem_singleton_self path)
    exact proper_run (proper_afpMlUtime hpath hvirtual silent_nil modtime)
  | getattr path' =>
    obtain ⟨rfl, rfl⟩ := Prod.mk.inj (List.mem_singleton.mp hplace)
    have hpath : path.head? = some slash := habs path (List.mem_singleton_self path)
    exact proper_run (proper_afpMlGetattr hpath hvirtual h silent_nil)
  | readdir path' =>
    obtain ⟨rfl, rfl⟩ := Prod.mk.inj (List.mem_singleton.mp hplace)
    have hpath : path.head? = some slash := habs path (List.mem_singleton_self path)
    exact proper_run (proper_afpMlReaddir hpath hvirtual h silent_nil fuel)
  | rename pathFrom pathTo =>
    have hboth := proper_afpMlRename (habs pathFrom (by simp [Operation.paths]))
      (habs pathTo (by simp [Operation.paths])) h silent_nil
    rcases List.mem_pair.mp hplace with heq | heq
    · obtain ⟨rfl, rfl⟩ := Prod.mk.inj heq
      exact proper_run hboth.1
    · obtain ⟨rfl, rfl⟩ := Prod.mk.inj heq
      exact proper_run hboth.2
  | symlink path1 path2 =>
    obtain ⟨rfl, rfl⟩ := Prod.mk.inj (List.mem_singleton.mp hplace)
    have hpath : path.head? = some slash := habs path (List.mem_singleton_self path)
    exact proper_run (proper_afpMlSymlink hpath h silent_nil)

theorem actsOrFails_of_not_strays (habs : ∀ path ∈ op.paths, path.head? = some slash)
    (h : ¬ Strays vol op) : ActsOrFails vol op where
  returns _ _ hplace hvirtual fuel _ _ _ hsteps :=
    ((proper_of_not_strays habs h hplace hvirtual fuel).steps hsteps).2
  stuck _ _ hplace hvirtual fuel _ hsteps :=
    ((proper_of_not_strays habs h hplace hvirtual fuel).steps hsteps).2

end Acts

end AppleDouble
end Afpfs

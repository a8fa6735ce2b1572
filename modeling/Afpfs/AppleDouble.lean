import Afpfs.Midlevel
import Afpfs.PathResolution

/-!
# What the server sees of AppleDouble paths

A virtual path stands for another one, without the component ".AppleDouble" and without the suffix
of its last component.  An operation is `Sealed` if every name it sends, in any run, is a name of
the path its own paths stand for, or the server has sent it before in a listing, or it is the name
of the volume.  So what a virtual path has that the real one does not have never reaches the server.

Most operations are sealed because their hook comes before any request.  `Leaks` are the exceptions:
`afp_ml_creat()` and `afp_ml_readdir()`, whose hooks forget one of the kinds; `afp_ml_chmod()`,
which looks up the path before its hook where the volume has no Unix privileges;
`afp_ml_symlink()`, whose hook looks at the text of the link; `afp_ml_rename()`, which has no hook.

* `names_bind_resolve`: a resolution only names components of its path.
* `reveals_resolve_bind`: and it names all of them, where nothing is cached.
* `sealed_iff`: the operations that are sealed.

What the operations do with the path that a virtual one stands for is in `Afpfs.RealFiles`.
-/

set_option autoImplicit false

namespace Afpfs
namespace AppleDouble

open Unicode Codepage Interaction Scan Translate PathResolution

/-! ## Names -/

/-- The names in a pathname of a request. -/
def namesOf (pathname : CString) : List CString :=
  components slash (slash :: requestedName pathname)

/-- The pathnames of a request. -/
def pathnames : Request → List CString
  | .getFileDirParms _ _ _ pathname => [pathname]
  | .setFileParms _ pathname _ _ => [pathname]
  | .setDirParms _ pathname _ _ => [pathname]
  | .setFileDirParms _ pathname _ _ => [pathname]
  | .delete _ pathname => [pathname]
  | .createFile _ _ pathname => [pathname]
  | .createDir _ pathname => [pathname]
  | .moveAndRename _ _ srcPath dstPath newName => srcPath :: newName :: dstPath.toList
  | .openFork _ _ _ filename => [filename]
  | .enumerate _ _ _ _ _ pathname => [pathname]
  | .enumerateExt2 _ _ _ _ _ pathname => [pathname]
  | .getComment _ pathname _ => [pathname]
  | .addComment _ pathname _ => [pathname]
  | _ => []

/-- The names by which an effect names objects of the server. -/
def names : Effect → List CString
  | .request r => (pathnames r).flatMap namesOf
  | _ => []

/-- The effect only sends names in `S`. -/
def Named (S : CString → Prop) (e : Effect) : Prop := ∀ name ∈ names e, S name

/-! ## Operations -/

/-- The operations with their arguments. -/
inductive Operation where
  | open (path : CString) (flags : ℕ)
  | creat (path : CString) (mode : UInt32)
  | chmod (path : CString) (mode : UInt32)
  | chown (path : CString)
  | unlink (path : CString)
  | mkdir (path : CString)
  | rmdir (path : CString)
  | truncate (path : CString)
  | utime (path : CString) (modtime : UInt32)
  | getattr (path : CString)
  | readdir (path : CString)
  | rename (pathFrom pathTo : CString)
  | symlink (path1 path2 : CString)

/-- Perform an operation: its result and, where it opens a file, what is in the structure of the
file. -/
def Operation.run (vol : Volume) (fuel : ℕ) : Operation → AfpM (ℤ × Option AfpFileInfo)
  | .open path flags => do
    let (ret, newfp) ← afpMlOpen vol path flags fuel
    return (ret, newfp.map Prod.snd)
  | .creat path mode => do
    let ret ← afpMlCreat vol path mode
    return (ret, none)
  | .chmod path mode => do
    let ret ← afpMlChmod vol path mode
    return (ret, none)
  | .chown path => do
    let ret ← afpMlChown vol path
    return (ret, none)
  | .unlink path => do
    let ret ← afpMlUnlink vol path
    return (ret, none)
  | .mkdir path => do
    let ret ← afpMlMkdir vol path
    return (ret, none)
  | .rmdir path => do
    let ret ← afpMlRmdir vol path
    return (ret, none)
  | .truncate path => do
    let ret ← afpMlTruncate vol path fuel
    return (ret, none)
  | .utime path modtime => do
    let ret ← afpMlUtime vol path modtime
    return (ret, none)
  | .getattr path => do
    let (ret, _) ← afpMlGetattr vol path
    return (ret, none)
  | .readdir path => do
    let (ret, _) ← afpMlReaddir vol path fuel
    return (ret, none)
  | .rename pathFrom pathTo => do
    let ret ← afpMlRename vol pathFrom pathTo
    return (ret, none)
  | .symlink path1 path2 => do
    let ret ← afpMlSymlink vol path1 path2
    return (ret, none)

/-- The paths of an operation.  The text of a symbolic link is not one. -/
def Operation.paths : Operation → List CString
  | .open path _ => [path]
  | .creat path _ => [path]
  | .chmod path _ => [path]
  | .chown path => [path]
  | .unlink path => [path]
  | .mkdir path => [path]
  | .rmdir path => [path]
  | .truncate path => [path]
  | .utime path _ => [path]
  | .getattr path => [path]
  | .readdir path => [path]
  | .rename pathFrom pathTo => [pathFrom, pathTo]
  | .symlink _ path2 => [path2]

/-! ## What an operation may name -/

/-- The path is `dst` in the encoding of the server. -/
def Converts (vol : Volume) (path dst : CString) : Prop :=
  convertPathToAfp vol.server.pathEncoding path AFP_MAX_PATH = some (0, dst)

/-- The path stands for the path `q`: for another one if it is virtual, else for itself.  The icon
of the server stands for no path. -/
inductive StandsFor (vol : Volume) (path : CString) : CString → Prop
  | virtual {beyond q : CString} (h : (extraTranslate vol path beyond).2 = some q) :
      StandsFor vol path q
  | plain {beyond : CString} (h : (extraTranslate vol path beyond).1 = .none) :
      StandsFor vol path path

/-- The real path, in the encoding of the server or not: the path is translated before it is
converted, or after, or not converted at all. -/
inductive RealPath (vol : Volume) (path : CString) : CString → Prop
  | translated {q : CString} (h : StandsFor vol path q) : RealPath vol path q
  | encoded {q dst : CString} (h : RealPath vol path q) (hdst : Converts vol q dst) :
      RealPath vol path dst
  | converted {dst q : CString} (hdst : Converts vol path dst) (h : StandsFor vol dst q) :
      RealPath vol path q

/-- A name that an operation may send. -/
inductive Legitimate (vol : Volume) (paths : List CString) : CString → Prop
  | real {path q name : CString} (hpath : path ∈ paths) (hreal : RealPath vol path q)
      (hname : name ∈ components slash q) : Legitimate vol paths name
  | volume {name : CString} (h : name ∈ namesOf (vol.volumeName.take (AFP_MAX_PATH - 1))) :
      Legitimate vol paths name

/-- The entries in the reply to an event that lists a directory. -/
def listing : (e : Effect) × e.Answer → List AfpFileInfo
  | ⟨.request (.enumerate ..), reply⟩ => reply.stored.getD []
  | ⟨.request (.enumerateExt2 ..), reply⟩ => reply.stored.getD []
  | _ => []

/-- The server has sent the name in a listing. -/
def Listed (vol : Volume) (tr : List ((e : Effect) × e.Answer)) (name : CString) : Prop :=
  ∃ ev ∈ tr, ∃ fp ∈ listing ev, ∃ ret path,
    convertPathToUnix vol.server.pathEncoding fp.name AFP_MAX_PATH = some (ret, path) ∧
      name ∈ namesOf path

/-- Every name that the operation sends is legitimate or was listed, in every run so far. -/
def Sealed (vol : Volume) (op : Operation) : Prop :=
  ∀ fuel tr q, Prog.Steps (op.run vol fuel) tr q → ∀ ev ∈ tr,
    Named (fun name => Legitimate vol op.paths name ∨ Listed vol tr name) ev.1

/-- The path has a name that the operation may not send. -/
def Exposed (vol : Volume) (op : Operation) (path : CString) : Prop :=
  ∃ name ∈ components slash path, ¬ Legitimate vol op.paths name

/-- The operation reaches the server with a path that has such a name. -/
def Leaks (vol : Volume) (op : Operation) : Prop :=
  match op with
  | .creat path _ => ∃ dst beyond, Converts vol path dst ∧ volumeIsReadonly vol = false ∧
      (extraTranslate vol path beyond).1 = .comment ∧ invalidFilename vol.server dst = false ∧
      Exposed vol op dst
  | .chmod path _ => invalidFilename vol.server path = false ∧ volumeIsReadonly vol = false ∧
      vol.has VOLUME_EXTRA_FLAGS_VOL_SUPPORTS_UNIX = false ∧
      vol.has VOLUME_EXTRA_FLAGS_IGNORE_UNIXPRIVS = true ∧ Fits path ∧ Exposed vol op path
  | .readdir path => ∃ dst beyond, Converts vol path dst ∧
      (extraTranslate vol dst beyond).1 = .finderinfo ∧ invalidFilename vol.server dst = false ∧
      Exposed vol op dst
  | .rename pathFrom pathTo => ∃ src dst, Converts vol pathFrom src ∧ Converts vol pathTo dst ∧
      volumeIsReadonly vol = false ∧ (Exposed vol op src ∨ Exposed vol op dst)
  | .symlink path1 path2 => 30 ≤ vol.server.avNumber ∧ ∃ src dst beyond,
      Converts vol path1 src ∧ Converts vol path2 dst ∧ volumeIsReadonly vol = false ∧
      (extraTranslate vol path1 beyond).1 = .none ∧ Exposed vol op dst
  | _ => False

/-! ## Naming -/

section Naming

variable {S : CString → Prop} {α β : Type}

/-- The program only sends names in `S`. -/
abbrev Names (S : CString → Prop) (p : AfpM α) : Prop := Prog.AllActs (Named S) p

/-- All names of the pathname are in `S`. -/
def NamesIn (S : CString → Prop) (pathname : CString) : Prop := ∀ name ∈ namesOf pathname, S name

theorem names_ite {c : Prop} [Decidable c] {p q : AfpM α} (hp : c → Names S p)
    (hq : ¬ c → Names S q) : Names S (if c then p else q) :=
  Prog.allActs_ite.mpr ⟨hp, hq⟩

theorem named_of_quiet {e : Effect} (h : names e = []) : Named S e := fun name hname => by
  rw [h] at hname
  exact absurd hname List.not_mem_nil

/-- A request with one pathname. -/
theorem named_of_pathname {r : Request} {pathname : CString} (hr : pathnames r = [pathname])
    (h : NamesIn S pathname) : Named S (.request r) := fun name hname => by
  rw [names, hr, List.flatMap_singleton] at hname
  exact h name hname

/-- A move has up to three pathnames. -/
theorem named_of_move {srcDid dstDid : UInt32} {srcPath newName : CString}
    {dstPath : Option CString} (hsrc : NamesIn S srcPath) (hnew : NamesIn S newName)
    (hdst : ∀ p ∈ dstPath, NamesIn S p) :
    Named S (.request (.moveAndRename srcDid dstDid srcPath dstPath newName)) := by
  intro name hname
  obtain ⟨p, hp, hmem⟩ := List.mem_flatMap.mp hname
  rcases List.mem_cons.mp hp with heq | hp
  · exact hsrc name (heq ▸ hmem)
  rcases List.mem_cons.mp hp with heq | hp
  · exact hnew name (heq ▸ hmem)
  · exact hdst p (Option.mem_toList.mp hp) name hmem

theorem names_perform {e : Effect} (h : Named S e) : Names S (perform e) := ⟨h, fun _ => trivial⟩

theorem names_quiet {e : Effect} (h : names e = []) : Names S (perform e) :=
  names_perform (named_of_quiet h)

theorem names_ofOption (o : Option α) : Names S (ofOption o) := by
  cases o with
  | none => exact trivial
  | some a => exact trivial

theorem names_requestRc {r : Request} (h : Named S (.request r)) : Names S (requestRc r) :=
  .bind (names_perform h) fun _ => trivial

theorem names_bind_ofOption {o : Option α} {f : α → AfpM β} (hf : ∀ a, o = some a → Names S (f a)) :
    Names S (ofOption o >>= f) := by
  cases o with
  | none => exact trivial
  | some a => exact hf a rfl

theorem components_slash_cons {name : CString} (hname : slash ∉ name) :
    components slash (slash :: name) = [name] := by
  have hsep : Separated slash [name] := fun part hpart => by
    rw [List.mem_singleton.mp hpart]
    exact hname
  rw [← joinPath_singleton, components_joinPath hsep]

/-- A single component is its own name, with a separator in front or without. -/
theorem namesOf_component {name : CString} (hname : slash ∉ name) : namesOf name = [name] := by
  have hhead : name.head? ≠ some slash := fun h => hname (List.mem_of_mem_head? h)
  rw [namesOf, requestedName, if_neg hhead, components_slash_cons hname]

theorem namesOf_slash_component {name : CString} (hname : slash ∉ name) :
    namesOf (slash :: name) = [name] := components_slash_cons hname

/-- The names of an absolute path are its components. -/
theorem namesOf_absolute {path : CString} (hpath : path.head? = some slash) :
    namesOf path = components slash path := by
  obtain ⟨rest, rfl⟩ : ∃ rest, path = slash :: rest := by
    cases path with
    | nil => exact absurd hpath (by simp)
    | cons b rest => exact ⟨rest, by rw [Option.some.inj hpath]⟩
  rfl

/-- The way back sends nothing, and ends between two components. -/
theorem named_topmostParent (names : List CString) (hsep : Separated slash names)
    (hne : names ≠ []) :
    Names S (topmostParent (joinPath slash names)) ∧
      Prog.Ensures (fun _ => True) (fun res => ∃ pre mid, names = pre ++ mid ∧
        res.2 = (joinPath slash pre).length) (topmostParent (joinPath slash names)) := by
  induction names using List.reverseRecOn with
  | nil => exact absurd rfl hne
  | append_singleton names last ih =>
    have hlast : slash ∉ last := hsep last (by simp)
    have hnames : Separated slash names := fun part hpart => hsep part (by simp [hpart])
    rw [joinPath_concat]
    have hpos := @strrchr_append _ slash _ (joinPath slash names) last hlast
    cases hlen : (joinPath slash names).length with
    | zero =>
      rw [hlen] at hpos
      rw [topmostParent_zero hpos]
      exact ⟨trivial, [], names ++ [last], rfl, rfl⟩
    | succ p =>
      rw [hlen] at hpos
      have htake : (joinPath slash names ++ slash :: last).take (p + 1) = joinPath slash names := by
        rw [← hlen, List.take_left]
      have hne' : names ≠ [] := fun h => by
        rw [h, joinPath_nil] at hlen
        exact absurd hlen (by simp)
      obtain ⟨ihnames, ihres⟩ := ih hnames hne'
      rw [topmostParent_succ hpos, htake]
      refine ⟨.bind (names_quiet rfl) fun did => names_ite (fun _ => trivial) fun _ => ihnames, ?_⟩
      intro (did : UInt32) _
      change Prog.Ensures _ _ (if did ≠ 0 then pure (did, p + 1)
        else topmostParent (joinPath slash names))
      by_cases hfound : did = 0
      · rw [if_neg (not_not.mpr hfound)]
        refine ihres.mono ?_
        rintro res ⟨pre, mid, rfl, hres⟩
        exact ⟨pre, mid ++ [last], List.append_assoc .., hres⟩
      · rw [if_pos hfound]
        exact ⟨names, [last], rfl, hlen.symm⟩

/-- The way forward names the components between. -/
theorem named_walkForward (mid : List CString) {pre : List CString} {last : CString}
    (hsep : Separated slash (pre ++ mid ++ [last])) (hmid : ∀ name ∈ mid, S name) (did : UInt32)
    (fi : AfpFileInfo) :
    Names S (walkForward (joinPath slash (pre ++ mid ++ [last])) did (joinPath slash pre).length
      fi) := by
  induction mid generalizing pre did fi with
  | nil =>
    have hlast : slash ∉ last := hsep last (by simp)
    have hpos : strchr (joinPath slash (pre ++ [] ++ [last])) ((joinPath slash pre).length + 1)
        slash = none := by
      have h := @strchr_eq_none _ slash _ (joinPath slash pre ++ [slash]) last hlast
      rw [List.length_append, List.length_singleton] at h
      rw [List.append_nil, joinPath_concat, ← h, List.append_assoc, List.singleton_append]
    rw [walkForward_none hpos]
    exact trivial
  | cons name mid ih =>
    obtain ⟨hS, hmid⟩ := List.forall_mem_cons.mp hmid
    have hname : slash ∉ name := hsep name (by simp)
    have hassoc : pre ++ name :: mid ++ [last] = (pre ++ [name]) ++ mid ++ [last] := by simp
    obtain ⟨hpos, hcopy, htake⟩ := positions (hassoc ▸ hsep)
    have hlen : (joinPath slash pre).length + 1 + name.length =
        (joinPath slash (pre ++ [name])).length := by
      rw [joinPath_concat, List.length_append, List.length_cons]
      omega
    rw [hassoc, walkForward_some hpos, hcopy, htake, hlen]
    refine .bind (names_perform (named_of_pathname rfl ?_)) fun reply => ?_
    · intro name' hname'
      rw [namesOf_slash_component hname, List.mem_singleton] at hname'
      exact hname' ▸ hS
    · refine names_ite (fun _ => .bind (names_quiet rfl) fun _ => ?_) fun _ => trivial
      exact ih (hassoc ▸ hsep) hmid _ _

/-- **A resolution only names components of its path**, and gives the last of them. -/
theorem named_getDirid {path : CString} (hpath : path.head? = some slash)
    (hS : ∀ name ∈ components slash path, S name) (basename : CString) (dirid : UInt32) :
    Names S (getDirid path basename dirid) ∧
      Prog.Ensures (fun _ => True) (fun found => found.2.1 = lastComponent path)
        (getDirid path basename dirid) := by
  obtain ⟨names, last, hsep, rfl⟩ := exists_names hpath
  rw [components_joinPath hsep] at hS
  have hnames : Separated slash names := fun part hpart => hsep part (by simp [hpart])
  have hlast := (lastComponent_joinPath hsep).symm
  rw [getDirid_joinPath hsep]
  split
  · exact ⟨trivial, trivial⟩
  split
  · exact ⟨trivial, hlast⟩
  next hnil =>
  split
  · exact ⟨trivial, trivial⟩
  obtain ⟨hback, hposition⟩ := @named_topmostParent S names hnames hnil
  constructor
  · refine .bind (names_quiet rfl) fun newdid => names_ite (fun _ => trivial) fun _ => ?_
    refine hback.bind_of hposition ?_
    rintro ⟨parent, pos⟩ ⟨pre, mid, rfl, rfl⟩
    refine .bind (names_quiet rfl) fun fi => .bind ?_ fun _ => trivial
    exact named_walkForward mid hsep (fun name hname => hS name (by simp [hname])) _ _
  · intro (newdid : UInt32) _
    change Prog.Ensures _ _ (if newdid ≠ 0 then pure (0, last, newdid) else _)
    by_cases hfound : newdid = 0
    · rw [if_neg (not_not.mpr hfound)]
      refine hposition.bind fun parent _ (fi : AfpFileInfo) _ => ?_
      have hall : Prog.Ensures (fun _ => True) (fun _ : UInt32 => True)
          (walkForward (joinPath slash (names ++ [last])) parent.1 parent.2 fi) :=
        Prog.ensures_of_forall (fun _ => trivial) _
      exact hall.bind fun _ _ => hlast
    · rw [if_pos hfound]
      exact hlast

theorem namesIn_lastComponent {path : CString} (hpath : path.head? = some slash)
    (hS : ∀ name ∈ components slash path, S name) : NamesIn S (lastComponent path) := by
  obtain ⟨names, last, hsep, rfl⟩ := exists_names hpath
  rw [components_joinPath hsep] at hS
  rw [lastComponent_joinPath hsep]
  intro name hname
  rw [namesOf_component (hsep last (by simp)), List.mem_singleton] at hname
  exact hname ▸ hS last (by simp)

theorem names_bind_getDirid {path basename : CString} {dirid : UInt32}
    {f : ℤ × CString × UInt32 → AfpM β} (hpath : path.head? = some slash)
    (hS : ∀ name ∈ components slash path, S name)
    (hf : ∀ ret name did, NamesIn S name → Names S (f (ret, name, did))) :
    Names S (getDirid path basename dirid >>= f) := by
  obtain ⟨hnames, hlast⟩ := named_getDirid hpath hS basename dirid
  refine hnames.bind_of hlast ?_
  rintro ⟨ret, name, did⟩ rfl
  exact hf ret _ did (namesIn_lastComponent hpath hS)

theorem names_bind_resolve {path : CString} {f : ℤ × CString × UInt32 → AfpM β}
    (hpath : path.head? = some slash) (hS : ∀ name ∈ components slash path, S name)
    (hf : ∀ ret name did, NamesIn S name → Names S (f (ret, name, did))) :
    Names S (resolve path >>= f) :=
  ⟨named_of_quiet rfl, fun _ => ⟨named_of_quiet rfl, fun _ => names_bind_getDirid hpath hS hf⟩⟩

/-! ## Low level operations -/

theorem names_isDir {path : CString} (h : NamesIn S path) (did : UInt32) :
    Names S (isDir did path) := by
  refine .bind (names_quiet rfl) fun fi => .bind (names_perform (named_of_pathname rfl h)) fun _ => ?_
  exact names_ite (fun _ => trivial) fun _ => trivial

theorem names_llGetDirectoryEntry {basename : CString} (h : NamesIn S basename) (did : UInt32)
    (filebitmap dirbitmap : ℕ) (p : AfpFileInfo) :
    Names S (llGetDirectoryEntry basename did filebitmap dirbitmap p) :=
  .bind (names_perform (named_of_pathname rfl h)) fun _ => trivial

theorem names_getUnixprivs {basename : CString} (h : NamesIn S basename) (did : UInt32)
    (fp : AfpFileInfo) : Names S (getUnixprivs did basename fp) :=
  .bind (names_llGetDirectoryEntry h ..) fun _ => trivial

theorem names_setUnixprivs (vol : Volume) {basename : CString} (h : NamesIn S basename)
    (did : UInt32) (fp : AfpFileInfo) : Names S (setUnixprivs vol did basename fp) := by
  refine names_ite (fun _ => trivial) fun _ => .bind (names_quiet rfl) fun flags => ?_
  refine .bind ?_ fun rc => .bind (names_quiet rfl) fun flags' => ?_
  · exact names_ite (fun _ => names_requestRc (named_of_pathname rfl h))
      fun _ => names_requestRc (named_of_pathname rfl h)
  refine names_ite (fun _ => .bind (names_quiet rfl) fun fp2 => ?_) fun _ => trivial
  refine .bind (names_getUnixprivs h did fp2) fun res => names_ite (fun _ => trivial) fun _ => ?_
  refine .bind (names_quiet rfl) fun _ => .bind (names_quiet rfl) fun _ => ?_
  refine .bind (names_quiet rfl) fun _ => ?_
  exact names_ite (fun _ => .bind (names_quiet rfl) fun _ => trivial)
    fun _ => .bind (names_quiet rfl) fun _ => trivial

theorem names_llZeroFile (vol : Volume) (forkid : UInt16) (resource : Bool) :
    Names S (llZeroFile vol forkid resource) := by
  refine .bind (names_requestRc (named_of_quiet rfl)) fun ret => ?_
  refine names_ite (fun _ => trivial) fun _ => names_ite (fun _ => trivial) fun _ => ?_
  exact names_ite (fun _ => trivial) fun _ => names_ite (fun _ => trivial) fun _ => trivial

theorem names_openDesktop : Names S openDesktop := by
  refine .bind (names_quiet rfl) fun reply => ?_
  split
  · exact .bind (names_quiet rfl) fun _ => trivial
  · exact trivial

theorem names_llGetattr (vol : Volume) {path : CString} (hpath : path.head? = some slash)
    (hS : ∀ name ∈ components slash path, S name)
    (hvolume : NamesIn S (vol.volumeName.take (AFP_MAX_PATH - 1))) (resource : Bool) :
    Names S (llGetattr vol path resource) := by
  refine names_ite (fun _ => trivial) fun _ => .bind (names_quiet rfl) fun fp => ?_
  refine names_bind_resolve hpath hS fun ret name did hname => ?_
  refine names_ite (fun _ => trivial) fun _ => ?_
  extract_lets old unix root basename dirid privbits idbits forkbit dirbitmap filebitmap
  have hbasename : NamesIn S basename := by
    by_cases hroot : root = true
    · simp only [basename, if_pos hroot]
      exact hvolume
    · simp only [basename, if_neg hroot]
      exact hname
  clear_value basename
  refine .bind (names_perform (named_of_pathname rfl hbasename)) fun reply => ?_
  refine names_ite (fun _ => trivial) fun _ => ?_
  exact names_ite (fun _ => trivial) fun _ => trivial

theorem names_readdirLoop (vol : Volume) (dirid : UInt32) (filebitmap dirbitmap : ℕ)
    {basename : CString} (h : NamesIn S basename) (fuel startindex : ℕ)
    (filebase : List AfpFileInfo) :
    Names S (readdirLoop vol dirid filebitmap dirbitmap basename fuel startindex filebase) := by
  induction fuel generalizing startindex filebase with
  | zero => exact trivial
  | succ fuel ih =>
    refine .bind ?_ fun reply => ?_
    · exact names_ite (fun _ => names_perform (named_of_pathname rfl h))
        fun _ => names_perform (named_of_pathname rfl h)
    refine names_ite (fun _ => trivial) fun _ => names_ite (fun _ => ih _ _) fun _ => ?_
    refine names_ite (fun _ => trivial) fun _ => names_ite (fun _ => trivial) fun _ => ?_
    refine names_ite (fun _ => trivial) fun _ => names_ite (fun _ => trivial) fun _ => ?_
    exact ih _ _

theorem names_llReaddir (vol : Volume) {path : CString} (hpath : path.head? = some slash)
    (hS : ∀ name ∈ components slash path, S name) (resource : Bool) (fuel : ℕ) :
    Names S (llReaddir vol path resource fuel) := by
  refine names_ite (fun _ => trivial) fun _ => ?_
  refine names_bind_resolve hpath hS fun ret name did hname => ?_
  refine names_ite (fun _ => trivial) fun _ => ?_
  refine .bind (names_readdirLoop vol did _ _ hname ..) fun res => ?_
  exact names_ite (fun _ => trivial) fun _ => .bind (names_ofOption _) fun _ => trivial

theorem names_getCommentSize {basename : CString} (h : NamesIn S basename) (did : UInt32) :
    Names S (getCommentSize basename did) := by
  refine .bind (names_quiet rfl) fun refnum => .bind ?_ fun opened => ?_
  · exact names_ite (fun _ => names_openDesktop) fun _ => trivial
  refine names_ite (fun _ => trivial) fun _ => ?_
  refine .bind (names_perform (named_of_pathname rfl h)) fun reply => ?_
  refine names_ite (fun _ => trivial) fun _ => names_ite (fun _ => trivial) fun _ => ?_
  exact names_ite (fun _ => trivial) fun _ => names_ite (fun _ => trivial) fun _ => trivial

/-- The entries of a listing, whose comments are asked for by their names. -/
theorem names_listLoop (entries kept newchain : List AfpFileInfo)
    (h : ∀ fp ∈ entries, NamesIn S fp.name) : Names S (listLoop entries kept newchain) := by
  induction entries generalizing kept newchain with
  | nil => exact trivial
  | cons fp rest ih =>
    obtain ⟨hfp, hrest⟩ := List.forall_mem_cons.mp h
    refine .bind ?_ fun opened => .bind ?_ fun newchain' => ih _ _ hrest
    · exact .bind (names_quiet rfl) fun refnum => names_ite (fun _ => trivial)
        fun _ => names_openDesktop
    · refine names_ite (fun _ => .bind (names_getCommentSize hfp _) fun size => ?_) fun _ => trivial
      exact names_ite (fun _ => trivial) fun _ => trivial

end Naming

/-! ## Translated paths -/

section Translated

variable {vol : Volume} {path beyond q : CString}

theorem head?_tagEnding {newpath : CString} (h : newpath.head? = some slash) :
    ∃ kind q, tagEnding newpath = (kind, some q) ∧ q.head? = some slash := by
  have hcut : ∀ {suffix}, endsIn suffix newpath = true → (cut suffix newpath).head? = some slash := by
    intro suffix hends
    rw [endsIn, Bool.and_eq_true, decide_eq_true_iff] at hends
    rw [cut, List.head?_take, if_neg (by omega), h]
  rw [tagEnding]
  split
  next hends => exact ⟨_, _, rfl, hcut hends⟩
  split
  next hends => exact ⟨_, _, rfl, hcut hends⟩
  · exact ⟨_, _, rfl, h⟩

/-- An absolute path is ordinary, the icon of the server, or stands for an absolute path. -/
theorem extraTranslate_cases (hpath : path.head? = some slash) (vol : Volume) (beyond : CString) :
    extraTranslate vol path beyond = (.none, none) ∨
      extraTranslate vol path beyond = (.serverIcon, none) ∨
        ∃ kind q, extraTranslate vol path beyond = (kind, some q) ∧ q.head? = some slash := by
  rw [extraTranslate]
  split
  · exact .inl rfl
  split
  · exact .inr (.inl rfl)
  split
  · exact .inl rfl
  split
  · exact .inl rfl
  split
  · refine .inr (.inr ⟨_, _, rfl, ?_⟩)
    by_cases hlength : path.length = appledouble.length + 1
    · rw [if_pos hlength]
      rfl
    · rw [if_neg hlength, List.head?_take, if_neg (by omega), hpath]
  split
  next p hp =>
    refine .inr (.inr (head?_tagEnding ?_))
    rcases strstr_cases appledouble path with ⟨hnone, -⟩ | ⟨a, b, heq, hsome, -⟩
    · exact absurd (hnone.symm.trans hp) (by simp)
    · -- the occurrence is not at the front
      obtain rfl : a.length = p := Option.some.inj (hsome.symm.trans hp)
      have hne : a ≠ [] := fun hnil => by
        rw [heq, hnil, List.nil_append, List.head?_append] at hpath
        exact absurd (show some (0x2e : UInt8) = some slash from hpath) (by decide)
      have hpos := List.length_pos_of_ne_nil hne
      have hhead : (path.take a.length).head? = some slash := by
        rw [List.head?_take, if_neg (by omega), hpath]
      rw [splice, List.head?_append, hhead]
      rfl
  · exact .inl rfl

theorem head?_of_converts (hpath : path.head? = some slash) (h : Converts vol path q) :
    q.head? = some slash := head?_convertPathToAfp (by decide) hpath h

/-- **A path and its conversion are virtual together.** -/
theorem plain_of_converts (hpath : path.head? = some slash) {dst : CString}
    (hdst : Converts vol path dst) (h : (extraTranslate vol dst beyond).1 = .none)
    (beyond' : CString) : (extraTranslate vol path beyond').1 = .none := by
  cases hshow : vol.has VOLUME_EXTRA_FLAGS_SHOW_APPLEDOUBLE with
  | false => rw [extraTranslate, if_pos hshow]
  | true =>
    obtain ⟨hicon, hinfix⟩ :=
      (extraTranslate_eq_none_iff hshow (head?_convertPathToAfp (by decide) hpath hdst) beyond).mp h
    refine (extraTranslate_eq_none_iff hshow hpath beyond').mpr ⟨?_, ?_⟩
    · rintro rfl
      rcases (convertPathToAfp_cases hdst).2 with rfl | rfl
      · exact hicon rfl
      · exact hicon (by decide)
    · intro hoccurs
      rcases (convertPathToAfp_cases hdst).2 with rfl | rfl
      · exact hinfix hoccurs
      · refine hinfix ((infix_convertUtf8preToUtf8dec_iff ?_ path).mpr hoccurs)
        exact List.forall_iff_forall_mem.mp (by decide)

variable {paths : List CString}

/-- The names of the real path are legitimate. -/
theorem legitimate_of_realPath (hmem : path ∈ paths) (h : RealPath vol path q) :
    ∀ name ∈ components slash q, Legitimate vol paths name :=
  fun _ hname => .real hmem h hname

theorem legitimate_volume : NamesIn (Legitimate vol paths) (vol.volumeName.take (AFP_MAX_PATH - 1)) :=
  fun _ hname => .volume hname

/-- What a hook finds out: the path is ordinary, or the icon, or stands for another one. -/
theorem names_bind_translated {S : CString → Prop} {α : Type} {f : AfpMeta × CString → AfpM α}
    (hpath : path.head? = some slash)
    (hplain : StandsFor vol path path → Names S (f (.none, [])))
    (hicon : Names S (f (.serverIcon, [])))
    (hvirtual : ∀ beyond kind q, extraTranslate vol path beyond = (kind, some q) →
      q.head? = some slash → Names S (f (kind, q))) :
    Names S (translated vol path >>= f) := by
  refine ⟨named_of_quiet rfl, fun (beyond : CString) => ?_⟩
  change Names S (f ((extraTranslate vol path beyond).1, (extraTranslate vol path beyond).2.getD []))
  rcases extraTranslate_cases hpath vol beyond with heq | heq | ⟨kind, q, heq, hhead⟩
  · rw [heq]
    exact hplain (.plain (congrArg Prod.fst heq))
  · rw [heq]
    exact hicon
  · rw [heq]
    exact hvirtual beyond kind q heq hhead

theorem ensures_bind_translated {α : Type} {Q : α → Prop} {f : AfpMeta × CString → AfpM α}
    (hf : ∀ beyond kind q, extraTranslate vol path beyond = (kind, q) →
      Prog.Ensures (fun _ => True) Q (f (kind, q.getD []))) :
    Prog.Ensures (fun _ => True) Q (translated vol path >>= f) :=
  fun beyond _ => hf beyond _ _ rfl

/-- A hook that refuses: only an ordinary path passes. -/
theorem names_bind_refuseVirtual {S : CString → Prop} {α : Type} {f : ℤ → AfpM α}
    (hrefused : Names S (f (-EPERM)))
    (hplain : ∀ beyond, (extraTranslate vol path beyond).1 = .none → Names S (f 0)) :
    Names S (refuseVirtual vol path >>= f) := by
  refine ⟨named_of_quiet rfl, fun (beyond : CString) => ?_⟩
  change Names S ((if (extraTranslate vol path beyond).1 = .none then pure 0 else pure (-EPERM)) >>= f)
  by_cases h : (extraTranslate vol path beyond).1 = .none
  · rw [if_pos h]
    exact hplain beyond h
  · rw [if_neg h]
    exact hrefused

end Translated

/-! ## Creating and opening files -/

section CreateOpen

variable {vol : Volume} {path : CString} {S : CString → Prop}

/-- What `appledouble_creat()` lets pass. -/
theorem names_bind_appledoubleCreat {α : Type} {f : ℤ → AfpM α}
    (hdone : ∀ ret : ℤ, ret < 0 ∨ ret = 1 → Names S (f ret))
    (hpass : ∀ beyond, (extraTranslate vol path beyond).1 = .none ∨
      (extraTranslate vol path beyond).1 = .comment → Names S (f 0)) :
    Names S (appledoubleCreat vol path >>= f) := by
  have htranslated : ∀ {g : AfpMeta × CString → AfpM α},
      (∀ beyond, Names S (g ((extraTranslate vol path beyond).1,
        (extraTranslate vol path beyond).2.getD []))) → Names S (translated vol path >>= g) :=
    fun hg => ⟨named_of_quiet rfl, hg⟩
  rw [appledoubleCreat, bind_assoc]
  refine htranslated fun beyond => ?_
  cases hkind : (extraTranslate vol path beyond).1 with
  | none => exact hpass beyond (.inl hkind)
  | resource => exact hdone 1 (.inr rfl)
  | appledouble => exact hdone (-EBADF) (.inl (by decide))
  | finderinfo => exact hdone 1 (.inr rfl)
  | comment => exact hpass beyond (.inr hkind)
  | serverIcon => exact hdone (-EPERM) (.inl (by decide))

theorem names_afpMlCreat (hpath : path.head? = some slash) (mode : UInt32)
    (h : ∀ dst beyond, Converts vol path dst → volumeIsReadonly vol = false →
      ((extraTranslate vol path beyond).1 = .none ∨
        (extraTranslate vol path beyond).1 = .comment) →
      invalidFilename vol.server dst = false → ∀ name ∈ components slash dst, S name) :
    Names S (afpMlCreat vol path mode) := by
  refine names_bind_ofOption fun ⟨ret, dst⟩ hconvert => names_ite (fun _ => trivial) fun hret => ?_
  obtain rfl : ret = 0 := not_not.mp hret
  refine names_ite (fun _ => trivial) fun hreadonly => ?_
  refine names_bind_appledoubleCreat (fun ret hret => ?_) fun beyond hkind => ?_
  · refine names_ite (fun _ => trivial) fun hneg => names_ite (fun _ => trivial) fun hone => ?_
    exact absurd (hret.resolve_left hneg) hone
  refine names_ite (fun _ => trivial) fun _ => names_ite (fun _ => trivial) fun _ => ?_
  refine names_ite (fun _ => trivial) fun hinvalid => ?_
  have hS := h dst beyond hconvert (eq_false_of_ne_true hreadonly) hkind
    (eq_false_of_ne_true hinvalid)
  refine names_bind_resolve (head?_of_converts hpath hconvert) hS fun _ basename did hname => ?_
  refine .bind (names_requestRc (named_of_pathname rfl hname)) fun rc => ?_
  refine names_ite (fun _ => trivial) fun _ => names_ite (fun _ => trivial) fun _ => ?_
  refine .bind (names_quiet rfl) fun fp => .bind (names_getUnixprivs hname _ _) fun res => ?_
  refine names_ite (fun _ => trivial) fun _ => names_ite (fun _ => trivial) fun _ => ?_
  refine .bind (names_setUnixprivs vol hname _ _) fun res' => ?_
  refine names_ite (fun _ => trivial) fun _ => names_ite (fun _ => trivial) fun _ => ?_
  exact names_ite (fun _ => trivial) fun _ => trivial

/-- A path that was translated already is the real one, whatever is made of it. -/
theorem names_openLoop (hpath : path.head? = some slash)
    (h : ∀ dst, Converts vol path dst → ∀ name ∈ components slash dst, S name)
    (flags aflags fuel : ℕ) (fp : AfpFileInfo) (hfp : NamesIn S fp.basename) :
    Names S (openLoop vol path flags aflags fuel fp) := by
  induction fuel generalizing fp with
  | zero => exact trivial
  | succ fuel ih =>
    refine .bind (names_perform (named_of_pathname rfl hfp)) fun reply => ?_
    refine names_ite (fun _ => ?_) fun _ => trivial
    refine .bind (names_afpMlCreat hpath _ fun dst _ hdst _ _ _ => h dst hdst) fun created => ?_
    exact names_ite (fun _ => ih _ hfp) fun _ => trivial

/-- The structure is read again, but the name in it is kept. -/
theorem named_checkSize (vol : Volume) (flags : ℕ) (fp : AfpFileInfo)
    (hfp : NamesIn S fp.basename) :
    Names S (checkSize vol flags fp) ∧
      Prog.Ensures (fun _ => True) (fun res => NamesIn S res.2.basename)
        (checkSize vol flags fp) := by
  constructor
  · refine names_ite (fun _ => .bind (names_llGetDirectoryEntry hfp ..) fun res => ?_)
      fun _ => trivial
    exact names_ite (fun _ => trivial) fun _ => names_ite (fun _ => trivial) fun _ => trivial
  · refine Prog.ensures_ite (fun _ => fun reply _ => ?_) fun _ => hfp
    exact Prog.ensures_ite (fun _ => hfp) fun _ => Prog.ensures_ite (fun _ => hfp) fun _ => hfp

theorem names_llOpen (hpath : path.head? = some slash)
    (h : ∀ dst, Converts vol path dst → ∀ name ∈ components slash dst, S name)
    (flags : ℕ) (handle : Handle) (fp : AfpFileInfo) (fuel : ℕ) (hfp : NamesIn S fp.basename) :
    Names S (llOpen vol path flags handle fp fuel) := by
  refine names_ite (fun _ => trivial) fun _ => names_ite (fun _ => trivial) fun _ => ?_
  refine .bind ?_ fun _ => ?_
  · exact names_ite (fun _ => names_requestRc (named_of_pathname rfl hfp)) fun _ => trivial
  obtain ⟨hnames, hkept⟩ := named_checkSize vol flags
    { fp with sync := (flags &&& (O_SYNC ||| O_DIRECT)) % 256 ≠ 0 } hfp
  refine hnames.bind_of hkept fun res hres => names_ite (fun _ => trivial) fun _ => ?_
  refine .bind (names_openLoop hpath h _ _ _ _ hres) fun opened => ?_
  refine names_ite (fun _ => trivial) fun _ => .bind (names_quiet rfl) fun _ => ?_
  exact names_ite (fun _ => .bind (names_llZeroFile ..) fun _ => trivial) fun _ => trivial

end CreateOpen

/-! ## The operations that are sealed -/

section Operations

variable {vol : Volume} {path : CString} {paths : List CString}

/-- What `appledouble_open()` leaves to `afp_ml_open()` is ordinary. -/
theorem named_appledoubleOpen (hpath : path.head? = some slash) (hmem : path ∈ paths)
    (flags : ℕ) (handle : Handle) (fp : AfpFileInfo) (fuel : ℕ) :
    Names (Legitimate vol paths) (appledoubleOpen vol path flags handle fp fuel) ∧
      Prog.Ensures (fun _ => True) (fun res => res.1 < 0 ∨ res.1 = 1 ∨ StandsFor vol path path)
        (appledoubleOpen vol path flags handle fp fuel) := by
  constructor
  · refine names_bind_translated hpath (fun _ => trivial) trivial fun beyond kind q heq hq => ?_
    have hreal : RealPath vol path q := .translated (.virtual (congrArg Prod.snd heq))
    have hS := legitimate_of_realPath hmem hreal
    cases kind with
    | none => exact trivial
    | serverIcon => exact trivial
    | appledouble => exact trivial
    | resource =>
      refine names_bind_getDirid hq hS fun ret name did hname => names_ite (fun _ => trivial) fun _ => ?_
      refine .bind (names_llOpen hq
        (fun dst hdst => legitimate_of_realPath hmem (.encoded hreal hdst)) _ _ _ _ hname) fun res => ?_
      exact names_ite (fun _ => trivial) fun _ => trivial
    | finderinfo =>
      refine names_bind_getDirid hq hS fun ret name did hname => ?_
      exact names_ite (fun _ => trivial) fun _ => trivial
    | comment =>
      refine names_bind_getDirid hq hS fun ret name did hname => names_ite (fun _ => trivial) fun _ => ?_
      refine .bind (names_quiet rfl) fun refnum => names_ite (fun _ => ?_) fun _ => trivial
      exact .bind names_openDesktop fun rc => names_ite (fun _ => trivial) fun _ => trivial
  · have hall : ∀ {α : Type} {p : AfpM α}, Prog.Ensures (fun _ => True) (fun _ => True) p :=
      Prog.ensures_of_forall (fun _ => trivial) _
    have hnoent : -ENOENT < 0 := by decide
    refine ensures_bind_translated fun beyond kind q heq => ?_
    cases kind with
    | none => exact .inr (.inr (.plain (congrArg Prod.fst heq)))
    | serverIcon => exact .inr (.inl rfl)
    | appledouble => exact .inl (by decide : -EISDIR < 0)
    | resource =>
      refine hall.bind fun found _ => Prog.ensures_ite (fun _ => .inl hnoent) fun _ => ?_
      exact hall.bind fun res _ => Prog.ensures_ite (fun hneg => .inl hneg) fun _ => .inr (.inl rfl)
    | finderinfo =>
      exact hall.bind fun found _ =>
        Prog.ensures_ite (fun _ => .inl hnoent) fun _ => .inr (.inl rfl)
    | comment =>
      refine hall.bind fun found _ => Prog.ensures_ite (fun _ => .inl hnoent) fun _ => ?_
      refine hall.bind fun refnum _ => Prog.ensures_ite (fun _ => ?_) fun _ => .inr (.inl rfl)
      exact hall.bind fun rc _ =>
        Prog.ensures_ite (fun _ => .inl (by decide : - EIO < 0)) fun _ => .inr (.inl rfl)

theorem names_afpMlOpen (hpath : path.head? = some slash) (hmem : path ∈ paths)
    (flags fuel : ℕ) : Names (Legitimate vol paths) (afpMlOpen vol path flags fuel) := by
  refine names_bind_ofOption fun ⟨ret, dst⟩ hconvert => names_ite (fun _ => trivial) fun hret => ?_
  obtain rfl : ret = 0 := not_not.mp hret
  refine names_ite (fun _ => trivial) fun _ => names_ite (fun _ => trivial) fun _ => ?_
  refine .bind (names_quiet rfl) fun allocated => ?_
  cases allocated with
  | none => exact trivial
  | some handle =>
    obtain ⟨hnames, hplain⟩ := named_appledoubleOpen hpath hmem flags handle .zero fuel
    refine hnames.bind_of hplain fun res hres => ?_
    refine names_ite (fun _ => trivial) fun hneg => names_ite (fun _ => trivial) fun hone => ?_
    have hreal : RealPath vol path dst :=
      .encoded (.translated ((hres.resolve_left hneg).resolve_left hone)) hconvert
    have hdst := head?_of_converts hpath hconvert
    have hS := legitimate_of_realPath hmem hreal
    refine .bind (names_quiet rfl) fun garbage => ?_
    refine names_bind_getDirid hdst hS fun ret name did hname => names_ite (fun _ => trivial) fun _ => ?_
    refine .bind (names_llOpen hdst
      (fun dst' hdst' => legitimate_of_realPath hmem (.encoded hreal hdst')) _ _ _ _ hname)
      fun opened => ?_
    exact names_ite (fun _ => .bind (names_quiet rfl) fun _ => trivial) fun _ => trivial

theorem names_afpMlTruncate (hpath : path.head? = some slash) (hmem : path ∈ paths) (fuel : ℕ) :
    Names (Legitimate vol paths) (afpMlTruncate vol path fuel) := by
  refine names_bind_ofOption fun ⟨ret, dst⟩ hconvert => names_ite (fun _ => trivial) fun _ => ?_
  refine names_ite (fun _ => trivial) fun _ => names_ite (fun _ => trivial) fun _ => ?_
  refine .bind ?_ fun ret => names_ite (fun _ => trivial) fun _ => names_ite (fun _ => trivial) fun _ => ?_
  · refine names_bind_translated hpath (fun _ => trivial) trivial fun beyond kind q heq hq => ?_
    have hreal : RealPath vol path q := .translated (.virtual (congrArg Prod.snd heq))
    cases kind with
    | resource =>
      refine .bind (names_quiet rfl) fun fp => ?_
      refine names_bind_resolve hq (legitimate_of_realPath hmem hreal) fun _ name did hname => ?_
      refine .bind (names_perform (named_of_pathname rfl hname)) fun reply => ?_
      refine .bind (names_llZeroFile ..) fun _ => ?_
      exact .bind (names_requestRc (named_of_quiet rfl)) fun _ => trivial
    | _ => exact trivial
  refine .bind (names_afpMlOpen hpath hmem _ _) fun opened => ?_
  obtain ⟨failed, newfp⟩ := opened
  cases newfp with
  | none => exact trivial
  | some file =>
    refine names_ite (fun _ => trivial) fun _ => .bind (names_llZeroFile ..) fun ret => ?_
    refine names_ite (fun _ => trivial) fun _ => ?_
    refine .bind (names_requestRc (named_of_quiet rfl)) fun _ => ?_
    exact .bind (names_quiet rfl) fun _ => .bind (names_quiet rfl) fun _ => trivial

/-- What `appledouble_getattr()` leaves to `afp_ml_getattr()` is ordinary. -/
theorem named_appledoubleGetattr {dst : CString} (hdst : dst.head? = some slash)
    (hmem : path ∈ paths) (hreal : ∀ q, StandsFor vol dst q → RealPath vol path q) :
    Names (Legitimate vol paths) (appledoubleGetattr vol dst) ∧
      Prog.Ensures (fun _ => True) (fun res => res.1 < 0 ∨ 0 < res.1 ∨
          ∃ beyond, (extraTranslate vol dst beyond).1 = .none)
        (appledoubleGetattr vol dst) := by
  constructor
  · refine names_bind_translated hdst (fun _ => trivial) trivial fun beyond kind q heq hq => ?_
    have hS := legitimate_of_realPath hmem (hreal q (.virtual (congrArg Prod.snd heq)))
    cases kind with
    | none => exact trivial
    | serverIcon => exact trivial
    | appledouble => exact trivial
    | resource => exact .bind (names_llGetattr vol hq hS legitimate_volume _) fun _ => trivial
    | finderinfo => exact .bind (names_llGetattr vol hq hS legitimate_volume _) fun _ => trivial
    | comment =>
      refine .bind (names_llGetattr vol hq hS legitimate_volume _) fun res => ?_
      refine names_ite (fun _ => trivial) fun _ => ?_
      refine names_bind_resolve hq hS fun _ name did hname => names_ite (fun _ => trivial) fun _ => ?_
      refine .bind (names_getCommentSize hname _) fun size => ?_
      exact names_ite (fun _ => trivial) fun _ => trivial
  · have hall : ∀ {α : Type} {p : AfpM α}, Prog.Ensures (fun _ => True) (fun _ => True) p :=
      Prog.ensures_of_forall (fun _ => trivial) _
    have hone : (0 : ℤ) < 1 := by decide
    refine ensures_bind_translated fun beyond kind q heq => ?_
    cases kind with
    | none => exact .inr (.inr ⟨beyond, congrArg Prod.fst heq⟩)
    | serverIcon => exact .inr (.inl hone)
    | appledouble => exact .inr (.inl hone)
    | resource => exact hall.bind fun _ _ => .inr (.inl hone)
    | finderinfo => exact hall.bind fun _ _ => .inr (.inl hone)
    | comment =>
      refine hall.bind fun res _ => Prog.ensures_ite .inl fun _ => ?_
      refine hall.bind fun found _ => Prog.ensures_ite .inl fun _ => ?_
      exact hall.bind fun size _ => Prog.ensures_ite .inl fun _ => .inr (.inl hone)

theorem names_afpMlGetattr (hpath : path.head? = some slash) (hmem : path ∈ paths) :
    Names (Legitimate vol paths) (afpMlGetattr vol path) := by
  refine names_bind_ofOption fun ⟨ret, dst⟩ hconvert => names_ite (fun _ => trivial) fun hret => ?_
  obtain rfl : ret = 0 := not_not.mp hret
  obtain ⟨hnames, hplain⟩ := named_appledoubleGetattr (head?_of_converts hpath hconvert) hmem
    fun q hq => .converted hconvert hq
  refine hnames.bind_of hplain fun res hres => names_ite (fun _ => trivial) fun hneg => ?_
  refine names_ite (fun _ => trivial) fun hpos => ?_
  obtain ⟨beyond, hkind⟩ := (hres.resolve_left hneg).resolve_left hpos
  have hstands : StandsFor vol path path := .plain (plain_of_converts hpath hconvert hkind [])
  exact names_llGetattr vol hpath (legitimate_of_realPath hmem (.translated hstands))
    legitimate_volume _

/-- A path that does not fit into the buffers is not looked up. -/
theorem getDirid_of_not_fits (hpath : path.head? = some slash) (h : ¬ Fits path)
    (basename : CString) (dirid : UInt32) : getDirid path basename dirid = .stuck := by
  obtain ⟨names, last, hsep, rfl⟩ := exists_names hpath
  rw [Fits, lastComponent_joinPath hsep, parents_joinPath hsep, not_and_or] at h
  rw [getDirid_joinPath hsep]
  rcases h with hlast | hparents
  · rw [if_pos (Nat.not_lt.mp hlast)]
  · have hnil : names ≠ [] := fun hnil => hparents (by rw [hnil]; decide)
    rw [if_neg hnil, if_pos (Nat.not_lt.mp hparents), ite_self]

/-- What is done on a volume without Unix privileges. -/
theorem names_ignoreUnixprivs (hpath : path.head? = some slash)
    (hS : vol.has VOLUME_EXTRA_FLAGS_IGNORE_UNIXPRIVS = true → Fits path →
      ∀ name ∈ components slash path, Legitimate vol paths name) :
    Names (Legitimate vol paths) (ignoreUnixprivs vol path) := by
  refine names_ite (fun hignore => .bind ?_ fun _ => trivial) fun _ => trivial
  by_cases hfits : Fits path
  · exact names_llGetattr vol hpath (hS hignore hfits) legitimate_volume _
  · refine names_ite (fun _ => trivial) fun _ => .bind (names_quiet rfl) fun fp => ?_
    have hresolve : Names (Legitimate vol paths) (resolve path) ∧
        Prog.Ensures (fun _ => True) (fun _ => False) (resolve path) := by
      refine ⟨⟨named_of_quiet rfl, fun (basename : CString) => ⟨named_of_quiet rfl,
        fun (dirid : UInt32) => ?_⟩⟩, fun (basename : CString) _ (dirid : UInt32) _ => ?_⟩
      · change Names _ (getDirid path basename dirid)
        rw [getDirid_of_not_fits hpath hfits]
        exact trivial
      · change Prog.Ensures _ _ (getDirid path basename dirid)
        rw [getDirid_of_not_fits hpath hfits]
        exact trivial
    exact hresolve.1.bind_of hresolve.2 fun _ => False.elim

end Operations

/-! ## All operations but the listing -/

section Run

variable {vol : Volume} {op : Operation}

/-- The path is not exposed, so all its names are legitimate. -/
theorem legitimate_of_not_exposed {path : CString} (h : ¬ Exposed vol op path) :
    ∀ name ∈ components slash path, Legitimate vol op.paths name :=
  fun name hname => by_contra fun hnot => h ⟨name, hname, hnot⟩

/-- An operation whose hook refuses every virtual path before the path is resolved. -/
theorem names_bind_hook {path : CString} {paths : List CString} {p : ℤ → AfpM ℤ}
    (hp : RealPath vol path path → Names (Legitimate vol paths) (p 0)) :
    Names (Legitimate vol paths) (do
      let ret ← refuseVirtual vol path
      if ret < 0 then return ret else if ret = 1 then return 0 else p ret) := by
  refine names_bind_refuseVirtual (names_ite (fun _ => trivial) fun h => absurd (by decide) h) ?_
  intro beyond hkind
  refine names_ite (fun h => absurd h (by decide)) fun _ => ?_
  exact names_ite (fun h => absurd h (by decide)) fun _ => hp (.translated (.plain hkind))

theorem names_afpMlCreat_of_not_leaks {path : CString} {mode : UInt32}
    (hpath : path.head? = some slash) (h : ¬ Leaks vol (.creat path mode)) :
    Names (Legitimate vol [path]) (afpMlCreat vol path mode) := by
  refine names_afpMlCreat hpath mode fun dst beyond hdst hreadonly hkind hinvalid => ?_
  rcases hkind with hplain | hcomment
  · exact legitimate_of_realPath (by simp) (.encoded (.translated (.plain hplain)) hdst)
  · exact legitimate_of_not_exposed fun hexposed =>
      h ⟨dst, beyond, hdst, hreadonly, hcomment, hinvalid, hexposed⟩

theorem names_afpMlChmod_of_not_leaks {path : CString} {mode : UInt32}
    (hpath : path.head? = some slash) (h : ¬ Leaks vol (.chmod path mode)) :
    Names (Legitimate vol [path]) (afpMlChmod vol path mode) := by
  refine names_ite (fun _ => trivial) fun hinvalid => names_ite (fun _ => trivial) fun hreadonly => ?_
  refine names_ite (fun hunix => names_ignoreUnixprivs hpath fun hignore hfits => ?_) fun _ => ?_
  · exact legitimate_of_not_exposed fun hexposed => h ⟨eq_false_of_ne_true hinvalid,
      eq_false_of_ne_true hreadonly, hunix, hignore, hfits, hexposed⟩
  refine names_bind_ofOption fun ⟨ret, dst⟩ hconvert => names_ite (fun _ => trivial) fun hret => ?_
  obtain rfl : ret = 0 := not_not.mp hret
  refine names_bind_hook fun hreal => ?_
  refine .bind (names_quiet rfl) fun fp => ?_
  refine names_bind_resolve (head?_of_converts hpath hconvert)
    (legitimate_of_realPath (by simp) (.encoded hreal hconvert)) fun _ name did hname => ?_
  refine .bind (names_getUnixprivs hname _ _) fun res => names_ite (fun _ => trivial) fun _ => ?_
  refine names_ite (fun _ => trivial) fun _ => names_ite (fun _ => trivial) fun _ => ?_
  refine .bind (names_quiet rfl) fun gid => .bind (names_quiet rfl) fun uid => ?_
  refine names_ite (fun _ => trivial) fun _ => .bind (names_setUnixprivs vol hname _ _) fun res' => ?_
  exact names_ite (fun _ => trivial) fun _ => trivial

theorem names_afpMlChown {path : CString} (hpath : path.head? = some slash) :
    Names (Legitimate vol [path]) (afpMlChown vol path) := by
  refine names_bind_ofOption fun ⟨ret, dst⟩ hconvert => names_ite (fun _ => trivial) fun hret => ?_
  obtain rfl : ret = 0 := not_not.mp hret
  refine names_ite (fun _ => trivial) fun _ => names_ite (fun _ => trivial) fun _ => ?_
  refine names_bind_hook fun hreal => ?_
  refine names_ite (fun _ => names_ignoreUnixprivs hpath fun _ _ =>
    legitimate_of_realPath (by simp) hreal) fun _ => .bind (names_quiet rfl) fun fp => ?_
  refine names_bind_resolve (head?_of_converts hpath hconvert)
    (legitimate_of_realPath (by simp) (.encoded hreal hconvert)) fun _ name did hname => ?_
  refine .bind (names_getUnixprivs hname _ _) fun res => names_ite (fun _ => trivial) fun _ => ?_
  refine .bind (names_setUnixprivs vol hname _ _) fun res' => names_ite (fun _ => trivial) fun _ => ?_
  exact names_ite (fun _ => trivial) fun _ => names_ite (fun _ => trivial) fun _ => trivial

theorem names_afpMlUtime {path : CString} (hpath : path.head? = some slash) (modtime : UInt32) :
    Names (Legitimate vol [path]) (afpMlUtime vol path modtime) := by
  refine names_ite (fun _ => trivial) fun _ => names_ite (fun _ => trivial) fun _ => ?_
  refine names_bind_ofOption fun ⟨ret, dst⟩ hconvert => names_ite (fun _ => trivial) fun hret => ?_
  obtain rfl : ret = 0 := not_not.mp hret
  refine names_bind_hook fun hreal => ?_
  refine names_bind_resolve (head?_of_converts hpath hconvert)
    (legitimate_of_realPath (by simp) (.encoded hreal hconvert)) fun _ name did hname => ?_
  refine .bind (names_isDir hname _) fun directory => .bind ?_ fun rc => ?_
  · exact names_ite (fun _ => names_requestRc (named_of_pathname rfl hname))
      fun _ => names_requestRc (named_of_pathname rfl hname)
  · exact names_ite (fun _ => trivial) fun _ => names_ite (fun _ => trivial) fun _ => trivial

theorem names_afpMlUnlink {path : CString} (hpath : path.head? = some slash) :
    Names (Legitimate vol [path]) (afpMlUnlink vol path) := by
  refine names_bind_ofOption fun ⟨ret, dst⟩ hconvert => names_ite (fun _ => trivial) fun hret => ?_
  obtain rfl : ret = 0 := not_not.mp hret
  refine names_ite (fun _ => trivial) fun _ => names_bind_hook fun hreal => ?_
  refine names_bind_resolve (head?_of_converts hpath hconvert)
    (legitimate_of_realPath (by simp) (.encoded hreal hconvert)) fun _ name did hname => ?_
  refine .bind (names_isDir hname _) fun directory => names_ite (fun _ => trivial) fun _ => ?_
  refine names_ite (fun _ => trivial) fun _ => ?_
  exact .bind (names_requestRc (named_of_pathname rfl hname)) fun _ => trivial

theorem names_afpMlMkdir {path : CString} (hpath : path.head? = some slash) :
    Names (Legitimate vol [path]) (afpMlMkdir vol path) := by
  refine names_bind_ofOption fun ⟨ret, dst⟩ hconvert => names_ite (fun _ => trivial) fun hret => ?_
  obtain rfl : ret = 0 := not_not.mp hret
  refine names_ite (fun _ => trivial) fun _ => names_ite (fun _ => trivial) fun _ => ?_
  refine names_bind_hook fun hreal => ?_
  refine names_bind_resolve (head?_of_converts hpath hconvert)
    (legitimate_of_realPath (by simp) (.encoded hreal hconvert)) fun _ name did hname => ?_
  exact .bind (names_requestRc (named_of_pathname rfl hname)) fun _ => trivial

theorem names_afpMlRmdir {path : CString} (hpath : path.head? = some slash) :
    Names (Legitimate vol [path]) (afpMlRmdir vol path) := by
  refine names_ite (fun _ => trivial) fun _ => ?_
  refine names_bind_ofOption fun ⟨ret, dst⟩ hconvert => names_ite (fun _ => trivial) fun hret => ?_
  obtain rfl : ret = 0 := not_not.mp hret
  refine names_ite (fun _ => trivial) fun _ => names_bind_hook fun hreal => ?_
  refine names_bind_resolve (head?_of_converts hpath hconvert)
    (legitimate_of_realPath (by simp) (.encoded hreal hconvert)) fun _ name did hname => ?_
  refine .bind (names_isDir hname _) fun directory => names_ite (fun _ => trivial) fun _ => ?_
  refine .bind (names_requestRc (named_of_pathname rfl hname)) fun _ => ?_
  exact names_ite (fun _ => .bind (names_quiet rfl) fun _ => trivial) fun _ => trivial

theorem names_afpMlSymlink_of_not_leaks {path1 path2 : CString} (hpath : path2.head? = some slash)
    (h : ¬ Leaks vol (.symlink path1 path2)) :
    Names (Legitimate vol [path2]) (afpMlSymlink vol path1 path2) := by
  refine names_ite (fun _ => trivial) fun hold => ?_
  refine names_bind_ofOption fun ⟨ret1, src⟩ hsrc => names_ite (fun _ => trivial) fun hret1 => ?_
  refine names_bind_ofOption fun ⟨ret2, dst⟩ hdst => names_ite (fun _ => trivial) fun hret2 => ?_
  obtain rfl : ret1 = 0 := not_not.mp hret1
  obtain rfl : ret2 = 0 := not_not.mp hret2
  refine names_ite (fun _ => trivial) fun hreadonly => ?_
  refine names_bind_refuseVirtual (names_ite (fun _ => trivial) fun h => absurd (by decide) h) ?_
  intro beyond hkind
  have hS : ∀ name ∈ components slash dst, Legitimate vol [path2] name :=
    legitimate_of_not_exposed fun hexposed => h ⟨Nat.not_lt.mp hold, src, dst, beyond, hsrc, hdst,
      eq_false_of_ne_true hreadonly, hkind, hexposed⟩
  refine names_ite (fun h => absurd h (by decide)) fun _ => ?_
  refine names_ite (fun h => absurd h (by decide)) fun _ => ?_
  refine names_bind_resolve (head?_of_converts hpath hdst) hS fun _ name did hname => ?_
  refine .bind (names_requestRc (named_of_pathname rfl hname)) fun rc => ?_
  refine names_ite (fun _ => trivial) fun _ => .bind (names_quiet rfl) fun handle => ?_
  refine .bind (names_quiet rfl) fun fp => ?_
  refine .bind (names_perform (named_of_pathname rfl hname)) fun reply => ?_
  refine .bind (names_quiet rfl) fun _ => .bind (names_requestRc (named_of_quiet rfl)) fun _ => ?_
  refine .bind (names_requestRc (named_of_quiet rfl)) fun rc' => names_ite (fun _ => trivial) fun _ => ?_
  refine .bind (names_quiet rfl) fun _ => ?_
  exact .bind (names_requestRc (named_of_pathname rfl hname)) fun _ => trivial

theorem names_afpMlRename_of_not_leaks {pathFrom pathTo : CString}
    (hfrom : pathFrom.head? = some slash) (hto : pathTo.head? = some slash)
    (h : ¬ Leaks vol (.rename pathFrom pathTo)) :
    Names (Legitimate vol [pathFrom, pathTo]) (afpMlRename vol pathFrom pathTo) := by
  refine names_bind_ofOption fun ⟨ret1, src⟩ hsrc => names_ite (fun _ => trivial) fun hret1 => ?_
  refine names_bind_ofOption fun ⟨ret2, dst⟩ hdst => names_ite (fun _ => trivial) fun hret2 => ?_
  obtain rfl : ret1 = 0 := not_not.mp hret1
  obtain rfl : ret2 = 0 := not_not.mp hret2
  refine names_ite (fun _ => trivial) fun hreadonly => ?_
  have hexposed := not_or.mp fun hexposed => h ⟨src, dst, hsrc, hdst,
    eq_false_of_ne_true hreadonly, hexposed⟩
  have hhead := head?_of_converts hto hdst
  have hS := legitimate_of_not_exposed hexposed.2
  refine names_bind_resolve (head?_of_converts hfrom hsrc)
    (legitimate_of_not_exposed hexposed.1) fun _ nameFrom didFrom hnameFrom => ?_
  refine names_bind_resolve hhead hS fun _ nameTo didTo hnameTo => ?_
  refine .bind (names_isDir (fun name hname => ?_) _) fun directory => .bind ?_ fun rc => ?_
  · rw [namesOf_absolute hhead] at hname
    exact hS name hname
  · refine names_ite (fun _ => names_requestRc (named_of_move hnameFrom hnameFrom fun p hp => ?_))
      fun _ => names_requestRc (named_of_move hnameFrom hnameTo fun p hp => ?_)
    · obtain rfl := Option.some.inj hp
      exact hnameTo
    · exact absurd hp (by simp)
  refine names_ite (fun _ => trivial) fun _ => names_ite (fun _ => trivial) fun _ => ?_
  refine names_ite (fun _ => ?_) fun _ => names_ite (fun _ => trivial) fun _ => trivial
  refine .bind (names_requestRc (named_of_pathname rfl hnameTo)) fun _ => .bind ?_ fun _ => trivial
  exact names_requestRc (named_of_move hnameFrom hnameTo fun p hp => absurd hp (by simp))

end Run

/-! ## Listing -/

section Readdir

variable {vol : Volume} {S : CString → Prop} {α β : Type}

/-- Every name is in `S` or was listed so far. -/
def Covered (vol : Volume) (S : CString → Prop) (p : AfpM α) : Prop :=
  ∀ tr q, Prog.Steps p tr q → ∀ ev ∈ tr, Named (fun name => S name ∨ Listed vol tr name) ev.1

theorem covered_of_names {p : AfpM α} (h : Names S p) : Covered vol S p :=
  fun _ _ hsteps ev hev name hname => .inl (h.steps hsteps ev hev name hname)

/-- What was listed in the first part can be used in the second. -/
theorem covered_bind {p : AfpM α} {f : α → AfpM β} (hp : Covered vol S p)
    (hf : ∀ tr a, Prog.Steps p tr (.done a) →
      Covered vol (fun name => S name ∨ Listed vol tr name) (f a)) :
    Covered vol S (p >>= f) := by
  intro tr q hsteps
  rcases Prog.steps_bind_cases hsteps with ⟨p', hp'⟩ | ⟨a, tr₁, tr₂, rfl, hdone, hrest⟩
  · exact hp tr p' hp'
  have hlisted : ∀ {tr tr' name}, tr ⊆ tr' → Listed vol tr name → Listed vol tr' name := by
    rintro tr tr' name hsub ⟨ev, hev, hlisted⟩
    exact ⟨ev, hsub hev, hlisted⟩
  have hleft : tr₁ ⊆ tr₁ ++ tr₂ := List.subset_append_left tr₁ tr₂
  have hright : tr₂ ⊆ tr₁ ++ tr₂ := List.subset_append_right tr₁ tr₂
  intro ev hev name hname
  rcases List.mem_append.mp hev with hev | hev
  · exact (hp tr₁ _ hdone ev hev name hname).imp id (hlisted hleft)
  · rcases hf tr₁ a hdone tr₂ q hrest ev hev name hname with (hS | hold) | hnew
    · exact .inl hS
    · exact .inr (hlisted hleft hold)
    · exact .inr (hlisted hright hnew)

theorem covered_ite {c : Prop} [Decidable c] {p q : AfpM α} (hp : c → Covered vol S p)
    (hq : ¬ c → Covered vol S q) : Covered vol S (if c then p else q) := by
  by_cases hc : c
  · rw [if_pos hc]
    exact hp hc
  · rw [if_neg hc]
    exact hq hc

/-- The entries that the loop collects are those the server sent. -/
theorem returns_readdirLoop (dirid : UInt32) (filebitmap dirbitmap : ℕ) (basename : CString)
    (fuel startindex : ℕ) (filebase : List AfpFileInfo) :
    Prog.Returns (fun tr res => ∀ fp ∈ res.2, fp ∈ filebase ∨ ∃ ev ∈ tr, fp ∈ listing ev)
      (readdirLoop vol dirid filebitmap dirbitmap basename fuel startindex filebase) := by
  induction fuel generalizing startindex filebase with
  | zero => exact trivial
  | succ fuel ih =>
    -- after the reply of either form of the request
    have hreply : ∀ (ev : (e : Effect) × e.Answer) (reply : Reply (List AfpFileInfo)),
        listing ev = reply.stored.getD [] →
        Prog.Returns (fun tr (res : ℤ × List AfpFileInfo) => ∀ fp ∈ res.2, fp ∈ filebase ∨
            ∃ ev' ∈ ev :: tr, fp ∈ listing ev')
          (if reply.rc = -1 then return ( EIO, filebase)
          else if reply.rc = 0 then
            readdirLoop vol dirid filebitmap dirbitmap basename fuel
              (startindex + (reply.stored.getD []).length) (filebase ++ reply.stored.getD [])
          else if reply.rc = kFPObjectNotFound then return (0, filebase ++ reply.stored.getD [])
          else if reply.rc = kFPAccessDenied then return (EACCES, filebase)
          else if reply.rc = kFPDirNotFound then return (0, filebase)
          else if reply.rc = kFPBitmapErr ∨ reply.rc = kFPMiscErr ∨ reply.rc = kFPObjectTypeErr ∨
              reply.rc = kFPParamErr ∨ reply.rc = kFPCallNotSupported then return ( EIO, filebase)
          else readdirLoop vol dirid filebitmap dirbitmap basename fuel startindex filebase) := by
      intro ev reply hlisting
      have hbase : ∀ fp ∈ filebase ++ reply.stored.getD [], fp ∈ filebase ∨ fp ∈ listing ev := by
        intro fp hfp
        rw [hlisting]
        exact List.mem_append.mp hfp
      refine Prog.returns_ite (fun _ => fun fp hfp => .inl hfp) fun _ => ?_
      refine Prog.returns_ite (fun _ => (ih _ _).mono fun tr res h fp hfp => ?_) fun _ => ?_
      · rcases h fp hfp with hfp | ⟨ev', hev', hfp⟩
        · exact (hbase fp hfp).imp id fun h => ⟨ev, List.mem_cons_self, h⟩
        · exact .inr ⟨ev', List.mem_cons_of_mem _ hev', hfp⟩
      refine Prog.returns_ite (fun _ => fun fp hfp => ?_) fun _ => ?_
      · exact (hbase fp hfp).imp id fun h => ⟨ev, List.mem_cons_self, h⟩
      refine Prog.returns_ite (fun _ => fun fp hfp => .inl hfp) fun _ => ?_
      refine Prog.returns_ite (fun _ => fun fp hfp => .inl hfp) fun _ => ?_
      refine Prog.returns_ite (fun _ => fun fp hfp => .inl hfp) fun _ => ?_
      refine (ih _ _).mono fun tr res h fp hfp => ?_
      exact (h fp hfp).imp id fun ⟨ev', hev', hmem⟩ => ⟨ev', List.mem_cons_of_mem _ hev', hmem⟩
    refine .bind (Prog.returns_ite (fun _ => fun reply => ?_) fun _ => fun reply => ?_)
    · exact hreply _ reply rfl
    · exact hreply _ reply rfl

theorem mem_of_mapM_eq_some {γ δ : Type} {g : γ → Option δ} {l : List γ} {l' : List δ}
    (h : l.mapM g = some l') : ∀ b ∈ l', ∃ a ∈ l, g a = some b := by
  induction l generalizing l' with
  | nil =>
    obtain rfl : [] = l' := Option.some.inj h
    exact fun b hb => absurd hb List.not_mem_nil
  | cons a l ih =>
    rw [List.mapM_cons] at h
    obtain ⟨b, hb, h⟩ := Option.bind_eq_some_iff.mp h
    obtain ⟨bs, hbs, h⟩ := Option.bind_eq_some_iff.mp h
    obtain rfl : b :: bs = l' := Option.some.inj h
    intro b' hb'
    rcases List.mem_cons.mp hb' with rfl | hb'
    · exact ⟨a, List.mem_cons_self, hb⟩
    · obtain ⟨a', ha', hg⟩ := ih hbs b' hb'
      exact ⟨a', List.mem_cons_of_mem _ ha', hg⟩

theorem returns_ofOption {o : Option α} {Q : List ((e : Effect) × e.Answer) → α → Prop}
    (h : ∀ a, o = some a → Q [] a) : Prog.Returns Q (ofOption o) := by
  cases o with
  | none => exact trivial
  | some a => exact h a rfl

/-- The names in the listing were listed. -/
theorem listed_llReaddir {path : CString} {resource : Bool} {fuel : ℕ}
    {tr : List ((e : Effect) × e.Answer)} {res : ℤ × Option (List AfpFileInfo)}
    (h : Prog.Steps (llReaddir vol path resource fuel) tr (.done res)) :
    ∀ fp ∈ res.2.getD [], NamesIn (Listed vol tr) fp.name := by
  revert h
  have hreturns : Prog.Returns (fun tr (res : ℤ × Option (List AfpFileInfo)) =>
      ∀ fp ∈ res.2.getD [], NamesIn (Listed vol tr) fp.name) (llReaddir vol path resource fuel) := by
    refine Prog.returns_ite (fun _ => fun fp hfp => absurd hfp List.not_mem_nil) fun _ => ?_
    refine .bind ((Prog.returns_true _).mono fun tr found _ => ?_)
    refine Prog.returns_ite (fun _ => fun fp hfp => absurd hfp List.not_mem_nil) fun _ => ?_
    refine .bind ((returns_readdirLoop ..).mono fun tr' loop hloop => ?_)
    refine Prog.returns_ite (fun _ => fun fp hfp => absurd hfp List.not_mem_nil) fun _ => ?_
    refine .bind (returns_ofOption fun filebase hmap => ?_)
    have hlisted : ∀ fp ∈ filebase, NamesIn (Listed vol (tr ++ (tr' ++ []))) fp.name := by
      intro fp hfp name hname
      obtain ⟨p, hp, hconvert⟩ := mem_of_mapM_eq_some hmap fp hfp
      obtain ⟨⟨ret, path'⟩, hpath', heq⟩ := Option.bind_eq_some_iff.mp hconvert
      obtain rfl := Option.some.inj heq
      rcases hloop p hp with hnil | ⟨ev, hev, hmem⟩
      · exact absurd hnil List.not_mem_nil
      · exact ⟨ev, by simp [hev], p, hmem, ret, path', hpath', hname⟩
    intro fp hfp
    change fp ∈ (if decide (vol.server.avNumber < 30) = true then
      filebase.map fun p =>
        { p with unixprivs := { p.unixprivs with permissions := setNonunixPerms p } }
      else filebase) at hfp
    split at hfp
    · obtain ⟨p, hp, rfl⟩ := List.mem_map.mp hfp
      exact hlisted p hp
    · exact hlisted fp hfp
  exact hreturns.steps

/-- What `appledouble_readdir()` sends, and what it leaves to `afp_ml_readdir()`. -/
theorem covered_appledoubleReaddir {dst : CString} (hdst : dst.head? = some slash)
    (hS : ∀ q, StandsFor vol dst q → ∀ name ∈ components slash q, S name) (fuel : ℕ) :
    Covered vol S (appledoubleReaddir vol dst fuel) ∧
      Prog.Ensures (fun _ => True) (fun res => res.1 < 0 ∨ res.1 = 1 ∨
          ∃ beyond, (extraTranslate vol dst beyond).1 = .none ∨
            (extraTranslate vol dst beyond).1 = .finderinfo)
        (appledoubleReaddir vol dst fuel) := by
  constructor
  · refine covered_bind (covered_of_names (.bind (names_quiet rfl) fun _ => trivial)) ?_
    intro tr res hdone
    -- the answer of the hook
    obtain ⟨beyond, rfl⟩ : ∃ beyond, res = ((extraTranslate vol dst beyond).1,
        (extraTranslate vol dst beyond).2.getD []) := by
      obtain ⟨beyond, tr', -, hrest⟩ := (Prog.steps_act_iff (q := .done res) trivial).mp hdone
      exact ⟨beyond, (Prog.done.inj (Prog.steps_done_iff.mp hrest).2)⟩
    rcases extraTranslate_cases hdst vol beyond with heq | heq | ⟨kind, q, heq, hq⟩
    · rw [heq]
      exact covered_of_names trivial
    · rw [heq]
      exact covered_of_names trivial
    have hreal : ∀ name ∈ components slash q, S name := hS q (.virtual (congrArg Prod.snd heq))
    rw [heq]
    cases kind with
    | appledouble =>
      refine covered_bind (covered_of_names (names_llReaddir vol hq
        (fun name hname => .inl (hreal name hname)) _ _)) fun tr' list hlist => ?_
      refine covered_of_names (.bind (names_listLoop _ _ _ fun fp hfp name hname => .inr ?_)
        fun _ => trivial)
      exact listed_llReaddir hlist fp hfp name hname
    | _ => exact covered_of_names trivial
  · have hall : ∀ {α : Type} {p : AfpM α}, Prog.Ensures (fun _ => True) (fun _ => True) p :=
      Prog.ensures_of_forall (fun _ => trivial) _
    have hnotdir : -ENOTDIR < 0 := by decide
    refine ensures_bind_translated fun beyond kind q heq => ?_
    cases kind with
    | none => exact .inr (.inr ⟨beyond, .inl (congrArg Prod.fst heq)⟩)
    | finderinfo => exact .inr (.inr ⟨beyond, .inr (congrArg Prod.fst heq)⟩)
    | serverIcon => exact .inl hnotdir
    | comment => exact .inl hnotdir
    | resource => exact .inl hnotdir
    | appledouble => exact hall.bind fun _ _ => hall.bind fun _ _ => .inr (.inl rfl)

theorem covered_afpMlReaddir {path : CString} (hpath : path.head? = some slash) (fuel : ℕ)
    (h : ¬ Leaks vol (.readdir path)) :
    Covered vol (Legitimate vol [path]) (afpMlReaddir vol path fuel) := by
  refine covered_bind (covered_of_names (names_ofOption _)) fun tr converted hconverted => ?_
  obtain ⟨ret, dst⟩ := converted
  refine covered_ite (fun _ => covered_of_names trivial) fun hret => ?_
  obtain rfl : ret = 0 := not_not.mp hret
  have hconvert : Converts vol path dst := by
    cases hoption : convertPathToAfp vol.server.pathEncoding path AFP_MAX_PATH with
    | none =>
      rw [hoption] at hconverted
      exact absurd (Prog.steps_stuck_iff.mp hconverted).2 (by simp)
    | some a =>
      rw [hoption] at hconverted
      rw [Converts, hoption]
      exact congrArg some (Prog.done.inj (Prog.steps_done_iff.mp hconverted).2).symm
  have hdst := head?_of_converts hpath hconvert
  obtain ⟨hcovered, hleft⟩ := covered_appledoubleReaddir
    (S := fun name => Legitimate vol [path] name ∨ Listed vol tr name) hdst (fun q hq name hname =>
      .inl (legitimate_of_realPath (by simp) (.converted hconvert hq) name hname)) fuel
  refine covered_bind hcovered fun tr' res hres => ?_
  refine covered_ite (fun _ => covered_of_names trivial) fun hneg => ?_
  refine covered_ite (fun _ => covered_of_names trivial) fun hone => ?_
  obtain ⟨beyond, hkind⟩ := ((hleft.steps hres fun _ _ => trivial).resolve_left hneg).resolve_left hone
  by_cases hinvalid : invalidFilename vol.server dst = true
  · rw [llReaddir, if_pos hinvalid]
    exact covered_of_names trivial
  refine covered_of_names (names_llReaddir vol hdst (fun name hname => .inl (.inl ?_)) _ _)
  rcases hkind with hplain | hfinderinfo
  · exact legitimate_of_realPath (by simp) (.converted hconvert (.plain hplain)) name hname
  · exact legitimate_of_not_exposed (fun hexposed => h ⟨dst, beyond, hconvert, hfinderinfo,
      eq_false_of_ne_true hinvalid, hexposed⟩) name hname

end Readdir

/-! ## The operations that are not sealed -/

section Leaks

variable {vol : Volume} {path name : CString} {α β : Type}

/-- There is a run without listings in which the program sends the name. -/
def Reveals (name : CString) (p : AfpM α) : Prop :=
  ∃ tr q, Prog.Steps p tr q ∧ (∀ ev ∈ tr, listing ev = []) ∧ ∃ ev ∈ tr, name ∈ names ev.1

/-- A run without listings to the end of the program. -/
def Quietly (p : AfpM α) (a : α) : Prop :=
  ∃ tr, Prog.Steps p tr (.done a) ∧ ∀ ev ∈ tr, listing ev = []

theorem Quietly.bind {p : AfpM α} {f : α → AfpM β} {a : α} {b : β} (hp : Quietly p a)
    (hf : Quietly (f a) b) : Quietly (p >>= f) b := by
  obtain ⟨tr, hsteps, hsilent⟩ := hp
  obtain ⟨tr', hsteps', hsilent'⟩ := hf
  exact ⟨tr ++ tr', hsteps.bind hsteps', List.forall_mem_append.mpr ⟨hsilent, hsilent'⟩⟩

theorem Reveals.bind {p : AfpM α} {f : α → AfpM β} (h : Reveals name p) :
    Reveals name (p >>= f) := by
  obtain ⟨tr, q, hsteps, h⟩ := h
  exact ⟨tr, q >>= f, hsteps.bind_left f, h⟩

theorem Reveals.after {p : AfpM α} {f : α → AfpM β} {a : α} (hp : Quietly p a)
    (hf : Reveals name (f a)) : Reveals name (p >>= f) := by
  obtain ⟨tr, hsteps, hsilent⟩ := hp
  obtain ⟨tr', q, hsteps', hsilent', ev, hev, hname⟩ := hf
  exact ⟨tr ++ tr', q, hsteps.bind hsteps', List.forall_mem_append.mpr ⟨hsilent, hsilent'⟩, ev,
    List.mem_append_right tr hev, hname⟩

theorem quietly_pure (a : α) : Quietly (pure a : AfpM α) a :=
  ⟨[], .refl _, fun _ hev => absurd hev List.not_mem_nil⟩

theorem quietly_perform (e : Effect) (r : e.Answer) (h : listing ⟨e, r⟩ = []) :
    Quietly (perform e) r :=
  ⟨[⟨e, r⟩], .act (.refl _), fun _ hev => by rw [List.mem_singleton.mp hev, h]⟩

theorem reveals_perform (e : Effect) (r : e.Answer) (h : listing ⟨e, r⟩ = [])
    (hname : name ∈ names e) : Reveals name (perform e) :=
  ⟨[⟨e, r⟩], .done r, .act (.refl _), fun ev hev => by rw [List.mem_singleton.mp hev, h],
    ⟨e, r⟩, List.mem_singleton_self _, hname⟩

theorem reveals_of_not {c : Prop} [Decidable c] {p q : AfpM α} (hc : ¬ c) (h : Reveals name q) :
    Reveals name (if c then p else q) := by
  rw [if_neg hc]
  exact h

/-- Nothing is cached. -/
theorem quietly_topmostParent (names : List CString) (hsep : Separated slash names)
    (hne : names ≠ []) : Quietly (topmostParent (joinPath slash names)) (AFP_ROOT_DID, 0) := by
  induction names using List.reverseRecOn with
  | nil => exact absurd rfl hne
  | append_singleton names last ih =>
    have hlast : slash ∉ last := hsep last (by simp)
    have hnames : Separated slash names := fun part hpart => hsep part (by simp [hpart])
    rw [joinPath_concat]
    have hpos := @strrchr_append _ slash _ (joinPath slash names) last hlast
    cases hlen : (joinPath slash names).length with
    | zero =>
      rw [hlen] at hpos
      rw [topmostParent_zero hpos]
      exact quietly_pure _
    | succ p =>
      rw [hlen] at hpos
      have htake : (joinPath slash names ++ slash :: last).take (p + 1) = joinPath slash names := by
        rw [← hlen, List.take_left]
      have hne' : names ≠ [] := fun h => by
        rw [h, joinPath_nil] at hlen
        exact absurd hlen (by simp)
      rw [topmostParent_succ hpos, htake]
      exact .bind (quietly_perform (.findDirid _) (0 : UInt32) rfl) (ih hnames hne')

/-- Every lookup finds a directory. -/
theorem walkForward_reveals (mid : List CString) {pre : List CString} {last : CString}
    (hsep : Separated slash (pre ++ mid ++ [last])) (did : UInt32) (fi : AfpFileInfo) :
    (∃ d, Quietly (walkForward (joinPath slash (pre ++ mid ++ [last])) did
        (joinPath slash pre).length fi) d) ∧
      ∀ name ∈ mid, Reveals name (walkForward (joinPath slash (pre ++ mid ++ [last])) did
        (joinPath slash pre).length fi) := by
  induction mid generalizing pre did fi with
  | nil =>
    have hlast : slash ∉ last := hsep last (by simp)
    have hpos : strchr (joinPath slash (pre ++ [] ++ [last])) ((joinPath slash pre).length + 1)
        slash = none := by
      have h := @strchr_eq_none _ slash _ (joinPath slash pre ++ [slash]) last hlast
      rw [List.length_append, List.length_singleton] at h
      rw [List.append_nil, joinPath_concat, ← h, List.append_assoc, List.singleton_append]
    rw [walkForward_none hpos]
    exact ⟨⟨did, quietly_pure _⟩,
      fun name hname => absurd hname List.not_mem_nil⟩
  | cons next mid ih =>
    have hnext : slash ∉ next := hsep next (by simp)
    have hassoc : pre ++ next :: mid ++ [last] = (pre ++ [next]) ++ mid ++ [last] := by simp
    obtain ⟨hpos, hcopy, htake⟩ := positions (hassoc ▸ hsep)
    have hlen : (joinPath slash pre).length + 1 + next.length =
        (joinPath slash (pre ++ [next])).length := by
      rw [joinPath_concat, List.length_append, List.length_cons]
      omega
    rw [hassoc, walkForward_some hpos, hcopy, htake, hlen]
    let found : AfpFileInfo := { AfpFileInfo.zero with isdir := true }
    let reply : Reply AfpFileInfo := ⟨kFPNoErr, some found⟩
    obtain ⟨⟨d, hd⟩, hrest⟩ := ih (hassoc ▸ hsep) found.fileid found
    constructor
    · exact ⟨d, .bind (quietly_perform (.request (.getFileDirParms ..)) reply rfl)
        (.bind (quietly_perform (.addDid ..) () rfl) hd)⟩
    · intro name hname
      rcases List.mem_cons.mp hname with rfl | hname
      · refine .bind (reveals_perform (.request (.getFileDirParms ..)) reply rfl ?_)
        rw [names, pathnames, List.flatMap_singleton, namesOf_slash_component hnext]
        exact List.mem_singleton_self _
      · exact .after (quietly_perform (.request (.getFileDirParms ..)) reply rfl)
          (.after (quietly_perform (.addDid ..) () rfl) (hrest name hname))

/-- **A resolution names everything above the last component.** -/
theorem exists_steps_resolve (hpath : path.head? = some slash) (hfits : Fits path) :
    (∃ did, Quietly (resolve path) (0, lastComponent path, did)) ∧
      ∀ name ∈ parents path, Reveals name (resolve path) := by
  obtain ⟨names, last, hsep, rfl⟩ := exists_names hpath
  rw [Fits, lastComponent_joinPath hsep, parents_joinPath hsep] at hfits
  rw [lastComponent_joinPath hsep, parents_joinPath hsep]
  have hnames : Separated slash names := fun part hpart => hsep part (by simp [hpart])
  have hget : ∀ basename dirid,
      (∃ did, Quietly (getDirid (joinPath slash (names ++ [last])) basename dirid) (0, last, did)) ∧
        ∀ name ∈ names, Reveals name (getDirid (joinPath slash (names ++ [last])) basename dirid) := by
    intro basename dirid
    rw [getDirid_joinPath hsep, if_neg (Nat.not_le.mpr hfits.1)]
    by_cases hnil : names = []
    · subst hnil
      rw [if_pos rfl]
      exact ⟨⟨_, quietly_pure _⟩,
        fun name hname => absurd hname List.not_mem_nil⟩
    rw [if_neg hnil, if_neg (Nat.not_le.mpr hfits.2)]
    obtain ⟨⟨d, hd⟩, hrest⟩ := @walkForward_reveals names [] last hsep AFP_ROOT_DID .zero
    constructor
    · exact ⟨d, .bind (quietly_perform (.findDirid _) (0 : UInt32) rfl)
        (.bind (quietly_topmostParent names hnames hnil)
          (.bind (quietly_perform .uninitFileInfo AfpFileInfo.zero rfl) (.bind hd (quietly_pure _))))⟩
    · intro name hname
      exact .after (quietly_perform (.findDirid _) (0 : UInt32) rfl)
        (.after (quietly_topmostParent names hnames hnil)
          (.after (quietly_perform .uninitFileInfo AfpFileInfo.zero rfl) (hrest name hname).bind))
  obtain ⟨⟨did, hdid⟩, hrest⟩ := hget [] 0
  constructor
  · exact ⟨did, .bind (quietly_perform .uninitPath ([] : CString) rfl)
      (.bind (quietly_perform .uninitInt (0 : UInt32) rfl) hdid)⟩
  · intro name hname
    exact .after (quietly_perform .uninitPath ([] : CString) rfl)
      (.after (quietly_perform .uninitInt (0 : UInt32) rfl) (hrest name hname))

theorem components_eq_concat (hpath : path.head? = some slash) :
    components slash path = parents path ++ [lastComponent path] := by
  obtain ⟨names, last, hsep, rfl⟩ := exists_names hpath
  rw [parents_joinPath hsep, lastComponent_joinPath hsep, components_joinPath hsep]

theorem notMem_lastComponent (hpath : path.head? = some slash) : slash ∉ lastComponent path := by
  obtain ⟨names, last, hsep, rfl⟩ := exists_names hpath
  rw [lastComponent_joinPath hsep]
  exact hsep last (by simp)

/-- A converted path fits into the buffers. -/
theorem fits_of_converts {dst : CString} (hpath : path.head? = some slash)
    (h : Converts vol path dst) : Fits dst := by
  have hlength := (convertPathToAfp_cases h).1
  obtain ⟨names, last, hsep, rfl⟩ := exists_names (head?_of_converts hpath h)
  rw [joinPath_concat, List.length_append, List.length_cons] at hlength
  rw [Fits, lastComponent_joinPath hsep, parents_joinPath hsep]
  omega

/-- A program that resolves a path and then names its last component reveals all of it. -/
theorem reveals_resolve_bind {f : ℤ × CString × UInt32 → AfpM β}
    (hpath : path.head? = some slash) (hfits : Fits path)
    (hf : ∀ did, Reveals (lastComponent path) (f (0, lastComponent path, did))) :
    ∀ name ∈ components slash path, Reveals name (resolve path >>= f) := by
  intro name hname
  obtain ⟨⟨did, hresolve⟩, hparents⟩ := exists_steps_resolve hpath hfits
  rw [components_eq_concat hpath, List.mem_append, List.mem_singleton] at hname
  rcases hname with hname | rfl
  · exact .bind (hparents name hname)
  · exact .after hresolve (hf did)

/-- A request with the last component of a path. -/
theorem mem_names_lastComponent (hpath : path.head? = some slash) {r : Request}
    (hr : pathnames r = [lastComponent path]) : lastComponent path ∈ names (.request r) := by
  rw [names, hr, List.flatMap_singleton, namesOf_component (notMem_lastComponent hpath)]
  exact List.mem_singleton_self _

theorem reveals_ofOption_bind {o : Option α} {a : α} (ho : o = some a) {f : α → AfpM β}
    (hf : Reveals name (f a)) : Reveals name (ofOption o >>= f) := by
  rw [ho]
  exact hf

/-- What is behind the path in memory can be anything. -/
theorem quietly_translated (vol : Volume) (path beyond : CString) :
    Quietly (translated vol path)
      ((extraTranslate vol path beyond).1, (extraTranslate vol path beyond).2.getD []) :=
  ⟨[⟨.uninitPath, beyond⟩], .act (.refl _), fun _ hev => by rw [List.mem_singleton.mp hev]; rfl⟩

theorem reveals_afpMlCreat {dst beyond : CString} {mode : UInt32} (hpath : path.head? = some slash)
    (hdst : Converts vol path dst) (hreadonly : volumeIsReadonly vol = false)
    (hkind : (extraTranslate vol path beyond).1 = .comment)
    (hinvalid : invalidFilename vol.server dst = false) :
    ∀ name ∈ components slash dst, Reveals name (afpMlCreat vol path mode) := by
  intro name hname
  have hhead := head?_of_converts hpath hdst
  have hhook : Quietly (appledoubleCreat vol path) 0 := by
    refine .bind (quietly_translated vol path beyond) ?_
    rw [hkind]
    exact quietly_pure 0
  refine reveals_ofOption_bind hdst (reveals_of_not (not_not.mpr rfl) ?_)
  refine reveals_of_not (ne_true_of_eq_false hreadonly) (.after hhook ?_)
  refine reveals_of_not (by decide) (reveals_of_not (by decide) ?_)
  refine reveals_of_not (ne_true_of_eq_false hinvalid) ?_
  refine reveals_resolve_bind hhead (fits_of_converts hpath hdst) (fun did => ?_) name hname
  exact .bind (.bind (reveals_perform (.request (.createFile ..)) ⟨-1, none⟩ rfl
    (mem_names_lastComponent hhead rfl)))

/-- A lookup of a path, which for AFP 2 is not the root. -/
theorem reveals_llGetattr (hpath : path.head? = some slash)
    (hinvalid : invalidFilename vol.server path = false) (hfits : Fits path)
    (hroot : path ≠ [slash]) :
    ∀ name ∈ components slash path, Reveals name (llGetattr vol path false) := by
  intro name hname
  refine reveals_of_not (ne_true_of_eq_false hinvalid) ?_
  refine .after (quietly_perform .uninitFileInfo AfpFileInfo.zero rfl) ?_
  refine reveals_resolve_bind hpath hfits (fun did => ?_) name hname
  refine reveals_of_not (by decide) (.bind ?_)
  refine reveals_perform (.request (.getFileDirParms ..)) ⟨-1, none⟩ rfl ?_
  refine mem_names_lastComponent hpath (congrArg (fun basename => [basename]) (if_neg ?_))
  simp [hroot]

/-- The root is not virtual. -/
theorem kind_root (vol : Volume) : (extraTranslate vol [slash] []).1 = .none := by
  cases hshow : vol.has VOLUME_EXTRA_FLAGS_SHOW_APPLEDOUBLE with
  | false => rw [extraTranslate, if_pos hshow]
  | true => exact (extraTranslate_eq_none_iff hshow rfl []).mpr (by decide)

theorem not_exposed_root {op : Operation} (hmem : [slash] ∈ op.paths) : ¬ Exposed vol op [slash] := by
  rintro ⟨name, hname, hnot⟩
  exact hnot (.real hmem (.translated (.plain (kind_root vol))) hname)

theorem reveals_afpMlReaddir {dst beyond : CString} (hpath : path.head? = some slash)
    (hdst : Converts vol path dst) (hkind : (extraTranslate vol dst beyond).1 = .finderinfo)
    (hinvalid : invalidFilename vol.server dst = false) :
    ∀ name ∈ components slash dst, Reveals name (afpMlReaddir vol path 1) := by
  intro name hname
  have hhead := head?_of_converts hpath hdst
  have hhook : Quietly (appledoubleReaddir vol dst 1) (0, none) := by
    refine .bind (quietly_translated vol dst beyond) ?_
    rw [hkind]
    exact quietly_pure _
  refine reveals_ofOption_bind hdst (reveals_of_not (not_not.mpr rfl) (.after hhook ?_))
  refine reveals_of_not (by decide) (reveals_of_not (by decide) ?_)
  refine reveals_of_not (ne_true_of_eq_false hinvalid) ?_
  refine reveals_resolve_bind hhead (fits_of_converts hpath hdst) (fun did => ?_) name hname
  refine reveals_of_not (by decide) (.bind (.bind ?_))
  by_cases hold : vol.server.avNumber < 30
  · rw [enumerateRequest, if_pos hold]
    exact reveals_perform (.request (.enumerate ..)) ⟨-1, none⟩ rfl
      (mem_names_lastComponent hhead rfl)
  · rw [enumerateRequest, if_neg hold]
    exact reveals_perform (.request (.enumerateExt2 ..)) ⟨-1, none⟩ rfl
      (mem_names_lastComponent hhead rfl)

theorem reveals_afpMlSymlink {path1 path2 src dst beyond : CString}
    (hpath : path2.head? = some slash) (hnew : 30 ≤ vol.server.avNumber)
    (hsrc : Converts vol path1 src) (hdst : Converts vol path2 dst)
    (hreadonly : volumeIsReadonly vol = false)
    (hkind : (extraTranslate vol path1 beyond).1 = .none) :
    ∀ name ∈ components slash dst, Reveals name (afpMlSymlink vol path1 path2) := by
  intro name hname
  have hhead := head?_of_converts hpath hdst
  have hhook : Quietly (appledoubleSymlink vol path1 path2) 0 := by
    refine .bind (quietly_translated vol path1 beyond) ?_
    rw [hkind]
    exact quietly_pure _
  refine reveals_of_not (Nat.not_lt.mpr hnew) ?_
  refine reveals_ofOption_bind hsrc (reveals_of_not (not_not.mpr rfl) ?_)
  refine reveals_ofOption_bind hdst (reveals_of_not (not_not.mpr rfl) ?_)
  refine reveals_of_not (ne_true_of_eq_false hreadonly) (.after hhook ?_)
  refine reveals_of_not (by decide) (reveals_of_not (by decide) ?_)
  refine reveals_resolve_bind hhead (fits_of_converts hpath hdst) (fun did => ?_) name hname
  exact .bind (.bind (reveals_perform (.request (.createFile ..)) ⟨-1, none⟩ rfl
    (mem_names_lastComponent hhead rfl)))

/-- A rename names both paths: the destination in the question whether it is a directory, the last
component of the source in the move. -/
theorem reveals_afpMlRename {pathFrom pathTo src dst : CString}
    (hfrom : pathFrom.head? = some slash) (hto : pathTo.head? = some slash)
    (hsrc : Converts vol pathFrom src) (hdst : Converts vol pathTo dst)
    (hreadonly : volumeIsReadonly vol = false) :
    ∀ name ∈ components slash src ++ components slash dst,
      Reveals name (afpMlRename vol pathFrom pathTo) := by
  intro name hname
  have hheadSrc := head?_of_converts hfrom hsrc
  have hheadDst := head?_of_converts hto hdst
  obtain ⟨⟨didDst, hresolve⟩, -⟩ := exists_steps_resolve hheadDst (fits_of_converts hto hdst)
  refine reveals_ofOption_bind hsrc (reveals_of_not (not_not.mpr rfl) ?_)
  refine reveals_ofOption_bind hdst (reveals_of_not (not_not.mpr rfl) ?_)
  refine reveals_of_not (ne_true_of_eq_false hreadonly) ?_
  let reply : Reply AfpFileInfo := ⟨-1, none⟩
  rcases List.mem_append.mp hname with hname | hname
  · refine reveals_resolve_bind hheadSrc (fits_of_converts hfrom hsrc) (fun did => ?_) name hname
    have hisDir : Quietly (isDir didDst dst) false :=
      .bind (quietly_perform .uninitFileInfo AfpFileInfo.zero rfl)
        (.bind (quietly_perform (.request (.getFileDirParms ..)) reply rfl) (quietly_pure _))
    refine .after hresolve (.after hisDir ?_)
    refine .bind (.bind (reveals_perform (.request (.moveAndRename ..)) ⟨-1, none⟩ rfl ?_))
    refine List.mem_flatMap.mpr ⟨lastComponent src, List.mem_cons_self, ?_⟩
    rw [namesOf_component (notMem_lastComponent hheadSrc)]
    exact List.mem_singleton_self _
  · obtain ⟨⟨didSrc, hresolveSrc⟩, -⟩ := exists_steps_resolve hheadSrc (fits_of_converts hfrom hsrc)
    refine .after hresolveSrc (.after hresolve (.bind ?_))
    refine .after (quietly_perform .uninitFileInfo AfpFileInfo.zero rfl) (.bind ?_)
    refine reveals_perform (.request (.getFileDirParms ..)) reply rfl ?_
    rw [names, pathnames, List.flatMap_singleton, namesOf_absolute hheadDst]
    exact hname

end Leaks

/-! ## Which operations are sealed -/

section Sealed

variable {vol : Volume} {op : Operation}

/-- A name that is revealed without a listing is not listed. -/
theorem not_sealed_of_reveals (fuel : ℕ) {name : CString} (h : Reveals name (op.run vol fuel))
    (hnot : ¬ Legitimate vol op.paths name) : ¬ Sealed vol op := by
  intro hsealed
  obtain ⟨tr, q, hsteps, hsilent, ev, hev, hname⟩ := h
  rcases hsealed fuel tr q hsteps ev hev name hname with hlegit | ⟨ev', hev', fp, hfp, -⟩
  · exact hnot hlegit
  · rw [hsilent ev' hev'] at hfp
    exact absurd hfp List.not_mem_nil

theorem not_sealed_of_leaks (habs : ∀ path ∈ op.paths, path.head? = some slash)
    (h : Leaks vol op) : ¬ Sealed vol op := by
  cases op with
  | creat path mode =>
    obtain ⟨dst, beyond, hdst, hreadonly, hkind, hinvalid, name, hname, hnot⟩ := h
    have hpath : path.head? = some slash := habs path (List.mem_singleton_self path)
    exact not_sealed_of_reveals 0
      (.bind (reveals_afpMlCreat hpath hdst hreadonly hkind hinvalid name hname)) hnot
  | chmod path mode =>
    obtain ⟨hinvalid, hreadonly, hunix, hignore, hfits, hexposed⟩ := h
    have hmem : path ∈ (Operation.chmod path mode).paths := List.mem_singleton_self path
    have hroot : path ≠ [slash] := by
      rintro rfl
      exact not_exposed_root hmem hexposed
    obtain ⟨name, hname, hnot⟩ := hexposed
    refine not_sealed_of_reveals 0 (.bind ?_) hnot
    rw [afpMlChmod, if_neg (ne_true_of_eq_false hinvalid), if_neg (ne_true_of_eq_false hreadonly),
      if_pos hunix, ignoreUnixprivs, if_pos hignore]
    exact .bind (reveals_llGetattr (habs path hmem) hinvalid hfits hroot name hname)
  | readdir path =>
    obtain ⟨dst, beyond, hdst, hkind, hinvalid, name, hname, hnot⟩ := h
    have hpath : path.head? = some slash := habs path (List.mem_singleton_self path)
    exact not_sealed_of_reveals 1
      (.bind (reveals_afpMlReaddir hpath hdst hkind hinvalid name hname)) hnot
  | symlink path1 path2 =>
    obtain ⟨hnew, src, dst, beyond, hsrc, hdst, hreadonly, hkind, name, hname, hnot⟩ := h
    have hpath : path2.head? = some slash := habs path2 (List.mem_singleton_self path2)
    exact not_sealed_of_reveals 0
      (.bind (reveals_afpMlSymlink hpath hnew hsrc hdst hreadonly hkind name hname)) hnot
  | rename pathFrom pathTo =>
    obtain ⟨src, dst, hsrc, hdst, hreadonly, hexposed⟩ := h
    have hreveals := reveals_afpMlRename (habs pathFrom (by simp [Operation.paths]))
      (habs pathTo (by simp [Operation.paths])) hsrc hdst hreadonly
    rcases hexposed with ⟨name, hname, hnot⟩ | ⟨name, hname, hnot⟩
    · exact not_sealed_of_reveals 0
        (.bind (hreveals name (List.mem_append_left _ hname))) hnot
    · exact not_sealed_of_reveals 0
        (.bind (hreveals name (List.mem_append_right _ hname))) hnot
  | _ => exact h.elim

theorem sealed_of_names {p : ℕ → AfpM ℤ}
    (hrun : ∀ fuel, op.run vol fuel = (p fuel >>= fun ret => pure (ret, none)))
    (h : ∀ fuel, Names (Legitimate vol op.paths) (p fuel)) : Sealed vol op := fun fuel => by
  rw [hrun]
  exact covered_of_names (.bind (h fuel) fun _ => trivial)

theorem sealed_of_not_leaks (habs : ∀ path ∈ op.paths, path.head? = some slash)
    (h : ¬ Leaks vol op) : Sealed vol op := by
  cases op with
  | «open» path flags =>
    have hpath : path.head? = some slash := habs path (List.mem_singleton_self path)
    exact fun fuel => covered_of_names
      (.bind (names_afpMlOpen hpath (List.mem_singleton_self path) flags fuel) fun _ => trivial)
  | creat path mode =>
    have hpath : path.head? = some slash := habs path (List.mem_singleton_self path)
    exact sealed_of_names (fun _ => rfl) fun _ => names_afpMlCreat_of_not_leaks hpath h
  | chmod path mode =>
    have hpath : path.head? = some slash := habs path (List.mem_singleton_self path)
    exact sealed_of_names (fun _ => rfl) fun _ => names_afpMlChmod_of_not_leaks hpath h
  | chown path =>
    have hpath : path.head? = some slash := habs path (List.mem_singleton_self path)
    exact sealed_of_names (fun _ => rfl) fun _ => names_afpMlChown hpath
  | unlink path =>
    have hpath : path.head? = some slash := habs path (List.mem_singleton_self path)
    exact sealed_of_names (fun _ => rfl) fun _ => names_afpMlUnlink hpath
  | mkdir path =>
    have hpath : path.head? = some slash := habs path (List.mem_singleton_self path)
    exact sealed_of_names (fun _ => rfl) fun _ => names_afpMlMkdir hpath
  | rmdir path =>
    have hpath : path.head? = some slash := habs path (List.mem_singleton_self path)
    exact sealed_of_names (fun _ => rfl) fun _ => names_afpMlRmdir hpath
  | truncate path =>
    have hpath : path.head? = some slash := habs path (List.mem_singleton_self path)
    exact sealed_of_names (fun _ => rfl) fun fuel =>
      names_afpMlTruncate hpath (List.mem_singleton_self path) fuel
  | utime path modtime =>
    have hpath : path.head? = some slash := habs path (List.mem_singleton_self path)
    exact sealed_of_names (fun _ => rfl) fun _ => names_afpMlUtime hpath modtime
  | getattr path =>
    have hpath : path.head? = some slash := habs path (List.mem_singleton_self path)
    exact fun fuel => covered_of_names
      (.bind (names_afpMlGetattr hpath (List.mem_singleton_self path)) fun _ => trivial)
  | readdir path =>
    have hpath : path.head? = some slash := habs path (List.mem_singleton_self path)
    exact fun fuel => covered_bind (covered_afpMlReaddir hpath fuel h)
      fun _ _ _ => covered_of_names trivial
  | rename pathFrom pathTo =>
    have hfrom : pathFrom.head? = some slash := habs pathFrom (by simp [Operation.paths])
    have hto : pathTo.head? = some slash := habs pathTo (by simp [Operation.paths])
    exact sealed_of_names (fun _ => rfl) fun _ => names_afpMlRename_of_not_leaks hfrom hto h
  | symlink path1 path2 =>
    have hpath : path2.head? = some slash := habs path2 (List.mem_singleton_self path2)
    exact sealed_of_names (fun _ => rfl) fun _ => names_afpMlSymlink_of_not_leaks hpath h

/-- **An operation is sealed unless it leaks.** -/
theorem sealed_iff (vol : Volume) (op : Operation)
    (habs : ∀ path ∈ op.paths, path.head? = some slash) : Sealed vol op ↔ ¬ Leaks vol op :=
  ⟨fun hsealed hleaks => not_sealed_of_leaks habs hleaks hsealed, sealed_of_not_leaks habs⟩

end Sealed

end AppleDouble
end Afpfs

import Afpfs.Cmdline.Shell

/-!
# Getting a directory

`get -r` of `cmdline/cmdline_afp.c` lists a directory of the server, and gets the files in it one by one
and the directories by calling itself.  It makes local directories and goes into them, without looking
at whether that worked, and to get a file it changes `curdir`.

The server is one of `Afpfs.FileServer` that also lists its directories.  `remote` is the tree below one
of them, with what is in the files.

* `attains_getDir`: the tree is put at its name in the working directory, over what is there.
* `comGet_copies`: so it is with the command, which leaves `curdir` where it was or at a directory of
  the tree.
-/

set_option autoImplicit false

namespace Afpfs
namespace Cmdline
namespace RecursiveGet

open Interaction Unicode Codepage FileServer Hierarchy Transfer Shell
open PathResolution (lastComponent)
open DirectoryServer (Canonical Known spell requestedPath Enumerates Enumerating enumerating_readdirLoop
  requestedPath_of_canonical spell_concat)
open Translate (ascii)

/-! ## The commands -/

/-- The entries of a directory that is listed: `local_total` and `curdir` after them.  The first argument
gets a directory. -/
def getEntries (vol : Volume) (steps : ℕ) (totalPath : CString)
    (getSub : CString → UInt64 → CString → CommandM (ℤ × UInt64 × CString)) :
    List AfpFileInfo → UInt64 → UInt64 → CString → CommandM (UInt64 × CString)
  | [], _, localTotal, curdir => return (localTotal, curdir)
  | p :: rest, amountWritten, localTotal, curdir => do
    if p.isdir then do
      let (_, amountWritten, curdir) ← getSub p.name amountWritten curdir
      getEntries vol steps totalPath getSub rest amountWritten (localTotal + amountWritten) curdir
    else do
      let curdir := totalPath
      let (_, total) ← comGetFile vol curdir p.name steps
      let amountWritten := total.getD amountWritten
      getEntries vol steps totalPath getSub rest amountWritten (localTotal + amountWritten) curdir

/-- `get_dir()`, whose `amount_written` is `garbage` at first: its result, `*total`, which was `total`
before, and `curdir`. -/
def getDir (vol : Volume) (steps : ℕ) (garbage : UInt64) :
    ℕ → CString → CString → UInt64 → CString → CommandM (ℤ × UInt64 × CString)
  | 0, _, _, _, _ => .stuck
  | fuel + 1, serverBase, path, total, curdir => do
    let totalPath :=
      (if serverBase = [slash] then slash :: path else serverBase ++ slash :: path).take
        (AFP_MAX_PATH - 1)
    let _ ← call (.mkdir path 0o755)
    let _ ← call (.chdir path)
    let (ret, filebase) ← (afpMlReaddir vol totalPath steps).lift
    if ret ≠ 0 then do
      let _ ← call (.chdir [dot, dot])
      return (-1, total, curdir)
    else do
      let (localTotal, curdir) ←
        getEntries vol steps totalPath (getDir vol steps garbage fuel totalPath) (filebase.getD [])
          garbage 0 curdir
      let _ ← call (.chdir [dot, dot])
      return (0, localTotal, curdir)

/-- `dirname()`. -/
def dirname (path : CString) : CString :=
  let stripped := path.rdropWhile (· = slash)
  if path = [] then [dot]
  else if stripped = [] then if path.length = 2 then path else [slash]
  else
    match Scan.strrchr stripped slash with
    | none => [dot]
    | some p =>
      let front := (stripped.take p).rdropWhile (· = slash)
      if front = [] then if p = 1 then [slash, slash] else [slash] else front

/-- `isspace()`. -/
def isSpace (c : UInt8) : Bool := c = 32 ∨ 9 ≤ c ∧ c ≤ 13

/-- `recursive_get()`: the bytes that it says were got, and `curdir`. -/
def recursiveGet (vol : Volume) (steps : ℕ) (garbage : UInt64) (fuel : ℕ) (curdir path : CString) :
    CommandM (UInt64 × CString) := do
  let (_, amountWritten, curdir) ←
    getDir vol steps garbage fuel (dirname path) (basename path).2 garbage curdir
  return (amountWritten, curdir)

/-- `com_get()`: its result, the bytes that it says were got, and `curdir`. -/
def comGet (vol : Volume) (steps : ℕ) (garbage : UInt64) (fuel : ℕ) (curdir arg : CString) :
    CommandM (ℤ × Option UInt64 × CString) :=
  if arg.take 3 = ascii ['-', 'r', ' '] then do
    let newpath := (curdir ++ slash :: (arg.drop 3).dropWhile isSpace).take 254
    let (amountWritten, curdir) ← recursiveGet vol steps garbage fuel curdir newpath
    return (0, some amountWritten, curdir)
  else do
    let (ret, total) ← comGetFile vol curdir arg steps
    return (ret, total, curdir)

/-! ## Listings -/

section Listings

variable {ι : Type} [DecidableEq ι]

/-- What a name in a directory of a server stands for. -/
def entries (names : Names ι) (s : FileServer.Server ι) : Entries UInt32 CString := fun did name =>
  let file := if s.present (names.fork false did name) then some Entry.file else none
  match names.tree did name with
  | .ok node => if node.isdir then some (.directory node.id) else file
  | .error _ => file

/-- The tree below a directory of a server. -/
def remote (names : Names ι) (s : FileServer.Server ι) : UInt32 → List CString → Option Node
  | _, [] => some .directory
  | did, n :: q =>
    match entries names s did n with
    | some (.directory d) => remote names s d q
    | some .file => if q = [] then some (.file (s.content (names.fork false did n))) else none
    | none => none

/-- The reply to a request for the entries of a directory from one on. -/
def Lists (names : Names ι) (listing : UInt32 → List AfpFileInfo) (s : FileServer.Server ι) :
    FileServer.Event → Prop
  | ⟨.request (.enumerate did _ _ _ startindex pathname), reply⟩ =>
    ∀ d, find (entries names s) did (requestedPath pathname) = some (.directory d) →
      Enumerate.Answers (listing d) startindex.toNat reply
  | ⟨.request (.enumerateExt2 did _ _ _ startindex pathname), reply⟩ =>
    ∀ d, find (entries names s) did (requestedPath pathname) = some (.directory d) →
      Enumerate.Answers (listing d) (startindex.toNat % 4294967296) reply
  | _ => True

/-- What both answer, where the server lists its directories. -/
def Answers (names : Names ι) (listing : UInt32 → List AfpFileInfo) (s : System ι)
    (ev : CommandEvent) : Prop :=
  s.Answers names ev ∧
    match ev with
    | ⟨.inl e, r⟩ => Lists names listing s.server ⟨e, r⟩
    | ⟨.inr _, _⟩ => True

/-- What the code asks of a name. -/
structure Plain (volume : Volume) (name : CString) : Prop where
  argument : argumentPath name = some (some name)
  canonical : name ≠ [] ∧ slash ∉ name
  dots : name ≠ [dot] ∧ name ≠ [dot, dot]
  converted : ∃ ret, convertPathToUnix volume.server.pathEncoding name AFP_MAX_PATH = some (ret, name)

/-- What the code asks of a directory at a path. -/
structure Gettable (volume : Volume) (names : Names ι) (listing : UInt32 → List AfpFileInfo)
    (s : FileServer.Server ι) (steps : ℕ) (p : List CString) (d : UInt32) : Prop where
  listed : Enumerates (entries names s) d (listing d)
  short : (listing d).length < steps ∧ (listing d).length + 1 < Enumerate.indexModulus volume
  plain : ∀ fi ∈ listing d, Plain volume fi.name
  known : ∀ fi ∈ listing d, Known volume (p ++ [fi.name])
  sizes : ∀ fi ∈ listing d, fi.isdir = false →
    (s.content (names.fork false d fi.name)).length + 1 < steps ∧
      (s.content (names.fork false d fi.name)).length < Placement.positions volume

/-- What the code asks of the tree at a path, which is not deeper than that. -/
structure GettableBelow (volume : Volume) (names : Names ι) (listing : UInt32 → List AfpFileInfo)
    (s : FileServer.Server ι) (steps depth : ℕ) (p : List CString) (d : UInt32) : Prop where
  each : ∀ q c, find (entries names s) d q = some (.directory c) →
    Gettable volume names listing s steps (p ++ q) c
  depth : ∀ q c, find (entries names s) d q = some (.directory c) → q.length < depth

/-- Files are put where files are, and directories where directories are. -/
def Alike (v w : Node) : Prop := v = .directory ↔ w = .directory

variable {names : Names ι} {listing : UInt32 → List AfpFileInfo} {s : FileServer.Server ι} {d c : UInt32}
  {n : CString} {p q : List CString} {volume : Volume}

omit [DecidableEq ι] in
theorem entries_eq_directory :
    entries names s d n = some (.directory c) ↔
      ∃ node, names.tree d n = .ok node ∧ node.isdir = true ∧ node.id = c := by
  cases hnode : names.tree d n with
  | error e => by_cases hfile : s.present (names.fork false d n) = true <;> simp [entries, hnode, hfile]
  | ok node =>
    cases hdir : node.isdir with
    | true => simp [entries, hnode, hdir]
    | false =>
      by_cases hfile : s.present (names.fork false d n) = true <;> simp [entries, hnode, hdir, hfile]

omit [DecidableEq ι] in
/-- The directories of the tree are those that a path leads through. -/
theorem descend_of_find (h : find (entries names s) d q = some (.directory c)) :
    PathResolution.descend names.tree d q = some c := by
  induction q generalizing d with
  | nil => exact congrArg some (Entry.directory.inj (Option.some.inj h))
  | cons n q ih =>
    obtain ⟨b, hb, hrest⟩ := find_cons_eq_directory.mp h
    obtain ⟨node, hnode, hdir, rfl⟩ := entries_eq_directory.mp hb
    rw [PathResolution.descend, hnode]
    simp only [hdir, if_true]
    exact ih hrest

omit [DecidableEq ι] in
theorem present_of_entries (h : entries names s d n = some .file) :
    s.present (names.fork false d n) = true := by
  by_contra hnot
  rw [entries] at h
  simp only [hnot, Bool.false_eq_true, if_false] at h
  split at h
  · split at h <;> cases h
  · cases h

omit [DecidableEq ι] in
/-- A known path in a directory of the tree leads there. -/
theorem pathTo (hknown : Known volume (p ++ [n]))
    (hd : find (entries names s) AFP_ROOT_DID p = some (.directory d)) :
    PathTo volume names (spell (p ++ [n])) d := by
  have hsep : Scan.Separated slash (p ++ [n]) := fun name hname => (hknown.canonical name hname).2
  have hlong := one_lt_length_spell hknown.canonical (List.append_ne_nil_of_right_ne_nil p
    (List.cons_ne_nil n []))
  have hlength := hknown.length
  refine ⟨hknown.spelled, fun h => ?_, ?_, ⟨?_, ?_⟩, ?_⟩
  · rw [h] at hlong
    exact absurd hlong (by simp)
  · rw [spell_of_ne_nil (List.append_ne_nil_of_right_ne_nil p (List.cons_ne_nil n []))]
    cases p <;> rfl
  · rw [spell_concat, PathResolution.lastComponent_joinPath hsep]
    rw [spell_concat, PathResolution.joinPath_concat, List.length_append, List.length_cons] at hlength
    omega
  · rw [spell_concat, PathResolution.parents_joinPath hsep]
    rw [spell_concat, PathResolution.joinPath_concat, List.length_append, List.length_cons] at hlength
    omega
  · rw [spell_concat, PathResolution.parents_joinPath hsep]
    exact descend_of_find hd

omit [DecidableEq ι] in
theorem lastComponent_spell (hknown : Known volume (p ++ [n])) :
    lastComponent (spell (p ++ [n])) = n := by
  rw [spell_concat, PathResolution.lastComponent_joinPath fun name hname =>
    (hknown.canonical name hname).2]

/-! ## Listing a directory -/

/-- What the server answers. -/
def Serves (names : Names ι) (listing : UInt32 → List AfpFileInfo) (s : FileServer.Server ι)
    (ev : FileServer.Event) : Prop :=
  FileServer.Answers names s ev ∧ Lists names listing s ev

theorem attains_readdirLoop {basename : CString} {fuel : ℕ}
    (hc : find (entries names s) d (requestedPath basename) = some (.directory c))
    (hfuel : (listing c).length < fuel)
    (hindex : (listing c).length + 1 < Enumerate.indexModulus volume) (filebitmap dirbitmap : ℕ) :
    Prog.Attains (Serves names listing) (FileServer.next names)
      (fun s' res => s' = s ∧ res = (0, listing c)) s
      (readdirLoop volume d filebitmap dirbitmap basename fuel 1 []) := by
  refine Prog.Yields.attains
    (Enumerate.yields_readdirLoop hindex d filebitmap dirbitmap basename fuel 0 hfuel (Nat.zero_le _))
    (enumerating_readdirLoop d filebitmap dirbitmap basename fuel 1 []) fun ev hev hanswer => ?_
  obtain ⟨e, r⟩ := ev
  obtain ⟨-, hlists⟩ := hanswer
  cases e with
  | request r' =>
    cases r' with
    | enumerate did fb db count startindex name =>
      obtain ⟨rfl, rfl⟩ := hev
      exact ⟨hlists c hc, rfl⟩
    | enumerateExt2 did fb db count startindex name =>
      obtain ⟨rfl, rfl⟩ := hev
      exact ⟨hlists c hc, rfl⟩
    | _ => exact hev.elim
  | _ => exact hev.elim

/-- **`afp_ml_readdir()`** lists a directory of the tree. -/
theorem attains_afpMlReaddir {steps : ℕ} (hknown : Known volume (p ++ [n]))
    (hd : find (entries names s) AFP_ROOT_DID p = some (.directory d))
    (hc : entries names s d n = some (.directory c))
    (hgettable : Gettable volume names listing s steps (p ++ [n]) c) :
    Prog.Attains (Serves names listing) (FileServer.next names)
      (fun s' res => s' = s ∧ Enumerate.Listed volume (listing c) res) s
      (afpMlReaddir volume (spell (p ++ [n])) steps) := by
  have hvirtual : appledoubleReaddir volume (spell (p ++ [n])) steps =
      uninitPath >>= fun _ => pure (0, none) := by
    rw [appledoubleReaddir, Truncate.translated_eq hknown.spelled.plain]
    rfl
  rw [afpMlReaddir, hknown.spelled.converted, ofOption_some_bind]
  simp only [ne_eq, not_true_eq_false, if_false]
  rw [hvirtual]
  intro _ _
  show Prog.Attains _ _ _ s (llReaddir volume (spell (p ++ [n])) false steps)
  obtain ⟨filebitmap, dirbitmap, heq⟩ := Enumerate.llReaddir_eq false hknown.spelled.valid
  rw [heq]
  have hresolve : Prog.Attains (Serves names listing) (FileServer.next names) _ s _ :=
    (attains_resolve (pathTo hknown hd).leads).of_imp fun s ev (h : Serves names listing s ev) => h.1
  refine Prog.Attains.bind hresolve fun s' found h => ?_
  obtain ⟨rfl, rfl⟩ := h
  rw [if_neg (lt_irrefl 0), lastComponent_spell hknown]
  have hbase : find (entries names s') d (requestedPath n) = some (.directory c) := by
    rw [requestedPath_of_canonical (hknown.canonical n (by simp)), find_singleton, hc]
  refine (attains_readdirLoop hbase hgettable.short.1 hgettable.short.2 filebitmap dirbitmap).bind
    fun s'' loop h => ?_
  obtain ⟨rfl, rfl⟩ := h
  rw [if_neg (not_not.mpr rfl)]
  have hsome : ∀ fi ∈ listing c, (Enumerate.present volume fi).isSome := by
    intro fi hfi
    obtain ⟨ret, hret⟩ := (hgettable.plain fi hfi).converted
    rw [Enumerate.present_eq, Enumerate.converted, hret]
    rfl
  have hyields : Prog.Yields (fun _ => True) (Enumerate.Listed volume (listing c))
      (Enumerate.finish volume (listing c)) := Enumerate.yields_finish.mpr hsome
  refine hyields.attains (P := fun _ => False) ?_ fun ev hev _ => hev.elim
  rw [Enumerate.finish]
  cases (listing c).mapM (Enumerate.converted volume) with
  | none => trivial
  | some list => trivial

end Listings

/-! ## Local directories -/

section Local

variable {ι : Type} [DecidableEq ι] {names : Names ι} {listing : UInt32 → List AfpFileInfo}
  {sv : FileServer.Server ι} {dk : Disk} {volume : Volume} {n : CString} {L : List CString}

theorem locate_plain (hn : Plain volume n) (cwd : List CString) : locate cwd n = cwd ++ [n] := by
  have hhead : n.head? ≠ some slash := fun h => hn.canonical.2 (List.mem_of_mem_head? h)
  rw [locate, Scan.split_of_not_mem hn.canonical.2, if_neg hhead, List.foldl_cons, List.foldl_nil,
    follow, if_neg (not_or.mpr ⟨hn.canonical.1, hn.dots.1⟩), if_neg hn.dots.2]

theorem locate_up (cwd : List CString) : locate cwd [dot, dot] = cwd.dropLast := rfl

/-- The local directory is there. -/
def Disk.make (dk : Disk) (n : CString) : Disk :=
  { dk with nodes := Function.update dk.nodes (dk.cwd ++ [n]) (some .directory) }

/-- It is the working directory. -/
def Disk.enter (dk : Disk) (n : CString) : Disk := { Disk.make dk n with cwd := dk.cwd ++ [n] }

theorem Disk.make_of_ne {r : List CString} (h : r ≠ dk.cwd ++ [n]) :
    (Disk.make dk n).nodes r = dk.nodes r := Function.update_of_ne h ..

/-- A directory is made, or it is there. -/
theorem attains_mkdir (hn : Plain volume n) (hcwd : dk.nodes dk.cwd = some .directory)
    (hfree : ∀ content, dk.nodes (dk.cwd ++ [n]) ≠ some (.file content)) (mode : ℕ) :
    Prog.Attains (Answers names listing) (System.next names) (fun s' _ => s' = ⟨sv, Disk.make dk n⟩)
      ⟨sv, dk⟩ (call (.mkdir n mode)) := by
  intro (ret : ℤ) hanswer
  have hplace : dk.place n = dk.cwd ++ [n] := locate_plain hn dk.cwd
  have hret : if dk.nodes (dk.place n) = none ∧ dk.nodes (dk.place n).dropLast = some .directory then
      ret = 0 else ret = -1 := hanswer.1
  rw [hplace, List.dropLast_concat] at hret
  show System.mk sv (dk.next (.mkdir n mode) ret) = _
  refine congrArg (System.mk sv) ?_
  show (if ret = 0 then { dk with nodes := Function.update dk.nodes (dk.place n) (some .directory) }
    else dk) = _
  rw [hplace]
  by_cases hnone : dk.nodes (dk.cwd ++ [n]) = none
  · rw [if_pos ⟨hnone, hcwd⟩] at hret
    rw [if_pos hret]
    rfl
  · rw [if_neg fun h => hnone h.1] at hret
    rw [if_neg (by omega)]
    have hthere : dk.nodes (dk.cwd ++ [n]) = some .directory := by
      obtain ⟨node, hnode⟩ := Option.ne_none_iff_exists'.mp hnone
      cases node with
      | directory => exact hnode
      | file content => exact absurd hnode (hfree content)
    rw [Disk.make, ← hthere, Function.update_eq_self]

/-- The working directory is changed to one that is there. -/
theorem attains_chdir {path : CString} (hplace : dk.place path = L)
    (hdir : dk.nodes L = some .directory) :
    Prog.Attains (Answers names listing) (System.next names)
      (fun s' _ => s' = ⟨sv, { dk with cwd := L }⟩) ⟨sv, dk⟩ (call (.chdir path)) := by
  intro (ret : ℤ) hanswer
  have hret : if dk.nodes (dk.place path) = some .directory then ret = 0 else ret = -1 := hanswer.1
  rw [hplace, if_pos hdir] at hret
  refine congrArg (System.mk sv) ?_
  show (if ret = 0 then { dk with cwd := dk.place path } else dk) = _
  rw [if_pos hret, hplace]

/-- The programs of the library leave the local system alone. -/
theorem attains_lift {α : Type} {Q : FileServer.Server ι → α → Prop} {program : AfpM α}
    (hp : Prog.Attains (Serves names listing) (FileServer.next names) Q sv program) :
    Prog.Attains (Answers names listing) (System.next names)
      (fun s' a => ∃ sv', s' = ⟨sv', dk⟩ ∧ Q sv' a) ⟨sv, dk⟩ program.lift :=
  attains_lift_of hp fun _ _ _ h => h

/-! ## The entries -/

theorem basename_plain (hn : Plain volume n) : basename n = (n, n) := by
  have hlast : ∀ hne : n ≠ [], ¬ decide (n.getLast hne = slash) = true := fun hne h =>
    hn.canonical.2 (of_decide_eq_true h ▸ List.getLast_mem hne)
  have hstripped : n.rdropWhile (· = slash) = n := List.rdropWhile_eq_self_iff.mpr hlast
  rw [basename, hstripped, if_neg hn.canonical.1, if_neg hn.canonical.1,
    Scan.strrchr_of_not_mem hn.canonical.2]

theorem destination_plain (hn : Plain volume n) (p : List CString) : destination p n = p ++ [n] := by
  have hhead : n.head? ≠ some slash := fun h => hn.canonical.2 (List.mem_of_mem_head? h)
  rw [destination, if_neg hhead, requestedPath_of_canonical hn.canonical]

/-- The path that `get_dir()` prints. -/
theorem totalPath_spell {p : List CString} (hn : Plain volume n) (hknown : Known volume (p ++ [n])) :
    (if spell p = [slash] then slash :: n else spell p ++ slash :: n).take (AFP_MAX_PATH - 1) =
      spell (p ++ [n]) := by
  have hp : Canonical p := fun name hname => hknown.canonical name (List.mem_append_left _ hname)
  have hhead : n.head? ≠ some slash := fun h => hn.canonical.2 (List.mem_of_mem_head? h)
  have hslash : n ≠ [slash] := fun h => hhead (by rw [h]; rfl)
  have hbelow := newdir_spell hp hn.canonical.1 (destination_plain hn p ▸ hknown)
  rw [if_neg hhead, destination_plain hn, below] at hbelow
  simpa only [hslash, false_or] using hbelow

/-- The argument of `com_get_file()` is a name in `curdir`. -/
theorem argument_plain {p : List CString} (hn : Plain volume n) (hknown : Known volume (p ++ [n])) :
    Argument (spell p) n (spell (p ++ [n])) n where
  parsed := by
    have hp : Canonical p := fun name hname => hknown.canonical name (List.mem_append_left _ hname)
    refine ⟨n, hn.argument, ?_, ?_⟩
    · rw [basename_plain hn]
    · rw [basename_plain hn, ← destination_plain hn p]
      exact getServerPath_spell hp hn.canonical.1 (destination_plain hn p ▸ hknown)

end Local

/-! ## The directory -/

section Directory

variable {ι : Type} [DecidableEq ι] {names : Names ι} {listing : UInt32 → List AfpFileInfo}
  {sv : FileServer.Server ι} {volume : Volume} {steps : ℕ} {garbage : UInt64}

/-- The bytes in the files at a name, where there are so many below each directory. -/
def size (names : Names ι) (s : FileServer.Server ι) (below : UInt32 → ℕ) (d : UInt32)
    (n : CString) : ℕ :=
  match entries names s d n with
  | some (.directory c) => below c
  | some .file => (s.content (names.fork false d n)).length
  | none => 0

/-- The bytes in the files below a directory that is not deeper than that. -/
def bytes (names : Names ι) (listing : UInt32 → List AfpFileInfo) (s : FileServer.Server ι) :
    ℕ → UInt32 → ℕ
  | 0, _ => 0
  | depth + 1, d =>
    (((listing d).map (·.name)).map (size names s (bytes names listing s depth) d)).sum

/-- `curdir` after the directory at a path was got: it has not moved, or it is there or below. -/
def Strays (names : Names ι) (s : FileServer.Server ι) (p : List CString) (d : UInt32)
    (curdir curdir' : CString) : Prop :=
  curdir' = curdir ∨ ∃ q c, find (entries names s) d q = some (.directory c) ∧ curdir' = spell (p ++ q)

omit [DecidableEq ι] in
theorem Strays.trans {p : List CString} {d : UInt32} {curdir curdir' curdir'' : CString}
    (h : Strays names sv p d curdir curdir') (h' : Strays names sv p d curdir' curdir'') :
    Strays names sv p d curdir curdir'' := by
  rcases h' with rfl | h'
  · exact h
  · exact .inr h'

omit [DecidableEq ι] in
theorem Strays.up {p : List CString} {d c : UInt32} {n curdir curdir' : CString}
    (hc : entries names sv d n = some (.directory c))
    (h : Strays names sv (p ++ [n]) c curdir curdir') : Strays names sv p d curdir curdir' := by
  rcases h with rfl | ⟨q, b, hb, rfl⟩
  · exact .inl rfl
  · exact .inr ⟨n :: q, b, find_cons_eq_directory.mpr ⟨c, hc, hb⟩, by simp⟩

/-- A directory of the server is got into the working directory. -/
def Got (names : Names ι) (listing : UInt32 → List AfpFileInfo) (sv : FileServer.Server ι)
    (depth : ℕ) (p : List CString) (n : CString) (c : UInt32)
    (getSub : CString → UInt64 → CString → CommandM (ℤ × UInt64 × CString)) : Prop :=
  ∀ dk : Disk, dk.nodes dk.cwd = some .directory →
    Compatible Alike dk.nodes (dk.cwd ++ [n]) (remote names sv c) → ∀ total curdir,
    Prog.Attains (Answers names listing) (System.next names)
      (fun s' res => s' = ⟨sv, { dk with
          nodes := graft dk.nodes (dk.cwd ++ [n]) (remote names sv c) }⟩ ∧ res.1 = 0 ∧
        res.2.1 = .ofNat (bytes names listing sv depth c) ∧
        Strays names sv (p ++ [n]) c curdir res.2.2)
      ⟨sv, dk⟩ (getSub n total curdir)

omit [DecidableEq ι] in
@[simp] theorem remote_nil (d : UInt32) : remote names sv d [] = some .directory := rfl

omit [DecidableEq ι] in
theorem remote_cons_of_directory {d c : UInt32} {n : CString}
    (hc : entries names sv d n = some (.directory c)) :
    (fun q => remote names sv d (n :: q)) = remote names sv c := by
  funext q
  rw [remote, hc]

omit [DecidableEq ι] in
theorem remote_cons_of_file {d : UInt32} {n : CString} (hfile : entries names sv d n = some .file) :
    (fun q => remote names sv d (n :: q)) = fun q =>
      if q = [] then some (.file (sv.content (names.fork false d n))) else none := by
  funext q
  rw [remote, hfile]

/-- What the loop asks of an entry. -/
structure Entered (volume : Volume) (names : Names ι) (listing : UInt32 → List AfpFileInfo)
    (sv : FileServer.Server ι) (steps depth : ℕ) (p : List CString) (d : UInt32)
    (getSub : CString → UInt64 → CString → CommandM (ℤ × UInt64 × CString)) (e : AfpFileInfo) :
    Prop where
  plain : Plain volume e.name
  known : Known volume (p ++ [e.name])
  directory : e.isdir = true → ∃ c, entries names sv d e.name = some (.directory c) ∧
    Got names listing sv depth p e.name c getSub
  file : e.isdir = false → entries names sv d e.name = some .file ∧
    (sv.content (names.fork false d e.name)).length + 1 < steps ∧
    (sv.content (names.fork false d e.name)).length < Placement.positions volume

/-- **A file is got**, and is put at its name. -/
theorem attains_file {depth : ℕ} {p : List CString} {d : UInt32}
    {getSub : CString → UInt64 → CString → CommandM (ℤ × UInt64 × CString)}
    (hmapped : Mapped volume) (hroom : BUF_SIZE ≤ volume.server.rxQuantum.toNat)
    (hd : find (entries names sv) AFP_ROOT_DID p = some (.directory d)) {e : AfpFileInfo}
    (he : Entered volume names listing sv steps depth p d getSub e) (hisfile : e.isdir = false)
    {dk : Disk} (hcwd : dk.nodes dk.cwd = some .directory)
    (hcompatible : Compatible Alike dk.nodes (dk.cwd ++ [e.name])
      fun q => remote names sv d (e.name :: q)) :
    Prog.Attains (Answers names listing) (System.next names)
      (fun s' res => s' = ⟨sv, { dk with
          nodes := graft dk.nodes (dk.cwd ++ [e.name]) fun q => remote names sv d (e.name :: q) }⟩ ∧
        res = (0, some (.ofNat (size names sv (bytes names listing sv depth) d e.name))))
      ⟨sv, dk⟩ (comGetFile volume (spell p) e.name steps) := by
  obtain ⟨hfile, hfuel, hposition⟩ := he.file hisfile
  rw [remote_cons_of_file hfile] at hcompatible ⊢
  have hhere : dk.place e.name = dk.cwd ++ [e.name] := locate_plain he.plain dk.cwd
  have hlocal : FileCanBe dk.nodes (dk.place e.name) := by
    rw [hhere]
    refine ⟨fun hdir => ?_, ?_⟩
    · have halike := hcompatible [] _ .directory (if_pos rfl) (by rw [List.append_nil, hdir])
      exact Node.noConfusion (halike.mpr rfl)
    · rw [List.dropLast_concat, hcwd]
  have hpath := pathTo he.known hd
  have hfork : Transfer.file names (spell (p ++ [e.name])) d = names.fork false d e.name := by
    rw [Transfer.file, lastComponent_spell he.known]
  have hget := attains_comGetFile hpath hfork.symm (present_of_entries hfile) hmapped
    ⟨hpath.spelled, hroom, hposition⟩ (argument_plain he.plain he.known) hlocal hfuel
  refine (hget.of_imp fun s ev (h : Answers names listing s ev) => h.1).mono fun s' res h => ?_
  rw [hhere] at h
  rw [graft_leaf, size, hfile]
  exact h

/-- **The entries of a directory are got** one by one, and what they are is put at their names. -/
theorem attains_getEntries {depth : ℕ} {p : List CString} {d : UInt32}
    {getSub : CString → UInt64 → CString → CommandM (ℤ × UInt64 × CString)}
    (hmapped : Mapped volume) (hroom : BUF_SIZE ≤ volume.server.rxQuantum.toNat)
    (hd : find (entries names sv) AFP_ROOT_DID p = some (.directory d)) {es : List AfpFileInfo}
    (hentered : ∀ e ∈ es, Entered volume names listing sv steps depth p d getSub e)
    (hnodup : (es.map (·.name)).Nodup) {dk : Disk} (hcwd : dk.nodes dk.cwd = some .directory)
    (hcompatible : ∀ e ∈ es, Compatible Alike dk.nodes (dk.cwd ++ [e.name])
      fun q => remote names sv d (e.name :: q)) (amountWritten localTotal : UInt64) (curdir : CString) :
    Prog.Attains (Answers names listing) (System.next names)
      (fun s' res => s' = ⟨sv, { dk with
          nodes := graftAll dk.cwd (remote names sv d) dk.nodes (es.map (·.name)) }⟩ ∧
        res.1 = localTotal +
          .ofNat ((es.map (·.name)).map (size names sv (bytes names listing sv depth) d)).sum ∧
        Strays names sv p d curdir res.2)
      ⟨sv, dk⟩ (getEntries volume steps (spell p) getSub es amountWritten localTotal curdir) := by
  induction es generalizing dk amountWritten localTotal curdir with
  | nil => exact ⟨rfl, (UInt64.add_zero _).symm, .inl rfl⟩
  | cons e es ih =>
    obtain ⟨he, hes⟩ := List.forall_mem_cons.mp hentered
    obtain ⟨hce, hces⟩ := List.forall_mem_cons.mp hcompatible
    obtain ⟨hfresh, hnodup⟩ := List.nodup_cons.mp hnodup
    -- the rest goes on from what the entry has left
    have hrest : ∀ amount total curdir',
        total = localTotal + .ofNat (size names sv (bytes names listing sv depth) d e.name) →
        Strays names sv p d curdir curdir' →
        Prog.Attains (Answers names listing) (System.next names)
          (fun s' res => s' = ⟨sv, { dk with
              nodes := graftAll dk.cwd (remote names sv d) dk.nodes ((e :: es).map (·.name)) }⟩ ∧
            res.1 = localTotal + .ofNat
              (((e :: es).map (·.name)).map (size names sv (bytes names listing sv depth) d)).sum ∧
            Strays names sv p d curdir res.2)
          ⟨sv, { dk with
              nodes := graft dk.nodes (dk.cwd ++ [e.name]) fun q => remote names sv d (e.name :: q) }⟩
          (getEntries volume steps (spell p) getSub es amount total curdir') := by
      intro amount total curdir' htotal hstrays
      have hcwd' : graft dk.nodes (dk.cwd ++ [e.name]) (fun q => remote names sv d (e.name :: q)) dk.cwd =
          some .directory := by
        rw [graft_of_not_above fun h => by simpa using h.length_le, hcwd]
      have hces' : ∀ f ∈ es, Compatible Alike
          (graft dk.nodes (dk.cwd ++ [e.name]) fun q => remote names sv d (e.name :: q))
          (dk.cwd ++ [f.name]) fun q => remote names sv d (f.name :: q) := fun f hf =>
        (hces f hf).graft fun h => hfresh (List.mem_map.mpr ⟨f, hf, h.symm⟩)
      refine (ih hes hnodup hcwd' hces' amount total curdir').mono fun s' res h => ?_
      obtain ⟨hs, hsum, hstrays'⟩ := h
      refine ⟨hs, ?_, hstrays.trans hstrays'⟩
      rw [hsum, htotal, List.map_cons, List.map_cons, List.sum_cons, UInt64.ofNat_add,
        UInt64.add_assoc]
    rw [getEntries]
    refine Prog.attains_ite (fun hisdir => ?_) fun hisfile => ?_
    · obtain ⟨c, hc, hgot⟩ := he.directory hisdir
      have hremote := remote_cons_of_directory hc
      rw [hremote] at hce hrest
      refine (hgot dk hcwd hce amountWritten curdir).bind fun s' res h => ?_
      obtain ⟨ret, amount, curdir'⟩ := res
      obtain ⟨rfl, -, hamount, hstrays⟩ := h
      refine hrest amount (localTotal + amount) curdir' ?_ (Strays.up hc hstrays)
      obtain rfl : amount = _ := hamount
      rw [size, hc]
    · refine (attains_file hmapped hroom hd he (Bool.eq_false_of_not_eq_true hisfile) hcwd hce).bind
        fun s' res h => ?_
      obtain ⟨rfl, rfl⟩ := h
      exact hrest _ _ (spell p) rfl (.inr ⟨[], d, rfl, by rw [List.append_nil]⟩)

omit [DecidableEq ι] in
/-- An entry keeps its name in the list. -/
theorem present_plain {fi e : AfpFileInfo} (hplain : Plain volume fi.name)
    (h : Enumerate.present volume fi = some e) : e.name = fi.name ∧ e.isdir = fi.isdir := by
  obtain ⟨ret, hret⟩ := hplain.converted
  rw [Enumerate.present_eq, Enumerate.converted, hret] at h
  obtain rfl := Option.some.inj h
  rw [Enumerate.withPerms]
  split <;> exact ⟨rfl, rfl⟩

/-- What is listed has the names of the entries. -/
theorem map_of_present {es list : List AfpFileInfo} (hplain : ∀ fi ∈ es, Plain volume fi.name)
    (h : List.Forall₂ (fun fi e => Enumerate.present volume fi = some e) es list) :
    list.map (fun e => (e.name, e.isdir)) = es.map fun fi => (fi.name, fi.isdir) := by
  induction h with
  | nil => rfl
  | cons hfi _ ih =>
    obtain ⟨hplain, hrest⟩ := List.forall_mem_cons.mp hplain
    obtain ⟨hname, hisdir⟩ := present_plain hplain hfi
    rw [List.map_cons, List.map_cons, ih hrest, hname, hisdir]

omit [DecidableEq ι] in
/-- What the listing says of its entries. -/
theorem entries_of_listed {d : UInt32} (h : Enumerates (entries names sv) d (listing d))
    {fi : AfpFileInfo} (hfi : fi ∈ listing d) :
    (fi.isdir = true → ∃ c, entries names sv d fi.name = some (.directory c)) ∧
      (fi.isdir = false → entries names sv d fi.name = some .file) := by
  constructor
  · intro hisdir
    have hkind := (h.complete fi.name .directory).mpr ⟨fi, hfi, rfl, iff_of_true hisdir rfl⟩
    obtain ⟨e, he, hdirectory⟩ := Option.map_eq_some_iff.mp hkind
    cases e with
    | file => cases hdirectory
    | directory c => exact ⟨c, he⟩
  · intro hisfile
    have hkind := (h.complete fi.name .file).mpr
      ⟨fi, hfi, rfl, iff_of_false (by simp [hisfile]) (by simp)⟩
    obtain ⟨e, he, hfile⟩ := Option.map_eq_some_iff.mp hkind
    cases e with
    | file => exact he
    | directory c => cases hfile

omit [DecidableEq ι] in
/-- A directory in one that can be got. -/
theorem GettableBelow.child {depth : ℕ} {p : List CString} {d c : UInt32} {n : CString}
    (h : GettableBelow volume names listing sv steps (depth + 1) p d)
    (hc : entries names sv d n = some (.directory c)) :
    GettableBelow volume names listing sv steps depth (p ++ [n]) c where
  each q b hb := by
    have hbelow := h.each (n :: q) b (find_cons_eq_directory.mpr ⟨c, hc, hb⟩)
    rwa [List.append_assoc, List.singleton_append]
  depth q b hb := Nat.lt_of_succ_lt_succ (h.depth (n :: q) b (find_cons_eq_directory.mpr ⟨c, hc, hb⟩))

omit [DecidableEq ι] in
/-- The names in a directory are those that are listed. -/
theorem mem_names_of_remote {d : UInt32} (h : Enumerates (entries names sv) d (listing d)) {n : CString}
    {q : List CString} (hq : remote names sv d (n :: q) ≠ none) : n ∈ (listing d).map (·.name) := by
  cases he : entries names sv d n with
  | none =>
    rw [remote, he] at hq
    exact absurd rfl hq
  | some e =>
    obtain ⟨fi, hfi, hname, -⟩ := (h.complete n e.kind).mp (by rw [he, Option.map_some])
    exact List.mem_map.mpr ⟨fi, hfi, hname⟩

omit [DecidableEq ι] in
/-- What is below a directory is as it was before it was made. -/
theorem compatible_enter {dk : Disk} {c : UInt32} {n : CString}
    (h : Compatible Alike dk.nodes (dk.cwd ++ [n]) (remote names sv c)) :
    Compatible Alike (Disk.enter dk n).nodes (Disk.enter dk n).cwd (remote names sv c) := by
  intro q v w hv hw
  by_cases hq : q = []
  · obtain rfl := hq
    have hmade : (Disk.enter dk n).nodes (dk.cwd ++ [n]) = some .directory := Function.update_self ..
    obtain rfl := Option.some.inj hv
    obtain rfl := Option.some.inj (hmade.symm.trans ((List.append_nil _).symm ▸ hw))
    exact Iff.rfl
  · exact h q v w hv ((Disk.make_of_ne (by simpa using hq)).symm.trans hw)

omit [DecidableEq ι] in
/-- The trees of the names in a directory that was made are its tree. -/
theorem graftAll_enter (dk : Disk) (n : CString) {c : UInt32}
    (h : Enumerates (entries names sv) c (listing c)) :
    graftAll (Disk.enter dk n).cwd (remote names sv c) (Disk.enter dk n).nodes
      ((listing c).map (·.name)) = graft dk.nodes (dk.cwd ++ [n]) (remote names sv c) := by
  have hmade : (Disk.enter dk n).nodes (Disk.enter dk n).cwd = some .directory :=
    Function.update_self ..
  have hroot : (remote names sv c []).or ((Disk.enter dk n).nodes (Disk.enter dk n).cwd) =
      (Disk.enter dk n).nodes (Disk.enter dk n).cwd := by
    rw [hmade, remote_nil, Option.some_or]
  rw [← graft_eq_graftAll hroot fun m q hq => mem_names_of_remote h hq]
  exact graft_update _ (remote_nil c)

/-- **`get_dir()` puts the tree** below the directory at its name in the working directory, and
comes back. -/
theorem attains_getDir {depth : ℕ} {p : List CString} {d c : UInt32} {n : CString}
    (hmapped : Mapped volume) (hroom : BUF_SIZE ≤ volume.server.rxQuantum.toNat)
    (hn : Plain volume n) (hknown : Known volume (p ++ [n]))
    (hd : find (entries names sv) AFP_ROOT_DID p = some (.directory d))
    (hc : entries names sv d n = some (.directory c))
    (hgettable : GettableBelow volume names listing sv steps depth (p ++ [n]) c) :
    Got names listing sv depth p n c (getDir volume steps garbage depth (spell p)) := by
  induction depth generalizing p d c n with
  | zero => exact absurd (hgettable.depth [] c rfl) (Nat.not_lt_zero _)
  | succ depth ih =>
    intro dk hcwd hcompatible total curdir
    have hhere : Gettable volume names listing sv steps (p ++ [n]) c := by
      have heach := hgettable.each [] c rfl
      rwa [List.append_nil] at heach
    have hpn : find (entries names sv) AFP_ROOT_DID (p ++ [n]) = some (.directory c) :=
      (find_concat_of_directory hd).trans hc
    rw [getDir]
    simp only [totalPath_spell hn hknown]
    have hfree : ∀ content, dk.nodes (dk.cwd ++ [n]) ≠ some (.file content) := fun content hfile => by
      have halike := hcompatible [] .directory (.file content) rfl (by rw [List.append_nil, hfile])
      exact Node.noConfusion (halike.mp rfl)
    refine (attains_mkdir hn hcwd hfree _).bind fun s' _ h => ?_
    obtain rfl := h
    have hmade : (Disk.enter dk n).nodes (Disk.enter dk n).cwd = some .directory :=
      Function.update_self ..
    have hplace : (Disk.make dk n).place n = dk.cwd ++ [n] := locate_plain hn dk.cwd
    refine (attains_chdir hplace hmade).bind fun s' _ h => ?_
    obtain rfl : s' = ⟨sv, Disk.enter dk n⟩ := h
    refine (attains_lift (attains_afpMlReaddir hknown hd hc hhere)).bind fun s' res h => ?_
    obtain ⟨ret, filebase⟩ := res
    obtain ⟨sv, rfl, rfl, list, hres, hpresent⟩ := h
    obtain ⟨rfl, rfl⟩ := Prod.mk.inj hres
    have hmap := map_of_present hhere.plain hpresent
    have hnames : list.map (·.name) = (listing c).map (·.name) := by
      have hfst := congrArg (List.map Prod.fst) hmap
      rwa [List.map_map, List.map_map] at hfst
    have hentered : ∀ e ∈ list, Entered volume names listing sv steps depth (p ++ [n]) c
        (getDir volume steps garbage depth (spell (p ++ [n]))) e := by
      intro e he
      obtain ⟨fi, hfi, heq⟩ := List.mem_map.mp (hmap ▸ List.mem_map_of_mem he)
      obtain ⟨hname, hisdir⟩ := Prod.mk.inj heq
      obtain ⟨hdirectory, hfile⟩ := entries_of_listed hhere.listed hfi
      have hplain := hhere.plain fi hfi
      have hknown' := hhere.known fi hfi
      have hsizes := hhere.sizes fi hfi
      rw [hname] at hdirectory hfile hplain hknown' hsizes
      rw [hisdir] at hdirectory hfile hsizes
      refine ⟨hplain, hknown', fun h => ?_, fun h => ⟨hfile h, hsizes h⟩⟩
      obtain ⟨b, hb⟩ := hdirectory h
      exact ⟨b, hb, ih hplain hknown' hpn hb (hgettable.child hb)⟩
    have hnodup : (list.map (·.name)).Nodup := hnames ▸ hhere.listed.nodup
    refine (attains_getEntries hmapped hroom hpn hentered hnodup hmade
      (fun e _ => (compatible_enter hcompatible).child e.name) garbage 0 curdir).bind fun s' res h => ?_
    obtain ⟨localTotal, curdir'⟩ := res
    obtain ⟨rfl, hsum, hstrays⟩ := h
    have hgraft := graftAll_enter dk n hhere.listed
    rw [← hnames] at hgraft
    have hup : (graft dk.nodes (dk.cwd ++ [n]) (remote names sv c)) dk.cwd = some .directory := by
      rw [graft_of_not_above fun h => by simpa using h.length_le, hcwd]
    refine (attains_chdir (L := dk.cwd) ?_ ?_).bind fun s' _ h => ?_
    · exact (locate_up _).trans List.dropLast_concat
    · exact (congrFun hgraft dk.cwd).trans hup
    · obtain rfl := h
      refine ⟨?_, rfl, ?_, hstrays⟩
      · refine congrArg (System.mk sv) ?_
        show Disk.mk (graftAll _ _ (Disk.enter dk n).nodes _) dk.cwd dk.fds = _
        rw [hgraft]
      · refine hsum.trans ?_
        rw [hnames, UInt64.zero_add]
        rfl

/-! ## The command -/

/-- A path has no slash at its end. -/
theorem rdropWhile_spell {p : List CString} (hp : Canonical p) (hne : p ≠ []) :
    (spell p).rdropWhile (· = slash) = spell p := by
  refine List.rdropWhile_eq_self_iff.mpr fun hspell hlast => ?_
  obtain ⟨front, n, rfl⟩ : ∃ front n, p = front ++ [n] :=
    ⟨_, _, (List.dropLast_append_getLast hne).symm⟩
  have hn := hp n (by simp)
  simp only [spell_concat, PathResolution.joinPath_concat] at hlast
  rw [List.getLast_append_of_ne_nil _ (List.cons_ne_nil _ _), List.getLast_cons hn.1] at hlast
  exact hn.2 (of_decide_eq_true hlast ▸ List.getLast_mem hn.1)

theorem strrchr_spell {p : List CString} {n : CString} (hn : slash ∉ n) :
    Scan.strrchr (spell (p ++ [n])) slash = some (Scan.joinPath slash p).length := by
  rw [spell_concat, PathResolution.joinPath_concat, Scan.strrchr_append hn]

theorem spell_ne_nil (p : List CString) : spell p ≠ [] := by
  cases p <;> simp [spell, Scan.joinPath_cons]

/-- `basename()` is the last name. -/
theorem basename_spell {p : List CString} {n : CString} (hp : Canonical (p ++ [n])) :
    (basename (spell (p ++ [n]))).2 = n := by
  rw [basename, rdropWhile_spell hp (by simp), if_neg (spell_ne_nil _), if_neg (spell_ne_nil _),
    strrchr_spell (hp n (by simp)).2, spell_concat, PathResolution.joinPath_concat]
  simp

/-- `dirname()` is the path of the directory, where that is not the root. -/
theorem dirname_spell {p : List CString} {n : CString} (hp : Canonical (p ++ [n])) (hne : p ≠ []) :
    dirname (spell (p ++ [n])) = spell p := by
  have hfront : (spell (p ++ [n])).take (Scan.joinPath slash p).length = spell p := by
    rw [spell_concat, PathResolution.joinPath_concat, List.take_left, spell_of_ne_nil hne]
  have hcanonical : Canonical p := fun name hname => hp name (List.mem_append_left _ hname)
  rw [dirname, rdropWhile_spell hp (by simp), if_neg (spell_ne_nil _), if_neg (spell_ne_nil _),
    strrchr_spell (hp n (by simp)).2]
  simp only [hfront, rdropWhile_spell hcanonical hne, spell_ne_nil, if_false]

/-- What the code asks of the argument: a path that is not absolute, from a directory other than the
root. -/
structure Relative (volume : Volume) (cwd : List CString) (rel : CString) (p : List CString)
    (n : CString) : Prop where
  below : cwd ≠ []
  names : cwd ++ Scan.split slash rel = p ++ [n]
  start : ∀ c ∈ rel.head?, isSpace c = false
  plain : Plain volume n
  known : Known volume (p ++ [n])
  short : (spell (p ++ [n])).length < 255

omit [DecidableEq ι] in
/-- The path that `com_get()` prints. -/
theorem Relative.newpath {cwd p : List CString} {rel n : CString} (h : Relative volume cwd rel p n) :
    (spell cwd ++ slash :: rel.dropWhile isSpace).take 254 = spell (p ++ [n]) := by
  have hcwd : Canonical cwd := fun name hname =>
    h.known.canonical name (h.names ▸ List.mem_append_left _ hname)
  have hlength := one_lt_length_spell hcwd h.below
  have hskip : rel.dropWhile isSpace = rel := by
    cases rel with
    | nil => rfl
    | cons c rel => exact List.dropWhile_cons_of_neg (by simpa using h.start c rfl)
  have hpath : spell cwd ++ slash :: rel = spell (p ++ [n]) := by
    rw [← h.names, spell_append_split hcwd, if_neg (by omega)]
  rw [hskip, hpath]
  exact List.take_of_length_le (Nat.le_of_lt_succ h.short)

omit [DecidableEq ι] in
theorem Relative.parent_ne_nil {cwd p : List CString} {rel n : CString}
    (h : Relative volume cwd rel p n) : p ≠ [] := by
  intro hp
  have hlength := congrArg List.length h.names
  have hcwd := List.length_pos_of_ne_nil h.below
  have hsplit := List.length_pos_of_ne_nil (Scan.split_ne_nil (c := slash) rel)
  rw [hp, List.length_append, List.nil_append, List.length_singleton] at hlength
  omega

/-- **`get -r` copies a directory**: the tree below it, with the contents of all files, is put at its
name in the local working directory, over what is there.  What it says were got are the bytes of the
files, and `curdir` is where it was, or at a directory of the tree. -/
theorem comGet_copies {depth : ℕ} {cwd p : List CString} {d c : UInt32} {rel n : CString}
    (hmapped : Mapped volume) (hroom : BUF_SIZE ≤ volume.server.rxQuantum.toNat)
    (hrel : Relative volume cwd rel p n)
    (hd : find (entries names sv) AFP_ROOT_DID p = some (.directory d))
    (hc : entries names sv d n = some (.directory c))
    (hgettable : GettableBelow volume names listing sv steps depth (p ++ [n]) c) {dk : Disk}
    (hlocal : dk.nodes dk.cwd = some .directory)
    (hcompatible : Compatible Alike dk.nodes (dk.cwd ++ [n]) (remote names sv c)) :
    Prog.Attains (Answers names listing) (System.next names)
      (fun s' res => s' = ⟨sv, { dk with
          nodes := graft dk.nodes (dk.cwd ++ [n]) (remote names sv c) }⟩ ∧ res.1 = 0 ∧
        res.2.1 = some (.ofNat (bytes names listing sv depth c)) ∧
        Strays names sv (p ++ [n]) c (spell cwd) res.2.2)
      ⟨sv, dk⟩ (comGet volume steps garbage depth (spell cwd) (ascii ['-', 'r', ' '] ++ rel)) := by
  have hargument : (ascii ['-', 'r', ' '] ++ rel).take 3 = ascii ['-', 'r', ' '] := rfl
  have hpath : (ascii ['-', 'r', ' '] ++ rel).drop 3 = rel := rfl
  rw [comGet, if_pos hargument]
  simp only [hpath, hrel.newpath, recursiveGet, basename_spell hrel.known.canonical,
    dirname_spell hrel.known.canonical hrel.parent_ne_nil]
  rw [bind_assoc]
  refine (attains_getDir hmapped hroom hrel.plain hrel.known hd hc hgettable dk hlocal hcompatible garbage
    (spell cwd)).bind fun s' res h => ?_
  obtain ⟨ret, amount, curdir⟩ := res
  obtain ⟨rfl, -, rfl, hstrays⟩ := h
  exact ⟨rfl, rfl, rfl, hstrays⟩

end Directory

/-! ## A directory with a file -/

/-- A server with the directories `a` and `a/b`. -/
def nested : Names (Bool × UInt32 × CString) where
  tree did name :=
    if did = AFP_ROOT_DID ∧ name = [0x61] then .ok ⟨16, true⟩
    else if did = 16 ∧ name = [0x62] then .ok ⟨17, true⟩
    else .error kFPObjectNotFound
  fork resource did name := (resource, did, name)

/-- There is a file `c` in `a/b`. -/
def sharing : FileServer.Server (Bool × UInt32 × CString) where
  present i := i = (false, 17, [0x63])
  content _ := [1, 2]
  opened _ := none

/-- And it is listed. -/
def entryOf (did : UInt32) : List AfpFileInfo := if did = 17 then [Enumerate.named [0x63]] else []

/-- An empty directory. -/
def empty : Disk where
  nodes p := if p = [] then some .directory else none
  cwd := []
  fds _ := none

/-- A letter is what it was after a conversion. -/
theorem converted_letter {c : Char} (hc : InBmp c) (hlength : (utf8 [c]).length < AFP_MAX_PATH) :
    convertPathToUnix .kFPUTF8Name (utf8 (expand [c])) AFP_MAX_PATH = some (0, utf8 [c]) := by
  have hpre : convertUtf8decToUtf8pre (utf8 (expand [c])) = some (utf8 [c]) :=
    convertUtf8decToUtf8pre_expand (List.forall_mem_singleton.mpr hc) (by simp)
      (List.isChain_singleton c)
  rw [convertPathToUnix, hpre, Option.bind_some]
  exact if_pos hlength

theorem plain_b : Plain connected [0x62] where
  argument := by decide
  canonical := by decide
  dots := by decide
  converted := ⟨0, converted_letter (c := 'b') ⟨by decide, by decide⟩ (by decide)⟩

theorem plain_c : Plain connected [0x63] where
  argument := by decide
  canonical := by decide
  dots := by decide
  converted := ⟨0, converted_letter (c := 'c') ⟨by decide, by decide⟩ (by decide)⟩

theorem known_b : Known connected [[0x61], [0x62]] where
  canonical := DirectoryServer.known_ab.canonical
  spelled := ⟨by decide, fun _ => rfl, DirectoryServer.valid_of_short (by decide) (by decide)⟩
  length := by decide

theorem known_c : Known connected [[0x61], [0x62], [0x63]] where
  canonical := List.forall_mem_cons.mpr ⟨by decide, List.forall_mem_cons.mpr
    ⟨by decide, List.forall_mem_singleton.mpr (by decide)⟩⟩
  spelled := ⟨by decide, fun _ => rfl, DirectoryServer.valid_of_short (by decide) (by decide)⟩
  length := by decide

theorem find_b {q : List CString} {b : UInt32}
    (h : find (entries nested sharing) 17 q = some (.directory b)) : q = [] ∧ b = 17 := by
  cases q with
  | nil => exact ⟨rfl, (Entry.directory.inj (Option.some.inj h)).symm⟩
  | cons n q =>
    obtain ⟨c, hc, -⟩ := find_cons_eq_directory.mp h
    obtain ⟨node, hnode, -, -⟩ := entries_eq_directory.mp hc
    have hnone : nested.tree 17 n = .error kFPObjectNotFound := rfl
    rw [hnone] at hnode
    cases hnode

theorem entries_17 (name : CString) :
    entries nested sharing 17 name = if name = [0x63] then some .file else none := by
  have hpresent : sharing.present (nested.fork false 17 name) = decide (name = [0x63]) := by
    simp [sharing, nested]
  have hnone : nested.tree 17 name = .error kFPObjectNotFound := rfl
  rw [entries, hnone, hpresent]
  simp only [decide_eq_true_eq]

theorem enumerates_b : Enumerates (entries nested sharing) 17 (entryOf 17) where
  nodup := List.nodup_singleton _
  complete name kind := by
    have hentries : entryOf 17 = [Enumerate.named [0x63]] := rfl
    rw [entries_17, hentries]
    by_cases hname : name = [0x63]
    · cases kind <;> simp [hname, Enumerate.named, AfpFileInfo.zero, Entry.kind]
    · simp [hname, Enumerate.named, Ne.symm hname]

theorem gettable_b : GettableBelow connected nested entryOf sharing BUF_SIZE 1 [[0x61], [0x62]] 17 where
  each q b h := by
    obtain ⟨rfl, rfl⟩ := find_b h
    refine ⟨enumerates_b, by decide, ?_, ?_, ?_⟩
    · exact List.forall_mem_singleton.mpr plain_c
    · exact List.forall_mem_singleton.mpr known_c
    · exact List.forall_mem_singleton.mpr fun _ => ⟨by decide, by decide⟩
  depth q b h := by
    obtain ⟨rfl, -⟩ := find_b h
    decide

theorem entries_a : entries nested sharing AFP_ROOT_DID [0x61] = some (.directory 16) :=
  entries_eq_directory.mpr ⟨⟨16, true⟩, rfl, rfl, rfl⟩

theorem entries_b : entries nested sharing 16 [0x62] = some (.directory 17) :=
  entries_eq_directory.mpr ⟨⟨17, true⟩, rfl, rfl, rfl⟩

theorem relative_b : Relative connected [[0x61]] [0x62] [[0x61]] [0x62] where
  below := by decide
  names := by decide
  start c hc := by
    obtain rfl := Option.some.inj hc
    decide
  plain := plain_b
  known := known_b
  short := by decide

theorem compatible_empty : Compatible Alike empty.nodes (empty.cwd ++ [[0x62]])
    (remote nested sharing 17) := by
  intro q v w _ hw
  have hnone : ∀ p : List CString, p ≠ [] → empty.nodes p = none := fun p hp => if_neg hp
  rw [hnone _ (by simp)] at hw
  cases hw

theorem bytes_b : bytes nested entryOf sharing 1 17 = 2 := rfl

/-- The file is copied, and its two bytes are counted. -/
theorem comGet_copies_of_file :
    Prog.Attains (Answers nested entryOf) (System.next nested)
      (fun s' res => s'.disk.nodes [[0x62], [0x63]] = some (.file [1, 2]) ∧ res.2.1 = some 2)
      ⟨sharing, empty⟩
      (comGet connected BUF_SIZE 0 1 (spell [[0x61]]) (ascii ['-', 'r', ' '] ++ [0x62])) := by
  have hmapped : Mapped connected := fun _ _ => rfl
  have hroom : BUF_SIZE ≤ connected.server.rxQuantum.toNat := by decide
  have hcopies : Prog.Attains (Answers nested entryOf) (System.next nested) _ ⟨sharing, empty⟩
      (comGet connected BUF_SIZE 0 1 (spell [[0x61]]) (ascii ['-', 'r', ' '] ++ [0x62])) :=
    comGet_copies hmapped hroom relative_b (find_singleton.trans entries_a) entries_b gettable_b rfl
      compatible_empty
  refine hcopies.mono fun s' res h => ?_
  obtain ⟨rfl, -, hbytes, -⟩ := h
  rw [bytes_b] at hbytes
  exact ⟨rfl, hbytes⟩

end RecursiveGet
end Cmdline
end Afpfs

import Afpfs.Cmdline.Transfer
import Afpfs.DirectorySession

/-!
# The directory of the command line client

The command line client keeps the path of a directory in `curdir`, which `cd` changes by cutting and
joining strings, and which the other commands put in front of a path that is not absolute.

The abstract shell has the names of the current directory, and the abstract file system of
`Afpfs.DirectoryServer`.

* `serverPath_spell`: what `get_server_path()` prints is the path that the names of the file make up.
* `comes_comCd`: `cd` goes to a directory, or stays.
* `commands_refine`: whatever a session comes to on the abstract shell, it comes to with the commands.
-/

set_option autoImplicit false

namespace Afpfs
namespace Cmdline
namespace Shell

open Interaction Unicode Codepage Hierarchy DirectoryServer
open Transfer (argumentPath serverPath getServerPath PATH_MAX dot)
open PathResolution (requestedName joinPath_concat)

/-! ## The commands -/

/-- The last slash of a path is chopped off, unless it is all of it. -/
def chop (path : CString) : CString :=
  if 1 < path.length ∧ path.getLast? = some slash then path.dropLast else path

/-- The directory above `curdir`, if there is a slash in it. -/
def upwards (curdir : CString) : Option CString :=
  if curdir.length = 1 then some curdir
  else (Scan.strrchr curdir slash).map fun p => if p = 0 then [slash] else curdir.take p

/-- The path of a directory that is not absolute, for a buffer of `AFP_MAX_PATH` bytes. -/
def below (curdir path : CString) : CString :=
  (if path = [slash] ∨ curdir = [slash] then slash :: path else curdir ++ slash :: path).take
    (AFP_MAX_PATH - 1)

/-- `com_cd()`, where there is a volume: its result, and `curdir`. -/
def comCd (vol : Volume) (curdir arg : CString) : AfpM (ℤ × CString) := do
  let parsed ← ofOption (argumentPath arg)
  let path := chop (parsed.getD [])
  let curdir := chop curdir
  if path = [dot, dot] then
    match upwards curdir with
    | some up => return (0, up)
    | none => return (-1, curdir)
  else do
    let newdir := if path.head? = some slash then path else below curdir path
    let (ret, stbuf) ← afpMlGetattr vol newdir
    if ret = 0 ∧ stbuf.stMode &&& S_IFDIR ≠ 0 then return (0, newdir)
    else if stbuf.stMode &&& S_IFDIR = 0 then return (0, curdir)
    else return (-1, curdir)

/-- A command with the path of a file. -/
def withPath (curdir arg : CString) (command : CString → AfpM ℤ) : AfpM ℤ := do
  let parsed ← ofOption (argumentPath arg)
  match parsed with
  | none => return -1
  | some filename => do
    let path ← ofOption (getServerPath curdir filename AFP_MAX_PATH)
    command path

/-- `com_touch()`. -/
def comTouch (vol : Volume) (curdir arg : CString) : AfpM ℤ :=
  withPath curdir arg fun path => do
    let _ ← afpMlCreat vol path 0o600
    return 0

/-- `com_mkdir()`. -/
def comMkdir (vol : Volume) (curdir arg : CString) : AfpM ℤ :=
  withPath curdir arg fun path => do
    let ret ← afpMlMkdir vol path
    return if ret ≠ 0 then -1 else 0

/-- `com_rmdir()`. -/
def comRmdir (vol : Volume) (curdir arg : CString) : AfpM ℤ :=
  withPath curdir arg fun path => do
    let ret ← afpMlRmdir vol path
    return if ret ≠ 0 then -1 else 0

/-- `com_delete()`. -/
def comDelete (vol : Volume) (curdir arg : CString) : AfpM ℤ :=
  withPath curdir arg fun path => do
    let ret ← afpMlUnlink vol path
    return if ret ≠ 0 then -1 else 1

/-- `escape_paths()` into two buffers of `AFP_MAX_PATH` bytes: what it returns, and nothing if one of
them overflows. -/
def argumentPaths (arg : CString) : Option (Option (CString × CString)) :=
  let s := arg.foldl (step true) .start
  if AFP_MAX_PATH ≤ s.outgoing1.length ∨ AFP_MAX_PATH ≤ s.outgoing2.length then none
  else some (escapePaths true arg)

/-- `com_rename()`. -/
def comRename (vol : Volume) (curdir arg : CString) : AfpM ℤ := do
  let parsed ← ofOption (argumentPaths arg)
  match parsed with
  | none => return -1
  | some (fromPath, toPath) => do
    let fullFromPath ← ofOption (getServerPath curdir fromPath AFP_MAX_PATH)
    let fullToPath ← ofOption (getServerPath curdir toPath AFP_MAX_PATH)
    let (ret, _) ← afpMlGetattr vol fullFromPath
    if ret ≠ 0 then return -1
    else do
      let (ret, stbuf) ← afpMlGetattr vol fullToPath
      if ret = 0 ∧ stbuf.stMode &&& S_IFDIR = 0 then return -1
      else do
        let ret ← afpMlRename vol fullFromPath fullToPath
        return if ret ≠ 0 then -1 else 0

/-- `com_dir()`: its result, and the entries that it prints. -/
def comDir (vol : Volume) (curdir : CString) (fuel : ℕ) : AfpM (ℤ × Option (List AfpFileInfo)) := do
  let (ret, filebase) ← afpMlReaddir vol curdir fuel
  if ret ≠ 0 then return (-1, none)
  else return (0, filebase)

/-- The commands, with their arguments. -/
inductive Command where
  | cd (arg : CString)
  | pwd
  | dir
  | touch (arg : CString)
  | mkdir (arg : CString)
  | rmdir (arg : CString)
  | delete (arg : CString)
  | rename (arg : CString)

/-- What a command returns and prints. -/
inductive Outcome where
  | done (ret : ℤ)
  | path (curdir : CString)
  | listing (res : ℤ × Option (List AfpFileInfo))

/-- A command that leaves `curdir` alone. -/
def staying (curdir : CString) (command : AfpM ℤ) : AfpM (Outcome × CString) := do
  let ret ← command
  return (.done ret, curdir)

/-- A command on the volume, and `curdir` after it. -/
def Command.run (vol : Volume) (fuel : ℕ) (c : Command) (curdir : CString) : AfpM (Outcome × CString) :=
  match c with
  | .cd arg => do
    let (ret, curdir) ← comCd vol curdir arg
    return (.done ret, curdir)
  | .pwd => return (.path curdir, curdir)
  | .dir => do
    let res ← comDir vol curdir fuel
    return (.listing res, curdir)
  | .touch arg => staying curdir (comTouch vol curdir arg)
  | .mkdir arg => staying curdir (comMkdir vol curdir arg)
  | .rmdir arg => staying curdir (comRmdir vol curdir arg)
  | .delete arg => staying curdir (comDelete vol curdir arg)
  | .rename arg => staying curdir (comRename vol curdir arg)

/-! ## The abstract shell -/

/-- The names of the current directory, and the file system. -/
structure State where
  cwd : List CString
  files : Files

/-- The names that a path makes up in a directory. -/
def destination (cwd : List CString) (filename : CString) : List CString :=
  if filename.head? = some slash then requestedPath filename else cwd ++ requestedPath filename

/-- The command returns whether the operation failed. -/
def Reports (success : ℤ) (operation : ℤ → Prop) (ret : ℤ) : Prop :=
  ∃ r, operation r ∧ ret = if r ≠ 0 then -1 else success

/-- A file is moved to a path where nothing is, or that is refused. -/
def Moved (fs : Files) (p q : List CString) (r : ℤ) (fs' : Files) : Prop :=
  r = 0 ∧ fs' = Function.update (Function.update fs p none) q (some .file) ∨ r < 0 ∧ fs' = fs

/-- What `mv` does, which takes a path for a new one only if nothing is there. -/
def MovedOrNot (fs : Files) (p q : List CString) (ret : ℤ) (fs' : Files) : Prop :=
  if fs p = some .file ∧ fs q = none then Reports 0 (Moved fs p q · fs') ret
  else ret = -1 ∧ fs' = fs

/-- The directory that `cd` goes to. -/
def State.changed (s : State) (path : CString) : List CString :=
  if chop path = [dot, dot] then s.cwd.dropLast
  else if s.files (destination s.cwd (chop path)) = some .directory then
    destination s.cwd (chop path)
  else s.cwd

/-- This holds of the path that the argument stands for. -/
def OfArgument (arg : CString) (P : CString → Prop) : Prop :=
  ∀ path, argumentPath arg = some (some path) → P path

/-- What a command does, and what it comes to. -/
def Command.Does (volume : Volume) (s : State) : Command → Outcome → State → Prop
  | .cd arg, .done ret, s' => ret = 0 ∧ s'.files = s.files ∧ OfArgument arg (s'.cwd = s.changed ·)
  | .pwd, .path curdir, s' => s' = s ∧ curdir = spell s.cwd
  | .dir, .listing res, s' => s' = s ∧ ListedAt volume s.files s.cwd res
  | .touch arg, .done ret, s' => ret = 0 ∧ s'.cwd = s.cwd ∧ OfArgument arg fun path =>
      ∃ r, Made s.files (destination s.cwd path) .file r s'.files
  | .mkdir arg, .done ret, s' => s'.cwd = s.cwd ∧ OfArgument arg fun path =>
      Reports 0 (Made s.files (destination s.cwd path) .directory · s'.files) ret
  | .rmdir arg, .done ret, s' => s'.cwd = s.cwd ∧ OfArgument arg fun path =>
      Reports 0 (RemovedDirectory s.files (destination s.cwd path) · s'.files) ret
  | .delete arg, .done ret, s' => s'.cwd = s.cwd ∧ OfArgument arg fun path =>
      Reports 1 (RemovedFile s.files (destination s.cwd path) · s'.files) ret
  | .rename arg, .done ret, s' => s'.cwd = s.cwd ∧ ∀ paths, argumentPaths arg = some (some paths) →
      MovedOrNot s.files (destination s.cwd paths.1) (destination s.cwd paths.2) ret s'.files
  | _, _, _ => False

/-- A path that is known, in a directory that is there. -/
structure Usable (volume : Volume) (s : State) (filename : CString) : Prop where
  nonempty : filename ≠ []
  known : Known volume (destination s.cwd filename)
  parent : InDirectory s.files (destination s.cwd filename)

/-- A path that can be looked up. -/
structure Visible (volume : Volume) (s : State) (path : CString) : Prop where
  nonempty : path ≠ []
  known : Known volume (destination s.cwd path)
  parent : InDirectory s.files (destination s.cwd path) ∨
    destination s.cwd path = [] ∧ 30 ≤ volume.server.avNumber

/-- The argument of a command is a path that can be used. -/
def Takes (volume : Volume) (s : State) (arg : CString) : Prop :=
  ∃ path, argumentPath arg = some (some path) ∧ Usable volume s path

/-- What the code asks of a command: the paths are known, their directories are there, and only files
are renamed. -/
def Command.Fits (volume : Volume) (fuel : ℕ) (s : State) : Command → Prop
  | .cd arg => ∃ path, argumentPath arg = some (some path) ∧
      (chop path = [dot, dot] ∨ Visible volume s (chop path))
  | .pwd => True
  | .dir => (Op.readdir s.cwd).Fits volume fuel s.files
  | .touch arg | .mkdir arg | .rmdir arg | .delete arg => Takes volume s arg
  | .rename arg => ∃ src dst, argumentPaths arg = some (some (src, dst)) ∧ Usable volume s src ∧
      Usable volume s dst ∧ s.files (destination s.cwd src) ≠ some .directory ∧
      s.files (destination s.cwd dst) ≠ some .directory ∧
      s.files ((destination s.cwd dst).dropLast ++ destination s.cwd dst) ≠ some .directory

/-! ## Paths -/

section Paths

variable {volume : Volume} {cwd : List CString} {filename : CString}

theorem spell_of_ne_nil {p : List CString} (h : p ≠ []) : spell p = Scan.joinPath slash p := by
  cases p with
  | nil => exact absurd rfl h
  | cons n p => rfl

/-- The path of a directory is longer than a slash. -/
theorem one_lt_length_spell (hcwd : Canonical cwd) (h : cwd ≠ []) : 1 < (spell cwd).length := by
  obtain ⟨n, p, rfl⟩ := List.exists_cons_of_ne_nil h
  have hn := List.length_pos_of_ne_nil (hcwd n List.mem_cons_self).1
  rw [spell_of_ne_nil h, Scan.joinPath_cons, List.cons_append, List.length_cons, List.length_append]
  omega

theorem requestedPath_of_relative (h : filename.head? ≠ some slash) (hne : filename ≠ []) :
    requestedPath filename = Scan.split slash filename := by
  have hname : requestedName filename = filename := if_neg h
  rw [requestedPath, hname, if_neg hne]

/-- The names of an absolute path. -/
theorem spell_requestedPath (h : filename.head? = some slash) :
    spell (requestedPath filename) = filename := by
  obtain ⟨rest, rfl⟩ : ∃ rest, filename = slash :: rest := by
    cases filename with
    | nil => cases h
    | cons c rest => exact ⟨rest, congrArg (· :: rest) (Option.some.inj h)⟩
  have hname : requestedName (slash :: rest) = rest := rfl
  rw [requestedPath, hname]
  by_cases hrest : rest = []
  · rw [if_pos hrest, hrest]
    rfl
  · rw [if_neg hrest, spell_of_ne_nil (Scan.split_ne_nil _)]
    exact (Scan.separated_split rest).2

/-- The path of a directory, with a path that is not absolute behind it. -/
theorem spell_append_split (hcwd : Canonical cwd) :
    spell (cwd ++ Scan.split slash filename) =
      if (spell cwd).length = 1 then slash :: filename else spell cwd ++ slash :: filename := by
  have hne : cwd ++ Scan.split slash filename ≠ [] :=
    List.append_ne_nil_of_right_ne_nil _ (Scan.split_ne_nil _)
  rw [spell_of_ne_nil hne, Scan.joinPath_append, (Scan.separated_split filename).2]
  by_cases h : cwd = []
  · rw [h]
    rfl
  · have hlength := one_lt_length_spell hcwd h
    rw [if_neg (by omega), spell_of_ne_nil h]

/-- **`get_server_path()`** prints the path that the names make up. -/
theorem serverPath_spell (hcwd : Canonical cwd) (hne : filename ≠ []) :
    serverPath (spell cwd) filename = (spell (destination cwd filename)).take (PATH_MAX - 1) := by
  rw [serverPath, destination]
  by_cases h : filename.head? = some slash
  · rw [if_neg (not_not.mpr h), if_pos h, spell_requestedPath h]
  · rw [if_pos h, if_neg h, requestedPath_of_relative h hne, spell_append_split hcwd]

theorem getServerPath_spell (hcwd : Canonical cwd) (hne : filename ≠ [])
    (hknown : Known volume (destination cwd filename)) :
    getServerPath (spell cwd) filename AFP_MAX_PATH = some (spell (destination cwd filename)) := by
  have hlength := hknown.length
  have hroom : AFP_MAX_PATH ≤ PATH_MAX - 1 := by decide
  rw [getServerPath, serverPath_spell hcwd hne, List.take_of_length_le (by omega),
    if_neg (by omega)]

/-- `com_cd()` prints the same. -/
theorem newdir_spell (hcwd : Canonical cwd) (hne : filename ≠ [])
    (hknown : Known volume (destination cwd filename)) :
    (if filename.head? = some slash then filename else below (spell cwd) filename) =
      spell (destination cwd filename) := by
  have hlength := hknown.length
  rw [destination] at hlength ⊢
  by_cases h : filename.head? = some slash
  · rw [if_pos h, if_pos h, spell_requestedPath h]
  · have hslash : filename ≠ [slash] := fun heq => h (by rw [heq]; rfl)
    have hroot : spell cwd = [slash] ↔ (spell cwd).length = 1 := by
      refine ⟨fun heq => by rw [heq]; rfl, fun hone => ?_⟩
      by_cases hnil : cwd = []
      · rw [hnil]
        rfl
      · have := one_lt_length_spell hcwd hnil
        omega
    rw [if_neg h, requestedPath_of_relative h hne] at hlength
    rw [if_neg h, if_neg h, requestedPath_of_relative h hne]
    rw [below, spell_append_split hcwd] at *
    simp only [hslash, false_or, hroot]
    exact List.take_of_length_le (by omega)

/-- A path of a directory has no slash at its end that could be chopped off. -/
theorem chop_spell (hcwd : Canonical cwd) : chop (spell cwd) = spell cwd := by
  cases cwd using List.reverseRecOn with
  | nil => rfl
  | append_singleton pre n =>
    have hn := hcwd n (by simp)
    refine if_neg fun h => hn.2 ?_
    have hlast := h.2
    rw [spell_concat, joinPath_concat, List.getLast?_append_cons,
      List.getLast?_cons_of_ne_nil hn.1] at hlast
    exact List.mem_of_getLast? hlast

/-- **`cd ..`** goes to the directory above. -/
theorem upwards_spell (hcwd : Canonical cwd) : upwards (spell cwd) = some (spell cwd.dropLast) := by
  cases cwd using List.reverseRecOn with
  | nil => rfl
  | append_singleton pre n =>
    have hlength := one_lt_length_spell hcwd (List.append_ne_nil_of_right_ne_nil pre (List.cons_ne_nil n []))
    have hn := hcwd n (by simp)
    rw [upwards, if_neg (by omega), spell_concat, joinPath_concat, Scan.strrchr_append hn.2,
      List.dropLast_concat, Option.map_some, List.take_left]
    by_cases hpre : pre = []
    · rw [hpre]
      rfl
    · have hpos : (Scan.joinPath slash pre).length ≠ 0 := by
        rw [← spell_of_ne_nil hpre]
        have := one_lt_length_spell (fun name hname => hcwd name (by simp [hname])) hpre
        omega
      rw [if_neg hpos, spell_of_ne_nil hpre]

end Paths

/-! ## What the commands come to -/

section Commands

variable {volume : Volume} {server : Server} {clock : ℕ → ℕ} {m : Mount} {cwd : List CString}
  {arg path : CString} {fuel : ℕ}

/-- **`cd`** goes to a directory, or stays. -/
theorem comes_comCd (hclock : Monotone clock) (hm : Inv clock m) (hvolume : Mounted volume)
    (hcwd : Canonical cwd) (harg : argumentPath arg = some (some path))
    (hfits : chop path = [dot, dot] ∨ Visible volume ⟨cwd, atRoot m⟩ (chop path)) :
    Comes volume server clock
      (fun fs res fs' => fs' = fs ∧ res = (0, spell (State.changed ⟨cwd, fs⟩ path))) m
      (comCd volume (spell cwd) arg) := by
  rw [comCd, harg, ofOption_some_bind]
  simp only [Option.getD_some, chop_spell hcwd]
  by_cases hup : chop path = [dot, dot]
  · rw [if_pos hup, upwards_spell hcwd]
    exact ⟨hm, rfl, by rw [State.changed, if_pos hup]⟩
  · obtain ⟨hne, hknown, hparent⟩ := hfits.resolve_left hup
    have hchanged : State.changed ⟨cwd, atRoot m⟩ path =
        if atRoot m (destination cwd (chop path)) = some .directory then destination cwd (chop path)
        else cwd := if_neg hup
    rw [if_neg hup, newdir_spell hcwd hne hknown]
    refine Prog.Attains.bind (comes_getattr hclock hm hvolume hknown hparent)
      fun m' res h => ?_
    obtain ⟨ret, stbuf⟩ := res
    obtain ⟨hm', hsame, hlooked⟩ := h
    have hlooked : LookedUp (atRoot m) (destination cwd (chop path)) ret stbuf := hlooked
    rw [LookedUp] at hlooked
    show Prog.Attains _ _ _ _ (if ret = 0 ∧ stbuf.stMode &&& S_IFDIR ≠ 0 then _ else _)
    cases hfile : atRoot m (destination cwd (chop path)) with
    | none =>
      rw [hfile] at hlooked
      obtain ⟨rfl, rfl⟩ := hlooked
      exact ⟨hm', hsame, by rw [hchanged, hfile, if_neg (by decide)]⟩
    | some k =>
      rw [hfile] at hlooked
      obtain ⟨rfl, hmode⟩ := hlooked
      cases k with
      | directory =>
        rw [if_pos ⟨rfl, hmode.mpr rfl⟩]
        exact ⟨hm', hsame, by rw [hchanged, hfile, if_pos rfl]⟩
      | file =>
        have hzero : stbuf.stMode &&& S_IFDIR = 0 := by
          by_contra hset
          cases hmode.mp hset
        rw [if_neg fun h => h.2 hzero, if_pos hzero]
        exact ⟨hm', hsame, by rw [hchanged, hfile, if_neg (by decide)]⟩

/-- A command with the path of a file is given the path that the names make up. -/
theorem withPath_spell (hcwd : Canonical cwd) (harg : argumentPath arg = some (some path))
    (hpath : Usable volume ⟨cwd, atRoot m⟩ path) (command : CString → AfpM ℤ) :
    withPath (spell cwd) arg command = command (spell (destination cwd path)) := by
  rw [withPath, harg, ofOption_some_bind]
  show (ofOption (getServerPath (spell cwd) path AFP_MAX_PATH) >>= fun path => command path) = _
  rw [getServerPath_spell hcwd hpath.nonempty hpath.known, ofOption_some_bind]

theorem comes_comTouch (hclock : Monotone clock) (hm : Inv clock m) (hvolume : Mounted volume)
    (hcwd : Canonical cwd) (harg : argumentPath arg = some (some path))
    (hpath : Usable volume ⟨cwd, atRoot m⟩ path) :
    Comes volume server clock
      (fun fs ret fs' => ret = 0 ∧ ∃ r, Made fs (destination cwd path) .file r fs') m
      (comTouch volume (spell cwd) arg) := by
  rw [comTouch, withPath_spell hcwd harg hpath]
  exact (comes_creat hclock hm hvolume hpath.known hpath.parent (by decide)).bind
    fun m' r h => ⟨h.1, rfl, r, h.2⟩

theorem comes_comMkdir (hclock : Monotone clock) (hm : Inv clock m) (hvolume : Mounted volume)
    (hcwd : Canonical cwd) (harg : argumentPath arg = some (some path))
    (hpath : Usable volume ⟨cwd, atRoot m⟩ path) :
    Comes volume server clock
      (fun fs ret fs' => Reports 0 (Made fs (destination cwd path) .directory · fs') ret) m
      (comMkdir volume (spell cwd) arg) := by
  rw [comMkdir, withPath_spell hcwd harg hpath]
  exact (comes_mkdir hclock hm hvolume hpath.known hpath.parent).bind
    fun m' r h => ⟨h.1, r, h.2, rfl⟩

theorem comes_comRmdir (hclock : Monotone clock) (hm : Inv clock m) (hvolume : Mounted volume)
    (hcwd : Canonical cwd) (harg : argumentPath arg = some (some path))
    (hpath : Usable volume ⟨cwd, atRoot m⟩ path) :
    Comes volume server clock
      (fun fs ret fs' => Reports 0 (RemovedDirectory fs (destination cwd path) · fs') ret) m
      (comRmdir volume (spell cwd) arg) := by
  rw [comRmdir, withPath_spell hcwd harg hpath]
  exact (comes_rmdir hclock hm hvolume hpath.known hpath.parent).bind
    fun m' r h => ⟨h.1, r, h.2, rfl⟩

theorem comes_comDelete (hclock : Monotone clock) (hm : Inv clock m) (hvolume : Mounted volume)
    (hcwd : Canonical cwd) (harg : argumentPath arg = some (some path))
    (hpath : Usable volume ⟨cwd, atRoot m⟩ path) :
    Comes volume server clock
      (fun fs ret fs' => Reports 1 (RemovedFile fs (destination cwd path) · fs') ret) m
      (comDelete volume (spell cwd) arg) := by
  rw [comDelete, withPath_spell hcwd harg hpath]
  exact (comes_unlink hclock hm hvolume hpath.known hpath.parent).bind
    fun m' r h => ⟨h.1, r, h.2, rfl⟩

/-- The lookup of a path in a directory that is there. -/
theorem comes_lookup {p : List CString} (hclock : Monotone clock) (hm : Inv clock m)
    (hvolume : Mounted volume) (hp : Known volume p) (hin : InDirectory (atRoot m) p) :
    Comes volume server clock (fun fs res fs' => fs' = fs ∧
        ((fs p = none ∧ res.1 ≠ 0) ∨ (∃ k, fs p = some k ∧ res.1 = 0 ∧
          (res.2.stMode &&& S_IFDIR ≠ 0 ↔ k = .directory)))) m
      (afpMlGetattr volume (spell p)) := by
  refine (comes_getattr hclock hm hvolume hp (.inl hin)).mono fun m' res h => ?_
  obtain ⟨hm', hsame, hlooked⟩ := h
  refine ⟨hm', hsame, ?_⟩
  rw [LookedUp] at hlooked
  cases hfile : atRoot m p with
  | none =>
    rw [hfile] at hlooked
    exact .inl ⟨rfl, by rw [hlooked.1]; decide⟩
  | some k =>
    rw [hfile] at hlooked
    exact .inr ⟨k, rfl, hlooked⟩

theorem moved_of_renamed {fs fs' : Files} {p q : List CString} {r : ℤ} (h : Renamed fs p q r fs')
    (hq : fs q = none) : Moved fs p q r fs' := by
  rcases h with h | ⟨hr, hsame | ⟨hfile, -⟩⟩
  · exact .inl h
  · exact .inr ⟨hr, hsame⟩
  · rw [hq] at hfile
    cases hfile

theorem MovedOrNot.of_not {fs fs' : Files} {p q : List CString}
    (h : ¬ (fs p = some .file ∧ fs q = none)) (hsame : fs' = fs) : MovedOrNot fs p q (-1) fs' := by
  rw [MovedOrNot, if_neg h]
  exact ⟨rfl, hsame⟩

/-- **`mv`** moves a file to a path where nothing is, and loses nothing. -/
theorem comes_comRename {src dst : CString} (hclock : Monotone clock) (hm : Inv clock m)
    (hvolume : Mounted volume) (hcwd : Canonical cwd)
    (harg : argumentPaths arg = some (some (src, dst)))
    (hsrc : Usable volume ⟨cwd, atRoot m⟩ src) (hdst : Usable volume ⟨cwd, atRoot m⟩ dst)
    (hfile : atRoot m (destination cwd src) ≠ some .directory)
    (htarget : atRoot m (destination cwd dst) ≠ some .directory)
    (hodd : atRoot m ((destination cwd dst).dropLast ++ destination cwd dst) ≠ some .directory) :
    Comes volume server clock
      (fun fs ret fs' => MovedOrNot fs (destination cwd src) (destination cwd dst) ret fs') m
      (comRename volume (spell cwd) arg) := by
  have hp : Known volume (destination cwd src) := hsrc.known
  have hq : Known volume (destination cwd dst) := hdst.known
  have hin : InDirectory (atRoot m) (destination cwd dst) := hdst.parent
  rw [comRename, harg, ofOption_some_bind]
  show Prog.Attains _ _ _ _ (ofOption (getServerPath (spell cwd) src AFP_MAX_PATH) >>= _)
  rw [getServerPath_spell hcwd hsrc.nonempty hp, ofOption_some_bind,
    getServerPath_spell hcwd hdst.nonempty hq, ofOption_some_bind]
  refine Prog.Attains.bind (comes_lookup hclock hm hvolume hp hsrc.parent) fun m' res h => ?_
  obtain ⟨ret, stbuf⟩ := res
  obtain ⟨hm', hsame, h⟩ := h
  show Prog.Attains _ _ _ _ (if ret ≠ 0 then _ else _)
  rcases h with ⟨hnone, hret⟩ | ⟨k, hk, hret, -⟩
  · rw [if_pos hret]
    exact ⟨hm', .of_not (fun h => by simp [hnone] at h) hsame⟩
  obtain rfl : k = .file := by
    cases k with
    | file => rfl
    | directory => exact absurd hk hfile
  rw [if_neg (not_not.mpr hret)]
  rw [← hsame] at hin htarget hodd
  refine Prog.Attains.bind (comes_lookup hclock hm' hvolume hq hin) fun m'' res h => ?_
  obtain ⟨ret', stbuf'⟩ := res
  obtain ⟨hm'', hsame', h⟩ := h
  rw [hsame] at h hsame'
  show Prog.Attains _ _ _ _ (if ret' = 0 ∧ stbuf'.stMode &&& S_IFDIR = 0 then _ else _)
  rcases h with ⟨hnone, hret'⟩ | ⟨k, hk', hret', hmode⟩
  · -- nothing is there
    rw [if_neg (mt And.left hret')]
    rw [hsame, ← hsame'] at hin htarget hodd
    have hne : destination cwd src ≠ destination cwd dst := fun heq => by
      rw [heq, hnone] at hk
      cases hk
    refine (comes_rename hclock hm'' hvolume hp hq (hsame' ▸ hk) hin hne htarget hodd).bind
      fun m3 r h => ?_
    obtain ⟨hm3, hrenamed⟩ := h
    rw [hsame'] at hrenamed
    have hmoved : MovedOrNot (atRoot m) (destination cwd src) (destination cwd dst)
        (if r ≠ 0 then -1 else 0) (atRoot m3) := by
      rw [MovedOrNot, if_pos ⟨hk, hnone⟩]
      exact ⟨r, moved_of_renamed hrenamed hnone, rfl⟩
    exact ⟨hm3, hmoved⟩
  · obtain rfl : k = .file := by
      cases k with
      | file => rfl
      | directory => exact absurd hk' (hsame ▸ htarget)
    have hzero : stbuf'.stMode &&& S_IFDIR = 0 := by
      by_contra hset
      cases hmode.mp hset
    rw [if_pos ⟨hret', hzero⟩]
    exact ⟨hm'', .of_not (fun h => by simp [hk'] at h) hsame'⟩

/-- **`dir`** lists the current directory. -/
theorem comes_comDir (hclock : Monotone clock) (hhonest : server.Honest) (hm : Inv clock m)
    (hfits : (Op.readdir cwd).Fits volume fuel (atRoot m)) :
    Comes volume server clock (fun fs res fs' => fs' = fs ∧ ListedAt volume fs cwd res) m
      (comDir volume (spell cwd) fuel) := by
  refine (comes_readdir hclock hhonest hm hfits).bind fun m' res h => ?_
  obtain ⟨ret, filebase⟩ := res
  obtain ⟨hm', hsame, entries, hnodup, hcomplete, list, hres, hlist⟩ := h
  obtain ⟨rfl, rfl⟩ := Prod.mk.inj hres
  exact ⟨hm', hsame, entries, hnodup, hcomplete, list, rfl, hlist⟩

theorem OfArgument.intro {P : CString → Prop} (harg : argumentPath arg = some (some path))
    (h : P path) : OfArgument arg P := by
  intro path' harg'
  rw [harg] at harg'
  cases harg'
  exact h

/-! ## Sessions -/

/-- The state of the abstract shell that the client and the server stand for. -/
structure Represents (clock : ℕ → ℕ) (m : Mount) (curdir : CString) (s : State) : Prop where
  inv : Inv clock m
  files : s.files = atRoot m
  curdir : curdir = spell s.cwd
  canonical : Canonical s.cwd

/-- The end of a command that leaves `curdir` alone. -/
theorem attains_staying {s : State} {c : Command} {program : AfpM ℤ} {Q : Files → ℤ → Files → Prop}
    (hs : Represents clock m (spell s.cwd) s) (hprogram : Comes volume server clock Q m program)
    (hdoes : ∀ ret fs', Q s.files ret fs' → c.Does volume s (.done ret) ⟨s.cwd, fs'⟩) :
    Prog.Attains (Answers volume server clock) (next server clock)
      (fun m' r => ∃ s', Represents clock m' r.2 s' ∧ c.Does volume s r.1 s') m
      (staying (spell s.cwd) program) := by
  refine hprogram.bind fun m' ret h => ?_
  obtain ⟨hm', hdone⟩ := h
  rw [← hs.files] at hdone
  exact ⟨⟨s.cwd, atRoot m'⟩, ⟨hm', rfl, rfl, hs.canonical⟩, hdoes ret _ hdone⟩

/-- **A command does what the abstract one does.** -/
theorem attains_command (hclock : Monotone clock) (hhonest : server.Honest) (hvolume : Mounted volume)
    {s : State} {curdir : CString} {c : Command} (hs : Represents clock m curdir s)
    (hfits : c.Fits volume fuel s) :
    Prog.Attains (Answers volume server clock) (next server clock)
      (fun m' r => ∃ s', Represents clock m' r.2 s' ∧ c.Does volume s r.1 s') m
      (c.run volume fuel curdir) := by
  obtain ⟨cwd, fs⟩ := s
  obtain ⟨hm, hfiles, hcurdir, hcwd⟩ := id hs
  obtain rfl : fs = atRoot m := hfiles
  obtain rfl : curdir = spell cwd := hcurdir
  cases c with
  | cd arg =>
    obtain ⟨path, harg, hpath⟩ := hfits
    refine (comes_comCd hclock hm hvolume hcwd harg hpath).bind fun m' res h => ?_
    obtain ⟨hm', hsame, rfl⟩ := h
    refine ⟨⟨_, atRoot m'⟩, ⟨hm', rfl, rfl, ?_⟩, rfl, hsame, .intro harg rfl⟩
    show Canonical (State.changed ⟨cwd, atRoot m⟩ path)
    rw [State.changed]
    split
    · exact fun name hname => hcwd name (List.dropLast_subset _ hname)
    · split
      · exact (hpath.resolve_left ‹_›).known.canonical
      · exact hcwd
  | pwd => exact ⟨⟨cwd, atRoot m⟩, hs, rfl, rfl⟩
  | dir =>
    refine (comes_comDir hclock hhonest hm hfits).bind fun m' res h => ?_
    obtain ⟨hm', hsame, hlisted⟩ := h
    exact ⟨⟨cwd, atRoot m⟩, ⟨hm', hsame.symm, rfl, hcwd⟩, rfl, hlisted⟩
  | touch arg =>
    obtain ⟨path, harg, hpath⟩ := hfits
    exact attains_staying hs (comes_comTouch hclock hm hvolume hcwd harg hpath) fun ret fs' h =>
      ⟨h.1, rfl, .intro harg h.2⟩
  | mkdir arg =>
    obtain ⟨path, harg, hpath⟩ := hfits
    exact attains_staying hs (comes_comMkdir hclock hm hvolume hcwd harg hpath) fun ret fs' h =>
      ⟨rfl, .intro harg h⟩
  | rmdir arg =>
    obtain ⟨path, harg, hpath⟩ := hfits
    exact attains_staying hs (comes_comRmdir hclock hm hvolume hcwd harg hpath) fun ret fs' h =>
      ⟨rfl, .intro harg h⟩
  | delete arg =>
    obtain ⟨path, harg, hpath⟩ := hfits
    exact attains_staying hs (comes_comDelete hclock hm hvolume hcwd harg hpath) fun ret fs' h =>
      ⟨rfl, .intro harg h⟩
  | rename arg =>
    obtain ⟨src, dst, harg, hsrc, hdst, hfile, htarget, hodd⟩ := hfits
    refine attains_staying hs
      (comes_comRename hclock hm hvolume hcwd harg hsrc hdst hfile htarget hodd) fun ret fs' h =>
        ⟨rfl, fun paths harg' => ?_⟩
    rw [harg] at harg'
    cases harg'
    exact h

/-- **Whatever a session comes to on the abstract shell, it comes to** with the commands of the client,
and `curdir` is the path of the current directory. -/
theorem commands_refine (hclock : Monotone clock) (hhonest : server.Honest) (hvolume : Mounted volume)
    {fuel : ℕ} {α : Type} {Q : State → α → Prop} {session : Prog Command (fun _ => Outcome) α}
    {cwd : List CString} (hm : Inv clock m) (hcwd : Canonical cwd)
    (hsession : session.Meets (Command.Fits volume fuel) (Command.Does volume) Q ⟨cwd, atRoot m⟩) :
    Prog.Attains (Answers volume server clock) (next server clock)
      (fun m' r => ∃ s, Represents clock m' r.2 s ∧ Q s r.1) m
      (session.interpretFrom (Command.run volume fuel) (spell cwd)) :=
  hsession.interpretFrom ⟨hm, rfl, rfl, hcwd⟩ fun _ _ _ _ hs hfits =>
    attains_command hclock hhonest hvolume hs hfits

end Commands

/-! ## An example -/

/-- The command returned 0. -/
def Outcome.okay : Outcome → Bool
  | .done ret => ret = 0
  | _ => false

/-- What the command printed of a path. -/
def Outcome.shown : Outcome → CString
  | .path curdir => curdir
  | _ => []

/-- `mkdir a`, and then `cd a` and `pwd` if that works. -/
def enter : Prog Command (fun _ => Outcome) CString :=
  .act (.mkdir [0x61]) fun made =>
    if made.okay then .act (.cd [0x61]) fun _ => .act .pwd fun printed => .done printed.shown
    else .done []

/-- If the directory is made, it is the current one at the end. -/
theorem commands_refine_of_enter :
    Prog.Attains (Answers Volume.plain countingServer id) (next countingServer id)
      (fun m' r => ∃ s, Represents id m' r.2 s ∧ (r.1 = [] ∨ r.1 = [slash, 0x61]))
      ⟨emptyTree, 0, [], 0⟩
      (enter.interpretFrom (Command.run Volume.plain 1) (spell [])) := by
  have hvolume : Mounted Volume.plain := ⟨by decide, fun _ _ => rfl⟩
  refine commands_refine monotone_id countingServer_honest hvolume
    (Q := fun _ shown => shown = [] ∨ shown = [slash, 0x61]) inv_emptyTree (List.forall_mem_nil _) ?_
  have harg : argumentPath [0x61] = some (some [0x61]) := by decide
  have hdest : destination [] [0x61] = [[0x61]] := by decide
  refine ⟨⟨_, harg, by decide, hdest ▸ known_a, hdest ▸ ⟨List.cons_ne_nil _ _, rfl⟩⟩,
    fun outcome s hdoes => ?_⟩
  cases outcome with
  | path curdir => exact hdoes.elim
  | listing res => exact hdoes.elim
  | done ret =>
    obtain ⟨hcwd, hreported⟩ := hdoes
    obtain ⟨r, hmkdir, rfl⟩ := hreported _ harg
    obtain ⟨cwd, fs⟩ := s
    obtain rfl : cwd = [] := hcwd
    have hnone : atRoot ⟨emptyTree, 0, [], 0⟩ [[0x61]] = none := rfl
    have hmade : Made (atRoot ⟨emptyTree, 0, [], 0⟩) [[0x61]] .directory r fs := hdest ▸ hmkdir
    rw [Made, if_pos hnone] at hmade
    rcases hmade with ⟨rfl, rfl⟩ | ⟨hret, -⟩
    · have hroot : Function.update (atRoot ⟨emptyTree, 0, [], 0⟩) [[0x61]] (some .directory) [] =
          some .directory := Function.update_of_ne (by decide) ..
      have hthere : Function.update (atRoot ⟨emptyTree, 0, [], 0⟩) [[0x61]] (some .directory)
          [[0x61]] = some .directory := Function.update_self ..
      refine ⟨⟨_, harg, .inr ⟨by decide, hdest ▸ known_a, .inl ?_⟩⟩, fun went s hdoes => ?_⟩
      · exact ⟨by decide, hroot⟩
      cases went with
      | path curdir => exact hdoes.elim
      | listing res => exact hdoes.elim
      | done ret =>
        obtain ⟨-, -, hchanged⟩ := hdoes
        have hcwd : s.cwd = [[0x61]] := by
          have hchop : chop [0x61] = [0x61] := by decide
          rw [hchanged _ harg, State.changed, hchop, if_neg (by decide)]
          show (if _ = _ then destination [] [0x61] else _) = _
          rw [hdest, if_pos hthere]
        refine ⟨trivial, fun printed s' hdoes' => ?_⟩
        cases printed with
        | done ret => exact hdoes'.elim
        | listing res => exact hdoes'.elim
        | path curdir =>
          obtain ⟨-, rfl⟩ := hdoes'
          refine .inr ?_
          rw [hcwd]
          rfl
    · show Prog.Meets _ _ _ _ (if decide ((if r ≠ 0 then -1 else 0) = (0 : ℤ)) = true then _ else _)
      rw [if_pos (by omega : r ≠ 0)]
      exact .inl rfl

end Shell
end Cmdline
end Afpfs

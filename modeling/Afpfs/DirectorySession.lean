import Afpfs.DirectoryServer
import Afpfs.FileNames
import Mathlib.Data.Finset.Card

/-!
# Clients of a server with directories

A client makes and removes directories and files, renames files, looks them up and lists directories,
on a server of `Afpfs.DirectoryServer`, with a cache of directory ids and a clock that goes on.

The abstract file system is a map from paths to what is there.  An operation updates it at one path, or
at two, and returns the error that the conflict with what is there calls for; or the server refuses, and
then an error is returned and the file system is as it was.  Only a file that another one should replace
may then be lost.

* `attains_run`: what each operation comes to.
* `clients_refine`: whatever a program comes to on the abstract file system, it comes to when the
  operations are those of `lib/midlevel.c`, and the cache stays right.
-/

set_option autoImplicit false

namespace Afpfs
namespace DirectoryServer

open Interaction Unicode Codepage Scan Did Hierarchy
open PathResolution (requestedName joinPath_concat)
open FileServer (Event Spelled Mapped)

/-! ## Paths -/

/-- The path that the names of a file or a directory make up. -/
def spell : List CString → CString
  | [] => [slash]
  | p => joinPath slash p

/-- A path that the client spells as the server does, and that fits into the buffers. -/
structure Known (volume : Volume) (p : List CString) : Prop where
  canonical : Canonical p
  spelled : Spelled volume (spell p)
  length : (spell p).length < AFP_MAX_PATH

/-! ## The abstract file system -/

/-- What there is at each path. -/
abbrev Files := List CString → Option Kind

/-- What is at a path is changed, or that is refused with an error. -/
def Changed (fs : Files) (p : List CString) (k : Option Kind) (ret : ℤ) (fs' : Files) : Prop :=
  ret = 0 ∧ fs' = Function.update fs p k ∨ ret < 0 ∧ fs' = fs

/-- Something new is made at a path where nothing is. -/
def Made (fs : Files) (p : List CString) (k : Kind) (ret : ℤ) (fs' : Files) : Prop :=
  if fs p = none then Changed fs p (some k) ret fs' else ret = -EEXIST ∧ fs' = fs

/-- An empty directory is removed. -/
def RemovedDirectory (fs : Files) (p : List CString) (ret : ℤ) (fs' : Files) : Prop :=
  match fs p with
  | some .directory =>
    ((∀ n, fs (p ++ [n]) = none) → Changed fs p none ret fs') ∧
      (¬ (∀ n, fs (p ++ [n]) = none) → ret = -ENOTEMPTY ∧ fs' = fs)
  | _ => ret = -ENOTDIR ∧ fs' = fs

/-- A file is removed. -/
def RemovedFile (fs : Files) (p : List CString) (ret : ℤ) (fs' : Files) : Prop :=
  match fs p with
  | some .file => Changed fs p none ret fs'
  | some .directory => ret = -EISDIR ∧ fs' = fs
  | none => ret = -ENOENT ∧ fs' = fs

/-- A file gets another path, where it replaces what is there.  If that is refused, what was there may
be gone all the same. -/
def Renamed (fs : Files) (p q : List CString) (ret : ℤ) (fs' : Files) : Prop :=
  ret = 0 ∧ fs' = Function.update (Function.update fs p none) q (some .file) ∨
    ret < 0 ∧ (fs' = fs ∨ fs q = some .file ∧ fs' = Function.update fs q none)

/-- What is at a path is looked up. -/
def LookedUp (fs : Files) (p : List CString) (ret : ℤ) (stbuf : Stat) : Prop :=
  match fs p with
  | some k => ret = 0 ∧ (stbuf.stMode &&& S_IFDIR ≠ 0 ↔ k = .directory)
  | none => ret = -ENOENT ∧ stbuf = Stat.zero

/-- A directory is listed: what is in it, each once. -/
def ListedAt (volume : Volume) (fs : Files) (p : List CString)
    (res : ℤ × Option (List AfpFileInfo)) : Prop :=
  ∃ entries : List AfpFileInfo, (entries.map (·.name)).Nodup ∧
    (∀ name kind, fs (p ++ [name]) = some kind ↔
      ∃ fi ∈ entries, fi.name = name ∧ (fi.isdir = true ↔ kind = .directory)) ∧
    Enumerate.Listed volume entries res

/-! ## Operations -/

/-- The operations, on the names that make up the paths. -/
inductive Op where
  | mkdir (p : List CString)
  | rmdir (p : List CString)
  | creat (p : List CString) (mode : UInt32)
  | unlink (p : List CString)
  | rename (p q : List CString)
  | getattr (p : List CString)
  | readdir (p : List CString)

/-- What an operation comes to. -/
inductive Outcome where
  | done (ret : ℤ)
  | attributes (ret : ℤ) (stbuf : Stat)
  | listing (res : ℤ × Option (List AfpFileInfo))

def Op.run (volume : Volume) (fuel : ℕ) : Op → AfpM Outcome
  | .mkdir p => do
    let ret ← afpMlMkdir volume (spell p)
    return .done ret
  | .rmdir p => do
    let ret ← afpMlRmdir volume (spell p)
    return .done ret
  | .creat p mode => do
    let ret ← afpMlCreat volume (spell p) mode
    return .done ret
  | .unlink p => do
    let ret ← afpMlUnlink volume (spell p)
    return .done ret
  | .rename p q => do
    let ret ← afpMlRename volume (spell p) (spell q)
    return .done ret
  | .getattr p => do
    let (ret, stbuf) ← afpMlGetattr volume (spell p)
    return .attributes ret stbuf
  | .readdir p => do
    let res ← afpMlReaddir volume (spell p) fuel
    return .listing res

/-- What an operation does to the file system, and what it comes to. -/
def Op.Does (volume : Volume) (fs : Files) : Op → Outcome → Files → Prop
  | .mkdir p, .done ret, fs' => Made fs p .directory ret fs'
  | .rmdir p, .done ret, fs' => RemovedDirectory fs p ret fs'
  | .creat p _, .done ret, fs' => Made fs p .file ret fs'
  | .unlink p, .done ret, fs' => RemovedFile fs p ret fs'
  | .rename p q, .done ret, fs' => Renamed fs p q ret fs'
  | .getattr p, .attributes ret stbuf, fs' => fs' = fs ∧ LookedUp fs p ret stbuf
  | .readdir p, .listing res, fs' => fs' = fs ∧ ListedAt volume fs p res
  | _, _, _ => False

/-- There is a directory that the path could be in. -/
def InDirectory (fs : Files) (p : List CString) : Prop := p ≠ [] ∧ fs p.dropLast = some .directory

/-- What the code asks of an operation: the directory of a path is there, a directory is not too long to
be listed, and only files are renamed, and not onto directories. -/
def Op.Fits (volume : Volume) (fuel : ℕ) (fs : Files) : Op → Prop
  | .mkdir p | .rmdir p | .unlink p => Known volume p ∧ InDirectory fs p
  | .creat p mode => Known volume p ∧ InDirectory fs p ∧ hasExtraBits mode = false
  | .rename p q => Known volume p ∧ Known volume q ∧ fs p = some .file ∧ InDirectory fs q ∧
      p ≠ q ∧ fs q ≠ some .directory ∧ fs (q.dropLast ++ q) ≠ some .directory
  | .getattr p => Known volume p ∧ (InDirectory fs p ∨ p = [] ∧ 30 ≤ volume.server.avNumber)
  | .readdir p => Known volume p ∧ fs p = some .directory ∧
      (∀ names : Finset CString, (∀ name ∈ names, fs (p ++ [name]) ≠ none) →
        names.card < fuel ∧ names.card + 1 < Enumerate.indexModulus volume) ∧
      ∀ name, fs (p ++ [name]) ≠ none →
        (convertPathToUnix volume.server.pathEncoding name AFP_MAX_PATH).isSome

/-- A program that uses the operations. -/
abbrev Client (α : Type) := Prog Op (fun _ => Outcome) α

/-! ## Changes of the directories -/

section Changes

variable {server : Server} {clock : ℕ → ℕ} {m : Mount} {pre : List CString} {n : CString} {d : UInt32}
  {o : Option (Entry UInt32)}

/-- A name in a directory is changed that no valid entry of the cache leads to. -/
theorem Inv.set (hm : Inv clock m) (hd : find m.tree AFP_ROOT_DID pre = some (.directory d))
    (hold : Vacant m.tree (m.tree d n))
    (hnew : ∀ id, o = some (.directory id) → id ≠ 0 ∧ Fresh m.tree AFP_ROOT_DID id)
    (hcached : ∀ a ∈ m.cache, ¬ Expired (clock m.readings) a →
      a.dirname ≠ joinPath slash (pre ++ [n])) :
    Inv clock { m with tree := Hierarchy.set m.tree d n o } := by
  have hfind := find_set hm.proper hd hold (fun id hid => (hnew id hid).2)
  refine ⟨hm.proper.set hd hold fun id hid => (hnew id hid).2, fun p => ?_,
    ⟨hm.cached.ordered, hm.cached.past, hm.cached.single, fun a ha hvalid => ?_⟩⟩
  · rw [hfind]
    split
    · exact fun h => (hnew 0 h).1 rfl
    · exact hm.nonzero p
  · obtain ⟨names, hsep, hdirname, hat⟩ := hm.cached.right a ha hvalid
    refine ⟨names, hsep, hdirname, ?_⟩
    have hne : names ≠ pre ++ [n] := fun h => hcached a ha hvalid (h ▸ hdirname)
    rw [hfind, if_neg hne]
    exact hat

/-- A valid entry of the cache leads to a directory. -/
theorem Inv.not_cached (hm : Inv clock m) (hd : find m.tree AFP_ROOT_DID pre = some (.directory d))
    (hn : slash ∉ n) (hpre : Canonical pre) (hentry : ∀ c, m.tree d n ≠ some (.directory c)) :
    ∀ a ∈ m.cache, ¬ Expired (clock m.readings) a → a.dirname ≠ joinPath slash (pre ++ [n]) := by
  intro a ha hvalid hname
  obtain ⟨names, hsep, hdirname, hat⟩ := hm.cached.right a ha hvalid
  have hsep' : Separated slash (pre ++ [n]) := fun part hpart => by
    rcases List.mem_append.mp hpart with hpart | hpart
    · exact (hpre part hpart).2
    · rw [List.mem_singleton.mp hpart]
      exact hn
  have heq : names = pre ++ [n] := by
    rw [← components_joinPath hsep, ← hdirname, hname, components_joinPath hsep']
  rw [heq, find_concat_of_directory hd] at hat
  exact hentry _ hat

/-- The first entry of a path goes, and no valid one is left. -/
theorem Cached.removed {tree : Tree} {now : ℕ} {cache : List DidCacheEntry}
    (h : Cached tree now cache) (path : CString) : Absent now (removeDidEntry path cache) path := by
  have hsingle := h.single
  clear h
  induction cache with
  | nil => exact List.forall_mem_nil _
  | cons a cache ih =>
    obtain ⟨ha, hcache⟩ := List.pairwise_cons.mp hsingle
    rw [removeDidEntry]
    by_cases hname : a.dirname = path
    · rw [List.eraseP_cons_of_pos (by simpa using hname)]
      exact fun b hb hb' => ha b hb (hname.trans hb'.symm)
    · rw [List.eraseP_cons_of_neg (by simpa using hname)]
      exact List.forall_mem_cons.mpr ⟨fun h => absurd h hname, ih hcache⟩

end Changes

/-! ## What the operations come to -/

section Operations

variable {volume : Volume} {server : Server} {clock : ℕ → ℕ} {m : Mount} {p pre : List CString}
  {n : CString} {d : UInt32}

/-- The path from the root on. -/
abbrev atRoot (m : Mount) : Files := view m.tree AFP_ROOT_DID

/-- What a program of the client comes to, by what is at the paths before and after it. -/
abbrev Comes (volume : Volume) (server : Server) (clock : ℕ → ℕ) {α : Type}
    (Q : Files → α → Files → Prop) (m : Mount) (program : AfpM α) : Prop :=
  Prog.Attains (Answers volume server clock) (next server clock)
    (fun m' a => Inv clock m' ∧ Q (atRoot m) a (atRoot m')) m program

theorem Known.names (h : Known volume (pre ++ [n])) : Canonical pre ∧ n ≠ [] ∧ slash ∉ n :=
  ⟨fun name hname => h.canonical name (List.mem_append_left _ hname), h.canonical n (by simp)⟩

theorem Known.requestedName (h : Known volume (pre ++ [n])) : requestedName n = n :=
  if_neg fun hhead => h.names.2.2 (List.mem_of_mem_head? hhead)

theorem spell_concat (pre : List CString) (n : CString) :
    spell (pre ++ [n]) = joinPath slash (pre ++ [n]) := by
  cases pre <;> rfl

/-- A program after one that has only used the cache. -/
theorem comes_bind {α β : Type} {Q : Files → β → Files → Prop} {program : AfpM α} {a : α}
    {f : α → AfpM β}
    (h : Prog.Attains (Answers volume server clock) (next server clock)
      (fun m' res => Kept clock m m' ∧ res = a) m program)
    (hf : ∀ m', Kept clock m m' → Comes volume server clock Q m' (f a)) :
    Comes volume server clock Q m (program >>= f) := by
  refine Prog.Attains.bind h fun m' res hres => ?_
  obtain ⟨hkept, rfl⟩ := hres
  rw [atRoot, ← hkept.tree]
  exact hf m' hkept

/-- The path of a known file or directory leads to the directory that it is in. -/
theorem attains_resolve_spell (hclock : Monotone clock) (hm : Inv clock m) (hp : Known volume p)
    (hd : find m.tree AFP_ROOT_DID p.dropLast = some (.directory d)) :
    Prog.Attains (Answers volume server clock) (next server clock)
      (fun m' res => Kept clock m m' ∧ res = (0, p.getLastD [], d)) m (resolve (spell p)) := by
  cases p using List.reverseRecOn with
  | nil => exact attains_resolve hclock hm (List.forall_mem_nil _) List.not_mem_nil (by decide) hd
  | append_singleton pre n =>
    have hlength := hp.length
    rw [spell_concat, joinPath_concat, List.length_append, List.length_cons] at hlength
    rw [List.dropLast_concat] at hd
    rw [spell_concat, List.getLastD_concat]
    exact attains_resolve hclock hm hp.names.1 hp.names.2.2 ⟨by omega, by omega⟩ hd

theorem comes_resolve {β : Type} {Q : Files → β → Files → Prop} {f : ℤ × CString × UInt32 → AfpM β}
    (hclock : Monotone clock) (hm : Inv clock m) (hp : Known volume (pre ++ [n]))
    (hd : find m.tree AFP_ROOT_DID pre = some (.directory d))
    (hf : ∀ m', Kept clock m m' → Comes volume server clock Q m' (f (0, n, d))) :
    Comes volume server clock Q m (resolve (spell (pre ++ [n])) >>= f) := by
  refine comes_bind ?_ hf
  have hdirectory : find m.tree AFP_ROOT_DID (pre ++ [n]).dropLast = some (.directory d) := by
    rw [List.dropLast_concat, hd]
  have hresolve : Prog.Attains (Answers volume server clock) (next server clock) _ m _ :=
    attains_resolve_spell hclock hm hp hdirectory
  rw [List.getLastD_concat] at hresolve
  exact hresolve

/-- What a request names is what is at the path. -/
theorem find_base (hp : Canonical p) (hd : find m.tree AFP_ROOT_DID p.dropLast = some (.directory d)) :
    find m.tree d (requestedPath (p.getLastD [])) = find m.tree AFP_ROOT_DID p := by
  cases p using List.reverseRecOn with
  | nil => exact hd ▸ find_nil
  | append_singleton pre n =>
    rw [List.dropLast_concat] at hd
    rw [List.getLastD_concat, requestedPath_of_canonical (hp n (by simp)), find_singleton,
      find_concat_of_directory hd]

/-- A plain path has nothing to do with `.AppleDouble`. -/
theorem comes_uninitPath {α β : Type} {Q : Files → β → Files → Prop} {a : α} {f : α → AfpM β}
    (hf : Comes volume server clock Q m (f a)) :
    Comes volume server clock Q m ((uninitPath >>= fun _ => pure a) >>= f) := fun _ _ => hf

theorem comes_uninitFileInfo {β : Type} {Q : Files → β → Files → Prop} {f : AfpFileInfo → AfpM β}
    (hf : ∀ fi, Comes volume server clock Q m (f fi)) :
    Comes volume server clock Q m (uninitFileInfo >>= f) := fun fi _ => hf fi

theorem comes_refuseVirtual {β : Type} {Q : Files → β → Files → Prop} {f : ℤ → AfpM β}
    {path : CString} (hplain : Truncate.Plain volume path)
    (hf : Comes volume server clock Q m (f 0)) :
    Comes volume server clock Q m (refuseVirtual volume path >>= f) := by
  rw [refuseVirtual, Truncate.translated_eq hplain]
  exact comes_uninitPath hf

/-- The end of a program, with a request. -/
theorem comes_requestRc {α : Type} {Q : Files → α → Files → Prop} {r : Request} {f : ℤ → α}
    (h : ∀ reply : Reply r.Payload, Answers volume server clock m ⟨.request r, reply⟩ →
      Inv clock (next server clock m ⟨.request r, reply⟩) ∧
        Q (atRoot m) (f reply.rc) (atRoot (next server clock m ⟨.request r, reply⟩))) :
    Comes volume server clock Q m (requestRc r >>= fun rc => pure (f rc)) := h

/-- `is_dir()` says whether there is a directory. -/
theorem attains_isDir (did : UInt32) (pathname : CString) :
    Prog.Attains (Answers volume server clock) (next server clock)
      (fun m' directory => m' = m ∧ (directory = true ↔
        ∃ c, find m.tree did (requestedPath pathname) = some (.directory c))) m
      (isDir did pathname) := by
  intro (fi : AfpFileInfo) _
  refine (attains_afpGetfiledirparms did 0 0 pathname).bind fun m' reply h => ?_
  obtain ⟨rfl, hreply⟩ := h
  cases he : find m'.tree did (requestedPath pathname) with
  | none =>
    obtain ⟨hrc, -⟩ := hreply.none he
    rw [if_pos (by rw [hrc]; decide)]
    exact ⟨rfl, by simp⟩
  | some e =>
    obtain ⟨hrc, fi', hstored, hdescribes⟩ := hreply.entry he
    have hzero : reply.rc = 0 := hrc
    rw [if_neg (not_not.mpr hzero), hstored, Option.getD_some]
    refine ⟨rfl, hdescribes.isdir.trans ?_⟩
    cases e with
    | file => simp [Entry.kind]
    | directory c => simp [Entry.kind]

theorem changed_of_zero {fs fs' : Files} {k : Option Kind} {ret : ℤ} (hret : ret = 0)
    (h : fs' = Function.update fs p k) : Changed fs p k ret fs' := .inl ⟨hret, h⟩

theorem changed_of_neg {fs : Files} {k : Option Kind} {ret : ℤ} (hret : ret < 0) :
    Changed fs p k ret fs := .inr ⟨hret, rfl⟩

/-- Something is made in a directory where nothing has the name, and no entry of the cache can lead
there. -/
theorem Inv.make (hm : Inv clock m) (hp : Known volume (pre ++ [n]))
    (hd : find m.tree AFP_ROOT_DID pre = some (.directory d)) (hfree : m.tree d n = none)
    {e : Entry UInt32} (hnew : ∀ id, e = .directory id → id ≠ 0 ∧ Fresh m.tree AFP_ROOT_DID id) :
    Inv clock { m with tree := Hierarchy.set m.tree d n (some e) } ∧
      view (Hierarchy.set m.tree d n (some e)) AFP_ROOT_DID =
        Function.update (atRoot m) (pre ++ [n]) (some e.kind) := by
  have hvacant : Vacant m.tree (m.tree d n) := fun id h => by
    rw [hfree] at h
    cases h
  have hfresh : ∀ id, some e = some (.directory id) → id ≠ 0 ∧ Fresh m.tree AFP_ROOT_DID id :=
    fun id h => hnew id (Option.some.inj h)
  refine ⟨hm.set hd hvacant hfresh (hm.not_cached hd hp.names.2.2 hp.names.1 fun c h => ?_),
    view_set hm.proper hd hvacant fun id h => (hfresh id h).2⟩
  rw [hfree] at h
  cases h

theorem view_at (hd : find m.tree AFP_ROOT_DID pre = some (.directory d)) :
    atRoot m (pre ++ [n]) = (m.tree d n).map Entry.kind := view_concat hd

/-- The reply to a request to make something, and what it comes to. -/
theorem made_of_decided {ret : ℤ} {m' : Mount} {e : Entry UInt32} (hm : Inv clock m)
    (hp : Known volume (pre ++ [n]))
    (hd : find m.tree AFP_ROOT_DID pre = some (.directory d)) (hfree : m.tree d n = none)
    (hnew : ∀ id, e = .directory id → id ≠ 0 ∧ Fresh m.tree AFP_ROOT_DID id) (hret : ret = 0)
    (hm' : m' = { m with tree := Hierarchy.set m.tree d n (some e), created := m'.created }) :
    Inv clock m' ∧ Made (atRoot m) (pre ++ [n]) e.kind ret (atRoot m') := by
  obtain ⟨hinv, hview⟩ := hm.make hp hd hfree hnew
  rw [Made, view_at hd, hfree, Option.map_none, if_pos rfl]
  rw [hm']
  exact ⟨⟨hinv.proper, hinv.nonzero, hinv.cached⟩, changed_of_zero hret hview⟩

theorem made_of_refused {k : Kind} {ret : ℤ} (hm : Inv clock m)
    (hd : find m.tree AFP_ROOT_DID pre = some (.directory d)) (hfree : m.tree d n = none)
    (hret : ret < 0) : Inv clock m ∧ Made (atRoot m) (pre ++ [n]) k ret (atRoot m) := by
  rw [Made, view_at hd, hfree, Option.map_none, if_pos rfl]
  exact ⟨hm, changed_of_neg hret⟩

theorem made_of_exists {k : Kind} {ret : ℤ} {e : Entry UInt32} (hm : Inv clock m)
    (hd : find m.tree AFP_ROOT_DID pre = some (.directory d)) (he : m.tree d n = some e)
    (hret : ret = -EEXIST) : Inv clock m ∧ Made (atRoot m) (pre ++ [n]) k ret (atRoot m) := by
  rw [Made, view_at hd, he, Option.map_some, if_neg (Option.some_ne_none _)]
  exact ⟨hm, hret, rfl⟩

/-- **`afp_ml_mkdir()`** makes a directory. -/
theorem comes_afpMlMkdir (hclock : Monotone clock) (hm : Inv clock m)
    (hp : Known volume (pre ++ [n])) (hwrite : volumeIsReadonly volume = false)
    (hd : find m.tree AFP_ROOT_DID pre = some (.directory d)) :
    Comes volume server clock (fun fs ret fs' => Made fs (pre ++ [n]) .directory ret fs') m
      (afpMlMkdir volume (spell (pre ++ [n]))) := by
  rw [afpMlMkdir, hp.spelled.converted, ofOption_some_bind]
  simp only [ne_eq, not_true_eq_false, if_false, hp.spelled.valid, hwrite, Bool.false_eq_true]
  refine comes_refuseVirtual hp.spelled.plain ?_
  simp only [lt_self_iff_false, if_false, zero_ne_one]
  refine comes_resolve hclock hm hp hd fun m' hkept => ?_
  rw [← hkept.tree] at hd
  refine comes_requestRc fun reply hreply => ?_
  simp only [Answers, hp.requestedName] at hreply
  simp only [next, hp.requestedName]
  cases hname : m'.tree d n with
  | some e =>
    rw [hname, if_neg (Option.some_ne_none e)] at hreply
    rw [hreply, if_neg (by decide)]
    exact made_of_exists hkept.inv hd hname (by decide)
  | none =>
    rw [hname, if_pos rfl] at hreply
    obtain ⟨hdecided, hid⟩ := hreply
    rcases hdecided with hrc | hrefused
    · rw [if_pos hrc, hrc]
      refine made_of_decided (e := .directory (server.ids m'.created)) hkept.inv hp hd hname
        (fun id h => ?_) (by decide) rfl
      rw [← (by simpa using h : server.ids m'.created = id)]
      exact hid hrc
    · have hneg : -mkdirErr (Reply.rc reply) < 0 ∧ Reply.rc reply ≠ kFPNoErr := by
        rcases hrefused with h | h | h <;> rw [h] <;> decide
      rw [if_neg hneg.2]
      exact made_of_refused hkept.inv hd hname hneg.1

theorem attains_getUnixprivs {did : UInt32} {name : CString} {e : Entry UInt32}
    (he : find m.tree did (requestedPath name) = some e) (fp : AfpFileInfo) :
    Prog.Attains (Answers volume server clock) (next server clock)
      (fun m' res => m' = m ∧ res.1 = 0) m (getUnixprivs did name fp) := by
  rw [getUnixprivs, llGetDirectoryEntry, bind_assoc]
  refine (attains_afpGetfiledirparms _ _ _ _).bind fun m' reply h => ?_
  obtain ⟨rfl, hreply⟩ := h
  refine ⟨rfl, ?_⟩
  show -lookupErr reply.rc = 0
  rw [(hreply.entry he).1]
  decide

/-- A mode that all servers know is set. -/
theorem attains_setUnixprivs (did : UInt32) (basename : CString) {fp : AfpFileInfo}
    (hbits : hasExtraBits fp.unixprivs.permissions = false) :
    Prog.Attains (Answers volume server clock) (next server clock)
      (fun m' res => m' = m ∧ res.1 = 0) m (setUnixprivs volume did basename fp) := by
  have hset : ∀ (isdir : Bool) (fp : AfpFileInfo),
      Prog.Attains (Answers volume server clock) (next server clock)
      (fun m' rc => m' = m ∧ rc = kFPNoErr) m
      (if isdir then requestRc (.setDirParms did basename kFPUnixPrivsBit fp)
      else requestRc (.setFileDirParms did basename kFPUnixPrivsBit fp)) := fun _ fp =>
    Prog.attains_ite (fun _ reply hreply => ⟨rfl, hreply⟩) fun _ reply hreply => ⟨rfl, hreply⟩
  rw [setUnixprivs]
  refine Prog.attains_ite (fun _ => ⟨rfl, rfl⟩) fun _ => ?_
  intro flags _
  simp only [hbits, Bool.and_false, Bool.false_and, Bool.false_eq_true, if_false]
  refine (hset _ _).bind fun m' rc h => ?_
  obtain ⟨rfl, rfl⟩ := h
  exact fun _ _ => ⟨rfl, rfl⟩

/-- **`afp_ml_creat()`** makes a file. -/
theorem comes_afpMlCreat (hclock : Monotone clock) (hm : Inv clock m)
    (hp : Known volume (pre ++ [n])) (hwrite : volumeIsReadonly volume = false)
    (hd : find m.tree AFP_ROOT_DID pre = some (.directory d)) {mode : UInt32}
    (hbits : hasExtraBits mode = false) :
    Comes volume server clock (fun fs ret fs' => Made fs (pre ++ [n]) .file ret fs') m
      (afpMlCreat volume (spell (pre ++ [n])) mode) := by
  have hvirtual : appledoubleCreat volume (spell (pre ++ [n])) = uninitPath >>= fun _ => pure 0 := by
    rw [appledoubleCreat, Truncate.translated_eq hp.spelled.plain]
    rfl
  rw [afpMlCreat, hp.spelled.converted, ofOption_some_bind]
  simp only [ne_eq, not_true_eq_false, if_false, hwrite, Bool.false_eq_true]
  rw [hvirtual]
  refine comes_uninitPath ?_
  simp only [lt_self_iff_false, if_false, zero_ne_one, hp.spelled.valid, Bool.false_eq_true]
  refine comes_resolve hclock hm hp hd fun m' hkept => ?_
  rw [← hkept.tree] at hd
  intro reply hreply
  simp only [Answers, hp.requestedName] at hreply
  simp only [next, hp.requestedName]
  show Prog.Attains _ _ _ _ (if createErr (Reply.rc reply) ≠ 0 then _ else _)
  cases hname : m'.tree d n with
  | some e =>
    rw [hname, if_neg (Option.some_ne_none e)] at hreply
    rw [hreply, if_neg (by decide), if_pos (by decide)]
    exact made_of_exists hkept.inv hd hname (by decide)
  | none =>
    rw [hname, if_pos rfl] at hreply
    rcases hreply with hrc | hrefused
    · have hmade {m'' : Mount}
          (h : m'' = { m' with tree := Hierarchy.set m'.tree d n (some .file) }) {ret : ℤ}
          (hret : ret = 0) :
          Inv clock m'' ∧ Made (atRoot m') (pre ++ [n]) .file ret (atRoot m'') :=
        made_of_decided (e := .file) hkept.inv hp hd hname (fun _ h => by cases h)
            hret (by subst h; rfl)
      rw [if_pos hrc, hrc, if_neg (by decide)]
      refine Prog.attains_ite (fun _ => hmade rfl rfl) fun _ => ?_
      intro fi _
      have hthere : find (Hierarchy.set m'.tree d n (some .file)) d (requestedPath n) =
          some .file := by
        rw [requestedPath_of_canonical hp.names.2, find_singleton, set_self]
      refine (attains_getUnixprivs (m := { m' with
        tree := Hierarchy.set m'.tree d n (some .file) }) hthere fi).bind fun m'' got h => ?_
      obtain ⟨rfl, hgot⟩ := h
      rw [if_neg (not_not.mpr hgot)]
      refine Prog.attains_ite (fun _ => hmade rfl rfl) fun _ => ?_
      refine (attains_setUnixprivs _ _ hbits).bind fun m'' res h => ?_
      obtain ⟨rfl, hres⟩ := h
      show Prog.Attains _ _ _ _ (if res.1 = kFPAccessDenied then _ else _)
      rw [hres]
      exact hmade rfl rfl
    · have hneg : -createErr (Reply.rc reply) < 0 ∧ Reply.rc reply ≠ kFPNoErr := by
        rcases hrefused with h | h | h <;> rw [h] <;> decide
      rw [if_neg hneg.2, if_pos (by omega)]
      exact made_of_refused hkept.inv hd hname hneg.1

/-! ### Removing -/

/-- A file is taken away. -/
theorem Inv.eraseFile (hm : Inv clock m) (hp : Known volume (pre ++ [n]))
    (hd : find m.tree AFP_ROOT_DID pre = some (.directory d)) (hfile : m.tree d n = some .file) :
    Inv clock { m with tree := Hierarchy.set m.tree d n none } ∧
      view (Hierarchy.set m.tree d n none) AFP_ROOT_DID =
        Function.update (atRoot m) (pre ++ [n]) none := by
  have hvacant : Vacant m.tree (m.tree d n) := fun id h => by
    rw [hfile] at h
    cases h
  refine ⟨hm.set hd hvacant (fun _ h => by cases h) (hm.not_cached hd hp.names.2.2 hp.names.1 fun c h => ?_),
    view_set hm.proper hd hvacant fun _ h => by cases h⟩
  rw [hfile] at h
  cases h

/-- The directories are where they were. -/
theorem Inv.find_eraseFile (hm : Inv clock m)
    (hd : find m.tree AFP_ROOT_DID pre = some (.directory d)) (hfile : m.tree d n = some .file)
    {q : List CString} {c : UInt32} (hq : find m.tree AFP_ROOT_DID q = some (.directory c)) :
    find (Hierarchy.set m.tree d n none) AFP_ROOT_DID q = some (.directory c) := by
  have hvacant : Vacant m.tree (m.tree d n) := fun id h => by
    rw [hfile] at h
    cases h
  rw [find_set hm.proper hd hvacant (fun _ h => by cases h), if_neg ?_, hq]
  rintro rfl
  rw [find_concat_of_directory hd, hfile] at hq
  cases hq

/-- A request to delete a file is done or refused. -/
theorem deleteCases (hp : Known volume (pre ++ [n])) (hfile : m.tree d n = some .file)
    {reply : Reply Unit} (h : Answers volume server clock m ⟨.request (.delete d n), reply⟩) :
    reply.rc = kFPNoErr ∧ next server clock m ⟨.request (.delete d n), reply⟩ =
        { m with tree := Hierarchy.set m.tree d n none } ∨
      Refuses (.delete d n) reply.rc ∧ next server clock m ⟨.request (.delete d n), reply⟩ = m := by
  simp only [Answers, hp.requestedName, hfile] at h
  simp only [next, hp.requestedName]
  rcases h with ⟨hnone, -⟩ | ⟨-, hvacant, -⟩
  · cases hnone
  rcases hvacant (fun id h => by cases h) with hrc | hrefused
  · exact .inl ⟨hrc, if_pos hrc⟩
  · refine .inr ⟨hrefused, if_neg ?_⟩
    rcases hrefused with h | h | h <;> rw [h] <;> decide

/-- An empty directory is taken away, and its entry in the cache. -/
theorem Inv.eraseDirectory (hm : Inv clock m)
    (hd : find m.tree AFP_ROOT_DID pre = some (.directory d)) (hvacant : Vacant m.tree (m.tree d n)) :
    Inv clock { m with
        tree := Hierarchy.set m.tree d n none
        cache := removeDidEntry (joinPath slash (pre ++ [n])) m.cache } ∧
      view (Hierarchy.set m.tree d n none) AFP_ROOT_DID =
        Function.update (atRoot m) (pre ++ [n]) none := by
  have hcache : Inv clock { m with cache := removeDidEntry (joinPath slash (pre ++ [n])) m.cache } :=
    ⟨hm.proper, hm.nonzero, hm.cached.later le_rfl List.eraseP_sublist⟩
  have habsent := hm.cached.removed (joinPath slash (pre ++ [n]))
  refine ⟨hcache.set hd hvacant (fun _ h => by cases h) fun a ha hvalid hname =>
    hvalid (habsent a ha hname), ?_⟩
  exact view_set hm.proper hd hvacant fun _ h => by cases h

/-- **`afp_ml_rmdir()`** removes an empty directory. -/
theorem comes_afpMlRmdir (hclock : Monotone clock) (hm : Inv clock m)
    (hp : Known volume (pre ++ [n])) (hwrite : volumeIsReadonly volume = false)
    (hd : find m.tree AFP_ROOT_DID pre = some (.directory d)) :
    Comes volume server clock (fun fs ret fs' => RemovedDirectory fs (pre ++ [n]) ret fs') m
      (afpMlRmdir volume (spell (pre ++ [n]))) := by
  rw [afpMlRmdir, hp.spelled.valid, if_neg Bool.false_ne_true, hp.spelled.converted,
    ofOption_some_bind]
  simp only [ne_eq, not_true_eq_false, if_false, hwrite, Bool.false_eq_true]
  refine comes_refuseVirtual hp.spelled.plain ?_
  simp only [lt_self_iff_false, if_false, zero_ne_one]
  refine comes_resolve hclock hm hp hd fun m' hkept => ?_
  rw [← hkept.tree] at hd
  refine (attains_isDir _ _).bind fun m'' directory h => ?_
  obtain ⟨rfl, hdirectory⟩ := h
  rw [requestedPath_of_canonical hp.names.2, find_singleton] at hdirectory
  refine Prog.attains_ite (fun hfalse => ⟨hkept.inv, ?_⟩) fun htrue => ?_
  · -- there is no directory
    show RemovedDirectory (atRoot m'') (pre ++ [n]) (-ENOTDIR) (atRoot m'')
    unfold RemovedDirectory
    rw [view_at hd]
    cases hname : m''.tree d n with
    | none => exact ⟨rfl, rfl⟩
    | some e =>
      cases e with
      | file => exact ⟨rfl, rfl⟩
      | directory c => simp [hfalse, hname] at hdirectory
  obtain ⟨c, hc⟩ := hdirectory.mp (by simpa using htrue)
  have hempty := vacant_directory_iff ((find_concat_of_directory hd).trans hc)
  rw [← hc] at hempty
  have hremoved (ret : ℤ) (fs' : Files) :
      RemovedDirectory (atRoot m'') (pre ++ [n]) ret fs' ↔
        (Vacant m''.tree (m''.tree d n) → Changed (atRoot m'') (pre ++ [n]) none ret fs') ∧
          (¬ Vacant m''.tree (m''.tree d n) → ret = -ENOTEMPTY ∧ fs' = atRoot m'') := by
    unfold RemovedDirectory
    rw [view_at hd, hempty, hc]
    rfl
  intro reply hreply
  simp only [Answers, hp.requestedName] at hreply
  simp only [next, hp.requestedName]
  show Prog.Attains _ _ _ _ (if rmdirErr (Reply.rc reply) = 0 then _ else _)
  rcases hreply with ⟨hnone, -⟩ | ⟨-, hvacant, hfull⟩
  · rw [hc] at hnone
    cases hnone
  by_cases hv : Vacant m''.tree (m''.tree d n)
  · rcases hvacant hv with hrc | hrefused
    · rw [if_pos hrc, hrc, if_pos (by decide), spell_concat]
      obtain ⟨hinv, hview⟩ := hkept.inv.eraseDirectory hd hv
      exact fun _ _ => ⟨hinv, (hremoved _ _).mpr
        ⟨fun _ => changed_of_zero rfl hview, fun h => absurd hv h⟩⟩
    · have hneg : -rmdirErr (Reply.rc reply) < 0 ∧ Reply.rc reply ≠ kFPNoErr := by
        rcases hrefused with h | h | h <;> rw [h] <;> decide
      rw [if_neg hneg.2, if_neg (by omega)]
      exact ⟨hkept.inv, (hremoved _ _).mpr ⟨fun _ => changed_of_neg hneg.1, fun h => absurd hv h⟩⟩
  · rw [hfull hv, if_neg (by decide), if_neg (by decide)]
    exact ⟨hkept.inv, (hremoved _ _).mpr ⟨fun h => absurd h hv, fun _ => ⟨by decide, rfl⟩⟩⟩

/-- **`afp_ml_unlink()`** removes a file. -/
theorem comes_afpMlUnlink (hclock : Monotone clock) (hm : Inv clock m)
    (hp : Known volume (pre ++ [n])) (hwrite : volumeIsReadonly volume = false)
    (hd : find m.tree AFP_ROOT_DID pre = some (.directory d)) :
    Comes volume server clock (fun fs ret fs' => RemovedFile fs (pre ++ [n]) ret fs') m
      (afpMlUnlink volume (spell (pre ++ [n]))) := by
  rw [afpMlUnlink, hp.spelled.converted, ofOption_some_bind]
  simp only [ne_eq, not_true_eq_false, if_false, hwrite, Bool.false_eq_true]
  refine comes_refuseVirtual hp.spelled.plain ?_
  simp only [lt_self_iff_false, if_false, zero_ne_one]
  refine comes_resolve hclock hm hp hd fun m' hkept => ?_
  rw [← hkept.tree] at hd
  refine (attains_isDir _ _).bind fun m'' directory h => ?_
  obtain ⟨rfl, hdirectory⟩ := h
  rw [requestedPath_of_canonical hp.names.2, find_singleton] at hdirectory
  refine Prog.attains_ite (fun htrue => ⟨hkept.inv, ?_⟩) fun hfalse => ?_
  · obtain ⟨c, hc⟩ := hdirectory.mp htrue
    rw [RemovedFile, view_at hd, hc]
    exact ⟨rfl, rfl⟩
  rw [hp.spelled.valid, if_neg Bool.false_ne_true]
  show Comes volume server clock (fun fs ret fs' => RemovedFile fs (pre ++ [n]) ret fs') m'' _
  refine comes_requestRc fun reply hreply => ?_
  simp only [Answers, hp.requestedName] at hreply
  simp only [next, hp.requestedName]
  rw [RemovedFile, view_at hd]
  cases hname : m''.tree d n with
  | none =>
    rcases hreply with ⟨-, hrc⟩ | ⟨hsome, -⟩
    · rw [hrc, if_neg (by decide)]
      exact ⟨hkept.inv, by decide, rfl⟩
    · exact absurd hname hsome
  | some e =>
    have hfile : e = .file := by
      cases e with
      | file => rfl
      | directory c => exact absurd (hdirectory.mpr ⟨c, hname⟩) hfalse
    subst hfile
    rcases hreply with ⟨hnone, -⟩ | ⟨-, hvacant, -⟩
    · rw [hname] at hnone
      cases hnone
    have hv : Vacant m''.tree (m''.tree d n) := fun id h => by
      rw [hname] at h
      cases h
    rcases hvacant hv with hrc | hrefused
    · rw [if_pos hrc, hrc]
      obtain ⟨hinv, hview⟩ := hkept.inv.eraseFile hp hd hname
      exact ⟨hinv, changed_of_zero (by decide) hview⟩
    · have hneg : -unlinkErr (Reply.rc reply) < 0 ∧ Reply.rc reply ≠ kFPNoErr := by
        rcases hrefused with h | h | h <;> rw [h] <;> decide
      rw [if_neg hneg.2]
      exact ⟨hkept.inv, changed_of_neg hneg.1⟩

/-! ### Renaming -/

theorem requestedPath_spell (hp : Known volume p) : requestedPath (spell p) = p := by
  cases p with
  | nil => rfl
  | cons name names =>
    have hname : name ≠ [] ∧ slash ∉ name := hp.canonical name List.mem_cons_self
    have hnames : Separated slash names := fun part hpart =>
      (hp.canonical part (List.mem_cons_of_mem _ hpart)).2
    have hrequested : requestedName (spell (name :: names)) = name ++ joinPath slash names := rfl
    rw [requestedPath, hrequested, if_neg (by simp [hname.1]),
      split_append_joinPath hname.2 hnames]

section Rename

variable {pre' : List CString} {n' : CString} {d' : UInt32}

/-- A file is moved to a name that is free. -/
theorem Inv.move (hm : Inv clock m) (hp : Known volume (pre ++ [n])) (hq : Known volume (pre' ++ [n']))
    (hd : find m.tree AFP_ROOT_DID pre = some (.directory d))
    (hd' : find m.tree AFP_ROOT_DID pre' = some (.directory d')) (hfile : m.tree d n = some .file)
    (hfree : m.tree d' n' = none) :
    Inv clock { m with
        tree := Hierarchy.set (Hierarchy.set m.tree d n none) d' n' (some .file) } ∧
      view (Hierarchy.set (Hierarchy.set m.tree d n none) d' n' (some .file)) AFP_ROOT_DID =
        Function.update (Function.update (atRoot m) (pre ++ [n]) none) (pre' ++ [n'])
          (some .file) := by
  obtain ⟨herased, hview⟩ := hm.eraseFile hp hd hfile
  have hdst : find (Hierarchy.set m.tree d n none) AFP_ROOT_DID pre' = some (.directory d') :=
    hm.find_eraseFile hd hfile hd'
  have hfree' : Hierarchy.set m.tree d n none d' n' = none := by
    by_cases hsame : d' = d ∧ n' = n
    · rw [hsame.1, hsame.2, set_self]
    · rw [set_of_ne hsame, hfree]
  obtain ⟨hmade, hview'⟩ := herased.make (e := .file) hq hdst hfree' fun _ h => by cases h
  exact ⟨hmade, by rw [hview', atRoot, hview]; rfl⟩

/-- **A request to move a file** is done, or it is refused, or something is in its way. -/
theorem Inv.moveCases {reply : Reply Unit} (hm : Inv clock m) (hp : Known volume (pre ++ [n]))
    (hq : Known volume (pre' ++ [n']))
    (hd : find m.tree AFP_ROOT_DID pre = some (.directory d))
    (hd' : find m.tree AFP_ROOT_DID pre' = some (.directory d')) (hfile : m.tree d n = some .file)
    {r : Request} (hr : r = .moveAndRename d d' n none n') {ev : Event}
    (hev : ev = ⟨.request (.moveAndRename d d' n none n'), reply⟩)
    (h : Answers volume server clock m ev) :
    (m.tree d' n' = none ∧ reply.rc = kFPNoErr ∧ Inv clock (next server clock m ev) ∧
        atRoot (next server clock m ev) = Function.update (Function.update (atRoot m) (pre ++ [n]) none)
          (pre' ++ [n']) (some .file)) ∨
      (m.tree d' n' = none ∧ Refuses r reply.rc ∧ next server clock m ev = m) ∨
      (m.tree d' n' ≠ none ∧ reply.rc = kFPObjectExists ∧ next server clock m ev = m) := by
  subst hr hev
  simp only [Answers, MoveAnswer, hp.requestedName, hq.requestedName, hfile] at h
  have hnext : next server clock m ⟨.request (.moveAndRename d d' n none n'), reply⟩ =
      if reply.rc = kFPNoErr then
        { m with tree := Hierarchy.set (Hierarchy.set m.tree d n none) d' n' (some .file) }
      else m := by
    simp only [next, hp.requestedName, hq.requestedName, hfile]
    rfl
  rw [hnext]
  change if m.tree d' n' = none then Decided _ reply.rc else reply.rc = kFPObjectExists at h
  by_cases hfree : m.tree d' n' = none
  · rw [if_pos hfree] at h
    rcases h with hrc | hrefused
    · rw [if_pos hrc]
      exact .inl ⟨hfree, hrc, hm.move hp hq hd hd' hfile hfree⟩
    · have hfailed : reply.rc ≠ kFPNoErr := by
        rcases hrefused with h | h | h <;> rw [h] <;> decide
      rw [if_neg hfailed]
      exact .inr (.inl ⟨hfree, hrefused, rfl⟩)
  · rw [if_neg hfree] at h
    rw [h, if_neg (by decide)]
    exact .inr (.inr ⟨hfree, rfl, rfl⟩)

/-- Two names in the hierarchy are the same only on one path. -/
theorem Inv.ne_of_path_ne (hm : Inv clock m)
    (hd : find m.tree AFP_ROOT_DID pre = some (.directory d))
    (hd' : find m.tree AFP_ROOT_DID pre' = some (.directory d')) (hne : pre ++ [n] ≠ pre' ++ [n']) :
    ¬ (d = d' ∧ n = n') := by
  rintro ⟨rfl, rfl⟩
  exact hne (congrArg (· ++ [n]) (hm.proper pre pre' d hd hd'))

/-- **`afp_ml_rename()`** gives a file another path. -/
theorem comes_afpMlRename (hclock : Monotone clock) (hm : Inv clock m)
    (hp : Known volume (pre ++ [n])) (hq : Known volume (pre' ++ [n']))
    (hwrite : volumeIsReadonly volume = false)
    (hd : find m.tree AFP_ROOT_DID pre = some (.directory d))
    (hd' : find m.tree AFP_ROOT_DID pre' = some (.directory d')) (hfile : m.tree d n = some .file)
    (hne : pre ++ [n] ≠ pre' ++ [n']) (htarget : ∀ c, m.tree d' n' ≠ some (.directory c))
    (hodd : ∀ c, find m.tree d' (pre' ++ [n']) ≠ some (.directory c)) :
    Comes volume server clock (fun fs ret fs' => Renamed fs (pre ++ [n]) (pre' ++ [n']) ret fs') m
      (afpMlRename volume (spell (pre ++ [n])) (spell (pre' ++ [n']))) := by
  rw [afpMlRename, hp.spelled.converted, ofOption_some_bind]
  simp only [ne_eq, not_true_eq_false, if_false]
  rw [hq.spelled.converted, ofOption_some_bind]
  simp only [not_true_eq_false, if_false, hwrite, Bool.false_eq_true]
  refine comes_resolve hclock hm hp hd fun m₁ hkept₁ => ?_
  rw [← hkept₁.tree] at hd hd' hfile htarget hodd
  refine comes_resolve hclock hkept₁.inv hq hd' fun m₂ hkept₂ => ?_
  rw [← hkept₂.tree] at hd hd' hfile htarget hodd
  have hinv := hkept₂.inv
  refine (attains_isDir _ _).bind fun m₃ directory h => ?_
  obtain ⟨rfl, hdirectory⟩ := h
  rw [requestedPath_spell hq] at hdirectory
  have hnot : directory = false := by
    by_contra htrue
    obtain ⟨c, hc⟩ := hdirectory.mp (by simpa using htrue)
    exact hodd c hc
  rw [hnot, if_neg Bool.false_ne_true]
  intro (reply : Reply Unit) hreply
  show Prog.Attains _ _ _ _ (if reply.rc = kFPObjectLocked ∨ reply.rc = kFPAccessDenied then _ else _)
  rcases hinv.moveCases hp hq hd hd' hfile rfl rfl hreply with
    ⟨-, hrc, hmoved, hview⟩ | ⟨-, hrefused, hsame⟩ | ⟨hthere, hrc, hsame⟩
  · rw [hrc, if_neg (by decide), if_neg (by decide), if_neg (by decide), if_pos (by decide)]
    exact ⟨hmoved, .inl ⟨rfl, hview⟩⟩
  · rw [hsame]
    have hunchanged {ret : ℤ} (hret : ret < 0) : Inv clock m₃ ∧
        Renamed (atRoot m₃) (pre ++ [n]) (pre' ++ [n']) ret (atRoot m₃) := ⟨hinv, .inr ⟨hret, .inl rfl⟩⟩
    refine Prog.attains_ite (fun _ => hunchanged (by decide)) fun hlocked => ?_
    refine Prog.attains_ite (fun _ => hunchanged (by decide)) fun hcannot => ?_
    rcases hrefused with h | h | h
    · exact absurd (.inr h) hlocked
    · exact absurd (.inl h) hlocked
    · exact absurd h hcannot
  -- the file that is there is deleted, and the move is tried again
  have hfile' : m₃.tree d' n' = some .file := by
    cases hname : m₃.tree d' n' with
    | none => exact absurd hname hthere
    | some e =>
      cases e with
      | file => rfl
      | directory c => exact absurd hname (htarget c)
  have hfs : atRoot m₃ (pre' ++ [n']) = some .file := by
    rw [view_at hd', hfile']
    rfl
  rw [hsame, hrc, if_neg (by decide), if_neg (by decide), if_pos rfl]
  intro (deleted : Reply Unit) hdeleted
  rcases deleteCases hq hfile' hdeleted with ⟨-, hnext⟩ | ⟨-, hnext⟩
  · rw [hnext]
    obtain ⟨hinv', hview⟩ := hinv.eraseFile hq hd' hfile'
    have hsource : Hierarchy.set m₃.tree d' n' none d n = some .file := by
      rw [set_of_ne (hinv.ne_of_path_ne hd hd' hne), hfile]
    intro (again : Reply Unit) hagain
    rcases hinv'.moveCases hp hq (hinv.find_eraseFile hd' hfile' hd) (hinv.find_eraseFile hd' hfile' hd')
      hsource rfl rfl hagain with ⟨-, hrc', hmoved, hview'⟩ | ⟨-, hrefused, hsame'⟩ | ⟨htaken, -⟩
    · refine ⟨hmoved, .inl ⟨?_, ?_⟩⟩
      · show -moveAgainErr again.rc = 0
        rw [hrc']
        decide
      · rw [hview', atRoot, hview, Function.update_comm hne, Function.update_idem,
          Function.update_comm hne]
    · rw [hsame']
      refine ⟨hinv', .inr ⟨?_, .inr ⟨hfs, hview⟩⟩⟩
      show -moveAgainErr again.rc < 0
      rcases hrefused with h | h | h <;> rw [h] <;> decide
    · exact absurd set_self htaken
  · rw [hnext]
    intro (again : Reply Unit) hagain
    rcases hinv.moveCases hp hq hd hd' hfile rfl rfl hagain with
      ⟨hfree, -⟩ | ⟨hfree, -⟩ | ⟨-, hrc', hsame'⟩
    · exact absurd hfree hthere
    · exact absurd hfree hthere
    · rw [hsame']
      refine ⟨hinv, .inr ⟨?_, .inl rfl⟩⟩
      show -moveAgainErr again.rc < 0
      rw [hrc']
      decide

end Rename

/-! ### Looking up and listing -/

/-- The mode of a directory has the bit of a directory, and that of a file has not. -/
theorem mode_of_describes {e : Entry UInt32} {fi : AfpFileInfo} (h : Describes volume e fi) :
    (if volume.has VOLUME_EXTRA_FLAGS_VOL_SUPPORTS_UNIX then fi.unixprivs.permissions.toNat
      else (setNonunixPerms fi).toNat) &&& S_IFDIR ≠ 0 ↔ e.kind = .directory := by
  cases hunix : volume.has VOLUME_EXTRA_FLAGS_VOL_SUPPORTS_UNIX with
  | true =>
    rw [if_pos rfl]
    exact h.mode hunix
  | false =>
    rw [if_neg Bool.false_ne_true, ← h.isdir, setNonunixPerms]
    cases fi.isdir <;> decide

/-- **`ll_getattr()`** looks up what is at the path. -/
theorem comes_llGetattr (hclock : Monotone clock) (hm : Inv clock m) (hp : Known volume p)
    (hmapped : Mapped volume) (hd : find m.tree AFP_ROOT_DID p.dropLast = some (.directory d))
    (hroot : p = [] → 30 ≤ volume.server.avNumber) :
    Comes volume server clock (fun fs res fs' => fs' = fs ∧ LookedUp fs p res.1 res.2) m
      (llGetattr volume (spell p) false) := by
  have hnot : (decide (volume.server.avNumber < 30) && decide (spell p = [slash])) = false := by
    by_cases hnil : p = []
    · rw [decide_eq_false (Nat.not_lt.mpr (hroot hnil)), Bool.false_and]
    · obtain ⟨name, names, rfl⟩ := List.exists_cons_of_ne_nil hnil
      have hname := (hp.canonical name List.mem_cons_self).1
      have hspell : spell (name :: names) ≠ [slash] := by
        show joinPath slash (name :: names) ≠ [slash]
        rw [joinPath_cons]
        simp [hname]
      rw [decide_eq_false hspell, Bool.and_false]
  rw [llGetattr, hp.spelled.valid, if_neg Bool.false_ne_true]
  refine comes_uninitFileInfo fun fi => ?_
  refine comes_bind (attains_resolve_spell hclock hm hp hd) fun m' hkept => ?_
  rw [← hkept.tree] at hd
  simp only [lt_self_iff_false, if_false, hnot, Bool.false_eq_true]
  refine (attains_afpGetfiledirparms _ _ _ _).bind fun m'' reply h => ?_
  obtain ⟨rfl, hreply⟩ := h
  have hbase := find_base hp.canonical hd
  have hfs : atRoot m'' p = (find m''.tree AFP_ROOT_DID p).map Entry.kind := rfl
  cases he : find m''.tree AFP_ROOT_DID p with
  | none =>
    obtain ⟨hrc, -⟩ := hreply.none (hbase.trans he)
    rw [hrc, if_pos (by decide)]
    refine ⟨hkept.inv, rfl, ?_⟩
    rw [LookedUp, hfs, he]
    exact ⟨(by decide : -lookupErr kFPObjectNotFound = -ENOENT), rfl⟩
  | some e =>
    obtain ⟨hrc, fi', hstored, hdescribes⟩ := hreply.entry (hbase.trans he)
    rw [hrc, hstored, Option.getD_some, if_neg (by decide), if_neg (not_not.mpr (hmapped _ _))]
    refine ⟨hkept.inv, rfl, ?_⟩
    rw [LookedUp, hfs, he]
    exact ⟨rfl, mode_of_describes hdescribes⟩

/-- **`afp_ml_getattr()`** looks up what is at the path. -/
theorem comes_afpMlGetattr (hclock : Monotone clock) (hm : Inv clock m) (hp : Known volume p)
    (hmapped : Mapped volume) (hd : find m.tree AFP_ROOT_DID p.dropLast = some (.directory d))
    (hroot : p = [] → 30 ≤ volume.server.avNumber) :
    Comes volume server clock (fun fs res fs' => fs' = fs ∧ LookedUp fs p res.1 res.2) m
      (afpMlGetattr volume (spell p)) := by
  have hvirtual : appledoubleGetattr volume (spell p) = uninitPath >>= fun _ => pure (0, .zero) := by
    rw [appledoubleGetattr, Truncate.translated_eq hp.spelled.plain]
    rfl
  rw [afpMlGetattr, hp.spelled.converted, ofOption_some_bind]
  simp only [ne_eq, not_true_eq_false, if_false]
  rw [hvirtual]
  exact fun _ _ => comes_llGetattr hclock hm hp hmapped hd hroot

/-- A request for entries of a directory, by its name. -/
def Enumerating (did : UInt32) (basename : CString) : Effect → Prop
  | .request (.enumerate d _ _ _ _ name) => d = did ∧ name = basename
  | .request (.enumerateExt2 d _ _ _ _ name) => d = did ∧ name = basename
  | _ => False

theorem enumerating_readdirLoop (did : UInt32) (filebitmap dirbitmap : ℕ) (basename : CString)
    (fuel startindex : ℕ) (filebase : List AfpFileInfo) :
    (readdirLoop volume did filebitmap dirbitmap basename fuel startindex filebase).AllActs
      (Enumerating did basename) := by
  induction fuel generalizing startindex filebase with
  | zero => trivial
  | succ fuel ih =>
    have hrequest : (enumerateRequest volume did filebitmap dirbitmap startindex basename).AllActs
        (Enumerating did basename) :=
      Prog.allActs_ite.mpr ⟨fun _ => ⟨⟨rfl, rfl⟩, fun _ => trivial⟩,
        fun _ => ⟨⟨rfl, rfl⟩, fun _ => trivial⟩⟩
    refine hrequest.bind fun reply => ?_
    simp only [Prog.allActs_ite]
    exact ⟨fun _ => trivial, fun _ => ⟨fun _ => ih _ _, fun _ => ⟨fun _ => trivial, fun _ =>
      ⟨fun _ => trivial, fun _ => ⟨fun _ => trivial, fun _ => ⟨fun _ => trivial, fun _ => ih _ _⟩⟩⟩⟩⟩⟩

/-- **The whole directory is listed.** -/
theorem attains_readdirLoop {c : UInt32} {basename : CString}
    (hc : find m.tree d (requestedPath basename) = some (.directory c)) {fuel : ℕ}
    (hfuel : (server.listing m.tree c).length < fuel)
    (hindex : (server.listing m.tree c).length + 1 < Enumerate.indexModulus volume)
    (filebitmap dirbitmap : ℕ) :
    Prog.Attains (Answers volume server clock) (next server clock)
      (fun m' res => m' = m ∧ res = (0, server.listing m.tree c)) m
      (readdirLoop volume d filebitmap dirbitmap basename fuel 1 []) := by
  refine Prog.Yields.attains
    (Enumerate.yields_readdirLoop hindex d filebitmap dirbitmap basename fuel 0 hfuel (Nat.zero_le _))
    (enumerating_readdirLoop d filebitmap dirbitmap basename fuel 1 []) fun ev hev hanswer => ?_
  obtain ⟨e, r⟩ := ev
  cases e with
  | request r' =>
    cases r' with
    | enumerate did fb db count startindex name =>
      obtain ⟨rfl, rfl⟩ := hev
      exact ⟨hanswer c hc, rfl⟩
    | enumerateExt2 did fb db count startindex name =>
      obtain ⟨rfl, rfl⟩ := hev
      exact ⟨hanswer c hc, rfl⟩
    | _ => exact hev.elim
  | _ => exact hev.elim

/-- A directory that is not too long to be listed is listed as it is. -/
theorem enumerates_listing (hhonest : server.Honest) {c : UInt32} {bound : ℕ}
    (hbound : ∀ names : Finset CString, (∀ name ∈ names, m.tree c name ≠ none) → names.card < bound) :
    Enumerates m.tree c (server.listing m.tree c) ∧ (server.listing m.tree c).length < bound := by
  have hfinite : {name | m.tree c name ≠ none}.Finite := by
    by_contra hinfinite
    obtain ⟨names, hnames, hcard⟩ := Set.Infinite.exists_subset_card_eq hinfinite bound
    exact absurd (hbound names fun name hname => hnames hname) (by omega)
  have hlisted := hhonest m.tree c hfinite
  refine ⟨hlisted, ?_⟩
  rw [← List.length_map (·.name), ← List.toFinset_card_of_nodup hlisted.nodup]
  refine hbound _ fun name hname => ?_
  obtain ⟨fi, hfi, rfl⟩ := List.mem_map.mp (List.mem_toFinset.mp hname)
  have hkind := (hlisted.complete fi.name (if fi.isdir then .directory else .file)).mpr
    ⟨fi, hfi, rfl, by cases fi.isdir <;> simp⟩
  intro hnone
  rw [hnone] at hkind
  cases hkind

/-- **`afp_ml_readdir()`** lists what is in a directory. -/
theorem comes_afpMlReaddir (hclock : Monotone clock) (hhonest : server.Honest) (hm : Inv clock m)
    (hp : Known volume p) {c : UInt32} (hc : find m.tree AFP_ROOT_DID p = some (.directory c))
    {fuel : ℕ}
    (hbound : ∀ names : Finset CString, (∀ name ∈ names, m.tree c name ≠ none) →
      names.card < fuel ∧ names.card + 1 < Enumerate.indexModulus volume)
    (hunix : ∀ name, m.tree c name ≠ none →
      (convertPathToUnix volume.server.pathEncoding name AFP_MAX_PATH).isSome) :
    Comes volume server clock (fun fs res fs' => fs' = fs ∧ ListedAt volume fs p res) m
      (afpMlReaddir volume (spell p) fuel) := by
  have hvirtual : appledoubleReaddir volume (spell p) fuel =
      uninitPath >>= fun _ => pure (0, none) := by
    rw [appledoubleReaddir, Truncate.translated_eq hp.spelled.plain]
    rfl
  obtain ⟨d, hd⟩ : ∃ d, find m.tree AFP_ROOT_DID p.dropLast = some (.directory d) := by
    cases p using List.reverseRecOn with
    | nil => exact ⟨_, rfl⟩
    | append_singleton pre n =>
      rw [List.dropLast_concat]
      exact directory_of_find_append hc
  rw [afpMlReaddir, hp.spelled.converted, ofOption_some_bind]
  simp only [ne_eq, not_true_eq_false, if_false]
  rw [hvirtual]
  refine comes_uninitPath ?_
  simp only [lt_self_iff_false, if_false, zero_ne_one]
  obtain ⟨filebitmap, dirbitmap, heq⟩ := Enumerate.llReaddir_eq false hp.spelled.valid
  rw [heq]
  refine comes_bind (attains_resolve_spell hclock hm hp hd) fun m' hkept => ?_
  rw [← hkept.tree] at hd hc hbound hunix
  rw [if_neg (lt_irrefl 0)]
  obtain ⟨hlisted, hfuel⟩ := enumerates_listing hhonest fun names hnames => (hbound names hnames).1
  have hindex : (server.listing m'.tree c).length < Enumerate.indexModulus volume - 1 :=
    (enumerates_listing hhonest fun names hnames => by have := (hbound names hnames).2; omega).2
  have hbase := (find_base hp.canonical hd).trans hc
  refine (attains_readdirLoop hbase hfuel (by omega) filebitmap dirbitmap).bind fun m'' loop h => ?_
  obtain ⟨rfl, rfl⟩ := h
  rw [if_neg (not_not.mpr rfl)]
  have hsome : ∀ fi ∈ server.listing m''.tree c, (Enumerate.present volume fi).isSome := by
    intro fi hfi
    have hthere : m''.tree c fi.name ≠ none := fun hnone => by
      have hkind := (hlisted.complete fi.name (if fi.isdir then .directory else .file)).mpr
        ⟨fi, hfi, rfl, by cases fi.isdir <;> simp⟩
      rw [hnone] at hkind
      cases hkind
    obtain ⟨res, hres⟩ := Option.isSome_iff_exists.mp (hunix fi.name hthere)
    rw [Enumerate.present_eq, Enumerate.converted, hres]
    rfl
  have hyields : Prog.Yields (fun _ => True) (Enumerate.Listed volume (server.listing m''.tree c))
      (Enumerate.finish volume (server.listing m''.tree c)) := Enumerate.yields_finish.mpr hsome
  refine (hyields.attains (P := fun _ => False) ?_ fun ev hev _ => hev.elim).mono fun m' res h => ?_
  · rw [Enumerate.finish]
    cases (server.listing m''.tree c).mapM (Enumerate.converted volume) with
    | none => trivial
    | some list => trivial
  · obtain ⟨rfl, hres⟩ := h
    refine ⟨hkept.inv, rfl, server.listing m'.tree c, hlisted.nodup, fun name kind => ?_, hres⟩
    rw [view_at hc]
    exact hlisted.complete name kind

/-! ## The operations, by the paths -/

/-- What a volume is for that can be written, and whose owners the client knows. -/
structure Mounted (volume : Volume) : Prop where
  writable : volumeIsReadonly volume = false
  mapped : Mapped volume

theorem InDirectory.exists_names {fs : Files} (h : InDirectory fs p) (hfs : fs = atRoot m) :
    ∃ pre n d, p = pre ++ [n] ∧ find m.tree AFP_ROOT_DID pre = some (.directory d) := by
  obtain ⟨hne, hdir⟩ := h
  rw [hfs] at hdir
  obtain ⟨d, hd⟩ := view_eq_directory.mp hdir
  exact ⟨p.dropLast, p.getLast hne, d, (List.dropLast_append_getLast hne).symm, hd⟩

section ByPath

variable {q : List CString} {fuel : ℕ}

theorem comes_mkdir (hclock : Monotone clock) (hm : Inv clock m) (hvolume : Mounted volume)
    (hp : Known volume p) (hin : InDirectory (atRoot m) p) :
    Comes volume server clock (fun fs ret fs' => Made fs p .directory ret fs') m
      (afpMlMkdir volume (spell p)) := by
  obtain ⟨pre, n, d, rfl, hd⟩ := hin.exists_names rfl
  exact comes_afpMlMkdir hclock hm hp hvolume.writable hd

theorem comes_rmdir (hclock : Monotone clock) (hm : Inv clock m) (hvolume : Mounted volume)
    (hp : Known volume p) (hin : InDirectory (atRoot m) p) :
    Comes volume server clock (fun fs ret fs' => RemovedDirectory fs p ret fs') m
      (afpMlRmdir volume (spell p)) := by
  obtain ⟨pre, n, d, rfl, hd⟩ := hin.exists_names rfl
  exact comes_afpMlRmdir hclock hm hp hvolume.writable hd

theorem comes_creat (hclock : Monotone clock) (hm : Inv clock m) (hvolume : Mounted volume)
    (hp : Known volume p) (hin : InDirectory (atRoot m) p) {mode : UInt32}
    (hbits : hasExtraBits mode = false) :
    Comes volume server clock (fun fs ret fs' => Made fs p .file ret fs') m
      (afpMlCreat volume (spell p) mode) := by
  obtain ⟨pre, n, d, rfl, hd⟩ := hin.exists_names rfl
  exact comes_afpMlCreat hclock hm hp hvolume.writable hd hbits

theorem comes_unlink (hclock : Monotone clock) (hm : Inv clock m) (hvolume : Mounted volume)
    (hp : Known volume p) (hin : InDirectory (atRoot m) p) :
    Comes volume server clock (fun fs ret fs' => RemovedFile fs p ret fs') m
      (afpMlUnlink volume (spell p)) := by
  obtain ⟨pre, n, d, rfl, hd⟩ := hin.exists_names rfl
  exact comes_afpMlUnlink hclock hm hp hvolume.writable hd

theorem comes_rename (hclock : Monotone clock) (hm : Inv clock m) (hvolume : Mounted volume)
    (hp : Known volume p) (hq : Known volume q) (hfile : atRoot m p = some .file)
    (hin : InDirectory (atRoot m) q) (hne : p ≠ q) (htarget : atRoot m q ≠ some .directory)
    (hodd : atRoot m (q.dropLast ++ q) ≠ some .directory) :
    Comes volume server clock (fun fs ret fs' => Renamed fs p q ret fs') m
      (afpMlRename volume (spell p) (spell q)) := by
  obtain ⟨pre', n', d', rfl, hd'⟩ := hin.exists_names rfl
  obtain ⟨e, he, hkind⟩ := Option.map_eq_some_iff.mp hfile
  have hnil : p ≠ [] := by
    rintro rfl
    rw [find_nil] at he
    cases he
    cases hkind
  obtain ⟨pre, n, rfl⟩ : ∃ pre n, p = pre ++ [n] :=
    ⟨_, _, (List.dropLast_append_getLast hnil).symm⟩
  obtain ⟨d, hd⟩ := directory_of_find_append he
  have hsource : m.tree d n = some .file := by
    rw [← find_concat_of_directory hd, he]
    cases e with
    | file => rfl
    | directory c => cases hkind
  rw [List.dropLast_concat] at hodd
  refine comes_afpMlRename hclock hm hp hq hvolume.writable hd hd' hsource hne (fun c hc => ?_)
    fun c hc => ?_
  · exact htarget (view_eq_directory.mpr ⟨c, (find_concat_of_directory hd').trans hc⟩)
  · exact hodd (view_eq_directory.mpr ⟨c, (find_append_of_directory hd' _).trans hc⟩)

theorem comes_getattr (hclock : Monotone clock) (hm : Inv clock m) (hvolume : Mounted volume)
    (hp : Known volume p)
    (hin : InDirectory (atRoot m) p ∨ p = [] ∧ 30 ≤ volume.server.avNumber) :
    Comes volume server clock (fun fs res fs' => fs' = fs ∧ LookedUp fs p res.1 res.2) m
      (afpMlGetattr volume (spell p)) := by
  have hparent : ∃ d, find m.tree AFP_ROOT_DID p.dropLast = some (.directory d) := by
    rcases hin with hin | ⟨rfl, -⟩
    · exact view_eq_directory.mp hin.2
    · exact ⟨_, rfl⟩
  obtain ⟨d, hd⟩ := hparent
  refine comes_afpMlGetattr hclock hm hp hvolume.mapped hd fun hnil => ?_
  exact (hin.resolve_left fun h => h.1 hnil).2

theorem comes_readdir (hclock : Monotone clock) (hhonest : server.Honest) (hm : Inv clock m)
    (hfits : (Op.readdir p).Fits volume fuel (atRoot m)) :
    Comes volume server clock (fun fs res fs' => fs' = fs ∧ ListedAt volume fs p res) m
      (afpMlReaddir volume (spell p) fuel) := by
  obtain ⟨hp, hdir, hbound, hunix⟩ := hfits
  obtain ⟨c, hc⟩ := view_eq_directory.mp hdir
  have hchild (name : CString) : m.tree c name ≠ none → atRoot m (p ++ [name]) ≠ none := by
    rw [view_at hc]
    cases m.tree c name <;> simp
  exact comes_afpMlReaddir hclock hhonest hm hp hc
    (fun names hnames => hbound names fun name hname => hchild name (hnames name hname))
    fun name hname => hunix name (hchild name hname)

/-- **An operation does what the abstract one does.** -/
theorem attains_run (hclock : Monotone clock) (hhonest : server.Honest) (hvolume : Mounted volume)
    {op : Op} (hm : Inv clock m) (hfits : op.Fits volume fuel (atRoot m)) :
    Comes volume server clock (fun fs outcome fs' => op.Does volume fs outcome fs') m
      (op.run volume fuel) := by
  cases op with
  | mkdir p => exact (comes_mkdir hclock hm hvolume hfits.1 hfits.2).bind fun _ _ h => h
  | rmdir p => exact (comes_rmdir hclock hm hvolume hfits.1 hfits.2).bind fun _ _ h => h
  | creat p mode =>
    exact (comes_creat hclock hm hvolume hfits.1 hfits.2.1 hfits.2.2).bind fun _ _ h => h
  | unlink p => exact (comes_unlink hclock hm hvolume hfits.1 hfits.2).bind fun _ _ h => h
  | rename p q =>
    obtain ⟨hp, hq, hfile, hin, hne, htarget, hodd⟩ := hfits
    exact (comes_rename hclock hm hvolume hp hq hfile hin hne htarget hodd).bind fun _ _ h => h
  | getattr p => exact (comes_getattr hclock hm hvolume hfits.1 hfits.2).bind fun _ _ h => h
  | readdir p => exact (comes_readdir hclock hhonest hm hfits).bind fun _ _ h => h

end ByPath

/-! ## Clients -/

/-- **Whatever a program comes to on the abstract file system, it comes to** when the operations are
those of the client library: on any server that answers as `Answers` says, with any ids and any
readings of the clock that go on, and whatever the cache held that was right.  The cache stays right. -/
theorem clients_refine (hclock : Monotone clock) (hhonest : server.Honest) (hvolume : Mounted volume)
    {fuel : ℕ} {α : Type} {Q : Files → α → Prop} {client : Client α} (hm : Inv clock m)
    (hclient : client.Meets (Op.Fits volume fuel) (Op.Does volume) Q (atRoot m)) :
    Prog.Attains (Answers volume server clock) (next server clock)
      (fun m' a => Inv clock m' ∧ Q (atRoot m') a) m (client.interpret (Op.run volume fuel)) :=
  hclient.interpret hm fun _ _ hm hfits => attains_run hclock hhonest hvolume hm hfits

/-- A volume that was just mounted. -/
theorem inv_mounted {tree : Tree} (hproper : Proper tree AFP_ROOT_DID)
    (hnonzero : ∀ p, find tree AFP_ROOT_DID p ≠ some (.directory 0)) (created readings : ℕ) :
    Inv clock ⟨tree, created, [], readings⟩ :=
  ⟨hproper, hnonzero, .nil, List.forall_mem_nil _, .nil, List.forall_mem_nil _⟩

end Operations

/-! ## An example -/

/-- What a server says of an entry of a directory. -/
def describe (tree : Tree) (did : UInt32) (name : CString) : AfpFileInfo :=
  { AfpFileInfo.zero with
    name := name
    isdir := decide ((tree did name).map Entry.kind = some .directory) }

open Classical in
/-- A server that counts up the ids, and lists directories in some order. -/
noncomputable def countingServer : Server where
  ids k := .ofNat (k + 16)
  listing tree did :=
    if h : {name | tree did name ≠ none}.Finite then h.toFinset.toList.map (describe tree did) else []

theorem countingServer_honest : countingServer.Honest := by
  intro tree did h
  have hlisting : countingServer.listing tree did = h.toFinset.toList.map (describe tree did) :=
    dif_pos h
  have hmem (name : CString) : name ∈ h.toFinset.toList ↔ tree did name ≠ none := by
    rw [Finset.mem_toList, Set.Finite.mem_toFinset]
    exact Iff.rfl
  rw [hlisting]
  constructor
  · rw [List.map_map]
    exact (List.map_id _).symm ▸ Finset.nodup_toList _
  · intro name kind
    constructor
    · intro hkind
      have hthere : tree did name ≠ none := fun hnone => by
        rw [hnone] at hkind
        cases hkind
      refine ⟨_, List.mem_map.mpr ⟨name, (hmem name).mpr hthere, rfl⟩, rfl, ?_⟩
      rw [describe, decide_eq_true_iff, hkind, Option.some_inj]
    · rintro ⟨fi, hfi, hname, hdir⟩
      obtain ⟨name', hname', rfl⟩ := List.mem_map.mp hfi
      obtain rfl : name' = name := hname
      obtain ⟨e, he⟩ := Option.ne_none_iff_exists'.mp ((hmem name').mp hname')
      rw [describe, decide_eq_true_iff, he, Option.map_some, Option.some_inj] at hdir
      rw [he, Option.map_some, Option.some_inj]
      cases kind with
      | directory => exact hdir.mpr rfl
      | file =>
        cases e with
        | file => rfl
        | directory c => exact absurd (hdir.mp rfl) (by decide)

/-- What an operation returns. -/
def Outcome.ret : Outcome → ℤ
  | .done ret => ret
  | .attributes ret _ => ret
  | .listing res => res.1

/-- A program that makes a directory `a`, and a file `b` in it if that works. -/
def makeFile : Client ℤ :=
  .act (.mkdir [[0x61]]) fun made =>
    if made.ret = 0 then .act (.creat [[0x61], [0x62]] 0o644) fun created => .done created.ret
    else .done made.ret

theorem valid_of_short {rest : CString} (hrest : rest ≠ [])
    (h : ∀ name ∈ split slash rest, name.length ≤ 255) :
    invalidFilename Volume.plain.server (slash :: rest) = false := by
  rw [Bool.eq_false_iff]
  intro hinvalid
  rw [invalidFilename, if_neg (List.cons_ne_nil _ _), if_neg (by simpa using hrest)] at hinvalid
  obtain ⟨name, hname, hlong⟩ := (FileNames.invalidFrom_iff _ [slash] rest).mp hinvalid
  have hle := h name hname
  simp only [Volume.plain] at hlong
  split at hlong <;> try split at hlong
  all_goals omega

theorem known_a : Known Volume.plain [[0x61]] where
  canonical := List.forall_mem_singleton.mpr (by decide)
  spelled := ⟨by decide, fun _ => rfl, valid_of_short (by decide) (by decide)⟩
  length := by decide

theorem known_ab : Known Volume.plain [[0x61], [0x62]] where
  canonical := List.forall_mem_cons.mpr ⟨by decide, List.forall_mem_singleton.mpr (by decide)⟩
  spelled := ⟨by decide, fun _ => rfl, valid_of_short (by decide) (by decide)⟩
  length := by decide

/-- The root is an empty directory. -/
def emptyTree : Tree := fun _ _ => none

theorem find_emptyTree (p : List CString) :
    find emptyTree AFP_ROOT_DID p = if p = [] then some (.directory AFP_ROOT_DID) else none := by
  cases p using List.reverseRecOn with
  | nil => rfl
  | append_singleton p n =>
    rw [find_concat, if_neg (by simp)]
    cases find emptyTree AFP_ROOT_DID p with
    | none => rfl
    | some e => cases e <;> rfl

theorem inv_emptyTree : Inv id ⟨emptyTree, 0, [], 0⟩ := by
  refine inv_mounted (fun p q d hp hq => ?_) (fun p h => ?_) 0 0
  · rw [find_emptyTree] at hp hq
    split at hp
    · split at hq
      · simp_all
      · cases hq
    · cases hp
  · rw [find_emptyTree] at h
    split at h
    · exact absurd h (by decide)
    · cases h

/-- If the program returns 0, the file is there. -/
theorem clients_refine_of_makeFile :
    Prog.Attains (Answers Volume.plain countingServer id) (next countingServer id)
      (fun m' ret => Inv id m' ∧ (ret = 0 → atRoot m' [[0x61], [0x62]] = some .file))
      ⟨emptyTree, 0, [], 0⟩ (makeFile.interpret (Op.run Volume.plain 1)) := by
  have hvolume : Mounted Volume.plain := ⟨by decide, fun _ _ => rfl⟩
  refine clients_refine monotone_id countingServer_honest hvolume
    (Q := fun fs ret => ret = 0 → fs [[0x61], [0x62]] = some .file) inv_emptyTree ?_
  refine ⟨⟨known_a, List.cons_ne_nil _ _, rfl⟩, fun outcome fs hdoes => ?_⟩
  cases outcome with
  | attributes ret stbuf => exact hdoes.elim
  | listing res => exact hdoes.elim
  | done ret =>
    have hmade : Made (atRoot ⟨emptyTree, 0, [], 0⟩) [[0x61]] .directory ret fs := hdoes
    have hnone : atRoot ⟨emptyTree, 0, [], 0⟩ [[0x61]] = none := rfl
    rw [Made, if_pos hnone] at hmade
    rcases hmade with ⟨rfl, rfl⟩ | ⟨hret, -⟩
    · refine ⟨⟨known_ab, ⟨List.cons_ne_nil _ _, rfl⟩, by decide⟩, fun outcome fs' hdoes' => ?_⟩
      cases outcome with
      | attributes ret stbuf => exact hdoes'.elim
      | listing res => exact hdoes'.elim
      | done ret =>
        intro (hret : ret = 0)
        have hfile : Made _ [[0x61], [0x62]] .file ret fs' := hdoes'
        have hnone' : Function.update (atRoot ⟨emptyTree, 0, [], 0⟩) [[0x61]] (some .directory)
            [[0x61], [0x62]] = none := Function.update_of_ne (by decide) ..
        rw [Made, if_pos hnone'] at hfile
        rcases hfile with ⟨-, rfl⟩ | ⟨hneg, -⟩
        · exact Function.update_self ..
        · omega
    · show Prog.Meets _ _ _ _ (if ret = 0 then _ else _)
      rw [if_neg (by omega)]
      exact fun hzero => absurd hzero (by show ¬ ret = 0; omega)

end DirectoryServer
end Afpfs

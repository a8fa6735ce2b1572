import Afpfs.Enumerate
import Afpfs.FileAccess
import Afpfs.Lib.Hierarchy
import Mathlib.Data.Set.Finite.Basic

/-!
# Directories on a server

A server that keeps a hierarchy of directories, changes it as it is asked to, and may refuse to.  It
gives a new directory an id that it does not use.  A client resolves paths with its cache of directory
ids, whose entries are valid for some seconds.

The entries of the cache are in the order of their age, so a lookup passes over all that are valid
before it comes to one that is not; and a path is added only after it was looked up in vain.  So no
path has two valid entries, and removing the first removes the only one.

* `Cached.absent`: a path that is not found has no valid entry.
* `attains_resolve`: a path leads to the directory where the hierarchy has it, and the cache stays right.
-/

set_option autoImplicit false

namespace Afpfs
namespace DirectoryServer

open Interaction Unicode Codepage Scan Did Hierarchy
open PathResolution (requestedName joinPath_concat)
open FileServer (Event)

/-! ## The server -/

/-- The directories of a server, by their ids. -/
abbrev Tree := Entries UInt32 CString

/-- What a server decides by itself: the ids that new directories get, one after the other, and how it
lists a directory. -/
structure Server where
  ids : ℕ → UInt32
  listing : Tree → UInt32 → List AfpFileInfo

/-- A server with the client that has mounted it: the directories, how many were made, the cache of
directory ids, and how often the clock was read for it. -/
structure Mount where
  tree : Tree
  created : ℕ
  cache : List DidCacheEntry
  readings : ℕ

/-- The names in a request. -/
def requestedPath (pathname : CString) : List CString :=
  if requestedName pathname = [] then [] else split slash (requestedName pathname)

/-- What a reply says of an entry. -/
structure Describes (volume : Volume) (e : Entry UInt32) (fi : AfpFileInfo) : Prop where
  isdir : fi.isdir = true ↔ e.kind = .directory
  mode : volume.has VOLUME_EXTRA_FLAGS_VOL_SUPPORTS_UNIX = true →
    (fi.unixprivs.permissions.toNat &&& S_IFDIR ≠ 0 ↔ e.kind = .directory)
  fileid : ∀ did, e = .directory did → fi.fileid = did

/-- The reply to a lookup. -/
def Finds (volume : Volume) (tree : Tree) (did : UInt32) (pathname : CString)
    (reply : Reply AfpFileInfo) : Prop :=
  match find tree did (requestedPath pathname) with
  | some e => reply.rc = kFPNoErr ∧ ∃ fi, reply.stored = some fi ∧ Describes volume e fi
  | none => reply.rc = kFPObjectNotFound ∧ reply.stored = none

/-- The entries of a directory, each once. -/
structure Enumerates (tree : Tree) (did : UInt32) (entries : List AfpFileInfo) : Prop where
  nodup : (entries.map (·.name)).Nodup
  complete : ∀ name kind, (tree did name).map Entry.kind = some kind ↔
    ∃ fi ∈ entries, fi.name = name ∧ (fi.isdir = true ↔ kind = .directory)

/-- A directory with finitely many entries is listed as it is. -/
def Server.Honest (server : Server) : Prop :=
  ∀ (tree : Tree) (did : UInt32), {name | tree did name ≠ none}.Finite →
    Enumerates tree did (server.listing tree did)

/-- The reply to a request for the entries of a directory from one on. -/
def Server.Lists (server : Server) (tree : Tree) (did : UInt32) (pathname : CString) (startindex : ℕ)
    (reply : Reply (List AfpFileInfo)) : Prop :=
  ∀ d, find tree did (requestedPath pathname) = some (.directory d) →
    Enumerate.Answers (server.listing tree d) startindex reply

/-- With what a server may refuse a request that it could do. -/
def Refuses : Request → ℤ → Prop
  | .createDir .., rc => rc = kFPAccessDenied ∨ rc = kFPDiskFull ∨ rc = kFPVolLocked
  | .createFile .., rc => rc = kFPAccessDenied ∨ rc = kFPDiskFull ∨ rc = kFPVolLocked
  | .delete .., rc => rc = kFPAccessDenied ∨ rc = kFPObjectLocked ∨ rc = kFPVolLocked
  | .moveAndRename .., rc => rc = kFPAccessDenied ∨ rc = kFPObjectLocked ∨ rc = kFPCantRename
  | _, _ => False

/-- A request is done or refused. -/
def Decided (r : Request) (rc : ℤ) : Prop := rc = kFPNoErr ∨ Refuses r rc

/-- The directory that a request moves something to. -/
def target (tree : Tree) (dstDid : UInt32) (dstPath : Option CString) : Option (Entry UInt32) :=
  find tree dstDid (requestedPath (dstPath.getD []))

/-- The result of a request to move an entry. -/
def MoveAnswer (tree : Tree) (src : UInt32) (srcPath : CString) (dst : Option (Entry UInt32))
    (newName : CString) (r : Request) (rc : ℤ) : Prop :=
  match dst, tree src (requestedName srcPath) with
  | some (.directory d), some _ =>
    if tree d (requestedName newName) = none then Decided r rc else rc = kFPObjectExists
  | _, _ => rc = kFPObjectNotFound

/-- What the server answers, and the cache.  The rest is answered in any way. -/
def Answers (volume : Volume) (server : Server) (clock : ℕ → ℕ) (m : Mount) : Event → Prop
  | ⟨.request (.getFileDirParms did _ _ pathname), reply⟩ => Finds volume m.tree did pathname reply
  | ⟨.request (.createDir did name), reply⟩ =>
    if m.tree did (requestedName name) = none then
      Decided (.createDir did name) (Reply.rc reply) ∧ (Reply.rc reply = kFPNoErr →
        server.ids m.created ≠ 0 ∧ Fresh m.tree AFP_ROOT_DID (server.ids m.created))
    else Reply.rc reply = kFPObjectExists
  | ⟨.request (.createFile flag did name), reply⟩ =>
    if m.tree did (requestedName name) = none then
      Decided (.createFile flag did name) (Reply.rc reply)
    else Reply.rc reply = kFPObjectExists
  | ⟨.request (.delete did name), reply⟩ =>
    m.tree did (requestedName name) = none ∧ Reply.rc reply = kFPObjectNotFound ∨
      m.tree did (requestedName name) ≠ none ∧
        (Vacant m.tree (m.tree did (requestedName name)) →
          Decided (.delete did name) (Reply.rc reply)) ∧
        (¬ Vacant m.tree (m.tree did (requestedName name)) → Reply.rc reply = kFPDirNotEmpty)
  | ⟨.request (.moveAndRename src dst srcPath dstPath newName), reply⟩ =>
    MoveAnswer m.tree src srcPath (target m.tree dst dstPath) newName
      (.moveAndRename src dst srcPath dstPath newName) (Reply.rc reply)
  | ⟨.request (.enumerate did _ _ _ startindex pathname), reply⟩ =>
    server.Lists m.tree did pathname startindex.toNat reply
  | ⟨.request (.enumerateExt2 did _ _ _ startindex pathname), reply⟩ =>
    server.Lists m.tree did pathname (startindex.toNat % 4294967296) reply
  | ⟨.request (.setFileParms ..), reply⟩ => Reply.rc reply = kFPNoErr
  | ⟨.request (.setDirParms ..), reply⟩ => Reply.rc reply = kFPNoErr
  | ⟨.request (.setFileDirParms ..), reply⟩ => Reply.rc reply = kFPNoErr
  | ⟨.findDirid path, did⟩ => did = (findDiridByFullname (clock m.readings) path m.cache).1
  | _ => True

/-- What becomes of the server and of the cache. -/
def next (server : Server) (clock : ℕ → ℕ) (m : Mount) : Event → Mount
  | ⟨.request (.createDir did name), reply⟩ =>
    if Reply.rc reply = kFPNoErr then
      { m with
        tree := set m.tree did (requestedName name) (some (.directory (server.ids m.created)))
        created := m.created + 1 }
    else m
  | ⟨.request (.createFile _ did name), reply⟩ =>
    if Reply.rc reply = kFPNoErr then
      { m with tree := set m.tree did (requestedName name) (some .file) }
    else m
  | ⟨.request (.delete did name), reply⟩ =>
    if Reply.rc reply = kFPNoErr then { m with tree := set m.tree did (requestedName name) none }
    else m
  | ⟨.request (.moveAndRename src dst srcPath dstPath newName), reply⟩ =>
    if Reply.rc reply = kFPNoErr then
      match target m.tree dst dstPath with
      | some (.directory d) =>
        { m with
          tree := set (set m.tree src (requestedName srcPath) none) d (requestedName newName)
            (m.tree src (requestedName srcPath)) }
      | _ => m
    else m
  | ⟨.findDirid path, _⟩ =>
    { m with
      cache := (findDiridByFullname (clock m.readings) path m.cache).2
      readings := m.readings + 1 }
  | ⟨.addDid did path, _⟩ =>
    { m with
      cache := addDidCacheEntry (clock m.readings) did path m.cache
      readings := m.readings + 1 }
  | ⟨.removeDid path, _⟩ => { m with cache := removeDidEntry path m.cache }
  | _ => m

/-! ## The cache -/

/-- No entry of the path is valid. -/
def Absent (now : ℕ) (cache : List DidCacheEntry) (path : CString) : Prop :=
  ∀ a ∈ cache, a.dirname = path → Expired now a

/-- The entries are in the order of their age; of those with one path only the first may be valid; and
what is valid is right. -/
structure Cached (tree : Tree) (now : ℕ) (cache : List DidCacheEntry) : Prop where
  ordered : cache.Pairwise fun a b => b.time ≤ a.time
  past : ∀ a ∈ cache, a.time ≤ now
  single : cache.Pairwise fun a b => a.dirname = b.dirname → Expired now b
  right : ∀ a ∈ cache, ¬ Expired now a → ∃ names, Separated slash names ∧
    a.dirname = joinPath slash names ∧ find tree AFP_ROOT_DID names = some (.directory a.did)

/-- **The invariant.** -/
structure Inv (clock : ℕ → ℕ) (m : Mount) : Prop where
  proper : Proper m.tree AFP_ROOT_DID
  nonzero : ∀ p, find m.tree AFP_ROOT_DID p ≠ some (.directory 0)
  cached : Cached m.tree (clock m.readings) m.cache

variable {tree : Tree} {now now' : ℕ} {cache cache' : List DidCacheEntry} {path : CString}
  {names : List CString}

theorem expired_later {a : DidCacheEntry} (h : Expired now a) (hle : now ≤ now') : Expired now' a :=
  Nat.lt_of_lt_of_le h hle

theorem Absent.later (h : Absent now cache path) (hle : now ≤ now') (hsub : cache'.Sublist cache) :
    Absent now' cache' path := fun a ha hname => expired_later (h a (hsub.subset ha) hname) hle

/-- Time passes, and entries go. -/
theorem Cached.later (h : Cached tree now cache) (hle : now ≤ now') (hsub : cache'.Sublist cache) :
    Cached tree now' cache' where
  ordered := h.ordered.sublist hsub
  past := fun a ha => (h.past a (hsub.subset ha)).trans hle
  single := (h.single.sublist hsub).imp fun hexp hname => expired_later (hexp hname) hle
  right := fun a ha hvalid => h.right a (hsub.subset ha) fun hexp => hvalid (expired_later hexp hle)

/-- A path that had no valid entry gets one. -/
theorem Cached.add (h : Cached tree now cache) (habsent : Absent now cache (joinPath slash names))
    (hsep : Separated slash names) {did : UInt32}
    (hfind : find tree AFP_ROOT_DID names = some (.directory did)) :
    Cached tree now (addDidCacheEntry now did (joinPath slash names) cache) where
  ordered := List.pairwise_cons.mpr ⟨h.past, h.ordered⟩
  past := List.forall_mem_cons.mpr ⟨le_rfl, h.past⟩
  single := List.pairwise_cons.mpr ⟨fun b hb hname => habsent b hb hname.symm, h.single⟩
  right := List.forall_mem_cons.mpr ⟨fun _ => ⟨names, hsep, rfl, hfind⟩, h.right⟩

/-- The loop passes over valid entries with other names. -/
theorem findFrom_valid {p : DidCacheEntry} {post : List DidCacheEntry} (pre : List DidCacheEntry)
    (passed : List DidCacheEntry) (hpre : ∀ q ∈ pre, ¬ Expired now q ∧ q.dirname ≠ path)
    (hp : ¬ Expired now p) (hname : p.dirname = path) :
    (findFrom now path passed (pre ++ p :: post)).1 = p.did := by
  induction pre generalizing passed with
  | nil =>
    unfold findFrom
    simp only [List.nil_append, hp, hname, if_false, if_true]
  | cons q pre ih =>
    obtain ⟨hq, hpre⟩ := List.forall_mem_cons.mp hpre
    rw [List.cons_append]
    unfold findFrom
    simp only [hq.1, hq.2, if_false]
    exact ih (q :: passed) hpre

/-- **A path that is not found has no valid entry.** -/
theorem Cached.absent (h : Cached tree now cache)
    (hnonzero : ∀ p, find tree AFP_ROOT_DID p ≠ some (.directory 0))
    (hmiss : (findDiridByFullname now path cache).1 = 0) : Absent now cache path := by
  by_contra hne
  simp only [Absent, not_forall] at hne
  obtain ⟨a, ha, hname, hvalid⟩ := hne
  -- the first valid entry with that path
  obtain ⟨p, hp⟩ : ∃ p, cache.find? (fun q => ¬ Expired now q ∧ q.dirname = path) = some p :=
    Option.isSome_iff_exists.mp (List.find?_isSome.mpr ⟨a, ha, decide_eq_true ⟨hvalid, hname⟩⟩)
  obtain ⟨hfirst, pre, post, hsplit, hpre⟩ := List.find?_eq_some_iff_append.mp hp
  obtain ⟨hpvalid, hpname⟩ := of_decide_eq_true hfirst
  have hordered := h.ordered
  rw [hsplit] at hordered
  have hbefore : ∀ q ∈ pre, ¬ Expired now q ∧ q.dirname ≠ path := by
    intro q hq
    have hle : p.time ≤ q.time := (List.pairwise_append.mp hordered).2.2 q hq p List.mem_cons_self
    have hqvalid : ¬ Expired now q := fun hexp =>
      hpvalid (Nat.lt_of_le_of_lt (Nat.add_le_add_right hle timeout) hexp)
    refine ⟨hqvalid, fun hqname => ?_⟩
    simpa [hqvalid, hqname] using hpre q hq
  have hdid : p.did = 0 := by
    rw [← findFrom_valid pre [] hbefore hpvalid hpname, ← hsplit]
    exact hmiss
  obtain ⟨ns, -, -, hfind⟩ := h.right p (by simp [hsplit]) hpvalid
  exact hnonzero ns (hdid ▸ hfind)

/-- A path that is found leads where the cache says. -/
theorem Cached.hit (h : Cached tree now cache) (hsep : Separated slash names)
    (hhit : (findDiridByFullname now (joinPath slash names) cache).1 ≠ 0) :
    find tree AFP_ROOT_DID names =
      some (.directory (findDiridByFullname now (joinPath slash names) cache).1) := by
  obtain ⟨p, hp, hvalid, hname, hdid⟩ := find_sound hhit
  obtain ⟨ns, hns, hdirname, hfind⟩ := h.right p hp hvalid
  have heq : ns = names := by
    rw [← components_joinPath hns, ← hdirname, hname, components_joinPath hsep]
  subst heq
  rwa [hdid] at hfind

/-! ## Resolving a path -/

/-- Names as a server has them. -/
def Canonical (names : List CString) : Prop := ∀ name ∈ names, name ≠ [] ∧ slash ∉ name

theorem Canonical.separated (h : Canonical names) : Separated slash names := fun name hname =>
  (h name hname).2

theorem requestedPath_of_canonical {name : CString} (h : name ≠ [] ∧ slash ∉ name) :
    requestedPath name = [name] := by
  have hname : requestedName name = name := if_neg fun hhead => h.2 (List.mem_of_mem_head? hhead)
  rw [requestedPath, hname, if_neg h.1, split_of_not_mem h.2]

theorem requestedPath_slash {name : CString} (h : name ≠ [] ∧ slash ∉ name) :
    requestedPath (slash :: name) = [name] := by
  have hname : requestedName (slash :: name) = name := rfl
  rw [requestedPath, hname, if_neg h.1, split_of_not_mem h.2]

section Resolve

variable {volume : Volume} {server : Server} {clock : ℕ → ℕ} {m m' : Mount}

/-- What has no valid entry before has none afterwards. -/
def Forgets (clock : ℕ → ℕ) (m m' : Mount) : Prop :=
  ∀ path, Absent (clock m.readings) m.cache path → Absent (clock m'.readings) m'.cache path

/-- The client has only used its cache. -/
structure Kept (clock : ℕ → ℕ) (m m' : Mount) : Prop where
  inv : Inv clock m'
  tree : m'.tree = m.tree

theorem Kept.refl (hm : Inv clock m) : Kept clock m m := ⟨hm, rfl⟩

theorem Kept.trans {m'' : Mount} (h : Kept clock m m') (h' : Kept clock m' m'') : Kept clock m m'' :=
  ⟨h'.inv, h'.tree.trans h.tree⟩

variable (server) in
/-- A lookup in the cache. -/
theorem kept_find (hclock : Monotone clock) (hm : Inv clock m) (path : CString) (did : UInt32) :
    Kept clock m (next server clock m ⟨.findDirid path, did⟩) ∧
      Forgets clock m (next server clock m ⟨.findDirid path, did⟩) := by
  have hle : clock m.readings ≤ clock (m.readings + 1) := hclock (Nat.le_succ _)
  have hsub := find_sublist (clock m.readings) path m.cache
  exact ⟨⟨⟨hm.proper, hm.nonzero, hm.cached.later hle hsub⟩, rfl⟩,
    fun _ habsent => habsent.later hle hsub⟩

variable (server) in
/-- A path that had no valid entry is put into the cache. -/
theorem kept_add (hclock : Monotone clock) (hm : Inv clock m)
    (habsent : Absent (clock m.readings) m.cache (joinPath slash names))
    (hsep : Separated slash names) {did : UInt32}
    (hfind : find m.tree AFP_ROOT_DID names = some (.directory did)) :
    Kept clock m (next server clock m ⟨.addDid did (joinPath slash names), ()⟩) :=
  ⟨⟨hm.proper, hm.nonzero, (hm.cached.add habsent hsep hfind).later (hclock (Nat.le_succ _))
    (List.Sublist.refl _)⟩, rfl⟩

/-- The other paths still have no valid entry. -/
theorem absent_add (hclock : Monotone clock) {did : UInt32} {path path' : CString} (hne : path ≠ path')
    (habsent : Absent (clock m.readings) m.cache path') :
    Absent (clock (next server clock m ⟨.addDid did path, ()⟩).readings)
      (next server clock m ⟨.addDid did path, ()⟩).cache path' := by
  refine List.forall_mem_cons.mpr ⟨fun h => absurd h hne, ?_⟩
  exact habsent.later (hclock (Nat.le_succ _)) (List.Sublist.refl _)

/-- **The way back** ends at a directory that is known, and the longer paths have no valid entry. -/
theorem attains_topmostParent (hclock : Monotone clock) (hm : Inv clock m) (hne : names ≠ [])
    (hsep : Separated slash names)
    (habsent : Absent (clock m.readings) m.cache (joinPath slash names)) :
    Prog.Attains (Answers volume server clock) (next server clock)
      (fun m' res => Kept clock m m' ∧ Forgets clock m m' ∧ ∃ pre mid, names = pre ++ mid ∧
        res.2 = (joinPath slash pre).length ∧
        find m.tree AFP_ROOT_DID pre = some (.directory res.1) ∧
        ∀ mid', mid' ≠ [] → mid' <+: mid →
          Absent (clock m'.readings) m'.cache (joinPath slash (pre ++ mid'))) m
      (topmostParent (joinPath slash names)) := by
  induction names using List.reverseRecOn generalizing m with
  | nil => exact absurd rfl hne
  | append_singleton names last ih =>
    have hlast : slash ∉ last := hsep last (by simp)
    have hnames : Separated slash names := fun name hname => hsep name (by simp [hname])
    have honly {mid' : List CString} (hmid' : mid' ≠ []) (hpre : mid' <+: [last]) : mid' = [last] := by
      rcases List.prefix_cons_iff.mp hpre with h | ⟨t, rfl, ht⟩
      · exact absurd h hmid'
      · rw [List.prefix_nil.mp ht]
    rw [joinPath_concat]
    have hpos := @strrchr_append _ slash _ (joinPath slash names) last hlast
    cases hlen : (joinPath slash names).length with
    | zero =>
      -- only the root is left
      rw [hlen] at hpos
      rw [topmostParent_zero hpos]
      have hnil : names = [] := by
        cases names with
        | nil => rfl
        | cons name names => simp [joinPath_cons] at hlen
      subst hnil
      refine ⟨.refl hm, fun _ h => h, [], [last], rfl, rfl, rfl, fun mid' hmid' hpre => ?_⟩
      rw [honly hmid' hpre]
      exact habsent
    | succ p =>
      rw [hlen] at hpos
      have htake : (joinPath slash names ++ slash :: last).take (p + 1) = joinPath slash names := by
        rw [← hlen, List.take_left]
      rw [topmostParent_succ hpos, htake]
      intro (did : UInt32) (hdid : did = _)
      obtain ⟨hkept, hforgets⟩ := kept_find server hclock hm (joinPath slash names) did
      refine Prog.attains_ite (fun hfound => ?_) fun hfound => ?_
      · rw [hdid] at hfound
        refine ⟨hkept, hforgets, names, [last], rfl, hlen.symm, ?_, fun mid' hmid' hpre => ?_⟩
        · rw [hdid]
          exact hm.cached.hit hnames hfound
        · rw [honly hmid' hpre]
          exact hforgets _ habsent
      · have hne' : names ≠ [] := fun h => by
          rw [h, joinPath_nil] at hlen
          exact absurd hlen (by simp)
        have hmiss := hm.cached.absent hm.nonzero (hdid.symm.trans (not_not.mp hfound))
        refine (ih hkept.inv hne' hnames (hforgets _ hmiss)).mono fun m' res h => ?_
        obtain ⟨hkept', hforgets', pre, mid, rfl, hres, hdir, hmid⟩ := h
        refine ⟨hkept.trans hkept', fun path h => hforgets' path (hforgets path h), pre,
          mid ++ [last], List.append_assoc .., hres, hdir, fun mid' hmid' hpre => ?_⟩
        rcases List.prefix_concat_iff.mp hpre with rfl | hpre
        · rw [← List.append_assoc]
          exact hforgets' _ (hforgets _ habsent)
        · exact hmid mid' hmid' hpre

/-- A lookup on the server finds what is there, and that is all. -/
theorem attains_afpGetfiledirparms (did : UInt32) (filebitmap dirbitmap : ℕ) (pathname : CString) :
    Prog.Attains (Answers volume server clock) (next server clock)
      (fun m' reply => m' = m ∧ Finds volume m.tree did pathname reply) m
      (afpGetfiledirparms did filebitmap dirbitmap pathname) :=
  fun _ hreply => ⟨rfl, hreply⟩

/-- The reply to a lookup of something that is there. -/
theorem Finds.entry {did : UInt32} {pathname : CString} {reply : Reply AfpFileInfo} {e : Entry UInt32}
    (h : Finds volume m.tree did pathname reply)
    (he : find m.tree did (requestedPath pathname) = some e) :
    reply.rc = kFPNoErr ∧ ∃ fi, reply.stored = some fi ∧ Describes volume e fi := by
  rw [Finds, he] at h
  exact h

/-- The reply to a lookup of something that is not there. -/
theorem Finds.none {did : UInt32} {pathname : CString} {reply : Reply AfpFileInfo}
    (h : Finds volume m.tree did pathname reply)
    (he : find m.tree did (requestedPath pathname) = none) :
    reply.rc = kFPObjectNotFound ∧ reply.stored = none := by
  rw [Finds, he] at h
  exact h

/-- **The way forward** adds the directories that it goes through. -/
theorem attains_walkForward (hclock : Monotone clock) (mid : List CString) {pre : List CString}
    {last : CString} (hm : Inv clock m) (hnames : Canonical (pre ++ mid)) (hlast : slash ∉ last)
    {did d : UInt32} (hdid : find m.tree AFP_ROOT_DID pre = some (.directory did))
    (hd : find m.tree AFP_ROOT_DID (pre ++ mid) = some (.directory d))
    (habsent : ∀ mid', mid' ≠ [] → mid' <+: mid →
      Absent (clock m.readings) m.cache (joinPath slash (pre ++ mid'))) (fi : AfpFileInfo) :
    Prog.Attains (Answers volume server clock) (next server clock)
      (fun m' res => Kept clock m m' ∧ res = d) m
      (walkForward (joinPath slash (pre ++ mid ++ [last])) did (joinPath slash pre).length fi) := by
  have hsep {pre mid : List CString} (h : Canonical (pre ++ mid)) :
      Separated slash (pre ++ mid ++ [last]) := fun name hname => by
    rcases List.mem_append.mp hname with hname | hname
    · exact (h name hname).2
    · rw [List.mem_singleton.mp hname]
      exact hlast
  induction mid generalizing m pre did fi with
  | nil =>
    have hpos : strchr (joinPath slash (pre ++ [] ++ [last])) ((joinPath slash pre).length + 1)
        slash = none := by
      have h := @strchr_eq_none _ slash _ (joinPath slash pre ++ [slash]) last hlast
      rw [List.length_append, List.length_singleton] at h
      rw [List.append_nil, joinPath_concat, ← h, List.append_assoc, List.singleton_append]
    rw [walkForward_none hpos]
    rw [List.append_nil, hdid] at hd
    exact ⟨.refl hm, by simpa using hd⟩
  | cons name mid ih =>
    have hname : name ≠ [] ∧ slash ∉ name := hnames name (by simp)
    have hassoc : pre ++ name :: mid = (pre ++ [name]) ++ mid := by simp
    rw [hassoc] at hnames hd ⊢
    have hdir := hd
    rw [List.append_assoc, find_append_of_directory hdid, List.singleton_append,
      find_cons_eq_directory] at hdir
    obtain ⟨b, hb, -⟩ := hdir
    have hnext : find m.tree AFP_ROOT_DID (pre ++ [name]) = some (.directory b) := by
      rw [find_concat_of_directory hdid, hb]
    obtain ⟨hpos, hcopy, htake⟩ := PathResolution.positions (hsep hnames)
    rw [walkForward_some hpos, hcopy, htake]
    refine (attains_afpGetfiledirparms did kFPNodeIDBit kFPNodeIDBit (slash :: name)).bind
      fun m' reply h => ?_
    obtain ⟨rfl, hreply⟩ := h
    have hentry : find m'.tree did (requestedPath (slash :: name)) = some (.directory b) := by
      rw [requestedPath_slash hname, find_singleton, hb]
    obtain ⟨-, fi', hstored, hdescribes⟩ := hreply.entry hentry
    rw [hstored, Option.getD_some, if_pos (hdescribes.isdir.mpr rfl), hdescribes.fileid b rfl]
    -- the directory is added, and its path had no valid entry
    have hparts : Separated slash (pre ++ [name]) := fun part hpart =>
      (hnames part (List.mem_append_left _ hpart)).2
    intro (_ : Unit) _
    have hkept := kept_add server hclock hm
      (habsent [name] (List.cons_ne_nil _ _) (List.prefix_append [name] mid)) hparts hnext
    have hlen : (joinPath slash pre).length + 1 + name.length =
        (joinPath slash (pre ++ [name])).length := by
      rw [joinPath_concat, List.length_append, List.length_cons]
      omega
    rw [hlen]
    refine (ih hkept.inv hnames hnext hd (fun mid' hmid' hpre => ?_) fi').mono
      fun m' res h => ⟨hkept.trans h.1, h.2⟩
    have hlonger : Separated slash (pre ++ [name] ++ mid') := fun part hpart => by
      refine (hnames part ?_).2
      rcases List.mem_append.mp hpart with hpart | hpart
      · exact List.mem_append_left _ hpart
      · exact List.mem_append_right _ (hpre.subset hpart)
    refine absent_add hclock (fun heq => ?_) ?_
    · have hcomponents := congrArg (components slash) heq
      rw [components_joinPath hparts, components_joinPath hlonger] at hcomponents
      exact hmid' (List.self_eq_append_right.mp hcomponents)
    · rw [List.append_assoc]
      exact habsent (name :: mid') (List.cons_ne_nil _ _) (List.cons_prefix_cons.mpr ⟨rfl, hpre⟩)

/-- **`get_dirid()` finds the directory**, and the cache stays right. -/
theorem attains_getDirid (hclock : Monotone clock) (hm : Inv clock m) {last : CString}
    (hnames : Canonical names) (hlast : slash ∉ last) (hfits : last.length < AFP_MAX_PATH ∧
      (joinPath slash names).length < AFP_MAX_PATH) {d : UInt32}
    (hd : find m.tree AFP_ROOT_DID names = some (.directory d)) (basename : CString)
    (garbage : UInt32) :
    Prog.Attains (Answers volume server clock) (next server clock)
      (fun m' res => Kept clock m m' ∧ res = (0, last, d)) m
      (getDirid (joinPath slash (names ++ [last])) basename garbage) := by
  have hsep : Separated slash (names ++ [last]) := fun name hname => by
    rcases List.mem_append.mp hname with hname | hname
    · exact (hnames name hname).2
    · rw [List.mem_singleton.mp hname]
      exact hlast
  rw [PathResolution.getDirid_joinPath hsep, if_neg (Nat.not_le.mpr hfits.1)]
  refine Prog.attains_ite (fun hnil => ?_) fun hne => ?_
  · rw [hnil, find_nil] at hd
    have hroot : AFP_ROOT_DID = d := by simpa using hd
    exact ⟨.refl hm, by rw [hroot]⟩
  rw [if_neg (Nat.not_le.mpr hfits.2)]
  intro (newdid : UInt32) (hnewdid : newdid = _)
  obtain ⟨hkept, hforgets⟩ := kept_find server hclock hm (joinPath slash names) newdid
  refine Prog.attains_ite (fun hfound => ?_) fun hfound => ?_
  · -- the parent itself is cached
    rw [hnewdid] at hfound
    have hhit := hm.cached.hit hnames.separated hfound
    rw [hd, ← hnewdid] at hhit
    have heq : d = newdid := by simpa using hhit
    exact ⟨hkept, by rw [heq]⟩
  · -- up to a known directory and down again
    have hmiss := hm.cached.absent hm.nonzero (hnewdid.symm.trans (not_not.mp hfound))
    refine (attains_topmostParent hclock hkept.inv hne hnames.separated (hforgets _ hmiss)).bind
      fun m' parent h => ?_
    obtain ⟨hkept', -, pre, mid, rfl, hlen, hdid, habsent⟩ := h
    intro fi _
    rw [hlen]
    have htree := (hkept.trans hkept').tree
    rw [← htree] at hd
    rw [← hkept'.tree] at hdid
    refine (attains_walkForward hclock mid hkept'.inv hnames hlast hdid hd habsent fi).bind
      fun m'' dirid h => ?_
    obtain ⟨hkept'', rfl⟩ := h
    exact ⟨hkept.trans (hkept'.trans hkept''), rfl⟩

theorem attains_resolve (hclock : Monotone clock) (hm : Inv clock m) {last : CString}
    (hnames : Canonical names) (hlast : slash ∉ last) (hfits : last.length < AFP_MAX_PATH ∧
      (joinPath slash names).length < AFP_MAX_PATH) {d : UInt32}
    (hd : find m.tree AFP_ROOT_DID names = some (.directory d)) :
    Prog.Attains (Answers volume server clock) (next server clock)
      (fun m' res => Kept clock m m' ∧ res = (0, last, d)) m
      (resolve (joinPath slash (names ++ [last]))) :=
  fun basename _ garbage _ => attains_getDirid hclock hm hnames hlast hfits hd basename garbage

end Resolve

end DirectoryServer
end Afpfs

import Afpfs.Volume

/-!
# Directory ids

`lib/did.c`: a path is resolved to the id of the directory that holds its last component.  Ids of
directories already seen are kept in a cache for `timeout` seconds.

The cache is the list `did_cache_base` heads.  `findFrom` is the loop of
`find_dirid_by_fullname()`, with the entries before the current one in `passed`; its
variable `prev` is the nearest of them, and is the base of the list while there is at most one.

`getDirid` walks the path back to the longest cached prefix and then forward again, one lookup
for each component.  Positions in the path stand for the pointers of the source.

* `find_sound`: an id that the cache answers belongs to an unexpired entry with that path.
* `find_sublist`: a lookup only takes entries out of the cache.
-/

set_option autoImplicit false

namespace Afpfs

open Unicode Interaction Scan

/-! ## The cache -/

namespace Did

/-- Seconds for which an entry is valid. -/
def timeout : ℕ := 10

/-- `struct did_cache_entry`. -/
structure DidCacheEntry where
  dirname : CString
  did : UInt32
  time : ℕ
  deriving DecidableEq

/-- The entry is too old. -/
def Expired (now : ℕ) (p : DidCacheEntry) : Prop := p.time + timeout < now

instance (now : ℕ) (p : DidCacheEntry) : Decidable (Expired now p) :=
  inferInstanceAs (Decidable (_ < _))

/-- The loop of `find_dirid_by_fullname()`: its result and the cache after it.  `passed` are the
entries before the current one, the nearest first. -/
def findFrom (now : ℕ) (path : CString) :
    List DidCacheEntry → List DidCacheEntry → UInt32 × List DidCacheEntry
  | passed, [] => (0, passed.reverse)
  | passed, p :: rest =>
    if Expired now p then
      match passed with
      | prev :: second :: more =>
        -- `p` is unlinked and the entry before it is compared once more
        if prev.dirname = path then (prev.did, (prev :: second :: more).reverse ++ rest)
        else findFrom now path (prev :: second :: more) rest
      | _ =>
        -- the list now begins behind `p`; its new first entry is passed over
        if p.dirname = path then (0, rest)
        else
          match rest with
          | [] => (0, [])
          | first :: rest => findFrom now path [first] rest
    else if p.dirname = path then (p.did, passed.reverse ++ p :: rest)
    else findFrom now path (p :: passed) rest

/-- `find_dirid_by_fullname()` at the time `now`. -/
def findDiridByFullname (now : ℕ) (path : CString) (cache : List DidCacheEntry) :
    UInt32 × List DidCacheEntry :=
  findFrom now path [] cache

/-- `add_did_cache_entry()` at the time `now`. -/
def addDidCacheEntry (now : ℕ) (newDid : UInt32) (path : CString) (cache : List DidCacheEntry) :
    List DidCacheEntry :=
  ⟨path, newDid, now⟩ :: cache

/-- `remove_did_entry()`: the first entry with that name goes. -/
def removeDidEntry (name : CString) (cache : List DidCacheEntry) : List DidCacheEntry :=
  cache.eraseP fun d => d.dirname = name

/-- What the loop knows of the entries it passed: the nearest is unexpired, as long as it is not
the first one. -/
def Passed (now : ℕ) : List DidCacheEntry → Prop
  | prev :: _ :: _ => ¬ Expired now prev
  | _ => True

theorem passed_cons {now : ℕ} {p : DidCacheEntry} (hp : ¬ Expired now p)
    (passed : List DidCacheEntry) : Passed now (p :: passed) := by
  cases passed with
  | nil => trivial
  | cons _ _ => exact hp

/-- The loop only takes entries out, and answers an unexpired entry with the path. -/
theorem findFrom_spec {now : ℕ} {path : CString} (passed rest : List DidCacheEntry)
    (hpassed : Passed now passed) :
    (findFrom now path passed rest).2.Sublist (passed.reverse ++ rest) ∧
    ((findFrom now path passed rest).1 ≠ 0 →
      ∃ p ∈ passed.reverse ++ rest, ¬ Expired now p ∧ p.dirname = path ∧
        p.did = (findFrom now path passed rest).1) := by
  fun_induction findFrom now path passed rest with
  | case1 passed => exact ⟨by simp, fun h => absurd rfl h⟩
  | case2 p rest hexp prev second more hprev =>
    exact ⟨List.Sublist.append_left (List.sublist_cons_self ..) _, fun _ =>
      ⟨prev, by simp, hpassed, hprev, rfl⟩⟩
  | case3 p rest hexp prev second more hprev ih =>
    obtain ⟨hsub, hfound⟩ := ih hpassed
    refine ⟨hsub.trans (List.Sublist.append_left (List.sublist_cons_self ..) _), fun h => ?_⟩
    obtain ⟨q, hq, hrest⟩ := hfound h
    exact ⟨q, (List.Sublist.append_left (List.sublist_cons_self ..) _).subset hq, hrest⟩
  | case4 passed p rest hexp hname hbase =>
    exact ⟨List.sublist_append_of_sublist_right (List.sublist_cons_self ..), fun h => absurd rfl h⟩
  | case5 passed p hexp hname hbase => exact ⟨List.nil_sublist _, fun h => absurd rfl h⟩
  | case6 passed p hexp hname first rest hbase ih =>
    obtain ⟨hsub, hfound⟩ := ih trivial
    have hle : ([first].reverse ++ rest).Sublist (passed.reverse ++ p :: first :: rest) :=
      List.sublist_append_of_sublist_right (List.sublist_cons_self ..)
    refine ⟨hsub.trans hle, fun h => ?_⟩
    obtain ⟨q, hq, hrest⟩ := hfound h
    exact ⟨q, hle.subset hq, hrest⟩
  | case7 passed p rest hexp hname =>
    exact ⟨List.Sublist.refl _, fun _ => ⟨p, by simp, hexp, hname, rfl⟩⟩
  | case8 passed p rest hexp hname ih =>
    have hmove : (p :: passed).reverse ++ rest = passed.reverse ++ p :: rest := by simp
    rw [hmove] at ih
    exact ih (passed_cons hexp passed)

/-- **A lookup only takes entries out of the cache.** -/
theorem find_sublist (now : ℕ) (path : CString) (cache : List DidCacheEntry) :
    (findDiridByFullname now path cache).2.Sublist cache :=
  (findFrom_spec [] cache trivial).1

/-- **An id that the cache answers belongs to an unexpired entry with that path.** -/
theorem find_sound {now : ℕ} {path : CString} {cache : List DidCacheEntry}
    (h : (findDiridByFullname now path cache).1 ≠ 0) :
    ∃ p ∈ cache, ¬ Expired now p ∧ p.dirname = path ∧
      p.did = (findDiridByFullname now path cache).1 :=
  (findFrom_spec [] cache trivial).2 h

end Did

/-! ## Resolving a path -/

/-- `is_dir()`. -/
def isDir (parentdid : UInt32) (path : CString) : AfpM Bool := do
  let fi ← uninitFileInfo
  let reply ← afpGetfiledirparms parentdid 0 0 path
  if reply.rc ≠ 0 then return false
  return (reply.stored.getD fi).isdir

/-- The way back of `get_dirid()`: the id of the longest cached prefix of `copy`, and the position
of the separator behind it. -/
def topmostParent (copy : CString) : AfpM (UInt32 × ℕ) :=
  match h : strrchr copy slash with
  -- without a separator the loop ends with no parent at all
  | none => .stuck
  | some 0 => pure (AFP_ROOT_DID, 0)
  | some (p + 1) => do
    let parentDid ← findDirid (copy.take (p + 1))
    if parentDid ≠ 0 then pure (parentDid, p + 1) else topmostParent (copy.take (p + 1))
  termination_by copy.length
  decreasing_by
    have hlt := strrchr_lt h
    rw [List.length_take]
    omega

theorem topmostParent_zero {copy : CString} (h : strrchr copy slash = some 0) :
    topmostParent copy = pure (AFP_ROOT_DID, 0) := by
  rw [topmostParent]
  split
  next heq => exact absurd (h.symm.trans heq) (by simp)
  next => rfl
  next heq => exact absurd (h.symm.trans heq) (by simp)

theorem topmostParent_succ {copy : CString} {p : ℕ} (h : strrchr copy slash = some (p + 1)) :
    topmostParent copy = (findDirid (copy.take (p + 1)) >>= fun parentDid =>
      if parentDid ≠ 0 then pure (parentDid, p + 1) else topmostParent (copy.take (p + 1))) := by
  rw [topmostParent]
  split
  next heq => exact absurd (h.symm.trans heq) (by simp)
  next heq => exact absurd (h.symm.trans heq) (by simp)
  next q heq =>
    have hpq : p = q := Nat.succ.inj (Option.some.inj (h.symm.trans heq))
    rw [hpq]

/-- The way forward of `get_dirid()`: from the separator at `p2`, behind the directory `parentDid`,
one lookup for each component but the last.  `fi` is what the lookup before left there. -/
def walkForward (path : CString) (parentDid : UInt32) (p2 : ℕ) (fi : AfpFileInfo) : AfpM UInt32 :=
  match _h : strchr path (p2 + 1) slash with
  | none => pure parentDid
  | some p => do
    let copy := (path.drop p2).take (p - p2)
    let reply ← afpGetfiledirparms parentDid kFPNodeIDBit kFPNodeIDBit copy
    let fi := reply.stored.getD fi
    if fi.isdir then do
      addDid fi.fileid (path.take p)
      walkForward path fi.fileid p fi
    else pure parentDid
  termination_by path.length - p2
  decreasing_by
    have hbounds := strchr_bounds _h
    omega

theorem walkForward_none {path : CString} {p2 : ℕ} (h : strchr path (p2 + 1) slash = none)
    (parentDid : UInt32) (fi : AfpFileInfo) : walkForward path parentDid p2 fi = pure parentDid := by
  rw [walkForward]
  split
  next => rfl
  next heq => exact absurd (h.symm.trans heq) (by simp)

theorem walkForward_some {path : CString} {p2 p : ℕ} (h : strchr path (p2 + 1) slash = some p)
    (parentDid : UInt32) (fi : AfpFileInfo) :
    walkForward path parentDid p2 fi =
      (afpGetfiledirparms parentDid kFPNodeIDBit kFPNodeIDBit
        ((path.drop p2).take (p - p2)) >>= fun reply =>
      if (reply.stored.getD fi).isdir then
        addDid (reply.stored.getD fi).fileid (path.take p) >>= fun _ =>
        walkForward path (reply.stored.getD fi).fileid p (reply.stored.getD fi)
      else pure parentDid) := by
  rw [walkForward]
  split
  next heq => exact absurd (h.symm.trans heq) (by simp)
  next q heq =>
    have hpq : p = q := Option.some.inj (h.symm.trans heq)
    subst hpq
    rfl

/-- `get_dirid()`: its result, `basename` and `*dirid`, which hold the given values before. -/
def getDirid (path : CString) (basename : CString) (dirid : UInt32) :
    AfpM (ℤ × CString × UInt32) :=
  if path = [] then pure (0, [], AFP_ROOT_DID)
  else
    match strrchr path slash with
    | none => pure (-1, basename, dirid)
    | some p =>
      let basename := path.drop (p + 1)
      if AFP_MAX_PATH ≤ basename.length then .stuck
      else if p = 0 then pure (0, basename, AFP_ROOT_DID)
      else if AFP_MAX_PATH ≤ p then .stuck
      else do
        let newdid ← findDirid (path.take p)
        if newdid ≠ 0 then pure (0, basename, newdid)
        else do
          let (parentDid, p) ← topmostParent (path.take p)
          let fi ← uninitFileInfo
          let dirid ← walkForward path parentDid p fi
          pure (0, basename, dirid)

/-- `get_dirid()` into automatic variables. -/
def resolve (path : CString) : AfpM (ℤ × CString × UInt32) := do
  let basename ← uninitPath
  let dirid ← uninitInt
  getDirid path basename dirid

/-- What is done to resolve a path: the cache is used, and components are looked up. -/
def LooksUp : Effect → Prop
  | .request (.getFileDirParms ..) => True
  | .findDirid _ => True
  | .addDid _ _ => True
  | .uninitInt => True
  | .uninitPath => True
  | .uninitFileInfo => True
  | _ => False

theorem looksUp_topmostParent (copy : CString) : Prog.AllActs LooksUp (topmostParent copy) := by
  rw [topmostParent]
  split
  next => exact trivial
  next => exact trivial
  next p h =>
    have hlt : min (p + 1) copy.length < copy.length :=
      lt_of_le_of_lt (Nat.min_le_left _ _) (strrchr_lt h)
    refine ⟨trivial, fun (parentDid : UInt32) => ?_⟩
    refine Prog.allActs_ite.mpr ⟨fun _ => trivial, fun _ => ?_⟩
    exact looksUp_topmostParent (copy.take (p + 1))
  termination_by copy.length

theorem looksUp_walkForward (path : CString) (parentDid : UInt32) (p2 : ℕ) (fi : AfpFileInfo) :
    Prog.AllActs LooksUp (walkForward path parentDid p2 fi) := by
  rw [walkForward]
  split
  next => exact trivial
  next p h =>
    have hlt : path.length - p < path.length - p2 := by
      have hbounds := strchr_bounds h
      omega
    refine ⟨trivial, fun reply => ?_⟩
    refine Prog.allActs_ite.mpr ⟨fun _ => ?_, fun _ => trivial⟩
    exact ⟨trivial, fun _ => looksUp_walkForward path _ p _⟩
  termination_by path.length - p2

theorem looksUp_getDirid (path basename : CString) (dirid : UInt32) :
    Prog.AllActs LooksUp (getDirid path basename dirid) := by
  unfold getDirid
  split
  · exact trivial
  split
  next => exact trivial
  next p _ =>
    simp only [Prog.allActs_ite]
    refine ⟨fun _ => trivial, fun _ => ⟨fun _ => trivial, fun _ => ⟨fun _ => trivial, fun _ => ?_⟩⟩⟩
    refine ⟨trivial, fun (newdid : UInt32) => ?_⟩
    refine Prog.allActs_ite.mpr ⟨fun _ => trivial, fun _ => ?_⟩
    refine .bind (looksUp_topmostParent _) fun parent => ?_
    refine .bind (p := uninitFileInfo) ⟨trivial, fun _ => trivial⟩ fun fi => ?_
    exact .bind (looksUp_walkForward path _ _ _) fun _ => trivial

theorem looksUp_resolve (path : CString) : Prog.AllActs LooksUp (resolve path) :=
  ⟨trivial, fun basename => ⟨trivial, fun dirid => looksUp_getDirid path basename dirid⟩⟩

end Afpfs

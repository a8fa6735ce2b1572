import Afpfs.CacheUse
import Afpfs.Lib.Transition
import Mathlib.Logic.Function.Basic

/-!
# Coherence of the directory id cache

Several threads resolve paths and create, remove and rename directories on a volume that nobody
else changes.  A `Mount` is the tree of the server, the cache, the time, and what is left of the
operation of each thread; a thread performs one effect at a time, so the operations on the cache
and on the tree interleave in any way.

`Coherent` is what is expected: what the cache answers for a path is the id of the directory there.
`Careful` is a condition on the steps.

* `coherence_run`: in runs of careful steps the cache is coherent whenever no thread is between the
  removal of a directory on the server and the removal of its entry.
* `rename_leaves_entry`: a run in which a directory is renamed, and the cache still answers its id
  for the old path.
-/

set_option autoImplicit false

namespace Afpfs
namespace CacheCoherence

open Unicode Interaction Scan Did PathResolution Transition

/-! ## The tree of the server -/

/-- The entry that names lead to from a directory. -/
def locate (tree : Tree) (did : UInt32) : List CString → Option Node
  | [] => some ⟨did, true⟩
  | [name] => (tree did name).toOption
  | name :: names =>
    match tree did name with
    | .ok node => if node.isdir then locate tree node.id names else none
    | .error _ => none

/-- A new directory: a name that was free, a new id and nothing in it. -/
def Created (tree tree' : Tree) (did : UInt32) (name : CString) : Prop :=
  ∃ id, id ≠ 0 ∧ id ≠ AFP_ROOT_DID ∧ (∀ d n node, tree d n = .ok node → node.id ≠ id) ∧
    (∀ n node, tree id n ≠ .ok node) ∧ (∀ node, tree did name ≠ .ok node) ∧
    tree' = fun d n => if d = did ∧ n = name then .ok ⟨id, true⟩ else tree d n

/-- The names of an entry are gone, and nothing else is. -/
structure Lost (tree tree' : Tree) (node : Node) : Prop where
  gone : ∀ d n, tree d n = .ok node → ∃ e, tree' d n = .error e
  kept : ∀ d n, tree d n ≠ .ok node → tree' d n = tree d n

/-- An entry is deleted: a file, or a directory with nothing in it. -/
def Deleted (tree tree' : Tree) (did : UInt32) (name : CString) : Prop :=
  ∃ node, tree did name = .ok node ∧
    (node.isdir = true → ∀ n other, tree node.id n = .ok other → other = node) ∧
    Lost tree tree' node

/-- An entry is moved to a name that was free. -/
def Moved (tree tree' : Tree) (src : UInt32) (name : CString) (dst : UInt32) (newName : CString) :
    Prop :=
  ∃ node between, tree src name = .ok node ∧ (∀ other, tree dst newName ≠ .ok other) ∧
    Lost tree between node ∧
    tree' = fun d n => if d = dst ∧ n = newName then .ok node else between d n

/-- What the server may reply to a request, and the tree after it.  Any request may fail. -/
def Served (tree : Tree) : (r : Request) → Reply r.Payload → Tree → Prop
  | .getFileDirParms did _ _ pathname, reply, tree' => tree' = tree ∧
      (reply.rc ≠ kFPNoErr ∧ (reply : Reply AfpFileInfo).stored = none ∨
        ∃ fi node, reply = (⟨kFPNoErr, some fi⟩ : Reply AfpFileInfo) ∧
          locate tree did (requestedNames pathname) = some node ∧
          fi.fileid = node.id ∧ fi.isdir = node.isdir)
  | .createDir did name, reply, tree' =>
      if reply.rc = kFPNoErr then Created tree tree' did (requestedName name) else tree' = tree
  | .delete did name, reply, tree' =>
      if reply.rc = kFPNoErr then Deleted tree tree' did (requestedName name) else tree' = tree
  | .moveAndRename src dst srcPath dstPath newName, reply, tree' =>
      if reply.rc = kFPNoErr then
        ∃ target, locate tree dst (dstPath.elim [] requestedNames) = some target ∧
          Moved tree tree' src (requestedName srcPath) target.id (requestedName newName)
      else tree' = tree
  | _, _, tree' => tree' = tree

/-! ## The system -/

/-- A volume with its server. -/
structure Mount where
  tree : Tree
  cache : List DidCacheEntry
  time : ℕ
  /-- What is left of the operation of each thread. -/
  threads : ℕ → AfpM Unit

/-- A volume that was just mounted. -/
def Mount.init (tree : Tree) (time : ℕ) : Mount where
  tree := tree
  cache := []
  time := time
  threads := fun _ => pure ()

/-- What an effect answers, and the tree and the cache after it. -/
def Mount.Performs (m : Mount) (tree' : Tree) (cache' : List DidCacheEntry) :
    (e : Effect) × e.Answer → Prop
  | ⟨.request r, reply⟩ => Served m.tree r reply tree' ∧ cache' = m.cache
  | ⟨.findDirid path, did⟩ => tree' = m.tree ∧
      ((did : UInt32), cache') = findDiridByFullname m.time path m.cache
  | ⟨.addDid did path, _⟩ => tree' = m.tree ∧ cache' = addDidCacheEntry m.time did path m.cache
  | ⟨.removeDid path, _⟩ => tree' = m.tree ∧ cache' = removeDidEntry path m.cache
  | _ => tree' = m.tree ∧ cache' = m.cache

inductive Action where
  /-- A thread starts an operation. -/
  | start (t : ℕ) (op : CacheOp)
  /-- A thread performs its next effect. -/
  | perform (t : ℕ) (ev : (e : Effect) × e.Answer)
  /-- Time passes. -/
  | wait (seconds : ℕ)

inductive Step (volume : Volume) : Mount → Action → Mount → Prop
  | start {m : Mount} {t : ℕ} {op : CacheOp} (hidle : m.threads t = pure ()) (hop : op.Absolute) :
      Step volume m (.start t op)
        { m with threads := Function.update m.threads t (op.run volume) }
  | perform {m : Mount} {t : ℕ} {e : Effect} {k : e.Answer → AfpM Unit} {answer : e.Answer}
      {tree' : Tree} {cache' : List DidCacheEntry} (hnext : m.threads t = .act e k)
      (hperforms : m.Performs tree' cache' ⟨e, answer⟩) :
      Step volume m (.perform t ⟨e, answer⟩)
        { m with
          tree := tree'
          cache := cache'
          threads := Function.update m.threads t (k answer) }
  | wait {m : Mount} {seconds : ℕ} :
      Step volume m (.wait seconds) { m with time := m.time + seconds }

/-- **Coherence.**  An id that the cache answers is that of the directory at the path. -/
def Coherent (m : Mount) : Prop :=
  ∀ path, (findDiridByFullname m.time path m.cache).1 ≠ 0 →
    descend m.tree AFP_ROOT_DID (components slash path) =
      some (findDiridByFullname m.time path m.cache).1

/-- The thread removes the entry of a path next. -/
def Removing (m : Mount) (t : ℕ) (path : CString) : Prop :=
  ∃ k, m.threads t = .act (.removeDid path) k

/-! ## The condition -/

/-- The names pass through a directory on their way from the root. -/
def Through (tree : Tree) (did : UInt32) (names : List CString) : Prop :=
  ∃ pre, pre ≠ [] ∧ pre <+: names ∧ descend tree AFP_ROOT_DID pre = some did

/-- The thread performs an effect, and this is what it does next. -/
def Then (m : Mount) (t : ℕ) (ev : (e : Effect) × e.Answer) (e : Effect) : Prop :=
  ∃ k, Prog.Steps (m.threads t) [ev] (.act e k)

/-- A directory that a thread removes or moves is not in use: no valid entry passes through it,
unless it has the name that the thread removes from the cache next; and what the other threads have
looked up does not pass through it. -/
def Unused (m : Mount) (t : ℕ) (ev : (e : Effect) × e.Answer) (node : Node) : Prop :=
  node.isdir = true →
    (∀ entry ∈ m.cache, ¬ Expired m.time entry →
      Through m.tree node.id (components slash entry.dirname) →
        Then m t ev (.removeDid entry.dirname)) ∧
    ∀ t', t' ≠ t → ∃ g : Reliance, descend m.tree AFP_ROOT_DID g.names = some g.did ∧
      Faithful (fun _ _ => True) g (m.threads t') ∧ ¬ Through m.tree node.id g.names

/-- The condition on a step. -/
def Careful (m : Mount) : Action → Prop
  | .perform t ⟨.request (.delete did name), reply⟩ => reply.rc = kFPNoErr →
      ∀ node, m.tree did (requestedName name) = .ok node →
        Unused m t ⟨.request (.delete did name), reply⟩ node
  | .perform t ⟨.request (.moveAndRename src dst srcPath dstPath newName), reply⟩ =>
      reply.rc = kFPNoErr → ∀ node, m.tree src (requestedName srcPath) = .ok node →
        Unused m t ⟨.request (.moveAndRename src dst srcPath dstPath newName), reply⟩ node
  | .perform t ⟨.request (.getFileDirParms did filebitmap dirbitmap pathname), reply⟩ =>
      (reply : Reply AfpFileInfo).stored = none → ∀ new path,
        ¬ Then m t ⟨.request (.getFileDirParms did filebitmap dirbitmap pathname), reply⟩
          (.addDid new path)
  | .perform _ ⟨.findDirid path, _⟩ => ∀ t', ¬ Removing m t' path
  | .perform _ ⟨.removeDid path, _⟩ => ∀ entry ∈ removeDidEntry path m.cache,
      entry.dirname = path → Expired m.time entry
  | _ => True

/-! ## Descents in two trees -/

variable {tree tree' : Tree}

/-- A lookup that ends at a directory went through directories. -/
theorem descend_of_locate {names : List CString} {did : UInt32} {node : Node}
    (h : locate tree did names = some node) (hdir : node.isdir = true) :
    descend tree did names = some node.id := by
  fun_induction locate tree did names with
  | case1 did =>
    rw [← Option.some.inj h]
    rfl
  | case2 did name =>
    cases hnode : tree did name with
    | error e =>
      rw [hnode] at h
      cases h
    | ok found =>
      rw [hnode] at h
      have hfound : found = node := Option.some.inj h
      simp only [descend, hnode, hfound, hdir, if_true]
  | case3 did name names hne found hfound hisdir ih =>
    simp only [descend, hfound, hisdir, if_true]
    exact ih h
  | case4 did name names hne found hfound hisdir => cases h
  | case5 did name names hne e he => cases h

/-- A descent is one in another tree if that has the entries it goes through. -/
theorem descend_kept {names : List CString} {did d : UInt32}
    (h : descend tree did names = some d)
    (hkept : ∀ pre name c node, pre ++ [name] <+: names → descend tree did pre = some c →
      tree c name = .ok node → node.isdir = true → tree' c name = .ok node) :
    descend tree' did names = some d := by
  induction names generalizing did with
  | nil => exact h
  | cons name names ih =>
    rw [descend] at h
    cases hnode : tree did name with
    | error e =>
      rw [hnode] at h
      cases h
    | ok node =>
      simp only [hnode] at h
      split at h
      · rename_i hdir
        have hnode' := hkept [] name did node (List.prefix_append [name] names) rfl hnode hdir
        simp only [descend, hnode', hdir, if_true]
        refine ih h fun pre n c node' hpre hpre' => hkept (name :: pre) n c node' ?_ ?_
        · exact List.cons_prefix_cons.mpr ⟨rfl, hpre⟩
        · simp only [descend, hnode, hdir, if_true]
          exact hpre'
      · cases h

/-- A new directory is in nobody's way. -/
theorem descend_created {did : UInt32} {name : CString} (hcreated : Created tree tree' did name)
    {names : List CString} {d : UInt32} (h : descend tree AFP_ROOT_DID names = some d) :
    descend tree' AFP_ROOT_DID names = some d := by
  obtain ⟨id, -, -, -, -, hfree, rfl⟩ := hcreated
  refine descend_kept h fun pre n c node _ _ hnode _ => ?_
  rw [if_neg ?_, hnode]
  rintro ⟨rfl, rfl⟩
  exact hfree node hnode

/-- A descent that does not pass through the entry that is lost. -/
theorem descend_lost {node : Node} (hlost : Lost tree tree' node) {names : List CString}
    {d : UInt32} (h : descend tree AFP_ROOT_DID names = some d)
    (hthrough : node.isdir = true → ¬ Through tree node.id names) :
    descend tree' AFP_ROOT_DID names = some d := by
  refine descend_kept h fun pre name c found hpre hc hfound hdir => ?_
  rw [hlost.kept c name fun hnode => ?_, hfound]
  have hsame : found = node := Except.ok.inj (hfound.symm.trans hnode)
  subst hsame
  refine hthrough hdir ⟨pre ++ [name], by simp, hpre, ?_⟩
  rw [descend_append, hc]
  simp only [Option.bind_some, descend, hfound, hdir, if_true]

/-- The same for an entry that moves. -/
theorem descend_moved {src dst : UInt32} {name newName : CString} {node : Node}
    (hmoved : Moved tree tree' src name dst newName) (hnode : tree src name = .ok node)
    {names : List CString} {d : UInt32} (h : descend tree AFP_ROOT_DID names = some d)
    (hthrough : node.isdir = true → ¬ Through tree node.id names) :
    descend tree' AFP_ROOT_DID names = some d := by
  obtain ⟨found, between, hfound, hfree, hlost, rfl⟩ := hmoved
  have hsame : found = node := Except.ok.inj (hfound.symm.trans hnode)
  subst hsame
  refine descend_kept (descend_lost hlost h hthrough) fun pre n c other _ _ hother _ => ?_
  rw [if_neg ?_, hother]
  rintro ⟨rfl, rfl⟩
  have hkept := hlost.kept c n (hfree found)
  exact hfree other (hkept.symm.trans hother)

/-! ## The invariant -/

/-- A reliance is true of a tree. -/
def Reliance.True (tree : Tree) (g : Reliance) : Prop :=
  descend tree AFP_ROOT_DID g.names = some g.did

theorem Reliance.root_true (tree : Tree) : Reliance.root.True tree := rfl

/-- The valid entries are right, but for those that are removed next; and every thread relies on
what is true. -/
structure Inv (m : Mount) : Prop where
  cached : ∀ entry ∈ m.cache, ¬ Expired m.time entry →
    Agrees m.tree entry ∨ ∃ t, Removing m t entry.dirname
  relied : ∀ t, ∃ g : Reliance, g.True m.tree ∧ Faithful (fun _ _ => True) g (m.threads t)

theorem inv_init (tree : Tree) (time : ℕ) : Inv (.init tree time) where
  cached := fun _ hentry => nomatch hentry
  relied := fun _ => ⟨.root, Reliance.root_true tree, trivial⟩

/-- A cache whose entries are right answers right. -/
theorem Inv.coherent {m : Mount} (hm : Inv m) (hquiet : ∀ t path, ¬ Removing m t path) :
    Coherent m := by
  intro path hne
  obtain ⟨entry, hentry, hvalid, rfl, hdid⟩ := find_sound hne
  rcases hm.cached entry hentry hvalid with hagrees | ⟨t, ht⟩
  · rw [← hdid]
    exact hagrees
  · exact absurd ht (hquiet t _)

section Perform

variable {m : Mount} {t : ℕ} {e : Effect} {k : e.Answer → AfpM Unit} {answer : e.Answer}
  {cache' : List DidCacheEntry}

/-- What keeps the invariant when a thread performs an effect: the entries that are valid
afterwards, what the others rely on and what the thread relies on. -/
theorem inv_perform
    (hcached : ∀ entry ∈ cache', ¬ Expired m.time entry → Agrees tree' entry ∨
      (∃ t', t' ≠ t ∧ Removing m t' entry.dirname) ∨
      ∃ k', k answer = .act (.removeDid entry.dirname) k')
    (hothers : ∀ t', t' ≠ t →
      ∃ g : Reliance, g.True tree' ∧ Faithful (fun _ _ => True) g (m.threads t'))
    (hself : ∃ g : Reliance, g.True tree' ∧ Faithful (fun _ _ => True) g (k answer)) :
    Inv { m with
      tree := tree'
      cache := cache'
      threads := Function.update m.threads t (k answer) } where
  cached := by
    intro entry hentry hvalid
    rcases hcached entry hentry hvalid with hagrees | ⟨t', hne, k', hk'⟩ | ⟨k', hk'⟩
    · exact Or.inl hagrees
    · exact Or.inr ⟨t', k', (Function.update_of_ne hne ..).trans hk'⟩
    · exact Or.inr ⟨t, k', (Function.update_self ..).trans hk'⟩
  relied := by
    intro t'
    by_cases hne : t' = t
    · subst hne
      simpa only [Function.update_self] using hself
    · simpa only [Function.update_of_ne hne] using hothers t' hne

/-- What the thread relies on afterwards is true if the effect makes it so. -/
theorem Inv.next (hm : Inv m) (hnext : m.threads t = .act e k)
    (hnothing : FindsNothing ⟨e, answer⟩ → ¬ AddsNext (k answer))
    (htrue : ∀ g : Reliance, g.True m.tree → g.Permits e → (g.next ⟨e, answer⟩).True tree') :
    ∃ g : Reliance, g.True tree' ∧ Faithful (fun _ _ => True) g (k answer) := by
  obtain ⟨g, hg, hfaithful⟩ := hm.relied t
  rw [hnext] at hfaithful
  exact ⟨g.next ⟨e, answer⟩, htrue g hg hfaithful.1, hfaithful.2 answer hnothing⟩

/-- The entries of before, when the effect takes none out. -/
theorem Inv.cached_of_kept (hm : Inv m) (hnext : m.threads t = .act e k)
    (hremove : ∀ path, e ≠ .removeDid path) {entry : DidCacheEntry} (hentry : entry ∈ m.cache)
    (hvalid : ¬ Expired m.time entry)
    (hagrees : Agrees m.tree entry → Agrees tree' entry ∨
      ∃ k', k answer = .act (.removeDid entry.dirname) k') :
    Agrees tree' entry ∨ (∃ t', t' ≠ t ∧ Removing m t' entry.dirname) ∨
      ∃ k', k answer = .act (.removeDid entry.dirname) k' := by
  rcases hm.cached entry hentry hvalid with h | ⟨t', k', hk'⟩
  · rcases hagrees h with hagrees | hnow
    · exact Or.inl hagrees
    · exact Or.inr (Or.inr hnow)
  · refine Or.inr (Or.inl ⟨t', fun hsame => ?_, k', hk'⟩)
    rw [hsame, hnext] at hk'
    injection hk' with he
    exact hremove _ he

/-- The others keep what they rely on. -/
theorem Inv.others (hm : Inv m)
    (hkept : ∀ names d, descend m.tree AFP_ROOT_DID names = some d →
      descend tree' AFP_ROOT_DID names = some d) (t' : ℕ) :
    ∃ g : Reliance, g.True tree' ∧ Faithful (fun _ _ => True) g (m.threads t') := by
  obtain ⟨g, hg, hfaithful⟩ := hm.relied t'
  exact ⟨g, hkept g.names g.did hg, hfaithful⟩

/-- An effect that keeps the cache and every descent. -/
theorem Inv.perform_kept (hm : Inv m) (hnext : m.threads t = .act e k)
    (hremove : ∀ path, e ≠ .removeDid path)
    (hnothing : FindsNothing ⟨e, answer⟩ → ¬ AddsNext (k answer))
    (hkept : ∀ names d, descend m.tree AFP_ROOT_DID names = some d →
      descend tree' AFP_ROOT_DID names = some d)
    (htrue : ∀ g : Reliance, g.True m.tree → (g.next ⟨e, answer⟩).True tree') :
    Inv { m with
      tree := tree'
      cache := m.cache
      threads := Function.update m.threads t (k answer) } := by
  refine inv_perform (fun entry hentry hvalid => ?_) (fun t' _ => hm.others hkept t')
    (hm.next hnext hnothing fun g hg _ => htrue g hg)
  exact hm.cached_of_kept hnext hremove hentry hvalid fun h => Or.inl (hkept _ _ h)

/-- An effect after which a directory entry is in nobody's way any more. -/
theorem Inv.perform_unused (hm : Inv m) (hnext : m.threads t = .act e k)
    (hremove : ∀ path, e ≠ .removeDid path)
    (hnothing : FindsNothing ⟨e, answer⟩ → ¬ AddsNext (k answer)) {node : Node}
    (hunused : Unused m t ⟨e, answer⟩ node)
    (hkept : ∀ names d, descend m.tree AFP_ROOT_DID names = some d →
      (node.isdir = true → ¬ Through m.tree node.id names) →
        descend tree' AFP_ROOT_DID names = some d)
    (htrue : ∀ g : Reliance, (g.next ⟨e, answer⟩).True tree') :
    Inv { m with
      tree := tree'
      cache := m.cache
      threads := Function.update m.threads t (k answer) } := by
  refine inv_perform (fun entry hentry hvalid => ?_) (fun t' hne => ?_)
    (hm.next hnext hnothing fun g _ _ => htrue g)
  · refine hm.cached_of_kept hnext hremove hentry hvalid fun h => ?_
    by_cases hthrough : node.isdir = true ∧
        Through m.tree node.id (components slash entry.dirname)
    · obtain ⟨k', hsteps⟩ := (hunused hthrough.1).1 entry hentry hvalid hthrough.2
      rw [hnext] at hsteps
      cases hsteps with
      | act hrest => exact Or.inr ⟨k', (Prog.steps_nil_iff.mp hrest).symm⟩
    · exact Or.inl (hkept _ _ h fun hdir hpass => hthrough ⟨hdir, hpass⟩)
  · by_cases hdir : node.isdir = true
    · obtain ⟨g, hg, hfaithful, hpass⟩ := (hunused hdir).2 t' hne
      exact ⟨g, hkept _ _ hg fun _ => hpass, hfaithful⟩
    · obtain ⟨g, hg, hfaithful⟩ := hm.relied t'
      exact ⟨g, hkept _ _ hg fun h => absurd h hdir, hfaithful⟩

end Perform

/-! ## One step -/

section Effects

variable {m : Mount} {t : ℕ} {cache' : List DidCacheEntry}

/-- A lookup extends what the thread relies on by what the server found. -/
theorem Inv.perform_lookup (hm : Inv m) {parent : UInt32} {filebitmap dirbitmap : ℕ}
    {pathname : CString} {reply : Reply AfpFileInfo} {k : Reply AfpFileInfo → AfpM Unit}
    (hnext : m.threads t =
      .act (.request (.getFileDirParms parent filebitmap dirbitmap pathname)) k)
    (hserved : Served m.tree (.getFileDirParms parent filebitmap dirbitmap pathname) reply tree')
    (hnothing : reply.stored = none → ¬ AddsNext (k reply)) :
    Inv { m with
      tree := tree'
      cache := m.cache
      threads := Function.update m.threads t (k reply) } := by
  obtain ⟨rfl, hreply⟩ := hserved
  refine hm.perform_kept hnext (fun _ h => nomatch h) hnothing (fun _ _ h => h) fun g hg => ?_
  rcases hreply with ⟨-, hnone⟩ | ⟨fi, node, rfl, hlocate, hid, hisdir⟩
  · simp only [Reliance.next, hnone]
    exact Reliance.root_true _
  · simp only [Reliance.next]
    split
    · rename_i h
      obtain ⟨-, rfl, hdir⟩ := h
      have hdown := descend_of_locate hlocate (hisdir ▸ hdir)
      rw [Reliance.True, descend_append, hg, Option.bind_some, hid]
      exact hdown
    · exact Reliance.root_true _

/-- A lookup in the cache: the thread relies on what a valid entry says. -/
theorem Inv.perform_find (hm : Inv m) {path : CString} {did : UInt32} {k : UInt32 → AfpM Unit}
    (hnext : m.threads t = .act (.findDirid path) k)
    (hfound : (did, cache') = findDiridByFullname m.time path m.cache)
    (hcareful : ∀ t', ¬ Removing m t' path) :
    Inv { m with
      tree := m.tree
      cache := cache'
      threads := Function.update m.threads t (k did) } := by
  have hdid : (findDiridByFullname m.time path m.cache).1 = did := by rw [← hfound]
  have hcache : (findDiridByFullname m.time path m.cache).2 = cache' := by rw [← hfound]
  have hsub := find_sublist m.time path m.cache
  rw [hcache] at hsub
  refine inv_perform (fun entry hentry hvalid => ?_)
    (fun t' _ => hm.others (fun _ _ h => h) t')
    (hm.next hnext (fun h => nomatch h) fun g _ _ => ?_)
  · exact hm.cached_of_kept hnext (fun _ h => nomatch h) (hsub.subset hentry) hvalid Or.inl
  · change (Reliance.ofCache path did).True m.tree
    unfold Reliance.ofCache
    split
    · rename_i hne
      rw [← hdid] at hne ⊢
      obtain ⟨entry, hentry, hvalid, rfl, hid⟩ := find_sound hne
      rcases hm.cached entry hentry hvalid with hagrees | ⟨t', ht'⟩
      · rw [← hid]
        exact hagrees
      · exact absurd ht' (hcareful t')
    · exact Reliance.root_true _

/-- What the thread relies on goes into the cache. -/
theorem Inv.perform_add (hm : Inv m) {path : CString} {did : UInt32} {k : Unit → AfpM Unit}
    (hnext : m.threads t = .act (.addDid did path) k) :
    Inv { m with
      tree := m.tree
      cache := addDidCacheEntry m.time did path m.cache
      threads := Function.update m.threads t (k ()) } := by
  obtain ⟨g, hg, hfaithful⟩ := hm.relied t
  rw [hnext] at hfaithful
  obtain ⟨⟨hpath, hdid⟩, -⟩ := hfaithful
  refine inv_perform (fun entry hentry hvalid => ?_)
    (fun t' _ => hm.others (fun _ _ h => h) t')
    (hm.next hnext (fun h => by cases h) fun _ htrue _ => htrue)
  rcases List.mem_cons.mp hentry with rfl | hentry
  · refine Or.inl ?_
    rw [Agrees, hpath, hdid]
    exact hg
  · exact hm.cached_of_kept hnext (fun _ h => by cases h) hentry hvalid Or.inl

/-- The entry that the thread removes is the last valid one with its name. -/
theorem Inv.perform_remove (hm : Inv m) {path : CString} {k : Unit → AfpM Unit}
    (hnext : m.threads t = .act (.removeDid path) k)
    (hcareful : ∀ entry ∈ removeDidEntry path m.cache, entry.dirname = path →
      Expired m.time entry) :
    Inv { m with
      tree := m.tree
      cache := removeDidEntry path m.cache
      threads := Function.update m.threads t (k ()) } := by
  refine inv_perform (fun entry hentry hvalid => ?_)
    (fun t' _ => hm.others (fun _ _ h => h) t')
    (hm.next hnext (fun h => nomatch h) fun _ _ _ => Reliance.root_true _)
  rcases hm.cached entry (List.mem_of_mem_eraseP hentry) hvalid with hagrees | ⟨t', k', hk'⟩
  · exact Or.inl hagrees
  · refine Or.inr (Or.inl ⟨t', fun hsame => ?_, k', hk'⟩)
    rw [hsame, hnext] at hk'
    injection hk' with he
    injection he with hname
    exact hvalid (hcareful entry hentry hname.symm)

end Effects

/-- A thread starts. -/
theorem Inv.start {volume : Volume} {m : Mount} (hm : Inv m) {t : ℕ} {op : CacheOp}
    (hidle : m.threads t = pure ()) (hop : op.Absolute) :
    Inv { m with threads := Function.update m.threads t (op.run volume) } where
  cached := by
    intro entry hentry hvalid
    rcases hm.cached entry hentry hvalid with hagrees | ⟨t', k, hk⟩
    · exact Or.inl hagrees
    · refine Or.inr ⟨t', k, ?_⟩
      rw [← hk]
      refine Function.update_of_ne (fun hsame => ?_) ..
      rw [hsame, hidle] at hk
      exact nomatch hk
  relied := by
    intro t'
    by_cases hne : t' = t
    · subst hne
      refine ⟨.root, Reliance.root_true _, ?_⟩
      simpa only [Function.update_self] using CacheOp.tame volume hop .root
    · simpa only [Function.update_of_ne hne] using hm.relied t'

/-- Time passes: fewer entries are valid. -/
theorem Inv.wait {m : Mount} (hm : Inv m) (seconds : ℕ) :
    Inv { m with time := m.time + seconds } where
  cached := by
    intro entry hentry hvalid
    refine hm.cached entry hentry fun hold => hvalid ?_
    exact Nat.lt_of_lt_of_le hold (Nat.le_add_right ..)
  relied := hm.relied

/-- A request, by what it may do to the tree. -/
theorem Inv.perform_request {m : Mount} (hm : Inv m) {t : ℕ} {r : Request}
    {reply : Reply r.Payload} {k : Reply r.Payload → AfpM Unit}
    (hnext : m.threads t = .act (.request r) k) (hserved : Served m.tree r reply tree')
    (hcareful : Careful m (.perform t ⟨.request r, reply⟩)) :
    Inv { m with
      tree := tree'
      cache := m.cache
      threads := Function.update m.threads t (k reply) } := by
  cases r with
  | getFileDirParms parent filebitmap dirbitmap pathname =>
    refine hm.perform_lookup hnext hserved fun hnone hadds => ?_
    cases hk : k reply with
    | act e k' =>
      rw [hk] at hadds
      cases e with
      | addDid new path =>
        refine hcareful hnone new path ⟨k', ?_⟩
        rw [hnext]
        exact .act (hk ▸ .refl _)
      | _ => exact hadds.elim
    | done a =>
      rw [hk] at hadds
      exact hadds.elim
    | stuck =>
      rw [hk] at hadds
      exact hadds.elim
  | createDir did name =>
    refine hm.perform_kept hnext (fun _ h => nomatch h) (fun h => nomatch h)
      (fun names d hd => ?_) fun _ _ => Reliance.root_true _
    simp only [Served] at hserved
    split at hserved
    · exact descend_created hserved hd
    · exact hserved ▸ hd
  | delete did name =>
    simp only [Served] at hserved
    split at hserved
    · rename_i hrc
      obtain ⟨node, hnode, -, hlost⟩ := hserved
      exact hm.perform_unused hnext (fun _ h => nomatch h) (fun h => nomatch h)
        (hcareful hrc node hnode) (fun _ _ hd hthrough => descend_lost hlost hd hthrough)
        fun _ => Reliance.root_true _
    · subst hserved
      exact hm.perform_kept hnext (fun _ h => nomatch h) (fun h => nomatch h)
        (fun _ _ hd => hd) fun _ _ => Reliance.root_true _
  | moveAndRename src dst srcPath dstPath newName =>
    simp only [Served] at hserved
    split at hserved
    · rename_i hrc
      obtain ⟨target, -, hmoved⟩ := hserved
      obtain ⟨node, between, hnode, -⟩ := id hmoved
      exact hm.perform_unused hnext (fun _ h => nomatch h) (fun h => nomatch h)
        (hcareful hrc node hnode) (fun _ _ hd hthrough => descend_moved hmoved hnode hd hthrough)
        fun _ => Reliance.root_true _
    · subst hserved
      exact hm.perform_kept hnext (fun _ h => nomatch h) (fun h => nomatch h)
        (fun _ _ hd => hd) fun _ _ => Reliance.root_true _
  | _ =>
    have htree : tree' = m.tree := hserved
    subst htree
    exact hm.perform_kept hnext (fun _ h => nomatch h) (fun h => nomatch h)
      (fun _ _ hd => hd) fun _ _ => Reliance.root_true _

/-- **A careful step keeps the invariant.** -/
theorem inv_step {volume : Volume} {m m' : Mount} {action : Action} (hcareful : Careful m action)
    (hstep : Step volume m action m') (hm : Inv m) : Inv m' := by
  cases hstep with
  | start hidle hop => exact hm.start hidle hop
  | wait => exact hm.wait _
  | @perform t e k answer tree' cache' hnext hperforms =>
    cases e with
    | request r =>
      obtain ⟨hserved, rfl⟩ := hperforms
      exact hm.perform_request hnext hserved hcareful
    | findDirid path =>
      obtain ⟨rfl, hfound⟩ := hperforms
      exact hm.perform_find hnext hfound hcareful
    | addDid did path =>
      obtain ⟨rfl, rfl⟩ := hperforms
      exact hm.perform_add hnext
    | removeDid path =>
      obtain ⟨rfl, rfl⟩ := hperforms
      exact hm.perform_remove hnext hcareful
    | uninitFileInfo =>
      obtain ⟨rfl, rfl⟩ := hperforms
      exact hm.perform_kept hnext (fun _ h => nomatch h) (fun h => nomatch h)
        (fun _ _ hd => hd) fun _ hg => hg
    | _ =>
      obtain ⟨rfl, rfl⟩ := hperforms
      exact hm.perform_kept hnext (fun _ h => nomatch h) (fun h => nomatch h)
        (fun _ _ hd => hd) fun _ _ => Reliance.root_true _

/-! ## A file is looked up, and its directory renamed -/

/-- `/a`, which holds `f`. -/
def dirA : CString := [0x2f, 0x61]

/-- `/b`. -/
def dirB : CString := [0x2f, 0x62]

/-- `/a/f`. -/
def fileOfA : CString := [0x2f, 0x61, 0x2f, 0x66]

/-- The lookup of `/a`. -/
def lookupA : Request := .getFileDirParms AFP_ROOT_DID kFPNodeIDBit kFPNodeIDBit dirA

/-- The entry of the directory `/a` of `smallTree`. -/
def foundA : Reply AfpFileInfo :=
  ⟨kFPNoErr, some { AfpFileInfo.zero with fileid := 5, isdir := true }⟩

/-- A mount where one thread has something to do. -/
def Mount.alone (tree : Tree) (cache : List DidCacheEntry) (time : ℕ) (p : AfpM Unit) : Mount where
  tree := tree
  cache := cache
  time := time
  threads := Function.update (fun _ => pure ()) 0 p

section Alone

variable {volume : Volume} {tree : Tree} {cache : List DidCacheEntry} {time : ℕ}

theorem Mount.init_eq_alone (tree : Tree) (time : ℕ) :
    Mount.init tree time = .alone tree [] time (pure ()) := by
  rw [Mount.alone, Function.update_eq_self (0 : ℕ) fun _ => (pure () : AfpM Unit)]
  rfl

theorem start_alone {op : CacheOp} (hop : op.Absolute) :
    Step volume (.alone tree cache time (pure ())) (.start 0 op)
      (.alone tree cache time (op.run volume)) := by
  have hstep := @Step.start volume (.alone tree cache time (pure ())) 0 op rfl hop
  simpa only [Mount.alone, Function.update_idem] using hstep

theorem perform_alone (e : Effect) {k : e.Answer → AfpM Unit} (answer : e.Answer) (tree' : Tree)
    (cache' : List DidCacheEntry)
    (hperforms : (Mount.alone tree cache time (.act e k)).Performs tree' cache' ⟨e, answer⟩) :
    Step volume (.alone tree cache time (.act e k)) (.perform 0 ⟨e, answer⟩)
      (.alone tree' cache' time (k answer)) := by
  have hstep := @Step.perform volume (.alone tree cache time (.act e k)) 0 e k answer tree' cache'
    rfl hperforms
  simpa only [Mount.alone, Function.update_idem] using hstep

/-- The thread does not remove anything next. -/
theorem not_removing_alone {p : AfpM Unit} (hp : ∀ path k, p ≠ .act (.removeDid path) k) (t : ℕ)
    (path : CString) : ¬ Removing (.alone tree cache time p) t path := by
  rintro ⟨k, hk⟩
  by_cases ht : t = 0
  · subst ht
    exact hp path k hk
  · simp only [Mount.alone, Function.update_of_ne ht] at hk
    exact nomatch hk

end Alone

/-- What the resolution of `/a/f` does. -/
theorem resolve_fileOfA : resolve fileOfA =
    (uninitPath >>= fun _ => uninitInt >>= fun _ => findDirid dirA >>= fun newdid =>
      if newdid ≠ 0 then pure (0, [0x66], newdid)
      else uninitFileInfo >>= fun fi =>
        (afpGetfiledirparms AFP_ROOT_DID kFPNodeIDBit kFPNodeIDBit dirA >>= fun reply =>
          if (reply.stored.getD fi).isdir then
            addDid (reply.stored.getD fi).fileid dirA >>= fun _ =>
              pure (reply.stored.getD fi).fileid
          else pure AFP_ROOT_DID) >>= fun dirid =>
        pure (0, [0x66], dirid)) := by
  have htop : topmostParent dirA = pure (AFP_ROOT_DID, 0) := topmostParent_zero (by decide)
  have hwalk (fi : AfpFileInfo) := @walkForward_some fileOfA 0 2 (by decide) AFP_ROOT_DID fi
  have hend (did : UInt32) (fi : AfpFileInfo) :
      walkForward fileOfA did 2 fi = pure did := walkForward_none (by decide) ..
  have hcopy : (fileOfA.drop 0).take (2 - 0) = dirA := rfl
  have htake : fileOfA.take 2 = dirA := rfl
  have hresolve (basename : CString) (dirid : UInt32) := @getDirid_joinPath [[0x61]] [0x66]
    (by unfold Separated; decide) basename dirid
  have hpath : joinPath slash ([[0x61]] ++ [[0x66]]) = fileOfA := rfl
  have hdir : joinPath slash [[0x61]] = dirA := rfl
  have hlast : ¬ AFP_MAX_PATH ≤ ([0x66] : CString).length := by decide
  have hlen : ¬ AFP_MAX_PATH ≤ dirA.length := by decide
  rw [hpath, hdir, htop] at hresolve
  simp only [if_neg hlast, if_neg hlen, List.cons_ne_nil, if_false] at hresolve
  simp only [resolve, hresolve, Prog.pure_eq, Prog.done_bind, hwalk, hend, hcopy, htake]

/-- A thread resolves `/a/f`. -/
def resolveActions : List Action :=
  [.start 0 (.resolve fileOfA),
    .perform 0 ⟨.uninitPath, ([] : CString)⟩,
    .perform 0 ⟨.uninitInt, (0 : UInt32)⟩,
    .perform 0 ⟨.findDirid dirA, (0 : UInt32)⟩,
    .perform 0 ⟨.uninitFileInfo, AfpFileInfo.zero⟩,
    .perform 0 ⟨.request lookupA, foundA⟩,
    .perform 0 ⟨.addDid 5 dirA, ()⟩]

/-- What the cache holds afterwards. -/
def cachedA : List DidCacheEntry := [⟨dirA, 5, 100⟩]

/-- `/a/f` is resolved, and `/a` is cached. -/
theorem run_resolve : Run (Guarded Careful (Step Volume.plain)) (.init smallTree 100)
    resolveActions (.alone smallTree cachedA 100 (pure ())) := by
  rw [Mount.init_eq_alone]
  have hstart := @start_alone Volume.plain smallTree [] 100 (.resolve fileOfA) rfl
  rw [CacheOp.run, resolve_fileOfA] at hstart
  refine .cons ⟨trivial, hstart⟩ ?_
  refine .cons ⟨trivial, perform_alone .uninitPath ([] : CString) smallTree [] ⟨rfl, rfl⟩⟩ ?_
  refine .cons ⟨trivial, perform_alone .uninitInt (0 : UInt32) smallTree [] ⟨rfl, rfl⟩⟩ ?_
  refine .cons ⟨fun t => not_removing_alone (fun path k h => ?_) t dirA,
    perform_alone (.findDirid dirA) (0 : UInt32) smallTree [] ⟨rfl, rfl⟩⟩ ?_
  · injection h with he
    injection he
  refine .cons ⟨trivial, perform_alone .uninitFileInfo AfpFileInfo.zero smallTree [] ⟨rfl, rfl⟩⟩ ?_
  refine .cons ⟨?_, perform_alone (.request lookupA) foundA smallTree [] ⟨⟨rfl, ?_⟩, rfl⟩⟩ ?_
  · exact fun h => nomatch h
  · exact Or.inr ⟨_, ⟨5, true⟩, rfl, rfl, rfl, rfl⟩
  refine .cons ⟨trivial, perform_alone (.addDid _ _) () smallTree cachedA ⟨rfl, rfl⟩⟩ ?_
  exact .nil _

/-- `/b` has the id of `/a`, which is gone. -/
def renamedTree : Tree := fun did name =>
  if did = AFP_ROOT_DID ∧ name = [0x62] then .ok ⟨5, true⟩
  else if did = 5 ∧ name = [0x66] then .ok ⟨9, false⟩
  else .error kFPObjectNotFound

/-- `/b` does not exist. -/
def notFound : Reply AfpFileInfo := ⟨kFPObjectNotFound, none⟩

/-- The lookup of `/b`, as a path in the root. -/
def lookupB : Request := .getFileDirParms AFP_ROOT_DID 0 0 dirB

/-- The request that renames `/a`. -/
def moveAToB : Request := .moveAndRename AFP_ROOT_DID AFP_ROOT_DID [0x61] none [0x62]

/-- A thread renames `/a`. -/
def renameActions : List Action :=
  [.start 0 (.rename dirA dirB),
    .perform 0 ⟨.uninitPath, ([] : CString)⟩,
    .perform 0 ⟨.uninitInt, (0 : UInt32)⟩,
    .perform 0 ⟨.uninitPath, ([] : CString)⟩,
    .perform 0 ⟨.uninitInt, (0 : UInt32)⟩,
    .perform 0 ⟨.uninitFileInfo, AfpFileInfo.zero⟩,
    .perform 0 ⟨.request lookupB, notFound⟩,
    .perform 0 ⟨.request moveAToB, (⟨kFPNoErr, some ()⟩ : Reply Unit)⟩]

/-- The tree without `/a`. -/
def detachedTree : Tree := fun did name =>
  if did = 5 ∧ name = [0x66] then .ok ⟨9, false⟩ else .error kFPObjectNotFound

theorem lost_detachedTree : Lost smallTree detachedTree ⟨5, true⟩ where
  gone := by
    intro did name h
    refine ⟨kFPObjectNotFound, if_neg ?_⟩
    rintro ⟨rfl, rfl⟩
    exact nomatch h
  kept := by
    intro did name h
    simp only [smallTree, detachedTree] at h ⊢
    split at h
    · exact absurd rfl h
    · rename_i hne
      rw [if_neg hne]

theorem moved_renamedTree :
    Moved smallTree renamedTree AFP_ROOT_DID [0x61] AFP_ROOT_DID [0x62] :=
  ⟨⟨5, true⟩, detachedTree, rfl, fun _ h => (nomatch h), lost_detachedTree, rfl⟩

theorem run_rename : Run (Step Volume.plain) (.alone smallTree cachedA 100 (pure ()))
    renameActions (.alone renamedTree cachedA 100 (pure ())) := by
  have hstart := @start_alone Volume.plain smallTree cachedA 100 (.rename dirA dirB) ⟨rfl, rfl⟩
  refine .cons hstart ?_
  refine .cons (perform_alone .uninitPath ([] : CString) smallTree cachedA ⟨rfl, rfl⟩) ?_
  refine .cons (perform_alone .uninitInt (0 : UInt32) smallTree cachedA ⟨rfl, rfl⟩) ?_
  refine .cons (perform_alone .uninitPath ([] : CString) smallTree cachedA ⟨rfl, rfl⟩) ?_
  refine .cons (perform_alone .uninitInt (0 : UInt32) smallTree cachedA ⟨rfl, rfl⟩) ?_
  refine .cons (perform_alone .uninitFileInfo AfpFileInfo.zero smallTree cachedA ⟨rfl, rfl⟩) ?_
  refine .cons (perform_alone (.request lookupB) notFound smallTree cachedA
    ⟨⟨rfl, Or.inl ⟨by decide, rfl⟩⟩, rfl⟩) ?_
  refine .cons (perform_alone (.request moveAToB) (⟨kFPNoErr, some ()⟩ : Reply Unit) renamedTree
    cachedA ⟨?_, rfl⟩) ?_
  · exact ⟨⟨AFP_ROOT_DID, true⟩, rfl, moved_renamedTree⟩
  exact .nil _

theorem idle_alone (tree : Tree) (cache : List DidCacheEntry) (time t : ℕ) (path : CString) :
    ¬ Removing (.alone tree cache time (pure ())) t path :=
  not_removing_alone (fun _ _ h => by injection h) t path

/-! ## Runs -/

/-- **Coherence of every state reached by careful steps** in which no thread is between the removal
of a directory and the removal of its entry. -/
theorem coherence_run {volume : Volume} {tree : Tree} {time : ℕ} {actions : List Action} {m : Mount}
    (hrun : Run (Guarded Careful (Step volume)) (.init tree time) actions m)
    (hquiet : ∀ t path, ¬ Removing m t path) : Coherent m := by
  have hinv : Inv m := hrun.invariant Inv (fun _ _ _ hstep => inv_step hstep.1 hstep.2)
    (inv_init tree time)
  exact hinv.coherent hquiet

/-- `/a/f` is resolved. -/
theorem coherence_run_of_resolve : Coherent (.alone smallTree cachedA 100 (pure ())) :=
  coherence_run run_resolve (idle_alone smallTree cachedA 100)

/-- **A renamed directory is still found under its old path.** -/
theorem rename_leaves_entry : ¬ ∀ (volume : Volume) (tree : Tree) (time : ℕ)
    (actions : List Action) (m : Mount), Run (Step volume) (.init tree time) actions m →
      (∀ t path, ¬ Removing m t path) → Coherent m := by
  intro hcoherent
  have hrun := run_resolve.ofGuarded.append run_rename
  have h := hcoherent _ _ _ _ _ hrun (idle_alone renamedTree cachedA 100) dirA
  exact nomatch h (by decide)

end CacheCoherence
end Afpfs

import Mathlib.Data.List.DropRight
import Mathlib.Data.List.Perm.Basic
import Afpfs.Lib.PointerList
import Afpfs.Resource

/-!
# The listing of `.AppleDouble`

`appledouble_readdir()` walks the list of the directory.  For each entry it puts new nodes in front of
a chain of its own, and it takes the entry out of the list it is walking if it is not a file with a
resource fork.  In the end the chain is appended to the node visited last.

`remove_fp()` frees the node before it reads its link, and so does the loop that called it.  A node
that was freed may still hold what it held (`keeps`), or reading it has no defined behaviour.  The
nodes of a list are at addresses, and `malloc()` does not return an address twice.

* `lockstep_listVirtual`: the walk over the nodes is a walk over the entries (`listLoop`).
* `listing_iff`: for which directories the list is the one that the documentation describes.
* `directory_at_the_end`: a directory whose last entry is a directory.
-/

set_option autoImplicit false

namespace Afpfs
namespace Listing

open Interaction Unicode Codepage Translate PointerList

/-! ## Nodes -/

/-- A `struct afp_file_info` in a list. -/
structure Node where
  info : AfpFileInfo
  next : Option ℕ

/-- The nodes: what is stored at an address, the first address that was never used, and the addresses
that were freed, each as often as it was. -/
structure Mem where
  node : ℕ → Option Node
  brk : ℕ
  freed : List ℕ

/-- The node at an address, as far as it may be read. -/
def Mem.get (keeps : Bool) (m : Mem) (a : ℕ) : Option Node :=
  if a ∈ m.freed ∧ keeps = false then none else m.node a

/-- `free()`. -/
def Mem.free (m : Mem) (a : ℕ) : Mem := { m with freed := a :: m.freed }

/-- `a->next=p`. -/
def Mem.setNext (keeps : Bool) (m : Mem) (a : ℕ) (p : Option ℕ) : Option Mem :=
  (m.get keeps a).map fun n =>
    { m with node := Function.update m.node a (some { n with next := p }) }

/-- A new node with some contents. -/
def Mem.store (m : Mem) (n : Node) : Mem :=
  { m with node := Function.update m.node m.brk (some n), brk := m.brk + 1 }

/-- The loop of `remove_fp()`, which goes on after it has removed the node: the memory and `*base`. -/
def removeFp (keeps : Bool) (toremove : ℕ) :
    ℕ → Mem → (base fp prev : Option ℕ) → Option (Mem × Option ℕ)
  | _, m, base, none, _ => some (m, base)
  | 0, _, _, some _, _ => none
  | fuel + 1, m, base, some fp, prev => do
    let n ← m.get keeps fp
    if fp = toremove then
      match prev with
      | none => do
        let m := m.free fp
        let freed ← m.get keeps fp
        removeFp keeps toremove fuel m n.next freed.next none
      | some before => do
        let m ← m.setNext keeps before n.next
        let m := m.free fp
        let freed ← m.get keeps fp
        removeFp keeps toremove fuel m base freed.next (some fp)
    -- `prev` is not advanced
    else removeFp keeps toremove fuel m base n.next prev

/-- `add_fp()`: the memory and `*newchain`. -/
def addFp (m : Mem) (newchain : Option ℕ) (fp : AfpFileInfo) (suffix : CString) (size : UInt16) :
    Option (Mem × Option ℕ) :=
  if (fp.name ++ suffix).length < AFP_MAX_PATH then
    some (m.store ⟨Afpfs.addFp fp suffix size, newchain⟩, some m.brk)
  else none

/-- The entry for the comment, if there is one. -/
def addComment (m : Mem) (newchain : Option ℕ) (fp : AfpFileInfo) : AfpM (Mem × Option ℕ) := do
  let size ← getCommentSize fp.name fp.did
  if 0 < size then ofOption (addFp m newchain fp commentString 32) else return (m, newchain)

/-- What the loop of `appledouble_readdir()` leaves. -/
structure Walk where
  mem : Mem
  base : Option ℕ
  newchain : Option ℕ
  last : Option ℕ

/-- The loop of `appledouble_readdir()` from the node `fp` on. -/
def listChain (keeps : Bool) (limit : ℕ) : ℕ → Walk → Option ℕ → AfpM Walk
  | _, w, none => return w
  | 0, _, some _ => .stuck
  | fuel + 1, w, some fp => do
    let n ← ofOption (w.mem.get keeps fp)
    let (m, newchain) ← ofOption (addFp w.mem w.newchain n.info finderinfoString 32)
    let opened ← ensureDtOpened
    let (m, newchain) ← (if opened = 0 then addComment m newchain n.info else pure (m, newchain))
    let (m, base) ← ofOption
      (if keepsEntry n.info then some (m, w.base) else removeFp keeps fp limit m w.base w.base none)
    let n ← ofOption (m.get keeps fp)
    listChain keeps limit fuel ⟨m, base, newchain, some fp⟩ n.next

/-- What follows the loop: the chain is appended to the node that was visited last. -/
def appendChain (keeps : Bool) (w : Walk) : AfpM (Mem × Option ℕ) :=
  match w.newchain, w.last with
  | some chain, some last => do
    let m ← ofOption (w.mem.setNext keeps last (some chain))
    return (m, w.base)
  | _, _ => return (w.mem, w.base)

/-- `appledouble_readdir()` for the list at `*base`: the memory and `*base`. -/
def listVirtual (keeps : Bool) (fuel : ℕ) (m : Mem) (base : Option ℕ) : AfpM (Mem × Option ℕ) := do
  let w ← listChain keeps fuel fuel ⟨m, base, none, none⟩ base
  appendChain keeps w

/-! ## What is expected -/

/-- An entry of a directory: its node, and whether it is a regular file and how long its resource fork
is. -/
structure Entry where
  addr : ℕ
  info : AfpFileInfo
  regular : Bool
  rsrcLen : ℕ

/-- A regular file whose resource fork is longer than 0. -/
def Entry.wanted (e : Entry) : Bool := e.regular && decide (0 < e.rsrcLen)

/-- The list of the directory is in memory. -/
structure Start (m : Mem) (base : Option ℕ) (es : List Entry) : Prop where
  linked : Linked m.node Node.next base (es.map Entry.addr)
  infos : ∀ e ∈ es, (m.node e.addr).map Node.info = some e.info
  alive : ∀ e ∈ es, e.addr ∉ m.freed
  bound : ∀ e ∈ es, e.addr < m.brk
  freedBound : ∀ a ∈ m.freed, a < m.brk

/-- The names of the files that stand for the Finder info and the comment of an entry. -/
def virtualNames (comment : UInt32 → CString → List UInt8) (fp : AfpFileInfo) : List CString :=
  (fp.name ++ finderinfoString) ::
    if comment fp.did fp.name = [] then [] else [fp.name ++ commentString]

/-- The name in a node. -/
def nameAt (m : Mem) (a : ℕ) : Option CString := (m.node a).map fun n => n.info.name

/-- The list `l` is what the documentation describes: it has the nodes of the entries with a resource
fork, with their names, and new nodes for the Finder infos and the comments; none of it was freed, and
the nodes that are not in it were freed once. -/
structure ListedAs (comment : UInt32 → CString → List UInt8) (es : List Entry) (m : Mem)
    (base : Option ℕ) (l : List ℕ) : Prop where
  linked : Linked m.node Node.next base l
  entries : ∀ e ∈ es, e.addr ∈ l ↔ e.wanted = true
  names : ∀ e ∈ es, nameAt m e.addr = some e.info.name
  others : ((l.filter (· ∉ es.map Entry.addr)).map (nameAt m)).Perm
    ((es.flatMap fun e => virtualNames comment e.info).map some)
  alive : ∀ a ∈ l, a ∉ m.freed
  freed : ∀ e ∈ es, e.addr ∉ l → m.freed.count e.addr = 1

/-- There is such a list. -/
def Listed (comment : UInt32 → CString → List UInt8) (es : List Entry) (m : Mem)
    (base : Option ℕ) : Prop :=
  ∃ l, ListedAs comment es m base l

/-- The server opens the desktop database and knows the comments. -/
def Serves (comment : UInt32 → CString → List UInt8) : (e : Effect) × e.Answer → Prop
  | ⟨.request .openDT, reply⟩ => reply.rc = kFPNoErr
  | ⟨.request (.getComment did pathname maxsize), reply⟩ =>
    reply.rc = kFPNoErr ∧ reply.stored = some ((comment did pathname).take maxsize.toNat) ∨
      comment did pathname = [] ∧ reply.rc = kFPItemNotFound
  | _ => True

/-! ## When it is so -/

/-- The entries that are removed come first, and are not all there is. -/
def RemovedFirst (es : List Entry) : Prop :=
  es = [] ∨ ∃ removed kept, es = removed ++ kept ∧ kept ≠ [] ∧
    (∀ e ∈ removed, keepsEntry e.info = false) ∧ ∀ e ∈ kept, keepsEntry e.info = true

/-- Every name has room for its suffix, the entries that are kept are those that are wanted, and the
entries that are removed come first.  If nothing of a node that was freed can be relied on, none is
removed. -/
structure Meets (keeps : Bool) (es : List Entry) : Prop where
  fits : ∀ e ∈ es, (e.info.name ++ finderinfoString).length < AFP_MAX_PATH
  recognised : ∀ e ∈ es, keepsEntry e.info = e.wanted
  front : RemovedFirst es
  defined : keeps = false → ∀ e ∈ es, keepsEntry e.info = true

/-! ## Nodes and lists -/

theorem Mem.get_of_alive {keeps : Bool} {m : Mem} {a : ℕ} (h : a ∉ m.freed) :
    m.get keeps a = m.node a := if_neg fun hfreed => h hfreed.1

theorem Mem.get_true (m : Mem) (a : ℕ) : m.get true a = m.node a :=
  if_neg fun h => Bool.noConfusion h.2

theorem Mem.get_free_false (m : Mem) (a : ℕ) : (m.free a).get false a = none :=
  if_pos ⟨List.mem_cons_self, rfl⟩

theorem Mem.store_node_of_ne {m : Mem} {n : Node} {a : ℕ} (h : a ≠ m.brk) :
    (m.store n).node a = m.node a := Function.update_of_ne h ..

theorem Mem.store_node_self (m : Mem) (n : Node) : (m.store n).node m.brk = some n :=
  Function.update_self ..

/-- The rest of the loop of `remove_fp()`, which does not come across the node again. -/
theorem removeFp_of_not_mem {toremove : ℕ} {m : Mem} {base fp prev : Option ℕ} {l : List ℕ}
    (h : Linked m.node Node.next fp l) (hmem : toremove ∉ l) {fuel : ℕ} (hfuel : l.length ≤ fuel) :
    removeFp true toremove fuel m base fp prev = some (m, base) := by
  induction l generalizing fp fuel with
  | nil =>
    obtain rfl := h.eq_head?
    cases fuel <;> rfl
  | cons a l ih =>
    obtain rfl := h.eq_head?
    obtain ⟨-, n, hn, hl⟩ := linked_some_cons.mp h
    cases fuel with
    | zero => exact absurd hfuel (by simp)
    | succ fuel =>
      obtain ⟨hne, hmem⟩ := not_or.mp (mt List.mem_cons.mpr hmem)
      rw [List.head?_cons, removeFp, Mem.get_true, hn]
      show (if a = toremove then _ else _) = _
      rw [if_neg (Ne.symm hne)]
      exact ih hl hmem (Nat.le_of_succ_le_succ hfuel)

/-- **Removing a node** from a list that it is on.  The list starts behind it then. -/
theorem removeFp_of_mem {keeps : Bool} {toremove : ℕ} {m : Mem} {base fp : Option ℕ}
    {l₁ l₂ : List ℕ} (h : Linked m.node Node.next fp (l₁ ++ toremove :: l₂))
    (halive : ∀ a ∈ l₁ ++ toremove :: l₂, a ∉ m.freed) {fuel : ℕ}
    (hfuel : (l₁ ++ toremove :: l₂).length ≤ fuel) :
    removeFp keeps toremove fuel m base fp none =
      if keeps then some (m.free toremove, l₂.head?) else none := by
  have hnodup := h.nodup
  induction l₁ generalizing fp fuel with
  | nil =>
    obtain rfl := h.eq_head?
    obtain ⟨-, n, hn, hl⟩ := linked_some_cons.mp h
    cases fuel with
    | zero => exact absurd hfuel (by simp)
    | succ fuel =>
      rw [List.nil_append, List.head?_cons, removeFp, Mem.get_of_alive (halive _ (by simp)), hn]
      show (if toremove = toremove then _ else _) = _
      rw [if_pos rfl]
      cases keeps with
      | false =>
        show ((m.free toremove).get false toremove >>= fun freed => _) = _
        rw [Mem.get_free_false]
        rfl
      | true =>
        show ((m.free toremove).get true toremove >>= fun freed => _) = _
        rw [Mem.get_true]
        show (m.node toremove >>= fun freed => _) = _
        rw [hn]
        show removeFp true toremove fuel (m.free toremove) n.next n.next none = _
        rw [if_pos rfl, ← hl.eq_head?]
        have hrest : Linked (m.free toremove).node Node.next n.next l₂ := hl
        exact removeFp_of_not_mem hrest (List.nodup_cons.mp hnodup).1
          (Nat.le_of_succ_le_succ hfuel)
  | cons a l₁ ih =>
    obtain rfl := h.eq_head?
    obtain ⟨-, n, hn, hl⟩ := linked_some_cons.mp h
    cases fuel with
    | zero => exact absurd hfuel (by simp)
    | succ fuel =>
      have hne : a ≠ toremove := fun heq => (List.nodup_cons.mp hnodup).1
        (heq ▸ List.mem_append_right l₁ List.mem_cons_self)
      rw [List.cons_append, List.head?_cons, removeFp,
        Mem.get_of_alive (halive _ List.mem_cons_self), hn]
      show (if a = toremove then _ else _) = _
      rw [if_neg hne]
      exact ih hl (fun b hb => halive b (List.mem_cons_of_mem a hb))
        (Nat.le_of_succ_le_succ hfuel) (List.nodup_cons.mp hnodup).2

/-! ## The walk -/

/-- The entries of a list that are kept and have no removed one behind them. -/
def keptOf (es : List Entry) : List Entry := es.rtakeWhile fun e => keepsEntry e.info

/-- The addresses of the entries that are removed. -/
def removedOf (es : List Entry) : List ℕ :=
  (es.filter fun e => keepsEntry e.info = false).map Entry.addr

/-- In the walk: `done` was visited and `rest` was not, and `news` are the new nodes. -/
structure Inv (m₀ : Mem) (done rest : List Entry) (m : Mem) (base newchain : Option ℕ)
    (news : List (ℕ × AfpFileInfo)) : Prop where
  linked : Linked m.node Node.next base ((keptOf done ++ rest).map Entry.addr)
  here : Linked m.node Node.next (rest.head?.map Entry.addr) (rest.map Entry.addr)
  chain : Linked m.node Node.next newchain (news.map Prod.fst)
  infos : ∀ e ∈ done ++ rest, (m.node e.addr).map Node.info = some e.info
  newInfos : ∀ x ∈ news, (m.node x.1).map Node.info = some x.2
  newBound : ∀ x ∈ news, m₀.brk ≤ x.1 ∧ x.1 < m.brk
  le : m₀.brk ≤ m.brk
  freed : m.freed = (removedOf done).reverse ++ m₀.freed

theorem keptOf_subset {es : List Entry} {e : Entry} (h : e ∈ keptOf es) : e ∈ es :=
  (List.rtakeWhile_suffix _ es).subset h

theorem keepsEntry_of_mem_keptOf {es : List Entry} {e : Entry} (h : e ∈ keptOf es) :
    keepsEntry e.info = true :=
  @List.mem_rtakeWhile_imp _ (fun e : Entry => keepsEntry e.info) _ _ h

theorem keptOf_concat (es : List Entry) (e : Entry) :
    keptOf (es ++ [e]) = if keepsEntry e.info then keptOf es ++ [e] else [] :=
  List.rtakeWhile_concat ..

theorem removedOf_concat (es : List Entry) (e : Entry) :
    removedOf (es ++ [e]) = removedOf es ++ if keepsEntry e.info then [] else [e.addr] := by
  rw [removedOf, removedOf, List.filter_append, List.map_append]
  cases h : keepsEntry e.info with
  | true => rw [List.filter_cons_of_neg (by simp [h])]; rfl
  | false => rw [List.filter_cons_of_pos (by simp [h])]; rfl

section Walk

variable {m₀ m : Mem} {base₀ base newchain : Option ℕ} {done rest : List Entry} {e : Entry}
  {news : List (ℕ × AfpFileInfo)} {keeps : Bool}

theorem Inv.start {es : List Entry} (h : Start m₀ base₀ es) :
    Inv m₀ [] es m₀ base₀ none [] where
  linked := h.linked
  here := by
    have hhead := h.linked.eq_head?
    rw [List.head?_map] at hhead
    exact hhead ▸ h.linked
  chain := linked_none.mpr rfl
  infos := h.infos
  newInfos x hx := absurd hx List.not_mem_nil
  newBound x hx := absurd hx List.not_mem_nil
  le := Nat.le_refl _
  freed := rfl

/-- **A new node** in front of the chain. -/
theorem Inv.addFp (hstart : Start m₀ base₀ (done ++ rest))
    (h : Inv m₀ done rest m base newchain news) (info : AfpFileInfo) :
    Inv m₀ done rest (m.store ⟨info, newchain⟩) base (some m.brk) ((m.brk, info) :: news) := by
  have hfresh {l : List Entry} (hl : l ⊆ done ++ rest) : m.brk ∉ l.map Entry.addr := by
    intro hmem
    obtain ⟨e, he, heq⟩ := List.mem_map.mp hmem
    exact absurd (heq ▸ hstart.bound e (hl he)) (Nat.not_lt.mpr h.le)
  have hnew : m.brk ∉ news.map Prod.fst := by
    intro hmem
    obtain ⟨x, hx, heq⟩ := List.mem_map.mp hmem
    exact absurd heq (Nat.ne_of_lt (h.newBound x hx).2)
  refine ⟨h.linked.update (hfresh ?_), h.here.update (hfresh ?_), h.chain.push hnew rfl, ?_, ?_, ?_,
    Nat.le_succ_of_le h.le, h.freed⟩
  · exact List.append_subset.mpr ⟨fun e he => List.mem_append_left rest (keptOf_subset he),
      List.subset_append_right done rest⟩
  · exact List.subset_append_right done rest
  · intro e he
    have hne : e.addr ≠ m.brk := fun heq =>
      hfresh (List.Subset.refl _) (heq ▸ List.mem_map_of_mem he)
    rw [Mem.store_node_of_ne hne]
    exact h.infos e he
  · refine List.forall_mem_cons.mpr ⟨?_, fun x hx => ?_⟩
    · rw [Mem.store_node_self, Option.map_some]
    · have hne : x.1 ≠ m.brk := fun heq => hnew (heq ▸ List.mem_map_of_mem hx)
      rw [Mem.store_node_of_ne hne]
      exact h.newInfos x hx
  · refine List.forall_mem_cons.mpr ⟨⟨h.le, Nat.lt_succ_self _⟩, fun x hx => ?_⟩
    obtain ⟨hle, hlt⟩ := h.newBound x hx
    exact ⟨hle, Nat.lt_succ_of_lt hlt⟩

/-- Two entries with one address are the same. -/
theorem Start.eq_of_addr {es : List Entry} (h : Start m₀ base₀ es) {e e' : Entry} (he : e ∈ es)
    (he' : e' ∈ es) (heq : e.addr = e'.addr) : e = e' :=
  List.inj_on_of_nodup_map h.linked.nodup he he' heq

/-- What is on the list was not freed. -/
theorem Inv.alive (hstart : Start m₀ base₀ (done ++ rest))
    (h : Inv m₀ done rest m base newchain news) (e : Entry) (he : e ∈ keptOf done ++ rest) :
    e.addr ∉ m.freed := by
  have hmem : e ∈ done ++ rest := by
    rcases List.mem_append.mp he with hkept | hrest
    · exact List.mem_append_left rest (keptOf_subset hkept)
    · exact List.mem_append_right done hrest
  rw [h.freed]
  intro hfreed
  rcases List.mem_append.mp hfreed with hremoved | hbefore
  swap
  · exact hstart.alive e hmem hbefore
  rw [List.mem_reverse, removedOf] at hremoved
  obtain ⟨e', he', heq⟩ := List.mem_map.mp hremoved
  obtain ⟨hdone, hdrop⟩ := List.mem_filter.mp he'
  obtain rfl := hstart.eq_of_addr (List.mem_append_left rest hdone) hmem heq
  rcases List.mem_append.mp he with hkept | hrest
  · have hkeep := keepsEntry_of_mem_keptOf hkept
    rw [of_decide_eq_true hdrop] at hkeep
    exact Bool.noConfusion hkeep
  · have hnodup : (done ++ rest).Nodup := List.Nodup.of_map _ hstart.linked.nodup
    exact (List.nodup_append.mp hnodup).2.2 e' hdone e' hrest rfl

/-- The next entry can be read. -/
theorem Inv.get (hstart : Start m₀ base₀ (done ++ e :: rest))
    (h : Inv m₀ done (e :: rest) m base newchain news) :
    ∃ n, m.node e.addr = some n ∧ m.get keeps e.addr = some n ∧ n.info = e.info ∧
      n.next = rest.head?.map Entry.addr := by
  obtain ⟨-, n, hn, hl⟩ := linked_some_cons.mp h.here
  have hinfo := h.infos e (List.mem_append_right done List.mem_cons_self)
  rw [hn, Option.map_some] at hinfo
  have halive := h.alive hstart e (List.mem_append_right _ List.mem_cons_self)
  refine ⟨n, hn, (Mem.get_of_alive halive).trans hn, Option.some.inj hinfo, ?_⟩
  rw [hl.eq_head?, List.head?_map]

/-- The next entry is **kept**. -/
theorem Inv.keep (h : Inv m₀ done (e :: rest) m base newchain news)
    (hkeep : keepsEntry e.info = true) :
    Inv m₀ (done ++ [e]) rest m base newchain news := by
  have hsplit : done ++ e :: rest = done ++ [e] ++ rest := by
    rw [List.append_assoc, List.singleton_append]
  refine ⟨?_, ?_, h.chain, hsplit ▸ h.infos, h.newInfos, h.newBound, h.le, ?_⟩
  · rw [keptOf_concat, if_pos hkeep, List.append_assoc, List.singleton_append]
    exact h.linked
  · obtain ⟨-, n, hn, hl⟩ := linked_some_cons.mp h.here
    rwa [hl.eq_head?, List.head?_map] at hl
  · rw [removedOf_concat, if_pos hkeep, List.append_nil]
    exact h.freed

/-- The next entry is **removed**. -/
theorem Inv.remove (h : Inv m₀ done (e :: rest) m base newchain news)
    (hdrop : keepsEntry e.info = false) :
    Inv m₀ (done ++ [e]) rest (m.free e.addr) (rest.head?.map Entry.addr) newchain news := by
  have hsplit : done ++ e :: rest = done ++ [e] ++ rest := by
    rw [List.append_assoc, List.singleton_append]
  have hdrop' : ¬ keepsEntry e.info = true := Bool.eq_false_iff.mp hdrop
  obtain ⟨-, n, hn, hl⟩ := linked_some_cons.mp h.here
  rw [hl.eq_head?, List.head?_map] at hl
  refine ⟨?_, hl, h.chain, hsplit ▸ h.infos, h.newInfos, h.newBound, h.le, ?_⟩
  · rw [keptOf_concat, if_neg hdrop', List.nil_append]
    exact hl
  · rw [removedOf_concat, if_neg hdrop', List.reverse_append]
    exact congrArg (e.addr :: ·) h.freed

/-- The call of `remove_fp()` in the loop. -/
theorem Inv.removeFp (hstart : Start m₀ base₀ (done ++ e :: rest))
    (h : Inv m₀ done (e :: rest) m base newchain news) {limit : ℕ}
    (hlimit : (done ++ e :: rest).length ≤ limit) :
    removeFp keeps e.addr limit m base base none =
      if keeps then some (m.free e.addr, rest.head?.map Entry.addr) else none := by
  have hlinked := h.linked
  rw [List.map_append, List.map_cons] at hlinked
  have hle : (keptOf done).length ≤ done.length := (List.rtakeWhile_suffix _ done).length_le
  rw [removeFp_of_mem hlinked, List.head?_map]
  · intro a ha
    rw [← List.map_cons, ← List.map_append] at ha
    obtain ⟨e', he', rfl⟩ := List.mem_map.mp ha
    exact h.alive hstart e' he'
  · simp only [List.length_append, List.length_map, List.length_cons] at hlimit ⊢
    omega

/-- `listLoop()`, stuck where the walk over the nodes is. -/
def listChecked (keeps : Bool) : List AfpFileInfo → List AfpFileInfo → List AfpFileInfo →
    AfpM (List AfpFileInfo × List AfpFileInfo)
  | [], kept, newchain => return (kept, newchain)
  | fp :: rest, kept, newchain =>
    if (fp.name ++ finderinfoString).length < AFP_MAX_PATH then do
      let newchain := Afpfs.addFp fp finderinfoString 32 :: newchain
      let opened ← ensureDtOpened
      let newchain ← (if opened = 0 then Afpfs.addComment fp newchain else pure newchain)
      if keepsEntry fp = false ∧ keeps = false then .stuck
      else listChecked keeps rest (if keepsEntry fp then kept ++ [fp] else []) newchain
    else .stuck

/-- A memory with a new chain stands for the list of what is on the chain. -/
def Stands (m₀ : Mem) (done rest : List Entry) (base : Option ℕ) (st : Mem × Option ℕ)
    (newchain : List AfpFileInfo) : Prop :=
  ∃ news, Inv m₀ done rest st.1 base st.2 news ∧ newchain = news.map Prod.snd

theorem length_commentString_lt {fp : AfpFileInfo}
    (h : (fp.name ++ finderinfoString).length < AFP_MAX_PATH) :
    (fp.name ++ commentString).length < AFP_MAX_PATH := by
  have hlt : commentString.length < finderinfoString.length := by decide
  rw [List.length_append] at h ⊢
  omega

/-- The entry for the comment. -/
theorem lockstep_addComment (hstart : Start m₀ base₀ (done ++ rest))
    (h : Inv m₀ done rest m base newchain news) {fp : AfpFileInfo}
    (hfits : (fp.name ++ finderinfoString).length < AFP_MAX_PATH) :
    Prog.Lockstep (Stands m₀ done rest base) (addComment m newchain fp)
      (Afpfs.addComment fp (news.map Prod.snd)) := by
  rw [addComment, Afpfs.addComment]
  refine Prog.Lockstep.bind_left fun size => Prog.lockstep_ite (fun _ => ?_) fun _ => ?_
  · rw [Listing.addFp, if_pos (length_commentString_lt hfits)]
    exact .done ⟨_, h.addFp hstart _, rfl⟩
  · exact .done ⟨news, h, rfl⟩

/-- **The walk over the nodes** is the walk over the entries. -/
theorem lockstep_listChain {limit fuel : ℕ} {last : Option ℕ}
    (hstart : Start m₀ base₀ (done ++ rest)) (hlimit : (done ++ rest).length ≤ limit)
    (hfuel : rest.length ≤ fuel) (h : Inv m₀ done rest m base newchain news)
    (hlast : last = done.getLast?.map Entry.addr)
    (hkept : keeps = false → ∀ e ∈ done, keepsEntry e.info = true) :
    Prog.Lockstep (fun (w : Walk) (l : List AfpFileInfo × List AfpFileInfo) =>
        Stands m₀ (done ++ rest) [] w.base (w.mem, w.newchain) l.2 ∧
          l.1 = (keptOf (done ++ rest)).map Entry.info ∧
          w.last = (done ++ rest).getLast?.map Entry.addr ∧
          (keeps = false → ∀ e ∈ done ++ rest, keepsEntry e.info = true))
      (listChain keeps limit fuel ⟨m, base, newchain, last⟩ (rest.head?.map Entry.addr))
      (listChecked keeps (rest.map Entry.info) ((keptOf done).map Entry.info)
        (news.map Prod.snd)) := by
  induction rest generalizing done m base newchain news fuel last with
  | nil =>
    rw [List.append_nil]
    rw [List.head?_nil, Option.map_none, List.map_nil, listChain, listChecked]
    exact .done ⟨⟨news, h, rfl⟩, rfl, hlast, hkept⟩
  | cons e rest ih =>
    cases fuel with
    | zero => exact absurd hfuel (by simp)
    | succ fuel =>
      obtain ⟨n, hn, hget, hinfo, hnext⟩ := @Inv.get _ _ _ _ _ _ _ _ _ keeps hstart h
      rw [List.head?_cons, Option.map_some, List.map_cons, listChain, listChecked, hget]
      rw [ofOption_some_bind, hinfo, Listing.addFp]
      by_cases hfits : (e.info.name ++ finderinfoString).length < AFP_MAX_PATH
      swap
      · rw [if_neg hfits, if_neg hfits]
        exact .stuck
      rw [if_pos hfits, if_pos hfits, ofOption_some_bind]
      have hadd := h.addFp hstart (Afpfs.addFp e.info finderinfoString 32)
      refine Prog.Lockstep.bind_left fun opened => ?_
      have hcomment : Prog.Lockstep (Stands m₀ done (e :: rest) base)
          (if opened = 0 then addComment (m.store ⟨Afpfs.addFp e.info finderinfoString 32, newchain⟩)
            (some m.brk) e.info else pure (m.store _, some m.brk))
          (if opened = 0 then Afpfs.addComment e.info
            (Afpfs.addFp e.info finderinfoString 32 :: news.map Prod.snd) else pure _) :=
        Prog.lockstep_ite (fun _ => lockstep_addComment hstart hadd hfits) fun _ =>
          .done ⟨_, hadd, rfl⟩
      refine hcomment.bind ?_
      rintro ⟨m', newchain'⟩ _ ⟨news', hnews, rfl⟩
      obtain ⟨n', hn', hget', -, hnext'⟩ := @Inv.get _ _ _ _ _ _ _ _ _ keeps hstart hnews
      -- the rest of the iteration reads the link of the node, which is what it was
      have hsplit : done ++ e :: rest = done ++ [e] ++ rest := by
        rw [List.append_assoc, List.singleton_append]
      have hgo {m'' : Mem} {base'' : Option ℕ}
          (hinv : Inv m₀ (done ++ [e]) rest m'' base'' newchain' news')
          (hread : m''.get keeps e.addr = some n')
          (hkeep : keeps = false → keepsEntry e.info = true) :
          Prog.Lockstep (fun (w : Walk) (l : List AfpFileInfo × List AfpFileInfo) =>
              Stands m₀ (done ++ e :: rest) [] w.base (w.mem, w.newchain) l.2 ∧
                l.1 = (keptOf (done ++ e :: rest)).map Entry.info ∧
                w.last = (done ++ e :: rest).getLast?.map Entry.addr ∧
                (keeps = false → ∀ e' ∈ done ++ e :: rest, keepsEntry e'.info = true))
            (ofOption (m''.get keeps e.addr) >>= fun n =>
              listChain keeps limit fuel ⟨m'', base'', newchain', some e.addr⟩ n.next)
            (listChecked keeps (rest.map Entry.info) ((keptOf (done ++ [e])).map Entry.info)
              (news'.map Prod.snd)) := by
        rw [hread, ofOption_some_bind, hnext', hsplit]
        refine ih (hsplit ▸ hstart) (hsplit ▸ hlimit) (Nat.le_of_succ_le_succ hfuel) hinv ?_ ?_
        · rw [List.getLast?_concat, Option.map_some]
        · exact fun hstrict => List.forall_mem_append.mpr
            ⟨hkept hstrict, List.forall_mem_singleton.mpr (hkeep hstrict)⟩
      show Prog.Lockstep _ (ofOption (if keepsEntry e.info = true then some (m', base) else
        removeFp keeps e.addr limit m' base base none) >>= _) _
      by_cases hkeep : keepsEntry e.info = true
      · rw [if_pos hkeep, if_neg (fun hdrop => Bool.noConfusion (hkeep.symm.trans hdrop.1)),
          if_pos hkeep]
        have hinfos : (keptOf done).map Entry.info ++ [e.info] =
            (keptOf (done ++ [e])).map Entry.info := by
          rw [keptOf_concat, if_pos hkeep, List.map_append, List.map_singleton]
        rw [ofOption_some_bind, hinfos]
        exact hgo (hnews.keep hkeep) hget' fun _ => hkeep
      · have hdrop : keepsEntry e.info = false := Bool.eq_false_iff.mpr hkeep
        rw [if_neg hkeep, if_neg hkeep, hnews.removeFp hstart hlimit]
        cases keeps with
        | false =>
          rw [if_neg Bool.false_ne_true, ofOption_none_bind, if_pos (And.intro hdrop rfl)]
          exact .stuck
        | true =>
          rw [if_pos rfl, if_neg (fun h => Bool.noConfusion h.2), ofOption_some_bind]
          have hinfos : ([] : List AfpFileInfo) = (keptOf (done ++ [e])).map Entry.info := by
            rw [keptOf_concat, if_neg hkeep, List.map_nil]
          rw [hinfos]
          exact hgo (hnews.remove hdrop) ((Mem.get_true _ _).trans hn') fun h => Bool.noConfusion h

/-! ## The end of the walk -/

/-- The list that is left: what is kept, and behind it the new nodes, unless nothing is. -/
def leftOf (es : List Entry) (news : List (ℕ × AfpFileInfo)) : List ℕ :=
  if keptOf es = [] then [] else (keptOf es).map Entry.addr ++ news.map Prod.fst

/-- What `appledouble_readdir()` leaves. -/
structure Left (m₀ : Mem) (es : List Entry) (m : Mem) (base : Option ℕ)
    (news : List (ℕ × AfpFileInfo)) : Prop where
  linked : Linked m.node Node.next base (leftOf es news)
  infos : ∀ e ∈ es, (m.node e.addr).map Node.info = some e.info
  newInfos : ∀ x ∈ news, (m.node x.1).map Node.info = some x.2
  newBound : ∀ x ∈ news, m₀.brk ≤ x.1
  freed : m.freed = (removedOf es).reverse ++ m₀.freed

theorem Start.addr_ne (hstart : Start m₀ base₀ done) (h : Inv m₀ done rest m base newchain news)
    (he : e ∈ done) {x : ℕ × AfpFileInfo} (hx : x ∈ news) : x.1 ≠ e.addr := fun heq =>
  absurd (heq ▸ hstart.bound e he) (Nat.not_lt.mpr (h.newBound x hx).1)

/-- Appending the chain to the node that was visited last. -/
theorem Inv.append {es : List Entry} (hstart : Start m₀ base₀ (es ++ [e]))
    (h : Inv m₀ (es ++ [e]) [] m base newchain news)
    (hkeeps : keeps = false → keepsEntry e.info = true) :
    ∃ m', m.setNext keeps e.addr newchain = some m' ∧ Left m₀ (es ++ [e]) m' base news := by
  have hmem : e ∈ es ++ [e] := List.mem_append_right es List.mem_cons_self
  obtain ⟨n, hn, hinfo⟩ := Option.map_eq_some_iff.mp (h.infos e (List.mem_append_left [] hmem))
  have hlinked := h.linked
  rw [List.append_nil] at hlinked
  have hget : m.get keeps e.addr = some n := by
    cases keeps with
    | true => rw [Mem.get_true, hn]
    | false =>
      have hkept : e ∈ keptOf (es ++ [e]) ++ [] := by
        rw [keptOf_concat, if_pos (hkeeps rfl), List.append_nil]
        exact List.mem_append_right _ List.mem_cons_self
      rw [Mem.get_of_alive (h.alive (by rwa [List.append_nil]) e hkept), hn]
  refine ⟨{ m with node := Function.update m.node e.addr (some { n with next := newchain }) },
    by rw [Mem.setNext, hget, Option.map_some], ?_, fun e' he' => ?_, fun x hx => ?_,
    fun x hx => (h.newBound x hx).1, h.freed⟩
  · rw [leftOf]
    by_cases hkeep : keepsEntry e.info = true
    · have hkept : keptOf (es ++ [e]) = keptOf es ++ [e] := by rw [keptOf_concat, if_pos hkeep]
      rw [hkept] at hlinked ⊢
      rw [if_neg (List.append_ne_nil_of_right_ne_nil _ (List.cons_ne_nil e [])), List.map_append,
        List.append_assoc]
      rw [List.map_append] at hlinked
      refine hlinked.append ?_ rfl h.chain
      intro hnew
      obtain ⟨x, hx, heq⟩ := List.mem_map.mp hnew
      exact hstart.addr_ne h hmem hx heq
    · have hkept : keptOf (es ++ [e]) = [] := by rw [keptOf_concat, if_neg hkeep]
      rw [hkept] at hlinked ⊢
      rw [if_pos rfl, hlinked.eq_head?]
      exact linked_none.mpr rfl
  · show (Function.update m.node e.addr _ e'.addr).map Node.info = _
    by_cases heq : e'.addr = e.addr
    · obtain rfl := hstart.eq_of_addr he' hmem heq
      rw [Function.update_self, Option.map_some, ← hinfo]
    · rw [Function.update_of_ne heq]
      exact h.infos e' (List.mem_append_left [] he')
  · show (Function.update m.node e.addr _ x.1).map Node.info = _
    rw [Function.update_of_ne (hstart.addr_ne h hmem hx)]
    exact h.newInfos x hx

/-- Nothing to append, or nothing to append it to. -/
theorem Inv.left {es : List Entry} (h : Inv m₀ es [] m base newchain news)
    (hnil : es = [] ∨ news = []) : Left m₀ es m base news := by
  have hlinked := h.linked
  have hinfos := h.infos
  rw [List.append_nil] at hlinked hinfos
  refine ⟨?_, hinfos, h.newInfos, fun x hx => (h.newBound x hx).1, h.freed⟩
  rw [leftOf]
  by_cases hkept : keptOf es = []
  · rw [if_pos hkept]
    rwa [hkept] at hlinked
  · rcases hnil with rfl | rfl
    · exact absurd rfl hkept
    · rwa [if_neg hkept, List.map_nil, List.append_nil]

/-- The whole listing, after the checks. -/
theorem lockstep_listVirtual {es : List Entry} (hstart : Start m₀ base₀ es) {fuel : ℕ}
    (hfuel : es.length ≤ fuel) :
    Prog.Lockstep (fun (st : Mem × Option ℕ) (l : List AfpFileInfo × List AfpFileInfo) =>
        ∃ news, Left m₀ es st.1 st.2 news ∧ l = ((keptOf es).map Entry.info, news.map Prod.snd))
      (listVirtual keeps fuel m₀ base₀) (listChecked keeps (es.map Entry.info) [] []) := by
  have hbase : base₀ = es.head?.map Entry.addr := by
    rw [hstart.linked.eq_head?, List.head?_map]
  have hwalk := @lockstep_listChain m₀ m₀ base₀ base₀ none [] es [] keeps fuel fuel none hstart
    hfuel hfuel (.start hstart) rfl fun _ e he => absurd he List.not_mem_nil
  rw [← hbase] at hwalk
  rw [listVirtual, ← bind_pure (listChecked keeps _ _ _)]
  refine hwalk.bind ?_
  rintro ⟨m, base, newchain, last⟩ ⟨kept, infos⟩ ⟨⟨news, hnews, rfl⟩, rfl, rfl, hkept⟩
  rcases List.eq_nil_or_concat' es with rfl | ⟨es, e, rfl⟩
  · have hleft : Left m₀ [] m base news := hnews.left (.inl rfl)
    cases newchain <;> exact .done ⟨news, hleft, rfl⟩
  · cases newchain with
    | none =>
      have hnil : news = [] := List.map_eq_nil_iff.mp (linked_none.mp hnews.chain)
      exact .done ⟨news, hnews.left (.inr hnil), rfl⟩
    | some chain =>
      obtain ⟨m', hset, hleft⟩ := Inv.append hstart hnews fun hstrict =>
        hkept hstrict e (List.mem_append_right es List.mem_cons_self)
      rw [List.nil_append, List.getLast?_concat, Option.map_some, appendChain]
      show Prog.Lockstep _ (ofOption (m.setNext keeps e.addr (some chain)) >>= _) _
      rw [hset, ofOption_some_bind]
      exact .done ⟨news, hleft, rfl⟩

end Walk

/-! ## The walk over the entries -/

section Entries

variable {keeps : Bool} {l kept newchain : List AfpFileInfo}

/-- Without the checks it is the loop of the other modules. -/
theorem listChecked_eq (hfits : ∀ fp ∈ l, (fp.name ++ finderinfoString).length < AFP_MAX_PATH)
    (hkeeps : keeps = false → ∀ fp ∈ l, keepsEntry fp = true) :
    listChecked keeps l kept newchain = listLoop l kept newchain := by
  induction l generalizing kept newchain with
  | nil => rfl
  | cons fp l ih =>
    obtain ⟨hfp, hrest⟩ := List.forall_mem_cons.mp hfits
    have hdefined : ¬ (keepsEntry fp = false ∧ keeps = false) := fun h =>
      Bool.noConfusion (h.1.symm.trans (hkeeps h.2 fp List.mem_cons_self))
    have hkeeps' : keeps = false → ∀ fp ∈ l, keepsEntry fp = true := fun h fp hmem =>
      hkeeps h fp (List.mem_cons_of_mem _ hmem)
    simp only [listChecked, listLoop, if_pos hfp, if_neg hdefined, ih hrest hkeeps']

variable (comment : UInt32 → CString → List UInt8)

theorem yields_openDesktop : Prog.Yields (Serves comment) (· = 0) openDesktop := by
  rintro ⟨rc, stored⟩ hreply
  have hrc : rc = 0 := hreply
  cases stored with
  | none => exact hrc
  | some refnum => exact fun _ _ => hrc

theorem yields_dtrefnum : Prog.Yields (Serves comment) (fun _ => True) dtrefnum :=
  fun _ _ => trivial

theorem yields_ensureDtOpened : Prog.Yields (Serves comment) (· = 0) ensureDtOpened := by
  rw [ensureDtOpened]
  refine (yields_dtrefnum comment).bind fun refnum _ => ?_
  exact Prog.yields_ite (fun _ => rfl) fun _ => yields_openDesktop comment

theorem yields_getCommentSize (basename : CString) (did : UInt32) :
    Prog.Yields (Serves comment) (fun size => 0 < size ↔ comment did basename ≠ [])
      (getCommentSize basename did) := by
  rw [getCommentSize]
  refine (yields_dtrefnum comment).bind fun refnum _ => ?_
  have hopened : Prog.Yields (Serves comment) (· = 0)
      (if (refnum : UInt16) = 0 then openDesktop else pure 0) :=
    Prog.yields_ite (fun _ => yields_openDesktop comment) fun _ => rfl
  refine hopened.bind fun opened hzero => ?_
  rw [if_neg (Int.not_lt.mpr (Int.le_of_eq hzero.symm))]
  rintro ⟨rc, stored⟩ hreply
  rcases hreply with ⟨hrc, hstored⟩ | ⟨hnil, hrc⟩
  · obtain rfl : rc = kFPNoErr := hrc
    obtain rfl : stored = some ((comment did basename).take 1024) := hstored
    show 0 < (((comment did basename).take 1024).length : ℤ) ↔ _
    rw [Int.natCast_pos, List.length_pos_iff, ne_eq, List.take_eq_nil_iff]
    simp
  · obtain rfl : rc = kFPItemNotFound := hrc
    exact iff_of_false (show ¬ (0 : ℤ) < -ENOENT by decide) fun h => h hnil

/-- The new nodes for one entry. -/
theorem yields_comment (fp : AfpFileInfo) (newchain : List AfpFileInfo) (opened : ℤ)
    (hopened : opened = 0) :
    Prog.Yields (Serves comment)
      (fun chain => chain.map AfpFileInfo.name =
        (virtualNames comment fp).reverse ++ newchain.map AfpFileInfo.name)
      (if opened = 0 then Afpfs.addComment fp (Afpfs.addFp fp finderinfoString 32 :: newchain)
        else pure (Afpfs.addFp fp finderinfoString 32 :: newchain)) := by
  rw [if_pos hopened, Afpfs.addComment]
  refine (yields_getCommentSize comment fp.name fp.did).bind fun size hsize => ?_
  rw [virtualNames]
  by_cases hpos : 0 < size
  · rw [if_pos hpos, if_neg (hsize.mp hpos)]
    rfl
  · rw [if_neg hpos, if_pos (of_not_not (mt hsize.mpr hpos))]
    rfl

/-- The names of the new nodes, the last one first. -/
theorem yields_listChecked (hfits : ∀ fp ∈ l, (fp.name ++ finderinfoString).length < AFP_MAX_PATH)
    (hkeeps : keeps = false → ∀ fp ∈ l, keepsEntry fp = true) :
    Prog.Yields (Serves comment)
      (fun r => r.2.map AfpFileInfo.name =
        (l.flatMap (virtualNames comment)).reverse ++ newchain.map AfpFileInfo.name)
      (listChecked keeps l kept newchain) := by
  induction l generalizing kept newchain with
  | nil => rfl
  | cons fp l ih =>
    obtain ⟨hfp, hrest⟩ := List.forall_mem_cons.mp hfits
    have hdefined : ¬ (keepsEntry fp = false ∧ keeps = false) := fun h =>
      Bool.noConfusion (h.1.symm.trans (hkeeps h.2 fp List.mem_cons_self))
    have hkeeps' : keeps = false → ∀ fp ∈ l, keepsEntry fp = true := fun h fp hmem =>
      hkeeps h fp (List.mem_cons_of_mem _ hmem)
    rw [listChecked, if_pos hfp]
    refine (yields_ensureDtOpened comment).bind fun opened hopened => ?_
    refine (yields_comment comment fp newchain opened hopened).bind fun chain hchain => ?_
    rw [if_neg hdefined]
    refine (ih hrest hkeeps').mono fun r hr => ?_
    rw [hr, hchain, List.flatMap_cons, List.reverse_append, List.append_assoc]

theorem serves_answer (e : Effect) : ∃ r, Serves comment ⟨e, r⟩ := by
  cases e with
  | request r =>
    cases r with
    | openDT => exact ⟨⟨kFPNoErr, none⟩, rfl⟩
    | getComment did pathname maxsize => exact ⟨⟨kFPNoErr, some _⟩, .inl ⟨rfl, rfl⟩⟩
    | _ => exact ⟨⟨-1, none⟩, trivial⟩
  | _ => exact ⟨Effect.zeroAnswer _, trivial⟩

/-- A walk that is not stuck has come across nothing that is undefined. -/
theorem of_yields_listChecked
    (h : Prog.Yields (Serves comment) (fun _ => True) (listChecked keeps l kept newchain)) :
    (∀ fp ∈ l, (fp.name ++ finderinfoString).length < AFP_MAX_PATH) ∧
      (keeps = false → ∀ fp ∈ l, keepsEntry fp = true) := by
  induction l generalizing kept newchain with
  | nil => exact ⟨fun fp h => absurd h List.not_mem_nil, fun _ fp h => absurd h List.not_mem_nil⟩
  | cons fp l ih =>
    rw [listChecked] at h
    by_cases hfp : (fp.name ++ finderinfoString).length < AFP_MAX_PATH
    swap
    · rw [if_neg hfp] at h
      exact h.elim
    rw [if_pos hfp] at h
    obtain ⟨opened, hopened, h⟩ :=
      h.of_bind (yields_ensureDtOpened comment) (serves_answer comment)
    obtain ⟨chain, -, h⟩ :=
      h.of_bind (yields_comment comment fp newchain opened hopened) (serves_answer comment)
    by_cases hdefined : keepsEntry fp = false ∧ keeps = false
    · rw [if_pos hdefined] at h
      exact h.elim
    · rw [if_neg hdefined] at h
      obtain ⟨hfits, hkept⟩ := ih h
      refine ⟨List.forall_mem_cons.mpr ⟨hfp, hfits⟩, fun hstrict => ?_⟩
      refine List.forall_mem_cons.mpr ⟨?_, hkept hstrict⟩
      exact Bool.eq_true_of_not_eq_false fun hdrop => hdefined ⟨hdrop, hstrict⟩

end Entries

/-! ## What is left -/

theorem keptOf_eq {removed kept : List Entry} (hremoved : ∀ e ∈ removed, keepsEntry e.info = false)
    (hkept : ∀ e ∈ kept, keepsEntry e.info = true) : keptOf (removed ++ kept) = kept := by
  rw [keptOf, List.rtakeWhile, List.reverse_append, List.takeWhile_append_of_pos]
  · have hnil : removed.reverse.takeWhile (fun e => keepsEntry e.info) = [] := by
      cases hrev : removed.reverse with
      | nil => rfl
      | cons e l =>
        have hmem : e ∈ removed := List.mem_reverse.mp (hrev ▸ List.mem_cons_self)
        rw [List.takeWhile_cons_of_neg (by rw [hremoved e hmem]; exact Bool.false_ne_true)]
    rw [hnil, List.append_nil, List.reverse_reverse]
  · exact fun e he => hkept e (List.mem_reverse.mp he)

section Left

variable {m₀ m : Mem} {base₀ base : Option ℕ} {es : List Entry} {news : List (ℕ × AfpFileInfo)}

/-- The nodes of the entries in the list that is left are those of the entries that are kept. -/
theorem Left.mem_iff (hstart : Start m₀ base₀ es) (h : Left m₀ es m base news) {e : Entry}
    (he : e ∈ es) : e.addr ∈ leftOf es news ↔ e ∈ keptOf es := by
  have hnews : e.addr ∉ news.map Prod.fst := by
    intro hmem
    obtain ⟨x, hx, heq⟩ := List.mem_map.mp hmem
    exact absurd (heq ▸ hstart.bound e he) (Nat.not_lt.mpr (h.newBound x hx))
  rw [leftOf]
  by_cases hnil : keptOf es = []
  · rw [if_pos hnil, hnil]
    exact iff_of_false List.not_mem_nil List.not_mem_nil
  · rw [if_neg hnil, List.mem_append, or_iff_left hnews]
    constructor
    · intro hmem
      obtain ⟨e', he', heq⟩ := List.mem_map.mp hmem
      exact hstart.eq_of_addr (keptOf_subset he') he heq ▸ he'
    · exact List.mem_map_of_mem

theorem mem_removedOf_iff (hstart : Start m₀ base₀ es) {e : Entry} (he : e ∈ es) :
    e.addr ∈ removedOf es ↔ keepsEntry e.info = false := by
  constructor
  · intro hmem
    obtain ⟨e', he', heq⟩ := List.mem_map.mp hmem
    obtain ⟨hmem', hdrop⟩ := List.mem_filter.mp he'
    exact hstart.eq_of_addr hmem' he heq ▸ of_decide_eq_true hdrop
  · exact fun hdrop => List.mem_map_of_mem (List.mem_filter.mpr ⟨he, decide_eq_true hdrop⟩)

/-- A node of an entry was freed once if the entry was removed, and not at all if it was kept. -/
theorem Left.count_freed (hstart : Start m₀ base₀ es) (h : Left m₀ es m base news) {e : Entry}
    (he : e ∈ es) : m.freed.count e.addr = if keepsEntry e.info then 0 else 1 := by
  have hnodup : (removedOf es).Nodup :=
    hstart.linked.nodup.sublist (List.filter_sublist.map Entry.addr)
  rw [h.freed, List.count_append, List.count_reverse, List.count_eq_zero.mpr (hstart.alive e he),
    Nat.add_zero]
  cases hkeep : keepsEntry e.info with
  | true =>
    refine List.count_eq_zero.mpr fun hmem => ?_
    exact Bool.noConfusion (hkeep.symm.trans ((mem_removedOf_iff hstart he).mp hmem))
  | false => exact List.count_eq_one_of_mem hnodup ((mem_removedOf_iff hstart he).mpr hkeep)

variable {comment : UInt32 → CString → List UInt8}

/-- What makes the list that is left the one that is expected. -/
theorem ListedAs.meets (hstart : Start m₀ base₀ es) (h : Left m₀ es m base news)
    (hlisted : ListedAs comment es m base (leftOf es news)) :
    (∀ e ∈ es, keepsEntry e.info = e.wanted) ∧ RemovedFirst es := by
  have hkept (e : Entry) (he : e ∈ es) : e ∈ keptOf es ↔ keepsEntry e.info = true := by
    refine ⟨keepsEntry_of_mem_keptOf, fun hkeep => of_not_not fun hlost => ?_⟩
    -- a node that is lost was not freed
    have hcount := hlisted.freed e he (mt (h.mem_iff hstart he).mp hlost)
    rw [h.count_freed hstart he, if_pos hkeep] at hcount
    exact absurd hcount (by decide)
  refine ⟨fun e he => ?_, ?_⟩
  · rw [Bool.eq_iff_iff, ← hkept e he, ← hlisted.entries e he, h.mem_iff hstart he]
  · by_cases hnil : es = []
    · exact .inl hnil
    refine .inr ⟨es.rdropWhile fun e => keepsEntry e.info, keptOf es,
      List.rdropWhile_append_rtakeWhile.symm, fun hnone => ?_, fun e he => ?_,
      fun e he => keepsEntry_of_mem_keptOf he⟩
    · have hothers := hlisted.others
      rw [leftOf, if_pos hnone] at hothers
      have hempty := hothers.nil_eq
      rw [eq_comm, List.map_eq_nil_iff, List.flatMap_eq_nil_iff] at hempty
      obtain ⟨e, he⟩ := List.exists_mem_of_ne_nil es hnil
      exact List.cons_ne_nil _ _ (hempty e he)
    · refine Bool.eq_false_iff.mpr fun hkeep => ?_
      have hmem : e ∈ es := (List.rdropWhile_prefix _ es).subset he
      have hnodup : es.Nodup := List.Nodup.of_map _ hstart.linked.nodup
      rw [← List.rdropWhile_append_rtakeWhile (p := fun e : Entry => keepsEntry e.info) (l := es)]
        at hnodup
      exact (List.nodup_append.mp hnodup).2.2 e he e ((hkept e hmem).mpr hkeep) rfl

/-- It is the list that is expected then. -/
theorem Left.listedAs (hstart : Start m₀ base₀ es) (h : Left m₀ es m base news)
    (hnames : (news.map Prod.snd).map AfpFileInfo.name =
      ((es.map Entry.info).flatMap (virtualNames comment)).reverse)
    (hrecognised : ∀ e ∈ es, keepsEntry e.info = e.wanted) (hfront : RemovedFirst es) :
    ListedAs comment es m base (leftOf es news) := by
  have hkept (e : Entry) (he : e ∈ es) : e ∈ keptOf es ↔ keepsEntry e.info = true := by
    refine ⟨keepsEntry_of_mem_keptOf, fun hkeep => ?_⟩
    rcases hfront with rfl | ⟨removed, kept, rfl, -, hremoved, hall⟩
    · exact absurd he List.not_mem_nil
    · rw [keptOf_eq hremoved hall]
      rcases List.mem_append.mp he with hmem | hmem
      · exact absurd ((hremoved e hmem).symm.trans hkeep) Bool.false_ne_true
      · exact hmem
  have hleft : leftOf es news = (keptOf es).map Entry.addr ++ news.map Prod.fst := by
    rcases hfront with rfl | ⟨removed, kept, rfl, hne, hremoved, hall⟩
    · have hnil : news = [] := List.map_eq_nil_iff.mp (List.map_eq_nil_iff.mp hnames)
      rw [hnil]
      rfl
    · rw [leftOf, if_neg (by rwa [keptOf_eq hremoved hall])]
  refine ⟨h.linked, fun e he => ?_, fun e he => ?_, ?_, ?_, fun e he hlost => ?_⟩
  · rw [h.mem_iff hstart he, hkept e he, hrecognised e he]
  · have hinfo := congrArg (Option.map AfpFileInfo.name) (h.infos e he)
    rwa [Option.map_map] at hinfo
  · have hold : ((keptOf es).map Entry.addr).filter (· ∉ es.map Entry.addr) = [] := by
      refine List.filter_eq_nil_iff.mpr fun a ha hout => of_decide_eq_true hout ?_
      exact List.map_subset _ (fun _ => keptOf_subset) ha
    have hnew : (news.map Prod.fst).filter (· ∉ es.map Entry.addr) = news.map Prod.fst := by
      refine List.filter_eq_self.mpr fun a ha => decide_eq_true fun hmem => ?_
      obtain ⟨x, hx, rfl⟩ := List.mem_map.mp ha
      obtain ⟨e, he, heq⟩ := List.mem_map.mp hmem
      exact absurd (heq ▸ hstart.bound e he) (Nat.not_lt.mpr (h.newBound x hx))
    have hnameAt : (news.map Prod.fst).map (nameAt m) =
        ((news.map Prod.snd).map AfpFileInfo.name).map some := by
      rw [List.map_map, List.map_map, List.map_map]
      refine List.map_congr_left fun x hx => ?_
      have hinfo := congrArg (Option.map AfpFileInfo.name) (h.newInfos x hx)
      rwa [Option.map_map] at hinfo
    rw [hleft, List.filter_append, hold, hnew, List.nil_append, hnameAt, hnames, List.flatMap_map]
    exact (List.reverse_perm _).map some
  · intro a ha hfreed
    rw [hleft] at ha
    rcases List.mem_append.mp ha with hold | hnew
    · obtain ⟨e, he, rfl⟩ := List.mem_map.mp hold
      have hcount := h.count_freed hstart (keptOf_subset he)
      rw [if_pos (keepsEntry_of_mem_keptOf he)] at hcount
      exact List.count_eq_zero.mp hcount hfreed
    · obtain ⟨x, hx, rfl⟩ := List.mem_map.mp hnew
      refine absurd (h.newBound x hx) (Nat.not_le.mpr ?_)
      rw [h.freed, List.mem_append, List.mem_reverse] at hfreed
      rcases hfreed with hremoved | hbefore
      · obtain ⟨e, he, heq⟩ := List.mem_map.mp hremoved
        exact heq ▸ hstart.bound e (List.mem_of_mem_filter he)
      · exact hstart.freedBound _ hbefore
  · rw [h.mem_iff hstart he, hkept e he] at hlost
    rw [h.count_freed hstart he, if_neg hlost]

/-- The directories for which the list that is left is the one that is expected. -/
theorem Left.listed_iff (hstart : Start m₀ base₀ es) (h : Left m₀ es m base news)
    (hnames : (news.map Prod.snd).map AfpFileInfo.name =
      ((es.map Entry.info).flatMap (virtualNames comment)).reverse) :
    Listed comment es m base ↔ (∀ e ∈ es, keepsEntry e.info = e.wanted) ∧ RemovedFirst es := by
  constructor
  · rintro ⟨l, hl⟩
    obtain rfl := hl.linked.unique h.linked
    exact hl.meets hstart h
  · exact fun hmeets => ⟨_, h.listedAs hstart hnames hmeets.1 hmeets.2⟩

end Left

/-! ## The main results -/

/-- **The nodes stand for the entries**: the list at `*base` is what `appledouble_readdir()` is
in the other modules. -/
theorem lockstep_listLoop {m : Mem} {base : Option ℕ} {es : List Entry} (hstart : Start m base es)
    (hfits : ∀ e ∈ es, (e.info.name ++ finderinfoString).length < AFP_MAX_PATH) {fuel : ℕ}
    (hfuel : es.length ≤ fuel) :
    Prog.Lockstep (fun (st : Mem × Option ℕ) (r : List AfpFileInfo × List AfpFileInfo) =>
        ∃ l, Linked st.1.node Node.next st.2 l ∧
          l.map (fun a => (st.1.node a).map Node.info) =
            (if r.1 = [] then [] else r.1 ++ r.2).map some)
      (listVirtual true fuel m base) (listLoop (es.map Entry.info) [] []) := by
  have hwalk := @lockstep_listVirtual m base true es hstart fuel hfuel
  rw [listChecked_eq (List.forall_mem_map.mpr hfits) fun h => Bool.noConfusion h] at hwalk
  refine hwalk.mono ?_
  rintro st _ ⟨news, hst, rfl⟩
  refine ⟨leftOf es news, hst.linked, ?_⟩
  rw [leftOf]
  by_cases hnil : keptOf es = []
  · rw [if_pos hnil, if_pos (List.map_eq_nil_iff.mpr hnil)]
    rfl
  · rw [if_neg hnil, if_neg (mt List.map_eq_nil_iff.mp hnil), List.map_append, List.map_append,
      List.map_map, List.map_map, List.map_map, List.map_map]
    refine congrArg₂ (· ++ ·) (List.map_congr_left fun e he => ?_) (List.map_congr_left fun x hx => ?_)
    · exact hst.infos e (keptOf_subset he)
    · exact hst.newInfos x hx

section Listing

variable {keeps : Bool} {comment : UInt32 → CString → List UInt8} {m : Mem} {base : Option ℕ}
  {es : List Entry} {fuel : ℕ}

theorem meets_of_yields (hstart : Start m base es) (hfuel : es.length ≤ fuel)
    (h : Prog.Yields (Serves comment) (fun st => Listed comment es st.1 st.2)
      (listVirtual keeps fuel m base)) : Meets keeps es := by
  have hwalk := @lockstep_listVirtual m base keeps es hstart fuel hfuel
  obtain ⟨hfits, hkept⟩ := of_yields_listChecked comment (hwalk.yields_true h)
  have hleft := hwalk.yields (yields_listChecked comment hfits hkept)
  obtain ⟨-, st, -, hlisted, r, ⟨news, hst, rfl⟩, hnames⟩ :=
    (h.and hleft).exists_steps (serves_answer comment)
  rw [List.map_nil, List.append_nil] at hnames
  obtain ⟨hrecognised, hfront⟩ := (hst.listed_iff hstart hnames).mp hlisted
  rw [List.forall_mem_map] at hfits
  exact ⟨hfits, hrecognised, hfront, fun hstrict => List.forall_mem_map.mp (hkept hstrict)⟩

theorem yields_of_meets (hstart : Start m base es) (hfuel : es.length ≤ fuel) (h : Meets keeps es) :
    Prog.Yields (Serves comment) (fun st => Listed comment es st.1 st.2)
      (listVirtual keeps fuel m base) := by
  have hwalk := @lockstep_listVirtual m base keeps es hstart fuel hfuel
  refine (hwalk.yields (yields_listChecked comment (List.forall_mem_map.mpr h.fits)
    fun hstrict => List.forall_mem_map.mpr (h.defined hstrict))).mono ?_
  rintro st ⟨r, ⟨news, hst, rfl⟩, hnames⟩
  rw [List.map_nil, List.append_nil] at hnames
  exact (hst.listed_iff hstart hnames).mpr ⟨h.recognised, h.front⟩

end Listing

/-- **The listing of `.AppleDouble`**, with what a freed node still holds (`keeps`) and without. -/
theorem listing_iff (keeps : Bool) (comment : UInt32 → CString → List UInt8) {m : Mem}
    {base : Option ℕ} {es : List Entry} (hstart : Start m base es) {fuel : ℕ}
    (hfuel : es.length ≤ fuel) :
    Prog.Yields (Serves comment) (fun st => Listed comment es st.1 st.2)
      (listVirtual keeps fuel m base) ↔ Meets keeps es :=
  ⟨meets_of_yields hstart hfuel, yields_of_meets hstart hfuel⟩

/-- A list of one node. -/
def oneNode (info : AfpFileInfo) : Mem where
  node a := if a = 0 then some ⟨info, none⟩ else none
  brk := 1
  freed := []

theorem start_oneNode (info : AfpFileInfo) (regular : Bool) (rsrcLen : ℕ) :
    Start (oneNode info) (some 0) [⟨0, info, regular, rsrcLen⟩] where
  linked := linked_some_cons.mpr ⟨rfl, ⟨info, none⟩, rfl, linked_none.mpr rfl⟩
  infos := List.forall_mem_singleton.mpr rfl
  alive := fun _ _ => List.not_mem_nil
  bound := List.forall_mem_singleton.mpr Nat.zero_lt_one
  freedBound := fun _ h => absurd h List.not_mem_nil

/-- A directory without a name, as the server describes it. -/
def directory : AfpFileInfo :=
  { AfpFileInfo.zero with isdir := true, unixprivs := ⟨0, 0, 0o040700, 0⟩ }

/-- A list of one directory, and no comments. -/
theorem listing_iff_of_directory :
    Prog.Yields (Serves fun _ _ => [])
      (fun st => Listed (fun _ _ => []) [⟨0, directory, false, 0⟩] st.1 st.2)
      (listVirtual true 1 (oneNode directory) (some 0)) ↔ Meets true [⟨0, directory, false, 0⟩] :=
  listing_iff true (fun _ _ => []) (start_oneNode directory false 0) (Nat.le_refl 1)

/-- **A directory at the end.**  The new nodes are appended to the node of the last entry, which is a
directory and was removed, so the list is empty.  The memory that was freed may hold what it held. -/
theorem directory_at_the_end :
    ¬ ∀ (comment : UInt32 → CString → List UInt8) (m : Mem) (base : Option ℕ) (es : List Entry)
        (fuel : ℕ), Start m base es → es.length ≤ fuel →
      (∀ e ∈ es, (e.info.name ++ finderinfoString).length < AFP_MAX_PATH) →
      (∀ e ∈ es, keepsEntry e.info = e.wanted) →
        Prog.Yields (Serves comment) (fun st => Listed comment es st.1 st.2)
          (listVirtual true fuel m base) := by
  intro h
  have hyields := h (fun _ _ => []) (oneNode directory) (some 0) [⟨0, directory, false, 0⟩] 1
    (start_oneNode directory false 0) (Nat.le_refl 1) (List.forall_mem_singleton.mpr (by decide))
    (List.forall_mem_singleton.mpr (by decide))
  have hmeets := meets_of_yields (start_oneNode directory false 0) (Nat.le_refl 1) hyields
  rcases hmeets.front with hnil | ⟨removed, kept, heq, hne, -, hkept⟩
  · exact absurd hnil (List.cons_ne_nil _ _)
  · obtain ⟨e, he⟩ := List.exists_mem_of_ne_nil kept hne
    have hmem := List.mem_append_right removed he
    rw [← heq, List.mem_singleton] at hmem
    subst hmem
    exact absurd (hkept _ he) (by decide)

end Listing
end Afpfs

import Afpfs.Did
import Afpfs.Lib.PointerList
import Mathlib.Data.List.Nodup

/-!
# The cache of directory ids as a linked list

`find_dirid_by_fullname()` of `lib/did.c` walks the entries from `did_cache_base` on and takes out
those that are too old, with `prev` behind its cursor.  At the start `prev` is the base, and so it is
when the cursor is on the second entry: then the base is moved behind an old entry, the first entry
goes with it, and the new first entry is not looked at.

* `findLoop_walk`: the loop over the heap does what `walk` does to the list of addresses.
* `find_consistent`: the loop ends, uses no freed entry, and what it answers is valid.
* `preserves_iff`: when it loses nothing.
-/

set_option autoImplicit false

namespace Afpfs
namespace DidCache

open Unicode PointerList Did

/-! ## The loop -/

/-- The address of a `struct did_cache_entry`. -/
abbrev Addr := ℕ

/-- An entry in the heap. -/
structure Node where
  entry : DidCacheEntry
  next : Option Addr

/-- The part of a volume that the cache is. -/
structure Cache where
  heap : Addr → Option Node
  base : Option Addr
  expired : UInt64
  hits : UInt64

/-- `free()` of an entry. -/
def Cache.release (c : Cache) (p : Addr) : Cache :=
  { c with heap := Function.update c.heap p none }

/-- The end of a search: the id, where the cursor `p` was left, the entries that were freed, and the
cache. -/
structure Found where
  did : UInt32
  stop : Option Addr
  freed : List Addr
  cache : Cache

/-- Before it, an entry was freed. -/
def Found.free (p : Addr) (r : Found) : Found := { r with freed := p :: r.freed }

/-- The loop of `find_dirid_by_fullname()` with the cursor `p`.  Without a result the fuel ran out,
or memory was read that is not allocated. -/
def findLoop (now : ℕ) (path : CString) :
    ℕ → Option Addr → Option Addr → Cache → Option Found
  | _, none, _, c => some ⟨0, none, [], c⟩
  | 0, some _, _, _ => none
  | fuel + 1, some p, prev, c => do
    let n ← c.heap p
    if Expired now n.entry then
      let c := { c with expired := c.expired + 1 }
      if prev = c.base then
        let c := { c with base := n.next }.release p
        if n.entry.dirname = path then some ⟨0, some p, [p], c⟩
        else
          match c.base with
          | none => some ⟨0, none, [p], c⟩
          | some first => do
            let head ← c.heap first
            return (← findLoop now path fuel head.next (some first) c).free p
      else do
        let a ← prev
        let before ← c.heap a
        let heap := Function.update c.heap a (some { before with next := n.next })
        let c := { c with heap := heap }.release p
        -- the cursor is back at `prev`
        if before.entry.dirname = path then
          some ⟨before.entry.did, some a, [p], { c with hits := c.hits + 1 }⟩
        else return (← findLoop now path fuel n.next (some a) c).free p
    else if n.entry.dirname = path then
      some ⟨n.entry.did, some p, [], { c with hits := c.hits + 1 }⟩
    else findLoop now path fuel n.next (some p) c

/-- `find_dirid_by_fullname()` at the time `now`, with fuel for its loop. -/
def findDirid (now : ℕ) (path : CString) (fuel : ℕ) (c : Cache) : Option Found :=
  findLoop now path fuel c.base c.base c

/-! ## The list of addresses -/

section Walk

variable {α : Type}

/-- What a search does to the list: the id, the entries that are left and those that are freed, and
the entry it ends at. -/
structure Outcome (α : Type) where
  did : UInt32
  kept : List α
  freed : List α
  stop : Option α

/-- Before it, an entry was freed. -/
def Outcome.free (p : α) (o : Outcome α) : Outcome α := { o with freed := p :: o.freed }

@[simp] theorem Outcome.did_free (p : α) (o : Outcome α) : (o.free p).did = o.did := rfl
@[simp] theorem Outcome.kept_free (p : α) (o : Outcome α) : (o.free p).kept = o.kept := rfl
@[simp] theorem Outcome.freed_free (p : α) (o : Outcome α) : (o.free p).freed = p :: o.freed := rfl
@[simp] theorem Outcome.stop_free (p : α) (o : Outcome α) : (o.free p).stop = o.stop := rfl

/-- The search on a list, with the entries before the cursor in `passed`, the nearest first. -/
def walk (entry : α → DidCacheEntry) (now : ℕ) (path : CString) : List α → List α → Outcome α
  | passed, [] => ⟨0, passed.reverse, [], none⟩
  | passed, p :: rest =>
    if Expired now (entry p) then
      match passed with
      | prev :: second :: more =>
        if (entry prev).dirname = path then
          ⟨(entry prev).did, (prev :: second :: more).reverse ++ rest, [p], some prev⟩
        else (walk entry now path (prev :: second :: more) rest).free p
      | _ =>
        if (entry p).dirname = path then ⟨0, rest, [p], some p⟩
        else
          match rest with
          | [] => ⟨0, [], [p], none⟩
          | first :: rest => (walk entry now path [first] rest).free p
    else if (entry p).dirname = path then ⟨(entry p).did, passed.reverse ++ p :: rest, [], some p⟩
    else walk entry now path (p :: passed) rest

variable {entry : α → DidCacheEntry} {now : ℕ} {path : CString}

theorem eq_nil_or_singleton {l : List α} (h : ∀ a b m, l = a :: b :: m → False) :
    l = [] ∨ ∃ a, l = [a] := by
  cases l with
  | nil => exact .inl rfl
  | cons a l =>
    cases l with
    | nil => exact .inr ⟨a, rfl⟩
    | cons b m => exact (h a b m rfl).elim

/-- **It is the search of the model of the cache.** -/
theorem findFrom_map (passed rest : List α) :
    findFrom now path (passed.map entry) (rest.map entry) =
      ((walk entry now path passed rest).did, (walk entry now path passed rest).kept.map entry) := by
  fun_induction walk entry now path passed rest with
  | case1 passed => simp [findFrom]
  | case2 p rest hexp prev second more hprev => simp [findFrom, hexp, hprev]
  | case3 p rest hexp prev second more hprev ih =>
    simp only [List.map_cons] at ih ⊢
    rw [findFrom, if_pos hexp]
    simpa [hprev] using ih
  | case4 passed p rest hexp hname hbase =>
    rw [List.map_cons, findFrom.eq_def]
    obtain rfl | ⟨h, rfl⟩ := eq_nil_or_singleton hbase <;> simp [hexp, hname]
  | case5 passed p hexp hname hbase =>
    rw [List.map_cons, findFrom.eq_def]
    obtain rfl | ⟨h, rfl⟩ := eq_nil_or_singleton hbase <;> simp [hexp, hname]
  | case6 passed p hexp hname first rest hbase ih =>
    rw [List.map_cons, List.map_cons, findFrom.eq_def]
    obtain rfl | ⟨h, rfl⟩ := eq_nil_or_singleton hbase <;> simpa [hexp, hname] using ih
  | case7 passed p rest hexp hname =>
    rw [List.map_cons, findFrom.eq_def]
    simp [hexp, hname]
  | case8 passed p rest hexp hname ih =>
    rw [List.map_cons, findFrom.eq_def]
    simpa [hexp, hname] using ih

/-! ## What a search keeps and frees -/

theorem walk_freed_sublist (passed rest : List α) :
    (walk entry now path passed rest).freed.Sublist rest := by
  fun_induction walk entry now path passed rest with
  | case1 passed => exact List.nil_sublist _
  | case2 p rest => exact List.singleton_sublist.mpr List.mem_cons_self
  | case3 p rest hexp prev second more hprev ih => exact ih.cons_cons p
  | case4 passed p rest => exact List.singleton_sublist.mpr List.mem_cons_self
  | case5 passed p => exact List.Sublist.refl _
  | case6 passed p hexp hname first rest hbase ih => exact (ih.cons first).cons_cons p
  | case7 passed p rest => exact List.nil_sublist _
  | case8 passed p rest hexp hname ih => exact ih.cons p

theorem walk_freed_expired (passed rest : List α) :
    ∀ a ∈ (walk entry now path passed rest).freed, Expired now (entry a) := by
  fun_induction walk entry now path passed rest with
  | case1 passed => exact List.forall_mem_nil _
  | case2 p rest hexp => exact List.forall_mem_singleton.mpr hexp
  | case3 p rest hexp prev second more hprev ih => exact List.forall_mem_cons.mpr ⟨hexp, ih⟩
  | case4 passed p rest hexp => exact List.forall_mem_singleton.mpr hexp
  | case5 passed p hexp => exact List.forall_mem_singleton.mpr hexp
  | case6 passed p hexp hname first rest hbase ih => exact List.forall_mem_cons.mpr ⟨hexp, ih⟩
  | case7 passed p rest => exact List.forall_mem_nil _
  | case8 passed p rest hexp hname ih => exact ih

theorem walk_kept_sublist (passed rest : List α) :
    (walk entry now path passed rest).kept.Sublist (passed.reverse ++ rest) := by
  fun_induction walk entry now path passed rest with
  | case1 passed => rw [List.append_nil]
  | case2 p rest => exact List.Sublist.append_left (List.sublist_cons_self ..) _
  | case3 p rest hexp prev second more hprev ih =>
    exact ih.trans (List.Sublist.append_left (List.sublist_cons_self ..) _)
  | case4 passed p rest => exact List.sublist_append_of_sublist_right (List.sublist_cons_self ..)
  | case5 passed p => exact List.nil_sublist _
  | case6 passed p hexp hname first rest hbase ih =>
    exact ih.trans (List.sublist_append_of_sublist_right (List.sublist_cons_self ..))
  | case7 passed p rest => exact List.Sublist.refl _
  | case8 passed p rest hexp hname ih =>
    rw [List.reverse_cons, List.append_assoc] at ih
    exact ih

/-- What is freed is not kept. -/
theorem walk_disjoint (passed rest : List α) (hnodup : (passed.reverse ++ rest).Nodup) :
    ∀ a ∈ (walk entry now path passed rest).freed,
      a ∉ (walk entry now path passed rest).kept := by
  fun_induction walk entry now path passed rest with
  | case1 passed => exact List.forall_mem_nil _
  | case2 p rest hexp prev second more hprev =>
    refine List.forall_mem_singleton.mpr ?_
    exact (List.nodup_middle.mp hnodup |> List.nodup_cons.mp).1
  | case3 p rest hexp prev second more hprev ih =>
    obtain ⟨hp, hrest⟩ := List.nodup_cons.mp (List.nodup_middle.mp hnodup)
    refine List.forall_mem_cons.mpr ⟨fun hmem => hp ?_, ih hrest⟩
    exact (walk_kept_sublist ..).subset hmem
  | case4 passed p rest =>
    refine List.forall_mem_singleton.mpr fun hmem => ?_
    exact (List.nodup_cons.mp (List.nodup_middle.mp hnodup)).1 (List.mem_append_right _ hmem)
  | case5 passed p => exact fun a _ => List.not_mem_nil
  | case6 passed p hexp hname first rest hbase ih =>
    obtain ⟨hp, hrest⟩ := List.nodup_cons.mp (List.nodup_middle.mp hnodup)
    refine List.forall_mem_cons.mpr ⟨fun hmem => hp ?_, ih (List.nodup_append.mp hrest).2.1⟩
    exact List.mem_append_right _ ((walk_kept_sublist ..).subset hmem)
  | case7 passed p rest => exact List.forall_mem_nil _
  | case8 passed p rest hexp hname ih =>
    refine ih ?_
    rw [List.reverse_cons, List.append_assoc]
    exact hnodup

/-- The search ends at an entry that it came to, or went back to. -/
theorem walk_stop_mem (passed rest : List α) :
    ∀ a, (walk entry now path passed rest).stop = some a → a ∈ passed.reverse ++ rest := by
  fun_induction walk entry now path passed rest with
  | case1 passed => exact fun a h => by cases h
  | case2 p rest hexp prev second more hprev => simp
  | case3 p rest hexp prev second more hprev ih =>
    exact fun a h => (List.Sublist.append_left (List.sublist_cons_self ..) _).subset (ih a h)
  | case4 passed p rest => simp
  | case5 passed p => exact fun a h => by cases h
  | case6 passed p hexp hname first rest hbase ih =>
    exact fun a h => List.mem_append_right _ (List.mem_cons_of_mem _ (ih a h))
  | case7 passed p rest => simp
  | case8 passed p rest hexp hname ih =>
    intro a h
    have hmem := ih a h
    rw [List.reverse_cons, List.append_assoc] at hmem
    exact hmem

/-! ## When nothing is lost -/

/-- The id of the first unexpired entry with the path, or 0. -/
def lookup (entry : α → DidCacheEntry) (now : ℕ) (path : CString) (l : List α) : UInt32 :=
  ((l.find? fun a => ¬ Expired now (entry a) ∧ (entry a).dirname = path).map fun a =>
    (entry a).did).getD 0

theorem lookup_cons_found {p : α} {rest : List α} (hexp : ¬ Expired now (entry p))
    (hname : (entry p).dirname = path) : lookup entry now path (p :: rest) = (entry p).did := by
  simp [lookup, hexp, hname]

theorem lookup_cons_expired {p : α} {rest : List α} (hexp : Expired now (entry p)) :
    lookup entry now path (p :: rest) = lookup entry now path rest := by
  simp [lookup, hexp]

theorem lookup_cons_ne {p : α} {rest : List α} (hname : (entry p).dirname ≠ path) :
    lookup entry now path (p :: rest) = lookup entry now path rest := by
  simp [lookup, hname]

/-- The search ended before it came to `a`. -/
def Behind (l : List α) (stop : Option α) (a : α) : Prop :=
  ∃ l₁ s l₂, l = l₁ ++ s :: l₂ ∧ stop = some s ∧ a ∈ l₂

theorem Behind.append {l : List α} {stop : Option α} {a : α} (h : Behind l stop a) (m : List α) :
    Behind (m ++ l) stop a := by
  obtain ⟨l₁, s, l₂, rfl, hstop, ha⟩ := h
  exact ⟨m ++ l₁, s, l₂, (List.append_assoc ..).symm, hstop, ha⟩

theorem Behind.of_cons {p a : α} {l : List α} {stop : Option α} (h : Behind (p :: l) stop a)
    (hstop : stop ≠ some p) : Behind l stop a := by
  obtain ⟨l₁, s, l₂, heq, hs, ha⟩ := h
  cases l₁ with
  | nil =>
    obtain ⟨rfl, rfl⟩ := List.cons.inj heq
    exact absurd hs hstop
  | cons b l₁ => exact ⟨l₁, s, l₂, (List.cons.inj heq).2, hs, ha⟩

theorem not_behind_head {a : α} {l : List α} {stop : Option α} (hnodup : (a :: l).Nodup) :
    ¬ Behind (a :: l) stop a := by
  rintro ⟨l₁, s, l₂, heq, -, ha⟩
  refine (List.nodup_cons.mp hnodup).1 ?_
  cases l₁ with
  | nil => exact (List.cons.inj heq).2 ▸ ha
  | cons b l₁ =>
    rw [(List.cons.inj heq).2]
    exact List.mem_append_right _ (List.mem_cons_of_mem s ha)

/-- A search that loses nothing of what it has before it, while the entries of `passed` stay. -/
structure Walked (entry : α → DidCacheEntry) (now : ℕ) (path : CString) (passed rest : List α)
    (o : Outcome α) : Prop where
  kept : o.kept.filter (fun a => ¬ Expired now (entry a)) =
    (passed.reverse ++ rest).filter (fun a => ¬ Expired now (entry a))
  removed : ∀ a ∈ rest, Expired now (entry a) → Behind rest o.stop a ∨ a ∈ o.freed
  did : o.did = lookup entry now path rest

section Cursor

variable {p : α} {passed rest : List α} {o : Outcome α}

theorem walked_found (hexp : ¬ Expired now (entry p)) (hname : (entry p).dirname = path) :
    Walked entry now path passed (p :: rest)
      ⟨(entry p).did, passed.reverse ++ p :: rest, [], some p⟩ where
  kept := rfl
  removed := by
    refine List.forall_mem_cons.mpr ⟨fun h => absurd h hexp, fun a ha _ => .inl ?_⟩
    exact ⟨[], p, rest, rfl, rfl, ha⟩
  did := (lookup_cons_found hexp hname).symm

theorem Walked.next (hexp : ¬ Expired now (entry p)) (hname : (entry p).dirname ≠ path)
    (h : Walked entry now path (p :: passed) rest o) : Walked entry now path passed (p :: rest) o where
  kept := by rw [h.kept, List.reverse_cons, List.append_assoc, List.singleton_append]
  removed := List.forall_mem_cons.mpr ⟨fun h => absurd h hexp, fun a ha hold =>
    (h.removed a ha hold).imp (fun hbehind => hbehind.append [p]) id⟩
  did := h.did.trans (lookup_cons_ne hname).symm

theorem Walked.free (hexp : Expired now (entry p)) (h : Walked entry now path passed rest o) :
    Walked entry now path passed (p :: rest) (o.free p) where
  kept := by
    rw [Outcome.kept_free, h.kept, List.filter_append, List.filter_append,
      List.filter_cons_of_neg (by simpa using hexp)]
  removed := List.forall_mem_cons.mpr ⟨fun _ => .inr List.mem_cons_self, fun a ha hold =>
    (h.removed a ha hold).imp (fun hbehind => hbehind.append [p]) (List.mem_cons_of_mem p)⟩
  did := h.did.trans (lookup_cons_expired hexp).symm

theorem walk_found (hexp : ¬ Expired now (entry p)) (hname : (entry p).dirname = path) :
    walk entry now path passed (p :: rest) =
      ⟨(entry p).did, passed.reverse ++ p :: rest, [], some p⟩ := by
  rw [walk.eq_def]
  simp only [if_neg hexp, if_pos hname]

theorem walk_next (hexp : ¬ Expired now (entry p)) (hname : (entry p).dirname ≠ path) :
    walk entry now path passed (p :: rest) = walk entry now path (p :: passed) rest := by
  rw [walk.eq_def]
  simp only [if_neg hexp, if_neg hname]

end Cursor

/-- **Behind two entries nothing is lost.** -/
theorem walked_far {prev second : α} {more rest : List α} (hprev : (entry prev).dirname ≠ path) :
    Walked entry now path (prev :: second :: more) rest
      (walk entry now path (prev :: second :: more) rest) := by
  induction rest generalizing prev second more with
  | nil => exact ⟨by rw [walk, List.append_nil], fun a h => absurd h List.not_mem_nil, rfl⟩
  | cons p rest ih =>
    by_cases hexp : Expired now (entry p)
    · rw [walk, if_pos hexp, if_neg hprev]
      exact (ih hprev).free hexp
    · by_cases hname : (entry p).dirname = path
      · rw [walk_found hexp hname]
        exact walked_found hexp hname
      · rw [walk_next hexp hname]
        exact (ih hname).next hexp hname

/-- Behind one entry, nothing is lost if the next is valid. -/
theorem walked_near {h : α} {rest : List α} (hnext : ∀ q ∈ rest.head?, ¬ Expired now (entry q)) :
    Walked entry now path [h] rest (walk entry now path [h] rest) := by
  cases rest with
  | nil => exact ⟨by rw [walk, List.append_nil], fun a h => absurd h List.not_mem_nil, rfl⟩
  | cons q rest =>
    have hexp := hnext q rfl
    by_cases hname : (entry q).dirname = path
    · rw [walk_found hexp hname]
      exact walked_found hexp hname
    · rw [walk_next hexp hname]
      exact (walked_far hname).next hexp hname

/-- Otherwise the entry goes with the next. -/
theorem walk_near_kept {h q : α} {rest : List α} (hexp : Expired now (entry q)) :
    (walk entry now path [h] (q :: rest)).kept.Sublist rest := by
  rw [walk.eq_def]
  simp only [if_pos hexp]
  split
  · exact List.Sublist.refl _
  · cases rest with
    | nil => exact List.nil_sublist _
    | cons first rest => exact walk_kept_sublist [first] rest

/-- A search that loses nothing: every valid entry stays, every old one that the search passed is
freed, and the first valid entry with the path is found. -/
structure LosesNothing (entry : α → DidCacheEntry) (now : ℕ) (path : CString) (l : List α)
    (o : Outcome α) : Prop where
  kept : o.kept.filter (fun a => ¬ Expired now (entry a)) =
    l.filter (fun a => ¬ Expired now (entry a))
  removed : ∀ a ∈ l, Expired now (entry a) → Behind l o.stop a ∨ a ∈ o.freed
  found : ∀ a, l.find? (fun a => ¬ Expired now (entry a) ∧ (entry a).dirname = path) = some a →
    o.did = (entry a).did

/-- When a search loses nothing.

If the first entry is valid, it has the path, or the second entry is valid too.  If it is old and
has the path, there is no id to be found behind it.  If it is old and has another path, the two
entries behind it are valid, and the first of these has another path, or the id that is found behind
it. -/
def Kept (entry : α → DidCacheEntry) (now : ℕ) (path : CString) : List α → Prop
  | [] => True
  | p :: rest =>
    if Expired now (entry p) then
      if (entry p).dirname = path then lookup entry now path rest = 0
      else
        match rest with
        | [] => True
        | h :: rest =>
          ¬ Expired now (entry h) ∧ (∀ q ∈ rest.head?, ¬ Expired now (entry q)) ∧
            ((entry h).dirname = path → (entry h).did = lookup entry now path rest)
    else (entry p).dirname = path ∨ ∀ q ∈ rest.head?, ¬ Expired now (entry q)

section Kept

variable {p h q : α} {l rest : List α} {o : Outcome α}

theorem find_eq_lookup (hfind : l.find? (fun a =>
    ¬ Expired now (entry a) ∧ (entry a).dirname = path) = some p) :
    lookup entry now path l = (entry p).did := by
  rw [lookup, hfind]
  rfl

theorem Walked.losesNothing (h : Walked entry now path [] l o) : LosesNothing entry now path l o where
  kept := h.kept
  removed := h.removed
  found := fun _ ha => h.did.trans (find_eq_lookup ha)

/-- A search cannot lose a valid entry. -/
theorem not_kept_of_sublist (hexp : ¬ Expired now (entry h)) (hsub : o.kept.Sublist rest)
    (hl : (h :: rest).Sublist l) : ¬ LosesNothing entry now path l o := by
  intro hloses
  have hle := (hsub.filter fun a => decide ¬ Expired now (entry a)).length_le
  have hge := (hl.filter fun a => decide ¬ Expired now (entry a)).length_le
  rw [← hloses.kept, List.filter_cons_of_pos (by simpa using hexp), List.length_cons] at hge
  omega

theorem losesNothing_base (hexp : Expired now (entry p)) :
    LosesNothing entry now path (p :: rest) ⟨0, rest, [p], some p⟩ ↔
      lookup entry now path rest = 0 := by
  constructor
  · intro h
    have hfound := h.found
    rw [List.find?_cons_of_neg (by simp [hexp])] at hfound
    rw [lookup]
    cases hfind : rest.find? fun a => ¬ Expired now (entry a) ∧ (entry a).dirname = path with
    | none => rfl
    | some a => exact (hfound a hfind).symm
  · intro hzero
    refine ⟨?_, ?_, fun a ha => ?_⟩
    · rw [List.filter_cons_of_neg (by simpa using hexp)]
    · exact List.forall_mem_cons.mpr ⟨fun _ => .inr List.mem_cons_self, fun a ha _ =>
        .inl ⟨[], p, rest, rfl, rfl, ha⟩⟩
    · rw [← find_eq_lookup ha, lookup_cons_expired hexp]
      exact hzero.symm

theorem losesNothing_skip (hp : Expired now (entry p)) (hnodup : (p :: h :: rest).Nodup) :
    LosesNothing entry now path (p :: h :: rest) ((walk entry now path [h] rest).free p) ↔
      ¬ Expired now (entry h) ∧ (∀ q ∈ rest.head?, ¬ Expired now (entry q)) ∧
        ((entry h).dirname = path → (entry h).did = lookup entry now path rest) := by
  obtain ⟨hph, hrest⟩ := List.nodup_cons.mp hnodup
  obtain ⟨hh, -⟩ := List.nodup_cons.mp hrest
  constructor
  · intro hloses
    have hexp : ¬ Expired now (entry h) := by
      intro hold
      -- it was passed, and is not among those that were freed
      rcases hloses.removed h (List.mem_cons_of_mem p List.mem_cons_self) hold with hbehind | hfreed
      · have hstop : (walk entry now path [h] rest).stop ≠ some p :=
          fun hstop => hph (walk_stop_mem [h] rest p hstop)
        exact not_behind_head hrest (hbehind.of_cons hstop)
      · rcases List.mem_cons.mp hfreed with rfl | hmem
        · exact hph List.mem_cons_self
        · exact hh ((walk_freed_sublist ..).subset hmem)
    have hnext : ∀ q ∈ rest.head?, ¬ Expired now (entry q) := by
      intro q hq hold
      obtain ⟨rest, rfl⟩ := List.head?_eq_some_iff.mp hq
      refine not_kept_of_sublist (o := (walk entry now path [h] (q :: rest)).free p) hexp
        (walk_near_kept hold) ?_ hloses
      exact ((List.sublist_cons_self q rest).cons_cons h).cons p
    refine ⟨hexp, hnext, fun hname => ?_⟩
    have hfind : (p :: h :: rest).find? (fun a =>
        ¬ Expired now (entry a) ∧ (entry a).dirname = path) = some h := by
      rw [List.find?_cons_of_neg (by simp [hp]), List.find?_cons_of_pos (by simp [hexp, hname])]
    exact (hloses.found h hfind).symm.trans (walked_near hnext).did
  · rintro ⟨hexp, hnext, hdid⟩
    have hwalked : Walked entry now path [h] rest (walk entry now path [h] rest) := walked_near hnext
    refine ⟨?_, ?_, fun a ha => ?_⟩
    · rw [Outcome.kept_free, hwalked.kept, List.filter_cons_of_neg (by simpa using hp)]
      rfl
    · refine List.forall_mem_cons.mpr ⟨fun _ => .inr List.mem_cons_self, ?_⟩
      refine List.forall_mem_cons.mpr ⟨fun hold => absurd hold hexp, fun a ha hold => ?_⟩
      exact (hwalked.removed a ha hold).imp (fun hbehind => hbehind.append [p, h])
        (List.mem_cons_of_mem p)
    · rw [Outcome.did_free, hwalked.did]
      rw [← find_eq_lookup ha, lookup_cons_expired hp]
      by_cases hname : (entry h).dirname = path
      · rw [lookup_cons_found hexp hname, hdid hname]
      · rw [lookup_cons_ne hname]

theorem losesNothing_near (hexp : ¬ Expired now (entry p)) (hname : (entry p).dirname ≠ path) :
    LosesNothing entry now path (p :: rest) (walk entry now path [p] rest) ↔
      ∀ q ∈ rest.head?, ¬ Expired now (entry q) := by
  constructor
  · intro hloses q hq hold
    obtain ⟨rest, rfl⟩ := List.head?_eq_some_iff.mp hq
    exact not_kept_of_sublist hexp (walk_near_kept hold)
      ((List.sublist_cons_self q rest).cons_cons p) hloses
  · exact fun hnext => ((walked_near hnext).next hexp hname).losesNothing

/-- **When a search loses nothing**, on the list. -/
theorem losesNothing_iff (hnodup : l.Nodup) :
    LosesNothing entry now path l (walk entry now path [] l) ↔ Kept entry now path l := by
  cases l with
  | nil =>
    refine iff_of_true ⟨rfl, fun a ha => absurd ha List.not_mem_nil, fun a ha => ?_⟩ trivial
    cases ha
  | cons p rest =>
    simp only [Kept]
    by_cases hexp : Expired now (entry p)
    · rw [if_pos hexp]
      by_cases hname : (entry p).dirname = path
      · rw [if_pos hname, walk.eq_def]
        simp only [if_pos hexp, if_pos hname]
        exact losesNothing_base hexp
      · rw [if_neg hname]
        cases rest with
        | nil =>
          rw [walk.eq_def]
          simp only [if_pos hexp, if_neg hname]
          refine iff_of_true ⟨?_, fun a ha _ => .inr ha, fun a ha => ?_⟩ trivial
          · rw [List.filter_cons_of_neg (by simpa using hexp)]
          · rw [List.find?_cons_of_neg (by simp [hexp])] at ha
            cases ha
        | cons h rest =>
          rw [walk.eq_def]
          simp only [if_pos hexp, if_neg hname]
          exact losesNothing_skip hexp hnodup
    · rw [if_neg hexp]
      by_cases hname : (entry p).dirname = path
      · rw [walk_found hexp hname]
        exact iff_of_true (walked_found hexp hname).losesNothing (.inl hname)
      · rw [walk_next hexp hname, losesNothing_near hexp hname]
        exact (or_iff_right hname).symm

end Kept

end Walk

/-! ## The loop does what the walk does -/

section Simulation

variable {entry : Addr → DidCacheEntry} {now : ℕ} {path : CString}

/-- The entries of a list are in the heap. -/
def Holds (entry : Addr → DidCacheEntry) (heap : Addr → Option Node) (base : Option Addr)
    (l : List Addr) : Prop :=
  Linked heap Node.next base l ∧ ∀ a ∈ l, (heap a).map Node.entry = some (entry a)

/-- What a search leaves behind, where the walk has an outcome. -/
structure Leaves (entry : Addr → DidCacheEntry) (c : Cache) (l : List Addr) (o : Outcome Addr)
    (c' : Cache) : Prop where
  holds : Holds entry c'.heap c'.base o.kept
  freed : ∀ a ∈ o.freed, c'.heap a = none
  frame : ∀ a ∉ l, c'.heap a = c.heap a
  expired : c'.expired = c.expired + UInt64.ofNat o.freed.length

section Heap

variable {heap : Addr → Option Node} {base : Option Addr} {l₁ l₂ : List Addr} {a p : Addr}
  {before n : Node}

theorem Holds.node (h : Holds entry heap base (l₁ ++ p :: l₂)) :
    ∃ n, heap p = some n ∧ n.entry = entry p ∧ n.next = l₂.head? := by
  obtain ⟨-, n, hn, hnext⟩ := linked_some_cons.mp (h.1.suffix l₁)
  have hentry := h.2 p (List.mem_append_right _ List.mem_cons_self)
  rw [hn, Option.map_some] at hentry
  exact ⟨n, hn, Option.some.inj hentry, hnext.eq_head?⟩

/-- The base is moved behind an entry that is freed. -/
theorem Holds.rebase (h : Holds entry heap base (l₁ ++ p :: l₂)) (hn : heap p = some n) :
    Holds entry (Function.update heap p none) n.next l₂ := by
  obtain ⟨-, m, hm, hnext⟩ := linked_some_cons.mp (h.1.suffix l₁)
  obtain rfl : n = m := Option.some.inj (hn.symm.trans hm)
  have hp : p ∉ l₂ := (List.nodup_cons.mp (List.nodup_append.mp h.1.nodup).2.1).1
  refine ⟨hnext.update hp, fun a ha => ?_⟩
  rw [Function.update_of_ne (ne_of_mem_of_not_mem ha hp)]
  exact h.2 a (List.mem_append_right _ (List.mem_cons_of_mem p ha))

/-- An entry is taken out behind another, and freed. -/
theorem Holds.unlink (h : Holds entry heap base (l₁ ++ a :: p :: l₂)) (ha : heap a = some before)
    (hn : heap p = some n) :
    Holds entry
      (Function.update (Function.update heap a (some { before with next := n.next })) p none) base
      (l₁ ++ a :: l₂) := by
  have hp : p ∉ l₁ ++ a :: l₂ := by
    have hnodup := h.1.nodup
    rw [List.append_cons] at hnodup
    have hmiddle := (List.nodup_cons.mp (List.nodup_middle.mp hnodup)).1
    rwa [← List.append_cons] at hmiddle
  have hlinked : Linked (Function.update heap a (some { before with next := n.next })) Node.next base
      (l₁ ++ a :: l₂) := h.1.unlink hn ha rfl
  refine ⟨hlinked.update hp, fun b hb => ?_⟩
  rw [Function.update_of_ne (ne_of_mem_of_not_mem hb hp)]
  have hentry := h.2 b (by simp only [List.mem_append, List.mem_cons] at hb ⊢; tauto)
  by_cases hba : b = a
  · subst hba
    rw [Function.update_self]
    rwa [ha] at hentry
  · rwa [Function.update_of_ne hba]

end Heap

theorem findLoop_none {fuel : ℕ} {prev : Option Addr} {c : Cache} :
    findLoop now path fuel none prev c = some ⟨0, none, [], c⟩ := by
  cases fuel <;> rfl

/-- As long as at most one entry was passed, `prev` is the base. -/
theorem prev_eq_base {heap : Addr → Option Node} {base : Option Addr} {passed rest : List Addr}
    (hholds : Holds entry heap base (passed.reverse ++ rest))
    (hbase : ∀ prev second more, passed = prev :: second :: more → False) :
    passed.head?.or base = base := by
  obtain rfl | ⟨h, rfl⟩ := eq_nil_or_singleton hbase
  · rfl
  · exact hholds.1.eq_head?.symm

/-- Behind two entries, it is not. -/
theorem prev_ne_base {heap : Addr → Option Node} {base : Option Addr} {a b : Addr}
    {more rest : List Addr} (hholds : Holds entry heap base ((b :: more).reverse ++ a :: rest)) :
    some a ≠ base := by
  intro hbase
  have hnodup := hholds.1.nodup
  rw [hholds.1.eq_head?] at hbase
  have hmem : a ∈ (b :: more).reverse := by
    rw [List.head?_append_of_ne_nil _ (by simp)] at hbase
    exact List.mem_of_mem_head? hbase.symm
  exact (List.nodup_cons.mp (List.nodup_middle.mp hnodup)).1 (List.mem_append_left _ hmem)

section Step

variable {fuel : ℕ} {p a : Addr} {prev : Option Addr} {c : Cache} {n before : Node}

attribute [local simp] findLoop

theorem findLoop_valid (hn : c.heap p = some n) (hexp : ¬ Expired now n.entry)
    (hname : n.entry.dirname ≠ path) :
    findLoop now path (fuel + 1) (some p) prev c = findLoop now path fuel n.next (some p) c := by
  simp only [findLoop, hn, Option.bind_eq_bind, Option.bind_some, if_neg hexp, if_neg hname]

theorem findLoop_found (hn : c.heap p = some n) (hexp : ¬ Expired now n.entry)
    (hname : n.entry.dirname = path) :
    findLoop now path (fuel + 1) (some p) prev c =
      some ⟨n.entry.did, some p, [], { c with hits := c.hits + 1 }⟩ := by
  simp only [findLoop, hn, Option.bind_eq_bind, Option.bind_some, if_neg hexp, if_pos hname]

/-- The cache after the base was moved behind an old entry. -/
def Cache.rebased (c : Cache) (p : Addr) (n : Node) : Cache :=
  { c with base := n.next, expired := c.expired + 1 }.release p

/-- The cache after an old entry was taken out behind another. -/
def Cache.unlinked (c : Cache) (a p : Addr) (before n : Node) : Cache :=
  { c with
    heap := Function.update c.heap a (some { before with next := n.next })
    expired := c.expired + 1 }.release p

theorem findLoop_base_early (hn : c.heap p = some n) (hexp : Expired now n.entry)
    (hprev : prev = c.base) (hname : n.entry.dirname = path) :
    findLoop now path (fuel + 1) (some p) prev c = some ⟨0, some p, [p], c.rebased p n⟩ := by
  simp only [findLoop, hn, Option.bind_eq_bind, Option.bind_some, if_pos hexp, if_pos hprev,
    if_pos hname]
  rfl

theorem findLoop_base_end (hn : c.heap p = some n) (hexp : Expired now n.entry)
    (hprev : prev = c.base) (hname : n.entry.dirname ≠ path) (hnext : n.next = none) :
    findLoop now path (fuel + 1) (some p) prev c = some ⟨0, none, [p], c.rebased p n⟩ := by
  simp only [findLoop, hn, Option.bind_eq_bind, Option.bind_some, if_pos hexp, if_pos hprev,
    if_neg hname, Cache.release, hnext, Cache.rebased]

theorem findLoop_base_next {first : Addr} {head : Node} (hn : c.heap p = some n)
    (hexp : Expired now n.entry) (hprev : prev = c.base) (hname : n.entry.dirname ≠ path)
    (hnext : n.next = some first) (hhead : (c.rebased p n).heap first = some head) :
    findLoop now path (fuel + 1) (some p) prev c =
      (findLoop now path fuel head.next (some first) (c.rebased p n)).map (Found.free p) := by
  simp only [Cache.rebased, Cache.release] at hhead
  simp only [findLoop, hn, Option.bind_eq_bind, Option.bind_some, if_pos hexp, if_pos hprev,
    if_neg hname, Cache.release, hnext, hhead, Cache.rebased]
  cases findLoop now path fuel head.next (some first) _ <;> rfl

theorem findLoop_behind (hn : c.heap p = some n) (hexp : Expired now n.entry)
    (hprev : some a ≠ c.base) (ha : c.heap a = some before) (hname : before.entry.dirname ≠ path) :
    findLoop now path (fuel + 1) (some p) (some a) c =
      (findLoop now path fuel n.next (some a) (c.unlinked a p before n)).map (Found.free p) := by
  simp only [findLoop, hn, Option.bind_eq_bind, Option.bind_some, if_pos hexp, if_neg hprev, ha,
    if_neg hname, Cache.release, Cache.unlinked]
  cases findLoop now path fuel n.next (some a) _ <;> rfl

theorem findLoop_behind_found (hn : c.heap p = some n) (hexp : Expired now n.entry)
    (hprev : some a ≠ c.base) (ha : c.heap a = some before) (hname : before.entry.dirname = path) :
    findLoop now path (fuel + 1) (some p) (some a) c =
      some ⟨before.entry.did, some a, [p],
        { c.unlinked a p before n with hits := c.hits + 1 }⟩ := by
  simp only [findLoop, hn, Option.bind_eq_bind, Option.bind_some, if_pos hexp, if_neg hprev, ha,
    if_pos hname, Cache.release, Cache.unlinked]

end Step

/-- The loop has a result, and leaves what the walk has. -/
def Does (entry : Addr → DidCacheEntry) (c : Cache) (l : List Addr) (o : Outcome Addr)
    (r : Option Found) : Prop :=
  ∃ c', r = some ⟨o.did, o.stop, o.freed, c'⟩ ∧ Leaves entry c l o c'

theorem Leaves.of_holds {c : Cache} {l kept : List Addr} {did : UInt32} {stop : Option Addr}
    (h : Holds entry c.heap c.base kept) : Leaves entry c l ⟨did, kept, [], stop⟩ c where
  holds := h
  freed := List.forall_mem_nil _
  frame := fun _ _ => rfl
  expired := (UInt64.add_zero c.expired).symm

theorem Leaves.hit {c c' : Cache} {l : List Addr} {o : Outcome Addr} (h : Leaves entry c l o c')
    (hits : UInt64) : Leaves entry c l o { c' with hits := hits } :=
  ⟨h.holds, h.freed, h.frame, h.expired⟩

/-- `c` is a cache from which an entry was just freed, and `l` what a search still has to do with. -/
structure Frees (c : Cache) (l : List Addr) (p : Addr) (c₁ : Cache) (l₁ : List Addr) : Prop where
  not_mem : p ∉ l₁
  freed : c₁.heap p = none
  frame : ∀ a ∉ l, c₁.heap a = c.heap a
  subset : l₁ ⊆ l
  expired : c₁.expired = c.expired + 1

theorem Leaves.free {c c₁ c' : Cache} {l l₁ : List Addr} {o : Outcome Addr} {p : Addr}
    (h : Leaves entry c₁ l₁ o c') (hfrees : Frees c l p c₁ l₁) :
    Leaves entry c l (o.free p) c' where
  holds := h.holds
  freed := List.forall_mem_cons.mpr ⟨(h.frame p hfrees.not_mem).trans hfrees.freed, h.freed⟩
  frame := fun a ha => (h.frame a fun hmem => ha (hfrees.subset hmem)).trans (hfrees.frame a ha)
  expired := by
    rw [h.expired, hfrees.expired, Outcome.freed_free, List.length_cons, UInt64.ofNat_add,
      UInt64.add_assoc]
    exact congrArg (c.expired + ·) (UInt64.add_comm _ _)

theorem Does.free {c c₁ : Cache} {l l₁ : List Addr} {o : Outcome Addr} {p : Addr}
    {r : Option Found} (h : Does entry c₁ l₁ o r) (hfrees : Frees c l p c₁ l₁) :
    Does entry c l (o.free p) (r.map (Found.free p)) := by
  obtain ⟨c', rfl, hleaves⟩ := h
  exact ⟨c', rfl, hleaves.free hfrees⟩

section Frees

variable {c : Cache} {l l₁ : List Addr} {a p : Addr} {before n : Node}

theorem frees_rebased (hnodup : (l ++ p :: l₁).Nodup) :
    Frees c (l ++ p :: l₁) p (c.rebased p n) l₁ where
  not_mem := (List.nodup_cons.mp (List.nodup_append.mp hnodup).2.1).1
  freed := Function.update_self ..
  frame := fun b hb => by
    simp only [List.mem_append, List.mem_cons, not_or] at hb
    exact Function.update_of_ne hb.2.1 _ _
  subset := fun b hb => List.mem_append_right _ (List.mem_cons_of_mem p hb)
  expired := rfl

theorem frees_unlinked (hnodup : (l ++ a :: p :: l₁).Nodup) :
    Frees c (l ++ a :: p :: l₁) p (c.unlinked a p before n) (l ++ a :: l₁) where
  not_mem := by
    rw [List.append_cons] at hnodup
    have hmiddle := (List.nodup_cons.mp (List.nodup_middle.mp hnodup)).1
    rwa [← List.append_cons] at hmiddle
  freed := Function.update_self ..
  frame := fun b hb => by
    simp only [List.mem_append, List.mem_cons, not_or] at hb
    exact (Function.update_of_ne hb.2.2.1 _ _).trans (Function.update_of_ne hb.2.1 _ _)
  subset := fun b hb => by
    simp only [List.mem_append, List.mem_cons] at hb ⊢
    tauto
  expired := rfl

end Frees

/-- **The loop on the heap is the walk on the list**, whose entries before the cursor are `passed`. -/
theorem findLoop_walk {c : Cache} (passed rest : List Addr)
    (hholds : Holds entry c.heap c.base (passed.reverse ++ rest)) {fuel : ℕ}
    (hfuel : rest.length ≤ fuel) :
    Does entry c (passed.reverse ++ rest) (walk entry now path passed rest)
      (findLoop now path fuel rest.head? (passed.head?.or c.base) c) := by
  fun_induction walk entry now path passed rest generalizing c fuel with
  | case1 passed =>
    rw [List.append_nil] at hholds
    exact ⟨c, findLoop_none, .of_holds hholds⟩
  | case2 p rest hexp prev second more hprev =>
    obtain ⟨n, hn, hentry, -⟩ := hholds.node
    obtain ⟨fuel, rfl⟩ := Nat.exists_eq_add_of_le' (Nat.lt_of_lt_of_le (Nat.succ_pos _) hfuel)
    have hshape : ∀ l, (prev :: second :: more).reverse ++ l = (second :: more).reverse ++ prev :: l :=
      fun l => by rw [List.reverse_cons, List.append_assoc, List.singleton_append]
    simp only [hshape] at hholds ⊢
    obtain ⟨before, ha, hbefore, -⟩ := hholds.node
    have hkept : Holds entry (c.unlinked prev p before n).heap (c.unlinked prev p before n).base
        ((second :: more).reverse ++ prev :: rest) := hholds.unlink ha hn
    rw [← hentry] at hexp
    rw [← hbefore] at hprev ⊢
    rw [List.head?_cons, List.head?_cons, Option.some_or,
      findLoop_behind_found hn hexp (prev_ne_base hholds) ha hprev]
    exact ⟨_, rfl, ((Leaves.of_holds hkept).free (frees_unlinked hholds.1.nodup)).hit _⟩
  | case3 p rest hexp prev second more hprev ih =>
    obtain ⟨n, hn, hentry, hnext⟩ := hholds.node
    obtain ⟨fuel, rfl⟩ := Nat.exists_eq_add_of_le' (Nat.lt_of_lt_of_le (Nat.succ_pos _) hfuel)
    have hshape : ∀ l, (prev :: second :: more).reverse ++ l = (second :: more).reverse ++ prev :: l :=
      fun l => by rw [List.reverse_cons, List.append_assoc, List.singleton_append]
    simp only [hshape] at hholds ih ⊢
    obtain ⟨before, ha, hbefore, -⟩ := hholds.node
    have hkept : Holds entry (c.unlinked prev p before n).heap (c.unlinked prev p before n).base
        ((second :: more).reverse ++ prev :: rest) := hholds.unlink ha hn
    rw [← hentry] at hexp
    rw [← hbefore] at hprev
    rw [List.head?_cons, List.head?_cons, Option.some_or,
      findLoop_behind hn hexp (prev_ne_base hholds) ha hprev, hnext]
    exact (ih hkept (Nat.le_of_succ_le_succ hfuel)).free (frees_unlinked hholds.1.nodup)
  | case4 passed p rest hexp hname hbase =>
    obtain ⟨n, hn, hentry, -⟩ := hholds.node
    obtain ⟨fuel, rfl⟩ := Nat.exists_eq_add_of_le' (Nat.lt_of_lt_of_le (Nat.succ_pos _) hfuel)
    rw [← hentry] at hexp hname
    rw [List.head?_cons, findLoop_base_early hn hexp (prev_eq_base hholds hbase) hname]
    exact ⟨_, rfl, (Leaves.of_holds (hholds.rebase hn)).free (frees_rebased hholds.1.nodup)⟩
  | case5 passed p hexp hname hbase =>
    obtain ⟨n, hn, hentry, hnext⟩ := hholds.node
    obtain ⟨fuel, rfl⟩ := Nat.exists_eq_add_of_le' (Nat.lt_of_lt_of_le (Nat.succ_pos _) hfuel)
    rw [← hentry] at hexp hname
    rw [List.head?_cons, findLoop_base_end hn hexp (prev_eq_base hholds hbase) hname hnext]
    exact ⟨_, rfl, (Leaves.of_holds (hholds.rebase hn)).free (frees_rebased hholds.1.nodup)⟩
  | case6 passed p hexp hname first rest hbase ih =>
    obtain ⟨n, hn, hentry, hnext⟩ := hholds.node
    obtain ⟨fuel, rfl⟩ := Nat.exists_eq_add_of_le' (Nat.lt_of_lt_of_le (Nat.succ_pos _) hfuel)
    rw [← hentry] at hexp hname
    have hrest : Holds entry (c.rebased p n).heap (c.rebased p n).base ([] ++ first :: rest) :=
      hholds.rebase hn
    obtain ⟨head, hhead, -, hheadnext⟩ := hrest.node
    rw [List.head?_cons, findLoop_base_next hn hexp (prev_eq_base hholds hbase) hname hnext hhead,
      hheadnext]
    exact (ih hrest (Nat.le_of_succ_le (Nat.le_of_succ_le_succ hfuel))).free
      (frees_rebased hholds.1.nodup)
  | case7 passed p rest hexp hname =>
    obtain ⟨n, hn, hentry, -⟩ := hholds.node
    obtain ⟨fuel, rfl⟩ := Nat.exists_eq_add_of_le' (Nat.lt_of_lt_of_le (Nat.succ_pos _) hfuel)
    rw [← hentry] at hexp hname ⊢
    exact ⟨_, findLoop_found hn hexp hname, hholds, List.forall_mem_nil _, fun _ _ => rfl,
      (UInt64.add_zero c.expired).symm⟩
  | case8 passed p rest hexp hname ih =>
    obtain ⟨n, hn, hentry, hnext⟩ := hholds.node
    obtain ⟨fuel, rfl⟩ := Nat.exists_eq_add_of_le' (Nat.lt_of_lt_of_le (Nat.succ_pos _) hfuel)
    rw [← hentry] at hexp hname
    rw [List.append_cons, ← List.reverse_cons] at hholds
    rw [List.head?_cons, findLoop_valid hn hexp hname, hnext, List.append_cons, ← List.reverse_cons]
    exact ih hholds (Nat.le_of_succ_le_succ hfuel)

/-! ## The search -/

/-- The entry at an address. -/
def entryAt (c : Cache) (a : Addr) : DidCacheEntry := ((c.heap a).map Node.entry).getD ⟨[], 0, 0⟩

variable {c : Cache} {l : List Addr} {fuel : ℕ}

theorem holds_entryAt (h : Linked c.heap Node.next c.base l) :
    Holds (entryAt c) c.heap c.base l := by
  refine ⟨h, fun a ha => ?_⟩
  obtain ⟨n, hn⟩ := h.allocated ha
  rw [entryAt, hn, Option.map_some, Option.getD_some]

/-- **The search is the walk**, on any finite list. -/
theorem findDirid_walk (now : ℕ) (path : CString) (h : Linked c.heap Node.next c.base l)
    (hfuel : l.length ≤ fuel) :
    Does (entryAt c) c l (walk (entryAt c) now path [] l) (findDirid now path fuel c) := by
  have hdoes : Does (entryAt c) c l (walk (entryAt c) now path [] l)
      (findLoop now path fuel l.head? c.base c) := findLoop_walk [] l (holds_entryAt h) hfuel
  rwa [← h.eq_head?] at hdoes

/-- **The model of the cache as a list is the search on the heap**, seen through the addresses. -/
theorem findDirid_eq_findDiridByFullname (h : Linked c.heap Node.next c.base l)
    (hfuel : l.length ≤ fuel) :
    ∃ r l', findDirid now path fuel c = some r ∧ Linked r.cache.heap Node.next r.cache.base l' ∧
      findDiridByFullname now path (l.map (entryAt c)) = (r.did, l'.map (entryAt r.cache)) := by
  obtain ⟨c', hfind, hleaves⟩ := findDirid_walk now path h hfuel
  refine ⟨_, _, hfind, hleaves.holds.1, ?_⟩
  have hmap : (walk (entryAt c) now path [] l).kept.map (entryAt c') =
      (walk (entryAt c) now path [] l).kept.map (entryAt c) := by
    refine List.map_congr_left fun a ha => ?_
    rw [entryAt, hleaves.holds.2 a ha, Option.getD_some]
  rw [hmap]
  exact findFrom_map [] l

/-- What a search does right: the id is that of a valid entry with the path, the list after it is a
part of the list before, with no entry that was freed or changed, and what was freed was old, was
freed once and was counted. -/
structure Consistent (now : ℕ) (path : CString) (c : Cache) (l : List Addr) (r : Found) : Prop where
  sound : r.did ≠ 0 → ∃ a ∈ l, ¬ Expired now (entryAt c a) ∧ (entryAt c a).dirname = path ∧
    (entryAt c a).did = r.did
  kept : ∃ l', Linked r.cache.heap Node.next r.cache.base l' ∧ l'.Sublist l ∧
    (∀ a ∈ l', (r.cache.heap a).map Node.entry = (c.heap a).map Node.entry) ∧ ∀ a ∈ l', a ∉ r.freed
  freed_nodup : r.freed.Nodup
  freed_expired : ∀ a ∈ r.freed, a ∈ l ∧ Expired now (entryAt c a)
  counted : r.cache.expired = c.expired + UInt64.ofNat r.freed.length

/-- **A search is sound and consistent.**  It ends, and reads no memory that is not allocated. -/
theorem find_consistent (h : Linked c.heap Node.next c.base l) (hfuel : l.length ≤ fuel) :
    ∃ r, findDirid now path fuel c = some r ∧ Consistent now path c l r := by
  obtain ⟨c', hfind, hleaves⟩ := findDirid_walk now path h hfuel
  have hfreed : (walk (entryAt c) now path [] l).freed.Sublist l := walk_freed_sublist [] l
  refine ⟨_, hfind, ?_, ⟨_, hleaves.holds.1, walk_kept_sublist [] l, ?_, ?_⟩, ?_, ?_, ?_⟩
  · intro hdid
    have hmap : findDiridByFullname now path (l.map (entryAt c)) =
        ((walk (entryAt c) now path [] l).did,
          (walk (entryAt c) now path [] l).kept.map (entryAt c)) := findFrom_map [] l
    have hfound : (findDiridByFullname now path (l.map (entryAt c))).1 ≠ 0 := by rwa [hmap]
    obtain ⟨p, hp, hvalid, hname, heq⟩ := find_sound hfound
    obtain ⟨a, ha, rfl⟩ := List.mem_map.mp hp
    exact ⟨a, ha, hvalid, hname, heq.trans (congrArg Prod.fst hmap)⟩
  · intro a ha
    have hmem := (walk_kept_sublist [] l).subset ha
    rw [hleaves.holds.2 a ha, (holds_entryAt h).2 a hmem]
  · exact fun a ha hfreed => walk_disjoint [] l h.nodup a hfreed ha
  · exact hfreed.nodup h.nodup
  · exact fun a ha => ⟨hfreed.subset ha, walk_freed_expired [] l a ha⟩
  · exact hleaves.expired

/-- A search that loses nothing, on the heap. -/
structure Preserves (now : ℕ) (path : CString) (c : Cache) (l : List Addr) (r : Found) : Prop where
  kept : ∃ l', Linked r.cache.heap Node.next r.cache.base l' ∧
    l'.filter (fun a => ¬ Expired now (entryAt c a)) =
      l.filter (fun a => ¬ Expired now (entryAt c a)) ∧
    ∀ a ∈ l, Expired now (entryAt c a) → Behind l r.stop a ∨ (a ∈ r.freed ∧ a ∉ l')
  found : ∀ a, l.find? (fun a => ¬ Expired now (entryAt c a) ∧ (entryAt c a).dirname = path) =
    some a → r.did = (entryAt c a).did

theorem preserves_iff_losesNothing (h : Linked c.heap Node.next c.base l)
    (hfuel : l.length ≤ fuel) :
    (∃ r, findDirid now path fuel c = some r ∧ Preserves now path c l r) ↔
      LosesNothing (entryAt c) now path l (walk (entryAt c) now path [] l) := by
  obtain ⟨c', hfind, hleaves⟩ := findDirid_walk now path h hfuel
  constructor
  · rintro ⟨r, hr, ⟨l', hl', hkept, hremoved⟩, hfound⟩
    obtain rfl := Option.some.inj (hfind.symm.trans hr)
    obtain rfl := hleaves.holds.1.unique hl'
    exact ⟨hkept, fun a ha hold => (hremoved a ha hold).imp_right And.left, hfound⟩
  · intro hloses
    refine ⟨_, hfind, ⟨_, hleaves.holds.1, hloses.kept, fun a ha hold => ?_⟩, hloses.found⟩
    exact (hloses.removed a ha hold).imp_right fun hmem =>
      ⟨hmem, walk_disjoint [] l h.nodup a hmem⟩

/-- **When a search loses nothing.** -/
theorem preserves_iff (h : Linked c.heap Node.next c.base l) (hfuel : l.length ≤ fuel) :
    (∃ r, findDirid now path fuel c = some r ∧ Preserves now path c l r) ↔
      Kept (entryAt c) now path l := by
  rw [preserves_iff_losesNothing h hfuel, losesNothing_iff h.nodup]

/-- A cache with two entries, the second of which is the older one. -/
def twoEntries : Cache where
  heap a :=
    if a = 1 then some ⟨⟨[slash, 97], 20, 100⟩, some 2⟩
    else if a = 2 then some ⟨⟨[slash, 98], 21, 50⟩, none⟩
    else none
  base := some 1
  expired := 0
  hits := 0

theorem linked_twoEntries : Linked twoEntries.heap Node.next twoEntries.base [1, 2] :=
  ⟨rfl, _, rfl, rfl, _, rfl, rfl⟩

/-- While both are valid, the second is found. -/
theorem preserves_iff_of_two :
    ∃ r, findDirid 55 [slash, 98] 2 twoEntries = some r ∧
      Preserves 55 [slash, 98] twoEntries [1, 2] r :=
  (preserves_iff linked_twoEntries le_rfl).mpr (.inr (by decide))

/-- **A valid entry is lost** with the old one behind it. -/
theorem valid_entry_is_lost :
    ¬ ∃ r, findDirid 105 [slash, 97, 97] 2 twoEntries = some r ∧
      Preserves 105 [slash, 97, 97] twoEntries [1, 2] r := by
  rw [preserves_iff_losesNothing linked_twoEntries (le_refl 2), losesNothing_iff (by decide)]
  exact fun h => h.elim (by decide) fun hnext => absurd (hnext 2 rfl) (by decide)

/-- The search in which it is lost is consistent. -/
theorem find_consistent_of_two :
    ∃ r, findDirid 105 [slash, 97, 97] 2 twoEntries = some r ∧
      Consistent 105 [slash, 97, 97] twoEntries [1, 2] r :=
  find_consistent linked_twoEntries le_rfl

end Simulation

end DidCache
end Afpfs

import Afpfs.Writing

/-!
# The lock of a byte range

`ll_read()` and `ll_write()` lock the range they are for, send their requests, and unlock it.
`held` is what a client has locked after its requests so far.

* `tracks_llRead`, `tracks_llWrite`: the two functions send data only while the range is locked, and
  have unlocked it when they return, unless `ll_handle_locking()` has run out of tries.
* `discipline_iff`: the locks are used as they should exactly if the first ten results do not all
  say that the lock is busy.  Running out of tries is no error.
* `busy_lock_is_no_error`: ten such results.
-/

set_option autoImplicit false

namespace Afpfs
namespace Locking

open Interaction Writing

/-! ## What is locked -/

/-- An effect with its answer. -/
abbrev Event := (e : Effect) × e.Answer

/-- A request with its result. -/
def requestOf : Event → Option (Request × ℤ)
  | ⟨.request r, reply⟩ => some (r, Reply.rc reply)
  | _ => none

/-- The requests of a trace with their results. -/
def requests (tr : List Event) : Log := tr.filterMap requestOf

/-- The range of a lock, as it is sent. -/
structure Range where
  forkid : UInt16
  offset : ℕ
  len : ℕ
  deriving DecidableEq

/-- Whether a request unlocks, and its range. -/
def lockRange : Request → Option (Bool × Range)
  | .byteRangeLock unlock forkid offset len => some (unlock, ⟨forkid, offset.toNat, len.toNat⟩)
  | .byteRangeLockExt unlock forkid offset len => some (unlock, ⟨forkid, offset.toNat, len.toNat⟩)
  | _ => none

/-- The locked ranges after a request: a range is locked when the lock is granted, and no longer
when an unlock request has been sent for it. -/
def heldStep (held : List Range) (entry : Request × ℤ) : List Range :=
  match lockRange entry.1 with
  | some (false, range) => if entry.2 = kFPNoErr then range :: held else held
  | some (true, range) => held.erase range
  | none => held

/-- The locked ranges after the requests. -/
def held (log : Log) : List Range := log.foldl heldStep []

/-- A request that reads or writes. -/
def isData : Request → Bool
  | .read .. => true
  | .readExt .. => true
  | .write .. => true
  | .writeExt .. => true
  | _ => false

/-- The range that `size` bytes from `offset` on are locked by. -/
def rangeOf (volume : Volume) (forkid : UInt16) (offset size : ℕ) : Range :=
  if volume.server.avNumber < 30 then
    ⟨forkid, (UInt32.ofNat offset).toNat, (UInt32.ofNat size).toNat⟩
  else ⟨forkid, (UInt64.ofNat offset).toNat, (UInt64.ofNat size).toNat⟩

/-! ## What is expected -/

/-- The results of the requests of a trace are the first ones of a sequence. -/
def Answered (results : ℕ → ℤ) (tr : List Event) : Prop :=
  (requests tr).map Prod.snd = (List.range (requests tr).length).map results

/-- Data is read or written only while the range is locked. -/
def Covered (range : Range) (tr : List Event) : Prop :=
  ∀ tr₁ r reply tr₂, tr = tr₁ ++ ⟨.request r, reply⟩ :: tr₂ → isData r = true →
    range ∈ held (requests tr₁)

/-- The locks are used as they should, whatever has happened so far: `ll_handle_locking()` returns 0
only if the lock was granted; `ll_read()` and `ll_write()` send data only while the range is locked,
and when they return nothing is locked. -/
structure Discipline (volume : Volume) (size offset : ℕ) (forkid : UInt16) (results : ℕ → ℤ) :
    Prop where
  granted : ∀ tr, Prog.Steps (llHandleLocking volume forkid offset size) tr (.done 0) →
    Answered results tr → rangeOf volume forkid offset size ∈ held (requests tr)
  read : ∀ tr q, Prog.Steps (llRead volume size offset forkid) tr q → Answered results tr →
    Covered (rangeOf volume forkid offset size) tr ∧
      ∀ a, q = .done a → held (requests tr) = []
  write : ∀ (data : List UInt8) fuel tr q, data.length = size →
    Prog.Steps (llWrite volume data offset forkid fuel) tr q → Answered results tr →
      Covered (rangeOf volume forkid offset size) tr ∧
        ∀ a, q = .done a → held (requests tr) = []

/-! ## Histories -/

section

variable {tr : List Event} {r : Request} {range : Range}

theorem requests_append (tr tr' : List Event) :
    requests (tr ++ tr') = requests tr ++ requests tr' := List.filterMap_append ..

theorem requests_snoc (tr : List Event) (r : Request) (reply : Reply r.Payload) :
    requests (tr ++ [⟨.request r, reply⟩]) = requests tr ++ [(r, reply.rc)] :=
  requests_append tr _

theorem held_snoc (log : Log) (entry : Request × ℤ) :
    held (log ++ [entry]) = heldStep (held log) entry := List.foldl_concat ..

/-- A request for data locks nothing. -/
theorem heldStep_of_isData (hr : isData r = true) (ranges : List Range) (rc : ℤ) :
    heldStep ranges (r, rc) = ranges := by
  cases r
  case read | readExt | write | writeExt => rfl
  all_goals exact absurd hr Bool.false_ne_true

/-- The tries are used up: the first ten results say that the lock is busy. -/
def Exhausted (log : Log) : Prop :=
  maxLocktrycount ≤ log.length ∧ ∀ entry ∈ log.take maxLocktrycount, Busy entry.2

theorem Exhausted.append {log : Log} (h : Exhausted log) (log' : Log) :
    Exhausted (log ++ log') := by
  refine ⟨?_, ?_⟩
  · rw [List.length_append]
    exact Nat.le_add_right_of_le h.1
  · rw [List.take_append_of_le_length h.1]
    exact h.2

/-- The range is locked, or the tries are used up. -/
def Guarded (range : Range) (tr : List Event) : Prop :=
  held (requests tr) = [range] ∨ (held (requests tr) = [] ∧ Exhausted (requests tr))

/-- What may be done after a history: data only if it is guarded. -/
def Allowed (range : Range) (tr : List Event) : Effect → Prop
  | .request r => isData r = true → Guarded range tr
  | _ => True

/-- A lock is guarded as long as only data is sent. -/
theorem Guarded.data (h : Guarded range tr) (hr : isData r = true) (reply : Reply r.Payload) :
    Guarded range (tr ++ [⟨.request r, reply⟩]) := by
  rw [Guarded, requests_snoc, held_snoc, heldStep_of_isData hr]
  exact h.imp id fun h => ⟨h.1, h.2.append _⟩

/-! ## The lock -/

variable {volume : Volume} {forkid : UInt16} {offset size : ℕ}

/-- A lock or unlock request. -/
def lockOf (volume : Volume) (unlock : Bool) (forkid : UInt16) (offset size : ℕ) : Request :=
  if volume.server.avNumber < 30 then .byteRangeLock unlock forkid (.ofNat offset) (.ofNat size)
  else .byteRangeLockExt unlock forkid (.ofNat offset) (.ofNat size)

theorem byteRangeLock_eq (volume : Volume) (unlock : Bool) (forkid : UInt16) (offset size : ℕ) :
    byteRangeLock volume unlock forkid offset size =
      requestRc (lockOf volume unlock forkid offset size) := by
  rw [byteRangeLock, lockOf]
  split
  · rfl
  · rfl

theorem lockRange_lockOf (volume : Volume) (unlock : Bool) (forkid : UInt16) (offset size : ℕ) :
    lockRange (lockOf volume unlock forkid offset size) =
      some (unlock, rangeOf volume forkid offset size) := by
  rw [lockOf, rangeOf]
  split
  · rfl
  · rfl

/-- A request for a lock is always allowed. -/
theorem allowed_lockOf (range : Range) (tr : List Event) (unlock : Bool) :
    Allowed range tr (.request (lockOf volume unlock forkid offset size)) := by
  intro hdata
  rw [lockOf] at hdata
  split at hdata
  · exact absurd hdata Bool.false_ne_true
  · exact absurd hdata Bool.false_ne_true

theorem heldStep_lock (ranges : List Range) (rc : ℤ) :
    heldStep ranges (lockOf volume false forkid offset size, rc) =
      if rc = kFPNoErr then rangeOf volume forkid offset size :: ranges else ranges := by
  rw [heldStep, lockRange_lockOf]

theorem heldStep_unlock (ranges : List Range) (rc : ℤ) :
    heldStep ranges (lockOf volume true forkid offset size, rc) =
      ranges.erase (rangeOf volume forkid offset size) := by
  rw [heldStep, lockRange_lockOf]

/-- What `ll_handle_locking()` comes to: 0 only with a lock or without tries, and else no lock. -/
structure Locked (range : Range) (tr : List Event) (ret : ℤ) : Prop where
  zero : ret = 0 → Guarded range tr
  error : ret ≠ 0 → held (requests tr) = []

/-- **The lock loop**, after results that all say that the lock is busy. -/
theorem tracks_lockLoop {tries : ℕ} (hlength : (requests tr).length + tries = maxLocktrycount)
    (hbusy : ∀ entry ∈ requests tr, Busy entry.2) (hheld : held (requests tr) = []) :
    Prog.Tracks (Allowed (rangeOf volume forkid offset size)) (fun _ => True)
      (Locked (rangeOf volume forkid offset size)) tr
      (lockLoop volume forkid offset size tries) := by
  induction tries generalizing tr with
  | zero =>
    have hfull : Exhausted (requests tr) :=
      ⟨Nat.le_of_eq hlength.symm, fun entry h => hbusy entry (List.mem_of_mem_take h)⟩
    exact ⟨fun _ => .inr ⟨hheld, hfull⟩, fun hne => absurd rfl hne⟩
  | succ tries ih =>
    rw [lockLoop, byteRangeLock_eq]
    refine ⟨allowed_lockOf _ _ _, fun reply => ?_⟩
    have hrequests := requests_snoc tr (lockOf volume false forkid offset size) reply
    have hafter : held (requests (tr ++
          [⟨.request (lockOf volume false forkid offset size), reply⟩])) =
        if reply.rc = kFPNoErr then [rangeOf volume forkid offset size] else [] := by
      rw [hrequests, held_snoc, heldStep_lock, hheld]
    generalize tr ++ [⟨.request (lockOf volume false forkid offset size), reply⟩] = tr' at *
    refine Prog.tracks_ite (fun hok => ?_) fun hok => Prog.tracks_ite (fun hagain => ?_) fun _ => ?_
    · -- the lock is granted
      rw [if_pos hok] at hafter
      exact ⟨fun _ => .inl hafter, fun hne => absurd rfl hne⟩
    · -- the lock is busy
      rw [if_neg hok] at hafter
      have hsleep : ∀ u, requests (tr' ++ [⟨.sleep, u⟩]) = requests tr' := fun u => by
        rw [requests_append]
        exact List.append_nil _
      refine ⟨trivial, fun _ => ih ?_ (fun entry hentry => ?_) ?_⟩
      · rw [hsleep, hrequests, List.length_append, List.length_singleton]
        omega
      · rw [hsleep, hrequests] at hentry
        rcases List.mem_append.mp hentry with h | h
        · exact hbusy entry h
        · rw [List.mem_singleton.mp h]
          exact hagain
      · rw [hsleep]
        exact hafter
    · rw [if_neg hok] at hafter
      exact ⟨fun hzero => absurd hzero (by decide), fun _ => hafter⟩

theorem tracks_llHandleLocking (hlock : volume.has VOLUME_EXTRA_FLAGS_NO_LOCKING = false) :
    Prog.Tracks (Allowed (rangeOf volume forkid offset size)) (fun _ => True)
      (Locked (rangeOf volume forkid offset size)) []
      (llHandleLocking volume forkid offset size) := by
  rw [llHandleLocking, if_neg (ne_true_of_eq_false hlock)]
  exact tracks_lockLoop rfl (fun entry h => absurd h List.not_mem_nil) rfl

/-- **Unlocking.**  Nothing is locked after it, whatever its result. -/
theorem tracks_llHandleUnlocking (hlock : volume.has VOLUME_EXTRA_FLAGS_NO_LOCKING = false)
    (h : Guarded (rangeOf volume forkid offset size) tr) :
    Prog.Tracks (Allowed (rangeOf volume forkid offset size)) (fun _ => True)
      (fun tr _ => held (requests tr) = []) tr
      (llHandleUnlocking volume forkid offset size) := by
  rw [llHandleUnlocking, if_neg (ne_true_of_eq_false hlock), byteRangeLock_eq]
  refine ⟨allowed_lockOf _ _ _, fun reply => ?_⟩
  have hafter : held (requests (tr ++
      [⟨.request (lockOf volume true forkid offset size), reply⟩])) = [] := by
    rw [show requests _ = _ from requests_snoc tr _ reply, held_snoc, heldStep_unlock]
    rcases h with hheld | ⟨hheld, -⟩
    · rw [hheld, List.erase_cons_head]
    · rw [hheld]
      rfl
  exact Prog.tracks_ite (fun _ => hafter) fun _ => hafter

/-! ## Reading and writing -/

theorem isData_writeOf (data : List UInt8) :
    isData (writeOf volume forkid offset size data) = true := by
  rw [writeOf]
  split
  · rfl
  · rfl

/-- A read request leaves the lock as it is. -/
theorem tracks_readRequest {range : Range} (h : Guarded range tr) (maxsize : UInt32) :
    Prog.Tracks (Allowed range) (fun _ => True) (fun tr _ => Guarded range tr) tr
      (readRequest volume forkid offset size maxsize) := by
  unfold readRequest
  split
  · exact ⟨fun _ => h, fun reply => h.data rfl reply⟩
  · exact ⟨fun _ => h, fun reply => h.data rfl reply⟩

theorem tracks_llRead (hlock : volume.has VOLUME_EXTRA_FLAGS_NO_LOCKING = false) :
    Prog.Tracks (Allowed (rangeOf volume forkid offset size)) (fun _ => True)
      (fun tr _ => held (requests tr) = []) [] (llRead volume size offset forkid) := by
  unfold llRead
  refine (tracks_llHandleLocking hlock).bind fun tr locked h => ?_
  refine Prog.tracks_ite (fun hne => h.error hne) fun hzero => ?_
  refine (tracks_readRequest (h.zero (not_not.mp hzero)) _).bind fun tr reply h => ?_
  refine (tracks_llHandleUnlocking hlock h).bind fun tr unlocked h => ?_
  refine Prog.tracks_ite (fun _ => h) fun _ => ?_
  refine Prog.tracks_ite (fun _ => h) fun _ => ?_
  refine Prog.tracks_ite (fun _ => h) fun _ => ?_
  exact Prog.tracks_ite (fun _ => h) fun _ => h

/-- The write loop keeps the lock, however long it goes on, and finds no error. -/
theorem tracks_writeLoop {range : Range} (h : Guarded range tr) (data : List UInt8)
    (fuel total o : ℕ) :
    Prog.Tracks (Allowed range) (fun _ => True) (fun tr result => Guarded range tr ∧ result.1 = 0) tr
      (writeLoop volume data offset forkid fuel total o) := by
  induction fuel generalizing tr total o with
  | zero =>
    rw [writeLoop]
    exact Prog.tracks_ite (fun _ => trivial) fun _ => ⟨h, rfl⟩
  | succ fuel ih =>
    rw [writeLoop]
    refine Prog.tracks_ite (fun _ => ?_) fun _ => ⟨h, rfl⟩
    -- the result of the request is overwritten
    have herr : writeErr 0 = 0 := rfl
    simp only [herr, ne_eq, not_true_eq_false, if_false]
    rw [writeRequest_eq]
    exact ⟨fun _ => h, fun reply => ih (h.data (isData_writeOf _) reply) _ _⟩

theorem tracks_llWrite (hlock : volume.has VOLUME_EXTRA_FLAGS_NO_LOCKING = false)
    (data : List UInt8) (fuel : ℕ) :
    Prog.Tracks (Allowed (rangeOf volume forkid offset data.length)) (fun _ => True)
      (fun tr _ => held (requests tr) = []) [] (llWrite volume data offset forkid fuel) := by
  unfold llWrite
  refine (tracks_llHandleLocking hlock).bind fun tr locked h => ?_
  refine Prog.tracks_ite (fun hne => h.error hne) fun hzero => ?_
  refine (tracks_writeLoop (h.zero (not_not.mp hzero)) data fuel 0 0).bind fun tr result h => ?_
  obtain ⟨h, herr⟩ := h
  refine Prog.tracks_ite (fun hne => absurd herr hne) fun _ => ?_
  refine (tracks_llHandleUnlocking hlock h).bind fun tr unlocked h => ?_
  exact Prog.tracks_ite (fun _ => h) fun _ => h

end

/-! ## The discipline -/

section

variable {volume : Volume} {size offset : ℕ} {forkid : UInt16} {results : ℕ → ℤ}

/-- A history whose results do not all say that the lock is busy has not used up the tries. -/
theorem not_exhausted {tr : List Event} (hanswered : Answered results tr)
    (hresults : ¬ ∀ i < maxLocktrycount, Busy (results i)) : ¬ Exhausted (requests tr) := by
  rintro ⟨hlength, hbusy⟩
  refine hresults fun i hi => ?_
  have hi' : i < (requests tr).length := Nat.lt_of_lt_of_le hi hlength
  have hrc : ((requests tr).map Prod.snd)[i]? = some (results i) := by
    rw [hanswered, List.getElem?_map, List.getElem?_range hi']
    rfl
  rw [List.getElem?_map, List.getElem?_eq_getElem hi', Option.map_some, Option.some.injEq] at hrc
  rw [← hrc]
  exact hbusy _ (List.mem_take_iff_getElem.mpr ⟨i, by omega, rfl⟩)

/-- The results of a part of the history are the first ones as well. -/
theorem Answered.prefix {tr₁ tr₂ : List Event} (h : Answered results (tr₁ ++ tr₂)) :
    Answered results tr₁ := by
  have htake := congrArg (List.take (requests tr₁).length) h
  rw [requests_append, List.map_append, List.take_left' (List.length_map _), List.length_append,
    List.range_add, List.map_append, List.take_left' (by simp)] at htake
  exact htake

/-- What the history rule says, where the tries are not used up. -/
theorem discipline_of_tracks {α : Type} {p : AfpM α} {range : Range}
    (h : Prog.Tracks (Allowed range) (fun _ => True) (fun tr _ => held (requests tr) = []) [] p)
    (hresults : ¬ ∀ i < maxLocktrycount, Busy (results i)) {tr : List Event} {q : AfpM α}
    (hsteps : Prog.Steps p tr q) (hanswered : Answered results tr) :
    Covered range tr ∧ ∀ a, q = .done a → held (requests tr) = [] := by
  obtain ⟨hall, hend⟩ := h.steps hsteps
  refine ⟨fun tr₁ r reply tr₂ heq hdata => ?_, fun a ha => by rwa [ha] at hend⟩
  rcases hall tr₁ _ tr₂ heq hdata with hheld | ⟨-, hfull⟩
  · rw [List.nil_append] at hheld
    rw [hheld]
    exact List.mem_singleton_self range
  · rw [heq] at hanswered
    exact absurd hfull (not_exhausted hanswered.prefix hresults)

/-- Where all results say that the lock is busy, the lock loop returns 0 after its tries. -/
theorem steps_lockLoop_busy (volume : Volume) (forkid : UInt16) (offset size : ℕ)
    (results : ℕ → ℤ) (tries k : ℕ) (hbusy : ∀ i < tries, Busy (results (k + i))) :
    ∃ tr, Prog.Steps (lockLoop volume forkid offset size tries) tr (.done 0) ∧
      (requests tr).map Prod.snd = (List.range tries).map (fun i => results (k + i)) ∧
      ∀ ranges, (requests tr).foldl heldStep ranges = ranges := by
  induction tries generalizing k with
  | zero => exact ⟨[], .refl _, rfl, fun _ => rfl⟩
  | succ tries ih =>
    obtain ⟨tr, hsteps, hresults, hheld⟩ := ih (k + 1) fun i hi => by
      rw [Nat.add_assoc, Nat.add_comm 1 i]
      exact hbusy (i + 1) (Nat.succ_lt_succ hi)
    have hfirst : Busy (results k) := hbusy 0 (Nat.succ_pos tries)
    have hne : results k ≠ kFPNoErr := by
      rcases hfirst with h | h
      · rw [h]
        decide
      · rw [h]
        decide
    let r := lockOf volume false forkid offset size
    refine ⟨⟨.request r, (⟨results k, none⟩ : Reply r.Payload)⟩ :: ⟨.sleep, ()⟩ :: tr, ?_, ?_, ?_⟩
    · rw [lockLoop, byteRangeLock_eq]
      refine .act ?_
      show Prog.Steps (if results k = kFPNoErr then _ else _) _ _
      rw [if_neg hne, if_pos (show _ ∨ _ from hfirst)]
      exact .act hsteps
    · show results k :: (requests tr).map Prod.snd = _
      rw [hresults, List.range_succ_eq_map, List.map_cons, List.map_map]
      congr 1
      refine List.map_congr_left fun i _ => ?_
      rw [Function.comp_apply, Nat.add_right_comm]
      rfl
    · intro ranges
      show (requests tr).foldl heldStep (heldStep ranges (r, results k)) = ranges
      rw [heldStep_lock, if_neg hne]
      exact hheld ranges

/-- **The locks are used as they should** exactly if the first ten results do not all say that the
lock is busy. -/
theorem discipline_iff (hlock : volume.has VOLUME_EXTRA_FLAGS_NO_LOCKING = false) :
    Discipline volume size offset forkid results ↔
      ¬ ∀ i < maxLocktrycount, Busy (results i) := by
  constructor
  · intro h hbusy
    obtain ⟨tr, hsteps, hresults, hheld⟩ :=
      steps_lockLoop_busy volume forkid offset size results maxLocktrycount 0 (by simpa using hbusy)
    have hlength : (requests tr).length = maxLocktrycount := by
      rw [← List.length_map Prod.snd, hresults, List.length_map, List.length_range]
    have hsteps' : Prog.Steps (llHandleLocking volume forkid offset size) tr (.done 0) := by
      rw [llHandleLocking, if_neg (ne_true_of_eq_false hlock)]
      exact hsteps
    have hgranted := h.granted tr hsteps' (by
      rw [Answered, hresults, hlength]
      simp)
    rw [held, hheld] at hgranted
    exact absurd hgranted List.not_mem_nil
  · intro h
    refine ⟨fun tr hsteps hanswered => ?_, fun tr q hsteps hanswered => ?_,
      fun data fuel tr q hlength hsteps hanswered => ?_⟩
    · obtain ⟨-, hend⟩ := (tracks_llHandleLocking hlock).steps hsteps
      rcases hend.zero rfl with hheld | ⟨-, hfull⟩
      · rw [List.nil_append] at hheld
        rw [hheld]
        exact List.mem_singleton_self _
      · exact absurd hfull (not_exhausted hanswered h)
    · exact discipline_of_tracks (tracks_llRead hlock) h hsteps hanswered
    · subst hlength
      exact discipline_of_tracks (tracks_llWrite hlock data fuel) h hsteps hanswered

/-- On a server that grants everything. -/
theorem discipline_iff_of_granting :
    Discipline .plain 5 0 7 (fun _ => kFPNoErr) ↔
      ¬ ∀ i < maxLocktrycount, Busy ((fun _ => kFPNoErr) i) :=
  discipline_iff rfl

/-- **Ten times busy.**  Each of the ten requests for the lock is refused, and
`ll_handle_locking()` returns 0 without a lock. -/
theorem busy_lock_is_no_error :
    ¬ ∀ (volume : Volume) (size offset : ℕ) (forkid : UInt16) (results : ℕ → ℤ),
      volume.has VOLUME_EXTRA_FLAGS_NO_LOCKING = false →
        Discipline volume size offset forkid results := by
  intro h
  obtain ⟨tr, hsteps, hresults, hheld⟩ :=
    steps_lockLoop_busy .plain 7 0 5 (fun _ => kFPLockErr) maxLocktrycount 0 fun i _ => .inr rfl
  have hlength : (requests tr).length = maxLocktrycount := by
    rw [← List.length_map Prod.snd, hresults, List.length_map, List.length_range]
  have hgranted := (h .plain 5 0 7 (fun _ => kFPLockErr) rfl).granted tr hsteps (by
    rw [Answered, hresults, hlength])
  rw [held, hheld] at hgranted
  exact absurd hgranted List.not_mem_nil

end

end Locking
end Afpfs

import Afpfs.Lowlevel
import Mathlib.Algebra.BigOperators.Group.List.Basic
import Mathlib.Algebra.GroupWithZero.Nat

/-!
# Writing against a server that may refuse

What `ll_write()` reports when the server answers the lock, write and unlock requests with
arbitrary result codes.  `Replies` gives the code for the n-th request of each kind, `handler`
answers with them and keeps the `Log` of all requests and their results.

The function never reports a failure: `err` is what it returns, the loop overwrites the result of
each write before looking at it, and a failed lock or unlock sets another variable.  So nothing
may fail.

* `exec_lockLoop`, `exec_writeLoop`: the requests of the two loops and their results.
* `llWrite_returns_zero`: the result is 0 whenever the function returns.
* `noSilentLoss_iff`: hence no data is lost silently exactly when the lock is granted within its
  tries, the transmit quantum is not 0 and every write and the unlock are accepted.
-/

set_option autoImplicit false

namespace Afpfs
namespace Writing

open Interaction

/-! ## The server -/

/-- The requests of a write. -/
inductive Kind where
  | lock
  | unlock
  | write
  | other
  deriving DecidableEq

/-- The kind of a request. -/
def kind : Request → Kind
  | .byteRangeLock false .. => .lock
  | .byteRangeLock true .. => .unlock
  | .byteRangeLockExt false .. => .lock
  | .byteRangeLockExt true .. => .unlock
  | .write .. => .write
  | .writeExt .. => .write
  | _ => .other

/-- The number of bytes that a request carries. -/
def carried : Request → ℕ
  | .write _ _ _ data => data.length
  | .writeExt _ _ _ data => data.length
  | _ => 0

/-- The result codes of the server: for the n-th lock, unlock and write request. -/
structure Replies where
  lock : ℕ → ℤ
  unlock : ℕ → ℤ
  write : ℕ → ℤ

/-- The requests so far with their results. -/
abbrev Log := List (Request × ℤ)

/-- The number of requests of a kind. -/
def count (k : Kind) (log : Log) : ℕ := log.countP fun entry => kind entry.1 = k

/-- The result of the next request. -/
def Replies.rc (replies : Replies) (log : Log) (r : Request) : ℤ :=
  match kind r with
  | .lock => replies.lock (count .lock log)
  | .unlock => replies.unlock (count .unlock log)
  | .write => replies.write (count .write log)
  | .other => -1

/-- The server with these result codes. -/
def handler (replies : Replies) (log : Log) : (e : Effect) → e.Answer × Log
  | .request r => (⟨replies.rc log r, none⟩, log ++ [(r, replies.rc log r)])
  | e => (e.zeroAnswer, log)

/-! ## What may not happen -/

/-- Locking is enabled and no lock was granted. -/
def LockFailed (volume : Volume) (log : Log) : Prop :=
  volume.has VOLUME_EXTRA_FLAGS_NO_LOCKING = false ∧
    ∀ entry ∈ log, kind entry.1 = .lock → entry.2 ≠ kFPNoErr

/-- A request of the kind was not accepted. -/
def Refused (k : Kind) (log : Log) : Prop :=
  ∃ entry ∈ log, kind entry.1 = k ∧ entry.2 ≠ kFPNoErr

/-- The number of bytes in the write requests that the server accepted. -/
def acceptedBytes (log : Log) : ℕ :=
  ((log.filter fun entry => kind entry.1 = .write ∧ entry.2 = kFPNoErr).map
    fun entry => carried entry.1).sum

/-- No data is lost silently: the function returns, with a negative value if the locking, a write
or the unlocking failed, and `*totalwritten` is the number of bytes the server accepted. -/
def NoSilentLoss (volume : Volume) (data : List UInt8) (offset : ℕ) (forkid : UInt16)
    (replies : Replies) : Prop :=
  ∃ fuel ret totalwritten log,
    Prog.exec (handler replies) (llWrite volume data offset forkid fuel) [] =
      some ((ret, totalwritten), log) ∧
    (LockFailed volume log ∨ Refused .write log ∨ Refused .unlock log → ret < 0) ∧
    totalwritten = acceptedBytes log

/-- The result of a lock request after which `ll_handle_locking()` tries again. -/
def Busy (rc : ℤ) : Prop := rc = kFPNoMoreLocks ∨ rc = kFPLockErr

instance (rc : ℤ) : Decidable (Busy rc) := inferInstanceAs (Decidable (_ ∨ _))

/-- From the `k`-th lock request on, one of the next `tries` is granted and until then the lock is
only busy. -/
def Granted (replies : Replies) (k tries : ℕ) : Prop :=
  ∃ i < tries, replies.lock (k + i) = kFPNoErr ∧ ∀ j < i, Busy (replies.lock (k + j))

/-- The number of write requests that `size` bytes need. -/
def requestsNeeded (volume : Volume) (size : ℕ) : ℕ :=
  (size + volume.server.txQuantum.toNat - 1) / volume.server.txQuantum.toNat

/-- The `i`-th piece of the data. -/
def piece (q : ℕ) (data : List UInt8) (i : ℕ) : List UInt8 := (data.drop (i * q)).take q

/-- The request for a piece. -/
def writeOf (volume : Volume) (forkid : UInt16) (offset n : ℕ) (data : List UInt8) : Request :=
  if volume.server.avNumber < 30 then .write forkid (.ofNat offset) (.ofNat n) data
  else .writeExt forkid (.ofNat offset) (.ofNat n) data

/-- The requests for the data, which goes to `offset` in the file. -/
def requestsOf (volume : Volume) (data : List UInt8) (offset : ℕ) (forkid : UInt16) :
    List Request :=
  let q := volume.server.txQuantum.toNat
  (List.range (requestsNeeded volume data.length)).map fun i =>
    writeOf volume forkid (offset + i * q) (piece q data i).length (piece q data i)

/-! ## The requests of the two loops -/

variable {replies : Replies}

theorem exec_requestRc_bind {β : Type} (r : Request) (f : ℤ → AfpM β) (log : Log) :
    Prog.exec (handler replies) (requestRc r >>= f) log =
      Prog.exec (handler replies) (f (replies.rc log r)) (log ++ [(r, replies.rc log r)]) := rfl

theorem exists_byteRangeLock (volume : Volume) (unlock : Bool) (forkid : UInt16) (offset n : ℕ) :
    ∃ r, kind r = (if unlock then .unlock else .lock) ∧
      byteRangeLock volume unlock forkid offset n = requestRc r := by
  unfold byteRangeLock
  by_cases hold : volume.server.avNumber < 30
  · exact ⟨.byteRangeLock unlock forkid (.ofNat offset) (.ofNat n), by cases unlock <;> rfl,
      if_pos hold⟩
  · exact ⟨.byteRangeLockExt unlock forkid (.ofNat offset) (.ofNat n), by cases unlock <;> rfl,
      if_neg hold⟩

theorem writeRequest_eq (volume : Volume) (forkid : UInt16) (offset n : ℕ) (data : List UInt8) :
    writeRequest volume forkid offset n data =
      requestRc (writeOf volume forkid offset n data) := by
  rw [writeRequest, writeOf]
  split
  · rfl
  · rfl

theorem kind_writeOf (volume : Volume) (forkid : UInt16) (offset n : ℕ) (data : List UInt8) :
    kind (writeOf volume forkid offset n data) = .write := by
  rw [writeOf]
  split
  · rfl
  · rfl

theorem carried_writeOf (volume : Volume) (forkid : UInt16) (offset n : ℕ) (data : List UInt8) :
    carried (writeOf volume forkid offset n data) = data.length := by
  rw [writeOf]
  split
  · rfl
  · rfl

theorem exists_writeRequest (volume : Volume) (forkid : UInt16) (offset n : ℕ)
    (data : List UInt8) :
    ∃ r, kind r = .write ∧ carried r = data.length ∧
      writeRequest volume forkid offset n data = requestRc r :=
  ⟨writeOf volume forkid offset n data, kind_writeOf volume forkid offset n data,
    carried_writeOf volume forkid offset n data, writeRequest_eq volume forkid offset n data⟩

theorem count_append (k : Kind) (log₁ log₂ : Log) :
    count k (log₁ ++ log₂) = count k log₁ + count k log₂ := List.countP_append

theorem count_eq_zero {k k' : Kind} (hk : k ≠ k') {log : Log}
    (hlog : ∀ entry ∈ log, kind entry.1 = k) : count k' log = 0 :=
  List.countP_eq_zero.mpr fun entry hentry => by
    simpa [hlog entry hentry] using hk

theorem granted_succ (k tries : ℕ) :
    Granted replies k (tries + 1) ↔
      replies.lock k = kFPNoErr ∨ (Busy (replies.lock k) ∧ Granted replies (k + 1) tries) := by
  constructor
  · rintro ⟨i, hi, hok, hbusy⟩
    cases i with
    | zero => exact Or.inl hok
    | succ i =>
      refine Or.inr ⟨hbusy 0 (Nat.succ_pos i), i, Nat.lt_of_succ_lt_succ hi, ?_, fun j hj => ?_⟩
      · rw [show k + 1 + i = k + (i + 1) by omega]
        exact hok
      · rw [show k + 1 + j = k + (j + 1) by omega]
        exact hbusy (j + 1) (Nat.succ_lt_succ hj)
  · rintro (hok | ⟨hbusy, i, hi, hok, hrest⟩)
    · exact ⟨0, Nat.succ_pos tries, hok, fun j hj => absurd hj (Nat.not_lt_zero j)⟩
    · refine ⟨i + 1, Nat.succ_lt_succ hi, ?_, fun j hj => ?_⟩
      · rw [show k + (i + 1) = k + 1 + i by omega]
        exact hok
      · cases j with
        | zero => exact hbusy
        | succ j =>
          rw [show k + (j + 1) = k + 1 + j by omega]
          exact hrest j (Nat.lt_of_succ_lt_succ hj)

/-- **The lock loop** sends lock requests only, and one of them is accepted exactly if the lock is
granted within the tries. -/
theorem exec_lockLoop (replies : Replies) (volume : Volume) (forkid : UInt16) (offset n tries : ℕ)
    (log : Log) :
    ∃ ret locks,
      Prog.exec (handler replies) (lockLoop volume forkid offset n tries) log =
        some (ret, log ++ locks) ∧
      (∀ entry ∈ locks, kind entry.1 = .lock) ∧
      (Granted replies (count .lock log) tries → ret = 0 ∧ ∃ entry ∈ locks, entry.2 = kFPNoErr) ∧
      (¬ Granted replies (count .lock log) tries → ∀ entry ∈ locks, entry.2 ≠ kFPNoErr) := by
  induction tries generalizing log with
  | zero =>
    refine ⟨0, [], by rw [List.append_nil]; rfl, by simp, ?_, by simp⟩
    rintro ⟨i, hi, -⟩
    exact absurd hi (Nat.not_lt_zero i)
  | succ tries ih =>
    obtain ⟨r, hkind, hr⟩ := exists_byteRangeLock volume false forkid offset n
    replace hkind : kind r = .lock := hkind
    have hrc : replies.rc log r = replies.lock (count .lock log) := by rw [Replies.rc, hkind]
    rw [lockLoop, hr, exec_requestRc_bind, granted_succ, ← hrc]
    by_cases hok : replies.rc log r = kFPNoErr
    · rw [if_pos hok]
      refine ⟨0, [(r, replies.rc log r)], rfl, by simpa using hkind, fun _ => ⟨rfl, ?_⟩,
        fun h => absurd (Or.inl hok) h⟩
      exact ⟨_, List.mem_singleton_self _, hok⟩
    rw [if_neg hok]
    by_cases hbusy : Busy (replies.rc log r)
    · rw [if_pos (show _ ∨ _ from hbusy)]
      obtain ⟨ret, locks, hexec, hlocks, hyes, hno⟩ := ih (log ++ [(r, replies.rc log r)])
      have hcount : count .lock (log ++ [(r, replies.rc log r)]) = count .lock log + 1 := by
        rw [count_append]
        simp [count, hkind]
      rw [hcount] at hyes hno
      refine ⟨ret, (r, replies.rc log r) :: locks, ?_, ?_, fun h => ?_, fun h => ?_⟩
      · rw [← List.append_cons] at hexec
        exact hexec
      · exact List.forall_mem_cons.mpr ⟨hkind, hlocks⟩
      · obtain ⟨hret, entry, hentry, hzero⟩ := hyes (h.resolve_left hok).2
        exact ⟨hret, entry, List.mem_cons_of_mem _ hentry, hzero⟩
      · exact List.forall_mem_cons.mpr ⟨hok, hno fun hg => h (Or.inr ⟨hbusy, hg⟩)⟩
    · rw [if_neg (show ¬ (_ ∨ _) from hbusy)]
      refine ⟨-1, [(r, replies.rc log r)], rfl, by simpa using hkind,
        fun h => absurd (h.resolve_left hok).1 hbusy, fun _ => by simpa using hok⟩

/-- With a quantum of 0 no bytes are ever sent, and the write loop does not end. -/
theorem exec_writeLoop_zero {volume : Volume} (hq : volume.server.txQuantum.toNat = 0)
    {data : List UInt8} {offset : ℕ} {forkid : UInt16} (fuel : ℕ) {total o : ℕ}
    (htotal : total < data.length) (log : Log) :
    Prog.exec (handler replies) (writeLoop volume data offset forkid fuel total o) log = none := by
  induction fuel generalizing o log with
  | zero =>
    rw [writeLoop, if_pos htotal]
    rfl
  | succ fuel ih =>
    rw [writeLoop, if_pos htotal]
    simp only [hq, Nat.not_lt_zero, if_false]
    obtain ⟨r, -, -, hr⟩ := exists_writeRequest volume forkid (offset + o) 0
      ((data.drop o).take 0)
    rw [hr, exec_requestRc_bind]
    exact ih _

theorem requestsOf_nil (offset : ℕ) (forkid : UInt16) (volume : Volume) :
    requestsOf volume [] offset forkid = [] := by
  have hzero : requestsNeeded volume ([] : List UInt8).length = 0 := by
    rw [requestsNeeded]
    rcases Nat.eq_zero_or_pos volume.server.txQuantum.toNat with h0 | hpos
    · rw [h0, Nat.div_zero]
    · exact Nat.div_eq_of_lt (by rw [List.length_nil]; omega)
  rw [requestsOf, hzero]
  rfl

/-- The first of the requests, and those for the rest of the data. -/
theorem requestsOf_of_ne_nil {volume : Volume} (hq : 0 < volume.server.txQuantum.toNat)
    {data : List UInt8} (hdata : data ≠ []) (offset : ℕ) (forkid : UInt16) {n : ℕ}
    (hn : n = if data.length < volume.server.txQuantum.toNat then data.length
      else volume.server.txQuantum.toNat) :
    requestsOf volume data offset forkid =
      writeOf volume forkid offset n (data.take n) ::
        requestsOf volume (data.drop n) (offset + n) forkid := by
  have hpos : 0 < data.length := List.length_pos_of_ne_nil hdata
  have hneeded : requestsNeeded volume data.length =
      requestsNeeded volume (data.drop n).length + 1 := by
    rw [requestsNeeded, requestsNeeded, List.length_drop]
    split at hn
    · rw [hn, Nat.sub_self,
        Nat.div_eq_of_lt (show 0 + volume.server.txQuantum.toNat - 1 < _ by omega)]
      exact Nat.div_eq_of_lt_le (by omega) (by omega)
    · rw [← Nat.add_div_right _ hq]
      congr 1
      omega
  have htake : data.take volume.server.txQuantum.toNat = data.take n := by
    split at hn
    · rw [hn, List.take_of_length_le (by omega), List.take_length]
    · rw [hn]
  have hlength : (data.take n).length = n := by
    rw [List.length_take]
    split at hn
    · omega
    · omega
  have hpiece : piece volume.server.txQuantum.toNat data 0 = data.take n := by
    rw [piece, Nat.zero_mul, List.drop_zero, htake]
  rw [requestsOf, hneeded, List.range_succ_eq_map, List.map_cons, List.map_map, hpiece, hlength,
    Nat.zero_mul, Nat.add_zero]
  congr 1
  rw [requestsOf]
  refine List.map_congr_left fun i hi => ?_
  have hfull : ¬ data.length < volume.server.txQuantum.toNat := by
    intro hlt
    rw [if_pos hlt] at hn
    have hnone : requestsNeeded volume (data.drop n).length = 0 := by
      rw [hn, List.drop_length, List.length_nil, requestsNeeded]
      exact Nat.div_eq_of_lt (by omega)
    rw [hnone] at hi
    exact absurd hi List.not_mem_nil
  rw [if_neg hfull] at hn
  have hnext : piece volume.server.txQuantum.toNat data (i + 1) =
      piece volume.server.txQuantum.toNat (data.drop n) i := by
    rw [piece, piece, List.drop_drop, hn, Nat.succ_mul, Nat.add_comm]
  rw [Function.comp_apply, Nat.succ_eq_add_one, hnext, hn, Nat.succ_mul]
  congr 1
  omega

/-- **The write loop** sends all of the data in write requests, one quantum each, whatever their
results. -/
theorem exec_writeLoop {volume : Volume} {data : List UInt8} (offset : ℕ) (forkid : UInt16)
    (hq : data = [] ∨ 0 < volume.server.txQuantum.toNat) (replies : Replies) (fuel : ℕ)
    {total : ℕ} (htotal : total ≤ data.length) (hfuel : data.length - total ≤ fuel) (log : Log) :
    ∃ writes,
      Prog.exec (handler replies) (writeLoop volume data offset forkid fuel total total) log =
        some ((0, data.length), log ++ writes) ∧
      writes.map Prod.fst = requestsOf volume (data.drop total) (offset + total) forkid ∧
      writes.map Prod.snd = (List.range writes.length).map
        fun i => replies.write (count .write log + i) := by
  induction fuel generalizing total log with
  | zero =>
    have heq : total = data.length := by omega
    refine ⟨[], ?_, ?_, rfl⟩
    · rw [writeLoop, if_neg (by omega), List.append_nil, heq]
      rfl
    · rw [heq, List.drop_length, requestsOf_nil]
      rfl
  | succ fuel ih =>
    by_cases hlt : total < data.length
    · obtain ⟨n, hn⟩ : ∃ n, n = (if data.length - total < volume.server.txQuantum.toNat then
          data.length - total else volume.server.txQuantum.toNat) := ⟨_, rfl⟩
      replace hq : 0 < volume.server.txQuantum.toNat := hq.resolve_left fun hnil => by
        rw [hnil] at hlt
        exact absurd hlt (Nat.not_lt_zero total)
      -- the chunk of this round
      have hpos : 0 < n := by split at hn <;> omega
      have hle : n ≤ data.length - total := by split at hn <;> omega
      have hdrop : data.drop total ≠ [] := fun hnil =>
        absurd (List.drop_eq_nil_iff.mp hnil) (by omega)
      rw [← List.length_drop] at hn
      have hfirst := requestsOf_of_ne_nil hq hdrop (offset + total) forkid hn
      rw [List.length_drop] at hn
      obtain ⟨r, hr⟩ : ∃ r, r = writeOf volume forkid (offset + total) n
        ((data.drop total).take n) := ⟨_, rfl⟩
      have hkind : kind r = .write := hr ▸ kind_writeOf volume forkid _ _ _
      have hrc : replies.rc log r = replies.write (count .write log) := by rw [Replies.rc, hkind]
      obtain ⟨writes, hexec, hrequests, hrcs⟩ :=
        ih (show total + n ≤ data.length by omega) (by omega) (log ++ [(r, replies.rc log r)])
      refine ⟨(r, replies.rc log r) :: writes, ?_, ?_, ?_⟩
      · rw [writeLoop, if_pos hlt]
        simp only [← hn]
        rw [writeRequest_eq, ← hr, exec_requestRc_bind, if_neg (by decide), hexec,
          List.append_assoc, List.singleton_append]
      · rw [List.map_cons, hrequests, hfirst, ← hr, List.drop_drop, Nat.add_assoc]
      · have hcount : count .write (log ++ [(r, replies.rc log r)]) = count .write log + 1 := by
          rw [count_append]
          simp [count, hkind]
        rw [List.map_cons, hrcs, List.length_cons, List.range_succ_eq_map, List.map_cons,
          List.map_map, hcount, hrc, Nat.add_zero]
        congr 1
        refine List.map_congr_left fun i _ => ?_
        rw [Function.comp_apply, Nat.succ_eq_add_one, show count .write log + (i + 1) =
          count .write log + 1 + i by omega]
    · have heq : total = data.length := by omega
      refine ⟨[], ?_, ?_, rfl⟩
      · rw [writeLoop, if_neg hlt, List.append_nil, heq]
        rfl
      · rw [heq, List.drop_length, requestsOf_nil]
        rfl

/-- The requests for the data are write requests. -/
theorem kind_of_mem_requestsOf {volume : Volume} {data : List UInt8} {offset : ℕ}
    {forkid : UInt16} {r : Request} (h : r ∈ requestsOf volume data offset forkid) :
    kind r = .write := by
  obtain ⟨i, -, rfl⟩ := List.mem_map.mp h
  exact kind_writeOf volume forkid _ _ _

/-- The requests carry all of the data. -/
theorem carried_requestsOf {volume : Volume} {data : List UInt8} (offset : ℕ) (forkid : UInt16)
    (hq : data = [] ∨ 0 < volume.server.txQuantum.toNat) :
    ((requestsOf volume data offset forkid).map carried).sum = data.length := by
  induction hsize : data.length using Nat.strong_induction_on generalizing data offset with
  | _ size ih =>
    by_cases hdata : data = []
    · rw [hdata, requestsOf_nil, ← hsize, hdata]
      rfl
    · have hpos := List.length_pos_of_ne_nil hdata
      have hquantum := hq.resolve_left hdata
      obtain ⟨n, hn⟩ : ∃ n, n = (if data.length < volume.server.txQuantum.toNat then data.length
          else volume.server.txQuantum.toNat) := ⟨_, rfl⟩
      have hle : 0 < n ∧ n ≤ data.length := by split at hn <;> omega
      have hdrop : (data.drop n).length = data.length - n := List.length_drop
      rw [requestsOf_of_ne_nil hquantum hdata offset forkid hn, List.map_cons, List.sum_cons,
        carried_writeOf, List.length_take, ih _ (by omega) (offset + n) (.inr hquantum) rfl, hdrop]
      omega

/-! ## The whole write -/

variable {volume : Volume} {data : List UInt8} {offset : ℕ} {forkid : UInt16}

/-- **The result is 0 whenever there is one.**  `err` is never set. -/
theorem writeLoop_err {fuel total o : ℕ} {log log' : Log} {err : ℤ} {total' : ℕ}
    (h : Prog.exec (handler replies) (writeLoop volume data offset forkid fuel total o) log =
      some ((err, total'), log')) : err = 0 := by
  induction fuel generalizing total o log with
  | zero =>
    rw [writeLoop] at h
    split at h
    · exact absurd h (by simp)
    · exact (congrArg (·.1.1) (Option.some.inj h)).symm
  | succ fuel ih =>
    rw [writeLoop] at h
    split at h
    · obtain ⟨n, hn⟩ : ∃ n, n = (if data.length - total < volume.server.txQuantum.toNat then
          data.length - total else volume.server.txQuantum.toNat) := ⟨_, rfl⟩
      simp only [← hn] at h
      obtain ⟨r, -, -, hr⟩ := exists_writeRequest volume forkid (offset + o) n
        ((data.drop o).take n)
      rw [hr, exec_requestRc_bind, if_neg (by decide)] at h
      exact ih h
    · exact (congrArg (·.1.1) (Option.some.inj h)).symm

theorem llWrite_returns_zero {fuel : ℕ} {log log' : Log} {ret : ℤ} {total : ℕ}
    (h : Prog.exec (handler replies) (llWrite volume data offset forkid fuel) log =
      some ((ret, total), log')) : ret = 0 := by
  rw [llWrite, Prog.exec_bind] at h
  obtain ⟨⟨locked, log₁⟩, -, h⟩ := Option.bind_eq_some_iff.mp h
  simp only at h
  split at h
  · exact (congrArg (·.1.1) (Option.some.inj h)).symm
  · rw [Prog.exec_bind] at h
    obtain ⟨⟨⟨err, total₁⟩, log₂⟩, hloop, h⟩ := Option.bind_eq_some_iff.mp h
    have herr := writeLoop_err hloop
    simp only at h
    rw [if_neg (not_not.mpr herr), Prog.exec_bind] at h
    obtain ⟨⟨unlocked, log₃⟩, -, h⟩ := Option.bind_eq_some_iff.mp h
    simp only at h
    split at h <;> exact (congrArg (·.1.1) (Option.some.inj h)).symm

/-! ## No silent loss -/

/-- The lock is granted, or not asked for. -/
def Lockable (volume : Volume) (replies : Replies) : Prop :=
  volume.has VOLUME_EXTRA_FLAGS_NO_LOCKING = true ∨ Granted replies 0 maxLocktrycount

/-- The unlock is accepted, or not asked for. -/
def Unlockable (volume : Volume) (replies : Replies) : Prop :=
  volume.has VOLUME_EXTRA_FLAGS_NO_LOCKING = true ∨ replies.unlock 0 = kFPNoErr

theorem lockFailed_append {log rest : Log} (h : ∀ entry ∈ rest, kind entry.1 ≠ .lock) :
    LockFailed volume (log ++ rest) ↔ LockFailed volume log := by
  refine and_congr_right fun _ => ⟨fun hall entry hentry => ?_, fun hall entry hentry => ?_⟩
  · exact hall entry (List.mem_append_left rest hentry)
  · rcases List.mem_append.mp hentry with hlog | hrest
    · exact hall entry hlog
    · exact fun hlock => absurd hlock (h entry hrest)

/-- **Locking** sends lock requests only.  It fails unless the volume is lockable; and if the
volume is lockable then the result is 0. -/
theorem exec_llHandleLocking (replies : Replies) (volume : Volume) (forkid : UInt16)
    (offset n : ℕ) :
    ∃ ret locks,
      Prog.exec (handler replies) (llHandleLocking volume forkid offset n) [] =
        some (ret, locks) ∧
      (∀ entry ∈ locks, kind entry.1 = .lock) ∧
      (Lockable volume replies → ret = 0) ∧
      (LockFailed volume locks ↔ ¬ Lockable volume replies) := by
  unfold llHandleLocking Lockable
  by_cases hno : volume.has VOLUME_EXTRA_FLAGS_NO_LOCKING = true
  · rw [if_pos hno]
    exact ⟨0, [], rfl, by simp, fun _ => rfl, by simp [LockFailed, hno]⟩
  · obtain ⟨ret, locks, hexec, hlocks, hyes, hnever⟩ :=
      exec_lockLoop replies volume forkid offset n maxLocktrycount []
    rw [if_neg hno]
    refine ⟨ret, locks, hexec, hlocks, fun h => (hyes (h.resolve_left hno)).1, ?_⟩
    constructor
    · rintro ⟨-, hall⟩ h
      obtain ⟨-, entry, hentry, hok⟩ := hyes (h.resolve_left hno)
      exact hall entry hentry (hlocks entry hentry) hok
    · intro h
      exact ⟨Bool.eq_false_iff.mpr hno,
        fun entry hentry _ => hnever (fun hg => h (Or.inr hg)) entry hentry⟩

/-- **Unlocking** sends unlock requests only. -/
theorem exec_llHandleUnlocking (replies : Replies) (volume : Volume) (forkid : UInt16)
    (offset n : ℕ) {log : Log} (hlog : count .unlock log = 0) :
    ∃ ret unlocks,
      Prog.exec (handler replies) (llHandleUnlocking volume forkid offset n) log =
        some (ret, log ++ unlocks) ∧
      (∀ entry ∈ unlocks, kind entry.1 = .unlock) ∧
      ((∀ entry ∈ unlocks, entry.2 = kFPNoErr) ↔ Unlockable volume replies) := by
  unfold llHandleUnlocking Unlockable
  by_cases hno : volume.has VOLUME_EXTRA_FLAGS_NO_LOCKING = true
  · rw [if_pos hno]
    exact ⟨0, [], by rw [List.append_nil]; rfl, by simp, by simp [hno]⟩
  · obtain ⟨r, hkind, hr⟩ := exists_byteRangeLock volume true forkid offset n
    replace hkind : kind r = .unlock := hkind
    have hrc : replies.rc log r = replies.unlock 0 := by rw [Replies.rc, hkind, hlog]
    rw [if_neg hno, hr, exec_requestRc_bind]
    refine ⟨if replies.rc log r = kFPNoErr then 0 else -1, [(r, replies.rc log r)], ?_,
      by simpa using hkind, by simp [hno, hrc]⟩
    split <;> rfl

/-- The requests of a whole write with their results, when the lock is not held against it. -/
theorem exec_llWrite (offset : ℕ) (forkid : UInt16) (replies : Replies)
    (hq : data = [] ∨ 0 < volume.server.txQuantum.toNat) {fuel : ℕ} (hfuel : data.length ≤ fuel) :
    ∃ total locks rest,
      Prog.exec (handler replies) (llWrite volume data offset forkid fuel) [] =
        some ((0, total), locks ++ rest) ∧
      (∀ entry ∈ locks, kind entry.1 = .lock) ∧
      (∀ entry ∈ rest, kind entry.1 ≠ .lock) ∧
      (LockFailed volume locks ↔ ¬ Lockable volume replies) ∧
      (Lockable volume replies → ∃ writes unlocks, rest = writes ++ unlocks ∧
        writes.map Prod.fst = requestsOf volume data offset forkid ∧
        total = data.length ∧
        (∀ entry ∈ writes, kind entry.1 = .write) ∧
        (∀ entry ∈ unlocks, kind entry.1 = .unlock) ∧
        (writes.map fun entry => carried entry.1).sum = data.length ∧
        writes.map Prod.snd =
          (List.range (requestsNeeded volume data.length)).map replies.write ∧
        ((∀ entry ∈ unlocks, entry.2 = kFPNoErr) ↔ Unlockable volume replies)) := by
  obtain ⟨ret, locks, hlock, hlocks, hyes, hfailed⟩ :=
    exec_llHandleLocking replies volume forkid offset data.length
  rw [llWrite, Prog.exec_bind_of hlock]
  by_cases hret : ret = 0
  · have hwrite : count .write locks = 0 := count_eq_zero (by decide) hlocks
    obtain ⟨writes, hexec, hrequests, hrcs⟩ :=
      exec_writeLoop offset forkid hq replies fuel (Nat.zero_le data.length) hfuel locks
    rw [List.drop_zero, Nat.add_zero] at hrequests
    have hwrites : ∀ entry ∈ writes, kind entry.1 = .write := fun entry hentry =>
      kind_of_mem_requestsOf (hrequests ▸ List.mem_map_of_mem hentry)
    have hsum : (writes.map fun entry => carried entry.1).sum = data.length := by
      rw [← carried_requestsOf offset forkid hq, ← hrequests, List.map_map]
      rfl
    have hlength : writes.length = requestsNeeded volume data.length := by
      rw [← List.length_map Prod.fst, hrequests, requestsOf, List.length_map, List.length_range]
    rw [hlength] at hrcs
    have hcount : count .unlock (locks ++ writes) = 0 := by
      rw [count_append, count_eq_zero (by decide) hlocks, count_eq_zero (by decide) hwrites]
    obtain ⟨unlocked, unlocks, hunlock, hunlocks, hall⟩ :=
      exec_llHandleUnlocking replies volume forkid offset data.length hcount
    refine ⟨data.length, locks, writes ++ unlocks, ?_, hlocks, ?_, hfailed, fun _ =>
      ⟨writes, unlocks, rfl, hrequests, rfl, hwrites, hunlocks, hsum, ?_, hall⟩⟩
    · rw [if_neg (not_not.mpr hret), Prog.exec_bind_of hexec]
      simp only [ne_eq, not_true_eq_false, if_false]
      rw [Prog.exec_bind_of hunlock, List.append_assoc]
      split <;> rfl
    · intro entry hentry
      rcases List.mem_append.mp hentry with h | h
      · rw [hwrites entry h]
        decide
      · rw [hunlocks entry h]
        decide
    · simpa [hwrite] using hrcs
  · rw [if_pos hret]
    refine ⟨0, locks, [], by rw [List.append_nil]; rfl, hlocks, by simp, hfailed,
      fun h => absurd (hyes h) hret⟩

/-- More fuel changes nothing. -/
theorem writeLoop_fuel_mono {fuel fuel' total o : ℕ} (hle : fuel ≤ fuel') {log : Log}
    {x : (ℤ × ℕ) × Log}
    (h : Prog.exec (handler replies) (writeLoop volume data offset forkid fuel total o) log =
      some x) :
    Prog.exec (handler replies) (writeLoop volume data offset forkid fuel' total o) log =
      some x := by
  induction fuel generalizing fuel' total o log with
  | zero =>
    rw [writeLoop] at h
    split at h
    · exact absurd h (by simp)
    · rename_i hdone
      cases fuel' with
      | zero =>
        rw [writeLoop, if_neg hdone]
        exact h
      | succ fuel' =>
        rw [writeLoop, if_neg hdone]
        exact h
  | succ fuel ih =>
    obtain ⟨fuel', rfl⟩ : ∃ n, fuel' = n + 1 := ⟨fuel' - 1, by omega⟩
    rw [writeLoop] at h ⊢
    split at h
    · rw [if_pos ‹_›]
      obtain ⟨n, hn⟩ : ∃ n, n = (if data.length - total < volume.server.txQuantum.toNat then
          data.length - total else volume.server.txQuantum.toNat) := ⟨_, rfl⟩
      simp only [← hn] at h ⊢
      obtain ⟨r, -, -, hr⟩ := exists_writeRequest volume forkid (offset + o) n
        ((data.drop o).take n)
      rw [hr, exec_requestRc_bind, if_neg (by decide)] at h ⊢
      exact ih (Nat.le_of_succ_le_succ hle) h
    · rw [if_neg ‹_›]
      exact h

theorem llWrite_fuel_mono {fuel fuel' : ℕ} (hle : fuel ≤ fuel') {x : (ℤ × ℕ) × Log}
    (h : Prog.exec (handler replies) (llWrite volume data offset forkid fuel) [] = some x) :
    Prog.exec (handler replies) (llWrite volume data offset forkid fuel') [] = some x := by
  rw [llWrite, Prog.exec_bind] at h ⊢
  obtain ⟨⟨locked, log₁⟩, hlock, h⟩ := Option.bind_eq_some_iff.mp h
  rw [hlock, Option.bind_some]
  simp only at h ⊢
  by_cases hlocked : locked ≠ 0
  · rw [if_pos hlocked] at h ⊢
    exact h
  · rw [if_neg hlocked, Prog.exec_bind] at h ⊢
    obtain ⟨written, hloop, h⟩ := Option.bind_eq_some_iff.mp h
    rw [writeLoop_fuel_mono hle hloop, Option.bind_some]
    exact h

/-- With a quantum of 0 a write of data returns only if it could not lock. -/
theorem lockFailed_of_quantum_zero (hne : data ≠ [])
    (hq : volume.server.txQuantum.toNat = 0) {fuel : ℕ} {x : ℤ × ℕ} {log : Log}
    (h : Prog.exec (handler replies) (llWrite volume data offset forkid fuel) [] =
      some (x, log)) : LockFailed volume log := by
  obtain ⟨ret, locks, hlock, -, hyes, hfailed⟩ :=
    exec_llHandleLocking replies volume forkid offset data.length
  rw [llWrite, Prog.exec_bind_of hlock] at h
  by_cases hret : ret = 0
  · rw [if_neg (not_not.mpr hret), Prog.exec_bind,
      exec_writeLoop_zero hq fuel (List.length_pos_of_ne_nil hne)] at h
    exact absurd h (by simp)
  · rw [if_pos hret] at h
    rw [← show locks = log from congrArg Prod.snd (Option.some.inj h)]
    exact hfailed.mpr fun hlockable => hret (hyes hlockable)

theorem acceptedBytes_append (log₁ log₂ : Log) :
    acceptedBytes (log₁ ++ log₂) = acceptedBytes log₁ + acceptedBytes log₂ := by
  rw [acceptedBytes, List.filter_append, List.map_append, List.sum_append]
  rfl

theorem acceptedBytes_eq_zero {log : Log} (h : ∀ entry ∈ log, kind entry.1 ≠ .write) :
    acceptedBytes log = 0 := by
  rw [acceptedBytes, List.filter_eq_nil_iff.mpr fun entry hentry => by simp [h entry hentry]]
  rfl

theorem acceptedBytes_eq_sum {log : Log}
    (h : ∀ entry ∈ log, kind entry.1 = .write ∧ entry.2 = kFPNoErr) :
    acceptedBytes log = (log.map fun entry => carried entry.1).sum := by
  rw [acceptedBytes, List.filter_eq_self.mpr fun entry hentry => by simpa using h entry hentry]

/-- Nothing of a kind is refused in the requests of other kinds. -/
theorem refused_append_iff {k : Kind} {log₁ log₂ : Log} :
    Refused k (log₁ ++ log₂) ↔ Refused k log₁ ∨ Refused k log₂ := by
  simp only [Refused, List.mem_append, or_and_right, exists_or]

theorem not_refused_of_kind {k k' : Kind} (hk : k ≠ k') {log : Log}
    (h : ∀ entry ∈ log, kind entry.1 = k) : ¬ Refused k' log := by
  rintro ⟨entry, hentry, hkind, -⟩
  exact hk ((h entry hentry).symm.trans hkind)

theorem not_refused_iff {k : Kind} {log : Log} (h : ∀ entry ∈ log, kind entry.1 = k) :
    ¬ Refused k log ↔ ∀ entry ∈ log, entry.2 = kFPNoErr := by
  constructor
  · intro hno entry hentry
    by_contra hne
    exact hno ⟨entry, hentry, h entry hentry, hne⟩
  · rintro hall ⟨entry, hentry, -, hne⟩
    exact hne (hall entry hentry)

/-- The write requests are all accepted exactly if the server's codes for them say so. -/
theorem writes_accepted_iff {writes : Log} {n : ℕ}
    (h : writes.map Prod.snd = (List.range n).map replies.write) :
    (∀ entry ∈ writes, entry.2 = kFPNoErr) ↔ ∀ i < n, replies.write i = kFPNoErr := by
  rw [← List.forall_mem_map (P := fun rc => rc = kFPNoErr) (f := Prod.snd), h]
  simp

/-- **No data is lost silently** exactly when nothing goes wrong: the lock is granted within its
tries, the quantum is not 0 if there is something to write, every write is accepted, and so is
the unlock. -/
theorem noSilentLoss_iff (volume : Volume) (data : List UInt8) (offset : ℕ) (forkid : UInt16)
    (replies : Replies) :
    NoSilentLoss volume data offset forkid replies ↔
      Lockable volume replies ∧
      (data = [] ∨ 0 < volume.server.txQuantum.toNat) ∧
      (∀ i < requestsNeeded volume data.length, replies.write i = kFPNoErr) ∧
      Unlockable volume replies := by
  constructor
  · rintro ⟨fuel, ret, total, log, hexec, hret, -⟩
    -- the result is 0, so nothing was allowed to fail
    have hzero : ret = 0 := llWrite_returns_zero hexec
    have hfine : ¬ (LockFailed volume log ∨ Refused .write log ∨ Refused .unlock log) := by
      intro h
      have := hret h
      omega
    have hq : data = [] ∨ 0 < volume.server.txQuantum.toNat := by
      by_contra h
      push Not at h
      exact hfine (Or.inl (lockFailed_of_quantum_zero h.1 (Nat.le_zero.mp h.2) hexec))
    obtain ⟨total', locks, rest, hexec', hlocks, hrest, hfailed, hwhole⟩ :=
      exec_llWrite offset forkid replies hq
        (Nat.le_max_right fuel data.length)
    have hlog : log = locks ++ rest := by
      rw [llWrite_fuel_mono (Nat.le_max_left fuel data.length) hexec] at hexec'
      exact congrArg Prod.snd (Option.some.inj hexec')
    subst hlog
    have hlockable : Lockable volume replies := by
      by_contra h
      exact hfine (Or.inl ((lockFailed_append hrest).mpr (hfailed.mpr h)))
    obtain ⟨writes, unlocks, rfl, -, -, hwrites, hunlocks, -, hrcs, hunlockable⟩ := hwhole hlockable
    simp only [refused_append_iff, not_or] at hfine
    exact ⟨hlockable, hq,
      (writes_accepted_iff hrcs).mp ((not_refused_iff hwrites).mp hfine.2.1.2.1),
      hunlockable.mp ((not_refused_iff hunlocks).mp hfine.2.2.2.2)⟩
  · rintro ⟨hlockable, hq, hok, hunlock⟩
    obtain ⟨total, locks, rest, hexec, hlocks, hrest, hfailed, hwhole⟩ :=
      exec_llWrite offset forkid replies hq le_rfl
    obtain ⟨writes, unlocks, rfl, -, rfl, hwrites, hunlocks, hsum, hrcs, hunlockable⟩ :=
      hwhole hlockable
    have haccepted := (writes_accepted_iff hrcs).mpr hok
    refine ⟨_, _, _, _, hexec, fun h => ?_, ?_⟩
    · simp only [refused_append_iff] at h
      rcases h with h | (h | h | h) | (h | h | h)
      · exact absurd hlockable (hfailed.mp ((lockFailed_append hrest).mp h))
      · exact absurd h (not_refused_of_kind (by decide) hlocks)
      · exact absurd h ((not_refused_iff hwrites).mpr haccepted)
      · exact absurd h (not_refused_of_kind (by decide) hunlocks)
      · exact absurd h (not_refused_of_kind (by decide) hlocks)
      · exact absurd h (not_refused_of_kind (by decide) hwrites)
      · exact absurd h ((not_refused_iff hunlocks).mpr (hunlockable.mpr hunlock))
    · have hlock : acceptedBytes locks = 0 :=
        acceptedBytes_eq_zero fun entry h => by rw [hlocks entry h]; decide
      have hnone : acceptedBytes unlocks = 0 :=
        acceptedBytes_eq_zero fun entry h => by rw [hunlocks entry h]; decide
      have hall : acceptedBytes writes = data.length :=
        (acceptedBytes_eq_sum fun entry h => ⟨hwrites entry h, haccepted entry h⟩).trans hsum
      rw [acceptedBytes_append, acceptedBytes_append, hlock, hnone, hall, zero_add, add_zero]

/-- A server with a full disk: it grants the lock and refuses every write. -/
def fullDisk : Replies where
  lock _ := kFPNoErr
  unlock _ := kFPNoErr
  write _ := kFPDiskFull

/-- **Lost on a full disk.**  The one write request is refused, and `ll_write()` reports success
with all five bytes written. -/
theorem full_disk_loses_the_data :
    Prog.exec (handler fullDisk) (llWrite .plain [1, 2, 3, 4, 5] 0 7 1) [] =
        some ((0, 5), [(.byteRangeLockExt false 7 0 5, kFPNoErr),
          (.writeExt 7 0 5 [1, 2, 3, 4, 5], kFPDiskFull),
          (.byteRangeLockExt true 7 0 5, kFPNoErr)]) ∧
      ¬ ∀ (volume : Volume) (data : List UInt8) (offset : ℕ) (forkid : UInt16)
        (replies : Replies), NoSilentLoss volume data offset forkid replies := by
  have hexec : ∀ fuel, 1 ≤ fuel →
      Prog.exec (handler fullDisk) (llWrite .plain [1, 2, 3, 4, 5] 0 7 fuel) [] =
        some ((0, 5), [(.byteRangeLockExt false 7 0 5, kFPNoErr),
          (.writeExt 7 0 5 [1, 2, 3, 4, 5], kFPDiskFull),
          (.byteRangeLockExt true 7 0 5, kFPNoErr)]) :=
    fun fuel hfuel => llWrite_fuel_mono hfuel rfl
  refine ⟨hexec 1 le_rfl, fun h => ?_⟩
  obtain ⟨fuel, ret, total, log, hrun, -, htotal⟩ := h .plain [1, 2, 3, 4, 5] 0 7 fullDisk
  have hrun' := llWrite_fuel_mono (Nat.le_max_left fuel 1) hrun
  rw [hexec _ (Nat.le_max_right fuel 1)] at hrun'
  obtain ⟨hret, rfl⟩ := Prod.mk.inj (Option.some.inj hrun')
  have h5 : (5 : ℕ) = total := congrArg Prod.snd hret
  rw [← h5] at htotal
  exact absurd htotal (by decide)

end Writing
end Afpfs

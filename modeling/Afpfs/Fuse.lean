import Afpfs.Midlevel
import Mathlib.Order.WellFounded
import Mathlib.Tactic.IntervalCases

/-!
# Reading through FUSE

`fuse_read()` calls `afp_ml_read()` until it has what was asked for, or the end of the file is
reported, or an error.  Size, offset and position in the buffer stay in step (`Inv`), so what it
returns is what the file has.  But a call may come to 0 bytes without the end of the file, and so
may all that follow.

* `exists_readLoop_iff`: the loop ends exactly if the calls do not stall.
* `reads_iff`: it ends with the right bytes exactly if the calls do not stall and their sum does
  not come out as another number as an `int`.
* `timeout_comes_to_neverAnswered`: a call whose request is not answered comes to 0 bytes without the
  end of the file.
-/

set_option autoImplicit false

namespace Afpfs
namespace Fuse

open Unicode Codepage Interaction

/-! ## The loop -/

/-- What a call of `afp_ml_read()` comes to: its result, what it stores and `*eof`. -/
structure MlRead where
  ret : Int32
  bytes : List UInt8
  eof : Bool

/-- The variables of the loop, and the number of calls that were made. -/
structure LoopState where
  made : ℕ
  amountRead : ℕ
  size : ℕ
  offset : ℕ
  buf : List UInt8

/-- What the loop comes to. -/
structure Result where
  made : ℕ
  ret : Int32
  buf : List UInt8

/-- The variables behind a call that does not end the loop. -/
def LoopState.next (s : LoopState) (call : MlRead) : LoopState :=
  { made := s.made + 1
    amountRead := s.amountRead + call.ret.toInt.toNat
    size := s.size - call.ret.toInt.toNat
    offset := s.offset + call.ret.toInt.toNat
    buf := patch s.buf s.amountRead call.bytes }

/-- The loop of `fuse_read()`, where the `k`-th call comes to `calls k`.  It has no result while it
is running.  What is returned is an `int`. -/
def readLoop (calls : ℕ → MlRead) : ℕ → LoopState → Option Result
  | 0, _ => none
  | fuel + 1, s =>
    let call := calls s.made
    let count := call.ret.toInt.toNat
    let buf := patch s.buf s.amountRead call.bytes
    if call.ret < 0 then some ⟨s.made + 1, call.ret, buf⟩
    else if call.eof then some ⟨s.made + 1, .ofNat (s.amountRead + count), buf⟩
    else if s.size - count = 0 then some ⟨s.made + 1, .ofNat (s.amountRead + count), buf⟩
    else readLoop calls fuel (s.next call)

/-- Where the loop begins. -/
def start (size offset : ℕ) (buf : List UInt8) : LoopState :=
  { made := 0, amountRead := 0, size := size, offset := offset, buf := buf }

/-- `fuse_read()` with the handle of an open file, if there is one. -/
def fuseRead (fh : Option Handle) (calls : ℕ → MlRead) (size offset : ℕ) (buf : List UInt8)
    (fuel : ℕ) : Option Result :=
  fh.elim (some ⟨0, .ofInt (-EBADF), buf⟩) fun _ => readLoop calls fuel (start size offset buf)

/-! ## What is expected -/

/-- How many bytes the first calls deliver. -/
def delivered (calls : ℕ → MlRead) : ℕ → ℕ
  | 0 => 0
  | n + 1 => delivered calls n + (calls n).ret.toInt.toNat

/-- The bytes that the first calls deliver. -/
def collected (calls : ℕ → MlRead) (n : ℕ) : List UInt8 :=
  (List.range n).flatMap fun k => (calls k).bytes

/-- The loop goes on behind a call. -/
def Goes (calls : ℕ → MlRead) (size k : ℕ) : Prop :=
  0 ≤ (calls k).ret ∧ (calls k).eof = false ∧ delivered calls (k + 1) < size

/-- A call that is asked for `size` bytes at `offset` fails, or delivers bytes of the file from
there on, at most as many. -/
def Delivers (F : List UInt8) (size offset : ℕ) (call : MlRead) : Prop :=
  call.ret < 0 ∨ call.ret.toInt = call.bytes.length ∧ call.bytes.length ≤ size ∧
    call.bytes = (F.drop offset).take call.bytes.length

/-- Each call that is made does so. -/
def Serves (F : List UInt8) (calls : ℕ → MlRead) (size offset : ℕ) : Prop :=
  ∀ n, (∀ k < n, Goes calls size k) →
    Delivers F (size - delivered calls n) (offset + delivered calls n) (calls n)

/-- The loop comes to an end, and if the result is not an error it is the number of bytes that were
delivered, which are those of the file and are in the buffer; there are fewer than asked for only if
the end of the file was reported. -/
structure Reads (F : List UInt8) (calls : ℕ → MlRead) (size offset : ℕ) (buf : List UInt8)
    (fh : Handle) : Prop where
  finite : ∃ fuel res, fuseRead (some fh) calls size offset buf fuel = some res
  right : ∀ fuel res, fuseRead (some fh) calls size offset buf fuel = some res → 0 ≤ res.ret →
    res.ret.toInt = (collected calls res.made).length ∧
      res.buf.take res.ret.toInt.toNat = collected calls res.made ∧
      collected calls res.made = (F.drop offset).take res.ret.toInt.toNat ∧
      (res.ret.toInt < size → ∃ k < res.made, (calls k).eof = true)

/-! ## When it is so -/

/-- No call fails or reports the end of the file, and from some call on none delivers anything,
while there are bytes missing. -/
def Stalls (calls : ℕ → MlRead) (size : ℕ) : Prop :=
  (∀ k, 0 ≤ (calls k).ret ∧ (calls k).eof = false) ∧
    ∃ n, delivered calls n < size ∧ ∀ k ≥ n, (calls k).ret = 0

/-- Where the last call does not fail, the number of bytes is negative as an `int`, or is the same
number. -/
def FitsInt (calls : ℕ → MlRead) (size : ℕ) : Prop :=
  ∀ n, (∀ k < n, Goes calls size k) → ¬ Goes calls size n → 0 ≤ (calls n).ret →
    0 ≤ Int32.ofNat (delivered calls (n + 1)) → delivered calls (n + 1) < 2 ^ 31

/-! ## Numbers -/

theorem toInt_nonneg {n : Int32} (h : 0 ≤ n) : 0 ≤ n.toInt := Int32.le_iff_toInt_le.mp h

theorem natCast_toNat {n : Int32} (h : 0 ≤ n) : (n.toInt.toNat : ℤ) = n.toInt :=
  Int.toNat_of_nonneg (toInt_nonneg h)

theorem eq_zero_iff {n : Int32} (h : 0 ≤ n) : n = 0 ↔ n.toInt.toNat = 0 := by
  have hcast := natCast_toNat h
  constructor
  · rintro rfl
    rfl
  · intro hzero
    refine Int32.toInt_inj.mp ?_
    rw [hzero] at hcast
    exact hcast.symm

theorem toInt_ofNat_iff {n : ℕ} :
    (Int32.ofNat n).toInt = n ↔ n < 2 ^ 31 := by
  constructor
  · intro heq
    have hlt := (Int32.ofNat n).toInt_lt
    omega
  · exact Int32.toInt_ofNat_of_lt

/-- A sequence that grows and is bounded comes to a stop. -/
theorem exists_stop {f : ℕ → ℕ} (hmono : Monotone f) {b : ℕ} (hbound : ∀ k, f k ≤ b) :
    ∃ n, ∀ k ≥ n, f k = f n := by
  refine ⟨Function.argmin fun k => b - f k, fun k hk => ?_⟩
  have hle := Function.argmin_le (fun k => b - f k) k
  have hgrow := hmono hk
  have hk' := hbound k
  have hn := hbound (Function.argmin fun k => b - f k)
  omega

/-! ## Buffers -/

theorem length_patch {buf bytes : List UInt8} {offset : ℕ} (h : offset + bytes.length ≤ buf.length) :
    (patch buf offset bytes).length = buf.length := by
  rw [patch]
  split
  · rfl
  · rw [Nat.sub_eq_zero_of_le (by omega), List.replicate_zero, List.append_nil, List.length_append,
      List.length_append, List.length_take, List.length_drop]
    omega

theorem take_patch {buf bytes : List UInt8} {offset : ℕ} (h : offset + bytes.length ≤ buf.length) :
    (patch buf offset bytes).take (offset + bytes.length) = buf.take offset ++ bytes := by
  rw [patch]
  split
  next hnil => rw [hnil, List.length_nil, Nat.add_zero, List.append_nil]
  next =>
    have hlen : (buf.take offset ++ bytes).length = offset + bytes.length := by
      rw [List.length_append, List.length_take, Nat.min_eq_left (by omega)]
    rw [Nat.sub_eq_zero_of_le (by omega), List.replicate_zero, List.append_nil, ← hlen,
      List.take_left]

theorem take_drop_append (F : List UInt8) (offset m n : ℕ) :
    (F.drop offset).take m ++ (F.drop (offset + m)).take n = (F.drop offset).take (m + n) := by
  rw [List.take_add, List.drop_drop]

/-! ## The invariant -/

section

variable {F : List UInt8} {calls : ℕ → MlRead} {size offset : ℕ} {s : LoopState}

theorem collected_succ (n : ℕ) :
    collected calls (n + 1) = collected calls n ++ (calls n).bytes := by
  rw [collected, List.range_succ, List.flatMap_append, ← collected, List.flatMap_singleton]

/-- Size, offset and buffer are in step. -/
structure Inv (F : List UInt8) (calls : ℕ → MlRead) (size offset : ℕ) (s : LoopState) : Prop where
  goes : ∀ k < s.made, Goes calls size k
  amount : s.amountRead = delivered calls s.made
  missing : 0 < s.size ∧ s.amountRead + s.size = size
  place : s.offset = offset + s.amountRead
  room : s.buf.length = size
  count : (collected calls s.made).length = s.amountRead
  stored : s.buf.take s.amountRead = collected calls s.made
  file : collected calls s.made = (F.drop offset).take s.amountRead

theorem inv_start (hsize : 0 < size) {buf : List UInt8} (hbuf : buf.length = size) :
    Inv F calls size offset (start size offset buf) where
  goes := fun k hk => absurd hk (Nat.not_lt_zero k)
  amount := rfl
  missing := ⟨hsize, Nat.zero_add size⟩
  place := rfl
  room := hbuf
  count := rfl
  stored := rfl
  file := rfl

/-- What a call delivers is added. -/
structure Added (F : List UInt8) (calls : ℕ → MlRead) (size offset : ℕ) (s : LoopState) : Prop where
  amount : s.amountRead + (calls s.made).ret.toInt.toNat = delivered calls (s.made + 1)
  atMost : delivered calls (s.made + 1) ≤ size
  room : (patch s.buf s.amountRead (calls s.made).bytes).length = size
  count : (collected calls (s.made + 1)).length = delivered calls (s.made + 1)
  stored : (patch s.buf s.amountRead (calls s.made).bytes).take (delivered calls (s.made + 1)) =
    collected calls (s.made + 1)
  file : collected calls (s.made + 1) = (F.drop offset).take (delivered calls (s.made + 1))

theorem Inv.added (h : Inv F calls size offset s) (hserves : Serves F calls size offset)
    (hret : 0 ≤ (calls s.made).ret) : Added F calls size offset s := by
  have hdelivers := hserves s.made h.goes
  rw [← h.amount] at hdelivers
  obtain ⟨hlen, hle, hbytes⟩ := hdelivers.resolve_left (Int32.not_lt.mpr hret)
  have hcount : (calls s.made).ret.toInt.toNat = (calls s.made).bytes.length := by
    rw [hlen, Int.toNat_natCast]
  have hmissing := h.missing
  have hroom : s.amountRead + (calls s.made).bytes.length ≤ s.buf.length := by
    rw [h.room]
    omega
  have hnext : delivered calls (s.made + 1) = s.amountRead + (calls s.made).bytes.length := by
    rw [delivered, hcount, h.amount]
  refine ⟨by rw [hnext, hcount], by rw [hnext]; omega, ?_, ?_, ?_, ?_⟩
  · rw [length_patch hroom, h.room]
  · rw [collected_succ, List.length_append, h.count, hnext]
  · rw [hnext, take_patch hroom, h.stored, collected_succ]
  · rw [collected_succ, h.file, hnext, ← take_drop_append, ← hbytes]

/-- What the loop has come to with a call that it does not go on behind. -/
structure Ended (F : List UInt8) (calls : ℕ → MlRead) (size offset n : ℕ) (res : Result) :
    Prop where
  made : res.made = n + 1
  goes : ∀ k < n, Goes calls size k
  stops : ¬ Goes calls size n
  failed : (calls n).ret < 0 → res.ret = (calls n).ret
  returned : 0 ≤ (calls n).ret → res.ret = .ofNat (delivered calls (n + 1)) ∧
    res.buf.take (delivered calls (n + 1)) = collected calls (n + 1) ∧
    (collected calls (n + 1)).length = delivered calls (n + 1) ∧
    collected calls (n + 1) = (F.drop offset).take (delivered calls (n + 1)) ∧
    ((calls n).eof = true ∨ delivered calls (n + 1) = size)

/-- The call is the last one. -/
theorem Inv.ended (h : Inv F calls size offset s) (hret : 0 ≤ (calls s.made).ret)
    (hadded : Added F calls size offset s)
    (hlast : (calls s.made).eof = true ∨ delivered calls (s.made + 1) = size) :
    Ended F calls size offset s.made
      ⟨s.made + 1, .ofNat (s.amountRead + (calls s.made).ret.toInt.toNat),
        patch s.buf s.amountRead (calls s.made).bytes⟩ where
  made := rfl
  goes := h.goes
  stops := by
    rintro ⟨-, heof, hlt⟩
    rcases hlast with hlast | hlast
    · exact Bool.noConfusion (heof.symm.trans hlast)
    · exact Nat.lt_irrefl _ (hlast ▸ hlt)
  failed := fun hneg => absurd hret (Int32.not_le.mpr hneg)
  returned := fun _ =>
    ⟨congrArg Int32.ofNat hadded.amount, hadded.stored, hadded.count, hadded.file, hlast⟩

/-- Behind a call that is not the last one everything is in step. -/
theorem Inv.next (h : Inv F calls size offset s) (hadded : Added F calls size offset s)
    (hgoes : Goes calls size s.made) : Inv F calls size offset (s.next (calls s.made)) where
  goes := fun k hk => (Nat.lt_succ_iff_lt_or_eq.mp hk).elim (h.goes k) fun heq => heq ▸ hgoes
  amount := hadded.amount
  missing := by
    have hmissing := h.missing
    have hamount := hadded.amount
    have hlt := hgoes.2.2
    show 0 < s.size - (calls s.made).ret.toInt.toNat ∧
      s.amountRead + (calls s.made).ret.toInt.toNat +
        (s.size - (calls s.made).ret.toInt.toNat) = size
    omega
  place := by
    have hplace := h.place
    show s.offset + (calls s.made).ret.toInt.toNat =
      offset + (s.amountRead + (calls s.made).ret.toInt.toNat)
    omega
  room := hadded.room
  count := hadded.count.trans hadded.amount.symm
  stored := by
    have hstored := hadded.stored
    rwa [← hadded.amount] at hstored
  file := by
    have hfile := hadded.file
    rwa [← hadded.amount] at hfile

/-- **The loop, from a state in which everything is in step.** -/
theorem readLoop_spec (hserves : Serves F calls size offset) (fuel : ℕ)
    (h : Inv F calls size offset s) :
    (∀ res, readLoop calls fuel s = some res → ∃ n, Ended F calls size offset n res) ∧
      (readLoop calls fuel s = none → ∀ k < s.made + fuel, Goes calls size k) := by
  induction fuel generalizing s with
  | zero => exact ⟨fun res hres => absurd hres.symm (Option.some_ne_none res), fun _ => h.goes⟩
  | succ fuel ih =>
    rw [readLoop]
    by_cases hneg : (calls s.made).ret < 0
    · rw [if_pos hneg]
      refine ⟨fun res hres => ⟨s.made, ?_⟩, fun hnone => absurd hnone (Option.some_ne_none _)⟩
      rw [← Option.some.inj hres]
      exact ⟨rfl, h.goes, fun hgoes => Int32.not_lt.mpr hgoes.1 hneg, fun _ => rfl,
        fun hret => absurd hneg (Int32.not_lt.mpr hret)⟩
    have hret := Int32.not_lt.mp hneg
    have hadded := h.added hserves hret
    have hamount := hadded.amount
    have hmissing := h.missing
    rw [if_neg hneg]
    by_cases heof : (calls s.made).eof = true
    · rw [if_pos heof]
      refine ⟨fun res hres => ⟨s.made, ?_⟩, fun hnone => absurd hnone (Option.some_ne_none _)⟩
      rw [← Option.some.inj hres]
      exact h.ended hret hadded (.inl heof)
    rw [if_neg heof]
    by_cases hfull : s.size - (calls s.made).ret.toInt.toNat = 0
    · rw [if_pos hfull]
      refine ⟨fun res hres => ⟨s.made, ?_⟩, fun hnone => absurd hnone (Option.some_ne_none _)⟩
      rw [← Option.some.inj hres]
      have hatMost := hadded.atMost
      exact h.ended hret hadded (.inr (by omega))
    · rw [if_neg hfull]
      have hgoes : Goes calls size s.made := ⟨hret, Bool.eq_false_iff.mpr heof, by omega⟩
      obtain ⟨hsome, hnone⟩ := ih (h.next hadded hgoes)
      refine ⟨hsome, fun h k hk => hnone h k ?_⟩
      show k < s.made + 1 + fuel
      omega

/-! ## The end of the loop -/

theorem delivered_mono : Monotone (delivered calls) :=
  monotone_nat_of_le_succ fun _ => Nat.le_add_right _ _

/-- **The loop goes on for ever exactly if the calls stall.** -/
theorem forall_goes_iff (hsize : 0 < size) :
    (∀ k, Goes calls size k) ↔ Stalls calls size := by
  constructor
  · intro h
    have hlt : ∀ k, delivered calls k < size := fun k => by
      cases k with
      | zero => exact hsize
      | succ k => exact (h k).2.2
    obtain ⟨n, hn⟩ := exists_stop delivered_mono fun k => Nat.le_of_lt (hlt k)
    refine ⟨fun k => ⟨(h k).1, (h k).2.1⟩, n, hlt n, fun k hk => ?_⟩
    have hsame := (hn (k + 1) (Nat.le_succ_of_le hk)).trans (hn k hk).symm
    rw [delivered] at hsame
    exact (eq_zero_iff (h k).1).mpr (by omega)
  · rintro ⟨hquiet, n, hn, hzero⟩ k
    refine ⟨(hquiet k).1, (hquiet k).2, ?_⟩
    have hsame : ∀ j, delivered calls (n + j) = delivered calls n := fun j => by
      induction j with
      | zero => rfl
      | succ j ih =>
        have hret := hzero (n + j) (Nat.le_add_right n j)
        rw [← Nat.add_assoc, delivered, hret, ih]
        rfl
    refine Nat.lt_of_le_of_lt (delivered_mono (Nat.le_add_left (k + 1) n)) ?_
    rwa [hsame]

variable {buf : List UInt8}

/-- **The loop ends exactly if the calls do not stall.** -/
theorem exists_readLoop_iff (hserves : Serves F calls size offset) (hsize : 0 < size)
    (hbuf : buf.length = size) :
    (∃ fuel res, readLoop calls fuel (start size offset buf) = some res) ↔
      ¬ Stalls calls size := by
  have hinv : Inv F calls size offset (start size offset buf) := inv_start hsize hbuf
  rw [← forall_goes_iff hsize]
  constructor
  · rintro ⟨fuel, res, hres⟩ hgoes
    obtain ⟨n, hended⟩ := (readLoop_spec hserves fuel hinv).1 res hres
    exact hended.stops (hgoes n)
  · intro h
    obtain ⟨n, hn⟩ := not_forall.mp h
    cases hres : readLoop calls (n + 1) (start size offset buf) with
    | some res => exact ⟨n + 1, res, hres⟩
    | none =>
      have hgoes := (readLoop_spec hserves (n + 1) hinv).2 hres n
      exact absurd (hgoes (Nat.lt_add_left 0 (Nat.lt_succ_self n))) hn

theorem Ended.unique {n m : ℕ} {res : Result} (h : Ended F calls size offset n res)
    (hgoes : ∀ k < m, Goes calls size k) (hstops : ¬ Goes calls size m) : n = m := by
  rcases Nat.lt_trichotomy n m with hlt | heq | hgt
  · exact absurd (hgoes n hlt) h.stops
  · exact heq
  · exact absurd (h.goes m hgt) hstops

end

/-- **When a read is right.** -/
theorem reads_iff (F : List UInt8) (calls : ℕ → MlRead) (size offset : ℕ) (buf : List UInt8)
    (fh : Handle) (hsize : 0 < size) (hbuf : buf.length = size)
    (hserves : Serves F calls size offset) :
    Reads F calls size offset buf fh ↔ ¬ Stalls calls size ∧ FitsInt calls size := by
  have hinv : Inv F calls size offset (start size offset buf) := inv_start hsize hbuf
  have hends : (∃ fuel res, fuseRead (some fh) calls size offset buf fuel = some res) ↔
      ¬ Stalls calls size := exists_readLoop_iff hserves hsize hbuf
  constructor
  · intro h
    refine ⟨hends.mp h.finite, fun n hgoes hstops hret hint => ?_⟩
    obtain ⟨fuel, res, hres⟩ := h.finite
    obtain ⟨m, hended⟩ := (readLoop_spec hserves fuel hinv).1 res hres
    obtain rfl := hended.unique hgoes hstops
    obtain ⟨hreturned, -, hcount, -⟩ := hended.returned hret
    rw [← hreturned] at hint
    have hright := (h.right fuel res hres hint).1
    rw [hended.made, hcount, hreturned] at hright
    exact toInt_ofNat_iff.mp hright
  · rintro ⟨hstalls, hfits⟩
    refine ⟨hends.mpr hstalls, fun fuel res hres hres' => ?_⟩
    obtain ⟨n, hended⟩ := (readLoop_spec hserves fuel hinv).1 res hres
    have hret : 0 ≤ (calls n).ret := Int32.not_lt.mp fun hneg =>
      absurd hres' (Int32.not_le.mpr (hended.failed hneg ▸ hneg))
    obtain ⟨hreturned, hstored, hcount, hfile, hlast⟩ := hended.returned hret
    have hvalue := toInt_ofNat_iff.mpr (hfits n hended.goes hended.stops hret (hreturned ▸ hres'))
    rw [hreturned, hvalue, hended.made, Int.toNat_natCast]
    refine ⟨by rw [hcount], hstored, hfile, fun hlt => ⟨n, Nat.lt_succ_self n, ?_⟩⟩
    exact hlast.resolve_right fun hfull => absurd hlt (by rw [hfull]; exact Int.lt_irrefl _)

/-- Calls that deliver three bytes of a file, one at a time and an empty one between. -/
def shortReads : ℕ → MlRead
  | 0 => ⟨1, [7], false⟩
  | 1 => ⟨0, [], false⟩
  | 2 => ⟨1, [8], false⟩
  | _ => ⟨1, [9], true⟩

theorem serves_shortReads : Serves [7, 8, 9] shortReads 3 0 := by
  intro n hgoes
  have hlt : n < 4 := Nat.lt_of_not_le fun hle =>
    absurd (hgoes 3 hle).2.1 (by decide)
  refine .inr ?_
  interval_cases n <;> decide

theorem reads_iff_of_shortReads :
    Reads [7, 8, 9] shortReads 3 0 [0, 0, 0] 0 ↔ ¬ Stalls shortReads 3 ∧ FitsInt shortReads 3 :=
  reads_iff [7, 8, 9] shortReads 3 0 [0, 0, 0] 0 (by decide) rfl serves_shortReads

/-- A call that is never answered. -/
def neverAnswered : MlRead := ⟨0, [], false⟩

/-- The call that comes to a result of `afp_ml_read()`. -/
def callOf (result : ReadResult) : MlRead :=
  { ret := .ofInt result.ret, bytes := result.buf.take result.ret.toNat, eof := result.eof }

/-- A request that is not answered, wherever the loop has come to. -/
theorem timeout_comes_to_neverAnswered (offset : ℕ) (fp : AfpFileInfo) (hfork : fp.resource = .none) :
    ∃ result, Prog.Steps
      (afpMlRead { Volume.plain with extraFlags := VOLUME_EXTRA_FLAGS_NO_LOCKING } [0x2f, 0x66] [0]
        offset fp)
      [⟨.request (.readExt fp.forkid (.ofNat offset) 1 1),
        (⟨ETIMEDOUT, none⟩ : Reply (List UInt8))⟩] (.done result) ∧ callOf result = neverAnswered := by
  refine ⟨⟨0, [0], 0, false, fp⟩, ?_, rfl⟩
  have hconvert : convertPathToAfp .kFPUTF8Name [0x2f, 0x66] AFP_MAX_PATH = some (0, [0x2f, 0x66]) :=
    rfl
  have hnot : ¬ fp.resource ≠ .none := not_not.mpr hfork
  rw [afpMlRead]
  show Prog.Steps (ofOption (convertPathToAfp .kFPUTF8Name [0x2f, 0x66] AFP_MAX_PATH) >>= _) _ _
  rw [hconvert, ofOption_some_bind]
  show Prog.Steps ((if fp.resource ≠ .none then _ else _) >>= _) _ _
  rw [if_neg hnot]
  rw [pure_bind, if_neg (Int.lt_irrefl 0), if_neg fun h => hnot h.1]
  exact .act (.refl _)

/-- **The loop does not end** when the server does not answer any more. -/
theorem loop_without_end :
    ¬ ∀ (F : List UInt8) (calls : ℕ → MlRead) (size offset : ℕ) (buf : List UInt8) (fh : Handle),
      0 < size → buf.length = size → Serves F calls size offset →
        Reads F calls size offset buf fh := by
  intro h
  have hserves : Serves [7] (fun _ => neverAnswered) 1 0 := fun n _ =>
    .inr ⟨rfl, Nat.zero_le _, rfl⟩
  have hstalls : Stalls (fun _ => neverAnswered) 1 :=
    ⟨fun _ => ⟨Int32.le_refl 0, rfl⟩, 0, Nat.zero_lt_one, fun _ _ => rfl⟩
  have hreads := h [7] (fun _ => neverAnswered) 1 0 [0] 0 Nat.zero_lt_one rfl hserves
  exact (exists_readLoop_iff hserves Nat.zero_lt_one rfl).mp hreads.finite hstalls

end Fuse
end Afpfs

import Mathlib.Algebra.Order.Group.Nat
import Mathlib.Data.List.Infix
import Afpfs.Daemon.Interface
import Afpfs.Lib.Memory
import Afpfs.Lib.Transition
import Afpfs.Lib.Wire

/-!
# The answer of the daemon

A client of `afpfsd` sends a command and reads the response with `read_answer()`: a loop of
`select()` and `read()` that adds to `connection.data` what has come, until as many bytes are
there as the header says.  A response begins with a `struct afp_server_response_header`: the
result (one byte), three bytes of padding and the total length, in the byte order of the host
(little endian here).

`Stream response` is the system of the loop and a daemon that sends `response`: each turn the
`read()` returns some bytes of it, at most as many as there is space, or finds the connection
closed or broken, or `select()` gives up.  `Framed` is what is expected of it: whatever the cut,
`read_answer()` returns the result of the response with all of it in `connection.data`, or an
error.

* `readAnswer_run`: this holds of every run in which the connection is not closed, no `read()` fails
  after a `select()` that did not, and the first segment has the length of the response.
* `closed_connection_is_okay`: otherwise it may fail.  A connection that is closed before the
  first byte is taken for the result `AFP_SERVER_RESULT_OKAY`.
-/

set_option autoImplicit false

namespace Afpfs
namespace Daemon

namespace Answer

open Memory Transition

/-! ## The header -/

/-- The `result` of the header at the start of a buffer, a `char`. -/
def headerResult (m : ℕ → UInt8) : ℤ := (m 0).toInt8.toInt

/-- A response of the daemon: a header whose `len` is the total length, and its body. -/
structure WellFormed (response : List UInt8) : Prop where
  header : responseHeaderSize ≤ response.length
  len : headerLen (zeroPadded response) = response.length

/-! ## The loop -/

/-- One turn of the loop.  A `select()` that fails leaves the descriptor set as it was, so that
the socket is read then as well. -/
inductive Round where
  | timedOut
  | selected (failed : Bool) (read : ReadResult)
  deriving DecidableEq

/-- Where `read_answer()` is.  `outside` stands for a `read()` into memory behind the array. -/
inductive Outcome where
  | waiting
  | returned (rc : ℤ)
  | outside
  deriving DecidableEq

/-- The variables of `read_answer()`, and what the socket has delivered so far. -/
structure Reader where
  /-- `connection.data`. -/
  data : ℕ → UInt8
  /-- `connection.len`, an `unsigned int`. -/
  len : ℕ
  expectedLen : ℕ
  outcome : Outcome
  arrived : List UInt8

namespace Reader

/-- `read_answer()` up to its loop, with what was in `connection.data` before. -/
def init (old : ℕ → UInt8) : Reader where
  data := fun j => if j < maxClientResponse then 0 else old j
  len := 0
  expectedLen := 0
  outcome := .waiting
  arrived := []

/-- The size that is passed to `read()`, an unsigned difference. -/
def space (s : Reader) : ℕ := (maxClientResponse + 2 ^ 32 - s.len) % 2 ^ 32

/-- `read_answer()` returns the result in the header, whatever has come of it. -/
def done (s : Reader) : Reader := { s with outcome := .returned (headerResult s.data) }

/-- The loop body behind the test of `packetlen`, which is unsigned. -/
def advance (s : Reader) (selectFailed : Bool) (packetlen : ℕ) : Reader :=
  let expectedLen := if s.len = 0 then headerLen s.data else s.expectedLen
  let len := (s.len + packetlen) % 2 ^ 32
  { s with
    expectedLen := expectedLen
    len := len
    outcome :=
      if len = expectedLen then .returned (headerResult s.data)
      else if selectFailed then .returned (-1)
      else .waiting }

theorem advance_arrived (s : Reader) (selectFailed : Bool) (packetlen : ℕ) :
    (s.advance selectFailed packetlen).arrived = s.arrived := rfl

/-- One turn of the loop of `read_answer()`. -/
def turn (s : Reader) : Round → Reader
  | .timedOut => { s with outcome := .returned (-1) }
  | .selected _ .closed => s.done
  -- `packetlen` is then 2^32 - 1 and passes for the length of a segment
  | .selected selectFailed .failed => s.advance selectFailed (2 ^ 32 - 1)
  | .selected selectFailed (.bytes segment) =>
    let arrived := s.arrived ++ segment
    if s.len + segment.length ≤ maxClientResponse then
      { s with data := store s.data s.len segment, arrived := arrived }.advance selectFailed
        segment.length
    else { s with outcome := .outside, arrived := arrived }

end Reader

/-- What the daemon and the socket may do while a response is read. -/
def Offered (response : List UInt8) (s : Reader) : Round → Prop
  | .selected _ (.bytes segment) =>
    segment ≠ [] ∧ segment.length ≤ s.space ∧ s.arrived ++ segment <+: response
  | _ => True

/-- The loop of `read_answer()` with a daemon that sends a response. -/
def Stream (response : List UInt8) (s : Reader) (r : Round) (s' : Reader) : Prop :=
  s.outcome = .waiting ∧ Offered response s r ∧ s' = s.turn r

/-! ## What is expected -/

/-- `read_answer()` has the response, and returns its result. -/
structure Complete (response : List UInt8) (s : Reader) (rc : ℤ) : Prop where
  arrived : s.arrived = response
  len : s.len = response.length
  data : load s.data 0 response.length = response
  result : rc = headerResult (zeroPadded response)

/-- The `read()` found the connection closed or broken. -/
def Round.broken : Round → Prop
  | .selected _ .closed | .selected _ .failed => True
  | _ => False

/-- What is expected of a run of the loop. -/
structure Framed (response : List UInt8) (rounds : List Round) (s : Reader) : Prop where
  /-- No `read()` goes behind the buffer. -/
  inside : s.outcome ≠ .outside
  /-- What is returned is the result of the response, with all of it, or an error. -/
  returned : ∀ rc, s.outcome = .returned rc →
    Complete response s rc ∨ s.arrived ≠ response ∧ rc = -1
  /-- It returns when the response is there. -/
  whole : s.arrived = response → s.outcome ≠ .waiting
  /-- It returns when the connection is closed or broken. -/
  broken : ∀ r ∈ rounds, r.broken → s.outcome ≠ .waiting

/-- The condition on a turn: the connection is not closed, `read()` fails only after a failed
`select()`, and the first segment, padded with zeros, has the length of the response. -/
def Sound (response : List UInt8) (s : Reader) : Round → Prop
  | .timedOut => True
  | .selected _ .closed => False
  | .selected selectFailed .failed => selectFailed = true
  | .selected _ (.bytes segment) =>
    s.len = 0 → headerLen (zeroPadded segment) = response.length

/-! ## The invariant -/

/-- While the loop goes on, the buffer has what has arrived, and zeros behind it. -/
structure Filled (response : List UInt8) (s : Reader) : Prop where
  fits : s.len ≤ maxClientResponse
  len : s.len = s.arrived.length
  pre : s.arrived <+: response
  incomplete : s.arrived ≠ response
  data : load s.data 0 s.len = s.arrived
  zeros : ∀ j, s.len ≤ j → j < maxClientResponse → s.data j = 0
  expected : s.len ≠ 0 → s.expectedLen = response.length

/-- What holds after every turn that meets the condition. -/
structure Inv (response : List UInt8) (s : Reader) : Prop where
  inside : s.outcome ≠ .outside
  waiting : s.outcome = .waiting → Filled response s
  returned : ∀ rc, s.outcome = .returned rc →
    Complete response s rc ∨ s.arrived ≠ response ∧ rc = -1

theorem space_eq {s : Reader} (h : s.len ≤ maxClientResponse) :
    s.space = maxClientResponse - s.len := by
  rw [Reader.space]
  simp only [maxClientResponse] at h ⊢
  omega

theorem WellFormed.ne_nil {response : List UInt8} (h : WellFormed response) : response ≠ [] := by
  rintro rfl
  exact absurd h.header (by decide)

section

variable {response : List UInt8} {s : Reader}

theorem inv_init (hresponse : WellFormed response) (old : ℕ → UInt8) :
    Inv response (Reader.init old) where
  inside := by simp [Reader.init]
  waiting _ :=
    { fits := Nat.zero_le _
      len := rfl
      pre := List.nil_prefix
      incomplete := hresponse.ne_nil.symm
      data := rfl
      zeros := fun j _ hj => if_pos hj
      expected := fun h => absurd rfl h }
  returned rc h := by simp [Reader.init] at h

/-- A turn that returns an error is as expected. -/
theorem inv_error {s' : Reader} (harrived : s'.arrived ≠ response)
    (h : s'.outcome = .returned (-1)) : Inv response s' where
  inside := by rw [h]; simp
  waiting hw := by rw [h] at hw; simp at hw
  returned rc hrc := by
    rw [h] at hrc
    injection hrc with hrc
    exact .inr ⟨harrived, hrc.symm⟩

/-- **A segment.**  It is put behind the others; with the last one the response is complete. -/
theorem inv_bytes (hresponse : WellFormed response) (hs : Filled response s) {selectFailed : Bool}
    {segment : List UInt8} (hoffered : Offered response s (.selected selectFailed (.bytes segment)))
    (hsound : Sound response s (.selected selectFailed (.bytes segment))) :
    Inv response (s.turn (.selected selectFailed (.bytes segment))) := by
  obtain ⟨hne, hspace, hpre⟩ := hoffered
  rw [space_eq hs.fits] at hspace
  have hfits : s.len + segment.length ≤ maxClientResponse := by
    have := hs.fits
    omega
  have hlen : (s.len + segment.length) % 2 ^ 32 = s.len + segment.length :=
    Nat.mod_eq_of_lt (Nat.lt_of_le_of_lt hfits (by decide))
  have hlength : s.len + segment.length = (s.arrived ++ segment).length := by
    rw [List.length_append, hs.len]
  have hdata : load (store s.data s.len segment) 0 (s.len + segment.length) =
      s.arrived ++ segment := by
    rw [load_store_append, hs.data]
  -- the length that is expected is the one of the response, from the first segment on
  have hexpected : (if s.len = 0 then headerLen (store s.data s.len segment) else s.expectedLen) =
      response.length := by
    split
    · next h0 =>
      rw [← hsound h0]
      refine headerLen_congr fun j hj => ?_
      rw [h0, zeroPadded, store, store, hs.zeros j (by omega) (Nat.lt_trans hj (by decide))]
    · next h0 => exact hs.expected h0
  have hlt : response.length ≤ s.len + segment.length → s.arrived ++ segment = response :=
    fun h => hpre.eq_of_length_le (hlength ▸ h)
  have hturn : s.turn (.selected selectFailed (.bytes segment)) =
      { data := store s.data s.len segment
        len := s.len + segment.length
        expectedLen := response.length
        outcome :=
          if s.len + segment.length = response.length then
            .returned (headerResult (store s.data s.len segment))
          else if selectFailed then .returned (-1)
          else .waiting
        arrived := s.arrived ++ segment } := by
    simp only [Reader.turn, if_pos hfits, Reader.advance, hexpected, hlen]
  rw [hturn]
  by_cases hwhole : s.len + segment.length = response.length
  · have harrived : s.arrived ++ segment = response := hlt (Nat.le_of_eq hwhole.symm)
    rw [if_pos hwhole]
    refine ⟨by simp, fun h => by simp at h, fun rc hrc => .inl ?_⟩
    have hload : load (store s.data s.len segment) 0 response.length = response := by
      rw [← hwhole, hdata, harrived]
    refine ⟨harrived, hwhole, hload, ?_⟩
    injection hrc with hrc
    rw [← hrc, headerResult, headerResult, eq_zeroPadded_of_load (hload.trans (List.take_length).symm)]
    exact List.length_pos_iff.mpr hresponse.ne_nil
  · have harrived : s.arrived ++ segment ≠ response := by
      intro h
      exact hwhole (by rw [hlength, h])
    rw [if_neg hwhole]
    cases selectFailed with
    | true => exact inv_error harrived rfl
    | false =>
      refine ⟨by simp, fun _ => ?_, fun rc hrc => by simp at hrc⟩
      exact
        { fits := hfits
          len := hlength
          pre := hpre
          incomplete := harrived
          data := hdata
          zeros := fun j hj hj' => by
            change s.len + segment.length ≤ j at hj
            show store s.data s.len segment j = 0
            rw [store_of_le s.data hj]
            exact hs.zeros j (by omega) hj'
          expected := fun _ => rfl }

/-- A failed `read()` after a failed `select()` is an error. -/
theorem inv_failed (hs : Filled response s) :
    Inv response (s.turn (.selected true .failed)) := by
  have hfits : s.len ≤ 8192 := hs.fits
  have hne : ¬ (s.len + (2 ^ 32 - 1)) % 2 ^ 32 =
      if s.len = 0 then headerLen s.data else s.expectedLen := by
    intro hlen
    by_cases h0 : s.len = 0
    · -- nothing has arrived: the header is still zero
      have hzero : headerLen s.data = headerLen fun _ => 0 :=
        headerLen_congr fun j hj => hs.zeros j (by omega) (Nat.lt_trans hj (by decide))
      rw [if_pos h0, hzero, h0] at hlen
      exact absurd hlen (by decide)
    · rw [if_neg h0, hs.expected h0] at hlen
      have hle : s.len ≤ response.length := hs.len ▸ hs.pre.length_le
      omega
  have houtcome : (s.turn (.selected true .failed)).outcome = .returned (-1) := by
    rw [Reader.turn, Reader.advance]
    simp only [if_neg hne, if_true]
  have harrived : (s.turn (.selected true .failed)).arrived = s.arrived := by
    rw [Reader.turn, Reader.advance_arrived]
  exact inv_error (by rw [harrived]; exact hs.incomplete) houtcome

/-- One turn that meets the condition keeps the invariant. -/
theorem inv_turn (hresponse : WellFormed response) {r : Round} {s' : Reader}
    (h : Guarded (Sound response) (Stream response) s r s') (hs : Inv response s) :
    Inv response s' := by
  obtain ⟨hsound, hwaiting, hoffered, rfl⟩ := h
  have hfilled := hs.waiting hwaiting
  cases r with
  | timedOut => exact inv_error hfilled.incomplete rfl
  | selected selectFailed read =>
    cases read with
    | bytes segment => exact inv_bytes hresponse hfilled hoffered hsound
    | closed => exact hsound.elim
    | failed =>
      obtain rfl : selectFailed = true := hsound
      exact inv_failed hfilled

/-- A turn that meets the condition ends the loop if the connection is broken. -/
theorem turn_broken {r : Round} (hsound : Sound response s r) (hbroken : r.broken) :
    (s.turn r).outcome ≠ .waiting := by
  cases r with
  | timedOut => exact hbroken.elim
  | selected selectFailed read =>
    cases read with
    | bytes _ => exact hbroken.elim
    | closed => exact hsound.elim
    | failed =>
      obtain rfl : selectFailed = true := hsound
      rw [Reader.turn, Reader.advance]
      simp only [if_true]
      split <;> split <;> simp

/-- The invariant gives what is expected, as the run takes no turn after it has returned. -/
theorem Inv.framed {rounds : List Round} (hs : Inv response s)
    (hbroken : ∀ r ∈ rounds, r.broken → s.outcome ≠ .waiting) : Framed response rounds s where
  inside := hs.inside
  returned := hs.returned
  whole harrived hwaiting := (hs.waiting hwaiting).incomplete harrived
  broken := hbroken

end

/-- **The framing of a response.**  For every well-formed response, every cut and every end of the
stream, `read_answer()` returns its result with all of it in the buffer, or an error, if no
`read()` finds the connection closed or fails after a `select()` that did not, and the length in
the first segment, padded with zeros, is the one of the response. -/
theorem readAnswer_run {response : List UInt8} (hresponse : WellFormed response) (old : ℕ → UInt8)
    {rounds : List Round} {s : Reader}
    (hrun : Run (Guarded (Sound response) (Stream response)) (Reader.init old) rounds s) :
    Framed response rounds s := by
  have hinv : Inv response s :=
    hrun.invariant (Inv response) (fun _ _ _ h => inv_turn hresponse h) (inv_init hresponse old)
  refine hinv.framed fun r hr hbroken => ?_
  obtain ⟨before, behind, rfl⟩ := List.append_of_mem hr
  obtain ⟨t, _, ht⟩ := hrun.split
  cases ht with
  | cons hturn hrest =>
    have hreturned := turn_broken hturn.1 hbroken
    rw [← hturn.2.2.2] at hreturned
    cases hrest with
    | nil => exact hreturned
    | cons hnext _ => exact absurd hnext.2.1 hreturned

/-- **The condition is needed.**  The daemon sends a response of twelve bytes with the result
`AFP_SERVER_RESULT_TIMEDOUT`; the connection is closed before its first byte, and `read_answer()`
returns `AFP_SERVER_RESULT_OKAY`. -/
theorem closed_connection_is_okay :
    ¬ ∀ (response : List UInt8) (old : ℕ → UInt8) (rounds : List Round) (s : Reader),
      WellFormed response → Run (Stream response) (Reader.init old) rounds s →
        Framed response rounds s := by
  intro h
  have hframed := h [20, 0, 0, 0, 12, 0, 0, 0, 1, 2, 3, 4] (fun _ => 0) [.selected false .closed]
    ((Reader.init fun _ => 0).turn (.selected false .closed)) ⟨by decide, by decide⟩
    (.cons ⟨rfl, trivial, rfl⟩ (.nil _))
  rcases hframed.returned 0 rfl with hcomplete | ⟨_, hrc⟩
  · exact absurd hcomplete.len (by decide)
  · exact absurd hrc (by decide)

/-- A response of twelve bytes that comes in two segments, the first with the whole header. -/
theorem readAnswer_run_of_two_segments :
    ∃ s, Run (Guarded (Sound [0, 0, 0, 0, 12, 0, 0, 0, 1, 2, 3, 4])
        (Stream [0, 0, 0, 0, 12, 0, 0, 0, 1, 2, 3, 4])) (Reader.init fun _ => 7)
        [.selected false (.bytes [0, 0, 0, 0, 12, 0, 0, 0, 1]),
          .selected false (.bytes [2, 3, 4])] s ∧
      s.outcome = .returned 0 ∧
      Framed [0, 0, 0, 0, 12, 0, 0, 0, 1, 2, 3, 4]
        [.selected false (.bytes [0, 0, 0, 0, 12, 0, 0, 0, 1]),
          .selected false (.bytes [2, 3, 4])] s := by
  have hrun : Run (Guarded (Sound [0, 0, 0, 0, 12, 0, 0, 0, 1, 2, 3, 4])
      (Stream [0, 0, 0, 0, 12, 0, 0, 0, 1, 2, 3, 4])) (Reader.init fun _ => 7)
      [.selected false (.bytes [0, 0, 0, 0, 12, 0, 0, 0, 1]),
        .selected false (.bytes [2, 3, 4])]
      (((Reader.init fun _ => 7).turn
        (.selected false (.bytes [0, 0, 0, 0, 12, 0, 0, 0, 1]))).turn
          (.selected false (.bytes [2, 3, 4]))) :=
    .consGuarded ⟨rfl, ⟨by decide, by decide, by decide⟩, rfl⟩ (fun _ => by decide) <|
    .consGuarded ⟨by decide, ⟨by decide, by decide, by decide⟩, rfl⟩
      (fun h => absurd h (by decide)) <|
    .nil _
  exact ⟨_, hrun, by decide, readAnswer_run ⟨by decide, by decide⟩ (fun _ => 7) hrun⟩

end Answer
end Daemon
end Afpfs

import Mathlib.Algebra.Order.Group.Nat
import Mathlib.Data.List.TakeDrop
import Afpfs.Daemon.Interface

/-!
# Volumes by pages

`process_getvols()` answers with a page of the volumes of a server: `count` of them from `start`
on.  It clips `count` to the number of volumes, takes the clipped number for the bound of `start`,
and copies as many volumes from `start` on, whatever there are.  One of its error exits leaves the
result as the memory had it.

`Answered` is what is expected of one answer: the volumes from `start` on, in a response that a
client can read, or an error when `start` is behind the last volume.  `Lists` is the loop of a
client that asks for one page after the other, until a page is empty or an error.

* `processGetvols_eq`: the answer, by the relation of `start` and `count` to the volumes.
* `getvols_iff`: the answer is as expected, whatever the memory had, exactly if `start` is
  negative or the page from `start` on is not clipped and fits; the loop obtains every volume
  exactly if there is none.
* `second_page_reads_outside`: a client that has got all volumes makes the daemon read behind
  them with its next request.
-/

set_option autoImplicit false

namespace Afpfs
namespace Daemon
namespace Getvols

/-! ## The request -/

/-- `struct afp_volume_summary`, and what it has of a `struct afp_volume`. -/
structure VolumeSummary where
  volumeNamePrintable : List UInt8
  flags : UInt8
  deriving DecidableEq

/-- A server with its volumes; their number is an `unsigned char`. -/
structure Server where
  volumes : List VolumeSummary
  numVolumes_lt : volumes.length < 256

/-- `num_volumes`. -/
def Server.numVolumes (server : Server) : ℕ := server.volumes.length

/-- `struct afp_server_getvols_request` as it is in `complete_packet`.  `start` and `count` are
the values of the fields as unsigned numbers. -/
structure Request where
  /-- The packet has the size of the structure. -/
  complete : Bool
  start : ℕ
  count : ℕ

/-- `struct afp_server_getvols_response` and the summaries behind it. -/
structure Response where
  result : UInt8
  len : ℕ
  num : ℕ
  vols : List VolumeSummary

/-- What the memory had where `process_getvols()` does not write: its variable `result`, and
`num` in the fresh response. -/
structure Uninit where
  result : UInt8
  num : ℕ

/-- `sizeof(struct afp_server_getvols_response)`. -/
def responseSize : ℕ := 16

/-- `sizeof(struct afp_volume_summary)`. -/
def summarySize : ℕ := 256

/-- What `process_getvols()` comes to. -/
inductive Outcome where
  | response (r : Response)
  /-- A read of `server->volumes` behind its end. -/
  | outside

/-! ## The answer -/

/-- The loop of `process_getvols()`: `n` volumes from the `i`-th on. -/
def copyVolumes (volumes : List VolumeSummary) : ℕ → ℕ → Option (List VolumeSummary)
  | _, 0 => some []
  | i, n + 1 => do
    let volume ← volumes[i]?
    let rest ← copyVolumes volumes (i + 1) n
    some (volume :: rest)

/-- The exit of `process_getvols()` at `error`. -/
def errorResponse (u : Uninit) (result : UInt8) : Outcome :=
  .response { result := result, len := responseSize, num := u.num, vols := [] }

/-- `process_getvols()`.  `server` is what `find_server_by_url()` finds. -/
def processGetvols (u : Uninit) (server : Option Server) (request : Request) : Outcome :=
  if request.complete = false ∨ Negative request.start then errorResponse u ServerResult.error
  else
    match server with
    | none => errorResponse u ServerResult.notConnected
    | some server =>
      -- `maximum_that_will_fit` is computed and not used
      let numvols := if request.count < server.numVolumes then request.count else server.numVolumes
      if numvols < request.start then errorResponse u u.result
      else
        match copyVolumes server.volumes request.start numvols with
        | none => .outside
        | some vols =>
          .response
            { result := ServerResult.okay
              len := responseSize + numvols * summarySize
              num := numvols
              vols := vols }

/-! ## What is expected -/

/-- What is expected of the answer to a complete request. -/
structure Answered (server : Server) (start count : ℕ) (o : Outcome) : Prop where
  /-- No volume behind the last one is read. -/
  inside : o ≠ .outside
  /-- The volumes from `start` on, at most `count`. -/
  page : ∀ r, o = .response r → start ≤ server.numVolumes →
    r.result = ServerResult.okay ∧ r.num = min (start + count) server.numVolumes - start ∧
      r.vols = (server.volumes.drop start).take r.num ∧ r.len ≤ maxClientResponse
  /-- There is no page behind the last volume. -/
  error : ∀ r, o = .response r → server.numVolumes < start → r.result ≠ ServerResult.okay

/-- The loop of a client of `afp_sl_getvols()`, from its `k`-th request on: it obtains these
volumes, and ends with an error or an empty page. -/
inductive Lists (u : ℕ → Uninit) (server : Server) (count : ℕ) :
    ℕ → ℕ → List VolumeSummary → Prop
  | last {k start : ℕ} {r : Response} :
      processGetvols (u k) (some server) ⟨true, start, count⟩ = .response r →
        r.result ≠ ServerResult.okay ∨ r.num = 0 → Lists u server count k start []
  | more {k start : ℕ} {r : Response} {rest : List VolumeSummary} :
      processGetvols (u k) (some server) ⟨true, start, count⟩ = .response r →
        r.result = ServerResult.okay → r.num ≠ 0 →
          Lists u server count (k + 1) ((start + r.num) % 2 ^ 32) rest →
            Lists u server count k start (r.vols ++ rest)

/-- The condition on a request: `start` is negative, or the page is not clipped and fits. -/
def Sound (server : Server) (start count : ℕ) : Prop :=
  Negative start ∨ start ≤ count ∧ start + min count server.numVolumes ≤ server.numVolumes ∧
    min count server.numVolumes ≤ 31

instance (server : Server) (start count : ℕ) : Decidable (Sound server start count) :=
  inferInstanceAs (Decidable (_ ∨ _))

/-! ## The cases -/

/-- The copy has the volumes, if they are there. -/
theorem copyVolumes_eq_some (volumes : List VolumeSummary) :
    ∀ {i n : ℕ}, i + n ≤ volumes.length → copyVolumes volumes i n = some ((volumes.drop i).take n)
  | i, 0, _ => by rw [copyVolumes, List.take_zero]
  | i, n + 1, h => by
    have hi : i < volumes.length := by omega
    have ih := copyVolumes_eq_some volumes (show i + 1 + n ≤ volumes.length by omega)
    rw [copyVolumes, List.getElem?_eq_getElem hi, ih, List.drop_eq_getElem_cons hi,
      List.take_succ_cons]
    rfl

/-- The copy reads behind the volumes, if there are fewer. -/
theorem copyVolumes_eq_none (volumes : List VolumeSummary) :
    ∀ {i n : ℕ}, volumes.length < i + n → n ≠ 0 → copyVolumes volumes i n = none
  | _, 0, _, hn => absurd rfl hn
  | i, n + 1, h, _ => by
    rw [copyVolumes]
    by_cases hi : i < volumes.length
    · have hn : n ≠ 0 := by omega
      rw [copyVolumes_eq_none volumes (show volumes.length < i + 1 + n by omega) hn,
        List.getElem?_eq_getElem hi]
      rfl
    · rw [List.getElem?_eq_none (Nat.le_of_not_lt hi)]
      rfl

section

variable {u : Uninit} {server : Server} {start count : ℕ}

/-- The number of volumes that `process_getvols()` copies. -/
theorem clip_eq (server : Server) (count : ℕ) :
    (if count < server.numVolumes then count else server.numVolumes) =
      min count server.numVolumes := by
  split <;> omega

/-- A request that is not complete, or that has a negative `start`. -/
theorem processGetvols_of_rejected {server : Option Server} {request : Request}
    (h : request.complete = false ∨ Negative request.start) :
    processGetvols u server request = errorResponse u ServerResult.error := if_pos h

theorem processGetvols_of_negative (h : Negative start) :
    processGetvols u (some server) ⟨true, start, count⟩ = errorResponse u ServerResult.error :=
  processGetvols_of_rejected (.inr h)

/-- **The answer** to a complete request with a `start` that is not negative. -/
theorem processGetvols_eq (h : ¬ Negative start) :
    processGetvols u (some server) ⟨true, start, count⟩ =
      if min count server.numVolumes < start then errorResponse u u.result
      else
        match copyVolumes server.volumes start (min count server.numVolumes) with
        | none => .outside
        | some vols =>
          .response
            { result := ServerResult.okay
              len := responseSize + min count server.numVolumes * summarySize
              num := min count server.numVolumes
              vols := vols } := by
  rw [processGetvols, if_neg (by simpa using h)]
  simp only [clip_eq]

theorem processGetvols_of_lt (h : ¬ Negative start) (hlt : min count server.numVolumes < start) :
    processGetvols u (some server) ⟨true, start, count⟩ = errorResponse u u.result := by
  rw [processGetvols_eq h, if_pos hlt]

theorem processGetvols_of_outside (h : ¬ Negative start)
    (hle : start ≤ min count server.numVolumes) (h0 : min count server.numVolumes ≠ 0)
    (hend : server.numVolumes < start + min count server.numVolumes) :
    processGetvols u (some server) ⟨true, start, count⟩ = .outside := by
  rw [processGetvols_eq h, if_neg (Nat.not_lt.mpr hle), copyVolumes_eq_none _ hend h0]

theorem processGetvols_of_inside (h : ¬ Negative start)
    (hle : start ≤ min count server.numVolumes)
    (hend : start + min count server.numVolumes ≤ server.numVolumes) :
    processGetvols u (some server) ⟨true, start, count⟩ =
      .response
        { result := ServerResult.okay
          len := responseSize + min count server.numVolumes * summarySize
          num := min count server.numVolumes
          vols := (server.volumes.drop start).take (min count server.numVolumes) } := by
  rw [processGetvols_eq h, if_neg (Nat.not_lt.mpr hle), copyVolumes_eq_some _ hend]

/-! ## One answer -/

theorem numVolumes_lt (server : Server) : server.numVolumes < 256 := server.numVolumes_lt

/-- A request that meets the condition is answered as expected. -/
theorem answered_of_sound (h : Sound server start count) :
    Answered server start count (processGetvols u (some server) ⟨true, start, count⟩) := by
  by_cases hnegative : Negative start
  · have hstart : server.numVolumes < start :=
      Nat.lt_of_lt_of_le (numVolumes_lt server) (Nat.le_trans (by decide) hnegative)
    rw [processGetvols_of_negative hnegative]
    refine ⟨Outcome.noConfusion, fun r _ hle => ?_, fun r hr _ => ?_⟩
    · exact absurd hle (Nat.not_le.mpr hstart)
    · injection hr with hr
      rw [← hr]
      show ServerResult.error ≠ ServerResult.okay
      decide
  · obtain ⟨hcount, hend, hfits⟩ := h.resolve_left hnegative
    rw [processGetvols_of_inside hnegative (by omega) hend]
    refine ⟨Outcome.noConfusion, fun r hr _ => ?_, fun r _ hlt => by omega⟩
    injection hr with hr
    subst hr
    refine ⟨rfl, ?_, rfl, ?_⟩
    · show min count server.numVolumes = _
      omega
    · show 16 + min count server.numVolumes * 256 ≤ 8192
      omega

/-- A request that does not meet it is answered otherwise, for some contents of the memory. -/
theorem exists_not_answered (h : ¬ Sound server start count) :
    ∃ u, ¬ Answered server start count
      (processGetvols u (some server) ⟨true, start, count⟩) := by
  rw [Sound, not_or] at h
  obtain ⟨hnegative, hpage⟩ := h
  by_cases hlt : min count server.numVolumes < start
  · -- the exit that leaves the result as it was
    by_cases hend : server.numVolumes < start
    · refine ⟨⟨ServerResult.okay, 0⟩, fun hanswer => ?_⟩
      rw [processGetvols_of_lt hnegative hlt] at hanswer
      exact hanswer.error _ rfl hend rfl
    · refine ⟨⟨ServerResult.error, 0⟩, fun hanswer => ?_⟩
      rw [processGetvols_of_lt hnegative hlt] at hanswer
      exact absurd (hanswer.page _ rfl (Nat.le_of_not_lt hend)).1
        (show ServerResult.error ≠ ServerResult.okay by decide)
  · have hle : start ≤ min count server.numVolumes := Nat.le_of_not_lt hlt
    refine ⟨⟨0, 0⟩, fun hanswer => ?_⟩
    by_cases hend : server.numVolumes < start + min count server.numVolumes
    · rw [processGetvols_of_outside hnegative hle (by omega) hend] at hanswer
      exact hanswer.inside rfl
    · rw [processGetvols_of_inside hnegative hle (Nat.le_of_not_lt hend)] at hanswer
      have hfits : 16 + min count server.numVolumes * 256 ≤ 8192 :=
        (hanswer.page _ rfl (by omega)).2.2.2
      exact hpage ⟨by omega, by omega, by omega⟩

/-! ## The loop -/

/-- The contents of the memory that keep the loop going: an answer that is taken for one with
`num` volumes, after which the next `start` is 0 again. -/
def loopingMemory (server : Server) (count : ℕ) : Uninit where
  result := ServerResult.okay
  num := 2 ^ 32 - 2 * min count server.numVolumes

/-- The values of `start` in this loop. -/
def Looping (server : Server) (count start : ℕ) : Prop :=
  start = 0 ∨ start = min count server.numVolumes ∨ start = 2 * min count server.numVolumes

/-- **Behind the first page**, the daemon reads behind the volumes or takes the exit that leaves
the result as it was: no answer ends the loop. -/
theorem looping_response (hcount : 1 ≤ count) (hvolumes : server.numVolumes ≠ 0)
    (hstart : Looping server count start) {r : Response}
    (hr : processGetvols (loopingMemory server count) (some server) ⟨true, start, count⟩ =
      .response r) :
    r.result = ServerResult.okay ∧ r.num ≠ 0 ∧
      Looping server count ((start + r.num) % 2 ^ 32) := by
  have hlt := numVolumes_lt server
  have hm : min count server.numVolumes ≤ 255 ∧ 1 ≤ min count server.numVolumes := by omega
  have hnegative : ∀ {s : ℕ}, s ≤ 2 * min count server.numVolumes → ¬ Negative s := by
    intro s hs hn
    have : 2 ^ 31 ≤ s := hn
    omega
  rcases hstart with rfl | rfl | rfl
  · rw [processGetvols_of_inside (hnegative (by omega)) (by omega) (by omega)] at hr
    injection hr with hr
    subst hr
    refine ⟨rfl, show min count server.numVolumes ≠ 0 by omega, .inr (.inl ?_)⟩
    show (0 + min count server.numVolumes) % 2 ^ 32 = _
    omega
  · by_cases hout : server.numVolumes < min count server.numVolumes + min count server.numVolumes
    · rw [processGetvols_of_outside (hnegative (by omega)) le_rfl (by omega) hout] at hr
      cases hr
    · rw [processGetvols_of_inside (hnegative (by omega)) le_rfl (by omega)] at hr
      injection hr with hr
      subst hr
      refine ⟨rfl, show min count server.numVolumes ≠ 0 by omega, .inr (.inr ?_)⟩
      show (min count server.numVolumes + min count server.numVolumes) % 2 ^ 32 = _
      omega
  · rw [processGetvols_of_lt (hnegative (by omega)) (by omega)] at hr
    injection hr with hr
    subst hr
    refine ⟨rfl, show 2 ^ 32 - 2 * min count server.numVolumes ≠ 0 by omega, .inl ?_⟩
    show (2 * min count server.numVolumes + (2 ^ 32 - 2 * min count server.numVolumes)) %
      2 ^ 32 = 0
    omega

/-- The loop does not end from there. -/
theorem not_lists (hcount : 1 ≤ count) (hvolumes : server.numVolumes ≠ 0) {k : ℕ}
    {l : List VolumeSummary}
    (h : Lists (fun _ => loopingMemory server count) server count k start l) :
    ¬ Looping server count start := by
  induction h with
  | last hr hend =>
    intro hstart
    obtain ⟨hokay, hnum, _⟩ := looping_response hcount hvolumes hstart hr
    exact hend.elim (· hokay) hnum
  | more hr _ _ _ ih =>
    intro hstart
    exact ih (looping_response hcount hvolumes hstart hr).2.2

/-- Without volumes the first page is empty. -/
theorem lists_of_no_volumes (hvolumes : server.numVolumes = 0) (u : ℕ → Uninit) :
    Lists u server count 0 0 server.volumes := by
  have hnegative : ¬ Negative 0 := by decide
  have h := @processGetvols_of_inside (u 0) server 0 count hnegative (Nat.zero_le _) (by omega)
  rw [List.eq_nil_of_length_eq_zero hvolumes]
  refine .last h (.inr ?_)
  show min count server.numVolumes = 0
  omega

end

/-- **Volumes by pages.**  For every server, an answer is as expected, whatever the memory had,
exactly if `start` is negative, or the page from `start` on is complete behind `start` and has at
most 31 volumes; and the loop of a client obtains every volume once and ends, for a `count` of at
least 1, exactly if the server has none. -/
theorem getvols_iff (server : Server) :
    (∀ start count : ℕ,
      (∀ u, Answered server start count (processGetvols u (some server) ⟨true, start, count⟩)) ↔
        Sound server start count) ∧
    ∀ count : ℕ, 1 ≤ count →
      ((∀ u : ℕ → Uninit, Lists u server count 0 0 server.volumes) ↔ server.numVolumes = 0) := by
  refine ⟨fun start count => ⟨fun h => ?_, fun h u => answered_of_sound h⟩,
    fun count hcount => ⟨fun h => ?_, fun h u => lists_of_no_volumes h u⟩⟩
  · by_contra hsound
    obtain ⟨u, hu⟩ := exists_not_answered hsound
    exact hu (h u)
  · by_contra hvolumes
    exact not_lists hcount hvolumes (h fun _ => loopingMemory server count) (.inl rfl)

/-- The second page of a server with two volumes, and the loop of one without. -/
theorem getvols_iff_of_two :
    (∀ u, Answered ⟨[⟨[65], 0⟩, ⟨[66], 0⟩], by decide⟩ 1 1
      (processGetvols u (some ⟨[⟨[65], 0⟩, ⟨[66], 0⟩], by decide⟩) ⟨true, 1, 1⟩)) ∧
    ((∀ u : ℕ → Uninit, Lists u ⟨[], by decide⟩ 1 0 0 []) ↔ 0 = 0) :=
  ⟨((getvols_iff ⟨[⟨[65], 0⟩, ⟨[66], 0⟩], by decide⟩).1 1 1).mpr (by decide),
    (getvols_iff ⟨[], by decide⟩).2 1 le_rfl⟩

/-- **The condition is needed.**  A client that has got the only volume of a server asks for the
next page, and the daemon reads behind the volumes. -/
theorem second_page_reads_outside :
    ¬ ∀ (server : Server) (start count : ℕ) (u : Uninit),
      Answered server start count (processGetvols u (some server) ⟨true, start, count⟩) :=
  fun h => (h ⟨[⟨[65], 0⟩], by decide⟩ 1 1 ⟨0, 0⟩).inside rfl

end Getvols
end Daemon
end Afpfs

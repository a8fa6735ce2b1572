import Afpfs.Dsi.Cleanup

/-!
# The lifetime of a request

`dsi_send()` allocates a request and `dsi_remove_from_request_queue()` frees it.  In between
`dsi_find_request()` hands out its address to `dsi_recv()`, which goes on using it after the queue
was unlocked, and both sides may come to the removal.

`Safe` is what is expected of every state: no access has hit a request after its release, no
request was released twice, and each is released when its call has returned.

`Careful` is a condition on the steps, under which this is so.

* No write finds the connection closed.
* `dsi_recv()` does not come to its own removal, that is, it completes no packet for a request that
  does not wait, or does not wait any more.
* `dsi_send()` does not come to its removal while `dsi_recv()` still works on a packet for the
  request.  It may do so after a timeout, after a write that failed, and when it was woken without
  a reply.

The results are these.

* `lifetime_run`: in every careful run, every state is safe.
* `reply_frees_before_sender`: without the second part, the reply to a request that does not wait
  frees it before its sender has looked at it for the last time.
-/

set_option autoImplicit false

namespace Afpfs
namespace Dsi
namespace Sending

open Interaction Transition

/-! ## What is expected -/

/-- No access hits a request after its release, no request is released twice or before it was
unlinked, and a request that is not released belongs to a call under way. -/
structure Safe (s : Client) : Prop where
  faults : s.faults = []
  once : s.released.Nodup
  unlinked : ∀ x ∈ s.requests.queue, x.serial ∉ s.released
  released : ∀ n < s.allocated, n ∈ s.released ∨
    ∃ t c x, s.calls t = some c ∧ c.request = some x ∧ x.serial = n ∧ s.Live x

/-- The call of `dsi_recv()` has more to do. -/
def Client.Receiving (s : Client) : Prop := ∃ e k, s.receiving = some (.act e k)

/-- The condition on a step.  A server is not removed while calls are under way. -/
def Careful (s : Client) : Action → Prop
  | .send _ ⟨.write _, result⟩ => ¬ Lost result
  | .send _ ⟨.remove h, _⟩ => s.Receiving → ∀ x, s.holding = some x → x.handle ≠ h
  | .receive ⟨.remove _, _⟩ => False
  | .serverRemove => False
  | _ => True

/-! ## What `dsi_recv()` touches -/

/-- What is left of a call of `dsi_recv()` that has not looked up its packet. -/
def Seeking (p : RecvM (ℤ × RecvState)) : Prop :=
  (∃ r, p = gotenough r) ∨
    ∃ n k, p = .act (.read n) k ∧ ∀ answer, (∃ result, k answer = .done result) ∨
      ∃ r, k answer = gotenough r

/-- A call begins with the header. -/
theorem dsiRecv_seeks (r : RecvState) : Seeking (dsiRecv r) := by
  unfold dsiRecv
  split
  · refine .inr ⟨_, _, rfl, fun answer => ?_⟩
    cases answer with
    | none => exact .inl ⟨_, rfl⟩
    | some bytes =>
      by_cases hdone : (r.fill bytes).dataRead = headerSize ∧
          length (r.fill bytes).incomingBuffer = 0
      · exact .inr ⟨r.fill bytes, if_pos hdone⟩
      · exact .inl ⟨(0, r.fill bytes), if_neg hdone⟩
  · exact .inl ⟨r, rfl⟩

/-- A call of `dsi_recv()` works on the request it holds, and on no other. -/
def Serving (holding : Option Ref) (p : RecvM (ℤ × RecvState)) : Prop :=
  holding = none ∧ Seeking p ∨ p.AllActs (TouchesOnly (holding.map Ref.handle))

/-! ## The invariant -/

/-- What holds of a call with the request `x`. -/
structure Owns (s : Client) (c : Call) (x : Ref) : Prop where
  live : s.Live x
  kept : x.serial ∉ s.released
  queued : c.stage.listed = true → x ∈ s.requests.queue

/-- The call has removed its request. -/
def Call.Removed (c : Call) : Prop := ∃ h, c.stage = .removed h

/-- The invariant of careful runs. -/
structure Inv (s : Client) : Prop where
  wellFormed : s.WellFormed
  valid : s.valid = true
  faults : s.faults = []
  once : s.released.Nodup
  bound : ∀ n ∈ s.released, n < s.allocated
  connected : ∀ t c h, s.calls t = some c → c.stage ≠ .lost h
  owns : ∀ t c x, s.calls t = some c → c.request = some x → ¬ c.Removed → Owns s c x
  owned : ∀ x ∈ s.requests.queue, ∃ t c, s.calls t = some c ∧ c.request = some x ∧ ¬ c.Removed
  released : ∀ n < s.allocated, n ∈ s.released ∨
    ∃ t c x, s.calls t = some c ∧ c.request = some x ∧ x.serial = n ∧ ¬ c.Removed
  serving : ∀ p, s.receiving = some p → Serving s.holding p
  held : s.Receiving → ∀ x, s.holding = some x → x ∈ s.requests.queue

theorem inv_init : Inv .init where
  wellFormed := wellFormed_init
  valid := rfl
  faults := rfl
  once := List.nodup_nil
  bound := nofun
  connected := nofun
  owns := nofun
  owned := nofun
  released := nofun
  serving := nofun
  held := nofun

theorem Inv.safe {s : Client} (h : Inv s) : Safe s where
  faults := h.faults
  once := h.once
  unlinked x hx := by
    obtain ⟨t, c, hc, hcx, hkept⟩ := h.owned x hx
    exact (h.owns t c x hc hcx hkept).kept
  released n hn := by
    rcases h.released n hn with hr | ⟨t, c, x, hc, hcx, hxn, hkept⟩
    · exact .inl hr
    · exact .inr ⟨t, c, x, hc, hcx, hxn, (h.owns t c x hc hcx hkept).live⟩

/-- An access to live requests is no fault. -/
theorem faults_access {s : Client} {xs : List Ref} (h : ∀ x ∈ xs, s.Live x) :
    (s.access xs).faults = s.faults := by
  have hnone : xs.filter (fun x => ¬ s.Live x) = [] := by
    rw [List.filter_eq_nil_iff]
    intro x hx
    simpa using h x hx
  change s.faults ++ _ = _
  rw [hnone, List.append_nil]

/-! ## Steps that release nothing -/

/-- The rule for a step that is not of a call of `dsi_send()`. -/
theorem Inv.same {s s' : Client} (h : Inv s) (hs' : s'.WellFormed) (hstore : SameStore s s')
    (hcalls : s'.calls = s.calls) (hvalid : s'.valid = s.valid) (hfaults : s'.faults = s.faults)
    (hserving : ∀ p, s'.receiving = some p → Serving s'.holding p)
    (hheld : s'.Receiving → ∀ x, s'.holding = some x → x ∈ s.requests.queue) : Inv s' where
  wellFormed := hs'
  valid := hvalid.trans h.valid
  faults := hfaults.trans h.faults
  once := hstore.released ▸ h.once
  bound n hn := hstore.allocated ▸ h.bound n (hstore.released ▸ hn)
  connected t c r hc := h.connected t c r (hcalls ▸ hc)
  owns t c x hc hx hkept := by
    obtain ⟨hl, hk, hq⟩ := h.owns t c x (hcalls ▸ hc) hx hkept
    exact ⟨(hstore.live x).mpr hl, hstore.released ▸ hk, fun hlisted => hstore.requests ▸ hq hlisted⟩
  owned x hx := by
    rw [hcalls]
    exact h.owned x (hstore.requests ▸ hx)
  released n hn := by
    rw [hcalls, hstore.released]
    exact h.released n (hstore.allocated ▸ hn)
  serving := hserving
  held hr x hx := hstore.requests ▸ hheld hr x hx

/-- The rule for a step of a call that goes on with its request. -/
theorem Inv.goesOn {s s' : Client} {t : ℕ} {c c' : Call} (h : Inv s) (hs' : s'.WellFormed)
    (hcall : s.calls t = some c) (hstore : SameStore s s')
    (hcalls : s'.calls = Function.update s.calls t (some c')) (hrequest : c'.request = c.request)
    (hvalid : s'.valid = s.valid) (hfaults : s'.faults = s.faults)
    (hreceiving : s'.receiving = s.receiving) (hholding : s'.holding = s.holding)
    (hkept : ¬ c.Removed) (hkept' : ¬ c'.Removed) (hconnected : ∀ r, c'.stage ≠ .lost r)
    (hlisted : c'.stage.listed = true → c.stage.listed = true) : Inv s' := by
  have hother : ∀ {t₁ : ℕ}, t₁ ≠ t → s'.calls t₁ = s.calls t₁ := fun ht => by
    rw [hcalls, Function.update_of_ne ht]
  have hown : s'.calls t = some c' := by
    rw [hcalls, Function.update_self]
  -- a call with a request is found again, with the same request
  have hagain : ∀ {t₁ : ℕ} {c₁ : Call} {x : Ref}, s.calls t₁ = some c₁ → c₁.request = some x →
      ¬ c₁.Removed → ∃ t c, s'.calls t = some c ∧ c.request = some x ∧ ¬ c.Removed := by
    intro t₁ c₁ x hc₁ hx hk
    by_cases ht : t₁ = t
    · subst ht
      obtain rfl := Option.some.inj (hcall.symm.trans hc₁)
      exact ⟨t₁, c', hown, hrequest.trans hx, hkept'⟩
    · exact ⟨t₁, c₁, (hother ht).trans hc₁, hx, hk⟩
  refine ⟨hs', hvalid.trans h.valid, hfaults.trans h.faults, hstore.released ▸ h.once,
    fun n hn => hstore.allocated ▸ h.bound n (hstore.released ▸ hn), ?_, ?_, ?_, ?_, ?_, ?_⟩
  · intro t₁ c₁ r hc₁
    by_cases ht : t₁ = t
    · subst ht
      obtain rfl := Option.some.inj (hown.symm.trans hc₁)
      exact hconnected r
    · exact h.connected t₁ c₁ r ((hother ht).symm.trans hc₁)
  · intro t₁ c₁ x hc₁ hx hk
    by_cases ht : t₁ = t
    · subst ht
      obtain rfl := Option.some.inj (hown.symm.trans hc₁)
      obtain ⟨hl, hk, hq⟩ := h.owns t₁ c x hcall (hrequest.symm.trans hx) hkept
      exact ⟨(hstore.live x).mpr hl, hstore.released ▸ hk,
        fun hl => hstore.requests ▸ hq (hlisted hl)⟩
    · obtain ⟨hl, hk, hq⟩ := h.owns t₁ c₁ x ((hother ht).symm.trans hc₁) hx hk
      exact ⟨(hstore.live x).mpr hl, hstore.released ▸ hk, fun hl => hstore.requests ▸ hq hl⟩
  · intro x hx
    obtain ⟨t₁, c₁, hc₁, hx₁, hk⟩ := h.owned x (hstore.requests ▸ hx)
    exact hagain hc₁ hx₁ hk
  · intro n hn
    rw [hstore.released]
    rcases h.released n (hstore.allocated ▸ hn) with hr | ⟨t₁, c₁, x, hc₁, hx, hxn, hk⟩
    · exact .inl hr
    · obtain ⟨t₂, c₂, hc₂, hx₂, hk₂⟩ := hagain hc₁ hx hk
      exact .inr ⟨t₂, c₂, x, hc₂, hx₂, hxn, hk₂⟩
  · intro p hp
    rw [hholding]
    exact h.serving p (hreceiving.symm.trans hp)
  · rintro ⟨e, k, hr⟩ x hx
    rw [hstore.requests]
    exact h.held ⟨e, k, hreceiving.symm.trans hr⟩ x (hholding.symm.trans hx)

/-! ## Steps that change the queue or the heap -/

/-- The request of a call that has begun, and has none yet. -/
theorem request_starting {s : Client} (hs : s.WellFormed) {t : ℕ} {c : Call}
    (hcall : s.calls t = some c) (hstage : c.stage = .starting) : c.request = none := by
  have hrequest := (hs.calls t c hcall).request
  rw [hstage] at hrequest
  exact Option.map_eq_none_iff.mp hrequest

/-- `malloc()`. -/
theorem Inv.malloc {s s' : Client} {t : ℕ} {c c' : Call} {r : Handle} (h : Inv s)
    (hs' : s'.WellFormed) (hcall : s.calls t = some c) (hstage : c.stage = .starting)
    (hfree : s.heap r = none) (hheap : s'.heap = (s.malloc (some r)).heap)
    (hrequests : s'.requests = s.requests) (hallocated : s'.allocated = s.allocated + 1)
    (hreleased : s'.released = s.released)
    (hcalls : s'.calls = Function.update s.calls t (some c'))
    (hrequest : c'.request = some ⟨r, s.allocated⟩) (hstage' : c'.stage = .allocated r)
    (hvalid : s'.valid = s.valid) (hfaults : s'.faults = s.faults)
    (hreceiving : s'.receiving = s.receiving) (hholding : s'.holding = s.holding) : Inv s' := by
  have hnone := request_starting h.wellFormed hcall hstage
  obtain ⟨hnew, hold⟩ := live_malloc hfree
  have hlive : ∀ x : Ref, (s.malloc (some r)).Live x → s'.Live x := fun x =>
    (live_congr (congrFun hheap x.handle)).mpr
  have hother : ∀ {t₁ : ℕ}, t₁ ≠ t → s'.calls t₁ = s.calls t₁ := fun ht => by
    rw [hcalls, Function.update_of_ne ht]
  have hown : s'.calls t = some c' := by
    rw [hcalls, Function.update_self]
  have hne : ∀ {t₁ : ℕ} {c₁ : Call} {x : Ref}, s.calls t₁ = some c₁ → c₁.request = some x →
      t₁ ≠ t := by
    rintro t₁ c₁ x hc₁ hx rfl
    obtain rfl := Option.some.inj (hcall.symm.trans hc₁)
    exact nomatch hnone.symm.trans hx
  refine ⟨hs', hvalid.trans h.valid, hfaults.trans h.faults, hreleased ▸ h.once, ?_, ?_, ?_, ?_,
    ?_, ?_, ?_⟩
  · intro n hn
    rw [hallocated]
    exact Nat.lt_succ_of_lt (h.bound n (hreleased ▸ hn))
  · intro t₁ c₁ q hc₁
    by_cases ht : t₁ = t
    · subst ht
      obtain rfl := Option.some.inj (hown.symm.trans hc₁)
      rw [hstage']
      exact nofun
    · exact h.connected t₁ c₁ q ((hother ht).symm.trans hc₁)
  · intro t₁ c₁ x hc₁ hx hk
    by_cases ht : t₁ = t
    · subst ht
      obtain rfl := Option.some.inj (hown.symm.trans hc₁)
      obtain rfl := Option.some.inj (hrequest.symm.trans hx)
      refine ⟨hlive _ hnew, fun hmem => ?_, fun hlisted => ?_⟩
      · exact (h.bound _ (hreleased ▸ hmem)).false
      · rw [hstage'] at hlisted
        exact nomatch hlisted
    · obtain ⟨hl, hk, hq⟩ := h.owns t₁ c₁ x ((hother ht).symm.trans hc₁) hx hk
      exact ⟨hlive x (hold x hl).2, hreleased ▸ hk, fun hlisted => hrequests ▸ hq hlisted⟩
  · intro x hx
    obtain ⟨t₁, c₁, hc₁, hx₁, hk⟩ := h.owned x (hrequests ▸ hx)
    exact ⟨t₁, c₁, (hother (hne hc₁ hx₁)).trans hc₁, hx₁, hk⟩
  · intro n hn
    rw [hallocated] at hn
    rcases Nat.lt_succ_iff_lt_or_eq.mp hn with hn | rfl
    · rcases h.released n hn with hr | ⟨t₁, c₁, x, hc₁, hx₁, hxn, hk⟩
      · exact .inl (hreleased ▸ hr)
      · exact .inr ⟨t₁, c₁, x, (hother (hne hc₁ hx₁)).trans hc₁, hx₁, hxn, hk⟩
    · refine .inr ⟨t, c', _, hown, hrequest, rfl, ?_⟩
      rintro ⟨q, hq⟩
      exact nomatch hstage'.symm.trans hq
  · intro p hp
    rw [hholding]
    exact h.serving p (hreceiving.symm.trans hp)
  · rintro ⟨e, k, hr⟩ x hx
    rw [hrequests]
    exact h.held ⟨e, k, hreceiving.symm.trans hr⟩ x (hholding.symm.trans hx)

/-- Putting the request into the queue. -/
theorem Inv.enqueue {s s' : Client} {t : ℕ} {c c' : Call} {r : Handle} {x : Ref} (h : Inv s)
    (hs' : s'.WellFormed) (hcall : s.calls t = some c) (hstage : c.stage = .allocated r)
    (hx : c.request = some x) (hheap : s'.heap = s.heap)
    (hrequests : s'.requests = s.requests.append x) (hallocated : s'.allocated = s.allocated)
    (hreleased : s'.released = s.released)
    (hcalls : s'.calls = Function.update s.calls t (some c')) (hrequest : c'.request = c.request)
    (hstage' : c'.stage = .queued r) (hvalid : s'.valid = s.valid) (hfaults : s'.faults = s.faults)
    (hreceiving : s'.receiving = s.receiving) (hholding : s'.holding = s.holding) : Inv s' := by
  have hkept : ¬ c.Removed := by
    rintro ⟨q, hq⟩
    exact nomatch hstage.symm.trans hq
  have hkept' : ¬ c'.Removed := by
    rintro ⟨q, hq⟩
    exact nomatch hstage'.symm.trans hq
  have hlive : ∀ y : Ref, s'.Live y ↔ s.Live y := fun y => live_congr (congrFun hheap y.handle)
  have hmem : ∀ y, y ∈ s'.requests.queue ↔ y ∈ s.requests.queue ∨ y = x := fun y => by
    rw [hrequests]
    exact List.mem_append.trans (or_congr_right List.mem_singleton)
  have hother : ∀ {t₁ : ℕ}, t₁ ≠ t → s'.calls t₁ = s.calls t₁ := fun ht => by
    rw [hcalls, Function.update_of_ne ht]
  have hown : s'.calls t = some c' := by
    rw [hcalls, Function.update_self]
  have hagain : ∀ {t₁ : ℕ} {c₁ : Call} {y : Ref}, s.calls t₁ = some c₁ → c₁.request = some y →
      ¬ c₁.Removed → ∃ t c, s'.calls t = some c ∧ c.request = some y ∧ ¬ c.Removed := by
    intro t₁ c₁ y hc₁ hy hk
    by_cases ht : t₁ = t
    · subst ht
      obtain rfl := Option.some.inj (hcall.symm.trans hc₁)
      exact ⟨t₁, c', hown, hrequest.trans hy, hkept'⟩
    · exact ⟨t₁, c₁, (hother ht).trans hc₁, hy, hk⟩
  refine ⟨hs', hvalid.trans h.valid, hfaults.trans h.faults, hreleased ▸ h.once,
    fun n hn => hallocated ▸ h.bound n (hreleased ▸ hn), ?_, ?_, ?_, ?_, ?_, ?_⟩
  · intro t₁ c₁ q hc₁
    by_cases ht : t₁ = t
    · subst ht
      obtain rfl := Option.some.inj (hown.symm.trans hc₁)
      rw [hstage']
      exact nofun
    · exact h.connected t₁ c₁ q ((hother ht).symm.trans hc₁)
  · intro t₁ c₁ y hc₁ hy hk
    by_cases ht : t₁ = t
    · subst ht
      obtain rfl := Option.some.inj (hown.symm.trans hc₁)
      obtain ⟨hl, hk, -⟩ := h.owns t₁ c y hcall (hrequest.symm.trans hy) hkept
      obtain rfl := Option.some.inj (hx.symm.trans (hrequest.symm.trans hy))
      exact ⟨(hlive _).mpr hl, hreleased ▸ hk, fun _ => (hmem _).mpr (.inr rfl)⟩
    · obtain ⟨hl, hk, hq⟩ := h.owns t₁ c₁ y ((hother ht).symm.trans hc₁) hy hk
      exact ⟨(hlive y).mpr hl, hreleased ▸ hk, fun hlisted => (hmem y).mpr (.inl (hq hlisted))⟩
  · intro y hy
    rcases (hmem y).mp hy with hy | rfl
    · obtain ⟨t₁, c₁, hc₁, hy₁, hk⟩ := h.owned y hy
      exact hagain hc₁ hy₁ hk
    · exact ⟨t, c', hown, hrequest.trans hx, hkept'⟩
  · intro n hn
    rw [hreleased]
    rcases h.released n (hallocated ▸ hn) with hr | ⟨t₁, c₁, y, hc₁, hy, hyn, hk⟩
    · exact .inl hr
    · obtain ⟨t₂, c₂, hc₂, hy₂, hk₂⟩ := hagain hc₁ hy hk
      exact .inr ⟨t₂, c₂, y, hc₂, hy₂, hyn, hk₂⟩
  · intro p hp
    rw [hholding]
    exact h.serving p (hreceiving.symm.trans hp)
  · rintro ⟨e, k, hr⟩ y hy
    exact (hmem y).mpr (.inl (h.held ⟨e, k, hreceiving.symm.trans hr⟩ y (hholding.symm.trans hy)))

/-- The removal at the end of a call, which releases its request. -/
theorem Inv.remove {s s' : Client} {t : ℕ} {c c' : Call} {x : Ref} (h : Inv s)
    (hs' : s'.WellFormed) (hcall : s.calls t = some c) (hstage : c.stage = .waiting x.handle)
    (hx : c.request = some x) (hheap : s'.heap = Function.update s.heap x.handle none)
    (hrequests : s'.requests = s.requests.unlink x.handle) (hallocated : s'.allocated = s.allocated)
    (hreleased : s'.released = s.released ++ [x.serial])
    (hcalls : s'.calls = Function.update s.calls t (some c'))
    (hstage' : c'.stage = .removed x.handle) (hvalid : s'.valid = s.valid)
    (hfaults : s'.faults = s.faults) (hreceiving : s'.receiving = s.receiving)
    (hholding : s'.holding = s.holding)
    (hcareful : s.Receiving → ∀ y, s.holding = some y → y.handle ≠ x.handle) : Inv s' := by
  have hkept : ¬ c.Removed := by
    rintro ⟨q, hq⟩
    exact nomatch hstage.symm.trans hq
  have hremoved : c'.Removed := ⟨_, hstage'⟩
  obtain ⟨hlx, hkx, hqx⟩ := h.owns t c x hcall hx hkept
  have hother : ∀ {t₁ : ℕ}, t₁ ≠ t → s'.calls t₁ = s.calls t₁ := fun ht => by
    rw [hcalls, Function.update_of_ne ht]
  have hown : s'.calls t = some c' := by
    rw [hcalls, Function.update_self]
  have hlive : ∀ y : Ref, y.handle ≠ x.handle → s.Live y → s'.Live y := fun y hne hl => by
    refine (live_congr ?_).mpr hl
    rw [hheap]
    exact Function.update_of_ne hne ..
  have hmem : ∀ y, y ∈ s'.requests.queue ↔ y ∈ s.requests.queue ∧ y.handle ≠ x.handle := fun y => by
    rw [hrequests]
    exact Requests.mem_unlink h.wellFormed.nodup
  -- another call's request has another number, and is live, so it has another address
  have hapart : ∀ {t₁ : ℕ} {c₁ : Call} {y : Ref}, t₁ ≠ t → s.calls t₁ = some c₁ →
      c₁.request = some y → s.Live y → y.serial ≠ x.serial ∧ y.handle ≠ x.handle := by
    intro t₁ c₁ y ht hc₁ hy hly
    have hserial : y.serial ≠ x.serial := fun hsame =>
      ht (h.wellFormed.distinct t₁ t c₁ c y x hc₁ hcall hy hx hsame)
    refine ⟨hserial, fun hsame => hserial ?_⟩
    unfold Client.Live at hly hlx
    rw [hsame] at hly
    exact Option.some.inj (hly.symm.trans hlx)
  refine ⟨hs', hvalid.trans h.valid, hfaults.trans h.faults, ?_, ?_, ?_, ?_, ?_, ?_, ?_, ?_⟩
  · rw [hreleased]
    refine List.nodup_append.mpr ⟨h.once, List.nodup_singleton _, ?_⟩
    rintro a ha b hb rfl
    exact hkx (List.mem_singleton.mp hb ▸ ha)
  · intro n hn
    rw [hreleased] at hn
    rw [hallocated]
    rcases List.mem_append.mp hn with hn | hn
    · exact h.bound n hn
    · rw [List.mem_singleton.mp hn]
      exact (h.wellFormed.calls t c hcall).bound x hx
  · intro t₁ c₁ q hc₁
    by_cases ht : t₁ = t
    · subst ht
      obtain rfl := Option.some.inj (hown.symm.trans hc₁)
      rw [hstage']
      exact nofun
    · exact h.connected t₁ c₁ q ((hother ht).symm.trans hc₁)
  · intro t₁ c₁ y hc₁ hy hk
    by_cases ht : t₁ = t
    · subst ht
      obtain rfl := Option.some.inj (hown.symm.trans hc₁)
      exact absurd hremoved hk
    · rw [hother ht] at hc₁
      obtain ⟨hl, hk, hq⟩ := h.owns t₁ c₁ y hc₁ hy hk
      obtain ⟨hserial, hhandle⟩ := hapart ht hc₁ hy hl
      refine ⟨hlive y hhandle hl, ?_, fun hlisted => (hmem y).mpr ⟨hq hlisted, hhandle⟩⟩
      rw [hreleased]
      intro hn
      rcases List.mem_append.mp hn with hn | hn
      · exact hk hn
      · exact hserial (List.mem_singleton.mp hn)
  · intro y hy
    obtain ⟨hy, hne⟩ := (hmem y).mp hy
    obtain ⟨t₁, c₁, hc₁, hy₁, hk⟩ := h.owned y hy
    have ht : t₁ ≠ t := by
      rintro rfl
      obtain rfl := Option.some.inj (hcall.symm.trans hc₁)
      obtain rfl := Option.some.inj (hx.symm.trans hy₁)
      exact hne rfl
    exact ⟨t₁, c₁, (hother ht).trans hc₁, hy₁, hk⟩
  · intro n hn
    rw [hreleased]
    rcases h.released n (hallocated ▸ hn) with hr | ⟨t₁, c₁, y, hc₁, hy, hyn, hk⟩
    · exact .inl (List.mem_append_left _ hr)
    · by_cases ht : t₁ = t
      · subst ht
        obtain rfl := Option.some.inj (hcall.symm.trans hc₁)
        obtain rfl := Option.some.inj (hx.symm.trans hy)
        exact .inl (List.mem_append_right _ (List.mem_singleton.mpr hyn.symm))
      · exact .inr ⟨t₁, c₁, y, (hother ht).trans hc₁, hy, hyn, hk⟩
  · intro p hp
    rw [hholding]
    exact h.serving p (hreceiving.symm.trans hp)
  · rintro ⟨e, k, hr⟩ y hy
    have hrecv : s.Receiving := ⟨e, k, hreceiving.symm.trans hr⟩
    have hy' := hholding.symm.trans hy
    exact (hmem y).mpr ⟨h.held hrecv y hy', hcareful hrecv y hy'⟩

/-! ## Every careful step -/

/-- What a call accesses of its request is live. -/
theorem Inv.own_live {s : Client} {t : ℕ} {c : Call} (h : Inv s) (hcall : s.calls t = some c)
    (hkept : ¬ c.Removed) : ∀ x ∈ c.request.toList, s.Live x := by
  intro x hx
  exact (h.owns t c x hcall (Option.mem_toList.mp hx) hkept).live

/-- **A careful step of a call of `dsi_send()`.** -/
theorem inv_send {s : Client} {t : ℕ} {c : Call} {e : SendEffect} {k : e.Answer → SendM ℤ}
    {answer : e.Answer} (h : Inv s) (hcall : s.calls t = some c) (hprog : c.prog = .act e k)
    (hanswer : s.SendAnswers ⟨e, answer⟩) (hcareful : Careful s (.send t ⟨e, answer⟩)) :
    Inv
      { s.performSend t c.request ⟨e, answer⟩ with
        calls := Function.update s.calls t (some
          { msg := c.msg
            request := c.nextRequest s.allocated ⟨e, answer⟩
            stage := c.stage.next ⟨e, answer⟩
            prog := k answer }) } := by
  have hs' := wellFormed_send h.wellFormed hcall hprog hanswer
  have hallows : c.stage.Allows c.msg e := by
    have hgoes := (h.wellFormed.calls t c hcall).goes
    rw [hprog] at hgoes
    exact hgoes.effect
  have hkept : ¬ c.Removed := by
    rintro ⟨r, hr⟩
    rw [hr] at hallows
    exact hallows
  have hrequest := (h.wellFormed.calls t c hcall).request
  -- an effect that leaves the request, the queue and the heap
  have hquiet : ∀ s' : Client, SameStore s s' → s'.valid = s.valid → s'.faults = s.faults →
      s'.receiving = s.receiving → s'.holding = s.holding →
      c.nextRequest s.allocated ⟨e, answer⟩ = c.request →
      (∀ r, c.stage.next ⟨e, answer⟩ ≠ .removed r) → (∀ r, c.stage.next ⟨e, answer⟩ ≠ .lost r) →
      ((c.stage.next ⟨e, answer⟩).listed = true → c.stage.listed = true) →
      Client.WellFormed { s' with
        calls := Function.update s.calls t (some
          { msg := c.msg
            request := c.nextRequest s.allocated ⟨e, answer⟩
            stage := c.stage.next ⟨e, answer⟩
            prog := k answer }) } →
      Inv { s' with
        calls := Function.update s.calls t (some
          { msg := c.msg
            request := c.nextRequest s.allocated ⟨e, answer⟩
            stage := c.stage.next ⟨e, answer⟩
            prog := k answer }) } := by
    intro s' hstore hvalid hfaults hreceiving hholding hnext hremoved hlost hlisted hs'
    exact h.goesOn hs' hcall
      ⟨hstore.requests, hstore.serials, hstore.allocated, hstore.released, hstore.history⟩ rfl hnext
      hvalid hfaults hreceiving hholding hkept (fun ⟨r, hr⟩ => hremoved r hr) hlost hlisted
  have hown := h.own_live hcall hkept
  have hconnected := h.connected t c
  obtain ⟨msg, request, stage, prog⟩ := c
  dsimp only at hprog hallows hrequest hown hquiet hs' hconnected ⊢
  have haccess := faults_access hown
  cases stage with
  | starting =>
    rcases hallows with rfl | rfl | rfl
    · exact hquiet s (.refl s) rfl rfl rfl rfl rfl nofun nofun nofun hs'
    · exact hquiet s (.refl s) rfl rfl rfl rfl rfl nofun nofun nofun hs'
    · cases answer with
      | none =>
        have hnone : request = none := request_starting h.wellFormed hcall rfl
        exact hquiet s (.refl s) rfl rfl rfl rfl hnone.symm nofun nofun nofun hs'
      | some r =>
        exact h.malloc hs' hcall rfl (hanswer r rfl) rfl rfl rfl rfl rfl rfl rfl rfl rfl rfl rfl
  | allocated r =>
    rcases hallows with rfl | ⟨id, subcommand, wait, rfl⟩ | rfl
    · exact hquiet s (.refl s) rfl rfl rfl rfl rfl nofun nofun nofun hs'
    · exact hquiet _ (sameStore_modify s _ r fun _ => rfl) rfl haccess rfl rfl rfl nofun nofun nofun
        hs'
    · obtain ⟨x, rfl⟩ : ∃ x, request = some x := by
        obtain ⟨x, hx, -⟩ := Option.map_eq_some_iff.mp hrequest
        exact ⟨x, hx⟩
      refine h.enqueue hs' hcall rfl rfl rfl rfl rfl rfl rfl rfl rfl rfl ?_ rfl rfl
      refine faults_access fun y hy => ?_
      rcases List.mem_append.mp hy with hy | hy
      · exact h.wellFormed.live y hy
      · obtain rfl := List.mem_singleton.mp hy
        exact hown _ List.mem_cons_self
  | queued r =>
    rcases hallows with rfl | rfl | rfl | rfl
    · exact hquiet _ (sameStore_access s _) rfl haccess rfl rfl rfl nofun nofun (fun _ => rfl) hs'
    · exact hquiet s (.refl s) rfl rfl rfl rfl rfl nofun nofun (fun _ => rfl) hs'
    · exact hquiet s (.refl s) rfl rfl rfl rfl rfl nofun nofun (fun _ => rfl) hs'
    · exact hquiet { s with sendMutex := some t } ⟨rfl, fun _ => rfl, rfl, rfl, rfl⟩ rfl rfl rfl rfl
        rfl nofun nofun (fun _ => rfl) hs'
  | locked r =>
    obtain rfl := hallows
    cases answer with
    | accepted n =>
      exact hquiet { s with socket := s.socket ++ msg.take n } ⟨rfl, fun _ => rfl, rfl, rfl, rfl⟩ rfl
        rfl rfl rfl rfl nofun nofun (fun _ => rfl) hs'
    | failed e =>
      cases e with
      | EPIPE => exact absurd trivial hcareful
      | EBADF => exact absurd trivial hcareful
      | other => exact hquiet s (.refl s) rfl rfl rfl rfl rfl nofun nofun (fun _ => rfl) hs'
  | written r =>
    obtain rfl := hallows
    exact hquiet { s with sendMutex := none } ⟨rfl, fun _ => rfl, rfl, rfl, rfl⟩ rfl rfl rfl rfl rfl
      nofun nofun (fun _ => rfl) hs'
  | waiting r =>
    rcases hallows with rfl | rfl | ⟨timed, rfl⟩ | rfl | rfl
    · exact hquiet _ (sameStore_access s _) rfl haccess rfl rfl rfl nofun nofun (fun _ => rfl) hs'
    · exact hquiet _ (sameStore_access s _) rfl haccess rfl rfl rfl nofun nofun (fun _ => rfl) hs'
    · exact hquiet _ (sameStore_access s _) rfl haccess rfl rfl rfl nofun nofun (fun _ => rfl) hs'
    · exact hquiet _ (sameStore_access s _) rfl haccess rfl rfl rfl nofun nofun (fun _ => rfl) hs'
    · obtain ⟨x, rfl, rfl⟩ := Option.map_eq_some_iff.mp hrequest
      -- its request is in the queue, so the removal finds it and nothing else
      have hmem : x ∈ s.requests.queue :=
        (h.owns t _ x hcall rfl hkept).queued rfl
      have hat : s.requests.at x.handle = some x := by
        cases hfind : s.requests.at x.handle with
        | none => exact absurd rfl (Requests.at_none.mp hfind x hmem)
        | some y =>
          obtain ⟨hy, hyx⟩ := Requests.at_some hfind
          rw [handle_inj h.wellFormed.nodup hy hmem hyx]
      have hremove : s.performSend t (some x) ⟨.remove x.handle, answer⟩ =
          (s.access s.requests.queue).release (some t) x := by
        change s.dsiRemoveFromRequestQueue (some t) (some x) x.handle = _
        unfold Client.dsiRemoveFromRequestQueue
        rw [if_pos h.valid, hat]
      rw [hremove] at hs' ⊢
      exact h.remove hs' hcall rfl rfl rfl rfl rfl rfl rfl rfl rfl
        (faults_access h.wellFormed.live) rfl rfl hcareful
  | lost r => exact absurd rfl (hconnected r hcall)
  | removed r => exact absurd hallows id

/-- What an effect of `dsi_recv()` does that is not a removal. -/
theorem performRecv_frame {s : Client} {e : RecvEffect} (hremove : ∀ r, e ≠ .remove r) :
    (s.performRecv e).valid = s.valid ∧ (s.performRecv e).receiving = s.receiving ∧
      ((∀ id, e ≠ .findRequest id) → (s.performRecv e).holding = s.holding) ∧
      ((∀ x ∈ s.requests.queue, s.Live x) → (∀ x ∈ s.holding.toList, s.Live x) →
        (s.performRecv e).faults = s.faults) := by
  cases e with
  | findRequest id =>
    exact ⟨rfl, rfl, fun h => absurd rfl (h id), fun hq _ => faults_access hq⟩
  | setReturnCode r code => exact ⟨rfl, rfl, fun _ => rfl, fun _ hh => faults_access hh⟩
  | fillBuffer r bytes => exact ⟨rfl, rfl, fun _ => rfl, fun _ hh => faults_access hh⟩
  | signal r => exact ⟨rfl, rfl, fun _ => rfl, fun _ hh => faults_access hh⟩
  | remove r => exact absurd rfl (hremove r)
  | handle f packet =>
    cases f with
    | commandReply r => exact ⟨rfl, rfl, fun _ => rfl, fun _ hh => faults_access hh⟩
    | _ => exact ⟨rfl, rfl, fun _ => rfl, fun _ _ => rfl⟩
  | _ => exact ⟨rfl, rfl, fun _ => rfl, fun _ _ => rfl⟩

theorem handle_of_found {s : Client} {x : Option Ref} {found : Option (Handle × DsiRequest)}
    (h : Option.Rel s.Found x found) : x.map Ref.handle = found.map Prod.fst := by
  cases h with
  | none => rfl
  | some hfound => exact congrArg some hfound.1.symm

/-- **A careful step of `dsi_recv()`.** -/
theorem inv_receive {s : Client} {e : RecvEffect} {k : e.Answer → RecvM (ℤ × RecvState)}
    {answer : e.Answer} (h : Inv s) (hreceiving : s.receiving = some (.act e k))
    (hanswer : s.RecvAnswers ⟨e, answer⟩) (hremove : ∀ r, e ≠ .remove r) :
    Inv { s.performRecv e with receiving := some (k answer) } := by
  have hs' := wellFormed_step (.receive hreceiving hanswer) h.wellFormed
  obtain ⟨hstore, hcalls, -⟩ : SameStore s (s.performRecv e) ∧ _ :=
    (performRecv_cases s e).resolve_right fun ⟨r, hr⟩ => hremove r hr
  obtain ⟨hvalid, -, hholding, hfaults⟩ := performRecv_frame (s := s) hremove
  have hheld : ∀ x, s.holding = some x → x ∈ s.requests.queue := h.held ⟨e, k, hreceiving⟩
  have hlive := h.wellFormed.live
  have hsafe : (s.performRecv e).faults = s.faults :=
    hfaults hlive fun x hx => hlive x (hheld x (Option.mem_toList.mp hx))
  -- it remains to say what the rest of the call works on
  suffices hrest : Serving (s.performRecv e).holding (k answer) ∧
      ∀ x, (s.performRecv e).holding = some x → x ∈ s.requests.queue by
    refine h.same hs' ⟨hstore.requests, hstore.serials, hstore.allocated, hstore.released,
      hstore.history⟩ hcalls hvalid hsafe ?_ fun _ => hrest.2
    intro p hp
    obtain rfl := Option.some.inj hp
    exact hrest.1
  rcases h.serving _ hreceiving with ⟨hnone, hseeking⟩ | hall
  · rcases hseeking with ⟨r, hr⟩ | ⟨n, k', hread, hk'⟩
    · -- the lookup
      obtain ⟨k', hk', hacts⟩ := gotenough_eq r
      rw [hk'] at hr
      cases hr
      change Serving (s.dsiFindRequest _) _ ∧ ∀ x, s.dsiFindRequest _ = some x → _
      have hrel : Option.Rel s.Found (s.dsiFindRequest (requestid r.incomingBuffer)) answer := hanswer
      refine ⟨.inr ?_, fun x hx => List.mem_of_find?_eq_some hx⟩
      rw [handle_of_found hrel]
      exact hacts answer
    · -- the header is read
      cases hread
      change Serving s.holding (k' answer) ∧ ∀ x, s.holding = some x → _
      refine ⟨?_, hheld⟩
      rcases hk' answer with ⟨result, hdone⟩ | ⟨r, hr⟩
      · rw [hdone]
        exact .inr trivial
      · rw [hr]
        exact .inl ⟨hnone, .inl ⟨r, rfl⟩⟩
  · obtain ⟨htouches, hrest⟩ := hall
    have hfind : ∀ id, e ≠ .findRequest id := by
      rintro id rfl
      exact htouches
    rw [hholding hfind]
    exact ⟨.inr (hrest answer), hheld⟩

/-- **Every careful step keeps the invariant.** -/
theorem inv_step {s s' : Client} {a : Action} (hstep : Guarded Careful Step s a s') (h : Inv s) :
    Inv s' := by
  obtain ⟨hcareful, hstep⟩ := hstep
  have hs' := wellFormed_step hstep h.wellFormed
  have hsame : ∀ {s' : Client}, s'.requests = s.requests → s'.heap = s.heap →
      s'.allocated = s.allocated → s'.released = s.released → s'.history = s.history →
      SameStore s s' := fun h₁ h₂ h₃ h₄ h₅ => ⟨h₁, fun h => by rw [h₂], h₃, h₄, h₅⟩
  cases hstep with
  | @call t msg wait subcommand hnone =>
    -- a call begins without a request
    have hother : ∀ {t' : ℕ} {c : Call} {x : Ref},
        Function.update s.calls t (some (.start msg wait subcommand)) t' = some c →
        c.request = some x → s.calls t' = some c := by
      intro t' c x hc hx
      by_cases ht : t' = t
      · subst ht
        obtain rfl := update_some hc
        exact nomatch hx
      · rwa [Function.update_of_ne ht] at hc
    have hagain : ∀ {t' : ℕ} {c : Call}, s.calls t' = some c →
        Function.update s.calls t (some (.start msg wait subcommand)) t' = some c := by
      intro t' c hc
      have ht : t' ≠ t := by
        rintro rfl
        exact nomatch hnone.symm.trans hc
      rwa [Function.update_of_ne ht]
    refine ⟨hs', h.valid, h.faults, h.once, h.bound, ?_, ?_, ?_, ?_, h.serving, h.held⟩
    · intro t' c r hc
      by_cases ht : t' = t
      · subst ht
        obtain rfl := update_some hc
        exact nofun
      · exact h.connected t' c r ((Function.update_of_ne ht ..).symm.trans hc)
    · intro t' c x hc hx hk
      obtain ⟨hl, hkept, hq⟩ := h.owns t' c x (hother hc hx) hx hk
      exact ⟨hl, hkept, hq⟩
    · intro x hx
      obtain ⟨t', c, hc, hrest⟩ := h.owned x hx
      exact ⟨t', c, hagain hc, hrest⟩
    · intro n hn
      rcases h.released n hn with hr | ⟨t', c, x, hc, hrest⟩
      · exact .inl hr
      · exact .inr ⟨t', c, x, hagain hc, hrest⟩
  | send hcall hprog hanswer => exact inv_send h hcall hprog hanswer hcareful
  | @ret t c rc hcall hprog =>
    -- it returns without a request, or has removed it
    have hreturns : c.stage.Returns := by
      have hgoes := (h.wellFormed.calls t c hcall).goes
      rwa [hprog] at hgoes
    have hremoved : ∀ x, c.request = some x → c.Removed := by
      intro x hx
      rcases returns_cases hreturns with hstage | ⟨r, hstage⟩ | hstage
      · exact nomatch (request_starting h.wellFormed hcall hstage).symm.trans hx
      · exact absurd hstage (h.connected t c r hcall)
      · exact hstage
    have hold : ∀ {t' : ℕ} {c' : Call}, Function.update s.calls t none t' = some c' →
        s.calls t' = some c' := by
      intro t' c' hc'
      by_cases ht : t' = t
      · subst ht
        rw [Function.update_self] at hc'
        exact nomatch hc'
      · rwa [Function.update_of_ne ht] at hc'
    have hagain : ∀ {t' : ℕ} {c' : Call} {x : Ref}, s.calls t' = some c' → c'.request = some x →
        ¬ c'.Removed → Function.update s.calls t none t' = some c' := by
      intro t' c' x hc' hx hk
      have ht : t' ≠ t := by
        rintro rfl
        obtain rfl := Option.some.inj (hcall.symm.trans hc')
        exact hk (hremoved x hx)
      rwa [Function.update_of_ne ht]
    refine ⟨hs', h.valid, h.faults, h.once, h.bound, fun t' c' r hc' => ?_, ?_, ?_, ?_, h.serving,
      h.held⟩
    · exact h.connected t' c' r (hold hc')
    · intro t' c' x hc' hx hk
      obtain ⟨hl, hkept, hq⟩ := h.owns t' c' x (hold hc') hx hk
      exact ⟨hl, hkept, hq⟩
    · intro x hx
      obtain ⟨t', c', hc', hx', hk⟩ := h.owned x hx
      exact ⟨t', c', hagain hc' hx' hk, hx', hk⟩
    · intro n hn
      rcases h.released n hn with hr | ⟨t', c', x, hc', hx', hxn, hk⟩
      · exact .inl hr
      · exact .inr ⟨t', c', x, hagain hc' hx' hk, hx', hxn, hk⟩
  | @recv r hnone =>
    refine h.same hs' (hsame rfl rfl rfl rfl rfl) rfl rfl rfl (fun p hp => ?_) fun _ => nofun
    obtain rfl := Option.some.inj hp
    exact .inl ⟨rfl, dsiRecv_seeks r⟩
  | receive hreceiving hanswer =>
    refine inv_receive h hreceiving hanswer ?_
    rintro r rfl
    exact hcareful
  | recvRet hreceiving => exact h.same hs' (hsame rfl rfl rfl rfl rfl) rfl rfl rfl nofun nofun
  | setup =>
    exact h.same hs' (hsame rfl rfl rfl rfl rfl) rfl rfl rfl h.serving h.held
  | reconnected =>
    exact h.same hs' (hsame rfl rfl rfl rfl rfl) rfl rfl rfl h.serving h.held
  | serverRemove => exact absurd hcareful id

/-- **The lifetime of requests.**  In a run of careful steps no access hits a request after its
release, and every request is released once, when its call returns. -/
theorem lifetime_run {as : List Action} {s : Client} (hrun : Run (Guarded Careful Step) .init as s) :
    Safe s :=
  (hrun.invariant Inv (fun _ _ _ => inv_step) inv_init).safe

/-- The header of a reply to the request with the id 0, which came alone. -/
def emptyReply : RecvState where
  incomingBuffer := fun i => if i = 0 then DSI_REPLY else if i = 1 then DSI_DSICommand else 0
  dataRead := headerSize
  bufsize := 2048
  attentionLen := 0

/-- A call that waits, and the reply that wakes it. -/
theorem lifetime_run_of_reply : ∃ s, s.released = [0] ∧ Safe s := by
  have hrun : ∃ as s, Run (Guarded Careful Step) .init as s ∧ s.released = [0] := by
    refine ⟨_, _, .consGuarded (@Step.call _ 1 (.replicate 16 0) 5 0 rfl) trivial <|
      .consGuarded (@Step.send _ 1 _ .stillValid _ true rfl rfl rfl) trivial <|
      .consGuarded (@Step.send _ 1 _ .fd _ (3 : ℤ) rfl rfl trivial) trivial <|
      .consGuarded (@Step.send _ 1 _ .malloc _ (some 8) rfl rfl fun _ _ => rfl) trivial <|
      .consGuarded (@Step.send _ 1 _ .lastrequestid _ (0 : UInt16) rfl rfl rfl) trivial <|
      .consGuarded (@Step.send _ 1 _ (.fill 8 0 0 5) _ () rfl rfl trivial) trivial <|
      .consGuarded (@Step.send _ 1 _ (.enqueue 8) _ () rfl rfl trivial) trivial <|
      .consGuarded (@Step.send _ 1 _ (.initWaiting 8) _ () rfl rfl trivial) trivial <|
      .consGuarded (@Step.send _ 1 _ .disconnected _ false rfl rfl rfl) trivial <|
      .consGuarded (@Step.send _ 1 _ .lockSend _ () rfl rfl rfl) trivial <|
      .consGuarded (@Step.send _ 1 _ (.write _) _ (WriteResult.accepted 16) rfl rfl ?_) id <|
      .consGuarded (@Step.send _ 1 _ .unlockSend _ () rfl rfl trivial) trivial <|
      .consGuarded (@Step.send _ 1 _ (.readWait 8) _ (5 : ℤ) rfl rfl ?_) trivial <|
      .consGuarded (@Step.send _ 1 _ (.readWait 8) _ (5 : ℤ) rfl rfl ?_) trivial <|
      .consGuarded (@Step.send _ 1 _ (.readWait 8) _ (5 : ℤ) rfl rfl ?_) trivial <|
      .consGuarded (@Step.send _ 1 _ (.readWait 8) _ (5 : ℤ) rfl rfl ?_) trivial <|
      .consGuarded (@Step.send _ 1 _ (.doneWaiting 8) _ false rfl rfl ?_) trivial <|
      -- the reply comes while the call waits
      .consGuarded (@Step.recv _ emptyReply rfl) trivial <|
      .consGuarded (@Step.receive _ (.findRequest 0) _ (some (8, ⟨0, 0, true, 0, 0⟩)) rfl ?found)
        trivial <|
      .consGuarded (@Step.receive _ (.setReturnCode 8 0) _ () rfl trivial) trivial <|
      .consGuarded (@Step.receive _ (.handle (.commandReply 8) _) _ () rfl trivial) trivial <|
      .consGuarded (@Step.receive _ (.signal 8) _ () rfl trivial) trivial <|
      .consGuarded (@Step.recvRet _ _ rfl) trivial <|
      .consGuarded (@Step.send _ 1 _ (.condWait 8 true) _ false rfl rfl nofun) trivial <|
      .consGuarded (@Step.send _ 1 _ (.returnCode 8) _ (0 : UInt32) rfl rfl ?_) trivial <|
      .consGuarded (@Step.send _ 1 _ (.remove 8) _ () rfl rfl trivial) nofun <|
      .consGuarded (@Step.ret _ 1 _ 0 rfl rfl) trivial <| .nil _, ?_⟩
    case found => exact .some ⟨rfl, _, rfl, rfl, rfl, rfl⟩
    · rintro n ⟨⟩
      exact ⟨by decide, fun _ => by decide⟩
    all_goals first
      | rfl
      | rintro n ⟨⟩
        rfl
  obtain ⟨as, s, hrun, hreleased⟩ := hrun
  exact ⟨s, hreleased, lifetime_run hrun⟩

/-! ## A reply to a request that does not wait -/

/-- Between the write and the first look at `wait`, the reply is handled. -/
theorem replyToNonWaiting : ∃ as s, Run Step .init as s ∧ s.faults = [⟨8, 0⟩] := by
  refine ⟨_, _, .cons (@Step.call _ 1 (.replicate 16 0) 0 0 rfl) <|
    .cons (@Step.send _ 1 _ .stillValid _ true rfl rfl rfl) <|
    .cons (@Step.send _ 1 _ .fd _ (3 : ℤ) rfl rfl trivial) <|
    .cons (@Step.send _ 1 _ .malloc _ (some 8) rfl rfl fun _ _ => rfl) <|
    .cons (@Step.send _ 1 _ .lastrequestid _ (0 : UInt16) rfl rfl rfl) <|
    .cons (@Step.send _ 1 _ (.fill 8 0 0 0) _ () rfl rfl trivial) <|
    .cons (@Step.send _ 1 _ (.enqueue 8) _ () rfl rfl trivial) <|
    .cons (@Step.send _ 1 _ (.initWaiting 8) _ () rfl rfl trivial) <|
    .cons (@Step.send _ 1 _ .disconnected _ false rfl rfl rfl) <|
    .cons (@Step.send _ 1 _ .lockSend _ () rfl rfl rfl) <|
    .cons (@Step.send _ 1 _ (.write _) _ (WriteResult.accepted 16) rfl rfl ?_) <|
    .cons (@Step.send _ 1 _ .unlockSend _ () rfl rfl trivial) <|
    .cons (@Step.recv _ emptyReply rfl) <|
    .cons (@Step.receive _ (.findRequest 0) _ (some (8, ⟨0, 0, false, 0, 0⟩)) rfl ?_) <|
    .cons (@Step.receive _ (.setReturnCode 8 0) _ () rfl trivial) <|
    .cons (@Step.receive _ (.handle (.commandReply 8) _) _ () rfl trivial) <|
    .cons (@Step.receive _ (.remove 8) _ () rfl trivial) <|
    .cons (@Step.send _ 1 _ (.readWait 8) _ (0 : ℤ) rfl rfl ?_) <| .nil _, ?_⟩
  · rintro n ⟨⟩
    exact ⟨by decide, fun _ => by decide⟩
  · exact .some ⟨rfl, _, rfl, rfl, rfl, rfl⟩
  · rintro n hn
    exact nomatch hn
  · rfl

/-- **Not every run is safe.** -/
theorem reply_frees_before_sender :
    ¬ ∀ (as : List Action) (s : Client), Run Step .init as s → Safe s := by
  intro hclaim
  obtain ⟨as, s, hrun, hfaults⟩ := replyToNonWaiting
  have := (hclaim as s hrun).faults
  rw [hfaults] at this
  exact nomatch this

end Sending
end Dsi
end Afpfs

import Afpfs.Dsi.Client

/-!
# What a call of `dsi_send()` leaves behind

`dsi_send()` of `lib/dsi.c` puts a request into the queue and counts it, and takes `send_mutex`.
When it returns, nothing of this should be left, whatever happened to the packet.

`NoTrace` says so by means of the changes to the queue: what the other threads did to it, without
the call, makes of the queue at the call what the queue is at the return.  So the other requests
are there in the same order, and `stats.requests_pending` is what the other threads make of it.

The call does not always meet this.

* `noTrace_iff`: it does exactly when the thread did not hold `send_mutex` already, the write did
  not fail with `EPIPE` or `EBADF`, and the removal at the end removes its own request or finds
  nothing at the address because `dsi_recv()` has removed it.
* `broken_pipe_leaves_trace`: after `EPIPE` the request stays in the queue, and nobody gets
  `send_mutex` any more.
-/

set_option autoImplicit false

namespace Afpfs
namespace Dsi
namespace Sending

open Interaction Transition

/-! ## The queue without a request -/

/-- The queue without a request, and the count without it. -/
def Requests.without (q : Requests) : Option Ref → Requests
  | some x => if x ∈ q.queue then ⟨q.queue.erase x, q.pending - 1⟩ else q
  | none => q

theorem Requests.without_of_not_mem {q : Requests} {x : Ref} (h : x ∉ q.queue) :
    q.without (some x) = q := if_neg h

theorem Requests.without_of_mem {q : Requests} {x : Ref} (h : x ∈ q.queue) :
    q.without (some x) = ⟨q.queue.erase x, q.pending - 1⟩ := if_pos h

/-- A request that was just put into the queue. -/
theorem Requests.without_append {q : Requests} {x : Ref} (h : x ∉ q.queue) :
    (q.append x).without (some x) = q := by
  have hmem : x ∈ (q.append x).queue := List.mem_append_right _ List.mem_cons_self
  have herase : (q.queue ++ [x]).erase x = q.queue := by
    rw [List.erase_append_right _ h, List.erase_cons_head, List.append_nil]
  rw [without_of_mem hmem]
  simp only [append, herase, UInt64.add_sub_cancel]

/-- Another request is put into the queue. -/
theorem Requests.append_without {q : Requests} {x y : Ref} (h : x ≠ y) :
    (q.append y).without (some x) = (q.without (some x)).append y := by
  have hmem : x ∈ (q.append y).queue ↔ x ∈ q.queue := by
    simp only [append, List.mem_append, List.mem_singleton, h, or_false]
  by_cases hx : x ∈ q.queue
  · rw [without_of_mem hx, without_of_mem (hmem.mpr hx)]
    have hpending : q.pending + 1 - 1 = q.pending - 1 + 1 := by grind
    simp only [append, List.erase_append_left _ hx, hpending]
  · rw [without_of_not_mem hx, without_of_not_mem fun hn => hx (hmem.mp hn)]

/-- Where the addresses are distinct, there is one request at an address. -/
theorem handle_inj {q : List Ref} (hq : (q.map Ref.handle).Nodup) {x y : Ref} (hx : x ∈ q)
    (hy : y ∈ q) (h : x.handle = y.handle) : x = y :=
  List.inj_on_of_nodup_map hq hx hy h

/-- Erasing a request is erasing what is at its address. -/
theorem erase_eq_filter {q : List Ref} (hq : (q.map Ref.handle).Nodup) {x : Ref} (hx : x ∈ q) :
    q.erase x = q.filter (·.handle != x.handle) := by
  rw [hq.of_map.erase_eq_filter]
  refine List.filter_congr fun y hy => ?_
  rw [Bool.eq_iff_iff, bne_iff_ne, bne_iff_ne]
  exact not_congr ⟨fun h => h ▸ rfl, handle_inj hq hy hx⟩

theorem Requests.unlink_of_mem {q : Requests} (hq : (q.queue.map Ref.handle).Nodup) {x : Ref}
    (hx : x ∈ q.queue) : q.unlink x.handle = q.without (some x) := by
  have hqueue := queue_unlink hq x.handle
  rw [without_of_mem hx, erase_eq_filter hq hx, ← hqueue]
  unfold unlink
  cases hat : q.at x.handle with
  | none => exact absurd rfl (at_none.mp hat x hx)
  | some y => rfl

theorem Requests.unlink_of_none {q : Requests} {h : Handle} (hn : ∀ y ∈ q.queue, y.handle ≠ h) :
    q.unlink h = q := by
  unfold unlink
  rw [at_none.mpr hn]

theorem Requests.mem_without {q : Requests} (hq : (q.queue.map Ref.handle).Nodup) {x y : Ref} :
    y ∈ (q.without (some x)).queue ↔ y ∈ q.queue ∧ y ≠ x := by
  by_cases hx : x ∈ q.queue
  · rw [without_of_mem hx, hq.of_map.mem_erase_iff, and_comm]
  · rw [without_of_not_mem hx]
    exact ⟨fun hy => ⟨hy, fun h => hx (h ▸ hy)⟩, And.left⟩

theorem Requests.nodup_without {q : Requests} (hq : (q.queue.map Ref.handle).Nodup) (x : Ref) :
    ((q.without (some x)).queue.map Ref.handle).Nodup := by
  by_cases hx : x ∈ q.queue
  · rw [without_of_mem hx]
    exact hq.sublist (List.erase_sublist.map _)
  · rw [without_of_not_mem hx]
    exact hq

/-- An address is unlinked. -/
theorem Requests.unlink_without {q : Requests} (hq : (q.queue.map Ref.handle).Nodup) (x : Ref)
    (h : Handle) : (q.unlink h).without (some x) = (q.without (some x)).unlink h := by
  by_cases hnone : ∀ y ∈ q.queue, y.handle ≠ h
  · rw [unlink_of_none hnone, unlink_of_none fun y hy => hnone y ((mem_without hq).mp hy).1]
  · simp only [not_forall, not_not] at hnone
    obtain ⟨y, hy, rfl⟩ := hnone
    by_cases hxy : y = x
    · subst hxy
      have hgone : ∀ z ∈ (q.without (some y)).queue, z.handle ≠ y.handle := fun z hz hzy => by
        obtain ⟨hz, hne⟩ := (mem_without hq).mp hz
        exact hne (handle_inj hq hz hy hzy)
      rw [unlink_of_mem hq hy, unlink_of_none hgone,
        without_of_not_mem fun hm => ((mem_without hq).mp hm).2 rfl]
    · have hy' : y ∈ (q.without (some x)).queue := (mem_without hq).mpr ⟨hy, hxy⟩
      rw [unlink_of_mem hq hy, unlink_of_mem (nodup_without hq x) hy']
      by_cases hx : x ∈ q.queue
      · have hx' : x ∈ (q.without (some y)).queue := (mem_without hq).mpr ⟨hx, Ne.symm hxy⟩
        rw [without_of_mem hx', without_of_mem hy', without_of_mem hy, without_of_mem hx]
        rw [List.erase_comm]
      · rw [without_of_not_mem hx, without_of_not_mem fun hm => hx ((mem_without hq).mp hm).1]

/-! ## What a step does to the queue -/

/-- A step leaves the queue, or makes one change to it, as thread `who`. -/
def Logged (s s' : Client) (who : Option ℕ) (P : QueueOp → Prop) : Prop :=
  (s'.history = s.history ∧ s'.requests = s.requests) ∨
    ∃ op, P op ∧ s'.history = s.history ++ [(who, op)] ∧ s'.requests = s.requests.apply op

theorem Logged.mono {s s' : Client} {who : Option ℕ} {P Q : QueueOp → Prop}
    (h : Logged s s' who P) (hPQ : ∀ op, P op → Q op) : Logged s s' who Q := by
  rcases h with h | ⟨op, hop, h⟩
  · exact .inl h
  · exact .inr ⟨op, hPQ op hop, h⟩

theorem logged_of_sameStore {s s' : Client} (h : SameStore s s') (who : Option ℕ)
    (P : QueueOp → Prop) : Logged s s' who P := .inl ⟨h.history, h.requests⟩

theorem logged_dsiRemove (s : Client) (who : Option ℕ) (own : Option Ref) (h : Handle) :
    Logged s (s.dsiRemoveFromRequestQueue who own h) who (· = .unlink h) := by
  rcases dsiRemove_cases s who own h with ⟨hsame, -⟩ | ⟨x, -, hat, heq⟩
  · exact logged_of_sameStore hsame who _
  · obtain ⟨-, rfl⟩ := Requests.at_some hat
    rw [heq]
    exact .inr ⟨_, rfl, rfl, rfl⟩

/-- A call changes the queue where it puts its request into it, and where it removes it. -/
theorem logged_performSend (s : Client) (t : ℕ) (own : Option Ref) (e : SendEffect)
    (answer : e.Answer) :
    Logged s (s.performSend t own ⟨e, answer⟩) (some t) fun op =>
      (∃ x h, e = .enqueue h ∧ own = some x ∧ op = .append x) ∨
        ∃ h, e = .remove h ∧ op = .unlink h := by
  cases e with
  | malloc =>
    cases answer with
    | none => exact .inl ⟨rfl, rfl⟩
    | some h => exact .inl ⟨rfl, rfl⟩
  | enqueue h =>
    cases own with
    | none => exact .inl ⟨rfl, rfl⟩
    | some x => exact .inr ⟨_, .inl ⟨x, h, rfl, rfl, rfl⟩, rfl, rfl⟩
  | write msg => exact logged_of_sameStore (sameStore_write s msg answer) _ _
  | remove h =>
    exact (logged_dsiRemove s (some t) own h).mono fun op hop => .inr ⟨h, rfl, hop⟩
  | _ => exact .inl ⟨rfl, rfl⟩

/-- A call changes who holds `send_mutex` where it locks it, and where it unlocks it. -/
theorem sendMutex_performSend (s : Client) (t : ℕ) (own : Option Ref) {e : SendEffect}
    (answer : e.Answer) (hlock : e ≠ .lockSend) (hunlock : e ≠ .unlockSend) :
    (s.performSend t own ⟨e, answer⟩).sendMutex = s.sendMutex := by
  cases e with
  | malloc =>
    cases answer with
    | none => rfl
    | some h => rfl
  | enqueue h =>
    cases own with
    | none => rfl
    | some x => rfl
  | write msg =>
    cases answer with
    | accepted n => rfl
    | failed e => rfl
  | lockSend => exact absurd rfl hlock
  | unlockSend => exact absurd rfl hunlock
  | remove h => exact sendMutex_dsiRemove s (some t) own h
  | _ => rfl

/-- The thread that an action is of. -/
def Action.thread : Action → Option ℕ
  | .call t _ _ _ | .send t _ | .ret t _ => some t
  | _ => none

/-- Another thread that calls for an unlock holds the mutex. -/
theorem unlock_holds {s : Client} (hs : s.WellFormed) {t : ℕ} {c : Call}
    {k : SendEffect.unlockSend.Answer → SendM ℤ} (hcall : s.calls t = some c)
    (hprog : c.prog = .act .unlockSend k) : s.sendMutex = some t := by
  have hc := hs.calls t c hcall
  have hgoes := hc.goes
  rw [hprog] at hgoes
  have hallows := hgoes.effect
  cases hstage : c.stage with
  | written r => exact hc.mutex (by rw [hstage]; rfl)
  | _ =>
    rw [hstage] at hallows
    simp [Stage.Allows] at hallows

/-- **A step of another thread** leaves the call of thread `t` and what it holds, and does not put
its request into the queue. -/
theorem step_other {s s' : Client} {a : Action} {t : ℕ} (hs : s.WellFormed) (hstep : Step s a s')
    (ha : a.thread ≠ some t) :
    s'.calls t = s.calls t ∧ (s'.sendMutex = some t ↔ s.sendMutex = some t) ∧
      ∃ who, who ≠ some t ∧ Logged s s' who fun op =>
        ∀ y, op = .append y → ∀ c x, s.calls t = some c → c.request = some x → x ≠ y := by
  have hquiet : ∀ {s' : Client}, SameStore s s' → ∃ who, who ≠ some t ∧ Logged s s' who fun op =>
      ∀ y, op = .append y → ∀ c x, s.calls t = some c → c.request = some x → x ≠ y :=
    fun h => ⟨none, nofun, logged_of_sameStore h none _⟩
  have hsame : ∀ {s' : Client}, s'.requests = s.requests → s'.heap = s.heap →
      s'.allocated = s.allocated → s'.released = s.released → s'.history = s.history →
      SameStore s s' := fun h₁ h₂ h₃ h₄ h₅ => ⟨h₁, fun h => by rw [h₂], h₃, h₄, h₅⟩
  have hne : ∀ t', some t' ≠ some t → t ≠ t' := fun t' h h' => h (congrArg some h'.symm)
  cases hstep with
  | call hnone =>
    exact ⟨Function.update_of_ne (hne _ ha) .., Iff.rfl, hquiet (hsame rfl rfl rfl rfl rfl)⟩
  | @send t' c e k answer hcall hprog hanswer =>
    have ht := hne t' ha
    refine ⟨Function.update_of_ne ht .., ?_, some t', ha, ?_⟩
    · change (s.performSend t' c.request ⟨e, answer⟩).sendMutex = some t ↔ _
      by_cases hlock : e = .lockSend
      · subst hlock
        have hfree : s.sendMutex = none := hanswer
        rw [hfree]
        exact ⟨fun h => absurd (Option.some.inj h).symm ht, nofun⟩
      · by_cases hunlock : e = .unlockSend
        · subst hunlock
          rw [unlock_holds hs hcall hprog]
          exact ⟨nofun, fun h => absurd (Option.some.inj h).symm ht⟩
        · rw [sendMutex_performSend s t' c.request answer hlock hunlock]
    · refine Logged.mono (logged_performSend s t' c.request e answer) ?_
      rintro op hop y rfl c' x hc' hx rfl
      rcases hop with ⟨z, -, -, hz, hy⟩ | ⟨h, -, hy⟩
      · cases hy
        exact ht (hs.distinct t t' c' c x x hc' hcall hx hz rfl)
      · exact nomatch hy
  | ret hcall hprog =>
    exact ⟨Function.update_of_ne (hne _ ha) .., Iff.rfl, hquiet (hsame rfl rfl rfl rfl rfl)⟩
  | recv hnone => exact ⟨rfl, Iff.rfl, hquiet (hsame rfl rfl rfl rfl rfl)⟩
  | @receive e k answer hreceiving hanswer =>
    rcases performRecv_cases s e with ⟨hstore, hcalls, hmutex⟩ | ⟨h, rfl⟩
    · refine ⟨congrFun hcalls t, ?_, none, nofun, logged_of_sameStore hstore _ _⟩
      change (s.performRecv e).sendMutex = some t ↔ _
      rw [hmutex]
    · refine ⟨congrFun (calls_dsiRemove ..) t, ?_, none, nofun, ?_⟩
      · change (s.dsiRemoveFromRequestQueue none s.holding h).sendMutex = some t ↔ _
        rw [sendMutex_dsiRemove]
      · refine Logged.mono (logged_dsiRemove s none s.holding h) ?_
        rintro op rfl y hy
        exact nomatch hy
  | recvRet hreceiving => exact ⟨rfl, Iff.rfl, hquiet (hsame rfl rfl rfl rfl rfl)⟩
  | setup => exact ⟨rfl, Iff.rfl, hquiet (hsame rfl rfl rfl rfl rfl)⟩
  | reconnected => exact ⟨rfl, Iff.rfl, hquiet (hsame rfl rfl rfl rfl rfl)⟩
  | serverRemove =>
    obtain ⟨h₁, h₂, h₃, h₄, h₅⟩ := sameStore_wake s
    exact ⟨rfl, Iff.rfl, hquiet ⟨h₁, h₂, h₃, h₄, h₅⟩⟩

/-! ## A call from its start -/

/-- The write found the connection closed. -/
def Lost : WriteResult → Prop
  | .failed .EPIPE | .failed .EBADF => True
  | _ => False

/-- Thread `t` writes, and finds the connection closed. -/
def Action.LosesConnection (t : ℕ) : Action → Prop
  | .send t' ⟨.write _, result⟩ => t' = t ∧ Lost result
  | _ => False

/-- The call has not locked `send_mutex` yet. -/
def Early : Stage → Prop
  | .starting | .allocated _ | .queued _ => True
  | _ => False

/-- The changes to the queue that thread `t` did not make, made to `q`. -/
def replayOthers (t : ℕ) (q : Requests) (changes : List (Option ℕ × QueueOp)) : Requests :=
  (changes.filter fun x => x.1 ≠ some t).foldl (fun q x => q.apply x.2) q

theorem replayOthers_own (t : ℕ) (q : Requests) (changes : List (Option ℕ × QueueOp))
    (op : QueueOp) : replayOthers t q (changes ++ [(some t, op)]) = replayOthers t q changes := by
  simp [replayOthers]

theorem replayOthers_other {t : ℕ} (q : Requests) (changes : List (Option ℕ × QueueOp))
    {who : Option ℕ} (hwho : who ≠ some t) (op : QueueOp) :
    replayOthers t q (changes ++ [(who, op)]) = (replayOthers t q changes).apply op := by
  simp [replayOthers, List.filter_append, hwho]

/-- A call of thread `t` that was started in the state `s`, after the actions `as`.  The queue
without its request is what the others have made of it. -/
structure During (t : ℕ) (s : Client) (as : List Action) (s₁ : Client) (c : Call) : Prop where
  call : s₁.calls t = some c
  others : (∀ h, c.stage ≠ .removed h) → ∃ changes, s₁.history = s.history ++ changes ∧
    replayOthers t s.requests changes = s₁.requests.without c.request
  held : s.sendMutex = some t → s₁.sendMutex = some t ∧ Early c.stage
  free : s.sendMutex ≠ some t → s₁.sendMutex = some t → c.stage.locking = true
  lost : (∃ a ∈ as, a.LosesConnection t) ↔ ∃ h, c.stage = .lost h

theorem during_start (t : ℕ) (s : Client) (msg : List UInt8) (wait : ℤ) (subcommand : UInt8) :
    During t s [] { s with calls := Function.update s.calls t (some (.start msg wait subcommand)) }
      (.start msg wait subcommand) where
  call := Function.update_self ..
  others _ := ⟨[], (List.append_nil _).symm, rfl⟩
  held h := ⟨h, trivial⟩
  free h h' := absurd h' h
  lost := ⟨nofun, nofun⟩

/-- The step of another thread. -/
theorem During.other {t : ℕ} {s s₁ s₂ : Client} {as : List Action} {a : Action} {c : Call}
    (h : During t s as s₁ c) (hs : s₁.WellFormed) (hstep : Step s₁ a s₂) (ha : a.thread ≠ some t) :
    During t s (as ++ [a]) s₂ c := by
  obtain ⟨hcalls, hmutex, who, hwho, hlog⟩ := step_other hs hstep ha
  refine ⟨hcalls.trans h.call, fun hstage => ?_, ?_, ?_, ?_⟩
  · obtain ⟨changes, hhistory, hreplay⟩ := h.others hstage
    rcases hlog with ⟨hsame, hrequests⟩ | ⟨op, hop, hnew, hrequests⟩
    · rw [hsame, hrequests]
      exact ⟨changes, hhistory, hreplay⟩
    · refine ⟨changes ++ [(who, op)], ?_, ?_⟩
      · rw [hnew, hhistory, List.append_assoc]
      · rw [replayOthers_other _ _ hwho, hreplay, hrequests]
        cases hown : c.request with
        | none => rfl
        | some x =>
          cases op with
          | append y => exact (Requests.append_without (hop y rfl c x h.call hown)).symm
          | unlink handle => exact (Requests.unlink_without hs.nodup x handle).symm
  · exact fun hheld => ⟨hmutex.mpr (h.held hheld).1, (h.held hheld).2⟩
  · exact fun hfree hlocked => h.free hfree (hmutex.mp hlocked)
  · rw [← h.lost]
    constructor
    · rintro ⟨b, hb, hloses⟩
      rcases List.mem_append.mp hb with hb | hb
      · exact ⟨b, hb, hloses⟩
      · obtain rfl := List.mem_singleton.mp hb
        cases b with
        | send t' ev =>
          obtain ⟨e, answer⟩ := ev
          cases e with
          | write msg => exact absurd (congrArg some hloses.1) ha
          | _ => exact absurd hloses id
        | _ => exact absurd hloses id
    · exact fun ⟨b, hb, hloses⟩ => ⟨b, List.mem_append_left _ hb, hloses⟩

/-- What an effect does to the stage of its call.  The call gets `send_mutex` or gives it back, it
goes on, or it comes to its end. -/
theorem stage_cases {s : Client} {t : ℕ} {c : Call} {e : SendEffect} {answer : e.Answer}
    (hallows : c.stage.Allows c.msg e) (hanswer : s.SendAnswers ⟨e, answer⟩) :
    (Early c.stage ∧ Early (c.stage.next ⟨e, answer⟩) ∧ e ≠ .lockSend ∧ e ≠ .unlockSend ∧
        ¬ (Action.send t ⟨e, answer⟩).LosesConnection t) ∨
      (e = .lockSend ∧ s.sendMutex = none ∧ ∃ r, c.stage.next ⟨e, answer⟩ = .locked r) ∨
      (c.stage.locking = true ∧ (∀ h, c.stage ≠ .lost h) ∧ e ≠ .lockSend ∧ e ≠ .unlockSend ∧
        (c.stage.next ⟨e, answer⟩).locking = true ∧
        ((Action.send t ⟨e, answer⟩).LosesConnection t ↔
          ∃ h, c.stage.next ⟨e, answer⟩ = .lost h)) ∨
      ((∃ h, c.stage = .lost h) ∧ e = .setDisconnected) ∨
      (c.stage.locking = true ∧ (∀ h, c.stage ≠ .lost h) ∧ e = .unlockSend ∧
        ∃ h, c.stage.next ⟨e, answer⟩ = .waiting h) ∨
      (∃ h, c.stage = .waiting h ∧ (c.stage.next ⟨e, answer⟩ = .waiting h ∨ e = .remove h) ∧
        e ≠ .lockSend ∧ e ≠ .unlockSend ∧ ¬ (Action.send t ⟨e, answer⟩).LosesConnection t) := by
  obtain ⟨msg, request, stage, prog⟩ := c
  dsimp only at hallows ⊢
  cases stage with
  | starting =>
    rcases hallows with rfl | rfl | rfl
    · exact .inl ⟨trivial, trivial, nofun, nofun, id⟩
    · exact .inl ⟨trivial, trivial, nofun, nofun, id⟩
    · cases answer with
      | none => exact .inl ⟨trivial, trivial, nofun, nofun, id⟩
      | some h => exact .inl ⟨trivial, trivial, nofun, nofun, id⟩
  | allocated r =>
    rcases hallows with rfl | ⟨id', subcommand, wait, rfl⟩ | rfl
    · exact .inl ⟨trivial, trivial, nofun, nofun, id⟩
    · exact .inl ⟨trivial, trivial, nofun, nofun, id⟩
    · exact .inl ⟨trivial, trivial, nofun, nofun, id⟩
  | queued r =>
    rcases hallows with rfl | rfl | rfl | rfl
    · exact .inl ⟨trivial, trivial, nofun, nofun, id⟩
    · exact .inl ⟨trivial, trivial, nofun, nofun, id⟩
    · exact .inl ⟨trivial, trivial, nofun, nofun, id⟩
    · exact .inr (.inl ⟨rfl, hanswer, r, rfl⟩)
  | locked r =>
    obtain rfl := hallows
    refine .inr (.inr (.inl ⟨rfl, nofun, nofun, nofun, ?_⟩))
    cases answer with
    | accepted n => exact ⟨rfl, fun h => h.2.elim, nofun⟩
    | failed e =>
      cases e with
      | EPIPE => exact ⟨rfl, fun _ => ⟨r, rfl⟩, fun _ => ⟨rfl, trivial⟩⟩
      | EBADF => exact ⟨rfl, fun _ => ⟨r, rfl⟩, fun _ => ⟨rfl, trivial⟩⟩
      | other => exact ⟨rfl, fun h => h.2.elim, nofun⟩
  | written r =>
    obtain rfl := hallows
    exact .inr (.inr (.inr (.inr (.inl ⟨rfl, nofun, rfl, r, rfl⟩))))
  | waiting r =>
    refine .inr (.inr (.inr (.inr (.inr ⟨r, rfl, ?_⟩))))
    rcases hallows with rfl | rfl | ⟨timed, rfl⟩ | rfl | rfl
    · exact ⟨.inl rfl, nofun, nofun, id⟩
    · exact ⟨.inl rfl, nofun, nofun, id⟩
    · exact ⟨.inl rfl, nofun, nofun, id⟩
    · exact ⟨.inl rfl, nofun, nofun, id⟩
    · exact ⟨.inr rfl, nofun, nofun, id⟩
  | lost r => exact .inr (.inr (.inr (.inl ⟨⟨r, rfl⟩, hallows⟩)))
  | removed r => exact absurd hallows id

theorem not_early_of_locking {stage : Stage} (h : stage.locking = true) : ¬ Early stage := by
  cases stage with
  | locked r => exact id
  | written r => exact id
  | lost r => exact id
  | _ => exact absurd h Bool.false_ne_true

/-- The queue without the request of the call stays what it is, until the call removes it. -/
theorem without_performSend {s : Client} {t : ℕ} {c : Call} {e : SendEffect} {answer : e.Answer}
    (hs : s.WellFormed) (hcall : s.calls t = some c) (hallows : c.stage.Allows c.msg e)
    (hanswer : s.SendAnswers ⟨e, answer⟩) (hremove : ∀ h, e ≠ .remove h) :
    (s.performSend t c.request ⟨e, answer⟩).requests.without
        (c.nextRequest s.allocated ⟨e, answer⟩) = s.requests.without c.request ∧
      ∃ own, (s.performSend t c.request ⟨e, answer⟩).history = s.history ++ own ∧
        ∀ q changes, replayOthers t q (changes ++ own) = replayOthers t q changes := by
  have hc := hs.calls t c hcall
  have hquiet : ∀ q changes, replayOthers t q (changes ++ []) = replayOthers t q changes :=
    fun q changes => by rw [List.append_nil]
  rcases logged_performSend s t c.request e answer with ⟨hhistory, hrequests⟩ | ⟨op, hop, hnew⟩
  · refine ⟨?_, [], by rw [hhistory, List.append_nil], hquiet⟩
    rw [hrequests]
    by_cases hmalloc : e = .malloc
    · subst hmalloc
      have hnone : c.request = none := by
        have hstage : c.stage = .starting := by
          cases hst : c.stage with
          | starting => rfl
          | _ =>
            rw [hst] at hallows
            simp [Stage.Allows] at hallows
        have hrequest := hc.request
        rw [hstage] at hrequest
        exact Option.map_eq_none_iff.mp hrequest
      rw [hnone]
      cases answer with
      | none => rfl
      | some h =>
        refine Requests.without_of_not_mem fun hmem => ?_
        exact ((live_malloc (hanswer h rfl)).2 _ (hs.live _ hmem)).1 rfl
    · cases e with
      | malloc => exact absurd rfl hmalloc
      | _ => rfl
  · rcases hop with ⟨x, h, rfl, hx, rfl⟩ | ⟨h, rfl, -⟩
    · obtain ⟨hhistory, hrequests⟩ := hnew
      refine ⟨?_, _, hhistory, fun q changes => replayOthers_own t q changes _⟩
      have hstage : ∃ r, c.stage = .allocated r := by
        cases hst : c.stage with
        | allocated r => exact ⟨r, rfl⟩
        | _ =>
          rw [hst] at hallows
          simp [Stage.Allows] at hallows
      obtain ⟨r, hstage⟩ := hstage
      have hnot : x ∉ s.requests.queue := fun hmem => (hc.fresh r x hstage hx).2 x hmem rfl
      rw [hrequests]
      change (s.requests.append x).without c.request = _
      rw [hx, Requests.without_append hnot, Requests.without_of_not_mem hnot]
    · exact absurd rfl (hremove h)

/-- The step of the call itself. -/
theorem During.own {t : ℕ} {s s₁ : Client} {as : List Action} {c : Call} {e : SendEffect}
    {k : e.Answer → SendM ℤ} {answer : e.Answer} (h : During t s as s₁ c) (hs : s₁.WellFormed)
    (hprog : c.prog = .act e k) (hanswer : s₁.SendAnswers ⟨e, answer⟩) :
    During t s (as ++ [.send t ⟨e, answer⟩])
      { s₁.performSend t c.request ⟨e, answer⟩ with
        calls := Function.update s₁.calls t (some
          { msg := c.msg
            request := c.nextRequest s₁.allocated ⟨e, answer⟩
            stage := c.stage.next ⟨e, answer⟩
            prog := k answer }) }
      { msg := c.msg
        request := c.nextRequest s₁.allocated ⟨e, answer⟩
        stage := c.stage.next ⟨e, answer⟩
        prog := k answer } := by
  have hgoes := (hs.calls t c h.call).goes
  rw [hprog] at hgoes
  have hallows := hgoes.effect
  have hmutex : e ≠ .lockSend → e ≠ .unlockSend →
      (s₁.performSend t c.request ⟨e, answer⟩).sendMutex = s₁.sendMutex :=
    sendMutex_performSend s₁ t c.request answer
  have hlost : (∃ a ∈ as ++ [.send t ⟨e, answer⟩], a.LosesConnection t) ↔
      (∃ h, c.stage = .lost h) ∨ (Action.send t ⟨e, answer⟩).LosesConnection t := by
    rw [← h.lost]
    constructor
    · rintro ⟨a, ha, hloses⟩
      rcases List.mem_append.mp ha with ha | ha
      · exact .inl ⟨a, ha, hloses⟩
      · obtain rfl := List.mem_singleton.mp ha
        exact .inr hloses
    · rintro (⟨a, ha, hloses⟩ | hloses)
      · exact ⟨a, List.mem_append_left _ ha, hloses⟩
      · exact ⟨_, List.mem_append_right _ List.mem_cons_self, hloses⟩
  have hothers : (∀ h, c.stage.next ⟨e, answer⟩ ≠ .removed h) → ∃ changes,
      (s₁.performSend t c.request ⟨e, answer⟩).history = s.history ++ changes ∧
        replayOthers t s.requests changes =
          (s₁.performSend t c.request ⟨e, answer⟩).requests.without
            (c.nextRequest s₁.allocated ⟨e, answer⟩) := by
    intro hstage
    have hremove : ∀ h, e ≠ .remove h := by
      rintro r rfl
      exact hstage r rfl
    have hbefore : ∀ h, c.stage ≠ .removed h := by
      intro r hr
      rw [hr] at hallows
      exact hallows
    obtain ⟨hwithout, own, hhistory, hown⟩ :=
      without_performSend hs h.call hallows hanswer hremove
    obtain ⟨changes, hchanges, hreplay⟩ := h.others hbefore
    refine ⟨changes ++ own, ?_, ?_⟩
    · rw [hhistory, hchanges, List.append_assoc]
    · rw [hown, hreplay, hwithout]
  refine ⟨Function.update_self .., hothers, ?_, ?_, ?_⟩
  · intro hheld
    obtain ⟨hm, hearly⟩ := h.held hheld
    rcases stage_cases (t := t) hallows hanswer with ⟨-, hnext, hl, hu, -⟩ | ⟨-, hfree, -⟩ |
      ⟨hlocking, -⟩ | ⟨⟨r, hr⟩, -⟩ | ⟨hlocking, -⟩ | ⟨r, hr, -⟩
    · exact ⟨(hmutex hl hu).trans hm, hnext⟩
    · exact nomatch hm.symm.trans hfree
    · exact absurd hearly (not_early_of_locking hlocking)
    · exact (hr ▸ hearly :).elim
    · exact absurd hearly (not_early_of_locking hlocking)
    · exact (hr ▸ hearly :).elim
  · intro hfree hm
    rcases stage_cases (t := t) hallows hanswer with ⟨hearly, -, hl, hu, -⟩ | ⟨rfl, -, r, hr⟩ |
      ⟨-, -, -, -, hlocking, -⟩ | ⟨⟨r, hr⟩, rfl⟩ | ⟨-, -, rfl, -⟩ | ⟨r, hr, -, hl, hu, -⟩
    · have hlocking := h.free hfree ((hmutex hl hu).symm.trans hm)
      exact absurd hearly (not_early_of_locking hlocking)
    · change (c.stage.next ⟨.lockSend, answer⟩).locking = true
      rw [hr]
      rfl
    · exact hlocking
    · change c.stage.locking = true
      rw [hr]
      rfl
    · exact nomatch hm
    · have hlocking := h.free hfree ((hmutex hl hu).symm.trans hm)
      rw [hr] at hlocking
      exact nomatch hlocking
  · rw [hlost]
    change _ ↔ ∃ h, c.stage.next ⟨e, answer⟩ = .lost h
    rcases stage_cases (t := t) hallows hanswer with ⟨hearly, hnext, -, -, hnot⟩ | ⟨rfl, -, r, hr⟩ |
      ⟨-, hnl, -, -, -, hiff⟩ | ⟨⟨r, hr⟩, rfl⟩ | ⟨-, hnl, rfl, r, hr⟩ | ⟨r, hr, hnext, -, -, hnot⟩
    · refine iff_of_false ?_ fun ⟨r, hr⟩ => (hr ▸ hnext :)
      rintro (⟨r, hr⟩ | hloses)
      · exact (hr ▸ hearly :)
      · exact hnot hloses
    · rw [hr]
      refine iff_of_false ?_ nofun
      rintro (⟨r', hr'⟩ | hloses)
      · rw [hr'] at hallows
        exact nomatch hallows
      · exact hloses
    · rw [hiff]
      exact ⟨fun h => h.resolve_left fun ⟨r, hr⟩ => hnl r hr, .inr⟩
    · exact iff_of_true (.inl ⟨r, hr⟩) ⟨r, hr⟩
    · rw [hr]
      refine iff_of_false ?_ nofun
      rintro (⟨r', hr'⟩ | hloses)
      · exact hnl r' hr'
      · exact hloses
    · refine iff_of_false ?_ ?_
      · rintro (⟨r', hr'⟩ | hloses)
        · exact nomatch hr.symm.trans hr'
        · exact hnot hloses
      · rintro ⟨r', hr'⟩
        rcases hnext with hnext | rfl
        · exact nomatch hnext.symm.trans hr'
        · exact nomatch hr'

/-- **All the way through a call.** -/
theorem during_run {t : ℕ} {s s₁ s₂ : Client} {as bs : List Action} {c : Call}
    (hrun : Run Step s₁ bs s₂) (h : During t s as s₁ c) (hs : s₁.WellFormed)
    (hret : ∀ rc, Action.ret t rc ∉ bs) : ∃ c', During t s (as ++ bs) s₂ c' := by
  induction hrun generalizing as c with
  | nil s₁ => exact ⟨c, by rwa [List.append_nil]⟩
  | @cons s₁ s₂ s₃ a bs hstep hrest ih =>
    have hnext : ∃ c', During t s (as ++ [a]) s₂ c' := by
      by_cases ha : a.thread = some t
      · cases hstep with
        | call hnone =>
          obtain rfl := Option.some.inj ha
          exact nomatch h.call.symm.trans hnone
        | @send t' c' e k answer hcall hprog hanswer =>
          obtain rfl := Option.some.inj ha
          obtain rfl := Option.some.inj (h.call.symm.trans hcall)
          exact ⟨_, h.own hs hprog hanswer⟩
        | @ret t' c' rc hcall hprog =>
          obtain rfl := Option.some.inj ha
          exact absurd List.mem_cons_self (hret rc)
        | _ => exact nomatch ha
      · exact ⟨c, h.other hs hstep ha⟩
    obtain ⟨c', hc'⟩ := hnext
    obtain ⟨c₂, hc₂⟩ := ih hc' (wellFormed_step hstep hs) fun rc hmem =>
      hret rc (List.mem_cons_of_mem _ hmem)
    exact ⟨c₂, by rwa [List.append_assoc] at hc₂⟩

/-! ## Where a call returns -/

/-- A call of thread `t` that is made in the state `s`: the actions until it is in `s₁`, and its
last effect, after which it returns, in `s'`. -/
structure Returns (t : ℕ) (s : Client) (as : List Action) (s₁ : Client)
    (ev : (e : SendEffect) × e.Answer) (s' : Client) : Prop where
  start : ∃ msg wait subcommand, Run Step s (.call t msg wait subcommand :: as) s₁
  under : ∀ rc, Action.ret t rc ∉ as
  last : Step s₁ (.send t ev) s'
  done : ∃ c rc, s'.calls t = some c ∧ c.prog = .done rc

/-- Nothing is left of a call of thread `t`, made in `s`, when it returns in `s'`: its request is
not in the queue, the queue and the count are what the other threads have made of them, and it
does not hold `send_mutex`. -/
structure NoTrace (t : ℕ) (s s' : Client) : Prop where
  gone : ∀ c x, s'.calls t = some c → c.request = some x → x ∉ s'.requests.queue
  others : ∃ changes, s'.history = s.history ++ changes ∧
    s'.requests = replayOthers t s.requests changes
  mutex : s'.sendMutex ≠ some t

/-- The removal at the end of the call finds no request but its own: the server is still there,
unless `dsi_recv()` has removed the request already, and then no other request has got its
address. -/
def RemovesOwn (t : ℕ) (s : Client) : (e : SendEffect) × e.Answer → Prop
  | ⟨.remove _, _⟩ => ∀ c x, s.calls t = some c → c.request = some x →
      (x ∈ s.requests.queue → s.valid = true) ∧
        (s.valid = true → ∀ y ∈ s.requests.queue, y.handle = x.handle → y = x)
  | _ => True

/-- The removal of a call that waits. -/
theorem noTrace_remove {t : ℕ} {s s₁ s' : Client} {as : List Action} {c : Call} {x : Ref}
    (h : During t s as s₁ c) (hs : s₁.WellFormed) (hstage : c.stage = .waiting x.handle)
    (hx : c.request = some x)
    (hrequests : s'.requests =
      (s₁.dsiRemoveFromRequestQueue (some t) (some x) x.handle).requests)
    (hhistory : s'.history = (s₁.dsiRemoveFromRequestQueue (some t) (some x) x.handle).history)
    (hmutex : s'.sendMutex = s₁.sendMutex)
    (hcall : ∀ c', s'.calls t = some c' → c'.request = some x)
    (hsome : ∃ c', s'.calls t = some c') :
    NoTrace t s s' ↔ s.sendMutex ≠ some t ∧ RemovesOwn t s₁ ⟨.remove x.handle, ()⟩ := by
  have hfree : s.sendMutex ≠ some t := fun hheld => by
    have := (h.held hheld).2
    rw [hstage] at this
    exact this
  have hm : s'.sendMutex ≠ some t := fun hm => by
    have := h.free hfree (hmutex.symm.trans hm)
    rw [hstage] at this
    exact nomatch this
  obtain ⟨changes, hchanges, hreplay⟩ := h.others (by rw [hstage]; exact nofun)
  rw [hx] at hreplay
  -- the removal is a change of the thread itself
  have hown : ∃ own, s'.history = s.history ++ (changes ++ own) ∧
      replayOthers t s.requests (changes ++ own) = s₁.requests.without (some x) := by
    rcases logged_dsiRemove s₁ (some t) (some x) x.handle with ⟨hsame, -⟩ | ⟨op, -, hnew, -⟩
    · refine ⟨[], ?_, ?_⟩
      · rw [hhistory, hsame, hchanges, List.append_nil]
      · rw [List.append_nil, hreplay]
    · refine ⟨[(some t, op)], ?_, ?_⟩
      · rw [hhistory, hnew, hchanges, List.append_assoc]
      · rw [replayOthers_own, hreplay]
  obtain ⟨own, hnew, hothers⟩ := hown
  have hiff : NoTrace t s s' ↔ x ∉ s'.requests.queue ∧
      s'.requests = s₁.requests.without (some x) := by
    constructor
    · intro htrace
      obtain ⟨c', hc'⟩ := hsome
      refine ⟨htrace.gone c' x hc' (hcall c' hc'), ?_⟩
      obtain ⟨all, hall, hq⟩ := htrace.others
      rw [hq, ← hothers, List.append_cancel_left (hall.symm.trans hnew)]
    · rintro ⟨hgone, hq⟩
      refine ⟨fun c' y hc' hy => ?_, ⟨_, hnew, hq.trans hothers.symm⟩, hm⟩
      rw [hcall c' hc'] at hy
      exact Option.some.inj hy ▸ hgone
  have hremoves : RemovesOwn t s₁ ⟨.remove x.handle, ()⟩ ↔
      (x ∈ s₁.requests.queue → s₁.valid = true) ∧
        (s₁.valid = true → ∀ y ∈ s₁.requests.queue, y.handle = x.handle → y = x) := by
    constructor
    · exact fun hr => hr c x h.call hx
    · intro hr c' y hc' hy
      obtain rfl := Option.some.inj (h.call.symm.trans hc')
      obtain rfl := Option.some.inj (hx.symm.trans hy)
      exact hr
  rw [hiff, hremoves, and_iff_right hfree, hrequests]
  rcases dsiRemove_cases s₁ (some t) (some x) x.handle with ⟨hsame, hnone⟩ |
    ⟨y, hvalid, hat, heq⟩
  · rw [hsame.requests]
    constructor
    · rintro ⟨hgone, -⟩
      exact ⟨fun hmem => absurd hmem hgone, fun hv z hz hzx =>
        absurd hzx (Requests.at_none.mp (hnone hv) z hz)⟩
    · rintro ⟨hv, -⟩
      have hgone : x ∉ s₁.requests.queue := fun hmem =>
        Requests.at_none.mp (hnone (hv hmem)) x hmem rfl
      exact ⟨hgone, (Requests.without_of_not_mem hgone).symm⟩
  · obtain ⟨hy, hyx⟩ := Requests.at_some hat
    have hq : (s₁.dsiRemoveFromRequestQueue (some t) (some x) x.handle).requests =
        s₁.requests.without (some y) := by
      rw [heq]
      exact Requests.unlink_of_mem hs.nodup hy
    rw [hq]
    constructor
    · rintro ⟨-, hsame⟩
      have hxy : y = x := by
        by_contra hne
        have hmem : y ∈ (s₁.requests.without (some y)).queue := by
          rw [hsame]
          exact (Requests.mem_without hs.nodup).mpr ⟨hy, hne⟩
        exact ((Requests.mem_without hs.nodup).mp hmem).2 rfl
      subst hxy
      exact ⟨fun _ => hvalid, fun _ z hz hzy => handle_inj hs.nodup hz hy hzy⟩
    · rintro ⟨-, hown⟩
      obtain rfl := hown hvalid y hy hyx
      exact ⟨fun hmem => ((Requests.mem_without hs.nodup).mp hmem).2 rfl, rfl⟩

/-- Only a removal ends in the stage after one. -/
theorem next_removed {stage : Stage} {msg : List UInt8} {e : SendEffect} {answer : e.Answer}
    {h : Handle} (hallows : stage.Allows msg e) (hnext : stage.next ⟨e, answer⟩ = .removed h) :
    e = .remove h ∧ stage = .waiting h := by
  cases stage with
  | starting =>
    rcases hallows with rfl | rfl | rfl
    · exact nomatch hnext
    · exact nomatch hnext
    · cases answer with
      | none => exact nomatch hnext
      | some r => exact nomatch hnext
  | allocated r =>
    rcases hallows with rfl | ⟨id, subcommand, wait, rfl⟩ | rfl
    · exact nomatch hnext
    · exact nomatch hnext
    · exact nomatch hnext
  | queued r =>
    rcases hallows with rfl | rfl | rfl | rfl
    · exact nomatch hnext
    · exact nomatch hnext
    · exact nomatch hnext
    · exact nomatch hnext
  | locked r =>
    obtain rfl := hallows
    cases answer with
    | accepted n => exact nomatch hnext
    | failed e =>
      cases e with
      | EPIPE => exact nomatch hnext
      | EBADF => exact nomatch hnext
      | other => exact nomatch hnext
  | written r =>
    obtain rfl := hallows
    exact nomatch hnext
  | waiting r =>
    rcases hallows with rfl | rfl | ⟨timed, rfl⟩ | rfl | rfl
    · exact nomatch hnext
    · exact nomatch hnext
    · exact nomatch hnext
    · exact nomatch hnext
    · cases hnext
      exact ⟨rfl, rfl⟩
  | lost r =>
    obtain rfl := hallows
    exact nomatch hnext
  | removed r => exact absurd hallows id

theorem returns_cases {stage : Stage} (h : stage.Returns) :
    stage = .starting ∨ (∃ r, stage = .lost r) ∨ ∃ r, stage = .removed r := by
  cases stage with
  | starting => exact .inl rfl
  | lost r => exact .inr (.inl ⟨r, rfl⟩)
  | removed r => exact .inr (.inr ⟨r, rfl⟩)
  | _ => exact absurd h id

/-- **When a call leaves no trace.**  The thread did not hold `send_mutex` when it called, no write
found the connection closed, and the removal at the end found no request but its own. -/
theorem noTrace_iff {pre as : List Action} {s s₁ s' : Client} {t : ℕ}
    {ev : (e : SendEffect) × e.Answer} (hpre : Run Step .init pre s)
    (h : Returns t s as s₁ ev s') :
    NoTrace t s s' ↔ s.sendMutex ≠ some t ∧
      (∀ a ∈ as ++ [.send t ev], ¬ a.LosesConnection t) ∧ RemovesOwn t s₁ ev := by
  obtain ⟨⟨msg, wait, subcommand, hrun⟩, hunder, hlast, c', rc, hc', hdone⟩ := h
  have hs : s.WellFormed := wellFormed_run hpre wellFormed_init
  obtain ⟨c, hduring⟩ : ∃ c, During t s as s₁ c := by
    cases hrun with
    | cons hcall hrest =>
      have hs₀ := wellFormed_step hcall hs
      cases hcall with
      | call hnone => exact during_run hrest (during_start t s msg wait subcommand) hs₀ hunder
  have hs₁ : s₁.WellFormed := wellFormed_run hrun hs
  have hs' : s'.WellFormed := wellFormed_step hlast hs₁
  have hlocking := (hs'.calls t c' hc').mutex
  have hrequest := (hs'.calls t c' hc').request
  have hreturns : c'.stage.Returns := by
    have := (hs'.calls t c' hc').goes
    rwa [hdone] at this
  cases hlast with
  | @send _ c₀ e k answer hcall hprog hanswer =>
    obtain rfl := Option.some.inj (hduring.call.symm.trans hcall)
    have hafter := hduring.own hs₁ hprog hanswer
    obtain rfl := Option.some.inj (hafter.call.symm.trans hc')
    have hallows : c.stage.Allows c.msg e := by
      have hgoes := (hs₁.calls t c hcall).goes
      rw [hprog] at hgoes
      exact hgoes.effect
    dsimp only at hlocking hrequest hreturns
    rcases returns_cases hreturns with hstage | ⟨r, hstage⟩ | ⟨r, hstage⟩
    · -- it has returned without a request
      have hnone : c.nextRequest s₁.allocated ⟨e, answer⟩ = none := by
        rw [hstage] at hrequest
        exact Option.map_eq_none_iff.mp hrequest
      have hfree : s.sendMutex ≠ some t ↔
          (s₁.performSend t c.request ⟨e, answer⟩).sendMutex ≠ some t := by
        refine ⟨fun hf hm => ?_, fun hm hheld => hm (hafter.held hheld).1⟩
        have := hafter.free hf hm
        rw [hstage] at this
        exact nomatch this
      have hnot : ∀ a ∈ as ++ [.send t ⟨e, answer⟩], ¬ a.LosesConnection t := fun a ha hloses => by
        obtain ⟨r, hr⟩ := hafter.lost.mp ⟨a, ha, hloses⟩
        exact nomatch hstage.symm.trans hr
      have hremoves : RemovesOwn t s₁ ⟨e, answer⟩ := by
        cases e with
        | remove r => exact nomatch hstage
        | _ => trivial
      rw [and_iff_left ⟨hnot, hremoves⟩, hfree]
      constructor
      · exact fun htrace => htrace.mutex
      · intro hm
        obtain ⟨changes, hchanges, hreplay⟩ := hafter.others (by rw [hstage]; exact nofun)
        refine ⟨fun c₂ x hc₂ hx => ?_, ⟨changes, hchanges, ?_⟩, hm⟩
        · obtain rfl := Option.some.inj (hafter.call.symm.trans hc₂)
          exact nomatch hnone.symm.trans hx
        · rw [hreplay]
          dsimp only
          rw [hnone]
          rfl
    · -- it has found the connection closed
      obtain ⟨a, ha, hloses⟩ := hafter.lost.mpr ⟨r, hstage⟩
      refine iff_of_false (fun htrace => htrace.mutex (hlocking ?_)) fun hcond => ?_
      · rw [hstage]
        rfl
      · exact hcond.2.1 a ha hloses
    · -- it has removed its request
      obtain ⟨rfl, hwaiting⟩ := next_removed hallows hstage
      obtain ⟨x, hx, rfl⟩ : ∃ x, c.request = some x ∧ x.handle = r := by
        have := (hs₁.calls t c hcall).request
        rw [hwaiting] at this
        exact Option.map_eq_some_iff.mp this
      have hnot : ∀ a ∈ as ++ [.send t ⟨.remove x.handle, answer⟩], ¬ a.LosesConnection t :=
        fun a ha hloses => by
          obtain ⟨r, hr⟩ := hafter.lost.mp ⟨a, ha, hloses⟩
          exact nomatch hstage.symm.trans hr
      rw [and_iff_right hnot]
      refine noTrace_remove hduring hs₁ hwaiting hx ?_ ?_ ?_ ?_ ⟨_, hafter.call⟩
      · rw [← hx]
        rfl
      · rw [← hx]
        rfl
      · exact sendMutex_dsiRemove ..
      · intro c₂ hc₂
        obtain rfl := Option.some.inj (hafter.call.symm.trans hc₂)
        exact hx

/-! ## What a lost connection leaves -/

theorem update_some {calls : ℕ → Option Call} {t : ℕ} {c c' : Call}
    (h : Function.update calls t (some c) t = some c') : c = c' := by
  rw [Function.update_self] at h
  exact Option.some.inj h

/-- **Nobody gets `send_mutex` any more** when a thread that holds it has returned: no step gives
it back. -/
theorem mutex_never_released {s s' : Client} {as : List Action} {t : ℕ} (hs : s.WellFormed)
    (hheld : s.sendMutex = some t) (hreturned : s.calls t = none) (hrun : Run Step s as s') :
    s'.sendMutex = some t := by
  let I : Client → Prop := fun s => s.WellFormed ∧ s.sendMutex = some t ∧
    ∀ c, s.calls t = some c → Early c.stage
  suffices hI : I s' from hI.2.1
  refine hrun.invariant I (fun s a s' hstep ⟨hs, hheld, hearly⟩ => ?_)
    ⟨hs, hheld, fun c hc => nomatch hreturned.symm.trans hc⟩
  refine ⟨wellFormed_step hstep hs, ?_⟩
  by_cases ha : a.thread = some t
  · cases hstep with
    | call hnone =>
      obtain rfl := Option.some.inj ha
      refine ⟨hheld, fun c hc => ?_⟩
      obtain rfl := update_some hc
      trivial
    | @send t' c e k answer hcall hprog hanswer =>
      obtain rfl := Option.some.inj ha
      have hgoes := (hs.calls t' c hcall).goes
      rw [hprog] at hgoes
      have hmutex := sendMutex_performSend s t' c.request answer
      rcases stage_cases (t := t') hgoes.effect hanswer with ⟨-, hnext, hl, hu, -⟩ |
        ⟨-, hfree, -⟩ | ⟨hlocking, -⟩ | ⟨⟨r, hr⟩, -⟩ | ⟨hlocking, -⟩ | ⟨r, hr, -⟩
      · refine ⟨(hmutex hl hu).trans hheld, fun c' hc' => ?_⟩
        obtain rfl := update_some hc'
        exact hnext
      · exact nomatch hheld.symm.trans hfree
      · exact absurd (hearly c hcall) (not_early_of_locking hlocking)
      · exact (hr ▸ hearly c hcall :).elim
      · exact absurd (hearly c hcall) (not_early_of_locking hlocking)
      · exact (hr ▸ hearly c hcall :).elim
    | @ret t' c rc hcall hprog =>
      obtain rfl := Option.some.inj ha
      refine ⟨hheld, fun c hc => ?_⟩
      change Function.update s.calls t' none t' = some c at hc
      rw [Function.update_self] at hc
      exact nomatch hc
    | _ => exact nomatch ha
  · obtain ⟨hcalls, hmutex, -⟩ := step_other hs hstep ha
    exact ⟨hmutex.mpr hheld, fun c hc => hearly c (hcalls ▸ hc)⟩

/-- A thread sends a header, and the server has closed the connection. -/
def brokenPipe : List Action :=
  [.call 1 (.replicate 16 0) 5 0, .send 1 ⟨.stillValid, true⟩, .send 1 ⟨.fd, (3 : ℤ)⟩,
    .send 1 ⟨.malloc, some 8⟩, .send 1 ⟨.lastrequestid, (0 : UInt16)⟩,
    .send 1 ⟨.fill 8 0 0 5, ()⟩, .send 1 ⟨.enqueue 8, ()⟩, .send 1 ⟨.initWaiting 8, ()⟩,
    .send 1 ⟨.disconnected, false⟩, .send 1 ⟨.lockSend, ()⟩,
    .send 1 ⟨.write (.replicate 16 0), WriteResult.failed .EPIPE⟩]

theorem brokenPipe_returns : ∃ s₁ s', Returns 1 .init brokenPipe.tail s₁ ⟨.setDisconnected, ()⟩ s' ∧
    s'.requests.queue = [⟨8, 0⟩] ∧ s'.sendMutex = some 1 := by
  have hrun : ∃ s₁, Run Step .init brokenPipe s₁ ∧ ∃ c, s₁.calls 1 = some c ∧
      c.prog = .act .setDisconnected (fun _ => .done (-1)) ∧ s₁.requests.queue = [⟨8, 0⟩] ∧
        s₁.sendMutex = some 1 := by
    refine ⟨_, .cons (.call rfl) <| .cons (.send rfl rfl rfl) <| .cons (.send rfl rfl trivial) <|
      .cons (.send rfl rfl fun _ _ => rfl) <| .cons (.send rfl rfl rfl) <|
      .cons (.send rfl rfl trivial) <| .cons (.send rfl rfl trivial) <|
      .cons (.send rfl rfl trivial) <| .cons (.send rfl rfl rfl) <| .cons (.send rfl rfl rfl) <|
      .cons (.send rfl rfl nofun) <| .nil _, _, rfl, rfl, rfl, rfl⟩
  obtain ⟨s₁, hrun, c, hcall, hprog, hqueue, hmutex⟩ := hrun
  refine ⟨s₁, _, ⟨⟨_, _, _, hrun⟩, ?_, .send hcall hprog trivial, ?_⟩, hqueue, hmutex⟩
  · simp [brokenPipe]
  · refine ⟨{ c with prog := .done (-1) }, -1, ?_, rfl⟩
    change Function.update s₁.calls 1 (some { c with prog := .done (-1) }) 1 = _
    rw [Function.update_self]

/-- **A call can leave a trace**: the request stays in the queue. -/
theorem broken_pipe_leaves_trace :
    ¬ ∀ (pre as : List Action) (s s₁ s' : Client) (t : ℕ) (ev : (e : SendEffect) × e.Answer),
      Run Step .init pre s → Returns t s as s₁ ev s' → NoTrace t s s' := by
  intro hclaim
  obtain ⟨s₁, s', hreturns, -, hmutex⟩ := brokenPipe_returns
  exact (hclaim [] _ _ _ _ _ _ (.nil _) hreturns).mutex hmutex

/-- So does what the condition says of the call. -/
theorem noTrace_iff_of_brokenPipe :
    ∃ s₁ s', Returns 1 .init brokenPipe.tail s₁ ⟨.setDisconnected, ()⟩ s' ∧
      ¬ NoTrace 1 .init s' := by
  obtain ⟨s₁, s', hreturns, -, -⟩ := brokenPipe_returns
  refine ⟨s₁, s', hreturns, fun htrace => ?_⟩
  obtain ⟨-, hlost, -⟩ := (noTrace_iff (.nil _) hreturns).mp htrace
  exact hlost (.send 1 ⟨.write (.replicate 16 0), WriteResult.failed .EPIPE⟩)
    (by simp [brokenPipe]) ⟨rfl, trivial⟩

end Sending
end Dsi
end Afpfs

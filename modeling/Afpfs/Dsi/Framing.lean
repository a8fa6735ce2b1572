import Afpfs.Dsi.Cleanup

/-!
# The packets on the socket

`dsi_send()` writes a packet with one `write()`, under `send_mutex`, and takes any result that is
not negative for a success.  On a stream a `write()` may accept a part of what it is given.

`Framed` is what is expected of a run on one connection: the socket has the packets that were
written, one behind the other, each call has written its own at most once and has done so when it
returns 0, and a call whose packet was cut reports no success, with no other packet behind it.

* `framed_run`: this holds of every run in which no write accepts a part of a packet.
* `short_write_reports_success`: otherwise it may fail.  A call whose packet was cut returns 0.
-/

set_option autoImplicit false

namespace Afpfs
namespace Dsi
namespace Sending

open Interaction Transition

/-! ## What is written -/

/-- The packet that a write put on the socket, if it was accepted. -/
def acceptedPacket (msg : List UInt8) : WriteResult → Option (List UInt8)
  | .accepted _ => some msg
  | .failed _ => none

/-- The packet that an action wrote. -/
def Action.packet : Action → Option (List UInt8)
  | .send _ ⟨.write msg, result⟩ => acceptedPacket msg result
  | _ => none

/-- The packet that thread `t` wrote with an action. -/
def Action.packetOf (t : ℕ) (a : Action) : Option (List UInt8) :=
  if a.thread = some t then a.packet else none

/-- The write accepted all of the packet, or failed. -/
def Whole (msg : List UInt8) : WriteResult → Prop
  | .accepted n => msg.length ≤ n
  | .failed _ => True

/-- The condition on a step: no write accepts a part of a packet. -/
def WholeWrites (_ : Client) : Action → Prop
  | .send _ ⟨.write msg, result⟩ => Whole msg result
  | _ => True

/-- What is expected of a run on one connection. -/
structure Framed (as : List Action) (s : Client) : Prop where
  /-- As long as no call reports an error, the socket has the packets, one behind the other. -/
  packets : (∀ t rc, Action.ret t rc ∈ as → rc = 0) → s.socket = (as.filterMap Action.packet).flatten
  /-- A call writes no packet but its own, and not twice. -/
  once : ∀ as₁ t msg wait subcommand as₂ as₃,
    as = as₁ ++ .call t msg wait subcommand :: as₂ ++ as₃ → (∀ rc, Action.ret t rc ∉ as₂) →
      (as₂.filterMap (Action.packetOf t)).Sublist [withLength msg]
  /-- A call that returns 0 has written it. -/
  success : ∀ as₁ t msg wait subcommand as₂ as₃,
    as = as₁ ++ .call t msg wait subcommand :: as₂ ++ .ret t 0 :: as₃ →
      (∀ rc, Action.ret t rc ∉ as₂) → as₂.filterMap (Action.packetOf t) = [withLength msg]
  /-- A call whose packet was cut does not return 0, and nothing is written behind it. -/
  cut : ∀ as₁ t msg (n : ℕ) as₂,
    as = as₁ ++ .send t ⟨.write msg, WriteResult.accepted n⟩ :: as₂ → n < msg.length →
      (∀ as₃ as₄, as₂ = as₃ ++ .ret t 0 :: as₄ → ∃ rc, Action.ret t rc ∈ as₃) ∧
        ∀ a ∈ as₂, a.packet = none

/-! ## A call writes its packet once -/

/-- The effects of a call that sends `msg`, by what it has written. -/
def MayWrite (msg : List UInt8) : Option (List UInt8) → SendEffect → Prop
  | written, .write m => written = none ∧ m = msg
  | _, _ => True

/-- What a call has written after an effect. -/
def nextWritten (written : Option (List UInt8)) : (e : SendEffect) × e.Answer → Option (List UInt8)
  | ⟨.write msg, result⟩ => acceptedPacket msg result
  | _ => written

/-- A call that returns 0 has written its packet. -/
def HasWritten (msg : List UInt8) (written : Option (List UInt8)) (rc : ℤ) : Prop :=
  rc = 0 → written = some msg

/-- A program goes on with a call that sends `msg`, and has written so much. -/
abbrev Writes (msg : List UInt8) : Option (List UInt8) → SendM ℤ → Prop :=
  Prog.Obeys (MayWrite msg) nextWritten (HasWritten msg)

section Writes

variable {msg : List UInt8} {written : Option (List UInt8)} {r : Handle}

/-- A removal ends a call that has written, or reports an error. -/
theorem writes_removeRequest {rc : ℤ} (h : rc ≠ 0 ∨ written = some msg) :
    Writes msg written (removeRequest r rc) :=
  ⟨trivial, fun _ hrc => h.resolve_left fun hne => hne hrc⟩

theorem writes_leave : Writes msg (some msg) (leave r) :=
  ⟨trivial, fun _ => writes_removeRequest (.inr rfl)⟩

theorem writes_waitForever : Writes msg (some msg) (waitForever r) := by
  refine ⟨trivial, fun done => ?_⟩
  cases done with
  | false => exact ⟨trivial, fun _ => writes_leave⟩
  | true => exact writes_leave

theorem writes_waitFor : Writes msg (some msg) (waitFor r) := by
  refine ⟨trivial, fun _ => ⟨trivial, fun (wait : ℤ) => ?_⟩⟩
  change Writes msg (some msg) (if wait = (0 : ℤ) then leave r else _)
  split
  · exact writes_leave
  · refine ⟨trivial, fun done => ?_⟩
    cases done with
    | true => exact writes_leave
    | false =>
      refine ⟨trivial, fun timedout => ?_⟩
      cases timedout with
      | true => exact writes_removeRequest (.inr rfl)
      | false => exact writes_leave

theorem writes_awaitReply : Writes msg (some msg) (awaitReply r) := by
  refine ⟨trivial, fun (wait : ℤ) => ?_⟩
  change Writes msg (some msg) (if wait < (0 : ℤ) then waitForever r else _)
  split
  · exact writes_waitForever
  · refine ⟨trivial, fun (wait : ℤ) => ?_⟩
    change Writes msg (some msg) (if (0 : ℤ) < wait then waitFor r else leave r)
    split
    · exact writes_waitFor
    · exact writes_leave

theorem writes_transmit : Writes msg none (transmit r msg) := by
  refine ⟨trivial, fun _ => ⟨⟨rfl, rfl⟩, fun result => ?_⟩⟩
  cases result with
  | accepted n => exact ⟨trivial, fun _ => writes_awaitReply⟩
  | failed e =>
    cases e with
    | EPIPE => exact ⟨trivial, fun _ h => absurd h (by decide)⟩
    | EBADF => exact ⟨trivial, fun _ h => absurd h (by decide)⟩
    | other => exact ⟨trivial, fun _ => writes_removeRequest (.inl (by decide))⟩

/-- **A call writes its packet at most once**, and has done so when it returns 0. -/
theorem dsiSend_writes (msg : List UInt8) (wait : ℤ) (subcommand : UInt8) :
    Writes (withLength msg) none (dsiSend msg wait subcommand) := by
  refine ⟨trivial, fun valid => ?_⟩
  cases valid with
  | false => exact fun h => absurd h (by decide)
  | true =>
    refine ⟨trivial, fun (fd : ℤ) => ?_⟩
    change Writes _ none (if fd = (0 : ℤ) then .done (-1) else _)
    split
    · exact fun h => absurd h (by decide)
    · refine ⟨trivial, fun allocated => ?_⟩
      cases allocated with
      | none => exact fun h => absurd h (by decide)
      | some r =>
        refine ⟨trivial, fun _ => ⟨trivial, fun _ => ⟨trivial, fun _ => ⟨trivial, fun _ =>
          ⟨trivial, fun disconnected => ?_⟩⟩⟩⟩⟩
        cases disconnected with
        | false => exact writes_transmit
        | true => exact ⟨trivial, fun _ => writes_transmit⟩

end Writes

/-- A call of thread `t` that was started with `msg`, after the actions `as`. -/
structure Writing (t : ℕ) (msg : List UInt8) (as : List Action) (s : Client) (c : Call) : Prop where
  call : s.calls t = some c
  writes : ∃ written, as.filterMap (Action.packetOf t) = written.toList ∧
    Writes (withLength msg) written c.prog ∧ ∀ m, written = some m → m = withLength msg

/-- A step of another thread writes nothing for this one. -/
theorem packetOf_other {t : ℕ} {a : Action} (ha : a.thread ≠ some t) : a.packetOf t = none :=
  if_neg ha

theorem writing_step {t : ℕ} {msg : List UInt8} {as : List Action} {s s' : Client} {c : Call}
    {a : Action} (h : Writing t msg as s c) (hs : s.WellFormed) (hstep : Step s a s')
    (hret : ∀ rc, a ≠ .ret t rc) : ∃ c', Writing t msg (as ++ [a]) s' c' := by
  obtain ⟨hcall, written, hpackets, hwrites, hown⟩ := h
  by_cases ha : a.thread = some t
  · cases hstep with
    | call hnone =>
      obtain rfl := Option.some.inj ha
      exact nomatch hcall.symm.trans hnone
    | @send t' c' e k answer hcall' hprog hanswer =>
      obtain rfl := Option.some.inj ha
      obtain rfl := Option.some.inj (hcall.symm.trans hcall')
      rw [hprog] at hwrites
      refine ⟨_, Function.update_self .., nextWritten written ⟨e, answer⟩, ?_, hwrites.answer answer,
        ?_⟩
      · rw [List.filterMap_append, hpackets]
        have hmay := hwrites.effect
        cases e with
        | write m =>
          obtain ⟨rfl, rfl⟩ := hmay
          cases answer with
          | accepted n => simp [Action.packetOf, Action.thread, Action.packet, acceptedPacket, nextWritten]
          | failed e => simp [Action.packetOf, Action.thread, Action.packet, acceptedPacket, nextWritten]
        | _ => simp [Action.packetOf, Action.packet, nextWritten]
      · intro m hm
        have hmay := hwrites.effect
        cases e with
        | write m' =>
          obtain ⟨-, rfl⟩ := hmay
          cases answer with
          | accepted n => exact (Option.some.inj hm).symm
          | failed e => exact nomatch hm
        | _ => exact hown m hm
    | @ret t' c' rc hcall' hprog =>
      obtain rfl := Option.some.inj ha
      exact absurd rfl (hret rc)
    | _ => exact nomatch ha
  · obtain ⟨hcalls, -, -⟩ := step_other hs hstep ha
    refine ⟨c, hcalls.trans hcall, written, ?_, hwrites, hown⟩
    rw [List.filterMap_append, hpackets]
    simp [packetOf_other ha]

theorem writing_run {t : ℕ} {msg : List UInt8} {as bs : List Action} {s s' : Client} {c : Call}
    (hrun : Run Step s bs s') (h : Writing t msg as s c) (hs : s.WellFormed)
    (hret : ∀ rc, Action.ret t rc ∉ bs) : ∃ c', Writing t msg (as ++ bs) s' c' := by
  induction hrun generalizing as c with
  | nil s => exact ⟨c, by rwa [List.append_nil]⟩
  | @cons s s₁ s' a bs hstep hrest ih =>
    obtain ⟨c₁, hc₁⟩ := writing_step h hs hstep fun rc heq => hret rc (heq ▸ List.mem_cons_self)
    obtain ⟨c', hc'⟩ := ih hc₁ (wellFormed_step hstep hs) fun rc hmem =>
      hret rc (List.mem_cons_of_mem _ hmem)
    exact ⟨c', by rwa [List.append_assoc] at hc'⟩

/-! ## The socket -/

/-- Only a write puts anything on the socket. -/
theorem socket_performSend (s : Client) (t : ℕ) (own : Option Ref) {e : SendEffect}
    (answer : e.Answer) (hwrite : ∀ msg, e ≠ .write msg) :
    (s.performSend t own ⟨e, answer⟩).socket = s.socket := by
  cases e with
  | malloc =>
    cases answer with
    | none => rfl
    | some h => rfl
  | enqueue h =>
    cases own with
    | none => rfl
    | some x => rfl
  | write msg => exact absurd rfl (hwrite msg)
  | remove h =>
    change (s.dsiRemoveFromRequestQueue (some t) own h).socket = _
    unfold Client.dsiRemoveFromRequestQueue
    split
    · split
      · rfl
      · rfl
    · rfl
  | _ => rfl

theorem socket_performRecv (s : Client) (e : RecvEffect) : (s.performRecv e).socket = s.socket := by
  cases e with
  | handle f packet =>
    cases f with
    | commandReply r => rfl
    | _ => rfl
  | remove h =>
    change (s.dsiRemoveFromRequestQueue none s.holding h).socket = _
    unfold Client.dsiRemoveFromRequestQueue
    split
    · split
      · rfl
      · rfl
    · rfl
  | _ => rfl

/-- A step puts its packet on the socket, or nothing. -/
theorem socket_step {s s' : Client} {a : Action} (hstep : Guarded WholeWrites Step s a s')
    (hone : ∀ disconnected, a ≠ .reconnected disconnected) :
    s'.socket = s.socket ++ a.packet.toList.flatten := by
  obtain ⟨hwhole, hstep⟩ := hstep
  cases hstep with
  | @send t c e k answer hcall hprog hanswer =>
    change (s.performSend t c.request ⟨e, answer⟩).socket = _
    by_cases hwrite : ∃ msg, e = .write msg
    · obtain ⟨msg, rfl⟩ := hwrite
      cases answer with
      | accepted n =>
        have hlength : msg.length ≤ n := hwhole
        change s.socket ++ msg.take n = s.socket ++ [msg].flatten
        rw [List.take_of_length_le hlength, List.flatten_singleton]
      | failed e =>
        change s.socket = s.socket ++ [].flatten
        rw [List.flatten_nil, List.append_nil]
    · rw [socket_performSend s t c.request answer fun msg h => hwrite ⟨msg, h⟩]
      have hnone : (Action.send t ⟨e, answer⟩).packet = none := by
        cases e with
        | write msg => exact absurd ⟨msg, rfl⟩ hwrite
        | _ => rfl
      rw [hnone]
      exact (List.append_nil _).symm
  | @receive e k answer hreceiving hanswer =>
    refine (socket_performRecv s e).trans ?_
    exact (List.append_nil _).symm
  | reconnected => exact absurd rfl (hone _)
  | _ => exact (List.append_nil _).symm

theorem socket_run {s s' : Client} {as : List Action} (hrun : Run (Guarded WholeWrites Step) s as s')
    (hone : ∀ disconnected, Action.reconnected disconnected ∉ as) :
    s'.socket = s.socket ++ (as.filterMap Action.packet).flatten := by
  induction hrun with
  | nil s => rw [List.filterMap_nil, List.flatten_nil, List.append_nil]
  | @cons s s₁ s' a as hstep hrest ih =>
    rw [ih fun d hmem => hone d (List.mem_cons_of_mem _ hmem),
      socket_step hstep fun d heq => hone d (heq ▸ List.mem_cons_self), List.append_assoc]
    congr 1
    cases hpacket : a.packet with
    | none => rw [List.filterMap_cons_none hpacket]; rfl
    | some msg =>
      rw [List.filterMap_cons_some hpacket, List.flatten_cons]
      simp only [Option.toList_some, List.flatten_singleton]

/-- **The packets are on the socket, one behind the other**, in every run on one connection in which
no write accepts a part of a packet. -/
theorem framed_run {as : List Action} {s : Client}
    (hrun : Run (Guarded WholeWrites Step) .init as s)
    (hone : ∀ disconnected, Action.reconnected disconnected ∉ as) : Framed as s where
  packets _ := by
    rw [socket_run hrun hone]
    rfl
  once as₁ t msg wait subcommand as₂ as₃ has hret := by
    rw [has, List.append_assoc] at hrun
    obtain ⟨s₁, hbefore, hrest⟩ := hrun.ofGuarded.split
    obtain ⟨s₂, hcalled, -⟩ := Run.split
      (show Run Step s₁ ((.call t msg wait subcommand :: as₂) ++ as₃) s from hrest)
    have hs₁ := wellFormed_run hbefore wellFormed_init
    cases hcalled with
    | cons hcall hafter =>
      have hs₂ := wellFormed_step hcall hs₁
      cases hcall with
      | call hnone =>
        have hstart : Writing t msg []
            { s₁ with calls := Function.update s₁.calls t (some (.start msg wait subcommand)) }
            (.start msg wait subcommand) :=
          ⟨Function.update_self .., none, rfl, dsiSend_writes msg wait subcommand, nofun⟩
        obtain ⟨c, -, written, hpackets, -, hown⟩ := writing_run hafter hstart hs₂ hret
        rw [List.nil_append] at hpackets
        rw [hpackets]
        cases written with
        | none => exact List.nil_sublist _
        | some m =>
          rw [hown m rfl]
          exact List.Sublist.refl _
  success as₁ t msg wait subcommand as₂ as₃ has hret := by
    rw [has, List.append_assoc] at hrun
    obtain ⟨s₁, hbefore, hrest⟩ := hrun.ofGuarded.split
    obtain ⟨s₂, hcalled, hreturn⟩ := Run.split
      (show Run Step s₁ ((.call t msg wait subcommand :: as₂) ++ .ret t 0 :: as₃) s from hrest)
    have hs₁ := wellFormed_run hbefore wellFormed_init
    cases hcalled with
    | cons hcall hafter =>
      have hs₂ := wellFormed_step hcall hs₁
      cases hcall with
      | call hnone =>
        have hstart : Writing t msg []
            { s₁ with calls := Function.update s₁.calls t (some (.start msg wait subcommand)) }
            (.start msg wait subcommand) :=
          ⟨Function.update_self .., none, rfl, dsiSend_writes msg wait subcommand, nofun⟩
        obtain ⟨c, hc, written, hpackets, hwrites, -⟩ := writing_run hafter hstart hs₂ hret
        rw [List.nil_append] at hpackets
        cases hreturn with
        | cons hstep _ =>
          cases hstep with
          | ret hcall hprog =>
            obtain rfl := Option.some.inj (hc.symm.trans hcall)
            rw [hprog] at hwrites
            rw [hpackets, hwrites rfl]
            rfl
  cut as₁ t msg n as₂ has hlt := by
    rw [has] at hrun
    obtain ⟨s₁, -, hrest⟩ := hrun.split
    cases hrest with
    | cons hstep _ =>
      have hwhole : msg.length ≤ n := hstep.1
      exact absurd hlt (Nat.not_lt.mpr hwhole)

/-- A call writes its 16 bytes and returns. -/
theorem framed_run_of_call : ∃ as s, s.socket.length = 16 ∧ Framed as s := by
  have hrun : ∃ as s, Run (Guarded WholeWrites Step) .init as s ∧
      (∀ disconnected, Action.reconnected disconnected ∉ as) ∧ s.socket.length = 16 := by
    refine ⟨[.call 1 (.replicate 16 0) 0 0, .send 1 ⟨.stillValid, true⟩, .send 1 ⟨.fd, (3 : ℤ)⟩,
      .send 1 ⟨.malloc, some 8⟩, .send 1 ⟨.lastrequestid, (0 : UInt16)⟩,
      .send 1 ⟨.fill 8 0 0 0, ()⟩, .send 1 ⟨.enqueue 8, ()⟩, .send 1 ⟨.initWaiting 8, ()⟩,
      .send 1 ⟨.disconnected, false⟩, .send 1 ⟨.lockSend, ()⟩,
      .send 1 ⟨.write (withLength (.replicate 16 0)), WriteResult.accepted 16⟩,
      .send 1 ⟨.unlockSend, ()⟩], _, .consGuarded (.call rfl) trivial <|
      .consGuarded (.send rfl rfl rfl) trivial <| .consGuarded (.send rfl rfl trivial) trivial <|
      .consGuarded (.send rfl rfl fun _ _ => rfl) trivial <|
      .consGuarded (.send rfl rfl rfl) trivial <| .consGuarded (.send rfl rfl trivial) trivial <|
      .consGuarded (.send rfl rfl trivial) trivial <|
      .consGuarded (.send rfl rfl trivial) trivial <| .consGuarded (.send rfl rfl rfl) trivial <|
      .consGuarded (.send rfl rfl rfl) trivial <| .consGuarded (.send rfl rfl ?_) ?_ <|
      .consGuarded (.send rfl rfl trivial) trivial <| .nil _, by simp, by decide⟩
    · rintro n ⟨⟩
      exact ⟨by decide, fun _ => by decide⟩
    · exact Nat.le_refl 16
  obtain ⟨as, s, hrun, hone, hlength⟩ := hrun
  exact ⟨as, s, hlength, framed_run hrun hone⟩

/-! ## A short write -/

/-- Of 16 bytes one is accepted, and the call returns 0. -/
theorem shortWrite : ∃ as₁ as₂ msg s,
    Run Step .init (as₁ ++ .send 1 ⟨.write msg, WriteResult.accepted 1⟩ :: as₂ ++ [.ret 1 0]) s ∧
      msg.length = 16 ∧ (∀ rc, Action.ret 1 rc ∉ as₂) ∧
      ∀ disconnected, Action.reconnected disconnected ∉ as₁ ++ as₂ := by
  refine ⟨[.call 1 (.replicate 16 0) 0 0, .send 1 ⟨.stillValid, true⟩, .send 1 ⟨.fd, (3 : ℤ)⟩,
    .send 1 ⟨.malloc, some 8⟩, .send 1 ⟨.lastrequestid, (0 : UInt16)⟩,
    .send 1 ⟨.fill 8 0 0 0, ()⟩, .send 1 ⟨.enqueue 8, ()⟩, .send 1 ⟨.initWaiting 8, ()⟩,
    .send 1 ⟨.disconnected, false⟩, .send 1 ⟨.lockSend, ()⟩],
    [.send 1 ⟨.unlockSend, ()⟩, .send 1 ⟨.readWait 8, (0 : ℤ)⟩, .send 1 ⟨.readWait 8, (0 : ℤ)⟩,
    .send 1 ⟨.returnCode 8, (0 : UInt32)⟩, .send 1 ⟨.remove 8, ()⟩],
    withLength (.replicate 16 0), _, .cons (.call rfl) <| .cons (.send rfl rfl rfl) <|
    .cons (.send rfl rfl trivial) <| .cons (.send rfl rfl fun _ _ => rfl) <|
    .cons (.send rfl rfl rfl) <| .cons (.send rfl rfl trivial) <| .cons (.send rfl rfl trivial) <|
    .cons (.send rfl rfl trivial) <| .cons (.send rfl rfl rfl) <| .cons (.send rfl rfl rfl) <|
    .cons (.send rfl rfl ?_) <| .cons (.send rfl rfl trivial) <| .cons (.send rfl rfl ?_) <|
    .cons (.send rfl rfl ?_) <| .cons (.send rfl rfl ?_) <| .cons (.send rfl rfl trivial) <|
    .cons (.ret rfl rfl) <| .nil _, by decide, by simp, by simp⟩
  · rintro n ⟨⟩
    exact ⟨by decide, fun _ => Nat.le_refl 1⟩
  all_goals
    rintro n ⟨⟩
    rfl

/-- **A call whose packet was cut can report a success.** -/
theorem short_write_reports_success :
    ¬ ∀ (as : List Action) (s : Client), Run Step .init as s →
      (∀ disconnected, Action.reconnected disconnected ∉ as) → Framed as s := by
  intro hclaim
  obtain ⟨as₁, as₂, msg, s, hrun, hlength, hret, hone⟩ := shortWrite
  have hone' : ∀ disconnected, Action.reconnected disconnected ∉
      as₁ ++ .send 1 ⟨.write msg, WriteResult.accepted 1⟩ :: as₂ ++ [.ret 1 0] := by
    intro d hmem
    refine hone d ?_
    simpa using hmem
  obtain ⟨hcut, -⟩ := (hclaim _ s hrun hone').cut as₁ 1 msg 1 (as₂ ++ [.ret 1 0])
    (List.append_assoc ..) (by omega)
  obtain ⟨rc, hrc⟩ := hcut as₂ [] rfl
  exact hret rc hrc

end Sending
end Dsi
end Afpfs

import Afpfs.ReplyCopies

/-!
# The token of a session

`afp_getsessiontoken_reply()` keeps the token that a server gives out, and
`afp_disconnectoldsession()` sends it back after a reconnection.

The handler takes `header.length` for the size of the packet: it subtracts the size of the header
from it, although the length does not count the header.  A token of at most 12 bytes is thrown away,
and a longer one is refused.  The sender adds `sizeof(*request)` to a pointer to the request, which
is so many requests, and copies the token far behind the end of its allocation.

* `reply_wellFormed`: what becomes of every token.
* `sent_elsewhere`, `message_token`: where a token is written when it is sent, and what is sent.
* `session_token_iff`: no token comes back, and which overstated replies are refused.
-/

set_option autoImplicit false

namespace Afpfs
namespace SessionToken

open Memory Wire ReplyCopies

/-! ## Sending -/

/-- The memory that `malloc()` returned, and what was written there, by place and number. -/
structure Request where
  memory : ℕ → UInt8
  written : List (ℕ × ℕ)

/-- Write some bytes. -/
def Request.store (r : Request) (i : ℕ) (bytes : List UInt8) : Request :=
  { memory := Memory.store r.memory i bytes, written := r.written ++ [(i, bytes.length)] }

/-- `sizeof(*request)`. -/
def requestSize : ℕ := 24

/-- `malloc(sizeof(*request) + AFP_TOKEN_MAX_LEN)`. -/
def allocated : ℕ := requestSize + afpTokenMaxLen.toNat

/-- `afpDisconnectOldSession`. -/
def afpDisconnectOldSession : UInt8 := 65

/-- `afp_disconnectoldsession()`: what it does with its memory, and the message that it hands to
`dsi_send()`.  `request + sizeof(*request)` is a sum of a pointer to a request and a number.
`dsiHeader` is what `dsi_setup_header()` writes. -/
def afpDisconnectoldsession (dsiHeader : List UInt8) (type : UInt16) (token : AfpToken)
    (malloc : ℕ → UInt8) : Request × Option (List UInt8) :=
  let request : Request := ⟨malloc, []⟩
  let tokenData := requestSize * requestSize
  let request := request.store 18 (toBE 2 type.toNat)
  if afpTokenMaxLen < token.length then (request, none)
  else
    let request := request.store 0 dsiHeader
    let request := request.store 16 [afpDisconnectOldSession]
    let request := request.store 20 (toBE 4 token.length.toNat)
    let request := request.store tokenData (load token.data 0 token.length.toNat)
    (request, some (load request.memory 0 (requestSize + token.length.toNat)))

/-! ## The round trip -/

/-- The bytes of a token. -/
def bytesOf (token : AfpToken) : List UInt8 := load token.data 0 token.length.toNat

/-- A reply with a token: the length in the header, that of the token, and its bytes. -/
structure WellFormed (buf : ℕ → UInt8) (bytes : List UInt8) : Prop where
  length : (headerLength buf).toNat = 4 + bytes.length
  tokenLen : (ntohlAt buf 16).toNat = bytes.length
  data : load buf 20 bytes.length = bytes

/-- A reply that states more bytes than there are behind the stated length. -/
structure Overstated (buf : ℕ → UInt8) : Prop where
  present : 4 ≤ (headerLength buf).toNat
  stated : (headerLength buf).toNat - 4 < (ntohlAt buf 16).toNat

/-- These bytes are stored, with their number, from every reply that carries them. -/
def Stores (bytes : List UInt8) : Prop :=
  ∀ buf token, WellFormed buf bytes → ∃ token',
    (afpGetsessiontokenReply buf (some token)).other = some token' ∧
      token'.length.toNat = bytes.length ∧ bytesOf token' = bytes

/-- The reply is rejected, and the token stays as it is. -/
def Rejects (buf : ℕ → UInt8) : Prop :=
  ∀ token, (afpGetsessiontokenReply buf (some token)).ret = -1 ∧
    (afpGetsessiontokenReply buf (some token)).other = some token

/-- The message carries the token, and nothing is written behind the allocation. -/
def Sends (dsiHeader : List UInt8) (type : UInt16) (token : AfpToken) (malloc : ℕ → UInt8) : Prop :=
  ∃ message, (afpDisconnectoldsession dsiHeader type token malloc).2 = some message ∧
    message.drop requestSize = bytesOf token ∧
    ∀ w ∈ (afpDisconnectoldsession dsiHeader type token malloc).1.written,
      ∀ j < w.2, w.1 + j < allocated

/-! ## What becomes of a reply -/

section Reply

variable {buf : ℕ → UInt8} {bytes : List UInt8} {token : AfpToken}

theorem toUInt64_headerLength_le_iff :
    (headerLength buf).toUInt64 ≤ 16 ↔ (headerLength buf).toNat ≤ headerSize := by
  rw [UInt64.le_iff_toNat_le, UInt32.toNat_toUInt64]
  rfl

/-- A reply that does not seem to be more than a header takes the token away. -/
theorem reply_of_le (h : (headerLength buf).toNat ≤ headerSize) :
    (afpGetsessiontokenReply buf (some token)).ret = 0 ∧
      (afpGetsessiontokenReply buf (some token)).other = some { token with length := 0 } := by
  rw [afpGetsessiontokenReply, if_pos (toUInt64_headerLength_le_iff.mpr h)]
  exact ⟨rfl, rfl⟩

/-- A reply that seems to end before the token does is refused. -/
theorem reply_of_lt (h : headerSize < (headerLength buf).toNat)
    (hlen : (headerLength buf).toNat - headerSize < (ntohlAt buf 16).toNat) :
    (afpGetsessiontokenReply buf (some token)).ret = -1 ∧
      (afpGetsessiontokenReply buf (some token)).other = some token := by
  have hdiff : ((headerLength buf).toUInt64 - 16).toNat =
      (headerLength buf).toNat - headerSize := toNat_sub_of_le h.le
  rw [afpGetsessiontokenReply,
    if_neg (mt toUInt64_headerLength_le_iff.mp (Nat.not_le.mpr h)), if_pos]
  · exact ⟨rfl, rfl⟩
  · right
    rw [UInt64.lt_iff_toNat_lt, hdiff, UInt32.toNat_toUInt64]
    exact hlen

/-- **A well-formed reply.**  A short token is thrown away, and a long one is refused. -/
theorem reply_wellFormed (h : WellFormed buf bytes) :
    (bytes.length ≤ 12 ∧ (afpGetsessiontokenReply buf (some token)).ret = 0 ∧
        (afpGetsessiontokenReply buf (some token)).other = some { token with length := 0 }) ∨
      (12 < bytes.length ∧ (afpGetsessiontokenReply buf (some token)).ret = -1 ∧
        (afpGetsessiontokenReply buf (some token)).other = some token) := by
  have hlength := h.length
  have hlen := h.tokenLen
  have hheader : headerSize = 16 := rfl
  by_cases hshort : bytes.length ≤ 12
  · exact Or.inl ⟨hshort, reply_of_le (by omega)⟩
  · exact Or.inr ⟨Nat.lt_of_not_le hshort, reply_of_lt (by omega) (by omega)⟩

/-- The reply with a token. -/
def replyWith (bytes : List UInt8) : ℕ → UInt8 :=
  store (fun _ => 0) 8 (toBE 4 (4 + bytes.length) ++ (List.replicate 4 0 ++
    (toBE 4 bytes.length ++ bytes)))

theorem ntohlAt_of_load {i n : ℕ} (h : load buf i 4 = toBE 4 n) (hn : n < 2 ^ 32) :
    (ntohlAt buf i).toNat = n := by
  rw [ntohlAt, h, ofBE_toBE_of_lt (by exact hn), UInt32.toNat_ofNat_of_lt' hn]

theorem wellFormed_replyWith (h : bytes.length ≤ afpTokenMaxLen.toNat) :
    WellFormed (replyWith bytes) bytes := by
  have hmax : bytes.length ≤ 256 := h
  constructor
  · refine ntohlAt_of_load ?_ (by omega)
    exact load_store_middle (fun _ => 0) 8 [] (toBE 4 (4 + bytes.length)) _
  · refine ntohlAt_of_load ?_ (by omega)
    have hfront := load_store_middle (fun _ => 0) 8
      (toBE 4 (4 + bytes.length) ++ List.replicate 4 0) (toBE 4 bytes.length) bytes
    rw [List.append_assoc, List.length_append, length_toBE, length_toBE, List.length_replicate]
      at hfront
    exact hfront
  · have hfront := load_store_middle (fun _ => 0) 8
      (toBE 4 (4 + bytes.length) ++ (List.replicate 4 0 ++ toBE 4 bytes.length)) bytes []
    rw [List.append_nil, List.append_assoc, List.append_assoc, List.length_append,
      List.length_append, length_toBE, length_toBE, List.length_replicate] at hfront
    exact hfront

theorem not_stores (hpos : 1 ≤ bytes.length) (hmax : bytes.length ≤ afpTokenMaxLen.toNat) :
    ¬ Stores bytes := by
  intro h
  -- whatever becomes of the reply, a token without bytes has none afterwards
  obtain ⟨token', hother, hlength, -⟩ :=
    h (replyWith bytes) ⟨0, fun _ => 0⟩ (wellFormed_replyWith hmax)
  have hzero : token'.length = 0 := by
    rcases @reply_wellFormed _ bytes ⟨0, fun _ => 0⟩ (wellFormed_replyWith hmax) with
      ⟨-, -, hlost⟩ | ⟨-, -, hlost⟩
    · rw [← Option.some.inj (hlost.symm.trans hother)]
    · rw [← Option.some.inj (hlost.symm.trans hother)]
  rw [hzero] at hlength
  exact absurd hlength.symm (Nat.pos_iff_ne_zero.mp hpos)

/-- **Overstated replies** are refused when there are more than 16 bytes behind the header. -/
theorem rejects_iff (h : Overstated buf) :
    Rejects buf ↔ headerSize < (headerLength buf).toNat := by
  constructor
  · intro hrejects
    by_contra hshort
    have hret := (hrejects ⟨0, fun _ => 0⟩).1
    rw [(reply_of_le (Nat.le_of_not_lt hshort)).1] at hret
    exact absurd hret (by decide)
  · intro hlong token
    have hstated := h.stated
    have hheader : headerSize = 16 := rfl
    exact reply_of_lt hlong (by omega)

end Reply

/-! ## What is sent -/

section Sending

variable {dsiHeader : List UInt8} {type : UInt16} {token : AfpToken} {malloc : ℕ → UInt8}

/-- **The token** is written 576 bytes behind the start of the request. -/
theorem sent_elsewhere (h : token.length ≤ afpTokenMaxLen) :
    (requestSize * requestSize, token.length.toNat) ∈
      (afpDisconnectoldsession dsiHeader type token malloc).1.written := by
  rw [afpDisconnectoldsession, if_neg (UInt32.not_lt.mpr h)]
  simp [Request.store]

/-- **The token field** of the message is what `malloc()` returned. -/
theorem message_token (hheader : dsiHeader.length ≤ requestSize)
    (h : token.length ≤ afpTokenMaxLen) :
    (afpDisconnectoldsession dsiHeader type token malloc).2.map (List.drop requestSize) =
      some (load malloc requestSize token.length.toNat) := by
  have hmax : token.length.toNat ≤ 256 := UInt32.le_iff_toNat_le.mp h
  have hfits : requestSize + (requestSize + token.length.toNat - requestSize) ≤
      requestSize * requestSize := by
    simp only [requestSize]
    omega
  rw [afpDisconnectoldsession, if_neg (UInt32.not_lt.mpr h)]
  simp only [Request.store, Option.map_some]
  rw [drop_load, Nat.zero_add, load_store_of_le _ _ hfits, Nat.add_sub_cancel_left]
  refine congrArg some (load_congr fun j hj _ => ?_)
  simp only [requestSize] at hheader hj
  rw [store_of_le _ (by rw [length_toBE]; omega), store_of_le _ (by rw [List.length_singleton]; omega),
    store_of_le _ (by omega), store_of_le _ (by rw [length_toBE]; omega)]

theorem not_sends (hpos : token.length ≠ 0) : ¬ Sends dsiHeader type token malloc := by
  rintro ⟨message, hmessage, -, hwritten⟩
  by_cases hmax : token.length ≤ afpTokenMaxLen
  · have hinside := hwritten _ (sent_elsewhere hmax) 0 (ne_zero_iff.mp hpos)
    have hroom : requestSize * requestSize < allocated := hinside
    exact absurd hroom (by decide)
  · rw [afpDisconnectoldsession, if_pos (UInt32.not_le.mp hmax)] at hmessage
    exact Option.some_ne_none message hmessage.symm

end Sending

/-- **No token comes back**, neither from a reply nor to the server, and which overstated replies are
refused. -/
theorem session_token_iff {bytes : List UInt8} (hpos : 1 ≤ bytes.length)
    (hmax : bytes.length ≤ afpTokenMaxLen.toNat) {buf : ℕ → UInt8} (hover : Overstated buf)
    {token : AfpToken} (htoken : bytesOf token = bytes) (dsiHeader : List UInt8) (type : UInt16)
    (malloc : ℕ → UInt8) :
    ¬ Stores bytes ∧ (Rejects buf ↔ headerSize < (headerLength buf).toNat) ∧
      ¬ Sends dsiHeader type token malloc := by
  have hlength : token.length ≠ 0 := by
    intro hzero
    rw [← htoken, bytesOf, length_load, hzero] at hpos
    exact absurd hpos (by decide)
  exact ⟨not_stores hpos hmax, rejects_iff hover, not_sends hlength⟩

/-- A reply with 20 bytes behind its header that states 100. -/
def overstatement : ℕ → UInt8 := fun i => if i = 11 then 20 else if i = 19 then 100 else 0

/-- A token of one byte, and a reply that is refused. -/
theorem session_token_iff_of_byte :
    ¬ Stores [7] ∧
      (Rejects overstatement ↔ headerSize < (headerLength overstatement).toNat) ∧
      ¬ Sends [] 0 ⟨1, fun _ => 7⟩ fun _ => 0 :=
  @session_token_iff [7] (by decide) (by decide) overstatement ⟨by decide, by decide⟩
    ⟨1, fun _ => 7⟩ rfl [] 0 fun _ => 0

/-- **The token of a session is lost**, and what is sent for it is written elsewhere. -/
theorem token_is_lost :
    ¬ ((∀ bytes : List UInt8, 1 ≤ bytes.length → bytes.length ≤ afpTokenMaxLen.toNat →
          Stores bytes) ∧
        (∀ buf, Overstated buf → Rejects buf) ∧
        ∀ dsiHeader type token malloc, token.length ≠ 0 → token.length ≤ afpTokenMaxLen →
          Sends dsiHeader type token malloc) := by
  rintro ⟨hstores, -, -⟩
  exact not_stores (by decide) (by decide) (hstores [7] (by decide) (by decide))

end SessionToken
end Afpfs

import Mathlib.Data.Nat.Notation
import Afpfs.Lib.Memory
import Afpfs.Lib.Wire

/-!
# The interface of the daemon

What the models of `afpfsd` and of its clients share: constants of `afpfsd.h`, the results of
`read()`, and the headers of requests and responses.  The sizes and the byte order are those of a
64-bit little-endian host.

* `headerLen_of_load`: the length in a header does not depend on what is behind it.
-/

set_option autoImplicit false

namespace Afpfs
namespace Daemon

/-- `MAX_CLIENT_RESPONSE`. -/
def maxClientResponse : ℕ := 8192

/-- `sizeof(struct afp_server_response_header)`. -/
def responseHeaderSize : ℕ := 8

/-! ## Results -/

namespace ServerResult

/-- `AFP_SERVER_RESULT_OKAY`. -/
def okay : UInt8 := 0

/-- `AFP_SERVER_RESULT_ERROR`. -/
def error : UInt8 := 1

/-- `AFP_SERVER_RESULT_ENOENT`. -/
def enoent : UInt8 := 4

/-- `AFP_SERVER_RESULT_NOTCONNECTED`. -/
def notConnected : UInt8 := 5

/-- `AFP_SERVER_RESULT_NOTATTACHED`. -/
def notAttached : UInt8 := 6

/-- `AFP_SERVER_RESULT_ALREADY_CONNECTED`. -/
def alreadyConnected : UInt8 := 7

/-- `AFP_SERVER_RESULT_ALREADY_ATTACHED`. -/
def alreadyAttached : UInt8 := 8

/-- `AFP_SERVER_RESULT_NOVOLUME`. -/
def noVolume : UInt8 := 14

end ServerResult

/-- A 32-bit field is negative when it is read as an `int`. -/
def Negative (field : ℕ) : Prop := 2 ^ 31 ≤ field

instance (field : ℕ) : Decidable (Negative field) := inferInstanceAs (Decidable (_ ≤ _))

/-! ## Headers -/

open Memory

/-- What a `read()` returns: some bytes, 0 or -1. -/
inductive ReadResult where
  | bytes (segment : List UInt8)
  | closed
  | failed
  deriving DecidableEq

/-- An `unsigned int` in memory. -/
def unsignedInt (m : ℕ → UInt8) (i : ℕ) : ℕ := Wire.ofBE (load m i 4).reverse

/-- The `len` of the header at the start of a buffer. -/
def headerLen (m : ℕ → UInt8) : ℕ := unsignedInt m 4

/-- Some bytes at the start of a buffer that is zero elsewhere. -/
def zeroPadded (bytes : List UInt8) : ℕ → UInt8 := store (fun _ => 0) 0 bytes

theorem headerLen_congr {m m' : ℕ → UInt8} (h : ∀ j < 8, m j = m' j) :
    headerLen m = headerLen m' := by
  rw [headerLen, headerLen, unsignedInt, unsignedInt, load_congr fun j _ hj => h j (by omega)]

/-- A buffer that has some bytes at its start. -/
theorem eq_zeroPadded_of_load {m : ℕ → UInt8} {bytes : List UInt8} {n j : ℕ}
    (h : load m 0 n = bytes.take n) (hj : j < n) : m j = zeroPadded bytes j := by
  have hm : (load m 0 n)[j]? = some (m (0 + j)) := getElem?_load m hj
  rw [h, Nat.zero_add, List.getElem?_take_of_lt hj] at hm
  rw [zeroPadded, store, if_pos (Nat.zero_le j), Nat.sub_zero, hm, Option.getD_some]

/-- The header of a buffer that has the header of some bytes at its start. -/
theorem headerLen_of_load {m : ℕ → UInt8} {bytes : List UInt8} {n : ℕ} (hn : 8 ≤ n)
    (h : load m 0 n = bytes.take n) : headerLen m = headerLen (zeroPadded bytes) :=
  headerLen_congr fun _ hj => eq_zeroPadded_of_load h (Nat.lt_of_lt_of_le hj hn)

end Daemon
end Afpfs

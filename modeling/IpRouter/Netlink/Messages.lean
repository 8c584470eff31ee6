import IpRouter.Theory.Wire

/-!
# Netlink messages

The message headers of `linux/netlink.h` as the route manager reads them, each
field at its offset, and the macros it walks over messages with.
-/

namespace IpRouter.Netlink

open Theory

/-! ### `struct nlmsghdr` -/

/-- `sizeof(struct nlmsghdr)`. -/
def nlmsghdrSize : ℕ := 16

/-- `header->nlmsg_len`. -/
def nlmsgLen (b : Buffer) (header : ℕ) : ℕ := b.field header 4

/-- `header->nlmsg_type`. -/
def nlmsgType (b : Buffer) (header : ℕ) : ℕ := b.field (header + 4) 2

/-- `header->nlmsg_seq`. -/
def nlmsgSeq (b : Buffer) (header : ℕ) : ℕ := b.field (header + 8) 4

/-- `NLMSG_DATA(header)`. -/
def nlmsgData (header : ℕ) : ℕ := header + nlmsghdrSize

/-- `NLMSG_ERROR`. -/
def nlmsgError : ℕ := 2

/-- `NLMSG_DONE`. -/
def nlmsgDone : ℕ := 3

/-- The value of a 32-bit signed integer. -/
def toSigned (n : ℕ) : ℤ := if n < 2 ^ 31 then n else n - 2 ^ 32

/-- `error` of the `struct nlmsgerr` at `result`. -/
def nlmsgerrError (b : Buffer) (result : ℕ) : ℤ := toSigned (b.field result 4)

/-- `NLMSG_ALIGN(len)`, on `unsigned int`: the next multiple of four. -/
def nlmsgAlign (len : ℕ) : ℕ := (len + 3) % 2 ^ 32 / 4 * 4

/-- Below the last multiple of four nothing wraps. -/
theorem nlmsgAlign_eq {len : ℕ} (h : len + 3 < 2 ^ 32) : nlmsgAlign len = (len + 3) / 4 * 4 := by
  rw [nlmsgAlign, Nat.mod_eq_of_lt h]

end IpRouter.Netlink

import IpRouter.RouteManager.Basic
import IpRouter.Theory.Framing
import Mathlib.Logic.Relation

/-!
# Listing the system routes, on macOS and FreeBSD

`list_system_routes` asks `sysctl` for a dump of the route table: messages one
after the other, each with a header, a mask of addresses, and the addresses of the
mask in the order of its bits, each rounded up as the platform has it.

The parser says what it reads (`Reading`). It fails exactly at a message whose
length is impossible (`Bad`), and on a dump that is what it should be it finds what
the messages mean (`Message.entry`) and reads nothing outside of the message it is
at (`dump_parsed`).
-/

namespace IpRouter.RouteSocket

open Theory RouteManager

/-! ### Constants -/

/-- What the platforms differ in. -/
structure Abi where
  /-- `sizeof(struct rt_msghdr)`. -/
  headerSize : ℕ
  /-- `alignment` in `route_address_size`. -/
  alignment : ℕ
  /-- The fields that are read lie in the header. -/
  header : 16 ≤ headerSize
  /-- The size of a `uint32_t` or of a `long`. -/
  aligned : alignment = 4 ∨ alignment = 8

/-- macOS. -/
def macOs : Abi := ⟨92, 4, by decide, by decide⟩

/-- FreeBSD on a 64-bit machine. -/
def freeBsd : Abi := ⟨152, 8, by decide, by decide⟩

/-- `RTF_UP | RTF_GATEWAY | RTF_STATIC`. -/
def requiredFlags : ℕ := 0x1 ||| 0x2 ||| 0x800

/-- `RTF_HOST`. -/
def rtfHost : ℕ := 0x4

/-- `RTA_DST`, as a bit number. -/
def rtaDst : ℕ := 0

/-- `RTA_GATEWAY`, as a bit number. -/
def rtaGateway : ℕ := 1

/-- `RTA_NETMASK`, as a bit number. -/
def rtaNetmask : ℕ := 2

/-! ### Addresses -/

/-- `route_address_size`, of an address with that `sa_len`. -/
def routeAddressSize (abi : Abi) (saLen : ℕ) : ℕ :=
  if saLen = 0 then abi.alignment else roundUp abi.alignment saLen

/-- `is_ipv4_host_mask`. -/
def isIpv4HostMask (b : Buffer) (address : Option ℕ) : Reading Bool :=
  match address with
  | none => return false
  | some address => do
    let saLen ← b.readNumber address 1
    if saLen < 8 then return false
    else do
      let mask ← b.readNumber (address + 4) 4
      return mask = 0xffffffff

/-- The addresses of a message, as far as the loop over the bits got. -/
structure Addresses where
  /-- `address_cursor`. -/
  cursor : ℕ
  /-- `destination`. -/
  destination : Option ℕ
  /-- `gateway`. -/
  gateway : Option ℕ
  /-- `netmask`. -/
  netmask : Option ℕ

/-- What the loop does with the address at the cursor, before it moves on. -/
def Addresses.take (s : Addresses) (bit family : ℕ) : Addresses :=
  if family = afInet ∧ bit = rtaDst then { s with destination := some s.cursor }
  else if family = afInet ∧ bit = rtaGateway then { s with gateway := some s.cursor }
  else if bit = rtaNetmask then { s with netmask := some s.cursor }
  else s

/-- The loop over the bits of `rtm_addrs`. -/
def addressLoop (abi : Abi) (b : Buffer) (header messageEnd : ℕ) : List ℕ → Addresses →
    Reading Addresses
  | [], s => return s
  | bit :: bits, s =>
    if s.cursor < messageEnd then do
      let addrs ← b.readNumber (header + 12) 4
      if addrs.testBit bit = false then addressLoop abi b header messageEnd bits s
      else do
        let saLen ← b.readNumber s.cursor 1
        let length := routeAddressSize abi saLen
        if messageEnd < s.cursor + length then return s
        else do
          let family ← b.readNumber (s.cursor + 1) 1
          addressLoop abi b header messageEnd bits
            { s.take bit family with cursor := s.cursor + length }
    else return s

/-! ### Messages -/

section Listing

variable [AddressNames]

/-- The entry that is pushed for two addresses. -/
def readEntry (b : Buffer) (header destination gateway : ℕ) :
    Reading (Option SystemRouteEntry) := do
  let destinationAddress ← b.readBytes (destination + 4) 4
  match AddressNames.inetNtop destinationAddress with
  | none => return none
  | some destinationText => do
    let gatewayAddress ← b.readBytes (gateway + 4) 4
    match AddressNames.inetNtop gatewayAddress with
    | none => return none
    | some gatewayText => do
      let index ← b.readNumber (header + 4) 2
      return some ⟨destinationText, gatewayText, if 0 < index then
        AddressNames.ifIndextoname index else []⟩

/-- The test for a route to one host. -/
def isHostRoute (b : Buffer) (flags : ℕ) (netmask : Option ℕ) : Reading Bool :=
  if flags &&& rtfHost ≠ 0 then return true else isIpv4HostMask b netmask

/-- The entry that is pushed for the addresses that were found, if any. -/
def readFound (b : Buffer) (header flags : ℕ) (found : Addresses) :
    Reading (Option SystemRouteEntry) :=
  match found.destination, found.gateway with
  | some destination, some gateway => do
    let host ← isHostRoute b flags found.netmask
    if host then readEntry b header destination gateway else return none
  | _, _ => return none

/-- A message: the entry that is pushed for it, if any. -/
def readMessage (abi : Abi) (b : Buffer) (header messageEnd : ℕ) :
    Reading (Option SystemRouteEntry) := do
  let flags ← b.readNumber (header + 8) 4
  if flags &&& requiredFlags ≠ requiredFlags then return none
  else do
    let found ← addressLoop abi b header messageEnd (List.range 32)
      ⟨header + abi.headerSize, none, none, none⟩
    readFound b header flags found

/-- `header->rtm_msglen`. -/
def rtmMsglen (b : Buffer) (header : ℕ) : ℕ := b.field header 2

/-- A message whose length is impossible. -/
def Bad (abi : Abi) (b : Buffer) (header : ℕ) : Prop :=
  rtmMsglen b header < abi.headerSize ∨ b.content.length < header + rtmMsglen b header

instance (abi : Abi) (b : Buffer) (header : ℕ) : Decidable (Bad abi b header) :=
  inferInstanceAs (Decidable (_ ∨ _))

/-- The loop over the messages. -/
def messageLoop (abi : Abi) (b : Buffer) (cursor : ℕ) (routes : List SystemRouteEntry) :
    Reading (List SystemRouteEntry × Except Bytes Unit) :=
  if b.content.length < cursor + abi.headerSize then return (routes, .ok ())
  else if _hbad : Bad abi b cursor then
    ⟨[⟨cursor, 2⟩], (routes, .error (text "system route dump contains an invalid message"))⟩
  else
    let message := readMessage abi b cursor (cursor + rtmMsglen b cursor)
    let rest := messageLoop abi b (cursor + rtmMsglen b cursor) (routes ++ message.value.toList)
    ⟨⟨cursor, 2⟩ :: (message.reads ++ rest.reads), rest.value⟩
termination_by b.content.length - cursor
decreasing_by
  have := abi.header
  have hlen := not_lt.mp (not_or.mp _hbad).1
  have := not_lt.mp (not_or.mp _hbad).2
  omega

/-- What `sysctl` answers: the size of the dump, and the dump. -/
structure DumpCalls where
  /-- The first call. -/
  size : Except ℤ ℕ
  /-- The second call, if the size is not `0`. -/
  dump : Except ℤ Buffer

/-- `list_system_routes`. -/
def listSystemRoutes [Platform] (abi : Abi) (calls : DumpCalls) (routes : List SystemRouteEntry) :
    Reading (List SystemRouteEntry × Except Bytes Unit) :=
  match calls.size with
  | .error errno => return (routes, .error (setError "get system route dump size" errno))
  | .ok 0 => return (routes, .ok ())
  | .ok (_ + 1) =>
    match calls.dump with
    | .error errno => return (routes, .error (setError "read system route dump" errno))
    | .ok b => messageLoop abi b 0 routes

end Listing

/-! ### What the dump should be -/

theorem Abi.four_le_alignment (abi : Abi) : 4 ≤ abi.alignment := by
  rcases abi.aligned with h | h <;> omega

theorem le_routeAddressSize (abi : Abi) (saLen : ℕ) : saLen ≤ routeAddressSize abi saLen := by
  have hpos : 0 < abi.alignment := by have := abi.four_le_alignment; omega
  rw [routeAddressSize]
  split_ifs with h
  · omega
  · exact le_roundUp hpos saLen

theorem four_le_routeAddressSize (abi : Abi) (saLen : ℕ) : 4 ≤ routeAddressSize abi saLen := by
  have hfour := abi.four_le_alignment
  rw [routeAddressSize]
  split_ifs with h
  · exact hfour
  · exact hfour.trans (unit_le_roundUp (by omega) (Nat.pos_of_ne_zero h))

/-- The two platforms pad an IPv6 address differently. -/
example : routeAddressSize macOs 28 = 28 ∧ routeAddressSize freeBsd 28 = 32 := by
  decide

/-- An address, with its padding. -/
structure Sockaddr (abi : Abi) where
  /-- Its bytes. -/
  bytes : Bytes
  /-- There are as many as its length says, rounded up. -/
  sized : bytes.length = routeAddressSize abi (bytes.getD 0 0).toNat

namespace Sockaddr

variable {abi : Abi} (a : Sockaddr abi)

/-- `sa_len`. -/
def saLen : ℕ := (a.bytes.getD 0 0).toNat

/-- `sa_family`. -/
def family : ℕ := (a.bytes.getD 1 0).toNat

/-- `sin_addr`. -/
def address : Bytes := (a.bytes.drop 4).take 4

/-- A netmask of one host. -/
def AllOnes : Prop := 8 ≤ a.saLen ∧ a.address = [255, 255, 255, 255]

instance : Decidable a.AllOnes := inferInstanceAs (Decidable (_ ∧ _))

theorem four_le_length : 4 ≤ a.bytes.length := by
  rw [a.sized]
  exact four_le_routeAddressSize abi _

theorem saLen_le_length : a.saLen ≤ a.bytes.length := by
  rw [a.sized]
  exact le_routeAddressSize abi _

end Sockaddr

/-- A message. -/
structure Message (abi : Abi) where
  /-- `rtm_version`. -/
  version : UInt8
  /-- `rtm_type`. -/
  type : UInt8
  /-- `rtm_index`. -/
  index : UInt16
  /-- What fills the header up to `rtm_flags`. -/
  spare : Bytes
  /-- `rtm_flags`. -/
  flags : UInt32
  /-- `rtm_addrs`. -/
  addrs : UInt32
  /-- The rest of the header. -/
  rest : Bytes
  /-- The address of each bit that is set. -/
  address : ℕ → Sockaddr abi
  /-- What follows the addresses. -/
  trailing : Bytes
  /-- The header has its size. -/
  spare_length : spare.length = 2
  /-- The header has its size. -/
  rest_length : rest.length = abi.headerSize - 16
  /-- An IPv4 address is complete. -/
  complete : ∀ bit, addrs.toNat.testBit bit = true → (address bit).family = afInet →
    8 ≤ (address bit).saLen

namespace Message

variable {abi : Abi} (m : Message abi)

/-- The bit is set. -/
abbrev Has (bit : ℕ) : Prop := m.addrs.toNat.testBit bit = true

/-- The addresses of some bits. -/
def layout (bits : List ℕ) : Bytes :=
  (bits.filter fun bit => m.Has bit).flatMap fun bit => (m.address bit).bytes

/-- What follows the length. -/
def body (order : ByteOrder) : Bytes :=
  [m.version, m.type] ++
    (order.encode 2 m.index.toNat ++ (m.spare ++ (order.encode 4 m.flags.toNat ++
    (order.encode 4 m.addrs.toNat ++ (m.rest ++ (m.layout (List.range 32) ++ m.trailing))))))

/-- The message in memory. -/
def bytes (order : ByteOrder) : Bytes := order.encode 2 (2 + (m.body order).length) ++ m.body order

/-- **What a message means for the list.** -/
def entry [AddressNames] : Option SystemRouteEntry :=
  if m.flags.toNat &&& requiredFlags = requiredFlags ∧
      (m.Has rtaDst ∧ (m.address rtaDst).family = afInet) ∧
      (m.Has rtaGateway ∧ (m.address rtaGateway).family = afInet) ∧
      (m.flags.toNat &&& rtfHost ≠ 0 ∨ m.Has rtaNetmask ∧ (m.address rtaNetmask).AllOnes) then
    some ⟨(AddressNames.inetNtop (m.address rtaDst).address).getD [],
      (AddressNames.inetNtop (m.address rtaGateway).address).getD [],
      if 0 < m.index.toNat then AddressNames.ifIndextoname m.index.toNat else []⟩
  else none

end Message

/-! ### Addresses -/

variable {abi : Abi} {b : Buffer} {m : Message abi} {header messageEnd : ℕ}

/-- The pointer the loop keeps for a bit. -/
def Addresses.slot (s : Addresses) (bit : ℕ) : Option ℕ :=
  if bit = rtaDst then s.destination else if bit = rtaGateway then s.gateway
  else if bit = rtaNetmask then s.netmask else none

/-- The loop keeps a pointer for the address. -/
def Kept (bit family : ℕ) : Prop :=
  family = afInet ∧ (bit = rtaDst ∨ bit = rtaGateway) ∨ bit = rtaNetmask

instance (bit family : ℕ) : Decidable (Kept bit family) := inferInstanceAs (Decidable (_ ∧ _ ∨ _))

theorem Addresses.slot_take (s : Addresses) (bit family cursor bit' : ℕ) :
    ({ s.take bit family with cursor := cursor } : Addresses).slot bit' =
      if bit' = bit ∧ Kept bit family then some s.cursor else s.slot bit' := by
  by_cases hkept : bit' = bit ∧ Kept bit family
  · obtain ⟨rfl, ⟨hfamily, rfl | rfl⟩ | rfl⟩ := hkept
    · simp [Addresses.take, Addresses.slot, Kept, hfamily]
    · simp [Addresses.take, Addresses.slot, Kept, hfamily, rtaDst, rtaGateway]
    · simp [Addresses.take, Addresses.slot, Kept, rtaDst, rtaGateway, rtaNetmask]
  · rw [if_neg hkept]
    unfold Addresses.take
    split_ifs with hdst hgateway hnetmask
    · have hne : bit' ≠ rtaDst :=
        fun h => hkept ⟨h.trans hdst.2.symm, Or.inl ⟨hdst.1, Or.inl hdst.2⟩⟩
      simp [Addresses.slot, hne]
    · have hne : bit' ≠ rtaGateway :=
        fun h => hkept ⟨h.trans hgateway.2.symm, Or.inl ⟨hgateway.1, Or.inr hgateway.2⟩⟩
      simp [Addresses.slot, hne]
    · have hne : bit' ≠ rtaNetmask := fun h => hkept ⟨h.trans hnetmask.symm, Or.inr hnetmask⟩
      simp [Addresses.slot, hne]
    · rfl

/-- What the loop found for a bit, in a message that lies between `header` and `messageEnd`. -/
def Found (m : Message abi) (b : Buffer) (header messageEnd bit : ℕ) (pointer : Option ℕ) : Prop :=
  ∃ address, pointer = some address ∧ b.Holds address (m.address bit).bytes ∧ header ≤ address ∧
    address + (m.address bit).bytes.length ≤ messageEnd

theorem Message.layout_cons_of_has {bit : ℕ} (hbit : m.Has bit) (bits : List ℕ) :
    m.layout (bit :: bits) = (m.address bit).bytes ++ m.layout bits := by
  rw [Message.layout, List.filter_cons_of_pos (by simpa using hbit), List.flatMap_cons]
  rfl

theorem Message.layout_cons_of_not_has {bit : ℕ} (hbit : ¬ m.Has bit) (bits : List ℕ) :
    m.layout (bit :: bits) = m.layout bits := by
  rw [Message.layout, List.filter_cons_of_neg (by simpa using hbit)]
  rfl

/-- An address that is there has bytes. -/
theorem Message.layout_length_pos {bit : ℕ} (hbit : m.Has bit) {bits : List ℕ} (hmem : bit ∈ bits) :
    0 < (m.layout bits).length := by
  induction bits with
  | nil => cases hmem
  | cons first bits ih =>
    by_cases hfirst : m.Has first
    · rw [Message.layout_cons_of_has hfirst, List.length_append]
      have := (m.address first).four_le_length
      omega
    · rw [Message.layout_cons_of_not_has hfirst]
      refine ih ((List.mem_cons.mp hmem).resolve_left ?_)
      rintro rfl
      exact hfirst hbit

/-- The bytes at the beginning of an address. -/
theorem Sockaddr.read {a : Sockaddr abi} {address : ℕ} (hholds : b.Holds address a.bytes) :
    b.field address 1 = a.saLen ∧ b.field (address + 1) 1 = a.family := by
  have hlength := a.four_le_length
  have hfirst := hholds.byte_field (i := 0) (by omega)
  have hsecond := hholds.byte_field (i := 1) (by omega)
  simp only [Sockaddr.saLen, Sockaddr.family, List.getD_eq_getElem?_getD,
    List.getElem?_eq_getElem (show 0 < a.bytes.length by omega),
    List.getElem?_eq_getElem (show 1 < a.bytes.length by omega), Option.getD_some]
  exact ⟨hfirst, hsecond⟩

/-- The loop after an address. -/
def Addresses.advance (s : Addresses) (bit : ℕ) (a : Sockaddr abi) : Addresses :=
  { s.take bit a.family with cursor := s.cursor + a.bytes.length }

/-- The loop at a bit that is not set. -/
theorem addressLoop_skip {bit : ℕ} {bits : List ℕ} {s : Addresses}
    (haddrs : b.field (header + 12) 4 = m.addrs.toNat) (hmore : s.cursor < messageEnd)
    (hhas : ¬ m.Has bit) : addressLoop abi b header messageEnd (bit :: bits) s =
      b.readNumber (header + 12) 4 >>= fun _ => addressLoop abi b header messageEnd bits s := by
  rw [addressLoop, if_pos hmore]
  refine Reading.bind_congr ?_
  rw [Buffer.value_readNumber, haddrs, if_pos (by simpa using hhas)]

/-- The loop at a bit that is set. -/
theorem addressLoop_take {bit : ℕ} {bits : List ℕ} {s : Addresses}
    (haddrs : b.field (header + 12) 4 = m.addrs.toNat)
    (hhas : m.Has bit) (hholds : b.Holds s.cursor (m.address bit).bytes)
    (hfits : s.cursor + (m.address bit).bytes.length ≤ messageEnd) :
    addressLoop abi b header messageEnd (bit :: bits) s = b.readNumber (header + 12) 4 >>= fun _ =>
      b.readNumber s.cursor 1 >>= fun _ => b.readNumber (s.cursor + 1) 1 >>= fun _ =>
        addressLoop abi b header messageEnd bits (s.advance bit (m.address bit)) := by
  have hmore : s.cursor < messageEnd := by
    have := (m.address bit).four_le_length
    omega
  obtain ⟨hsaLen, hfamily⟩ := Sockaddr.read hholds
  have hsize : routeAddressSize abi (m.address bit).saLen = (m.address bit).bytes.length :=
    (m.address bit).sized.symm
  rw [addressLoop, if_pos hmore]
  refine Reading.bind_congr ?_
  rw [Buffer.value_readNumber, haddrs, if_neg (by simpa using hhas)]
  refine Reading.bind_congr ?_
  simp only [Buffer.value_readNumber, hsaLen, hsize]
  rw [if_neg hfits.not_gt]
  refine Reading.bind_congr ?_
  rw [Buffer.value_readNumber, hfamily]
  rfl

/-- **The loop over the bits** finds the addresses, and reads nothing outside of the message. -/
theorem addressLoop_spec {bits : List ℕ} (hnodup : bits.Nodup) {trailing : Bytes} {s : Addresses}
    (haddrs : b.field (header + 12) 4 = m.addrs.toNat) (hheader : header + 16 ≤ s.cursor)
    (hholds : b.Holds s.cursor (m.layout bits ++ trailing))
    (hend : messageEnd = s.cursor + (m.layout bits ++ trailing).length) :
    (addressLoop abi b header messageEnd bits s).Within header messageEnd ∧
      ∀ bit, if bit ∈ bits ∧ m.Has bit ∧ Kept bit (m.address bit).family then
          Found m b header messageEnd bit
            ((addressLoop abi b header messageEnd bits s).value.slot bit)
        else (addressLoop abi b header messageEnd bits s).value.slot bit = s.slot bit := by
  induction bits generalizing s with
  | nil =>
    refine ⟨Reading.within_pure _ _ _, fun bit => ?_⟩
    rw [if_neg fun h => by cases h.1]
    rfl
  | cons bit bits ih =>
    obtain ⟨hbit, hnodup⟩ := List.nodup_cons.mp hnodup
    by_cases hhas : m.Has bit
    · rw [Message.layout_cons_of_has hhas, List.append_assoc] at hholds hend
      rw [List.length_append] at hend
      have hlength := (m.address bit).four_le_length
      obtain ⟨hwithin, hslot⟩ := @ih hnodup (s.advance bit (m.address bit))
        (show header + 16 ≤ s.cursor + (m.address bit).bytes.length by omega) hholds.right
        (hend.trans (Nat.add_assoc ..).symm)
      rw [addressLoop_take haddrs hhas hholds.left (by omega)]
      refine ⟨?_, fun bit' => ?_⟩
      · exact (b.within_readNumber (by omega) (by omega)).bind ((b.within_readNumber (by omega)
          (by omega)).bind ((b.within_readNumber (by omega) (by omega)).bind hwithin))
      · simp only [Reading.value_bind]
        have hslot' := hslot bit'
        by_cases hbit' : bit' = bit
        · subst hbit'
          rw [if_neg fun h => hbit h.1] at hslot'
          by_cases hkept : Kept bit' (m.address bit').family
          · rw [if_pos ⟨List.mem_cons_self, hhas, hkept⟩, hslot', Addresses.advance,
              Addresses.slot_take, if_pos ⟨rfl, hkept⟩]
            exact ⟨s.cursor, rfl, hholds.left, by omega, by omega⟩
          · rw [if_neg fun h => hkept h.2.2, hslot', Addresses.advance, Addresses.slot_take,
              if_neg fun h => hkept h.2]
        · have hsame : (s.advance bit (m.address bit)).slot bit' = s.slot bit' := by
            rw [Addresses.advance, Addresses.slot_take, if_neg fun h => hbit' h.1]
          rw [hsame] at hslot'
          simpa only [List.mem_cons, hbit', false_or] using hslot'
    · rw [Message.layout_cons_of_not_has hhas] at hholds hend
      obtain ⟨hwithin, hslot⟩ := ih hnodup hheader hholds hend
      have hmem : ∀ bit', (bit' ∈ bit :: bits ∧ m.Has bit' ∧ Kept bit' (m.address bit').family) ↔
          (bit' ∈ bits ∧ m.Has bit' ∧ Kept bit' (m.address bit').family) := by
        refine fun bit' => and_congr_left fun h =>
          ⟨fun hin => (List.mem_cons.mp hin).resolve_left ?_, List.mem_cons_of_mem _⟩
        rintro rfl
        exact hhas h.1
      simp only [hmem]
      by_cases hmore : s.cursor < messageEnd
      · rw [addressLoop_skip haddrs hmore hhas]
        exact ⟨(b.within_readNumber (by omega) (by omega)).bind hwithin, hslot⟩
      · -- nothing is left in the message, so no address is
        rw [addressLoop, if_neg hmore]
        refine ⟨Reading.within_pure _ _ _, fun bit' => ?_⟩
        rw [if_neg fun h => ?_]
        · rfl
        · have hpos := Message.layout_length_pos h.2.1 h.1
          rw [List.length_append] at hend
          omega

/-! ### Messages -/

variable {cursor : ℕ}

/-- The fields of the header, and where the addresses begin. -/
theorem Message.header_read (hlength : 2 + (m.body b.order).length < 2 ^ 16)
    (hholds : b.Holds cursor (m.bytes b.order)) :
    rtmMsglen b cursor = (m.bytes b.order).length ∧ b.field (cursor + 4) 2 = m.index.toNat ∧
      b.field (cursor + 8) 4 = m.flags.toNat ∧ b.field (cursor + 12) 4 = m.addrs.toNat ∧
      b.Holds (cursor + abi.headerSize) (m.layout (List.range 32) ++ m.trailing) ∧
      (m.bytes b.order).length = abi.headerSize +
        (m.layout (List.range 32) ++ m.trailing).length := by
  have hheader := abi.header
  have htotal : (m.bytes b.order).length = abi.headerSize +
      (m.layout (List.range 32) ++ m.trailing).length := by
    simp only [Message.bytes, Message.body, List.length_append, ByteOrder.length_encode,
      List.length_cons, List.length_nil, m.spare_length, m.rest_length]
    omega
  rw [Message.bytes] at hholds
  have hlen := hholds.left.field (by simpa using hlength)
  have hbody := hholds.right
  rw [ByteOrder.length_encode, Message.body] at hbody
  have hindex := hbody.right
  have hspare := hindex.right
  have hflags := hspare.right
  have haddrs := hflags.right
  have hrest := haddrs.right
  have hlayout := hrest.right
  simp only [ByteOrder.length_encode, List.length_cons, List.length_nil, m.spare_length,
    m.rest_length, Nat.add_assoc]
    at hindex hspare hflags haddrs hrest hlayout
  refine ⟨?_, hindex.left.field ?_, hflags.left.field ?_, haddrs.left.field ?_, ?_, htotal⟩
  · rw [rtmMsglen, hlen, Message.bytes, List.length_append, ByteOrder.length_encode]
  · simpa using m.index.toNat_lt
  · simpa using m.flags.toNat_lt
  · simpa using m.addrs.toNat_lt
  · convert hlayout using 2
    omega

/-- The mask that is all ones. -/
theorem decode_eq_ones (order : ByteOrder) {bytes : Bytes} (hlength : bytes.length = 4) :
    order.decode bytes = 0xffffffff ↔ bytes = [255, 255, 255, 255] := by
  match bytes, hlength with
  | [b₀, b₁, b₂, b₃], _ =>
    have h₀ := b₀.toNat_lt
    have h₁ := b₁.toNat_lt
    have h₂ := b₂.toNat_lt
    have h₃ := b₃.toNat_lt
    simp only [List.cons.injEq, and_true, ← UInt8.toNat_inj, UInt8.reduceToNat]
    cases order <;> simp only [ByteOrder.decode, List.reverse_cons, List.reverse_nil,
      List.nil_append, List.cons_append,
      ofLittle] <;> omega

/-- The bytes of an address. -/
theorem Sockaddr.read_address {a : Sockaddr abi} {address : ℕ} (hholds : b.Holds address a.bytes)
    (hcomplete : 8 ≤ a.bytes.length) : b.read (address + 4) 4 = a.address ∧
    a.address.length = 4 := by
  have hdrop : 4 ≤ (a.bytes.drop 4).length := by rw [List.length_drop]; omega
  exact ⟨(hholds.drop (by omega)).read_take hdrop, List.length_take_of_le hdrop⟩

/-- `is_ipv4_host_mask` of an address. -/
theorem isIpv4HostMask_spec {a : Sockaddr abi} {address lo hi : ℕ}
    (hholds : b.Holds address a.bytes) (hlo : lo ≤ address) (hhi : address + a.bytes.length ≤ hi) :
    (isIpv4HostMask b (some address)).Within lo hi ∧
      (isIpv4HostMask b (some address)).value = decide a.AllOnes := by
  have hlength := a.four_le_length
  have hsaLen := (Sockaddr.read hholds).1
  have hfirst : (b.readNumber address 1).Within lo hi := b.within_readNumber hlo (by omega)
  simp only [isIpv4HostMask]
  by_cases hshort : a.saLen < 8
  · constructor
    · refine hfirst.bind ?_
      rw [Buffer.value_readNumber, hsaLen, if_pos hshort]
      exact Reading.within_pure _ _ _
    · rw [Reading.value_bind, Buffer.value_readNumber, hsaLen, if_pos hshort, Reading.value_pure]
      exact (decide_eq_false fun h => hshort.not_ge h.1).symm
  · have hcomplete : 8 ≤ a.bytes.length := (not_lt.mp hshort).trans a.saLen_le_length
    obtain ⟨hread, hfour⟩ := Sockaddr.read_address hholds hcomplete
    constructor
    · refine hfirst.bind ?_
      rw [Buffer.value_readNumber, hsaLen, if_neg hshort]
      exact (b.within_readNumber (by omega) (by omega)).bind (Reading.within_pure _ _ _)
    · rw [Reading.value_bind, Buffer.value_readNumber, hsaLen, if_neg hshort, Reading.value_bind,
        Buffer.value_readNumber, Reading.value_pure, Buffer.field, hread, decide_eq_decide,
        decode_eq_ones _ hfour]
      exact ⟨fun h => ⟨not_lt.mp hshort, h⟩, fun h => h.2⟩

/-- `is_ipv4_host_mask` of what the loop found. -/
theorem netmask_spec {pointer : Option ℕ}
    (hfound : if m.Has rtaNetmask then
      Found m b header messageEnd rtaNetmask pointer else pointer = none) :
    (isIpv4HostMask b pointer).Within header messageEnd ∧
      (isIpv4HostMask b pointer).value =
        decide (m.Has rtaNetmask ∧ (m.address rtaNetmask).AllOnes) := by
  by_cases hhas : m.Has rtaNetmask
  · rw [if_pos hhas] at hfound
    obtain ⟨address, rfl, hholds, hlo, hhi⟩ := hfound
    obtain ⟨hwithin, hvalue⟩ := isIpv4HostMask_spec hholds hlo hhi
    exact ⟨hwithin, by rw [hvalue]; simp [hhas]⟩
  · rw [if_neg hhas] at hfound
    rw [hfound]
    exact ⟨Reading.within_pure _ _ _, (decide_eq_false fun h => hhas h.1).symm⟩

/-- The test for a route to one host, on what the loop found. -/
theorem isHostRoute_spec (flags : ℕ) {pointer : Option ℕ}
    (hfound : if m.Has rtaNetmask then
      Found m b header messageEnd rtaNetmask pointer else pointer = none) :
    (isHostRoute b flags pointer).Within header messageEnd ∧ (isHostRoute b flags pointer).value =
      decide (flags &&& rtfHost ≠ 0 ∨ m.Has rtaNetmask ∧ (m.address rtaNetmask).AllOnes) := by
  rw [isHostRoute]
  by_cases hhost : flags &&& rtfHost ≠ 0
  · rw [if_pos hhost]
    exact ⟨Reading.within_pure _ _ _, (decide_eq_true (Or.inl hhost)).symm⟩
  · rw [if_neg hhost]
    obtain ⟨hwithin, hvalue⟩ := netmask_spec hfound
    refine ⟨hwithin, ?_⟩
    rw [hvalue, decide_eq_decide]
    exact ⟨Or.inr, fun h => h.resolve_left hhost⟩

/-- What the loop over all the bits finds. -/
structure AllFound (m : Message abi) (b : Buffer) (header messageEnd : ℕ)
    (found : Addresses) : Prop where
  /-- The destination, if it is an IPv4 address. -/
  destination : if m.Has rtaDst ∧ (m.address rtaDst).family = afInet then
    Found m b header messageEnd rtaDst found.destination else found.destination = none
  /-- The gateway, if it is an IPv4 address. -/
  gateway : if m.Has rtaGateway ∧ (m.address rtaGateway).family = afInet then
    Found m b header messageEnd rtaGateway found.gateway else found.gateway = none
  /-- The netmask. -/
  netmask : if m.Has rtaNetmask then
    Found m b header messageEnd rtaNetmask found.netmask else found.netmask = none

theorem allFound_of_addressLoop (haddrs : b.field (header + 12) 4 = m.addrs.toNat)
    (hholds : b.Holds (header + abi.headerSize) (m.layout (List.range 32) ++ m.trailing))
    (hend :
      messageEnd = header + abi.headerSize + (m.layout (List.range 32) ++ m.trailing).length) :
    (addressLoop abi b header messageEnd (List.range 32)
        ⟨header + abi.headerSize, none, none, none⟩).Within header messageEnd ∧
      AllFound m b header messageEnd
        (addressLoop abi b header messageEnd (List.range 32)
          ⟨header + abi.headerSize, none, none, none⟩).value := by
  have hheader := abi.header
  have hcursor : header + 16 ≤
      (⟨header + abi.headerSize, none, none, none⟩ : Addresses).cursor := by
    show header + 16 ≤ header + abi.headerSize
    omega
  obtain ⟨hwithin, hslot⟩ := addressLoop_spec List.nodup_range haddrs hcursor hholds hend
  refine ⟨hwithin, ?_, ?_, ?_⟩
  · have hfound := hslot rtaDst
    by_cases h : m.Has rtaDst ∧ (m.address rtaDst).family = afInet
    · rw [if_pos ⟨by decide, h.1, Or.inl ⟨h.2, Or.inl rfl⟩⟩] at hfound
      rwa [if_pos h]
    · rw [if_neg fun hin => h ⟨hin.2.1, (hin.2.2.resolve_right (by decide)).1⟩] at hfound
      rwa [if_neg h]
  · have hfound := hslot rtaGateway
    by_cases h : m.Has rtaGateway ∧ (m.address rtaGateway).family = afInet
    · rw [if_pos ⟨by decide, h.1, Or.inl ⟨h.2, Or.inr rfl⟩⟩] at hfound
      rwa [if_pos h]
    · rw [if_neg fun hin => h ⟨hin.2.1, (hin.2.2.resolve_right (by decide)).1⟩] at hfound
      rwa [if_neg h]
  · have hfound := hslot rtaNetmask
    by_cases h : m.Has rtaNetmask
    · rw [if_pos ⟨by decide, h, Or.inr rfl⟩] at hfound
      rwa [if_pos h]
    · rw [if_neg fun hin => h hin.2.1] at hfound
      rwa [if_neg h]

variable [AddressNames]

/-- The entry for two addresses. -/
theorem readEntry_spec (htotal : NtopTotal) {d g : Sockaddr abi}
    {destination gateway lo hi index : ℕ} (hd : b.Holds destination d.bytes)
    (hg : b.Holds gateway g.bytes) (hdcomplete : 8 ≤ d.bytes.length)
    (hgcomplete : 8 ≤ g.bytes.length) (hindex : b.field (header + 4) 2 = index) (hlo : lo ≤ header)
    (hhi : header + 16 ≤ hi) (hdin : lo ≤ destination ∧ destination + d.bytes.length ≤ hi)
    (hgin : lo ≤ gateway ∧ gateway + g.bytes.length ≤ hi) :
    (readEntry b header destination gateway).Within lo hi ∧
      (readEntry b header destination gateway).value =
      some ⟨(AddressNames.inetNtop d.address).getD [], (AddressNames.inetNtop g.address).getD [],
        if 0 < index then AddressNames.ifIndextoname index else []⟩ := by
  obtain ⟨hdread, hdfour⟩ := Sockaddr.read_address hd hdcomplete
  obtain ⟨hgread, hgfour⟩ := Sockaddr.read_address hg hgcomplete
  obtain ⟨destinationText, hdtext⟩ := htotal _ hdfour
  obtain ⟨gatewayText, hgtext⟩ := htotal _ hgfour
  have heq : readEntry b header destination gateway = b.readBytes (destination + 4) 4 >>= fun _ =>
      b.readBytes (gateway + 4) 4 >>= fun _ => b.readNumber (header + 4) 2 >>= fun _ =>
        pure (some ⟨destinationText, gatewayText, if 0 < index then
            AddressNames.ifIndextoname index else []⟩) := by
    rw [readEntry]
    refine Reading.bind_congr ?_
    rw [Buffer.value_readBytes, hdread, hdtext]
    refine Reading.bind_congr ?_
    rw [Buffer.value_readBytes, hgread, hgtext]
    refine Reading.bind_congr ?_
    rw [Buffer.value_readNumber, hindex]
  rw [heq, hdtext, hgtext]
  refine ⟨?_, rfl⟩
  exact (b.within_readBytes (by omega) (by omega)).bind ((b.within_readBytes (by omega)
    (by omega)).bind ((b.within_readNumber (by omega) (by omega)).bind (Reading.within_pure _ _ _)))

/-- What is made of the addresses is what the message means. -/
theorem readFound_spec (htotal : NtopTotal) {found : Addresses}
    (hfound : AllFound m b header messageEnd found)
    (hindex : b.field (header + 4) 2 = m.index.toNat) (hend : header + 16 ≤ messageEnd)
    (hrequired : m.flags.toNat &&& requiredFlags = requiredFlags) :
    (readFound b header m.flags.toNat found).Within header messageEnd ∧
      (readFound b header m.flags.toNat found).value = m.entry := by
  obtain ⟨hdestination, hgateway, hnetmask⟩ := hfound
  rw [readFound, Message.entry]
  by_cases hd : m.Has rtaDst ∧ (m.address rtaDst).family = afInet
  · rw [if_pos hd] at hdestination
    obtain ⟨destination, hdeq, hdholds, hdlo, hdhi⟩ := hdestination
    by_cases hg : m.Has rtaGateway ∧ (m.address rtaGateway).family = afInet
    · rw [if_pos hg] at hgateway
      obtain ⟨gateway, hgeq, hgholds, hglo, hghi⟩ := hgateway
      obtain ⟨hentry, hentryValue⟩ := readEntry_spec htotal hdholds hgholds
        ((m.complete _ hd.1 hd.2).trans (Sockaddr.saLen_le_length _))
        ((m.complete _ hg.1 hg.2).trans (Sockaddr.saLen_le_length _)) hindex le_rfl hend
          ⟨hdlo, hdhi⟩ ⟨hglo, hghi⟩
      rw [hdeq, hgeq]
      dsimp only
      obtain ⟨hhost, hhostValue⟩ := isHostRoute_spec m.flags.toNat hnetmask
      by_cases hall : m.flags.toNat &&& rtfHost ≠ 0 ∨ m.Has rtaNetmask ∧
        (m.address rtaNetmask).AllOnes
      · rw [decide_eq_true hall] at hhostValue
        rw [if_pos ⟨hrequired, hd, hg, hall⟩]
        refine ⟨hhost.bind ?_, ?_⟩
        · rw [hhostValue, if_pos rfl]
          exact hentry
        · rw [Reading.value_bind, hhostValue, if_pos rfl]
          exact hentryValue
      · rw [decide_eq_false hall] at hhostValue
        rw [if_neg fun h => hall h.2.2.2]
        refine ⟨hhost.bind ?_, ?_⟩
        · rw [hhostValue, if_neg Bool.false_ne_true]
          exact Reading.within_pure _ _ _
        · rw [Reading.value_bind, hhostValue, if_neg Bool.false_ne_true]
          rfl
    · rw [if_neg hg] at hgateway
      rw [hgateway, if_neg fun h => hg h.2.2.1]
      cases found.destination <;> exact ⟨Reading.within_pure _ _ _, rfl⟩
  · rw [if_neg hd] at hdestination
    rw [hdestination, if_neg fun h => hd h.2.1]
    exact ⟨Reading.within_pure _ _ _, rfl⟩

/-- **A message**: what is found is what it means, and nothing outside of it is read. -/
theorem readMessage_spec (htotal : NtopTotal) (hlength : 2 + (m.body b.order).length < 2 ^ 16)
    (hholds : b.Holds header (m.bytes b.order)) :
    (readMessage abi b header (header + (m.bytes b.order).length)).Within header
      (header + (m.bytes b.order).length) ∧
      (readMessage abi b header (header + (m.bytes b.order).length)).value = m.entry := by
  obtain ⟨-, hindex, hflags, haddrs, hlayout, hsize⟩ := Message.header_read hlength hholds
  have hheader := abi.header
  generalize hend : header + (m.bytes b.order).length = messageEnd
  have hflagsRead : (b.readNumber (header + 8) 4).Within header messageEnd :=
    b.within_readNumber (by omega) (by omega)
  by_cases hrequired : m.flags.toNat &&& requiredFlags = requiredFlags
  · obtain ⟨hloop, hfound⟩ := allFound_of_addressLoop haddrs hlayout (hend.symm.trans (by omega))
    obtain ⟨hwithin, hvalue⟩ := readFound_spec htotal hfound hindex (by omega) hrequired
    constructor
    · refine hflagsRead.bind ?_
      rw [Buffer.value_readNumber, hflags, if_neg (not_not.mpr hrequired)]
      exact hloop.bind hwithin
    · rw [readMessage, Reading.value_bind, Buffer.value_readNumber, hflags,
        if_neg (not_not.mpr hrequired)]
      exact hvalue
  · constructor
    · refine hflagsRead.bind ?_
      rw [Buffer.value_readNumber, hflags, if_pos hrequired]
      exact Reading.within_pure _ _ _
    · rw [readMessage, Reading.value_bind, Buffer.value_readNumber, hflags, if_pos hrequired,
        Message.entry, if_neg fun h => hrequired h.1]
      rfl

/-! ### The dump -/

omit [AddressNames]

/-- The loop goes on from one message to the next. -/
def NextMessage (abi : Abi) (b : Buffer) (cursor cursor' : ℕ) : Prop :=
  cursor + abi.headerSize ≤ b.content.length ∧ ¬ Bad abi b cursor ∧
    cursor' = cursor + rtmMsglen b cursor

/-- Where messages begin. -/
def Boundary (abi : Abi) (b : Buffer) : ℕ → Prop := Relation.ReflTransGen (NextMessage abi b) 0

/-- A message is at the place, and the place is in it. -/
def InMessage (abi : Abi) (b : Buffer) (cursor : ℕ) (r : Read) : Prop :=
  cursor + abi.headerSize ≤ b.content.length ∧ ¬ Bad abi b cursor ∧ cursor ≤ r.offset ∧
    r.offset + r.size ≤ cursor + rtmMsglen b cursor

variable [AddressNames]

theorem messageLoop_end (hshort : b.content.length < cursor + abi.headerSize)
    (routes : List SystemRouteEntry) :
    messageLoop abi b cursor routes = pure (routes, .ok ()) := by
  rw [messageLoop, if_pos hshort]

theorem messageLoop_bad (hlong : cursor + abi.headerSize ≤ b.content.length)
    (hbad : Bad abi b cursor) (routes : List SystemRouteEntry) : messageLoop abi b cursor routes =
      ⟨[⟨cursor, 2⟩], (routes, .error (text "system route dump contains an invalid message"))⟩ := by
  rw [messageLoop, if_neg hlong.not_gt, dif_pos hbad]

theorem messageLoop_next (hlong : cursor + abi.headerSize ≤ b.content.length)
    (hbad : ¬ Bad abi b cursor) (routes : List SystemRouteEntry) :
    ∃ message rest, message = readMessage abi b cursor (cursor + rtmMsglen b cursor) ∧
      rest = messageLoop abi b (cursor + rtmMsglen b cursor) (routes ++ message.value.toList) ∧
      messageLoop abi b cursor routes =
        ⟨⟨cursor, 2⟩ :: (message.reads ++ rest.reads), rest.value⟩ := by
  refine ⟨_, _, rfl, rfl, ?_⟩
  rw [messageLoop, if_neg hlong.not_gt, dif_neg hbad]

/-- The loop fails exactly at a message whose length is impossible. -/
theorem messageLoop_error_iff (routes : List SystemRouteEntry) :
    (∃ e, (messageLoop abi b cursor routes).value.2 = .error e) ↔
      ∃ c, Relation.ReflTransGen (NextMessage abi b) cursor c ∧
        c + abi.headerSize ≤ b.content.length ∧ Bad abi b c := by
  induction hk : b.content.length - cursor using Nat.strongRecOn generalizing cursor routes with
  | ind k ih =>
    by_cases hlong : cursor + abi.headerSize ≤ b.content.length
    · by_cases hbad : Bad abi b cursor
      · rw [messageLoop_bad hlong hbad]
        exact ⟨fun _ => ⟨cursor, .refl, hlong, hbad⟩, fun _ => ⟨_, rfl⟩⟩
      · obtain ⟨message, rest, -, hrest, hloop⟩ := messageLoop_next hlong hbad routes
        have hheader := abi.header
        have hlen := not_lt.mp (not_or.mp hbad).1
        rw [hloop]
        simp only [hrest]
        rw [ih (b.content.length - (cursor + rtmMsglen b cursor)) (by omega) _ rfl]
        constructor
        · rintro ⟨c, hpath, hc⟩
          exact ⟨c, .head ⟨hlong, hbad, rfl⟩ hpath, hc⟩
        · rintro ⟨c, hpath, hc⟩
          rcases hpath.cases_head with rfl | ⟨next, ⟨-, -, rfl⟩, hpath⟩
          · exact absurd hc.2 hbad
          · exact ⟨c, hpath, hc⟩
    · rw [messageLoop_end (not_le.mp hlong)]
      constructor
      · rintro ⟨e, he⟩
        cases he
      · rintro ⟨c, hpath, hc, -⟩
        rcases hpath.cases_head with rfl | ⟨next, ⟨hlong', -⟩, -⟩
        · exact absurd hc hlong
        · exact absurd hlong' hlong

/-- The loop over messages that are what they should be. -/
theorem messageLoop_parses (htotal : NtopTotal) {ms : List (Message abi)}
    (hlength : ∀ m ∈ ms, (m.bytes b.order).length < 2 ^ 16)
    (hholds : b.Holds cursor (ms.flatMap fun m => m.bytes b.order))
    (hend : b.content.length = cursor + (ms.flatMap fun m => m.bytes b.order).length)
    (routes : List SystemRouteEntry) :
    (messageLoop abi b cursor routes).value = (routes ++ ms.filterMap fun m => m.entry, .ok ()) ∧
      ∀ r ∈ (messageLoop abi b cursor routes).reads,
        ∃ c, Relation.ReflTransGen (NextMessage abi b) cursor c ∧ InMessage abi b c r := by
  induction ms generalizing cursor routes with
  | nil =>
    have hheader := abi.header
    rw [messageLoop_end (by rw [hend, List.flatMap_nil, List.length_nil]; omega)]
    refine ⟨by simp, fun r hr => by cases hr⟩
  | cons m ms ih =>
    rw [List.flatMap_cons] at hholds hend
    rw [List.length_append] at hend
    have hfits : 2 + (m.body b.order).length < 2 ^ 16 := by
      have hm := hlength m List.mem_cons_self
      rwa [Message.bytes, List.length_append, ByteOrder.length_encode] at hm
    obtain ⟨hmsglen, -, -, -, -, hsize⟩ := Message.header_read hfits hholds.left
    obtain ⟨hwithin, hentry⟩ := readMessage_spec htotal hfits hholds.left
    have hheader := abi.header
    have hlong : cursor + abi.headerSize ≤ b.content.length := by omega
    have hbad : ¬ Bad abi b cursor := by
      rw [Bad, hmsglen]
      omega
    obtain ⟨hvalue, hreads⟩ := ih (fun m' hm' => hlength m' (List.mem_cons_of_mem _ hm'))
      hholds.right (by omega)
      (routes ++ m.entry.toList)
    obtain ⟨message, rest, hmessage, hrest, hloop⟩ := messageLoop_next hlong hbad routes
    rw [hmsglen] at hmessage hrest
    rw [← hmessage] at hwithin hentry
    rw [hentry] at hrest
    rw [← hrest] at hvalue hreads
    rw [hloop]
    constructor
    · rw [hvalue, List.append_assoc]
      cases hm : m.entry with
      | none => simp [hm]
      | some entry => simp [hm]
    · intro r hr
      have hnext : NextMessage abi b cursor (cursor + (m.bytes b.order).length) :=
        ⟨hlong, hbad, by rw [hmsglen]⟩
      rcases List.mem_cons.mp hr with rfl | hr
      · exact ⟨cursor, .refl, hlong, hbad, le_rfl, by rw [hmsglen]; show cursor + 2 ≤ _; omega⟩
      · rcases List.mem_append.mp hr with hr | hr
        · obtain ⟨hlo, hhi⟩ := hwithin r hr
          exact ⟨cursor, .refl, hlong, hbad, hlo, by rw [hmsglen]; exact hhi⟩
        · obtain ⟨c, hpath, hin⟩ := hreads r hr
          exact ⟨c, .head hnext hpath, hin⟩

/-- **The dump is parsed whole and exactly.** Whatever `sysctl` returns, the parser ends, and fails
if and only if there is, where a message begins and a header is left, an impossible length. If the
dump is what it should be, the entries are what its messages mean, in their order, and every byte
that is read lies in the message it is read for. -/
theorem dump_parsed [Platform] (abi : Abi) (b : Buffer) (size : ℕ)
    (routes : List SystemRouteEntry) :
    ((∃ e, (listSystemRoutes abi ⟨.ok (size + 1), .ok b⟩ routes).value.2 = .error e) ↔
      ∃ c, Boundary abi b c ∧ c + abi.headerSize ≤ b.content.length ∧ Bad abi b c) ∧
    ∀ ms : List (Message abi), NtopTotal → b.content = (ms.flatMap fun m => m.bytes b.order) →
      (∀ m ∈ ms, (m.bytes b.order).length < 2 ^ 16) →
      (listSystemRoutes abi ⟨.ok (size + 1), .ok b⟩ routes).value =
        (routes ++ ms.filterMap fun m => m.entry, .ok ()) ∧
        ∀ r ∈ (listSystemRoutes abi ⟨.ok (size + 1), .ok b⟩ routes).reads,
          ∃ c, Boundary abi b c ∧ InMessage abi b c r := by
  refine ⟨messageLoop_error_iff routes, fun ms htotal hcontent hlength => ?_⟩
  have hholds : b.Holds 0 (ms.flatMap fun m => m.bytes b.order) := hcontent ▸ b.holds_zero
  exact messageLoop_parses htotal hlength hholds (by rw [Nat.zero_add, ← hcontent]) routes

section Sample

omit [AddressNames]

/-- A route to one host, and a route that is not up. -/
theorem dump_parsed_route : ∃ b : Buffer,
    (@listSystemRoutes sampleNames quadPlatform macOs
      ⟨.ok (b.content.length - 1 + 1), .ok b⟩ []).value =
      ([⟨text "10.0.0.1", text "10.0.0.254", text "eth0"⟩], .ok ()) := by
  let _ := sampleNames
  let _ := quadPlatform
  let target : Sockaddr macOs := ⟨[16, 2, 0, 0, 10, 0, 0, 1, 0, 0, 0, 0, 0, 0, 0, 0], by decide⟩
  let gateway : Sockaddr macOs := ⟨[16, 2, 0, 0, 10, 0, 0, 254, 0, 0, 0, 0, 0, 0, 0, 0], by decide⟩
  let route (flags : UInt32) : Message macOs :=
    ⟨5, 4, 2, [0, 0], flags, 3, List.replicate 76 0, fun bit => bif bit == rtaDst then
      target else gateway, [], rfl, rfl,
      fun bit _ _ => by cases hbit : bit == rtaDst <;> decide⟩
  let ms : List (Message macOs) := [route 0x807, route 0x806]
  have hlength : ∀ m ∈ ms, (m.bytes .little).length < 2 ^ 16 := by decide +kernel
  have hentries : ms.filterMap (fun m => m.entry) =
      [⟨text "10.0.0.1", text "10.0.0.254", text "eth0"⟩] := by
    decide +kernel
  let b : Buffer := ⟨.little, ms.flatMap fun m => m.bytes .little, fun _ => 255⟩
  exact ⟨b, hentries ▸
    ((dump_parsed macOs b (b.content.length - 1) []).2 ms (fun _ _ => ⟨_, rfl⟩) rfl hlength).1⟩

end Sample

end IpRouter.RouteSocket

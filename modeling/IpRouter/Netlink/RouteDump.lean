import IpRouter.Netlink.Messages
import IpRouter.RouteManager.Basic
import IpRouter.Theory.Framing

/-!
# Listing the system routes, on Linux

`list_system_routes` asks the kernel for a dump of its route table and reads
datagrams until one holds `NLMSG_DONE`. In each it walks over the messages, and in
each `RTM_NEWROUTE` over the attributes: two `Framing`s, one inside the other.

`Message` and `Attribute` are what the kernel says, and `Message.Encodes` how it
says it, with any padding. `Message.entry` is what a message means for the list.
`dump_decodes` is that the list is what the messages mean.
-/

namespace IpRouter.Netlink

open Theory RouteManager

/-! ### Constants -/

/-- `RTM_NEWROUTE`. -/
def rtmNewRoute : ℕ := 24

/-- `RTPROT_STATIC`. -/
def rtprotStatic : ℕ := 4

/-- `RTN_UNICAST`. -/
def rtnUnicast : ℕ := 1

/-- `RT_TABLE_MAIN`. -/
def rtTableMain : ℕ := 254

/-- `RTA_DST`. -/
def rtaDst : ℕ := 1

/-- `RTA_OIF`. -/
def rtaOif : ℕ := 4

/-- `RTA_GATEWAY`. -/
def rtaGateway : ℕ := 5

/-- `RTA_TABLE`. -/
def rtaTable : ℕ := 15

/-- `EIO`. -/
def eio : ℤ := 5

/-! ### `struct rtmsg` and `struct rtattr` -/

/-- `sizeof(struct rtmsg)`. -/
def rtmsgSize : ℕ := 12

/-- `route->rtm_family`. -/
def rtmFamily (b : Buffer) (route : ℕ) : ℕ := b.field route 1

/-- `route->rtm_dst_len`. -/
def rtmDstLen (b : Buffer) (route : ℕ) : ℕ := b.field (route + 1) 1

/-- `route->rtm_table`. -/
def rtmTable (b : Buffer) (route : ℕ) : ℕ := b.field (route + 4) 1

/-- `route->rtm_protocol`. -/
def rtmProtocol (b : Buffer) (route : ℕ) : ℕ := b.field (route + 5) 1

/-- `route->rtm_type`. -/
def rtmType (b : Buffer) (route : ℕ) : ℕ := b.field (route + 7) 1

/-- `RTM_RTA(route)`. -/
def rtmRta (route : ℕ) : ℕ := route + rtmsgSize

/-- `RTM_PAYLOAD(header)`, as an `int`: a message shorter than its headers makes it negative. -/
def rtmPayload (b : Buffer) (header : ℕ) : ℤ :=
  toSigned ((nlmsgLen b header + (2 ^ 32 - 28)) % 2 ^ 32)

/-- `sizeof(struct rtattr)`. -/
def rtattrSize : ℕ := 4

/-- `attribute->rta_len`. -/
def rtaLen (b : Buffer) (rta : ℕ) : ℕ := b.field rta 2

/-- `attribute->rta_type`. -/
def rtaType (b : Buffer) (rta : ℕ) : ℕ := b.field (rta + 2) 2

/-- `RTA_DATA(attribute)`. -/
def rtaData (rta : ℕ) : ℕ := rta + rtattrSize

/-- `RTA_PAYLOAD(attribute)`, of an attribute that is `RTA_OK`. -/
def rtaPayload (b : Buffer) (rta : ℕ) : ℕ := rtaLen b rta - rtattrSize

/-- `NLMSG_OK` and `NLMSG_NEXT`, on an `int` that is at most the size of a datagram. -/
def messages : Framing := ⟨nlmsghdrSize, nlmsgLen, 4, by decide, by decide⟩

/-- `RTA_OK` and `RTA_NEXT`. -/
def attributes : Framing := ⟨rtattrSize, rtaLen, 4, by decide, by decide⟩

/-! ### The listing -/

/-- What the loop over the attributes of a route finds. -/
structure RouteFields where
  /-- `destination`, if `has_destination`. -/
  destination : Option Bytes
  /-- `gateway`, if `has_gateway`. -/
  gateway : Option Bytes
  /-- `interface_index`. -/
  interfaceIndex : ℕ
  /-- `table`. -/
  table : ℕ

/-- The `switch` on the type of an attribute, whose first four bytes are `value`. -/
def RouteFields.set (order : ByteOrder) (fields : RouteFields) (type : ℕ)
    (value : Bytes) : RouteFields :=
  if type = rtaDst then { fields with destination := some value }
  else if type = rtaGateway then { fields with gateway := some value }
  else if type = rtaOif then { fields with interfaceIndex := order.decode value }
  else if type = rtaTable then { fields with table := order.decode value }
  else fields

/-- An attribute: each of the four kinds is only looked at if it has four bytes. -/
def onAttribute (b : Buffer) (fields : RouteFields) (rta : ℕ) : Round RouteFields Empty :=
  .next (if 4 ≤ rtaPayload b rta then
      fields.set b.order (rtaType b rta) (b.read (rtaData rta) 4)
    else fields)

section Listing

variable [AddressNames]

/-- The entry that is pushed for the fields that were found, if any. -/
def RouteFields.entry (fields : RouteFields) : Option SystemRouteEntry := do
  let destination ← fields.destination
  let gateway ← fields.gateway
  if fields.table ≠ rtTableMain then none else
  let destinationText ← AddressNames.inetNtop destination
  let gatewayText ← AddressNames.inetNtop gateway
  let device := if 0 < fields.interfaceIndex then
    AddressNames.ifIndextoname fields.interfaceIndex else []
  return ⟨destinationText, gatewayText, device⟩

/-- The entry that is pushed for an `RTM_NEWROUTE`, if any. -/
def routeEntry (b : Buffer) (header : ℕ) : Option SystemRouteEntry :=
  let route := nlmsgData header
  if rtmFamily b route ≠ afInet ∨ rtmDstLen b route ≠ 32 ∨ rtmProtocol b route ≠ rtprotStatic ∨
      rtmType b route ≠ rtnUnicast then none
  else
    match attributes.walk b (onAttribute b) (rtmRta route) (rtmPayload b header)
        ⟨none, none, 0, rtmTable b route⟩ with
    | .next fields => fields.entry

/-- How the loop over the messages of a datagram is left early. -/
inductive DumpEnd where
  /-- At `NLMSG_DONE`. -/
  | done (routes : List SystemRouteEntry)
  /-- At `NLMSG_ERROR`, with this code. -/
  | failed (routes : List SystemRouteEntry) (code : ℤ)

/-- A message. -/
def onMessage (b : Buffer) (sequence : ℕ) (routes : List SystemRouteEntry) (header : ℕ) :
    Round (List SystemRouteEntry) DumpEnd :=
  if nlmsgSeq b header ≠ sequence then .next routes
  else if nlmsgType b header = nlmsgDone then .leave (.done routes)
  else if nlmsgType b header = nlmsgError then
    let error := nlmsgerrError b (nlmsgData header)
    .leave (.failed routes (if error = 0 then eio else -error))
  else if nlmsgType b header ≠ rtmNewRoute then .next routes
  else .next (routes ++ (routeEntry b header).toList)

/-- What `recv` gives. -/
inductive Received where
  /-- It fails, with `errno`. -/
  | failed (errno : ℤ)
  /-- A datagram. -/
  | datagram (b : Buffer)

/-- The loop over datagrams, on what `recv` gives: `routes` and the result, or nothing if `recv`
waits. -/
def receiveDump [Platform] (sequence : ℕ) : List Received → List SystemRouteEntry →
    Option (List SystemRouteEntry × Except Bytes Unit)
  | [], _ => none
  | .failed errno :: _, routes => some (routes, .error (setError "receive system route dump" errno))
  | .datagram b :: rest, routes =>
    match messages.walk b (onMessage b sequence) 0 b.content.length routes with
    | .next routes => receiveDump sequence rest routes
    | .leave (.done routes) => some (routes, .ok ())
    | .leave (.failed routes code) => some (routes, .error (setError "dump system routes" code))

/-- What the system answers to `list_system_routes`: the errors of the calls before the
dump, and what `recv` gives. -/
structure DumpSocket where
  /-- The error of `socket`. -/
  socket : Option ℤ
  /-- The error of `bind`. -/
  bind : Option ℤ
  /-- The error of `sendto`. -/
  sendto : Option ℤ
  /-- What `recv` gives, one call after the other. -/
  received : List Received

/-- `list_system_routes`: `routes` and the result, or nothing if `recv` waits. -/
def listSystemRoutes [Platform] (s : DumpSocket) (sequence : ℕ) (routes : List SystemRouteEntry) :
    Option (List SystemRouteEntry × Except Bytes Unit) :=
  match s.socket, s.bind, s.sendto with
  | some errno, _, _ => some (routes, .error (setError "open NETLINK_ROUTE socket" errno))
  | none, some errno, _ => some (routes, .error (setError "bind NETLINK_ROUTE socket" errno))
  | none, none, some errno => some (routes, .error (setError "request system route dump" errno))
  | none, none, none => receiveDump sequence s.received routes

end Listing

/-! ### What the kernel says -/

/-- An attribute. -/
structure Attribute where
  /-- Its type. -/
  type : UInt16
  /-- Its data. -/
  data : Bytes

/-- A `struct rtmsg`. -/
structure RouteHeader where
  /-- `rtm_family`. -/
  family : UInt8
  /-- `rtm_dst_len`. -/
  dstLen : UInt8
  /-- `rtm_src_len`. -/
  srcLen : UInt8
  /-- `rtm_tos`. -/
  tos : UInt8
  /-- `rtm_table`. -/
  table : UInt8
  /-- `rtm_protocol`. -/
  protocol : UInt8
  /-- `rtm_scope`. -/
  scope : UInt8
  /-- `rtm_type`. -/
  type : UInt8
  /-- `rtm_flags`. -/
  flags : UInt32

/-- What a message carries. -/
inductive Payload where
  /-- A route. -/
  | route (header : RouteHeader) (attributes : List Attribute)
  /-- Anything else. -/
  | other (bytes : Bytes)

/-- A message. -/
structure Message where
  /-- `nlmsg_type`. -/
  type : UInt16
  /-- `nlmsg_flags`. -/
  flags : UInt16
  /-- `nlmsg_seq`. -/
  seq : UInt32
  /-- `nlmsg_pid`. -/
  pid : UInt32
  /-- What it carries. -/
  payload : Payload

/-- An attribute in memory, without its padding. -/
def Attribute.bytes (order : ByteOrder) (a : Attribute) : Bytes :=
  order.encode 2 (rtattrSize + a.data.length) ++ (order.encode 2 a.type.toNat ++ a.data)

/-- An attribute whose length fits its header, in memory. -/
def Attribute.Encodes (order : ByteOrder) (a : Attribute) (bytes : Bytes) : Prop :=
  bytes = a.bytes order ∧ rtattrSize + a.data.length < 2 ^ 16

/-- A `struct rtmsg` in memory. -/
def RouteHeader.bytes (order : ByteOrder) (r : RouteHeader) : Bytes :=
  [r.family, r.dstLen, r.srcLen, r.tos, r.table, r.protocol, r.scope, r.type] ++
    order.encode 4 r.flags.toNat

/-- The `struct nlmsghdr` of a message of that length, in memory. -/
def Message.header (order : ByteOrder) (m : Message) (length : ℕ) : Bytes :=
  order.encode 4 length ++ (order.encode 2 m.type.toNat ++ (order.encode 2 m.flags.toNat ++
    (order.encode 4 m.seq.toNat ++ order.encode 4 m.pid.toNat)))

/-- **How a message stands in memory**, without its own padding: an
`RTM_NEWROUTE` carries a route. -/
inductive Message.Encodes (order : ByteOrder) : Message → Bytes → Prop
  /-- A message that carries a route. -/
  | route {m : Message} {r : RouteHeader} {as : List Attribute} {bytes : Bytes} :
      m.payload = .route r as →
      Packed 4 (Attribute.Encodes order) as bytes →
      Message.Encodes order m (m.header order (nlmsghdrSize + (r.bytes order ++ bytes).length) ++
        (r.bytes order ++ bytes))
  /-- A message that carries anything else. -/
  | other {m : Message} {bytes : Bytes} : m.payload = .other bytes → m.type.toNat ≠ rtmNewRoute →
      Message.Encodes order m (m.header order (nlmsghdrSize + bytes.length) ++ bytes)

/-- A datagram of at most 16384 bytes that holds some messages. -/
structure Datagram (order : ByteOrder) (ms : List Message) (b : Buffer) : Prop where
  /-- It comes from the same machine. -/
  sameOrder : b.order = order
  /-- Its size. -/
  size : b.content.length ≤ 16384
  /-- Its messages. -/
  packed : Packed 4 (Message.Encodes order) ms b.content

/-! ### What it means -/

/-- The first four bytes of the last attribute of that type that has so many. -/
def lastValue (type : ℕ) (as : List Attribute) : Option Bytes :=
  (as.filter fun a => a.type.toNat = type ∧ 4 ≤ a.data.length).getLast?.map fun a => a.data.take 4

/-- The table of a route. -/
def routeTable (order : ByteOrder) (r : RouteHeader) (as : List Attribute) : ℕ :=
  (lastValue rtaTable as).elim r.table.toNat order.decode

/-- The interface of a route. -/
def routeDevice [AddressNames] (order : ByteOrder) (as : List Attribute) : Bytes :=
  let index := (lastValue rtaOif as).elim 0 order.decode
  if 0 < index then AddressNames.ifIndextoname index else []

/-- **What a message means for the list**: an IPv4 host route, static and unicast, of the main
table, with a target and a gateway. -/
def Message.entry [AddressNames] (order : ByteOrder) (m : Message) : Option SystemRouteEntry :=
  match m.payload with
  | .other _ => none
  | .route r as =>
    if r.family.toNat = afInet ∧ r.dstLen.toNat = 32 ∧ r.protocol.toNat = rtprotStatic ∧
        r.type.toNat = rtnUnicast ∧
        routeTable order r as = rtTableMain then
      match lastValue rtaDst as, lastValue rtaGateway as with
      | some destination, some gateway => some ⟨(AddressNames.inetNtop destination).getD [],
          (AddressNames.inetNtop gateway).getD [], routeDevice order as⟩
      | _, _ => none
    else none

/-! ### Attributes -/

variable {b : Buffer} {offset : ℕ}

theorem attribute_framed {a : Attribute} {bytes : Bytes} (henc : a.Encodes b.order bytes)
    (hholds : b.Holds offset bytes) :
    attributes.size ≤ bytes.length ∧ attributes.lengthAt b offset = bytes.length := by
  obtain ⟨rfl, hlength⟩ := henc
  have hbytes : (a.bytes b.order).length = rtattrSize + a.data.length := by
    simp [Attribute.bytes, rtattrSize]
    omega
  refine ⟨?_, ?_⟩
  · rw [hbytes]
    exact Nat.le_add_right _ _
  · rw [hbytes]
    exact hholds.left.field (by simpa using hlength)

/-- What an attribute does to the fields. -/
def RouteFields.take (order : ByteOrder) (fields : RouteFields) (a : Attribute) : RouteFields :=
  if 4 ≤ a.data.length then fields.set order a.type.toNat (a.data.take 4) else fields

/-- Attributes are items of their format. -/
theorem attributes_framed (b : Buffer) : ∀ (a : Attribute) bytes offset, a.Encodes b.order bytes →
    b.Holds offset bytes →
    attributes.size ≤ bytes.length ∧ attributes.lengthAt b offset = bytes.length :=
  fun _ _ _ henc hholds => attribute_framed henc hholds

/-- The fields of an attribute. -/
theorem attribute_read {a : Attribute} {bytes : Bytes} (henc : a.Encodes b.order bytes)
    (hholds : b.Holds offset bytes) :
    rtaType b offset = a.type.toNat ∧ rtaPayload b offset = a.data.length ∧
      b.Holds (rtaData offset) a.data := by
  have hlen : rtaLen b offset = bytes.length := (attribute_framed henc hholds).2
  obtain ⟨rfl, hlength⟩ := henc
  refine ⟨?_, ?_, ?_⟩
  · have hat := hholds.right.left
    rw [ByteOrder.length_encode] at hat
    exact hat.field (by simpa using a.type.toNat_lt)
  · rw [rtaPayload, hlen]
    simp only [Attribute.bytes, rtattrSize, List.length_append, ByteOrder.length_encode]
    omega
  · have hat := hholds.right.right
    rwa [ByteOrder.length_encode, ByteOrder.length_encode, Nat.add_assoc] at hat

theorem onAttribute_eq {a : Attribute} {bytes : Bytes} (henc : a.Encodes b.order bytes)
    (hholds : b.Holds offset bytes) (fields : RouteFields) :
    onAttribute b fields offset = .next (fields.take b.order a) := by
  obtain ⟨htype, hpayload, hdata⟩ := attribute_read henc hholds
  rw [onAttribute, hpayload, htype, RouteFields.take]
  split_ifs with hsize
  · rw [hdata.read_take hsize]
  · rfl

/-- The first four bytes of an attribute, if it has that type and so many. -/
def Attribute.value (type : ℕ) (a : Attribute) : Option Bytes :=
  if a.type.toNat = type ∧ 4 ≤ a.data.length then some (a.data.take 4) else none

/-- The last value, if there is an attribute before. -/
theorem lastValue_cons (type : ℕ) (a : Attribute) (as : List Attribute) :
    lastValue type (a :: as) = (lastValue type as).or (a.value type) := by
  by_cases ha : a.type.toNat = type ∧ 4 ≤ a.data.length
  · rw [lastValue, List.filter_cons_of_pos (by simpa using ha), List.getLast?_cons, Attribute.value,
      if_pos ha, lastValue]
    cases (as.filter fun a => a.type.toNat = type ∧ 4 ≤ a.data.length).getLast? <;> rfl
  · rw [lastValue, List.filter_cons_of_neg (by simpa using ha), Attribute.value, if_neg ha,
      Option.or_none, lastValue]

/-- An attribute sets the field of its type. -/
theorem RouteFields.take_eq (order : ByteOrder) (fields : RouteFields) (a : Attribute) :
    fields.take order a =
    ⟨(a.value rtaDst).or fields.destination, (a.value rtaGateway).or fields.gateway,
      (a.value rtaOif).elim fields.interfaceIndex order.decode,
        (a.value rtaTable).elim fields.table order.decode⟩ := by
  rw [RouteFields.take]
  by_cases hsize : 4 ≤ a.data.length
  · rw [if_pos hsize]
    simp only [RouteFields.set, Attribute.value, hsize, and_true]
    -- the four types are different
    by_cases hdst : a.type.toNat = rtaDst
    · simp [hdst, rtaDst, rtaGateway, rtaOif, rtaTable]
    by_cases hgateway : a.type.toNat = rtaGateway
    · simp [hgateway, rtaDst, rtaGateway, rtaOif, rtaTable]
    by_cases hoif : a.type.toNat = rtaOif
    · simp [hoif, rtaDst, rtaGateway, rtaOif, rtaTable]
    by_cases htable : a.type.toNat = rtaTable
    · simp [htable, rtaDst, rtaGateway, rtaOif, rtaTable]
    · simp [hdst, hgateway, hoif, htable]
  · simp [Attribute.value, hsize]

theorem elim_or (o o' : Option Bytes) (n : ℕ) (f : Bytes → ℕ) :
    (o.or o').elim n f = o.elim (o'.elim n f) f := by
  cases o <;> rfl

/-- **What the loop over the attributes finds** are the last values. -/
theorem foldl_take (order : ByteOrder) (as : List Attribute) (fields : RouteFields) :
    as.foldl (RouteFields.take order) fields =
      ⟨(lastValue rtaDst as).or fields.destination, (lastValue rtaGateway as).or fields.gateway,
        (lastValue rtaOif as).elim fields.interfaceIndex order.decode,
        (lastValue rtaTable as).elim fields.table order.decode⟩ := by
  induction as generalizing fields with
  | nil => rfl
  | cons a as ih =>
    rw [List.foldl_cons, ih, RouteFields.take_eq]
    simp only [lastValue_cons, elim_or, Option.or_assoc]

theorem length_of_lastValue {type : ℕ} {as : List Attribute} {value : Bytes}
    (h : lastValue type as = some value) :
    value.length = 4 := by
  obtain ⟨a, ha, rfl⟩ := Option.map_eq_some_iff.mp h
  have hmem := List.mem_of_getLast? ha
  rw [List.mem_filter, decide_eq_true_eq] at hmem
  exact List.length_take_of_le hmem.2.2

/-! ### Messages -/

variable {m : Message} {bytes : Bytes}

/-- What stands after a header. -/
theorem Message.Encodes.split {order : ByteOrder} (henc : m.Encodes order bytes) :
    ∃ payload, bytes = m.header order (nlmsghdrSize + payload.length) ++ payload := by
  cases henc with
  | route _ _ => exact ⟨_, rfl⟩
  | other _ _ => exact ⟨_, rfl⟩

@[simp] theorem Message.length_header (order : ByteOrder) (m : Message) (length : ℕ) :
    (m.header order length).length = nlmsghdrSize := by
  simp [Message.header, nlmsghdrSize]

@[simp] theorem RouteHeader.length_bytes (order : ByteOrder) (r : RouteHeader) :
    (r.bytes order).length = rtmsgSize := by
  simp [RouteHeader.bytes, rtmsgSize]

/-- The fields of a header. -/
theorem Message.header_read {length : ℕ} (hholds : b.Holds offset (m.header b.order length))
    (hlength : length < 2 ^ 32) :
    nlmsgLen b offset = length ∧ nlmsgType b offset = m.type.toNat ∧
      nlmsgSeq b offset = m.seq.toNat := by
  rw [Message.header] at hholds
  have htype := hholds.right
  have hseq := htype.right.right
  simp only [ByteOrder.length_encode, Nat.add_assoc] at htype hseq
  refine ⟨hholds.left.field (by simpa using hlength), htype.left.field ?_, hseq.left.field ?_⟩
  · simpa using m.type.toNat_lt
  · simpa using m.seq.toNat_lt

theorem message_framed (hsize : b.content.length ≤ 16384) (henc : m.Encodes b.order bytes)
    (hholds : b.Holds offset bytes) : messages.size ≤ bytes.length ∧
    messages.lengthAt b offset = bytes.length := by
  obtain ⟨payload, rfl⟩ := henc.split
  have hle := hholds.length_le
  rw [List.length_append, Message.length_header] at hle ⊢
  exact ⟨Nat.le_add_right _ _, (Message.header_read hholds.left (by omega)).1⟩

/-- Messages are items of their format. -/
theorem messages_framed (hsize : b.content.length ≤ 16384) :
    ∀ (m : Message) bytes offset, m.Encodes b.order bytes →
    b.Holds offset bytes → messages.size ≤ bytes.length ∧
      messages.lengthAt b offset = bytes.length :=
  fun _ _ _ henc hholds => message_framed hsize henc hholds

/-- The attributes of a route. -/
theorem walk_attributes {as : List Attribute}
    (hpacked : Packed 4 (Attribute.Encodes b.order) as bytes)
    (hholds : b.Holds offset bytes) (table : ℕ) :
    attributes.walk b (onAttribute b) offset bytes.length ⟨none, none, 0, table⟩ =
      .next ⟨lastValue rtaDst as, lastValue rtaGateway as,
        (lastValue rtaOif as).elim 0 b.order.decode,
        (lastValue rtaTable as).elim table b.order.decode⟩ := by
  have hbody : ∀ a ∈ as, ∀ item at' fields, a.Encodes b.order item → b.Holds at' item →
      onAttribute b fields at' = .next (fields.take b.order a) :=
    fun a _ _ _ fields henc hat => onAttribute_eq henc hat fields
  rw [walk_all (attributes_framed b) hbody hpacked hholds, foldl_take]
  simp only [Option.or_none]

variable [AddressNames]

/-- The entry for the last values. -/
theorem entry_of_lastValue (htotal : NtopTotal) (order : ByteOrder) (r : RouteHeader)
    (as : List Attribute) :
    RouteFields.entry
      ⟨lastValue rtaDst as, lastValue rtaGateway as, (lastValue rtaOif as).elim 0 order.decode,
        routeTable order r as⟩ =
      if routeTable order r as = rtTableMain then
        match lastValue rtaDst as, lastValue rtaGateway as with
        | some destination, some gateway => some ⟨(AddressNames.inetNtop destination).getD [],
            (AddressNames.inetNtop gateway).getD [], routeDevice order as⟩
        | _, _ => none
      else none := by
  cases hdestination : lastValue rtaDst as with
  | none => simp [RouteFields.entry]
  | some destination =>
    cases hgateway : lastValue rtaGateway as with
    | none => simp [RouteFields.entry]
    | some gateway =>
      obtain ⟨destinationText, hdestinationText⟩ :=
        htotal destination (length_of_lastValue hdestination)
      obtain ⟨gatewayText, hgatewayText⟩ := htotal gateway (length_of_lastValue hgateway)
      by_cases hmain : routeTable order r as = rtTableMain
      · simp [RouteFields.entry, hmain, hdestinationText, hgatewayText, routeDevice]
      · simp [RouteFields.entry, hmain]

/-- **A message gives its entry.** -/
theorem routeEntry_eq (htotal : NtopTotal) (hsize : b.content.length ≤ 16384)
    (henc : m.Encodes b.order bytes) (hholds : b.Holds offset bytes)
    (htype : m.type.toNat = rtmNewRoute) : routeEntry b offset = m.entry b.order := by
  cases henc with
  | other _ hother => exact absurd htype hother
  | @route r as bytes hpayload hpacked =>
    have hlen := (message_framed hsize (.route hpayload hpacked) hholds).2
    have hle := hholds.length_le
    have hheader : b.Holds (nlmsgData offset) (r.bytes b.order) := by
      have hright := hholds.right.left
      rwa [Message.length_header] at hright
    have hattributes : b.Holds (rtmRta (nlmsgData offset)) bytes := by
      have hright := hholds.right.right
      rwa [Message.length_header, RouteHeader.length_bytes] at hright
    have hfields : rtmFamily b (nlmsgData offset) = r.family.toNat ∧
        rtmDstLen b (nlmsgData offset) = r.dstLen.toNat ∧
        rtmTable b (nlmsgData offset) = r.table.toNat ∧
          rtmProtocol b (nlmsgData offset) = r.protocol.toNat ∧
        rtmType b (nlmsgData offset) = r.type.toNat := by
      have h8 := hheader.left
      exact ⟨h8.byte_field (i := 0) (by simp), h8.byte_field (i := 1) (by simp),
        h8.byte_field (i := 4) (by simp),
        h8.byte_field (i := 5) (by simp), h8.byte_field (i := 7) (by simp)⟩
    obtain ⟨hfamily, hdstLen, htable, hprotocol, hroute⟩ := hfields
    have hpayloadLength : rtmPayload b offset = bytes.length := by
      have hnlmsg : nlmsgLen b offset = _ := hlen
      simp only [List.length_append, Message.length_header, RouteHeader.length_bytes, nlmsghdrSize,
        rtmsgSize] at hnlmsg hle
      rw [rtmPayload, hnlmsg, toSigned]
      split_ifs <;> omega
    rw [routeEntry, Message.entry, hpayload, hfamily, hdstLen, hprotocol, hroute, htable,
      hpayloadLength, walk_attributes hpacked hattributes]
    dsimp only
    by_cases hkind : r.family.toNat = afInet ∧ r.dstLen.toNat = 32 ∧
        r.protocol.toNat = rtprotStatic ∧
        r.type.toNat = rtnUnicast
    · obtain ⟨hfamily', hdstLen', hprotocol', htype'⟩ := hkind
      simp only [hfamily', hdstLen', hprotocol', htype', ne_eq, not_true_eq_false, or_self,
        if_false, true_and]
      exact entry_of_lastValue htotal b.order r as
    · rw [if_pos (by simpa only [ne_eq, not_and_or] using hkind),
        if_neg fun h => hkind ⟨h.1, h.2.1, h.2.2.1, h.2.2.2.1⟩]

/-- The entry of a message, if it is a route of this dump. -/
def Message.listed (order : ByteOrder) (sequence : UInt32) (m : Message) :
    Option SystemRouteEntry :=
  if m.seq = sequence ∧ m.type.toNat = rtmNewRoute then m.entry order else none

/-- The message is part of the dump, and more is to come. -/
def Message.GoesOn (sequence : UInt32) (m : Message) : Prop :=
  m.seq = sequence → m.type.toNat ≠ nlmsgDone ∧ m.type.toNat ≠ nlmsgError

instance (sequence : UInt32) (m : Message) : Decidable (m.GoesOn sequence) :=
  inferInstanceAs (Decidable (_ → _))

omit [AddressNames] in
theorem header_read_of_encodes (hsize : b.content.length ≤ 16384) (henc : m.Encodes b.order bytes)
    (hholds : b.Holds offset bytes) : nlmsgType b offset = m.type.toNat ∧
    nlmsgSeq b offset = m.seq.toNat := by
  obtain ⟨payload, rfl⟩ := henc.split
  have hle := hholds.length_le
  rw [List.length_append, Message.length_header] at hle
  exact (Message.header_read hholds.left (by omega)).2

/-- A message of the dump, while more is to come. -/
theorem onMessage_goesOn (htotal : NtopTotal) (hsize : b.content.length ≤ 16384)
    (henc : m.Encodes b.order bytes) (hholds : b.Holds offset bytes) {sequence : UInt32}
    (hgoes : m.GoesOn sequence) (routes : List SystemRouteEntry) :
    onMessage b sequence.toNat routes offset =
      .next (routes ++ (m.listed b.order sequence).toList) := by
  obtain ⟨htype, hseq⟩ := header_read_of_encodes hsize henc hholds
  rw [onMessage, Message.listed, hseq, htype]
  by_cases hours : m.seq = sequence
  · obtain ⟨hdone, herror⟩ := hgoes hours
    rw [if_neg (not_not.mpr (congrArg UInt32.toNat hours)), if_neg hdone, if_neg herror]
    by_cases hroute : m.type.toNat = rtmNewRoute
    · rw [if_neg (not_not.mpr hroute), if_pos ⟨hours, hroute⟩,
        routeEntry_eq htotal hsize henc hholds hroute]
    · rw [if_pos hroute, if_neg fun h => hroute h.2, Option.toList_none, List.append_nil]
  · rw [if_pos fun h => hours (UInt32.toNat_inj.mp h), if_neg fun h => hours h.1,
      Option.toList_none, List.append_nil]

/-- The end of the dump. -/
theorem onMessage_done (hsize : b.content.length ≤ 16384) (henc : m.Encodes b.order bytes)
    (hholds : b.Holds offset bytes) {sequence : UInt32} (hours : m.seq = sequence)
    (hdone : m.type.toNat = nlmsgDone) (routes : List SystemRouteEntry) :
    onMessage b sequence.toNat routes offset = .leave (.done routes) := by
  obtain ⟨htype, hseq⟩ := header_read_of_encodes hsize henc hholds
  rw [onMessage, hseq, htype, if_neg (not_not.mpr (congrArg UInt32.toNat hours)), if_pos hdone]

omit [AddressNames] in
theorem foldl_toList {α β : Type} (f : α → Option β) (as : List α) (bs : List β) :
    as.foldl (fun bs a => bs ++ (f a).toList) bs = bs ++ as.filterMap f := by
  induction as generalizing bs with
  | nil => simp
  | cons a as ih =>
    rw [List.foldl_cons, ih, List.append_assoc]
    cases hfa : f a with
    | none => rw [List.filterMap_cons_none hfa]; rfl
    | some b => rw [List.filterMap_cons_some hfa]; rfl

/-! ### Datagrams -/

section Datagrams

variable {order : ByteOrder} {sequence : UInt32} {ms before after : List Message}

/-- The loop over a datagram, past messages of the dump. -/
theorem walk_messages (htotal : NtopTotal) (hdatagram : Datagram order (before ++ after) b)
    (hgoes : ∀ m ∈ before, m.GoesOn sequence) (routes : List SystemRouteEntry) :
    ∃ rest offset, Packed 4 (Message.Encodes order) after rest ∧ b.Holds offset rest ∧
      messages.walk b (onMessage b sequence.toNat) 0 b.content.length routes =
        messages.walk b (onMessage b sequence.toNat) offset rest.length
          (routes ++ before.filterMap (Message.listed order sequence)) := by
  obtain ⟨rfl, hsize, hpacked⟩ := hdatagram
  have hbody : ∀ m ∈ before, ∀ item at' routes, m.Encodes b.order item → b.Holds at' item →
      onMessage b sequence.toNat routes at' =
          .next (routes ++ (m.listed b.order sequence).toList) :=
    fun m hm _ _ routes henc hat => onMessage_goesOn htotal hsize henc hat (hgoes m hm) routes
  obtain ⟨rest, offset, hrest, hat, hwalk⟩ :=
    walk_packed (messages_framed hsize) hbody hpacked b.holds_zero routes
  rw [foldl_toList] at hwalk
  exact ⟨rest, offset, hrest, hat, hwalk⟩

/-- The loop over a datagram of messages of the dump. -/
theorem walk_next (htotal : NtopTotal) (hdatagram : Datagram order ms b)
    (hgoes : ∀ m ∈ ms, m.GoesOn sequence) (routes : List SystemRouteEntry) :
    messages.walk b (onMessage b sequence.toNat) 0 b.content.length routes =
      .next (routes ++ ms.filterMap (Message.listed order sequence)) := by
  rw [← List.append_nil ms] at hdatagram
  obtain ⟨rest, offset, hrest, -, hwalk⟩ := walk_messages htotal hdatagram hgoes routes
  cases hrest
  rw [hwalk, Framing.walk_of_nothing (by simp)]

/-- The loop over the datagram in which the dump ends. -/
theorem walk_done (htotal : NtopTotal) {done : Message}
    (hdatagram : Datagram order (before ++ done :: after) b)
    (hgoes : ∀ m ∈ before, m.GoesOn sequence) (hours : done.seq = sequence)
    (hdone : done.type.toNat = nlmsgDone) (routes : List SystemRouteEntry) :
    messages.walk b (onMessage b sequence.toNat) 0 b.content.length routes =
      .leave (.done (routes ++ before.filterMap (Message.listed order sequence))) := by
  obtain ⟨rest, offset, hrest, hat, hwalk⟩ := walk_messages htotal hdatagram hgoes routes
  obtain ⟨rfl, hsize, -⟩ := hdatagram
  obtain ⟨hfits, ⟨item, henc, hitem⟩, -⟩ := @walk_item _ _ _ _ _ _ (onMessage b sequence.toNat)
    (messages_framed hsize) _ _ _ _
    hrest hat
  rw [hwalk]
  exact Framing.walk_of_leave hfits (onMessage_done hsize henc hitem hours hdone _)

/-- The loop over the datagrams. -/
theorem receiveDump_eq [Platform] (htotal : NtopTotal) {datagrams : List (List Message)}
    {buffers : List Buffer} (hdatagrams : List.Forall₂ (Datagram order) datagrams buffers)
    {done : Message} (hstream : datagrams.flatten = before ++ done :: after)
    (hgoes : ∀ m ∈ before, m.GoesOn sequence) (hours : done.seq = sequence)
    (hdone : done.type.toNat = nlmsgDone) (routes : List SystemRouteEntry) :
    receiveDump sequence.toNat (buffers.map .datagram) routes =
      some (routes ++ before.filterMap (Message.listed order sequence), .ok ()) := by
  induction hdatagrams generalizing before routes with
  | nil => simp at hstream
  | @cons ms b datagrams buffers hdatagram _ ih =>
    rw [List.flatten_cons] at hstream
    rw [List.map_cons, receiveDump]
    -- the dump ends in a later datagram, or in this one
    rcases List.append_eq_append_iff.mp hstream with ⟨later, rfl, hlater⟩ | ⟨now, rfl, hnow⟩
    · rw [walk_next htotal hdatagram fun m hm => hgoes m (List.mem_append_left _ hm),
        List.filterMap_append, ← List.append_assoc]
      exact ih hlater (fun m hm => hgoes m (List.mem_append_right _ hm)) _
    · cases now with
      | nil =>
        rw [List.append_nil] at hdatagram
        rw [walk_next htotal hdatagram hgoes]
        have hlater : datagrams.flatten = [] ++ done :: after := by simpa using hnow.symm
        simpa using ih hlater (by simp) (routes ++ before.filterMap (Message.listed order sequence))
      | cons m now =>
        obtain ⟨rfl, -⟩ := List.cons.inj hnow
        rw [walk_done htotal hdatagram hgoes hours hdone]

end Datagrams

/-- **The dump loses and invents nothing.** The kernel says the messages in `datagrams`, in any
well-formed way; a message that ends the dump is among them, and no error before it. Then the
listing succeeds, and appends the entries the messages before it mean, in their order: one for each
route of this dump that is an IPv4 host route, static and unicast, of the main table, with a target
and a gateway, and nothing else. -/
theorem dump_decodes [Platform] (htotal : NtopTotal) {order : ByteOrder}
    {datagrams : List (List Message)} {buffers : List Buffer}
    (hdatagrams : List.Forall₂ (Datagram order) datagrams buffers)
    {sequence : UInt32} {before after : List Message} {done : Message}
    (hstream : datagrams.flatten = before ++ done :: after) (hours : done.seq = sequence)
    (hdone : done.type.toNat = nlmsgDone) (hgoes : ∀ m ∈ before, m.GoesOn sequence)
    (routes : List SystemRouteEntry) :
    listSystemRoutes ⟨none, none, none, buffers.map .datagram⟩ sequence.toNat routes =
      some (routes ++ before.filterMap fun m =>
        if m.seq = sequence ∧ m.type.toNat = rtmNewRoute then m.entry order else none, .ok ()) :=
  receiveDump_eq htotal hdatagrams hstream hgoes hours hdone routes

section Sample

omit [AddressNames]

/-- A route with a target, an interface and a gateway, among other messages. -/
theorem dump_decodes_route : ∃ b : Buffer,
    @listSystemRoutes sampleNames quadPlatform ⟨none, none, none, [.datagram b]⟩ 7 [] =
      some ([⟨text "10.0.0.1", text "10.0.0.254", text "eth0"⟩], .ok ()) := by
  let _ := sampleNames
  let _ := quadPlatform
  let r : RouteHeader := ⟨2, 32, 0, 0, 254, 4, 0, 1, 0⟩
  let as : List Attribute := [⟨1, [10, 0, 0, 1]⟩, ⟨4, [2, 0, 0, 0]⟩, ⟨5, [10, 0, 0, 254]⟩]
  let ms : List Message := [⟨24, 2, 6, 0, .route r []⟩, ⟨24, 2, 7, 0, .route r as⟩]
  let done : Message := ⟨3, 2, 7, 0, .other [0, 0, 0, 0]⟩
  obtain ⟨content, hmessages, hsize⟩ : ∃ content, Packed 4 (Message.Encodes .little)
      (ms ++ [done]) content ∧
      content.length ≤ 16384 :=
    ⟨_, .exact (.route rfl .nil) (by decide)
      (.exact (.route rfl (.exact ⟨rfl, by decide⟩ (by decide)
      (.exact ⟨rfl, by decide⟩ (by decide) (.exact ⟨rfl, by decide⟩ (by decide) .nil)))) (by decide)
        (.exact (.other rfl (by decide)) (by decide) .nil)), by decide⟩
  have hdatagrams : List.Forall₂ (Datagram .little) [ms ++ [done]]
      [⟨.little, content, fun _ => 255⟩] :=
    .cons ⟨rfl, hsize, hmessages⟩ .nil
  have hgoes : ∀ m ∈ ms, m.GoesOn 7 := by decide
  have hstream : [ms ++ [done]].flatten = ms ++ done :: [] := rfl
  exact ⟨_, dump_decodes (fun _ _ => ⟨_, rfl⟩) hdatagrams hstream rfl rfl hgoes []⟩

end Sample

end IpRouter.Netlink

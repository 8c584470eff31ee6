import IpRouter.Netlink.Acknowledgement
import IpRouter.Netlink.AddAttribute

/-!
# Changing a route, on Linux

`change_route` builds a request with the target and the gateway of a route, gives it
to the kernel, and looks for the acknowledgement in the reply. `request` is the
building, with two calls of `add_attribute`, and `Changes` the whole call.

`Built` is the invariant of the building: the headers, the attributes so far, and
nothing written past the request. From it, `request_read` has that both
attributes are added and read back, `routeEntry_request` that `list_system_routes`
takes the request for the route that it adds, and `sent_of_changes` that nothing but
such a request is sent.
-/

namespace IpRouter.Netlink

open Theory RouteManager

/-! ### The request -/

/-- `RT_SCOPE_UNIVERSE`. -/
def rtScopeUniverse : ℕ := 0

/-- `NLM_F_REQUEST`. -/
def nlmFRequest : ℕ := 1

/-- `NLM_F_ACK`. -/
def nlmFAck : ℕ := 4

/-- `NLM_F_REPLACE`. -/
def nlmFReplace : ℕ := 0x100

/-- `NLM_F_CREATE`. -/
def nlmFCreate : ℕ := 0x400

/-- `struct in_addr`. -/
structure InAddr where
  /-- Its bytes. -/
  bytes : Bytes
  /-- There are four. -/
  four : bytes.length = 4

/-- `request.route`. -/
def changedRoute : RouteHeader where
  family := UInt8.ofNat afInet
  dstLen := 32
  srcLen := 0
  tos := 0
  table := UInt8.ofNat rtTableMain
  protocol := UInt8.ofNat rtprotStatic
  scope := UInt8.ofNat rtScopeUniverse
  type := UInt8.ofNat rtnUnicast
  flags := 0

/-- The request, as a message with some attributes. -/
def changeMessage (command : ℤ) (sequence : UInt32) (as : List Attribute) : Message where
  type := UInt16.ofNat (command % 2 ^ 16).toNat
  flags := UInt16.ofNat (if command = rtmNewRoute then
    nlmFRequest ||| nlmFAck ||| (nlmFCreate ||| nlmFReplace)
    else nlmFRequest ||| nlmFAck)
  seq := sequence
  pid := 0
  payload := .route changedRoute as

/-- `sizeof(request.attributes)`. -/
def attributesSize : ℕ := 128

/-- `sizeof(request)`. -/
def requestSize : ℕ := nlmsghdrSize + rtmsgSize + attributesSize

/-- `request` before the attributes are added; `beyond` is what stands after it on the stack. -/
def emptyRequest (order : ByteOrder) (beyond : ℕ → UInt8) (command : ℤ)
    (sequence : UInt32) : Buffer where
  order := order
  content := (changeMessage command sequence []).header order emptyLength ++
    changedRoute.bytes order ++
    List.replicate attributesSize 0
  beyond := beyond

/-- `request` with its attributes, or nothing if it is too large. -/
def request (order : ByteOrder) (beyond : ℕ → UInt8) (command : ℤ) (sequence : UInt32)
    (destination gateway : InAddr) :
    Option Buffer :=
  match addAttribute (emptyRequest order beyond command sequence) requestSize rtaDst
      destination.bytes with
  | (false, _) => none
  | (true, request) =>
    match addAttribute request requestSize rtaGateway gateway.bytes with
    | (false, _) => none
    | (true, request) => some request

variable {order : ByteOrder} {beyond : ℕ → UInt8} {command : ℤ} {sequence : UInt32}
  {destination gateway : InAddr}

theorem length_emptyRequest (order : ByteOrder) (beyond : ℕ → UInt8) (command : ℤ)
    (sequence : UInt32) :
    (emptyRequest order beyond command sequence).content.length = requestSize := by
  simp [emptyRequest, requestSize, Nat.add_assoc]

theorem fresh_emptyRequest (order : ByteOrder) (beyond : ℕ → UInt8) (command : ℤ)
    (sequence : UInt32) :
    Fresh requestSize (emptyRequest order beyond command sequence) := by
  refine ⟨by decide, by decide, (length_emptyRequest order beyond command sequence).ge, ?_⟩
  exact (Message.header_read
    (emptyRequest order beyond command sequence).holds_zero.left.left (by decide)).1

/-- What is added to the request. -/
def routeAttributes (destination gateway : InAddr) : List NewAttribute :=
  [⟨rtaDst, destination.bytes⟩, ⟨rtaGateway, gateway.bytes⟩]

/-- The headers of the request, once it has some length. -/
def Heads (command : ℤ) (sequence : UInt32) (b : Buffer) (length : ℕ) : Prop :=
  b.Holds 0 ((changeMessage command sequence []).header b.order length ++
    changedRoute.bytes b.order)

theorem heads_emptyRequest (order : ByteOrder) (beyond : ℕ → UInt8) (command : ℤ)
    (sequence : UInt32) :
    Heads command sequence (emptyRequest order beyond command sequence) emptyLength :=
  (emptyRequest order beyond command sequence).holds_zero.left

theorem order_addAttribute (b : Buffer) (capacity : ℕ) (type : ℤ) (data : Bytes) :
    (addAttribute b capacity type data).2.order = b.order := by
  rw [addAttribute]
  split_ifs <;> rfl

theorem length_addAttribute (b : Buffer) (capacity : ℕ) (type : ℤ) (data : Bytes) :
    (addAttribute b capacity type data).2.content.length = b.content.length := by
  rw [addAttribute]
  split_ifs <;> simp

/-- The headers stay, but for the length. -/
theorem Heads.add {capacity length : ℕ} {b : Buffer} {as : List Attribute} {a : NewAttribute}
    (hheads : Heads command sequence b length) (h : Carries capacity b as length)
    (hfits : length + a.size ≤ capacity) :
    Heads command sequence (addAttribute b capacity a.type a.data).2 (length + a.size) := by
  rw [Heads, Message.header, List.append_assoc] at hheads ⊢
  have hafter := hheads.right
  rw [ByteOrder.length_encode] at hafter
  rw [order_addAttribute]
  exact h.add_headers hfits hafter (by simp [emptyLength, nlmsghdrSize, rtmsgSize])

/-- **The request as far as it is built.** -/
structure Built (order : ByteOrder) (beyond : ℕ → UInt8) (command : ℤ) (sequence : UInt32)
    (b : Buffer) (as : List Attribute) (length : ℕ) : Prop where
  /-- The order of the machine. -/
  order : b.order = order
  /-- Its size. -/
  size : b.content.length = requestSize
  /-- Nothing is written past it. -/
  beyond : b.beyond = beyond
  /-- Its headers. -/
  heads : Heads command sequence b length
  /-- Its attributes. -/
  carries : Carries requestSize b as length

theorem built_emptyRequest (order : ByteOrder) (beyond : ℕ → UInt8) (command : ℤ)
    (sequence : UInt32) :
    Built order beyond command sequence (emptyRequest order beyond command sequence)
      [] emptyLength :=
  ⟨rfl, length_emptyRequest order beyond command sequence, rfl,
    heads_emptyRequest order beyond command sequence,
    (fresh_emptyRequest order beyond command sequence).carries⟩

/-- An attribute is added. -/
theorem Built.add {b : Buffer} {as : List Attribute} {length : ℕ} {a : NewAttribute}
    (h : Built order beyond command sequence b as length) (hfits : length + a.size ≤ requestSize) :
    ∃ b', addAttribute b requestSize a.type a.data = (true, b') ∧
      Built order beyond command sequence b' (as ++ [a.stored]) (length + a.size) := by
  obtain ⟨hok, hcarries⟩ := h.carries.add hfits
  have horder : (addAttribute b requestSize a.type a.data).2.order = order :=
    (order_addAttribute _ _ _ _).trans h.order
  have hsize : (addAttribute b requestSize a.type a.data).2.content.length = requestSize :=
    (length_addAttribute _ _ _ _).trans h.size
  have hbeyond : (addAttribute b requestSize a.type a.data).2.beyond = beyond :=
    (h.carries.add_beyond hfits).trans h.beyond
  exact ⟨_, Prod.ext hok rfl, horder, hsize, hbeyond, h.heads.add h.carries hfits, hcarries⟩

/-- The size of an address as an attribute. -/
theorem size_address (type : ℤ) (address : InAddr) :
    NewAttribute.size ⟨type, address.bytes⟩ = 8 := by
  rw [NewAttribute.size, address.four]
  decide

/-- **Both attributes are added.** -/
theorem exists_request (order : ByteOrder) (beyond : ℕ → UInt8)
    (command : ℤ) (sequence : UInt32) (destination gateway : InAddr) :
    ∃ b, request order beyond command sequence destination gateway = some b ∧
      Built order beyond command sequence b
        ((routeAttributes destination gateway).map NewAttribute.stored) 44 := by
  have hfits₁ : emptyLength + NewAttribute.size ⟨rtaDst, destination.bytes⟩ ≤ requestSize := by
    rw [size_address]
    decide
  obtain ⟨b₁, hcall₁, h₁⟩ := (built_emptyRequest order beyond command sequence).add hfits₁
  rw [size_address] at h₁
  have hfits₂ : emptyLength + 8 + NewAttribute.size ⟨rtaGateway, gateway.bytes⟩ ≤ requestSize := by
    rw [size_address]
    decide
  obtain ⟨b₂, hcall₂, h₂⟩ := h₁.add hfits₂
  rw [size_address] at h₂
  dsimp only at hcall₁ hcall₂
  refine ⟨b₂, ?_, h₂⟩
  simp only [request, hcall₁, hcall₂]

/-- The request has its two attributes. -/
theorem request_read (order : ByteOrder) (beyond : ℕ → UInt8)
    (command : ℤ) (sequence : UInt32) (destination gateway : InAddr) :
    ∃ b, request order beyond command sequence destination gateway = some b ∧
      visited b = routeAttributes destination gateway := by
  obtain ⟨b, hrequest, hbuilt⟩ := exists_request order beyond command sequence destination gateway
  exact ⟨b, hrequest, hbuilt.carries.visited⟩

/-- **Attributes read back as written.** From a message without attributes, any calls of
`add_attribute` read back exactly if what is given to each can be stored; and both calls of
`change_route` succeed, and its request has the target and the gateway, and nothing else. -/
theorem attributes_read_back_iff {capacity : ℕ} {b : Buffer} (hfresh : Fresh capacity b)
    (calls : List NewAttribute) :
    (ReadsBack capacity b calls ↔
      ∀ i (_ : i < calls.length), Storable capacity (kept capacity (calls.take i)) calls[i]) ∧
      ∀ order beyond command sequence destination gateway, ∃ b,
        request order beyond command sequence destination gateway = some b ∧
          visited b = [⟨rtaDst, destination.bytes⟩, ⟨rtaGateway, gateway.bytes⟩] :=
  ⟨readsBack_iff hfresh calls, request_read⟩

section Sample

/-- A cleared message in a buffer of some size. -/
def cleared (size : ℕ) : Buffer :=
  (⟨.little, List.replicate size 0, fun _ => 0⟩ : Buffer).writeNumber 0 4 emptyLength

theorem fresh_cleared {size : ℕ} (hleast : emptyLength ≤ size) (hmost : size ≤ 65535) :
    Fresh size (cleared size) := by
  refine ⟨hleast, hmost, by simp [cleared], ?_⟩
  refine Buffer.field_writeNumber ?_ (by decide)
  simp only [emptyLength, nlmsghdrSize, List.length_replicate] at hleast ⊢
  omega

/-- An attribute, one that does not fit, and one that still does. -/
theorem attributes_read_back_iff_small :
    ReadsBack 45 (cleared 45) [⟨1, [10, 0, 0, 1]⟩, ⟨5, List.replicate 10 7⟩, ⟨65535, [7]⟩] :=
  (attributes_read_back_iff (fresh_cleared (by decide) (by decide)) _).1.mpr (by decide)

/-- There are payloads of 2 ^ 32 - 7 bytes. -/
theorem exists_large : ∃ data : Bytes, data.length = 4294967289 :=
  ⟨_, List.length_replicate (n := 4294967289) (a := 0)⟩

/-- A payload of 2 ^ 32 - 7 bytes is taken for one of none, in a buffer like that of
`change_route`. -/
theorem not_attributes_read_back : ¬ ∀ (capacity : ℕ) (b : Buffer) (calls : List NewAttribute),
    Fresh capacity b → ReadsBack capacity b calls := by
  intro hall
  obtain ⟨data, hdata⟩ := exists_large
  have hsize : NewAttribute.size ⟨rtaDst, data⟩ = 4294967296 := by
    rw [NewAttribute.size, hdata]
    decide
  have hfresh : Fresh 156 (cleared 156) := fresh_cleared (by decide) (by decide)
  refine not_readsBack hfresh ?_ ?_ (hall 156 (cleared 156) [⟨rtaDst, data⟩] hfresh) <;>
    rw [hsize] <;> decide

end Sample

/-! ### The whole call -/

/-- **The request is a message** as the kernel says messages. -/
theorem Built.encodes {b : Buffer} {as : List Attribute} {length : ℕ}
    (h : Built order beyond command sequence b as length) :
    ∃ bytes, (changeMessage command sequence as).Encodes order bytes ∧ b.Holds 0 bytes ∧
      bytes.length = length := by
  obtain ⟨rfl, -, -, hheads, hcarries⟩ := h
  obtain ⟨bytes, hlength, -, hpacked, hholds⟩ := hcarries.packed
  have hsize : nlmsghdrSize + (changedRoute.bytes b.order ++ bytes).length = length := by
    rw [List.length_append, RouteHeader.length_bytes, hlength, emptyLength, Nat.add_assoc]
  have henc := @Message.Encodes.route b.order (changeMessage command sequence as) changedRoute as
    bytes rfl hpacked
  rw [hsize] at henc
  refine ⟨_, henc, ?_, ?_⟩
  · rw [← List.append_assoc]
    refine Buffer.Holds.append hheads ?_
    rw [List.length_append, Message.length_header, RouteHeader.length_bytes, Nat.zero_add]
    exact hholds
  · rw [List.length_append, Message.length_header, hsize]

/-- What the request to add a route means. -/
theorem entry_changeMessage [AddressNames] (order : ByteOrder) (sequence : UInt32)
    (destination gateway : InAddr) :
    (changeMessage rtmNewRoute sequence
      ((routeAttributes destination gateway).map NewAttribute.stored)).entry order =
      some ⟨(AddressNames.inetNtop destination.bytes).getD [],
        (AddressNames.inetNtop gateway.bytes).getD [], []⟩ := by
  have hdestination : destination.bytes.take 4 = destination.bytes :=
    List.take_of_length_le destination.four.le
  have hgateway : gateway.bytes.take 4 = gateway.bytes := List.take_of_length_le gateway.four.le
  simp [Message.entry, changeMessage, changedRoute, routeAttributes, NewAttribute.stored, lastValue,
    routeTable, routeDevice, rtaDst, rtaGateway, rtaTable, rtaOif, afInet, rtprotStatic, rtnUnicast,
    rtTableMain, destination.four, gateway.four, hdestination, hgateway]

/-- **What `change_route` adds is what `list_system_routes` lists.** -/
theorem routeEntry_request [AddressNames] (htotal : NtopTotal) (order : ByteOrder)
    (beyond : ℕ → UInt8) (sequence : UInt32) (destination gateway : InAddr) :
    ∃ b, request order beyond rtmNewRoute sequence destination gateway = some b ∧
      routeEntry b 0 =
        some ⟨(AddressNames.inetNtop destination.bytes).getD [],
          (AddressNames.inetNtop gateway.bytes).getD [], []⟩ := by
  obtain ⟨b, hrequest, hbuilt⟩ :=
    exists_request order beyond rtmNewRoute sequence destination gateway
  obtain ⟨bytes, henc, hholds, -⟩ := hbuilt.encodes
  obtain rfl := hbuilt.order
  refine ⟨b, hrequest, ?_⟩
  have hsize : b.content.length ≤ 16384 := by
    rw [hbuilt.size]
    decide
  rw [routeEntry_eq htotal hsize henc hholds rfl, entry_changeMessage]

/-- What the system answers to `change_route`. -/
structure ChangeSocket where
  /-- `inet_pton(AF_INET, text, address)`. -/
  inetPton : Bytes → Option InAddr
  /-- The order in which the machine keeps the bytes of a number. -/
  order : ByteOrder
  /-- What stands after `request` on the stack. -/
  beyond : ℕ → UInt8
  /-- The error of `socket`. -/
  socket : Option ℤ
  /-- The error of `bind`. -/
  bind : Option ℤ
  /-- The error of `sendto`. -/
  sendto : Option ℤ
  /-- What `recv` gives. -/
  received : Received

variable [Platform]

/-- `change_route` as far as to the reply: what it gives `sendto`, and the reply. -/
def sendRequest (s : ChangeSocket) (command : ℤ) (sequence : UInt32) (destination gateway : Bytes) :
    Option Bytes × Except Bytes Buffer :=
  match s.inetPton destination, s.inetPton gateway with
  | some destinationAddr, some gatewayAddr =>
    match s.socket, s.bind,
        request s.order s.beyond command sequence destinationAddr gatewayAddr with
    | some errno, _, _ => (none, .error (setError "open NETLINK_ROUTE socket" errno))
    | none, some errno, _ => (none, .error (setError "bind NETLINK_ROUTE socket" errno))
    | none, none, none => (none, .error (text "route message is too large"))
    | none, none, some request =>
      let sent := request.read 0 (nlmsgLen request 0)
      match s.sendto, s.received with
      | some errno, _ => (some sent, .error (setError "send route request" errno))
      | none, .failed errno => (some sent, .error (setError "receive route response" errno))
      | none, .datagram reply => (some sent, .ok reply)
  | _, _ => (none, .error (text "invalid IPv4 address"))

/-- `change_route`: what it gives `sendto`, and its result, if it has one. -/
def Changes (s : ChangeSocket) (command : ℤ) (sequence : UInt32) (destination gateway : Bytes)
    (sent : Option Bytes) (result : Except Bytes Unit) : Prop :=
  (sendRequest s command sequence destination gateway).1 = sent ∧
    match (sendRequest s command sequence destination gateway).2 with
    | .error error => result = .error error
    | .ok reply =>
      ∃ reads, Ends (ackRound reply sequence.toNat) ⟨0, reply.content.length⟩ reads result

/-- A message with the two addresses. -/
def RouteRequest (s : ChangeSocket) (command : ℤ) (sequence : UInt32)
    (destination gateway sent : Bytes) : Prop :=
  ∃ destinationAddr gatewayAddr, s.inetPton destination = some destinationAddr ∧
    s.inetPton gateway = some gatewayAddr ∧
    (changeMessage command sequence
      ((routeAttributes destinationAddr gatewayAddr).map NewAttribute.stored)).Encodes
      s.order sent

theorem sendRequest_cases (s : ChangeSocket) (command : ℤ) (sequence : UInt32)
    (destination gateway : Bytes) :
    (∃ error, sendRequest s command sequence destination gateway = (none, .error error)) ∨
      ∃ sent reply, RouteRequest s command sequence destination gateway sent ∧
        sendRequest s command sequence destination gateway = (some sent, reply) := by
  unfold sendRequest
  split
  next destinationAddr gatewayAddr hdestination hgateway =>
    obtain ⟨b, hrequest, hbuilt⟩ :=
      exists_request s.order s.beyond command sequence destinationAddr gatewayAddr
    obtain ⟨bytes, henc, hholds, hlength⟩ := hbuilt.encodes
    have hread : b.read 0 (nlmsgLen b 0) = bytes := by
      rw [hbuilt.carries.len, ← hlength]
      exact hholds.read
    have hroute : RouteRequest s command sequence destination gateway (b.read 0 (nlmsgLen b 0)) :=
      ⟨destinationAddr, gatewayAddr, hdestination, hgateway, hread ▸ henc⟩
    rw [hrequest]
    cases s.socket with
    | some errno => exact Or.inl ⟨_, rfl⟩
    | none =>
      cases s.bind with
      | some errno => exact Or.inl ⟨_, rfl⟩
      | none =>
        dsimp only
        split <;> exact Or.inr ⟨_, _, hroute, rfl⟩
  next => exact Or.inl ⟨_, rfl⟩

/-- **What is sent is the route**, and where nothing is sent the call fails. -/
theorem sent_of_changes {s : ChangeSocket} {destination gateway : Bytes} {sent : Option Bytes}
    {result : Except Bytes Unit} (h : Changes s command sequence destination gateway sent result) :
    (∃ bytes, sent = some bytes ∧ RouteRequest s command sequence destination gateway bytes) ∨
      (sent = none ∧ ∃ error, result = .error error) := by
  obtain ⟨rfl, hresult⟩ := h
  rcases sendRequest_cases s command sequence destination gateway with ⟨error, hfailed⟩ |
    ⟨bytes, reply, hroute, hsent⟩
  · rw [hfailed] at hresult ⊢
    exact Or.inr ⟨rfl, error, hresult⟩
  · rw [hsent]
    exact Or.inl ⟨bytes, rfl, hroute⟩

end IpRouter.Netlink

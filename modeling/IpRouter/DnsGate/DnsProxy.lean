import IpRouter.DnsGate.Diagnostics
import IpRouter.Theory.Fibers
import IpRouter.Theory.Interp

/-!
# The DNS proxy

`dgate_service.cpp`: a datagram from a client is put into `request_box`; a fiber
takes them out one by one and starts a fiber for each, which asks the upstream
server over a socket of its own, has the addresses of the answer routed, and
sends the answer back (`handle_request`). The fibers wait for their sockets at the
same time, so their calls interleave as they like. What a socket answers is not
restricted: datagrams may be lost, late, or somebody else's.

What holds of every run: `answers_of_run` says where the datagrams go that are
sent to clients, and `answered_iff` which requests are answered. The codec of DNS
messages is the one of the acl library, here a parameter.
-/

namespace IpRouter.DnsGate

open Theory RouteService

/-! ### Messages -/

/-- `request_message`: a datagram of a client. -/
structure RequestMessage where
  /-- `server_`: the socket it came in on. -/
  server : ℕ
  /-- `peer_addr_`. -/
  peerAddr : Bytes
  /-- `data_`. -/
  data : Bytes
  deriving DecidableEq

/-- `rfc1035_request`, as far as it is read. -/
structure DnsRequest where
  /-- `get_name`. -/
  name : Option Bytes
  /-- `get_qid`. -/
  qid : UInt16

/-- `rfc1035_response`, as far as it is read. -/
structure DnsReply where
  /-- `get_qid`. -/
  qid : UInt16
  /-- The names and addresses of the answer. -/
  response : DnsResponse

/-- The codec of DNS messages. -/
class Rfc1035 where
  /-- `rfc1035_request::parse_request`. -/
  parseRequest : Bytes → Option DnsRequest
  /-- `rfc1035_response::parse_reply`. -/
  parseReply : Bytes → Option DnsReply

/-! ### Calls -/

/-- The calls of a fiber of the proxy. -/
inductive ProxyCall where
  /-- `bind_udp` of the socket to the upstream server. -/
  | bindUdp (addr : Bytes)
  /-- `sendto` on this socket. -/
  | sendto (data addr : Bytes)
  /-- `read` on this socket. -/
  | read (size : ℕ)
  /-- A request to ip-router. -/
  | router (c : RouterCall)
  /-- `sendto` on the socket of the clients. -/
  | answer (server : ℕ) (data peer : Bytes)
  deriving DecidableEq

/-- What they answer; an error is the text of `last_serror`. -/
def ProxyCall.Reply : ProxyCall → Type
  | .bindUdp _ | .sendto _ _ | .answer _ _ _ => Except Bytes Unit
  | .read _ => Except Bytes Bytes
  | .router _ => RouterReply

instance (c : ProxyCall) : Nonempty c.Reply := by
  cases c with
  | bindUdp _ | sendto _ _ | answer _ _ _ => exact ⟨(.ok () : Except Bytes Unit)⟩
  | read _ => exact ⟨(.ok [] : Except Bytes Bytes)⟩
  | router _ => exact ⟨RouterReply.failed⟩

/-- A program of a fiber of the proxy. -/
abbrev ProxyProg := Prog ProxyCall ProxyCall.Reply

/-- The calls of such a program, with their answers. -/
abbrev ProxyEvent := Event ProxyCall ProxyCall.Reply

variable [Rfc1035]

/-! ### The exchange with the upstream server -/

/-- Why there is no answer of the upstream server. -/
inductive ExchangeError where
  /-- The socket cannot be bound. -/
  | bind (error : Bytes)
  /-- The query cannot be sent. -/
  | send (error : Bytes)
  /-- Nothing is read. -/
  | read (error : Bytes)
  /-- What is read is no DNS response. -/
  | invalid
  /-- It has another id. -/
  | mismatch

/-- What is checked of a datagram that was read. -/
def checkReply (qid : UInt16) (reply : Bytes) : Except ExchangeError (Bytes × DnsReply) :=
  match Rfc1035.parseReply reply with
  | none => .error .invalid
  | some response => if response.qid ≠ qid then .error .mismatch else .ok (reply, response)

/-- What `handle_request` does with a query: send it to the upstream server, and read the
response. -/
def exchange (upstreamAddr data : Bytes) (qid : UInt16) :
    ProxyProg (Except ExchangeError (Bytes × DnsReply)) := do
  let bound : Except Bytes Unit ← Prog.lift (ProxyCall.bindUdp (text "0.0.0.0|0"))
  match bound with
  | .error e => return .error (.bind e)
  | .ok _ => do
    let sent : Except Bytes Unit ← Prog.lift (ProxyCall.sendto data upstreamAddr)
    match sent with
    | .error e => return .error (.send e)
    | .ok _ => do
      let reply : Except Bytes Bytes ← Prog.lift (ProxyCall.read 65536)
      match reply with
      | .error e => return .error (.read e)
      | .ok reply => return checkReply qid reply

variable [Acl]

/-- `handle_request`. -/
def handleRequest (upstreamAddr : Bytes) (r : GeoipRouter) (lookupCountry : Bytes → Option Bytes)
    (message : RequestMessage) :
    ProxyProg Unit :=
  match Rfc1035.parseRequest message.data with
  | none => return ()
  | some request => do
    let exchanged ← exchange upstreamAddr message.data request.qid
    match exchanged with
    | .error _ => return ()
    | .ok (reply, response) => do
      -- the routes first: a client that has the answer may use them at once
      let _ ← Prog.embed ProxyCall.router
        (r.geoipRouteDnsResult lookupCountry request.name response.response.addrs4a)
      let _ ← Prog.lift (ProxyCall.answer message.server reply message.peerAddr)
      return ()

/-- The proxy: a fiber for every datagram. -/
abbrev Proxy := Pool RequestMessage ProxyCall ProxyCall.Reply Unit

/-- What happens in the proxy. -/
abbrev ProxyLabel := PoolLabel RequestMessage ProxyCall ProxyCall.Reply

/-- **The steps of the proxy**: a datagram arrives, it is taken out of the box, or a
fiber makes its next call. -/
abbrev ProxyStep (upstreamAddr : Bytes) (r : GeoipRouter) (lookupCountry : Bytes → Option Bytes) :
    Proxy → ProxyLabel → Proxy → Prop := Pool.Step (handleRequest upstreamAddr r lookupCountry)

/-! ### What one fiber does -/

omit [Rfc1035] [Acl] in
/-- The calls of an exchange that gets the datagram `reply`. -/
def exchanged (upstreamAddr data reply : Bytes) : List ProxyEvent :=
  [⟨.bindUdp (text "0.0.0.0|0"), (.ok () : Except Bytes Unit)⟩,
    ⟨.sendto data upstreamAddr, (.ok () : Except Bytes Unit)⟩,
    ⟨.read 65536, (.ok reply : Except Bytes Bytes)⟩]

/-- The client that is sent a datagram, and the socket. -/
def answered : ProxyEvent → Option (ℕ × Bytes)
  | ⟨.answer server _ peer, _⟩ => some (server, peer)
  | _ => none

/-- The datagram of the upstream server that is read. -/
def received : ProxyEvent → Option Bytes
  | ⟨.read _, reply⟩ => Except.toOption (reply : Except Bytes Bytes)
  | _ => none

/-- The client that waits for an answer, and its socket. -/
def RequestMessage.client (m : RequestMessage) : ℕ × Bytes := (m.server, m.peerAddr)

omit [Acl] in
theorem checkReply_eq_ok {qid : UInt16} {reply data : Bytes} {response : DnsReply} :
    checkReply qid reply = .ok (data, response) ↔ data = reply ∧
      Rfc1035.parseReply reply = some response ∧ response.qid = qid := by
  unfold checkReply
  cases hparse : Rfc1035.parseReply reply with
  | none => simp
  | some found =>
    by_cases hqid : found.qid = qid
    · simp only [hqid, ne_eq, not_true_eq_false, if_false, Except.ok.injEq, Prod.mk.injEq,
        Option.some.injEq]
      constructor
      · rintro ⟨rfl, rfl⟩
        exact ⟨rfl, rfl, hqid⟩
      · rintro ⟨rfl, rfl, -⟩
        exact ⟨rfl, rfl⟩
    · simp only [ne_eq, hqid, not_false_eq_true, if_true, reduceCtorEq,
        Option.some.injEq, false_iff]
      rintro ⟨-, rfl, h⟩
      exact hqid h

omit [Acl] in
/-- What an exchange does: it gets a datagram and checks it, or ends before it has got one. -/
theorem makes_exchange {upstreamAddr data : Bytes} {qid : UInt16}
    {es : List ProxyEvent} {result : Except ExchangeError (Bytes × DnsReply)}
    (h : Makes (exchange upstreamAddr data qid) es result) :
    (∃ reply, es = exchanged upstreamAddr data reply ∧ result = checkReply qid reply) ∨
      (∃ e, result = .error e) ∧ ∀ e ∈ es, answered e = none ∧ received e = none := by
  obtain ⟨bound, _, es₁, rfl, -, h⟩ := exec_lift_do_iff.mp h
  cases bound with
  | error e =>
    obtain ⟨rfl, rfl, -⟩ := exec_pure_iff.mp h
    exact Or.inr ⟨⟨_, rfl⟩, by simp [answered, received]⟩
  | ok _ =>
    obtain ⟨sent, _, es₂, rfl, -, h⟩ := exec_lift_do_iff.mp h
    cases sent with
    | error e =>
      obtain ⟨rfl, rfl, -⟩ := exec_pure_iff.mp h
      exact Or.inr ⟨⟨_, rfl⟩, by simp [answered, received]⟩
    | ok _ =>
      obtain ⟨reply, _, es₃, rfl, -, h⟩ := exec_lift_do_iff.mp h
      cases reply with
      | error e =>
        obtain ⟨rfl, rfl, -⟩ := exec_pure_iff.mp h
        refine Or.inr ⟨⟨_, rfl⟩, ?_⟩
        simp [answered, received, Except.toOption]
      | ok reply =>
        obtain ⟨rfl, rfl, -⟩ := exec_pure_iff.mp h
        exact Or.inl ⟨reply, rfl, rfl⟩

section Fiber

variable {upstreamAddr : Bytes} {r : GeoipRouter} {lookupCountry : Bytes → Option Bytes}
  {message : RequestMessage}

/-- The calls that have the addresses of a response routed. -/
def GeoipRouter.routing (r : GeoipRouter) (lookupCountry : Bytes → Option Bytes)
    (name : Option Bytes) (addresses : List Bytes) : List ProxyCall :=
  if r.databaseOpen ∧ r.routingEnabled ∧ given name ∧ r.matched lookupCountry addresses ≠ [] then
    [.router (.post r.ipRouterAddr r.requestTimeout
      (r.url (name.getD []) (r.matched lookupCountry addresses)))]
  else []

omit [Rfc1035] in
theorem makes_routing {name : Option Bytes} {addresses : List Bytes}
    {es : List ProxyEvent} {u : Unit}
    (h : Makes (Prog.embed ProxyCall.router (r.geoipRouteDnsResult lookupCountry name addresses))
      es u) :
    es.map Sigma.fst = r.routing lookupCountry name addresses := by
  obtain ⟨gs, hrun, rfl⟩ := Prog.makes_embed_iff.mp h
  rw [GeoipRouter.geoipRouteDnsResult] at hrun
  dsimp only at hrun
  rw [GeoipRouter.routing]
  split_ifs at hrun with hoff hsome
  · obtain ⟨rfl, -, -⟩ := exec_pure_iff.mp hrun
    rw [if_neg]
    · rfl
    · rintro ⟨hopen, henabled, hgiven, -⟩
      simp [hopen, henabled, hgiven] at hoff
  · obtain ⟨ok, _, es₁, es₂, rfl, hadd, hret⟩ := exec_do_iff.mp hrun
    obtain ⟨reply, _, es₃, rfl, -, hreply⟩ := exec_lift_do_iff.mp hadd
    obtain rfl : es₃ = [] := by cases reply <;> exact (exec_pure_iff.mp hreply).1
    obtain ⟨rfl, -⟩ := exec_pure_iff.mp hret
    rw [not_or, not_or, not_not, not_not, not_not] at hoff
    rw [if_pos ⟨hoff.1, hoff.2.1, hoff.2.2, hsome⟩]
    rfl
  · obtain ⟨rfl, -, -⟩ := exec_pure_iff.mp hrun
    rw [if_neg fun h => hsome h.2.2.2]
    rfl

/-- **What a fiber does**: the exchange with the upstream server; and, if it gets a response
with the id of the request, the routing of its addresses, and then one datagram to the
client, which is the response. -/
theorem makes_handleRequest {es : List ProxyEvent} {u : Unit}
    (h : Makes (handleRequest upstreamAddr r lookupCountry message) es u) :
    (∃ request reply response routing sent, Rfc1035.parseRequest message.data = some request ∧
        Rfc1035.parseReply reply = some response ∧ response.qid = request.qid ∧
        routing.map Sigma.fst = r.routing lookupCountry request.name response.response.addrs4a ∧
        es = exchanged upstreamAddr message.data reply ++ routing ++
          [⟨.answer message.server reply message.peerAddr, sent⟩]) ∨
      (∀ e ∈ es, answered e = none) ∧
      ∀ request reply response, Rfc1035.parseRequest message.data = some request →
        reply ∈ es.filterMap received → Rfc1035.parseReply reply = some response →
        response.qid ≠ request.qid := by
  unfold handleRequest at h
  cases hrequest : Rfc1035.parseRequest message.data with
  | none =>
    simp only [hrequest] at h
    obtain ⟨rfl, -, -⟩ := exec_pure_iff.mp h
    exact Or.inr (by simp)
  | some request =>
    simp only [hrequest] at h
    obtain ⟨result, _, es₁, es₂, rfl, hexchange, h⟩ := exec_do_iff.mp h
    rcases makes_exchange hexchange with ⟨reply, rfl, rfl⟩ | ⟨⟨e, rfl⟩, hnone⟩
    · cases hcheck : checkReply request.qid reply with
      | error e =>
        simp only [hcheck] at h
        obtain ⟨rfl, -, -⟩ := exec_pure_iff.mp h
        refine Or.inr ⟨by simp [exchanged, answered],
          fun request' reply' response hrequest' hreply hparse hqid => ?_⟩
        obtain rfl := Option.some.inj hrequest'
        obtain rfl : reply' = reply := by
          simpa [exchanged, received, Except.toOption, eq_comm] using hreply
        rw [checkReply_eq_ok.mpr ⟨rfl, hparse, hqid⟩] at hcheck
        cases hcheck
      | ok found =>
        obtain ⟨data, response⟩ := found
        obtain ⟨rfl, hparse, hqid⟩ := checkReply_eq_ok.mp hcheck
        simp only [hcheck] at h
        obtain ⟨_, _, es₃, es₄, rfl, hrouting, h⟩ := exec_do_iff.mp h
        obtain ⟨sent, _, es₅, rfl, -, h⟩ := exec_lift_do_iff.mp h
        obtain ⟨rfl, -, -⟩ := exec_pure_iff.mp h
        exact Or.inl ⟨request, data, response, es₃, sent, rfl, hparse, hqid,
          makes_routing hrouting, by simp⟩
    · obtain ⟨rfl, -, -⟩ := exec_pure_iff.mp h
      rw [List.append_nil]
      refine Or.inr ⟨fun e he => (hnone e he).1, fun _ reply _ _ hreply => ?_⟩
      obtain ⟨e, he, hreceived⟩ := List.mem_filterMap.mp hreply
      rw [(hnone e he).2] at hreceived
      cases hreceived

/-- A fiber has something to send to its client: the upstream server sent it a response
with the id of the request. -/
def Answerable (m : RequestMessage) (es : List ProxyEvent) : Prop :=
  ∃ request reply response, Rfc1035.parseRequest m.data = some request ∧
    reply ∈ es.filterMap received ∧
    Rfc1035.parseReply reply = some response ∧ response.qid = request.qid

omit [Rfc1035] in
/-- What comes before the answer goes to no client. -/
theorem answered_of_routing {routing : List ProxyEvent} {name : Option Bytes}
    {addresses : List Bytes} (h : routing.map Sigma.fst = r.routing lookupCountry name addresses)
    {data reply : Bytes} :
    ∀ e ∈ exchanged upstreamAddr data reply ++ routing, answered e = none := by
  intro e he
  rcases List.mem_append.mp he with he | he
  · simp only [exchanged, List.mem_cons, List.not_mem_nil, or_false] at he
    rcases he with rfl | rfl | rfl <;> rfl
  · have hcall : e.1 ∈ r.routing lookupCountry name addresses := h ▸ List.mem_map_of_mem he
    rw [GeoipRouter.routing] at hcall
    split_ifs at hcall
    · obtain ⟨c, reply⟩ := e
      obtain rfl := List.mem_singleton.mp hcall
      rfl
    · cases hcall

/-- A fiber that has ended has sent one datagram to its client, or none. -/
theorem answers_of_makes {es : List ProxyEvent} {u : Unit}
    (h : Makes (handleRequest upstreamAddr r lookupCountry message) es u) :
    Answerable message es ∧ es.filterMap answered = [message.client] ∨
      ¬ Answerable message es ∧ es.filterMap answered = [] := by
  rcases makes_handleRequest h with
    ⟨request, reply, response, routing, sent, hrequest, hparse, hqid, hrouting, rfl⟩ | ⟨hnone, hnot⟩
  · refine Or.inl ⟨⟨request, reply, response, hrequest, ?_, hparse, hqid⟩, ?_⟩
    · simp [exchanged, received, Except.toOption]
    · rw [List.filterMap_append, List.filterMap_eq_nil_iff.mpr (answered_of_routing hrouting),
        List.nil_append]
      rfl
  · refine Or.inr ⟨?_, List.filterMap_eq_nil_iff.mpr hnone⟩
    rintro ⟨request, reply, response, hrequest, hreply, hparse, hqid⟩
    exact hnot request reply response hrequest hreply hparse hqid

end Fiber

/-! ### What the proxy does -/

variable {upstreamAddr : Bytes} {r : GeoipRouter} {lookupCountry : Bytes → Option Bytes} {p : Proxy}
  {ls : List ProxyLabel}

/-- **What is sent to a client** is due to it: the response, with the id of its request,
that the upstream server sent for the request as it came; and the addresses to be routed
were sent to ip-router before. -/
theorem relayed_of_run {before after : List ProxyLabel} {i server : ℕ} {data peer : Bytes}
    {sent : Except Bytes Unit}
    (h : Run (ProxyStep upstreamAddr r lookupCountry) .empty
      (before ++ .call i ⟨.answer server data peer, sent⟩ :: after) p) :
    ∃ m request response routing, (pushed before)[i]? = some m ∧ (server, peer) = m.client ∧
      Rfc1035.parseRequest m.data = some request ∧ Rfc1035.parseReply data = some response ∧
      response.qid = request.qid ∧
      callsOf i before = exchanged upstreamAddr m.data data ++ routing ∧
      routing.map Sigma.fst = r.routing lookupCountry request.name response.response.addrs4a := by
  rw [List.append_cons] at h
  obtain ⟨p₁, hbefore, -⟩ := run_append_iff.mp h
  obtain ⟨m, hm, q, hleads⟩ := call_of_run hbefore
  obtain ⟨es, u, hmakes⟩ := hleads.extend
  rcases makes_handleRequest hmakes with
    ⟨request, reply, response, routing, sent', hrequest, hparse, hqid, hrouting, heq⟩ | ⟨hnone, -⟩
  · -- the answer is the last call of the program
    obtain ⟨hcalls, hlast⟩ := append_singleton_of_prefix heq fun hmem => by
      cases answered_of_routing hrouting _ hmem
    cases hlast
    exact ⟨m, request, response, routing, hm, rfl, hrequest, hparse, hqid, hcalls, hrouting⟩
  · have hanswer :=
      hnone _ (List.mem_append_left _ (List.mem_append_right _ (List.mem_singleton_self _)))
    cases hanswer

/-- **No datagram to a client without a request of this client, and none twice**, in every run,
whatever the sockets answer and however the fibers interleave; and each is what is due to it. -/
theorem answers_of_run (h : Run (ProxyStep upstreamAddr r lookupCountry) .empty ls p) :
    (reports answered ls).Subperm ((pushed ls).map RequestMessage.client) ∧
      ∀ before i server data peer sent after,
        ls = before ++ .call i ⟨.answer server data peer, sent⟩ :: after →
        ∃ m request response routing, (pushed before)[i]? = some m ∧ (server, peer) = m.client ∧
          Rfc1035.parseRequest m.data = some request ∧ Rfc1035.parseReply data = some response ∧
          response.qid = request.qid ∧
          callsOf i before = exchanged upstreamAddr m.data data ++ routing ∧
          routing.map Sigma.fst =
            r.routing lookupCountry request.name response.response.addrs4a := by
  constructor
  · refine reports_subperm (fun m es u hmakes => ?_) h
    rcases answers_of_makes hmakes with ⟨-, hanswers⟩ | ⟨-, hanswers⟩ <;> simp [hanswers]
  · rintro before i server data peer sent after rfl
    exact relayed_of_run h

section Sample

omit [Rfc1035] [Acl]

/-- The header of a query, but for its id, and the question for the address of `example.com`. -/
def sampleQuestion : Bytes := [7] ++ text "example" ++ [3] ++ text "com" ++ [0, 0, 1, 0, 1]

/-- The query with an id. -/
def sampleQuery (high low : UInt8) : Bytes :=
  [high, low, 1, 0, 0, 1, 0, 0, 0, 0, 0, 0] ++ sampleQuestion

/-- The response with an id: the address `1.1.1.1`. -/
def sampleReply (high low : UInt8) : Bytes :=
  [high, low, 0x81, 0x80, 0, 1, 0, 1, 0, 0, 0, 0] ++ sampleQuestion ++
    [0xc0, 12, 0, 1, 0, 1, 0, 0, 0, 60, 0, 4, 1, 1, 1, 1]

/-- The id of a message. -/
def sampleId (data : Bytes) : UInt16 := (data.headD 0).toUInt16 * 256 + (data.tail.headD 0).toUInt16

/-- What the codec makes of these messages. -/
abbrev sampleRfc1035 : Rfc1035 where
  parseRequest data := if data.drop 2 = (sampleQuery 0 0).drop 2 then
    some ⟨some (text "example.com"), sampleId data⟩ else none
  parseReply data :=
    if data.drop 2 = (sampleReply 0 0).drop 2 then
      some ⟨sampleId data, ⟨[text "1.1.1.1"], [], by decide⟩⟩ else none

/-- Sockets that work, and the datagram that is read, if one is. -/
def sampleSockets (datagram : Except Bytes Bytes) : (c : ProxyCall) → c.Reply
  | .bindUdp _ => .ok ()
  | .sendto _ _ => .ok ()
  | .answer _ _ _ => .ok ()
  | .read _ => datagram
  | .router _ => RouterReply.answered 200 []

/-- Two clients ask at the same time; the first gets no response, the second one for another id
before its own, in another fiber. -/
def sampleScript : List (PoolAction RequestMessage ProxyCall ProxyCall.Reply) :=
  [.push ⟨5, text "10.0.0.7|4001", sampleQuery 18 52⟩, .pop, .call 0 (sampleSockets (.ok [])),
    .push ⟨5, text "10.0.0.8|4002", sampleQuery 86 120⟩,
    .push ⟨5, text "10.0.0.9|4003", sampleQuery 1 2⟩, .pop, .pop,
    .call 1 (sampleSockets (.ok [])), .call 2 (sampleSockets (.ok [])),
      .call 0 (sampleSockets (.ok [])),
    .call 2 (sampleSockets (.ok [])), .call 1 (sampleSockets (.ok [])),
      .call 2 (sampleSockets (.ok (sampleReply 86 120))),
    .call 1 (sampleSockets (.ok (sampleReply 86 120))), .call 1 (sampleSockets (.ok [])),
    .call 0 (sampleSockets (.error (text "timed out"))), .call 1 (sampleSockets (.ok []))]

/-- The run. -/
def sampleProxyRun : List ProxyLabel × Proxy :=
  Pool.empty.play (@handleRequest sampleRfc1035 percentAcl (text "114.114.114.114|53") sampleRouter
    sampleCountry) sampleScript

/-- The second client gets its response, and nobody else anything. -/
theorem answers_of_run_three :
    reports answered sampleProxyRun.1 = [(5, text "10.0.0.8|4002")] ∧
      (reports answered sampleProxyRun.1).Subperm
        ((pushed sampleProxyRun.1).map RequestMessage.client) :=
  ⟨by decide +kernel, (@answers_of_run sampleRfc1035 percentAcl _ _ _ _ _ (run_play _ _)).1⟩

end Sample

/-- **Every request is answered that can be**: once the box is empty and the fibers have
ended, a request has been answered, once, if its fiber got a response with its id;
whatever became of the others. -/
theorem answered_of_ended (h : Run (ProxyStep upstreamAddr r lookupCountry) .empty ls p)
    (hbox : p.box = []) (hended : ∀ f ∈ p.fibers, f.Ended) {i : ℕ} {m : RequestMessage}
    (hi : (pushed ls)[i]? = some m) :
    (Answerable m (callsOf i ls) → (callsOf i ls).filterMap answered = [m.client]) ∧
      (¬ Answerable m (callsOf i ls) → (callsOf i ls).filterMap answered = []) := by
  obtain ⟨u, hmakes⟩ := makes_of_ended h hbox hended hi
  rcases answers_of_makes hmakes with ⟨hyes, hanswers⟩ | ⟨hno, hanswers⟩
  · exact ⟨fun _ => hanswers, fun hno => absurd hyes hno⟩
  · exact ⟨fun hyes => absurd hyes hno, fun _ => hanswers⟩

section Sample

omit [Rfc1035] [Acl]

/-- In the same run all fibers end, and the second request alone could be answered. -/
theorem answered_of_ended_second :
    (callsOf 1 sampleProxyRun.1).filterMap answered = [(5, text "10.0.0.8|4002")] := by
  have hi : (pushed sampleProxyRun.1)[1]? = some ⟨5, text "10.0.0.8|4002", sampleQuery 86 120⟩ := by
    decide +kernel
  have hreply : sampleReply 86 120 ∈ (callsOf 1 sampleProxyRun.1).filterMap received := by
    decide +kernel
  exact (@answered_of_ended sampleRfc1035 percentAcl _ _ _ _ _ (run_play _ _) (by decide +kernel)
    (by decide +kernel) 1 _ hi).1
    ⟨_, _, _, rfl, hreply, rfl, rfl⟩

end Sample

end IpRouter.DnsGate

import RemoteScreen.Proofs.Client.Sifting
import RemoteScreen.Proofs.Engine.Echo
import RemoteScreen.Proofs.Keyboard.Order

namespace RemoteScreen.Client

variable {c : Client} {call event : Event} {before events : List Event} {d : Datagram}
  {request : Octets} {keep : Datagram → Bool}

namespace Event

def arriving : Event → List Datagram
  | arrive datagrams => datagrams
  | _ => []

end Event

-- What came in by the end of the events, also what was there before them.
def delivered (c : Client) (events : List Event) : List Datagram :=
  c.socket.arrivals ++ events.flatMap Event.arriving

-- What pings and searches put on the network in the course of the events.
def asked (c : Client) : List Event → List Octets
  | [] => []
  | event :: rest =>
    (if event.asks then c.sentSince (c.step event).2 else []) ++ asked (c.step event).2 rest

-- The datagram answers what was asked in the course of the events.
def Late (c : Client) (events : List Event) (d : Datagram) : Prop :=
  ∃ request ∈ c.asked events, Echoes request d.octets

-- The datagram answers what this call asks, under the nonce that the call draws.
structure Fulfils (c : Client) (call : Event) (kind : MessageKind) (source : Identity)
    (d : Datagram) (frame : Frame) : Prop where
  hears   : c.Hears d frame
  kind    : frame.kind = kind
  source  : frame.link.source = source
  nonce   : frame.nonce = c.drawNonce.1
  request : ∃ request, c.sentSince (c.step call).2 = [request] ∧ Echoes request d.octets

-- The call takes nothing for an answer but what answers it, and goes by nothing else.
structure Attributes (c : Client) (late : Datagram → Prop) (delivered : List Datagram)
    (call : Event) : Prop where
  pong   : ∀ target payload, call = .ping target payload →
    (c.step call).1 = .pinged (.ok true) →
    ∃ d ∈ delivered, ¬ late d ∧ ∃ frame, c.Fulfils call .pong target d frame
  status : ∀ found, call = .discover →
    (c.step call).1 = .discovered (.ok found) → ∀ server ∈ found,
    ∃ d ∈ delivered, ¬ late d ∧ d.peer = server.address ∧
      ∃ frame, c.Fulfils call .statusResponse server.identity d frame ∧
        DisplayState.decode frame.payload = .ok server.state
  others : call.asks → ∀ keep : Datagram → Bool, (∀ d, keep d = false → late d ∨ c.Foreign d) →
    ((c.awaiting (c.socket.arrivals.filter keep)).step call).1 = (c.step call).1

-- What is in the queue was delivered.

theorem arrivals_ask {α : Type} {listen : List Datagram → Except Fault α × List Datagram}
    (h : ∀ queue, (listen queue).2 <:+ queue) (c : Client) (destination : Identity)
    (kind : MessageKind) (payload : Octets) :
    (c.ask destination kind payload listen).2.socket.arrivals <:+ c.socket.arrivals := by
  change ((c.awaiting c.socket.arrivals).ask ..).2.socket.arrivals <:+ _
  obtain ⟨_, ha⟩ | ⟨_, _, ha⟩ := c.ask_cases destination kind payload <;> rw [ha]
  case inl => exact List.suffix_rfl
  case inr => exact h _

theorem arrivals_step (c : Client) (event : Event) :
    (c.step event).2.socket.arrivals <:+ c.socket.arrivals ++ event.arriving := by
  by_cases hl : event.looks = false
  case pos =>
    have hq : (c.step event).2.socket.arrivals = c.socket.arrivals :=
      congrArg (·.2.socket.arrivals) (blind_step hl c c.socket.arrivals)
    have ha : event.arriving = [] := by
      cases event <;> first | rfl | contradiction
    simp [hq, ha]
  case neg =>
    cases event
    case change | setServer | drawNonce | send | startSession | sendKeys => exact absurd rfl hl
    case arrive  => exact List.suffix_rfl
    case receive =>
      change _ <:+ c.socket.arrivals ++ []
      rw [List.append_nil]
      exact c.firstFrame_suffix _
    case discover =>
      change c.discover.2.socket.arrivals <:+ c.socket.arrivals ++ []
      rw [List.append_nil, discover_eq]
      exact arrivals_ask (c.collect_suffix _ _) ..
    case ping target payload =>
      change (c.ping target payload).2.socket.arrivals <:+ c.socket.arrivals ++ []
      rw [List.append_nil, ping_eq]
      exact arrivals_ask (c.awaitPong_suffix _ _) ..

theorem mem_delivered (h : d ∈ (c.run events).socket.arrivals) : d ∈ c.delivered events := by
  induction events generalizing c
  case nil => exact List.mem_append_left _ h
  case cons event rest hi =>
    cases List.mem_append.mp (hi h)
    case inl hm =>
      have hm := (c.arrivals_step event).subset hm
      simp only [delivered, List.flatMap_cons, List.mem_append] at hm ⊢
      exact hm.imp_right .inl
    case inr hm =>
      simp only [delivered, List.flatMap_cons, List.mem_append]
      exact .inr (.inr hm)

-- Requests go out under the nonces that are drawn for them.

section Ask

variable {α : Type} {listen : List Datagram → Except Fault α × List Datagram}
  {destination : Identity} {kind : MessageKind} {payload : Octets}

theorem sentSince_posting (c : Client) (request : Datagram) (queue : List Datagram) :
    c.sentSince ((c.drawNonce.2.posting (.ok request)).awaiting queue) = [request.octets] := by
  simp [sentSince, posting, awaiting, drawNonce]

theorem slice_ask (h : request ∈ c.sentSince (c.ask destination kind payload listen).2) :
    request.slice 18 4 = Octets.ofWord32 c.drawNonce.1 := by
  change _ ∈ c.sentSince ((c.awaiting c.socket.arrivals).ask ..).2 at h
  obtain ⟨_, ha⟩ | ⟨_, hn, ha⟩ := c.ask_cases destination kind payload <;> rw [ha] at h
  case inl => simp [sentSince, awaiting, drawNonce] at h
  case inr =>
    rw [sentSince_posting, List.mem_singleton] at h
    exact h ▸ hn

-- The request went out if the call has anything to say of its answers.
theorem ask_ok {a : α} (h : (c.ask destination kind payload listen).1 = .ok a) :
    (listen c.socket.arrivals).1 = .ok a ∧
      ∃ request, c.sentSince (c.ask destination kind payload listen).2 = [request] := by
  change ((c.awaiting c.socket.arrivals).ask ..).1 = _ at h
  change _ ∧ ∃ request, c.sentSince ((c.awaiting c.socket.arrivals).ask ..).2 = [request]
  obtain ⟨_, ha⟩ | ⟨_, _, ha⟩ := c.ask_cases destination kind payload <;> rw [ha] at h ⊢
  case inl => contradiction
  case inr => exact ⟨h, _, sentSince_posting ..⟩

end Ask

theorem slice_step (ha : event.asks) (h : request ∈ c.sentSince (c.step event).2) :
    request.slice 18 4 = Octets.ofWord32 c.drawNonce.1 := by
  cases event
  case discover =>
    rw [step, discover_eq] at h
    exact slice_ask h
  case ping =>
    rw [step, ping_eq] at h
    exact slice_ask h
  all_goals contradiction

theorem slice_asked (h : request ∈ c.asked events) : ∃ k ≤ draws events,
    request.slice 18 4 = Octets.ofWord32 (c.nonce + UInt32.ofNat k) := by
  induction events generalizing c
  case nil => contradiction
  case cons event rest hi =>
    rw [draws_cons]
    cases List.mem_append.mp h
    case inl h =>
      split at h
      case isFalse => contradiction
      case isTrue ha =>
        have hd : event.draws := by
          cases event <;> first | rfl | contradiction
        exact ⟨1, by simp [hd], slice_step ha h⟩
    case inr h =>
      have ⟨k, hl, hs⟩ := hi h
      have hn := (c.moves_step event).nonce
      rw [hn, UInt32.add_assoc, ← UInt32.ofNat_add] at hs
      exact ⟨_, Nat.add_le_add_left hl _, hs⟩

-- As long as nonces do not come round again, what answers an earlier call carries another nonce.
theorem Late.nonce_ne (h : c.Late before d) (hd : draws before + 1 < UInt32.size) {frame : Frame}
    (hf : Frame.ofOctets d.octets = .ok frame) : frame.nonce ≠ (c.run before).drawNonce.1 := by
  have ⟨request, hr, he⟩ := h
  have ⟨k, hl, hs⟩ := slice_asked hr
  rw [Echoes, Frame.slice_nonce hf, hs, Octets.ofWord32_inj] at he
  have hn : (c.run before).drawNonce.1 = c.nonce + UInt32.ofNat (draws before + 1) := by
    rw [drawNonce, (c.moves_run before).nonce, UInt32.ofNat_add, UInt32.add_assoc]
    rfl
  rw [he, hn]
  intro heq
  have hw : k < UInt32.size := Nat.lt_of_le_of_lt (Nat.le_succ_of_le hl) hd
  have hk := congrArg UInt32.toNat ((UInt32.add_right_inj _).mp heq)
  rw [UInt32.toNat_ofNat_of_lt' hw, UInt32.toNat_ofNat_of_lt' hd] at hk
  omega

section Call

variable {target : Identity} {payload : Octets} {frame : Frame} {address : Address}
  {late : Datagram → Prop} {queue datagrams : List Datagram}

-- What is heard under the nonce of a call answers what the call asks.
theorem fulfils (ha : call.asks) (hr : c.sentSince (c.step call).2 = [request])
    (hm : (frame, address) ∈ c.heard queue) (hn : frame.nonce = c.drawNonce.1) :
    ∃ d ∈ queue, d.peer = address ∧ c.Fulfils call frame.kind frame.link.source d frame := by
  have ⟨d, hq, hp, hears⟩ := exists_of_mem_heard hm
  have hw := slice_step ha (hr ▸ List.mem_singleton_self request)
  have echoes : Echoes request d.octets := by
    rw [Echoes, Frame.slice_nonce hears.decodes, hn, hw]
  exact ⟨d, hq, hp, hears, rfl, rfl, hn, request, hr, echoes⟩

theorem pong_of_ping (h : (c.ping target payload).1 = .ok true) :
    ∃ d ∈ c.socket.arrivals, ∃ frame, c.Fulfils (.ping target payload) .pong target d frame := by
  rw [ping_eq] at h
  have ⟨answered, request, hr⟩ := ask_ok h
  rw [← ping_eq] at hr
  have hr : c.sentSince (c.step (.ping target payload)).2 = [request] := hr
  have answered : (c.awaitPong target c.drawNonce.1 c.socket.arrivals).1 = true :=
    Except.ok.inj answered
  rw [(c.awaitPong_eq ..).left, List.any_eq_true] at answered
  have ⟨⟨frame, address⟩, hm, hp⟩ := answered
  obtain ⟨hk, hn, rfl⟩ := isPong_iff.mp hp
  have ⟨d, hq, _, fulfils⟩ := fulfils rfl hr hm hn
  exact ⟨d, hq, frame, hk ▸ fulfils⟩

theorem status_of_discover {found : List Discovered} {server : Discovered}
    (h : c.discover.1 = .ok found) (hs : server ∈ found) :
    ∃ d ∈ c.socket.arrivals, d.peer = server.address ∧
      ∃ frame, c.Fulfils .discover .statusResponse server.identity d frame ∧
        DisplayState.decode frame.payload = .ok server.state := by
  rw [discover_eq] at h
  have ⟨answered, request, hr⟩ := ask_ok h
  rw [← discover_eq] at hr
  have hr : c.sentSince (c.step .discover).2 = [request] := hr
  rw [(c.collect_eq ..).left] at answered
  have ⟨frame, hm, hk, hn, hi, decoded⟩ := (exists_of_mem_gather answered hs).resolve_left nofun
  have ⟨d, hq, hp, fulfils⟩ := fulfils rfl hr hm hn
  exact ⟨d, hq, hp, frame, hk ▸ hi ▸ fulfils, decoded⟩

-- A call answers the same if what is heard under its nonce is the same.
theorem answer_congr (ha : call.asks)
    (h : c.heardUnder c.drawNonce.1 queue = c.heardUnder c.drawNonce.1 c.socket.arrivals) :
    ((c.awaiting queue).step call).1 = (c.step call).1 := by
  cases call
  case discover =>
    rw [step, step, Prod.map_fst, Prod.map_fst, discover_awaiting, discover_eq c]
    refine congrArg _ (ask_congr ?_)
    rw [collect_under, collect_under, h]
  case ping =>
    rw [step, step, Prod.map_fst, Prod.map_fst, ping_awaiting, ping_eq c]
    refine congrArg _ (ask_congr ?_)
    rw [listenForPong, listenForPong, Prod.map_fst, Prod.map_fst, awaitPong_under,
      awaitPong_under, h]
  all_goals contradiction

-- A call takes no notice of what carries other nonces than the one that it draws.
theorem attributes (hd : c.socket.arrivals ⊆ datagrams)
    (fresh : call.asks → ∀ d, late d →
      ∀ frame, Frame.ofOctets d.octets = .ok frame → frame.nonce ≠ c.drawNonce.1) :
    c.Attributes late datagrams call := by
  have not_late {kind source d frame} (ha : call.asks) (h : c.Fulfils call kind source d frame) :
      ¬ late d := fun hl => fresh ha d hl frame h.hears.decodes h.nonce
  constructor
  case pong =>
    intro target payload hc h
    subst hc
    have ⟨d, hq, frame, fulfils⟩ := pong_of_ping (Answer.pinged.inj h)
    exact ⟨d, hd hq, not_late rfl fulfils, frame, fulfils⟩
  case status =>
    intro found hc h server hs
    subst hc
    have ⟨d, hq, hp, frame, fulfils, decoded⟩ := status_of_discover (Answer.discovered.inj h) hs
    exact ⟨d, hd hq, not_late rfl fulfils, hp, frame, fulfils, decoded⟩
  case others =>
    intro ha keep hk
    refine answer_congr ha (heardUnder_filter (fun d hd found hf => ?_) _)
    cases hk d hd
    case inl hl => exact fresh ha d hl found.1 (hears_of_frameFor? hf).left.decodes
    case inr hn => rw [hn.frameFor?] at hf; contradiction

end Call

-- In a run that does not use up the nonces, no call takes for an answer what answers an earlier
-- one, and what is not for the client at all leaves no trace. Servers do repeat the nonce of a
-- request, both in what is built as a reply to it and in all that an engine sends upon it.
theorem replies_attributed (c : Client) (events : List Event) (h : draws events < UInt32.size) :
    (∀ before call after, events = before ++ call :: after →
      (c.run before).Attributes (c.Late before) (c.delivered before) call) ∧
    (∀ keep : Datagram → Bool, (∀ d, keep d = false → c.Foreign d) →
      c.answers (events.map (·.sift keep)) = c.answers events) ∧
    (∀ {limit raw template buffer own ethertype kind payload length after},
      Received.parseUpTo limit raw = .ok template →
      buildReply buffer template own ethertype kind payload = (.ok length, after) →
      Echoes raw (after.take length)) ∧
    (∀ {σ : Type} [Host σ] {e : Engine σ} {raw t}, e.Reachable → t ∈ e.handed [.dispatch raw] →
      Echoes raw t.frame) := by
  refine ⟨?calls, ?sifted, echoes_buildReply, Engine.echoes_dispatch⟩
  case sifted =>
    exact fun keep hk => answers_sift (fun d hd => (hk d hd).frameFor?) ⟨rfl, rfl⟩ events
  case calls =>
    intro before call after he
    refine attributes (fun _ => mem_delivered) fun ha d late frame decodes => ?_
    have draws_call : call.draws := by
      cases call <;> first | rfl | contradiction
    rw [he, draws, List.countP_append, List.countP_cons_of_pos draws_call] at h
    exact late.nonce_ne (by rw [draws]; omega) decodes

namespace Sample

def target : Identity :=
  Engine.Sample.bench.identity

def pong (nonce : UInt32) : Datagram :=
  ⟨Engine.Sample.client.server,
    (Frame.mk ⟨Engine.Sample.station, target, defaultEthertype⟩ nonce .pong []).encode⟩

def stray : Datagram :=
  ⟨Engine.Sample.client.server, [0x7b, 0x6e]⟩

def ping : Event :=
  .ping target []

-- A ping goes unanswered. Its answer comes twice while the next one is under way.
def delayed : List Event :=
  [ping, .arrive [pong 1, stray, pong 1, pong 2]]

def expected (d : Datagram) : Bool :=
  d ≠ pong 1 ∧ d ≠ stray

theorem late_pong : Engine.Sample.client.Late delayed (pong 1) :=
  ⟨(Frame.mk ⟨target, Engine.Sample.station, defaultEthertype⟩ 1 .ping []).encode,
    by decide +kernel, rfl⟩

theorem foreign_stray (c : Client) : c.Foreign stray :=
  .undecodable nofun

theorem late_or_foreign (c : Client) {d : Datagram} (h : expected d = false) :
    Engine.Sample.client.Late delayed d ∨ c.Foreign d := by
  by_cases hp : d = pong 1
  case pos => exact .inl (hp ▸ late_pong)
  case neg =>
    have hs : d = stray := by simpa [expected, hp] using h
    exact .inr (hs ▸ foreign_stray c)

end Sample

theorem replies_attributed_delayed :
    let c := Engine.Sample.client
    let c' := c.run Sample.delayed
    let events := Sample.delayed ++ [Sample.ping, Sample.ping]
    draws events < UInt32.size ∧
      c.answers events = [.pinged (.ok false), .none, .pinged (.ok true), .pinged (.ok false)] ∧
      (∃ d ∈ c.delivered Sample.delayed, ¬ c.Late Sample.delayed d ∧
        ∃ frame, c'.Fulfils Sample.ping .pong Sample.target d frame) ∧
      c'.socket.arrivals.filter Sample.expected = [Sample.pong 2] ∧
      ((c'.awaiting [Sample.pong 2]).step Sample.ping).1 = (c'.step Sample.ping).1 := by
  have hd : draws (Sample.delayed ++ [Sample.ping, Sample.ping]) < UInt32.size := by
    decide
  have attributes := (replies_attributed Engine.Sample.client _ hd).left Sample.delayed Sample.ping
    [Sample.ping] rfl
  have arrivals : (Engine.Sample.client.run Sample.delayed).socket.arrivals.filter Sample.expected
      = [Sample.pong 2] := by decide +kernel
  have others := attributes.others rfl Sample.expected fun _ => Sample.late_or_foreign _
  rw [arrivals] at others
  exact ⟨hd, rfl, attributes.pong _ _ rfl rfl, arrivals, others⟩

end RemoteScreen.Client

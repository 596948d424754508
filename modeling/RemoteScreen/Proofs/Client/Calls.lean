import RemoteScreen.Proofs.Client.Hearing
import RemoteScreen.Proofs.Frame.Fields

namespace RemoteScreen

theorem Frame.eq_of_make {link : LinkHeader} {nonce : UInt32} {kind : MessageKind}
    {payload : Octets} {f : Frame} (h : make link nonce kind payload = .ok f) :
    f = ⟨link, nonce, kind, payload⟩ := by
  rw [make] at h
  split at h
  case isTrue  => contradiction
  case isFalse => exact (Except.ok.inj h).symm

theorem Codec.eq_of_encode {codec : Codec} {f : Frame} {buffer octets : Octets}
    (h : codec.encode f buffer = .ok octets) : octets = buffer ++ f.encode := by
  rw [encode] at h
  split at h
  case isTrue  => contradiction
  case isFalse => exact (Except.ok.inj h).symm

namespace Client

variable {α : Type} {c c' : Client} {destination target : Identity} {kind : MessageKind}
  {nonce : UInt32} {payload : Octets} {queue : List Datagram} {event : Event}

-- What a client puts on the network when it sends, unless something forbids it.
def posted (c : Client) (destination : Identity) (kind : MessageKind) (nonce : UInt32)
    (payload : Octets) : Except Fault Datagram :=
  match Frame.make ⟨destination, c.identity, c.ethertype⟩ nonce kind payload with
  | .error fault => .error fault
  | .ok frame =>
    match c.codec.encode frame [] with
    | .error fault => .error fault
    | .ok octets   =>
      match c.socket.network.refusal? with
      | some cause => .error (.transmission cause)
      | none       => .ok ⟨c.addressOf destination, octets⟩

def posting (c : Client) : Except Fault Datagram → Client
  | .error _     => c
  | .ok datagram => { c with socket.sent := c.socket.sent ++ [datagram] }

theorem send_eq (c : Client) (destination : Identity) (kind : MessageKind) (nonce : UInt32)
    (payload : Octets) :
    c.send destination kind nonce payload =
      ((c.posted destination kind nonce payload).map fun _ => (),
        c.posting (c.posted destination kind nonce payload)) := by
  rw [send, posted]
  cases Frame.make ⟨destination, c.identity, c.ethertype⟩ nonce kind payload
  case error => rfl
  case ok frame =>
    simp only
    cases c.codec.encode frame []
    case error => rfl
    case ok octets =>
      simp only [Socket.send]
      cases c.socket.network.refusal? <;> rfl

theorem slice_posted {datagram : Datagram}
    (h : c.posted destination kind nonce payload = .ok datagram) :
    datagram.octets.slice 18 4 = Octets.ofWord32 nonce := by
  rw [posted] at h
  split at h
  case h_1 => contradiction
  case h_2 frame hm =>
    split at h
    case h_1 => contradiction
    case h_2 octets he =>
      split at h
      case h_1 => contradiction
      case h_2 =>
        cases h
        rw [Codec.eq_of_encode he, Frame.eq_of_make hm]
        exact Octets.slice_nonce ..

-- Draws a nonce, sends a request under it, and looks through the queue for what answers it.
def ask (c : Client) (destination : Identity) (kind : MessageKind) (payload : Octets)
    (listen : List Datagram → Except Fault α × List Datagram) : Except Fault α × Client :=
  let (nonce, c) := c.drawNonce
  match c.posted destination kind nonce payload with
  | .error fault => (.error fault, c)
  | .ok datagram =>
    ((listen c.socket.arrivals).1,
      (c.posting (.ok datagram)).awaiting (listen c.socket.arrivals).2)

theorem discover_eq (c : Client) :
    c.discover = c.ask .broadcast .statusRequest [] (c.collect c.drawNonce.1 []) := by
  rw [discover, ask]
  simp only [send_eq]
  cases (c.drawNonce.2.posted ..)
  case error => rfl
  case ok datagram =>
    have hf : (c.drawNonce.2.posting (.ok datagram)).frameFor? = c.frameFor? :=
      frameFor?_congr rfl rfl
    simp only [Except.map, collect_congr hf]
    rfl

-- Nothing that a ping finds in the queue is a fault.
def listenForPong (c : Client) (target : Identity) (nonce : UInt32) (queue : List Datagram) :
    Except Fault Bool × List Datagram :=
  (c.awaitPong target nonce queue).map .ok id

theorem listenForPong_congr (h : c'.frameFor? = c.frameFor?) :
    c'.listenForPong target nonce = c.listenForPong target nonce := by
  funext queue
  rw [listenForPong, awaitPong_congr h, listenForPong]

theorem ping_eq (c : Client) (target : Identity) (payload : Octets) :
    c.ping target payload
      = c.ask target .ping payload (c.listenForPong target c.drawNonce.1) := by
  rw [ping, ask]
  simp only [send_eq]
  cases (c.drawNonce.2.posted ..)
  case error => rfl
  case ok datagram =>
    have hf : (c.drawNonce.2.posting (.ok datagram)).frameFor? = c.frameFor? :=
      frameFor?_congr rfl rfl
    simp only [Except.map, listenForPong, awaitPong_congr hf]
    rfl

theorem discover_awaiting (c : Client) (queue : List Datagram) :
    (c.awaiting queue).discover
      = (c.awaiting queue).ask .broadcast .statusRequest [] (c.collect c.drawNonce.1 []) := by
  have hf : (c.awaiting queue).frameFor? = c.frameFor? := rfl
  rw [discover_eq, collect_congr hf]
  rfl

theorem ping_awaiting (c : Client) (queue : List Datagram) (target : Identity)
    (payload : Octets) :
    (c.awaiting queue).ping target payload
      = (c.awaiting queue).ask target .ping payload (c.listenForPong target c.drawNonce.1) := by
  have hf : (c.awaiting queue).frameFor? = c.frameFor? := rfl
  rw [ping_eq, listenForPong_congr hf]
  rfl

-- What becomes of a request is settled before anything in the queue is looked at.
theorem ask_cases (c : Client) (destination : Identity) (kind : MessageKind) (payload : Octets) :
    (∃ fault, ∀ {α : Type} (listen : List Datagram → Except Fault α × List Datagram) queue,
      (c.awaiting queue).ask destination kind payload listen
        = (.error fault, c.drawNonce.2.awaiting queue)) ∨
    ∃ request : Datagram, request.octets.slice 18 4 = Octets.ofWord32 c.drawNonce.1 ∧
      ∀ {α : Type} (listen : List Datagram → Except Fault α × List Datagram) queue,
      (c.awaiting queue).ask destination kind payload listen
        = ((listen queue).1,
          (c.drawNonce.2.posting (.ok request)).awaiting (listen queue).2) := by
  have hq : ∀ queue, (c.awaiting queue).drawNonce.2.posted destination kind
      (c.awaiting queue).drawNonce.1 payload
        = c.drawNonce.2.posted destination kind c.drawNonce.1 payload := fun _ => rfl
  cases hp : c.drawNonce.2.posted destination kind c.drawNonce.1 payload
  case error fault =>
    refine .inl ⟨fault, fun listen queue => ?_⟩
    simp only [ask, hq, hp]
    rfl
  case ok request =>
    refine .inr ⟨request, slice_posted hp, fun listen queue => ?_⟩
    simp only [ask, hq, hp]
    rfl

theorem ask_congr {listen : List Datagram → Except Fault α × List Datagram}
    (h : (listen queue).1 = (listen c.socket.arrivals).1) :
    ((c.awaiting queue).ask destination kind payload listen).1
      = (c.ask destination kind payload listen).1 := by
  change _ = ((c.awaiting c.socket.arrivals).ask ..).1
  obtain ⟨_, ha⟩ | ⟨_, _, ha⟩ := c.ask_cases destination kind payload <;> rw [ha, ha]
  exact h

-- What a client goes by in telling frames for it from others stays, and nonces are drawn in order.
structure Moves (c : Client) (drawn : Nat) (c' : Client) : Prop where
  identity  : c'.identity = c.identity
  ethertype : c'.ethertype = c.ethertype
  nonce     : c'.nonce = c.nonce + UInt32.ofNat drawn

theorem Moves.trans {c₁ c₂ c₃ : Client} {m n : Nat} (h : c₁.Moves m c₂) (h' : c₂.Moves n c₃) :
    c₁.Moves (m + n) c₃ where
  identity  := h'.identity.trans h.identity
  ethertype := h'.ethertype.trans h.ethertype
  nonce     := by rw [h'.nonce, h.nonce, UInt32.ofNat_add, UInt32.add_assoc]

theorem moves_send (c : Client) (destination : Identity) (kind : MessageKind) (nonce : UInt32)
    (payload : Octets) : c.Moves 0 (c.send destination kind nonce payload).2 := by
  rw [send_eq]
  cases c.posted destination kind nonce payload <;> exact ⟨rfl, rfl, (UInt32.add_zero _).symm⟩

theorem moves_sendBatches (c : Client) (target : Identity) (nonce : UInt32)
    (batches : List (List Keystroke)) : c.Moves 0 (c.sendBatches target nonce batches).2 := by
  induction batches generalizing c
  case nil => exact ⟨rfl, rfl, (UInt32.add_zero _).symm⟩
  case cons batch rest hi =>
    have now := c.moves_send target .injectKeystroke nonce (Keystroke.encodeAll batch)
    rw [sendBatches]
    split <;> rename_i hs <;> rw [hs] at now
    · exact now
    · exact now.trans (hi _)

theorem moves_ask (c : Client) (destination : Identity) (kind : MessageKind) (payload : Octets)
    (listen : List Datagram → Except Fault α × List Datagram) :
    c.Moves 1 (c.ask destination kind payload listen).2 := by
  change c.Moves 1 ((c.awaiting c.socket.arrivals).ask destination kind payload listen).2
  obtain ⟨_, h⟩ | ⟨_, _, h⟩ := c.ask_cases destination kind payload <;> rw [h]
  all_goals exact ⟨rfl, rfl, rfl⟩

theorem sendKeys_eq (c : Client) (target : Identity) (nonce : UInt32) (keys : List Keystroke) :
    c.sendKeys target nonce keys =
      ((c.sendBatches target nonce (batches keys)).1.map fun _ => (batches keys).length,
        (c.sendBatches target nonce (batches keys)).2) := by
  rw [sendKeys]
  split <;> rename_i hs <;> rw [hs] <;> rfl

theorem moves_step (c : Client) (event : Event) :
    c.Moves (if event.draws then 1 else 0) (c.step event).2 := by
  cases event
  case arrive | change | setServer | receive => exact ⟨rfl, rfl, (UInt32.add_zero _).symm⟩
  case drawNonce                             => exact ⟨rfl, rfl, rfl⟩
  case send                                  => exact c.moves_send ..
  case startSession target nonce             => exact c.moves_send target .sessionStart nonce []
  case sendKeys =>
    simp only [step, sendKeys_eq, Prod.map_snd]
    exact c.moves_sendBatches ..
  case discover =>
    simp only [step, discover_eq, Prod.map_snd]
    exact c.moves_ask ..
  case ping =>
    simp only [step, ping_eq, Prod.map_snd]
    exact c.moves_ask ..

theorem draws_cons (event : Event) (events : List Event) :
    draws (event :: events) = (if event.draws then 1 else 0) + draws events := by
  rw [draws, List.countP_cons, Nat.add_comm, draws]

theorem moves_run (c : Client) (events : List Event) : c.Moves (draws events) (c.run events) := by
  induction events generalizing c
  case nil => exact ⟨rfl, rfl, (UInt32.add_zero _).symm⟩
  case cons event rest hi =>
    rw [draws_cons]
    exact (c.moves_step event).trans (hi _)

end Client

end RemoteScreen

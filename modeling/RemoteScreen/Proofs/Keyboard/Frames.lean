import Mathlib.Data.List.Forall2
import RemoteScreen.Client
import RemoteScreen.Proofs.Engine.Typing

namespace RemoteScreen

-- The keys in a frame, whatever it is for.
def keysOf (raw : Octets) : List Keystroke :=
  match Received.parse raw with
  | .error _ => []
  | .ok frame => Keystroke.records frame.payload

theorem Received.parse_encode {f : Frame} (h : f.payload.length ≤ maxPayloadLength) :
    Received.parse f.encode = .ok {
      link    := f.link
      header  := .signed f.nonce (UInt16.ofNat f.payload.length) f.kind.number
      payload := f.payload
      length  := f.encode.length } := by
  have hl : f.payload.length < UInt16.size := Nat.lt_of_le_of_lt h (by decide)
  simp [Received.parse, Received.parseUpTo, Frame.encode, ProtocolHeader.validate,
    ProtocolHeader.signed, UInt16.toNat_ofNat_of_lt' hl, Nat.min_eq_left h]

theorem Keystroke.length_encodeAll (keys : List Keystroke) :
    (encodeAll keys).length = keys.length * keystrokeLength := by
  induction keys
  case nil => rfl
  case cons key rest hi =>
    rw [encodeAll, List.flatMap_cons, List.length_append, ← encodeAll, hi, List.length_cons,
      Nat.succ_mul, Nat.add_comm]
    rfl

namespace Client

@[simp]
theorem batches_nil : batches [] = [] := by
  rw [batches, dif_pos rfl]

theorem batches_cons {keys : List Keystroke} (h : keys ≠ []) :
    batches keys = keys.take keysPerFrame :: batches (keys.drop keysPerFrame) := by
  rw [batches, dif_neg h]

theorem batches_of_le {keys : List Keystroke} (h : keys ≠ []) (hl : keys.length ≤ keysPerFrame) :
    batches keys = [keys] := by
  rw [batches_cons h, List.take_of_length_le hl, List.drop_of_length_le hl, batches_nil]

theorem flatten_batches (keys : List Keystroke) : (batches keys).flatten = keys := by
  induction keys using batches.induct
  case case1 => rw [batches_nil]; rfl
  case case2 keys h hi => rw [batches_cons h, List.flatten_cons, hi, List.take_append_drop]

theorem length_of_mem_batches {keys batch : List Keystroke} (h : batch ∈ batches keys) :
    batch.length ≤ keysPerFrame := by
  induction keys using batches.induct
  case case1 => rw [batches_nil] at h; contradiction
  case case2 keys hk hi =>
    rw [batches_cons hk] at h
    cases h
    case head   => exact List.length_take_le ..
    case tail h => exact hi h

-- The frame in which a client sends a batch of keys.
def keyFrame (c : Client) (target : Identity) (nonce : UInt32) (batch : List Keystroke) :
    Frame where
  link    := ⟨target, c.identity, c.ethertype⟩
  nonce   := nonce
  kind    := .injectKeystroke
  payload := Keystroke.encodeAll batch

variable {c : Client} {target : Identity} {nonce : UInt32} {keys batch : List Keystroke}

theorem payload_keyFrame_le (h : batch.length ≤ keysPerFrame) :
    (c.keyFrame target nonce batch).payload.length ≤ maxPayloadLength := by
  rw [keyFrame, Keystroke.length_encodeAll]
  exact Nat.le_trans (Nat.mul_le_mul_right _ h) (by decide)

theorem encodedLength_keyFrame_le (h : batch.length ≤ keysPerFrame) :
    (c.keyFrame target nonce batch).encodedLength ≤ maxFrameLength := by
  have hp : (c.keyFrame target nonce batch).payload.length ≤ maxPayloadLength :=
    payload_keyFrame_le h
  rw [maxPayloadLength] at hp
  rw [Frame.encodedLength]
  have : headerLength ≤ maxFrameLength := by decide
  omega

-- What a client has sent since it was `c`.
def sentSince (c c' : Client) : List Octets :=
  (c'.socket.sent.drop c.socket.sent.length).map Datagram.octets

-- The socket takes a frame of keys, or the network refuses it.
theorem send_keys (h : batch.length ≤ keysPerFrame) (c : Client) (target : Identity)
    (nonce : UInt32) :
    c.send target .injectKeystroke nonce (Keystroke.encodeAll batch) =
      let sent := c.socket.send (c.addressOf target) (c.keyFrame target nonce batch).encode
      (sent.1, { c with socket := sent.2 }) := by
  let f := c.keyFrame target nonce batch
  have hp : f.payload.length ≤ maxPayloadLength := payload_keyFrame_le h
  have hf : Frame.make f.link nonce f.kind f.payload = .ok f := if_neg (Nat.not_lt.mpr hp)
  have hl : f.encodedLength ≤ maxFrameLength := encodedLength_keyFrame_le h
  have he : c.codec.encode f [] = .ok f.encode := if_neg (Nat.not_lt.mpr hl)
  have hm : Frame.make ⟨target, c.identity, c.ethertype⟩ nonce .injectKeystroke
      (Keystroke.encodeAll batch) = .ok f := hf
  rw [send, hm]
  simp only [he]
  rfl

-- The batches go out in order until one is refused.
theorem sent_sendBatches {batches : List (List Keystroke)}
    (h : ∀ batch ∈ batches, batch.length ≤ keysPerFrame) (c : Client) (target : Identity)
    (nonce : UInt32) :
    ∃ front, front <+: batches ∧
      (c.socket.network = .open → front = batches) ∧
      (c.sendBatches target nonce batches).2.socket.sent = c.socket.sent ++
        front.map fun batch =>
          ⟨c.addressOf target, (c.keyFrame target nonce batch).encode⟩ := by
  induction batches generalizing c
  case nil => exact ⟨[], List.nil_prefix, fun _ => rfl, (List.append_nil _).symm⟩
  case cons batch rest hi =>
    rw [sendBatches, send_keys (h batch (.head _))]
    simp only
    cases hn : c.socket.network.refusal?
    case some cause =>
      refine ⟨[], List.nil_prefix, fun ho => ?_, ?_⟩
      case refine_1 => rw [ho] at hn; contradiction
      case refine_2 => simp [Socket.send, hn]
    case none =>
      let datagram : Datagram := ⟨c.addressOf target, (c.keyFrame target nonce batch).encode⟩
      let after := { c with socket.sent := c.socket.sent ++ [datagram] }
      have ⟨front, hf, ho, hs⟩ := hi (fun b hb => h b (.tail _ hb)) after
      refine ⟨batch :: front, List.cons_prefix_cons.mpr ⟨rfl, hf⟩, ?_, ?_⟩
      case refine_1 => exact fun hc => congrArg (batch :: ·) (ho hc)
      case refine_2 =>
        simp only [Socket.send, hn]
        rw [hs, List.append_assoc]
        rfl

theorem sentSince_sendKeys (c : Client) (target : Identity) (nonce : UInt32)
    (keys : List Keystroke) :
    ∃ front, front <+: batches keys ∧ (c.socket.network = .open → front = batches keys) ∧
      c.sentSince (c.sendKeys target nonce keys).2
        = front.map fun batch => (c.keyFrame target nonce batch).encode := by
  have hb : ∀ batch ∈ batches keys, batch.length ≤ keysPerFrame :=
    fun _ => length_of_mem_batches
  have ⟨front, hf, ho, hs⟩ := sent_sendBatches hb c target nonce
  refine ⟨front, hf, ho, ?_⟩
  have hk : (c.sendKeys target nonce keys).2 = (c.sendBatches target nonce (batches keys)).2 := by
    rw [sendKeys]
    split <;> rename_i hb <;> rw [hb]
  rw [hk, sentSince, hs, List.drop_left, List.map_map]
  rfl

end Client

theorem keysOf_keyFrame {c : Client} {target : Identity} {nonce : UInt32} {batch : List Keystroke}
    (h : batch.length ≤ keysPerFrame) : keysOf (c.keyFrame target nonce batch).encode = batch := by
  rw [keysOf, Received.parse_encode (Client.payload_keyFrame_le h)]
  exact Keystroke.records_encodeAll batch

namespace Engine

variable {σ : Type} {e e' : Engine σ} {raw : Octets} {frame : Received}

theorem Asks.keysOf (h : e.Asks raw frame) : keysOf raw = Keystroke.records frame.payload := by
  rw [RemoteScreen.keysOf, h.admitted.parse]

-- Whether a frame asks for keys depends on nothing but what the engine goes by.
theorem Asks.congr (h : e.Asks raw frame) (hc : e'.control = e.control) : e'.Asks raw frame := by
  have ⟨ha, hl⟩ := h
  have ht : e'.config = e.config := congrArg Control.config hc
  have hi : e'.identity = e.identity := congrArg Control.identity hc
  have hs : e'.sessions = e.sessions := congrArg Control.sessions hc
  exact ⟨⟨ha.parse, ha.signature, ht ▸ ha.ethertype, hi ▸ ha.destination, ha.kind⟩, hs ▸ hl⟩

-- A live session's frame of keys asks for just these.
theorem asks_keyFrame {c : Client} {nonce : UInt32} {batch : List Keystroke}
    (hc : c.ethertype = e.config.ethertype) (hl : (e.sessions.find? c.identity nonce).isSome)
    (hb : batch.length ≤ keysPerFrame) :
    ∃ frame, e.Asks (c.keyFrame e.identity nonce batch).encode frame :=
  ⟨_, ⟨Received.parse_encode (Client.payload_keyFrame_le hb), rfl, hc, .inl rfl, rfl⟩, hl⟩

variable [Host σ]

-- Such a frame leaves everything that the engine goes by as it is.
theorem Asks.control_dispatch (h : e.Asks raw frame) : (e.dispatch raw).control = e.control := by
  rw [dispatch_control, start?, admits_iff.mp h.admitted]
  rfl

-- The frames among what an engine goes through.
def dispatched (events : List (Event σ)) : List Octets :=
  events.filterMap fun
    | .dispatch raw => some raw
    | _ => none

-- As long as there are only such frames and no ticks, the keys of every frame are typed in turn.
theorem types_run {events : List (Event σ)} (ht : ∀ event ∈ events, event ≠ .tick)
    (h : ∀ raw ∈ dispatched events, ∃ frame, e.Asks raw frame) :
    ∃ pieces : List (List Injection), e.Types pieces.flatten (e.run events) ∧
      List.Forall₂ (fun typed raw => Follows typed (RemoteScreen.keysOf raw)) pieces
        (dispatched events) := by
  induction events generalizing e
  case nil => exact ⟨[], .of_eq rfl, .nil⟩
  case cons event rest hi =>
    have ht' : ∀ event ∈ rest, event ≠ .tick := fun x hx => ht x (.tail _ hx)
    cases event
    case tick => exact absurd rfl (ht _ (.head _))
    case change host =>
      have hr : ∀ raw ∈ dispatched rest, ∃ frame, (e.step (.change host)).Asks raw frame :=
        fun raw hm => (h raw hm).imp fun _ ha => ha.congr rfl
      exact hi ht' hr
    case dispatch raw =>
      have ⟨frame, ha⟩ := h raw (.head _)
      have ⟨typed, hd, hf⟩ := ha.types
      have hr : ∀ raw' ∈ dispatched rest, ∃ frame, (e.step (.dispatch raw)).Asks raw' frame :=
        fun raw' hm => (h raw' (.tail _ hm)).imp fun _ h' => h'.congr ha.control_dispatch
      have ⟨pieces, hp, hs⟩ := hi ht' hr
      exact ⟨typed :: pieces, hd.trans hp, .cons (ha.keysOf ▸ hf) hs⟩

end Engine

end RemoteScreen

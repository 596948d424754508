import RemoteScreen.Proofs.Engine.Run
import RemoteScreen.Proofs.Frame.Headers
import RemoteScreen.Proofs.Session.Slots

namespace RemoteScreen

-- A payload holds these keys, one in every four octets, whatever is left over.
structure Keystroke.Fill (keys : List Keystroke) (payload : Octets) : Prop where
  count  : keys.length = payload.length / keystrokeLength
  placed : ∀ (n : Nat) (key : Keystroke), keys[n]? = some key →
    decode (payload.drop (n * keystrokeLength)) = .ok key

theorem Keystroke.fill_records (payload : Octets) : Fill (records payload) payload := by
  fun_induction records payload
  case case1 scanCode character high low rest hi =>
    refine ⟨?count, fun n key hn => ?placed⟩
    case count =>
      simp only [List.length_cons, hi.count, keystrokeLength]
      omega
    case placed =>
      cases n
      case zero =>
        cases hn
        rfl
      case succ n =>
        have hd : (n + 1) * keystrokeLength = n * keystrokeLength + 4 := Nat.succ_mul ..
        rw [hd]
        exact hi.placed n key hn
  case case2 payload h =>
    refine ⟨?count, by simp⟩
    match payload, h with
    | [], _ | [_], _ | [_, _], _ | [_, _, _], _ => simp [keystrokeLength]
    | a :: b :: c :: d :: rest, h => exact absurd rfl (h a b c d rest)

-- The counters after a handler that ended in this way.
def EngineStats.after (s : EngineStats) : Except Fault Unit → EngineStats
  | .error (.transmission _)   => { s with transmitErrors := s.transmitErrors + 1 }
  | .error (.tableFull _)      => { s with sessionsRejected := s.sessionsRejected + 1 }
  | .error (.unknownSession _) => { s with rejected := s.rejected + 1 }
  | .error _ | .ok ()          => s

variable {σ : Type} [Host σ]

-- The keyboard queue is handed the keys in turn until it refuses one.
inductive Presses : σ → List Keystroke → List Injection → Except Fault Unit → σ → Prop
  | done (host : σ) : Presses host [] [] (.ok ()) host
  | refused {host host' : σ} {key : Keystroke} {rest : List Keystroke} {fault : Fault} :
    Host.inject key host = (.error fault, host') →
    Presses host (key :: rest) [⟨key, .error fault⟩] (.error fault) host'
  | taken {host host' host'' : σ} {key : Keystroke} {rest : List Keystroke}
    {typed : List Injection} {outcome : Except Fault Unit} :
    Host.inject key host = (.ok (), host') → Presses host' rest typed outcome host'' →
    Presses host (key :: rest) (⟨key, .ok ()⟩ :: typed) outcome host''

namespace Engine

variable {e e' : Engine σ} {raw payload : Octets} {kind : MessageKind} {frame : Received}

-- Why a frame is turned away: there is not enough of it, or something in its headers is wrong.
inductive Foreign (e : Engine σ) : Octets → Prop
  | short {raw : Octets} : raw.length < headerLength → Foreign e raw
  | signature {link : LinkHeader} {header : ProtocolHeader} {body : Octets} :
    header.signature ≠ RemoteScreen.signature → Foreign e (link.encode ++ (header.encode ++ body))
  | ethertype {link : LinkHeader} {header : ProtocolHeader} {body : Octets} :
    link.ethertype ≠ e.config.ethertype → Foreign e (link.encode ++ (header.encode ++ body))
  | destination {link : LinkHeader} {header : ProtocolHeader} {body : Octets} :
    link.destination ≠ e.identity → link.destination ≠ .broadcast →
    Foreign e (link.encode ++ (header.encode ++ body))
  | kind {link : LinkHeader} {header : ProtocolHeader} {body : Octets} :
    7 < header.kind.toNat → Foreign e (link.encode ++ (header.encode ++ body))

omit [Host σ] in
theorem admits_of_not_foreign (h : ¬ e.Foreign raw) : ∃ kind frame, e.Admits raw kind frame := by
  have hl : headerLength ≤ raw.length := Nat.le_of_not_lt fun hl => h (.short hl)
  have ⟨link, header, body, hr⟩ := Received.exists_headers hl
  subst hr
  have signature : header.signature = RemoteScreen.signature :=
    Decidable.byContradiction fun hn => h (.signature hn)
  have ethertype : link.ethertype = e.config.ethertype :=
    Decidable.byContradiction fun hn => h (.ethertype hn)
  have destination : link.destination = e.identity ∨ link.destination = .broadcast :=
    Decidable.byContradiction fun hn =>
      h (.destination (fun hi => hn (.inl hi)) (fun hb => hn (.inr hb)))
  cases hk : MessageKind.ofNumber? header.kind
  case none => exact absurd (.kind <| MessageKind.ofNumber?_eq_none_iff.mp hk) h
  case some kind =>
    exact ⟨kind, _, Received.parseUpTo_eq_ok signature, signature, ethertype, destination, hk⟩

omit [Host σ] in
-- What a frame is taken for is what its headers say.
theorem Admits.headers {link : LinkHeader} {header : ProtocolHeader} {body : Octets}
    (h : e.Admits (link.encode ++ (header.encode ++ body)) kind frame) :
    frame.link = link ∧ frame.header = header := by
  have hp := h.parse
  rw [Received.parse] at hp
  by_cases hs : header.signature = RemoteScreen.signature
  case pos =>
    rw [Received.parseUpTo_eq_ok hs] at hp
    cases hp
    exact ⟨rfl, rfl⟩
  case neg =>
    rw [Received.parseUpTo_of_foreign hs] at hp
    contradiction

omit [Host σ] in
theorem Foreign.not_admits (h : e.Foreign raw) : ¬ e.Admits raw kind frame := by
  intro admits
  cases h
  case short hl =>
    have hp := admits.parse
    rw [Received.parse, Received.parseUpTo_of_short hl] at hp
    contradiction
  case signature hn      => exact hn <| admits.headers.right ▸ admits.signature
  case ethertype hn      => exact hn <| admits.headers.left ▸ admits.ethertype
  case destination hi hb => exact (admits.headers.left ▸ admits.destination).elim hi hb
  case kind hn =>
    have hk := admits.kind
    rw [admits.headers.right, MessageKind.ofNumber?_eq_none_iff.mpr hn] at hk
    contradiction

theorem Foreign.dispatch (h : e.Foreign raw) :
    e.dispatch raw = { e with stats.rejected := e.stats.rejected + 1 } := by
  cases ha : e.admitted? raw
  case none   => rw [Engine.dispatch, ha]; rfl
  case some a => exact absurd (admits_iff.mpr ha) h.not_admits

-- The engine after a handler that ended in this way.
def settle (e : Engine σ) (outcome : Except Fault Unit) : Engine σ :=
  { e with stats := e.stats.after outcome }

theorem Admits.dispatch (h : e.Admits raw kind frame) :
    e.dispatch raw =
      (e.countProcessed.route kind frame).2.settle (e.countProcessed.route kind frame).1 := by
  rw [Engine.dispatch, admits_iff.mp h]
  simp only
  generalize e.countProcessed.route kind frame = result
  obtain ⟨outcome, e'⟩ := result
  cases outcome
  case ok          => rfl
  case error fault => cases fault <;> rfl

-- One frame goes out, to where the other came from, and all that is counted is how that ended.
def Replies (e : Engine σ) (frame : Received) (kind : MessageKind) (payload : Octets)
    (e' : Engine σ) : Prop :=
  ∃ (filling : Nat) (buffer : Octets),
    let link := LinkHeader.mk frame.source e.identity e.config.ethertype
    let reply := (Frame.mk link frame.nonce kind payload).encode ++ Octets.zeros filling
    let outcome := (Host.transmit reply e.host).1
    e' = { e with
      host                  := (Host.transmit reply e.host).2
      buffer                := buffer
      journal.transmissions := e.journal.transmissions ++ [⟨reply, outcome⟩]
      stats                 := e.stats.after outcome }

theorem replies_answer (fits : headerLength + payload.length ≤ e.buffer.length)
    (frame : Received) (kind : MessageKind) (atLeast : Nat) :
    e.Replies frame kind payload ((e.answer frame kind payload atLeast).2.settle
      (e.answer frame kind payload atLeast).1) := by
  rw [answer_eq fits]
  exact ⟨_, _, rfl⟩

-- The session is refreshed in its slot, or made in the first empty one, or refused.
inductive Enrols (e : Engine σ) (frame : Received) : Engine σ → Prop
  | refreshed {i : Nat} : e.sessions.Holds i frame.source frame.nonce →
    Enrols e frame { e with
      sessions.slots :=
        e.sessions.slots.set i (some ⟨frame.source, frame.nonce, Host.now e.host⟩) }
  | created {i : Nat} : e.sessions.Lacks frame.source frame.nonce → e.sessions.Vacancy i →
    Enrols e frame { e with
      sessions.slots :=
        e.sessions.slots.set i (some ⟨frame.source, frame.nonce, Host.now e.host⟩)
      lastChecksum   := none }
  | refused : e.sessions.Lacks frame.source frame.nonce → e.sessions.Full →
    Enrols e frame { e with stats.sessionsRejected := e.stats.sessionsRejected + 1 }

theorem enrols_handleSessionStart (e : Engine σ) (frame : Received) :
    e.Enrols frame ((e.handleSessionStart frame).2.settle (e.handleSessionStart frame).1) := by
  rw [handleSessionStart]
  obtain ⟨i, holds, hs⟩ | ⟨i, lacks, vacancy, hs⟩ | ⟨lacks, full, hs⟩ :=
    e.sessions.start_cases frame.source frame.nonce (Host.now e.host) <;> rw [hs]
  case inl     => exact .refreshed holds
  case inr.inl => exact .created lacks vacancy
  case inr.inr => exact .refused lacks full

-- Keys are typed for a session only.
inductive Strikes (e : Engine σ) (frame : Received) : Engine σ → Prop
  | rejected : e.sessions.Lacks frame.source frame.nonce →
    Strikes e frame { e with stats.rejected := e.stats.rejected + 1 }
  | typed {i : Nat} {keys : List Keystroke} {typed : List Injection} {outcome : Except Fault Unit}
    {host : σ} :
    e.sessions.Holds i frame.source frame.nonce → Keystroke.Fill keys frame.payload →
    Presses e.host keys typed outcome host →
    Strikes e frame { e with
      host               := host
      journal.injections := e.journal.injections ++ typed
      stats              := { e.stats with
        keystrokes := e.stats.keystrokes
          + UInt64.ofNat (typed.countP fun i : Injection => succeeded i.outcome) }.after outcome }

theorem presses_injectAll (e : Engine σ) (keys : List Keystroke) :
    ∃ typed outcome host, Presses e.host keys typed outcome host ∧
      e.injectAll keys = (outcome, { e with
        host               := host
        journal.injections := e.journal.injections ++ typed
        stats.keystrokes   := e.stats.keystrokes
          + UInt64.ofNat (typed.countP fun i => succeeded i.outcome) }) := by
  induction keys generalizing e
  case nil => exact ⟨[], .ok (), e.host, .done _, by simp [injectAll]⟩
  case cons key rest hi =>
    rw [injectAll, inject]
    cases hr : Host.inject key e.host
    case mk outcome host =>
      cases outcome
      case error fault => exact ⟨_, _, _, .refused hr, by simp [succeeded]⟩
      case ok =>
        simp only [succeeded, if_true]
        obtain ⟨typed, outcome, host', hp, he⟩ := hi { e with
          host
          journal.injections := e.journal.injections ++ [⟨key, .ok ()⟩]
          stats.keystrokes   := e.stats.keystrokes + 1 }
        refine ⟨_, outcome, host', .taken hr hp, he.trans ?_⟩
        simp [succeeded, UInt64.add_assoc, UInt64.add_comm 1]

-- What comes of a frame of each kind, once it is counted.
def Effect (e : Engine σ) (frame : Received) (e' : Engine σ) : MessageKind → Prop
  | .noop | .pong | .statusResponse | .screenChunk => e' = e
  | .ping            => e.Replies frame .pong frame.payload e'
  | .statusRequest   => e.Replies frame .statusResponse (Host.display e.host).state.encode e'
  | .sessionStart    => e.Enrols frame e'
  | .injectKeystroke => e.Strikes frame e'

-- A whole frame of a kind that only servers send, under a nonce, perhaps with filling behind it.
def Repeats (nonce : UInt32) (t : Transmission) : Prop :=
  ∃ (f : Frame) (rest : Octets),
    f.kind.isServerOriginated ∧ f.nonce = nonce ∧ t.frame = f.encode ++ rest

-- A handler answers under the nonce of the frame that it handles, or not at all.
theorem Effect.hands {e' : Engine σ} {kind : MessageKind} (h : e.Effect frame e' kind) :
    ∃ ts, e.Hands ts e' ∧ ∀ t ∈ ts, Repeats frame.nonce t := by
  have nothing (ht : e'.journal.transmissions = e.journal.transmissions) :
      ∃ ts, e.Hands ts e' ∧ ∀ t ∈ ts, Repeats frame.nonce t :=
    ⟨[], .of_eq ht, nofun⟩
  have reply {answer : MessageKind} {payload : Octets} (hk : answer.isServerOriginated)
      (hr : e.Replies frame answer payload e') :
      ∃ ts, e.Hands ts e' ∧ ∀ t ∈ ts, Repeats frame.nonce t := by
    obtain ⟨_, _, rfl⟩ := hr
    refine ⟨_, rfl, fun t ht => ?_⟩
    cases List.mem_singleton.mp ht
    exact ⟨_, _, hk, rfl, rfl⟩
  cases kind
  case ping            => exact reply rfl h
  case statusRequest   => exact reply rfl h
  case sessionStart    => cases h <;> exact nothing rfl
  case injectKeystroke => cases h <;> exact nothing rfl
  all_goals exact nothing (congrArg (·.journal.transmissions) h)

theorem effect_route (room : maxFrameLength ≤ e.buffer.length)
    (hp : frame.payload.length ≤ maxPayloadLength) (kind : MessageKind) :
    e.Effect frame ((e.route kind frame).2.settle (e.route kind frame).1) kind := by
  have fits : headerLength + frame.payload.length ≤ e.buffer.length := by
    rw [maxPayloadLength, maxFrameLength, headerLength, linkHeaderLength, protocolHeaderLength] at *
    omega
  unfold route
  cases kind <;> simp only [MessageKind.requiresSession, Bool.false_eq_true, false_and, if_false]
  case ping          => exact replies_answer fits ..
  case statusRequest =>
    refine replies_answer ?_ ..
    rw [maxFrameLength] at room
    simp only [DisplayState.encode, List.length_cons, List.length_nil, headerLength,
      linkHeaderLength, protocolHeaderLength]
    omega
  case sessionStart  => exact enrols_handleSessionStart ..
  case injectKeystroke =>
    cases hl : e.sessions.find? frame.source frame.nonce
    case none   => exact .rejected <| SessionTable.find?_eq_none_iff.mp hl
    case some s =>
      obtain ⟨typed, outcome, host, hp, he⟩ := e.presses_injectAll (Keystroke.records frame.payload)
      obtain ⟨hm, hn⟩ := SessionTable.mem_of_find? hl
      obtain ⟨i, hi⟩ := SessionTable.mem_active.mp hm
      simp only [handleInject, he]
      exact .typed ⟨s, hi, hn⟩ (Keystroke.fill_records _) hp
  all_goals rfl

theorem Reachable.holds_frame (h : e.Reachable) : maxFrameLength ≤ e.buffer.length := by
  induction h
  case make hm =>
    rw [eq_of_make hm, Octets.length_zeros]
    exact Nat.le_max_right ..
  case step event _ hi => exact le_of_le_of_eq hi (continues_step _ event).room.symm

theorem effect_of_not_foreign (room : maxFrameLength ≤ e.buffer.length) {raw : Octets}
    (h : ¬ e.Foreign raw) : ∃ kind frame, e.Admits raw kind frame ∧
      { e with stats.processed := e.stats.processed + 1 }.Effect frame (e.dispatch raw) kind := by
  have ⟨kind, frame, admits⟩ := admits_of_not_foreign h
  refine ⟨kind, frame, admits, ?_⟩
  rw [admits.dispatch]
  have room : maxFrameLength ≤ e.countProcessed.buffer.length := room
  exact effect_route room (Received.length_payload_le admits.parse) kind

-- Every frame has one effect. No engine that can come about has a shorter buffer.
theorem dispatch_effect (room : maxFrameLength ≤ e.buffer.length) (raw : Octets) :
    (e.Foreign raw → e.dispatch raw = { e with stats.rejected := e.stats.rejected + 1 }) ∧
    (¬ e.Foreign raw → ∃ kind frame, e.Admits raw kind frame ∧
      { e with stats.processed := e.stats.processed + 1 }.Effect frame (e.dispatch raw) kind) :=
  ⟨Foreign.dispatch, effect_of_not_foreign room⟩

namespace Sample

-- A key and a quarter, typed for the session.
def keyed : Octets :=
  (Frame.mk ⟨bench.identity, station, defaultEthertype⟩ 7 .injectKeystroke
    [30, 97, 0, 0, 31]).encode

end Sample

theorem dispatch_effect_keyed :
    maxFrameLength ≤ Sample.engine.buffer.length ∧ ¬ Sample.engine.Foreign Sample.keyed ∧
      ∃ frame, { Sample.engine with stats.processed := Sample.engine.stats.processed + 1 }.Strikes
        frame (Sample.engine.dispatch Sample.keyed) := by
  have room : maxFrameLength ≤ Sample.engine.buffer.length := Sample.reachable.holds_frame
  have ha : (Sample.engine.admitted? Sample.keyed).map Prod.fst = some .injectKeystroke := by
    decide +kernel
  have ⟨⟨kind, frame⟩, ha, hk⟩ := Option.map_eq_some_iff.mp ha
  have known : ¬ Sample.engine.Foreign Sample.keyed := fun h => h.not_admits <| admits_iff.mpr ha
  have ⟨kind', frame', admits, effect⟩ := (dispatch_effect room Sample.keyed).right known
  have he := admits_iff.mp admits
  rw [ha] at he
  cases he
  subst hk
  exact ⟨room, known, frame, effect⟩

end Engine

end RemoteScreen

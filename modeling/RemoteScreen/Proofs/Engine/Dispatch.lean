import RemoteScreen.Proofs.Engine.Control

namespace RemoteScreen

-- The link was handed a whole frame of some kind other than a chunk.
def Transmission.IsReply (t : Transmission) : Prop :=
  ∃ (f : Frame) (rest : Octets), f.kind ≠ .screenChunk ∧ t.frame = f.encode ++ rest

-- Whatever is read is signed.
theorem Received.signature_of_parse {raw : Octets} {frame : Received}
    (h : Received.parse raw = .ok frame) : frame.header.signature = signature := by
  rw [parse, parseUpTo] at h
  split at h
  case h_1 => contradiction
  case h_2 =>
    split at h
    case h_1 => contradiction
    case h_2 header _ _ =>
      split at h
      case h_1 => contradiction
      case h_2 hv =>
        rw [ProtocolHeader.validate] at hv
        split at hv
        case isTrue hs  => exact (Except.ok.inj h) ▸ hs
        case isFalse    => contradiction

namespace Engine

variable {σ : Type} [Host σ] {e : Engine σ}

-- What makes a frame one that goes to a handler.
structure Admits (e : Engine σ) (raw : Octets) (kind : MessageKind) (frame : Received) : Prop where
  parse       : Received.parse raw = .ok frame
  signature   : frame.header.signature = RemoteScreen.signature
  ethertype   : frame.link.ethertype = e.config.ethertype
  destination : frame.link.destination = e.identity ∨ frame.link.destination = .broadcast
  kind        : MessageKind.ofNumber? frame.header.kind = some kind

omit [Host σ] in
theorem admits_iff {raw : Octets} {kind : MessageKind} {frame : Received} :
    e.Admits raw kind frame ↔ e.admitted? raw = some (kind, frame) := by
  constructor
  case mp =>
    intro h
    have hd : ¬ (frame.link.destination ≠ e.identity ∧ frame.link.destination ≠ .broadcast) :=
      fun hn => h.destination.elim hn.left hn.right
    rw [admitted?, h.parse]
    simp [h.ethertype, hd, h.kind]
  case mpr =>
    intro h
    rw [admitted?] at h
    split at h
    case h_1 => contradiction
    case h_2 received hp =>
      split at h
      case isTrue => contradiction
      case isFalse he =>
        split at h
        case isTrue => contradiction
        case isFalse hd =>
          have ⟨number, hk, hf⟩ := Option.map_eq_some_iff.mp h
          injection hf with hn hf
          subst hn hf
          have hs := Received.signature_of_parse hp
          refine ⟨hp, hs, Decidable.not_not.mp he, ?_, hk⟩
          exact (Decidable.not_and_iff_or_not.mp hd).imp Decidable.not_not.mp Decidable.not_not.mp

theorem control_answer (e : Engine σ) (frame : Received) (kind : MessageKind) (payload : Octets)
    (atLeast : Nat) : (e.answer frame kind payload atLeast).2.control = e.control := by
  have hl := length_buildReply e.buffer frame e.identity e.config.ethertype kind payload
  rw [answer]
  split
  all_goals
    rename_i h
    rw [h] at hl
    simp [control, transmit, hl]

-- A reply that fits goes out whole, with zeros behind it as far as more is asked for.
theorem answer_eq {payload : Octets} (fits : headerLength + payload.length ≤ e.buffer.length)
    (frame : Received) (kind : MessageKind) (atLeast : Nat) :
    let f := Frame.mk ⟨frame.source, e.identity, e.config.ethertype⟩ frame.nonce kind payload
    let room := e.buffer.length - f.encodedLength
    e.answer frame kind payload atLeast =
      { e with buffer := f.encode ++ Octets.zeros room }.transmit
        (f.encode ++ Octets.zeros (min (atLeast - f.encodedLength) room)) := by
  intro f room
  let length := max f.encodedLength atLeast
  have hf : f.encode.length ≤ length := by
    rw [Frame.length_encode]
    exact Nat.le_max_left ..
  have hl : length - f.encode.length = atLeast - f.encodedLength := by
    rw [Frame.length_encode]
    omega
  have hr : (f.encode ++ Octets.zeros room).take length
      = f.encode ++ Octets.zeros (min (atLeast - f.encodedLength) room) := by
    rw [List.take_append, List.take_of_length_le hf, hl]
    simp [Octets.zeros]
  rw [answer, buildReply_eq frame e.identity e.config.ethertype kind fits, ← hr]
  rfl

theorem hands_answer {kind : MessageKind} (hk : kind ≠ .screenChunk) (e : Engine σ)
    (frame : Received) (payload : Octets) (atLeast : Nat) :
    ∃ ts, e.Hands ts (e.answer frame kind payload atLeast).2 ∧
      ∀ t ∈ ts, t.IsReply := by
  by_cases fits : headerLength + payload.length ≤ e.buffer.length
  case pos =>
    rw [answer_eq fits]
    refine ⟨_, rfl, fun t ht => ?_⟩
    obtain rfl := List.mem_singleton.mp ht
    exact ⟨_, _, hk, rfl⟩
  case neg =>
    have hs := buildReply_of_short frame e.identity e.config.ethertype kind (Nat.lt_of_not_le fits)
    rw [answer]
    split
    case h_1   => exact ⟨[], .of_eq rfl, by simp⟩
    case h_2 h =>
      rw [h] at hs
      contradiction

theorem injectAll_spec (e : Engine σ) (keys : List Keystroke) :
    (e.injectAll keys).2.control = e.control ∧ e.Hands [] (e.injectAll keys).2 := by
  induction keys generalizing e <;> rw [injectAll]
  case nil => exact ⟨rfl, .refl _⟩
  case cons key rest hi =>
    split
    all_goals
      rename_i e' h
      have he : e' = (e.inject key).2 := by rw [h]
      subst he
    · exact ⟨rfl, e.hands_inject key⟩
    · exact ⟨(hi _).left, (e.hands_inject key).trans (hi _).right⟩

-- What a frame does to the session table: whether it starts a session or refreshes one, the frame
-- that names the session, and the table then.
def start? (e : Engine σ) (raw : Octets) :
    Option (SessionTable.Started × Received × SessionTable) :=
  match e.admitted? raw with
  | some (.sessionStart, frame) =>
    match e.sessions.start frame.source frame.nonce (Host.now e.host) with
    | .ok (started, sessions) => some (started, frame, sessions)
    | .error _ => none
  | _ => none

def Control.afterStart (c : Control) :
    Option (SessionTable.Started × Received × SessionTable) → Control
  | none => c
  | some (.created, _, sessions) => { c with sessions, lastChecksum := none }
  | some (.refreshed, _, sessions) => { c with sessions }

theorem route_control (e : Engine σ) {raw : Octets} {kind : MessageKind} {frame : Received}
    (h : e.admitted? raw = some (kind, frame)) :
    (e.route kind frame).2.control = e.control.afterStart (e.start? raw) := by
  rw [start?, h]
  unfold route
  cases kind <;> simp only [MessageKind.requiresSession, Bool.false_eq_true, false_and, if_false]
  case ping            => exact control_answer ..
  case statusRequest   => exact control_answer ..
  case injectKeystroke =>
    split
    · rfl
    · exact (injectAll_spec ..).left
  case sessionStart =>
    rw [handleSessionStart]
    split <;> rename_i hs <;> simp only [hs] <;> rfl
  all_goals rfl

theorem route_hands (e : Engine σ) (kind : MessageKind) (frame : Received) :
    ∃ ts, e.Hands ts (e.route kind frame).2 ∧ ∀ t ∈ ts, t.IsReply := by
  have none_handed {e' : Engine σ} (h : e.Hands [] e') :
      ∃ ts, e.Hands ts e' ∧ ∀ t ∈ ts, t.IsReply :=
    ⟨[], h, by simp⟩
  unfold route
  split
  · exact none_handed (.refl e)
  · cases kind
    case ping            => exact hands_answer (by decide) ..
    case statusRequest   => exact hands_answer (by decide) ..
    case injectKeystroke => exact none_handed (injectAll_spec ..).right
    case sessionStart =>
      apply none_handed
      simp only [handleSessionStart]
      split <;> exact .of_eq rfl
    all_goals exact none_handed (.refl e)

-- A frame changes nothing that the engine goes by but its session table, and on a new session the
-- checksum of the last pass is forgotten.
theorem dispatch_control (e : Engine σ) (raw : Octets) :
    (e.dispatch raw).control = e.control.afterStart (e.start? raw) := by
  rw [dispatch]
  split
  · rename_i h
    simp [start?, h, Control.afterStart]
  · rename_i kind frame h
    have ha : e.countProcessed.admitted? raw = some (kind, frame) := h
    have hr := e.countProcessed.route_control ha
    split <;> rename_i hk <;> rw [hk] at hr
    · exact hr
    · rw [control_countFault]
      exact hr

theorem dispatch_hands (e : Engine σ) (raw : Octets) :
    ∃ ts, e.Hands ts (e.dispatch raw) ∧ ∀ t ∈ ts, t.IsReply := by
  rw [dispatch]
  split
  · exact ⟨[], .of_eq rfl, by simp⟩
  · rename_i kind frame _
    have ⟨ts, hh, hr⟩ := route_hands e.countProcessed kind frame
    refine ⟨ts, ?_, hr⟩
    split <;> rename_i hk <;> rw [hk] at hh
    · exact hh
    · rw [← List.append_nil ts]
      exact hh.trans (hands_countFault ..)

end Engine

end RemoteScreen

import RemoteScreen.Proofs.Engine.Effect
import RemoteScreen.Proofs.Frame.Fields

namespace RemoteScreen

variable {raw : Octets}

-- The reply repeats the nonce of the request.
def Echoes (request reply : Octets) : Prop :=
  reply.slice 18 4 = request.slice 18 4

theorem Frame.slice_nonce_encode (f : Frame) (rest : Octets) :
    (f.encode ++ rest).slice 18 4 = Octets.ofWord32 f.nonce := by
  rw [encode, List.append_assoc, List.append_assoc]
  exact Octets.slice_nonce ..

theorem Received.slice_nonce {limit : Nat} {frame : Received}
    (h : parseUpTo limit raw = .ok frame) : raw.slice 18 4 = Octets.ofWord32 frame.nonce := by
  rw [parseUpTo] at h
  split at h
  case h_1 => contradiction
  case h_2 hl =>
    split at h
    case h_1 => contradiction
    case h_2 hp =>
      split at h
      case h_1 => contradiction
      case h_2 =>
        cases h
        rw [LinkHeader.eq_of_take? hl, ProtocolHeader.eq_of_take? hp]
        exact Octets.slice_nonce ..

theorem Frame.slice_nonce {f : Frame} (h : ofOctets raw = .ok f) :
    raw.slice 18 4 = Octets.ofWord32 f.nonce := by
  rw [ofOctets] at h
  split at h
  case h_1 => contradiction
  case h_2 hp =>
    split at h
    case h_1 => contradiction
    case h_2 =>
      cases h
      exact Received.slice_nonce hp

theorem echoes_buildReply {limit : Nat} {template : Received} {buffer payload after : Octets}
    {own : Identity} {ethertype : UInt16} {kind : MessageKind} {length : Nat}
    (hp : Received.parseUpTo limit raw = .ok template)
    (h : buildReply buffer template own ethertype kind payload = (.ok length, after)) :
    Echoes raw (after.take length) := by
  have fits := buildReply_fits h
  rw [buildReply_eq template own ethertype kind fits] at h
  cases h
  let f : Frame := ⟨⟨template.source, own, ethertype⟩, template.nonce, kind, payload⟩
  have hl : f.encode.length = headerLength + payload.length := f.length_encode
  rw [Echoes, ← hl, List.take_left, ← List.append_nil f.encode, Frame.slice_nonce_encode,
    Received.slice_nonce hp]

namespace Engine

variable {σ : Type} [Host σ] {e : Engine σ} {t : Transmission}

-- Whatever an engine hands the link for a frame repeats the frame's nonce.
theorem echoes_dispatch (reachable : e.Reachable) (h : t ∈ e.handed [.dispatch raw]) :
    Echoes raw t.frame := by
  by_cases hf : e.Foreign raw
  case pos =>
    have hh : e.Hands [] (e.run [.dispatch raw]) := by
      change e.Hands [] (e.dispatch raw)
      rw [hf.dispatch]
      exact .of_eq rfl
    rw [hh.handed] at h
    contradiction
  case neg =>
    have ⟨_, _, admits, effect⟩ := effect_of_not_foreign reachable.holds_frame hf
    have ⟨ts, hh, hr⟩ := effect.hands
    have hh : e.Hands ts (e.run [.dispatch raw]) := hh
    rw [hh.handed] at h
    have ⟨f, rest, _, hn, he⟩ := hr t h
    rw [Echoes, he, f.slice_nonce_encode, hn, Received.slice_nonce admits.parse]

end Engine

end RemoteScreen

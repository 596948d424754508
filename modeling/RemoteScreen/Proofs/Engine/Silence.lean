import RemoteScreen.Proofs.Engine.Effect
import RemoteScreen.Proofs.Mirror.Validity

namespace RemoteScreen

-- A whole frame of a kind that only servers send, perhaps with filling behind it.
def Transmission.IsServerOriginated (t : Transmission) : Prop :=
  ∃ (f : Frame) (rest : Octets), f.kind.isServerOriginated ∧ t.frame = f.encode ++ rest

-- Both headers of a frame as they are encoded.
def Frame.headers (f : Frame) : Octets :=
  f.link.encode ++
    (ProtocolHeader.signed f.nonce (UInt16.ofNat f.payload.length) f.kind.number).encode

theorem Frame.length_headers (f : Frame) : f.headers.length = headerLength :=
  rfl

theorem Frame.headers_prefix (f : Frame) (rest : Octets) : f.headers <+: f.encode ++ rest :=
  ⟨f.payload ++ rest, by simp [headers, encode]⟩

-- A frame that is cut off or filled up still begins with its headers, unless they are cut off too.
theorem Frame.headers_prefix_of_cut {f : Frame} {rest raw : Octets}
    (hl : headerLength ≤ raw.length) (h : raw <+: f.encode ++ rest ∨ f.encode ++ rest <+: raw) :
    f.headers <+: raw := by
  have hf := f.headers_prefix rest
  cases h
  case inl h => exact List.prefix_of_prefix_length_le hf h (f.length_headers ▸ hl)
  case inr h => exact hf.trans h

namespace Engine

variable {σ : Type} [Host σ] {e : Engine σ} {event : Event σ} {events : List (Event σ)}
  {t : Transmission}

-- The frame is counted, and that is all that comes of it.
structure Ignores (e : Engine σ) (raw : Octets) : Prop where
  foreign : e.Foreign raw → e.dispatch raw = { e with stats.rejected := e.stats.rejected + 1 }
  known   : ¬ e.Foreign raw → e.dispatch raw = { e with stats.processed := e.stats.processed + 1 }

theorem route_of_isServerOriginated {kind : MessageKind} (h : kind.isServerOriginated)
    (e : Engine σ) (frame : Received) : e.route kind frame = (.ok (), e) := by
  cases kind
  case pong           => rfl
  case statusResponse => rfl
  case screenChunk    => rfl
  all_goals contradiction

-- An engine takes a frame for what the headers in front say that it is.
theorem ignores_of_headers {f : Frame} {raw : Octets} (hk : f.kind.isServerOriginated)
    (h : headerLength ≤ raw.length → f.headers <+: raw) (e : Engine σ) : e.Ignores raw := by
  refine ⟨Foreign.dispatch, fun hn => ?known⟩
  have hl : headerLength ≤ raw.length := Nat.le_of_not_lt fun hl => hn (.short hl)
  have ⟨body, hb⟩ := h hl
  have ⟨kind, frame, admits⟩ := admits_of_not_foreign hn
  have hf : kind = f.kind := by
    rw [← hb, Frame.headers, List.append_assoc] at admits
    have ha := admits.kind
    rw [admits.headers.right, ProtocolHeader.signed, MessageKind.ofNumber?_number] at ha
    exact (Option.some.inj ha).symm
  rw [admits.dispatch, route_of_isServerOriginated (hf ▸ hk)]
  rfl

-- On the way from `e` to `e'` the link was handed nothing but what only servers send.
def Emits (e e' : Engine σ) : Prop :=
  ∃ ts, e.Hands ts e' ∧ ∀ t ∈ ts, t.IsServerOriginated

omit [Host σ] in
theorem Emits.of_eq {e' : Engine σ} (h : e'.journal.transmissions = e.journal.transmissions) :
    e.Emits e' :=
  ⟨[], .of_eq h, by simp⟩

variable {e' : Engine σ} {frame : Received} {kind : MessageKind}

-- A handler answers with what only servers send, or not at all.
theorem Effect.emits (h : e.Effect frame e' kind) : e.Emits e' :=
  have ⟨ts, hh, hr⟩ := h.hands
  ⟨ts, hh, fun t ht => have ⟨f, rest, hk, _, he⟩ := hr t ht; ⟨f, rest, hk, he⟩⟩

theorem emits_dispatch (room : maxFrameLength ≤ e.buffer.length) (raw : Octets) :
    e.Emits (e.dispatch raw) := by
  by_cases hf : e.Foreign raw
  case pos =>
    rw [hf.dispatch]
    exact .of_eq rfl
  case neg =>
    have ⟨_, _, _, effect⟩ := effect_of_not_foreign room hf
    have ⟨ts, hh, hs⟩ := effect.emits
    exact ⟨ts, hh, hs⟩

theorem emits_tick (room : e.HasRoom) : e.Emits e.tick.2 := by
  obtain rests | ⟨_, _, c, ts, s⟩ := rests_or_streams room rfl
  case inl => exact ⟨[], rests.hands, by simp⟩
  case inr =>
    refine ⟨ts, s.delivers.hands, fun t ht => ?_⟩
    have ⟨_, _, hf⟩ := s.exists_framed ht
    exact ⟨_, [], rfl, hf.trans (List.append_nil _).symm⟩

theorem emits_step (reachable : e.Reachable) (event : Event σ) : e.Emits (e.step event) := by
  cases event
  case dispatch raw => exact emits_dispatch reachable.holds_frame raw
  case tick         => exact emits_tick reachable.hasRoom
  case change       => exact .of_eq rfl

-- By induction on the events. Whatever the link is handed is handed to it in some event.
theorem originated_of_handed (reachable : e.Reachable) (h : t ∈ e.handed events) :
    t.IsServerOriginated := by
  induction events generalizing e
  case nil => rw [handed_nil] at h; contradiction
  case cons event rest hi =>
    rw [handed_cons, List.mem_append] at h
    cases h
    case inr h => exact hi (reachable.step event) h
    case inl h =>
      have ⟨ts, hh, hs⟩ := emits_step reachable event
      have hh : e.Hands ts (e.run [event]) := hh
      rw [hh.handed] at h
      exact hs t h

-- Nothing that an engine sends makes any engine do anything, in whatever state it gets there.
theorem emissions_ignored {config : EngineConfig} {host : σ} (h : make config host = .ok e)
    (ht : t ∈ e.handed events) {τ : Type} [Host τ] (peer : Engine τ) {raw : Octets}
    (hr : raw <+: t.frame ∨ t.frame <+: raw) : peer.Ignores raw := by
  have ⟨f, rest, hk, hf⟩ := originated_of_handed (.make h) ht
  rw [hf] at hr
  exact ignores_of_headers hk (fun hl => Frame.headers_prefix_of_cut hl hr) peer

namespace Sample

-- The engine of the station that the bench answers to.
def peer : Engine Bench :=
  { idle with identity := station }

-- The answer of the bench to a ping.
def pong : Octets :=
  (Frame.mk ⟨station, bench.identity, defaultEthertype⟩ 7 .pong []).encode

end Sample

-- An answer to a ping counts where it is sent to, with filling behind it as well as without.
theorem emissions_ignored_pong :
    ∃ t ∈ Sample.idle.handed [.dispatch (Sample.frame .ping)], t.frame = Sample.pong ∧
      ¬ Sample.peer.Foreign (t.frame ++ [1, 2, 3]) ∧
      Sample.peer.Ignores (t.frame ++ [1, 2, 3]) := by
  have made : make Sample.config Sample.bench = .ok Sample.idle := rfl
  have handed : (Sample.idle.handed [.dispatch (Sample.frame .ping)]).map Transmission.frame
      = [Sample.pong] := by
    decide +kernel
  have hp : Sample.pong ∈ [Sample.pong] := .head _
  rw [← handed] at hp
  have ⟨t, ht, hf⟩ := List.mem_map.mp hp
  have ha : (Sample.peer.admitted? (Sample.pong ++ [1, 2, 3])).map Prod.fst = some .pong := by
    decide +kernel
  have ⟨_, ha, _⟩ := Option.map_eq_some_iff.mp ha
  refine ⟨t, ht, hf, ?_, emissions_ignored made ht Sample.peer (.inr <| List.prefix_append ..)⟩
  rw [hf]
  exact fun foreign => foreign.not_admits (admits_iff.mpr ha)

end Engine

end RemoteScreen

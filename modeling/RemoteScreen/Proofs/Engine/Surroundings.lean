import RemoteScreen.Proofs.Engine.Effect
import RemoteScreen.Proofs.Engine.Typing

namespace RemoteScreen

variable {σ : Type} [Host σ] {P : σ → Prop} {host host' : σ}

@[simp]
theorem EngineStats.keystrokes_after (s : EngineStats) (outcome : Except Fault Unit) :
    (s.after outcome).keystrokes = s.keystrokes := by
  unfold after
  split <;> rfl

theorem Host.transmitAll_keeps (h : ∀ frame host, P host → P (Host.transmit frame host).2)
    (frames : List Octets) (hp : P host) : P (Host.transmitAll host frames).2 := by
  induction frames generalizing host
  case nil             => exact hp
  case cons frame _ hi => exact hi (h frame host hp)

theorem Presses.keeps {keys : List Keystroke} {typed : List Injection}
    {outcome : Except Fault Unit} (presses : Presses host keys typed outcome host')
    (h : ∀ key host, P host → P (Host.inject key host).2) (hp : P host) : P host' := by
  induction presses
  case done         => exact hp
  case refused hr    => exact (congrArg (fun r => P r.2) hr).mp (h _ _ hp)
  case taken hr _ hi => exact hi <| (congrArg (fun r => P r.2) hr).mp (h _ _ hp)

namespace Engine

variable {e e' : Engine σ} {raw : Octets} {frame : Received} {kind : MessageKind}

-- On the way from `e` to `e'` the world was handed frames at most.
structure OnlySends (e e' : Engine σ) : Prop where
  world      : ∃ frames, e'.host = (Host.transmitAll e.host frames).2
  keystrokes : e'.stats.keystrokes = e.stats.keystrokes
  injections : e'.journal.injections = e.journal.injections

theorem OnlySends.of_eq (hh : e'.host = e.host)
    (hk : e'.stats.keystrokes = e.stats.keystrokes)
    (hj : e'.journal.injections = e.journal.injections) : e.OnlySends e' :=
  ⟨⟨[], hh⟩, hk, hj⟩

theorem onlySends_sendChunk (e : Engine σ) (d : Display) : e.OnlySends (e.sendChunk d).2 := by
  by_cases h : headerLength + (chunkHeaderLength + e.nextRows d.state * d.state.rowLength)
      ≤ e.buffer.length
  case pos =>
    have ⟨_, _, hc⟩ := sendChunk_eq d h
    have ⟨_, _, hs⟩ := hc e.host
    have hs : e.sendChunk d = _ := hs
    rw [hs]
    exact ⟨⟨_, rfl⟩, rfl, rfl⟩
  case neg =>
    rw [sendChunk_of_short d (Nat.lt_of_not_le h)]
    exact .of_eq rfl rfl rfl

theorem onlySends_stream (e : Engine σ) (d : Display) : e.OnlySends (e.stream d).2 := by
  obtain ⟨_, _, hs⟩ | ⟨scanRow, lastChecksum, -, hs⟩ := e.stream_cases d <;> rw [hs]
  case inl => exact .of_eq rfl rfl rfl
  case inr =>
    have sends := onlySends_sendChunk { e with scanRow, lastChecksum } d
    exact ⟨sends.world, sends.keystrokes, sends.injections⟩

theorem onlySends_tick (e : Engine σ) : e.OnlySends e.tick.2 := by
  simp only [tick]
  split
  case isTrue => exact .of_eq rfl rfl rfl
  case isFalse =>
    have sends := e.reap.onlySends_stream (Host.display e.host)
    exact ⟨sends.world, sends.keystrokes, sends.injections⟩

theorem Replies.onlySends {answer : MessageKind} {payload : Octets}
    (h : e.Replies frame answer payload e') : e.OnlySends e' := by
  obtain ⟨filling, buffer, rfl⟩ := h
  exact ⟨⟨[_], rfl⟩, EngineStats.keystrokes_after .., rfl⟩

-- A frame does as little to the world as a tick, unless a session asks for keys with it.
theorem Effect.onlySends (h : e.Effect frame e' kind)
    (ha : kind = .injectKeystroke → e.sessions.Lacks frame.source frame.nonce) :
    e.OnlySends e' := by
  cases kind
  case ping            => exact Replies.onlySends h
  case statusRequest   => exact Replies.onlySends h
  case sessionStart    => cases h <;> exact .of_eq rfl rfl rfl
  case injectKeystroke =>
    cases h
    case rejected        => exact .of_eq rfl rfl rfl
    case typed holds _ _ => exact absurd holds (ha rfl _)
  all_goals exact h ▸ .of_eq rfl rfl rfl

theorem onlySends_dispatch (room : maxFrameLength ≤ e.buffer.length)
    (h : ∀ frame, ¬ e.Asks raw frame) : e.OnlySends (e.dispatch raw) := by
  by_cases hf : e.Foreign raw
  case pos =>
    rw [hf.dispatch]
    exact .of_eq rfl rfl rfl
  case neg =>
    have ⟨kind, frame, admits, effect⟩ := effect_of_not_foreign room hf
    have sends := effect.onlySends fun hk => by
      subst hk
      apply SessionTable.find?_eq_none_iff.mp
      exact Option.not_isSome_iff_eq_none.mp fun live => h frame ⟨admits, live⟩
    exact ⟨sends.world, sends.keystrokes, sends.injections⟩

theorem OnlySends.keeps (h : e.OnlySends e')
    (ht : ∀ frame host, P host → P (Host.transmit frame host).2) (hp : P e.host) : P e'.host :=
  have ⟨frames, hf⟩ := h.world
  hf ▸ Host.transmitAll_keeps ht frames hp

-- What neither the link nor the keyboard queue can change stays as it is, whatever comes in.
theorem Effect.keeps (h : e.Effect frame e' kind)
    (ht : ∀ frame host, P host → P (Host.transmit frame host).2)
    (hi : ∀ key host, P host → P (Host.inject key host).2) (hp : P e.host) : P e'.host := by
  cases kind
  case ping            => exact (Replies.onlySends h).keeps ht hp
  case statusRequest   => exact (Replies.onlySends h).keeps ht hp
  case sessionStart    => cases h <;> exact hp
  case injectKeystroke =>
    cases h
    case rejected          => exact hp
    case typed _ _ presses => exact presses.keeps hi hp
  all_goals exact congrArg Engine.host h ▸ hp

theorem dispatch_keeps (room : maxFrameLength ≤ e.buffer.length)
    (ht : ∀ frame host, P host → P (Host.transmit frame host).2)
    (hi : ∀ key host, P host → P (Host.inject key host).2) (raw : Octets) (hp : P e.host) :
    P (e.dispatch raw).host := by
  by_cases hf : e.Foreign raw
  case pos => rwa [hf.dispatch]
  case neg =>
    have ⟨_, _, _, effect⟩ := effect_of_not_foreign room hf
    exact effect.keeps ht hi hp

theorem tick_keeps (ht : ∀ frame host, P host → P (Host.transmit frame host).2)
    (hp : P e.host) : P e.tick.2.host :=
  e.onlySends_tick.keeps ht hp

end Engine

end RemoteScreen

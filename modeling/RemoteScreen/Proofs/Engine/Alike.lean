import RemoteScreen.Engine.Station
import RemoteScreen.Proofs.Engine.Typing
import RemoteScreen.Proofs.Pool.Circulation

namespace RemoteScreen

namespace Engine

variable {σ : Type} {e₁ e₂ e₁' e₂' : Engine σ}

-- Two engines that differ at most in what their buffers, of one length, still hold of frames before,
-- and in what was handed out before.
structure Alike (e₁ e₂ : Engine σ) : Prop where
  control : e₁.control = e₂.control
  host    : e₁.host = e₂.host
  stats   : e₁.stats = e₂.stats

theorem Alike.exists_eq (h : e₁.Alike e₂) :
    ∃ buffer journal, buffer.length = e₁.buffer.length ∧ e₂ = { e₁ with buffer, journal } := by
  have ⟨hc, hh, hs⟩ := h
  obtain ⟨_, _, _, _, _, _, buffer, _, journal⟩ := e₂
  simp only [Engine.control, Control.mk.injEq] at hc
  obtain ⟨rfl, rfl, rfl, rfl, rfl, hl⟩ := hc
  exact ⟨buffer, journal, hl.symm, by simp only [hh, hs]⟩

-- Out of two engines that were alike, two have come that are, by handing out the same.
structure Abreast (e₁ e₂ e₁' e₂' : Engine σ) : Prop where
  alike : e₁'.Alike e₂'
  hands : ∃ ts, e₁.Hands ts e₁' ∧ e₂.Hands ts e₂'
  types : ∃ typed, e₁.Types typed e₁' ∧ e₂.Types typed e₂'

theorem Abreast.of_alike (alike : e₁'.Alike e₂') (h₁ : e₁'.journal = e₁.journal)
    (h₂ : e₂'.journal = e₂.journal) : Abreast e₁ e₂ e₁' e₂' where
  alike := alike
  hands := ⟨[], .of_eq (congrArg _ h₁), .of_eq (congrArg _ h₂)⟩
  types := ⟨[], .of_eq (congrArg _ h₁), .of_eq (congrArg _ h₂)⟩

theorem Abreast.trans {e₁'' e₂'' : Engine σ} (h : Abreast e₁ e₂ e₁' e₂')
    (h' : Abreast e₁' e₂' e₁'' e₂'') : Abreast e₁ e₂ e₁'' e₂'' where
  alike := h'.alike
  hands :=
    have ⟨_, h₁, h₂⟩ := h.hands
    have ⟨_, h₁', h₂'⟩ := h'.hands
    ⟨_, h₁.trans h₁', h₂.trans h₂'⟩
  types :=
    have ⟨_, h₁, h₂⟩ := h.types
    have ⟨_, h₁', h₂'⟩ := h'.types
    ⟨_, h₁.trans h₁', h₂.trans h₂'⟩

-- Two operations of which each gives its answer, and the answers are the same.
structure Concurs {α : Type} (e₁ e₂ : Engine σ) (r₁ r₂ : α × Engine σ) : Prop where
  answer  : r₁.1 = r₂.1
  abreast : Abreast e₁ e₂ r₁.2 r₂.2

theorem Concurs.of_abreast {α : Type} {r₁ r₂ : α × Engine σ} (h : Abreast e₁ e₂ e₁' e₂')
    (h' : Concurs e₁' e₂' r₁ r₂) : Concurs e₁ e₂ r₁ r₂ :=
  ⟨h'.answer, h.trans h'.abreast⟩

namespace Alike

theorem refl (h : e₁.Alike e₂) : Abreast e₁ e₂ e₁ e₂ :=
  .of_alike h rfl rfl

theorem buffer (h : e₁.Alike e₂) {b₁ b₂ : Octets} (hl : b₁.length = b₂.length) :
    Abreast e₁ e₂ { e₁ with buffer := b₁ } { e₂ with buffer := b₂ } := by
  obtain ⟨_, _, _, rfl⟩ := h.exists_eq
  refine .of_alike ⟨?_, rfl, rfl⟩ rfl rfl
  simp [Engine.control, hl]

theorem count (h : e₁.Alike e₂) (count : EngineStats → EngineStats) :
    Abreast e₁ e₂ { e₁ with stats := count e₁.stats } { e₂ with stats := count e₂.stats } :=
  .of_alike ⟨h.control, h.host, congrArg count h.stats⟩ rfl rfl

theorem countFault (h : e₁.Alike e₂) (fault : Fault) :
    Abreast e₁ e₂ (e₁.countFault fault) (e₂.countFault fault) := by
  cases fault
  case tableFull      => exact h.count fun s => { s with sessionsRejected := s.sessionsRejected + 1 }
  case unknownSession => exact h.count fun s => { s with rejected := s.rejected + 1 }
  case transmission   => exact h.count fun s => { s with transmitErrors := s.transmitErrors + 1 }
  all_goals exact h.refl

variable [Host σ]

theorem transmit (h : e₁.Alike e₂) (frame : Octets) :
    Concurs e₁ e₂ (e₁.transmit frame) (e₂.transmit frame) := by
  obtain ⟨_, _, hl, rfl⟩ := h.exists_eq
  refine ⟨rfl, ⟨?_, rfl, rfl⟩, ⟨_, rfl, rfl⟩, ⟨[], .of_eq rfl, .of_eq rfl⟩⟩
  simp [Engine.control, Engine.transmit, hl]

theorem inject (h : e₁.Alike e₂) (key : Keystroke) :
    Concurs e₁ e₂ (e₁.inject key) (e₂.inject key) := by
  obtain ⟨_, _, hl, rfl⟩ := h.exists_eq
  refine ⟨rfl, ⟨?_, rfl, rfl⟩, ⟨[], .of_eq rfl, .of_eq rfl⟩, ⟨_, rfl, rfl⟩⟩
  simp [Engine.control, Engine.inject, hl]

theorem injectAll (h : e₁.Alike e₂) (keys : List Keystroke) :
    Concurs e₁ e₂ (e₁.injectAll keys) (e₂.injectAll keys) := by
  induction keys generalizing e₁ e₂
  case nil => exact ⟨rfl, h.refl⟩
  case cons key rest hi =>
    have hk := h.inject key
    simp only [Engine.injectAll]
    generalize e₁.inject key = r₁, e₂.inject key = r₂ at hk
    obtain ⟨outcome, e₁'⟩ := r₁
    obtain ⟨_, e₂'⟩ := r₂
    obtain ⟨rfl, abreast⟩ := hk
    cases outcome
    case error => exact ⟨rfl, abreast⟩
    case ok    => exact .of_abreast abreast (hi abreast.alike)

-- The buffer is cleared for every reply, so that behind the payload there is nothing but zeros.
theorem answer (h : e₁.Alike e₂) (frame : Received) (kind : MessageKind) (payload : Octets)
    (atLeast : Nat) :
    Concurs e₁ e₂ (e₁.answer frame kind payload atLeast) (e₂.answer frame kind payload atLeast) := by
  obtain ⟨buffer, journal, hl, rfl⟩ := h.exists_eq
  have hb₁ := length_buildReply e₁.buffer frame e₁.identity e₁.config.ethertype kind payload
  have hb₂ := length_buildReply buffer frame e₁.identity e₁.config.ethertype kind payload
  simp only [Engine.answer]
  by_cases hs : e₁.buffer.length < headerLength + payload.length
  case pos =>
    have h₁ := buildReply_of_short frame e₁.identity e₁.config.ethertype kind hs
    have h₂ := buildReply_of_short frame e₁.identity e₁.config.ethertype kind (hl ▸ hs)
    generalize buildReply e₁.buffer .. = r₁, buildReply buffer .. = r₂ at h₁ h₂ hb₁ hb₂
    obtain ⟨_, b₁⟩ := r₁
    obtain ⟨_, b₂⟩ := r₂
    obtain rfl := h₁
    obtain rfl := h₂
    exact ⟨by rw [hl], h.buffer <| hb₁.trans <| hl.symm.trans hb₂.symm⟩
  case neg =>
    have hs := Nat.le_of_not_lt hs
    rw [buildReply_eq frame _ _ kind hs, buildReply_eq frame _ _ kind (hl ▸ hs), hl]
    exact .of_abreast (h.buffer rfl) <| (h.buffer rfl).alike.transmit _

theorem handleSessionStart (h : e₁.Alike e₂) (frame : Received) :
    Concurs e₁ e₂ (e₁.handleSessionStart frame) (e₂.handleSessionStart frame) := by
  obtain ⟨_, _, hl, rfl⟩ := h.exists_eq
  simp only [Engine.handleSessionStart]
  split <;> exact ⟨rfl, .of_alike ⟨by simp [Engine.control, hl], rfl, rfl⟩ rfl rfl⟩

theorem route (h : e₁.Alike e₂) (kind : MessageKind) (frame : Received) :
    Concurs e₁ e₂ (e₁.route kind frame) (e₂.route kind frame) := by
  have hs : e₁.sessions = e₂.sessions := congrArg Control.sessions h.control
  unfold Engine.route
  rw [hs]
  split
  case isTrue => exact ⟨rfl, h.refl⟩
  case isFalse =>
    cases kind
    case ping            => exact h.answer ..
    case statusRequest   => simp only [handleStatusRequest, h.host]; exact h.answer ..
    case sessionStart    => exact h.handleSessionStart frame
    case injectKeystroke => exact h.injectAll _
    all_goals exact ⟨rfl, h.refl⟩

theorem dispatch (h : e₁.Alike e₂) (raw : Octets) :
    Abreast e₁ e₂ (e₁.dispatch raw) (e₂.dispatch raw) := by
  have ha : e₁.admitted? raw = e₂.admitted? raw := by
    obtain ⟨_, _, _, rfl⟩ := h.exists_eq
    rfl
  simp only [Engine.dispatch, ha]
  split
  case h_1 => exact h.count fun s => { s with rejected := s.rejected + 1 }
  case h_2 kind frame _ =>
    have counted := h.count fun s => { s with processed := s.processed + 1 }
    have routed := counted.alike.route kind frame
    change Concurs _ _ (e₁.countProcessed.route kind frame) (e₂.countProcessed.route kind frame)
      at routed
    generalize e₁.countProcessed.route kind frame = r₁, e₂.countProcessed.route kind frame = r₂
      at routed
    obtain ⟨outcome, e₁'⟩ := r₁
    obtain ⟨_, e₂'⟩ := r₂
    obtain ⟨rfl, abreast⟩ := routed
    have abreast := counted.trans abreast
    cases outcome
    case ok    => exact abreast
    case error => exact abreast.trans <| abreast.alike.countFault _

-- What is read from the display takes up all the room that there is for it in a chunk.
theorem sendChunk (h : e₁.Alike e₂) {d : Display} (fills : d.Fills) :
    Concurs e₁ e₂ (e₁.sendChunk d) (e₂.sendChunk d) := by
  obtain ⟨buffer, journal, hl, he⟩ := h.exists_eq
  have hr : e₂.nextRows d.state = e₁.nextRows d.state := he ▸ rfl
  have hl : e₂.buffer.length = e₁.buffer.length := he ▸ hl
  by_cases hs : headerLength + (chunkHeaderLength + e₁.nextRows d.state * d.state.rowLength)
      ≤ e₁.buffer.length
  case pos =>
    have ⟨b₁, hb₁, h₁⟩ := sendChunk_of_fills fills hs
    have ⟨b₂, hb₂, h₂⟩ := sendChunk_of_fills fills (e := e₂) (hr ▸ hl ▸ hs)
    have hb : b₁.length = b₂.length := hb₁.trans <| hl.symm.trans hb₂.symm
    rw [h₁, h₂, hr, he]
    refine ⟨rfl, ⟨?_, rfl, rfl⟩, ⟨_, rfl, rfl⟩, ⟨[], .of_eq rfl, .of_eq rfl⟩⟩
    simp [Engine.control, offered, hb]
  case neg =>
    have hs := Nat.lt_of_not_le hs
    rw [sendChunk_of_short d hs, sendChunk_of_short d (hr ▸ hl ▸ hs), hl, hr]
    exact ⟨rfl, h.refl⟩

omit [Host σ] in
theorem admitPass? (h : e₁.Alike e₂) (d : Display) :
    (e₁.admitPass? d = none ∧ e₂.admitPass? d = none) ∨
      ∃ e₁' e₂', e₁.admitPass? d = some e₁' ∧ e₂.admitPass? d = some e₂' ∧
        Abreast e₁ e₂ e₁' e₂' := by
  obtain ⟨_, _, hl, rfl⟩ := h.exists_eq
  simp only [Engine.admitPass?]
  split
  case isFalse => exact .inr ⟨_, _, rfl, rfl, h.refl⟩
  case isTrue =>
    split
    case isTrue  => exact .inl ⟨rfl, rfl⟩
    case isFalse =>
      exact .inr ⟨_, _, rfl, rfl, .of_alike ⟨by simp [Engine.control, hl], rfl, rfl⟩ rfl rfl⟩

omit [Host σ] in
theorem scan (h : e₁.Alike e₂) (scanRow : Nat) :
    Abreast e₁ e₂ { e₁ with scanRow } { e₂ with scanRow } := by
  obtain ⟨_, _, hl, rfl⟩ := h.exists_eq
  exact .of_alike ⟨by simp [Engine.control, hl], rfl, rfl⟩ rfl rfl

theorem stream (h : e₁.Alike e₂) {d : Display} (fills : d.Fills) :
    Concurs e₁ e₂ (e₁.stream d) (e₂.stream d) := by
  have hr : e₁.scanRow = e₂.scanRow := congrArg Control.scanRow h.control
  simp only [Engine.stream, hr]
  split
  case isTrue => exact ⟨rfl, h.scan 0⟩
  case isFalse =>
    split
    case isTrue => exact ⟨rfl, h.scan 0⟩
    case isFalse =>
      have scanned := h.scan (rowAfter d.state.rows.toNat e₂.scanRow)
      refine .of_abreast scanned ?_
      obtain ⟨h₁, h₂⟩ | ⟨e₁', e₂', h₁, h₂, admitted⟩ := scanned.alike.admitPass? d
      case inl =>
        simp only [h₁, h₂]
        exact ⟨rfl, scanned.alike.count fun s => { s with unchangedSkips := s.unchangedSkips + 1 }⟩
      case inr =>
        simp only [h₁, h₂]
        exact .of_abreast admitted <| admitted.alike.sendChunk fills

theorem reap (h : e₁.Alike e₂) : Abreast e₁ e₂ e₁.reap e₂.reap := by
  obtain ⟨_, _, hl, rfl⟩ := h.exists_eq
  exact .of_alike ⟨by simp [Engine.control, Engine.reap, hl], rfl, rfl⟩ rfl rfl

theorem tick (h : e₁.Alike e₂) (fills : (Host.display e₁.host).Fills) :
    Concurs e₁ e₂ e₁.tick e₂.tick := by
  have alike := h.reap.alike
  have hs : e₁.reap.sessions = e₂.reap.sessions := congrArg Control.sessions alike.control
  refine .of_abreast h.reap ?_
  simp only [Engine.tick, hs, ← alike.host]
  split
  case isTrue  => exact ⟨rfl, alike.scan 0⟩
  case isFalse => exact alike.stream fills

end Alike

end Engine

namespace Station

open Engine

variable {σ : Type} [Host σ] {s₁ s₂ s₁' s₂' : Station σ}

-- The same of two stations whose pools are one.
structure Abreast (s₁ s₂ s₁' s₂' : Station σ) : Prop where
  engine : Engine.Abreast s₁.engine s₂.engine s₁'.engine s₂'.engine
  pool   : s₁'.pool = s₂'.pool

omit [Host σ] in
theorem Abreast.trans {s₁'' s₂'' : Station σ} (h : Abreast s₁ s₂ s₁' s₂')
    (h' : Abreast s₁' s₂' s₁'' s₂'') : Abreast s₁ s₂ s₁'' s₂'' :=
  ⟨h.engine.trans h'.engine, h'.pool⟩

theorem abreast_drainUpTo (alike : s₁.engine.Alike s₂.engine) (pool : s₁.pool = s₂.pool)
    (budget : Nat) : Abreast s₁ s₂ (drainUpTo budget s₁).2 (drainUpTo budget s₂).2 := by
  induction budget generalizing s₁ s₂
  case zero => exact ⟨alike.refl, pool⟩
  case succ budget hi =>
    simp only [drainUpTo, pool]
    split
    case h_1 => exact ⟨alike.refl, pool⟩
    case h_2 lease rest _ =>
      have dispatched : Abreast s₁ s₂
          ⟨s₁.engine.dispatch lease.contents, rest.giveBack lease⟩
          ⟨s₂.engine.dispatch lease.contents, rest.giveBack lease⟩ :=
        ⟨alike.dispatch lease.contents, rfl⟩
      exact dispatched.trans <| hi dispatched.engine.alike rfl

theorem abreast_step (fills : ∀ host : σ, (Host.display host).Fills)
    (alike : s₁.engine.Alike s₂.engine) (pool : s₁.pool = s₂.pool) (event : Event σ) :
    Abreast s₁ s₂ (s₁.step event) (s₂.step event) := by
  cases event
  case receive frame => exact ⟨alike.refl, by simp only [step, receive, pool]⟩
  case drain =>
    simp only [step, drain, pool]
    exact abreast_drainUpTo alike pool _
  case tick        => exact ⟨(alike.tick (fills _)).abreast, pool⟩
  case change host => exact ⟨.of_alike ⟨alike.control, rfl, alike.stats⟩ rfl rfl, pool⟩

-- Nothing that the buffer held before is ever handed out.
theorem run_abreast (fills : ∀ host : σ, (Host.display host).Fills)
    (alike : s₁.engine.Alike s₂.engine) (pool : s₁.pool = s₂.pool) (events : List (Event σ)) :
    Abreast s₁ s₂ (s₁.run events) (s₂.run events) := by
  induction events generalizing s₁ s₂
  case nil => exact ⟨alike.refl, pool⟩
  case cons event rest hi =>
    have stepped := abreast_step fills alike pool event
    exact stepped.trans <| hi stepped.engine.alike stepped.pool

end Station

theorem BenchDisplay.fills_display (b : BenchDisplay) : b.display.Fills := by
  cases b
  case screen s   => exact s.fills_display
  case console s  => exact s.fills_display
  case counting _ => exact fun _ _ => by simp [display, countUp]

-- The sample engine once it has been pinged with these octets.
def Engine.Sample.told (word : Octets) : Engine Bench :=
  engine.dispatch (Frame.mk ⟨bench.identity, station, defaultEthertype⟩ 7 .ping word).encode

-- After pings of different octets, the buffers hold these, and an empty ping shows none of them.
theorem Station.run_abreast_told :
    ∃ pool, Pool.make 2 = .ok pool ∧
      let s₁ : Station Bench := ⟨Engine.Sample.told [1, 2], pool⟩
      let s₂ : Station Bench := ⟨Engine.Sample.told [3, 4], pool⟩
      let events : List (Event Bench) := [.receive (Engine.Sample.frame .ping), .drain, .tick]
      s₁.engine.buffer ≠ s₂.engine.buffer ∧ s₁.engine.Alike s₂.engine ∧
      (∀ host : Bench, (Host.display host).Fills) ∧
      (s₁.run events).engine.journal.transmissions.length = 3 ∧
      Abreast s₁ s₂ (s₁.run events) (s₂.run events) := by
  have hp := Pool.makeWith_eq (by decide : 2 ≠ 0) (by decide : maxFrameLength ≠ 0)
  have fills (host : Bench) : (Host.display host).Fills := host.display.fills_display
  refine ⟨_, hp, ?_⟩
  intro s₁ s₂ events
  have stale : s₁.engine.buffer ≠ s₂.engine.buffer := by
    decide +kernel
  have alike : s₁.engine.Alike s₂.engine := by
    refine ⟨?_, by decide +kernel, by decide +kernel⟩
    simp only [Engine.control, Engine.Control.mk.injEq]
    decide +kernel
  have handed : (s₁.run events).engine.journal.transmissions.length = 3 := by
    decide +kernel
  exact ⟨stale, alike, fills, handed, run_abreast fills alike rfl _⟩

end RemoteScreen

import RemoteScreen.Proofs.Mirror.Convergence
import RemoteScreen.Proofs.Session.Lifetime

namespace RemoteScreen

namespace Replica

variable {r : Replica} {c : Chunk}

theorem rows_apply (r : Replica) (c : Chunk) : (r.apply c).2.rows = c.header.rows := by
  rw [apply]
  simp only
  split <;> exact rows_reshape ..

theorem cols_apply (r : Replica) (c : Chunk) : (r.apply c).2.cols = c.header.cols := by
  rw [apply]
  simp only
  split <;> exact cols_reshape ..

end Replica

namespace Viewer

variable {v : Viewer} {f : Frame} {c : Chunk} {s : DisplayState} {first rows : Nat}

-- Rows complete a pass if they are the last of the screen that they are from, whatever the replica
-- was before.
theorem onFrame_of_valid (valid : c.Valid s first rows) (mirror : v.replica.Reachable)
    (concerns : v.concerns f) (hp : f.payload = c.encode) :
    v.onFrame f = (.ok (first + rows = s.rows.toNat), { v with
      replica := (v.replica.apply c).2
      chunks  := v.chunks + 1 }) := by
  have hl : (v.replica.apply c).2.cells.length = s.regionLength := by
    rw [mirror.wellFormed.apply c, Replica.rows_apply, Replica.cols_apply, valid.shape.left,
      valid.shape.right, Nat.mul_assoc]
    rfl
  have hs : c.header.start.toNat + c.header.count.toNat = s.regionLength ↔
      first + rows = s.rows.toNat := by
    have hr : s.rowLength ≠ 0 := by
      intro hz
      have := valid.pos
      rw [valid.count, hz] at this
      contradiction
    rw [valid.start, valid.count, ← Nat.add_mul]
    exact Nat.mul_left_inj hr
  have ha : v.replica.apply c = (.ok c.header.range, (v.replica.apply c).2) :=
    Prod.ext (valid.fits v.replica mirror) rfl
  rw [onFrame, if_pos concerns, hp, Chunk.parse_encode valid.cells]
  simp only
  rw [ha]
  simp only [ChunkHeader.range, hl, hs]

-- Whatever a viewer takes in, it stays with its session.
structure Stays (v v' : Viewer) : Prop where
  target : v'.target = v.target
  nonce  : v'.nonce = v.nonce
  mirror : v.replica.Reachable → v'.replica.Reachable

theorem stays_onFrame (v : Viewer) (f : Frame) : v.Stays (v.onFrame f).2 := by
  rw [onFrame]
  split
  case isFalse => exact ⟨rfl, rfl, id⟩
  case isTrue =>
    split
    case h_1 => exact ⟨rfl, rfl, id⟩
    case h_2 chunk _ =>
      have mirror : v.replica.Reachable → (v.replica.apply chunk).2.Reachable := .apply chunk
      split
      all_goals
        rename_i ha
        rw [ha] at mirror
        exact ⟨rfl, rfl, mirror⟩

theorem stays_takeAll (codec : Codec) (v : Viewer) (raws : List Octets) :
    v.Stays (v.takeAll codec raws).2 := by
  induction raws generalizing v
  case nil => exact ⟨rfl, rfl, id⟩
  case cons raw raws hi =>
    rw [takeAll]
    split
    case h_1 => exact hi v
    case h_2 f _ =>
      have now := v.stays_onFrame f
      have later := hi (v.onFrame f).2
      exact ⟨later.target.trans now.target, later.nonce.trans now.nonce, later.mirror ∘ now.mirror⟩

-- A viewer draws a page for every pass that it takes to be complete.
def redraws : Except Fault Bool → Bool
  | .ok completed => completed
  | .error _      => false

end Viewer

namespace Engine

variable {σ : Type} [Host σ] {e : Engine σ} {d : Display} {first rows : Nat} {c : Chunk}
  {ts : List Transmission}

-- The engine goes by rows.
theorem Streams.scanRow_eq_zero_iff (s : e.Streams d first rows c ts) :
    e.tick.2.scanRow = 0 ↔ first + rows = d.state.rows.toNat := by
  have hf : first < d.state.rows.toNat := s.begins ▸ rowAfter_lt s.streamable.rows_pos _
  have hk := e.config.rowsPerChunk_pos d.state.cols.toNat
  have hr := s.spans
  rw [s.scanRow, rowAfter]
  split <;> omega

-- The frames of a tick complete a pass for their viewers just when the tick has completed one.
def Agrees (e : Engine σ) : Prop :=
  ∀ t ∈ e.handed [.tick], ∃ s ∈ e.reap.sessions.active, ∃ f,
    Codec.read? ⟨e.config.ethertype⟩ t.frame = some f ∧ f.kind = .screenChunk ∧
    f.link.destination = s.identity ∧
    ∀ v : Viewer, v.replica.Reachable → v.target = e.identity → v.nonce = s.nonce →
      ∃ replica, v.onFrame f =
        (.ok (e.tick.2.scanRow = 0), { v with replica, chunks := v.chunks + 1 })

theorem Streams.onFrame (s : e.Streams d first rows c ts) (identity : Identity) {v : Viewer}
    (mirror : v.replica.Reachable) (target : v.target = e.identity) :
    v.onFrame (c.framed e.identity e.config.ethertype identity v.nonce) =
      (.ok (e.tick.2.scanRow = 0), { v with
        replica := (v.replica.apply c).2
        chunks  := v.chunks + 1 }) := by
  have hc : v.concerns (c.framed e.identity e.config.ethertype identity v.nonce) := by
    simp [Viewer.concerns, Chunk.framed, target]
  rw [Viewer.onFrame_of_valid s.valid mirror hc rfl]
  simp only [s.scanRow_eq_zero_iff]

theorem agrees_tick (room : e.HasRoom) : e.Agrees := by
  intro t ht
  obtain rests | ⟨first, rows, c, ts, s⟩ := rests_or_streams room rfl
  case inl =>
    rw [rests.handed] at ht
    contradiction
  case inr =>
    rw [s.handed] at ht
    have ⟨session, hs, hf⟩ := s.exists_framed ht
    rw [hf]
    refine ⟨session, hs, _, s.read? .., rfl, rfl, fun v mirror target hn => ?_⟩
    refine ⟨(v.replica.apply c).2, ?_⟩
    rw [← hn]
    exact s.onFrame session.identity mirror target

variable {v : Viewer} {identity : Identity} {event : Event σ}

-- The last rows of the screen have gone out.
def completes (e : Engine σ) : Bool :=
  e.tick.2.scanRow = 0 && tellsOfChunk e.tick.1

-- The last rows of the screen have gone out and have got to the session.
def concludes (e : Engine σ) (identity : Identity) (nonce : UInt32) : Bool :=
  e.tick.2.scanRow = 0 && !(deliveries (e.handed [.tick]) identity nonce).isEmpty

-- What a viewer says to whatever the link carries to its session, and the viewer then.
def heard (e : Engine σ) (v : Viewer) (identity : Identity) (events : List (Event σ)) :
    List (Except Fault Bool) × Viewer :=
  v.takeAll ⟨e.config.ethertype⟩ (deliveries (e.handed events) identity v.nonce)

theorem heard_append (e : Engine σ) (v : Viewer) (identity : Identity) (xs ys : List (Event σ)) :
    e.heard v identity (xs ++ ys) =
      let before := e.heard v identity xs
      let after := (e.run xs).heard before.2 identity ys
      (before.1 ++ after.1, after.2) := by
  have hc : (e.run xs).config = e.config := (e.continues_run xs).config
  have hn : (e.heard v identity xs).2.nonce = v.nonce := (Viewer.stays_takeAll ..).nonce
  have hy : (e.run xs).heard (e.heard v identity xs).2 identity ys =
      (e.heard v identity xs).2.takeAll ⟨e.config.ethertype⟩
        (deliveries ((e.run xs).handed ys) identity v.nonce) := by
    rw [heard, hc, hn]
  simp only [hy]
  rw [heard, handed_append, deliveries_append, Viewer.takeAll_append]
  rfl

-- The viewer finds fault with nothing, and draws a page for every pass that gets to its end.
structure Draws (e : Engine σ) (v : Viewer) (identity : Identity) (events : List (Event σ)) :
    Prop where
  answers : ∀ a ∈ (e.heard v identity events).1, ∃ completed, a = .ok completed
  redraws : (e.heard v identity events).1.countP Viewer.redraws
    = (e.ticked events).countP (·.concludes identity v.nonce)

theorem Draws.append {xs ys : List (Event σ)} (h : e.Draws v identity xs)
    (h' : (e.run xs).Draws (e.heard v identity xs).2 identity ys) :
    e.Draws v identity (xs ++ ys) := by
  have hn : (e.heard v identity xs).2.nonce = v.nonce := (Viewer.stays_takeAll ..).nonce
  constructor <;> rw [heard_append]
  case answers =>
    intro a ha
    cases List.mem_append.mp ha
    case inl ha => exact h.answers a ha
    case inr ha => exact h'.answers a ha
  case redraws =>
    have hr := h'.redraws
    rw [hn] at hr
    rw [ticked_append, List.countP_append, List.countP_append, h.redraws, hr]

theorem draws_wait (ht : event ≠ .tick) : e.Draws v identity [event] := by
  have ⟨ts, hh, hr⟩ := (e.waits_step ht).hands
  have hh : e.handed [event] = ts := Hands.handed hh
  have ⟨_, ha⟩ := Viewer.takeAll_replies hr ⟨e.config.ethertype⟩ v identity v.nonce
  rw [← hh] at ha
  have hz : e.ticked [event] = [] := ticked_cons ht []
  refine ⟨fun a hm => ⟨false, ha a hm⟩, ?_⟩
  rw [hz, List.countP_nil, List.countP_eq_zero]
  intro a hm
  simp [ha a hm, Viewer.redraws]

-- A chunk that goes to every session goes to each of them once.
theorem addressed_cases (distinct : e.sessions.Distinct) (hf : ts.map Transmission.frame =
      c.framesFor e.identity e.config.ethertype e.reap.sessions.active)
    (identity : Identity) (nonce : UInt32) :
    addressed ts identity nonce = [] ∨ addressed ts identity nonce =
      [(c.framed e.identity e.config.ethertype identity nonce).encode] := by
  have hl := distinct.reap.length_named (t := e.reap.sessions) identity nonce
  rw [addressed_framed hf]
  generalize e.reap.sessions.active.filter _ = named at hl
  match named with
  | []  => exact .inl rfl
  | [_] => exact .inr rfl

theorem Streams.deliveries_cases (s : e.Streams d first rows c ts) (distinct : e.sessions.Distinct)
    (identity : Identity) (nonce : UInt32) :
    deliveries ts identity nonce = [] ∨ deliveries ts identity nonce =
      [(c.framed e.identity e.config.ethertype identity nonce).encode] := by
  have hs := deliveries_sublist ts identity nonce
  obtain ha | ha := addressed_cases distinct s.delivers.frames identity nonce <;> rw [ha] at hs
  · exact .inl <| List.sublist_nil.mp hs
  · exact List.sublist_singleton.mp hs

theorem draws_tick (room : e.HasRoom) (distinct : e.sessions.Distinct)
    (mirror : v.replica.Reachable) (target : v.target = e.identity) :
    e.Draws v identity [.tick] := by
  obtain rests | ⟨first, rows, c, ts, s⟩ := rests_or_streams room rfl
  case inl =>
    constructor <;> simp [heard, ticked, concludes, rests.handed, deliveries, Viewer.takeAll]
  case inr =>
    have ho := s.onFrame identity mirror target
    obtain hd | hd := s.deliveries_cases distinct identity v.nonce
    case inl =>
      constructor <;> simp [heard, ticked, concludes, s.handed, hd, Viewer.takeAll]
    case inr =>
      have hr := s.read? identity v.nonce
      have hv : (e.heard v identity [.tick]).1 = [.ok (e.tick.2.scanRow = 0)] := by
        simp [heard, s.handed, hd, Viewer.takeAll, hr, ho]
      constructor <;> rw [hv]
      case answers => exact fun a ha => ⟨_, List.mem_singleton.mp ha⟩
      case redraws => simp [ticked, concludes, s.handed, hd, Viewer.redraws]

-- The induction is on the events, of which each finds the viewer with its session.
theorem Reachable.draws (reachable : e.Reachable) (mirror : v.replica.Reachable)
    (target : v.target = e.identity) (identity : Identity) (events : List (Event σ)) :
    e.Draws v identity events := by
  induction events generalizing e v
  case nil => constructor <;> simp [heard, deliveries, Viewer.takeAll, ticked]
  case cons event rest hi =>
    have stays := Viewer.stays_takeAll ⟨e.config.ethertype⟩ v
      (deliveries (e.handed [event]) identity v.nonce)
    have now : e.Draws v identity [event] := by
      by_cases he : event = .tick
      case neg => exact draws_wait he
      case pos => exact he ▸ draws_tick reachable.hasRoom reachable.distinct mirror target
    have own := (e.continues_step event).identity
    exact now.append <| hi (reachable.step event) (stays.mirror mirror)
      (stays.target.trans <| target.trans own.symm)

-- If nothing is lost, what has gone out has got there.
theorem concludes_of_smooth {nonce : UInt32} (room : e.HasRoom)
    (smooth : Smooth (·.Serves identity nonce) e [.tick]) :
    e.concludes identity nonce = e.completes := by
  have serves := smooth.tick
  obtain rests | ⟨first, rows, c, ts, s⟩ := rests_or_streams room rfl
  case inl => simp [concludes, completes, rests.handed, rests.outcome, deliveries]
  case inr =>
    have ha := serves.addressed_ne_nil s.delivers.frames
    rw [← deliveries_of_succeeded (s.handed ▸ smooth.sends)] at ha
    rw [concludes, completes, s.handed, List.isEmpty_eq_false_iff.mpr ha, s.reports.tells,
      Bool.not_false]

theorem redraws_per_pass (reachable : e.Reachable) (mirror : v.replica.Reachable)
    (target : v.target = e.identity) (identity : Identity) (events : List (Event σ)) :
    (∀ x ∈ e.ticked events, x.Agrees) ∧ e.Draws v identity events ∧
    (Smooth (·.Serves identity v.nonce) e events →
      (e.heard v identity events).1.countP Viewer.redraws
        = (e.ticked events).countP completes) := by
  have draws := reachable.draws mirror target identity events
  refine ⟨fun x hx => ?agrees, draws, fun smooth => ?lossless⟩
  case agrees =>
    have ⟨before, _, _, he⟩ := eq_run_of_ticked hx
    exact he ▸ agrees_tick (reachable.run before).hasRoom
  case lossless =>
    rw [draws.redraws]
    apply List.countP_congr
    intro x hx
    have ⟨before, after, he, hb⟩ := eq_run_of_ticked hx
    rw [he] at smooth
    have here : Smooth (·.Serves identity v.nonce) x [.tick] := hb ▸ smooth.right.head
    have room : x.HasRoom := hb ▸ (reachable.run before).hasRoom
    rw [concludes_of_smooth room here]

namespace Sample

-- The screen grows by a row when the first of its two rows has gone out.
def grown : List (Event Bench) :=
  [.tick, .change { bench with display := .screen { screen with rows := 3 } }, .tick, .tick]

theorem smooth_grown : Smooth (·.Serves station 7) engine grown where
  ticks x hx := by
    have h : (engine.ticked grown).all fun x => stands x.host x := by
      decide +kernel
    exact serves <| List.all_eq_true.mp h x hx
  sends := by
    decide +kernel

end Sample

-- Three rows go out and one pass is complete. It is drawn once.
theorem redraws_per_pass_grown :
    Sample.engine.Reachable ∧ Sample.viewer.replica.Reachable ∧
      Sample.viewer.target = Sample.engine.identity ∧
      (Sample.engine.handed Sample.grown).length = 3 ∧
      (∀ x ∈ Sample.engine.ticked Sample.grown, x.Agrees) ∧
      Sample.engine.Draws Sample.viewer Sample.station Sample.grown ∧
      (Sample.engine.heard Sample.viewer Sample.station Sample.grown).1.countP Viewer.redraws
        = 1 := by
  have target : Sample.viewer.target = Sample.engine.identity := by
    decide +kernel
  have mirror : Sample.viewer.replica.Reachable := .blank
  have ⟨agrees, draws, lossless⟩ :=
    redraws_per_pass Sample.reachable mirror target Sample.station Sample.grown
  refine ⟨Sample.reachable, mirror, target, by decide +kernel, agrees, draws, ?_⟩
  rw [lossless Sample.smooth_grown]
  decide +kernel

end Engine

end RemoteScreen

import RemoteScreen.Engine.Bench
import RemoteScreen.Engine.Run
import RemoteScreen.Proofs.Engine.Dispatch
import RemoteScreen.Proofs.Engine.Sessions
import RemoteScreen.Proofs.Engine.Tick

namespace RemoteScreen.Engine

variable {σ : Type} [Host σ] {e : Engine σ}

theorem continues_dispatch (e : Engine σ) (raw : Octets) : e.Continues (e.dispatch raw) := by
  have hc := e.dispatch_control raw
  have ⟨ts, hh, _⟩ := e.dispatch_hands raw
  refine ⟨?_, ?_, ?_, ts, hh.symm⟩ <;> rw [hc]
  all_goals
    unfold Control.afterStart
    split <;> rfl

theorem continues_step (e : Engine σ) (event : Event σ) : e.Continues (e.step event) := by
  cases event
  case dispatch raw => exact e.continues_dispatch raw
  case tick         => exact e.continues_tick
  case change       => exact ⟨rfl, rfl, rfl, List.prefix_rfl⟩

theorem continues_run (e : Engine σ) (events : List (Event σ)) : e.Continues (e.run events) := by
  induction events generalizing e
  case nil             => exact .refl e
  case cons event _ hi => exact (e.continues_step event).trans (hi _)

theorem hands_handed (e : Engine σ) (events : List (Event σ)) :
    e.Hands (e.handed events) (e.run events) := by
  have ⟨ts, h⟩ := (e.continues_run events).journal
  rw [Hands, handed, ← h, List.drop_left]

theorem Hands.handed {ts : List Transmission} {events : List (Event σ)}
    (h : e.Hands ts (e.run events)) : e.handed events = ts :=
  (e.hands_handed events).unique h

@[simp]
theorem handed_nil (e : Engine σ) : e.handed [] = [] :=
  Hands.handed (.refl e)

theorem run_append (e : Engine σ) (xs ys : List (Event σ)) :
    e.run (xs ++ ys) = (e.run xs).run ys :=
  List.foldl_append

theorem handed_append (e : Engine σ) (xs ys : List (Event σ)) :
    e.handed (xs ++ ys) = e.handed xs ++ (e.run xs).handed ys := by
  apply Hands.handed
  rw [run_append]
  exact (e.hands_handed xs).trans <| hands_handed _ ys

theorem handed_cons (e : Engine σ) (event : Event σ) (rest : List (Event σ)) :
    e.handed (event :: rest) = e.handed [event] ++ (e.step event).handed rest :=
  e.handed_append [event] rest

omit [Host σ] in
theorem ticks_append (xs ys : List (Event σ)) : ticks (xs ++ ys) = ticks xs + ticks ys := by
  induction xs
  case nil => simp [ticks]
  case cons event _ hi =>
    cases event <;> simp [ticks, hi, Nat.add_right_comm]

omit [Host σ] in
theorem ticks_cons {event : Event σ} (h : event ≠ .tick) (rest : List (Event σ)) :
    ticks (event :: rest) = ticks rest := by
  cases event
  case tick => contradiction
  all_goals rfl

theorem ticked_append (e : Engine σ) (xs ys : List (Event σ)) :
    e.ticked (xs ++ ys) = e.ticked xs ++ (e.run xs).ticked ys := by
  induction xs generalizing e
  case nil => rfl
  case cons event _ hi =>
    cases event
    case tick => exact congrArg (e :: ·) (hi _)
    all_goals exact hi _

theorem ticked_cons {event : Event σ} (h : event ≠ .tick) (rest : List (Event σ)) :
    e.ticked (event :: rest) = (e.step event).ticked rest := by
  cases event
  case tick => contradiction
  all_goals rfl

-- A tick finds what the events before it have left.
theorem eq_run_of_ticked {x : Engine σ} {events : List (Event σ)} (h : x ∈ e.ticked events) :
    ∃ before after, events = before ++ .tick :: after ∧ x = e.run before := by
  induction events generalizing e
  case nil => contradiction
  case cons event rest hi =>
    have later (h : x ∈ (e.step event).ticked rest) :
        ∃ before after, event :: rest = before ++ .tick :: after ∧ x = e.run before := by
      have ⟨before, after, he, hx⟩ := hi h
      exact ⟨event :: before, after, congrArg _ he, hx⟩
    cases event
    case tick =>
      cases h
      case head   => exact ⟨[], rest, rfl, rfl⟩
      case tail h => exact later h
    case dispatch => exact later h
    case change   => exact later h

theorem Skips.handed {d : Display} (s : e.Skips d) : e.handed [.tick] = [] :=
  Hands.handed s.hands

theorem Sends.handed {d : Display} {first rows : Nat} {ts : List Transmission}
    (s : e.Sends d first rows ts) : e.handed [.tick] = ts :=
  Hands.handed s.offers.hands

theorem eq_of_make {config : EngineConfig} {host : σ} (h : make config host = .ok e) :
    e = {
      config   := config
      identity := Host.identity host
      sessions := ⟨List.replicate config.sessions none⟩
      host     := host
      buffer   := Octets.zeros (max config.effectiveMtu maxFrameLength) } := by
  rw [make] at h
  split at h
  case h_1 => contradiction
  case h_2 hs =>
    rw [SessionTable.make] at hs
    split at hs
    case isTrue  => contradiction
    case isFalse =>
      cases h
      cases hs
      rfl

-- The engines that can come about.
inductive Reachable : Engine σ → Prop
  | make {config : EngineConfig} {host : σ} {e : Engine σ} :
    Engine.make config host = .ok e → Reachable e
  | step {e : Engine σ} (event : Event σ) : Reachable e → Reachable (e.step event)

theorem Reachable.run (h : e.Reachable) (events : List (Event σ)) : (e.run events).Reachable := by
  induction events generalizing e
  case nil             => exact h
  case cons event _ hi => exact hi (h.step event)

omit [Host σ] in
theorem HasRoom.continue {e' : Engine σ} (h : e.HasRoom) (c : e.Continues e') : e'.HasRoom := by
  rw [HasRoom, c.config, c.room]
  exact h

theorem Reachable.hasRoom (h : e.Reachable) : e.HasRoom := by
  induction h
  case make hm =>
    rw [eq_of_make hm]
    simp only [HasRoom, control, Octets.length_zeros]
    exact Nat.le_max_left ..
  case step event _ hi => exact hi.continue <| continues_step _ event

-- A session of this name is live.
def Serves (e : Engine σ) (identity : Identity) (nonce : UInt32) : Prop :=
  ∃ s ∈ e.sessions.active, s.isNamed identity nonce ∧
    ¬ s.isExpired (Host.now e.host) e.config.sessionLifetime

theorem Serves.reap {identity : Identity} {nonce : UInt32} (h : e.Serves identity nonce) :
    ∃ s ∈ e.reap.sessions.active, s.identity = identity ∧ s.nonce = nonce := by
  have ⟨s, hm, hn, hx⟩ := h
  exact ⟨s, SessionTable.mem_active_reap.mpr ⟨hm, hx⟩, Session.isNamed_iff.mp hn⟩

theorem Serves.active_ne_nil {identity : Identity} {nonce : UInt32} (h : e.Serves identity nonce) :
    e.reap.sessions.active ≠ [] :=
  have ⟨_, hm, _⟩ := h.reap
  List.ne_nil_of_mem hm

-- The frame that creates a session, if the event is one.
def creates? (e : Engine σ) : Event σ → Option Received
  | .dispatch raw =>
    match e.start? raw with
    | some (.created, frame, _) => some frame
    | _ => none
  | _ => none

def created (e : Engine σ) : List (Event σ) → List Received
  | [] => []
  | event :: rest => (e.creates? event).toList ++ created (e.step event) rest

theorem created_cons {event : Event σ} {rest : List (Event σ)} :
    e.created (event :: rest) = [] ↔
      e.creates? event = none ∧ (e.step event).created rest = [] := by
  rw [created, List.append_eq_nil_iff, Option.toList_eq_nil_iff]

-- What anything but a tick comes to. Nothing goes out but replies, and the next rows stay the same.
structure Waits (e e' : Engine σ) : Prop where
  scanRow      : e'.scanRow = e.scanRow
  lastChecksum : e'.lastChecksum = e.lastChecksum ∨ e'.lastChecksum = none
  hands        : ∃ ts, e.Hands ts e' ∧ ∀ t ∈ ts, t.IsReply

-- A pass that is due stays due until it begins.
omit [Host σ] in
theorem Waits.due {e' : Engine σ} {checksum : UInt32} (w : e.Waits e')
    (h : e.lastChecksum ≠ some checksum) : e'.lastChecksum ≠ some checksum := by
  cases w.lastChecksum
  case inl hs => exact hs ▸ h
  case inr hn => simp [hn]

theorem waits_dispatch (e : Engine σ) (raw : Octets) : e.Waits (e.dispatch raw) := by
  have hc := e.dispatch_control raw
  refine ⟨?scanRow, ?lastChecksum, e.dispatch_hands raw⟩
  case scanRow =>
    refine (congrArg Control.scanRow hc).trans ?_
    unfold Control.afterStart
    split <;> rfl
  case lastChecksum =>
    have hl := congrArg Control.lastChecksum hc
    unfold Control.afterStart at hl
    split at hl
    · exact .inl hl
    · exact .inr hl
    · exact .inl hl

theorem waits_step (e : Engine σ) {event : Event σ} (h : event ≠ .tick) :
    e.Waits (e.step event) := by
  cases event
  case dispatch raw => exact e.waits_dispatch raw
  case tick         => contradiction
  case change       => exact ⟨rfl, .inl rfl, [], .of_eq rfl, by simp⟩

-- What goes out without a tick is a reply.
theorem reply_or_ticked {events : List (Event σ)} {t : Transmission} (h : t ∈ e.handed events) :
    t.IsReply ∨ ∃ x ∈ e.ticked events, t ∈ x.handed [.tick] := by
  induction events generalizing e
  case nil => rw [handed_nil] at h; contradiction
  case cons event rest hi =>
    have now (ht : event ≠ .tick) (hm : t ∈ e.handed [event]) : t.IsReply := by
      have ⟨ts, hh, hr⟩ := (e.waits_step ht).hands
      rw [Hands.handed hh] at hm
      exact hr t hm
    rw [handed_cons, List.mem_append] at h
    cases event
    case tick =>
      cases h
      case inl hm => exact .inr ⟨e, .head _, hm⟩
      case inr hm => exact (hi hm).imp_right fun ⟨x, hx, hm⟩ => ⟨x, .tail _ hx, hm⟩
    case dispatch => exact h.elim (fun hm => .inl <| now nofun hm) hi
    case change   => exact h.elim (fun hm => .inl <| now nofun hm) hi

theorem lastChecksum_of_created {event : Event σ} (ht : event ≠ .tick)
    (h : e.creates? event = none) : (e.step event).lastChecksum = e.lastChecksum := by
  cases event
  case tick   => contradiction
  case change => rfl
  case dispatch raw =>
    refine (congrArg Control.lastChecksum <| e.dispatch_control raw).trans ?_
    unfold Control.afterStart
    split
    case h_2 hs => simp [creates?, hs] at h
    all_goals rfl

-- The link fails at nothing, and every tick finds an engine of the kind `P`.
structure Smooth (P : Engine σ → Prop) (e : Engine σ) (events : List (Event σ)) : Prop where
  ticks : ∀ x ∈ e.ticked events, P x
  sends : ∀ t ∈ e.handed events, succeeded t.outcome

variable {P : Engine σ → Prop} {event : Event σ} {xs ys : List (Event σ)}

theorem Smooth.left (h : Smooth P e (xs ++ ys)) : Smooth P e xs where
  ticks x hx := h.ticks x <| by rw [ticked_append]; exact List.mem_append_left _ hx
  sends t ht := h.sends t <| by rw [handed_append]; exact List.mem_append_left _ ht

theorem Smooth.right (h : Smooth P e (xs ++ ys)) : Smooth P (e.run xs) ys where
  ticks x hx := h.ticks x <| by rw [ticked_append]; exact List.mem_append_right _ hx
  sends t ht := h.sends t <| by rw [handed_append]; exact List.mem_append_right _ ht

theorem Smooth.imp {Q : Engine σ → Prop} (h : Smooth P e xs) (hi : ∀ x, P x → Q x) :
    Smooth Q e xs :=
  ⟨fun x hx => hi x (h.ticks x hx), h.sends⟩

theorem Smooth.head (h : Smooth P e (event :: xs)) : Smooth P e [event] :=
  have h : Smooth P e ([event] ++ xs) := h
  h.left

theorem Smooth.tail (h : Smooth P e (event :: xs)) : Smooth P (e.step event) xs :=
  have h : Smooth P e ([event] ++ xs) := h
  h.right

theorem Smooth.tick (h : Smooth P e [.tick]) : P e :=
  h.ticks e (.head _)

-- A bench whose screen takes two chunks, and an engine there with one session.
namespace Sample

def screen : Screen where
  rows  := 2
  cols  := 128
  cells := Octets.zeros 512

def bench : Bench where
  identity := ⟨2, 0, 0, 0, 0, 1⟩
  display  := .screen screen

def config : EngineConfig where
  mtu := 100

def station : Identity :=
  ⟨2, 0, 0, 0, 0, 2⟩

def frame (kind : MessageKind) : Octets :=
  (Frame.mk ⟨bench.identity, station, defaultEthertype⟩ 7 kind []).encode

def idle : Engine Bench where
  config   := config
  identity := bench.identity
  sessions := ⟨List.replicate defaultSessions none⟩
  host     := bench
  buffer   := Octets.zeros maxFrameLength

def engine : Engine Bench :=
  idle.dispatch (frame .sessionStart)

theorem shows : screen.display.Shows screen.cells :=
  Screen.shows_display <| Octets.length_zeros 512

theorem streamable : screen.state.Streamable :=
  ⟨by decide, by decide, by decide⟩

theorem reachable_idle : idle.Reachable :=
  have h : Engine.make config bench = .ok idle := rfl
  .make h

theorem reachable : engine.Reachable :=
  reachable_idle.step (.dispatch (frame .sessionStart))

-- The session is live there, and the world is `host`.
def stands (host : Bench) (e : Engine Bench) : Bool :=
  e.host = host ∧ e.config = config ∧ host.clock = 0 ∧
    e.sessions = ⟨[some ⟨station, 7, 0⟩, none, none, none]⟩

variable {host : Bench} {e : Engine Bench}

theorem host_eq (h : stands host e) : e.host = host := by
  simp only [stands, decide_eq_true_eq] at h
  exact h.left

theorem serves (h : stands host e) : e.Serves station 7 := by
  simp only [stands, decide_eq_true_eq] at h
  have ⟨hh, hc, ht, hs⟩ := h
  subst hh
  have hn : Host.now e.host = 0 := ht
  refine ⟨⟨station, 7, 0⟩, by rw [hs]; decide, by decide, ?_⟩
  rw [hc, hn]
  decide

theorem stands_engine : stands bench engine := by
  decide +kernel

theorem top : engine.scanRow = 0 := by
  decide +kernel

theorem due : engine.lastChecksum ≠ some screen.display.regionChecksum := by
  have h : engine.lastChecksum = none := by
    decide +kernel
  simp [h]

-- A ping between two ticks.
def pinged : List (Event Bench) :=
  [.tick, .dispatch (frame .ping)]

theorem smooth {P : Engine Bench → Prop} (h : ∀ x, stands bench x → P x) :
    Smooth P engine (pinged ++ [.tick]) where
  ticks x hx := by
    apply h
    simp only [pinged, List.cons_append, List.nil_append, ticked, List.mem_cons,
      List.not_mem_nil, or_false] at hx
    cases hx
    case inl hx =>
      rw [hx]
      decide +kernel
    case inr hx =>
      rw [hx]
      decide +kernel
  sends := by
    decide +kernel

end Sample

end RemoteScreen.Engine

import RemoteScreen.Proofs.Keyboard.Authority
import RemoteScreen.Proofs.Mirror.Validity
import RemoteScreen.Proofs.Session.Slots

namespace RemoteScreen

-- The time from `base` to a reading of the clock.
def elapsed (base reading : UInt64) : Nat :=
  (reading - base).toNat

theorem toNat_sub_eq {base a b : UInt64} (h : elapsed base a ≤ elapsed base b) :
    (b - a).toNat = elapsed base b - elapsed base a := by
  have ha := a.toNat_lt
  have hb := b.toNat_lt
  have hn := base.toNat_lt
  simp only [elapsed, UInt64.toNat_sub] at h ⊢
  omega

namespace Session

variable {s s' : Session} {log : List Session} {base now lifetime : UInt64}

theorem isExpired_iff (h : elapsed base s.lastActivity ≤ elapsed base now) :
    s.isExpired now lifetime ↔
      lifetime.toNat < elapsed base now - elapsed base s.lastActivity := by
  rw [isExpired, decide_eq_true_iff, UInt64.lt_iff_toNat_lt, toNat_sub_eq h]

-- No later session in the log is of the same name.
def IsLatest (s : Session) (log : List Session) : Prop :=
  ∃ older newer, log = older ++ s :: newer ∧ ∀ s' ∈ newer, ¬ s'.isNamed s.identity s.nonce

theorem IsLatest.mem (h : s.IsLatest log) : s ∈ log := by
  have ⟨_, _, hl, _⟩ := h
  simp [hl]

theorem not_isLatest_nil : ¬ s.IsLatest [] := by
  intro h
  simpa using h.mem

theorem isLatest_snoc :
    s.IsLatest (log ++ [s']) ↔ s = s' ∨ s.IsLatest log ∧ ¬ s'.isNamed s.identity s.nonce := by
  constructor
  case mp =>
    intro ⟨older, newer, hl, hn⟩
    induction newer using List.reverseRecOn
    case nil =>
      have ⟨_, hs⟩ := List.append_inj' hl rfl
      exact .inl (List.singleton_inj.mp hs).symm
    case append_singleton newer last _ =>
      rw [← List.cons_append, ← List.append_assoc] at hl
      have ⟨hl, hs⟩ := List.append_inj' hl rfl
      have hs := List.singleton_inj.mp hs
      subst hl hs
      exact .inr ⟨⟨older, newer, rfl, fun x hx => hn x (by simp [hx])⟩, hn _ (by simp)⟩
  case mpr =>
    intro h
    cases h
    case inl h => exact h ▸ ⟨log, [], rfl, nofun⟩
    case inr h =>
      have ⟨⟨older, newer, hl, hn⟩, hs⟩ := h
      refine ⟨older, newer ++ [s'], by simp [hl], fun x hx => ?_⟩
      cases List.mem_append.mp hx
      case inl hx => exact hn x hx
      case inr hx => exact (List.mem_singleton.mp hx) ▸ hs

end Session

-- The session that a frame is for.
def Transmission.addressee? (t : Transmission) : Option (Identity × UInt32) := do
  let (link, rest) ← LinkHeader.take? t.frame
  let (header, _) ← ProtocolHeader.take? rest
  return (link.destination, header.nonce)

namespace Engine

variable {σ : Type} [Host σ] {e : Engine σ} {s : Session} {base : UInt64} {event : Event σ}
  {events : List (Event σ)}

-- What the clock shows if the engine looks at it in an event.
def reading? (e : Engine σ) : Event σ → Option UInt64
  | .dispatch raw =>
    match e.admitted? raw with
    | some (.sessionStart, _) => some (Host.now e.host)
    | _ => none
  | .tick => some (Host.now e.host)
  | .change _ => none

def readings (e : Engine σ) : List (Event σ) → List UInt64
  | [] => []
  | event :: rest => (e.reading? event).toList ++ readings (e.step event) rest

-- As far as the engine can see the clock never goes back, nor does it come round to `base` again,
-- though it may wrap.
def Steady (e : Engine σ) (base : UInt64) (events : List (Event σ)) : Prop :=
  (e.readings events).Pairwise fun a b => elapsed base a ≤ elapsed base b

theorem readings_append (e : Engine σ) (xs ys : List (Event σ)) :
    e.readings (xs ++ ys) = e.readings xs ++ (e.run xs).readings ys := by
  induction xs generalizing e
  case nil => rfl
  case cons event rest hi =>
    simp only [List.cons_append, readings, hi, List.append_assoc]
    rfl

theorem reading?_of_starts? (h : e.starts? event = some s) :
    e.reading? event = some s.lastActivity := by
  cases event
  case dispatch raw =>
    have hs := starts?_eq_some.mp h
    have ⟨frame, ha, _⟩ := hs.named
    simp [reading?, admits_iff.mp ha, hs.now]
  all_goals contradiction

theorem lastActivity_mem_readings (h : s ∈ e.started events) :
    s.lastActivity ∈ e.readings events := by
  induction events generalizing e
  case nil => contradiction
  case cons event rest hi =>
    rw [started, List.mem_append] at h
    rw [readings, List.mem_append]
    refine h.imp (fun h => ?_) hi
    simp [reading?_of_starts? <| Option.mem_toList.mp h]

theorem mem_active_of_starts? (h : e.starts? event = some s) :
    s ∈ (e.step event).sessions.active := by
  cases event
  case dispatch raw =>
    have ⟨⟨started, frame, sessions⟩, hs, he⟩ := Option.map_eq_some_iff.mp h
    rw [step, sessions_dispatch_of_some hs]
    exact he ▸ SessionTable.mem_active_of_start (start?_eq_some.mp hs).right
  all_goals contradiction

-- What lasts through an event stays in the table.
theorem Lasts.mem_active (h : e.Lasts [event] s) (hs : s ∈ e.sessions.active) :
    s ∈ (e.step event).sessions.active := by
  cases event
  case change => exact hs
  case tick =>
    rw [step, e.spares_tick.sessions]
    exact SessionTable.mem_active_reap.mpr ⟨hs, h.fresh e (.head _)⟩
  case dispatch raw =>
    cases hr : e.start? raw
    case none => exact sessions_dispatch_of_none hr ▸ hs
    case some start =>
      obtain ⟨_, frame, sessions⟩ := start
      rw [step, sessions_dispatch_of_some hr]
      apply SessionTable.mem_active_of_start_ne (start?_eq_some.mp hr).right hs
      have hn := h.latest ⟨frame.source, frame.nonce, Host.now e.host⟩
        (by simp [started, starts?, hr])
      rw [Session.isNamed_iff] at hn ⊢
      exact fun ha => hn ⟨ha.left.symm, ha.right.symm⟩

theorem started_snoc (e : Engine σ) (events : List (Event σ)) (event : Event σ) :
    e.started (events ++ [event])
      = e.started events ++ ((e.run events).starts? event).toList := by
  simp [started_append, started]

theorem isLatest_of_mem_active (h : e.sessions.active = [])
    (hs : s ∈ (e.run events).sessions.active) : s.IsLatest (e.started events) := by
  have ⟨before, start, since, he, hb⟩ := backs_of_mem_active h hs
  refine ⟨e.started before, _, ?_, hb.lasts.latest⟩
  rw [he, started_append, started, starts?_eq_some.mpr hb.starts, run_append]
  rfl

-- By induction on the events from the last one back. As long as the latest start is not too long
-- ago at `now`, no tick up to then has found the session idle for too long.
theorem mem_active_of_isLatest {now : Nat} (steady : e.Steady base events)
    (hn : ∀ x ∈ e.readings events, elapsed base x ≤ now) (hs : s.IsLatest (e.started events))
    (fresh : now - elapsed base s.lastActivity ≤ e.config.sessionLifetime.toNat) :
    s ∈ (e.run events).sessions.active := by
  induction events using List.reverseRecOn
  case nil => exact absurd hs Session.not_isLatest_nil
  case append_singleton events event hi =>
    rw [Steady, readings_append, List.pairwise_append] at steady
    rw [readings_append] at hn
    have earlier (hb : s.IsLatest (e.started events)) : s ∈ (e.run events).sessions.active :=
      hi steady.left (fun x hx => hn x (List.mem_append_left _ hx)) hb
    have hc : (e.run events).config = e.config := (e.continues_run events).config
    have lasts (hb : s.IsLatest (e.started events))
        (hl : ∀ s' ∈ (e.run events).started [event], ¬ s'.isNamed s.identity s.nonce) :
        (e.run events).Lasts [event] s := by
      refine ⟨hl, fun x hx => ?_⟩
      cases event
      case tick =>
        have hr : Host.now (e.run events).host ∈ (e.run events).readings [.tick] := .head _
        have ho := steady.right.right _ (lastActivity_mem_readings hb.mem) _ hr
        have hr := hn _ (List.mem_append_right _ hr)
        rw [List.mem_singleton.mp hx, Session.isExpired_iff ho, hc]
        omega
      all_goals contradiction
    rw [started_snoc] at hs
    rw [run_append]
    cases hr : (e.run events).starts? event
    case none =>
      rw [hr, Option.toList_none, List.append_nil] at hs
      exact (lasts hs (by simp [started, hr])).mem_active (earlier hs)
    case some s' =>
      rw [hr, Option.toList_some, Session.isLatest_snoc] at hs
      cases hs
      case inl he => exact mem_active_of_starts? (he ▸ hr)
      case inr hs =>
        refine (lasts hs.left ?_).mem_active (earlier hs.left)
        simpa [started, hr] using hs.right

-- A chunk goes to every session that is left, and to no other.
theorem addressees_tick (room : e.HasRoom) :
    (e.handed [.tick]).map Transmission.addressee? =
      if tellsOfChunk e.tick.1 then e.tick.2.sessions.active.map fun s => some (s.identity, s.nonce)
      else [] := by
  obtain rests | ⟨first, rows, c, ts, streams⟩ := rests_or_streams room rfl
  case inl => simp [rests.handed, rests.outcome]
  case inr =>
    have hf := congrArg (List.map fun frame => Transmission.addressee? ⟨frame, .ok ()⟩)
      streams.delivers.frames
    rw [List.map_map, List.map_map] at hf
    rw [if_pos streams.reports.tells, streams.handed, e.spares_tick.sessions]
    refine Eq.trans hf <| List.map_congr_left fun s _ => ?_
    simp [Transmission.addressee?, Frame.encode, Chunk.framed, ProtocolHeader.signed]

-- What a tick keeps of the sessions in the log, and whom it serves.
structure ServesRecent (e : Engine σ) (log : List Session) (base lifetime : UInt64) : Prop where
  holds : ∀ s, s ∈ e.tick.2.sessions.active ↔ s.IsLatest log ∧
    elapsed base (Host.now e.host) - elapsed base s.lastActivity ≤ lifetime.toNat
  sends : (e.handed [.tick]).map Transmission.addressee? =
    if tellsOfChunk e.tick.1 then e.tick.2.sessions.active.map fun s => some (s.identity, s.nonce)
    else []

theorem sessions_make {config : EngineConfig} {host : σ} (h : make config host = .ok e) :
    e.sessions.active = [] := by
  simp [eq_of_make h, SessionTable.active]

theorem Reachable.distinct (h : e.Reachable) : e.sessions.Distinct := by
  induction h
  case make hm            => exact SessionTable.distinct_of_active_eq_nil (sessions_make hm)
  case step event _ hi => exact distinct_step hi event

-- Nothing but a start that is not refused makes a session last, and what was started last, and not
-- too long ago, is served.
theorem sessions_served {config : EngineConfig} {host : σ} (h : make config host = .ok e)
    (steady : e.Steady base (events ++ [.tick])) :
    (e.run events).ServesRecent (e.started events) base config.sessionLifetime ∧
    ∀ (x : Engine σ) (raw : Octets), (∀ s, ¬ x.Starts raw s) →
      (x.dispatch raw).sessions = x.sessions := by
  have hr : e.Reachable := .make h
  have hc : (e.run events).config = config :=
    (e.continues_run events).config.trans (config_make h)
  have hn : Host.now (e.run events).host ∈ (e.run events).readings [.tick] := .head _
  rw [Steady, readings_append, List.pairwise_append] at steady
  have past (x : UInt64) (hx : x ∈ e.readings events) :
      elapsed base x ≤ elapsed base (Host.now (e.run events).host) :=
    steady.right.right x hx _ hn
  refine ⟨⟨fun s => ?holds, addressees_tick (hr.run events).hasRoom⟩, fun x raw hx => ?refused⟩
  case holds =>
    rw [(spares_tick _).sessions]
    refine SessionTable.mem_active_reap.trans ⟨fun ⟨hm, hx⟩ => ?_, fun ⟨hl, hf⟩ => ?_⟩
    · have hl := isLatest_of_mem_active (sessions_make h) hm
      rw [Session.isExpired_iff (past _ <| lastActivity_mem_readings hl.mem), hc] at hx
      exact ⟨hl, Nat.le_of_not_lt hx⟩
    · rw [Session.isExpired_iff (past _ <| lastActivity_mem_readings hl.mem), hc]
      rw [← config_make h] at hf
      exact ⟨mem_active_of_isLatest steady.left past hl hf, config_make h ▸ Nat.not_lt.mpr hf⟩
  case refused =>
    apply sessions_dispatch_of_none
    cases hs : x.start? raw
    case none => rfl
    case some => exact absurd (starts?_eq_some.mp <| by rw [starts?, hs]; rfl) (hx _)

namespace Sample

-- A session that is started shortly before the clock wraps, and not again.
def wraps : List (Event Bench) :=
  [.change (bench.setClock 18446744073709546616), .dispatch (frame .sessionStart), .tick,
    .dispatch (frame .ping), .change (bench.setClock 5000)]

end Sample

-- It is served up to the last moment.
theorem sessions_served_wraps :
    make Sample.config Sample.bench = .ok Sample.idle ∧
      Sample.idle.Steady 18446744073709546616 (Sample.wraps ++ [.tick]) ∧
      let e := Sample.idle.run Sample.wraps
      ⟨Sample.station, 7, 18446744073709546616⟩ ∈ e.tick.2.sessions.active ∧
      e.tick.1 = .ok (.sent 1 1 1) ∧
      (e.handed [.tick]).map Transmission.addressee? = [some (Sample.station, 7)] := by
  have h : make Sample.config Sample.bench = .ok Sample.idle := rfl
  have steady : Sample.idle.Steady 18446744073709546616 (Sample.wraps ++ [.tick]) := by
    have hr : Sample.idle.readings (Sample.wraps ++ [.tick])
        = [18446744073709546616, 18446744073709546616, 5000] := by
      decide +kernel
    rw [Steady, hr]
    decide
  have hl : Sample.idle.started Sample.wraps = [⟨Sample.station, 7, 18446744073709546616⟩] := by
    decide +kernel
  have hn : Host.now (Sample.idle.run Sample.wraps).host = 5000 := by
    decide +kernel
  have ho : (Sample.idle.run Sample.wraps).tick.1 = .ok (.sent 1 1 1) := by
    decide +kernel
  have ha : (Sample.idle.run Sample.wraps).tick.2.sessions.active
      = [⟨Sample.station, 7, 18446744073709546616⟩] := by
    decide +kernel
  have served := (sessions_served h steady).left
  refine ⟨h, steady, (served.holds _).mpr ⟨⟨[], [], hl, nofun⟩, ?_⟩, ho, ?_⟩
  · rw [hn]
    decide
  · rw [served.sends, ho, ha]
    rfl

end Engine

end RemoteScreen

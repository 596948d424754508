import RemoteScreen.Proofs.Mirror.Convergence

namespace RemoteScreen

namespace Display

variable {d : Display} {s : DisplayState} {size : Nat}

-- All cell octets of the display.
def content (d : Display) : Octets :=
  d.read 0 d.state.regionLength

theorem Shows.content {cells : Octets} (shows : d.Shows cells) : d.content = cells := by
  rw [Display.content, ← shows.length, shows.read 0 _ (by omega), List.drop_zero, List.take_length]

-- The display has the shape of `s`, and what it shows are its contents.
structure Paints (d : Display) (s : DisplayState) : Prop where
  rows  : d.state.rows = s.rows
  cols  : d.state.cols = s.cols
  shows : d.Shows d.content

theorem Shows.paints {cells : Octets} (shows : d.Shows cells) (rows : d.state.rows = s.rows)
    (cols : d.state.cols = s.cols) : d.Paints s where
  rows  := rows
  cols  := cols
  shows := by
    rw [shows.content]
    exact shows

theorem Paints.rowLength (p : d.Paints s) : d.state.rowLength = s.rowLength :=
  congrArg (·.toNat * cellWidth) p.cols

theorem Paints.regionLength (p : d.Paints s) : d.state.regionLength = s.regionLength := by
  rw [DisplayState.regionLength, p.rowLength, p.rows]
  rfl

theorem Paints.streamable (p : d.Paints s) (h : s.Streamable) : d.state.Streamable where
  rows   := p.rows ▸ h.rows
  cols   := p.cols ▸ h.cols
  region := p.regionLength ▸ h.region

-- What a pass carries that finds one display after the other, each when it sends its next chunk.
def carried (size : Nat) (pass : List Display) : Octets :=
  (pass.mapIdx fun i d => (d.portion size i).cells).flatten

theorem carried_snoc (size : Nat) (pass : List Display) (d : Display) :
    carried size (pass ++ [d]) = carried size pass ++ (d.portion size pass.length).cells := by
  simp [carried, List.mapIdx_concat]

end Display

theorem Replica.Carries.ofPaints {d : Display} {s : DisplayState} {r : Replica} {front : Octets}
    (c : r.Carries d.state front)
    (p : d.Paints s) : r.Carries s front where
  rows   := c.rows.trans p.rows
  cols   := c.cols.trans p.cols
  length := c.length.trans p.regionLength
  front  := c.front

namespace Engine

variable {σ : Type} [Host σ] {e e' : Engine σ} {s : DisplayState} {d : Display} {r r' : Replica}
  {seen pass : List Display} {events : List (Event σ)}

-- The displays that the ticks find.
def screens (e : Engine σ) (events : List (Event σ)) : List Display :=
  (e.ticked events).map fun x => Host.display x.host

theorem screens_append (e : Engine σ) (xs ys : List (Event σ)) :
    e.screens (xs ++ ys) = e.screens xs ++ (e.run xs).screens ys := by
  rw [screens, ticked_append, List.map_append]
  rfl

theorem screens_of_ne {event : Event σ} (h : event ≠ .tick) : e.screens [event] = [] := by
  cases event
  case tick => contradiction
  all_goals rfl

-- The engine goes by the checksum of the display that the pass began with.
def Notes (e : Engine σ) (pass : List Display) : Prop :=
  ∃ first, pass.head? = some first ∧ e.lastChecksum = some first.regionChecksum

omit [Host σ] in
theorem Notes.length_pos (n : e.Notes pass) : 0 < pass.length := by
  have ⟨first, hf, _⟩ := n
  cases pass
  case nil  => contradiction
  case cons => exact Nat.succ_pos _

-- What the replica has of the displays seen by now.
inductive Follows (e : Engine σ) (s : DisplayState) (seen : List Display) (r : Replica) : Prop
  -- The checksum is forgotten, and no pass has begun since.
  | afresh (forgotten : e.lastChecksum = none)
  | within (pass : List Display) (notes : e.Notes pass) (recent : pass <:+ seen)
    (scanRow : e.scanRow = pass.length * e.chunkRows s) (lt : e.scanRow < s.rows.toNat)
    (length : (Display.carried (e.chunkRows s) pass).length = e.scanRow * s.rowLength)
    (carries : r.Carries s <| Display.carried (e.chunkRows s) pass)
  | after (pass : List Display) (notes : e.Notes pass) (past : pass <:+: seen)
    (scanRow : e.scanRow = 0) (length : pass.length = e.passLength s)
    (cells : r.cells = Display.carried (e.chunkRows s) pass)

omit [Host σ] in
theorem Follows.wait (f : e.Follows s seen r) (w : e.Waits e') (c : e.Continues e') :
    e'.Follows s seen r := by
  cases w.lastChecksum
  case inr hn => exact .afresh hn
  case inl hs =>
    have notes {pass : List Display} (n : e.Notes pass) : e'.Notes pass := by
      rw [Notes, hs]
      exact n
    cases f
    case afresh forgotten => exact .afresh (hs.trans forgotten)
    case within pass n recent scanRow lt length carries =>
      rw [← c.chunkRows, ← w.scanRow] at scanRow
      rw [← w.scanRow] at lt
      rw [← c.chunkRows, ← w.scanRow] at length
      rw [← c.chunkRows] at carries
      exact .within pass (notes n) recent scanRow lt length carries
    case after pass n past scanRow length cells =>
      rw [← w.scanRow] at scanRow
      rw [← c.passLength] at length
      rw [← c.chunkRows] at cells
      exact .after pass (notes n) past scanRow length cells

-- A screen is only found unchanged when a pass that the engine knows of is over.
theorem Follows.over (f : e.Follows s seen r) (h : e.Skips d) (hr : d.state.rows = s.rows) :
    ∃ pass, e.Notes pass ∧ pass <:+: seen ∧ pass.length = e.passLength s ∧
      r.cells = Display.carried (e.chunkRows s) pass := by
  cases f
  case afresh forgotten =>
    have := h.checksum
    rw [forgotten] at this
    contradiction
  case within pass n recent scanRow lt length carries =>
    have hp : 0 < e.scanRow := scanRow ▸ Nat.mul_pos n.length_pos (e.chunkRows_pos s)
    have ht := h.top
    rw [hr, rowAfter_of_lt lt] at ht
    omega
  case after pass n past scanRow length cells => exact ⟨pass, n, past, length, cells⟩

theorem Follows.skip (f : e.Follows s seen r) (h : e.Skips d) (hr : d.state.rows = s.rows) :
    (e.step .tick).Follows s (seen ++ [d]) r := by
  have c := e.continues_step .tick
  have hl : (e.step .tick).lastChecksum = e.lastChecksum := congrArg Control.lastChecksum h.control
  have hz : (e.step .tick).scanRow = 0 := congrArg Control.scanRow h.control
  have ⟨pass, n, past, length, cells⟩ := f.over h hr
  have n : (e.step .tick).Notes pass := by
    rw [Notes, hl]
    exact n
  rw [← c.passLength] at length
  rw [← c.chunkRows] at cells
  exact .after pass n (past.trans <| List.infix_append' [] seen [d]) hz length cells

variable {first rows : Nat} {ts : List Transmission}

-- Rows that continue a pass, or begin one.
theorem Sends.follows (sends : e.Sends d first rows ts) (pass : List Display) (paints : d.Paints s)
    (streamable : s.Streamable) (wellFormed : r.WellFormed)
    (hf : first = pass.length * e.chunkRows s) (notes : (e.step .tick).Notes (pass ++ [d]))
    (recent : pass <:+ seen)
    (length : (Display.carried (e.chunkRows s) pass).length = first * s.rowLength)
    (carries : pass = [] ∨ (r.Carries s <| Display.carried (e.chunkRows s) pass)) :
    (e.step .tick).Follows s (seen ++ [d]) (r.apply (d.chunk first rows)).2 := by
  have c := e.continues_step .tick
  have hd := paints.streamable streamable
  have hk := e.chunkRows_pos s
  have hc : e.chunkRows d.state = e.chunkRows s := by
    rw [chunkRows, paints.cols, chunkRows]
  have hr := sends.within hd
  have hlt := sends.first_lt hd
  have hs : rows = min (e.chunkRows s) (s.rows.toNat - first) := by
    rw [← hc, ← paints.rows]
    exact sends.spans
  rw [paints.rows] at hr hlt
  have hp : d.chunk first rows = d.portion (e.chunkRows s) pass.length := by
    rw [Display.portion, ← hf, paints.rows, ← hs]
  have recent : pass ++ [d] <:+ seen ++ [d] := by
    obtain ⟨before, hs⟩ := recent
    exact ⟨before, by rw [← hs, List.append_assoc]⟩
  have total : (Display.carried (e.chunkRows s) (pass ++ [d])).length
      = (first + rows) * s.rowLength := by
    rw [Display.carried_snoc, ← hp, List.length_append, length,
      Display.length_cells_chunk paints.shows.fills, paints.rowLength, Nat.add_mul]
  have carries : (r.apply (d.chunk first rows)).2.Carries s
      (Display.carried (e.chunkRows s) (pass ++ [d])) := by
    rw [Display.carried_snoc, ← hp]
    rw [← paints.rows] at hr
    cases carries
    case inl hn =>
      subst hn
      have hz : first = 0 := hf.trans (Nat.zero_mul _)
      subst hz
      rw [Nat.zero_add] at hr
      exact (Replica.carries_first wellFormed paints.shows.fills hd hr).ofPaints paints
    case inr h =>
      rw [← paints.rowLength] at length
      exact (h.next paints.rows paints.cols paints.shows.fills hd hr length).ofPaints paints
  have hn : (e.step .tick).scanRow = rowAfter s.rows.toNat (first + rows) := by
    rw [← paints.rows]
    exact sends.scanRow
  by_cases hl : first + e.chunkRows s < s.rows.toNat
  case pos =>
    have hn : (e.step .tick).scanRow = first + e.chunkRows s := by
      rw [hn, rowAfter_of_lt] <;> omega
    have hq : rows = e.chunkRows s := by
      omega
    rw [hq, ← hn] at total
    rw [← c.chunkRows] at total carries
    refine .within _ notes recent ?_ (by omega) total carries
    rw [hn, hf, c.chunkRows, List.length_append, Nat.add_mul, List.length_singleton, Nat.one_mul]
  case neg =>
    have hn : (e.step .tick).scanRow = 0 := by
      refine hn.trans <| rowAfter_of_le ?_
      omega
    have hq : first + rows = s.rows.toNat := by
      omega
    rw [hq] at total
    have hcells := carries.eq_cells total
    rw [← c.chunkRows] at hcells
    refine .after _ notes recent.isInfix hn ?_ hcells
    have hi : pass.length < e.passLength s := (lt_portions hk).mpr (hf ▸ hlt)
    have hj : ¬ pass.length + 1 < e.passLength s := by
      rw [passLength, lt_portions hk, Nat.succ_mul, ← hf]
      exact hl
    rw [c.passLength, List.length_append, List.length_singleton]
    omega

theorem Follows.send (f : e.Follows s seen r) (sends : e.Sends d first rows ts)
    (paints : d.Paints s) (streamable : s.Streamable) (wellFormed : r.WellFormed) :
    (e.step .tick).Follows s (seen ++ [d]) (r.apply (d.chunk first rows)).2 := by
  have hb := sends.begins
  have hl : (e.step .tick).lastChecksum
      = if first = 0 then some d.regionChecksum else e.lastChecksum := sends.lastChecksum
  by_cases hz : first = 0
  case pos =>
    -- Whatever the replica had of an earlier pass, this one begins at the top.
    rw [if_pos hz] at hl
    refine sends.follows [] paints streamable wellFormed ?_ ⟨d, rfl, hl⟩
      List.nil_suffix ?_ (.inl rfl)
    · rw [hz, List.length_nil, Nat.zero_mul]
    · rw [hz, Nat.zero_mul]
      rfl
  case neg =>
    rw [if_neg hz] at hl
    cases f
    case afresh forgotten => exact .afresh (hl.trans forgotten)
    case within pass n recent scanRow lt length carries =>
      have hf : first = e.scanRow := hb.trans <| rowAfter_of_lt (paints.rows ▸ lt)
      rw [← hf] at scanRow length
      have ⟨d₀, hd, hc⟩ := n
      refine sends.follows pass paints streamable wellFormed scanRow ⟨d₀, ?_, hl.trans hc⟩ recent
        length (.inr carries)
      rw [List.head?_append, hd]
      rfl
    case after scanRow _ _ =>
      rw [scanRow, rowAfter_of_lt (paints.streamable streamable).rows_pos] at hb
      exact absurd hb hz

-- The viewer's session is live, and the display keeps its shape, whatever is painted on it.
structure Served (s : DisplayState) (identity : Identity) (nonce : UInt32) (e : Engine σ) :
    Prop where
  paints : (Host.display e.host).Paints s
  serves : e.Serves identity nonce

variable {v v' : Viewer} {identity : Identity} {event : Event σ} {rest : List (Event σ)}

theorem Follows.step (f : e.Follows s seen v.replica) (streamable : s.Streamable)
    (wellFormed : v.replica.WellFormed) (h : event = .tick → (Host.display e.host).Paints s)
    (m : e.Moves v event v') :
    (e.step event).Follows s (seen ++ e.screens [event]) v'.replica := by
  cases m
  case wait ne =>
    rw [screens_of_ne ne, List.append_nil]
    exact f.wait (e.waits_step ne) (e.continues_step event)
  case skip skips => exact f.skip skips (h rfl).rows
  case send sends => exact f.send sends (h rfl) streamable wellFormed

-- A viewer from the frame on that created its session. Displays of one checksum have one content.
structure Attends (e : Engine σ) (raw : Octets) (events : List (Event σ)) (s : DisplayState)
    (identity : Identity) (v : Viewer) : Prop where
  reachable  : e.Reachable
  created    : ∃ frame, e.creates? (.dispatch raw) = some frame ∧
    frame.source = identity ∧ frame.nonce = v.nonce
  streamable : s.Streamable
  mirror     : v.replica.Reachable
  target     : v.target = e.identity
  smooth     : Smooth (Served s identity v.nonce) (e.dispatch raw) events
  distinct   : ∀ x ∈ (e.dispatch raw).screens events, ∀ y ∈ (e.dispatch raw).screens events,
    x.regionChecksum = y.regionChecksum → x.content = y.content

theorem Viewed.skips {nonce : UInt32} (viewed : e.Viewed identity nonce) (room : e.HasRoom)
    (sends : ∀ t ∈ e.handed [.tick], succeeded t.outcome) (unchanged : e.tick.1 = .ok .unchanged) :
    e.Skips (Host.display e.host) := by
  obtain idles | skips | ⟨first, rows, ts, sent⟩ :=
    tick_cases room rfl viewed.fills viewed.streamable
  · exact absurd idles.sessions viewed.serves.active_ne_nil
  · exact skips
  · have ho := sent.offers.outcome (sent.handed ▸ sends)
    rw [unchanged] at ho
    injection ho
    contradiction

namespace Sample

def painted : Screen :=
  { screen with cells := Octets.zeros 510 ++ [65, 7] }

def repainted : Bench :=
  { bench with display := .screen painted }

-- Before the second chunk goes out a cell in it is painted over, and after that painted back.
def repaints : List (Event Bench) :=
  [.tick, .change repainted, .tick, .change bench]

theorem shows_painted : painted.display.Shows painted.cells :=
  Screen.shows_display <| by decide +kernel

theorem ticked_repaints :
    ∀ x ∈ engine.ticked (repaints ++ [.tick]), stands bench x ∨ stands repainted x := by
  intro x hx
  simp only [repaints, List.cons_append, List.nil_append, ticked, List.mem_cons,
    List.not_mem_nil, or_false] at hx
  obtain hx | hx | hx := hx <;> rw [hx]
  · exact .inl (by decide +kernel)
  · exact .inr (by decide +kernel)
  · exact .inl (by decide +kernel)

theorem regionChecksum_ne :
    screen.display.regionChecksum ≠ painted.display.regionChecksum := by
  decide +kernel

theorem display_repaints {x : Engine Bench} (h : stands bench x ∨ stands repainted x) :
    Host.display x.host = screen.display ∨ Host.display x.host = painted.display := by
  cases h
  case inl h => exact .inl <| congrArg Host.display (host_eq h)
  case inr h => exact .inr <| congrArg Host.display (host_eq h)

theorem paints {d : Display} (h : d = screen.display ∨ d = painted.display) :
    d.Paints screen.state := by
  cases h
  case inl h => exact h ▸ shows.paints rfl rfl
  case inr h => exact h ▸ shows_painted.paints (by decide) (by decide)

theorem lastChecksum_run (e : Engine Bench) :
    (e.run repaints).lastChecksum = (e.run [.tick, .change repainted]).tick.2.lastChecksum ∧
      (e.run [.tick, .change repainted]).lastChecksum = e.tick.2.lastChecksum :=
  ⟨rfl, rfl⟩

theorem lastChecksum_stands {host : Bench} {e : Engine Bench} (h : stands host e)
    (reachable : e.Reachable) (p : (Host.display host).Paints screen.state) :
    e.tick.2.lastChecksum =
      if rowAfter 2 e.scanRow = 0 then some (Host.display host).regionChecksum
      else e.lastChecksum := by
  have := lastChecksum_tick reachable.hasRoom (congrArg Host.display (host_eq h)) p.shows.fills
    (p.streamable streamable) (serves h).active_ne_nil
  rwa [p.rows] at this

-- The checksum noted is that of the screen as it was at the first tick.
theorem lastChecksum_repaints :
    (engine.run repaints).lastChecksum = some screen.display.regionChecksum := by
  have ⟨h₁, h₂⟩ := lastChecksum_run engine
  have hs : stands repainted (engine.run [.tick, .change repainted]) := by
    decide +kernel
  have ht : rowAfter 2 (engine.run [.tick, .change repainted]).scanRow ≠ 0 := by
    decide +kernel
  rw [h₁, lastChecksum_stands hs (reachable.run _) (paints (.inr rfl)), if_neg ht, h₂,
    lastChecksum_stands stands_engine reachable (paints (.inl rfl)), top]
  rfl

theorem stands_repaints : stands bench (engine.run repaints) := by
  decide +kernel

theorem skips : (engine.run repaints).Skips screen.display := by
  have h := stands_repaints
  have ht : rowAfter 2 (engine.run repaints).scanRow = 0 := by
    decide +kernel
  obtain idles | skips | ⟨first, rows, ts, sends⟩ :=
    tick_cases (reachable.run repaints).hasRoom (congrArg Host.display (host_eq h)) shows.fills
      streamable
  · exact absurd idles.sessions (serves h).active_ne_nil
  · exact skips
  · exact absurd lastChecksum_repaints <| sends.due <| sends.begins.trans ht

theorem sends_repaints : ∀ t ∈ engine.handed (repaints ++ [.tick]), succeeded t.outcome := by
  rw [handed_append, skips.handed, List.append_nil]
  decide +kernel

theorem attends :
    idle.Attends (frame .sessionStart) (repaints ++ [.tick]) screen.state station viewer where
  reachable  := reachable_idle
  created    := by
    have h : (idle.creates? (.dispatch (frame .sessionStart))).map (fun f => (f.source, f.nonce))
        = some (station, 7) := by
      decide +kernel
    have ⟨f, hf, hn⟩ := Option.map_eq_some_iff.mp h
    injection hn with hs hn
    exact ⟨f, hf, hs, hn⟩
  streamable := streamable
  mirror     := .blank
  target     := by decide +kernel
  smooth     := by
    refine ⟨fun x hx => ?_, sends_repaints⟩
    have h := ticked_repaints x hx
    exact ⟨paints (display_repaints h), h.elim serves serves⟩
  distinct   := by
    have h : ∀ x ∈ engine.screens (repaints ++ [.tick]),
        x = screen.display ∨ x = painted.display := by
      intro d hd
      have ⟨x, hx, he⟩ := List.mem_map.mp hd
      exact he ▸ display_repaints (ticked_repaints x hx)
    intro x hx y hy hc
    obtain rfl | rfl := h x hx <;> obtain rfl | rfl := h y hy
    · rfl
    · exact absurd hc regionChecksum_ne
    · exact absurd hc.symm regionChecksum_ne
    · rfl

end Sample

end Engine

end RemoteScreen

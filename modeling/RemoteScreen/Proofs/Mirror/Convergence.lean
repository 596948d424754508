import RemoteScreen.Proofs.Engine.Pass
import RemoteScreen.Proofs.Mirror.Viewer

namespace RemoteScreen

-- The replica of a display that shows `cells`.
def Display.image (d : Display) (cells : Octets) : Replica where
  rows      := d.state.rows
  cols      := d.state.cols
  cursorRow := d.state.cursorRow
  cursorCol := d.state.cursorCol
  cells     := cells

namespace Replica

variable {r : Replica} {d : Display} {cells : Octets} {first rows : Nat}

-- Rows already carried over are followed by those of the chunk.
theorem carries_take (wellFormed : r.WellFormed) (shows : d.Shows cells)
    (streamable : d.state.Streamable) (hr : first + rows ≤ d.state.rows.toNat)
    (h : first = 0 ∨ r.Carries d.state (cells.take (first * d.state.rowLength))) :
    (r.apply (d.chunk first rows)).2.Carries d.state
      (cells.take ((first + rows) * d.state.rowLength)) := by
  have hc := Display.cells_chunk shows hr
  rw [Nat.add_mul, List.take_add, ← hc]
  cases h
  case inl hz =>
    subst hz
    rw [Nat.zero_add] at hr
    simpa using carries_first wellFormed shows.fills streamable hr
  case inr c =>
    refine c.next rfl rfl shows.fills streamable hr ?_
    have hl := DisplayState.stretch_le hr
    rw [List.length_take, shows.length]
    omega

theorem eq_image (wellFormed : r.WellFormed) (shows : d.Shows cells)
    (streamable : d.state.Streamable) (hr : first + rows = d.state.rows.toNat)
    (c : (r.apply (d.chunk first rows)).2.Carries d.state
      (cells.take ((first + rows) * d.state.rowLength))) :
    (r.apply (d.chunk first rows)).2 = d.image cells := by
  have hl : cells.length = (first + rows) * d.state.rowLength := by
    rw [hr]
    exact shows.length
  rw [← hl, List.take_length] at c
  have hc := c.eq_cells shows.length
  have ha := apply_chunk wellFormed shows.fills streamable (Nat.le_of_eq hr)
  rw [ha] at hc ⊢
  simp only at hc
  rw [hc]
  rfl

-- The image of a display is left as it is by every chunk of the display.
theorem apply_image (shows : d.Shows cells) (streamable : d.state.Streamable)
    (hr : first + rows ≤ d.state.rows.toNat) :
    ((d.image cells).apply (d.chunk first rows)).2 = d.image cells := by
  have hw : (d.image cells).WellFormed := by
    rw [WellFormed, Display.image, shows.length, Nat.mul_assoc]
    rfl
  rw [apply_chunk hw shows.fills streamable hr, Display.cells_chunk shows hr]
  have hs : (d.image cells).reshape d.state.rows d.state.cols = d.image cells :=
    if_pos ⟨rfl, rfl⟩
  rw [hs]
  simp only [Display.image, Octets.overwrite_slice]

end Replica

namespace Engine

variable {σ : Type} [Host σ] {e : Engine σ} {d : Display} {cells : Octets} {r : Replica} {n : Nat}
  {events : List (Event σ)}

-- Ticks that are still to come until the replica is the image of the display.
inductive Owes (e : Engine σ) (d : Display) (cells : Octets) (r : Replica) : Nat → Prop
  -- The rest of a pass that began over another screen comes first.
  | leftover (pos : 0 < e.scanRow) (lt : e.scanRow < d.state.rows.toNat)
    (due : e.lastChecksum ≠ some d.regionChecksum) :
    Owes e d cells r
      (portions (e.chunkRows d.state) (d.state.rows.toNat - e.scanRow) + e.passLength d.state)
  | top (top : rowAfter d.state.rows.toNat e.scanRow = 0)
    (due : e.lastChecksum ≠ some d.regionChecksum) : Owes e d cells r (e.passLength d.state)
  | pass (pos : 0 < e.scanRow) (lt : e.scanRow < d.state.rows.toNat)
    (carries : r.Carries d.state (cells.take (e.scanRow * d.state.rowLength))) :
    Owes e d cells r (portions (e.chunkRows d.state) (d.state.rows.toNat - e.scanRow))
  | nothing (synced : r = d.image cells) : Owes e d cells r 0

omit [Host σ] in
theorem Owes.wait {e' : Engine σ} (o : e.Owes d cells r n) (w : e.Waits e') (c : e.Continues e') :
    e'.Owes d cells r n := by
  cases o
  case leftover pos lt h =>
    have : e'.Owes d cells r _ := .leftover (w.scanRow ▸ pos) (w.scanRow ▸ lt) (w.due h)
    rwa [c.chunkRows, c.passLength, w.scanRow] at this
  case top top h =>
    have : e'.Owes d cells r _ := .top (w.scanRow ▸ top) (w.due h)
    rwa [c.passLength] at this
  case pass pos lt h =>
    have : e'.Owes d cells r _ := .pass (w.scanRow ▸ pos) (w.scanRow ▸ lt) (w.scanRow ▸ h)
    rwa [c.chunkRows, w.scanRow] at this
  case nothing h => exact .nothing h

variable {first rows : Nat} {ts : List Transmission} (shows : d.Shows cells)
  (streamable : d.state.Streamable)

-- Once the rows before `first` have been carried over, only those from `first` on are owed.
include shows streamable in
theorem Sends.owes (s : e.Sends d first rows ts) (wellFormed : r.WellFormed)
    (h : first = 0 ∨ r.Carries d.state (cells.take (first * d.state.rowLength))) :
    (e.step .tick).Owes d cells (r.apply (d.chunk first rows)).2
      (portions (e.chunkRows d.state) (d.state.rows.toNat - first) - 1) := by
  have c := e.continues_step .tick
  have hr := s.within streamable
  have hf := s.first_lt streamable
  have hs : rows = min (e.chunkRows d.state) (d.state.rows.toNat - first) := s.spans
  have hk := e.chunkRows_pos d.state
  have hp := portions_sub hk (Nat.sub_pos_of_lt hf)
  have carries := Replica.carries_take wellFormed shows streamable hr h
  by_cases hl : first + e.chunkRows d.state < d.state.rows.toNat
  case pos =>
    have hc : rows = e.chunkRows d.state := by
      omega
    have hn : (e.step .tick).scanRow = first + rows := by
      refine s.scanRow.trans <| rowAfter_of_lt ?_
      omega
    rw [← hn] at carries
    have := Owes.pass (e := e.step .tick) (by omega) (by omega) carries
    rw [c.chunkRows, hn, hc, ← Nat.sub_sub] at this
    rw [← hp, Nat.add_sub_cancel]
    rwa [hc]
  case neg =>
    have ht : first + rows = d.state.rows.toNat := by
      omega
    have hz : d.state.rows.toNat - first - e.chunkRows d.state = 0 := by
      omega
    rw [hz, portions_zero] at hp
    rw [← hp]
    exact .nothing <| Replica.eq_image wellFormed shows streamable ht carries

-- While a pass that began over another screen goes on, it only comes nearer to its end.
omit shows in
include streamable in
theorem Sends.owes_leftover (s : e.Sends d first rows ts) (pos : 0 < first)
    (due : e.lastChecksum ≠ some d.regionChecksum) :
    (e.step .tick).Owes d cells r
      (portions (e.chunkRows d.state) (d.state.rows.toNat - first) + e.passLength d.state - 1) := by
  have c := e.continues_step .tick
  have hf := s.first_lt streamable
  have hs : rows = min (e.chunkRows d.state) (d.state.rows.toNat - first) := s.spans
  have hk := e.chunkRows_pos d.state
  have hp := portions_sub hk (Nat.sub_pos_of_lt hf)
  have due : (e.step .tick).lastChecksum ≠ some d.regionChecksum := by
    have hl : (e.step .tick).lastChecksum = e.lastChecksum :=
      s.lastChecksum.trans <| if_neg <| Nat.ne_of_gt pos
    rwa [hl]
  rw [← hp, Nat.add_right_comm, Nat.add_sub_cancel]
  by_cases hl : first + e.chunkRows d.state < d.state.rows.toNat
  case pos =>
    have hn : (e.step .tick).scanRow = first + e.chunkRows d.state := by
      refine s.scanRow.trans ?_
      rw [rowAfter_of_lt] <;> omega
    have : (e.step .tick).Owes d cells r _ := .leftover (by omega) (by omega) due
    rwa [c.chunkRows, c.passLength, hn, ← Nat.sub_sub] at this
  case neg =>
    have hn : (e.step .tick).scanRow = 0 := by
      refine s.scanRow.trans <| rowAfter_of_le ?_
      omega
    have ht : rowAfter d.state.rows.toNat (e.step .tick).scanRow = 0 := by
      rw [hn, rowAfter_of_lt streamable.rows_pos]
    have hz : d.state.rows.toNat - first - e.chunkRows d.state = 0 := by
      omega
    have : (e.step .tick).Owes d cells r _ := .top ht due
    rwa [c.passLength, ← Nat.zero_add (e.passLength d.state), ← portions_zero (e.chunkRows d.state),
      ← hz] at this

include shows streamable in
theorem Owes.sends (o : e.Owes d cells r n) (wellFormed : r.WellFormed)
    (s : e.Sends d first rows ts) :
    (e.step .tick).Owes d cells (r.apply (d.chunk first rows)).2 (n - 1) := by
  have hb := s.begins
  cases o
  case leftover pos lt due =>
    have hf : first = e.scanRow := hb.trans <| rowAfter_of_lt lt
    rw [← hf] at pos ⊢
    exact s.owes_leftover streamable pos due
  case top top due =>
    rw [passLength, ← Nat.sub_zero d.state.rows.toNat, ← top, ← hb]
    exact s.owes shows streamable wellFormed (.inl <| hb.trans top)
  case pass pos lt carries =>
    have hf : first = e.scanRow := hb.trans <| rowAfter_of_lt lt
    rw [← hf] at carries ⊢
    exact s.owes shows streamable wellFormed (.inr carries)
  case nothing synced =>
    rw [synced, Replica.apply_image shows streamable (s.within streamable)]
    exact .nothing rfl

-- A screen is only found unchanged when nothing is owed.
theorem Owes.skips (o : e.Owes d cells r n) (s : e.Skips d) :
    (e.step .tick).Owes d cells r (n - 1) := by
  have ht := s.top
  cases o
  case leftover pos lt _ =>
    rw [rowAfter_of_lt lt] at ht
    omega
  case top due => exact absurd s.checksum due
  case pass pos lt _ =>
    rw [rowAfter_of_lt lt] at ht
    omega
  case nothing synced => exact .nothing synced

omit shows [Host σ] in
include streamable in
theorem Owes.eq_image (o : e.Owes d cells r n) (hn : n = 0) : r = d.image cells := by
  have hk := e.chunkRows_pos d.state
  have hl : 0 < e.passLength d.state := portions_pos hk streamable.rows_pos
  cases o
  case leftover       => omega
  case top            => omega
  case pass lt _      => exact absurd hn <| Nat.ne_of_gt <| portions_pos hk (Nat.sub_pos_of_lt lt)
  case nothing synced => exact synced

-- Ticks within which every replica comes to be the image of the display.
def settling (e : Engine σ) (d : Display) : Nat :=
  if e.scanRow = 0 ∨ d.state.rows.toNat ≤ e.scanRow then e.passLength d.state
  else portions (e.chunkRows d.state) (d.state.rows.toNat - e.scanRow) + e.passLength d.state

omit [Host σ] in
theorem owes_settling (due : e.lastChecksum ≠ some d.regionChecksum) :
    e.Owes d cells r (e.settling d) := by
  rw [settling]
  split
  · apply Owes.top _ due
    rw [rowAfter]
    split <;> omega
  · exact .leftover (by omega) (by omega) due

-- The display stands still, and the viewer holds a live session.
structure Shown (d : Display) (identity : Identity) (nonce : UInt32) (e : Engine σ) : Prop where
  display : Host.display e.host = d
  serves  : e.Serves identity nonce

variable {v v' : Viewer} {identity : Identity} {event : Event σ}

include shows streamable in
theorem Owes.step (o : e.Owes d cells v.replica n) (wellFormed : v.replica.WellFormed)
    (h : event = .tick → Host.display e.host = d) (m : e.Moves v event v') :
    (e.step event).Owes d cells v'.replica (n - ticks [event]) := by
  cases m
  case wait ne =>
    rw [ticks_cons ne]
    exact o.wait (e.waits_step ne) (e.continues_step event)
  case skip skips =>
    rw [h rfl] at skips
    exact o.skips skips
  case send sends =>
    simp only [h rfl] at sends ⊢
    exact o.sends shows streamable wellFormed sends

theorem replica_converges (reachable : e.Reachable) (shows : d.Shows cells)
    (streamable : d.state.Streamable) (due : e.lastChecksum ≠ some d.regionChecksum)
    (mirror : v.replica.Reachable) (target : v.target = e.identity)
    (smooth : Smooth (Shown d identity v.nonce) e events)
    (enough : e.settling d ≤ ticks events) :
    let heard := v.takeAll ⟨e.config.ethertype⟩ (deliveries (e.handed events) identity v.nonce)
    heard.2.replica = d.image cells ∧ ∀ a ∈ heard.1, ∃ completed, a = .ok completed := by
  have watches : e.Watches v := ⟨reachable.hasRoom, target, mirror.wellFormed⟩
  have viewed (x : Engine σ) (h : Shown d identity v.nonce x) : x.Viewed identity v.nonce := by
    have hd := h.display
    exact ⟨hd ▸ shows.fills, hd ▸ streamable, h.serves⟩
  have ⟨v', ht, _, n, hn, o⟩ := watches.run
    (I := fun rest x r => ∃ n, n ≤ ticks rest ∧ x.Owes d cells r n) viewed
    (fun {x event rest v v'} w h m hi => by
      have ⟨n, hn, o⟩ := hi
      have hs : ticks (event :: rest) = ticks [event] + ticks rest := ticks_append [event] rest
      exact ⟨n - ticks [event], by omega,
        o.step shows streamable w.wellFormed (fun he => (h he).display) m⟩)
    smooth ⟨_, enough, owes_settling due⟩
  refine ⟨?_, ht.answers⟩
  rw [ht.viewer]
  exact o.eq_image streamable (Nat.le_zero.mp hn)

-- The viewer of the session.
def Sample.viewer : Viewer where
  target := Sample.bench.identity
  nonce  := 7

theorem replica_converges_bench :
    let heard := Sample.viewer.takeAll ⟨Sample.engine.config.ethertype⟩
      (deliveries (Sample.engine.handed (Sample.pinged ++ [.tick])) Sample.station 7)
    heard.2.replica = Sample.screen.display.image Sample.screen.cells ∧
      ∀ a ∈ heard.1, ∃ completed, a = .ok completed := by
  apply replica_converges Sample.reachable Sample.shows Sample.streamable Sample.due .blank
  · decide +kernel
  · apply Sample.smooth
    intro x hx
    exact ⟨congrArg Host.display (Sample.host_eq hx), Sample.serves hx⟩
  · decide +kernel

end Engine

end RemoteScreen

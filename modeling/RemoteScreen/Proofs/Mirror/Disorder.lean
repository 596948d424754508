import RemoteScreen.Proofs.Mirror.Completion

namespace RemoteScreen

theorem Octets.getElem?_overwrite {buffer octets : Octets} {start : Nat}
    (h : start + octets.length ≤ buffer.length) (k : Nat) :
    (buffer.overwrite start octets)[k]? =
      if start ≤ k ∧ k < start + octets.length then octets[k - start]? else buffer[k]? := by
  have hs : (buffer.take start).length = start := by
    rw [List.length_take]
    omega
  rw [overwrite, List.append_assoc]
  by_cases hk : k < start
  case pos =>
    rw [List.getElem?_append_left (by omega), List.getElem?_take_of_lt hk, if_neg (by omega)]
  case neg =>
    rw [List.getElem?_append_right (by omega), hs]
    by_cases hl : k < start + octets.length
    case pos =>
      rw [List.getElem?_append_left (by omega), if_pos (by omega)]
    case neg =>
      rw [List.getElem?_append_right (by omega), List.getElem?_drop, if_neg (by omega)]
      congr 1
      omega

namespace Replica

variable {r : Replica} {d : Display} {cells : Octets} {first rows : Nat}

-- The replica is like the image of the display in all but the cells outside these rows.
structure Holds (r : Replica) (d : Display) (cells : Octets) (first rows : Nat) : Prop where
  frame  : { r with cells } = d.image cells
  length : r.cells.length = cells.length
  within : ∀ k, first * d.state.rowLength ≤ k → k < (first + rows) * d.state.rowLength →
    r.cells[k]? = cells[k]?

variable (shows : d.Shows cells) (streamable : d.state.Streamable)
  (hr : first + rows ≤ d.state.rows.toNat)

-- A chunk of the display settles the cells in its place and leaves those in every other.
include shows streamable hr in
theorem getElem?_apply_chunk (wellFormed : r.WellFormed) (k : Nat) :
    (r.apply (d.chunk first rows)).2.cells[k]? =
      if first * d.state.rowLength ≤ k ∧ k < (first + rows) * d.state.rowLength then cells[k]?
      else (r.reshape d.state.rows d.state.cols).cells[k]? := by
  have hl := DisplayState.stretch_le hr
  have hc := Display.length_cells_chunk shows.fills first rows
  rw [apply_chunk wellFormed shows.fills streamable hr]
  simp only
  rw [Octets.getElem?_overwrite (by rw [wellFormed.length_reshape, hc]; exact hl), hc, Nat.add_mul]
  split
  case isFalse => rfl
  case isTrue hk =>
    rw [Display.cells_chunk shows hr, List.getElem?_take_of_lt (by omega), List.getElem?_drop]
    congr 1
    omega

include shows streamable hr in
theorem holds_apply (wellFormed : r.WellFormed) :
    (r.apply (d.chunk first rows)).2.Holds d cells first rows where
  frame  := by rw [apply_chunk wellFormed shows.fills streamable hr]; rfl
  length := by
    have hw := wellFormed.apply (d.chunk first rows)
    rw [hw, rows_apply, cols_apply, shows.length, Nat.mul_assoc]
    rfl
  within k hf hl := by
    rw [getElem?_apply_chunk shows streamable hr wellFormed, if_pos ⟨hf, hl⟩]

-- What the replica holds of the display is there to stay.
include shows streamable hr in
theorem Holds.apply {first' rows' : Nat} (h : r.Holds d cells first' rows')
    (wellFormed : r.WellFormed) : (r.apply (d.chunk first rows)).2.Holds d cells first' rows' where
  frame  := (holds_apply shows streamable hr wellFormed).frame
  length := (holds_apply shows streamable hr wellFormed).length
  within k hf hl := by
    have hs : r.reshape d.state.rows d.state.cols = r := by
      have hi := h.frame
      rw [Display.image, Replica.mk.injEq] at hi
      exact if_pos ⟨hi.left.symm, hi.right.left.symm⟩
    rw [getElem?_apply_chunk shows streamable hr wellFormed, hs, h.within k hf hl, ite_self]

-- The rows of the `i`-th portion.
def HoldsPortion (r : Replica) (d : Display) (cells : Octets) (size i : Nat) : Prop :=
  r.Holds d cells (i * size) (min size (d.state.rows.toNat - i * size))

-- Every cell is in some portion.
include shows streamable in
theorem eq_image_of_holds {size : Nat} (hs : 0 < size)
    (h : ∀ i < portions size d.state.rows.toNat, r.HoldsPortion d cells size i) :
    r = d.image cells := by
  have hz := h 0 (portions_pos hs streamable.rows_pos)
  suffices hc : r.cells = cells by
    rw [← hz.frame, ← hc]
  apply List.ext_getElem?
  intro k
  by_cases hk : k < cells.length
  case neg =>
    rw [List.getElem?_eq_none (Nat.le_of_not_lt hk), List.getElem?_eq_none]
    exact hz.length ▸ Nat.le_of_not_lt hk
  case pos =>
    have hl := DisplayState.rowLength_pos streamable.cols
    let row := k / d.state.rowLength
    have hrow : row < d.state.rows.toNat := by
      rw [Nat.div_lt_iff_lt_mul hl]
      exact Nat.lt_of_lt_of_eq hk shows.length
    have hi : row / size * size ≤ row := Nat.div_mul_le_self ..
    have hi' : row < row / size * size + size := Nat.lt_div_mul_add hs
    have hp := h (row / size) ((lt_portions hs).mpr (by omega))
    apply hp.within
    · rw [← Nat.le_div_iff_mul_le hl]
      exact hi
    · rw [← Nat.div_lt_iff_lt_mul hl]
      omega

end Replica

namespace Display

-- A portion ends within the screen.
theorem portion_within {d : Display} {size i : Nat} (h : i * size < d.state.rows.toNat) :
    i * size + min size (d.state.rows.toNat - i * size) ≤ d.state.rows.toNat := by
  omega

end Display

namespace Viewer

variable {v : Viewer} {d : Display} {cells : Octets} {size i : Nat} {codec : Codec}
  {identity : Identity}

-- The frame that takes the `i`-th portion of a display to the viewer.
def portionFrame (v : Viewer) (codec : Codec) (identity : Identity) (d : Display) (size i : Nat) :
    Frame :=
  (d.portion size i).framed v.target codec.ethertype identity v.nonce

-- All the frames are portions of the display, for the viewer, or are of no concern to it.
def Sees (v : Viewer) (codec : Codec) (identity : Identity) (d : Display) (size : Nat)
    (raws : List Octets) : Prop :=
  ∀ raw ∈ raws,
    (∃ i < portions size d.state.rows.toNat, raw = (v.portionFrame codec identity d size i).encode) ∨
    ∀ f, codec.read? raw = some f → ¬ v.concerns f

theorem Stays.portionFrame {v' : Viewer} (s : v.Stays v') (i : Nat) :
    v'.portionFrame codec identity d size i = v.portionFrame codec identity d size i := by
  rw [Viewer.portionFrame, Viewer.portionFrame, s.target, s.nonce]

theorem concerns_portionFrame (v : Viewer) (codec : Codec) (identity : Identity) (d : Display)
    (size i : Nat) : v.concerns (v.portionFrame codec identity d size i) := by
  simp [concerns, portionFrame, Chunk.framed]

theorem Sees.tail {v' : Viewer} {raw : Octets} {raws : List Octets}
    (h : v.Sees codec identity d size (raw :: raws)) (s : v.Stays v') :
    v'.Sees codec identity d size raws := by
  intro x hx
  have h := h x (.tail _ hx)
  simpa only [portionFrame, concerns, s.target, s.nonce] using h

variable (shows : d.Shows cells) (streamable : d.state.Streamable) (hs : 0 < size)
  (fits : headerLength + (chunkHeaderLength + size * d.state.rowLength) ≤ maxJumboLength)

include shows fits in
theorem read?_portionFrame (v : Viewer) (codec : Codec) (identity : Identity) (i : Nat) :
    codec.read? (v.portionFrame codec identity d size i).encode
      = some (v.portionFrame codec identity d size i) := by
  apply Chunk.read?_framed
  rw [Display.portion, Display.length_cells_chunk shows.fills]
  have := Nat.mul_le_mul_right d.state.rowLength
    (Nat.min_le_left size (d.state.rows.toNat - i * size))
  omega

-- A portion is held once its frame is in.
include shows streamable hs in
theorem onFrame_portionFrame (wellFormed : v.replica.WellFormed) (codec : Codec)
    (identity : Identity) (hi : i < portions size d.state.rows.toNat) :
    let after := v.onFrame (v.portionFrame codec identity d size i)
    (∃ completed, after.1 = .ok completed) ∧ after.2.replica.WellFormed ∧
      after.2.replica.HoldsPortion d cells size i ∧
      ∀ j, v.replica.HoldsPortion d cells size j → after.2.replica.HoldsPortion d cells size j := by
  have hr := Display.portion_within ((lt_portions hs).mp hi)
  have ⟨completed, ho⟩ :=
    onFrame_chunk wellFormed shows.fills streamable hr codec.ethertype identity
  simp only [portionFrame, Display.portion, ho]
  exact ⟨⟨completed, rfl⟩, wellFormed.apply _, Replica.holds_apply shows streamable hr wellFormed,
    fun j h => h.apply shows streamable hr wellFormed⟩

-- The induction is on the frames. However often a portion comes, and whatever comes in between, the
-- portions that are held stay so.
include shows streamable hs fits in
theorem Sees.takes {raws : List Octets} (h : v.Sees codec identity d size raws)
    (wellFormed : v.replica.WellFormed) :
    ∃ v', v.Takes codec raws v' ∧ ∀ i < portions size d.state.rows.toNat,
      (v.portionFrame codec identity d size i).encode ∈ raws ∨
        v.replica.HoldsPortion d cells size i → v'.replica.HoldsPortion d cells size i := by
  induction raws generalizing v
  case nil => exact ⟨v, .nil, fun i _ hi => hi.resolve_left List.not_mem_nil⟩
  case cons raw raws ih =>
    have hread := read?_portionFrame shows fits v codec identity
    cases h raw (.head _)
    case inl hp =>
      obtain ⟨i, hi, rfl⟩ := hp
      have stays := v.stays_onFrame (v.portionFrame codec identity d size i)
      have ⟨⟨completed, ho⟩, hw, _, keeps⟩ :=
        onFrame_portionFrame shows streamable hs wellFormed codec identity hi
      have ⟨v', takes, holds⟩ := ih (h.tail stays) hw
      refine ⟨v', takes.cons (hread i) (Prod.ext ho rfl), fun j hj hor => holds j hj ?_⟩
      rw [stays.portionFrame]
      cases hor
      case inr hk => exact .inr <| keeps j hk
      case inl hm =>
        cases List.mem_cons.mp hm
        case inr hm => exact .inl hm
        case inl he =>
          have hf := hread j
          rw [he, hread i, Option.some.injEq] at hf
          have ⟨_, _, hk, _⟩ := onFrame_portionFrame shows streamable hs wellFormed codec identity hj
          rw [← hf] at hk
          exact .inr hk
    case inr hn =>
      have ⟨v', takes, holds⟩ := ih (h.tail ⟨rfl, rfl, id⟩) wellFormed
      have takes : v.Takes codec (raw :: raws) v' := by
        cases hc : codec.read? raw
        case none => exact takes.skip hc
        case some f => exact takes.cons hc <| if_neg (hn f hc)
      refine ⟨v', takes, fun j hj hor => holds j hj ?_⟩
      refine hor.imp_left fun hm => ?_
      cases List.mem_cons.mp hm
      case inr hm => exact hm
      case inl he => exact absurd (v.concerns_portionFrame ..) (hn _ (he ▸ hread j))

end Viewer

namespace Engine

variable {σ : Type} [Host σ] {e : Engine σ} {d : Display} {cells : Octets} {v : Viewer} {i : Nat}
  {identity : Identity} {nonce : UInt32} {event : Event σ} {events : List (Event σ)}

-- The frames that the ticks on the way have for the session.
def passed (e : Engine σ) (identity : Identity) (nonce : UInt32) (events : List (Event σ)) :
    List Octets :=
  (e.ticked events).flatMap fun x => addressed (x.handed [.tick]) identity nonce

-- The induction is on the events. Each tick finds the pass where the tick before it left it.
theorem Passing.passed (p : e.Passing d i) (fills : d.Fills) (streamable : d.state.Streamable)
    (distinct : e.sessions.Distinct)
    (shown : ∀ x ∈ e.ticked events, Shown d identity nonce x)
    (hn : i + ticks events ≤ e.passLength d.state) :
    e.passed identity nonce events = (List.range' i (ticks events)).map fun j =>
      ((d.portion (e.chunkRows d.state) j).framed e.identity e.config.ethertype identity
        nonce).encode := by
  induction events generalizing e i
  case nil => rfl
  case cons event rest hi =>
    have c := e.continues_step event
    have distinct' := distinct_step distinct event
    have config : (e.step event).config = e.config := c.config
    have own : (e.step event).identity = e.identity := c.identity
    rw [← c.passLength] at hn
    by_cases ht : event = .tick
    case neg =>
      rw [ticks_cons ht] at hn ⊢
      rw [ticked_cons ht] at shown
      have hi := hi (p.wait (e.waits_step ht) c) distinct' shown hn
      rw [config, own, c.chunkRows] at hi
      rw [← hi, Engine.passed, ticked_cons ht, Engine.passed]
    case pos =>
      subst ht
      have hl : i < e.passLength d.state := by
        rw [c.passLength, ticks] at hn
        omega
      have here := shown e (.head _)
      have live := here.serves.active_ne_nil
      obtain ⟨ts, s⟩ := p.sends here.display fills streamable live hl
      have ha := (addressed_cases distinct s.offers.frames identity nonce).resolve_left <|
        here.serves.addressed_ne_nil s.offers.frames
      have hi := hi (p.tick here.display fills streamable live hl) distinct'
        (fun x hx => shown x (.tail _ hx)) (by rw [ticks] at hn; omega)
      rw [config, own, c.chunkRows] at hi
      rw [ticks, List.range'_succ, List.map_cons, ← hi, Engine.passed, ticked, List.flatMap_cons,
        s.handed, ha]
      rfl

theorem rebuilt_in_any_order (reachable : e.Reachable) (shows : d.Shows cells)
    (streamable : d.state.Streamable) (top : e.scanRow = 0)
    (due : e.lastChecksum ≠ some d.regionChecksum) (mirror : v.replica.Reachable)
    (target : v.target = e.identity) (shown : ∀ x ∈ e.ticked events, Shown d identity v.nonce x)
    (full : ticks events = e.passLength d.state) (delivered : List Octets)
    (whole : ∀ raw ∈ e.passed identity v.nonce events, raw ∈ delivered)
    (others : ∀ raw ∈ delivered, raw ∉ e.passed identity v.nonce events →
      ∀ f, Codec.read? ⟨e.config.ethertype⟩ raw = some f → ¬ v.concerns f) :
    let heard := v.takeAll ⟨e.config.ethertype⟩ delivered
    (e.passed identity v.nonce events).length = e.passLength d.state ∧
      heard.2.replica = d.image cells ∧ ∀ a ∈ heard.1, ∃ completed, a = .ok completed := by
  let codec : Codec := ⟨e.config.ethertype⟩
  let size := e.chunkRows d.state
  have hs : 0 < size := e.chunkRows_pos d.state
  have fits : headerLength + (chunkHeaderLength + size * d.state.rowLength) ≤ maxJumboLength :=
    Nat.le_trans (e.config.length_rows_le <| Nat.le_refl _) e.config.effectiveMtu_le
  have p := passing_zero reachable.hasRoom streamable top due
  have hp : e.passed identity v.nonce events = (List.range <| e.passLength d.state).map fun j =>
      (v.portionFrame codec identity d size j).encode := by
    rw [p.passed shows.fills streamable reachable.distinct shown (by omega), full,
      ← List.range_eq_range', ← target]
    rfl
  have sees : v.Sees codec identity d size delivered := by
    intro raw hm
    by_cases hr : raw ∈ e.passed identity v.nonce events
    case neg => exact .inr <| others raw hm hr
    case pos =>
      rw [hp] at hr
      have ⟨j, hj, he⟩ := List.mem_map.mp hr
      exact .inl ⟨j, List.mem_range.mp hj, he.symm⟩
  have ⟨v', takes, holds⟩ := sees.takes shows streamable hs fits mirror.wellFormed
  refine ⟨by simp [hp], ?_, takes.answers⟩
  rw [takes.viewer]
  apply Replica.eq_image_of_holds shows streamable hs
  intro j hj
  refine holds j hj <| .inl <| whole _ ?_
  rw [hp]
  exact List.mem_map.mpr ⟨j, List.mem_range.mpr hj, rfl⟩

namespace Sample

-- A viewer that has seen a screen of a single cell before.
def stale : Viewer :=
  { viewer with replica := (({} : Replica).apply ⟨⟨1, 1, 0, 0, 0, 2⟩, [65, 7]⟩).2 }

-- The two frames of the pass over the screen.
def halves : List Octets :=
  engine.passed station 7 (pinged ++ [.tick])

-- The second half comes first, and then both come again behind a ping.
def shuffled : List Octets :=
  halves.reverse ++ frame .ping :: halves

end Sample

theorem rebuilt_in_any_order_shuffled :
    let heard := Sample.stale.takeAll ⟨Sample.engine.config.ethertype⟩ Sample.shuffled
    Sample.halves.length = 2 ∧
      heard.2.replica = Sample.screen.display.image Sample.screen.cells ∧
      ∀ a ∈ heard.1, ∃ completed, a = .ok completed := by
  have target : Sample.stale.target = Sample.engine.identity := by
    decide +kernel
  have full : ticks (Sample.pinged ++ [.tick])
      = Sample.engine.passLength Sample.screen.display.state := by
    decide +kernel
  have smooth : Smooth (Shown Sample.screen.display Sample.station 7) Sample.engine
      (Sample.pinged ++ [.tick]) := by
    apply Sample.smooth
    intro x hx
    exact ⟨congrArg Host.display (Sample.host_eq hx), Sample.serves hx⟩
  have ⟨two, rebuilt⟩ := rebuilt_in_any_order Sample.reachable Sample.shows Sample.streamable
    Sample.top Sample.due (.apply _ .blank) target smooth.ticks full Sample.shuffled ?whole ?others
  · exact ⟨two.trans full.symm, rebuilt⟩
  case whole =>
    intro raw hr
    exact List.mem_append_right _ (.tail _ hr)
  case others =>
    intro raw hm hn f hf
    have hn : raw ∉ Sample.halves := hn
    have hr : raw = Sample.frame .ping := by
      simpa [Sample.shuffled, hn] using hm
    rw [hr, Sample.frame, ← List.append_nil (Frame.encode _)] at hf
    simp [Viewer.concerns, Codec.kind_of_read? hf]

end Engine

end RemoteScreen

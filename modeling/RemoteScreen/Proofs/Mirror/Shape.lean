import Mathlib.Data.List.Basic
import Mathlib.Data.List.Induction
import RemoteScreen.Proofs.Mirror.Freshness

namespace RemoteScreen

def DisplayState.shape (s : DisplayState) : UInt8 × UInt8 :=
  (s.rows, s.cols)

theorem Screen.streamable {s : Screen} (h : isUsable s.rows s.cols) : s.state.Streamable := by
  simp only [isUsable, Bool.and_eq_true, decide_eq_true_eq, regionLength, Nat.mul_assoc] at h
  refine ⟨?rows, ?cols, h.right⟩
  case rows =>
    intro (hz : s.rows = 0)
    simp [hz] at h
  case cols =>
    intro (hz : s.cols = 0)
    simp [hz] at h

namespace ChunkHeader

def shape (h : ChunkHeader) : UInt8 × UInt8 :=
  (h.rows, h.cols)

-- The chunk is the first of a pass.
def opens (h : ChunkHeader) : Bool :=
  h.start == 0

end ChunkHeader

-- The header of the chunk that was handed to the link, if it was one.
def Transmission.chunkHeader? (codec : Codec) (t : Transmission) : Option ChunkHeader :=
  match codec.read? t.frame with
  | some ⟨_, _, .screenChunk, payload⟩ => (ChunkHeader.take? payload).map Prod.fst
  | _ => none

theorem Transmission.IsReply.chunkHeader?_eq_none {t : Transmission} (h : t.IsReply)
    (codec : Codec) : t.chunkHeader? codec = none := by
  have ⟨f, rest, hk, hf⟩ := h
  rw [chunkHeader?, hf]
  split
  case h_1 hr => exact absurd (Codec.kind_of_read? hr).symm hk
  case h_2    => rfl

namespace Engine

variable {σ : Type} [Host σ] {e e' : Engine σ} {d : Display} {seen seen' : List Display}
  {hs hs' : List ChunkHeader} {event : Event σ} {events : List (Event σ)}

-- The headers of the chunks that go out in the course of the events.
def headers (e : Engine σ) (events : List (Event σ)) : List ChunkHeader :=
  (e.handed events).filterMap fun t => t.chunkHeader? ⟨e.config.ethertype⟩

theorem headers_of_ne (h : event ≠ .tick) : e.headers [event] = [] := by
  have ⟨ts, hh, hr⟩ := (e.waits_step h).hands
  have hh : e.handed [event] = ts := Hands.handed hh
  rw [headers, hh, List.filterMap_eq_nil_iff]
  exact fun t ht => (hr t ht).chunkHeader?_eq_none _

-- Whenever the engine looks at its display, it sees a text screen.
def Texts (e : Engine σ) (events : List (Event σ)) : Prop :=
  ∀ d ∈ e.screens events, ∃ s : Screen, Screen.isUsable s.rows s.cols ∧ d = s.display

theorem Texts.left {xs ys : List (Event σ)} (h : e.Texts (xs ++ ys)) : e.Texts xs :=
  fun d hd => h d <| by rw [screens_append]; exact List.mem_append_left _ hd

theorem Texts.right {xs ys : List (Event σ)} (h : e.Texts (xs ++ ys)) : (e.run xs).Texts ys :=
  fun d hd => h d <| by rw [screens_append]; exact List.mem_append_right _ hd

theorem Texts.fills (h : e.Texts events) (hd : d ∈ e.screens events) : d.Fills := by
  have ⟨s, _, hs⟩ := h d hd
  exact hs ▸ s.fills_display

theorem Texts.tick (h : e.Texts [.tick]) : (Host.display e.host).state.Streamable := by
  have ⟨s, hu, hs⟩ := h (Host.display e.host) (.head _)
  exact hs ▸ Screen.streamable hu

variable {first rows : Nat} {ts : List Transmission}

-- Every session is sent a chunk of the same header.
theorem Sends.headers (s : e.Sends d first rows ts) (fills : d.Fills) :
    e.headers [.tick] = List.replicate ts.length (d.chunk first rows).header := by
  have hr (t : Transmission) (ht : t ∈ ts) :
      t.chunkHeader? ⟨e.config.ethertype⟩ = some (d.chunk first rows).header := by
    have ⟨session, hf⟩ := s.frame ht
    have hl : headerLength + (chunkHeaderLength + (d.chunk first rows).cells.length)
        ≤ maxJumboLength := by
      rw [Display.length_cells_chunk fills]
      exact s.length_le
    rw [Transmission.chunkHeader?, hf, Chunk.read?_framed hl]
    simp [Chunk.framed, Chunk.encode]
  rw [Engine.headers, s.handed, List.filterMap_eq_map_iff_forall_eq_some.mpr hr, List.map_const']

theorem Sends.length_pos (s : e.Sends d first rows ts) : 0 < ts.length :=
  List.length_pos_iff.mpr <| Transmission.ne_nil_of_frames s.offers.frames s.sessions

theorem Sends.opens_iff (s : e.Sends d first rows ts) (streamable : d.state.Streamable) :
    (d.chunk first rows).header.opens ↔ first = 0 := by
  have hs := Display.start_chunk streamable (s.within streamable)
  have hl : d.state.rowLength ≠ 0 := by
    have := DisplayState.toNat_pos streamable.cols
    rw [DisplayState.rowLength, cellWidth]
    omega
  rw [ChunkHeader.opens, beq_iff_eq, ← UInt16.toNat_inj, hs, UInt16.toNat_zero, Nat.mul_eq_zero]
  exact or_iff_left hl

-- The last pass began with the display `began` and a chunk of its shape, the ticks since then have
-- found the displays `since`, and the last chunk has the shape of one of these.
structure LastPass (seen : List Display) (hs : List ChunkHeader) (began : Display)
    (since : List Display) (first last : ChunkHeader) : Prop where
  recent : began :: since <:+ seen
  opens  : (hs.filter ChunkHeader.opens).getLast? = some first
  begins : first.shape = began.state.shape
  closes : hs.getLast? = some last
  ends   : ∃ d ∈ began :: since, last.shape = d.state.shape

-- The checksum that the engine goes by is that of the display which the last pass began with.
def Marks (e : Engine σ) (seen : List Display) (hs : List ChunkHeader) : Prop :=
  ∀ checksum, e.lastChecksum = some checksum →
    ∃ began since first last, LastPass seen hs began since first last ∧
      began.regionChecksum = checksum

-- Chunks that open no pass belong to the last one.
theorem LastPass.append {began : Display} {since : List Display} {first last : ChunkHeader}
    (pass : LastPass seen hs began since first last)
    (h : ∀ x ∈ hs', ¬ x.opens ∧ ∃ d ∈ seen', x.shape = d.state.shape) :
    ∃ last', LastPass (seen ++ seen') (hs ++ hs') began (since ++ seen') first last' := by
  have recent : began :: (since ++ seen') <:+ seen ++ seen' := by
    have ⟨before, hb⟩ := pass.recent
    exact ⟨before, by rw [← hb, List.append_assoc, List.cons_append]⟩
  have opens : ((hs ++ hs').filter ChunkHeader.opens).getLast? = some first := by
    rw [List.filter_append, List.filter_eq_nil_iff.mpr fun x hx => (h x hx).left, List.append_nil]
    exact pass.opens
  cases hl : hs'.getLast?
  case none =>
    have ⟨d, hd, he⟩ := pass.ends
    refine ⟨last, recent, opens, pass.begins, ?_, d, List.mem_append_left seen' hd, he⟩
    rw [List.getLast?_append, hl, Option.none_or]
    exact pass.closes
  case some last' =>
    have ⟨_, d, hd, he⟩ := h last' <| List.mem_of_getLast? hl
    refine ⟨last', recent, opens, pass.begins, ?_, d, List.mem_append_right (began :: since) hd, he⟩
    rw [List.getLast?_append, hl, Option.some_or]

omit [Host σ] in
theorem Marks.keep (m : e.Marks seen hs)
    (hl : e'.lastChecksum = e.lastChecksum ∨ e'.lastChecksum = none)
    (h : ∀ x ∈ hs', ¬ x.opens ∧ ∃ d ∈ seen', x.shape = d.state.shape) :
    e'.Marks (seen ++ seen') (hs ++ hs') := by
  intro checksum hc
  have hl : e.lastChecksum = some checksum := by
    cases hl
    case inl hs => exact hs ▸ hc
    case inr hn => rw [hn] at hc; contradiction
  have ⟨began, since, first, last, pass, hk⟩ := m checksum hl
  have ⟨last', pass⟩ := pass.append h
  exact ⟨began, since ++ seen', first, last', pass, hk⟩

theorem Marks.send (m : e.Marks seen hs) (s : e.Sends d first rows ts) (fills : d.Fills)
    (streamable : d.state.Streamable) :
    (e.step .tick).Marks (seen ++ [d]) (hs ++ e.headers [.tick]) := by
  let header := (d.chunk first rows).header
  have hl : (e.step .tick).lastChecksum
      = if first = 0 then some d.regionChecksum else e.lastChecksum := s.lastChecksum
  have ho : header.opens ↔ first = 0 := s.opens_iff streamable
  have hn := Nat.ne_of_gt s.length_pos
  rw [s.headers fills]
  by_cases hz : first = 0
  case pos =>
    rw [if_pos hz] at hl
    intro checksum hc
    have hk := Option.some.inj <| hl.symm.trans hc
    have ends : ∃ x ∈ [d], header.shape = x.state.shape := ⟨d, .head _, rfl⟩
    refine ⟨d, [], header, header, ⟨List.suffix_append .., ?opens, rfl, ?closes, ends⟩, hk⟩
    case opens  => simp [List.getLast?_append, List.getLast?_replicate, header, ho.mpr hz, hn]
    case closes => simp [List.getLast?_append, List.getLast?_replicate, header, hn]
  case neg =>
    rw [if_neg hz] at hl
    refine m.keep (.inl hl) fun x hx => ?_
    rw [List.eq_of_mem_replicate hx, ho]
    exact ⟨hz, d, .head _, rfl⟩

theorem Marks.step (m : e.Marks seen hs) (room : e.HasRoom) (texts : e.Texts [event]) :
    (e.step event).Marks (seen ++ e.screens [event]) (hs ++ e.headers [event]) := by
  by_cases ht : event = .tick
  case neg =>
    refine m.keep (e.waits_step ht).lastChecksum ?_
    simp [headers_of_ne ht]
  case pos =>
    subst ht
    have fills := texts.fills (.head _)
    have streamable := texts.tick
    have still (hl : e.tick.2.lastChecksum = e.lastChecksum) (hn : e.Hands [] e.tick.2) :
        (e.step .tick).Marks (seen ++ e.screens [.tick]) (hs ++ e.headers [.tick]) := by
      have hh : e.handed [.tick] = [] := Hands.handed hn
      refine m.keep (.inl hl) ?_
      simp [headers, hh]
    obtain idles | skips | ⟨first, rows, ts, sends⟩ := tick_cases room rfl fills streamable
    · exact still (congrArg Control.lastChecksum idles.control) idles.hands
    · exact still (congrArg Control.lastChecksum skips.control) skips.hands
    · exact m.send sends fills streamable

namespace Sample

def showing (screen : Screen) : Bench :=
  { bench with display := .screen screen }

def isText (b : Bench) : Bool :=
  match b.display with
  | .screen s => Screen.isUsable s.rows s.cols
  | _         => false

theorem texts {e : Engine Bench} {events : List (Event Bench)}
    (h : (e.ticked events).all fun x => isText x.host) : e.Texts events := by
  intro d hd
  have ⟨x, hx, hs⟩ := List.mem_map.mp hd
  have ht := List.all_eq_true.mp h x hx
  rw [isText] at ht
  split at ht
  case h_1 s hb =>
    have hs : x.host.display.display = d := hs
    rw [hb] at hs
    exact ⟨s, ht, hs.symm⟩
  case h_2 => contradiction

end Sample

namespace Sample

-- Two blank cells, one below the other or side by side.
def upright : Screen where
  rows  := 2
  cols  := 1
  cells := Screen.blanks defaultAttribute 2

def level : Screen :=
  { upright with rows := 1, cols := 2 }

-- The screen is turned once all of it has gone out.
def turned : List (Event Bench) :=
  [.dispatch (frame .sessionStart), .tick, .change (showing level)]

end Sample

end Engine

end RemoteScreen

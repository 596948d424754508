import RemoteScreen.Proofs.Engine.Run
import RemoteScreen.Proofs.Mirror.Replica
import RemoteScreen.Viewer

namespace RemoteScreen

-- The frame is for the named session.
def Transmission.goesTo (t : Transmission) (identity : Identity) (nonce : UInt32) : Bool :=
  match LinkHeader.take? t.frame with
  | none => false
  | some (link, rest) =>
    match ProtocolHeader.take? rest with
    | none => false
    | some (header, _) => link.destination == identity && header.nonce == nonce

-- What the link carried to the named session.
def deliveries (ts : List Transmission) (identity : Identity) (nonce : UInt32) : List Octets :=
  (ts.filter fun t => succeeded t.outcome && t.goesTo identity nonce).map Transmission.frame

theorem deliveries_append (xs ys : List Transmission) (identity : Identity) (nonce : UInt32) :
    deliveries (xs ++ ys) identity nonce
      = deliveries xs identity nonce ++ deliveries ys identity nonce := by
  simp [deliveries]

-- The frames for the named session, whether the link carried them or not.
def addressed (ts : List Transmission) (identity : Identity) (nonce : UInt32) : List Octets :=
  (ts.filter (·.goesTo identity nonce)).map Transmission.frame

theorem deliveries_sublist (ts : List Transmission) (identity : Identity) (nonce : UInt32) :
    (deliveries ts identity nonce).Sublist (addressed ts identity nonce) := by
  rw [deliveries, ← List.filter_filter]
  exact List.filter_sublist.map _

theorem deliveries_of_succeeded {ts : List Transmission} (h : ∀ t ∈ ts, succeeded t.outcome)
    (identity : Identity) (nonce : UInt32) :
    deliveries ts identity nonce = addressed ts identity nonce := by
  rw [deliveries, addressed]
  congr 1
  exact List.filter_congr fun t ht => by simp [h t ht]

theorem addressed_framed {ts : List Transmission} {c : Chunk} {own : Identity}
    {ethertype : UInt16} {sessions : List Session}
    (h : ts.map Transmission.frame = c.framesFor own ethertype sessions) (identity : Identity)
    (nonce : UInt32) :
    addressed ts identity nonce = (sessions.filter (·.isNamed identity nonce)).map fun _ =>
      (c.framed own ethertype identity nonce).encode := by
  induction ts generalizing sessions
  case nil =>
    cases sessions
    case nil  => rfl
    case cons => contradiction
  case cons t ts hi =>
    cases sessions
    case nil => contradiction
    case cons s sessions =>
      rw [Chunk.framesFor, List.map_cons, List.map_cons, List.cons.injEq] at h
      have hi := hi h.right
      have hg : t.goesTo identity nonce = s.isNamed identity nonce := by
        simp [Transmission.goesTo, h.left, Frame.encode, Chunk.framed, ProtocolHeader.signed,
          Session.isNamed]
      rw [addressed] at hi ⊢
      cases hn : s.isNamed identity nonce
      case false => simp [hg, hn, hi]
      case true =>
        obtain ⟨ha, hb⟩ := Session.isNamed_iff.mp hn
        simp [hg, hn, hi, h.left, ha, hb]

namespace Viewer

-- Takes in all the frames that the codec can read: what the viewer says to each, and the viewer
-- then.
def takeAll (codec : Codec) (v : Viewer) : List Octets → List (Except Fault Bool) × Viewer
  | [] => ([], v)
  | raw :: rest =>
    match codec.read? raw with
    | none => takeAll codec v rest
    | some frame =>
      let (answer, v) := v.onFrame frame
      let (answers, v) := takeAll codec v rest
      (answer :: answers, v)

-- The viewer finds fault with none of the frames, and becomes `v'`.
structure Takes (codec : Codec) (v : Viewer) (raws : List Octets) (v' : Viewer) : Prop where
  viewer  : (v.takeAll codec raws).2 = v'
  answers : ∀ a ∈ (v.takeAll codec raws).1, ∃ completed, a = .ok completed

variable {codec : Codec} {v v' v'' : Viewer} {raw : Octets} {raws : List Octets}

theorem Takes.nil : Takes codec v [] v :=
  ⟨rfl, by simp [takeAll]⟩

theorem Takes.skip (h : codec.read? raw = none) (t : Takes codec v raws v') :
    Takes codec v (raw :: raws) v' := by
  constructor <;> rw [takeAll, h]
  · exact t.viewer
  · exact t.answers

theorem Takes.cons {frame : Frame} {completed : Bool} (h : codec.read? raw = some frame)
    (ho : v.onFrame frame = (.ok completed, v')) (t : Takes codec v' raws v'') :
    Takes codec v (raw :: raws) v'' := by
  constructor <;> rw [takeAll, h] <;> simp only [ho]
  · exact t.viewer
  · intro a ha
    cases ha
    case head   => exact ⟨completed, rfl⟩
    case tail h => exact t.answers a h

theorem takeAll_append (codec : Codec) (v : Viewer) (xs ys : List Octets) :
    v.takeAll codec (xs ++ ys) =
      ((v.takeAll codec xs).1 ++ ((v.takeAll codec xs).2.takeAll codec ys).1,
        ((v.takeAll codec xs).2.takeAll codec ys).2) := by
  induction xs generalizing v
  case nil => rfl
  case cons raw _ hi =>
    rw [List.cons_append, takeAll, takeAll]
    split
    · exact hi v
    · simp only [hi, List.cons_append]

theorem Takes.append {ys : List Octets} (t₁ : Takes codec v raws v')
    (t₂ : Takes codec v' ys v'') : Takes codec v (raws ++ ys) v'' := by
  constructor <;> rw [takeAll_append, t₁.viewer]
  · exact t₂.viewer
  · intro a ha
    cases List.mem_append.mp ha
    case inl h => exact t₁.answers a h
    case inr h => exact t₂.answers a h

-- Replies are of no concern to a viewer, whoever they are for.
theorem takeAll_replies {ts : List Transmission} (h : ∀ t ∈ ts, t.IsReply) (codec : Codec)
    (v : Viewer) (identity : Identity) (nonce : UInt32) :
    (v.takeAll codec (deliveries ts identity nonce)).2 = v ∧
      ∀ a ∈ (v.takeAll codec (deliveries ts identity nonce)).1, a = .ok false := by
  have hr : ∀ raw ∈ deliveries ts identity nonce, ∃ (f : Frame) (rest : Octets),
      f.kind ≠ .screenChunk ∧ raw = f.encode ++ rest := by
    intro raw hm
    simp only [deliveries, List.mem_map, List.mem_filter] at hm
    have ⟨t, ht, he⟩ := hm
    rw [← he]
    exact h t ht.left
  generalize deliveries ts identity nonce = raws at hr
  induction raws
  case nil => simp [takeAll]
  case cons raw raws hi =>
    have hi := hi fun x hx => hr x (.tail _ hx)
    have ⟨f, rest, hk, he⟩ := hr raw (.head _)
    rw [takeAll]
    cases hc : codec.read? raw
    case none => exact hi
    case some g =>
      have hg : g.kind ≠ .screenChunk := by
        rw [he] at hc
        rw [Codec.kind_of_read? hc]
        exact hk
      have ho : v.onFrame g = (.ok false, v) := by
        simp [onFrame, concerns, hg]
      simp only [ho, List.forall_mem_cons, true_and]
      exact hi

theorem Takes.replies {ts : List Transmission} (h : ∀ t ∈ ts, t.IsReply) (codec : Codec)
    (v : Viewer) (identity : Identity) (nonce : UInt32) :
    Takes codec v (deliveries ts identity nonce) v :=
  have ⟨hv, ha⟩ := takeAll_replies h codec v identity nonce
  ⟨hv, fun a hm => ⟨false, ha a hm⟩⟩

variable {d : Display} {first rows : Nat} {identity : Identity}

theorem onFrame_chunk (wellFormed : v.replica.WellFormed) (fills : d.Fills)
    (streamable : d.state.Streamable) (hr : first + rows ≤ d.state.rows.toNat)
    (ethertype : UInt16) (identity : Identity) :
    ∃ completed,
      v.onFrame ((d.chunk first rows).framed v.target ethertype identity v.nonce) =
        (.ok completed, { v with
          replica := (v.replica.apply (d.chunk first rows)).2
          chunks  := v.chunks + 1 }) := by
  have hp := Display.parse_chunk fills streamable hr
  rw [onFrame, if_pos (by simp [concerns, Chunk.framed]), Chunk.framed]
  simp only [hp, Replica.apply_chunk wellFormed fills streamable hr]
  exact ⟨_, rfl⟩

-- The same chunk may come more than once, and then makes no further difference.
theorem Takes.chunk (wellFormed : v.replica.WellFormed) (fills : d.Fills)
    (streamable : d.state.Streamable) (hr : first + rows ≤ d.state.rows.toNat)
    (hl : headerLength + (chunkHeaderLength + rows * d.state.rowLength) ≤ maxJumboLength)
    (hs : raws ≠ []) (h : ∀ raw ∈ raws,
      raw = ((d.chunk first rows).framed v.target codec.ethertype identity v.nonce).encode) :
    ∃ chunks, Takes codec v raws
      { v with replica := (v.replica.apply (d.chunk first rows)).2, chunks } := by
  induction raws generalizing v
  case nil => contradiction
  case cons raw raws hi =>
    let f := (d.chunk first rows).framed v.target codec.ethertype identity v.nonce
    have hf : codec.read? raw = some f := by
      rw [h raw (.head _)]
      apply Chunk.read?_framed
      rw [Display.length_cells_chunk fills]
      exact hl
    have ⟨completed, ho⟩ :=
      onFrame_chunk wellFormed fills streamable hr codec.ethertype identity
    let v₁ : Viewer :=
      { v with replica := (v.replica.apply (d.chunk first rows)).2, chunks := v.chunks + 1 }
    by_cases hs : raws = []
    case pos =>
      subst hs
      exact ⟨_, Takes.nil.cons hf ho⟩
    case neg =>
      have ⟨chunks, ht⟩ := hi (v := v₁) (wellFormed.apply _) hs fun x hx => h x (.tail _ hx)
      rw [Replica.apply_chunk_twice wellFormed fills streamable hr] at ht
      exact ⟨chunks, ht.cons hf ho⟩

end Viewer

namespace Engine

variable {σ : Type} [Host σ] {e : Engine σ} {d : Display} {first rows : Nat}
  {ts : List Transmission} {v : Viewer} {identity : Identity}

theorem Serves.addressed_ne_nil {nonce : UInt32} (h : e.Serves identity nonce) {c : Chunk}
    (hf : ts.map Transmission.frame =
      c.framesFor e.identity e.config.ethertype e.reap.sessions.active) :
    addressed ts identity nonce ≠ [] := by
  have ⟨session, hm, hn⟩ := h.reap
  rw [addressed_framed hf, ne_eq, List.map_eq_nil_iff]
  exact List.ne_nil_of_mem <| List.mem_filter.mpr ⟨hm, Session.isNamed_iff.mpr hn⟩

theorem Sends.deliveries (s : e.Sends d first rows ts) (nonce : UInt32) :
    ∀ raw ∈ deliveries ts identity nonce, raw =
      ((d.chunk first rows).framed e.identity e.config.ethertype identity nonce).encode := by
  intro raw hm
  have ha := (deliveries_sublist ..).subset hm
  rw [addressed_framed s.offers.frames] at ha
  have ⟨_, _, he⟩ := List.mem_map.mp ha
  exact he.symm

theorem Sends.deliveries_ne_nil (s : e.Sends d first rows ts)
    (succeeds : ∀ t ∈ ts, succeeded t.outcome) {nonce : UInt32} (h : e.Serves identity nonce) :
    RemoteScreen.deliveries ts identity nonce ≠ [] := by
  rw [deliveries_of_succeeded succeeds]
  exact h.addressed_ne_nil s.offers.frames

-- A viewer whose session is live takes in the rows that a tick sends.
theorem Sends.takes (s : e.Sends d first rows ts) (fills : d.Fills)
    (streamable : d.state.Streamable) (succeeds : ∀ t ∈ ts, succeeded t.outcome)
    (wellFormed : v.replica.WellFormed) (target : v.target = e.identity)
    (serves : e.Serves identity v.nonce) :
    ∃ chunks, v.Takes ⟨e.config.ethertype⟩ (RemoteScreen.deliveries ts identity v.nonce)
      { v with replica := (v.replica.apply (d.chunk first rows)).2, chunks } := by
  apply Viewer.Takes.chunk wellFormed fills streamable (s.within streamable) s.length_le
  case hs => exact s.deliveries_ne_nil succeeds serves
  case h =>
    rw [target]
    exact s.deliveries v.nonce

-- The viewer's session is live, and there is something for it to see.
structure Viewed (identity : Identity) (nonce : UInt32) (e : Engine σ) : Prop where
  fills      : (Host.display e.host).Fills
  streamable : (Host.display e.host).state.Streamable
  serves     : e.Serves identity nonce

-- What an event does to a viewer. Only rows that a tick sends reach its replica.
inductive Moves (e : Engine σ) (v : Viewer) : Event σ → Viewer → Prop
  | wait {event : Event σ} (ne : event ≠ .tick) : Moves e v event v
  | skip (skips : e.Skips (Host.display e.host)) : Moves e v .tick v
  | send {first rows : Nat} {ts : List Transmission} (chunks : UInt64)
    (sends : e.Sends (Host.display e.host) first rows ts) :
    Moves e v .tick { v with
      replica := (v.replica.apply ((Host.display e.host).chunk first rows)).2, chunks }

-- The viewer watches the engine.
structure Watches (e : Engine σ) (v : Viewer) : Prop where
  room       : e.HasRoom
  target     : v.target = e.identity
  wellFormed : v.replica.WellFormed

variable {event : Event σ} {events : List (Event σ)} {v' : Viewer}

theorem Moves.nonce (m : e.Moves v event v') : v'.nonce = v.nonce := by
  cases m <;> rfl

theorem Moves.watches (m : e.Moves v event v') (h : e.Watches v) : (e.step event).Watches v' := by
  have c := e.continues_step event
  refine ⟨h.room.continue c, ?target, ?wellFormed⟩
  case target =>
    have ht : v'.target = v.target := by
      cases m <;> rfl
    exact ht.trans <| h.target.trans c.identity.symm
  case wellFormed =>
    cases m
    case wait => exact h.wellFormed
    case skip => exact h.wellFormed
    case send => exact h.wellFormed.apply _

theorem Watches.moves (h : e.Watches v) (smooth : Smooth (Viewed identity v.nonce) e [event]) :
    ∃ v', v.Takes ⟨e.config.ethertype⟩ (RemoteScreen.deliveries (e.handed [event]) identity v.nonce)
      v' ∧ e.Moves v event v' := by
  by_cases ht : event = .tick
  case neg =>
    have ⟨ts, hh, hr⟩ := (e.waits_step ht).hands
    have hh : e.handed [event] = ts := Hands.handed hh
    rw [hh]
    exact ⟨v, .replies hr .., .wait ht⟩
  case pos =>
    subst ht
    have viewed := smooth.tick
    obtain idles | skips | ⟨first, rows, ts, sends⟩ :=
      tick_cases h.room rfl viewed.fills viewed.streamable
    · exact absurd idles.sessions viewed.serves.active_ne_nil
    · rw [skips.handed]
      exact ⟨v, .nil, .skip skips⟩
    · have succeeds : ∀ t ∈ ts, succeeded t.outcome := sends.handed ▸ smooth.sends
      have ⟨chunks, ht⟩ := sends.takes viewed.fills viewed.streamable succeeds h.wellFormed
        h.target viewed.serves
      rw [sends.handed]
      exact ⟨_, ht, .send chunks sends⟩

-- What each event preserves of an engine and its viewer, all the events do. `I` is told which
-- events are still to come.
theorem Watches.run {P : Engine σ → Prop} {I : List (Event σ) → Engine σ → Replica → Prop}
    (viewed : ∀ x, P x → x.Viewed identity v.nonce)
    (step : ∀ {e event rest} {v v' : Viewer}, e.Watches v → (event = .tick → P e) →
      e.Moves v event v' → I (event :: rest) e v.replica → I rest (e.step event) v'.replica)
    (h : e.Watches v) (smooth : Smooth P e events) (hi : I events e v.replica) :
    ∃ v', v.Takes ⟨e.config.ethertype⟩ (RemoteScreen.deliveries (e.handed events) identity v.nonce)
      v' ∧ (e.run events).Watches v' ∧ I [] (e.run events) v'.replica := by
  induction events generalizing e v
  case nil => exact ⟨v, by rw [handed_nil]; exact .nil, h, hi⟩
  case cons event rest ih =>
    have ⟨v', ht, m⟩ := h.moves (smooth.head.imp viewed)
    have hp (he : event = .tick) : P e := by
      subst he
      exact smooth.head.tick
    have ⟨v'', ht', h'', hi''⟩ := ih (by rw [m.nonce]; exact viewed) (m.watches h) smooth.tail
      (step h hp m hi)
    have hc : (e.step event).config = e.config := (e.continues_step event).config
    rw [hc, m.nonce] at ht'
    refine ⟨v'', ?_, h'', hi''⟩
    rw [handed_cons, deliveries_append]
    exact ht.append ht'

end Engine

end RemoteScreen

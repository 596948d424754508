import RemoteScreen.Proofs.Engine.Run

namespace RemoteScreen

-- The keys were handed over in order, all of them unless one was refused.
structure Follows (typed : List Injection) (keys : List Keystroke) : Prop where
  order : typed.map Injection.key <+: keys
  all   : (∀ i ∈ typed, succeeded i.outcome) → typed.map Injection.key = keys

namespace Engine

variable {σ : Type} {e : Engine σ}

-- On the way from `e` to `e'` the keyboard queue was handed `typed`.
def Types (e : Engine σ) (typed : List Injection) (e' : Engine σ) : Prop :=
  e'.journal.injections = e.journal.injections ++ typed

theorem Types.of_eq {e' : Engine σ} (h : e'.journal.injections = e.journal.injections) :
    e.Types [] e' := by
  rw [Types, h, List.append_nil]

theorem Types.trans {e' e'' : Engine σ} {xs ys : List Injection} (h : e.Types xs e')
    (h' : e'.Types ys e'') : e.Types (xs ++ ys) e'' := by
  rw [Types] at *
  rw [h', h, List.append_assoc]

theorem types_countFault (e : Engine σ) (fault : Fault) : e.Types [] (e.countFault fault) := by
  cases fault <;> exact .of_eq rfl

variable [Host σ]

theorem types_injectAll (e : Engine σ) (keys : List Keystroke) :
    ∃ typed, e.Types typed (e.injectAll keys).2 ∧ Follows typed keys := by
  induction keys generalizing e
  case nil => exact ⟨[], .of_eq rfl, List.nil_prefix, fun _ => rfl⟩
  case cons key rest hi =>
    have hk : e.Types [⟨key, (e.inject key).1⟩] (e.inject key).2 := rfl
    rw [injectAll]
    generalize e.inject key = result at hk
    obtain ⟨outcome, e'⟩ := result
    cases outcome
    case error fault =>
      refine ⟨_, hk, ?order, ?all⟩
      case order => exact List.cons_prefix_cons.mpr ⟨rfl, List.nil_prefix⟩
      case all =>
        intro hs
        have := hs _ (.head _)
        contradiction
    case ok =>
      obtain ⟨typed, ht, hf⟩ := hi e'
      refine ⟨_, hk.trans ht, List.cons_prefix_cons.mpr ⟨rfl, hf.order⟩, fun hs => ?all⟩
      exact congrArg (key :: ·) <| hf.all fun i hm => hs i (.tail _ hm)

-- The frame asks a live session for keys to be typed.
structure Asks (e : Engine σ) (raw : Octets) (frame : Received) : Prop where
  admitted : e.Admits raw .injectKeystroke frame
  live     : (e.sessions.find? frame.source frame.nonce).isSome

theorem types_route {kind : MessageKind} {frame : Received} (hk : kind ≠ .injectKeystroke) :
    e.Types [] (e.route kind frame).2 := by
  have answered (kind : MessageKind) (payload : Octets) (atLeast : Nat) :
      e.Types [] (e.answer frame kind payload atLeast).2 := by
    rw [answer]
    split <;> exact .of_eq rfl
  unfold route
  split
  case isTrue => exact .of_eq rfl
  case isFalse =>
    cases kind
    case ping            => exact answered ..
    case statusRequest   => exact answered ..
    case injectKeystroke => contradiction
    case sessionStart =>
      simp only [handleSessionStart]
      split <;> exact .of_eq rfl
    all_goals exact .of_eq rfl

theorem Types.dispatch {raw : Octets} {kind : MessageKind} {frame : Received}
    {typed : List Injection} (ha : e.admitted? raw = some (kind, frame))
    (ht : e.Types typed (e.countProcessed.route kind frame).2) :
    e.Types typed (e.dispatch raw) := by
  rw [Engine.dispatch, ha]
  simp only
  generalize e.countProcessed.route kind frame = result at ht
  obtain ⟨outcome, e'⟩ := result
  cases outcome
  case ok => exact ht
  case error fault =>
    rw [← List.append_nil typed]
    exact ht.trans (types_countFault ..)

theorem Asks.route_eq {raw : Octets} {frame : Received} (h : e.Asks raw frame) :
    e.countProcessed.route .injectKeystroke frame
      = e.countProcessed.injectAll (Keystroke.records frame.payload) := by
  have hl : (e.countProcessed.sessions.find? frame.source frame.nonce).isNone = false :=
    Option.isNone_eq_false_iff.mpr h.live
  rw [route, if_neg (by simp [hl]), handleInject]

theorem Asks.types {raw : Octets} {frame : Received} (h : e.Asks raw frame) :
    ∃ typed, e.Types typed (e.dispatch raw) ∧ Follows typed (Keystroke.records frame.payload) := by
  have ⟨typed, ht, hf⟩ := types_injectAll e.countProcessed (Keystroke.records frame.payload)
  exact ⟨typed, .dispatch (admits_iff.mp h.admitted) (h.route_eq ▸ ht), hf⟩

-- Only a frame that asks for keys has keys typed, and these are its own.
theorem types_dispatch (e : Engine σ) (raw : Octets) :
    e.Types [] (e.dispatch raw) ∨ ∃ frame, e.Asks raw frame := by
  cases ha : e.admitted? raw
  case none =>
    left
    rw [dispatch, ha]
    exact .of_eq rfl
  case some admitted =>
    obtain ⟨kind, frame⟩ := admitted
    by_cases hk : kind = .injectKeystroke
    case neg => exact .inl <| .dispatch ha <| types_route hk
    case pos =>
      subst hk
      cases hl : e.sessions.find? frame.source frame.nonce
      case some => exact .inr ⟨frame, admits_iff.mpr ha, Option.isSome_of_eq_some hl⟩
      case none =>
        have hl : (e.countProcessed.sessions.find? frame.source frame.nonce).isNone :=
          Option.isNone_iff_eq_none.mpr hl
        refine .inl <| .dispatch ha ?_
        rw [route, if_pos ⟨rfl, hl⟩]
        exact .of_eq rfl

theorem types_tick (e : Engine σ) : e.Types [] e.tick.2 :=
  .of_eq e.spares_tick.injections

variable {event : Event σ} {events : List (Event σ)}

theorem types_step (e : Engine σ) (event : Event σ) :
    e.Types [] (e.step event) ∨ ∃ raw frame, event = .dispatch raw ∧ e.Asks raw frame := by
  cases event
  case dispatch raw => exact (e.types_dispatch raw).imp_right fun ⟨frame, h⟩ => ⟨raw, frame, rfl, h⟩
  case tick         => exact .inl e.types_tick
  case change       => exact .inl <| .of_eq rfl

theorem exists_types_run (e : Engine σ) (events : List (Event σ)) :
    ∃ typed, e.Types typed (e.run events) := by
  induction events generalizing e
  case nil => exact ⟨[], .of_eq rfl⟩
  case cons event rest hi =>
    have ⟨later, hl⟩ := hi (e.step event)
    cases e.types_step event
    case inl h => exact ⟨[] ++ later, h.trans hl⟩
    case inr h =>
      have ⟨raw, frame, he, ha⟩ := h
      subst he
      have ⟨now, hn, _⟩ := ha.types
      exact ⟨now ++ later, hn.trans hl⟩

-- What the keyboard queue was handed in the course of the events.
def pressed (e : Engine σ) (events : List (Event σ)) : List Injection :=
  (e.run events).journal.injections.drop e.journal.injections.length

theorem Types.pressed {typed : List Injection} (h : e.Types typed (e.run events)) :
    e.pressed events = typed := by
  rw [Engine.pressed, h, List.drop_left]

theorem types_pressed (e : Engine σ) (events : List (Event σ)) :
    e.Types (e.pressed events) (e.run events) := by
  have ⟨typed, h⟩ := e.exists_types_run events
  exact h.pressed ▸ h

@[simp]
theorem pressed_nil (e : Engine σ) : e.pressed [] = [] :=
  Types.pressed (.of_eq rfl)

theorem pressed_append (e : Engine σ) (xs ys : List (Event σ)) :
    e.pressed (xs ++ ys) = e.pressed xs ++ (e.run xs).pressed ys := by
  apply Types.pressed
  rw [run_append]
  exact (e.types_pressed xs).trans <| types_pressed _ ys

theorem pressed_cons (e : Engine σ) (event : Event σ) (rest : List (Event σ)) :
    e.pressed (event :: rest) = e.pressed [event] ++ (e.step event).pressed rest :=
  e.pressed_append [event] rest

-- Whatever is handed to the keyboard queue is handed to it in some event.
theorem pressed_in_event {n : Nat} {i : Injection} (h : (e.pressed events)[n]? = some i) :
    ∃ before event after k, events = before ++ event :: after ∧
      n = (e.pressed before).length + k ∧ ((e.run before).pressed [event])[k]? = some i := by
  induction events generalizing e n
  case nil => rw [pressed_nil] at h; contradiction
  case cons event rest hi =>
    rw [pressed_cons] at h
    by_cases hn : n < (e.pressed [event]).length
    case pos =>
      rw [List.getElem?_append_left hn] at h
      exact ⟨[], event, rest, n, rfl, by simp, h⟩
    case neg =>
      have hn := Nat.le_of_not_lt hn
      rw [List.getElem?_append_right hn] at h
      have ⟨before, event', after, k, he, hk, hp⟩ := hi h
      refine ⟨event :: before, event', after, k, congrArg _ he, ?_, hp⟩
      rw [pressed_cons, List.length_append, Nat.add_assoc, ← hk, Nat.add_sub_cancel' hn]

-- The `k`-th of the keys that the frame asks for is handed to the keyboard queue.
structure Yields (e : Engine σ) (raw : Octets) (frame : Received) (k : Nat) (i : Injection) :
    Prop where
  asks   : e.Asks raw frame
  key    : (Keystroke.records frame.payload)[k]? = some i.key
  handed : (e.pressed [.dispatch raw])[k]? = some i

theorem yields_of_pressed {k : Nat} {i : Injection} (h : (e.pressed [event])[k]? = some i) :
    ∃ raw frame, event = .dispatch raw ∧ e.Yields raw frame k i := by
  cases e.types_step event
  case inl ht =>
    have ht : e.Types [] (e.run [event]) := ht
    rw [ht.pressed] at h
    contradiction
  case inr hd =>
    have ⟨raw, frame, he, ha⟩ := hd
    subst he
    have ⟨typed, ht, hf⟩ := ha.types
    have ht : e.Types typed (e.run [.dispatch raw]) := ht
    have hk : (typed.map Injection.key)[k]? = some i.key := by
      rw [List.getElem?_map, ← ht.pressed, h]
      rfl
    have ⟨hl, hk⟩ := List.getElem?_eq_some_iff.mp hk
    have hr := List.prefix_iff_getElem?.mp hf.order k hl
    exact ⟨raw, frame, rfl, ha, hk ▸ hr, h⟩

end Engine

end RemoteScreen

import RemoteScreen.Proofs.Client.Calls

namespace RemoteScreen.Client

variable {α : Type} {c c' : Client} {keep : Datagram → Bool} {event : Event}

-- The same datagrams come, but for some that do not.
def Event.sift (keep : Datagram → Bool) : Event → Event
  | arrive datagrams => arrive (datagrams.filter keep)
  | event            => event

-- The clients differ at most in datagrams that they pass over.
structure Alike (c c' : Client) : Prop where
  others : c' = c.awaiting c'.socket.arrivals
  heard  : c.heard c'.socket.arrivals = c.heard c.socket.arrivals

-- The call takes no notice of the queue and leaves it as it is.
def Blind (call : Client → α × Client) : Prop :=
  ∀ c queue, call (c.awaiting queue) = ((call c).1, (call c).2.awaiting queue)

-- The call goes through the queue by what is heard in it.
def Attends (c : Client) (listen : List Datagram → α × List Datagram) : Prop :=
  ∀ ⦃queue queue'⦄, c.heard queue = c.heard queue' →
    (listen queue).1 = (listen queue').1 ∧ c.heard (listen queue).2 = c.heard (listen queue').2

-- A call makes no difference between the clients if it makes none from there on either.
def Agree (r r' : α × Client) : Prop :=
  r'.1 = r.1 ∧ Alike r.2 r'.2

theorem heard_congr (hi : c'.identity = c.identity) (ht : c'.ethertype = c.ethertype) :
    c'.heard = c.heard := by
  funext queue
  rw [heard, frameFor?_congr hi ht, heard]

theorem Blind.agree {call : Client → α × Client} {n : Nat} (blind : Blind call)
    (moves : c.Moves n (call c).2) (alike : Alike c c') : Agree (call c) (call c') := by
  have hq : (call c).2.socket.arrivals = c.socket.arrivals :=
    congrArg (·.2.socket.arrivals) (blind c c.socket.arrivals)
  have hc := blind c c'.socket.arrivals
  rw [← alike.others] at hc
  rw [Agree, hc]
  refine ⟨rfl, rfl, ?_⟩
  rw [heard_congr moves.identity moves.ethertype, hq]
  exact alike.heard

theorem blind_send (destination : Identity) (kind : MessageKind) (nonce : UInt32)
    (payload : Octets) : Blind fun c => c.send destination kind nonce payload := by
  intro c queue
  have hp : (c.awaiting queue).posted destination kind nonce payload
      = c.posted destination kind nonce payload := rfl
  simp only [send_eq, hp]
  cases c.posted destination kind nonce payload <;> rfl

theorem blind_sendBatches (target : Identity) (nonce : UInt32)
    (batches : List (List Keystroke)) : Blind fun c => c.sendBatches target nonce batches := by
  intro c queue
  induction batches generalizing c
  case nil => rfl
  case cons batch rest hi =>
    have hs := blind_send target .injectKeystroke nonce (Keystroke.encodeAll batch) c queue
    simp only [sendBatches] at hi hs ⊢
    rw [hs]
    cases hc : c.send target .injectKeystroke nonce (Keystroke.encodeAll batch)
    case mk outcome after =>
      cases outcome
      case error => rfl
      case ok => exact hi after

-- All calls are blind but those that look through the queue.
def Event.looks : Event → Bool
  | arrive _ | receive | discover | ping _ _ => true
  | _ => false

theorem blind_step (h : event.looks = false) : Blind fun c => c.step event := by
  intro c queue
  cases event
  case arrive | receive | discover | ping => contradiction
  case change | setServer | drawNonce     => rfl
  case send destination kind nonce payload =>
    simp only [step, blind_send destination kind nonce payload c queue]
    rfl
  case startSession target nonce =>
    simp only [step, startSession, blind_send target .sessionStart nonce [] c queue]
    rfl
  case sendKeys target nonce keys =>
    simp only [step, sendKeys_eq, blind_sendBatches target nonce (batches keys) c queue]
    rfl

theorem attends_collect (c : Client) (nonce : UInt32) (found : List Discovered) :
    c.Attends (c.collect nonce found) := by
  intro queue queue' h
  simp only [(c.collect_eq ..).left, (c.collect_eq ..).right, h, and_self]

theorem attends_listenForPong (c : Client) (target : Identity) (nonce : UInt32) :
    c.Attends (c.listenForPong target nonce) := by
  intro queue queue' h
  simp only [listenForPong, Prod.map_fst, Prod.map_snd, id, (c.awaitPong_eq ..).left,
    (c.awaitPong_eq ..).right, h, and_self]

theorem attends_firstFrame (c : Client) : c.Attends c.firstFrame := by
  intro queue queue' h
  simp only [(c.firstFrame_eq _).left, (c.firstFrame_eq _).right, h, and_self]

theorem Agree.map {β : Type} {r r' : α × Client} (h : Agree r r') (f : α → β) :
    Agree (r.map f id) (r'.map f id) :=
  ⟨congrArg f h.left, h.right⟩

theorem heard_append (c : Client) (xs ys : List Datagram) :
    c.heard (xs ++ ys) = c.heard xs ++ c.heard ys :=
  List.filterMap_append

theorem Alike.ask {listen : List Datagram → Except Fault α × List Datagram}
    (alike : Alike c c') (attends : c.Attends listen) (destination : Identity)
    (kind : MessageKind) (payload : Octets) :
    Agree (c.ask destination kind payload listen) (c'.ask destination kind payload listen) := by
  have ⟨answer, heard⟩ := attends alike.heard
  rw [alike.others]
  change Agree ((c.awaiting c.socket.arrivals).ask destination kind payload listen) _
  obtain ⟨_, h⟩ | ⟨_, _, h⟩ := c.ask_cases destination kind payload <;> rw [h, h]
  case inl => exact ⟨rfl, rfl, alike.heard⟩
  case inr => exact ⟨answer, rfl, heard⟩

theorem Alike.step (alike : Alike c c') (h : ∀ d, keep d = false → c.frameFor? d = none)
    (event : Event) : Agree (c.step event) (c'.step (event.sift keep)) := by
  by_cases hl : event.looks = false
  case pos =>
    have hs : event.sift keep = event := by
      cases event <;> first | rfl | contradiction
    rw [hs]
    exact (blind_step hl).agree (c.moves_step event) alike
  case neg =>
    have heard := alike.heard
    have others := alike.others
    generalize c'.socket.arrivals = queue at heard others
    subst others
    have hf : (c.awaiting queue).frameFor? = c.frameFor? := rfl
    cases event
    case change | setServer | drawNonce | send | startSession | sendKeys => exact absurd rfl hl
    case arrive datagrams =>
      have hs : c.heard (queue ++ datagrams.filter keep)
          = c.heard (c.socket.arrivals ++ datagrams) := by
        rw [heard_append, heard_append, heard, heard_filter h]
      exact ⟨rfl, rfl, hs⟩
    case receive =>
      have ⟨answer, left⟩ := c.attends_firstFrame heard
      have agree : Agree c.receive (c.awaiting queue).receive := by
        rw [Client.receive, Client.receive, firstFrame_congr hf]
        exact ⟨answer, rfl, left⟩
      exact agree.map Answer.received
    case discover =>
      have agree := alike.ask (c.attends_collect c.drawNonce.1 []) .broadcast .statusRequest []
      rw [← discover_eq, ← discover_awaiting] at agree
      exact agree.map Answer.discovered
    case ping target payload =>
      have agree := alike.ask (c.attends_listenForPong target c.drawNonce.1) target .ping payload
      rw [← ping_eq, ← ping_awaiting] at agree
      exact agree.map Answer.pinged

-- Step by step, datagrams that a client passes over leave no trace.
theorem answers_sift (h : ∀ d, keep d = false → c.frameFor? d = none) (alike : Alike c c')
    (events : List Event) : c'.answers (events.map (·.sift keep)) = c.answers events := by
  induction events generalizing c c'
  case nil => rfl
  case cons event rest hi =>
    have ⟨now, later⟩ := alike.step h event
    have moves := c.moves_step event
    rw [List.map_cons, answers, answers, now, hi ?_ later]
    rw [frameFor?_congr moves.identity moves.ethertype]
    exact h

end RemoteScreen.Client

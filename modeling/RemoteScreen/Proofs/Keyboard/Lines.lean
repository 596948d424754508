import RemoteScreen.Proofs.Engine.Station
import RemoteScreen.Proofs.Keyboard.Order
import RemoteScreen.Proofs.Mirror.Portion
import RemoteScreen.Proofs.Server.Premises

namespace RemoteScreen

-- Characters that draw something, and plain spaces.
def Screen.isDrawn (o : UInt8) : Bool :=
  0x20 ≤ o && o ≤ 0x7e

-- Writes those octets of a line that draw something, and ends the line if asked to.
def Screen.writeLine (s : Screen) (line : String) (newline : Bool) : Screen :=
  let written := s.putAll (line.toUTF8.toList.filter isDrawn)
  if newline then written.put Screen.newline else written

theorem Screen.echo_plain {o : UInt8} (h : isDrawn o) (s : Screen) :
    s.echo (.plain o) = s.put o := by
  have hr : o ≠ carriageReturn := by
    rintro rfl
    contradiction
  have hn : o ≠ newline := by
    rintro rfl
    contradiction
  have he : o ≠ erase := by
    rintro rfl
    contradiction
  have ho : 0x20 ≤ o ∧ o ≤ 0x7e := by
    simpa [isDrawn] using h
  have hk : (Keystroke.plain o).character = o := rfl
  rw [echo, hk, if_neg (not_or.mpr ⟨hr, hn⟩), if_neg he, if_pos ho]

theorem Screen.echoAll_plain {octets : Octets} (h : ∀ o ∈ octets, isDrawn o) (s : Screen) :
    s.echoAll (octets.map .plain) = s.putAll octets := by
  induction octets generalizing s
  case nil => rfl
  case cons o rest hi =>
    have hs := hi (fun x hx => h x (.tail _ hx)) (s.put o)
    rw [List.map_cons, echoAll, List.foldl_cons, echo_plain (h o (.head _))]
    exact hs

-- The keys of a line do what writing the line does.
theorem Screen.echoAll_ofLine (s : Screen) (line : String) (newline : Bool) :
    s.echoAll (Keystroke.ofLine line newline) = s.writeLine line newline := by
  have hd : ∀ o ∈ line.toUTF8.toList.filter isDrawn, isDrawn o :=
    fun _ ho => List.of_mem_filter ho
  have ht := echoAll_plain hd s
  rw [echoAll] at ht
  rw [Keystroke.ofLine, writeLine, echoAll, List.foldl_append]
  cases newline
  case false => exact ht
  case true  => exact congrArg (·.echo (.plain carriageReturn)) ht

namespace Client

variable {c : Client} {target : Identity} {nonce : UInt32} {keys batch : List Keystroke}

theorem length_batches (keys : List Keystroke) :
    (batches keys).length = portions keysPerFrame keys.length := by
  induction keys using batches.induct
  case case1 => rw [batches_nil]; rfl
  case case2 keys h hi =>
    rw [batches_cons h, List.length_cons, hi, List.length_drop]
    exact portions_sub (by decide) (List.length_pos_iff.mpr h)

theorem sendBatches_of_open {batches : List (List Keystroke)}
    (h : ∀ batch ∈ batches, batch.length ≤ keysPerFrame) (hn : c.socket.network = .open) :
    (c.sendBatches target nonce batches).1 = .ok () := by
  induction batches generalizing c
  case nil => rfl
  case cons batch rest hi =>
    rw [sendBatches, send_keys (h batch (.head _))]
    simp only [Socket.send, hn, Network.refusal?]
    exact hi (fun b hb => h b (.tail _ hb)) rfl

theorem sendKeys_of_open (hn : c.socket.network = .open) (target : Identity) (nonce : UInt32)
    (keys : List Keystroke) :
    (c.sendKeys target nonce keys).1 = .ok (portions keysPerFrame keys.length) ∧
      c.sentSince (c.sendKeys target nonce keys).2
        = (batches keys).map fun batch => (c.keyFrame target nonce batch).encode := by
  have ⟨front, _, ho, hs⟩ := c.sentSince_sendKeys target nonce keys
  refine ⟨?_, ho hn ▸ hs⟩
  have hb : (c.sendBatches target nonce (batches keys)).1 = .ok () :=
    sendBatches_of_open (fun _ => length_of_mem_batches) hn
  rw [sendKeys]
  generalize c.sendBatches target nonce (batches keys) = result at hb
  obtain ⟨_, c'⟩ := result
  cases hb
  exact congrArg Except.ok (length_batches keys)

end Client

namespace Server

-- The frames come in order, each of them while the session is live, and each is handled before the
-- next one comes. In between the clock is moved, ticks go by, and frames come in from others that
-- have no keys typed.
inductive Receives (identity : Identity) (nonce : UInt32) : Server → List Octets → Server → Prop
  | done (s : Server) : Receives identity nonce s [] s
  | frame {s s' : Server} {raw : Octets} {rest : List Octets} :
    (s.engine.sessions.find? identity nonce).isSome →
    Receives identity nonce (s.attend raw) rest s' → Receives identity nonce s (raw :: rest) s'
  | other {s s' : Server} {raw : Octets} {rest : List Octets} :
    (∀ frame, ¬ s.engine.Asks raw frame) →
    Receives identity nonce (s.attend raw) rest s' → Receives identity nonce s rest s'
  | tick {s s' : Server} {rest : List Octets} :
    Receives identity nonce s.tick.2 rest s' → Receives identity nonce s rest s'
  | clock {s s' : Server} {rest : List Octets} (now : UInt64) :
    Receives identity nonce { s with engine.host.clock := now } rest s' →
    Receives identity nonce s rest s'

variable {s s' : Server} {c : Client} {target : Identity} {nonce : UInt32} {frames : List Octets}
  {raw : Octets}

-- The server is at rest, and what the client sends to the target is meant for it.
structure Heeds (s : Server) (c : Client) (target : Identity) : Prop where
  reachable : s.Reachable
  free      : s.pool.AllFree
  ethertype : c.ethertype = s.engine.config.ethertype
  target    : s.engine.identity = target

theorem Heeds.continue (h : s.Heeds c target) (reachable : s'.Reachable) (free : s'.pool.AllFree)
    (continues : s.engine.Continues s'.engine) : s'.Heeds c target where
  reachable := reachable
  free      := free
  ethertype := h.ethertype.trans <| congrArg EngineConfig.ethertype continues.config.symm
  target    := continues.identity.trans h.target

theorem Heeds.attend (h : s.Heeds c target) (raw : Octets) : Heeds (s.attend raw) c target :=
  h.continue (h.reachable.attend raw) (Station.attend_cases h.reachable h.free raw).left
    (Station.continues_attend h.reachable h.free raw)

theorem Heeds.tick (h : s.Heeds c target) : Heeds s.tick.2 c target :=
  h.continue (h.reachable.step .tick) h.free s.engine.continues_tick

theorem Heeds.clock (h : s.Heeds c target) (now : UInt64) :
    Heeds { s with engine.host.clock := now } c target :=
  have reachable := h.reachable.step (.change (Premises.mk s.link s.screen now))
  h.continue reachable h.free ⟨rfl, rfl, rfl, List.prefix_rfl⟩

theorem Heeds.handles {batch : List Keystroke} (h : s.Heeds c target)
    (live : (s.engine.sessions.find? c.identity nonce).isSome)
    (hb : batch.length ≤ keysPerFrame) :
    let raw := (c.keyFrame target nonce batch).encode
    (∃ received, s.engine.Asks raw received) ∧ (s.attend raw).engine = s.engine.dispatch raw := by
  intro raw
  have hl : raw.length ≤ maxFrameLength :=
    (Frame.length_encode _).trans_le (Client.encodedLength_keyFrame_le hb)
  have ⟨_, pool, _, hd⟩ := Station.attends h.reachable h.free hl
  have asks := Engine.asks_keyFrame (e := s.engine) h.ethertype live hb
  rw [h.target] at asks
  exact ⟨asks, by rw [Station.attend, hd]⟩

theorem Heeds.echoes_keyFrame {batch : List Keystroke} (h : s.Heeds c target)
    (live : (s.engine.sessions.find? c.identity nonce).isSome)
    (hb : batch.length ≤ keysPerFrame) :
    s.engine.Echoes batch (s.attend (c.keyFrame target nonce batch).encode).engine := by
  have ⟨⟨received, asks⟩, he⟩ := h.handles live hb
  have hk : Keystroke.records received.payload = batch :=
    asks.keysOf.symm.trans (keysOf_keyFrame hb)
  have echoes := asks.echoes
  rw [hk] at echoes
  rw [he]
  exact echoes

theorem Heeds.echoes_other (h : s.Heeds c target) (ha : ∀ frame, ¬ s.engine.Asks raw frame) :
    s.engine.Echoes [] (s.attend raw).engine := by
  obtain ⟨-, he | he⟩ := Station.attend_cases h.reachable h.free raw <;> rw [he]
  case inl =>
    exact (Engine.onlySends_dispatch h.reachable.engine.holds_frame ha).echoes
  case inr => exact Engine.OnlySends.echoes <| .of_eq rfl rfl rfl

-- By induction on the batches. A session that is live stays so while its own keys are typed.
theorem Heeds.receives {batches : List (List Keystroke)} (h : s.Heeds c target)
    (live : (s.engine.sessions.find? c.identity nonce).isSome)
    (hb : ∀ batch ∈ batches, batch.length ≤ keysPerFrame) :
    let frames := batches.map fun batch => (c.keyFrame target nonce batch).encode
    Receives c.identity nonce s frames (frames.foldl Station.attend s) := by
  induction batches generalizing s
  case nil => exact .done s
  case cons batch rest hi =>
    have ⟨⟨_, asks⟩, he⟩ := h.handles live (hb batch (.head _))
    refine .frame live <| hi (h.attend _) ?_ fun b hm => hb b (.tail _ hm)
    have hs : (s.engine.dispatch _).sessions = s.engine.sessions :=
      congrArg Engine.Control.sessions asks.control_dispatch
    rw [he, hs]
    exact live

-- By induction on what is received.
theorem Receives.echoes {batches : List (List Keystroke)}
    (h : Receives c.identity nonce s frames s') (heeds : s.Heeds c target)
    (hb : ∀ batch ∈ batches, batch.length ≤ keysPerFrame)
    (hf : frames = batches.map fun batch => (c.keyFrame target nonce batch).encode) :
    s.engine.Echoes batches.flatten s'.engine := by
  induction h generalizing batches
  case done s =>
    rw [List.map_eq_nil_iff.mp hf.symm]
    exact Engine.OnlySends.echoes <| .of_eq rfl rfl rfl
  case frame s s' raw rest live _ hi =>
    cases batches
    case nil => contradiction
    case cons batch batches =>
      obtain ⟨rfl, rfl⟩ := List.cons.inj hf
      have now := heeds.echoes_keyFrame live (hb batch (.head _))
      have later := hi (heeds.attend _) (fun b hm => hb b (.tail _ hm)) rfl
      exact now.trans later
  case other s s' raw rest ha _ hi =>
    exact (heeds.echoes_other ha).trans <| hi (heeds.attend raw) hb hf
  case tick s s' rest _ hi =>
    exact s.engine.onlySends_tick.echoes.trans <| hi heeds.tick hb hf
  case clock s s' rest now _ hi =>
    have later := hi (heeds.clock now) hb hf
    exact ⟨later.screen, later.keystrokes, later.injections⟩

theorem line_typed (reachable : s.Reachable) (free : s.pool.AllFree)
    (hn : c.socket.network = .open) (hc : c.ethertype = s.engine.config.ethertype) (nonce : UInt32)
    (line : String) (newline : Bool) :
    let keys := Keystroke.ofLine line newline
    let sending := c.sendKeys s.engine.identity nonce keys
    let frames := c.sentSince sending.2
    sending.1 = .ok (portions keysPerFrame keys.length) ∧
      frames.length = portions keysPerFrame keys.length ∧
      (∀ frame ∈ frames, frame.length ≤ maxFrameLength) ∧
      ((s.engine.sessions.find? c.identity nonce).isSome →
        Receives c.identity nonce s frames (frames.foldl Station.attend s)) ∧
      ∀ s', Receives c.identity nonce s frames s' →
        s'.screen = s.screen.writeLine line newline ∧
        s'.engine.stats.keystrokes = s.engine.stats.keystrokes + UInt64.ofNat keys.length ∧
        s'.engine.journal.injections = s.engine.journal.injections ++ keys.map (⟨·, .ok ()⟩) := by
  intro keys sending frames
  have heeds : s.Heeds c s.engine.identity := ⟨reachable, free, hc, rfl⟩
  have hb : ∀ batch ∈ Client.batches keys, batch.length ≤ keysPerFrame :=
    fun _ => Client.length_of_mem_batches
  have ⟨outcome, sent⟩ := Client.sendKeys_of_open hn s.engine.identity nonce keys
  have sent : frames = _ := sent
  rw [sent]
  refine ⟨outcome, ?count, ?length, fun live => heeds.receives live hb, fun s' h => ?typed⟩
  case count => rw [List.length_map, Client.length_batches]
  case length =>
    intro frame hf
    have ⟨batch, hm, he⟩ := List.mem_map.mp hf
    rw [← he, Frame.length_encode]
    exact Client.encodedLength_keyFrame_le (hb batch hm)
  case typed =>
    have echoes := h.echoes heeds hb rfl
    rw [Client.flatten_batches] at echoes
    exact ⟨echoes.screen.trans (Screen.echoAll_ofLine ..), echoes.keystrokes, echoes.injections⟩

namespace Sample

-- The server has a session with the client.
def greeted : Server :=
  Station.attend fresh (Engine.Sample.frame .sessionStart)

end Sample

-- A line with a letter that is not plain, which is left out, and a tick after its only frame.
theorem line_typed_listing :
    let keys := Keystroke.ofLine "l\u00e9s" true
    let frames := Engine.Sample.client.sentSince
      (Engine.Sample.client.sendKeys Sample.greeted.engine.identity 7 keys).2
    ∃ frame, frames = [frame] ∧
      let s : Server := (Station.tick (Station.attend Sample.greeted frame)).2
      s.screen.rowText 0 = "ls      " ∧ s.screen.cursorRow = 1 ∧ s.engine.stats.keystrokes = 3 := by
  have made : Station.Reachable Sample.fresh :=
    Station.reachable_of_make Sample.make_engine Sample.make_pool
  have reachable : Station.Reachable Sample.greeted := made.attend _
  have free : Sample.greeted.pool.AllFree := by
    decide +kernel
  have hc : Engine.Sample.client.ethertype = Sample.greeted.engine.config.ethertype := by
    decide +kernel
  have live : (Sample.greeted.engine.sessions.find? Engine.Sample.client.identity 7).isSome := by
    decide +kernel
  intro keys frames
  have ⟨_, count, _, _, typed⟩ := line_typed reachable free rfl hc 7 "l\u00e9s" true
  have hp : portions keysPerFrame keys.length = 1 := by
    decide +kernel
  have ⟨frame, hf⟩ := List.length_eq_one_iff.mp (count.trans hp)
  rw [hf] at typed
  have ⟨screen, keystrokes, _⟩ := typed _ (.frame live <| .tick <| .done _)
  refine ⟨frame, hf, ?_⟩
  simp only [screen, keystrokes]
  decide +kernel

end Server

end RemoteScreen

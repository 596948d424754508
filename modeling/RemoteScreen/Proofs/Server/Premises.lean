import RemoteScreen.Proofs.Engine.Surroundings
import RemoteScreen.Proofs.Keyboard.Frames
import RemoteScreen.Server

namespace RemoteScreen

namespace Premises

-- All that has changed is what the socket has sent.
def Posts (p p' : Premises) : Prop :=
  ∃ sent, p' = { p with link.socket.sent := sent }

variable {p p' : Premises}

theorem Posts.refl (p : Premises) : p.Posts p :=
  ⟨p.link.socket.sent, rfl⟩

theorem Posts.transmit (h : p.Posts p') (frame : Octets) :
    p.Posts (Host.transmit frame p').2 := by
  obtain ⟨sent, rfl⟩ := h
  simp only [Host.transmit, Premises.transmit, Link.transmit]
  split
  case h_1 => exact ⟨sent, rfl⟩
  case h_2 =>
    simp only [Socket.send]
    split
    case h_1 => exact ⟨sent, rfl⟩
    case h_2 => exact ⟨_, rfl⟩

theorem posts_transmitAll (frames : List Octets) (p : Premises) :
    p.Posts (Host.transmitAll p frames).2 :=
  Host.transmitAll_keeps (fun frame _ h => h.transmit frame) frames (.refl p)

end Premises

namespace Engine

variable {e e' e'' : Engine Premises} {raw : Octets} {frame : Received} {keys : List Keystroke}

-- The keys are typed on the screen and counted, each once and all in order.
structure Echoes (e : Engine Premises) (keys : List Keystroke) (e' : Engine Premises) : Prop where
  screen     : e'.host.screen = e.host.screen.echoAll keys
  keystrokes : e'.stats.keystrokes = e.stats.keystrokes + UInt64.ofNat keys.length
  injections : e'.journal.injections = e.journal.injections ++ keys.map (⟨·, .ok ()⟩)

theorem Echoes.trans {keys' : List Keystroke} (h : e.Echoes keys e') (h' : e'.Echoes keys' e'') :
    e.Echoes (keys ++ keys') e'' where
  screen := by
    rw [h'.screen, h.screen, Screen.echoAll, Screen.echoAll, ← List.foldl_append]
    rfl
  keystrokes := by rw [h'.keystrokes, h.keystrokes]; simp [UInt64.add_assoc]
  injections := by rw [h'.injections, h.injections]; simp

theorem OnlySends.echoes (h : e.OnlySends e') : e.Echoes [] e' where
  screen := by
    have ⟨frames, hf⟩ := h.world
    have ⟨sent, hs⟩ := e.host.posts_transmitAll frames
    rw [hf, hs]
    rfl
  keystrokes := by simp [h.keystrokes]
  injections := by simp [h.injections]

theorem echoes_injectAll (e : Engine Premises) (keys : List Keystroke) :
    (e.injectAll keys).1 = .ok () ∧ e.Echoes keys (e.injectAll keys).2 := by
  induction keys generalizing e
  case nil => exact ⟨rfl, rfl, by simp [injectAll], by simp [injectAll]⟩
  case cons key rest hi =>
    have now : e.Echoes [key] (e.inject key).2 := ⟨rfl, rfl, rfl⟩
    have later := hi (e.inject key).2
    exact ⟨later.left, now.trans later.right⟩

-- A frame of keys that a session sends is typed.
theorem Asks.echoes (h : e.Asks raw frame) :
    e.Echoes (Keystroke.records frame.payload) (e.dispatch raw) := by
  have typed := echoes_injectAll e.countProcessed (Keystroke.records frame.payload)
  rw [h.admitted.dispatch, h.route_eq, typed.left]
  exact ⟨typed.right.screen, typed.right.keystrokes, typed.right.injections⟩

end Engine

-- A server with two buffers that has heard of nobody yet.
namespace Server.Sample

def premises : Premises where
  link   := { identity := Engine.Sample.bench.identity, broadcast := .v4 255 255 255 255 9000 }
  screen := { rows := 2, cols := 8, cells := Screen.blanks defaultAttribute 16 }

def engine : Engine Premises where
  config   := Engine.Sample.config
  identity := premises.link.identity
  sessions := ⟨List.replicate defaultSessions none⟩
  host     := premises
  buffer   := Octets.zeros maxFrameLength

def fresh : Server where
  engine := engine
  pool   := ⟨Pool.freshSlots 2 maxFrameLength, some 0, none, maxFrameLength, 0, 0⟩

theorem make_engine : Engine.make Engine.Sample.config premises = .ok engine :=
  rfl

theorem make_pool : Pool.make 2 = .ok fresh.pool :=
  rfl

end Server.Sample

end RemoteScreen

import RemoteScreen.Engine.Dispatch
import RemoteScreen.Engine.Stream
import RemoteScreen.Proofs.Frame.Built
import RemoteScreen.Proofs.Frame.RoundTrip

namespace RemoteScreen.Engine

-- What an engine goes by when it decides what to do next. The rest of it is the world around it
-- and what is kept for others to look at.
structure Control where
  config       : EngineConfig
  identity     : Identity
  sessions     : SessionTable
  scanRow      : Nat
  lastChecksum : Option UInt32
  room         : Nat

variable {σ : Type}

def control (e : Engine σ) : Control where
  config       := e.config
  identity     := e.identity
  sessions     := e.sessions
  scanRow      := e.scanRow
  lastChecksum := e.lastChecksum
  room         := e.buffer.length

-- On the way from `e` to `e'` the link was handed `ts`.
def Hands (e : Engine σ) (ts : List Transmission) (e' : Engine σ) : Prop :=
  e'.journal.transmissions = e.journal.transmissions ++ ts

theorem Hands.refl (e : Engine σ) : e.Hands [] e := by
  simp [Hands]

theorem Hands.of_eq {e e' : Engine σ}
    (h : e'.journal.transmissions = e.journal.transmissions) : e.Hands [] e' := by
  simp [Hands, h]

theorem Hands.trans {e₁ e₂ e₃ : Engine σ} {ts₁ ts₂ : List Transmission}
    (h₁ : e₁.Hands ts₁ e₂) (h₂ : e₂.Hands ts₂ e₃) : e₁.Hands (ts₁ ++ ts₂) e₃ := by
  rw [Hands] at *
  rw [h₂, h₁, List.append_assoc]

theorem Hands.unique {e e' : Engine σ} {ts₁ ts₂ : List Transmission}
    (h₁ : e.Hands ts₁ e') (h₂ : e.Hands ts₂ e') : ts₁ = ts₂ :=
  List.append_cancel_left (h₁.symm.trans h₂)

variable [Host σ] {e : Engine σ}

theorem hands_transmit (e : Engine σ) (frame : Octets) :
    e.Hands [⟨frame, (e.transmit frame).1⟩] (e.transmit frame).2 :=
  rfl

theorem hands_inject (e : Engine σ) (key : Keystroke) : e.Hands [] (e.inject key).2 :=
  .of_eq rfl

omit [Host σ] in
@[simp]
theorem control_countRejected (e : Engine σ) : e.countRejected.control = e.control :=
  rfl

omit [Host σ] in
@[simp]
theorem control_countFault (e : Engine σ) (fault : Fault) :
    (e.countFault fault).control = e.control := by
  cases fault <;> rfl

omit [Host σ] in
theorem hands_countFault (e : Engine σ) (fault : Fault) : e.Hands [] (e.countFault fault) := by
  cases fault <;> exact .of_eq rfl

omit [Host σ] in
@[simp]
theorem control_countChunk (e : Engine σ) (tally : Tally) (outcome : Except Fault Unit) :
    (e.countChunk tally outcome).2.control = e.control := by
  cases outcome <;> rfl

omit [Host σ] in
theorem hands_countChunk (e : Engine σ) (tally : Tally) (outcome : Except Fault Unit) :
    e.Hands [] (e.countChunk tally outcome).2 := by
  cases outcome <;> exact .of_eq rfl

end RemoteScreen.Engine

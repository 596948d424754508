import RemoteScreen.Fault

/-!
The kinds of messages and their numbers on the link.
-/

namespace RemoteScreen

inductive MessageKind
  -- Taken and never acted on.
  | noop
  -- Asks for its payload back.
  | ping
  | pong
  | statusRequest
  | statusResponse
  -- Opens a session or keeps it alive.
  | sessionStart
  -- Whole rows of the screen.
  | screenChunk
  | injectKeystroke
deriving DecidableEq, Repr, Inhabited

namespace MessageKind

def number : MessageKind → UInt16
  | noop => 0
  | ping => 1
  | pong => 2
  | statusRequest => 3
  | statusResponse => 4
  | sessionStart => 5
  | screenChunk => 6
  | injectKeystroke => 7

def name : MessageKind → String
  | noop => "Noop"
  | ping => "Ping"
  | pong => "Pong"
  | statusRequest => "StatusRequest"
  | statusResponse => "StatusResponse"
  | sessionStart => "SessionStart"
  | screenChunk => "ScreenChunk"
  | injectKeystroke => "InjectKeystroke"

def ofNumber? (number : UInt16) : Option MessageKind :=
  match number.toNat with
  | 0 => some noop
  | 1 => some ping
  | 2 => some pong
  | 3 => some statusRequest
  | 4 => some statusResponse
  | 5 => some sessionStart
  | 6 => some screenChunk
  | 7 => some injectKeystroke
  | _ => none

@[simp]
theorem ofNumber?_number (kind : MessageKind) : ofNumber? kind.number = some kind := by
  cases kind <;> rfl

def ofNumber (number : UInt16) : Except Fault MessageKind :=
  match ofNumber? number with
  | some kind => .ok kind
  | none => .error (.unknownKind number.toNat)

@[simp]
theorem ofNumber_number (kind : MessageKind) : ofNumber kind.number = .ok kind := by
  rw [ofNumber, ofNumber?_number]

-- The message counts only if its sender and nonce name a live session.
def requiresSession : MessageKind → Bool
  | injectKeystroke => true
  | _ => false

-- Only a server sends such messages, so a server acts on none that it receives.
def isServerOriginated : MessageKind → Bool
  | pong | statusResponse | screenChunk => true
  | _ => false

end MessageKind

end RemoteScreen

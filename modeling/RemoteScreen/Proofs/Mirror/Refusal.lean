import RemoteScreen.Proofs.Mirror.Rendering

namespace RemoteScreen

namespace Chunk

-- The octets of the screen that a chunk is of.
def region (c : Chunk) : Nat :=
  c.header.rows.toNat * c.header.cols.toNat * cellWidth

-- Where the cells of a chunk end in the screen.
def stop (c : Chunk) : Nat :=
  c.header.start.toNat + c.cells.length

theorem parse_of_long {payload : Octets} (h : 8 ≤ payload.length) :
    ∃ chunk, parse payload = .ok chunk := by
  match payload, h with
  | _ :: _ :: _ :: _ :: _ :: _ :: _ :: _ :: _, _ => exact ⟨_, rfl⟩

theorem length_of_parse_eq_error {payload : Octets} {fault : Fault}
    (h : parse payload = .error fault) :
    payload.length < chunkHeaderLength ∧ fault = .tooShort chunkHeaderLength payload.length := by
  by_cases hl : chunkHeaderLength ≤ payload.length
  case pos =>
    obtain ⟨_, hp⟩ := parse_of_long hl
    rw [hp] at h
    contradiction
  case neg =>
    refine ⟨Nat.lt_of_not_le hl, ?_⟩
    rw [parse] at h
    split at h
    case h_1 => contradiction
    case h_2 => exact (Except.error.inj h).symm

end Chunk

namespace Replica

variable {r r' : Replica} {chunk : Chunk} {fault : Fault}

-- A chunk is of a screen with the shape of the replica.
def Shaped (r : Replica) (chunk : Chunk) : Prop :=
  chunk.header.rows = r.rows ∧ chunk.header.cols = r.cols

-- What is left of a replica when a chunk is refused. Nothing of its cells is taken over, but its
-- shape and its cursor are.
structure Refuses (r : Replica) (chunk : Chunk) (r' : Replica) : Prop where
  rows      : r'.rows = chunk.header.rows
  cols      : r'.cols = chunk.header.cols
  cursorRow : r'.cursorRow = chunk.header.cursorRow
  cursorCol : r'.cursorCol = chunk.header.cursorCol
  kept      : r.Shaped chunk → r'.cells = r.cells
  blank     : ¬ r.Shaped chunk → r'.cells = Octets.zeros chunk.region

-- It stays as it was just if there was nothing new in the header of the chunk.
theorem Refuses.eq_iff (h : r.Refuses chunk r') :
    r' = r ↔ r.Shaped chunk ∧
      chunk.header.cursorRow = r.cursorRow ∧ chunk.header.cursorCol = r.cursorCol := by
  constructor
  case mp =>
    rintro rfl
    exact ⟨⟨h.rows.symm, h.cols.symm⟩, h.cursorRow.symm, h.cursorCol.symm⟩
  case mpr =>
    rintro ⟨hs, hr, hc⟩
    have rows      := h.rows.trans hs.left
    have cols      := h.cols.trans hs.right
    have cursorRow := h.cursorRow.trans hr
    have cursorCol := h.cursorCol.trans hc
    have cells     := h.kept hs
    cases r
    cases r'
    simp_all only

theorem WellFormed.length_reshape_chunk (h : r.WellFormed) (chunk : Chunk) :
    (r.reshape chunk.header.rows chunk.header.cols).cells.length = chunk.region := by
  rw [h.reshape chunk.header.rows chunk.header.cols, rows_reshape, cols_reshape]
  rfl

-- A chunk is refused just if it goes past the end of the screen that it is of.
theorem WellFormed.apply_eq_error_iff (h : r.WellFormed) :
    (r.apply chunk).1 = .error fault ↔
      chunk.region < chunk.stop ∧ fault = .payloadTooLarge chunk.stop chunk.region := by
  rw [Replica.apply]
  simp only [h.length_reshape_chunk chunk]
  change (ite (chunk.region < chunk.stop) _ _ : Except Fault (Nat × Nat) × Replica).1 = _ ↔ _
  split
  case isTrue hs =>
    rw [Except.error.injEq, and_iff_right hs]
    exact eq_comm
  case isFalse hs =>
    constructor
    case mp =>
      intro
      contradiction
    case mpr => exact fun he => absurd he.left hs

theorem apply_of_error (he : (r.apply chunk).1 = .error fault) :
    (r.apply chunk).2 = { r.reshape chunk.header.rows chunk.header.cols with
      cursorRow := chunk.header.cursorRow
      cursorCol := chunk.header.cursorCol } := by
  rw [apply] at he ⊢
  simp only at he ⊢
  split at he
  case isTrue hs => rw [if_pos hs]
  case isFalse   => contradiction

theorem refuses_of_error (ha : r.apply chunk = (.error fault, r')) : r.Refuses chunk r' := by
  have hr := apply_of_error (congrArg Prod.fst ha)
  simp only [ha] at hr
  subst hr
  constructor
  case rows      => exact rows_reshape ..
  case cols      => exact cols_reshape ..
  case cursorRow => rfl
  case cursorCol => rfl
  case kept =>
    intro hs
    simp only [reshape, if_pos (show _ ∧ _ from hs)]
  case blank =>
    intro hs
    simp only [reshape, if_neg (show ¬ (_ ∧ _) from hs)]
    rfl

end Replica

namespace Viewer

variable {v v' : Viewer} {frame : Frame} {fault : Fault}

-- What a viewer finds fault with, and what is left of it then. Its session and its count stay.
inductive Rejects (v : Viewer) (frame : Frame) : Fault → Viewer → Prop
  | garbled : frame.payload.length < chunkHeaderLength →
    Rejects v frame (.tooShort chunkHeaderLength frame.payload.length) v
  | misplaced {chunk : Chunk} {replica : Replica} : Chunk.parse frame.payload = .ok chunk →
    chunk.region < chunk.stop → v.replica.Refuses chunk replica →
    Rejects v frame (.payloadTooLarge chunk.stop chunk.region) { v with replica }

theorem rejects_of_error (h : v.replica.WellFormed) (he : (v.onFrame frame).1 = .error fault) :
    v.Rejects frame fault (v.onFrame frame).2 := by
  rw [onFrame] at he ⊢
  split at he
  case isFalse => contradiction
  case isTrue hc =>
    rw [if_pos hc]
    cases hp : Chunk.parse frame.payload
    case error =>
      rw [hp] at he
      obtain ⟨hl, rfl⟩ := Chunk.length_of_parse_eq_error hp
      cases he
      exact .garbled hl
    case ok chunk =>
      cases ha : v.replica.apply chunk
      case mk answer replica =>
        rw [hp] at he
        simp only [ha] at he ⊢
        cases answer
        case ok => contradiction
        case error =>
          cases he
          obtain ⟨hs, rfl⟩ := h.apply_eq_error_iff.mp (congrArg Prod.fst ha)
          exact .misplaced hp hs <| Replica.refuses_of_error ha

-- A chunk that is refused puts no cells into the replica, and costs those of another shape.
theorem refuses_and_rejects :
    (∀ {r r' : Replica} {chunk : Chunk} {fault : Fault}, r.Reachable →
      r.apply chunk = (.error fault, r') →
      chunk.region < chunk.stop ∧ fault = .payloadTooLarge chunk.stop chunk.region ∧
      r.Refuses chunk r' ∧ (r' = r ↔ r.Shaped chunk ∧
        chunk.header.cursorRow = r.cursorRow ∧ chunk.header.cursorCol = r.cursorCol)) ∧
    (∀ {target : Identity} {nonce : UInt32} {frames : List Frame} {frame : Frame} {fault : Fault},
      let v := takeFrames ⟨target, nonce, {}, 0⟩ frames
      (v.onFrame frame).1 = .error fault → v.Rejects frame fault (v.onFrame frame).2) := by
  constructor
  case left =>
    intro r r' chunk fault hr ha
    have ⟨hs, hf⟩ := hr.wellFormed.apply_eq_error_iff.mp (congrArg Prod.fst ha)
    have refuses := Replica.refuses_of_error ha
    exact ⟨hs, hf, refuses, refuses.eq_iff⟩
  case right =>
    intro target nonce frames frame fault v he
    have stays := stays_takeFrames ⟨target, nonce, {}, 0⟩ frames
    exact rejects_of_error (stays.mirror .blank).wellFormed he

end Viewer

namespace Replica.Sample

def first : Chunk :=
  ⟨⟨1, 1, 1, 2, 0, 2⟩, [0x78, 0x79]⟩

def shown : Replica :=
  (apply {} first).2

-- Just past the end of a larger screen.
def misplaced : Chunk :=
  ⟨⟨2, 2, 3, 4, 8, 2⟩, [0x61, 0x62]⟩

def frame (chunk : Chunk) : Frame :=
  ⟨⟨.broadcast, ⟨2, 0, 0, 0, 0, 1⟩, defaultEthertype⟩, 7, .screenChunk, chunk.encode⟩

-- One that has taken in the first chunk.
def viewer : Viewer :=
  .takeFrames ⟨⟨2, 0, 0, 0, 0, 1⟩, 7, {}, 0⟩ [frame first]

theorem reachable_shown : shown.Reachable :=
  .apply first .blank

end Replica.Sample

namespace Viewer

open Replica.Sample

theorem refuses_and_rejects_misplaced :
    let r' : Replica := ⟨2, 2, 3, 4, Octets.zeros 8⟩
    let fault : Fault := .payloadTooLarge 10 8
    shown.Reachable ∧ shown.apply misplaced = (.error fault, r') ∧
    shown.Refuses misplaced r' ∧ (viewer.onFrame (frame misplaced)).1 = .error fault ∧
    viewer.Rejects (frame misplaced) fault (viewer.onFrame (frame misplaced)).2 := by
  intro r' fault
  have refused : shown.apply misplaced = (.error fault, r') := by rfl
  have rejected : (viewer.onFrame (frame misplaced)).1 = .error fault := by rfl
  have ⟨_, _, refuses, _⟩ := refuses_and_rejects.left reachable_shown refused
  exact ⟨reachable_shown, refused, refuses, rejected, refuses_and_rejects.right rejected⟩

-- What was shown may be gone, although nothing has come in its place.
theorem refusal_blanks :
    shown = ⟨1, 1, 1, 2, [0x78, 0x79]⟩ ∧ Chunk.parse misplaced.encode = .ok misplaced ∧
    shown.apply misplaced = (.error (.payloadTooLarge 10 8), ⟨2, 2, 3, 4, Octets.zeros 8⟩) ∧
    (¬ ∀ {r r' : Replica} {payload : Octets} {chunk : Chunk} {fault : Fault}, r.Reachable →
      Chunk.parse payload = .ok chunk → r.apply chunk = (.error fault, r') → r' = r) ∧
    (¬ ∀ {target : Identity} {nonce : UInt32} {frames : List Frame} {frame : Frame} {fault : Fault},
      let v := takeFrames ⟨target, nonce, {}, 0⟩ frames
      (v.onFrame frame).1 = .error fault → (v.onFrame frame).2 = v) := by
  have parsed : Chunk.parse misplaced.encode = .ok misplaced := by rfl
  have refused : shown.apply misplaced =
      (.error (.payloadTooLarge 10 8), ⟨2, 2, 3, 4, Octets.zeros 8⟩) := by rfl
  refine ⟨by rfl, parsed, refused, fun atomic => ?_, fun atomic => ?_⟩
  · have same := atomic reachable_shown parsed refused
    revert same
    decide
  · have same : (viewer.onFrame (frame misplaced)).2 = viewer := atomic rfl
    revert same
    decide

end Viewer

end RemoteScreen

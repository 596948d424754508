import RemoteScreen.Client
import RemoteScreen.Replica

/-!
Watching a served screen: a session held with one server, and the copy of its screen.

A chunk that reaches the end of the copy completes a pass over the screen, and each completed pass
is drawn as a page.
-/

namespace RemoteScreen

structure Viewer where
  target : Identity
  nonce : UInt32
  replica : Replica := {}
  -- Chunks taken in, modulo the counter's width.
  chunks : UInt64 := 0
deriving DecidableEq, Repr

namespace Viewer

def concerns (v : Viewer) (frame : Frame) : Bool :=
  frame.kind = .screenChunk ∧ frame.link.source = v.target ∧ frame.nonce = v.nonce

-- Takes a frame in, and says whether it completed a pass. Frames of no concern are passed over.
def onFrame (v : Viewer) (frame : Frame) : Except Fault Bool × Viewer :=
  if v.concerns frame then
    match Chunk.parse frame.payload with
    | .error fault => (.error fault, v)
    | .ok chunk =>
      match v.replica.apply chunk with
      | (.error fault, replica) => (.error fault, { v with replica })
      | (.ok (_, stop), replica) =>
        (.ok (stop = replica.cells.length), { v with replica, chunks := v.chunks + 1 })
  else (.ok false, v)

def statusLine (v : Viewer) : List Char :=
  let r := v.replica
  let shape := s!"{r.cols.toNat}x{r.rows.toNat}"
  let cursor := s!"{r.cursorRow.toNat},{r.cursorCol.toNat}"
  ("── " ++ v.target.text ++ " " ++ shape ++ " cursor " ++ cursor ++ " ──").toList

-- The line without the blanks at its end.
def trimEnd (line : List Char) : List Char :=
  (line.reverse.dropWhile (· = ' ')).reverse

-- The screen as text under its status line, each line ended.
def render (v : Viewer) : String :=
  String.ofList ((v.statusLine :: v.replica.lines.map trimEnd).flatMap (· ++ ['\n']))

end Viewer

-- What a reader of pages says to each: go on, stop, or that it cannot be shown.
inductive PageVerdict
  | more
  | enough
  | failure (fault : Fault)

namespace Viewer

-- Shows a page for every completed pass in a queue of datagrams, until the reader has enough. A bad
-- chunk is passed over.
def follow (client : Client) (read : Nat → String → PageVerdict) :
    Viewer → List String → List Datagram → Except Fault Viewer × List String × List Datagram
  | v, pages, [] => (.ok v, pages, [])
  | v, pages, datagram :: rest =>
    match client.frameFor? datagram with
    | none => follow client read v pages rest
    | some (frame, _) =>
      match v.onFrame frame with
      | (.ok true, v) =>
        let page := v.render
        match read pages.length page with
        | .failure fault => (.error fault, pages, rest)
        | .enough => (.ok v, pages ++ [page], rest)
        | .more => follow client read v (pages ++ [page]) rest
      | (_, v) => follow client read v pages rest

-- Starts a session with a server and shows the pages of its screen.
def watch (client : Client) (target : Identity) (read : Nat → String → PageVerdict) :
    Except Fault Viewer × List String × Client :=
  let (nonce, client) := client.drawNonce
  match client.startSession target nonce with
  | (.error fault, client) => (.error fault, [], client)
  | (.ok (), client) =>
    let (outcome, pages, rest) := follow client read ⟨target, nonce, {}, 0⟩ [] client.socket.arrivals
    (outcome, pages, client.awaiting rest)

end Viewer

end RemoteScreen

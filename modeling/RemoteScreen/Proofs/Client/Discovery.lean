import Mathlib.Data.List.Nodup
import RemoteScreen.Engine.Bench
import RemoteScreen.Proofs.Client.Calls

namespace RemoteScreen.Client

variable {c : Client} {nonce : UInt32} {d : Datagram} {frame : Frame} {address : Address}
  {server : Discovered} {news found : List Discovered}

-- A status response to the request of this nonce, however much of a state is in it.
structure Responds (c : Client) (nonce : UInt32) (d : Datagram) (frame : Frame) : Prop extends
    c.Hears d frame where
  size  : d.octets.length ≤ maxJumboLength
  kind  : frame.kind = .statusResponse
  nonce : frame.nonce = nonce

theorem frameFor?_of_hears (h : c.Hears d frame) (hl : d.octets.length ≤ maxJumboLength) :
    c.frameFor? d = some (frame, d.peer) := by
  have read : c.codec.read? d.octets = some frame := by
    rw [Codec.read?, if_neg (Nat.not_lt.mpr hl), h.decodes]
    exact if_pos h.tag
  rw [frameFor?, read]
  exact if_pos h.destination

theorem size_of_frameFor? {heard : Frame × Address} (h : c.frameFor? d = some heard) :
    d.octets.length ≤ maxJumboLength := by
  apply Nat.le_of_not_lt
  intro hl
  rw [Foreign.frameFor? (.oversized hl)] at h
  contradiction

-- The server that a frame tells of, if it answers the request of this nonce with a whole state.
def server? (nonce : UInt32) : Frame × Address → Option Discovered
  | (frame, address) =>
    if frame.kind = .statusResponse ∧ frame.nonce = nonce then
      match DisplayState.decode frame.payload with
      | .ok state => some ⟨frame.link.source, address, state⟩
      | .error _  => none
    else none

-- The servers that datagrams tell of, in the order in which these arrive.
def told (c : Client) (nonce : UInt32) (queue : List Datagram) : List Discovered :=
  queue.filterMap fun d => (c.frameFor? d).bind (server? nonce)

-- Every answer holds a whole state.
def Ample (c : Client) (nonce : UInt32) (queue : List Datagram) : Prop :=
  ∀ d ∈ queue, ∀ frame, c.Responds nonce d frame → 6 ≤ frame.payload.length

-- Every server of those that are told of, once, as it is first told of, and in the order of that.
structure Finds (news found : List Discovered) : Prop where
  first    : ∀ server,
    server ∈ found ↔ news.find? (·.identity = server.identity) = some server
  distinct : (found.map Discovered.identity).Nodup
  order    : found.Pairwise fun x y => news.idxOf x < news.idxOf y

def enlist (found : List Discovered) (server : Discovered) : List Discovered :=
  if found.any (·.identity = server.identity) then found else found ++ [server]

theorem Finds.mem (h : Finds news found) (hs : server ∈ found) : server ∈ news :=
  List.mem_of_find?_eq_some ((h.first server).mp hs)

theorem Finds.find?_eq_none (h : Finds news found)
    (hn : ∀ other ∈ found, other.identity ≠ server.identity) :
    news.find? (·.identity = server.identity) = none := by
  cases hf : news.find? (·.identity = server.identity)
  case none => rfl
  case some other =>
    have hi : other.identity = server.identity := by simpa using List.find?_some hf
    exact absurd hi (hn other ((h.first other).mpr (hi ▸ hf)))

theorem finds_nil : Finds [] [] :=
  ⟨fun _ => by simp, .nil, .nil⟩

-- What a server says first stays, whatever it says later.
theorem Finds.enlist (h : Finds news found) (server : Discovered) :
    Finds (news ++ [server]) (enlist found server) := by
  have order : found.Pairwise fun x y =>
      (news ++ [server]).idxOf x < (news ++ [server]).idxOf y := by
    refine h.order.imp_of_mem fun hx hy hlt => ?_
    rwa [List.idxOf_append_of_mem (h.mem hx), List.idxOf_append_of_mem (h.mem hy)]
  rw [Client.enlist]
  split
  case isTrue ha =>
    have ⟨known, hk, hi⟩ : ∃ known ∈ found, known.identity = server.identity := by
      simpa using ha
    refine ⟨fun other => ?_, h.distinct, order⟩
    rw [h.first, List.find?_append]
    by_cases ho : server.identity = other.identity
    case neg => simp [ho]
    case pos =>
      have hf := (h.first known).mp hk
      rw [hi, ho] at hf
      rw [hf, Option.some_or]
  case isFalse ha =>
    have fresh : ∀ other ∈ found, other.identity ≠ server.identity := by
      simpa using ha
    have hn := h.find?_eq_none fresh
    have unseen : server ∉ news := fun hm => by
      simpa using List.find?_eq_none.mp hn server hm
    constructor
    case first =>
      intro other
      rw [List.mem_append, List.mem_singleton, h.first, List.find?_append]
      by_cases ho : server.identity = other.identity
      case neg =>
        have : other ≠ server := fun he => ho (he ▸ rfl)
        simp [ho, this]
      case pos =>
        rw [← ho, hn]
        simp [eq_comm]
    case distinct =>
      rw [List.map_append, List.nodup_append]
      refine ⟨h.distinct, List.nodup_singleton _, ?_⟩
      simpa using fresh
    case order =>
      rw [List.pairwise_append]
      refine ⟨order, List.pairwise_singleton .., fun x hx y hy => ?_⟩
      obtain rfl := List.mem_singleton.mp hy
      rw [List.idxOf_append_of_mem (h.mem hx), List.idxOf_append_of_notMem unseen]
      exact Nat.lt_add_right _ (List.idxOf_lt_length_of_mem (h.mem hx))

theorem Finds.enlistAll (h : Finds news found) (servers : List Discovered) :
    Finds (news ++ servers) (servers.foldl Client.enlist found) := by
  induction servers generalizing news found
  case nil => rwa [List.append_nil]
  case cons server rest hi =>
    have := hi (h.enlist server)
    rwa [List.append_assoc] at this

theorem decode_of_long {payload : Octets} (h : 6 ≤ payload.length) :
    ∃ state, DisplayState.decode payload = .ok state := by
  match payload, h with
  | _ :: _ :: _ :: _ :: _ :: _ :: _, _ => exact ⟨_, rfl⟩

theorem decode_of_short {payload : Octets} (h : payload.length < 6) :
    DisplayState.decode payload = .error (.tooShort 6 payload.length) := by
  unfold DisplayState.decode
  split
  case h_1 => exact absurd h (by simp)
  case h_2 => rfl

-- As long as every answer is whole, the search goes on with what has been told so far.
theorem gather_append {before : List (Frame × Address)} (after : List (Frame × Address))
    (h : ∀ reply ∈ before, reply.1.kind = .statusResponse →
      reply.1.nonce = nonce → 6 ≤ reply.1.payload.length) :
    gather nonce found (before ++ after)
      = gather nonce ((before.filterMap (server? nonce)).foldl enlist found) after := by
  induction before generalizing found
  case nil => rfl
  case cons reply rest hi =>
    obtain ⟨frame, address⟩ := reply
    have later := fun reply hm => h reply (.tail _ hm)
    rw [List.cons_append, gather]
    by_cases ha : frame.kind = .statusResponse ∧ frame.nonce = nonce
    case neg =>
      have hn : frame.kind ≠ .statusResponse ∨ frame.nonce ≠ nonce := by
        rwa [← Decidable.not_and_iff_or_not]
      rw [if_pos hn, hi later, List.filterMap_cons_none]
      exact if_neg ha
    case pos =>
      have hn : ¬ (frame.kind ≠ .statusResponse ∨ frame.nonce ≠ nonce) := by
        simp [ha]
      obtain ⟨state, decoded⟩ := decode_of_long (h _ (.head _) ha.left ha.right)
      have hs : server? nonce (frame, address) = some ⟨frame.link.source, address, state⟩ := by
        rw [server?, if_pos ha, decoded]
      rw [if_neg hn, decoded, List.filterMap_cons_some hs, List.foldl_cons, enlist]
      simp only
      split <;> exact hi later

theorem told_eq (c : Client) (nonce : UInt32) (queue : List Datagram) :
    c.told nonce queue = (c.heard queue).filterMap (server? nonce) :=
  List.filterMap_filterMap.symm

theorem ample_iff {queue : List Datagram} : c.Ample nonce queue ↔
    ∀ reply ∈ c.heard queue, reply.1.kind = .statusResponse → reply.1.nonce = nonce →
      6 ≤ reply.1.payload.length where
  mp h reply hm hk hn := by
    have ⟨d, hd, hf⟩ := List.mem_filterMap.mp hm
    have ⟨hears, _⟩ := hears_of_frameFor? hf
    exact h d hd reply.1 ⟨hears, size_of_frameFor? hf, hk, hn⟩
  mpr h d hd frame responds := by
    have hf := frameFor?_of_hears responds.toHears responds.size
    exact h (frame, d.peer) (List.mem_filterMap.mpr ⟨d, hd, hf⟩) responds.kind responds.nonce

instance (c : Client) (nonce : UInt32) (queue : List Datagram) : Decidable (c.Ample nonce queue) :=
  decidable_of_iff' _ ample_iff

-- On a network that takes it, the request goes out.
theorem discover_open (h : c.socket.network = .open) :
    c.discover.1 = (gather c.drawNonce.1 [] (c.heard c.socket.arrivals)).1 := by
  have posted : ∃ request, c.drawNonce.2.posted .broadcast .statusRequest c.drawNonce.1 []
      = .ok request := by
    have network : c.drawNonce.2.socket.network = .open := h
    simp only [Client.posted, network, Network.refusal?, Frame.make, Codec.encode]
    exact ⟨_, rfl⟩
  obtain ⟨request, hp⟩ := posted
  rw [discover_eq, ask]
  simp only [hp]
  exact (c.collect_eq ..).left

-- As long as no answer is short, a search finds every server that answers. Otherwise the first
-- short answer ends it, and nothing is found.
theorem discovers (c : Client) (h : c.socket.network = .open) :
    let nonce := c.drawNonce.1
    let queue := c.socket.arrivals
    (c.Ample nonce queue → ∃ found, c.discover.1 = .ok found ∧ Finds (c.told nonce queue) found) ∧
    ∀ before d after frame, queue = before ++ d :: after → c.Ample nonce before →
      c.Responds nonce d frame → frame.payload.length < 6 →
      c.discover.1 = .error (.tooShort 6 frame.payload.length) := by
  intro nonce queue
  have searched := discover_open h
  constructor
  case left =>
    intro ample
    have hg : gather nonce [] (c.heard queue ++ []) = _ := gather_append _ (ample_iff.mp ample)
    rw [List.append_nil] at hg
    refine ⟨_, by rw [searched, hg]; rfl, ?_⟩
    rw [told_eq]
    exact finds_nil.enlistAll _
  case right =>
    intro before d after frame hq ample responds short
    have hf := frameFor?_of_hears responds.toHears responds.size
    have hh : c.heard queue = c.heard before ++ (frame, d.peer) :: c.heard after := by
      rw [hq, heard, List.filterMap_append]
      exact congrArg _ (heard_cons_of_some hf after)
    have answers : ¬ (frame.kind ≠ .statusResponse ∨ frame.nonce ≠ nonce) := by
      simp [responds.kind, responds.nonce]
    rw [searched, hh, gather_append _ (ample_iff.mp ample), gather, if_neg answers,
      decode_of_short short]

namespace Sample

def seeker : Client where
  identity  := ⟨2, 0, 0, 0, 0x42, 1⟩
  server    := .v4 127 0 0 1 9000
  broadcast := .v4 127 0 0 1 9001

def near : Identity :=
  ⟨2, 0, 0, 0, 0x80, 0xab⟩

def far : Identity :=
  ⟨2, 0, 0, 0, 0x10, 2⟩

def status (source : Identity) (payload : Octets) : Datagram :=
  ⟨.v4 127 0 0 1 9000,
    (Frame.mk ⟨seeker.identity, source, 0x80ab⟩ 1 .statusResponse payload).encode⟩

def screen : Octets :=
  [3, 0, 25, 80, 4, 7]

end Sample

-- One server answers twice, and in between there is something that is no frame.
theorem discovers_repeated :
    let queue := [Sample.status Sample.near Sample.screen, ⟨.v4 127 0 0 1 9000, [0x7b, 0x6e]⟩,
      Sample.status Sample.near [3, 0, 50, 80, 0, 0], Sample.status Sample.far Sample.screen]
    let c := Sample.seeker.awaiting queue
    c.socket.network = .open ∧ c.Ample c.drawNonce.1 queue ∧
      (c.told c.drawNonce.1 queue).map Discovered.identity
        = [Sample.near, Sample.near, Sample.far] ∧
      ∃ found, c.discover.1 = .ok found ∧ Finds (c.told c.drawNonce.1 queue) found := by
  intro queue c
  have ample : c.Ample c.drawNonce.1 queue := by
    decide +kernel
  exact ⟨rfl, ample, by decide +kernel, (discovers c rfl).left ample⟩

-- A short answer keeps the server from being found that answers behind it.
theorem short_answer_ends_search :
    let queue := [Sample.status Sample.far [3, 0, 25], Sample.status Sample.near Sample.screen]
    let c := Sample.seeker.awaiting queue
    c.socket.network = .open ∧
      (c.told c.drawNonce.1 queue).map Discovered.identity = [Sample.near] ∧
      c.discover.1 = .error (.tooShort 6 3) ∧
      ¬ ∃ found, c.discover.1 = .ok found ∧ Finds (c.told c.drawNonce.1 queue) found := by
  intro queue c
  have failed : c.discover.1 = .error (.tooShort 6 3) := by
    decide +kernel
  refine ⟨rfl, by decide +kernel, failed, ?_⟩
  rintro ⟨found, ok, _⟩
  rw [failed] at ok
  contradiction

end RemoteScreen.Client

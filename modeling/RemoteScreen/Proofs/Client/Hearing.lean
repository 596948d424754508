import RemoteScreen.Client.Run

namespace RemoteScreen.Client

variable {c c' : Client} {d : Datagram} {queue queue' : List Datagram} {target : Identity}
  {nonce : UInt32}

-- Why a client passes a datagram over.
inductive Foreign (c : Client) (d : Datagram) : Prop
  | oversized :
    maxJumboLength < d.octets.length → Foreign c d
  | undecodable :
    (∀ frame, Frame.ofOctets d.octets ≠ .ok frame) → Foreign c d
  | otherTag {frame : Frame} :
    Frame.ofOctets d.octets = .ok frame → frame.link.ethertype ≠ c.ethertype → Foreign c d
  | elsewhere {frame : Frame} :
    Frame.ofOctets d.octets = .ok frame → frame.link.destination ≠ c.identity →
    frame.link.destination ≠ .broadcast → Foreign c d

-- The frame is in the datagram, and it is meant for this client.
structure Hears (c : Client) (d : Datagram) (frame : Frame) : Prop where
  decodes     : Frame.ofOctets d.octets = .ok frame
  tag         : frame.link.ethertype = c.ethertype
  destination : frame.link.destination = c.identity ∨ frame.link.destination = .broadcast

theorem hears_of_frameFor? {frame : Frame} {address : Address}
    (h : c.frameFor? d = some (frame, address)) : c.Hears d frame ∧ address = d.peer := by
  rw [frameFor?] at h
  split at h
  case h_1 => contradiction
  case h_2 f hr =>
    split at h
    case isFalse => contradiction
    case isTrue hd =>
      cases h
      rw [Codec.read?] at hr
      split at hr
      case isTrue => contradiction
      case isFalse =>
        split at hr
        case h_2 => contradiction
        case h_1 g ho =>
          split at hr
          case isFalse => contradiction
          case isTrue ht =>
            cases hr
            exact ⟨⟨ho, ht, hd⟩, rfl⟩

theorem Foreign.frameFor? (h : c.Foreign d) : c.frameFor? d = none := by
  cases hf : c.frameFor? d
  case none => rfl
  case some found =>
    have hears := (hears_of_frameFor? hf).left
    cases h
    case oversized hl => simp [Client.frameFor?, Codec.read?, hl] at hf
    case undecodable hn => exact absurd hears.decodes (hn _)
    case otherTag ho ht =>
      cases ho.symm.trans hears.decodes
      exact absurd hears.tag ht
    case elsewhere ho hi hb =>
      cases ho.symm.trans hears.decodes
      exact (hears.destination.elim hi hb).elim

-- Which frames are for a client depends on what it is called and on the tag that it goes by.
theorem frameFor?_congr (hi : c'.identity = c.identity) (ht : c'.ethertype = c.ethertype) :
    c'.frameFor? = c.frameFor? := by
  funext d
  simp [frameFor?, codec, hi, ht]

theorem firstFrame_congr (h : c'.frameFor? = c.frameFor?) : c'.firstFrame = c.firstFrame := by
  funext queue
  induction queue
  case nil          => rfl
  case cons d ds hi => simp only [firstFrame, h, hi]

theorem awaitPong_congr (h : c'.frameFor? = c.frameFor?) :
    c'.awaitPong target nonce = c.awaitPong target nonce := by
  funext queue
  induction queue
  case nil          => rfl
  case cons d ds hi => simp only [awaitPong, h, hi]

theorem collect_congr {found : List Discovered} (h : c'.frameFor? = c.frameFor?) :
    c'.collect nonce found = c.collect nonce found := by
  funext queue
  induction queue generalizing found
  case nil          => rfl
  case cons d ds hi => simp only [collect, h, hi]

-- The frames for a client in a queue, and where they came from.
def heard (c : Client) (queue : List Datagram) : List (Frame × Address) :=
  queue.filterMap c.frameFor?

theorem heard_cons_of_none (h : c.frameFor? d = none) (queue : List Datagram) :
    c.heard (d :: queue) = c.heard queue :=
  List.filterMap_cons_none h

theorem heard_cons_of_some {found : Frame × Address} (h : c.frameFor? d = some found)
    (queue : List Datagram) : c.heard (d :: queue) = found :: c.heard queue :=
  List.filterMap_cons_some h

theorem exists_of_mem_heard {frame : Frame} {address : Address}
    (h : (frame, address) ∈ c.heard queue) : ∃ d ∈ queue, d.peer = address ∧ c.Hears d frame := by
  have ⟨d, hd, hf⟩ := List.mem_filterMap.mp h
  have ⟨hears, hp⟩ := hears_of_frameFor? hf
  exact ⟨d, hd, hp.symm, hears⟩

-- What waits for frames goes by those that are heard, and by nothing else in the queue.

theorem firstFrame_eq (c : Client) (queue : List Datagram) :
    (c.firstFrame queue).1 = (c.heard queue).head? ∧
      c.heard (c.firstFrame queue).2 = (c.heard queue).tail := by
  induction queue
  case nil => exact ⟨rfl, rfl⟩
  case cons d rest hi =>
    cases hf : c.frameFor? d
    case none => simpa [firstFrame, hf, heard_cons_of_none hf] using hi
    case some => simp [firstFrame, hf, heard_cons_of_some hf]

theorem awaitPong_eq (c : Client) (target : Identity) (nonce : UInt32) (queue : List Datagram) :
    (c.awaitPong target nonce queue).1 = (c.heard queue).any (isPong target nonce ·.1) ∧
      c.heard (c.awaitPong target nonce queue).2
        = ((c.heard queue).dropWhile (!isPong target nonce ·.1)).tail := by
  induction queue
  case nil => exact ⟨rfl, rfl⟩
  case cons d rest hi =>
    cases hf : c.frameFor? d
    case none => simpa [awaitPong, hf, heard_cons_of_none hf] using hi
    case some found =>
      by_cases hp : isPong target nonce found.1
      case pos => simp [awaitPong, hf, heard_cons_of_some hf, hp]
      case neg => simpa [awaitPong, hf, heard_cons_of_some hf, hp] using hi

-- Goes through frames as `collect` goes through datagrams.
def gather (nonce : UInt32) : List Discovered → List (Frame × Address) →
    Except Fault (List Discovered) × List (Frame × Address)
  | found, [] => (.ok found, [])
  | found, (frame, address) :: rest =>
    if frame.kind ≠ .statusResponse ∨ frame.nonce ≠ nonce then gather nonce found rest
    else
      match DisplayState.decode frame.payload with
      | .error fault => (.error fault, rest)
      | .ok state =>
        if found.any (·.identity = frame.link.source) then gather nonce found rest
        else gather nonce (found ++ [⟨frame.link.source, address, state⟩]) rest

theorem collect_eq (c : Client) (nonce : UInt32) (found : List Discovered)
    (queue : List Datagram) :
    (c.collect nonce found queue).1 = (gather nonce found (c.heard queue)).1 ∧
      c.heard (c.collect nonce found queue).2 = (gather nonce found (c.heard queue)).2 := by
  induction queue generalizing found
  case nil => exact ⟨rfl, rfl⟩
  case cons d rest hi =>
    rw [collect]
    cases hf : c.frameFor? d
    case none =>
      rw [heard_cons_of_none hf]
      exact hi found
    case some reply =>
      rw [heard_cons_of_some hf, gather]
      simp only
      split
      case isTrue => exact hi found
      case isFalse =>
        cases DisplayState.decode reply.1.payload
        case error => exact ⟨rfl, rfl⟩
        case ok    => simp only; split <;> exact hi _

-- Of the queue, only a part at its end is left.

theorem firstFrame_suffix (c : Client) (queue : List Datagram) :
    (c.firstFrame queue).2 <:+ queue := by
  induction queue
  case nil => exact List.suffix_rfl
  case cons d rest hi =>
    rw [firstFrame]
    split
    case h_1 => exact List.suffix_cons ..
    case h_2 => exact hi.trans (List.suffix_cons ..)

theorem awaitPong_suffix (c : Client) (target : Identity) (nonce : UInt32)
    (queue : List Datagram) : (c.awaitPong target nonce queue).2 <:+ queue := by
  fun_induction awaitPong c target nonce queue
  case case1    => exact List.suffix_rfl
  case case2    => exact List.suffix_cons ..
  case case3 hi => exact hi.trans (List.suffix_cons ..)
  case case4 hi => exact hi.trans (List.suffix_cons ..)

theorem collect_suffix (c : Client) (nonce : UInt32) (found : List Discovered)
    (queue : List Datagram) : (c.collect nonce found queue).2 <:+ queue := by
  fun_induction collect c nonce found queue
  case case1 => exact List.suffix_rfl
  case case4 => exact List.suffix_cons ..
  all_goals
    rename_i hi
    exact hi.trans (List.suffix_cons ..)

-- The frames heard under a nonce. What answers a request goes by these alone.
def heardUnder (c : Client) (nonce : UInt32) (queue : List Datagram) : List (Frame × Address) :=
  (c.heard queue).filter (·.1.nonce = nonce)

theorem isPong_iff {frame : Frame} : isPong target nonce frame ↔
    frame.kind = .pong ∧ frame.nonce = nonce ∧ frame.link.source = target := by
  rw [isPong, decide_eq_true_eq]

theorem awaitPong_under (c : Client) (target : Identity) (nonce : UInt32)
    (queue : List Datagram) :
    (c.awaitPong target nonce queue).1
      = (c.heardUnder nonce queue).any (isPong target nonce ·.1) := by
  rw [(c.awaitPong_eq ..).left, heardUnder, List.any_filter]
  congr
  funext found
  cases hp : isPong target nonce found.1
  case false => simp
  case true  => simp [(isPong_iff.mp hp).right.left]

theorem gather_filter (nonce : UInt32) (found : List Discovered)
    (frames : List (Frame × Address)) :
    (gather nonce found (frames.filter (·.1.nonce = nonce))).1 = (gather nonce found frames).1 := by
  induction frames generalizing found
  case nil => rfl
  case cons reply rest hi =>
    by_cases hn : reply.1.nonce = nonce
    case neg => rw [List.filter_cons_of_neg (by simpa using hn), hi, gather, if_pos (.inr hn)]
    case pos =>
      rw [List.filter_cons_of_pos (by simpa using hn), gather, gather]
      split
      case isTrue => exact hi found
      case isFalse =>
        cases DisplayState.decode reply.1.payload
        case error => rfl
        case ok    => simp only; split <;> exact hi _

theorem collect_under (c : Client) (nonce : UInt32) (found : List Discovered)
    (queue : List Datagram) :
    (c.collect nonce found queue).1 = (gather nonce found (c.heardUnder nonce queue)).1 := by
  rw [(c.collect_eq ..).left, heardUnder, gather_filter]

-- Leaving out what is not picked makes no difference to what is.
theorem filterMap_filter_of_none {α : Type} {pick : Datagram → Option α} {keep : Datagram → Bool}
    (h : ∀ d, keep d = false → pick d = none) (queue : List Datagram) :
    (queue.filter keep).filterMap pick = queue.filterMap pick := by
  rw [List.filterMap_filter]
  congr
  funext d
  cases hk : keep d
  case false => simp [h d hk]
  case true  => simp

theorem heard_filter {keep : Datagram → Bool} (h : ∀ d, keep d = false → c.frameFor? d = none)
    (queue : List Datagram) : c.heard (queue.filter keep) = c.heard queue :=
  filterMap_filter_of_none h queue

-- Datagrams that carry other nonces make no difference to what is heard under this one.
theorem heardUnder_filter {keep : Datagram → Bool}
    (h : ∀ d, keep d = false → ∀ found, c.frameFor? d = some found → found.1.nonce ≠ nonce)
    (queue : List Datagram) :
    c.heardUnder nonce (queue.filter keep) = c.heardUnder nonce queue := by
  simp only [heardUnder, heard, List.filter_filterMap]
  refine filterMap_filter_of_none (fun d hk => ?_) queue
  cases hf : c.frameFor? d
  case none       => rfl
  case some found => simp [h d hk found hf]

-- Every server that is found has answered the request.
theorem exists_of_mem_gather {server : Discovered} {found result : List Discovered}
    {frames : List (Frame × Address)} (hg : (gather nonce found frames).1 = .ok result)
    (hs : server ∈ result) :
    server ∈ found ∨ ∃ frame, (frame, server.address) ∈ frames ∧ frame.kind = .statusResponse ∧
      frame.nonce = nonce ∧ frame.link.source = server.identity ∧
      DisplayState.decode frame.payload = .ok server.state := by
  fun_induction gather nonce found frames
  case case1 =>
    cases hg
    exact .inl hs
  case case3 => contradiction
  case case2 hi => exact (hi hg).imp id fun ⟨f, hm, hf⟩ => ⟨f, .tail _ hm, hf⟩
  case case4 hi => exact (hi hg).imp id fun ⟨f, hm, hf⟩ => ⟨f, .tail _ hm, hf⟩
  case case5 found frame address rest ha state hd _ hi =>
    cases hi hg
    case inr h =>
      have ⟨f, hm, hf⟩ := h
      exact .inr ⟨f, .tail _ hm, hf⟩
    case inl hm =>
      cases List.mem_append.mp hm
      case inl hm => exact .inl hm
      case inr hm =>
        cases List.mem_singleton.mp hm
        have ⟨hk, hn⟩ : frame.kind = .statusResponse ∧ frame.nonce = nonce := by simpa using ha
        exact .inr ⟨frame, .head _, hk, hn, rfl, hd⟩

end RemoteScreen.Client

import Mathlib.Data.Finset.Card
import Mathlib.Data.List.Rotate
import RemoteScreen.Proofs.Server.Routes

namespace RemoteScreen

-- A station is reached at another address from now on.
def Route.moved (identity : Identity) (address : Address) (route : Route) : Route :=
  if route.identity = identity then { route with address } else route

@[simp]
theorem Route.identity_moved (identity : Identity) (address : Address) (route : Route) :
    (route.moved identity address).identity = route.identity := by
  rw [moved]
  split <;> rfl

theorem Route.moved_of_eq {route : Route} {identity : Identity} (h : route.identity = identity)
    (address : Address) : route.moved identity address = ⟨identity, address⟩ := by
  rw [moved, if_pos h, h]

theorem Route.moved_of_ne {route : Route} {identity : Identity} (h : route.identity ≠ identity)
    (address : Address) : route.moved identity address = route :=
  if_neg h

namespace Routes

variable {r : Routes} {route : Route} {identity : Identity} {address : Address}

-- Routes by age: in front is the one whose station came in first.
abbrev Queue := List Route

namespace Queue

variable {q : Queue}

def stations (q : Queue) : List Identity :=
  q.map Route.identity

-- The oldest has to leave if there are as many as there can be.
def vacate (q : Queue) : Queue :=
  if q.length < routeSlots then q else q.tail

-- A station that is in the queue keeps its place there. Another one goes to the end of it.
def learn (q : Queue) (identity : Identity) (address : Address) : Queue :=
  if identity ∈ q.stations then q.map (Route.moved identity address)
  else q.vacate ++ [⟨identity, address⟩]

def lookup? (q : Queue) (identity : Identity) : Option Address :=
  (q.find? (·.identity = identity)).map Route.address

-- A queue that learning can lead to.
structure WellFormed (q : Queue) : Prop where
  length   : q.length ≤ routeSlots
  distinct : q.stations.Nodup

theorem vacate_sublist (q : Queue) : q.vacate.Sublist q := by
  rw [vacate]
  split
  case isTrue  => exact .refl q
  case isFalse => exact q.tail_sublist

theorem length_vacate_lt (h : q.length ≤ routeSlots) : q.vacate.length < routeSlots := by
  rw [vacate]
  split
  case isTrue hl  => exact hl
  case isFalse hl =>
    have : 0 < routeSlots := by decide
    rw [List.length_tail]
    omega

theorem stations_learn_of_mem (h : identity ∈ q.stations) (address : Address) :
    (q.learn identity address).stations = q.stations := by
  rw [learn, if_pos h, stations, List.map_map]
  exact List.map_congr_left fun route _ => route.identity_moved identity address

theorem stations_learn_of_not_mem (h : identity ∉ q.stations) (address : Address) :
    (q.learn identity address).stations = q.vacate.stations ++ [identity] := by
  rw [learn, if_neg h]
  exact List.map_append

theorem WellFormed.learn (h : q.WellFormed) (identity : Identity) (address : Address) :
    (q.learn identity address).WellFormed := by
  by_cases hm : identity ∈ q.stations
  case pos =>
    constructor
    case length =>
      rw [Queue.learn, if_pos hm, List.length_map]
      exact h.length
    case distinct =>
      rw [stations_learn_of_mem hm]
      exact h.distinct
  case neg =>
    constructor
    case length =>
      rw [Queue.learn, if_neg hm, List.length_append]
      exact length_vacate_lt h.length
    case distinct =>
      have hs : q.vacate.stations.Sublist q.stations := q.vacate_sublist.map _
      rw [stations_learn_of_not_mem hm]
      refine List.nodup_append.mpr ⟨h.distinct.sublist hs, List.nodup_singleton _, ?_⟩
      intro i hi j hj he
      rw [List.mem_singleton] at hj
      exact hm (hj ▸ he ▸ hs.subset hi)

-- No station has two routes in a queue, so it does not matter in which order one looks for it.
theorem find?_eq_some_iff {routes : List Route} (h : (routes.map Route.identity).Nodup) :
    routes.find? (·.identity = identity) = some route ↔
      route ∈ routes ∧ route.identity = identity := by
  constructor
  case mp =>
    intro hf
    exact ⟨List.mem_of_find?_eq_some hf, by simpa using List.find?_some hf⟩
  case mpr =>
    rintro ⟨hm, rfl⟩
    cases hf : routes.find? (·.identity = route.identity)
    case none => exact absurd (decide_eq_true rfl) (List.find?_eq_none.mp hf route hm)
    case some found =>
      have hi : found.identity = route.identity := by simpa using List.find?_some hf
      rw [List.inj_on_of_nodup_map h (List.mem_of_find?_eq_some hf) hm hi]

theorem WellFormed.lookup?_eq_some_iff (h : q.WellFormed) :
    q.lookup? identity = some address ↔ ⟨identity, address⟩ ∈ q := by
  rw [lookup?, Option.map_eq_some_iff]
  simp only [find?_eq_some_iff h.distinct]
  constructor
  case mp =>
    rintro ⟨route, ⟨hm, rfl⟩, rfl⟩
    exact hm
  case mpr => exact fun hm => ⟨_, ⟨hm, rfl⟩, rfl⟩

theorem lookup?_eq_none_iff : q.lookup? identity = none ↔ identity ∉ q.stations := by
  simp [lookup?, stations]

theorem mem_learn (h : route ∈ q.learn identity address) :
    route = ⟨identity, address⟩ ∨ route ∈ q ∧ route.identity ≠ identity := by
  by_cases hm : identity ∈ q.stations
  case pos =>
    rw [learn, if_pos hm, List.mem_map] at h
    obtain ⟨old, ho, rfl⟩ := h
    by_cases hi : old.identity = identity
    case pos => exact .inl (Route.moved_of_eq hi address)
    case neg =>
      rw [Route.moved_of_ne hi]
      exact .inr ⟨ho, hi⟩
  case neg =>
    rw [learn, if_neg hm, List.mem_append, List.mem_singleton] at h
    obtain h | h := h
    case inr => exact .inl h
    case inl =>
      have ho := q.vacate_sublist.subset h
      exact .inr ⟨ho, fun hi => hm (List.mem_map.mpr ⟨route, ho, hi⟩)⟩

end Queue

-- Writing a place in a ring and going on to the next one puts what is written at the end.
theorem rotate_set {α : Type} {ring : List α} {i : Nat} (h : i < ring.length) (a : α) :
    (ring.set i a).rotate (i + 1) = (ring.rotate i).tail ++ [a] := by
  obtain ⟨front, back, hr, rfl, hs⟩ : ∃ front back, ring = front ++ ring[i] :: back ∧
      front.length = i ∧ ring.set i a = front ++ a :: back := List.exists_of_set h
  have hl : front.length + 1 = (front ++ [a]).length := by
    rw [List.length_append]
    rfl
  generalize ring[front.length] = b at hr
  subst hr
  rw [hs, hl, List.append_cons front a, List.rotate_append_length_eq, List.rotate_append_length_eq]
  simp

theorem Queue.turned_vacate {q : Queue} (h : q.length ≤ routeSlots) :
    (List.replicate (routeSlots - q.length) none ++ q.map some).tail
      = List.replicate (routeSlots - (q.vacate.length + 1)) none ++ q.vacate.map some := by
  rw [vacate]
  split
  case isTrue hl =>
    have he : routeSlots - q.length = routeSlots - (q.length + 1) + 1 := by omega
    rw [he, List.replicate_succ]
    rfl
  case isFalse hl =>
    have he : q.length = routeSlots := Nat.le_antisymm h (Nat.le_of_not_lt hl)
    have hv : q.tail.length + 1 = routeSlots := by
      rw [List.length_tail, he]
      rfl
    rw [he, hv, Nat.sub_self, List.map_tail]
    rfl

-- Turned until the next slot is in front, the slots are those that are left empty, and then the
-- queue.
structure Ring (r : Routes) (q : Queue) : Prop where
  slots  : r.WellFormed
  queue  : q.WellFormed
  turned : r.slots.rotate r.next = List.replicate (routeSlots - q.length) none ++ q.map some

theorem ring_empty : Ring {} [] where
  slots  := wellFormed_empty
  queue  := ⟨Nat.zero_le _, List.nodup_nil⟩
  turned := rfl

namespace Ring

variable {q : Queue}

theorem known_perm (h : r.Ring q) : r.known.Perm q := by
  have hq : (r.slots.rotate r.next).filterMap id = q := by
    rw [h.turned]
    simp
  have hp := (r.slots.rotate_perm r.next).filterMap id
  exact (hq ▸ hp).symm

theorem distinct (h : r.Ring q) : (r.known.map Route.identity).Nodup :=
  (h.known_perm.map _).nodup_iff.mpr h.queue.distinct

theorem size_eq (h : r.Ring q) : r.size = q.length :=
  h.known_perm.length_eq

theorem lookup?_eq (h : r.Ring q) (identity : Identity) :
    r.lookup? identity = q.lookup? identity := by
  rw [Routes.lookup?, Queue.lookup?]
  congr 1
  ext route
  rw [Queue.find?_eq_some_iff h.distinct, Queue.find?_eq_some_iff h.queue.distinct,
    h.known_perm.mem_iff]

theorem slotOf?_eq_none_iff (h : r.Ring q) :
    r.slotOf? identity = none ↔ identity ∉ q.stations := by
  have hk : r.slotOf? identity = none ↔ ∀ route ∈ r.known, route.identity ≠ identity := by
    rw [slotOf?, List.findIdx?_eq_none_iff]
    simp only [known, List.mem_filterMap, id_eq, exists_eq_right, Option.any_eq_false,
      decide_eq_false_iff_not]
    exact ⟨fun h route hm => h _ hm route rfl, fun h slot hm route hs => h route (hs ▸ hm)⟩
  rw [hk]
  simp [h.known_perm.mem_iff, Queue.stations]

-- Only one slot has the station.
theorem set_eq_map (h : r.Ring q) {i : Nat} (hs : r.slotOf? identity = some i)
    (address : Address) : r.slots.set i (some ⟨identity, address⟩)
      = r.slots.map (Option.map (Route.moved identity address)) := by
  have hd := h.distinct
  rw [known, List.Nodup, List.pairwise_map, List.pairwise_filterMap,
    List.pairwise_iff_getElem] at hd
  obtain ⟨hi, found, before⟩ := List.findIdx?_eq_some_iff_getElem.mp hs
  obtain ⟨route, hr, rfl⟩ : ∃ route, r.slots[i] = some route ∧ route.identity = identity := by
    simpa [Option.any_eq_true] using found
  apply List.ext_getElem (by simp)
  intro j hj _
  rw [List.length_set] at hj
  rw [List.getElem_map]
  by_cases hij : i = j
  case pos =>
    subst hij
    rw [List.getElem_set_self, hr, Option.map_some, Route.moved_of_eq rfl]
  case neg =>
    rw [List.getElem_set_ne hij]
    cases ho : r.slots[j]
    case none => rfl
    case some other =>
      have hn : other.identity ≠ route.identity := by
        obtain hl | hl := Nat.lt_or_gt_of_ne hij
        · exact (hd i j hi hj hl route hr other ho).symm
        · simpa [ho] using before j hl
      rw [Option.map_some, Route.moved_of_ne hn]

theorem learn (h : r.Ring q) (identity : Identity) (address : Address) :
    (r.learn identity address).Ring (q.learn identity address) where
  slots  := h.slots.learn identity address
  queue  := h.queue.learn identity address
  turned := by
    rw [Routes.learn, Queue.learn]
    cases hs : r.slotOf? identity
    case some i =>
      have hm : identity ∈ q.stations := by
        by_contra hn
        rw [h.slotOf?_eq_none_iff.mpr hn] at hs
        contradiction
      simp only [if_pos hm, h.set_eq_map hs, ← List.map_rotate, h.turned]
      simp [Function.comp_def]
    case none =>
      have hm := h.slotOf?_eq_none_iff.mp hs
      have hn : r.next < r.slots.length := h.slots.slots ▸ h.slots.next
      let slots := r.slots.set r.next (some ⟨identity, address⟩)
      have hl : slots.length = routeSlots := List.length_set.trans h.slots.slots
      rw [if_neg hm, List.length_append, List.map_append, ← List.append_assoc]
      calc slots.rotate ((r.next + 1) % routeSlots)
        _ = slots.rotate (r.next + 1) := by rw [← hl, List.rotate_mod]
        _ = (r.slots.rotate r.next).tail ++ [some ⟨identity, address⟩] := rotate_set hn _
        _ = _ := by
          rw [h.turned, Queue.turned_vacate h.queue.length]
          rfl

end Ring

-- What is learned from a history, one route after another.
def learned (history : List Route) : Routes :=
  history.foldl (fun r route => r.learn route.identity route.address) {}

def Queue.learned (history : List Route) : Queue :=
  history.foldl (fun q route => q.learn route.identity route.address) []

-- Where a station was last heard from.
def latest? (history : List Route) (identity : Identity) : Option Address :=
  (history.reverse.find? (·.identity = identity)).map Route.address

variable {history : List Route}

theorem learned_concat (history : List Route) (route : Route) :
    learned (history ++ [route]) = (learned history).learn route.identity route.address :=
  List.foldl_concat ..

theorem Queue.learned_concat (history : List Route) (route : Route) :
    Queue.learned (history ++ [route])
      = (Queue.learned history).learn route.identity route.address :=
  List.foldl_concat ..

theorem latest?_concat (history : List Route) (route : Route) (identity : Identity) :
    latest? (history ++ [route]) identity =
      if route.identity = identity then some route.address else latest? history identity := by
  rw [latest?, List.reverse_concat, List.find?_cons]
  split <;> simp_all [latest?]

theorem ring_learned (history : List Route) : (learned history).Ring (Queue.learned history) := by
  induction history using List.reverseRecOn with
  | nil => exact ring_empty
  | append_singleton history route hi =>
    rw [learned_concat, Queue.learned_concat]
    exact hi.learn route.identity route.address

-- The queue has nothing but what was learned last of each of its stations.
theorem latest?_of_mem_learned {route : Route} (h : route ∈ Queue.learned history) :
    latest? history route.identity = some route.address := by
  induction history using List.reverseRecOn with
  | nil => contradiction
  | append_singleton history new hi =>
    rw [Queue.learned_concat] at h
    rw [latest?_concat]
    obtain rfl | ⟨ho, hn⟩ := Queue.mem_learn h
    case inl => exact if_pos rfl
    case inr => rw [if_neg (Ne.symm hn), hi ho]

theorem stations_learned_subset (history : List Route) :
    (Queue.learned history).stations ⊆ history.map Route.identity := by
  intro identity hm
  obtain ⟨route, hr, rfl⟩ := List.mem_map.mp hm
  have hl := latest?_of_mem_learned hr
  rw [latest?, Option.map_eq_some_iff] at hl
  have ⟨last, hf, _⟩ := hl
  have he : last.identity = route.identity := by simpa using List.find?_some hf
  exact List.mem_map.mpr ⟨last, List.mem_reverse.mp (List.mem_of_find?_eq_some hf), he⟩

-- No station has to leave before there are more of them than slots.
theorem subset_stations_learned (h : (history.map Route.identity).toFinset.card ≤ routeSlots) :
    history.map Route.identity ⊆ (Queue.learned history).stations := by
  induction history using List.reverseRecOn with
  | nil => exact List.nil_subset _
  | append_singleton history new hi =>
    let q := Queue.learned history
    have old : (history.map Route.identity).toFinset ⊆
        ((history ++ [new]).map Route.identity).toFinset := by
      simp
    have heard : q.stations.toFinset ⊆ (history.map Route.identity).toFinset := by
      intro identity hm
      rw [List.mem_toFinset] at hm ⊢
      exact stations_learned_subset history hm
    have stay : history.map Route.identity ⊆ q.stations := hi ((Finset.card_le_card old).trans h)
    rw [Queue.learned_concat, List.map_append]
    by_cases hm : new.identity ∈ q.stations
    case pos =>
      rw [Queue.stations_learn_of_mem hm]
      exact List.append_subset.mpr ⟨stay, by simpa using hm⟩
    case neg =>
      have fresh : new.identity ∉ (history.map Route.identity).toFinset := by
        rw [List.mem_toFinset]
        exact fun hn => hm (stay hn)
      have room : q.length < routeSlots := by
        calc q.length
          _ = q.stations.length := List.length_map _ |>.symm
          _ = q.stations.toFinset.card :=
            (List.toFinset_card_of_nodup (ring_learned history).queue.distinct).symm
          _ ≤ (history.map Route.identity).toFinset.card := Finset.card_le_card heard
          _ < (insert new.identity (history.map Route.identity).toFinset).card := by
            rw [Finset.card_insert_of_notMem fresh]
            exact Nat.lt_succ_self _
          _ = ((history ++ [new]).map Route.identity).toFinset.card := by
            congr 1
            ext
            simp
          _ ≤ routeSlots := h
      rw [Queue.stations_learn_of_not_mem hm, Queue.vacate, if_pos room]
      exact List.append_subset.mpr
        ⟨List.subset_append_of_subset_left _ stay, List.subset_append_right _ _⟩

-- What is learned agrees with a queue, and that queue with the history.
structure Agrees (history : List Route) : Prop where
  length    : (Queue.learned history).length ≤ 16
  distinct  : (Queue.learned history).stations.Nodup
  size      : (learned history).size = (Queue.learned history).length
  lookup    : ∀ identity,
    (learned history).lookup? identity = (Queue.learned history).lookup? identity
  latest    : ∀ identity ∈ (Queue.learned history).stations, ∃ address,
    (learned history).lookup? identity = some address ∧ latest? history identity = some address
  forgotten : ∀ identity ∉ (Queue.learned history).stations,
    (learned history).lookup? identity = none
  kept      : (history.map Route.identity).toFinset.card ≤ 16 →
    ∀ identity ∈ history.map Route.identity, identity ∈ (Queue.learned history).stations

-- The routes are a map that forgets the oldest of its stations when there is no slot left.
theorem learned_agrees (history : List Route) : Agrees history := by
  have ring := ring_learned history
  constructor
  case length    => exact ring.queue.length
  case distinct  => exact ring.queue.distinct
  case size      => exact ring.size_eq
  case lookup    => exact ring.lookup?_eq
  case forgotten =>
    intro identity hn
    rw [ring.lookup?_eq]
    exact Queue.lookup?_eq_none_iff.mpr hn
  case latest =>
    intro identity hm
    obtain ⟨route, hr, rfl⟩ := List.mem_map.mp hm
    refine ⟨route.address, ?_, latest?_of_mem_learned hr⟩
    rw [ring.lookup?_eq]
    exact ring.queue.lookup?_eq_some_iff.mpr hr
  case kept => exact fun h _ hm => subset_stations_learned h hm

-- Of seventeen stations the first is forgotten, though it was heard from again in between.
example :
    let station (n : Nat) : Identity := ⟨2, 0, 0, 0, 0, UInt8.ofNat n⟩
    let route (n service : Nat) : Route := ⟨station n, .v4 127 0 0 1 (UInt16.ofNat service)⟩
    let first := (List.range 16).map (fun n => route n n) ++ [route 0 100, route 1 101]
    let r := learned (first ++ [route 16 116])
    (learned first).lookup? (station 0) = some (.v4 127 0 0 1 100) ∧
    r.lookup? (station 0) = none ∧ r.lookup? (station 1) = some (.v4 127 0 0 1 101) ∧
    r.lookup? (station 16) = some (.v4 127 0 0 1 116) ∧ r.size = 16 := by
  decide

end Routes

end RemoteScreen

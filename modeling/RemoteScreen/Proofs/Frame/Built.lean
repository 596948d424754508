import RemoteScreen.Frame.Basic
import RemoteScreen.Frame.Draft

namespace RemoteScreen

namespace Draft

variable {d : Draft} {link : LinkHeader} {header : ProtocolHeader} {payload rest : Octets}

@[simp]
theorem length_write (d : Draft) (start : Nat) (octets : Octets) :
    (d.write start octets).octets.length = d.octets.length := by
  simp [write, Octets.overwrite]
  omega

-- Writing within a draft replaces one stretch and leaves what is before and behind it.
theorem write_append {front old back new : Octets} (h : d.octets = front ++ (old ++ back))
    (hl : old.length = new.length) :
    (d.write front.length new).octets = front ++ (new ++ back) := by
  have ho : Octets.overwrite d.octets front.length new = front ++ (new ++ back) := by
    rw [h]
    exact Octets.overwrite_append hl
  have hd : (d.write front.length new).octets = (front ++ (new ++ back)).take d.octets.length :=
    congrArg (List.take d.octets.length) ho
  rw [hd]
  apply List.take_of_length_le
  simp [h, hl]

@[simp]
theorem length_writeHeaders (d : Draft) (link : LinkHeader) (nonce : UInt32) :
    (d.writeHeaders link nonce).octets.length = d.octets.length :=
  length_write ..

@[simp]
theorem length_retarget (d : Draft) (destination : Identity) (nonce : UInt32) :
    (d.retarget destination nonce).octets.length = d.octets.length := by
  simp [retarget]

@[simp]
theorem length_writePayload (d : Draft) (start : Nat) (octets : Octets) :
    (d.writePayload start octets).octets.length = d.octets.length :=
  length_write ..

theorem octets_writeHeaders (d : Draft) (link : LinkHeader) (nonce : UInt32) :
    (d.writeHeaders link nonce).octets = link.encode ++
      ((ProtocolHeader.signed nonce 0 MessageKind.noop.number).encode ++
        d.octets.drop headerLength) := by
  have h : d.octets = [] ++ (d.octets.take headerLength ++ d.octets.drop headerLength) := by
    simp
  have hl : (d.octets.take headerLength).length = (link.encode ++
      (ProtocolHeader.signed nonce 0 MessageKind.noop.number).encode).length := by
    simpa [headerLength] using Nat.min_eq_left d.headerLength_le
  rw [writeHeaders, ← List.append_assoc]
  exact write_append h hl

theorem octets_writePayload {front old back : Octets} (new : Octets)
    (h : d.octets = link.encode ++ (header.encode ++ (front ++ (old ++ back))))
    (hl : old.length = new.length) :
    (d.writePayload front.length new).octets
      = link.encode ++ (header.encode ++ (front ++ (new ++ back))) := by
  have hf : headerLength + front.length = (link.encode ++ (header.encode ++ front)).length := by
    simp [headerLength, Nat.add_assoc]
  have ho : d.octets = (link.encode ++ (header.encode ++ front)) ++ (old ++ back) := by
    simp [h]
  rw [writePayload, hf, write_append ho hl]
  simp

theorem room_eq (h : d.octets = link.encode ++ (header.encode ++ (payload ++ rest))) :
    d.room = payload.length + rest.length := by
  simp [room, h, headerLength, linkHeaderLength, protocolHeaderLength]
  omega

-- Finishing stamps the last two words of the headers, which makes the draft hold a whole frame.
theorem finish_eq {nonce : UInt32} {length number : UInt16} (kind : MessageKind)
    (h : d.octets = link.encode ++
      ((ProtocolHeader.signed nonce length number).encode ++ (payload ++ rest))) :
    ∃ finished, d.finish kind payload.length = .ok (headerLength + payload.length, finished) ∧
      finished.octets = (Frame.mk link nonce kind payload).encode ++ rest := by
  have hr : ¬ d.room < payload.length := by
    rw [room_eq h]
    omega
  refine ⟨_, by rw [finish, if_neg hr], ?_⟩
  let front := link.encode ++ (Octets.ofWord32 signature ++ Octets.ofWord32 nonce)
  have hf : linkHeaderLength + 8 = front.length := by
    simp [front]
  have ho : d.octets = front ++
      ((Octets.ofWord16 length ++ Octets.ofWord16 number) ++ (payload ++ rest)) := by
    simp [h, front, ProtocolHeader.encode, ProtocolHeader.signed]
  rw [hf, write_append ho (by simp)]
  simp [front, Frame.encode, ProtocolHeader.encode, ProtocolHeader.signed]

-- Sending a finished frame elsewhere changes its destination and nonce and nothing else of it.
theorem octets_retarget {f : Frame} (h : d.octets = f.encode ++ rest) (destination : Identity)
    (nonce : UInt32) :
    (d.retarget destination nonce).octets
      = (Frame.mk { f.link with destination } nonce f.kind f.payload).encode ++ rest := by
  let after := f.link.source.octets ++ Octets.ofWord16 f.link.ethertype
  let tail := Octets.ofWord16 (UInt16.ofNat f.payload.length) ++
    (Octets.ofWord16 f.kind.number ++ (f.payload ++ rest))
  have h₁ : d.octets = [] ++ (f.link.destination.octets ++
      (after ++ (Octets.ofWord32 signature ++ (Octets.ofWord32 f.nonce ++ tail)))) := by
    simp [h, after, tail, Frame.encode, LinkHeader.encode, ProtocolHeader.encode,
      ProtocolHeader.signed]
  have h₂ := write_append h₁ (rfl : _ = destination.octets.length)
  let front := destination.octets ++ (after ++ Octets.ofWord32 signature)
  have h₃ : (d.write 0 destination.octets).octets
      = front ++ (Octets.ofWord32 f.nonce ++ tail) := by
    simpa [front] using h₂
  have hf : linkHeaderLength + 4 = front.length := by
    simp [front, after, linkHeaderLength]
  rw [retarget, hf, write_append h₃ (by simp)]
  simp [front, after, tail, Frame.encode, LinkHeader.encode, ProtocolHeader.encode,
    ProtocolHeader.signed]

theorem ofBuffer_eq {buffer : Octets} (h : headerLength ≤ buffer.length) :
    ofBuffer buffer = .ok ⟨buffer, h⟩ :=
  dif_pos h

theorem length_finish {kind : MessageKind} {payloadLength : Nat} {length : Nat} {finished : Draft}
    (h : d.finish kind payloadLength = .ok (length, finished)) :
    finished.octets.length = d.octets.length := by
  rw [finish] at h
  split at h
  · contradiction
  · injection h with h
    injection h with _ h
    rw [← h, length_write]

-- A body may be shorter than is said when the draft is finished. The frame is as long as is said
-- all the same, for behind the body stands what was there before.
theorem finish_short {buffer head body : Octets} {count : Nat} (hb : headerLength ≤ buffer.length)
    (hc : body.length ≤ count) (h : headerLength + (head.length + count) ≤ buffer.length)
    (link : LinkHeader) (nonce : UInt32) (kind : MessageKind) :
    ∃ stale rest finished, body.length + stale.length = count ∧
      ((((Draft.mk buffer hb).writeHeaders link nonce).writePayload 0 head).writePayload
        head.length body).finish kind (head.length + count)
          = .ok (headerLength + (head.length + count), finished) ∧
      finished.octets = (Frame.mk link nonce kind (head ++ (body ++ stale))).encode ++ rest ∧
      finished.octets.length = buffer.length := by
  let room := buffer.drop headerLength
  let behind := room.drop head.length
  let unwritten := behind.drop body.length
  let stale := unwritten.take (count - body.length)
  let rest := unwritten.drop (count - body.length)
  have hr : room.length = buffer.length - headerLength := List.length_drop
  have hu : (behind.take body.length).length = body.length := by
    rw [List.length_take, List.length_drop, hr]
    omega
  have hs : body.length + stale.length = count := by
    rw [List.length_take, List.length_drop, List.length_drop, hr]
    omega
  let stamped := (Draft.mk buffer hb).writeHeaders link nonce
  have h₀ : stamped.octets = link.encode ++
      ((ProtocolHeader.signed nonce 0 MessageKind.noop.number).encode ++
        ([] ++ (room.take head.length ++ behind))) := by
    rw [List.nil_append, List.take_append_drop]
    exact octets_writeHeaders ..
  have h₁ := octets_writePayload head h₀ <| by
    rw [List.length_take, hr]
    omega
  have hd : behind.take body.length ++ (stale ++ rest) = behind := by
    rw [List.take_append_drop, List.take_append_drop]
  rw [List.nil_append, ← hd] at h₁
  have h₂ := octets_writePayload body h₁ hu
  rw [← List.append_assoc body, ← List.append_assoc head] at h₂
  have ⟨finished, hf, ho⟩ := finish_eq kind h₂
  rw [List.length_append, List.length_append, hs] at hf
  refine ⟨stale, rest, finished, hs, hf, ho, ?_⟩
  rw [length_finish hf, length_writePayload, length_writePayload]
  exact length_writeHeaders ..

theorem length_reply {buffer : Octets} {template : Received} {own : Identity}
    {ethertype : UInt16} (h : reply buffer template own ethertype = .ok d) :
    d.octets.length = buffer.length := by
  rw [reply] at h
  split at h
  · contradiction
  · rename_i draft ho
    injection h with h
    rw [ofBuffer] at ho
    split at ho
    · injection ho with ho
      simp [← h, ← ho, clearPayload]
    · contradiction

theorem reply_eq {buffer : Octets} (template : Received) (own : Identity) (ethertype : UInt16)
    (h : headerLength ≤ buffer.length) :
    ∃ draft, reply buffer template own ethertype = .ok draft ∧
      draft.octets = (LinkHeader.mk template.source own ethertype).encode ++
        ((ProtocolHeader.signed template.nonce 0 MessageKind.noop.number).encode ++
          ([] ++ Octets.zeros (buffer.length - headerLength))) := by
  let link := LinkHeader.mk template.source own ethertype
  let d := (Draft.mk buffer h).writeHeaders link template.nonce
  have hd : d.octets = link.encode ++
      ((ProtocolHeader.signed template.nonce 0 MessageKind.noop.number).encode ++
        ([] ++ (buffer.drop headerLength ++ []))) := by
    simp [d, octets_writeHeaders]
  have hr : (buffer.drop headerLength).length = (Octets.zeros d.room).length := by
    simp [room_eq hd]
  refine ⟨d.clearPayload, by rw [reply, ofBuffer_eq h], ?_⟩
  have hc := octets_writePayload _ hd hr
  have hz : d.room = buffer.length - headerLength := by
    simpa using hr.symm
  rw [hz, List.append_nil] at hc
  rw [clearPayload, hz]
  exact hc

-- Why a buffer of this length is refused for a frame with so much payload.
def shortage (length payload : Nat) : Fault :=
  if headerLength ≤ length then .payloadTooLarge payload (length - headerLength)
  else .tooShort headerLength length

theorem ofBuffer_of_short {buffer : Octets} (h : ¬ headerLength ≤ buffer.length) :
    ofBuffer buffer = .error (.tooShort headerLength buffer.length) :=
  dif_neg h

end Draft

theorem length_buildReply (buffer : Octets) (template : Received) (own : Identity)
    (ethertype : UInt16) (kind : MessageKind) (payload : Octets) :
    (buildReply buffer template own ethertype kind payload).2.length = buffer.length := by
  rw [buildReply]
  split
  · rfl
  · rename_i draft hr
    split
    · exact Draft.length_reply hr
    · split
      · exact Draft.length_reply hr
      · rename_i hf
        rw [Draft.length_finish hf, Draft.length_writePayload, Draft.length_reply hr]

-- A reply that fits is a whole frame, and what is behind it in the buffer is zero.
theorem buildReply_eq {buffer : Octets} (template : Received) (own : Identity)
    (ethertype : UInt16) (kind : MessageKind) {payload : Octets}
    (h : headerLength + payload.length ≤ buffer.length) :
    buildReply buffer template own ethertype kind payload =
      (.ok (headerLength + payload.length),
        (Frame.mk ⟨template.source, own, ethertype⟩ template.nonce kind payload).encode ++
          Octets.zeros (buffer.length - (headerLength + payload.length))) := by
  have hb : headerLength ≤ buffer.length := Nat.le_of_add_right_le h
  have ⟨draft, hd, ho⟩ := Draft.reply_eq template own ethertype hb
  let size := buffer.length - headerLength - payload.length
  have hz : Octets.zeros (buffer.length - headerLength)
      = Octets.zeros payload.length ++ Octets.zeros size := by
    rw [← Octets.zeros_add]
    congr 1
    omega
  rw [hz] at ho
  have hr : ¬ draft.room < payload.length := by
    rw [Draft.room_eq ho]
    simp
  have hw := Draft.octets_writePayload _ ho (by simp : _ = payload.length)
  rw [List.nil_append] at hw
  have ⟨finished, hf, hc⟩ := Draft.finish_eq kind hw
  rw [buildReply, hd]
  simp only [hr, if_false]
  rw [show (0 : Nat) = ([] : Octets).length from rfl, hf]
  simp [hc, size, Nat.sub_sub]

-- Otherwise the fault depends on nothing in the buffer but its length.
theorem buildReply_of_short {buffer : Octets} (template : Received) (own : Identity)
    (ethertype : UInt16) (kind : MessageKind) {payload : Octets}
    (h : buffer.length < headerLength + payload.length) :
    (buildReply buffer template own ethertype kind payload).1
      = .error (Draft.shortage buffer.length payload.length) := by
  rw [buildReply, Draft.shortage]
  by_cases hb : headerLength ≤ buffer.length
  case neg => rw [Draft.reply, Draft.ofBuffer_of_short hb, if_neg hb]
  case pos =>
    have ⟨draft, hd, ho⟩ := Draft.reply_eq template own ethertype hb
    have hr : draft.room = buffer.length - headerLength := by
      simp [Draft.room_eq ho]
    simp only [hd]
    rw [if_pos (by omega), if_pos hb, hr]

theorem buildReply_fits {buffer : Octets} {template : Received} {own : Identity}
    {ethertype : UInt16} {kind : MessageKind} {payload after : Octets} {length : Nat}
    (h : buildReply buffer template own ethertype kind payload = (.ok length, after)) :
    headerLength + payload.length ≤ buffer.length := by
  apply Nat.le_of_not_lt
  intro hs
  have hf := buildReply_of_short template own ethertype kind hs
  rw [h] at hf
  contradiction

end RemoteScreen

import RemoteScreen.Proofs.Frame.Headers

namespace RemoteScreen

namespace Octets

-- The octets that stand from a position on.
def slice (octets : Octets) (start count : Nat) : Octets :=
  (octets.drop start).take count

-- The number that octets write, the most significant of them first.
def number (octets : Octets) : Nat :=
  octets.foldl (fun n o => n * 256 + o.toNat) 0

theorem number_ofWord16 (word : UInt16) : number (ofWord16 word) = word.toNat := by
  have h := word.toNat_lt
  simp only [number, ofWord16, List.foldl_cons, List.foldl_nil, UInt8.toNat_ofNat']
  omega

theorem number_ofWord32 (word : UInt32) : number (ofWord32 word) = word.toNat := by
  have h := word.toNat_lt
  simp only [number, ofWord32, List.foldl_cons, List.foldl_nil, UInt8.toNat_ofNat']
  omega

theorem ofWord16_inj {word word' : UInt16} :
    ofWord16 word = ofWord16 word' ↔ word = word' := by
  refine ⟨fun h => ?_, congrArg ofWord16⟩
  have h := congrArg number h
  rwa [number_ofWord16, number_ofWord16, UInt16.toNat_inj] at h

theorem ofWord32_inj {word word' : UInt32} : ofWord32 word = ofWord32 word' ↔ word = word' := by
  refine ⟨fun h => ?_, congrArg ofWord32⟩
  have h := congrArg number h
  rwa [number_ofWord32, number_ofWord32, UInt32.toNat_inj] at h

-- Where the fields of the headers stand.

section Headers

variable (link : LinkHeader) (header : ProtocolHeader) (body : Octets)

theorem slice_destination :
    slice (link.encode ++ (header.encode ++ body)) 0 6 = link.destination.octets :=
  rfl

theorem slice_source : slice (link.encode ++ (header.encode ++ body)) 6 6 = link.source.octets :=
  rfl

theorem slice_ethertype :
    slice (link.encode ++ (header.encode ++ body)) 12 2 = ofWord16 link.ethertype :=
  rfl

theorem slice_signature :
    slice (link.encode ++ (header.encode ++ body)) 14 4 = ofWord32 header.signature :=
  rfl

theorem slice_nonce :
    slice (link.encode ++ (header.encode ++ body)) 18 4 = ofWord32 header.nonce :=
  rfl

theorem slice_payloadLength :
    slice (link.encode ++ (header.encode ++ body)) 22 2 = ofWord16 header.payloadLength :=
  rfl

theorem slice_kind :
    slice (link.encode ++ (header.encode ++ body)) 24 2 = ofWord16 header.kind :=
  rfl

theorem drop_headers : (link.encode ++ (header.encode ++ body)).drop 26 = body :=
  rfl

end Headers

end Octets

end RemoteScreen

import DshProxy.MuxSession

/-! `noise.rs`: how mux frames become records of the bridge link and come back. -/
namespace DshProxy.Mux
open Wire ByteOrder

/-- The plaintext `NoiseEncoder::encode` stages for one frame. -/
def Frame.encode (frame : Frame) : Bytes :=
  toBe 4 frame.id.toNat ++ frame.kind.toByte :: (toBe 2 frame.payload.length ++ 0 :: frame.payload)

/-- A frame of one of the four kinds the mux has. -/
def Frame.Named (frame : Frame) : Prop := ∀ code, frame.kind ≠ .other code

@[simp] theorem Frame.encode_length (frame : Frame) :
    frame.encode.length = frameHead + frame.payload.length := by
  simp only [encode, List.length_append, List.length_cons, toBe_length, frameHead]
  omega

/-- What a frame is on the wire: its id, the byte of its kind and its payload. -/
def Frame.triple (frame : Frame) : UInt32 × UInt8 × Bytes :=
  (frame.id, frame.kind.toByte, frame.payload)

@[simp] theorem Kind.toByte_ofByte (code : UInt8) : (Kind.ofByte code).toByte = code := by
  unfold Kind.ofByte
  split
  · rename_i same
    exact same.symm
  · split
    · rename_i same
      exact same.symm
    · split
      · rename_i same
        exact same.symm
      · split
        · rename_i same
          exact same.symm
        · rfl

/-- The header parse of `read_loop` gives back what was encoded. -/
theorem Frame.parse_encode_eq (frame : Frame) :
    Frame.parse frame.encode = some ⟨frame.id, .ofByte frame.kind.toByte, frame.payload⟩ := by
  have long : ¬ frame.encode.length < frameHead := by simp
  have head : frame.encode.take 4 = toBe 4 frame.id.toNat := by
    rw [encode, List.take_left' (toBe_length 4 _)]
  have kind : frame.encode.getD 4 0 = frame.kind.toByte := by
    rw [encode, List.getD_eq_getElem?_getD, List.getElem?_append_right (by simp)]
    simp
  have tail : frame.encode.drop frameHead = frame.payload := by
    have split : frame.encode =
        (toBe 4 frame.id.toNat ++ frame.kind.toByte :: (toBe 2 frame.payload.length ++ [0])) ++
          frame.payload := by simp [encode]
    rw [split, List.drop_left' (by simp [frameHead])]
  have id : UInt32.ofNat (ofBe (toBe 4 frame.id.toNat)) = frame.id := by
    rw [ofBe_toBe 4 _ (by simpa using frame.id.toNat_lt), UInt32.ofNat_toNat]
  rw [Frame.parse, if_neg long, head, kind, tail, id]

theorem Frame.parse_encode {frame : Frame} (named : frame.Named) :
    Frame.parse frame.encode = some frame := by
  have code : Kind.ofByte frame.kind.toByte = frame.kind := by
    cases shape : frame.kind with
    | other code => exact absurd shape (named code)
    | _ => rfl
  rw [Frame.parse_encode_eq, code]

/-- The transport state of one finished handshake, with explicit nonces. What
`snow` seals is longer than the plaintext by the tag; what it will not open it
refuses with a text. -/
structure Transport where
  writeMessage : Nat → Bytes → Bytes
  readMessage : Nat → Bytes → Except String Bytes
  tagged : ∀ nonce plain, (writeMessage nonce plain).length = plain.length + tagLen

/-- An ideal cipher between two ends: at each nonce it opens what the peer has
sealed at that nonce, and nothing else. -/
def Transport.Ideal (transport : Transport) (sealed : List Bytes) : Prop :=
  ∀ nonce box plain, transport.readMessage nonce box = .ok plain ↔
    sealed[nonce]? = some plain ∧ box = transport.writeMessage nonce plain

def bad (message : String) : IoError := ⟨.invalidData, message⟩

/-- `NoiseEncoder`: the sending nonce, and the reused staging buffer. -/
structure NoiseEncoder where
  nonce : Nat := 0
  scratch : Bytes := []

/-- `NoiseEncoder::encode`, with the write buffer it appends to. -/
def NoiseEncoder.encode (transport : Transport) (frame : Frame) (e : NoiseEncoder) (dst : Bytes) :
    (NoiseEncoder × Bytes) × Result Unit :=
  let e := { e with scratch := frame.encode }
  let size := e.scratch.length + tagLen
  if maxNoiseMsg < size then ((e, dst), .error (bad "noise message too large"))
  else
    (({ e with nonce := (e.nonce + 1) % 2 ^ 64 },
      dst ++ (toBe 2 size ++ transport.writeMessage e.nonce e.scratch)), .ok ())

/-- `NoiseDecoder`: the receiving nonce. -/
structure NoiseDecoder where
  nonce : Nat := 0

/-- `NoiseDecoder::decode`, with the read buffer it takes from. -/
def NoiseDecoder.decode (transport : Transport) (d : NoiseDecoder) (src : Bytes) :
    (NoiseDecoder × Bytes) × Result (Option Bytes) :=
  if src.length < 2 then ((d, src), .ok none)
  else
    let len := ofBe (src.take 2)
    if len < tagLen then ((d, src), .error (bad "short noise message"))
    else if src.length < 2 + len then ((d, src), .ok none)
    else
      let rest := src.drop (2 + len)
      match transport.readMessage d.nonce ((src.drop 2).take len) with
      | .error message => ((d, rest), .error (bad message))
      | .ok plain => (({ nonce := (d.nonce + 1) % 2 ^ 64 }, rest), .ok (some plain))

/-- `FramedRead` over the decoder, and the header parse behind it: the frames
`read_loop` has got, until the first error. -/
structure LinkReader where
  decoder : NoiseDecoder := {}
  buffer : Bytes := []
  frames : List Frame := []
  failed : Option IoError := none

/-- `reader.next()` on what is buffered; `none` waits for more. -/
def LinkReader.next (transport : Transport) (r : LinkReader) : Option LinkReader :=
  if r.failed.isSome then none
  else
    match r.decoder.decode transport r.buffer with
    | (_, .ok none) => none
    | ((decoder, buffer), .error error) => some { r with decoder, buffer, failed := some error }
    | ((decoder, buffer), .ok (some plain)) =>
      match Frame.parse plain with
      | none => some { r with decoder, buffer, failed := some ⟨.invalidData, "short frame"⟩ }
      | some frame => some { r with decoder, buffer, frames := r.frames ++ [frame] }

/-- As many calls of `reader.next()` as what is buffered can answer. -/
def LinkReader.drain (transport : Transport) : Nat → LinkReader → LinkReader
  | 0, r => r
  | fuel + 1, r =>
    match r.next transport with
    | none => r
    | some r => r.drain transport fuel

/-- One read from the socket. A record has at least eighteen bytes, so no more
than one call in each byte can succeed. -/
def LinkReader.arrive (transport : Transport) (r : LinkReader) (bytes : Bytes) : LinkReader :=
  ({ r with buffer := r.buffer ++ bytes } : LinkReader).drain transport
    (r.buffer.length + bytes.length + 1)

/-- The whole of a connection, cut into reads. -/
def LinkReader.receive (transport : Transport) (reads : List Bytes) : LinkReader :=
  reads.foldl (LinkReader.arrive transport) {}

/-- Frame after frame through one encoder into one write buffer. -/
def NoiseEncoder.encodeAll (transport : Transport) :
    List Frame → NoiseEncoder × Bytes → NoiseEncoder × Bytes
  | [], state => state
  | frame :: rest, (e, dst) => encodeAll transport rest (e.encode transport frame dst).1

end DshProxy.Mux

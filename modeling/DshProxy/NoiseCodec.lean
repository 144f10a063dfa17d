import DshProxy.Noise
import Mathlib.Data.List.TakeDrop

/-! The bridge link's record format, end to end. The two nonces are counters
that are never sent: what the reader takes for the `i`-th record opens only if it
is the `i`-th that was sealed, so whatever is done to the bytes on their way, the
frames that come out are a front part of those that went in. -/
namespace DshProxy.Mux
open Wire ByteOrder

/-- The frame fits into one Noise message. -/
def Frame.Sealable (frame : Frame) : Prop := frame.payload.length ≤ maxNoiseMsg - tagLen - frameHead

instance (frame : Frame) : Decidable frame.Sealable := Nat.decLe _ _

/-- One record: the sealed length, and the frame sealed at the nonce. -/
def record (transport : Transport) (nonce : Nat) (frame : Frame) : Bytes :=
  toBe 2 (frame.encode.length + tagLen) ++ transport.writeMessage nonce frame.encode

/-- The records of a sequence of frames, at one nonce after the other. -/
def records (transport : Transport) : Nat → List Frame → Bytes
  | _, [] => []
  | nonce, frame :: rest =>
    record transport nonce frame ++ records transport ((nonce + 1) % 2 ^ 64) rest

variable {transport : Transport} {frame : Frame} {sent : List Frame}

theorem Frame.Sealable.size (fits : frame.Sealable) : frame.encode.length + tagLen ≤ maxNoiseMsg := by
  rw [Frame.encode_length]
  simp only [Frame.Sealable, maxNoiseMsg, tagLen, frameHead] at fits ⊢
  omega

/-- The length fields hold what they are to hold. -/
theorem Frame.Sealable.lengths (fits : frame.Sealable) :
    ofBe (toBe 2 frame.payload.length) = frame.payload.length ∧
      ofBe (toBe 2 (frame.encode.length + tagLen)) = frame.encode.length + tagLen := by
  have size := fits.size
  have whole := frame.encode_length
  simp only [maxNoiseMsg, tagLen, frameHead] at size whole
  constructor
  · exact ofBe_toBe 2 _ (by omega)
  · exact ofBe_toBe 2 _ (by simp only [tagLen]; omega)

theorem record_length (transport : Transport) (nonce : Nat) (frame : Frame) :
    (record transport nonce frame).length = 2 + (frame.encode.length + tagLen) := by
  simp [record, transport.tagged]

/-- A frame that fits is sealed at the encoder's nonce. -/
theorem encode_seals (fits : frame.Sealable) (e : NoiseEncoder) (dst : Bytes) :
    e.encode transport frame dst =
      ((⟨(e.nonce + 1) % 2 ^ 64, frame.encode⟩, dst ++ record transport e.nonce frame), .ok ()) := by
  simp only [NoiseEncoder.encode, if_neg (Nat.not_lt_of_le fits.size), record]

/-- A frame that does not fit leaves the buffer and the nonce alone. -/
theorem encode_rejects (large : ¬ frame.Sealable) (e : NoiseEncoder) (dst : Bytes) :
    e.encode transport frame dst =
      (({ e with scratch := frame.encode }, dst), .error (bad "noise message too large")) := by
  have size : maxNoiseMsg < frame.encode.length + tagLen := by
    rw [Frame.encode_length]
    simp only [Frame.Sealable, maxNoiseMsg, tagLen, frameHead] at large ⊢
    omega
  simp only [NoiseEncoder.encode, if_pos size]

/-- One encoder writes one record after the other. -/
theorem encodeAll_eq (fit : ∀ frame ∈ sent, frame.Sealable) (e : NoiseEncoder) (dst : Bytes) :
    (NoiseEncoder.encodeAll transport sent (e, dst)).2 = dst ++ records transport e.nonce sent := by
  induction sent generalizing e dst with
  | nil => simp [NoiseEncoder.encodeAll, records]
  | cons frame rest ih =>
    rw [NoiseEncoder.encodeAll, encode_seals (fit frame (by simp)),
      ih (fun frame member => fit frame (by simp [member])), records, List.append_assoc]

/-- The reader has got a front part of what was sent, and its nonce counts it. -/
structure LinkReader.Follows (sent : List Frame) (r : LinkReader) : Prop where
  front : r.frames.map Frame.triple <+: sent.map Frame.triple
  counted : r.failed = none → r.decoder.nonce = r.frames.length

/-- Everything one call of the decoder can be. -/
inductive Decodes (transport : Transport) (d : NoiseDecoder) (src : Bytes) :
    (NoiseDecoder × Bytes) × Result (Option Bytes) → Prop
  | waits : Decodes transport d src ((d, src), .ok none)
  | fails (rest error) : Decodes transport d src ((d, rest), .error error)
  | opens (plain) (enough : 2 + ofBe (src.take 2) ≤ src.length)
    (opened : transport.readMessage d.nonce ((src.drop 2).take (ofBe (src.take 2))) = .ok plain) :
    Decodes transport d src
      ((⟨(d.nonce + 1) % 2 ^ 64⟩, src.drop (2 + ofBe (src.take 2))), .ok (some plain))

theorem decode_decodes (transport : Transport) (d : NoiseDecoder) (src : Bytes) :
    Decodes transport d src (d.decode transport src) := by
  unfold NoiseDecoder.decode
  split
  · exact .waits
  · dsimp only
    split
    · exact .fails _ _
    · split
      · exact .waits
      · rename_i enough
        split
        · exact .fails _ _
        · rename_i plain opened
          exact .opens plain (Nat.le_of_not_lt enough) opened

/-- Whatever the bytes, the next frame to come out is the next that went in. -/
theorem LinkReader.Follows.next {r r' : LinkReader} (follows : r.Follows sent)
    (ideal : transport.Ideal (sent.map Frame.encode)) (few : sent.length < 2 ^ 64)
    (stepped : r.next transport = some r') : r'.Follows sent := by
  unfold LinkReader.next at stepped
  obtain ⟨running, stepped⟩ := Option.ite_none_left_eq_some.mp stepped
  have going : r.failed = none := by simpa using running
  have counted := follows.counted going
  have decodes := decode_decodes transport r.decoder r.buffer
  split at stepped
  · cases stepped
  · cases stepped
    exact ⟨follows.front, by simp⟩
  · rename_i decoder buffer plain decoded
    rw [decoded] at decodes
    cases decodes with
    | opens _ enough opened =>
      obtain ⟨member, -⟩ := (ideal _ _ _).mp opened
      rw [List.getElem?_map, Option.map_eq_some_iff] at member
      obtain ⟨frame, there, rfl⟩ := member
      rw [Frame.parse_encode_eq] at stepped
      cases stepped
      rw [counted] at there
      have within : r.frames.length < sent.length := (List.getElem?_eq_some_iff.mp there).1
      refine ⟨?_, fun _ => ?_⟩
      · have front := follows.front
        rw [List.prefix_iff_eq_take, List.length_map] at front
        have more : (sent.map Frame.triple).take (r.frames.length + 1) =
            r.frames.map Frame.triple ++ [frame.triple] := by
          rw [List.take_add_one, ← front, List.getElem?_map, there]
          rfl
        have same : (r.frames ++ [(⟨frame.id, .ofByte frame.kind.toByte, frame.payload⟩ : Frame)]).map
            Frame.triple = r.frames.map Frame.triple ++ [frame.triple] := by
          simp [Frame.triple]
        rw [same, ← more]
        exact List.take_prefix _ _
      · simp only [List.length_append, List.length_singleton]
        rw [counted, Nat.mod_eq_of_lt (by omega)]

theorem LinkReader.Follows.drain {r : LinkReader} (follows : r.Follows sent)
    (ideal : transport.Ideal (sent.map Frame.encode)) (few : sent.length < 2 ^ 64) (fuel : Nat) :
    (r.drain transport fuel).Follows sent := by
  induction fuel generalizing r with
  | zero => exact follows
  | succ fuel ih =>
    unfold LinkReader.drain
    split
    · exact follows
    · rename_i r' stepped
      exact ih (follows.next ideal few stepped)

/-- Adversary or not, a connection yields a front part of what was sent. -/
theorem receive_follows (ideal : transport.Ideal (sent.map Frame.encode)) (few : sent.length < 2 ^ 64)
    (reads : List Bytes) : (LinkReader.receive transport reads).Follows sent := by
  have fold {r : LinkReader} (follows : r.Follows sent) :
      (reads.foldl (LinkReader.arrive transport) r).Follows sent := by
    induction reads generalizing r with
    | nil => exact follows
    | cons bytes rest ih =>
      have extended : ({ r with buffer := r.buffer ++ bytes } : LinkReader).Follows sent :=
        ⟨follows.front, follows.counted⟩
      exact ih (extended.drain ideal few _)
  exact fold ⟨List.nil_prefix, fun _ => rfl⟩

/-- A frame as the header parse gives it back. -/
def Frame.readBack (frame : Frame) : Frame := ⟨frame.id, .ofByte frame.kind.toByte, frame.payload⟩

@[simp] theorem Frame.readBack_triple (frame : Frame) : frame.readBack.triple = frame.triple := by
  simp [Frame.readBack, Frame.triple]

/-- Nothing has gone wrong yet: what came out is the front of what was sent, and
what is buffered, with what is still on the way, is the records of the rest. -/
structure LinkReader.Intact (transport : Transport) (sent : List Frame) (rest : Bytes)
    (r : LinkReader) : Prop where
  running : r.failed = none
  counted : r.decoder.nonce = r.frames.length % 2 ^ 64
  front : r.frames = (sent.take r.frames.length).map Frame.readBack
  bytes : r.buffer ++ rest = records transport (r.frames.length % 2 ^ 64) (sent.drop r.frames.length)

/-- What was sealed at a nonce opens at that nonce. -/
def Transport.Opens (transport : Transport) (sent : List Frame) : Prop :=
  ∀ index frame, sent[index]? = some frame →
    transport.readMessage (index % 2 ^ 64) (transport.writeMessage (index % 2 ^ 64) frame.encode) =
      .ok frame.encode

theorem Transport.Ideal.opens (ideal : transport.Ideal (sent.map Frame.encode))
    (few : sent.length < 2 ^ 64) : transport.Opens sent := by
  intro index frame there
  have within : index < sent.length := (List.getElem?_eq_some_iff.mp there).1
  rw [Nat.mod_eq_of_lt (by omega)]
  refine (ideal _ _ _).mpr ⟨?_, rfl⟩
  rw [List.getElem?_map, there]
  rfl

/-- The decoder waits for the whole of a record. -/
theorem decode_waits {d : NoiseDecoder} {nonce : Nat} {src rest more : Bytes} (fits : frame.Sealable)
    (bytes : src ++ rest = record transport nonce frame ++ more)
    (short : src.length < (record transport nonce frame).length) :
    d.decode transport src = ((d, src), .ok none) := by
  unfold NoiseDecoder.decode
  split
  · rfl
  · rename_i enough
    have head : src.take 2 = toBe 2 (frame.encode.length + tagLen) := by
      have whole : (src ++ rest).take 2 = src.take 2 := List.take_append_of_le_length (by omega)
      rw [← whole, bytes, record, List.append_assoc, List.take_left' (toBe_length 2 _)]
    have size := fits.lengths.2
    rw [record_length] at short
    rw [head, size, if_neg (by omega), if_pos short]

/-- And then takes it, and nothing behind it. -/
theorem decode_opens {d : NoiseDecoder} {src : Bytes} (fits : frame.Sealable)
    (opens : transport.readMessage d.nonce (transport.writeMessage d.nonce frame.encode) =
      .ok frame.encode) :
    d.decode transport (record transport d.nonce frame ++ src) =
      ((⟨(d.nonce + 1) % 2 ^ 64⟩, src), .ok (some frame.encode)) := by
  have length := record_length transport d.nonce frame
  have head : (record transport d.nonce frame ++ src).take 2 =
      toBe 2 (frame.encode.length + tagLen) := by
    rw [record, List.append_assoc, List.take_left' (toBe_length 2 _)]
  have box : ((record transport d.nonce frame ++ src).drop 2).take (frame.encode.length + tagLen) =
      transport.writeMessage d.nonce frame.encode := by
    rw [record, List.append_assoc, List.drop_left' (toBe_length 2 _),
      List.take_left' (transport.tagged _ _)]
  have tail : (record transport d.nonce frame ++ src).drop (2 + (frame.encode.length + tagLen)) =
      src := List.drop_left' length
  have enough : ¬ (record transport d.nonce frame ++ src).length < 2 := by
    rw [List.length_append, length]
    omega
  have whole : ¬ (record transport d.nonce frame ++ src).length <
      2 + (frame.encode.length + tagLen) := by
    rw [List.length_append, length]
    omega
  unfold NoiseDecoder.decode
  rw [if_neg enough, head]
  dsimp only
  rw [fits.lengths.2, if_neg (by omega), if_neg whole, box, tail, opens]

/-- One more call, while nothing has gone wrong: it waits, with no whole record
buffered, or the next frame comes out and the buffer has shrunk. -/
theorem LinkReader.Intact.next {r : LinkReader} {rest : Bytes} (intact : r.Intact transport sent rest)
    (fit : ∀ frame ∈ sent, frame.Sealable) (opens : transport.Opens sent) :
    (r.next transport = none ∧ (rest = [] → r.frames.length = sent.length)) ∨
      ∃ r', r.next transport = some r' ∧ r'.Intact transport sent rest ∧
        r'.buffer.length < r.buffer.length := by
  have idle (waits : r.decoder.decode transport r.buffer = ((r.decoder, r.buffer), .ok none)) :
      r.next transport = none := by
    simp [LinkReader.next, intact.running, waits]
  have most : r.frames.length ≤ sent.length := by
    have lengths := congrArg List.length intact.front
    simp only [List.length_map, List.length_take] at lengths
    omega
  have bytes := intact.bytes
  cases shape : sent.drop r.frames.length with
  | nil =>
    rw [shape, records, List.append_eq_nil_iff] at bytes
    refine .inl ⟨idle ?_, fun _ => ?_⟩
    · rw [bytes.1]
      rfl
    · have none_left : sent.length ≤ r.frames.length := List.drop_eq_nil_iff.mp shape
      omega
  | cons frame waiting =>
    have there : sent[r.frames.length]? = some frame := by
      rw [← List.head?_drop, shape]
      rfl
    have fits := fit frame (List.mem_of_getElem? there)
    have within : r.frames.length < sent.length := (List.getElem?_eq_some_iff.mp there).1
    rw [shape, records] at bytes
    by_cases short : r.buffer.length < (record transport (r.frames.length % 2 ^ 64) frame).length
    · refine .inl ⟨idle (decode_waits fits bytes short), fun arrived => ?_⟩
      rw [arrived, List.append_nil] at bytes
      rw [bytes, List.length_append] at short
      omega
    · obtain ⟨behind, split, tail⟩ : ∃ behind,
          r.buffer = record transport (r.frames.length % 2 ^ 64) frame ++ behind ∧
            behind ++ rest = records transport ((r.frames.length + 1) % 2 ^ 64) waiting := by
        have front : record transport (r.frames.length % 2 ^ 64) frame <+: r.buffer := by
          have whole := List.prefix_append (record transport (r.frames.length % 2 ^ 64) frame)
            (records transport ((r.frames.length % 2 ^ 64 + 1) % 2 ^ 64) waiting)
          rw [← bytes] at whole
          exact List.prefix_of_prefix_length_le whole (List.prefix_append _ _)
            (Nat.le_of_not_lt short)
        obtain ⟨behind, split⟩ := front
        refine ⟨behind, split.symm, ?_⟩
        rw [← split, List.append_assoc, Nat.mod_add_mod] at bytes
        exact List.append_cancel_left bytes
      have unsealed : transport.readMessage r.decoder.nonce
          (transport.writeMessage r.decoder.nonce frame.encode) = .ok frame.encode := by
        rw [intact.counted]
        exact opens r.frames.length frame there
      have decoded : r.decoder.decode transport r.buffer =
          ((⟨(r.frames.length + 1) % 2 ^ 64⟩, behind), .ok (some frame.encode)) := by
        rw [split, ← intact.counted, decode_opens fits unsealed, intact.counted, Nat.mod_add_mod]
      refine .inr ⟨{ r with
        decoder := ⟨(r.frames.length + 1) % 2 ^ 64⟩
        buffer := behind
        frames := r.frames ++ [⟨frame.id, .ofByte frame.kind.toByte, frame.payload⟩] }, ?_, ?_, ?_⟩
      · simp [LinkReader.next, intact.running, decoded, Frame.parse_encode_eq]
      · refine ⟨intact.running, ?_, ?_, ?_⟩
        · simp
        · dsimp only
          rw [List.length_append, List.length_singleton, List.take_add_one, there, List.map_append,
            ← intact.front]
          rfl
        · simp only [List.length_append, List.length_singleton]
          rw [tail, ← List.drop_drop, shape]
          rfl
      · rw [split, List.length_append, record_length]
        dsimp only
        omega

/-- A reader with as many calls as it has bytes ends up waiting. -/
theorem LinkReader.Intact.drain {r : LinkReader} {rest : Bytes}
    (intact : r.Intact transport sent rest) (fit : ∀ frame ∈ sent, frame.Sealable)
    (opens : transport.Opens sent) (fuel : Nat)
    (enough : r.buffer.length < fuel) :
    (r.drain transport fuel).Intact transport sent rest ∧
      (rest = [] → (r.drain transport fuel).frames.length = sent.length) := by
  induction fuel generalizing r with
  | zero => omega
  | succ fuel ih =>
    rw [LinkReader.drain]
    obtain ⟨waits, whole⟩ | ⟨r', stepped, kept, shorter⟩ := intact.next fit opens
    · rw [waits]
      exact ⟨intact, whole⟩
    · rw [stepped]
      exact ih kept (by omega)

/-- Bytes that arrive as they were sent, in whatever pieces: the reader waits for
the rest. -/
theorem receive_intact (fit : ∀ frame ∈ sent, frame.Sealable) (opens : transport.Opens sent)
    (reads : List Bytes) (rest : Bytes) (sends : reads.flatten ++ rest = records transport 0 sent) :
    (LinkReader.receive transport reads).Intact transport sent rest ∧
      (rest = [] → (LinkReader.receive transport reads).frames.length = sent.length) := by
  have fold {r : LinkReader} (intact : r.Intact transport sent (reads.flatten ++ rest))
      (waits : reads.flatten ++ rest = [] → r.frames.length = sent.length) :
      (reads.foldl (LinkReader.arrive transport) r).Intact transport sent rest ∧
        (rest = [] → (reads.foldl (LinkReader.arrive transport) r).frames.length = sent.length) := by
    clear sends
    induction reads generalizing r with
    | nil => exact ⟨intact, waits⟩
    | cons bytes reads ih =>
      have extended : ({ r with buffer := r.buffer ++ bytes } : LinkReader).Intact transport sent
          (reads.flatten ++ rest) := by
        refine ⟨intact.running, intact.counted, intact.front, ?_⟩
        rw [List.append_assoc, ← List.append_assoc bytes]
        exact intact.bytes
      have drained := extended.drain fit opens (r.buffer.length + bytes.length + 1) (by simp)
      exact ih drained.1 drained.2
  refine fold ⟨rfl, rfl, rfl, sends⟩ fun none => ?_
  cases sent with
  | nil => rfl
  | cons frame later =>
    rw [none, records, record] at sends
    have lengths := congrArg List.length sends
    simp only [List.length_nil, List.length_append, toBe_length] at lengths
    omega

theorem records_append (nonce : Nat) (low : nonce < 2 ^ 64) (front back : List Frame) :
    records transport nonce (front ++ back) =
      records transport nonce front ++ records transport ((nonce + front.length) % 2 ^ 64) back := by
  induction front generalizing nonce with
  | nil =>
    rw [List.length_nil, Nat.add_zero, Nat.mod_eq_of_lt low]
    rfl
  | cons frame rest ih =>
    rw [List.cons_append, records, records, ih _ (Nat.mod_lt _ (by decide)), List.append_assoc,
      List.length_cons, Nat.mod_add_mod, Nat.add_right_comm, Nat.add_assoc]

/-- The link's codec. Over an ideal cipher, whatever an adversary makes of the
records and however the bytes are cut, what is read before the first error is a
front part of what was encoded; unmodified bytes give all of it, with no error.
The `i`-th record is sealed at nonce `i`, a frame that is too large changes
neither the buffer nor the nonce, and no accepted frame overflows a length. -/
theorem codec_is_faithful (fit : ∀ frame ∈ sent, frame.Sealable) (few : sent.length < 2 ^ 64 - 1)
    (ideal : transport.Ideal (sent.map Frame.encode)) :
    (∀ reads, (LinkReader.receive transport reads).frames.map Frame.triple <+:
      sent.map Frame.triple) ∧
    (∀ reads, reads.flatten = (NoiseEncoder.encodeAll transport sent ({}, [])).2 →
      (LinkReader.receive transport reads).frames.map Frame.triple = sent.map Frame.triple ∧
        (LinkReader.receive transport reads).failed = none) ∧
    (∀ i frame, sent[i]? = some frame →
      (NoiseEncoder.encodeAll transport (sent.take (i + 1)) ({}, [])).2 =
        (NoiseEncoder.encodeAll transport (sent.take i) ({}, [])).2 ++
          (toBe 2 (frame.encode.length + tagLen) ++ transport.writeMessage i frame.encode)) ∧
    (∀ (frame : Frame) (e : NoiseEncoder) (dst : Bytes), ¬ frame.Sealable →
      (e.encode transport frame dst).2 = .error (bad "noise message too large") ∧
        (e.encode transport frame dst).1.1.nonce = e.nonce ∧
        (e.encode transport frame dst).1.2 = dst) ∧
    (∀ (frame : Frame) (e : NoiseEncoder) (dst : Bytes),
      (e.encode transport frame dst).2 = .ok () →
        ofBe (toBe 2 frame.payload.length) = frame.payload.length ∧
          ofBe (toBe 2 (frame.encode.length + tagLen)) = frame.encode.length + tagLen) := by
  have encoded (count : Nat) : (NoiseEncoder.encodeAll transport (sent.take count) ({}, [])).2 =
      records transport 0 (sent.take count) := by
    exact encodeAll_eq (fun frame member => fit frame (List.mem_of_mem_take member)) _ _
  refine ⟨fun reads => ?_, fun reads whole => ?_, fun i frame there => ?_, fun frame e dst large => ?_,
    fun frame e dst accepted => ?_⟩
  · exact (receive_follows ideal (by omega) reads).front
  · have all := encoded sent.length
    rw [List.take_length] at all
    obtain ⟨intact, count⟩ := receive_intact fit (ideal.opens (by omega)) reads []
      (by rw [List.append_nil, whole, all])
    refine ⟨?_, intact.running⟩
    rw [intact.front, count rfl, List.take_length, List.map_map]
    exact List.map_congr_left fun frame _ => frame.readBack_triple
  · have within : i < sent.length := (List.getElem?_eq_some_iff.mp there).1
    have position : (sent.take i).length = i := List.length_take_of_le (by omega)
    rw [encoded, encoded, List.take_add_one, there, records_append 0 (by decide), position, Nat.zero_add,
      Nat.mod_eq_of_lt (by omega)]
    simp [records, record]
  · rw [encode_rejects large]
    exact ⟨rfl, rfl, rfl⟩
  · by_cases fits : frame.Sealable
    · exact fits.lengths
    · rw [encode_rejects fits] at accepted
      cases accepted

/-- The ideal cipher for a given sequence of sealed plaintexts: a box is the
plaintext and, for its tag, the nonce. -/
def Transport.recorded (sealed : List Bytes) : Transport where
  writeMessage nonce plain := plain ++ toBe tagLen nonce
  readMessage nonce box :=
    match sealed[nonce]? with
    | none => .error "decrypt error"
    | some plain => if box = plain ++ toBe tagLen nonce then .ok plain else .error "decrypt error"
  tagged nonce plain := by simp

theorem Transport.recorded_ideal (sealed : List Bytes) : (recorded sealed).Ideal sealed := by
  intro nonce box plain
  simp only [recorded]
  cases shape : sealed[nonce]? with
  | none => simp
  | some given =>
    dsimp only
    by_cases same : box = given ++ toBe tagLen nonce
    · rw [if_pos same]
      constructor
      · intro opened
        cases opened
        exact ⟨rfl, same⟩
      · rintro ⟨found, -⟩
        cases found
        rfl
    · rw [if_neg same]
      constructor
      · intro opened
        cases opened
      · rintro ⟨found, made⟩
        cases found
        exact absurd made same

/-- One stream opened and spoken on, with the bytes read one at a time. -/
theorem codec_is_faithful_bytewise :
    let sent : List Frame := [⟨7, .opening, []⟩, ⟨7, .data, [1, 2, 3]⟩]
    let transport := Transport.recorded (sent.map Frame.encode)
    let reads := (NoiseEncoder.encodeAll transport sent ({}, [])).2.map fun byte => [byte]
    (LinkReader.receive transport reads).frames.map Frame.triple = sent.map Frame.triple := by
  intro sent transport reads
  refine ((codec_is_faithful (by decide) (by decide) (Transport.recorded_ideal _)).2.1 reads ?_).1
  exact (List.flatMap_def ..).symm.trans (List.flatMap_singleton' _)

end DshProxy.Mux

import DshProxy.Transitions
import DshProxy.WsStream
import Mathlib.Logic.Relation

/-! Reassembly: whatever the socket does to the client's bytes, the reader gets
the payloads of the data frames, in order. The reference reads a whole byte
sequence at once, field by field as RFC 6455 lays a frame out; it knows nothing
of buffers, polls or partial input. -/
namespace DshProxy.Ws
open Transitions

/-- What stands at the front of a complete byte sequence: the bytes end inside
a frame, a frame no server accepts, or one frame and the bytes behind it. -/
inductive Next
  | cut
  | malformed
  | frame (opcode : UInt8) (payload rest : Bytes)
  deriving DecidableEq, Repr

/-- Exclusive or with a masking key that starts over when it is used up. -/
def keyed : Bytes → Bytes → Bytes
  | key :: keys, byte :: bytes => (byte ^^^ key) :: keyed (keys ++ [key]) bytes
  | _, _ => []

/-- The 7-bit length, or the 16-bit or 64-bit number that replaces it. -/
def lengthField (short : Nat) (bytes : Bytes) : Option (Nat × Bytes) :=
  match short, bytes with
  | 126, b0 :: b1 :: rest => some (ByteOrder.ofBe [b0, b1], rest)
  | 126, _ => none
  | 127, b0 :: b1 :: b2 :: b3 :: b4 :: b5 :: b6 :: b7 :: rest =>
    some (ByteOrder.ofBe [b0, b1, b2, b3, b4, b5, b6, b7], rest)
  | 127, _ => none
  | _, rest => some (short, rest)

/-- The opcodes RFC 6455 defines. -/
def known (opcode : UInt8) : Bool :=
  opcode ∈ [opContinuation, opText, opBinary, opClose, opPing, opPong]

/-- The opcodes that carry stream bytes. -/
def carries (opcode : UInt8) : Bool := opcode ∈ [opContinuation, opText, opBinary]

/-- The first frame of a byte sequence. A frame is judged on the part of it
that is there: a control frame on its first two bytes, the declared length and
the mask bit once the length field is complete, the opcode once the frame is. -/
def nextFrame : Bytes → Next
  | b0 :: b1 :: rest =>
    if b0 &&& 0x08 ≠ 0 ∧ (b0 &&& 0x80 = 0 ∨ maxControl < (b1 &&& 0x7f).toNat) then .malformed
    else
      match lengthField (b1 &&& 0x7f).toNat rest with
      | none => .cut
      | some (length, rest) =>
        if maxFrame < length ∨ b1 &&& 0x80 = 0 then .malformed
        else
          match rest with
          | k0 :: k1 :: k2 :: k3 :: body =>
            if body.length < length then .cut
            else if known (b0 &&& 0x0f) then
              .frame (b0 &&& 0x0f) (keyed [k0, k1, k2, k3] (body.take length)) (body.drop length)
            else .malformed
          | _ => .cut
  | _ => .cut

private theorem unmask_keyed (k0 k1 k2 k3 : UInt8) (payload : Bytes) :
    unmask [k0, k1, k2, k3] payload = keyed [k0, k1, k2, k3] payload := by
  induction payload generalizing k0 k1 k2 k3 with
  | nil => rfl
  | cons byte bytes ih =>
    have turned : ∀ index : Nat, [k0, k1, k2, k3].getD ((index + 1) % 4) 0 =
        [k1, k2, k3, k0].getD (index % 4) 0 := by
      intro index
      have position : index % 4 = 0 ∨ index % 4 = 1 ∨ index % 4 = 2 ∨ index % 4 = 3 := by omega
      rcases position with at0 | at1 | at2 | at3
      · simp [show (index + 1) % 4 = 1 by omega, at0]
      · simp [show (index + 1) % 4 = 2 by omega, at1]
      · simp [show (index + 1) % 4 = 3 by omega, at2]
      · simp [show (index + 1) % 4 = 0 by omega, at3]
    have tail := ih k1 k2 k3 k0
    simp only [unmask] at tail ⊢
    rw [List.mapIdx_cons]
    simp only [turned, tail]
    rfl

/-- Reading the length by position is reading it by pattern. -/
private theorem declaredLength_lengthField (b0 b1 : UInt8) (rest : Bytes) (short : Nat) :
    (declaredLength (b0 :: b1 :: rest) short = none ∧ lengthField short rest = none) ∨
    ∃ length offset tail, declaredLength (b0 :: b1 :: rest) short = some (length, offset) ∧
      lengthField short rest = some (length, tail) ∧
      (b0 :: b1 :: rest).drop offset = tail ∧ rest.length + 2 = offset + tail.length := by
  by_cases two : short = 126
  · subst two
    match rest with
    | [] | [_] => exact .inl ⟨by simp [declaredLength], rfl⟩
    | c0 :: c1 :: tail =>
      exact .inr ⟨_, 4, tail, by simp [declaredLength], rfl, rfl, by simp; omega⟩
  · by_cases eight : short = 127
    · subst eight
      match rest with
      | [] | [_] | [_, _] | [_, _, _] | [_, _, _, _] | [_, _, _, _, _] | [_, _, _, _, _, _]
      | [_, _, _, _, _, _, _] => exact .inl ⟨by simp [declaredLength], rfl⟩
      | c0 :: c1 :: c2 :: c3 :: c4 :: c5 :: c6 :: c7 :: tail =>
        exact .inr ⟨_, 10, tail, by simp [declaredLength], rfl, rfl, by simp; omega⟩
    · refine .inr ⟨short, 2, rest, by simp [declaredLength, two, eight], ?_, rfl, by omega⟩
      unfold lengthField
      split <;> simp_all

/-- What the reference makes of a verdict of `scan`. -/
def Scan.verdict : Scan → Next
  | .partly => .cut
  | .refused _ => .malformed
  | .whole opcode payload rest => if known opcode then .frame opcode payload rest else .malformed

/-- The checks of `decode`, made by position on the buffer, are those of the
reference, made by pattern on the whole sequence. -/
theorem nextFrame_scan (bytes : Bytes) : nextFrame bytes = (scan bytes).verdict := by
  match bytes with
  | [] | [_] => rfl
  | b0 :: b1 :: rest =>
    have control : b0 &&& 0x0f &&& 0x08 = b0 &&& 0x08 := by
      rw [UInt8.and_assoc]
      rfl
    unfold nextFrame scan
    dsimp only
    rw [control]
    by_cases lying : b0 &&& 0x08 ≠ 0 ∧ (b0 &&& 0x80 = 0 ∨ maxControl < (b1 &&& 0x7f).toNat)
    · rw [if_pos lying, if_pos (by simpa using lying)]
      rfl
    · rw [if_neg lying, if_neg (by simpa using lying)]
      obtain ⟨absent, absent'⟩ | ⟨length, offset, tail, present, present', dropped, sizes⟩ :=
        declaredLength_lengthField b0 b1 rest (b1 &&& 0x7f).toNat
      · rw [absent, absent']
        rfl
      · rw [present, present']
        dsimp only
        by_cases large : maxFrame < length
        · simp [large, Scan.verdict]
        · by_cases clear : b1 &&& 0x80 = 0
          · simp [large, clear, Scan.verdict]
          · rw [if_neg (by simp [large, clear]), if_neg large, if_neg (by simp [clear])]
            have total : (b0 :: b1 :: rest).length = offset + tail.length := by
              simp only [List.length_cons]; omega
            match tail with
            | [] | [_] | [_, _] | [_, _, _] =>
              rw [if_pos (by rw [total]; simp)]
              rfl
            | k0 :: k1 :: k2 :: k3 :: body =>
              have behind : (b0 :: b1 :: rest).drop (offset + 4) = body := by
                rw [← List.drop_drop, dropped]
                rfl
              have last : (b0 :: b1 :: rest).drop (offset + 4 + length) = body.drop length := by
                rw [← List.drop_drop, behind]
              rw [if_neg (by rw [total]; simp)]
              dsimp only
              by_cases short : body.length < length
              · rw [if_pos short, if_pos (by rw [total]; simp; omega)]
                rfl
              · have long : ¬ (b0 :: b1 :: rest).length < offset + 4 + length := by
                  rw [total]; simp; omega
                rw [if_neg short, if_neg long, behind, dropped, last]
                simp only [Scan.verdict, List.take_succ_cons, List.take_zero, unmask_keyed]

private theorem lengthField_append (present : lengthField short bytes = some (length, tail)) :
    lengthField short (bytes ++ more) = some (length, tail ++ more) := by
  unfold lengthField at present
  split at present <;> simp_all [lengthField]

/-- More bytes behind it change nothing about a frame that is there. -/
theorem nextFrame_append_frame (more : Bytes)
    (found : nextFrame bytes = .frame opcode payload rest) :
    nextFrame (bytes ++ more) = .frame opcode payload (rest ++ more) := by
  match bytes with
  | [] | [_] => cases found
  | b0 :: b1 :: tail =>
    simp only [nextFrame, List.cons_append] at found ⊢
    split at found
    · cases found
    · rename_i honest
      rw [if_neg honest]
      cases present : lengthField (b1 &&& 0x7f).toNat tail with
      | none => simp only [present, reduceCtorEq] at found
      | some field =>
        obtain ⟨length, behind⟩ := field
        simp only [present, lengthField_append present] at found ⊢
        split at found
        · cases found
        · rename_i fits
          rw [if_neg fits]
          match behind with
          | [] | [_] | [_, _] | [_, _, _] => cases found
          | k0 :: k1 :: k2 :: k3 :: body =>
            simp only [List.cons_append] at found ⊢
            split at found
            · cases found
            · rename_i enough
              rw [if_neg (by simp only [List.length_append]; omega)]
              split at found
              · cases found
                rw [if_pos ‹_›, List.take_append_of_le_length (by omega),
                  List.drop_append_of_le_length (by omega)]
              · cases found

/-- Nor about one that no server accepts. -/
theorem nextFrame_append_malformed (more : Bytes) (found : nextFrame bytes = .malformed) :
    nextFrame (bytes ++ more) = .malformed := by
  match bytes with
  | [] | [_] => cases found
  | b0 :: b1 :: tail =>
    simp only [nextFrame, List.cons_append] at found ⊢
    split at found
    · rw [if_pos ‹_›]
    · rename_i honest
      rw [if_neg honest]
      cases present : lengthField (b1 &&& 0x7f).toNat tail with
      | none => simp only [present, reduceCtorEq] at found
      | some field =>
        obtain ⟨length, behind⟩ := field
        simp only [present, lengthField_append present] at found ⊢
        split at found
        · rw [if_pos ‹_›]
        · rename_i fits
          rw [if_neg fits]
          match behind with
          | [] | [_] | [_, _] | [_, _, _] => cases found
          | k0 :: k1 :: k2 :: k3 :: body =>
            simp only [List.cons_append] at found ⊢
            split at found
            · cases found
            · rename_i enough
              rw [if_neg (by simp only [List.length_append]; omega)]
              split at found
              · cases found
              · rw [if_neg ‹_›]

theorem nextFrame_shrinks (found : nextFrame bytes = .frame opcode payload rest) :
    rest.length < bytes.length := by
  rw [nextFrame_scan] at found
  cases scanned : scan bytes with
  | partly => simp [scanned, Scan.verdict] at found
  | refused error => simp [scanned, Scan.verdict] at found
  | whole op body behind =>
    simp only [scanned, Scan.verdict] at found
    split at found
    · cases found
      exact scan_shrinks scanned
    · cases found

/-- One frame as the reference reads it. -/
structure ClientFrame where
  opcode : UInt8
  payload : Bytes
  deriving DecidableEq, Repr

/-- The reference parse of a whole client byte sequence: its frames up to the
first malformed one, and whether there is a malformed one. -/
def frames (bytes : Bytes) : List ClientFrame × Bool :=
  match _found : nextFrame bytes with
  | .cut => ([], false)
  | .malformed => ([], true)
  | .frame opcode payload rest => (⟨opcode, payload⟩ :: (frames rest).1, (frames rest).2)
termination_by bytes.length
decreasing_by all_goals exact nextFrame_shrinks _found

/-- The stream bytes a list of frames carries. -/
def dataOf (fs : List ClientFrame) : Bytes :=
  ((fs.filter fun f => carries f.opcode).map ClientFrame.payload).flatten

/-- The stream bytes of a client byte sequence. -/
def dataBytes (bytes : Bytes) : Bytes := dataOf (frames bytes).1

/-- Whether reading the sequence runs into a malformed frame. -/
def Malformed (bytes : Bytes) : Prop := (frames bytes).2 = true

/-- Some frame before the first malformed one is a Close. -/
def HasClose (bytes : Bytes) : Prop := ∃ f ∈ (frames bytes).1, f.opcode = opClose

instance (bytes : Bytes) : Decidable (HasClose bytes) :=
  inferInstanceAs (Decidable (∃ f ∈ (frames bytes).1, f.opcode = opClose))

instance (bytes : Bytes) : Decidable (Malformed bytes) :=
  inferInstanceAs (Decidable ((frames bytes).2 = true))

theorem frames_cut (found : nextFrame bytes = .cut) : frames bytes = ([], false) := by
  rw [frames]
  split <;> simp_all

theorem frames_malformed (found : nextFrame bytes = .malformed) : frames bytes = ([], true) := by
  rw [frames]
  split <;> simp_all

theorem frames_frame (found : nextFrame bytes = .frame opcode payload rest) :
    frames bytes = (⟨opcode, payload⟩ :: (frames rest).1, (frames rest).2) := by
  rw [frames]
  split <;> simp_all

@[simp] theorem dataOf_nil : dataOf [] = [] := rfl

@[simp] theorem dataOf_append (fs gs : List ClientFrame) :
    dataOf (fs ++ gs) = dataOf fs ++ dataOf gs := by
  simp [dataOf]

theorem dataOf_single (f : ClientFrame) :
    dataOf [f] = if carries f.opcode then f.payload else [] := by
  by_cases data : carries f.opcode <;> simp [dataOf, data]

/-- The bytes of the answers a socket holds, in order. -/
def arrivals (reads : List ReadAnswer) : Bytes :=
  (reads.map fun
    | .data bytes => bytes
    | .fail _ => []).flatten

/-- Every client byte that has arrived and is not decoded yet. -/
def WsStream.undecoded (s : WsStream) : Bytes := s.incoming ++ arrivals s.inner.reads

/-- The socket has only non-empty reads in hand, no errors. -/
def Healthy (reads : List ReadAnswer) : Prop :=
  ∀ answer ∈ reads, ∃ byte bytes, answer = .data (byte :: bytes)

/-- From `s` to `t` exactly the frames `gs` were decoded, whatever arrives
later. -/
structure Consumed (s t : WsStream) (gs : List ClientFrame) : Prop where
  frames : ∀ future, frames (s.undecoded ++ future) =
    (gs ++ (frames (t.undecoded ++ future)).1, (frames (t.undecoded ++ future)).2)
  closed : t.closed = true ↔ s.closed = true ∨ ∃ f ∈ gs, f.opcode = opClose

theorem Consumed.refl (incoming : t.incoming = s.incoming) (reads : t.inner.reads = s.inner.reads)
    (closed : t.closed = s.closed) : Consumed s t [] := by
  constructor <;> simp [WsStream.undecoded, incoming, reads, closed]

theorem Consumed.trans (first : Consumed s t gs) (second : Consumed t u hs) :
    Consumed s u (gs ++ hs) := by
  constructor
  · intro future
    rw [first.frames future, second.frames future]
    simp
  · rw [second.closed, first.closed]
    simp only [List.mem_append, or_and_right, exists_or, or_assoc]

/-- A decoded frame is the reference's next one, and its payload joins `plain`
when it carries stream bytes. -/
theorem decode_frame {s t : WsStream} (decoded : s.decode = (t, .ok true)) :
    ∃ f : ClientFrame, nextFrame s.incoming = .frame f.opcode f.payload t.incoming ∧
      t.plain = s.plain ++ dataOf [f] ∧ (t.closed = true ↔ s.closed = true ∨ f.opcode = opClose) ∧
      t.inner = s.inner ∧
      t.outgoing = if f.opcode = opPing ∧ s.outgoing.length ≤ maxPongBacklog
        then s.outgoing ++ frameBytes opPong f.payload else s.outgoing := by
  obtain ⟨-, done⟩ | ⟨error, -, done⟩ | ⟨opcode, payload, rest, found, done⟩ := decode_cases s
  · simp [done] at decoded
  · simp [done] at decoded
  · have verdict (usable : known opcode = true) : nextFrame s.incoming = .frame opcode payload rest := by
      simp [nextFrame_scan, found, Scan.verdict, usable]
    refine ⟨⟨opcode, payload⟩, ?_⟩
    rw [dataOf_single]
    obtain ⟨data, done⟩ | ⟨rfl, done⟩ | ⟨rfl, done⟩ | ⟨rfl, done⟩ | ⟨-, done⟩ := done <;>
      rw [done] at decoded <;> cases decoded
    · have usable : known opcode = true ∧ carries opcode = true ∧ opcode ≠ opClose ∧
          opcode ≠ opPing := by
        rcases data with rfl | rfl | rfl <;> decide
      refine ⟨verdict usable.1, ?_, ?_, rfl, ?_⟩
      · simp [usable.2.1]
      · simp [usable.2.2.1]
      · simp [usable.2.2.2]
    · exact ⟨verdict (by decide), by simp [show carries opClose = false from rfl], by simp, rfl,
        by simp [show opClose ≠ opPing by decide]⟩
    · exact ⟨verdict (by decide), by simp [show carries opPing = false from rfl],
        by simp [show opPing ≠ opClose by decide], rfl, by simp⟩
    · exact ⟨verdict (by decide), by simp [show carries opPong = false from rfl],
        by simp [show opPong ≠ opClose by decide], rfl, by simp [show opPong ≠ opPing by decide]⟩

/-- A decoded frame leaves the undecoded bytes. -/
theorem decode_consumes {s t : WsStream} (decoded : s.decode = (t, .ok true)) :
    ∃ f, Consumed s t [f] ∧ t.plain = s.plain ++ dataOf [f] ∧ t.inner = s.inner ∧
      t.outgoing = if f.opcode = opPing ∧ s.outgoing.length ≤ maxPongBacklog
        then s.outgoing ++ frameBytes opPong f.payload else s.outgoing := by
  obtain ⟨f, found, plain, closed, inner, outgoing⟩ := decode_frame decoded
  refine ⟨f, ⟨fun future => ?_, by simpa using closed⟩, plain, inner, outgoing⟩
  have extended := nextFrame_append_frame (arrivals s.inner.reads ++ future) found
  simpa [WsStream.undecoded, inner] using frames_frame extended

theorem decode_inner {s t : WsStream} (decoded : s.decode = (t, result)) :
    t.inner = s.inner := by
  obtain ⟨-, done⟩ | ⟨_, -, done⟩ | ⟨opcode, payload, rest, -, done⟩ := decode_cases s
  · rw [done] at decoded
    cases decoded
    rfl
  · rw [done] at decoded
    cases decoded
    rfl
  · obtain ⟨-, done⟩ | ⟨-, done⟩ | ⟨-, done⟩ | ⟨-, done⟩ | ⟨-, done⟩ := done <;>
      rw [done] at decoded <;> cases decoded <;> rfl

/-- A refused frame is malformed for the reference too. -/
theorem decode_malformed {s t : WsStream} (decoded : s.decode = (t, .error error)) :
    nextFrame s.incoming = .malformed := by
  rw [nextFrame_scan]
  obtain ⟨-, done⟩ | ⟨error, found, done⟩ | ⟨opcode, payload, rest, found, done⟩ := decode_cases s
  · simp [done] at decoded
  · simp [found, Scan.verdict]
  · obtain ⟨-, done⟩ | ⟨-, done⟩ | ⟨-, done⟩ | ⟨-, done⟩ | ⟨unknown, done⟩ := done
    all_goals first
      | simp [done] at decoded; done
      | simp [found, Scan.verdict, known, unknown]

/-- It stays malformed whatever follows. -/
theorem decode_refuses {s t : WsStream} (decoded : s.decode = (t, .error error)) (future : Bytes) :
    frames (s.undecoded ++ future) = ([], true) := by
  have extended := nextFrame_append_malformed (arrivals s.inner.reads ++ future) (decode_malformed decoded)
  simpa [WsStream.undecoded] using frames_malformed extended

/-- `decode` waits exactly when the reference finds the bytes cut. -/
theorem decode_waits {s t : WsStream} (decoded : s.decode = (t, .ok false)) :
    t = s ∧ nextFrame s.incoming = .cut := by
  obtain ⟨found, done⟩ | ⟨error, found, done⟩ | ⟨opcode, payload, rest, found, done⟩ := decode_cases s
  · rw [done] at decoded
    cases decoded
    exact ⟨rfl, by simp [nextFrame_scan, found, Scan.verdict]⟩
  · simp [done] at decoded
  · simp [decoded] at done

/-- What one `poll_read` from `s` to `t` makes of the frames `gs` it decodes.
Bytes come back in order; nothing comes back without a reason: an error means a
malformed frame, no bytes mean a Close or that everything is used up. -/
def Outcome (room : Nat) (s t : WsStream) (gs : List ClientFrame) : Poll (Result Bytes) → Prop
  | .ready (.ok bytes) => Consumed s t gs ∧ s.plain ++ dataOf gs = bytes ++ t.plain ∧
      (bytes = [] → room = 0 ∨ t.closed = true ∨
        (t.plain = [] ∧ t.inner.eof = true ∧ t.inner.reads = [] ∧ nextFrame t.incoming = .cut))
  | .ready (.error _) => (∀ future, frames (s.undecoded ++ future) = (gs, true)) ∧
      s.plain ++ dataOf gs = []
  | .pending => Consumed s t gs ∧ s.plain ++ dataOf gs = [] ∧ t.plain = [] ∧
      t.inner.eof = false ∧ t.inner.reads = [] ∧ nextFrame t.incoming = .cut

private theorem Outcome.after (first : Consumed s mid fs) (plain : s.plain ++ dataOf fs = mid.plain)
    (rest : Outcome room mid t gs result) : Outcome room s t (fs ++ gs) result := by
  have joined : s.plain ++ dataOf (fs ++ gs) = mid.plain ++ dataOf gs := by
    rw [dataOf_append, ← List.append_assoc, plain]
  match result with
  | .ready (.ok bytes) => exact ⟨first.trans rest.1, joined.trans rest.2.1, rest.2.2⟩
  | .ready (.error _) =>
    refine ⟨fun future => ?_, joined.trans rest.2⟩
    rw [first.frames future, rest.1 future]
  | .pending => exact ⟨first.trans rest.1, joined.trans rest.2.1, rest.2.2⟩

theorem pollRead_outcome (cx : Half) (room : Nat) (s : WsStream) (healthy : Healthy s.inner.reads) :
    (∃ gs, Outcome room s (s.pollRead cx room).1 gs (s.pollRead cx room).2) ∧
      Healthy (s.pollRead cx room).1.inner.reads ∧
      (s.pollRead cx room).1.inner.eof = s.inner.eof := by
  fun_induction WsStream.pollRead cx room s with
  | case1 s waiting =>
    refine ⟨⟨[], Consumed.refl rfl rfl rfl, by simp, fun empty => .inl ?_⟩, healthy, rfl⟩
    have short := congrArg List.length empty
    have long := List.length_pos_iff.mpr waiting
    simp only [List.length_take, List.length_nil] at short
    omega
  | case2 s waiting t error decoded =>
    have empty : s.plain = [] := by simpa using waiting
    have inner := decode_inner decoded
    exact ⟨⟨[], decode_refuses decoded, by simp [empty]⟩, by rwa [inner], by rw [inner]⟩
  | case3 s waiting t decoded ih =>
    have empty : s.plain = [] := by simpa using waiting
    obtain ⟨f, consumed, plain, inner, -⟩ := decode_consumes decoded
    have pushed := drain_spec cx t
    have kept : Consumed t (t.drain cx).1 [] :=
      Consumed.refl pushed.incoming pushed.reads pushed.closed
    obtain ⟨⟨gs, outcome⟩, healthy', eof⟩ := ih (by rwa [pushed.reads, inner])
    refine ⟨⟨[f] ++ gs, outcome.after (by simpa using consumed.trans kept) ?_⟩, healthy', ?_⟩
    · rw [pushed.plain, plain]
    · rw [eof, pushed.eof, inner]
  | case4 s waiting t decoded closed =>
    have empty : s.plain = [] := by simpa using waiting
    obtain ⟨rfl, -⟩ := decode_waits decoded
    exact ⟨⟨[], Consumed.refl rfl rfl rfl, by simp [empty], fun _ => .inr (.inl closed)⟩, healthy, rfl⟩
  | case5 s waiting t decoded opened inner answer =>
    have empty : s.plain = [] := by simpa using waiting
    obtain ⟨rfl, cut⟩ := decode_waits decoded
    have ended : t.inner.reads = [] ∧ t.inner.eof = true ∧ inner = t.inner := by
      unfold Socket.pollRead at answer
      split at answer
      · rename_i bytes rest reads
        obtain ⟨byte, more, same⟩ := healthy (.data bytes) (by simp [reads])
        cases answer
        cases same
      · cases answer
      · split at answer <;> simp_all
    obtain ⟨reads, eof, rfl⟩ := ended
    exact ⟨⟨[], Consumed.refl rfl rfl rfl, by simp [empty],
      fun _ => .inr (.inr ⟨empty, eof, reads, cut⟩)⟩, healthy, rfl⟩
  | case6 s waiting t decoded opened inner byte bytes answer ih =>
    have empty : s.plain = [] := by simpa using waiting
    obtain ⟨rfl, -⟩ := decode_waits decoded
    obtain ⟨rest, reads, rfl⟩ := pollRead_backlog answer
    have moved : Consumed t { t with
        inner := { t.inner with reads := rest }, incoming := t.incoming ++ byte :: bytes } [] := by
      constructor <;> simp [WsStream.undecoded, reads, arrivals]
    obtain ⟨⟨gs, outcome⟩, healthy', eof⟩ := ih (fun a member => healthy a (by simp [reads, member]))
    exact ⟨⟨[] ++ gs, outcome.after moved (by simp)⟩, healthy', eof⟩
  | case7 s waiting t decoded opened inner error answer =>
    obtain ⟨rfl, -⟩ := decode_waits decoded
    unfold Socket.pollRead at answer
    split at answer
    · cases answer
    · rename_i failure rest reads
      obtain ⟨byte, more, same⟩ := healthy (.fail failure) (by simp [reads])
      cases same
    · split at answer <;> cases answer
  | case8 s waiting t decoded opened inner answer =>
    have empty : s.plain = [] := by simpa using waiting
    obtain ⟨rfl, cut⟩ := decode_waits decoded
    have quiet : t.inner.eof = false ∧ t.inner.reads = [] ∧ inner = t.inner := by
      unfold Socket.pollRead at answer
      split at answer
      · cases answer
      · cases answer
      · split at answer <;> simp_all
    obtain ⟨eof, reads, rfl⟩ := quiet
    exact ⟨⟨[], Consumed.refl rfl rfl rfl, by simp [empty], empty, eof, reads, cut⟩, healthy, rfl⟩

/-- A socket read that returns no bytes takes none. -/
private theorem socket_quiet {socket inner : Socket} (answer : socket.pollRead = (inner, result))
    (quiet : result = .ready (.ok []) ∨ result = .pending) :
    arrivals inner.reads = arrivals socket.reads := by
  unfold Socket.pollRead at answer
  split at answer
  · rename_i bytes rest reads
    cases answer
    obtain rfl : bytes = [] := by simpa using quiet
    simp [reads, arrivals]
  · cases answer
    simp at quiet
  · cases answer
    rfl

/-- The bytes a poll returns. -/
def polled : Poll (Result Bytes) → Bytes
  | .ready (.ok bytes) => bytes
  | .ready (.error _) | .pending => []

/-- Whatever the socket answers, a poll that does not fail returns bytes in
order. -/
theorem pollRead_keeps (cx : Half) (room : Nat) (s : WsStream)
    (fine : ∀ error, (s.pollRead cx room).2 ≠ .ready (.error error)) :
    ∃ gs, Consumed s (s.pollRead cx room).1 gs ∧
      s.plain ++ dataOf gs = polled (s.pollRead cx room).2 ++ (s.pollRead cx room).1.plain := by
  fun_induction WsStream.pollRead cx room s with
  | case1 s waiting => exact ⟨[], Consumed.refl rfl rfl rfl, by simp [polled]⟩
  | case2 s waiting t error decoded => exact absurd rfl (fine error)
  | case3 s waiting t decoded ih =>
    obtain ⟨f, consumed, plain, -, -⟩ := decode_consumes decoded
    have pushed := drain_spec cx t
    have kept : Consumed t (t.drain cx).1 [] :=
      Consumed.refl pushed.incoming pushed.reads pushed.closed
    obtain ⟨gs, rest, same⟩ := ih fine
    refine ⟨[f] ++ gs, ?_, ?_⟩
    · exact (by simpa using consumed.trans kept : Consumed s (t.drain cx).1 [f]).trans rest
    · rw [dataOf_append, ← List.append_assoc, ← plain, ← pushed.plain, same]
  | case4 s waiting t decoded closed =>
    obtain ⟨rfl, -⟩ := decode_waits decoded
    exact ⟨[], Consumed.refl rfl rfl rfl, by simp [polled]⟩
  | case5 s waiting t decoded opened inner answer =>
    obtain ⟨rfl, -⟩ := decode_waits decoded
    have same := socket_quiet answer (.inl rfl)
    refine ⟨[], ?_, by simp [polled]⟩
    constructor <;> simp [WsStream.undecoded, same]
  | case6 s waiting t decoded opened inner byte bytes answer ih =>
    obtain ⟨rfl, -⟩ := decode_waits decoded
    obtain ⟨rest, reads, rfl⟩ := pollRead_backlog answer
    have moved : Consumed t { t with
        inner := { t.inner with reads := rest }, incoming := t.incoming ++ byte :: bytes } [] := by
      constructor <;> simp [WsStream.undecoded, reads, arrivals]
    obtain ⟨gs, later, same⟩ := ih fine
    exact ⟨[] ++ gs, moved.trans later, same⟩
  | case7 s waiting t decoded opened inner error answer => exact absurd rfl (fine error)
  | case8 s waiting t decoded opened inner answer =>
    obtain ⟨rfl, -⟩ := decode_waits decoded
    have same := socket_quiet answer (.inr rfl)
    refine ⟨[], ?_, by simp [polled]⟩
    constructor <;> simp [WsStream.undecoded, same]

/-- One turn of the loop in `poll_read`, in its pieces: a frame is decoded, staged
bytes are pushed, or, with no frame to decode, the socket is read. -/
inductive Turn (cx : Half) (s : WsStream) : WsStream → Prop
  | decoded (empty : s.plain = []) (did : s.decode = (t, .ok true)) : Turn cx s t
  | drain : Turn cx s (s.drain cx).1
  | read {inner : Socket} (byte : UInt8) (bytes : Bytes) (empty : s.plain = []) (waits : s.decode = (s, .ok false))
    (opened : s.closed = false) (answer : s.inner.pollRead = (inner, .ready (.ok (byte :: bytes)))) :
    Turn cx s { s with inner, incoming := s.incoming ++ byte :: bytes }

/-- How the loop in `poll_read` returns. -/
inductive Returns (room : Nat) (s : WsStream) : WsStream × Poll (Result Bytes) → Prop
  | bytes (some : s.plain ≠ []) :
    Returns room s ({ s with plain := s.plain.drop room }, .ready (.ok (s.plain.take room)))
  | refused (empty : s.plain = []) (did : s.decode = (t, .error error)) :
    Returns room s (t, .ready (.error error))
  | closed (empty : s.plain = []) (waits : s.decode = (s, .ok false)) (closed : s.closed = true) :
    Returns room s (s, .ready (.ok []))
  | socket {inner : Socket} {result : Poll (Result Bytes)} (empty : s.plain = [])
    (waits : s.decode = (s, .ok false)) (opened : s.closed = false)
    (answer : s.inner.pollRead = (inner, result)) (none : polled result = []) :
    Returns room s ({ s with inner }, result)

/-- `poll_read` takes turns, and then it returns. -/
theorem pollRead_turns (cx : Half) (room : Nat) (s : WsStream) :
    ∃ mid, Relation.ReflTransGen (Turn cx) s mid ∧ Returns room mid (s.pollRead cx room) := by
  fun_induction WsStream.pollRead cx room s with
  | case1 s waiting => exact ⟨s, .refl, .bytes waiting⟩
  | case2 s waiting t error decoded => exact ⟨s, .refl, .refused (by simpa using waiting) decoded⟩
  | case3 s waiting t decoded ih =>
    obtain ⟨mid, turns, returns⟩ := ih
    exact ⟨mid, .head (.decoded (by simpa using waiting) decoded) (.head .drain turns), returns⟩
  | case4 s waiting t decoded closed =>
    obtain ⟨rfl, -⟩ := decode_waits decoded
    exact ⟨t, .refl, .closed (by simpa using waiting) decoded closed⟩
  | case6 s waiting t decoded opened inner byte bytes answer ih =>
    obtain ⟨rfl, -⟩ := decode_waits decoded
    obtain ⟨mid, turns, returns⟩ := ih
    exact ⟨mid, .head (.read byte bytes (by simpa using waiting) decoded (by simpa using opened) answer) turns, returns⟩
  | case5 s waiting t decoded opened inner answer | case7 s waiting t decoded opened inner error answer
  | case8 s waiting t decoded opened inner answer =>
    obtain ⟨rfl, -⟩ := decode_waits decoded
    exact ⟨t, .refl, .socket (by simpa using waiting) decoded (by simpa using opened) answer rfl⟩

/-- The write functions leave the read side of the stream alone. -/
structure SameReadSide (s t : WsStream) : Prop where
  incoming : t.incoming = s.incoming
  plain : t.plain = s.plain
  closed : t.closed = s.closed
  reads : t.inner.reads = s.inner.reads
  eof : t.inner.eof = s.inner.eof

theorem drain_readSide (cx : Half) (s : WsStream) : SameReadSide s (s.drain cx).1 :=
  have spec := drain_spec cx s
  ⟨spec.incoming, spec.plain, spec.closed, spec.reads, spec.eof⟩

theorem SameReadSide.trans (first : SameReadSide s t) (second : SameReadSide t u) :
    SameReadSide s u :=
  ⟨second.incoming.trans first.incoming, second.plain.trans first.plain,
    second.closed.trans first.closed, second.reads.trans first.reads, second.eof.trans first.eof⟩

theorem pollWrite_readSide (cx : Half) (data : Bytes) (s : WsStream) :
    SameReadSide s (s.pollWrite cx data).1 := by
  have first := drain_readSide cx s
  unfold WsStream.pollWrite
  split
  · rename_i mid drained
    rw [drained] at first
    have staged : SameReadSide mid (mid.frame opBinary (data.take (min data.length maxSend))) :=
      ⟨rfl, rfl, rfl, rfl, rfl⟩
    have second := drain_readSide cx (mid.frame opBinary (data.take (min data.length maxSend)))
    dsimp only
    split <;> rename_i drained' <;> rw [drained'] at second <;>
      exact first.trans (staged.trans second)
  · rename_i mid error drained
    rwa [drained] at first
  · rename_i mid drained
    rwa [drained] at first

theorem pollFlush_readSide (cx : Half) (settle : Settle) (s : WsStream) :
    SameReadSide s (s.pollFlush cx settle).1 := by
  have first := drain_readSide cx s
  unfold WsStream.pollFlush
  split
  · rename_i mid drained
    rw [drained] at first
    have settled : SameReadSide mid { mid with inner := (mid.inner.pollSettle cx settle).1 } := by
      unfold Socket.pollSettle
      split <;> try split
      all_goals exact ⟨rfl, rfl, rfl, rfl, rfl⟩
    exact first.trans settled
  · exact first

/-- How a read can end: end of file, or an error. -/
inductive ReadEnd
  | eof
  | error
  deriving DecidableEq, Repr

/-- One `WsStream` being read while its other half writes. `arrived` is every
client byte that has come in, `delivered` every byte `poll_read` returned. -/
structure Reading where
  stream : WsStream := {}
  arrived : Bytes := []
  delivered : Bytes := []
  ended : Option ReadEnd := none
  deriving DecidableEq, Repr

inductive ReadAct
  /-- The client's next bytes come in as one socket read. -/
  | arrive (bytes : Bytes)
  /-- The client ends its side. -/
  | hangUp
  /-- The socket becomes writable and will give these answers. -/
  | writable (answers : List WriteAnswer)
  | pollRead (room : Nat)
  | pollWrite (data : Bytes)
  | pollFlush (settle : Settle)

/-- The client's bytes come in non-empty reads that fit the scratch buffer, and
a read that has ended is not polled again. -/
def Reading.step (r : Reading) : ReadAct → Option Reading
  | .arrive bytes =>
    if bytes ≠ [] ∧ bytes.length ≤ scratchLen ∧ r.stream.inner.eof = false then
      some { r with
        stream := { r.stream with
          inner := { r.stream.inner with reads := r.stream.inner.reads ++ [.data bytes] } }
        arrived := r.arrived ++ bytes }
    else none
  | .hangUp => some { r with stream := { r.stream with inner := { r.stream.inner with eof := true } } }
  | .writable answers =>
    some { r with stream := { r.stream with
      inner := { r.stream.inner with
        writes := r.stream.inner.writes ++ answers, waker := none } } }
  | .pollRead room =>
    if r.ended = none ∧ 0 < room then
      match r.stream.pollRead .reader room with
      | (stream, .ready (.ok [])) => some { r with stream, ended := some .eof }
      | (stream, .ready (.ok bytes)) => some { r with stream, delivered := r.delivered ++ bytes }
      | (stream, .ready (.error _)) => some { r with stream, ended := some .error }
      | (stream, .pending) => some { r with stream }
    else none
  | .pollWrite data => some { r with stream := (r.stream.pollWrite .writer data).1 }
  | .pollFlush settle => some { r with stream := (r.stream.pollFlush .writer settle).1 }

/-- Where reading stands against the reference, after the frames `fs`. Each
clause is about every continuation of the client's bytes, because a verdict
given now must still be right when more of them arrive. -/
def Reading.Tracks (r : Reading) (fs : List ClientFrame) : Prop :=
  match r.ended with
  | none =>
    (∀ future, frames (r.arrived ++ future) =
      (fs ++ (frames (r.stream.undecoded ++ future)).1, (frames (r.stream.undecoded ++ future)).2)) ∧
    r.delivered ++ r.stream.plain = dataOf fs ∧
    (r.stream.closed = true → ∃ f ∈ fs, f.opcode = opClose)
  | some .error => (∀ future, frames (r.arrived ++ future) = (fs, true)) ∧ r.delivered = dataOf fs
  | some .eof => (∀ future, HasClose (r.arrived ++ future)) ∨
    (r.stream.inner.eof = true ∧ frames r.arrived = (fs, false) ∧ r.delivered = dataOf fs)

/-- The invariant of a read: it is where the reference says, and the socket
holds nothing but non-empty reads. -/
def Reading.Sound (r : Reading) : Prop := Healthy r.stream.inner.reads ∧ ∃ fs, r.Tracks fs

variable {r next final : Reading} {stream t : WsStream} {fs gs : List ClientFrame}

private theorem sound_same (sound : r.Sound) (same : SameReadSide r.stream stream) :
    Reading.Sound { r with stream } := by
  obtain ⟨healthy, fs, tracks⟩ := sound
  refine ⟨by rwa [same.reads], fs, ?_⟩
  simpa [Reading.Tracks, WsStream.undecoded, same.incoming, same.plain, same.closed, same.reads,
    same.eof] using tracks

private theorem sound_arrive (sound : r.Sound) (nonempty : bytes ≠ [])
    (flowing : r.stream.inner.eof = false) :
    Reading.Sound { r with
      stream := { r.stream with
        inner := { r.stream.inner with reads := r.stream.inner.reads ++ [.data bytes] } }
      arrived := r.arrived ++ bytes } := by
  obtain ⟨healthy, fs, tracks⟩ := sound
  refine ⟨?_, fs, ?_⟩
  · intro answer member
    rcases List.mem_append.mp member with old | new
    · exact healthy answer old
    · obtain ⟨byte, more, rfl⟩ := List.exists_cons_of_ne_nil nonempty
      exact ⟨byte, more, List.mem_singleton.mp new⟩
  · unfold Reading.Tracks at tracks ⊢
    cases ended : r.ended with
    | none =>
      simp only [ended] at tracks ⊢
      refine ⟨fun future => ?_, tracks.2⟩
      simpa [WsStream.undecoded, arrivals] using tracks.1 (bytes ++ future)
    | some how =>
      cases how with
      | error =>
        simp only [ended] at tracks ⊢
        exact ⟨fun future => by simpa using tracks.1 (bytes ++ future), tracks.2⟩
      | eof =>
        simp only [ended] at tracks ⊢
        obtain closed | ⟨eof, -⟩ := tracks
        · exact .inl fun future => by simpa using closed (bytes ++ future)
        · simp [flowing] at eof

/-- The frames read so far and those of this poll, in one list. -/
private theorem tracks_consumed (reading : r.ended = none) (tracks : r.Tracks fs)
    (consumed : Consumed r.stream t gs) (future : Bytes) :
    frames (r.arrived ++ future) =
      (fs ++ gs ++ (frames (t.undecoded ++ future)).1, (frames (t.undecoded ++ future)).2) := by
  simp only [Reading.Tracks, reading] at tracks
  rw [tracks.1 future, consumed.frames future, List.append_assoc]

private theorem tracks_close (reading : r.ended = none) (tracks : r.Tracks fs)
    (consumed : Consumed r.stream t gs) (closed : t.closed = true) :
    ∃ f ∈ fs ++ gs, f.opcode = opClose := by
  simp only [Reading.Tracks, reading] at tracks
  rcases consumed.closed.mp closed with before | ⟨f, member, close⟩
  · obtain ⟨f, member, close⟩ := tracks.2.2 before
    exact ⟨f, List.mem_append_left _ member, close⟩
  · exact ⟨f, List.mem_append_right _ member, close⟩

private theorem sound_poll (sound : r.Sound) (stepped : r.step (.pollRead room) = some next) :
    next.Sound := by
  obtain ⟨healthy, fs, tracks⟩ := sound
  simp only [Reading.step] at stepped
  split at stepped
  · rename_i guard
    obtain ⟨reading, positive⟩ := guard
    obtain ⟨⟨gs, outcome⟩, healthy', -⟩ := pollRead_outcome .reader room r.stream healthy
    have before := tracks
    simp only [Reading.Tracks, reading] at before
    split at stepped
    · rename_i stream polled
      rw [polled] at outcome healthy'
      dsimp only at outcome healthy'
      cases stepped
      refine ⟨healthy', fs ++ gs, ?_⟩
      obtain ⟨consumed, same, reason⟩ := outcome
      simp only [Reading.Tracks]
      rcases reason rfl with none | closed | ⟨empty, ended, reads, cut⟩
      · omega
      · obtain ⟨f, member, close⟩ := tracks_close reading tracks consumed closed
        refine .inl fun future => ⟨f, ?_, close⟩
        rw [tracks_consumed reading tracks consumed future]
        exact List.mem_append_left _ member
      · have all := tracks_consumed reading tracks consumed []
        have nothing : frames (stream.undecoded ++ []) = ([], false) := by
          simpa [WsStream.undecoded, reads, arrivals] using frames_cut cut
        rw [nothing] at all
        refine .inr ⟨ended, by simpa using all, ?_⟩
        rw [dataOf_append, ← before.2.1, List.append_assoc, same, empty]
        simp
    · rename_i stream bytes _ polled
      rw [polled] at outcome healthy'
      dsimp only at outcome healthy'
      cases stepped
      obtain ⟨consumed, same, -⟩ := outcome
      refine ⟨healthy', fs ++ gs, ?_⟩
      simp only [Reading.Tracks, reading]
      refine ⟨tracks_consumed reading tracks consumed, ?_, tracks_close reading tracks consumed⟩
      rw [dataOf_append, ← before.2.1, List.append_assoc, List.append_assoc, same]
    · rename_i stream error polled
      rw [polled] at outcome healthy'
      dsimp only at outcome healthy'
      cases stepped
      obtain ⟨malformed, nothing⟩ := outcome
      refine ⟨healthy', fs ++ gs, ?_⟩
      simp only [Reading.Tracks]
      refine ⟨fun future => by rw [before.1 future, malformed future], ?_⟩
      rw [dataOf_append, ← before.2.1, List.append_assoc, nothing, List.append_nil]
    · rename_i stream polled
      rw [polled] at outcome healthy'
      dsimp only at outcome healthy'
      cases stepped
      obtain ⟨consumed, nothing, empty, -⟩ := outcome
      refine ⟨healthy', fs ++ gs, ?_⟩
      simp only [Reading.Tracks, reading]
      refine ⟨tracks_consumed reading tracks consumed, ?_, tracks_close reading tracks consumed⟩
      rw [dataOf_append, ← before.2.1, List.append_assoc, nothing, empty]
  · cases stepped

theorem step_sound (sound : r.Sound) (stepped : Reading.step r act = some next) : next.Sound := by
  cases act with
  | arrive bytes =>
    simp only [Reading.step] at stepped
    split at stepped
    · rename_i guard
      cases stepped
      exact sound_arrive sound guard.1 guard.2.2
    · cases stepped
  | hangUp =>
    cases stepped
    obtain ⟨healthy, fs, tracks⟩ := sound
    refine ⟨healthy, fs, ?_⟩
    unfold Reading.Tracks at tracks ⊢
    rcases ended : r.ended with _ | _ | _ <;> simp_all [WsStream.undecoded]
    tauto
  | writable answers =>
    cases stepped
    exact sound_same sound ⟨rfl, rfl, rfl, rfl, rfl⟩
  | pollRead room => exact sound_poll sound stepped
  | pollWrite data =>
    cases stepped
    exact sound_same sound (pollWrite_readSide ..)
  | pollFlush settle =>
    cases stepped
    exact sound_same sound (pollFlush_readSide ..)

/-- Every run of a reader, a writer and a socket keeps reading where the
reference says. -/
theorem run_sound (ran : run Reading.step {} actions = some final) : final.Sound := by
  refine run_preserves Reading.Sound (fun _ _ _ sound stepped => step_sound sound stepped) ?_ ran
  refine ⟨by simp [Healthy], [], ?_⟩
  simp [Reading.Tracks, WsStream.undecoded, arrivals]

/-- What the invariant says once the reference has read all that arrived. -/
private theorem sound_meaning (sound : r.Sound) (noClose : ¬ HasClose r.arrived) :
    r.delivered <+: dataBytes r.arrived ∧
    (r.ended = some .error → Malformed r.arrived ∧ r.delivered = dataBytes r.arrived) ∧
    (r.ended = some .eof → r.stream.inner.eof = true ∧ ¬ Malformed r.arrived ∧
      r.delivered = dataBytes r.arrived) := by
  obtain ⟨-, fs, tracks⟩ := sound
  rcases ended : r.ended with _ | _ | _ <;> simp only [Reading.Tracks, ended] at tracks
  · refine ⟨?_, by simp, by simp⟩
    have all := tracks.1 []
    simp only [List.append_nil] at all
    rw [dataBytes, all, dataOf_append, ← tracks.2.1, List.append_assoc]
    exact List.prefix_append _ _
  · have closed := tracks.resolve_left fun closed => noClose (by simpa using closed [])
    have same : r.delivered = dataBytes r.arrived := by rw [dataBytes, closed.2.1, closed.2.2]
    exact ⟨by simp [same], by simp, fun _ => ⟨closed.1, by simp [Malformed, closed.2.1], same⟩⟩
  · have all := tracks.1 []
    simp only [List.append_nil] at all
    have same : r.delivered = dataBytes r.arrived := by rw [dataBytes, all, tracks.2]
    exact ⟨by simp [same], fun _ => ⟨by simp [Malformed, all], same⟩, by simp⟩

/-- With the whole sequence in, or a malformed frame ahead, a poll returns
bytes or ends the read: it never waits. -/
private theorem poll_progress (sound : r.Sound) (reading : r.ended = none) (positive : 0 < room)
    (ahead : r.stream.inner.eof = true ∨ Malformed r.arrived) :
    ∃ next, r.step (.pollRead room) = some next ∧ next.arrived = r.arrived ∧
      (next.ended ≠ none ∨ next.ended = none ∧ r.delivered.length < next.delivered.length ∧
        next.stream.inner.eof = r.stream.inner.eof) := by
  obtain ⟨healthy, fs, tracks⟩ := sound
  obtain ⟨⟨gs, outcome⟩, -, eof⟩ := pollRead_outcome .reader room r.stream healthy
  simp only [Reading.step, reading, positive, and_self, ↓reduceIte]
  split
  · exact ⟨_, rfl, rfl, .inl (by simp)⟩
  · rename_i stream bytes nonempty polled
    rw [polled] at eof
    refine ⟨_, rfl, rfl, .inr ⟨rfl, ?_, eof⟩⟩
    have some := List.length_pos_iff.mpr fun empty => nonempty empty
    simp only [List.length_append]
    omega
  · exact ⟨_, rfl, rfl, .inl (by simp)⟩
  · rename_i stream polled
    rw [polled] at outcome eof
    dsimp only at outcome eof
    obtain ⟨consumed, -, -, quiet, reads, cut⟩ := outcome
    rcases ahead with ended | malformed
    · simp [← eof, quiet] at ended
    · have all := tracks_consumed reading tracks consumed []
      have nothing : frames (stream.undecoded ++ []) = ([], false) := by
        simpa [WsStream.undecoded, reads, arrivals] using frames_cut cut
      rw [nothing] at all
      simp [Malformed, show frames r.arrived = _ by simpa using all] at malformed

/-- A reader that keeps polling comes to the end within one poll per byte it
is still owed, and one more. -/
private theorem polls_end (rooms : List Nat) (positive : ∀ room ∈ rooms, 0 < room)
    (sound : r.Sound) (noClose : ¬ HasClose r.arrived) (reading : r.ended = none)
    (ahead : r.stream.inner.eof = true ∨ Malformed r.arrived)
    (enough : (dataBytes r.arrived).length < r.delivered.length + rooms.length) :
    ∃ polls last, polls <+: rooms ∧ run Reading.step r (polls.map .pollRead) = some last ∧
      last.arrived = r.arrived ∧ last.ended ≠ none := by
  induction rooms generalizing r with
  | nil =>
    have short := (sound_meaning sound noClose).1.length_le
    simp only [List.length_nil] at enough
    omega
  | cons room rooms ih =>
    obtain ⟨next, stepped, arrived, ended | ⟨reading', more, eof⟩⟩ :=
      poll_progress sound reading (positive room (by simp)) ahead
    · refine ⟨[room], next, by simp, ?_, arrived, ended⟩
      simpa using run_cons.mpr ⟨next, stepped, rfl⟩
    · have sound' := step_sound sound stepped
      obtain ⟨polls, last, before, ran, arrived', ended⟩ :=
        ih (fun room member => positive room (by simp [member])) sound' (by rwa [arrived]) reading'
          (by rwa [eof, arrived]) (by simp only [List.length_cons] at enough; rw [arrived]; omega)
      refine ⟨room :: polls, last, (List.cons_prefix_cons).mpr ⟨rfl, before⟩, ?_,
        arrived'.trans arrived, ended⟩
      simpa using run_cons.mpr ⟨next, stepped, ran⟩

/-- Reassembly is the reference parse. Cut the client's bytes into reads in any
way, let polls and socket events fall in any order, and let the other half write:
what `poll_read` has returned is always a front part of the data frames'
payloads. The read ends with an error only at a malformed frame and with no
bytes only at end of file, in both cases with every byte before it returned;
and it does end, for every sequence of read buffers, once a malformed frame or
the end of file is there to be reached. -/
theorem reassembly_is_reference (ran : run Reading.step {} actions = some final)
    (noClose : ¬ HasClose final.arrived) :
    final.delivered <+: dataBytes final.arrived ∧
    (final.ended = some .error →
      Malformed final.arrived ∧ final.delivered = dataBytes final.arrived) ∧
    (final.ended = some .eof → final.stream.inner.eof = true ∧ ¬ Malformed final.arrived ∧
      final.delivered = dataBytes final.arrived) ∧
    (final.ended = none → (final.stream.inner.eof = true ∨ Malformed final.arrived) →
      ∀ rooms : List Nat, (∀ room ∈ rooms, 0 < room) →
        (dataBytes final.arrived).length < rooms.length →
        ∃ polls last, polls <+: rooms ∧ run Reading.step final (polls.map .pollRead) = some last ∧
          last.delivered = dataBytes final.arrived ∧
          (Malformed final.arrived ∧ last.ended = some .error ∨
            ¬ Malformed final.arrived ∧ last.ended = some .eof)) := by
  have sound := run_sound ran
  obtain ⟨before, error, eof⟩ := sound_meaning sound noClose
  refine ⟨before, error, eof, fun reading ahead rooms positive enough => ?_⟩
  obtain ⟨polls, last, used, polled, arrived, ended⟩ :=
    polls_end rooms positive sound noClose reading ahead (by omega)
  have sound' : last.Sound := run_preserves Reading.Sound
    (fun _ _ _ sound stepped => step_sound sound stepped) sound polled
  obtain ⟨-, error', eof'⟩ := sound_meaning sound' (by rwa [arrived])
  rw [arrived] at error' eof'
  refine ⟨polls, last, used, polled, ?_⟩
  rcases how : last.ended with _ | _ | _
  · exact absurd how ended
  · exact ⟨(eof' how).2.2, .inr ⟨(eof' how).2.1, rfl⟩⟩
  · exact ⟨(error' how).2, .inl ⟨(error' how).1, rfl⟩⟩

/-- A ping and a two-byte frame, cut inside the second header, read one byte at
a time after the client has hung up. -/
def splitReading : List ReadAct :=
  [.arrive [0x89, 0x80, 9, 9, 9, 9, 0x82], .pollRead 1, .arrive [0x82, 1, 2, 3, 4, 0x69, 0x6b],
    .pollWrite [7], .hangUp, .pollRead 1, .pollRead 1]

private theorem splitReading_runs : (run Reading.step {} splitReading).isSome = true := by
  decide +kernel

theorem reassembly_is_reference_split :
    ∃ final, run Reading.step {} splitReading = some final ∧ ¬ HasClose final.arrived ∧
      final.delivered = [0x68, 0x69] ∧ final.delivered <+: dataBytes final.arrived := by
  have ran : run Reading.step {} splitReading =
      some ((run Reading.step {} splitReading).get splitReading_runs) := by simp
  exact ⟨_, ran, by decide +kernel, by decide +kernel,
    (reassembly_is_reference ran (by decide +kernel)).1⟩

end DshProxy.Ws

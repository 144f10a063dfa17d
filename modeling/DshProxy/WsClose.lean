import DshProxy.WsReassembly

/-! A Close frame and what comes behind it. `closed` is looked at only when there is
no whole frame to decode, so frames that reach the buffer in the same socket read as
the Close are still decoded, and their payload is still delivered. -/
namespace DshProxy.Ws
open Transitions

/-- The frames before the first Close and the bytes behind it; `none` when the
bytes end or go wrong before a Close. -/
def splitClose (bytes : Bytes) : Option (List ClientFrame × Bytes) :=
  match _found : nextFrame bytes with
  | .cut | .malformed => none
  | .frame opcode payload rest =>
    if opcode = opClose then some ([], rest)
    else (splitClose rest).map fun (fs, tail) => (⟨opcode, payload⟩ :: fs, tail)
termination_by bytes.length
decreasing_by exact nextFrame_shrinks _found

/-- Reading whole frames off the front of some bytes leaves the rest. -/
inductive Parses : Bytes → List ClientFrame → Bytes → Prop
  | nil : Parses bytes [] bytes
  | cons (found : nextFrame bytes = .frame f.opcode f.payload rest) (later : Parses rest fs tail) :
    Parses bytes (f :: fs) tail

variable {bytes rest tail : Bytes} {fs gs hs : List ClientFrame} {f : ClientFrame}

theorem Parses.snoc (parses : Parses bytes fs rest)
    (found : nextFrame rest = .frame f.opcode f.payload tail) : Parses bytes (fs ++ [f]) tail := by
  induction parses with
  | nil => exact .cons found .nil
  | cons first _ ih => exact .cons first (ih found)

theorem Parses.append (parses : Parses bytes fs rest) (more : Bytes) :
    Parses (bytes ++ more) fs (rest ++ more) := by
  induction parses with
  | nil => exact .nil
  | cons first _ ih => exact .cons (nextFrame_append_frame more first) ih

theorem Parses.frames (parses : Parses bytes fs rest) :
    frames bytes = (fs ++ (frames rest).1, (frames rest).2) := by
  induction parses with
  | nil => rfl
  | cons first _ ih => rw [frames_frame first, ih, List.cons_append]

theorem splitClose_frame (found : nextFrame bytes = .frame opcode payload rest) :
    splitClose bytes = if opcode = opClose then some ([], rest)
      else (splitClose rest).map fun (fs, tail) => (⟨opcode, payload⟩ :: fs, tail) := by
  rw [splitClose]
  split <;> simp_all

theorem splitClose_none (found : nextFrame bytes = .cut ∨ nextFrame bytes = .malformed) :
    splitClose bytes = none := by
  rw [splitClose]
  split <;> simp_all

/-- A Close found is a Close read. -/
theorem splitClose_parses (found : splitClose bytes = some (fs, tail)) :
    ∃ rest payload, Parses bytes fs rest ∧ (∀ f ∈ fs, f.opcode ≠ opClose) ∧
      nextFrame rest = .frame opClose payload tail := by
  fun_induction splitClose bytes generalizing fs with
  | case1 => cases found
  | case2 => cases found
  | case3 bytes payload rest first =>
    cases found
    exact ⟨bytes, payload, .nil, by simp, first⟩
  | case4 bytes opcode payload rest first other ih =>
    obtain ⟨⟨gs, tail⟩, later, same⟩ := Option.map_eq_some_iff.mp found
    cases same
    obtain ⟨last, closing, parses, none, close⟩ := ih later
    refine ⟨last, closing, .cons first parses, fun f member => ?_, close⟩
    rcases List.mem_cons.mp member with rfl | member
    · exact other
    · exact none f member

/-- Frames that are no Close are frames before the Close. -/
theorem Parses.splitClose (parses : Parses bytes fs rest) (none : ∀ f ∈ fs, f.opcode ≠ opClose) :
    splitClose bytes = (splitClose rest).map fun (gs, tail) => (fs ++ gs, tail) := by
  induction parses with
  | nil => simp
  | cons first _ ih =>
    rw [splitClose_frame first, if_neg (none _ (by simp)), ih fun f member => none f (by simp [member]),
      Option.map_map]
    rfl

theorem splitClose_append (found : splitClose bytes = some (fs, tail)) (more : Bytes) :
    splitClose (bytes ++ more) = some (fs, tail ++ more) := by
  obtain ⟨rest, payload, parses, none, close⟩ := splitClose_parses found
  rw [(parses.append more).splitClose none, splitClose_frame (nextFrame_append_frame more close), if_pos rfl]
  simp

/-- The read that completes the first Close is the `k`-th; `gs` stands before the
Close, and `tail` has come with it. -/
structure ClosesAt (chunks : List Bytes) (k : Nat) (gs : List ClientFrame) (tail : Bytes) : Prop where
  within : k ≤ chunks.length
  before : ∀ j < k, splitClose (chunks.take j).flatten = none
  found : splitClose (chunks.take k).flatten = some (gs, tail)

/-- What a read has come to, on a socket that has been given these chunks: so many
of them have been read, and none before the last of these completed a Close. -/
def WsStream.Reads (s : WsStream) (chunks : List Bytes) (delivered : Bytes) : Prop :=
  ∃ k ≤ chunks.length, s.inner.reads = (chunks.drop k).map .data ∧
    (∀ j < k, splitClose (chunks.take j).flatten = none) ∧
    if s.closed then
      ∃ gs tail hs, splitClose (chunks.take k).flatten = some (gs, tail) ∧ Parses tail hs s.incoming ∧
        delivered ++ s.plain = dataOf gs ++ dataOf hs
    else
      ∃ fs, Parses (chunks.take k).flatten fs s.incoming ∧ (∀ f ∈ fs, f.opcode ≠ opClose) ∧
        delivered ++ s.plain = dataOf fs

variable {s t : WsStream} {chunks : List Bytes} {delivered : Bytes}

theorem WsStream.Reads.arrive (reads : s.Reads chunks delivered) (bytes : Bytes) :
    ({ s with inner := { s.inner with reads := s.inner.reads ++ [.data bytes] } } : WsStream).Reads
      (chunks ++ [bytes]) delivered := by
  obtain ⟨k, within, held, early, shape⟩ := reads
  refine ⟨k, ?_, ?_, fun j below => ?_, ?_⟩
  · rw [List.length_append]
    omega
  · rw [held, List.drop_append_of_le_length within, List.map_append]
    rfl
  · rw [List.take_append_of_le_length (by omega)]
    exact early j below
  · rw [List.take_append_of_le_length within]
    exact shape

/-- Only the read side matters. -/
theorem WsStream.Reads.same (reads : s.Reads chunks delivered) (same : SameReadSide s t) :
    t.Reads chunks delivered := by
  unfold WsStream.Reads at reads ⊢
  rw [same.reads, same.closed, same.incoming, same.plain]
  exact reads

theorem WsStream.Reads.turn (reads : s.Reads chunks delivered) (turn : Turn cx s t) :
    t.Reads chunks delivered := by
  cases turn with
  | drain => exact reads.same (drain_readSide cx s)
  | decoded empty did =>
    obtain ⟨k, within, held, early, shape⟩ := reads
    obtain ⟨f, found, plain, closed, inner, -⟩ := decode_frame did
    refine ⟨k, within, by rw [inner, held], early, ?_⟩
    by_cases before : s.closed = true
    · rw [if_pos before] at shape
      obtain ⟨gs, tail, hs, close, parses, given⟩ := shape
      rw [if_pos (closed.mpr (.inl before))]
      refine ⟨gs, tail, hs ++ [f], close, parses.snoc found, ?_⟩
      rw [plain, ← List.append_assoc, given, dataOf_append, List.append_assoc]
    · rw [if_neg before] at shape
      obtain ⟨fs, parses, none, given⟩ := shape
      by_cases close : f.opcode = opClose
      · rw [if_pos (closed.mpr (.inr close))]
        rw [close] at found
        refine ⟨fs, t.incoming, [], ?_, .nil, ?_⟩
        · rw [parses.splitClose none, splitClose_frame found, if_pos rfl]
          simp
        · rw [plain, dataOf_single, close, ← List.append_assoc, given]
          rfl
      · have opened : ¬ t.closed = true := fun shut => (closed.mp shut).elim before close
        rw [if_neg opened]
        refine ⟨fs ++ [f], parses.snoc found, fun g member => ?_, ?_⟩
        · rcases List.mem_append.mp member with old | new
          · exact none g old
          · rw [List.mem_singleton.mp new]
            exact close
        · rw [plain, ← List.append_assoc, given, dataOf_append]
  | read byte bytes empty waits opened answer =>
    obtain ⟨k, within, held, early, shape⟩ := reads
    obtain ⟨left, queued, rfl⟩ := pollRead_backlog answer
    rw [if_neg (by simp [opened])] at shape
    obtain ⟨fs, parses, none, given⟩ := shape
    have quiet : splitClose (chunks.take k).flatten = Option.none := by
      rw [parses.splitClose none, splitClose_none (.inl (decode_waits waits).2)]
      rfl
    rw [held] at queued
    obtain ⟨chunk, more, ahead, same, rest⟩ := List.map_eq_cons_iff.mp queued
    cases same
    have below : k < chunks.length := by
      by_contra past
      rw [List.drop_eq_nil_of_le (by omega)] at ahead
      cases ahead
    have grown : (chunks.take (k + 1)).flatten = (chunks.take k).flatten ++ byte :: bytes := by
      rw [List.take_add, ahead]
      simp
    refine ⟨k + 1, below, ?_, fun j early' => ?_, ?_⟩
    · rw [← List.drop_drop, ahead, ← rest]
      rfl
    · rcases Nat.lt_succ_iff_lt_or_eq.mp early' with less | rfl
      · exact early j less
      · exact quiet
    · rw [if_neg (by simp [opened]), grown]
      exact ⟨fs, parses.append _, none, given⟩

theorem ClosesAt.append (closes : ClosesAt chunks k gs tail) (more : List Bytes) :
    ClosesAt (chunks ++ more) k gs tail := by
  have within := closes.within
  refine ⟨?_, fun j below => ?_, ?_⟩
  · rw [List.length_append]
    omega
  · rw [List.take_append_of_le_length (by omega)]
    exact closes.before j below
  · rw [List.take_append_of_le_length within]
    exact closes.found

/-- The first Close of the chunks is the first Close of all the bytes. -/
theorem ClosesAt.whole (closes : ClosesAt chunks k gs tail) :
    splitClose chunks.flatten = some (gs, tail ++ (chunks.drop k).flatten) := by
  have split : chunks.flatten = (chunks.take k).flatten ++ (chunks.drop k).flatten := by
    rw [← List.flatten_append, List.take_append_drop]
  rw [split]
  exact splitClose_append closes.found _

/-- A connection that is read, and the chunks its socket has been given. -/
structure Chunked where
  reading : Reading := {}
  chunks : List Bytes := []

/-- The socket's next read, if this is its arrival. -/
def ReadAct.chunk : ReadAct → List Bytes
  | .arrive bytes => [bytes]
  | _ => []

def Chunked.step (c : Chunked) (act : ReadAct) : Option Chunked :=
  (c.reading.step act).map fun reading => { reading, chunks := c.chunks ++ act.chunk }

/-- What the code has delivered when a read ends: all before the Close and all that
came with it, and an error exactly if that goes wrong. -/
def EndsWith (chunks : List Bytes) (delivered : Bytes) (eof : Bool) (how : ReadEnd) : Prop :=
  (∃ k gs tail, ClosesAt chunks k gs tail ∧ delivered = dataOf gs ++ dataBytes tail ∧
    (how = .error ↔ Malformed tail)) ∨
  (∀ future, splitClose (chunks.flatten ++ future) = none) ∨
  (eof = true ∧ splitClose chunks.flatten = none)

structure Chunked.Sound (c : Chunked) : Prop where
  filled : ∀ chunk ∈ c.chunks, chunk ≠ []
  reads : c.reading.ended = none → c.reading.stream.Reads c.chunks c.reading.delivered
  ended : ∀ how, c.reading.ended = some how →
    EndsWith c.chunks c.reading.delivered c.reading.stream.inner.eof how

theorem WsStream.Reads.turns (reads : s.Reads chunks delivered)
    (turns : Relation.ReflTransGen (Turn cx) s t) : t.Reads chunks delivered := by
  induction turns with
  | refl => exact reads
  | tail _ turn ih => exact ih.turn turn

/-- Everything has been read and there is no Close. -/
private theorem unclosed (all : chunks.drop k = [])
    (parses : Parses (chunks.take k).flatten fs rest) (noClose : ∀ f ∈ fs, f.opcode ≠ opClose)
    (cut : nextFrame rest = .cut) : splitClose chunks.flatten = none := by
  have whole : chunks.take k = chunks := by
    have both := List.take_append_drop k chunks
    rwa [all, List.append_nil] at both
  rw [whole] at parses
  rw [parses.splitClose noClose, splitClose_none (.inl cut)]
  rfl

/-- A frame that goes wrong in front of any Close stays in front of it. -/
private theorem never_closed (parses : Parses (chunks.take k).flatten fs rest)
    (noClose : ∀ f ∈ fs, f.opcode ≠ opClose) (wrong : nextFrame rest = .malformed) (future : Bytes) :
    splitClose (chunks.flatten ++ future) = none := by
  have split : chunks.flatten ++ future =
      (chunks.take k).flatten ++ ((chunks.drop k).flatten ++ future) := by
    rw [← List.append_assoc, ← List.flatten_append, List.take_append_drop]
  rw [split, (parses.append _).splitClose noClose,
    splitClose_none (.inr (nextFrame_append_malformed _ wrong))]
  rfl

/-- What a poll can come to, for a reader that is where the reference says. -/
inductive Polled (chunks : List Bytes) (delivered : Bytes) : WsStream × Poll (Result Bytes) → Prop
  | bytes {after : WsStream} (some : given ≠ []) (reads : after.Reads chunks (delivered ++ given)) :
    Polled chunks delivered (after, .ready (.ok given))
  | refused {after : WsStream} (ended : EndsWith chunks delivered after.inner.eof .error) :
    Polled chunks delivered (after, .ready (.error error))
  | eof {after : WsStream} (ended : EndsWith chunks delivered after.inner.eof .eof) :
    Polled chunks delivered (after, .ready (.ok []))
  | pending {after : WsStream} (reads : after.Reads chunks delivered)
    (unclosed : splitClose chunks.flatten = none) : Polled chunks delivered (after, .pending)

theorem WsStream.Reads.poll (reads : s.Reads chunks delivered) (filled : ∀ chunk ∈ chunks, chunk ≠ [])
    (positive : 0 < room) (cx : Half) : Polled chunks delivered (s.pollRead cx room) := by
  obtain ⟨mid, turns, returns⟩ := pollRead_turns cx room s
  have held := reads.turns turns
  generalize s.pollRead cx room = result at returns
  cases returns with
  | bytes some =>
    refine .bytes ?_ ?_
    · intro nothing
      rcases List.take_eq_nil_iff.mp nothing with zero | empty
      · omega
      · exact some empty
    · obtain ⟨k, within, queued, early, shape⟩ := held
      refine ⟨k, within, queued, early, ?_⟩
      have same : delivered ++ mid.plain.take room ++ mid.plain.drop room = delivered ++ mid.plain := by
        rw [List.append_assoc, List.take_append_drop]
      dsimp only
      rwa [same]
  | refused empty did =>
    refine .refused ?_
    have wrong := decode_malformed did
    obtain ⟨k, within, queued, early, shape⟩ := held
    split at shape
    · obtain ⟨gs, tail, hs, close, parses, all⟩ := shape
      have read := parses.frames
      rw [frames_malformed wrong, List.append_nil] at read
      refine .inl ⟨k, gs, tail, ⟨within, early, close⟩, ?_, by simp [Malformed, read]⟩
      rw [dataBytes, read, ← all, empty, List.append_nil]
    · obtain ⟨fs, parses, noClose, -⟩ := shape
      exact .inr (.inl (never_closed parses noClose wrong))
  | closed empty waits closed =>
    refine .eof ?_
    have cut := (decode_waits waits).2
    obtain ⟨k, within, queued, early, shape⟩ := held
    rw [if_pos closed] at shape
    obtain ⟨gs, tail, hs, close, parses, all⟩ := shape
    have read := parses.frames
    rw [frames_cut cut, List.append_nil] at read
    refine .inl ⟨k, gs, tail, ⟨within, early, close⟩, ?_, by simp [Malformed, read]⟩
    rw [dataBytes, read, ← all, empty, List.append_nil]
  | socket empty waits opened answer quiet =>
    have cut := (decode_waits waits).2
    obtain ⟨k, within, queued, early, shape⟩ := held
    rw [if_neg (by simp [opened])] at shape
    obtain ⟨fs, parses, noClose, all⟩ := shape
    cases ahead : chunks.drop k with
    | nil =>
      have never := unclosed ahead parses noClose cut
      unfold Socket.pollRead at answer
      rw [queued, ahead] at answer
      cases answer
      split
      · rename_i eof
        exact .eof (.inr (.inr ⟨eof, never⟩))
      · refine .pending ⟨k, within, queued, early, ?_⟩ never
        rw [if_neg (by simp [opened])]
        exact ⟨fs, parses, noClose, all⟩
    | cons chunk more =>
      -- A chunk that is there is read, and it is not empty.
      unfold Socket.pollRead at answer
      rw [queued, ahead] at answer
      cases answer
      have member : chunk ∈ chunks := List.mem_of_mem_drop (ahead ▸ List.mem_cons_self)
      exact absurd quiet (filled chunk member)

theorem EndsWith.arrive (ended : EndsWith chunks delivered eof how) (flowing : eof = false)
    (bytes : Bytes) : EndsWith (chunks ++ [bytes]) delivered eof how := by
  obtain ⟨k, gs, tail, closes, given, wrong⟩ | never | ⟨finished, -⟩ := ended
  · exact .inl ⟨k, gs, tail, closes.append _, given, wrong⟩
  · refine .inr (.inl fun future => ?_)
    rw [List.flatten_append, List.append_assoc]
    exact never _
  · rw [flowing] at finished
    cases finished

/-- A step that is neither an arrival nor a poll. -/
private theorem sound_aside {c : Chunked} (sound : c.Sound) {stream : WsStream}
    (same : SameReadSide c.reading.stream stream) :
    ({ c with reading := { c.reading with stream } } : Chunked).Sound := by
  refine ⟨sound.filled, fun going => (sound.reads going).same same, fun how ended => ?_⟩
  dsimp only
  rw [same.eof]
  exact sound.ended how ended

theorem Chunked.Sound.step {c next : Chunked} {act : ReadAct} (sound : c.Sound)
    (stepped : c.step act = some next) : next.Sound := by
  obtain ⟨reading, did, rfl⟩ := Option.map_eq_some_iff.mp stepped
  cases act with
  | arrive bytes =>
    obtain ⟨⟨some, -, flowing⟩, same⟩ := Option.ite_none_right_eq_some.mp did
    cases same
    refine ⟨fun chunk member => ?_, fun going => (sound.reads going).arrive bytes, fun how ended => ?_⟩
    · rcases List.mem_append.mp member with old | new
      · exact sound.filled chunk old
      · rw [List.mem_singleton.mp new]
        exact some
    · exact (sound.ended how ended).arrive flowing bytes
  | hangUp =>
    cases did
    simp only [ReadAct.chunk, List.append_nil]
    refine ⟨sound.filled, sound.reads, fun how ended => ?_⟩
    obtain closes | never | ⟨-, none⟩ := sound.ended how ended
    · exact .inl closes
    · exact .inr (.inl never)
    · exact .inr (.inr ⟨rfl, none⟩)
  | writable answers =>
    cases did
    simp only [ReadAct.chunk, List.append_nil]
    exact sound_aside sound ⟨rfl, rfl, rfl, rfl, rfl⟩
  | pollWrite data =>
    cases did
    simp only [ReadAct.chunk, List.append_nil]
    exact sound_aside sound (pollWrite_readSide ..)
  | pollFlush settle =>
    cases did
    simp only [ReadAct.chunk, List.append_nil]
    exact sound_aside sound (pollFlush_readSide ..)
  | pollRead room =>
    simp only [ReadAct.chunk, List.append_nil]
    obtain ⟨⟨going, positive⟩, did⟩ := Option.ite_none_right_eq_some.mp did
    have polled := (sound.reads going).poll sound.filled positive .reader
    generalize c.reading.stream.pollRead .reader room = result at polled did
    cases polled with
    | @bytes given _ some reads =>
      cases given with
      | nil => exact absurd rfl some
      | cons byte more =>
        cases did
        refine ⟨sound.filled, fun _ => reads, fun how ended => ?_⟩
        rw [going] at ended
        cases ended
    | refused ended =>
      cases did
      exact ⟨sound.filled, nofun, fun how same => Option.some.inj same ▸ ended⟩
    | eof ended =>
      cases did
      exact ⟨sound.filled, nofun, fun how same => Option.some.inj same ▸ ended⟩
    | pending reads =>
      cases did
      refine ⟨sound.filled, fun _ => reads, fun how ended => ?_⟩
      rw [going] at ended
      cases ended

theorem run_chunked {actions : List ReadAct} (ran : run Chunked.step {} actions = some final) :
    final.Sound := by
  refine run_preserves Chunked.Sound (fun _ _ _ sound stepped => sound.step stepped) ?_ ran
  exact ⟨nofun, fun _ => ⟨0, Nat.le_refl _, rfl, nofun, [], .nil, nofun, rfl⟩, nofun⟩

/-- One of the chunks completes the first Close. -/
theorem closesAt_exists (found : splitClose chunks.flatten = some (fs, tail)) :
    ∃ k rest, ClosesAt chunks k fs rest := by
  have last : ∃ k, splitClose (chunks.take k).flatten ≠ none :=
    ⟨chunks.length, by rw [List.take_length, found]; simp⟩
  obtain ⟨⟨gs, rest⟩, first⟩ := Option.ne_none_iff_exists'.mp (Nat.find_spec last)
  have within : Nat.find last ≤ chunks.length := Nat.find_min' last (by rw [List.take_length, found]; simp)
  have closes : ClosesAt chunks (Nat.find last) gs rest :=
    ⟨within, fun j below => by simpa using Nat.find_min last below, first⟩
  have whole := closes.whole
  rw [found] at whole
  cases whole
  exact ⟨_, rest, closes⟩

theorem ClosesAt.unique (closes : ClosesAt chunks k gs tail) (also : ClosesAt chunks j fs rest) :
    gs = fs ∧ tail = rest := by
  have same : k = j := by
    rcases Nat.lt_trichotomy k j with less | same | more
    · have none := also.before k less
      rw [closes.found] at none
      cases none
    · exact same
    · have none := closes.before j more
      rw [also.found] at none
      cases none
  subst same
  have found := closes.found
  rw [also.found] at found
  cases found
  exact ⟨rfl, rfl⟩

/-- A read that goes on is somewhere in front of what the code delivers. -/
theorem WsStream.Reads.front (reads : s.Reads chunks delivered) (closes : ClosesAt chunks k gs tail) :
    delivered <+: dataOf gs ++ dataBytes tail := by
  obtain ⟨j, within, -, early, shape⟩ := reads
  split at shape
  · obtain ⟨fs, rest, hs, close, parses, given⟩ := shape
    obtain ⟨rfl, rfl⟩ := closes.unique ⟨within, early, close⟩
    have all : dataBytes tail = dataOf hs ++ dataBytes s.incoming := by
      rw [dataBytes, parses.frames, dataOf_append, dataBytes]
    rw [all, ← List.append_assoc, ← given, List.append_assoc]
    exact List.prefix_append _ _
  · obtain ⟨fs, parses, noClose, given⟩ := shape
    have split : chunks.flatten = (chunks.take j).flatten ++ (chunks.drop j).flatten := by
      rw [← List.flatten_append, List.take_append_drop]
    have whole := closes.whole
    rw [split, (parses.append _).splitClose noClose] at whole
    obtain ⟨⟨hs, later⟩, -, same⟩ := Option.map_eq_some_iff.mp whole
    cases same
    rw [dataOf_append, ← given, List.append_assoc, List.append_assoc]
    exact List.prefix_append _ _

/-- With the Close there to be reached, a poll returns bytes or ends the read. -/
private theorem poll_closes {c : Chunked} (sound : c.Sound) (going : c.reading.ended = none)
    (positive : 0 < room) (closes : ClosesAt c.chunks k gs tail) :
    ∃ next, c.step (.pollRead room) = some next ∧ next.chunks = c.chunks ∧
      (next.reading.ended ≠ none ∨
        next.reading.ended = none ∧ c.reading.delivered.length < next.reading.delivered.length) := by
  have polled := (sound.reads going).poll sound.filled positive .reader
  simp only [Chunked.step, Reading.step, going, positive, and_self, if_true, ReadAct.chunk,
    List.append_nil]
  generalize c.reading.stream.pollRead .reader room = result at polled
  cases polled with
  | @bytes given _ some reads =>
    cases given with
    | nil => exact absurd rfl some
    | cons byte more => exact ⟨_, rfl, rfl, .inr ⟨rfl, by simp⟩⟩
  | refused ended => exact ⟨_, rfl, rfl, .inl (by simp)⟩
  | eof ended => exact ⟨_, rfl, rfl, .inl (by simp)⟩
  | pending reads unclosed =>
    rw [closes.whole] at unclosed
    cases unclosed

/-- A reader that keeps polling comes to the end within one poll per byte it is
still owed, and one more. -/
private theorem polls_close {c : Chunked} (rooms : List Nat) (positive : ∀ room ∈ rooms, 0 < room)
    (sound : c.Sound) (going : c.reading.ended = none) (closes : ClosesAt c.chunks k gs tail)
    (enough : (dataOf gs ++ dataBytes tail).length < c.reading.delivered.length + rooms.length) :
    ∃ polls last, polls <+: rooms ∧ run Chunked.step c (polls.map .pollRead) = some last ∧
      last.chunks = c.chunks ∧ last.reading.ended ≠ none := by
  induction rooms generalizing c with
  | nil =>
    have short := ((sound.reads going).front closes).length_le
    simp only [List.length_nil] at enough
    omega
  | cons room rooms ih =>
    obtain ⟨next, stepped, chunks, ended | ⟨going', more⟩⟩ :=
      poll_closes sound going (positive room (by simp)) closes
    · refine ⟨[room], next, by simp, ?_, chunks, ended⟩
      simpa using run_cons.mpr ⟨next, stepped, rfl⟩
    · obtain ⟨polls, last, before, ran, chunks', ended⟩ :=
        ih (fun room member => positive room (by simp [member])) (sound.step stepped) going'
          (by rwa [chunks]) (by simp only [List.length_cons] at enough; omega)
      refine ⟨room :: polls, last, (List.cons_prefix_cons).mpr ⟨rfl, before⟩, ?_,
        chunks'.trans chunks, ended⟩
      simpa using run_cons.mpr ⟨next, stepped, ran⟩

/-- How a read that is over has ended, once there is a Close among the chunks. -/
private theorem ended_closes {c : Chunked} (sound : c.Sound) (ended : c.reading.ended = some how)
    (closes : ClosesAt c.chunks k gs tail) :
    c.reading.delivered = dataOf gs ++ dataBytes tail ∧ (how = .error ↔ Malformed tail) := by
  obtain ⟨j, fs, rest, also, given, wrong⟩ | never | ⟨-, none⟩ := sound.ended how ended
  · obtain ⟨rfl, rfl⟩ := closes.unique also
    exact ⟨given, wrong⟩
  · have none := never []
    rw [List.append_nil, closes.whole] at none
    cases none
  · rw [closes.whole] at none
    cases none

/-- The read has been given what stands before the Close and nothing else: so far a
front part of it, all of it at the end, which is no error and which polls reach. -/
def Chunked.StopsAt (c : Chunked) (before : Bytes) : Prop :=
  c.reading.delivered <+: before ∧ c.reading.ended ≠ some .error ∧
    (c.reading.ended = some .eof → c.reading.delivered = before) ∧
    (c.reading.ended = none → ∀ rooms : List Nat, (∀ room ∈ rooms, 0 < room) →
      before.length < rooms.length →
      ∃ polls last, polls <+: rooms ∧ run Chunked.step c (polls.map .pollRead) = some last ∧
        last.reading.delivered = before ∧ last.reading.ended = some .eof)

private theorem stops_clean {c : Chunked} (sound : c.Sound) (closes : ClosesAt c.chunks k gs tail)
    (clean : dataBytes tail = [] ∧ ¬ Malformed tail) : c.StopsAt (dataOf gs) := by
  obtain ⟨nothing, right⟩ := clean
  have ends {c : Chunked} {how : ReadEnd} (sound : c.Sound) (closes : ClosesAt c.chunks k gs tail)
      (ended : c.reading.ended = some how) : c.reading.delivered = dataOf gs ∧ how = .eof := by
    obtain ⟨given, wrong⟩ := ended_closes sound ended closes
    rw [nothing, List.append_nil] at given
    cases how with
    | eof => exact ⟨given, rfl⟩
    | error => exact absurd (wrong.mp rfl) right
  refine ⟨?_, fun ended => ?_, fun ended => (ends sound closes ended).1,
    fun going rooms positive enough => ?_⟩
  · cases ended : c.reading.ended with
    | none =>
      have front := (sound.reads ended).front closes
      rwa [nothing, List.append_nil] at front
    | some how => exact (ends sound closes ended).1 ▸ List.prefix_rfl
  · cases (ends sound closes ended).2
  · obtain ⟨polls, last, used, ran, chunks, ended⟩ := polls_close rooms positive sound going closes
      (by rw [nothing, List.append_nil]; omega)
    have after : last.Sound := run_preserves Chunked.Sound
      (fun _ _ _ sound stepped => sound.step stepped) sound ran
    obtain ⟨how, ended⟩ := Option.ne_none_iff_exists'.mp ended
    obtain ⟨given, rfl⟩ := ends after (by rwa [chunks]) ended
    exact ⟨polls, last, used, ran, given, ended⟩

/-- All the chunks arrive before anything is polled. -/
private theorem chunks_arrive {c : Chunked} (flowing : c.reading.stream.inner.eof = false)
    (chunks : List Bytes) (usable : ∀ chunk ∈ chunks, chunk ≠ [] ∧ chunk.length ≤ scratchLen) :
    ∃ last, run Chunked.step c (chunks.map .arrive) = some last ∧ last.chunks = c.chunks ++ chunks ∧
      last.reading.ended = c.reading.ended := by
  induction chunks generalizing c with
  | nil => exact ⟨c, rfl, by simp, rfl⟩
  | cons chunk chunks ih =>
    obtain ⟨some, short⟩ := usable chunk (by simp)
    have stepped : ∃ next, c.step (.arrive chunk) = Option.some next ∧ next.chunks = c.chunks ++ [chunk] ∧
        next.reading.ended = c.reading.ended ∧ next.reading.stream.inner.eof = false := by
      simp only [Chunked.step, Reading.step, some, short, flowing, ne_eq, not_false_eq_true, and_self,
        if_true, Option.map_some]
      exact ⟨_, rfl, rfl, rfl, rfl⟩
    obtain ⟨next, stepped, chunks', ended, flowing'⟩ := stepped
    obtain ⟨last, ran, all, ended'⟩ := ih flowing' fun chunk member => usable chunk (by simp [member])
    refine ⟨last, ?_, by rw [all, chunks', List.append_assoc]; rfl, ended'.trans ended⟩
    simpa using run_cons.mpr ⟨next, stepped, ran⟩

/-- Nothing behind a Close is delivered, for a given cut of the client's bytes and
whatever is polled when, exactly if the read that completes the Close brings no
payload and nothing malformed behind it. -/
theorem close_ends_the_stream (usable : ∀ chunk ∈ chunks, chunk ≠ [] ∧ chunk.length ≤ scratchLen)
    (found : splitClose chunks.flatten = some (fs, after)) :
    (∀ actions final, run Chunked.step {} actions = some final → final.chunks = chunks →
      final.StopsAt (dataOf fs)) ↔
    ∀ k gs tail, ClosesAt chunks k gs tail → dataBytes tail = [] ∧ ¬ Malformed tail := by
  constructor
  · intro stops k gs tail closes
    obtain ⟨full, arrived, chunks', ended⟩ := chunks_arrive (c := {}) rfl chunks usable
    have same : full.chunks = chunks := by simpa using chunks'
    obtain ⟨polls, last, -, ran, chunks'', finished⟩ := polls_close
      (List.replicate ((dataOf gs ++ dataBytes tail).length + 1) 1) (by simp) (run_chunked arrived) ended
      (by rwa [same]) (by simp; omega)
    have run := run_append.mpr ⟨full, arrived, ran⟩
    obtain ⟨-, fine, all, -⟩ := stops _ last run (chunks''.trans same)
    obtain ⟨how, ended⟩ := Option.ne_none_iff_exists'.mp finished
    obtain ⟨given, wrong⟩ := ended_closes (run_chunked run) ended (by rwa [chunks'', same])
    have whole := closes.whole
    rw [found] at whole
    cases whole
    cases how with
    | error => exact absurd ended fine
    | eof =>
      rw [all ended] at given
      exact ⟨by simpa using given, fun malformed => by cases wrong.mpr malformed⟩
  · intro clean actions final ran same
    obtain ⟨k, tail, closes⟩ := closesAt_exists found
    exact stops_clean (run_chunked ran) (by rwa [same]) (clean k fs tail closes)

/-- A Close with a one-byte data frame behind it, in one read. -/
def trailingData : List Bytes := [[0x88, 0x80, 0, 0, 0, 0, 0x82, 0x81, 0, 0, 0, 0, 0x41]]

/-- The byte behind the Close is delivered. -/
theorem data_behind_close :
    (∀ chunk ∈ trailingData, chunk ≠ [] ∧ chunk.length ≤ scratchLen) ∧
    (splitClose trailingData.flatten).map (fun found => dataOf found.1) = some [] ∧
    ∃ final, run Chunked.step {} (trailingData.map .arrive ++ [.pollRead 8]) = some final ∧
      final.chunks = trailingData ∧ final.reading.delivered = [0x41] ∧ ¬ final.StopsAt [] := by
  refine ⟨by decide, by decide +kernel, ?_⟩
  have runs : ((run Chunked.step {} (trailingData.map .arrive ++ [.pollRead 8])).any fun final =>
      final.chunks = trailingData ∧ final.reading.delivered = [0x41]) = true := by decide +kernel
  obtain ⟨final, ran, facts⟩ := run_reaches runs
  refine ⟨final, ran, facts.1, facts.2, fun stops => ?_⟩
  have front := stops.1
  rw [facts.2] at front
  exact absurd front (by decide)

/-- The same bytes, with the data frame in a read of its own. -/
def trailingRead : List Bytes := [[0x88, 0x80, 0, 0, 0, 0, 0x82], [0x81, 0, 0, 0, 0, 0x41]]

theorem close_ends_the_stream_cut : ∃ final,
    run Chunked.step {} (trailingRead.map .arrive ++ [.pollRead 8]) = some final ∧
      final.chunks = trailingRead ∧ final.StopsAt [] := by
  have runs : ((run Chunked.step {} (trailingRead.map .arrive ++ [.pollRead 8])).any fun final =>
      final.chunks = trailingRead) = true := by decide +kernel
  obtain ⟨final, ran, chunks⟩ := run_reaches runs
  have found : splitClose trailingRead.flatten = some ([], [0x82, 0x81, 0, 0, 0, 0, 0x41]) := by
    decide +kernel
  have first : ClosesAt trailingRead 1 [] [0x82] := ⟨by decide, by decide +kernel, by decide +kernel⟩
  refine ⟨final, ran, chunks, (close_ends_the_stream (by decide) found).mpr ?_ _ final ran chunks⟩
  intro k gs tail closes
  obtain ⟨-, rfl⟩ := first.unique closes
  exact ⟨by decide +kernel, by decide +kernel⟩

end DshProxy.Ws

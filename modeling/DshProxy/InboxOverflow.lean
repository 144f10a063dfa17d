import DshProxy.ServeDownlink
import DshProxy.Noise
import Mathlib.Algebra.Group.Action.Defs
import Mathlib.Algebra.Order.BigOperators.Group.List

/-! An inbox is bounded in frames, a stream's credit in bytes. A bridge that
keeps to its credit can still fill the inbox with small frames; it cannot where
no run of `INBOX_FRAMES + 1` frames fits into what the credit leaves open. -/
namespace DshProxy.Mux
open Sync Wire Transitions

/-- DATA payloads read for a stream once the frame is read too. -/
def Session.hears (s : Session) (stream : Nat) (frame : Frame) : List Bytes :=
  s.heard stream ++ dataOn (s.arena stream).id [frame]

/-- The bridge keeps to its credit on one tunnel's stream: what it has sent
there never exceeds the window and the grants. -/
def Proxy.Honest (name : Nat) (p : Proxy) : ProxyAct → Prop
  | .link (.recv plain) => ∀ n ∈ (p.tunnels name).stream, ∀ frame ∈ Frame.parse plain,
      (p.session.hears n frame).flatten.length ≤ window + (p.tunnels name).granted
  | _ => True

instance (name : Nat) (p : Proxy) : (act : ProxyAct) → Decidable (p.Honest name act)
  | .link (.recv plain) => inferInstanceAs (Decidable (∀ n ∈ _, ∀ frame ∈ Frame.parse plain, _))
  | .link .lapse | .link .advance | .link .reply | .link (.takeBatch _) | .link .feed
  | .link .writerEnds | .link .readerAborted | .link .release | .link .shutdownClear
  | .link .shutdownAbort | .tunnel _ _ => isTrue trivial

/-- However many chunks have been written, the next `INBOX_FRAMES + 1` of them
and what is then still owed are more than one window. -/
def Substantial (chunks : List Bytes) : Prop :=
  ∀ written < chunks.length, written + (inboxFrames + 1) ≤ chunks.length →
    window < (ledger (chunks.take written)).2 +
      ((chunks.drop written).take (inboxFrames + 1)).flatten.length

instance (chunks : List Bytes) : Decidable (Substantial chunks) := Nat.decidableBallLT _ _

/-- The frames the bridge sends on one tunnel's stream are not too small. -/
def Proxy.Spread (name : Nat) (p : Proxy) : ProxyAct → Prop
  | .link (.recv plain) => ∀ n ∈ (p.tunnels name).stream, ∀ frame ∈ Frame.parse plain,
      Substantial (p.session.hears n frame)
  | _ => True

instance (name : Nat) (p : Proxy) : (act : ProxyAct) → Decidable (p.Spread name act)
  | .link (.recv plain) => inferInstanceAs (Decidable (∀ n ∈ _, ∀ frame ∈ Frame.parse plain, _))
  | .link .lapse | .link .advance | .link .reply | .link (.takeBatch _) | .link .feed
  | .link .writerEnds | .link .readerAborted | .link .release | .link .shutdownClear
  | .link .shutdownAbort | .tunnel _ _ => isTrue trivial

/-- What the bridge has sent on one tunnel's stream is within its credit. -/
structure Proxy.Credited (name : Nat) (p : Proxy) : Prop where
  sound : p.Sound
  honest : ∀ n, (p.tunnels name).stream = some n →
    (p.session.heard n).flatten.length ≤ window + (p.tunnels name).granted

theorem Proxy.Credited.start (maxStreams name : Nat) : (Proxy.start maxStreams).Credited name := by
  refine ⟨.start maxStreams, ?_⟩
  intro n own
  cases own

theorem Proxy.Credited.step {p next : Proxy} (credited : p.Credited name) (honest : p.Honest name act)
    (stepped : p.step act = some next) : next.Credited name := by
  refine ⟨credited.sound.step stepped, ?_⟩
  cases act with
  | link act =>
    obtain ⟨session, did, rfl⟩ := Option.map_eq_some_iff.mp stepped
    intro n own
    obtain same | ⟨plain, frame, rfl, parsed, -, more⟩ :=
      step_heard credited.sound.wired did (credited.sound.known own)
    · rw [same]
      exact credited.honest n own
    · rw [more]
      exact honest n own frame parsed
  | tunnel mover act =>
    obtain ⟨⟨session, tunnel⟩, did, rfl⟩ := Option.map_eq_some_iff.mp stepped
    have move := tunnelStep_move did
    have before {n : Nat} (old : (p.tunnels name).stream = some n) :
        (session.heard n).flatten.length ≤ window + (p.tunnels name).granted := by
      rw [move.quiet.heard (credited.sound.known old)]
      exact credited.honest n old
    intro n own
    rw [Proxy.put_session]
    by_cases same : name = mover
    · subst same
      rw [Proxy.put_self] at own ⊢
      obtain kept | ⟨id, -, rfl, rfl⟩ := move.stream
      · exact Nat.le_trans (before (kept.symm.trans own))
          (Nat.add_le_add_left move.granted_grows _)
      · obtain rfl : p.session.created = n := Option.some.inj own
        simp [Session.heard, Session.insert, dataOn]
    · rw [Proxy.put_other p same] at own ⊢
      exact before own

/-- What holds of one tunnel's stream as long as both conditions are met. -/
structure Proxy.Roomy (name : Nat) (p : Proxy) : Prop extends p.Credited name where
  spread : ∀ n, (p.tunnels name).stream = some n → Substantial (p.session.heard n)
  room : ∀ id n, (p.tunnels name).stream = some n → p.session.reader ≠ .overflow id n

theorem substantial_nil : Substantial [] := fun written some => absurd some (Nat.not_lt_zero written)

/-- A stream within its credit and without bursts of small frames has a place
for what the reader offers. -/
theorem Proxy.Roomy.has_place {p : Proxy} (roomy : p.Roomy name)
    {id : UInt32}
    (own : (p.tunnels name).stream = some n) (reading : p.session.reader = .offer id n body)
    (opened : (p.session.arena n).inbox.isOpen = true) :
    (p.session.arena n).inbox.len < inboxFrames := by
  apply Nat.lt_of_not_le
  intro full
  have down := roomy.sound.down own
  have fed := roomy.sound.wired.fed n (roomy.sound.known own)
  have offered := fed.offered opened
  rw [reading] at offered
  simp only [Reader.offered, if_true] at offered
  -- The chunks taken, and the first `INBOX_FRAMES + 1` behind them.
  let waiting := (p.session.arena n).inbox.queue ++ [body]
  have enough : inboxFrames + 1 ≤ waiting.length := by
    simp only [waiting, List.length_append, List.length_singleton, Channel.queue_length]
    omega
  have shape : (p.session.arena n).took ++ waiting <+: p.session.heard n := by
    have split := (p.session.arena n).inbox.take_append_queue
    rw [← split, List.append_assoc] at offered
    exact offered
  obtain ⟨rest, same⟩ := shape
  have much := roomy.spread n own (p.session.arena n).took.length
    (by simp only [← same, List.length_append]; omega)
    (by simp only [← same, List.length_append]; omega)
  rw [← same, List.append_assoc, List.take_left, List.drop_left,
    List.take_append_of_le_length enough] at much
  have little := roomy.honest n own
  have granted := down.granted_le
  have total := ledger_total (p.session.arena n).took
  have some : (waiting.take (inboxFrames + 1)).flatten.length ≤ waiting.flatten.length := by
    conv => rhs; rw [← List.take_append_drop (inboxFrames + 1) waiting]
    rw [List.flatten_append, List.length_append]
    exact Nat.le_add_right _ _
  rw [← same, List.flatten_append, List.flatten_append, List.length_append, List.length_append]
    at little
  omega

private theorem roomy_link {p : Proxy} {s' : Session} (roomy : p.Roomy name)
    (spread : p.Spread name (.link act)) (stepped : p.session.step act = some s')
    (credited : ({ p with session := s' } : Proxy).Credited name) :
    ({ p with session := s' } : Proxy).Roomy name := by
  refine ⟨credited, fun n own => ?_, fun id n own finished => ?_⟩
  · obtain same | ⟨plain, frame, rfl, parsed, -, more⟩ :=
      step_heard roomy.sound.wired stepped (roomy.sound.known own)
    · rw [same]
      exact roomy.spread n own
    · rw [more]
      exact spread n own frame parsed
  · obtain before | ⟨body, reading, opened, full⟩ := step_overflow stepped finished
    · exact roomy.room id n own before
    · have place := roomy.has_place own reading opened
      omega

private theorem roomy_tunnel {p : Proxy} {s' : Session} {t' : Tunnel} (roomy : p.Roomy name)
    (move : Move p.session (p.tunnels mover) act s' t') (credited : (p.put mover s' t').Credited name) :
    (p.put mover s' t').Roomy name := by
  have quiet := move.quiet
  -- The stream is one the tunnel already had, or one it has just been given.
  have either (n : Nat) (own : ((p.put mover s' t').tunnels name).stream = some n) :
      (p.tunnels name).stream = some n ∨ (n = p.session.created ∧ s'.heard n = []) := by
    by_cases same : name = mover
    · subst same
      rw [Proxy.put_self] at own
      obtain kept | ⟨id, -, rfl, rfl⟩ := move.stream
      · exact .inl (kept.symm.trans own)
      · obtain rfl : p.session.created = n := Option.some.inj own
        exact .inr ⟨rfl, by simp [Session.heard, Session.insert, dataOn]⟩
    · rw [Proxy.put_other p same] at own
      exact .inl own
  refine ⟨credited, fun n own => ?_, fun id n own finished => ?_⟩
  · obtain old | ⟨-, nothing⟩ := either n own
    · rw [Proxy.put_session, quiet.heard (roomy.sound.known old)]
      exact roomy.spread n old
    · rw [Proxy.put_session, nothing]
      exact substantial_nil
  · rw [Proxy.put_session, quiet.reader] at finished
    obtain old | ⟨rfl, -⟩ := either n own
    · exact roomy.room id n old finished
    · exact Nat.lt_irrefl _ (roomy.sound.wired.overflows id _ finished).1

theorem Proxy.Roomy.step {p next : Proxy} (roomy : p.Roomy name)
    (permitted : p.Honest name act ∧ p.Spread name act) (stepped : p.step act = some next) :
    next.Roomy name := by
  have credited := roomy.toCredited.step permitted.1 stepped
  cases act with
  | link act =>
    obtain ⟨session, did, rfl⟩ := Option.map_eq_some_iff.mp stepped
    exact roomy_link roomy permitted.2 did credited
  | tunnel mover act =>
    obtain ⟨⟨session, tunnel⟩, did, rfl⟩ := Option.map_eq_some_iff.mp stepped
    exact roomy_tunnel roomy (tunnelStep_move did) credited

/-- A bridge that keeps to its byte credit on a stream and does not cut a window
into more frames than an inbox holds never loses the stream to the `Full` arm,
however slowly the client drains it. -/
theorem honest_bridge_never_overflows (maxStreams name : Nat) (actions : List ProxyAct)
    (honest : Meets Proxy.step (Proxy.Honest name) (.start maxStreams) actions)
    (spread : Meets Proxy.step (Proxy.Spread name) (.start maxStreams) actions) {p : Proxy}
    (ran : run Proxy.step (.start maxStreams) actions = some p) (id : UInt32) {n : Nat}
    (own : (p.tunnels name).stream = some n) : p.session.reader ≠ .overflow id n := by
  have roomy : p.Roomy name := by
    refine run_preserves_where (Proxy.Roomy name) ?_ ?_ (honest.and spread) ran
    · intro p act next roomy permitted stepped
      exact roomy.step permitted stepped
    · refine ⟨.start maxStreams name, ?_, ?_⟩
      · intro n own
        cases own
      · intro id n own
        cases own
  exact roomy.room id n own

/-- Where every frame has at least 256 bytes, a window is never cut too small. -/
theorem substantial_of_long {chunks : List Bytes} (long : ∀ chunk ∈ chunks, 256 ≤ chunk.length) :
    Substantial chunks := by
  intro written _ enough
  let burst := (chunks.drop written).take (inboxFrames + 1)
  have count : burst.length = inboxFrames + 1 := by
    rw [List.length_take, List.length_drop]
    omega
  have each : ∀ size ∈ burst.map List.length, 256 ≤ size := by
    intro size member
    obtain ⟨chunk, inside, rfl⟩ := List.mem_map.mp member
    exact long chunk (List.mem_of_mem_drop (List.mem_of_mem_take inside))
  have bytes := List.card_nsmul_le_sum _ 256 each
  rw [List.length_map, count, ← List.length_flatten] at bytes
  simp only [smul_eq_mul, inboxFrames] at bytes
  show window < (ledger (chunks.take written)).2 + burst.flatten.length
  simp only [window]
  omega

/-- A tunnel is up. -/
def tunnelUp : List ProxyAct :=
  (TunnelAct.begin (List.replicate 37 0) :: List.replicate 6 .proceed).map (.tunnel 0)

/-- A DATA frame of stream 1 is read, and its payload offered to the inbox. -/
def arrival (body : Bytes) : List ProxyAct :=
  [.link (.recv (Frame.encode ⟨1, .data, body⟩)), .link .advance]

/-- The downlink takes a chunk out of the inbox and writes it. -/
def writeOff (body : Bytes) : List ProxyAct :=
  [TunnelAct.recv, .write body.length, .wrote].map (.tunnel 0)

/-- Tunnel 0 runs on stream 1; the chunks have come for it, all of them have got
a place in its inbox, and the downlink has taken the first `taken`. -/
structure Proxy.Receiving (p : Proxy) (chunks : List Bytes) (taken : Nat) : Prop where
  reader : p.session.reader = .idle
  own : (p.tunnels 0).stream = some 0
  running : (p.tunnels 0).phase = .running
  entry : p.session.streams 1 = some 0
  named : (p.session.arena 0).id = 1
  since : (p.session.arena 0).since ≤ p.session.log.length
  heard : p.session.heard 0 = chunks
  opened : (p.session.arena 0).inbox.isOpen = true
  accepted : (p.session.arena 0).inbox.accepted = chunks
  taken : (p.session.arena 0).inbox.taken = taken

/-- A tunnel that is up has received nothing, has nothing in hand and owes
nothing; the bridge has kept to its credit. -/
theorem tunnelUp_receiving :
    ∃ p, run Proxy.step (.start 1) tunnelUp = some p ∧ p.Receiving [] 0 ∧
      (p.tunnels 0).downlink = .waiting ∧ (p.tunnels 0).pending = 0 ∧ (p.tunnels 0).granted = 0 ∧
      p.session.out.isOpen = true ∧ p.session.out.len < outboxFrames := by
  have checked : ((run Proxy.step (.start 1) tunnelUp).any fun p =>
      (p.session.reader = .idle ∧ (p.tunnels 0).stream = some 0 ∧ (p.tunnels 0).phase = .running ∧
      p.session.streams 1 = some 0 ∧ (p.session.arena 0).id = 1 ∧
      (p.session.arena 0).since ≤ p.session.log.length ∧ p.session.heard 0 = [] ∧
      (p.session.arena 0).inbox.isOpen = true ∧ (p.session.arena 0).inbox.accepted = [] ∧
      (p.session.arena 0).inbox.taken = 0) ∧
      (p.tunnels 0).downlink = .waiting ∧ (p.tunnels 0).pending = 0 ∧ (p.tunnels 0).granted = 0 ∧
      p.session.out.isOpen = true ∧ p.session.out.len < outboxFrames) = true := by decide +kernel
  obtain ⟨p, ran, holds, still⟩ := run_reaches checked
  obtain ⟨reader, own, running, entry, named, since, heard, opened, accepted, taken⟩ := holds
  exact ⟨p, ran, ⟨reader, own, running, entry, named, since, heard, opened, accepted, taken⟩, still⟩

/-- What a tunnel does is nothing the bridge sends. -/
private theorem meets_tunnel {ok : Proxy → ProxyAct → Prop} (own : ∀ p act, ok p (.tunnel 0 act)) (p : Proxy)
    (acts : List TunnelAct) : Meets Proxy.step ok p (acts.map (.tunnel 0)) := by
  apply meets_of_mem
  intro act member p
  obtain ⟨act, -, rfl⟩ := List.mem_map.mp member
  exact own p act

theorem honest_tunnel (p : Proxy) (acts : List TunnelAct) :
    Meets Proxy.step (Proxy.Honest 0) p (acts.map (.tunnel 0)) :=
  meets_tunnel (fun _ _ => trivial) p acts

private theorem spread_tunnel (p : Proxy) (acts : List TunnelAct) :
    Meets Proxy.step (Proxy.Spread 0) p (acts.map (.tunnel 0)) :=
  meets_tunnel (fun _ _ => trivial) p acts

section Receiving
variable {p : Proxy} {chunks : List Bytes} {taken : Nat} {body : Bytes}

/-- After the frame is read, with the reader at the given place. -/
private def Proxy.read (p : Proxy) (body : Bytes) (reader : Reader) : Proxy :=
  { p with session := { p.session with log := p.session.log ++ [⟨1, .data, body⟩], reader } }

/-- After its payload is in the inbox. -/
private def Proxy.poured (p : Proxy) (body : Bytes) : Proxy :=
  { p with session := { p.session with
      log := p.session.log ++ [⟨1, .data, body⟩]
      arena := Function.update p.session.arena 0 { p.session.arena 0 with
        inbox := (p.session.arena 0).inbox.push body } } }

private theorem parse_data (body : Bytes) :
    Frame.parse (Frame.encode ⟨1, .data, body⟩) = some ⟨1, .data, body⟩ :=
  Frame.parse_encode fun _ kind => nomatch kind

theorem Proxy.Receiving.hears (receiving : p.Receiving chunks taken) (body : Bytes) :
    p.session.hears 0 ⟨1, .data, body⟩ = chunks ++ [body] := by
  simp [Session.hears, receiving.heard, receiving.named, dataOn]

/-- Whether the next frame keeps to the credit. -/
theorem Proxy.Receiving.honest_iff (receiving : p.Receiving chunks taken) (body : Bytes) :
    Meets Proxy.step (Proxy.Honest 0) p (arrival body) ↔
      (chunks ++ [body]).flatten.length ≤ window + (p.tunnels 0).granted := by
  rw [← receiving.hears]
  constructor
  · intro met
    exact met.1 0 receiving.own _ (parse_data body)
  · intro within
    refine ⟨fun n own frame parsed => ?_, fun _ _ => ⟨trivial, fun _ _ => trivial⟩⟩
    cases receiving.own.symm.trans own
    cases (parse_data body).symm.trans parsed
    exact within

/-- And whether it is large enough. -/
theorem Proxy.Receiving.spread (receiving : p.Receiving chunks taken)
    (substantial : Substantial (chunks ++ [body])) :
    Meets Proxy.step (Proxy.Spread 0) p (arrival body) := by
  refine ⟨fun n own frame parsed => ?_, fun _ _ => ⟨trivial, fun _ _ => trivial⟩⟩
  cases receiving.own.symm.trans own
  cases (parse_data body).symm.trans parsed
  rw [receiving.hears]
  exact substantial

theorem Proxy.Receiving.len (receiving : p.Receiving chunks taken) :
    (p.session.arena 0).inbox.len = chunks.length - taken := by
  rw [Channel.len, receiving.accepted, receiving.taken]

private theorem reads (receiving : p.Receiving chunks taken) (short : body.length ≤ maxChunk) :
    p.step (.link (.recv (Frame.encode ⟨1, .data, body⟩))) = some (p.read body (.offer 1 0 body)) := by
  have record : (Frame.encode ⟨1, .data, body⟩).length ≤ maxNoiseMsg - tagLen := by
    rw [Frame.encode_length]
    simp only [maxChunk, maxNoiseMsg, tagLen, frameHead] at short ⊢
    omega
  simp only [Proxy.step, Session.step, receiving.reader, record, and_self, if_true, parse_data,
    Session.dispatch, receiving.entry]
  rfl

/-- A frame comes and has a place. -/
theorem Proxy.Receiving.arrives (receiving : p.Receiving chunks taken)
    (short : body.length ≤ maxChunk) (room : chunks.length < taken + inboxFrames) :
    ∃ next, run Proxy.step p (arrival body) = some next ∧
      next.Receiving (chunks ++ [body]) taken ∧ next.tunnels = p.tunnels ∧
        next.session.out = p.session.out := by
  have free : ¬ inboxFrames ≤ (p.session.arena 0).inbox.len := by
    rw [receiving.len]
    simp only [inboxFrames] at room ⊢
    omega
  have pushed : (p.read body (.offer 1 0 body)).step (.link .advance) = some (p.poured body) := by
    simp [Proxy.step, Session.step, Proxy.read, Proxy.poured, Channel.trySend, receiving.opened, free,
      Session.modify, receiving.reader]
  refine ⟨p.poured body, ?_, ?_, rfl, rfl⟩
  · exact run_cons.mpr ⟨_, reads receiving short, run_cons.mpr ⟨_, pushed, rfl⟩⟩
  · refine ⟨receiving.reader, receiving.own, receiving.running, receiving.entry, ?_, ?_, ?_, ?_, ?_, ?_⟩
    · simpa [Proxy.poured] using receiving.named
    · simpa [Proxy.poured] using Nat.le_succ_of_le receiving.since
    · have heard := receiving.heard
      simp only [Session.heard, Proxy.poured, Function.update_self] at heard ⊢
      rw [List.drop_append_of_le_length receiving.since, dataOn_append, heard, receiving.named]
      rfl
    · simpa [Proxy.poured] using receiving.opened
    · simp [Proxy.poured, receiving.accepted]
    · simp [Proxy.poured, receiving.taken]

/-- Frames of one size come one after the other and all have a place. -/
theorem Proxy.Receiving.fills (receiving : p.Receiving chunks taken) (count : Nat) (body : Bytes)
    (short : body.length ≤ maxChunk) (room : chunks.length + count ≤ taken + inboxFrames) :
    ∃ next, run Proxy.step p ((List.replicate count body).flatMap arrival) = some next ∧
      next.Receiving (chunks ++ List.replicate count body) taken ∧ next.tunnels = p.tunnels ∧
      next.session.out = p.session.out ∧
      (chunks.flatten.length + count * body.length ≤ window + (p.tunnels 0).granted →
        Meets Proxy.step (Proxy.Honest 0) p ((List.replicate count body).flatMap arrival)) ∧
      ((∀ chunk ∈ body :: chunks, 256 ≤ chunk.length) →
        Meets Proxy.step (Proxy.Spread 0) p ((List.replicate count body).flatMap arrival)) := by
  induction count generalizing p chunks with
  | zero =>
    rw [List.replicate_zero, List.append_nil]
    exact ⟨p, rfl, receiving, rfl, rfl, fun _ => trivial, fun _ => trivial⟩
  | succ count ih =>
    rw [List.replicate_succ]
    have bytes : (chunks ++ [body]).flatten.length = chunks.flatten.length + body.length := by simp
    obtain ⟨mid, came, more, tunnels, out⟩ := receiving.arrives short (by omega)
    obtain ⟨next, ran, full, tunnels', out', honest, spread⟩ := ih more
      (by rw [List.length_append, List.length_singleton]; omega)
    rw [List.append_assoc] at full
    refine ⟨next, run_append.mpr ⟨mid, came, ran⟩, full, tunnels'.trans tunnels, out'.trans out, ?_, ?_⟩
    · intro within
      rw [Nat.succ_mul] at within
      refine ((receiving.honest_iff body).mpr ?_).append came (honest ?_)
      · rw [bytes]
        omega
      · rw [bytes, tunnels]
        omega
    · intro long
      have longer : ∀ chunk ∈ chunks ++ [body], 256 ≤ chunk.length :=
        fun chunk member => long chunk (by simpa [or_comm] using member)
      refine (receiving.spread (substantial_of_long longer)).append came (spread fun chunk member => ?_)
      obtain rfl | inside := List.mem_cons.mp member
      · exact long chunk (List.mem_cons_self)
      · exact longer chunk inside

/-- A frame comes and finds the inbox full. -/
theorem Proxy.Receiving.overflows (receiving : p.Receiving chunks taken) (body : Bytes)
    (short : body.length ≤ maxChunk) (full : taken + inboxFrames ≤ chunks.length) :
    ∃ next, run Proxy.step p (arrival body) = some next ∧ (next.tunnels 0).stream = some 0 ∧
      next.session.reader = .overflow 1 0 := by
  have no : inboxFrames ≤ (p.session.arena 0).inbox.len := by
    rw [receiving.len]
    omega
  have refused : (p.read body (.offer 1 0 body)).step (.link .advance) =
      some (p.read body (.overflow 1 0)) := by
    simp [Proxy.step, Session.step, Proxy.read, Channel.trySend, receiving.opened, no]
  refine ⟨p.read body (.overflow 1 0), ?_, receiving.own, rfl⟩
  exact run_cons.mpr ⟨_, reads receiving short, run_cons.mpr ⟨_, refused, rfl⟩⟩

/-- The downlink takes the next chunk out of the inbox. -/
theorem Proxy.Receiving.takes (receiving : p.Receiving chunks taken)
    (waiting : (p.tunnels 0).downlink = .waiting) (there : chunks[taken]? = some body) :
    ∃ next, p.step (.tunnel 0 .recv) = some next ∧ next.Receiving chunks (taken + 1) ∧
      next.tunnels 0 = { p.tunnels 0 with downlink := .writing body body.length } ∧
      next.session.out = p.session.out := by
  obtain ⟨inside, rfl⟩ := List.getElem?_eq_some_iff.mp there
  have queue : (p.session.arena 0).inbox.queue = chunks[taken] :: chunks.drop (taken + 1) := by
    rw [Channel.queue, receiving.accepted, receiving.taken, List.drop_eq_getElem_cons inside]
  have one : ((p.session.arena 0).inbox.advance 1).taken = taken + 1 := by
    simp only [Channel.advance, Channel.len, receiving.accepted, receiving.taken]
    omega
  have took : p.session.take 0 = some (chunks[taken], p.session.modify 0 fun st =>
      { st with inbox := (p.session.arena 0).inbox.advance 1 }) := by
    simp only [Session.take, Channel.recv, queue, Option.map_some]
  have stepped : p.step (.tunnel 0 .recv) = some (p.put 0
      (p.session.modify 0 fun st => { st with inbox := (p.session.arena 0).inbox.advance 1 })
      { p.tunnels 0 with downlink := .writing chunks[taken] chunks[taken].length }) := by
    simp only [Proxy.step, Session.tunnelStep, receiving.running, receiving.own, Session.downlinkStep,
      waiting, if_true, took, Option.map_some]
  refine ⟨_, stepped, ?_, Proxy.put_self _ _ _ _, rfl⟩
  refine ⟨receiving.reader, by simp [receiving.own], by simp [receiving.running], receiving.entry,
    ?_, ?_, ?_, ?_, ?_, ?_⟩
  · simpa [Session.modify] using receiving.named
  · simpa [Session.modify] using receiving.since
  · simpa [Session.modify, Session.heard] using receiving.heard
  · simpa [Session.modify] using receiving.opened
  · simpa [Session.modify] using receiving.accepted
  · simpa [Session.modify] using one

/-- A client that reads: the next chunk is taken, written and counted. -/
theorem Proxy.Receiving.drains (receiving : p.Receiving chunks taken)
    (waiting : (p.tunnels 0).downlink = .waiting) (there : chunks[taken]? = some body)
    (bytes : body ≠ []) (few : (p.tunnels 0).pending + body.length < 2 ^ 32) :
    ∃ next, run Proxy.step p (writeOff body) = some next ∧ next.Receiving chunks (taken + 1) ∧
      (next.tunnels 0).pending = (p.tunnels 0).pending + body.length ∧
      (next.tunnels 0).granted = (p.tunnels 0).granted ∧
      (next.tunnels 0).downlink =
        (if grantThreshold ≤ (p.tunnels 0).pending + body.length then .granting else .waiting) ∧
      next.session.out = p.session.out := by
  obtain ⟨mid, took, more, tunnel, out⟩ := receiving.takes waiting there
  have running : (p.tunnels 0).phase = .running := receiving.running
  have own : (p.tunnels 0).stream = some 0 := receiving.own
  have some : 0 < body.length := List.length_pos_iff.mpr bytes
  let last : Proxy := mid.put 0 mid.session { p.tunnels 0 with
    downlink := .writing [] body.length, writes := (p.tunnels 0).writes ++ body }
  have wrote : mid.step (.tunnel 0 (.write body.length)) = .some last := by
    simp [Proxy.step, Session.tunnelStep, tunnel, running, own, Session.downlinkStep, last, some]
  let next : Proxy := last.put 0 mid.session { p.tunnels 0 with
    downlink := if grantThreshold ≤ (p.tunnels 0).pending + body.length then .granting else .waiting
    writes := (p.tunnels 0).writes ++ body
    pending := (p.tunnels 0).pending + body.length }
  have counted : last.step (.tunnel 0 .wrote) = .some next := by
    have fits : ((p.tunnels 0).pending + body.length) % 4294967296 = (p.tunnels 0).pending + body.length :=
      Nat.mod_eq_of_lt few
    simp [Proxy.step, Session.tunnelStep, last, next, running, own, Session.downlinkStep, fits]
  refine ⟨next, ?_, ?_, by simp [next], by simp [next], by simp [next], out⟩
  · exact run_cons.mpr ⟨_, took, run_cons.mpr ⟨_, wrote, run_cons.mpr ⟨_, counted, rfl⟩⟩⟩
  · exact ⟨more.reader, by simp [next, own], by simp [next, running], more.entry, more.named, more.since,
      more.heard, more.opened, more.accepted, more.taken⟩

/-- What is due is granted. -/
theorem Proxy.Receiving.grants (receiving : p.Receiving chunks taken)
    (granting : (p.tunnels 0).downlink = .granting) (live : p.session.out.isOpen = true)
    (room : p.session.out.len < outboxFrames) :
    ∃ next, p.step (.tunnel 0 .grant) = some next ∧ next.Receiving chunks taken ∧
      (next.tunnels 0).granted = (p.tunnels 0).granted + (p.tunnels 0).pending := by
  let granted : Tunnel := { p.tunnels 0 with
    downlink := .waiting, pending := 0, granted := (p.tunnels 0).granted + (p.tunnels 0).pending }
  let queued : Session := { p.session with
    out := p.session.out.push (.grant (p.session.arena 0).id (p.tunnels 0).pending) }
  have stepped : p.step (.tunnel 0 .grant) = some (p.put 0 queued granted) := by
    simp [Proxy.step, Session.tunnelStep, receiving.running, receiving.own, Session.downlinkStep,
      granting, Session.sends, Session.enqueue, live, room, queued, granted]
  refine ⟨_, stepped, ?_, by simp [granted]⟩
  exact ⟨receiving.reader, by simp [granted, receiving.own], by simp [granted, receiving.running],
    receiving.entry, receiving.named, receiving.since, receiving.heard, receiving.opened,
    receiving.accepted, receiving.taken⟩

end Receiving

/-- A payload that fills a record. -/
def fullRecord : Bytes := List.replicate maxChunk 0

theorem fullRecord_length : fullRecord.length = maxChunk := List.length_replicate

theorem fullRecords_length (count : Nat) :
    (List.replicate count fullRecord).flatten.length = count * maxChunk := by
  rw [fullRecord, List.flatten_replicate_replicate, List.length_replicate]

/-- The client reads three full records, and the downlink grants them back. -/
private theorem three_records_granted :
    ∃ actions p, run Proxy.step (.start 1) actions = some p ∧
      p.Receiving (List.replicate 3 fullRecord) 3 ∧ (p.tunnels 0).granted = 3 * maxChunk ∧
      Meets Proxy.step (Proxy.Honest 0) (.start 1) actions ∧
      Meets Proxy.step (Proxy.Spread 0) (.start 1) actions := by
  have size := fullRecord_length
  have bytes : fullRecord ≠ [] := List.ne_nil_of_length_pos (by rw [size]; decide)
  obtain ⟨p, up, idle, waiting, pending, granted, live, room⟩ := tunnelUp_receiving
  obtain ⟨p₀, came, full, same, out₀, honest, spread⟩ := idle.fills 3 fullRecord
    (Nat.le_of_eq size) (by decide)
  have granted₀ := granted
  rw [← same] at waiting pending granted
  -- The threshold lies between two and three records.
  obtain ⟨p₁, one, read₁, pending₁, granted₁, waiting₁, out₁⟩ :=
    full.drains waiting (show _ = some fullRecord from rfl) bytes (by rw [pending, size]; decide)
  rw [pending, size] at pending₁ waiting₁
  obtain ⟨p₂, two, read₂, pending₂, granted₂, waiting₂, out₂⟩ :=
    read₁.drains waiting₁ (show _ = some fullRecord from rfl) bytes (by rw [pending₁, size]; decide)
  rw [pending₁, size] at pending₂ waiting₂
  obtain ⟨p₃, three, read₃, pending₃, granted₃, granting, out₃⟩ :=
    read₂.drains waiting₂ (show _ = some fullRecord from rfl) bytes (by rw [pending₂, size]; decide)
  rw [pending₂, size] at pending₃ granting
  have out : p₃.session.out = p.session.out := by rw [out₃, out₂, out₁, out₀]
  rw [← out] at live room
  obtain ⟨last, given, all, total⟩ := read₃.grants granting live room
  let served := writeOff fullRecord ++ (writeOff fullRecord ++ (writeOff fullRecord ++ [.tunnel 0 .grant]))
  have asks : served = [TunnelAct.recv, .write maxChunk, .wrote, .recv, .write maxChunk, .wrote, .recv,
      .write maxChunk, .wrote, .grant].map (.tunnel 0) := by
    simp [served, writeOff, size]
  refine ⟨tunnelUp ++ ((List.replicate 3 fullRecord).flatMap arrival ++ served), last, ?_, all, ?_, ?_, ?_⟩
  · refine run_append.mpr ⟨p, up, run_append.mpr ⟨p₀, came, ?_⟩⟩
    refine run_append.mpr ⟨p₁, one, run_append.mpr ⟨p₂, two, run_append.mpr ⟨p₃, three, ?_⟩⟩⟩
    exact run_cons.mpr ⟨last, given, rfl⟩
  · rw [total, granted₃, granted₂, granted₁, granted, pending₃]
    rfl
  · rw [asks]
    refine (honest_tunnel _ _).append up ((honest ?_).append came (honest_tunnel _ _))
    rw [size, granted₀]
    decide
  · rw [asks]
    refine (spread_tunnel _ _).append up ((spread fun chunk member => ?_).append came (spread_tunnel _ _))
    rw [List.mem_singleton.mp member, size]
    decide

/-- The client reads three full records and then nothing: all the bridge may
send after the grant comes in 1024 frames and fills the inbox to its last place. -/
theorem honest_bridge_never_overflows_full :
    ∃ actions p, run Proxy.step (.start 1) actions = some p ∧
      Meets Proxy.step (Proxy.Honest 0) (.start 1) actions ∧
      Meets Proxy.step (Proxy.Spread 0) (.start 1) actions ∧ (p.tunnels 0).stream = some 0 ∧
      (p.session.heard 0).length = 3 + inboxFrames ∧ (p.session.arena 0).inbox.len = inboxFrames ∧
      p.session.reader ≠ .overflow 1 0 := by
  let body : Bytes := List.replicate 256 0
  have size : body.length = 256 := List.length_replicate
  obtain ⟨before, p, ran, read, granted, honest, spread⟩ := three_records_granted
  obtain ⟨last, came, full, -, -, honest', spread'⟩ := read.fills inboxFrames body
    (by rw [size]; decide) (Nat.le_of_eq (by rw [List.length_replicate]))
  have allHonest := honest.append ran (honest' (by
    rw [size, granted, fullRecords_length]
    decide))
  have allSpread := spread.append ran (spread' fun chunk member => by
    obtain rfl | record := List.mem_cons.mp member
    · exact Nat.le_of_eq size.symm
    · rw [List.eq_of_mem_replicate record, fullRecord_length]
      decide)
  have whole := run_append.mpr ⟨p, ran, came⟩
  refine ⟨_, last, whole, allHonest, allSpread, full.own, ?_, ?_, ?_⟩
  · rw [full.heard, List.length_append, List.length_replicate, List.length_replicate]
  · rw [full.len, List.length_append, List.length_replicate, List.length_replicate, Nat.add_sub_cancel_left]
  · exact honest_bridge_never_overflows 1 0 _ allHonest allSpread whole 1 full.own

/-- A bridge that sends a thousand bytes of its quarter-megabyte window one by
one loses the stream of a client that does not read. -/
theorem honest_bridge_overflows :
    ∃ actions p, run Proxy.step (.start 1) actions = some p ∧
      Meets Proxy.step (Proxy.Honest 0) (.start 1) actions ∧
      (p.tunnels 0).stream = some 0 ∧ p.session.reader = .overflow 1 0 := by
  obtain ⟨p, up, idle, waiting, -, granted, -⟩ := tunnelUp_receiving
  -- The downlink takes the first byte and waits for the client to accept it.
  obtain ⟨p₁, first, one, same, -⟩ := idle.arrives (show [7].length ≤ maxChunk by decide) (by decide)
  rw [← same] at waiting granted
  obtain ⟨p₂, took, stalled, tunnel, -⟩ := one.takes waiting (show _ = some [7] from rfl)
  have granted₂ : (p₂.tunnels 0).granted = 0 := by rw [tunnel]; exact granted
  obtain ⟨p₃, drip, full, same₃, -, honest, -⟩ := stalled.fills inboxFrames [7] (by decide)
    (by decide)
  obtain ⟨last, spills, own, reader⟩ := full.overflows [7] (by decide)
    (by rw [List.length_append, List.length_replicate]; rfl)
  let actions := arrival [7] ++ (.tunnel 0 .recv ::
    ((List.replicate inboxFrames [7]).flatMap arrival ++ arrival [7]))
  refine ⟨tunnelUp ++ actions, last, ?_, ?_, own, reader⟩
  · refine run_append.mpr ⟨p, up, run_append.mpr ⟨p₁, first, run_cons.mpr ⟨p₂, took, ?_⟩⟩⟩
    exact run_append.mpr ⟨p₃, drip, spills⟩
  · refine (honest_tunnel _ _).append up (((idle.honest_iff [7]).mpr ?_).append first ?_)
    · exact Nat.le_trans (show 1 ≤ window by decide) (Nat.le_add_right _ _)
    refine ⟨trivial, fun next stepped => ?_⟩
    cases took.symm.trans stepped
    refine (honest ?_).append drip ((full.honest_iff [7]).mpr (Nat.le_trans ?_ (Nat.le_add_right _ _)))
    · rw [granted₂]
      decide
    · rw [List.flatten_append, List.length_append, List.flatten_append, List.length_append,
        List.flatten_replicate_singleton, List.length_replicate]
      decide

end DshProxy.Mux

import DshProxy.LinkBytes

/-! A link in the hands of somebody else. The bytes that reach the reader are
whatever an adversary makes of them, and the tunnels and their clients go on as ever.
What `NoiseDecoder` opens at a nonce is what was sealed at it, so the adversary can
cut a conversation short and no more. -/
namespace DshProxy.Mux
open Sync Wire Transitions

/-- A link with its tunnels and their clients, and the reader's half of its cable:
what is on the socket is anybody's. -/
structure Exposed where
  splice : Splice
  cable : Cable := {}

inductive ExposedAct
  /-- The waiting reader gets some bytes. -/
  | reads (bytes : Bytes)
  | hears
  | splice (act : SpliceAct)
  deriving DecidableEq, Repr

namespace Exposed

abbrev session (e : Exposed) : Session := e.splice.proxy.session

def step (transport : Transport) (e : Exposed) : ExposedAct → Option Exposed
  | .reads bytes =>
    if e.session.reader = .idle ∧ (e.cable.next transport).isNone then
      some { e with cable := { e.cable with buffered := e.cable.buffered ++ bytes } }
    else none
  | .hears => (e.session.atCable transport e.cable).map fun (cable, session) =>
    { splice := { e.splice with proxy := { e.splice.proxy with session } }, cable }
  | .splice (.link (.recv _)) => none
  | .splice act => (e.splice.step act).map fun splice => { e with splice }

def start (maxStreams : Nat) : Exposed := { splice := .start maxStreams }

/-- What has been read is a front part of what was sealed, and as long as the reader
goes on, its nonce counts it. -/
structure Heeds (e : Exposed) (sealed : List Frame) : Prop where
  front : e.session.log <+: sealed.map Frame.readBack
  counted : e.session.reader.isAlive = true → e.cable.decoder.nonce = e.session.log.length

end Exposed

variable {transport : Transport} {sealed : List Frame} {e next : Exposed} {s s' : Session} {act : Session.Act}

/-- A reader that has gone wrong does not come back. -/
theorem step_alive (stepped : s.step act = some s') (alive : s'.reader.isAlive = true) :
    s.reader.isAlive = true := by
  cases step_move stepped with
  | short _ idle | heard _ _ idle | lapse idle => rw [idle]; rfl
  | admits _ reading | admitsNobody _ reading | delivers _ _ _ reading | drops _ _ _ reading
  | overflows _ _ _ reading | evicts _ _ reading => rw [reading]; rfl
  | dies | ends | readerAborted => cases alive
  | replies frame reading | replyFails frame reading =>
    cases stands : s.reader <;> rw [stands] at reading <;> first
      | rfl
      | cases reading
  | shutdownClear => exact alive
  | _ => exact alive

/-- Whatever the splice does of its own changes neither what was read nor, for the
better, how the reader is. -/
private theorem splice_reader {act : SpliceAct} {before after : Splice} (own : ∀ plain, act ≠ .link (.recv plain))
    (stepped : before.step act = some after) :
    after.proxy.session.log = before.proxy.session.log ∧
      (after.proxy.session.reader.isAlive = true → before.proxy.session.reader.isAlive = true) := by
  have moved {name : Nat} {act : TunnelAct} {proxy : Proxy}
      (did : before.proxy.step (.tunnel name act) = some proxy) :
      proxy.session.log = before.proxy.session.log ∧
        (proxy.session.reader.isAlive = true → before.proxy.session.reader.isAlive = true) := by
    obtain ⟨⟨session, tunnel⟩, move, rfl⟩ := Option.map_eq_some_iff.mp did
    have quiet := (tunnelStep_move move).quiet
    exact ⟨quiet.log, fun alive => quiet.reader ▸ alive⟩
  cases act with
  | link act =>
    obtain ⟨proxy, did, rfl⟩ := Option.map_eq_some_iff.mp stepped
    obtain ⟨session, moved, rfl⟩ := Option.map_eq_some_iff.mp did
    refine ⟨?_, step_alive moved⟩
    obtain same | ⟨plain, _, here, -⟩ := step_log moved
    · exact same
    · exact absurd (congrArg SpliceAct.link here) (own plain)
  | tunnel name act =>
    obtain ⟨-, stepped⟩ := Option.ite_none_left_eq_some.mp stepped
    obtain ⟨proxy, did, rfl⟩ := Option.map_eq_some_iff.mp stepped
    exact moved did
  | client name act =>
    obtain ⟨⟨c, did⟩, -, put⟩ := Option.bind_eq_some_iff.mp stepped
    cases did with
    | none =>
      cases put
      exact ⟨rfl, id⟩
    | some act =>
      obtain ⟨proxy, did, rfl⟩ := Option.map_eq_some_iff.mp put
      exact moved did

/-- One more front element. -/
private theorem front_snoc {α : Type} {front all : List α} {a : α} (leads : front <+: all)
    (there : all[front.length]? = some a) : front ++ [a] <+: all := by
  have same := List.prefix_iff_eq_take.mp leads
  have more : all.take (front.length + 1) = front ++ [a] := by
    rw [List.take_add_one, there, ← same]
    rfl
  exact more ▸ List.take_prefix _ _

/-- Whatever the bytes are, the reader gets the frame that was sealed next, or its
last error. -/
theorem Exposed.Heeds.hears (heeds : e.Heeds sealed) (ideal : transport.Ideal (sealed.map Frame.encode))
    (few : sealed.length < 2 ^ 64) (stepped : e.step transport .hears = some next) : next.Heeds sealed := by
  obtain ⟨⟨cable, session⟩, did, rfl⟩ := Option.map_eq_some_iff.mp stepped
  obtain ⟨idle, did⟩ := Option.ite_none_right_eq_some.mp did
  obtain ⟨⟨taken, got⟩, came, did⟩ := Option.bind_eq_some_iff.mp did
  obtain ⟨session, read, same⟩ := Option.map_eq_some_iff.mp did
  cases same
  have counted := heeds.counted (by rw [idle]; rfl)
  have decodes := decode_decodes transport e.cable.decoder e.cable.buffered
  unfold Cable.next at came
  split at came <;> rename_i decoded <;> cases came <;> rw [decoded] at decodes
  · rename_i plain
    cases decodes with
    | opens _ enough opened =>
      obtain ⟨member, -⟩ := (ideal _ _ _).mp opened
      rw [List.getElem?_map, Option.map_eq_some_iff, counted] at member
      obtain ⟨frame, stands, rfl⟩ := member
      have within : e.session.log.length < sealed.length := (List.getElem?_eq_some_iff.mp stands).1
      cases step_move read with
      | short _ _ bad =>
        rw [Frame.parse_encode_eq] at bad
        cases bad
      | heard _ parsed _ _ same heard =>
        rw [Frame.parse_encode_eq] at same
        cases same
        refine ⟨?_, fun _ => ?_⟩
        · dsimp only [Exposed.session]
          rw [heard.log]
          refine front_snoc heeds.front ?_
          rw [List.getElem?_map, stands]
          rfl
        · dsimp only [Exposed.session]
          rw [heard.log, List.length_append, List.length_singleton, counted, Nat.mod_eq_of_lt (by omega)]
  · cases step_move read with
    | lapse => exact ⟨heeds.front, fun alive => by cases alive⟩

theorem Exposed.Heeds.step {act : ExposedAct} (heeds : e.Heeds sealed)
    (ideal : transport.Ideal (sealed.map Frame.encode)) (few : sealed.length < 2 ^ 64)
    (stepped : e.step transport act = some next) : next.Heeds sealed := by
  cases act with
  | reads bytes =>
    obtain ⟨-, same⟩ := Option.ite_none_right_eq_some.mp stepped
    cases same
    exact ⟨heeds.front, heeds.counted⟩
  | hears => exact heeds.hears ideal few stepped
  | splice act =>
    have own : ∀ plain, act ≠ .link (.recv plain) := by
      rintro plain rfl
      cases stepped
    have did : (e.splice.step act).map (fun splice => { e with splice }) = some next := by
      cases act with
      | link act =>
        cases act with
        | recv plain => exact absurd rfl (own plain)
        | _ => exact stepped
      | _ => exact stepped
    obtain ⟨splice, moved, rfl⟩ := Option.map_eq_some_iff.mp did
    obtain ⟨log, reader⟩ := splice_reader own moved
    refine ⟨?_, fun alive => ?_⟩
    · exact log ▸ heeds.front
    · exact (heeds.counted (reader alive)).trans (congrArg List.length log).symm

/-- Without the bytes, an exposed link is a link whose reader gets anything. -/
theorem exposed_simulates (transport : Transport) :
    Simulates (Exposed.step transport) (fun _ _ => True) Splice.step (fun _ _ => True)
      (fun e splice => e.splice = splice) := by
  rintro e act next _ rfl - stepped
  cases act with
  | reads bytes =>
    obtain ⟨-, same⟩ := Option.ite_none_right_eq_some.mp stepped
    cases same
    exact .stutter rfl
  | hears =>
    obtain ⟨⟨cable, session⟩, did, rfl⟩ := Option.map_eq_some_iff.mp stepped
    obtain ⟨-, did⟩ := Option.ite_none_right_eq_some.mp did
    obtain ⟨⟨taken, got⟩, -, did⟩ := Option.bind_eq_some_iff.mp did
    obtain ⟨session, read, same⟩ := Option.map_eq_some_iff.mp did
    cases same
    have linked (act : Session.Act) (read : e.splice.proxy.session.step act = some session) :
        e.splice.step (.link act) = some { e.splice with proxy := { e.splice.proxy with session } } := by
      simp only [Splice.step, Proxy.step, read, Option.map_some]
    exact .follow (linked _ read) trivial rfl
  | splice act =>
    have did : (e.splice.step act).map (fun splice => { e with splice }) = some next := by
      cases act with
      | link act =>
        cases act with
        | recv plain => cases stepped
        | _ => exact stepped
      | _ => exact stepped
    obtain ⟨splice, moved, rfl⟩ := Option.map_eq_some_iff.mp did
    exact .follow moved trivial rfl

/-- What the header parse gives it gives again. -/
theorem Frame.parse_readBack {plain : Bytes} {frame : Frame} (parsed : Frame.parse plain = some frame) :
    frame.readBack = frame := by
  obtain ⟨-, same⟩ := Option.ite_none_left_eq_some.mp parsed
  cases same
  simp [Frame.readBack]

/-- Every frame that a reader gives out was parsed. -/
theorem receive_readBack (transport : Transport) (reads : List Bytes) :
    ∀ frame ∈ (LinkReader.receive transport reads).frames, frame.readBack = frame := by
  have next {r r' : LinkReader} (all : ∀ frame ∈ r.frames, frame.readBack = frame)
      (stepped : r.next transport = some r') : ∀ frame ∈ r'.frames, frame.readBack = frame := by
    unfold LinkReader.next at stepped
    obtain ⟨-, stepped⟩ := Option.ite_none_left_eq_some.mp stepped
    split at stepped
    · cases stepped
    · cases stepped
      exact all
    · split at stepped
      · cases stepped
        exact all
      · rename_i frame parsed
        cases stepped
        intro other member
        obtain old | new := List.mem_append.mp member
        · exact all other old
        · obtain rfl := List.mem_singleton.mp new
          exact Frame.parse_readBack parsed
  have drain (fuel : Nat) {r : LinkReader} (all : ∀ frame ∈ r.frames, frame.readBack = frame) :
      ∀ frame ∈ (r.drain transport fuel).frames, frame.readBack = frame := by
    induction fuel generalizing r with
    | zero => exact all
    | succ fuel ih =>
      unfold LinkReader.drain
      split
      · exact all
      · rename_i r' stepped
        exact ih (next all stepped)
  have fold {r : LinkReader} (all : ∀ frame ∈ r.frames, frame.readBack = frame) :
      ∀ frame ∈ (reads.foldl (LinkReader.arrive transport) r).frames, frame.readBack = frame := by
    induction reads generalizing r with
    | nil => exact all
    | cons bytes rest ih => exact ih (drain _ all)
  exact fold fun _ member => (List.not_mem_nil member).elim

/-- Over an ideal cipher the peer reads a front part of what the writer has sealed,
whatever has become of the bytes. -/
theorem hostile_reads_front {s : Session} (proper : ∀ frame ∈ s.out.accepted, frame.Proper)
    (ideal : transport.Ideal ((s.out.accepted.take s.fed).map Frame.encode)) (few : s.fed < 2 ^ 64)
    (reads : List Bytes) : (LinkReader.receive transport reads).frames <+: s.out.accepted := by
  have short : (s.out.accepted.take s.fed).length < 2 ^ 64 :=
    Nat.lt_of_le_of_lt (List.length_take_le _ _) few
  have front := (receive_follows ideal short reads).front
  have back (frames : List Frame) (all : ∀ frame ∈ frames, frame.readBack = frame) :
      (frames.map Frame.triple).map (fun (id, code, payload) => (⟨id, .ofByte code, payload⟩ : Frame)) = frames := by
    rw [List.map_map]
    exact (List.map_congr_left all).trans (List.map_id frames)
  have mapped := List.IsPrefix.map (fun (id, code, payload) => (⟨id, .ofByte code, payload⟩ : Frame)) front
  rw [back _ (receive_readBack transport reads), back _ fun frame member =>
    (proper frame (List.mem_of_mem_take member)).readBack] at mapped
  exact mapped.trans (List.take_prefix _ _)

/-- An adversary on the link. It makes of the bytes what it likes, in both directions;
the ciphers open at a nonce what was sealed at it and nothing else. As long as no OPEN
that the peer sealed has been read and neither ids nor nonces have run out, whatever it
does, what the peer reads on a stream is a front part of what the one client behind it
has sent, and what a client is shown is a front part of what the peer has sealed for its
stream from some point on: bytes can be withheld, not changed, moved or made up. -/
theorem adversaries_only_withhold {maxStreams : Nat} {actions : List ExposedAct} {final : Exposed}
    {up down : Transport} (ran : run (Exposed.step down) (.start maxStreams) actions = some final)
    (unopened : final.session.Unopened) (fewIds : final.session.nextId < 2 ^ 32)
    (upIdeal : up.Ideal ((final.session.out.accepted.take final.session.fed).map Frame.encode))
    (fewUp : final.session.fed < 2 ^ 64)
    (downIdeal : down.Ideal (sealed.map Frame.encode)) (fewDown : sealed.length < 2 ^ 64) :
    (∀ reads id, id ≠ 0 → dataOn id (LinkReader.receive up reads).frames ≠ [] →
      ∃ name, final.splice.proxy.Given name id ∧
        (∀ other, final.splice.proxy.Given other id → other = name) ∧
        (dataOn id (LinkReader.receive up reads).frames).flatten <+:
          Ws.dataBytes (final.splice.clients name).arrived) ∧
    ∀ name id, final.splice.proxy.Given name id → ∃ since,
      (final.splice.proxy.tunnels name).writes <+:
        (dataOn id ((sealed.map Frame.readBack).drop since)).flatten ∧
      ∃ fs, Ws.readOutput ((final.splice.clients name).stream.inner.sent ++
          (final.splice.clients name).stream.outgoing) = some fs ∧
        Ws.binaryOf fs <+: (dataOn id ((sealed.map Frame.readBack).drop since)).flatten := by
  have heeds : final.Heeds sealed := run_preserves (Exposed.Heeds · sealed)
    (fun _ _ _ heeds stepped => heeds.step downIdeal fewDown stepped)
    ⟨List.nil_prefix, fun _ => rfl⟩ ran
  have start : (Exposed.start maxStreams).splice = .start maxStreams := rfl
  obtain ⟨splice, rfl, faithful⟩ := (exposed_simulates down).always start
    (meets_of_mem fun _ _ _ => trivial) ran fun _ _ matched _ => Splice.Faithful.run matched
  have uplinks := faithful.proxy.uplinks unopened fewIds
  have sound := faithful.proxy.sound
  refine ⟨fun reads id stream present => ?_, fun name id given => ?_⟩
  · have front := hostile_reads_front faithful.proxy.proper upIdeal fewUp reads
    obtain ⟨name, given⟩ : ∃ name, final.splice.proxy.Given name id := by
      obtain ⟨payload, member⟩ := List.exists_mem_of_ne_nil _ present
      obtain ⟨frame, read, about⟩ := List.mem_filterMap.mp member
      obtain ⟨⟨same, kind⟩, -⟩ := Option.ite_none_right_eq_some.mp about
      obtain zero | ⟨name, k, own, alike⟩ := uplinks.attributed frame (front.subset read) kind
      · exact absurd (same.symm.trans zero) stream
      · exact ⟨name, k, own, alike.trans same⟩
    refine ⟨name, given, ?_, ?_⟩
    · rintro other ⟨k, theirs, same⟩
      obtain ⟨n, own, named⟩ := given
      have shared := uplinks.ids.apart n k (sound.known own) (sound.known theirs) (named.trans same.symm)
      exact (sound.apart own (shared ▸ theirs)).symm
    · exact (dataOn_front front).trans (queued_front faithful uplinks given)
  · obtain ⟨n, own, rfl⟩ := given
    have heard : (final.session.heard n).flatten <+: (dataOn (final.session.arena n).id
        ((sealed.map Frame.readBack).drop (final.session.arena n).since)).flatten := by
      refine dataOn_front ?_
      obtain ⟨rest, whole⟩ := heeds.front
      rw [← whole, List.drop_append]
      exact List.prefix_append _ _
    obtain ⟨writes, fs, output, shown⟩ := client_reads faithful own
    exact ⟨_, writes.trans heard, fs, output, shown.trans heard⟩

private def twoBytes : List Frame := [⟨1, .data, [7]⟩, ⟨1, .data, [8]⟩]

private def preambleFrame : Bytes :=
  [0x82, 0x80 + 39, 0, 0, 0, 0] ++ magicClient ++ [version] ++ List.replicate 32 5 ++ [0x68, 0x69]

/-- The record of the first frame, and that of the second with a byte changed. -/
private def firstRecord : Bytes := record (.recorded []) 0 ⟨1, .data, [7]⟩

private def changedRecord : Bytes := (record (.recorded []) 1 ⟨1, .data, [8]⟩).set 10 9

private def spokenUp : List ExposedAct :=
  [.splice (.client 0 (.arrive preambleFrame)), .splice (.client 0 .preamble), .splice (.client 0 .serve),
    .splice (.tunnel 0 .proceed), .splice (.tunnel 0 .proceed), .splice (.tunnel 0 .proceed),
    .splice (.tunnel 0 .proceed), .splice (.tunnel 0 .proceed), .splice (.tunnel 0 .proceed),
    .splice (.client 0 (.read 16384)), .splice (.tunnel 0 .uplinkSend), .splice (.tunnel 0 .uplinkSend),
    .splice (.link (.takeBatch 3)), .splice (.link .feed), .splice (.link .feed), .splice (.link .feed)]

private def spokenDown : List ExposedAct :=
  [.reads firstRecord, .hears, .splice (.link .advance), .splice (.tunnel 0 .recv), .reads changedRecord, .hears,
    .splice (.client 0 (.writable [.accept 100])), .splice (.client 0 .write), .splice (.tunnel 0 .wrote)]

/-- The client's preamble and two bytes go up; the adversary lets one of the bridge's
frames through and changes the other. -/
private def tampered : List ExposedAct := spokenUp ++ spokenDown

theorem adversaries_only_withhold_tampered :
    ∃ final, run (Exposed.step (.recorded (twoBytes.map Frame.encode))) (.start 1) tampered = some final ∧
      final.session.reader = .dying ∧ (final.splice.proxy.tunnels 0).writes = [7] ∧
      ∃ since, (final.splice.proxy.tunnels 0).writes <+:
        (dataOn 1 ((twoBytes.map Frame.readBack).drop since)).flatten := by
  have checked : ((run (Exposed.step (.recorded (twoBytes.map Frame.encode))) (.start 1) tampered).any fun final =>
      decide (final.session.reader = .dying ∧ (final.splice.proxy.tunnels 0).writes = [7] ∧
        (final.splice.proxy.tunnels 0).stream = some 0 ∧ (final.session.arena 0).id = 1 ∧
        final.session.nextId = 2 ∧ final.session.fed = 3 ∧ final.session.log = [⟨1, .data, [7]⟩])) = true := by
    decide +kernel
  obtain ⟨final, ran, dying, writes, own, id, counter, fed, log⟩ := run_reaches checked
  have unopened : final.session.Unopened := by
    intro frame member
    rw [log] at member
    rw [List.mem_singleton.mp member]
    simp
  obtain ⟨-, down⟩ := adversaries_only_withhold ran unopened (by rw [counter]; decide)
    (Transport.recorded_ideal _) (by rw [fed]; decide) (Transport.recorded_ideal _) (by decide)
  obtain ⟨since, shown, -⟩ := down 0 1 ⟨0, own, id⟩
  exact ⟨final, ran, dying, writes, since, shown⟩

end DshProxy.Mux

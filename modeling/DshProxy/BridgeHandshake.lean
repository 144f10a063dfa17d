import DshProxy.NoiseCodec
import DshProxy.ReadExact
import DshProxy.Routing

/-! The responder of the bridge link's handshake, `xx_respond`, with the preamble
before it. It reads what it needs and not a byte more: what comes along with the
handshake's last message is the link's. -/
namespace DshProxy.Mux
open Wire ByteOrder ReadExact

/-- Largest message allowed during the handshake. -/
def maxHandshakeMsg : Nat := 1024

/-- What is used of `snow`: a state of the handshake, and what becomes of it. Messages
are read into, and written from, buffers of `MAX_HANDSHAKE_MSG` bytes. -/
structure Snow (σ : Type) where
  buildResponder : (privateKey prologue : Bytes) → Except String σ
  readMessage : σ → Bytes → Except String σ
  writeMessage : σ → Except String (σ × Bytes)
  getRemoteStatic : σ → Option Bytes
  intoStatelessTransportMode : σ → Except String Transport

/-- Reading and writing on the bridge's socket. -/
abbrev Talk := Prog UInt8 IoError

/-- `.map_err(bad)?`. -/
def Talk.check {α : Type} (result : Except String α) : Talk α := .ret (result.mapError bad)

/-- `read_frame`. The length is checked before there is a buffer for the body. -/
def readFrame : Talk Bytes := do
  let len ← Prog.readExact 2
  if maxHandshakeMsg < ofBe len then Prog.fail (bad "handshake message too large")
  else Prog.readExact (ofBe len)

/-- `[u16 len][data]`. -/
def framed (body : Bytes) : Bytes := toBe 2 body.length ++ body

def writeFrame (body : Bytes) : Talk Unit :=
  if maxHandshakeMsg < body.length then Prog.fail (bad "handshake message too large")
  else Prog.writeAll (framed body)

def staticKey (remote : Option Bytes) : Except String Key :=
  match remote with
  | none => .error "bridge sent no static key"
  | some bytes => if long : bytes.length = 32 then .ok ⟨bytes, long⟩ else .error "bad static key length"

variable {σ : Type} (snow : Snow σ) (privateKey : Bytes)

def xxRespond (prologue : Bytes) : Talk (Key × Transport) := do
  let handshake ← Talk.check (snow.buildResponder privateKey prologue)
  let msg1 ← readFrame
  let handshake ← Talk.check (snow.readMessage handshake msg1)
  let answer ← Talk.check (snow.writeMessage handshake)
  writeFrame answer.2
  let msg3 ← readFrame
  let handshake ← Talk.check (snow.readMessage answer.1 msg3)
  let key ← Talk.check (staticKey (snow.getRemoteStatic handshake))
  let transport ← Talk.check (snow.intoStatelessTransportMode handshake)
  return (key, transport)

/-- What `serve` and `serve_bridge` read and write on a connection they admit. -/
def bridgeTalk : Talk (Option (Key × Transport)) := do
  let head ← Prog.readExact headLen
  if head.getD 4 0 = version ∧ head.take 4 = magicBridge then do
    let proved ← xxRespond snow privateKey head
    return some proved
  else return none

/-- The handshake of these three messages under this preamble comes off. -/
structure Snow.Shakes (head msg1 msg2 msg3 : Bytes) (key : Key) (transport : Transport) : Prop where
  preamble : head.length = headLen ∧ head.getD 4 0 = version ∧ head.take 4 = magicBridge
  small : msg1.length ≤ maxHandshakeMsg ∧ msg2.length ≤ maxHandshakeMsg ∧ msg3.length ≤ maxHandshakeMsg
  runs : ∃ s₀ s₁ s₂ s₃, snow.buildResponder privateKey head = .ok s₀ ∧ snow.readMessage s₀ msg1 = .ok s₁ ∧
    snow.writeMessage s₁ = .ok (s₂, msg2) ∧ snow.readMessage s₂ msg3 = .ok s₃ ∧
    snow.getRemoteStatic s₃ = some key.val ∧ snow.intoStatelessTransportMode s₃ = .ok transport

variable {snow privateKey} {head msg1 msg2 msg3 body input sent after rest : Bytes} {key : Key}
  {transport : Transport} {α : Type}

theorem check_ok {result : Except String α} {value : α}
    (ended : (Talk.check result).onWhole input sent = .ends (.ok value) after rest) :
    result = .ok value ∧ after = sent ∧ rest = input := by
  cases result with
  | error message => cases ended
  | ok value =>
    cases ended
    exact ⟨rfl, rfl, rfl⟩

theorem check_of {result : Except String α} {value : α} (fine : result = .ok value) :
    (Talk.check result).onWhole input sent = .ends (.ok value) sent input := by
  subst fine
  rfl

theorem readFrame_ok (ended : readFrame.onWhole input sent = .ends (.ok body) after rest) :
    input = framed body ++ rest ∧ body.length ≤ maxHandshakeMsg ∧ after = sent := by
  obtain ⟨len, mid, left, first, second⟩ := onWhole_bind_ok ended
  rw [onWhole_readExact] at first
  split at first
  · cases first
  · rename_i enough
    cases first
    split at second
    · cases second
    · rename_i small
      rw [onWhole_readExact] at second
      split at second
      · cases second
      · rename_i whole
        cases second
        have two : (input.take 2).length = 2 := List.length_take_of_le (by omega)
        have length : ((input.drop 2).take (ofBe (input.take 2))).length = ofBe (input.take 2) :=
          List.length_take_of_le (by omega)
        refine ⟨?_, by omega, rfl⟩
        have spelled := toBe_ofBe (input.take 2)
        rw [two] at spelled
        rw [framed, length, spelled, List.append_assoc, List.take_append_drop, List.take_append_drop]

theorem readFrame_of (small : body.length ≤ maxHandshakeMsg) :
    readFrame.onWhole (framed body ++ rest) sent = .ends (.ok body) sent rest := by
  have fits : body.length < 256 ^ 2 := Nat.lt_of_le_of_lt small (by decide)
  have two : (toBe 2 body.length).length = 2 := toBe_length 2 _
  have head : (framed body ++ rest).take 2 = toBe 2 body.length := by
    rw [framed, List.append_assoc, List.take_left' two]
  have tail : (framed body ++ rest).drop 2 = body ++ rest := by
    rw [framed, List.append_assoc, List.drop_left' two]
  have enough : ¬ (framed body ++ rest).length < 2 := by
    simp only [framed, List.length_append, two]
    omega
  have first : (Prog.readExact 2 : Talk Bytes).onWhole (framed body ++ rest) sent =
      .ends (.ok (toBe 2 body.length)) sent (body ++ rest) := by
    rw [onWhole_readExact, if_neg enough, head, tail]
  refine (onWhole_bind_of first).trans ?_
  rw [ofBe_toBe 2 _ fits, if_neg (by omega), onWhole_readExact, if_neg (by rw [List.length_append]; omega),
    List.take_left' rfl, List.drop_left' rfl]

theorem writeFrame_ok {value : Unit} (ended : (writeFrame body).onWhole input sent = .ends (.ok value) after rest) :
    body.length ≤ maxHandshakeMsg ∧ after = sent ++ framed body ∧ rest = input := by
  unfold writeFrame at ended
  split at ended
  · cases ended
  · rename_i small
    cases ended
    exact ⟨Nat.le_of_not_lt small, rfl, rfl⟩

theorem writeFrame_of (small : body.length ≤ maxHandshakeMsg) :
    (writeFrame body).onWhole input sent = .ends (.ok ()) (sent ++ framed body) input := by
  rw [writeFrame, if_neg (by omega), onWhole_writeAll]

theorem staticKey_ok {remote : Option Bytes} (fine : staticKey remote = .ok key) : remote = some key.val := by
  unfold staticKey at fine
  split at fine
  · cases fine
  · split at fine <;> cases fine
    rfl

theorem staticKey_of (key : Key) : staticKey (some key.val) = .ok key := by
  simp [staticKey, key.property]

/-- A connection that has proved a key has sent a bridge's preamble and the two
messages of a handshake that proves it; what it has sent behind them is still there. -/
theorem bridgeTalk_ok (ended : (bridgeTalk snow privateKey).onWhole input [] =
    .ends (.ok (some (key, transport))) after rest) :
    ∃ head msg1 msg2 msg3, snow.Shakes privateKey head msg1 msg2 msg3 key transport ∧
      input = head ++ (framed msg1 ++ (framed msg3 ++ rest)) ∧ after = framed msg2 := by
  obtain ⟨head, _, _, read, ended⟩ := onWhole_bind_ok ended
  rw [onWhole_readExact] at read
  split at read
  · cases read
  rename_i enough
  cases read
  split at ended
  case isFalse => cases ended
  rename_i known
  obtain ⟨proved, _, _, responds, last⟩ := onWhole_bind_ok ended
  cases last
  obtain ⟨s₀, _, _, did₀, build⟩ := onWhole_bind_ok responds
  obtain ⟨built, rfl, rfl⟩ := check_ok did₀
  obtain ⟨msg1, _, _, did₁, hear1⟩ := onWhole_bind_ok build
  obtain ⟨text1, small1, rfl⟩ := readFrame_ok did₁
  obtain ⟨s₁, _, _, did₂, say⟩ := onWhole_bind_ok hear1
  obtain ⟨heard1, rfl, rfl⟩ := check_ok did₂
  obtain ⟨⟨s₂, msg2⟩, _, _, did₃, write⟩ := onWhole_bind_ok say
  obtain ⟨said, rfl, rfl⟩ := check_ok did₃
  obtain ⟨_, _, _, did₄, read⟩ := onWhole_bind_ok write
  obtain ⟨small2, rfl, rfl⟩ := writeFrame_ok did₄
  obtain ⟨msg3, _, _, did₅, hear3⟩ := onWhole_bind_ok read
  obtain ⟨text3, small3, rfl⟩ := readFrame_ok did₅
  obtain ⟨s₃, _, _, did₆, name⟩ := onWhole_bind_ok hear3
  obtain ⟨heard3, rfl, rfl⟩ := check_ok did₆
  obtain ⟨_, _, _, did₇, make⟩ := onWhole_bind_ok name
  obtain ⟨named, rfl, rfl⟩ := check_ok did₇
  obtain ⟨_, _, _, did₈, returned⟩ := onWhole_bind_ok make
  obtain ⟨made, rfl, rfl⟩ := check_ok did₈
  cases returned
  refine ⟨input.take headLen, msg1, msg2, msg3, ⟨⟨List.length_take_of_le (by omega), known⟩, ⟨small1, small2, small3⟩,
    s₀, s₁, s₂, s₃, built, heard1, said, heard3, staticKey_ok named, made⟩, ?_, rfl⟩
  rw [← text3, ← text1, List.take_append_drop]

/-- And such a connection proves it, whatever comes behind. -/
theorem bridgeTalk_of (shakes : snow.Shakes privateKey head msg1 msg2 msg3 key transport) (rest : Bytes) :
    (bridgeTalk snow privateKey).onWhole (head ++ (framed msg1 ++ (framed msg3 ++ rest))) [] =
      .ends (.ok (some (key, transport))) (framed msg2) rest := by
  obtain ⟨⟨long, known⟩, ⟨small1, small2, small3⟩, s₀, s₁, s₂, s₃, built, heard1, said, heard3, named, made⟩ :=
    shakes
  have preamble : (Prog.readExact headLen : Talk Bytes).onWhole
      (head ++ (framed msg1 ++ (framed msg3 ++ rest))) [] =
        .ends (.ok head) [] (framed msg1 ++ (framed msg3 ++ rest)) := by
    rw [onWhole_readExact, if_neg (by rw [List.length_append, long]; omega), List.take_left' long,
      List.drop_left' long]
  have named : staticKey (snow.getRemoteStatic s₃) = .ok key := named ▸ staticKey_of key
  have responds : (xxRespond snow privateKey head).onWhole (framed msg1 ++ (framed msg3 ++ rest)) [] =
      .ends (.ok (key, transport)) (framed msg2) rest := by
    refine (onWhole_bind_of (check_of built)).trans ?_
    refine (onWhole_bind_of (readFrame_of small1)).trans ?_
    refine (onWhole_bind_of (check_of heard1)).trans ?_
    refine (onWhole_bind_of (check_of said)).trans ?_
    refine (onWhole_bind_of (writeFrame_of small2)).trans ?_
    refine (onWhole_bind_of (readFrame_of small3)).trans ?_
    refine (onWhole_bind_of (check_of heard3)).trans ?_
    refine (onWhole_bind_of (check_of named)).trans ?_
    exact onWhole_bind_of (check_of made)
  refine (onWhole_bind_of preamble).trans ?_
  rw [if_pos known]
  exact onWhole_bind_of responds

theorem check_within (result : Except String α) (limit : Nat) : (Talk.check result).Within limit := trivial

theorem readFrame_within : readFrame.Within maxHandshakeMsg := by
  refine within_bind ⟨by decide, fun _ => trivial⟩ fun len => ?_
  split
  · trivial
  · rename_i small
    exact ⟨Nat.le_of_not_lt small, fun _ => trivial⟩

theorem writeFrame_within (body : Bytes) : (writeFrame body).Within maxHandshakeMsg := by
  unfold writeFrame
  split <;> trivial

theorem bridgeTalk_within (snow : Snow σ) (privateKey : Bytes) :
    (bridgeTalk snow privateKey).Within maxHandshakeMsg := by
  refine within_bind ⟨by decide, fun _ => trivial⟩ fun head => ?_
  split
  · refine within_bind ?_ fun _ => trivial
    refine within_bind (check_within _ _) fun _ => ?_
    refine within_bind readFrame_within fun _ => ?_
    refine within_bind (check_within _ _) fun _ => ?_
    refine within_bind (check_within _ _) fun _ => ?_
    refine within_bind (writeFrame_within _) fun _ => ?_
    refine within_bind readFrame_within fun _ => ?_
    refine within_bind (check_within _ _) fun _ => ?_
    refine within_bind (check_within _ _) fun _ => ?_
    exact within_bind (check_within _ _) fun _ => trivial
  · trivial

/-- Whoever is at the other end and however its bytes come: no read prepares a buffer
for more than a handshake message may have; and a key is given out only to a
connection that has sent a bridge's preamble and, as `snow` has judged it with the
preamble for its prologue, a handshake that proves the key, having been sent exactly
the one message of ours in between. Not a byte behind the handshake has been read. -/
theorem keys_are_proved {p : Polled UInt8 IoError (Option (Key × Transport))} {actions : List (Act UInt8 IoError)}
    (ran : Transitions.run Polled.step (.start (bridgeTalk snow privateKey)) actions = some p) :
    p.prog.Within maxHandshakeMsg ∧
    ∀ key transport, p.prog = .ret (.ok (some (key, transport))) → ∃ head msg1 msg2 msg3,
      snow.Shakes privateKey head msg1 msg2 msg3 key transport ∧
      p.arrived = head ++ (framed msg1 ++ (framed msg3 ++ p.inbound)) ∧ p.sent = framed msg2 := by
  have within : p.prog.Within maxHandshakeMsg := Transitions.run_preserves (fun p => p.prog.Within maxHandshakeMsg)
    (fun _ _ _ within stepped => within_step within stepped) (within_settle (bridgeTalk_within snow privateKey)) ran
  refine ⟨within, fun key transport proved => ?_⟩
  have fine := Polled.unbroken ran proved
  exact bridgeTalk_ok ((Polled.Agrees.run ran).ended fine proved)

/-- A bridge whose handshake comes off gets its link, and the link gets all that the
bridge has sealed. The bridge sends its preamble, its two messages and then records,
and these reach the socket in any pieces, cut anywhere. Then the responder can go on
to its end as soon as the messages have arrived; when it has ended, it has ended with
the key and the ciphers, and a reader that gets what it has left on the socket and
what comes later, again in any pieces, gives out every frame and no error. -/
theorem handshakes_hand_over_the_link {sealed : List Frame}
    {p : Polled UInt8 IoError (Option (Key × Transport))} {actions : List (Act UInt8 IoError)}
    (ran : Transitions.run Polled.step (.start (bridgeTalk snow privateKey)) actions = some p)
    (fine : p.broken = false) (shakes : snow.Shakes privateKey head msg1 msg2 msg3 key transport)
    (fit : ∀ frame ∈ sealed, frame.Sealable) (opens : transport.Opens sealed) {later : Bytes}
    (bridge : p.arrived ++ later = head ++ (framed msg1 ++ (framed msg3 ++ records transport 0 sealed))) :
    (head.length + (framed msg1).length + (framed msg3).length ≤ p.arrived.length →
      ∃ more q, Transitions.run Polled.step p more = some q ∧
        q.prog = .ret (.ok (some (key, transport))) ∧ q.arrived = p.arrived) ∧
    ∀ result, p.prog = .ret result → result = .ok (some (key, transport)) ∧ p.sent = framed msg2 ∧
      ∀ reads : List Bytes, reads.flatten = p.inbound ++ later →
        (LinkReader.receive transport reads).frames.map Frame.triple = sealed.map Frame.triple ∧
          (LinkReader.receive transport reads).failed = none := by
  have agrees := Polled.Agrees.run ran
  have whole := bridgeTalk_of shakes (records transport 0 sealed)
  refine ⟨fun arrived => ?_, fun result ended => ?_⟩
  · obtain ⟨front, text⟩ : ∃ front, p.arrived = head ++ (framed msg1 ++ (framed msg3 ++ front)) := by
      have all : head ++ (framed msg1 ++ framed msg3) <+: p.arrived := by
        refine List.prefix_of_prefix_length_le ?_ (List.prefix_append p.arrived later) ?_
        · rw [bridge]
          simp
        · simp only [List.length_append]
          omega
      obtain ⟨front, text⟩ := all
      exact ⟨front, by rw [← text]; simp⟩
    have ends := agrees fine []
    rw [List.append_nil, List.append_nil, text, bridgeTalk_of shakes front] at ends
    have settled := Polled.settled ran
    obtain ⟨more, ran'⟩ := polls_finish p.prog p settled.symm ends.symm
    exact ⟨more, _, ran', rfl, rfl⟩
  · have ends := onWhole_more later (agrees.ended fine ended)
    rw [bridge, whole] at ends
    injection ends with outcome sent left
    refine ⟨outcome.symm, sent.symm, fun reads same => ?_⟩
    have sends : reads.flatten ++ [] = records transport 0 sealed := by
      rw [List.append_nil, same, left]
    obtain ⟨intact, all⟩ := receive_intact fit opens reads [] sends
    refine ⟨?_, intact.running⟩
    rw [intact.front, all rfl, List.take_length, List.map_map]
    exact List.map_congr_left fun frame _ => frame.readBack_triple

/-- A handshake with messages of the right sizes and nothing in them but the key. -/
private def plainSnow (sealed : List Frame) : Snow Bytes where
  buildResponder privateKey _ := if privateKey.length = 32 then .ok [] else .error "bad key"
  readMessage seen msg :=
    if seen.length = 0 ∧ msg.length = 32 ∨ seen.length = 128 ∧ msg.length = 64 then .ok (seen ++ msg)
    else .error "decrypt error"
  writeMessage seen := .ok (seen ++ List.replicate 96 2, List.replicate 96 2)
  getRemoteStatic seen := if seen.length = 192 then some ((seen.drop 128).take 32) else none
  intoStatelessTransportMode _ := .ok (.recorded (sealed.map Frame.encode))

private def threes : Key := ⟨List.replicate 32 3, rfl⟩

private def sealedOnce : List Frame := [⟨1, .data, [1, 2, 3]⟩]

private def dialledHead : Bytes := magicBridge ++ version :: List.replicate 32 0

private def thirdMessage : Bytes := List.replicate 32 3 ++ List.replicate 32 9

private def dialledText : Bytes :=
  dialledHead ++ (framed (List.replicate 32 1) ++ (framed thirdMessage ++
    records (.recorded (sealedOnce.map Frame.encode)) 0 sealedOnce))

/-- All but the last byte is there before the first poll. -/
private def dialled : List (Act UInt8 IoError) :=
  [.arrive (dialledText.take 165), .read 37, .read 1, .read 1, .read 32, .write 50, .write 48, .read 2, .read 60,
    .read 4]

private theorem dialled_shakes : (plainSnow sealedOnce).Shakes (List.replicate 32 8) dialledHead
    (List.replicate 32 1) (List.replicate 96 2) thirdMessage threes (.recorded (sealedOnce.map Frame.encode)) := by
  have named : (plainSnow sealedOnce).getRemoteStatic
      (List.replicate 32 1 ++ List.replicate 96 2 ++ thirdMessage) = some threes.val := by
    decide +kernel
  refine ⟨by decide, by decide, [], List.replicate 32 1, List.replicate 32 1 ++ List.replicate 96 2,
    List.replicate 32 1 ++ List.replicate 96 2 ++ thirdMessage, ?_, ?_, ?_, ?_, named, rfl⟩ <;>
    simp [plainSnow, thirdMessage]

/-- The key that has been given out. -/
private def givenKey (p : Polled UInt8 IoError (Option (Key × Transport))) : Option Key :=
  match p.prog with
  | .ret (.ok (some (key, _))) => some key
  | _ => none

private theorem dialled_runs : ∃ p, Transitions.run Polled.step
    (.start (bridgeTalk (plainSnow sealedOnce) (List.replicate 32 8))) dialled = some p ∧
      (p.broken = false ∧ p.arrived = dialledText.take 165 ∧ p.inbound.length = 28) ∧
      ∃ transport, p.prog = .ret (.ok (some (threes, transport))) := by
  have checked : ((Transitions.run Polled.step
      (.start (bridgeTalk (plainSnow sealedOnce) (List.replicate 32 8))) dialled).any fun p => decide (
        (p.broken = false ∧ p.arrived = dialledText.take 165 ∧ p.inbound.length = 28) ∧
        givenKey p = some threes)) = true := by
    decide +kernel
  obtain ⟨p, ran, facts, given⟩ := Transitions.run_reaches checked
  refine ⟨p, ran, facts, ?_⟩
  unfold givenKey at given
  split at given
  · rename_i key transport shape
    cases given
    exact ⟨transport, shape⟩
  · cases given

theorem keys_are_proved_dialled : ∃ p transport head msg1 msg2 msg3, Transitions.run Polled.step
    (.start (bridgeTalk (plainSnow sealedOnce) (List.replicate 32 8))) dialled = some p ∧
      p.prog = .ret (.ok (some (threes, transport))) ∧ p.prog.Within maxHandshakeMsg ∧
      (plainSnow sealedOnce).Shakes (List.replicate 32 8) head msg1 msg2 msg3 threes transport ∧
      p.sent = framed msg2 := by
  obtain ⟨p, ran, -, transport, given⟩ := dialled_runs
  obtain ⟨within, proved⟩ := keys_are_proved ran
  obtain ⟨head, msg1, msg2, msg3, shakes, -, sent⟩ := proved threes transport given
  exact ⟨p, transport, head, msg1, msg2, msg3, ran, given, within, shakes, sent⟩

theorem handshakes_hand_over_the_link_dialled : ∃ p transport, Transitions.run Polled.step
    (.start (bridgeTalk (plainSnow sealedOnce) (List.replicate 32 8))) dialled = some p ∧
      p.prog = .ret (.ok (some (threes, transport))) ∧ p.inbound.length = 28 ∧
      (LinkReader.receive (.recorded (sealedOnce.map Frame.encode))
        [p.inbound, dialledText.drop 165]).frames.map Frame.triple = sealedOnce.map Frame.triple := by
  obtain ⟨p, ran, ⟨fine, arrived, left⟩, transport, given⟩ := dialled_runs
  have bridge : p.arrived ++ dialledText.drop 165 = dialledText := by
    rw [arrived, List.take_append_drop]
  have opens : (Transport.recorded (sealedOnce.map Frame.encode)).Opens sealedOnce :=
    (Transport.recorded_ideal _).opens (by decide)
  obtain ⟨-, ended⟩ := handshakes_hand_over_the_link ran fine dialled_shakes (by decide) opens bridge
  obtain ⟨-, -, reads⟩ := ended _ given
  exact ⟨p, transport, ran, given, left, (reads [p.inbound, dialledText.drop 165] (by simp)).1⟩

end DshProxy.Mux

import DshProxy.Isolation
import DshProxy.MuxCredit
import DshProxy.ServeUplink
import Mathlib.Algebra.BigOperators.Group.Finset.Basic

/-! Send credit, as `StreamTx::send` spends it and the peer's WINDOW frames add to
it. The meters beside the session count what has gone into and out of each
semaphore; the session itself does not see them. -/
namespace DshProxy.Mux
open Sync Wire ByteOrder Transitions

/-- A call of `StreamTx::send`: its argument, and the payloads it has queued. -/
structure Call where
  stream : Nat := 0
  data : Bytes := []
  queued : List Bytes := []
  deriving DecidableEq, Repr

/-- A session with its users, and what has gone through each stream's semaphore. -/
structure Metered where
  users : Users
  /-- The grants `read_loop` has added. -/
  granted : Nat → Nat := fun _ => 0
  /-- The permits that sends have taken and forgotten. -/
  taken : Nat → Nat := fun _ => 0
  /-- The DATA payloads that sends have put in the outbox. -/
  queued : Nat → List Bytes := fun _ => []
  /-- The send each task is in or was in last. -/
  calls : Nat → Call := fun _ => {}

/-- The part of an amount booked on one stream that concerns stream `n`. -/
def share (booked : Option (Nat × Nat)) (n : Nat) : Nat :=
  match booked with
  | some (stream, amount) => if n = stream then amount else 0
  | none => 0

/-- The grant a step of the link adds, and the stream it adds it to. -/
def Session.grants (s : Session) : Session.Act → Option (Nat × Nat)
  | .recv plain =>
    (Frame.parse plain).bind fun frame =>
      if frame.id ≠ 0 ∧ frame.kind = .window ∧ frame.payload.length = 4 then
        (s.streams frame.id).map (·, ofBe frame.payload)
      else none
  | _ => none

/-- The permits a task's step takes, and the stream it takes them from. -/
def Session.spends (s : Session) : Task → TaskAct → Option (Nat × Nat)
  | .sending stream (.acquire rest), .proceed =>
    if (s.arena stream).credit.closed then none else some (stream, min rest.length maxPayload)
  | _, _ => none

/-- The DATA payloads a step has added to the outbox. -/
def growth (before after : Session) : List Bytes :=
  ((after.out.accepted.drop before.out.accepted.length).filter (·.kind = .data)).map (·.payload)

/-- The stream whose `send` the task is in. -/
def Task.sends : Task → Option Nat
  | .sending stream _ => some stream
  | _ => none

def Metered.step (m : Metered) (act : UsersAct) : Option Metered :=
  (m.users.step act).map fun users =>
    let fresh := growth m.users.session users.session
    match act with
    | .link link =>
      { m with users, granted := fun n => m.granted n + share (m.users.session.grants link) n }
    | .task name (.send stream data) =>
      { m with users, calls := Function.update m.calls name { stream, data } }
    | .task name act =>
      let task := m.users.tasks name
      let call := m.calls name
      { m with
        users
        taken := fun n => m.taken n + share (m.users.session.spends task act) n
        queued := fun n => if task.sends = some n then m.queued n ++ fresh else m.queued n
        calls := Function.update m.calls name { call with queued := call.queued ++ fresh } }

def Metered.start (maxStreams : Nat) (onOpen : Bool) : Metered :=
  { users := { session := .start maxStreams onOpen } }

/-- The meters do not touch what they measure. -/
theorem Metered.run_users (m : Metered) (actions : List UsersAct) :
    (run Metered.step m actions).map (·.users) = run Users.step m.users actions := by
  induction actions generalizing m with
  | nil => rfl
  | cons act rest ih =>
    simp only [run, Metered.step]
    cases m.users.step act with
    | none => rfl
    | some users =>
      simp only [Option.map_some, Option.bind_some, ih]
      split <;> rfl

variable {s t : Session}

/-- What a step does to the semaphores and to the outbox. -/
structure Meters (s t : Session) (granted spent : Option (Nat × Nat)) (added : List Frame) : Prop where
  grows : s.created ≤ t.created
  permits : ∀ n < s.created, (t.arena n).credit.permits + share spent n =
    (s.arena n).credit.permits + share granted n
  fresh : ∀ n, s.created ≤ n → n < t.created → (t.arena n).credit.permits = window
  out : t.out.accepted = s.out.accepted ++ added

/-- A step without credit in it. -/
theorem Meters.plain {added : List Frame} (created : t.created = s.created)
    (permits : ∀ n, (t.arena n).credit.permits = (s.arena n).credit.permits)
    (out : t.out.accepted = s.out.accepted ++ added) : Meters s t none none added := by
  refine ⟨Nat.le_of_eq created.symm, fun n _ => ?_, fun n new known => ?_, out⟩
  · rw [permits n]
  · omega

/-- A step that queues nothing either. -/
theorem Meters.still (created : t.created = s.created)
    (permits : ∀ n, (t.arena n).credit.permits = (s.arena n).credit.permits)
    (out : t.out.accepted = s.out.accepted) : Meters s t none none [] := by
  apply Meters.plain created permits
  rw [out, List.append_nil]

theorem Meters.insert (id : UInt32) (created : t.created = s.created + 1)
    (permits : ∀ n, (t.arena n).credit.permits = ((s.insert id).arena n).credit.permits)
    (out : t.out.accepted = s.out.accepted) : Meters s t none none [] := by
  refine ⟨by omega, fun n known => ?_, fun n new known => ?_, by simpa using out⟩
  · rw [permits n]
    simp [Session.insert, Function.update_of_ne (Nat.ne_of_lt known), share]
  · obtain rfl : n = s.created := by omega
    rw [permits]
    simp [Session.insert]

theorem credit_clear (s : Session) (n : Nat) :
    (s.clear.arena n).credit.permits = (s.arena n).credit.permits := by
  simp only [Session.clear]
  split <;> rfl

private theorem grants_other {plain : Bytes} {frame : Frame} (parsed : Frame.parse plain = some frame)
    (other : frame.id = 0 ∨ frame.kind ≠ .window ∨ frame.payload.length ≠ 4 ∨
      s.streams frame.id = none) : s.grants (.recv plain) = none := by
  simp only [Session.grants, parsed, Option.bind_some]
  split
  · rename_i grant
    obtain zero | kind | size | absent := other
    · exact absurd zero grant.1
    · exact absurd grant.2.1 kind
    · exact absurd grant.2.2 size
    · rw [absent, Option.map_none]
  · rfl

/-- A frame adds credit to the stream it names, if it is a grant, and to no other. -/
theorem heard_meters {plain : Bytes} {frame : Frame} (parsed : Frame.parse plain = some frame)
    (did : Heard s frame t) : Meters s t (s.grants (.recv plain)) none [] := by
  cases did with
  | keepalive zero =>
    rw [grants_other parsed (.inl zero)]
    exact .still rfl (fun _ => rfl) rfl
  | opens _ kind =>
    rw [grants_other parsed (.inr (.inl (by simp [kind])))]
    exact .still rfl (fun _ => rfl) rfl
  | overBudget _ kind =>
    rw [grants_other parsed (.inr (.inl (by simp [kind])))]
    exact .still rfl (fun _ => rfl) rfl
  | data aim _ kind =>
    rw [grants_other parsed (.inr (.inl (by simp [kind])))]
    exact .still rfl (fun _ => rfl) rfl
  | grants aim stream kind four found =>
    have grant : s.grants (.recv plain) = some (aim, ofBe frame.payload) := by
      simp [Session.grants, parsed, stream, kind, four, found]
    rw [grant]
    refine ⟨Nat.le_refl _, fun n _ => ?_, fun n new known => absurd known (Nat.not_lt_of_le new),
      (List.append_nil _).symm⟩
    by_cases same : n = aim
    · subst same
      simp [Session.modify, share]
    · simp [Session.modify, share, same]
  | closes _ kind =>
    rw [grants_other parsed (.inr (.inl (by simp [kind])))]
    exact .still (removeAndClose_created _ _) (credit_removeAndClose _ _) (by rw [removeAndClose_out])
  | ignores _ nothing =>
    have other : s.grants (.recv plain) = none := by
      by_cases kind : frame.kind = .window
      · refine grants_other parsed (.inr (.inr ?_))
        simpa [Session.Ignores, kind] using nothing
      · exact grants_other parsed (.inr (.inl kind))
    rw [other]
    exact .still rfl (fun _ => rfl) rfl

/-- A step of the link: the only DATA it queues is the keepalive echo. -/
theorem step_meters {act : Session.Act} (stepped : s.step act = some t) :
    ∃ added, Meters s t (s.grants act) none added ∧
      ∀ frame ∈ added, frame.kind = .data → frame = .control 0 .data := by
  cases step_move stepped with
  | short plain idle bad =>
    have nothing : s.grants (.recv plain) = none := by simp [Session.grants, bad]
    rw [nothing]
    exact ⟨[], .still rfl (fun _ => rfl) rfl, by simp⟩
  | heard plain frame _ _ parsed did => exact ⟨[], heard_meters parsed did, by simp⟩
  | admits id => exact ⟨[], .insert id rfl (fun _ => rfl) rfl, by simp⟩
  | admitsNobody id =>
    exact ⟨[], .insert id rfl (fun n => permits_modify _ _ _ n rfl) rfl, by simp⟩
  | delivers id stream body =>
    exact ⟨[], .still rfl (fun n => permits_modify s stream
      (fun st => { st with inbox := (s.arena stream).inbox.push body }) n rfl) rfl, by simp⟩
  | evicts id =>
    exact ⟨[], .still (removeAndClose_created s id) (credit_removeAndClose s id)
      (congrArg _ (removeAndClose_out s id)), by simp⟩
  | dies => exact ⟨[], .still rfl (credit_clear s) rfl, by simp⟩
  | shutdownClear => exact ⟨[], .still rfl (credit_clear s) rfl, by simp⟩
  | replies frame reading did =>
    obtain ⟨rfl, -, -⟩ := enqueue_eq did
    refine ⟨[frame], .plain rfl (fun _ => rfl) rfl, fun other member kind => ?_⟩
    obtain rfl := List.mem_singleton.mp member
    cases stage : s.reader <;> rw [stage] at reading <;> cases reading
    · rfl
    · cases kind
  | _ => exact ⟨[], .still rfl (fun _ => rfl) rfl, by simp⟩

/-- A step with no send in it, which queues no DATA. -/
structure Unsent (s t : Session) (task task' : Task) (act : TaskAct) : Prop where
  before : act = .proceed → task.sends = none
  after : task'.sends = none
  other : ∀ stream data, act ≠ .send stream data
  meters : ∃ added, Meters s t none none added ∧ ∀ frame ∈ added, frame.kind ≠ .data

private theorem sends_meters {ok error res : β} {frame : Frame} (kind : frame.kind ≠ .data)
    (sent : s.sends frame ok error = some (t, res)) :
    ∃ added, Meters s t none none added ∧ ∀ frame ∈ added, frame.kind ≠ .data := by
  obtain ⟨queued, -⟩ | ⟨-, rfl, -⟩ := sends_cases sent
  · obtain ⟨rfl, -, -⟩ := enqueue_eq queued
    exact ⟨[frame], .plain rfl (fun _ => rfl) rfl, by simpa using kind⟩
  · exact ⟨[], .still rfl (fun _ => rfl) rfl, by simp⟩

private theorem trySends_meters {frame : Frame} {sent : Bool} (kind : frame.kind ≠ .data)
    (tried : s.trySends frame sent = some t) :
    ∃ added, Meters s t none none added ∧ ∀ frame ∈ added, frame.kind ≠ .data := by
  unfold Session.trySends at tried
  split at tried
  · obtain ⟨rfl, -, -⟩ := enqueue_eq tried
    exact ⟨[frame], .plain rfl (fun _ => rfl) rfl, by simpa using kind⟩
  · cases tried
    exact ⟨[], .still rfl (fun _ => rfl) rfl, by simp⟩

private theorem openStep_meters {stage next : Opening} (stepped : s.openStep stage = some (t, next)) :
    ∃ added, Meters s t none none added ∧ ∀ frame ∈ added, frame.kind ≠ .data := by
  cases stage with
  | reserve =>
    simp only [Session.openStep, Session.reserve] at stepped
    split at stepped
    · rename_i got
      split at got <;> cases got
      cases stepped
      exact ⟨[], .still rfl (fun _ => rfl) rfl, by simp⟩
    · cases stepped
      exact ⟨[], .still rfl (fun _ => rfl) rfl, by simp⟩
  | allocate =>
    cases stepped
    exact ⟨[], .still rfl (fun _ => rfl) rfl, by simp⟩
  | insert id =>
    cases stepped
    exact ⟨[], .insert id rfl (fun _ => rfl) rfl, by simp⟩
  | announce n => exact sends_meters (by simp [Frame.control]) stepped
  | giveUp n =>
    cases stepped
    refine ⟨[], .still (remove_created s _) (fun k => ?_) (congrArg _ (remove_out s _)), by simp⟩
    rw [Session.hangUp, permits_modify _ n _ k rfl, arena_remove]
  | refused => cases stepped
  | opened n => cases stepped

theorem Unsent.spends {task task' : Task} {act : TaskAct} (unsent : Unsent s t task task' act) :
    s.spends task act = none := by
  unfold Session.spends
  split
  · cases unsent.before rfl
  · rfl

/-- Everything a task's step can do about sending. -/
theorem taskStep_sends {task task' : Task} {act : TaskAct}
    (stepped : s.taskStep task act = some (t, task')) :
    (∃ n stage next, act = .proceed ∧ task = .sending n stage ∧ task' = .sending n next ∧
      SendMove s n stage t next) ∨
    (∃ n data, act = .send n data ∧ n < s.created ∧ t = s ∧ task' = .sending n (.next data)) ∨
    Unsent s t task task' act := by
  unfold Session.taskStep at stepped
  split at stepped
  · rename_i going
    subst going
    cases task with
    | idle => cases stepped
    | opening stage =>
      obtain ⟨⟨mid, next⟩, opened, same⟩ := Option.map_eq_some_iff.mp stepped
      cases same
      exact .inr (.inr ⟨fun _ => rfl, rfl, by simp, openStep_meters opened⟩)
    | sending n stage =>
      obtain ⟨⟨mid, next⟩, sent, same⟩ := Option.map_eq_some_iff.mp stepped
      cases same
      exact .inl ⟨n, stage, next, rfl, rfl, rfl, sendStep_move sent⟩
    | granting n bytes =>
      have idle : task' = .idle := by obtain ⟨-, rfl⟩ | ⟨-, -, rfl⟩ := sends_cases stepped <;> rfl
      exact .inr (.inr ⟨fun _ => rfl, idle ▸ rfl, by simp, sends_meters (by simp [Frame.grant]) stepped⟩)
    | closing id =>
      have idle : task' = .idle := by obtain ⟨-, rfl⟩ | ⟨-, -, rfl⟩ := sends_cases stepped <;> rfl
      exact .inr (.inr ⟨fun _ => rfl, idle ▸ rfl, by simp, sends_meters (by simp [Frame.control]) stepped⟩)
  · rename_i begun
    obtain ⟨-, stepped⟩ := Option.ite_none_right_eq_some.mp stepped
    have still (added : List Frame) (meters : Meters s t none none added) (idle : task'.sends = none)
        (kinds : ∀ frame ∈ added, frame.kind ≠ .data) (other : ∀ stream data, act ≠ .send stream data) :
        Unsent s t task task' act :=
      ⟨fun going => absurd going begun, idle, other, added, meters, kinds⟩
    cases act with
    | tryOpen =>
      cases stepped
      exact .inr (.inr (still [] (.still rfl (fun _ => rfl) rfl) rfl
        (by simp) (by simp)))
    | proceed => exact absurd rfl begun
    | send n data =>
      obtain ⟨known, same⟩ := Option.ite_none_right_eq_some.mp stepped
      cases same
      exact .inr (.inl ⟨n, data, rfl, known, rfl, rfl⟩)
    | grant n bytes =>
      obtain ⟨-, same⟩ := Option.ite_none_right_eq_some.mp stepped
      cases same
      exact .inr (.inr (still [] (.still rfl (fun _ => rfl) rfl) rfl
        (by simp) (by simp)))
    | close n =>
      obtain ⟨-, same⟩ := Option.ite_none_right_eq_some.mp stepped
      cases same
      refine .inr (.inr (still [] (.still (remove_created s _) (fun k => ?_) ?_) rfl
        (by simp) (by simp)))
      · rw [arena_remove]
      · rw [remove_out]
    | closeStream n sent =>
      obtain ⟨-, got⟩ := Option.ite_none_right_eq_some.mp stepped
      obtain ⟨mid, tried, same⟩ := Option.map_eq_some_iff.mp got
      cases same
      obtain ⟨added, meters, kinds⟩ := trySends_meters (by simp [Frame.control]) tried
      refine .inr (.inr (still added ⟨?_, fun k known => ?_, fun k new => ?_, ?_⟩ rfl kinds
        (by simp)))
      · exact removeAndClose_created s _ ▸ meters.grows
      · rw [meters.permits k (removeAndClose_created s _ ▸ known), credit_removeAndClose]
      · exact meters.fresh k (removeAndClose_created s _ ▸ new)
      · rw [meters.out, removeAndClose_out]
    | flushCredit n bytes sent =>
      obtain ⟨-, got⟩ := Option.ite_none_right_eq_some.mp stepped
      obtain ⟨mid, tried, same⟩ := Option.map_eq_some_iff.mp got
      cases same
      obtain ⟨added, meters, kinds⟩ := trySends_meters (by simp [Frame.grant]) tried
      exact .inr (.inr (still added meters rfl kinds (by simp)))
    | recv n =>
      obtain ⟨-, got⟩ := Option.ite_none_right_eq_some.mp stepped
      obtain ⟨⟨chunk, mid⟩, took, same⟩ := Option.map_eq_some_iff.mp got
      cases same
      obtain ⟨⟨first, inbox⟩, -, same⟩ := Option.map_eq_some_iff.mp took
      cases same
      exact .inr (.inr (still [] (.still rfl
        (fun k => permits_modify s n (fun st => { st with inbox }) k rfl) rfl) rfl (by simp) (by simp)))
    | hangUp n =>
      obtain ⟨-, same⟩ := Option.ite_none_right_eq_some.mp stepped
      cases same
      exact .inr (.inr (still [] (.still rfl (fun k => permits_modify s n _ k rfl) rfl) rfl
        (by simp) (by simp)))

/-- Bytes of a chunk whose permits are gone and that is not in the outbox yet. -/
def Task.inHand (n : Nat) : Task → Nat
  | .sending stream (.queue chunk _) => if n = stream then chunk.length else 0
  | _ => 0

/-- A chunk on its way is neither empty nor too long, and there is something left
to acquire credit for. -/
def Sending.Sized : Sending → Prop
  | .acquire rest => rest ≠ []
  | .queue chunk _ => chunk ≠ [] ∧ chunk.length ≤ maxPayload
  | .sent | .broken => True

/-- A call has queued a front part of its argument, and keeps the rest of it until
it fails. -/
structure Call.Follows (call : Call) (n : Nat) (stage : Sending) : Prop where
  stream : call.stream = n
  front : call.queued.flatten <+: call.data
  whole : stage ≠ .broken → call.queued.flatten ++ stage.rest = call.data

/-- The bytes queued on a stream, with what is in a sender's hand. -/
def Metered.Covered (m : Metered) (names : Finset Nat) : Prop :=
  (∀ name ∉ names, ∀ n, (m.users.tasks name).inHand n = 0) ∧
  ∀ n, (m.queued n).flatten.length + ∑ name ∈ names, (m.users.tasks name).inHand n ≤ m.taken n

/-- The meters agree with the session. -/
structure Metered.Sound (m : Metered) : Prop where
  valid : Valid m.users.session
  balance : ∀ n < m.users.session.created,
    (m.users.session.arena n).credit.permits + m.taken n = window + m.granted n
  blank : ∀ n, m.users.session.created ≤ n → m.taken n = 0 ∧ m.granted n = 0
  covered : ∃ names, m.Covered names
  sized : ∀ n, ∀ payload ∈ m.queued n, payload ≠ [] ∧ payload.length ≤ maxPayload
  tasks : ∀ name n stage, m.users.tasks name = .sending n stage →
    n < m.users.session.created ∧ stage.Sized ∧ (m.calls name).Follows n stage
  outbox : ∀ frame ∈ m.users.session.out.accepted, frame.kind = .data →
    frame = .control 0 .data ∨ frame.payload ≠ [] ∧ frame.payload.length ≤ maxPayload

theorem growth_of_append {added : List Frame} (out : t.out.accepted = s.out.accepted ++ added) :
    growth s t = (added.filter (·.kind = .data)).map (·.payload) := by
  rw [growth, out, List.drop_left]

theorem growth_of_none {added : List Frame} (out : t.out.accepted = s.out.accepted ++ added)
    (kinds : ∀ frame ∈ added, frame.kind ≠ .data) : growth s t = [] := by
  rw [growth_of_append out, List.map_eq_nil_iff, List.filter_eq_nil_iff]
  simpa using kinds

theorem Sending.next_sized (data : Bytes) : (Sending.next data).Sized := by
  unfold Sending.next
  split
  · trivial
  · assumption

theorem task_inHand_next (n : Nat) (data : Bytes) (k : Nat) : (Task.sending n (.next data)).inHand k = 0 := by
  unfold Sending.next
  split <;> rfl

theorem growth_of_same (out : t.out = s.out) : growth s t = [] := by
  rw [growth, out, List.drop_length]
  rfl

theorem growth_modify (s : Session) (n : Nat) (change : Stream → Stream) :
    growth s (s.modify n change) = [] :=
  growth_of_same rfl

theorem growth_enqueue {id : UInt32} {chunk : Bytes} (queued : s.enqueue ⟨id, .data, chunk⟩ = some t) :
    growth s t = [chunk] := by
  obtain ⟨rfl, -, -⟩ := enqueue_eq queued
  rw [growth_of_append (Channel.push_accepted _ _)]
  rfl

section Sends
variable {n : Nat} {stage next : Sending} {call : Call}

/-- A piece of a send that queues something queues the chunk in its hand. -/
theorem SendMove.growth (move : SendMove s n stage t next) :
    (growth s t = [] ∧ t.out.accepted = s.out.accepted) ∨
    ∃ chunk rest, stage = .queue chunk rest ∧ next = .next rest ∧ Mux.growth s t = [chunk] ∧
      t.out.accepted = s.out.accepted ++ [⟨(s.arena n).id, .data, chunk⟩] := by
  cases move with
  | queues chunk rest did =>
    exact .inr ⟨chunk, rest, rfl, rfl, growth_enqueue did, by rw [(enqueue_eq did).1, Channel.push_accepted]⟩
  | _ => exact .inl ⟨growth_of_same rfl, rfl⟩

theorem SendMove.sized (move : SendMove s n stage t next) (sized : stage.Sized) : next.Sized := by
  cases move with
  | spends rest =>
    refine ⟨?_, by simp⟩
    rw [ne_eq, List.take_eq_nil_iff, not_or]
    exact ⟨by decide, sized⟩
  | queues chunk rest => exact Sending.next_sized rest
  | shut => trivial
  | dead => trivial

theorem SendMove.queued_sized (move : SendMove s n stage t next) (sized : stage.Sized) :
    ∀ payload ∈ Mux.growth s t, payload ≠ [] ∧ payload.length ≤ maxPayload := by
  obtain ⟨nothing, -⟩ | ⟨chunk, rest, rfl, -, one, -⟩ := move.growth
  · simp [nothing]
  · rw [one]
    intro payload member
    obtain rfl := List.mem_singleton.mp member
    exact sized

theorem SendMove.follows (move : SendMove s n stage t next) (follows : call.Follows n stage) :
    ({ call with queued := call.queued ++ Mux.growth s t } : Call).Follows n next := by
  obtain ⟨nothing, -⟩ | ⟨chunk, rest, rfl, rfl, one, -⟩ := move.growth
  · rw [nothing, List.append_nil]
    refine ⟨follows.stream, follows.front, fun fine => ?_⟩
    cases move with
    | spends rest =>
      rw [← follows.whole (by simp)]
      exact congrArg _ (List.take_append_drop _ _)
    | queues chunk rest did =>
      rw [growth_enqueue did] at nothing
      cases nothing
    | shut => exact absurd rfl fine
    | dead => exact absurd rfl fine
  · have whole := follows.whole (by simp)
    have split : (call.queued ++ [chunk]).flatten ++ rest = call.data := by
      simpa [Sending.rest] using whole
    refine ⟨follows.stream, ?_, fun _ => ?_⟩
    · rw [one]
      exact ⟨rest, split⟩
    · rw [one, Sending.rest_next]
      exact split

/-- What a send puts in the outbox it has had in its hand, and what it has in its
hand it has taken permits for. -/
theorem SendMove.inHand (move : SendMove s n stage t next) (k : Nat) :
    (Task.sending n next).inHand k + (if n = k then (Mux.growth s t).flatten.length else 0) ≤
      (Task.sending n stage).inHand k + share (s.spends (.sending n stage) .proceed) k := by
  cases move with
  | spends rest gate =>
    rw [growth_modify]
    simp only [Task.inHand, Session.spends, gate, share, Bool.false_eq_true, if_false, List.length_take,
      List.flatten_nil, List.length_nil, ite_self]
    split <;> omega
  | queues chunk rest did =>
    rw [task_inHand_next, growth_enqueue did]
    simp only [Task.inHand, @eq_comm _ k]
    split <;> simp
  | shut => simp [Task.inHand, growth_of_same]
  | dead => simp [Task.inHand, growth_of_same]

theorem SendMove.meters (move : SendMove s n stage t next) :
    ∃ added, Meters s t none (s.spends (.sending n stage) .proceed) added := by
  cases move with
  | spends rest gate enough =>
    refine ⟨[], Nat.le_refl _, fun k _ => ?_, fun k new known => absurd known (Nat.not_lt_of_le new),
      (List.append_nil _).symm⟩
    by_cases same : k = n
    · subst same
      simp [Session.spends, gate, share, Session.modify]
      omega
    · simp [Session.spends, gate, share, Session.modify, same]
  | queues chunk rest did =>
    obtain ⟨rfl, -, -⟩ := enqueue_eq did
    exact ⟨_, .plain rfl (fun _ => rfl) rfl⟩
  | shut rest gate =>
    have nothing : s.spends (.sending n (.acquire rest)) .proceed = none := if_pos gate
    rw [nothing]
    exact ⟨[], .still rfl (fun _ => rfl) rfl⟩
  | dead => exact ⟨[], .still rfl (fun _ => rfl) rfl⟩

end Sends

/-- Only streams that exist are granted credit. -/
theorem share_grants (valid : Valid s) (act : Session.Act) {n : Nat} (new : s.created ≤ n) :
    share (s.grants act) n = 0 := by
  cases granted : s.grants act with
  | none => rfl
  | some grant =>
    obtain ⟨aim, amount⟩ := grant
    cases act with
    | recv plain =>
      obtain ⟨frame, -, got⟩ := Option.bind_eq_some_iff.mp granted
      obtain ⟨-, found⟩ := Option.ite_none_right_eq_some.mp got
      obtain ⟨stream, there, same⟩ := Option.map_eq_some_iff.mp found
      cases same
      have known := (valid.known there).1
      exact if_neg (by omega)
    | _ => cases granted

theorem share_spends {task : Task} (known : ∀ stream stage, task = .sending stream stage → stream < s.created)
    (act : TaskAct) {n : Nat} (new : s.created ≤ n) : share (s.spends task act) n = 0 := by
  cases spent : s.spends task act with
  | none => rfl
  | some amount =>
    unfold Session.spends at spent
    split at spent
    · rename_i stream rest
      split at spent <;> cases spent
      have := known stream _ rfl
      exact if_neg (by omega)
    · cases spent

/-- The books of every stream, old and new, after a step. -/
theorem Meters.balance {m : Metered} (sound : m.Sound) {granted spent : Option (Nat × Nat)}
    {added : List Frame} (meters : Meters m.users.session t granted spent added)
    (grants : ∀ n, m.users.session.created ≤ n → share granted n = 0)
    (spends : ∀ n, m.users.session.created ≤ n → share spent n = 0) :
    (∀ n < t.created, (t.arena n).credit.permits + (m.taken n + share spent n) =
      window + (m.granted n + share granted n)) ∧
    ∀ n, t.created ≤ n → m.taken n + share spent n = 0 ∧ m.granted n + share granted n = 0 := by
  refine ⟨fun n known => ?_, fun n new => ?_⟩
  · by_cases old : n < m.users.session.created
    · have := meters.permits n old
      have := sound.balance n old
      omega
    · have new : m.users.session.created ≤ n := by omega
      rw [meters.fresh n new known, (sound.blank n new).1, (sound.blank n new).2, grants n new,
        spends n new]
  · have new : m.users.session.created ≤ n := Nat.le_trans meters.grows new
    exact ⟨by rw [(sound.blank n new).1, spends n new], by rw [(sound.blank n new).2, grants n new]⟩

/-- One task's step, seen from the sum over all of them. -/
theorem Metered.Covered.step {m m' : Metered} {names : Finset Nat} (covered : m.Covered names)
    {name : Nat} {task : Task} (tasks : m'.users.tasks = Function.update m.users.tasks name task)
    (moved : ∀ n, task.inHand n + (m'.queued n).flatten.length + m.taken n ≤
      (m.users.tasks name).inHand n + (m.queued n).flatten.length + m'.taken n) :
    m'.Covered (insert name (names.erase name)) := by
  refine ⟨fun other outside n => ?_, fun n => ?_⟩
  · rw [Finset.mem_insert, Finset.mem_erase, not_or, not_and] at outside
    rw [tasks, Function.update_of_ne outside.1]
    exact covered.1 other (outside.2 outside.1) n
  · have rest : ∑ other ∈ names.erase name, (m'.users.tasks other).inHand n =
        ∑ other ∈ names.erase name, (m.users.tasks other).inHand n := by
      refine Finset.sum_congr rfl fun other member => ?_
      rw [tasks, Function.update_of_ne (Finset.ne_of_mem_erase member)]
    have whole : (m.users.tasks name).inHand n + ∑ other ∈ names.erase name,
        (m.users.tasks other).inHand n = ∑ other ∈ names, (m.users.tasks other).inHand n := by
      by_cases member : name ∈ names
      · exact Finset.add_sum_erase names (fun other => (m.users.tasks other).inHand n) member
      · rw [covered.1 name member n, Finset.erase_eq_of_notMem member, Nat.zero_add]
    rw [Finset.sum_insert (Finset.notMem_erase name names), rest, tasks, Function.update_self]
    have := covered.2 n
    have := moved n
    omega

variable {m m' : Metered}

private theorem metered_link (sound : m.Sound) {act : Session.Act}
    (stepped : m.step (.link act) = some m') : m'.Sound := by
  obtain ⟨users, did, rfl⟩ := Option.map_eq_some_iff.mp stepped
  have valid := users_valid sound.valid did
  obtain ⟨session, linked, rfl⟩ := Option.map_eq_some_iff.mp did
  obtain ⟨added, meters, kinds⟩ := step_meters linked
  obtain ⟨balance, blank⟩ := meters.balance sound (fun n => share_grants sound.valid act) (fun _ _ => rfl)
  refine ⟨valid, balance, blank, sound.covered, sound.sized, fun name n stage sending => ?_,
    fun frame member kind => ?_⟩
  · obtain ⟨known, sized, follows⟩ := sound.tasks name n stage sending
    exact ⟨Nat.lt_of_lt_of_le known meters.grows, sized, follows⟩
  · rw [meters.out, List.mem_append] at member
    obtain old | new := member
    · exact sound.outbox frame old kind
    · exact .inl (kinds frame new kind)

/-- The task that has moved, and the others. -/
private theorem tasks_moved (sound : m.Sound) {name : Nat} {task : Task} {call : Call}
    (grows : m.users.session.created ≤ t.created)
    (own : ∀ n stage, task = .sending n stage → n < t.created ∧ stage.Sized ∧ call.Follows n stage)
    (other n : Nat) (stage : Sending)
    (sending : Function.update m.users.tasks name task other = .sending n stage) :
    n < t.created ∧ stage.Sized ∧ (Function.update m.calls name call other).Follows n stage := by
  by_cases same : other = name
  · subst same
    rw [Function.update_self] at sending ⊢
    exact own n stage sending
  · rw [Function.update_of_ne same] at sending ⊢
    obtain ⟨known, sized, follows⟩ := sound.tasks other n stage sending
    exact ⟨Nat.lt_of_lt_of_le known grows, sized, follows⟩

private theorem metered_send (sound : m.Sound) {name n : Nat} {data : Bytes}
    (stepped : m.step (.task name (.send n data)) = some m') : m'.Sound := by
  obtain ⟨users, did, rfl⟩ := Option.map_eq_some_iff.mp stepped
  have valid := users_valid sound.valid did
  obtain ⟨⟨session, task⟩, began, rfl⟩ := Option.map_eq_some_iff.mp did
  obtain ⟨_, _, _, other, -⟩ | ⟨_, _, same, known, rfl, rfl⟩ | unsent := taskStep_sends began
  · cases other
  · cases same
    obtain ⟨names, covered⟩ := sound.covered
    refine ⟨valid, sound.balance, sound.blank, ⟨_, covered.step rfl fun k => ?_⟩, sound.sized,
      tasks_moved sound (Nat.le_refl _) fun k stage same => ?_, sound.outbox⟩
    · dsimp only
      rw [task_inHand_next]
      omega
    · cases same
      exact ⟨known, Sending.next_sized data, rfl, List.nil_prefix, fun _ => Sending.rest_next data⟩
  · exact absurd rfl (unsent.other n data)

private theorem metered_move (sound : m.Sound) {name n : Nat} {stage next : Sending}
    (busy : m.users.tasks name = .sending n stage) (move : SendMove m.users.session n stage t next)
    (valid : Valid t) :
    ({ m with
      users := ⟨t, Function.update m.users.tasks name (.sending n next)⟩
      taken := fun k => m.taken k + share (m.users.session.spends (m.users.tasks name) .proceed) k
      queued := fun k => if (m.users.tasks name).sends = some k then
        m.queued k ++ growth m.users.session t else m.queued k
      calls := Function.update m.calls name { m.calls name with
        queued := (m.calls name).queued ++ growth m.users.session t } } : Metered).Sound := by
  obtain ⟨names, covered⟩ := sound.covered
  obtain ⟨known, sized, follows⟩ := sound.tasks name n stage busy
  obtain ⟨added, meters⟩ := move.meters
  rw [busy]
  obtain ⟨balance, blank⟩ := meters.balance sound (fun _ _ => rfl)
    (fun k => share_spends (fun _ _ same => by cases same; exact known) .proceed)
  refine ⟨valid, balance, blank, ⟨_, covered.step rfl fun k => ?_⟩, fun k payload member => ?_,
    tasks_moved sound meters.grows fun k other same => ?_, fun frame member kind => ?_⟩
  · have moved := move.inHand k
    rw [busy]
    simp only [Task.sends, Option.some.injEq]
    split at moved
    · rename_i own
      rw [if_pos own, List.flatten_append, List.length_append]
      omega
    · rename_i other
      rw [if_neg other]
      omega
  · dsimp only at member
    split at member
    · obtain old | new := List.mem_append.mp member
      · exact sound.sized k payload old
      · exact move.queued_sized sized payload new
    · exact sound.sized k payload member
  · cases same
    exact ⟨Nat.lt_of_lt_of_le known meters.grows, move.sized sized, move.follows follows⟩
  · obtain ⟨-, same⟩ | ⟨chunk, rest, -, -, one, more⟩ := move.growth
    · exact sound.outbox frame (same ▸ member) kind
    · obtain old | new := List.mem_append.mp (more ▸ member)
      · exact sound.outbox frame old kind
      · obtain rfl := List.mem_singleton.mp new
        exact .inr (move.queued_sized sized chunk (by simp [one]))

private theorem metered_task (sound : m.Sound) {name : Nat} {act : TaskAct}
    (other : ∀ n data, act ≠ .send n data) (stepped : m.step (.task name act) = some m') : m'.Sound := by
  have shape : ∃ session task, m.users.session.taskStep (m.users.tasks name) act = some (session, task) ∧
      m' = { m with
        users := ⟨session, Function.update m.users.tasks name task⟩
        taken := fun n => m.taken n + share (m.users.session.spends (m.users.tasks name) act) n
        queued := fun n => if (m.users.tasks name).sends = some n then
          m.queued n ++ growth m.users.session session else m.queued n
        calls := Function.update m.calls name { m.calls name with
          queued := (m.calls name).queued ++ growth m.users.session session } } := by
    obtain ⟨users, did, rfl⟩ := Option.map_eq_some_iff.mp stepped
    obtain ⟨⟨session, task⟩, moved, rfl⟩ := Option.map_eq_some_iff.mp did
    refine ⟨session, task, moved, ?_⟩
    cases act with
    | send n data => exact absurd rfl (other n data)
    | _ => rfl
  obtain ⟨session, task, did, rfl⟩ := shape
  have whole : m.users.step (.task name act) =
      some ⟨session, Function.update m.users.tasks name task⟩ := by
    simp [Users.step, did]
  have valid : Valid session := users_valid sound.valid whole
  obtain ⟨names, covered⟩ := sound.covered
  obtain ⟨n, stage, next, rfl, busy, rfl, move⟩ | ⟨n, data, rfl, -⟩ | unsent := taskStep_sends did
  · exact metered_move sound busy move valid
  · exact absurd rfl (other n data)
  · obtain ⟨added, meters, kinds⟩ := unsent.meters
    have nothing := growth_of_none meters.out kinds
    obtain ⟨balance, blank⟩ := meters.balance sound (fun _ _ => rfl) (fun _ _ => rfl)
    rw [unsent.spends, nothing]
    refine ⟨valid, balance, blank, ⟨_, covered.step rfl fun k => ?_⟩, fun k payload member => ?_,
      tasks_moved sound meters.grows fun k stage same => ?_, fun frame member kind => ?_⟩
    · have free : task.inHand k = 0 := by
        cases task with
        | sending => cases unsent.after
        | _ => rfl
      simp only [free, List.append_nil, ite_self, share]
      omega
    · simp only [List.append_nil, ite_self] at member
      exact sound.sized k payload member
    · rw [same] at unsent
      cases unsent.after
    · obtain old | new := List.mem_append.mp (meters.out ▸ member)
      · exact sound.outbox frame old kind
      · exact absurd kind (kinds frame new)

theorem Metered.step_sound (sound : m.Sound) (stepped : m.step act = some m') : m'.Sound := by
  cases act with
  | link act => exact metered_link sound stepped
  | task name act =>
    by_cases begins : ∃ n data, act = .send n data
    · obtain ⟨n, data, rfl⟩ := begins
      exact metered_send sound stepped
    · exact metered_task sound (fun n data same => begins ⟨n, data, same⟩) stepped

theorem Metered.start_sound (maxStreams : Nat) (onOpen : Bool) : (start maxStreams onOpen).Sound where
  valid := by constructor <;> intro id n found <;> cases found
  balance n known := absurd known (Nat.not_lt_zero n)
  blank _ _ := ⟨rfl, rfl⟩
  covered := ⟨∅, fun _ _ _ => rfl, fun _ => Nat.le_refl _⟩
  sized _ _ member := by cases member
  tasks _ _ _ sending := by cases sending
  outbox _ member := by cases member

/-- No stream is ever sent more than the window and its grants allow. A payload is
never empty and never too long for a record; a call that has returned Ok has queued
its argument, and any other a front part of it. -/
theorem sends_stay_within_the_window (maxStreams : Nat) (onOpen : Bool) (actions : List UsersAct)
    {t : Metered} (ran : run Metered.step (.start maxStreams onOpen) actions = some t) :
    (∀ n < t.users.session.created, (t.queued n).flatten.length ≤ window + t.granted n) ∧
    (∀ n, ∀ payload ∈ t.queued n, 0 < payload.length ∧ payload.length ≤ maxPayload ∧
      ∀ transport (e : NoiseEncoder) dst,
        (e.encode transport ⟨(t.users.session.arena n).id, .data, payload⟩ dst).2 = .ok ()) ∧
    (∀ frame ∈ t.users.session.out.accepted, frame.kind = .data →
      frame = .control 0 .data ∨ 0 < frame.payload.length ∧ frame.payload.length ≤ maxPayload) ∧
    ∀ name n stage, t.users.tasks name = .sending n stage →
      (t.calls name).stream = n ∧ (t.calls name).queued.flatten <+: (t.calls name).data ∧
      (stage = .sent → (t.calls name).queued.flatten = (t.calls name).data) := by
  have sound : t.Sound :=
    run_preserves Metered.Sound (fun m act m' => Metered.step_sound) 
      (Metered.start_sound maxStreams onOpen) ran
  refine ⟨fun n known => ?_, fun n payload member => ?_, fun frame member kind => ?_,
    fun name n stage sending => ?_⟩
  · obtain ⟨names, -, covered⟩ := sound.covered
    have := covered n
    have := sound.balance n known
    omega
  · obtain ⟨some, short⟩ := sound.sized n payload member
    refine ⟨List.length_pos_iff.mpr some, short, fun transport e dst => ?_⟩
    have fits : (⟨(t.users.session.arena n).id, .data, payload⟩ : Frame).Sealable :=
      Nat.le_trans short (by decide)
    rw [encode_seals fits]
  · obtain echo | ⟨some, short⟩ := sound.outbox frame member kind
    · exact .inl echo
    · exact .inr ⟨List.length_pos_iff.mpr some, short⟩
  · obtain ⟨-, -, follows⟩ := sound.tasks name n stage sending
    refine ⟨follows.stream, follows.front, ?_⟩
    rintro rfl
    simpa [Sending.rest] using follows.whole (by simp)

private def openOne : List UsersAct :=
  [.task 0 .tryOpen, .task 0 .proceed, .task 0 .proceed, .task 0 .proceed, .task 0 .proceed]

/-- WINDOW on stream 1 with the largest grant there is. -/
private def largestGrant : UsersAct :=
  .link (.recv [0, 0, 0, 1, 3, 0, 0, 0, 255, 255, 255, 255])

/-- Two grants and a send of a few bytes. -/
private def modestGrants : List UsersAct :=
  openOne ++ [.link (.recv [0, 0, 0, 1, 3, 0, 0, 0, 0, 0, 1, 0]), .task 0 (.send 0 [1, 2, 3]),
    .task 0 .proceed, largestGrant, .task 0 .proceed]

theorem sends_stay_within_the_window_modest :
    ∃ t, run Metered.step (.start 1 false) modestGrants = some t ∧ t.queued 0 = [[1, 2, 3]] ∧
      (t.queued 0).flatten.length ≤ window + t.granted 0 := by
  have reached : ((run Metered.step (.start 1 false) modestGrants).any fun t =>
      decide (t.queued 0 = [[1, 2, 3]] ∧ 0 < t.users.session.created)) = true := by decide +kernel
  obtain ⟨t, ran, queued⟩ := run_reaches reached
  refine ⟨t, ran, queued.1, ?_⟩
  exact (sends_stay_within_the_window 1 false modestGrants ran).1 0 queued.2

/-- Every WINDOW frame leaves the grants of its stream within what the semaphore
can hold beside the permits sends have taken. -/
def Metered.Affords (m : Metered) : UsersAct → Prop
  | .link act => ∀ grant ∈ m.users.session.grants act,
      window + (m.granted grant.1 + grant.2) ≤ maxPermits + m.taken grant.1
  | .task _ _ => True

instance (m : Metered) : (act : UsersAct) → Decidable (m.Affords act)
  | .link _ => Option.decidableForallMem _
  | .task _ _ => isTrue trivial

/-- No semaphore holds more than it can. -/
def Session.InRange (s : Session) : Prop :=
  ∀ n < s.created, (s.arena n).credit.permits ≤ maxPermits

/-- The grants on a stream as its books say it. -/
theorem Metered.Sound.inRange (sound : m.Sound) :
    m.users.session.InRange ↔
      ∀ n < m.users.session.created, window + m.granted n ≤ maxPermits + m.taken n := by
  refine forall₂_congr fun n known => ?_
  have := sound.balance n known
  omega

theorem grants_known (valid : Valid s) {act : Session.Act} {grant : Nat × Nat}
    (granted : s.grants act = some grant) : grant.1 < s.created ∨ grant.2 = 0 := by
  have nothing := share_grants valid act (n := grant.1)
  rw [granted] at nothing
  simp only [share, if_true] at nothing
  omega

theorem Metered.affords_iff (sound : m.Sound) (good : m.users.session.InRange)
    (stepped : m.step act = some m') : m.Affords act ↔ m'.users.session.InRange := by
  have sound' := Metered.step_sound sound stepped
  have before := sound.inRange.mp good
  have roomy : ∀ n, window + m.granted n ≤ maxPermits + m.taken n := by
    intro n
    by_cases known : n < m.users.session.created
    · exact before n known
    · rw [(sound.blank n (by omega)).2]
      exact Nat.le_trans (by decide) (Nat.le_add_right _ _)
  rw [sound'.inRange]
  cases act with
  | link act =>
    obtain ⟨users, did, rfl⟩ := Option.map_eq_some_iff.mp stepped
    obtain ⟨session, linked, rfl⟩ := Option.map_eq_some_iff.mp did
    obtain ⟨added, meters, -⟩ := step_meters linked
    constructor
    · intro affords n _
      cases granted : m.users.session.grants act with
      | none => simpa [share, granted] using roomy n
      | some grant =>
        dsimp only
        rw [granted, share]
        split
        · rename_i own
          exact own ▸ affords grant granted
        · exact roomy n
    · intro after grant granted
      obtain known | nothing := grants_known sound.valid granted
      · have room := after grant.1 (Nat.lt_of_lt_of_le known meters.grows)
        dsimp only at room
        rwa [granted, share, if_pos rfl] at room
      · rw [nothing, Nat.add_zero]
        exact roomy grant.1
  | task name act =>
    refine iff_of_true trivial fun n _ => ?_
    have granted : m'.granted n = m.granted n ∧ m.taken n ≤ m'.taken n := by
      obtain ⟨users, -, rfl⟩ := Option.map_eq_some_iff.mp stepped
      cases act with
      | send => exact ⟨rfl, Nat.le_refl _⟩
      | _ => exact ⟨rfl, Nat.le_add_right _ _⟩
    have := roomy n
    omega

/-- Along a run no semaphore is driven past its limit exactly as long as the grants
on every stream exceed what sends have taken by no more than the limit less the
window they start with. -/
theorem credit_stays_in_range (maxStreams : Nat) (onOpen : Bool) (actions : List UsersAct)
    {t : Metered} (ran : run Metered.step (.start maxStreams onOpen) actions = some t) :
    (∀ before, before <+: actions → ∀ mid,
      run Metered.step (.start maxStreams onOpen) before = some mid → mid.users.session.InRange) ↔
      Meets Metered.step Metered.Affords (.start maxStreams onOpen) actions := by
  apply always_iff_meets Metered.Sound (fun m => m.users.session.InRange) _ _ _ _ ran
  · intro m act m' sound stepped
    exact Metered.step_sound sound stepped
  · intro m act m' sound good stepped
    exact Metered.affords_iff sound good stepped
  · exact Metered.start_sound maxStreams onOpen
  · intro n known
    exact absurd known (Nat.not_lt_zero n)

theorem credit_stays_in_range_modest :
    ∃ t, run Metered.step (.start 1 false) modestGrants = some t ∧ t.users.session.InRange := by
  have checked : (run Metered.step (.start 1 false) modestGrants).isSome ∧
      Meets Metered.step Metered.Affords (.start 1 false) modestGrants := by decide +kernel
  obtain ⟨t, ran⟩ := Option.isSome_iff_exists.mp checked.1
  refine ⟨t, ran, ?_⟩
  exact (credit_stays_in_range 1 false modestGrants ran).mpr checked.2 modestGrants
    (List.prefix_refl _) t ran

private theorem largestGrant_step (u : Users) {n : Nat} (idle : u.session.reader = .idle)
    (found : u.session.streams 1 = some n) :
    ∃ next, u.step largestGrant = some next ∧ next.session.reader = .idle ∧
      next.session.streams 1 = some n ∧ next.session.created = u.session.created ∧
      (next.session.arena n).credit.permits = (u.session.arena n).credit.permits + (2 ^ 32 - 1) := by
  have parsed : Frame.parse [0, 0, 0, 1, 3, 0, 0, 0, 255, 255, 255, 255] =
      some ⟨1, .window, [255, 255, 255, 255]⟩ := by decide
  have amount : ofBe [255, 255, 255, 255] = 2 ^ 32 - 1 := by decide
  refine ⟨_, by simp only [Users.step, largestGrant, Session.step, idle, parsed]; rfl, ?_⟩
  simp [Session.dispatch, Session.modify, found, amount]

private theorem largestGrant_run (u : Users) {n : Nat} (idle : u.session.reader = .idle)
    (found : u.session.streams 1 = some n) (times : Nat) :
    ∃ t, run Users.step u (List.replicate times largestGrant) = some t ∧
      t.session.created = u.session.created ∧
      (t.session.arena n).credit.permits =
        (u.session.arena n).credit.permits + times * (2 ^ 32 - 1) := by
  induction times generalizing u with
  | zero => exact ⟨u, rfl, rfl, by omega⟩
  | succ times ih =>
    obtain ⟨next, stepped, idle, found, created, permits⟩ := largestGrant_step u idle found
    obtain ⟨t, ran, same, total⟩ := ih next idle found
    refine ⟨t, run_cons.mpr ⟨next, stepped, ran⟩, same.trans created, ?_⟩
    rw [total, permits, Nat.add_mul]
    omega

/-- A stream is opened and its peer sends 2^29 + 1 of them. -/
theorem grants_overflow_the_semaphore :
    ∃ actions t, run Metered.step (.start 1 false) actions = some t ∧
      ¬ t.users.session.InRange := by
  have opened : ((run Users.step { session := .start 1 false } openOne).any fun u =>
      decide (u.session.reader = .idle ∧ u.session.streams 1 = some 0 ∧ u.session.created = 1 ∧
        (u.session.arena 0).credit.permits = window)) = true := by decide +kernel
  obtain ⟨u, start, ready⟩ := run_reaches opened
  obtain ⟨idle, found, created, permits⟩ := ready
  obtain ⟨t, ran, same, total⟩ := largestGrant_run u idle found (2 ^ 29 + 1)
  have users := Metered.run_users (.start 1 false)
    (openOne ++ List.replicate (2 ^ 29 + 1) largestGrant)
  rw [show run Users.step (Metered.start 1 false).users _ = some t from
    run_append.mpr ⟨u, start, ran⟩] at users
  obtain ⟨m, metered, rfl⟩ := Option.map_eq_some_iff.mp users
  refine ⟨_, m, metered, fun good => ?_⟩
  have held := good 0 (by omega)
  rw [total, permits, maxPermits, window] at held
  omega

end DshProxy.Mux

import DshProxy.StreamCredit

/-! `MuxStreamIo`: one stream exposed as a byte stream. It is driven by poll
functions: each does what it can at once and returns, and everyone else on the
link goes on between two of its uninterrupted pieces. -/
namespace DshProxy.Mux
open Sync Wire ByteOrder Transitions

/-- Bytes queued for the bridge before a flush is forced. -/
def writeCoalesce : Nat := 32 * 1024

/-- What a poll function returns. -/
inductive IoReturn
  | pending
  /-- `Ready(Ok(()))` of `poll_read`, with what it has put into the buffer. -/
  | read (bytes : Bytes)
  /-- `Ready(Ok(n))` of `poll_write`. -/
  | wrote (count : Nat)
  /-- `Ready(Ok(()))` of `poll_flush` and of `poll_shutdown`. -/
  | done
  /-- `Ready(Err(_))`. -/
  | failed
  /-- The end of `drop`. -/
  | dropped
  deriving DecidableEq, Repr

/-- Where the call under way stands; `cx` names the waker in the caller's context. -/
inductive IoCall
  | idle
  /-- `poll_read` has filled its buffer; `return_credit` is next. -/
  | crediting (bytes : Bytes)
  /-- `poll_read` has met the end of the stream; `flush_credit` is next. -/
  | ending
  /-- In `poll_flush`, called by `poll_shutdown` or not. -/
  | flushing (cx : Nat) (shutdown : Bool)
  /-- `poll_shutdown` and `drop`: `flush_credit` is next. -/
  | settling (result : IoReturn)
  /-- And then `close_stream`. -/
  | closing (result : IoReturn)
  /-- `drop` is through, and the fields go with it: the receive half is next. -/
  | dropping
  | gone
  deriving DecidableEq, Repr

structure StreamIo where
  stream : Nat
  /-- The tail of a received frame not yet handed to the reader. -/
  inbox : Option Bytes := none
  /-- Bytes written but not yet sent. -/
  out : Bytes := []
  /-- A single in-flight `StreamTx::send`. -/
  pending : Option Sending := none
  /-- Receive credit earned by reading, not yet handed back to the peer. -/
  creditDue : Nat := 0
  call : IoCall := .idle
  deriving DecidableEq, Repr

inductive IoAct
  | pollRead (room : Nat)
  | pollWrite (cx : Nat) (data : Bytes)
  | pollFlush (cx : Nat)
  | pollShutdown (cx : Nat)
  | drop
  /-- The next piece of the call; `ok` says that a `try_send` finds a place, or
  that the polled send gets on. -/
  | proceed (ok : Bool)
  deriving DecidableEq, Repr

/-- `flush_credit`. -/
def Session.flushCredit (s : Session) (io : StreamIo) (ok : Bool) : Option (Session × StreamIo) :=
  if io.creditDue = 0 then some (s, io)
  else
    (s.trySends (.grant (s.arena io.stream).id io.creditDue) ok).map fun s =>
      (s, if ok then { io with creditDue := 0 } else io)

/-- `return_credit`. -/
def Session.returnCredit (s : Session) (io : StreamIo) (ok : Bool) : Option (Session × StreamIo) :=
  if io.creditDue < grantThreshold then some (s, io) else s.flushCredit io ok

/-- The reader's buffer takes what it has room for, and the rest of the chunk stays
behind: what both branches of `poll_read` do. -/
def StreamIo.hand (io : StreamIo) (chunk : Bytes) (room : Nat) : StreamIo :=
  let n := min chunk.length room
  { io with
    inbox := if n < chunk.length then some (chunk.drop n) else none
    creditDue := (io.creditDue + n) % 2 ^ 32
    call := .crediting (chunk.take n) }

/-- `poll_read` up to its credit. -/
def Session.pollRead (s : Session) (io : StreamIo) (room : Nat) :
    Session × StreamIo × Option IoReturn :=
  match io.inbox with
  | some chunk => (s, io.hand chunk room, none)
  | none =>
    match s.take io.stream with
    | some (chunk, s) => (s, io.hand chunk room, none)
    | none =>
      if s.Feeds io.stream then (s, io, some .pending) else (s, { io with call := .ending }, none)

/-- `poll_write`. A pending send owns the buffer, and is not polled here. -/
def StreamIo.pollWrite (io : StreamIo) (data : Bytes) : StreamIo × IoReturn :=
  if io.pending.isSome then (io, .pending)
  else
    let out := io.out ++ data
    (if writeCoalesce ≤ out.length then { io with out := [], pending := some (.next out) }
      else { io with out },
      .wrote data.length)

/-- `poll_flush` is through. -/
def StreamIo.flushed (io : StreamIo) (shutdown : Bool) (result : IoReturn) :
    StreamIo × Option IoReturn :=
  if shutdown then ({ io with call := .settling result }, none)
  else ({ io with call := .idle }, some result)

/-- The next piece of `poll_flush`. A send may report `Pending` with room before
it: places are promised to those who wait already. -/
def Session.pollFlush (s : Session) (io : StreamIo) (shutdown ok : Bool) :
    Option (Session × StreamIo × Option IoReturn) :=
  match io.pending with
  | none =>
    if io.out = [] then some (s, io.flushed shutdown .done)
    else
      some (s, { io with out := [], pending := some (.next io.out), call := .idle }, some .pending)
  | some .sent => some (s, { io with pending := none }, none)
  | some .broken => some (s, { io with pending := none }.flushed shutdown .failed)
  | some stage =>
    if ok then
      (s.sendStep io.stream stage).map fun (s, stage) => (s, { io with pending := some stage }, none)
    else some (s, { io with call := .idle }, some .pending)

/-- After `close_stream`. -/
def IoReturn.next : IoReturn → IoCall
  | .dropped => .dropping
  | _ => .idle

/-- The next piece of the call under way. -/
def Session.ioProceed (s : Session) (io : StreamIo) (ok : Bool) :
    Option (Session × StreamIo × Option IoReturn) :=
  match io.call with
  | .crediting bytes =>
    (s.returnCredit io ok).map fun (s, io) => (s, { io with call := .idle }, some (.read bytes))
  | .ending => (s.flushCredit io ok).map fun (s, io) => (s, { io with call := .idle }, some (.read []))
  | .flushing _ shutdown => s.pollFlush io shutdown ok
  | .settling result =>
    (s.flushCredit io ok).map fun (s, io) => (s, { io with call := .closing result }, none)
  | .closing result =>
    (s.closeStream io.stream ok).map fun s => (s, { io with call := result.next }, some result)
  | .dropping => some (s.hangUp io.stream, { io with call := .gone }, none)
  | .idle | .gone => none

def Session.ioStep (s : Session) (io : StreamIo) (act : IoAct) :
    Option (Session × StreamIo × Option IoReturn) :=
  match act, io.call with
  | .proceed ok, _ => s.ioProceed io ok
  | .pollRead room, .idle => some (s.pollRead io room)
  | .pollWrite _ data, .idle => some (s, (io.pollWrite data).1, some (io.pollWrite data).2)
  | .pollFlush cx, .idle => some (s, { io with call := .flushing cx false }, none)
  | .pollShutdown cx, .idle => some (s, { io with call := .flushing cx true }, none)
  | .drop, .idle => some (s, { io with call := .settling .dropped }, none)
  | _, _ => none

/-- Everything a step of the stream's own side can be, with what it needs and what
it does. -/
inductive IoMove (s : Session) (io : StreamIo) : IoAct → Session → StreamIo → Option IoReturn → Prop
  | drains (room chunk) (idle : io.call = .idle) (held : io.inbox = some chunk) :
    IoMove s io (.pollRead room) s (io.hand chunk room) none
  | receives (room chunk) (idle : io.call = .idle) (empty : io.inbox = none)
    (took : s.take io.stream = some (chunk, s')) :
    IoMove s io (.pollRead room) s' (io.hand chunk room) none
  | parks (room) (idle : io.call = .idle) (empty : io.inbox = none) (nothing : s.take io.stream = none)
    (fed : s.Feeds io.stream) : IoMove s io (.pollRead room) s io (some .pending)
  | ends (room) (idle : io.call = .idle) (empty : io.inbox = none) (nothing : s.take io.stream = none)
    (unfed : ¬ s.Feeds io.stream) :
    IoMove s io (.pollRead room) s { io with call := .ending } none
  | refuses (cx data stage) (idle : io.call = .idle) (busy : io.pending = some stage) :
    IoMove s io (.pollWrite cx data) s io (some .pending)
  | buffers (cx data) (idle : io.call = .idle) (free : io.pending = none)
    (short : (io.out ++ data).length < writeCoalesce) :
    IoMove s io (.pollWrite cx data) s { io with out := io.out ++ data } (some (.wrote data.length))
  | stages (cx data) (idle : io.call = .idle) (free : io.pending = none)
    (long : writeCoalesce ≤ (io.out ++ data).length) :
    IoMove s io (.pollWrite cx data) s { io with out := [], pending := some (.next (io.out ++ data)) }
      (some (.wrote data.length))
  | flush (cx) (idle : io.call = .idle) :
    IoMove s io (.pollFlush cx) s { io with call := .flushing cx false } none
  | shutdown (cx) (idle : io.call = .idle) :
    IoMove s io (.pollShutdown cx) s { io with call := .flushing cx true } none
  | drop (idle : io.call = .idle) :
    IoMove s io .drop s { io with call := .settling .dropped } none
  | credits (bytes ok) (call : io.call = .crediting bytes)
    (did : s.returnCredit io ok = some (s', io')) :
    IoMove s io (.proceed ok) s' { io' with call := .idle } (some (.read bytes))
  | finishes (ok) (call : io.call = .ending) (did : s.flushCredit io ok = some (s', io')) :
    IoMove s io (.proceed ok) s' { io' with call := .idle } (some (.read []))
  | settles (result ok) (call : io.call = .settling result)
    (did : s.flushCredit io ok = some (s', io')) :
    IoMove s io (.proceed ok) s' { io' with call := .closing result } none
  | closes (result ok) (call : io.call = .closing result)
    (did : s.closeStream io.stream ok = some s') :
    IoMove s io (.proceed ok) s' { io with call := result.next } (some result)
  | hangs (ok) (call : io.call = .dropping) :
    IoMove s io (.proceed ok) (s.hangUp io.stream) { io with call := .gone } none
  | flushed (cx shutdown ok) (call : io.call = .flushing cx shutdown) (free : io.pending = none)
    (empty : io.out = []) :
    IoMove s io (.proceed ok) s (io.flushed shutdown .done).1 (io.flushed shutdown .done).2
  | coalesces (cx shutdown ok) (call : io.call = .flushing cx shutdown) (free : io.pending = none)
    (present : io.out ≠ []) :
    IoMove s io (.proceed ok) s { io with out := [], pending := some (.next io.out), call := .idle }
      (some .pending)
  | sent (cx shutdown ok) (call : io.call = .flushing cx shutdown) (finished : io.pending = some .sent) :
    IoMove s io (.proceed ok) s { io with pending := none } none
  | breaks (cx shutdown ok) (call : io.call = .flushing cx shutdown)
    (finished : io.pending = some .broken) :
    IoMove s io (.proceed ok) s ({ io with pending := none }.flushed shutdown .failed).1
      ({ io with pending := none }.flushed shutdown .failed).2
  | polls (cx shutdown stage next) (call : io.call = .flushing cx shutdown)
    (busy : io.pending = some stage) (did : s.sendStep io.stream stage = some (s', next)) :
    IoMove s io (.proceed true) s' { io with pending := some next } none
  | waits (cx shutdown stage) (call : io.call = .flushing cx shutdown) (busy : io.pending = some stage)
    (going : stage ≠ .sent ∧ stage ≠ .broken) :
    IoMove s io (.proceed false) s { io with call := .idle } (some .pending)

section Inversion
variable {s s' : Session} {io io' : StreamIo} {ret : Option IoReturn}

private theorem pollRead_move (room : Nat) (idle : io.call = .idle) :
    IoMove s io (.pollRead room) (s.pollRead io room).1 (s.pollRead io room).2.1
      (s.pollRead io room).2.2 := by
  unfold Session.pollRead
  split
  · exact .drains room _ idle (by assumption)
  · rename_i empty
    split
    · exact .receives room _ idle empty (by assumption)
    · rename_i nothing
      split
      · exact .parks room idle empty nothing (by assumption)
      · exact .ends room idle empty nothing (by assumption)

private theorem pollFlush_move {cx : Nat} {shutdown ok : Bool} (call : io.call = .flushing cx shutdown)
    (did : s.pollFlush io shutdown ok = some (s', io', ret)) :
    IoMove s io (.proceed ok) s' io' ret := by
  unfold Session.pollFlush at did
  split at did
  · rename_i free
    split at did
    · rename_i empty
      simp only [Option.some.injEq, Prod.ext_iff] at did
      obtain ⟨rfl, rfl, rfl⟩ := did
      exact .flushed cx shutdown ok call free empty
    · rename_i some
      cases did
      exact .coalesces cx shutdown ok call free some
  · rename_i finished
    cases did
    exact .sent cx shutdown ok call finished
  · rename_i finished
    simp only [Option.some.injEq, Prod.ext_iff] at did
    obtain ⟨rfl, rfl, rfl⟩ := did
    exact .breaks cx shutdown ok call finished
  · rename_i stage unsent unbroken busy
    split at did
    · rename_i going
      subst going
      obtain ⟨⟨mid, next⟩, moved, same⟩ := Option.map_eq_some_iff.mp did
      cases same
      exact .polls cx shutdown stage next call busy moved
    · rename_i stuck
      cases did
      obtain rfl : ok = false := by simpa using stuck
      exact .waits cx shutdown stage call busy ⟨unsent, unbroken⟩

theorem ioStep_move {act : IoAct} (stepped : s.ioStep io act = some (s', io', ret)) :
    IoMove s io act s' io' ret := by
  unfold Session.ioStep at stepped
  split at stepped
  · unfold Session.ioProceed at stepped
    split at stepped
    · rename_i call
      obtain ⟨⟨mid, next⟩, did, same⟩ := Option.map_eq_some_iff.mp stepped
      cases same
      exact .credits _ _ call did
    · rename_i call
      obtain ⟨⟨mid, next⟩, did, same⟩ := Option.map_eq_some_iff.mp stepped
      cases same
      exact .finishes _ call did
    · rename_i call
      exact pollFlush_move call stepped
    · rename_i call
      obtain ⟨⟨mid, next⟩, did, same⟩ := Option.map_eq_some_iff.mp stepped
      cases same
      exact .settles _ _ call did
    · rename_i call
      obtain ⟨mid, did, same⟩ := Option.map_eq_some_iff.mp stepped
      cases same
      exact .closes _ _ call did
    · rename_i call
      cases stepped
      exact .hangs _ call
    · cases stepped
    · cases stepped
  · rename_i room idle
    simp only [Option.some.injEq, Prod.ext_iff] at stepped
    obtain ⟨rfl, rfl, rfl⟩ := stepped
    exact pollRead_move room idle
  · rename_i cx data idle
    simp only [Option.some.injEq, Prod.ext_iff] at stepped
    obtain ⟨rfl, rfl, rfl⟩ := stepped
    unfold StreamIo.pollWrite
    split
    · rename_i busy
      obtain ⟨stage, busy⟩ := Option.isSome_iff_exists.mp busy
      exact .refuses cx data stage idle busy
    · rename_i free
      have free : io.pending = none := by simpa using free
      dsimp only
      split
      · exact .stages cx data idle free (by assumption)
      · exact .buffers cx data idle free (by omega)
  · rename_i idle
    cases stepped
    exact .flush _ idle
  · rename_i idle
    cases stepped
    exact .shutdown _ idle
  · rename_i idle
    cases stepped
    exact .drop idle
  · cases stepped

/-- `flush_credit` hands back all that is due, or nothing. -/
theorem flushCredit_cases {ok : Bool} (did : s.flushCredit io ok = some (s', io')) :
    (s' = s ∧ io' = io ∧ (io.creditDue = 0 ∨ ok = false)) ∨
    (ok = true ∧ io.creditDue ≠ 0 ∧ io' = { io with creditDue := 0 } ∧
      s.enqueue (.grant (s.arena io.stream).id io.creditDue) = some s') := by
  unfold Session.flushCredit at did
  split at did
  · rename_i nothing
    cases did
    exact .inl ⟨rfl, rfl, .inl nothing⟩
  · rename_i due
    obtain ⟨mid, tried, same⟩ := Option.map_eq_some_iff.mp did
    cases same
    cases ok with
    | false =>
      cases tried
      exact .inl ⟨rfl, rfl, .inr rfl⟩
    | true => exact .inr ⟨rfl, due, rfl, tried⟩

/-- Handing back credit touches the amount due and nothing else of the stream's side. -/
theorem flushCredit_same {ok : Bool} (did : s.flushCredit io ok = some (s', io')) :
    io' = { io with creditDue := io'.creditDue } := by
  obtain ⟨-, rfl, -⟩ | ⟨-, -, rfl, -⟩ := flushCredit_cases did <;> rfl

/-- `return_credit` only does so once half a window is due. -/
theorem returnCredit_cases {ok : Bool} (did : s.returnCredit io ok = some (s', io')) :
    (io.creditDue < grantThreshold ∧ s' = s ∧ io' = io) ∨
    (grantThreshold ≤ io.creditDue ∧ s.flushCredit io ok = some (s', io')) := by
  unfold Session.returnCredit at did
  split at did
  · rename_i low
    cases did
    exact .inl ⟨low, rfl, rfl⟩
  · exact .inr ⟨by omega, did⟩

theorem returnCredit_same {ok : Bool} (did : s.returnCredit io ok = some (s', io')) :
    io' = { io with creditDue := io'.creditDue } := by
  obtain ⟨-, -, rfl⟩ | ⟨-, did⟩ := returnCredit_cases did
  · rfl
  · exact flushCredit_same did

end Inversion

/-- The send waits for credit or for a place in the outbox. -/
def Session.Blocks (s : Session) (n : Nat) : Sending → Prop
  | .acquire rest =>
    (s.arena n).credit.closed = false ∧ (s.arena n).credit.permits < min rest.length maxPayload
  | .queue _ _ => s.out.isOpen = true ∧ outboxFrames ≤ s.out.len
  | .sent | .broken => False

instance (s : Session) (n : Nat) : (stage : Sending) → Decidable (s.Blocks n stage)
  | .acquire _ => inferInstanceAs (Decidable (_ ∧ _))
  | .queue _ _ => inferInstanceAs (Decidable (_ ∧ _))
  | .sent | .broken => isFalse id

/-- The send in flight is blocked. -/
def StreamIo.blocked (io : StreamIo) (s : Session) : Bool :=
  io.pending.any fun stage => s.Blocks io.stream stage

/-- The stream a task is in the middle of something on. -/
def Task.on : Task → Option Nat
  | .opening (.announce n) | .opening (.giveUp n) | .sending n _ | .granting n _ => some n
  | _ => none

/-- The step is none of the stream's: a `MuxStreamIo` owns both halves of it. -/
def Users.avoids (u : Users) (n : Nat) : UsersAct → Bool
  | .link _ => true
  | .task name act => if act = .proceed then (u.tasks name).on ≠ some n else act.stream ≠ some n

/-- The frames a step has added to the outbox. -/
def added (before after : Session) : List Frame :=
  after.out.accepted.drop before.out.accepted.length

section Added
variable {s s' : Session} {io io' : StreamIo} {ret : Option IoReturn}

theorem added_of_same (out : s'.out = s.out) : added s s' = [] := by
  rw [added, out, List.drop_length]

theorem added_enqueue {frame : Frame} (queued : s.enqueue frame = some s') : added s s' = [frame] := by
  rw [added, (enqueue_eq queued).1, Channel.push_accepted, List.drop_left]

theorem added_flushCredit {ok : Bool} (did : s.flushCredit io ok = some (s', io')) :
    added s s' = [] ∧ io'.creditDue = io.creditDue ∧ (io.creditDue = 0 ∨ ok = false) ∨
    added s s' = [.grant (s.arena io.stream).id io.creditDue] ∧ io'.creditDue = 0 ∧ ok = true := by
  obtain ⟨rfl, rfl, idle⟩ | ⟨rfl, -, rfl, queued⟩ := flushCredit_cases did
  · exact .inl ⟨added_of_same rfl, rfl, idle⟩
  · exact .inr ⟨added_enqueue queued, rfl, rfl⟩

/-- A CLOSE comes from `close_stream` only. -/
theorem IoMove.stages_close {own : IoAct} (move : IoMove s io own s' io' ret) {frame : Frame}
    (member : frame ∈ added s s') (kind : frame.kind = .close) : ∃ result, io.call = .closing result := by
  have grants {ok : Bool} {io' : StreamIo} (did : s.flushCredit io ok = some (s', io')) : False := by
    obtain ⟨nothing, -⟩ | ⟨one, -⟩ := added_flushCredit did
    · rw [nothing] at member
      cases member
    · rw [one] at member
      obtain rfl := List.mem_singleton.mp member
      cases kind
  have nothing (out : s'.out = s.out) : False := by
    rw [added_of_same out] at member
    cases member
  cases move with
  | receives room chunk _ _ took => exact (nothing (take_out took)).elim
  | credits bytes ok call did =>
    obtain ⟨-, rfl, -⟩ | ⟨-, did⟩ := returnCredit_cases did
    · exact (nothing rfl).elim
    · exact (grants did).elim
  | finishes ok call did => exact (grants did).elim
  | settles result ok call did => exact (grants did).elim
  | closes result ok call => exact ⟨result, call⟩
  | polls cx shutdown stage next call busy did =>
    cases sendStep_move did with
    | queues chunk rest queued =>
      rw [added_enqueue queued] at member
      obtain rfl := List.mem_singleton.mp member
      cases kind
    | _ => exact (nothing rfl).elim
  | _ => exact (nothing rfl).elim

end Added

/-- A `MuxStreamIo` among everyone else on its link, with a record of what has gone
through it. -/
structure IoRun where
  users : Users
  io : StreamIo
  /-- The data `poll_write` has accepted. -/
  accepted : Bytes := []
  /-- The DATA payloads its sends have queued. -/
  enqueued : Bytes := []
  /-- The bytes `poll_read` has returned. -/
  returned : Bytes := []
  /-- The grants it has queued. -/
  granted : Nat := 0
  /-- A send has failed. -/
  failed : Bool := false
  /-- The outbox has refused the last grant that was due, and has taken none since. -/
  refused : Bool := false
  /-- The context the send in flight was last polled with. -/
  polled : Option Nat := none
  /-- How many bytes `poll_write` has accepted since a flush or a shutdown last
  returned Ready. -/
  unflushed : Nat := 0
  /-- And whether one has returned Pending since. -/
  waited : Bool := false
  /-- What the last piece returned. -/
  last : Option IoReturn := none

def IoRun.start (u : Users) (n : Nat) : IoRun := { users := u, io := { stream := n } }

inductive RunAct
  | other (act : UsersAct)
  | own (act : IoAct)
  deriving DecidableEq, Repr

/-- The data a call has accepted. -/
def IoAct.accepts : IoAct → Option IoReturn → Bytes
  | .pollWrite _ data, some (.wrote _) => data
  | _, _ => []

/-- The bytes a call has read. -/
def IoReturn.bytes : Option IoReturn → Bytes
  | some (.read bytes) => bytes
  | _ => []

/-- Whether a grant that was due has been refused, after a piece that hands back
credit or another one. -/
def IoRun.refusedAfter (r : IoRun) (act : IoAct) : Bool :=
  match r.io.call, act with
  | .crediting _, .proceed ok => if grantThreshold ≤ r.io.creditDue then !ok else r.refused
  | .ending, .proceed ok | .settling _, .proceed ok => r.refused && !ok
  | _, _ => r.refused

/-- The context of the last poll: `poll_flush` polls the send in flight. -/
def IoRun.polledAfter (r : IoRun) (act : IoAct) : Option Nat :=
  match r.io.call, act with
  | .flushing cx _, .proceed _ => some cx
  | _, _ => r.polled

/-- A flush or a shutdown returns Ready: nothing else returns either value. -/
def IoReturn.endsFlush : Option IoReturn → Bool
  | some .done | some .failed => true
  | _ => false

/-- Whether a flush or a shutdown has returned Pending since one last returned
Ready. -/
def IoRun.waitedAfter (r : IoRun) (ret : Option IoReturn) : Bool :=
  match r.io.call, ret with
  | .flushing _ _, some .pending => true
  | _, _ => if IoReturn.endsFlush ret then false else r.waited

/-- The record after a piece of the stream's own. -/
def IoRun.after (r : IoRun) (act : IoAct) (session : Session) (io : StreamIo) (ret : Option IoReturn) :
    IoRun where
  users := { r.users with session }
  io
  accepted := r.accepted ++ act.accepts ret
  enqueued := r.enqueued ++ (growth r.users.session session).flatten
  returned := r.returned ++ IoReturn.bytes ret
  granted := r.granted + grantsOn (r.users.session.arena io.stream).id (added r.users.session session)
  failed := r.failed || io.pending = some .broken
  refused := r.refusedAfter act
  polled := if r.io.pending.isSome && io.pending.isSome then r.polledAfter act else none
  unflushed := if IoReturn.endsFlush ret then 0 else r.unflushed + (act.accepts ret).length
  waited := r.waitedAfter ret
  last := ret

def IoRun.step (r : IoRun) : RunAct → Option IoRun
  | .other act =>
    if r.users.avoids r.io.stream act then
      (r.users.step act).map fun users => { r with users }
    else none
  | .own act =>
    (r.users.session.ioStep r.io act).map fun (session, io, ret) => r.after act session io ret

/-- A link on which the first stream has just been opened. -/
def Users.opened : Users :=
  (run Users.step { session := .start 1 false }
    (.task 0 .tryOpen :: List.replicate 4 (.task 0 .proceed))).getD { session := .start 1 false }

/-- Keepalives are echoed on it until its outbox is full. -/
def echoes : List RunAct :=
  (List.replicate 255
    [.other (.link (.recv [0, 0, 0, 0, 0, 0, 0, 0])), .other (.link .reply)]).flatten

theorem Users.opened_linked : run Users.step { session := .start 1 false }
    (.task 0 .tryOpen :: List.replicate 4 (.task 0 .proceed)) = some .opened := by
  have present : (run Users.step { session := .start 1 false }
      (.task 0 .tryOpen :: List.replicate 4 (.task 0 .proceed))).isSome := by decide +kernel
  obtain ⟨u, ran⟩ := Option.isSome_iff_exists.mp present
  rw [Users.opened, ran]
  rfl

/-- A step is somebody else's, or a piece of the stream's own. -/
theorem IoRun.step_cases {r r' : IoRun} {act : RunAct} (stepped : r.step act = some r') :
    (∃ theirs users, act = .other theirs ∧ r.users.avoids r.io.stream theirs = true ∧
      r.users.step theirs = some users ∧ r' = { r with users }) ∨
    ∃ own session io ret, act = .own own ∧ IoMove r.users.session r.io own session io ret ∧
      r' = r.after own session io ret := by
  cases act with
  | other theirs =>
    obtain ⟨avoids, did⟩ := Option.ite_none_right_eq_some.mp stepped
    obtain ⟨users, moved, rfl⟩ := Option.map_eq_some_iff.mp did
    exact .inl ⟨theirs, users, rfl, avoids, moved, rfl⟩
  | own own =>
    obtain ⟨⟨session, io, ret⟩, did, rfl⟩ := Option.map_eq_some_iff.mp stepped
    exact .inr ⟨own, session, io, ret, rfl, ioStep_move did, rfl⟩

end DshProxy.Mux

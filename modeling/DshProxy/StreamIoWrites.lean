import DshProxy.MuxStreamIo

/-! The write side of `MuxStreamIo`. Bytes pass from the coalescing buffer to the
send in flight and from there to the outbox; at every hand-over the three together
are what `poll_write` has accepted. -/
namespace DshProxy.Mux
open Sync Wire ByteOrder Transitions

/-- What the send in flight has not queued yet. -/
def StreamIo.unsent (io : StreamIo) : Bytes := (io.pending.map Sending.rest).getD []

/-- A call that is about to close the stream has sent everything, or has failed, or
is the drop. -/
def IoRun.Rests (r : IoRun) : Prop :=
  match r.io.call with
  | .settling .done | .closing .done => r.io.pending = none ∧ r.io.out = []
  | .settling .failed | .closing .failed => r.failed = true
  | .settling result | .closing result => result = .dropped
  | _ => True

/-- What holds of the write side in every state. -/
structure IoRun.Writes (r : IoRun) : Prop where
  whole : r.failed = false → r.enqueued ++ r.io.unsent ++ r.io.out = r.accepted
  broken : r.io.pending = some .broken → r.failed = true
  short : r.io.out.length < writeCoalesce
  free : r.io.pending ≠ none → r.io.out = []
  rests : r.Rests
  done : r.last = some .done → r.failed = false → r.enqueued = r.accepted

variable {s s' : Session} {io io' : StreamIo} {ret : Option IoReturn} {r r' : IoRun}

theorem growth_grant {id : UInt32} {bytes : Nat} (queued : s.enqueue (.grant id bytes) = some s') :
    growth s s' = [] := by
  obtain ⟨rfl, -, -⟩ := enqueue_eq queued
  exact growth_of_none (Channel.push_accepted _ _) (by simp [Frame.grant])

theorem growth_flushCredit {ok : Bool} (did : s.flushCredit io ok = some (s', io')) :
    growth s s' = [] := by
  obtain ⟨rfl, -⟩ | ⟨-, -, -, queued⟩ := flushCredit_cases did
  · exact growth_of_same rfl
  · exact growth_grant queued

theorem growth_returnCredit {ok : Bool} (did : s.returnCredit io ok = some (s', io')) :
    growth s s' = [] := by
  obtain ⟨-, rfl, -⟩ | ⟨-, did⟩ := returnCredit_cases did
  · exact growth_of_same rfl
  · exact growth_flushCredit did

theorem growth_closeStream {n : Nat} {ok : Bool} (did : s.closeStream n ok = some s') :
    growth s s' = [] := by
  obtain ⟨-, queued⟩ | ⟨-, rfl⟩ := closeStream_cases did
  · obtain ⟨rfl, -, -⟩ := enqueue_eq queued
    have out : ((s.removeAndClose (s.arena n).id).out.push (.control (s.arena n).id .close)).accepted =
        s.out.accepted ++ [.control (s.arena n).id .close] := by
      rw [Channel.push_accepted, removeAndClose_out]
    exact growth_of_none out (by simp [Frame.control])
  · exact growth_of_same (removeAndClose_out s _)

/-- A piece keeps the write side if it keeps the bytes together. -/
private theorem writes_of {own : IoAct} (short : io'.out.length < writeCoalesce)
    (free : io'.pending ≠ none → io'.out = []) (rests : (r.after own s' io' ret).Rests)
    (whole : r.failed = false → io'.pending ≠ some .broken →
      r.enqueued ++ (growth r.users.session s').flatten ++ io'.unsent ++ io'.out =
        r.accepted ++ own.accepts ret)
    (done : ret = some .done → io'.pending = none ∧ io'.out = []) :
    (r.after own s' io' ret).Writes := by
  have fine (unfailed : (r.after own s' io' ret).failed = false) :
      r.failed = false ∧ io'.pending ≠ some .broken := by
    simpa [IoRun.after] using unfailed
  refine ⟨fun unfailed => ?_, fun broken => ?_, short, free, rests, fun last unfailed => ?_⟩
  · exact whole (fine unfailed).1 (fine unfailed).2
  · rw [IoRun.after, show io'.pending = some .broken from broken]
    exact Bool.or_true _
  · obtain ⟨none, empty⟩ := done last
    have all := whole (fine unfailed).1 (fine unfailed).2
    rw [empty, StreamIo.unsent, none, List.append_nil] at all
    simpa [IoRun.after] using all

/-- A piece that leaves the write side alone. -/
private theorem writes_still (writes : r.Writes) {own : IoAct} (out : io'.out = r.io.out)
    (pending : io'.pending = r.io.pending) (nothing : growth r.users.session s' = [])
    (other : own.accepts ret = []) (rests : (r.after own s' io' ret).Rests)
    (done : ret = some .done → r.io.pending = none ∧ r.io.out = []) :
    (r.after own s' io' ret).Writes := by
  refine writes_of (out ▸ writes.short) (by rw [pending, out]; exact writes.free) rests
    (fun fine _ => ?_) (by rw [pending, out]; exact done)
  rw [nothing, other, out, StreamIo.unsent, pending]
  simpa [StreamIo.unsent] using writes.whole fine

/-- The send in flight queues what it has, in order, as long as it does not fail. -/
theorem SendMove.unsent {n : Nat} {stage next : Sending} (move : SendMove s n stage s' next)
    (fine : next ≠ .broken) : (Mux.growth s s').flatten ++ next.rest = stage.rest := by
  cases move with
  | spends rest =>
    rw [growth_modify]
    exact List.take_append_drop maxPayload rest
  | queues chunk rest did =>
    rw [growth_enqueue did, Sending.rest_next]
    simp [Sending.rest]
  | shut => exact absurd rfl fine
  | dead => exact absurd rfl fine

/-- A new send takes over the buffer. -/
private theorem writes_staged (writes : r.Writes) {own : IoAct} (free : r.io.pending = none)
    {data : Bytes} (out : io'.out = []) (pending : io'.pending = some (.next (r.io.out ++ data)))
    (accepts : own.accepts ret = data) (rests : (r.after own r.users.session io' ret).Rests)
    (unfinished : ret ≠ some .done) : (r.after own r.users.session io' ret).Writes := by
  refine writes_of (by rw [out]; decide) (fun _ => out) rests (fun fine _ => ?_)
    (fun finished => absurd finished unfinished)
  have whole := writes.whole fine
  simp only [StreamIo.unsent, free, Option.map_none, Option.getD_none, List.append_nil] at whole
  simp [growth_of_same, StreamIo.unsent, pending, out, accepts, ← whole]

/-- Every piece of the stream's own keeps the write side. -/
theorem IoMove.writes (writes : r.Writes) {own : IoAct} (move : IoMove r.users.session r.io own s' io' ret) :
    (r.after own s' io' ret).Writes := by
  have rests := writes.rests
  cases move with
  | drains room chunk => exact writes_still writes rfl rfl (growth_of_same rfl) rfl trivial (by simp)
  | receives room chunk _ _ took =>
    exact writes_still writes rfl rfl (growth_of_same (take_out took)) rfl trivial (by simp)
  | parks room idle =>
    exact writes_still writes rfl rfl (growth_of_same rfl) rfl (by simp [IoRun.Rests, IoRun.after, idle])
      (by simp)
  | ends => exact writes_still writes rfl rfl (growth_of_same rfl) rfl trivial (by simp)
  | refuses cx data stage idle =>
    exact writes_still writes rfl rfl (growth_of_same rfl) rfl (by simp [IoRun.Rests, IoRun.after, idle])
      (by simp)
  | buffers cx data idle free short =>
    refine writes_of short (fun busy => absurd free busy) (by simp [IoRun.Rests, IoRun.after, idle])
      (fun fine _ => ?_) (by simp)
    have whole := writes.whole fine
    simp only [StreamIo.unsent, free, Option.map_none, Option.getD_none, List.append_nil] at whole
    simp [growth_of_same, StreamIo.unsent, free, IoAct.accepts, ← whole]
  | stages cx data idle free =>
    exact writes_staged writes free rfl rfl rfl (by simp [IoRun.Rests, IoRun.after, idle]) (by simp)
  | flush => exact writes_still writes rfl rfl (growth_of_same rfl) rfl trivial (by simp)
  | shutdown => exact writes_still writes rfl rfl (growth_of_same rfl) rfl trivial (by simp)
  | drop => exact writes_still writes rfl rfl (growth_of_same rfl) rfl rfl (by simp)
  | credits bytes ok call did =>
    rw [returnCredit_same did]
    exact writes_still writes rfl rfl (growth_returnCredit did) rfl trivial (by simp)
  | finishes ok call did =>
    rw [flushCredit_same did]
    exact writes_still writes rfl rfl (growth_flushCredit did) rfl trivial (by simp)
  | settles result ok call did =>
    rw [flushCredit_same did]
    refine writes_still writes rfl rfl (growth_flushCredit did) rfl ?_ (by simp)
    rw [IoRun.Rests, call] at rests
    cases result <;> simp_all [IoRun.Rests, IoRun.after]
  | closes result ok call did =>
    rw [IoRun.Rests, call] at rests
    refine writes_still writes rfl rfl (growth_closeStream did) rfl ?_ fun last => ?_
    · cases result <;> exact trivial
    · cases last
      exact rests
  | hangs => exact writes_still writes rfl rfl (growth_of_same rfl) rfl trivial (by simp)
  | flushed cx shutdown ok call free empty =>
    cases shutdown with
    | true =>
      exact writes_still writes rfl rfl (growth_of_same rfl) rfl ⟨free, empty⟩ (by simp [StreamIo.flushed])
    | false =>
      exact writes_still writes rfl rfl (growth_of_same rfl) rfl trivial fun _ => ⟨free, empty⟩
  | coalesces cx shutdown ok call free =>
    have whole : some (Sending.next r.io.out) = some (.next (r.io.out ++ [])) := by
      rw [List.append_nil]
    exact writes_staged writes free rfl whole rfl trivial (by simp)
  | sent cx shutdown ok call finished =>
    refine writes_of writes.short (fun busy => absurd rfl busy) ?_ (fun fine _ => ?_) (by simp)
    · simp [IoRun.Rests, IoRun.after, call]
    · simpa [growth_of_same, StreamIo.unsent, finished, Sending.rest, IoAct.accepts] using writes.whole fine
  | breaks cx shutdown ok call finished =>
    have failed := writes.broken finished
    refine writes_of (by cases shutdown <;> exact writes.short) ?_ ?_ (fun fine => ?_) ?_
    · cases shutdown <;> exact fun busy => absurd rfl busy
    · cases shutdown
      · trivial
      · show (r.after _ _ _ _).failed = true
        simp [IoRun.after, failed]
    · rw [failed] at fine
      cases fine
    · cases shutdown <;> simp [StreamIo.flushed]
  | polls cx shutdown stage next call busy did =>
    have empty := writes.free (by simp [busy])
    refine writes_of writes.short (fun _ => empty) ?_ (fun fine unbroken => ?_) (by simp)
    · simp [IoRun.Rests, IoRun.after, call]
    · have moved := (sendStep_move did).unsent (fun broken => unbroken (by rw [broken]))
      have whole := writes.whole fine
      simp only [StreamIo.unsent, busy, Option.map_some, Option.getD_some, ← moved] at whole
      simpa [StreamIo.unsent, IoAct.accepts] using whole
  | waits cx shutdown stage call =>
    exact writes_still writes rfl rfl (growth_of_same rfl) rfl trivial (by simp)

theorem IoRun.Writes.step (writes : r.Writes) {act : RunAct} (stepped : r.step act = some r') :
    r'.Writes := by
  obtain ⟨theirs, users, -, -, -, rfl⟩ | ⟨own, session, io, ret, -, move, rfl⟩ := IoRun.step_cases stepped
  · exact ⟨writes.whole, writes.broken, writes.short, writes.free, writes.rests, writes.done⟩
  · exact move.writes writes

theorem IoRun.Writes.start (u : Users) (n : Nat) : (IoRun.start u n).Writes := by
  refine ⟨fun _ => rfl, fun broken => ?_, ?_, fun busy => absurd rfl busy, trivial, fun done => ?_⟩
  · cases broken
  · exact Nat.zero_lt_succ _
  · cases done

/-- Until a send fails, what its sends have queued, the send in flight and the buffer
are what `poll_write` has accepted, in order. The buffer never grows to a forced
flush and is empty while a send is in flight; a flush or a shutdown that returns
Ok, and a shutdown that sends CLOSE, have queued everything. -/
theorem accepted_writes_are_queued (u : Users) (n : Nat) (actions : List RunAct) {t : IoRun}
    (ran : run IoRun.step (.start u n) actions = some t) :
    (t.failed = false → t.enqueued ++ t.io.unsent ++ t.io.out = t.accepted) ∧
    t.io.out.length < writeCoalesce ∧ (t.io.pending ≠ none → t.io.out = []) ∧
    (t.failed = false → t.last = some .done → t.enqueued = t.accepted) ∧
    ∀ own next, t.step (.own own) = some next →
      (∃ frame ∈ added t.users.session next.users.session, frame.kind = .close) →
      t.io.call ≠ .closing .dropped → t.failed = false → t.enqueued = t.accepted := by
  have writes : t.Writes :=
    run_preserves IoRun.Writes (fun r act r' writes stepped => writes.step stepped) (.start u n) ran
  refine ⟨writes.whole, writes.short, writes.free, fun fine done => writes.done done fine, ?_⟩
  rintro own next stepped ⟨frame, member, kind⟩ undropped fine
  obtain ⟨_, _, other, -⟩ | ⟨_, session, io, ret, same, move, rfl⟩ := IoRun.step_cases stepped
  · cases other
  · cases same
    obtain ⟨result, call⟩ := move.stages_close member kind
    have rests := writes.rests
    rw [IoRun.Rests, call] at rests
    cases result with
    | done => simpa [StreamIo.unsent, rests.1, rests.2] using writes.whole fine
    | failed =>
      rw [rests] at fine
      cases fine
    | dropped => exact absurd call undropped
    | _ => cases rests

/-- A write and the two flushes it takes to get it out. -/
private def flushedWrite : List RunAct :=
  [.own (.pollWrite 0 [1, 2, 3]), .own (.pollFlush 0), .own (.proceed true), .own (.pollFlush 0),
    .own (.proceed true), .own (.proceed true), .own (.proceed true), .own (.proceed true)]

theorem accepted_writes_are_queued_flushed :
    ∃ t, run IoRun.step (.start .opened 0) flushedWrite = some t ∧ t.accepted = [1, 2, 3] ∧
      t.enqueued = t.accepted := by
  have reached : ((run IoRun.step (.start .opened 0) flushedWrite).any fun t =>
      decide (t.accepted = [1, 2, 3] ∧ t.failed = false ∧ t.last = some .done)) = true := by
    decide +kernel
  obtain ⟨t, ran, ends⟩ := run_reaches reached
  refine ⟨t, ran, ends.1, ?_⟩
  exact (accepted_writes_are_queued .opened 0 flushedWrite ran).2.2.2.1 ends.2.1 ends.2.2

/-- What is left of a flush or a shutdown once its send is through. -/
def IoCall.flushes : IoCall → Bool
  | .flushing _ _ | .settling .done | .settling .failed | .closing .done | .closing .failed => true
  | _ => false

/-- By its own books a caller has nothing to wait for: since a flush last returned
Ready it has written less than forces one, and has not been told to wait. -/
def IoRun.Clean (r : IoRun) : Prop := r.waited = false ∧ r.unflushed < writeCoalesce

instance (r : IoRun) : Decidable r.Clean := inferInstanceAs (Decidable (_ ∧ _))

/-- How the caller's books stand to the send in flight and the buffer. -/
structure IoRun.Books (r : IoRun) : Prop where
  writes : r.Writes
  busy : r.io.pending ≠ none → r.waited = true ∨ writeCoalesce ≤ r.unflushed
  free : r.io.call.flushes = false → r.io.pending = none →
    r.waited = false ∧ r.unflushed = r.io.out.length
  through : ∀ result, r.io.call = .settling result ∨ r.io.call = .closing result →
    result = .done ∨ result = .failed → r.io.pending = none ∧ r.io.out = []

/-- A piece that returns nothing to the caller's books and leaves the write side
alone. -/
private theorem books_still (books : r.Books) {own : IoAct} (writes : (r.after own s' io' ret).Writes)
    (out : io'.out = r.io.out) (pending : io'.pending = r.io.pending)
    (other : own.accepts ret = []) (running : IoReturn.endsFlush ret = false)
    (waited : r.waitedAfter ret = r.waited)
    (still : io'.call.flushes = false → r.io.call.flushes = false)
    (through : ∀ result, io'.call = .settling result ∨ io'.call = .closing result →
      result = .done ∨ result = .failed → r.io.pending = none ∧ r.io.out = []) :
    (r.after own s' io' ret).Books := by
  have unflushed : (r.after own s' io' ret).unflushed = r.unflushed := by
    simp [IoRun.after, running, other]
  refine ⟨writes, fun busy => ?_, fun flushes free => ?_, fun result call ready => ?_⟩
  · rw [unflushed]
    exact (books.busy (pending ▸ busy)).imp_left waited.trans
  · obtain ⟨quiet, same⟩ := books.free (still flushes) (pending.symm.trans free)
    exact ⟨waited.trans quiet, by rw [unflushed, same, ← out]; rfl⟩
  · exact ⟨pending.trans (through result call ready).1, out.trans (through result call ready).2⟩

/-- A flush or a shutdown that returns Ready clears the books. -/
private theorem books_settled {own : IoAct} (writes : (r.after own s' io' ret).Writes)
    (settled : IoReturn.endsFlush ret = true) (pending : io'.pending = none) (out : io'.out = [])
    (idle : io'.call = .idle) : (r.after own s' io' ret).Books := by
  have waited : r.waitedAfter ret = false := by
    unfold IoRun.waitedAfter
    split
    · cases settled
    · rw [if_pos settled]
  refine ⟨writes, fun busy => absurd pending busy, fun _ _ => ⟨waited, ?_⟩, fun result call => ?_⟩
  · simp [IoRun.after, settled, out]
  · obtain call | call := call <;> cases idle.symm.trans call

/-- Every piece of the stream's own keeps the books. -/
theorem IoMove.books (books : r.Books) {own : IoAct} (move : IoMove r.users.session r.io own s' io' ret) :
    (r.after own s' io' ret).Books := by
  have writes := move.writes books.writes
  have before {call : IoCall} (here : r.io.call = call) (quiet : call.flushes = false) :
      r.io.call.flushes = false := here ▸ quiet
  have waits {call : IoCall} (here : r.io.call = call) (elsewhere : ∀ cx shutdown, call ≠ .flushing cx shutdown)
      (running : IoReturn.endsFlush ret = false) : r.waitedAfter ret = r.waited := by
    subst here
    unfold IoRun.waitedAfter
    split
    · rename_i cx shutdown call
      exact absurd call (elsewhere cx shutdown)
    · rw [running]
      rfl
  cases move with
  | drains room chunk idle =>
    exact books_still books writes rfl rfl rfl rfl (waits idle (by simp) rfl) (fun _ => before idle rfl)
      (by simp [StreamIo.hand])
  | receives room chunk idle =>
    exact books_still books writes rfl rfl rfl rfl (waits idle (by simp) rfl) (fun _ => before idle rfl)
      (by simp [StreamIo.hand])
  | parks room idle =>
    exact books_still books writes rfl rfl rfl rfl (waits idle (by simp) rfl) (fun _ => before idle rfl)
      (by simp [idle])
  | ends room idle =>
    exact books_still books writes rfl rfl rfl rfl (waits idle (by simp) rfl) (fun _ => before idle rfl)
      (by simp)
  | refuses cx data stage idle =>
    exact books_still books writes rfl rfl rfl rfl (waits idle (by simp) rfl) (fun _ => before idle rfl)
      (by simp [idle])
  | buffers cx data idle free short =>
    obtain ⟨quiet, same⟩ := books.free (before idle rfl) free
    refine ⟨writes, fun busy => absurd free busy, fun _ _ => ⟨?_, ?_⟩, ?_⟩
    · exact (waits idle (by simp) rfl).trans quiet
    · simp [IoRun.after, IoReturn.endsFlush, IoAct.accepts, same]
    · simp [IoRun.after, idle]
  | stages cx data idle free long =>
    obtain ⟨quiet, same⟩ := books.free (before idle rfl) free
    refine ⟨writes, fun _ => .inr ?_, fun _ none => ?_, by simp [IoRun.after, idle]⟩
    · simpa [IoRun.after, IoReturn.endsFlush, IoAct.accepts, same] using long
    · cases none
  | flush cx idle =>
    exact books_still books writes rfl rfl rfl rfl (waits idle (by simp) rfl) (by simp [IoCall.flushes])
      (by simp)
  | shutdown cx idle =>
    exact books_still books writes rfl rfl rfl rfl (waits idle (by simp) rfl) (by simp [IoCall.flushes])
      (by simp)
  | drop idle =>
    exact books_still books writes rfl rfl rfl rfl (waits idle (by simp) rfl) (fun _ => before idle rfl)
      (by simp)
  | credits bytes ok call did =>
    rw [returnCredit_same did] at writes ⊢
    exact books_still books writes rfl rfl rfl rfl (waits call (by simp) rfl) (fun _ => before call rfl)
      (by simp)
  | finishes ok call did =>
    rw [flushCredit_same did] at writes ⊢
    exact books_still books writes rfl rfl rfl rfl (waits call (by simp) rfl) (fun _ => before call rfl)
      (by simp)
  | settles result ok call did =>
    rw [flushCredit_same did] at writes ⊢
    refine books_still books writes rfl rfl rfl rfl (waits call (by simp) rfl) (fun quiet => ?_) ?_
    · rw [call]
      cases result <;> first | rfl | cases quiet
    · rintro other (same | same) ready
      · cases same
      · cases same
        exact books.through result (.inl call) ready
  | closes result ok call did =>
    by_cases ready : result = .done ∨ result = .failed
    · obtain ⟨free, empty⟩ := books.through result (.inr call) ready
      obtain rfl | rfl := ready <;> exact books_settled writes rfl free empty rfl
    · have running : IoReturn.endsFlush (some result) = false := by
        cases result <;> first | rfl | simp at ready
      refine books_still books writes rfl rfl rfl running (waits call (by simp) running) (fun _ => ?_) ?_
      · rw [call]
        cases result <;> first | rfl | simp at ready
      · rintro other (same | same) <;> cases result <;> cases same
  | hangs ok call =>
    exact books_still books writes rfl rfl rfl rfl (waits call (by simp) rfl) (fun _ => before call rfl)
      (by simp)
  | flushed cx shutdown ok call free empty =>
    cases shutdown with
    | true =>
      exact ⟨writes, fun busy => absurd free busy, by simp [IoRun.after, StreamIo.flushed, IoCall.flushes],
        fun _ _ _ => ⟨free, empty⟩⟩
    | false => exact books_settled writes rfl free empty rfl
  | coalesces cx shutdown ok call =>
    refine ⟨writes, fun _ => .inl (by simp [IoRun.after, IoRun.waitedAfter, call]), fun _ none => ?_,
      by simp [IoRun.after]⟩
    cases none
  | sent cx shutdown ok call =>
    exact ⟨writes, fun busy => absurd rfl busy, by simp [IoRun.after, call, IoCall.flushes],
      by simp [IoRun.after, call]⟩
  | breaks cx shutdown ok call finished =>
    have empty := books.writes.free (by simp [finished])
    cases shutdown with
    | true =>
      exact ⟨writes, fun busy => absurd rfl busy, by simp [IoRun.after, StreamIo.flushed, IoCall.flushes],
        fun _ _ _ => ⟨rfl, empty⟩⟩
    | false => exact books_settled writes rfl rfl empty rfl
  | polls cx shutdown stage next call busy did =>
    refine ⟨writes, fun _ => ?_, by simp [IoRun.after, call, IoCall.flushes], by simp [IoRun.after, call]⟩
    have owed := books.busy (by simp [busy])
    simpa [IoRun.after, IoRun.waitedAfter, IoReturn.endsFlush, call, IoAct.accepts] using owed
  | waits cx shutdown stage call busy =>
    refine ⟨writes, fun _ => .inl (by simp [IoRun.after, IoRun.waitedAfter, call]), fun _ none => ?_,
      by simp [IoRun.after]⟩
    cases busy.symm.trans none

theorem IoRun.Books.step (books : r.Books) {act : RunAct} (stepped : r.step act = some r') : r'.Books := by
  obtain ⟨theirs, users, -, -, -, rfl⟩ | ⟨own, session, io, ret, -, move, rfl⟩ := IoRun.step_cases stepped
  · exact ⟨books.writes.step stepped, books.busy, books.free, books.through⟩
  · exact move.books books

theorem IoRun.Books.start (u : Users) (n : Nat) : (IoRun.start u n).Books := by
  refine ⟨.start u n, fun busy => absurd rfl busy, fun _ _ => ⟨rfl, rfl⟩, fun result call => ?_⟩
  obtain call | call := call <;> cases call

/-- `poll_write` returns Pending exactly if a send is in flight. -/
theorem pollWrite_pending {cx : Nat} {data : Bytes}
    (stepped : r.step (.own (.pollWrite cx data)) = some r') :
    r.io.call = .idle ∧ (r'.last = some .pending ↔ r.io.pending ≠ none) := by
  obtain ⟨_, _, other, -⟩ | ⟨own, session, io, ret, same, move, rfl⟩ := IoRun.step_cases stepped
  · cases other
  · cases same
    cases move with
    | refuses cx data stage idle busy => exact ⟨idle, by simp [IoRun.after, busy]⟩
    | buffers cx data idle free => exact ⟨idle, by simp [IoRun.after, free]⟩
    | stages cx data idle free => exact ⟨idle, by simp [IoRun.after, free]⟩

/-- The caller can tell by its own books whether it is refused. -/
theorem IoRun.Books.refused_iff (books : r.Books) {cx : Nat} {data : Bytes}
    (stepped : r.step (.own (.pollWrite cx data)) = some r') :
    r'.last = some .pending ↔ ¬ r.Clean := by
  obtain ⟨idle, pending⟩ := pollWrite_pending stepped
  rw [pending]
  constructor
  · rintro busy ⟨quiet, few⟩
    obtain waited | many := books.busy busy
    · cases quiet.symm.trans waited
    · omega
  · intro unclean free
    obtain ⟨quiet, same⟩ := books.free (by rw [idle]; rfl) free
    exact unclean ⟨quiet, same ▸ books.writes.short⟩

/-- The caller flushes to Ready before it has written what forces a flush. -/
def IoRun.Paced (r : IoRun) : RunAct → Prop
  | .own (.pollWrite _ _) => r.Clean
  | _ => True

instance (r : IoRun) : (act : RunAct) → Decidable (r.Paced act)
  | .own (.pollWrite _ _) => inferInstanceAs (Decidable r.Clean)
  | .own (.pollRead _) | .own (.pollFlush _) | .own (.pollShutdown _) | .own .drop
  | .own (.proceed _) | .other _ => isTrue trivial

/-- A `poll_write` that returns Pending leaves a send behind that has been polled
with the caller's context and is blocked. -/
def IoRun.Wakeable (r : IoRun) (act : RunAct) : Prop :=
  ∀ cx data next, act = .own (.pollWrite cx data) → r.step act = some next →
    next.last = some .pending → r.polled = some cx ∧ r.io.blocked r.users.session = true

/-- The caller only writes. -/
def RunAct.writesOnly : RunAct → Bool
  | .other _ | .own (.pollWrite _ _) => true
  | _ => false

/-- What a caller that only writes has in its books. -/
structure IoRun.Unflushed (r : IoRun) : Prop where
  idle : r.io.call = .idle
  waited : r.waited = false
  unflushed : r.unflushed = r.accepted.length

theorem IoRun.Unflushed.step (books : r.Unflushed) {act : RunAct} (writes : act.writesOnly = true)
    (stepped : r.step act = some r') : r'.Unflushed := by
  obtain ⟨theirs, users, -, -, -, rfl⟩ | ⟨own, session, io, ret, rfl, move, rfl⟩ :=
    IoRun.step_cases stepped
  · exact ⟨books.idle, books.waited, books.unflushed⟩
  · have waited {ret : Option IoReturn} (running : IoReturn.endsFlush ret = false) :
        r.waitedAfter ret = false := by
      simpa [IoRun.waitedAfter, books.idle, running] using books.waited
    cases move with
    | refuses cx data stage idle =>
      exact ⟨idle, waited rfl, by simp [IoRun.after, IoReturn.endsFlush, IoAct.accepts, books.unflushed]⟩
    | buffers cx data idle =>
      exact ⟨idle, waited rfl, by simp [IoRun.after, IoReturn.endsFlush, IoAct.accepts, books.unflushed]⟩
    | stages cx data idle =>
      exact ⟨idle, waited rfl, by simp [IoRun.after, IoReturn.endsFlush, IoAct.accepts, books.unflushed]⟩
    | _ => cases writes

/-- A caller that flushes to Ready before it has written 32 KiB more meets no
Pending of `poll_write` that is not wakeable, since it meets none: it is refused
exactly once it has written as much or been told to wait by a flush that has not
been Ready since. A caller that only writes is so refused from the first forced
flush on, whatever credit and room there is. -/
theorem poll_write_is_wakeable (u : Users) (n : Nat) (actions : List RunAct) {t : IoRun}
    (ran : run IoRun.step (.start u n) actions = some t) :
    (Meets IoRun.step IoRun.Paced (.start u n) actions →
      Meets IoRun.step IoRun.Wakeable (.start u n) actions) ∧
    (∀ cx data next, t.step (.own (.pollWrite cx data)) = some next →
      (next.last = some .pending ↔ ¬ t.Clean)) ∧
    ((∀ act ∈ actions, act.writesOnly = true) →
      ∀ cx data next, t.step (.own (.pollWrite cx data)) = some next →
        (next.last = some .pending ↔ writeCoalesce ≤ t.accepted.length)) := by
  have books : t.Books :=
    run_preserves IoRun.Books (fun _ _ _ books stepped => books.step stepped) (.start u n) ran
  refine ⟨?_, fun cx data next stepped => books.refused_iff stepped, ?_⟩
  · apply Meets.imp_where IoRun.Books _ _ (.start u n) ran
    · intro r act r' books _ stepped
      exact books.step stepped
    · rintro r act _ books paced - cx data next rfl stepped pending
      exact absurd paced ((books.refused_iff stepped).mp pending)
  · intro writes cx data next stepped
    have unflushed : t.Unflushed := by
      refine run_preserves_where IoRun.Unflushed (fun r act r' unflushed only stepped => ?_) ⟨rfl, rfl, rfl⟩
        (meets_of_mem fun act member _ => writes act member) ran
      exact unflushed.step only stepped
    rw [books.refused_iff stepped, IoRun.Clean, unflushed.waited, unflushed.unflushed]
    simp

/-- Two writes, each flushed to Ready, and a third one. -/
private def flushedWrites : List RunAct :=
  flushedWrite ++ [.own (.pollWrite 0 [4, 5]), .own (.pollFlush 0), .own (.proceed true), .own (.pollFlush 0),
    .own (.proceed true), .own (.proceed true), .own (.proceed true), .own (.proceed true),
    .own (.pollWrite 0 [6])]

theorem poll_write_is_wakeable_flushed :
    ∃ t, run IoRun.step (.start .opened 0) flushedWrites = some t ∧ t.accepted = [1, 2, 3, 4, 5, 6] ∧
      t.enqueued = [1, 2, 3, 4, 5] ∧ Meets IoRun.step IoRun.Wakeable (.start .opened 0) flushedWrites := by
  have checked : ((run IoRun.step (.start .opened 0) flushedWrites).any fun t =>
      decide (t.accepted = [1, 2, 3, 4, 5, 6] ∧ t.enqueued = [1, 2, 3, 4, 5])) = true ∧
      Meets IoRun.step IoRun.Paced (.start .opened 0) flushedWrites := by decide +kernel
  obtain ⟨t, ran, accepted, enqueued⟩ := run_reaches checked.1
  refine ⟨t, ran, accepted, enqueued, ?_⟩
  exact (poll_write_is_wakeable .opened 0 flushedWrites ran).1 checked.2

private theorem first_write (u : Users) (n : Nat) (data : Bytes)
    (long : writeCoalesce ≤ data.length) :
    ∃ t, (IoRun.start u n).step (.own (.pollWrite 0 data)) = some t ∧ t.users = u ∧
      t.io = { stream := n, pending := some (.acquire data) } ∧ t.polled = none := by
  have present : data ≠ [] := by
    rintro rfl
    cases long
  refine ⟨_, rfl, rfl, ?_, rfl⟩
  simp [IoRun.start, IoRun.after, StreamIo.pollWrite, long, Sending.next, present]

/-- 32 KiB are written, and then one more byte: with a whole window of credit and
room in the outbox the second write is refused, and nobody has polled the send. -/
theorem unflushed_write_is_refused :
    ∃ t next, run IoRun.step (.start .opened 0)
        [.own (.pollWrite 0 (List.replicate writeCoalesce 0))] = some t ∧
      t.step (.own (.pollWrite 0 [1])) = some next ∧ next.last = some .pending ∧
      t.polled = none ∧ t.io.blocked t.users.session = false ∧
      (t.users.session.arena 0).credit = { permits := window } ∧
      t.users.session.out.len < outboxFrames ∧ ¬ t.Wakeable (.own (.pollWrite 0 [1])) := by
  have link : (Users.opened.session.arena 0).credit = { permits := window } ∧
      Users.opened.session.out.len < outboxFrames := by decide +kernel
  obtain ⟨t, stepped, users, io, polled⟩ :=
    first_write .opened 0 (List.replicate writeCoalesce 0) (by simp)
  have unblocked : t.io.blocked t.users.session = false := by
    simp [StreamIo.blocked, io, users, Session.Blocks, link.1, window, maxPayload]
  obtain ⟨next, refused, last⟩ : ∃ next, t.step (.own (.pollWrite 0 [1])) = some next ∧
      next.last = some .pending := by
    refine ⟨_, by simp [IoRun.step, Session.ioStep, io]; rfl, ?_⟩
    simp [IoRun.after, StreamIo.pollWrite]
  refine ⟨t, next, run_cons.mpr ⟨t, stepped, rfl⟩, refused, last, polled, unblocked, ?_, ?_, ?_⟩
  · rw [users]
    exact link.1
  · rw [users]
    exact link.2
  · intro wakeable
    obtain ⟨registered, -⟩ := wakeable 0 [1] next rfl refused last
    rw [polled] at registered
    cases registered

end DshProxy.Mux

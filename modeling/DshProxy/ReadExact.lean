import DshProxy.Transitions

/-! Programs over a byte stream that read exactly so many bytes, write all of some
bytes, and come to a result. Written straight down they look as if the whole input
were there; run by polls they get it in pieces, and the socket takes what they write
in pieces too. The two ways of running one are shown to come to the same. -/
namespace DshProxy.ReadExact

/-- A program that fails with `ε` or returns `α`, over bytes of type `β`. -/
inductive Prog (β ε α : Type) : Type
  | ret (result : Except ε α)
  | read (count : Nat) (next : List β → Prog β ε α)
  | write (bytes : List β) (next : Prog β ε α)

/-- What comes of a program on a given input: it waits for more, or it has a result
and leaves the rest. Either way it has written something. -/
inductive Outcome (β ε α : Type) : Type
  | waits (sent : List β)
  | ends (result : Except ε α) (sent rest : List β)

namespace Prog
variable {β ε α γ : Type}

def bind : Prog β ε α → (α → Prog β ε γ) → Prog β ε γ
  | ret (.error error), _ => ret (.error error)
  | ret (.ok value), f => f value
  | read count next, f => read count fun bytes => (next bytes).bind f
  | write bytes next, f => write bytes (next.bind f)

instance : Monad (Prog β ε) where
  pure value := ret (.ok value)
  bind := bind

def fail (error : ε) : Prog β ε α := ret (.error error)

def readExact (count : Nat) : Prog β ε (List β) := read count pure

def writeAll (bytes : List β) : Prog β ε Unit := write bytes (pure ())

/-- The program with its whole input before it. -/
def onWhole : Prog β ε α → List β → List β → Outcome β ε α
  | ret result, input, sent => .ends result sent input
  | read count next, input, sent =>
    if input.length < count then .waits sent else (next (input.take count)).onWhole (input.drop count) sent
  | write bytes next, input, sent => next.onWhole input (sent ++ bytes)

/-- No read is for more than so many bytes. -/
def Within (limit : Nat) : Prog β ε α → Prop
  | ret _ => True
  | read count next => count ≤ limit ∧ ∀ bytes, (next bytes).Within limit
  | write _ next => next.Within limit

/-- Reads and writes of nothing are done at once. -/
def settle : Prog β ε α → Prog β ε α
  | read 0 next => (next []).settle
  | write [] next => next.settle
  | prog => prog

end Prog

/-- A program under way. `inbound` is on the socket and not read yet; `arrived` is
everything that has come in. -/
structure Polled (β ε α : Type) where
  prog : Prog β ε α
  inbound : List β := []
  sent : List β := []
  arrived : List β := []
  broken : Bool := false

inductive Act (β ε : Type)
  | arrive (bytes : List β)
  /-- A poll of the read gets so many bytes. -/
  | read (count : Nat)
  /-- A poll of the write gets so many bytes taken. -/
  | write (count : Nat)
  /-- The socket fails, or has ended. -/
  | fail (error : ε)

namespace Polled
variable {β ε α : Type}

def start (prog : Prog β ε α) : Polled β ε α := { prog := prog.settle }

def step (p : Polled β ε α) : Act β ε → Option (Polled β ε α)
  | .arrive bytes => some { p with inbound := p.inbound ++ bytes, arrived := p.arrived ++ bytes }
  | .read count =>
    match p.prog with
    | .read wanted next =>
      if 0 < count ∧ count ≤ wanted ∧ count ≤ p.inbound.length then
        some { p with
          prog := (Prog.read (wanted - count) fun more => next (p.inbound.take count ++ more)).settle
          inbound := p.inbound.drop count }
      else none
    | _ => none
  | .write count =>
    match p.prog with
    | .write bytes next =>
      if 0 < count ∧ count ≤ bytes.length then
        some { p with prog := (Prog.write (bytes.drop count) next).settle, sent := p.sent ++ bytes.take count }
      else none
    | _ => none
  | .fail error =>
    match p.prog with
    | .ret _ => none
    | _ => some { p with prog := .ret (.error error), broken := true }

/-- However the bytes have come so far, and whatever comes: what is left of the
program does with the rest what the program does with all of it. -/
def Agrees (whole : Prog β ε α) (p : Polled β ε α) : Prop :=
  p.broken = false → ∀ future, whole.onWhole (p.arrived ++ future) [] = p.prog.onWhole (p.inbound ++ future) p.sent

end Polled

section Laws
variable {β ε α γ : Type} {prog whole : Prog β ε α} {input sent : List β} {p q : Polled β ε α} {limit : Nat}

@[simp] theorem pure_eq (value : α) : (pure value : Prog β ε α) = .ret (.ok value) := rfl

@[simp] theorem bind_eq (prog : Prog β ε α) (f : α → Prog β ε γ) : (prog >>= f) = prog.bind f := rfl

@[simp] theorem onWhole_ret (result : Except ε α) : (Prog.ret result).onWhole input sent = .ends result sent input := rfl

@[simp] theorem onWhole_fail (error : ε) :
    (Prog.fail error : Prog β ε α).onWhole input sent = .ends (.error error) sent input := rfl

/-- One program after the other. -/
theorem onWhole_bind (prog : Prog β ε α) (f : α → Prog β ε γ) (input sent : List β) :
    (prog.bind f).onWhole input sent =
      match prog.onWhole input sent with
      | .waits sent => .waits sent
      | .ends (.error error) sent rest => .ends (.error error) sent rest
      | .ends (.ok value) sent rest => (f value).onWhole rest sent := by
  induction prog generalizing input sent with
  | ret result => cases result <;> rfl
  | read count next ih =>
    simp only [Prog.bind, Prog.onWhole]
    split
    · rfl
    · exact ih _ _ _
  | write bytes next ih => exact ih _ _

/-- What a sequence comes to, both its parts have come to. -/
theorem onWhole_bind_ok {f : α → Prog β ε γ} {value : γ} {after rest : List β}
    (ended : (prog.bind f).onWhole input sent = .ends (.ok value) after rest) :
    ∃ first mid left, prog.onWhole input sent = .ends (.ok first) mid left ∧
      (f first).onWhole left mid = .ends (.ok value) after rest := by
  rw [onWhole_bind] at ended
  split at ended
  · cases ended
  · cases ended
  · rename_i first mid left did
    exact ⟨first, mid, left, did, ended⟩

/-- And the other way round. -/
theorem onWhole_bind_of {f : α → Prog β ε γ} {first : α} {mid left : List β}
    (did : prog.onWhole input sent = .ends (.ok first) mid left) :
    (prog.bind f).onWhole input sent = (f first).onWhole left mid := by
  rw [onWhole_bind, did]

@[simp] theorem onWhole_readExact (count : Nat) :
    (Prog.readExact count : Prog β ε (List β)).onWhole input sent =
      if input.length < count then .waits sent else .ends (.ok (input.take count)) sent (input.drop count) := rfl

@[simp] theorem onWhole_writeAll (bytes : List β) :
    (Prog.writeAll bytes : Prog β ε Unit).onWhole input sent = .ends (.ok ()) (sent ++ bytes) input := rfl

@[simp] theorem onWhole_settle (prog : Prog β ε α) (input sent : List β) :
    prog.settle.onWhole input sent = prog.onWhole input sent := by
  induction prog generalizing input sent with
  | ret result => rfl
  | read count next ih =>
    cases count with
    | zero => simpa [Prog.settle, Prog.onWhole] using ih [] input sent
    | succ count => rfl
  | write bytes next ih =>
    cases bytes with
    | nil => simpa [Prog.settle, Prog.onWhole] using ih input sent
    | cons byte rest => rfl

/-- Reading in two pieces. -/
theorem onWhole_read_piece {wanted count : Nat} (next : List β → Prog β ε α) (few : count ≤ wanted)
    (present : count ≤ input.length) :
    (Prog.read wanted next).onWhole input sent =
      (Prog.read (wanted - count) fun more => next (input.take count ++ more)).onWhole (input.drop count) sent := by
  have joined : input.take wanted = input.take count ++ (input.drop count).take (wanted - count) := by
    rw [← List.take_add, Nat.add_sub_cancel' few]
  have left : (input.drop count).drop (wanted - count) = input.drop wanted := by
    rw [List.drop_drop, Nat.add_sub_cancel' few]
  simp only [Prog.onWhole, List.length_drop, joined, left]
  by_cases short : input.length < wanted
  · rw [if_pos short, if_pos (by omega)]
  · rw [if_neg short, if_neg (by omega)]

/-- Writing in two pieces. -/
theorem onWhole_write_piece (count : Nat) (bytes : List β) (next : Prog β ε α) :
    (Prog.write bytes next).onWhole input sent =
      (Prog.write (bytes.drop count) next).onWhole input (sent ++ bytes.take count) := by
  simp only [Prog.onWhole, List.append_assoc, List.take_append_drop]

/-- A program that waits would have waited before. -/
theorem onWhole_more {result : Except ε α} {after rest : List β} (more : List β)
    (ended : prog.onWhole input sent = .ends result after rest) :
    prog.onWhole (input ++ more) sent = .ends result after (rest ++ more) := by
  induction prog generalizing input sent with
  | ret _ =>
    cases ended
    rfl
  | read count next ih =>
    simp only [Prog.onWhole] at ended ⊢
    split at ended
    · cases ended
    · rename_i enough
      rw [if_neg (by rw [List.length_append]; omega), List.take_append_of_le_length (by omega),
        List.drop_append_of_le_length (by omega)]
      exact ih _ ended
  | write bytes next ih => exact ih ended

theorem Polled.Agrees.start (whole : Prog β ε α) : (Polled.start whole).Agrees whole := by
  intro _ future
  exact (onWhole_settle whole _ _).symm

theorem Polled.Agrees.step {act : Act β ε} (agrees : p.Agrees whole) (stepped : p.step act = some q) :
    q.Agrees whole := by
  cases act with
  | arrive bytes =>
    cases stepped
    intro fine future
    simpa [List.append_assoc] using agrees fine (bytes ++ future)
  | read count =>
    simp only [Polled.step] at stepped
    split at stepped
    · rename_i wanted next shape
      obtain ⟨⟨-, few, present⟩, same⟩ := Option.ite_none_right_eq_some.mp stepped
      cases same
      intro fine future
      have before := agrees fine future
      have there : count ≤ (p.inbound ++ future).length := by
        rw [List.length_append]
        omega
      rw [shape, onWhole_read_piece next few there, List.take_append_of_le_length present,
        List.drop_append_of_le_length present] at before
      rw [before]
      exact (onWhole_settle _ _ _).symm
    · cases stepped
  | write count =>
    simp only [Polled.step] at stepped
    split at stepped
    · rename_i bytes next shape
      obtain ⟨-, same⟩ := Option.ite_none_right_eq_some.mp stepped
      cases same
      intro fine future
      have before := agrees fine future
      rw [shape, onWhole_write_piece count] at before
      rw [before]
      exact (onWhole_settle _ _ _).symm
    · cases stepped
  | fail error =>
    simp only [Polled.step] at stepped
    split at stepped
    · cases stepped
    · cases stepped
      intro fine
      cases fine

theorem Polled.Agrees.run {actions : List (Act β ε)}
    (ran : Transitions.run Polled.step (.start whole) actions = some p) : p.Agrees whole :=
  Transitions.run_preserves (Polled.Agrees whole) (fun _ _ _ agrees stepped => agrees.step stepped)
    (.start whole) ran

/-- Nothing that has succeeded has seen its socket fail. -/
theorem Polled.unbroken {actions : List (Act β ε)} {value : α}
    (ran : Transitions.run Polled.step (.start whole) actions = some p) (ended : p.prog = .ret (.ok value)) :
    p.broken = false := by
  have failed : p.broken = true → ∃ error, p.prog = .ret (.error error) := by
    refine Transitions.run_preserves (fun p : Polled β ε α => p.broken = true → ∃ error, p.prog = .ret (.error error))
      (fun p act q holds stepped broke => ?_) (fun broke => by cases broke) ran
    cases act with
    | arrive bytes =>
      cases stepped
      exact holds broke
    | read count | write count =>
      simp only [Polled.step] at stepped
      split at stepped
      · rename_i shape
        obtain ⟨-, same⟩ := Option.ite_none_right_eq_some.mp stepped
        cases same
        obtain ⟨error, dead⟩ := holds broke
        rw [shape] at dead
        cases dead
      · cases stepped
    | fail error =>
      simp only [Polled.step] at stepped
      split at stepped <;> cases stepped
      exact ⟨error, rfl⟩
  cases broke : p.broken with
  | false => rfl
  | true =>
    obtain ⟨error, dead⟩ := failed broke
    rw [ended] at dead
    cases dead

/-- A program that has come to a result has come to the one it has on all its input. -/
theorem Polled.Agrees.ended {result : Except ε α} (agrees : p.Agrees whole) (fine : p.broken = false)
    (ended : p.prog = .ret result) : whole.onWhole p.arrived [] = .ends result p.sent p.inbound := by
  have all := agrees fine []
  rwa [List.append_nil, List.append_nil, ended] at all

/-- A program that waits on an empty socket would wait with all its input before it:
nothing it has been given is held back. -/
theorem Polled.Agrees.waiting {count : Nat} {next : List β → Prog β ε α} (agrees : p.Agrees whole)
    (fine : p.broken = false) (reading : p.prog = .read (count + 1) next) (empty : p.inbound = []) :
    whole.onWhole p.arrived [] = .waits p.sent := by
  have all := agrees fine []
  rw [List.append_nil, List.append_nil, reading, empty] at all
  simpa [Prog.onWhole] using all

@[simp] theorem settle_settle (prog : Prog β ε α) : prog.settle.settle = prog.settle := by
  induction prog with
  | ret => rfl
  | read count next ih =>
    cases count with
    | zero => exact ih []
    | succ count => rfl
  | write bytes next ih =>
    cases bytes with
    | nil => exact ih
    | cons byte rest => rfl

theorem settled_step {act : Act β ε} (settled : p.prog.settle = p.prog) (stepped : p.step act = some q) :
    q.prog.settle = q.prog := by
  cases act with
  | arrive bytes =>
    cases stepped
    exact settled
  | read count | write count =>
    simp only [Polled.step] at stepped
    split at stepped
    · obtain ⟨-, same⟩ := Option.ite_none_right_eq_some.mp stepped
      cases same
      exact settle_settle _
    · cases stepped
  | fail error =>
    simp only [Polled.step] at stepped
    split at stepped
    · cases stepped
    · cases stepped
      rfl

theorem Polled.settled {actions : List (Act β ε)}
    (ran : Transitions.run Polled.step (.start whole) actions = some p) : p.prog.settle = p.prog :=
  Transitions.run_preserves (fun p : Polled β ε α => p.prog.settle = p.prog)
    (fun _ _ _ settled stepped => settled_step settled stepped) (settle_settle whole) ran

/-- Polls get through: with its input on the socket, a program comes to its result
and leaves the rest. -/
theorem polls_finish {result : Except ε α} {after rest : List β} (prog : Prog β ε α) (p : Polled β ε α)
    (left : p.prog = prog.settle) (ends : prog.onWhole p.inbound p.sent = .ends result after rest) :
    ∃ acts, Transitions.run Polled.step p acts =
      some { p with prog := .ret result, sent := after, inbound := rest } := by
  induction prog generalizing p with
  | ret =>
    obtain ⟨here, inbound, sent, arrived, broken⟩ := p
    obtain rfl : here = _ := left
    cases ends
    exact ⟨[], rfl⟩
  | read count next ih =>
    cases count with
    | zero => exact ih [] p left (by simpa [Prog.onWhole] using ends)
    | succ count =>
      simp only [Prog.onWhole] at ends
      split at ends
      · cases ends
      · rename_i enough
        have stepped : p.step (.read (count + 1)) = some { p with
            prog := (next (p.inbound.take (count + 1))).settle, inbound := p.inbound.drop (count + 1) } := by
          have reading : p.prog = .read (count + 1) next := left
          simp [Polled.step, reading, Prog.settle, Nat.le_of_not_lt enough]
        obtain ⟨acts, ran⟩ := ih (p.inbound.take (count + 1)) { p with
          prog := (next (p.inbound.take (count + 1))).settle, inbound := p.inbound.drop (count + 1) } rfl ends
        exact ⟨.read (count + 1) :: acts, Transitions.run_cons.mpr ⟨_, stepped, ran⟩⟩
  | write bytes next ih =>
    cases bytes with
    | nil => exact ih p left (by simpa [Prog.onWhole] using ends)
    | cons byte more =>
      have stepped : p.step (.write (more.length + 1)) = some { p with
          prog := next.settle, sent := p.sent ++ byte :: more } := by
        have writing : p.prog = .write (byte :: more) next := left
        simp [Polled.step, writing, Prog.settle]
      obtain ⟨acts, ran⟩ := ih { p with prog := next.settle, sent := p.sent ++ byte :: more } rfl ends
      exact ⟨.write (more.length + 1) :: acts, Transitions.run_cons.mpr ⟨_, stepped, ran⟩⟩

theorem within_bind {f : α → Prog β ε γ} (first : prog.Within limit) (second : ∀ value, (f value).Within limit) :
    (prog.bind f).Within limit := by
  induction prog with
  | ret result =>
    cases result with
    | error => trivial
    | ok value => exact second value
  | read count next ih => exact ⟨first.1, fun bytes => ih bytes (first.2 bytes)⟩
  | write bytes next ih => exact ih first

theorem within_settle (within : prog.Within limit) : prog.settle.Within limit := by
  induction prog with
  | ret => exact within
  | read count next ih =>
    cases count with
    | zero => exact ih [] (within.2 [])
    | succ count => exact within
  | write bytes next ih =>
    cases bytes with
    | nil => exact ih within
    | cons byte rest => exact within

theorem within_step {act : Act β ε} (within : p.prog.Within limit) (stepped : p.step act = some q) :
    q.prog.Within limit := by
  cases act with
  | arrive bytes =>
    cases stepped
    exact within
  | read count =>
    simp only [Polled.step] at stepped
    split at stepped
    · rename_i wanted next shape
      obtain ⟨-, same⟩ := Option.ite_none_right_eq_some.mp stepped
      cases same
      rw [shape] at within
      refine within_settle ⟨Nat.le_trans (Nat.sub_le _ _) within.1, fun bytes => within.2 _⟩
    · cases stepped
  | write count =>
    simp only [Polled.step] at stepped
    split at stepped
    · rename_i bytes next shape
      obtain ⟨-, same⟩ := Option.ite_none_right_eq_some.mp stepped
      cases same
      rw [shape] at within
      exact within_settle within
    · cases stepped
  | fail error =>
    simp only [Polled.step] at stepped
    split at stepped
    · cases stepped
    · cases stepped
      trivial

end Laws

end DshProxy.ReadExact

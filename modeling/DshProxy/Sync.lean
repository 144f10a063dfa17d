import Mathlib.Data.List.Basic

/-! The two synchronisation objects an asynchronous server is built on: a
bounded channel and a counting semaphore. A channel keeps everything that ever
went into it, so that what the receiver got is a front part of what was sent
by construction; first in, first out is how the object is made, not a theorem
about it. -/
namespace DshProxy.Sync

/-- A bounded channel. The values still queued are those behind the first
`taken`; `open` says that the receiver has not been dropped. -/
structure Channel (α : Type) where
  accepted : List α := []
  taken : Nat := 0
  isOpen : Bool := true
  within : taken ≤ accepted.length := by simp
  deriving DecidableEq

namespace Channel

variable (c : Channel α)

/-- The values waiting for the receiver, oldest first. -/
def queue : List α := c.accepted.drop c.taken

/-- How many values are waiting. -/
def len : Nat := c.accepted.length - c.taken

def push (value : α) : Channel α :=
  { c with
    accepted := c.accepted ++ [value]
    within := by
      have held := c.within
      simp only [List.length_append, List.length_singleton]
      omega }

/-- The receiver is dropped; nothing is accepted any more. -/
def close : Channel α := { c with isOpen := false }

/-- Take up to `count` of the waiting values. -/
def advance (count : Nat) : Channel α :=
  { c with
    taken := c.taken + min count c.len
    within := by
      have held := c.within
      simp only [len]
      omega }

/-- The oldest waiting value, and the channel without it. -/
def recv : Option (α × Channel α) :=
  match c.queue with
  | [] => none
  | value :: _ => some (value, c.advance 1)

/-- What an attempt to send without waiting comes to. -/
inductive Sent (α : Type)
  | ok (channel : Channel α)
  | full
  | closed

def trySend (capacity : Nat) (value : α) : Sent α :=
  if c.isOpen = false then .closed
  else if capacity ≤ c.len then .full
  else .ok (c.push value)

@[simp] theorem push_accepted (value : α) : (c.push value).accepted = c.accepted ++ [value] := rfl
@[simp] theorem push_taken (value : α) : (c.push value).taken = c.taken := rfl
@[simp] theorem push_isOpen (value : α) : (c.push value).isOpen = c.isOpen := rfl
@[simp] theorem close_accepted : c.close.accepted = c.accepted := rfl
@[simp] theorem close_taken : c.close.taken = c.taken := rfl
@[simp] theorem close_isOpen : c.close.isOpen = false := rfl
@[simp] theorem advance_accepted (count : Nat) : (c.advance count).accepted = c.accepted := rfl
@[simp] theorem advance_isOpen (count : Nat) : (c.advance count).isOpen = c.isOpen := rfl

/-- What the receiver has is a front part of what was sent. -/
theorem take_append_queue : c.accepted.take c.taken ++ c.queue = c.accepted :=
  List.take_append_drop _ _

@[simp] theorem queue_push (value : α) : (c.push value).queue = c.queue ++ [value] := by
  simp [queue, List.drop_append_of_le_length c.within]

@[simp] theorem queue_close : c.close.queue = c.queue := rfl

theorem queue_length : c.queue.length = c.len := by simp [queue, len]

theorem recv_eq_some {value : α} {rest : Channel α} (got : c.recv = some (value, rest)) :
    rest = c.advance 1 ∧ c.queue = value :: rest.queue ∧
      c.accepted.take rest.taken = c.accepted.take c.taken ++ [value] ∧
      rest.taken = c.taken + 1 := by
  unfold recv at got
  split at got
  · cases got
  · rename_i first later waiting
    cases got
    have some : 0 < c.len := by rw [← queue_length, waiting]; simp
    have one : (c.advance 1).taken = c.taken + 1 := by
      simp only [advance]
      omega
    refine ⟨rfl, ?_, ?_, one⟩
    · simp only [queue, one, advance_accepted] at waiting ⊢
      rw [waiting, ← List.drop_drop, waiting]
      rfl
    · rw [one, List.take_add, show c.accepted.drop c.taken = _ from waiting]
      rfl

end Channel

/-- A counting semaphore that can be closed. -/
structure Semaphore where
  permits : Nat
  closed : Bool := false
  deriving DecidableEq, Repr

namespace Semaphore

def close (s : Semaphore) : Semaphore := { s with closed := true }

def addPermits (count : Nat) (s : Semaphore) : Semaphore := { s with permits := s.permits + count }

/-- `acquire_many` and `forget`: the permits are gone for good. A closed
semaphore refuses; with too few permits the caller waits. -/
def acquireMany (count : Nat) (s : Semaphore) : Option Semaphore :=
  if s.closed = false ∧ count ≤ s.permits then some { s with permits := s.permits - count } else none

@[simp] theorem close_closed (s : Semaphore) : s.close.closed = true := rfl
@[simp] theorem close_permits (s : Semaphore) : s.close.permits = s.permits := rfl
@[simp] theorem addPermits_closed (count : Nat) (s : Semaphore) :
    (s.addPermits count).closed = s.closed := rfl
@[simp] theorem addPermits_permits (count : Nat) (s : Semaphore) :
    (s.addPermits count).permits = s.permits + count := rfl

theorem acquireMany_eq_some {s t : Semaphore} {count : Nat} :
    s.acquireMany count = some t ↔
      s.closed = false ∧ count ≤ s.permits ∧ t = { s with permits := s.permits - count } := by
  unfold acquireMany
  constructor
  · intro got
    split at got
    · rename_i free
      cases got
      exact ⟨free.1, free.2, rfl⟩
    · cases got
  · rintro ⟨opened, enough, rfl⟩
    rw [if_pos ⟨opened, enough⟩]

end Semaphore

end DshProxy.Sync

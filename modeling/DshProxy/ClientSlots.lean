import DshProxy.Transitions
import Mathlib.Data.List.Count

/-! Who owns a client's socket and who holds the slot it was admitted under.
`run_edge` claims one slot for each TLS connection and passes it on as a shared
handle: the HTTP connection holds it, every upgrade handler clones it, and the
tunnel task keeps its clone until `serve_client` has returned. The socket itself
moves along the same path, but ends in two halves, one of them in a task of its
own. -/
namespace DshProxy.Clients
open Transitions

/-- How far `serve_client` has come once the socket is split. -/
inductive Stage
  /-- `select!` waits for the uplink task and the downlink. -/
  | racing
  /-- The downlink is through. -/
  | drained
  /-- `select!` has returned; `tx.close()` is under way. -/
  | closing
  deriving DecidableEq, Repr

/-- The owner of the socket. -/
inductive Place
  /-- The TLS handshake, then the HTTP connection. -/
  | http
  /-- The tunnel task, up to the split. -/
  | tunnel
  /-- The tunnel task has the write half; `uplink` says that the uplink task
  still runs with the read half. -/
  | spliced (uplink : Bool) (stage : Stage)
  /-- `serve_client` has returned and the uplink task still runs. -/
  | orphaned
  | closed
  deriving DecidableEq, Repr

/-- What has become of an `IpSlot`. -/
inductive Slot
  | held
  /-- Its drop has counted down and has not looked at the key yet. -/
  | dropping
  | gone
  deriving DecidableEq, Repr

/-- One admitted connection. -/
structure Conn (Ip : Type) where
  ip : Ip
  place : Place := .http
  slot : Slot := .held
  /-- `serve` still has its handle on the slot. -/
  serving : Bool := true
  /-- Upgrade handlers that wait for their socket, each with a handle. -/
  waiting : Nat := 0
  /-- The tunnel task that got the socket runs, with its handle. -/
  tunnel : Bool := false
  deriving DecidableEq, Repr

/-- Some task still owns the socket. -/
def Conn.owned (c : Conn Ip) : Bool := c.place ≠ .closed

/-- Handles on the slot. -/
def Conn.handles (c : Conn Ip) : Nat := c.serving.toNat + c.waiting + c.tunnel.toNat

/-- `run_edge`, its `clients_per_ip` table and every connection it has admitted. -/
structure Edge (Ip : Type) where
  max : Nat
  table : Ip → Option Nat := fun _ => none
  conns : List (Conn Ip) := []

inductive Act (Ip : Type)
  /-- A socket is accepted and its first byte seen. -/
  | accept (ip : Ip) (first : UInt8)
  /-- The TLS handshake fails or the HTTP connection ends. -/
  | hangUp (conn : Nat)
  /-- `Edge::tunnel` answers an upgrade request and spawns the tunnel task. -/
  | request (conn : Nat)
  /-- `upgraded.await` fails. -/
  | abandon (conn : Nat)
  /-- The connection is handed to the tunnel task. -/
  | upgrade (conn : Nat)
  /-- The tunnel task returns before the split: no preamble, no route, no stream. -/
  | bail (conn : Nat)
  /-- `tokio::io::split` and the uplink's spawn. -/
  | splice (conn : Nat)
  | uplinkEnds (conn : Nat)
  | downlinkEnds (conn : Nat)
  /-- `select!` returns. -/
  | leave (conn : Nat)
  /-- `serve_client` returns and the tunnel task with it. -/
  | finish (conn : Nat)
  /-- The last handle is gone: `IpSlot::drop` counts down. -/
  | countDown (conn : Nat)
  /-- `IpSlot::drop` reclaims the key of an address that holds nothing. -/
  | reclaim (conn : Nat)
  deriving DecidableEq, Repr

/-- What happens to one connection; the table is not touched. -/
def Conn.step (c : Conn Ip) : Act Ip → Option (Conn Ip)
  | .hangUp _ =>
    if c.place = .http then some { c with place := .closed, serving := false } else none
  | .request _ => if c.place = .http then some { c with waiting := c.waiting + 1 } else none
  | .abandon _ => if 0 < c.waiting then some { c with waiting := c.waiting - 1 } else none
  | .upgrade _ =>
    if c.place = .http ∧ 0 < c.waiting then
      some { c with place := .tunnel, serving := false, waiting := c.waiting - 1, tunnel := true }
    else none
  | .bail _ => if c.place = .tunnel then some { c with place := .closed, tunnel := false } else none
  | .splice _ => if c.place = .tunnel then some { c with place := .spliced true .racing } else none
  | .uplinkEnds _ =>
    match c.place with
    | .spliced true stage => some { c with place := .spliced false stage }
    | .orphaned => some { c with place := .closed }
    | _ => none
  | .downlinkEnds _ =>
    match c.place with
    | .spliced uplink .racing => some { c with place := .spliced uplink .drained }
    | _ => none
  | .leave _ =>
    match c.place with
    | .spliced false .racing => some { c with place := .spliced false .closing }
    | .spliced uplink .drained => some { c with place := .spliced uplink .closing }
    | _ => none
  | .finish _ =>
    match c.place with
    | .spliced uplink .closing =>
      some { c with place := if uplink then .orphaned else .closed, tunnel := false }
    | _ => none
  | .accept _ _ | .countDown _ | .reclaim _ => none

variable {Ip : Type} [DecidableEq Ip]

/-- `IpSlot::claim`. -/
def claim (table : Ip → Option Nat) (ip : Ip) (max : Nat) : (Ip → Option Nat) × Bool :=
  let count := (table ip).getD 0
  if max ≤ count then (Function.update table ip (some count), false)
  else (Function.update table ip (some (count + 1)), true)

/-- The first half of `IpSlot::drop`. -/
def countDown (table : Ip → Option Nat) (ip : Ip) : Ip → Option Nat :=
  Function.update table ip ((table ip).map (· - 1))

/-- `table.remove_if(&ip, |_, count| *count == 0)`. -/
def reclaim (table : Ip → Option Nat) (ip : Ip) : Ip → Option Nat :=
  if table ip = some 0 then Function.update table ip none else table

def Act.conn : Act Ip → Nat
  | .accept _ _ => 0
  | .hangUp c | .request c | .abandon c | .upgrade c | .bail c | .splice c | .uplinkEnds c
  | .downlinkEnds c | .leave c | .finish c | .countDown c | .reclaim c => c

def Edge.step (e : Edge Ip) (act : Act Ip) : Option (Edge Ip) :=
  match act with
  | .accept ip first =>
    -- A TLS ClientHello starts with 0x16; everything else is a bridge.
    if first = 0x16 then
      match claim e.table ip e.max with
      | (table, true) => some { e with table, conns := e.conns ++ [{ ip }] }
      | (table, false) => some { e with table }
    else some e
  | .countDown conn =>
    (e.conns[conn]?).bind fun c =>
      if c.handles = 0 ∧ c.slot = .held then
        some { e with
          table := countDown e.table c.ip
          conns := e.conns.set conn { c with slot := .dropping } }
      else none
  | .reclaim conn =>
    (e.conns[conn]?).bind fun c =>
      if c.slot = .dropping then
        some { e with
          table := reclaim e.table c.ip
          conns := e.conns.set conn { c with slot := .gone } }
      else none
  | act =>
    (e.conns[act.conn]?).bind fun c =>
      (c.step act).map fun c => { e with conns := e.conns.set act.conn c }

/-- TLS client sockets from one address that some task owns. -/
def Edge.sockets (e : Edge Ip) (ip : Ip) : Nat := e.conns.countP fun c => c.owned && c.ip = ip

/-- Slots of one address that have not been released. -/
def slots (conns : List (Conn Ip)) (ip : Ip) : Nat :=
  conns.countP fun c => c.slot = .held && c.ip = ip

/-- The uplink task of a tunnel is through before `serve_client` returns. -/
def Edge.Permits (e : Edge Ip) : Act Ip → Prop
  | .finish conn => ∀ c ∈ e.conns[conn]?, c.place ≠ .spliced true .closing
  | _ => True

instance (e : Edge Ip) : (act : Act Ip) → Decidable (e.Permits act)
  | .finish conn => inferInstanceAs (Decidable (∀ c ∈ e.conns[conn]?, _))
  | .accept _ _ | .hangUp _ | .request _ | .abandon _ | .upgrade _ | .bail _ | .splice _
  | .uplinkEnds _ | .downlinkEnds _ | .leave _ | .countDown _ | .reclaim _ => isTrue trivial

section Connections
omit [DecidableEq Ip]

/-- Whoever owns the socket has a handle on the slot, and a slot with a handle
on it is held. -/
structure Conn.Sound (c : Conn Ip) : Prop where
  http : c.place = .http → c.serving = true
  tunnel : c.place = .tunnel → c.tunnel = true
  spliced : ∀ uplink stage, c.place = .spliced uplink stage → c.tunnel = true
  orphaned : c.place ≠ .orphaned
  slot : 0 < c.handles → c.slot = .held

variable {c next : Conn Ip} {act : Act Ip}

theorem Conn.Sound.held (sound : c.Sound) (owned : c.owned = true) : c.slot = .held := by
  apply sound.slot
  unfold Conn.handles
  cases place : c.place with
  | http =>
    rw [sound.http place, Bool.toNat_true]
    omega
  | tunnel =>
    rw [sound.tunnel place, Bool.toNat_true]
    omega
  | spliced uplink stage =>
    rw [sound.spliced uplink stage place, Bool.toNat_true]
    omega
  | orphaned => exact absurd place sound.orphaned
  | closed => simp [Conn.owned, place] at owned

/-- A connection's own step keeps its address and its slot. -/
theorem Conn.step_frame (stepped : c.step act = some next) :
    next.ip = c.ip ∧ next.slot = c.slot := by
  unfold Conn.step at stepped
  repeat' split at stepped
  all_goals
    cases stepped
    try exact ⟨rfl, rfl⟩

/-- Moving to `place` with fewer handles, while the owner there has one. -/
private theorem sound_of_handles (slot : 0 < c.handles → c.slot = .held)
    (place : next.place = .closed) (same : next.slot = c.slot)
    (fewer : next.handles ≤ c.handles) : next.Sound := by
  refine ⟨?_, ?_, ?_, ?_, ?_⟩
  · simp [place]
  · simp [place]
  · simp [place]
  · simp [place]
  · intro some
    rw [same]
    exact slot (by omega)

theorem Conn.step_sound (sound : c.Sound) (stepped : c.step act = some next)
    (permitted : ∀ n, act = .finish n → c.place ≠ .spliced true .closing) : next.Sound := by
  have owned : c.place ≠ .closed → c.slot = .held := fun away => sound.held (by simp [Conn.owned, away])
  cases act with
  | hangUp n =>
    obtain ⟨place, same⟩ := Option.ite_none_right_eq_some.mp stepped
    cases same
    exact sound_of_handles sound.slot rfl rfl (by simp only [Conn.handles, Bool.toNat_false]; omega)
  | request n =>
    obtain ⟨place, same⟩ := Option.ite_none_right_eq_some.mp stepped
    cases same
    exact ⟨sound.http, sound.tunnel, sound.spliced, sound.orphaned, fun _ => owned (by simp [place])⟩
  | abandon n =>
    obtain ⟨some, same⟩ := Option.ite_none_right_eq_some.mp stepped
    cases same
    refine ⟨sound.http, sound.tunnel, sound.spliced, sound.orphaned, fun _ => sound.slot ?_⟩
    unfold Conn.handles
    omega
  | upgrade n =>
    obtain ⟨⟨place, -⟩, same⟩ := Option.ite_none_right_eq_some.mp stepped
    cases same
    exact ⟨by simp, by simp, by simp, by simp, fun _ => owned (by simp [place])⟩
  | bail n =>
    obtain ⟨place, same⟩ := Option.ite_none_right_eq_some.mp stepped
    cases same
    exact sound_of_handles sound.slot rfl rfl (by simp only [Conn.handles, Bool.toNat_false]; omega)
  | splice n =>
    obtain ⟨place, same⟩ := Option.ite_none_right_eq_some.mp stepped
    cases same
    exact ⟨by simp, by simp, fun _ _ _ => sound.tunnel place, by simp, sound.slot⟩
  | uplinkEnds n =>
    simp only [Conn.step] at stepped
    split at stepped
    · rename_i stage place
      cases stepped
      exact ⟨by simp, by simp, fun _ _ _ => sound.spliced _ _ place, by simp, sound.slot⟩
    · rename_i place
      exact absurd place sound.orphaned
    · cases stepped
  | downlinkEnds n =>
    simp only [Conn.step] at stepped
    split at stepped
    · rename_i place
      cases stepped
      exact ⟨by simp, by simp, fun _ _ _ => sound.spliced _ _ place, by simp, sound.slot⟩
    · cases stepped
  | leave n =>
    simp only [Conn.step] at stepped
    split at stepped
    · rename_i place
      cases stepped
      exact ⟨by simp, by simp, fun _ _ _ => sound.spliced _ _ place, by simp, sound.slot⟩
    · rename_i place
      cases stepped
      exact ⟨by simp, by simp, fun _ _ _ => sound.spliced _ _ place, by simp, sound.slot⟩
    · cases stepped
  | finish n =>
    simp only [Conn.step] at stepped
    split at stepped
    · rename_i uplink place
      cases stepped
      cases uplink with
      | true => exact absurd place (permitted n rfl)
      | false =>
        exact sound_of_handles sound.slot rfl rfl
          (by simp only [Conn.handles, Bool.toNat_false]; omega)
    · cases stepped
  | accept ip first => cases stepped
  | countDown n => cases stepped
  | reclaim n => cases stepped

end Connections

/-- The table counts the slots that are held, and never past the ceiling. -/
def Edge.Counted (e : Edge Ip) : Prop :=
  ∀ ip, (e.table ip).getD 0 = slots e.conns ip ∧ slots e.conns ip ≤ e.max

/-- What is true of the edge as long as no tunnel leaves its uplink behind. -/
structure Edge.Sound (e : Edge Ip) : Prop where
  counted : e.Counted
  conns : ∀ c ∈ e.conns, c.Sound

theorem Edge.Sound.sockets {e : Edge Ip} (sound : e.Sound) (ip : Ip) : e.sockets ip ≤ e.max := by
  refine Nat.le_trans (List.countP_mono_left fun c member => ?_) (sound.counted ip).2
  simp only [Bool.and_eq_true, decide_eq_true_eq]
  rintro ⟨owned, same⟩
  exact ⟨(sound.conns c member).held owned, same⟩

section Lists
variable {conns : List (Conn Ip)} {conn : Nat} {c c' : Conn Ip}

omit [DecidableEq Ip] in
private theorem sound_set (sound : ∀ c ∈ conns, c.Sound) (new : c'.Sound) :
    ∀ c ∈ conns.set conn c', c.Sound := by
  intro c member
  obtain member | rfl := List.mem_or_eq_of_mem_set member
  · exact sound c member
  · exact new

private theorem slots_kept (there : conns[conn]? = some c) (same : c'.ip = c.ip)
    (slot : c'.slot = .held ↔ c.slot = .held) (ip : Ip) :
    slots (conns.set conn c') ip = slots conns ip := by
  obtain ⟨within, rfl⟩ := List.getElem?_eq_some_iff.mp there
  simp only [slots, List.countP_set within, same, slot]
  split
  · rename_i counted
    have positive : 0 < conns.countP (fun c => decide (c.slot = .held) && decide (c.ip = ip)) :=
      List.countP_pos_iff.mpr ⟨_, List.getElem_mem within, counted⟩
    omega
  · omega

/-- A slot that leaves `held` takes one off the count of its address. -/
private theorem slots_released (there : conns[conn]? = some c) (held : c.slot = .held)
    (slot : c'.slot ≠ .held) (ip : Ip) :
    slots (conns.set conn c') ip = slots conns ip - if c.ip = ip then 1 else 0 := by
  obtain ⟨within, rfl⟩ := List.getElem?_eq_some_iff.mp there
  simp [slots, List.countP_set within, slot, held]

private theorem slots_admitted (conns : List (Conn Ip)) (new ip : Ip) :
    slots (conns ++ [{ ip := new }]) ip = slots conns ip + if new = ip then 1 else 0 := by
  by_cases same : new = ip <;> simp [slots, same]

end Lists

variable {e next : Edge Ip}

private theorem sound_claim (sound : e.Sound) (ip : Ip) (first : UInt8)
    (stepped : e.step (.accept ip first) = some next) : next.Sound := by
  simp only [Edge.step, claim] at stepped
  split at stepped
  · split at stepped
    · rename_i admitted
      split at admitted
      · cases admitted
      · rename_i free
        cases admitted
        cases stepped
        refine ⟨fun other => ?_, fun c member => ?_⟩
        · obtain ⟨counted, within⟩ := sound.counted other
          rw [slots_admitted]
          by_cases same : ip = other
          · subst same
            simp
            omega
          · simp [same, Ne.symm same, counted, within]
        · obtain member | new := List.mem_append.mp member
          · exact sound.conns c member
          · obtain rfl := List.mem_singleton.mp new
            exact ⟨by simp, by simp, by simp, by simp, by simp⟩
    · rename_i refused
      split at refused
      · cases refused
        cases stepped
        refine ⟨fun other => ?_, sound.conns⟩
        by_cases same : other = ip
        · subst same
          simpa using sound.counted other
        · simpa [same] using sound.counted other
      · cases refused
  · cases stepped
    exact sound

private theorem sound_countDown (sound : e.Sound) (conn : Nat)
    (stepped : e.step (.countDown conn) = some next) : next.Sound := by
  obtain ⟨c, there, stepped⟩ := Option.bind_eq_some_iff.mp stepped
  obtain ⟨⟨free, held⟩, same⟩ := Option.ite_none_right_eq_some.mp stepped
  cases same
  have old := sound.conns c (List.mem_of_getElem? there)
  refine ⟨fun ip => ?_, ?_⟩
  · obtain ⟨counted, within⟩ := sound.counted ip
    rw [slots_released there held (by simp)]
    by_cases same : c.ip = ip
    · subst same
      refine ⟨?_, by simp; omega⟩
      cases entry : e.table c.ip with
      | none =>
        rw [entry, Option.getD_none] at counted
        simp [countDown, entry, ← counted]
      | some count =>
        rw [entry, Option.getD_some] at counted
        simp [countDown, entry, ← counted]
    · simp [countDown, Function.update_of_ne (Ne.symm same), same, counted, within]
  · refine sound_set sound.conns ⟨old.http, old.tunnel, old.spliced, old.orphaned, fun some => ?_⟩
    have some : 0 < c.handles := some
    omega

private theorem sound_reclaim (sound : e.Sound) (conn : Nat)
    (stepped : e.step (.reclaim conn) = some next) : next.Sound := by
  obtain ⟨c, there, stepped⟩ := Option.bind_eq_some_iff.mp stepped
  obtain ⟨dropping, same⟩ := Option.ite_none_right_eq_some.mp stepped
  cases same
  have old := sound.conns c (List.mem_of_getElem? there)
  refine ⟨fun ip => ?_, ?_⟩
  · obtain ⟨counted, within⟩ := sound.counted ip
    have kept : slots (e.conns.set conn { c with slot := .gone }) ip = slots e.conns ip := by
      apply slots_kept there
      · rfl
      · simp [dropping]
    rw [kept]
    refine ⟨?_, within⟩
    unfold reclaim
    dsimp only
    split
    · rename_i empty
      by_cases same : ip = c.ip
      · subst same
        simp [← counted, empty]
      · simp [same, counted]
    · exact counted
  · refine sound_set sound.conns ⟨old.http, old.tunnel, old.spliced, old.orphaned, fun some => ?_⟩
    have held := old.slot some
    rw [dropping] at held
    cases held

/-- One step of the edge keeps the accounting. -/
theorem Edge.step_sound (sound : e.Sound) (permitted : e.Permits act)
    (stepped : e.step act = some next) : next.Sound := by
  have own {conn : Nat}
      (moved : ((e.conns[conn]?).bind fun c =>
        (c.step act).map fun c => { e with conns := e.conns.set conn c }) = some next)
      (finishes : ∀ c, e.conns[conn]? = some c → ∀ n, act = .finish n →
        c.place ≠ .spliced true .closing) : next.Sound := by
    obtain ⟨c, there, moved⟩ := Option.bind_eq_some_iff.mp moved
    obtain ⟨c', did, rfl⟩ := Option.map_eq_some_iff.mp moved
    obtain ⟨same, slot⟩ := Conn.step_frame did
    have new := Conn.step_sound (sound.conns c (List.mem_of_getElem? there)) did
      (finishes c there)
    refine ⟨fun ip => ?_, sound_set sound.conns new⟩
    rw [slots_kept there same (by rw [slot])]
    exact sound.counted ip
  cases act with
  | accept ip first => exact sound_claim sound ip first stepped
  | countDown conn => exact sound_countDown sound conn stepped
  | reclaim conn => exact sound_reclaim sound conn stepped
  | finish conn =>
    refine own stepped fun c there n same => permitted c ?_
    exact there
  | _ => exact own stepped (by simp)

theorem Edge.step_max (stepped : e.step act = some next) : next.max = e.max := by
  unfold Edge.step at stepped
  split at stepped
  · split at stepped
    · split at stepped <;> cases stepped <;> rfl
    · cases stepped
      rfl
  · obtain ⟨c, -, stepped⟩ := Option.bind_eq_some_iff.mp stepped
    obtain ⟨-, same⟩ := Option.ite_none_right_eq_some.mp stepped
    cases same
    rfl
  · obtain ⟨c, -, stepped⟩ := Option.bind_eq_some_iff.mp stepped
    obtain ⟨-, same⟩ := Option.ite_none_right_eq_some.mp stepped
    cases same
    rfl
  · obtain ⟨c, -, stepped⟩ := Option.bind_eq_some_iff.mp stepped
    obtain ⟨c', -, rfl⟩ := Option.map_eq_some_iff.mp stepped
    rfl

/-- In a run in which every uplink task is through before its `serve_client`
returns, no address ever holds more sockets than the ceiling allows and no slot
comes back before its socket. -/
theorem client_ceiling_bounds_sockets (max : Nat) (actions : List (Act Ip))
    (permitted : Meets Edge.step Edge.Permits { max } actions) {t : Edge Ip}
    (ran : run Edge.step { max } actions = some t) :
    (∀ ip, t.sockets ip ≤ max) ∧ ∀ c ∈ t.conns, c.owned = true → c.slot = .held := by
  have kept : t.Sound ∧ t.max = max := by
    refine run_preserves_where (fun e => e.Sound ∧ e.max = max) ?_ ⟨⟨?_, ?_⟩, rfl⟩ permitted ran
    · rintro e act next ⟨sound, same⟩ permitted stepped
      exact ⟨Edge.step_sound sound permitted stepped, (Edge.step_max stepped).trans same⟩
    · intro ip
      exact ⟨rfl, Nat.zero_le _⟩
    · intro c member
      cases member
  obtain ⟨sound, rfl⟩ := kept
  exact ⟨sound.sockets, fun c member owned => (sound.conns c member).held owned⟩

/-- A client upgrades and stays silent while its bridge closes the stream: the
downlink ends, `serve_client` returns, the slot goes back. -/
private def silentClient : List (Act Nat) :=
  [.accept 7 0x16, .request 0, .upgrade 0, .splice 0, .downlinkEnds 0, .leave 0, .finish 0,
    .countDown 0, .reclaim 0]

/-- With a ceiling of one, the address then gets a second socket in while the
first is still read from. -/
theorem silent_client_outlives_slot :
    ∃ t, run Edge.step { max := 1 } (silentClient ++ [.accept 7 0x16]) = some t ∧ t.sockets 7 = 2 := by
  have reached : (run Edge.step { max := 1 } (silentClient ++ [.accept 7 0x16])).map
      (·.sockets 7) = some 2 := by decide +kernel
  exact Option.map_eq_some_iff.mp reached

private def politeClient : List (Act Nat) :=
  [.accept 7 0x16, .request 0, .upgrade 0, .splice 0, .downlinkEnds 0, .uplinkEnds 0, .leave 0,
    .finish 0, .countDown 0, .accept 7 0x16]

/-- A client that hangs up first gives its slot back with its socket. -/
theorem client_ceiling_bounds_sockets_polite :
    ∃ t, run Edge.step { max := 1 } politeClient = some t ∧ t.sockets 7 ≤ 1 := by
  have checked : (run Edge.step { max := 1 } politeClient).isSome ∧
      Meets Edge.step Edge.Permits { max := 1 } politeClient := by decide +kernel
  obtain ⟨t, ran⟩ := Option.isSome_iff_exists.mp checked.1
  exact ⟨t, ran, (client_ceiling_bounds_sockets 1 politeClient checked.2 ran).1 7⟩

end DshProxy.Clients

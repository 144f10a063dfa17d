import DshProxy.CommandLine
import DshProxy.EndToEnd
import DshProxy.Routing
import DshProxy.IpSlots

/-! `run_edge` with every connection it has accepted. A bridge's connection goes
through `serve` and `serve_bridge`: the preamble, the two ceilings, the handshake,
the routing table, and the way out, on which both places are given back. A client's
stream carries its preamble, and the key in it decides which bridge's link the
client is spliced onto. -/
namespace DshProxy.Mux
open Sync Wire Transitions Clients

/-- Where `serve` and then `serve_bridge` stand with one connection. -/
inductive Serving
  /-- In `read_exact(&mut head)`. -/
  | preamble
  /-- The preamble is a bridge's. -/
  | admission
  /-- A place in the process-wide budget is held. -/
  | claiming
  /-- The address's slot is held too; `xx_respond` runs. -/
  | handshake
  /-- The session runs. -/
  | linked (stage : Registration)
  /-- `_per_ip` is dropped: it counts down, then looks at its key. -/
  | dropping
  | reclaiming
  /-- `_slots` is dropped. -/
  | releasing
  | returned
  deriving DecidableEq, Repr

/-- One connection that is no client's. `key` is what its handshake has proved;
`proxy` is its session with everyone on it, from then on. -/
structure Bridge (Ip : Type) where
  ip : Ip
  stage : Serving := .preamble
  key : Option Key := none
  proxy : Proxy

/-- Where a client's bytes go: to the link that was in the table under the key its
preamble names, or nowhere. -/
inductive Route
  | undecided
  | refused
  | link (bridge : Nat)
  deriving DecidableEq, Repr

structure RunEdge (Ip : Type) where
  limits : Limits
  budget : Nat
  perIp : Ip → Option Nat := fun _ => none
  table : Key → Option Nat := fun _ => none
  bridges : List (Bridge Ip) := []
  clients : Nat → Client := fun _ => {}
  routes : Nat → Route := fun _ => .undecided

inductive BridgeAct
  /-- `read_exact` has filled the head. -/
  | head (bytes : Bytes)
  /-- The preamble, or the handshake, fails or takes too long. -/
  | fail
  /-- `xx_respond` returns; `MuxSession::start`. -/
  | prove (key : Key)
  /-- The next uninterrupted piece of work. -/
  | proceed
  /-- `done.await` returns. -/
  | wake
  /-- A step of the link's two tasks, or of whoever drops a removed state. -/
  | link (act : Session.Act)
  deriving DecidableEq, Repr

inductive EdgeAct (Ip : Type)
  /-- A socket whose first byte is not a TLS ClientHello's. -/
  | accept (ip : Ip)
  | bridge (n : Nat) (act : BridgeAct)
  | client (name : Nat) (act : ClientAct)
  /-- A step of a client's tunnel that does not wait on its carrier. -/
  | tunnel (name : Nat) (act : TunnelAct)
  deriving DecidableEq, Repr

/-- The key in a preamble. -/
def keyOf (head : Bytes) : Option Key :=
  if long : (head.drop 5).length = 32 then some ⟨head.drop 5, long⟩ else none

/-- The preamble of a client that asks for a key. -/
def helloFor (key : Key) : Bytes := magicClient ++ version :: key.val

variable {Ip : Type} [DecidableEq Ip]

namespace RunEdge

/-- `run_edge` before its loop. On `max_bridges` from 2^61 on, which the flags accept,
`Semaphore::new` panics; nothing is run then. -/
def start (limits : Limits) : RunEdge Ip := { limits, budget := limits.maxBridges }

variable (e : RunEdge Ip)

def put (n : Nat) (b : Bridge Ip) : RunEdge Ip := { e with bridges := e.bridges.set n b }

/-- `serve_bridge` from one point where others can act to the next. -/
def proceed (n : Nat) (b : Bridge Ip) : Option (RunEdge Ip) :=
  match b.stage with
  | .admission =>
    if e.budget = 0 then some (e.put n { b with stage := .returned })
    else some { e.put n { b with stage := .claiming } with budget := e.budget - 1 }
  | .claiming =>
    match claim e.perIp b.ip e.limits.maxBridgesPerIp with
    | (perIp, true) => some { e.put n { b with stage := .handshake } with perIp }
    | (perIp, false) => some { e.put n { b with stage := .releasing } with perIp }
  | .linked .started => b.key.map fun key =>
    { e.put n { b with stage := .linked (Registry.afterInsert (e.table key)) } with
      table := Function.update e.table key (some n) }
  | .linked (.displacing m) => (e.bridges[m]?).bind fun old =>
    (old.proxy.step (.link .shutdownClear)).map fun proxy =>
      (e.put m { old with proxy }).put n { b with stage := .linked (.aborting m) }
  | .linked (.aborting m) => (e.bridges[m]?).bind fun old =>
    (old.proxy.step (.link .shutdownAbort)).map fun proxy =>
      (e.put m { old with proxy }).put n { b with stage := .linked .serving }
  | .linked .leaving => b.key.map fun key =>
    { e.put n { b with stage := .dropping } with
      table := if e.table key = some n then Function.update e.table key none else e.table }
  | .dropping => some { e.put n { b with stage := .reclaiming } with perIp := countDown e.perIp b.ip }
  | .reclaiming => some { e.put n { b with stage := .releasing } with perIp := reclaim e.perIp b.ip }
  | .releasing => some { e.put n { b with stage := .returned } with budget := e.budget + 1 }
  | .preamble | .handshake | .linked .serving | .linked .down | .returned => none

def bridgeStep (n : Nat) (b : Bridge Ip) : BridgeAct → Option (RunEdge Ip)
  | .head bytes =>
    if b.stage = .preamble ∧ bytes.length = headLen then
      -- An unknown version or magic gets nothing back.
      some (e.put n { b with
        stage := if bytes.getD 4 0 = version ∧ bytes.take 4 = magicBridge then .admission else .returned })
    else none
  | .fail =>
    if b.stage = .preamble then some (e.put n { b with stage := .returned })
    else if b.stage = .handshake then some (e.put n { b with stage := .dropping })
    else none
  | .prove key =>
    if b.stage = .handshake then some (e.put n { b with stage := .linked .started, key := some key }) else none
  | .proceed => e.proceed n b
  | .wake =>
    if b.stage = .linked .serving ∧ b.proxy.session.reader = .ended then
      some (e.put n { b with stage := .linked .leaving })
    else none
  | .link act =>
    -- Nobody but the link that displaces it calls a session's `shutdown`.
    if b.key = none ∨ act = .shutdownClear ∨ act = .shutdownAbort then none
    else (b.proxy.step (.link act)).map fun proxy => e.put n { b with proxy }

/-- `table.get(&key)`, and the first piece of the `serve_client` that it leads to. -/
def serveClient (name : Nat) (c : Client) (head : Bytes) : Option (RunEdge Ip) :=
  match (keyOf head).bind e.table with
  | none => some { e with routes := Function.update e.routes name .refused }
  | some n => (e.bridges[n]?).bind fun b =>
    (b.proxy.step (.tunnel name (.begin head))).map fun proxy =>
      { e.put n { b with proxy } with
        clients := Function.update e.clients name c
        routes := Function.update e.routes name (.link n) }

/-- A client on a link moves with its tunnel. -/
def clientOn (name n : Nat) (b : Bridge Ip) (c : Client) : Option TunnelAct → Option (RunEdge Ip)
  | none => some { e with clients := Function.update e.clients name c }
  | some act => (b.proxy.step (.tunnel name act)).map fun proxy =>
    { e.put n { b with proxy } with clients := Function.update e.clients name c }

def clientStep (name : Nat) (act : ClientAct) : Option (RunEdge Ip) :=
  match e.routes name with
  | .undecided => ((e.clients name).step {} act).bind fun (c, did) =>
    match did with
    | none => some { e with clients := Function.update e.clients name c }
    | some (.begin head) => e.serveClient name c head
    | some _ => none
  | .refused => none
  | .link n => (e.bridges[n]?).bind fun b =>
    ((e.clients name).step (b.proxy.tunnels name) act).bind fun (c, did) => e.clientOn name n b c did

def step : EdgeAct Ip → Option (RunEdge Ip)
  | .accept ip =>
    some { e with bridges := e.bridges ++ [{ ip, proxy := .start e.limits.maxStreamsPerBridge }] }
  | .bridge n act => (e.bridges[n]?).bind fun b => e.bridgeStep n b act
  | .client name act => e.clientStep name act
  | .tunnel name act =>
    match e.routes name with
    | .link n => (e.bridges[n]?).bind fun b =>
      if act.onCarrier then none
      else (b.proxy.step (.tunnel name act)).map fun proxy => e.put n { b with proxy }
    | .undecided | .refused => none

end RunEdge

/-- Everything a step of a client can be, with what it needs and what it does. -/
inductive ClientMove (e : RunEdge Ip) (name : Nat) (act : ClientAct) : RunEdge Ip → Prop
  | before (c) (unrouted : e.routes name = .undecided) (did : (e.clients name).step {} act = some (c, none)) :
    ClientMove e name act { e with clients := Function.update e.clients name c }
  | refused (c head) (unrouted : e.routes name = .undecided)
    (did : (e.clients name).step {} act = some (c, some (.begin head)))
    (missing : (keyOf head).bind e.table = none) :
    ClientMove e name act { e with routes := Function.update e.routes name .refused }
  | served (c head key n b proxy) (unrouted : e.routes name = .undecided)
    (did : (e.clients name).step {} act = some (c, some (.begin head))) (names : keyOf head = some key)
    (found : e.table key = some n) (there : e.bridges[n]? = some b)
    (began : b.proxy.step (.tunnel name (.begin head)) = some proxy) :
    ClientMove e name act { e.put n { b with proxy } with
      clients := Function.update e.clients name c
      routes := Function.update e.routes name (.link n) }
  | carried (n b c) (routed : e.routes name = .link n) (there : e.bridges[n]? = some b)
    (did : (e.clients name).step (b.proxy.tunnels name) act = some (c, none)) :
    ClientMove e name act { e with clients := Function.update e.clients name c }
  | tells (n b c told proxy) (routed : e.routes name = .link n) (there : e.bridges[n]? = some b)
    (did : (e.clients name).step (b.proxy.tunnels name) act = some (c, some told))
    (moved : b.proxy.step (.tunnel name told) = some proxy) :
    ClientMove e name act { e.put n { b with proxy } with clients := Function.update e.clients name c }

omit [DecidableEq Ip] in
theorem RunEdge.clientStep_move {e next : RunEdge Ip} {name : Nat} {act : ClientAct}
    (stepped : e.clientStep name act = some next) : ClientMove e name act next := by
  unfold clientStep at stepped
  split at stepped
  · rename_i unrouted
    obtain ⟨⟨c, did⟩, moved, stepped⟩ := Option.bind_eq_some_iff.mp stepped
    dsimp only at stepped
    split at stepped
    · cases stepped
      exact .before c unrouted moved
    · rename_i head
      unfold serveClient at stepped
      split at stepped
      · rename_i missing
        cases stepped
        exact .refused c head unrouted moved missing
      · rename_i n found
        obtain ⟨key, names, found⟩ := Option.bind_eq_some_iff.mp found
        obtain ⟨b, there, stepped⟩ := Option.bind_eq_some_iff.mp stepped
        obtain ⟨proxy, began, rfl⟩ := Option.map_eq_some_iff.mp stepped
        exact .served c head key n b proxy unrouted moved names found there began
    · cases stepped
  · cases stepped
  · rename_i n routed
    obtain ⟨b, there, stepped⟩ := Option.bind_eq_some_iff.mp stepped
    obtain ⟨⟨c, did⟩, moved, stepped⟩ := Option.bind_eq_some_iff.mp stepped
    cases did with
    | none =>
      cases stepped
      exact .carried n b c routed there moved
    | some told =>
      obtain ⟨proxy, did, rfl⟩ := Option.map_eq_some_iff.mp stepped
      exact .tells n b c told proxy routed there moved did

theorem RunEdge.tunnelStep_move {e next : RunEdge Ip} {name : Nat} {act : TunnelAct}
    (stepped : e.step (.tunnel name act) = some next) :
    ∃ n b proxy, e.routes name = .link n ∧ e.bridges[n]? = some b ∧ act.onCarrier = false ∧
      b.proxy.step (.tunnel name act) = some proxy ∧ next = e.put n { b with proxy } := by
  simp only [step] at stepped
  split at stepped
  · rename_i n routed
    obtain ⟨b, there, stepped⟩ := Option.bind_eq_some_iff.mp stepped
    obtain ⟨own, stepped⟩ := Option.ite_none_left_eq_some.mp stepped
    obtain ⟨proxy, moved, rfl⟩ := Option.map_eq_some_iff.mp stepped
    exact ⟨n, b, proxy, routed, there, by simpa using own, moved, rfl⟩
  · cases stepped
  · cases stepped

end DshProxy.Mux

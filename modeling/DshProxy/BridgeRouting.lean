import DshProxy.BridgeAdmission
import DshProxy.Simulation

/-! Whose bytes go where. Seen from one link the process is that link with its own
tunnels and clients, whatever else goes on; and a client gets onto a link only by
the key that the link's bridge has proved. -/
namespace DshProxy.Mux
open Sync Wire Transitions

variable {Ip : Type} [DecidableEq Ip] {e next : RunEdge Ip} {s : Splice} {n m name : Nat} {b : Bridge Ip}
  {c c' : Client} {t : Tunnel}

/-- The session of a link; one that is not there yet is as it will start. -/
def RunEdge.proxyOf (e : RunEdge Ip) (n : Nat) : Proxy :=
  ((e.bridges[n]?).map (·.proxy)).getD (.start e.limits.maxStreamsPerBridge)

/-- A link of the process and the same link on its own: the clients that may still
come to it and those that are on it are the same, and nobody else has been there. -/
structure Shows (n : Nat) (e : RunEdge Ip) (s : Splice) : Prop where
  proxy : s.proxy = e.proxyOf n
  clients : ∀ name, e.routes name = .undecided ∨ e.routes name = .link n → s.clients name = e.clients name
  idle : ∀ name, e.routes name ≠ .link n → s.proxy.tunnels name = {}

section Proxies
omit [DecidableEq Ip]

@[simp] theorem proxyOf_there (there : e.bridges[n]? = some b) : e.proxyOf n = b.proxy := by
  rw [RunEdge.proxyOf, there]
  rfl

theorem proxyOf_here (there : e.bridges[n]? = some b) {b' : Bridge Ip} {proxy : Proxy}
    (bridges : next.bridges = e.bridges.set n b') (own : proxy = b'.proxy) : proxy = next.proxyOf n := by
  obtain ⟨within, -⟩ := List.getElem?_eq_some_iff.mp there
  simp [RunEdge.proxyOf, bridges, within, own]

theorem proxyOf_away (away : n ≠ m) {b' : Bridge Ip} (bridges : next.bridges = e.bridges.set m b')
    (limits : next.limits = e.limits) : next.proxyOf n = e.proxyOf n := by
  simp [RunEdge.proxyOf, bridges, limits, List.getElem?_set_ne away.symm]

theorem proxyOf_accept (e : RunEdge Ip) (n : Nat) (ip : Ip) :
    ({ e with bridges := e.bridges ++ [{ ip, proxy := .start e.limits.maxStreamsPerBridge }] } :
      RunEdge Ip).proxyOf n = e.proxyOf n := by
  simp only [RunEdge.proxyOf, List.getElem?_append]
  split
  · rfl
  · rename_i beyond
    rw [List.getElem?_eq_none (Nat.le_of_not_lt beyond)]
    cases n - e.bridges.length <;> rfl

/-- Whatever does not touch the link's session, its clients or its routes is not seen. -/
theorem Shows.of_eq (shows : Shows n e s) (proxy : next.proxyOf n = e.proxyOf n)
    (clients : next.clients = e.clients) (routes : next.routes = e.routes) : Shows n next s := by
  refine ⟨shows.proxy.trans proxy.symm, fun name here => ?_, fun name away => ?_⟩
  · rw [clients]
    exact shows.clients name (routes ▸ here)
  · exact shows.idle name (routes ▸ away)

/-- A task that moves on leaves every session alone. -/
theorem Shows.aside (shows : Shows n e s) (there : e.bridges[m]? = some b) {b' : Bridge Ip}
    (bridges : next.bridges = e.bridges.set m b') (same : b'.proxy = b.proxy) (limits : next.limits = e.limits)
    (clients : next.clients = e.clients) (routes : next.routes = e.routes) : Shows n next s := by
  refine shows.of_eq ?_ clients routes
  by_cases here : n = m
  · subst here
    rw [proxyOf_there there, proxyOf_here there bridges same.symm]
  · exact proxyOf_away here bridges limits

/-- A session's own step is a step of the link. -/
theorem Shows.link (shows : Shows n e s) (there : e.bridges[m]? = some b) {proxy : Proxy} {act : Session.Act}
    (moved : b.proxy.step (.link act) = some proxy) :
    Matched Splice.step (fun _ _ => True) (Shows n) s (e.put m { b with proxy }) := by
  by_cases same : n = m
  · subst same
    have did : s.proxy.step (.link act) = some proxy := by
      rwa [shows.proxy, proxyOf_there there]
    have stepped : s.step (.link act) = some { s with proxy } := by
      rw [Splice.step, did]
      rfl
    obtain ⟨session, -, rfl⟩ := Option.map_eq_some_iff.mp did
    exact .follow stepped trivial ⟨proxyOf_here there rfl rfl, shows.clients, shows.idle⟩
  · exact .stutter (shows.of_eq (proxyOf_away same rfl rfl) rfl rfl)

/-- One link shuts another one down. The two are never the same link; if they were,
the call would be lost on it. -/
private theorem shows_shuts (shows : Shows n e s) (there : e.bridges[m]? = some b) {call : Session.Act}
    {k : Nat} (after : Serving)
    (did : ((e.bridges[k]?).bind fun old => (old.proxy.step (.link call)).map fun proxy =>
      (e.put k { old with proxy }).put m { b with stage := after }) = some next) :
    Matched Splice.step (fun _ _ => True) (Shows n) s next := by
  obtain ⟨old, held, did⟩ := Option.bind_eq_some_iff.mp did
  obtain ⟨proxy, moved, rfl⟩ := Option.map_eq_some_iff.mp did
  by_cases same : k = m
  · subst same
    have once : (e.put k { old with proxy }).put k { b with stage := after } = e.put k { b with stage := after } := by
      simp [RunEdge.put]
    rw [once]
    exact .stutter (shows.aside there rfl rfl rfl rfl rfl)
  · have still : (e.put k { old with proxy }).bridges[m]? = some b := by
      simpa [RunEdge.put, List.getElem?_set_ne same] using there
    exact (shows.link held moved).imp fun _ after => after.aside still rfl rfl rfl rfl rfl

end Proxies

theorem Shows.bridge (shows : Shows n e s) (there : e.bridges[m]? = some b) {act : BridgeAct}
    (did : e.bridgeStep m b act = some next) :
    Matched Splice.step (fun _ _ => True) (Shows n) s next := by
  have aside {next : RunEdge Ip} {b' : Bridge Ip} (bridges : next.bridges = e.bridges.set m b')
      (same : b'.proxy = b.proxy) (limits : next.limits = e.limits) (clients : next.clients = e.clients)
      (routes : next.routes = e.routes) : Matched Splice.step (fun _ _ => True) (Shows n) s next :=
    .stutter (shows.aside there bridges same limits clients routes)
  cases act with
  | head bytes =>
    obtain ⟨-, same⟩ := Option.ite_none_right_eq_some.mp did
    cases same
    exact aside rfl rfl rfl rfl rfl
  | fail =>
    simp only [RunEdge.bridgeStep] at did
    split at did
    · cases did
      exact aside rfl rfl rfl rfl rfl
    · obtain ⟨-, same⟩ := Option.ite_none_right_eq_some.mp did
      cases same
      exact aside rfl rfl rfl rfl rfl
  | prove key =>
    obtain ⟨-, same⟩ := Option.ite_none_right_eq_some.mp did
    cases same
    exact aside rfl rfl rfl rfl rfl
  | proceed =>
    -- Of all the pieces of `serve_bridge` only `shutdown` touches a session.
    simp only [RunEdge.bridgeStep, RunEdge.proceed] at did
    split at did
    · split at did <;> cases did
      · exact aside rfl rfl rfl rfl rfl
      · exact aside rfl rfl rfl rfl rfl
    · split at did <;> cases did <;> exact aside rfl rfl rfl rfl rfl
    · obtain ⟨key, -, rfl⟩ := Option.map_eq_some_iff.mp did
      exact aside rfl rfl rfl rfl rfl
    · exact shows_shuts shows there _ did
    · exact shows_shuts shows there _ did
    · obtain ⟨key, -, rfl⟩ := Option.map_eq_some_iff.mp did
      exact aside rfl rfl rfl rfl rfl
    · cases did
      exact aside rfl rfl rfl rfl rfl
    · cases did
      exact aside rfl rfl rfl rfl rfl
    · cases did
      exact aside rfl rfl rfl rfl rfl
    all_goals cases did
  | wake =>
    obtain ⟨-, same⟩ := Option.ite_none_right_eq_some.mp did
    cases same
    exact aside rfl rfl rfl rfl rfl
  | link act =>
    obtain ⟨-, did⟩ := Option.ite_none_left_eq_some.mp did
    obtain ⟨proxy, moved, rfl⟩ := Option.map_eq_some_iff.mp did
    exact shows.link there moved

omit [DecidableEq Ip] in
/-- A client of the link, or one that may still come to it, and what it does. -/
private theorem shows_put (shows : Shows n e s) {proxy : Proxy} (sees : proxy = next.proxyOf n)
    (others : ∀ other, other ≠ name → proxy.tunnels other = s.proxy.tunnels other)
    (own : next.routes name ≠ .link n → proxy.tunnels name = {})
    (clients : next.clients = Function.update e.clients name c)
    (routes : ∀ other, other ≠ name → next.routes other = e.routes other) :
    Shows n next { proxy, clients := Function.update s.clients name c } := by
  refine ⟨sees, fun other here => ?_, fun other away => ?_⟩
  · dsimp only
    rw [clients]
    by_cases same : other = name
    · subst same
      rw [Function.update_self, Function.update_self]
    · rw [Function.update_of_ne same, Function.update_of_ne same]
      exact shows.clients other (routes other same ▸ here)
  · by_cases same : other = name
    · subst same
      exact own away
    · dsimp only
      rw [others other same]
      exact shows.idle other (routes other same ▸ away)

omit [DecidableEq Ip] in
/-- A client that is on another link, or was turned away, is not seen. -/
private theorem shows_elsewhere (shows : Shows n e s) (proxy : next.proxyOf n = e.proxyOf n)
    (clients : ∀ other, other ≠ name → next.clients other = e.clients other)
    (routes : ∀ other, other ≠ name → next.routes other = e.routes other)
    (away : next.routes name ≠ .undecided ∧ next.routes name ≠ .link n) (was : e.routes name ≠ .link n) :
    Shows n next s := by
  refine ⟨shows.proxy.trans proxy.symm, fun other here => ?_, fun other away' => ?_⟩
  · by_cases same : other = name
    · subst same
      exact absurd here (not_or.mpr away)
    · rw [clients other same]
      exact shows.clients other (routes other same ▸ here)
  · by_cases same : other = name
    · subst same
      exact shows.idle other was
    · exact shows.idle other (routes other same ▸ away')

omit [DecidableEq Ip] in
private theorem proxy_others {p q : Proxy} {act : TunnelAct} (moved : p.step (.tunnel name act) = some q)
    (other : Nat) (away : other ≠ name) : q.tunnels other = p.tunnels other := by
  obtain ⟨⟨session, tunnel⟩, -, rfl⟩ := Option.map_eq_some_iff.mp moved
  exact Proxy.put_other p away session tunnel

omit [DecidableEq Ip] in
theorem Shows.client (shows : Shows n e s) {act : ClientAct} (move : ClientMove e name act next) :
    Matched Splice.step (fun _ _ => True) (Shows n) s next := by
  -- A step of a client that the link sees, with what its tunnel makes of it.
  have sees (here : e.routes name = .undecided ∨ e.routes name = .link n) {c : Client} {did : Option TunnelAct}
      (moved : (e.clients name).step (s.proxy.tunnels name) act = some (c, did)) :
      s.step (.client name act) = s.put name c did := by
    rw [Splice.step, shows.clients name here, moved]
    rfl
  cases move with
  | before c unrouted did =>
    have idle := shows.idle name (by simp [unrouted])
    refine .follow (sees (.inl unrouted) (idle.symm ▸ did)) trivial ?_
    exact shows_put shows shows.proxy (fun _ _ => rfl) (fun _ => idle) rfl fun _ _ => rfl
  | refused c head unrouted did missing =>
    have routes (other : Nat) (away : other ≠ name) :
        Function.update e.routes name .refused other = e.routes other := Function.update_of_ne away _ _
    exact .stutter (shows_elsewhere shows rfl (fun _ _ => rfl) routes (by simp) (by simp [unrouted]))
  | served c head key m b proxy unrouted did names found there began =>
    have idle := shows.idle name (by simp [unrouted])
    have routes (other : Nat) (away : other ≠ name) :
        Function.update e.routes name (.link m) other = e.routes other := Function.update_of_ne away _ _
    by_cases same : n = m
    · subst same
      have began : s.proxy.step (.tunnel name (.begin head)) = some proxy := by
        rwa [shows.proxy, proxyOf_there there]
      have stepped : s.step (.client name act) =
          some { proxy, clients := Function.update s.clients name c } := by
        rw [sees (.inl unrouted) (idle.symm ▸ did), Splice.put, began]
        rfl
      refine .follow stepped trivial (shows_put shows ?_ (proxy_others began) (by simp) rfl routes)
      exact proxyOf_here there rfl rfl
    · refine .stutter (shows_elsewhere shows ?_ (fun other away => Function.update_of_ne away _ _) routes ?_
        (by simp [unrouted]))
      · exact proxyOf_away same rfl rfl
      · simpa using Ne.symm same
  | carried m b c routed there did =>
    by_cases same : n = m
    · subst same
      have did : (e.clients name).step (s.proxy.tunnels name) act = some (c, none) := by
        rwa [shows.proxy, proxyOf_there there]
      refine .follow (sees (.inr routed) did) trivial ?_
      exact shows_put shows shows.proxy (fun _ _ => rfl) (fun away => absurd routed away) rfl fun _ _ => rfl
    · have away : e.routes name ≠ .link n := by simpa [routed] using Ne.symm same
      refine .stutter (shows_elsewhere shows rfl (fun other away => Function.update_of_ne away _ _)
        (fun _ _ => rfl) ⟨by simp [routed], away⟩ away)
  | tells m b c told proxy routed there did moved =>
    by_cases same : n = m
    · subst same
      have did : (e.clients name).step (s.proxy.tunnels name) act = some (c, some told) := by
        rwa [shows.proxy, proxyOf_there there]
      have moved : s.proxy.step (.tunnel name told) = some proxy := by
        rwa [shows.proxy, proxyOf_there there]
      have stepped : s.step (.client name act) =
          some { proxy, clients := Function.update s.clients name c } := by
        rw [sees (.inr routed) did, Splice.put, moved]
        rfl
      refine .follow stepped trivial
        (shows_put shows ?_ (proxy_others moved) (fun away => absurd routed away) rfl fun _ _ => rfl)
      exact proxyOf_here there rfl rfl
    · have away : e.routes name ≠ .link n := by simpa [routed] using Ne.symm same
      refine .stutter (shows_elsewhere shows ?_ (fun other away => Function.update_of_ne away _ _)
        (fun _ _ => rfl) ⟨by simp [RunEdge.put, routed], away⟩ away)
      exact proxyOf_away same rfl rfl

theorem Shows.tunnel (shows : Shows n e s) {act : TunnelAct} (stepped : e.step (.tunnel name act) = some next) :
    Matched Splice.step (fun _ _ => True) (Shows n) s next := by
  obtain ⟨m, b, proxy, routed, there, own, moved, rfl⟩ := RunEdge.tunnelStep_move stepped
  by_cases same : n = m
  · subst same
    have moved : s.proxy.step (.tunnel name act) = some proxy := by
      rwa [shows.proxy, proxyOf_there there]
    have stepped : s.step (.tunnel name act) = some { s with proxy } := by
      rw [Splice.step, if_neg (by simp [own]), moved]
      rfl
    refine .follow stepped trivial ⟨?_, shows.clients, fun other away => ?_⟩
    · exact proxyOf_here there rfl rfl
    · have apart : other ≠ name := by
        rintro rfl
        exact away routed
      rw [show ({ s with proxy } : Splice).proxy = proxy from rfl, proxy_others moved other apart]
      exact shows.idle other away
  · exact .stutter (shows.of_eq (proxyOf_away same rfl rfl) rfl rfl)

/-- Seen from one link, the process is that link with its own clients. -/
theorem shows_simulates (n : Nat) :
    Simulates (σ := RunEdge Ip) RunEdge.step (fun _ _ => True) Splice.step (fun _ _ => True) (Shows n) := by
  intro e act next s shows _ stepped
  cases act with
  | accept ip =>
    cases stepped
    exact .stutter (shows.of_eq (proxyOf_accept e n ip) rfl rfl)
  | bridge m act =>
    obtain ⟨b, there, did⟩ := Option.bind_eq_some_iff.mp stepped
    exact shows.bridge there did
  | client name act => exact shows.client (RunEdge.clientStep_move stepped)
  | tunnel name act => exact shows.tunnel stepped

omit [DecidableEq Ip] in
theorem Shows.start (n : Nat) (limits : Limits) :
    Shows n (RunEdge.start limits : RunEdge Ip) (.start limits.maxStreamsPerBridge) :=
  ⟨rfl, fun _ _ => rfl, fun _ _ => rfl⟩

/-- The handshake is not over. -/
def Serving.isEarly : Serving → Bool
  | .preamble | .admission | .claiming | .handshake => true
  | .linked _ | .dropping | .reclaiming | .releasing | .returned => false

/-- A task goes on: the key that has been proved stays the key, and nobody goes
back to before the handshake. -/
structure Bridge.Grows (b b' : Bridge Ip) : Prop where
  key : b.stage.isEarly = false → ∀ key, b.key = some key → b'.key = some key
  early : b'.stage.isEarly = true → b.stage.isEarly = true ∧ b'.key = b.key

/-- All tasks go on, and none is new. -/
structure RunEdge.Grows (e next : RunEdge Ip) : Prop where
  length : next.bridges.length = e.bridges.length
  each : ∀ (n : Nat) (b : Bridge Ip), e.bridges[n]? = some b → ∃ b' : Bridge Ip, next.bridges[n]? = some b' ∧ b.Grows b'

section Keys
omit [DecidableEq Ip]

theorem Bridge.Grows.refl (b : Bridge Ip) : b.Grows b := ⟨fun _ _ proved => proved, fun early => ⟨early, rfl⟩⟩

theorem RunEdge.Grows.refl (e : RunEdge Ip) : e.Grows e := ⟨rfl, fun _ b there => ⟨b, there, .refl b⟩⟩

theorem Bridge.Grows.trans {b b' b'' : Bridge Ip} (first : b.Grows b') (second : b'.Grows b'') : b.Grows b'' := by
  refine ⟨fun late key proved => ?_, fun early => ?_⟩
  · refine second.key ?_ key (first.key late key proved)
    cases now : b'.stage.isEarly with
    | false => rfl
    | true => exact (first.early now).1.symm.trans late
  · obtain ⟨before, same⟩ := second.early early
    exact ⟨(first.early before).1, same.trans (first.early before).2⟩

theorem RunEdge.Grows.trans {mid : RunEdge Ip} (first : e.Grows mid) (second : mid.Grows next) : e.Grows next := by
  refine ⟨second.length.trans first.length, fun n b there => ?_⟩
  obtain ⟨b', there', grows⟩ := first.each n b there
  obtain ⟨b'', there'', grows'⟩ := second.each n b' there'
  exact ⟨b'', there'', grows.trans grows'⟩

theorem RunEdge.Grows.put (there : e.bridges[m]? = some b) {b' : Bridge Ip}
    (bridges : next.bridges = e.bridges.set m b') (grows : b.Grows b') : e.Grows next := by
  refine ⟨by rw [bridges, List.length_set], fun n old was => ?_⟩
  by_cases same : m = n
  · subst same
    cases there.symm.trans was
    obtain ⟨within, -⟩ := List.getElem?_eq_some_iff.mp there
    exact ⟨b', by simp [bridges, within], grows⟩
  · exact ⟨old, by simpa [bridges, List.getElem?_set_ne same] using was, .refl old⟩

private theorem grows_shuts (there : e.bridges[m]? = some b) {call : Session.Act} {k : Nat}
    {after : Registration}
    (did : ((e.bridges[k]?).bind fun old => (old.proxy.step (.link call)).map fun proxy =>
      (e.put k { old with proxy }).put m { b with stage := .linked after }) = some next) : e.Grows next := by
  obtain ⟨old, held, did⟩ := Option.bind_eq_some_iff.mp did
  obtain ⟨proxy, -, rfl⟩ := Option.map_eq_some_iff.mp did
  have grows : b.Grows { b with stage := .linked after } :=
    ⟨fun _ _ proved => proved, fun early => by cases early⟩
  by_cases same : k = m
  · subst same
    have once : ((e.put k { old with proxy }).put k { b with stage := .linked after }).bridges =
        e.bridges.set k { b with stage := .linked after } := by
      simp [RunEdge.put]
    exact .put there once grows
  · have first : e.Grows (e.put k { old with proxy }) :=
      .put held rfl ⟨fun _ _ proved => proved, fun early => ⟨early, rfl⟩⟩
    refine first.trans (.put (b := b) ?_ rfl grows)
    simpa [RunEdge.put, List.getElem?_set_ne same] using there

end Keys

theorem bridgeStep_grows {act : BridgeAct} (there : e.bridges[m]? = some b)
    (did : e.bridgeStep m b act = some next) :
    e.Grows next ∧ next.clients = e.clients ∧ next.routes = e.routes := by
  -- A stage that follows on another one of the same kind, or on a later one.
  have goes {next : RunEdge Ip} {stage : Serving} (bridges : next.bridges = e.bridges.set m { b with stage })
      (on : stage.isEarly = true → b.stage.isEarly = true) : e.Grows next :=
    .put there bridges ⟨fun _ _ proved => proved, fun early => ⟨on early, rfl⟩⟩
  cases act with
  | head bytes =>
    obtain ⟨⟨here, -⟩, same⟩ := Option.ite_none_right_eq_some.mp did
    cases same
    exact ⟨goes rfl fun _ => by rw [here]; rfl, rfl, rfl⟩
  | fail =>
    simp only [RunEdge.bridgeStep] at did
    split at did
    · cases did
      exact ⟨goes rfl (by simp [Serving.isEarly]), rfl, rfl⟩
    · obtain ⟨-, same⟩ := Option.ite_none_right_eq_some.mp did
      cases same
      exact ⟨goes rfl (by simp [Serving.isEarly]), rfl, rfl⟩
  | prove key =>
    obtain ⟨here, same⟩ := Option.ite_none_right_eq_some.mp did
    cases same
    refine ⟨.put there rfl ⟨fun late => ?_, by simp [Serving.isEarly]⟩, rfl, rfl⟩
    rw [here] at late
    cases late
  | proceed =>
    simp only [RunEdge.bridgeStep, RunEdge.proceed] at did
    split at did <;> rename_i here
    · split at did <;> cases did <;> exact ⟨goes rfl fun _ => by rw [here]; rfl, rfl, rfl⟩
    · split at did <;> cases did <;> exact ⟨goes rfl fun _ => by rw [here]; rfl, rfl, rfl⟩
    · obtain ⟨key, -, rfl⟩ := Option.map_eq_some_iff.mp did
      exact ⟨goes rfl (by simp [Serving.isEarly]), rfl, rfl⟩
    · refine ⟨grows_shuts there did, ?_⟩
      obtain ⟨old, -, did⟩ := Option.bind_eq_some_iff.mp did
      obtain ⟨proxy, -, rfl⟩ := Option.map_eq_some_iff.mp did
      exact ⟨rfl, rfl⟩
    · refine ⟨grows_shuts there did, ?_⟩
      obtain ⟨old, -, did⟩ := Option.bind_eq_some_iff.mp did
      obtain ⟨proxy, -, rfl⟩ := Option.map_eq_some_iff.mp did
      exact ⟨rfl, rfl⟩
    · obtain ⟨key, -, rfl⟩ := Option.map_eq_some_iff.mp did
      exact ⟨goes rfl (by simp [Serving.isEarly]), rfl, rfl⟩
    · cases did
      exact ⟨goes rfl (by simp [Serving.isEarly]), rfl, rfl⟩
    · cases did
      exact ⟨goes rfl (by simp [Serving.isEarly]), rfl, rfl⟩
    · cases did
      exact ⟨goes rfl (by simp [Serving.isEarly]), rfl, rfl⟩
    all_goals cases did
  | wake =>
    obtain ⟨-, same⟩ := Option.ite_none_right_eq_some.mp did
    cases same
    exact ⟨goes rfl (by simp [Serving.isEarly]), rfl, rfl⟩
  | link act =>
    obtain ⟨-, did⟩ := Option.ite_none_left_eq_some.mp did
    obtain ⟨proxy, -, rfl⟩ := Option.map_eq_some_iff.mp did
    exact ⟨.put there rfl ⟨fun _ _ proved => proved, fun early => ⟨early, rfl⟩⟩, rfl, rfl⟩

omit [DecidableEq Ip] in
private theorem grows_link (there : e.bridges[m]? = some b) {proxy : Proxy}
    (bridges : next.bridges = e.bridges.set m { b with proxy }) : e.Grows next :=
  .put there bridges ⟨fun _ _ proved => proved, fun early => ⟨early, rfl⟩⟩

omit [DecidableEq Ip] in
/-- A client's step, or one of its tunnel's, is none of a task's. -/
theorem ClientMove.grows {act : ClientAct} (move : ClientMove e name act next) : e.Grows next := by
  cases move with
  | before | refused | carried => exact ⟨rfl, fun _ b there => ⟨b, there, .refl b⟩⟩
  | served _ _ _ _ _ _ _ _ _ _ there => exact grows_link there rfl
  | tells _ _ _ _ _ _ there => exact grows_link there rfl

/-- A preamble that names a key is the one of a client that asks for it. -/
theorem hello_of {head : Bytes} {key : Key} (long : head.length = headLen)
    (magic : head.take 4 = magicClient) (known : head.getD 4 0 = version) (names : keyOf head = some key) :
    head = helloFor key := by
  unfold keyOf at names
  split at names <;> cases names
  have split : head = head.take 4 ++ head.getD 4 0 :: head.drop 5 := by
    have within : 4 < head.length := by
      rw [long]
      decide
    rw [List.getD_eq_getElem?_getD, List.getElem?_eq_getElem within, Option.getD_some,
      ← List.drop_eq_getElem_cons within, List.take_append_drop]
  rw [helloFor, ← magic, ← known]
  exact split

/-- What reads have returned stays. -/
theorem Client.step_delivered {act : ClientAct} {did : Option TunnelAct} (stepped : c.step t act = some (c', did)) :
    c.delivered <+: c'.delivered := by
  have reads (room : Nat) : c.delivered <+: (c.read room).1.delivered :=
    (c.read_polls room).delivered ▸ List.prefix_append _ _
  cases act with
  | arrive bytes =>
    obtain ⟨-, same⟩ := Option.ite_none_right_eq_some.mp stepped
    cases same
    exact List.prefix_rfl
  | hangUp | fail | writable =>
    cases stepped
    exact List.prefix_rfl
  | preamble =>
    obtain ⟨-, same⟩ := Option.ite_none_right_eq_some.mp stepped
    cases same
    exact reads _
  | timeout | serve =>
    obtain ⟨-, same⟩ := Option.ite_none_right_eq_some.mp stepped
    cases same
    exact List.prefix_rfl
  | read room =>
    obtain ⟨-, did⟩ := Option.ite_none_right_eq_some.mp stepped
    have more := reads room
    split at did <;> rename_i polled <;> cases did <;> rwa [polled] at more
  | write =>
    simp only [Client.step] at stepped
    split at stepped
    · split at stepped <;> cases stepped <;> exact List.prefix_rfl
    · cases stepped
  | shutdown settle =>
    simp only [Client.step] at stepped
    split at stepped
    · split at stepped <;> cases stepped <;> exact List.prefix_rfl
    · cases stepped

/-- Only a client's preamble starts its tunnel. -/
theorem Client.step_begins {act : ClientAct} {head : Bytes} (stepped : c.step t act = some (c', some (.begin head))) :
    c' = c ∧ c.delivered = head ∧ head.length = headLen ∧ head.take 4 = magicClient ∧ head.getD 4 0 = version := by
  cases act with
  | serve =>
    obtain ⟨⟨-, -, long, magic, known⟩, same⟩ := Option.ite_none_right_eq_some.mp stepped
    cases same
    exact ⟨rfl, rfl, long, magic, known⟩
  | arrive | preamble | timeout =>
    obtain ⟨-, same⟩ := Option.ite_none_right_eq_some.mp stepped
    cases same
  | hangUp | fail | writable => cases stepped
  | read room =>
    obtain ⟨-, did⟩ := Option.ite_none_right_eq_some.mp stepped
    split at did <;> cases did
  | write =>
    simp only [Client.step] at stepped
    split at stepped
    · split at stepped <;> cases stepped
    · cases stepped
  | shutdown settle =>
    simp only [Client.step] at stepped
    split at stepped
    · split at stepped <;> cases stepped
    · cases stepped

/-- The bytes begin with a client's preamble, and the key in it is the one that the
link's bridge has proved. -/
def RunEdge.Leads (e : RunEdge Ip) (n : Nat) (delivered : Bytes) : Prop :=
  ∃ b key, e.bridges[n]? = some b ∧ b.key = some key ∧ helloFor key <+: delivered

/-- A key is proved by the handshake, and a client is on the link it asked for. -/
structure RunEdge.Placed (e : RunEdge Ip) : Prop where
  early : ∀ (n : Nat) (b : Bridge Ip), e.bridges[n]? = some b → b.stage.isEarly = true → b.key = none
  asked : ∀ name n, e.routes name = .link n → e.Leads n (e.clients name).delivered

omit [DecidableEq Ip] in
private theorem leads_grows {delivered more : Bytes} (placed : e.Placed) (grows : e.Grows next)
    (leads : e.Leads n delivered) (further : delivered <+: more) : next.Leads n more := by
  obtain ⟨b, key, there, proved, front⟩ := leads
  obtain ⟨b', there', goes⟩ := grows.each n b there
  have late : b.stage.isEarly = false := by
    cases early : b.stage.isEarly with
    | false => rfl
    | true =>
      rw [placed.early n b there early] at proved
      cases proved
  exact ⟨b', key, there', goes.key late key proved, front.trans further⟩

omit [DecidableEq Ip] in
private theorem early_grows (placed : e.Placed) (grows : e.Grows next) (n : Nat) (b' : Bridge Ip)
    (there : next.bridges[n]? = some b') (early : b'.stage.isEarly = true) : b'.key = none := by
  obtain ⟨within, -⟩ := List.getElem?_eq_some_iff.mp there
  rw [grows.length] at within
  obtain ⟨b'', there', goes⟩ := grows.each n _ (List.getElem?_eq_getElem within)
  cases there.symm.trans there'
  obtain ⟨before, same⟩ := goes.early early
  exact same.trans (placed.early n _ (List.getElem?_eq_getElem within) before)

omit [DecidableEq Ip] in
private theorem placed_client (placed : e.Placed) (routed : e.Routed) {act : ClientAct}
    (move : ClientMove e name act next) : next.Placed := by
  have grows := move.grows
  refine ⟨early_grows placed grows, fun other n linked => ?_⟩
  -- Whoever else is on a link stays there.
  have still (routes : next.routes other = e.routes other)
      (more : (e.clients other).delivered <+: (next.clients other).delivered) :
      next.Leads n (next.clients other).delivered :=
    leads_grows placed grows (placed.asked other n (routes ▸ linked)) more
  cases move with
  | before c unrouted did | carried _ _ c routed there did | tells _ _ c told proxy routed there did =>
    refine still rfl ?_
    dsimp only
    by_cases same : other = name
    · subst same
      rw [Function.update_self]
      exact Client.step_delivered did
    · rw [Function.update_of_ne same]
  | refused c head unrouted did missing =>
    refine still (Function.update_of_ne ?_ _ _) List.prefix_rfl
    rintro rfl
    dsimp only at linked
    rw [Function.update_self] at linked
    cases linked
  | served c head key m b proxy unrouted did names found there began =>
    dsimp only at linked ⊢
    by_cases same : other = name
    · subst same
      rw [Function.update_self] at linked
      cases linked
      obtain ⟨b', there', proved, -⟩ := routed key n found
      cases there.symm.trans there'
      obtain ⟨rfl, text, long, magic, known⟩ := Client.step_begins did
      rw [Function.update_self, text]
      obtain ⟨within, -⟩ := List.getElem?_eq_some_iff.mp there
      refine ⟨{ b with proxy }, key, by simp [RunEdge.put, within], proved, ?_⟩
      rw [hello_of long magic known names]
    · refine still (Function.update_of_ne same _ _) ?_
      dsimp only
      rw [Function.update_of_ne same]

theorem RunEdge.Placed.step {act : EdgeAct Ip} (placed : e.Placed) (routed : e.Routed)
    (stepped : e.step act = some next) : next.Placed := by
  cases act with
  | accept ip =>
    cases stepped
    refine ⟨fun n b there early => ?_, fun name n linked => ?_⟩
    · dsimp only at there
      rw [List.getElem?_append] at there
      split at there
      · exact placed.early n b there early
      · rw [List.getElem?_singleton] at there
        obtain ⟨-, same⟩ := Option.ite_none_right_eq_some.mp there
        cases same
        rfl
    · obtain ⟨b, key, there, rest⟩ := placed.asked name n linked
      exact ⟨b, key, List.getElem?_append_left (List.getElem?_eq_some_iff.mp there).1 ▸ there, rest⟩
  | bridge m act =>
    obtain ⟨b, there, did⟩ := Option.bind_eq_some_iff.mp stepped
    obtain ⟨grows, clients, routes⟩ := bridgeStep_grows there did
    refine ⟨early_grows placed grows, fun name n linked => ?_⟩
    rw [clients]
    exact leads_grows placed grows (placed.asked name n (routes ▸ linked)) List.prefix_rfl
  | client name act => exact placed_client placed routed (RunEdge.clientStep_move stepped)
  | tunnel name act =>
    obtain ⟨m, b, proxy, -, there, -, -, rfl⟩ := RunEdge.tunnelStep_move stepped
    have grows : e.Grows (e.put m { b with proxy }) := grows_link there rfl
    refine ⟨early_grows placed grows, fun name n linked => ?_⟩
    exact leads_grows placed grows (placed.asked name n linked) List.prefix_rfl

omit [DecidableEq Ip] in
theorem RunEdge.Placed.start (limits : Limits) : (RunEdge.start limits : RunEdge Ip).Placed := by
  refine ⟨fun n b there => ?_, fun name n linked => ?_⟩
  · cases there
  · cases linked

omit [DecidableEq Ip] in
/-- Whoever has a stream on the link has been led to it. -/
private theorem given_routed (shows : Shows n e s) {id : UInt32} (given : s.proxy.Given name id) :
    e.routes name = .link n := by
  by_contra away
  obtain ⟨k, own, -⟩ := given
  rw [shows.idle name away] at own
  cases own

/-- Whose bytes go where, in the whole process: any number of bridges and clients,
links displaced and torn down, everything in any order. On a link whose bridge has
opened nothing and whose ids have not run out, whatever the bridge reads on a stream is
a front part of what one client has sent, and that client's first 37 bytes are the
preamble with the key that this bridge has proved; the client is on no other link. What
it is shown, as bytes accepted and as data frames on its socket, is a front part of what
the link's reader has heard for its stream. -/
theorem bridges_hear_their_own_clients (limits : Limits) (actions : List (EdgeAct Ip)) {e : RunEdge Ip}
    (ran : run RunEdge.step (.start limits) actions = some e) {n : Nat} {b : Bridge Ip}
    (there : e.bridges[n]? = some b) (unopened : b.proxy.session.Unopened)
    (few : b.proxy.session.nextId < 2 ^ 32) {transport : Transport}
    (opens : ∀ nonce plain, transport.readMessage nonce (transport.writeMessage nonce plain) = .ok plain) :
    (∀ reads, reads.flatten <+: b.proxy.session.wire transport → ∀ id, id ≠ 0 →
      dataOn id (LinkReader.receive transport reads).frames ≠ [] →
      ∃ name key, e.routes name = .link n ∧ b.key = some key ∧
        helloFor key <+: Ws.dataBytes (e.clients name).arrived ∧
        (dataOn id (LinkReader.receive transport reads).frames).flatten <+:
          Ws.dataBytes (e.clients name).arrived) ∧
    ∀ name k, (b.proxy.tunnels name).stream = some k →
      (∃ key, e.routes name = .link n ∧ b.key = some key ∧
        helloFor key <+: Ws.dataBytes (e.clients name).arrived) ∧
      (b.proxy.tunnels name).writes <+: (b.proxy.session.heard k).flatten ∧
      ∃ fs, Ws.readOutput ((e.clients name).stream.inner.sent ++ (e.clients name).stream.outgoing) = some fs ∧
        Ws.binaryOf fs <+: (b.proxy.session.heard k).flatten := by
  obtain ⟨routed, placed⟩ : e.Routed ∧ e.Placed := run_preserves (fun e => e.Routed ∧ e.Placed)
    (fun _ _ _ holds stepped => ⟨holds.1.step stepped, holds.2.step holds.1 stepped⟩)
    ⟨(RunEdge.Admits.start limits).routed, .start limits⟩ ran
  -- The link on its own has come to the same.
  obtain ⟨s, shows, faithful⟩ := (shows_simulates n).always (.start n limits)
    (meets_of_mem fun _ _ _ => trivial) ran fun _ _ matched _ => Splice.Faithful.run matched
  have same : s.proxy = b.proxy := shows.proxy.trans (proxyOf_there there)
  have uplinks : s.proxy.Uplinks := faithful.proxy.uplinks (same ▸ unopened) (same ▸ few)
  have leads {name : Nat} (linked : e.routes name = .link n) :
      ∃ key, e.routes name = .link n ∧ b.key = some key ∧
        helloFor key <+: Ws.dataBytes (e.clients name).arrived := by
    obtain ⟨b', key, there', proved, front⟩ := placed.asked name n linked
    cases there.symm.trans there'
    have text := (faithful.carried name).front []
    rw [List.append_nil, shows.clients name (.inr linked)] at text
    exact ⟨key, linked, proved, front.trans text⟩
  refine ⟨fun reads sent id stream present => ?_, fun name k own => ?_⟩
  · rw [← same] at sent
    obtain ⟨name, given⟩ := bridge_reads_given faithful uplinks opens sent stream present
    obtain ⟨key, linked, proved, front⟩ := leads (given_routed shows given)
    have up := bridge_reads faithful uplinks opens sent given
    rw [shows.clients name (.inr linked)] at up
    exact ⟨name, key, linked, proved, front, up⟩
  · rw [← same] at own ⊢
    have linked := given_routed shows ⟨k, own, rfl⟩
    obtain ⟨writes, fs, output, front⟩ := client_reads faithful own
    rw [shows.clients name (.inr linked)] at output
    exact ⟨leads linked, writes, fs, output, front⟩

private def fours : Key := ⟨List.replicate 32 4, rfl⟩

private def sixes : Key := ⟨List.replicate 32 6, rfl⟩

private def bridgeHello : Bytes := magicBridge ++ version :: List.replicate 32 0

private def askFrame : Bytes := [0x82, 0x80 + 39, 0, 0, 0, 0] ++ helloFor sixes ++ [0x68, 0x69]

/-- Two bridges with a key each. -/
private def twoKeys : List (EdgeAct Nat) :=
  [.accept 7, .accept 8, .bridge 0 (.head bridgeHello), .bridge 1 (.head bridgeHello), .bridge 0 .proceed,
    .bridge 0 .proceed, .bridge 1 .proceed, .bridge 1 .proceed, .bridge 0 (.prove fours),
    .bridge 1 (.prove sixes), .bridge 0 .proceed, .bridge 1 .proceed]

private def asked : List (EdgeAct Nat) :=
  [.client 0 (.arrive askFrame), .client 0 .preamble, .client 0 .serve, .tunnel 0 .proceed, .tunnel 0 .proceed,
    .tunnel 0 .proceed, .tunnel 0 .proceed, .tunnel 0 .proceed, .tunnel 0 .proceed, .client 0 (.read 16384),
    .tunnel 0 .uplinkSend, .tunnel 0 .uplinkSend]

private def replied : List (EdgeAct Nat) :=
  [.bridge 1 (.link (.takeBatch 3)), .bridge 1 (.link .feed), .bridge 1 (.link .feed), .bridge 1 (.link .feed),
    .bridge 1 (.link (.recv [0, 0, 0, 1, 1, 0, 1, 0, 7])), .bridge 1 (.link .advance), .tunnel 0 .recv,
    .client 0 (.writable [.accept 100]), .client 0 .write, .tunnel 0 .wrote]

/-- The client asks for the second bridge's key, sends two bytes more, and gets one
byte back. -/
private def askSecond : List (EdgeAct Nat) := twoKeys ++ (asked ++ replied)

theorem bridges_hear_their_own_clients_second :
    ∃ e b name key, run RunEdge.step (.start {}) askSecond = some e ∧ e.bridges[1]? = some b ∧
      (dataOn 1 (LinkReader.receive .tagging [b.proxy.session.wire .tagging]).frames).flatten =
        helloFor sixes ++ [0x68, 0x69] ∧
      e.routes name = .link 1 ∧ b.key = some key ∧ helloFor key <+: Ws.dataBytes (e.clients name).arrived ∧
      (b.proxy.tunnels 0).writes = [7] ∧ (b.proxy.tunnels 0).writes <+: (b.proxy.session.heard 0).flatten := by
  have checked : ((run RunEdge.step (.start {}) askSecond).any fun e => (e.bridges[1]?).any fun b => decide (
      (dataOn 1 (LinkReader.receive .tagging [b.proxy.session.wire .tagging]).frames).flatten =
        helloFor sixes ++ [0x68, 0x69] ∧
      (b.proxy.tunnels 0).stream = some 0 ∧ (b.proxy.tunnels 0).writes = [7] ∧
      b.proxy.session.nextId = 2 ∧ b.proxy.session.log = [⟨1, .data, [7]⟩])) = true := by
    decide +kernel
  obtain ⟨e, ran, found⟩ := (Option.any_eq_true _ _).mp checked
  obtain ⟨b, there, facts⟩ := (Option.any_eq_true _ _).mp found
  obtain ⟨read, own, writes, counter, log⟩ := of_decide_eq_true facts
  have unopened : b.proxy.session.Unopened := by
    intro frame member
    rw [log] at member
    rw [List.mem_singleton.mp member]
    simp
  obtain ⟨up, down⟩ := bridges_hear_their_own_clients {} askSecond ran there unopened
    (by rw [counter]; decide) Transport.tagging_opens
  have present : dataOn 1 (LinkReader.receive .tagging [b.proxy.session.wire .tagging]).frames ≠ [] := by
    intro nothing
    rw [nothing] at read
    simp [helloFor] at read
  obtain ⟨name, key, linked, proved, front, -⟩ := up [b.proxy.session.wire .tagging] (by simp) 1 (by decide) present
  exact ⟨e, b, name, key, ran, there, read, linked, proved, front, writes, (down 0 0 own).2.1⟩

end DshProxy.Mux

import DshProxy.RunEdge

/-! The two ceilings of `serve_bridge`. What admission looks at is how far each task
is and two counters; everything else the process does leaves these alone. Each way
out of `serve_bridge` gives back what the task holds, in the reverse order. -/
namespace DshProxy.Mux
open Transitions Clients

/-- The task holds a place in the process-wide budget. -/
def Serving.holdsPlace : Serving → Bool
  | .claiming | .handshake | .linked _ | .dropping | .reclaiming | .releasing => true
  | .preamble | .admission | .returned => false

/-- The task's slot is counted for its address. -/
def Serving.holdsSlot : Serving → Bool
  | .handshake | .linked _ | .dropping => true
  | .preamble | .admission | .claiming | .reclaiming | .releasing | .returned => false

/-- The task still has to look at its address's key. -/
def Serving.looks : Serving → Bool
  | .reclaiming => true
  | _ => false

variable {Ip : Type} [DecidableEq Ip]

/-- What admission looks at. -/
structure Places (Ip : Type) where
  limits : Limits
  budget : Nat
  perIp : Ip → Option Nat
  tasks : List (Ip × Serving)

namespace Places
variable (p : Places Ip)

/-- Tasks with a place in the budget. -/
def held : Nat := p.tasks.countP (·.2.holdsPlace)

/-- Tasks of one address whose slot is counted. -/
def slots (ip : Ip) : Nat := p.tasks.countP fun task => task.2.holdsSlot && task.1 = ip

/-- Tasks of one address that are about to look at its key. -/
def looking (ip : Ip) : Nat := p.tasks.countP fun task => task.2.looks && task.1 = ip

def stored (ip : Ip) : Nat := (p.perIp ip).getD 0

end Places

/-- Everything that can happen to the places. -/
inductive PlaceMove (p : Places Ip) : Places Ip → Prop
  | accepts (ip) : PlaceMove p { p with tasks := p.tasks ++ [(ip, .preamble)] }
  | goes (n ip stage after) (there : p.tasks[n]? = some (ip, stage)) (place : after.holdsPlace = stage.holdsPlace)
    (slot : after.holdsSlot = stage.holdsSlot) (looks : after.looks = stage.looks) :
    PlaceMove p { p with tasks := p.tasks.set n (ip, after) }
  | takes (n ip) (there : p.tasks[n]? = some (ip, .admission)) (free : p.budget ≠ 0) :
    PlaceMove p { p with tasks := p.tasks.set n (ip, .claiming), budget := p.budget - 1 }
  | claims (n ip) (there : p.tasks[n]? = some (ip, .claiming))
    (free : p.stored ip < p.limits.maxBridgesPerIp) :
    PlaceMove p { p with
      tasks := p.tasks.set n (ip, .handshake)
      perIp := Function.update p.perIp ip (some (p.stored ip + 1)) }
  | refuses (n ip) (there : p.tasks[n]? = some (ip, .claiming))
    (full : p.limits.maxBridgesPerIp ≤ p.stored ip) :
    PlaceMove p { p with
      tasks := p.tasks.set n (ip, .releasing)
      perIp := Function.update p.perIp ip (some (p.stored ip)) }
  | countsDown (n ip) (there : p.tasks[n]? = some (ip, .dropping)) :
    PlaceMove p { p with tasks := p.tasks.set n (ip, .reclaiming), perIp := countDown p.perIp ip }
  | reclaims (n ip) (there : p.tasks[n]? = some (ip, .reclaiming)) :
    PlaceMove p { p with tasks := p.tasks.set n (ip, .releasing), perIp := reclaim p.perIp ip }
  | releases (n ip) (there : p.tasks[n]? = some (ip, .releasing)) :
    PlaceMove p { p with tasks := p.tasks.set n (ip, .returned), budget := p.budget + 1 }

/-- Both counters are right, nothing is over its ceiling, and a key that stands for
nobody has a task on its way to it. -/
structure Places.Exact (p : Places Ip) : Prop where
  budget : p.budget + p.held = p.limits.maxBridges
  counted : ∀ ip, p.stored ip = p.slots ip
  ceiling : ∀ ip, p.slots ip ≤ p.limits.maxBridgesPerIp
  awaited : 0 < p.limits.maxBridgesPerIp → ∀ ip, p.perIp ip = some 0 → 0 < p.looking ip

variable {p q : Places Ip} {e next : RunEdge Ip} {n : Nat} {b : Bridge Ip}

/-- One entry of a list turns into another: what that does to a count. -/
private theorem countP_turned {α : Type} {l : List α} {n : Nat} {old : α} (new : α) (counted : α → Bool)
    (there : l[n]? = some old) :
    (l.set n new).countP counted + (counted old).toNat = l.countP counted + (counted new).toNat := by
  obtain ⟨within, rfl⟩ := List.getElem?_eq_some_iff.mp there
  have positive : (counted l[n]).toNat ≤ l.countP counted := by
    cases counts : counted l[n] with
    | false => exact Nat.zero_le _
    | true => exact List.countP_pos_iff.mpr ⟨_, List.getElem_mem within, counts⟩
  rw [List.countP_set within]
  cases before : counted l[n] <;> cases after : counted new <;>
    simp only [before, Bool.toNat_false, Bool.toNat_true] at positive ⊢ <;> simp <;> omega

/-- A task comes to another stage: what both counters have to do with it. -/
private theorem Places.Exact.turn {ip : Ip} {stage after : Serving} (exactly : p.Exact)
    (there : p.tasks[n]? = some (ip, stage)) (limits : q.limits = p.limits)
    (tasks : q.tasks = p.tasks.set n (ip, after))
    (budget : q.budget + after.holdsPlace.toNat = p.budget + stage.holdsPlace.toNat)
    (stored : ∀ other, q.stored other + (stage.holdsSlot && ip = other).toNat =
      p.stored other + (after.holdsSlot && ip = other).toNat)
    (room : after.holdsSlot = true → stage.holdsSlot = true ∨ p.stored ip < p.limits.maxBridgesPerIp)
    (awaited : 0 < p.limits.maxBridgesPerIp → ∀ other, q.perIp other = some 0 →
      ip = other ∧ stage.looks = false ∧ after.looks = true ∨
        p.perIp other = some 0 ∧ (ip = other → stage.looks = true → after.looks = true)) :
    q.Exact := by
  have held : q.held + stage.holdsPlace.toNat = p.held + after.holdsPlace.toNat := by
    rw [Places.held, tasks]
    exact countP_turned (ip, after) _ there
  have slots (other : Ip) : q.slots other + (stage.holdsSlot && ip = other).toNat =
      p.slots other + (after.holdsSlot && ip = other).toNat := by
    rw [Places.slots, tasks]
    exact countP_turned (ip, after) _ there
  have looking (other : Ip) : q.looking other + (stage.looks && ip = other).toNat =
      p.looking other + (after.looks && ip = other).toNat := by
    rw [Places.looking, tasks]
    exact countP_turned (ip, after) _ there
  refine ⟨?_, fun other => ?_, fun other => ?_, fun positive other empty => ?_⟩
  · have before := exactly.budget
    rw [limits]
    omega
  · have before := exactly.counted other
    have one := stored other
    have two := slots other
    omega
  · have before := exactly.ceiling other
    have within := exactly.counted ip
    have one := slots other
    rw [limits]
    by_cases same : ip = other
    · subst same
      cases now : after.holdsSlot with
      | false =>
        simp only [now, decide_true, Bool.and_true, Bool.toNat_false] at one
        omega
      | true =>
        simp only [now, decide_true, Bool.and_true, Bool.toNat_true] at one
        obtain was | free := room now
        · simp only [was, Bool.toNat_true] at one
          omega
        · omega
    · simp only [same, decide_false, Bool.and_false, Bool.toNat_false] at one
      omega
  · have one := looking other
    obtain ⟨rfl, quiet, looks⟩ | ⟨was, aside⟩ := awaited (limits ▸ positive) other empty
    · simp only [quiet, looks, decide_true, Bool.and_true, Bool.toNat_true, Bool.toNat_false] at one
      omega
    · have before := exactly.awaited (limits ▸ positive) other was
      by_cases same : ip = other
      · cases old : stage.looks with
        | false =>
          simp only [old, Bool.false_and, Bool.toNat_false] at one
          omega
        | true =>
          simp only [old, aside same old] at one
          omega
      · simp only [same, decide_false, Bool.and_false, Bool.toNat_false] at one
        omega

/-- A task moves on, and the counters with it. -/
theorem PlaceMove.exact (move : PlaceMove p q) (exactly : p.Exact) : q.Exact := by
  cases move with
  | accepts ip =>
    refine ⟨?_, fun other => ?_, fun other => ?_, fun positive other empty => ?_⟩
    · simpa [Places.held, Serving.holdsPlace] using exactly.budget
    · simpa [Places.slots, Places.stored, Serving.holdsSlot] using exactly.counted other
    · simpa [Places.slots, Serving.holdsSlot] using exactly.ceiling other
    · simpa [Places.looking, Serving.looks] using exactly.awaited positive other empty
  | goes n ip stage after there place slot looks =>
    refine exactly.turn there rfl rfl (by rw [place]) (fun other => by rw [slot]; rfl) (fun holds => ?_)
      fun _ other empty => .inr ⟨empty, fun _ looked => looks.trans looked⟩
    exact .inl (slot ▸ holds)
  | takes n ip there free =>
    refine exactly.turn there rfl rfl ?_ (fun _ => rfl) (by simp [Serving.holdsSlot])
      fun _ other empty => .inr ⟨empty, by simp [Serving.looks]⟩
    simp only [Serving.holdsPlace, Bool.toNat_true, Bool.toNat_false]
    omega
  | claims n ip there free =>
    refine exactly.turn there rfl rfl rfl (fun other => ?_) (fun _ => .inr free) fun _ other empty => ?_
    · by_cases same : ip = other
      · subst same
        simp [Places.stored, Serving.holdsSlot]
      · simp [Places.stored, Serving.holdsSlot, same, Function.update_of_ne (Ne.symm same)]
    · dsimp only at empty
      by_cases same : other = ip
      · subst same
        simp at empty
      · rw [Function.update_of_ne same] at empty
        exact .inr ⟨empty, by simp [Serving.looks]⟩
  | refuses n ip there full =>
    refine exactly.turn there rfl rfl rfl (fun other => ?_) (by simp [Serving.holdsSlot])
      fun positive other empty => ?_
    · by_cases same : other = ip
      · subst same
        simp [Places.stored, Serving.holdsSlot]
      · simp [Places.stored, Serving.holdsSlot, Function.update_of_ne same]
    · dsimp only at empty
      by_cases same : other = ip
      · subst same
        rw [Function.update_self] at empty
        have none := Option.some.inj empty
        omega
      · rw [Function.update_of_ne same] at empty
        exact .inr ⟨empty, by simp [Serving.looks]⟩
  | countsDown n ip there =>
    have positive : 0 < p.stored ip := by
      rw [exactly.counted ip]
      exact List.countP_pos_iff.mpr ⟨_, List.mem_of_getElem? there, by simp [Serving.holdsSlot]⟩
    refine exactly.turn there rfl rfl rfl (fun other => ?_) (by simp [Serving.holdsSlot])
      fun _ other empty => ?_
    · by_cases same : ip = other
      · subst same
        simp only [Places.stored, countDown, Function.update_self, Serving.holdsSlot] at positive ⊢
        cases entry : p.perIp ip with
        | none =>
          rw [entry] at positive
          cases positive
        | some count =>
          rw [entry] at positive
          simpa using Nat.sub_add_cancel positive
      · simp [Places.stored, countDown, Serving.holdsSlot, same, Function.update_of_ne (Ne.symm same)]
    · by_cases same : ip = other
      · exact .inl ⟨same, rfl, rfl⟩
      · dsimp only at empty
        rw [countDown, Function.update_of_ne (Ne.symm same)] at empty
        exact .inr ⟨empty, fun here => absurd here same⟩
  | reclaims n ip there =>
    refine exactly.turn there rfl rfl rfl (fun other => ?_) (by simp [Serving.holdsSlot])
      fun _ other empty => ?_
    · unfold reclaim Places.stored
      dsimp only
      split
      · rename_i zero
        by_cases same : other = ip
        · subst same
          simp [zero, Serving.holdsSlot]
        · simp [Function.update_of_ne same, Serving.holdsSlot]
      · rfl
    · unfold reclaim at empty
      dsimp only at empty
      split at empty
      · by_cases same : other = ip
        · subst same
          simp at empty
        · rw [Function.update_of_ne same] at empty
          exact .inr ⟨empty, fun here => absurd here.symm same⟩
      · rename_i present
        exact .inr ⟨empty, fun here => absurd (here ▸ empty) present⟩
  | releases n ip there =>
    exact exactly.turn there rfl rfl rfl (fun _ => rfl) (by simp [Serving.holdsSlot])
      fun _ other empty => .inr ⟨empty, by simp [Serving.looks]⟩

/-- The places of the process. -/
def RunEdge.places (e : RunEdge Ip) : Places Ip :=
  { limits := e.limits, budget := e.budget, perIp := e.perIp, tasks := e.bridges.map fun b => (b.ip, b.stage) }

omit [DecidableEq Ip] in
private theorem task_there (there : e.bridges[n]? = some b) : e.places.tasks[n]? = some (b.ip, b.stage) := by
  rw [RunEdge.places, List.getElem?_map, there, Option.map_some]

omit [DecidableEq Ip] in
@[simp] private theorem places_put (e : RunEdge Ip) (n : Nat) (b : Bridge Ip) :
    (e.put n b).places = { e.places with tasks := e.places.tasks.set n (b.ip, b.stage) } := by
  simp [RunEdge.places, RunEdge.put, List.map_set]

private theorem set_there {α : Type} {l : List α} {n : Nat} {a : α} (there : l[n]? = some a) :
    l.set n a = l := by
  obtain ⟨within, rfl⟩ := List.getElem?_eq_some_iff.mp there
  exact List.set_getElem_self within

omit [DecidableEq Ip] in
/-- Whatever happens on a link, its task stays where it is. -/
private theorem places_link (there : e.bridges[n]? = some b) (proxy : Proxy) :
    (e.put n { b with proxy }).places = e.places := by
  rw [places_put, set_there (task_there there)]

/-- A stage that is left for another one that holds the same. -/
private theorem goes {stage : Serving} (after : Serving) (there : e.bridges[n]? = some b) (here : b.stage = stage)
    (place : after.holdsPlace = stage.holdsPlace) (slot : after.holdsSlot = stage.holdsSlot)
    (looks : after.looks = stage.looks) (key : Option Key) :
    PlaceMove e.places (e.put n { b with stage := after, key }).places := by
  rw [places_put]
  exact .goes n b.ip stage after (here ▸ task_there there) place slot looks

/-- One link shuts another one down. -/
private theorem proceed_shuts {stage : Serving} (after : Serving) {m : Nat} {call : Session.Act}
    (there : e.bridges[n]? = some b) (here : b.stage = stage)
    (place : after.holdsPlace = stage.holdsPlace) (slot : after.holdsSlot = stage.holdsSlot)
    (looks : after.looks = stage.looks)
    (did : ((e.bridges[m]?).bind fun old => (old.proxy.step (.link call)).map fun proxy =>
      (e.put m { old with proxy }).put n { b with stage := after }) = some next) :
    PlaceMove e.places next.places := by
  obtain ⟨old, held, did⟩ := Option.bind_eq_some_iff.mp did
  obtain ⟨proxy, -, rfl⟩ := Option.map_eq_some_iff.mp did
  rw [places_put, places_link held]
  exact .goes n b.ip stage after (here ▸ task_there there) place slot looks

private theorem proceed_places (there : e.bridges[n]? = some b) (did : e.proceed n b = some next) :
    PlaceMove e.places next.places := by
  have task := task_there there
  unfold RunEdge.proceed at did
  split at did <;> rename_i here <;> rw [here] at task
  · split at did <;> cases did
    · exact goes .returned there here rfl rfl rfl b.key
    · rename_i free
      simpa [RunEdge.places, RunEdge.put, List.map_set] using PlaceMove.takes n b.ip task free
  · split at did <;> rename_i claimed <;> unfold claim at claimed <;> dsimp only at claimed <;>
      split at claimed <;> cases claimed <;> cases did
    · rename_i free
      simpa [RunEdge.places, RunEdge.put, List.map_set, Places.stored] using
        PlaceMove.claims n b.ip task (Nat.lt_of_not_le free)
    · rename_i none
      simpa [RunEdge.places, RunEdge.put, List.map_set, Places.stored] using
        PlaceMove.refuses n b.ip task none
  · obtain ⟨key, -, rfl⟩ := Option.map_eq_some_iff.mp did
    exact goes (.linked (Registry.afterInsert (e.table key))) there here rfl rfl rfl b.key
  · exact proceed_shuts (.linked (.aborting _)) there here rfl rfl rfl did
  · exact proceed_shuts (.linked .serving) there here rfl rfl rfl did
  · obtain ⟨key, -, rfl⟩ := Option.map_eq_some_iff.mp did
    exact goes .dropping there here rfl rfl rfl b.key
  · cases did
    simpa [RunEdge.places, RunEdge.put, List.map_set] using PlaceMove.countsDown n b.ip task
  · cases did
    simpa [RunEdge.places, RunEdge.put, List.map_set] using PlaceMove.reclaims n b.ip task
  · cases did
    simpa [RunEdge.places, RunEdge.put, List.map_set] using PlaceMove.releases n b.ip task
  all_goals cases did

/-- Every step of the process is one of these moves, or leaves the places alone. -/
theorem RunEdge.step_places {act : EdgeAct Ip} (stepped : e.step act = some next) :
    next.places = e.places ∨ PlaceMove e.places next.places := by
  cases act with
  | accept ip =>
    cases stepped
    refine .inr ?_
    simpa [RunEdge.places] using PlaceMove.accepts (p := e.places) ip
  | bridge n act =>
    obtain ⟨b, there, did⟩ := Option.bind_eq_some_iff.mp stepped
    cases act with
    | head bytes =>
      obtain ⟨⟨here, -⟩, same⟩ := Option.ite_none_right_eq_some.mp did
      obtain rfl := Option.some.inj same
      refine .inr (goes _ there here ?_ ?_ ?_ b.key) <;> split <;> rfl
    | fail =>
      simp only [RunEdge.bridgeStep] at did
      split at did
      · rename_i here
        cases did
        exact .inr (goes .returned there here rfl rfl rfl b.key)
      · obtain ⟨here, same⟩ := Option.ite_none_right_eq_some.mp did
        cases same
        exact .inr (goes .dropping there here rfl rfl rfl b.key)
    | prove key =>
      obtain ⟨here, same⟩ := Option.ite_none_right_eq_some.mp did
      cases same
      exact .inr (goes (.linked .started) there here rfl rfl rfl (some key))
    | proceed => exact .inr (proceed_places there did)
    | wake =>
      obtain ⟨⟨here, -⟩, same⟩ := Option.ite_none_right_eq_some.mp did
      cases same
      exact .inr (goes (.linked .leaving) there here rfl rfl rfl b.key)
    | link act =>
      obtain ⟨-, moved⟩ := Option.ite_none_left_eq_some.mp did
      obtain ⟨proxy, -, rfl⟩ := Option.map_eq_some_iff.mp moved
      exact .inl (places_link there proxy)
  | client name act =>
    left
    cases RunEdge.clientStep_move stepped with
    | served _ _ _ n b proxy _ _ _ _ there => exact places_link there proxy
    | tells n b _ _ proxy _ there => exact places_link there proxy
    | _ => rfl
  | tunnel name act =>
    obtain ⟨n, b, proxy, -, there, -, -, rfl⟩ := RunEdge.tunnelStep_move stepped
    exact .inl (places_link there proxy)

/-- The task is between `table.insert` and `table.remove_if`. -/
def Serving.isRouted : Serving → Bool
  | .linked .started => false
  | .linked _ => true
  | _ => false

theorem isRouted_holds {stage : Serving} (routed : stage.isRouted = true) :
    stage.holdsPlace = true ∧ stage.holdsSlot = true := by
  cases stage with
  | linked => exact ⟨rfl, rfl⟩
  | _ => cases routed

/-- An entry of the table is a link that has proved its key and has not cleaned up. -/
def RunEdge.Routed (e : RunEdge Ip) : Prop :=
  ∀ key n, e.table key = some n → ∃ b, e.bridges[n]? = some b ∧ b.key = some key ∧ b.stage.isRouted = true

omit [DecidableEq Ip] in
/-- A task that is in the table stays what it is there for. -/
private theorem routed_put (routed : e.Routed) (there : e.bridges[n]? = some b) {b' : Bridge Ip}
    (kept : b.stage.isRouted = true → b'.key = b.key ∧ b'.stage.isRouted = true) : (e.put n b').Routed := by
  intro key m entry
  obtain ⟨old, was, proved, stands⟩ := routed key m entry
  by_cases same : n = m
  · subst same
    cases there.symm.trans was
    obtain ⟨within, -⟩ := List.getElem?_eq_some_iff.mp there
    exact ⟨b', by simp [RunEdge.put, within], (kept stands).1.trans proved, (kept stands).2⟩
  · exact ⟨old, by simpa [RunEdge.put, List.getElem?_set_ne same] using was, proved, stands⟩

omit [DecidableEq Ip] in
private theorem routed_link (routed : e.Routed) (there : e.bridges[n]? = some b) (proxy : Proxy) :
    (e.put n { b with proxy }).Routed :=
  routed_put routed there fun stage => ⟨rfl, stage⟩

omit [DecidableEq Ip] in
private theorem routed_shuts (routed : e.Routed) {m : Nat} {call : Session.Act} {after : Registration}
    (going : after ≠ .started) (there : e.bridges[n]? = some b)
    (did : ((e.bridges[m]?).bind fun old => (old.proxy.step (.link call)).map fun proxy =>
      (e.put m { old with proxy }).put n { b with stage := .linked after }) = some next) : next.Routed := by
  obtain ⟨old, held, did⟩ := Option.bind_eq_some_iff.mp did
  obtain ⟨proxy, -, rfl⟩ := Option.map_eq_some_iff.mp did
  have still : (Serving.linked after).isRouted = true := by
    cases after with
    | started => exact absurd rfl going
    | _ => rfl
  obtain ⟨within, -⟩ := List.getElem?_eq_some_iff.mp held
  by_cases same : m = n
  · subst same
    cases held.symm.trans there
    refine routed_put (b := { b with proxy }) (routed_link routed held proxy) ?_ fun _ => ⟨rfl, still⟩
    simp [RunEdge.put, within]
  · refine routed_put (b := b) (routed_link routed held proxy) ?_ fun _ => ⟨rfl, still⟩
    simpa [RunEdge.put, List.getElem?_set_ne same] using there

omit [DecidableEq Ip] in
/-- An entry names its own link only. -/
private theorem routed_insert (routed : e.Routed) {key : Key} {previous : Option Nat}
    (there : e.bridges[n]? = some b) (here : b.stage = .linked .started) (proved : b.key = some key) :
    ({ e.put n { b with stage := .linked (Registry.afterInsert previous) } with
      table := Function.update e.table key (some n) } : RunEdge Ip).Routed := by
  have before : (e.put n { b with stage := .linked (Registry.afterInsert previous) }).Routed :=
    routed_put routed there (by simp [here, Serving.isRouted])
  obtain ⟨within, -⟩ := List.getElem?_eq_some_iff.mp there
  intro other m entry
  dsimp only at entry
  by_cases same : other = key
  · subst same
    rw [Function.update_self] at entry
    cases entry
    refine ⟨{ b with stage := .linked (Registry.afterInsert previous) },
      by simp [RunEdge.put, within], proved, ?_⟩
    cases previous <;> rfl
  · rw [Function.update_of_ne same] at entry
    exact before other m entry

omit [DecidableEq Ip] in
private theorem routed_remove (routed : e.Routed) {key : Key} (there : e.bridges[n]? = some b)
    (proved : b.key = some key) :
    ({ e.put n { b with stage := .dropping } with
      table := if e.table key = some n then Function.update e.table key none else e.table } :
        RunEdge Ip).Routed := by
  intro other m entry
  have old : e.table other = some m ∧ (e.table key = some n → other ≠ key) := by
    dsimp only at entry
    split at entry
    · by_cases same : other = key
      · rw [same, Function.update_self] at entry
        cases entry
      · rw [Function.update_of_ne same] at entry
        exact ⟨entry, fun _ => same⟩
    · rename_i away
      exact ⟨entry, fun here => absurd here away⟩
  obtain ⟨b', was, named, stage⟩ := routed other m old.1
  by_cases same : n = m
  · subst same
    cases there.symm.trans was
    cases proved.symm.trans named
    exact absurd rfl (old.2 old.1)
  · exact ⟨b', by simpa [RunEdge.put, List.getElem?_set_ne same] using was, named, stage⟩

theorem RunEdge.Routed.step {act : EdgeAct Ip} (routed : e.Routed) (stepped : e.step act = some next) :
    next.Routed := by
  cases act with
  | accept ip =>
    cases stepped
    intro key n entry
    obtain ⟨b, there, rest⟩ := routed key n entry
    exact ⟨b, List.getElem?_append_left (List.getElem?_eq_some_iff.mp there).1 ▸ there, rest⟩
  | bridge n act =>
    obtain ⟨b, there, did⟩ := Option.bind_eq_some_iff.mp stepped
    cases act with
    | head bytes =>
      obtain ⟨⟨here, -⟩, same⟩ := Option.ite_none_right_eq_some.mp did
      obtain rfl := Option.some.inj same
      exact routed_put routed there (by simp [here, Serving.isRouted])
    | fail =>
      simp only [RunEdge.bridgeStep] at did
      split at did
      · rename_i here
        cases did
        exact routed_put routed there (by simp [here, Serving.isRouted])
      · obtain ⟨here, same⟩ := Option.ite_none_right_eq_some.mp did
        cases same
        exact routed_put routed there (by simp [here, Serving.isRouted])
    | prove key =>
      obtain ⟨here, same⟩ := Option.ite_none_right_eq_some.mp did
      cases same
      exact routed_put routed there (by simp [here, Serving.isRouted])
    | proceed =>
      simp only [RunEdge.bridgeStep, RunEdge.proceed] at did
      split at did <;> rename_i here
      · split at did <;> cases did <;> exact routed_put routed there (by simp [here, Serving.isRouted])
      · split at did <;> cases did <;> exact routed_put routed there (by simp [here, Serving.isRouted])
      · obtain ⟨key, proved, rfl⟩ := Option.map_eq_some_iff.mp did
        exact routed_insert routed there here proved
      · exact routed_shuts routed (by simp) there did
      · exact routed_shuts routed (by simp) there did
      · obtain ⟨key, proved, rfl⟩ := Option.map_eq_some_iff.mp did
        exact routed_remove routed there proved
      · cases did
        exact routed_put routed there (by simp [here, Serving.isRouted])
      · cases did
        exact routed_put routed there (by simp [here, Serving.isRouted])
      · cases did
        exact routed_put routed there (by simp [here, Serving.isRouted])
      all_goals cases did
    | wake =>
      obtain ⟨⟨here, -⟩, same⟩ := Option.ite_none_right_eq_some.mp did
      cases same
      exact routed_put routed there fun _ => ⟨rfl, rfl⟩
    | link act =>
      obtain ⟨-, moved⟩ := Option.ite_none_left_eq_some.mp did
      obtain ⟨proxy, -, rfl⟩ := Option.map_eq_some_iff.mp moved
      exact routed_link routed there proxy
  | client name act =>
    cases RunEdge.clientStep_move stepped with
    | served _ _ _ n b proxy _ _ _ _ there => exact routed_link routed there proxy
    | tells n b _ _ proxy _ there => exact routed_link routed there proxy
    | _ => exact routed
  | tunnel name act =>
    obtain ⟨n, b, proxy, -, there, -, -, rfl⟩ := RunEdge.tunnelStep_move stepped
    exact routed_link routed there proxy

/-- Different positions at which a list has what is counted. -/
private theorem positions_le {α : Type} {l : List α} {counted : α → Bool} {ns : List Nat} (apart : ns.Nodup)
    (there : ∀ n ∈ ns, ∃ a, l[n]? = some a ∧ counted a = true) : ns.length ≤ l.countP counted := by
  have spelled : l.map some = (List.range l.length).map (l[·]?) := by
    refine List.ext_getElem? fun n => ?_
    by_cases within : n < l.length
    · simp [within]
    · simp [within]
  have same : l.countP counted = (List.range l.length).countP fun n => (l[n]?).any counted := by
    have first : l.countP counted = (l.map some).countP (Option.any counted) := by
      rw [List.countP_map]
      rfl
    rw [first, spelled, List.countP_map]
    rfl
  rw [same, List.countP_eq_length_filter]
  refine (List.subperm_of_subset apart fun n member => ?_).length_le
  obtain ⟨a, found, holds⟩ := there n member
  refine List.mem_filter.mpr ⟨List.mem_range.mpr (List.getElem?_eq_some_iff.mp found).1, ?_⟩
  rw [found]
  exact holds

/-- What holds of admission and the table on every run. -/
structure RunEdge.Admits (e : RunEdge Ip) (limits : Limits) : Prop where
  limits : e.limits = limits
  exactly : e.places.Exact
  routed : e.Routed

theorem RunEdge.Admits.start (limits : Limits) : (RunEdge.start limits : RunEdge Ip).Admits limits := by
  refine ⟨rfl, ⟨rfl, fun _ => rfl, fun _ => Nat.zero_le _, fun _ _ empty => ?_⟩, fun _ _ entry => ?_⟩
  · cases empty
  · cases entry

theorem PlaceMove.limits (move : PlaceMove p q) : q.limits = p.limits := by
  cases move <;> rfl

theorem RunEdge.Admits.step {limits : Limits} {act : EdgeAct Ip} (admits : e.Admits limits)
    (stepped : e.step act = some next) : next.Admits limits := by
  obtain same | move := RunEdge.step_places stepped
  · refine ⟨?_, same ▸ admits.exactly, admits.routed.step stepped⟩
    exact (congrArg Places.limits same).trans admits.limits
  · exact ⟨move.limits.trans admits.limits, move.exact admits.exactly, admits.routed.step stepped⟩

omit [DecidableEq Ip] in
/-- Links that the table leads to, each under its own key. -/
private theorem routed_le (routed : e.Routed) {keys : List Key} (apart : keys.Nodup)
    (counted : Ip × Serving → Bool)
    (there : ∀ key ∈ keys, ∃ n b, e.table key = some n ∧ e.bridges[n]? = some b ∧
      counted (b.ip, b.stage) = true) : keys.length ≤ e.places.tasks.countP counted := by
  have distinct : (keys.map fun key => (e.table key).getD 0).Nodup := by
    refine List.Nodup.map_on (fun key member other member' same => ?_) apart
    obtain ⟨n, _, entry, -⟩ := there key member
    obtain ⟨m, _, entry', -⟩ := there other member'
    rw [entry, entry', Option.getD_some, Option.getD_some] at same
    subst same
    obtain ⟨b, found, proved, -⟩ := routed key n entry
    obtain ⟨b', found', proved', -⟩ := routed other n entry'
    cases found.symm.trans found'
    exact Option.some.inj (proved.symm.trans proved')
  have within : (keys.map fun key => (e.table key).getD 0).length ≤ e.places.tasks.countP counted := by
    refine positions_le distinct fun n member => ?_
    obtain ⟨key, named, rfl⟩ := List.mem_map.mp member
    obtain ⟨n, b, entry, found, holds⟩ := there key named
    rw [entry, Option.getD_some]
    exact ⟨_, task_there found, holds⟩
  rwa [List.length_map] at within

omit [DecidableEq Ip] in
private theorem at_put (there : e.bridges[n]? = some b) (b' : Bridge Ip) :
    ((e.put n b').bridges[n]?).map (·.stage) = some b'.stage := by
  obtain ⟨within, -⟩ := List.getElem?_eq_some_iff.mp there
  simp [RunEdge.put, within]

/-- The ceilings are exact. On every run of any number of connections a free place is
one that no task holds, the number stored for an address is the number of its tasks
with a slot, neither goes over its limit, and a bridge is turned away exactly when
the limit it meets is used up. -/
theorem bridge_admission_is_exact (limits : Limits) (actions : List (EdgeAct Ip)) {e : RunEdge Ip}
    (ran : run RunEdge.step (.start limits) actions = some e) :
    e.budget + e.places.held = limits.maxBridges ∧
    (∀ ip, e.places.stored ip = e.places.slots ip ∧ e.places.slots ip ≤ limits.maxBridgesPerIp) ∧
    ∀ n b next, e.bridges[n]? = some b → e.step (.bridge n .proceed) = some next →
      (b.stage = .admission →
        (((next.bridges[n]?).map (·.stage) = some .returned) ↔ e.places.held = limits.maxBridges)) ∧
      (b.stage = .claiming →
        (((next.bridges[n]?).map (·.stage) = some .releasing) ↔
          e.places.slots b.ip = limits.maxBridgesPerIp)) := by
  have admits : e.Admits limits := run_preserves (RunEdge.Admits · limits)
    (fun _ _ _ admits stepped => admits.step stepped) (.start limits) ran
  obtain ⟨ceilings, ⟨budget, counted, ceiling, -⟩, -⟩ := admits
  have budget : e.budget + e.places.held = limits.maxBridges := ceilings ▸ budget
  have ceiling (ip : Ip) : e.places.slots ip ≤ limits.maxBridgesPerIp := ceilings ▸ ceiling ip
  refine ⟨budget, fun ip => ⟨counted ip, ceiling ip⟩, fun n b next there stepped => ⟨fun here => ?_, fun here => ?_⟩⟩
  · have did : e.proceed n b = some next := by
      simpa [RunEdge.step, there, RunEdge.bridgeStep] using stepped
    simp only [RunEdge.proceed, here] at did
    split at did <;> cases did <;> rename_i free
    · rw [at_put there]
      exact iff_of_true rfl (by omega)
    · refine iff_of_false ?_ (by omega)
      have stands := at_put there { b with stage := .claiming }
      intro returned
      cases stands.symm.trans returned
  · have did : e.proceed n b = some next := by
      simpa [RunEdge.step, there, RunEdge.bridgeStep] using stepped
    have stored : (e.perIp b.ip).getD 0 = e.places.slots b.ip := counted b.ip
    have within := ceiling b.ip
    simp only [RunEdge.proceed, here, claim, ceilings] at did
    split at did <;> rename_i claimed <;> split at claimed <;> cases claimed <;> cases did
    · refine iff_of_false ?_ (by omega)
      have stands := at_put there { b with stage := .handshake }
      intro released
      cases stands.symm.trans released
    · exact iff_of_true (at_put there { b with stage := .releasing }) (by omega)

private def oneKey : Key := ⟨List.replicate 32 5, rfl⟩

private def bridgeHead : Bytes := Wire.magicBridge ++ Wire.version :: List.replicate 32 0

/-- Two bridges from one address where one is allowed; the first is in the table. -/
private def twoDial : List (EdgeAct Nat) :=
  [.accept 7, .accept 7, .bridge 0 (.head bridgeHead), .bridge 1 (.head bridgeHead), .bridge 0 .proceed,
    .bridge 0 .proceed, .bridge 0 (.prove oneKey), .bridge 0 .proceed]

/-- The second is turned away; the first link ends and gives everything back. -/
private def bothLeave : List (EdgeAct Nat) :=
  twoDial ++ [.bridge 1 .proceed, .bridge 0 (.link .lapse), .bridge 0 (.link .advance),
    .bridge 0 (.link .advance), .bridge 0 .wake] ++ List.replicate 4 (.bridge 0 .proceed)

theorem bridge_admission_is_exact_refusal :
    ∃ e b next, run RunEdge.step (.start { maxBridges := 1, maxBridgesPerIp := 1 }) twoDial = some e ∧
      e.budget + e.places.held = 1 ∧ e.places.slots 7 ≤ 1 ∧ e.bridges[1]? = some b ∧
      e.step (.bridge 1 .proceed) = some next ∧ (next.bridges[1]?).map (·.stage) = some .returned := by
  have checked : ((run RunEdge.step (.start { maxBridges := 1, maxBridgesPerIp := 1 }) twoDial).any fun e =>
      decide (e.places.held = 1 ∧ ((e.bridges[1]?).map (·.stage)) = some .admission ∧
        (e.step (.bridge 1 .proceed)).isSome = true)) = true := by
    decide +kernel
  obtain ⟨e, ran, held, stage, steps⟩ := run_reaches checked
  obtain ⟨b, there, here⟩ := Option.map_eq_some_iff.mp stage
  obtain ⟨next, stepped⟩ := Option.isSome_iff_exists.mp steps
  obtain ⟨free, counts, exactly⟩ := bridge_admission_is_exact _ twoDial ran
  exact ⟨e, b, next, ran, free, (counts 7).2, there, stepped,
    ((exactly 1 b next there stepped).1 here).mpr held⟩

/-- The table never outgrows the ceilings, and nothing is lost on the way out. Every
entry is a link that has proved its key and still holds both its places; so no more
keys lead somewhere than bridges are allowed, nor more to one address; and when
every task has returned, all places are free and both tables are empty (the second
one only under a ceiling that is not zero, as the flags see to). -/
theorem routed_links_hold_their_places (limits : Limits) (actions : List (EdgeAct Ip)) {e : RunEdge Ip}
    (ran : run RunEdge.step (.start limits) actions = some e) :
    (∀ key n, e.table key = some n → ∃ b, e.bridges[n]? = some b ∧ b.key = some key ∧
      b.stage.holdsPlace = true ∧ b.stage.holdsSlot = true) ∧
    (∀ keys : List Key, keys.Nodup → (∀ key ∈ keys, e.table key ≠ none) →
      keys.length ≤ limits.maxBridges) ∧
    (∀ (ip : Ip) (keys : List Key), keys.Nodup →
      (∀ key ∈ keys, ∃ n b, e.table key = some n ∧ e.bridges[n]? = some b ∧ b.ip = ip) →
      keys.length ≤ limits.maxBridgesPerIp) ∧
    ((∀ b ∈ e.bridges, b.stage = .preamble ∨ b.stage = .returned) →
      e.budget = limits.maxBridges ∧ (∀ key, e.table key = none) ∧
      (0 < limits.maxBridgesPerIp → ∀ ip, e.perIp ip = none)) := by
  have admits : e.Admits limits := run_preserves (RunEdge.Admits · limits)
    (fun _ _ _ admits stepped => admits.step stepped) (.start limits) ran
  obtain ⟨ceilings, ⟨budget, counted, ceiling, awaited⟩, routed⟩ := admits
  have budget : e.budget + e.places.held = limits.maxBridges := ceilings ▸ budget
  refine ⟨fun key n entry => ?_, fun keys apart leads => ?_, fun ip keys apart leads => ?_, fun ended => ?_⟩
  · obtain ⟨b, there, proved, stands⟩ := routed key n entry
    exact ⟨b, there, proved, isRouted_holds stands⟩
  · have within := routed_le routed apart (·.2.holdsPlace) fun key member => by
      obtain ⟨n, entry⟩ := Option.ne_none_iff_exists'.mp (leads key member)
      obtain ⟨b, there, -, stands⟩ := routed key n entry
      exact ⟨n, b, entry, there, (isRouted_holds stands).1⟩
    exact Nat.le_trans within (Nat.le_trans (Nat.le_add_left _ _) (Nat.le_of_eq budget))
  · have within := routed_le routed apart (fun task => task.2.holdsSlot && task.1 = ip) fun key member => by
      obtain ⟨n, b, entry, there, same⟩ := leads key member
      obtain ⟨b', there', -, stands⟩ := routed key n entry
      cases there.symm.trans there'
      exact ⟨n, b, entry, there, by simp [(isRouted_holds stands).2, same]⟩
    exact Nat.le_trans within (ceilings ▸ ceiling ip)
  · have nothing {counted : Ip × Serving → Bool} (early : ∀ ip, counted (ip, .preamble) = false)
        (late : ∀ ip, counted (ip, .returned) = false) : e.places.tasks.countP counted = 0 := by
      rw [List.countP_eq_zero]
      intro task member
      obtain ⟨b, there, rfl⟩ := List.mem_map.mp member
      obtain stands | stands := ended b there
      · simp [stands, early]
      · simp [stands, late]
    have held : e.places.held = 0 := nothing (fun _ => rfl) fun _ => rfl
    refine ⟨by omega, fun key => ?_, fun positive ip => ?_⟩
    · cases entry : e.table key with
      | none => rfl
      | some n =>
        obtain ⟨b, there, -, stands⟩ := routed key n entry
        obtain here | here := ended b (List.mem_of_getElem? there) <;> rw [here] at stands <;> cases stands
    · have slots : e.places.slots ip = 0 := nothing (fun _ => rfl) fun _ => rfl
      have looking : e.places.looking ip = 0 := nothing (fun _ => rfl) fun _ => rfl
      have stored := (counted ip).trans slots
      cases entry : e.perIp ip with
      | none => rfl
      | some count =>
        have zero : count = 0 := by simpa [Places.stored, RunEdge.places, entry] using stored
        have positive : 0 < e.limits.maxBridgesPerIp := by
          rwa [ceilings]
        have awaits := awaited positive ip (by rw [← zero]; exact entry)
        omega

theorem routed_links_hold_their_places_returned :
    (∃ e, run RunEdge.step (.start { maxBridges := 1, maxBridgesPerIp := 1 }) twoDial = some e ∧
      e.table oneKey ≠ none ∧ [oneKey].length ≤ 1) ∧
    ∃ e, run RunEdge.step (.start { maxBridges := 1, maxBridgesPerIp := 1 }) bothLeave = some e ∧
      e.budget = 1 ∧ e.table oneKey = none ∧ e.perIp 7 = none := by
  have first : ((run RunEdge.step (.start { maxBridges := 1, maxBridgesPerIp := 1 }) twoDial).any fun e =>
      decide (e.table oneKey ≠ none)) = true := by
    decide +kernel
  have second : ((run RunEdge.step (.start { maxBridges := 1, maxBridgesPerIp := 1 }) bothLeave).any fun e =>
      decide (∀ b ∈ e.bridges, b.stage = .preamble ∨ b.stage = .returned)) = true := by
    decide +kernel
  obtain ⟨busy, ran, entry⟩ := run_reaches first
  obtain ⟨idle, ran', ended⟩ := run_reaches second
  obtain ⟨-, few, -, -⟩ := routed_links_hold_their_places _ twoDial ran
  obtain ⟨-, -, -, back⟩ := routed_links_hold_their_places _ bothLeave ran'
  obtain ⟨budget, table, perIp⟩ := back ended
  exact ⟨⟨busy, ran, entry, few [oneKey] (by simp) (by simpa using entry)⟩, idle, ran', budget, table oneKey,
    perIp (by decide) 7⟩

end DshProxy.Mux

import DshProxy.ClientSlots

/-! `IpSlot` on its own: any number of tasks claim slots for any number of addresses
and drop them, and a drop lets go of the table between counting down and reclaiming
the key. -/
namespace DshProxy.Clients
open Transitions

variable {Ip : Type} [DecidableEq Ip]

/-- One table and every slot claimed on it so far. -/
structure Ledger (Ip : Type) where
  max : Nat
  table : Ip → Option Nat := fun _ => none
  slots : List (Ip × Slot) := []

inductive SlotAct (Ip : Type)
  | claim (ip : Ip)
  /-- `IpSlot::drop` counts down. -/
  | countDown (slot : Nat)
  /-- `IpSlot::drop` looks at the key. -/
  | reclaim (slot : Nat)
  deriving DecidableEq, Repr

def Ledger.step (l : Ledger Ip) : SlotAct Ip → Option (Ledger Ip)
  | .claim ip =>
    match claim l.table ip l.max with
    | (table, true) => some { l with table, slots := l.slots ++ [(ip, .held)] }
    | (table, false) => some { l with table }
  | .countDown slot =>
    match l.slots[slot]? with
    | some (ip, .held) =>
      some { l with table := countDown l.table ip, slots := l.slots.set slot (ip, .dropping) }
    | _ => none
  | .reclaim slot =>
    match l.slots[slot]? with
    | some (ip, .dropping) =>
      some { l with table := reclaim l.table ip, slots := l.slots.set slot (ip, .gone) }
    | _ => none

/-- The number stored for an address. -/
def Ledger.stored (l : Ledger Ip) (ip : Ip) : Nat := (l.table ip).getD 0

/-- Slots claimed for an address and not counted down. -/
def Ledger.held (l : Ledger Ip) (ip : Ip) : Nat := l.slots.count (ip, .held)

/-- Drops for an address between their two steps. -/
def Ledger.dropping (l : Ledger Ip) (ip : Ip) : Nat := l.slots.count (ip, .dropping)

/-- The table is right, and a key without holders has a drop on its way to it. -/
structure Ledger.Sound (l : Ledger Ip) : Prop where
  counted : ∀ ip, l.stored ip = l.held ip
  ceiling : ∀ ip, l.held ip ≤ l.max
  awaited : ∀ ip, l.table ip = some 0 → 0 < l.dropping ip

variable {l next : Ledger Ip}

/-- One slot of the list turns into another: what that does to a count. -/
private theorem count_turned {slots : List (Ip × Slot)} {slot : Nat} {ip : Ip} {old new : Slot}
    (there : slots[slot]? = some (ip, old)) (other : Ip) (counted : Slot) :
    (slots.set slot (ip, new)).count (other, counted) =
      slots.count (other, counted) - (if ip = other ∧ old = counted then 1 else 0) +
        if ip = other ∧ new = counted then 1 else 0 := by
  obtain ⟨within, same⟩ := List.getElem?_eq_some_iff.mp there
  simp only [List.count_set within, same, beq_iff_eq, Prod.mk.injEq]

private theorem count_there {slots : List (Ip × Slot)} {slot : Nat} {entry : Ip × Slot}
    (there : slots[slot]? = some entry) : 0 < slots.count entry :=
  List.count_pos_iff.mpr (List.mem_of_getElem? there)

/-- Everything a step can be, with what it does to the counts. -/
theorem step_counts {act : SlotAct Ip} (stepped : l.step act = some next) :
    next.max = l.max ∧
    ((∃ ip, act = .claim ip ∧ l.stored ip < l.max ∧
        next.table = Function.update l.table ip (some (l.stored ip + 1)) ∧
        (∀ other, next.held other = l.held other + if other = ip then 1 else 0) ∧
        ∀ other, next.dropping other = l.dropping other) ∨
      (∃ ip, act = .claim ip ∧ l.max ≤ l.stored ip ∧
        next.table = Function.update l.table ip (some (l.stored ip)) ∧ next.slots = l.slots) ∨
      (∃ slot ip, act = .countDown slot ∧ 0 < l.held ip ∧ next.table = countDown l.table ip ∧
        (∀ other, next.held other = l.held other - if other = ip then 1 else 0) ∧
        ∀ other, next.dropping other = l.dropping other + if other = ip then 1 else 0) ∨
      (∃ slot ip, act = .reclaim slot ∧ 0 < l.dropping ip ∧ next.table = reclaim l.table ip ∧
        (∀ other, next.held other = l.held other) ∧
        ∀ other, next.dropping other = l.dropping other - if other = ip then 1 else 0)) := by
  cases act with
  | claim ip =>
    simp only [Ledger.step, claim] at stepped
    split at stepped <;> rename_i claimed <;> split at claimed <;> cases claimed <;> cases stepped
    · rename_i free
      refine ⟨rfl, .inl ⟨ip, rfl, Nat.lt_of_not_le free, rfl, fun other => ?_, fun other => ?_⟩⟩
      · simp only [Ledger.held, List.count_append, List.count_singleton, beq_iff_eq, Prod.mk.injEq,
          and_true, @eq_comm _ ip]
      · simp [Ledger.dropping]
    · rename_i full
      exact ⟨rfl, .inr (.inl ⟨ip, rfl, full, rfl, rfl⟩)⟩
  | countDown slot =>
    simp only [Ledger.step] at stepped
    split at stepped <;> cases stepped
    rename_i ip there
    refine ⟨rfl, .inr (.inr (.inl ⟨slot, ip, rfl, count_there there, rfl, fun other => ?_,
      fun other => ?_⟩))⟩
    · simp [Ledger.held, count_turned there, eq_comm]
    · simp [Ledger.dropping, count_turned there, eq_comm]
  | reclaim slot =>
    simp only [Ledger.step] at stepped
    split at stepped <;> cases stepped
    rename_i ip there
    refine ⟨rfl, .inr (.inr (.inr ⟨slot, ip, rfl, count_there there, rfl, fun other => ?_,
      fun other => ?_⟩))⟩
    · simp [Ledger.held, count_turned there]
    · simp [Ledger.dropping, count_turned there, eq_comm]

/-- A holder's entry is there, and is at least the holder itself. -/
theorem Ledger.Sound.entry (sound : l.Sound) {ip : Ip} (held : 0 < l.held ip) :
    ∃ others, l.table ip = some (others + 1) ∧ l.held ip = others + 1 := by
  have counted := sound.counted ip
  unfold Ledger.stored at counted
  cases entry : l.table ip with
  | none =>
    rw [entry, Option.getD_none] at counted
    omega
  | some count =>
    rw [entry, Option.getD_some] at counted
    exact ⟨count - 1, congrArg some (by omega), by omega⟩

/-- Without a drop on its way, the keys are the addresses with holders. -/
theorem Ledger.Sound.keys (sound : l.Sound) {ip : Ip} (still : l.dropping ip = 0) :
    l.table ip ≠ none ↔ 0 < l.held ip := by
  constructor
  · intro present
    obtain ⟨count, entry⟩ := Option.ne_none_iff_exists'.mp present
    have counted := sound.counted ip
    rw [Ledger.stored, entry, Option.getD_some] at counted
    have some : count ≠ 0 := by
      rintro rfl
      have := sound.awaited ip entry
      omega
    omega
  · intro held
    obtain ⟨others, entry, -⟩ := sound.entry held
    simp [entry]

theorem Ledger.step_sound {act : SlotAct Ip} (sound : l.Sound) (positive : 0 < l.max)
    (stepped : l.step act = some next) : next.Sound := by
  obtain ⟨max, ⟨ip, -, free, table, held, dropping⟩ | ⟨ip, -, full, table, slots⟩ |
    ⟨slot, ip, -, one, table, held, dropping⟩ | ⟨slot, ip, -, one, table, held, dropping⟩⟩ :=
    step_counts stepped
  · have counted := sound.counted ip
    refine ⟨fun other => ?_, fun other => ?_, fun other => ?_⟩ <;>
      by_cases same : other = ip
    · subst same
      simp [Ledger.stored, table, held, ← counted]
    · simpa [Ledger.stored, table, held, same] using sound.counted other
    · subst same
      rw [held, max, if_pos rfl]
      omega
    · simpa [held, max, same] using sound.ceiling other
    · simp [table, same]
    · simpa [table, dropping, same] using sound.awaited other
  · -- A refused claim writes back the entry it has found.
    have held : 0 < l.held ip := by
      have := sound.counted ip
      omega
    obtain ⟨others, entry, -⟩ := sound.entry held
    have same : next.table = l.table := by
      rw [table, Ledger.stored, entry, Option.getD_some, ← entry, Function.update_eq_self]
    refine ⟨fun other => ?_, fun other => ?_, fun other => ?_⟩
    · simpa [Ledger.stored, Ledger.held, same, slots] using sound.counted other
    · simpa [Ledger.held, slots, max] using sound.ceiling other
    · simpa [Ledger.dropping, slots, same] using sound.awaited other
  · obtain ⟨others, entry, now⟩ := sound.entry one
    refine ⟨fun other => ?_, fun other => ?_, fun other => ?_⟩ <;>
      by_cases same : other = ip
    · subst same
      simp [Ledger.stored, table, countDown, entry, held, now]
    · simpa [Ledger.stored, table, countDown, held, same] using sound.counted other
    · have := sound.ceiling other
      rw [held, max]
      omega
    · simpa [held, max, same] using sound.ceiling other
    · simp [dropping, same]
    · simpa [table, countDown, dropping, same] using sound.awaited other
  · refine ⟨fun other => ?_, fun other => ?_, fun other => ?_⟩
    · rw [held, ← sound.counted other, Ledger.stored, table, reclaim, Ledger.stored]
      split
      · rename_i empty
        by_cases same : other = ip <;> simp [same, empty]
      · rfl
    · rw [held, max]
      exact sound.ceiling other
    · rw [table, reclaim, dropping]
      split
      · by_cases same : other = ip
        · simp [same]
        · simpa [same] using sound.awaited other
      · rename_i some
        intro empty
        have other : other ≠ ip := fun same => some (same ▸ empty)
        simpa [other] using sound.awaited _ empty

/-- A table for at least one holder never drifts: what it stores for an address is
the number of slots held there, which a drop can always count down and which stays
at or below the ceiling; a refused claim has met a full share; and the keys of
addresses no drop is busy with are those with holders. -/
theorem ip_slots_never_drift (max : Nat) (positive : 0 < max) (actions : List (SlotAct Ip))
    {t : Ledger Ip} (ran : run Ledger.step { max } actions = some t) (ip : Ip) :
    (t.stored ip = t.held ip ∧ t.held ip ≤ max) ∧
    ((ip, .held) ∈ t.slots → ∃ others, t.table ip = some (others + 1)) ∧
    ((claim t.table ip t.max).2 = false → t.held ip = max) ∧
    (t.dropping ip = 0 → (t.table ip ≠ none ↔ 0 < t.held ip)) := by
  have kept : t.Sound ∧ t.max = max := by
    refine run_preserves (fun l => l.Sound ∧ l.max = max) ?_ ⟨⟨?_, ?_, ?_⟩, rfl⟩ ran
    · rintro l act next ⟨sound, same⟩ stepped
      exact ⟨Ledger.step_sound sound (by omega) stepped, (step_counts stepped).1.trans same⟩
    · exact fun _ => rfl
    · exact fun _ => Nat.zero_le _
    · exact fun _ empty => by cases empty
  obtain ⟨sound, rfl⟩ := kept
  refine ⟨⟨sound.counted ip, sound.ceiling ip⟩, fun member => ?_, fun refused => ?_, sound.keys⟩
  · obtain ⟨others, entry, -⟩ := sound.entry (List.count_pos_iff.mpr member)
    exact ⟨others, entry⟩
  · have full : t.max ≤ t.stored ip := by
      simp only [claim] at refused
      split at refused
      · assumption
      · cases refused
    have := sound.counted ip
    have := sound.ceiling ip
    omega

private def gapClaim : List (SlotAct Nat) :=
  [.claim 7, .claim 9, .countDown 0, .claim 7, .claim 7, .reclaim 0]

/-- A claim that lands between the two steps of another holder's drop keeps its key. -/
theorem ip_slots_never_drift_in_the_gap :
    ∃ t, run Ledger.step { max := 1 } gapClaim = some t ∧ t.held 7 = 1 ∧ t.stored 7 = t.held 7 := by
  have reached : ((run Ledger.step { max := 1 } gapClaim).any fun t => decide (t.held 7 = 1)) = true := by
    decide +kernel
  obtain ⟨t, ran, one⟩ := run_reaches reached
  exact ⟨t, ran, one, (ip_slots_never_drift 1 (by decide) gapClaim ran 7).1.1⟩

end DshProxy.Clients

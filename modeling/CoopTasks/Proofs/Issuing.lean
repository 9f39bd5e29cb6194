import CoopTasks.Proofs.Lifetimes
import CoopTasks.Proofs.Refusals

/-!
A name wakes no run but its own.

`Issued ids s` collects what the starts have answered on the way to a state,
latest first.  The number of starts is in each name, so no name is answered
twice before that number wraps around.  The record of a slot has the number of
the last name answered for the slot (`Registered`), and a wake compares it.
-/

namespace CoopTasks.Scheduler

variable {H : Type} {s t u : Scheduler H} {id : TaskId} {ids rest run sleep : List TaskId}

/-! ## What keeps the numbers -/

theorem Wakes.generation (h : Wakes s ids t) : t.generation = s.generation := by
  refine h.preserves (P := fun t => t.generation = s.generation) ?_ ?_ rfl
  · exact fun t u hmoved ht => hmoved.generation.trans ht
  · exact fun t id u hwoke ht => hwoke.generation.trans ht

theorem Attempted.generation {w w' : Signal} {result : WaitResult}
    (h : Attempted s w t w' result) : t.generation = s.generation := by
  cases h with
  | acquired _ | busy _ _ _ _ _ => rfl
  | parked _ _ _ _ _ hmoved _ => exact hmoved.generation

theorem Dispatched.generation {decision : Decision} (h : Dispatched s t decision) :
    t.generation = s.generation := by
  cases h with
  | resumed _ _ hmoved _ | drained _ _ _ hmoved _ => exact hmoved.generation
  | idle _ _ => rfl

def Operation.spawns : Operation → Bool
  | .spawn .. => true
  | _ => false

section Operations

variable [Hardware H] {pointer : Address} {decision : Decision} {woken : List TaskId}
variable {v w : Scheduler H} {op : Operation}

theorem Settled.generation (h : Settled s id run sleep t) : t.generation = s.generation := by
  cases h with
  | parked _ hmoved _ | asleep _ _ _ _ hmoved _ | requeued _ _ _ _ hmoved _ =>
      exact hmoved.generation
  | finished _ _ _ _ hmoved _ hwake =>
      obtain ⟨ids, hwakes⟩ := hmoved.standing.wakes_of_wakeWaiter hwake
      exact hwakes.generation.trans hmoved.generation

theorem Switched.generation (h : Switched s pointer t decision id rest woken u v w) :
    t.generation = s.generation := by
  rw [h.dispatched.generation, h.rearmed.wakes.generation, h.settled.generation,
    h.suspended.generation]

theorem Switched.bound (h : Switched s pointer t decision id rest woken u v w)
    (hs : s.Standing) : Bound s t := by
  by_cases hending : id.index ≠ 0 ∧ (s.record id).exiting = true
  · obtain ⟨hends, hothers⟩ := h.ends hs hending.1 hending.2
    exact bound_of_ended (hs.occupied h.mem_runQueue hending.1) hends hothers
  · exact (h.lasts hs fun hid => Bool.eq_false_iff.mpr fun he => hending ⟨hid, he⟩).bound

theorem Performed.bound {decision : Option Decision} (h : Performed s op t decision)
    (hs : s.Standing) (hop : op.spawns = false) :
    Bound s t ∧ t.generation = s.generation := by
  cases h with
  | refused | started _ => contradiction
  | switched hswitched => exact ⟨hswitched.bound hs, hswitched.generation⟩
  | dispatched hdispatched => exact ⟨(hdispatched.lasts hs).bound, hdispatched.generation⟩
  | exiting _ _ hmoved | asleep _ _ hmoved | tried _ hmoved =>
      exact ⟨hmoved.altered.bound (fun _ => rfl) (fun _ => rfl) fun _ => .rfl, hmoved.generation⟩
  | woken hwake =>
      obtain ⟨ids, hwakes⟩ := hs.wakes_of_wake hwake
      exact ⟨hwakes.lasts.bound, hwakes.generation⟩
  | posted hwake =>
      obtain ⟨ids, hwakes⟩ := hs.wakes_of_wakeWaiter hwake
      exact ⟨hwakes.lasts.bound, hwakes.generation⟩
  | attempted hattempted => exact ⟨hattempted.bound, hattempted.generation⟩
  | joined hattempted _ hmoved =>
      exact ⟨hattempted.bound.trans (hmoved.altered.bound (fun _ => rfl) (fun _ => rfl)
        fun _ => .rfl), hmoved.generation.trans hattempted.generation⟩
  | handled halarm =>
      obtain ⟨ids, hwakes⟩ := hs.wakes_of_handleAlarm halarm
      exact ⟨hwakes.lasts.bound, hwakes.generation⟩

end Operations

/-! ## Names -/

def OfSlot (slot : Nat) (id : TaskId) : Bool :=
  decide (id.index = slot)

/-- The names that starts have answered, and the numbers and slots that they are for. -/
structure Registered (ids : List TaskId) (s : Scheduler H) : Prop where
  standing : s.Standing
  generation : s.generation.toNat = ids.length
  newest : ids.Pairwise fun a b => b.generation.toNat < a.generation.toNat
  numbered : ∀ id ∈ ids, id.generation.toNat ≤ ids.length
  last : ∀ slot ∈ slots, ids.find? (OfSlot slot) =
    if (s.tasks.record slot).state = .vacant then none else some (s.idOf slot)

theorem registered_new (hardware : H) : Registered [] (new hardware) := by
  refine ⟨standing_new hardware, rfl, .nil, nofun, fun slot _ => ?_⟩
  have hvacant : (new hardware).tasks.record slot = TaskRecord.vacant :=
    TaskTable.record_vacant slot
  rw [hvacant]
  exact (if_pos rfl).symm

theorem Registered.nodup (h : Registered ids s) : ids.Nodup :=
  h.newest.imp fun hlt he => absurd (he ▸ hlt) (Nat.lt_irrefl _)

theorem Registered.bound (h : Registered ids s) (ht : t.Standing) (hbound : Bound s t)
    (hgeneration : t.generation = s.generation) : Registered ids t := by
  refine ⟨ht, hgeneration ▸ h.generation, h.newest, h.numbered, fun slot hslot => ?_⟩
  rw [h.last slot hslot, hbound.idOf hslot]
  simp only [(hbound slot hslot).2.2]

variable [Hardware H]

theorem Registered.started (h : Registered ids s) {stack : StackRange} {pointer : Address}
    (hstarted : Started s stack pointer id t) (hfew : ids.length + 1 < UInt32.size) :
    Registered (id :: ids) t := by
  have hnext : (s.generation + 1).toNat = ids.length + 1 := by
    rw [UInt32.toNat_add, h.generation]
    exact Nat.mod_eq_of_lt hfew
  have hid : id.generation.toNat = ids.length + 1 := by rw [hstarted.current, hnext]
  refine ⟨hstarted.standing, ?generation, ?newest, ?numbered, ?last⟩
  case generation => rw [hstarted.generation, hnext, List.length_cons]
  case newest =>
    refine List.pairwise_cons.mpr ⟨fun older holder => ?_, h.newest⟩
    have hle := h.numbered older holder
    omega
  case numbered =>
    intro other hother
    rw [List.length_cons]
    rcases List.mem_cons.mp hother with rfl | hother
    · omega
    · have hle := h.numbered other hother
      omega
  case last =>
    intro slot hslot
    by_cases he : slot = id.index
    · subst he
      rw [if_neg hstarted.occupied.1, hstarted.idOf]
      exact List.find?_cons_of_pos (decide_eq_true rfl)
    · have hrecord := hstarted.record_other hslot he
      have hne : ¬OfSlot slot id = true := fun hof => he (of_decide_eq_true hof).symm
      rw [List.find?_cons_of_neg hne, hrecord, h.last slot hslot,
        idOf_eq (congrArg TaskRecord.generation hrecord)]

/-- What the starts on the way to a state have answered, latest first. -/
inductive Issued : List TaskId → Scheduler H → Prop
  | new {hardware : H} : Issued [] (new hardware)
  | elapse {ids : List TaskId} {s : Scheduler H} {hardware : H} :
      Issued ids s →
      Issued ids { s with hardware }
  | spawned {ids : List TaskId} {s t : Scheduler H} {stack : StackRange} {pointer : Address}
      {id : TaskId} :
      Issued ids s →
      s.spawn stack pointer = .ok (t, .ok id) →
      Issued (id :: ids) t
  | refused {ids : List TaskId} {s t : Scheduler H} {stack : StackRange} {pointer : Address}
      {reason : StartError} :
      Issued ids s →
      s.spawn stack pointer = .ok (t, .error reason) →
      Issued ids t
  | performed {ids : List TaskId} {s t : Scheduler H} {op : Operation}
      {decision : Option Decision} :
      Issued ids s →
      op.spawns = false →
      s.perform op = .ok (t, decision) →
      Issued ids t

theorem Issued.registered (h : Issued ids s) (hfew : ids.length < UInt32.size) :
    Registered ids s := by
  induction h with
  | @new hardware => exact registered_new hardware
  | @elapse ids s hardware _ ih =>
      exact (ih hfew).bound ((alarmMoved s hardware s.armed).standing (ih hfew).standing)
        (.refl s) rfl
  | @spawned ids s t stack pointer id _ hok ih =>
      rw [List.length_cons] at hfew
      have hs := ih (Nat.lt_of_succ_lt hfew)
      rcases hs.standing.spawn hok with ⟨hrefused, _⟩ | ⟨id', hid, hstarted⟩
      · contradiction
      · obtain rfl := Except.ok.inj hid
        exact hs.started hstarted hfew
  | refused _ hok ih =>
      have hs := ih hfew
      rcases hs.standing.spawn hok with ⟨_, rfl⟩ | ⟨_, hid, _⟩
      · exact hs
      · contradiction
  | performed _ hop hok ih =>
      have hs := ih hfew
      have hperformed := hs.standing.perform hok
      obtain ⟨hbound, hgeneration⟩ := hperformed.bound hs.standing hop
      exact hs.bound (hperformed.standing hs.standing) hbound hgeneration

/-! ## Wakes -/

inductive RefusesAll : H → List Instant → H → Prop
  | none {h : H} : RefusesAll h [] h
  | refused {h h' h'' : H} {deadline : Instant} {deadlines : List Instant} :
      Hardware.setAlarm h deadline = (h', false) →
      RefusesAll h' deadlines h'' →
      RefusesAll h (deadline :: deadlines) h''

def Refused (s : Scheduler H) (ids : List TaskId) (h h' : H) : Prop :=
  ∃ m, RefusesAll h (ids.map fun id => (s.record id).wakeAt) m ∧
    (h' = m ∨ ∃ deadline, Hardware.setAlarm m deadline = (h', true))

def WokenExactly (s : Scheduler H) (ids : List TaskId) (t : Scheduler H) (slot : Nat) : Prop :=
  (∀ id ∈ ids, id.index ≠ slot) ∧ t.tasks.record slot = s.tasks.record slot ∨
    (∃ id ∈ ids, id.index = slot) ∧ (s.tasks.record slot).state = .sleeping ∧
      t.tasks.record slot = (s.tasks.record slot).woken

omit [Hardware H] in
theorem Woke.ne_of_asleep (h : Woke s id t) {other : TaskId}
    (hasleep : (t.record other).state = .sleeping) : other.index ≠ id.index := by
  intro he
  rw [Scheduler.record, he] at hasleep
  exact h.awake hasleep

theorem Rearmed.asleep (h : Rearmed s ids t) (hid : id ∈ ids) :
    (s.record id).state = .sleeping := by
  induction h with
  | empty _ | kept _ _ | accepted _ _ _ => contradiction
  | @refused s t u head hardware ids _ hstate _ _ hwoke _ ih =>
      rcases List.mem_cons.mp hid with rfl | hid
      · exact hstate
      · have hasleep := ih hid
        have hne := hwoke.ne_of_asleep hasleep
        rwa [record, hwoke.record_other hne] at hasleep

theorem Rearmed.refused_deadlines (h : Rearmed s ids t) :
    Refused s ids s.hardware t.hardware := by
  induction h with
  | empty _ | kept _ _ => exact ⟨_, .none, .inl rfl⟩
  | accepted _ _ hset => exact ⟨_, .none, .inr ⟨_, hset⟩⟩
  | @refused s t u head hardware ids _ _ _ hset hwoke hrest ih =>
      obtain ⟨m, hrefuses, hlast⟩ := ih
      have hsame : ids.map (fun id => (t.record id).wakeAt) =
          ids.map fun id => (s.record id).wakeAt := by
        refine List.map_congr_left fun id hid => ?_
        have hne := hwoke.ne_of_asleep (hrest.asleep hid)
        exact congrArg TaskRecord.wakeAt (hwoke.record_other hne)
      rw [hsame, hwoke.hardware] at hrefuses
      exact ⟨m, .refused hset hrefuses, hlast⟩

theorem Rearmed.wokenExactly (h : Rearmed s ids t) (slot : Nat) : WokenExactly s ids t slot := by
  induction h with
  | empty _ | kept _ _ | accepted _ _ _ => exact .inl ⟨nofun, rfl⟩
  | @refused s t u head hardware ids _ hstate _ _ hwoke _ ih =>
      by_cases he : slot = head.index
      · subst he
        refine .inr ⟨⟨head, List.mem_cons_self, rfl⟩, hstate, ?_⟩
        rcases ih with ⟨_, hsame⟩ | ⟨_, hasleep, _⟩
        · exact hsame.trans hwoke.record_self
        · exact absurd hasleep hwoke.awake
      · have hother : t.tasks.record slot = s.tasks.record slot := hwoke.record_other he
        rcases ih with ⟨hnone, hsame⟩ | ⟨⟨id, hid, hslot⟩, hasleep, hwoken⟩
        · refine .inl ⟨fun id hid => ?_, hsame.trans hother⟩
          rcases List.mem_cons.mp hid with rfl | hid
          · exact Ne.symm he
          · exact hnone id hid
        · rw [hother] at hasleep hwoken
          exact .inr ⟨⟨id, List.mem_cons_of_mem _ hid, hslot⟩, hasleep, hwoken⟩

/-- How a task ends, as others learn of it. -/
structure SameEnd (r r' : TaskRecord) : Prop where
  exiting : r'.exiting = r.exiting
  exitCode : r'.exitCode = r.exitCode
  completion : r'.completion = r.completion
  exited : r'.state = .exited ↔ r.state = .exited

omit [Hardware H] in
theorem WokenExactly.sameEnd {slot : Nat} (h : WokenExactly s ids t slot) :
    SameEnd (s.tasks.record slot) (t.tasks.record slot) := by
  rcases h with ⟨_, hsame⟩ | ⟨_, _, hwoken⟩
  · rw [hsame]
    exact ⟨rfl, rfl, rfl, .rfl⟩
  · rw [hwoken]
    exact ⟨rfl, rfl, rfl, (TaskRecord.lasts_woken _).exited⟩

theorem Standing.wokenExactly_wake (hs : s.Standing) (hok : s.wake id = .ok t) :
    ∃ (refused : List TaskId) (h : H), (h = s.hardware ∨ h = Hardware.clearAlarm s.hardware) ∧
      Refused s refused h t.hardware ∧
      ∀ slot, slot ≠ id.index → WokenExactly s refused t slot := by
  obtain ⟨_, u, hwoke, ⟨_, rfl⟩ | ⟨_, ids, hrearmed⟩⟩ := hs.wake hok
  · exact ⟨[], _, .inl rfl, ⟨_, .none, .inl hwoke.hardware⟩,
      fun slot hne => .inl ⟨nofun, hwoke.record_other hne⟩⟩
  · refine ⟨ids, Hardware.clearAlarm u.hardware, .inr (by rw [hwoke.hardware]), ?_, ?_⟩
    · obtain ⟨m, hrefuses, hlast⟩ := hrearmed.refused_deadlines
      have hsame : ids.map (fun other => (u.record other).wakeAt) =
          ids.map fun other => (s.record other).wakeAt := by
        refine List.map_congr_left fun other hother => ?_
        have hne : other.index ≠ id.index := hwoke.ne_of_asleep (hrearmed.asleep hother)
        exact congrArg TaskRecord.wakeAt (hwoke.record_other hne)
      exact ⟨m, hsame ▸ hrefuses, hlast⟩
    · intro slot hne
      have hexactly := hrearmed.wokenExactly slot
      unfold WokenExactly at hexactly ⊢
      rwa [← hwoke.record_other hne]

/-- The name is the last one answered for its slot, and that run has not ended. -/
def NamesRun (ids : List TaskId) (s : Scheduler H) (id : TaskId) : Prop :=
  ids.find? (OfSlot id.index) = some id ∧ s.Occupied id.index

omit [Hardware H] in
theorem Registered.namesRun (h : Registered ids s) (hwoke : Woke s id t) :
    NamesRun ids s id := by
  have hoccupied : s.Occupied id.index := by
    unfold Occupied
    rcases hwoke.state with he | he | he <;> rw [record] at he <;> rw [he] <;> decide
  have hslot : id.index ∈ slots := mem_slots.mpr ⟨hwoke.task, index_lt_of_state hoccupied.1⟩
  refine ⟨?_, hoccupied⟩
  rw [h.last _ hslot, if_neg hoccupied.1]
  exact congrArg some (TaskId.ext_of_index (TaskId.index_mk id.index_lt _) hwoke.current.symm)

/--
Starts answer no name twice, and a wake completes only under the name of a run
that goes on.  It leaves every other task alone, except that it wakes sleepers
whose deadlines the alarm refuses.
-/
theorem Issued.wake_names_current (h : Issued ids s) (hfew : ids.length < UInt32.size) :
    ids.Nodup ∧ ∀ id,
      (∀ t, s.wake id = .ok t →
        ∃ (refused : List TaskId) (before : H),
          (before = s.hardware ∨ before = Hardware.clearAlarm s.hardware) ∧
          Refused s refused before t.hardware ∧
          ∀ slot, slot ≠ id.index → WokenExactly s refused t slot ∧
            SameEnd (s.tasks.record slot) (t.tasks.record slot)) ∧
      (¬(id.isMainline = false ∧ NamesRun ids s id ∧ sleepCountMin < (s.record id).sleepCount) →
        ∃ fault, s.wake id = .error fault) := by
  have hs := h.registered hfew
  refine ⟨hs.nodup, fun id => ⟨fun t hok => ?completes, fun hother => ?panics⟩⟩
  case completes =>
    obtain ⟨refused, before, hbefore, hrefused, hexactly⟩ := hs.standing.wokenExactly_wake hok
    exact ⟨refused, before, hbefore, hrefused,
      fun slot hne => ⟨hexactly slot hne, (hexactly slot hne).sameEnd⟩⟩
  case panics =>
    cases hok : s.wake id with
    | error fault => exact ⟨fault, rfl⟩
    | ok t =>
        obtain ⟨_, u, hwoke, _⟩ := hs.standing.wake hok
        exact absurd ⟨TaskId.isMainline_eq_false.mpr hwoke.task, hs.namesRun hwoke, hwoke.limit⟩
          hother

def issue (ids : List TaskId) (s : Scheduler H) :
    List Operation → Option (List TaskId × Scheduler H)
  | [] => some (ids, s)
  | .spawn stack pointer :: ops =>
      match s.spawn stack pointer with
      | .ok (t, .ok id) => t.issue (id :: ids) ops
      | .ok (t, .error _) => t.issue ids ops
      | .error _ => none
  | op :: ops =>
      match s.perform op with
      | .ok (t, _) => t.issue ids ops
      | .error _ => none

theorem Issued.issue {ops : List Operation} (h : Issued ids s)
    (hok : s.issue ids ops = some (rest, t)) : Issued rest t := by
  fun_induction Scheduler.issue ids s ops with
  | case1 ids s =>
      obtain ⟨rfl, rfl⟩ := Prod.mk.inj (Option.some.inj hok)
      exact h
  | case2 ids s stack pointer ops t id hspawn ih => exact ih (h.spawned hspawn) hok
  | case3 ids s stack pointer ops t reason hspawn ih => exact ih (h.refused hspawn) hok
  | case4 => contradiction
  | case5 ids s op ops hnot t decision hperform ih =>
      refine ih (h.performed ?_ hperform) hok
      cases op with
      | spawn stack pointer => exact absurd rfl (hnot stack pointer)
      | _ => rfl
  | case6 => contradiction

def restartedTask : Option (List TaskId × Scheduler Board) :=
  (new (Board.start Instant.zero)).issue []
    [.spawn ⟨0x20000000, 0x20000400⟩ 0x200003c8, .reschedule Board.mainlinePointer,
      .markExiting 3, .reschedule 0x20000380, .spawn ⟨0x20000000, 0x20000400⟩ 0x200003c8]

theorem wake_names_current_restarted :
    ∃ (ids : List TaskId) (s t : Scheduler Board),
      Issued ids s ∧ ids.length < UInt32.size ∧ ids = [⟨1, 2⟩, ⟨1, 1⟩] ∧ ids.Nodup ∧
      (∃ fault, s.wake ⟨1, 1⟩ = .error fault) ∧ s.wake ⟨1, 2⟩ = .ok t ∧
      SameEnd (s.tasks.record 2) (t.tasks.record 2) := by
  obtain ⟨⟨ids, s⟩, hissue⟩ := Option.isSome_iff_exists.mp
    (show restartedTask.isSome = true by decide)
  have hids : restartedTask.map Prod.fst = some [⟨1, 2⟩, ⟨1, 1⟩] := by decide
  have hwake : (restartedTask.bind fun r => (r.2.wake ⟨1, 2⟩).toOption).isSome = true := by
    decide
  rw [hissue] at hids
  replace hids : ids = [⟨1, 2⟩, ⟨1, 1⟩] := Option.some.inj hids
  rw [hissue, Option.bind_some] at hwake
  obtain ⟨t, hok⟩ := Option.isSome_iff_exists.mp hwake
  rw [toOption_eq_some] at hok
  have hissued : Issued ids s := .issue .new hissue
  have hfew : ids.length < UInt32.size := by
    rw [hids]
    decide
  obtain ⟨hnodup, hwakes⟩ := hissued.wake_names_current hfew
  have hstale : ¬NamesRun ids s ⟨1, 1⟩ := by
    rw [hids]
    exact fun hnames => absurd hnames.1 (by decide)
  have hfault := (hwakes ⟨1, 1⟩).2 fun hnames => hstale hnames.2.1
  obtain ⟨refused, before, _, _, hothers⟩ := (hwakes ⟨1, 2⟩).1 t hok
  exact ⟨ids, s, t, hissued, hfew, hids, hnodup, hfault, hok, (hothers 2 (by decide)).2⟩

end CoopTasks.Scheduler

import CoopTasks.Proofs.RunInvariants

/-!
A switch as a function of the two queues.

The suspended task, and the one that waits for its end, are put where
`Scheduler.lineUp` says.  If the alarm is then late for the first deadline, the
first sleepers whose deadlines have passed follow to the end of the run queue
(`Scheduler.due`), and the head of the run queue goes on (`Scheduler.successor`).
Nothing else decides: `Scheduler.Exchanged` is all that a switch does to the
queues, in every world that keeps to the rules, unless the task that waits for
an end has been woken too often (`Scheduler.Spent`).
-/

namespace CoopTasks

open Scheduler

namespace Scheduler

/-! ## What a switch is to do -/

section Rules

variable {H : Type}

structure LineUp where
  run : List TaskId
  sleep : List TaskId
  deriving DecidableEq, Repr

/-- The queues once the task that waits for an end has been woken, if it sleeps. -/
def summon (s : Scheduler H) (rest : List TaskId) : Option TaskId → LineUp
  | some joiner =>
      if (s.record joiner).state = .sleeping then ⟨rest ++ [joiner], s.sleepers.erase joiner⟩
      else ⟨rest, s.sleepers⟩
  | none => ⟨rest, s.sleepers⟩

/-- The queues once the suspended task has been settled. -/
def lineUp (s : Scheduler H) (id : TaskId) (rest : List TaskId) : LineUp :=
  if id.index = 0 then ⟨rest, s.sleepers⟩
  else if (s.record id).exiting then s.summon rest (s.record id).completion.waiter
  else if (s.record id).isSleeping then ⟨rest, s.bedded id s.sleepers⟩
  else ⟨rest ++ [id], s.sleepers⟩

/-- No alarm is armed, or the suspended task is the first to sleep and until a sooner deadline. -/
def hastens (s : Scheduler H) (id : TaskId) (queues : LineUp) : Bool :=
  s.armed.isNone ||
    (decide (queues.sleep.head? = some id) && !(s.record id).wakeAt.isNever &&
      s.armed.all fun armed => decide ((s.record id).wakeAt < armed))

def contextAfter (s : Scheduler H) (id : TaskId) (pointer : Address) (next : TaskId) : Address :=
  if next.index = id.index then pointer else (s.record next).pointer

def successor (s : Scheduler H) (id : TaskId) (pointer : Address) (queues : LineUp) : Decision :=
  match queues.run, queues.sleep with
  | next :: _, _ => .resume (s.contextAfter id pointer next)
  | [], _ :: _ => .idle
  | [], [] => .resume (s.contextAfter id pointer .mainline)

/-- The end of the suspended task is to wake a task that cannot be woken once more. -/
def Spent (s : Scheduler H) (id : TaskId) : Prop :=
  id.index ≠ 0 ∧ (s.record id).exiting = true ∧
    ∃ joiner, (s.record id).completion.waiter = some joiner ∧
      (s.record joiner).sleepCount ≤ sleepCountMin

variable [Hardware H]

/-- The sleepers whose deadlines the switch finds to have passed. -/
def due (s : Scheduler H) (id : TaskId) (queues : LineUp) : List TaskId :=
  if s.hastens id queues then queues.sleep.takeWhile s.overdue else []

/-- The outcome of a switch away from the head of the run queue. -/
structure Exchanged (s : Scheduler H) (id : TaskId) (rest : List TaskId) (pointer : Address)
    (t : Scheduler H) (decision : Decision) : Prop where
  runQueue : t.runQueue = (s.lineUp id rest).run ++ s.due id (s.lineUp id rest)
  sleepers : (s.lineUp id rest).sleep = s.due id (s.lineUp id rest) ++ t.sleepers
  armed : t.armed = t.soonest
  decision : decision = s.successor id pointer ⟨t.runQueue, t.sleepers⟩
  running : ∀ next, t.runQueue.head? = some next → (t.record next).state = .running
  current : t.current = t.runQueue.head?

end Rules

/-! ## Before a switch -/

variable {H : Type} [PromptHardware H] {s t u v w : Scheduler H} {id joiner : TaskId}
variable {rest woken : List TaskId} {pointer : Address} {decision : Decision}

structure Poised (s : Scheduler H) (id : TaskId) (rest : List TaskId) (pointer : Address) :
    Prop where
  standing : s.Standing
  timely : s.Timely
  secured : s.Secured
  runQueue : s.runQueue = id :: rest
  fits : (s.record id).busyTime.toNat + (s.now.since s.resumedAt).toNat < UInt64.size
  holds : id.index ≠ 0 → (s.record id).stack.holds pointer = true
  mainline : (if id.index = 0 then pointer else (s.record .mainline).pointer) ≠ 0
  live : ∀ m ∈ rest ++ s.sleepers, (s.record m).isLive = true
  asleep : ∀ m ∈ s.sleepers, 0 < (s.record m).sleepCount
  awake : (s.record id).exiting = true → id.index ≠ 0 → (s.record id).sleepCount ≤ 0
  joiner : (s.record id).exiting = true → id.index ≠ 0 → ∀ joiner,
    (s.record id).completion.waiter = some joiner →
      joiner.index ≠ id.index ∧ s.Wakeable joiner ∧
        ((s.record joiner).state = .sleeping → (s.record joiner).wakeAt = Instant.never)

namespace Poised

theorem index_lt (h : s.Poised id rest pointer) : id.index < slotCount :=
  h.standing.index_lt (by rw [h.runQueue]; exact List.mem_cons_self)

theorem index_ne (h : s.Poised id rest pointer) : ∀ m ∈ rest ++ s.sleepers, m.index ≠ id.index := by
  intro m hm
  rcases List.mem_append.mp hm with hm | hm
  · have hnodup := h.standing.ready.nodup
    rw [h.runQueue, List.map_cons, List.nodup_cons] at hnodup
    exact fun he => hnodup.1 (he ▸ List.mem_map_of_mem hm)
  · exact (h.standing.apart id (by rw [h.runQueue]; exact List.mem_cons_self) m hm).symm

theorem mem_lineUp_sleep (h : s.Poised id rest pointer) {m : TaskId}
    (hm : m ∈ (s.lineUp id rest).sleep) :
    m = id ∧ id.index ≠ 0 ∧ (s.record id).exiting = false ∨ m ∈ s.sleepers := by
  unfold lineUp summon at hm
  split at hm
  · exact .inr hm
  · split at hm
    · split at hm
      · split at hm
        · exact .inr (List.mem_of_mem_erase hm)
        · exact .inr hm
      · exact .inr hm
    · rename_i hid hexiting
      split at hm
      · rcases List.mem_cons.mp ((s.perm_bedded id s.sleepers).mem_iff.mp hm) with rfl | hm
        · exact .inl ⟨rfl, hid, Bool.eq_false_iff.mpr hexiting⟩
        · exact .inr hm
      · exact .inr hm

theorem mem_lineUp_run (h : s.Poised id rest pointer) {m : TaskId}
    (hm : m ∈ (s.lineUp id rest).run) :
    m = id ∧ id.index ≠ 0 ∧ (s.record id).exiting = false ∨ m ∈ rest ++ s.sleepers := by
  unfold lineUp summon at hm
  split at hm
  · exact .inr (List.mem_append_left _ hm)
  · rename_i hid
    split at hm
    · rename_i hexiting
      right
      split at hm
      · rename_i joiner hwaiter
        split at hm
        · rename_i hasleep
          obtain ⟨_, hwakeable, _⟩ := h.joiner hexiting hid joiner hwaiter
          have hmem : joiner ∈ s.sleepers := Placed.mem_sleep_of_sleeping h.standing
            (mem_slots.mp hwakeable.slot).1 hwakeable.current hasleep
          rcases List.mem_append.mp hm with hm | hm
          · exact List.mem_append_left _ hm
          · exact List.mem_append_right _ (List.mem_singleton.mp hm ▸ hmem)
        · exact List.mem_append_left _ hm
      · exact List.mem_append_left _ hm
    · rename_i hexiting
      split at hm
      · exact .inr (List.mem_append_left _ hm)
      · rcases List.mem_append.mp hm with hm | hm
        · exact .inr (List.mem_append_left _ hm)
        · exact .inl ⟨List.mem_singleton.mp hm, hid, Bool.eq_false_iff.mpr hexiting⟩

end Poised

/-! ## The wake at the end of a task -/

theorem Timely.not_armed_for {H : Type} {s : Scheduler H} {id : TaskId} (h : s.Timely)
    (hs : s.Standing)
    (hendless : (s.record id).state = .sleeping → (s.record id).wakeAt = Instant.never) :
    ¬(s.sleepers.head? = some id ∧ s.armed = some (s.record id).wakeAt) := by
  rintro ⟨hhead, harmed⟩
  rw [h.armed] at harmed
  obtain ⟨head, hhead', _, hfinite⟩ := soonest_eq_some.mp harmed
  exact hfinite (hendless (hs.asleep id (List.mem_of_head? hhead)).2)

theorem Standing.wake_of_endless (hs : s.Standing) (h : s.Timely)
    (hendless : (s.record id).state = .sleeping → (s.record id).wakeAt = Instant.never)
    (hok : s.wake id = .ok t) : Woke s id t := by
  obtain ⟨_, u, hwoke, ⟨_, rfl⟩ | ⟨harmed, _⟩⟩ := hs.wake hok
  · exact hwoke
  · exact absurd harmed (h.not_armed_for hs hendless)

theorem Standing.wake_eq_of_endless (hs : s.Standing) (h : s.Timely)
    (hendless : (s.record id).state = .sleeping → (s.record id).wakeAt = Instant.never)
    (hlt : id.index < slotCount) {wasHead : Bool} (hok : s.wakeTask id = .ok (t, wasHead)) :
    s.wake id = .ok t := by
  obtain ⟨hwoke, hhead⟩ := hs.wakeTask hok
  have hslot : requireSlot id = .ok () := require_eq_ok.mpr hlt
  have hleft : ¬(wasHead = true ∧ t.armed = some (s.record id).wakeAt) := by
    rw [hhead, hwoke.armed]
    exact h.not_armed_for hs hendless
  unfold Scheduler.wake
  simp only [hslot, hok, bind, Except.bind]
  exact if_neg hleft

theorem Wakeable.wake_eq_error (h : s.Wakeable id)
    (hcount : (s.record id).sleepCount ≤ sleepCountMin) :
    s.wake id = .error .wakeCountUnderflow := by
  obtain ⟨hne, hlt⟩ := mem_slots.mp h.slot
  have hslot : requireSlot id = .ok () := require_eq_ok.mpr hlt
  have hname : require (id.generation = (s.record id).generation)
      (.staleWake id (s.record id).generation) = .ok () := require_eq_ok.mpr h.current
  have hmeant : require (id.isMainline = false ∧ (s.record id).isLive = true) (.wakeNotLive id) =
      .ok () := require_eq_ok.mpr ⟨TaskId.isMainline_eq_false.mpr hne, h.live⟩
  have hspent : require (sleepCountMin < (s.record id).sleepCount) .wakeCountUnderflow =
      .error .wakeCountUnderflow := if_neg (by omega)
  unfold Scheduler.wake Scheduler.wakeTask
  simp only [hslot, hname, hmeant, hspent, bind, Except.bind]

/-! ## Lining up -/

/-- What the settling of the suspended task leaves to the alarm. -/
structure LinedUp (s : Scheduler H) (id : TaskId) (rest : List TaskId) (v : Scheduler H) :
    Prop where
  runQueue : v.runQueue = (s.lineUp id rest).run
  sleepers : v.sleepers = (s.lineUp id rest).sleep
  armed : v.armed = s.armed
  deadlines : ∀ m ∈ v.sleepers, (v.record m).wakeAt = (s.record m).wakeAt
  rousable : v.Rousable

namespace Poised

theorem linedUp_of_kept (h : s.Poised id rest pointer)
    (hrun : v.runQueue = (s.lineUp id rest).run) (hsleep : v.sleepers = (s.lineUp id rest).sleep)
    (harmed : v.armed = s.armed)
    (hkept : ∀ m ∈ v.sleepers, m ∈ s.sleepers ∧ v.record m = s.record m) :
    LinedUp s id rest v := by
  refine ⟨hrun, hsleep, harmed, fun m hm => congrArg TaskRecord.wakeAt (hkept m hm).2,
    fun m hm => ?_⟩
  obtain ⟨hmem, he⟩ := hkept m hm
  rw [he]
  exact ⟨h.live m (List.mem_append_right _ hmem), h.asleep m hmem⟩

theorem kept (h : s.Poised id rest pointer) (hsuspended : Suspended s pointer id rest u)
    {change : TaskRecord → TaskRecord} {run sleep : List TaskId}
    (hmoved : Moved u id change run sleep v) {m : TaskId} (hm : m ∈ rest ++ s.sleepers) :
    v.record m = s.record m :=
  (hmoved.other (h.index_ne m hm)).trans (hsuspended.other (h.index_ne m hm))

theorem timely_finished (h : s.Poised id rest pointer)
    (hsuspended : Suspended s pointer id rest u)
    (hmoved : Moved u id TaskRecord.finished rest s.sleepers t) : t.Timely := by
  rw [← show u.sleepers = s.sleepers from hsuspended.placed.sleepers_eq] at hmoved
  exact hmoved.timely (hsuspended.timely h.timely) (.inl fun _ => rfl)

theorem linedUp_finished (h : s.Poised id rest pointer)
    (hsuspended : Suspended s pointer id rest u) (hid : id.index ≠ 0)
    (hexiting : (s.record id).exiting = true)
    (hmoved : Moved u id TaskRecord.finished rest s.sleepers t)
    (hwake : t.wakeWaiter (s.record id).completion.waiter = .ok v) : LinedUp s id rest v := by
  have hrule : s.lineUp id rest = s.summon rest (s.record id).completion.waiter := by
    rw [lineUp, if_neg hid, if_pos hexiting]
  have hbefore : ∀ m ∈ t.sleepers, m ∈ s.sleepers ∧ t.record m = s.record m := by
    intro m hm
    rw [hmoved.sleepers] at hm
    exact ⟨hm, h.kept hsuspended hmoved (List.mem_append_right _ hm)⟩
  have harmed : t.armed = s.armed := hmoved.armed.trans hsuspended.armed
  cases hwaiter : (s.record id).completion.waiter with
  | none =>
      rw [hwaiter] at hwake hrule
      obtain rfl := Except.ok.inj hwake
      exact h.linedUp_of_kept (by rw [hrule, hmoved.runQueue]; rfl)
        (by rw [hrule, hmoved.sleepers]; rfl) harmed hbefore
  | some joiner =>
      rw [hwaiter] at hwake hrule
      obtain ⟨hne, hwakeable, hendless⟩ := h.joiner hexiting hid joiner hwaiter
      have hjoiner : t.record joiner = s.record joiner :=
        (hmoved.other hne).trans (hsuspended.other hne)
      have hwoke := hmoved.standing.wake_of_endless (h.timely_finished hsuspended hmoved)
        (hjoiner ▸ hendless) hwake
      have hrun := hwoke.runQueue
      have hsleep := hwoke.sleepers
      rw [hjoiner, hmoved.runQueue] at hrun
      rw [hmoved.sleepers] at hsleep
      refine h.linedUp_of_kept ?_ ?_ (hwoke.armed.trans harmed) fun m hm => ?_
      · rw [hrun, hrule, summon]
        split
        · rfl
        · exact List.append_nil rest
      · rw [hsleep, hrule, summon]
        split
        · rfl
        · rename_i hawake
          exact List.erase_of_not_mem fun hmem => hawake (h.standing.asleep joiner hmem).2
      · obtain ⟨hmem, he⟩ := hwoke.record_sleeper hmoved.standing hm
        obtain ⟨hslept, hsame⟩ := hbefore m hmem
        exact ⟨hslept, he.trans hsame⟩

theorem linedUp_asleep (h : s.Poised id rest pointer)
    (hsuspended : Suspended s pointer id rest u) (hid : id.index ≠ 0)
    (hexiting : (s.record id).exiting = false) (hsleeping : (s.record id).isSleeping = true)
    (hmoved : Moved u id (fun t => { t with state := .sleeping }) rest
      (u.bedded id s.sleepers) v) : LinedUp s id rest v := by
  have hdeadline : ∀ m, (u.record m).wakeAt = (s.record m).wakeAt := fun m =>
    hsuspended.field TaskRecord.wakeAt (fun _ => rfl) m.index
  have hbedded : u.bedded id s.sleepers = s.bedded id s.sleepers := by
    simp only [bedded, hdeadline]
  have hrule : s.lineUp id rest = ⟨rest, s.bedded id s.sleepers⟩ := by
    rw [lineUp, if_neg hid, if_neg (by rw [hexiting]; decide), if_pos hsleeping]
  refine ⟨by rw [hrule, hmoved.runQueue], by rw [hrule, hmoved.sleepers, hbedded],
    hmoved.armed.trans hsuspended.armed, fun m _ => ?_, fun m hm => ?_⟩
  · exact (hmoved.field TaskRecord.wakeAt (fun _ => rfl) m.index).trans (hdeadline m)
  · rw [hmoved.sleepers] at hm
    rcases List.mem_cons.mp ((u.perm_bedded id s.sleepers).mem_iff.mp hm) with rfl | hm
    · rw [hmoved.self, hsuspended.self]
      exact ⟨h.holds hid, of_decide_eq_true hsleeping⟩
    · have hmem : m ∈ rest ++ s.sleepers := List.mem_append_right _ hm
      rw [h.kept hsuspended hmoved hmem]
      exact ⟨h.live m hmem, h.asleep m hm⟩

theorem linedUp (h : s.Poised id rest pointer) (hsuspended : Suspended s pointer id rest u)
    (hsettled : Settled u id rest s.sleepers v) : LinedUp s id rest v := by
  have hself := hsuspended.self
  have hbefore : ∀ {change : TaskRecord → TaskRecord} {run : List TaskId},
      Moved u id change run s.sleepers v →
        ∀ m ∈ v.sleepers, m ∈ s.sleepers ∧ v.record m = s.record m := by
    intro change run hmoved m hm
    rw [hmoved.sleepers] at hm
    exact ⟨hm, h.kept hsuspended hmoved (List.mem_append_right _ hm)⟩
  cases hsettled with
  | parked hid hmoved _ =>
      have hrule : s.lineUp id rest = ⟨rest, s.sleepers⟩ := by
        rw [lineUp, if_pos hid]
      exact h.linedUp_of_kept (by rw [hrule, hmoved.runQueue]) (by rw [hrule, hmoved.sleepers])
        (hmoved.armed.trans hsuspended.armed) (hbefore hmoved)
  | finished hid _ hexiting _ hmoved _ hwake =>
      rw [hself] at hexiting hwake
      exact h.linedUp_finished hsuspended hid hexiting hmoved hwake
  | asleep hid _ hexiting hsleeping hmoved _ =>
      rw [hself] at hexiting hsleeping
      exact h.linedUp_asleep hsuspended hid hexiting hsleeping hmoved
  | requeued hid _ hexiting hsleeping hmoved _ =>
      rw [hself] at hexiting hsleeping
      have hrule : s.lineUp id rest = ⟨rest ++ [id], s.sleepers⟩ := by
        have hstays : (s.record id).exiting = false := hexiting
        have hawake : (s.record id).isSleeping = false := hsleeping
        rw [lineUp, if_neg hid, if_neg (by rw [hstays]; decide), if_neg (by rw [hawake]; decide)]
      exact h.linedUp_of_kept (by rw [hrule, hmoved.runQueue]) (by rw [hrule, hmoved.sleepers])
        (hmoved.armed.trans hsuspended.armed) (hbefore hmoved)

/-! ## Arming the alarm -/

theorem tardy_eq_hastens (h : s.Poised id rest pointer) (hlined : LinedUp s id rest v)
    {armed : Instant} (harmed : s.armed = some armed) :
    v.tardy = s.hastens id (s.lineUp id rest) := by
  unfold tardy hastens armedBy
  rw [hlined.armed, harmed, ← hlined.sleepers]
  cases hhead : v.sleepers.head? with
  | none => rfl
  | some head =>
      have hmem := List.mem_of_head? hhead
      rw [Option.any_some, hlined.deadlines head hmem]
      by_cases he : head = id
      · subst he
        have hsooner : (s.record head).wakeAt < armed ↔ ¬armed ≤ (s.record head).wakeAt := by
          rw [Instant.lt_iff, Instant.le_iff]
          omega
        simp [hsooner]
      · -- the others slept before, when the alarm was armed for the first of them
        obtain ⟨first, hfirst, hsoonest, _⟩ :=
          soonest_eq_some.mp (h.timely.armed.symm.trans harmed)
        have hslept : head ∈ s.sleepers := by
          rw [hlined.sleepers] at hmem
          exact (h.mem_lineUp_sleep hmem).resolve_left fun hgoes => he hgoes.1
        have hle : armed ≤ (s.record head).wakeAt :=
          hsoonest ▸ h.timely.ordered.head_le hfirst hslept
        simp [hle, he]

theorem roused_eq_due (h : s.Poised id rest pointer) (hlined : LinedUp s id rest v)
    (hnow : v.now = s.now) : v.roused = s.due id (s.lineUp id rest) := by
  have hprefix : v.sleepers.takeWhile v.overdue = (s.lineUp id rest).sleep.takeWhile s.overdue := by
    rw [← hlined.sleepers]
    exact takeWhile_overdue_congr hnow hlined.deadlines
  cases harmed : s.armed with
  | none =>
      rw [roused_of_unarmed (hlined.armed.trans harmed), hprefix, due, hastens, harmed]
      rfl
  | some armed => rw [roused, due, h.tardy_eq_hastens hlined harmed, hprefix]

/-! ## Resuming -/

theorem mem_ready (h : s.Poised id rest pointer) (hlined : LinedUp s id rest v)
    (hrearmed : Rearmed v woken w) {m : TaskId} (hm : m ∈ w.runQueue) :
    m = id ∧ id.index ≠ 0 ∧ (s.record id).exiting = false ∨ m ∈ rest ++ s.sleepers := by
  obtain ⟨hrun, hsleep⟩ := hrearmed.queues
  rw [hrun, hlined.runQueue] at hm
  rcases List.mem_append.mp hm with hm | hm
  · exact h.mem_lineUp_run hm
  · have hslept : m ∈ v.sleepers := by
      rw [hsleep]
      exact List.mem_append_left _ hm
    rw [hlined.sleepers] at hslept
    exact (h.mem_lineUp_sleep hslept).imp_right (List.mem_append_right rest)

theorem resumable (h : s.Poised id rest pointer) (hsuspended : Suspended s pointer id rest u)
    (hsettled : Settled u id rest s.sleepers v) (hrearmed : Rearmed v woken w) {m : TaskId}
    (hm : m ∈ w.runQueue) :
    (w.record m).pointer = s.contextAfter id pointer m ∧ (w.record m).isLive = true := by
  have hready := h.mem_ready (h.linedUp hsuspended hsettled) hrearmed hm
  have hplace : ((w.record m).stack, (w.record m).pointer) =
      ((u.record m).stack, (u.record m).pointer) := by
    refine (hrearmed.wakes.inert TaskRecord.inert_place m.index).trans
      (hsettled.inert TaskRecord.inert_place fun he hexiting => ?_)
    rw [hsuspended.self] at hexiting
    rcases hready with ⟨_, _, hstays⟩ | hmem
    · exact absurd (hstays.symm.trans hexiting) (by decide)
    · exact absurd he (h.index_ne m hmem)
  rcases hready with ⟨rfl, hid, _⟩ | hmem
  · rw [hsuspended.self] at hplace
    exact ⟨(congrArg Prod.snd hplace).trans (if_pos rfl).symm,
      (TaskRecord.isLive_congr hplace).trans (h.holds hid)⟩
  · have hne := h.index_ne m hmem
    rw [show u.record m = s.record m from hsuspended.other hne] at hplace
    exact ⟨(congrArg Prod.snd hplace).trans (if_neg hne).symm,
      (TaskRecord.isLive_congr hplace).trans (h.live m hmem)⟩

theorem context_mainline (hsuspended : Suspended s pointer id rest u)
    (hsettled : Settled u id rest s.sleepers v) (hrearmed : Rearmed v woken w) :
    (w.record .mainline).pointer = s.contextAfter id pointer .mainline := by
  rw [hsettled.pointer_suspended hsuspended hrearmed]
  by_cases hid : id.index = 0
  · exact (if_pos hid).trans (if_pos hid.symm).symm
  · exact (if_neg hid).trans (if_neg (Ne.symm hid)).symm

/-- A switch that comes to its end has done to the queues what the rules say. -/
theorem exchanged (h : s.Poised id rest pointer)
    (hswitched : Switched s pointer t decision id rest woken u v w) :
    Exchanged s id rest pointer t decision := by
  have hlined := h.linedUp hswitched.suspended hswitched.settled
  have hnow : v.now = s.now := by
    refine (PromptHardware.now_driven hswitched.settled.driven).trans ?_
    rw [hswitched.suspended.hardware]
    rfl
  obtain rfl := (hswitched.rearmed.eq_roused hswitched.standing.1).trans
    (h.roused_eq_due hlined hnow)
  obtain ⟨hrun, hsleep⟩ := hswitched.rearmed.queues
  have hrunQueue := hswitched.dispatched.runQueue_eq
  have hsleepers := hswitched.dispatched.sleepers_eq
  have honly := (hswitched.onlyTasks h.standing).2
  refine ⟨by rw [hrunQueue, hrun, hlined.runQueue], by rw [hsleepers, ← hlined.sleepers, hsleep],
    (hswitched.timely h.timely).armed, ?decision, ?running, ?current⟩
  case decision =>
    rw [hrunQueue, hsleepers]
    unfold successor
    cases hswitched.dispatched with
    | resumed hhead _ _ _ =>
        obtain ⟨behind, hcons⟩ := List.head?_eq_some_iff.mp hhead
        obtain ⟨hpointer, _⟩ := h.resumable hswitched.suspended hswitched.settled
          hswitched.rearmed (List.mem_of_head? hhead)
        rw [hcons, hpointer]
    | drained hempty hnobody _ _ _ =>
        rw [hempty, hnobody,
          context_mainline hswitched.suspended hswitched.settled hswitched.rearmed]
    | idle hempty hsomebody =>
        obtain ⟨first, others, hcons⟩ := List.exists_cons_of_ne_nil hsomebody
        rw [hempty, hcons]
  case running =>
    intro next hhead
    exact hswitched.dispatched.headRuns next hhead (honly next (List.mem_of_head? hhead))
  case current =>
    cases hhead : t.runQueue.head? with
    | none =>
        unfold Scheduler.current
        rw [hswitched.standing.2.2.ready_head, hhead]
        rfl
    | some next =>
        exact hswitched.standing.2.2.current_eq_some_iff.mpr
          ⟨hhead, honly next (List.mem_of_head? hhead)⟩

/-! ## No switch fails, except for a wake too many -/

theorem settle_eq_wakeWaiter (h : s.Poised id rest pointer)
    (hsuspended : Suspended s pointer id rest u) (hid : id.index ≠ 0)
    (hexiting : (s.record id).exiting = true) :
    ∃ t, Moved u id TaskRecord.finished rest s.sleepers t ∧
      u.settle id = t.wakeWaiter (s.record id).completion.waiter := by
  have hslot : id.index ∈ slots := mem_slots.mpr ⟨hid, h.index_lt⟩
  have hself := hsuspended.self
  obtain ⟨hardware, hunguard, _⟩ := (h.secured.onward (t := u)
    (fun slot => hsuspended.field TaskRecord.guardRegion (fun _ => rfl) slot)
    (.of_eq hsuspended.hardware)).unguard hslot TaskRecord.finished
  obtain ⟨t, hmoved, _, _, hsettle⟩ := hsuspended.placed.settle_of_exiting hid h.index_lt
    (by rw [hself]; exact h.holds hid) (by rw [hself]; exact hexiting)
    (by rw [hself]; exact decide_eq_false (Int.not_lt.mpr (h.awake hexiting hid))) hunguard
  rw [hself] at hsettle
  exact ⟨t, hmoved, hsettle⟩

theorem settle (h : s.Poised id rest pointer) (hsuspended : Suspended s pointer id rest u)
    (hspent : ¬s.Spent id) : ∃ v, u.settle id = .ok v := by
  have hself := hsuspended.self
  by_cases hends : id.index ≠ 0 ∧ (s.record id).exiting = true
  · obtain ⟨hid, hexiting⟩ := hends
    obtain ⟨t, hmoved, hsettle⟩ := h.settle_eq_wakeWaiter hsuspended hid hexiting
    cases hwaiter : (s.record id).completion.waiter with
    | none => exact ⟨t, by rw [hsettle, hwaiter]; rfl⟩
    | some joiner =>
        obtain ⟨hne, hwakeable, hendless⟩ := h.joiner hexiting hid joiner hwaiter
        have hjoiner : t.record joiner = s.record joiner :=
          (hmoved.other hne).trans (hsuspended.other hne)
        have hlimit : sleepCountMin < (t.record joiner).sleepCount := by
          rw [hjoiner]
          exact Int.not_le.mp fun hle => hspent ⟨hid, hexiting, joiner, hwaiter, hle⟩
        obtain ⟨htask, hlt⟩ := mem_slots.mp hwakeable.slot
        obtain ⟨_, hcurrent, hlive, hstate⟩ := hwakeable.congr hjoiner
        obtain ⟨v, wasHead, hwake⟩ :=
          hmoved.standing.wakeTask_of_live hcurrent htask hlive hlimit hstate
        refine ⟨v, ?_⟩
        rw [hsettle, hwaiter]
        exact hmoved.standing.wake_eq_of_endless (h.timely_finished hsuspended hmoved)
          (hjoiner ▸ hendless) hlt hwake
  · refine hsuspended.placed.settle_of_stays h.index_lt (hsuspended.current h.standing)
      (fun hid => ?_) fun hid => ?_
    · rw [hself]
      exact h.holds hid
    · rw [hself]
      exact Bool.eq_false_iff.mpr fun hexiting => hends ⟨hid, hexiting⟩

theorem reschedule (h : s.Poised id rest pointer) (hspent : ¬s.Spent id) :
    ∃ t decision, s.reschedule pointer = .ok (t, decision) := by
  obtain ⟨u, hsuspend, hsuspended⟩ := h.standing.suspend_of_fits h.runQueue h.fits pointer
  obtain ⟨v, hsettle⟩ := h.settle hsuspended hspent
  have hsettled := hsuspended.placed.settle h.index_lt (hsuspended.current h.standing) hsettle
  have hlined := h.linedUp hsuspended hsettled
  obtain ⟨w, hrearm, hrearmed⟩ := hlined.rousable.rearm hsettled.standing
  obtain ⟨hw, _⟩ := hsettled.standing.rearm hrearm
  obtain ⟨t, decision, hdispatch⟩ := hw.dispatch_of_live
    (fun next hhead _ =>
      (h.resumable hsuspended hsettled hrearmed (List.mem_of_head? hhead)).2)
    (by rw [hsettled.pointer_suspended hsuspended hrearmed]; exact h.mainline)
  exact ⟨t, decision, bind_eq_ok.mpr ⟨(u, id), hsuspend, bind_eq_ok.mpr ⟨v, hsettle,
    bind_eq_ok.mpr ⟨w, hrearm, hdispatch⟩⟩⟩⟩

theorem reschedule_of_spent (h : s.Poised id rest pointer) (hspent : s.Spent id) :
    s.reschedule pointer = .error .wakeCountUnderflow := by
  obtain ⟨hid, hexiting, joiner, hwaiter, hcount⟩ := hspent
  obtain ⟨u, hsuspend, hsuspended⟩ := h.standing.suspend_of_fits h.runQueue h.fits pointer
  obtain ⟨t, hmoved, hsettle⟩ := h.settle_eq_wakeWaiter hsuspended hid hexiting
  obtain ⟨hne, hwakeable, _⟩ := h.joiner hexiting hid joiner hwaiter
  have hjoiner : t.record joiner = s.record joiner :=
    (hmoved.other hne).trans (hsuspended.other hne)
  have hfails : u.settle id = .error .wakeCountUnderflow := by
    rw [hsettle, hwaiter]
    exact (hwakeable.congr hjoiner).wake_eq_error (by rw [hjoiner]; exact hcount)
  unfold Scheduler.reschedule
  simp only [hsuspend, hfails, bind, Except.bind]

end Poised

end Scheduler

/-! ## Worlds that keep to the rules -/

namespace World

variable {H : Type} [PromptHardware H] {w : World H} {id : TaskId} {rest : List TaskId}
variable {pointer : Address} {events : List Event}

theorem ProperlyReached.joiner (h : w.ProperlyReached) (hslot : id.index ∈ slots)
    (hexiting : (w.scheduler.record id).exiting = true) {joiner : TaskId}
    (hwaiter : (w.scheduler.record id).completion.waiter = some joiner) :
    joiner.index ≠ id.index ∧ w.scheduler.Wakeable joiner ∧
      ((w.scheduler.record joiner).state = .sleeping →
        (w.scheduler.record joiner).wakeAt = Instant.never) := by
  have hwaiters := h.reached.waitersHeard
  obtain ⟨_, _, blocking, hin, _⟩ :=
    hwaiters.heard.recorded (.completion id.index) _ joiner (if_pos hslot) hwaiter
  have hinside : w.inside joiner.index ≠ none := by
    rw [hin.inside]
    simp
  refine ⟨fun he => hinside ?_, hwaiters.orderly.wakeable hin, fun hasleep => ?_⟩
  · rw [he]
    exact ((hwaiters.orderly.fits id.index hslot).exiting hexiting).1
  · exact (h.waitsUntimed joiner.index hin.slot).endless hinside
      ((hwaiters.orderly.fits joiner.index hin.slot).asleep hasleep)

theorem ProperlyReached.poised (h : w.ProperlyReached) (hrun : w.scheduler.runQueue = id :: rest)
    (hpointer : w.Suspendable pointer) : w.scheduler.Poised id rest pointer := by
  have hs := h.operated.standing
  have hwaiters := h.reached.waitersHeard
  have hhead : w.scheduler.runQueue.head? = some id := by rw [hrun, List.head?_cons]
  have hslot : id.index ≠ 0 → id.index ∈ slots := fun hid =>
    mem_slots.mpr ⟨hid, hs.index_lt (List.mem_append_left _ (List.mem_of_head? hhead))⟩
  have hsleeper : ∀ m ∈ w.scheduler.sleepers, m.index ∈ slots := fun m hm =>
    mem_slots.mpr ⟨(hs.asleep m hm).1, hs.index_lt (List.mem_append_right _ hm)⟩
  refine {
    standing := hs
    timely := (h.reached.onlyTasksQueued fun range hrange => (h.usable range hrange).bottom).timely
    secured := h.operated.secured
    runQueue := hrun
    fits := ?fits
    holds := fun hid => hpointer.task id (hs.current_eq_some_iff.mpr ⟨hhead, hid⟩)
    mainline := h.saved.suspended hs hpointer hrun
    live := ?live
    asleep := fun m hm =>
      (hwaiters.orderly.fits m.index (hsleeper m hm)).asleep (hs.asleep m hm).2
    awake := fun hexiting hid => (h.waitsUntimed id.index (hslot hid)).exiting hexiting
    joiner := fun hexiting hid _ hwaiter => h.joiner (hslot hid) hexiting hwaiter }
  case fits =>
    obtain ⟨entries, shift, hclocked, _⟩ := h.operated.clocked
    exact Nat.lt_of_le_of_lt (hclocked.booked.fits id.index) w.scheduler.now.toNat_lt
  case live =>
    intro m hm
    have htruthful := h.operated.sheltered.truthful
    rcases List.mem_append.mp hm with hm | hm
    · have hmem : m ∈ w.scheduler.runQueue := by
        rw [hrun]
        exact List.mem_cons_of_mem id hm
      have hne : m.index ≠ 0 := hs.behind m (by rw [hrun]; exact hm)
      exact (htruthful m.index (mem_slots.mpr
        ⟨hne, hs.index_lt (List.mem_append_left _ hmem)⟩)).live.mpr (hs.occupied hmem hne)
    · exact (htruthful m.index (hsleeper m hm)).live.mpr
        (occupied_of_state (hs.asleep m hm).2 (by decide))

/--
In every world that keeps to the rules a switch does to the queues what the
rules say, and gives the processor to the head of the run queue.  It fails only
if the task that waits for the end of the suspended one has been woken more
often than can be counted.
-/
theorem switch_of_properly (hardware : H) (signals : Nat) (memory : List Stack)
    (trampoline : UInt32) (husable : ∀ stack ∈ memory, stack.range.Usable)
    (h : Along Properly (World.start hardware signals memory trampoline) events w)
    (hrun : w.scheduler.runQueue = id :: rest) (hpointer : w.Suspendable pointer) :
    (w.scheduler.Spent id →
      w.scheduler.reschedule pointer = .error .wakeCountUnderflow) ∧
    (¬w.scheduler.Spent id → ∃ t decision,
      w.scheduler.reschedule pointer = .ok (t, decision) ∧
        w.scheduler.Exchanged id rest pointer t decision) := by
  have hstart := properlyReached_start hardware signals memory trampoline husable
  have hpoised := (h.properlyReached hstart).poised
    hrun hpointer
  refine ⟨hpoised.reschedule_of_spent, fun hspent => ?_⟩
  obtain ⟨t, decision, hok⟩ := hpoised.reschedule hspent
  obtain ⟨head, behind, woken, u, v, x, hswitched⟩ := hpoised.standing.reschedule hok
  obtain ⟨rfl, rfl⟩ := List.cons.inj (hrun.symm.trans hswitched.suspended.runQueue)
  exact ⟨t, decision, hok, hpoised.exchanged hswitched⟩

/-! ### Naps -/

def keepsRules (w : World PromptBoard) : Event → Bool
  | .elapse => false
  | .reschedule pointer => decide (w.Suspendable pointer)
  | _ => true

theorem properly_of_keepsRules {w w' : World PromptBoard} {event : Event}
    (h : w.keepsRules event = true) : Properly w event w' := by
  cases event with
  | elapse => contradiction
  | reschedule pointer => exact of_decide_eq_true (p := w.Suspendable pointer) h
  | _ => trivial

theorem along_of_keepsRules {w w' : World PromptBoard} {events : List Event}
    (h : w.follow keepsRules events = some w') : Along Properly w events w' :=
  .of_follow (fun _ _ _ hchecked _ => properly_of_keepsRules hchecked) h

def atTime (w : World PromptBoard) (clock : Instant) : World PromptBoard :=
  let b := w.scheduler.hardware
  w.withScheduler { w.scheduler with hardware := ⟨{ b.board with clock }, b.prompt⟩ }

theorem properly_atTime {w : World PromptBoard} {clock : Instant} (h : w.scheduler.now ≤ clock) :
    Occurs w .elapse (w.atTime clock) ∧ Properly w .elapse (w.atTime clock) :=
  ⟨.elapse, h, fun _ hholds => hholds⟩

def threeTasks : World PromptBoard :=
  World.start (PromptBoard.start Instant.zero) 0 [leastStack 0, leastStack 1, leastStack 2] 0

def twoNaps : List Event :=
  [.call (.start 0 0 0), .reschedule Board.mainlinePointer,
    .call (.start 0 0 1), .reschedule (Board.pageBottom 0 + 200),
    .call (.start 0 0 2), .reschedule (Board.pageBottom 1 + 200),
    .call (.sleepUntil ⟨5⟩), .reschedule (Board.pageBottom 0 + 200),
    .call .giveWay, .reschedule (Board.pageBottom 2 + 200),
    .call (.sleepUntil ⟨3⟩), .reschedule (Board.pageBottom 1 + 200)]

def lateNap : Option (World PromptBoard) :=
  (threeTasks.follow keepsRules twoNaps).bind fun w =>
    (w.atTime ⟨4⟩).occur (.call (.sleepUntil ⟨1⟩))

theorem switch_of_properly_lateNap :
    (∀ stack ∈ [leastStack 0, leastStack 1, leastStack 2], stack.range.Usable) ∧
      ∃ (events : List Event) (w : World PromptBoard), Along Properly threeTasks events w ∧
        w.scheduler.runQueue = [⟨3, 3⟩] ∧ w.scheduler.sleepers = [⟨2, 2⟩, ⟨1, 1⟩] ∧
        w.Suspendable (Board.pageBottom 2 + 200) ∧
        ∃ t decision, w.scheduler.reschedule (Board.pageBottom 2 + 200) = .ok (t, decision) ∧
          t.runQueue = [⟨3, 3⟩, ⟨2, 2⟩] ∧ t.sleepers = [⟨1, 1⟩] ∧ t.armed = t.soonest ∧
          decision = .resume (Board.pageBottom 2 + 200) ∧ t.current = some ⟨3, 3⟩ := by
  have husable : ∀ stack ∈ [leastStack 0, leastStack 1, leastStack 2], stack.range.Usable := by
    have hranges : ∀ stack ∈ [leastStack 0, leastStack 1, leastStack 2],
        stack.range.bottom ≠ 0 ∧ stack.range.bottom.toNat +
          4 * (leastStackWords + guardedWords) ≤ stack.range.top.toNat := by
      decide +kernel
    exact fun stack hstack => ⟨(hranges stack hstack).1, (hranges stack hstack).2⟩
  obtain ⟨w, hw⟩ := Option.isSome_iff_exists.mp (show lateNap.isSome = true by decide +kernel)
  have hbefore : lateNap.map (fun w => (w.scheduler.runQueue, w.scheduler.sleepers,
      (w.scheduler.record ⟨3, 3⟩).exiting, decide (w.Suspendable (Board.pageBottom 2 + 200)))) =
        some ([⟨3, 3⟩], [⟨2, 2⟩, ⟨1, 1⟩], false, true) := by decide +kernel
  have hrules : lateNap.map (fun w => (w.scheduler.lineUp ⟨3, 3⟩ [],
      w.scheduler.due ⟨3, 3⟩ (w.scheduler.lineUp ⟨3, 3⟩ []))) =
        some (⟨[], [⟨3, 3⟩, ⟨2, 2⟩, ⟨1, 1⟩]⟩, [⟨3, 3⟩, ⟨2, 2⟩]) := by decide +kernel
  have hclock : (threeTasks.follow keepsRules twoNaps).all (fun w =>
      decide (w.scheduler.now ≤ ⟨4⟩)) = true := by decide +kernel
  obtain ⟨u, hu, hcall⟩ := Option.bind_eq_some_iff.mp hw
  rw [hu, Option.all_some, decide_eq_true_iff] at hclock
  simp only [hw, Option.map_some, Option.some.injEq, Prod.mk.injEq, decide_eq_true_eq]
    at hbefore hrules
  obtain ⟨hrun, hsleep, hstays, hpointer⟩ := hbefore
  obtain ⟨hline, hdue⟩ := hrules
  have hlog : Along Properly threeTasks _ w :=
    ((along_of_keepsRules hu).step (properly_atTime hclock).1 (properly_atTime hclock).2).step
      (.of_occur hcall) trivial
  have hspent : ¬w.scheduler.Spent ⟨3, 3⟩ := by
    rintro ⟨_, hexiting, _⟩
    rw [hstays] at hexiting
    contradiction
  obtain ⟨_, hswitch⟩ := switch_of_properly _ _ _ _ husable hlog hrun hpointer
  obtain ⟨t, decision, hok, hexchanged⟩ := hswitch hspent
  have hready := hexchanged.runQueue
  have hasleep := hexchanged.sleepers
  have hdecision := hexchanged.decision
  have hcurrent := hexchanged.current
  rw [hdue, hline] at hready hasleep
  have hlast : t.sleepers = [⟨1, 1⟩] := by simpa using hasleep.symm
  rw [hready] at hdecision hcurrent
  exact ⟨husable, _, w, hlog, hrun, hsleep, hpointer, t, decision, hok, hready, hlast,
    hexchanged.armed, hdecision, hcurrent⟩

def manyWakes : List Event :=
  [.call (.start 0 0 0), .reschedule Board.mainlinePointer,
    .call (.start 0 0 1), .reschedule (Board.pageBottom 0 + 200),
    .call .giveWay, .reschedule (Board.pageBottom 1 + 200),
    .call (.join 1), .reschedule (Board.pageBottom 0 + 200)] ++
    List.replicate 129 (.call (.wake ⟨1, 1⟩)) ++ [.call (.exit 0)]

/-- Then no switch away from the second task comes to its end. -/
theorem switch_fails_manyWakes :
    ∃ w : World PromptBoard, Along Properly threeTasks manyWakes w ∧ w.control = .leaving ∧
      w.scheduler.runQueue = [⟨2, 2⟩, ⟨1, 1⟩] ∧ w.Suspendable (Board.pageBottom 1 + 200) ∧
      ∀ t decision, w.scheduler.reschedule (Board.pageBottom 1 + 200) ≠ .ok (t, decision) := by
  obtain ⟨w, hw⟩ := Option.isSome_iff_exists.mp
    (show (threeTasks.follow keepsRules manyWakes).isSome = true by decide +kernel)
  have hlast : (threeTasks.follow keepsRules manyWakes).map (fun w => (w.control,
      w.scheduler.runQueue, decide (w.Suspendable (Board.pageBottom 1 + 200)),
      (w.scheduler.reschedule (Board.pageBottom 1 + 200)).toOption.isNone)) =
        some (.leaving, [⟨2, 2⟩, ⟨1, 1⟩], true, true) := by decide +kernel
  simp only [hw, Option.map_some, Option.some.injEq, Prod.mk.injEq, decide_eq_true_eq] at hlast
  obtain ⟨hleaving, hrun, hpointer, hfails⟩ := hlast
  refine ⟨w, along_of_keepsRules hw, hleaving, hrun, hpointer, fun t decision hok => ?_⟩
  rw [hok] at hfails
  contradiction

end World

end CoopTasks

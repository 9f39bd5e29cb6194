import CoopTasks.Proofs.SleepCounts
import CoopTasks.Proofs.Fields

/-!
Where the time goes.

A timesheet tells what the time since the boot went by with, from one switch to
the next: with a context that executed, with waiting for an interrupt, or with
a switch itself.  It is kept by whoever watches the scheduler from outside.
The busy times of the records are the sums that it gives, no stretch of time is
in it twice, and so no busy time exceeds the clock (`Clocked.accounted`).
-/

namespace CoopTasks

/-! ## Timesheets -/

inductive Use where
  | busy (id : TaskId)
  | idle
  /-- From the reading of the clock at which one context stops to that at which the next goes on. -/
  | switching
  deriving DecidableEq, Repr

inductive TimeEntry where
  | spent (use : Use) (since till : Instant)
  /-- From here on the busy time of a slot is that of another run. -/
  | started (slot : Nat)
  deriving DecidableEq, Repr

/-- The entries, latest first, leave no gap and no overlap between the boot and an instant. -/
def Covers : List TimeEntry → Instant → Prop
  | [], now => now = Instant.zero
  | .spent _ since till :: older, now => till = now ∧ since ≤ now ∧ Covers older since
  | .started _ :: older, now => Covers older now

def timeSpent (counts : Use → Bool) : List TimeEntry → Nat
  | [] => 0
  | .spent use since till :: older =>
      (if counts use then till.toNat - since.toNat else 0) + timeSpent counts older
  | .started _ :: older => timeSpent counts older

def Use.isBusy : Use → Bool
  | .busy _ => true
  | .idle | .switching => false

def timeBusy : List TimeEntry → Nat :=
  timeSpent Use.isBusy

def timeIdle : List TimeEntry → Nat :=
  timeSpent (· == .idle)

def timeSwitching : List TimeEntry → Nat :=
  timeSpent (· == .switching)

def busyIn (slot : Nat) : List TimeEntry → Nat
  | [] => 0
  | .spent (.busy id) since till :: older =>
      (if id.index = slot then till.toNat - since.toNat else 0) + busyIn slot older
  | .spent _ _ _ :: older => busyIn slot older
  | .started other :: older => if other = slot then 0 else busyIn slot older

theorem Covers.total {entries : List TimeEntry} {now : Instant} (h : Covers entries now) :
    timeBusy entries + timeIdle entries + timeSwitching entries = now.toNat := by
  unfold timeBusy timeIdle timeSwitching
  induction entries generalizing now with
  | nil => simp [show now = Instant.zero from h, timeSpent]
  | cons entry older ih =>
      cases entry with
      | started slot => exact ih h
      | spent use since till =>
          obtain ⟨rfl, hle, holder⟩ := h
          have hsum := ih holder
          rw [Instant.le_iff] at hle
          cases use <;> simp [timeSpent, Use.isBusy] <;> omega

theorem timeSpent_append (counts : Use → Bool) (added entries : List TimeEntry) :
    timeSpent counts (added ++ entries) = timeSpent counts added + timeSpent counts entries := by
  induction added with
  | nil => simp [timeSpent]
  | cons entry older ih => cases entry <;> simp [timeSpent, ih, Nat.add_assoc]

theorem busyIn_le (slot : Nat) (entries : List TimeEntry) :
    busyIn slot entries ≤ timeBusy entries := by
  unfold timeBusy
  induction entries with
  | nil => exact Nat.le_refl 0
  | cons entry older ih =>
      cases entry with
      | started other =>
          simp only [busyIn, timeSpent]
          split <;> omega
      | spent use since till =>
          cases use with
          | busy id =>
              simp only [busyIn, timeSpent, Use.isBusy, if_true]
              split <;> omega
          | idle | switching => simpa [busyIn, timeSpent, Use.isBusy] using ih

theorem Covers.busyIn_le {entries : List TimeEntry} {now : Instant} (h : Covers entries now)
    (slot : Nat) : busyIn slot entries ≤ now.toNat := by
  have htotal := h.total
  have hle := CoopTasks.busyIn_le slot entries
  omega

/-! ## Who is on duty -/

/-- The context that executes, or that nobody does, and since when. -/
inductive Shift where
  | working (id : TaskId) (since : Instant)
  | idle (since : Instant)
  deriving DecidableEq, Repr

namespace Shift

def since : Shift → Instant
  | .working _ since | .idle since => since

def isWorking : Shift → Bool
  | .working .. => true
  | .idle _ => false

end Shift

namespace Scheduler

variable {H : Type}

def executing (s : Scheduler H) : TaskId :=
  s.runQueue.head?.getD .mainline

variable [Hardware H]

def turnover (s t : Scheduler H) : Decision → List TimeEntry × Shift
  | .idle => ([], .idle s.now)
  | .resume _ =>
      -- the clock is not read again for the mainline, which has the switch to its account
      if t.runQueue = [] then ([], .working .mainline s.now)
      else ([.spent .switching s.now t.now], .working t.executing t.now)

/--
What an operation adds to the timesheet, and who is on duty afterwards.  Only
who executes starts tasks and switches, and only while nobody does is there
something to poll; interrupts come at any time.
-/
def clock (shift : Shift) (s t : Scheduler H) :
    Operation → Option Decision → Option (List TimeEntry × Shift)
  | .spawn stack _, _ =>
      if shift.isWorking then
        some (((s.chooseSlot stack).map TimeEntry.started).toList, shift)
      else none
  | .reschedule _, decision =>
      match shift, decision with
      | .working id since, some decision =>
          let next := s.turnover t decision
          some (next.1 ++ [.spent (.busy id) since s.now], next.2)
      | _, _ => none
  | .dispatch, decision =>
      match shift, decision with
      | .idle _, some .idle => some ([], shift)
      | .idle since, some (.resume _) =>
          some ([.spent .idle since s.now], .working t.executing s.now)
      | _, _ => none
  | op, _ => if op.interrupts || shift.isWorking then some ([], shift) else none

/--
Runs with their timesheets, on a clock that never goes back.  If it stands
still during operations, they take no time.
-/
inductive Clocked (still : Bool) : List TimeEntry → Shift → Scheduler H → Prop
  | boot {hardware : H} : Clocked still [] (.working .mainline Instant.zero) (new hardware)
  | elapse {entries : List TimeEntry} {shift : Shift} {s : Scheduler H} {hardware : H} :
      Clocked still entries shift s →
      s.now ≤ Hardware.now hardware →
      Clocked still entries shift { s with hardware }
  | perform {entries added : List TimeEntry} {shift shift' : Shift} {s t : Scheduler H}
      {op : Operation} {decision : Option Decision} :
      Clocked still entries shift s →
      s.perform op = .ok (t, decision) →
      s.now ≤ t.now →
      (still = true → t.now = s.now) →
      clock shift s t op decision = some (added, shift') →
      Clocked still (added ++ entries) shift' t

variable {s t u : Scheduler H} {id : TaskId} {entries added : List TimeEntry} {shift shift' : Shift}
variable {still : Bool} {since : Instant}

theorem Clocked.reachable (h : Clocked still entries shift s) : Reachable s := by
  induction h with
  | boot => exact .new
  | elapse _ _ ih => exact ih.elapse
  | perform _ hok _ _ _ ih => exact ih.perform hok

/-! ## The anchor of the accounts -/

omit [Hardware H] in
theorem attemptWait_tasks {w w' : Signal} {result : WaitResult}
    (hok : s.attemptWait w = .ok (t, w', result)) : ∃ tasks, t = { s with tasks } := by
  unfold attemptWait at hok
  dsimp only at hok
  split at hok
  · obtain ⟨rfl, _⟩ := Prod.mk.inj (Except.ok.inj hok)
    exact ⟨s.tasks, rfl⟩
  · simp only [bind_eq_ok] at hok
    obtain ⟨_, _, hok⟩ := hok
    split at hok
    · simp only [bind_eq_ok, pure_eq_ok, Prod.mk.injEq] at hok
      obtain ⟨u, hmark, rfl, _⟩ := hok
      obtain ⟨_, _, _, rfl⟩ := markAsleep_eq_ok hmark
      exact ⟨_, rfl⟩
    · obtain ⟨rfl, _⟩ := Prod.mk.inj (Except.ok.inj hok)
      exact ⟨s.tasks, rfl⟩

theorem tasks_of_perform {op : Operation} {decision : Option Decision}
    (hok : s.perform op = .ok (t, decision)) (hplain : op.plain = true)
    (hcalls : op.interrupts = false) : ∃ tasks, t = { s with tasks } := by
  cases op <;> simp only [Scheduler.perform, bind_eq_ok, pure_eq_ok, Prod.mk.injEq,
    Prod.exists] at hok
  case spawn | reschedule | dispatch | wake | post | handleAlarm => contradiction
  case markExiting =>
      obtain ⟨u, hmark, rfl, _⟩ := hok
      obtain ⟨_, _, rfl⟩ := markExiting_eq_ok hmark
      exact ⟨_, rfl⟩
  case markAsleep =>
      obtain ⟨u, hmark, rfl, _⟩ := hok
      obtain ⟨_, _, _, rfl⟩ := markAsleep_eq_ok hmark
      exact ⟨_, rfl⟩
  case attemptWait =>
      obtain ⟨u, signal, result, hattempt, rfl, _⟩ := hok
      exact attemptWait_tasks hattempt
  case attemptJoin =>
      obtain ⟨u, result, hattempt, rfl, _⟩ := hok
      unfold Scheduler.attemptJoin at hattempt
      simp only [bind_eq_ok, pure_eq_ok, Prod.mk.injEq, Prod.exists] at hattempt
      obtain ⟨_, _, _, _, _, _, v, completion, _, hwait, rfl, _⟩ := hattempt
      obtain ⟨tasks, rfl⟩ := attemptWait_tasks hwait
      exact ⟨_, rfl⟩
  case tryJoin =>
      obtain ⟨u, code, htry, rfl, _⟩ := hok
      obtain ⟨_, rfl, _⟩ := tryJoin_eq_ok htry
      exact ⟨_, rfl⟩

theorem Dispatched.now {decision : Decision} (h : Dispatched s t decision) :
    t.now = s.now :=
  congrArg Hardware.now h.hardware

theorem Standing.resumedAt_reschedule (hs : s.Standing) {pointer : Address} {decision : Decision}
    (hok : s.reschedule pointer = .ok (t, decision)) :
    t.resumedAt = if t.runQueue = [] then s.now else t.now := by
  unfold Scheduler.reschedule at hok
  simp only [bind_eq_ok, Prod.exists] at hok
  obtain ⟨u, id, hsuspend, v, hsettle, w, hrearm, hdispatch⟩ := hok
  obtain ⟨rest, hsuspended⟩ := hs.suspend hsuspend
  have hlt := hsuspended.index_lt hs
  have hsettled := hsuspended.placed.settle hlt (hsuspended.current hs) hsettle
  obtain ⟨hw, woken, hrearmed⟩ := hsettled.standing.rearm hrearm
  have hdispatched := hw.dispatch hdispatch
  rw [hw.resumedAt_dispatch hdispatch, hrearmed.wakes.resumedAt,
    hsuspended.placed.resumedAt_settle hlt hsettle, hsuspended.resumedAt,
    hdispatched.runQueue_eq, hdispatched.now]

/-! ## Turns -/

def OnDuty (s : Scheduler H) : Shift → Prop
  | .working id _ => s.Manned ∧ s.executing = id
  | .idle _ => s.runQueue ≠ [] ∨ s.sleepers ≠ []

omit [Hardware H] in
theorem Manned.executing_wakes (h : s.Manned) (hs : s.Standing) {ids : List TaskId}
    (hwakes : Wakes s ids t) : t.executing = s.executing := by
  refine (hwakes.preserves (P := fun t => t.Standing ∧ t.Manned ∧ t.executing = s.executing) ?_ ?_
    ⟨hs, h, rfl⟩).2.2
  · intro t u hmoved ⟨ht, hmanned, hsame⟩
    refine ⟨hmoved.standing ht, ?_, ?_⟩
    · refine hmanned.congr hmoved.runQueue_eq hmoved.sleepers_eq fun _ => ?_
      rw [hmoved.tasks]
    · rw [executing, hmoved.runQueue_eq]
      exact hsame
  · intro t id u hwoke ⟨ht, hmanned, hsame⟩
    refine ⟨hwoke.standing, hmanned.woke ht hwoke, ?_⟩
    rw [executing, hmanned.head_woke ht hwoke]
    exact hsame

omit [Hardware H] in
theorem Wakes.not_drained {ids : List TaskId} (h : Wakes s ids t) (hs : s.Standing)
    (hleft : s.runQueue ≠ [] ∨ s.sleepers ≠ []) : t.runQueue ≠ [] ∨ t.sleepers ≠ [] := by
  refine (h.preserves (P := fun t => t.Standing ∧ (t.runQueue ≠ [] ∨ t.sleepers ≠ [])) ?_ ?_
    ⟨hs, hleft⟩).2
  · intro t u hmoved ⟨ht, hleft⟩
    rw [hmoved.runQueue_eq, hmoved.sleepers_eq]
    exact ⟨hmoved.standing ht, hleft⟩
  · intro t id u hwoke ⟨ht, _⟩
    exact ⟨hwoke.standing, .inl (List.ne_nil_of_mem (hwoke.mem_runQueue ht))⟩

omit [Hardware H] in
theorem Attempted.exists_unswitched {w w' : Signal} {result : WaitResult}
    (h : Attempted s w t w' result) (hs : s.Standing) :
    ∃ id slept, Unswitched s id slept t := by
  cases h with
  | acquired _ | busy _ _ _ _ _ => exact ⟨.mainline, 0, .refl hs _⟩
  | parked _ _ _ _ _ hmoved _ =>
      exact ⟨_, 1, hmoved.unswitched (fun _ => rfl) fun _ => rfl⟩

theorem Performed.wakes_or_unswitched {op : Operation} {decision : Option Decision}
    (h : Performed s op t decision) (hs : s.Standing) (hplain : op.plain = true) :
    (∃ ids, Wakes s ids t) ∨ op.interrupts = false ∧ ∃ id slept, Unswitched s id slept t := by
  cases h with
  | refused | started _ | switched _ | dispatched _ => contradiction
  | exiting _ _ hmoved =>
      exact .inr ⟨rfl, _, 0, hmoved.unswitched (fun _ => rfl) fun _ => (Int.add_zero _).symm⟩
  | asleep _ _ hmoved =>
      exact .inr ⟨rfl, _, 1, hmoved.unswitched (fun _ => rfl) fun _ => rfl⟩
  | woken hwake =>
      obtain ⟨ids, hwakes⟩ := hs.wakes_of_wake hwake
      exact .inl ⟨_, hwakes⟩
  | posted hwake => exact .inl (hs.wakes_of_wakeWaiter hwake)
  | attempted hattempted => exact .inr ⟨rfl, hattempted.exists_unswitched hs⟩
  | joined hattempted _ hmoved =>
      obtain ⟨id, slept, hu⟩ := hattempted.exists_unswitched hs
      exact .inr ⟨rfl, id, slept,
        hu.trans (hmoved.unswitched (fun _ => rfl) fun _ => (Int.add_zero _).symm)⟩
  | tried _ hmoved =>
      exact .inr ⟨rfl, _, 0, hmoved.unswitched (fun _ => rfl) fun _ => (Int.add_zero _).symm⟩
  | handled halarm => exact .inl (hs.wakes_of_handleAlarm halarm)

theorem OnDuty.plain (h : s.OnDuty shift) (hs : s.Standing) {op : Operation}
    {decision : Option Decision} (hok : s.perform op = .ok (t, decision)) (hplain : op.plain = true)
    (hturn : (op.interrupts || shift.isWorking) = true) :
    t.OnDuty shift ∧ t.resumedAt = s.resumedAt := by
  rcases (hs.perform hok).wakes_or_unswitched hs hplain with
    ⟨ids, hwakes⟩ | ⟨hcalls, _, _, hsame⟩
  · refine ⟨?_, hwakes.resumedAt⟩
    cases shift with
    | working id since =>
        exact ⟨h.1.wakes hs hwakes, (h.1.executing_wakes hs hwakes).trans h.2⟩
    | idle since => exact hwakes.not_drained hs h
  · obtain ⟨tasks, ht⟩ := tasks_of_perform hok hplain hcalls
    refine ⟨?_, by rw [ht]⟩
    cases shift with
    | working id since =>
        refine ⟨h.1.congr hsame.runQueue hsame.sleepers hsame.state, ?_⟩
        rw [executing, hsame.runQueue]
        exact h.2
    | idle since =>
        rw [hcalls] at hturn
        contradiction

omit [Hardware H] in
theorem Dispatched.pointer_executing {pointer : Address} (h : Dispatched s t (.resume pointer)) :
    (t.record t.executing).pointer = pointer := by
  have hfield := h.field TaskRecord.pointer fun _ _ => rfl
  cases h with
  | @resumed _ next hhead _ hmoved _ =>
      have hnext : t.executing = next := by
        rw [executing, hmoved.runQueue, hhead]
        rfl
      rw [hnext]
      exact hfield next.index
  | drained _ _ _ hmoved _ =>
      have hmainline : t.executing = .mainline := by
        rw [executing, hmoved.runQueue]
        rfl
      rw [hmainline]
      exact hfield 0

/-! ## The books -/

/-- The timesheet and the busy times tell the same, up to the switch at which the shift began. -/
structure Booked (entries : List TimeEntry) (shift : Shift) (s : Scheduler H) : Prop where
  covers : Covers entries shift.since
  anchor : s.resumedAt = shift.since
  onward : shift.since ≤ s.now
  busy : ∀ slot, (s.tasks.record slot).busyTime.toNat = busyIn slot entries
  onDuty : s.OnDuty shift

theorem booked_new (hardware : H) :
    Booked [] (.working .mainline Instant.zero) (new hardware) where
  covers := rfl
  anchor := rfl
  onward := by
    rw [Instant.le_iff]
    exact Nat.zero_le _
  busy := by
    intro slot
    rw [show (new hardware).tasks.record slot = TaskRecord.vacant from
      TaskTable.record_vacant slot]
    rfl
  onDuty := ⟨⟨fun _ => rfl, fun _ hhead => by contradiction⟩, rfl⟩

theorem Booked.elapse (h : Booked entries shift s) {hardware : H}
    (honward : s.now ≤ Hardware.now hardware) : Booked entries shift { s with hardware } := by
  refine ⟨h.covers, h.anchor, Instant.le_trans h.onward honward, h.busy, ?_⟩
  cases shift with
  | working id since => exact ⟨h.onDuty.1.congr rfl rfl fun _ => rfl, h.onDuty.2⟩
  | idle since => exact h.onDuty

theorem Booked.fits (h : Booked entries shift s) (slot : Nat) :
    (s.tasks.record slot).busyTime.toNat + (s.now.since s.resumedAt).toNat ≤ s.now.toNat := by
  have hle := h.covers.busyIn_le slot
  have honward := Instant.le_iff.mp h.onward
  rw [h.busy, Instant.toNat_since, h.anchor]
  omega

omit [Hardware H] in
theorem executing_of_cons {rest : List TaskId} (hrun : s.runQueue = id :: rest) :
    s.executing = id := by
  rw [executing, hrun]
  rfl

theorem Booked.suspend (h : Booked entries (.working id since) s) (hs : s.Standing)
    (hrun : s.runQueue ≠ []) (pointer : Address) :
    ∃ u rest, s.suspend pointer = .ok (u, id) ∧ Suspended s pointer id rest u := by
  obtain ⟨head, rest, hcons⟩ := List.exists_cons_of_ne_nil hrun
  obtain rfl := (executing_of_cons hcons).symm.trans h.onDuty.2
  obtain ⟨u, hok, hsuspended⟩ := hs.suspend_of_fits hcons
    (Nat.lt_of_le_of_lt (h.fits head.index) s.now.toNat_lt) pointer
  exact ⟨u, rest, hok, hsuspended⟩

theorem Booked.reschedule (h : Booked entries (.working id since) s) (hs : s.Standing)
    {pointer : Address} {decision : Decision} (hok : s.reschedule pointer = .ok (t, decision)) :
    ∃ rest woken u v w, Switched s pointer t decision id rest woken u v w := by
  obtain ⟨head, rest, woken, u, v, w, hswitched⟩ := hs.reschedule hok
  obtain rfl := (executing_of_cons hswitched.suspended.runQueue).symm.trans h.onDuty.2
  exact ⟨rest, woken, u, v, w, hswitched⟩

theorem Booked.charged (h : Booked entries (.working id since) s) {pointer : Address}
    {rest : List TaskId} (hsuspended : Suspended s pointer id rest u) (slot : Nat) :
    (u.tasks.record slot).busyTime.toNat =
      busyIn slot (.spent (.busy id) since s.now :: entries) := by
  have hfits := h.fits slot
  have hlt := s.now.toNat_lt
  rw [hsuspended.record slot, busyIn, ← h.busy slot]
  by_cases he : slot = id.index
  · rw [if_pos he, if_pos he.symm]
    show ((s.tasks.record slot).busyTime + s.now.since s.resumedAt).toNat = _
    rw [UInt64.toNat_add, Nat.mod_eq_of_lt (Nat.lt_of_le_of_lt hfits hlt), Instant.toNat_since,
      h.anchor, Nat.add_comm]
    rfl
  · rw [if_neg he, if_neg (Ne.symm he), Nat.zero_add]

/-! ## Steps -/

omit [Hardware H] in
theorem inert_busyTime : TaskRecord.Inert TaskRecord.busyTime :=
  ⟨fun _ _ => rfl, fun _ _ _ => rfl, fun _ _ => rfl⟩

theorem Booked.switched (h : Booked entries (.working id since) s) (hs : s.Standing)
    {pointer : Address} {decision : Decision} (hok : s.reschedule pointer = .ok (t, decision))
    (honward : s.now ≤ t.now) :
    Booked ((s.turnover t decision).1 ++ .spent (.busy id) since s.now :: entries)
      (s.turnover t decision).2 t := by
  obtain ⟨rest, woken, u, v, w, hswitched⟩ := h.reschedule hs hok
  have hcovers : Covers (.spent (.busy id) since s.now :: entries) s.now :=
    ⟨rfl, h.onward, h.covers⟩
  have hbusy : ∀ slot, (t.tasks.record slot).busyTime.toNat =
      busyIn slot (.spent (.busy id) since s.now :: entries) := by
    intro slot
    rw [hswitched.inert inert_busyTime fun _ _ _ => rfl]
    exact h.charged hswitched.suspended slot
  have hanchor := hs.resumedAt_reschedule hok
  have hdispatched := hswitched.dispatched
  have hrun := hdispatched.runQueue_eq
  cases hdispatched with
  | resumed hhead hlive hmoved hhardware =>
      have hnext : t.runQueue ≠ [] := by
        rw [hrun]
        exact List.ne_nil_of_mem (List.mem_of_head? hhead)
      rw [if_neg hnext] at hanchor
      rw [turnover, if_neg hnext]
      exact ⟨⟨rfl, honward, hcovers⟩, hanchor, Instant.le_refl _, hbusy,
        Dispatched.manned (.resumed hhead hlive hmoved hhardware) nofun, rfl⟩
  | drained hnil hsleep hpointer hmoved hhardware =>
      have hnobody := hrun.trans hnil
      rw [if_pos hnobody] at hanchor
      rw [turnover, if_pos hnobody]
      refine ⟨hcovers, hanchor, honward, hbusy,
        Dispatched.manned (.drained hnil hsleep hpointer hmoved hhardware) nofun, ?_⟩
      rw [executing, hnobody]
      rfl
  | idle hnil hsleep =>
      rw [if_pos hnil] at hanchor
      exact ⟨hcovers, hanchor, honward, hbusy, .inr hsleep⟩

theorem Booked.polled (h : Booked entries (.idle since) s) (hs : s.Standing)
    {decision : Decision} (hok : s.dispatch = .ok (t, decision))
    (hclock : clock (.idle since) s t .dispatch (some decision) = some (added, shift')) :
    Booked (added ++ entries) shift' t := by
  have hanchor := hs.resumedAt_dispatch hok
  have hdispatched := hs.dispatch hok
  have hnow := hdispatched.now
  have hbusy : ∀ slot, (t.tasks.record slot).busyTime.toNat = busyIn slot entries := by
    intro slot
    rw [hdispatched.field TaskRecord.busyTime fun _ _ => rfl]
    exact h.busy slot
  cases hdispatched with
  | resumed hhead hlive hmoved hhardware =>
      obtain ⟨rfl, rfl⟩ := Prod.mk.inj (Option.some.inj hclock)
      rw [if_neg (List.ne_nil_of_mem (List.mem_of_head? hhead))] at hanchor
      refine ⟨⟨rfl, h.onward, h.covers⟩, hanchor, ?_, hbusy,
        Dispatched.manned (.resumed hhead hlive hmoved hhardware) nofun, rfl⟩
      rw [hnow]
      exact Instant.le_refl _
  | drained hnil hsleep _ _ _ =>
      rcases h.onDuty with hrun | hsleeps
      · exact absurd hnil hrun
      · exact absurd hsleep hsleeps
  | idle _ _ =>
      obtain ⟨rfl, rfl⟩ := Prod.mk.inj (Option.some.inj hclock)
      exact h

theorem Started.executing_eq {stack : StackRange} {pointer : Address}
    (h : Started s stack pointer id t) : t.executing = s.executing := by
  unfold executing
  rw [h.runQueue, admitted]
  cases s.runQueue with
  | nil => rfl
  | cons first rest => rfl

theorem Booked.started (h : Booked entries (.working id since) s) (hs : s.Standing)
    {stack : StackRange} {pointer : Address} {new : TaskId}
    (hstarted : Started s stack pointer new t) (honward : s.now ≤ t.now) :
    Booked (.started new.index :: entries) (.working id since) t := by
  refine ⟨h.covers, hstarted.resumedAt.trans h.anchor, Instant.le_trans h.onward honward, ?_,
    hstarted.manned hs h.onDuty.1, ?_⟩
  · intro slot
    rw [busyIn]
    by_cases he : slot = new.index
    · subst he
      rw [if_pos rfl, show t.tasks.record new.index = _ from hstarted.self]
      rfl
    · rw [if_neg (Ne.symm he), ← h.busy slot]
      by_cases hzero : slot = 0
      · subst hzero
        rw [show t.tasks.record 0 = _ from hstarted.mainline]
        split <;> rfl
      · rw [hstarted.other slot hzero he]
  · exact hstarted.executing_eq.trans h.onDuty.2

theorem Standing.spawn_cases (hs : s.Standing) {stack : StackRange} {pointer : Address}
    {outcome : Except StartError TaskId} (hok : s.spawn stack pointer = .ok (t, outcome)) :
    s.chooseSlot stack = none ∧ t = s ∨
      ∃ new : TaskId, s.chooseSlot stack = some new.index ∧ Started s stack pointer new t := by
  rcases hs.spawn hok with ⟨rfl, rfl⟩ | ⟨new, _, hstarted⟩
  · refine .inl ⟨?_, rfl⟩
    unfold Scheduler.spawn at hok
    simp only [bind_eq_ok] at hok
    obtain ⟨_, _, hok⟩ := hok
    split at hok
    · assumption
    · simp only [bind_eq_ok, pure_eq_ok, Prod.mk.injEq, reduceCtorEq, and_false,
        exists_false] at hok
  · exact .inr ⟨new, hstarted.chosen, hstarted⟩

theorem Booked.plain (h : Booked entries shift s) (hs : s.Standing) {op : Operation}
    {decision : Option Decision} (hok : s.perform op = .ok (t, decision)) (hplain : op.plain = true)
    (honward : s.now ≤ t.now) (hturn : (op.interrupts || shift.isWorking) = true) :
    Booked entries shift t := by
  obtain ⟨honDuty, hanchor⟩ := h.onDuty.plain hs hok hplain hturn
  refine ⟨h.covers, hanchor.trans h.anchor, Instant.le_trans h.onward honward, ?_, honDuty⟩
  intro slot
  rw [(hs.perform hok).inert hs inert_busyTime (by cases op <;> first | rfl | contradiction)
    (by cases op <;> first | rfl | contradiction) fun _ _ _ => rfl]
  exact h.busy slot

theorem clock_plain {op : Operation} {decision : Option Decision} (hplain : op.plain = true)
    (hclock : clock shift s t op decision = some (added, shift')) :
    (op.interrupts || shift.isWorking) = true ∧ added = [] ∧ shift' = shift := by
  have hsame : clock shift s t op decision =
      if op.interrupts || shift.isWorking then some ([], shift) else none := by
    cases op <;> first | rfl | contradiction
  obtain ⟨hturn, hnothing⟩ := Option.ite_none_right_eq_some.mp (hsame.symm.trans hclock)
  obtain ⟨rfl, rfl⟩ := Prod.mk.inj (Option.some.inj hnothing)
  exact ⟨hturn, rfl, rfl⟩

theorem Booked.perform (h : Booked entries shift s) (hs : s.Standing) {op : Operation}
    {decision : Option Decision} (hok : s.perform op = .ok (t, decision)) (honward : s.now ≤ t.now)
    (hclock : clock shift s t op decision = some (added, shift')) :
    Booked (added ++ entries) shift' t := by
  cases op with
  | spawn stack pointer =>
      obtain ⟨⟨outcome, hspawn⟩, _⟩ := perform_spawn_eq_ok.mp hok
      cases shift with
      | idle since => contradiction
      | working id since =>
          obtain ⟨rfl, rfl⟩ := Prod.mk.inj (Option.some.inj hclock)
          rcases hs.spawn_cases hspawn with ⟨hrefused, rfl⟩ | ⟨new, hchosen, hstarted⟩
          · rw [hrefused]
            exact h
          · rw [hchosen]
            exact h.started hs hstarted honward
  | reschedule pointer =>
      obtain ⟨made, hreschedule, rfl⟩ := perform_reschedule_eq_ok.mp hok
      cases shift with
      | idle since => contradiction
      | working id since =>
          obtain ⟨rfl, rfl⟩ := Prod.mk.inj (Option.some.inj hclock)
          rw [List.append_assoc]
          exact h.switched hs hreschedule honward
  | dispatch =>
      obtain ⟨made, hdispatch, rfl⟩ := perform_dispatch_eq_ok.mp hok
      cases shift with
      | idle since => exact h.polled hs hdispatch hclock
      | working id since => contradiction
  | _ =>
      obtain ⟨hturn, rfl, rfl⟩ := clock_plain rfl hclock
      exact h.plain hs hok rfl honward hturn

theorem Clocked.booked (h : Clocked still entries shift s) : Booked entries shift s := by
  induction h with
  | @boot hardware => exact booked_new hardware
  | elapse _ honward ih => exact ih.elapse honward
  | perform hclocked hok honward _ hclock ih =>
      exact ih.perform hclocked.reachable.invariants.1 hok honward hclock

/-! ## A clock that stands still during operations -/

theorem timeSwitching_turnover (hstill : t.now = s.now) (decision : Decision) :
    timeSwitching (s.turnover t decision).1 = 0 := by
  cases decision with
  | idle => rfl
  | resume pointer =>
      by_cases hnil : t.runQueue = []
      · rw [turnover, if_pos hnil]
        rfl
      · rw [turnover, if_neg hnil]
        simp only [timeSwitching, timeSpent, hstill, Nat.sub_self, ite_self]

theorem timeSwitching_clock {op : Operation} {decision : Option Decision}
    (hclock : clock shift s t op decision = some (added, shift')) (hstill : t.now = s.now) :
    timeSwitching added = 0 := by
  cases op with
  | spawn stack pointer =>
      obtain ⟨_, hstarted⟩ := Option.ite_none_right_eq_some.mp hclock
      obtain ⟨rfl, _⟩ := Prod.mk.inj (Option.some.inj hstarted)
      cases s.chooseSlot stack with
      | none => rfl
      | some slot => rfl
  | reschedule pointer =>
      cases shift with
      | idle since => contradiction
      | working id since =>
          cases decision with
          | none => contradiction
          | some decision =>
              obtain ⟨rfl, _⟩ := Prod.mk.inj (Option.some.inj hclock)
              have hturnover := timeSwitching_turnover hstill decision
              unfold timeSwitching at hturnover ⊢
              rw [timeSpent_append, hturnover]
              rfl
  | dispatch =>
      cases shift with
      | working id since => cases decision <;> contradiction
      | idle since =>
          cases decision with
          | none => contradiction
          | some decision =>
              cases decision with
              | idle | resume pointer =>
                  obtain ⟨rfl, _⟩ := Prod.mk.inj (Option.some.inj hclock)
                  rfl
  | _ =>
      obtain ⟨_, rfl, _⟩ := clock_plain rfl hclock
      rfl

theorem Clocked.timeSwitching_eq (h : Clocked still entries shift s) (hstill : still = true) :
    timeSwitching entries = 0 := by
  induction h with
  | boot => rfl
  | elapse _ _ ih => exact ih
  | perform _ _ _ hsame hclock ih =>
      have hadded := timeSwitching_clock hclock (hsame hstill)
      unfold timeSwitching at hadded ih ⊢
      rw [timeSpent_append, hadded, ih]

/-! ## The whole account -/

/-- From one state to the next a context is charged for its shift, and nobody else for anything. -/
structure Charges (s : Scheduler H) (id : TaskId) (since : Instant) (t : Scheduler H) : Prop where
  own : (t.record id).busyTime.toNat =
    (s.record id).busyTime.toNat + (s.now.toNat - since.toNat)
  others : ∀ slot, slot ≠ id.index →
    (t.tasks.record slot).busyTime = (s.tasks.record slot).busyTime

theorem Booked.charges (h : Booked entries (.working id since) s) {pointer : Address}
    {rest : List TaskId} (hsuspended : Suspended s pointer id rest u) : Charges s id since u where
  own := by
    have hself := h.charged hsuspended id.index
    rw [busyIn, if_pos rfl, ← h.busy id.index, Nat.add_comm] at hself
    exact hself
  others := by
    intro slot hne
    rw [hsuspended.record slot, if_neg hne]

theorem Booked.charges_switched (h : Booked entries (.working id since) s) (hs : s.Standing)
    {pointer : Address} {decision : Decision} (hok : s.reschedule pointer = .ok (t, decision)) :
    Charges s id since t := by
  obtain ⟨rest, woken, u, v, w, hswitched⟩ := h.reschedule hs hok
  have hcharges := h.charges hswitched.suspended
  have hsame : ∀ slot, (t.tasks.record slot).busyTime = (u.tasks.record slot).busyTime :=
    fun slot => hswitched.inert inert_busyTime fun _ _ _ => rfl
  refine ⟨?_, fun slot hne => (hsame slot).trans (hcharges.others slot hne)⟩
  rw [← hcharges.own]
  exact congrArg UInt64.toNat (hsame id.index)

/--
What holds in a run with a timesheet.  Whenever the context on duty switches,
it can be charged for its shift, and the time since the boot is then what all
contexts have been charged, what was idle, and what was spent in switches.
-/
structure Accounted (s : Scheduler H) (still : Bool) (entries : List TimeEntry) (shift : Shift) :
    Prop where
  covers : Covers entries shift.since ∧ shift.since ≤ s.now
  busy : ∀ slot, (s.tasks.record slot).busyTime.toNat = busyIn slot entries
  still : still = true → timeSwitching entries = 0
  onDuty : ∀ id since, shift = .working id since → s.executing = id
  resumed : ∀ op t pointer, s.perform op = .ok (t, some (.resume pointer)) →
    (t.record t.executing).pointer = pointer
  charged : ∀ id since pointer, shift = .working id since → s.runQueue ≠ [] →
    ∃ u, s.suspend pointer = .ok (u, id) ∧ Charges s id since u
  switched : ∀ id since pointer t decision, shift = .working id since →
    s.reschedule pointer = .ok (t, decision) → Charges s id since t
  conserved : ∀ id since, shift = .working id since →
    timeBusy (.spent (.busy id) since s.now :: entries) + timeIdle entries +
      timeSwitching entries = s.now.toNat

/-- Time is conserved: what has gone by was charged once, or was idle, or was spent in switches. -/
theorem Clocked.accounted (h : Clocked still entries shift s) :
    s.Accounted still entries shift := by
  have hbooked := h.booked
  have hs := h.reachable.invariants.1
  refine ⟨⟨hbooked.covers, hbooked.onward⟩, hbooked.busy, h.timeSwitching_eq, ?onDuty, ?resumed,
    ?charged, ?switched, ?conserved⟩
  case onDuty =>
    rintro id since rfl
    exact hbooked.onDuty.2
  case resumed =>
    intro op t pointer hok
    cases hs.perform hok with
    | switched hswitched => exact hswitched.dispatched.pointer_executing
    | dispatched hdispatched => exact hdispatched.pointer_executing
  case charged =>
    rintro id since pointer rfl hrun
    obtain ⟨u, rest, hok, hsuspended⟩ := hbooked.suspend hs hrun pointer
    exact ⟨u, hok, hbooked.charges hsuspended⟩
  case switched =>
    rintro id since pointer t decision rfl hok
    exact hbooked.charges_switched hs hok
  case conserved =>
    rintro id since rfl
    have hcovers : Covers (.spent (.busy id) since s.now :: entries) s.now :=
      ⟨rfl, hbooked.onward, hbooked.covers⟩
    have htotal := hcovers.total
    simpa [timeIdle, timeSwitching, timeSpent] using htotal

def clockAll (entries : List TimeEntry) (shift : Shift) (s : Scheduler Board) :
    List (Instant × Operation) → Option (List TimeEntry × Shift × Scheduler Board)
  | [] => some (entries, shift, s)
  | (time, op) :: rest =>
      let s := { s with hardware := s.hardware.advanceTo time }
      match s.perform op with
      | .error _ => none
      | .ok (t, decision) =>
          match clock shift s t op decision with
          | some (added, shift) =>
              if t.now = s.now then clockAll (added ++ entries) shift t rest else none
          | none => none

theorem le_now_advanceTo (s : Scheduler Board) (time : Instant) :
    s.now ≤ Hardware.now (s.hardware.advanceTo time) := by
  rw [Instant.le_iff]
  show s.hardware.clock.toNat ≤ (s.hardware.clock.latest time).toNat
  rw [Instant.toNat_latest]
  omega

theorem Clocked.clockAll {s t : Scheduler Board} {ops : List (Instant × Operation)}
    {entries entries' : List TimeEntry} {shift shift' : Shift} (h : Clocked true entries shift s)
    (hok : s.clockAll entries shift ops = some (entries', shift', t)) :
    Clocked true entries' shift' t := by
  induction ops generalizing entries shift s with
  | nil =>
      obtain ⟨rfl, rfl, rfl⟩ := Option.some.inj hok
      exact h
  | cons entry rest ih =>
      obtain ⟨time, op⟩ := entry
      unfold Scheduler.clockAll at hok
      dsimp only at hok
      split at hok
      · contradiction
      · rename_i hperform
        split at hok
        · rename_i hclock
          obtain ⟨hstill, hok⟩ := Option.ite_none_right_eq_some.mp hok
          refine ih (((h.elapse (s.le_now_advanceTo time)).perform hperform ?_ ?_ hclock)) hok
          · rw [hstill]
            exact Instant.le_refl _
          · exact fun _ => hstill
        · contradiction

def napped : Option (List TimeEntry × Shift × Scheduler Board) :=
  (new (Board.start ⟨10⟩)).clockAll [] (.working .mainline Instant.zero)
    [(⟨10⟩, .spawn ⟨0x20000000, 0x20000400⟩ 0x200003c8),
      (⟨10⟩, .reschedule Board.mainlinePointer), (⟨35⟩, .markAsleep ⟨100⟩),
      (⟨35⟩, .reschedule 0x20000380), (⟨100⟩, .handleAlarm), (⟨100⟩, .dispatch),
      (⟨130⟩, .markExiting 0)]

theorem accounted_napped :
    ∃ (entries : List TimeEntry) (s u : Scheduler Board),
      Clocked true entries (.working ⟨1, 1⟩ ⟨100⟩) s ∧ s.now = ⟨130⟩ ∧
      (s.record ⟨1, 1⟩).busyTime = 25 ∧ s.suspend 0x20000380 = .ok (u, ⟨1, 1⟩) ∧
      Charges s ⟨1, 1⟩ ⟨100⟩ u ∧ timeIdle entries = 65 ∧ timeSwitching entries = 0 ∧
      timeBusy (.spent (.busy ⟨1, 1⟩) ⟨100⟩ ⟨130⟩ :: entries) = 65 := by
  obtain ⟨⟨entries, shift, s⟩, hs⟩ := Option.isSome_iff_exists.mp
    (show napped.isSome = true by decide)
  have hfacts : napped.map (fun r => (r.2.1, r.2.2.now, (r.2.2.record ⟨1, 1⟩).busyTime,
      decide (r.2.2.runQueue ≠ []), timeIdle r.1)) =
        some (.working ⟨1, 1⟩ ⟨100⟩, ⟨130⟩, 25, true, 65) := by decide
  rw [hs] at hfacts
  simp only [Option.map_some, Option.some.injEq, Prod.mk.injEq, decide_eq_true_eq] at hfacts
  obtain ⟨rfl, hnow, hbusy, hrun, hidle⟩ := hfacts
  have hclocked : Clocked true entries (.working ⟨1, 1⟩ ⟨100⟩) s := Clocked.boot.clockAll hs
  have haccounted := hclocked.accounted
  obtain ⟨u, hok, hcharges⟩ := haccounted.charged ⟨1, 1⟩ ⟨100⟩ 0x20000380 rfl hrun
  have htotal := haccounted.conserved ⟨1, 1⟩ ⟨100⟩ rfl
  have hstill := haccounted.still rfl
  rw [hidle, hstill, hnow] at htotal
  refine ⟨entries, s, u, hclocked, hnow, hbusy, hok, hcharges, hidle, hstill, ?_⟩
  have hmicros : Instant.toNat ⟨130⟩ = 130 := rfl
  omega

end Scheduler

end CoopTasks

import CoopTasks.Proofs.Alarm
import CoopTasks.Proofs.Exchange
import CoopTasks.Proofs.Issuing
import CoopTasks.Proofs.Roster

/-!
Who executes next, told from a roster.

`r.Settles r'` is what becomes of a roster when its first task gives up the
processor: it goes to the end of the line, falls asleep or is gone.  A switch of
a kernel that shows `r` never fails, leads to one that shows `r'`, and resumes
the first of `r'` where that one was suspended (`Shows.reschedule`).  While
nobody is ready, the alarm goes off at the first deadline and its sleeper
executes (`Shows.ring`).
-/

namespace CoopTasks

open Scheduler

/-! ## The board -/

theorem Instant.after_zero (t : Instant) : t.after 0 = t := by
  have hlt := t.toNat_lt
  have hzero : (0 : UInt64).toNat = 0 := rfl
  rw [ext_iff_toNat, toNat_after, hzero]
  omega

namespace Board

variable {b b' : Board}

theorem driven (h : Hardware.Driven b b') : b'.clock = b.clock ∧ b'.lag = b.lag := by
  induction h with
  | none => exact ⟨rfl, rfl⟩
  | setAlarm _ _ ih | clearAlarm _ ih | readyDecisionStack _ ih => exact ih
  | @guardStack c stack _ ih =>
      have hsame : (c.guardStack stack).1.clock = c.clock ∧
          (c.guardStack stack).1.lag = c.lag := by
        unfold Board.guardStack
        split <;> exact ⟨rfl, rfl⟩
      exact ⟨hsame.1.trans ih.1, hsame.2.trans ih.2⟩
  | @unguardStack c d region _ hok ih =>
      simp only [Hardware.unguardStack, Board.unguardStack, bind_eq_ok, pure_eq_ok] at hok
      obtain ⟨_, _, rfl⟩ := hok
      exact ih

theorem accepts_of_lt (hlag : b.lag = 0) {deadline : Instant} (h : b.clock < deadline) :
    b.accepts deadline = true := by
  unfold accepts
  rw [hlag, Instant.after_zero, decide_eq_true_iff]
  exact h

end Board

namespace Scheduler

variable {H : Type} {s t u v w : Scheduler Board} {id : TaskId} {run sleep rest woken : List TaskId}
variable {pointer : Address} {change : TaskRecord → TaskRecord}

theorem Rearmed.alarmMoved_of_later (h : Rearmed s woken t) (hlag : s.hardware.lag = 0)
    (hlater : ∀ head, s.sleepers.head? = some head →
      (s.record head).wakeAt = Instant.never ∨ s.hardware.clock < (s.record head).wakeAt) :
    AlarmMoved s t := by
  cases h with
  | empty | kept => exact .refl s
  | accepted => exact ⟨rfl, rfl, rfl, rfl, rfl⟩
  | @refused _ u _ head _ ids hhead hstate hunarmed hrefused =>
      rw [Bool.or_eq_false_iff] at hunarmed
      have hlt := (hlater head hhead).resolve_left fun hnever => by
        rw [hnever] at hunarmed
        exact absurd hunarmed.1 (by decide)
      have haccepted : s.hardware.accepts (s.record head).wakeAt = false :=
        congrArg Prod.snd hrefused
      rw [Board.accepts_of_lt hlag hlt] at haccepted
      contradiction

section Settled

variable [Hardware H] {a b : Scheduler H}

theorem Settled.moved_mainline (h : Settled a id run sleep b) (hid : id.index = 0) :
    Moved a id (fun t => { t with state := .parked }) run sleep b := by
  cases h with
  | parked _ hmoved => exact hmoved
  | finished hne | asleep hne | requeued hne => exact absurd hid hne

theorem Settled.moved_awake (h : Settled a id run sleep b) (hid : id.index ≠ 0)
    (hexiting : (a.record id).exiting = false) (hawake : (a.record id).isSleeping = false) :
    Moved a id (fun t => { t with state := .ready }) (run ++ [id]) sleep b := by
  cases h with
  | parked hzero => exact absurd hzero hid
  | finished _ _ hends => rw [hexiting] at hends; contradiction
  | asleep _ _ _ hsleeps => rw [hawake] at hsleeps; contradiction
  | requeued _ _ _ _ hmoved => exact hmoved

theorem Settled.moved_asleep (h : Settled a id run sleep b) (hid : id.index ≠ 0)
    (hexiting : (a.record id).exiting = false) (hasleep : (a.record id).isSleeping = true) :
    Moved a id (fun t => { t with state := .sleeping }) run (a.bedded id sleep) b := by
  cases h with
  | parked hzero => exact absurd hzero hid
  | finished _ _ hends => rw [hexiting] at hends; contradiction
  | asleep _ _ _ _ hmoved => exact hmoved
  | requeued _ _ _ hawake => rw [hasleep] at hawake; contradiction

theorem Settled.moved_exiting (h : Settled a id run sleep b) (hid : id.index ≠ 0)
    (hexiting : (a.record id).exiting = true) :
    ∃ c, Moved a id TaskRecord.finished run sleep c ∧
      c.wakeWaiter (a.record id).completion.waiter = .ok b := by
  cases h with
  | parked hzero => exact absurd hzero hid
  | finished _ _ _ _ hmoved _ hwake => exact ⟨_, hmoved, hwake⟩
  | asleep _ _ hstays => rw [hexiting] at hstays; contradiction
  | requeued _ _ hstays => rw [hexiting] at hstays; contradiction

end Settled

end Scheduler

/-! ## What becomes of a roster -/

def Part.ended (part : Part) (code : UInt32) : Part :=
  { part with mood := .gone code, completion := part.completion.latch.1 }

namespace Roster

/-- What becomes of a roster when its first task gives up the processor. -/
inductive Settles (r : Roster) : Roster → Prop
  | parked {rest : List TaskId} :
      r.run = .mainline :: rest →
      Settles r { r with run := rest }
  | requeued {id : TaskId} {rest : List TaskId} {part : Part} :
      r.run = id :: rest →
      r.part? id.index = some part →
      part.mood = .awake →
      Settles r { r with run := rest ++ [id] }
  | endless {id : TaskId} {rest : List TaskId} {part : Part} :
      r.run = id :: rest →
      r.part? id.index = some part →
      part.mood = .drowsy .never →
      Settles r { r with run := rest, sleep := r.sleep ++ [id] }
  /-- A task whose deadline comes before all others. -/
  | timed {id : TaskId} {rest : List TaskId} {part : Part} {deadline : Instant} :
      r.run = id :: rest →
      r.part? id.index = some part →
      part.mood = .drowsy deadline →
      deadline ≠ .never →
      r.clock < deadline →
      (∀ other ∈ r.sleep, deadline ≤ r.bedtime other) →
      Settles r { r with run := rest, sleep := id :: r.sleep }
  | ended {id : TaskId} {rest : List TaskId} {part : Part} {code : UInt32} :
      r.run = id :: rest →
      r.part? id.index = some part →
      part.mood = .leaving code →
      part.completion.waiter = none →
      Settles r { r.setPart id.index (part.ended code) with run := rest }
  /-- A task that another one waits for. -/
  | released {id joiner : TaskId} {rest : List TaskId} {part waiting : Part} {code : UInt32} :
      r.run = id :: rest →
      r.part? id.index = some part →
      part.mood = .leaving code →
      part.completion.waiter = some joiner →
      joiner ∈ r.sleep →
      joiner.index ≠ id.index →
      r.part? joiner.index = some waiting →
      waiting.mood = .drowsy .never →
      Settles r { (r.setPart id.index (part.ended code)).setPart joiner.index
          { waiting with mood := .awake } with
        run := rest ++ [joiner]
        sleep := r.sleep.erase joiner }

theorem Settles.clock {r r' : Roster} (hsettles : r.Settles r') : r'.clock = r.clock := by
  cases hsettles <;> rfl

theorem Settles.origins {r r' : Roster} (hsettles : r.Settles r') : r'.origins = r.origins := by
  cases hsettles with
  | parked | requeued | endless | timed => rfl
  | ended _ hpart => exact origins_setPart hpart rfl
  | @released id _ _ part _ code _ hpart _ _ _ hne hwaiting =>
      have hother := (part?_setPart_ne hpart (part.ended code) hne).trans hwaiting
      have hended : (r.setPart id.index (part.ended code)).origins = r.origins :=
        origins_setPart hpart rfl
      exact Eq.trans (origins_setPart hother rfl) hended

theorem Unhurried.setPart {r : Roster} (h : r.Unhurried) {slot : Nat} {part part' : Part}
    (hpart : r.part? slot = some part) (hmood : part'.mood.bedtime = .never) :
    (r.setPart slot part').Unhurried := by
  intro other hother
  rw [bedtime_setPart hpart]
  split
  · exact .inl hmood
  · exact h other hother

theorem Settles.unhurried {r r' : Roster} (hsettles : r.Settles r') (h : r.Unhurried) :
    r'.Unhurried := by
  cases hsettles with
  | parked | requeued => exact h
  | @endless id _ _ _ hpart hmood =>
      intro other hother
      rcases List.mem_append.mp hother with hother | hself
      · exact h other hother
      · obtain rfl := List.mem_singleton.mp hself
        exact .inl (bedtime_of_mood hpart hmood)
  | @timed id _ _ _ _ hpart hmood _ hlater =>
      intro other hother
      rcases List.mem_cons.mp hother with rfl | hother
      · exact .inr ((bedtime_of_mood hpart hmood).symm ▸ hlater)
      · exact h other hother
  | ended _ hpart => exact h.setPart hpart rfl
  | released _ hpart _ _ _ hne hwaiting =>
      intro other hother
      exact (h.setPart hpart rfl).setPart ((part?_setPart_ne hpart _ hne).trans hwaiting) rfl
        other (List.mem_of_mem_erase hother)

/-- The alarm wakes the first sleeper, if nobody is ready and nobody else is late. -/
inductive Rings (r : Roster) (deadline : Instant) : Roster → Prop
  | woken {id : TaskId} {rest : List TaskId} {part : Part} :
      r.run = [] →
      r.sleep = id :: rest →
      r.part? id.index = some part →
      part.mood = .drowsy deadline →
      deadline ≠ .never →
      (∀ other ∈ rest, r.bedtime other = .never ∨ deadline < r.bedtime other) →
      Rings r deadline { r.setPart id.index { part with mood := .awake } with
        clock := deadline
        run := [id]
        sleep := rest }

theorem Rings.unhurried {r r' : Roster} {deadline : Instant} (hrings : r.Rings deadline r') :
    r'.Unhurried := by
  cases hrings with
  | @woken _ rest _ _ _ hpart _ _ hrest =>
      have hothers : Unhurried { r with clock := deadline, sleep := rest } := hrest
      exact hothers.setPart hpart rfl

theorem Rings.clock_lt {r r' : Roster} {deadline : Instant} (hrings : r.Rings deadline r')
    (h : r.Unhurried) : r.clock < deadline := by
  cases hrings with
  | @woken id rest _ _ hsleep hpart hmood htimed =>
      have hfirst := h id (hsleep ▸ List.mem_cons_self)
      rw [bedtime_of_mood hpart hmood] at hfirst
      exact hfirst.resolve_left htimed

theorem Rings.clock {r r' : Roster} {deadline : Instant} (hrings : r.Rings deadline r') :
    r'.clock = deadline := by
  cases hrings
  rfl

theorem Rings.origins {r r' : Roster} {deadline : Instant} (hrings : r.Rings deadline r') :
    r'.origins = r.origins := by
  cases hrings with
  | woken _ _ hpart => exact origins_setPart hpart rfl

def decision (r : Roster) (arena : List StackRange) : Decision :=
  match r.run, r.sleep with
  | id :: _, _ => .resume (r.pointer arena id)
  | [], [] => .resume Board.mainlinePointer
  | [], _ :: _ => .idle

end Roster

namespace TaskRecord

variable {t : TaskRecord}

theorem outline_withState {state : TaskState} (ht : t.Occupied) (hstate : state.outline = .ready) :
    TaskRecord.outline { t with state } = t.outline := by
  unfold outline
  rw [hstate, outline_eq_ready.mpr ht]

theorem outline_suspended {s : Scheduler Board} {pointer : Address}
    (h : t.outline.pointer = pointer) : (s.suspendedRecord pointer t).outline = t.outline := by
  subst h
  rfl

theorem outline_mark (t : TaskRecord) (mood : Mood) :
    (mood.mark t).outline = mood.mark t.outline := by
  cases mood <;> rfl

theorem outline_finished : t.finished.outline =
    { t.outline with
      pointer := exitedPointer
      state := .exited
      completion := t.completion.latch.1 } := rfl

theorem outline_woken (h : t.Occupied) : t.woken.outline = t.outline.countWake := by
  unfold woken
  split
  · rename_i hstate
    unfold outline countWake
    rw [outline_eq_ready.mpr h]
    rfl
  · rfl

end TaskRecord

namespace Part

variable {part : Part} {arena : List StackRange} {slot : Nat}

theorem outline_ended {code : UInt32} (hmood : part.mood = .leaving code) :
    (part.ended code).outline arena slot =
      { part.outline arena slot with
        pointer := exitedPointer
        state := .exited
        completion := part.completion.latch.1 } := by
  unfold outline
  rw [hmood]
  rfl

theorem countWake_outline {deadline : Instant} (hmood : part.mood = .drowsy deadline) :
    (part.outline arena slot).countWake =
      Part.outline { part with mood := .awake } arena slot := by
  unfold outline
  rw [hmood]
  rfl

theorem outline_withCompletion (completion : Signal) :
    Part.outline { part with completion } arena slot =
      { part.outline arena slot with completion } := by
  unfold outline
  cases part.mood <;> rfl

theorem outline_withMood (hmood : part.mood = .awake) (mood : Mood) :
    Part.outline { part with mood } arena slot = mood.mark (part.outline arena slot) := by
  unfold outline
  rw [hmood]
  rfl

theorem pointer_outline (hlives : part.mood.lives = true) :
    (part.outline arena slot).pointer = (rangeIn arena part.stack).framePointer := by
  unfold outline
  cases hm : part.mood with
  | gone code =>
      rw [hm] at hlives
      contradiction
  | _ => rfl

end Part

namespace Scheduler

variable {s t u v : Scheduler Board} {arena : List StackRange} {r r' : Roster} {id : TaskId}
variable {part part' : Part} {rest run sleep woken : List TaskId}
variable {change : TaskRecord → TaskRecord}

/-! ## Listed tasks that are moved -/

namespace Lists

theorem kept (h : s.Lists arena r) (haltered : Altered s id change t)
    (hrun : t.runQueue = run) (hsleep : t.sleepers = sleep)
    (hself : id.index ∈ slots → (change (s.record id)).outline = (s.record id).outline) :
    t.Lists arena { r with run, sleep } where
  runQueue := hrun
  sleepers := hsleep
  outline := by
    intro slot hslot
    refine Eq.trans ?_ (h.outline slot hslot)
    rw [haltered slot]
    split
    · rename_i he
      subst he
      exact hself hslot
    · rfl
  cast := h.cast

theorem set (h : s.Lists arena r) (haltered : Altered s id change t)
    (hrun : t.runQueue = run) (hsleep : t.sleepers = sleep)
    (hpart : r.part? id.index = some part) (horigin : part'.toOrigin = part.toOrigin)
    (hself : (change (s.record id)).outline = part'.outline arena id.index) :
    t.Lists arena { r.setPart id.index part' with run, sleep } where
  runQueue := hrun
  sleepers := hsleep
  outline := by
    intro slot hslot
    refine Eq.trans ?_ (Roster.outline_setPart hpart part' slot).symm
    rw [haltered slot]
    split
    · rename_i he
      subst he
      exact hself
    · exact h.outline slot hslot
  cast := (Roster.origins_setPart hpart horigin).symm ▸ h.cast

theorem alarmMoved (h : s.Lists arena r) (hmoved : AlarmMoved s t) : t.Lists arena r where
  runQueue := hmoved.runQueue_eq.trans h.runQueue
  sleepers := hmoved.sleepers_eq.trans h.sleepers
  outline := hmoved.tasks ▸ h.outline
  cast := h.cast

theorem dispatched (h : s.Lists arena r) (hs : s.Standing) {decision : Decision}
    (hdispatched : Dispatched s t decision) : t.Lists arena r := by
  cases hdispatched with
  | @resumed _ next hhead _ hmoved =>
      refine h.kept hmoved.altered (hmoved.runQueue.trans h.runQueue)
        (hmoved.sleepers.trans h.sleepers) fun hslot => ?_
      have hmem := List.mem_of_head? hhead
      exact TaskRecord.outline_withState (hs.occupied hmem (Scheduler.mem_slots.mp hslot).1) rfl
  | drained hrun hsleep _ hmoved =>
      refine h.kept hmoved.altered (hmoved.runQueue.trans (hrun.symm.trans h.runQueue))
        (hmoved.sleepers.trans (hsleep.symm.trans h.sleepers)) fun hslot => ?_
      exact absurd rfl (Scheduler.mem_slots.mp hslot).1
  | idle => exact h

theorem woke (h : s.Lists arena r) (hs : s.Standing) (hwoke : Woke s id t) {deadline : Instant}
    (hpart : r.part? id.index = some part) (hmood : part.mood = .drowsy deadline)
    (hsleep : id ∈ r.sleep) :
    t.Lists arena { r.setPart id.index { part with mood := .awake } with
      run := r.run ++ [id], sleep := r.sleep.erase id } := by
  rw [← h.sleepers] at hsleep
  have hoccupied := h.occupied hpart hmood rfl
  refine h.set hwoke.record ?_ (h.sleepers ▸ hwoke.sleepers) hpart rfl ?_
  · rw [hwoke.runQueue, if_pos (hs.asleep id hsleep).2, h.runQueue]
  · rw [TaskRecord.outline_woken hoccupied, h.record hpart, Part.countWake_outline hmood]

theorem bedded_endless (h : s.Lists arena r) (hslot : id.index ∈ slots)
    (hbedtime : r.bedtime id = .never) : s.bedded id r.sleep = r.sleep ++ [id] := by
  unfold Scheduler.bedded
  rw [h.wakeAt hslot, hbedtime]
  rfl

theorem bedded_timed (h : s.Lists arena r) {away : Nat} (hs : s.Placed away run r.sleep)
    (hslot : id.index ∈ slots) (htimed : r.bedtime id ≠ .never)
    (hfirst : ∀ other ∈ r.sleep, r.bedtime id ≤ r.bedtime other) :
    s.bedded id r.sleep = id :: r.sleep := by
  have hwakeAt := h.wakeAt hslot
  have hsmaller : ∀ other ∈ r.sleep, (s.record id).wakeAt ≤ (s.record other).wakeAt := by
    intro other hother
    have hslot' := Scheduler.mem_slots.mpr
      ⟨(hs.asleep other hother).1, hs.index_lt (List.mem_append_right _ hother)⟩
    rw [hwakeAt, h.wakeAt hslot']
    exact hfirst other hother
  unfold Scheduler.bedded TaskQueue.Represents.insertedByKey
  rw [if_neg (by rw [hwakeAt, Instant.isNever_iff]; exact htimed)]
  cases hsleep : r.sleep with
  | nil => rfl
  | cons first more =>
      have hle := hsmaller first (hsleep ▸ List.mem_cons_self)
      simp [hle]

end Lists

/-! ## A switch -/

theorem Shows.listed (h : s.Shows arena r) (hrun : r.run = id :: rest)
    (hsuspended : Suspended s (r.pointer arena id) id rest u) :
    u.Lists arena { r with run := rest } := by
  refine h.toLists.kept hsuspended.record hsuspended.placed.runQueue_eq
    (hsuspended.placed.sleepers_eq.trans h.sleepers) fun hslot => ?_
  have hmem : id ∈ r.run ++ r.sleep := by simp [hrun]
  obtain ⟨part, hpart, hmood⟩ := h.part?_of_mem h.standing hmem (Scheduler.mem_slots.mp hslot).1
  apply TaskRecord.outline_suspended
  rw [h.record hpart, Part.pointer_outline hmood]
  unfold Roster.pointer
  rw [hpart]

theorem Lists.wake (h : s.Lists arena r) (hs : s.Standing) (htimely : s.Timely)
    (hpart : r.part? id.index = some part) (hmood : part.mood = .drowsy .never)
    (hsleep : id ∈ r.sleep) (hok : s.wake id = .ok t) :
    t.Lists arena { r.setPart id.index { part with mood := .awake } with
      run := r.run ++ [id], sleep := r.sleep.erase id } := by
  have hendless : (s.record id).wakeAt = Instant.never := by
    rw [h.wakeAt (h.mem_slots hpart), Roster.bedtime_of_mood hpart hmood]
    rfl
  obtain ⟨_, u, hwoke, ⟨_, rfl⟩ | ⟨harmed, _⟩⟩ := hs.wake hok
  · exact h.woke hs hwoke hpart hmood hsleep
  · exact absurd harmed (htimely.not_armed_for hs fun _ => hendless)

theorem Lists.ended (h : s.Lists arena r) (hmoved : Moved s id TaskRecord.finished run sleep t)
    (hpart : r.part? id.index = some part) {code : UInt32} (hmood : part.mood = .leaving code) :
    t.Lists arena { r.setPart id.index (part.ended code) with run, sleep } := by
  refine h.set hmoved.altered hmoved.runQueue hmoved.sleepers hpart rfl ?_
  rw [TaskRecord.outline_finished, h.record hpart, h.completion hpart, Part.outline_ended hmood]

theorem Lists.settled (h : u.Lists arena { r with run := rest })
    (hs : u.Placed id.index rest r.sleep) (htimely : u.Timely) (hrun : r.run = id :: rest)
    (hsettled : Settled u id rest r.sleep v) (hsettles : r.Settles r') : v.Lists arena r' := by
  cases hsettles with
  | parked hfirst =>
      obtain ⟨rfl, rfl⟩ := List.cons.inj (hrun.symm.trans hfirst)
      have hmoved := hsettled.moved_mainline rfl
      exact h.kept hmoved.altered hmoved.runQueue hmoved.sleepers fun hslot =>
        absurd rfl (Scheduler.mem_slots.mp hslot).1
  | requeued hfirst hpart hmood =>
      obtain ⟨rfl, rfl⟩ := List.cons.inj (hrun.symm.trans hfirst)
      have hmoved := hsettled.moved_awake (h.task hpart) (h.exiting hpart hmood)
        (h.isSleeping hpart hmood)
      exact h.kept hmoved.altered hmoved.runQueue hmoved.sleepers fun _ =>
        TaskRecord.outline_withState (h.occupied hpart hmood rfl) rfl
  | endless hfirst hpart hmood =>
      obtain ⟨rfl, rfl⟩ := List.cons.inj (hrun.symm.trans hfirst)
      have hmoved := hsettled.moved_asleep (h.task hpart) (h.exiting hpart hmood)
        (h.isSleeping hpart hmood)
      have hbedded := h.bedded_endless (h.mem_slots hpart) (Roster.bedtime_of_mood hpart hmood)
      exact h.kept hmoved.altered hmoved.runQueue (hmoved.sleepers.trans hbedded)
        fun _ => TaskRecord.outline_withState (h.occupied hpart hmood rfl) rfl
  | timed hfirst hpart hmood htimed _ hbefore =>
      obtain ⟨rfl, rfl⟩ := List.cons.inj (hrun.symm.trans hfirst)
      have hmoved := hsettled.moved_asleep (h.task hpart) (h.exiting hpart hmood)
        (h.isSleeping hpart hmood)
      have hbedtime : r.bedtime id = _ := Roster.bedtime_of_mood hpart hmood
      have hbedded := h.bedded_timed hs (h.mem_slots hpart) (hbedtime ▸ htimed)
        (hbedtime ▸ hbefore)
      exact h.kept hmoved.altered hmoved.runQueue (hmoved.sleepers.trans hbedded)
        fun _ => TaskRecord.outline_withState (h.occupied hpart hmood rfl) rfl
  | ended hfirst hpart hmood hwaiter =>
      obtain ⟨rfl, rfl⟩ := List.cons.inj (hrun.symm.trans hfirst)
      obtain ⟨c, hmoved, hwake⟩ := hsettled.moved_exiting (h.task hpart) (h.exiting hpart hmood)
      rw [h.completion hpart, hwaiter] at hwake
      obtain rfl := Except.ok.inj hwake
      exact h.ended hmoved hpart hmood
  | released hfirst hpart hmood hwaiter hsleep hne hwaiting hdrowsy =>
      obtain ⟨rfl, rfl⟩ := List.cons.inj (hrun.symm.trans hfirst)
      obtain ⟨c, hmoved, hwake⟩ := hsettled.moved_exiting (h.task hpart) (h.exiting hpart hmood)
      rw [h.completion hpart, hwaiter] at hwake
      have hc := h.ended hmoved hpart hmood
      have hasleep : Moved u id TaskRecord.finished rest u.sleepers c := by
        rw [hs.sleepers_eq]
        exact hmoved
      have hctimely := hasleep.timely htimely (.inl fun _ => rfl)
      exact hc.wake hmoved.standing hctimely
        ((Roster.part?_setPart_ne hpart _ hne).trans hwaiting) hdrowsy hsleep hwake

theorem Shows.dozes (h : s.Shows arena r) (hpart : r.part? id.index = some part)
    {deadline : Instant} (hmood : part.mood = .drowsy deadline) (hsleep : id ∈ r.sleep) :
    s.Dozes (fun _ => False) id where
  slot := h.mem_slots hpart
  current := h.standing.generation id (List.mem_append_right _ (h.sleepers ▸ hsleep))
  occupied := h.occupied hpart hmood rfl
  count := h.sleepCount hpart hmood
  unawaited := not_false

theorem Shows.saved (h : s.Shows arena r) (hrun : r.run = id :: rest) :
    (if id.index = 0 then r.pointer arena id else (s.record .mainline).pointer) =
      Board.mainlinePointer := by
  split
  · rename_i hid
    unfold Roster.pointer
    rw [hid]
    rfl
  · rename_i hid
    have hmem : id ∈ r.run ++ r.sleep := by simp [hrun]
    obtain ⟨part, hpart, _⟩ := h.part?_of_mem h.standing hmem hid
    apply h.mainline
    · rw [hrun, List.head?_cons]
      exact fun he => hid (congrArg TaskId.index (Option.some.inj he))
    · exact List.ne_nil_of_mem (Roster.mem_of_part? hpart)

theorem Shows.reschedule_ok (h : s.Shows arena r) (hgrounds : Grounds arena)
    (hrun : r.run = id :: rest) (hsettles : r.Settles r') :
    ∃ t decision, s.reschedule (r.pointer arena id) = .ok (t, decision) ∧
      t.FaultFree fun _ => False := by
  have hmem : id ∈ r.run ++ r.sleep := by simp [hrun]
  have hfirst {id' : TaskId} {rest' : List TaskId} (hrun' : r.run = id' :: rest') : id' = id :=
    (List.cons.inj (hrun'.symm.trans hrun)).1
  refine h.faultFree.reschedule h.standing (h.runQueue.trans hrun) ?live ?mainline
    (fun _ _ hnever => hnever) ?waiter
  case live =>
    intro hslot
    obtain ⟨part, hpart, _⟩ := h.part?_of_mem h.standing hmem (Scheduler.mem_slots.mp hslot).1
    rw [h.stack hpart, Roster.pointer_of_part? hpart]
    exact (hgrounds.usable_rangeIn (h.inArena hpart)).holds_framePointer
  case mainline =>
    rw [h.saved hrun]
    decide
  case waiter =>
    intro hslot hexiting waiter hwaiter
    cases hsettles with
    | parked hrun' =>
        rw [← hfirst hrun'] at hslot
        exact absurd rfl (Scheduler.mem_slots.mp hslot).1
    | requeued hrun' hpart hmood | endless hrun' hpart hmood | timed hrun' hpart hmood =>
        rw [← hfirst hrun', h.exiting hpart hmood] at hexiting
        contradiction
    | ended hrun' hpart _ hnone =>
        rw [← hfirst hrun', h.completion hpart, hnone] at hwaiter
        contradiction
    | released hrun' hpart _ hsome hsleep hne hwaiting hdrowsy =>
        rw [← hfirst hrun', h.completion hpart, hsome] at hwaiter
        obtain rfl := Option.some.inj hwaiter
        exact ⟨hfirst hrun' ▸ hne, h.dozes hwaiting hdrowsy hsleep⟩

theorem Lists.pointer (h : s.Lists arena r) (hs : s.Standing)
    (hmainline : (s.record .mainline).pointer = Board.mainlinePointer) (hmem : id ∈ r.run) :
    (s.record id).pointer = r.pointer arena id := by
  by_cases hid : id.index = 0
  · have hsame : s.record id = s.record .mainline := congrArg s.tasks.record hid
    rw [hsame, hmainline, Roster.pointer, hid]
    rfl
  · obtain ⟨part, hpart, hlives⟩ := h.part?_of_mem hs (List.mem_append_left _ hmem) hid
    rw [h.field hpart TaskRecord.pointer fun _ => rfl, Part.pointer_outline hlives,
      Roster.pointer_of_part? hpart]

theorem Lists.decision (h : s.Lists arena r) (hs : s.Standing)
    (hmainline : (s.record .mainline).pointer = Board.mainlinePointer) {decision : Decision}
    (hdispatched : Dispatched s t decision) : decision = r.decision arena := by
  unfold Roster.decision
  cases hdispatched with
  | @resumed _ next hhead =>
      rw [h.runQueue] at hhead
      have hpointer := h.pointer hs hmainline (List.mem_of_head? hhead)
      cases hrun : r.run with
      | nil => simp [hrun] at hhead
      | cons first rest =>
          rw [hrun, List.head?_cons, Option.some.injEq] at hhead
          rw [hhead, hpointer]
  | drained hrun hsleep =>
      rw [← h.runQueue, ← h.sleepers, hrun, hsleep, hmainline]
  | idle hrun hsleep =>
      rw [← h.runQueue, ← h.sleepers, hrun]
      cases hsleepers : s.sleepers with
      | nil => exact absurd hsleepers hsleep
      | cons => rfl

theorem Lists.later (h : s.Lists arena r) (hs : s.Standing) (hlater : r.Unhurried) :
    ∀ head, s.sleepers.head? = some head →
      (s.record head).wakeAt = Instant.never ∨ r.clock < (s.record head).wakeAt := by
  intro head hhead
  have hmem : head ∈ r.sleep := h.sleepers ▸ List.mem_of_head? hhead
  rw [h.wakeAt_of_mem hs hmem]
  exact hlater head hmem

theorem Shows.performed (h : s.Shows arena r) {op : Operation} {decision : Option Decision}
    (hperformed : Performed s op t decision) (hstart : op.spawns = false)
    (halarm : op ≠ .handleAlarm) (hlists : t.Lists arena r') (hfree : t.FaultFree fun _ => False)
    (horigins : r'.origins = r.origins) (hclock : r'.clock = r.clock) (hlater : r'.Unhurried)
    (hmainline : r'.run.head? ≠ some .mainline → r'.parts ≠ [] →
      (t.record .mainline).pointer = Board.mainlinePointer) : t.Shows arena r' := by
  obtain ⟨hsame, hlag⟩ := Board.driven (hperformed.driven h.standing)
  have hwatched : t.Watched true :=
    hperformed.watched h.standing (fun he => absurd he halarm) (.of_eq h.alarm)
  exact {
    toLists := hlists
    standing := hperformed.standing h.standing
    timely := hperformed.timely h.standing h.timely
    faultFree := hfree
    alarm := hwatched.only rfl
    lag := hlag.trans h.lag
    clock := by rw [hsame, h.clock, hclock]
    generation := by rw [(hperformed.bound h.standing hstart).2, h.generation, horigins]
    later := hlater
    mainline := hmainline }

/-- A switch does to a kernel what its roster says. -/
theorem Shows.reschedule (h : s.Shows arena r) (hgrounds : Grounds arena)
    (hrun : r.run = id :: rest) (hsettles : r.Settles r') :
    ∃ t, s.reschedule (r.pointer arena id) = .ok (t, r'.decision arena) ∧ t.Shows arena r' ∧
      t.audit = .ok () := by
  obtain ⟨t, decision, hok, hfree⟩ := h.reschedule_ok hgrounds hrun hsettles
  obtain ⟨id', rest', woken, u, v, w, hswitched⟩ := h.standing.reschedule hok
  obtain ⟨rfl, rfl⟩ : id' = id ∧ rest' = rest := by
    have hqueue := hswitched.suspended.runQueue
    rw [h.runQueue, hrun] at hqueue
    exact List.cons.inj hqueue.symm
  obtain ⟨hsettled, hplaced⟩ := And.intro hswitched.settled hswitched.suspended.placed
  rw [h.sleepers] at hsettled hplaced
  have hlater := hsettles.unhurried h.later
  have hv := (h.listed hrun hswitched.suspended).settled hplaced
    (hswitched.suspended.timely h.timely) hrun hsettled hsettles
  have hmoved : AlarmMoved v w := by
    obtain ⟨hclock, hlag⟩ := Board.driven hsettled.driven
    rw [hswitched.suspended.hardware] at hclock hlag
    apply hswitched.rearmed.alarmMoved_of_later (hlag.trans h.lag)
    rw [hclock, h.clock, ← hsettles.clock]
    exact hv.later hswitched.standing.1 hlater
  have hw := hv.alarmMoved hmoved
  have hmainline : (t.record .mainline).pointer = Board.mainlinePointer := by
    rw [hswitched.pointer_mainline, h.saved hrun]
  have hpointer : (w.record .mainline).pointer = Board.mainlinePointer :=
    (hswitched.dispatched.field TaskRecord.pointer (fun _ _ => rfl) 0).symm.trans hmainline
  rw [hw.decision hswitched.standing.2.1 hpointer hswitched.dispatched] at hok
  have hshows := h.performed (.switched hswitched) rfl nofun
    (hw.dispatched hswitched.standing.2.1 hswitched.dispatched) hfree hsettles.origins
    hsettles.clock hlater fun _ _ => hmainline
  exact ⟨t, hok, hshows, hshows.timely.audit hshows.standing hswitched.dispatched.headRuns⟩

/-! ## The alarm -/

theorem Shows.alarm_eq (h : s.Shows arena r) (hsleep : r.sleep = id :: rest)
    (htimed : r.bedtime id ≠ .never) : s.hardware.alarm = some (r.bedtime id) := by
  have hmem : id ∈ r.sleep := hsleep ▸ List.mem_cons_self
  rw [h.alarm, h.timely.armed, soonest_eq_some, h.sleepers, hsleep]
  exact ⟨id, rfl, h.wakeAt_of_mem h.standing hmem, htimed⟩

/-- The first deadline has come: the alarm has gone off and the clock shows it. -/
def struck (s : Scheduler Board) (deadline : Instant) : Scheduler Board :=
  { s with hardware := { s.hardware.advanceTo deadline with alarm := none } }

theorem Shows.struck_clock (h : s.Shows arena r) {deadline : Instant}
    (hlater : r.clock < deadline) : (s.struck deadline).hardware.clock = deadline := by
  show s.hardware.clock.latest deadline = deadline
  rw [h.clock, Instant.ext_iff_toNat, Instant.toNat_latest]
  rw [Instant.lt_iff] at hlater
  omega

theorem Shows.struck_faultFree (h : s.Shows arena r) (deadline : Instant) :
    (s.struck deadline).FaultFree fun _ => False := by
  refine h.faultFree.onward ⟨rfl, ?_, fun _ hheld => hheld⟩ h.faultFree.tasks (fun _ => rfl)
    fun _ => rfl
  show s.hardware.clock ≤ s.hardware.clock.latest deadline
  rw [Instant.le_iff, Instant.toNat_latest]
  omega

theorem Expired.woke_only {now : Instant} {ids : List TaskId} (h : Expired now s ids u)
    (hfirst : s.sleepers.head? = some id)
    (hdue : (s.record id).wakeAt ≠ .never ∧ (s.record id).wakeAt ≤ now)
    (hlater : ∀ t, Woke s id t → ∀ other, t.sleepers.head? = some other →
      (t.record other).wakeAt = .never ∨ now < (t.record other).wakeAt) : Woke s id u := by
  have hnotdue {a : Instant} (h : a ≤ now) : ¬now < a := by
    rw [Instant.le_iff] at h
    rw [Instant.lt_iff]
    omega
  cases h with
  | empty hempty => simp [hempty] at hfirst
  | later hhead hearly =>
      obtain rfl := Option.some.inj (hhead.symm.trans hfirst)
      rw [Instant.isNever_iff] at hearly
      exact absurd hearly (not_or.mpr ⟨hdue.1, hnotdue hdue.2⟩)
  | due hhead _ _ hwoke hrest =>
      obtain rfl := Option.some.inj (hhead.symm.trans hfirst)
      cases hrest with
      | empty | later => exact hwoke
      | due hnext _ hlate =>
          rw [Instant.isNever_iff] at hlate
          exact absurd (hlater _ hwoke _ hnext) hlate

theorem Shows.expired (h : s.Shows arena r) {deadline : Instant} (hrings : r.Rings deadline r')
    {ids : List TaskId}
    (hexpired : Expired deadline { s.struck deadline with armed := none } ids u) :
    u.Lists arena r' := by
  have hstruck : AlarmMoved s { s.struck deadline with armed := none } := alarmMoved s _ none
  have hs := hstruck.standing h.standing
  have hbefore := h.toLists.alarmMoved hstruck
  have hlater := hrings.unhurried
  cases hrings with
  | @woken id rest part hrun hsleep hpart hmood htimed _ =>
      have hmem : id ∈ r.sleep := hsleep ▸ List.mem_cons_self
      have hlists {t : Scheduler Board}
          (hwoke : Woke { s.struck deadline with armed := none } id t) :
          t.Lists arena { r.setPart id.index { part with mood := .awake } with
            clock := deadline, run := [id], sleep := rest } := by
        have ht := hbefore.woke hs hwoke hpart hmood hmem
        rw [hrun, hsleep, List.erase_cons_head] at ht
        exact ⟨ht.runQueue, ht.sleepers, ht.outline, ht.cast⟩
      refine hlists (hexpired.woke_only (hbefore.sleepers ▸ hsleep ▸ rfl) ?_ fun t hwoke =>
        (hlists hwoke).later hwoke.standing hlater)
      rw [hbefore.wakeAt_of_mem hs hmem, Roster.bedtime_of_mood hpart hmood]
      exact ⟨htimed, Instant.le_refl _⟩

theorem Shows.pointer_idle (h : s.Shows arena r) {deadline : Instant}
    (hrings : r.Rings deadline r') : (s.record .mainline).pointer = Board.mainlinePointer := by
  cases hrings with
  | woken hrun _ hpart =>
      apply h.mainline
      · simp [hrun]
      · exact List.ne_nil_of_mem (Roster.mem_of_part? hpart)

/-- While nobody is ready, the first sleeper executes as soon as its deadline has come. -/
theorem Shows.ring (h : s.Shows arena r) {deadline : Instant} (hrings : r.Rings deadline r') :
    ∃ u t, (s.struck deadline).handleAlarm = .ok u ∧ u.dispatch = .ok (t, r'.decision arena) ∧
      t.Shows arena r' ∧ t.audit = .ok () := by
  have hlater := hrings.unhurried
  have hs : (s.struck deadline).Standing := (alarmMoved s _ s.armed).standing h.standing
  have hnow : (s.struck deadline).now = deadline := h.struck_clock (hrings.clock_lt h.later)
  obtain ⟨u, hok, hu, hfree⟩ := (h.struck_faultFree deadline).handleAlarm hs
  obtain ⟨_, c, ids, more, hexpired, hrearmed⟩ := hs.handleAlarm hok
  have hkept := hexpired.alarm_kept.2
  rw [hnow] at hexpired
  have hc := h.expired hrings hexpired
  have hmoved : AlarmMoved c u := by
    apply hrearmed.alarmMoved_of_later
    · exact (congrArg Board.lag hkept).trans h.lag
    · rw [show c.hardware.clock = r'.clock from
        (congrArg Board.clock hkept).trans (hnow.trans hrings.clock.symm)]
      exact hc.later (hexpired.standing ((alarmMoved _ _ none).standing hs)) hlater
  have hlists := hc.alarmMoved hmoved
  obtain ⟨woken, hwakes⟩ := hs.wakes_of_handleAlarm hok
  have hmainline : (u.record .mainline).pointer = Board.mainlinePointer := by
    rw [hwakes.record_mainline]
    exact h.pointer_idle hrings
  obtain ⟨t, decision, hdispatch, hfree'⟩ := hfree.dispatch hu (by rw [hmainline]; decide)
  have hdispatched := hu.dispatch hdispatch
  rw [hlists.decision hu hmainline hdispatched] at hdispatch
  have htimely : u.Timely :=
    (h.timely.congr rfl (fun _ _ => rfl) rfl : (s.struck deadline).Timely).handleAlarm hs hok
  have hwatched : u.Watched true := hs.watched_handleAlarm (fun _ => rfl) hok
  obtain ⟨hclock, hlag⟩ := Board.driven (hs.related_handleAlarm alarmBlind_driven hok)
  have ht := hdispatched.standing hu
  refine ⟨u, t, hok, hdispatch, ?_, (hdispatched.timely htimely).audit ht hdispatched.headRuns⟩
  exact {
    toLists := hlists.dispatched hu hdispatched
    standing := ht
    timely := hdispatched.timely htimely
    faultFree := hfree'
    alarm := (hdispatched.watched hwatched).only rfl
    lag := by rw [hdispatched.hardware, hlag]; exact h.lag
    clock := by rw [hdispatched.hardware, hclock, hrings.clock]; exact hnow
    generation := by
      rw [hdispatched.generation, hwakes.generation, hrings.origins]
      exact h.generation
    later := hlater
    mainline := fun _ _ =>
      (hdispatched.field TaskRecord.pointer (fun _ _ => rfl) 0).trans hmainline }

end Scheduler

end CoopTasks

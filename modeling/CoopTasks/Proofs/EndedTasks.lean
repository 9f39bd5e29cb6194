import CoopTasks.Proofs.SleepCounts
import CoopTasks.Proofs.FailureFree

/-!
What is left of a task that has ended.

A run that has ended leaves its record behind, with its exit code and with a
latched completion signal that nobody waits at.  Only the next start in its
slot changes anything of it (`Standing.remains`).  `Joined` lists what a join
can come to, by whether the run in the slot has ended.
-/

namespace CoopTasks.Scheduler

variable {H : Type} {s t u : Scheduler H} {id target : TaskId} {run sleep : List TaskId}
variable {slot : Nat}

theorem update_eq_self {change : TaskRecord → TaskRecord}
    (h : change (s.record id) = s.record id) : s.update id change = s := by
  have htasks : s.tasks.update id.index change = s.tasks := by
    unfold TaskTable.update
    rw [show change (s.tasks.record id.index) = s.tasks.record id.index from h]
    congr 1
    refine Vector.ext fun other hother => ?_
    rw [Vector.getElem_setIfInBounds]
    split
    · rename_i he
      subst he
      simp [TaskTable.record, hother]
    · rfl
  unfold update
  rw [htasks]

theorem withCompletion_eq_self (s : Scheduler H) (target : TaskId) :
    s.withCompletion target (s.record target).completion = s :=
  update_eq_self rfl

/-! ## Joins -/

/-- What a join comes to. -/
inductive Joined (s : Scheduler H) (target : TaskId) : Scheduler H → WaitResult → Prop
  | acquired :
      (s.record target).state = .exited →
      Joined s target s .acquired
  | parked {t u : Scheduler H} {caller : TaskId} :
      s.Occupied target.index →
      s.current = some caller →
      ((s.record target).completion.waiter = none ∨
        (s.record target).completion.waiter = some caller) →
      Moved s caller (fun r => r.countSleep Instant.never) s.runQueue s.sleepers u →
      t = u.withCompletion target
        { (s.record target).completion with waiter := some caller } →
      Joined s target t .parked
  | busy {caller other : TaskId} :
      s.Occupied target.index →
      s.current = some caller →
      (s.record target).completion.waiter = some other →
      other ≠ caller →
      Joined s target s .busy

theorem Joinable.mem_slots (h : s.Joinable target) : target.index ∈ slots :=
  Scheduler.mem_slots.mpr ⟨h.task, h.index_lt⟩

theorem Joinable.occupied (h : s.Joinable target) (hgoes : (s.record target).state ≠ .exited) :
    s.Occupied target.index :=
  ⟨h.started, hgoes⟩

theorem Lived.joined (h : s.Lived) (hs : s.Standing) {result : WaitResult}
    (hok : s.attemptJoin target = .ok (t, result)) : Joined s target t result := by
  obtain ⟨_, hjoinable, u, completion, hattempted, rfl⟩ := hs.attemptJoin hok
  have hslot := hjoinable.mem_slots
  by_cases hexited : (s.record target).state = .exited
  · have htake := h.taken hslot hexited
    cases hattempted with
    | acquired htake' =>
        obtain rfl := (Prod.mk.inj (htake.symm.trans htake')).1
        rw [withCompletion_eq_self]
        exact .acquired hexited
    | parked _ hlatched hcount | busy _ hlatched hcount =>
        have hfalse := Signal.tryTake_eq_false.mpr ⟨hlatched, hcount, rfl⟩
        rw [htake] at hfalse
        exact absurd (congrArg Prod.snd hfalse) (by simp)
  · have hoccupied := hjoinable.occupied hexited
    cases hattempted with
    | acquired htake =>
        rw [h.untaken hslot hoccupied] at htake
        exact absurd (congrArg Prod.snd htake) (by simp)
    | parked hcurrent _ _ hwaiter _ hmoved _ => exact .parked hoccupied hcurrent hwaiter hmoved rfl
    | busy hcurrent _ _ hwaiter hne =>
        rw [withCompletion_eq_self]
        exact .busy hoccupied hcurrent hwaiter hne

theorem Lived.tryJoin (h : s.Lived) (hjoinable : s.Joinable target) :
    s.tryJoin target = .ok (s, if (s.record target).state = .exited
      then some (s.record target).exitCode else none) := by
  obtain ⟨hslot, hstarted⟩ := hjoinable.required
  have hself := withCompletion_eq_self s target
  unfold withCompletion at hself
  unfold Scheduler.tryJoin
  simp only [hslot, hstarted, bind, Except.bind, pure, Except.pure]
  by_cases hexited : (s.record target).state = .exited
  · simp only [h.taken hjoinable.mem_slots hexited, hself, hexited, if_true]
  · simp only [h.untaken hjoinable.mem_slots (hjoinable.occupied hexited), hself, hexited,
      Bool.false_eq_true, if_false]

theorem Lived.tryJoin_eq_ok (h : s.Lived) {code : Option UInt32}
    (hok : s.tryJoin target = .ok (t, code)) :
    t = s ∧ s.Joinable target ∧
      code = if (s.record target).state = .exited then some (s.record target).exitCode
        else none := by
  have hjoinable := (Scheduler.tryJoin_eq_ok hok).1
  obtain ⟨rfl, rfl⟩ := Prod.mk.inj (Except.ok.inj ((h.tryJoin hjoinable).symm.trans hok))
  exact ⟨rfl, hjoinable, rfl⟩

theorem Lived.attemptJoin (h : s.Lived) (hs : s.Standing) (hslot : target.index ∈ slots)
    (hexited : (s.record target).state = .exited) :
    s.attemptJoin target = .ok (s, .acquired) := by
  obtain ⟨hne, hlt⟩ := Scheduler.mem_slots.mp hslot
  have hjoinable : s.Joinable target := ⟨hlt, hne, by simp [hexited]⟩
  obtain ⟨hrequired, hstarted⟩ := hjoinable.required
  have hother : require (s.current ≠ some target) (.joinSelf target) = .ok () := by
    rw [require_eq_ok]
    exact fun hcurrent => (hs.occupied_current hcurrent).2 hexited
  have hself := withCompletion_eq_self s target
  unfold withCompletion at hself
  unfold Scheduler.attemptJoin attemptWait
  simp only [hother, hrequired, hstarted, h.taken hslot hexited, hself, if_true, bind, Except.bind,
    pure, Except.pure]

/-! ## Frozen records -/

theorem Woke.occupied (h : Woke s id t) : s.Occupied id.index := by
  rcases h.state with hstate | hstate | hstate
  · exact occupied_of_state hstate (by decide)
  · exact occupied_of_state hstate (by decide)
  · exact occupied_of_state hstate (by decide)

theorem not_occupied_congr (h : t.tasks.record slot = s.tasks.record slot)
    (hgone : ¬s.Occupied slot) : ¬t.Occupied slot := by
  unfold Occupied at hgone ⊢
  rwa [h]

theorem Wakes.record_gone {ids : List TaskId} (h : Wakes s ids t) (hgone : ¬s.Occupied slot) :
    t.tasks.record slot = s.tasks.record slot := by
  refine h.preserves (P := fun t => t.tasks.record slot = s.tasks.record slot) ?_ ?_ rfl
  · intro t u hmoved ht
    rw [hmoved.tasks]
    exact ht
  · intro t id u hwoke ht
    refine (hwoke.record_other ?_).trans ht
    rintro rfl
    exact not_occupied_congr ht hgone hwoke.occupied

theorem Attempted.record_gone (hs : s.Standing) {w w' : Signal} {result : WaitResult}
    (h : Attempted s w t w' result) (hgone : ¬s.Occupied slot) :
    t.tasks.record slot = s.tasks.record slot := by
  cases h with
  | acquired _ | busy _ _ _ _ _ => rfl
  | parked hcurrent _ _ _ _ hmoved _ =>
      apply hmoved.other
      rintro rfl
      exact hgone (hs.occupied_current hcurrent)

theorem Dispatched.record_gone (hs : s.Standing) {decision : Decision}
    (h : Dispatched s t decision) (hslot : slot ∈ slots) (hgone : ¬s.Occupied slot) :
    t.tasks.record slot = s.tasks.record slot := by
  have hne := (mem_slots.mp hslot).1
  cases h with
  | resumed hhead _ hmoved _ =>
      apply hmoved.other
      rintro rfl
      exact hgone (hs.occupied (List.mem_of_head? hhead) hne)
  | drained _ _ _ hmoved _ => exact hmoved.other hne
  | idle _ _ => rfl

variable [Hardware H] {pointer : Address} {rest woken : List TaskId} {v w : Scheduler H}

theorem Settled.record_gone (h : Settled s id run sleep t) (hne : slot ≠ id.index)
    (hgone : ¬s.Occupied slot) : t.tasks.record slot = s.tasks.record slot := by
  cases h with
  | parked _ hmoved _ | asleep _ _ _ _ hmoved _ | requeued _ _ _ _ hmoved _ =>
      exact hmoved.other hne
  | finished _ _ _ _ hmoved _ hwake =>
      obtain ⟨ids, hwakes⟩ := hmoved.standing.wakes_of_wakeWaiter hwake
      have hsame := hmoved.other hne
      exact (hwakes.record_gone (not_occupied_congr hsame hgone)).trans hsame

theorem Switched.record_gone (hs : s.Standing) {decision : Decision}
    (h : Switched s pointer t decision id rest woken u v w) (hslot : slot ∈ slots)
    (hgone : ¬s.Occupied slot) : t.tasks.record slot = s.tasks.record slot := by
  have hne : slot ≠ id.index := by
    rintro rfl
    refine hgone (hs.occupied ?_ (mem_slots.mp hslot).1)
    rw [h.suspended.runQueue]
    exact List.mem_cons_self
  have hu : u.tasks.record slot = s.tasks.record slot :=
    (h.suspended.record slot).trans (if_neg hne)
  have hv := (h.settled.record_gone hne (not_occupied_congr hu hgone)).trans hu
  have hw := (h.rearmed.wakes.record_gone (not_occupied_congr hv hgone)).trans hv
  exact (h.dispatched.record_gone h.standing.2.1 hslot (not_occupied_congr hw hgone)).trans hw

/-- What a run leaves behind stays as it is until a task is started in its slot. -/
theorem Standing.remains (hs : s.Standing) (hlived : s.Lived) {op : Operation}
    {decision : Option Decision} (hok : s.perform op = .ok (t, decision))
    (hop : op.spawns = false) (hslot : slot ∈ slots) (hgone : ¬s.Occupied slot) :
    t.tasks.record slot = s.tasks.record slot := by
  cases hs.perform hok with
  | refused | started _ => contradiction
  | switched hswitched => exact hswitched.record_gone hs hslot hgone
  | dispatched hdispatched => exact hdispatched.record_gone hs hslot hgone
  | exiting hcurrent _ hmoved | asleep hcurrent _ hmoved =>
      apply hmoved.other
      rintro rfl
      exact hgone (hs.occupied_current hcurrent)
  | woken hwake =>
      obtain ⟨ids, hwakes⟩ := hs.wakes_of_wake hwake
      exact hwakes.record_gone hgone
  | posted hwake =>
      obtain ⟨ids, hwakes⟩ := hs.wakes_of_wakeWaiter hwake
      exact hwakes.record_gone hgone
  | attempted hattempted => exact hattempted.record_gone hs hgone
  | @joined _ _ target =>
      simp only [Scheduler.perform, bind_eq_ok, pure_eq_ok, Prod.mk.injEq, Prod.exists] at hok
      obtain ⟨_, result, hattempt, rfl, _⟩ := hok
      cases hlived.joined hs hattempt with
      | acquired _ | busy _ _ _ _ => rfl
      | @parked _ u caller hoccupied hcurrent _ hmoved ht =>
          rw [ht]
          refine (TaskTable.record_update_ne _ ?_ _).trans (hmoved.other ?_)
          · rintro rfl
            exact hgone hoccupied
          · rintro rfl
            exact hgone (hs.occupied_current hcurrent)
  | tried =>
      simp only [Scheduler.perform, bind_eq_ok, pure_eq_ok, Prod.mk.injEq, Prod.exists] at hok
      obtain ⟨_, code, htry, rfl, _⟩ := hok
      rw [(hlived.tryJoin_eq_ok htry).1]
  | handled halarm =>
      obtain ⟨ids, hwakes⟩ := hs.wakes_of_handleAlarm halarm
      exact hwakes.record_gone hgone

/-! ## Every state -/

omit [Hardware H] in
theorem Standing.lasts_withCompletion (hs : s.Standing) (hslot : target.index < slotCount)
    {completion : Signal} (hlatched : completion.latched = (s.record target).completion.latched)
    (hcount : (s.record target).completion.count = 0 → completion.count = 0) :
    s.Lasts (s.withCompletion target completion) :=
  (hs.withCompletion hslot completion).altered.lasts fun _ =>
    TaskRecord.lasts_withCompletion _ hlatched hcount

omit [Hardware H] in
theorem Joined.lasts {result : WaitResult} (h : Joined s target t result)
    (hslot : target.index < slotCount) : s.Lasts t := by
  cases h with
  | acquired _ | busy _ _ _ _ => exact .refl s
  | @parked _ u caller _ _ _ hmoved ht =>
      subst ht
      have hsame : (u.record target).completion = (s.record target).completion :=
        hmoved.field TaskRecord.completion (fun _ => rfl) target.index
      refine (hmoved.altered.lasts fun _ => TaskRecord.lasts_countSleep _ _).trans
        (hmoved.standing.lasts_withCompletion hslot ?_ ?_)
      · rw [hsame]
      · intro hcount
        rwa [hsame] at hcount

theorem Standing.lasts_of_perform (hs : s.Standing) (hlived : s.Lived) {op : Operation}
    {decision : Option Decision} (hok : s.perform op = .ok (t, decision))
    (hspawns : op.spawns = false) (hswitches : op.switches = false) :
    t.chronicle = s.chronicle ∧ s.Lasts t := by
  cases op <;> simp only [Scheduler.perform, bind_eq_ok, pure_eq_ok, Prod.mk.injEq,
    Prod.exists] at hok
  case spawn | reschedule => contradiction
  case dispatch =>
      obtain ⟨u, _, hdispatch, rfl, _⟩ := hok
      exact ⟨chronicle_dispatch hdispatch, (hs.dispatch hdispatch).lasts hs⟩
  case markExiting =>
      obtain ⟨u, hmark, rfl, _⟩ := hok
      obtain ⟨id, hcurrent, _, hmoved⟩ := hs.markExiting hmark
      have hoccupied := hs.occupied_current hcurrent
      exact ⟨chronicle_markExiting hmark,
        hmoved.altered.lasts fun _ => hoccupied.lasts hoccupied rfl rfl rfl rfl⟩
  case markAsleep =>
      obtain ⟨u, hmark, rfl, _⟩ := hok
      obtain ⟨id, _, _, _, hmoved⟩ := hs.markAsleep hmark
      exact ⟨chronicle_markAsleep hmark,
        hmoved.altered.lasts fun _ => TaskRecord.lasts_countSleep _ _⟩
  case wake =>
      obtain ⟨u, hwake, rfl, _⟩ := hok
      obtain ⟨ids, hwakes⟩ := hs.wakes_of_wake hwake
      exact ⟨chronicle_wake hwake, hwakes.lasts⟩
  case post =>
      obtain ⟨u, signal, hpost, rfl, _⟩ := hok
      obtain ⟨ids, hwakes⟩ := hs.wakes_of_wakeWaiter (post_eq_ok hpost).1
      exact ⟨chronicle_wakeWaiter (post_eq_ok hpost).1, hwakes.lasts⟩
  case attemptWait =>
      obtain ⟨u, signal, result, hattempt, rfl, _⟩ := hok
      exact ⟨chronicle_attemptWait hattempt, (hs.attemptWait hattempt).lasts⟩
  case attemptJoin =>
      obtain ⟨u, result, hattempt, rfl, _⟩ := hok
      obtain ⟨_, hjoinable, _⟩ := hs.attemptJoin hattempt
      exact ⟨chronicle_attemptJoin hattempt,
        (hlived.joined hs hattempt).lasts hjoinable.index_lt⟩
  case tryJoin =>
      obtain ⟨u, code, htry, rfl, _⟩ := hok
      obtain ⟨rfl, _⟩ := hlived.tryJoin_eq_ok htry
      exact ⟨rfl, .refl u⟩
  case handleAlarm =>
      obtain ⟨u, halarm, rfl, _⟩ := hok
      obtain ⟨ids, hwakes⟩ := hs.wakes_of_handleAlarm halarm
      exact ⟨chronicle_handleAlarm halarm, hwakes.lasts⟩

/-- Each operation is a passage, for which a start may use any stack. -/
theorem Standing.passage_of_perform (hs : s.Standing) (hlived : s.Lived) {op : Operation}
    {decision : Option Decision} (hok : s.perform op = .ok (t, decision)) :
    ∃ ranges, Passage ranges s t := by
  by_cases hswitches : op.switches = true
  · cases op <;> simp only [Operation.switches, Bool.false_eq_true] at hswitches
    obtain ⟨_, hreschedule, _⟩ := perform_reschedule_eq_ok.mp hok
    exact ⟨[], hs.passage_of_reschedule hreschedule⟩
  by_cases hspawns : op.spawns = true
  · cases op <;> simp only [Operation.spawns, Bool.false_eq_true] at hspawns
    obtain ⟨⟨outcome, hspawn⟩, _⟩ := perform_spawn_eq_ok.mp hok
    rcases hs.spawn hspawn with ⟨_, rfl⟩ | ⟨id, rfl, hstarted⟩
    · exact ⟨[], .lasted rfl (.refl t)⟩
    · exact ⟨_, .began (chronicle_spawn hspawn) (List.mem_singleton_self _) hstarted⟩
  obtain ⟨hchronicle, hlasts⟩ := hs.lasts_of_perform hlived hok (Bool.eq_false_iff.mpr hspawns)
    (Bool.eq_false_iff.mpr hswitches)
  exact ⟨[], .lasted hchronicle hlasts⟩

theorem Reachable.lived (h : Reachable s) : s.Lived := by
  induction h with
  | @new hardware => exact lived_new hardware
  | elapse _ ih => exact ih.lasted rfl (lasts_of_tasks rfl)
  | perform hreachable hok ih =>
      obtain ⟨ranges, hpassage⟩ := hreachable.invariants.1.passage_of_perform ih hok
      exact hpassage.lived ih

def Unawaited (s : Scheduler H) : Prop :=
  ∀ slot ∈ slots, ¬s.Occupied slot → (s.tasks.record slot).completion.waiter = none

theorem Switched.occupied (hs : s.Standing) {decision : Decision}
    (h : Switched s pointer t decision id rest woken u v w) (hslot : slot ∈ slots)
    (hoccupied : s.Occupied slot) (hstays : slot = id.index → (s.record id).exiting = false) :
    t.Occupied slot := by
  by_cases hends : id.index ≠ 0 ∧ (s.record id).exiting = true
  · have hne : slot ≠ id.index := by
      intro he
      rw [hstays he] at hends
      exact absurd hends.2 (by decide)
    have hlasts := (h.ends hs hends.1 hends.2).2 slot hslot hne
    exact ⟨mt hlasts.vacant.mp hoccupied.1, mt hlasts.exited.mp hoccupied.2⟩
  · have hlasts := h.lasts hs fun hid => Bool.eq_false_iff.mpr fun he => hends ⟨hid, he⟩
    exact (hlasts.occupied hslot).mpr hoccupied

theorem Switched.unawaited (hs : s.Standing) {decision : Decision}
    (h : Switched s pointer t decision id rest woken u v w) (hbefore : s.Unawaited) :
    t.Unawaited := by
  intro slot hslot hgone
  by_cases hending : slot = id.index ∧ id.index ≠ 0 ∧ (s.record id).exiting = true
  · rw [h.completion slot, if_pos hending]
    rfl
  · have hoccupied : ¬s.Occupied slot := by
      refine mt (fun hoccupied => h.occupied hs hslot hoccupied fun he => ?_) hgone
      subst he
      exact Bool.eq_false_iff.mpr fun hends => hending ⟨rfl, (mem_slots.mp hslot).1, hends⟩
    rw [h.record_gone hs hslot hoccupied]
    exact hbefore slot hslot hoccupied

theorem Unawaited.started (h : s.Unawaited) {stack : StackRange}
    (hstarted : Started s stack pointer id t) : t.Unawaited := by
  intro slot hslot hgone
  by_cases he : slot = id.index
  · rw [he] at hgone
    exact absurd hstarted.occupied hgone
  · have hsame := hstarted.record_other hslot he
    rw [hsame]
    exact h slot hslot (not_occupied_congr hsame.symm hgone)

theorem Unawaited.perform (h : s.Unawaited) (hs : s.Standing) (hlived : s.Lived)
    {op : Operation} {decision : Option Decision} (hok : s.perform op = .ok (t, decision)) :
    t.Unawaited := by
  have hperformed := hs.perform hok
  cases hperformed with
  | refused => exact h
  | started hstarted => exact h.started hstarted
  | switched hswitched => exact hswitched.unawaited hs h
  | _ =>
      intro slot hslot hgone
      have hlasts := (hs.lasts_of_perform hlived hok rfl rfl).2
      have hbefore := mt (hlasts.occupied hslot).mpr hgone
      rw [hs.remains hlived hok rfl hslot hbefore]
      exact h slot hslot hbefore

theorem Reachable.unawaited (h : Reachable s) : s.Unawaited := by
  induction h with
  | new =>
      intro slot _ _
      exact congrArg (fun r => r.completion.waiter) (TaskTable.record_vacant slot)
  | elapse _ ih => exact ih
  | perform hreachable hok ih => exact ih.perform hreachable.invariants.1 hreachable.lived hok

end CoopTasks.Scheduler

import CoopTasks.Proofs.RosterSwitches

/-!
What calls do, told from a roster.

`r.Does call progress r'` tells what an attempt at a call does to a roster and
how far the call got.  A kernel that shows `r` then makes the attempt without a
fault and shows `r'` (`Kernel.Shows.attempt`).
-/

namespace CoopTasks

open Scheduler

namespace Roster

/-- A roster with one more task, behind the mainline if that is who starts it. -/
def enroll (r : Roster) (origin : Origin) : Roster :=
  { r with
    run := (if r.run = [] then [.mainline] else r.run) ++ [firstRun (r.origins.length + 1)]
    parts := r.parts ++ [.fresh origin] }

variable {r : Roster} {origin : Origin} {slot : Nat}

theorem origins_enroll : (r.enroll origin).origins = r.origins ++ [origin] := by
  simp [origins, enroll, Part.fresh]

theorem part?_enroll_new :
    (r.enroll origin).part? (r.origins.length + 1) = some (.fresh origin) := by
  simp [part?, enroll, origins]

theorem part?_enroll_of_ne (hslot : slot ≠ r.origins.length + 1) :
    (r.enroll origin).part? slot = r.part? slot := by
  cases slot with
  | zero => rfl
  | succ n =>
      have hne : n ≠ r.parts.length := by
        intro he
        simp [origins, he] at hslot
      simp only [part?, enroll]
      rcases Nat.lt_or_gt_of_ne hne with hlt | hgt
      · rw [List.getElem?_append_left hlt]
      · rw [List.getElem?_eq_none (by simp; omega), List.getElem?_eq_none (by omega)]

end Roster

namespace Scheduler

variable {s t : Scheduler Board} {arena : List StackRange} {r r' : Roster} {id : TaskId}
variable {part part' : Part} {rest : List TaskId} {change : TaskRecord → TaskRecord}

/-! ## Changes of one task -/

theorem Shows.recast (h : s.Shows arena r) {op : Operation} (hperformed : Performed s op t none)
    (hstart : op.spawns = false) (halarm : op ≠ .handleAlarm)
    (hmoved : Moved s id change s.runQueue s.sleepers t) (hfree : t.FaultFree fun _ => False)
    (hpart : r.part? id.index = some part) (horigin : part'.toOrigin = part.toOrigin)
    (hself : (change (s.record id)).outline = part'.outline arena id.index)
    (hlater : (r.setPart id.index part').Unhurried) :
    t.Shows arena (r.setPart id.index part') := by
  have hlists : t.Lists arena (r.setPart id.index part') :=
    h.toLists.set hmoved.altered (hmoved.runQueue.trans h.runQueue)
      (hmoved.sleepers.trans h.sleepers) hpart horigin hself
  refine h.performed hperformed hstart halarm hlists hfree (Roster.origins_setPart hpart horigin)
    rfl hlater fun hhead _ => ?_
  have hother : t.record .mainline = s.record .mainline :=
    hmoved.other (Ne.symm (h.task hpart))
  rw [hother]
  exact h.mainline hhead (List.ne_nil_of_mem (Roster.mem_of_part? hpart))

theorem Shows.unhurried_caller (h : s.Shows arena r) (hrun : r.run = id :: rest)
    (hpart : r.part? id.index = some part) : (r.setPart id.index part').Unhurried := by
  intro other hother
  have hne : other.index ≠ id.index := by
    refine Ne.symm (h.standing.apart id ?_ other (h.sleepers ▸ hother))
    rw [h.runQueue, hrun]
    exact List.mem_cons_self
  rw [Roster.bedtime_setPart hpart, if_neg hne]
  exact h.later other hother

theorem Shows.markExiting (h : s.Shows arena r) (hrun : r.run = id :: rest)
    (hpart : r.part? id.index = some part) (hmood : part.mood = .awake) (code : UInt32) :
    ∃ t, s.markExiting code = .ok t ∧
      t.Shows arena (r.setPart id.index { part with mood := .leaving code }) := by
  have hcurrent := h.current hrun (h.task hpart)
  have hok : s.markExiting code =
      .ok (s.update id fun t => { t with exiting := true, exitCode := code }) := by
    unfold Scheduler.markExiting
    rw [hcurrent]
    rfl
  obtain ⟨id', hcurrent', hhardware, hmoved⟩ := h.standing.markExiting hok
  obtain rfl := Option.some.inj (hcurrent'.symm.trans hcurrent)
  refine ⟨_, hok, h.recast (.exiting hcurrent hhardware hmoved) rfl nofun hmoved ?_ hpart rfl ?_
    (h.unhurried_caller hrun hpart)⟩
  · apply h.faultFree.markExiting h.standing _ hok
    intro id'' hcurrent''
    obtain rfl := Option.some.inj (hcurrent''.symm.trans hcurrent)
    exact h.sleepCount hpart hmood
  · refine (TaskRecord.outline_mark _ (.leaving code)).trans ?_
    rw [h.record hpart]
    exact (Part.outline_withMood hmood _).symm

theorem Shows.markAsleep (h : s.Shows arena r) (hrun : r.run = id :: rest)
    (hpart : r.part? id.index = some part) (hmood : part.mood = .awake) (deadline : Instant) :
    ∃ t, s.markAsleep deadline = .ok t ∧
      t.Shows arena (r.setPart id.index { part with mood := .drowsy deadline }) := by
  have hcurrent := h.current hrun (h.task hpart)
  have hzero : (s.record id).sleepCount = 0 := h.sleepCount hpart hmood
  have hok : s.markAsleep deadline = .ok (s.update id fun t => t.countSleep deadline) := by
    unfold Scheduler.markAsleep
    simp [hcurrent, hzero, demand, require, sleepCountMax, bind, Except.bind, pure, Except.pure]
  obtain ⟨id', hcurrent', hhardware, _, hmoved⟩ := h.standing.markAsleep hok
  obtain rfl := Option.some.inj (hcurrent'.symm.trans hcurrent)
  refine ⟨_, hok, h.recast (.asleep hcurrent hhardware hmoved) rfl (fun he => by cases he) hmoved
    ?_ hpart rfl ?_ (h.unhurried_caller hrun hpart)⟩
  · refine h.faultFree.markAsleep h.standing ?_ (fun _ _ hnever => hnever.elim)
      (fun _ _ hnever => hnever) hok
    intro id'' hcurrent''
    obtain rfl := Option.some.inj (hcurrent''.symm.trans hcurrent)
    exact ⟨hzero, h.exiting hpart hmood⟩
  · refine (TaskRecord.outline_mark _ (.drowsy deadline)).trans ?_
    rw [h.record hpart]
    exact (Part.outline_withMood hmood _).symm

theorem Shows.withCompletion (h : s.Shows arena r) (hpart : r.part? id.index = some part)
    (completion : Signal) :
    (s.withCompletion id completion).Shows arena (r.setPart id.index { part with completion }) := by
  have hlt := (Scheduler.mem_slots.mp (h.mem_slots hpart)).2
  have hmoved := h.standing.withCompletion hlt completion
  refine h.recast (.tried rfl hmoved) rfl nofun hmoved (h.faultFree.withCompletion hlt completion)
    hpart
    rfl ?_ ?_
  · rw [Part.outline_withCompletion, ← h.record hpart]
    rfl
  · intro other hother
    rw [Roster.bedtime_setPart hpart]
    split
    · rename_i hindex
      have hbedtime : r.bedtime other = part.mood.bedtime :=
        Roster.bedtime_of_mood (hindex ▸ hpart) rfl
      exact hbedtime ▸ h.later other hother
    · exact h.later other hother

theorem Shows.wake (h : s.Shows arena r) (hpart : r.part? id.index = some part)
    (hmood : part.mood = .drowsy .never) (hsleep : id ∈ r.sleep) :
    ∃ t, s.wake id = .ok t ∧ t.Shows arena { r.setPart id.index { part with mood := .awake } with
      run := r.run ++ [id], sleep := r.sleep.erase id } := by
  obtain ⟨t, hok, _, hfree⟩ := h.faultFree.wake h.standing (h.dozes hpart hmood hsleep)
  have hlists := h.toLists.wake h.standing h.timely hpart hmood hsleep hok
  refine ⟨t, hok, h.performed (.woken hok) rfl nofun hlists hfree (Roster.origins_setPart hpart rfl)
    rfl ?_ ?_⟩
  · intro other hother
    exact h.later.setPart hpart rfl other (List.mem_of_mem_erase hother)
  · intro hhead _
    obtain ⟨ids, hwakes⟩ := h.standing.wakes_of_wake hok
    rw [hwakes.record_mainline]
    apply h.mainline _ (List.ne_nil_of_mem (Roster.mem_of_part? hpart))
    intro hfirst
    apply hhead
    show (r.run ++ [id]).head? = _
    rw [List.head?_append, hfirst, Option.some_or]

/-! ## Starts -/

theorem find_first_after {p : Nat → Bool} {n : Nat} (hn : n + 1 ∈ slots)
    (hp : ∀ slot ∈ slots, p slot = true ↔ n < slot) : slots.find? p = some (n + 1) := by
  have hsorted : slots.Pairwise (· < ·) := by decide
  cases hfind : slots.find? p with
  | none =>
      rw [List.find?_eq_none] at hfind
      exact absurd ((hp _ hn).mpr (Nat.lt_succ_self n)) (hfind _ hn)
  | some slot =>
      obtain ⟨htrue, before, after, hsplit, hbefore⟩ := List.find?_eq_some_iff_append.mp hfind
      have hslot : slot ∈ slots := by simp [hsplit]
      have hlt := (hp slot hslot).mp htrue
      rw [hsplit] at hn hsorted
      rcases List.mem_append.mp hn with hmem | hmem
      · have hfalse := hbefore _ hmem
        rw [(hp _ (by rw [hsplit]; exact hn)).mpr (Nat.lt_succ_self n)] at hfalse
        contradiction
      · rcases List.mem_cons.mp hmem with he | hmem
        · rw [he]
        · have hless := (List.pairwise_cons.mp (List.pairwise_append.mp hsorted).2.1).1 _ hmem
          omega

theorem Shows.vacant_iff (h : s.Shows arena r) {slot : Nat} (hslot : slot ∈ slots) :
    (s.tasks.record slot).state = .vacant ↔ r.origins.length < slot := by
  have hstate := congrArg TaskRecord.state (h.outline slot hslot)
  have hne := (Scheduler.mem_slots.mp hslot).1
  rw [← TaskRecord.outline_eq_vacant]
  rw [show (s.tasks.record slot).state.outline = (r.outline arena slot).state from hstate]
  unfold Roster.outline
  cases hpart : r.part? slot with
  | none =>
      have hout : ¬slot - 1 < r.parts.length := by
        intro hlt
        have := Roster.part?_eq_some.mpr ⟨hne, List.getElem?_eq_getElem hlt⟩
        rw [hpart] at this
        contradiction
      have hlength : r.origins.length = r.parts.length := List.length_map _
      refine iff_of_true rfl ?_
      omega
  | some part =>
      refine iff_of_false ?_ (Nat.not_lt.mpr (Roster.lt_of_origin hpart))
      have hready : (part.outline arena slot).state = .ready ∨
          (part.outline arena slot).state = .exited := part.state_outline
      rcases hready with he | he <;> simp [he]

theorem Shows.boundTo_iff (h : s.Shows arena r) (hgrounds : Grounds arena) {slot number : Nat}
    (hslot : slot ∈ slots) (hnumber : number < arena.length) :
    s.boundTo (rangeIn arena number) slot = true ↔
      ∃ part, r.part? slot = some part ∧ part.stack = number := by
  rw [boundTo_eq_true]
  cases hpart : r.part? slot with
  | none =>
      have hvacant : (s.tasks.record slot).state = .vacant := by
        have houtline := h.outline slot hslot
        unfold Roster.outline at houtline
        rw [hpart] at houtline
        exact TaskRecord.outline_eq_vacant.mp (congrArg TaskRecord.state houtline)
      simp [hvacant]
  | some part =>
      have hstate : (s.tasks.record slot).state ≠ .vacant := by
        rw [ne_eq, h.vacant_iff hslot]
        exact Nat.not_lt.mpr (Roster.lt_of_origin hpart)
      have hstack : (s.tasks.record slot).stack = rangeIn arena part.stack := by
        have houtline := (h.outline slot hslot).trans (Roster.outline_of_part? hpart)
        exact (congrArg TaskRecord.stack houtline).trans Part.stack_outline
      rw [hstack]
      constructor
      · rintro ⟨_, hsame⟩
        exact ⟨part, rfl, hgrounds.eq_of_framePointer (h.inArena hpart) hnumber
          (congrArg StackRange.framePointer hsame)⟩
      · rintro ⟨other, hother, rfl⟩
        obtain rfl := Option.some.inj hother
        exact ⟨hstate, rfl⟩

theorem Shows.taskOn_none (h : s.Shows arena r) (hgrounds : Grounds arena) {number : Nat}
    (hnumber : number < arena.length) (hfresh : ∀ origin ∈ r.origins, origin.stack ≠ number) :
    s.taskOn (rangeIn arena number) = none := by
  unfold taskOn
  rw [Option.map_eq_none_iff, List.find?_eq_none]
  intro slot hslot hbound
  obtain ⟨part, hpart, rfl⟩ := (h.boundTo_iff hgrounds hslot hnumber).mp hbound
  exact hfresh part.toOrigin (List.mem_map_of_mem (Roster.mem_of_part? hpart)) rfl

theorem Shows.taskOn (h : s.Shows arena r) (hgrounds : Grounds arena) {slot : Nat}
    (hpart : r.part? slot = some part) :
    s.taskOn (rangeIn arena part.stack) = some (firstRun slot) := by
  have hslot := h.mem_slots hpart
  have hnumber := h.inArena hpart
  have hgeneration : (s.tasks.record slot).generation = UInt32.ofNat slot := by
    have houtline := (h.outline slot hslot).trans (Roster.outline_of_part? hpart)
    exact (congrArg TaskRecord.generation houtline).trans Part.generation_outline
  have hid : s.idOf slot = firstRun slot := by
    unfold idOf firstRun
    rw [hgeneration]
  rw [← hid]
  refine taskOn_of_only ?_ hslot ((h.boundTo_iff hgrounds hslot hnumber).mpr ⟨part, hpart, rfl⟩)
  intro a ha b hb hbounda hboundb
  obtain ⟨parta, hparta, hstacka⟩ := (h.boundTo_iff hgrounds ha hnumber).mp hbounda
  obtain ⟨partb, hpartb, hstackb⟩ := (h.boundTo_iff hgrounds hb hnumber).mp hboundb
  exact h.cast.slot_eq hparta hpartb (hstacka.trans hstackb.symm)

theorem Shows.index_ne (h : s.Shows arena r) (hrun : r.run = id :: rest) (hid : id ≠ .mainline) :
    id.index ≠ 0 := by
  intro hzero
  have hmem : id ∈ s.runQueue := by simp [h.runQueue, hrun]
  refine hid (TaskId.ext_of_index hzero ?_)
  rw [h.standing.generation id (List.mem_append_left _ hmem)]
  exact (congrArg (fun slot => (s.tasks.record slot).generation) hzero).trans h.standing.mainline

theorem Shows.started (h : s.Shows arena r) (hgrounds : Grounds arena) {origin : Origin}
    (hnumber : origin.stack < arena.length) (hfew : r.origins.length + 1 < slotCount)
    (hfresh : ∀ other ∈ r.origins, other.stack ≠ origin.stack)
    (hstarted : Started s (rangeIn arena origin.stack)
      (rangeIn arena origin.stack).framePointer id t)
    (hindex : id.index = r.origins.length + 1) : t.Shows arena (r.enroll origin) := by
  have hperformed : Performed s (.spawn (rangeIn arena origin.stack)
      (rangeIn arena origin.stack).framePointer) t none := .started hstarted
  have hgeneration : s.generation + 1 = UInt32.ofNat (r.origins.length + 1) := by
    rw [h.generation, UInt32.ofNat_add]
    rfl
  have hid : id = firstRun (r.origins.length + 1) := by
    have hcount : slotCount = 16 := rfl
    refine TaskId.ext_of_index ?_ (hstarted.current.trans hgeneration)
    rw [hindex]
    exact (TaskId.index_mk (by omega) _).symm
  have hpart : (r.enroll origin).part? id.index = some (.fresh origin) :=
    hindex ▸ Roster.part?_enroll_new
  have hsame : ∀ slot, slot ≠ id.index → (r.enroll origin).part? slot = r.part? slot :=
    fun slot hne => Roster.part?_enroll_of_ne (hindex ▸ hne)
  obtain ⟨hclock, hlag⟩ := Board.driven (hperformed.driven h.standing)
  have hwatched : t.Watched true := hperformed.watched h.standing nofun (.of_eq h.alarm)
  refine ⟨⟨?runQueue, hstarted.sleepers.trans h.sleepers, ?outline, ?cast⟩, hstarted.standing,
    hstarted.timely h.standing h.timely, ?faultFree, hwatched.only rfl, hlag.trans h.lag,
    hclock.trans h.clock, ?generation, ?later, ?mainline⟩
  case runQueue =>
    rw [hstarted.runQueue, hid]
    unfold admitted
    rw [h.runQueue]
    rfl
  case outline =>
    intro slot hslot
    by_cases he : slot = id.index
    · subst he
      rw [Roster.outline_of_part? hpart, show t.tasks.record id.index = _ from hstarted.self,
        hindex]
      unfold startedRecord
      rw [hgeneration]
      rfl
    · rw [hstarted.record_other hslot he, h.outline slot hslot]
      unfold Roster.outline
      rw [hsame slot he]
  case cast =>
    rw [Roster.origins_enroll]
    refine ⟨by simpa using hfew, ?_, ?_⟩
    · intro other hother
      rcases List.mem_append.mp hother with hother | hother
      · exact h.cast.inArena other hother
      · rwa [List.mem_singleton.mp hother]
    · rw [List.map_append, List.map_singleton, List.nodup_append]
      refine ⟨h.cast.apart, by simp, ?_⟩
      intro a ha b hb
      obtain ⟨other, hother, rfl⟩ := List.mem_map.mp ha
      rw [List.mem_singleton.mp hb]
      exact hfresh other hother
  case faultFree =>
    exact h.faultFree.began hstarted (.refl _) (hgrounds.usable_rangeIn hnumber).holds_framePointer
      not_false fun _ _ _ hnever => hnever
  case generation =>
    rw [hstarted.generation, hgeneration, Roster.origins_enroll, List.length_append]
    rfl
  case later =>
    intro other hother
    have hmem : other ∈ s.sleepers := h.sleepers ▸ hother
    have hne : other.index ≠ id.index := by
      intro he
      have hasleep := (h.standing.asleep other hmem).2
      have hgone := hstarted.gone
      unfold Scheduler.record at hasleep hgone
      rw [he] at hasleep
      rw [hasleep] at hgone
      exact hgone.elim nofun nofun
    have hbedtime : (r.enroll origin).bedtime other = r.bedtime other := by
      unfold Roster.bedtime
      rw [hsame other.index hne]
    rw [hbedtime]
    exact h.later other hother
  case mainline =>
    intro hhead _
    have hrun : s.runQueue ≠ [] := by
      intro hempty
      rw [h.runQueue] at hempty
      exact hhead (by simp [Roster.enroll, hempty])
    rw [hstarted.mainline, if_neg hrun]
    rw [h.runQueue] at hrun
    obtain ⟨first, more, hfirst⟩ := List.exists_cons_of_ne_nil hrun
    have hne : first ≠ .mainline := by
      intro he
      exact hhead (by simp [Roster.enroll, hfirst, he])
    obtain ⟨part, hpart, _⟩ := h.part?_of_mem h.standing (by simp [hfirst]) (h.index_ne hfirst hne)
    exact h.mainline (by simpa [hfirst] using hne) (List.ne_nil_of_mem (Roster.mem_of_part? hpart))

theorem Shows.spawn (h : s.Shows arena r) (hgrounds : Grounds arena) {origin : Origin}
    (hnumber : origin.stack < arena.length) (hfew : r.origins.length + 1 < slotCount)
    (hfresh : ∀ other ∈ r.origins, other.stack ≠ origin.stack) :
    ∃ t id, s.spawn (rangeIn arena origin.stack) (rangeIn arena origin.stack).framePointer =
        .ok (t, .ok id) ∧ t.Shows arena (r.enroll origin) := by
  have hslot : r.origins.length + 1 ∈ slots := Scheduler.mem_slots.mpr ⟨by omega, hfew⟩
  have hnone := h.taskOn_none hgrounds hnumber hfresh
  have hvacant := (h.vacant_iff hslot).mpr (Nat.lt_succ_self _)
  have hunused : s.stackInUse (rangeIn arena origin.stack) = false := by
    unfold stackInUse
    rw [hnone]
    rfl
  have hchosen : s.chooseSlot (rangeIn arena origin.stack) = some (r.origins.length + 1) := by
    unfold chooseSlot
    rw [hnone, find_first_after hslot fun slot hslot => ?_]
    rw [decide_eq_true_iff]
    exact h.vacant_iff hslot
  obtain ⟨t, id, hok, hstarted⟩ := h.standing.spawn_chosen hunused hchosen
    (h.standing.unlinked hslot fun hoccupied => hoccupied.1 hvacant)
  exact ⟨t, id, hok, h.started hgrounds hnumber hfew hfresh hstarted
    (Option.some.inj (hstarted.chosen.symm.trans hchosen))⟩

theorem Shows.setSignal (h : s.Shows arena r) (number : Nat) (signal : Signal) :
    s.Shows arena (r.setSignal number signal) where
  runQueue := h.runQueue
  sleepers := h.sleepers
  outline := h.outline
  cast := h.cast
  standing := h.standing
  timely := h.timely
  faultFree := h.faultFree
  alarm := h.alarm
  lag := h.lag
  clock := h.clock
  generation := h.generation
  later := h.later
  mainline := h.mainline

theorem Shows.prepared (h : s.Shows arena r) :
    Shows { s with hardware := Hardware.readyDecisionStack s.hardware } arena r where
  runQueue := h.runQueue
  sleepers := h.sleepers
  outline := h.outline
  cast := h.cast
  standing := (alarmMoved s _ s.armed).standing h.standing
  timely := h.timely.congr rfl (fun _ _ => rfl) rfl
  faultFree :=
    h.faultFree.moved (alarmMoved s _ s.armed) (SteadyHardware.readyDecisionStack_onward _)
  alarm := h.alarm
  lag := h.lag
  clock := h.clock
  generation := h.generation
  later := h.later
  mainline := h.mainline

end Scheduler

/-! ## Calls -/

namespace Roster

/-- What an attempt at a call does to a roster, and how far the call got. -/
inductive Does (arena : List StackRange) (r : Roster) :
    (call : Call) → Progress call.Answer → Roster → Prop
  | start {origin : Origin} :
      origin.stack < arena.length →
      r.origins.length + 1 < slotCount →
      (∀ other ∈ r.origins, other.stack ≠ origin.stack) →
      Does arena r (.start origin.entry origin.param origin.stack) (.switchThen ())
        (r.enroll origin)
  | giveWay {id : TaskId} {rest : List TaskId} {part : Part} :
      r.run = id :: rest →
      r.part? id.index = some part →
      Does arena r .giveWay (.switchThen ()) r
  | exit {id : TaskId} {rest : List TaskId} {part : Part} (code : UInt32) :
      r.run = id :: rest →
      r.part? id.index = some part →
      part.mood = .awake →
      Does arena r (.exit code) .leave (r.setPart id.index { part with mood := .leaving code })
  | sleepUntil {id : TaskId} {rest : List TaskId} {part : Part} (deadline : Instant) :
      r.run = id :: rest →
      r.part? id.index = some part →
      part.mood = .awake →
      Does arena r (.sleepUntil deadline) (.switchThen ())
        (r.setPart id.index { part with mood := .drowsy deadline })
  | taken {number : Nat} {signal : Signal} :
      r.signals[number]? = some signal →
      signal.tryTake.2 = true →
      Does arena r (.wait number) (.done ()) (r.setSignal number signal.tryTake.1)
  /-- There is nothing to take. -/
  | enlisted {number : Nat} {signal : Signal} {id : TaskId} {rest : List TaskId} {part : Part} :
      r.signals[number]? = some signal →
      signal.tryTake.2 = false →
      signal.waiter = none →
      r.run = id :: rest →
      r.part? id.index = some part →
      part.mood = .awake →
      Does arena r (.wait number) .switchRetry
        ((r.setPart id.index { part with mood := .drowsy .never }).setSignal number
          { signal with waiter := some id })
  | posted {number : Nat} {signal : Signal} :
      r.signals[number]? = some signal →
      signal.waiter = none →
      Does arena r (.post number) (.done ()) (r.setSignal number signal.post.1)
  /-- A task that waits for the signal is woken. -/
  | roused {number : Nat} {signal : Signal} {id : TaskId} {part : Part} :
      r.signals[number]? = some signal →
      signal.waiter = some id →
      id ∈ r.sleep →
      r.part? id.index = some part →
      part.mood = .drowsy .never →
      r.run ≠ [] →
      Does arena r (.post number) (.done ())
        { (r.setPart id.index { part with mood := .awake }).setSignal number signal.post.1 with
          run := r.run ++ [id]
          sleep := r.sleep.erase id }
  | joined {number : Nat} {part : Part} {code : UInt32} {id : TaskId} {rest : List TaskId}
      (slot : Nat) :
      r.run = id :: rest →
      id.index ≠ slot →
      r.part? slot = some part →
      part.stack = number →
      part.mood = .gone code →
      part.completion.tryTake = (part.completion, true) →
      Does arena r (.join number) (.done code) r
  /-- The task has not come to its end. -/
  | joining {number : Nat} {target part : Part} {id : TaskId} {rest : List TaskId} (slot : Nat) :
      r.run = id :: rest →
      id.index ≠ slot →
      r.part? slot = some target →
      target.stack = number →
      target.completion.tryTake = (target.completion, false) →
      target.completion.waiter = none →
      r.part? id.index = some part →
      part.mood = .awake →
      Does arena r (.join number) .switchRetry
        ((r.setPart id.index { part with mood := .drowsy .never }).setPart slot
          { target with completion := { target.completion with waiter := some id } })
  | tried {number : Nat} {part : Part} {code : UInt32} (slot : Nat) :
      r.part? slot = some part →
      part.stack = number →
      part.mood = .gone code →
      part.completion.tryTake = (part.completion, true) →
      Does arena r (.tryJoin number) (.done (some code)) r
  | now : Does arena r .now (.done r.clock) r
  | signalState {number : Nat} {signal : Signal} :
      r.signals[number]? = some signal →
      Does arena r (.signalState number) (.done signal) r

end Roster

theorem Stack.ofStack?_setUp {stack stack' : Stack} {frame : Frame} {pointer : Address}
    (hok : stack.setUp frame = .ok (stack', pointer)) :
    Frame.ofStack? stack'.words = some frame := by
  obtain ⟨hle, _⟩ := Kernel.setUp_eq_ok hok
  unfold setUp at hok
  rw [Frame.placeOn_of_le frame hle] at hok
  obtain ⟨rfl, _⟩ := Prod.mk.inj (Except.ok.inj hok)
  exact Frame.ofStack?_append_words _ frame

namespace Kernel

variable {k : Kernel Board} {t : Scheduler Board} {arena : List StackRange} {r r' : Roster}
variable {part part' : Part} {id : TaskId} {rest : List TaskId}

theorem Shows.rangeAt (h : k.Shows arena r) (number : Nat) :
    k.rangeAt number = rangeIn arena number := by
  rw [rangeAt_eq, h.ranges]
  rfl

theorem Shows.withScheduler (h : k.Shows arena r) (ht : t.Shows arena r')
    (hsignals : r'.signals = r.signals) (horigins : r'.origins = r.origins) :
    Shows { k with scheduler := t } arena r' :=
  ⟨ht, h.signals.trans hsignals.symm, h.ranges, horigins ▸ h.frames⟩

theorem Shows.setSignal (h : k.Shows arena r) (number : Nat) (signal : Signal) :
    (k.setSignal number signal).Shows arena (r.setSignal number signal) :=
  ⟨h.scheduler.setSignal number signal,
    congrArg (fun signals : List Signal => signals.set number signal) h.signals, h.ranges, h.frames⟩

theorem Shows.requireSignal (h : k.Shows arena r) {number : Nat} {signal : Signal}
    (hsignal : r.signals[number]? = some signal) : k.requireSignal number = .ok signal := by
  unfold Kernel.requireSignal
  rw [h.signals, hsignal]
  rfl

theorem Shows.taskOn (h : k.Shows arena r) (hgrounds : Grounds arena) {slot : Nat}
    (hpart : r.part? slot = some part) : k.taskOn part.stack = some (firstRun slot) := by
  unfold Kernel.taskOn
  rw [h.rangeAt, h.scheduler.taskOn hgrounds hpart]

theorem Shows.start (h : k.Shows arena r) (hgrounds : Grounds arena) {origin : Origin}
    (hnumber : origin.stack < arena.length) (hfew : r.origins.length + 1 < slotCount)
    (hfresh : ∀ other ∈ r.origins, other.stack ≠ origin.stack) :
    ∃ k', k.start origin.entry origin.param origin.stack = .ok (k', .switchThen ()) ∧
      k'.Shows arena (r.enroll origin) := by
  have hrange : (k.stackAt origin.stack).range = rangeIn arena origin.stack := h.rangeAt _
  have husable : (k.stackAt origin.stack).range.Usable :=
    hrange ▸ hgrounds.usable_rangeIn hnumber
  have hunused : k.scheduler.stackInUse (k.stackAt origin.stack).range = false := by
    unfold stackInUse
    rw [hrange, h.scheduler.taskOn_none hgrounds hnumber hfresh]
    rfl
  obtain ⟨stack, hsetUp⟩ :=
    Stack.setUp_usable husable ⟨origin.entry, origin.param, k.trampoline⟩
  have hsame : stack.range = (k.stackAt origin.stack).range := Stack.range_setUp hsetUp
  have hready : ({ k.scheduler with
      hardware := if k.scheduler.current.isNone then
        Hardware.readyDecisionStack k.scheduler.hardware else k.scheduler.hardware }).Shows
      arena r := by
    split
    · exact h.scheduler.prepared
    · exact h.scheduler
  obtain ⟨t, id, hspawn, ht⟩ := hready.spawn hgrounds hnumber hfew hfresh
  refine ⟨{ k with scheduler := t }.setStack origin.stack stack, ?_,
    ⟨ht, h.signals, (ranges_setStack (k := { k with scheduler := t }) hsame).trans h.ranges, ?_⟩⟩
  · unfold Kernel.start
    dsimp only
    rw [hunused, hsetUp, Stack.freshPointer_eq husable]
    simp only [bind, Except.bind, Bool.false_eq_true, if_false]
    rw [hsame, hrange, hspawn]
    rfl
  · intro other hother
    rw [Roster.origins_enroll] at hother
    have hwords : ∀ number, (({ k with scheduler := t }.setStack origin.stack stack).stackAt
        number) = if origin.stack = number then stack else k.stackAt number := by
      intro number
      have hlt : origin.stack < k.memory.length := by
        rw [← h.ranges] at hnumber
        simpa [Kernel.ranges] using hnumber
      simp only [stackAt, setStack, List.getElem?_set]
      split
      · rename_i he
        subst he
        simp
      · rfl
    rcases List.mem_append.mp hother with hother | hself
    · rw [hwords, if_neg (Ne.symm (hfresh other hother))]
      exact h.frames other hother
    · obtain rfl := List.mem_singleton.mp hself
      rw [hwords, if_pos rfl]
      exact ⟨k.trampoline, Stack.ofStack?_setUp hsetUp⟩

theorem Shows.wait_taken (h : k.Shows arena r) {number : Nat} {signal : Signal}
    (hsignal : r.signals[number]? = some signal) (htake : signal.tryTake.2 = true) :
    ∃ k', k.wait number = .ok (k', .done ()) ∧
      k'.Shows arena (r.setSignal number signal.tryTake.1) := by
  have hwait : k.scheduler.attemptWait signal =
      .ok (k.scheduler, signal.tryTake.1, .acquired) := by
    simp only [Scheduler.attemptWait, htake, if_true, pure, Except.pure]
  refine ⟨_, ?_, h.setSignal number signal.tryTake.1⟩
  simp only [Kernel.wait, h.requireSignal hsignal, hwait, bind, Except.bind, pure, Except.pure]
  rfl

theorem Shows.attemptWait (h : k.Shows arena r) {signal : Signal}
    (htake : signal.tryTake.2 = false) (hwaiter : signal.waiter = none) (hrun : r.run = id :: rest)
    (hpart : r.part? id.index = some part) (hmood : part.mood = .awake) :
    ∃ t, k.scheduler.attemptWait signal = .ok (t, { signal with waiter := some id }, .parked) ∧
      t.Shows arena (r.setPart id.index { part with mood := .drowsy .never }) := by
  obtain ⟨t, hok, ht⟩ := h.scheduler.markAsleep hrun hpart hmood .never
  have hcurrent := h.scheduler.current hrun (h.scheduler.task hpart)
  obtain ⟨_, _, hsame⟩ := Signal.tryTake_eq_false.mp
    (show signal.tryTake = (signal.tryTake.1, false) from Prod.ext rfl htake)
  refine ⟨t, ?_, ht⟩
  simp only [Scheduler.attemptWait, htake, hsame, hcurrent, demand, Signal.enlist, hwaiter, hok,
    bind, Except.bind, pure, Except.pure, Bool.false_eq_true, if_false]

theorem Shows.post (h : k.Shows arena r) {number : Nat} {signal : Signal}
    (hsignal : r.signals[number]? = some signal)
    (hwake : k.scheduler.wakeWaiter signal.waiter = .ok t) (ht : t.Shows arena r')
    (hsignals : r'.signals = r.signals) (horigins : r'.origins = r.origins) :
    ∃ k', k.post number = .ok k' ∧ k'.Shows arena (r'.setSignal number signal.post.1) := by
  refine ⟨_, ?_, (h.withScheduler ht hsignals horigins).setSignal number signal.post.1⟩
  have hpost : k.scheduler.post signal = .ok (t, signal.post.1) := by
    show (do return (← k.scheduler.wakeWaiter signal.waiter, signal.post.1)) = _
    rw [hwake]
    rfl
  simp only [Kernel.post, h.requireSignal hsignal, hpost, bind, Except.bind, pure, Except.pure]

theorem Shows.joinable (h : k.Shows arena r) {slot : Nat} (hpart : r.part? slot = some part) :
    k.scheduler.Joinable (firstRun slot) := by
  have hslot := h.scheduler.mem_slots hpart
  obtain ⟨hne, hlt⟩ := Scheduler.mem_slots.mp hslot
  rw [← index_firstRun hlt] at hpart
  refine ⟨?_, h.scheduler.task hpart, ?_⟩
  · rwa [index_firstRun hlt]
  · rw [ne_eq, show k.scheduler.record (firstRun slot) = k.scheduler.tasks.record slot from
      congrArg k.scheduler.tasks.record (index_firstRun hlt), h.scheduler.vacant_iff hslot]
    rw [index_firstRun hlt] at hpart
    exact Nat.not_lt.mpr (Roster.lt_of_origin hpart)

theorem Shows.join (h : k.Shows arena r) (hgrounds : Grounds arena) {slot : Nat}
    (hrun : r.run = id :: rest) (hne : id.index ≠ slot) (hpart : r.part? slot = some part)
    {completion : Signal} {result : WaitResult}
    (hwait : k.scheduler.attemptWait part.completion = .ok (t, completion, result))
    (ht : t.Shows arena r') (hpart' : r'.part? slot = some part')
    (hsignals : r'.signals = r.signals) (horigins : r'.origins = r.origins) :
    ∃ k', k.join part.stack = .ok (k', result.progress (part'.outline arena slot).exitCode) ∧
      k'.Shows arena (r'.setPart slot { part' with completion }) := by
  have hlt := (Scheduler.mem_slots.mp (h.scheduler.mem_slots hpart)).2
  have hindex : (firstRun slot).index = slot := index_firstRun hlt
  obtain ⟨hslot, hstarted⟩ := (h.joinable hpart).required
  have hself : require (k.scheduler.current ≠ some (firstRun slot)) (.joinSelf (firstRun slot)) =
      .ok () := by
    rw [require_eq_ok]
    intro hcurrent
    obtain ⟨hhead, _⟩ := h.scheduler.standing.current_eq_some_iff.mp hcurrent
    rw [h.scheduler.runQueue, hrun, List.head?_cons, Option.some.injEq] at hhead
    exact hne (hhead ▸ hindex)
  have hfirst : r.part? (firstRun slot).index = some part := by rwa [hindex]
  have hcompletion : (k.scheduler.record (firstRun slot)).completion = part.completion :=
    h.scheduler.completion hfirst
  have hattempt : k.scheduler.attemptJoin (firstRun slot) =
      .ok (t.withCompletion (firstRun slot) completion, result) := by
    simp only [attemptJoin, hself, hslot, hstarted, hcompletion, hwait, bind, Except.bind, pure,
      Except.pure]
    rfl
  have hu : (t.withCompletion (firstRun slot) completion).Shows arena
      (r'.setPart slot { part' with completion }) := by
    have hfirst' : r'.part? (firstRun slot).index = some part' := by rwa [hindex]
    have hset := ht.withCompletion hfirst' completion
    rwa [hindex] at hset
  have hcode : ((t.withCompletion (firstRun slot) completion).record (firstRun slot)).exitCode =
      (part'.outline arena slot).exitCode := by
    have hself : (r'.setPart slot { part' with completion }).part? (firstRun slot).index =
        some { part' with completion } := by
      rw [hindex, Roster.part?_setPart hpart', if_pos rfl]
    rw [hu.field hself TaskRecord.exitCode fun _ => rfl, hindex, Part.outline_withCompletion]
  have hsame : (r'.setPart slot { part' with completion }).origins = r'.origins :=
    Roster.origins_setPart hpart' rfl
  refine ⟨_, ?_, h.withScheduler hu hsignals (hsame.trans horigins)⟩
  simp only [Kernel.join, h.taskOn hgrounds hpart, demand, hattempt, hcode, bind, Except.bind, pure,
    Except.pure]

theorem Shows.tryJoin (h : k.Shows arena r) (hgrounds : Grounds arena) {slot : Nat}
    (hpart : r.part? slot = some part) {code : UInt32} (hmood : part.mood = .gone code)
    (htake : part.completion.tryTake = (part.completion, true)) :
    ∃ k', k.tryJoin part.stack = .ok (k', some code) ∧ k'.Shows arena r := by
  have hlt := (Scheduler.mem_slots.mp (h.scheduler.mem_slots hpart)).2
  have hindex : (firstRun slot).index = slot := index_firstRun hlt
  obtain ⟨hslot, hstarted⟩ := (h.joinable hpart).required
  have hfirst : r.part? (firstRun slot).index = some part := by rwa [hindex]
  have hcompletion : (k.scheduler.record (firstRun slot)).completion = part.completion :=
    h.scheduler.completion hfirst
  have hcode : (k.scheduler.record (firstRun slot)).exitCode = code := by
    rw [h.scheduler.field hfirst TaskRecord.exitCode fun _ => rfl]
    unfold Part.outline
    rw [hmood]
    rfl
  have hset := h.scheduler.withCompletion hfirst part.completion
  rw [hindex, Roster.setPart_self hpart] at hset
  refine ⟨_, ?_, h.withScheduler hset rfl rfl⟩
  have htry : k.scheduler.tryJoin (firstRun slot) =
      .ok (k.scheduler.withCompletion (firstRun slot) part.completion, some code) := by
    simp only [Scheduler.tryJoin, hslot, hstarted, hcompletion, htake, hcode, bind, Except.bind,
      pure, Except.pure, if_true]
    rfl
  simp only [Kernel.tryJoin, h.taskOn hgrounds hpart, demand, htry, bind, Except.bind, pure,
    Except.pure]

/-- An attempt at a call does to a kernel what its roster says. -/
theorem Shows.attempt (h : k.Shows arena r) (hgrounds : Grounds arena) {call : Call}
    {progress : Progress call.Answer} (hdoes : r.Does arena call progress r') :
    ∃ k', k.attempt call = .ok (k', progress) ∧ k'.Shows arena r' := by
  cases hdoes with
  | start hnumber hfew hfresh => exact h.start hgrounds hnumber hfew hfresh
  | giveWay hrun hpart =>
      refine ⟨k, ?_, h⟩
      simp only [Kernel.attempt, Kernel.giveWay, h.scheduler.current hrun (h.scheduler.task hpart)]
      rfl
  | exit code hrun hpart hmood =>
      obtain ⟨t, hok, ht⟩ := h.scheduler.markExiting hrun hpart hmood code
      refine ⟨_, ?_, h.withScheduler ht rfl (Roster.origins_setPart hpart rfl)⟩
      simp only [Kernel.attempt, Kernel.exit, hok, bind, Except.bind, pure, Except.pure]
  | sleepUntil deadline hrun hpart hmood =>
      obtain ⟨t, hok, ht⟩ := h.scheduler.markAsleep hrun hpart hmood deadline
      refine ⟨_, ?_, h.withScheduler ht rfl (Roster.origins_setPart hpart rfl)⟩
      simp only [Kernel.attempt, Kernel.sleepUntil, hok, bind, Except.bind, pure, Except.pure]
  | taken hsignal htake => exact h.wait_taken hsignal htake
  | @enlisted number signal id rest part hsignal htake hwaiter hrun hpart hmood =>
      obtain ⟨t, hok, ht⟩ := h.attemptWait htake hwaiter hrun hpart hmood
      refine ⟨_, ?_, (h.withScheduler ht rfl (Roster.origins_setPart hpart rfl)).setSignal number
        { signal with waiter := some id }⟩
      simp only [Kernel.attempt, Kernel.wait, h.requireSignal hsignal, hok, bind, Except.bind, pure,
        Except.pure]
      rfl
  | posted hsignal hwaiter =>
      obtain ⟨k', hok, hk'⟩ := h.post hsignal (by rw [hwaiter]; rfl) h.scheduler rfl rfl
      refine ⟨k', ?_, hk'⟩
      simp only [Kernel.attempt, hok, bind, Except.bind, pure, Except.pure]
  | roused hsignal hwaiter hsleep hpart hmood _ =>
      obtain ⟨t, hwake, ht⟩ := h.scheduler.wake hpart hmood hsleep
      obtain ⟨k', hok, hk'⟩ := h.post hsignal (by rw [hwaiter]; exact hwake) ht rfl
        (Roster.origins_setPart hpart rfl)
      refine ⟨k', ?_, hk'⟩
      simp only [Kernel.attempt, hok, bind, Except.bind, pure, Except.pure]
  | @joined _ part code id rest slot hrun hne hpart hstack hmood htake =>
      subst hstack
      have hwait : k.scheduler.attemptWait part.completion =
          .ok (k.scheduler, part.completion, .acquired) := by
        simp only [Scheduler.attemptWait, htake, if_true, pure, Except.pure]
      obtain ⟨k', hok, hk'⟩ := h.join hgrounds hrun hne hpart hwait h.scheduler hpart rfl rfl
      rw [Roster.setPart_self hpart] at hk'
      have hcode : (part.outline arena slot).exitCode = code := by
        unfold Part.outline
        rw [hmood]
        rfl
      rw [hcode] at hok
      exact ⟨k', hok, hk'⟩
  | joining slot hrun hne htarget hstack htake hwaiter hpart hmood =>
      subst hstack
      obtain ⟨t, hwait, ht⟩ := h.attemptWait (congrArg Prod.snd htake) hwaiter hrun hpart hmood
      exact h.join hgrounds hrun hne htarget hwait ht
        ((Roster.part?_setPart_ne hpart _ (Ne.symm hne)).trans htarget) rfl
        (Roster.origins_setPart hpart rfl)
  | tried slot hpart hstack hmood htake =>
      subst hstack
      obtain ⟨k', hok, hk'⟩ := h.tryJoin hgrounds hpart hmood htake
      refine ⟨k', ?_, hk'⟩
      simp only [Kernel.attempt, hok, bind, Except.bind, pure, Except.pure]
  | now =>
      refine ⟨k, ?_, h⟩
      simp only [Kernel.attempt, pure, Except.pure]
      rw [show k.scheduler.now = r.clock from h.scheduler.clock]
  | signalState hsignal =>
      refine ⟨k, ?_, h⟩
      simp only [Kernel.attempt, h.requireSignal hsignal, bind, Except.bind, pure, Except.pure]

end Kernel

end CoopTasks

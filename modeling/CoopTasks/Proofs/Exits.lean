import CoopTasks.Proofs.Fields
import CoopTasks.Proofs.EndedTasks

/-!
How the end of a run becomes known.

`Career id course s` follows one run from its start, and `Course` is how far it
has come: it goes on, perhaps with an exit code given already, or it is over.
Its last exit code before the switch that retires it is what every join of it
learns, until a task is started in its slot again: `Career.exit_propagates`.
-/

namespace CoopTasks.Scheduler

variable {H : Type} {s t u : Scheduler H} {id : TaskId} {exit : Option UInt32} {code : UInt32}

inductive Course where
  | going (exit : Option UInt32)
  | past (code : UInt32)
  deriving DecidableEq, Repr

def Course.after (id : TaskId) (s : Scheduler H) : Course → Operation → Course
  | .going exit, .markExiting code => .going (if s.current = some id then some code else exit)
  | .going (some code), .reschedule _ =>
      if s.current = some id then .past code else .going (some code)
  | course, _ => course

section Career

variable [Hardware H]

/-- A run from its start on, at most until the next start in its slot after its end. -/
inductive Career (id : TaskId) : Course → Scheduler H → Prop
  | begun {s t : Scheduler H} {stack : StackRange} {pointer : Address} :
      Reachable s →
      s.spawn stack pointer = .ok (t, .ok id) →
      Career id (.going none) t
  | elapse {course : Course} {s : Scheduler H} {hardware : H} :
      Career id course s →
      Career id course { s with hardware }
  | spawned {course : Course} {s t : Scheduler H} {stack : StackRange} {pointer : Address}
      {other : TaskId} :
      Career id course s →
      s.spawn stack pointer = .ok (t, .ok other) →
      (∀ code, course = .past code → other.index ≠ id.index) →
      Career id course t
  | refused {course : Course} {s t : Scheduler H} {stack : StackRange} {pointer : Address}
      {reason : StartError} :
      Career id course s →
      s.spawn stack pointer = .ok (t, .error reason) →
      Career id course t
  | performed {course : Course} {s t : Scheduler H} {op : Operation}
      {decision : Option Decision} :
      Career id course s →
      op.spawns = false →
      s.perform op = .ok (t, decision) →
      Career id (course.after id s op) t

end Career

/-! ## What the record tells of a run -/

structure Going (s : Scheduler H) (id : TaskId) (exit : Option UInt32) : Prop where
  slot : id.index ∈ slots
  idOf : s.idOf id.index = id
  occupied : s.Occupied id.index
  exiting : (s.record id).exiting = exit.isSome
  exitCode : ∀ code, exit = some code → (s.record id).exitCode = code

structure Over (s : Scheduler H) (id : TaskId) (code : UInt32) : Prop where
  slot : id.index ∈ slots
  state : (s.record id).state = .exited
  exitCode : (s.record id).exitCode = code

def Course.Holds (s : Scheduler H) (id : TaskId) : Course → Prop
  | .going exit => s.Going id exit
  | .past code => s.Over id code

theorem Going.joinable (h : s.Going id exit) : s.Joinable id :=
  ⟨(mem_slots.mp h.slot).2, (mem_slots.mp h.slot).1, h.occupied.1⟩

theorem Over.joinable (h : s.Over id code) : s.Joinable id :=
  ⟨(mem_slots.mp h.slot).2, (mem_slots.mp h.slot).1, by simp [h.state]⟩

theorem Over.gone (h : s.Over id code) : ¬s.Occupied id.index :=
  fun hoccupied => hoccupied.2 h.state

theorem Going.same (h : s.Going id exit) (hoccupied : t.Occupied id.index)
    (hgeneration : (t.record id).generation = (s.record id).generation)
    (hexit : ((t.record id).exiting, (t.record id).exitCode) =
      ((s.record id).exiting, (s.record id).exitCode)) : t.Going id exit := by
  obtain ⟨hexiting, hcode⟩ := Prod.mk.inj hexit
  refine ⟨h.slot, (idOf_eq hgeneration).trans h.idOf, hoccupied, hexiting.trans h.exiting, ?_⟩
  intro code he
  exact hcode.trans (h.exitCode code he)

theorem Going.of_record (h : s.Going id exit)
    (hsame : t.tasks.record id.index = s.tasks.record id.index) : t.Going id exit := by
  have hrecord : t.record id = s.record id := hsame
  refine h.same ?_ (by rw [hrecord]) (by rw [hrecord])
  unfold Occupied
  rw [hsame]
  exact h.occupied

theorem Over.of_record (h : s.Over id code)
    (hsame : t.tasks.record id.index = s.tasks.record id.index) : t.Over id code := by
  have hrecord : t.record id = s.record id := hsame
  exact ⟨h.slot, hrecord ▸ h.state, hrecord ▸ h.exitCode⟩

theorem Course.Holds.of_record {course : Course} (h : course.Holds s id)
    (hsame : t.tasks.record id.index = s.tasks.record id.index) : course.Holds t id := by
  cases course with
  | going exit => exact Going.of_record h hsame
  | past code => exact Over.of_record h hsame

/-! ## One operation -/

variable [Hardware H] {pointer : Address} {decision : Decision}

theorem Started.going {stack : StackRange} (h : Started s stack pointer id t) :
    t.Going id none := by
  have hexiting : (t.record id).exiting = false := by
    rw [h.self]
    rfl
  exact ⟨Scheduler.mem_slots.mpr h.mem_slots, h.idOf, h.occupied, hexiting, nofun⟩

theorem Going.not_started (h : s.Going id exit) {other : TaskId} {stack : StackRange}
    (hstarted : Started s stack pointer other t) : id.index ≠ other.index := by
  intro he
  have hoccupied := h.occupied
  rw [he] at hoccupied
  exact hoccupied.not_gone hstarted.gone

theorem Going.not_switched (h : s.Going id exit) (hs : s.Standing)
    (hother : s.current ≠ some id) {head : TaskId} {rest woken : List TaskId}
    {v w : Scheduler H} (hswitched : Switched s pointer t decision head rest woken u v w) :
    id.index ≠ head.index := by
  intro he
  have hname := hs.idOf_index (List.mem_append_left _ hswitched.mem_runQueue)
  rw [← he, h.idOf] at hname
  subst hname
  exact hother (hswitched.suspended.current_eq hs (mem_slots.mp h.slot).1)

theorem Going.switched (h : s.Going id exit) (hs : s.Standing)
    (hstays : exit = none ∨ s.current ≠ some id) {head : TaskId} {rest woken : List TaskId}
    {v w : Scheduler H} (hswitched : Switched s pointer t decision head rest woken u v w) :
    t.Going id exit := by
  apply h.same
  · apply hswitched.occupied hs h.slot h.occupied
    intro he
    rcases hstays with rfl | hother
    · unfold record at *
      rw [← he]
      exact h.exiting
    · exact absurd he (h.not_switched hs hother hswitched)
  · exact ((hswitched.bound hs) id.index h.slot).2.1
  · exact (hswitched.inert TaskRecord.inert_exit fun _ _ _ => rfl).trans
      (hswitched.suspended.field (fun r => (r.exiting, r.exitCode)) (fun _ => rfl) id.index)

theorem Going.retired (h : s.Going id (some code)) (hs : s.Standing)
    (hcurrent : s.current = some id) (hok : s.reschedule pointer = .ok (t, decision)) :
    (s.record id).Ends (t.record id) ∧ t.Over id code := by
  obtain ⟨rest, woken, u, v, w, hswitched⟩ := hs.reschedule_current hcurrent hok
  obtain ⟨hends, _⟩ := hswitched.ends hs (mem_slots.mp h.slot).1 h.exiting
  exact ⟨hends, h.slot, hends.state, hends.exitCode.trans (h.exitCode code rfl)⟩

omit [Hardware H] in
theorem Going.exits (h : s.Going id exit) {other : TaskId} (hcurrent : s.current = some other)
    (hs : s.Standing)
    (hmoved : Moved s other (fun r => { r with exiting := true, exitCode := code }) s.runQueue
      s.sleepers t) : t.Going id (if s.current = some id then some code else exit) := by
  by_cases he : other = id
  · subst he
    rw [if_pos hcurrent]
    have hself := hmoved.self
    have hname : t.idOf other.index = s.idOf other.index :=
      idOf_eq (hmoved.field TaskRecord.generation (fun _ => rfl) other.index)
    have hstate : (t.record other).state = (s.record other).state :=
      hmoved.field TaskRecord.state (fun _ => rfl) other.index
    refine ⟨h.slot, hname.trans h.idOf, ?_, congrArg TaskRecord.exiting hself, ?_⟩
    · exact ⟨fun he => h.occupied.1 (hstate.symm.trans he),
        fun he => h.occupied.2 (hstate.symm.trans he)⟩
    · intro c hc
      rw [hself]
      exact Option.some.inj hc
  · have hne : id.index ≠ other.index := by
      intro hindex
      have hname := hs.idOf_index (List.mem_append_left s.sleepers
        (List.mem_of_head? (hs.current hcurrent).1))
      rw [← hindex, h.idOf] at hname
      exact he hname.symm
    rw [hcurrent, if_neg fun heq => he (Option.some.inj heq)]
    exact h.of_record (hmoved.other hne)

theorem Going.perform (h : s.Going id exit) (hs : s.Standing) (hlived : s.Lived)
    {op : Operation} {decision : Option Decision} (hspawns : op.spawns = false)
    (hok : s.perform op = .ok (t, decision)) : ((Course.going exit).after id s op).Holds t id := by
  have hperformed := hs.perform hok
  cases hperformed with
  | refused | started _ => contradiction
  | @switched t u v w pointer decision head rest woken hswitched =>
      cases exit with
      | none => exact h.switched hs (.inl rfl) hswitched
      | some code =>
          by_cases hcurrent : s.current = some id
          · obtain ⟨_, hok, _⟩ := perform_reschedule_eq_ok.mp hok
            rw [Course.after, if_pos hcurrent]
            exact (h.retired hs hcurrent hok).2
          · rw [Course.after, if_neg hcurrent]
            exact h.switched hs (.inr hcurrent) hswitched
  | exiting hcurrent _ hmoved => exact h.exits hcurrent hs hmoved
  | _ =>
      have hlasts := (hs.lasts_of_perform hlived hok rfl rfl).2
      exact h.same ((hlasts.occupied h.slot).mpr h.occupied) (hlasts id.index h.slot).generation
        ((hs.perform hok).inert hs TaskRecord.inert_exit rfl rfl nofun id.index)

theorem Over.perform (h : s.Over id code) (hs : s.Standing) (hlived : s.Lived)
    {op : Operation} {decision : Option Decision} (hspawns : op.spawns = false)
    (hok : s.perform op = .ok (t, decision)) : t.Over id code :=
  h.of_record (hs.remains hlived hok hspawns h.slot h.gone)

/-! ## Who waits for the end -/

structure WokenOnce (s : Scheduler H) (joiner : TaskId) (t : Scheduler H) : Prop where
  queued : t.runQueue.count joiner = 1
  awake : joiner ∉ t.sleepers
  sleepCount : (t.record joiner).sleepCount = (s.record joiner).sleepCount - 1
  moved : (s.record joiner).state = .sleeping →
    joiner ∈ s.sleepers ∧ joiner ∉ s.runQueue ∧
      ∃ later, t.runQueue = s.runQueue.tail ++ joiner :: later

theorem Standing.wakes_first (hs : s.Standing) {joiner : TaskId} (hok : s.wake joiner = .ok u) :
    ∃ v ids, Woke s joiner v ∧ Wakes v ids u := by
  obtain ⟨_, v, hwoke, ⟨_, rfl⟩ | ⟨_, ids, hrearmed⟩⟩ := hs.wake hok
  · exact ⟨u, [], hwoke, .nil (.refl u)⟩
  · exact ⟨v, ids, hwoke, hrearmed.wakes.moved_first (alarmMoved _ _ _)⟩

theorem Switched.wakes_joiner {rest woken : List TaskId} {v w : Scheduler H}
    (h : Switched s pointer t decision id rest woken u v w) (hs : s.Standing)
    (hid : id.index ≠ 0) (hexiting : (s.record id).exiting = true) {joiner : TaskId}
    (hwaiter : (s.record id).completion.waiter = some joiner) : WokenOnce s joiner t := by
  have ht := h.standing.2.2
  have hself := h.suspended.self
  have hends : (u.record id).exiting = true := by
    rw [hself]
    exact hexiting
  cases h.settled with
  | parked hzero _ _ => exact absurd hzero hid
  | asleep _ _ hstays _ _ _ | requeued _ _ hstays _ _ _ =>
      rw [hends] at hstays
      contradiction
  | @finished m _ _ _ _ _ hmoved _ hwake =>
      rw [hself, show (s.suspendedRecord pointer (s.record id)).completion.waiter = some joiner
        from hwaiter] at hwake
      obtain ⟨x, ids, hwoke, hwakes⟩ := hmoved.standing.wakes_first hwake
      have hne : joiner.index ≠ id.index := by
        intro he
        have hoccupied := hwoke.occupied
        rw [he] at hoccupied
        exact hoccupied.2 (congrArg TaskRecord.state hmoved.self)
      have hsame : m.record joiner = s.record joiner :=
        (hmoved.other hne).trans ((h.suspended.record joiner.index).trans (if_neg hne))
      obtain ⟨later, hlater⟩ :=
        ((hwakes.extended.trans h.rearmed.wakes.extended : Extended x.runQueue x w)).runQueue
      rw [← h.dispatched.runQueue_eq] at hlater
      have hmem : joiner ∈ t.runQueue := by
        rw [hlater]
        exact List.mem_append_left _ (hwoke.mem_runQueue hmoved.standing)
      refine ⟨ht.nodup_runQueue.count.trans (if_pos hmem), ?awake, ?sleepCount, ?moved⟩
      case awake =>
        intro hsleeps
        exact ht.apart joiner hmem joiner hsleeps rfl
      case sleepCount =>
        have hv : v.record joiner = (s.record joiner).woken := by
          rw [← hsame]
          exact hmoved.standing.record_wake hwake
        have hw : w.record joiner = v.record joiner := by
          refine (h.rearmed.undisturbed joiner.index).of_awake ?_
          rw [show v.tasks.record joiner.index = _ from hv]
          exact TaskRecord.awake_woken _
        have hdispatched : (t.record joiner).sleepCount = (w.record joiner).sleepCount :=
          h.dispatched.field TaskRecord.sleepCount (fun _ _ => rfl) joiner.index
        rw [hdispatched, hw, hv]
        rfl
      case moved =>
        intro hasleep
        have hsleeps : joiner ∈ s.sleepers :=
          hs.mem_sleep_of_sleeping hwoke.task (hsame ▸ hwoke.current) hasleep
        refine ⟨hsleeps, fun hrun => hs.apart joiner hrun joiner hsleeps rfl, later, ?_⟩
        rw [hlater, hwoke.runQueue, if_pos (hsame ▸ hasleep), hmoved.runQueue,
          h.suspended.runQueue, List.tail_cons, List.append_assoc]
        rfl

/-! ## A whole run -/

theorem Reachable.spawn (h : Reachable s) {stack : StackRange}
    {outcome : Except StartError TaskId} (hok : s.spawn stack pointer = .ok (t, outcome)) :
    Reachable t :=
  h.perform (perform_spawn_eq_ok.mpr ⟨⟨_, hok⟩, rfl⟩)

theorem Career.invariant {course : Course} (h : Career id course s) :
    Reachable s ∧ course.Holds s id := by
  induction h with
  | begun hreachable hok =>
      refine ⟨hreachable.spawn hok, ?_⟩
      rcases hreachable.invariants.1.spawn hok with ⟨hrefused, _⟩ | ⟨_, hid, hstarted⟩
      · contradiction
      · obtain rfl := Except.ok.inj hid
        exact hstarted.going
  | elapse _ ih => exact ⟨ih.1.elapse, ih.2.of_record rfl⟩
  | @spawned course s t stack pointer other _ hok hother ih =>
      obtain ⟨hreachable, hholds⟩ := ih
      refine ⟨hreachable.spawn hok, ?_⟩
      rcases hreachable.invariants.1.spawn hok with ⟨hrefused, _⟩ | ⟨_, hid, hstarted⟩
      · contradiction
      · obtain rfl := Except.ok.inj hid
        cases course with
        | going exit =>
            have hgoing : s.Going id exit := hholds
            exact hgoing.of_record
              (hstarted.record_other hgoing.slot (hgoing.not_started hstarted))
        | past code =>
            have hover : s.Over id code := hholds
            exact hover.of_record (hstarted.record_other hover.slot (hother code rfl).symm)
  | refused _ hok ih =>
      rcases ih.1.invariants.1.spawn hok with ⟨_, rfl⟩ | ⟨_, hid, _⟩
      · exact ih
      · contradiction
  | @performed course s t op decision _ hspawns hok ih =>
      obtain ⟨hreachable, hholds⟩ := ih
      refine ⟨hreachable.perform hok, ?_⟩
      have hs := hreachable.invariants.1
      cases course with
      | going exit => exact Going.perform hholds hs hreachable.lived hspawns hok
      | past code => exact Over.perform hholds hs hreachable.lived hspawns hok

/-! ## What others learn -/

structure Retired (s : Scheduler H) (id : TaskId) (code : UInt32) (t : Scheduler H) : Prop where
  state : (t.record id).state = .exited
  pointer : (t.record id).pointer = exitedPointer
  latched : (t.record id).completion.latched = true
  unawaited : (t.record id).completion.waiter = none
  exitCode : (t.record id).exitCode = code
  woken : ∀ joiner, (s.record id).completion.waiter = some joiner → WokenOnce s joiner t

/-- What becomes of the end of a run, by how far the run has come. -/
structure Propagates (s : Scheduler H) (id : TaskId) (course : Course) : Prop where
  pending : ∀ exit, course = .going exit → s.tryJoin id = .ok (s, none)
  retired : ∀ code pointer t decision, course = .going (some code) → s.current = some id →
    s.reschedule pointer = .ok (t, decision) → Retired s id code t
  polled : ∀ code, course = .past code → s.tryJoin id = .ok (s, some code)
  joined : ∀ code, course = .past code →
    s.attemptJoin id = .ok (s, .acquired) ∧ (s.record id).exitCode = code
  /-- A start takes a slot that nobody waits at, and leaves the other slots alone. -/
  started : ∀ stack pointer t other, s.spawn stack pointer = .ok (t, .ok other) →
    (s.record other).completion.waiter = none ∧
      ∀ slot ∈ slots, slot ≠ other.index → t.tasks.record slot = s.tasks.record slot

/--
Nobody learns of the end of a run before the switch that retires it.  That
switch wakes who waits for it, and from then on everybody learns the last code
that the run has given.
-/
theorem Career.exit_propagates {course : Course} (h : Career id course s) :
    s.Propagates id course := by
  obtain ⟨hreachable, hholds⟩ := h.invariant
  have hs := hreachable.invariants.1
  have hlived := hreachable.lived
  refine ⟨?pending, ?retired, ?polled, ?joined, ?started⟩
  case pending =>
    rintro exit rfl
    have hgoing : s.Going id exit := hholds
    have hgoes : (s.record id).state ≠ .exited := hgoing.occupied.2
    rw [hlived.tryJoin hgoing.joinable, if_neg hgoes]
  case retired =>
    rintro code pointer t decision rfl hcurrent hok
    have hgoing : s.Going id (some code) := hholds
    obtain ⟨hends, hover⟩ := hgoing.retired hs hcurrent hok
    obtain ⟨rest, woken, u, v, w, hswitched⟩ := hs.reschedule_current hcurrent hok
    have hid := (mem_slots.mp hgoing.slot).1
    refine ⟨hover.state, hends.pointer, hends.latched, ?_, hover.exitCode, ?_⟩
    · have ht := hreachable.perform (perform_reschedule_eq_ok.mpr ⟨_, hok, rfl⟩)
      exact ht.unawaited id.index hgoing.slot hover.gone
    · intro joiner hwaiter
      exact hswitched.wakes_joiner hs hid hgoing.exiting hwaiter
  case polled =>
    rintro code rfl
    have hover : s.Over id code := hholds
    rw [hlived.tryJoin hover.joinable, if_pos hover.state, hover.exitCode]
  case joined =>
    rintro code rfl
    have hover : s.Over id code := hholds
    exact ⟨hlived.attemptJoin hs hover.slot hover.state, hover.exitCode⟩
  case started =>
    intro stack pointer t other hok
    rcases hs.spawn hok with ⟨hrefused, _⟩ | ⟨_, hid, hstarted⟩
    · contradiction
    · obtain rfl := Except.ok.inj hid
      refine ⟨?_, fun slot hslot hne => hstarted.record_other hslot hne⟩
      exact hreachable.unawaited other.index (Scheduler.mem_slots.mpr hstarted.mem_slots)
        fun hoccupied => hoccupied.not_gone hstarted.gone

def follow (id : TaskId) (course : Course) (s : Scheduler H) :
    List Operation → Option (Course × Scheduler H)
  | [] => some (course, s)
  | op :: ops =>
      match op.spawns, s.perform op with
      | false, .ok (t, _) => t.follow id (course.after id s op) ops
      | _, _ => none

theorem Career.follow {course course' : Course} {ops : List Operation}
    (h : Career id course s) (hok : s.follow id course ops = some (course', t)) :
    Career id course' t := by
  induction ops generalizing course s with
  | nil =>
      obtain ⟨rfl, rfl⟩ := Prod.mk.inj (Option.some.inj hok)
      exact h
  | cons op ops ih =>
      unfold Scheduler.follow at hok
      split at hok
      · rename_i hspawns hperform
        exact ih (h.performed hspawns hperform) hok
      · contradiction

def joinerFirst : Except Fault (Scheduler Board) :=
  (new (Board.start Instant.zero)).performAll
    [.spawn ⟨0x20000000, 0x20000400⟩ 0x200003c8]

def joinedTask : Option (TaskId × Course × Scheduler Board) :=
  joinerFirst.toOption.bind fun s =>
    match s.spawn ⟨0x20001000, 0x20001400⟩ 0x200013c8 with
    | .ok (t, .ok id) =>
        (t.follow id (.going none) [.reschedule Board.mainlinePointer, .attemptJoin id,
          .reschedule 0x20000380, .markExiting 5, .markExiting 7]).map fun r => (id, r)
    | _ => none

theorem career_of_joinedTask {id : TaskId} {course : Course} {s : Scheduler Board}
    (h : joinedTask = some (id, course, s)) : Career id course s := by
  obtain ⟨first, hfirst, hok⟩ := Option.bind_eq_some_iff.mp h
  rw [toOption_eq_some] at hfirst
  have hreachable : Reachable first := Reachable.new.performAll hfirst
  split at hok
  · rename_i hspawn
    obtain ⟨r, hfollow, he⟩ := Option.map_eq_some_iff.mp hok
    obtain ⟨rfl, rfl⟩ := Prod.mk.inj he
    exact (Career.begun hreachable hspawn).follow hfollow
  · contradiction

theorem exit_propagates_joinedTask :
    ∃ (s t : Scheduler Board) (decision : Decision),
      Career ⟨2, 2⟩ (.going (some 7)) s ∧ s.current = some ⟨2, 2⟩ ∧
      (s.record ⟨2, 2⟩).completion.waiter = some ⟨1, 1⟩ ∧
      (s.record ⟨1, 1⟩).state = .sleeping ∧ s.tryJoin ⟨2, 2⟩ = .ok (s, none) ∧
      s.reschedule 0x20001380 = .ok (t, decision) ∧ Retired s ⟨2, 2⟩ 7 t ∧
      t.runQueue.count ⟨1, 1⟩ = 1 ∧ t.tryJoin ⟨2, 2⟩ = .ok (t, some 7) := by
  obtain ⟨⟨id, course, s⟩, hs⟩ := Option.isSome_iff_exists.mp
    (show joinedTask.isSome = true by decide)
  have hfacts : joinedTask.map (fun r => (r.1, r.2.1, r.2.2.current,
      (r.2.2.record ⟨2, 2⟩).completion.waiter, (r.2.2.record ⟨1, 1⟩).state)) =
        some (⟨2, 2⟩, .going (some 7), some ⟨2, 2⟩, some ⟨1, 1⟩, .sleeping) := by decide
  have hswitch : (joinedTask.bind fun r => (r.2.2.reschedule 0x20001380).toOption).isSome =
      true := by decide
  rw [hs] at hfacts
  rw [hs, Option.bind_some] at hswitch
  simp only [Option.map_some, Option.some.injEq, Prod.mk.injEq] at hfacts
  obtain ⟨rfl, rfl, hcurrent, hwaiter, hasleep⟩ := hfacts
  obtain ⟨⟨t, decision⟩, hok⟩ := Option.isSome_iff_exists.mp hswitch
  rw [toOption_eq_some] at hok
  have hcareer := career_of_joinedTask hs
  have hover : Career ⟨2, 2⟩ (.past 7) t := by
    have hafter := hcareer.performed rfl (perform_reschedule_eq_ok.mpr ⟨_, hok, rfl⟩)
    rwa [Course.after, if_pos hcurrent] at hafter
  have hpropagates := hcareer.exit_propagates
  have hretired := hpropagates.retired 7 0x20001380 t decision rfl hcurrent hok
  exact ⟨s, t, decision, hcareer, hcurrent, hwaiter, hasleep, hpropagates.pending _ rfl, hok,
    hretired, (hretired.woken _ hwaiter).queued, hover.exit_propagates.polled 7 rfl⟩

end CoopTasks.Scheduler

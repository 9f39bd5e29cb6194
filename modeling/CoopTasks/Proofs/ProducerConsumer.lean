import CoopTasks.Proofs.Demonstration

/-!
A producer, a consumer and their supervisor.

Every period the producer posts an item, which the consumer takes at once
(`consumed_in_time`).  A round begins when the alarm wakes the producer and ends
when all of them sleep again (`reaches_posted`, `reaches_consumed`); the runs
are put together from rounds (`reaches_served`).
-/

namespace CoopTasks

def Part.dozing (origin : Origin) : Part :=
  { Part.fresh origin with mood := .drowsy .never }

namespace Demo

open Program

variable {μ : Type} {v : Setting μ}

/-! ## Time -/

/-- When an item is produced, counted from one. -/
def moment (now : Instant) (number : Nat) : Instant :=
  .clamp (now.toNat + 100000 * number)

theorem moment_zero (now : Instant) : moment now 0 = now := by
  have hlt := now.toNat_lt
  unfold moment
  rw [Instant.ext_iff_toNat, Instant.toNat_clamp]
  omega

theorem wholeMicros_period : period.wholeMicros = 100000 := rfl

section

variable {now : Instant} {number items : Nat}

theorem toNat_moment (hbound : now.toNat + 100000 * items < UInt64.size - 1)
    (hle : number ≤ items) : (moment now number).toNat = now.toNat + 100000 * number := by
  unfold moment
  rw [Instant.toNat_clamp]
  omega

theorem moment_add (hbound : now.toNat + 100000 * items < UInt64.size - 1) (hlt : number < items) :
    (moment now number).add period = moment now (number + 1) := by
  rw [Instant.ext_iff_toNat, Instant.toNat_add, wholeMicros_period, toNat_moment hbound hlt,
    toNat_moment hbound (Nat.le_of_lt hlt)]
  omega

theorem moment_lt_add (hbound : now.toNat + 100000 * items < UInt64.size - 1)
    (hlt : number < items) : moment now number < (moment now number).add period := by
  rw [moment_add hbound hlt, Instant.lt_iff, toNat_moment hbound hlt,
    toNat_moment hbound (Nat.le_of_lt hlt)]
  omega

theorem moment_add_ne_never (hbound : now.toNat + 100000 * items < UInt64.size - 1)
    (hlt : number < items) : (moment now number).add period ≠ .never := by
  rw [moment_add hbound hlt, ne_eq, Instant.ext_iff_toNat, toNat_moment hbound hlt,
    Instant.toNat_never]
  omega

end

/-! ## The account of a run -/

def remarksOf (role : Role) (events : List (Event μ)) : List (Event μ) :=
  (events.filter fun e => e.actor = .context (.task role.number)).reverse

def consumed (events : List (Event μ)) : List (Nat × Remark μ) :=
  ((remarksOf .consumer events).filter fun e => e.name = "log").map fun e =>
    (e.time.toNat, e.remark)

def supervised (events : List (Event μ)) : List (String × Remark μ) :=
  (remarksOf .supervisor events).map fun e => (e.name, e.remark)

theorem consumed_cons (time : Instant) (remark : Remark μ) (events : List (Event μ)) :
    consumed (⟨time, .context (.task 3), "log", remark⟩ :: events) =
      consumed events ++ [(time.toNat, remark)] := by
  simp [consumed, remarksOf, Role.number]

theorem supervised_cons (time : Instant) (name : String) (remark : Remark μ)
    (events : List (Event μ)) :
    supervised (⟨time, .context (.task 2), name, remark⟩ :: events) =
      supervised events ++ [(name, remark)] := by
  simp [supervised, remarksOf, Role.number]

/-! ## What everybody has left to do -/

def produceRest (items : UInt32) (left : Nat) : Program μ Unit :=
  finish items (do
    remark "sleep" .nothing
    post
    produce left)

def superviseRest : Program μ Unit :=
  .thenExit <| recorded do
    let produced ← join .producer
    log s!"producer finished after {produced} items"
    let polls ← poll pollLimit 0
    log s!"consumer done after {polls} polls"
    return 0

def superviseStart (items : UInt32) : Program μ Unit := do
  remark "start" .nothing
  start .producer items
  superviseRest

/-! ## The team -/

def supervisorOrigin : Origin :=
  ⟨Role.supervisor.number, Role.supervisor.entry, 0⟩

def consumerOrigin (items : UInt32) : Origin :=
  ⟨Role.consumer.number, Role.consumer.entry, items⟩

def producerOrigin (items : UInt32) : Origin :=
  ⟨Role.producer.number, Role.producer.entry, items⟩

/-- A supervisor, a consumer and a producer, in the slots from the first one on. -/
def team (clock : Instant) (run sleep : List TaskId) (parts : List Part) (signal : Signal)
    (supervisor consumer producer : Program μ Unit) (events : List (Event μ)) : Scene μ where
  roster := { clock, run, sleep, parts, signals := [signal] }
  programs := [remark "start" .nothing, supervisor, consumer, producer]
  events

structure RecordsConsumed (now : Instant) (number : Nat) (events : List (Event μ)) : Prop where
  consumed : consumed events = (List.range number).map fun n =>
    ((moment now (n + 1)).toNat, .text s!"consumed item {n + 1} at {(moment now (n + 1)).micros}us")
  supervised : supervised events = [("start", .nothing), ("start", .nothing)]

structure Served (now : Instant) (items : UInt32) (s : Scene μ) : Prop where
  roster : s.roster =
    { clock := moment now items.toNat
      run := []
      sleep := []
      parts := [(Part.fresh supervisorOrigin).ended 0, (Part.fresh (consumerOrigin items)).ended 0,
        (Part.fresh (producerOrigin items)).ended items]
      signals := [.idle] }
  mainline : s.program 0 = remark "start" .nothing
  consumed : consumed s.events = (List.range items.toNat).map fun n =>
    ((moment now (n + 1)).toNat, .text s!"consumed item {n + 1} at {(moment now (n + 1)).micros}us")
  supervised : supervised s.events = [("start", .nothing), ("start", .nothing),
    ("join", .code items), ("log", .text s!"producer finished after {items} items"),
    ("try_join", .code 0), ("log", .text "consumer done after 0 polls"), ("return", .code 0)]

variable {now clock : Instant} {items : UInt32} {events : List (Event μ)}
variable {number left switches : Nat}
variable {supervisorRest consumerRest producerRest : Program μ Unit} {P : Scene μ → Prop}

theorem reaches_served_alone (hfree : v.switchCost = 0) (hclock : clock = moment now number)
    (hitems : items.toNat = number) (htold : RecordsConsumed now number events) :
    v.Reaches 2
      (team clock [firstRun 1] []
        [.fresh supervisorOrigin, (Part.fresh (consumerOrigin items)).ended 0,
          (Part.fresh (producerOrigin items)).ended items]
        .idle superviseRest consumerRest producerRest events)
      (Served now items) := by
  subst hclock hitems
  refine .answer rfl (.joined 3 rfl (by decide) rfl rfl rfl rfl) ?_
  refine .remark rfl ?_
  refine .remark rfl ?_
  refine .switch_free hfree rfl (.giveWay rfl rfl) rfl rfl
    (.resumed (.requeued rfl rfl rfl) nofun) ?_
  refine .answer rfl (.tried 2 rfl rfl rfl rfl) ?_
  refine .remark rfl ?_
  refine .remark rfl ?_
  refine .remark rfl ?_
  refine .switch_free hfree rfl (.exit 0 rfl rfl rfl) rfl rfl
    (.resumed (.ended rfl rfl rfl rfl) fun _ => rfl) ?_
  refine .here ⟨rfl, rfl, .trans rfl htold.consumed, ?_⟩
  show supervised (⟨_, .context (.task 2), "return", .code 0⟩ ::
    ⟨_, .context (.task 2), "log", .text _⟩ :: ⟨_, .context (.task 2), "try_join", .code 0⟩ ::
    ⟨_, .context (.task 2), "log", .text _⟩ :: ⟨_, .context (.task 2), "join", .code items⟩ ::
    events) = _
  simp only [supervised_cons, htold.supervised]
  rfl

theorem reaches_consumed {run sleep : List TaskId} {supervisor producer : Part}
    (h : v.Reaches switches
      (team clock (firstRun 2 :: run) sleep [supervisor, .fresh (consumerOrigin items), producer]
        .idle supervisorRest (finish 0 (consume (number + 1) left)) producerRest
        (⟨clock, .context (.task 3), "log",
            .text s!"consumed item {number} at {clock.micros}us"⟩ ::
          ⟨clock, .context (.task 3), "wait", .signal .idle⟩ :: events)) P) :
    v.Reaches switches
      (team clock (firstRun 2 :: run) sleep [supervisor, .fresh (consumerOrigin items), producer]
        ⟨1, none, false⟩ supervisorRest (finish 0 (consume number (left + 1))) producerRest events)
      P := by
  refine .answer rfl (.taken rfl rfl) ?_
  refine .answer rfl (.signalState rfl) ?_
  refine .remark rfl ?_
  refine .answer rfl .now ?_
  exact .remark rfl h

theorem reaches_posted {sleep : List TaskId} {completion : Signal}
    (hsleep : sleep = [firstRun 2, firstRun 1] ∨ sleep = [firstRun 1, firstRun 2])
    (h : v.Reaches switches
      (team clock [firstRun 3, firstRun 2] [firstRun 1]
        [.dozing supervisorOrigin, .fresh (consumerOrigin items),
          { Part.fresh (producerOrigin items) with completion }]
        ⟨1, none, false⟩ supervisorRest consumerRest (finish items (produce left))
        (⟨clock, .context (.task 4), "signal", .signal ⟨1, none, false⟩⟩ ::
          ⟨clock, .context (.task 4), "sleep", .nothing⟩ :: events)) P) :
    v.Reaches switches
      (team clock [firstRun 3] sleep
        [.dozing supervisorOrigin, .dozing (consumerOrigin items),
          { Part.fresh (producerOrigin items) with completion }]
        ⟨0, some (firstRun 2), false⟩ supervisorRest consumerRest (produceRest items left) events)
      P := by
  have hmem : firstRun 2 ∈ sleep := by
    rcases hsleep with rfl | rfl <;> decide
  have herase : sleep.erase (firstRun 2) = [firstRun 1] := by
    rcases hsleep with rfl | rfl <;> decide
  refine .remark rfl ?_
  refine .answer rfl (.roused rfl rfl hmem rfl rfl nofun) ?_
  refine .answer rfl (.signalState rfl) ?_
  refine .remark rfl ?_
  rw [← herase] at h
  exact h

theorem RecordsConsumed.producer (h : RecordsConsumed now number events) {time : Instant}
    {name : String} {remark : Remark μ} :
    RecordsConsumed now number (⟨time, .context (.task 4), name, remark⟩ :: events) := by
  refine ⟨.trans ?_ h.consumed, .trans ?_ h.supervised⟩
  · simp [Demo.consumed, remarksOf, Role.number]
  · simp [Demo.supervised, remarksOf, Role.number]

theorem RecordsConsumed.consumer {time : Instant} {remark : Remark μ} (name : String)
    (h : RecordsConsumed now number events) (hname : name ≠ "log") :
    RecordsConsumed now number (⟨time, .context (.task 3), name, remark⟩ :: events) := by
  refine ⟨.trans ?_ h.consumed, .trans ?_ h.supervised⟩
  · simp [Demo.consumed, remarksOf, Role.number, hname]
  · simp [Demo.supervised, remarksOf, Role.number]

theorem RecordsConsumed.log (h : RecordsConsumed now number events) :
    RecordsConsumed now (number + 1) (⟨moment now (number + 1), .context (.task 3), "log",
      .text s!"consumed item {number + 1} at {(moment now (number + 1)).micros}us"⟩ ::
        events) := by
  refine ⟨?_, .trans ?_ h.supervised⟩
  · rw [consumed_cons, h.consumed, List.range_succ, List.map_append]
    rfl
  · simp [Demo.supervised, remarksOf, Role.number]

/-- The producer sleeps, and the others wait for its items. -/
theorem reaches_served {sleep : List TaskId} (hfree : v.switchCost = 0)
    (hbound : now.toNat + 100000 * items.toNat < UInt64.size - 1)
    (hsleep : sleep = [firstRun 2, firstRun 1] ∨ sleep = [firstRun 1, firstRun 2])
    (hclock : clock = moment now (number + 1)) (hitems : items.toNat = number + left + 1)
    (htold : RecordsConsumed now number events) :
    v.Reaches (2 * left + 4)
      (team clock [firstRun 3] sleep
        [.dozing supervisorOrigin, .dozing (consumerOrigin items),
          { Part.fresh (producerOrigin items) with completion := ⟨0, some (firstRun 1), false⟩ }]
        ⟨0, some (firstRun 2), false⟩ superviseRest
        (finish 0 (consume (number + 1) (left + 1))) (produceRest items left) events)
      (Served now items) := by
  induction left generalizing number clock sleep events with
  | zero =>
      subst hclock
      refine reaches_posted hsleep ?_
      -- the producer ends, and the supervisor comes after the consumer
      refine .remark rfl ?_
      refine .switch_free hfree rfl (.exit items rfl rfl rfl) rfl rfl
        (.resumed (.released rfl rfl rfl rfl (List.mem_singleton.mpr rfl) (by decide) rfl rfl)
          nofun) ?_
      refine reaches_consumed ?_
      refine .remark rfl ?_
      refine .switch_free hfree rfl (.exit 0 rfl rfl rfl) rfl rfl
        (.resumed (.ended rfl rfl rfl rfl) nofun) ?_
      exact reaches_served_alone hfree rfl hitems
        (.consumer "return" (.log (.consumer "wait" (.producer (.producer (.producer htold)))
          (by decide))) (by decide))
  | succ left ih =>
      subst hclock
      have hlt : number + 1 < items.toNat := by omega
      have hnever := moment_add_ne_never hbound hlt
      refine reaches_posted hsleep ?_
      -- the producer sleeps again, the consumer takes the item and waits for the next one
      refine .answer rfl .now ?_
      refine .switch_free hfree rfl (.sleepUntil _ rfl rfl rfl) rfl rfl
        (.resumed (.timed rfl rfl rfl hnever (moment_lt_add hbound hlt)
          (List.forall_mem_singleton.mpr (Instant.le_never _))) nofun) ?_
      refine reaches_consumed ?_
      refine .switch_free hfree rfl (.enlisted rfl rfl rfl rfl rfl rfl) rfl rfl
        (.rung (.endless rfl rfl rfl) (.woken rfl rfl rfl rfl hnever
          (List.forall_mem_cons.mpr ⟨.inl rfl, List.forall_mem_singleton.mpr (.inl rfl)⟩))) ?_
      exact ih (.inr rfl) (moment_add hbound hlt) (by omega)
        (.log (.consumer "wait" (.producer (.producer htold)) (by decide)))

/-! ## The beginning -/

def duo (clock : Instant) (run sleep : List TaskId) (items : UInt32) (consumer : Part)
    (signal : Signal) (consumerRest : Program μ Unit) (events : List (Event μ)) : Scene μ where
  roster := { clock, run, sleep, parts := [.fresh supervisorOrigin, consumer], signals := [signal] }
  programs := [remark "start" .nothing, superviseStart items, consumerRest]
  events

section

variable {switchLimit : Nat} {sleep : List TaskId} {signal : Signal} {consumer : Part}

theorem reaches_consumer
    (h : (setting (entries items) 0 switchLimit).Reaches switches
      (duo now [firstRun 2, firstRun 1] [] items (.fresh (consumerOrigin items)) .idle
        (finish 0 (consume 1 items.toNat)) []) P) :
    (setting (entries items) 0 switchLimit).Reaches (switches + 2)
      (.bare now 1 (start .supervisor 0)) P := by
  refine .start_free rfl supervisorOrigin rfl (by show 2 < 5; omega) (by show 1 < 16; omega) nofun
    (.resumed (.parked rfl) nofun) ?_
  have hfresh : ∀ other ∈ [supervisorOrigin], other.stack ≠ 3 := by decide
  exact .start_free rfl (consumerOrigin items) rfl (by show 3 < 5; omega) (by show 2 < 16; omega)
    hfresh (.resumed (.requeued rfl rfl rfl) nofun) h

theorem reaches_producer (hconsumer : consumer.stack = 3)
    (h : (setting (entries items) 0 switchLimit).Reaches switches
      (team clock [firstRun 3, firstRun 1] sleep
        [.fresh supervisorOrigin, consumer, .fresh (producerOrigin items)] signal
        (do remark "start" .nothing; superviseRest) consumerRest
        (finish items (produce items.toNat))
        (⟨clock, .context (.task 2), "start", .nothing⟩ :: events)) P) :
    (setting (entries items) 0 switchLimit).Reaches (switches + 1)
      (duo clock [firstRun 1] sleep items consumer signal consumerRest events) P := by
  have hfresh : ∀ other ∈ [supervisorOrigin, consumer.toOrigin], other.stack ≠ 4 := by
    refine List.forall_mem_cons.mpr ⟨by decide, List.forall_mem_singleton.mpr ?_⟩
    rw [hconsumer]
    decide
  refine .remark rfl ?_
  exact .start_free rfl (producerOrigin items) rfl (by show 4 < 5; omega) (by show 3 < 16; omega)
    hfresh (.resumed (.requeued rfl rfl rfl) nofun) h

theorem reaches_served_of_none (hitems : items.toNat = 0) :
    (setting (entries items) 0 switchLimit).Reaches 7 (.bare now 1 (start .supervisor 0))
      (Served (μ := μ) now items) := by
  refine reaches_consumer ?_
  rw [hitems]
  refine .remark rfl ?_
  refine .switch_free rfl rfl (.exit 0 rfl rfl rfl) rfl rfl
    (.resumed (.ended rfl rfl rfl rfl) nofun) ?_
  refine reaches_producer rfl ?_
  rw [hitems]
  refine .remark rfl ?_
  refine .switch_free rfl rfl (.exit items rfl rfl rfl) rfl rfl
    (.resumed (.ended rfl rfl rfl rfl) nofun) ?_
  refine .remark rfl ?_
  have htold : RecordsConsumed (μ := μ) now 0 [⟨now, .context (.task 2), "start", .nothing⟩,
      ⟨now, .context (.task 4), "return", .code items⟩,
      ⟨now, .context (.task 2), "start", .nothing⟩,
      ⟨now, .context (.task 3), "return", .code 0⟩] :=
    ⟨by simp [consumed, remarksOf, Role.number], by simp [supervised, remarksOf, Role.number]⟩
  exact reaches_served_alone rfl (moment_zero now).symm hitems htold

theorem reaches_served_of_some (hbound : now.toNat + 100000 * items.toNat < UInt64.size - 1)
    (hitems : items.toNat = left + 1) :
    (setting (entries items) 0 switchLimit).Reaches (2 * left + 10)
      (.bare now 1 (start .supervisor 0)) (Served (μ := μ) now items) := by
  have hlt : 0 < items.toNat := by omega
  have hclock := moment_add hbound hlt
  have hlater := moment_lt_add hbound hlt
  have hnever := moment_add_ne_never hbound hlt
  rw [moment_zero] at hclock hlater hnever
  refine reaches_consumer ?_
  rw [hitems]
  refine .switch_free rfl rfl (.enlisted rfl rfl rfl rfl rfl rfl) rfl rfl
    (.resumed (.endless rfl rfl rfl) nofun) ?_
  refine reaches_producer rfl ?_
  rw [hitems]
  refine .answer rfl .now ?_
  refine .switch_free rfl rfl (.sleepUntil _ rfl rfl rfl) rfl rfl
    (.resumed (.timed rfl rfl rfl hnever hlater
      (List.forall_mem_singleton.mpr (Instant.le_never _))) nofun) ?_
  refine .remark rfl ?_
  refine .switch_free rfl rfl (.joining 3 rfl (by decide) rfl rfl rfl rfl rfl rfl) rfl rfl
    (.rung (.endless rfl rfl rfl) (.woken rfl rfl rfl rfl hnever
      (List.forall_mem_cons.mpr ⟨.inl rfl, List.forall_mem_singleton.mpr (.inl rfl)⟩))) ?_
  have htold : RecordsConsumed (μ := μ) now 0 [⟨now, .context (.task 2), "start", .nothing⟩,
      ⟨now, .context (.task 2), "start", .nothing⟩] :=
    ⟨by simp [consumed, remarksOf, Role.number], by simp [supervised, remarksOf, Role.number]⟩
  exact reaches_served rfl hbound (.inl rfl) hclock (by omega) htold

theorem reaches_served_from_start (μ : Type) (switchLimit : Nat)
    (hbound : now.toNat + 100000 * items.toNat < UInt64.size - 1) :
    ∃ switches ≤ 2 * items.toNat + 8, (setting (entries items) 0 switchLimit).Reaches switches
      (.bare now 1 (start .supervisor 0)) (Served (μ := μ) now items) := by
  cases hitems : items.toNat with
  | zero => exact ⟨7, by omega, reaches_served_of_none hitems⟩
  | succ left => exact ⟨2 * left + 10, by omega, reaches_served_of_some hbound hitems⟩

/--
The consumer gets an item every period and in time.  The supervisor waits for the end of the
producer and finds that the consumer has ended as well, and leaves a machine on which nobody sleeps
and no alarm is set.
-/
theorem consumed_in_time (hbound : now.toNat + 100000 * items.toNat < UInt64.size - 1)
    (hroom : 2 * items.toNat + 8 ≤ switchLimit) :
    ∃ m : Machine μ,
      (machine now 0 []).run (entries items) (start .supervisor 0) switchLimit = (m, none) ∧
      consumed m.events = ((List.range items.toNat).map fun n =>
        (now.toNat + 100000 * (n + 1),
          .text s!"consumed item {n + 1} at {now.toNat + 100000 * (n + 1)}us")) ∧
      supervised m.events = [("start", .nothing), ("start", .nothing), ("join", .code items),
        ("log", .text s!"producer finished after {items} items"), ("try_join", .code 0),
        ("log", .text "consumer done after 0 polls"), ("return", .code 0)] ∧
      (m.kernel.reportOn Role.supervisor.number).bind TaskReport.exitCode = some 0 ∧
      (m.kernel.reportOn Role.consumer.number).bind TaskReport.exitCode = some 0 ∧
      (m.kernel.reportOn Role.producer.number).bind TaskReport.exitCode = some items ∧
      m.kernel.scheduler.runQueue = [] ∧ m.kernel.scheduler.sleepers = [] ∧
      m.kernel.signals = [.idle] ∧ m.kernel.scheduler.armed = none ∧ m.board.alarm = none ∧
      m.events.head?.map (fun e => (e.actor, e.name)) = some (.context .mainline, "start") := by
  obtain ⟨switches, hle, hreaches⟩ := reaches_served_from_start μ switchLimit hbound
  obtain ⟨m, s, hrun, hs, hkernel, hevents⟩ :=
    machine_run hreaches (fun s hs => ⟨congrArg Roster.run hs.roster, hs.mainline⟩) (by omega)
  rw [hs.roster] at hkernel
  have harmed : m.kernel.scheduler.armed = none := by
    rw [hkernel.scheduler.timely.armed]
    unfold Scheduler.soonest
    rw [hkernel.scheduler.sleepers]
    rfl
  refine ⟨m, hrun, ?_, ?_, hkernel.exitCode grounds_arena 1 rfl rfl rfl,
    hkernel.exitCode grounds_arena 2 rfl rfl rfl, hkernel.exitCode grounds_arena 3 rfl rfl rfl,
    hkernel.scheduler.runQueue, hkernel.scheduler.sleepers, hkernel.signals, harmed,
    hkernel.scheduler.alarm.trans harmed, ?_⟩
  · have hconsumed : consumed m.events = consumed s.events := by
      rw [hevents]
      simp [consumed, remarksOf]
    rw [hconsumed, hs.consumed]
    refine List.map_congr_left fun n hn => ?_
    have htime := toNat_moment hbound (List.mem_range.mp hn)
    have htext : toString (moment now (n + 1)).micros = toString (now.toNat + 100000 * (n + 1)) :=
      congrArg toString htime
    rw [htime, htext]
  · have hsupervised : supervised m.events = supervised s.events := by
      rw [hevents]
      simp [supervised, remarksOf]
    rw [hsupervised, hs.supervised]
  · rw [hevents]
    rfl

theorem consumed_in_time_two :
    Instant.zero.toNat + 100000 * (2 : UInt32).toNat < UInt64.size - 1 ∧
    2 * (2 : UInt32).toNat + 8 ≤ usualSwitchLimit ∧
    ∃ m : Machine Unit,
      (machine .zero 0 []).run (entries 2) (start .supervisor 0) usualSwitchLimit = (m, none) ∧
      consumed m.events = [(100000, .text "consumed item 1 at 100000us"),
        (200000, .text "consumed item 2 at 200000us")] ∧
      supervised m.events = [("start", .nothing), ("start", .nothing), ("join", .code 2),
        ("log", .text "producer finished after 2 items"), ("try_join", .code 0),
        ("log", .text "consumer done after 0 polls"), ("return", .code 0)] ∧
      (m.kernel.reportOn Role.supervisor.number).bind TaskReport.exitCode = some 0 ∧
      (m.kernel.reportOn Role.consumer.number).bind TaskReport.exitCode = some 0 ∧
      (m.kernel.reportOn Role.producer.number).bind TaskReport.exitCode = some 2 ∧
      m.kernel.scheduler.runQueue = [] ∧ m.kernel.scheduler.sleepers = [] ∧
      m.kernel.signals = [.idle] ∧ m.kernel.scheduler.armed = none ∧ m.board.alarm = none ∧
      m.events.head?.map (fun e => (e.actor, e.name)) = some (.context .mainline, "start") :=
  ⟨by decide, by decide, consumed_in_time (by decide) (by decide)⟩

end

end Demo

end CoopTasks

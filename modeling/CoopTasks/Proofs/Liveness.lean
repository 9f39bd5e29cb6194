import CoopTasks.Proofs.Fields
import CoopTasks.Proofs.SafeStarts
import CoopTasks.Proofs.EndedTasks

/-!
Who is alive.

A task is alive by its saved pointer, by its state, by its report, and by the
journal, which tells of its start and not of its end.  All of them agree as
long as every start puts its context inside of a stack that does not begin at
address zero: `Sheltered.liveness_agrees`.
-/

namespace CoopTasks

def living : List Notice → List (TaskId × StackRange)
  | [] => []
  | .started id stack :: older => (id, stack) :: living older
  | .exited id _ :: older => (living older).filter fun run => decide (run.1 ≠ id)
  | .woken .. :: older | .alarmArmed .. :: older | .drained :: older => living older

theorem living_filter_ofLife (journal : List Notice) :
    living (journal.filter Notice.ofLife) = living journal := by
  induction journal with
  | nil => rfl
  | cons notice older ih => cases notice <;> simp [List.filter_cons, Notice.ofLife, living, ih]

namespace Scheduler

variable {H : Type} {s t u : Scheduler H} {id : TaskId} {slot : Nat} {stack : StackRange}

theorem living_chronicle (s : Scheduler H) : living s.chronicle = living s.journal :=
  living_filter_ofLife s.journal

/-! ## What the journal tells of the slots -/

/-- The records agree with what the journal tells of the runs, and a stack has one slot. -/
structure Recounted (s : Scheduler H) : Prop where
  alive : ∀ id stack, (id, stack) ∈ living s.chronicle ↔
    id.index ∈ slots ∧ s.Occupied id.index ∧ s.idOf id.index = id ∧ (s.record id).stack = stack
  started : ∀ slot ∈ slots, (s.tasks.record slot).state ≠ .vacant →
    .started (s.idOf slot) (s.tasks.record slot).stack ∈ s.chronicle
  exited : ∀ slot ∈ slots, (s.tasks.record slot).state = .exited →
    .exited (s.idOf slot) (s.tasks.record slot).exitCode ∈ s.chronicle
  only : ∀ stack, ∀ a ∈ slots, ∀ b ∈ slots,
    s.boundTo stack a = true → s.boundTo stack b = true → a = b

theorem recounted_new (hardware : H) : (new hardware).Recounted := by
  have hvacant : ∀ slot, ((new hardware).tasks.record slot).state = .vacant :=
    fun slot => congrArg TaskRecord.state (TaskTable.record_vacant slot)
  refine ⟨fun id stack => ?_, ?_, ?_, ?_⟩
  · refine iff_of_false (by simp [chronicle, new, living]) ?_
    rintro ⟨_, hoccupied, _⟩
    exact hoccupied.1 (hvacant id.index)
  · intro slot _ hused
    exact absurd (hvacant slot) hused
  · intro slot _ hexited
    rw [hvacant] at hexited
    contradiction
  · intro stack a _ b _ ha
    exact absurd (hvacant a) (boundTo_eq_true.mp ha).1

theorem Recounted.lasted (h : s.Recounted) (hchronicle : t.chronicle = s.chronicle)
    (hlasts : s.Lasts t) : t.Recounted where
  alive := by
    intro id stack
    rw [hchronicle, h.alive]
    refine and_congr_right fun hslot => ?_
    rw [hlasts.occupied hslot, hlasts.bound.idOf hslot]
    unfold record
    rw [(hlasts id.index hslot).stack]
  started := by
    intro slot hslot hused
    rw [hchronicle, hlasts.bound.idOf hslot, (hlasts slot hslot).stack]
    exact h.started slot hslot (mt (hlasts slot hslot).vacant.mpr hused)
  exited := by
    intro slot hslot hexited
    have hbefore := (hlasts slot hslot).exited.mp hexited
    rw [hchronicle, hlasts.bound.idOf hslot, ((hlasts slot hslot).finished hbefore).2]
    exact h.exited slot hslot hbefore
  only := by
    intro stack a ha b hb
    rw [hlasts.bound.boundTo stack ha, hlasts.bound.boundTo stack hb]
    exact h.only stack a ha b hb

theorem Recounted.ended (h : s.Recounted) {code : UInt32}
    (hchronicle : t.chronicle = .exited id code :: s.chronicle)
    (hcode : code = (s.record id).exitCode)
    (hidOf : s.idOf id.index = id) (hoccupied : s.Occupied id.index)
    (hends : (s.record id).Ends (t.record id)) (hothers : ∀ slot ∈ slots, slot ≠ id.index →
      (s.tasks.record slot).Lasts (t.tasks.record slot)) : t.Recounted := by
  have hbound := bound_of_ended hoccupied hends hothers
  refine ⟨?alive, ?started, ?exited, ?only⟩
  case alive =>
    intro other stack
    rw [hchronicle, living, List.mem_filter, decide_eq_true_iff, h.alive]
    constructor
    · rintro ⟨⟨hslot, hgoes, hname, hstack⟩, hne⟩
      have hindex : other.index ≠ id.index := fun he => hne (by rw [← hname, he, hidOf])
      have hlasts := hothers other.index hslot hindex
      exact ⟨hslot, ⟨mt hlasts.vacant.mp hgoes.1, mt hlasts.exited.mp hgoes.2⟩,
        (hbound.idOf hslot).trans hname, hlasts.stack.trans hstack⟩
    · rintro ⟨hslot, hgoes, hname, hstack⟩
      have hindex : other.index ≠ id.index := by
        intro he
        rw [he] at hgoes
        exact hgoes.2 hends.state
      have hlasts := hothers other.index hslot hindex
      refine ⟨⟨hslot, ⟨mt hlasts.vacant.mpr hgoes.1, mt hlasts.exited.mpr hgoes.2⟩,
        (hbound.idOf hslot).symm.trans hname, hlasts.stack.symm.trans hstack⟩, ?_⟩
      rintro rfl
      exact hindex rfl
  case started =>
    intro slot hslot hused
    obtain ⟨hstack, _, hvacant⟩ := hbound slot hslot
    rw [hchronicle, hbound.idOf hslot, hstack]
    exact List.mem_cons_of_mem _ (h.started slot hslot (mt hvacant.mpr hused))
  case exited =>
    intro slot hslot hexited
    rw [hchronicle, hbound.idOf hslot]
    by_cases hindex : slot = id.index
    · subst hindex
      rw [hidOf, hcode, show (t.tasks.record id.index).exitCode = _ from hends.exitCode]
      exact List.mem_cons_self
    · have hlasts := hothers slot hslot hindex
      have hbefore := hlasts.exited.mp hexited
      rw [(hlasts.finished hbefore).2]
      exact List.mem_cons_of_mem _ (h.exited slot hslot hbefore)
  case only =>
    intro stack a ha b hb
    rw [hbound.boundTo stack ha, hbound.boundTo stack hb]
    exact h.only stack a ha b hb

theorem Recounted.chosen (h : s.Recounted) (hchosen : s.chooseSlot stack = some slot)
    {other : Nat} (hother : other ∈ slots) (hne : other ≠ slot) :
    s.boundTo stack other = false := by
  cases htask : s.taskOn stack with
  | none => exact boundTo_of_taskOn_none htask hother
  | some target =>
      obtain ⟨hslot, hbound, _⟩ := taskOn_eq_some htask
      unfold chooseSlot at hchosen
      rw [htask] at hchosen
      obtain rfl := Option.some.inj hchosen
      exact Bool.eq_false_iff.mpr fun he => hne (h.only stack other hother _ hslot he hbound)

variable [Hardware H] {pointer : Address}

theorem Recounted.began (h : s.Recounted) {hardware : H}
    (hchronicle : t.chronicle = .started id stack :: s.chronicle)
    (hstarted : Started { s with hardware } stack pointer id t) : t.Recounted := by
  have hslot : id.index ∈ slots := mem_slots.mpr hstarted.mem_slots
  have hself : (t.record id).stack = stack := congrArg TaskRecord.stack hstarted.self
  have hgone : ¬s.Occupied id.index := fun hoccupied => hoccupied.not_gone hstarted.gone
  have hother : ∀ slot ∈ slots, slot ≠ id.index → t.tasks.record slot = s.tasks.record slot :=
    fun _ hslot hne => hstarted.record_other hslot hne
  have hlater : ∀ notice, notice ∈ s.chronicle → notice ∈ t.chronicle := by
    intro notice hmem
    rw [hchronicle]
    exact List.mem_cons_of_mem _ hmem
  refine ⟨?alive, ?started, ?exited, ?only⟩
  case alive =>
    intro other range
    rw [hchronicle, living, List.mem_cons, h.alive]
    by_cases hindex : other.index = id.index
    · rw [hindex]
      unfold record
      rw [hindex, hstarted.idOf]
      constructor
      · rintro (hnew | ⟨_, hoccupied, _⟩)
        · obtain ⟨rfl, rfl⟩ := Prod.mk.inj hnew
          exact ⟨hslot, hstarted.occupied, rfl, hself⟩
        · exact absurd hoccupied hgone
      · rintro ⟨_, _, rfl, hrange⟩
        exact .inl (by rw [← hrange, ← hself]; rfl)
    · have hne : (other, range) ≠ (id, stack) := by
        intro he
        obtain ⟨rfl, _⟩ := Prod.mk.inj he
        exact hindex rfl
      rw [or_iff_right hne]
      refine and_congr_right fun hmem => ?_
      unfold Occupied record idOf
      rw [hother other.index hmem hindex]
  case started =>
    intro slot hmem hused
    by_cases hne : slot = id.index
    · subst hne
      rw [hstarted.idOf, show (t.tasks.record id.index).stack = stack from hself, hchronicle]
      exact List.mem_cons_self
    · have hsame := hother slot hmem hne
      rw [hsame] at hused ⊢
      rw [idOf_eq (congrArg TaskRecord.generation hsame)]
      exact hlater _ (h.started slot hmem hused)
  case exited =>
    intro slot hmem hexited
    by_cases hne : slot = id.index
    · rw [hne] at hexited
      exact absurd hexited hstarted.occupied.2
    · have hsame := hother slot hmem hne
      rw [hsame] at hexited ⊢
      rw [idOf_eq (congrArg TaskRecord.generation hsame)]
      exact hlater _ (h.exited slot hmem hexited)
  case only =>
    intro range
    refine only_of_changed id.index (h.only range) ?_ ?_
    · intro slot hmem hne hbound
      rwa [← boundTo_congr (hother slot hmem hne)]
    · intro hbound slot hmem hne
      obtain rfl := hself.symm.trans (boundTo_eq_true.mp hbound).2
      rw [boundTo_congr (hother slot hmem hne), h.chosen hstarted.chosen hmem hne]
      exact Bool.false_ne_true

theorem Passage.recounted {ranges : List StackRange} (h : Passage ranges s t)
    (hs : s.Recounted) : t.Recounted := by
  cases h with
  | lasted hchronicle hlasts => exact hs.lasted hchronicle hlasts
  | began hchronicle _ hstarted => exact hs.began hchronicle hstarted
  | ended hchronicle _ hidOf hoccupied hends hothers =>
      exact hs.ended hchronicle rfl hidOf hoccupied hends hothers

theorem Reachable.recounted (h : Reachable s) : s.Recounted := by
  induction h with
  | @new hardware => exact recounted_new hardware
  | elapse _ ih => exact ih.lasted rfl (lasts_of_tasks rfl)
  | perform hreachable hok ih =>
      obtain ⟨ranges, hpassage⟩ :=
        hreachable.invariants.1.passage_of_perform hreachable.lived hok
      exact hpassage.recounted ih

/-! ## What the saved pointers tell -/

/-- A start puts its context inside of a stack that is not at zero. -/
def Operation.shelters : Operation → Bool
  | .spawn stack pointer => decide (stack.bottom ≠ 0) && stack.holds pointer
  | _ => true

inductive Sheltered : Scheduler H → Prop
  | new {hardware : H} : Sheltered (new hardware)
  | elapse {s : Scheduler H} {hardware : H} : Sheltered s → Sheltered { s with hardware }
  | perform {s t : Scheduler H} {op : Operation} {decision : Option Decision} :
      Sheltered s →
      op.shelters = true →
      s.perform op = .ok (t, decision) →
      Sheltered t

theorem Sheltered.reachable (h : Sheltered s) : Reachable s := by
  induction h with
  | new => exact .new
  | elapse _ ih => exact ih.elapse
  | perform _ _ hok ih => exact ih.perform hok

theorem Sheltered.performAll (h : Sheltered s) {ops : List Operation}
    (hops : ∀ op ∈ ops, op.shelters = true) (hok : s.performAll ops = .ok t) : Sheltered t :=
  performAll_preserves (fun _ _ op _ hmem hs hperform => hs.perform (hops op hmem) hperform) h hok

end Scheduler

namespace TaskRecord

variable {r r' : TaskRecord}

/-- The saved pointer tells whether the task goes on. -/
structure Truthful (r : TaskRecord) : Prop where
  bottom : r.Occupied → r.stack.bottom ≠ 0
  live : r.isLive = true ↔ r.Occupied

theorem inert_place : Inert fun r => (r.stack, r.pointer) :=
  ⟨fun _ _ => rfl, fun _ _ _ => rfl, fun _ _ => rfl⟩

theorem truthful_vacant : vacant.Truthful :=
  ⟨fun hoccupied => absurd rfl hoccupied.1,
    iff_of_false (by decide) fun hoccupied => hoccupied.1 rfl⟩

theorem isLive_congr (h : (r'.stack, r'.pointer) = (r.stack, r.pointer)) :
    r'.isLive = r.isLive := by
  obtain ⟨hstack, hpointer⟩ := Prod.mk.inj h
  unfold isLive
  rw [hstack, hpointer]

theorem Lasts.occupied (h : r.Lasts r') : r'.Occupied ↔ r.Occupied :=
  and_congr (not_congr h.vacant) (not_congr h.exited)

theorem Truthful.lasts (h : r.Truthful) (hlasts : r.Lasts r')
    (hplace : (r'.stack, r'.pointer) = (r.stack, r.pointer)) : r'.Truthful where
  bottom := by
    rw [hlasts.occupied, hlasts.stack]
    exact h.bottom
  live := by
    rw [hlasts.occupied, isLive_congr hplace]
    exact h.live

theorem Truthful.ends (h : r.Truthful) (hoccupied : r.Occupied) (hends : r.Ends r') :
    r'.Truthful where
  bottom := fun hgoes => absurd hends.state hgoes.2
  live := by
    refine iff_of_false ?_ fun hgoes => hgoes.2 hends.state
    unfold isLive
    rw [hends.stack, hends.pointer, StackRange.holds_exitedPointer (h.bottom hoccupied)]
    exact Bool.false_ne_true

end TaskRecord

namespace Scheduler

open TaskRecord

variable {H : Type} {s t u : Scheduler H} {id : TaskId} {slot : Nat} {stack : StackRange}
variable [Hardware H] {pointer : Address}

def Truthful (s : Scheduler H) : Prop :=
  ∀ slot ∈ slots, (s.tasks.record slot).Truthful

theorem Started.truthful (h : Started s stack pointer id t) (hs : s.Truthful)
    (hbottom : stack.bottom ≠ 0) (hholds : stack.holds pointer = true) : t.Truthful := by
  intro slot hslot
  by_cases he : slot = id.index
  · subst he
    have hoccupied : (t.tasks.record id.index).Occupied := h.occupied
    have hplace : ((t.tasks.record id.index).stack, (t.tasks.record id.index).pointer) =
        (stack, pointer) := congrArg (fun r : TaskRecord => (r.stack, r.pointer)) h.self
    obtain ⟨hstack, hpointer⟩ := Prod.mk.inj hplace
    refine ⟨fun _ => by rwa [hstack], iff_of_true ?_ hoccupied⟩
    unfold isLive
    rwa [hstack, hpointer]
  · rw [h.record_other hslot he]
    exact hs slot hslot

theorem Switched.place_other {decision : Decision} {rest woken : List TaskId}
    {v w : Scheduler H} (h : Switched s pointer t decision id rest woken u v w)
    (hne : slot ≠ id.index) :
    ((t.tasks.record slot).stack, (t.tasks.record slot).pointer) =
      ((s.tasks.record slot).stack, (s.tasks.record slot).pointer) := by
  have hinert : ((t.tasks.record slot).stack, (t.tasks.record slot).pointer) =
      ((u.tasks.record slot).stack, (u.tasks.record slot).pointer) :=
    h.inert inert_place fun he => absurd he hne
  rwa [h.suspended.record slot, if_neg hne] at hinert

theorem Switched.truthful {decision : Decision} {rest woken : List TaskId}
    {v w : Scheduler H} (h : Switched s pointer t decision id rest woken u v w) (hs : s.Standing)
    (htruthful : s.Truthful) : t.Truthful := by
  intro slot hslot
  have hself : slot = id.index → (s.tasks.record slot).Occupied := by
    rintro rfl
    exact hs.occupied h.mem_runQueue (mem_slots.mp hslot).1
  by_cases hending : id.index ≠ 0 ∧ (s.record id).exiting = true
  · obtain ⟨hends, hothers⟩ := h.ends hs hending.1 hending.2
    by_cases he : slot = id.index
    · have hoccupied := hself he
      subst he
      exact (htruthful _ hslot).ends hoccupied hends
    · exact (htruthful slot hslot).lasts (hothers slot hslot he) (h.place_other he)
  · have hstays : id.index ≠ 0 → (s.record id).exiting = false :=
      fun hid => Bool.eq_false_iff.mpr fun hexiting => hending ⟨hid, hexiting⟩
    have hlasts := h.lasts hs hstays slot hslot
    by_cases he : slot = id.index
    · have hoccupied := hself he
      subst he
      have hid := (mem_slots.mp hslot).1
      refine ⟨?_, iff_of_true ?_ (hlasts.occupied.mpr hoccupied)⟩
      · rw [hlasts.occupied, hlasts.stack]
        exact (htruthful _ hslot).bottom
      · rw [isLive_congr (h.inert inert_place fun _ hexiting => absurd ⟨hid, hexiting⟩ hending)]
        exact h.settled.isLive hid
    · exact (htruthful slot hslot).lasts hlasts (h.place_other he)

theorem Truthful.perform (h : s.Truthful) (hs : s.Standing) (hlived : s.Lived)
    {op : Operation} {decision : Option Decision} (hshelters : op.shelters = true)
    (hok : s.perform op = .ok (t, decision)) : t.Truthful := by
  cases hs.perform hok with
  | refused => exact h
  | started hstarted =>
      rw [Operation.shelters, Bool.and_eq_true, decide_eq_true_iff] at hshelters
      exact hstarted.truthful h hshelters.1 hshelters.2
  | switched hswitched => exact hswitched.truthful hs h
  | _ =>
      intro slot hslot
      exact (h slot hslot).lasts ((hs.lasts_of_perform hlived hok rfl rfl).2 slot hslot)
        ((hs.perform hok).inert hs inert_place rfl rfl (fun _ _ _ => rfl) slot)

theorem Sheltered.truthful (h : Sheltered s) : s.Truthful := by
  induction h with
  | @new hardware =>
      intro slot _
      rw [show (Scheduler.new hardware).tasks.record slot = vacant from
        TaskTable.record_vacant slot]
      exact truthful_vacant
  | elapse _ ih => exact ih
  | perform hsheltered hshelters hok ih =>
      exact ih.perform hsheltered.reachable.invariants.1 hsheltered.reachable.lived hshelters hok

/-! ## One answer -/

omit [Hardware H] in
theorem Standing.occupied_iff_state (hs : s.Standing) (hslot : slot ∈ slots) :
    s.Occupied slot ↔ (s.tasks.record slot).state = .ready ∨
      (s.tasks.record slot).state = .running ∨ (s.tasks.record slot).state = .sleeping := by
  have hexclusive := hs.exclusive
  constructor
  · intro hoccupied
    by_cases hrun : s.idOf slot ∈ s.runQueue
    · rcases (hexclusive.queued slot hslot).mpr hrun with hready | hrunning
      · exact .inl hready
      · exact .inr (.inl hrunning)
    · by_cases hsleep : s.idOf slot ∈ s.sleepers
      · exact .inr (.inr ((hexclusive.sleeping slot hslot).mpr hsleep))
      · rcases (hexclusive.gone slot hslot).mpr ⟨hrun, hsleep⟩ with hvacant | hexited
        · exact absurd hvacant hoccupied.1
        · exact absurd hexited hoccupied.2
  · rintro (hready | hrunning | hsleeping)
    · exact occupied_of_state hready (by decide)
    · exact occupied_of_state hrunning (by decide)
    · exact occupied_of_state hsleeping (by decide)

omit [Hardware H] in
theorem mem_journal {notice : Notice} (h : notice ∈ s.chronicle) : notice ∈ s.journal :=
  (List.mem_filter.mp h).1

omit [Hardware H] in
theorem Recounted.taskOn (h : s.Recounted) (hmem : (id, stack) ∈ living s.journal) :
    s.taskOn stack = some id := by
  rw [← living_chronicle, h.alive] at hmem
  obtain ⟨hslot, hoccupied, hidOf, hstack⟩ := hmem
  rw [taskOn_of_only (h.only stack) hslot (boundTo_eq_true.mpr ⟨hoccupied.1, hstack⟩), hidOf]

omit [Hardware H] in
theorem Recounted.taskOn_living (h : s.Recounted) (htask : s.taskOn stack = some id) :
    (id, stack) ∈ living s.journal ↔ s.Occupied id.index := by
  obtain ⟨hslot, hbound, hidOf⟩ := taskOn_eq_some htask
  rw [← living_chronicle, h.alive]
  exact ⟨fun hliving => hliving.2.1,
    fun hoccupied => ⟨hslot, hoccupied, hidOf, (boundTo_eq_true.mp hbound).2⟩⟩

structure Reports (s : Scheduler H) (stack : StackRange) (report : TaskReport) : Prop where
  started : .started report.id stack ∈ s.journal
  alive : report.isLive = true ↔ (report.id, stack) ∈ living s.journal
  ended : (report.exitCode.isSome = true ↔ (s.record report.id).state = .exited) ∧
    ((s.record report.id).state = .exited ↔ (report.id, stack) ∉ living s.journal)
  exitCode : ∀ code, report.exitCode = some code → .exited report.id code ∈ s.journal
  asleep : (report.wakeAt.isSome = true ↔ (s.record report.id).state = .sleeping) ∧
    ((s.record report.id).state = .sleeping ↔ report.id ∈ s.sleepers)
  wakeAt : ∀ deadline, report.wakeAt = some deadline → (s.record report.id).wakeAt = deadline

structure LivenessAgrees (s : Scheduler H) : Prop where
  pointer : ∀ slot ∈ slots, (s.tasks.record slot).isLive = true ↔
    (s.tasks.record slot).state = .ready ∨ (s.tasks.record slot).state = .running ∨
      (s.tasks.record slot).state = .sleeping
  report : ∀ slot ∈ slots, (s.tasks.report (s.idOf slot)).isLive = true ↔
    (s.tasks.record slot).isLive = true
  inUse : ∀ stack, s.stackInUse stack = true ↔ ∃ id, (id, stack) ∈ living s.journal
  reports : ∀ stack report, s.reportOn stack = some report → s.Reports stack report

omit [Hardware H] in
theorem isLive_report (s : Scheduler H) (id : TaskId) :
    (s.tasks.report id).isLive = true ↔ s.Occupied id.index :=
  decide_eq_true_iff

omit [Hardware H] in
theorem Recounted.inUse (h : s.Recounted) (htruthful : s.Truthful) (stack : StackRange) :
    s.stackInUse stack = true ↔ ∃ id, (id, stack) ∈ living s.journal := by
  unfold stackInUse
  constructor
  · intro huse
    cases htask : s.taskOn stack with
    | none =>
        rw [htask] at huse
        contradiction
    | some id =>
        rw [htask] at huse
        have hlive := (htruthful id.index (taskOn_eq_some htask).1).live.mp huse
        exact ⟨id, (h.taskOn_living htask).mpr hlive⟩
  · rintro ⟨id, hmem⟩
    have htask := h.taskOn hmem
    rw [htask]
    have hoccupied := (h.taskOn_living htask).mp hmem
    exact (htruthful id.index (taskOn_eq_some htask).1).live.mpr hoccupied

omit [Hardware H] in
theorem Recounted.reports (h : s.Recounted) (hs : s.Standing) {report : TaskReport}
    (hreport : s.reportOn stack = some report) : s.Reports stack report := by
  obtain ⟨id, htask, rfl⟩ := Option.map_eq_some_iff.mp hreport
  obtain ⟨hslot, hbound, hidOf⟩ := taskOn_eq_some htask
  obtain ⟨hused, hstack⟩ := boundTo_eq_true.mp hbound
  have hliving := h.taskOn_living htask
  refine ⟨?started, ?alive, ?ended, ?exitCode, ?asleep, ?wakeAt⟩
  case started =>
    have hstarted := mem_journal (h.started id.index hslot hused)
    rwa [hidOf, hstack] at hstarted
  case alive => exact (isLive_report s id).trans hliving.symm
  case ended =>
    refine ⟨by simp [TaskTable.report, TaskRecord.report, record], ?_⟩
    show (s.tasks.record id.index).state = .exited ↔ (id, stack) ∉ living s.journal
    rw [hliving]
    exact ⟨fun hexited hoccupied => hoccupied.2 hexited, fun hgone =>
      Classical.not_not.mp fun hgoes => hgone ⟨hused, hgoes⟩⟩
  case exitCode =>
    intro code hcode
    obtain ⟨hexited, hgave⟩ := (Option.ite_none_right_eq_some).mp hcode
    have hended := mem_journal (h.exited id.index hslot hexited)
    rwa [hidOf, Option.some.inj hgave] at hended
  case asleep =>
    refine ⟨by simp [TaskTable.report, TaskRecord.report, record], ?_⟩
    have hsleeping := hs.exclusive.sleeping id.index hslot
    rwa [hidOf] at hsleeping
  case wakeAt =>
    intro deadline hdeadline
    exact (Option.some.inj ((Option.ite_none_right_eq_some).mp hdeadline).2)

/--
If every start puts its context inside of a stack that does not begin at
address zero, a task is alive by its saved pointer just if it is so by its
state, by its report and by the journal.
-/
theorem Sheltered.liveness_agrees (h : Sheltered s) : s.LivenessAgrees := by
  have hs := h.reachable.invariants.1
  have hrecounted := h.reachable.recounted
  have htruthful := h.truthful
  refine ⟨?pointer, ?report, hrecounted.inUse htruthful, ?reports⟩
  case pointer =>
    intro slot hslot
    exact (htruthful slot hslot).live.trans (hs.occupied_iff_state hslot)
  case report =>
    intro slot hslot
    rw [isLive_report, s.index_idOf (mem_slots.mp hslot).2]
    exact (htruthful slot hslot).live.symm
  case reports =>
    intro stack report hreport
    exact hrecounted.reports hs hreport

def sleeperLeft : Except Fault (Scheduler Board) :=
  (new (Board.start Instant.zero)).performAll
    [.spawn ⟨0x20000000, 0x20000400⟩ 0x200003c8, .spawn ⟨0x20001000, 0x20001400⟩ 0x200013c8,
      .reschedule Board.mainlinePointer, .markExiting 7, .reschedule 0x20000380,
      .markAsleep ⟨500⟩, .reschedule 0x20001380]

theorem liveness_agrees_sleeperLeft :
    ∃ s : Scheduler Board, Sheltered s ∧ s.LivenessAgrees ∧
      s.stackInUse ⟨0x20000000, 0x20000400⟩ = false ∧
      s.stackInUse ⟨0x20001000, 0x20001400⟩ = true ∧
      (s.reportOn ⟨0x20000000, 0x20000400⟩).map TaskReport.exitCode = some (some 7) ∧
      (s.reportOn ⟨0x20001000, 0x20001400⟩).map TaskReport.wakeAt = some (some ⟨500⟩) ∧
      living s.journal = [(⟨2, 2⟩, ⟨0x20001000, 0x20001400⟩)] := by
  obtain ⟨s, hs⟩ := Option.isSome_iff_exists.mp
    (show sleeperLeft.toOption.isSome = true by decide)
  have huses : sleeperLeft.toOption.map (fun s =>
      (s.stackInUse ⟨0x20000000, 0x20000400⟩, s.stackInUse ⟨0x20001000, 0x20001400⟩,
        living s.journal)) =
      some (false, true, [(⟨2, 2⟩, ⟨0x20001000, 0x20001400⟩)]) := by decide
  have hreports : sleeperLeft.toOption.map (fun s =>
      ((s.reportOn ⟨0x20000000, 0x20000400⟩).map TaskReport.exitCode,
        (s.reportOn ⟨0x20001000, 0x20001400⟩).map TaskReport.wakeAt)) =
      some (some (some 7), some (some ⟨500⟩)) := by decide
  rw [hs] at huses hreports
  simp only [Option.map_some, Option.some.injEq, Prod.mk.injEq] at huses hreports
  obtain ⟨hgone, huse, hliving⟩ := huses
  rw [toOption_eq_some] at hs
  have hsheltered : Sheltered s := Sheltered.new.performAll (by decide) hs
  exact ⟨s, hsheltered, hsheltered.liveness_agrees, hgone, huse, hreports.1, hreports.2, hliving⟩

end Scheduler

end CoopTasks

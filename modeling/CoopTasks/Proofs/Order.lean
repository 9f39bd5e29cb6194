import CoopTasks.Proofs.World

/-!
What the sleep counts, the exits and the repeated calls of tasks have to do
with their states.

`TaskRecord.Fits` is about one task; `World.Orderly` is the invariant.  Its use
is that a task which is inside of a call is alive, and that a task with a
pending sleep sleeps or is about to.
-/

namespace CoopTasks

open Scheduler

/-! ## One task -/

/-- A record in a world where its task is inside of a call, and may be about to leave. -/
structure TaskRecord.Fits (t : TaskRecord) (inside : Option Blocking) (leaving : Prop) :
    Prop where
  count_le : t.sleepCount ≤ 1
  pending : 0 < t.sleepCount → t.state = .sleeping ∨ leaving
  asleep : t.state = .sleeping → 0 < t.sleepCount
  exiting : t.exiting = true → inside = none ∧ (t.state = .exited ∨ leaving)
  live : inside ≠ none → t.isLive = true ∧ t.state ≠ .vacant ∧ t.state ≠ .exited
  gone : t.state = .vacant ∨ t.state = .exited → t.completion.waiter = none
  ended : t.state = .exited → t.completion.latched = true

namespace TaskRecord.Fits

variable {t : TaskRecord} {inside : Option Blocking} {leaving : Prop}

theorem mono (h : t.Fits inside leaving) {leaving' : Prop} (hleaving : leaving → leaving') :
    t.Fits inside leaving' where
  count_le := h.count_le
  pending := fun hpending => (h.pending hpending).imp_right hleaving
  asleep := h.asleep
  exiting := fun hexiting => ⟨(h.exiting hexiting).1, (h.exiting hexiting).2.imp_right hleaving⟩
  live := h.live
  gone := h.gone
  ended := h.ended

theorem woken (h : t.Fits inside leaving) : t.woken.Fits inside leaving := by
  have hcount : t.woken.sleepCount = t.sleepCount - 1 := rfl
  have hle := h.count_le
  have hstate : t.woken.state ≠ .sleeping ∧
      (t.woken.state = .vacant → t.state = .vacant) ∧
      (t.woken.state = .exited ↔ t.state = .exited) := by
    unfold TaskRecord.woken
    dsimp only
    split
    · rename_i hsleeping
      rw [hsleeping]
      decide
    · rename_i hsleeping
      exact ⟨hsleeping, fun he => he, Iff.rfl⟩
  obtain ⟨hawake, hvacant, hexited⟩ := hstate
  refine ⟨by omega, by omega, fun he => absurd he hawake, ?exiting, ?live, ?gone, ?ended⟩
  case exiting =>
    intro hexiting
    obtain ⟨hinside, hleaving⟩ := h.exiting hexiting
    exact ⟨hinside, hleaving.imp_left hexited.mpr⟩
  case live =>
    intro hinside
    obtain ⟨hlive, hne, hne'⟩ := h.live hinside
    exact ⟨hlive, fun he => hne (hvacant he), fun he => hne' (hexited.mp he)⟩
  case gone =>
    intro hgone
    exact h.gone (hgone.imp hvacant hexited.mp)
  case ended =>
    intro he
    exact h.ended (hexited.mp he)

theorem executing (h : t.Fits inside False) (hstate : t.state = .ready ∨ t.state = .running) :
    t.sleepCount ≤ 0 ∧ t.exiting = false := by
  have hne : t.state ≠ .sleeping ∧ t.state ≠ .exited := by
    rcases hstate with he | he <;> rw [he] <;> decide
  constructor
  · by_cases hcount : 0 < t.sleepCount
    · exact absurd ((h.pending hcount).resolve_right id) hne.1
    · omega
  · cases hexiting : t.exiting with
    | false => rfl
    | true => exact absurd ((h.exiting hexiting).2.resolve_right id) hne.2

theorem enter (h : t.Fits inside False) (hstate : t.state = .ready ∨ t.state = .running)
    (hlive : t.isLive = true) (inside' : Option Blocking) : t.Fits inside' False := by
  obtain ⟨hcount, hexiting⟩ := h.executing hstate
  have hne : t.state ≠ .sleeping ∧ t.state ≠ .vacant ∧ t.state ≠ .exited := by
    rcases hstate with he | he <;> rw [he] <;> decide
  refine ⟨h.count_le, by omega, h.asleep, ?_, fun _ => ⟨hlive, hne.2⟩, h.gone, h.ended⟩
  intro he
  rw [hexiting] at he
  contradiction

theorem countSleep (h : t.Fits inside leaving) (hstate : t.state = .ready ∨ t.state = .running)
    (hcount : t.sleepCount ≤ 0) (hleaving : leaving) (deadline : Instant) :
    (t.countSleep deadline).Fits inside leaving := by
  have hne : t.state ≠ .sleeping := by
    rcases hstate with he | he <;> rw [he] <;> decide
  refine ⟨?_, fun _ => .inr hleaving, fun he => absurd he hne, h.exiting, h.live, h.gone, h.ended⟩
  show t.sleepCount + 1 ≤ 1
  omega

theorem run (h : t.Fits inside False) (hstate : t.state = .ready ∨ t.state = .running) :
    TaskRecord.Fits { t with state := .running } inside False := by
  obtain ⟨hcount, hexiting⟩ := h.executing hstate
  refine ⟨h.count_le, ?pending, by simp, ?exiting, ?live, by simp, by simp⟩
  case pending =>
    intro hpending
    change 0 < t.sleepCount at hpending
    omega
  case exiting =>
    intro he
    rw [show t.exiting = true from he] at hexiting
    contradiction
  case live =>
    intro hinside
    exact ⟨(h.live hinside).1, by simp, by simp⟩

theorem requeue (h : t.Fits inside leaving) (hlive : t.isLive = true)
    (hexiting : t.exiting = false) (hawake : t.isSleeping = false) :
    TaskRecord.Fits { t with state := .ready } inside False := by
  rw [TaskRecord.isSleeping, decide_eq_false_iff_not] at hawake
  refine ⟨h.count_le, fun hpending => absurd hpending hawake, by simp, ?_,
    fun _ => ⟨hlive, by simp, by simp⟩, by simp, by simp⟩
  intro he
  rw [show t.exiting = true from he] at hexiting
  contradiction

theorem putToSleep (h : t.Fits inside leaving) (hlive : t.isLive = true)
    (hexiting : t.exiting = false) (hasleep : t.isSleeping = true) :
    TaskRecord.Fits { t with state := .sleeping } inside False := by
  rw [TaskRecord.isSleeping, decide_eq_true_iff] at hasleep
  refine ⟨h.count_le, fun _ => .inl rfl, fun _ => hasleep, ?_,
    fun _ => ⟨hlive, by simp, by simp⟩, by simp, by simp⟩
  intro he
  rw [show t.exiting = true from he] at hexiting
  contradiction

theorem finished (h : t.Fits inside leaving) (hexiting : t.exiting = true)
    (hawake : t.isSleeping = false) : t.finished.Fits inside False := by
  rw [TaskRecord.isSleeping, decide_eq_false_iff_not] at hawake
  obtain ⟨hinside, _⟩ := h.exiting hexiting
  exact ⟨h.count_le, fun hpending => absurd hpending hawake, fun he => by contradiction,
    fun _ => ⟨hinside, .inl rfl⟩, fun hne => absurd hinside hne, fun _ => rfl, fun _ => rfl⟩

theorem suspended (h : t.Fits inside leaving) {H : Type} [Hardware H] {s : Scheduler H}
    {pointer : Address} (hlive : (s.suspendedRecord pointer t).isLive = true) :
    (s.suspendedRecord pointer t).Fits inside leaving :=
  ⟨h.count_le, h.pending, h.asleep, h.exiting, fun hinside => ⟨hlive, (h.live hinside).2⟩,
    h.gone, h.ended⟩

theorem withCompletion (h : t.Fits inside leaving) {completion : Signal}
    (hlatched : completion.latched = t.completion.latched)
    (hgone : t.state = .vacant ∨ t.state = .exited → completion.waiter = none) :
    TaskRecord.Fits { t with completion } inside leaving :=
  ⟨h.count_le, h.pending, h.asleep, h.exiting, h.live, hgone, fun he => hlatched.trans (h.ended he)⟩

end TaskRecord.Fits

/-! ## All tasks -/

namespace World

variable {H : Type} {w w' : World H}

def Leaves (w : World H) (slot : Nat) : Prop :=
  w.control = .leaving ∧ w.scheduler.current = some (w.scheduler.idOf slot)

structure Orderly (w : World H) : Prop where
  standing : w.scheduler.Standing
  attended : w.control ≠ .idle → w.scheduler.runQueue = [] → w.scheduler.sleepers = []
  current : w.control ≠ .idle →
    ∀ id, w.scheduler.current = some id → (w.scheduler.record id).isLive = true
  fits : ∀ slot ∈ slots, (w.record slot).Fits (w.inside slot) (w.Leaves slot)

end World

theorem Scheduler.Standing.current_congr {H : Type} {s t : Scheduler H} (hs : s.Standing)
    (ht : t.Standing) (hhead : t.runQueue.head? = s.runQueue.head?) : t.current = s.current := by
  unfold Scheduler.current
  rw [ht.ready_head, hs.ready_head, hhead]

namespace World

variable {H : Type} {w w' : World H} {t : Scheduler H} {id : TaskId}

theorem Orderly.alarmMoved (h : w.Orderly) (hm : AlarmMoved w.scheduler t) :
    (w.withScheduler t).Orderly := by
  have hrecord : ∀ id, t.record id = w.scheduler.record id := by
    intro id
    unfold Scheduler.record
    rw [hm.tasks]
  have hcurrent : t.current = w.scheduler.current := by
    unfold Scheduler.current
    rw [hm.ready]
  refine ⟨hm.standing h.standing, ?attended, ?current, ?fits⟩
  case attended =>
    intro hcontrol hrun
    exact hm.sleepers_eq.trans (h.attended hcontrol (hm.runQueue_eq.symm.trans hrun))
  case current =>
    intro hcontrol id hid
    refine (congrArg TaskRecord.isLive (hrecord id)).trans ?_
    exact h.current hcontrol id (hcurrent.symm.trans hid)
  case fits =>
    intro slot hslot
    have hfits := h.fits slot hslot
    have hsame : (w.withScheduler t).record slot = w.record slot := by
      change t.tasks.record slot = w.scheduler.tasks.record slot
      rw [hm.tasks]
    rw [hsame]
    apply hfits.mono
    rintro ⟨hleaving, hid⟩
    refine ⟨hleaving, hcurrent.trans (hid.trans ?_)⟩
    have hgeneration : (t.tasks.record slot).generation =
        (w.scheduler.tasks.record slot).generation := by rw [hm.tasks]
    exact congrArg some (idOf_eq hgeneration).symm

theorem Orderly.current_woke (h : w.Orderly) (hwoke : Woke w.scheduler id t)
    (hcontrol : w.control ≠ .idle) : t.current = w.scheduler.current := by
  apply h.standing.current_congr hwoke.standing
  rw [hwoke.runQueue]
  cases hrun : w.scheduler.runQueue with
  | cons head rest => rfl
  | nil =>
      have hsleep := h.attended hcontrol hrun
      have hawake : (w.scheduler.record id).state ≠ .sleeping := by
        intro hstate
        have hmem := Placed.mem_sleep_of_sleeping h.standing hwoke.task hwoke.current hstate
        rw [hsleep] at hmem
        simp at hmem
      rw [if_neg hawake, List.append_nil]

theorem Orderly.woke (h : w.Orderly) (hwoke : Woke w.scheduler id t) :
    (w.withScheduler t).Orderly := by
  refine ⟨hwoke.standing, ?attended, ?current, ?fits⟩
  case attended =>
    intro hcontrol hrun
    have happend := hwoke.runQueue.symm.trans hrun
    have hsleep := h.attended hcontrol (List.append_eq_nil_iff.mp happend).1
    refine hwoke.sleepers.trans ?_
    rw [hsleep, List.erase_nil]
  case current =>
    intro hcontrol m hm
    have hm' := h.current hcontrol m ((h.current_woke hwoke hcontrol).symm.trans hm)
    refine (congrArg TaskRecord.isLive (hwoke.record m.index)).trans ?_
    split
    · exact (TaskRecord.isLive_woken _).trans hm'
    · exact hm'
  case fits =>
    intro slot hslot
    have hrecord : (w.withScheduler t).record slot =
        if slot = id.index then (w.record slot).woken else w.record slot := hwoke.record slot
    have hleaves : w.Leaves slot → (w.withScheduler t).Leaves slot := by
      rintro ⟨hleaving, hcurrent⟩
      refine ⟨hleaving, ?_⟩
      have hne : w.control ≠ .idle := by
        rw [hleaving]
        decide
      refine (h.current_woke hwoke hne).trans (hcurrent.trans ?_)
      exact congrArg some (hwoke.bound.idOf hslot).symm
    rw [hrecord]
    split
    · exact (h.fits slot hslot).woken.mono hleaves
    · exact (h.fits slot hslot).mono hleaves

theorem Orderly.wakes (h : w.Orderly) {ids : List TaskId} (hwakes : Wakes w.scheduler ids t) :
    (w.withScheduler t).Orderly := by
  refine hwakes.preserves (P := fun t => (w.withScheduler t).Orderly) ?_ ?_ h
  · intro s u hm hs
    exact hs.alarmMoved hm
  · intro s id u hwoke hs
    exact hs.woke hwoke

theorem Orderly.wakeWaiter [Hardware H] (h : w.Orderly) {waiter : Option TaskId}
    (hok : w.scheduler.wakeWaiter waiter = .ok t) : (w.withScheduler t).Orderly := by
  cases waiter with
  | none =>
      obtain rfl := Except.ok.inj hok
      exact h
  | some id =>
      obtain ⟨ids, hwakes⟩ := h.standing.wakes_of_wake hok
      exact h.wakes hwakes

/-! ## Calls -/

theorem Orderly.fits_executing (h : w.Orderly) (hexec : w.control = .executing) {slot : Nat}
    (hslot : slot ∈ slots) : (w.record slot).Fits (w.inside slot) False := by
  apply (h.fits slot hslot).mono
  rintro ⟨hleaving, _⟩
  rw [hexec] at hleaving
  contradiction

theorem Orderly.of_scheduler (h : w.Orderly) (hscheduler : w'.scheduler = w.scheduler)
    (hcontrol : w'.control = w.control) (hinside : w'.inside = w.inside) : w'.Orderly := by
  cases w with
  | mk kernel control inside =>
      cases w' with
      | mk kernel' control' inside' =>
          obtain rfl := hcontrol
          obtain rfl := hinside
          change kernel'.scheduler = kernel.scheduler at hscheduler
          obtain ⟨hstanding, hattended, hcurrent, hfits⟩ := h
          constructor <;> simp only [World.scheduler, World.record, Leaves, hscheduler] at *
          · exact hstanding
          · exact hattended
          · exact hcurrent
          · exact hfits

structure Caller (w : World H) (id : TaskId) : Prop where
  slot : id.index ∈ slots
  idOf : w.scheduler.idOf id.index = id
  generation : id.generation = (w.record id.index).generation
  live : (w.record id.index).isLive = true
  state : (w.record id.index).state = .ready ∨ (w.record id.index).state = .running
  count : (w.record id.index).sleepCount ≤ 0
  exiting : (w.record id.index).exiting = false

theorem Orderly.caller (h : w.Orderly) (hexec : w.control = .executing)
    (hcurrent : w.scheduler.current = some id) : w.Caller id := by
  obtain ⟨hhead, hne, hlt⟩ := h.standing.current hcurrent
  have hmem : id ∈ w.scheduler.runQueue := List.mem_of_head? hhead
  have hslot : id.index ∈ slots := mem_slots.mpr ⟨hne, hlt⟩
  have hstate := h.standing.queued id hmem hne
  obtain ⟨hcount, hexiting⟩ := (h.fits_executing hexec hslot).executing hstate
  refine ⟨hslot, h.standing.idOf_index (List.mem_append_left _ hmem),
    h.standing.generation id (List.mem_append_left _ hmem), ?_, hstate, hcount, hexiting⟩
  apply h.current _ id hcurrent
  rw [hexec]
  decide

theorem Caller.still (hcaller : w.Caller id) (hcurrent : w.scheduler.current = some id)
    (hafter : t.current = w.scheduler.current)
    (hgeneration : ∀ slot, (t.tasks.record slot).generation = (w.record slot).generation) :
    t.current = some (t.idOf id.index) := by
  rw [hafter, hcurrent, idOf_eq (s := w.scheduler) (hgeneration id.index), hcaller.idOf]

/-- The queues stay as they are, so it is enough to look at each record. -/
theorem Orderly.of_kept (h : w.Orderly) (hcontrol : w'.control ≠ .idle → w.control ≠ .idle)
    (hs : w'.scheduler.Standing) (hrun : w'.scheduler.runQueue = w.scheduler.runQueue)
    (hsleep : w'.scheduler.sleepers = w.scheduler.sleepers)
    (hlive : ∀ slot, (w'.record slot).isLive = (w.record slot).isLive)
    (hfits : ∀ slot ∈ slots, (w'.record slot).Fits (w'.inside slot) (w'.Leaves slot)) :
    w'.Orderly := by
  refine ⟨hs, ?_, ?_, hfits⟩
  · intro hne hempty
    rw [hsleep]
    exact h.attended (hcontrol hne) (hrun.symm.trans hempty)
  · intro hne id hid
    have hcurrent : w'.scheduler.current = w.scheduler.current :=
      h.standing.current_congr hs (by rw [hrun])
    refine (hlive id.index).trans ?_
    exact h.current (hcontrol hne) id (hcurrent.symm.trans hid)

theorem Orderly.caller_leaves (h : w.Orderly) (hexec : w.control = .executing)
    (hcurrent : w.scheduler.current = some id) {change : TaskRecord → TaskRecord}
    (hmoved : Moved w.scheduler id change w.scheduler.runQueue w.scheduler.sleepers t)
    (hlive : ∀ r, (change r).isLive = r.isLive)
    (hgeneration : ∀ r, (change r).generation = r.generation) {inside : Nat → Option Blocking}
    (hinside : ∀ slot, slot ≠ id.index → inside slot = w.inside slot)
    (hself : ∀ leaving : Prop, leaving →
      (change (w.record id.index)).Fits (inside id.index) leaving) :
    Orderly ⟨(w.withScheduler t).kernel, .leaving, inside⟩ := by
  refine h.of_kept ?_ hmoved.standing hmoved.runQueue hmoved.sleepers
    (hmoved.field TaskRecord.isLive hlive) ?_
  · intro _
    rw [hexec]
    decide
  · intro slot hslot
    have hafter := h.standing.current_congr hmoved.standing (by rw [hmoved.runQueue])
    show (t.tasks.record slot).Fits (inside slot) _
    by_cases he : slot = id.index
    · subst he
      rw [show t.tasks.record id.index = _ from hmoved.self]
      exact hself _ ⟨rfl, (h.caller hexec hcurrent).still hcurrent hafter
        (hmoved.field TaskRecord.generation hgeneration)⟩
    · rw [hmoved.other he, hinside slot he]
      exact (h.fits_executing hexec hslot).mono False.elim

theorem insideAfter_of_ne {call : Call} {retries : Bool} {slot : Nat}
    (h : ∀ id, w.scheduler.current = some id → slot ≠ id.index) :
    w.insideAfter call retries slot = w.inside slot := by
  unfold insideAfter
  rw [if_neg]
  intro he
  obtain ⟨id, hcurrent, rfl⟩ := Option.map_eq_some_iff.mp he
  exact h id hcurrent rfl

theorem insideAfter_self {call : Call} {retries : Bool}
    (h : w.scheduler.current = some id) :
    w.insideAfter call retries id.index = if retries then call.blocking else none := by
  unfold insideAfter
  rw [if_pos]
  rw [h, Option.map_some]

theorem insideAfter_of_none {call : Call} (hmay : w.MayCall call)
    (hcall : call.blocking = none) : w.insideAfter call false = w.inside := by
  funext slot
  by_cases hcurrent : ∃ id, w.scheduler.current = some id ∧ slot = id.index
  · obtain ⟨id, hid, rfl⟩ := hcurrent
    rw [insideAfter_self hid]
    cases hinside : w.inside id.index with
    | none => rfl
    | some blocking =>
        have := hmay id blocking hid hinside
        rw [hcall] at this
        contradiction
  · apply insideAfter_of_ne
    intro id hid he
    exact hcurrent ⟨id, hid, he⟩

theorem MayCall.inside_none {call : Call} (hmay : w.MayCall call)
    (hcall : call.blocking = none) (hcurrent : w.scheduler.current = some id) :
    w.inside id.index = none := by
  rw [← insideAfter_of_none hmay hcall, insideAfter_self hcurrent]
  rfl

theorem Orderly.attempted (h : w.Orderly) (hexec : w.control = .executing) {call : Call}
    {signal signal' : Signal} {result : WaitResult}
    (hattempted : Attempted w.scheduler signal t signal' result) :
    Orderly ⟨(w.withScheduler t).kernel, (result.progress ()).control,
      w.insideAfter call (result.progress ()).retries⟩ := by
  have hnot : ∀ control : Control, control ≠ .idle → w.control ≠ .idle := by
    intro _ _
    rw [hexec]
    decide
  cases hattempted with
  | acquired _ =>
      refine h.of_kept (hnot _) h.standing rfl rfl (fun _ => rfl) ?_
      intro slot hslot
      have hfits := h.fits_executing hexec hslot
      by_cases hcurrent : ∃ id, w.scheduler.current = some id ∧ slot = id.index
      · obtain ⟨id, hid, rfl⟩ := hcurrent
        have hcaller := h.caller hexec hid
        exact (hfits.enter hcaller.state hcaller.live _).mono False.elim
      · have hsame : w.insideAfter call false slot = w.inside slot :=
          insideAfter_of_ne fun id hid he => hcurrent ⟨id, hid, he⟩
        show TaskRecord.Fits _ (w.insideAfter call false slot) _
        rw [hsame]
        exact hfits.mono False.elim
  | @parked _ id hid _ _ _ _ hmoved _ =>
      have hcaller := h.caller hexec hid
      have henter := (h.fits_executing hexec hcaller.slot).enter hcaller.state hcaller.live
        (w.insideAfter call true id.index)
      refine h.caller_leaves hexec hid hmoved (fun _ => rfl) (fun _ => rfl) ?_ ?_
      · intro slot hne
        apply insideAfter_of_ne
        intro other hother
        obtain rfl := Option.some.inj (hid.symm.trans hother)
        exact hne
      · intro leaving hleaving
        exact (henter.mono False.elim).countSleep hcaller.state hcaller.count hleaving _
  | @busy id other hid _ _ _ _ =>
      have hcaller := h.caller hexec hid
      refine h.of_kept (hnot _) h.standing rfl rfl (fun _ => rfl) ?_
      intro slot hslot
      have hfits := h.fits_executing hexec hslot
      by_cases he : slot = id.index
      · subst he
        exact (hfits.enter hcaller.state hcaller.live _).mono False.elim
      · show TaskRecord.Fits _ (w.insideAfter call true slot) _
        rw [insideAfter_of_ne]
        · exact hfits.mono False.elim
        · intro other hother
          obtain rfl := Option.some.inj (hid.symm.trans hother)
          exact he

theorem Orderly.withCompletion (h : w.Orderly) {target : TaskId} {completion : Signal}
    (hmoved : Moved w.scheduler target (fun t => { t with completion }) w.scheduler.runQueue
      w.scheduler.sleepers t)
    (hlatched : completion.latched = (w.record target.index).completion.latched)
    (hgone : (w.record target.index).state = .vacant ∨ (w.record target.index).state = .exited →
      completion.waiter = none) :
    (w.withScheduler t).Orderly := by
  refine h.of_kept (fun hne => hne) hmoved.standing hmoved.runQueue hmoved.sleepers
    (hmoved.field TaskRecord.isLive fun _ => rfl) ?_
  intro slot hslot
  have hcurrent := h.standing.current_congr hmoved.standing (by rw [hmoved.runQueue])
  have hidOf : t.idOf slot = w.scheduler.idOf slot :=
    idOf_eq (hmoved.field TaskRecord.generation (fun _ => rfl) slot)
  have hleaves : w.Leaves slot → (w.withScheduler t).Leaves slot := by
    rintro ⟨hleaving, hid⟩
    exact ⟨hleaving, hcurrent.trans (hid.trans (congrArg some hidOf.symm))⟩
  have hfits := (h.fits slot hslot).mono hleaves
  show (t.tasks.record slot).Fits _ _
  by_cases he : slot = target.index
  · subst he
    rw [show t.tasks.record target.index = _ from hmoved.self]
    exact hfits.withCompletion hlatched hgone
  · rw [hmoved.other he]
    exact hfits

theorem Orderly.outside_of_gone (h : w.Orderly) {slot : Nat} (hslot : slot ∈ slots)
    (hgone : (w.record slot).state = .vacant ∨ (w.record slot).state = .exited) :
    w.inside slot = none := by
  cases hinside : w.inside slot with
  | none => rfl
  | some blocking =>
      obtain ⟨_, hvacant, hexited⟩ := (h.fits slot hslot).live (by rw [hinside]; simp)
      rcases hgone with hgone | hgone
      · exact absurd hgone hvacant
      · exact absurd hgone hexited

theorem Orderly.started (h : w.Orderly) (hexec : w.control = .executing) {hardware : H}
    [Hardware H] {stack : StackRange} {pointer : Address}
    (hstarted : Started { w.scheduler with hardware } stack pointer id t) :
    Orderly ⟨(w.withScheduler t).kernel, .leaving, w.inside⟩ := by
  have hgone : (w.record id.index).state = .vacant ∨ (w.record id.index).state = .exited :=
    hstarted.gone
  obtain ⟨hid, hlt⟩ := hstarted.mem_slots
  have hrun : t.runQueue = w.scheduler.admitted ++ [id] := hstarted.runQueue
  refine ⟨hstarted.standing, ?attended, ?current, ?fits⟩
  case attended =>
    intro _ hempty
    have := hrun.symm.trans hempty
    simp at this
  case current =>
    intro _ m hm
    obtain ⟨hhead, hmne, _⟩ := hstarted.standing.current hm
    rw [hrun] at hhead
    -- before an empty run queue the mainline is admitted, and it is not the current task
    have hfirst : w.scheduler.runQueue.head? = some m := by
      unfold admitted at hhead
      cases hlist : w.scheduler.runQueue with
      | nil =>
          rw [hlist, if_pos rfl] at hhead
          obtain rfl := Option.some.inj hhead
          exact absurd rfl hmne
      | cons first rest =>
          rw [hlist, if_neg (List.cons_ne_nil _ _)] at hhead
          exact hhead
    have hother : m.index ≠ id.index := by
      intro he
      have hoccupied := h.standing.occupied (List.mem_of_head? hfirst) hmne
      rw [he] at hoccupied
      exact hoccupied.not_gone hgone
    have hsame : t.tasks.record m.index = w.scheduler.tasks.record m.index :=
      hstarted.other m.index hmne hother
    refine (congrArg TaskRecord.isLive hsame).trans ?_
    apply h.current (by rw [hexec]; decide) m
    exact h.standing.current_eq_some_iff.mpr ⟨hfirst, hmne⟩
  case fits =>
    intro slot hslot
    have hfits := h.fits_executing hexec hslot
    show (t.tasks.record slot).Fits _ _
    by_cases he : slot = id.index
    · subst he
      have hinside := h.outside_of_gone hslot hgone
      show TaskRecord.Fits _ (w.inside id.index) _
      rw [show t.tasks.record id.index = _ from hstarted.self, hinside]
      refine ⟨?_, ?_, ?_, ?_, ?_, ?_, ?_⟩ <;> simp [startedRecord, TaskRecord.started,
        TaskRecord.vacant, Signal.idle]
    · rw [show t.tasks.record slot = w.record slot from
        hstarted.other slot (Scheduler.mem_slots.mp hslot).1 he]
      exact hfits.mono False.elim

theorem Orderly.exiting (h : w.Orderly) (hexec : w.control = .executing) {code : UInt32}
    (hcurrent : w.scheduler.current = some id) (hinside : w.inside id.index = none)
    (hmoved : Moved w.scheduler id (fun t => { t with exiting := true, exitCode := code })
      w.scheduler.runQueue w.scheduler.sleepers t) :
    Orderly ⟨(w.withScheduler t).kernel, .leaving, w.inside⟩ := by
  have hfits := h.fits_executing hexec (h.caller hexec hcurrent).slot
  refine h.caller_leaves hexec hcurrent hmoved (fun _ => rfl) (fun _ => rfl) (fun _ _ => rfl) ?_
  intro leaving hleaving
  exact ⟨hfits.count_le, fun hpending => (hfits.pending hpending).imp_right False.elim,
    hfits.asleep, fun _ => ⟨hinside, .inr hleaving⟩, hfits.live, hfits.gone, hfits.ended⟩

theorem Orderly.asleep (h : w.Orderly) (hexec : w.control = .executing) {deadline : Instant}
    (hcurrent : w.scheduler.current = some id)
    (hmoved : Moved w.scheduler id (fun t => t.countSleep deadline)
      w.scheduler.runQueue w.scheduler.sleepers t) :
    Orderly ⟨(w.withScheduler t).kernel, .leaving, w.inside⟩ := by
  have hcaller := h.caller hexec hcurrent
  have hfits := h.fits_executing hexec hcaller.slot
  refine h.caller_leaves hexec hcurrent hmoved (fun _ => rfl) (fun _ => rfl) (fun _ _ => rfl) ?_
  intro leaving hleaving
  exact (hfits.mono False.elim).countSleep hcaller.state hcaller.count hleaving _

/-! ## Switches -/

theorem Orderly.dispatched (h : w.Orderly) (hidle : w.control = .idle) {decision : Decision}
    (hdispatched : Dispatched w.scheduler t decision) :
    Orderly { w.withScheduler t with control := decision.control } := by
  have hfits : ∀ slot ∈ slots, (w.record slot).Fits (w.inside slot) False := by
    intro slot hslot
    apply (h.fits slot hslot).mono
    rintro ⟨hleaving, _⟩
    rw [hidle] at hleaving
    contradiction
  cases hdispatched with
  | @resumed _ next hhead hlive hmoved _ =>
      refine ⟨hmoved.standing, ?attended, ?current, ?fits⟩
      case attended =>
        intro _ hempty
        rw [hmoved.runQueue.symm.trans hempty] at hhead
        contradiction
      case current =>
        intro _ id hid
        obtain ⟨hhead', hne, _⟩ := hmoved.standing.current hid
        rw [hmoved.runQueue, hhead] at hhead'
        obtain rfl := Option.some.inj hhead'
        exact (congrArg TaskRecord.isLive hmoved.self).trans (hlive.resolve_left hne)
      case fits =>
        intro slot hslot
        show (t.tasks.record slot).Fits (w.inside slot) _
        by_cases he : slot = next.index
        · subst he
          have hstate := h.standing.queued next (List.mem_of_head? hhead) (mem_slots.mp hslot).1
          rw [show t.tasks.record next.index = _ from hmoved.self]
          exact ((hfits _ hslot).run hstate).mono False.elim
        · rw [hmoved.other he]
          exact (hfits slot hslot).mono False.elim
  | drained hrun hsleep _ hmoved _ =>
      refine ⟨hmoved.standing, fun _ _ => hmoved.sleepers, ?_, ?_⟩
      · intro _ id hid
        obtain ⟨hhead, _, _⟩ := hmoved.standing.current hid
        rw [hmoved.runQueue] at hhead
        contradiction
      · intro slot hslot
        show (t.tasks.record slot).Fits (w.inside slot) _
        rw [hmoved.other (mem_slots.mp hslot).1]
        exact (hfits slot hslot).mono False.elim
  | idle _ _ => exact h.of_scheduler rfl hidle.symm rfl

variable [Hardware H] {u : Scheduler H} {pointer : Address} {rest run sleep : List TaskId}

theorem Orderly.fits_suspended (h : w.Orderly)
    (hsuspended : Suspended w.scheduler pointer id rest u)
    {slot : Nat} (hslot : slot ∈ slots) (hne : slot ≠ id.index) :
    (w.record slot).Fits (w.inside slot) False := by
  apply (h.fits slot hslot).mono
  rintro ⟨_, hcurrent⟩
  obtain ⟨hhead, _, _⟩ := h.standing.current hcurrent
  rw [hsuspended.runQueue, List.head?_cons, Option.some.injEq] at hhead
  apply hne
  rw [hhead, index_idOf _ (mem_slots.mp hslot).2]

theorem Orderly.of_suspended (h : w.Orderly) (hsuspended : Suspended w.scheduler pointer id rest u)
    {change : TaskRecord → TaskRecord} (hmoved : Moved u id change run sleep t)
    (hself : id.index ∈ slots → (change (u.record id)).Fits (w.inside id.index) False) :
    Orderly { w.withScheduler t with control := .idle } := by
  refine ⟨hmoved.standing, fun hne => absurd rfl hne, fun hne => absurd rfl hne, ?_⟩
  intro slot hslot
  show (t.tasks.record slot).Fits (w.inside slot) _
  by_cases he : slot = id.index
  · subst he
    rw [show t.tasks.record id.index = _ from hmoved.self]
    exact (hself hslot).mono False.elim
  · rw [hmoved.other he, hsuspended.record, if_neg he]
    exact (h.fits_suspended hsuspended hslot he).mono False.elim

theorem Orderly.suspended (h : w.Orderly) (hsuspended : Suspended w.scheduler pointer id rest u)
    (hslot : id.index ∈ slots) (hlive : (u.record id).isLive = true) :
    (u.record id).Fits (w.inside id.index) (w.Leaves id.index) := by
  rw [hsuspended.self] at hlive ⊢
  exact (h.fits id.index hslot).suspended hlive

theorem Orderly.finished (h : w.Orderly) (hsuspended : Suspended w.scheduler pointer id rest u)
    (hlive : (u.record id).isLive = true) (hexiting : (u.record id).exiting = true)
    (hawake : (u.record id).isSleeping = false)
    (hmoved : Moved u id TaskRecord.finished run sleep t) :
    Orderly { w.withScheduler t with control := .idle } :=
  h.of_suspended hsuspended hmoved fun hslot =>
    (h.suspended hsuspended hslot hlive).finished hexiting hawake

theorem Orderly.settled (h : w.Orderly) (hsuspended : Suspended w.scheduler pointer id rest u)
    (hsettled : Settled u id run sleep t) :
    Orderly { w.withScheduler t with control := .idle } := by
  cases hsettled with
  | parked hid hmoved _ =>
      apply h.of_suspended hsuspended hmoved
      intro hslot
      exact absurd hid (mem_slots.mp hslot).1
  | @finished v _ hid hlive hexiting hawake hmoved _ hwake =>
      exact (h.finished hsuspended hlive hexiting hawake hmoved).wakeWaiter hwake
  | asleep hid hlive hexiting hasleep hmoved _ =>
      exact h.of_suspended hsuspended hmoved fun hslot =>
        (h.suspended hsuspended hslot hlive).putToSleep hlive hexiting hasleep
  | requeued hid hlive hexiting hawake hmoved _ =>
      exact h.of_suspended hsuspended hmoved fun hslot =>
        (h.suspended hsuspended hslot hlive).requeue hlive hexiting hawake

theorem Orderly.switched (h : w.Orderly) {decision : Decision} {woken : List TaskId}
    {v x : Scheduler H} (hswitched : Switched w.scheduler pointer t decision id rest woken u v x) :
    Orderly { w.withScheduler t with control := decision.control } := by
  have hv := h.settled hswitched.suspended hswitched.settled
  have hx := hv.wakes hswitched.rearmed.wakes
  exact hx.dispatched rfl hswitched.dispatched

end World

end CoopTasks

import CoopTasks.Program.Basic
import CoopTasks.Proofs.Exchange
import CoopTasks.Proofs.NoEarlyResume

/-!
How long a sleep for a duration lasts.

`Program.sleepFor` reads the clock and sleeps until the deadline that the
duration leads to.  Deadlines are whole microseconds, and the nanoseconds
beyond the last one are dropped.  A sleep can therefore fall short of its
duration, by less than a microsecond: `World.sleeps_short`.  A duration that
reaches the end of time is no deadline at all.
-/

namespace CoopTasks

open Scheduler Hardware

namespace Instant

variable {t u : Instant} {d : Duration}

theorem add_eq_never_iff : t.add d = never ↔ never.toNat * 1000 ≤ t.toNat * 1000 + d.nanos := by
  have hlt := t.toNat_lt
  rw [ext_iff_toNat, toNat_add, toNat_never, Duration.wholeMicros]
  omega

theorem add_mono (h : t ≤ u) : t.add d ≤ u.add d := by
  rw [le_iff] at *
  rw [toNat_add, toNat_add]
  omega

theorem nanos_le_of_add_le (hfinite : t.add d ≠ never) (h : t.add d ≤ u) :
    d.nanos ≤ (u.toNat - t.toNat) * 1000 + d.nanos % 1000 := by
  have hlt := t.toNat_lt
  rw [ne_eq, ext_iff_toNat, toNat_add, toNat_never, Duration.wholeMicros] at hfinite
  rw [le_iff, toNat_add, Duration.wholeMicros] at h
  omega

end Instant

def Progress.answer? {α : Type} : Progress α → Option α
  | .done answer | .switchThen answer => some answer
  | .switchRetry | .leave => none

def Program.isDone {μ α : Type} : Program μ α → Bool
  | .done _ => true
  | .call _ _ | .act _ _ => false

theorem Program.eq_done_of_isDone {μ : Type} {p : Program μ Unit} (h : p.isDone = true) :
    p = .done () := by
  cases p with
  | done _ => rfl
  | call _ _ | act _ _ => contradiction

namespace World

variable {H : Type}

/-- The task is not woken by its name, and the clock does not go back. -/
def Unwoken [Hardware H] (id : TaskId) (w : World H) (event : Event) (w' : World H) : Prop :=
  event.wakes id = false ∧ w.scheduler.now ≤ w'.scheduler.now

section Programs

variable [Hardware H] {μ α : Type}

/--
Whoever executes makes the calls of a program, up to the one that has it give
up the processor, with interrupts in between.  The rest of the program comes
last; its acts leave the world alone.
-/
inductive Pursues (rule : World H → Event → World H → Prop) (w : World H) (p : Program μ α) :
    World H → Program μ α → Prop
  | begun : Pursues rule w p w p
  | interrupted {u v : World H} {q : Program μ α} {event : Event} :
      Pursues rule w p u q →
      event.interrupts = true →
      Occurs u event v →
      rule u event v →
      Pursues rule w p v q
  | acted {u : World H} {a : Act μ} {next : a.Answer → Program μ α} {answer : a.Answer} :
      Pursues rule w p u (.act a next) →
      Pursues rule w p u (next answer)
  | called {u : World H} {call : Call} {next : call.Answer → Program μ α} {kernel : Kernel H}
      {progress : Progress call.Answer} {answer : call.Answer} :
      Pursues rule w p u (.call call next) →
      u.control = .executing →
      u.MayCall call →
      u.kernel.attempt call = .ok (kernel, progress) →
      progress.answer? = some answer →
      Pursues rule w p
        { kernel := kernel
          control := progress.control
          inside := u.insideAfter call progress.retries } (next answer)

def pursue (w : World H) : Program μ α → World H × Program μ α
  | .call call next =>
      if w.control = .executing ∧ w.MayCall call then
        match w.kernel.attempt call with
        | .ok (kernel, progress) =>
            match progress.answer? with
            | some answer =>
                pursue
                  { kernel := kernel
                    control := progress.control
                    inside := w.insideAfter call progress.retries } (next answer)
            | none => (w, .call call next)
        | .error _ => (w, .call call next)
      else (w, .call call next)
  | p => (w, p)

theorem Pursues.pursue {rule : World H → Event → World H → Prop} {w u : World H}
    {p q : Program μ α} (h : Pursues rule w p u q) :
    Pursues rule w p (u.pursue q).1 (u.pursue q).2 := by
  induction q generalizing u with
  | done _ => exact h
  | act _ _ _ => exact h
  | call call next ih =>
      unfold World.pursue
      split
      · rename_i hmay
        split
        · rename_i hok
          split
          · rename_i hanswer
            exact ih _ (h.called hmay.1 hmay.2 hok hanswer)
          · exact h
        · exact h
      · exact h

end Programs

/-! ## Until the call -/

structure Awake (w : World H) (id : TaskId) : Prop where
  control : w.control = .executing
  current : w.scheduler.current = some id
  outside : w.inside id.index = none
  count : (w.scheduler.record id).sleepCount = 0

section Interrupts

variable [Hardware H] {w w' : World H} {event : Event} {id : TaskId}

theorem WaitersHeard.record_interrupted (h : w.WaitersHeard) (hawake : w.Awake id)
    (hoccurs : Occurs w event w')
    (hevent : event.interrupts = true) (hnamed : event.wakes id = false) :
    w'.scheduler.record id = w.scheduler.record id := by
  have hs := h.orderly.standing
  have hcaller := h.orderly.caller hawake.control hawake.current
  have hstate : (w.scheduler.record id).state ≠ .sleeping := by
    intro hasleep
    rcases hcaller.state with hstate | hstate <;> exact nomatch hasleep.symm.trans hstate
  cases hoccurs with
  | call _ _ _ | reschedule _ _ | dispatch _ _ => contradiction
  | elapse => rfl
  | wake hok =>
      obtain ⟨t, hwake, rfl⟩ := Kernel.ok_wake hok
      refine (hs.undisturbed_wake hwake fun he => ?_).of_awake hstate
      obtain ⟨_, _, hwoke, _⟩ := hs.wake hwake
      have hgeneration := hwoke.current
      rw [Scheduler.record, ← he] at hgeneration
      have hsame := TaskId.ext_of_index he (hcaller.generation.trans hgeneration.symm)
      rw [Event.wakes, hsame, decide_eq_false_iff_not] at hnamed
      exact hnamed rfl
  | post hok =>
      obtain ⟨signal, t, hsignal, hwake, rfl⟩ := Kernel.ok_post hok
      refine (hs.undisturbed_wakeWaiter hwake fun waiter hwaiter he => ?_).of_awake hstate
      exact h.not_awaited hawake.outside ⟨.signal _, signal, waiter, hsignal, hwaiter, he.symm⟩
  | alarm hok => exact (hs.undisturbed_handleAlarm hok id.index).of_awake hstate

theorem Awake.interrupted (h : w.Awake id) (hw : w.WaitersHeard) (hoccurs : Occurs w event w')
    (hevent : event.interrupts = true) (hnamed : event.wakes id = false) : w'.Awake id := by
  have hrecord := hw.record_interrupted h hoccurs hevent hnamed
  obtain ⟨hcontrol, hinside, ids, hwakes⟩ := hoccurs.interrupted hw.orderly.standing hevent
  have hbusy : w.control ≠ .idle := by simp [h.control]
  exact ⟨hcontrol.trans h.control, (hw.orderly.current_wakes hbusy hwakes).trans h.current,
    (congrFun hinside _).trans h.outside, hrecord ▸ h.count⟩

end Interrupts

/-! ## From the call on -/

section Sleeps

variable [Hardware H] {w u : World H} {id : TaskId} {d : Duration} {μ : Type}

/-- How far a task has come with a sleep for a duration, called for at an instant. -/
inductive Sleeping (id : TaskId) (d : Duration) (since : Instant) :
    World H → Program μ Unit → Prop
  | reading {u : World H} :
      Reached u →
      u.Awake id →
      since ≤ u.scheduler.now →
      Sleeping id d since u (Program.sleepFor d)
  | calling {u : World H} {read : Instant} :
      Reached u →
      u.Awake id →
      since ≤ read →
      Sleeping id d since u (Program.ask (.sleepUntil (read.add d)))
  | called {v v' u : World H} {read : Instant} {log : List Event} :
      Reached v →
      v.Awake id →
      since ≤ read →
      Occurs v (.call (.sleepUntil (read.add d))) v' →
      Along (Unwoken id) v' log u →
      log.any Event.switches = false →
      Sleeping id d since u (.done ())

theorem Event.not_switches_of_interrupts {event : Event} (h : event.interrupts = true) :
    event.switches = false := by
  cases event <;> first | rfl | contradiction

theorem Pursues.sleeping {p : Program μ Unit} (h : Pursues (Unwoken id) w (Program.sleepFor d) u p)
    (hw : Reached w) (hawake : w.Awake id) : Sleeping id d w.scheduler.now u p := by
  induction h with
  | begun => exact .reading hw hawake (Instant.le_refl _)
  | interrupted _ hevent hoccurs hrule ih =>
      cases ih with
      | reading hu hawake hsince =>
          exact .reading (hu.step hoccurs.step)
            (hawake.interrupted hu.waitersHeard hoccurs hevent hrule.1)
            (Instant.le_trans hsince hrule.2)
      | calling hu hawake hsince =>
          exact .calling (hu.step hoccurs.step)
            (hawake.interrupted hu.waitersHeard hoccurs hevent hrule.1) hsince
      | called hv hawake hsince hcall hlog hnone =>
          refine .called hv hawake hsince hcall (hlog.step hoccurs hrule) ?_
          rw [List.any_append, hnone, List.any_cons, Event.not_switches_of_interrupts hevent]
          rfl
  | acted _ ih => cases ih
  | called _ hexec hmay hok hanswer ih =>
      cases ih with
      | reading hu hawake hsince =>
          have hstep := Step.call hexec hmay hok
          simp only [Kernel.attempt, pure_eq_ok, Prod.mk.injEq] at hok
          obtain ⟨rfl, rfl⟩ := hok
          obtain rfl := Option.some.inj hanswer
          exact .calling (hu.step hstep) ⟨rfl, hawake.current, insideAfter_self hawake.current,
            hawake.count⟩ hsince
      | calling hu hawake hsince =>
          exact .called hu hawake hsince (.call hexec hmay hok) .none rfl

end Sleeps

section Resumed

variable {H : Type} [PunctualHardware H] {w w' u : World H} {id : TaskId}
variable {log : List Event} {d : Duration} {μ : Type}

theorem Along.spares_or_due (hclock : ∀ {h h' : H}, Driven h h' → now h ≤ now h')
    (h : Along (Unwoken id) u log w') (deadline : Instant) :
    Along (Spares id deadline) u log w' ∨
      deadline ≠ Instant.never ∧ deadline ≤ w'.scheduler.now := by
  induction h with
  | none => exact .inl .none
  | @step _ event v w' _ hoccurs hrule ih =>
      obtain ⟨hnamed, honward⟩ := hrule
      rcases ih with hspared | ⟨hfinite, hdue⟩
      · by_cases hstrikes : deadline ≠ Instant.never ∧
            Strikes v.scheduler.hardware w'.scheduler.hardware deadline
        · obtain ⟨hfinite, m, _, hdriven, hshown⟩ := hstrikes
          exact .inr ⟨hfinite, Instant.le_trans hshown (hclock hdriven)⟩
        · exact .inl (hspared.step hoccurs
            ⟨hnamed, fun hfinite hshown => hstrikes ⟨hfinite, hshown⟩⟩)
      · exact .inr ⟨hfinite, Instant.le_trans hdue honward⟩

/--
A task that sleeps for a duration, and is not woken by its name, sleeps until
the clock shows that the duration is over, but for its odd nanoseconds.  If the
duration reaches the end of time, the task sleeps on and on.
-/
theorem Reached.sleeps_whole_micros (hclock : ∀ {h h' : H}, Driven h h' → now h ≤ now h')
    (hw : Reached w) (hawake : w.Awake id)
    (hsleep : Pursues (Unwoken id) w (Program.sleepFor d : Program μ Unit) u (.done ()))
    (hlog : Along (Unwoken id) u log w') (hswitched : log.any Event.switches = true) :
    ((w'.scheduler.record id).state = .sleeping ∧ id ∈ w'.scheduler.sleepers ∧
      id ∉ w'.scheduler.runQueue ∧ w'.scheduler.current ≠ some id) ∨
    w.scheduler.now.toNat * 1000 + d.nanos < Instant.never.toNat * 1000 ∧
      d.nanos ≤ (w'.scheduler.now.toNat - w.scheduler.now.toNat) * 1000 + d.nanos % 1000 := by
  cases hsleep.sleeping hw hawake with
  | @called v v' u read before hv hawake hsince hcall hbefore _ =>
      have hall : Along (Unwoken id) v' (before ++ log) w' := hbefore.trans hlog
      rcases hall.spares_or_due hclock (read.add d) with hspared | ⟨hfinite, hdue⟩
      · obtain ⟨_, hasleep⟩ := hv.slumbers hawake.current hawake.count hcall hspared
        exact .inl (hasleep (by rw [List.any_append, hswitched, Bool.or_true]))
      · have hle : w.scheduler.now.add d ≤ read.add d := Instant.add_mono hsince
        have hends : w.scheduler.now.add d ≠ Instant.never := by
          intro hnever
          rw [hnever, Instant.le_iff] at hle
          have hlast := (read.add d).le_never
          rw [Instant.le_iff] at hlast
          exact hfinite (Instant.ext_iff_toNat.mpr (Nat.le_antisymm hlast hle))
        refine .inr ⟨?_, Instant.nanos_le_of_add_le hends (Instant.le_trans hle hdue)⟩
        exact Nat.lt_of_not_le fun hreached => hends (Instant.add_eq_never_iff.mpr hreached)

end Resumed

/-! ### A short nap -/

def keepsTime (id : TaskId) (w : World PromptBoard) (event : Event) : Bool :=
  !event.wakes id && (w.occur event).all fun w' => decide (w.scheduler.now ≤ w'.scheduler.now)

theorem unwoken_of_keepsTime {id : TaskId} {w w' : World PromptBoard} {event : Event}
    (h : keepsTime id w event = true) (hoccur : w.occur event = some w') :
    Unwoken id w event w' := by
  rw [keepsTime, hoccur, Bool.and_eq_true, Bool.not_eq_true', Option.all_some,
    decide_eq_true_eq] at h
  exact h

def shortWhile : Duration :=
  ⟨1500⟩

def intoNap : List Event :=
  [.reschedule (Board.pageBottom 0 + 200)]

def outOfNap : List Event :=
  [.alarm, .call .giveWay, .reschedule (Board.pageBottom 1 + 200)]

def shortNap : Option (World PromptBoard × World PromptBoard × World PromptBoard) :=
  twoAwake.bind fun w =>
    let nap := w.pursue (Program.sleepFor shortWhile : Program Unit Unit)
    if Program.isDone nap.2 then
      (nap.1.follow (keepsTime ⟨1, 1⟩) intoNap).bind fun v =>
        ((v.atTime ⟨1⟩).follow (keepsTime ⟨1, 1⟩) outOfNap).map fun w' => (nap.1, v, w')
    else none

structure TakesShortNap (w u v w' : World PromptBoard) : Prop where
  reached : Reached w
  awake : w.Awake ⟨1, 1⟩
  start : w.scheduler.now = Instant.zero
  pursues : Pursues (Unwoken ⟨1, 1⟩) w
    (Program.sleepFor shortWhile : Program Unit Unit) u (.done ())
  into : Along (Unwoken ⟨1, 1⟩) u intoNap v
  asleep : v.scheduler.now = Instant.zero
  outOf : Along (Unwoken ⟨1, 1⟩) u (intoNap ++ .elapse :: outOfNap) w'
  resumed : w'.control = .executing ∧ w'.scheduler.current = some ⟨1, 1⟩
  finish : w'.scheduler.now = ⟨1⟩

theorem takesShortNap : ∃ w u v w', TakesShortNap w u v w' := by
  obtain ⟨w, hw⟩ := Option.isSome_iff_exists.mp (show twoAwake.isSome = true by decide +kernel)
  obtain ⟨⟨u, v, w'⟩, hnap⟩ := Option.isSome_iff_exists.mp
    (show shortNap.isSome = true by decide +kernel)
  have hbefore : twoAwake.map (fun w => (w.control, w.scheduler.current, w.inside 1,
      (w.scheduler.record ⟨1, 1⟩).sleepCount, w.scheduler.now)) =
        some (.executing, some ⟨1, 1⟩, none, 0, Instant.zero) := by decide +kernel
  have hafter : shortNap.map (fun r => (r.2.1.scheduler.now, r.2.2.control,
      r.2.2.scheduler.current, r.2.2.scheduler.now)) =
        some (Instant.zero, .executing, some ⟨1, 1⟩, ⟨1⟩) := by decide +kernel
  rw [hw, Option.map_some, Option.some.injEq] at hbefore
  rw [hnap, Option.map_some, Option.some.injEq] at hafter
  simp only [Prod.mk.injEq] at hbefore hafter
  obtain ⟨hexec, hcurrent, houtside, hcount, hstart⟩ := hbefore
  obtain ⟨hasleep, hcontrol, hresumed, hfinish⟩ := hafter
  rw [shortNap, hw, Option.bind_some] at hnap
  obtain ⟨hdone, hnap⟩ := Option.ite_none_right_eq_some.mp hnap
  obtain ⟨v, hinto, hnap⟩ := Option.bind_eq_some_iff.mp hnap
  obtain ⟨w', hout, hsame⟩ := Option.map_eq_some_iff.mp hnap
  obtain ⟨rfl, rfl, rfl⟩ : _ ∧ _ ∧ _ := by simpa only [Prod.mk.injEq] using hsame
  have hpursues : Pursues (Unwoken ⟨1, 1⟩) w
      (Program.sleepFor shortWhile : Program Unit Unit) _ _ :=
    Pursues.begun.pursue
  have hinto := Along.of_follow (fun _ _ _ => unwoken_of_keepsTime) hinto
  have helapse : Unwoken ⟨1, 1⟩ v .elapse (v.atTime ⟨1⟩) := by
    refine ⟨rfl, ?_⟩
    rw [hasleep]
    exact (show Instant.zero ≤ ⟨1⟩ by decide)
  have hout := (Along.of_follow (fun _ _ _ => unwoken_of_keepsTime) hout).cons .elapse helapse
  refine ⟨w, _, v, w', (Reached.start _ _ _ _).run hw, ⟨hexec, hcurrent, houtside, hcount⟩, hstart,
    ?_, hinto, hasleep, hinto.trans hout, ⟨hcontrol, hresumed⟩, hfinish⟩
  rwa [Program.eq_done_of_isDone hdone] at hpursues

/--
Before the time is over the task sleeps.  Afterwards it goes on, half a
microsecond early.
-/
theorem sleeps_whole_micros_shortNap :
    ∃ w u v w', TakesShortNap w u v w' ∧
      ((v.scheduler.record ⟨1, 1⟩).state = .sleeping ∧ ⟨1, 1⟩ ∉ v.scheduler.runQueue) ∧
      shortWhile.nanos ≤ (w'.scheduler.now.toNat - w.scheduler.now.toNat) * 1000 + 500 := by
  obtain ⟨w, u, v, w', h⟩ := takesShortNap
  have hclock : ∀ {b b' : PromptBoard}, Driven b b' → now b ≤ now b' := fun hdriven => by
    rw [PromptHardware.now_driven hdriven]
    exact Instant.le_refl _
  refine ⟨w, u, v, w', h, ?_, ?_⟩
  · rcases h.reached.sleeps_whole_micros hclock h.awake h.pursues h.into rfl with
      ⟨hasleep, _, hnot, _⟩ | ⟨_, hover⟩
    · exact ⟨hasleep, hnot⟩
    · rw [h.start, h.asleep] at hover
      exact absurd hover (by decide)
  · rcases h.reached.sleeps_whole_micros hclock h.awake h.pursues h.outOf rfl with
      ⟨_, _, _, hgone⟩ | ⟨_, hover⟩
    · exact absurd h.resumed.2 hgone
    · exact hover

/-- Sleeps are not as long as their durations. -/
theorem sleeps_short :
    ∃ (d : Duration) (w u w' : World PromptBoard) (log : List Event), Reached w ∧
      w.Awake ⟨1, 1⟩ ∧
      Pursues (Unwoken ⟨1, 1⟩) w (Program.sleepFor d : Program Unit Unit) u (.done ()) ∧
      w.scheduler.now.toNat * 1000 + d.nanos < Instant.never.toNat * 1000 ∧
      Along (Unwoken ⟨1, 1⟩) u log w' ∧
      w'.control = .executing ∧ w'.scheduler.current = some ⟨1, 1⟩ ∧
      (w'.scheduler.now.toNat - w.scheduler.now.toNat) * 1000 < d.nanos := by
  obtain ⟨w, u, v, w', h⟩ := takesShortNap
  refine ⟨shortWhile, w, u, w', _, h.reached, h.awake, h.pursues, ?_, h.outOf, h.resumed.1,
    h.resumed.2, ?_⟩
  · rw [h.start]
    decide
  · rw [h.start, h.finish]
    decide

end World

end CoopTasks

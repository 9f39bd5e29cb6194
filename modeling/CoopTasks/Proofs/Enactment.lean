import CoopTasks.Proofs.SceneRuns

/-!
Machines that enact scenes.

`v.Shows m s` relates a machine to a scene: its kernel shows the roster, and
everybody who is expected has been suspended with what the scene says, or has
yet to begin.  Whatever runs from the scene (`v.Runs`), the machine does it
(`Shows.runs`), with three turns for each switch.
-/

namespace CoopTasks

open Scheduler

/-! ## The clock -/

namespace Scheduler

variable {s : Scheduler Board} {arena : List StackRange} {r : Roster} {deadline : Instant}

theorem Shows.bedtime_of_alarm (h : s.Shows arena r) (halarm : s.hardware.alarm = some deadline) :
    deadline ≠ .never ∧ ∃ id ∈ r.sleep, r.bedtime id = deadline := by
  rw [h.alarm, h.timely.armed, soonest_eq_some] at halarm
  obtain ⟨head, hhead, hwakeAt, hnever⟩ := halarm
  have hmem : head ∈ r.sleep := h.sleepers ▸ List.mem_of_head? hhead
  exact ⟨hnever, head, hmem, (h.wakeAt_of_mem h.standing hmem).symm.trans hwakeAt⟩

theorem Shows.elapse_unhurried (h : s.Shows arena r) {micros : UInt64}
    (hlater : micros = 0 ∨ (r.elapse micros).Unhurried) : (r.elapse micros).Unhurried := by
  rcases hlater with rfl | hlater
  · rw [r.elapse_zero]
    exact h.later
  · exact hlater

theorem Shows.elapsed (h : s.Shows arena r) {micros : UInt64}
    (hlater : (r.elapse micros).Unhurried) :
    Shows { s with hardware := s.hardware.advanceTo (s.hardware.clock.after micros) } arena
      (r.elapse micros) := by
  have hle : s.hardware.clock ≤ s.hardware.clock.latest (s.hardware.clock.after micros) := by
    rw [Instant.le_iff, Instant.toNat_latest]
    omega
  have hclock : s.hardware.clock.latest (s.hardware.clock.after micros) = r.clock.after micros := by
    have hlt := s.hardware.clock.toNat_lt
    rw [← h.clock, Instant.ext_iff_toNat, Instant.toNat_latest, Instant.toNat_after]
    omega
  exact {
    runQueue := h.runQueue
    sleepers := h.sleepers
    outline := h.outline
    cast := h.cast
    standing := (alarmMoved s _ s.armed).standing h.standing
    timely := h.timely.congr rfl (fun _ _ => rfl) rfl
    faultFree := h.faultFree.onward ⟨rfl, hle, fun _ hheld => hheld⟩ h.faultFree.tasks
      (fun _ => rfl) fun _ => rfl
    alarm := h.alarm
    lag := h.lag
    clock := hclock
    generation := h.generation
    later := hlater
    mainline := h.mainline }

theorem Shows.idle (h : s.Shows arena r) {r' : Roster} (hrings : r.Rings deadline r') :
    r.decision arena = .idle ∧ s.hardware.alarm = some deadline := by
  cases hrings with
  | woken hrun hsleep hpart hmood htimed =>
      have hbedtime := Roster.bedtime_of_mood hpart hmood
      rw [h.alarm_eq hsleep (by rw [hbedtime]; exact htimed), hbedtime]
      refine ⟨?_, rfl⟩
      unfold Roster.decision
      rw [hrun, hsleep]

end Scheduler

theorem Kernel.Shows.elapsed {k : Kernel Board} {arena : List StackRange} {r : Roster}
    (h : k.Shows arena r) {micros : UInt64} (hlater : (r.elapse micros).Unhurried) :
    Shows { k with scheduler := { k.scheduler with
      hardware := k.scheduler.hardware.advanceTo (k.scheduler.hardware.clock.after micros) } } arena
      (r.elapse micros) :=
  h.withScheduler (h.scheduler.elapsed hlater) rfl rfl

section

variable {μ : Type} {m : Machine μ} {arena : List StackRange} {r r' : Roster} {slot : Nat}

namespace Machine

theorem nextDelivery_of_quiet (h : m.interrupts = []) :
    m.nextDelivery = m.board.alarm.map fun time => (time, .alarm) := by
  unfold nextDelivery
  rw [h]
  cases m.board.alarm <;> rfl

end Machine

namespace MachineM

theorem get_bind {α : Type} (f : Machine μ → MachineM μ α) : (get >>= f) m = f m m := rfl

theorem modify_bind {α : Type} (change : Machine μ → Machine μ) (f : Unit → MachineM μ α) :
    (modify change >>= f) m = f () (change m) := rfl

theorem bind_of_ok {α β : Type} {x : MachineM μ α} {f : α → MachineM μ β} {a : α} {m' : Machine μ}
    (h : x m = .ok a m') : EStateM.bind x f m = f a m' := by
  unfold EStateM.bind
  rw [h]

theorem passUntil_quiet (hkernel : m.kernel.Shows arena r) (hquiet : m.interrupts = [])
    {micros : UInt64} (hlater : (r.elapse micros).Unhurried) :
    passUntil (m.board.clock.after micros) m =
      .ok none (m.withBoard fun b => b.advanceTo (m.board.clock.after micros)) := by
  have hnone : m.nextDelivery.filter (fun next => next.1 ≤ m.board.clock.after micros) = none := by
    rw [m.nextDelivery_of_quiet hquiet]
    cases halarm : m.board.alarm with
    | none => rfl
    | some deadline =>
        obtain ⟨hnever, id, hmem, hbedtime⟩ := hkernel.scheduler.bedtime_of_alarm halarm
        have hlt := (hlater id hmem).resolve_left fun he => hnever (hbedtime.symm.trans he)
        have hclock : m.board.clock = r.clock := hkernel.scheduler.clock
        simp only [Option.map_some, Option.filter_some, hclock]
        rw [if_neg]
        rw [decide_eq_true_iff, Instant.le_iff, ← hbedtime]
        rw [Instant.lt_iff] at hlt
        exact Nat.not_le.mpr hlt
  rw [passUntil, passSteps, get_bind, hnone]
  rfl

theorem onScheduler_ok {α : Type} {t : Scheduler Board} {answer : α}
    {operation : Scheduler Board → Except Fault (Scheduler Board × α)}
    (h : operation m.kernel.scheduler = .ok (t, answer)) :
    onScheduler operation m = .ok answer (m.withScheduler t) := by
  unfold onScheduler
  rw [h]

theorem await_idle (hquiet : m.interrupts = []) {deadline : Instant} {pointer : Address}
    (halarm : m.board.alarm = some deadline) {t u : Scheduler Board}
    (hring : (m.kernel.scheduler.struck deadline).handleAlarm = .ok u)
    (hdispatch : u.dispatch = .ok (t, .resume pointer)) :
    await .idle m = .ok (.resume pointer) (m.withScheduler t) := by
  have hnext : m.nextDelivery = some (deadline, .alarm) := by
    rw [m.nextDelivery_of_quiet hquiet, halarm]
    rfl
  have hrings : (do return (← (m.kernel.scheduler.struck deadline).handleAlarm, ())) =
      .ok (u, ()) := by
    rw [hring]
    rfl
  have hringAlarm : ringAlarm deadline m = .ok () (m.withScheduler u) := by
    show onScheduler (fun s => do return (← s.handleAlarm, ()))
      (m.withScheduler (m.kernel.scheduler.struck deadline)) = _
    exact onScheduler_ok hrings
  have hdecided : onScheduler Scheduler.dispatch (m.withScheduler u) =
      .ok (.resume pointer) (m.withScheduler t) :=
    onScheduler_ok (m := m.withScheduler u) hdispatch
  rw [await, awaitSteps, get_bind, hnext]
  refine (bind_of_ok hringAlarm).trans ?_
  refine (bind_of_ok hdecided).trans ?_
  rfl

end MachineM

/-! ## Contexts and their pointers -/

namespace Machine

theorem pointerOf_context (hkernel : m.kernel.Shows arena r) {id : TaskId}
    (hmem : id ∈ r.run ++ r.sleep) :
    m.pointerOf (contextIn r.origins id.index) = r.pointer arena id := by
  by_cases hid : id.index = 0
  · unfold Roster.pointer
    rw [hid]
    rfl
  · obtain ⟨part, hpart, _⟩ :=
      hkernel.scheduler.part?_of_mem hkernel.scheduler.standing hmem hid
    rw [Roster.pointer_of_part? hpart, ← hkernel.rangeAt, contextIn_of_part? hpart]
    rfl

theorem ownerOf_mainline (m : Machine μ) : m.ownerOf Board.mainlinePointer = some .mainline :=
  if_pos rfl

theorem ownerOf_task (hkernel : m.kernel.Shows arena r) (hgrounds : Grounds arena) {number : Nat}
    (hnumber : number < arena.length) :
    m.ownerOf (rangeIn arena number).framePointer = some (.task number) := by
  have hrange : rangeIn arena number = arena[number] := by
    unfold rangeIn
    rw [List.getElem?_eq_getElem hnumber]
    rfl
  have hne : (rangeIn arena number).framePointer ≠ Board.mainlinePointer := by
    intro he
    apply hgrounds.mainline
    rw [← he, hrange]
    exact List.mem_map_of_mem (List.getElem_mem hnumber)
  have hlength : number < m.kernel.memory.length := by
    have hsame := congrArg List.length hkernel.ranges
    rw [Kernel.ranges, List.length_map] at hsame
    omega
  unfold ownerOf
  rw [if_neg hne]
  have hfind : m.kernel.memory.findIdx? (fun stack =>
      stack.range.framePointer = (rangeIn arena number).framePointer) = some number := by
    have hat {n : Nat} (hn : n < m.kernel.memory.length) :
        m.kernel.memory[n].range = rangeIn arena n := by
      rw [← hkernel.rangeAt]
      simp [Kernel.rangeAt, Kernel.stackAt, hn]
    rw [List.findIdx?_eq_some_iff_getElem]
    refine ⟨hlength, ?_, ?_⟩
    · rw [decide_eq_true_iff, hat hlength]
    · intro n hn
      rw [decide_eq_true_iff, hat (Nat.lt_trans hn hlength)]
      intro he
      have hlt : n < arena.length := Nat.lt_trans hn hnumber
      exact Nat.ne_of_lt hn (hgrounds.eq_of_framePointer hlt hnumber he)
  rw [hfind]
  rfl

end Machine

theorem Roster.Expects.part? (h : r.Expects slot) {s : Scheduler Board} (hs : s.Shows arena r) :
    slot = 0 ∨ ∃ part, r.part? slot = some part ∧ part.mood.lives = true := by
  rcases h with hzero | ⟨id, hmem, rfl⟩
  · exact .inl hzero
  · by_cases hid : id.index = 0
    · exact .inl hid
    · exact .inr (hs.part?_of_mem hs.standing hmem hid)

theorem Roster.Expects.le (h : r.Expects slot) {s : Scheduler Board} (hs : s.Shows arena r) :
    slot ≤ r.origins.length := by
  rcases h.part? hs with rfl | ⟨part, hpart, _⟩
  · exact Nat.zero_le _
  · exact Roster.lt_of_origin hpart

theorem Roster.Does.leaves {call : Call} {progress : Progress call.Answer} {r'' : Roster}
    {micros : UInt64} (h : r.Does arena call progress r') (hleave : progress = .leave)
    (hyields : (r'.elapse micros).Yields r'') {s : Scheduler Board} (hs : s.Shows arena r'') :
    ¬r''.Expects r.executing := by
  cases h with
  | @exit id rest part code hrun hpart hmood =>
      intro hexpects
      rw [Roster.executing_of_run hrun] at hexpects
      obtain ⟨other, hother, hlives⟩ :=
        (hexpects.part? hs).resolve_left (Roster.lt_of_part? hpart).1
      have hgone : r''.part? id.index = some (Part.ended _ code) :=
        hyields.gone hrun (Roster.part?_setPart_self hpart _) rfl
      rw [hgone, Option.some.injEq] at hother
      rw [← hother] at hlives
      contradiction
  | _ => contradiction

/-! ## What a machine shows -/

namespace Setting

/-- How the context of a slot goes on when it is resumed. -/
inductive Rests (v : Setting μ) (m : Machine μ) (s : Scene μ) (slot : Nat) : Prop
  | suspended :
      (m.suspended.find? fun f => f.context = s.context slot) = some (s.flow slot) →
      Rests v m s slot
  | unbegun {origin : Origin} :
      (m.suspended.find? fun f => f.context = s.context slot) = none →
      originIn s.roster.origins slot = some origin →
      s.program slot = v.opening origin →
      Rests v m s slot

structure Shows (v : Setting μ) (m : Machine μ) (s : Scene μ) : Prop where
  kernel : m.kernel.Shows v.arena s.roster
  quiet : m.interrupts = []
  switchCost : m.switchCost = v.switchCost
  events : m.events = s.events
  programs : s.programs.length = s.roster.origins.length + 1
  contexts : ∀ f ∈ m.suspended, ∃ slot ≤ s.roster.origins.length, f.context = s.context slot
  rests : ∀ slot, s.roster.Expects slot → slot ≠ s.roster.executing → v.Rests m s slot

variable {v : Setting μ} {s s' : Scene μ}

theorem Rests.congr {m' : Machine μ} (h : v.Rests m s slot)
    (hsuspended : (m'.suspended.find? fun f => f.context = s.context slot) =
      m.suspended.find? fun f => f.context = s.context slot)
    (horigin : originIn s'.roster.origins slot = originIn s.roster.origins slot)
    (hprogram : s'.program slot = s.program slot) : v.Rests m' s' slot := by
  have hcontext : s'.context slot = s.context slot := by
    unfold Scene.context contextIn
    rw [horigin]
  have hflow : s'.flow slot = s.flow slot := by
    unfold Scene.flow
    rw [hcontext, hprogram]
  cases h with
  | suspended hfind => exact .suspended (by rw [hcontext, hsuspended, hflow, hfind])
  | unbegun hfind hbegins hopening =>
      exact .unbegun (by rw [hcontext, hsuspended, hfind]) (horigin.trans hbegins)
        (hprogram.trans hopening)

theorem Shows.called (h : v.Shows m s) (hgrounds : Grounds v.arena) {call : Call}
    {progress : Progress call.Answer} (hdoes : s.roster.Does v.arena call progress r)
    (rest : Program μ Unit) :
    ∃ k, m.kernel.attempt call = .ok (k, progress) ∧
      v.Shows { m with kernel := k } (v.after s r rest) := by
  obtain ⟨k, hok, hk⟩ := h.kernel.attempt hgrounds hdoes
  obtain ⟨more, hmore⟩ := hdoes.origins
  have hsame : ∀ slot ≤ s.roster.origins.length,
      originIn r.origins slot = originIn s.roster.origins slot := by
    intro slot hle
    rw [hmore, originIn_append hle]
  have hgrown : s.roster.origins.length ≤ r.origins.length := by
    rw [hmore, List.length_append]
    omega
  refine ⟨k, hok, ⟨hk, h.quiet, h.switchCost, h.events, ?programs, ?contexts, ?rests⟩⟩
  case programs =>
    rw [programs_after hmore]
    show _ = r.origins.length + 1
    simp [h.programs, hmore]
    omega
  case contexts =>
    intro f hf
    obtain ⟨slot, hle, hf⟩ := h.contexts f hf
    exact ⟨slot, Nat.le_trans hle hgrown, hf.trans (context_after hmore hle).symm⟩
  case rests =>
    intro slot hexpects hne
    have hexecuting : s.roster.executing ≠ slot := by
      rw [← hdoes.executing]
      exact Ne.symm hne
    by_cases hle : slot ≤ s.roster.origins.length
    · have hold : s.roster.Expects slot := by
        refine (hdoes.expects hexpects).resolve_right ?_
        omega
      refine (h.rests slot hold hexecuting.symm).congr rfl (hsame slot hle) ?_
      exact program_after_other hmore (by rw [h.programs]; omega) hexecuting.symm
    · have hnew : slot = s.roster.origins.length + 1 := by
        refine (hdoes.expects hexpects).resolve_left fun hold => hle ?_
        exact hold.le h.kernel.scheduler
      have hwithin : slot ≤ r.origins.length := hexpects.le hk.scheduler
      obtain ⟨origin, _, horigin⟩ := originIn_of_le (by omega) hwithin
      refine .unbegun ?_ horigin ?_
      · rw [List.find?_eq_none]
        intro f hf hsame
        obtain ⟨other, hother, hcontext'⟩ := h.contexts f hf
        have hother' : (v.after s r rest).context other = s.context other :=
          context_after hmore hother
        rw [decide_eq_true_iff, hcontext', ← hother'] at hsame
        have := hk.scheduler.cast.contextIn_inj (Nat.le_trans hother hgrown) hwithin hsame
        omega
      · subst hnew
        exact program_after_new hmore h.programs horigin

theorem Rests.takeUp (hrests : v.Rests m s slot) (hkernel : m.kernel.Shows v.arena s.roster)
    (hgrounds : Grounds v.arena) (hexpects : s.roster.Expects slot) :
    MachineM.takeUp v.entries (s.context slot) m = .ok (s.flow slot) m := by
  have hrun : m.runOf (s.context slot) = (s.flow slot).run := by
    rcases hexpects.part? hkernel.scheduler with rfl | ⟨part, hpart, _⟩
    · rfl
    · have hne := (Roster.lt_of_part? hpart).1
      unfold Scene.context Scene.flow
      rw [contextIn_of_part? hpart, if_neg hne]
      exact hkernel.taskOn hgrounds hpart
  cases hrests with
  | suspended hfind =>
      have hflow : m.flowOf (s.context slot) = some (s.flow slot) := by
        unfold Machine.flowOf
        rw [hfind, Option.filter_some, if_pos]
        unfold Machine.superseded
        rw [show (s.flow slot).context = s.context slot from rfl, hrun]
        cases (s.flow slot).run <;> simp
      rw [MachineM.takeUp, MachineM.get_bind, hflow]
      rfl
  | @unbegun origin hfind horigin hopening =>
      have hflow : m.flowOf (s.context slot) = none := by
        unfold Machine.flowOf
        rw [hfind]
        rfl
      have hcontext : s.context slot = .task origin.stack := by
        unfold Scene.context contextIn
        rw [horigin]
        rfl
      have hmem : origin ∈ s.roster.origins := by
        cases slot with
        | zero => contradiction
        | succ n => exact List.mem_of_getElem? horigin
      obtain ⟨trampoline, hframe⟩ := hkernel.frames origin hmem
      have hbegins : s.flow slot =
          .task origin.stack (m.runOf (s.context slot)) (v.opening origin) := by
        rw [hrun]
        unfold Scene.flow Flow.task
        rw [hcontext, hopening]
      rw [MachineM.takeUp, MachineM.get_bind, hflow, hbegins, hcontext]
      dsimp only
      rw [hframe]
      rfl

end Setting

/-! ## Switches -/

namespace Machine

def suspend (m : Machine μ) (f : Flow μ) : Machine μ :=
  { m with suspended := f :: m.suspended.filter fun other => other.context ≠ f.context }

theorem find?_suspend_self (m : Machine μ) (f : Flow μ) :
    (m.suspend f).suspended.find? (fun g => g.context = f.context) = some f := by
  unfold suspend
  rw [List.find?_cons, decide_eq_true rfl]

theorem find?_suspend_other {f : Flow μ} {context : Context} (hne : context ≠ f.context) :
    (m.suspend f).suspended.find? (fun g => g.context = context) =
      m.suspended.find? fun g => g.context = context := by
  unfold suspend
  rw [List.find?_cons, decide_eq_false (Ne.symm hne), List.find?_filter]
  refine congrArg (fun p => m.suspended.find? p) (funext fun g => ?_)
  by_cases hg : g.context = context
  · simp [hg, hne]
  · simp [hg]

theorem decision_resume (hkernel : m.kernel.Shows arena r) (hgrounds : Grounds arena)
    (hready : r.run = [] → r.sleep = []) :
    ∃ pointer, r.decision arena = .resume pointer ∧
      m.ownerOf pointer = some (contextIn r.origins r.executing) := by
  unfold Roster.decision Roster.executing
  cases hrun : r.run with
  | nil =>
      rw [hready hrun]
      exact ⟨_, rfl, m.ownerOf_mainline⟩
  | cons id rest =>
      refine ⟨_, rfl, ?_⟩
      have hexpects : r.Expects id.index := .inr ⟨id, by simp [hrun], rfl⟩
      rcases hexpects.part? hkernel.scheduler with hzero | ⟨part, hpart, _⟩
      · unfold Roster.pointer
        simp only [hzero]
        exact m.ownerOf_mainline
      · rw [Roster.pointer_of_part? hpart, contextIn_of_part? hpart]
        exact ownerOf_task hkernel hgrounds (hkernel.scheduler.inArena hpart)

theorem yields (hkernel : m.kernel.Shows arena r) (hquiet : m.interrupts = [])
    (hgrounds : Grounds arena) (hyields : r.Yields r') :
    ∃ t u decision pointer,
      m.kernel.scheduler.reschedule (m.pointerOf (contextIn r.origins r.executing)) =
        .ok (t, decision) ∧
      MachineM.await decision (m.withScheduler t) = .ok (.resume pointer) (m.withScheduler u) ∧
      (m.withScheduler u).kernel.Shows arena r' ∧ u.audit = .ok () ∧
      (m.withScheduler u).ownerOf pointer = some (contextIn r'.origins r'.executing) := by
  have hsettling {r' : Roster} (hsettles : r.Settles r') : ∃ t,
      m.kernel.scheduler.reschedule (m.pointerOf (contextIn r.origins r.executing)) =
        .ok (t, r'.decision arena) ∧
      (m.withScheduler t).kernel.Shows arena r' ∧ t.audit = .ok () := by
    obtain ⟨id, rest, hrun⟩ := hsettles.run_eq_cons
    obtain ⟨t, hok, ht, haudit⟩ := hkernel.scheduler.reschedule hgrounds hrun hsettles
    refine ⟨t, ?_, hkernel.withScheduler ht hsettles.signals hsettles.origins, haudit⟩
    rw [Roster.executing_of_run hrun, pointerOf_context hkernel (by simp [hrun])]
    exact hok
  cases hyields with
  | resumed hsettles hready =>
      obtain ⟨t, hok, ht, haudit⟩ := hsettling hsettles
      obtain ⟨pointer, hdecision, howner⟩ := decision_resume ht hgrounds hready
      rw [hdecision] at hok
      exact ⟨t, t, _, pointer, hok, rfl, ht, haudit, howner⟩
  | @rung r₁ _ deadline hsettles hrings =>
      obtain ⟨t, hok, ht, _⟩ := hsettling hsettles
      obtain ⟨u, w, hring, hdispatch, hw, haudit⟩ := ht.scheduler.ring hrings
      have hkernel' : (m.withScheduler w).kernel.Shows arena r' :=
        ht.withScheduler hw hrings.signals hrings.origins
      obtain ⟨pointer, hdecision, howner⟩ :=
        decision_resume hkernel' hgrounds fun hempty => absurd hempty hrings.run_ne_nil
      rw [hdecision] at hdispatch
      obtain ⟨hidle, halarm⟩ := ht.scheduler.idle hrings
      rw [hidle] at hok
      refine ⟨t, w, .idle, pointer, hok, ?_, hkernel', haudit, howner⟩
      exact MachineM.await_idle (m := m.withScheduler t) hquiet halarm hring hdispatch

end Machine

/-! ## Turns -/

namespace MachineM

variable {entries : UInt32 → UInt32 → Program μ UInt32} {limit turns : Nat} {m' : Machine μ}

theorem turns_succ {f f' : Flow μ} (hactive : f.activities ≠ [])
    (hok : turn entries limit f m = .ok f' m') :
    MachineM.turns entries limit (turns + 1) f m = MachineM.turns entries limit turns f' m' := by
  have hnonempty : f.activities.isEmpty = false := by
    rw [List.isEmpty_eq_false_iff]
    exact hactive
  show (if f.activities.isEmpty then pure () else _ : MachineM μ Unit) m = _
  rw [hnonempty]
  exact bind_of_ok hok

theorem turns_advance {context : Context} {run : Option TaskId} {actor : Actor}
    {program program' : Program μ Unit} {rest : List (Activity μ)}
    (h : advance actor program m = advance actor program' m') :
    MachineM.turns entries limit (turns + 1) ⟨context, run, actor, .execute program :: rest⟩ m =
      MachineM.turns entries limit (turns + 1) ⟨context, run, actor, .execute program' :: rest⟩
        m' := by
  have hturn : turn entries limit ⟨context, run, actor, .execute program :: rest⟩ m =
      turn entries limit ⟨context, run, actor, .execute program' :: rest⟩ m' := by
    unfold turn
    show EStateM.bind (advance actor program) _ m = EStateM.bind (advance actor program') _ m'
    unfold EStateM.bind
    rw [h]
    rfl
  show EStateM.bind (turn entries limit _) _ m = EStateM.bind (turn entries limit _) _ m'
  unfold EStateM.bind
  rw [hturn]

theorem advance_answered {actor : Actor} {call : Call} {next : call.Answer → Program μ Unit}
    {answer : call.Answer} {k : Kernel Board}
    (h : m.kernel.attempt call = .ok (k, .done answer)) :
    advance actor (.call call next) m = advance actor (next answer) { m with kernel := k } := by
  have hattempt : attempt call m = .ok (.done answer) { m with kernel := k } := by
    unfold attempt
    rw [h]
  rw [advance]
  exact bind_of_ok hattempt

theorem advance_remark {actor : Actor} {name : String} {remark : Remark μ}
    {next : Unit → Program μ Unit} :
    advance actor (.act (.remark name remark) next) m =
      advance actor (next ())
        { m with events := ⟨m.board.clock, actor, name, remark⟩ :: m.events } := by
  rw [advance]
  rfl

def lastOf {call : Call} (next : call.Answer → Program μ Unit) :
    Progress call.Answer → Activity μ
  | .leave => .left
  | progress => .execute (progress.remains next)

theorem beginSwitch_ok (hroom : m.switches < limit) :
    beginSwitch limit m = .ok [.pass (m.board.clock.after m.switchCost), .reschedule]
      { m with switches := m.switches + 1 } := by
  unfold beginSwitch
  show (if limit < m.switches + 1 then _ else _ : MachineM μ _) _ = _
  rw [if_neg (by omega)]
  rfl

theorem turn_leaving {context : Context} {run : Option TaskId} {actor : Actor} {call : Call}
    {next : call.Answer → Program μ Unit} {progress : Progress call.Answer} {k : Kernel Board}
    (h : m.kernel.attempt call = .ok (k, progress)) (hleaving : progress.control = .leaving)
    (hroom : m.switches < limit) :
    turn entries limit ⟨context, run, actor, [.execute (.call call next)]⟩ m =
      .ok ⟨context, run, actor, [.pass (k.scheduler.hardware.clock.after m.switchCost),
          .reschedule, lastOf next progress]⟩
        { m with kernel := k, switches := m.switches + 1 } := by
  have hattempt : attempt call m = .ok progress { m with kernel := k } := by
    unfold attempt
    rw [h]
  have hbegin := beginSwitch_ok (m := { m with kernel := k }) hroom
  unfold turn
  show EStateM.bind (advance actor (.call call next)) _ m = _
  rw [advance]
  show EStateM.bind (EStateM.bind (attempt call) _) _ m = _
  rw [EStateM.bind, bind_of_ok hattempt]
  cases progress with
  | done answer => contradiction
  | switchThen answer | switchRetry | leave => exact bind_of_ok hbegin

theorem turn_pass {f : Flow μ} {time : Instant} (hpass : passUntil time m = .ok none m') :
    turn entries limit { f with activities := .pass time :: f.activities } m = .ok f m' := by
  exact bind_of_ok hpass

theorem turn_reschedule {f g : Flow μ} {next : Context} {t u : Scheduler Board}
    {decision : Decision} {pointer : Address}
    (hok : m.kernel.scheduler.reschedule (m.pointerOf f.context) = .ok (t, decision))
    (hawait : await decision (m.withScheduler t) = .ok (.resume pointer) (m.withScheduler u))
    (haudit : u.audit = .ok ())
    (howner : (m.withScheduler u).ownerOf pointer = some next)
    (htakeUp : takeUp entries next ((m.withScheduler u).suspend f) =
      .ok g ((m.withScheduler u).suspend f)) :
    turn entries limit { f with activities := .reschedule :: f.activities } m =
      .ok g ((m.withScheduler u).suspend f) := by
  have hdecided : onScheduler (fun s => s.reschedule (m.pointerOf f.context)) m =
      .ok decision (m.withScheduler t) := onScheduler_ok hok
  have haudited : onScheduler (fun s => do return (s, ← s.audit)) (m.withScheduler u) =
      .ok () (m.withScheduler u) := by
    have hchecked : (do return (u, ← u.audit) : Except Fault (Scheduler Board × Unit)) =
        .ok (u, ()) := by
      rw [haudit]
      rfl
    exact onScheduler_ok (m := m.withScheduler u) hchecked
  have hhandOver : handOver entries f pointer (m.withScheduler u) =
      .ok g ((m.withScheduler u).suspend f) := by
    have howned : ((m.withScheduler u).suspend f).ownerOf pointer = some next := howner
    refine (bind_of_ok haudited).trans ?_
    rw [modify_bind, get_bind]
    unfold Machine.suspend at howned htakeUp ⊢
    rw [howned]
    exact htakeUp
  refine (bind_of_ok hdecided).trans ?_
  refine (bind_of_ok hawait).trans ?_
  exact hhandOver

end MachineM

namespace Setting

variable {v : Setting μ} {s s' : Scene μ} {n : Nat}

/-- The two turns of a switch after the call that leads to it. -/
theorem Shows.switched (h : v.Shows m s) (hgrounds : Grounds v.arena) (last : Activity μ)
    (hlater : (s.roster.elapse v.switchCost).Unhurried)
    (hyields : (s.roster.elapse v.switchCost).Yields r)
    (hlast : ∀ t : Scheduler Board, t.Shows v.arena r → r.Expects s.roster.executing → 
      last = .execute (s.program s.roster.executing)) :
    ∃ m', v.Shows m' { s with roster := r } ∧ m'.switches = m.switches ∧ ∀ turns,
      MachineM.turns v.entries v.switchLimit (turns + 2)
          { s.flow s.roster.executing with
            activities := [.pass (m.board.clock.after v.switchCost), .reschedule, last] } m =
        MachineM.turns v.entries v.switchLimit turns
          (Scene.flow { s with roster := r } r.executing) m' := by
  have horigins : r.origins = s.roster.origins := hyields.origins
  have hkernel := h.kernel.elapsed hlater
  have hpass := MachineM.passUntil_quiet h.kernel h.quiet hlater
  obtain ⟨t, u, decision, pointer, hok, hawait, hshown, haudit, howner⟩ := Machine.yields
    (m := m.withBoard fun b => b.advanceTo (m.board.clock.after v.switchCost)) hkernel h.quiet
    hgrounds hyields
  have hcontext : ∀ slot, Scene.context { s with roster := r } slot = s.context slot :=
    fun slot => congrArg (contextIn · slot) horigins
  have hself : s.roster.executing ≤ s.roster.origins.length :=
    (Roster.expects_executing s.roster).le h.kernel.scheduler
  let f : Flow μ := { s.flow s.roster.executing with activities := [last] }
  let m' : Machine μ := ((m.withBoard fun b =>
    b.advanceTo (m.board.clock.after v.switchCost)).withScheduler u).suspend f
  have hrests : ∀ slot, r.Expects slot → v.Rests m' { s with roster := r } slot := by
    intro slot hexpects
    by_cases hne : slot = s.roster.executing
    · subst hne
      refine .suspended ?_
      rw [hcontext]
      refine (Machine.find?_suspend_self _ f).trans (congrArg some ?_)
      unfold Scene.flow
      rw [hcontext]
      show Flow.mk _ _ _ [last] = _
      rw [hlast _ hshown.scheduler hexpects]
      rfl
    · have hold : s.roster.Expects slot := hyields.expects hexpects
      refine (h.rests slot hold hne).congr (Machine.find?_suspend_other fun hsame => hne ?_)
        (congrArg (originIn · slot) horigins) rfl
      exact h.kernel.scheduler.cast.contextIn_inj (hold.le h.kernel.scheduler) hself hsame
  have htakeUp := (hrests r.executing (Roster.expects_executing r)).takeUp
    (m := m') hshown hgrounds (Roster.expects_executing r)
  refine ⟨m', ⟨hshown, h.quiet, h.switchCost, h.events, ?_, ?_, fun slot hexpects _ =>
    hrests slot hexpects⟩, rfl, fun turns => ?_⟩
  · show s.programs.length = r.origins.length + 1
    rw [h.programs, horigins]
  · intro g hg
    show ∃ slot ≤ r.origins.length, g.context = Scene.context { s with roster := r } slot
    rw [horigins]
    rcases List.mem_cons.mp hg with rfl | hg
    · exact ⟨s.roster.executing, hself, (hcontext _).symm⟩
    · obtain ⟨slot, hle, hg⟩ := h.contexts g (List.mem_filter.mp hg).1
      exact ⟨slot, hle, hg.trans (hcontext slot).symm⟩
  · rw [MachineM.turns_succ (List.cons_ne_nil _ _)
      (MachineM.turn_pass (f := { f with activities := [.reschedule, last] }) hpass)]
    exact MachineM.turns_succ (List.cons_ne_nil _ _)
      (MachineM.turn_reschedule (f := f) hok hawait haudit howner htakeUp)

theorem Shows.counted (h : v.Shows m s) (switches : Nat) : v.Shows { m with switches } s :=
  ⟨h.kernel, h.quiet, h.switchCost, h.events, h.programs, h.contexts, fun slot hexpects hne =>
    (h.rests slot hexpects hne).congr rfl rfl rfl⟩

theorem Shows.remarked (h : v.Shows m s) (name : String) (remark : Remark μ)
    (rest : Program μ Unit) :
    v.Shows { m with
        events := ⟨m.board.clock, .context (s.context s.roster.executing), name, remark⟩ ::
          m.events }
      { s with
        programs := s.programs.set s.roster.executing rest
        events := ⟨s.roster.clock, .context (s.context s.roster.executing), name, remark⟩ ::
          s.events } := by
  have hclock : m.board.clock = s.roster.clock := h.kernel.scheduler.clock
  refine ⟨h.kernel, h.quiet, h.switchCost, ?_, ?_, h.contexts, fun slot hexpects hne => ?_⟩
  · show _ :: m.events = _
    rw [hclock, h.events]
  · show (s.programs.set s.roster.executing rest).length = _
    rw [List.length_set]
    exact h.programs
  · refine (h.rests slot hexpects hne).congr rfl rfl ?_
    unfold Scene.program
    rw [List.getElem?_set_ne (Ne.symm hne)]

/-- What happens next in a scene happens on the machine. -/
theorem Shows.step (h : v.Shows m s) (hgrounds : Grounds v.arena) (hstep : v.Step s n s')
    (hroom : m.switches + n ≤ v.switchLimit) :
    ∃ m', v.Shows m' s' ∧ m'.switches = m.switches + n ∧ ∀ turns,
      MachineM.turns v.entries v.switchLimit (turns + 3 * n + 1) (s.flow s.roster.executing) m =
        MachineM.turns v.entries v.switchLimit (turns + 1) (s'.flow s'.roster.executing) m' := by
  have hle : s.roster.executing ≤ s.roster.origins.length :=
    (Roster.expects_executing s.roster).le h.kernel.scheduler
  have hself : s.roster.executing < s.programs.length := by
    rw [h.programs]
    exact Nat.lt_succ_of_le hle
  cases hstep with
  | @remark name remark next hprogram =>
      refine ⟨_, h.remarked name remark (next ()), rfl, fun turns => ?_⟩
      have hrest : Scene.program { s with
          programs := s.programs.set s.roster.executing (next ())
          events := ⟨s.roster.clock, .context (s.context s.roster.executing), name, remark⟩ ::
            s.events } s.roster.executing = next () := by
        unfold Scene.program
        rw [List.getElem?_set_self hself]
        rfl
      unfold Scene.flow
      rw [hprogram, hrest]
      exact MachineM.turns_advance MachineM.advance_remark
  | @answered call next answer r hprogram hdoes =>
      obtain ⟨k, hok, hk⟩ := h.called hgrounds hdoes (next answer)
      obtain ⟨more, hmore⟩ := hdoes.origins
      refine ⟨_, hk, rfl, fun turns => ?_⟩
      show _ = MachineM.turns v.entries v.switchLimit (turns + 1)
        ((v.after s r (next answer)).flow r.executing) _
      unfold Scene.flow
      rw [hdoes.executing, context_after hmore hle, program_after_self hmore hself, hprogram]
      exact MachineM.turns_advance (MachineM.advance_answered hok)
  | @switched call next progress r r' hprogram hdoes hleaving hlater hyields =>
      obtain ⟨k, hok, hk⟩ := h.called hgrounds hdoes (progress.remains next)
      obtain ⟨more, hmore⟩ := hdoes.origins
      have hsame : v.after s r' (progress.remains next) =
          { v.after s r (progress.remains next) with roster := r' } := by
        unfold after
        rw [show r'.origins = r.origins from hyields.origins]
      have hexecuting : (v.after s r (progress.remains next)).roster.executing =
          s.roster.executing := hdoes.executing
      have hswitched := (hk.counted (m.switches + 1)).switched hgrounds
        (MachineM.lastOf next progress) (hk.kernel.scheduler.elapse_unhurried hlater) hyields
      rw [hexecuting, program_after_self hmore hself] at hswitched
      obtain ⟨m', hm', hswitches, hturns⟩ := hswitched fun _ ht hexpects => by
        cases progress with
        | leave => exact absurd hexpects (hdoes.leaves rfl hyields ht)
        | _ => rfl
      rw [hsame]
      refine ⟨m', hm', hswitches, fun turns => ?_⟩
      rw [← hturns]
      refine MachineM.turns_succ (List.cons_ne_nil _ _) ?_
      unfold Scene.flow
      rw [hprogram, context_after hmore hle, ← h.switchCost]
      exact MachineM.turn_leaving hok hleaving (by omega)

theorem Shows.runs (h : v.Shows m s) (hgrounds : Grounds v.arena) (hruns : v.Runs n s s')
    (hroom : m.switches + n ≤ v.switchLimit) :
    ∃ m', v.Shows m' s' ∧ ∀ turns,
      MachineM.turns v.entries v.switchLimit (turns + 3 * n + 1) (s.flow s.roster.executing) m =
        MachineM.turns v.entries v.switchLimit (turns + 1) (s'.flow s'.roster.executing) m' := by
  induction hruns generalizing m with
  | refl s => exact ⟨m, h, fun _ => rfl⟩
  | @head a b s t u hstep _ ih =>
      obtain ⟨m₁, hm₁, hswitches, hturns₁⟩ := h.step hgrounds hstep (by omega)
      obtain ⟨m₂, hm₂, hturns₂⟩ := ih hm₁ (by omega)
      refine ⟨m₂, hm₂, fun turns => ?_⟩
      rw [← hturns₂, ← hturns₁]
      congr 1
      omega

/-- A run of scenes to the end of the mainline is one of the machine. -/
theorem Shows.run (h : v.Shows m s) (hgrounds : Grounds v.arena) (hruns : v.Runs n s s')
    (hstart : s.roster.executing = 0) (hend : s'.roster.executing = 0)
    (hdone : s'.program 0 = .done ()) (hroom : m.switches + n ≤ v.switchLimit) :
    ∃ m', m.run v.entries (s.program 0) v.switchLimit = (m', none) ∧ v.Shows m' s' := by
  obtain ⟨m', hm', hturns⟩ := h.runs hgrounds hruns hroom
  refine ⟨m', ?_, hm'⟩
  have hlimit : m.turnLimit v.switchLimit =
      (4 * v.switchLimit + 6 - 3 * n + 1) + 3 * n + 1 := by
    unfold Machine.turnLimit
    rw [h.quiet]
    simp only [List.length_nil]
    omega
  have hlast : MachineM.turn v.entries v.switchLimit (s'.flow 0) m' =
      .ok ⟨.mainline, none, .context .mainline, []⟩ m' := by
    unfold Scene.flow
    rw [hdone]
    unfold MachineM.turn
    show EStateM.bind (MachineM.advance _ (.done ())) _ m' = _
    rw [MachineM.advance]
    rfl
  rw [hstart, hend] at hturns
  unfold Machine.run
  rw [hlimit, show Flow.mainline (s.program 0) = s.flow 0 from rfl, hturns,
    MachineM.turns_succ (List.cons_ne_nil _ _) hlast]
  rfl

end Setting

/-! ## The beginning -/

theorem Scheduler.shows_new (now : Instant) (arena : List StackRange) (signals : List Signal) :
    (Scheduler.new (Board.start now)).Shows arena ⟨now, [], [], [], signals⟩ where
  runQueue := (placed_new _).runQueue_eq
  sleepers := (placed_new _).sleepers_eq
  outline := by
    intro slot _
    have hvacant : (Scheduler.new (Board.start now)).tasks.record slot = TaskRecord.vacant :=
      TaskTable.record_vacant slot
    rw [hvacant]
    cases slot <;> rfl
  cast := ⟨Nat.zero_lt_succ _, nofun, List.nodup_nil⟩
  standing := standing_new _
  timely := timely_new _
  faultFree := faultFree_new _
  alarm := rfl
  lag := rfl
  clock := rfl
  generation := rfl
  later := nofun
  mainline := fun _ hparts => absurd rfl hparts

def Scene.bare (now : Instant) (signals : Nat) (mainline : Program μ Unit) : Scene μ where
  roster := ⟨now, [], [], [], List.replicate signals Signal.idle⟩
  programs := [mainline]
  events := []

theorem Setting.shows_start {v : Setting μ} (now : Instant) (lengths : List Nat) (signals : Nat)
    (trampoline : UInt32) (mainline : Program μ Unit)
    (harena : (Machine.blankStacks lengths).map Stack.range = v.arena) :
    v.Shows (Machine.start now lengths signals trampoline v.switchCost [])
      (Scene.bare now signals mainline) where
  kernel := ⟨Scheduler.shows_new now _ _, rfl, harena, nofun⟩
  quiet := rfl
  switchCost := rfl
  events := rfl
  programs := rfl
  contexts := nofun
  rests := by
    rintro slot (rfl | ⟨id, hmem, _⟩) hne
    · exact absurd rfl hne
    · contradiction

end

end CoopTasks

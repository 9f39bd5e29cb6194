import CoopTasks.Proofs.Calls

/-!
The operations of the scheduler as one type, and what each of them can do.

`Performed s op t decision` lists the outcomes of an operation that does not
fault, in a scheduler whose tasks stand where they belong.  Invariants of the
scheduler are proved by cases on it.  Signals are shared with tasks and kept
outside of the scheduler, so an operation on one may find it in any state.
-/

namespace CoopTasks.Scheduler

variable {H : Type}

inductive Operation where
  | spawn (stack : StackRange) (pointer : Address)
  | reschedule (pointer : Address)
  | dispatch
  | markExiting (code : UInt32)
  | markAsleep (deadline : Instant)
  | wake (id : TaskId)
  | post (signal : Signal)
  | attemptWait (signal : Signal)
  | attemptJoin (target : TaskId)
  | tryJoin (target : TaskId)
  | handleAlarm
  deriving DecidableEq, Repr

def Operation.interrupts : Operation → Bool
  | .wake _ | .post _ | .handleAlarm => true
  | _ => false

/-- What neither starts a task nor switches. -/
def Operation.plain : Operation → Bool
  | .spawn .. | .reschedule _ | .dispatch => false
  | _ => true

variable [Hardware H]

def perform (s : Scheduler H) : Operation → Except Fault (Scheduler H × Option Decision)
  | .spawn stack pointer => do
      let (s, _) ← s.spawn stack pointer
      return (s, none)
  | .reschedule pointer => do
      let (s, decision) ← s.reschedule pointer
      return (s, some decision)
  | .dispatch => do
      let (s, decision) ← s.dispatch
      return (s, some decision)
  | .markExiting code => return (← s.markExiting code, none)
  | .markAsleep deadline => return (← s.markAsleep deadline, none)
  | .wake id => return (← s.wake id, none)
  | .post signal => do
      let (s, _) ← s.post signal
      return (s, none)
  | .attemptWait signal => do
      let (s, _, _) ← s.attemptWait signal
      return (s, none)
  | .attemptJoin target => do
      let (s, _) ← s.attemptJoin target
      return (s, none)
  | .tryJoin target => do
      let (s, _) ← s.tryJoin target
      return (s, none)
  | .handleAlarm => return (← s.handleAlarm, none)

section Inversion

variable {s t : Scheduler H} {decision : Option Decision}

theorem perform_spawn_eq_ok {stack : StackRange} {pointer : Address} :
    s.perform (.spawn stack pointer) = .ok (t, decision) ↔
      (∃ outcome, s.spawn stack pointer = .ok (t, outcome)) ∧ decision = none := by
  simp only [perform, bind_eq_ok, pure_eq_ok, Prod.mk.injEq, Prod.exists]
  constructor
  · rintro ⟨u, outcome, hok, rfl, rfl⟩
    exact ⟨⟨outcome, hok⟩, rfl⟩
  · rintro ⟨⟨outcome, hok⟩, rfl⟩
    exact ⟨t, outcome, hok, rfl, rfl⟩

theorem perform_reschedule_eq_ok {pointer : Address} :
    s.perform (.reschedule pointer) = .ok (t, decision) ↔
      ∃ made, s.reschedule pointer = .ok (t, made) ∧ decision = some made := by
  simp only [perform, bind_eq_ok, pure_eq_ok, Prod.mk.injEq, Prod.exists]
  constructor
  · rintro ⟨u, made, hok, rfl, rfl⟩
    exact ⟨made, hok, rfl⟩
  · rintro ⟨made, hok, rfl⟩
    exact ⟨t, made, hok, rfl, rfl⟩

theorem perform_dispatch_eq_ok :
    s.perform .dispatch = .ok (t, decision) ↔
      ∃ made, s.dispatch = .ok (t, made) ∧ decision = some made := by
  simp only [perform, bind_eq_ok, pure_eq_ok, Prod.mk.injEq, Prod.exists]
  constructor
  · rintro ⟨u, made, hok, rfl, rfl⟩
    exact ⟨made, hok, rfl⟩
  · rintro ⟨made, hok, rfl⟩
    exact ⟨t, made, hok, rfl, rfl⟩

end Inversion

def performAll (s : Scheduler H) : List Operation → Except Fault (Scheduler H)
  | [] => .ok s
  | op :: ops => do
      let (s, _) ← s.perform op
      s.performAll ops

theorem performAll_preserves {P : Scheduler H → Prop} {s t : Scheduler H} {ops : List Operation}
    (hstep : ∀ s t op decision, op ∈ ops → P s → s.perform op = .ok (t, decision) → P t)
    (hs : P s) (hok : s.performAll ops = .ok t) : P t := by
  induction ops generalizing s with
  | nil =>
      obtain rfl := Except.ok.inj hok
      exact hs
  | cons op ops ih =>
      simp only [performAll, bind_eq_ok, Prod.exists] at hok
      obtain ⟨u, decision, hperform, hok⟩ := hok
      refine ih ?_ (hstep _ _ _ _ List.mem_cons_self hs hperform) hok
      exact fun _ _ _ _ hmem => hstep _ _ _ _ (List.mem_cons_of_mem op hmem)

inductive Performed (s : Scheduler H) : Operation → Scheduler H → Option Decision → Prop
  | refused {stack : StackRange} {pointer : Address} :
      Performed s (.spawn stack pointer) s none
  | started {t : Scheduler H} {stack : StackRange} {pointer : Address} {id : TaskId} :
      Started s stack pointer id t →
      Performed s (.spawn stack pointer) t none
  | switched {t u v w : Scheduler H} {pointer : Address} {decision : Decision} {id : TaskId}
      {rest woken : List TaskId} :
      Switched s pointer t decision id rest woken u v w →
      Performed s (.reschedule pointer) t (some decision)
  | dispatched {t : Scheduler H} {decision : Decision} :
      Dispatched s t decision →
      Performed s .dispatch t (some decision)
  | exiting {t : Scheduler H} {code : UInt32} {id : TaskId} :
      s.current = some id →
      t.hardware = s.hardware →
      Moved s id (fun t => { t with exiting := true, exitCode := code }) s.runQueue s.sleepers t →
      Performed s (.markExiting code) t none
  | asleep {t : Scheduler H} {deadline : Instant} {id : TaskId} :
      s.current = some id →
      t.hardware = s.hardware →
      Moved s id (fun t => t.countSleep deadline) s.runQueue s.sleepers t →
      Performed s (.markAsleep deadline) t none
  | woken {t : Scheduler H} {id : TaskId} :
      s.wake id = .ok t →
      Performed s (.wake id) t none
  | posted {t : Scheduler H} {signal : Signal} :
      s.wakeWaiter signal.waiter = .ok t →
      Performed s (.post signal) t none
  | attempted {t : Scheduler H} {signal signal' : Signal} {result : WaitResult} :
      Attempted s signal t signal' result →
      Performed s (.attemptWait signal) t none
  | joined {t u : Scheduler H} {target : TaskId} {completion : Signal} {result : WaitResult} :
      Attempted s (s.record target).completion u completion result →
      t.hardware = u.hardware →
      Moved u target (fun t => { t with completion }) u.runQueue u.sleepers t →
      Performed s (.attemptJoin target) t none
  | tried {t : Scheduler H} {target : TaskId} {completion : Signal} :
      t.hardware = s.hardware →
      Moved s target (fun t => { t with completion }) s.runQueue s.sleepers t →
      Performed s (.tryJoin target) t none
  | handled {t : Scheduler H} :
      s.handleAlarm = .ok t →
      Performed s .handleAlarm t none

variable {s t : Scheduler H} {op : Operation} {decision : Option Decision}

theorem Standing.perform (h : s.Standing) (hok : s.perform op = .ok (t, decision)) :
    Performed s op t decision := by
  cases op <;> simp only [Scheduler.perform, bind_eq_ok, pure_eq_ok, Prod.mk.injEq,
    Prod.exists] at hok
  case spawn =>
      obtain ⟨u, outcome, hspawn, rfl, rfl⟩ := hok
      rcases h.spawn hspawn with ⟨_, rfl⟩ | ⟨id, _, hstarted⟩
      · exact .refused
      · exact .started hstarted
  case reschedule =>
      obtain ⟨u, decision, hreschedule, rfl, rfl⟩ := hok
      obtain ⟨id, rest, woken, u, v, w, hswitched⟩ := h.reschedule hreschedule
      exact .switched hswitched
  case dispatch =>
      obtain ⟨u, decision, hdispatch, rfl, rfl⟩ := hok
      exact .dispatched (h.dispatch hdispatch)
  case markExiting =>
      obtain ⟨u, hmark, rfl, rfl⟩ := hok
      obtain ⟨id, hcurrent, hhardware, hmoved⟩ := h.markExiting hmark
      exact .exiting hcurrent hhardware hmoved
  case markAsleep =>
      obtain ⟨u, hmark, rfl, rfl⟩ := hok
      obtain ⟨id, hcurrent, hhardware, _, hmoved⟩ := h.markAsleep hmark
      exact .asleep hcurrent hhardware hmoved
  case wake =>
      obtain ⟨u, hwake, rfl, rfl⟩ := hok
      exact .woken hwake
  case post =>
      obtain ⟨u, signal, hpost, rfl, rfl⟩ := hok
      exact .posted (post_eq_ok hpost).1
  case attemptWait =>
      obtain ⟨u, signal, result, hattempt, rfl, rfl⟩ := hok
      exact .attempted (h.attemptWait hattempt)
  case attemptJoin =>
      obtain ⟨u, result, hattempt, rfl, rfl⟩ := hok
      obtain ⟨_, htarget, v, completion, hattempted, rfl⟩ := h.attemptJoin hattempt
      exact .joined hattempted rfl ((hattempted.standing h).withCompletion htarget.index_lt _)
  case tryJoin =>
      obtain ⟨u, code, htry, rfl, rfl⟩ := hok
      obtain ⟨htarget, rfl, _⟩ := tryJoin_eq_ok htry
      exact .tried rfl (h.withCompletion htarget.index_lt _)
  case handleAlarm =>
      obtain ⟨u, halarm, rfl, rfl⟩ := hok
      exact .handled halarm

theorem Performed.standing (h : Performed s op t decision) (hs : s.Standing) : t.Standing := by
  cases h with
  | refused => exact hs
  | started hstarted => exact hstarted.standing
  | switched hswitched => exact hswitched.standing.2.2
  | dispatched hdispatched => exact hdispatched.standing hs
  | exiting _ _ hmoved => exact hmoved.standing
  | asleep _ _ hmoved => exact hmoved.standing
  | woken hwake => exact (hs.wake hwake).1
  | posted hwake => exact hs.wakeWaiter hwake
  | attempted hattempted => exact hattempted.standing hs
  | joined _ _ hmoved => exact hmoved.standing
  | tried _ hmoved => exact hmoved.standing
  | handled halarm => exact (hs.handleAlarm halarm).1

end CoopTasks.Scheduler

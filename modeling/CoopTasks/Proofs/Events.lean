import CoopTasks.Proofs.World

/-!
The steps of a world, each with what happens in it.

`Occurs w event w'` is `Step w w'` with a name for the step.  `Along rule w
events w'` is a run all of whose steps keep a rule.
-/

namespace CoopTasks.World

variable {H : Type}

inductive Event where
  /-- Whoever executes makes an attempt of a call. -/
  | call (call : Call)
  | wake (id : TaskId)
  | post (signal : Nat)
  | alarm
  | elapse
  | reschedule (pointer : Address)
  | dispatch
  deriving DecidableEq, Repr

def Event.interrupts : Event → Bool
  | .wake _ | .post _ | .alarm | .elapse => true
  | .call _ | .reschedule _ | .dispatch => false

def Event.wakes (id : TaskId) : Event → Bool
  | .call (.wake other) | .wake other => decide (other = id)
  | _ => false

variable [Hardware H]

inductive Occurs : World H → Event → World H → Prop
  | call {w : World H} {call : Call} {kernel : Kernel H} {progress : Progress call.Answer} :
      w.control = .executing →
      w.MayCall call →
      w.kernel.attempt call = .ok (kernel, progress) →
      Occurs w (.call call)
        { kernel := kernel
          control := progress.control
          inside := w.insideAfter call progress.retries }
  | wake {w : World H} {id : TaskId} {kernel : Kernel H} :
      w.kernel.wake id = .ok kernel →
      Occurs w (.wake id) { w with kernel }
  | post {w : World H} {number : Nat} {kernel : Kernel H} :
      w.kernel.post number = .ok kernel →
      Occurs w (.post number) { w with kernel }
  | alarm {w : World H} {scheduler : Scheduler H} :
      w.scheduler.handleAlarm = .ok scheduler →
      Occurs w .alarm (w.withScheduler scheduler)
  | elapse {w : World H} {hardware : H} :
      Occurs w .elapse (w.withScheduler { w.scheduler with hardware })
  | reschedule {w : World H} {pointer : Address} {scheduler : Scheduler H} {decision : Decision} :
      w.control = .leaving →
      w.scheduler.reschedule pointer = .ok (scheduler, decision) →
      Occurs w (.reschedule pointer) { w.withScheduler scheduler with control := decision.control }
  | dispatch {w : World H} {scheduler : Scheduler H} {decision : Decision} :
      w.control = .idle →
      w.scheduler.dispatch = .ok (scheduler, decision) →
      Occurs w .dispatch { w.withScheduler scheduler with control := decision.control }

variable {w w' u : World H} {event : Event} {events : List Event}
variable {rule rule' : World H → Event → World H → Prop}

theorem Occurs.step (h : Occurs w event w') : Step w w' := by
  cases h with
  | call hexec hmay hok => exact .call hexec hmay hok
  | wake hok => exact .wake hok
  | post hok => exact .post hok
  | alarm hok => exact .alarm hok
  | elapse => exact .elapse
  | reschedule hleaving hok => exact .reschedule hleaving hok
  | dispatch hidle hok => exact .dispatch hidle hok

theorem Step.occurs (h : Step w w') : ∃ event, Occurs w event w' := by
  cases h with
  | call hexec hmay hok => exact ⟨_, .call hexec hmay hok⟩
  | wake hok => exact ⟨_, .wake hok⟩
  | post hok => exact ⟨_, .post hok⟩
  | alarm hok => exact ⟨_, .alarm hok⟩
  | elapse => exact ⟨_, .elapse⟩
  | reschedule hleaving hok => exact ⟨_, .reschedule hleaving hok⟩
  | dispatch hidle hok => exact ⟨_, .dispatch hidle hok⟩

/-- A run whose steps keep a rule, with its events in their order. -/
inductive Along (rule : World H → Event → World H → Prop) (w : World H) :
    List Event → World H → Prop
  | none : Along rule w [] w
  | step {events : List Event} {event : Event} {u w' : World H} :
      Along rule w events u →
      Occurs u event w' →
      rule u event w' →
      Along rule w (events ++ [event]) w'

theorem Along.reached (h : Along rule w events w') (hw : Reached w) : Reached w' := by
  induction h with
  | none => exact hw
  | step _ hoccurs _ ih => exact ih.step hoccurs.step

theorem Along.mono (h : Along rule w events w')
    (hmono : ∀ w event w', rule w event w' → rule' w event w') : Along rule' w events w' := by
  induction h with
  | none => exact .none
  | step _ hoccurs hrule ih => exact ih.step hoccurs (hmono _ _ _ hrule)

theorem Along.cons (hoccurs : Occurs w event u) (hrule : rule w event u)
    (h : Along rule u events w') : Along rule w (event :: events) w' := by
  induction h with
  | none => exact Along.none.step hoccurs hrule
  | step _ hlater hkept ih => exact ih.step hlater hkept

theorem Along.trans {more : List Event} (h : Along rule w events u) (h' : Along rule u more w') :
    Along rule w (events ++ more) w' := by
  induction h' with
  | none => rwa [List.append_nil]
  | step _ hoccurs hrule ih =>
      rw [← List.append_assoc]
      exact ih.step hoccurs hrule

/-! ## Runs that are computed -/

def occur (w : World H) : Event → Option (World H)
  | .call call => w.act (.call call)
  | .wake id => (w.kernel.wake id).toOption.map fun kernel => { w with kernel }
  | .post number => (w.kernel.post number).toOption.map fun kernel => { w with kernel }
  | .alarm => w.scheduler.handleAlarm.toOption.map w.withScheduler
  | .elapse => none
  | .reschedule pointer => w.act (.reschedule pointer)
  | .dispatch =>
      if w.control = .idle then
        w.scheduler.dispatch.toOption.map fun r =>
          { w.withScheduler r.1 with control := r.2.control }
      else
        none

/-- Events occur one after the other, as long as each of them passes a check. -/
def follow (check : World H → Event → Bool) (w : World H) : List Event → Option (World H)
  | [] => some w
  | event :: events =>
      if check w event then (w.occur event).bind fun w => w.follow check events else none

theorem Occurs.of_occur (h : w.occur event = some w') : Occurs w event w' := by
  cases event with
  | call call =>
      simp only [occur, act, Option.ite_none_right_eq_some, Option.map_eq_some_iff] at h
      obtain ⟨⟨hexec, hmay⟩, ⟨kernel, progress⟩, hok, rfl⟩ := h
      exact .call hexec hmay (toOption_eq_some.mp hok)
  | wake id =>
      obtain ⟨kernel, hok, rfl⟩ := Option.map_eq_some_iff.mp h
      exact .wake (toOption_eq_some.mp hok)
  | post number =>
      obtain ⟨kernel, hok, rfl⟩ := Option.map_eq_some_iff.mp h
      exact .post (toOption_eq_some.mp hok)
  | alarm =>
      obtain ⟨scheduler, hok, rfl⟩ := Option.map_eq_some_iff.mp h
      exact .alarm (toOption_eq_some.mp hok)
  | elapse => contradiction
  | reschedule pointer =>
      simp only [occur, act, Option.ite_none_right_eq_some, Option.map_eq_some_iff] at h
      obtain ⟨hleaving, ⟨scheduler, decision⟩, hok, rfl⟩ := h
      exact .reschedule hleaving (toOption_eq_some.mp hok)
  | dispatch =>
      simp only [occur, Option.ite_none_right_eq_some, Option.map_eq_some_iff] at h
      obtain ⟨hidle, ⟨scheduler, decision⟩, hok, rfl⟩ := h
      exact .dispatch hidle (toOption_eq_some.mp hok)

theorem Along.of_follow {check : World H → Event → Bool}
    (hcheck : ∀ w event w', check w event = true → w.occur event = some w' → rule w event w')
    (h : w.follow check events = some w') : Along rule w events w' := by
  induction events generalizing w with
  | nil =>
      obtain rfl := Option.some.inj h
      exact .none
  | cons event events ih =>
      obtain ⟨hchecked, hrest⟩ := Option.ite_none_right_eq_some.mp h
      obtain ⟨u, hoccur, hrest⟩ := Option.bind_eq_some_iff.mp hrest
      exact (ih hrest).cons (.of_occur hoccur) (hcheck w event u hchecked hoccur)

end CoopTasks.World

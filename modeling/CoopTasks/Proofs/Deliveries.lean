import CoopTasks.Proofs.Issuing

/-!
To whom an operation delivers a wake.

An operation may call one task by its name: an explicit wake does, a signal
calls its waiter, and the end of a task calls who joins it.  Besides, a sleeper
whose deadline has come leaves the timer queue.  Each of these tasks is
delivered one wake, and the sleep counts show it: `Roused.sleepCount`.
-/

namespace CoopTasks.Scheduler

variable {H : Type} {s t u : Scheduler H} {id : TaskId} {ids asleep : List TaskId}
variable {called : Option TaskId} {slot : Nat}

/-- Who is called by name, and who else of these sleepers has left the timer queue. -/
def delivered (called : Option TaskId) (asleep : List TaskId) (t : Scheduler H) : List TaskId :=
  called.toList ++ asleep.filter fun id => decide (called ≠ some id ∧ id ∉ t.sleepers)

structure Roused (s : Scheduler H) (called : Option TaskId) (t : Scheduler H) : Prop where
  current : ∀ id, called = some id → id.generation = (s.record id).generation
  target : ∀ id, called = some id → t.record id = (s.record id).woken
  other : ∀ slot, (∀ id, called = some id → slot ≠ id.index) →
    (s.tasks.record slot).Undisturbed (fun _ => True) (t.tasks.record slot)

theorem Roused.trans (h : Roused s called t) (h' : Roused t none u) : Roused s called u where
  current := h.current
  target := by
    intro id hid
    refine ((h'.other id.index nofun).of_awake ?_).trans (h.target id hid)
    change (t.record id).state ≠ .sleeping
    rw [h.target id hid]
    exact TaskRecord.awake_woken _
  other := fun slot hslot => (h.other slot hslot).trans (h'.other slot nofun)

theorem Roused.generation (h : Roused s called t) (slot : Nat) :
    (t.tasks.record slot).generation = (s.tasks.record slot).generation := by
  by_cases hcalled : ∃ id, called = some id ∧ slot = id.index
  · obtain ⟨id, hid, rfl⟩ := hcalled
    exact (congrArg TaskRecord.generation (h.target id hid)).trans rfl
  · rcases h.other slot fun id hid he => hcalled ⟨id, hid, he⟩ with hsame | ⟨_, _, _, hwoken⟩
    · rw [hsame]
    · rw [hwoken]
      rfl

theorem countP_ofSlot (hnodup : ids.Nodup) (hid : id.index = slot)
    (honly : ∀ m ∈ ids, m.index = slot → m = id) :
    ids.countP (OfSlot slot) = if id ∈ ids then 1 else 0 := by
  rw [← hnodup.count, List.count]
  refine List.countP_congr fun m hm => ?_
  rw [OfSlot, decide_eq_true_iff, beq_iff_eq]
  constructor
  · exact honly m hm
  · rintro rfl
    exact hid

theorem Roused.countP_delivered (h : Roused s called t) (hs : s.Standing) (hslot : slot ∈ slots)
    (hasleep : asleep.Perm s.sleepers) :
    (delivered called asleep t).countP (OfSlot slot) =
      if s.idOf slot ∈ delivered called asleep t then 1 else 0 := by
  have hindex := s.index_idOf (mem_slots.mp hslot).2
  refine countP_ofSlot ?_ hindex ?_
  · refine List.nodup_append.mpr ⟨?_, (hasleep.symm.nodup hs.nodup_sleepers).filter _, ?_⟩
    · cases called <;> simp
    · intro a ha b hb he
      have hne := (of_decide_eq_true (List.mem_filter.mp hb).2).1
      exact hne (Option.mem_toList.mp (he ▸ ha))
  · intro m hm he
    have hcurrent : m.generation = (s.record m).generation := by
      rcases List.mem_append.mp hm with hm | hm
      · exact h.current m (Option.mem_toList.mp hm)
      · exact hs.generation m (List.mem_append_right _
          (hasleep.mem_iff.mp (List.mem_filter.mp hm).1))
    refine TaskId.ext_of_index (he.trans hindex.symm) (hcurrent.trans ?_)
    rw [record, he]
    rfl

/-- Each wake that is delivered takes one from the sleep count of its task. -/
theorem Roused.sleepCount (h : Roused s called t) (hs : s.Standing) (ht : t.Standing)
    (hslot : slot ∈ slots) (hasleep : asleep.Perm s.sleepers) :
    (t.tasks.record slot).sleepCount = (s.tasks.record slot).sleepCount -
      (delivered called asleep t).countP (OfSlot slot) := by
  have hlt := (mem_slots.mp hslot).2
  have hidOf : t.idOf slot = s.idOf slot := idOf_eq (h.generation slot)
  rw [h.countP_delivered hs hslot hasleep]
  by_cases hcalled : ∃ id, called = some id ∧ slot = id.index
  · obtain ⟨id, rfl, rfl⟩ := hcalled
    have hid : s.idOf id.index = id :=
      TaskId.ext_of_index (s.index_idOf hlt) (h.current id rfl).symm
    rw [hid, if_pos (by simp [delivered])]
    exact congrArg TaskRecord.sleepCount (h.target id rfl)
  · have hnot : called ≠ some (s.idOf slot) := fun he =>
      hcalled ⟨_, he, (s.index_idOf hlt).symm⟩
    rcases h.other slot fun id hid he => hcalled ⟨id, hid, he⟩ with hsame | ⟨hstate, _, _, hwoken⟩
    · have hmem : s.idOf slot ∉ delivered called asleep t := by
        intro hmem
        rcases List.mem_append.mp hmem with hmem | hmem
        · exact hnot (Option.mem_toList.mp hmem)
        · obtain ⟨hsleeps, hleft⟩ := List.mem_filter.mp hmem
          refine (of_decide_eq_true hleft).2 (hidOf ▸ ht.mem_sleepers hslot ?_)
          rw [hsame]
          exact hs.state_asleep hlt (hasleep.mem_iff.mp hsleeps)
      rw [if_neg hmem, hsame]
      simp
    · have hmem : s.idOf slot ∈ delivered called asleep t := by
        refine List.mem_append_right _ (List.mem_filter.mpr
          ⟨hasleep.mem_iff.mpr (hs.mem_sleepers hslot hstate), decide_eq_true ⟨hnot, ?_⟩⟩)
        intro hsleeps
        have hstill := ht.state_asleep hlt (hidOf.symm ▸ hsleeps)
        rw [hwoken] at hstill
        exact TaskRecord.awake_woken _ hstill
      rw [if_pos hmem, hwoken]
      rfl

variable [Hardware H]

theorem Rearmed.roused (h : Rearmed s ids t) : Roused s none t :=
  ⟨nofun, nofun, fun slot _ => (h.undisturbed slot).mono fun _ _ => trivial⟩

theorem Standing.roused_wakeWaiter (hs : s.Standing) (hok : s.wakeWaiter called = .ok t) :
    Roused s called t := by
  refine ⟨?_, ?_, fun slot hne => (hs.undisturbed_wakeWaiter hok hne).mono fun _ _ => trivial⟩
  · rintro id rfl
    obtain ⟨_, _, hwoke, _⟩ := hs.wake hok
    exact hwoke.current
  · rintro id rfl
    exact hs.record_wake hok

def Operation.calls : Operation → Option TaskId
  | .wake id => some id
  | .post signal => signal.waiter
  | _ => none

theorem Performed.roused {op : Operation} {decision : Option Decision}
    (h : Performed s op t decision) (hs : s.Standing) (hop : op.interrupts = true) :
    Roused s op.calls t := by
  cases h with
  | @woken _ id hwake => exact (hs.roused_wakeWaiter hwake : Roused s (some id) t)
  | posted hwake => exact hs.roused_wakeWaiter hwake
  | handled halarm =>
      exact ⟨nofun, nofun, fun slot _ =>
        (hs.undisturbed_handleAlarm halarm slot).mono fun _ _ => trivial⟩
  | refused | started | switched | dispatched | exiting | asleep | attempted | joined | tried =>
      contradiction

theorem Performed.wakes {op : Operation} {decision : Option Decision}
    (h : Performed s op t decision) (hs : s.Standing) (hop : op.interrupts = true) :
    ∃ ids, Wakes s ids t := by
  cases h with
  | woken hwake =>
      obtain ⟨ids, hwakes⟩ := hs.wakes_of_wake hwake
      exact ⟨_, hwakes⟩
  | posted hwake => exact hs.wakes_of_wakeWaiter hwake
  | handled halarm => exact hs.wakes_of_handleAlarm halarm
  | refused | started | switched | dispatched | exiting | asleep | attempted | joined | tried =>
      contradiction

/-! ## A switch -/

def joiner (s : Scheduler H) : Option TaskId :=
  s.current.bind fun id =>
    if (s.record id).exiting then (s.record id).completion.waiter else none

def resting (s : Scheduler H) : List TaskId :=
  s.current.toList.filter fun id => !(s.record id).exiting && (s.record id).isSleeping

omit [Hardware H] in
theorem joiner_of_current (hcurrent : s.current = some id) :
    s.joiner = if (s.record id).exiting then (s.record id).completion.waiter else none := by
  rw [joiner, hcurrent, Option.bind_some]

omit [Hardware H] in
theorem resting_of_current (hcurrent : s.current = some id) :
    s.resting = if !(s.record id).exiting && (s.record id).isSleeping then [id] else [] := by
  simp only [resting, hcurrent, Option.toList_some, List.filter_cons, List.filter_nil]

/-- A task no longer executes, and nobody has been woken yet. -/
structure Paused (s : Scheduler H) (id : TaskId) (m : Scheduler H) : Prop where
  standing : m.Standing
  sleepers : (s.resting ++ s.sleepers).Perm m.sleepers
  count : (m.record id).sleepCount = (s.record id).sleepCount
  state : id.index = 0 ∨ (m.record id).state = .exited ∨
    (m.record id).state = .sleeping ∧ 0 < (m.record id).sleepCount ∨
    (m.record id).state = .ready ∧ (m.record id).sleepCount ≤ 0
  other : ∀ slot, slot ≠ id.index → m.tasks.record slot = s.tasks.record slot

variable {pointer : Address} {rest : List TaskId} {v : Scheduler H}

theorem Suspended.current_eq (h : Suspended s pointer id rest u) (hs : s.Standing)
    (hid : id.index ≠ 0) : s.current = some id := by
  rw [hs.current_eq_some_iff, h.runQueue]
  exact ⟨rfl, hid⟩

theorem Suspended.paused {change : TaskRecord → TaskRecord} {run sleep : List TaskId}
    (h : Suspended s pointer id rest u) (hmoved : Moved u id change run sleep v)
    (hsleepers : (s.resting ++ s.sleepers).Perm sleep)
    (hcount : ∀ r, (change r).sleepCount = r.sleepCount)
    (hstate : id.index = 0 ∨ (v.record id).state = .exited ∨
      (v.record id).state = .sleeping ∧ 0 < (v.record id).sleepCount ∨
      (v.record id).state = .ready ∧ (v.record id).sleepCount ≤ 0) :
    Paused s id v where
  standing := hmoved.standing
  sleepers := hmoved.sleepers ▸ hsleepers
  count := by
    rw [hmoved.self, hcount, h.self]
    rfl
  state := hstate
  other := fun _ hne => (hmoved.other hne).trans ((h.record _).trans (if_neg hne))

theorem Suspended.settled (h : Suspended s pointer id rest u) (hs : s.Standing)
    (hsettled : Settled u id rest s.sleepers v) :
    ∃ m ids, Paused s id m ∧ Roused m s.joiner v ∧ Wakes m ids v := by
  have hself := h.self
  have hexiting : (u.record id).exiting = (s.record id).exiting := by rw [hself]; rfl
  have hsleeping : (u.record id).isSleeping = (s.record id).isSleeping := by rw [hself]; rfl
  have hquiet : Roused v none v := ⟨nofun, nofun, fun slot _ => .refl _ _⟩
  cases hsettled with
  | parked hid hmoved _ =>
      have hnone : s.current = none := by
        refine Option.eq_none_iff_forall_ne_some.mpr fun other hother => ?_
        obtain ⟨hhead, hne⟩ := hs.current_eq_some_iff.mp hother
        rw [h.runQueue] at hhead
        exact hne (Option.some.inj hhead ▸ hid)
      refine ⟨v, [], h.paused hmoved ?_ (fun _ => rfl) (.inl hid), ?_, .nil (.refl v)⟩
      · rw [resting, hnone]
        exact .refl _
      · rw [joiner, hnone]
        exact hquiet
  | @finished m _ hid _ hends hawake hmoved _ hwake =>
      have hcurrent := h.current_eq hs hid
      obtain ⟨ids, hwakes⟩ := hmoved.standing.wakes_of_wakeWaiter hwake
      rw [hexiting] at hends
      refine ⟨m, ids, h.paused hmoved ?_ (fun _ => rfl) (.inr (.inl ?_)), ?_, hwakes⟩
      · simp [resting_of_current hcurrent, hends]
      · rw [hmoved.self]
        rfl
      · rw [joiner_of_current hcurrent, if_pos hends]
        rw [hself] at hwake
        exact hmoved.standing.roused_wakeWaiter hwake
  | asleep hid _ hstays hasleep hmoved _ =>
      have hcurrent := h.current_eq hs hid
      rw [hexiting] at hstays
      refine ⟨v, [], h.paused hmoved ?_ (fun _ => rfl) (.inr (.inr (.inl ?_))), ?_, .nil (.refl v)⟩
      · have hresting : s.resting = [id] := by
          simp [resting_of_current hcurrent, hstays, ← hsleeping, hasleep]
        rw [hresting]
        exact (perm_bedded u id s.sleepers).symm
      · rw [hmoved.self]
        exact ⟨rfl, of_decide_eq_true hasleep⟩
      · simpa [joiner_of_current hcurrent, hstays] using hquiet
  | requeued hid _ hstays hawake hmoved _ =>
      have hcurrent := h.current_eq hs hid
      rw [hexiting] at hstays
      refine ⟨v, [], h.paused hmoved ?_ (fun _ => rfl) (.inr (.inr (.inr ?_))), ?_, .nil (.refl v)⟩
      · simp [resting_of_current hcurrent, ← hsleeping, hawake]
      · rw [TaskRecord.isSleeping, decide_eq_false_iff_not] at hawake
        rw [hmoved.self]
        exact ⟨rfl, Int.not_lt.mp hawake⟩
      · simpa [joiner_of_current hcurrent, hstays] using hquiet

end CoopTasks.Scheduler

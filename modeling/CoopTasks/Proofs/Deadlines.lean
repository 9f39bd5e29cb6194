import CoopTasks.Proofs.Operations

/-!
The alarm is armed for the soonest deadline.

`Timely` is the invariant: the sleepers stand in the order of their deadlines,
and the alarm is armed for the first of these.  Within an operation it may be
broken, and `Armable` is what is left of it: the alarm is armed, if it is, for
some sleeper.  Arming the alarm anew takes `Armable` back to `Timely`.
-/

namespace CoopTasks.Scheduler

variable {H : Type} {s t u : Scheduler H} {id : TaskId} {run sleep : List TaskId}
variable {change : TaskRecord → TaskRecord}

/-! ## The order of the sleepers -/

def Ordered (s : Scheduler H) : Prop :=
  s.sleepers.Pairwise fun a b => (s.record a).wakeAt ≤ (s.record b).wakeAt

theorem Ordered.congr (h : s.Ordered) (hsub : t.sleepers.Sublist s.sleepers)
    (hwakeAt : ∀ id ∈ t.sleepers, (t.record id).wakeAt = (s.record id).wakeAt) : t.Ordered := by
  apply List.Pairwise.imp_of_mem _ (h.sublist hsub)
  intro a b ha hb hle
  rwa [hwakeAt a ha, hwakeAt b hb]

theorem Ordered.head_le (h : s.Ordered) {head : TaskId} (hhead : s.sleepers.head? = some head)
    (hid : id ∈ s.sleepers) : (s.record head).wakeAt ≤ (s.record id).wakeAt := by
  obtain ⟨rest, hrest⟩ := List.head?_eq_some_iff.mp hhead
  unfold Ordered at h
  rw [hrest, List.pairwise_cons] at h
  rw [hrest, List.mem_cons] at hid
  rcases hid with rfl | hid
  · exact Instant.le_iff.mpr (Nat.le_refl _)
  · exact h.1 id hid

theorem Ordered.split (h : s.Ordered) :
    ∃ timed untimed, s.sleepers = timed ++ untimed ∧
      (∀ id ∈ timed, (s.record id).wakeAt ≠ Instant.never) ∧
      ∀ id ∈ untimed, (s.record id).wakeAt = Instant.never := by
  unfold Ordered at h
  generalize s.sleepers = sleep at h
  induction sleep with
  | nil => exact ⟨[], [], rfl, by simp, by simp⟩
  | cons head rest ih =>
      rw [List.pairwise_cons] at h
      by_cases hnever : (s.record head).wakeAt = Instant.never
      · refine ⟨[], head :: rest, rfl, by simp, ?_⟩
        intro id hid
        rcases List.mem_cons.mp hid with rfl | hid
        · exact hnever
        · have hle := h.1 id hid
          have hlast := (s.record id).wakeAt.le_never
          rw [hnever] at hle
          rw [Instant.le_iff] at hle hlast
          exact Instant.ext_iff_toNat.mpr (by omega)
      · obtain ⟨timed, untimed, hsplit, htimed, huntimed⟩ := ih h.2
        refine ⟨head :: timed, untimed, by rw [hsplit, List.cons_append], ?_, huntimed⟩
        intro id hid
        rcases List.mem_cons.mp hid with rfl | hid
        · exact hnever
        · exact htimed id hid

theorem pairwise_bedded
    (h : sleep.Pairwise fun a b => (s.record a).wakeAt ≤ (s.record b).wakeAt) :
    (s.bedded id sleep).Pairwise fun a b => (s.record a).wakeAt ≤ (s.record b).wakeAt := by
  unfold bedded
  split
  · rename_i hnever
    rw [Instant.isNever_iff] at hnever
    rw [List.pairwise_append]
    refine ⟨h, List.pairwise_singleton _ _, ?_⟩
    intro a _ b hb
    rw [List.mem_singleton] at hb
    rw [hb, hnever]
    exact (s.record a).wakeAt.le_never
  · unfold TaskQueue.Represents.insertedByKey
    induction sleep with
    | nil => exact List.pairwise_singleton _ _
    | cons head rest ih =>
        rw [List.pairwise_cons] at h
        by_cases hle : (s.record id).wakeAt ≤ (s.record head).wakeAt
        · rw [List.takeWhile_cons, List.dropWhile_cons]
          simp only [hle, decide_true, Bool.not_true, Bool.false_eq_true, if_false,
            List.nil_append]
          rw [List.pairwise_cons]
          refine ⟨?_, List.pairwise_cons.mpr h⟩
          intro b hb
          rcases List.mem_cons.mp hb with rfl | hb
          · exact hle
          · have := h.1 b hb
            rw [Instant.le_iff] at *
            omega
        · rw [List.takeWhile_cons, List.dropWhile_cons]
          simp only [hle, decide_false, Bool.not_false, if_true, List.cons_append]
          rw [List.pairwise_cons]
          refine ⟨?_, ih h.2⟩
          intro b hb
          have hperm := perm_insertedByKey (fun other => (s.record other).wakeAt) id rest
          rcases List.mem_cons.mp (hperm.mem_iff.mp hb) with rfl | hb
          · rw [Instant.le_iff] at *
            omega
          · exact h.1 b hb

/-! ## The soonest deadline -/

def soonest (s : Scheduler H) : Option Instant :=
  (s.sleepers.head?.map fun id => (s.record id).wakeAt).filter fun d => !d.isNever

theorem soonest_eq_some {deadline : Instant} :
    s.soonest = some deadline ↔
      ∃ head, s.sleepers.head? = some head ∧ (s.record head).wakeAt = deadline ∧
        deadline ≠ Instant.never := by
  unfold soonest
  rw [Option.filter_eq_some_iff, Option.map_eq_some_iff, Bool.not_eq_true', Bool.eq_false_iff,
    ne_eq, Instant.isNever_iff]
  constructor
  · rintro ⟨⟨head, hhead, hdeadline⟩, hnever⟩
    exact ⟨head, hhead, hdeadline, hnever⟩
  · rintro ⟨head, hhead, hdeadline, hnever⟩
    exact ⟨⟨head, hhead, hdeadline⟩, hnever⟩

theorem soonest_congr (hsleepers : t.sleepers = s.sleepers)
    (hwakeAt : ∀ m ∈ s.sleepers, (t.record m).wakeAt = (s.record m).wakeAt) :
    t.soonest = s.soonest := by
  unfold soonest
  rw [hsleepers]
  cases hhead : s.sleepers.head? with
  | none => rfl
  | some head =>
      rw [Option.map_some, Option.map_some, hwakeAt head (List.mem_of_head? hhead)]

theorem Ordered.soonest_eq_some_iff (h : s.Ordered) {deadline : Instant} :
    s.soonest = some deadline ↔ deadline ≠ Instant.never ∧
      (∃ m ∈ s.sleepers, (s.record m).wakeAt = deadline) ∧
        ∀ m ∈ s.sleepers, deadline ≤ (s.record m).wakeAt := by
  rw [soonest_eq_some]
  constructor
  · rintro ⟨head, hhead, rfl, hfinite⟩
    exact ⟨hfinite, ⟨head, List.mem_of_head? hhead, rfl⟩, fun m hm => h.head_le hhead hm⟩
  · rintro ⟨hfinite, ⟨m, hm, rfl⟩, hleast⟩
    obtain ⟨head, hhead⟩ : ∃ head, s.sleepers.head? = some head :=
      ⟨_, List.head?_eq_some_head (List.ne_nil_of_mem hm)⟩
    have hle := h.head_le hhead hm
    have hge := hleast head (List.mem_of_head? hhead)
    rw [Instant.le_iff] at hle hge
    exact ⟨head, hhead, Instant.ext_iff_toNat.mpr (by omega), hfinite⟩

structure Timely (s : Scheduler H) : Prop where
  ordered : s.Ordered
  armed : s.armed = s.soonest

structure Armable (s : Scheduler H) : Prop where
  ordered : s.Ordered
  armed : ∀ deadline, s.armed = some deadline →
    deadline ≠ Instant.never ∧ ∃ id ∈ s.sleepers, (s.record id).wakeAt = deadline

/-- The task of a slot sleeps until a deadline. -/
structure SleepsUntil (s : Scheduler H) (slot : Nat) (deadline : Instant) : Prop where
  task : slot ≠ 0
  index_lt : slot < slotCount
  asleep : (s.tasks.record slot).state = .sleeping
  wakeAt : (s.tasks.record slot).wakeAt = deadline

theorem Standing.sleepsUntil_iff (h : s.Standing) {slot : Nat} {deadline : Instant} :
    s.SleepsUntil slot deadline ↔
      ∃ id ∈ s.sleepers, id.index = slot ∧ (s.record id).wakeAt = deadline := by
  constructor
  · intro hsleeps
    have hslot : slot ∈ slots := mem_slots.mpr ⟨hsleeps.task, hsleeps.index_lt⟩
    refine ⟨s.idOf slot, h.mem_sleepers hslot hsleeps.asleep, s.index_idOf hsleeps.index_lt, ?_⟩
    rw [s.record_idOf hsleeps.index_lt]
    exact hsleeps.wakeAt
  · rintro ⟨id, hid, rfl, hwakeAt⟩
    obtain ⟨htask, hasleep⟩ := h.asleep id hid
    exact ⟨htask, h.index_lt (List.mem_append_right _ hid), hasleep, hwakeAt⟩

theorem Timely.armed_eq_some_iff (h : s.Timely) (hs : s.Standing) {deadline : Instant} :
    s.armed = some deadline ↔
      deadline ≠ Instant.never ∧ (∃ slot, s.SleepsUntil slot deadline) ∧
        ∀ slot other, s.SleepsUntil slot other → deadline ≤ other := by
  rw [h.armed, h.ordered.soonest_eq_some_iff]
  refine and_congr_right fun _ => and_congr ⟨?_, ?_⟩ ⟨?_, ?_⟩
  · rintro ⟨m, hm, hwakeAt⟩
    exact ⟨m.index, hs.sleepsUntil_iff.mpr ⟨m, hm, rfl, hwakeAt⟩⟩
  · rintro ⟨slot, hslot⟩
    obtain ⟨m, hm, _, hwakeAt⟩ := hs.sleepsUntil_iff.mp hslot
    exact ⟨m, hm, hwakeAt⟩
  · intro hleast slot other hother
    obtain ⟨m, hm, _, rfl⟩ := hs.sleepsUntil_iff.mp hother
    exact hleast m hm
  · intro hleast m hm
    exact hleast m.index _ (hs.sleepsUntil_iff.mpr ⟨m, hm, rfl, rfl⟩)

theorem Timely.armed_eq_none_iff (h : s.Timely) (hs : s.Standing) :
    s.armed = none ↔ ∀ slot deadline, s.SleepsUntil slot deadline → deadline = Instant.never := by
  constructor
  · intro hnone slot deadline hslot
    obtain ⟨id, hid, _, hwakeAt⟩ := hs.sleepsUntil_iff.mp hslot
    by_cases hfinite : deadline = Instant.never
    · exact hfinite
    · -- the first sleeper is no later, so the alarm would be armed for it
      cases hhead : s.sleepers.head? with
      | none =>
          rw [List.head?_eq_none_iff.mp hhead] at hid
          simp at hid
      | some head =>
          have hle := h.ordered.head_le hhead hid
          rw [hwakeAt, Instant.le_iff] at hle
          have hlast := deadline.le_never
          rw [Instant.le_iff] at hlast
          have hsoonest : s.soonest = some (s.record head).wakeAt := by
            refine soonest_eq_some.mpr ⟨head, hhead, rfl, ?_⟩
            intro hnever
            rw [hnever] at hle
            exact hfinite (Instant.ext_iff_toNat.mpr (by omega))
          rw [h.armed, hsoonest] at hnone
          contradiction
  · intro hall
    cases harmed : s.armed with
    | none => rfl
    | some deadline =>
        obtain ⟨hfinite, ⟨slot, hslot⟩, _⟩ := (h.armed_eq_some_iff hs).mp harmed
        exact absurd (hall slot deadline hslot) hfinite

theorem Timely.congr (h : s.Timely) (hsleepers : t.sleepers = s.sleepers)
    (hwakeAt : ∀ id ∈ s.sleepers, (t.record id).wakeAt = (s.record id).wakeAt)
    (harmed : t.armed = s.armed) : t.Timely := by
  constructor
  · apply h.ordered.congr
    · simp only [hsleepers, List.Sublist.refl]
    · rw [hsleepers]
      exact hwakeAt
  · rw [harmed, h.armed, soonest_congr hsleepers hwakeAt]

theorem timely_new (hardware : H) : (new hardware).Timely := by
  have hsleepers : (new hardware).sleepers = [] := (placed_new hardware).sleepers_eq
  constructor
  · unfold Ordered
    rw [hsleepers]
    exact List.Pairwise.nil
  · unfold soonest
    rw [hsleepers]
    rfl

theorem Timely.armable (h : s.Timely) : s.Armable := by
  refine ⟨h.ordered, ?_⟩
  intro deadline hdeadline
  rw [h.armed] at hdeadline
  obtain ⟨head, hhead, hwakeAt, hnever⟩ := soonest_eq_some.mp hdeadline
  exact ⟨hnever, head, List.mem_of_head? hhead, hwakeAt⟩

theorem Armable.of_none (h : s.Ordered) (harmed : s.armed = none) : s.Armable := by
  refine ⟨h, ?_⟩
  intro deadline hdeadline
  rw [harmed] at hdeadline
  contradiction

theorem Moved.timely (h : Moved s id change run s.sleepers t) (hs : s.Timely)
    (hwakeAt : (∀ r, (change r).wakeAt = r.wakeAt) ∨ ∀ m ∈ s.sleepers, m.index ≠ id.index) :
    t.Timely := by
  apply hs.congr h.sleepers _ h.armed
  intro m hm
  rcases hwakeAt with hwakeAt | hwakeAt
  · exact h.field TaskRecord.wakeAt hwakeAt m.index
  · exact congrArg TaskRecord.wakeAt (h.other (hwakeAt m hm))

theorem Dispatched.timely {decision : Decision} (h : Dispatched s t decision) (hs : s.Timely) :
    t.Timely := by
  cases h with
  | resumed _ _ hmoved _ => exact hmoved.timely hs (.inl fun _ => rfl)
  | drained _ hsleepers _ hmoved _ =>
      rw [← hsleepers] at hmoved
      exact hmoved.timely hs (.inl fun _ => rfl)
  | idle _ _ => exact hs

theorem Attempted.timely {w w' : Signal} {result : WaitResult} (h : Attempted s w t w' result)
    (hs : s.Standing) (htimely : s.Timely) : t.Timely := by
  cases h with
  | acquired _ => exact htimely
  | parked hcurrent _ _ _ _ hmoved _ =>
      exact hmoved.timely htimely (.inr (hs.current_awake hcurrent))
  | busy _ _ _ _ _ => exact htimely

/-! ## Wakes -/

theorem Standing.nodup_sleepers (h : s.Standing) : s.sleepers.Nodup :=
  List.Pairwise.of_map _ (fun _ _ hne he => hne (congrArg TaskId.index he)) h.timers.nodup

theorem Standing.nodup_runQueue (h : s.Standing) : s.runQueue.Nodup :=
  List.Pairwise.of_map _ (fun _ _ hne he => hne (congrArg TaskId.index he)) h.ready.nodup

theorem Woke.record_sleeper (h : Woke s id t) (hs : s.Standing) {m : TaskId}
    (hm : m ∈ t.sleepers) : m ∈ s.sleepers ∧ t.record m = s.record m := by
  rw [h.sleepers, hs.nodup_sleepers.mem_erase_iff] at hm
  refine ⟨hm.2, (h.record m.index).trans (if_neg fun he => hm.1 (TaskId.ext_of_index he ?_))⟩
  rw [hs.generation m (List.mem_append_right _ hm.2), h.current]
  unfold Scheduler.record
  rw [he]

theorem Woke.wakeAt (h : Woke s id t) (hs : s.Standing) {m : TaskId} (hm : m ∈ t.sleepers) :
    (t.record m).wakeAt = (s.record m).wakeAt :=
  congrArg TaskRecord.wakeAt (h.record_sleeper hs hm).2

theorem Woke.ordered (h : Woke s id t) (hs : s.Standing) (hordered : s.Ordered) : t.Ordered := by
  apply hordered.congr
  · rw [h.sleepers]
    exact List.erase_sublist
  · intro m hm
    exact h.wakeAt hs hm

theorem Ordered.soonest_eq_none (h : s.Ordered) {head : TaskId}
    (hhead : s.sleepers.head? = some head) (hnever : (s.record head).wakeAt = Instant.never)
    (hsub : t.sleepers.Sublist s.sleepers)
    (hwakeAt : ∀ id ∈ t.sleepers, (t.record id).wakeAt = (s.record id).wakeAt) :
    t.soonest = none := by
  cases hsoonest : t.soonest with
  | none => rfl
  | some deadline =>
      obtain ⟨id, hid, hdeadline, hfinite⟩ := soonest_eq_some.mp hsoonest
      have hmem := List.mem_of_head? hid
      have hle := h.head_le hhead (hsub.subset hmem)
      rw [hnever, ← hwakeAt id hmem, hdeadline] at hle
      have hlast := deadline.le_never
      rw [Instant.le_iff] at hle hlast
      exact absurd (Instant.ext_iff_toNat.mpr (by omega)) hfinite

theorem Woke.soonest (h : Woke s id t) (hs : s.Standing) (hhead : s.sleepers.head? ≠ some id) :
    t.soonest = s.soonest := by
  unfold Scheduler.soonest
  cases hfirst : s.sleepers with
  | nil =>
      rw [h.sleepers, hfirst, List.erase_nil]
      rfl
  | cons head rest =>
      rw [hfirst, List.head?_cons, ne_eq, Option.some.injEq] at hhead
      have hsleepers : t.sleepers = head :: rest.erase id := by
        rw [h.sleepers, hfirst, List.erase_cons_tail (by simpa using hhead)]
      have hwakeAt := h.wakeAt hs (m := head) (by rw [hsleepers]; exact List.mem_cons_self)
      rw [hsleepers, List.head?_cons, List.head?_cons, Option.map_some, Option.map_some, hwakeAt]

theorem AlarmMoved.ordered (h : AlarmMoved s t) (hordered : s.Ordered) : t.Ordered := by
  apply hordered.congr
  · simp only [h.sleepers_eq, List.Sublist.refl]
  · intro m _
    unfold record
    rw [h.tasks]

theorem Expired.ordered {now : Instant} {ids : List TaskId} (h : Expired now s ids t)
    (hs : s.Standing) (hordered : s.Ordered) : t.Ordered := by
  induction h with
  | empty _ => exact hordered
  | later _ _ => exact hordered
  | due _ _ _ hwoke _ ih => exact ih hwoke.standing (hwoke.ordered hs hordered)

variable [Hardware H]

theorem Rearmed.timely {ids : List TaskId} (h : Rearmed s ids t) (hs : s.Standing)
    (harmable : s.Armable) : t.Timely := by
  induction h with
  | @empty s hempty =>
      refine ⟨harmable.ordered, ?_⟩
      cases harmed : s.armed with
      | none => rw [soonest, hempty]; rfl
      | some deadline =>
          obtain ⟨_, id, hid, _⟩ := harmable.armed deadline harmed
          rw [hempty] at hid
          simp at hid
  | @kept s head hhead hkept =>
      refine ⟨harmable.ordered, ?_⟩
      rw [Bool.or_eq_true, Instant.isNever_iff] at hkept
      cases harmed : s.armed with
      | none =>
          rw [armedBy, harmed] at hkept
          have hnever := hkept.resolve_right (by simp)
          cases hsoonest : s.soonest with
          | none => rfl
          | some deadline =>
              obtain ⟨head', hhead', hwakeAt, hfinite⟩ := soonest_eq_some.mp hsoonest
              obtain rfl := Option.some.inj (hhead.symm.trans hhead')
              exact absurd (hwakeAt.symm.trans hnever) hfinite
      | some deadline =>
          -- the alarm is armed for a sleeper, and none is sooner than the first
          obtain ⟨hfinite, id, hid, hwakeAt⟩ := harmable.armed deadline harmed
          have hle := harmable.ordered.head_le hhead hid
          rw [hwakeAt] at hle
          have heq : (s.record head).wakeAt = deadline := by
            have hlast := deadline.le_never
            rw [Instant.ext_iff_toNat]
            rcases hkept with hnever | hkept
            · rw [hnever] at hle ⊢
              rw [Instant.le_iff] at hle hlast
              omega
            · rw [armedBy, harmed, Option.any_some, decide_eq_true_iff] at hkept
              rw [Instant.le_iff] at hle hkept
              omega
          exact (soonest_eq_some.mpr ⟨head, hhead, heq, hfinite⟩).symm
  | @accepted s head hardware hhead hkept hset =>
      have hmoved : AlarmMoved s ({ s with
          hardware, armed := some (s.record head).wakeAt }.note
            (.alarmArmed head (s.record head).wakeAt)) := ⟨rfl, rfl, rfl, rfl, rfl⟩
      refine ⟨hmoved.ordered harmable.ordered, ?_⟩
      rw [Bool.or_eq_false_iff, Bool.eq_false_iff, ne_eq, Instant.isNever_iff] at hkept
      exact (soonest_eq_some (s := s).mpr ⟨head, hhead, rfl, hkept.1⟩).symm
  | @refused s v u head hardware ids hhead hstate hkept hset hwoke hrest ih =>
      have hmoved := alarmMoved s hardware none
      have hordered := hwoke.ordered (hmoved.standing hs) (hmoved.ordered harmable.ordered)
      exact ih hwoke.standing (.of_none hordered hwoke.armed)

theorem Timely.wake (h : s.Timely) (hs : s.Standing) (hok : s.wake id = .ok t) : t.Timely := by
  obtain ⟨_, u, hwoke, ⟨hother, rfl⟩ | ⟨_, ids, hrearmed⟩⟩ := hs.wake hok
  · refine ⟨hwoke.ordered hs h.ordered, ?_⟩
    rw [hwoke.armed, h.armed]
    by_cases hhead : s.sleepers.head? = some id
    · have hnever : (s.record id).wakeAt = Instant.never := by
        by_cases hnever : (s.record id).wakeAt = Instant.never
        · exact hnever
        · rw [h.armed] at hother
          exact absurd ⟨hhead, soonest_eq_some.mpr ⟨id, hhead, rfl, hnever⟩⟩ hother
      have hsub : t.sleepers.Sublist s.sleepers := by
        rw [hwoke.sleepers]
        exact List.erase_sublist
      rw [h.ordered.soonest_eq_none hhead hnever hsub fun _ hm => hwoke.wakeAt hs hm]
      exact h.ordered.soonest_eq_none hhead hnever (List.Sublist.refl _) fun _ _ => rfl
    · exact (hwoke.soonest hs hhead).symm
  · have hmoved := alarmMoved u (Hardware.clearAlarm u.hardware) none
    have hordered := hmoved.ordered (hwoke.ordered hs h.ordered)
    exact hrearmed.timely (hmoved.standing hwoke.standing) (.of_none hordered rfl)

theorem Timely.wakeWaiter (h : s.Timely) (hs : s.Standing) {waiter : Option TaskId}
    (hok : s.wakeWaiter waiter = .ok t) : t.Timely := by
  cases waiter with
  | none =>
      obtain rfl := Except.ok.inj hok
      exact h
  | some id => exact h.wake hs hok

theorem Timely.handleAlarm (h : s.Timely) (hs : s.Standing) (hok : s.handleAlarm = .ok t) :
    t.Timely := by
  obtain ⟨_, u, ids, more, hexpired, hrearmed⟩ := hs.handleAlarm hok
  have hmoved := alarmMoved s s.hardware none
  have hordered := hexpired.ordered (hmoved.standing hs) (hmoved.ordered h.ordered)
  exact hrearmed.timely (hexpired.standing (hmoved.standing hs))
    (.of_none hordered hexpired.alarm_kept.1)

/-! ## Switches -/

theorem Suspended.timely {pointer : Address} (h : Suspended s pointer id run t)
    (hs : s.Timely) : t.Timely := by
  apply hs.congr h.placed.sleepers_eq _ h.armed
  intro m _
  refine (congrArg TaskRecord.wakeAt (h.record m.index)).trans ?_
  split <;> rfl

/-- A task that has gone to sleep may have the soonest deadline, and the alarm is not yet
armed for it. -/
theorem Settled.armable (h : Settled s id run s.sleepers t) (hs : s.Timely) : t.Armable := by
  cases h with
  | parked _ hmoved _ => exact (hmoved.timely hs (.inl fun _ => rfl)).armable
  | finished _ _ _ _ hmoved _ hwake =>
      exact ((hmoved.timely hs (.inl fun _ => rfl)).wakeWaiter hmoved.standing hwake).armable
  | asleep _ _ _ _ hmoved _ =>
      have hwakeAt : ∀ m : TaskId, (t.record m).wakeAt = (s.record m).wakeAt := by
        intro m
        exact hmoved.field TaskRecord.wakeAt (fun _ => rfl) m.index
      constructor
      · unfold Ordered
        rw [hmoved.sleepers]
        simp only [hwakeAt]
        exact pairwise_bedded hs.ordered
      · intro deadline hdeadline
        rw [hmoved.armed] at hdeadline
        obtain ⟨hfinite, m, hm, hdue⟩ := hs.armable.armed deadline hdeadline
        refine ⟨hfinite, m, ?_, (hwakeAt m).trans hdue⟩
        rw [hmoved.sleepers, (s.perm_bedded id s.sleepers).mem_iff]
        exact List.mem_cons_of_mem id hm
  | requeued _ _ _ _ hmoved _ => exact (hmoved.timely hs (.inl fun _ => rfl)).armable

theorem Switched.timely {pointer : Address} {decision : Decision} {rest woken : List TaskId}
    {u v w : Scheduler H} (h : Switched s pointer t decision id rest woken u v w)
    (hs : s.Timely) : t.Timely := by
  have hu := h.suspended.timely hs
  have hsettled := h.settled
  rw [← h.suspended.placed.sleepers_eq] at hsettled
  have hw := h.rearmed.timely h.standing.1 (hsettled.armable hu)
  exact h.dispatched.timely hw

/-! ## All operations -/

theorem Started.record_sleeper {stack : StackRange} {pointer : Address}
    (h : Started s stack pointer id t) (hs : s.Standing) {m : TaskId} (hm : m ∈ s.sleepers) :
    t.record m = s.record m := by
  obtain ⟨hindex, hasleep⟩ := hs.asleep m hm
  apply h.other m.index hindex
  intro he
  have hgone := h.gone
  unfold Scheduler.record at hasleep hgone
  rw [he] at hasleep
  rcases hgone with hgone | hgone <;> rw [hasleep] at hgone <;> contradiction

theorem Started.timely {stack : StackRange} {pointer : Address}
    (h : Started s stack pointer id t) (hs : s.Standing) (htimely : s.Timely) : t.Timely :=
  htimely.congr h.sleepers (fun _ hm => congrArg TaskRecord.wakeAt (h.record_sleeper hs hm))
    h.armed

theorem Performed.timely {op : Operation} {decision : Option Decision}
    (h : Performed s op t decision) (hs : s.Standing) (htimely : s.Timely) : t.Timely := by
  cases h with
  | refused => exact htimely
  | started hstarted => exact hstarted.timely hs htimely
  | switched hswitched => exact hswitched.timely htimely
  | dispatched hdispatched => exact hdispatched.timely htimely
  | exiting _ _ hmoved => exact hmoved.timely htimely (.inl fun _ => rfl)
  | asleep hcurrent _ hmoved => exact hmoved.timely htimely (.inr (hs.current_awake hcurrent))
  | woken hwake => exact htimely.wake hs hwake
  | posted hwake => exact htimely.wakeWaiter hs hwake
  | attempted hattempted => exact hattempted.timely hs htimely
  | joined hattempted _ hmoved =>
      exact hmoved.timely (hattempted.timely hs htimely) (.inl fun _ => rfl)
  | tried _ hmoved => exact hmoved.timely htimely (.inl fun _ => rfl)
  | handled halarm => exact htimely.handleAlarm hs halarm

end CoopTasks.Scheduler

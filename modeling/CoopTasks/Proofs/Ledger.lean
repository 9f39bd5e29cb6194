import CoopTasks.Proofs.SleepCounts

/-!
The ledger of sleeps and wakes.

`Logged s phase log t phase'` is a run in which whoever executes sleeps at most
once before it switches, and nobody does anything but interrupts while there is
nobody to execute.  Its log says, latest first, who was started, who went to
sleep, and to whom a wake was delivered.  The sleep count of a task is the
balance of the entries that it has there since its start.
-/

namespace CoopTasks

/-! ## Entries -/

inductive Mark where
  | started
  | slept
  | woken
  deriving DecidableEq, Repr

structure LedgerEntry where
  mark : Mark
  id : TaskId
  deriving DecidableEq, Repr

namespace LedgerEntry

open Scheduler (OfSlot)

variable {slot : Nat} {mark : Mark} {ids : List TaskId} {entry : LedgerEntry}
variable {log later : List LedgerEntry}

def OfTask (slot : Nat) (entry : LedgerEntry) : Bool :=
  OfSlot slot entry.id

/-- The entries for a slot since its last start, in a log with the latest entry first. -/
def sinceStart (slot : Nat) (log : List LedgerEntry) : List LedgerEntry :=
  (log.filter (OfTask slot)).takeWhile fun entry => decide (entry.mark ≠ .started)

def number (mark : Mark) (slot : Nat) (log : List LedgerEntry) : Nat :=
  (sinceStart slot log).countP fun entry => decide (entry.mark = mark)

def balance (slot : Nat) (log : List LedgerEntry) : Int :=
  number .slept slot log - number .woken slot log

def NoStart (slot : Nat) (log : List LedgerEntry) : Prop :=
  ∀ entry ∈ log, entry.id.index = slot → entry.mark ≠ .started

theorem NoStart.of_map (hmark : mark ≠ .started) (ids : List TaskId) :
    NoStart slot (ids.map (LedgerEntry.mk mark)) := by
  intro entry hentry _
  obtain ⟨id, _, rfl⟩ := List.mem_map.mp hentry
  exact hmark

theorem noStart_woken (ids : List TaskId) : NoStart slot (ids.map (LedgerEntry.mk .woken)) :=
  .of_map (by decide) ids

theorem sinceStart_started {id : TaskId} (hid : id.index = slot) :
    sinceStart slot (⟨.started, id⟩ :: log) = [] := by
  have hslot : OfTask slot ⟨.started, id⟩ = true := decide_eq_true hid
  rw [sinceStart, List.filter_cons_of_pos hslot, List.takeWhile_cons]
  rfl

theorem sinceStart_other (hid : entry.id.index ≠ slot) :
    sinceStart slot (entry :: log) = sinceStart slot log := by
  have hslot : ¬OfTask slot entry = true := fun he => hid (of_decide_eq_true he)
  rw [sinceStart, List.filter_cons_of_neg hslot]
  rfl

theorem sinceStart_append (h : NoStart slot later) :
    sinceStart slot (later ++ log) = later.filter (OfTask slot) ++ sinceStart slot log := by
  rw [sinceStart, List.filter_append, List.takeWhile_append_of_pos]
  · rfl
  · intro entry hentry
    obtain ⟨hmem, hslot⟩ := List.mem_filter.mp hentry
    exact decide_eq_true (h entry hmem (of_decide_eq_true hslot))

theorem sinceStart_of_noStart (h : NoStart slot later) :
    sinceStart slot later = later.filter (OfTask slot) := by
  have happend : sinceStart slot (later ++ []) = _ := sinceStart_append h
  rw [List.append_nil] at happend
  exact happend.trans (List.append_nil _)

theorem number_append (h : NoStart slot later) :
    number mark slot (later ++ log) = number mark slot later + number mark slot log := by
  rw [number, sinceStart_append h, List.countP_append, ← sinceStart_of_noStart h]
  rfl

theorem number_map {mark' : Mark} (hmark : mark ≠ .started) (ids : List TaskId) :
    number mark' slot (ids.map (LedgerEntry.mk mark)) =
      if mark = mark' then ids.countP (OfSlot slot) else 0 := by
  rw [number, sinceStart_of_noStart (.of_map hmark ids), List.countP_filter, List.countP_map]
  split
  · rename_i he
    refine List.countP_congr fun id _ => ?_
    simp [OfTask, he]
  · rename_i hne
    refine List.countP_eq_zero.mpr fun id _ => ?_
    simp [hne]

theorem balance_append (h : NoStart slot later) :
    balance slot (later ++ log) = balance slot later + balance slot log := by
  rw [balance, number_append h, number_append h, balance, balance]
  omega

theorem balance_woken (ids : List TaskId) :
    balance slot (ids.map (LedgerEntry.mk .woken)) = -(ids.countP (OfSlot slot) : Int) := by
  have hmark : Mark.woken ≠ .started := by decide
  rw [balance, number_map hmark, number_map hmark, if_neg (by decide), if_pos rfl]
  omega

theorem balance_slept (id : TaskId) :
    balance slot [⟨.slept, id⟩] = if id.index = slot then 1 else 0 := by
  have hmark : Mark.slept ≠ .started := by decide
  change balance slot ([id].map (LedgerEntry.mk .slept)) = _
  rw [balance, number_map hmark, number_map hmark, if_pos rfl, if_neg (by decide),
    List.countP_singleton]
  by_cases he : id.index = slot
  · simp [OfSlot, he]
  · simp [OfSlot, he]

end LedgerEntry

/-- Whether somebody executes, and then whether it has gone to sleep since the last switch. -/
inductive Phase where
  | awake
  | drowsy
  | idle
  deriving DecidableEq, Repr

def Decision.phase : Decision → Phase
  | .resume _ => .awake
  | .idle => .idle

namespace Scheduler

open LedgerEntry

variable {H : Type} {s t u v : Scheduler H} {id : TaskId} {rest : List TaskId}
variable {log later : List LedgerEntry} {phase now : Phase} {slot : Nat}

/-! ## Runs -/

variable [Hardware H]

/--
A run with its log.  Whoever executes sleeps at most once before it switches,
and while nobody executes there are only interrupts and attempts to dispatch.
-/
inductive Logged (s : Scheduler H) (phase : Phase) :
    List LedgerEntry → Scheduler H → Phase → Prop
  | none : Logged s phase [] s phase
  | elapse {log : List LedgerEntry} {t : Scheduler H} {now : Phase} {hardware : H} :
      Logged s phase log t now →
      Logged s phase log { t with hardware } now
  | started {log : List LedgerEntry} {t u : Scheduler H} {now : Phase} {stack : StackRange}
      {pointer : Address} {id : TaskId} :
      Logged s phase log t now →
      now ≠ .idle →
      t.spawn stack pointer = .ok (u, .ok id) →
      Logged s phase (⟨.started, id⟩ :: log) u now
  | refused {log : List LedgerEntry} {t u : Scheduler H} {now : Phase} {stack : StackRange}
      {pointer : Address} {reason : StartError} :
      Logged s phase log t now →
      now ≠ .idle →
      t.spawn stack pointer = .ok (u, .error reason) →
      Logged s phase log u now
  | slept {log : List LedgerEntry} {t u : Scheduler H} {id : TaskId} :
      Logged s phase log t .awake →
      t.current = some id →
      FallsAsleep t u →
      Logged s phase (⟨.slept, id⟩ :: log) u .drowsy
  | stayed {log : List LedgerEntry} {t u : Scheduler H} {now : Phase} :
      Logged s phase log t now →
      now ≠ .idle →
      StaysAwake t u →
      Logged s phase log u now
  | interrupted {log : List LedgerEntry} {t u : Scheduler H} {now : Phase} {op : Operation}
      {decision : Option Decision} :
      Logged s phase log t now →
      op.interrupts = true →
      t.perform op = .ok (u, decision) →
      Logged s phase ((delivered op.calls t.sleepers u).map (LedgerEntry.mk .woken) ++ log) u now
  | switched {log : List LedgerEntry} {t u : Scheduler H} {now : Phase} {pointer : Address}
      {decision : Decision} :
      Logged s phase log t now →
      now ≠ .idle →
      t.reschedule pointer = .ok (u, decision) →
      Logged s phase
        ((delivered t.joiner (t.resting ++ t.sleepers) u).map (LedgerEntry.mk .woken) ++ log) u
        decision.phase
  | dispatched {log : List LedgerEntry} {t u : Scheduler H} {decision : Decision} :
      Logged s phase log t .idle →
      t.dispatch = .ok (u, decision) →
      Logged s phase log u decision.phase

structure Balanced (log : List LedgerEntry) (s : Scheduler H) (phase : Phase) : Prop where
  standing : s.Standing
  manned : phase ≠ .idle → s.Manned
  inStep : s.InStep (phase = .drowsy)
  count : ∀ slot ∈ slots, (s.tasks.record slot).state ≠ .vacant →
    (s.tasks.record slot).sleepCount = balance slot log

omit [Hardware H] in
theorem balanced_new (hardware : H) : Balanced [] (new hardware) .awake := by
  have hvacant : ∀ slot, (new hardware).tasks.record slot = TaskRecord.vacant :=
    fun slot => TaskTable.record_vacant slot
  have hs := standing_new hardware
  have hrun : (new hardware).runQueue = [] := (placed_new hardware).runQueue_eq
  refine ⟨hs, fun _ => ⟨fun _ => (placed_new hardware).sleepers_eq, ?_⟩, ?_, ?_⟩
  · intro id hhead
    rw [hrun] at hhead
    contradiction
  · intro slot _
    rw [hvacant]
    exact ⟨by decide, nofun, nofun, nofun⟩
  · intro slot _ hne
    exact absurd (congrArg TaskRecord.state (hvacant slot)) hne

omit [Hardware H] in
theorem Balanced.extend (h : Balanced log s phase) (ht : t.Standing)
    (hmanned : now ≠ .idle → t.Manned) (hstep : t.InStep (now = .drowsy))
    (hvacant : ∀ slot ∈ slots, (t.tasks.record slot).state = .vacant ↔
      (s.tasks.record slot).state = .vacant) (hstart : ∀ slot, NoStart slot later)
    (hcount : ∀ slot ∈ slots, (t.tasks.record slot).sleepCount =
      (s.tasks.record slot).sleepCount + balance slot later) :
    Balanced (later ++ log) t now := by
  refine ⟨ht, hmanned, hstep, fun slot hslot hne => ?_⟩
  rw [hcount slot hslot, h.count slot hslot (fun he => hne ((hvacant slot hslot).mpr he)),
    balance_append (hstart slot), Int.add_comm]

theorem Balanced.started (h : Balanced log s phase) {stack : StackRange} {pointer : Address}
    (hstarted : Started s stack pointer id t) :
    Balanced (⟨.started, id⟩ :: log) t phase := by
  refine ⟨hstarted.standing, fun hne => hstarted.manned h.standing (h.manned hne), ?_, ?_⟩
  · intro slot hslot
    by_cases he : slot = id.index
    · subst he
      rw [show t.tasks.record id.index = _ from hstarted.self]
      exact ⟨(by decide : sleepCountMin ≤ 0), nofun, fun _ => Int.le_refl 0, nofun⟩
    · rw [hstarted.record_other hslot he]
      exact h.inStep slot hslot
  · intro slot hslot hne
    by_cases he : id.index = slot
    · subst he
      rw [balance, number, number, sinceStart_started rfl,
        show t.tasks.record id.index = _ from hstarted.self]
      rfl
    · rw [hstarted.record_other hslot (Ne.symm he)] at hne ⊢
      rw [balance, number, number, sinceStart_other he]
      exact h.count slot hslot hne

omit [Hardware H] in
theorem Balanced.unswitched (h : Balanced log s phase) {slept : Nat}
    (ht : Unswitched s id slept t) (hphase : phase ≠ .idle)
    (hstep : t.InStep (now = .drowsy)) (hstart : ∀ slot, NoStart slot later)
    (hlater : ∀ slot, balance slot later = if id.index = slot then (slept : Int) else 0) :
    Balanced (later ++ log) t now := by
  refine h.extend ht.standing (fun _ => (h.manned hphase).congr ht.runQueue ht.sleepers ht.state)
    hstep (fun slot _ => ?_) hstart fun slot _ => ?_
  · rw [ht.state slot]
  · rw [ht.count slot, hlater slot]

omit [Hardware H] in
theorem Balanced.slept (h : Balanced log s .awake) (ht : Unswitched s id 1 t)
    (hcurrent : s.current = some id) : Balanced (⟨.slept, id⟩ :: log) t .drowsy := by
  refine h.unswitched ht nofun ?_ (fun slot => ?_) fun slot => balance_slept id
  · intro slot hslot
    have hcount := ht.count slot
    have hbefore := h.inStep slot hslot
    by_cases he : id.index = slot
    · subst he
      obtain ⟨hhead, hne, _⟩ := h.standing.current hcurrent
      have hrunning := (h.manned nofun).headRuns id hhead hne
      have hawake := (hbefore.mono (nofun : Phase.awake = .drowsy → False)).queued_awake
        (.inr hrunning)
      have hstate := (ht.state id.index).trans hrunning
      have hleast := hbefore.least
      rw [if_pos rfl] at hcount
      refine ⟨by omega, ?_, ?_, fun _ => ⟨by omega, fun _ => rfl⟩⟩ <;> rw [hstate] <;> exact nofun
    · rw [if_neg he, Int.add_zero] at hcount
      exact (hbefore.mono nofun).congr hcount (ht.state slot)
  · intro entry hentry _
    rw [List.mem_singleton.mp hentry]
    exact nofun

theorem Balanced.interrupted (h : Balanced log s phase) {op : Operation}
    {decision : Option Decision} (hperformed : Performed s op t decision)
    (hop : op.interrupts = true) :
    Balanced ((delivered op.calls s.sleepers t).map (LedgerEntry.mk .woken) ++ log) t phase := by
  have hs := h.standing
  have ht := hperformed.standing hs
  obtain ⟨ids, hwakes⟩ := hperformed.wakes hs hop
  refine h.extend ht (fun hne => (h.manned hne).wakes hs hwakes) (h.inStep.wakes hwakes)
    (fun slot hslot => (hwakes.lasts slot hslot).vacant) (fun _ => noStart_woken _)
    fun slot hslot => ?_
  rw [(hperformed.roused hs hop).sleepCount hs ht hslot (.refl _), balance_woken]
  rfl

omit [Hardware H] in
theorem Balanced.dispatched (h : Balanced log s .idle) {decision : Decision}
    (hdispatched : Dispatched s t decision) : Balanced log t decision.phase := by
  have hs := h.standing
  change Balanced ([] ++ log) t decision.phase
  refine h.extend (hdispatched.standing hs) (fun hne => hdispatched.manned ?_)
    (hdispatched.inStep hs fun slot hslot => (h.inStep slot hslot).mono nofun)
    (fun slot hslot => (hdispatched.lasts hs slot hslot).vacant) (fun _ => nofun)
    fun slot hslot => ?_
  · rintro rfl
    exact hne rfl
  · exact (hdispatched.sameSleep hs hslot).count.trans (Int.add_zero _).symm

theorem Switched.sleepCount {pointer : Address} {decision : Decision} {woken : List TaskId}
    {w : Scheduler H} (h : Switched s pointer t decision id rest woken u v w) (hs : s.Standing)
    (hslot : slot ∈ slots) :
    (t.tasks.record slot).sleepCount = (s.tasks.record slot).sleepCount -
      (delivered s.joiner (s.resting ++ s.sleepers) t).countP (OfSlot slot) := by
  obtain ⟨m, ids, hpaused, hroused, _⟩ := h.suspended.settled hs h.settled
  have hcount : (m.tasks.record slot).sleepCount = (s.tasks.record slot).sleepCount := by
    by_cases he : slot = id.index
    · subst he
      exact hpaused.count
    · rw [hpaused.other slot he]
  have hsleepers : delivered s.joiner (s.resting ++ s.sleepers) t =
      delivered s.joiner (s.resting ++ s.sleepers) w := by
    rw [delivered, h.dispatched.sleepers_eq]
    rfl
  rw [(h.dispatched.sameSleep h.standing.2.1 hslot).count, hsleepers, ← hcount]
  exact (hroused.trans h.rearmed.roused).sleepCount hpaused.standing h.standing.2.1 hslot
    hpaused.sleepers

theorem Balanced.switched (h : Balanced log s phase) {pointer : Address} {decision : Decision}
    {woken : List TaskId} {w : Scheduler H}
    (hswitched : Switched s pointer t decision id rest woken u v w) :
    Balanced ((delivered s.joiner (s.resting ++ s.sleepers) t).map (LedgerEntry.mk .woken) ++ log) t
      decision.phase := by
  have hs := h.standing
  have hbound := hswitched.bound hs
  obtain ⟨m, ids, hpaused, _, hwakes⟩ := hswitched.suspended.settled hs hswitched.settled
  have hstep : w.InStep False :=
    ((hpaused.inStep hs hswitched.suspended.runQueue h.inStep).wakes hwakes).wakes
      hswitched.rearmed.wakes
  refine h.extend hswitched.standing.2.2 (fun hne => hswitched.dispatched.manned ?_)
    (hswitched.dispatched.inStep hswitched.standing.2.1 hstep)
    (fun slot hslot => (hbound slot hslot).2.2) (fun _ => noStart_woken _)
    fun slot hslot => ?_
  · rintro rfl
    exact hne rfl
  · rw [hswitched.sleepCount hs hslot, balance_woken]
    rfl

theorem Logged.balanced (h : Logged s phase later t now) (hs : Balanced log s phase) :
    Balanced (later ++ log) t now := by
  induction h with
  | none => exact hs
  | @elapse later t now hardware _ ih =>
      have hmoved := alarmMoved t hardware t.armed
      exact ⟨hmoved.standing ih.standing,
        fun hne => (ih.manned hne).congr hmoved.runQueue_eq hmoved.sleepers_eq fun _ => rfl,
        ih.inStep, ih.count⟩
  | started _ _ hok ih =>
      rcases ih.standing.spawn hok with ⟨hrefused, _⟩ | ⟨id, hid, hstarted⟩
      · contradiction
      · obtain rfl := Except.ok.inj hid
        exact ih.started hstarted
  | refused _ _ hok ih =>
      rcases ih.standing.spawn hok with ⟨_, rfl⟩ | ⟨_, hid, _⟩
      · exact ih
      · contradiction
  | slept _ hcurrent hasleep ih =>
      obtain ⟨id, hid, hunswitched⟩ := hasleep.unswitched ih.standing
      obtain rfl := Option.some.inj (hcurrent.symm.trans hid)
      exact ih.slept hunswitched hcurrent
  | @stayed later t u now _ hphase hstays ih =>
      obtain ⟨id, hunswitched⟩ := hstays.unswitched ih.standing
      change Balanced ([] ++ (later ++ log)) u now
      refine ih.unswitched hunswitched hphase (fun slot hslot => ?_)
        (fun _ => nofun) fun _ => ?_
      · have hcount := hunswitched.count slot
        rw [Int.natCast_zero, ite_self, Int.add_zero] at hcount
        exact (ih.inStep slot hslot).congr hcount (hunswitched.state slot)
      · rw [Int.natCast_zero, ite_self]
        rfl
  | interrupted _ hop hok ih =>
      rw [List.append_assoc]
      exact ih.interrupted (ih.standing.perform hok) hop
  | switched _ _ hok ih =>
      obtain ⟨id, rest, woken, u, v, w, hswitched⟩ := ih.standing.reschedule hok
      rw [List.append_assoc]
      exact ih.switched hswitched
  | dispatched _ hok ih => exact ih.dispatched (ih.standing.dispatch hok)

/--
The sleep count of a task is the number of its sleeps less the number of wakes
delivered to it.  Wakes ahead of its sleeps take the place of as many sleeps,
and the sleep after those is one.
-/
theorem Logged.every_wake_counts {hardware : H}
    (h : Logged (new hardware) .awake log s phase) :
    (∀ slot ∈ slots, (s.tasks.record slot).state ≠ .vacant →
      (s.tasks.record slot).sleepCount =
          (number .slept slot log : Int) - number .woken slot log ∧
        (s.tasks.record slot).InStep (phase = .drowsy)) ∧
    ∀ id (n : Nat), s.current = some id →
      number .woken id.index log = number .slept id.index log + n →
      n ≤ 128 ∧ ∀ later t, Logged s phase later t .drowsy → NoStart id.index later →
        t.current = some id → ∀ pointer u decision, t.reschedule pointer = .ok (u, decision) →
          (number .slept id.index later ≤ n + number .woken id.index later →
            ((t.record id).exiting = true → (u.record id).state = .exited) ∧
            ((t.record id).exiting = false → GivesTurn t id pointer u)) ∧
          (number .slept id.index later = n + 1 → number .woken id.index later = 0 →
            PutToBed t id u) := by
  have hs : Balanced (log ++ []) s phase := h.balanced (balanced_new hardware)
  rw [List.append_nil] at hs
  refine ⟨fun slot hslot hne => ⟨hs.count slot hslot hne, hs.inStep slot hslot⟩,
    fun id n hcurrent hahead => ?_⟩
  obtain ⟨_, hne, hlt⟩ := hs.standing.current hcurrent
  have hslot := mem_slots.mpr ⟨hne, hlt⟩
  have hcount := hs.count _ hslot (hs.standing.occupied_current hcurrent).1
  rw [balance] at hcount
  refine ⟨?_, fun later t hlater hnostart hexecutes pointer u decision hok => ?_⟩
  · have hleast := (hs.inStep _ hslot).least
    have hmin : sleepCountMin = -128 := rfl
    omega
  · have ht := hlater.balanced hs
    have hlast := ht.count _ hslot (ht.standing.occupied_current hexecutes).1
    rw [balance, number_append hnostart, number_append hnostart] at hlast
    refine ⟨fun hle => ⟨fun hends => ?_, fun hstays => ?_⟩, fun hsleeps hwakes => ?_⟩
    · exact ht.standing.retires hexecutes hends hok
    · refine ht.standing.gives_turn hexecutes hstays ?_ hok
      change (t.record id).sleepCount = _ at hlast
      omega
    · refine ht.standing.put_to_bed hexecutes ?_ hok
      change (t.record id).sleepCount = _ at hlast
      omega

def enter (s : Scheduler H) (phase : Phase) :
    Operation → Option (List LedgerEntry × Scheduler H × Phase)
  | .spawn stack pointer =>
      match phase, s.spawn stack pointer with
      | .idle, _ => none
      | phase, .ok (t, .ok id) => some ([⟨.started, id⟩], t, phase)
      | _, _ => none
  | .markAsleep deadline =>
      match phase, s.current, s.markAsleep deadline with
      | .awake, some id, .ok t => some ([⟨.slept, id⟩], t, .drowsy)
      | _, _, _ => none
  | .reschedule pointer =>
      match phase, s.reschedule pointer with
      | .idle, _ => none
      | _, .ok (t, decision) =>
          some ((delivered s.joiner (s.resting ++ s.sleepers) t).map (LedgerEntry.mk .woken), t,
            decision.phase)
      | _, _ => none
  | op =>
      match op.interrupts, s.perform op with
      | true, .ok (t, _) =>
          some ((delivered op.calls s.sleepers t).map (LedgerEntry.mk .woken), t, phase)
      | _, _ => none

def enterAll (s : Scheduler H) (phase : Phase) (log : List LedgerEntry) :
    List Operation → Option (List LedgerEntry × Scheduler H × Phase)
  | [] => some (log, s, phase)
  | op :: ops =>
      (s.enter phase op).bind fun (entries, t, now) => t.enterAll now (entries ++ log) ops

theorem Logged.enter {entries : List LedgerEntry} {next : Phase} {op : Operation}
    (h : Logged s phase log t now) (hok : t.enter now op = some (entries, u, next)) :
    Logged s phase (entries ++ log) u next := by
  unfold Scheduler.enter at hok
  split at hok
  · split at hok
    · contradiction
    · rename_i hbusy hspawn
      obtain ⟨rfl, rfl, rfl⟩ := by simpa using hok
      exact h.started hbusy hspawn
    · contradiction
  · split at hok
    · rename_i hcurrent hasleep
      obtain ⟨rfl, rfl, rfl⟩ := by simpa using hok
      exact h.slept hcurrent (.asleep hasleep)
    · contradiction
  · split at hok
    · contradiction
    · rename_i hbusy hswitch
      obtain ⟨rfl, rfl, rfl⟩ := by simpa using hok
      exact h.switched hbusy hswitch
    · contradiction
  · split at hok
    · rename_i hop hperform
      obtain ⟨rfl, rfl, rfl⟩ := by simpa using hok
      exact h.interrupted hop hperform
    · contradiction

theorem Logged.enterAll {ops : List Operation} {next : Phase} (h : Logged s phase log t now)
    (hok : t.enterAll now log ops = some (later, u, next)) : Logged s phase later u next := by
  induction ops generalizing t now log with
  | nil =>
      obtain ⟨rfl, rfl, rfl⟩ := by simpa [Scheduler.enterAll] using hok
      exact h
  | cons op ops ih =>
      obtain ⟨⟨entries, v, middle⟩, hop, hrest⟩ := Option.bind_eq_some_iff.mp hok
      exact ih (h.enter hop) hrest

def wokenAhead : Option (List LedgerEntry × Scheduler Board × Phase) :=
  (new (Board.start Instant.zero)).enterAll .awake []
    [.spawn ⟨0x20000000, 0x20000400⟩ 0x200003c8, .reschedule Board.mainlinePointer, .wake ⟨1, 1⟩]

def firstSleep : List Operation :=
  [.markAsleep Instant.never]

def secondSleep : List Operation :=
  [.markAsleep Instant.never, .reschedule 0x20000380, .markAsleep Instant.never]

theorem every_wake_counts_wokenAhead :
    ∃ (log first second : List LedgerEntry) (s t u v w : Scheduler Board)
      (decision next : Decision),
      Logged (new (Board.start Instant.zero)) .awake log s .awake ∧
      s.current = some ⟨1, 1⟩ ∧ number .woken 1 log = number .slept 1 log + 1 ∧
      Logged s .awake first t .drowsy ∧ NoStart 1 first ∧ t.current = some ⟨1, 1⟩ ∧
      t.reschedule 0x20000380 = .ok (u, decision) ∧ GivesTurn t ⟨1, 1⟩ 0x20000380 u ∧
      Logged s .awake second v .drowsy ∧ NoStart 1 second ∧ v.current = some ⟨1, 1⟩ ∧
      v.reschedule 0x20000390 = .ok (w, next) ∧ (w.record ⟨1, 1⟩).state = .sleeping := by
  obtain ⟨⟨log, s, phase⟩, hlog⟩ := Option.isSome_iff_exists.mp
    (show wokenAhead.isSome = true by decide +kernel)
  have hbase : wokenAhead.map (fun r => (r.1, r.2.1.current, r.2.2)) =
      some ([⟨.woken, ⟨1, 1⟩⟩, ⟨.started, ⟨1, 1⟩⟩], some ⟨1, 1⟩, .awake) := by decide +kernel
  have hfirst : (wokenAhead.bind fun r => (r.2.1.enterAll .awake [] firstSleep).bind fun q =>
      (q.2.1.reschedule 0x20000380).toOption.map fun _ =>
        (q.1, q.2.1.current, q.2.2, (q.2.1.record ⟨1, 1⟩).exiting)) =
      some ([⟨.slept, ⟨1, 1⟩⟩], some ⟨1, 1⟩, .drowsy, false) := by decide +kernel
  have hsecond : (wokenAhead.bind fun r => (r.2.1.enterAll .awake [] secondSleep).bind fun q =>
      (q.2.1.reschedule 0x20000390).toOption.map fun _ =>
        (q.1, q.2.1.current, q.2.2, (q.2.1.record ⟨1, 1⟩).wakeAt)) =
      some ([⟨.slept, ⟨1, 1⟩⟩, ⟨.slept, ⟨1, 1⟩⟩], some ⟨1, 1⟩, .drowsy, Instant.never) := by
    decide +kernel
  rw [hlog] at hbase hfirst hsecond
  rw [Option.bind_some] at hfirst hsecond
  obtain ⟨rfl, hcurrent, rfl⟩ := by simpa using hbase
  obtain ⟨⟨first, t, now⟩, henter, hswitch⟩ := Option.bind_eq_some_iff.mp hfirst
  obtain ⟨⟨u, decision⟩, hgive, hvalues⟩ := Option.map_eq_some_iff.mp hswitch
  obtain ⟨rfl, hexecutes, rfl, hstays⟩ := by simpa using hvalues
  obtain ⟨⟨second, v, now'⟩, henter', hswitch'⟩ := Option.bind_eq_some_iff.mp hsecond
  obtain ⟨⟨w, next⟩, hbed, hvalues'⟩ := Option.map_eq_some_iff.mp hswitch'
  obtain ⟨rfl, hexecutes', rfl, hnever⟩ := by simpa using hvalues'
  rw [toOption_eq_some] at hgive hbed
  have hlogged : Logged (new (Board.start Instant.zero)) .awake _ s .awake :=
    Logged.none.enterAll hlog
  have hone : Logged s .awake _ t .drowsy := Logged.none.enterAll henter
  have htwo : Logged s .awake _ v .drowsy := Logged.none.enterAll henter'
  have hnostart : NoStart 1 [⟨.slept, ⟨1, 1⟩⟩] ∧
      NoStart 1 [⟨.slept, ⟨1, 1⟩⟩, ⟨.slept, ⟨1, 1⟩⟩] := by
    unfold NoStart
    decide
  obtain ⟨_, hnext⟩ := hlogged.every_wake_counts
  obtain ⟨_, hsleeps⟩ := hnext ⟨1, 1⟩ 1 hcurrent (by decide)
  obtain ⟨hcancelled, _⟩ := hsleeps _ t hone hnostart.1 hexecutes _ _ _ hgive
  obtain ⟨_, hparked⟩ := hsleeps _ v htwo hnostart.2 hexecutes' _ _ _ hbed
  refine ⟨_, _, _, s, t, u, v, w, decision, next, hlogged, hcurrent, by decide, hone, hnostart.1,
    hexecutes, hgive, (hcancelled (by decide)).2 hstays, htwo, hnostart.2, hexecutes', hbed, ?_⟩
  exact (hparked (by decide) (by decide)).resolve_right fun hrefused => hrefused.2.1 hnever

end Scheduler

end CoopTasks

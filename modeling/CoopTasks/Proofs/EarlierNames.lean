import CoopTasks.Proofs.EndedTasks

/-!
Joins under the name of an earlier run.

A join looks at the slot of a name alone, so the name of a run that has made
way for another one joins the other: `earlier_name_joins_later`.  Whichever
run the name is of, a join tells nothing of a run that goes on, and it changes
nothing of one that has ended: `Reachable.join_by_slot`.
-/

namespace CoopTasks.Scheduler

variable {H : Type} {s t : Scheduler H} {target : TaskId}

/-- What a join comes to by the run that is in the slot of a name now. -/
structure JoinsBySlot (s : Scheduler H) (target : TaskId) : Prop where
  /-- A poll changes nothing, and only the end of the run gives it an answer. -/
  polled : ∀ t code, s.tryJoin target = .ok (t, code) →
    t = s ∧ (code = none ↔ s.Occupied target.index) ∧
      ∀ c, code = some c → (s.record target).state = .exited ∧ c = (s.record target).exitCode
  acquired : ∀ t, s.attemptJoin target = .ok (t, .acquired) →
    t = s ∧ (s.record target).state = .exited
  /-- Nothing is changed while another task waits for the run. -/
  busy : ∀ t, s.attemptJoin target = .ok (t, .busy) →
    t = s ∧ s.Occupied target.index ∧ ∃ other,
      (s.record target).completion.waiter = some other ∧ s.current ≠ some other
  /-- Only a run that goes on, and that nobody else waits for, is waited for. -/
  parked : ∀ t, s.attemptJoin target = .ok (t, .parked) →
    s.Occupied target.index ∧ ∃ caller, s.current = some caller ∧
      ((s.record target).completion.waiter = none ∨
        (s.record target).completion.waiter = some caller) ∧
      ∀ slot ∈ slots, (t.tasks.record slot).completion =
        if slot = target.index then { (s.record target).completion with waiter := some caller }
        else (s.tasks.record slot).completion

theorem Joined.completion {result : WaitResult} (h : Joined s target t result)
    (hslot : target.index < slotCount) {caller : TaskId} (hcurrent : s.current = some caller)
    (hparked : result = .parked) (slot : Nat) :
    (t.tasks.record slot).completion =
      if slot = target.index then { (s.record target).completion with waiter := some caller }
      else (s.tasks.record slot).completion := by
  cases h with
  | acquired _ | busy _ _ _ _ => contradiction
  | @parked _ u caller' _ hcurrent' _ hmoved ht =>
      obtain rfl := Option.some.inj (hcurrent.symm.trans hcurrent')
      rw [ht, (hmoved.standing.withCompletion hslot _).record slot]
      split
      · rfl
      · exact hmoved.field TaskRecord.completion (fun _ => rfl) slot

variable [Hardware H]

theorem Reachable.join_by_slot (h : Reachable s) (target : TaskId) : s.JoinsBySlot target := by
  have hs := h.invariants.1
  have hlived := h.lived
  refine ⟨?polled, ?acquired, ?busy, ?parked⟩
  case polled =>
    intro t code hok
    obtain ⟨rfl, hjoinable, rfl⟩ := hlived.tryJoin_eq_ok hok
    by_cases hexited : (t.record target).state = .exited
    · rw [if_pos hexited]
      refine ⟨rfl, ?_, fun c hc => ⟨hexited, (Option.some.inj hc).symm⟩⟩
      exact iff_of_false nofun fun hoccupied => hoccupied.2 hexited
    · rw [if_neg hexited]
      exact ⟨rfl, iff_of_true rfl (hjoinable.occupied hexited), nofun⟩
  case acquired =>
    intro t hok
    cases hlived.joined hs hok with
    | acquired hexited => exact ⟨rfl, hexited⟩
  case busy =>
    intro t hok
    cases hlived.joined hs hok with
    | busy hoccupied hcurrent hwaiter hne =>
        refine ⟨rfl, hoccupied, _, hwaiter, ?_⟩
        rw [hcurrent]
        exact fun he => hne (Option.some.inj he).symm
  case parked =>
    intro t hok
    obtain ⟨_, hjoinable, _⟩ := hs.attemptJoin hok
    have hjoined := hlived.joined hs hok
    cases hjoined with
    | parked hoccupied hcurrent hwaiter hmoved ht =>
        refine ⟨hoccupied, _, hcurrent, hwaiter, fun slot _ => ?_⟩
        exact (Joined.parked hoccupied hcurrent hwaiter hmoved ht).completion hjoinable.index_lt
          hcurrent rfl slot

def laterRun : Except Fault (Scheduler Board) :=
  (new (Board.start Instant.zero)).performAll
    [.spawn ⟨0x20000000, 0x20000400⟩ 0x200003c8, .reschedule Board.mainlinePointer,
      .markExiting 3, .reschedule 0x20000380,
      .spawn ⟨0x20000000, 0x20000400⟩ 0x200003c8, .reschedule Board.mainlinePointer]

theorem join_by_slot_laterRun :
    ∃ s t : Scheduler Board, Reachable s ∧ s.current = some ⟨1, 2⟩ ∧
      s.tryJoin ⟨1, 1⟩ = .ok (t, none) ∧ t = s := by
  obtain ⟨s, hs⟩ := Option.isSome_iff_exists.mp (show laterRun.toOption.isSome = true by decide)
  have hcurrent : laterRun.toOption.map (fun s => s.current) = some (some ⟨1, 2⟩) := by decide
  have hpoll : (laterRun.toOption.bind fun s => (s.tryJoin ⟨1, 1⟩).toOption.map Prod.snd) =
      some none := by decide
  rw [hs] at hcurrent hpoll
  obtain ⟨⟨t, code⟩, ht, rfl⟩ := Option.map_eq_some_iff.mp hpoll
  rw [toOption_eq_some] at hs ht
  have hreachable : Reachable s := Reachable.new.performAll hs
  exact ⟨s, t, hreachable, Option.some.inj hcurrent, ht,
    ((hreachable.join_by_slot ⟨1, 1⟩).polled t none ht).1⟩

/--
Under the name of the run that exited with 3, the task of the later run waits
for its own end, and others learn that it exited with 9.
-/
theorem earlier_name_joins_later :
    ∃ s t u v : Scheduler Board, Reachable s ∧ .exited ⟨1, 1⟩ 3 ∈ s.journal ∧
      s.current = some ⟨1, 2⟩ ∧ s.idOf 1 = ⟨1, 2⟩ ∧
      s.attemptJoin ⟨1, 1⟩ = .ok (t, .parked) ∧
      (t.record ⟨1, 2⟩).completion.waiter = some ⟨1, 2⟩ ∧
      s.performAll [.markExiting 9, .reschedule 0x20000380] = .ok u ∧
      u.tryJoin ⟨1, 1⟩ = .ok (v, some 9) := by
  obtain ⟨s, hs⟩ := Option.isSome_iff_exists.mp (show laterRun.toOption.isSome = true by decide)
  have hbefore : laterRun.toOption.map (fun s =>
      (decide (.exited ⟨1, 1⟩ 3 ∈ s.journal), s.current, s.idOf 1)) =
        some (true, some ⟨1, 2⟩, ⟨1, 2⟩) := by decide
  have hjoin : (laterRun.toOption.bind fun s => (s.attemptJoin ⟨1, 1⟩).toOption.map fun r =>
      (r.2, (r.1.record ⟨1, 2⟩).completion.waiter)) = some (.parked, some ⟨1, 2⟩) := by decide
  have hpoll : (laterRun.toOption.bind fun s =>
      (s.performAll [.markExiting 9, .reschedule 0x20000380]).toOption.bind fun u =>
        (u.tryJoin ⟨1, 1⟩).toOption.map Prod.snd) = some (some 9) := by decide
  rw [hs] at hbefore
  rw [hs, Option.bind_some] at hjoin hpoll
  simp only [Option.map_some, Option.some.injEq, Prod.mk.injEq] at hbefore
  obtain ⟨⟨t, result⟩, ht, hresult⟩ := Option.map_eq_some_iff.mp hjoin
  obtain ⟨u, hu, hcode⟩ := Option.bind_eq_some_iff.mp hpoll
  obtain ⟨⟨v, code⟩, hv, rfl⟩ := Option.map_eq_some_iff.mp hcode
  obtain ⟨rfl, hwaiter⟩ := Prod.mk.inj hresult
  rw [toOption_eq_some] at hs ht hu hv
  exact ⟨s, t, u, v, Reachable.new.performAll hs, of_decide_eq_true hbefore.1, hbefore.2.1,
    hbefore.2.2, ht, hwaiter, hu, hv⟩

end CoopTasks.Scheduler

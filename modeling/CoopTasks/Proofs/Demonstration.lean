import CoopTasks.Proofs.Enactment
import CoopTasks.Workload.Demo

/-!
The machine of the demonstration.  What is true of its scenes at their end is
true of the machine when the mainline has come to its end (`machine_run`).
-/

namespace CoopTasks

theorem Roster.unhurried_of_sleep_nil {r : Roster} (h : r.sleep = []) : r.Unhurried := by
  intro id hmem
  rw [h] at hmem
  contradiction

theorem Kernel.Shows.exitCode {k : Kernel Board} {arena : List StackRange} {r : Roster}
    (h : k.Shows arena r) (hgrounds : Grounds arena) (slot : Nat) {number : Nat} {part : Part}
    {code : UInt32} (hpart : r.part? slot = some part) (hstack : part.stack = number)
    (hmood : part.mood = .gone code) :
    (k.reportOn number).bind TaskReport.exitCode = some code := by
  subst hstack
  have hindex := index_firstRun (Scheduler.mem_slots.mp (h.scheduler.mem_slots hpart)).2
  have hfirst : r.part? (firstRun slot).index = some part := by rwa [hindex]
  have houtline : part.outline arena (firstRun slot).index =
      Mood.mark _ (.gone code) := congrArg (Mood.mark _) hmood
  have hstate : (k.scheduler.record (firstRun slot)).state = .exited := by
    rw [← TaskRecord.outline_eq_exited]
    refine (congrArg TaskRecord.state (h.scheduler.record hfirst)).trans ?_
    rw [houtline]
    rfl
  have hcode : (k.scheduler.record (firstRun slot)).exitCode = code := by
    rw [h.scheduler.field hfirst TaskRecord.exitCode fun _ => rfl, houtline]
    rfl
  unfold Kernel.reportOn Scheduler.reportOn
  rw [h.rangeAt, h.scheduler.taskOn hgrounds hpart, Option.map_some, Option.bind_some]
  show (if (k.scheduler.record (firstRun slot)).state = .exited then
    some (k.scheduler.record (firstRun slot)).exitCode else none) = _
  rw [if_pos hstate, hcode]

namespace Demo

variable {μ : Type}

def arena : List StackRange :=
  (Machine.blankStacks (roles.map fun _ => usualStackWords)).map Stack.range

theorem arena_eq : arena = (List.range 5).map fun number =>
    ⟨Board.pageBottom number, Board.pageBottom number + 0x400⟩ := by
  decide +kernel

theorem length_arena : arena.length = 5 := rfl

theorem grounds_arena : Grounds arena := by
  rw [arena_eq]
  have husable : ∀ range ∈ (List.range 5).map fun number =>
      (⟨Board.pageBottom number, Board.pageBottom number + 0x400⟩ : StackRange),
      range.bottom ≠ 0 ∧
        range.bottom.toNat + 4 * (leastStackWords + guardedWords) ≤ range.top.toNat := by
    decide
  refine ⟨fun range hrange => ?_, by decide, by decide⟩
  obtain ⟨hbottom, hroom⟩ := husable range hrange
  exact ⟨hbottom, hroom⟩

def setting (entries : UInt32 → UInt32 → Program μ UInt32) (switchCost : UInt64)
    (switchLimit : Nat) : Setting μ where
  entries
  arena
  switchCost
  switchLimit

/--
The machine does what its scenes do until everybody has ended.  Then the mainline puts on record
that what it started has returned.
-/
theorem machine_run {entries : UInt32 → UInt32 → Program μ UInt32} {switchCost : UInt64}
    {switchLimit switches : Nat} {now : Instant} {mainline : Program μ Unit} {P : Scene μ → Prop}
    (hreaches : (setting entries switchCost switchLimit).Reaches switches (.bare now 1 mainline) P)
    (hidle : ∀ s, P s → s.roster.run = [] ∧ s.program 0 = Program.remark "start" .nothing)
    (hroom : switches ≤ switchLimit) :
    ∃ m s, (machine now switchCost []).run entries mainline switchLimit = (m, none) ∧ P s ∧
      m.kernel.Shows arena s.roster ∧
      m.events = ⟨s.roster.clock, .context .mainline, "start", .nothing⟩ :: s.events := by
  obtain ⟨s, hruns, hs⟩ := hreaches
  obtain ⟨hrun, hprogram⟩ := hidle s hs
  have hself : s.roster.executing = 0 := by
    unfold Roster.executing
    rw [hrun]
  have hlast := hruns.trans (.head (.remark ((congrArg s.program hself).trans hprogram)) (.refl _))
  rw [hself] at hlast
  have hstart := Setting.shows_start (v := setting entries switchCost switchLimit) now
    (roles.map fun _ => usualStackWords) 1 0 mainline rfl
  obtain ⟨m, hok, hshown⟩ := hstart.run grounds_arena hlast rfl hself
    (by unfold Scene.program; cases s.programs <;> rfl)
    (by show 0 + (switches + 0) ≤ switchLimit; omega)
  exact ⟨m, s, hok, hs, hshown.kernel, hshown.events⟩

def finish (code : UInt32) (work : Program μ Unit) : Program μ Unit :=
  (recorded (do work; return code)).thenExit

end Demo

end CoopTasks

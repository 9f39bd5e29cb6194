import CoopTasks.Proofs.Demonstration

/-!
Two tasks that take turns, in any number of rounds each (`nested_start_interleaves`).
-/

namespace CoopTasks.Demo

open Program

variable {μ : Type} {v : Setting μ}

def logged (events : List (Event μ)) : List String :=
  (events.filterMap fun e =>
    match e.name, e.remark with
    | "log", .text text => some text
    | _, _ => none).reverse

theorem reaches_turn {id : TaskId} {rest : List TaskId} {part : Part} {message : String}
    {code : UInt32} {rounds switches : Nat} {s : Scene μ} {P : Scene μ → Prop}
    (hrun : s.roster.run = id :: rest) (hsleep : s.roster.sleep = [])
    (hpart : s.roster.part? id.index = some part) (hmood : part.mood = .awake)
    (hlt : id.index < s.programs.length)
    (hprogram : s.program id.index = finish code (takeTurns message (rounds + 1)))
    (h : v.Reaches switches
      { roster :=
          { s.roster with clock := s.roster.clock.after v.switchCost, run := rest ++ [id] }
        programs := s.programs.set id.index
          (.act (.remark "yield" .nothing) fun _ => finish code (takeTurns message rounds))
        events :=
          ⟨s.roster.clock, .context (s.context id.index), "log", .text message⟩ :: s.events } P) :
    v.Reaches (switches + 1) s P := by
  have hself := Roster.executing_of_run hrun
  refine .remark ((congrArg s.program hself).trans hprogram) ?_
  rw [hself]
  refine .switch ((congrArg _ hself).trans (Scene.program_set hlt)) (.giveWay hrun hpart) rfl rfl
    (.inr (Roster.unhurried_of_sleep_nil hsleep)) (.resumed (.requeued hrun hpart hmood) ?_) ?_
  · exact fun he => absurd he (by simp)
  · rw [hself, List.set_set]
    exact h

theorem reaches_alone {id : TaskId} {part : Part} {message : String} {code : UInt32} {rounds : Nat}
    {s : Scene μ} (hrun : s.roster.run = [id]) (hsleep : s.roster.sleep = [])
    (hpart : s.roster.part? id.index = some part) (hmood : part.mood = .awake)
    (hwaiter : part.completion.waiter = none) (hlt : id.index < s.programs.length)
    (hprogram : s.program id.index = finish code (takeTurns message rounds)) :
    v.Reaches (rounds + 1) s fun t =>
      (∃ clock, t.roster =
        { s.roster.setPart id.index (part.ended code) with clock, run := [] }) ∧
      t.program 0 = s.program 0 ∧
      logged t.events = logged s.events ++ List.replicate rounds message := by
  have hself := Roster.executing_of_run hrun
  have hne : id.index ≠ 0 := (Roster.lt_of_part? hpart).1
  induction rounds generalizing s with
  | zero =>
      refine .remark ((congrArg s.program hself).trans hprogram) ?_
      rw [hself]
      refine .switch ((congrArg _ hself).trans (Scene.program_set hlt))
        (.exit code hrun hpart hmood) rfl (Roster.origins_setPart hpart rfl)
        (.inr (Roster.unhurried_of_sleep_nil hsleep))
        (.resumed (.ended hrun (Roster.part?_setPart_self hpart _) rfl hwaiter)
        fun _ => hsleep) (.here ⟨⟨s.roster.clock.after v.switchCost, ?_⟩, ?_, ?_⟩)
      · simp [Roster.setPart, Roster.elapse, Part.ended]
      · simp [Scene.program, hself, hne]
      · simp [logged]
  | succ rounds ih =>
      refine reaches_turn hrun hsleep hpart hmood hlt hprogram ?_
      refine .remark (Scene.program_set hlt) ?_
      refine Setting.Reaches.mono (ih rfl hsleep hpart (by simpa using hlt)
        (Scene.program_set (by simpa [Roster.executing] using hlt)) rfl) ?_
      rintro t ⟨⟨clock, hroster⟩, hmainline, hlogged⟩
      refine ⟨⟨clock, hroster⟩, hmainline.trans ?_, hlogged.trans ?_⟩
      · simp [Scene.program, Roster.executing, hne]
      · simp [logged, List.replicate_succ]

/-! ## A parent and its child -/

def parentOrigin (rounds : UInt32) : Origin :=
  ⟨Role.parent.number, Role.parent.entry, rounds⟩

def childOrigin (rounds : UInt32) : Origin :=
  ⟨Role.child.number, Role.child.entry, rounds⟩

def pair (p c : UInt32) (clock : Instant) (mainline parent child : Program μ Unit)
    (events : List (Event μ)) : Scene μ where
  roster :=
    { clock
      run := [firstRun 2, firstRun 1]
      sleep := []
      parts := [.fresh (parentOrigin p), .fresh (childOrigin c)]
      signals := [.idle] }
  programs := [mainline, parent, child]
  events

structure PairEnded (p c : UInt32) (mainline : Program μ Unit) (messages : List String)
    (s : Scene μ) : Prop where
  roster : ∃ clock, s.roster =
    { clock
      run := []
      sleep := []
      parts := [(Part.fresh (parentOrigin p)).ended 0, (Part.fresh (childOrigin c)).ended c]
      signals := [.idle] }
  mainline : s.program 0 = mainline
  logged : logged s.events = messages

/-- What a parent and its child log in a number of rounds each. -/
def interleaved (parent child : Nat) : List String :=
  (List.replicate (min parent child) ["child", "parent"]).flatten ++
    List.replicate (parent - child) "parent" ++ List.replicate (child - parent) "child"

theorem interleaved_succ (parent child : Nat) :
    interleaved (parent + 1) (child + 1) = "child" :: "parent" :: interleaved parent child := by
  simp [interleaved, Nat.add_min_add_right, List.replicate_succ]

/-- The child begins a round, which goes on until one of the two has none left. -/
theorem reaches_pairEnded {p c : UInt32} {mainline : Program μ Unit} {name : String}
    (n k : Nat) (clock : Instant) (events : List (Event μ)) :
    v.Reaches (n + k + 2)
      (pair p c clock mainline
        (.act (.remark name .nothing) fun _ => finish 0 (takeTurns "parent" n))
        (finish c (takeTurns "child" k)) events)
      (PairEnded p c mainline (logged events ++ interleaved n k)) := by
  have hquiet {r : Roster} (hsleep : r.sleep = []) : v.switchCost = 0 ∨ r.Unhurried :=
    .inr (Roster.unhurried_of_sleep_nil hsleep)
  induction k generalizing n name clock events with
  | zero =>
      -- the child ends, and the parent is alone
      refine .remark rfl ?_
      refine .switch rfl (.exit c rfl rfl rfl) rfl rfl (hquiet rfl)
        (.resumed (.ended rfl rfl rfl rfl) nofun) ?_
      refine .remark rfl ?_
      refine Setting.Reaches.mono (reaches_alone rfl rfl rfl rfl rfl (by show 1 < 3; omega) rfl) ?_
      rintro t ⟨⟨clock', hroster⟩, hmainline, hlogged⟩
      refine ⟨⟨clock', hroster⟩, hmainline, hlogged.trans ?_⟩
      simp [logged, pair, interleaved]
  | succ k ih =>
      cases n with
      | zero =>
          -- the parent ends, and the child is alone
          rw [show 0 + (k + 1) + 2 = k + 1 + 1 + 1 by omega]
          refine reaches_turn rfl rfl rfl rfl (by show 2 < 3; omega) rfl ?_
          refine .remark rfl ?_
          refine .remark rfl ?_
          refine .switch rfl (.exit 0 rfl rfl rfl) rfl rfl (hquiet rfl)
            (.resumed (.ended rfl rfl rfl rfl) nofun) ?_
          refine .remark rfl ?_
          refine Setting.Reaches.mono
            (reaches_alone rfl rfl rfl rfl rfl (by show 2 < 3; omega) rfl) ?_
          rintro t ⟨⟨clock', hroster⟩, hmainline, hlogged⟩
          refine ⟨⟨clock', hroster⟩, hmainline, hlogged.trans ?_⟩
          simp [logged, pair, interleaved, List.replicate_succ]
      | succ n =>
          rw [show n + 1 + (k + 1) + 2 = n + k + 2 + 1 + 1 by omega]
          refine reaches_turn rfl rfl rfl rfl (by show 2 < 3; omega) rfl ?_
          refine .remark rfl ?_
          refine reaches_turn rfl rfl rfl rfl (by show 1 < 3; omega) rfl ?_
          refine .remark rfl ?_
          refine Setting.Reaches.mono (ih n _ _) ?_
          rintro t ⟨hroster, hmainline, hlogged⟩
          refine ⟨hroster, hmainline, hlogged.trans ?_⟩
          rw [interleaved_succ]
          simp [logged, pair]

section

variable {entries : UInt32 → UInt32 → Program μ UInt32} {p c : UInt32} {now : Instant}
  {switchCost : UInt64} {switchLimit : Nat}

theorem reaches_pair (hparent : entries Role.parent.entry p = recorded (parent p c))
    (hchild : entries Role.child.entry c = recorded (child c)) :
    (setting entries switchCost switchLimit).Reaches (p.toNat + c.toNat + 4)
      (.bare now 1 (start .parent p))
      (PairEnded p c (remark "start" .nothing) (interleaved p.toNat c.toNat)) := by
  have hopening : (entries Role.parent.entry p).thenExit =
      .call (.start Role.child.entry c 1) fun _ =>
        .act (.remark "start" .nothing) fun _ => finish 0 (takeTurns "parent" p.toNat) := by
    rw [hparent]
    rfl
  have hfresh : ∀ other ∈ [parentOrigin p], other.stack ≠ 1 := by
    intro other hother
    obtain rfl := List.mem_singleton.mp hother
    exact Nat.zero_ne_one
  refine .start (parentOrigin p) rfl (by show 0 < arena.length; rw [length_arena]; omega)
    (by show 1 < 16; omega) nofun (.inr (Roster.unhurried_of_sleep_nil rfl))
    (.resumed (.parked rfl) nofun) ?_
  refine .start (childOrigin c) hopening (by show 1 < arena.length; rw [length_arena]; omega)
    (by show 2 < 16; omega) hfresh (.inr (Roster.unhurried_of_sleep_nil rfl))
    (.resumed (.requeued rfl rfl rfl) nofun) ?_
  rw [show (setting entries switchCost switchLimit).opening (childOrigin c) =
    finish c (takeTurns "child" c.toNat) from congrArg Program.thenExit hchild]
  exact reaches_pairEnded p.toNat c.toNat _ _

/--
A parent and the child that it starts take turns until the first has no rounds left, and the
child is first.  Then the other one has the processor to itself, and the start of the parent
returns when both have ended.
-/
theorem nested_start_interleaves
    (hparent : entries Role.parent.entry p = recorded (parent p c))
    (hchild : entries Role.child.entry c = recorded (child c))
    (hroom : p.toNat + c.toNat + 4 ≤ switchLimit) :
    ∃ m, (machine now switchCost []).run entries (start .parent p) switchLimit = (m, none) ∧
      logged m.events = (List.replicate (min p.toNat c.toNat) ["child", "parent"]).flatten ++
        List.replicate (p.toNat - c.toNat) "parent" ++
        List.replicate (c.toNat - p.toNat) "child" ∧
      (m.kernel.reportOn Role.parent.number).bind TaskReport.exitCode = some 0 ∧
      (m.kernel.reportOn Role.child.number).bind TaskReport.exitCode = some c ∧
      m.kernel.scheduler.runQueue = [] ∧ m.kernel.scheduler.sleepers = [] ∧
      m.events.head?.map (fun e => (e.actor, e.name)) = some (.context .mainline, "start") := by
  have hidle (s : Scene μ) (hs : PairEnded p c (remark "start" .nothing)
      (interleaved p.toNat c.toNat) s) :
      s.roster.run = [] ∧ s.program 0 = remark "start" .nothing := by
    obtain ⟨clock, hroster⟩ := hs.roster
    exact ⟨congrArg Roster.run hroster, hs.mainline⟩
  obtain ⟨m, s, hrun, ⟨⟨clock, hroster⟩, _, hlogged⟩, hkernel, hevents⟩ :=
    machine_run (reaches_pair hparent hchild) hidle hroom
  have hsame : logged m.events = logged s.events := by
    rw [hevents]
    simp [logged]
  rw [hroster] at hkernel
  refine ⟨m, hrun, hsame.trans hlogged, hkernel.exitCode grounds_arena 1 rfl rfl rfl,
    hkernel.exitCode grounds_arena 2 rfl rfl rfl, hkernel.scheduler.runQueue,
    hkernel.scheduler.sleepers, ?_⟩
  rw [hevents]
  rfl

theorem nested_start_interleaves_five_three :
    (Demo.entries 5 Role.parent.entry 5 : Program Unit UInt32) = recorded (parent 5 3) ∧
    (Demo.entries 5 Role.child.entry 3 : Program Unit UInt32) = recorded (child 3) ∧
    ∃ m : Machine Unit,
      (machine .zero 1 []).run (Demo.entries 5) (start .parent 5) usualSwitchLimit = (m, none) ∧
      logged m.events =
        ["child", "parent", "child", "parent", "child", "parent", "parent", "parent"] ∧
      (m.kernel.reportOn Role.parent.number).bind TaskReport.exitCode = some 0 ∧
      (m.kernel.reportOn Role.child.number).bind TaskReport.exitCode = some 3 ∧
      m.kernel.scheduler.runQueue = [] ∧ m.kernel.scheduler.sleepers = [] ∧
      m.events.head?.map (fun e => (e.actor, e.name)) = some (.context .mainline, "start") :=
  ⟨rfl, rfl, nested_start_interleaves rfl rfl
    (show (5 : UInt32).toNat + (3 : UInt32).toNat + 4 ≤ usualSwitchLimit by decide)⟩

end

end CoopTasks.Demo

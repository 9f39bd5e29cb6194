import CoopTasks.Program.Run
import CoopTasks.Proofs.RosterCalls

/-!
Runs of programs, told from rosters.

A scene is a roster, what everybody has left to do and the remarks made so far.
`v.Step n s s'` is a remark, a call that is answered at once, or a call whose
caller gives up the processor, with the `n` switches that it takes.  Interrupts
are left out, and so is what no program here does.

What is true of runs of scenes (`v.Runs`) is carried over to machines by
`Setting.Shows`.
-/

namespace CoopTasks

open Scheduler

/-! ## Contexts by slots -/

def originIn (origins : List Origin) : Nat → Option Origin
  | 0 => none
  | slot + 1 => origins[slot]?

def contextIn (origins : List Origin) (slot : Nat) : Context :=
  (originIn origins slot).elim .mainline fun origin => .task origin.stack

section

variable {origins more : List Origin} {r : Roster} {slot : Nat} {part : Part}

theorem originIn_of_le (hslot : slot ≠ 0) (hle : slot ≤ origins.length) :
    ∃ origin ∈ origins, originIn origins slot = some origin := by
  obtain ⟨n, rfl⟩ := Nat.exists_eq_succ_of_ne_zero hslot
  exact ⟨_, List.getElem_mem hle, List.getElem?_eq_getElem hle⟩

theorem originIn_append (hslot : slot ≤ origins.length) :
    originIn (origins ++ more) slot = originIn origins slot := by
  cases slot with
  | zero => rfl
  | succ n => exact List.getElem?_append_left hslot

theorem contextIn_append (hslot : slot ≤ origins.length) :
    contextIn (origins ++ more) slot = contextIn origins slot := by
  unfold contextIn
  rw [originIn_append hslot]

theorem originIn_of_part? (h : r.part? slot = some part) :
    originIn r.origins slot = some part.toOrigin := by
  obtain ⟨hne, hget⟩ := Roster.part?_eq_some.mp h
  obtain ⟨n, rfl⟩ := Nat.exists_eq_succ_of_ne_zero hne
  have hget : r.parts[n]? = some part := hget
  simp [originIn, Roster.origins, hget]

theorem contextIn_of_part? (h : r.part? slot = some part) :
    contextIn r.origins slot = .task part.stack := by
  unfold contextIn
  rw [originIn_of_part? h]
  rfl

theorem Cast.contextIn_inj {arena : List StackRange} (h : Cast arena origins) {a b : Nat}
    (ha : a ≤ origins.length) (hb : b ≤ origins.length)
    (hsame : contextIn origins a = contextIn origins b) : a = b := by
  cases a with
  | zero =>
      cases b with
      | zero => rfl
      | succ b => simp [contextIn, originIn, List.getElem?_eq_getElem hb] at hsame
  | succ a =>
      cases b with
      | zero => simp [contextIn, originIn, List.getElem?_eq_getElem ha] at hsame
      | succ b =>
          simp only [contextIn, originIn, List.getElem?_eq_getElem ha, List.getElem?_eq_getElem hb,
            Option.elim_some, Context.task.injEq] at hsame
          have hlt : a < (origins.map Origin.stack).length := by
            rw [List.length_map]
            exact ha
          rw [(List.getElem?_inj hlt h.apart).mp]
          simp [List.getElem?_eq_getElem ha, List.getElem?_eq_getElem hb, hsame]

end

namespace Roster

def executing (r : Roster) : Nat :=
  match r.run with
  | [] => 0
  | id :: _ => id.index

def Expects (r : Roster) (slot : Nat) : Prop :=
  slot = 0 ∨ ∃ id ∈ r.run ++ r.sleep, id.index = slot

def elapse (r : Roster) (micros : UInt64) : Roster :=
  { r with clock := r.clock.after micros }

theorem elapse_zero (r : Roster) : r.elapse 0 = r := by
  unfold elapse
  rw [Instant.after_zero]

/-- Who executes after a switch: somebody who is ready, or whom the alarm wakes. -/
inductive Yields (r : Roster) : Roster → Prop
  | resumed {r' : Roster} :
      r.Settles r' →
      (r'.run = [] → r'.sleep = []) →
      Yields r r'
  | rung {r' r'' : Roster} {deadline : Instant} :
      r.Settles r' →
      r'.Rings deadline r'' →
      Yields r r''

variable {r r' : Roster} {slot : Nat} {deadline : Instant} {arena : List StackRange}

theorem executing_of_run {id : TaskId} {rest : List TaskId} (h : r.run = id :: rest) :
    r.executing = id.index := by
  unfold executing
  rw [h]

theorem Expects.mono (h : r.Expects slot)
    (hids : ∀ id ∈ r.run ++ r.sleep, id ∈ r'.run ++ r'.sleep) : r'.Expects slot := by
  rcases h with hzero | ⟨id, hmem, hindex⟩
  · exact .inl hzero
  · exact .inr ⟨id, hids id hmem, hindex⟩

theorem expects_executing (r : Roster) : r.Expects r.executing := by
  unfold executing
  cases hrun : r.run with
  | nil => exact .inl rfl
  | cons id rest => exact .inr ⟨id, by simp [hrun], rfl⟩

theorem Settles.run_eq_cons (h : r.Settles r') : ∃ id rest, r.run = id :: rest := by
  cases h with
  | parked hrun | requeued hrun | endless hrun | timed hrun | ended hrun | released hrun =>
      exact ⟨_, _, hrun⟩

theorem Settles.signals (h : r.Settles r') : r'.signals = r.signals := by
  cases h <;> rfl

theorem Rings.signals (h : r.Rings deadline r') : r'.signals = r.signals := by
  cases h
  rfl

theorem Rings.run_ne_nil (h : r.Rings deadline r') : r'.run ≠ [] := by
  cases h
  exact List.cons_ne_nil _ _

theorem Settles.expects (h : r.Settles r') (hslot : r'.Expects slot) : r.Expects slot := by
  refine hslot.mono fun other hother => ?_
  cases h with
  | parked hrun | ended hrun =>
      rw [hrun]
      exact List.mem_cons_of_mem _ hother
  | requeued hrun | endless hrun | timed hrun =>
      rw [hrun]
      simp only [List.mem_append, List.mem_cons] at hother ⊢
      grind
  | @released id joiner _ _ _ _ hrun _ _ _ hsleep =>
      rw [hrun]
      simp only [List.mem_append, List.mem_cons] at hother ⊢
      have hkept : other ∈ r.sleep.erase joiner → other ∈ r.sleep := List.mem_of_mem_erase
      grind

theorem Rings.expects (h : r.Rings deadline r') (hslot : r'.Expects slot) : r.Expects slot := by
  refine hslot.mono fun other hother => ?_
  cases h with
  | woken hrun hsleep =>
      rw [hrun, hsleep]
      exact hother

theorem Yields.expects (h : r.Yields r') (hslot : r'.Expects slot) : r.Expects slot := by
  cases h with
  | resumed hsettles => exact hsettles.expects hslot
  | rung hsettles hrings => exact hsettles.expects (hrings.expects hslot)

theorem Yields.origins (h : r.Yields r') : r'.origins = r.origins := by
  cases h with
  | resumed hsettles => exact hsettles.origins
  | rung hsettles hrings => exact hrings.origins.trans hsettles.origins

/-! ## Calls -/

theorem Does.origins {call : Call} {progress : Progress call.Answer}
    (h : r.Does arena call progress r') : ∃ more, r'.origins = r.origins ++ more := by
  cases h with
  | start => exact ⟨_, origins_enroll⟩
  | giveWay | now | signalState | joined | tried | taken | posted =>
      exact ⟨[], (List.append_nil _).symm⟩
  | exit _ _ hpart | sleepUntil _ _ hpart | enlisted _ _ _ _ hpart | roused _ _ _ hpart =>
      refine ⟨[], ?_⟩
      rw [List.append_nil]
      exact origins_setPart hpart rfl
  | joining slot _ hne htarget _ _ _ hpart =>
      refine ⟨[], ?_⟩
      rw [List.append_nil]
      refine Eq.trans (origins_setPart ((part?_setPart_ne hpart _ hne.symm).trans htarget) rfl) ?_
      exact origins_setPart hpart rfl

theorem Does.origins_done {call : Call} {answer : call.Answer}
    (h : r.Does arena call (.done answer) r') : r'.origins = r.origins := by
  cases h with
  | roused _ _ _ hpart => exact origins_setPart hpart rfl
  | _ => rfl

theorem Does.executing {call : Call} {progress : Progress call.Answer}
    (h : r.Does arena call progress r') : r'.executing = r.executing := by
  cases h with
  | start =>
      unfold Roster.executing Roster.enroll
      cases r.run <;> rfl
  | roused _ _ _ _ _ hrun =>
      obtain ⟨first, rest, hfirst⟩ := List.exists_cons_of_ne_nil hrun
      unfold Roster.executing
      simp [hfirst]
  | _ => rfl

theorem Does.expects {call : Call} {progress : Progress call.Answer}
    (h : r.Does arena call progress r') (hslot : r'.Expects slot) :
    r.Expects slot ∨ slot = r.origins.length + 1 := by
  cases h with
  | @start origin hnumber hfew =>
      rcases hslot with hzero | ⟨id, hmem, rfl⟩
      · exact .inl (.inl hzero)
      · have hcases : id = .mainline ∨ id ∈ r.run ++ r.sleep ∨
            id = firstRun (r.origins.length + 1) := by
          unfold enroll at hmem
          simp only [List.mem_append, List.mem_singleton] at hmem ⊢
          split at hmem <;> grind
        rcases hcases with rfl | hold | rfl
        · exact .inl (.inl rfl)
        · exact .inl (.inr ⟨id, hold, rfl⟩)
        · exact .inr (index_firstRun hfew)
  | @roused _ _ id _ _ _ hsleep =>
      refine .inl (hslot.mono fun other hother => ?_)
      have hkept : other ∈ r.sleep.erase id → other ∈ r.sleep := List.mem_of_mem_erase
      simp only [List.mem_append, List.mem_singleton] at hother ⊢
      grind
  | _ => exact .inl hslot

theorem Settles.gone (h : r.Settles r') {id : TaskId} {rest : List TaskId} {part : Part}
    {code : UInt32} (hrun : r.run = id :: rest) (hpart : r.part? id.index = some part)
    (hmood : part.mood = .leaving code) : r'.part? id.index = some (part.ended code) := by
  have hfirst {id' : TaskId} {rest' : List TaskId} (hrun' : r.run = id' :: rest') : id' = id :=
    (List.cons.inj (hrun'.symm.trans hrun)).1
  cases h with
  | parked hrun' =>
      rw [← hfirst hrun'] at hpart
      contradiction
  | requeued hrun' hpart' hmood' | endless hrun' hpart' hmood' | timed hrun' hpart' hmood' =>
      obtain rfl := hfirst hrun'
      rw [hpart, Option.some.injEq] at hpart'
      rw [← hpart', hmood] at hmood'
      contradiction
  | ended hrun' hpart' hmood' =>
      obtain rfl := hfirst hrun'
      obtain rfl := Option.some.inj (hpart.symm.trans hpart')
      obtain rfl := Mood.leaving.inj (hmood.symm.trans hmood')
      exact (part?_setPart hpart _ _).trans (if_pos rfl)
  | released hrun' hpart' hmood' _ _ hne hwaiting =>
      obtain rfl := hfirst hrun'
      obtain rfl := Option.some.inj (hpart.symm.trans hpart')
      obtain rfl := Mood.leaving.inj (hmood.symm.trans hmood')
      have hother := (part?_setPart_ne hpart (part.ended code) hne).trans hwaiting
      refine (part?_setPart_ne hother _ hne.symm).trans ?_
      exact (part?_setPart hpart _ _).trans (if_pos rfl)

theorem Rings.part?_gone (h : r.Rings deadline r') {slot : Nat} {part : Part} {code : UInt32}
    (hpart : r.part? slot = some part) (hmood : part.mood = .gone code) :
    r'.part? slot = some part := by
  cases h with
  | @woken id _ _ _ _ hwaiting hdrowsy =>
      refine (part?_setPart_ne hwaiting _ fun he => ?_).trans hpart
      rw [← he, hpart, Option.some.injEq] at hwaiting
      rw [← hwaiting, hmood] at hdrowsy
      contradiction

theorem Yields.gone (h : r.Yields r') {id : TaskId} {rest : List TaskId} {part : Part}
    {code : UInt32} (hrun : r.run = id :: rest) (hpart : r.part? id.index = some part)
    (hmood : part.mood = .leaving code) : r'.part? id.index = some (part.ended code) := by
  cases h with
  | resumed hsettles => exact hsettles.gone hrun hpart hmood
  | rung hsettles hrings => exact hrings.part?_gone (hsettles.gone hrun hpart hmood) rfl

end Roster

/-! ## Scenes -/

/-- How tasks begin, where, what a switch costs and how many there may be. -/
structure Setting (μ : Type) where
  entries : UInt32 → UInt32 → Program μ UInt32
  arena : List StackRange
  switchCost : UInt64
  switchLimit : Nat

structure Scene (μ : Type) where
  roster : Roster
  /-- What the mainline and the tasks have left to do. -/
  programs : List (Program μ Unit)
  events : List (Event μ)

section

variable {μ : Type}

def Progress.remains {call : Call} (next : call.Answer → Program μ Unit) :
    Progress call.Answer → Program μ Unit
  | .done answer | .switchThen answer => next answer
  | .switchRetry => .call call next
  | .leave => .done ()

namespace Scene

def program (s : Scene μ) (slot : Nat) : Program μ Unit :=
  (s.programs[slot]?).getD (.done ())

def context (s : Scene μ) (slot : Nat) : Context :=
  contextIn s.roster.origins slot

def flow (s : Scene μ) (slot : Nat) : Flow μ where
  context := s.context slot
  run := if slot = 0 then none else some (firstRun slot)
  actor := .context (s.context slot)
  activities := [.execute (s.program slot)]

theorem program_set {r : Roster} {programs : List (Program μ Unit)} {program : Program μ Unit}
    {events : List (Event μ)} {slot : Nat} (hlt : slot < programs.length) :
    Scene.program ⟨r, programs.set slot program, events⟩ slot = program := by
  unfold Scene.program
  rw [List.getElem?_set_self hlt]
  rfl

end Scene

namespace Setting

def opening (v : Setting μ) (origin : Origin) : Program μ Unit :=
  (v.entries origin.entry origin.param).thenExit

def after (v : Setting μ) (s : Scene μ) (roster : Roster) (rest : Program μ Unit) : Scene μ :=
  { s with
    roster
    programs := s.programs.set s.roster.executing rest ++
      (roster.origins.drop s.roster.origins.length).map v.opening }

section

variable {v : Setting μ} {s : Scene μ} {r : Roster} {rest : Program μ Unit} {more : List Origin}
  {slot : Nat}

theorem programs_after (hmore : r.origins = s.roster.origins ++ more) :
    (v.after s r rest).programs =
      s.programs.set s.roster.executing rest ++ more.map v.opening := by
  unfold after
  rw [hmore, List.drop_left]

theorem after_of_origins (hsame : r.origins = s.roster.origins) : v.after s r rest =
    { s with roster := r, programs := s.programs.set s.roster.executing rest } := by
  unfold after
  rw [hsame, List.drop_length, List.map_nil, List.append_nil]

theorem program_after_other (hmore : r.origins = s.roster.origins ++ more)
    (hlt : slot < s.programs.length) (hne : slot ≠ s.roster.executing) :
    (v.after s r rest).program slot = s.program slot := by
  unfold Scene.program
  rw [programs_after hmore, List.getElem?_append_left (by rwa [List.length_set]),
    List.getElem?_set_ne (Ne.symm hne)]

theorem program_after_self (hmore : r.origins = s.roster.origins ++ more)
    (hlt : s.roster.executing < s.programs.length) :
    (v.after s r rest).program s.roster.executing = rest := by
  unfold Scene.program
  rw [programs_after hmore, List.getElem?_append_left (by rwa [List.length_set]),
    List.getElem?_set_self hlt]
  rfl

theorem context_after (hmore : r.origins = s.roster.origins ++ more)
    (hle : slot ≤ s.roster.origins.length) : (v.after s r rest).context slot = s.context slot := by
  show contextIn r.origins slot = contextIn s.roster.origins slot
  rw [hmore, contextIn_append hle]

theorem program_after_new {origin : Origin} (hmore : r.origins = s.roster.origins ++ more)
    (hlength : s.programs.length = s.roster.origins.length + 1)
    (horigin : originIn r.origins (s.roster.origins.length + 1) = some origin) :
    (v.after s r rest).program (s.roster.origins.length + 1) = v.opening origin := by
  have hnew : more[0]? = some origin := by
    rw [hmore, originIn, List.getElem?_append_right (Nat.le_refl _), Nat.sub_self] at horigin
    exact horigin
  unfold Scene.program
  rw [programs_after hmore, List.getElem?_append_right (by rw [List.length_set]; omega)]
  simp [hlength, hnew]

end

/-- What happens next in a scene, and how many switches it takes. -/
inductive Step (v : Setting μ) (s : Scene μ) : Nat → Scene μ → Prop
  | remark {name : String} {remark : Remark μ} {next : Unit → Program μ Unit} :
      s.program s.roster.executing = .act (.remark name remark) next →
      Step v s 0 { s with
        programs := s.programs.set s.roster.executing (next ())
        events := ⟨s.roster.clock, .context (s.context s.roster.executing), name, remark⟩ ::
          s.events }
  | answered {call : Call} {next : call.Answer → Program μ Unit} {answer : call.Answer}
      {r : Roster} :
      s.program s.roster.executing = .call call next →
      s.roster.Does v.arena call (.done answer) r →
      Step v s 0 (v.after s r (next answer))
  | switched {call : Call} {next : call.Answer → Program μ Unit} {progress : Progress call.Answer}
      {r r' : Roster} :
      s.program s.roster.executing = .call call next →
      s.roster.Does v.arena call progress r →
      progress.control = .leaving →
      (v.switchCost = 0 ∨ (r.elapse v.switchCost).Unhurried) →
      (r.elapse v.switchCost).Yields r' →
      Step v s 1 (v.after s r' (progress.remains next))

inductive Runs (v : Setting μ) : Nat → Scene μ → Scene μ → Prop
  | refl (s : Scene μ) : Runs v 0 s s
  | head {m n : Nat} {s t u : Scene μ} : v.Step s m t → Runs v n t u → Runs v (m + n) s u

theorem Runs.trans {v : Setting μ} {m n : Nat} {s t u : Scene μ} (h : v.Runs m s t)
    (h' : v.Runs n t u) : v.Runs (m + n) s u := by
  induction h with
  | refl s => rwa [Nat.zero_add]
  | head hstep _ ih =>
      rw [Nat.add_assoc]
      exact .head hstep (ih h')

def Reaches (v : Setting μ) (n : Nat) (s : Scene μ) (P : Scene μ → Prop) : Prop :=
  ∃ t, v.Runs n s t ∧ P t

namespace Reaches

variable {v : Setting μ} {n : Nat} {s : Scene μ} {P Q : Scene μ → Prop} {r r' : Roster}
variable {call : Call} {next : call.Answer → Program μ Unit}

theorem here (h : P s) : v.Reaches 0 s P :=
  ⟨s, .refl s, h⟩

theorem mono (h : v.Reaches n s P) (himp : ∀ t, P t → Q t) : v.Reaches n s Q := by
  obtain ⟨t, hruns, ht⟩ := h
  exact ⟨t, hruns, himp t ht⟩

theorem step {m : Nat} {t : Scene μ} (hstep : v.Step s m t) (h : v.Reaches n t P) :
    v.Reaches (m + n) s P := by
  obtain ⟨u, hruns, hu⟩ := h
  exact ⟨u, .head hstep hruns, hu⟩

theorem remark {name : String} {remark : Remark μ} {next : Unit → Program μ Unit}
    (hprogram : s.program s.roster.executing = .act (.remark name remark) next)
    (h : v.Reaches n { s with
      programs := s.programs.set s.roster.executing (next ())
      events := ⟨s.roster.clock, .context (s.context s.roster.executing), name, remark⟩ ::
        s.events } P) : v.Reaches n s P :=
  Nat.zero_add n ▸ step (.remark hprogram) h

theorem answer {answer : call.Answer}
    (hprogram : s.program s.roster.executing = .call call next)
    (hdoes : s.roster.Does v.arena call (.done answer) r)
    (h : v.Reaches n { s with
      roster := r
      programs := s.programs.set s.roster.executing (next answer) } P) : v.Reaches n s P := by
  rw [← after_of_origins hdoes.origins_done] at h
  exact Nat.zero_add n ▸ step (.answered hprogram hdoes) h

theorem switch {progress : Progress call.Answer}
    (hprogram : s.program s.roster.executing = .call call next)
    (hdoes : s.roster.Does v.arena call progress r) (hleaving : progress.control = .leaving)
    (horigins : r.origins = s.roster.origins)
    (hlater : v.switchCost = 0 ∨ (r.elapse v.switchCost).Unhurried)
    (hyields : (r.elapse v.switchCost).Yields r')
    (h : v.Reaches n { s with
      roster := r'
      programs := s.programs.set s.roster.executing (progress.remains next) } P) :
    v.Reaches (n + 1) s P := by
  have hsame : r'.origins = s.roster.origins := hyields.origins.trans horigins
  rw [← after_of_origins hsame] at h
  exact Nat.add_comm 1 n ▸ step (.switched hprogram hdoes hleaving hlater hyields) h

theorem start (origin : Origin) {next : Unit → Program μ Unit}
    (hprogram : s.program s.roster.executing =
      .call (.start origin.entry origin.param origin.stack) next)
    (hnumber : origin.stack < v.arena.length) (hfew : s.roster.origins.length + 1 < slotCount)
    (hfresh : ∀ other ∈ s.roster.origins, other.stack ≠ origin.stack)
    (hlater : v.switchCost = 0 ∨ ((s.roster.enroll origin).elapse v.switchCost).Unhurried)
    (hyields : ((s.roster.enroll origin).elapse v.switchCost).Yields r')
    (h : v.Reaches n { s with
      roster := r'
      programs := s.programs.set s.roster.executing (next ()) ++ [v.opening origin] } P) :
    v.Reaches (n + 1) s P := by
  have hmore : r'.origins = s.roster.origins ++ [origin] :=
    hyields.origins.trans Roster.origins_enroll
  have hafter : v.after s r' (next ()) = { s with
      roster := r'
      programs := s.programs.set s.roster.executing (next ()) ++ [v.opening origin] } := by
    unfold after
    rw [hmore, List.drop_left]
    rfl
  rw [← hafter] at h
  exact Nat.add_comm 1 n ▸
    step (.switched hprogram (.start hnumber hfew hfresh) rfl hlater hyields) h

/-! ### Switches that take no time -/

theorem switch_free {progress : Progress call.Answer} (hfree : v.switchCost = 0)
    (hprogram : s.program s.roster.executing = .call call next)
    (hdoes : s.roster.Does v.arena call progress r) (hleaving : progress.control = .leaving)
    (horigins : r.origins = s.roster.origins) (hyields : r.Yields r')
    (h : v.Reaches n { s with
      roster := r'
      programs := s.programs.set s.roster.executing (progress.remains next) } P) :
    v.Reaches (n + 1) s P :=
  switch hprogram hdoes hleaving horigins (.inl hfree) (by rwa [hfree, r.elapse_zero]) h

theorem start_free (hfree : v.switchCost = 0) (origin : Origin) {next : Unit → Program μ Unit}
    (hprogram : s.program s.roster.executing =
      .call (.start origin.entry origin.param origin.stack) next)
    (hnumber : origin.stack < v.arena.length) (hfew : s.roster.origins.length + 1 < slotCount)
    (hfresh : ∀ other ∈ s.roster.origins, other.stack ≠ origin.stack)
    (hyields : (s.roster.enroll origin).Yields r')
    (h : v.Reaches n { s with
      roster := r'
      programs := s.programs.set s.roster.executing (next ()) ++ [v.opening origin] } P) :
    v.Reaches (n + 1) s P :=
  start origin hprogram hnumber hfew hfresh (.inl hfree)
    (by rwa [hfree, Roster.elapse_zero]) h

end Reaches

end Setting

end

end CoopTasks

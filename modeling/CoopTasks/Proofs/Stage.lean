import CoopTasks.Proofs.History
import CoopTasks.Proofs.Operations

/-!
Who has the processor, and whose contexts are saved where.

A stage is a scheduler, the strand that has the processor, and the history of
both.  The processor follows the decisions of the scheduler: told to resume a
pointer, it goes on with a strand whose context lies there.
-/

namespace CoopTasks

open Scheduler

def Scheduler.Serves {H : Type} (s : Scheduler H) : Option Strand → Prop
  | some .mainline => s.runQueue = [] ∧ s.sleepers = [] ∨ s.runQueue.head? = some .mainline
  | some (.run _ id) => s.runQueue.head? = some id
  | none => ∀ id ∈ s.runQueue, id.index ≠ 0

structure Stage (H : Type) where
  scheduler : Scheduler H
  executing : Option Strand
  history : History

namespace Stage

variable {H : Type}

def start (hardware : H) : Stage H :=
  ⟨Scheduler.new hardware, some .mainline, []⟩

def Own (st : Stage H) (pointer : Address) : Prop :=
  ∀ strand, ¬st.history.Waits strand pointer

/-- A task that has been marked as exiting is retired by its next switch. -/
def departure (st : Stage H) (pointer : Address) : Turn :=
  if st.scheduler.current.any fun id => (st.scheduler.record id).exiting then .retired
  else .suspended pointer

def departed (st : Stage H) (strand : Strand) (pointer : Address) : History :=
  ⟨strand, st.departure pointer⟩ :: st.history

/-- What the processor makes of a decision. -/
inductive Obeyed (history : History) : Decision → Option Strand → History → Prop
  | resume {pointer : Address} {next : Strand} :
      history.Waits next pointer →
      Obeyed history (.resume pointer) (some next) (⟨next, .resumed pointer⟩ :: history)
  | idle : Obeyed history .idle none history

inductive Step [Hardware H] : Stage H → Stage H → Prop
  | start {st : Stage H} {strand : Strand} {stack : StackRange} {pointer : Address} {id : TaskId}
      {t : Scheduler H} :
      st.executing = some strand →
      st.Own pointer →
      st.scheduler.spawn stack pointer = .ok (t, .ok id) →
      Step st ⟨t, some strand, ⟨.run st.history.starts id, .started pointer⟩ :: st.history⟩
  | refuse {st : Stage H} {strand : Strand} {stack : StackRange} {pointer : Address}
      {reason : StartError} {t : Scheduler H} :
      st.executing = some strand →
      st.scheduler.spawn stack pointer = .ok (t, .error reason) →
      Step st { st with scheduler := t }
  | operate {st : Stage H} {op : Operation} {t : Scheduler H} {decision : Option Decision} :
      op.plain = true →
      op.interrupts = true ∨ st.executing ≠ none →
      st.scheduler.perform op = .ok (t, decision) →
      Step st { st with scheduler := t }
  | elapse {st : Stage H} {hardware : H} :
      Step st { st with scheduler := { st.scheduler with hardware } }
  | reschedule {st : Stage H} {strand : Strand} {pointer : Address} {t : Scheduler H}
      {decision : Decision} {executing : Option Strand} {history : History} :
      st.executing = some strand →
      st.Own pointer →
      st.scheduler.reschedule pointer = .ok (t, decision) →
      Obeyed (st.departed strand pointer) decision executing history →
      Step st ⟨t, executing, history⟩
  | dispatch {st : Stage H} {t : Scheduler H} {decision : Decision} {executing : Option Strand}
      {history : History} :
      st.executing = none →
      st.scheduler.dispatch = .ok (t, decision) →
      Obeyed st.history decision executing history →
      Step st ⟨t, executing, history⟩

inductive Reached [Hardware H] : Stage H → Prop
  | start (hardware : H) : Reached (Stage.start hardware)
  | step {st st' : Stage H} : Reached st → Step st st' → Reached st'

/-! ## Steps that are computed -/

instance (history : History) (strand : Strand) (pointer : Address) :
    Decidable (history.Waits strand pointer) :=
  inferInstanceAs (Decidable (_ ∨ _))

instance (st : Stage H) (pointer : Address) : Decidable (st.Own pointer) :=
  decidable_of_iff (∀ entry ∈ st.history, ¬st.history.Waits entry.strand pointer) <| by
    constructor
    · intro hfree strand hwaits
      obtain ⟨entry, hentry, rfl⟩ := hwaits.mem
      exact hfree entry hentry hwaits
    · intro hown entry _
      exact hown entry.strand

inductive Action where
  | start (stack : StackRange) (pointer : Address)
  | operate (op : Operation)
  | reschedule (pointer : Address)
  deriving DecidableEq, Repr

def obey (history : History) : Decision → Option (Option Strand × History)
  | .resume pointer =>
      (history.find? fun entry => history.Waits entry.strand pointer).map fun entry =>
        (some entry.strand, ⟨entry.strand, .resumed pointer⟩ :: history)
  | .idle => some (none, history)

theorem obeyed_of_obey {history after : History} {decision : Decision} {executing : Option Strand}
    (h : obey history decision = some (executing, after)) :
    Obeyed history decision executing after := by
  cases decision with
  | resume pointer =>
      obtain ⟨entry, hfind, hentry⟩ := Option.map_eq_some_iff.mp h
      obtain ⟨rfl, rfl⟩ := Prod.mk.inj hentry
      have hwaits := List.find?_some hfind
      exact .resume (of_decide_eq_true hwaits)
  | idle =>
      obtain ⟨rfl, rfl⟩ := Prod.mk.inj (Option.some.inj h)
      exact .idle

def act [Hardware H] (st : Stage H) : Action → Option (Stage H)
  | .start stack pointer =>
      st.executing.bind fun strand =>
        if st.Own pointer then
          (st.scheduler.spawn stack pointer).toOption.bind fun r =>
            r.2.toOption.map fun id =>
              ⟨r.1, some strand, ⟨.run st.history.starts id, .started pointer⟩ :: st.history⟩
        else
          none
  | .operate op =>
      if op.plain = true ∧ st.executing ≠ none then
        (st.scheduler.perform op).toOption.map fun r => { st with scheduler := r.1 }
      else
        none
  | .reschedule pointer =>
      st.executing.bind fun strand =>
        if st.Own pointer then
          (st.scheduler.reschedule pointer).toOption.bind fun r =>
            (obey (st.departed strand pointer) r.2).map fun next => ⟨r.1, next.1, next.2⟩
        else
          none

def run [Hardware H] (st : Stage H) : List Action → Option (Stage H)
  | [] => some st
  | action :: actions => (st.act action).bind fun st => st.run actions

theorem Step.of_act [Hardware H] {st st' : Stage H} {action : Action}
    (h : st.act action = some st') : Step st st' := by
  cases action <;> simp only [act, Option.bind_eq_some_iff, Option.ite_none_right_eq_some,
    Option.map_eq_some_iff, toOption_eq_some, Prod.exists] at h
  case start =>
      obtain ⟨strand, hexec, hown, t, outcome, hok, id, rfl, rfl⟩ := h
      exact .start hexec hown hok
  case operate =>
      obtain ⟨⟨hplain, hexec⟩, t, decision, hok, rfl⟩ := h
      exact .operate hplain (.inr hexec) hok
  case reschedule =>
      obtain ⟨strand, hexec, hown, t, decision, hok, executing, history, hobey, rfl⟩ := h
      exact .reschedule hexec hown hok (obeyed_of_obey hobey)

theorem Reached.run [Hardware H] {st st' : Stage H} {actions : List Action} (h : Reached st)
    (hrun : st.run actions = some st') : Reached st' := by
  induction actions generalizing st with
  | nil =>
      obtain rfl := Option.some.inj hrun
      exact h
  | cons action actions ih =>
      obtain ⟨next, hact, hrest⟩ := Option.bind_eq_some_iff.mp hrun
      exact ih (h.step (.of_act hact)) hrest

/-! ## The invariant -/

/-- The tasks of the scheduler are the strands of the history. -/
structure Tracked (st : Stage H) : Prop where
  standing : st.scheduler.Standing
  alternating : st.history.Alternating
  numbers : ∀ number id, st.history.latest (.run number id) ≠ none → number < st.history.starts
  occupied : ∀ number id, st.history.Lives (.run number id) →
    id.index ∈ slots ∧ st.scheduler.idOf id.index = id ∧ st.scheduler.Occupied id.index
  owned : ∀ slot ∈ slots, st.scheduler.Occupied slot →
    ∃ number, st.history.Lives (.run number (st.scheduler.idOf slot))
  distinct : ∀ number number' id, st.history.Lives (.run number id) →
    st.history.Lives (.run number' id) → number = number'
  pointer : ∀ strand pointer, st.history.Waits strand pointer →
    (st.scheduler.record strand.task).pointer = pointer
  apart : ∀ strand other pointer, st.history.Waits strand pointer →
    st.history.Waits other pointer → strand = other
  executing : ∀ strand, st.history.Executes strand ↔ st.executing = some strand
  serves : st.scheduler.Serves st.executing

variable {st : Stage H} {s t u : Scheduler H} {id : TaskId} {strand other : Strand}
variable {change : TaskRecord → TaskRecord} {pointer : Address} {executing : Option Strand}

theorem Tracked.eq_of_index (h : st.Tracked) (hstrand : st.history.Lives strand)
    (hother : st.history.Lives other) (hindex : strand.task.index = other.task.index) :
    strand = other := by
  have hzero : TaskId.mainline.index = 0 := rfl
  cases strand with
  | mainline =>
      cases other with
      | mainline => rfl
      | run number id =>
          obtain ⟨hslot, _, _⟩ := h.occupied number id hother
          exact absurd hindex.symm (mem_slots.mp hslot).1
  | run number id =>
      obtain ⟨hslot, hidOf, _⟩ := h.occupied number id hstrand
      cases other with
      | mainline => exact absurd hindex (mem_slots.mp hslot).1
      | run number' id' =>
          obtain ⟨_, hidOf', _⟩ := h.occupied number' id' hother
          have hid : id = id' := by
            rw [← hidOf, ← hidOf']
            exact congrArg _ hindex
          subst hid
          rw [h.distinct number number' id hstrand hother]

theorem Tracked.current_eq (h : st.Tracked) (hexec : st.executing = some strand) :
    st.scheduler.current = strand.current := by
  have hserves := h.serves
  rw [hexec] at hserves
  cases strand with
  | mainline =>
      unfold Scheduler.current
      rw [h.standing.ready_head]
      rcases hserves with ⟨hempty, _⟩ | hhead
      · rw [hempty]
        rfl
      · rw [hhead]
        rfl
  | run number id =>
      obtain ⟨hslot, _⟩ := h.occupied number id (.inl ((h.executing _).mpr hexec))
      exact h.standing.current_eq_some_iff.mpr ⟨hserves, (mem_slots.mp hslot).1⟩

/-! ## Steps that leave the contexts alone -/

def SteadyAt (s t : Scheduler H) (slot : Nat) : Prop :=
  (t.tasks.record slot).pointer = (s.tasks.record slot).pointer ∧
    (t.tasks.record slot).generation = (s.tasks.record slot).generation ∧
    (slot ∈ slots → (t.Occupied slot ↔ s.Occupied slot))

theorem SteadyAt.idOf {slot : Nat} (h : SteadyAt s t slot) : t.idOf slot = s.idOf slot :=
  idOf_eq h.2.1

theorem steadyAt_of_record {slot : Nat} (h : t.tasks.record slot = s.tasks.record slot) :
    SteadyAt s t slot := by
  unfold SteadyAt Occupied
  rw [h]
  exact ⟨rfl, rfl, fun _ => Iff.rfl⟩

theorem Tracked.steady (h : st.Tracked) (hs : t.Standing)
    (hsteady : ∀ slot, SteadyAt st.scheduler t slot) (hserves : t.Serves st.executing) :
    Tracked { st with scheduler := t } := by
  refine ⟨hs, h.alternating, h.numbers, ?occupied, ?owned, h.distinct, ?pointer, h.apart,
    h.executing, hserves⟩
  case occupied =>
    intro number id hlives
    obtain ⟨hslot, hidOf, hoccupied⟩ := h.occupied number id hlives
    exact ⟨hslot, (hsteady _).idOf.trans hidOf, ((hsteady _).2.2 hslot).mpr hoccupied⟩
  case owned =>
    intro slot hslot hoccupied
    obtain ⟨number, hlives⟩ := h.owned slot hslot (((hsteady slot).2.2 hslot).mp hoccupied)
    refine ⟨number, ?_⟩
    show st.history.Lives (.run number (t.idOf slot))
    rw [(hsteady slot).idOf]
    exact hlives
  case pointer =>
    intro strand pointer hwaits
    exact (hsteady _).1.trans (h.pointer strand pointer hwaits)

theorem serves_congr (hrun : t.runQueue = s.runQueue) (hsleep : t.sleepers = s.sleepers)
    (h : s.Serves executing) : t.Serves executing := by
  unfold Serves at h ⊢
  rw [hrun, hsleep]
  exact h

theorem steady_of_altered (h : Altered s id change t)
    (hpointer : ∀ r, (change r).pointer = r.pointer)
    (hgeneration : ∀ r, (change r).generation = r.generation)
    (hstate : ∀ r, (change r).state = r.state) (slot : Nat) : SteadyAt s t slot := by
  unfold SteadyAt Occupied
  rw [h slot]
  split
  · rw [hpointer, hgeneration, hstate]
    exact ⟨rfl, rfl, fun _ => Iff.rfl⟩
  · exact ⟨rfl, rfl, fun _ => Iff.rfl⟩

theorem Tracked.moved (h : st.Tracked)
    (hmoved : Moved st.scheduler id change st.scheduler.runQueue st.scheduler.sleepers t)
    (hpointer : ∀ r, (change r).pointer = r.pointer)
    (hgeneration : ∀ r, (change r).generation = r.generation)
    (hstate : ∀ r, (change r).state = r.state) : Tracked { st with scheduler := t } :=
  h.steady hmoved.standing (steady_of_altered hmoved.altered hpointer hgeneration hstate)
    (serves_congr hmoved.runQueue hmoved.sleepers h.serves)

theorem Tracked.alarmMoved (h : st.Tracked) (hmoved : AlarmMoved st.scheduler t) :
    Tracked { st with scheduler := t } := by
  apply h.steady (hmoved.standing h.standing)
  · intro slot
    apply steadyAt_of_record
    rw [hmoved.tasks]
  · exact serves_congr hmoved.runQueue_eq hmoved.sleepers_eq h.serves

theorem steady_of_woke (h : Woke s id t) (slot : Nat) : SteadyAt s t slot := by
  have hwoken : ∀ r : TaskRecord, (r.woken.state ≠ .vacant ∧ r.woken.state ≠ .exited) ↔
      r.state ≠ .vacant ∧ r.state ≠ .exited := by
    intro r
    unfold TaskRecord.woken
    dsimp only
    split
    · rename_i hsleeping
      rw [hsleeping]
      decide
    · rfl
  unfold SteadyAt Occupied
  rw [h.record slot]
  split
  · exact ⟨rfl, rfl, fun _ => hwoken _⟩
  · exact ⟨rfl, rfl, fun _ => Iff.rfl⟩

theorem serves_of_woke (hs : s.Standing) (h : Woke s id t) (hserves : s.Serves executing) :
    t.Serves executing := by
  have hhead : ∀ first, s.runQueue.head? = some first → t.runQueue.head? = some first := by
    intro first hfirst
    rw [h.runQueue, List.head?_append, hfirst]
    rfl
  cases executing with
  | none =>
      intro other hother
      rw [h.runQueue, List.mem_append] at hother
      rcases hother with hother | hother
      · exact hserves other hother
      · split at hother
        · rw [List.mem_singleton.mp hother]
          exact h.task
        · simp at hother
  | some strand =>
      cases strand with
      | run number first => exact hhead first hserves
      | mainline =>
          rcases hserves with ⟨hrun, hsleep⟩ | hfirst
          · refine .inl ⟨?_, ?_⟩
            · have hawake : (s.record id).state ≠ .sleeping := by
                intro hstate
                have hmem := Placed.mem_sleep_of_sleeping hs h.task h.current hstate
                rw [hsleep] at hmem
                simp at hmem
              rw [h.runQueue, hrun, if_neg hawake, List.append_nil]
            · rw [h.sleepers, hsleep, List.erase_nil]
          · exact .inr (hhead _ hfirst)

theorem Tracked.wakes (h : st.Tracked) {ids : List TaskId} (hwakes : Wakes st.scheduler ids t) :
    Tracked { st with scheduler := t } := by
  refine hwakes.preserves (P := fun t => Tracked { st with scheduler := t }) ?_ ?_ h
  · intro s u hmoved hs
    exact hs.alarmMoved hmoved
  · intro s id u hwoke hs
    exact hs.steady hwoke.standing (steady_of_woke hwoke)
      (serves_of_woke hs.standing hwoke hs.serves)

theorem Tracked.attempted (h : st.Tracked) {signal signal' : Signal} {result : WaitResult}
    (hattempted : Attempted st.scheduler signal t signal' result) :
    Tracked { st with scheduler := t } := by
  cases hattempted with
  | acquired _ => exact h
  | parked _ _ _ _ _ hmoved _ => exact h.moved hmoved (fun _ => rfl) (fun _ => rfl) fun _ => rfl
  | busy _ _ _ _ _ => exact h

/-! ## One turn more -/

structure Turned (st : Stage H) (strand : Strand) (turn : Turn) (t : Scheduler H)
    (executing : Option Strand) : Prop where
  standing : t.Standing
  follows : st.history.Follows ⟨strand, turn⟩
  steady : ∀ slot, slot ≠ strand.task.index → SteadyAt st.scheduler t slot
  alone : ∀ other, other ≠ strand → st.history.Lives other →
    other.task.index ≠ strand.task.index
  self : ∀ number id, strand = .run number id →
    number < History.starts (⟨strand, turn⟩ :: st.history) ∧ id.index ∈ slots ∧
      t.idOf id.index = id ∧ (t.Occupied id.index ↔ turn ≠ .retired)
  saved : ∀ pointer, turn = .started pointer ∨ turn = .suspended pointer →
    (t.record strand.task).pointer = pointer ∧ st.Own pointer
  executes : ∀ other, History.Executes (⟨strand, turn⟩ :: st.history) other ↔
    executing = some other
  serves : t.Serves executing

section Turned

variable {turn : Turn}

theorem Turned.waits_other (h : Turned st strand turn t executing) (hne : other ≠ strand)
    (hwaits : History.Waits (⟨strand, turn⟩ :: st.history) other pointer) :
    st.history.Waits other pointer ∧ SteadyAt st.scheduler t other.task.index := by
  rw [History.waits_other hne] at hwaits
  exact ⟨hwaits, h.steady _ (h.alone other hne (.inr ⟨pointer, hwaits⟩))⟩

theorem Turned.apart_self (h : Turned st strand turn t executing)
    (hwaits : History.Waits (⟨strand, turn⟩ :: st.history) strand pointer)
    (hother : History.Waits (⟨strand, turn⟩ :: st.history) other pointer) : other = strand := by
  by_cases hne : other = strand
  · exact hne
  · obtain ⟨_, hown⟩ := h.saved pointer (History.waits_self.mp hwaits)
    exact absurd (h.waits_other hne hother).1 (hown other)

theorem Turned.apart (h : Turned st strand turn t executing) (htracked : st.Tracked)
    {first second : Strand}
    (hfirst : History.Waits (⟨strand, turn⟩ :: st.history) first pointer)
    (hsecond : History.Waits (⟨strand, turn⟩ :: st.history) second pointer) : first = second := by
  by_cases he : first = strand
  · subst he
    exact (h.apart_self hfirst hsecond).symm
  · by_cases he' : second = strand
    · subst he'
      exact h.apart_self hsecond hfirst
    · exact htracked.apart first second pointer (h.waits_other he hfirst).1
        (h.waits_other he' hsecond).1

theorem Turned.distinct (h : Turned st strand turn t executing) (htracked : st.Tracked)
    {number number' : Nat}
    (hlives : History.Lives (⟨strand, turn⟩ :: st.history) (.run number id))
    (hlives' : History.Lives (⟨strand, turn⟩ :: st.history) (.run number' id)) :
    number = number' := by
  by_cases he : .run number id = strand
  · by_cases he' : .run number' id = strand
    · exact (Strand.run.inj (he.trans he'.symm)).1
    · have hne := h.alone _ he' ((History.lives_other he').mp hlives')
      rw [← he] at hne
      exact absurd rfl hne
  · rw [History.lives_other he] at hlives
    by_cases he' : .run number' id = strand
    · have hne := h.alone _ he hlives
      rw [← he'] at hne
      exact absurd rfl hne
    · exact htracked.distinct number number' id hlives ((History.lives_other he').mp hlives')

theorem Turned.owned (h : Turned st strand turn t executing) (htracked : st.Tracked) {slot : Nat}
    (hslot : slot ∈ slots) (hoccupied : t.Occupied slot) :
    ∃ number, History.Lives (⟨strand, turn⟩ :: st.history) (.run number (t.idOf slot)) := by
  by_cases he : slot = strand.task.index
  · cases strand with
    | mainline => exact absurd he (mem_slots.mp hslot).1
    | run number id =>
        change slot = id.index at he
        subst he
        obtain ⟨_, _, hidOf, hturn⟩ := h.self number id rfl
        refine ⟨number, ?_⟩
        rw [hidOf]
        exact History.lives_self.mpr (hturn.mp hoccupied)
  · have hkept := h.steady slot he
    obtain ⟨number, hlives⟩ := htracked.owned slot hslot ((hkept.2.2 hslot).mp hoccupied)
    refine ⟨number, ?_⟩
    rw [hkept.idOf]
    -- the owner of another slot is another strand
    refine (History.lives_other ?_).mpr hlives
    rintro rfl
    exact he (index_idOf _ (mem_slots.mp hslot).2).symm

theorem Tracked.extend (h : st.Tracked) (hturned : Turned st strand turn t executing) :
    Tracked ⟨t, executing, ⟨strand, turn⟩ :: st.history⟩ where
  standing := hturned.standing
  alternating := History.alternating_cons.mpr ⟨hturned.follows, h.alternating⟩
  numbers := by
    intro number id hlatest
    by_cases he : .run number id = strand
    · exact (hturned.self number id he.symm).1
    · rw [History.latest_other he] at hlatest
      have hlt := h.numbers number id hlatest
      have hle : st.history.starts ≤ History.starts (⟨strand, turn⟩ :: st.history) := by
        cases turn <;> simp [History.starts]
      exact Nat.lt_of_lt_of_le hlt hle
  occupied := by
    intro number id hlives
    by_cases he : .run number id = strand
    · obtain ⟨_, hslot, hidOf, hoccupied⟩ := hturned.self number id he.symm
      subst he
      exact ⟨hslot, hidOf, hoccupied.mpr (History.lives_self.mp hlives)⟩
    · rw [History.lives_other he] at hlives
      obtain ⟨hslot, hidOf, hoccupied⟩ := h.occupied number id hlives
      have hkept := hturned.steady id.index (hturned.alone _ he hlives)
      exact ⟨hslot, hkept.idOf.trans hidOf, (hkept.2.2 hslot).mpr hoccupied⟩
  owned := fun _ hslot hoccupied => hturned.owned h hslot hoccupied
  distinct := fun _ _ _ hlives hlives' => hturned.distinct h hlives hlives'
  pointer := by
    intro other pointer hwaits
    by_cases he : other = strand
    · subst he
      exact (hturned.saved pointer (History.waits_self.mp hwaits)).1
    · obtain ⟨hwaits, hkept⟩ := hturned.waits_other he hwaits
      exact hkept.1.trans (h.pointer other pointer hwaits)
  apart := fun _ _ _ hfirst hsecond => hturned.apart h hfirst hsecond
  executing := hturned.executes
  serves := hturned.serves

theorem Tracked.altered (h : st.Tracked) {number : Nat}
    (hlives : st.history.Lives (.run number id)) (haltered : Altered st.scheduler id change t)
    (hgeneration : ∀ r, (change r).generation = r.generation) :
    number < st.history.starts ∧ id.index ∈ slots ∧ t.idOf id.index = id := by
  obtain ⟨hslot, hidOf, _⟩ := h.occupied number id hlives
  refine ⟨h.numbers number id (hlives.latest_ne_none (by simp)), hslot, ?_⟩
  refine (idOf_eq ?_).trans hidOf
  rw [haltered id.index, if_pos rfl, hgeneration]

theorem Tracked.departs (h : st.Tracked) (hexec : st.executing = some strand)
    (hown : st.Own pointer)
    (hturn : turn = .suspended pointer ∨ turn = .retired ∧ strand ≠ .mainline)
    (hs : t.Standing) (haltered : Altered st.scheduler strand.task change t)
    (hgeneration : ∀ r, (change r).generation = r.generation)
    (hpointer : turn = .suspended pointer → (t.record strand.task).pointer = pointer)
    (hoccupied : strand ≠ .mainline → (t.Occupied strand.task.index ↔ turn ≠ .retired))
    (hserves : t.Serves none) : Tracked ⟨t, none, ⟨strand, turn⟩ :: st.history⟩ := by
  have hexecutes : st.history.Executes strand := (h.executing strand).mpr hexec
  apply h.extend
  refine ⟨hs, ?follows, ?steady, ?alone, ?self, ?saved, ?executes, hserves⟩
  case follows =>
    rcases hturn with rfl | ⟨rfl, hne⟩
    · exact hexecutes
    · exact ⟨hne, hexecutes⟩
  case steady =>
    intro slot hne
    exact steadyAt_of_record ((haltered slot).trans (if_neg hne))
  case alone =>
    intro other hne hlives he
    exact hne (h.eq_of_index hlives (.inl hexecutes) he)
  case self =>
    rintro number id rfl
    obtain ⟨hlt, hslot, hidOf⟩ := h.altered (.inl hexecutes) haltered hgeneration
    have hstarts : History.starts (⟨.run number id, turn⟩ :: st.history) = st.history.starts := by
      rcases hturn with rfl | ⟨rfl, _⟩ <;> rfl
    rw [hstarts]
    exact ⟨hlt, hslot, hidOf, hoccupied (by simp)⟩
  case saved =>
    rintro saved hsaved
    rcases hturn with rfl | ⟨rfl, _⟩
    · obtain rfl : pointer = saved := by simpa using hsaved
      exact ⟨hpointer rfl, hown⟩
    · simp at hsaved
  case executes =>
    intro other
    by_cases he : other = strand
    · subst he
      rw [History.executes_self]
      rcases hturn with rfl | ⟨rfl, _⟩ <;> simp
    · rw [History.executes_other he, h.executing, hexec]
      simp [Ne.symm he]

theorem Tracked.resumes (h : st.Tracked) (hexec : st.executing = none)
    (hwaits : st.history.Waits strand pointer) (hs : t.Standing)
    (haltered : Altered st.scheduler strand.task change t)
    (hgeneration : ∀ r, (change r).generation = r.generation)
    (hoccupied : strand ≠ .mainline → t.Occupied strand.task.index)
    (hserves : t.Serves (some strand)) :
    Tracked ⟨t, some strand, ⟨strand, .resumed pointer⟩ :: st.history⟩ := by
  have hlives : st.history.Lives strand := .inr ⟨pointer, hwaits⟩
  apply h.extend
  refine ⟨hs, hwaits, ?steady, ?alone, ?self, ?saved, ?executes, hserves⟩
  case steady =>
    intro slot hne
    exact steadyAt_of_record ((haltered slot).trans (if_neg hne))
  case alone =>
    intro other hne hother he
    exact hne (h.eq_of_index hother hlives he)
  case self =>
    rintro number id rfl
    obtain ⟨hlt, hslot, hidOf⟩ := h.altered hlives haltered hgeneration
    exact ⟨hlt, hslot, hidOf, fun _ => by simp, fun _ => hoccupied (by simp)⟩
  case saved =>
    rintro saved (hsaved | hsaved) <;> contradiction
  case executes =>
    intro other
    by_cases he : other = strand
    · subst he
      simp [History.executes_self]
    · rw [History.executes_other he, h.executing, hexec]
      simp [Ne.symm he]

end Turned

theorem Tracked.waits_of_lives (h : st.Tracked) (hexec : st.executing = none)
    (hlives : st.history.Lives strand) :
    st.history.Waits strand (st.scheduler.record strand.task).pointer := by
  rcases hlives with hexecutes | ⟨pointer, hwaits⟩
  · have hsome := (h.executing strand).mp hexecutes
    rw [hexec] at hsome
    contradiction
  · rwa [h.pointer strand pointer hwaits]

theorem Tracked.resumed (h : st.Tracked) (hexec : st.executing = none)
    (hdispatched : Dispatched st.scheduler t (.resume pointer)) :
    ∃ next, st.history.Waits next pointer ∧
      Tracked ⟨t, some next, ⟨next, .resumed pointer⟩ :: st.history⟩ := by
  have hfree : st.scheduler.Serves none := hexec ▸ h.serves
  cases hdispatched with
  | @resumed _ id hhead _ hmoved _ =>
      have hmem : id ∈ st.scheduler.runQueue := List.mem_of_head? hhead
      have hne : id.index ≠ 0 := hfree id hmem
      have hlt := h.standing.index_lt (List.mem_append_left _ hmem)
      have hidOf : st.scheduler.idOf id.index = id :=
        h.standing.idOf_index (List.mem_append_left _ hmem)
      have hoccupied := h.standing.occupied hmem hne
      obtain ⟨number, hlives⟩ := h.owned id.index (mem_slots.mpr ⟨hne, hlt⟩) hoccupied
      rw [hidOf] at hlives
      have hwaits := h.waits_of_lives hexec hlives
      have hfirst : t.runQueue.head? = some id := by rw [hmoved.runQueue, hhead]
      refine ⟨.run number id, hwaits, ?_⟩
      refine h.resumes hexec hwaits hmoved.standing hmoved.altered (fun _ => rfl) ?_ hfirst
      intro _
      exact occupied_of_state (congrArg TaskRecord.state hmoved.self) ⟨by simp, by simp⟩
  | drained hrun hsleep _ hmoved _ =>
      have hwaits := h.waits_of_lives hexec h.alternating.lives_mainline
      refine ⟨.mainline, hwaits, ?_⟩
      refine h.resumes hexec hwaits hmoved.standing hmoved.altered (fun _ => rfl) ?_ ?_
      · intro hne
        exact absurd rfl hne
      · exact .inl ⟨hmoved.runQueue, hmoved.sleepers⟩

theorem Tracked.dispatched (h : st.Tracked) (hexec : st.executing = none) {decision : Decision}
    {history : History} (hdispatched : Dispatched st.scheduler t decision)
    (hobeyed : Obeyed st.history decision executing history) :
    Tracked ⟨t, executing, history⟩ := by
  cases hobeyed with
  | @resume _ next hwaits =>
      obtain ⟨other, hother, htracked⟩ := h.resumed hexec hdispatched
      obtain rfl := h.apart next other _ hwaits hother
      exact htracked
  | idle =>
      cases hdispatched with
      | idle _ _ =>
          rw [← hexec]
          exact h

variable [Hardware H]

theorem Tracked.wakeWaiter (h : st.Tracked) {waiter : Option TaskId}
    (hok : st.scheduler.wakeWaiter waiter = .ok t) : Tracked { st with scheduler := t } := by
  cases waiter with
  | none =>
      obtain rfl := Except.ok.inj hok
      exact h
  | some id =>
      obtain ⟨ids, hwakes⟩ := h.standing.wakes_of_wake hok
      exact h.wakes hwakes

theorem Tracked.performed (h : st.Tracked) {op : Operation} {decision : Option Decision}
    (hplain : op.plain = true) (hperformed : Performed st.scheduler op t decision) :
    Tracked { st with scheduler := t } := by
  cases hperformed with
  | refused | started | switched | dispatched => contradiction
  | exiting _ _ hmoved => exact h.moved hmoved (fun _ => rfl) (fun _ => rfl) fun _ => rfl
  | asleep _ _ hmoved => exact h.moved hmoved (fun _ => rfl) (fun _ => rfl) fun _ => rfl
  | woken hok =>
      obtain ⟨ids, hwakes⟩ := h.standing.wakes_of_wake hok
      exact h.wakes hwakes
  | posted hok => exact h.wakeWaiter hok
  | attempted hattempted => exact h.attempted hattempted
  | joined hattempted _ hmoved =>
      exact (h.attempted hattempted).moved hmoved (fun _ => rfl) (fun _ => rfl) fun _ => rfl
  | tried _ hmoved => exact h.moved hmoved (fun _ => rfl) (fun _ => rfl) fun _ => rfl
  | handled hok =>
      obtain ⟨ids, hwakes⟩ := h.standing.wakes_of_handleAlarm hok
      exact h.wakes hwakes

end Stage

end CoopTasks

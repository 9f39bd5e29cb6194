import CoopTasks.Stack.Range
import CoopTasks.TaskId

/-!
The turns that the mainline and the tasks take.

A history lists what happened to the contexts of all of them, latest first.
`History.Alternating` says that each context is saved before it is resumed, is
resumed from where it was saved, and is never resumed after its task has ended.
-/

namespace CoopTasks

/--
The mainline, or a task from its start to its end.  Starts are numbered without
end, while the slot and the generation of a task come back one day.
-/
inductive Strand where
  | mainline
  | run (number : Nat) (id : TaskId)
  deriving DecidableEq, Repr

namespace Strand

def task : Strand → TaskId
  | mainline => .mainline
  | run _ id => id

def current : Strand → Option TaskId
  | mainline => none
  | run _ id => some id

end Strand

inductive Turn where
  | started (pointer : Address)
  | suspended (pointer : Address)
  | resumed (pointer : Address)
  | retired
  deriving DecidableEq, Repr

structure Entry where
  strand : Strand
  turn : Turn
  deriving DecidableEq, Repr

abbrev History := List Entry

namespace History

variable {h : History} {strand other : Strand} {turn : Turn} {pointer : Address}

def latest (h : History) (strand : Strand) : Option Turn :=
  (h.find? fun entry => entry.strand = strand).map Entry.turn

def starts : History → Nat
  | [] => 0
  | ⟨_, .started _⟩ :: h => starts h + 1
  | _ :: h => starts h

/-- The strand is suspended, and its context lies at a pointer. -/
def Waits (h : History) (strand : Strand) (pointer : Address) : Prop :=
  h.latest strand = some (.started pointer) ∨ h.latest strand = some (.suspended pointer)

/-- The strand has been resumed and not suspended since; the mainline needs no start. -/
def Executes (h : History) (strand : Strand) : Prop :=
  (∃ pointer, h.latest strand = some (.resumed pointer)) ∨
    strand = .mainline ∧ h.latest strand = none

def Lives (h : History) (strand : Strand) : Prop :=
  h.Executes strand ∨ ∃ pointer, h.Waits strand pointer

def Follows (h : History) : Entry → Prop
  | ⟨strand, .started _⟩ => strand ≠ .mainline ∧ h.latest strand = none
  | ⟨strand, .suspended _⟩ => h.Executes strand
  | ⟨strand, .resumed pointer⟩ => h.Waits strand pointer
  | ⟨strand, .retired⟩ => strand ≠ .mainline ∧ h.Executes strand

/-- Every entry has followed what was before it. -/
def Alternating (h : History) : Prop :=
  ∀ later entry earlier, h = later ++ entry :: earlier → Follows earlier entry

theorem latest_self : latest (⟨strand, turn⟩ :: h) strand = some turn := by
  simp [latest]

theorem latest_other (hother : other ≠ strand) :
    latest (⟨strand, turn⟩ :: h) other = h.latest other := by
  simp [latest, Ne.symm hother]

theorem waits_self : Waits (⟨strand, turn⟩ :: h) strand pointer ↔
    turn = .started pointer ∨ turn = .suspended pointer := by
  simp only [Waits, latest_self, Option.some.injEq]

theorem executes_self :
    Executes (⟨strand, turn⟩ :: h) strand ↔ ∃ pointer, turn = .resumed pointer := by
  simp only [Executes, latest_self, Option.some.injEq, reduceCtorEq, and_false, or_false]

theorem lives_self : Lives (⟨strand, turn⟩ :: h) strand ↔ turn ≠ .retired := by
  simp only [Lives, executes_self, waits_self]
  cases turn <;> simp

theorem waits_other (hother : other ≠ strand) :
    Waits (⟨strand, turn⟩ :: h) other pointer ↔ h.Waits other pointer := by
  simp only [Waits, latest_other hother]

theorem executes_other (hother : other ≠ strand) :
    Executes (⟨strand, turn⟩ :: h) other ↔ h.Executes other := by
  simp only [Executes, latest_other hother]

theorem lives_other (hother : other ≠ strand) :
    Lives (⟨strand, turn⟩ :: h) other ↔ h.Lives other := by
  simp only [Lives, executes_other hother, waits_other hother]

theorem Waits.mem (hw : h.Waits strand pointer) : ∃ entry ∈ h, entry.strand = strand := by
  have hlatest : h.latest strand ≠ none := by
    rcases hw with hw | hw <;> simp [hw]
  cases hfind : h.find? fun entry => entry.strand = strand with
  | none => simp [latest, hfind] at hlatest
  | some entry =>
      exact ⟨entry, List.mem_of_find?_eq_some hfind, by simpa using List.find?_some hfind⟩

theorem Lives.latest_ne_none (hl : h.Lives strand) (hstrand : strand ≠ .mainline) :
    h.latest strand ≠ none := by
  rcases hl with (⟨_, he⟩ | ⟨he, _⟩) | ⟨_, he | he⟩
  · simp [he]
  · exact absurd he hstrand
  · simp [he]
  · simp [he]

theorem not_lives_of_retired (hretired : h.latest strand = some .retired) : ¬h.Lives strand := by
  rintro ((⟨_, he⟩ | ⟨_, he⟩) | ⟨_, he | he⟩) <;> rw [hretired] at he <;> simp at he

theorem alternating_nil : Alternating [] := by
  intro later entry earlier h
  simp at h

theorem alternating_cons {entry : Entry} :
    Alternating (entry :: h) ↔ h.Follows entry ∧ h.Alternating := by
  constructor
  · intro halternating
    refine ⟨halternating [] entry h rfl, ?_⟩
    intro later other earlier hsplit
    exact halternating (entry :: later) other earlier (by rw [hsplit, List.cons_append])
  · rintro ⟨hfollows, halternating⟩ later other earlier hsplit
    cases later with
    | nil =>
        obtain ⟨rfl, rfl⟩ := List.cons.inj hsplit
        exact hfollows
    | cons first rest =>
        obtain ⟨rfl, hrest⟩ := List.cons.inj hsplit
        exact halternating rest other earlier hrest

theorem Alternating.lives_mainline (halternating : h.Alternating) : h.Lives .mainline := by
  induction h with
  | nil => exact .inl (.inr ⟨rfl, rfl⟩)
  | cons entry h ih =>
      obtain ⟨hfollows, hrest⟩ := alternating_cons.mp halternating
      obtain ⟨strand, turn⟩ := entry
      by_cases he : strand = .mainline
      · subst he
        cases turn with
        | started pointer => exact absurd rfl hfollows.1
        | suspended pointer => exact .inr ⟨pointer, .inr latest_self⟩
        | resumed pointer => exact .inl (.inl ⟨pointer, latest_self⟩)
        | retired => exact absurd rfl hfollows.1
      · exact (lives_other (Ne.symm he)).mpr (ih hrest)

theorem Alternating.over {later earlier : History} (halternating : h.Alternating)
    (hsplit : h = later ++ ⟨strand, .retired⟩ :: earlier) :
    ∀ entry ∈ later, entry.strand ≠ strand := by
  subst hsplit
  induction later with
  | nil => simp
  | cons first later ih =>
      obtain ⟨hfollows, hrest⟩ := alternating_cons.mp halternating
      have hover := ih hrest
      -- the end is still the last turn of the strand, and no turn follows it
      have hlatest : latest (later ++ ⟨strand, .retired⟩ :: earlier) strand = some .retired := by
        have hnone : later.find? (fun entry => entry.strand = strand) = none := by
          simpa using hover
        simp [latest, List.find?_append, hnone]
      have hnot := not_lives_of_retired hlatest
      intro entry hentry
      rcases List.mem_cons.mp hentry with rfl | hentry
      · rintro rfl
        obtain ⟨strand, turn⟩ := entry
        cases turn with
        | started _ => exact absurd (hlatest.symm.trans hfollows.2) (by simp)
        | suspended _ => exact hnot (.inl hfollows)
        | resumed pointer => exact hnot (.inr ⟨pointer, hfollows⟩)
        | retired => exact hnot (.inl hfollows.2)
      · exact hover entry hentry

end History

end CoopTasks

import CoopTasks.Proofs.NoEarlyResume

/-!
What becomes of the posts of a signal.

`World.Counted` counts along a run how often a signal is posted, how many of
the posts find its count at the limit, and how often somebody takes one.  Posts
are neither lost nor doubled otherwise: what has been taken, what is pending and
what was lost at the limit add up to the posts (`World.posts_accounted`),
whoever waits, polls or is woken in between.
-/

namespace CoopTasks

open Scheduler

def Call.signal? : Call → Option Nat
  | .wait number | .post number | .tryTake number => some number
  | _ => none

def Call.takes (number : Nat) : (call : Call) → Progress call.Answer → Bool
  | .wait other, .done _ => decide (other = number)
  | .tryTake other, .done taken => decide (other = number) && taken
  | _, _ => false

def Call.posts (number : Nat) : Call → Bool
  | .post other => decide (other = number)
  | _ => false

/-- How the count of a signal moves, with whether it is posted and whether one is taken. -/
inductive Signal.Counts (s s' : Signal) : Bool → Bool → Prop
  | posted : s'.count.toNat = min (s.count.toNat + 1) 255 → Counts s s' true false
  | taken : s'.count.toNat + 1 = s.count.toNat → Counts s s' false true
  | kept : s'.count = s.count → Counts s s' false false

theorem Signal.Counts.balance {s s' : Signal} {posted taken : Bool}
    (h : s.Counts s' posted taken) :
    taken.toNat + s'.count.toNat + (posted && decide (s.count = 255)).toNat =
      s.count.toNat + posted.toNat := by
  cases h with
  | posted hcount =>
      have hlt := UInt8.toNat_lt s.count
      have hfull : s.count = 255 ↔ s.count.toNat = 255 := UInt8.toNat_inj.symm
      by_cases hcase : s.count = 255
      · simp only [decide_eq_true hcase, Bool.true_and, Bool.toNat_true, Bool.toNat_false]
        have hlimit := hfull.mp hcase
        omega
      · simp only [decide_eq_false hcase, Bool.and_false, Bool.toNat_true, Bool.toNat_false]
        have hbelow := mt hfull.mpr hcase
        omega
  | taken hcount =>
      simp only [Bool.toNat_true, Bool.toNat_false, Bool.false_and]
      omega
  | kept hcount =>
      rw [hcount]
      simp

theorem Signal.counts_post (s : Signal) (hopen : s.latched = false) :
    s.post.1.latched = false ∧ s.Counts s.post.1 true false :=
  ⟨hopen, .posted s.count_post⟩

theorem Signal.counts_tryTake (s : Signal) (hopen : s.latched = false) :
    s.tryTake.1.latched = false ∧ s.Counts s.tryTake.1 false s.tryTake.2 := by
  refine ⟨s.latched_tryTake.trans hopen, ?_⟩
  generalize htake : s.tryTake = r
  obtain ⟨t, taken⟩ := r
  cases taken with
  | true =>
      rcases count_of_tryTake htake with ⟨hlatched, _⟩ | hcount
      · exact nomatch hopen.symm.trans hlatched
      · exact .taken hcount
  | false =>
      obtain ⟨_, _, rfl⟩ := tryTake_eq_false.mp htake
      exact .kept rfl

namespace Scheduler

variable {H : Type} {s t : Scheduler H} {w w' : Signal} {result : WaitResult}

theorem Attempted.counts (h : Attempted s w t w' result) (hopen : w.latched = false) :
    w'.latched = false ∧ w.Counts w' false (decide (result = .acquired)) := by
  cases h with
  | acquired htake =>
      have hcounts := w.counts_tryTake hopen
      rwa [htake] at hcounts
  | parked _ _ _ _ _ _ _ => exact ⟨hopen, .kept rfl⟩
  | busy _ _ _ _ _ => exact ⟨hopen, .kept rfl⟩

end Scheduler

namespace Kernel

variable {H : Type} {k k' : Kernel H} {number other : Nat} {s s' : Signal}

theorem signals_setSignal (hother : k.signals[other]? = some s) :
    (k.setSignal other s').signals[number]? =
      if number = other then some s' else k.signals[number]? := by
  have hlt := (List.getElem?_eq_some_iff.mp hother).1
  unfold setSignal
  rw [List.getElem?_set, if_pos hlt]
  simp only [eq_comm (a := other)]

theorem counts_setSignal {posted taken : Bool} {u u' : Signal}
    (hother : k.signals[other]? = some u) (hsignal : k.signals[number]? = some s)
    (hopen : s.latched = false)
    (hcounts : u.latched = false → u'.latched = false ∧ u.Counts u' posted taken) :
    ∃ s', (k.setSignal other u').signals[number]? = some s' ∧ s'.latched = false ∧
      s.Counts s' (decide (other = number) && posted) (decide (other = number) && taken) := by
  rw [signals_setSignal hother]
  by_cases he : other = number
  · subst he
    obtain rfl := Option.some.inj (hsignal.symm.trans hother)
    obtain ⟨hlatched, hcount⟩ := hcounts hopen
    refine ⟨u', if_pos rfl, hlatched, ?_⟩
    rwa [decide_eq_true rfl, Bool.true_and, Bool.true_and]
  · refine ⟨s, ?_, hopen, ?_⟩
    · rw [if_neg (Ne.symm he), hsignal]
    · rw [decide_eq_false he]
      exact .kept rfl

variable [Hardware H] {call : Call} {control : Control} {retries : Bool}

theorem Called.signals_eq (h : Called k call k' control retries) (hcall : call.signal? = none) :
    k'.signals = k.signals := by
  cases h with
  | quiet _ _ _ hsignals _ | started _ _ hsignals _ => exact hsignals
  | exiting _ _ _ | asleep _ _ _ | joined _ _ _ _ | tried _ _ => rfl
  | woken hok =>
      obtain ⟨_, _, rfl⟩ := ok_wake hok
      rfl
  | waited _ _ | posted _ | took _ => contradiction

theorem counts_of_post (hok : k.post other = .ok k') (hsignal : k.signals[number]? = some s)
    (hopen : s.latched = false) :
    ∃ s', k'.signals[number]? = some s' ∧ s'.latched = false ∧
      s.Counts s' (decide (other = number)) false := by
  obtain ⟨u, scheduler, hother, _, rfl⟩ := ok_post hok
  have hcounts := counts_setSignal hother hsignal hopen u.counts_post
  rwa [Bool.and_true, Bool.and_false] at hcounts

theorem counts_of_attempt (hs : k.scheduler.Standing) {progress : Progress call.Answer}
    (hok : k.attempt call = .ok (k', progress)) (hsignal : k.signals[number]? = some s)
    (hopen : s.latched = false) :
    ∃ s', k'.signals[number]? = some s' ∧ s'.latched = false ∧
      s.Counts s' (call.posts number) (call.takes number progress) := by
  have hcalled := called_of_attempt hs hok
  cases call
  case wait other =>
    simp only [attempt, wait, requireSignal, bind_eq_ok, demand_eq_ok, pure_eq_ok, Prod.mk.injEq,
      Prod.exists] at hok
    obtain ⟨u, hother, scheduler, u', result, hattempt, rfl, rfl⟩ := hok
    have hcounts := counts_setSignal hother hsignal hopen (hs.attemptWait hattempt).counts
    rw [Bool.and_false] at hcounts
    have htakes : (decide (other = number) && decide (result = .acquired)) =
        Call.takes number (.wait other) (result.progress ()) := by
      cases result
      · exact Bool.and_true _
      · exact Bool.and_false _
      · exact Bool.and_false _
    rwa [htakes] at hcounts
  case post other =>
    simp only [attempt, bind_eq_ok, pure_eq_ok, Prod.mk.injEq] at hok
    obtain ⟨_, hpost, rfl, rfl⟩ := hok
    exact counts_of_post hpost hsignal hopen
  case tryTake other =>
    simp only [attempt, tryTake, requireSignal, bind_eq_ok, demand_eq_ok, pure_eq_ok,
      Prod.mk.injEq, Prod.exists] at hok
    obtain ⟨_, taken, ⟨u, hother, rfl, rfl⟩, rfl, rfl⟩ := hok
    have hcounts := counts_setSignal hother hsignal hopen u.counts_tryTake
    rwa [Bool.and_false] at hcounts
  all_goals
    refine ⟨s, ?_, hopen, .kept rfl⟩
    rw [hcalled.signals_eq rfl, hsignal]

end Kernel

/-! ## Runs -/

namespace World

variable {H : Type} [Hardware H] {w w' u : World H} {event : Event} {number : Nat}
variable {s : Signal}

def Event.posts (number : Nat) : Event → Bool
  | .call c => c.posts number
  | .post other => decide (other = number)
  | .wake _ | .alarm | .elapse | .reschedule _ | .dispatch => false

def takes (w : World H) (number : Nat) : Event → Bool
  | .call call => (w.kernel.attempt call).toOption.any fun r => call.takes number r.2
  | .wake _ | .post _ | .alarm | .elapse | .reschedule _ | .dispatch => false

def loses (w : World H) (number : Nat) (event : Event) : Bool :=
  event.posts number && w.kernel.signals[number]?.any fun s => decide (s.count = 255)

/-- How often a signal is posted, how many of the posts come to nothing, and how many are taken. -/
structure Tally where
  posted : Nat
  lost : Nat
  taken : Nat
  deriving DecidableEq, Repr

def Tally.zero : Tally := ⟨0, 0, 0⟩

def Tally.after (tally : Tally) (w : World H) (number : Nat) (event : Event) : Tally where
  posted := tally.posted + (event.posts number).toNat
  lost := tally.lost + (w.loses number event).toNat
  taken := tally.taken + (w.takes number event).toNat

/-- A run of any steps, and what it comes to for a signal. -/
inductive Counted (number : Nat) (w : World H) : Tally → World H → Prop
  | none : Counted number w Tally.zero w
  | step {tally : Tally} {u w' : World H} {event : Event} :
      Counted number w tally u →
      Occurs u event w' →
      Counted number w (tally.after u number event) w'

theorem Counted.reached {tally : Tally} (h : Counted number w tally w') (hw : Reached w) :
    Reached w' := by
  induction h with
  | none => exact hw
  | step _ hoccurs ih => exact ih.step hoccurs.step

theorem Occurs.counts (h : Occurs w event w') (hs : w.scheduler.Standing)
    (hsignal : w.kernel.signals[number]? = some s) (hopen : s.latched = false) :
    ∃ s', w'.kernel.signals[number]? = some s' ∧ s'.latched = false ∧
      s.Counts s' (event.posts number) (w.takes number event) := by
  cases h with
  | call _ _ hok =>
      have hcounts := Kernel.counts_of_attempt hs hok hsignal hopen
      rwa [takes, hok]
  | wake hok =>
      obtain ⟨_, _, rfl⟩ := Kernel.ok_wake hok
      exact ⟨s, hsignal, hopen, .kept rfl⟩
  | post hok => exact Kernel.counts_of_post hok hsignal hopen
  | alarm _ | elapse | reschedule _ _ | dispatch _ _ => exact ⟨s, hsignal, hopen, .kept rfl⟩

theorem Counted.balance {tally : Tally} (h : Counted number w tally w') (hw : Reached w)
    (hsignal : w.kernel.signals[number]? = some s) (hopen : s.latched = false) :
    ∃ s', w'.kernel.signals[number]? = some s' ∧ s'.latched = false ∧
      tally.taken + s'.count.toNat + tally.lost = s.count.toNat + tally.posted := by
  induction h with
  | none => exact ⟨s, hsignal, hopen, Nat.zero_add _⟩
  | @step tally u w' event hbefore hoccurs ih =>
      obtain ⟨t, ht, htopen, hbalance⟩ := ih
      have hs := (hbefore.reached hw).standing
      obtain ⟨t', ht', htopen', hcounts⟩ := hoccurs.counts hs ht htopen
      have hstep := hcounts.balance
      have hloses : u.loses number event = (event.posts number && decide (t.count = 255)) := by
        rw [loses, ht, Option.any_some]
      refine ⟨t', ht', htopen', ?_⟩
      simp only [Tally.after, hloses]
      omega

/--
What has been taken from a signal, what is pending and the posts that found the
count at its limit add up to the posts, at every point of every run.  A step
adds one to the count below the limit or takes one above zero, a wait that has
to be repeated leaves it, and whatever happens from a point on, no more is taken
than is pending and posted.
-/
theorem posts_accounted {hardware : H} {signals : Nat} {memory : List Stack} {trampoline : UInt32}
    {tally : Tally} (h : Counted number (World.start hardware signals memory trampoline) tally w)
    (hnumber : number < signals) :
    ∃ s, w.kernel.signals[number]? = some s ∧
      tally.taken + s.count.toNat + tally.lost = tally.posted ∧
      (∀ event w', Occurs w event w' → ∃ s', w'.kernel.signals[number]? = some s' ∧
        s.Counts s' (event.posts number) (w.takes number event)) ∧
      (∀ kernel, w.kernel.attempt (.wait number) = .ok (kernel, .switchRetry) →
        ∃ s', kernel.signals[number]? = some s' ∧ s'.count = s.count) ∧
      ∀ more w', Counted number w more w' → more.taken ≤ s.count.toNat + more.posted := by
  have hstart := Reached.start hardware signals memory trampoline
  have hidle : (World.start hardware signals memory trampoline).kernel.signals[number]? =
      some Signal.idle := List.getElem?_replicate_of_lt hnumber
  obtain ⟨s, hsignal, hopen, hbalance⟩ := h.balance hstart hidle rfl
  have hw := h.reached hstart
  have hs := hw.standing
  refine ⟨s, hsignal, ?_, ?_, ?_, ?_⟩
  · exact hbalance.trans (Nat.zero_add _)
  · intro event w' hoccurs
    obtain ⟨s', hsignal', _, hcounts⟩ := hoccurs.counts hs hsignal hopen
    exact ⟨s', hsignal', hcounts⟩
  · intro kernel hok
    obtain ⟨s', hsignal', _, hcounts⟩ := Kernel.counts_of_attempt hs hok hsignal hopen
    refine ⟨s', hsignal', ?_⟩
    cases hcounts with
    | kept hcount => exact hcount
  · intro more w' hmore
    obtain ⟨_, _, _, hbalance⟩ := hmore.balance hw hsignal hopen
    omega

/-! ### One post, two tasks -/

def count (number : Nat) (tally : Tally) (w : World H) : List Event → Option (Tally × World H)
  | [] => some (tally, w)
  | event :: events =>
      (w.occur event).bind fun u => u.count number (tally.after w number event) events

theorem Counted.count {tally tally' : Tally} {events : List Event}
    (h : Counted number w tally u) (hcount : u.count number tally events = some (tally', w')) :
    Counted number w tally' w' := by
  induction events generalizing u tally with
  | nil =>
      obtain ⟨rfl, rfl⟩ := Prod.mk.inj (Option.some.inj hcount)
      exact h
  | cons event events ih =>
      obtain ⟨v, hoccur, hrest⟩ := Option.bind_eq_some_iff.mp hcount
      exact ih (h.step (.of_occur hoccur)) hrest

def twoStacks : World PromptBoard :=
  World.start (PromptBoard.start Instant.zero) 1
    [Stack.blank (Board.pageBottom 0) 64, Stack.blank (Board.pageBottom 1) 64] 0

def contention : List Event :=
  [.call (.start 0 0 0), .reschedule Board.mainlinePointer,
    .call (.start 0 0 1), .reschedule (Board.pageBottom 0 + 200),
    .call .giveWay, .reschedule (Board.pageBottom 1 + 200),
    .call (.wait 0), .reschedule (Board.pageBottom 0 + 200),
    .call (.post 0), .call (.tryTake 0), .call .giveWay, .reschedule (Board.pageBottom 1 + 200),
    .call (.wait 0), .reschedule (Board.pageBottom 0 + 200)] ++ List.replicate 257 (.post 0)

theorem posts_accounted_contention :
    ∃ w s, Counted 0 twoStacks ⟨258, 2, 1⟩ w ∧ w.kernel.signals[0]? = some s ∧
      1 + s.count.toNat + 2 = 258 ∧
      ∀ more w', Counted 0 w more w' → more.taken ≤ 255 + more.posted := by
  have hrun : (twoStacks.count 0 Tally.zero contention).map Prod.fst = some ⟨258, 2, 1⟩ := by
    decide +kernel
  obtain ⟨⟨_, w⟩, hcount, rfl⟩ := Option.map_eq_some_iff.mp hrun
  have hcounted : Counted 0 twoStacks ⟨258, 2, 1⟩ w := Counted.none.count hcount
  obtain ⟨s, hsignal, hbalance, _, _, hmore⟩ := posts_accounted hcounted (by decide)
  refine ⟨w, s, hcounted, hsignal, hbalance, fun more w' hcounted => ?_⟩
  have hle := hmore more w' hcounted
  dsimp only at hbalance
  omega

end World

end CoopTasks

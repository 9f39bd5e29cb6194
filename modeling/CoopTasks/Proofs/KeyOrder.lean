import CoopTasks.Proofs.Sequences
import Mathlib.Data.List.Induction
import Mathlib.Data.List.TakeWhile

/-!
Queues in the order of a key.

An insertion by key puts a task in front of the first one whose key is not less
than its own.  A `SortedQueue` is a queue that is filled in no other way, and out
of which tasks are taken by its head or wherever they stand.  Its tasks are in the
order of their keys, and of those with equal keys the one put in last comes first:
`SortedQueue.Sorted` holds after every run of edits (`keeps_key_order`).
-/

namespace CoopTasks

variable {size : Nat} {κ : Type}

/-! ## One insertion -/

theorem orderedInsert_splits [LinearOrder κ] (key : TaskId → κ) (id : TaskId) (l : List TaskId) :
    ∃ before after, l = before ++ after ∧
      l.orderedInsert (fun a b => key a ≤ key b) id = before ++ id :: after ∧
      (∀ m ∈ before, key m < key id) ∧ ∀ m, after.head? = some m → key id ≤ key m := by
  refine ⟨l.takeWhile fun m => !decide (key id ≤ key m),
    l.dropWhile fun m => !decide (key id ≤ key m), List.takeWhile_append_dropWhile.symm, ?_, ?_, ?_⟩
  · rw [← TaskQueue.insertedByKey_eq_orderedInsert]
    rfl
  · intro m hm
    have hless := List.mem_takeWhile_imp hm
    simpa using hless
  · intro m hm
    have hstop := List.head?_dropWhile_not (fun m => !decide (key id ≤ key m)) l
    rw [hm] at hstop
    simpa using hstop

namespace TaskQueue.Represents

variable {q q' : TaskQueue} {cells cells' : Cells size} {l before after : List TaskId} {id : TaskId}

theorem tail_inserted (h : q.Represents cells (before ++ after))
    (h' : q'.Represents cells' (before ++ id :: after)) :
    q'.tail = if after = [] then some id else q.tail := by
  rw [h'.tail, h.tail]
  cases after with
  | nil => simp
  | cons following rest => simp [List.getLast?_append, List.getLast?_cons_cons]

theorem not_mem_of_free (h : q.Represents cells l) (hfree : cells.linked id.index = false) :
    id ∉ l :=
  fun hm => h.index_ne_of_free hfree hm rfl

theorem insertByKey_splits [LinearOrder κ] (h : q.Represents cells l) (key : TaskId → κ)
    (hid : id.index < size) (hfree : cells.linked id.index = false) :
    ∃ q' cells' before after, q.insertByKey cells id key = .ok (q', cells') ∧
      l = before ++ after ∧ q'.Represents cells' (before ++ id :: after) ∧
      (∀ m ∈ before, key m < key id) ∧ (∀ m, after.head? = some m → key id ≤ key m) ∧
      q'.tail = (if after = [] then some id else q.tail) ∧ (q'.tail ≠ q.tail ↔ after = []) := by
  obtain ⟨q', cells', hok, hrep, -⟩ := h.insertByKey key hid hfree
  obtain ⟨before, after, rfl, hinsert, hbefore, hafter⟩ := orderedInsert_splits key id l
  rw [insertedByKey_eq_orderedInsert, hinsert] at hrep
  have htail := tail_inserted h hrep
  refine ⟨q', cells', before, after, hok, rfl, hrep, hbefore, hafter, htail, ?_⟩
  rw [htail]
  split
  · rename_i hlast
    refine iff_of_true (fun hsame => ?_) hlast
    exact h.not_mem_of_free hfree (List.mem_of_getLast? (h.tail ▸ hsame.symm))
  · rename_i hinside
    exact iff_of_false (fun hchanged => hchanged rfl) hinside

theorem enqueue_greatest [LinearOrder κ] (h : q.Represents cells l) {key : TaskId → κ}
    (hid : id.index < size) (hfree : cells.linked id.index = false)
    (hsorted : l.Pairwise fun a b => key a ≤ key b) (hgreatest : ∀ k : κ, k ≤ key id) :
    ∃ q' cells', q.enqueue cells id = .ok (q', cells') ∧ q'.Represents cells' (l ++ [id]) ∧
      (l ++ [id]).Pairwise fun a b => key a ≤ key b := by
  obtain ⟨q', cells', hok, hrep, -⟩ := h.enqueue hid hfree
  refine ⟨q', cells', hok, hrep, ?_⟩
  rw [List.pairwise_append]
  refine ⟨hsorted, List.pairwise_singleton _ _, ?_⟩
  intro a _ b hb
  rw [List.mem_singleton.mp hb]
  exact hgreatest (key a)

theorem added_of_edit [LE κ] [DecidableLE κ] (h : q.Represents cells l) {change : QueueEdit κ}
    {reply : QueueArena.Reply} (hok : q.edit cells change = .ok (q', cells', reply))
    (hadded : change.added = some id) : id.index < size ∧ cells.linked id.index = false := by
  constructor
  · by_contra hle
    rw [h.edit_occupied hadded (Cells.occupy_of_le (Nat.le_of_not_lt hle))] at hok
    contradiction
  · by_contra hlinked
    rw [Bool.not_eq_false] at hlinked
    rw [h.edit_occupied hadded (Cells.occupy_of_linked hlinked)] at hok
    contradiction

end TaskQueue.Represents

/-! ## Queues filled by key -/

/-- An insertion brings the keys as they then stand. -/
inductive SortedEdit (κ : Type) where
  | insert (id : TaskId) (key : TaskId → κ)
  | dequeue
  | erase (id : TaskId)

namespace SortedEdit

def change : SortedEdit κ → QueueEdit κ
  | .insert id key => .insertByKey id key
  | .dequeue => .dequeue
  | .erase id => .erase id

def added : SortedEdit κ → Option TaskId
  | .insert id _ => some id
  | .dequeue | .erase _ => none

def keys (key : TaskId → κ) : SortedEdit κ → TaskId → κ
  | .insert _ key' => key'
  | .dequeue | .erase _ => key

@[simp] theorem added_change (edit : SortedEdit κ) : edit.change.added = edit.added := by
  cases edit <;> rfl

end SortedEdit

/-- A queue, the keys that the last insertion brought, and all insertions, the last one first. -/
structure SortedQueue (size : Nat) (κ : Type) where
  queue : TaskQueue
  cells : Cells size
  key : TaskId → κ
  inserted : List TaskId

namespace SortedQueue

variable [LinearOrder κ] {s t : SortedQueue size κ} {edit : SortedEdit κ} {id : TaskId}
variable {edits : List (SortedEdit κ)} {cells : Cells size} {key : TaskId → κ}

def start (cells : Cells size) (key : TaskId → κ) : SortedQueue size κ :=
  ⟨TaskQueue.empty, cells, key, []⟩

def members (s : SortedQueue size κ) : List TaskId :=
  s.queue.members s.cells

def perform (s : SortedQueue size κ) (edit : SortedEdit κ) : Except Fault (SortedQueue size κ) := do
  let (queue, cells, _) ← s.queue.edit s.cells edit.change
  return ⟨queue, cells, edit.keys s.key, edit.added.toList ++ s.inserted⟩

def run (s : SortedQueue size κ) (edits : List (SortedEdit κ)) :
    Except Fault (SortedQueue size κ) :=
  edits.foldlM perform s

theorem run_append_singleton_eq_ok :
    s.run (edits ++ [edit]) = .ok t ↔ ∃ u, s.run edits = .ok u ∧ u.perform edit = .ok t := by
  rw [run, List.foldlM_append, bind_eq_ok]
  simp [run]

/-! ## One edit -/

/-- What an edit makes of a queue in good order. -/
structure Follows (s : SortedQueue size κ) (edit : SortedEdit κ) (t : SortedQueue size κ) :
    Prop where
  members : t.members = edit.change.onList s.members
  revised : TaskQueue.Revised s.cells s.members t.members t.queue t.cells
  key : t.key = edit.keys s.key
  inserted : t.inserted = edit.added.toList ++ s.inserted

def Fits (s : SortedQueue size κ) (edit : SortedEdit κ) : Prop :=
  ∀ id, edit.added = some id → id.index < size ∧ s.cells.linked id.index = false

theorem Fits.perform (hfits : s.Fits edit) (h : s.queue.Represents s.cells s.members) :
    ∃ t, s.perform edit = .ok t ∧ s.Follows edit t := by
  have hadded : ∀ id, edit.change.added = some id →
      id.index < size ∧ s.cells.linked id.index = false := by
    intro id hid
    exact hfits id (edit.added_change ▸ hid)
  obtain ⟨queue, cells, hedit, hrevised⟩ :=
    h.edit (fun id hid => (hadded id hid).1) (fun id hid => (hadded id hid).2)
  have hmembers := hrevised.represents.members_eq
  refine ⟨_, bind_eq_ok.mpr ⟨_, hedit, rfl⟩, hmembers, ?_, rfl, rfl⟩
  show TaskQueue.Revised s.cells s.members (queue.members cells) queue cells
  rwa [hmembers]

theorem fits_of_perform (h : s.queue.Represents s.cells s.members)
    (hok : s.perform edit = .ok t) : s.Fits edit := by
  intro id hid
  obtain ⟨⟨queue, cells, reply⟩, hedit, -⟩ := bind_eq_ok.mp hok
  exact h.added_of_edit hedit (edit.added_change.trans hid)

theorem follows_of_perform (h : s.queue.Represents s.cells s.members)
    (hok : s.perform edit = .ok t) : s.Follows edit t := by
  obtain ⟨u, hperform, hfollows⟩ := (fits_of_perform h hok).perform h
  obtain rfl := Except.ok.inj (hok.symm.trans hperform)
  exact hfollows

/-! ## The order -/

/-- A task precedes another one by its key or, where these are equal, by its later insertion. -/
def Precedes (s : SortedQueue size κ) (a b : TaskId) : Prop :=
  s.key a < s.key b ∨ s.key a = s.key b ∧ s.inserted.idxOf a < s.inserted.idxOf b

structure Sorted (s : SortedQueue size κ) : Prop where
  represents : s.queue.Represents s.cells s.members
  order : s.members.Pairwise s.Precedes

theorem Precedes.key_le {a b : TaskId} (h : s.Precedes a b) : s.key a ≤ s.key b := by
  rcases h with hless | ⟨hequal, -⟩
  · exact le_of_lt hless
  · exact le_of_eq hequal

theorem sorted_start (cells : Cells size) (key : TaskId → κ) : (start cells key).Sorted := by
  have hmembers : (start cells key).members = [] :=
    (TaskQueue.Represents.empty cells).members_eq
  constructor
  · rw [hmembers]
    exact .empty cells
  · rw [hmembers]
    exact .nil

theorem Sorted.of_sublist (h : s.Sorted) (hrepresents : t.queue.Represents t.cells t.members)
    (hsub : t.members.Sublist s.members) (hkey : t.key = s.key)
    (hinserted : t.inserted = s.inserted) : t.Sorted where
  represents := hrepresents
  order := by
    refine (h.order.sublist hsub).imp fun {a b} hprecedes => ?_
    unfold Precedes
    rwa [hkey, hinserted]

/-- Behind the latest insertion, the earlier ones keep their order among themselves. -/
theorem Precedes.of_insert {a b : TaskId} (h : s.Precedes a b) (hkeya : t.key a = s.key a)
    (hkeyb : t.key b = s.key b) (hinserted : t.inserted = id :: s.inserted) (hnea : a ≠ id)
    (hneb : b ≠ id) : t.Precedes a b := by
  unfold Precedes
  rw [hkeya, hkeyb, hinserted, List.idxOf_cons_ne _ hnea.symm, List.idxOf_cons_ne _ hneb.symm]
  rcases h with hless | ⟨hequal, hlater⟩
  · exact .inl hless
  · exact .inr ⟨hequal, Nat.succ_lt_succ hlater⟩

theorem key_le_of_mem {bound : κ} {stretch : List TaskId} (h : stretch.Pairwise s.Precedes)
    (hfirst : ∀ m, stretch.head? = some m → bound ≤ s.key m) {m : TaskId} (hm : m ∈ stretch) :
    bound ≤ s.key m := by
  cases stretch with
  | nil => contradiction
  | cons first rest =>
      have hbound : bound ≤ s.key first := hfirst first rfl
      rcases List.mem_cons.mp hm with rfl | hm
      · exact hbound
      · exact hbound.trans (List.rel_of_pairwise_cons h hm).key_le

theorem Sorted.of_insert (h : s.Sorted) (hfollows : s.Follows (.insert id key) t)
    (hfree : s.cells.linked id.index = false) (hkeeps : ∀ m ∈ s.members, key m = s.key m) :
    t.Sorted := by
  have hkey : t.key = key := hfollows.key
  have hinserted : t.inserted = id :: s.inserted := hfollows.inserted
  have hne : ∀ m ∈ s.members, m ≠ id := by
    rintro m hm rfl
    exact h.represents.not_mem_of_free hfree hm
  obtain ⟨before, after, hsplit, hinsert, hbefore, hafter⟩ :=
    orderedInsert_splits key id s.members
  have hmembers : t.members = before ++ id :: after := hfollows.members.trans hinsert
  have hold : s.members.Pairwise t.Precedes := by
    refine List.Pairwise.imp_of_mem (fun {a b} ha hb hprecedes => ?_) h.order
    exact hprecedes.of_insert (by rw [hkey, hkeeps a ha]) (by rw [hkey, hkeeps b hb]) hinserted
      (hne a ha) (hne b hb)
  rw [hsplit, List.pairwise_append] at hold
  obtain ⟨holdbefore, holdafter, hacross⟩ := hold
  have hbehind : ∀ m ∈ after, t.key id ≤ t.key m := by
    intro m hm
    exact key_le_of_mem holdafter (hkey.symm ▸ hafter) hm
  refine ⟨hfollows.revised.represents, ?_⟩
  rw [hmembers, List.pairwise_append, List.pairwise_cons]
  refine ⟨holdbefore, ⟨fun m hm => ?_, holdafter⟩, fun a ha b hb => ?_⟩
  · rcases lt_or_eq_of_le (hbehind m hm) with hless | hequal
    · exact .inl hless
    · have hother : m ≠ id := hne m (hsplit ▸ List.mem_append_right before hm)
      refine .inr ⟨hequal, ?_⟩
      rw [hinserted, List.idxOf_cons_self, List.idxOf_cons_ne _ hother.symm]
      exact Nat.succ_pos _
  · rcases List.mem_cons.mp hb with rfl | hb
    · refine .inl ?_
      rw [hkey]
      exact hbefore a ha
    · exact hacross a ha b hb

theorem Sorted.perform (h : s.Sorted) (hok : s.perform edit = .ok t)
    (hkeeps : ∀ id key, edit = .insert id key → ∀ m ∈ s.members, key m = s.key m) : t.Sorted := by
  have hfollows := follows_of_perform h.represents hok
  have hfits := fits_of_perform h.represents hok
  cases edit with
  | insert id key => exact h.of_insert hfollows (hfits id rfl).2 (hkeeps id key rfl)
  | dequeue =>
      refine h.of_sublist hfollows.revised.represents ?_ hfollows.key hfollows.inserted
      rw [hfollows.members]
      exact List.tail_sublist s.members
  | erase id =>
      refine h.of_sublist hfollows.revised.represents ?_ hfollows.key hfollows.inserted
      rw [hfollows.members]
      exact List.erase_sublist

/-! ## Runs of edits -/

def KeepsKeys (s : SortedQueue size κ) (edits : List (SortedEdit κ)) : Prop :=
  ∀ done id key rest t, edits = done ++ .insert id key :: rest → s.run done = .ok t →
    ∀ m ∈ t.members, key m = t.key m

theorem KeepsKeys.of_append {more : List (SortedEdit κ)} (h : s.KeepsKeys (edits ++ more)) :
    s.KeepsKeys edits := by
  rintro done id key rest t rfl hok
  exact h done id key (rest ++ more) t (by simp) hok

theorem Sorted.run (h : s.Sorted) (hkeeps : s.KeepsKeys edits) (hok : s.run edits = .ok t) :
    t.Sorted := by
  -- from the end, since the keys that an edit has to keep are those of the run before it
  induction edits using List.reverseRecOn generalizing t with
  | nil =>
      obtain rfl := Except.ok.inj hok
      exact h
  | append_singleton edits edit ih =>
      obtain ⟨u, hrun, hperform⟩ := run_append_singleton_eq_ok.mp hok
      refine (ih hkeeps.of_append hrun).perform hperform ?_
      rintro id key rfl
      exact hkeeps edits id key [] u rfl hrun

structure Grown (cells : Cells size) (added : List TaskId) (s : SortedQueue size κ) : Prop where
  represents : s.queue.Represents s.cells s.members
  linked : ∀ slot, s.cells.linked slot = true →
    cells.linked slot = true ∨ ∃ id ∈ added, id.index = slot

theorem Follows.mem {m : TaskId} (h : s.Follows edit t) (hm : m ∈ t.members) :
    m ∈ s.members ∨ edit.added = some m := by
  rw [h.members] at hm
  cases edit with
  | insert id key =>
      rcases List.mem_orderedInsert _ |>.mp hm with rfl | hm
      · exact .inr rfl
      · exact .inl hm
  | dequeue => exact .inl (List.mem_of_mem_tail hm)
  | erase id => exact .inl (List.mem_of_mem_erase hm)

theorem Grown.follows {added : List TaskId} (h : Grown cells added s)
    (hfollows : s.Follows edit t) : Grown cells (added ++ edit.added.toList) t where
  represents := hfollows.revised.represents
  linked := by
    have hearlier : ∀ slot, s.cells.linked slot = true →
        cells.linked slot = true ∨ ∃ id ∈ added ++ edit.added.toList, id.index = slot := by
      intro slot hslot
      refine (h.linked slot hslot).imp_right ?_
      rintro ⟨id, hid, hindex⟩
      exact ⟨id, List.mem_append_left _ hid, hindex⟩
    intro slot hslot
    rcases (hfollows.revised.linked slot).mp hslot with ⟨m, hm, rfl⟩ | ⟨hslot, -⟩
    · rcases hfollows.mem hm with hm | hadded
      · exact hearlier _ (h.represents.linked m hm)
      · exact .inr ⟨m, List.mem_append_right _ (by simp [hadded]), rfl⟩
    · exact hearlier slot hslot

theorem run_of_distinct (hslots : ((edits.filterMap SortedEdit.added).map TaskId.index).Nodup)
    (hfree : ∀ id ∈ edits.filterMap SortedEdit.added,
      id.index < size ∧ cells.linked id.index = false) :
    ∃ t, (start cells key).run edits = .ok t ∧
      Grown cells (edits.filterMap SortedEdit.added) t := by
  induction edits using List.reverseRecOn with
  | nil => exact ⟨_, rfl, (sorted_start cells key).represents, fun _ => .inl⟩
  | append_singleton edits edit ih =>
      have hsnoc : (edits ++ [edit]).filterMap SortedEdit.added =
          edits.filterMap SortedEdit.added ++ edit.added.toList := by
        cases hadded : edit.added <;> simp [hadded]
      rw [hsnoc] at hslots hfree ⊢
      rw [List.map_append, List.nodup_append] at hslots
      obtain ⟨s, hrun, hgrown⟩ := ih hslots.1 fun id hid => hfree id (List.mem_append_left _ hid)
      have hfits : s.Fits edit := by
        intro id hadded
        have hid : id ∈ edit.added.toList := by simp [hadded]
        obtain ⟨hlt, hstart⟩ := hfree id (List.mem_append_right _ hid)
        refine ⟨hlt, ?_⟩
        by_contra hlinked
        rw [Bool.not_eq_false] at hlinked
        rcases hgrown.linked _ hlinked with hbefore | ⟨other, hother, hindex⟩
        · rw [hstart] at hbefore
          contradiction
        · exact hslots.2.2 _ (List.mem_map_of_mem hother) _ (List.mem_map_of_mem hid) hindex
      obtain ⟨t, hperform, hfollows⟩ := hfits.perform hgrown.represents
      exact ⟨t, run_append_singleton_eq_ok.mpr ⟨s, hrun, hperform⟩, hgrown.follows hfollows⟩

theorem key_of_perform (hok : s.perform edit = .ok t) : t.key = edit.keys s.key := by
  obtain ⟨_, -, hdone⟩ := bind_eq_ok.mp hok
  rw [← pure_eq_ok.mp hdone]

theorem key_of_run (hsame : ∀ id key', .insert id key' ∈ edits → key' = s.key)
    (hok : s.run edits = .ok t) : t.key = s.key := by
  induction edits using List.reverseRecOn generalizing t with
  | nil =>
      obtain rfl := Except.ok.inj hok
      rfl
  | append_singleton edits edit ih =>
      obtain ⟨u, hrun, hperform⟩ := run_append_singleton_eq_ok.mp hok
      have hkey := ih (fun id key' hmem => hsame id key' (List.mem_append_left _ hmem)) hrun
      rw [key_of_perform hperform, hkey]
      cases edit with
      | insert id key' => exact hsame id key' (by simp)
      | dequeue => rfl
      | erase id => rfl

theorem keepsKeys_of_fixed (hsame : ∀ id key', .insert id key' ∈ edits → key' = s.key) :
    s.KeepsKeys edits := by
  rintro done id key' rest t rfl hok m -
  rw [hsame id key' (by simp),
    key_of_run (fun other key'' hmem => hsame other key'' (List.mem_append_left _ hmem)) hok]

end SortedQueue

/-! ## The whole -/

/--
An insertion by key splits a queue at the first key that is not less.  A queue
filled by insertions, with tasks taken out in between, is in the order of the
keys, and equal keys in the reverse order of their insertion; a task of the
greatest key there is may as well be put at the end.
-/
theorem keeps_key_order (size : Nat) (κ : Type) [LinearOrder κ] :
    (∀ (q : TaskQueue) (cells : Cells size) (l : List TaskId) (id : TaskId) (key : TaskId → κ),
      q.Represents cells l → id.index < size → cells.linked id.index = false →
      ∃ q' cells' before after, q.insertByKey cells id key = .ok (q', cells') ∧
        l = before ++ after ∧ q'.Represents cells' (before ++ id :: after) ∧
        (∀ m ∈ before, key m < key id) ∧ (∀ m, after.head? = some m → key id ≤ key m) ∧
        q'.tail = (if after = [] then some id else q.tail) ∧ (q'.tail ≠ q.tail ↔ after = [])) ∧
    (∀ (cells : Cells size) (key : TaskId → κ) (edits : List (SortedEdit κ))
      (s : SortedQueue size κ), (SortedQueue.start cells key).KeepsKeys edits →
      (SortedQueue.start cells key).run edits = .ok s → s.Sorted) ∧
    (∀ (cells : Cells size) (key : TaskId → κ) (edits : List (SortedEdit κ)),
      ((edits.filterMap SortedEdit.added).map TaskId.index).Nodup →
      (∀ id ∈ edits.filterMap SortedEdit.added, id.index < size ∧ cells.linked id.index = false) →
      ∃ s, (SortedQueue.start cells key).run edits = .ok s) ∧
    (∀ (q : TaskQueue) (cells : Cells size) (l : List TaskId) (id : TaskId) (key : TaskId → κ),
      q.Represents cells l → id.index < size → cells.linked id.index = false →
      l.Pairwise (fun a b => key a ≤ key b) → (∀ k : κ, k ≤ key id) →
      ∃ q' cells', q.enqueue cells id = .ok (q', cells') ∧ q'.Represents cells' (l ++ [id]) ∧
        (l ++ [id]).Pairwise fun a b => key a ≤ key b) := by
  refine ⟨?_, ?_, ?_, ?_⟩
  · intro q cells l id key h hid hfree
    exact h.insertByKey_splits key hid hfree
  · intro cells key edits s hkeeps hok
    exact (SortedQueue.sorted_start cells key).run hkeeps hok
  · intro cells key edits hslots hfree
    obtain ⟨s, hok, -⟩ := SortedQueue.run_of_distinct hslots hfree
    exact ⟨s, hok⟩
  · intro q cells l id key h hid hfree hsorted hgreatest
    exact h.enqueue_greatest hid hfree hsorted hgreatest

theorem keeps_key_order_leftSlot :
    ∃ s : SortedQueue 4 (Fin 8),
      (SortedQueue.start (Cells.free 4) fun _ => 7).run [.insert ⟨1, 0⟩ fun _ => 7,
        .insert ⟨2, 0⟩ fun _ => 7, .erase ⟨1, 0⟩, .insert ⟨3, 0⟩ fun _ => 7] = .ok s ∧
      s.Sorted ∧ s.members = [⟨3, 0⟩, ⟨2, 0⟩] ∧
      (∃ q' cells', s.queue.insertByKey s.cells ⟨1, 1⟩ s.key = .ok (q', cells')) ∧
      ∃ q' cells', s.queue.enqueue s.cells ⟨1, 1⟩ = .ok (q', cells') ∧
        q'.Represents cells' (s.members ++ [⟨1, 1⟩]) := by
  obtain ⟨hsplits, hsorted, hdistinct, hgreatest⟩ := keeps_key_order 4 (Fin 8)
  obtain ⟨s, hok⟩ := hdistinct (Cells.free 4) (fun _ => 7) [.insert ⟨1, 0⟩ fun _ => 7,
    .insert ⟨2, 0⟩ fun _ => 7, .erase ⟨1, 0⟩, .insert ⟨3, 0⟩ fun _ => 7] (by decide) (by decide)
  have hs : s.Sorted := by
    refine hsorted _ _ _ s (SortedQueue.keepsKeys_of_fixed fun id key hmem => ?_) hok
    simp only [List.mem_cons, SortedEdit.insert.injEq, reduceCtorEq, List.not_mem_nil, false_or,
      or_false] at hmem
    rcases hmem with ⟨-, rfl⟩ | ⟨-, rfl⟩ | ⟨-, rfl⟩ <;> rfl
  obtain ⟨hmembers, hfree, hkey⟩ : s.members = [⟨3, 0⟩, ⟨2, 0⟩] ∧ s.cells.linked 1 = false ∧
      s.key = fun _ => 7 := by
    obtain rfl := Except.ok.inj hok
    exact ⟨rfl, rfl, rfl⟩
  obtain ⟨q', cells', -, -, hinsert, -⟩ :=
    hsplits _ _ _ ⟨1, 1⟩ s.key hs.represents (by decide) hfree
  obtain ⟨r', more, henqueue, hrep, -⟩ :=
    hgreatest _ _ _ ⟨1, 1⟩ s.key hs.represents (by decide) hfree
      (hs.order.imp fun h => h.key_le) (hkey ▸ by decide)
  exact ⟨s, hok, hs, hmembers, ⟨q', cells', hinsert⟩, r', more, henqueue, hrep⟩

end CoopTasks

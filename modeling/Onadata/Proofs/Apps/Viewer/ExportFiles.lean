import Mathlib.Logic.Function.Basic
import Onadata.Apps.Viewer.ExportTasks

/-!
# `Onadata.Proofs.Apps.Viewer.ExportFiles`: the files of the exports, in every interleaving

Every path has one owner (`PathOwner`): the thread that stored it, the row that it was saved to, or
the row that it left. The right to give a row its file is a token that the request makes with the
row, and its worker spends (`RowToken`). `Owned` says where paths and tokens are, and a step changes
only those of its own thread.

* `exportFiles_safe`: in every run in which no path is used twice, the file of each export is
  there or its deletion is under way, and no two exports share a file.
* `exportSettled_iff`: exactly when a finished export can only be deleted: when the request that
  started it has saved it before.
-/

set_option autoImplicit false

namespace Onadata.Proofs

open Onadata Onadata.Lib ExportSystem

/-- Where a path is. -/
inductive PathOwner
  | unused
  | thread (i : Nat)
  | row (pk : Nat)
  | left (pk : Nat)
  deriving DecidableEq

/-- Who may give a row its file. -/
inductive RowToken
  | unused
  | thread (i : Nat)
  | spent
  deriving DecidableEq

section Owners
variable (owner : ExportPath → PathOwner) (token : Nat → RowToken)

/-- What is known of a new row that a thread saves. -/
def NewOwned (i : Nat) (new : ExportRow) : ExportCreator → Prop
  | .request => new.file = none
  | .worker pk row => (∃ path, new.file = some path ∧ owner path = .thread i) ∧
      new.internalStatus = .successful ∧ row.file = none ∧ token pk = .thread i

/-- What is known of the row that waits behind a deletion. -/
def NextOwned (i : Nat) (next : Option (ExportRow × ExportCreator)) : Prop :=
  ∀ new creator, next = some (new, creator) → NewOwned owner token i new creator

/-- What is known of a thread. -/
def ThreadOwned (i : Nat) : ExportThread → Prop
  | .creating new creator | .trimming new creator | .inserting new creator =>
      NewOwned owner token i new creator
  | .starting pk row | .generating pk row | .failing pk row =>
      row.file = none ∧ token pk = .thread i
  | .linking _ row => row.file = none
  | .fetching pk => token pk = .thread i
  | .stored pk row path | .saving pk row _ path =>
      row.file = none ∧ token pk = .thread i ∧ owner path = .thread i
  | .deleting items next =>
      (∀ item ∈ items, ∀ path, item.2.file = some path →
        owner path = .row item.1 ∨ owner path = .left item.1) ∧ NextOwned owner token i next
  | .removing _ items next =>
      (∀ item ∈ items, ∀ path, item.2.file = some path → owner path = .left item.1) ∧
        NextOwned owner token i next
  | .selecting _ | .done => True

/-- The paths and the tokens of a system. -/
structure Owned (s : ExportSystem) : Prop where
  rows : ∀ pk row path, s.get? pk = some row → row.file = some path →
    (owner path = .row pk ∨ owner path = .left pk ∧ pk ∈ s.locked) ∧ token pk = .spent ∧
      row.internalStatus = .successful
  files : ∀ path, (∃ pk, owner path = .row pk) ∨ (∃ i, owner path = .thread i) → path ∈ s.files
  used : ∀ path, path ∉ s.used → owner path = .unused
  tokens : ∀ pk, s.nextPk ≤ pk → token pk = .unused
  threads : ∀ i thread, s.threads[i]? = some thread → ThreadOwned owner token i thread
  nodup : (Dict.keys s.rows).Nodup

/-- What a thread has is not changed, and paths only move away from rows. -/
structure Framed (owner' : ExportPath → PathOwner) (token' : Nat → RowToken) (i : Nat) :
    Prop where
  thread : ∀ path, owner path = .thread i → owner' path = .thread i
  row : ∀ path pk, owner path = .row pk → owner' path = .row pk ∨ owner' path = .left pk
  left : ∀ path pk, owner path = .left pk → owner' path = .left pk
  token : ∀ pk, token pk = .thread i → token' pk = .thread i

end Owners

section
variable {owner owner' : ExportPath → PathOwner} {token token' : Nat → RowToken}
  {s : ExportSystem} {i : Nat}

theorem NewOwned.framed {new : ExportRow} {creator : ExportCreator}
    (h : NewOwned owner token i new creator) (hframe : Framed owner token owner' token' i) :
    NewOwned owner' token' i new creator := by
  cases creator with
  | request => exact h
  | worker pk row =>
      obtain ⟨⟨path, hfile, howner⟩, hstatus, hnone, htoken⟩ := h
      exact ⟨⟨path, hfile, hframe.thread path howner⟩, hstatus, hnone, hframe.token pk htoken⟩

theorem NextOwned.framed {next : Option (ExportRow × ExportCreator)}
    (h : NextOwned owner token i next) (hframe : Framed owner token owner' token' i) :
    NextOwned owner' token' i next :=
  fun new creator hnext => (h new creator hnext).framed hframe

/-- The threads that have nothing to do with a change. -/
theorem ThreadOwned.framed {thread : ExportThread} (h : ThreadOwned owner token i thread)
    (hframe : Framed owner token owner' token' i) : ThreadOwned owner' token' i thread := by
  cases thread with
  | creating new creator => exact NewOwned.framed h hframe
  | trimming new creator => exact NewOwned.framed h hframe
  | inserting new creator => exact NewOwned.framed h hframe
  | starting pk row => exact ⟨h.1, hframe.token pk h.2⟩
  | linking pk row => exact h
  | fetching pk => exact hframe.token pk h
  | generating pk row => exact ⟨h.1, hframe.token pk h.2⟩
  | stored pk row path => exact ⟨h.1, hframe.token pk h.2.1, hframe.thread path h.2.2⟩
  | saving pk row found path => exact ⟨h.1, hframe.token pk h.2.1, hframe.thread path h.2.2⟩
  | failing pk row => exact ⟨h.1, hframe.token pk h.2⟩
  | selecting pk => trivial
  | deleting items next =>
      refine ⟨fun item hitem path hfile => ?_, NextOwned.framed h.2 hframe⟩
      rcases h.1 item hitem path hfile with hrow | hleft
      · exact hframe.row path item.1 hrow
      · exact Or.inr (hframe.left path item.1 hleft)
  | removing pks items next =>
      exact ⟨fun item hitem path hfile => hframe.left path item.1 (h.1 item hitem path hfile),
        NextOwned.framed h.2 hframe⟩
  | done => trivial

/-- The threads, after one of them went on. -/
theorem threads_set {threads : List ExportThread} {thread' : ExportThread}
    (h : ∀ j thread, threads[j]? = some thread → ThreadOwned owner token j thread)
    (hframe : ∀ j, j ≠ i → Framed owner token owner' token' j)
    (hthread : ThreadOwned owner' token' i thread') :
    ∀ j thread, (threads.set i thread')[j]? = some thread →
      ThreadOwned owner' token' j thread := by
  intro j thread hget
  by_cases hj : j = i
  · subst hj
    rw [List.getElem?_set_self'] at hget
    obtain ⟨_, -, rfl⟩ := Option.map_eq_some_iff.mp hget
    exact hthread
  · rw [List.getElem?_set_ne (Ne.symm hj)] at hget
    exact (h j thread hget).framed (hframe j hj)

/-- The threads, with a new one. -/
theorem threads_append {new : ExportThread} {threads : List ExportThread}
    (h : ∀ j thread, threads[j]? = some thread → ThreadOwned owner token j thread)
    (hnew : ThreadOwned owner token threads.length new) :
    ∀ j thread, (threads ++ [new])[j]? = some thread → ThreadOwned owner token j thread := by
  intro j thread hget
  rcases Nat.lt_trichotomy j threads.length with hlt | heq | hgt
  · rw [List.getElem?_append_left hlt] at hget
    exact h j thread hget
  · subst heq
    rw [List.getElem?_append_right (Nat.le_refl _), Nat.sub_self] at hget
    cases hget
    exact hnew
  · rw [List.getElem?_eq_none (by rw [List.length_append, List.length_singleton]; omega)] at hget
    cases hget

theorem Framed.refl (i : Nat) : Framed owner token owner token i where
  thread _ h := h
  row _ _ h := Or.inl h
  left _ _ h := h
  token _ h := h

/-- A thread goes on, and nothing else changes. -/
theorem Owned.continueWith {thread' : ExportThread} (h : Owned owner token s)
    (hthread : ThreadOwned owner token i thread') :
    Owned owner token (s.continueWith i thread') where
  rows := h.rows
  files := h.files
  used := h.used
  tokens := h.tokens
  threads := threads_set h.threads (fun j _ => .refl j) hthread
  nodup := h.nodup

/-- A thread comes in. -/
theorem Owned.spawn {thread' : ExportThread} (h : Owned owner token s)
    (hthread : ThreadOwned owner token s.threads.length thread') :
    Owned owner token (s.spawn thread') where
  rows := h.rows
  files := h.files
  used := h.used
  tokens := h.tokens
  threads := threads_append h.threads hthread
  nodup := h.nodup

/-- A row is written without a file. -/
theorem Owned.write_none {pk : Nat} {row : ExportRow} (h : Owned owner token s)
    (hnone : row.file = none) : Owned owner token (s.write pk row) where
  rows := by
    intro pk' row' path hget hfile
    change Dict.get? (Dict.insert s.rows pk row) pk' = some row' at hget
    rw [Dict.get?_insert] at hget
    by_cases heq : pk' = pk
    · rw [if_pos heq] at hget
      cases hget
      rw [hnone] at hfile
      cases hfile
    · rw [if_neg heq] at hget
      exact h.rows pk' row' path hget hfile
  files := h.files
  used := h.used
  tokens := h.tokens
  threads := h.threads
  nodup := Dict.nodup_keys_insert h.nodup pk row

/-! ### What moves -/

/-- Where the old value is another one, an update changes nothing. -/
theorem update_eq_of_ne {α β : Type} [DecidableEq α] {f : α → β} {a b : α} {value : β}
    (h : f b ≠ f a) : Function.update f a value b = f b :=
  Function.update_of_ne (fun heq => h (congrArg f heq)) _ _

/-- A path of a thread is moved to a row. -/
theorem framed_update_owner {path : ExportPath} (howner : owner path = .thread i ∨
    owner path = .unused) (next : PathOwner) {j : Nat} (hj : j ≠ i) :
    Framed owner token (Function.update owner path next) token j where
  thread path' h := by
    rw [update_eq_of_ne, h]
    rcases howner with howner | howner <;> simp [h, howner, hj]
  row path' pk h := by
    rw [update_eq_of_ne]
    · exact Or.inl h
    · rcases howner with howner | howner <;> simp [h, howner]
  left path' pk h := by
    rw [update_eq_of_ne, h]
    rcases howner with howner | howner <;> simp [h, howner]
  token _ h := h

/-- A token of a thread, or a new one, is moved. -/
theorem framed_update_token {pk : Nat} (htoken : token pk = .thread i ∨ token pk = .unused)
    (next : RowToken) {j : Nat} (hj : j ≠ i) :
    Framed owner token owner (Function.update token pk next) j where
  thread _ h := h
  row _ _ h := Or.inl h
  left _ _ h := h
  token pk' h := by
    rw [update_eq_of_ne, h]
    rcases htoken with htoken | htoken <;> simp [h, htoken, hj]

/-- One move after the other. -/
theorem Framed.trans {owner'' : ExportPath → PathOwner} {token'' : Nat → RowToken} {j : Nat}
    (h : Framed owner token owner' token' j) (h' : Framed owner' token' owner'' token'' j) :
    Framed owner token owner'' token'' j where
  thread path hthread := h'.thread path (h.thread path hthread)
  row path pk hrow := by
    rcases h.row path pk hrow with hrow | hleft
    · exact h'.row path pk hrow
    · exact Or.inr (h'.left path pk hleft)
  left path pk hleft := h'.left path pk (h.left path pk hleft)
  token pk htoken := h'.token pk (h.token pk htoken)

/-- A request inserts its row, and has the token of it. -/
theorem Owned.insert_request {new : ExportRow} (h : Owned owner token s)
    (hnone : new.file = none) :
    Owned owner (Function.update token s.nextPk (.thread i))
      { (s.write s.nextPk new).continueWith i (.starting s.nextPk new) with
        nextPk := s.nextPk + 1 } := by
  have hunused := h.tokens s.nextPk (Nat.le_refl _)
  have hwritten : Owned owner token (s.write s.nextPk new) := h.write_none hnone
  refine ⟨fun pk row path hget hfile => ?_, h.files, h.used, fun pk hpk => ?_, ?_,
    hwritten.nodup⟩
  · obtain ⟨howner, hspent, hstatus⟩ := hwritten.rows pk row path hget hfile
    refine ⟨howner, ?_, hstatus⟩
    rw [update_eq_of_ne (by simp [hspent, hunused])]
    exact hspent
  · change s.nextPk + 1 ≤ pk at hpk
    rw [Function.update_of_ne (by omega)]
    exact h.tokens pk (by omega)
  · refine threads_set h.threads (fun j hj => framed_update_token (Or.inr hunused) _ hj) ⟨hnone, ?_⟩
    exact Function.update_self _ _ _

/-- A row gets its file, from the thread that has the path. -/
theorem Owned.write_file {pk nextPk : Nat} {row : ExportRow} {path : ExportPath}
    (h : Owned owner token s) (hfile : row.file = some path)
    (hstatus : row.internalStatus = .successful)
    (howner : owner path = .thread i) (htoken : token pk = .thread i ∨ token pk = .unused)
    (hnext : s.nextPk ≤ nextPk) (hpk : pk < nextPk) :
    Owned (Function.update owner path (.row pk)) (Function.update token pk .spent)
      { (s.write pk row).continueWith i .done with nextPk := nextPk } := by
  refine ⟨fun pk' row' path' hget hfile' => ?_, fun path' hlive => ?_, fun path' hused => ?_,
    fun pk' hpk' => ?_, ?_, Dict.nodup_keys_insert h.nodup pk row⟩
  · change Dict.get? (Dict.insert s.rows pk row) pk' = some row' at hget
    rw [Dict.get?_insert] at hget
    by_cases heq : pk' = pk
    · subst heq
      rw [if_pos rfl] at hget
      cases hget
      rw [hfile] at hfile'
      cases hfile'
      exact ⟨Or.inl (Function.update_self _ _ _), Function.update_self _ _ _, hstatus⟩
    · rw [if_neg heq] at hget
      obtain ⟨howner', hspent, hstatus'⟩ := h.rows pk' row' path' hget hfile'
      refine ⟨?_, ?_, hstatus'⟩
      · rw [update_eq_of_ne]
        · exact howner'
        · rcases howner' with hrow | ⟨hleft, -⟩ <;> simp [*]
      · rw [Function.update_of_ne heq]
        exact hspent
  · by_cases heq : path' = path
    · subst heq
      exact h.files path' (Or.inr ⟨i, howner⟩)
    · simp only [Function.update_of_ne heq] at hlive
      exact h.files path' hlive
  · by_cases heq : path' = path
    · subst heq
      rw [h.used path' hused] at howner
      cases howner
    · rw [Function.update_of_ne heq]
      exact h.used path' hused
  · change nextPk ≤ pk' at hpk'
    rw [Function.update_of_ne (by omega)]
    exact h.tokens pk' (by omega)
  · refine threads_set h.threads (fun j hj => ?_) trivial
    exact (framed_update_owner (Or.inl howner) _ hj).trans (framed_update_token htoken _ hj)

/-- The worker of a row gets the token from the request. -/
theorem Owned.start {pk : Nat} {row : ExportRow} (h : Owned owner token s)
    (hnone : row.file = none) (htoken : token pk = .thread i) :
    Owned owner (Function.update token pk (.thread s.threads.length))
      ((s.continueWith i (.linking pk row)).spawn (.fetching pk)) := by
  refine ⟨fun pk' row' path hget hfile => ?_, h.files, h.used, fun pk' hpk' => ?_, ?_, h.nodup⟩
  · obtain ⟨howner, hspent, hstatus⟩ := h.rows pk' row' path hget hfile
    refine ⟨howner, ?_, hstatus⟩
    rw [update_eq_of_ne (by simp [hspent, htoken])]
    exact hspent
  · rw [update_eq_of_ne (by simp [h.tokens pk' hpk', htoken])]
    exact h.tokens pk' hpk'
  · have hlength : (s.continueWith i (.linking pk row)).threads.length = s.threads.length :=
      List.length_set
    refine threads_append
      (threads_set h.threads (fun j hj => framed_update_token (Or.inl htoken) _ hj) hnone) ?_
    rw [hlength]
    exact Function.update_self _ _ _

/-- A thread stores a file under a new path. -/
theorem Owned.store {pk : Nat} {row : ExportRow} {path : ExportPath} (h : Owned owner token s)
    (hnone : row.file = none) (htoken : token pk = .thread i) (hused : path ∉ s.used) :
    Owned (Function.update owner path (.thread i)) token
      { s.continueWith i (.stored pk row path) with
        files := path :: s.files
        used := path :: s.used } := by
  have hunused := h.used path hused
  refine ⟨fun pk' row' path' hget hfile => ?_, fun path' hlive => ?_, fun path' hused' => ?_,
    h.tokens, ?_, h.nodup⟩
  · obtain ⟨howner, hspent, hstatus⟩ := h.rows pk' row' path' hget hfile
    refine ⟨?_, hspent, hstatus⟩
    rw [update_eq_of_ne]
    · exact howner
    · rcases howner with hrow | ⟨hleft, -⟩ <;> simp [*]
  · by_cases heq : path' = path
    · exact heq ▸ List.mem_cons_self
    · simp only [Function.update_of_ne heq] at hlive
      exact List.mem_cons_of_mem _ (h.files path' hlive)
  · obtain ⟨hne, hused'⟩ := not_or.mp (List.mem_cons.not.mp hused')
    rw [Function.update_of_ne hne]
    exact h.used path' hused'
  · refine threads_set h.threads (fun j hj => framed_update_owner (Or.inr hunused) _ hj) ?_
    exact ⟨hnone, htoken, Function.update_self _ _ _⟩

/-! ### Deletions -/

/-- The owners when a transaction begins to delete rows. -/
def leave (owner : ExportPath → PathOwner) (pks : List Nat) (path : ExportPath) : PathOwner :=
  match owner path with
  | .row pk => if pk ∈ pks then .left pk else .row pk
  | .unused => .unused
  | .thread i => .thread i
  | .left pk => .left pk

theorem leave_of_row {pks : List Nat} {pk : Nat} {path : ExportPath} (h : owner path = .row pk) :
    leave owner pks path = if pk ∈ pks then .left pk else .row pk := by
  unfold leave
  rw [h]

theorem leave_of_ne {pks : List Nat} {path : ExportPath} (h : ∀ pk, owner path ≠ .row pk) :
    leave owner pks path = owner path := by
  unfold leave
  cases howner : owner path with
  | row pk => exact absurd howner (h pk)
  | unused => rfl
  | thread i => rfl
  | left pk => rfl

theorem leave_of_left {pks : List Nat} {pk : Nat} {path : ExportPath}
    (h : owner path = .left pk) : leave owner pks path = .left pk := by
  unfold leave
  rw [h]

/-- The paths that are live were live before. -/
theorem live_of_leave {pks : List Nat} {path : ExportPath}
    (h : (∃ pk, leave owner pks path = .row pk) ∨ ∃ j, leave owner pks path = .thread j) :
    (∃ pk, owner path = .row pk) ∨ ∃ j, owner path = .thread j := by
  unfold leave at h
  cases howner : owner path <;> simp [howner] at h ⊢

theorem framed_leave (pks : List Nat) (j : Nat) :
    Framed owner token (leave owner pks) token j where
  thread path h := by
    rw [leave_of_ne]
    · exact h
    · intro pk hrow
      rw [hrow] at h
      cases h
  row path pk h := by
    rw [leave_of_row h]
    split
    · exact Or.inr rfl
    · exact Or.inl rfl
  left _ _ h := leave_of_left h
  token _ h := h

/-- A transaction deletes rows, which other threads see until it ends. -/
theorem Owned.lock {items : List (Nat × ExportRow)} {next : Option (ExportRow × ExportCreator)}
    (h : Owned owner token s) (hthread : ThreadOwned owner token i (.deleting items next)) :
    Owned (leave owner (Dict.keys items)) token
      { s.continueWith i (.removing (s.presentPks items) items next) with
        locked := s.locked ++ s.presentPks items } := by
  refine ⟨fun pk row path hget hfile => ?_, fun path hlive => ?_, fun path hused => ?_, h.tokens,
    ?_, h.nodup⟩
  · obtain ⟨howner, hspent, hstatus⟩ := h.rows pk row path hget hfile
    refine ⟨?_, hspent, hstatus⟩
    rcases howner with hrow | ⟨hleft, hlocked⟩
    · rw [leave_of_row hrow]
      by_cases hmem : pk ∈ Dict.keys items
      · refine Or.inr ⟨if_pos hmem, List.mem_append_right _ (List.mem_filter.mpr ⟨hmem, ?_⟩)⟩
        change s.get? pk = some row at hget
        rw [hget]
        rfl
      · exact Or.inl (if_neg hmem)
    · exact Or.inr ⟨leave_of_left hleft, List.mem_append_left _ hlocked⟩
  · exact h.files path (live_of_leave hlive)
  · have hunused := h.used path hused
    rw [leave_of_ne (by simp [hunused])]
    exact hunused
  · refine threads_set h.threads (fun j _ => framed_leave _ j) ⟨fun item hitem path hfile => ?_, ?_⟩
    · rcases hthread.1 item hitem path hfile with hrow | hleft
      · rw [leave_of_row hrow]
        exact if_pos (List.mem_map_of_mem hitem)
      · exact leave_of_left hleft
    · exact hthread.2.framed (framed_leave _ i)

/-- The file of a row that is deleted is removed. -/
theorem Owned.remove_file {pks : List Nat} {item : Nat × ExportRow}
    {items : List (Nat × ExportRow)} {next : Option (ExportRow × ExportCreator)}
    (h : Owned owner token s)
    (hthread : ThreadOwned owner token i (.removing pks (item :: items) next)) :
    Owned owner token { s.continueWith i (.removing pks items next) with
      files := s.files.filter fun path => item.2.file ≠ some path } := by
  refine ⟨h.rows, fun path hlive => ?_, h.used, h.tokens, ?_, h.nodup⟩
  · refine List.mem_filter.mpr ⟨h.files path hlive, decide_eq_true fun hfile => ?_⟩
    have hleft := hthread.1 item List.mem_cons_self path hfile
    rcases hlive with ⟨pk, hrow⟩ | ⟨j, hthread'⟩
    · rw [hleft] at hrow
      cases hrow
    · rw [hleft] at hthread'
      cases hthread'
  · refine threads_set h.threads (fun j _ => .refl j) ⟨fun item' hitem => ?_, hthread.2⟩
    exact hthread.1 item' (List.mem_cons_of_mem _ hitem)

/-- The transaction ends. -/
theorem Owned.commit {pks : List Nat} {next : Option (ExportRow × ExportCreator)}
    (h : Owned owner token s) (hthread : ThreadOwned owner token i (.removing pks [] next)) :
    Owned owner token { s.continueWith i (afterDeletion next) with
      rows := s.rows.filter fun item => item.1 ∉ pks
      locked := s.locked.filter (· ∉ pks) } := by
  refine ⟨fun pk row path hget hfile => ?_, h.files, h.used, h.tokens, ?_,
    h.nodup.sublist (List.filter_sublist.map _)⟩
  · change Dict.get? (s.rows.filter fun item => item.1 ∉ pks) pk = some row at hget
    rw [Dict.get?_filter_key s.rows (fun key => key ∉ pks)] at hget
    by_cases hpk : pk ∈ pks
    · rw [if_neg (by simpa using hpk)] at hget
      cases hget
    · rw [if_pos (by simpa using hpk)] at hget
      obtain ⟨howner, hspent, hstatus⟩ := h.rows pk row path hget hfile
      refine ⟨howner.imp_right fun hleft => ⟨hleft.1, ?_⟩, hspent, hstatus⟩
      exact List.mem_filter.mpr ⟨hleft.2, decide_eq_true hpk⟩
  · refine threads_set h.threads (fun j _ => .refl j) ?_
    cases next with
    | none => trivial
    | some next => exact hthread.2 next.1 next.2 rfl

/-- Exports that are pending for too long have no file. -/
theorem Owned.mark_expired (h : Owned owner token s) (threshold : Nat) :
    Owned owner token
      { s with rows := s.rows.map fun item => (item.1, markExpired threshold item.2) } := by
  refine ⟨fun pk row path hget hfile => ?_, h.files, h.used, h.tokens, h.threads, ?_⟩
  · change Dict.get? (s.rows.map fun item => (item.1, markExpired threshold item.2)) pk =
      some row at hget
    rw [Dict.get?_mapValues s.rows fun _ => markExpired threshold] at hget
    obtain ⟨old, hold, rfl⟩ := Option.map_eq_some_iff.mp hget
    have hold' : old.file = some path := by
      unfold markExpired at hfile
      split at hfile <;> exact hfile
    obtain ⟨howner, hspent, hstatus⟩ := h.rows pk old path hold hold'
    refine ⟨howner, hspent, ?_⟩
    unfold markExpired
    rw [if_neg (by rw [hstatus]; simp)]
    exact hstatus
  · have hkeys : Dict.keys (s.rows.map fun item => (item.1, markExpired threshold item.2)) =
        Dict.keys s.rows := by
      rw [Dict.keys, List.map_map]
      rfl
    rw [hkeys]
    exact h.nodup

/-! ### A step -/

/-- The row is as before, or it is gone, or it is marked. -/
def RowKept (s s' : ExportSystem) (pk : Nat) : Prop :=
  s'.get? pk = s.get? pk ∨ s'.get? pk = none ∨
    ∃ threshold, s'.get? pk = (s.get? pk).map (markExpired threshold)

/-- The rows that got their files are kept, when no request saves its task id to them. -/
structure Keeps (token : Nat → RowToken) (s : ExportSystem) (token' : Nat → RowToken)
    (s' : ExportSystem) : Prop where
  tokens : ∀ pk, token pk = .spent → token' pk = .spent
  links : ∀ pk row, ExportThread.linking pk row ∈ s'.threads →
    ExportThread.linking pk row ∈ s.threads ∨ token pk ≠ .spent
  rows : ∀ pk, token pk = .spent → (∀ row, ExportThread.linking pk row ∉ s.threads) →
    RowKept s s' pk

theorem links_set {threads : List ExportThread} {thread' : ExportThread}
    (hthread : ∀ pk row, thread' ≠ .linking pk row) (pk : Nat) (row : ExportRow)
    (h : ExportThread.linking pk row ∈ threads.set i thread') :
    ExportThread.linking pk row ∈ threads ∨ token pk ≠ .spent := by
  rcases List.mem_or_eq_of_mem_set h with hmem | heq
  · exact Or.inl hmem
  · exact absurd heq.symm (hthread pk row)

/-- A thread goes on, and the rows stay. -/
theorem Keeps.of_rows {s' : ExportSystem} {thread' : ExportThread}
    (hrows : s'.rows = s.rows) (hthreads : s'.threads = s.threads.set i thread')
    (hthread : ∀ pk row, thread' ≠ .linking pk row) : Keeps token s token s' where
  tokens _ h := h
  links pk row h := links_set (i := i) hthread pk row (hthreads ▸ h)
  rows pk _ _ := Or.inl (by unfold ExportSystem.get?; rw [hrows])

/-- A thread that goes on with what is known of it. -/
theorem Owned.goes_on {thread' : ExportThread} (h : Owned owner token s)
    (hthread : ThreadOwned owner token i thread' ∧ ∀ pk row, thread' ≠ .linking pk row) :
    ∃ owner' token', Owned owner' token' (s.continueWith i thread') ∧
      Keeps token s token' (s.continueWith i thread') :=
  ⟨owner, token, h.continueWith hthread.1, .of_rows rfl rfl hthread.2⟩

/-- A row is written that has no file yet, or to which a request saves its task id. -/
theorem Keeps.of_write {s' : ExportSystem} {pk : Nat} {row : ExportRow} {thread' : ExportThread}
    (hrows : s'.rows = Dict.insert s.rows pk row)
    (hthreads : s'.threads = s.threads.set i thread')
    (hthread : ∀ pk row, thread' ≠ .linking pk row)
    (hpk : token pk ≠ .spent ∨ ∃ row, ExportThread.linking pk row ∈ s.threads)
    (htoken : ∀ pk', pk' ≠ pk → token' pk' = token pk') (hspent : token pk = .spent →
      token' pk = .spent) : Keeps token s token' s' where
  tokens pk' h := by
    by_cases heq : pk' = pk
    · exact heq ▸ hspent (heq ▸ h)
    · rw [htoken pk' heq]
      exact h
  links pk' row' h := links_set (i := i) hthread pk' row' (hthreads ▸ h)
  rows pk' h hnone := by
    refine Or.inl ?_
    unfold ExportSystem.get?
    rw [hrows, Dict.get?_insert, if_neg]
    rintro rfl
    rcases hpk with hne | ⟨row', hlink⟩
    · exact hne h
    · exact hnone row' hlink

theorem creatorFails_owned {new : ExportRow} {creator : ExportCreator}
    (h : NewOwned owner token i new creator) :
    ThreadOwned owner token i (creatorFails creator) ∧
      ∀ pk row, creatorFails creator ≠ .linking pk row := by
  cases creator with
  | request => exact ⟨trivial, nofun⟩
  | worker pk row => exact ⟨h.2.2, nofun⟩

/-- Rows that are read have the paths that they own. -/
theorem Owned.items_read (h : Owned owner token s) {items : List (Nat × ExportRow)}
    (hitems : ∀ item ∈ items, item ∈ s.rows) :
    ∀ item ∈ items, ∀ path, item.2.file = some path →
      owner path = .row item.1 ∨ owner path = .left item.1 := by
  intro item hitem path hfile
  have hget : s.get? item.1 = some item.2 := Dict.get?_of_mem h.nodup (hitems item hitem)
  rcases (h.rows item.1 item.2 path hget hfile).1 with hrow | hleft
  · exact Or.inl hrow
  · exact Or.inr hleft.1

/-- A new row is inserted. -/
theorem insertRow_owned {new : ExportRow} {creator : ExportCreator} {now : Nat}
    {s' : ExportSystem} (h : Owned owner token s) (hnew : NewOwned owner token i new creator)
    (hstep : s.insertRow i now new creator = some s') :
    ∃ owner' token', Owned owner' token' s' ∧ Keeps token s token' s' := by
  have hunused := h.tokens s.nextPk (Nat.le_refl _)
  have hspent : token s.nextPk ≠ .spent := by
    rw [hunused]
    exact RowToken.noConfusion
  unfold insertRow at hstep
  split at hstep
  · cases hstep
  · cases creator with
    | request =>
        cases hstep
        exact ⟨owner, _, @Owned.insert_request _ _ _ _ { new with createdOn := now } h hnew,
          .of_write rfl rfl nofun (Or.inl hspent)
            (fun _ hne => Function.update_of_ne hne _ _) fun heq => absurd heq hspent⟩
    | worker pk row =>
        cases hstep
        obtain ⟨⟨path, hfile, howner⟩, hstatus, -, -⟩ := hnew
        exact ⟨_, _, @Owned.write_file _ _ _ _ _ _ { new with createdOn := now } _ h hfile hstatus
            howner (Or.inr hunused) (Nat.le_succ _) (Nat.lt_succ_self _),
          .of_write rfl rfl nofun (Or.inl hspent)
            (fun _ hne => Function.update_of_ne hne _ _) fun heq => absurd heq hspent⟩

/-- A thread goes on. -/
theorem advance_owned {thread : ExportThread} {now : Nat} {choice : ThreadChoice}
    {s' : ExportSystem} (h : Owned owner token s) (hget : s.threads[i]? = some thread)
    (hnew : ∀ path, choice = .store path → path ∉ s.used)
    (hstep : s.advance i now thread choice = some s') :
    ∃ owner' token', Owned owner' token' s' ∧ Keeps token s token' s' := by
  have hthread := h.threads i thread hget
  cases thread <;> cases choice
  case creating.go new creator =>
    cases hstep
    refine h.goes_on ?_
    unfold countExports
    split <;> exact ⟨hthread, nofun⟩
  case creating.fail new creator =>
    cases hstep
    exact h.goes_on (creatorFails_owned hthread)
  case trimming.go new creator =>
    cases hstep
    refine h.goes_on ?_
    unfold readOldestExport
    split
    · rename_i oldest holdest
      refine ⟨⟨h.items_read fun item hitem => ?_, fun new' creator' heq => ?_⟩, nofun⟩
      · rw [List.mem_singleton.mp hitem]
        exact (List.mem_filter.mp (List.argmin_mem holdest)).1
      · cases heq
        exact hthread
    · exact creatorFails_owned hthread
  case trimming.fail new creator =>
    cases hstep
    exact h.goes_on (creatorFails_owned hthread)
  case inserting.go new creator =>
    exact insertRow_owned h hthread hstep
  case inserting.fail new creator =>
    cases hstep
    exact h.goes_on (creatorFails_owned hthread)
  case starting.go pk row =>
    cases hstep
    refine ⟨owner, _, h.start hthread.1 hthread.2, ⟨fun pk' hspent => ?_,
      fun pk' row' hlink => ?_, fun _ _ _ => Or.inl rfl⟩⟩
    · rw [update_eq_of_ne (by simp [hspent, hthread.2])]
      exact hspent
    · change ExportThread.linking pk' row' ∈
        s.threads.set i (.linking pk row) ++ [.fetching pk] at hlink
      rcases List.mem_append.mp hlink with hset | hnew
      · rcases List.mem_or_eq_of_mem_set hset with hmem | heq
        · exact Or.inl hmem
        · cases heq
          refine Or.inr ?_
          rw [hthread.2]
          exact RowToken.noConfusion
      · cases List.mem_singleton.mp hnew
  case starting.fail pk row =>
    cases hstep
    exact h.goes_on ⟨hthread, nofun⟩
  case linking.go pk row =>
    change (if pk ∈ s.locked then none else some ((s.write pk row).continueWith i .done)) =
      some s' at hstep
    split at hstep
    · cases hstep
    · cases hstep
      refine ⟨owner, token, (h.write_none hthread).continueWith trivial,
        .of_write rfl rfl nofun
          (Or.inr ⟨row, List.mem_of_getElem? hget⟩) (fun _ _ => rfl) id⟩
  case fetching.go pk =>
    cases hstep
    refine h.goes_on ?_
    unfold fetchExport
    split
    · rename_i row hrow
      refine ⟨⟨Option.eq_none_iff_forall_ne_some.mpr fun path hfile => ?_, hthread⟩, nofun⟩
      have hspent := (h.rows pk row path hrow hfile).2.1
      rw [show token pk = .thread i from hthread] at hspent
      cases hspent
    · exact ⟨trivial, nofun⟩
  case generating.store pk row path =>
    change (if path ∈ s.files then none else _) = some s' at hstep
    split at hstep
    · cases hstep
    · cases hstep
      exact ⟨_, token, h.store hthread.1 hthread.2 (hnew path rfl),
        .of_rows rfl rfl nofun⟩
  case generating.fail pk row =>
    cases hstep
    exact h.goes_on ⟨hthread, nofun⟩
  case stored.go pk row path =>
    cases hstep
    refine h.goes_on ?_
    unfold getOrCreateExport
    split
    · exact ⟨hthread, nofun⟩
    · exact ⟨⟨⟨path, rfl, hthread.2.2⟩, rfl, hthread.1, hthread.2.1⟩, nofun⟩
  case stored.fail pk row path =>
    cases hstep
    exact h.goes_on ⟨⟨hthread.1, hthread.2.1⟩, nofun⟩
  case saving.go pk row found path =>
    change (if pk ∈ s.locked ∨ s.filenameTaken pk path = true then none else _) =
      some s' at hstep
    split at hstep
    · cases hstep
    · cases hstep
      have hlt : pk < s.nextPk := by
        by_contra hle
        have hunused := h.tokens pk (by omega)
        rw [hthread.2.1] at hunused
        cases hunused
      refine ⟨_, _, @Owned.write_file _ _ _ _ _ s.nextPk _ _ h rfl rfl hthread.2.2
          (Or.inl hthread.2.1) (Nat.le_refl _) hlt,
        .of_write rfl rfl nofun
          (Or.inl ?_) (fun _ hne => Function.update_of_ne hne _ _) fun _ =>
            Function.update_self _ _ _⟩
      rw [hthread.2.1]
      exact RowToken.noConfusion
  case saving.fail pk row found path =>
    cases hstep
    exact h.goes_on ⟨⟨hthread.1, hthread.2.1⟩, nofun⟩
  case failing.go pk row =>
    change (if pk ∈ s.locked then none else _) = some s' at hstep
    split at hstep
    · cases hstep
    · cases hstep
      have hwritten : Owned owner token (s.write pk (saveStatus row .failed)) :=
        h.write_none hthread.1
      refine ⟨owner, token, @Owned.continueWith _ _ _ _ .done hwritten trivial,
        .of_write rfl rfl nofun (Or.inl ?_)
          (fun _ _ => rfl) id⟩
      rw [hthread.2]
      exact RowToken.noConfusion
  case selecting.go pk =>
    cases hstep
    refine h.goes_on ?_
    unfold selectExport
    split
    · rename_i row hrow
      refine ⟨⟨h.items_read fun item hitem => ?_, fun new' creator' heq => ?_⟩, nofun⟩
      · rw [List.mem_singleton.mp hitem]
        exact Dict.mem_of_get? hrow
      · cases heq
    · exact ⟨trivial, nofun⟩
  case deleting.go items next =>
    change (if (s.presentPks items).any (· ∈ s.locked) then none else _) = some s' at hstep
    split at hstep
    · cases hstep
    · cases hstep
      exact ⟨_, token, h.lock hthread, .of_rows rfl rfl nofun⟩
  case removing.go pks items next =>
    cases items with
    | cons item items =>
        cases hstep
        exact ⟨owner, token, h.remove_file hthread, .of_rows rfl rfl nofun⟩
    | nil =>
        cases hstep
        have hlink : ∀ pk row, afterDeletion next ≠ .linking pk row := by
          cases next <;> exact nofun
        refine ⟨owner, token, h.commit hthread, fun _ hspent => hspent,
          fun pk row hmem => links_set (i := i) hlink pk row hmem, fun pk _ _ => ?_⟩
        have hrow := Dict.get?_filter_key s.rows (fun key => key ∉ pks) pk
        by_cases hmem : pk ∈ pks
        · refine Or.inr (Or.inl (hrow.trans (if_neg ?_)))
          simpa using hmem
        · refine Or.inl (hrow.trans (if_pos ?_))
          simpa using hmem
  case removing.store pks items next path => cases items <;> cases hstep
  case removing.fail pks items next => cases items <;> cases hstep
  -- a thread in another phase does not go on like this
  all_goals cases hstep

/-- A step keeps the paths and the tokens, if no path is used twice. -/
theorem step_owned {event : ExportEvent} {s' : ExportSystem} (h : Owned owner token s)
    (hnew : NewPath s event s') (hstep : s.step event = some s') :
    ∃ owner' token', Owned owner' token' s' ∧ Keeps token s token' s' := by
  have hlinks : ∀ thread : ExportThread, (∀ pk row, thread ≠ .linking pk row) →
      Keeps token s token (s.spawn thread) := by
    intro thread hthread
    refine ⟨fun _ hspent => hspent, fun pk row hmem => ?_, fun _ _ _ => Or.inl rfl⟩
    rcases List.mem_append.mp hmem with hmem | hmem
    · exact Or.inl hmem
    · exact absurd (List.mem_singleton.mp hmem).symm (hthread pk row)
  cases event with
  | createAsyncExport exportType =>
      cases hstep
      exact ⟨owner, token, h.spawn rfl, hlinks _ nofun⟩
  | deleteExport pk =>
      cases hstep
      exact ⟨owner, token, h.spawn trivial, hlinks _ nofun⟩
  | markExpired threshold =>
      cases hstep
      refine ⟨owner, token, h.mark_expired threshold, fun _ hspent => hspent,
        fun _ _ hmem => Or.inl hmem, fun pk _ _ => Or.inr (Or.inr ⟨threshold, ?_⟩)⟩
      exact Dict.get?_mapValues s.rows (fun _ => markExpired threshold) pk
  | deleteExpired threshold =>
      cases hstep
      refine ⟨owner, token, h.spawn ⟨h.items_read fun item hitem => ?_, fun _ _ hnext => ?_⟩,
        hlinks _ nofun⟩
      · exact (List.mem_filter.mp hitem).1
      · cases hnext
  | advance i now choice =>
      obtain ⟨thread, hget, hstep⟩ := Option.bind_eq_some_iff.mp hstep
      exact advance_owned h hget (fun path hchoice => hnew i now path (by rw [hchoice])) hstep

/-! ### Runs -/

/-- Nothing is stored yet. -/
theorem owned_empty : Owned (fun _ => .unused) (fun _ => .unused) {} where
  rows _ _ _ hget := by cases hget
  files _ hlive := by
    rcases hlive with ⟨_, h⟩ | ⟨_, h⟩ <;> cases h
  used _ _ := rfl
  tokens _ _ := rfl
  threads _ _ hget := by cases hget
  nodup := List.nodup_nil

/-- The paths and the tokens, after a run. -/
theorem run_owned {events : List ExportEvent} {s' : ExportSystem}
    (hrun : Run (Guarded Step NewPath) s events s') (h : Owned owner token s) :
    ∃ owner' token', Owned owner' token' s' := by
  refine hrun.invariant (fun s => ∃ owner token, Owned owner token s) ?_ ⟨owner, token, h⟩
  rintro s event s' - ⟨hstep, hnew⟩ ⟨owner, token, h⟩
  obtain ⟨owner', token', h', -⟩ := step_owned h hnew hstep
  exact ⟨owner', token', h'⟩

/-- In every run in which no path is used twice, the file of each export is there or its deletion is
under way, no two exports share a file, and a file that is stored is there until it is saved. -/
theorem exportFiles_safe {events : List ExportEvent} {s : ExportSystem}
    (hrun : Run (Guarded Step NewPath) {} events s) :
    (∀ pk row path, s.get? pk = some row → row.file = some path →
      path ∈ s.files ∨ pk ∈ s.locked) ∧
    (∀ pk pk' row row' path, s.get? pk = some row → s.get? pk' = some row' →
      row.file = some path → row'.file = some path → pk = pk') ∧
    ∀ pk row path, .stored pk row path ∈ s.threads → path ∈ s.files := by
  obtain ⟨owner, token, h⟩ := run_owned hrun owned_empty
  refine ⟨fun pk row path hget hfile => ?_, fun pk pk' row row' path hget hget' hfile hfile' => ?_,
    fun pk row path hmem => ?_⟩
  · rcases (h.rows pk row path hget hfile).1 with howner | ⟨-, hlocked⟩
    · exact Or.inl (h.files path (Or.inl ⟨pk, howner⟩))
    · exact Or.inr hlocked
  · rcases (h.rows pk row path hget hfile).1 with howner | ⟨howner, -⟩ <;>
      rcases (h.rows pk' row' path hget' hfile').1 with howner' | ⟨howner', -⟩
    · exact PathOwner.row.inj (howner.symm.trans howner')
    · cases howner.symm.trans howner'
    · cases howner.symm.trans howner'
    · exact PathOwner.left.inj (howner.symm.trans howner')
  · obtain ⟨i, hget⟩ := List.mem_iff_getElem?.mp hmem
    exact h.files path (Or.inr ⟨i, (h.threads i _ hget).2.2⟩)

/-- A finished export is kept as it is until it is deleted. -/
theorem run_keeps {events : List ExportEvent} {s' : ExportSystem} {pk : Nat} {row : ExportRow}
    {path : ExportPath} (h : Owned owner token s) (hget : s.get? pk = some row)
    (hfile : row.file = some path) (hlink : ∀ row, ExportThread.linking pk row ∉ s.threads)
    (hrun : Run (Guarded Step NewPath) s events s') :
    s'.get? pk = some row ∨ s'.get? pk = none := by
  obtain ⟨-, hspent, hstatus⟩ := h.rows pk row path hget hfile
  have hkept := hrun.invariant (fun s => (∃ owner token, Owned owner token s ∧ token pk = .spent) ∧
      (∀ row, ExportThread.linking pk row ∉ s.threads) ∧
        (s.get? pk = some row ∨ s.get? pk = none)) ?_
    ⟨⟨owner, token, h, hspent⟩, hlink, Or.inl hget⟩
  · exact hkept.2.2
  · rintro s event s' - ⟨hstep, hnew⟩ ⟨⟨owner, token, h, hspent⟩, hlink, hrow⟩
    obtain ⟨owner', token', h', hkeeps⟩ := step_owned h hnew hstep
    refine ⟨⟨owner', token', h', hkeeps.tokens pk hspent⟩, fun row' hmem => ?_, ?_⟩
    · rcases hkeeps.links pk row' hmem with hmem | hne
      · exact hlink row' hmem
      · exact hne hspent
    · have hmark : ∀ threshold, markExpired threshold row = row := by
        intro threshold
        unfold markExpired
        rw [if_neg (by rw [hstatus]; simp)]
      rcases hkeeps.rows pk hspent hlink with hsame | hnone | ⟨threshold, hmarked⟩
      · rw [hsame]
        exact hrow
      · exact Or.inr hnone
      · rw [hmarked]
        rcases hrow with hrow | hrow <;> rw [hrow]
        · exact Or.inl (congrArg some (hmark threshold))
        · exact Or.inr rfl

/-- A finished export that is not being deleted can only be deleted, exactly when the request that
started it has saved its task id. Before that, the request writes the row as it was when it was
made. -/
theorem exportSettled_iff {events : List ExportEvent} {s : ExportSystem} {pk : Nat}
    {row : ExportRow} {path : ExportPath} (hrun : Run (Guarded Step NewPath) {} events s)
    (hget : s.get? pk = some row) (hfile : row.file = some path) (hlocked : pk ∉ s.locked) :
    (∀ events' s', Run (Guarded Step NewPath) s events' s' →
        s'.get? pk = some row ∨ s'.get? pk = none) ↔
      ∀ row', ExportThread.linking pk row' ∉ s.threads := by
  obtain ⟨owner, token, h⟩ := run_owned hrun owned_empty
  constructor
  · intro hkept row' hmem
    obtain ⟨i, hthread⟩ := List.mem_iff_getElem?.mp hmem
    have hstep : Step s (.advance i 0 .go) ((s.write pk row').continueWith i .done) := by
      show s.threads[i]?.bind (fun thread => s.advance i 0 thread .go) = _
      rw [hthread]
      exact if_neg hlocked
    have hafter : ((s.write pk row').continueWith i .done).get? pk = some row' := by
      show Dict.get? (Dict.insert s.rows pk row') pk = some row'
      rw [Dict.get?_insert, if_pos rfl]
    have hnone : row'.file = none := h.threads i _ hthread
    rcases hkept [.advance i 0 .go] _ (.cons ⟨hstep, fun _ _ _ heq => by cases heq⟩ (.nil _))
      with hsome | hgone
    · rw [hafter, Option.some.injEq] at hsome
      rw [hsome, hfile] at hnone
      cases hnone
    · rw [hafter] at hgone
      cases hgone
  · exact fun hlink events' s' hrun' => run_keeps h hget hfile hlink hrun'

end

/-! ### An export -/

/-- The file of an export. -/
def visitsPath : ExportPath := ⟨"ministry/exports/visits/csv", "visits_2024_02_01.csv"⟩

/-- The row of the export. -/
def visitsRow : ExportRow where
  exportType := .csv
  createdOn := 5
  internalStatus := .successful
  file := some visitsPath

/-- A request makes an export, and its worker saves the file last. -/
def visitsExport : ExportSystem where
  rows := [(0, visitsRow)]
  nextPk := 1
  files := [visitsPath]
  used := [visitsPath]
  threads := [.done, .done]

/-- The steps of the request and of its worker. -/
def visitsEvents : List ExportEvent :=
  [.createAsyncExport .csv, .advance 0 5 .go, .advance 0 5 .go, .advance 0 5 .go, .advance 0 5 .go,
    .advance 1 6 .go, .advance 1 6 (.store visitsPath), .advance 1 7 .go, .advance 1 7 .go]

/-- A step that stores nothing uses no path. -/
theorem newPath_of_ne {s s' : ExportSystem} {event : ExportEvent}
    (h : ∀ i now path, event ≠ .advance i now (.store path)) : NewPath s event s' :=
  fun i now path heq => absurd heq (h i now path)

theorem run_visitsEvents : Run (Guarded Step NewPath) {} visitsEvents visitsExport := by
  refine .cons ⟨rfl, newPath_of_ne (by simp)⟩ <| .cons ⟨rfl, newPath_of_ne (by simp)⟩ <|
    .cons ⟨rfl, newPath_of_ne (by simp)⟩ <| .cons ⟨rfl, newPath_of_ne (by simp)⟩ <|
    .cons ⟨rfl, newPath_of_ne (by simp)⟩ <| .cons ⟨rfl, newPath_of_ne (by simp)⟩ <|
    .cons ⟨rfl, ?_⟩ <| .cons ⟨rfl, newPath_of_ne (by simp)⟩ <|
    .cons ⟨rfl, newPath_of_ne (by simp)⟩ <| .nil _
  intro i now path heq
  cases heq
  decide

/-- The export has its file. -/
theorem exportFiles_safe_visits :
    visitsPath ∈ visitsExport.files ∨ 0 ∈ visitsExport.locked :=
  (exportFiles_safe run_visitsEvents).1 0 visitsRow visitsPath rfl rfl

/-- The export is settled. -/
theorem exportSettled_visits :
    visitsExport.get? 0 = some visitsRow ∧
      ∀ events' s', Run (Guarded Step NewPath) visitsExport events' s' →
        s'.get? 0 = some visitsRow ∨ s'.get? 0 = none :=
  ⟨rfl, (exportSettled_iff run_visitsEvents rfl rfl (by decide)).mpr (by
    intro row hmem
    simp [visitsExport] at hmem)⟩

end Onadata.Proofs

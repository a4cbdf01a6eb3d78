import Mathlib.Data.List.Pairwise
import Onadata.Libs.Utils.BriefcaseClient

/-!
# `Onadata.Proofs.Libs.Utils.BriefcasePull`: a pull is complete

A page holds the first submissions after its cursor, in some order. So the submissions up to its
last row are all on it or before it (`mem_take_of_le`), and the next cursor, which is that of a row
after the old one, leaves fewer submissions to come. `downloadInstances_after` states what the
client gets from a cursor that it has just followed, by induction on what is to come.

What is left of a pull is the cursor that the client remembers. `CaughtUp` says that a form with a
submission at that cursor has none after it, so that the pull of another form, or of the same form
once more, does not end too early.
-/

set_option autoImplicit false

namespace Onadata

open Onadata.Lib

variable {store : BriefcaseStore} {paths : Nat → QueryPath} {path : QueryPath}
variable {xform cursor numEntries : Nat}

namespace BriefcaseStore

/-! ### A page -/

theorem mem_liveInstances {row : BriefcaseInstance} :
    row ∈ store.liveInstances xform ↔ row ∈ store.instances ∧ row.xform = xform ∧
      row.deletedAt = none ∧ (store.encrypted xform = true → row.mediaAllReceived = some true) := by
  unfold liveInstances
  cases hencrypted : store.encrypted xform <;> simp [and_assoc]

theorem liveInstances_pairwise (store : BriefcaseStore) (xform : Nat) :
    (store.liveInstances xform).Pairwise fun row row' => row.pk < row'.pk :=
  store.ordered.sublist List.filter_sublist

/-- Every primary key comes after the cursor zero. -/
theorem instancesAfter_eq (store : BriefcaseStore) (xform cursor : Nat) :
    store.instancesAfter xform cursor =
      (store.liveInstances xform).filter fun row => cursor < row.pk := by
  unfold instancesAfter
  split
  · rfl
  · rename_i hcursor
    have hzero : cursor = 0 := by omega
    refine (List.filter_eq_self.mpr fun row hrow => ?_).symm
    rw [hzero]
    exact decide_eq_true (store.pk_pos row (List.mem_filter.mp hrow).1)

theorem mem_instancesAfter {row : BriefcaseInstance} :
    row ∈ store.instancesAfter xform cursor ↔
      row ∈ store.liveInstances xform ∧ cursor < row.pk := by
  rw [instancesAfter_eq, List.mem_filter, decide_eq_true_eq]

/-- Where no submission comes after the cursor, all are before it. -/
theorem le_of_instancesAfter_eq_nil (h : store.instancesAfter xform cursor = []) :
    ∀ row ∈ store.liveInstances xform, row.pk ≤ cursor := by
  intro row hrow
  by_contra hlt
  have hmem : row ∈ store.instancesAfter xform cursor :=
    mem_instancesAfter.mpr ⟨hrow, Nat.lt_of_not_le hlt⟩
  rw [h] at hmem
  exact List.not_mem_nil hmem

/-- The submissions of a page are the first ones after the cursor. -/
theorem page_perm (store : BriefcaseStore) (path : QueryPath) (xform cursor : Nat)
    (hnumEntries : 0 < numEntries) :
    (store.page path xform cursor numEntries).Perm
      ((store.instancesAfter xform cursor).take numEntries) := by
  unfold page
  rw [if_neg (by omega)]
  cases path with
  | ordered => exact .refl _
  | optimizationFence order => exact order.perm _

/-- In a list in ascending order, what comes before one of the first items is among them. -/
theorem mem_take_of_le {rows : List BriefcaseInstance} {n : Nat}
    (hrows : rows.Pairwise fun row row' => row.pk < row'.pk) {row last : BriefcaseInstance}
    (hlast : last ∈ rows.take n) (hrow : row ∈ rows) (hle : row.pk ≤ last.pk) :
    row ∈ rows.take n := by
  rw [← List.take_append_drop n rows, List.mem_append] at hrow
  rcases hrow with hrow | hrow
  · exact hrow
  · rw [← List.take_append_drop n rows] at hrows
    have hlt : last.pk < row.pk := (List.pairwise_append.mp hrows).2.2 last hlast row hrow
    omega

/-- The page after a cursor: it is the end of the form, or it has a last row, and the submissions up
to that row are on it. -/
theorem filterQueryset_cases (store : BriefcaseStore) (path : QueryPath) (xform cursor : Nat)
    (hnumEntries : 0 < numEntries) :
    (store.filterQueryset path xform cursor numEntries = ([], cursor) ∧
      store.instancesAfter xform cursor = []) ∨
    ∃ last, store.filterQueryset path xform cursor numEntries =
        (store.page path xform cursor numEntries, last.pk) ∧
      last ∈ store.instancesAfter xform cursor ∧
      (∀ row ∈ store.page path xform cursor numEntries,
        row ∈ store.instancesAfter xform cursor) ∧
      ∀ row ∈ store.instancesAfter xform cursor, row.pk ≤ last.pk →
        row ∈ store.page path xform cursor numEntries := by
  have hperm := page_perm store path xform cursor hnumEntries
  unfold filterQueryset
  cases hlast : (store.page path xform cursor numEntries).getLast? with
  | none =>
      left
      have hnil := List.getLast?_eq_none_iff.mp hlast
      rw [hnil] at hperm
      have htake := hperm.symm.eq_nil
      refine ⟨?_, ?_⟩
      · have hcursor : (if cursor ≠ 0 then cursor else 0) = cursor := by
          split <;> omega
        simp only [hnil, List.getLast?_nil, hcursor]
      · cases hrows : store.instancesAfter xform cursor with
        | nil => rfl
        | cons row rows =>
            rw [hrows, show numEntries = numEntries - 1 + 1 by omega, List.take_succ_cons] at htake
            cases htake
  | some last =>
      right
      have hmem : last ∈ (store.instancesAfter xform cursor).take numEntries :=
        hperm.subset (List.mem_of_getLast? hlast)
      have hsorted : (store.instancesAfter xform cursor).Pairwise fun row row' =>
          row.pk < row'.pk := by
        rw [instancesAfter_eq]
        exact (store.liveInstances_pairwise xform).sublist List.filter_sublist
      refine ⟨last, by simp only [hlast], List.mem_of_mem_take hmem, fun row hrow => ?_, fun row hrow hle => ?_⟩
      · exact List.mem_of_mem_take (hperm.subset hrow)
      · exact hperm.symm.subset (mem_take_of_le hsorted hmem hrow hle)

end BriefcaseStore

/-! ### A pull -/

/-- A form with a submission at the cursor has none after it. -/
def CaughtUp (store : BriefcaseStore) (resumptionCursor : Option Nat) : Prop :=
  ∀ xform, ∀ row ∈ store.liveInstances xform, some row.pk = resumptionCursor →
    ∀ row' ∈ store.liveInstances xform, row'.pk ≤ row.pk

/-- A primary key is that of one submission. -/
theorem eq_of_pk_eq {row row' : BriefcaseInstance} (hrow : row ∈ store.instances)
    (hrow' : row' ∈ store.instances) (hpk : row.pk = row'.pk) : row = row' := by
  have hnodup : (store.instances.map BriefcaseInstance.pk).Nodup :=
    List.pairwise_map.mpr (store.ordered.imp Nat.ne_of_lt)
  exact List.inj_on_of_nodup_map hnodup hrow hrow' hpk

/-- The cursor is at a submission of the form, or still at the start. -/
def AtRow (store : BriefcaseStore) (xform cursor : Nat) : Prop :=
  cursor = 0 ∨ ∃ row ∈ store.liveInstances xform, row.pk = cursor

/-- A cursor of a form that no submission of the form comes after. -/
theorem caught_of_le (hle : ∀ row ∈ store.liveInstances xform, row.pk ≤ cursor)
    (hcursor : AtRow store xform cursor) : CaughtUp store (some cursor) := by
  intro xform' row hrow hpk row' hrow'
  have hpk : row.pk = cursor := Option.some_inj.mp hpk
  have hrow := BriefcaseStore.mem_liveInstances.mp hrow
  rcases hcursor with hzero | ⟨last, hlast, hlastPk⟩
  · have hpos := store.pk_pos row hrow.1
    omega
  · have hlast := BriefcaseStore.mem_liveInstances.mp hlast
    have heq : row = last := eq_of_pk_eq hrow.1 hlast.1 (hpk.trans hlastPk.symm)
    have hxform : xform' = xform := by rw [← hrow.2.1, heq, hlast.2.1]
    rw [hxform] at hrow'
    rw [hpk]
    exact hle row' hrow'

/-- The submissions after a later cursor are fewer. -/
theorem length_instancesAfter_lt {last : BriefcaseInstance}
    (hlast : last ∈ store.instancesAfter xform cursor) :
    (store.instancesAfter xform last.pk).length < (store.instancesAfter xform cursor).length := by
  have hlt : cursor < last.pk := (BriefcaseStore.mem_instancesAfter.mp hlast).2
  have hfilter : store.instancesAfter xform last.pk =
      (store.instancesAfter xform cursor).filter fun row => last.pk < row.pk := by
    rw [BriefcaseStore.instancesAfter_eq, BriefcaseStore.instancesAfter_eq, List.filter_filter]
    refine List.filter_congr fun row _ => ?_
    rw [← Bool.decide_and, decide_eq_decide]
    omega
  rw [hfilter, List.length_filter_lt_length_iff_exists]
  exact ⟨last, hlast, by simp⟩

section
variable {fuel : Nat} {client client' : BriefcaseClient} {instances rest : List BriefcaseInstance}
variable {resumptionCursor : Nat}

/-- The pull ends at the cursor that the client remembers. -/
theorem downloadInstances_stop
    (hpage : store.filterQueryset (paths client.requests) xform cursor numEntries =
      (instances, resumptionCursor))
    (hclient : client.resumptionCursor = some resumptionCursor) :
    downloadInstances store paths xform (fuel + 1) client cursor numEntries =
      some ({ client with requests := client.requests + 1 }, instances) := by
  unfold downloadInstances
  rw [hpage]
  exact if_neg (not_not_intro hclient)

/-- The pull goes on from another cursor. -/
theorem downloadInstances_next
    (hpage : store.filterQueryset (paths client.requests) xform cursor numEntries =
      (instances, resumptionCursor))
    (hclient : client.resumptionCursor ≠ some resumptionCursor)
    (hrest : downloadInstances store paths xform fuel
      { resumptionCursor := some resumptionCursor, requests := client.requests + 1 }
      resumptionCursor defaultNumEntries = some (client', rest)) :
    downloadInstances store paths xform (fuel + 1) client cursor numEntries =
      some (client', instances ++ rest) := by
  rw [downloadInstances, hpage]
  refine (if_pos hclient).trans ?_
  rw [hrest]
  rfl

end

/-- What a client gets from a cursor that it has followed: the pull ends, and the submissions after
the cursor are listed. -/
theorem downloadInstances_after (store : BriefcaseStore) (paths : Nat → QueryPath)
    (xform fuel : Nat) (client : BriefcaseClient) (cursor numEntries : Nat)
    (hnumEntries : 0 < numEntries) (hclient : client.resumptionCursor = some cursor)
    (hcursor : AtRow store xform cursor)
    (hfuel : (store.instancesAfter xform cursor).length < fuel) :
    ∃ client' listed,
      downloadInstances store paths xform fuel client cursor numEntries =
        some (client', listed) ∧
      CaughtUp store client'.resumptionCursor ∧
      (∀ row ∈ listed, row ∈ store.liveInstances xform) ∧
      ∀ row ∈ store.liveInstances xform, cursor < row.pk → row ∈ listed := by
  -- On the fuel: each page leaves fewer submissions to come.
  induction fuel generalizing client cursor numEntries with
  | zero => exact absurd hfuel (Nat.not_lt_zero _)
  | succ fuel ih =>
      rcases BriefcaseStore.filterQueryset_cases store (paths client.requests) xform cursor
        hnumEntries with
        ⟨hpage, hnil⟩ | ⟨last, hpage, hlast, hsubset, hcover⟩
      · have hend := BriefcaseStore.le_of_instancesAfter_eq_nil hnil
        refine ⟨_, [], downloadInstances_stop hpage hclient, ?_, ?_, ?_⟩
        · show CaughtUp store client.resumptionCursor
          rw [hclient]
          exact caught_of_le hend hcursor
        · exact fun row hrow => absurd hrow List.not_mem_nil
        · exact fun row hrow hlt => absurd (hend row hrow) (Nat.not_le_of_lt hlt)
      · obtain ⟨hlive, hlt⟩ := BriefcaseStore.mem_instancesAfter.mp hlast
        have hne : client.resumptionCursor ≠ some last.pk := by
          rw [hclient, ne_eq, Option.some_inj]
          omega
        have hlength := length_instancesAfter_lt hlast
        obtain ⟨client', rest, hrest, hcaught, hrestLive, hrestCover⟩ :=
          ih { resumptionCursor := some last.pk, requests := client.requests + 1 } last.pk
            defaultNumEntries (by decide) rfl (.inr ⟨last, hlive, rfl⟩) (by omega)
        refine ⟨client', _, downloadInstances_next hpage hne hrest, hcaught, ?_, ?_⟩
        · intro row hrow
          rcases List.mem_append.mp hrow with hrow | hrow
          · exact (BriefcaseStore.mem_instancesAfter.mp (hsubset row hrow)).1
          · exact hrestLive row hrow
        · intro row hrow hafter
          rw [List.mem_append]
          by_cases hle : row.pk ≤ last.pk
          · exact .inl (hcover row (BriefcaseStore.mem_instancesAfter.mpr ⟨hrow, hafter⟩) hle)
          · exact .inr (hrestCover row hrow (Nat.lt_of_not_le hle))

/-- A pull from the start lists the live submissions of the form. -/
theorem downloadInstances_start (paths : Nat → QueryPath) (xform : Nat)
    {client : BriefcaseClient} {fuel : Nat} (hnumEntries : 0 < numEntries) (hclient : CaughtUp store client.resumptionCursor)
    (hfuel : store.instances.length + 1 < fuel) :
    ∃ client' listed,
      downloadInstances store paths xform fuel client 0 numEntries = some (client', listed) ∧
      CaughtUp store client'.resumptionCursor ∧
      ∀ row, row ∈ listed ↔ row ∈ store.liveInstances xform := by
  obtain ⟨fuel, rfl⟩ : ∃ n, fuel = n + 1 := ⟨fuel - 1, by omega⟩
  have hlength : ∀ cursor, (store.instancesAfter xform cursor).length ≤ store.instances.length := by
    intro cursor
    rw [BriefcaseStore.instancesAfter_eq]
    exact Nat.le_trans (List.length_filter_le _ _) (List.length_filter_le _ _)
  rcases BriefcaseStore.filterQueryset_cases store (paths client.requests) xform 0
    hnumEntries with
    ⟨hpage, hnil⟩ | ⟨last, hpage, hlast, hsubset, hcover⟩
  · have hend := BriefcaseStore.le_of_instancesAfter_eq_nil hnil
    have hempty : ∀ row, ¬ row ∈ store.liveInstances xform := by
      intro row hrow
      have hpos := store.pk_pos row (BriefcaseStore.mem_liveInstances.mp hrow).1
      have hle := hend row hrow
      omega
    by_cases hzero : client.resumptionCursor = some 0
    · exact ⟨_, [], downloadInstances_stop hpage hzero, hclient, fun row =>
        iff_of_false List.not_mem_nil (hempty row)⟩
    · obtain ⟨client', rest, hrest, hcaught, hrestLive, -⟩ :=
        downloadInstances_after store paths xform fuel
          { resumptionCursor := some 0, requests := client.requests + 1 } 0
          defaultNumEntries (by decide) rfl (.inl rfl) (by have h := hlength 0; omega)
      refine ⟨client', _, downloadInstances_next hpage hzero hrest, hcaught, fun row => ?_⟩
      exact iff_of_false (fun hrow => hempty row (hrestLive row hrow)) (hempty row)
  · have hlive := (BriefcaseStore.mem_instancesAfter.mp hlast).1
    have hpageLive : ∀ row ∈ store.page (paths client.requests) xform 0 numEntries,
        row ∈ store.liveInstances xform := fun row hrow =>
      (BriefcaseStore.mem_instancesAfter.mp (hsubset row hrow)).1
    have hpageCover : ∀ row ∈ store.liveInstances xform, row.pk ≤ last.pk →
        row ∈ store.page (paths client.requests) xform 0 numEntries := fun row hrow hle =>
      hcover row (BriefcaseStore.mem_instancesAfter.mpr ⟨hrow,
        store.pk_pos row (BriefcaseStore.mem_liveInstances.mp hrow).1⟩) hle
    by_cases hstop : client.resumptionCursor = some last.pk
    · -- The form was pulled before, and the page goes up to its last submission.
      refine ⟨_, _, downloadInstances_stop hpage hstop, hclient, fun row => ⟨hpageLive row, ?_⟩⟩
      exact fun hrow => hpageCover row hrow (hclient xform last hlive hstop.symm row hrow)
    · obtain ⟨client', rest, hrest, hcaught, hrestLive, hrestCover⟩ :=
        downloadInstances_after store paths xform fuel
          { resumptionCursor := some last.pk, requests := client.requests + 1 } last.pk
          defaultNumEntries (by decide) rfl (.inr ⟨last, hlive, rfl⟩)
          (by have h := hlength last.pk; omega)
      refine ⟨client', _, downloadInstances_next hpage hstop hrest, hcaught, fun row => ?_⟩
      rw [List.mem_append]
      refine ⟨fun hrow => hrow.elim (hpageLive row) (hrestLive row), fun hrow => ?_⟩
      by_cases hle : row.pk ≤ last.pk
      · exact .inl (hpageCover row hrow hle)
      · exact .inr (hrestCover row hrow (Nat.lt_of_not_le hle))

/-- A form with two submissions, one of them deleted, and an encrypted form with two submissions,
one of them without all its media. -/
def pulledForms : BriefcaseStore where
  forms := [(1, false), (2, true)]
  instances := [
    { pk := 1, uuid := "a", xform := 1 },
    { pk := 2, uuid := "b", xform := 2, mediaAllReceived := some false },
    { pk := 3, uuid := "c", xform := 1, deletedAt := some 5 },
    { pk := 4, uuid := "d", xform := 2 },
    { pk := 5, uuid := "e", xform := 1 }]
  ordered := by decide
  pk_pos := by decide

/-- The rows come back in the reverse order. -/
def reversedRows : RowOrder where
  rows := List.reverse
  perm := List.reverse_perm

-- The first page gives the cursor of its first submission, and the second one comes twice.
example : (pullForms pulledForms (fun _ => .optimizationFence reversedRows) 7 {} [(1, 2)]).map
    (fun result => result.2.map fun rows => rows.map BriefcaseInstance.pk) =
      some [[5, 1, 5]] := by decide

end Onadata

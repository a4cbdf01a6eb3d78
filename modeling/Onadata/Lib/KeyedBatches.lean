import Mathlib.Data.List.Sort

/-!
# `Onadata.Lib.KeyedBatches`: batches of keys behind a cursor

`keysAfter` are the keys behind a cursor, in order. A batch is the first of them, and its last key
is the next cursor. So what comes after a batch is what the batch leaves (`keysAfter_getLast`), and
batches of any sizes go through the same keys.

`updateAll` updates a table at some of its keys. Where a second update of a key changes nothing,
two updates are one at the keys of both (`updateAll_append`).
-/

set_option autoImplicit false

namespace Onadata.Lib

/-! ### The keys behind a cursor -/

section
variable {Key : Type} [LinearOrder Key] {keys : List Key} {cursor : Key}

/-- The keys behind the cursor, in order. -/
def keysAfter (keys : List Key) (cursor : Key) : List Key :=
  (keys.filter fun key => decide (cursor < key)).insertionSort (· ≤ ·)

@[simp]
theorem mem_keysAfter {key : Key} : key ∈ keysAfter keys cursor ↔ key ∈ keys ∧ cursor < key := by
  rw [keysAfter, List.mem_insertionSort, List.mem_filter, decide_eq_true_eq]

theorem sortedLT_keysAfter (hnodup : keys.Nodup) : (keysAfter keys cursor).SortedLT := by
  have hle : (keysAfter keys cursor).SortedLE := List.sortedLE_insertionSort
  refine hle.sortedLT_of_nodup ?_
  rw [keysAfter, (List.perm_insertionSort _ _).nodup_iff]
  exact hnodup.filter _

theorem nodup_keysAfter (hnodup : keys.Nodup) : (keysAfter keys cursor).Nodup :=
  (sortedLT_keysAfter hnodup).nodup

/-- Behind the last key of a batch are the keys that the batch leaves. -/
theorem keysAfter_getLast (hnodup : keys.Nodup) {batch left : List Key} {last : Key}
    (hbatch : keysAfter keys cursor = batch ++ left) (hlast : batch.getLast? = some last) :
    keysAfter keys last = left := by
  have hsorted : (keysAfter keys cursor).Pairwise (· < ·) := (sortedLT_keysAfter hnodup).pairwise
  rw [hbatch] at hsorted
  have hparts := List.pairwise_append.mp hsorted
  obtain ⟨init, hinit⟩ : ∃ init, batch = init ++ [last] :=
    List.getLast?_eq_some_iff.mp hlast
  have hmem : last ∈ batch := List.mem_of_getLast? hlast
  have hcursor : cursor < last := by
    have hlastMem : last ∈ keysAfter keys cursor := by
      rw [hbatch]
      exact List.mem_append_left _ hmem
    exact (mem_keysAfter.mp hlastMem).2
  -- the keys of the batch come up to its last
  have hle : ∀ key ∈ batch, key ≤ last := by
    intro key hkey
    rw [hinit] at hkey hparts
    rcases List.mem_append.mp hkey with hkey | hkey
    · exact le_of_lt ((List.pairwise_append.mp hparts.1).2.2 key hkey last (by simp))
    · exact le_of_eq (List.mem_singleton.mp hkey)
  refine (sortedLT_keysAfter hnodup).eq_of_mem_iff hparts.2.1.sortedLT fun key => ?_
  rw [mem_keysAfter]
  have hiff : key ∈ keysAfter keys cursor ↔ key ∈ keys ∧ cursor < key := mem_keysAfter
  rw [hbatch, List.mem_append] at hiff
  constructor
  · rintro ⟨hkey, hlt⟩
    refine (hiff.mpr ⟨hkey, hcursor.trans hlt⟩).resolve_left fun hin => ?_
    exact absurd (hle key hin) (not_le.mpr hlt)
  · intro hleft
    exact ⟨(hiff.mp (Or.inr hleft)).1, hparts.2.2 last hmem key hleft⟩

/-- A batch leaves fewer keys. -/
theorem length_keysAfter_lt (hnodup : keys.Nodup) {size : Nat} {last : Key}
    (hlast : ((keysAfter keys cursor).take size).getLast? = some last) :
    (keysAfter keys last).length < (keysAfter keys cursor).length := by
  rw [keysAfter_getLast hnodup (List.take_append_drop size _).symm hlast, List.length_drop]
  have hne : (keysAfter keys cursor).take size ≠ [] := by
    intro hnil
    rw [hnil] at hlast
    cases hlast
  have hpos := List.length_pos_of_ne_nil hne
  rw [List.length_take] at hpos
  omega

end

/-! ### Updates of some keys -/

section
variable {Key Value : Type} [DecidableEq Key]

/-- The table with the values of these keys updated. -/
def updateAll (update : Key → Value → Value) (keys : List Key) (table : Key → Value) :
    Key → Value :=
  fun key => if key ∈ keys then update key (table key) else table key

variable {update : Key → Value → Value} {keys : List Key} {table : Key → Value} {key : Key}

theorem updateAll_of_mem (h : key ∈ keys) :
    updateAll update keys table key = update key (table key) :=
  if_pos h

theorem updateAll_of_notMem (h : key ∉ keys) : updateAll update keys table key = table key :=
  if_neg h

@[simp]
theorem updateAll_nil (update : Key → Value → Value) (table : Key → Value) :
    updateAll update [] table = table := by
  funext key
  exact updateAll_of_notMem List.not_mem_nil

/-- Where a second update changes nothing, two updates are one at the keys of both. -/
theorem updateAll_append (hidem : ∀ key value, update key (update key value) = update key value)
    (keys keys' : List Key) (table : Key → Value) :
    updateAll update keys' (updateAll update keys table) =
      updateAll update (keys ++ keys') table := by
  funext key
  unfold updateAll
  by_cases hkey : key ∈ keys
  · by_cases hkey' : key ∈ keys'
    · simp [hkey, hkey', hidem]
    · simp [hkey, hkey']
  · simp [hkey]

/-- Updates that change nothing. -/
theorem updateAll_eq_self (h : ∀ key ∈ keys, update key (table key) = table key) :
    updateAll update keys table = table := by
  funext key
  by_cases hkey : key ∈ keys
  · rw [updateAll_of_mem hkey, h key hkey]
  · exact updateAll_of_notMem hkey

end

end Onadata.Lib

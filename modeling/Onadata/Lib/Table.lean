import Onadata.Lib.PyDict

/-!
# `Onadata.Lib.Table`: a table with a primary key

The rows of a table under their primary keys, which the table gives out in order. What the
operations do to a row and to the number of the rows with a property.
-/

set_option autoImplicit false

namespace Onadata.Lib

/-- A table: rows with different primary keys, all of them given out. -/
structure Table (Row : Type) where
  rows : List (Nat × Row) := []
  nextPk : Nat := 0
  pk_lt : ∀ pk ∈ Dict.keys rows, pk < nextPk := by exact fun _ h => absurd h List.not_mem_nil
  nodup : (Dict.keys rows).Nodup := by exact List.nodup_nil

namespace Table

variable {Row : Type}

/-- A table without rows. -/
def empty : Table Row := {}

/-- The row with a primary key. -/
def get? (t : Table Row) (pk : Nat) : Option Row :=
  Dict.get? t.rows pk

/-- A new row. -/
def create (t : Table Row) (row : Row) : Table Row where
  rows := t.rows ++ [(t.nextPk, row)]
  nextPk := t.nextPk + 1
  pk_lt := by
    intro pk hpk
    rw [Dict.keys_append, List.mem_append] at hpk
    rcases hpk with hpk | hpk
    · exact Nat.lt_succ_of_lt (t.pk_lt pk hpk)
    · rw [List.mem_singleton.mp hpk]
      exact Nat.lt_succ_self _
  nodup := by
    rw [Dict.keys_append, List.nodup_append]
    refine ⟨t.nodup, List.nodup_singleton _, ?_⟩
    rintro pk hpk _ hnew rfl
    rw [List.mem_singleton.mp hnew] at hpk
    exact Nat.lt_irrefl _ (t.pk_lt _ hpk)

/-- The rows with a new row in the place of another one. -/
def replaceRow (pk : Nat) (row : Row) (item : Nat × Row) : Nat × Row :=
  (item.1, if item.1 = pk then row else item.2)

theorem keys_map_replaceRow (rows : List (Nat × Row)) (pk : Nat) (row : Row) :
    Dict.keys (rows.map (replaceRow pk row)) = Dict.keys rows := by
  rw [Dict.keys, List.map_map]
  rfl

/-- The row with the primary key, if there is one, becomes `row`. -/
def save (t : Table Row) (pk : Nat) (row : Row) : Table Row where
  rows := t.rows.map (replaceRow pk row)
  nextPk := t.nextPk
  pk_lt := by
    rw [keys_map_replaceRow]
    exact t.pk_lt
  nodup := by
    rw [keys_map_replaceRow]
    exact t.nodup

/-- The table without the row with the primary key. -/
def delete (t : Table Row) (pk : Nat) : Table Row where
  rows := t.rows.filter fun item => item.1 ≠ pk
  nextPk := t.nextPk
  pk_lt := fun pk' hpk' => t.pk_lt pk' ((List.filter_sublist.map _).subset hpk')
  nodup := t.nodup.sublist (List.filter_sublist.map _)

/-- The rows with a property become other ones. -/
def modify (t : Table Row) (p : Nat × Row → Bool) (f : Row → Row) : Table Row where
  rows := t.rows.map fun item => (item.1, if p item then f item.2 else item.2)
  nextPk := t.nextPk
  pk_lt := by
    rw [Dict.keys, List.map_map]
    exact t.pk_lt
  nodup := by
    rw [Dict.keys, List.map_map]
    exact t.nodup

/-- The table with only the rows that have a property. -/
def keep (t : Table Row) (p : Nat × Row → Bool) : Table Row where
  rows := t.rows.filter p
  nextPk := t.nextPk
  pk_lt := fun pk hpk => t.pk_lt pk ((List.filter_sublist.map _).subset hpk)
  nodup := t.nodup.sublist (List.filter_sublist.map _)

/-- The number of rows with a property. -/
def count (t : Table Row) (p : Row → Bool) : Nat :=
  t.rows.countP fun item => p item.2

/-- A row is there with its primary key. -/
theorem get?_eq_some {t : Table Row} {pk : Nat} {row : Row} :
    t.get? pk = some row ↔ (pk, row) ∈ t.rows :=
  ⟨Dict.mem_of_get?, fun h => Dict.get?_of_mem t.nodup h⟩

/-- The row with a primary key, after a new row. -/
theorem get?_create (t : Table Row) (row : Row) (pk : Nat) :
    (t.create row).get? pk = if pk = t.nextPk then some row else t.get? pk := by
  have hnew : t.nextPk ∉ Dict.keys t.rows := fun hpk => Nat.lt_irrefl _ (t.pk_lt _ hpk)
  show Dict.get? (t.rows ++ [(t.nextPk, row)]) pk = _
  rw [← Dict.insert_of_notMem row hnew, Dict.get?_insert]
  rfl

/-- The row with a primary key, after one of the rows became another one. -/
theorem get?_save (t : Table Row) {pk : Nat} {old : Row} (hold : t.get? pk = some old) (row : Row)
    (pk' : Nat) : (t.save pk row).get? pk' = if pk' = pk then some row else t.get? pk' := by
  have hrows : ∀ rows : List (Nat × Row),
      Dict.get? (rows.map (replaceRow pk row)) pk' =
        (Dict.get? rows pk').map fun found => if pk' = pk then row else found := by
    intro rows
    induction rows with
    | nil => rfl
    | cons item rows ih =>
        rw [List.map_cons, Dict.get?, Dict.get?, ih]
        by_cases hitem : item.1 = pk'
        · rw [if_pos (show (replaceRow pk row item).1 = pk' from hitem), if_pos hitem]
          show some (if item.1 = pk then row else item.2) = some (if pk' = pk then row else item.2)
          rw [hitem]
        · rw [if_neg (show ¬ (replaceRow pk row item).1 = pk' from hitem), if_neg hitem]
  show Dict.get? (t.rows.map (replaceRow pk row)) pk' = _
  rw [hrows]
  by_cases hpk : pk' = pk
  · subst hpk
    rw [show Dict.get? t.rows pk' = some old from hold, if_pos rfl]
    simp
  · simp only [if_neg hpk, Option.map_id']
    rfl

/-- A new row adds to the number if it has the property. -/
theorem count_create (t : Table Row) (row : Row) (p : Row → Bool) :
    (t.create row).count p = t.count p + if p row then 1 else 0 := by
  show (t.rows ++ [(t.nextPk, row)]).countP _ = _
  rw [List.countP_append, List.countP_cons, List.countP_nil, Nat.zero_add]
  rfl

/-- The rows around the one with a primary key, which are all that a deletion leaves. -/
theorem exists_rows_eq {t : Table Row} {pk : Nat} {row : Row} (hrow : t.get? pk = some row) :
    ∃ before after, t.rows = before ++ (pk, row) :: after ∧
      (t.delete pk).rows = before ++ after := by
  obtain ⟨before, after, hrows⟩ := List.append_of_mem (get?_eq_some.mp hrow)
  have hnodup := t.nodup
  rw [hrows, Dict.keys_append, Dict.keys_cons, List.nodup_append, List.nodup_cons] at hnodup
  have hbefore : before.filter (fun item => item.1 ≠ pk) = before := by
    refine List.filter_eq_self.mpr fun item hitem => decide_eq_true fun heq => ?_
    exact hnodup.2.2 _ (List.mem_map_of_mem hitem) pk List.mem_cons_self heq
  have hafter : after.filter (fun item => item.1 ≠ pk) = after := by
    refine List.filter_eq_self.mpr fun item hitem => decide_eq_true fun heq => ?_
    have hkey : item.1 ∈ Dict.keys after := List.mem_map_of_mem hitem
    exact hnodup.2.1.1 (heq ▸ hkey)
  refine ⟨before, after, hrows, ?_⟩
  show t.rows.filter (fun item => item.1 ≠ pk) = _
  rw [hrows, List.filter_append, List.filter_cons_of_neg (by simp), hbefore, hafter]

/-- The number without one row and with it. -/
theorem count_delete {t : Table Row} {pk : Nat} {row : Row} (hrow : t.get? pk = some row)
    (p : Row → Bool) :
    (t.delete pk).count p + (if p row then 1 else 0) = t.count p := by
  obtain ⟨before, after, hrows, hdeleted⟩ := exists_rows_eq hrow
  unfold count
  rw [hdeleted, hrows, List.countP_append, List.countP_append, List.countP_cons]
  show _ = _ + (_ + if p row then 1 else 0)
  omega

/-- No row but one has the property. -/
theorem count_delete_eq_zero {t : Table Row} {pk : Nat} {p : Row → Bool} :
    (t.delete pk).count p = 0 ↔ ∀ pk' row, pk' ≠ pk → t.get? pk' = some row → p row = false := by
  show (t.rows.filter _).countP _ = 0 ↔ _
  rw [List.countP_eq_zero]
  constructor
  · intro h pk' row hne hrow
    refine Bool.eq_false_iff.mpr (h (pk', row) ?_)
    exact List.mem_filter.mpr ⟨get?_eq_some.mp hrow, decide_eq_true hne⟩
  · rintro h ⟨pk', row⟩ hmem
    obtain ⟨hmem, hne⟩ := List.mem_filter.mp hmem
    rw [h pk' row (of_decide_eq_true hne) (get?_eq_some.mpr hmem)]
    exact Bool.false_ne_true

/-- The number with a row in the place of another one. -/
theorem count_save {t : Table Row} {pk : Nat} {old : Row} (hold : t.get? pk = some old)
    (row : Row) (p : Row → Bool) :
    (t.save pk row).count p = (t.delete pk).count p + if p row then 1 else 0 := by
  obtain ⟨before, after, hrows⟩ := List.append_of_mem (get?_eq_some.mp hold)
  have hsaved : (t.save pk row).get? pk = some row := by
    refine get?_eq_some.mpr ?_
    show (pk, row) ∈ t.rows.map (replaceRow pk row)
    rw [hrows]
    refine List.mem_map.mpr ⟨(pk, old), by simp, ?_⟩
    rw [replaceRow, if_pos rfl]
  have hdelete : (t.save pk row).delete pk = t.delete pk := by
    have hitems : ∀ rows : List (Nat × Row),
        (rows.map (replaceRow pk row)).filter (fun item => item.1 ≠ pk) =
          rows.filter fun item => item.1 ≠ pk := by
      intro rows
      induction rows with
      | nil => rfl
      | cons item rows ih =>
          rw [List.map_cons, List.filter_cons, List.filter_cons, ih]
          by_cases hpk : item.1 = pk
          · simp [replaceRow, hpk]
          · simp [replaceRow, hpk]
    unfold delete save
    simp only [hitems]
  rw [← count_delete hsaved p, hdelete]

/-! ### Rows that become other ones -/

/-- Tables with the same rows, and the same primary key for the next one. -/
theorem eq_of_rows {t t' : Table Row} (hrows : t.rows = t'.rows) (hnext : t.nextPk = t'.nextPk) :
    t = t' := by
  cases t
  cases t'
  cases hrows
  cases hnext
  rfl

/-- The row with a primary key, after rows became others. -/
theorem get?_modify (t : Table Row) (p : Nat × Row → Bool) (f : Row → Row) (pk : Nat) :
    (t.modify p f).get? pk = (t.get? pk).map fun row => if p (pk, row) then f row else row :=
  Dict.get?_mapValues t.rows (fun key row => if p (key, row) then f row else row) pk

/-- To save a row is to change the row with its primary key. -/
theorem save_eq_modify {t : Table Row} {pk : Nat} {old : Row} (hold : t.get? pk = some old)
    (f : Row → Row) : t.save pk (f old) = t.modify (fun item => item.1 = pk) f := by
  refine eq_of_rows (List.map_congr_left fun item hitem => ?_) rfl
  unfold replaceRow
  by_cases hpk : item.1 = pk
  · have hrow : t.get? pk = some item.2 := get?_eq_some.mpr (hpk ▸ hitem)
    rw [if_pos hpk, if_pos (decide_eq_true hpk), Option.some_inj.mp (hold.symm.trans hrow)]
  · rw [if_neg hpk, if_neg (by simpa using hpk)]

/-- One change after another one. -/
theorem modify_modify (t : Table Row) {p q r : Nat × Row → Bool} {f g h : Row → Row}
    (hitem : ∀ pk row, (if q (pk, if p (pk, row) then f row else row)
      then g (if p (pk, row) then f row else row) else if p (pk, row) then f row else row) =
        if r (pk, row) then h row else row) :
    (t.modify p f).modify q g = t.modify r h := by
  refine eq_of_rows ?_ rfl
  show ((t.rows.map _).map _) = t.rows.map _
  rw [List.map_map]
  exact List.map_congr_left fun item _ => Prod.ext rfl (hitem item.1 item.2)

/-- A change of no row. -/
theorem modify_eq_self {t : Table Row} {p : Nat × Row → Bool} (f : Row → Row)
    (h : ∀ item ∈ t.rows, p item = false) : t.modify p f = t := by
  refine eq_of_rows ?_ rfl
  show t.rows.map _ = t.rows
  refine (List.map_congr_left fun item hitem => ?_).trans (List.map_id t.rows)
  rw [h item hitem]
  rfl

/-- The number of rows with a property, after rows became others. -/
theorem count_modify (t : Table Row) (p : Nat × Row → Bool) (f : Row → Row) (q : Row → Bool) :
    (t.modify p f).count q = t.rows.countP fun item => q (if p item then f item.2 else item.2) := by
  show (t.rows.map _).countP _ = _
  rw [List.countP_map]
  rfl

end Table

end Onadata.Lib

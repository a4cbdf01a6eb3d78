import Mathlib.Data.List.Basic

/-!
# `Onadata.Lib.PageWalk`: pages that are followed by their links

A page has rows, and maybe a link to the next page. A reader asks for a page, follows the link and
puts the rows together (`Walk`). There is one result at most (`Walk.unique`).

`Walk.of_pages` is the rule for numbered pages. `flatMap_slice` puts consecutive slices of a list
together again.
-/

set_option autoImplicit false

namespace Onadata.Lib

/-- A page with a link to the next one. -/
structure LinkedPage (Link Row : Type) where
  rows : List Row
  next : Option Link

section Walks
variable {Link Row Error : Type}

/-- The walk from a link: the rows of the pages together, or the error of the first page that
fails. `fetch` gets the number of the request, as the pages can depend on it. -/
inductive Walk (fetch : Nat → Link → Except Error (LinkedPage Link Row)) :
    Nat → Link → Except Error (List Row) → Prop
  | failed {k : Nat} {link : Link} {error : Error} :
      fetch k link = .error error → Walk fetch k link (.error error)
  | last {k : Nat} {link : Link} {page : LinkedPage Link Row} :
      fetch k link = .ok page → page.next = none → Walk fetch k link (.ok page.rows)
  | more {k : Nat} {link next : Link} {page : LinkedPage Link Row}
      {rest : Except Error (List Row)} :
      fetch k link = .ok page → page.next = some next → Walk fetch (k + 1) next rest →
        Walk fetch k link (rest.map (page.rows ++ ·))

variable {fetch : Nat → Link → Except Error (LinkedPage Link Row)}

/-- A walk has one result. -/
theorem Walk.unique {k : Nat} {link : Link} {result result' : Except Error (List Row)}
    (h : Walk fetch k link result) (h' : Walk fetch k link result') : result = result' := by
  induction h generalizing result' with
  | failed hfetch =>
      cases h' with
      | failed hfetch' => exact hfetch.symm.trans hfetch' |> Except.error.inj |> congrArg _
      | last hfetch' _ => exact absurd (hfetch.symm.trans hfetch') (by simp)
      | more hfetch' _ _ => exact absurd (hfetch.symm.trans hfetch') (by simp)
  | last hfetch hnone =>
      cases h' with
      | failed hfetch' => exact absurd (hfetch.symm.trans hfetch') (by simp)
      | last hfetch' _ =>
          have hpage := Except.ok.inj (hfetch.symm.trans hfetch')
          rw [hpage]
      | more hfetch' hsome _ =>
          have hpage := Except.ok.inj (hfetch.symm.trans hfetch')
          rw [hpage, hsome] at hnone
          cases hnone
  | more hfetch hsome _ ih =>
      cases h' with
      | failed hfetch' => exact absurd (hfetch.symm.trans hfetch') (by simp)
      | last hfetch' hnone =>
          have hpage := Except.ok.inj (hfetch.symm.trans hfetch')
          rw [hpage, hnone] at hsome
          cases hsome
      | more hfetch' hsome' hrest =>
          have hpage := Except.ok.inj (hfetch.symm.trans hfetch')
          rw [hpage, hsome'] at hsome
          cases hsome
          rw [hpage, ih hrest]

/-- Pages `0`, ..., `count`, each with a link to the next one, and what is behind them. -/
theorem Walk.of_linked (count : Nat) {k : Nat} {link : Nat → Link} {part : Nat → List Row}
    {rest : Except Error (List Row)}
    (hpages : ∀ i < count, fetch (k + i) (link i) = .ok ⟨part i, some (link (i + 1))⟩)
    (hrest : Walk fetch (k + count) (link count) rest) :
    Walk fetch k (link 0) (rest.map ((List.range count).flatMap part ++ ·)) := by
  induction count generalizing rest with
  | zero =>
      cases rest with
      | error error => exact hrest
      | ok rows => exact hrest
  | succ count ih =>
      have hlast := hpages count (by omega)
      have hwalk := ih (fun i hi => hpages i (by omega)) (.more hlast rfl hrest)
      -- the last page goes from the rest to the parts
      have hrange : (List.range (count + 1)).flatMap part =
          (List.range count).flatMap part ++ part count := by
        rw [List.range_succ, List.flatMap_append, List.flatMap_singleton]
      cases rest with
      | error error => exact hwalk
      | ok rows =>
          show Walk fetch k (link 0) (.ok ((List.range (count + 1)).flatMap part ++ rows))
          rw [hrange, List.append_assoc]
          exact hwalk

/-- Pages `0`, ..., `count`, of which the last one has no link. -/
theorem Walk.of_pages (count : Nat) {k : Nat} {link : Nat → Link} {part : Nat → List Row}
    (hpages : ∀ i < count, fetch (k + i) (link i) = .ok ⟨part i, some (link (i + 1))⟩)
    (hlast : fetch (k + count) (link count) = .ok ⟨part count, none⟩) :
    Walk fetch k (link 0) (.ok ((List.range (count + 1)).flatMap part)) := by
  have hwalk := Walk.of_linked count hpages (.last hlast rfl)
  rw [List.range_succ, List.flatMap_append, List.flatMap_singleton]
  exact hwalk

end Walks

/-! ### Slices -/

section Slices
variable {Row : Type}

/-- `rows[bottom:top]`. -/
def slice (rows : List Row) (bottom top : Nat) : List Row :=
  (rows.take top).drop bottom

/-- The first rows, and a slice behind them. -/
theorem take_append_slice (rows : List Row) {bottom top : Nat} (h : bottom ≤ top) :
    rows.take bottom ++ slice rows bottom top = rows.take top := by
  have htake : rows.take bottom = (rows.take top).take bottom := by
    rw [List.take_take, Nat.min_eq_left h]
  unfold slice
  rw [htake, List.take_append_drop]

/-- Two slices that meet. -/
theorem slice_append_slice (rows : List Row) {bottom middle top : Nat} (hbottom : bottom ≤ middle)
    (htop : middle ≤ top) :
    slice rows bottom middle ++ slice rows middle top = slice rows bottom top := by
  have hmiddle : slice rows bottom middle = (rows.take middle).drop bottom := rfl
  have hwhole : slice rows bottom top =
      (rows.take middle ++ slice rows middle top).drop bottom := by
    rw [take_append_slice rows htop]
    rfl
  rw [hwhole, hmiddle, List.drop_append]
  by_cases hshort : rows.length < bottom
  · -- there are no rows behind the bottom
    have hnil : slice rows middle top = [] := by
      refine List.drop_eq_nil_of_le ?_
      have hlength := List.length_take_le top rows
      have := List.length_take_le' top rows
      omega
    rw [hnil, List.drop_nil]
  · have hlength : bottom - (rows.take middle).length = 0 := by
      rw [List.length_take]
      omega
    rw [hlength, List.drop_zero]

/-- Consecutive slices of the same length. -/
theorem flatMap_slice (rows : List Row) (size start count : Nat) :
    ((List.range count).flatMap fun i =>
        slice rows ((start + i) * size) ((start + i + 1) * size)) =
      slice rows (start * size) ((start + count) * size) := by
  induction count with
  | zero =>
      refine (List.drop_eq_nil_of_le ?_).symm
      rw [List.length_take]
      exact Nat.min_le_left _ _
  | succ count ih =>
      rw [List.range_succ, List.flatMap_append, List.flatMap_singleton, ih]
      exact slice_append_slice rows (Nat.mul_le_mul_right size (Nat.le_add_right start count))
        (Nat.mul_le_mul_right size (Nat.le_succ (start + count)))

end Slices

end Onadata.Lib

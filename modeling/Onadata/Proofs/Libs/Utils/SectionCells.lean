import Onadata.Proofs.Libs.Utils.RecordAnswers

/-!
# `Onadata.Proofs.Libs.Utils.SectionCells`: the cells of a section and of a list

A section of a form, a repeat or the whole, has entries with paths of which none continues
another. The cells of its entries one after the other are apart, and so are the cells of the
items of a list. They follow each other if each item has a cell.

* `pairwise_apart_flatMap`, `consecutive_flatMap`: the entries of a section.
* `pairwise_apart_listCells`, `consecutive_listCells`: the items of a list.
-/

set_option autoImplicit false

namespace Onadata.Proofs

open Onadata.Lib

/-- Neither path continues the other. -/
def Incomparable (path path' : List String) : Prop :=
  ¬ path <+: path' ∧ ¬ path' <+: path

/-- The position is that of a key with this path, or below an item of its list. -/
def StartsAt : List String → List Step → Prop
  | [name], s :: _ => s.1 = name
  | name :: path, s :: position => s = (name, none) ∧ StartsAt path position
  | _, _ => False

/-- The cells of a list: those of each item below its position. -/
def listCells (path : List String) (blocks : List (List Cell)) : List Cell :=
  blocks.zipIdx.flatMap fun block => under (indexedPath path block.2) block.1

/-! ### Entries of a section -/

theorem startsAt_cons {name : String} {path : List String} (hne : path ≠ []) {s : Step}
    {position : List Step} :
    StartsAt (name :: path) (s :: position) ↔ s = (name, none) ∧ StartsAt path position := by
  obtain ⟨name', path, rfl⟩ := List.exists_cons_of_ne_nil hne
  rfl

/-- The position of a key. -/
theorem startsAt_plainPath {path : List String} (hne : path ≠ []) :
    StartsAt path (plainPath path) := by
  induction path with
  | nil => exact absurd rfl hne
  | cons name path ih =>
      cases path with
      | nil => exact rfl
      | cons name' path => exact (startsAt_cons (by simp)).mpr ⟨rfl, ih (by simp)⟩

/-- A position below an item of the list of a key. -/
theorem startsAt_indexedPath {path : List String} (hne : path ≠ []) (i : Nat)
    (rest : List Step) : StartsAt path (indexedPath path i ++ rest) := by
  induction path with
  | nil => exact absurd rfl hne
  | cons name path ih =>
      cases path with
      | nil => exact rfl
      | cons name' path =>
          rw [indexedPath_cons name (by simp), List.cons_append]
          exact (startsAt_cons (by simp)).mpr ⟨rfl, ih (by simp)⟩

/-- Positions of entries with incomparable paths are apart. -/
theorem Incomparable.apart {path path' : List String} (h : Incomparable path path')
    {position position' : List Step} (hstart : StartsAt path position)
    (hstart' : StartsAt path' position') : Apart position position' := by
  have hnil : ∀ {path : List String}, ¬ StartsAt path [] := by
    intro path hpath
    match path with
    | [] => exact hpath
    | [_] => exact hpath
    | _ :: _ :: _ => exact hpath
  induction path generalizing path' position position' with
  | nil => exact absurd List.nil_prefix h.1
  | cons name path ih =>
      cases path' with
      | nil => exact absurd List.nil_prefix h.2
      | cons name' path' =>
          cases position with
          | nil => exact absurd hstart hnil
          | cons s position =>
              cases position' with
              | nil => exact absurd hstart' hnil
              | cons s' position' =>
                  have hname : s.1 = name := by
                    cases path with
                    | nil => exact hstart
                    | cons _ _ => exact congrArg Prod.fst hstart.1
                  have hname' : s'.1 = name' := by
                    cases path' with
                    | nil => exact hstart'
                    | cons _ _ => exact congrArg Prod.fst hstart'.1
                  by_cases heq : name = name'
                  · -- The paths part further on: neither of them ends here.
                    subst heq
                    rw [Incomparable, List.prefix_cons_inj, List.prefix_cons_inj] at h
                    have hne : path ≠ [] := fun hnil => h.1 (hnil ▸ List.nil_prefix)
                    have hne' : path' ≠ [] := fun hnil => h.2 (hnil ▸ List.nil_prefix)
                    obtain ⟨rfl, hbelow⟩ := (startsAt_cons hne).mp hstart
                    obtain ⟨rfl, hbelow'⟩ := (startsAt_cons hne').mp hstart'
                    exact (apart_cons_cons _ _ _).mpr (ih h hbelow hbelow')
                  · have hsteps : s ≠ s' := by
                      rintro rfl
                      exact heq (hname.symm.trans hname')
                    rw [Apart, if_neg hsteps, hname, hname']
                    exact fun h => absurd h heq

/-- The cells of a section are apart. -/
theorem pairwise_apart_flatMap {Entry : Type} {entries : List Entry}
    (path : Entry → List String) {cells : Entry → List Cell}
    (hpaths : entries.Pairwise fun e e' => Incomparable (path e) (path e'))
    (hcells : ∀ e ∈ entries, (cells e).Pairwise fun c c' => Apart c.1 c'.1)
    (hstart : ∀ e ∈ entries, ∀ c ∈ cells e, StartsAt (path e) c.1) :
    (entries.flatMap cells).Pairwise fun c c' => Apart c.1 c'.1 := by
  refine List.pairwise_flatMap.mpr ⟨hcells, ?_⟩
  refine List.Pairwise.imp_of_mem ?_ hpaths
  intro e e' he he' hpath c hc c' hc'
  exact hpath.apart (hstart e he c hc) (hstart e' he' c' hc')

/-- The cells of a section follow each other if those of each entry do. -/
theorem consecutive_flatMap {Entry : Type} {entries : List Entry} {cells : Entry → List Cell}
    (hcells : ∀ e ∈ entries, Consecutive [] (cells e)) :
    Consecutive [] (entries.flatMap cells) := by
  induction entries using List.reverseRecOn with
  | nil => exact trivial
  | append_singleton entries e ih =>
      rw [List.flatMap_append, List.flatMap_singleton, consecutive_append]
      refine ⟨ih fun e he => hcells e (List.mem_append_left _ he), ?_⟩
      exact (hcells e (by simp)).mono (by simp)

/-! ### Items of a list -/

/-- The list is below the first name of its path. -/
theorem listCells_cons (name : String) {path : List String} (hne : path ≠ [])
    (blocks : List (List Cell)) :
    listCells (name :: path) blocks = under [(name, none)] (listCells path blocks) := by
  rw [listCells, listCells, under, List.map_flatMap]
  refine List.flatMap_congr fun block _ => ?_
  rw [indexedPath_cons name hne]
  exact under_append [(name, none)] _ _

/-- A cell of a list is a cell of one of its items. -/
theorem mem_listCells {path : List String} {blocks : List (List Cell)} {c : Cell} :
    c ∈ listCells path blocks ↔
      ∃ (i : Nat) (block : List Cell) (rest : List Step), blocks[i]? = some block ∧
        c.1 = indexedPath path i ++ rest ∧ (rest, c.2) ∈ block := by
  rw [listCells, List.mem_flatMap]
  constructor
  · rintro ⟨⟨block, i⟩, hblock, hc⟩
    obtain ⟨rest, hpath, hmem⟩ := mem_under.mp hc
    exact ⟨i, block, rest, List.mem_zipIdx_iff_getElem?.mp hblock, hpath, hmem⟩
  · rintro ⟨i, block, rest, hblock, hpath, hmem⟩
    exact ⟨(block, i), List.mem_zipIdx_iff_getElem?.mpr hblock, mem_under.mpr ⟨rest, hpath, hmem⟩⟩

/-- The cells of a list without some values are the cells of items without them. -/
theorem filter_listCells (keep : PyValue → Bool) (path : List String)
    (blocks : List (List Cell)) :
    (listCells path blocks).filter (fun c => keep c.2) =
      listCells path (blocks.map fun block => block.filter fun c => keep c.2) := by
  rw [listCells, listCells, List.filter_flatMap, List.zipIdx_map, List.flatMap_map]
  refine List.flatMap_congr fun block _ => ?_
  rw [under, List.filter_map]
  rfl

/-- The cells of a list start at its path. -/
theorem startsAt_of_mem_listCells {path : List String} (hne : path ≠ [])
    {blocks : List (List Cell)} {c : Cell} (hc : c ∈ listCells path blocks) :
    StartsAt path c.1 := by
  obtain ⟨i, block, rest, -, hpath, -⟩ := mem_listCells.mp hc
  exact hpath ▸ startsAt_indexedPath hne i rest

/-- Cells of different items are apart. -/
theorem apart_indexedPath {path : List String} (hne : path ≠ []) {i j : Nat} (h : i ≠ j)
    (rest rest' : List Step) :
    Apart (indexedPath path i ++ rest) (indexedPath path j ++ rest') := by
  induction path with
  | nil => exact absurd rfl hne
  | cons name path ih =>
      cases path with
      | nil => exact apart_items name h rest rest'
      | cons name' path =>
          rw [indexedPath_cons name (by simp), indexedPath_cons name (by simp),
            List.cons_append, List.cons_append, apart_cons_cons]
          exact ih (by simp)

/-- The cells of a list are apart if those of each item are. -/
theorem pairwise_apart_listCells {path : List String} (hne : path ≠ [])
    {blocks : List (List Cell)}
    (hblocks : ∀ block ∈ blocks, block.Pairwise fun c c' => Apart c.1 c'.1) :
    (listCells path blocks).Pairwise fun c c' => Apart c.1 c'.1 := by
  refine List.pairwise_flatMap.mpr ⟨?_, ?_⟩
  · rintro ⟨block, i⟩ hblock
    refine List.pairwise_map.mpr ((hblocks block (List.fst_mem_of_mem_zipIdx hblock)).imp ?_)
    exact fun h => (apart_append_left _ _ _).mpr h
  · have hindices : blocks.zipIdx.Pairwise fun b b' => b.2 ≠ b'.2 := by
      rw [← List.pairwise_map, List.zipIdx_map_snd]
      exact List.nodup_range'
    refine hindices.imp ?_
    intro b b' hindex c hc c' hc'
    obtain ⟨rest, hpath, -⟩ := mem_under.mp hc
    obtain ⟨rest', hpath', -⟩ := mem_under.mp hc'
    rw [hpath, hpath']
    exact apart_indexedPath hne hindex rest rest'

/-- Cells below a step follow each other if they did without it. A list item needs a cell of
the item before it among the cells before. -/
theorem consecutive_under (s : Step) (before seen : List Cell) {cells : List Cell}
    (hs : ∀ i, s.2 = some (i + 1) → (s.1, some i) ∈ firstSteps before)
    (h : Consecutive seen cells) :
    Consecutive (before ++ under [s] seen) (under [s] cells) := by
  induction cells generalizing seen with
  | nil => exact trivial
  | cons cell cells ih =>
      refine ⟨⟨fun i hi => ?_, ?_⟩, ?_⟩
      · obtain ⟨c, hc⟩ := List.exists_mem_of_ne_nil _ (mem_firstSteps.mp (hs i hi))
        refine mem_firstSteps.mpr (List.ne_nil_of_mem (a := c) ?_)
        rw [below_append]
        exact List.mem_append_left _ hc
      · refine h.1.mono fun c hc => mem_below.mpr (List.mem_append_right _ ?_)
        exact mem_under.mpr ⟨c.1, rfl, hc⟩
      · have hrest := ih (seen ++ [cell]) h.2
        rw [under, List.map_append, ← List.append_assoc] at hrest
        exact hrest

/-- The items from position `k` on follow each other, after a cell of the item before. -/
theorem consecutive_items {name : String} {blocks : List (List Cell)}
    (hblocks : ∀ block ∈ blocks, block ≠ [] ∧ Consecutive [] block) {k : Nat}
    {before : List Cell} (hbefore : ∀ i, k = i + 1 → (name, some i) ∈ firstSteps before) :
    Consecutive before ((blocks.zipIdx k).flatMap fun block =>
      under [(name, some block.2)] block.1) := by
  induction blocks generalizing k before with
  | nil => exact trivial
  | cons block blocks ih =>
      rw [List.forall_mem_cons] at hblocks
      rw [List.zipIdx_cons, List.flatMap_cons, consecutive_append]
      constructor
      · have hfirst := consecutive_under (name, some k) before []
          (fun i hi => hbefore i (Option.some.inj hi)) hblocks.1.2
        simpa [under] using hfirst
      · refine ih hblocks.2 fun i hi => ?_
        obtain rfl : k = i := Nat.succ.inj hi
        obtain ⟨c, hc⟩ := List.exists_mem_of_ne_nil _ hblocks.1.1
        have hcell : ((name, some k) :: c.1, c.2) ∈ under [(name, some k)] block :=
          mem_under.mpr ⟨c.1, rfl, hc⟩
        exact mem_firstSteps.mpr
          (List.ne_nil_of_mem (mem_below.mpr (List.mem_append_right before hcell)))

/-- The cells of a list follow each other if each item has a cell and those of each item
do. -/
theorem consecutive_listCells {path : List String} (hne : path ≠ []) {blocks : List (List Cell)}
    (hblocks : ∀ block ∈ blocks, block ≠ [] ∧ Consecutive [] block) :
    Consecutive [] (listCells path blocks) := by
  induction path with
  | nil => exact absurd rfl hne
  | cons name path ih =>
      cases path with
      | nil => exact consecutive_items hblocks fun i hi => absurd hi (by simp)
      | cons name' path =>
          rw [listCells_cons name (by simp)]
          exact consecutive_under (name, none) [] [] (fun i hi => by simp at hi) (ih (by simp))

/-- A list has a cell if it has an item with one. -/
theorem listCells_ne_nil {path : List String} {blocks : List (List Cell)} (hne : blocks ≠ [])
    (hblocks : ∀ block ∈ blocks, block ≠ []) : listCells path blocks ≠ [] := by
  obtain ⟨block, rest, rfl⟩ := List.exists_cons_of_ne_nil hne
  obtain ⟨c, hc⟩ := List.exists_mem_of_ne_nil _ (hblocks block List.mem_cons_self)
  have hcell : (indexedPath path 0 ++ c.1, c.2) ∈ listCells path (block :: rest) :=
    mem_listCells.mpr ⟨0, block, c.1, rfl, rfl, hc⟩
  exact List.ne_nil_of_mem hcell

end Onadata.Proofs

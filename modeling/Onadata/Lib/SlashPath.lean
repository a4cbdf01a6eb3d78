/-!
# `Onadata.Lib.SlashPath`: names joined by slashes

`"/".join(names)` and `path.split("/")`. On names that are not empty and have no slash, one
is the inverse of the other.
-/

set_option autoImplicit false

namespace Onadata.Lib

/-- `"/".join(names)`. -/
def joinPath (names : List String) : String :=
  "/".intercalate names

/-- `path.split("/")`. -/
def splitPath (path : String) : List String :=
  (path.toList.splitOn '/').map String.ofList

/-- A part of a path: not empty and without a slash. -/
def IsName (name : String) : Prop :=
  name ≠ "" ∧ '/' ∉ name.toList

instance (name : String) : Decidable (IsName name) :=
  inferInstanceAs (Decidable (_ ∧ _))

@[simp]
theorem joinPath_nil : joinPath [] = "" := rfl

@[simp]
theorem joinPath_singleton (name : String) : joinPath [name] = name :=
  String.intercalate_singleton

/-- A path of more than one name. -/
theorem joinPath_cons (name : String) {names : List String} (hne : names ≠ []) :
    joinPath (name :: names) = name ++ "/" ++ joinPath names :=
  String.intercalate_cons_of_ne_nil hne

/-- A text at the end of a path is a text at the end of its last name. -/
theorem joinPath_append_text (names : List String) (name text : String) :
    joinPath (names ++ [name]) ++ text = joinPath (names ++ [name ++ text]) := by
  induction names with
  | nil => simp
  | cons first names ih =>
      rw [List.cons_append, List.cons_append, joinPath_cons first (by simp),
        joinPath_cons first (by simp), String.append_assoc, ih]

/-- A path that goes on from another path. -/
theorem joinPath_joinPath_cons {names names' : List String} (hne : names ≠ [])
    (hne' : names' ≠ []) : joinPath (joinPath names :: names') = joinPath (names ++ names') := by
  induction names with
  | nil => exact absurd rfl hne
  | cons first names ih =>
      cases names with
      | nil => rw [joinPath_singleton, List.singleton_append]
      | cons second names =>
          rw [joinPath_cons _ hne', joinPath_cons first (by simp), List.cons_append,
            joinPath_cons first (by simp), ← ih (by simp), joinPath_cons _ hne']
          simp only [String.append_assoc]

/-- Splitting a joined path gives the names back. -/
theorem splitPath_joinPath {names : List String} (hnames : ∀ name ∈ names, IsName name)
    (hne : names ≠ []) : splitPath (joinPath names) = names := by
  rw [splitPath, joinPath, String.toList_intercalate]
  have hslash : ∀ l ∈ names.map String.toList, '/' ∉ l := by
    intro l hl
    obtain ⟨name, hname, rfl⟩ := List.mem_map.mp hl
    exact (hnames name hname).2
  rw [show "/".toList = ['/'] from rfl,
    List.splitOn_intercalate '/' hslash (by simpa using hne), List.map_map]
  simp [Function.comp_def]

/-- Joining the parts of a path gives the path back. -/
theorem joinPath_splitPath (path : String) : joinPath (splitPath path) = path := by
  have hslash : "/".toList = ['/'] := by decide
  rw [← String.toList_inj, joinPath, String.toList_intercalate, splitPath, List.map_map,
    String.toList_comp_ofList, List.map_id, hslash, List.intercalate_splitOn]

/-- The parts of a path whose first part is known. -/
theorem splitPath_append (first rest : String) (h : '/' ∉ first.toList) :
    splitPath (first ++ "/" ++ rest) = first :: splitPath rest := by
  have hslash : "/".toList = ['/'] := by decide
  have hfirst : first.toList.splitOnP (· == '/') = [first.toList] :=
    List.splitOnP_eq_singleton fun c hc => beq_false_of_ne fun heq => h (heq ▸ hc)
  have hparts : (first.toList ++ '/' :: rest.toList).splitOnP (· == '/') =
      [first.toList] ++ rest.toList.splitOnP (· == '/') := by
    rw [List.splitOnP_append_cons _ _ (by decide), hfirst]
  unfold splitPath
  rw [String.toList_append, String.toList_append, hslash, List.append_assoc,
    List.singleton_append, List.splitOn_eq_splitOnP, hparts, List.singleton_append,
    List.map_cons, String.ofList_toList, List.splitOn_eq_splitOnP]

/-- A path of names is not the empty text. -/
theorem joinPath_ne_empty {names : List String} (hnames : ∀ name ∈ names, IsName name)
    (hne : names ≠ []) : joinPath names ≠ "" := by
  intro h
  have hsplit := splitPath_joinPath hnames hne
  rw [h] at hsplit
  exact (hnames "" (hsplit ▸ by decide)).1 rfl

/-- Paths with the same text have the same names. -/
theorem joinPath_inj {names names' : List String} (hnames : ∀ name ∈ names, IsName name)
    (hnames' : ∀ name ∈ names', IsName name) (h : joinPath names = joinPath names') :
    names = names' := by
  cases names with
  | nil =>
      cases names' with
      | nil => rfl
      | cons name names' => exact absurd h.symm (joinPath_ne_empty hnames' (by simp))
  | cons name names =>
      cases names' with
      | nil => exact absurd h (joinPath_ne_empty hnames (by simp))
      | cons name' names' =>
          rw [← splitPath_joinPath hnames (by simp), h, splitPath_joinPath hnames' (by simp)]

end Onadata.Lib

import Onadata.Lib.PathCells
import Onadata.Libs.Utils.DictTools

/-!
# `Onadata.Proofs.Libs.Utils.JsonSubmission`: the answers of a JSON submission

`answers` are the answers of a submission, each at the path that its key spells, and `leaves` the
answers that the nested dict has. `dict_paths2dict` nests the parts of a path after the first one
from the inside out in the order of the path, so that they end up in the reverse order. A key takes
the place of the keys before it with the same first part. In a dict that is a value, a key with a
slash stays as it is.

`keepsAnswers_iff`: the nested dict has exactly the answers, at their paths, if and only if none of
this happens to a key with an answer (`KeepsAnswers`).
-/

set_option autoImplicit false

namespace Onadata

open Onadata.Lib

mutual

/-- The answers in a nested dict, with their paths. -/
def leaves : PyValue → List (List String × PyValue)
  | .dict items => leavesIn items
  | value => [([], value)]

/-- The answers in the values of a dict. -/
def leavesIn : List (String × PyValue) → List (List String × PyValue)
  | [] => []
  | (key, value) :: rest => under [key] (leaves value) ++ leavesIn rest

end

mutual

/-- The answers in a value of a submission. A list of texts is one answer. -/
def answersIn : PyValue → List (List String × PyValue)
  | .dict items => answers items
  | value => [([], listToString value)]

/-- The answers of a submission, each at the path that its key spells. -/
def answers : List (String × PyValue) → List (List String × PyValue)
  | [] => []
  | (key, value) :: rest => under (splitPath key) (answersIn value) ++ answers rest

end

mutual

/-- No key above an answer has a slash. -/
def NamesAbove : PyValue → Prop
  | .dict items => NamesAboveIn items
  | _ => True

/-- No key above an answer in the values of a dict has a slash. -/
def NamesAboveIn : List (String × PyValue) → Prop
  | [] => True
  | (key, value) :: rest =>
      (answersIn value ≠ [] → '/' ∉ key.toList) ∧ NamesAbove value ∧ NamesAboveIn rest

end

/-- The key that a key with its value goes to. -/
def topName (key : String) : String :=
  if findSlash key > 0 then (splitPath key).headD key else key

/-- What is asked of the keys with an answer. No later key has the same first part; the parts after
the first one read the same in both directions; and the keys in the value are names. A path does not
start with a slash. -/
structure KeepsAnswers (submission : List (String × PyValue)) : Prop where
  alone : submission.Pairwise fun item later =>
    answersIn item.2 ≠ [] → topName item.1 ≠ topName later.1
  path : ∀ item ∈ submission, answersIn item.2 ≠ [] → item.1.toList.head? ≠ some '/' ∧
    (splitPath item.1).tail.reverse = (splitPath item.1).tail ∧ NamesAbove item.2

/-! ### Paths -/

/-- A path has a first part. -/
theorem splitPath_ne_nil (key : String) : splitPath key ≠ [] := by
  unfold splitPath
  rw [ne_eq, List.map_eq_nil_iff]
  exact List.splitOn_ne_nil '/' key.toList

/-- A name is its only part. -/
theorem splitPath_of_notMem {key : String} (h : '/' ∉ key.toList) : splitPath key = [key] := by
  unfold splitPath
  rw [List.splitOn_eq_singleton h, List.map_singleton, String.ofList_toList]

/-- A path with a slash has two parts or more. -/
theorem two_le_length_splitPath {key : String} (h : '/' ∈ key.toList) :
    2 ≤ (splitPath key).length := by
  obtain ⟨before, after, hkey⟩ := List.append_of_mem h
  unfold splitPath
  rw [hkey, List.splitOn_append_cons_self, List.length_map, List.length_append]
  have hbefore := List.length_pos_of_ne_nil (List.splitOn_ne_nil '/' before)
  have hafter := List.length_pos_of_ne_nil (List.splitOn_ne_nil '/' after)
  omega

/-- A slash that is not the first character. -/
theorem findSlash_pos {key : String} :
    0 < findSlash key ↔ '/' ∈ key.toList ∧ key.toList.head? ≠ some '/' := by
  unfold findSlash
  cases key.toList with
  | nil => simp
  | cons first rest =>
      by_cases hfirst : first = '/'
      · simp [List.findIdx?_cons, hfirst]
      · rw [List.findIdx?_cons, if_neg (by simpa using hfirst)]
        cases hrest : rest.findIdx? fun c => decide (c = '/') with
        | none =>
            rw [List.findIdx?_eq_none_iff] at hrest
            have hnot : '/' ∉ rest := fun hmem => by simpa using hrest '/' hmem
            simp [hnot, Ne.symm hfirst]
        | some i =>
            have hmem : '/' ∈ rest := by
              by_contra hnot
              have hnone : (rest.findIdx? fun c => decide (c = '/')) = none := by
                rw [List.findIdx?_eq_none_iff]
                intro c hc
                exact decide_eq_false fun heq : c = '/' => hnot (heq ▸ hc)
              rw [hnone] at hrest
              cases hrest
            simp [hmem, hfirst]

/-- The path at which the answers of a key end up. -/
def nestedPath (key : String) : List String :=
  topName key :: if findSlash key > 0 then (splitPath key).tail.reverse else []

/-- The answers in a value that is wrapped. -/
theorem leaves_wrapParts (parts : List String) (value : PyValue) :
    leaves (wrapParts parts value) = under parts.reverse (leaves value) := by
  induction parts generalizing value with
  | nil => exact (under_nil _).symm
  | cons part rest ih =>
      show leaves (wrapParts rest (.dict [(part, value)])) = _
      rw [ih, List.reverse_cons, under_append, leaves, leavesIn, leavesIn, List.append_nil]

/-- The parts of a path that is split. -/
theorem splitPath_of_slash {key : String} (h : 0 < findSlash key) :
    ∃ first second rest, splitPath key = first :: second :: rest := by
  have htwo := two_le_length_splitPath (findSlash_pos.mp h).1
  match hsplit : splitPath key with
  | [] => exact absurd hsplit (splitPath_ne_nil key)
  | [first] =>
      rw [hsplit, List.length_singleton] at htwo
      exact absurd htwo (by decide)
  | first :: second :: rest => exact ⟨first, second, rest, rfl⟩

/-- The key that a key goes to. -/
theorem pathToDict_fst (key : String) (value : PyValue) : (pathToDict key value).1 = topName key := by
  unfold pathToDict topName
  by_cases hslash : findSlash key > 0
  · obtain ⟨first, second, rest, hsplit⟩ := splitPath_of_slash hslash
    rw [if_pos hslash, if_pos hslash, hsplit]
    rfl
  · rw [if_neg hslash, if_neg hslash]

/-- The answers of a key with its value. -/
theorem under_pathToDict (key : String) (value : PyValue) :
    under [topName key] (leaves (pathToDict key value).2) =
      under (nestedPath key) (leaves value) := by
  unfold pathToDict nestedPath
  by_cases hslash : findSlash key > 0
  · obtain ⟨first, second, rest, hsplit⟩ := splitPath_of_slash hslash
    rw [if_pos hslash, if_pos hslash, hsplit]
    show under _ (leaves (wrapParts (second :: rest) value)) = _
    rw [leaves_wrapParts, ← under_append]
    rfl
  · rw [if_neg hslash, if_neg hslash]

/-- The path of a key that does not start with a slash is as long as the one that it spells. -/
theorem length_nestedPath {key : String} (h : key.toList.head? ≠ some '/') :
    (nestedPath key).length = (splitPath key).length := by
  have hpos := List.length_pos_of_ne_nil (splitPath_ne_nil key)
  unfold nestedPath
  by_cases hslash : '/' ∈ key.toList
  · rw [if_pos (findSlash_pos.mpr ⟨hslash, h⟩), List.length_cons, List.length_reverse,
      List.length_tail]
    omega
  · rw [if_neg fun hfind => hslash (findSlash_pos.mp hfind).1, splitPath_of_notMem hslash]
    rfl

/-- The path of a key that starts with a slash is shorter. -/
theorem length_nestedPath_lt {key : String} (h : key.toList.head? = some '/') :
    (nestedPath key).length < (splitPath key).length := by
  have hmem : '/' ∈ key.toList := List.mem_of_head? h
  have htwo := two_le_length_splitPath hmem
  unfold nestedPath
  rw [if_neg fun hfind => (findSlash_pos.mp hfind).2 h, List.length_singleton]
  omega

/-- The path of a key is never longer than the one that it spells. -/
theorem length_nestedPath_le (key : String) :
    (nestedPath key).length ≤ (splitPath key).length := by
  by_cases h : key.toList.head? = some '/'
  · exact Nat.le_of_lt (length_nestedPath_lt h)
  · exact Nat.le_of_eq (length_nestedPath h)

/-- The first part of a path that does not start with a slash. -/
theorem topName_eq_head {key : String} (h : key.toList.head? ≠ some '/') :
    (splitPath key).head? = some (topName key) := by
  unfold topName
  by_cases hslash : '/' ∈ key.toList
  · rw [if_pos (findSlash_pos.mpr ⟨hslash, h⟩)]
    cases hsplit : splitPath key with
    | nil => exact absurd hsplit (splitPath_ne_nil key)
    | cons first rest => rfl
  · rw [if_neg fun hfind => hslash (findSlash_pos.mp hfind).1, splitPath_of_notMem hslash]
    rfl

/-- The path of a key is the one that it spells if the parts after the first one read the same in
both directions. -/
theorem nestedPath_eq_iff {key : String} (h : key.toList.head? ≠ some '/') :
    nestedPath key = splitPath key ↔ (splitPath key).tail.reverse = (splitPath key).tail := by
  by_cases hslash : '/' ∈ key.toList
  · have hhead := topName_eq_head h
    unfold nestedPath
    rw [if_pos (findSlash_pos.mpr ⟨hslash, h⟩)]
    cases hsplit : splitPath key with
    | nil => exact absurd hsplit (splitPath_ne_nil key)
    | cons first rest =>
        rw [hsplit] at hhead
        rw [Option.some_inj.mp hhead, List.cons_inj_right, List.tail_cons]
  · have htop : topName key = key := by
      unfold topName
      rw [if_neg fun hfind => hslash (findSlash_pos.mp hfind).1]
    unfold nestedPath
    rw [if_neg fun hfind => hslash (findSlash_pos.mp hfind).1, splitPath_of_notMem hslash, htop]
    exact iff_of_true rfl rfl

/-! ### The lengths of the paths -/

section Lengths
variable {Step Value : Type}

/-- The lengths of the paths together. -/
def pathSum : List (List Step × Value) → Nat
  | [] => 0
  | cell :: cells => cell.1.length + pathSum cells

theorem pathSum_append (cells cells' : List (List Step × Value)) :
    pathSum (cells ++ cells') = pathSum cells + pathSum cells' := by
  induction cells with
  | nil => exact (Nat.zero_add _).symm
  | cons cell rest ih =>
      show cell.1.length + pathSum (rest ++ cells') = cell.1.length + pathSum rest + _
      rw [ih, Nat.add_assoc]

/-- The order of the cells is of no matter. -/
theorem pathSum_perm {cells cells' : List (List Step × Value)} (h : cells.Perm cells') :
    pathSum cells = pathSum cells' := by
  induction h with
  | nil => rfl
  | cons cell _ ih => exact congrArg (cell.1.length + ·) ih
  | swap cell cell' rest => exact Nat.add_left_comm _ _ _
  | trans _ _ ih ih' => exact ih.trans ih'

@[simp]
theorem length_under (path : List Step) (cells : List (List Step × Value)) :
    (under path cells).length = cells.length :=
  List.length_map _

theorem pathSum_under (path : List Step) (cells : List (List Step × Value)) :
    pathSum (under path cells) = path.length * cells.length + pathSum cells := by
  induction cells with
  | nil => rfl
  | cons cell rest ih =>
      show (path ++ cell.1).length + pathSum (under path rest) =
        path.length * (rest.length + 1) + (cell.1.length + pathSum rest)
      rw [ih, List.length_append, Nat.mul_succ]
      omega

/-- The paths are not shorter below a longer path. -/
theorem pathSum_under_le {path path' : List Step} {cells cells' : List (List Step × Value)}
    (hpath : path.length ≤ path'.length) (hlength : cells.length = cells'.length)
    (hcells : pathSum cells ≤ pathSum cells') :
    pathSum (under path cells) ≤ pathSum (under path' cells') := by
  rw [pathSum_under, pathSum_under, hlength]
  exact Nat.add_le_add (Nat.mul_le_mul_right _ hpath) hcells

/-- Where the lengths are the same, the parts are. -/
theorem eq_of_pathSum_under {path path' : List Step} {cells cells' : List (List Step × Value)}
    (hpath : path.length ≤ path'.length) (hlength : cells.length = cells'.length)
    (hcells : pathSum cells ≤ pathSum cells')
    (h : pathSum (under path cells) = pathSum (under path' cells')) :
    (cells' ≠ [] → path.length = path'.length) ∧ pathSum cells = pathSum cells' := by
  rw [pathSum_under, pathSum_under, hlength] at h
  have hmul := Nat.mul_le_mul_right cells'.length hpath
  refine ⟨fun hne => ?_, by omega⟩
  have heq : path.length * cells'.length = path'.length * cells'.length := by omega
  exact Nat.eq_of_mul_eq_mul_right (List.length_pos_of_ne_nil hne) heq

end Lengths

/-! ### The values -/

/-- A value that is no dict is one answer. -/
theorem leaves_listToString_list (items : List PyValue) :
    leaves (listToString (.list items)) = answersIn (.list items) := by
  rw [answersIn, listToString]
  · cases items.mapM PyValue.text? with
    | none => rfl
    | some texts => rfl
  · intro inner heq
    cases heq

mutual

/-- A value keeps the number of its answers. -/
theorem length_leaves (value : PyValue) :
    (leaves (listToString value)).length = (answersIn value).length := by
  cases value with
  | dict items => exact length_leavesIn items
  | list items => rw [leaves_listToString_list]
  | none | bool _ | int _ | float _ | str _ => rfl

theorem length_leavesIn (items : List (String × PyValue)) :
    (leavesIn (dictLists2strings items)).length = (answers items).length := by
  cases items with
  | nil => rfl
  | cons item rest =>
      show (under [item.1] (leaves (listToString item.2)) ++
        leavesIn (dictLists2strings rest)).length =
          (under (splitPath item.1) (answersIn item.2) ++ answers rest).length
      rw [List.length_append, List.length_append, length_under, length_under, length_leaves item.2,
        length_leavesIn rest]

end

/-- A part of a path is at least one. -/
theorem length_singleton_le (key : String) : [key].length ≤ (splitPath key).length :=
  List.length_pos_of_ne_nil (splitPath_ne_nil key)

mutual

/-- The paths of the answers are not longer than the ones that are spelled. -/
theorem pathSum_leaves_le (value : PyValue) :
    pathSum (leaves (listToString value)) ≤ pathSum (answersIn value) := by
  cases value with
  | dict items => exact pathSum_leavesIn_le items
  | list items => exact Nat.le_of_eq (congrArg pathSum (leaves_listToString_list items))
  | none | bool _ | int _ | float _ | str _ => exact Nat.le_refl _

theorem pathSum_leavesIn_le (items : List (String × PyValue)) :
    pathSum (leavesIn (dictLists2strings items)) ≤ pathSum (answers items) := by
  cases items with
  | nil => exact Nat.le_refl _
  | cons item rest =>
      show pathSum (under [item.1] (leaves (listToString item.2)) ++
        leavesIn (dictLists2strings rest)) ≤
          pathSum (under (splitPath item.1) (answersIn item.2) ++ answers rest)
      rw [pathSum_append, pathSum_append]
      exact Nat.add_le_add (pathSum_under_le (length_singleton_le item.1) (length_leaves item.2)
        (pathSum_leaves_le item.2)) (pathSum_leavesIn_le rest)

end

mutual

/-- Where the paths are as long as the ones that are spelled, the keys are names. -/
theorem namesAbove_of_pathSum (value : PyValue)
    (h : pathSum (leaves (listToString value)) = pathSum (answersIn value)) :
    NamesAbove value := by
  cases value with
  | dict items => exact namesAboveIn_of_pathSum items h
  | list _ | none | bool _ | int _ | float _ | str _ => exact trivial

theorem namesAboveIn_of_pathSum (items : List (String × PyValue))
    (h : pathSum (leavesIn (dictLists2strings items)) = pathSum (answers items)) :
    NamesAboveIn items := by
  cases items with
  | nil => exact trivial
  | cons item rest =>
      change pathSum (under [item.1] (leaves (listToString item.2)) ++
        leavesIn (dictLists2strings rest)) =
          pathSum (under (splitPath item.1) (answersIn item.2) ++ answers rest) at h
      rw [pathSum_append, pathSum_append] at h
      have hfirst := pathSum_under_le (length_singleton_le item.1) (length_leaves item.2)
        (pathSum_leaves_le item.2)
      have hrest := pathSum_leavesIn_le rest
      obtain ⟨hpath, hvalue⟩ := eq_of_pathSum_under (length_singleton_le item.1)
        (length_leaves item.2) (pathSum_leaves_le item.2) (by omega)
      show (answersIn item.2 ≠ [] → '/' ∉ item.1.toList) ∧ NamesAbove item.2 ∧ NamesAboveIn rest
      refine ⟨fun hne hslash => ?_, namesAbove_of_pathSum item.2 hvalue,
        namesAboveIn_of_pathSum rest (by omega)⟩
      have hone := hpath hne
      have htwo := two_le_length_splitPath hslash
      rw [List.length_singleton] at hone
      omega

end

mutual

/-- Where the keys are names, the answers are at their paths. -/
theorem leaves_of_namesAbove (value : PyValue) (h : NamesAbove value) :
    leaves (listToString value) = answersIn value := by
  cases value with
  | dict items => exact leavesIn_of_namesAboveIn items h
  | list items => exact leaves_listToString_list items
  | none | bool _ | int _ | float _ | str _ => rfl

theorem leavesIn_of_namesAboveIn (items : List (String × PyValue)) (h : NamesAboveIn items) :
    leavesIn (dictLists2strings items) = answers items := by
  cases items with
  | nil => rfl
  | cons item rest =>
      change (answersIn item.2 ≠ [] → '/' ∉ item.1.toList) ∧ NamesAbove item.2 ∧
        NamesAboveIn rest at h
      show under [item.1] (leaves (listToString item.2)) ++ leavesIn (dictLists2strings rest) =
        under (splitPath item.1) (answersIn item.2) ++ answers rest
      rw [leaves_of_namesAbove item.2 h.2.1, leavesIn_of_namesAboveIn rest h.2.2]
      by_cases hnone : answersIn item.2 = []
      · rw [hnone]
        rfl
      · rw [splitPath_of_notMem (h.1 hnone)]

end

/-! ### The nested dict -/

/-- The answers of a key where they end up, if no other key takes its place. -/
def nestedCells (item : String × PyValue) : List (List String × PyValue) :=
  under (nestedPath item.1) (leaves (listToString item.2))

/-- The answers of a key at the path that it spells. -/
def spelledCells (item : String × PyValue) : List (List String × PyValue) :=
  under (splitPath item.1) (answersIn item.2)

/-- The keys that no other one takes the place of. -/
def keptKeys (submission : List (String × PyValue)) : List (String × PyValue) :=
  Dict.lastBy (fun item => topName item.1) submission

theorem leavesIn_eq (items : List (String × PyValue)) :
    leavesIn items = items.flatMap fun item => under [item.1] (leaves item.2) := by
  induction items with
  | nil => rfl
  | cons item rest ih =>
      rw [List.flatMap_cons, ← ih]
      rfl

theorem answers_eq (submission : List (String × PyValue)) :
    answers submission = submission.flatMap spelledCells := by
  induction submission with
  | nil => rfl
  | cons item rest ih =>
      rw [List.flatMap_cons, ← ih]
      rfl

theorem dictLists2strings_eq (submission : List (String × PyValue)) :
    dictLists2strings submission = submission.map fun item => (item.1, listToString item.2) := by
  induction submission with
  | nil => rfl
  | cons item rest ih =>
      rw [List.map_cons, ← ih]
      rfl

/-- The answers of the nested dict are those of the keys that come last, in another order. -/
theorem leaves_perm (submission : List (String × PyValue)) :
    (leavesIn (dictPaths2dict (dictLists2strings submission))).Perm
      ((keptKeys submission).flatMap nestedCells) := by
  have hdict : dictPaths2dict (dictLists2strings submission) =
      submission.foldl (fun d item => Dict.insert d (topName item.1)
        (pathToDict item.1 (listToString item.2)).2) [] := by
    rw [dictLists2strings_eq, dictPaths2dict, List.foldl_map]
    simp only [pathToDict_fst]
  rw [hdict, leavesIn_eq]
  have hkept := Dict.foldl_insert_perm (fun item : String × PyValue => topName item.1)
    (fun item => (pathToDict item.1 (listToString item.2)).2) submission (d := [])
      List.nodup_nil
  refine (hkept.flatMap_right _).trans ?_
  rw [List.filter_nil, List.nil_append, List.flatMap_map]
  refine List.Perm.of_eq (congrArg (fun f => List.flatMap f _) (funext fun item => ?_))
  exact under_pathToDict item.1 (listToString item.2)

/-! ### When the answers are kept -/

theorem pathSum_nestedCells_le (item : String × PyValue) :
    pathSum (nestedCells item) ≤ pathSum (spelledCells item) :=
  pathSum_under_le (length_nestedPath_le item.1) (length_leaves item.2) (pathSum_leaves_le item.2)

/-- A key without paths has no answers. -/
theorem answersIn_eq_nil_of_pathSum {item : String × PyValue}
    (h : pathSum (spelledCells item) = 0) : answersIn item.2 = [] := by
  unfold spelledCells at h
  rw [pathSum_under] at h
  have hmul : (splitPath item.1).length * (answersIn item.2).length = 0 := by omega
  have hpos := length_singleton_le item.1
  rw [List.length_singleton] at hpos
  cases Nat.mul_eq_zero.mp hmul with
  | inl hzero => omega
  | inr hzero => exact List.eq_nil_of_length_eq_zero hzero

/-- The paths of a key are as long as those that it spells. -/
theorem names_of_pathSum {item : String × PyValue}
    (h : pathSum (nestedCells item) = pathSum (spelledCells item))
    (hne : answersIn item.2 ≠ []) : item.1.toList.head? ≠ some '/' ∧ NamesAbove item.2 := by
  obtain ⟨hpath, hvalue⟩ := eq_of_pathSum_under (length_nestedPath_le item.1) (length_leaves item.2)
    (pathSum_leaves_le item.2) h
  refine ⟨fun hslash => ?_, namesAbove_of_pathSum item.2 hvalue⟩
  exact absurd (hpath hne) (Nat.ne_of_lt (length_nestedPath_lt hslash))

/-- The paths of the kept keys are not longer than those of the answers. -/
theorem pathSum_keptKeys_le (submission : List (String × PyValue)) :
    pathSum ((keptKeys submission).flatMap nestedCells) ≤
      pathSum (submission.flatMap spelledCells) := by
  unfold keptKeys
  induction submission with
  | nil => exact Nat.le_refl _
  | cons item rest ih =>
      rw [Dict.lastBy, List.flatMap_cons, pathSum_append]
      split
      · exact Nat.le_trans ih (Nat.le_add_left _ _)
      · rw [List.flatMap_cons, pathSum_append]
        exact Nat.add_le_add (pathSum_nestedCells_le item) ih

/-- Where they are as long together, no key with an answer gives way, and its parts are names. -/
theorem alone_of_pathSum {submission : List (String × PyValue)}
    (h : pathSum ((keptKeys submission).flatMap nestedCells) =
      pathSum (submission.flatMap spelledCells)) :
    (submission.Pairwise fun item later =>
      answersIn item.2 ≠ [] → topName item.1 ≠ topName later.1) ∧
        ∀ item ∈ submission, answersIn item.2 ≠ [] →
          item.1.toList.head? ≠ some '/' ∧ NamesAbove item.2 := by
  induction submission with
  | nil => exact ⟨List.Pairwise.nil, fun item hitem => absurd hitem List.not_mem_nil⟩
  | cons item rest ih =>
      have hle := pathSum_keptKeys_le rest
      unfold keptKeys at h hle ih
      rw [Dict.lastBy, List.flatMap_cons, pathSum_append] at h
      by_cases hlater : topName item.1 ∈ rest.map fun item => topName item.1
      · rw [if_pos hlater] at h
        obtain ⟨hpairs, hnames⟩ := ih (by omega)
        have hnone : answersIn item.2 = [] := answersIn_eq_nil_of_pathSum (by omega)
        exact ⟨List.pairwise_cons.mpr ⟨fun _ _ hne => absurd hnone hne, hpairs⟩,
          List.forall_mem_cons.mpr ⟨fun hne => absurd hnone hne, hnames⟩⟩
      · have hitem := pathSum_nestedCells_le item
        rw [if_neg hlater, List.flatMap_cons, pathSum_append] at h
        obtain ⟨hpairs, hnames⟩ := ih (by omega)
        refine ⟨List.pairwise_cons.mpr ⟨fun later hmem _ heq => ?_, hpairs⟩,
          List.forall_mem_cons.mpr ⟨names_of_pathSum (by omega), hnames⟩⟩
        exact hlater (heq ▸ List.mem_map_of_mem (f := fun item : String × PyValue =>
          topName item.1) hmem)

/-- Two keys with answers and the same first part are one. -/
theorem eq_of_topName_eq {submission : List (String × PyValue)}
    (hpairs : submission.Pairwise fun item later =>
      answersIn item.2 ≠ [] → topName item.1 ≠ topName later.1)
    {item other : String × PyValue} (hitem : item ∈ submission) (hother : other ∈ submission)
    (hne : answersIn item.2 ≠ []) (hne' : answersIn other.2 ≠ [])
    (heq : topName item.1 = topName other.1) : item = other := by
  induction submission with
  | nil => exact absurd hitem List.not_mem_nil
  | cons first rest ih =>
      rw [List.pairwise_cons] at hpairs
      cases List.mem_cons.mp hitem with
      | inl hfirst =>
          cases List.mem_cons.mp hother with
          | inl hfirst' => exact hfirst.trans hfirst'.symm
          | inr hrest' => exact absurd heq (hfirst ▸ hpairs.1 other hrest' (hfirst ▸ hne))
      | inr hrest =>
          cases List.mem_cons.mp hother with
          | inl hfirst' => exact absurd heq.symm (hfirst' ▸ hpairs.1 item hrest (hfirst' ▸ hne'))
          | inr hrest' => exact ih hpairs.2 hrest hrest'

/-- A key with answers that no later one has the first part of is kept. -/
theorem mem_keptKeys {submission : List (String × PyValue)}
    (hpairs : submission.Pairwise fun item later =>
      answersIn item.2 ≠ [] → topName item.1 ≠ topName later.1)
    {item : String × PyValue} (hitem : item ∈ submission) (hne : answersIn item.2 ≠ []) :
    item ∈ keptKeys submission := by
  unfold keptKeys
  induction submission with
  | nil => exact absurd hitem List.not_mem_nil
  | cons first rest ih =>
      rw [List.pairwise_cons] at hpairs
      rw [Dict.lastBy]
      cases List.mem_cons.mp hitem with
      | inl heq =>
          have hlater : topName first.1 ∉ rest.map fun item => topName item.1 := by
            intro hmem
            obtain ⟨later, hlater, htop⟩ := List.mem_map.mp hmem
            exact hpairs.1 later hlater (heq ▸ hne) htop.symm
          rw [if_neg hlater, heq]
          exact List.mem_cons_self
      | inr hrest =>
          split
          · exact ih hpairs.2 hrest
          · exact List.mem_cons_of_mem _ (ih hpairs.2 hrest)

/-- The answers of the kept keys, where they keep their paths, are all. -/
theorem KeepsAnswers.flatMap_keptKeys {submission : List (String × PyValue)}
    (h : KeepsAnswers submission) :
    (keptKeys submission).flatMap nestedCells = submission.flatMap spelledCells := by
  obtain ⟨hpairs, hpath⟩ := h
  unfold keptKeys
  induction submission with
  | nil => rfl
  | cons item rest ih =>
      rw [List.pairwise_cons] at hpairs
      rw [List.forall_mem_cons] at hpath
      have hrest := ih hpairs.2 hpath.2
      rw [Dict.lastBy, List.flatMap_cons]
      by_cases hnone : answersIn item.2 = []
      · have hleaves : leaves (listToString item.2) = [] := by
          rw [← List.length_eq_zero_iff, length_leaves, hnone, List.length_nil]
        have hempty : nestedCells item = [] ∧ spelledCells item = [] := by
          unfold nestedCells spelledCells
          rw [hleaves, hnone]
          exact ⟨rfl, rfl⟩
        rw [hempty.2, List.nil_append, ← hrest]
        split
        · rfl
        · rw [List.flatMap_cons, hempty.1, List.nil_append]
      · obtain ⟨hslash, hreverse, hnames⟩ := hpath.1 hnone
        have hlater : topName item.1 ∉ rest.map fun item => topName item.1 := by
          intro hmem
          obtain ⟨later, hlater, htop⟩ := List.mem_map.mp hmem
          exact hpairs.1 later hlater hnone htop.symm
        have hnested := (nestedPath_eq_iff hslash).mpr hreverse
        have hcells : nestedCells item = spelledCells item := by
          unfold nestedCells spelledCells
          rw [hnested, leaves_of_namesAbove item.2 hnames]
        rw [if_neg hlater, List.flatMap_cons, hcells, hrest]

/-- The nested dict has the answers of a submission at the paths that the keys spell, if and only if
no key with an answer gives way to a later one or has another path. -/
theorem keepsAnswers_iff (submission : List (String × PyValue)) :
    (leavesIn (dictPaths2dict (dictLists2strings submission))).Perm (answers submission) ↔
      KeepsAnswers submission := by
  have hleaves := leaves_perm submission
  rw [answers_eq]
  constructor
  · intro h
    have hcells := hleaves.symm.trans h
    have hsum : pathSum ((keptKeys submission).flatMap nestedCells) =
        pathSum (submission.flatMap spelledCells) :=
      pathSum_perm hcells
    obtain ⟨hpairs, hnames⟩ := alone_of_pathSum hsum
    refine ⟨hpairs, fun item hitem hne => ?_⟩
    obtain ⟨hslash, habove⟩ := hnames item hitem hne
    refine ⟨hslash, (nestedPath_eq_iff hslash).mp ?_, habove⟩
    -- An answer of the key is one of a key with the same first part, which is the key itself.
    have hsome : leaves (listToString item.2) ≠ [] := by
      rw [ne_eq, ← List.length_eq_zero_iff, length_leaves, List.length_eq_zero_iff]
      exact hne
    obtain ⟨cell, hcell⟩ := List.exists_mem_of_ne_nil _ hsome
    have hnested : (nestedPath item.1 ++ cell.1, cell.2) ∈ nestedCells item :=
      mem_under.mpr ⟨cell.1, rfl, hcell⟩
    have hmem := hcells.subset (List.mem_flatMap.mpr ⟨item, mem_keptKeys hpairs hitem hne, hnested⟩)
    obtain ⟨other, hother, hspelled⟩ := List.mem_flatMap.mp hmem
    obtain ⟨rest, hpath, hrest⟩ := mem_under.mp hspelled
    have hne' : answersIn other.2 ≠ [] := List.ne_nil_of_mem hrest
    have htop : topName item.1 = topName other.1 := by
      have hhead := topName_eq_head (hnames other hother hne').1
      have hfirst := congrArg List.head? hpath
      rw [List.head?_append, List.head?_append, hhead] at hfirst
      exact Option.some_inj.mp hfirst
    obtain rfl := eq_of_topName_eq hpairs hitem hother hne hne' htop
    exact (List.append_inj hpath (length_nestedPath hslash)).1
  · intro h
    rw [← h.flatMap_keptKeys]
    exact hleaves

/-- Of two answers in one group, the first one is lost. -/
theorem not_keepsAnswers :
    ¬ ∀ submission : List (String × PyValue), (Dict.keys submission).Nodup →
      (∀ key ∈ Dict.keys submission, ∀ part ∈ splitPath key, IsName part) →
        (∀ key ∈ Dict.keys submission, ∀ other ∈ Dict.keys submission,
          splitPath key <+: splitPath other → key = other) →
        (∀ item ∈ submission, item.2.isStr = true) →
          (leavesIn (dictPaths2dict (dictLists2strings submission))).Perm
            (answers submission) := by
  intro hall
  have hperm := hall [("person/name", .str "Ann"), ("person/age", .str "5")] (by decide) (by decide)
    (by decide) (by decide)
  exact absurd hperm.length_eq (by decide)

end Onadata

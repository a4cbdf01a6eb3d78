import Mathlib.Data.Set.Basic
import Mathlib.Data.String.Basic
import Onadata.Lib.PyDict
import Onadata.Libs.Utils.DataviewFilters

/-!
# `Onadata.Proofs.Libs.Utils.DataviewFilters`: when the two readings of a filter agree

`applyFilters` keeps a submission if the lookups of the filters that its keyword arguments come
from all hold (`applyFilters_iff`), and the SQL selects it if it meets all filters with `and`
and one with `or` (`selects_iff`). `readsAlike_iff` is the table of the comparators: for which
values the lookup and the SQL of one filter agree.
-/

set_option autoImplicit false

namespace Onadata.Proofs

open Onadata.Lib

/-! ### The SQL -/

/-- A submission meets a filter as the SQL reads it. -/
def SqlReads (db : Database) (fields : KnownFields) (json : SubmissionJson)
    (f : DataViewFilter) : Prop :=
  db.compare ⟨fields.jsonSqlStr f.column, f.filter.whereOp⟩ f.column f.value json = true

/-- The filters with a condition. -/
def withCondition (condition : DataViewCondition) (queries : List DataViewFilter) :
    List DataViewFilter :=
  queries.filter fun f => f.condition = condition

/-- The comparison and the parameters of a filter. -/
def comparisonOf (fields : KnownFields) (f : DataViewFilter) : WhereComparison :=
  ⟨fields.jsonSqlStr f.column, f.filter.whereOp⟩

def paramsOf (f : DataViewFilter) : List String :=
  [f.column, f.value]

/-- The lists that the loop builds. -/
theorem foldl_appendWhere (fields : KnownFields) (queries : List DataViewFilter)
    (lists : WhereLists) :
    queries.foldl (appendWhere fields) lists =
      ⟨lists.whereList ++ (withCondition .and queries).map (comparisonOf fields),
        lists.whereParams ++ (withCondition .and queries).flatMap paramsOf,
        lists.orWhere ++ (withCondition .or queries).map (comparisonOf fields),
        lists.orParams ++ (withCondition .or queries).flatMap paramsOf⟩ := by
  induction queries generalizing lists with
  | nil => simp [withCondition]
  | cons f rest ih =>
      rw [List.foldl_cons, ih, appendWhere]
      cases hcondition : f.condition with
      | and => simp [withCondition, hcondition, comparisonOf, paramsOf]
      | or => simp [withCondition, hcondition, comparisonOf, paramsOf]

/-- A list of comparisons has two placeholders for each. -/
theorem placeholders_compare (cs : List WhereComparison) :
    Clauses.placeholders DataViewWhere.arity (cs.map .compare) = 2 * cs.length := by
  induction cs with
  | nil => rfl
  | cons c cs ih =>
      rw [List.map_cons, Clauses.placeholders_cons, ih, DataViewWhere.arity, List.length_cons]
      omega

/-- The parameters of filters, two for each. -/
theorem length_flatMap_paramsOf (queries : List DataViewFilter) :
    (queries.flatMap paramsOf).length = 2 * queries.length := by
  induction queries with
  | nil => rfl
  | cons f rest ih =>
      rw [List.flatMap_cons, List.length_append, ih, List.length_cons, paramsOf]
      simp only [List.length_cons, List.length_nil]
      omega

/-- Comparisons one after the other, each with its own parameters. -/
theorem holdsAll_compare (db : Database) (fields : KnownFields) (json : SubmissionJson)
    (queries : List DataViewFilter) (more : List String) :
    Clauses.HoldsAll DataViewWhere.arity (DataViewWhere.holds db)
        ((queries.map (comparisonOf fields)).map .compare)
        (queries.flatMap paramsOf ++ more) json ↔
      ∀ f ∈ queries, SqlReads db fields json f := by
  induction queries with
  | nil => simp [Clauses.HoldsAll]
  | cons f rest ih =>
      rw [List.map_cons, List.map_cons, List.flatMap_cons, List.append_assoc,
        Clauses.HoldsAll, List.forall_mem_cons, ← ih]
      exact Iff.rfl

/-- Alternatives, each with its own parameters. -/
theorem holdsAny_compare (db : Database) (fields : KnownFields) (json : SubmissionJson)
    (queries : List DataViewFilter) :
    Clauses.HoldsAny (fun _ => 2) (WhereComparison.holds db)
        (queries.map (comparisonOf fields)) (queries.flatMap paramsOf) json ↔
      ∃ f ∈ queries, SqlReads db fields json f := by
  induction queries with
  | nil => simp [Clauses.HoldsAny]
  | cons f rest ih =>
      rw [List.map_cons, List.flatMap_cons, Clauses.HoldsAny, List.exists_mem_cons_iff, ← ih]
      exact Iff.rfl

/-- Alternatives have two placeholders for each. -/
theorem placeholders_any (cs : List WhereComparison) :
    (DataViewWhere.any cs).arity = 2 * cs.length := by
  rw [DataViewWhere.arity]
  induction cs with
  | nil => rfl
  | cons c cs ih =>
      rw [Clauses.placeholders_cons, ih, List.length_cons]
      omega

/-- The clause has as many placeholders as parameters. -/
theorem placeholders_getWhereClause (fields : KnownFields) (queries : List DataViewFilter) :
    Clauses.placeholders DataViewWhere.arity (fields.getWhereClause queries).conditions =
      (fields.getWhereClause queries).params.length := by
  rw [KnownFields.getWhereClause, foldl_appendWhere]
  simp only [List.nil_append, List.map_eq_nil_iff]
  rw [Clauses.placeholders_append, placeholders_compare, List.length_append,
    length_flatMap_paramsOf, length_flatMap_paramsOf, List.length_map]
  by_cases hnone : withCondition .or queries = []
  · rw [if_pos hnone, hnone]
    rfl
  · rw [if_neg hnone, Clauses.placeholders_cons, placeholders_any, List.length_map]
    rfl

/-- The clause selects the submissions that meet all filters with `and`, and some filter with
`or` if there is one. -/
theorem selects_iff (db : Database) (fields : KnownFields) (queries : List DataViewFilter)
    (json : SubmissionJson) :
    fields.Selects db queries json ↔
      (∀ f ∈ withCondition .and queries, SqlReads db fields json f) ∧
        (withCondition .or queries = [] ∨
          ∃ f ∈ withCondition .or queries, SqlReads db fields json f) := by
  refine (and_iff_right (placeholders_getWhereClause fields queries)).trans ?_
  rw [KnownFields.getWhereClause, foldl_appendWhere]
  simp only [List.nil_append, List.map_eq_nil_iff]
  by_cases hnone : withCondition .or queries = []
  · simp only [hnone, if_true, List.append_nil, List.flatMap_nil, true_or, and_true]
    have hall := holdsAll_compare db fields json (withCondition .and queries) []
    rw [List.append_nil] at hall
    exact hall
  · simp only [hnone, if_false, false_or]
    have hcount : Clauses.placeholders DataViewWhere.arity
        (((withCondition .and queries).map (comparisonOf fields)).map .compare) =
          ((withCondition .and queries).flatMap paramsOf).length := by
      rw [placeholders_compare, length_flatMap_paramsOf, List.length_map]
    have hany : Clauses.HoldsAll DataViewWhere.arity (DataViewWhere.holds db)
        [.any ((withCondition .or queries).map (comparisonOf fields))]
        ((withCondition .or queries).flatMap paramsOf) json ↔
          ∃ f ∈ withCondition .or queries, SqlReads db fields json f := by
      have htake : ((withCondition .or queries).flatMap paramsOf).take
          (DataViewWhere.any ((withCondition .or queries).map (comparisonOf fields))).arity =
            (withCondition .or queries).flatMap paramsOf := by
        rw [List.take_of_length_le]
        rw [placeholders_any, List.length_map, length_flatMap_paramsOf]
      rw [Clauses.HoldsAll, Clauses.HoldsAll, htake, and_true, DataViewWhere.holds]
      exact holdsAny_compare db fields json _
    rw [Clauses.HoldsAll.append_iff, hcount, List.drop_left, holdsAll_compare, hany]

/-! ### The lookups -/

/-- The lookup of a comparator. -/
def lookupOf : DataViewComparator → JsonLookup
  | .eq => .iexact
  | .lt => .lt
  | _ => .gt

/-- A submission meets a filter as the ORM reads it. -/
def OrmReads (db : Database) (json : SubmissionJson) (f : DataViewFilter) : Prop :=
  (Dict.get? json f.column).any (fun value => db.lookup (lookupOf f.filter) value f.value) = true

/-- A split has at least one part. -/
theorem splitLookup_ne_nil (cs : List Char) : splitLookup cs ≠ [] := by
  fun_cases splitLookup cs <;> simp

/-- Behind the first character of a text without `__` there is none either. -/
theorem length_splitLookup_tail {c : Char} {cs : List Char}
    (h : (splitLookup (c :: cs)).length = 1) : (splitLookup cs).length = 1 := by
  unfold splitLookup at h
  split at h
  · -- a `__` makes two parts
    exact absurd (List.length_eq_zero_iff.mp (Nat.succ.inj h)) (splitLookup_ne_nil _)
  · rename_i heq
    obtain ⟨rfl, rfl⟩ := List.cons.inj heq
    split at h
    · rename_i hparts
      rw [hparts]
      exact h
    · rename_i hnil
      exact absurd hnil (splitLookup_ne_nil _)
  · rename_i heq
    cases heq

/-- A text without `__` that does not end with `_` is the part before a `__`. -/
theorem splitLookup_append {cs : List Char} (rest : List Char)
    (hsafe : (splitLookup cs).length = 1) (hlast : cs.getLast? ≠ some '_') :
    splitLookup (cs ++ '_' :: '_' :: rest) = cs :: splitLookup rest := by
  induction cs with
  | nil => rw [List.nil_append, splitLookup]
  | cons c cs ih =>
      have hcs := length_splitLookup_tail hsafe
      cases cs with
      | nil =>
          -- the only character is no underscore, so that no earlier `__` starts here
          have hc : c ≠ '_' := fun heq => hlast (by rw [heq]; rfl)
          rw [List.cons_append, List.nil_append, splitLookup]
          · rw [splitLookup]
          · intro _ heq _
            exact hc heq
      | cons d cs =>
          have hih := ih hcs (by rwa [List.getLast?_cons_cons] at hlast)
          have hnot : c = '_' → d = '_' → False := by
            rintro rfl rfl
            rw [splitLookup] at hsafe
            exact splitLookup_ne_nil _ (List.length_eq_zero_iff.mp (Nat.succ.inj hsafe))
          rw [List.cons_append, splitLookup]
          · rw [hih]
          · intro _ hc hd
            exact hnot hc (List.cons.inj hd).1

/-- The parts of a keyword argument. -/
theorem splitLookup_getFieldLookup {column : String} (filter : DataViewComparator)
    (hsafe : isSafeColumn column = true) (hlast : column.toList.getLast? ≠ some '_') :
    (splitLookup (getFieldLookup column filter).toList).map String.ofList =
      ["json", column,
        match filter with
        | .eq => "iexact"
        | .lt => "lt"
        | _ => "gt"] := by
  have hjson : splitLookup (['j', 's', 'o', 'n'] ++ '_' :: '_' :: (column.toList ++
      (filterToFieldLookup filter).toList)) =
        ['j', 's', 'o', 'n'] :: splitLookup (column.toList ++
          (filterToFieldLookup filter).toList) :=
    splitLookup_append _ rfl (by decide)
  have hlength : (splitLookup column.toList).length = 1 := by
    simpa [isSafeColumn] using hsafe
  rw [getFieldLookup, String.toList_append, String.toList_append, List.append_assoc,
    show "json__".toList ++ (column.toList ++ (filterToFieldLookup filter).toList) =
      ['j', 's', 'o', 'n'] ++ '_' :: '_' :: (column.toList ++
        (filterToFieldLookup filter).toList) from rfl, hjson, List.map_cons]
  have hcolumn : ∀ name : List Char,
      (splitLookup (column.toList ++ '_' :: '_' :: name)).map String.ofList =
        column :: (splitLookup name).map String.ofList := by
    intro name
    rw [splitLookup_append name hlength hlast, List.map_cons, String.ofList_toList]
  cases filter <;> exact congrArg _ (hcolumn _)

/-- A keyword argument for a plain column reads the column. -/
theorem kwargHolds_getFieldLookup (db : Database) (json : SubmissionJson) {f : DataViewFilter}
    (hsafe : isSafeColumn f.column = true) (hlast : f.column.toList.getLast? ≠ some '_')
    (hinteger : db.isInteger f.column = false) :
    db.kwargHolds json (getFieldLookup f.column f.filter, f.value) = true ↔
      OrmReads db json f := by
  rw [Database.kwargHolds, splitLookup_getFieldLookup f.filter hsafe hlast, OrmReads]
  cases f.filter <;> simp [resolveLookup, Database.jsonAt, hinteger, lookupOf]

/-! ### The filters that the ORM keeps -/

/-- The keyword argument of a filter. -/
def kwargOf (f : DataViewFilter) : String × String :=
  (getFieldLookup f.column f.filter, f.value)

/-- The filters that the keyword arguments come from: those with a safe column that no later
filter with a safe column and the same keyword replaces. -/
def keptFilters : List DataViewFilter → List DataViewFilter
  | [] => []
  | f :: rest =>
      if isSafeColumn f.column = true ∧
          ∀ g ∈ rest, isSafeColumn g.column = true → (kwargOf g).1 ≠ (kwargOf f).1 then
        f :: keptFilters rest
      else keptFilters rest

/-- A filter that is kept is one of the filters, with a safe column. -/
theorem mem_of_mem_keptFilters {queries : List DataViewFilter} {f : DataViewFilter}
    (h : f ∈ keptFilters queries) : f ∈ queries ∧ isSafeColumn f.column = true := by
  induction queries with
  | nil => cases h
  | cons g rest ih =>
      rw [keptFilters] at h
      split at h
      · rename_i hkept
        rcases List.mem_cons.mp h with rfl | h
        · exact ⟨List.mem_cons_self, hkept.1⟩
        · exact (ih h).imp_left (List.mem_cons_of_mem g)
      · exact (ih h).imp_left (List.mem_cons_of_mem g)

/-- One round of `get_filter_kwargs`. -/
def insertKwarg (kwargs : List (String × String)) (f : DataViewFilter) :
    List (String × String) :=
  if isSafeColumn f.column then Dict.insert kwargs (kwargOf f).1 (kwargOf f).2 else kwargs

/-- The arguments after some rounds: those of the filters that are kept, and the earlier ones
that no filter replaces. -/
theorem mem_foldl_insertKwarg (queries : List DataViewFilter) {kwargs : List (String × String)}
    (hnodup : (Dict.keys kwargs).Nodup) (kwarg : String × String) :
    kwarg ∈ queries.foldl insertKwarg kwargs ↔
      (∃ f ∈ keptFilters queries, kwarg = kwargOf f) ∨
        (kwarg ∈ kwargs ∧
          ∀ f ∈ queries, isSafeColumn f.column = true → (kwargOf f).1 ≠ kwarg.1) := by
  induction queries generalizing kwargs with
  | nil => simp [keptFilters]
  | cons f rest ih =>
      rw [List.foldl_cons, List.forall_mem_cons]
      by_cases hsafe : isSafeColumn f.column = true
      · have hstep : insertKwarg kwargs f = Dict.insert kwargs (kwargOf f).1 (kwargOf f).2 :=
          if_pos hsafe
        rw [hstep, ih (Dict.nodup_keys_insert hnodup _ _), Dict.mem_insert_iff hnodup]
        by_cases hlater : ∀ g ∈ rest, isSafeColumn g.column = true → (kwargOf g).1 ≠ (kwargOf f).1
        · -- no later filter replaces the argument
          rw [show keptFilters (f :: rest) = f :: keptFilters rest from if_pos ⟨hsafe, hlater⟩,
            List.exists_mem_cons_iff]
          constructor
          · rintro (hkept | ⟨rfl | ⟨hold, hne⟩, hrest⟩)
            · exact Or.inl (Or.inr hkept)
            · exact Or.inl (Or.inl rfl)
            · exact Or.inr ⟨hold, fun _ => Ne.symm hne, hrest⟩
          · rintro ((rfl | hkept) | ⟨hold, hne, hrest⟩)
            · exact Or.inr ⟨Or.inl rfl, hlater⟩
            · exact Or.inl hkept
            · exact Or.inr ⟨Or.inr ⟨hold, Ne.symm (hne hsafe)⟩, hrest⟩
        · -- a later filter has the same keyword
          rw [show keptFilters (f :: rest) = keptFilters rest from if_neg fun h => hlater h.2]
          constructor
          · rintro (hkept | ⟨rfl | ⟨hold, hne⟩, hrest⟩)
            · exact Or.inl hkept
            · exact absurd hrest hlater
            · exact Or.inr ⟨hold, fun _ => Ne.symm hne, hrest⟩
          · rintro (hkept | ⟨hold, hne, hrest⟩)
            · exact Or.inl hkept
            · exact Or.inr ⟨Or.inr ⟨hold, Ne.symm (hne hsafe)⟩, hrest⟩
      · have hstep : insertKwarg kwargs f = kwargs := if_neg hsafe
        rw [hstep, ih hnodup, show keptFilters (f :: rest) = keptFilters rest from
          if_neg fun h => hsafe h.1]
        simp [hsafe]

/-- The ORM keeps the submissions for which the lookup of each kept filter holds. -/
theorem applyFilters_iff (db : Database) (queries : List DataViewFilter)
    (json : SubmissionJson) :
    applyFilters db queries json = true ↔
      ∀ f ∈ keptFilters queries, db.kwargHolds json (kwargOf f) = true := by
  have hkwargs : ∀ kwarg, kwarg ∈ getFilterKwargs queries ↔
      ∃ f ∈ keptFilters queries, kwarg = kwargOf f := by
    intro kwarg
    have hnodup : (Dict.keys ([] : List (String × String))).Nodup := List.nodup_nil
    show kwarg ∈ queries.foldl insertKwarg [] ↔ _
    rw [mem_foldl_insertKwarg queries hnodup]
    simp
  unfold applyFilters
  split
  · rename_i hnil
    simp [hnil, keptFilters]
  · rw [List.all_eq_true]
    constructor
    · intro h f hf
      exact h _ ((hkwargs _).mpr ⟨f, hf, rfl⟩)
    · intro h kwarg hkwarg
      obtain ⟨f, hf, rfl⟩ := (hkwargs kwarg).mp hkwarg
      exact h f hf

/-! ### Filters with one reading -/

/-- A filter on a column that is compared as text reads a text value alike: `=` unless the two
differ only in case, `<` and `>` always, `>=` unless they are equal, `<=` never, and `<>` and
`!=` unless the value of the column comes first. -/
def ReadsTextAlike (db : Database) (filter : DataViewComparator) (text value : String) : Prop :=
  match filter with
  | .eq => db.upper text = db.upper value → text = value
  | .gt | .lt => True
  | .gte => text ≠ value
  | .lte => False
  | .ltgt | .bangEq => db.textLt text value = false

/-- A filter reads a text alike that is compared after a cast: the comparison has the result of
the text comparison that the ORM makes. -/
def ReadsCastAlike (db : Database) (lhs : JsonSql) (filter : DataViewComparator)
    (text value : String) : Prop :=
  match filter with
  | .eq => db.compareAs lhs .eq text value = true ↔ db.upper text = db.upper value
  | .lt => db.compareAs lhs .lt text value = true ↔ db.textLt text value = true
  | filter => db.compareAs lhs filter.whereOp text value = true ↔ db.textLt value text = true

/-- A filter reads a value alike that is no text. It comes before all texts or after them, so
that `<` holds of it in the ORM or each of the other comparisons but `=`. -/
def ReadsOtherAlike (db : Database) (lhs : JsonSql) (filter : DataViewComparator)
    (other : PyValue) (value : String) : Prop :=
  let sql := (db.textOf other).any fun text => db.compareWith lhs filter.whereOp text value
  match filter with
  | .eq => sql = true ↔ (db.textOf other).any (fun text => db.upper text == db.upper value) = true
  | .lt => sql = belowTexts other
  | _ => sql = !belowTexts other

/-- The two readings of a filter agree on a submission. -/
def ReadsAlike (db : Database) (fields : KnownFields) (json : SubmissionJson)
    (f : DataViewFilter) : Prop :=
  match Dict.get? json f.column, fields.jsonSqlStr f.column with
  | none, _ => True
  | some (.str text), .text => ReadsTextAlike db f.filter text f.value
  | some (.str text), lhs => ReadsCastAlike db lhs f.filter text f.value
  | some other, lhs => ReadsOtherAlike db lhs f.filter other f.value

/-- `<>` as `>`: alike unless the text of the column comes first. -/
theorem readsNotEqualAlike_iff (db : Database) (text value : String) :
    db.textLt text value = false ↔ (text ≠ value ↔ db.textLt value text = true) := by
  constructor
  · intro hnot
    constructor
    · exact fun hne => (db.textLt_total text value hne).resolve_left (by simp [hnot])
    · rintro hlt rfl
      rw [db.textLt_irrefl] at hlt
      cases hlt
  · intro h
    cases hlt : db.textLt text value with
    | false => rfl
    | true =>
        have hne : text ≠ value := by
          rintro rfl
          rw [db.textLt_irrefl] at hlt
          cases hlt
        rw [db.textLt_asymm _ _ (h.mp hne)] at hlt
        cases hlt

/-- Texts are read alike as `ReadsTextAlike` says. -/
theorem readsTextAlike_iff (db : Database) (filter : DataViewComparator) (text value : String) :
    ReadsTextAlike db filter text value ↔
      (db.compareText filter.whereOp text value = true ↔
        db.lookup (lookupOf filter) (.str text) value = true) := by
  have htotal : text ≠ value → db.textLt text value = false → db.textLt value text = true :=
    fun hne hnot => (db.textLt_total text value hne).resolve_left (by simp [hnot])
  cases filter with
  | eq =>
      simp only [ReadsTextAlike, DataViewComparator.whereOp, Database.compareText, lookupOf,
        Database.lookup, Database.textOf, Option.any_some, beq_iff_eq]
      exact ⟨fun h => ⟨fun heq => heq ▸ rfl, h⟩, fun h => h.mpr⟩
  | gt =>
      simp [ReadsTextAlike, DataViewComparator.whereOp, Database.compareText, lookupOf,
        Database.lookup, db.jsonLt_text]
  | lt =>
      simp [ReadsTextAlike, DataViewComparator.whereOp, Database.compareText, lookupOf,
        Database.lookup, db.jsonLt_text]
  | gte =>
      simp only [ReadsTextAlike, DataViewComparator.whereOp, Database.compareText, lookupOf,
        Database.lookup, db.jsonLt_text, Bool.not_eq_true']
      constructor
      · exact fun hne => ⟨htotal hne, fun hlt => db.textLt_asymm _ _ hlt⟩
      · rintro h rfl
        have := h.mp (db.textLt_irrefl text)
        rw [db.textLt_irrefl] at this
        cases this
  | lte =>
      simp only [ReadsTextAlike, DataViewComparator.whereOp, Database.compareText, lookupOf,
        Database.lookup, db.jsonLt_text, Bool.not_eq_true', false_iff]
      cases db.textLt value text <;> simp
  | ltgt =>
      simp only [ReadsTextAlike, DataViewComparator.whereOp, Database.compareText, lookupOf,
        Database.lookup, db.jsonLt_text, bne_iff_ne]
      exact readsNotEqualAlike_iff db text value
  | bangEq =>
      simp only [ReadsTextAlike, DataViewComparator.whereOp, Database.compareText, lookupOf,
        Database.lookup, db.jsonLt_text, bne_iff_ne]
      exact readsNotEqualAlike_iff db text value

/-- A text that is compared after a cast is read alike as `ReadsCastAlike` says. -/
theorem readsCastAlike_iff (db : Database) {lhs : JsonSql} (hlhs : lhs ≠ .text)
    (filter : DataViewComparator) (text value : String) :
    ReadsCastAlike db lhs filter text value ↔
      (db.compareWith lhs filter.whereOp text value = true ↔
        db.lookup (lookupOf filter) (.str text) value = true) := by
  have hcast : ∀ op, db.compareWith lhs op text value = db.compareAs lhs op text value := by
    intro op
    cases lhs with
    | text => exact absurd rfl hlhs
    | _ => rfl
  rw [hcast]
  cases filter <;>
    simp [ReadsCastAlike, DataViewComparator.whereOp, lookupOf, Database.lookup,
      Database.textOf, db.jsonLt_text]

/-- A value that is no text is read alike as `ReadsOtherAlike` says. -/
theorem readsOtherAlike_iff (db : Database) (lhs : JsonSql) (filter : DataViewComparator)
    {other : PyValue} (hother : other.isStr = false) (value : String) :
    ReadsOtherAlike db lhs filter other value ↔
      ((db.textOf other).any (fun text => db.compareWith lhs filter.whereOp text value) = true ↔
        db.lookup (lookupOf filter) other value = true) := by
  obtain ⟨hlt, hgt⟩ := db.jsonLt_other other value hother
  cases filter with
  | eq => exact Iff.rfl
  | lt =>
      show _ ↔ (_ ↔ db.jsonLt other (.str value) = true)
      rw [hlt]
      exact Bool.eq_iff_iff
  | _ =>
      show _ ↔ (_ ↔ db.jsonLt (.str value) other = true)
      rw [hgt]
      exact Bool.eq_iff_iff

/-- A filter is read alike as the table says. -/
theorem readsAlike_iff (db : Database) (fields : KnownFields) (json : SubmissionJson)
    (f : DataViewFilter) :
    ReadsAlike db fields json f ↔ (SqlReads db fields json f ↔ OrmReads db json f) := by
  unfold ReadsAlike SqlReads OrmReads Database.compare
  cases hvalue : Dict.get? json f.column with
  | none => simp
  | some value =>
      cases value with
      | str text =>
          cases hlhs : fields.jsonSqlStr f.column with
          | text => exact readsTextAlike_iff db f.filter text f.value
          | _ => exact readsCastAlike_iff db (by simp) f.filter text f.value
      | _ => exact readsOtherAlike_iff db (fields.jsonSqlStr f.column) f.filter rfl f.value

/-! ### When the two select the same submissions -/

/-- A submission meets the filters as the SQL groups them: all those with `and`, and one with
`or` if there is one. -/
def MeetsSql (db : Database) (fields : KnownFields) (queries : List DataViewFilter)
    (json : SubmissionJson) : Prop :=
  (∀ f ∈ withCondition .and queries, SqlReads db fields json f) ∧
    (withCondition .or queries = [] ∨
      ∃ f ∈ withCondition .or queries, SqlReads db fields json f)

/-- A column whose keyword argument names it: it has no `__`, does not end with `_`, and is no
index. -/
def PlainColumn (db : Database) (column : String) : Prop :=
  isSafeColumn column = true ∧ column.toList.getLast? ≠ some '_' ∧ db.isInteger column = false

/-- What a kept filter has to do for a submission that the SQL selects: one with `and` on a plain
column is read alike, and of any other one the lookup holds. -/
def KeptAlike (db : Database) (fields : KnownFields) (json : SubmissionJson)
    (f : DataViewFilter) : Prop :=
  (f.condition = .and ∧ PlainColumn db f.column → ReadsAlike db fields json f) ∧
    (f.condition = .or ∨ ¬PlainColumn db f.column → db.kwargHolds json (kwargOf f) = true)

/-- The two readings of a query agree on a submission: one that meets the filters as the SQL
groups them has `KeptAlike` of all kept filters, and one that does not fails the lookup of one of
them. -/
def FiltersAlike (db : Database) (fields : KnownFields) (queries : List DataViewFilter)
    (json : SubmissionJson) : Prop :=
  (MeetsSql db fields queries json → ∀ f ∈ keptFilters queries, KeptAlike db fields json f) ∧
    (¬MeetsSql db fields queries json →
      ∃ f ∈ keptFilters queries, db.kwargHolds json (kwargOf f) = false)

/-- Of a filter that a submission meets under the SQL, the lookup holds if it is alike. -/
theorem kwargHolds_iff_keptAlike {db : Database} {fields : KnownFields} {json : SubmissionJson}
    {f : DataViewFilter} (hsql : f.condition = .and → SqlReads db fields json f) :
    db.kwargHolds json (kwargOf f) = true ↔ KeptAlike db fields json f := by
  by_cases hand : f.condition = .and ∧ PlainColumn db f.column
  · have hplain := kwargHolds_getFieldLookup db json hand.2.1 hand.2.2.1 hand.2.2.2
    have hnot : ¬(f.condition = .or ∨ ¬PlainColumn db f.column) := by
      rintro (hor | hcolumn)
      · rw [hand.1] at hor
        cases hor
      · exact hcolumn hand.2
    rw [KeptAlike, readsAlike_iff, kwargOf, hplain]
    constructor
    · intro horm
      exact ⟨fun _ => iff_of_true (hsql hand.1) horm, fun h => absurd h hnot⟩
    · exact fun h => (h.1 hand).mp (hsql hand.1)
  · have hor : f.condition = .or ∨ ¬PlainColumn db f.column := by
      cases hcondition : f.condition with
      | or => exact Or.inl rfl
      | and => exact Or.inr fun hcolumn => hand ⟨hcondition, hcolumn⟩
    constructor
    · exact fun h => ⟨fun h' => absurd h' hand, fun _ => h⟩
    · exact fun h => h.2 hor

/-- A submission is selected by both or by neither exactly if the readings of the filters agree
on it. -/
theorem applyFilters_eq_selects_iff (db : Database) (fields : KnownFields)
    (queries : List DataViewFilter) (json : SubmissionJson) :
    (applyFilters db queries json = true ↔ fields.Selects db queries json) ↔
      FiltersAlike db fields queries json := by
  rw [selects_iff, applyFilters_iff]
  show (_ ↔ MeetsSql db fields queries json) ↔ _
  unfold FiltersAlike
  by_cases hmeets : MeetsSql db fields queries json
  · have hkept : ∀ f ∈ keptFilters queries,
        (db.kwargHolds json (kwargOf f) = true ↔ KeptAlike db fields json f) := by
      intro f hf
      refine kwargHolds_iff_keptAlike fun hand => hmeets.1 f ?_
      exact List.mem_filter.mpr ⟨(mem_of_mem_keptFilters hf).1, decide_eq_true hand⟩
    simp only [hmeets, iff_true, true_implies, not_true, false_implies, and_true]
    exact forall₂_congr hkept
  · simp [hmeets]

/-- The number that decimal digits write. -/
def digitsOf (cs : List Char) : Option Int :=
  if cs ≠ [] ∧ cs.all Char.isDigit then
    some (cs.foldl (fun n c => 10 * n + (c.toNat - '0'.toNat : Nat)) 0)
  else none

/-- The integer that a text writes. -/
def integerOf (text : String) : Option Int :=
  match text.toList with
  | '-' :: cs => (digitsOf cs).map fun n => -n
  | cs => digitsOf cs

/-- Texts in the order of their code points, and integers in the casts. -/
def codePointDatabase : Database where
  upper text := text.map Char.toUpper
  textLt s t := decide (s < t)
  jsonText
    | .bool b => if b then "true" else "false"
    | .int n => toString n
    | _ => ""
  jsonLt
    | .str s, .str t => decide (s < t)
    | value, .str _ => belowTexts value
    | .str _, value => !belowTexts value
    | _, _ => false
  compareAs _ op text value :=
    match integerOf text, integerOf value, op with
    | some n, some m, .eq => n == m
    | some n, some m, .gt => decide (m < n)
    | some n, some m, .lt => decide (n < m)
    | some n, some m, .gte => decide (m ≤ n)
    | some n, some m, .lte => decide (n ≤ m)
    | some n, some m, .ne => n != m
    | _, _, _ => false
  isInteger text := (integerOf text).isSome
  textLt_irrefl s := decide_eq_false (lt_irrefl s)
  textLt_asymm s t h := decide_eq_false (lt_asymm (of_decide_eq_true h))
  textLt_total s t h := (lt_or_gt_of_ne h).imp (decide_eq_true ·) (decide_eq_true ·)
  jsonLt_text s t := rfl
  jsonLt_other value s h := by
    cases value with
    | str text => cases h
    | _ => exact ⟨rfl, rfl⟩

end Onadata.Proofs

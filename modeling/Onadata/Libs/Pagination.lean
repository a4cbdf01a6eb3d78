import Onadata.Lib.PageWalk

/-!
# `Onadata.Libs.Pagination`: pages of a listing and the links between them

`CountOverridablePaginator` and `CountOverridablePageNumberPagination` of `libs/pagination.py`, with
`_positive_int`, `get_page_size` and `Paginator.page` that they inherit, and
`_set_pagination_headers`, `paginate_queryset` and `_get_data` of
`apps/api/viewsets/data_viewset.py`.

The parameters of a request are texts, which `int` reads. The header has links with `page` and
`page_size` alone.

Left out: the listings that are sorted, have selected fields, or have a start or a limit (these
are paged by the database), merged datasets, and the base of an URL. The quotient for the last page
is exact here, and in doubles as long as there are less than 2^52 records.
-/

set_option autoImplicit false

namespace Onadata

open Onadata.Lib

/-- `int(text)`, or none for a `ValueError`. It reads what `str` writes, and no word. -/
structure IntRuntime where
  int : String → Option Int
  int_toString : ∀ n : Int, int (toString n) = some n
  int_last : int "last" = none

/-- A number of rows on a page. -/
abbrev PageSize := { size : Nat // 0 < size }

/-- The settings of the pages. A `maxPageSize` of zero is no maximum. -/
structure PageSettings where
  pageSize : PageSize := ⟨1000, by decide⟩
  maxPageSize : Nat := 10000
  retrievalThreshold : PageSize := ⟨10000, by decide⟩

/-- The parameters of a request for a page. -/
structure PageParams where
  page : Option String := none
  pageSize : Option String := none
  deriving DecidableEq, Repr

/-- What a request for a page can end with. -/
inductive PageError
  | notFound
  | zeroDivisionError
  deriving DecidableEq, Repr

/-! ### The paginator -/

/-- `CountOverridablePaginator`. -/
structure CountOverridablePaginator (Row : Type) where
  objectList : List Row
  perPage : PageSize
  countOverride : Nat

namespace CountOverridablePaginator

variable {Row : Type} (paginator : CountOverridablePaginator Row)

/-- `count`. A `count_override` of zero is none. -/
def count : Nat :=
  if paginator.countOverride = 0 then paginator.objectList.length else paginator.countOverride

/-- `num_pages`: without rows there is one page. -/
def numPages : Nat :=
  (max 1 paginator.count + paginator.perPage.1 - 1) / paginator.perPage.1

/-- `page`, with `validate_number`. -/
def page : (number : Option Int) → Except PageError (List Row)
  | none => .error .notFound
  | some number =>
      if number < 1 ∨ (paginator.numPages : Int) < number then .error .notFound
      else
        let bottom := (number.toNat - 1) * paginator.perPage.1
        let top := bottom + paginator.perPage.1
        .ok (slice paginator.objectList bottom (if paginator.count ≤ top then paginator.count
          else top))

end CountOverridablePaginator

section
variable (py : IntRuntime) (settings : PageSettings)

/-- `_positive_int(text, strict=True, cutoff=max_page_size)`. -/
def positiveInt (text : String) : Option PageSize :=
  match py.int text with
  | none => none
  | some number =>
      if h : 0 < number.toNat then
        if hmax : 0 < settings.maxPageSize then
          some ⟨min number.toNat settings.maxPageSize, by omega⟩
        else some ⟨number.toNat, h⟩
      else none

/-- `get_page_size`. -/
def getPageSize (default : PageSize) (params : PageParams) : PageSize :=
  (params.pageSize.bind (positiveInt py settings)).getD default

/-- `CountOverridablePageNumberPagination.paginate_queryset`. -/
def paginateQueryset {Row : Type} (default : PageSize) (params : PageParams) (rows : List Row)
    (count : Nat) : Except PageError (List Row) :=
  let paginator : CountOverridablePaginator Row :=
    ⟨rows, getPageSize py settings default params, count⟩
  match params.page with
  | none => paginator.page (some 1)
  | some text =>
      if text = "last" then paginator.page (some paginator.numPages)
      else paginator.page (py.int text)

/-! ### The links -/

/-- The page of a link, and its size. -/
structure PageLink where
  page : Int
  pageSize : Int
  deriving DecidableEq, Repr

/-- The parameters of the request for a link. -/
def PageLink.params (link : PageLink) : PageParams where
  page := some (toString link.page)
  pageSize := some (toString link.pageSize)

/-- The links of a header. -/
structure PageLinks where
  prev : Option PageLink := none
  next : Option PageLink := none
  last : Option PageLink := none
  first : Option PageLink := none
  deriving DecidableEq, Repr

/-- `math.ceil(num_of_records / current_page_size)`. -/
def ceilDiv (numOfRecords : Nat) (pageSize : Int) : Int :=
  -Int.fdiv (-numOfRecords) pageSize

/-- `_set_pagination_headers`, for the number of records that the header counts. -/
def setPaginationHeaders (numOfRecords : Nat) (params : PageParams) :
    Except PageError PageLinks :=
  match params.page.elim (some 1) py.int,
      params.pageSize.elim (some (settings.retrievalThreshold.1 : Int)) py.int with
  | some currentPage, some currentPageSize =>
      if currentPageSize = 0 then .error .zeroDivisionError
      else
        let lastPage := ceilDiv numOfRecords currentPageSize
        .ok {
          next := if currentPage * currentPageSize < numOfRecords then
            some ⟨currentPage + 1, currentPageSize⟩ else none
          prev := if 1 < currentPage then some ⟨currentPage - 1, currentPageSize⟩ else none
          last := if lastPage = currentPage ∨ lastPage = currentPage + 1 then none
            else some ⟨lastPage, currentPageSize⟩
          first := if currentPage = 1 then none else some ⟨1, currentPageSize⟩ }
  | _, _ => .ok {}

/-! ### The listing -/

/-- The submissions of a form that a user can list. `numOfSubmissions` is the counter of the form,
`answer` the order in which the database gives the rows for a request that does not order them.

- `selects query`: the conditions of the listing and of the query hold of the submission;
- `queryCount query`: `query_count`. -/
structure PagedForm (Row : Type) where
  numOfSubmissions : Nat
  rows : List Row
  id : Row → Int
  selects : Option String → Row → Bool
  queryCount : String → Nat
  answer : Nat → List Row → List Row
  ids_nodup : (rows.map id).Nodup
  answer_perm : ∀ k rows, (answer k rows).Perm rows

/-- A request for submissions. The links of a page have no query. -/
structure PageRequest where
  query : Option String := none
  params : PageParams := {}
  deriving DecidableEq, Repr

variable {Row : Type} (form : PagedForm Row)

/-- `self.object_list` for the `k`-th request: it is ordered below the threshold. -/
def PagedForm.objectList (k : Nat) (query : Option String) : List Row :=
  let selected := form.rows.filter (form.selects query)
  if form.numOfSubmissions < settings.retrievalThreshold.1 then
    selected.mergeSort fun row row' => form.id row ≤ form.id row'
  else form.answer k selected

/-- `num_of_records`. An empty query is none. -/
def PagedForm.numOfRecords (query : Option String) : Nat :=
  match query with
  | some query => if query = "" then form.numOfSubmissions else form.queryCount query
  | none => form.numOfSubmissions

/-- `_get_data`: the rows of the response, and its links. -/
def getData (k : Nat) (request : PageRequest) : Except PageError (List Row × PageLinks) := do
  let rows := form.objectList settings k request.query
  let asked := request.params.page.isSome || request.params.pageSize.isSome
  if asked || decide (settings.retrievalThreshold.1 < form.numOfSubmissions) then
    let links ← setPaginationHeaders py settings (form.numOfRecords request.query) request.params
    let default := if asked then settings.pageSize else settings.retrievalThreshold
    let page ← paginateQueryset py settings default request.params rows form.numOfSubmissions
    return (page, links)
  else return (rows, {})

/-- A response as a page, with the request for its next link. -/
def getPage (k : Nat) (request : PageRequest) : Except PageError (LinkedPage PageRequest Row) :=
  (getData py settings form k request).map fun response =>
    ⟨response.1, response.2.next.map fun link => { params := link.params }⟩

end

end Onadata
